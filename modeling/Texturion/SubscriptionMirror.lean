/-
**A company and its Stripe subscription.**

`apps/api/src/webhooks/stripe.ts`: what Stripe says of a company's subscription is mirrored on the
company's row.  `syncSubscription` fetches the subscription and writes its status, plan and pause,
`handleSubscriptionDeleted` writes the end of one, and `handleCheckoutCompleted` attaches a new
subscription and brings the numbers back.  An ended subscription starts a clock on the row and
suspends the numbers.

Every call to Stripe and to the database is a step of its own, and between two steps of a handler
anything else may happen.  A handler one of whose calls fails, with its effect or without it, is run
again from the start until it gets through.  Stripe may change a subscription at any time and tells
of every change with an event; an ended subscription stays ended.

Of the company's row and of the subscription only what the mirror and its conditions look at is
here: billing periods, modules, notices and the cohort stamp are left out.
-/

import Texturion.Interleaving
import Mathlib.Data.Int.Notation

namespace SubscriptionMirror

/-! ### What Stripe says -/

/-- `Stripe.Subscription.status`. -/
inductive StripeStatus
  | incomplete
  | incompleteExpired
  | trialing
  | active
  | pastDue
  | unpaid
  | canceled
  | paused
  deriving DecidableEq

/-- `LocalSubscriptionStatus`. -/
inductive LocalStatus
  | incomplete
  | incompleteExpired
  | active
  | pastDue
  | unpaid
  | canceled
  deriving DecidableEq

inductive PlanId
  | starter
  | pro
  deriving DecidableEq

/-- A line of a subscription, by its price: the licensed price of a plan, the pause price with its
amount, or another one. -/
inductive Item
  | licensed (plan : PlanId)
  | pause (unitAmount : Option ℕ)
  | other
  deriving DecidableEq

structure Subscription where
  status : StripeStatus
  items : List Item
  cancelAtPeriodEnd : Bool
  canceledAt : Option ℤ
  endedAt : Option ℤ
  deriving DecidableEq

def mirrorSubscriptionStatus : StripeStatus → Option LocalStatus
  | .incomplete => some .incomplete
  | .incompleteExpired => some .incompleteExpired
  | .trialing => some .active
  | .active => some .active
  | .pastDue => some .pastDue
  | .unpaid => some .unpaid
  | .canceled => some .canceled
  | .paused => none

def hasLiveSubscription : LocalStatus → Bool
  | .active => true
  | .pastDue => true
  | .unpaid => true
  | _ => false

/-- `planForLicensedPrice`. -/
def Item.plan : Item → Option PlanId
  | .licensed plan => some plan
  | _ => none

def Item.pauseFee : Item → Option (Option ℕ)
  | .pause unitAmount => some unitAmount
  | _ => none

def subscriptionPlan (z : Subscription) : Option PlanId := z.items.findSome? Item.plan

inductive PauseReading
  | paused
  | notPaused
  | unknown
  deriving DecidableEq

def subscriptionPause (z : Subscription) : PauseReading × Option ℕ :=
  match z.items.findSome? Item.pauseFee with
  | some fee => (.paused, fee)
  | none => if (subscriptionPlan z).isSome then (.notPaused, none) else (.unknown, none)

/-- `status !== "canceled" && subscription.cancel_at_period_end === true`. -/
def pendingCancel (z : Subscription) : Bool := z.status != .canceled && z.cancelAtPeriodEnd

/-! ### The company -/

/-- The row of `companies`. -/
structure Company where
  stripeSubscriptionId : Option ℕ
  subscriptionStatus : LocalStatus
  plan : Option PlanId
  cancelAtPeriodEnd : Bool
  canceledAt : Option ℤ
  pausedAt : Option ℤ
  pausedPriceCents : Option ℕ
  deriving DecidableEq

/-- A number of the company: `held` is one that is suspended because the last claim of the allowance
had no room for it, `suspended` one that a cancellation has suspended since. -/
inductive NumberStatus
  | active
  | suspended
  | held
  deriving DecidableEq

/-- Stripe's subscriptions by their ids, the company with its numbers, and the clock in seconds. -/
structure World where
  stripe : ℕ → Option Subscription
  company : Company
  numbers : List NumberStatus
  now : ℤ

def World.update (w : World) (f : Company → Company) : World := { w with company := f w.company }

/-- `.eq("stripe_subscription_id", …)`. -/
def World.attached (w : World) (id : ℕ) : Bool := w.company.stripeSubscriptionId == some id

def World.current (w : World) : Option (ℕ × Subscription) :=
  w.company.stripeSubscriptionId.bind fun id => (w.stripe id).map fun z => (id, z)

/-- The columns that the update of the mirror returns. -/
structure Row where
  canceledAt : Option ℤ
  pausedAt : Option ℤ
  pausedPriceCents : Option ℕ
  deriving DecidableEq

def Company.row (c : Company) : Row where
  canceledAt := c.canceledAt
  pausedAt := c.pausedAt
  pausedPriceCents := c.pausedPriceCents

/-- The update of `syncSubscription`. -/
def mirrored (r : Subscription) (c : Company) : Company :=
  { c with
    subscriptionStatus := (mirrorSubscriptionStatus r.status).getD c.subscriptionStatus
    cancelAtPeriodEnd := pendingCancel r
    plan := (subscriptionPlan r).or c.plan }

/-- The update of `handleSubscriptionDeleted`. -/
def mirroredDeleted (c : Company) : Company :=
  { c with
    subscriptionStatus := .canceled
    cancelAtPeriodEnd := false }

/-- `mirrorSubscriptionStatus(subscription.status) ?? "active"`. -/
def checkoutStatus (r : Subscription) : LocalStatus :=
  (mirrorSubscriptionStatus r.status).getD .active

def isDuplicate (id : ℕ) (c : Company) : Bool :=
  c.stripeSubscriptionId.any (· != id) && hasLiveSubscription c.subscriptionStatus

/-- The update of `claim_checkout_activation`. -/
def activated (id : ℕ) (r : Subscription) (c : Company) : Company :=
  { stripeSubscriptionId := some id
    subscriptionStatus := checkoutStatus r
    plan := (subscriptionPlan r).or c.plan
    cancelAtPeriodEnd := r.cancelAtPeriodEnd
    canceledAt := none
    pausedAt := if (subscriptionPlan r).isSome then none else c.pausedAt
    pausedPriceCents := if (subscriptionPlan r).isSome then none else c.pausedPriceCents }

def claimCheckoutActivation (id : ℕ) (r : Subscription) (c : Company) : Company :=
  if isDuplicate id c then c else activated id r c

/-- `suspendCompanyNumbers`. -/
def suspendNumber : NumberStatus → NumberStatus
  | .active => .suspended
  | n => n

/-- What a claim of the allowance makes of a number; it brings some of the suspended ones back. -/
def settleNumber (restored : Bool) : NumberStatus → NumberStatus
  | .active => .active
  | _ => if restored then .active else .held

/-- `claimNumberAllowance`, with the numbers that it brings back. -/
def World.settleNumbers (w : World) (restored : ℕ → Bool) : World :=
  { w with numbers := w.numbers.mapIdx fun i n => settleNumber (restored i) n }

def ended (canceledAt endedAt : Option ℤ) (z : Subscription) : Subscription :=
  { z with
    status := .canceled
    canceledAt := canceledAt
    endedAt := endedAt }

/-! ### The handlers -/

/-- A handler: of a created or an updated subscription, or of the daily reconcile; of a deleted one,
as the event has it, with the moment of the event; of a paid checkout. -/
inductive Handler
  | sync (id : ℕ)
  | deleted (id : ℕ) (payload : Subscription) (created : ℤ)
  | checkout (id : ℕ)
  deriving DecidableEq

def Handler.id : Handler → ℕ
  | .sync id => id
  | .deleted id _ _ => id
  | .checkout id => id

/-- The next call of a handler; `r` is the subscription as it has fetched it. -/
inductive Point
  /-- `subscriptions.retrieve` of `syncSubscription`. -/
  | retrieve
  /-- The mirror. -/
  | mirror (r : Subscription)
  /-- `paused_at` of a paused subscription. -/
  | stampPause (r : Subscription) (row : Row)
  /-- `paused_price_cents` of a paused subscription. -/
  | stampFee (r : Subscription) (row : Row)
  /-- Both columns of one that is not paused. -/
  | clearPause (r : Subscription) (row : Row)
  /-- `reconcileModulesFromSubscription`. -/
  | modules
  /-- The mirror of `handleSubscriptionDeleted`. -/
  | mirrorDeleted
  /-- The claim of `startCancellationLifecycle`. -/
  | claimCanceledAt (r : Subscription)
  /-- `suspendCompanyNumbers`. -/
  | suspend
  /-- `recordAndSendGraceNotice`. -/
  | notice
  /-- `subscriptions.retrieve` of `handleCheckoutCompleted`. -/
  | fetch
  /-- `claim_checkout_activation`. -/
  | activate (r : Subscription)
  /-- `subscriptions.cancel` of a duplicate. -/
  | cancelDuplicate
  /-- The fee line and the modules. -/
  | furnish (r : Subscription)
  /-- `claimNumberAllowance`. -/
  | allowance
  /-- Ports, the first number and the registration. -/
  | provision
  deriving DecidableEq

/-- A handler under way. -/
structure Process where
  handler : Handler
  point : Point
  deriving DecidableEq

def Handler.start : Handler → Process
  | .sync id => ⟨.sync id, .retrieve⟩
  | .deleted id payload created => ⟨.deleted id payload created, .mirrorDeleted⟩
  | .checkout id => ⟨.checkout id, .fetch⟩

/-- What becomes of a call: it goes through, or it fails, with its effect or without it. -/
inductive Reply
  | ok
  | lost
  | failed
  deriving DecidableEq

def Reply.lands : Reply → Bool
  | .failed => false
  | _ => true

/-- What a step of a handler meets, with the numbers that a claim of the allowance brings back. -/
structure Turn where
  reply : Reply
  restored : ℕ → Bool

/-- `if (!canceledAt)`. -/
def startCancellationLifecycle (r : Subscription) (canceledAt : Option ℤ) : Point :=
  if canceledAt.isSome then .suspend else .claimCanceledAt r

/-- What `syncSubscription` does after the pause columns. -/
def afterPause (r : Subscription) (row : Row) : Option Point :=
  if r.status = .canceled then some (startCancellationLifecycle r row.canceledAt)
  else if (mirrorSubscriptionStatus r.status).any hasLiveSubscription then some .modules
  else none

def afterStamp (r : Subscription) (row : Row) : Option Point :=
  if row.pausedPriceCents ≠ (subscriptionPause r).2 then some (.stampFee r row)
  else afterPause r row

def afterMirror (r : Subscription) (row : Row) : Option Point :=
  match (subscriptionPause r).1 with
  | .paused => if row.pausedAt.isNone then some (.stampPause r row) else afterStamp r row
  | .notPaused =>
      if row.pausedAt.isSome || row.pausedPriceCents.isSome then some (.clearPause r row)
      else afterPause r row
  | .unknown => afterPause r row

def canceledMoment (w : World) (h : Handler) (r : Subscription) : ℤ :=
  ((r.canceledAt.or r.endedAt).or
    (match h with
      | .deleted _ _ created => some created
      | _ => none)).getD w.now

def effect (w : World) (p : Process) (x : Turn) : World :=
  match p.point with
  | .mirror r => if w.attached p.handler.id then w.update (mirrored r) else w
  | .stampPause _ _ =>
      if w.attached p.handler.id then
        w.update fun c => { c with pausedAt := c.pausedAt.or (some w.now) }
      else w
  | .stampFee r _ =>
      if w.attached p.handler.id then
        w.update fun c => { c with pausedPriceCents := (subscriptionPause r).2 }
      else w
  | .clearPause _ _ =>
      if w.attached p.handler.id then
        w.update fun c =>
          { c with
            pausedAt := none
            pausedPriceCents := none }
      else w
  | .mirrorDeleted => if w.attached p.handler.id then w.update mirroredDeleted else w
  | .claimCanceledAt r =>
      let claim := canceledMoment w p.handler r
      w.update fun c => { c with canceledAt := c.canceledAt.or (some claim) }
  | .suspend => { w with numbers := w.numbers.map suspendNumber }
  | .activate r => w.update (claimCheckoutActivation p.handler.id r)
  | .allowance => w.settleNumbers x.restored
  | _ => w

/-- Where a handler goes from a call that has gone through. -/
def next (w : World) (p : Process) : Option Point :=
  match p.point with
  | .retrieve =>
      match w.stripe p.handler.id with
      | none => some .retrieve
      | some z => if (mirrorSubscriptionStatus z.status).isSome then some (.mirror z) else none
  | .mirror r => if w.attached p.handler.id then afterMirror r w.company.row else none
  | .stampPause r row => afterStamp r row
  | .stampFee r row => afterPause r row
  | .clearPause r row => afterPause r row
  | .modules => none
  | .mirrorDeleted =>
      if w.attached p.handler.id then
        match p.handler with
        | .deleted _ payload _ => some (startCancellationLifecycle payload w.company.canceledAt)
        | _ => none
      else none
  | .claimCanceledAt _ => some .suspend
  | .suspend => some .notice
  | .notice => none
  | .fetch =>
      match w.stripe p.handler.id with
      | none => some .fetch
      | some z => if checkoutStatus z = .canceled then none else some (.activate z)
  | .activate r =>
      if isDuplicate p.handler.id w.company then some .cancelDuplicate else some (.furnish r)
  | .cancelDuplicate => none
  | .furnish r => if checkoutStatus r = .active then some .allowance else none
  | .allowance => some .provision
  | .provision => none

def endSubscription (w : World) (id : ℕ) (canceledAt endedAt : Option ℤ) : World × List Process :=
  match w.stripe id with
  | none => (w, [])
  | some z =>
      if z.status = .canceled then (w, [])
      else
        let z' := ended canceledAt endedAt z
        ({ w with stripe := Function.update w.stripe id (some z') },
          [(Handler.deleted id z' w.now).start])

def goes (w : World) (p : Process) (x : Turn) : Option Process :=
  if x.reply = .ok then (next w p).map (Process.mk p.handler) else some p.handler.start

/-- One call: what it leaves, where the handler goes, and the events that it causes. -/
def advance (w : World) (p : Process) (x : Turn) : World × Option Process × List Process :=
  if p.point = .cancelDuplicate then
    -- what becomes of the cancel is only logged
    let w' := if x.reply.lands then endSubscription w p.handler.id (some w.now) (some w.now)
      else (w, [])
    (w'.1, none, w'.2)
  else
    (if x.reply.lands then effect w p x else w, goes w p x, [])

/-- A step of a handler; a daily reconcile or a paid checkout, of a subscription that there is; a
change at Stripe; a new number; or time goes by. -/
inductive Input
  | step (n : ℕ) (x : Turn)
  | sync (id : ℕ)
  | checkout (id : ℕ)
  | create (id : ℕ) (z : Subscription)
  | change (id : ℕ) (z : Subscription)
  | cancel (id : ℕ) (canceledAt endedAt : Option ℤ)
  | addNumber
  | wait (d : ℕ)

abbrev State := Interleaving.State World Process

/-- One move. -/
def step (s : State) : Input → State × List Empty
  | .step n x =>
      match s.running[n]? with
      | none => (s, [])
      | some p =>
          let r := advance s.store p x
          ({ store := r.1
             running := Interleaving.putBack s.running n r.2.1 ++ r.2.2 }, [])
  | .sync id => ({ s with running := s.running ++ [(Handler.sync id).start] }, [])
  | .checkout id => ({ s with running := s.running ++ [(Handler.checkout id).start] }, [])
  | .create id z =>
      if (s.store.stripe id).isNone && z.status != .canceled then
        ({ store := { s.store with stripe := Function.update s.store.stripe id (some z) }
           running := s.running ++ [(Handler.sync id).start] }, [])
      else (s, [])
  | .change id z =>
      if (s.store.stripe id).any (·.status != .canceled) && z.status != .canceled then
        ({ store := { s.store with stripe := Function.update s.store.stripe id (some z) }
           running := s.running ++ [(Handler.sync id).start] }, [])
      else (s, [])
  | .cancel id canceledAt endedAt =>
      let r := endSubscription s.store id canceledAt endedAt
      ({ store := r.1
         running := s.running ++ r.2 }, [])
  | .addNumber => ({ s with store := { s.store with numbers := s.store.numbers ++ [.active] } }, [])
  | .wait d => ({ s with store := { s.store with now := s.store.now + d } }, [])

def signedUp (now : ℤ) : State where
  store :=
    { stripe := fun _ => none
      company :=
        { stripeSubscriptionId := none
          subscriptionStatus := .incomplete
          plan := none
          cancelAtPeriodEnd := false
          canceledAt := none
          pausedAt := none
          pausedPriceCents := none }
      numbers := []
      now := now }
  running := []

end SubscriptionMirror
