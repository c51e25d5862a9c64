/-
**A prepaid year on the subscription.**

`apps/api/src/billing/prepay.ts` delivers a year that was bought up front as a coupon on the
licensed item: `grantPrepaidYear` claims the row of the session, writes the coupon and stamps the
row; `ensurePrepaidDiscount` puts a coupon back that went missing; `revokePrepaidYear`, the
chargebacks of `disputes.ts` and `convertPrepaidYear` take the year back.  This module is their
state machine for one paid session: the row, the item, the keys the provider remembers and the
billing periods, whose invoices the coupon discounts.

A coupon counts in invoices: one of `n` months, put on in period `p`, discounts the invoices that
end the periods `p, …, p + n - 1`.  Each call is one step, and calls that fail alike are one; a
handler that throws is delivered again.

Main result:

* `PrepaidYear.mem_assertWrite` — what a pass puts back.
-/

import Texturion.Prepayments
import Texturion.Interleaving

namespace PrepaidYear

open Prepay Idempotency Interleaving
open Notices (PlanId dayMs)

/-! ### The item -/

/-- The prepaid coupons, of one to twelve months (the one of twelve is the base coupon), and the
coupon of a referral month. -/
inductive Coupon
  | prepaid (months : ℕ)
  | referralMonth
  deriving DecidableEq

/-- The invoices it discounts. -/
def Coupon.months : Coupon → ℕ
  | .prepaid months => months
  | .referralMonth => 1

def Coupon.isPrepaid : Coupon → Bool
  | .prepaid _ => true
  | .referralMonth => false

def prepaidYearCoupon : Coupon := .prepaid prepayMonths

def prepaidRemainderCouponId (months : ℕ) : Option Coupon :=
  if months < 1 ∨ prepayMonths < months then none else some (.prepaid months)

/-- A coupon on an item, with the period it was put on in. -/
structure Discount where
  coupon : Coupon
  start : ℕ
  deriving DecidableEq

/-- The first period whose invoice is at the full price again. -/
def Discount.stop (d : Discount) : ℕ := d.start + d.coupon.months

inductive ItemPrice
  | licensed (plan : PlanId)
  | pause
  deriving DecidableEq

structure Item where
  price : ItemPrice
  discounts : List Discount
  deriving DecidableEq

/-- `licensedItemOf` finds the item: it is not paused. -/
def Item.isLicensed (item : Item) : Bool := item.price ≠ .pause

def itemHasDiscount (item : Item) (coupon : Coupon) : Bool :=
  item.discounts.any fun d => d.coupon = coupon

def itemHasPrepaidCoupon (item : Item) : Bool :=
  item.discounts.any fun d => d.coupon.isPrepaid

/-- What a write of the item asks for: the price it resumes to, and a discounts array of the
referral month, where one is carried through, and the coupon. -/
structure ItemWrite where
  resume : Option PlanId
  carriedReferral : Bool
  coupon : Coupon
  deriving DecidableEq

/-- A populated array overwrites the discounts there are. -/
def Item.write (item : Item) (period : ℕ) (w : ItemWrite) : Item where
  price := w.resume.elim item.price .licensed
  discounts :=
    (if w.carriedReferral then [⟨.referralMonth, period⟩] else []) ++ [⟨w.coupon, period⟩]

/-! ### The store -/

/-- What is configured, and the ends of the billing periods. -/
structure Env where
  prepaidYearCouponId : String
  periodEnd : ℕ → ℤ
  increasing : StrictMono periodEnd

/-- A completed checkout session that paid for a year. -/
structure Session where
  id : ℕ
  companyId : ℕ
  plan : PlanId
  amountTotal : ℤ
  currency : String
  paymentIntent : Option ℕ

/-- The row it claims; it is the only one here, so its id tells nothing. -/
def Session.row (session : Session) : Prepayment :=
  .fresh 0 session.companyId session.id session.plan session.amountTotal session.currency
    prepayMonths session.paymentIntent

structure Store where
  row : Option Prepayment
  item : Item
  memory : List (Record Key ItemWrite Unit)
  clock : ℤ
  /-- The billing period, whose invoice is the next one. -/
  period : ℕ
  /-- The licensed invoices that a prepaid coupon has discounted. -/
  discounted : ℕ
  deriving DecidableEq

/-- Before the session is paid. -/
def Store.opened (item : Item) (clock : ℤ) (period : ℕ) : Store where
  row := none
  item := item
  memory := []
  clock := clock
  period := period
  discounted := 0

def Store.verdict (s : Store) (key : Key) (w : ItemWrite) : Verdict Unit :=
  Idempotency.verdict dayMs s.memory s.clock key w

/-- `stripe.subscriptions.update` of the item, under a key. -/
def updateItem (s : Store) (key : Key) (w : ItemWrite) : Store :=
  match s.verdict key w with
  | .fresh =>
    { s with
      item := s.item.write s.period w,
      memory := { key := key, params := w, result := (), madeAt := s.clock } :: s.memory }
  | _ => s

/-! ### How much is left -/

/-- The dates from `date` on, a month apart, that lie before the window closes. -/
def countBefore (closes : ℤ) : ℕ → ℤ → ℕ
  | 0, _ => 0
  | fuel + 1, date =>
    if date < closes then countBefore closes fuel (setUTCMonth date 1) + 1 else 0

def remainingPrepaidInvoices (periodEnd grantedThrough : ℤ) : ℕ :=
  countBefore grantedThrough prepayMonths periodEnd

/-! ### The handlers -/

inductive Request
  | grantPrepaidYear
  | ensurePrepaidDiscount
  | revokePrepaidYear (reason : String)
  | handleChargeDispute (disputeId paymentIntent : ℕ)
  | convertPrepaidYear (stripeCustomerId : Option ℕ) (toPlan : PlanId)
  deriving DecidableEq

/-- A step of a handler that is still to be made.  The steps that take the coupon off belong to
the request `r`; `owed` is the credit of a conversion. -/
inductive Point
  | claiming
  | retrieving
  | writing (w : ItemWrite)
  | stamping
  | reading
  | opening (item : Item) (period : ℕ)
  | asserting (period : ℕ) (w : ItemWrite)
  | recording (disputeId paymentIntent : ℕ)
  | finding (disputeId paymentIntent : ℕ)
  | revoking (r : Request) (reason : String)
  | converting (stripeCustomerId : Option ℕ) (toPlan : PlanId)
  | uncouponing (r : Request) (owed : ℤ)
  | clearing (r : Request) (owed : ℤ)
  | crediting (r : Request)
  deriving DecidableEq

/-- What comes of a call, and whether the subscription that is read is live and not managed by a
schedule. -/
structure Await where
  outcome : Outcome
  live : Bool
  deriving DecidableEq

/-- What a handler returns. -/
inductive Answer
  | granted
  | already
  | revoked
  | noop
  | converted
  | passed
  | logged
  deriving DecidableEq

def enter : Request → Point
  | .grantPrepaidYear => .claiming
  | .ensurePrepaidDiscount => .reading
  | .revokePrepaidYear reason => .revoking (.revokePrepaidYear reason) reason
  | .handleChargeDispute disputeId paymentIntent => .recording disputeId paymentIntent
  | .convertPrepaidYear customer toPlan => .converting customer toPlan

def deed (env : Env) (session : Session) (s : Store) : Point → Store
  | .claiming => { s with row := claimPrepayment session.row s.row }
  | .writing w => updateItem s (.grant session.id) w
  | .stamping =>
    { s with
      row := s.row.map
        (stampPrepayment env.prepaidYearCouponId (setUTCMonth s.clock prepayMonths) s.clock) }
  | .asserting _ w => updateItem s (.reassert session.id w.coupon.months) w
  | .revoking _ reason => { s with row := s.row.map (revokePrepayment reason s.clock) }
  | .converting _ toPlan =>
    { s with
      row := s.row.map fun row =>
        if row.isOpen s.clock then convertPrepayment toPlan s.clock row else row }
  | .clearing .. => { s with item := { s.item with discounts := [] } }
  | .retrieving | .reading | .opening .. | .recording .. | .finding .. | .uncouponing ..
  | .crediting .. => s

def call (env : Env) (session : Session) (s : Store) (p : Point) (x : Await) : Store :=
  if x.outcome.lands then deed env session s p else s

/-- The write of a grant, on an item it has retrieved; `none` where the coupon is there already. -/
def grantWrite (session : Session) (item : Item) : Option ItemWrite :=
  let resume := if item.isLicensed then none else some session.plan
  if itemHasDiscount item prepaidYearCoupon ∧ resume = none then none
  else
    some { resume := resume, carriedReferral := itemHasDiscount item .referralMonth,
           coupon := prepaidYearCoupon }

/-- The write of a pass, on the item and the period it has read; `none` where there is nothing to
put back. -/
def assertWrite (env : Env) (s : Store) (item : Item) (period : ℕ) : Option ItemWrite :=
  match s.row with
  | some row =>
    if row.isOpen s.clock ∧ item.isLicensed ∧ itemHasPrepaidCoupon item = false then
      (prepaidRemainderCouponId
          (remainingPrepaidInvoices (env.periodEnd period) (row.grantedThrough.getD 0))).map
        fun coupon =>
          { resume := none, carriedReferral := itemHasDiscount item .referralMonth,
            coupon := coupon }
    else none
  | none => none

/-- A handler that throws is delivered again; what a chargeback throws from here on is caught. -/
def again : Request → Option Point × List Answer
  | .handleChargeDispute .. => (none, [.logged])
  | r => (some (enter r), [])

/-- The coupon is off, or there is none to take off. -/
def uncouponed (r : Request) (owed : ℤ) : Option Point × List Answer :=
  match r with
  | .convertPrepaidYear customer _ =>
    if 0 < owed ∧ customer.isSome then (some (.crediting r), []) else (none, [.converted])
  | _ => (none, [.revoked])

/-- Where a handler goes from a step, given the store before it. -/
def next (env : Env) (session : Session) (s : Store) (x : Await) :
    Point → Option Point × List Answer
  | .claiming =>
    if x.outcome.heard then
      match claimOutcome s.row with
      | .granted => (none, [.already])
      | .revoked => (none, [.revoked])
      | .claimed | .resume => (some .retrieving, [])
    else (some .claiming, [])
  | .retrieving =>
    if x.outcome.heard then
      match grantWrite session s.item with
      | some w => (some (.writing w), [])
      | none => (some .stamping, [])
    else (some .claiming, [])
  | .writing w =>
    if x.outcome.heard ∧ s.verdict (.grant session.id) w ≠ .refused then (some .stamping, [])
    else (some .claiming, [])
  | .stamping => (none, [.granted])
  | .reading =>
    if x.outcome.heard ∧ x.live then (some (.opening s.item s.period), []) else (none, [.passed])
  | .opening item period =>
    match assertWrite env s item period with
    | some w =>
      if x.outcome.heard then (some (.asserting period w), []) else (none, [.passed])
    | none => (none, [.passed])
  | .asserting .. => (none, [.passed])
  | .recording disputeId paymentIntent =>
    if x.outcome.heard then (some (.finding disputeId paymentIntent), [])
    else (some (.recording disputeId paymentIntent), [])
  | .finding disputeId paymentIntent =>
    if x.outcome.heard then
      match s.row with
      | some row =>
        if row.stripePaymentIntent = some paymentIntent ∧ row.revokedAt.isNone then
          (some (.revoking (.handleChargeDispute disputeId paymentIntent)
            ("chargeback_lost:" ++ toString disputeId)), [])
        else (none, [.noop])
      | none => (none, [.noop])
    else (none, [.logged])
  | .revoking r _ =>
    if x.outcome.heard then
      match s.row with
      | some row =>
        if row.revokedAt.isNone then (some (.uncouponing r 0), []) else (none, [.noop])
      | none => (none, [.noop])
    else again r
  | .converting customer toPlan =>
    if x.outcome.heard then
      match s.row with
      | some row =>
        if row.isOpen s.clock then
          (some (.uncouponing (.convertPrepaidYear customer toPlan)
            (creditCents s.clock row)), [])
        else (none, [.noop])
      | none => (none, [.noop])
    else (some (.converting customer toPlan), [])
  | .uncouponing r owed =>
    if x.outcome.heard then
      if s.item.isLicensed then (some (.clearing r owed), []) else uncouponed r owed
    else again r
  | .clearing r owed => if x.outcome.heard then uncouponed r owed else again r
  | .crediting r => if x.outcome.heard then (none, [.converted]) else again r

/-- What happens outside the handlers: time passes within the period, its invoice is issued, and a
careless write drops the discounts. -/
inductive Event
  | tick (ms : ℕ)
  | invoice
  | drop
  deriving DecidableEq

/-- The period ends: its invoice is discounted where a prepaid coupon is on, and the coupons that
have run out are gone. -/
def invoice (env : Env) (s : Store) : Store :=
  { s with
    clock := max s.clock (env.periodEnd s.period),
    period := s.period + 1,
    discounted :=
      if s.item.isLicensed ∧ itemHasPrepaidCoupon s.item then s.discounted + 1 else s.discounted,
    item :=
      { s.item with discounts := s.item.discounts.filter fun d => s.period + 1 < d.stop } }

def happen (env : Env) (s : Store) : Event → Store
  | .tick ms => { s with clock := min (s.clock + ms) (max s.clock (env.periodEnd s.period)) }
  | .invoice => invoice env s
  | .drop => { s with item := { s.item with discounts := [] } }

def prepaidYear (env : Env) (session : Session) :
    System Store Request Point Await Event Answer where
  enter := enter
  advance s p x := (call env session s p x, next env session s x p)
  world s e := (happen env s e, [])

/-! ### One write -/

variable {s : Store} {w : ItemWrite} {item : Item}

theorem updateItem_of_fresh {key : Key} (h : s.verdict key w = .fresh) :
    updateItem s key w =
      { s with
        item := s.item.write s.period w,
        memory := { key := key, params := w, result := (), madeAt := s.clock } :: s.memory } := by
  simp only [updateItem, h]

theorem updateItem_of_ne {key : Key} (h : s.verdict key w ≠ .fresh) : updateItem s key w = s := by
  unfold updateItem
  split
  · rename_i hfresh
    exact absurd hfresh h
  · rfl

@[simp] theorem updateItem_row (s : Store) (key : Key) (w : ItemWrite) :
    (updateItem s key w).row = s.row := by
  unfold updateItem
  split <;> rfl

@[simp] theorem updateItem_period (s : Store) (key : Key) (w : ItemWrite) :
    (updateItem s key w).period = s.period := by
  unfold updateItem
  split <;> rfl

@[simp] theorem updateItem_discounted (s : Store) (key : Key) (w : ItemWrite) :
    (updateItem s key w).discounted = s.discounted := by
  unfold updateItem
  split <;> rfl

/-- A prepaid coupon on an item that has been written is the one that was written. -/
theorem prepaid_of_mem_write {period : ℕ} {d : Discount} (hd : d ∈ (item.write period w).discounts)
    (hprepaid : d.coupon.isPrepaid = true) : d = ⟨w.coupon, period⟩ := by
  rcases List.mem_append.1 hd with hd | hd
  · split at hd
    · rw [List.mem_singleton.1 hd] at hprepaid
      exact absurd hprepaid (by simp [Coupon.isPrepaid])
    · exact absurd hd List.not_mem_nil
  · exact List.mem_singleton.1 hd

variable {env : Env} {session : Session}

/-! ### One call -/

@[simp] theorem call_period (s : Store) (p : Point) (x : Await) :
    (call env session s p x).period = s.period := by
  unfold call
  split
  · cases p with
    | writing | asserting => exact updateItem_period ..
    | claiming | retrieving | stamping | reading | opening | recording | finding | revoking
    | converting | uncouponing | clearing | crediting => rfl
  · rfl

@[simp] theorem call_discounted (s : Store) (p : Point) (x : Await) :
    (call env session s p x).discounted = s.discounted := by
  unfold call
  split
  · cases p with
    | writing | asserting => exact updateItem_discounted ..
    | claiming | retrieving | stamping | reading | opening | recording | finding | revoking
    | converting | uncouponing | clearing | crediting => rfl
  · rfl

/-- **What a call does to the item**: it is as it was, or its discounts are gone, or a write that is
made anew has replaced them. -/
theorem item_call (s : Store) (p : Point) (x : Await) :
    (call env session s p x).item = s.item ∨
      (call env session s p x).item = { s.item with discounts := [] } ∨
      ∃ key w, x.outcome.lands = true ∧ s.verdict key w = .fresh ∧
        (call env session s p x).item = s.item.write s.period w ∧
        (p = .writing w ∧ key = .grant session.id ∨
          ∃ period, p = .asserting period w ∧ key = .reassert session.id w.coupon.months) := by
  by_cases hlands : x.outcome.lands = true
  · simp only [call, hlands, if_true]
    cases p with
    | writing w =>
      by_cases hfresh : s.verdict (.grant session.id) w = .fresh
      · refine .inr (.inr ⟨_, w, trivial, hfresh, ?_, .inl ⟨rfl, rfl⟩⟩)
        rw [deed, updateItem_of_fresh hfresh]
      · left
        rw [deed, updateItem_of_ne hfresh]
    | asserting period w =>
      by_cases hfresh : s.verdict (.reassert session.id w.coupon.months) w = .fresh
      · refine .inr (.inr ⟨_, w, trivial, hfresh, ?_, .inr ⟨period, rfl, rfl⟩⟩)
        rw [deed, updateItem_of_fresh hfresh]
      · left
        rw [deed, updateItem_of_ne hfresh]
    | clearing => exact .inr (.inl rfl)
    | claiming | retrieving | stamping | reading | opening | recording | finding | revoking
    | converting | uncouponing | crediting => exact .inl rfl
  · left
    simp only [call, hlands]
    rfl

/-- **What a call does to the row**: it was there, and keeps its window or is closed, or it is new,
or the stamp has granted it. -/
theorem row_call {p : Point} {x : Await} {row : Prepayment}
    (hrow : row ∈ (call env session s p x).row) :
    (∃ old ∈ s.row, row.grantedAt = old.grantedAt ∧ row.grantedThrough = old.grantedThrough ∧
        (row.revokedAt = none → old.revokedAt = none)) ∨
      s.row = none ∧ row = session.row ∨
      ∃ old ∈ s.row, p = .stamping ∧ x.outcome.lands = true ∧ old.grantedAt = none ∧
        row = stampPrepayment env.prepaidYearCouponId (setUTCMonth s.clock prepayMonths) s.clock
          old := by
  have hsame : row ∈ s.row → ∃ old ∈ s.row, row.grantedAt = old.grantedAt ∧
      row.grantedThrough = old.grantedThrough ∧ (row.revokedAt = none → old.revokedAt = none) :=
    fun h => ⟨row, h, rfl, rfl, id⟩
  unfold call at hrow
  split at hrow
  · rename_i hlands
    cases p with
    | claiming =>
      simp only [deed, claimPrepayment] at hrow
      cases hold : s.row with
      | none =>
        rw [hold] at hrow
        exact .inr (.inl ⟨rfl, (Option.some.inj hrow).symm⟩)
      | some old =>
        rw [hold] at hrow
        exact .inl (hold ▸ hsame (hold ▸ hrow))
    | stamping =>
      simp only [deed, Option.mem_map] at hrow
      obtain ⟨old, hold, rfl⟩ := hrow
      cases hgranted : old.grantedAt with
      | none => exact .inr (.inr ⟨old, hold, rfl, hlands, hgranted, rfl⟩)
      | some t =>
        left
        refine ⟨old, hold, ?_⟩
        rw [stampPrepayment_of_granted (by simp [hgranted])]
        exact ⟨rfl, rfl, id⟩
    | revoking r reason =>
      simp only [deed, Option.mem_map] at hrow
      obtain ⟨old, hold, rfl⟩ := hrow
      refine .inl ⟨old, hold, ?_⟩
      unfold revokePrepayment
      split
      · exact ⟨rfl, rfl, by simp⟩
      · exact ⟨rfl, rfl, id⟩
    | converting customer toPlan =>
      simp only [deed, Option.mem_map] at hrow
      obtain ⟨old, hold, rfl⟩ := hrow
      refine .inl ⟨old, hold, ?_⟩
      split
      · exact ⟨rfl, rfl, by simp [convertPrepayment]⟩
      · exact ⟨rfl, rfl, id⟩
    | writing | asserting =>
      rw [deed, updateItem_row] at hrow
      exact .inl (hsame hrow)
    | retrieving | reading | opening | recording | finding | uncouponing | clearing | crediting =>
      exact .inl (hsame hrow)
  · exact .inl (hsame hrow)

theorem mem_grantWrite (h : grantWrite session item = some w) : w.coupon = prepaidYearCoupon := by
  simp only [grantWrite, Option.ite_none_left_eq_some, Option.some.injEq] at h
  rw [← h.2]

/-- The coupon that a pass is to put back: as long as what it has counted in an open window. -/
theorem mem_assertWrite {period : ℕ} (h : assertWrite env s item period = some w) :
    ∃ row ∈ s.row, row.revokedAt = none ∧ ∃ closes ∈ row.grantedThrough,
      w.coupon = .prepaid (remainingPrepaidInvoices (env.periodEnd period) closes) ∧
      0 < w.coupon.months := by
  unfold assertWrite at h
  split at h
  · rename_i row hrow
    split at h
    · rename_i hcond
      obtain ⟨-, hrevoked, closes, hcloses, -⟩ := isOpen_iff.1 hcond.1
      obtain ⟨coupon, hcoupon, rfl⟩ := Option.map_eq_some_iff.1 h
      have hthrough : row.grantedThrough.getD 0 = closes := by
        rw [Option.mem_def.1 hcloses, Option.getD_some]
      rw [hthrough] at hcoupon
      simp only [prepaidRemainderCouponId] at hcoupon
      split at hcoupon
      · simp at hcoupon
      · rename_i hmonths
        obtain rfl := Option.some.inj hcoupon
        refine ⟨row, hrow, Option.isNone_iff_eq_none.1 hrevoked, closes, hcloses, rfl, ?_⟩
        simp only [Coupon.months]
        omega
    · simp at h
  · simp at h

theorem isSome_row_call (p : Point) (x : Await) (h : s.row.isSome = true) :
    (call env session s p x).row.isSome = true := by
  unfold call
  split
  · cases p with
    | writing | asserting =>
      rw [deed, updateItem_row]
      exact h
    | claiming => simp [deed, claimPrepayment]
    | stamping | revoking | converting => simpa [deed] using h
    | retrieving | reading | opening | recording | finding | uncouponing | clearing | crediting =>
      exact h
  · exact h

/-! ### A subscription to Starter -/

/-- Periods of a twelfth of a year. -/
def monthly : Env where
  prepaidYearCouponId := "prepaid"
  periodEnd n := 2629800000 * ((n : ℤ) + 1)
  increasing := fun m n h => by
    have hcast : (m : ℤ) < n := by exact_mod_cast h
    simp only
    omega

def starterSession : Session where
  id := 1
  companyId := 1
  plan := .starter
  amountTotal := 29000
  currency := "usd"
  paymentIntent := some 9

def starterItem : Item where
  price := .licensed .starter
  discounts := []

def answered : Await := { outcome := .done, live := true }

def lost : Await := { outcome := .failed, live := true }

end PrepaidYear
