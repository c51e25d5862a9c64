/-
**Does the mirror converge?**

When Stripe has stopped changing and every handler is through, the company's row should say what
its subscription says.  Each fact on the row is written by several handlers, from a subscription
that was fetched some calls earlier; so what matters is whether a fact that is wrong is still to be
written by a handler of the subscription whose reading is not out of date.  A change at Stripe
brings such a handler with it; a write from an outdated reading may be the last one.

Main result:

* `SubscriptionMirror.converges` — **runs of safe moves converge**.
-/

import Texturion.SubscriptionMirror

namespace SubscriptionMirror

/-! ### Facts -/

/-- The facts of the row, and whether numbers are suspended. -/
inductive Fact
  | status
  | plan
  | pause
  | canceledAt
  | numbers
  deriving DecidableEq

/-- What a status that cannot be mirrored leaves open is not asked for; nor is a plan or a pause
that the subscription does not tell. -/
def Right (w : World) (z : Subscription) : Fact → Prop
  | .status => ∀ status, mirrorSubscriptionStatus z.status = some status →
      w.company.subscriptionStatus = status ∧ w.company.cancelAtPeriodEnd = pendingCancel z
  | .plan => z.status ≠ .paused → ∀ plan, subscriptionPlan z = some plan →
      w.company.plan = some plan
  | .pause => z.status ≠ .paused →
      ((subscriptionPause z).1 = .paused → w.company.pausedAt ≠ none) ∧
        ((subscriptionPause z).1 = .notPaused → w.company.pausedAt = none)
  | .canceledAt => w.company.canceledAt ≠ none ↔ z.status = .canceled
  | .numbers => z.status ≠ .canceled → .suspended ∉ w.numbers

/-- The row says what its subscription says. -/
def Mirrored (w : World) : Prop := ∀ id z, w.current = some (id, z) → ∀ k, Right w z k

/-! ### Handlers that are still to write -/

/-- A handler of the subscription `z` at this point is still to write the fact, and as Stripe has
it. -/
def Writes (z : Subscription) : Fact → Handler → Point → Prop
  | .status, .sync _, .retrieve => True
  | .status, .sync _, .mirror r =>
    mirrorSubscriptionStatus r.status = mirrorSubscriptionStatus z.status ∧
      pendingCancel r = pendingCancel z
  | .status, .deleted _ _ _, .mirrorDeleted => z.status = .canceled
  | .plan, .sync _, .retrieve => True
  | .plan, .sync _, .mirror r => subscriptionPlan r = subscriptionPlan z
  | .pause, .sync _, .retrieve => True
  | .pause, .sync _, .mirror r => (subscriptionPause r).1 = (subscriptionPause z).1
  | .pause, .sync _, .stampPause _ _ => (subscriptionPause z).1 = .paused
  | .pause, .sync _, .clearPause _ _ => (subscriptionPause z).1 = .notPaused
  | .canceledAt, .sync _, .retrieve => z.status = .canceled
  | .canceledAt, .sync _, .mirror r => z.status = .canceled ∧ r.status = .canceled
  | .canceledAt, .sync _, .stampPause r row =>
    z.status = .canceled ∧ r.status = .canceled ∧ row.canceledAt = none
  | .canceledAt, .sync _, .stampFee r row =>
    z.status = .canceled ∧ r.status = .canceled ∧ row.canceledAt = none
  | .canceledAt, .sync _, .clearPause r row =>
    z.status = .canceled ∧ r.status = .canceled ∧ row.canceledAt = none
  | .canceledAt, .sync _, .claimCanceledAt _ => z.status = .canceled
  | .canceledAt, .deleted _ _ _, .mirrorDeleted => z.status = .canceled
  | .canceledAt, .deleted _ _ _, .claimCanceledAt _ => z.status = .canceled
  | .numbers, .checkout _, .fetch => True
  | .numbers, .checkout _, .activate _ => True
  | .numbers, .checkout _, .furnish r => checkoutStatus r = .active
  | .numbers, .checkout _, .allowance => True
  | _, _, _ => False

def Fresh (id : ℕ) (z : Subscription) (k : Fact) (p : Process) : Prop :=
  p.handler.id = id ∧ Writes z k p.handler p.point

/-- One of the handlers is still to write the fact. -/
def Awaited (others : List Process) (id : ℕ) (z : Subscription) (k : Fact) : Prop :=
  ∃ q ∈ others, Fresh id z k q

/-- Every fact of the row is right, or a handler is still to make it so. -/
def Covered (others : List Process) (mover : Option Process) (w : World) : Prop :=
  ∀ id z, w.current = some (id, z) → ∀ k,
    Right w z k ∨ Awaited others id z k ∨ ∃ q, mover = some q ∧ Fresh id z k q

/-! ### Safe moves -/

/-- What a call that has its effect must respect, where `others` are the handlers other than the one
that makes it: what it writes is what Stripe says of the subscription on the row, or another handler
is still to write it. -/
def SafeCall (w : World) (others : List Process) (p : Process) : Prop :=
  match p.point with
  | .mirror r => ∀ z, w.current = some (p.handler.id, z) → z.status ≠ .paused →
      (mirrorSubscriptionStatus r.status = mirrorSubscriptionStatus z.status ∧
          pendingCancel r = pendingCancel z ∨ Awaited others p.handler.id z .status) ∧
        ((∀ plan, subscriptionPlan z = some plan →
            subscriptionPlan r = none ∨ subscriptionPlan r = some plan) ∨
          Awaited others p.handler.id z .plan)
  | .stampPause _ _ => ∀ z, w.current = some (p.handler.id, z) → z.status ≠ .paused →
      w.company.pausedAt ≠ none ∨ (subscriptionPause z).1 ≠ .notPaused ∨
        Awaited others p.handler.id z .pause
  | .clearPause _ _ => ∀ z, w.current = some (p.handler.id, z) → z.status ≠ .paused →
      w.company.pausedAt = none ∨ (subscriptionPause z).1 ≠ .paused ∨
        Awaited others p.handler.id z .pause
  | .claimCanceledAt _ => ∀ id z, w.current = some (id, z) →
      w.company.canceledAt ≠ none ∨ z.status = .canceled
  | .suspend => ∀ id z, w.current = some (id, z) →
      .active ∉ w.numbers ∨ z.status = .canceled ∨ Awaited others id z .numbers
  | .activate r => isDuplicate p.handler.id w.company = false →
      ∀ z, w.stripe p.handler.id = some z →
        ((∀ status, mirrorSubscriptionStatus z.status = some status →
            checkoutStatus r = status ∧ r.cancelAtPeriodEnd = pendingCancel z) ∨
          Awaited others p.handler.id z .status) ∧
        (z.status = .paused ∨ (∀ plan, subscriptionPlan z = some plan →
            (subscriptionPlan r).or w.company.plan = some plan) ∨
          Awaited others p.handler.id z .plan) ∧
        (z.status = .paused ∨ (subscriptionPlan r ≠ none ∧ (subscriptionPause z).1 ≠ .paused) ∨
          (subscriptionPlan r = none ∧ Right w z .pause) ∨
          Awaited others p.handler.id z .pause) ∧
        (z.status ≠ .canceled ∨ Awaited others p.handler.id z .canceledAt) ∧
        (z.status = .canceled ∨ .suspended ∉ w.numbers ∨ checkoutStatus r = .active ∨
          Awaited others p.handler.id z .numbers)
  | _ => True

/-- Where a subscription ends that Stripe had `paused`, which is not mirrored, its plan and its
pause are on the row, or a handler is still to write them. -/
def SafeEnd (w : World) (others : List Process) (id : ℕ) : Prop :=
  ∀ z, w.current = some (id, z) → z.status = .paused →
    ((∀ plan, subscriptionPlan z = some plan → w.company.plan = some plan) ∨
        Awaited others id z .plan) ∧
      (((subscriptionPause z).1 = .paused → w.company.pausedAt ≠ none) ∧
          ((subscriptionPause z).1 = .notPaused → w.company.pausedAt = none) ∨
        Awaited others id z .pause)

def SafeMove (s : State) : Input → Prop
  | .step n x => ∀ p, s.running[n]? = some p → x.reply.lands = true →
      SafeCall s.store (s.running.eraseIdx n) p ∧
        (p.point = .cancelDuplicate → SafeEnd s.store (s.running.eraseIdx n) p.handler.id)
  | .cancel id _ _ => SafeEnd s.store s.running id
  | _ => True

/-! ### One call -/

variable {w : World} {id : ℕ} {z r : Subscription} {p : Process} {others : List Process} {k : Fact}
  {row : Row} {h : Handler} {point : Point} {s : State} {x : Turn}

theorem current_iff :
    w.current = some (id, z) ↔ w.company.stripeSubscriptionId = some id ∧ w.stripe id = some z := by
  simp only [World.current, Option.bind_eq_some_iff, Option.map_eq_some_iff, Prod.mk.injEq]
  constructor
  · rintro ⟨id', hid, z', hz, rfl, rfl⟩
    exact ⟨hid, hz⟩
  · rintro ⟨hid, hz⟩
    exact ⟨id, hid, z, hz, rfl, rfl⟩

theorem attached_iff : w.attached id = true ↔ w.company.stripeSubscriptionId = some id := by
  simp [World.attached]

theorem mirrorSubscriptionStatus_eq_none {status : StripeStatus} :
    mirrorSubscriptionStatus status = none ↔ status = .paused := by
  cases status <;> simp [mirrorSubscriptionStatus]

theorem checkoutStatus_canceled : checkoutStatus z = .canceled ↔ z.status = .canceled := by
  unfold checkoutStatus
  cases z.status <;> simp [mirrorSubscriptionStatus]

/-- The points whose call attaches nothing and ends nothing. -/
def Point.isPlain : Point → Bool
  | .activate _ => false
  | .cancelDuplicate => false
  | _ => true

theorem effect_stripe (w : World) (p : Process) (x : Turn) : (effect w p x).stripe = w.stripe := by
  unfold effect
  split <;> first | rfl | (split_ifs <;> rfl)

theorem effect_attached (hp : p.point.isPlain = true) (x : Turn) :
    (effect w p x).company.stripeSubscriptionId = w.company.stripeSubscriptionId := by
  obtain ⟨h, point⟩ := p
  cases point with
  | activate r => cases hp
  | mirror | stampPause | stampFee | clearPause | mirrorDeleted =>
    simp only [effect]
    split_ifs <;> rfl
  | _ => rfl

theorem effect_current (hp : p.point.isPlain = true) (x : Turn) :
    (effect w p x).current = w.current := by
  simp only [World.current, effect_attached hp, effect_stripe]

/-- A claim of the allowance brings a number back, or it is held from then on. -/
theorem suspended_settled (w : World) (restored : ℕ → Bool) :
    .suspended ∉ (w.settleNumbers restored).numbers := by
  intro hmem
  obtain ⟨i, hi, hget⟩ := List.mem_mapIdx.1 hmem
  cases hn : w.numbers[i] <;> rw [hn] at hget <;> simp only [settleNumber] at hget
  · cases hget
  · split_ifs at hget
  · split_ifs at hget

/-- **What a safe call makes wrong, another handler is still to write.** -/
theorem effect_right (x : Turn) (hp : p.point.isPlain = true) (hsafe : SafeCall w others p)
    (hended : ∀ id payload created, p.handler = .deleted id payload created →
      ∀ z, w.stripe id = some z → z.status = .canceled)
    (hdeleted : p.point = .mirrorDeleted → ∃ id payload created,
      p.handler = .deleted id payload created) (hz : w.current = some (id, z))
    (hright : Right w z k) : Right (effect w p x) z k ∨ Awaited others id z k := by
  obtain ⟨hattached, hstripe⟩ := current_iff.1 hz
  obtain ⟨h, point⟩ := p
  have hmine : w.attached h.id = true → h.id = id := fun hat =>
    Option.some.inj ((attached_iff.1 hat).symm.trans hattached)
  cases point with
  | activate | cancelDuplicate => cases hp
  | mirror r =>
    simp only [effect]
    split_ifs with hat
    · obtain rfl := hmine hat
      simp only [SafeCall] at hsafe
      cases k with
      | status =>
        by_cases hpaused : z.status = .paused
        · left
          intro status hstatus
          rw [hpaused] at hstatus
          cases hstatus
        · rcases (hsafe z hz hpaused).1 with ⟨hstatus, hflag⟩ | hawaited
          · left
            intro status hst
            refine ⟨?_, hflag⟩
            simp [World.update, mirrored, hstatus, hst]
          · exact .inr hawaited
      | plan =>
        by_cases hpaused : z.status = .paused
        · exact .inl fun hne => absurd hpaused hne
        · rcases (hsafe z hz hpaused).2 with hplan | hawaited
          · left
            intro _ plan hsome
            rcases hplan plan hsome with hnone | hsame
            · simpa [World.update, mirrored, hnone] using hright hpaused plan hsome
            · simp [World.update, mirrored, hsame]
          · exact .inr hawaited
      | pause | canceledAt | numbers => exact .inl hright
    · exact .inl hright
  | stampPause r row =>
    simp only [effect]
    split_ifs with hat
    · obtain rfl := hmine hat
      simp only [SafeCall] at hsafe
      cases k with
      | pause =>
        by_cases hpaused : z.status = .paused
        · exact .inl fun hne => absurd hpaused hne
        · rcases hsafe z hz hpaused with hset | hreading | hawaited
          · left
            obtain ⟨t, ht⟩ := Option.ne_none_iff_exists'.1 hset
            intro hne
            have hold := hright hne
            rw [ht] at hold
            simpa [World.update, ht] using hold
          · left
            intro _
            refine ⟨fun _ => ?_, fun hnot => absurd hnot hreading⟩
            cases hpausedAt : w.company.pausedAt <;> simp [World.update, hpausedAt]
          · exact .inr hawaited
      | status | plan | canceledAt | numbers => exact .inl hright
    · exact .inl hright
  | stampFee r row =>
    simp only [effect]
    split_ifs
    · cases k <;> exact .inl hright
    · exact .inl hright
  | clearPause r row =>
    simp only [effect]
    split_ifs with hat
    · obtain rfl := hmine hat
      simp only [SafeCall] at hsafe
      cases k with
      | pause =>
        by_cases hpaused : z.status = .paused
        · exact .inl fun hne => absurd hpaused hne
        · rcases hsafe z hz hpaused with hnone | hreading | hawaited
          · left
            intro hne
            have hold := hright hne
            rw [hnone] at hold
            exact hold
          · exact .inl fun _ => ⟨fun hnot => absurd hnot hreading, fun _ => rfl⟩
          · exact .inr hawaited
      | status | plan | canceledAt | numbers => exact .inl hright
    · exact .inl hright
  | mirrorDeleted =>
    simp only [effect]
    split_ifs with hat
    · obtain rfl := hmine hat
      obtain ⟨id, payload, created, rfl⟩ := hdeleted rfl
      have hcanceled := hended id payload created rfl z hstripe
      cases k with
      | status =>
        left
        intro status hstatus
        rw [hcanceled] at hstatus
        cases hstatus
        refine ⟨rfl, ?_⟩
        simp [World.update, mirroredDeleted, pendingCancel, hcanceled]
      | plan | pause | canceledAt | numbers => exact .inl hright
    · exact .inl hright
  | claimCanceledAt r =>
    simp only [SafeCall] at hsafe
    cases k with
    | canceledAt =>
      left
      rcases hsafe id z hz with hset | hcanceled
      · obtain ⟨t, ht⟩ := Option.ne_none_iff_exists'.1 hset
        have hold : w.company.canceledAt ≠ none ↔ z.status = .canceled := hright
        simpa [Right, effect, World.update, ht] using hold
      · simp only [Right, hcanceled, iff_true, effect]
        cases hnone : w.company.canceledAt <;> simp [World.update, hnone]
    | status | plan | pause | numbers => exact .inl hright
  | suspend =>
    simp only [SafeCall] at hsafe
    cases k with
    | numbers =>
      rcases hsafe id z hz with hnone | hcanceled | hawaited
      · left
        intro hne hmem
        obtain ⟨n, hn, hsus⟩ := List.mem_map.1 hmem
        cases n with
        | active => exact hnone hn
        | suspended => exact hright hne hn
        | held => cases hsus
      · exact .inl fun hne => absurd hcanceled hne
      · exact .inr hawaited
    | status | plan | pause | canceledAt => exact .inl hright
  | allowance =>
    left
    cases k with
    | numbers =>
      exact fun _ => suspended_settled w x.restored
    | status | plan | pause | canceledAt => exact hright
  | retrieve | modules | notice | fetch | furnish | provision => exact .inl hright

/-- A handler that finds out that the subscription has ended goes on to the claim. -/
theorem afterPause_canceled (hr : r.status = .canceled)
    (hrow : row.canceledAt = none) : afterPause r row = some (.claimCanceledAt r) := by
  simp [afterPause, hr, startCancellationLifecycle, hrow]

theorem afterStamp_canceled (hz : z.status = .canceled) (hr : r.status = .canceled)
    (hrow : row.canceledAt = none) (id : ℕ) :
    ∃ point, afterStamp r row = some point ∧ Writes z .canceledAt (.sync id) point := by
  unfold afterStamp
  split
  · exact ⟨_, rfl, hz, hr, hrow⟩
  · exact ⟨_, afterPause_canceled hr hrow, hz⟩

theorem afterMirror_canceled (hz : z.status = .canceled) (hr : r.status = .canceled)
    (hrow : row.canceledAt = none) (id : ℕ) :
    ∃ point, afterMirror r row = some point ∧ Writes z .canceledAt (.sync id) point := by
  unfold afterMirror
  split
  · split
    · exact ⟨_, rfl, hz, hr, hrow⟩
    · exact afterStamp_canceled hz hr hrow id
  · split
    · exact ⟨_, rfl, hz, hr, hrow⟩
    · exact ⟨_, afterPause_canceled hr hrow, hz⟩
  · exact ⟨_, afterPause_canceled hr hrow, hz⟩

/-- The pause after the mirror: it is right, or the handler goes on to write it. -/
theorem afterMirror_pause (hreading : (subscriptionPause r).1 = (subscriptionPause z).1) (id : ℕ) :
    Right w z .pause ∨ ∃ point, afterMirror r w.company.row = some point ∧
      Writes z .pause (.sync id) point := by
  unfold afterMirror
  cases hz : (subscriptionPause z).1 with
  | paused =>
    rw [hz] at hreading
    simp only [hreading]
    cases hpausedAt : w.company.pausedAt with
    | none => exact .inr ⟨.stampPause r w.company.row, by simp [Company.row, hpausedAt], hz⟩
    | some t =>
      exact .inl fun _ => ⟨fun _ => by simp [hpausedAt], fun h => (nomatch hz.symm.trans h)⟩
  | notPaused =>
    rw [hz] at hreading
    simp only [hreading]
    cases hpausedAt : w.company.pausedAt with
    | none => exact .inl fun _ => ⟨fun h => (nomatch hz.symm.trans h), fun _ => hpausedAt⟩
    | some t => exact .inr ⟨.clearPause r w.company.row, by simp [Company.row, hpausedAt], hz⟩
  | unknown =>
    exact .inl fun _ =>
      ⟨fun h => (nomatch hz.symm.trans h), fun h => (nomatch hz.symm.trans h)⟩

theorem next_retrieve (hz : w.stripe h.id = some z)
    (hpaused : z.status ≠ .paused) : next w ⟨h, .retrieve⟩ = some (.mirror z) := by
  have hsome : (mirrorSubscriptionStatus z.status).isSome = true := by
    rw [Option.isSome_iff_ne_none]
    exact fun hnone => hpaused (mirrorSubscriptionStatus_eq_none.1 hnone)
  simp [next, hz, hsome]

/-- **A handler that is still to write a fact writes it, or goes on being so.** -/
theorem next_fresh (x : Turn) (hp : p.point.isPlain = true) (hz : w.current = some (id, z))
    (hfresh : Fresh id z k p) :
    Right (effect w p x) z k ∨
      ∃ q, (next w p).map (Process.mk p.handler) = some q ∧ Fresh id z k q := by
  obtain ⟨hattached, hstripe⟩ := current_iff.1 hz
  obtain ⟨h, point⟩ := p
  obtain ⟨rfl, hwrites⟩ := hfresh
  have hat : w.attached h.id = true := attached_iff.2 hattached
  -- where the handler goes to a point at which it is still to write the fact
  have hgoes : ∀ point', next w ⟨h, point⟩ = some point' → Writes z k h point' →
      ∃ q, (next w ⟨h, point⟩).map (Process.mk h) = some q ∧ Fresh h.id z k q :=
    fun _ hnext hw => ⟨⟨h, _⟩, by rw [hnext]; rfl, rfl, hw⟩
  cases k with
  | status =>
    cases h with
    | checkout id => cases point <;> exact hwrites.elim
    | deleted id payload created =>
      cases point with
      | mirrorDeleted =>
        left
        have hcanceled : z.status = .canceled := hwrites
        intro status hstatus
        rw [hcanceled] at hstatus
        cases hstatus
        simp only [effect, hat, if_true]
        refine ⟨rfl, ?_⟩
        simp [World.update, mirroredDeleted, pendingCancel, hcanceled]
      | _ => exact hwrites.elim
    | sync id =>
      cases point with
      | retrieve =>
        by_cases hpaused : z.status = .paused
        · left
          intro status hstatus
          rw [hpaused] at hstatus
          cases hstatus
        · exact .inr (hgoes _ (next_retrieve hstripe hpaused) ⟨rfl, rfl⟩)
      | mirror r =>
        left
        intro status hstatus
        simp only [effect, hat, if_true]
        refine ⟨?_, hwrites.2⟩
        simp [World.update, mirrored, hwrites.1, hstatus]
      | _ => exact hwrites.elim
  | plan =>
    cases h with
    | checkout id => cases point <;> exact hwrites.elim
    | deleted id payload created => cases point <;> exact hwrites.elim
    | sync id =>
      cases point with
      | retrieve =>
        by_cases hpaused : z.status = .paused
        · exact .inl fun hne => absurd hpaused hne
        · exact .inr (hgoes _ (next_retrieve hstripe hpaused) rfl)
      | mirror r =>
        left
        intro _ plan hplan
        have hsame : subscriptionPlan r = subscriptionPlan z := hwrites
        simp [effect, hat, World.update, mirrored, hsame, hplan]
      | _ => exact hwrites.elim
  | pause =>
    cases h with
    | checkout id => cases point <;> exact hwrites.elim
    | deleted id payload created => cases point <;> exact hwrites.elim
    | sync id =>
      cases point with
      | retrieve =>
        by_cases hpaused : z.status = .paused
        · exact .inl fun hne => absurd hpaused hne
        · exact .inr (hgoes _ (next_retrieve hstripe hpaused) rfl)
      | mirror r =>
        rcases afterMirror_pause (w := w) hwrites id with hright | ⟨point', hnext, hw⟩
        · left
          simp only [effect, hat, if_true]
          exact hright
        · refine .inr (hgoes _ ?_ hw)
          simpa [next, hat] using hnext
      | stampPause r row =>
        left
        intro _
        have hreading : (subscriptionPause z).1 = .paused := hwrites
        refine ⟨fun _ => ?_, fun h => nomatch hreading.symm.trans h⟩
        cases hpausedAt : w.company.pausedAt <;>
          simp [effect, hat, World.update, hpausedAt]
      | clearPause r row =>
        left
        intro _
        have hreading : (subscriptionPause z).1 = .notPaused := hwrites
        refine ⟨fun h => (nomatch hreading.symm.trans h), fun _ => ?_⟩
        simp [effect, hat, World.update]
      | _ => exact hwrites.elim
  | canceledAt =>
    -- a row with the moment on it is right
    have hset : ∀ w' : World, z.status = .canceled → w'.company.canceledAt ≠ none →
        Right w' z .canceledAt := fun w' hcanceled hne => ⟨fun _ => hcanceled, fun _ => hne⟩
    have hclaim : ∀ r, z.status = .canceled →
        Right (effect w ⟨h, .claimCanceledAt r⟩ x) z .canceledAt := by
      intro r hcanceled
      refine hset _ hcanceled ?_
      cases hnone : w.company.canceledAt <;> simp [effect, World.update, hnone]
    cases h with
    | checkout id => cases point <;> exact hwrites.elim
    | deleted id payload created =>
      cases point with
      | mirrorDeleted =>
        cases hrow : w.company.canceledAt with
        | none =>
          refine .inr (hgoes (.claimCanceledAt payload) ?_ hwrites)
          simp [next, hat, hrow, startCancellationLifecycle]
        | some t =>
          refine .inl (hset _ hwrites ?_)
          simp [effect, hat, World.update, mirroredDeleted, hrow]
      | claimCanceledAt r => exact .inl (hclaim r hwrites)
      | _ => exact hwrites.elim
    | sync id =>
      cases point with
      | retrieve =>
        have hcanceled : z.status = .canceled := hwrites
        have hne : z.status ≠ .paused := by simp [hcanceled]
        exact .inr (hgoes _ (next_retrieve hstripe hne) ⟨hcanceled, hcanceled⟩)
      | mirror r =>
        cases hrow : w.company.canceledAt with
        | none =>
          have hrow' : w.company.row.canceledAt = none := hrow
          obtain ⟨point', hnext, hw⟩ :=
            afterMirror_canceled hwrites.1 hwrites.2 hrow' id
          refine .inr (hgoes _ ?_ hw)
          simpa [next, hat] using hnext
        | some t =>
          refine .inl (hset _ hwrites.1 ?_)
          simp [effect, hat, World.update, mirrored, hrow]
      | stampPause r row =>
        obtain ⟨hcanceled, hr, hrow⟩ := hwrites
        obtain ⟨point', hnext, hw⟩ := afterStamp_canceled hcanceled hr hrow id
        exact .inr (hgoes _ hnext hw)
      | stampFee r row =>
        obtain ⟨hcanceled, hr, hrow⟩ := hwrites
        exact .inr (hgoes _ (afterPause_canceled hr hrow) hcanceled)
      | clearPause r row =>
        obtain ⟨hcanceled, hr, hrow⟩ := hwrites
        exact .inr (hgoes _ (afterPause_canceled hr hrow) hcanceled)
      | claimCanceledAt r => exact .inl (hclaim r hwrites)
      | _ => exact hwrites.elim
  | numbers =>
    cases h with
    | sync id => cases point <;> exact hwrites.elim
    | deleted id payload created => cases point <;> exact hwrites.elim
    | checkout id =>
      cases point with
      | fetch =>
        by_cases hcanceled : z.status = .canceled
        · exact .inl fun hne => absurd hcanceled hne
        · have hlive : checkoutStatus z ≠ .canceled := fun h =>
          hcanceled (checkoutStatus_canceled.1 h)
          refine .inr (hgoes (.activate z) ?_ trivial)
          have hstripe' : w.stripe (Handler.checkout id).id = some z := hstripe
          simp [next, hstripe', hlive]
      | activate r => cases hp
      | furnish r =>
        have hactive : checkoutStatus r = .active := hwrites
        refine .inr (hgoes (.allowance) ?_ trivial)
        simp [next, hactive]
      | allowance =>
        exact .inl fun _ => suspended_settled w x.restored
      | _ => exact hwrites.elim

/-- A handler that begins anew is still to write what it was to write. -/
theorem fresh_start (h : Fresh id z k p) : Fresh id z k p.handler.start := by
  obtain ⟨handler, point⟩ := p
  obtain ⟨hid, hwrites⟩ := h
  cases handler with
  | sync id' =>
    refine ⟨hid, ?_⟩
    cases k with
    | status | plan | pause => trivial
    | numbers => cases point <;> exact hwrites.elim
    | canceledAt =>
      cases point with
      | retrieve | claimCanceledAt => exact hwrites
      | mirror | stampPause | stampFee | clearPause => exact hwrites.1
      | _ => exact hwrites.elim
  | deleted id' payload created =>
    refine ⟨hid, ?_⟩
    cases k with
    | status =>
      cases point with
      | mirrorDeleted => exact hwrites
      | _ => exact hwrites.elim
    | canceledAt =>
      cases point with
      | mirrorDeleted | claimCanceledAt => exact hwrites
      | _ => exact hwrites.elim
    | plan | pause | numbers => cases point <;> exact hwrites.elim
  | checkout id' =>
    refine ⟨hid, ?_⟩
    cases k with
    | numbers => trivial
    | status | plan | pause | canceledAt => cases point <;> exact hwrites.elim

theorem covered_plain (x : Turn) (hp : p.point.isPlain = true)
    (hcovered : Covered others (some p) w) (hsafe : x.reply.lands = true → SafeCall w others p)
    (hended : ∀ id payload created, p.handler = .deleted id payload created →
      ∀ z, w.stripe id = some z → z.status = .canceled)
    (hdeleted : p.point = .mirrorDeleted → ∃ id payload created,
      p.handler = .deleted id payload created) :
    Covered others (goes w p x) (if x.reply.lands then effect w p x else w) := by
  unfold goes
  intro id z hz k
  have hz' : w.current = some (id, z) := by
    rw [← hz]
    split_ifs
    · exact (effect_current hp x).symm
    · rfl
  have hbefore := hcovered id z hz' k
  cases hreply : x.reply with
  | failed =>
    rcases hbefore with hright | hawaited | ⟨q, hq, hfresh⟩
    · exact .inl hright
    · exact .inr (.inl hawaited)
    · obtain rfl := Option.some.inj hq
      exact .inr (.inr ⟨_, rfl, fresh_start hfresh⟩)
  | lost =>
    have hcall := hsafe (by rw [hreply]; rfl)
    rcases hbefore with hright | hawaited | ⟨q, hq, hfresh⟩
    · rcases effect_right x hp hcall hended hdeleted hz' hright with hright | hawaited
      · exact .inl hright
      · exact .inr (.inl hawaited)
    · exact .inr (.inl hawaited)
    · obtain rfl := Option.some.inj hq
      exact .inr (.inr ⟨_, rfl, fresh_start hfresh⟩)
  | ok =>
    have hcall := hsafe (by rw [hreply]; rfl)
    rcases hbefore with hright | hawaited | ⟨q, hq, hfresh⟩
    · rcases effect_right x hp hcall hended hdeleted hz' hright with hright | hawaited
      · exact .inl hright
      · exact .inr (.inl hawaited)
    · exact .inr (.inl hawaited)
    · obtain rfl := Option.some.inj hq
      rcases next_fresh x hp hz' hfresh with hright | ⟨q, hnext, hfresh⟩
      · exact .inl hright
      · exact .inr (.inr ⟨q, hnext, hfresh⟩)

/-! ### The attach -/

/-- After a safe attach, each fact is right, or a handler is still to write it; the attach itself
goes on to the numbers. -/
theorem activated_right (hdup : isDuplicate h.id w.company = false)
    (hsafe : SafeCall w others ⟨h, .activate r⟩) (hz : w.stripe h.id = some z) (k : Fact) :
    Right (w.update (claimCheckoutActivation h.id r)) z k ∨ Awaited others h.id z k ∨
      (k = .numbers ∧ checkoutStatus r = .active) := by
  have hcompany : claimCheckoutActivation h.id r w.company = activated h.id r w.company := by
    simp [claimCheckoutActivation, hdup]
  obtain ⟨hstatus, hplan, hpause, hcanceled, hnumbers⟩ := hsafe hdup z hz
  cases k with
  | status =>
    rcases hstatus with hsame | hawaited
    · left
      intro status hst
      simpa [World.update, hcompany, activated] using hsame status hst
    · exact .inr (.inl hawaited)
  | plan =>
    rcases hplan with hpaused | hsame | hawaited
    · exact .inl fun hne => absurd hpaused hne
    · left
      intro _ plan hp
      simpa [World.update, hcompany, activated] using hsame plan hp
    · exact .inr (.inl hawaited)
  | pause =>
    rcases hpause with hpaused | ⟨hsome, hreading⟩ | ⟨hnone, hold⟩ | hawaited
    · exact .inl fun hne => absurd hpaused hne
    · left
      intro _
      refine ⟨fun h => absurd h hreading, fun _ => ?_⟩
      simp [World.update, hcompany, activated, Option.isSome_iff_ne_none, hsome]
    · left
      intro hne
      simpa [World.update, hcompany, activated, hnone] using hold hne
    · exact .inr (.inl hawaited)
  | canceledAt =>
    rcases hcanceled with hlive | hawaited
    · left
      simp [Right, World.update, hcompany, activated, hlive]
    · exact .inr (.inl hawaited)
  | numbers =>
    rcases hnumbers with hended | hnone | hactive | hawaited
    · exact .inl fun hne => absurd hended hne
    · exact .inl fun _ => hnone
    · exact .inr (.inr ⟨rfl, hactive⟩)
    · exact .inr (.inl hawaited)

theorem covered_activate (x : Turn) (hcovered : Covered others (some ⟨.checkout id, .activate r⟩) w)
    (hsafe : x.reply.lands = true → SafeCall w others ⟨.checkout id, .activate r⟩) :
    Covered others (goes w ⟨.checkout id, .activate r⟩ x)
      (if x.reply.lands then effect w ⟨.checkout id, .activate r⟩ x else w) := by
  unfold goes
  by_cases hlands : x.reply.lands = true
  · rw [if_pos hlands]
    cases hdup : isDuplicate id w.company with
    | true =>
      -- nothing is written, and the handler was to write nothing
      have hsame : effect w ⟨.checkout id, .activate r⟩ x = w := by
        simp [effect, World.update, claimCheckoutActivation, Handler.id, hdup]
      rw [hsame]
      intro id' z hz k
      rcases hcovered id' z hz k with hright | hawaited | ⟨q, hq, hfresh⟩
      · exact .inl hright
      · exact .inr (.inl hawaited)
      · obtain rfl := Option.some.inj hq
        obtain ⟨rfl, -⟩ := hfresh
        have hattached := (current_iff.1 hz).1
        simp only [Handler.id] at hattached
        simp [isDuplicate, hattached] at hdup
    | false =>
      intro id' z hz k
      have hcall := hsafe hlands
      have hid : id = id' := by
        have hattached := (current_iff.1 hz).1
        simpa [effect, World.update, claimCheckoutActivation, Handler.id, hdup, activated] using
          hattached
      subst hid
      have hstripe : w.stripe id = some z := (current_iff.1 hz).2
      rcases activated_right (h := .checkout id) hdup hcall hstripe k with
        hright | hawaited | ⟨rfl, hactive⟩
      · exact .inl hright
      · exact .inr (.inl hawaited)
      · right; right
        split_ifs
        · refine ⟨⟨.checkout id, .furnish r⟩, ?_, rfl, hactive⟩
          simp [next, Handler.id, hdup]
        · exact ⟨_, rfl, rfl, trivial⟩
  · have hfailed : x.reply = .failed := by
      cases hreply : x.reply with
      | failed => rfl
      | ok | lost => exact absurd (by rw [hreply]; rfl) hlands
    rw [if_neg hlands, hfailed]
    intro id' z hz k
    rcases hcovered id' z hz k with hright | hawaited | ⟨q, hq, hfresh⟩
    · exact .inl hright
    · exact .inr (.inl hawaited)
    · obtain rfl := Option.some.inj hq
      exact .inr (.inr ⟨_, rfl, fresh_start hfresh⟩)

/-! ### Changes at Stripe -/

theorem awaited_append {others more : List Process}
    (h : Awaited others id z k) : Awaited (others ++ more) id z k := by
  obtain ⟨q, hq, hfresh⟩ := h
  exact ⟨q, List.mem_append_left _ hq, hfresh⟩

/-- The handlers that are still to write a plan or a pause look at nothing else. -/
theorem awaited_congr {z z' : Subscription} (hitems : z'.items = z.items)
    (hk : k = .plan ∨ k = .pause) (h : Awaited others id z k) : Awaited others id z' k := by
  have hplan : subscriptionPlan z' = subscriptionPlan z := by simp [subscriptionPlan, hitems]
  have hpause : subscriptionPause z' = subscriptionPause z := by
    simp [subscriptionPause, hitems, hplan]
  obtain ⟨q, hq, hid, hwrites⟩ := h
  refine ⟨q, hq, hid, ?_⟩
  obtain ⟨handler, point⟩ := q
  rcases hk with rfl | rfl
  · cases handler <;> cases point <;>
      first | exact hwrites.elim | trivial | exact hwrites.trans hplan.symm
  · have hreading := congrArg Prod.fst hpause
    cases handler <;> cases point <;>
      first | exact hwrites.elim | trivial | exact hwrites.trans hreading.symm |
        exact hreading.trans hwrites

theorem canceled_of_awaited (h : Awaited others id z .canceledAt) : z.status = .canceled := by
  obtain ⟨⟨handler, point⟩, hq, hid, hwrites⟩ := h
  cases handler <;> cases point <;> first | exact hwrites.elim | exact hwrites | exact hwrites.1

/-- Who brings the numbers back does not ask what the subscription is. -/
theorem awaited_numbers (z' : Subscription)
    (h : Awaited others id z .numbers) : Awaited others id z' .numbers := by
  obtain ⟨⟨handler, point⟩, hq, hid, hwrites⟩ := h
  refine ⟨_, hq, hid, ?_⟩
  cases handler <;> cases point <;> first | exact hwrites.elim | exact hwrites

theorem covered_end (canceledAt endedAt : Option ℤ) (hcovered : Covered others none w)
    (hsafe : SafeEnd w others id) :
    Covered (others ++ (endSubscription w id canceledAt endedAt).2) none
      (endSubscription w id canceledAt endedAt).1 := by
  have hbefore : ∀ id' z, w.current = some (id', z) → ∀ k,
      Right w z k ∨ Awaited others id' z k := by
    intro id' z hz k
    rcases hcovered id' z hz k with hright | hawaited | ⟨q, hq, -⟩
    · exact .inl hright
    · exact .inr hawaited
    · cases hq
  unfold endSubscription
  cases hold : w.stripe id with
  | none => simpa using hcovered
  | some z =>
    simp only
    split_ifs with hcanceled
    · simpa using hcovered
    · intro id' z' hz' k
      obtain ⟨hattached, hstripe⟩ := current_iff.1 hz'
      by_cases hid : id' = id
      · subst hid
        obtain rfl : ended canceledAt endedAt z = z' := by simpa using hstripe
        have hz : w.current = some (id', z) := current_iff.2 ⟨hattached, hold⟩
        have hnew : ∀ k, Writes (ended canceledAt endedAt z) k
            (.deleted id' (ended canceledAt endedAt z) w.now) .mirrorDeleted →
              Awaited (others ++ [(Handler.deleted id' (ended canceledAt endedAt z) w.now).start])
                id' (ended canceledAt endedAt z) k := fun k hwrites =>
          ⟨_, List.mem_append_right _ (List.mem_singleton_self _), rfl, hwrites⟩
        cases k with
        | status => exact .inr (.inl (hnew _ rfl))
        | canceledAt => exact .inr (.inl (hnew _ rfl))
        | numbers => exact .inl fun hne => absurd rfl hne
        | plan =>
          by_cases hpaused : z.status = .paused
          · rcases (hsafe z hz hpaused).1 with hright | hawaited
            · exact .inl fun _ => hright
            · exact .inr (.inl (awaited_append (awaited_congr (by rfl) (.inl rfl) hawaited)))
          · rcases hbefore id' z hz .plan with hright | hawaited
            · exact .inl fun _ => hright hpaused
            · exact .inr (.inl (awaited_append (awaited_congr (by rfl) (.inl rfl) hawaited)))
        | pause =>
          by_cases hpaused : z.status = .paused
          · rcases (hsafe z hz hpaused).2 with hright | hawaited
            · exact .inl fun _ => hright
            · exact .inr (.inl (awaited_append (awaited_congr (by rfl) (.inr rfl) hawaited)))
          · rcases hbefore id' z hz .pause with hright | hawaited
            · exact .inl fun _ => hright hpaused
            · exact .inr (.inl (awaited_append (awaited_congr (by rfl) (.inr rfl) hawaited)))
      · have hz : w.current = some (id', z') := by
          refine current_iff.2 ⟨hattached, ?_⟩
          simpa [Function.update_of_ne hid] using hstripe
        rcases hbefore id' z' hz k with hright | hawaited
        · left
          cases k <;> exact hright
        · exact .inr (.inl (awaited_append hawaited))

theorem covered_change (hcovered : Covered others none w) (hlive : z.status ≠ .canceled)
    (hold : ∀ z', w.current = some (id, z') → z'.status ≠ .canceled)
    (hknown : w.company.stripeSubscriptionId = some id → (w.stripe id).isSome = true) :
    Covered (others ++ [(Handler.sync id).start]) none
      { w with stripe := Function.update w.stripe id (some z) } := by
  intro id' z' hz' k
  obtain ⟨hattached, hstripe⟩ := current_iff.1 hz'
  by_cases hid : id' = id
  · subst hid
    obtain rfl : z = z' := by simpa using hstripe
    obtain ⟨zold, hzold⟩ := Option.isSome_iff_exists.1 (hknown hattached)
    have hz : w.current = some (id', zold) := current_iff.2 ⟨hattached, hzold⟩
    have hnew : ∀ k, Writes z k (.sync id') .retrieve →
        Awaited (others ++ [(Handler.sync id').start]) id' z k := fun k hwrites =>
      ⟨_, List.mem_append_right _ (List.mem_singleton_self _), rfl, hwrites⟩
    cases k with
    | status | plan | pause => exact .inr (.inl (hnew _ trivial))
    | canceledAt =>
      rcases hcovered id' zold hz .canceledAt with hright | hawaited | ⟨q, hq, -⟩
      · left
        have hnone : w.company.canceledAt ≠ none ↔ zold.status = .canceled := hright
        have hno := hnone.not.2 (hold zold hz)
        exact ⟨fun h => absurd h hno, fun h => absurd h hlive⟩
      · exact absurd (canceled_of_awaited hawaited) (hold zold hz)
      · cases hq
    | numbers =>
      rcases hcovered id' zold hz .numbers with hright | hawaited | ⟨q, hq, -⟩
      · exact .inl fun _ => hright (hold zold hz)
      · exact .inr (.inl (awaited_append (awaited_numbers z hawaited)))
      · cases hq
  · have hz : w.current = some (id', z') := by
      refine current_iff.2 ⟨hattached, ?_⟩
      simpa [Function.update_of_ne hid] using hstripe
    rcases hcovered id' z' hz k with hright | hawaited | ⟨q, hq, -⟩
    · left
      cases k <;> exact hright
    · exact .inr (.inl (awaited_append hawaited))
    · cases hq

/-! ### What the handlers know -/

/-- What is at Stripe stays there, and what has ended stays so. -/
def Grows (stripe stripe' : ℕ → Option Subscription) : Prop :=
  ∀ id z, stripe id = some z → ∃ z', stripe' id = some z' ∧
    (z.status = .canceled → z'.status = .canceled)

theorem Grows.refl (stripe : ℕ → Option Subscription) : Grows stripe stripe :=
  fun _ z hz => ⟨z, hz, id⟩

theorem grows_update {stripe : ℕ → Option Subscription}
    (h : ∀ z', stripe id = some z' → z'.status = .canceled → z.status = .canceled) :
    Grows stripe (Function.update stripe id (some z)) := by
  intro id' z' hz'
  by_cases hid : id' = id
  · subst hid
    exact ⟨z, by simp, h z' hz'⟩
  · exact ⟨z', by simpa [Function.update_of_ne hid] using hz', fun h => h⟩

/-- A handler is one that goes to the point where it is, and what it works on is at Stripe. -/
structure Genuine (stripe : ℕ → Option Subscription) (p : Process) : Prop where
  checkout : p.point = .fetch ∨ (∃ r, p.point = .activate r) → ∃ id, p.handler = .checkout id
  attaches : ∀ r, p.point = .activate r → (stripe p.handler.id).isSome = true
  deletes : p.point = .mirrorDeleted → ∃ id payload created, p.handler = .deleted id payload created
  ended : ∀ id payload created, p.handler = .deleted id payload created →
    ∃ z, stripe id = some z ∧ z.status = .canceled

theorem Genuine.mono {stripe stripe' : ℕ → Option Subscription} (h : Genuine stripe p)
    (hgrows : Grows stripe stripe') : Genuine stripe' p where
  checkout := h.checkout
  attaches := fun r hr => by
    obtain ⟨z, hz⟩ := Option.isSome_iff_exists.1 (h.attaches r hr)
    obtain ⟨z', hz', -⟩ := hgrows _ z hz
    simp [hz']
  deletes := h.deletes
  ended := fun id payload created hp => by
    obtain ⟨z, hz, hcanceled⟩ := h.ended id payload created hp
    obtain ⟨z', hz', hstays⟩ := hgrows id z hz
    exact ⟨z', hz', hstays hcanceled⟩

theorem genuine_start {stripe : ℕ → Option Subscription}
    (hended : ∀ id payload created, h = .deleted id payload created →
      ∃ z, stripe id = some z ∧ z.status = .canceled) : Genuine stripe h.start := by
  cases h with
  | sync id =>
    refine ⟨?_, fun r hr => (nomatch hr), fun hd => (nomatch hd), fun _ _ _ hp => (nomatch hp)⟩
    rintro (hf | ⟨r, hr⟩)
    · cases hf
    · cases hr
  | deleted id payload created =>
    refine ⟨?_, fun r hr => (nomatch hr), fun _ => ⟨id, payload, created, rfl⟩, hended⟩
    rintro (hf | ⟨r, hr⟩)
    · cases hf
    · cases hr
  | checkout id =>
    exact ⟨fun _ => ⟨id, rfl⟩, fun r hr => (nomatch hr), fun hd => (nomatch hd),
      fun _ _ _ hp => (nomatch hp)⟩

/-- The points that only certain handlers go to. -/
def Point.isDoor : Point → Bool
  | .fetch => true
  | .activate _ => true
  | .mirrorDeleted => true
  | _ => false

theorem afterPause_door (h : afterPause r row = some point) : point.isDoor = false := by
  unfold afterPause startCancellationLifecycle at h
  split_ifs at h <;> cases h <;> rfl

theorem afterStamp_door (h : afterStamp r row = some point) : point.isDoor = false := by
  unfold afterStamp at h
  split_ifs at h
  · cases h
    rfl
  · exact afterPause_door h

theorem afterMirror_door (h : afterMirror r row = some point) : point.isDoor = false := by
  unfold afterMirror at h
  split at h
  · split at h
    · cases h
      rfl
    · exact afterStamp_door h
  · split at h
    · cases h
      rfl
    · exact afterPause_door h
  · exact afterPause_door h

/-- A handler comes to an attach from its fetch only, and stays at the fetch at most. -/
theorem next_door (h : next w p = some point) (hdoor : point.isDoor = true) :
    p.point = .fetch ∧ (point = .fetch ∨ ∃ r, point = .activate r ∧
      (w.stripe p.handler.id).isSome = true) := by
  obtain ⟨handler, here⟩ := p
  have hno : point.isDoor = false → False := fun hfalse => nomatch hdoor.symm.trans hfalse
  cases here with
  | fetch =>
    refine ⟨rfl, ?_⟩
    simp only [next] at h
    split at h
    · cases h
      exact .inl rfl
    · rename_i z hz
      split_ifs at h
      cases h
      exact .inr ⟨z, rfl, by simp [hz]⟩
  | retrieve =>
    simp only [next] at h
    split at h
    · cases h
      exact (hno rfl).elim
    · split_ifs at h
      cases h
      exact (hno rfl).elim
  | mirror r =>
    simp only [next] at h
    split_ifs at h
    exact (hno (afterMirror_door h)).elim
  | stampPause r row => exact (hno (afterStamp_door h)).elim
  | stampFee | clearPause => exact (hno (afterPause_door h)).elim
  | mirrorDeleted =>
    simp only [next] at h
    split at h
    · cases handler with
      | deleted id payload created =>
        simp only [startCancellationLifecycle] at h
        split_ifs at h
        · cases h
          exact (hno rfl).elim
        · cases h
          exact (hno rfl).elim
      | sync | checkout => cases h
    · cases h
  | activate r =>
    simp only [next] at h
    split_ifs at h
    · cases h
      exact (hno rfl).elim
    · cases h
      exact (hno rfl).elim
  | furnish r =>
    simp only [next] at h
    split_ifs at h
    cases h
    exact (hno rfl).elim
  | claimCanceledAt | suspend | allowance =>
    cases h
    exact (hno rfl).elim
  | modules | notice | cancelDuplicate | provision => cases h

theorem next_genuine {p q : Process} (hp : Genuine w.stripe p)
    (h : (next w p).map (Process.mk p.handler) = some q) : Genuine w.stripe q := by
  obtain ⟨point, hnext, rfl⟩ := Option.map_eq_some_iff.1 h
  refine ⟨fun hdoor => ?_, fun r hr => ?_, fun hd => ?_, hp.ended⟩
  · have hopen : point.isDoor = true := by
      rcases hdoor with hf | ⟨r, hr⟩
      · change point = .fetch at hf
        rw [hf]
        rfl
      · change point = .activate r at hr
        rw [hr]
        rfl
    exact hp.checkout (.inl (next_door hnext hopen).1)
  · change point = .activate r at hr
    subst hr
    obtain ⟨-, hf | ⟨r', -, hsome⟩⟩ := next_door hnext rfl
    · cases hf
    · exact hsome
  · change point = .mirrorDeleted at hd
    subst hd
    obtain ⟨-, hf | ⟨r', hr, -⟩⟩ := next_door hnext rfl
    · cases hf
    · cases hr

/-! ### Runs -/

/-- What holds along a run of safe moves: the subscription on the row is at Stripe, the handlers are
what they are, and every fact is right or awaited. -/
structure Sound (s : State) : Prop where
  known : ∀ id, s.store.company.stripeSubscriptionId = some id →
    (s.store.stripe id).isSome = true
  genuine : ∀ p ∈ s.running, Genuine s.store.stripe p
  covered : Covered s.running none s.store

theorem covered_of_running {running : List Process} {n : ℕ} (hp : running[n]? = some p)
    (h : Covered running none w) : Covered (running.eraseIdx n) (some p) w := by
  intro id z hz k
  rcases h id z hz k with hright | ⟨q, hq, hfresh⟩ | ⟨q, hq, -⟩
  · exact .inl hright
  · rcases (Interleaving.mem_running_iff hp).1 hq with hq | rfl
    · exact .inr (.inl ⟨q, hq, hfresh⟩)
    · exact .inr (.inr ⟨p, rfl, hfresh⟩)
  · cases hq

theorem covered_putBack {running : List Process} {n : ℕ} (hp : running[n]? = some p)
    {mover : Option Process} (h : Covered (running.eraseIdx n) mover w) :
    Covered (Interleaving.putBack running n mover) none w := by
  intro id z hz k
  rcases h id z hz k with hright | ⟨q, hq, hfresh⟩ | ⟨q, hq, hfresh⟩
  · exact .inl hright
  · exact .inr (.inl ⟨q, (Interleaving.mem_putBack_iff hp).2 (.inl hq), hfresh⟩)
  · exact .inr (.inl ⟨q, (Interleaving.mem_putBack_iff hp).2 (.inr hq), hfresh⟩)

theorem covered_append {running more : List Process} (h : Covered running none w) :
    Covered (running ++ more) none w := by
  intro id z hz k
  rcases h id z hz k with hright | hawaited | ⟨q, hq, -⟩
  · exact .inl hright
  · exact .inr (.inl (awaited_append hawaited))
  · cases hq

theorem endSubscription_grows (w : World) (id : ℕ) (canceledAt endedAt : Option ℤ) :
    Grows w.stripe (endSubscription w id canceledAt endedAt).1.stripe := by
  unfold endSubscription
  split
  · exact .refl _
  · split_ifs
    · exact .refl _
    · exact grows_update fun _ _ _ => (by rfl)

theorem endSubscription_company (w : World) (id : ℕ) (canceledAt endedAt : Option ℤ) :
    (endSubscription w id canceledAt endedAt).1.company = w.company := by
  unfold endSubscription
  split
  · rfl
  · split_ifs <;> rfl

theorem endSubscription_genuine (w : World) (id : ℕ) (canceledAt endedAt : Option ℤ) :
    ∀ p ∈ (endSubscription w id canceledAt endedAt).2,
      Genuine (endSubscription w id canceledAt endedAt).1.stripe p := by
  unfold endSubscription
  split
  · exact fun p hp => absurd hp List.not_mem_nil
  · rename_i z _
    split_ifs
    · exact fun p hp => absurd hp List.not_mem_nil
    · intro p hp
      obtain rfl := List.mem_singleton.1 hp
      refine genuine_start fun id' payload created h => ?_
      obtain ⟨rfl, rfl, -⟩ := Handler.deleted.inj h
      refine ⟨ended canceledAt endedAt z, ?_, rfl⟩
      simp

theorem Sound.ends (hs : Sound s) (hothers : ∀ q ∈ others, q ∈ s.running)
    (hcovered : Covered others none s.store) (hsafe : SafeEnd s.store others id)
    (canceledAt endedAt : Option ℤ) :
    Sound { store := (endSubscription s.store id canceledAt endedAt).1
            running := others ++ (endSubscription s.store id canceledAt endedAt).2 } where
  known := fun id' hid => by
    simp only [endSubscription_company] at hid
    obtain ⟨z, hz⟩ := Option.isSome_iff_exists.1 (hs.known id' hid)
    obtain ⟨z', hz', -⟩ := endSubscription_grows s.store id canceledAt endedAt id' z hz
    simp [hz']
  genuine := fun p hp => by
    rcases List.mem_append.1 hp with hp | hp
    · exact (hs.genuine p (hothers p hp)).mono (endSubscription_grows _ _ _ _)
    · exact endSubscription_genuine _ _ _ _ p hp
  covered := covered_end canceledAt endedAt hcovered hsafe

theorem effect_known (x : Turn) (hgenuine : Genuine w.stripe p)
    (hknown : ∀ id, w.company.stripeSubscriptionId = some id → (w.stripe id).isSome = true) :
    ∀ id, (effect w p x).company.stripeSubscriptionId = some id →
      ((effect w p x).stripe id).isSome = true := by
  intro id hid
  rw [effect_stripe]
  by_cases hact : ∃ r, p.point = .activate r
  · obtain ⟨r, hr⟩ := hact
    simp only [effect, hr, World.update, claimCheckoutActivation] at hid
    split_ifs at hid
    · exact hknown id hid
    · obtain rfl : p.handler.id = id := Option.some.inj hid
      exact hgenuine.attaches r hr
  · have hsame : (effect w p x).company.stripeSubscriptionId = w.company.stripeSubscriptionId := by
      by_cases hcancel : p.point = .cancelDuplicate
      · simp [effect, hcancel]
      · refine effect_attached ?_ x
        obtain ⟨handler, point⟩ := p
        cases point <;>
          first | rfl | exact absurd ⟨_, rfl⟩ hact | exact absurd rfl hcancel
    exact hknown id (hsame ▸ hid)

theorem goes_genuine {p q : Process} (hp : Genuine w.stripe p)
    (h : goes w p x = some q) : Genuine w.stripe q := by
  unfold goes at h
  split_ifs at h
  · exact next_genuine hp h
  · cases h
    exact genuine_start hp.ended

theorem covered_goes (hcancel : p.point ≠ .cancelDuplicate) (hgenuine : Genuine w.stripe p)
    (hcovered : Covered others (some p) w) (hsafe : x.reply.lands = true → SafeCall w others p) :
    Covered others (goes w p x) (if x.reply.lands then effect w p x else w) := by
  cases hplain : p.point.isPlain with
  | true =>
    refine covered_plain x hplain hcovered hsafe (fun id payload created hp z hz => ?_)
      hgenuine.deletes
    obtain ⟨z', hz', hcanceled⟩ := hgenuine.ended id payload created hp
    obtain rfl := Option.some.inj (hz'.symm.trans hz)
    exact hcanceled
  | false =>
    obtain ⟨handler, point⟩ := p
    cases point with
    | activate r =>
      obtain ⟨id, rfl⟩ := hgenuine.checkout (.inr ⟨r, rfl⟩)
      exact covered_activate x hcovered hsafe
    | cancelDuplicate => exact absurd rfl hcancel
    | _ => cases hplain

theorem covered_cancelDuplicate (hcancel : p.point = .cancelDuplicate)
    (h : Covered others (some p) w) : Covered others none w := by
  obtain ⟨handler, point⟩ := p
  change point = .cancelDuplicate at hcancel
  subst hcancel
  intro id z hz k
  rcases h id z hz k with hright | hawaited | ⟨q, hq, -, hwrites⟩
  · exact .inl hright
  · exact .inr (.inl hawaited)
  · obtain rfl := Option.some.inj hq
    cases k <;> cases handler <;> exact hwrites.elim

theorem sound_advance (hs : Sound s) {n : ℕ}
    (hsafe : SafeMove s (.step n x)) : Sound (step s (.step n x)).1 := by
  cases hp : s.running[n]? with
  | none => simpa [step, hp] using hs
  | some p =>
    have hgenuine := hs.genuine p (List.mem_of_getElem? hp)
    have hcovered := covered_of_running hp hs.covered
    have hothers : ∀ q ∈ s.running.eraseIdx n, q ∈ s.running := fun q hq =>
      List.mem_of_mem_eraseIdx hq
    simp only [step, hp]
    by_cases hcancel : p.point = .cancelDuplicate
    · have hnobody := covered_cancelDuplicate hcancel hcovered
      simp only [advance, hcancel, if_true, Interleaving.putBack]
      split_ifs with hlands
      · exact hs.ends hothers hnobody ((hsafe p hp hlands).2 hcancel) _ _
      · refine ⟨hs.known, fun q hq => ?_, covered_append hnobody⟩
        rw [List.append_nil] at hq
        exact hs.genuine q (hothers q hq)
    · have hafter := covered_goes hcancel hgenuine hcovered fun hlands => (hsafe p hp hlands).1
      have hstripe : (if x.reply.lands then effect s.store p x else s.store).stripe =
          s.store.stripe := by
        split_ifs
        · exact effect_stripe ..
        · rfl
      have hknown : ∀ id, (if x.reply.lands then effect s.store p x
          else s.store).company.stripeSubscriptionId = some id → ((if x.reply.lands then
            effect s.store p x else s.store).stripe id).isSome = true := by
        split_ifs
        · exact effect_known x hgenuine hs.known
        · exact hs.known
      simp only [advance, hcancel, if_false, List.append_nil]
      refine ⟨hknown, fun q hq => ?_, covered_putBack hp hafter⟩
      · rw [hstripe]
        rcases (Interleaving.mem_putBack_iff hp).1 hq with hq | hgoes
        · exact hs.genuine q (hothers q hq)
        · exact goes_genuine hgenuine hgoes

theorem sound_step (hs : Sound s) {i : Input} (hsafe : SafeMove s i) : Sound (step s i).1 := by
  -- a handler that starts from an event about a subscription that goes on
  have hstart : ∀ {stripe : ℕ → Option Subscription} {id : ℕ},
      Genuine stripe (Handler.sync id).start := genuine_start fun _ _ _ h => nomatch h
  cases i with
  | step n x => exact sound_advance hs hsafe
  | sync id =>
    refine ⟨hs.known, fun p hp => ?_, covered_append hs.covered⟩
    rcases List.mem_append.1 hp with hp | hp
    · exact hs.genuine p hp
    · rw [List.mem_singleton.1 hp]
      exact hstart
  | checkout id =>
    refine ⟨hs.known, fun p hp => ?_, covered_append hs.covered⟩
    rcases List.mem_append.1 hp with hp | hp
    · exact hs.genuine p hp
    · rw [List.mem_singleton.1 hp]
      exact genuine_start fun _ _ _ h => nomatch h
  | create id z =>
    simp only [step]
    split_ifs with h
    · simp only [Bool.and_eq_true, Option.isNone_iff_eq_none, bne_iff_ne] at h
      have hgrows : Grows s.store.stripe (Function.update s.store.stripe id (some z)) :=
        grows_update fun z' hz' => nomatch h.1.symm.trans hz'
      refine ⟨fun id' hid' => ?_, fun p hp => ?_, ?_⟩
      · obtain ⟨z', hz'⟩ := Option.isSome_iff_exists.1 (hs.known id' hid')
        obtain ⟨z'', hz'', -⟩ := hgrows id' z' hz'
        simp [hz'']
      · rcases List.mem_append.1 hp with hp | hp
        · exact (hs.genuine p hp).mono hgrows
        · rw [List.mem_singleton.1 hp]
          exact hstart
      · refine covered_change hs.covered h.2 (fun z' hz' => ?_) (hs.known id)
        exact nomatch h.1.symm.trans (current_iff.1 hz').2
    · exact hs
  | change id z =>
    simp only [step]
    split_ifs with h
    · simp only [Bool.and_eq_true, Option.any_eq_true, bne_iff_ne] at h
      obtain ⟨⟨zold, hzold, hlive⟩, hz⟩ := h
      have hgrows : Grows s.store.stripe (Function.update s.store.stripe id (some z)) := by
        refine grows_update fun z' hz' hcanceled => ?_
        obtain rfl := Option.some.inj (hzold.symm.trans hz')
        exact absurd hcanceled hlive
      refine ⟨fun id' hid' => ?_, fun p hp => ?_, ?_⟩
      · obtain ⟨z', hz'⟩ := Option.isSome_iff_exists.1 (hs.known id' hid')
        obtain ⟨z'', hz'', -⟩ := hgrows id' z' hz'
        simp [hz'']
      · rcases List.mem_append.1 hp with hp | hp
        · exact (hs.genuine p hp).mono hgrows
        · rw [List.mem_singleton.1 hp]
          exact hstart
      · refine covered_change hs.covered hz (fun z' hz' => ?_) (hs.known id)
        obtain rfl := Option.some.inj (hzold.symm.trans (current_iff.1 hz').2)
        exact hlive
    · exact hs
  | cancel id canceledAt endedAt =>
    exact hs.ends (fun q hq => hq) hs.covered hsafe canceledAt endedAt
  | addNumber =>
    refine ⟨hs.known, hs.genuine, fun id z hz k => ?_⟩
    rcases hs.covered id z hz k with hright | hawaited | ⟨q, hq, -⟩
    · left
      cases k with
      | numbers =>
        intro hlive hmem
        rcases List.mem_append.1 hmem with hmem | hmem
        · exact hright hlive hmem
        · cases List.mem_singleton.1 hmem
      | status | plan | pause | canceledAt => exact hright
    · exact .inr (.inl hawaited)
    · cases hq
  | wait d =>
    refine ⟨hs.known, hs.genuine, fun id z hz k => ?_⟩
    rcases hs.covered id z hz k with hright | hawaited | ⟨q, hq, -⟩
    · left
      cases k <;> exact hright
    · exact .inr (.inl hawaited)
    · cases hq

theorem sound_signedUp (now : ℤ) : Sound (signedUp now) := by
  refine ⟨fun id hid => (nomatch hid), fun p hp => (nomatch hp), fun id z hz => ?_⟩
  cases (current_iff.1 hz).1

/-- Where no handler is under way, the row says what its subscription says. -/
theorem Sound.mirrored (hs : Sound s) (hquiet : s.running = []) : Mirrored s.store := by
  intro id z hz k
  rcases hs.covered id z hz k with hright | ⟨q, hq, -⟩ | ⟨q, hq, -⟩
  · exact hright
  · rw [hquiet] at hq
    cases hq
  · cases hq

/-- **Runs of safe moves converge**: whenever Stripe has stopped changing and every handler is
through, the row says what its subscription says. -/
theorem converges (now : ℤ) {is : List Input}
    (hsafe : Reactive.Along step SafeMove (signedUp now) is)
    (hquiet : (Reactive.final step (signedUp now) is).running = []) :
    Mirrored (Reactive.final step (signedUp now) is).store :=
  (Reactive.final_of_inv_along (P := Sound) step (fun _ _ hs hi => sound_step hs hi)
    (sound_signedUp now) hsafe).mirrored hquiet

/-- A call that goes through; a claim of the allowance brings every number back. -/
def Turn.ok : Turn where
  reply := .ok
  restored := fun _ => true

/-- A subscription to the small plan. -/
def starter (status : StripeStatus) : Subscription where
  status := status
  items := [.licensed .starter]
  cancelAtPeriodEnd := false
  canceledAt := none
  endedAt := none

/-- The first subscription is created and paid, and the checkout is handled. -/
def subscribed : List Input :=
  [.create 1 (starter .active), .checkout 1, .step 1 .ok, .step 1 .ok, .step 1 .ok, .step 1 .ok,
    .step 1 .ok]

/-- A new subscription, with its event handled before it is attached. -/
theorem converges_subscribed :
    Mirrored (Reactive.final step (signedUp 0)
      [.create 1 (starter .active), .checkout 1, .step 0 .ok, .step 0 .ok, .step 0 .ok, .step 0 .ok,
        .step 0 .ok, .step 0 .ok, .step 0 .ok]).store := by
  refine converges 0 ?_ (by decide +kernel)
  refine ⟨trivial, trivial, ?_, ?_, ?_, ?_, ?_, ?_, ?_, trivial⟩
  all_goals
    intro p hp _
    cases hp
    refine ⟨?_, fun hcancel => nomatch hcancel⟩
  · trivial
  · intro z hz
    cases hz
  · trivial
  · intro _ z hz
    cases hz
    refine ⟨.inl fun status hstatus => ?_, .inr (.inl fun plan hplan => hplan), .inr (.inl ?_),
      .inl ?_, .inr (.inl List.not_mem_nil)⟩
    · cases hstatus
      exact ⟨rfl, rfl⟩
    · decide
    · decide
  · trivial
  · trivial
  · trivial

/-- The handler of the first event has fetched the subscription when a payment fails; the handler of
that overtakes it. -/
def overtaken : List Input :=
  subscribed ++ [.step 0 .ok, .change 1 (starter .pastDue), .step 1 .ok, .step 1 .ok, .step 1 .ok,
    .step 0 .ok, .step 0 .ok]

/-- The first subscription ends; its handler has written the status when a second one is paid and
attached, and goes on to the clock and the numbers afterwards. -/
def returned : List Input :=
  subscribed ++ [.addNumber, .step 0 .ok, .step 0 .ok, .step 0 .ok, .cancel 1 (some 5) (some 5),
    .step 0 .ok, .create 2 (starter .active), .step 1 .ok, .step 1 .ok, .checkout 2, .step 1 .ok,
    .step 1 .ok, .step 1 .ok, .step 1 .ok, .step 1 .ok, .step 0 .ok, .step 0 .ok, .step 0 .ok]

/-- **A handler with an outdated reading writes last; and an old cancellation starts the clock of a
paid subscription and suspends its numbers.** -/
theorem diverges :
    (¬∀ now is, (Reactive.final step (signedUp now) is).running = [] →
      ∀ id z, (Reactive.final step (signedUp now) is).store.current = some (id, z) →
        Right (Reactive.final step (signedUp now) is).store z .status) ∧
    (¬∀ now is, (Reactive.final step (signedUp now) is).running = [] →
      ∀ id z, (Reactive.final step (signedUp now) is).store.current = some (id, z) →
        Right (Reactive.final step (signedUp now) is).store z .canceledAt) ∧
    ¬∀ now is, (Reactive.final step (signedUp now) is).running = [] →
      ∀ id z, (Reactive.final step (signedUp now) is).store.current = some (id, z) →
        Right (Reactive.final step (signedUp now) is).store z .numbers := by
  refine ⟨fun h => ?_, fun h => ?_, fun h => ?_⟩
  · have hstatus := (h 0 overtaken (by decide +kernel) 1 (starter .pastDue) (by decide +kernel)
      .pastDue rfl).1
    revert hstatus
    decide +kernel
  · have hclock := (h 0 returned (by decide +kernel) 2 (starter .active) (by decide +kernel)).1
      (by decide +kernel)
    exact nomatch hclock
  · refine h 0 returned (by decide +kernel) 2 (starter .active) (by decide +kernel) ?_ ?_
    · decide
    · decide +kernel

end SubscriptionMirror
