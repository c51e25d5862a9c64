/-
**Revocation.**

A refund, a lost chargeback and a conversion first mark the row revoked and then take the coupon
off, in another call.  A retry finds the row revoked already and is through, and a chargeback
swallows its failures.  This module shows what has to go well for the coupon to be off once the
handlers of `Texturion/PrepaidYear.lean` are through.

Main result:

* `PrepaidYear.revocation_durable` — **in an unbroken run, once the row is revoked and no handler is
  under way, the licensed item does not carry the coupon.**
-/

import Texturion.PrepaidYear

namespace PrepaidYear

open Prepay Idempotency Interleaving
open Notices (PlanId)

def Store.Revoked (s : Store) : Prop := ∃ row ∈ s.row, row.revokedAt.isSome = true

def Uncouponed (item : Item) : Prop :=
  item.isLicensed = true → itemHasPrepaidCoupon item = false

instance decidableRevoked (s : Store) : Decidable s.Revoked :=
  inferInstanceAs (Decidable (∃ row ∈ s.row, row.revokedAt.isSome = true))

instance decidableUncouponed (item : Item) : Decidable (Uncouponed item) :=
  inferInstanceAs (Decidable (item.isLicensed = true → itemHasPrepaidCoupon item = false))

/-- A handler that has revoked the row and has not taken the coupon off yet. -/
def Point.clears : Point → Bool
  | .uncouponing .. | .clearing .. => true
  | _ => false

/-- The answer to the write that revokes the row arrives, the calls that follow it up to the removal
of the coupon succeed, and no coupon is put on anew once the row is revoked. -/
def Kept (session : Session) (s : Store) (x : Await) : Point → Prop
  | .revoking .. =>
    x.outcome.lands = true → (∃ row ∈ s.row, row.revokedAt = none) → x.outcome.heard = true
  | .converting .. =>
    x.outcome.lands = true → (∃ row ∈ s.row, row.isOpen s.clock = true) → x.outcome.heard = true
  | .uncouponing .. | .clearing .. => x.outcome.heard = true
  | .writing w =>
    x.outcome.lands = true → s.verdict (.grant session.id) w = .fresh → ¬s.Revoked
  | .asserting _ w =>
    x.outcome.lands = true →
      s.verdict (.reassert session.id w.coupon.months) w = .fresh → ¬s.Revoked
  | _ => True

instance decidableKept (session : Session) (s : Store) (x : Await) :
    ∀ p, Decidable (Kept session s x p)
  | .revoking .. =>
    inferInstanceAs (Decidable (_ → (∃ row ∈ s.row, row.revokedAt = none) → _ = true))
  | .converting .. =>
    inferInstanceAs (Decidable (_ → (∃ row ∈ s.row, row.isOpen s.clock = true) → _ = true))
  | .uncouponing .. | .clearing .. => inferInstanceAs (Decidable (x.outcome.heard = true))
  | .writing w =>
    inferInstanceAs (Decidable (_ → s.verdict (.grant session.id) w = .fresh →
      ¬s.Revoked))
  | .asserting _ w =>
    inferInstanceAs (Decidable (_ → s.verdict (.reassert session.id w.coupon.months) w = .fresh →
      ¬s.Revoked))
  | .claiming | .retrieving | .stamping | .reading | .opening .. | .recording .. | .finding ..
  | .crediting .. => inferInstanceAs (Decidable True)

/-- **No step is lost between the row and the coupon.** -/
def Unbroken (session : Session) (s : State Store Point) : Input Request Await Event → Prop
  | .step n x => ∀ p ∈ s.running[n]?, Kept session s.store x p
  | .crash n => ∀ p ∈ s.running[n]?, p.clears = false
  | _ => True

instance decidableUnbroken (session : Session) (s : State Store Point) :
    ∀ i, Decidable (Unbroken session s i)
  | .step n x => inferInstanceAs (Decidable (∀ p ∈ s.running[n]?, Kept session s.store x p))
  | .crash n => inferInstanceAs (Decidable (∀ p ∈ s.running[n]?, p.clears = false))
  | .start _ | .world _ => inferInstanceAs (Decidable True)

/-- A coupon that is on although the row is revoked is about to be taken off. -/
def Durable (s : State Store Point) : Prop :=
  s.store.Revoked → Uncouponed s.store.item ∨ ∃ p ∈ s.running, p.clears = true

variable {env : Env} {session : Session} {s : Store} {p : Point} {x : Await}

/-- **Which steps revoke the row.** -/
theorem revoked_call (h : (call env session s p x).Revoked) :
    s.Revoked ∨ x.outcome.lands = true ∧
      ((∃ r reason, p = .revoking r reason ∧ ∃ row ∈ s.row, row.revokedAt = none) ∨
        ∃ customer toPlan, p = .converting customer toPlan ∧
          ∃ row ∈ s.row, row.isOpen s.clock = true) := by
  obtain ⟨row, hrow, hrevoked⟩ := h
  unfold call at hrow
  split at hrow
  · rename_i hlands
    cases p with
    | claiming =>
      simp only [deed, claimPrepayment] at hrow
      cases hold : s.row with
      | none =>
        rw [hold] at hrow
        obtain rfl := Option.some.inj hrow
        simp [Session.row, Prepayment.fresh] at hrevoked
      | some old =>
        rw [hold] at hrow
        obtain rfl := Option.some.inj hrow
        exact .inl ⟨_, hold, hrevoked⟩
    | stamping =>
      simp only [deed, Option.mem_map] at hrow
      obtain ⟨old, hold, rfl⟩ := hrow
      rw [stampPrepayment_revokedAt] at hrevoked
      exact .inl ⟨old, hold, hrevoked⟩
    | revoking r reason =>
      simp only [deed, Option.mem_map] at hrow
      obtain ⟨old, hold, rfl⟩ := hrow
      cases hopen : old.revokedAt with
      | none => exact .inr ⟨hlands, .inl ⟨r, reason, rfl, old, hold, hopen⟩⟩
      | some t => exact .inl ⟨old, hold, by simp [hopen]⟩
    | converting customer toPlan =>
      simp only [deed, Option.mem_map] at hrow
      obtain ⟨old, hold, rfl⟩ := hrow
      split at hrevoked
      · rename_i hopen
        exact .inr ⟨hlands, .inr ⟨customer, toPlan, rfl, old, hold, hopen⟩⟩
      · exact .inl ⟨old, hold, hrevoked⟩
    | writing | asserting =>
      rw [deed, updateItem_row] at hrow
      exact .inl ⟨row, hrow, hrevoked⟩
    | retrieving | reading | opening | recording | finding | uncouponing | clearing | crediting =>
      exact .inl ⟨row, hrow, hrevoked⟩
  · exact .inl ⟨row, hrow, hrevoked⟩

theorem uncouponed_of_discounts_nil (price : ItemPrice) : Uncouponed { price, discounts := [] } :=
  fun _ => rfl

/-- Where the row is revoked, a call that is not lost puts no coupon on. -/
theorem uncouponed_call (hrevoked : s.Revoked) (hkept : Kept session s x p)
    (h : Uncouponed s.item) : Uncouponed (call env session s p x).item := by
  rcases @item_call env session s p x with
    heq | heq | ⟨key, w, hlands, hfresh, -, hwrites⟩
  · rwa [heq]
  · rw [heq]
    exact uncouponed_of_discounts_nil _
  · rcases hwrites with ⟨rfl, rfl⟩ | ⟨period, rfl, rfl⟩
    · exact absurd hrevoked (hkept hlands hfresh)
    · exact absurd hrevoked (hkept hlands hfresh)

theorem clears_next (hclears : p.clears = true) (hkept : Kept session s x p) :
    Uncouponed (call env session s p x).item ∨
      ∃ q, (next env session s x p).1 = some q ∧ q.clears = true := by
  cases p with
  | uncouponing r owed =>
    have hheard : x.outcome.heard = true := hkept
    by_cases hlicensed : s.item.isLicensed = true
    · right
      refine ⟨.clearing r owed, ?_, rfl⟩
      simp only [next, hheard, hlicensed, if_true]
    · -- a paused item is not a licensed one
      left
      intro h
      have hsame : (call env session s (.uncouponing r owed) x).item = s.item := by
        simp [call, deed]
      exact absurd (hsame ▸ h) hlicensed
  | clearing r owed =>
    left
    rw [call, if_pos (Outcome.lands_of_heard hkept)]
    exact uncouponed_of_discounts_nil _
  | claiming | retrieving | writing | stamping | reading | opening | asserting | recording | finding
  | revoking | converting | crediting => simp [Point.clears] at hclears

theorem next_of_revokes (hkept : Kept session s x p) (hlands : x.outcome.lands = true)
    (h : (∃ r reason, p = .revoking r reason ∧ ∃ row ∈ s.row, row.revokedAt = none) ∨
      ∃ customer toPlan, p = .converting customer toPlan ∧
        ∃ row ∈ s.row, row.isOpen s.clock = true) :
    ∃ q, (next env session s x p).1 = some q ∧ q.clears = true := by
  rcases h with ⟨r, reason, rfl, row, hrow, hopen⟩ | ⟨customer, toPlan, rfl, row, hrow, hopen⟩
  · have hheard : x.outcome.heard = true := hkept hlands ⟨row, hrow, hopen⟩
    refine ⟨.uncouponing r 0, ?_, rfl⟩
    simp [next, hheard, Option.mem_def.1 hrow, hopen]
  · have hheard : x.outcome.heard = true := hkept hlands ⟨row, hrow, hopen⟩
    refine ⟨.uncouponing (.convertPrepaidYear customer toPlan) (creditCents s.clock row), ?_, rfl⟩
    simp [next, hheard, Option.mem_def.1 hrow, hopen]

theorem uncouponed_happen (e : Event) (h : Uncouponed s.item) :
    Uncouponed (happen env s e).item := by
  cases e with
  | tick ms => exact h
  | drop => exact uncouponed_of_discounts_nil _
  | invoice =>
    intro hlicensed
    have hnone := h hlicensed
    simp only [itemHasPrepaidCoupon, List.any_eq_false] at hnone ⊢
    exact fun d hd => hnone d (List.mem_of_mem_filter hd)

/-- **One move.** -/
theorem durable_step {s : State Store Point} {i : Input Request Await Event} (hs : Durable s)
    (hi : Unbroken session s i) : Durable (step (prepaidYear env session) s i).1 := by
  intro hrevoked
  cases i with
  | start r =>
    refine (hs hrevoked).imp_right ?_
    rintro ⟨p, hp, hclears⟩
    exact ⟨p, List.mem_append_left _ hp, hclears⟩
  | crash n =>
    refine (hs hrevoked).imp_right ?_
    rintro ⟨p, hp, hclears⟩
    refine ⟨p, mem_running_crash _ hp fun hn => ?_, hclears⟩
    exact absurd (hi p hn) (by simp [hclears])
  | world e =>
    have hbefore : s.store.Revoked := by cases e <;> exact hrevoked
    exact (hs hbefore).imp_left (uncouponed_happen e)
  | step n x =>
    cases hp : s.running[n]? with
    | none =>
      simp only [step, hp] at hrevoked ⊢
      exact hs hrevoked
    | some p =>
      have hkept : Kept session s.store x p := hi p hp
      have hstore : (step (prepaidYear env session) s (.step n x)).1.store =
          call env session s.store p x := by
        simp only [step, hp, prepaidYear]
      rw [hstore] at hrevoked ⊢
      have hmoved : (∃ q, (next env session s.store x p).1 = some q ∧ q.clears = true) →
          ∃ q ∈ (step (prepaidYear env session) s (.step n x)).1.running, q.clears = true := by
        rintro ⟨q, hq, hclears⟩
        exact ⟨q, mem_running_of_next hp hq, hclears⟩
      rcases revoked_call hrevoked with hbefore | ⟨hlands, hrevokes⟩
      · rcases hs hbefore with hoff | ⟨q, hq, hclears⟩
        · exact .inl (uncouponed_call hbefore hkept hoff)
        · rcases running_step (prepaidYear env session) hq n x with hn | hstays
          · -- the one that moves is about to clear
            obtain rfl : p = q := Option.some.inj (hp.symm.trans hn)
            exact (clears_next hclears hkept).imp_right hmoved
          · exact .inr ⟨q, hstays, hclears⟩
      · exact .inr (hmoved (next_of_revokes hkept hlands hrevokes))

/-- **In an unbroken run, a revoked year is off the licensed item once every handler is through.** -/
theorem revocation_durable (env : Env) (session : Session) (item : Item) (clock : ℤ) (period : ℕ)
    {is : List (Input Request Await Event)}
    (hunbroken : Reactive.Along (step (prepaidYear env session)) (Unbroken session)
      ⟨.opened item clock period, []⟩ is) (hover : (Reactive.final (step (prepaidYear env session))
      ⟨.opened item clock period, []⟩ is).running = [])
    (hrevoked : (Reactive.final (step (prepaidYear env session))
      ⟨.opened item clock period, []⟩ is).store.Revoked) :
    Uncouponed (Reactive.final (step (prepaidYear env session))
      ⟨.opened item clock period, []⟩ is).store.item := by
  have hstart : Durable (⟨.opened item clock period, []⟩ : State Store Point) := by
    rintro ⟨row, hrow, -⟩
    simp [Store.opened] at hrow
  have hdurable := Reactive.final_of_inv_along (step (prepaidYear env session))
    (fun _ _ hs hi => durable_step hs hi) hstart hunbroken
  rcases hdurable hrevoked with hoff | ⟨p, hp, -⟩
  · exact hoff
  · rw [hover] at hp
    exact absurd hp List.not_mem_nil

def refundedRun : List (Input Request Await Event) :=
  [.start .grantPrepaidYear, .step 0 answered, .step 0 answered, .step 0 answered, .step 0 answered,
    .start (.revokePrepaidYear "refund"), .step 0 answered, .step 0 answered, .step 0 answered]

theorem revocation_durable_refunded :
    Uncouponed (Reactive.final (step (prepaidYear monthly starterSession))
      ⟨.opened starterItem 0 0, []⟩ refundedRun).store.item :=
  revocation_durable monthly starterSession starterItem 0 0 (by decide +kernel)
    (by decide +kernel) (by decide +kernel)

/-- The refund marks the row, fails to read the subscription, and is delivered again: it finds
nothing to do. -/
def retriedRefund : List (Input Request Await Event) :=
  [.start .grantPrepaidYear, .step 0 answered, .step 0 answered, .step 0 answered, .step 0 answered,
    .start (.revokePrepaidYear "refund"), .step 0 answered, .step 0 lost, .step 0 answered]

/-- The refund is through while a grant is about to write the coupon. -/
def overtakenGrant : List (Input Request Await Event) :=
  [.start .grantPrepaidYear, .step 0 answered, .step 0 answered,
    .start (.revokePrepaidYear "refund"), .step 1 answered, .step 1 answered, .step 1 answered,
    .step 0 answered, .step 0 answered]

theorem revoked_with_coupon :
    [retriedRefund, overtakenGrant].Forall fun is =>
      (Reactive.final (step (prepaidYear monthly starterSession))
          ⟨.opened starterItem 0 0, []⟩ is).running = [] ∧
        (Reactive.final (step (prepaidYear monthly starterSession))
          ⟨.opened starterItem 0 0, []⟩ is).store.Revoked ∧
        ¬Uncouponed (Reactive.final (step (prepaidYear monthly starterSession))
          ⟨.opened starterItem 0 0, []⟩ is).store.item := by
  decide +kernel

end PrepaidYear
