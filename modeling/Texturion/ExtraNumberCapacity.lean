/-
**Capacity that is paid for.**

The column of `Texturion/ExtraNumbers.lean` is raised under an epoch that every claim bumps, so that
a process which has read the epoch before a claim cannot raise it after.  A process that reads the
epoch between a claim and the write that follows it can, and a buy may write less than is billed.
This module shows that nothing else goes wrong: where these do not happen, the column never exceeds
the bill.

Main result:

* `ExtraNumbers.capacity_billed` — **in an undisturbed run the column never exceeds what is billed,
  and no slot is admitted beyond what is included and billed.**
-/

import Texturion.ExtraNumbers

namespace ExtraNumbers

open Idempotency Interleaving
open Notices (PlanId)

/-- The epoch under which a process may raise the column. -/
def Point.held : Point → Option ℕ
  | .findingReplay _ epoch | .countingToBuy _ epoch | .retrievingToBuy _ epoch _
  | .buying _ epoch _ _ | .verifying _ epoch _ | .syncing _ epoch _ | .retrieving epoch _
  | .counting epoch _ _ | .mirroring epoch _ | .migrating _ _ _ epoch => some epoch
  | _ => none

/-- The write that follows a claim: the epoch of the claim, and the quantity. -/
def Point.pending : Point → Option (ℕ × ℕ)
  | .lowering _ _ desired epoch => some (epoch, desired)
  | .migrating _ _ quantity epoch => some (epoch, quantity)
  | _ => none

/-- The items a convergence has read, with its epoch. -/
def Point.snapshot : Point → Option (ℕ × List ExtraItem)
  | .counting epoch _ items => some (epoch, items)
  | _ => none

/-- What a process relies on: its epoch is no newer than the column's, and while it is the column's
what it has read is billed; and the column is within the write that is to follow its claim. -/
structure Relies (s : Store) (p : Point) : Prop where
  held : ∀ epoch ∈ p.held, epoch ≤ s.epoch
  pending : ∀ epoch quantity, p.pending = some (epoch, quantity) →
    epoch ≤ s.epoch ∧ s.paid ≤ quantity
  mirrors : ∀ billed, p.mirrors = some (billed, s.epoch) → billed ≤ s.billed
  snapshot : ∀ items, p.snapshot = some (s.epoch, items) →
    ∀ item ∈ items, item.quantity ≤ s.billed

/-- A process holds an epoch from before the claim whose write the other is about to make. -/
def Fenced (p q : Point) : Prop :=
  ∀ claimed quantity, p.pending = some (claimed, quantity) → ∀ epoch ∈ q.held, epoch < claimed

def Apart (p q : Point) : Prop := Fenced p q ∧ Fenced q p

/-- A step keeps the order: an epoch under which the column may be raised is not read between a
claim and its write; a migration claims while the column is within what it has read, and is not
replayed where less is billed; and a buy does not write less than is billed. -/
def Orderly (plan : PlanId) (s : State Store Point) (x : Await) : Point → Prop
  | .loadingCompany _ | .readingEpoch =>
    x.outcome.heard = true → ∀ q ∈ s.running, q.pending = none
  | .claimingMigrate _ stale =>
    x.outcome.heard = true → (∀ q ∈ s.running, q.pending = none) ∧
      min s.store.paid (claimDesired s.store (planNumbers plan)) ≤ stale.quantity
  | .buying key _ _ w =>
    x.outcome.lands = true → s.store.verdict (.buy key) w = .fresh → w.Raises s.store.items
  | .migrating day itemId quantity _ =>
    s.store.verdict (.converge itemId quantity day) (migrateWrite plan itemId quantity) =
      .replayed () → quantity ≤ s.store.billed
  | _ => True

/-- **Every step keeps the order.** -/
def Undisturbed (plan : PlanId) (s : State Store Point) : Input Request Await ℕ → Prop
  | .step n x => ∀ p ∈ s.running[n]?, Orderly plan s x p
  | _ => True

variable {plan : PlanId}

/-! ### The epochs -/

variable {p p' : Point} {s : State Store Point} {x : Await}

theorem held_of_mirrors {billed epoch : ℕ} (h : p.mirrors = some (billed, epoch)) :
    p.held = some epoch := by
  cases p with
  | syncing | mirroring =>
    simp only [Point.mirrors, Option.some.injEq, Prod.mk.injEq] at h
    simp only [Point.held, h.2]
  | loadingCompany | findingReplay | countingToBuy | retrievingToBuy | buying | verifying
  | provisioning | porting | enabling | releasing | readingEpoch | retrieving | counting
  | claimingLower | lowering | claimingMigrate | migrating => simp [Point.mirrors] at h

theorem held_of_snapshot {epoch : ℕ} {items : List ExtraItem}
    (h : p.snapshot = some (epoch, items)) : p.held = some epoch := by
  cases p with
  | counting =>
    simp only [Point.snapshot, Option.some.injEq, Prod.mk.injEq] at h
    simp only [Point.held, h.1]
  | loadingCompany | findingReplay | countingToBuy | retrievingToBuy | buying | verifying | syncing
  | provisioning | porting | enabling | releasing | readingEpoch | retrieving | mirroring
  | claimingLower | lowering | claimingMigrate | migrating => simp [Point.snapshot] at h

theorem write_cases {key : Key} {w : ItemWrite} (h : p.write plan = some (key, w)) :
    (∃ k epoch quantity, p = .buying k epoch quantity w ∧ key = .buy k) ∨
      ∃ epoch quantity, p.pending = some (epoch, quantity) ∧
        ∀ items newId items', applyWrite items newId w = some items' →
          quantity ≤ billedOf items' := by
  cases p with
  | buying k epoch quantity w' =>
    simp only [Point.write, Option.some.injEq, Prod.mk.injEq] at h
    obtain ⟨rfl, rfl⟩ := h
    exact .inl ⟨k, epoch, quantity, rfl, rfl⟩
  | lowering day itemId desired epoch =>
    simp only [Point.write, Option.some.injEq, Prod.mk.injEq] at h
    obtain ⟨-, rfl⟩ := h
    exact .inr ⟨epoch, desired, rfl, fun _ _ _ happly => le_billed_lowerWrite happly⟩
  | migrating day itemId quantity epoch =>
    simp only [Point.write, Option.some.injEq, Prod.mk.injEq] at h
    obtain ⟨-, rfl⟩ := h
    exact .inr ⟨epoch, quantity, rfl, fun _ _ _ happly => le_billed_migrateWrite happly⟩
  | loadingCompany | findingReplay | countingToBuy | retrievingToBuy | verifying | syncing
  | provisioning | porting | enabling | releasing | readingEpoch | retrieving | counting | mirroring
  | claimingLower | claimingMigrate => simp [Point.write] at h

theorem epoch_le_call (s : Store) (p : Point) (x : Await) : s.epoch ≤ (call plan s p x).epoch := by
  rcases ledger_call plan s p x with h | ⟨_, _, _, _, h⟩ | ⟨_, h⟩ | ⟨_, _, _, _, _, _, _, _, _, h⟩
  · exact h.epoch.ge
  · exact h.ge
  · rw [h]
    exact Nat.le_succ _
  · exact h.ge

/-! ### One step -/

/-- **The column stays within the bill.** -/
theorem paid_le_billed_call (hs : s.store.paid ≤ s.store.billed) (hp : Relies s.store p)
    (horderly : Orderly plan s x p) :
    (call plan s.store p x).paid ≤ (call plan s.store p x).billed := by
  rcases ledger_call plan s.store p x with
    h | ⟨billed, hmirrors, hpaid, hbilled, -⟩ | ⟨-, h⟩ |
    ⟨key, w, items, hwrite, hlands, hfresh, happly, hitems, hpaid, -⟩
  · rw [h.billed]
    exact h.paid.trans hs
  · rw [hpaid, hbilled]
    exact hp.mirrors billed hmirrors
  · rw [h]
    exact (min_le_left _ _).trans hs
  · rw [hpaid, Store.billed, hitems]
    rcases write_cases hwrite with ⟨k, epoch, quantity, rfl, rfl⟩ | ⟨epoch, quantity, hpending, hle⟩
    · exact hs.trans (billed_le_applyWrite (horderly hlands hfresh) happly)
    · exact ((hp.pending epoch quantity hpending).2).trans (hle _ _ _ happly)

/-- **What the others rely on survives a step.** -/
theorem relies_other {p q : Point} (hp : Relies s.store p) (horderly : Orderly plan s x p)
    (hq : Relies s.store q) (hapart : Apart p q) : Relies (call plan s.store p x) q := by
  have hheld : ∀ epoch ∈ q.held, epoch ≤ (call plan s.store p x).epoch := fun epoch h =>
    (hq.held epoch h).trans (epoch_le_call s.store p x)
  rcases ledger_call plan s.store p x with
    h | ⟨billed, hmirrors, hpaid, hbilled, hepoch⟩ | ⟨-, h⟩ |
    ⟨key, w, items, hwrite, hlands, hfresh, happly, hitems, hpaid, hepoch⟩
  · refine ⟨hheld, fun epoch quantity hpending => ?_, ?_, ?_⟩
    · obtain ⟨hle, hwithin⟩ := hq.pending epoch quantity hpending
      exact ⟨h.epoch ▸ hle, h.paid.trans hwithin⟩
    · rw [h.epoch, h.billed]
      exact hq.mirrors
    · rw [h.epoch, h.billed]
      exact hq.snapshot
  · -- a raise is refused where a claim has come after its epoch
    refine ⟨hheld, fun epoch quantity hpending => ?_, ?_, ?_⟩
    · have hfenced := hapart.2 epoch quantity hpending s.store.epoch (held_of_mirrors hmirrors)
      have hle := (hq.pending epoch quantity hpending).1
      omega
    · rw [hepoch, hbilled]
      exact hq.mirrors
    · rw [hepoch, hbilled]
      exact hq.snapshot
  · -- a claim leaves every other epoch behind
    rw [h] at hheld ⊢
    refine ⟨hheld, fun epoch quantity hpending => ?_, fun billed hmirrors => ?_,
      fun items hsnapshot => ?_⟩
    · obtain ⟨hle, hwithin⟩ := hq.pending epoch quantity hpending
      exact ⟨hle.trans (Nat.le_succ _), (min_le_left _ _).trans hwithin⟩
    · have hle := hq.held _ (held_of_mirrors hmirrors)
      exact absurd hle (Nat.not_succ_le_self _)
    · have hle := hq.held _ (held_of_snapshot hsnapshot)
      exact absurd hle (Nat.not_succ_le_self _)
  · have hbill : s.store.epoch ∈ q.held → s.store.billed ≤ (call plan s.store p x).billed := by
      intro hepochs
      rw [Store.billed, Store.billed, hitems]
      rcases write_cases hwrite with ⟨k, epoch, quantity, rfl, rfl⟩ | ⟨epoch, quantity, hpending, -⟩
      · exact billed_le_applyWrite (horderly hlands hfresh) happly
      · -- the epoch of the other is from before the claim
        have hfenced := hapart.1 epoch quantity hpending s.store.epoch hepochs
        have hle := (hp.pending epoch quantity hpending).1
        omega
    refine ⟨hheld, fun epoch quantity hpending => ?_, fun billed hmirrors => ?_,
      fun items hsnapshot item hitem => ?_⟩
    · rw [hepoch, hpaid]
      exact hq.pending epoch quantity hpending
    · rw [hepoch] at hmirrors
      exact (hq.mirrors billed hmirrors).trans (hbill (held_of_mirrors hmirrors))
    · rw [hepoch] at hsnapshot
      exact (hq.snapshot items hsnapshot item hitem).trans (hbill (held_of_snapshot hsnapshot))

/-! ### The next step -/

theorem relies_of_held {s : Store} (hheld : ∀ epoch ∈ p.held, epoch ≤ s.epoch)
    (hpending : p.pending = none) (hmirrors : p.mirrors = none) (hsnapshot : p.snapshot = none) :
    Relies s p where
  held := hheld
  pending := fun epoch quantity h => absurd (hpending.symm.trans h) (by simp)
  mirrors := fun billed h => absurd (hmirrors.symm.trans h) (by simp)
  snapshot := fun items h => absurd (hsnapshot.symm.trans h) (by simp)

theorem relies_of_mirrors {s : Store} {billed epoch : ℕ}
    (hmirrors : p.mirrors = some (billed, epoch)) (hpending : p.pending = none)
    (hsnapshot : p.snapshot = none) (hepoch : epoch ≤ s.epoch)
    (hbilled : epoch = s.epoch → billed ≤ s.billed) : Relies s p where
  held := fun e he => by
    rw [held_of_mirrors hmirrors] at he
    exact Option.some.inj he ▸ hepoch
  pending := fun epoch quantity h => absurd (hpending.symm.trans h) (by simp)
  mirrors := fun b h => by
    have heq := Option.some.inj (hmirrors.symm.trans h)
    simp only [Prod.mk.injEq] at heq
    exact heq.1 ▸ hbilled heq.2
  snapshot := fun items h => absurd (hsnapshot.symm.trans h) (by simp)

theorem relies_of_none {s : Store} (hheld : p.held = none) (hpending : p.pending = none)
    : Relies s p := by
  refine relies_of_held (fun epoch h => absurd (hheld.symm.trans h) (by simp)) hpending ?_ ?_
  · cases hmirrors : p.mirrors with
    | none => rfl
    | some b => exact absurd (hheld.symm.trans (held_of_mirrors hmirrors)) (by simp)
  · cases hsnapshot : p.snapshot with
    | none => rfl
    | some b => exact absurd (hheld.symm.trans (held_of_snapshot hsnapshot)) (by simp)

theorem relies_enter (s : Store) (r : Request) : Relies s (enter r) := by
  cases r <;> exact relies_of_none rfl rfl

/-- A write that is accepted has been carried out, and is replayed otherwise. -/
theorem accepts_cases {s : Store} {key : Key} {w : ItemWrite} (h : accepts s key w = true) :
    s.verdict key w = .replayed () ∨
      ∃ items, applyWrite s.items s.nextItemId w = some items ∧ (updateItems s key w).items = items := by
  cases hverdict : s.verdict key w with
  | fresh =>
    simp only [accepts, hverdict] at h
    obtain ⟨items, hitems⟩ := Option.isSome_iff_exists.1 h
    exact .inr ⟨items, hitems, by simp only [updateItems, hverdict, hitems]⟩
  | replayed b => exact .inl rfl
  | refused => simp [accepts, hverdict] at h

/-- **A process has what it relies on at its next step.** -/
theorem relies_next (hp : Relies s.store p) (horderly : Orderly plan s x p)
    (hnext : next plan s.store x p = some p') : Relies (call plan s.store p x) p' := by
  unfold next at hnext
  split at hnext
  on_goal 2 => simp at hnext
  rename_i hheard
  have hcall : call plan s.store p x = deed plan s.store x.taken p := by
    rw [call, if_pos (Outcome.lands_of_heard hheard)]
  rw [hcall]
  cases p with
  | loadingCompany key =>
    simp only [onward, Option.ite_none_right_eq_some, Option.some.injEq] at hnext
    rw [← hnext.2]
    exact relies_of_held (fun epoch h => (Option.some.inj h).ge) rfl rfl rfl
  | findingReplay key epoch =>
    simp only [onward, Option.ite_none_left_eq_some, Option.some.injEq] at hnext
    rw [← hnext.2]
    exact relies_of_held hp.held rfl rfl rfl
  | countingToBuy key epoch =>
    simp only [onward] at hnext
    split at hnext
    · obtain rfl := Option.some.inj hnext
      exact relies_of_none rfl rfl
    · split at hnext
      · obtain rfl := Option.some.inj hnext
        exact relies_of_held hp.held rfl rfl rfl
      · simp at hnext
  | retrievingToBuy key epoch quantity =>
    simp only [onward] at hnext
    split at hnext
    · simp at hnext
    · split at hnext <;> obtain rfl := Option.some.inj hnext
      · exact relies_of_held hp.held rfl rfl rfl
      · exact relies_of_held hp.held rfl rfl rfl
  | buying key epoch quantity w =>
    simp only [onward, Option.ite_none_right_eq_some, Option.some.injEq] at hnext
    rw [← hnext.2, ← hcall]
    refine relies_of_held (fun e he => ?_) rfl rfl rfl
    exact (hp.held e he).trans (epoch_le_call s.store _ x)
  | verifying key epoch quantity =>
    simp only [onward, Option.ite_none_right_eq_some, Option.some.injEq] at hnext
    rw [← hnext.2]
    refine relies_of_mirrors rfl rfl rfl (hp.held epoch rfl) fun _ => ?_
    exact hnext.1.trans (find_quantity_le_billedOf s.store.items plan)
  | syncing key epoch quantity =>
    simp only [onward, Option.ite_none_right_eq_some, Option.some.injEq] at hnext
    rw [← hnext.2]
    exact relies_of_none rfl rfl
  | releasing key =>
    obtain rfl := Option.some.inj hnext
    exact relies_of_none rfl rfl
  | readingEpoch =>
    obtain rfl := Option.some.inj hnext
    exact relies_of_held (fun epoch h => (Option.some.inj h).ge) rfl rfl rfl
  | retrieving epoch day =>
    simp only [onward] at hnext
    split at hnext <;> obtain rfl := Option.some.inj hnext
    · exact relies_of_mirrors rfl rfl rfl (hp.held epoch rfl)
        fun _ => scheduleBilled_le s.store.items
    · -- what has been read is billed now
      refine ⟨hp.held, by simp [Point.pending], by simp [Point.mirrors], fun items h => ?_⟩
      simp only [Point.snapshot, Option.some.injEq, Prod.mk.injEq] at h
      rw [← h.2]
      exact fun item hitem => le_billedOf hitem
  | counting epoch day items =>
    obtain rfl := Option.some.inj hnext
    unfold converged
    split
    · exact relies_of_none rfl rfl
    · split
      · rename_i item hfind
        split
        · refine relies_of_mirrors rfl rfl rfl (hp.held epoch rfl) fun hepoch => ?_
          have hsnapshot : (Point.counting epoch day items).snapshot =
              some (s.store.epoch, items) := congrArg (fun e => some (e, items)) hepoch
          exact hp.snapshot items hsnapshot item (List.mem_of_find?_eq_some hfind)
        · exact relies_of_none rfl rfl
      · exact relies_of_mirrors rfl rfl rfl (hp.held epoch rfl) fun _ => Nat.zero_le _
  | claimingLower day item =>
    simp only [onward, Option.ite_none_left_eq_some, Option.some.injEq] at hnext
    rw [← hnext.2]
    refine ⟨by simp [Point.held], fun epoch quantity h => ?_, by simp [Point.mirrors],
      by simp [Point.snapshot]⟩
    simp only [Point.pending, Option.some.injEq, Prod.mk.injEq] at h
    obtain ⟨rfl, rfl⟩ := h
    exact ⟨le_rfl, min_le_right _ _⟩
  | claimingMigrate day stale =>
    obtain rfl := Option.some.inj hnext
    have hread := (horderly hheard).2
    refine ⟨fun epoch h => (Option.some.inj h).ge, fun epoch quantity h => ?_,
      by simp [Point.mirrors], by simp [Point.snapshot]⟩
    simp only [Point.pending, Option.some.injEq, Prod.mk.injEq] at h
    obtain ⟨rfl, rfl⟩ := h
    exact ⟨le_rfl, le_min hread (min_le_right _ _)⟩
  | migrating day itemId quantity epoch =>
    simp only [onward, Option.ite_none_right_eq_some, Option.some.injEq] at hnext
    rw [← hnext.2]
    refine relies_of_mirrors rfl rfl rfl ?_ fun _ => ?_
    · rw [← hcall]
      exact (hp.held epoch rfl).trans (epoch_le_call s.store _ x)
    · rcases accepts_cases hnext.1 with hreplayed | ⟨items, happly, hitems⟩
      · have hsame : deed plan s.store x.taken (.migrating day itemId quantity epoch) =
            s.store := by
          simp only [deed, updateItems, hreplayed]
        rw [hsame]
        exact horderly hreplayed
      · rw [deed, Store.billed, hitems]
        exact le_billed_migrateWrite happly
  | provisioning | porting | enabling | mirroring | lowering => simp [onward] at hnext

/-- A process goes on with its epoch, or with none, or it has just read or claimed it. -/
theorem held_onward {s : Store} (h : onward plan s x p = some p') :
    p'.held = p.held ∨ p'.held = none ∨
      (∃ key, p = .loadingCompany key) ∨ p = .readingEpoch ∨
        ∃ day stale, p = .claimingMigrate day stale := by
  cases p with
  | loadingCompany key => exact .inr (.inr (.inl ⟨key, rfl⟩))
  | readingEpoch => exact .inr (.inr (.inr (.inl rfl)))
  | claimingMigrate day stale => exact .inr (.inr (.inr (.inr ⟨day, stale, rfl⟩)))
  | findingReplay key epoch =>
    simp only [onward, Option.ite_none_left_eq_some, Option.some.injEq] at h
    exact .inl (h.2 ▸ rfl)
  | countingToBuy key epoch =>
    simp only [onward] at h
    split at h
    · exact .inr (.inl (Option.some.inj h ▸ rfl))
    · split at h
      · exact .inl (Option.some.inj h ▸ rfl)
      · simp at h
  | retrievingToBuy key epoch quantity =>
    simp only [onward] at h
    split at h
    · simp at h
    · split at h <;> exact .inl (Option.some.inj h ▸ rfl)
  | buying | verifying | migrating =>
    simp only [onward, Option.ite_none_right_eq_some, Option.some.injEq] at h
    exact .inl (h.2 ▸ rfl)
  | syncing =>
    simp only [onward, Option.ite_none_right_eq_some, Option.some.injEq] at h
    exact .inr (.inl (h.2 ▸ rfl))
  | releasing => exact .inl (Option.some.inj h ▸ rfl)
  | retrieving epoch day =>
    simp only [onward] at h
    split at h <;> exact .inl (Option.some.inj h ▸ rfl)
  | counting epoch day items =>
    obtain rfl := Option.some.inj h
    unfold converged
    split
    · exact .inr (.inl rfl)
    · split
      · split
        · exact .inl rfl
        · exact .inr (.inl rfl)
      · exact .inl rfl
  | claimingLower day item =>
    simp only [onward, Option.ite_none_left_eq_some, Option.some.injEq] at h
    exact .inl (h.2 ▸ rfl)
  | provisioning | porting | enabling | mirroring | lowering => simp [onward] at h

/-- A write is due only after a claim, under the epoch the claim has bumped. -/
theorem pending_onward {s : Store} (h : onward plan s x p = some p') :
    p'.pending = none ∨ ∃ quantity, p'.pending = some (s.epoch + 1, quantity) := by
  cases p with
  | claimingLower day item =>
    simp only [onward, Option.ite_none_left_eq_some, Option.some.injEq] at h
    rw [← h.2]
    exact .inr ⟨_, rfl⟩
  | claimingMigrate day stale =>
    obtain rfl := Option.some.inj h
    exact .inr ⟨_, rfl⟩
  | loadingCompany | buying | verifying | migrating | syncing =>
    simp only [onward, Option.ite_none_right_eq_some, Option.some.injEq] at h
    exact .inl (h.2 ▸ rfl)
  | findingReplay =>
    simp only [onward, Option.ite_none_left_eq_some, Option.some.injEq] at h
    exact .inl (h.2 ▸ rfl)
  | readingEpoch | releasing => exact .inl (Option.some.inj h ▸ rfl)
  | countingToBuy key epoch =>
    simp only [onward] at h
    split at h
    · exact .inl (Option.some.inj h ▸ rfl)
    · split at h
      · exact .inl (Option.some.inj h ▸ rfl)
      · simp at h
  | retrievingToBuy key epoch quantity =>
    simp only [onward] at h
    split at h
    · simp at h
    · split at h <;> exact .inl (Option.some.inj h ▸ rfl)
  | retrieving epoch day =>
    simp only [onward] at h
    split at h <;> exact .inl (Option.some.inj h ▸ rfl)
  | counting epoch day items =>
    obtain rfl := Option.some.inj h
    unfold converged
    split
    · exact .inl rfl
    · split
      · split <;> exact .inl rfl
      · exact .inl rfl
  | provisioning | porting | enabling | mirroring | lowering => simp [onward] at h

theorem apart_next {p p' q : Point}
    (horderly : Orderly plan s x p) (hmem : q ∈ s.running) (hq : Relies s.store q)
    (hapart : Apart p q) (hnext : next plan s.store x p = some p') : Apart p' q := by
  unfold next at hnext
  split at hnext
  on_goal 2 => simp at hnext
  rename_i hheard
  constructor
  · -- every epoch that is held is from before a new claim
    intro claimed quantity hpending epoch hepoch
    rcases pending_onward hnext with hnone | ⟨d, hclaim⟩
    · exact absurd (hnone.symm.trans hpending) (by simp)
    · have heq := Option.some.inj (hclaim.symm.trans hpending)
      simp only [Prod.mk.injEq] at heq
      have hle := hq.held epoch hepoch
      omega
  · intro claimed quantity hpending epoch hepoch
    have hclear : (∀ q ∈ s.running, q.pending = none) → epoch < claimed := fun hnone =>
      absurd ((hnone q hmem).symm.trans hpending) (by simp)
    rcases held_onward hnext with hsame | hnone | ⟨key, rfl⟩ | rfl | ⟨day, stale, rfl⟩
    · exact hapart.2 claimed quantity hpending epoch (hsame ▸ hepoch)
    · rw [hnone] at hepoch
      exact absurd hepoch (by simp)
    · exact hclear (horderly hheard)
    · exact hclear (horderly hheard)
    · exact hclear (horderly hheard).1

/-! ### A run -/

/-- A slot that is admitted is one of those that are included or billed. -/
def Output.Within : Output → Prop
  | .admitted occupying allowance => occupying ≤ allowance

theorem within_of_emits {s : Store} (hs : s.paid ≤ s.billed) :
    ∀ o ∈ emits plan s x p, o.Within := by
  intro o ho
  unfold emits at ho
  split at ho
  on_goal 2 => exact absurd ho List.not_mem_nil
  rename_i hcreated
  obtain rfl := List.mem_singleton.1 ho
  have hbelow : s.occupying < planNumbers plan + s.paid := by
    cases p with
    | provisioning | porting | enabling => exact admitted_within (Option.some.inj hcreated.2)
    | loadingCompany | findingReplay | countingToBuy | retrievingToBuy | buying | verifying
    | syncing | releasing | readingEpoch | retrieving | counting | mirroring | claimingLower
    | lowering | claimingMigrate | migrating => simp [Point.slot] at hcreated
  simp only [Output.Within]
  omega

theorem nonInterfering (plan : PlanId) :
    NonInterfering (capacity plan) (fun s => s.paid ≤ s.billed) Relies Apart (Undisturbed plan)
      Output.Within where
  symm _ _ h := ⟨h.2, h.1⟩
  enter s r _ _ := relies_enter s.store r
  alone p r := by
    constructor
    · intro claimed quantity _ epoch hepoch
      cases r <;> simp [capacity, enter, Point.held] at hepoch
    · intro claimed quantity hpending
      cases r <;> simp [capacity, enter, Point.pending] at hpending
  advance s n x p h := paid_le_billed_call h.sound.store h.relies (h.meets p h.point)
  next s n x p p' h hnext := relies_next h.relies (h.meets p h.point) hnext
  others s n x p q h hq hapart :=
    relies_other h.relies (h.meets p h.point) (h.sound.running q (List.mem_of_mem_eraseIdx hq))
      hapart
  apart s n x p p' q h hnext hq hapart :=
    apart_next (h.meets p h.point) (List.mem_of_mem_eraseIdx hq)
      (h.sound.running q (List.mem_of_mem_eraseIdx hq)) hapart hnext
  emits s n x p h := within_of_emits h.sound.store
  world s ms h _ := ⟨h.store,
    fun p hp => ⟨(h.running p hp).held, (h.running p hp).pending, (h.running p hp).mirrors,
      (h.running p hp).snapshot⟩,
    fun _ ho => absurd ho List.not_mem_nil⟩

/-- **In an undisturbed run the column never exceeds what is billed, and no slot is admitted beyond
what is included and billed.** -/
theorem capacity_billed (plan : PlanId) {s : Store} (hs : s.paid ≤ s.billed)
    {is : List (Input Request Await ℕ)}
    (hundisturbed : Reactive.Along (step (capacity plan)) (Undisturbed plan) ⟨s, []⟩ is) :
    (Reactive.final (step (capacity plan)) ⟨s, []⟩ is).store.paid ≤
        (Reactive.final (step (capacity plan)) ⟨s, []⟩ is).store.billed ∧
      ∀ o ∈ Reactive.outputs (step (capacity plan)) ⟨s, []⟩ is, o.Within := by
  have hstart : Sound (fun s => s.paid ≤ s.billed) Relies Apart (⟨s, []⟩ : State Store Point) :=
    ⟨hs, fun p hp => absurd hp List.not_mem_nil, List.Pairwise.nil⟩
  exact ⟨((nonInterfering plan).final hstart hundisturbed).store,
    (nonInterfering plan).outputs hstart hundisturbed⟩

/-- A Pro company with three numbers, that pays for `paid` extra ones. -/
def proStore (paid : ℕ) : Store where
  numbers := [⟨1, false⟩, ⟨2, false⟩, ⟨3, false⟩]
  paid := paid
  epoch := 0
  soleProprietor := false
  provisionCount := 3
  items := [⟨1, .pro, paid⟩]
  nextItemId := 2
  memory := []
  clock := 0

def answered : Await := { outcome := .done, allowed := true, scheduled := false, taken := false }

/-- A convergence and then a buy, one after the other. -/
def orderedRun : List (Input Request Await ℕ) :=
  .start .converge :: List.replicate 5 (.step 0 answered) ++
    .start (.buy 4) :: List.replicate 8 (.step 0 answered)

instance decidableOrderly (plan : PlanId) (s : State Store Point) (x : Await) :
    ∀ p, Decidable (Orderly plan s x p)
  | .loadingCompany _ | .readingEpoch =>
    inferInstanceAs (Decidable (_ → ∀ q ∈ s.running, q.pending = none))
  | .claimingMigrate _ stale =>
    inferInstanceAs (Decidable (_ → (∀ q ∈ s.running, q.pending = none) ∧
      min s.store.paid (claimDesired s.store (planNumbers plan)) ≤ stale.quantity))
  | .buying key _ _ w =>
    inferInstanceAs (Decidable (_ → s.store.verdict (.buy key) w = .fresh →
      w.Raises s.store.items))
  | .migrating day itemId quantity _ =>
    inferInstanceAs (Decidable
      (s.store.verdict (.converge itemId quantity day) (migrateWrite plan itemId quantity) =
        .replayed () → quantity ≤ s.store.billed))
  | .findingReplay .. | .countingToBuy .. | .retrievingToBuy .. | .verifying .. | .syncing ..
  | .provisioning _ | .porting _ | .enabling _ | .releasing _ | .retrieving .. | .counting ..
  | .mirroring .. | .claimingLower .. | .lowering .. => inferInstanceAs (Decidable True)

instance decidableUndisturbed (plan : PlanId) (s : State Store Point) :
    ∀ i, Decidable (Undisturbed plan s i)
  | .step n x => inferInstanceAs (Decidable (∀ p ∈ s.running[n]?, Orderly plan s x p))
  | .start _ | .crash _ | .world _ => inferInstanceAs (Decidable True)

theorem capacity_billed_ordered :
    (Reactive.final (step (capacity .pro)) ⟨proStore 2, []⟩ orderedRun).store.paid ≤
        (Reactive.final (step (capacity .pro)) ⟨proStore 2, []⟩ orderedRun).store.billed ∧
      ∀ o ∈ Reactive.outputs (step (capacity .pro)) ⟨proStore 2, []⟩ orderedRun, o.Within :=
  capacity_billed .pro (by decide) (by decide +kernel)

/-- A convergence has claimed one extra number when a buy reads the new epoch, finds two billed and
is admitted; then the convergence writes its one. -/
def overtakenClaim : List (Input Request Await ℕ) :=
  .start .converge :: List.replicate 4 (.step 0 answered) ++
    .start (.buy 4) :: List.replicate 7 (.step 1 answered) ++ [.step 0 answered]

/-- A buy for the fourth number lowers three billed extras to two, and two ports are admitted before
it lowers the column. -/
def loweringBuy : List (Input Request Await ℕ) :=
  .start (.buy 4) :: List.replicate 5 (.step 0 answered) ++
    [.start (.claimPort 5), .step 1 answered, .start (.claimPort 6), .step 1 answered]

theorem capacity_unbilled :
    ((Reactive.final (step (capacity .pro)) ⟨proStore 2, []⟩ overtakenClaim).running = [] ∧
      (Reactive.final (step (capacity .pro)) ⟨proStore 2, []⟩ overtakenClaim).store.paid = 2 ∧
      (Reactive.final (step (capacity .pro)) ⟨proStore 2, []⟩ overtakenClaim).store.billed = 1) ∧
    Reactive.outputs (step (capacity .pro)) ⟨proStore 3, []⟩ loweringBuy =
      [.admitted 4 4, .admitted 5 4] := by
  decide +kernel

end ExtraNumbers
