/-
**Notices that are claimed before they are sent.**

A job works through a script of calls and notices.  A notice is claimed first: its key goes into a
ledger, and only the run whose insertion landed goes on to look up who is to be told and to send the
mail.  So a key that is in the ledger is never mailed by a later run, and a run that stops between
the claim and the mail loses the notice for good, unless the claim is given back.

Any call may fail, with or without having taken effect, and a run may die between two of its calls.
The module says when the ledger does what it is for: as long as no run lets go of a key it has
claimed and not mailed, every notice of a completed run is mailed exactly once.

Main definitions:

* `ClaimFirst.Script`, `Script.notices` — what a job does, and the notices on its way through;
* `ClaimFirst.Script.block`, `ClaimFirst.Script.each` — lines in a row, left together where one of
  them fails;
* `ClaimFirst.Policy` — the script of a request, what a notice looks up, which claims are given back;
* `ClaimFirst.deed`, `ClaimFirst.next`, `ClaimFirst.step` — one call, and one move of a sequence of
  runs;
* `ClaimFirst.Careful` — the call does not lose a claimed key.

Main results:

* `ClaimFirst.mailed_once` — in a sequence of careful runs, every notice of every completed run has
  been mailed exactly once;
* `ClaimFirst.start_of_mem_outputs` — a completed run has been started.
-/

import Mathlib.Data.List.Count
import Texturion.ReactiveRun

namespace ClaimFirst

variable {κ γ ρ : Type*} [DecidableEq κ]

/-- What is left of a job.  A call or a notice that fails goes on at the second branch. -/
inductive Script (κ γ : Type*)
  | finish
  | call (c : γ) (next otherwise : Script κ γ)
  | notice (k : κ) (next otherwise : Script κ γ)

/-- The notices of a job none of whose calls fails. -/
def Script.notices : Script κ γ → List κ
  | .finish => []
  | .call _ next _ => next.notices
  | .notice k next _ => k :: next.notices

/-- One line of a job. -/
inductive Line (κ γ : Type*)
  | call (c : γ)
  | notice (k : κ)

def Line.notices : Line κ γ → List κ
  | .call _ => []
  | .notice k => [k]

omit [DecidableEq κ] in
theorem mem_notices {lines : List (Line κ γ)} {k : κ} :
    k ∈ lines.flatMap Line.notices ↔ .notice k ∈ lines := by
  rw [List.mem_flatMap]
  constructor
  · rintro ⟨line, hline, hk⟩
    cases line with
    | call c => exact absurd hk List.not_mem_nil
    | notice j => exact List.mem_singleton.1 hk ▸ hline
  · exact fun h => ⟨_, h, List.mem_singleton_self k⟩

/-- Lines in a row.  The first one that fails goes on at `otherwise`, past the rest of them. -/
def Script.block : List (Line κ γ) → Script κ γ → Script κ γ → Script κ γ
  | [], next, _ => next
  | .call c :: lines, next, otherwise => .call c (block lines next otherwise) otherwise
  | .notice k :: lines, next, otherwise => .notice k (block lines next otherwise) otherwise

omit [DecidableEq κ] in
@[simp] theorem notices_finish : (Script.finish : Script κ γ).notices = [] := rfl

omit [DecidableEq κ] in
@[simp] theorem notices_block (lines : List (Line κ γ)) (next otherwise : Script κ γ) :
    (Script.block lines next otherwise).notices = lines.flatMap Line.notices ++ next.notices := by
  induction lines with
  | nil => rfl
  | cons line lines ih =>
    cases line with
    | call c => simpa [Script.block, Script.notices, Line.notices] using ih
    | notice k => simpa [Script.block, Script.notices, Line.notices] using ih

/-- The same for each of a list, none of which may starve the rest. -/
def Script.each {α : Type*} (lines : α → List (Line κ γ)) (as : List α) (next : Script κ γ) :
    Script κ γ :=
  as.foldr (fun a rest => .block (lines a) rest rest) next

omit [DecidableEq κ] in
@[simp] theorem notices_each {α : Type*} (lines : α → List (Line κ γ)) (as : List α)
    (next : Script κ γ) :
    (Script.each lines as next).notices =
      (as.flatMap fun a => (lines a).flatMap Line.notices) ++ next.notices := by
  induction as with
  | nil => rfl
  | cons a as ih =>
    have hstep : Script.each lines (a :: as) next =
        .block (lines a) (Script.each lines as next) (Script.each lines as next) := rfl
    rw [hstep, notices_block, ih, List.flatMap_cons, List.append_assoc]

omit [DecidableEq κ] in
theorem mem_block {lines : List (Line κ γ)} {next otherwise : Script κ γ} {k : κ}
    (hk : .notice k ∈ lines) : k ∈ (Script.block lines next otherwise).notices := by
  rw [notices_block]
  exact List.mem_append_left _ (mem_notices.2 hk)

omit [DecidableEq κ] in
theorem mem_each {α : Type*} {lines : α → List (Line κ γ)} {as : List α} {next : Script κ γ}
    {a : α} {k : κ} (ha : a ∈ as) (hk : .notice k ∈ lines a) :
    k ∈ (Script.each lines as next).notices := by
  rw [notices_each]
  exact List.mem_append_left _ (List.mem_flatMap.2 ⟨a, ha, mem_notices.2 hk⟩)

/-- What stands between the claim and the mail: a read, or the read of who is to be told, where an
empty answer ends the notice. -/
inductive Lookup
  | reading
  | audience
  deriving DecidableEq

structure Policy (κ γ ρ : Type*) where
  script : ρ → Script κ γ
  lookups : κ → List Lookup
  givesBack : κ → Bool

structure Store (κ : Type*) where
  ledger : List κ
  mailed : List κ

/-- Where a run stands: before the next line of its script; with a key it has claimed, before the
lookups that are left and then the mail; or with one it is about to give back. -/
inductive Point (κ γ : Type*)
  | ready (s : Script κ γ)
  | telling (k : κ) (left : List Lookup) (next otherwise : Script κ γ)
  | givingBack (k : κ) (otherwise : Script κ γ)

/-- The key a run has claimed and not mailed. -/
def Point.held : Point κ γ → Option κ
  | .ready _ => none
  | .telling k _ _ _ => some k
  | .givingBack k _ => some k

/-- What came of a call: an answer, an empty one, no effect, or an effect whose answer was lost. -/
inductive Answer
  | done
  | empty
  | failed
  | unheard
  deriving DecidableEq

def Answer.heard : Answer → Bool
  | .done | .empty => true
  | .failed | .unheard => false

def Answer.lands : Answer → Bool
  | .done | .empty | .unheard => true
  | .failed => false

structure Run (κ γ ρ : Type*) where
  request : ρ
  point : Point κ γ
  ok : Bool

structure State (κ γ ρ : Type*) where
  store : Store κ
  current : Option (Run κ γ ρ)

inductive Input (ρ : Type*)
  | start (r : ρ)
  | call (a : Answer)
  | crash

def deed (st : Store κ) : Point κ γ → Answer → Store κ
  | .ready (.notice k _ _), a =>
    if a.lands ∧ k ∉ st.ledger then { st with ledger := st.ledger ++ [k] } else st
  | .telling k [] _ _, a => if a.lands then { st with mailed := st.mailed ++ [k] } else st
  | .givingBack k _, a =>
    if a.lands then { st with ledger := st.ledger.filter (· ≠ k) } else st
  | .ready .finish, _ | .ready (.call ..), _ | .telling _ (_ :: _) _ _, _ => st

/-- Where a notice that failed leaves its run. -/
def giveUp (P : Policy κ γ ρ) (k : κ) (otherwise : Script κ γ) : Point κ γ :=
  if P.givesBack k then .givingBack k otherwise else .ready otherwise

/-- Where a call leaves its run, and whether it went well. -/
def next (P : Policy κ γ ρ) (st : Store κ) : Point κ γ → Answer → Point κ γ × Bool
  | .ready .finish, _ => (.ready .finish, true)
  | .ready (.call _ next otherwise), a =>
    if a.heard then (.ready next, true) else (.ready otherwise, false)
  | .ready (.notice k next otherwise), a =>
    if a.heard then
      if k ∈ st.ledger then (.ready next, true)
      else (.telling k (P.lookups k) next otherwise, true)
    else (.ready otherwise, false)
  | .telling k (l :: left) next otherwise, a =>
    if a.heard then
      if l = .audience ∧ a = .empty then (.ready next, true)
      else (.telling k left next otherwise, true)
    else (giveUp P k otherwise, false)
  | .telling k [] next otherwise, a =>
    if a.heard then (.ready next, true) else (giveUp P k otherwise, false)
  | .givingBack _ otherwise, _ => (.ready otherwise, false)

/-- A run that is through is over, and is completed if every call of it went well. -/
def settle (st : Store κ) (r : ρ) (ok : Bool) : Point κ γ → State κ γ ρ × List ρ
  | .ready .finish => ({ store := st, current := none }, if ok then [r] else [])
  | p => ({ store := st, current := some { request := r, point := p, ok := ok } }, [])

/-- One move of a sequence of runs: a run starts when there is none, makes its next call, or dies.
What it emits are the requests whose runs have completed. -/
def step (P : Policy κ γ ρ) (s : State κ γ ρ) : Input ρ → State κ γ ρ × List ρ
  | .start r =>
    match s.current with
    | none => settle s.store r true (.ready (P.script r))
    | some _ => (s, [])
  | .call a =>
    match s.current with
    | none => (s, [])
    | some run =>
      settle (deed s.store run.point a) run.request
        (run.ok && (next P s.store run.point a).2) (next P s.store run.point a).1
  | .crash => ({ s with current := none }, [])

/-- Nothing claimed, nothing mailed, no run. -/
def start : State κ γ ρ := { store := { ledger := [], mailed := [] }, current := none }

/-! ### What keeps a claimed key from being lost -/

/-- A call that does not lose a wanted key: the answer to the claim comes back, there is somebody to
tell, and from there on nothing fails, unless the claim is given back. -/
def Point.Careful (P : Policy κ γ ρ) (wanted : κ → Prop) (st : Store κ) :
    Point κ γ → Answer → Prop
  | .ready (.notice k _ _), a => wanted k → k ∉ st.ledger → a ≠ .unheard
  | .telling k (l :: _) _ _, a =>
    wanted k → (a.heard ∨ P.givesBack k) ∧ ¬(l = .audience ∧ a = .empty)
  | .telling k [] _ _, a => wanted k → a ≠ if P.givesBack k then .unheard else .failed
  | .givingBack k _, a => wanted k → a ≠ .failed
  | .ready .finish, _ | .ready (.call ..), _ => True

instance (P : Policy κ γ ρ) (wanted : κ → Prop) [DecidablePred wanted] (st : Store κ) :
    ∀ p a, Decidable (Point.Careful (γ := γ) P wanted st p a)
  | .ready (.notice k _ _), a => inferInstanceAs (Decidable (wanted k → k ∉ st.ledger → a ≠ _))
  | .telling k (_ :: _) _ _, _ => inferInstanceAs (Decidable (wanted k → _ ∧ _))
  | .telling k [] _ _, a => inferInstanceAs (Decidable (wanted k → a ≠ _))
  | .givingBack k _, a => inferInstanceAs (Decidable (wanted k → a ≠ _))
  | .ready .finish, _ | .ready (.call ..), _ => inferInstanceAs (Decidable True)

/-- A run does not die with a wanted key in its hands. -/
def Point.MayDie (wanted : κ → Prop) (p : Point κ γ) : Prop := ∀ k ∈ p.held, ¬wanted k

instance (wanted : κ → Prop) [DecidablePred wanted] (p : Point κ γ) :
    Decidable (p.MayDie wanted) :=
  inferInstanceAs (Decidable (∀ k ∈ p.held, ¬wanted k))

/-- The move does not lose a wanted key. -/
def Careful (P : Policy κ γ ρ) (wanted : κ → Prop) (s : State κ γ ρ) : Input ρ → Prop
  | .start _ => True
  | .call a => ∀ run ∈ s.current, run.point.Careful P wanted s.store a
  | .crash => ∀ run ∈ s.current, run.point.MayDie wanted

instance (P : Policy κ γ ρ) (wanted : κ → Prop) [DecidablePred wanted] (s : State κ γ ρ) :
    ∀ i, Decidable (Careful P wanted s i)
  | .start _ => inferInstanceAs (Decidable True)
  | .call _ => inferInstanceAs (Decidable (∀ run ∈ s.current, Point.Careful P wanted s.store _ _))
  | .crash => inferInstanceAs (Decidable (∀ run ∈ s.current, Point.MayDie wanted _))

/-! ### One call -/

/-- The notices a run still gets to if nothing fails from here on. -/
def Point.notices : Point κ γ → List κ
  | .ready s => s.notices
  | .telling _ _ next _ => next.notices
  | .givingBack _ _ => []

/-- A key as the ledger means it: in it and mailed, or not in it and not mailed, or just claimed. -/
structure InOrder (st : Store κ) (held : Option κ) (k : κ) : Prop where
  claimed : held = some k → k ∈ st.ledger ∧ st.mailed.count k = 0
  mailed : held ≠ some k → st.mailed.count k = if k ∈ st.ledger then 1 else 0

omit [DecidableEq κ] in
@[simp] theorem held_ready (s : Script κ γ) : (Point.ready s).held = none := rfl

omit [DecidableEq κ] in
@[simp] theorem held_telling (k : κ) (left : List Lookup) (n o : Script κ γ) :
    (Point.telling k left n o).held = some k := rfl

omit [DecidableEq κ] in
@[simp] theorem held_givingBack (k : κ) (o : Script κ γ) :
    (Point.givingBack k o).held = some k := rfl

omit [DecidableEq κ] in
theorem held_giveUp (P : Policy κ γ ρ) (k : κ) (o : Script κ γ) :
    (giveUp P k o).held = if P.givesBack k then some k else none := by
  unfold giveUp
  split <;> rfl

theorem held_next_telling (P : Policy κ γ ρ) (st : Store κ) {j k : κ} {left : List Lookup}
    {n o : Script κ γ} (a : Answer) (hne : j ≠ k) :
    (next P st (.telling j left n o) a).1.held ≠ some k := by
  cases left with
  | nil =>
    simp only [next]
    split
    · simp
    · rw [held_giveUp]
      split <;> simp [hne]
  | cons l left =>
    simp only [next]
    split
    · split <;> simp [hne]
    · rw [held_giveUp]
      split <;> simp [hne]

variable {p : Point κ γ} {st : Store κ}

/-- A key in the ledger that no run holds stays there, and stays out of every hand. -/
theorem settled_next (P : Policy κ γ ρ) {k : κ} (a : Answer) (hk : k ∈ st.ledger)
    (hp : p.held ≠ some k) : k ∈ (deed st p a).ledger ∧ (next P st p a).1.held ≠ some k := by
  cases p with
  | ready s =>
    cases s with
    | finish => exact ⟨hk, hp⟩
    | call c n o =>
      refine ⟨hk, ?_⟩
      simp only [next]
      split <;> simp
    | notice j n o =>
      constructor
      · simp only [deed]
        split
        · exact List.mem_append_left _ hk
        · exact hk
      · simp only [next]
        split
        · split
          · simp
          · rename_i hj
            -- the key just claimed was not in the ledger
            simp only [held_telling, ne_eq, Option.some.injEq]
            rintro rfl
            exact hj hk
        · simp
  | telling j left n o =>
    have hne : j ≠ k := fun h => hp (h ▸ rfl)
    refine ⟨?_, held_next_telling P st a hne⟩
    cases left with
    | nil =>
      simp only [deed]
      split <;> exact hk
    | cons l left => exact hk
  | givingBack j o =>
    have hne : k ≠ j := fun h => hp (h ▸ rfl)
    constructor
    · simp only [deed]
      split
      · exact List.mem_filter.2 ⟨hk, by simpa using hne⟩
      · exact hk
    · simp [next]

theorem count_deed {k : κ} (a : Answer) (hp : p.held ≠ some k) :
    (deed st p a).mailed.count k = st.mailed.count k := by
  cases p with
  | ready s =>
    cases s with
    | finish => rfl
    | call c n o => rfl
    | notice j n o =>
      simp only [deed]
      split <;> rfl
  | telling j left n o =>
    have hne : j ≠ k := fun h => hp (h ▸ rfl)
    cases left with
    | nil =>
      simp only [deed]
      split
      · simp [List.count_append, hne]
      · rfl
    | cons l left => rfl
  | givingBack j o =>
    simp only [deed]
    split <;> rfl

theorem ledger_deed {k : κ} (a : Answer) (hk : k ∈ st.ledger)
    (hp : ∀ o, p ≠ .givingBack k o) : k ∈ (deed st p a).ledger := by
  by_cases hheld : p.held = some k
  · cases p with
    | ready s => simp at hheld
    | telling j left n o =>
      cases left with
      | nil =>
        simp only [deed]
        split <;> exact hk
      | cons l left => exact hk
    | givingBack j o =>
      simp only [held_givingBack, Option.some.injEq] at hheld
      exact absurd (hheld ▸ rfl) (hp o)
  · -- the policy plays no part in what a call does to the ledger
    exact (settled_next (ρ := κ) ⟨fun _ => .finish, fun _ => [], fun _ => false⟩ a hk hheld).1

variable {P : Policy κ γ ρ} {wanted : κ → Prop}

theorem inOrder_next {k : κ} {a : Answer} (hw : wanted k) (hcare : p.Careful P wanted st a)
    (h : InOrder st p.held k) : InOrder (deed st p a) (next P st p a).1.held k := by
  by_cases hheld : p.held = some k
  · obtain ⟨hmem, hcount⟩ := h.claimed hheld
    cases p with
    | ready s => simp at hheld
    | telling j left n o =>
      simp only [held_telling, Option.some.injEq] at hheld
      subst hheld
      cases left with
      | nil =>
        have hne := hcare hw
        by_cases hback : P.givesBack j = true
        · -- the claim of a mail that failed goes back, so the mail must not have gone out
          simp only [hback, if_true] at hne
          cases a <;> constructor <;>
            simp_all [deed, next, Answer.heard, Answer.lands, giveUp, List.count_append]
        · simp only [hback] at hne
          cases a <;> constructor <;>
            simp_all [deed, next, Answer.heard, Answer.lands, giveUp, List.count_append]
      | cons l left =>
        obtain ⟨hheard, hempty⟩ := hcare hw
        refine ⟨fun _ => ⟨hmem, hcount⟩, fun hgone => absurd ?_ hgone⟩
        simp only [next, hempty, if_false]
        split
        · rfl
        · rename_i hfail
          rw [held_giveUp, if_pos (hheard.resolve_left hfail)]
    | givingBack j o =>
      simp only [held_givingBack, Option.some.injEq] at hheld
      subst hheld
      have hlands : a.lands = true := by
        have hne := hcare hw
        cases a <;> simp_all [Answer.lands]
      refine ⟨fun hgone => by simp [next] at hgone, fun _ => ?_⟩
      simp [deed, hlands, hcount]
  · have hcount := h.mailed hheld
    by_cases hmem : k ∈ st.ledger
    · obtain ⟨hmem', hheld'⟩ := settled_next P a hmem hheld
      refine ⟨fun hclaimed => absurd hclaimed hheld', fun _ => ?_⟩
      rw [count_deed a hheld, hcount, if_pos hmem, if_pos hmem']
    · rw [if_neg hmem] at hcount
      -- a key outside the ledger changes its standing only where it is claimed
      cases p with
      | ready s =>
        cases s with
        | finish => exact ⟨fun hh => by simp [next] at hh, fun _ => by simp [deed, hcount, hmem]⟩
        | call c n o =>
          refine ⟨fun hh => ?_, fun _ => by simp [deed, hcount, hmem]⟩
          simp only [next] at hh
          split at hh <;> simp at hh
        | notice j n o =>
          by_cases hj : j = k
          · subst hj
            have hne := hcare hw hmem
            cases a <;> constructor <;>
              simp_all [deed, next, Answer.heard, Answer.lands]
          · constructor <;>
              cases a <;> by_cases hjm : j ∈ st.ledger <;>
                simp_all [deed, next, Answer.heard, Answer.lands, Ne.symm hj]
      | telling j left n o =>
        have hne : j ≠ k := fun hj => hheld (hj ▸ rfl)
        refine ⟨fun hh => absurd hh (held_next_telling P st a hne), fun _ => ?_⟩
        rw [count_deed a hheld, hcount, if_neg]
        cases left with
        | nil =>
          simp only [deed]
          split <;> exact hmem
        | cons l left => exact hmem
      | givingBack j o =>
        refine ⟨fun hh => by simp [next] at hh, fun _ => ?_⟩
        rw [count_deed a hheld, hcount, if_neg]
        simp only [deed]
        split
        · exact fun hk => hmem (List.mem_of_mem_filter hk)
        · exact hmem

/-- A call that goes well brings a run's notices along, those it has passed being in the ledger. -/
theorem notices_next {a : Answer} (hok : (next P st p a).2 = true) {k : κ}
    (hk : k ∈ p.notices ∨ k ∈ st.ledger) :
    k ∈ (next P st p a).1.notices ∨ k ∈ (deed st p a).ledger := by
  have hledger : k ∈ st.ledger → k ∈ (deed st p a).ledger := by
    intro hmem
    refine ledger_deed a hmem ?_
    rintro o rfl
    simp [next] at hok
  rcases hk with hk | hk
  swap
  · exact .inr (hledger hk)
  cases p with
  | ready s =>
    cases s with
    | finish => simp [Point.notices, Script.notices] at hk
    | call c n o =>
      have hheard : a.heard = true := by
        by_contra hnot
        simp [next, hnot] at hok
      left
      simpa [next, hheard, Point.notices, Script.notices] using hk
    | notice j n o =>
      have hheard : a.heard = true := by
        by_contra hnot
        simp [next, hnot] at hok
      have hlands : a.lands = true := by
        cases a <;> simp_all [Answer.heard, Answer.lands]
      rcases List.mem_cons.1 hk with rfl | hk
      · right
        by_cases hmem : k ∈ st.ledger
        · exact hledger hmem
        · simp [deed, hlands, hmem]
      · left
        simp only [next, hheard, if_true]
        split <;> exact hk
  | telling j left n o =>
    have hheard : a.heard = true := by
      by_contra hnot
      cases left <;> simp [next, hnot] at hok
    left
    cases left with
    | nil => simpa [next, hheard, Point.notices] using hk
    | cons l left =>
      simp only [next, hheard, if_true]
      split <;> exact hk
  | givingBack j o => simp [Point.notices] at hk

/-! ### A sequence of runs -/

/-- Where the run under way stands; with none under way, where a run that is through stands. -/
def State.point (s : State κ γ ρ) : Point κ γ :=
  match s.current with
  | none => .ready .finish
  | some run => run.point

/-- The key some run has claimed and not mailed. -/
def State.held (s : State κ γ ρ) : Option κ := s.point.held

omit [DecidableEq κ] in
@[simp] theorem settle_store (st : Store κ) (r : ρ) (ok : Bool) (p : Point κ γ) :
    (settle st r ok p).1.store = st := by
  cases p with
  | ready s => cases s <;> rfl
  | telling | givingBack => rfl

omit [DecidableEq κ] in
@[simp] theorem settle_point (st : Store κ) (r : ρ) (ok : Bool) (p : Point κ γ) :
    (settle st r ok p).1.point = p := by
  cases p with
  | ready s => cases s <;> rfl
  | telling | givingBack => rfl

omit [DecidableEq κ] in
@[simp] theorem settle_held (st : Store κ) (r : ρ) (ok : Bool) (p : Point κ γ) :
    (settle st r ok p).1.held = p.held :=
  congrArg Point.held (settle_point st r ok p)

theorem settled_step (P : Policy κ γ ρ) {s : State κ γ ρ} {k : κ} (i : Input ρ)
    (hk : k ∈ s.store.ledger) (hs : s.held ≠ some k) :
    k ∈ (step P s i).1.store.ledger ∧ (step P s i).1.held ≠ some k ∧
      (step P s i).1.store.mailed.count k = s.store.mailed.count k := by
  cases i with
  | start r =>
    cases hrun : s.current with
    | none => simp [step, hrun, hk]
    | some run => simpa [step, hrun, hk] using hs
  | call a =>
    cases hrun : s.current with
    | none => simpa [step, hrun, hk] using hs
    | some run =>
      have hheld : run.point.held ≠ some k := by
        simpa [State.held, State.point, hrun] using hs
      have h := settled_next P a hk hheld
      simp only [step, hrun, settle_store, settle_held]
      exact ⟨h.1, h.2, count_deed a hheld⟩
  | crash => simp [step, hk, State.held, State.point]

/-- What a sequence of careful runs keeps: wanted keys are in order, a run that has had no failure
has claimed or still comes to each of its notices, and those of a completed run are claimed for
good. -/
structure Orderly (P : Policy κ γ ρ) (wanted : κ → Prop) (s : State κ γ ρ) (out : List ρ) :
    Prop where
  order : ∀ k, wanted k → InOrder s.store s.held k
  coming : ∀ run ∈ s.current, run.ok = true → ∀ k ∈ (P.script run.request).notices,
    k ∈ run.point.notices ∨ k ∈ s.store.ledger
  complete : ∀ r ∈ out, ∀ k ∈ (P.script r).notices, wanted k →
    k ∈ s.store.ledger ∧ s.held ≠ some k

theorem orderly_start (P : Policy κ γ ρ) (wanted : κ → Prop) : Orderly P wanted start [] where
  order := fun k _ => ⟨fun h => by simp [State.held, State.point, start] at h, fun _ => by simp [start]⟩
  coming := by simp [start]
  complete := by simp

theorem orderly_settle {r : ρ} {ok : Bool} {out : List ρ}
    (horder : ∀ k, wanted k → InOrder st p.held k)
    (hcoming : ok = true → ∀ k ∈ (P.script r).notices, k ∈ p.notices ∨ k ∈ st.ledger)
    (hcomplete : ∀ r ∈ out, ∀ k ∈ (P.script r).notices, wanted k →
      k ∈ st.ledger ∧ p.held ≠ some k) :
    Orderly P wanted (settle st r ok p).1 (out ++ (settle st r ok p).2) := by
  refine ⟨by simpa using horder, ?_, ?_⟩
  · intro run hrun hrunok k hk
    cases p with
    | ready s =>
      cases s with
      | finish => simp [settle] at hrun
      | call c n o | notice j n o =>
        simp only [settle, Option.mem_def, Option.some.injEq] at hrun
        subst hrun
        exact hcoming hrunok k hk
    | telling j left n o | givingBack j o =>
      simp only [settle, Option.mem_def, Option.some.injEq] at hrun
      subst hrun
      exact hcoming hrunok k hk
  · intro r' hr' k hk hw
    simp only [settle_store, settle_held]
    rcases List.mem_append.1 hr' with hr' | hr'
    · exact hcomplete r' hr' k hk hw
    · -- a request is only emitted at the end of its script, where nothing is held
      cases p with
      | ready s =>
        cases s with
        | finish =>
          cases ok with
          | false => simp [settle] at hr'
          | true =>
            obtain rfl : r' = r := by simpa [settle] using hr'
            refine ⟨(hcoming rfl k hk).resolve_left ?_, by simp⟩
            simp [Point.notices, Script.notices]
        | call c n o | notice j n o => simp [settle] at hr'
      | telling j left n o | givingBack j o => simp [settle] at hr'

theorem orderly_step {s : State κ γ ρ} {i : Input ρ} {out : List ρ} (h : Orderly P wanted s out)
    (hcare : Careful P wanted s i) : Orderly P wanted (step P s i).1 (out ++ (step P s i).2) := by
  have hcomplete : ∀ r ∈ out, ∀ k ∈ (P.script r).notices, wanted k →
      k ∈ (step P s i).1.store.ledger ∧ (step P s i).1.held ≠ some k := by
    intro r hr k hk hw
    obtain ⟨hmem, hheld⟩ := h.complete r hr k hk hw
    have hset := settled_step P i hmem hheld
    exact ⟨hset.1, hset.2.1⟩
  cases i with
  | start r =>
    cases hrun : s.current with
    | none =>
      have hnone : s.held = none := by simp [State.held, State.point, hrun]
      simp only [step, hrun] at hcomplete ⊢
      refine orderly_settle ?_ (fun _ k hk => .inl hk) (by simpa using hcomplete)
      intro k hw
      have := h.order k hw
      rwa [hnone] at this
    | some run => simpa [step, hrun] using h
  | call a =>
    cases hrun : s.current with
    | none => simpa [step, hrun] using h
    | some run =>
      have hheld : s.held = run.point.held := by simp [State.held, State.point, hrun]
      simp only [step, hrun] at hcomplete ⊢
      refine orderly_settle ?_ ?_ (by simpa using hcomplete)
      · intro k hw
        have := h.order k hw
        rw [hheld] at this
        exact inOrder_next hw (hcare run hrun) this
      · intro hok k hk
        rw [Bool.and_eq_true] at hok
        exact notices_next hok.2 (h.coming run hrun hok.1 k hk)
  | crash =>
    simp only [step, List.append_nil] at hcomplete ⊢
    refine ⟨fun k hw => ⟨by simp [State.held, State.point], fun _ => ?_⟩, by simp, hcomplete⟩
    refine (h.order k hw).mailed fun hheld => ?_
    cases hrun : s.current with
    | none => simp [State.held, State.point, hrun] at hheld
    | some run => exact hcare run hrun k (by simpa [State.held, State.point, hrun] using hheld) hw

/-- **In a sequence of careful runs every notice of every completed run has been mailed exactly
once.** -/
theorem mailed_once (P : Policy κ γ ρ) (wanted : κ → Prop) {is : List (Input ρ)}
    (hcare : Reactive.Along (step P) (Careful P wanted) start is) {r : ρ}
    (hr : r ∈ Reactive.outputs (step P) start is) {k : κ} (hk : k ∈ (P.script r).notices)
    (hw : wanted k) : (Reactive.final (step P) start is).store.mailed.count k = 1 := by
  have h : Orderly P wanted (Reactive.final (step P) start is)
      ([] ++ Reactive.outputs (step P) start is) :=
    Reactive.outputs_of_inv_along (step P) (P := Orderly P wanted)
      (fun _ _ _ h hcare => orderly_step h hcare) (orderly_start P wanted) hcare
  obtain ⟨hmem, hheld⟩ := h.complete r (by simpa using hr) k hk hw
  rw [(h.order k hw).mailed hheld, if_pos hmem]

omit [DecidableEq κ] in
theorem mem_settle {r q : ρ} {ok : Bool} (hq : q ∈ (settle st r ok p).2) : q = r := by
  cases p with
  | ready s => cases s <;> cases ok <;> simp_all [settle]
  | telling | givingBack => simp [settle] at hq

omit [DecidableEq κ] in
theorem request_settle {r : ρ} {ok : Bool} {run : Run κ γ ρ}
    (hrun : run ∈ (settle st r ok p).1.current) : run.request = r := by
  cases p with
  | ready s => cases s <;> simp_all [settle] <;> simp [← hrun]
  | telling | givingBack =>
    simp only [settle, Option.mem_def, Option.some.injEq] at hrun
    rw [← hrun]

/-- A request in flight or completed after a move was in flight before it, or is the one started. -/
theorem request_step (P : Policy κ γ ρ) (s : State κ γ ρ) (i : Input ρ) {q : ρ}
    (hq : q ∈ (step P s i).2 ∨ ∃ run ∈ (step P s i).1.current, run.request = q) :
    (∃ run ∈ s.current, run.request = q) ∨ i = .start q := by
  cases i with
  | start r =>
    cases hrun : s.current with
    | none =>
      simp only [step, hrun] at hq
      right
      rcases hq with hq | ⟨run, hq, rfl⟩
      · rw [mem_settle hq]
      · rw [request_settle hq]
    | some run => exact .inl (by simpa [step, hrun] using hq)
  | call a =>
    cases hrun : s.current with
    | none => simp [step, hrun] at hq
    | some run =>
      simp only [step, hrun] at hq
      left
      rcases hq with hq | ⟨run', hq, rfl⟩
      · exact ⟨run, rfl, (mem_settle hq).symm⟩
      · exact ⟨run, rfl, (request_settle hq).symm⟩
  | crash => simp [step] at hq

theorem start_of_mem_outputs (P : Policy κ γ ρ) {is : List (Input ρ)} {r : ρ}
    (hr : r ∈ Reactive.outputs (step P) start is) : Input.start r ∈ is := by
  suffices h : ∀ s : State κ γ ρ, r ∈ Reactive.outputs (step P) s is →
      (∃ run ∈ s.current, run.request = r) ∨ Input.start r ∈ is by
    simpa [start] using h start hr
  clear hr
  induction is with
  | nil => simp
  | cons i is ih =>
    intro s hr
    have hnext : (r ∈ (step P s i).2 ∨ ∃ run ∈ (step P s i).1.current, run.request = r) ∨
        Input.start r ∈ is := by
      rcases List.mem_append.1 hr with hr | hr
      · exact .inl (.inl hr)
      · exact (ih _ hr).imp_left .inr
    rcases hnext with hnow | hlater
    · refine (request_step P s i hnow).imp_right fun hstart => ?_
      rw [hstart]
      exact List.mem_cons_self ..
    · exact .inr (List.mem_cons_of_mem _ hlater)

end ClaimFirst
