/-
**Idempotency keys.**

A provider that takes idempotency keys remembers, under each key, the first request made with it: a
repeated request with the same parameters is given the first result and does nothing, one with other
parameters is refused, and after a while the key is forgotten, so that the request is made anew.

Main result:

* `Idempotency.verdict_eq_fresh` — a request is made anew exactly where its key is not remembered.
-/

import Mathlib.Data.List.Basic
import Mathlib.Data.Int.Order.Basic

namespace Idempotency

variable {κ α β : Type*}

/-- What comes of a call: an answer, no effect, or an effect whose answer is lost. -/
inductive Outcome
  | done
  | failed
  | unheard
  deriving DecidableEq

def Outcome.heard (o : Outcome) : Bool := o = .done

def Outcome.lands (o : Outcome) : Bool := o ≠ .failed

theorem Outcome.lands_of_heard {o : Outcome} (h : o.heard = true) : o.lands = true := by
  cases o <;> first | rfl | exact absurd h (by decide)

/-- A request that was made under a key, with its result. -/
structure Record (κ α β : Type*) where
  key : κ
  params : α
  result : β
  madeAt : ℤ
  deriving DecidableEq

inductive Verdict (β : Type*)
  | fresh
  | replayed (b : β)
  | refused
  deriving DecidableEq

variable [DecidableEq κ] [DecidableEq α]

/-- The record of a key, newest first, that is no older than the window. -/
def recollect (window : ℤ) (memory : List (Record κ α β)) (now : ℤ) (k : κ) :
    Option (Record κ α β) :=
  memory.find? fun r => r.key = k ∧ now < r.madeAt + window

/-- What becomes of a request. -/
def verdict (window : ℤ) (memory : List (Record κ α β)) (now : ℤ) (k : κ) (params : α) :
    Verdict β :=
  match recollect window memory now k with
  | none => .fresh
  | some r => if r.params = params then .replayed r.result else .refused

variable {window now : ℤ} {memory : List (Record κ α β)} {k : κ} {params : α}

/-- **A request is made anew exactly where all that was made under its key is forgotten.** -/
theorem verdict_eq_fresh :
    verdict window memory now k params = .fresh ↔
      ∀ r ∈ memory, r.key = k → r.madeAt + window ≤ now := by
  have hrecollect : recollect window memory now k = none ↔
      ∀ r ∈ memory, r.key = k → r.madeAt + window ≤ now := by
    simp [recollect, List.find?_eq_none]
  rw [← hrecollect, verdict]
  cases recollect window memory now k with
  | none => simp
  | some r =>
      simp only [reduceCtorEq, iff_false]
      split <;> simp

omit [DecidableEq α] in
theorem recollect_eq_some {r : Record κ α β} (h : recollect window memory now k = some r) :
    r ∈ memory ∧ r.key = k ∧ now < r.madeAt + window := by
  have hcond : r.key = k ∧ now < r.madeAt + window := by
    simpa using List.find?_some h
  exact ⟨List.mem_of_find?_eq_some h, hcond⟩

/-- A replay repeats the result of an earlier request that had the same parameters. -/
theorem verdict_of_replayed {b : β} (h : verdict window memory now k params = .replayed b) :
    ∃ r ∈ memory, r.key = k ∧ r.params = params ∧ now < r.madeAt + window ∧ r.result = b := by
  rw [verdict] at h
  cases hr : recollect window memory now k with
  | none => simp [hr] at h
  | some r =>
      obtain ⟨hmem, hkey, hnow⟩ := recollect_eq_some hr
      rw [hr] at h
      dsimp only at h
      split at h
      · rename_i hparams
        exact ⟨r, hmem, hkey, hparams, hnow, Verdict.replayed.inj h⟩
      · simp at h

end Idempotency
