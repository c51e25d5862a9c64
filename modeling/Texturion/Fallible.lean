/-
**Functions that may raise.**

A function that reads a state and either raises, so that nothing is written, or leaves a state and
an answer is an `Option (σ × ω)`.  `Fallible.Ends P r` says that what it leaves has `P`; there is one
rule for each way such a function is written.

Main definitions:

* `Fallible.Ends` — the state that is left, if any, has a property.

Main results:

* `Fallible.ends_none`, `Fallible.ends_some`, `Fallible.ends_ite`, `Fallible.ends_bind` — the rules.
-/

import Mathlib.Data.Option.Basic
import Mathlib.Tactic.SplitIfs

namespace Fallible

variable {α σ ω : Type*} {P Q : σ → Prop} {r r' : Option (σ × ω)} {s s' : σ} {o o' : ω}

/-- The state that `r` leaves has `P`, unless `r` raises. -/
def Ends (P : σ → Prop) (r : Option (σ × ω)) : Prop := ∀ s o, r = some (s, o) → P s

theorem ends_none : Ends P (none : Option (σ × ω)) := by
  intro s o h
  cases h

theorem ends_some (h : P s) : Ends P (some (s, o)) := by
  intro s' o' heq
  obtain ⟨rfl, -⟩ := Prod.mk.inj (Option.some.inj heq)
  exact h

theorem ends_ite {c : Prop} [Decidable c] (h : c → Ends P r) (h' : ¬c → Ends P r') :
    Ends P (if c then r else r') := by
  split_ifs with hc
  · exact h hc
  · exact h' hc

theorem ends_bind {x : Option α} {f : α → Option (σ × ω)}
    (h : ∀ a, x = some a → Ends P (f a)) : Ends P (x.bind f) := by
  intro s o heq
  obtain ⟨a, ha, heq⟩ := Option.bind_eq_some_iff.1 heq
  exact h a ha s o heq

theorem Ends.mono (h : Ends P r) (hPQ : ∀ s, P s → Q s) : Ends Q r :=
  fun s o heq => hPQ s (h s o heq)

theorem left_eq (h : some (s, o) = some (s', o')) : s' = s :=
  (Prod.mk.inj (Option.some.inj h)).1.symm

end Fallible
