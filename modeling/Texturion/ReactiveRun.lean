/-
**Runs of a reactive system.**

A reactive system is a total step function `step : σ → ι → σ × List ω`: an input moves the state
and emits a list of outputs.  A run is a list of inputs; this module gives the state a run ends in,
the outputs it has emitted, and the three induction rules that every safety argument about such a
system uses: an invariant of the state, a relation between the state and everything emitted so far,
and a condition that every step of the run has met.

Main definitions:

* `Reactive.final`, `Reactive.outputs` — the state after a run, and what the run has emitted;
* `Reactive.Along` — every step of the run meets a condition on the state before it and its input;

Main results:

* `Reactive.final_of_inv`, `Reactive.final_of_inv_along` — the invariant rules;
* `Reactive.final_good_iff_along` — the exact condition under which a run only reaches good states;
* `Reactive.outputs_of_inv` — the rule for a state together with its history of outputs;
* `Reactive.outputs_good_iff_along` — the rule for the exact condition under which a run only emits
  good outputs;
* `Reactive.along_append`, `Reactive.along_iff_prefix` — a condition along a run, split at a point
  and read off every prefix.
-/

import Mathlib.Data.List.Basic

namespace Reactive

variable {σ ι ω : Type*} (step : σ → ι → σ × List ω)

/-- The state a run ends in. -/
def final : σ → List ι → σ
  | s, [] => s
  | s, i :: is => final (step s i).1 is

/-- Everything a run emits, in order. -/
def outputs : σ → List ι → List ω
  | _, [] => []
  | s, i :: is => (step s i).2 ++ outputs (step s i).1 is

/-- Every step of the run meets the condition `C` on the state before it and its input. -/
def Along (C : σ → ι → Prop) : σ → List ι → Prop
  | _, [] => True
  | s, i :: is => C s i ∧ Along C (step s i).1 is

instance decidableAlong (C : σ → ι → Prop) [∀ s i, Decidable (C s i)] :
    ∀ s is, Decidable (Along step C s is)
  | _, [] => inferInstanceAs (Decidable True)
  | s, i :: is =>
      have := decidableAlong C (step s i).1 is
      inferInstanceAs (Decidable (C s i ∧ Along step C (step s i).1 is))

@[simp] theorem final_nil (s : σ) : final step s [] = s := rfl

@[simp] theorem final_cons (s : σ) (i : ι) (is : List ι) :
    final step s (i :: is) = final step (step s i).1 is := rfl

@[simp] theorem outputs_nil (s : σ) : outputs step s [] = [] := rfl

@[simp] theorem outputs_cons (s : σ) (i : ι) (is : List ι) :
    outputs step s (i :: is) = (step s i).2 ++ outputs step (step s i).1 is := rfl

theorem final_append (s : σ) (is js : List ι) :
    final step s (is ++ js) = final step (final step s is) js := by
  induction is generalizing s with
  | nil => rfl
  | cons i is ih => exact ih (step s i).1

theorem outputs_append (s : σ) (is js : List ι) :
    outputs step s (is ++ js) = outputs step s is ++ outputs step (final step s is) js := by
  induction is generalizing s with
  | nil => rfl
  | cons i is ih => simp [ih, List.append_assoc]

theorem along_append (C : σ → ι → Prop) (s : σ) (is js : List ι) :
    Along step C s (is ++ js) ↔ Along step C s is ∧ Along step C (final step s is) js := by
  induction is generalizing s with
  | nil => simp [Along]
  | cons i is ih => simp [Along, ih, and_assoc]

variable {C D : σ → ι → Prop} {s : σ} {is : List ι} {P : σ → Prop}

theorem along_and :
    Along step (fun s i => C s i ∧ D s i) s is ↔ Along step C s is ∧ Along step D s is := by
  induction is generalizing s with
  | nil => simp [Along]
  | cons i is ih => simp only [Along, ih, and_and_and_comm]

/-- A condition holds along a run exactly when it holds at the end of every proper prefix, for
the input that follows it. -/
theorem along_iff_prefix (C : σ → ι → Prop) (s : σ) (is : List ι) :
    Along step C s is ↔ ∀ js i ks, is = js ++ i :: ks → C (final step s js) i := by
  induction is generalizing s with
  | nil => simp [Along]
  | cons i is ih =>
      constructor
      · rintro ⟨hC, hrest⟩ js j ks h
        cases js with
        | nil =>
            simp only [List.nil_append, List.cons.injEq] at h
            exact h.1 ▸ hC
        | cons j' js =>
            simp only [List.cons_append, List.cons.injEq] at h
            obtain ⟨rfl, h⟩ := h
            exact (ih _).1 hrest js j ks h
      · intro h
        refine ⟨h [] i is rfl, (ih _).2 fun js j ks hjs => ?_⟩
        exact h (i :: js) j ks (by rw [hjs]; rfl)

theorem along_of_forall {C : ι → Prop} (h : ∀ i ∈ is, C i) (s : σ) :
    Along step (fun _ i => C i) s is := by
  induction is generalizing s with
  | nil => trivial
  | cons i is ih =>
      exact ⟨h i (List.mem_cons_self ..), ih (fun j hj => h j (List.mem_cons_of_mem _ hj)) _⟩

/-- **The invariant rule**, for a run all of whose steps meet a condition. -/
theorem final_of_inv_along (hstep : ∀ s i, P s → C s i → P (step s i).1) (hs : P s)
    (hC : Along step C s is) : P (final step s is) := by
  induction is generalizing s with
  | nil => exact hs
  | cons i is ih => exact ih (hstep s i hs hC.1) hC.2

/-- **The invariant rule.** -/
theorem final_of_inv (hstep : ∀ s i, P s → P (step s i).1) (hs : P s)
    (is : List ι) : P (final step s is) := by
  induction is generalizing s with
  | nil => exact hs
  | cons i is ih => exact ih (hstep s i hs)

/-- A condition that an invariant turns into another one, along a run. -/
theorem along_of_inv (hstep : ∀ s i, P s → C s i → P (step s i).1) (hD : ∀ s i, P s → C s i → D s i)
    (hs : P s) (hC : Along step C s is) : Along step D s is := by
  induction is generalizing s with
  | nil => trivial
  | cons i is ih => exact ⟨hD s i hs hC.1, ih (hstep s i hs hC.1) hC.2⟩

theorem along_iff_of_inv (hstep : ∀ s i, P s → P (step s i).1) (hCD : ∀ s i, P s → (C s i ↔ D s i))
    (hs : P s) (is : List ι) : Along step C s is ↔ Along step D s is := by
  induction is generalizing s with
  | nil => exact Iff.rfl
  | cons i is ih => exact and_congr (hCD s i hs) (ih (hstep s i hs))

/-- Two conditions on steps that agree in good states, where a step that meets one of them leads to
a good state again. -/
theorem along_iff_of_good {P good : σ → Prop} (hstep : ∀ s i, P s → P (step s i).1)
    (hCD : ∀ s i, P s → good s → (C s i ↔ D s i))
    (hgood : ∀ s i, P s → good s → C s i → good (step s i).1) (hs : P s) (hstart : good s)
    (is : List ι) : Along step C s is ↔ Along step D s is := by
  induction is generalizing s with
  | nil => exact Iff.rfl
  | cons i is ih =>
      have hfirst := hCD s i hs hstart
      constructor
      · rintro ⟨hC, hrest⟩
        exact ⟨hfirst.1 hC, (ih (hstep s i hs) (hgood s i hs hstart hC)).1 hrest⟩
      · rintro ⟨hD, hrest⟩
        have hC := hfirst.2 hD
        exact ⟨hC, (ih (hstep s i hs) (hgood s i hs hstart hC)).2 hrest⟩

/-- **The exact-condition rule for states.**  Where a step from a good state leads to a good one
exactly when it meets the condition, every state of a run is good exactly when all its steps meet
the condition. -/
theorem final_good_iff_along {P good : σ → Prop} (hstep : ∀ s i, P s → P (step s i).1)
    (hgood : ∀ s i, P s → good s → (good (step s i).1 ↔ C s i)) (hs : P s) (hstart : good s)
    (is : List ι) : (∀ js ks, is = js ++ ks → good (final step s js)) ↔ Along step C s is := by
  induction is generalizing s with
  | nil =>
      refine ⟨fun _ => trivial, fun _ js ks h => ?_⟩
      obtain ⟨rfl, -⟩ := List.append_eq_nil_iff.1 h.symm
      exact hstart
  | cons i is ih =>
      constructor
      · intro h
        have hnext : good (step s i).1 := h [i] is rfl
        refine ⟨(hgood s i hs hstart).1 hnext, (ih (hstep s i hs) hnext).1 fun js ks hjs => ?_⟩
        exact h (i :: js) ks (by rw [hjs]; rfl)
      · rintro ⟨hC, hrest⟩ js ks h
        cases js with
        | nil => exact hstart
        | cons j js =>
            simp only [List.cons_append, List.cons.injEq] at h
            obtain ⟨rfl, h⟩ := h
            exact (ih (hstep s i hs) ((hgood s i hs hstart).2 hC)).2 hrest js ks h

/-- **The history rule**: a relation between the state and everything emitted so far. -/
theorem outputs_of_inv {P : σ → List ω → Prop}
    (hstep : ∀ s i out, P s out → P (step s i).1 (out ++ (step s i).2)) {out : List ω}
    (hs : P s out) (is : List ι) : P (final step s is) (out ++ outputs step s is) := by
  induction is generalizing s out with
  | nil => simpa using hs
  | cons i is ih =>
      have h := ih (hstep s i out hs)
      rwa [List.append_assoc] at h

/-- **The history rule**, for a run all of whose steps meet a condition. -/
theorem outputs_of_inv_along {P : σ → List ω → Prop}
    (hstep : ∀ s i out, P s out → C s i → P (step s i).1 (out ++ (step s i).2)) {out : List ω}
    (hs : P s out) (hC : Along step C s is) : P (final step s is) (out ++ outputs step s is) := by
  induction is generalizing s out with
  | nil => simpa using hs
  | cons i is ih =>
      have h := ih (hstep s i out hs hC.1) hC.2
      rwa [List.append_assoc] at h

/-- **The exact-condition rule.**  Where every step that meets the condition keeps the invariant
and emits only good outputs, and every step that does not emits a bad one, a run emits only good
outputs exactly when all its steps meet the condition. -/
theorem outputs_good_iff_along {good : ω → Prop}
    (hstep : ∀ s i, P s → C s i → P (step s i).1 ∧ ∀ o ∈ (step s i).2, good o)
    (hbad : ∀ s i, P s → ¬C s i → ∃ o ∈ (step s i).2, ¬good o) (hs : P s)
    (is : List ι) : (∀ o ∈ outputs step s is, good o) ↔ Along step C s is := by
  induction is generalizing s with
  | nil => simp [Along]
  | cons i is ih =>
      rw [outputs_cons]
      constructor
      · intro hgood
        have hC : C s i := by
          by_contra hne
          obtain ⟨o, ho, hnot⟩ := hbad s i hs hne
          exact hnot (hgood o (List.mem_append_left _ ho))
        refine ⟨hC, (ih (hstep s i hs hC).1).1 fun o ho => hgood o ?_⟩
        exact List.mem_append_right _ ho
      · rintro ⟨hC, hrest⟩ o ho
        obtain ⟨hP, hout⟩ := hstep s i hs hC
        rcases List.mem_append.1 ho with ho | ho
        · exact hout o ho
        · exact (ih hP).2 hrest o ho

end Reactive
