/-
**A queue whose members may stay in front.**

A round serves the first `c` members of a queue.  Some of these leave it, and the others keep their
places, so that the next round serves them again before it comes to those behind.  Over `m` rounds
there are `c * m` turns, and every turn of a member that stays is a turn that somebody behind does
not get, unless it was in the last round.

Main result:

* `Turns.all_served_iff` — **everybody is served** exactly when the members and the turns of those
  who stayed fit into the rounds.
-/

import Mathlib.Data.List.Nodup
import Mathlib.Data.List.TakeDrop

namespace Turns

variable {α : Type*}

/-- The queue after a round. -/
def serve (c : ℕ) (stay : α → Bool) (l : List α) : List α :=
  (l.take c).filter stay ++ l.drop c

/-- Those who are served, round by round. -/
def served (c : ℕ) : List α → List (α → Bool) → List α
  | _, [] => []
  | l, stay :: stays => l.take c ++ served c (serve c stay l) stays

/-- The turns of members that stayed, but for those of the last round. -/
def stayed (c : ℕ) : List α → List (α → Bool) → ℕ
  | _, [] => 0
  | _, [_] => 0
  | l, stay :: stay' :: stays =>
      (l.take c).countP stay + stayed c (serve c stay l) (stay' :: stays)

theorem back_served_iff (c : ℕ) (stay : α → Bool) (stays : List (α → Bool)) {front back : List α}
    (hfront : front.length ≤ c) (hnodup : (front ++ back).Nodup) :
    (∀ a ∈ back, a ∈ served c (front ++ back) (stay :: stays)) ↔
      (front ++ back).length + stayed c (front ++ back) (stay :: stays) ≤
        c * (stays.length + 1) := by
  induction stays generalizing stay front back with
  | nil =>
      simp only [served, stayed, List.append_nil, List.length_nil, Nat.add_zero, Nat.zero_add,
        Nat.mul_one]
      constructor
      · intro h
        by_contra hlong
        -- the last member is behind the first `c`
        have hback : back.drop (c - front.length) ≠ [] := by
          rw [ne_eq, List.drop_eq_nil_iff]
          rw [List.length_append] at hlong
          omega
        obtain ⟨a, ha⟩ := List.exists_mem_of_ne_nil _ hback
        have htake : a ∈ (front ++ back).take c := h a (List.mem_of_mem_drop ha)
        have hdrop : a ∈ (front ++ back).drop c := by
          rw [List.drop_append, List.drop_eq_nil_of_le hfront]
          exact ha
        exact List.disjoint_take_drop hnodup (Nat.le_refl c) htake hdrop
      · intro h a ha
        rw [List.take_of_length_le h]
        exact List.mem_append_right _ ha
  | cons stay' stays ih =>
      have hdrop : (front ++ back).drop c = back.drop (c - front.length) := by
        rw [List.drop_append, List.drop_eq_nil_of_le hfront, List.nil_append]
      have hstays : ((((front ++ back).take c).filter stay).length) ≤ c :=
        Nat.le_trans (List.length_filter_le _ _) (List.length_take_le _ _)
      have hserve : (serve c stay (front ++ back)).Nodup := by
        refine hnodup.sublist ?_
        conv_rhs => rw [← List.take_append_drop c (front ++ back)]
        exact (List.filter_sublist ..).append (List.Sublist.refl _)
      have hrest := ih stay' hstays hserve
      -- who is not among the first waits for the other rounds
      have hlater : (∀ a ∈ back, a ∈ served c (front ++ back) (stay :: stay' :: stays)) ↔
          ∀ a ∈ (front ++ back).drop c,
            a ∈ served c (serve c stay (front ++ back)) (stay' :: stays) := by
        constructor
        · intro h a ha
          have hback : a ∈ back := List.mem_of_mem_drop (hdrop ▸ ha)
          rcases List.mem_append.1 (h a hback) with htake | hrest
          · exact absurd ha (List.disjoint_take_drop hnodup (Nat.le_refl c) htake)
          · exact hrest
        · intro h a ha
          have hmem : a ∈ (front ++ back).take c ++ (front ++ back).drop c := by
            rw [List.take_append_drop]
            exact List.mem_append_right _ ha
          rcases List.mem_append.1 hmem with htake | hlast
          · exact List.mem_append_left _ htake
          · exact List.mem_append_right _ (h a hlast)
      rw [hlater, serve, hrest, List.length_append, List.length_drop, stayed, serve,
        List.countP_eq_length_filter, List.length_cons, Nat.mul_add c (stays.length + 1)]
      by_cases hlong : c ≤ (front ++ back).length
      · omega
      · -- the first round reaches everybody, and so the others do
        have hall : (front ++ back).drop c = [] := List.drop_eq_nil_of_le (by omega)
        have hsecond := hrest.1 (by rw [hall]; intro a ha; cases ha)
        rw [List.length_append, List.length_drop] at hsecond
        omega

/-- **Everybody is served** exactly when the members and the turns of those who stayed fit into the
rounds. -/
theorem all_served_iff (c : ℕ) {l : List α} (hnodup : l.Nodup) (stay : α → Bool)
    (stays : List (α → Bool)) :
    (∀ a ∈ l, a ∈ served c l (stay :: stays)) ↔
      l.length + stayed c l (stay :: stays) ≤ c * (stays.length + 1) :=
  @back_served_iff α c stay stays [] l (Nat.zero_le c) hnodup

end Turns
