/-
**Updating the first match of a list.**

A program that searches an array for the first record satisfying a test and then assigns to the
record it found is, on lists, `updateFirst p f l`: the first element satisfying `p` is replaced by
its image under `f`, and the list is left alone when nothing matches.  Positions never move, so a
record keeps its index for ever.

Main definitions:

* `FirstMatch.updateFirst` — the update.

Main results:

* `FirstMatch.updateFirst_eq_or_split` — what the update is, with the element it hit;
* `FirstMatch.getElem?_updateFirst` — the same read at an index;
* `FirstMatch.forall_mem_updateFirst` — the rule for a property of all elements;
* `FirstMatch.updateFirst_eq_map` — the update where the test singles out at most one element;
* `FirstMatch.forall₂_updateFirst` — the update as a pointwise relation between the two lists, with
  the rules that carry facts across such a relation.
-/

import Mathlib.Data.List.Forall2

namespace FirstMatch

variable {α β : Type*} (p : α → Bool) (f : α → α)

/-- Replace the first element satisfying `p` by its image under `f`. -/
def updateFirst (l : List α) : List α :=
  l.replaceF fun x => if p x then some (f x) else none

@[simp] theorem updateFirst_nil : updateFirst p f [] = [] := rfl

theorem updateFirst_cons (x : α) (l : List α) :
    updateFirst p f (x :: l) = if p x then f x :: l else x :: updateFirst p f l := by
  unfold updateFirst
  rw [List.replaceF_cons]
  by_cases h : p x <;> simp [h]

/-- The update either finds nothing and changes nothing, or hits the element that `find?`
returns. -/
theorem updateFirst_eq_or_split (l : List α) :
    (l.find? p = none ∧ updateFirst p f l = l) ∨
      ∃ a l₁ l₂, l.find? p = some a ∧ (∀ b ∈ l₁, p b = false) ∧ p a = true ∧
        l = l₁ ++ a :: l₂ ∧ updateFirst p f l = l₁ ++ f a :: l₂ := by
  induction l with
  | nil => exact Or.inl ⟨rfl, rfl⟩
  | cons x l ih =>
      rw [updateFirst_cons, List.find?_cons]
      cases hx : p x with
      | true => exact Or.inr ⟨x, [], l, rfl, by simp, hx, rfl, by simp⟩
      | false =>
          rcases ih with ⟨h₁, h₂⟩ | ⟨a, l₁, l₂, h₁, h₂, h₃, h₄, h₅⟩
          · exact Or.inl ⟨h₁, by simp [h₂]⟩
          · refine Or.inr ⟨a, x :: l₁, l₂, h₁, ?_, h₃, by rw [h₄]; rfl, by simp [h₅]⟩
            intro b hb
            rcases List.mem_cons.1 hb with rfl | hb
            · exact hx
            · exact h₂ b hb

variable {l : List α} {R : α → α → Prop}

theorem updateFirst_of_find?_none (h : l.find? p = none) : updateFirst p f l = l := by
  rcases updateFirst_eq_or_split p f l with ⟨_, h₂⟩ | ⟨a, _, _, h₁, _⟩
  · exact h₂
  · rw [h] at h₁; cases h₁

/-- At each index the update leaves the element alone, or the element there is the first match. -/
theorem getElem?_updateFirst (l : List α) (i : ℕ) :
    (updateFirst p f l)[i]? = l[i]? ∨
      ∃ a, l.find? p = some a ∧ l[i]? = some a ∧ (updateFirst p f l)[i]? = some (f a) := by
  rcases updateFirst_eq_or_split p f l with ⟨_, h⟩ | ⟨a, l₁, l₂, hfind, _, _, hl, hu⟩
  · exact Or.inl (by rw [h])
  · rw [hu, hl]
    rcases Nat.lt_trichotomy i l₁.length with h | h | h
    · exact Or.inl (by rw [List.getElem?_append_left h, List.getElem?_append_left h])
    · subst h
      exact Or.inr ⟨a, by rw [← hl]; exact hfind, by simp, by simp⟩
    · left
      obtain ⟨k, hk⟩ : ∃ k, i - l₁.length = k + 1 := ⟨i - l₁.length - 1, by omega⟩
      rw [List.getElem?_append_right (by omega), List.getElem?_append_right (by omega), hk]
      rfl

/-- A property of all elements survives, if the update keeps it at the element it hits. -/
theorem forall_mem_updateFirst {P : α → Prop} (hl : ∀ x ∈ l, P x)
    (hf : ∀ x ∈ l, l.find? p = some x → P x → P (f x)) : ∀ y ∈ updateFirst p f l, P y := by
  intro y hy
  rcases updateFirst_eq_or_split p f l with ⟨_, h⟩ | ⟨a, l₁, l₂, hfind, _, _, hl', hu⟩
  · rw [h] at hy
    exact hl y hy
  · rw [hu] at hy
    have ha : a ∈ l := by rw [hl']; simp
    rcases List.mem_append.1 hy with hy | hy
    · exact hl y (by rw [hl']; simp [hy])
    · rcases List.mem_cons.1 hy with rfl | hy
      · exact hf a ha hfind (hl a ha)
      · exact hl y (by rw [hl']; simp [hy])

/-- Where the test singles out at most one element, the update is a map. -/
theorem updateFirst_eq_map (h : l.Pairwise fun a b => p a = true → p b = false) :
    updateFirst p f l = l.map fun x => if p x then f x else x := by
  induction l with
  | nil => rfl
  | cons x l ih =>
      rw [List.pairwise_cons] at h
      rw [updateFirst_cons, List.map_cons]
      by_cases hx : p x = true
      · have hrest : l.map (fun x => if p x then f x else x) = l := by
          refine (List.map_congr_left fun y hy => ?_).trans (List.map_id l)
          simp [h.1 y hy hx]
        rw [if_pos hx, if_pos hx, hrest]
      · rw [if_neg hx, if_neg hx, ih h.2]

/-! ### Pointwise relations -/

/-- The update relates the two lists pointwise by any reflexive relation that `f` stays within. -/
theorem forall₂_updateFirst (hrefl : ∀ x, R x x)
    (hf : ∀ x, p x = true → R x (f x)) (l : List α) : List.Forall₂ R l (updateFirst p f l) := by
  induction l with
  | nil => exact List.Forall₂.nil
  | cons x l ih =>
      rw [updateFirst_cons]
      by_cases hx : p x = true
      · rw [if_pos hx]
        exact List.Forall₂.cons (hf x hx) (List.forall₂_same.2 fun y _ => hrefl y)
      · rw [if_neg hx]
        exact List.Forall₂.cons (hrefl x) ih

theorem forall₂_trans (htrans : ∀ x y z, R x y → R y z → R x z) {l₁ l₂ l₃ : List α}
    (h₁ : List.Forall₂ R l₁ l₂) (h₂ : List.Forall₂ R l₂ l₃) : List.Forall₂ R l₁ l₃ := by
  induction h₁ generalizing l₃ with
  | nil =>
      cases h₂
      exact List.Forall₂.nil
  | cons hxy _ ih =>
      cases h₂ with
      | cons hyz h₂ => exact List.Forall₂.cons (htrans _ _ _ hxy hyz) (ih h₂)

theorem exists_of_mem_left {R : α → β → Prop} {l₁ : List α} {l₂ : List β}
    (h : List.Forall₂ R l₁ l₂) {x : α} (hx : x ∈ l₁) : ∃ y ∈ l₂, R x y := by
  induction h with
  | nil => cases hx
  | cons hxy _ ih =>
      rcases List.mem_cons.1 hx with rfl | hx
      · exact ⟨_, List.mem_cons_self .., hxy⟩
      · obtain ⟨y, hy, hR⟩ := ih hx
        exact ⟨y, List.mem_cons_of_mem _ hy, hR⟩

theorem exists_of_mem_right {R : α → β → Prop} {l₁ : List α} {l₂ : List β}
    (h : List.Forall₂ R l₁ l₂) {y : β} (hy : y ∈ l₂) : ∃ x ∈ l₁, R x y := by
  induction h with
  | nil => cases hy
  | cons hxy _ ih =>
      rcases List.mem_cons.1 hy with rfl | hy
      · exact ⟨_, List.mem_cons_self .., hxy⟩
      · obtain ⟨x, hx, hR⟩ := ih hy
        exact ⟨x, List.mem_cons_of_mem _ hx, hR⟩

/-- A pairwise property survives a pointwise relation that carries it over. -/
theorem pairwise_of_forall₂ {S : α → α → Prop} (hS : ∀ x x' y y', R x x' → R y y' → S x y → S x' y')
    {l₁ l₂ : List α} (h : List.Forall₂ R l₁ l₂) (hl : l₁.Pairwise S) : l₂.Pairwise S := by
  induction h with
  | nil => exact List.Pairwise.nil
  | cons hxy hrest ih =>
      rw [List.pairwise_cons] at hl ⊢
      refine ⟨fun y hy => ?_, ih hl.2⟩
      obtain ⟨x, hx, hR⟩ := exists_of_mem_right hrest hy
      exact hS _ _ _ _ hxy hR (hl.1 x hx)

end FirstMatch
