/-
**Packing a sequence in order.**

The members of a sequence go into bins of one capacity, in their order, and a member that does not
fit into the current bin opens the next one.  No other way to cut the sequence into pieces that fit
takes fewer bins: a bin that is fuller now costs at most one bin later, whatever comes.  A sequence
that fits into a single larger bin takes that one.

Main definitions:

* `Packing.opened` — the bins that the loop opens after the current one;
* `Packing.count` — the bins taken, where a single one may be larger.

Main results:

* `Packing.opened_le` — heavier members in smaller bins take no fewer bins;
* `Packing.isLeast_count` — **the count is the least number of pieces**;
* `Packing.count_le` — **it does not decrease** as members become heavier or are added behind.
-/

import Mathlib.Algebra.Ring.Nat
import Mathlib.Algebra.Order.BigOperators.Group.List
import Mathlib.Order.Bounds.Basic

namespace Packing

variable {α β : Type*}

/-- The bins that are opened after the current one, in which `used` units are taken. -/
def opened (w : α → ℕ) (cap : ℕ) : ℕ → List α → ℕ
  | _, [] => 0
  | used, a :: l =>
    if used + w a > cap then opened w cap (w a) l + 1 else opened w cap (used + w a) l

/-- The bins taken, where all goes into one of capacity `single` if it fits. -/
def count (w : α → ℕ) (single cap : ℕ) (l : List α) : ℕ :=
  if (l.map w).sum = 0 then 0
  else if (l.map w).sum ≤ single then 1
  else opened w cap 0 l + 1

def Fits (w : α → ℕ) (single cap : ℕ) (pieces : List (List α)) : Prop :=
  ∀ p ∈ pieces, (p.map w).sum ≤ if pieces.length ≤ 1 then single else cap

variable {w : α → ℕ} {l : List α}

/-- **Heavier members in smaller bins take no fewer bins**, and a fuller bin to begin with saves one
at most. -/
theorem opened_le {w' : β → ℕ} {cap cap' k : ℕ} (hcap : k * cap' ≤ cap) {front : List β}
    (h : List.Forall₂ (fun a b => w a ≤ k * w' b) l front) (back : List β) :
    ∀ u u', opened w cap u l ≤ opened w' cap' u' (front ++ back) + 1 ∧
      (u ≤ k * u' → opened w cap u l ≤ opened w' cap' u' (front ++ back)) := by
  induction h with
  | nil => exact fun _ _ => ⟨Nat.zero_le _, fun _ => Nat.zero_le _⟩
  | @cons a b l front hab _ ih =>
    intro u u'
    have hnew := ih (w a) (w' b)
    have hfull := ih (u + w a) (w' b)
    have hold := ih (w a) (u' + w' b)
    have hboth := ih (u + w a) (u' + w' b)
    have hmul : k * (u' + w' b) = k * u' + k * w' b := Nat.mul_add ..
    rw [List.cons_append, opened, opened]
    by_cases hover : u' + w' b > cap'
    · rw [if_pos hover]
      split
      · exact ⟨by have := hnew.2 hab; omega, fun _ => by have := hnew.2 hab; omega⟩
      · exact ⟨by have := hfull.1; omega, fun _ => by have := hfull.1; omega⟩
    · rw [if_neg hover]
      have hfits : k * (u' + w' b) ≤ k * cap' := Nat.mul_le_mul_left k (by omega)
      split
      · refine ⟨by have := hold.2 (by omega); omega, fun hu => ?_⟩
        -- what fits into the smaller bin fits into the larger one
        omega
      · exact ⟨hboth.1, fun hu => hboth.2 (by omega)⟩

theorem opened_le_succ (w : α → ℕ) (cap u u' : ℕ) (l : List α) :
    opened w cap u l ≤ opened w cap u' l + 1 := by
  have hsame : List.Forall₂ (fun a b => w a ≤ 1 * w b) l l :=
    List.forall₂_same.2 fun a _ => (Nat.one_mul (w a)).ge
  have h := (opened_le (Nat.one_mul cap).le hsame [] u u').1
  rwa [List.append_nil] at h

theorem opened_le_of_pieces {cap : ℕ} (l : List α) :
    ∀ (first : List α) (pieces : List (List α)) (used : ℕ), first ++ pieces.flatten = l →
      used + (first.map w).sum ≤ cap → (∀ p ∈ pieces, (p.map w).sum ≤ cap) →
        opened w cap used l ≤ pieces.length := by
  induction l with
  | nil => exact fun _ _ _ _ _ _ => Nat.zero_le _
  | cons a l ih =>
    intro first pieces used hjoin hfirst hpieces
    cases first with
    | cons b first =>
      obtain ⟨rfl, hrest⟩ := List.cons.inj hjoin
      rw [List.map_cons, List.sum_cons] at hfirst
      rw [opened, if_neg (by omega)]
      exact ih first pieces (used + w b) hrest (by omega) hpieces
    | nil =>
      -- the member is the first of the first piece that is not empty
      induction pieces with
      | nil => cases hjoin
      | cons p pieces ihp =>
        have hlater := fun q hq => hpieces q (List.mem_cons_of_mem _ hq)
        cases p with
        | nil =>
          have hle := ihp hlater hjoin
          rw [List.length_cons]
          omega
        | cons b p =>
          obtain ⟨rfl, hrest⟩ := List.cons.inj hjoin
          have hp := hpieces (b :: p) (List.mem_cons_self ..)
          rw [List.map_cons, List.sum_cons] at hp
          have hle := ih p pieces (w b) hrest hp hlater
          have hsucc := opened_le_succ w cap (used + w b) (w b) l
          rw [opened, List.length_cons]
          split <;> omega

theorem exists_pieces {cap : ℕ} (hl : ∀ a ∈ l, w a ≤ cap) :
    ∀ used ≤ cap, ∃ (first : List α) (pieces : List (List α)), first ++ pieces.flatten = l ∧
      used + (first.map w).sum ≤ cap ∧ (∀ p ∈ pieces, (p.map w).sum ≤ cap) ∧
        pieces.length = opened w cap used l := by
  induction l with
  | nil => exact fun used hused => ⟨[], [], rfl, hused, fun _ h => (List.not_mem_nil h).elim, rfl⟩
  | cons a l ih =>
    intro used hused
    rw [List.forall_mem_cons] at hl
    by_cases hover : used + w a > cap
    · obtain ⟨first, pieces, rfl, hfirst, hpieces, hlength⟩ := ih hl.2 (w a) hl.1
      refine ⟨[], (a :: first) :: pieces, rfl, hused, ?_, ?_⟩
      · rw [List.forall_mem_cons, List.map_cons, List.sum_cons]
        exact ⟨hfirst, hpieces⟩
      · rw [opened, if_pos hover, List.length_cons, hlength]
    · obtain ⟨first, pieces, rfl, hfirst, hpieces, hlength⟩ := ih hl.2 (used + w a) (by omega)
      refine ⟨a :: first, pieces, rfl, ?_, hpieces, ?_⟩
      · rw [List.map_cons, List.sum_cons]
        omega
      · rw [opened, if_neg hover, hlength]

/-- **The count is the least number of pieces** that fit and join up to the sequence. -/
theorem isLeast_count {single cap : ℕ} (hl : ∀ a ∈ l, 0 < w a ∧ w a ≤ cap)
    (hsingle : cap ≤ single) :
    IsLeast {n | ∃ pieces, pieces.flatten = l ∧ Fits w single cap pieces ∧ pieces.length = n}
      (count w single cap l) := by
  have hempty : (l.map w).sum = 0 → l = [] := by
    intro hsum
    cases l with
    | nil => rfl
    | cons a l =>
      have hpos := (hl a (List.mem_cons_self ..)).1
      rw [List.map_cons, List.sum_cons] at hsum
      omega
  unfold count
  constructor
  · split_ifs with hzero hone
    · exact ⟨[], (hempty hzero).symm, fun _ h => (List.not_mem_nil h).elim, rfl⟩
    · refine ⟨[l], by simp, fun p hp => ?_, rfl⟩
      rw [List.mem_singleton.1 hp]
      exact hone
    · obtain ⟨first, pieces, hjoin, hfirst, hpieces, hlength⟩ :=
        exists_pieces (fun a ha => (hl a ha).2) 0 (Nat.zero_le cap)
      refine ⟨first :: pieces, hjoin, fun p hp => ?_, by rw [List.length_cons, hlength]⟩
      have hfit : (p.map w).sum ≤ cap := by
        rcases List.mem_cons.1 hp with rfl | hp
        · omega
        · exact hpieces p hp
      split <;> omega
  · rintro n ⟨pieces, hjoin, hfits, rfl⟩
    match pieces with
    | [] =>
      have hsum : (l.map w).sum = 0 := by rw [← hjoin]; rfl
      rw [if_pos hsum]
      exact Nat.zero_le _
    | [p] =>
      have hsum := hfits p (List.mem_singleton_self p)
      rw [List.flatten_singleton] at hjoin
      rw [hjoin] at hsum
      split_ifs with hzero hone
      · exact Nat.zero_le _
      · exact le_refl _
      · exact absurd hsum hone
    | p :: q :: pieces =>
      have hcap : ∀ r ∈ p :: q :: pieces, (r.map w).sum ≤ cap := hfits
      rw [List.forall_mem_cons] at hcap
      have hle := opened_le_of_pieces l p (q :: pieces) 0 hjoin (by omega) hcap.2
      rw [List.length_cons] at hle ⊢
      rw [List.length_cons]
      split_ifs <;> omega

/-- **The count does not decrease** as members become heavier, bins smaller, or members are added
behind. -/
theorem count_le {w' : β → ℕ} {single single' cap cap' k : ℕ} (hcap : k * cap' ≤ cap)
    (hsingle : k * single' ≤ single) {front : List β}
    (h : List.Forall₂ (fun a b => w a ≤ k * w' b) l front) (back : List β) :
    count w single cap l ≤ count w' single' cap' (front ++ back) := by
  have hsum : (l.map w).sum ≤ k * ((front ++ back).map w').sum := by
    have hfront : (l.map w).sum ≤ k * (front.map w').sum := by
      induction h with
      | nil => exact Nat.zero_le _
      | cons hab _ ih =>
        rw [List.map_cons, List.sum_cons, List.map_cons, List.sum_cons, Nat.mul_add]
        omega
    rw [List.map_append, List.sum_append, Nat.mul_add]
    omega
  have hopened := (opened_le hcap h back 0 0).2 (Nat.zero_le _)
  unfold count
  by_cases hzero : ((front ++ back).map w').sum = 0
  · rw [hzero, Nat.mul_zero] at hsum
    rw [if_pos (Nat.le_zero.1 hsum), if_pos hzero]
  · rw [if_neg hzero]
    by_cases hone : ((front ++ back).map w').sum ≤ single'
    · have hsmall : k * ((front ++ back).map w').sum ≤ k * single' := Nat.mul_le_mul_left k hone
      rw [if_pos hone]
      split_ifs <;> omega
    · rw [if_neg hone]
      split_ifs <;> omega

end Packing
