/-
**Rows of a table.**

A table is the list of its rows.  The statements a database program runs on one are few: change the
rows that meet a condition, add a row, delete the rows that meet one, and pick the first `n` rows of
an order among those that meet one.  Each is a single atomic step, so that its `where` clause is
evaluated on the rows it changes.

Main definitions:

* `SqlTable.update` — `update … set … where …`;
* `SqlTable.firstBy` — `… order by … limit …`;
* `SqlTable.beyond` — the rows such a limit leaves out;
* `SqlTable.rowNumber` — `row_number() over (order by …)`.

Main results:

* `SqlTable.mem_update` — where a row of the updated table comes from;
* `SqlTable.mem_update_of_not` — a row the condition spares is still there;
* `SqlTable.map_update` — a column the update does not set;
* `SqlTable.find?_key_eq_some` — the row of a key, where keys are unique;
* `SqlTable.mem_firstBy_of_length_le` — a limit that does not bind;
* `SqlTable.head?_firstBy_filter` — the first row among some of the rows;
* `SqlTable.mem_firstBy_or_beyond` — every row is among the first or left out;
* `SqlTable.filter_rowNumber` — the rows numbered up to `n` are the first `n`.
-/

import Mathlib.Data.List.Sort

namespace SqlTable

variable {α β : Type*}

/-- Change the rows that meet `p`. -/
def update (p : α → Bool) (f : α → α) (rows : List α) : List α :=
  rows.map fun r => if p r then f r else r

@[simp] theorem update_nil (p : α → Bool) (f : α → α) : update p f [] = [] := rfl

@[simp] theorem update_cons (p : α → Bool) (f : α → α) (r : α) (rows : List α) :
    update p f (r :: rows) = (if p r then f r else r) :: update p f rows := rfl

@[simp] theorem update_id (p : α → Bool) (rows : List α) : update p id rows = rows := by
  simp [update]

variable {p : α → Bool} {f : α → α} {rows : List α} {r : α} {key : α → ℤ} {n : ℕ}

theorem mem_update :
    r ∈ update p f rows ↔ (r ∈ rows ∧ p r = false) ∨ ∃ a ∈ rows, p a = true ∧ f a = r := by
  simp only [update, List.mem_map]
  constructor
  · rintro ⟨a, ha, rfl⟩
    by_cases h : p a = true
    · exact .inr ⟨a, ha, h, by simp [h]⟩
    · exact .inl ⟨by simpa [h] using ha, by simp [h]⟩
  · rintro (⟨hr, h⟩ | ⟨a, ha, h, rfl⟩)
    · exact ⟨r, hr, by simp [h]⟩
    · exact ⟨a, ha, by simp [h]⟩

theorem mem_update_of_not (hr : r ∈ rows) (h : p r = false) : r ∈ update p f rows :=
  mem_update.2 (.inl ⟨hr, h⟩)

theorem mem_update_of (hr : r ∈ rows) (h : p r = true) : f r ∈ update p f rows :=
  mem_update.2 (.inr ⟨r, hr, h, rfl⟩)

theorem map_update {c : α → β} (hc : ∀ r, c (f r) = c r)
    (rows : List α) : (update p f rows).map c = rows.map c := by
  rw [update, List.map_map]
  refine List.map_congr_left fun r _ => ?_
  by_cases h : p r = true
  · simp [h, hc]
  · simp [h]

theorem find?_key_eq_some {key : α → β} [DecidableEq β] (h : (rows.map key).Nodup)
    {k : β} : rows.find? (fun a => key a == k) = some r ↔ r ∈ rows ∧ key r = k := by
  constructor
  · intro hr
    exact ⟨List.mem_of_find?_eq_some hr, by simpa using List.find?_some hr⟩
  · rintro ⟨hr, rfl⟩
    cases hfind : rows.find? fun a => key a == key r with
    | none => exact absurd (by simp) (List.find?_eq_none.1 hfind r hr)
    | some a =>
        have hkey : key a = key r := by simpa using List.find?_some hfind
        exact congrArg some
          (List.inj_on_of_nodup_map h (List.mem_of_find?_eq_some hfind) hr hkey)

/-- The first `n` rows in the order of `key`. -/
def firstBy (key : α → ℤ) (n : ℕ) (rows : List α) : List α :=
  (rows.insertionSort fun a b => key a ≤ key b).take n

/-- The rows that `firstBy` leaves out. -/
def beyond (key : α → ℤ) (n : ℕ) (rows : List α) : List α :=
  (rows.insertionSort fun a b => key a ≤ key b).drop n

theorem mem_of_mem_firstBy (hr : r ∈ firstBy key n rows) : r ∈ rows :=
  (List.mem_insertionSort _).1 (List.mem_of_mem_take hr)

theorem mem_firstBy_or_beyond (hr : r ∈ rows) : r ∈ firstBy key n rows ∨ r ∈ beyond key n rows := by
  have hsorted := (List.mem_insertionSort fun a b : α => key a ≤ key b).2 hr
  rw [← List.take_append_drop n (rows.insertionSort fun a b => key a ≤ key b)] at hsorted
  exact List.mem_append.1 hsorted

theorem length_firstBy (key : α → ℤ) (n : ℕ) (rows : List α) :
    (firstBy key n rows).length = min n rows.length := by
  rw [firstBy, List.length_take, List.length_insertionSort]

theorem nodup_map_firstBy {c : α → β}
    (h : (rows.map c).Nodup) : ((firstBy key n rows).map c).Nodup := by
  have hsorted : ((rows.insertionSort fun a b => key a ≤ key b).map c).Nodup :=
    (((List.perm_insertionSort _ rows).map c).nodup_iff).2 h
  exact hsorted.sublist ((List.take_sublist _ _).map c)

theorem mem_firstBy_of_length_le
    (h : rows.length ≤ n) (hr : r ∈ rows) : r ∈ firstBy key n rows := by
  rw [firstBy, List.take_of_length_le (by rwa [List.length_insertionSort])]
  exact (List.mem_insertionSort _).2 hr

theorem filter_insertionSort (key : α → ℤ) (p : α → Bool) (rows : List α) :
    (rows.insertionSort fun a b => key a ≤ key b).filter p =
      (rows.filter p).insertionSort fun a b => key a ≤ key b := by
  have hfirst : ∀ (a : α) (l : List α), (∀ b ∈ l, key a ≤ key b) →
      l.orderedInsert (fun a b => key a ≤ key b) a = a :: l := by
    intro a l hl
    cases l with
    | nil => rfl
    | cons b l => exact List.orderedInsert_cons_of_le _ l (hl b (List.mem_cons_self ..))
  have hinsert : ∀ (a : α) (l : List α), (l.Pairwise fun a b => key a ≤ key b) →
      (l.orderedInsert (fun a b => key a ≤ key b) a).filter p =
        if p a then (l.filter p).orderedInsert (fun a b => key a ≤ key b) a else l.filter p := by
    intro a l hl
    induction l with
    | nil => by_cases ha : p a = true <;> simp [ha]
    | cons b l ih =>
        obtain ⟨hb, hl⟩ := List.pairwise_cons.1 hl
        by_cases hab : key a ≤ key b
        · have hall : ∀ c ∈ (b :: l).filter p, key a ≤ key c := by
            intro c hc
            rcases List.mem_cons.1 (List.mem_filter.1 hc).1 with rfl | hc
            · exact hab
            · exact hab.trans (hb c hc)
          rw [hfirst a _ hall, List.orderedInsert_cons, if_pos hab, List.filter_cons]
        · rw [List.orderedInsert_cons, if_neg hab, List.filter_cons, ih hl, List.filter_cons]
          by_cases hpb : p b = true <;> by_cases ha : p a = true <;> simp [hpb, ha, hab]
  induction rows with
  | nil => rfl
  | cons a rows ih =>
      rw [List.insertionSort_cons, hinsert a _ (List.pairwise_insertionSort _ _), ih,
        List.filter_cons]
      by_cases ha : p a = true <;> simp [ha]

/-! ### The first row -/

theorem head?_firstBy_eq_none : (firstBy key 1 rows).head? = none ↔ rows = [] := by
  rw [List.head?_eq_none_iff, ← List.length_eq_zero_iff, length_firstBy, ← List.length_eq_zero_iff]
  omega

theorem head?_firstBy_filter (hr : (firstBy key 1 rows).head? = some r) (hp : p r = true) :
    (firstBy key 1 (rows.filter p)).head? = some r := by
  unfold firstBy at hr ⊢
  rw [← filter_insertionSort]
  cases hsorted : rows.insertionSort fun a b => key a ≤ key b with
  | nil =>
      rw [hsorted] at hr
      cases hr
  | cons b l =>
      rw [hsorted] at hr
      obtain rfl : b = r := by simpa using hr
      rw [List.filter_cons_of_pos hp]
      rfl

theorem countP_update (q p : α → Bool) (f : α → α) (rows : List α) :
    (update p f rows).countP q = rows.countP fun r => if p r then q (f r) else q r := by
  rw [update, List.countP_map]
  refine List.countP_congr fun r _ => ?_
  by_cases h : p r = true
  · simp [h]
  · simp [h]

/-! ### Row numbers -/

/-- `row_number() over (order by …)`, for an order in which `before` says which row comes first. -/
def rowNumber (before : α → α → Bool) (rows : List α) (r : α) : ℕ :=
  rows.countP (fun a => before a r) + 1

/-- In a list in that order the row numbers are the places, so that those up to `n` are the first
`n` rows. -/
theorem filter_rowNumber {before : α → α → Bool} {rows sorted : List α} (hperm : sorted.Perm rows)
    (hsorted : sorted.Pairwise fun a b => before a b = true)
    (hasymm : ∀ a b, before a b = true → before b a = false) (n : ℕ) :
    sorted.filter (fun r => decide (rowNumber before rows r ≤ n)) = sorted.take n := by
  -- the row numbers behind a prefix of the list
  have hplace : ∀ front back, front ++ back = sorted →
      back.filter (fun r => decide (rowNumber before rows r ≤ n)) =
        back.take (n - front.length) := by
    intro front back
    induction back generalizing front with
    | nil => intro _; simp
    | cons r back ih =>
        intro hsplit
        have hrest := ih (front ++ [r]) (by simpa using hsplit)
        have hnumber : rowNumber before rows r = front.length + 1 := by
          rw [rowNumber, ← hperm.countP_eq, ← hsplit]
          rw [← hsplit] at hsorted
          obtain ⟨-, hback, hfront⟩ := List.pairwise_append.1 hsorted
          have hself : before r r = false := by
            by_contra h
            have h' : before r r = true := by simpa using h
            rw [hasymm r r h'] at h'
            cases h'
          have h₁ : front.countP (fun a => before a r) = front.length :=
            List.countP_eq_length.2 fun a ha => hfront a ha r (List.mem_cons_self ..)
          have h₂ : back.countP (fun a => before a r) = 0 := by
            refine List.countP_eq_zero.2 fun a ha => ?_
            rw [hasymm r a ((List.pairwise_cons.1 hback).1 a ha)]
            decide
          rw [List.countP_append, List.countP_cons, h₁, h₂, hself]
          simp
        rw [List.filter_cons, hnumber, hrest, List.length_append, List.length_singleton]
        by_cases hle : front.length + 1 ≤ n
        · obtain ⟨k, hk⟩ : ∃ k, n - front.length = k + 1 := ⟨n - front.length - 1, by omega⟩
          have hk' : n - (front.length + 1) = k := by omega
          rw [if_pos (by simpa using hle), hk, hk', List.take_succ_cons]
        · have hz : n - front.length = 0 := by omega
          have hz' : n - (front.length + 1) = 0 := by omega
          rw [if_neg (by simpa using hle), hz, hz', List.take_zero, List.take_zero]
  exact hplace [] sorted rfl

end SqlTable
