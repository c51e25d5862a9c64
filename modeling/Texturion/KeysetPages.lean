/-
**Listing a table page by page.**

A table is listed in the order of a rank.  A page is the first rows behind a cursor, which is what
was kept of the last row of the page before; one row more is read, to see whether another page
follows.  Between two pages the table may change in any way.

Main definitions:

* `KeysetPages.Listing` — the cursor of a row, its rank and the filter behind a cursor;
* `KeysetPages.Listing.walk` — the pages that are read one after another.

Main results:

* `KeysetPages.Listing.walk_lists` — **no row is listed twice, and what stays is listed**, whatever
  comes and goes;
* `KeysetPages.Listing.walk_still` — **what does not change is listed in full**.
-/

import Mathlib.Data.List.Sort

namespace KeysetPages

/-- How a table is listed. -/
structure Listing (α γ κ : Type*) [LinearOrder κ] where
  /-- What the cursor keeps of a row. -/
  mark : α → γ
  rank : γ → κ
  passes : γ → α → Bool
  passes_iff : ∀ c a, passes c a = true ↔ rank c < rank (mark a)

/-- A page, and the cursor of the next one. -/
structure Page (α γ : Type*) where
  data : List α
  next : Option γ

namespace Listing

variable {α γ κ : Type*} [LinearOrder κ] (l : Listing α γ κ)

def key (a : α) : κ := l.rank (l.mark a)

def sort (table : List α) : List α := table.insertionSort fun a b => l.key a ≤ l.key b

/-- The first `n` rows behind a cursor. -/
def select (n : ℕ) (cursor : Option γ) (table : List α) : List α :=
  (l.sort (table.filter fun a => cursor.all (l.passes · a))).take n

def cut (limit : ℕ) (rows : List α) : Page α γ :=
  if rows.length ≤ limit then ⟨rows, none⟩
  else ⟨rows.take limit, (rows.take limit).getLast?.map l.mark⟩

def page (limit : ℕ) (cursor : Option γ) (table : List α) : Page α γ :=
  l.cut limit (l.select (limit + 1) cursor table)

/-- The pages from a cursor on, each read from the table that is there by then. -/
def walk (limit : ℕ) : Option γ → List (List α) → List (Page α γ)
  | _, [] => []
  | cursor, table :: tables =>
      l.page limit cursor table :: match (l.page limit cursor table).next with
        | none => []
        | some c => walk limit (some c) tables

/-- The last page has been read. -/
def Ended (pages : List (Page α γ)) : Prop := ∃ p ∈ pages, p.next.isNone = true

instance (pages : List (Page α γ)) : Decidable (Ended pages) :=
  inferInstanceAs (Decidable (∃ p ∈ pages, _))

/-- No two rows have one rank. -/
def Distinct (table : List α) : Prop := (table.map l.key).Nodup

def Behind (cursor : Option γ) (k : κ) : Prop := ∀ c ∈ cursor, l.rank c < k

/-! ### Sorted tables -/

theorem mem_sort {table : List α} {a : α} : a ∈ l.sort table ↔ a ∈ table :=
  List.mem_insertionSort _

variable {l}

theorem distinct_of_ids {ι : Type*} {id : α → ι} {table : List α} (h : (table.map id).Nodup)
    (hid : ∀ a b, l.key a = l.key b → id a = id b) : l.Distinct table :=
  List.pairwise_map.2 ((List.pairwise_map.1 h).imp fun hne hkey => hne (hid _ _ hkey))

theorem Distinct.filter {table : List α} (h : l.Distinct table) (p : α → Bool) :
    l.Distinct (table.filter p) :=
  h.sublist (List.filter_sublist.map _)

theorem Distinct.sort {table : List α} (h : l.Distinct table) :
    (l.sort table).Pairwise fun a b => l.key a < l.key b := by
  have htotal : Std.Total fun a b : α => l.key a ≤ l.key b := ⟨fun _ _ => le_total _ _⟩
  have htrans : IsTrans α fun a b => l.key a ≤ l.key b := ⟨fun _ _ _ => le_trans⟩
  have hle : (l.sort table).Pairwise fun a b => l.key a ≤ l.key b :=
    List.pairwise_insertionSort _ _
  have hne : (l.sort table).Pairwise fun a b => l.key a ≠ l.key b := by
    refine List.pairwise_map.1 (?_ : ((l.sort table).map l.key).Nodup)
    exact ((List.perm_insertionSort _ table).map l.key).nodup_iff.2 h
  exact (hle.and hne).imp fun hab => lt_of_le_of_ne hab.1 hab.2

theorem ascending_ext {xs ys : List α} (hx : xs.Pairwise fun a b => l.key a < l.key b)
    (hy : ys.Pairwise fun a b => l.key a < l.key b) (h : ∀ a, a ∈ xs ↔ a ∈ ys) : xs = ys := by
  have hirrefl : Std.Irrefl fun a b : α => l.key a < l.key b := ⟨fun _ => lt_irrefl _⟩
  have hantisymm : Std.Antisymm fun a b : α => l.key a < l.key b :=
    ⟨fun _ _ hab hba => absurd hab hba.not_gt⟩
  exact hx.eq_of_mem_iff hy h

/-! ### One page -/

variable (l) (limit : ℕ) (cursor : Option γ) (table : List α)

/-- The rows a page is taken from. -/
def behind : List α := l.sort (table.filter fun a => cursor.all (l.passes · a))

theorem mem_behind {a : α} :
    a ∈ l.behind cursor table ↔ a ∈ table ∧ l.Behind cursor (l.key a) := by
  rw [behind, mem_sort, List.mem_filter, Option.all_eq_true]
  simp only [l.passes_iff]
  rfl

variable {table} in
theorem behind_ascending (h : l.Distinct table) :
    (l.behind cursor table).Pairwise fun a b => l.key a < l.key b :=
  (h.filter _).sort

theorem page_cases (hlimit : 1 ≤ limit) :
    ((l.behind cursor table).length ≤ limit ∧
        l.page limit cursor table = ⟨l.behind cursor table, none⟩) ∨
      limit < (l.behind cursor table).length ∧
        ∃ last ∈ ((l.behind cursor table).take limit).getLast?,
          l.page limit cursor table =
            ⟨(l.behind cursor table).take limit, some (l.mark last)⟩ := by
  have hselect : l.select (limit + 1) cursor table = (l.behind cursor table).take (limit + 1) := rfl
  rw [page, cut, hselect, List.length_take, List.take_take, Nat.min_eq_left (Nat.le_succ limit)]
  rcases Nat.lt_or_ge limit (l.behind cursor table).length with h | h
  · right
    obtain ⟨last, hlast⟩ := Option.isSome_iff_exists.1 (List.getLast?_isSome.2
      (List.ne_nil_of_length_pos (l := (l.behind cursor table).take limit) (by simp; omega)))
    rw [if_neg (by omega)]
    exact ⟨h, last, hlast, by rw [hlast]; rfl⟩
  · left
    rw [if_pos (by omega), List.take_of_length_le (by omega)]
    exact ⟨h, rfl⟩

/-! ### Walks -/

variable {limit : ℕ} (cursor : Option γ) {tables : List (List α)}

def rows (pages : List (Page α γ)) : List α := pages.flatMap Page.data

variable {l}

/-- A row of a page lies no further than the row the next cursor is taken from. -/
theorem le_last {xs : List α} (h : xs.Pairwise fun a b => l.key a < l.key b) {a last : α}
    (ha : a ∈ xs) (hlast : last ∈ xs.getLast?) : l.key a ≤ l.key last := by
  obtain ⟨front, rfl⟩ := List.getLast?_eq_some_iff.1 hlast
  rcases List.mem_append.1 ha with ha | ha
  · exact ((List.pairwise_append.1 h).2.2 a ha last (List.mem_singleton_self _)).le
  · exact (List.mem_singleton.1 ha ▸ le_rfl)

variable (hlimit : 1 ≤ limit) (h : ∀ table ∈ tables, l.Distinct table)
include hlimit h

theorem walk_ascending :
    (rows (l.walk limit cursor tables)).Pairwise (fun a b => l.key a < l.key b) ∧
      ∀ a ∈ rows (l.walk limit cursor tables),
        l.Behind cursor (l.key a) ∧ ∃ table ∈ tables, a ∈ table := by
  induction tables generalizing cursor with
  | nil => simp [walk, rows]
  | cons table tables ih =>
      rw [List.forall_mem_cons] at h
      have hsorted := l.behind_ascending cursor h.1
      have hmem : ∀ a ∈ l.behind cursor table,
          l.Behind cursor (l.key a) ∧ ∃ t ∈ table :: tables, a ∈ t := by
        intro a ha
        obtain ⟨hin, hbehind⟩ := (l.mem_behind cursor table).1 ha
        exact ⟨hbehind, table, List.mem_cons_self .., hin⟩
      rcases l.page_cases limit cursor table hlimit with ⟨-, hpage⟩ | ⟨-, last, hlast, hpage⟩
      · simp only [walk, hpage, rows, List.flatMap_singleton]
        exact ⟨hsorted, hmem⟩
      · obtain ⟨hrest, hrestMem⟩ := ih (some (l.mark last)) h.2
        have hfront := hsorted.sublist (List.take_sublist limit _)
        simp only [walk, hpage, rows, List.flatMap_cons, List.pairwise_append, List.mem_append]
        refine ⟨⟨hfront, hrest, ?_⟩, ?_⟩
        · intro a ha b hb
          exact (le_last hfront ha hlast).trans_lt ((hrestMem b hb).1 _ rfl)
        · rintro a (ha | ha)
          · exact hmem a (List.mem_of_mem_take ha)
          · obtain ⟨hbehind, t, ht, hat⟩ := hrestMem a ha
            refine ⟨fun c hc => ?_, t, List.mem_cons_of_mem _ ht, hat⟩
            exact ((hmem last (List.mem_of_mem_take (List.mem_of_getLast? hlast))).1 c hc).trans
              (hbehind _ rfl)

/-- What stays is listed. -/
theorem walk_covers {k : κ} (hk : ∀ table ∈ tables, ∃ a ∈ table, l.key a = k)
    (hbehind : l.Behind cursor k) (hended : Ended (l.walk limit cursor tables)) :
    ∃ a ∈ rows (l.walk limit cursor tables), l.key a = k := by
  induction tables generalizing cursor with
  | nil => obtain ⟨p, hp, -⟩ := hended; cases hp
  | cons table tables ih =>
      rw [List.forall_mem_cons] at h hk
      obtain ⟨a, ha, rfl⟩ := hk.1
      have hin := (l.mem_behind cursor table).2 ⟨ha, hbehind⟩
      have hsorted := l.behind_ascending cursor h.1
      rcases l.page_cases limit cursor table hlimit with ⟨-, hpage⟩ | ⟨-, last, hlast, hpage⟩
      · exact ⟨a, by simpa [walk, rows, hpage] using hin, rfl⟩
      · simp only [walk, hpage, rows, List.flatMap_cons, List.mem_append]
        rcases lt_or_ge (l.key last) (l.key a) with hlt | hge
        · have hrest : Ended (l.walk limit (some (l.mark last)) tables) := by
            obtain ⟨p, hp, hnone⟩ := hended
            simp only [walk, hpage] at hp
            rcases List.mem_cons.1 hp with rfl | hp
            · cases hnone
            · exact ⟨p, hp, hnone⟩
          obtain ⟨b, hb, heq⟩ := ih _ h.2 hk.2 (by rintro _ ⟨⟩; exact hlt) hrest
          exact ⟨b, .inr hb, heq⟩
        · refine ⟨a, .inl ?_, rfl⟩
          -- behind the page there are only rows further than its last one
          rw [← List.take_append_drop limit (l.behind cursor table)] at hin hsorted
          refine (List.mem_append.1 hin).resolve_right fun hdrop => hge.not_gt ?_
          exact (List.pairwise_append.1 hsorted).2.2 last (List.mem_of_getLast? hlast) a hdrop

omit cursor in
/-- **What a walk lists**, from the beginning on. -/
theorem walk_lists :
    (rows (l.walk limit none tables)).Pairwise (fun a b => l.key a < l.key b) ∧
      (∀ a ∈ rows (l.walk limit none tables), ∃ table ∈ tables, a ∈ table) ∧
      (Ended (l.walk limit none tables) → ∀ k, (∀ table ∈ tables, ∃ a ∈ table, l.key a = k) →
        ∃ a ∈ rows (l.walk limit none tables), l.key a = k) := by
  obtain ⟨hsorted, hmem⟩ := walk_ascending none hlimit h
  refine ⟨hsorted, fun a ha => (hmem a ha).2, fun hended k hk => ?_⟩
  exact walk_covers none hlimit h hk (by rintro _ ⟨⟩) hended

omit h in
/-- From a table that does not change, all that is behind the cursor is read. -/
theorem walk_rest {table : List α} (hd : l.Distinct table) {n : ℕ} (hn : 0 < n)
    (hlen : (l.behind cursor table).length ≤ limit * n) :
    rows (l.walk limit cursor (List.replicate n table)) = l.behind cursor table := by
  induction n generalizing cursor with
  | zero => exact absurd hn (lt_irrefl 0)
  | succ n ih =>
      have hsorted := l.behind_ascending cursor hd
      rcases l.page_cases limit cursor table hlimit with ⟨-, hpage⟩ | ⟨hlong, last, hlast, hpage⟩
      · simp [List.replicate_succ, walk, rows, hpage]
      · have hsplit := List.take_append_drop limit (l.behind cursor table)
        have hin := (l.mem_behind cursor table).1
          (List.mem_of_mem_take (List.mem_of_getLast? hlast))
        -- behind the cursor of this page there is what this page leaves
        have hrest : l.behind (some (l.mark last)) table = (l.behind cursor table).drop limit := by
          refine ascending_ext (l.behind_ascending _ hd)
            (hsorted.sublist (List.drop_sublist ..)) fun a => ?_
          rw [← hsplit] at hsorted
          have hfurther := (List.pairwise_append.1 hsorted).2.2 last (List.mem_of_getLast? hlast)
          rw [mem_behind]
          constructor
          · rintro ⟨ha, hbehind⟩
            have hlt : l.key last < l.key a := hbehind _ rfl
            have hmem : a ∈ l.behind cursor table :=
              (l.mem_behind cursor table).2 ⟨ha, fun c hc => (hin.2 c hc).trans hlt⟩
            rw [← hsplit] at hmem
            refine (List.mem_append.1 hmem).resolve_left fun htake => hlt.not_ge ?_
            exact le_last (List.pairwise_append.1 hsorted).1 htake hlast
          · intro ha
            have hmem := (l.mem_behind cursor table).1 (List.mem_of_mem_drop ha)
            exact ⟨hmem.1, by rintro _ ⟨⟩; exact hfurther a ha⟩
        rw [Nat.mul_succ] at hlen
        have hlater := ih (some (l.mark last)) (Nat.pos_of_ne_zero fun hzero => by
          rw [hzero] at hlen
          omega) (by rw [hrest, List.length_drop]; omega)
        simp only [rows] at hlater
        rw [List.replicate_succ, walk, hpage, rows, List.flatMap_cons, hlater, hrest, hsplit]

omit h cursor in
theorem walk_still {table : List α} (hd : l.Distinct table) {n : ℕ} (hn : 0 < n)
    (hlen : table.length ≤ limit * n) :
    rows (l.walk limit none (List.replicate n table)) = l.sort table := by
  have hall : l.behind none table = l.sort table := by simp [behind]
  rw [walk_rest none hlimit hd hn (by rw [hall, sort, List.length_insertionSort]; exact hlen), hall]

end Listing

end KeysetPages
