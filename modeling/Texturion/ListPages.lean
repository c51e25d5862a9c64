/-
**The lists of the workspace, page by page.**

Messages, events, contacts and tasks are listed newest first, and tasks with a due date by it, those
without one last.  A cursor is the time stamp and the id of the last row of a page; it is taken here
as what its token decodes to.

Main results:

* `ListPages.created_pages` — **what is listed newest first**, page after page, while rows come and
  go;
* `ListPages.due_pages` — **what is listed by due date**;
* `ListPages.still_pages` — **what does not change** is read to its end.
-/

import Mathlib.Data.Prod.Lex
import Mathlib.Order.WithBot
import Texturion.KeysetPages

namespace ListPages

open KeysetPages KeysetPages.Listing

variable {ρ τ ι : Type*} [LinearOrder τ] [LinearOrder ι]

/-! ### The newest first -/

structure Cursor (τ ι : Type*) where
  ts : τ
  id : ι
  deriving DecidableEq

section Created

variable (createdAt : ρ → τ) (id : ρ → ι)

/-- `created_at.lt.ts,and(created_at.eq.ts,id.lt.id)`. -/
def keysetFilter (cursor : Cursor τ ι) (row : ρ) : Bool :=
  createdAt row < cursor.ts || createdAt row == cursor.ts && id row < cursor.id

/-- `created_at` descending, then `id` descending. -/
def createdList : Listing ρ (Cursor τ ι) (τ ×ₗ ι)ᵒᵈ where
  mark row := ⟨createdAt row, id row⟩
  rank c := OrderDual.toDual (toLex (c.ts, c.id))
  passes := keysetFilter createdAt id
  passes_iff c a := by simp [keysetFilter, Prod.Lex.toLex_lt_toLex]

def buildPage (rows : List ρ) (limit : ℕ) : Except String (Page ρ (Cursor τ ι)) :=
  if limit < 1 then .error "limit must be a positive integer."
  else .ok ((createdList createdAt id).cut limit rows)

variable {createdAt id}

theorem distinct_created {table : List ρ} (h : (table.map id).Nodup) :
    (createdList createdAt id).Distinct table :=
  distinct_of_ids h fun _ _ hkey => (Prod.mk.inj hkey).2

/-- **A list that is read page by page while its rows come and go**: the pages are one list with the
newest first and no row twice, each of its rows was there, and no row that was there all along is
missing once the last page has been read. -/
theorem created_pages (limit : ℕ) (hlimit : 1 ≤ limit) (tables : List (List ρ))
    (hids : ∀ table ∈ tables, (table.map id).Nodup) :
    let pages := (createdList createdAt id).walk limit none tables
    (∀ cursor table, buildPage createdAt id
        ((createdList createdAt id).select (limit + 1) cursor table) limit =
      .ok ((createdList createdAt id).page limit cursor table)) ∧
    ((rows pages).Pairwise fun a b =>
        createdAt b < createdAt a ∨ createdAt b = createdAt a ∧ id b < id a) ∧
      (∀ a ∈ rows pages, ∃ table ∈ tables, a ∈ table) ∧
      (Ended pages → ∀ ts i, (∀ table ∈ tables, ∃ a ∈ table, createdAt a = ts ∧ id a = i) →
        ∃ a ∈ rows pages, createdAt a = ts ∧ id a = i) := by
  have hkey : ∀ a ts i, (createdList createdAt id).key a = OrderDual.toDual (toLex (ts, i)) ↔
      createdAt a = ts ∧ id a = i := fun _ _ _ => Prod.mk_inj
  obtain ⟨hsorted, hmem, hstays⟩ := walk_lists (l := createdList createdAt id) hlimit fun t ht =>
    distinct_created (hids t ht)
  refine ⟨fun _ _ => if_neg (by omega), hsorted.imp fun h => Prod.Lex.toLex_lt_toLex.1 h, hmem,
    fun hended ts i h => ?_⟩
  simpa only [hkey] using hstays hended (OrderDual.toDual (toLex (ts, i))) (by simpa only [hkey])

/-- A contact with a date and an id, between two pages another one comes and the first one goes. -/
def moving : List (List (ℕ × ℕ)) := [[(3, 1), (1, 3), (2, 2)], [(4, 4), (2, 2), (1, 3)]]

theorem created_pages_moving :
    ∃ a ∈ rows ((createdList Prod.fst Prod.snd).walk 2 none moving), a.1 = 1 ∧ a.2 = 3 :=
  (created_pages 2 (by decide) moving (by decide)).2.2.2 (by decide +kernel) 1 3 (by decide)

end Created

/-! ### By due date -/

structure DueCursor (τ ι : Type*) where
  d : Option τ
  id : ι
  deriving DecidableEq

section Due

variable (dueAt : ρ → Option τ) (id : ρ → ι)

/-- Behind a date come the later ones, the later ids of that date, and all rows without a date. -/
def dueKeysetFilter (cursor : DueCursor τ ι) (row : ρ) : Bool :=
  match cursor.d with
  | none => (dueAt row).isNone && cursor.id < id row
  | some d =>
      (dueAt row).any (d < ·) || dueAt row == some d && cursor.id < id row || (dueAt row).isNone

/-- `due_at` ascending with nulls last, then `id` ascending. -/
def dueRank (due : Option τ) (i : ι) : WithTop τ ×ₗ ι := toLex (due.elim ⊤ (↑), i)

def dueList : Listing ρ (DueCursor τ ι) (WithTop τ ×ₗ ι) where
  mark row := ⟨dueAt row, id row⟩
  rank c := dueRank c.d c.id
  passes := dueKeysetFilter dueAt id
  passes_iff c a := by
    obtain ⟨- | d, i⟩ := c <;> rcases ha : dueAt a with - | x <;>
      simp [dueKeysetFilter, dueRank, Prod.Lex.toLex_lt_toLex, ha]
    rw [eq_comm (a := x)]

variable {dueAt id}

theorem distinct_due {table : List ρ} (h : (table.map id).Nodup) :
    (dueList dueAt id).Distinct table :=
  distinct_of_ids h fun _ _ hkey => (Prod.mk.inj hkey).2

/-- **The list of tasks by due date**, read page by page while tasks come and go.  A task whose date
is moved between two pages may be listed twice, or not at all. -/
theorem due_pages (limit : ℕ) (hlimit : 1 ≤ limit) (tables : List (List ρ))
    (hids : ∀ table ∈ tables, (table.map id).Nodup) :
    let pages := (dueList dueAt id).walk limit none tables
    ((rows pages).Pairwise fun a b => dueRank (dueAt a) (id a) < dueRank (dueAt b) (id b)) ∧
      (∀ a ∈ rows pages, ∃ table ∈ tables, a ∈ table) ∧
      (Ended pages → ∀ due i, (∀ table ∈ tables, ∃ a ∈ table, dueAt a = due ∧ id a = i) →
        ∃ a ∈ rows pages, dueAt a = due ∧ id a = i) := by
  have hkey : ∀ a due i, (dueList dueAt id).key a = dueRank due i ↔ dueAt a = due ∧ id a = i := by
    intro a due i
    refine Prod.mk_inj.trans (and_congr_left' ?_)
    rcases due with - | d <;> rcases ha : dueAt a with - | x <;> simp [dueList, ha]
  obtain ⟨hsorted, hmem, hstays⟩ := walk_lists (l := dueList dueAt id) hlimit fun t ht =>
    distinct_due (hids t ht)
  refine ⟨hsorted, hmem, fun hended due i h => ?_⟩
  simpa only [hkey] using hstays hended (dueRank due i) (by simpa only [hkey])

theorem due_pages_undated :
    ∃ a ∈ rows ((dueList Prod.fst Prod.snd).walk 1 none
      [[(none, 1), (some 2, 3)], [(none, 1), (some 1, 2)]]), a.1 = none ∧ a.2 = 1 :=
  (due_pages 1 (by decide) _ (by decide)).2.2 (by decide +kernel) none 1 (by decide)

/-- **A list that does not change is read to its end**, exactly as the database orders it. -/
theorem still_pages (createdAt : ρ → τ) (dueAt : ρ → Option τ) (id : ρ → ι) (limit n : ℕ)
    (hlimit : 1 ≤ limit) (hn : 0 < n) (table : List ρ) (hlen : table.length ≤ limit * n)
    (hids : (table.map id).Nodup) :
    rows ((createdList createdAt id).walk limit none (List.replicate n table)) =
        (createdList createdAt id).sort table ∧
      rows ((dueList dueAt id).walk limit none (List.replicate n table)) =
        (dueList dueAt id).sort table :=
  ⟨walk_still hlimit (distinct_created hids) hn hlen,
    walk_still hlimit (distinct_due hids) hn hlen⟩

theorem still_pages_three :
    let table := List.replicate 2 [(1, none), (3, some 7), (2, some 7)]
    rows ((createdList Prod.fst Prod.fst).walk 2 none table) =
        [(3, some 7), (2, some 7), (1, none)] ∧
      rows ((dueList Prod.snd Prod.fst).walk 2 none table) =
        [(2, some 7), (3, some 7), (1, none)] :=
  still_pages Prod.fst Prod.snd Prod.fst 2 2 (by decide) (by decide) _ (by decide) (by decide)

end Due

end ListPages
