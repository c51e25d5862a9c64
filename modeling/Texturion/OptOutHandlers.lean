/-
**Who lifts a STOP.**

A row that is active with the source `stop_keyword` or `carrier` stands for a block at the carrier,
which only the customer can lift.  Every writer of the row of a number is a handler of one or two
database calls, and between two calls of one any other may come.  The writers for the carrier, for
a member and for an import revive a revoked row and insert a missing one, so that they leave an
active one alone.
A member's revoke reads the source and, where it is not one of those two, revokes whatever is active
by then.

Main result:

* `OptOuts.left_to_customer` — **only the customer lifts a STOP**, in every interleaving, but for a
  member's revoke that has read the row before.
-/

import Texturion.OptOuts
import Texturion.Interleaving

namespace OptOuts

open Interleaving

/-- The row is there because the carrier blocks the number. -/
def Source.blocked : Source → Bool
  | .stopKeyword => true
  | .carrier => true
  | _ => false

/-! ### The handlers -/

inductive Request
  /-- An inbound text with a keyword. -/
  | inbound (word : Keyword)
  /-- `recordCarrierOptOut`. -/
  | recordCarrierOptOut
  /-- `POST /contacts/:id/opt-out`. -/
  | optOut (userId : Uuid)
  | revokeOptOut
  /-- `writeImportOptOuts` with the number among its phones. -/
  | writeImportOptOuts (userId : Uuid)
  /-- `api_merge_contacts`, with whether the other number of the merge is opted out. -/
  | mergeContacts (actor : Uuid) (otherActive : Bool)

/-- The database call that a handler makes next. -/
inductive Point
  | keyword (word : Keyword)
  | reviving (source : Source) (createdBy : Option Uuid)
  | inserting (source : Source) (createdBy : Option Uuid)
  | lookup
  /-- The revoke of a member, for which the lookup has found a row with this source. -/
  | revoking (read : Source)
  | merging (actor : Uuid) (otherActive : Bool)
  deriving DecidableEq

/-- What becomes of a call: it is made and answered, it is made and the answer is lost, or it is not
made. -/
inductive Answer
  | done (now : ℤ) (id : Uuid)
  | unheard (now : ℤ) (id : Uuid)
  | failed

def Request.enter : Request → Point
  | .inbound word => .keyword word
  | .recordCarrierOptOut => .reviving .carrier none
  | .optOut userId => .reviving .manual (some userId)
  | .revokeOptOut => .lookup
  | .writeImportOptOuts userId => .reviving .imported (some userId)
  | .mergeContacts actor otherActive => .merging actor otherActive

def Point.statement : Point → Option OptOut → Option Statement
  | .keyword word, _ => some word.statement
  | .reviving source createdBy, _ => some (.revive source createdBy)
  | .inserting source createdBy, _ => some (.insert source createdBy)
  | .lookup, _ => none
  | .revoking _, _ => some .revoke
  | .merging actor otherActive, row =>
    if isActive row || otherActive then some (.union (some actor)) else none

/-- What a call makes of the row. -/
def Point.write (p : Point) (now : ℤ) (id : Uuid) (row : Option OptOut) : Option OptOut :=
  match p.statement row with
  | some w => w.apply now id row
  | none => row

/-- The next call, after one that was answered. -/
def Point.next : Point → Option OptOut → Option Point
  | .reviving source createdBy, row =>
    if (Statement.revive source createdBy).returns row then none
    else some (.inserting source createdBy)
  | .lookup, row =>
    match row.filter OptOut.active with
    | none => none
    | some r => if r.source.blocked then none else some (.revoking r.source)
  | _, _ => none

/-- The handlers, up to their last call about opt-outs. -/
def handlers : System (Option OptOut) Request Point Answer Empty Empty where
  enter := Request.enter
  advance row p x :=
    match x with
    | .done now id => (p.write now id row, p.next row, [])
    | .unheard now id => (p.write now id row, none, [])
    | .failed => (row, none, [])
  world row _ := (row, [])

def Standing (row : Option OptOut) : Prop :=
  ∃ r, row = some r ∧ r.active = true ∧ r.source.blocked = true

/-- The call that a move makes. -/
def moving (s : State (Option OptOut) Point) : Input Request Answer Empty → Option Point
  | .step n _ => s.running[n]?
  | _ => none

/-- What one move may do to a row that stands for a block: a START revokes it, a STOP makes it its
own, and nothing else touches it, but for the revoke of a member who has read another source. -/
def LeftToCustomer (s : State (Option OptOut) Point) (i : Input Request Answer Empty) : Prop :=
  ∀ r, s.store = some r → r.active = true → r.source.blocked = true →
    (step handlers s i).1.store = some r ∨
    (moving s i = some (.keyword .start) ∧
      ∃ now, (step handlers s i).1.store = some { r with revokedAt := some now }) ∨
    (moving s i = some (.keyword .stop) ∧ (step handlers s i).1.store =
      some { r with source := .stopKeyword, createdBy := none }) ∨
    ∃ read, moving s i = some (.revoking read) ∧ read.blocked = false

/-- The move makes no call of a START. -/
def NoStart (s : State (Option OptOut) Point) (i : Input Request Answer Empty) : Prop :=
  moving s i ≠ some (.keyword .start)

/-! ### One move -/

theorem write_of_active (p : Point) (now : ℤ) (id : Uuid) {r : OptOut} (hr : r.active = true) :
    p.write now id (some r) = some r ∨
      (p = .keyword .start ∧ p.write now id (some r) = some { r with revokedAt := some now }) ∨
      (p = .keyword .stop ∧
        p.write now id (some r) = some { r with source := .stopKeyword, createdBy := none }) ∨
      ∃ read, p = .revoking read := by
  have hwrite : ∀ w, p.statement (some r) = some w →
      p.write now id (some r) = w.apply now id (some r) := by
    intro w hw
    simp only [Point.write, hw]
  cases p with
  | keyword word =>
    rw [hwrite _ rfl, apply_of_active _ _ _ hr]
    cases word with
    | stop => exact .inr (.inr (.inl ⟨rfl, rfl⟩))
    | start => exact .inr (.inl ⟨rfl, rfl⟩)
  | reviving | inserting =>
    left
    rw [hwrite _ rfl, apply_of_active _ _ _ hr]
  | lookup => exact .inl rfl
  | revoking read => exact .inr (.inr (.inr ⟨read, rfl⟩))
  | merging actor otherActive =>
    left
    have hunion : (Point.merging actor otherActive).statement (some r) =
        some (.union (some actor)) := by
      simp [Point.statement, hr]
    rw [hwrite _ hunion, apply_of_active _ _ _ hr]

/-- A member's revoke goes on only where its lookup has found a source that does not stand for a
block. -/
theorem not_blocked_of_next {p : Point} {row : Option OptOut} {read : Source}
    (h : p.next row = some (.revoking read)) : read.blocked = false ∧
      ∃ r, row = some r ∧ r.active = true ∧ r.source = read := by
  cases p with
  | lookup =>
    cases row with
    | none => cases h
    | some r =>
      cases hactive : r.active with
      | false => simp [Point.next, Option.filter, hactive] at h
      | true =>
        cases hblocked : r.source.blocked with
        | true => simp [Point.next, Option.filter, hactive, hblocked] at h
        | false =>
          simp only [Point.next, Option.filter, hactive, hblocked, if_true,
            Bool.false_eq_true, if_false, Option.some.injEq, Point.revoking.injEq] at h
          subst h
          exact ⟨hblocked, r, rfl, hactive, rfl⟩
  | reviving source createdBy =>
    simp only [Point.next] at h
    split at h <;> cases h
  | _ => cases h

/-- Every member's revoke under way has read a source that does not stand for a block. -/
def ReadOther (s : State (Option OptOut) Point) : Prop :=
  ∀ read, .revoking read ∈ s.running → read.blocked = false

variable {s : State (Option OptOut) Point}

theorem readOther_step (hs : ReadOther s)
    (i : Input Request Answer Empty) : ReadOther (step handlers s i).1 := by
  intro read hread
  cases i with
  | start q =>
    rcases List.mem_append.1 hread with h | h
    · exact hs read h
    · have henter := List.mem_singleton.1 h
      cases q <;> cases henter
  | crash n => exact hs read (List.mem_of_mem_eraseIdx hread)
  | world e => exact hs read hread
  | step n x =>
    rcases mem_running_step hread with h | ⟨p, -, hnext⟩
    · exact hs read h
    · cases x with
      | done now id => exact (not_blocked_of_next hnext).1
      | unheard now id => cases hnext
      | failed => cases hnext

/-- **One move**, on an active row. -/
theorem handlers_step (hs : ReadOther s) (i : Input Request Answer Empty) : LeftToCustomer s i := by
  intro r hrow hactive _
  cases i with
  | start | crash | world => exact .inl hrow
  | step n x =>
    cases hp : s.running[n]? with
    | none =>
      left
      simp only [step, hp]
      exact hrow
    | some p =>
      have hcall : ∀ now id, p.write now id s.store = some r ∨
          (p = .keyword .start ∧
            ∃ at_, p.write now id s.store = some { r with revokedAt := some at_ }) ∨
          (p = .keyword .stop ∧ p.write now id s.store =
            some { r with source := .stopKeyword, createdBy := none }) ∨
          ∃ read, p = .revoking read ∧ read.blocked = false := by
        intro now id
        rw [hrow]
        rcases write_of_active p now id hactive with h | ⟨h, hw⟩ | h | ⟨read, rfl⟩
        · exact .inl h
        · exact .inr (.inl ⟨h, now, hw⟩)
        · exact .inr (.inr (.inl h))
        · exact .inr (.inr (.inr ⟨read, rfl, hs read (List.mem_of_getElem? hp)⟩))
      simp only [step, moving, hp, Option.some.injEq]
      cases x with
      | done now id => exact hcall now id
      | unheard now id => exact hcall now id
      | failed => exact .inl hrow

/-! ### Runs -/

/-- A row that stands for a block, while no member's revoke is past its lookup. -/
def Guarded (s : State (Option OptOut) Point) : Prop :=
  Standing s.store ∧ ∀ read, .revoking read ∉ s.running

theorem guarded_step (hs : Guarded s)
    {i : Input Request Answer Empty} (hi : NoStart s i) : Guarded (step handlers s i).1 := by
  obtain ⟨⟨r, hrow, hactive, hblocked⟩, hnone⟩ := hs
  have hread : ReadOther s := fun read hmem => absurd hmem (hnone read)
  constructor
  · rcases handlers_step hread i r hrow hactive hblocked with
      hsame | ⟨hstart, -⟩ | ⟨-, hstop⟩ | ⟨read, hmove, -⟩
    · exact ⟨r, hsame, hactive, hblocked⟩
    · exact absurd hstart hi
    · exact ⟨_, hstop, hactive, rfl⟩
    · cases i with
      | step n x => exact absurd (List.mem_of_getElem? hmove) (hnone read)
      | _ => cases hmove
  · -- a lookup finds the block, and is refused
    intro read hmem
    cases i with
    | start q =>
      rcases List.mem_append.1 hmem with h | h
      · exact hnone read h
      · have henter := List.mem_singleton.1 h
        cases q <;> cases henter
    | crash n => exact hnone read (List.mem_of_mem_eraseIdx hmem)
    | world e => exact hnone read hmem
    | step n x =>
      rcases mem_running_step hmem with h | ⟨p, -, hnext⟩
      · exact hnone read h
      · cases x with
        | unheard now id => cases hnext
        | failed => cases hnext
        | done now id =>
          obtain ⟨hother, r', hrow', -, rfl⟩ := not_blocked_of_next hnext
          obtain rfl := Option.some.inj (hrow.symm.trans hrow')
          rw [hblocked] at hother
          cases hother

/-- **A block stands until a START**, if no member's revoke is past its lookup when it begins. -/
theorem standing_final (hs : Guarded s) {run : List (Input Request Answer Empty)}
    (hrun : Reactive.Along (step handlers) NoStart s run) :
    Standing (Reactive.final (step handlers) s run).store :=
  (Reactive.final_of_inv_along (step handlers) (P := Guarded) (C := NoStart)
    (fun _ _ hs hi => guarded_step hs hi) hs hrun).1

/-- **Only the customer lifts a STOP.**  In every interleaving a move revokes a row that stands for
a block at the carrier only if it is the call of a START, and gives it another source only if it is
that of a STOP, but for the revoke of a member who has read another source; and until a START the
row stands, if no member's revoke is past its lookup. -/
theorem left_to_customer (row : Option OptOut) (run : List (Input Request Answer Empty)) :
    Reactive.Along (step handlers) LeftToCustomer ⟨row, []⟩ run ∧
      ∀ pre post, run = pre ++ post →
        let s := Reactive.final (step handlers) ⟨row, []⟩ pre
        Standing s.store → (∀ read, .revoking read ∉ s.running) →
        Reactive.Along (step handlers) NoStart s post →
          Standing (Reactive.final (step handlers) ⟨row, []⟩ run).store := by
  constructor
  · have hstart : ReadOther ⟨row, []⟩ := fun read hmem => absurd hmem List.not_mem_nil
    exact Reactive.along_of_inv (step handlers) (P := ReadOther) (C := fun _ _ => True)
      (fun s i hs _ => readOther_step hs i) (fun s i hs _ => handlers_step hs i) hstart
      (Reactive.along_of_forall (step handlers) (C := fun _ => True) (fun _ _ => trivial) _)
  · rintro pre post rfl s hstanding hnone hpost
    rw [Reactive.final_append]
    exact standing_final ⟨hstanding, hnone⟩ hpost

/-- **A STOP makes a carrier's row its own**: the source changes, and no START is handled. -/
theorem carrier_becomes_stop :
    let row : OptOut :=
      { id := 1, source := .carrier, createdBy := none, createdAt := 0, revokedAt := none }
    (Reactive.final (step handlers) ⟨some row, []⟩
        [.start (.inbound .stop), .step 0 (.done 1 2)]).store =
      some { row with source := .stopKeyword } := by
  decide

end OptOuts
