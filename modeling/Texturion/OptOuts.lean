/-
**Opt-outs.**

`opt_outs` has one row for each number of a company, and nobody ever deletes one: a number is opted
out while its row has no `revoked_at`.  Six writers change the rows: an inbound STOP and an inbound
START, a refusal of the carrier, a member, an import and the merge of two contacts.  Each of them
does so by one of the five statements below, which are functions of the row of a number; the
statements on several numbers are these on each of them.

Main result:

* `OptOuts.apply_of_active` — what each statement makes of an active row.
-/

import Texturion.JsText

namespace OptOuts

open JsText

abbrev Uuid := ℕ

/-- `opt_out_source`; `import` is `imported`. -/
inductive Source
  | stopKeyword
  | manual
  | imported
  | carrier
  deriving DecidableEq

/-- A row of `opt_outs`, of one company and one number; instants are in milliseconds. -/
structure OptOut where
  id : Uuid
  source : Source
  createdBy : Option Uuid
  createdAt : ℤ
  revokedAt : Option ℤ
  deriving DecidableEq

/-- `revoked_at is null`. -/
def OptOut.active (r : OptOut) : Bool := r.revokedAt.isNone

def isActive (row : Option OptOut) : Bool := row.any OptOut.active

@[simp] theorem isActive_none : isActive none = false := rfl

@[simp] theorem isActive_some (r : OptOut) : isActive (some r) = r.active := rfl

/-! ### Statements -/

inductive Statement
  /-- The upsert of a STOP, which overwrites the row whatever it says. -/
  | stop
  /-- `update … set revoked_at = … where revoked_at is null`. -/
  | revoke
  /-- `update … set source = …, revoked_at = null where revoked_at is not null`. -/
  | revive (source : Source) (createdBy : Option Uuid)
  /-- `insert … on conflict do nothing`. -/
  | insert (source : Source) (createdBy : Option Uuid)
  /-- `insert … on conflict do update set revoked_at = null`, of a merge. -/
  | union (actor : Option Uuid)
  deriving DecidableEq

/-- The row of an insert, with the id and the instant that the database gives it. -/
def OptOut.fresh (source : Source) (createdBy : Option Uuid) (now : ℤ) (id : Uuid) : OptOut where
  id := id
  source := source
  createdBy := createdBy
  createdAt := now
  revokedAt := none

namespace Statement

/-- The row afterwards; `id` is the id that an insert would use. -/
def apply (now : ℤ) (id : Uuid) : Statement → Option OptOut → Option OptOut
  | .stop, none => some (.fresh .stopKeyword none now id)
  | .stop, some r => some { r with source := .stopKeyword, createdBy := none, revokedAt := none }
  | .revoke, none => none
  | .revoke, some r => some (if r.active then { r with revokedAt := some now } else r)
  | .revive _ _, none => none
  | .revive source createdBy, some r => some (if r.active then r else
      { r with source := source, createdBy := createdBy, revokedAt := none })
  | .insert source createdBy, none => some (.fresh source createdBy now id)
  | .insert _ _, some r => some r
  | .union actor, none => some (.fresh .manual actor now id)
  | .union _, some r => some { r with revokedAt := none }

/-- `select("id")` after the statement gives the row. -/
def returns : Statement → Option OptOut → Bool
  | .stop, _ => true
  | .revoke, row => isActive row
  | .revive _ _, row => row.any fun r => !r.active
  | .insert _ _, row => row.isNone
  | .union _, _ => true

end Statement

/-- **What each statement makes of the opt-out of a number**: a START lifts it, a revival puts it
back where there is a row, and everything else leaves it there or puts it there. -/
theorem isActive_apply (w : Statement) (now : ℤ) (id : Uuid) (row : Option OptOut) :
    isActive (w.apply now id row) =
      match w with
      | .revoke => false
      | .revive _ _ => row.isSome
      | .insert _ _ => row.isNone || isActive row
      | _ => true := by
  cases row with
  | none => cases w <;> rfl
  | some r =>
      cases w with
      | stop => rfl
      | union actor => rfl
      | insert source createdBy => rfl
      | revoke =>
          cases hrevoked : r.revokedAt <;> simp [Statement.apply, OptOut.active, hrevoked]
      | revive source createdBy =>
          cases hrevoked : r.revokedAt <;> simp [Statement.apply, OptOut.active, hrevoked]

/-- **What a statement makes of an active row**: only a START revokes it, and only a STOP gives it
another source. -/
theorem apply_of_active (w : Statement) (now : ℤ) (id : Uuid) {r : OptOut} (hr : r.active = true) :
    w.apply now id (some r) = some (match w with
      | .stop => { r with source := .stopKeyword, createdBy := none }
      | .revoke => { r with revokedAt := some now }
      | _ => r) := by
  have hnone : r.revokedAt = none := by simpa [OptOut.active] using hr
  have hsame : { r with revokedAt := none } = r := by rw [← hnone]
  cases w with
  | stop => simp only [Statement.apply, ← hnone]
  | revoke | revive => simp only [Statement.apply, hr, if_true]
  | insert source createdBy => rfl
  | union actor => simp only [Statement.apply, hsame]

/-! ### Keywords -/

/-- What a text says about the opt-out of its sender. -/
inductive Keyword
  | stop
  | start
  deriving DecidableEq

/-- `STOP_KEYWORDS` and `START_KEYWORDS`. -/
def STOP_KEYWORDS : List Text :=
  ["STOP", "STOPALL", "UNSUBSCRIBE", "CANCEL", "END", "QUIT", "ARRET", "ARRÊT"].map ofString

def START_KEYWORDS : List Text := ["START", "UNSTOP", "YES"].map ofString

/-- `handleOptOutKeywords` on the words of a text; `toUpperCase` is the one of the language. -/
def keywordOf (toUpperCase : Text → Text) (body : Text) : Option Keyword :=
  let keyword := toUpperCase (trim body)
  if STOP_KEYWORDS.contains keyword then some .stop
  else if START_KEYWORDS.contains keyword then some .start
  else none

/-- What `handleOptOutKeywords` does to the row of the sender. -/
def Keyword.statement : Keyword → Statement
  | .stop => .stop
  | .start => .revoke

theorem isActive_keyword (k : Keyword) (now : ℤ) (id : Uuid) (row : Option OptOut) :
    isActive (k.statement.apply now id row) = decide (k = .stop) := by
  rw [isActive_apply]
  cases k <;> rfl

end OptOuts
