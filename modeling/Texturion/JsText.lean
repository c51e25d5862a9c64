/-
**JavaScript strings.**

A JavaScript string is a sequence of UTF-16 code units, well formed or not; its length, its
indices, its regular expressions without the `u` flag and its `trim` all speak of units.  Here it
is the list of them.

Main results:

* `JsText.trim_eq_nil` — a string that trims to nothing is made of white space.
-/

import Mathlib.Data.List.DropRight

namespace JsText

/-- A string, as its UTF-16 code units. -/
abbrev Text := List UInt16

/-- A property of all the units of a string is decided by going through the string, and never by
going through all the units there are. -/
instance (priority := 1100) decidableForallMem {α : Type*} (p : α → Prop) [DecidablePred p]
    (l : List α) : Decidable (∀ x ∈ l, p x) :=
  List.decidableBAll p l

/-- The code units of one character: one, or a surrogate pair. -/
def units (c : Char) : Text :=
  if c.toNat < 0x10000 then [c.toNat.toUInt16]
  else [(0xD800 + (c.toNat - 0x10000) / 0x400).toUInt16,
    (0xDC00 + (c.toNat - 0x10000) % 0x400).toUInt16]

/-- The code units of a literal. -/
def ofString (s : String) : Text := s.toList.flatMap units

/-! ### White space -/

/-- `WhiteSpace` and `LineTerminator`: what `trim` takes off. -/
def isSpace (u : UInt16) : Bool :=
  (0x09 ≤ u && u ≤ 0x0D) || u == 0x20 || u == 0xA0 || u == 0x1680 ||
    (0x2000 ≤ u && u ≤ 0x200A) || u == 0x2028 || u == 0x2029 || u == 0x202F || u == 0x205F ||
    u == 0x3000 || u == 0xFEFF

/-- `text.trim()`. -/
def trim (text : Text) : Text := (text.dropWhile isSpace).rdropWhile isSpace

@[simp] theorem trim_nil : trim [] = [] := rfl

theorem trim_eq_nil {text : Text} : trim text = [] ↔ ∀ u ∈ text, isSpace u = true := by
  unfold trim
  rw [List.rdropWhile_eq_nil_iff]
  constructor
  · intro h u hu
    rw [← List.takeWhile_append_dropWhile (p := isSpace) (l := text)] at hu
    rcases List.mem_append.1 hu with hu | hu
    · exact List.mem_takeWhile_imp hu
    · exact h u hu
  · intro h u hu
    exact h u ((List.dropWhile_sublist _).subset hu)

theorem trim_ne_nil {text : Text} : trim text ≠ [] ↔ ∃ u ∈ text, isSpace u = false := by
  rw [Ne, trim_eq_nil]
  simp

/-! ### Case -/

/-- The upper-case letter of an ASCII letter.  A case-insensitive expression without the `u` flag
never matches an ASCII letter against a unit outside ASCII, so for the letters of such an
expression this is all that case folding does. -/
def foldCase (u : UInt16) : UInt16 := if 0x61 ≤ u ∧ u ≤ 0x7A then u - 0x20 else u

/-- A string matched, from end to end and without regard to case, against an upper-case literal. -/
def matchesWord (word text : Text) : Bool := text.map foldCase == word

end JsText
