/-
**The code points of a string of UTF-16 units.**

A string's iterator hands out code points: a lead surrogate and the trail surrogate after it
together, every other unit alone.  An index loop over `codePointAt` and `charCount` visits the same
places.  On the units of a sequence of characters both give the characters back; on a string with
lone surrogates they still cut it into pieces that join up to it again.

Main definitions:

* `CodePoints.chars` — the pieces the iterator of a string yields;
* `CodePoints.codePointAt`, `CodePoints.codePointsFrom` — the code point at an index, and the loop;
* `CodePoints.Splits` — a cut in the middle of a code point;
* `CodePoints.utf8Length`, `CodePoints.octets` — how many octets a piece, and a string, take.

Main results:

* `CodePoints.flatten_chars` — **the pieces join up to the string**;
* `CodePoints.chars_of_append` — **and can be cut apart anywhere**, with no code point in the cut;
* `CodePoints.chars_encode` — **the pieces of well-formed text are its characters**;
* `CodePoints.codePointsFrom_encode` — **the loop reads the characters' numbers**.
-/

import Mathlib.Algebra.Ring.Nat
import Texturion.JsText

namespace CodePoints

open JsText

def isLead (u : UInt16) : Bool := 0xD800 ≤ u && u ≤ 0xDBFF

def isTrail (u : UInt16) : Bool := 0xDC00 ≤ u && u ≤ 0xDFFF

/-- The units of a sequence of characters. -/
def encode (text : List Char) : Text := text.flatMap units

@[simp] theorem encode_nil : encode [] = [] := rfl

@[simp] theorem encode_cons (c : Char) (text : List Char) :
    encode (c :: text) = units c ++ encode text := rfl

/-! ### The string iterator -/

/-- `for (const char of text)`: the strings the iterator yields. -/
def chars : Text → List Text
  | [] => []
  | [u] => [[u]]
  | u :: v :: rest =>
    if isLead u && isTrail v then [u, v] :: chars rest else [u] :: chars (v :: rest)

@[simp] theorem chars_nil : chars [] = [] := rfl

theorem chars_pair {u v : UInt16} (rest : Text) (h : (isLead u && isTrail v) = true) :
    chars (u :: v :: rest) = [u, v] :: chars rest := by
  rw [chars, if_pos h]

variable {u : UInt16} {c : Char}

theorem chars_cons (rest : Text) (h : isLead u = false) :
    chars (u :: rest) = [u] :: chars rest := by
  cases rest with
  | nil => rfl
  | cons v rest => rw [chars, h, Bool.false_and, if_neg (by simp)]

theorem flatten_chars (text : Text) : (chars text).flatten = text := by
  fun_induction chars text with
  | case1 | case2 => rfl
  | case3 u v rest _ ih => rw [List.flatten_cons, ih]; rfl
  | case4 u v rest _ ih => rw [List.flatten_cons, ih]; rfl

theorem ne_nil_of_mem_chars {text c : Text} (h : c ∈ chars text) : c ≠ [] := by
  revert h
  fun_induction chars text with
  | case1 => intro h; cases h
  | case2 u =>
    intro h
    rw [List.mem_singleton.1 h]
    exact List.cons_ne_nil _ _
  | case3 u v rest _ ih | case4 u v rest _ ih =>
    intro h
    rcases List.mem_cons.1 h with rfl | h
    · exact List.cons_ne_nil _ _
    · exact ih h

/-! ### Cuts between pieces -/

/-- A cut between two texts that falls into the middle of a code point. -/
def Splits (before after : Text) : Prop :=
  ∃ u v, before.getLast? = some u ∧ after.head? = some v ∧ (isLead u && isTrail v) = true

theorem not_splits_nil (text : Text) : ¬ Splits [] text := by
  rintro ⟨u, v, hu, -⟩
  cases hu

theorem not_splits_nil_right (text : Text) : ¬ Splits text [] := by
  rintro ⟨u, v, -, hv, -⟩
  cases hv

theorem splits_append {a b c : Text} (hb : b ≠ []) : Splits (a ++ b) c ↔ Splits b c := by
  have hlast : (a ++ b).getLast? = b.getLast? := by
    rw [List.getLast?_append_of_ne_nil _ hb]
  rw [Splits, Splits, hlast]

theorem chars_cons_of_not_splits {rest : Text} (h : ¬ Splits [u] rest) :
    chars (u :: rest) = [u] :: chars rest := by
  cases rest with
  | nil => rfl
  | cons v rest =>
    have hpair : ¬ (isLead u && isTrail v) = true := fun hp => h ⟨u, v, rfl, rfl, hp⟩
    rw [chars, if_neg hpair]

theorem isLead_of_isTrail (h : isTrail u = true) : isLead u = false := by
  simp only [isTrail, Bool.and_eq_true, decide_eq_true_eq, UInt16.le_iff_toNat_le] at h
  simp only [isLead, Bool.and_eq_false_iff, decide_eq_false_iff_not, UInt16.le_iff_toNat_le]
  right
  have h₁ : (0xDC00 : UInt16).toNat = 0xDC00 := rfl
  have h₂ : (0xDBFF : UInt16).toNat = 0xDBFF := rfl
  omega

/-- **Pieces can be cut apart anywhere**: both sides are read as they were, and no code point is
in the middle of the cut. -/
theorem chars_of_append {text : Text} {a b : List Text} (h : chars text = a ++ b) :
    chars a.flatten = a ∧ chars b.flatten = b ∧ ¬ Splits a.flatten b.flatten := by
  -- nothing before the cut
  have hnil : ∀ text : Text, chars text = b → chars ([] : List Text).flatten = [] ∧
      chars b.flatten = b ∧ ¬ Splits ([] : List Text).flatten b.flatten := by
    rintro text rfl
    exact ⟨rfl, by rw [flatten_chars], not_splits_nil _⟩
  revert h
  fun_induction chars text generalizing a with
  | case1 =>
    intro h
    obtain ⟨rfl, rfl⟩ := List.append_eq_nil_iff.1 h.symm
    exact hnil [] rfl
  | case2 u =>
    intro h
    cases a with
    | nil => exact hnil [u] h
    | cons p a =>
      injection h with hp h
      obtain ⟨rfl, rfl⟩ := List.append_eq_nil_iff.1 h.symm
      subst hp
      exact ⟨rfl, rfl, not_splits_nil_right _⟩
  | case3 u v rest hpair ih =>
    intro h
    cases a with
    | nil => exact hnil (u :: v :: rest) ((chars_pair rest hpair).trans h)
    | cons p a =>
      injection h with hp h
      subst hp
      obtain ⟨ha, hb, hcut⟩ := ih h
      refine ⟨?_, hb, ?_⟩
      · rw [List.flatten_cons]
        exact (chars_pair _ hpair).trans (congrArg _ ha)
      · rw [List.flatten_cons]
        -- the cut is behind the pair, or among the later pieces
        by_cases hempty : a.flatten = []
        · rintro ⟨x, y, hx, -, hlead⟩
          rw [hempty] at hx
          obtain rfl : v = x := by simpa using hx
          rw [Bool.and_eq_true] at hpair hlead
          exact Bool.false_ne_true ((isLead_of_isTrail hpair.2).symm.trans hlead.1)
        · rw [splits_append hempty]
          exact hcut
  | case4 u v rest hpair ih =>
    intro h
    have hno : ¬ Splits [u] (v :: rest) := by
      rintro ⟨x, y, hx, hy, hlead⟩
      obtain rfl : u = x := by simpa using hx
      obtain rfl : v = y := by simpa using hy
      exact hpair hlead
    cases a with
    | nil => exact hnil (u :: v :: rest) ((chars_cons_of_not_splits hno).trans h)
    | cons p a =>
      injection h with hp h
      subst hp
      obtain ⟨ha, hb, hcut⟩ := ih h
      have hjoin : a.flatten ++ b.flatten = v :: rest := by
        rw [← flatten_chars (v :: rest), h]
        exact List.flatten_append.symm
      rw [List.flatten_cons]
      by_cases hempty : a.flatten = []
      · rw [hempty, List.nil_append] at hjoin
        refine ⟨?_, hb, ?_⟩
        · rw [← ha, hempty]
          rfl
        · rw [hempty, hjoin, List.append_nil]
          exact hno
      · refine ⟨?_, hb, ?_⟩
        · have hno' : ¬ Splits [u] a.flatten := by
            rintro ⟨x, y, hx, hy, hlead⟩
            refine hno ⟨x, y, hx, ?_, hlead⟩
            rw [← hjoin, List.head?_append, hy]
            rfl
          exact (chars_cons_of_not_splits hno').trans (congrArg _ ha)
        · rw [splits_append hempty]
          exact hcut

/-! ### Characters and their units -/

theorem toNat_lt (c : Char) : c.toNat < 0x110000 := by
  rcases c.valid with h | ⟨-, h⟩
  · exact Nat.lt_trans h (by decide)
  · exact h

theorem units_of_lt (h : c.toNat < 0x10000) : units c = [c.toNat.toUInt16] := by
  rw [units, if_pos h]

theorem units_of_ge (h : 0x10000 ≤ c.toNat) :
    units c = [(0xD800 + (c.toNat - 0x10000) / 0x400).toUInt16,
      (0xDC00 + (c.toNat - 0x10000) % 0x400).toUInt16] := by
  rw [units, if_neg (by omega)]

theorem isLead_toUInt16 {n : ℕ} (h : n < 0x10000) :
    isLead n.toUInt16 = true ↔ 0xD800 ≤ n ∧ n ≤ 0xDBFF := by
  simp only [isLead, Bool.and_eq_true, decide_eq_true_eq, UInt16.le_iff_toNat_le,
    Nat.toUInt16_eq, UInt16.toNat_ofNat']
  rw [Nat.mod_eq_of_lt h]
  rfl

theorem isTrail_toUInt16 {n : ℕ} (h : n < 0x10000) :
    isTrail n.toUInt16 = true ↔ 0xDC00 ≤ n ∧ n ≤ 0xDFFF := by
  simp only [isTrail, Bool.and_eq_true, decide_eq_true_eq, UInt16.le_iff_toNat_le,
    Nat.toUInt16_eq, UInt16.toNat_ofNat']
  rw [Nat.mod_eq_of_lt h]
  rfl

theorem isLead_of_lt (h : c.toNat < 0x10000) : isLead c.toNat.toUInt16 = false := by
  rw [Bool.eq_false_iff, Ne, isLead_toUInt16 h]
  rintro ⟨h₁, h₂⟩
  rcases c.valid with h' | ⟨h', -⟩
  · have : c.toNat < 0xD800 := h'
    omega
  · have : 0xDFFF < c.toNat := h'
    omega

theorem isPair_of_ge (h : 0x10000 ≤ c.toNat) :
    (isLead (0xD800 + (c.toNat - 0x10000) / 0x400).toUInt16 &&
      isTrail (0xDC00 + (c.toNat - 0x10000) % 0x400).toUInt16) = true := by
  have hlt := toNat_lt c
  rw [Bool.and_eq_true, isLead_toUInt16 (by omega), isTrail_toUInt16 (by omega)]
  omega

theorem chars_units_append (c : Char) (rest : Text) :
    chars (units c ++ rest) = units c :: chars rest := by
  rcases Nat.lt_or_ge c.toNat 0x10000 with h | h
  · rw [units_of_lt h]
    exact chars_cons rest (isLead_of_lt h)
  · rw [units_of_ge h]
    exact chars_pair rest (isPair_of_ge h)

theorem chars_encode (text : List Char) : chars (encode text) = text.map units := by
  induction text with
  | nil => rfl
  | cons c text ih => rw [encode_cons, chars_units_append, ih, List.map_cons]

theorem length_units (c : Char) : (units c).length = if 0xFFFF < c.toNat then 2 else 1 := by
  rcases Nat.lt_or_ge c.toNat 0x10000 with h | h
  · rw [units_of_lt h, if_neg (by omega), List.length_singleton]
  · rw [units_of_ge h, if_pos (by omega)]
    rfl

/-! ### The index loop -/

/-- `Character.toCodePoint`. -/
def toCodePoint (lead trail : UInt16) : ℕ :=
  (lead.toNat - 0xD800) * 0x400 + (trail.toNat - 0xDC00) + 0x10000

/-- `text.codePointAt(i)`, for an index within the text. -/
def codePointAt (text : Text) (i : ℕ) : ℕ :=
  match text[i]?, text[i + 1]? with
  | some u, some v => if isLead u && isTrail v then toCodePoint u v else u.toNat
  | some u, none => u.toNat
  | none, _ => 0

/-- `Character.charCount`. -/
def charCount (cp : ℕ) : ℕ := if 0x10000 ≤ cp then 2 else 1

theorem charCount_pos (cp : ℕ) : 0 < charCount cp := by
  unfold charCount
  split <;> decide

/-- The loop `while (i < text.length)` over `codePointAt` and `charCount`, from index `i`. -/
def codePointsFrom (text : Text) (i : ℕ) : List ℕ :=
  if i < text.length then
    codePointAt text i :: codePointsFrom text (i + charCount (codePointAt text i))
  else []
  termination_by text.length - i
  decreasing_by
    have := charCount_pos (codePointAt text i)
    omega

theorem codePointAt_units (before rest : Text) (c : Char) :
    codePointAt (before ++ (units c ++ rest)) before.length = c.toNat := by
  have hlt := toNat_lt c
  rcases Nat.lt_or_ge c.toNat 0x10000 with h | h
  · have hu : c.toNat.toUInt16.toNat = c.toNat := by
      rw [Nat.toUInt16_eq, UInt16.toNat_ofNat', Nat.mod_eq_of_lt h]
    rw [units_of_lt h]
    cases rest with
    | nil => simp [codePointAt, hu]
    | cons v rest => simp [codePointAt, isLead_of_lt h, hu]
  · have hp := isPair_of_ge h
    rw [units_of_ge h]
    simp only [codePointAt, List.cons_append, List.nil_append, List.getElem?_append_right,
      Nat.le_refl, Nat.sub_self, List.getElem?_cons_zero, Nat.le_add_right,
      Nat.add_sub_cancel_left, List.getElem?_cons_succ, hp, if_true, toCodePoint, Nat.toUInt16_eq,
      UInt16.toNat_ofNat']
    omega

theorem charCount_toNat (c : Char) : charCount c.toNat = (units c).length := by
  rw [length_units, charCount]
  congr 1

theorem codePointsFrom_append (before : Text) (text : List Char) :
    codePointsFrom (before ++ encode text) before.length = text.map Char.toNat := by
  induction text generalizing before with
  | nil =>
    rw [codePointsFrom, if_neg (by simp)]
    rfl
  | cons c text ih =>
    have hpos := charCount_pos c.toNat
    have hlen := charCount_toNat c
    have hnext : before ++ (units c ++ encode text) = (before ++ units c) ++ encode text :=
      (List.append_assoc _ _ _).symm
    rw [codePointsFrom, encode_cons, if_pos (by simp; omega), codePointAt_units, hlen, hnext,
      ← List.length_append, ih (before ++ units c), List.map_cons]

theorem codePointsFrom_encode (text : List Char) :
    codePointsFrom (encode text) 0 = text.map Char.toNat :=
  codePointsFrom_append [] text

/-! ### Telling characters apart -/

theorem toNat_injective : Function.Injective Char.toNat := by
  intro c d h
  exact Char.ext (UInt32.toNat_inj.1 h)

theorem units_injective : Function.Injective units := by
  intro c d h
  have hc := codePointAt_units [] [] c
  rw [h, codePointAt_units] at hc
  exact toNat_injective hc.symm

theorem mem_chars_ofString (c : Char) (s : String) :
    units c ∈ chars (ofString s) ↔ c ∈ s.toList := by
  have hs : chars (ofString s) = s.toList.map units := chars_encode s.toList
  rw [hs]
  exact List.mem_map_of_injective units_injective

theorem mem_units (hu : u.toNat < 0x80) (h : u ∈ units c) : c.toNat = u.toNat := by
  have hlt := toNat_lt c
  rcases Nat.lt_or_ge c.toNat 0x10000 with hc | hc
  · rw [units_of_lt hc, List.mem_singleton] at h
    rw [h, Nat.toUInt16_eq, UInt16.toNat_ofNat', Nat.mod_eq_of_lt hc]
  · rw [units_of_ge hc] at h
    simp only [List.mem_cons, List.not_mem_nil, or_false] at h
    rcases h with rfl | rfl <;>
    · rw [Nat.toUInt16_eq, UInt16.toNat_ofNat'] at hu
      omega

theorem ofString_inj {s t : String} : ofString s = ofString t ↔ s = t := by
  constructor
  · intro h
    have hchars : s.toList.map units = t.toList.map units :=
      (chars_encode s.toList).symm.trans ((congrArg chars h).trans (chars_encode t.toList))
    exact String.toList_inj.1 (List.map_injective_iff.2 units_injective hchars)
  · rintro rfl
    rfl

/-! ### Octets -/

/-- How many octets the encoder writes for a piece: a lone surrogate is written as the three of
the replacement character. -/
def utf8Length : Text → ℕ
  | [u] => if u < 0x80 then 1 else if u < 0x800 then 2 else 3
  | [_, _] => 4
  | _ => 0

/-- `new TextEncoder().encode(text).length`. -/
def octets (text : Text) : ℕ := ((chars text).map utf8Length).sum

theorem utf8Length_le (piece : Text) : utf8Length piece ≤ 4 := by
  unfold utf8Length
  split
  · split
    · decide
    · split <;> decide
  · decide
  · decide

theorem octets_flatten {pieces : List Text} (h : chars pieces.flatten = pieces) :
    octets pieces.flatten = (pieces.map utf8Length).sum := by
  rw [octets, h]

theorem octets_cons (hu : isLead u = false) (text : Text) :
    octets (u :: text) = utf8Length [u] + octets text := by
  rw [octets, octets, chars_cons text hu, List.map_cons, List.sum_cons]

end CodePoints
