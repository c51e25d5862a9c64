/-
**Bytes overwritten in place.**

A buffer is a list of bytes of a fixed length; it is read one byte, two bytes or four bytes at a
time in either byte order, and a range of it is filled with one value.  What a write leaves alone
is said byte by byte.

Main definitions:

* `InPlace.byte`, `InPlace.u16`, `InPlace.u32` — reading;
* `InPlace.fill`, `InPlace.setUint16` — writing;
* `InPlace.Wiped` — a buffer of which some bytes were replaced by bytes of a given set;
* `InPlace.LiesAt` — a part of a buffer at its place.

Main results:

* `InPlace.byte_fill` — what is read after a fill;
* `InPlace.u16_congr`, `InPlace.u32_congr` — a number is read from its own bytes only;
* `InPlace.u16_le_of_zeroed` — zeroing bytes of a number makes it no larger;
* `InPlace.u16_bytes16`, `InPlace.u32_bytes32` — a number written is read.
-/

import Mathlib.Algebra.Ring.Nat
import Mathlib.Data.List.GetD
import Mathlib.Tactic.SplitIfs

namespace InPlace

abbrev Bytes := List UInt8

/-! ### Reading -/

/-- The byte at a place of the buffer. -/
def byte (b : Bytes) (p : ℕ) : UInt8 := b.getD p 0

/-- Two bytes as a number, the low one first if `little`. -/
def u16 (little : Bool) (b : Bytes) (p : ℕ) : ℕ :=
  if little then (byte b p).toNat + 256 * (byte b (p + 1)).toNat
  else 256 * (byte b p).toNat + (byte b (p + 1)).toNat

/-- Four bytes as a number, the low ones first if `little`. -/
def u32 (little : Bool) (b : Bytes) (p : ℕ) : ℕ :=
  if little then u16 little b p + 65536 * u16 little b (p + 2)
  else 65536 * u16 little b p + u16 little b (p + 2)

variable {little : Bool} {b b' : Bytes} {p : ℕ}

theorem byte_of_length_le (h : b.length ≤ p) : byte b p = 0 := List.getD_eq_default _ _ h

theorem bytes_ext (hlength : b'.length = b.length) (h : ∀ p, byte b' p = byte b p) : b' = b := by
  refine List.ext_getElem hlength fun p hp hp' => ?_
  have hbyte := h p
  rwa [byte, byte, List.getD_eq_getElem _ _ hp, List.getD_eq_getElem _ _ hp'] at hbyte

theorem u16_congr (h : ∀ q, p ≤ q → q < p + 2 → byte b' q = byte b q) :
    u16 little b' p = u16 little b p := by
  rw [u16, u16, h p (by omega) (by omega), h (p + 1) (by omega) (by omega)]

theorem u32_congr (h : ∀ q, p ≤ q → q < p + 4 → byte b' q = byte b q) :
    u32 little b' p = u32 little b p := by
  rw [u32, u32, u16_congr fun q hq hq' => h q hq (by omega),
    u16_congr fun q hq hq' => h q (by omega) (by omega)]

variable {high low v : UInt8}

theorem u16_eq_iff :
    u16 little b p = 256 * high.toNat + low.toNat ↔
      byte b p = (if little then low else high) ∧
        byte b (p + 1) = (if little then high else low) := by
  have hhigh := high.toNat_lt
  have hlow := low.toNat_lt
  have hfirst := (byte b p).toNat_lt
  have hsecond := (byte b (p + 1)).toNat_lt
  cases little with
  | true =>
      simp only [u16, if_true, ← UInt8.toNat_inj]
      omega
  | false =>
      simp only [u16, Bool.false_eq_true, if_false, ← UInt8.toNat_inj]
      omega

theorem u16_le_of_zeroed
    (h : ∀ q, p ≤ q → q < p + 2 → byte b' q = byte b q ∨ byte b' q = 0) :
    u16 little b' p ≤ u16 little b p := by
  have hle : ∀ q, p ≤ q → q < p + 2 → (byte b' q).toNat ≤ (byte b q).toNat := by
    intro q hq hq'
    rcases h q hq hq' with heq | heq
    · exact Nat.le_of_eq (congrArg UInt8.toNat heq)
    · rw [heq]
      exact Nat.zero_le _
  have hfirst := hle p (by omega) (by omega)
  have hsecond := hle (p + 1) (by omega) (by omega)
  cases little with
  | true =>
      simp only [u16, if_true]
      omega
  | false =>
      simp only [u16, Bool.false_eq_true, if_false]
      omega

/-! ### Writing -/

/-- `bytes.fill(v, s, e)`. -/
def fill (v : UInt8) (s e : ℕ) (b : Bytes) : Bytes :=
  b.mapIdx fun p x => if s ≤ p ∧ p < e then v else x

@[simp] theorem length_fill (v : UInt8) (s e : ℕ) (b : Bytes) : (fill v s e b).length = b.length :=
  List.length_mapIdx

theorem byte_fill (v : UInt8) (s e : ℕ) (b : Bytes) (p : ℕ) :
    byte (fill v s e b) p = if s ≤ p ∧ p < e ∧ p < b.length then v else byte b p := by
  by_cases hp : p < b.length
  · have hp' : p < (fill v s e b).length := by simpa using hp
    rw [byte, List.getD_eq_getElem _ _ hp']
    simp only [fill, List.getElem_mapIdx, byte, List.getD_eq_getElem _ _ hp, hp, and_true]
  · have hle : b.length ≤ p := Nat.le_of_not_lt hp
    rw [if_neg fun h => hp h.2.2, byte_of_length_le hle, byte_of_length_le (by simpa using hle)]

theorem byte_fill_of_lt {s e : ℕ} (h : p < s) : byte (fill v s e b) p = byte b p := by
  rw [byte_fill, if_neg fun hin => absurd hin.1 (Nat.not_le.2 h)]

theorem byte_fill_of_le {s e : ℕ} (h : e ≤ p) : byte (fill v s e b) p = byte b p := by
  rw [byte_fill, if_neg fun hin => absurd hin.2.1 (Nat.not_lt.2 h)]

theorem byte_fill_in {s e : ℕ} (hs : s ≤ p) (he : p < e) (hp : p < b.length) :
    byte (fill v s e b) p = v := by
  rw [byte_fill, if_pos ⟨hs, he, hp⟩]

theorem byte_fill_cases (v : UInt8) (s e : ℕ) (b : Bytes) (p : ℕ) :
    byte (fill v s e b) p = byte b p ∨ byte (fill v s e b) p = v ∧ s ≤ p ∧ p < e := by
  rw [byte_fill]
  split_ifs with h
  · exact .inr ⟨rfl, h.1, h.2.1⟩
  · exact .inl rfl

/-- `view.setUint16(p, …, little)`, the number given by its two bytes. -/
def setUint16 (little : Bool) (high low : UInt8) (p : ℕ) (b : Bytes) : Bytes :=
  fill (if little then high else low) (p + 1) (p + 2)
    (fill (if little then low else high) p (p + 1) b)

@[simp] theorem length_setUint16 (high low : UInt8) :
    (setUint16 little high low p b).length = b.length := by
  rw [setUint16, length_fill, length_fill]

theorem byte_setUint16_of_ne {q : ℕ} (h : q < p ∨ p + 2 ≤ q) :
    byte (setUint16 little high low p b) q = byte b q := by
  rw [setUint16, byte_fill, if_neg (by omega), byte_fill, if_neg (by omega)]

theorem byte_setUint16_cases (little : Bool) (high low : UInt8) (p : ℕ) (b : Bytes) (q : ℕ) :
    byte (setUint16 little high low p b) q = byte b q ∨
      byte (setUint16 little high low p b) q = high ∨
        byte (setUint16 little high low p b) q = low := by
  rw [setUint16]
  rcases byte_fill_cases (if little then high else low) (p + 1) (p + 2)
    (fill (if little then low else high) p (p + 1) b) q with h | ⟨h, -⟩
  · rcases byte_fill_cases (if little then low else high) p (p + 1) b q with h' | ⟨h', -⟩
    · exact .inl (h.trans h')
    · rw [h, h']
      cases little with
      | true => exact .inr (.inr rfl)
      | false => exact .inr (.inl rfl)
  · rw [h]
    cases little with
    | true => exact .inr (.inl rfl)
    | false => exact .inr (.inr rfl)

theorem u16_setUint16 (h : p + 2 ≤ b.length) :
    u16 little (setUint16 little high low p b) p = 256 * high.toNat + low.toNat := by
  rw [u16_eq_iff, setUint16]
  constructor
  · rw [byte_fill_of_lt (Nat.lt_succ_self p), byte_fill_in (Nat.le_refl p) (by omega) (by omega)]
  · rw [byte_fill_in (Nat.le_refl _) (by omega) (by rw [length_fill]; omega)]

/-! ### Bytes replaced -/

/-- A buffer of which some bytes were replaced, by bytes of which `new` holds. -/
def Wiped (new : UInt8 → Prop) (b b' : Bytes) : Prop :=
  b'.length = b.length ∧ ∀ p, byte b' p = byte b p ∨ new (byte b' p)

namespace Wiped

variable {new : UInt8 → Prop} {c : Bytes}

theorem refl (new : UInt8 → Prop) (b : Bytes) : Wiped new b b := ⟨rfl, fun _ => .inl rfl⟩

theorem trans (h : Wiped new b b') (h' : Wiped new b' c) : Wiped new b c := by
  refine ⟨h'.1.trans h.1, fun p => ?_⟩
  rcases h'.2 p with heq | hnew
  · rw [heq]
    exact h.2 p
  · exact .inr hnew

theorem fill (hv : new v) (s e : ℕ) (b : Bytes) : Wiped new b (InPlace.fill v s e b) := by
  refine ⟨length_fill v s e b, fun p => ?_⟩
  rcases byte_fill_cases v s e b p with h | ⟨h, -⟩
  · exact .inl h
  · exact .inr (h.symm ▸ hv)

theorem setUint16 (hhigh : new high) (hlow : new low) (p : ℕ) (b : Bytes) :
    Wiped new b (InPlace.setUint16 little high low p b) := by
  refine ⟨length_setUint16 high low, fun q => ?_⟩
  rcases byte_setUint16_cases little high low p b q with h | h | h
  · exact .inl h
  · exact .inr (h.symm ▸ hhigh)
  · exact .inr (h.symm ▸ hlow)

/-- A number two bytes of which are not among the new ones was there before. -/
theorem u16_eq (h : Wiped new b b') (hhigh : ¬ new high) (hlow : ¬ new low)
    (heq : u16 little b' p = 256 * high.toNat + low.toNat) :
    u16 little b p = 256 * high.toNat + low.toNat := by
  obtain ⟨hfirst, hsecond⟩ := u16_eq_iff.1 heq
  have hkept : ∀ q, (byte b' q = high ∨ byte b' q = low) → byte b q = byte b' q := by
    intro q hq
    rcases h.2 q with hsame | hnew
    · exact hsame.symm
    · rcases hq with hq | hq
      · exact absurd (hq ▸ hnew) hhigh
      · exact absurd (hq ▸ hnew) hlow
  refine u16_eq_iff.2 ⟨(hkept p ?_).trans hfirst, (hkept (p + 1) ?_).trans hsecond⟩
  · rw [hfirst]
    cases little with
    | true => exact .inr rfl
    | false => exact .inl rfl
  · rw [hsecond]
    cases little with
    | true => exact .inl rfl
    | false => exact .inr rfl

end Wiped

/-! ### Parts of a buffer -/

/-- The bytes of a part stand at a place of the buffer. -/
def LiesAt (b part : Bytes) (p : ℕ) : Prop :=
  ∃ before after, b = before ++ part ++ after ∧ before.length = p

theorem liesAt_zero (part after : Bytes) : LiesAt (part ++ after) part 0 := ⟨[], after, rfl, rfl⟩

namespace LiesAt

variable {part part' : Bytes}

theorem byte (h : LiesAt b part p) {i : ℕ} (hi : i < part.length) :
    InPlace.byte b (p + i) = InPlace.byte part i := by
  obtain ⟨before, after, rfl, rfl⟩ := h
  rw [InPlace.byte, InPlace.byte, List.append_assoc, List.getD_append_right _ _ _ _ (by omega),
    List.getD_append _ _ _ _ (by omega), Nat.add_sub_cancel_left]

theorem end_le (h : LiesAt b part p) : p + part.length ≤ b.length := by
  obtain ⟨before, after, rfl, rfl⟩ := h
  simp only [List.length_append]
  omega

theorem left (h : LiesAt b (part ++ part') p) : LiesAt b part p := by
  obtain ⟨before, after, rfl, rfl⟩ := h
  exact ⟨before, part' ++ after, by simp only [List.append_assoc], rfl⟩

theorem right (h : LiesAt b (part ++ part') p) : LiesAt b part' (p + part.length) := by
  obtain ⟨before, after, rfl, rfl⟩ := h
  exact ⟨before ++ part, after, by simp only [List.append_assoc], List.length_append⟩

end LiesAt

/-! ### Numbers written -/

/-- A number below 65536 as two bytes. -/
def bytes16 (little : Bool) (n : ℕ) : Bytes :=
  if little then [n.toUInt8, (n / 256).toUInt8] else [(n / 256).toUInt8, n.toUInt8]

/-- A number below 2 ^ 32 as four bytes. -/
def bytes32 (little : Bool) (n : ℕ) : Bytes :=
  if little then bytes16 little n ++ bytes16 little (n / 65536)
  else bytes16 little (n / 65536) ++ bytes16 little n

@[simp] theorem length_bytes16 (little : Bool) (n : ℕ) : (bytes16 little n).length = 2 := by
  cases little <;> rfl

@[simp] theorem length_bytes32 (little : Bool) (n : ℕ) : (bytes32 little n).length = 4 := by
  cases little <;> rfl

theorem u16_bytes16 {n : ℕ} (h : LiesAt b (bytes16 little n) p) : u16 little b p = n % 65536 := by
  have hfirst : InPlace.byte b p = InPlace.byte (bytes16 little n) 0 :=
    h.byte (i := 0) (by rw [length_bytes16]; omega)
  have hsecond : InPlace.byte b (p + 1) = InPlace.byte (bytes16 little n) 1 :=
    h.byte (i := 1) (by rw [length_bytes16]; omega)
  have hlow : (n.toUInt8).toNat = n % 256 := UInt8.toNat_ofNat'
  have hhigh : ((n / 256).toUInt8).toNat = n / 256 % 256 := UInt8.toNat_ofNat'
  rw [u16, hfirst, hsecond]
  cases little with
  | true =>
      simp only [bytes16, if_true, byte, List.getD_cons_zero, List.getD_cons_succ, hlow, hhigh]
      omega
  | false =>
      simp only [bytes16, Bool.false_eq_true, if_false, byte, List.getD_cons_zero,
        List.getD_cons_succ, hlow, hhigh]
      omega

theorem u32_bytes32 {n : ℕ} (hn : n < 2 ^ 32) (h : LiesAt b (bytes32 little n) p) :
    u32 little b p = n := by
  cases little with
  | true =>
      have hlow := u16_bytes16 (LiesAt.left h)
      have hhigh := u16_bytes16 (LiesAt.right h)
      rw [length_bytes16] at hhigh
      rw [u32, if_pos rfl, hlow, hhigh]
      omega
  | false =>
      have hhigh := u16_bytes16 (LiesAt.left h)
      have hlow := u16_bytes16 (LiesAt.right h)
      rw [length_bytes16] at hlow
      rw [u32, if_neg Bool.false_ne_true, hlow, hhigh]
      omega

end InPlace
