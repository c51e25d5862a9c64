/-
**`btoa` and `atob`.**

The two base-64 functions of the web platform, on JavaScript strings.  `btoa` takes a string of
units below 256 and throws on any other.  `atob` forgives white space and missing padding, and
throws on what is left over.

Main result:

* `Base64.atob_btoa` — **what `btoa` returns, `atob` reads back.**
-/

import Texturion.JsText

namespace Base64

open JsText

/-! ### Bits -/

/-- Bytes in groups of three, as six-bit values; the bits of a short last group are filled up with
zeros. -/
def sextets : List ℕ → List ℕ
  | [] => []
  | [a] => [a / 4, a % 4 * 16]
  | [a, b] => [a / 4, a % 4 * 16 + b / 16, b % 16 * 4]
  | a :: b :: c :: rest =>
      a / 4 :: (a % 4 * 16 + b / 16) :: (b % 16 * 4 + c / 64) :: c % 64 :: sextets rest

/-- Six-bit values in groups of four, as bytes; the bits of a short last group that fill no byte
are dropped, and a group of one is an error. -/
def bytes : List ℕ → Option (List ℕ)
  | [] => some []
  | [_] => none
  | [p, q] => some [p * 4 + q / 16]
  | [p, q, r] => some [p * 4 + q / 16, q % 16 * 16 + r / 4]
  | p :: q :: r :: s :: rest =>
      (bytes rest).map fun out =>
        (p * 4 + q / 16) :: (q % 16 * 16 + r / 4) :: (r % 4 * 64 + s) :: out

theorem sextets_spec (l : List ℕ) (h : ∀ a ∈ l, a < 256) :
    bytes (sextets l) = some l ∧ ∀ p ∈ sextets l, p < 64 := by
  induction l using sextets.induct with
  | case1 => simp [sextets, bytes]
  | case2 a =>
      have ha := h a (by simp)
      simp only [sextets, bytes, Option.some.injEq, List.cons.injEq, List.forall_mem_cons,
        List.not_mem_nil, false_implies, implies_true, and_true]
      omega
  | case3 a b =>
      have ha := h a (by simp)
      have hb := h b (by simp)
      simp only [sextets, bytes, Option.some.injEq, List.cons.injEq, List.forall_mem_cons,
        List.not_mem_nil, false_implies, implies_true, and_true]
      omega
  | case4 a b c rest ih =>
      have ha := h a (by simp)
      have hb := h b (by simp)
      have hc := h c (by simp)
      obtain ⟨hbytes, hlt⟩ := ih fun x hx => h x (by simp [hx])
      simp only [sextets, bytes, hbytes, Option.map_some, Option.some.injEq, List.cons.injEq,
        List.forall_mem_cons, and_true]
      exact ⟨by omega, by omega, by omega, by omega, by omega, hlt⟩

def padding (l : List ℕ) : ℕ := (3 - l.length % 3) % 3

theorem length_sextets (l : List ℕ) : ((sextets l).length + padding l) % 4 = 0 := by
  induction l using sextets.induct with
  | case1 => rfl
  | case2 | case3 => simp [sextets, padding]
  | case4 a b c rest ih =>
      have hpad : padding (a :: b :: c :: rest) = padding rest := by
        simp only [padding, List.length_cons]
        omega
      rw [hpad]
      simp only [sextets, List.length_cons]
      omega

/-! ### The alphabet -/

/-- The digit of a six-bit value. -/
def digit (n : ℕ) : UInt16 :=
  if n < 26 then (0x41 + n).toUInt16
  else if n < 52 then (0x61 + (n - 26)).toUInt16
  else if n < 62 then (0x30 + (n - 52)).toUInt16
  else if n = 62 then 0x2B
  else 0x2F

def value (u : UInt16) : Option ℕ :=
  if 0x41 ≤ u ∧ u ≤ 0x5A then some (u.toNat - 0x41)
  else if 0x61 ≤ u ∧ u ≤ 0x7A then some (u.toNat - 0x61 + 26)
  else if 0x30 ≤ u ∧ u ≤ 0x39 then some (u.toNat - 0x30 + 52)
  else if u = 0x2B then some 62
  else if u = 0x2F then some 63
  else none

def PAD : UInt16 := 0x3D

/-- ASCII white space, which `atob` takes out. -/
def isBlank (u : UInt16) : Bool :=
  u == 0x09 || u == 0x0A || u == 0x0C || u == 0x0D || u == 0x20

/-- What `atob` needs to know of a digit. -/
theorem digit_spec : ∀ n < 64, value (digit n) = some n ∧ isBlank (digit n) = false ∧
    digit n ≠ PAD := by
  decide

/-! ### The two functions -/

/-- `btoa`; `none` where it throws. -/
def btoa (text : Text) : Option Text :=
  if text.all fun u => u ≤ 0xFF then
    let octets := text.map UInt16.toNat
    some ((sextets octets).map digit ++ List.replicate (padding octets) PAD)
  else none

/-- One or two pads at the end are removed. -/
def stripPadding (data : Text) : Text :=
  if data.getLast? = some PAD then
    if data.dropLast.getLast? = some PAD then data.dropLast.dropLast else data.dropLast
  else data

/-- `atob`; `none` where it throws. -/
def atob (raw : Text) : Option Text :=
  let data := raw.filter fun u => !isBlank u
  let digits := if data.length % 4 = 0 then stripPadding data else data
  ((digits.mapM value).bind bytes).map fun octets => octets.map Nat.toUInt16

theorem stripPadding_append {digits : Text} (h : ∀ u ∈ digits, u ≠ PAD) {k : ℕ} (hk : k ≤ 2) :
    stripPadding (digits ++ List.replicate k PAD) = digits := by
  have hlast : digits.getLast? ≠ some PAD := by
    intro hlast
    exact h PAD (List.mem_of_getLast? hlast) rfl
  obtain rfl | rfl | rfl : k = 0 ∨ k = 1 ∨ k = 2 := by omega
  · simp [stripPadding, hlast]
  · simp [stripPadding, hlast]
  · have htwo : digits ++ List.replicate 2 PAD = (digits ++ [PAD]) ++ [PAD] := by simp
    rw [htwo]
    simp [stripPadding]

theorem mapM_value_digit {l : List ℕ} (h : ∀ p ∈ l, p < 64) :
    (l.map digit).mapM value = some l := by
  induction l with
  | nil => rfl
  | cons p l ih =>
      have hp := (digit_spec p (h p (List.mem_cons_self ..))).1
      have hl := ih fun q hq => h q (List.mem_cons_of_mem _ hq)
      rw [List.map_cons, List.mapM_cons, hp, hl]
      rfl

/-- **What `btoa` returns, `atob` reads back.** -/
theorem atob_btoa {text raw : Text} (h : btoa text = some raw) : atob raw = some text := by
  unfold btoa at h
  split_ifs at h with hlatin
  have hbytes : ∀ a ∈ text.map UInt16.toNat, a < 256 := by
    intro a ha
    obtain ⟨u, hu, rfl⟩ := List.mem_map.1 ha
    have hle : u ≤ 0xFF := by simpa using List.all_eq_true.1 hlatin u hu
    have hnat : u.toNat ≤ 0xFF := UInt16.le_iff_toNat_le.1 hle
    omega
  generalize hoctets : text.map UInt16.toNat = octets at h hbytes
  obtain rfl := Option.some.inj h
  have hlt := (sextets_spec octets hbytes).2
  have hdigit : ∀ u ∈ (sextets octets).map digit, isBlank u = false ∧ u ≠ PAD := by
    intro u hu
    obtain ⟨p, hp, rfl⟩ := List.mem_map.1 hu
    exact (digit_spec p (hlt p hp)).2
  have hfilter : ((sextets octets).map digit ++ List.replicate (padding octets) PAD).filter
      (fun u => !isBlank u) =
        (sextets octets).map digit ++ List.replicate (padding octets) PAD := by
    refine List.filter_eq_self.2 fun u hu => ?_
    rcases List.mem_append.1 hu with hu | hu
    · rw [(hdigit u hu).1]
      rfl
    · rw [List.eq_of_mem_replicate hu]
      rfl
  have hlength : ((sextets octets).map digit ++
      List.replicate (padding octets) PAD).length % 4 = 0 := by
    rw [List.length_append, List.length_map, List.length_replicate]
    exact length_sextets octets
  have hpad : padding octets ≤ 2 := by
    unfold padding
    omega
  unfold atob
  simp only [hfilter, hlength, if_true]
  rw [stripPadding_append (fun u hu => (hdigit u hu).2) hpad, mapM_value_digit hlt,
    Option.bind_some, (sextets_spec octets hbytes).1, Option.map_some, ← hoctets, List.map_map]
  refine congrArg some ((List.map_congr_left fun u _ => ?_).trans (List.map_id text))
  exact UInt16.ofNat_toNat

theorem btoa_of_latin {text : Text} (h : ∀ u ∈ text, u ≤ 0xFF) : ∃ raw, btoa text = some raw := by
  unfold btoa
  rw [if_pos (List.all_eq_true.2 fun u hu => by simpa using h u hu)]
  exact ⟨_, rfl⟩

/-- `atob` of the empty string is empty, so that what encodes something is not empty. -/
theorem btoa_ne_nil {text raw : Text} (h : btoa text = some raw) (hne : text ≠ []) : raw ≠ [] := by
  rintro rfl
  have hback := atob_btoa h
  exact hne (Option.some.inj hback).symm

example : btoa (ofString "brm|s") = some (ofString "YnJtfHM=") := by decide

end Base64
