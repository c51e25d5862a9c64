/-
**The segment estimator and its two ports.**

`packages/shared/src/segments.ts`, the Android `Segments.kt` and the iOS `Segments.swift` each
estimate how many parts a text message takes.  The TypeScript walks the strings the iterator
yields, the Kotlin walks code points by index, the Swift walks scalars; each has its own copy of
the GSM tables, and the cost of a character of a GSM message is read off the basic table in one and
off the extension table in the others.  The loop that packs costs into segments is the same in all
three, and so are the branches of the estimate, so those are written once, over the parts that
differ.

Main result:

* `Segments.ports_agree` — **the three estimators agree** on every text.
-/

import Texturion.CodePoints

namespace Segments

open JsText CodePoints

inductive SmsEncoding
  | gsm7
  | ucs2
  deriving DecidableEq

def GSM7_SINGLE_SEGMENT_UNITS : ℕ := 160

def GSM7_CONCAT_SEGMENT_UNITS : ℕ := 153

def UCS2_SINGLE_SEGMENT_UNITS : ℕ := 70

def UCS2_CONCAT_SEGMENT_UNITS : ℕ := 67

structure SegmentEstimate where
  encoding : SmsEncoding
  segments : ℕ
  unitsUsed : ℕ
  unitsPerSegment : ℕ
  deriving DecidableEq

/-! ### What the ports share -/

/-- The total of the characters' costs, or nothing if one of them has none: the loop of
`gsm7Septets`. -/
def septetsOf {α : Type} (cost : α → Option ℕ) : ℕ → List α → Option ℕ
  | septets, [] => some septets
  | septets, char :: rest =>
    match cost char with
    | none => none
    | some c => septetsOf cost (septets + c) rest

/-- One turn of the loop of `packSegments`, on `(segments, used)`. -/
def packStep (capacity : ℕ) (s : ℕ × ℕ) (cost : ℕ) : ℕ × ℕ :=
  if s.2 + cost > capacity then (s.1 + 1, cost) else (s.1, s.2 + cost)

def packSegments (costs : List ℕ) (capacity : ℕ) : ℕ :=
  (costs.foldl (packStep capacity) (1, 0)).1

/-- The branches of `estimateSegments`. -/
def estimateWith (septets : Option ℕ) (gsm7Costs ucs2Costs : List ℕ) (units : ℕ) :
    SegmentEstimate :=
  match septets with
  | some septets =>
    if septets = 0 then ⟨.gsm7, 0, 0, GSM7_SINGLE_SEGMENT_UNITS⟩
    else if septets ≤ GSM7_SINGLE_SEGMENT_UNITS then
      ⟨.gsm7, 1, septets, GSM7_SINGLE_SEGMENT_UNITS⟩
    else
      ⟨.gsm7, packSegments gsm7Costs GSM7_CONCAT_SEGMENT_UNITS, septets,
        GSM7_CONCAT_SEGMENT_UNITS⟩
  | none =>
    if units ≤ UCS2_SINGLE_SEGMENT_UNITS then ⟨.ucs2, 1, units, UCS2_SINGLE_SEGMENT_UNITS⟩
    else
      ⟨.ucs2, packSegments ucs2Costs UCS2_CONCAT_SEGMENT_UNITS, units, UCS2_CONCAT_SEGMENT_UNITS⟩

/-! ### segments.ts -/

namespace TypeScript

def GSM7_BASIC : String :=
  "@£$¥èéùìòç\nØø\rÅåΔ_ΦΓΛΩΠΨΣΘΞÆæßÉ !\"#¤%&'()*+,-./0123456789:;<=>?" ++
  "¡ABCDEFGHIJKLMNOPQRSTUVWXYZÄÖÑÜ§¿abcdefghijklmnopqrstuvwxyzäöñüà"

def GSM7_EXTENSION : String := "\x0c^\x7b\x7d\\[~]|€"

def GSM7_BASIC_SET : List Text := chars (ofString GSM7_BASIC)

def GSM7_EXTENSION_SET : List Text := chars (ofString GSM7_EXTENSION)

def gsm7Cost (char : Text) : Option ℕ :=
  if char ∈ GSM7_BASIC_SET then some 1
  else if char ∈ GSM7_EXTENSION_SET then some 2
  else none

def gsm7Septets (text : Text) : Option ℕ := septetsOf gsm7Cost 0 (chars text)

def gsm7Costs (text : Text) : List ℕ :=
  (chars text).map fun char => if char ∈ GSM7_BASIC_SET then 1 else 2

def ucs2Costs (text : Text) : List ℕ :=
  (chars text).map fun char => if char.length = 2 then 2 else 1

def estimateSegments (text : Text) : SegmentEstimate :=
  estimateWith (gsm7Septets text) (gsm7Costs text) (ucs2Costs text) text.length

end TypeScript

/-! ### Segments.kt -/

namespace Kotlin

def GSM7_BASIC : String :=
  "@£$¥èéùìòç\nØø\rÅåΔ_ΦΓΛΩΠΨΣΘΞÆæßÉ !\"#¤%&'()*+,-./0123456789:;<=>?" ++
  "¡ABCDEFGHIJKLMNOPQRSTUVWXYZÄÖÑÜ§¿abcdefghijklmnopqrstuvwxyzäöñüà"

def GSM7_EXTENSION : String := "\u000C^\x7b\x7d\\[~]|€"

def GSM7_BASIC_SET : List ℕ := (ofString GSM7_BASIC).map UInt16.toNat

def GSM7_EXTENSION_SET : List ℕ := (ofString GSM7_EXTENSION).map UInt16.toNat

def codePoints (text : Text) : List ℕ := codePointsFrom text 0

/-- The `when` of `gsm7Septets`. -/
def gsm7Cost (cp : ℕ) : Option ℕ :=
  if cp ∈ GSM7_BASIC_SET then some 1
  else if cp ∈ GSM7_EXTENSION_SET then some 2
  else none

def gsm7Septets (text : Text) : Option ℕ := septetsOf gsm7Cost 0 (codePoints text)

def gsm7Costs (text : Text) : List ℕ :=
  (codePoints text).map fun cp => if cp ∈ GSM7_EXTENSION_SET then 2 else 1

def ucs2Costs (text : Text) : List ℕ := (codePoints text).map charCount

def estimateSegments (text : Text) : SegmentEstimate :=
  estimateWith (gsm7Septets text) (gsm7Costs text) (ucs2Costs text) text.length

end Kotlin

/-! ### Segments.swift -/

namespace Swift

def gsm7Basic : String :=
  "@£$¥èéùìòç\nØø\rÅåΔ_ΦΓΛΩΠΨΣΘΞÆæßÉ !\"#¤%&'()*+,-./0123456789:;<=>?" ++
  "¡ABCDEFGHIJKLMNOPQRSTUVWXYZÄÖÑÜ§¿abcdefghijklmnopqrstuvwxyzäöñüà"

def gsm7Extension : String := "\u000C^\x7b\x7d\\[~]|€"

def gsm7BasicSet : List ℕ := gsm7Basic.toList.map Char.toNat

def gsm7ExtensionSet : List ℕ := gsm7Extension.toList.map Char.toNat

/-- The branches of the loop of `gsm7Septets`. -/
def gsm7Cost (scalar : Char) : Option ℕ :=
  if scalar.toNat ∈ gsm7BasicSet then some 1
  else if scalar.toNat ∈ gsm7ExtensionSet then some 2
  else none

def gsm7Septets (text : List Char) : Option ℕ := septetsOf gsm7Cost 0 text

def gsm7Costs (text : List Char) : List ℕ :=
  text.map fun scalar => if scalar.toNat ∈ gsm7ExtensionSet then 2 else 1

def ucs2Costs (text : List Char) : List ℕ :=
  text.map fun scalar => if scalar.toNat > 0xFFFF then 2 else 1

/-- A Swift string is a sequence of scalars; `utf16.count` is the length of their encoding. -/
def estimateSegments (text : List Char) : SegmentEstimate :=
  estimateWith (gsm7Septets text) (gsm7Costs text) (ucs2Costs text) (encode text).length

end Swift

/-- What a character takes of a part. -/
def weight : SmsEncoding → Text → ℕ
  | .gsm7, char => if char ∈ TypeScript.GSM7_BASIC_SET then 1 else 2
  | .ucs2, char => char.length

/-! ### The tables -/

theorem map_toNat_ofString {s : String} (h : ∀ c ∈ s.toList, c.toNat < 0x10000) :
    (ofString s).map UInt16.toNat = s.toList.map Char.toNat := by
  have hunit : ∀ c ∈ s.toList, (units c).map UInt16.toNat = [c.toNat] := by
    intro c hc
    have hlt := h c hc
    rw [units_of_lt hlt, List.map_singleton, Nat.toUInt16_eq, UInt16.toNat_ofNat',
      Nat.mod_eq_of_lt hlt]
  rw [ofString, List.map_flatMap, List.flatMap_congr hunit, ← List.map_eq_flatMap]

theorem mem_basic (c : Char) : units c ∈ TypeScript.GSM7_BASIC_SET ↔ c ∈ Swift.gsm7Basic.toList :=
  mem_chars_ofString c Swift.gsm7Basic

theorem mem_extension (c : Char) :
    units c ∈ TypeScript.GSM7_EXTENSION_SET ↔ c ∈ Swift.gsm7Extension.toList :=
  mem_chars_ofString c Swift.gsm7Extension

/-- A character of the table is one unit, and none of the extension. -/
theorem basic_units : ∀ c ∈ Swift.gsm7Basic.toList,
    c.toNat < 0x10000 ∧ c ∉ Swift.gsm7Extension.toList := by
  decide +kernel

theorem extension_units : ∀ c ∈ Swift.gsm7Extension.toList, c.toNat < 0x10000 := by
  simp [Swift.gsm7Extension]

theorem basicSet_eq : Kotlin.GSM7_BASIC_SET = Swift.gsm7BasicSet :=
  map_toNat_ofString (s := Swift.gsm7Basic) fun c hc => (basic_units c hc).1

theorem extensionSet_eq : Kotlin.GSM7_EXTENSION_SET = Swift.gsm7ExtensionSet :=
  map_toNat_ofString (s := Swift.gsm7Extension) extension_units

theorem mem_basicSet (c : Char) : c.toNat ∈ Swift.gsm7BasicSet ↔ c ∈ Swift.gsm7Basic.toList :=
  List.mem_map_of_injective toNat_injective

theorem mem_extensionSet (c : Char) :
    c.toNat ∈ Swift.gsm7ExtensionSet ↔ c ∈ Swift.gsm7Extension.toList :=
  List.mem_map_of_injective toNat_injective

theorem not_mem_extension {c : Char} (h : c ∈ Swift.gsm7Basic.toList) :
    c ∉ Swift.gsm7Extension.toList := (basic_units c h).2

/-! ### The loops -/

theorem septetsOf_map {α β : Type} (cost : β → Option ℕ) (f : α → β) (n : ℕ) (text : List α) :
    septetsOf cost n (text.map f) = septetsOf (fun a => cost (f a)) n text := by
  induction text generalizing n with
  | nil => rfl
  | cons a text ih =>
      rw [List.map_cons, septetsOf, septetsOf]
      cases cost (f a) with
      | none => rfl
      | some c => exact ih (n + c)

theorem isSome_of_septetsOf {α : Type} {cost : α → Option ℕ} {n m : ℕ} {text : List α}
    (h : septetsOf cost n text = some m) : ∀ a ∈ text, (cost a).isSome := by
  induction text generalizing n with
  | nil => simp
  | cons a text ih =>
      rw [septetsOf] at h
      cases hc : cost a with
      | none => rw [hc] at h; cases h
      | some c =>
          rw [hc] at h
          intro b hb
          rcases List.mem_cons.1 hb with rfl | hb
          · rw [hc]; rfl
          · exact ih h b hb

/-- The costs of a GSM message are looked at only where there is a total, those of the other
encoding only where there is none. -/
theorem estimateWith_congr {septets : Option ℕ} {gsm gsm' ucs ucs' : List ℕ} (units : ℕ)
    (hgsm : septets.isSome → gsm = gsm') (hucs : septets = none → ucs = ucs') :
    estimateWith septets gsm ucs units = estimateWith septets gsm' ucs' units := by
  cases septets with
  | none => rw [estimateWith, estimateWith, hucs rfl]
  | some n => rw [estimateWith, estimateWith, hgsm rfl]

/-! ### The ports, one against another -/

theorem TypeScript.gsm7Septets_eq (text : List Char) :
    TypeScript.gsm7Septets (encode text) = Swift.gsm7Septets text := by
  have hcost : (fun c => TypeScript.gsm7Cost (units c)) = Swift.gsm7Cost := by
    funext c
    simp only [TypeScript.gsm7Cost, Swift.gsm7Cost, mem_basic, mem_extension, mem_basicSet,
      mem_extensionSet]
  rw [TypeScript.gsm7Septets, chars_encode, septetsOf_map, hcost, Swift.gsm7Septets]

theorem Kotlin.gsm7Septets_eq (text : List Char) :
    Kotlin.gsm7Septets (encode text) = Swift.gsm7Septets text := by
  have hcost : (fun c : Char => Kotlin.gsm7Cost c.toNat) = Swift.gsm7Cost := by
    funext c
    simp only [Kotlin.gsm7Cost, Swift.gsm7Cost, basicSet_eq, extensionSet_eq]
  rw [Kotlin.gsm7Septets, Kotlin.codePoints, codePointsFrom_encode, septetsOf_map, hcost,
    Swift.gsm7Septets]

/-- Where every character has a cost, what is not in the basic table is in the other. -/
theorem TypeScript.gsm7Costs_eq {text : List Char} (h : (Swift.gsm7Septets text).isSome) :
    TypeScript.gsm7Costs (encode text) = Swift.gsm7Costs text := by
  obtain ⟨n, hn⟩ := Option.isSome_iff_exists.1 h
  have hcost := isSome_of_septetsOf hn
  rw [TypeScript.gsm7Costs, Swift.gsm7Costs, chars_encode, List.map_map]
  refine List.map_congr_left fun c hc => ?_
  have hc' := hcost c hc
  simp only [Function.comp_apply, mem_basic, mem_extensionSet]
  by_cases hbasic : c ∈ Swift.gsm7Basic.toList
  · rw [if_pos hbasic, if_neg (not_mem_extension hbasic)]
  · have hext : c ∈ Swift.gsm7Extension.toList := by
      simp only [Swift.gsm7Cost, mem_basicSet, mem_extensionSet, if_neg hbasic] at hc'
      by_contra hno
      rw [if_neg hno] at hc'
      cases hc'
    rw [if_neg hbasic, if_pos hext]

theorem Kotlin.gsm7Costs_eq (text : List Char) :
    Kotlin.gsm7Costs (encode text) = Swift.gsm7Costs text := by
  rw [Kotlin.gsm7Costs, Kotlin.codePoints, codePointsFrom_encode, List.map_map, extensionSet_eq]
  rfl

theorem TypeScript.ucs2Costs_eq (text : List Char) :
    TypeScript.ucs2Costs (encode text) = Swift.ucs2Costs text := by
  rw [TypeScript.ucs2Costs, Swift.ucs2Costs, chars_encode, List.map_map]
  refine List.map_congr_left fun c _ => ?_
  rw [Function.comp_apply, length_units]
  by_cases h : 0xFFFF < c.toNat
  · rw [if_pos h, if_pos rfl]
  · rw [if_neg h, if_neg (by decide)]

theorem Kotlin.ucs2Costs_eq (text : List Char) :
    Kotlin.ucs2Costs (encode text) = Swift.ucs2Costs text := by
  rw [Kotlin.ucs2Costs, Swift.ucs2Costs, Kotlin.codePoints, codePointsFrom_encode, List.map_map]
  rfl

/-- **The three estimators agree**, in the encoding, the units, the segments and the capacity, on
every text. -/
theorem ports_agree (text : List Char) :
    TypeScript.estimateSegments (encode text) = Swift.estimateSegments text ∧
      Kotlin.estimateSegments (encode text) = Swift.estimateSegments text := by
  constructor
  · rw [TypeScript.estimateSegments, TypeScript.gsm7Septets_eq, TypeScript.ucs2Costs_eq]
    exact estimateWith_congr _ TypeScript.gsm7Costs_eq fun _ => rfl
  · rw [Kotlin.estimateSegments, Kotlin.gsm7Septets_eq, Kotlin.gsm7Costs_eq, Kotlin.ucs2Costs_eq]
    rfl

end Segments
