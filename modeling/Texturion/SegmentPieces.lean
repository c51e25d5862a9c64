/-
**What the estimate counts.**

A text that takes several parts is cut into pieces, and no cut goes through a character: the two
septets of an escape pair and the two units of a surrogate pair stay together.  The pieces of a text
in several parts are smaller than a single one, because each carries a header.  The loop of
`packSegments` fills one part after the other, as `Texturion/GreedyPacking.lean` has it.

A text of the GSM tables that is continued by another character changes its encoding.  The units of
a UCS-2 part are fewer than half the septets of a GSM part, and no character takes more septets than
twice its units, so that the parts do not become fewer.

Main result:

* `Segments.estimateSegments_isLeast` — **the estimate is the least number of parts**, and does not
  decrease as the text grows.
-/

import Texturion.GreedyPacking
import Texturion.Segments

namespace Segments

open JsText CodePoints TypeScript

/-- What a part holds, when it is the only one and when it is not. -/
def singleCapacity : SmsEncoding → ℕ
  | .gsm7 => GSM7_SINGLE_SEGMENT_UNITS
  | .ucs2 => UCS2_SINGLE_SEGMENT_UNITS

def concatCapacity : SmsEncoding → ℕ
  | .gsm7 => GSM7_CONCAT_SEGMENT_UNITS
  | .ucs2 => UCS2_CONCAT_SEGMENT_UNITS

/-- A way to send the text: pieces of whole characters, in their order, each of which fits. -/
structure Cut (encoding : SmsEncoding) (text : Text) (pieces : List (List Text)) : Prop where
  joins : pieces.flatten = chars text
  fits : ∀ piece ∈ pieces, (piece.map (weight encoding)).sum ≤
    if pieces.length ≤ 1 then singleCapacity encoding else concatCapacity encoding

def InTables (char : Text) : Prop := char ∈ GSM7_BASIC_SET ∨ char ∈ GSM7_EXTENSION_SET

instance (char : Text) : Decidable (InTables char) :=
  inferInstanceAs (Decidable (char ∈ GSM7_BASIC_SET ∨ char ∈ GSM7_EXTENSION_SET))

/-! ### The loops -/

theorem packSegments_eq {α : Type} (w : α → ℕ) (l : List α) (capacity : ℕ) :
    packSegments (l.map w) capacity = Packing.opened w capacity 0 l + 1 := by
  have hrun : ∀ segments used, ((l.map w).foldl (packStep capacity) (segments, used)).1 =
      segments + Packing.opened w capacity used l := by
    induction l with
    | nil => intro segments used; rfl
    | cons a l ih =>
        intro segments used
        rw [List.map_cons, List.foldl_cons, packStep, Packing.opened]
        split
        · rw [ih]
          omega
        · rw [ih]
  rw [packSegments, hrun, Nat.add_comm]

theorem septetsOf_eq {α : Type} {cost : α → Option ℕ} {w : α → ℕ} {text : List α}
    (h : ∀ a ∈ text, cost a = some (w a)) (n : ℕ) :
    septetsOf cost n text = some (n + (text.map w).sum) := by
  induction text generalizing n with
  | nil => rfl
  | cons a text ih =>
      rw [List.forall_mem_cons] at h
      rw [septetsOf, h.1, List.map_cons, List.sum_cons, ← Nat.add_assoc]
      exact ih h.2 (n + w a)

variable {char text : Text}

theorem gsm7Cost_eq (h : InTables char) : gsm7Cost char = some (weight .gsm7 char) := by
  by_cases hbasic : char ∈ GSM7_BASIC_SET
  · simp [gsm7Cost, weight, hbasic]
  · simp [gsm7Cost, weight, hbasic, h.resolve_left hbasic]

theorem gsm7Septets_of_inTables (h : ∀ char ∈ chars text, InTables char) :
    gsm7Septets text = some (((chars text).map (weight .gsm7)).sum) := by
  rw [gsm7Septets, septetsOf_eq (fun char hchar => gsm7Cost_eq (h char hchar)), Nat.zero_add]

theorem gsm7Septets_of_not_inTables (h : ¬∀ char ∈ chars text, InTables char) :
    gsm7Septets text = none := by
  rw [Option.eq_none_iff_forall_ne_some]
  intro n hn
  refine h fun char hchar => ?_
  have hcost := isSome_of_septetsOf hn char hchar
  by_contra hno
  rw [InTables, not_or] at hno
  rw [gsm7Cost, if_neg hno.1, if_neg hno.2] at hcost
  cases hcost

theorem length_of_mem_chars (h : char ∈ chars text) : char.length = 1 ∨ char.length = 2 := by
  revert h
  fun_induction chars text with
  | case1 => intro h; cases h
  | case2 u =>
      intro h
      exact .inl (by rw [List.mem_singleton.1 h]; rfl)
  | case3 u v rest _ ih =>
      intro h
      rcases List.mem_cons.1 h with rfl | h
      · exact .inr rfl
      · exact ih h
  | case4 u v rest _ ih =>
      intro h
      rcases List.mem_cons.1 h with rfl | h
      · exact .inl rfl
      · exact ih h

theorem sum_weight_ucs2 (text : Text) : ((chars text).map (weight .ucs2)).sum = text.length := by
  conv_rhs => rw [← flatten_chars text, List.length_flatten]
  rfl

/-! ### The estimate -/

def encodingOf (text : Text) : SmsEncoding :=
  if ∀ char ∈ chars text, InTables char then .gsm7 else .ucs2

def parts (encoding : SmsEncoding) (text : Text) : ℕ :=
  Packing.count (weight encoding) (singleCapacity encoding) (concatCapacity encoding) (chars text)

theorem estimateSegments_eq (text : Text) :
    (estimateSegments text).encoding = encodingOf text ∧
      (estimateSegments text).segments = parts (encodingOf text) text := by
  unfold encodingOf parts Packing.count estimateSegments estimateWith
  by_cases h : ∀ char ∈ chars text, InTables char
  · rw [gsm7Septets_of_inTables h, if_pos h, gsm7Costs]
    simp only [singleCapacity, concatCapacity]
    rw [← packSegments_eq]
    constructor
    · split_ifs <;> rfl
    · split_ifs with hzero hone
      · rfl
      · exact (if_pos hone).symm
      · exact (if_neg hone).symm
  · rw [gsm7Septets_of_not_inTables h, if_neg h, sum_weight_ucs2]
    have hnonempty : text.length ≠ 0 := by
      intro hzero
      rw [List.length_eq_zero_iff.1 hzero] at h
      exact h fun char hchar => by cases hchar
    have hcosts : ucs2Costs text = (chars text).map (weight .ucs2) := by
      refine List.map_congr_left fun char hchar => ?_
      rcases length_of_mem_chars hchar with hlength | hlength <;> simp [weight, hlength]
    simp only [singleCapacity, concatCapacity]
    rw [hcosts, packSegments_eq, if_neg hnonempty]
    constructor
    · split_ifs <;> rfl
    · split_ifs with hone
      · exact (if_pos hone).symm
      · exact (if_neg hone).symm

theorem parts_isLeast (encoding : SmsEncoding) (text : Text) :
    IsLeast {n | ∃ pieces, Cut encoding text pieces ∧ pieces.length = n}
      (parts encoding text) := by
  have hweight : ∀ char ∈ chars text,
      0 < weight encoding char ∧ weight encoding char ≤ concatCapacity encoding := by
    intro char hchar
    cases encoding with
    | gsm7 =>
        simp only [weight, concatCapacity, GSM7_CONCAT_SEGMENT_UNITS]
        split <;> omega
    | ucs2 =>
        have hlength := length_of_mem_chars hchar
        simp only [weight, concatCapacity, UCS2_CONCAT_SEGMENT_UNITS]
        omega
  have hsingle : concatCapacity encoding ≤ singleCapacity encoding := by
    cases encoding <;> decide
  have hset : {n | ∃ pieces, Cut encoding text pieces ∧ pieces.length = n} =
      {n | ∃ pieces : List (List Text), pieces.flatten = chars text ∧
        Packing.Fits (weight encoding) (singleCapacity encoding) (concatCapacity encoding) pieces ∧
          pieces.length = n} := by
    ext n
    constructor
    · rintro ⟨pieces, hcut, hn⟩
      exact ⟨pieces, hcut.joins, hcut.fits, hn⟩
    · rintro ⟨pieces, hjoins, hfits, hn⟩
      exact ⟨pieces, ⟨hjoins, hfits⟩, hn⟩
  rw [hset]
  exact Packing.isLeast_count hweight hsingle

/-! ### A text that grows -/

/-- The characters of a text are those of a longer one, but that a lead surrogate at its end may
get its trail surrogate. -/
theorem chars_append (text more : Text) : ∃ front back, chars (text ++ more) = front ++ back ∧
    List.Forall₂ (fun char char' => char ≠ [] ∧ char <+: char') (chars text) front := by
  have hsame : ∀ u : UInt16, [u] ≠ [] ∧ [u] <+: [u] :=
    fun u => ⟨List.cons_ne_nil _ _, List.prefix_refl _⟩
  fun_induction chars text with
  | case1 => exact ⟨[], chars more, rfl, .nil⟩
  | case2 u =>
      cases more with
      | nil => exact ⟨[[u]], [], rfl, .cons (hsame u) .nil⟩
      | cons v more =>
          by_cases h : (isLead u && isTrail v) = true
          · exact ⟨[[u, v]], chars more, chars_pair more h,
              .cons ⟨List.cons_ne_nil _ _, [v], rfl⟩ .nil⟩
          · refine ⟨[[u]], chars (v :: more), ?_, .cons (hsame u) .nil⟩
            rw [List.singleton_append, chars, if_neg h]
            rfl
  | case3 u v rest h ih =>
      obtain ⟨front, back, heq, hfront⟩ := ih
      refine ⟨[u, v] :: front, back, ?_,
        .cons ⟨List.cons_ne_nil _ _, List.prefix_refl _⟩ hfront⟩
      rw [List.cons_append, List.cons_append, chars_pair _ h, heq, List.cons_append]
  | case4 u v rest h ih =>
      obtain ⟨front, back, heq, hfront⟩ := ih
      refine ⟨[u] :: front, back, ?_, .cons (hsame u) hfront⟩
      rw [List.cons_append, List.cons_append, chars, if_neg h, ← List.cons_append, heq,
        List.cons_append]

theorem length_of_inTables (h : InTables char) : char.length = 1 := by
  have hone : ∀ s : String, char ∈ chars (ofString s) →
      (∀ c ∈ s.toList, c.toNat < 0x10000) → char.length = 1 := by
    intro s hmem hs
    rw [show chars (ofString s) = s.toList.map units from chars_encode s.toList] at hmem
    obtain ⟨c, hc, rfl⟩ := List.mem_map.1 hmem
    rw [units_of_lt (hs c hc), List.length_singleton]
  rcases h with h | h
  · exact hone _ h fun c hc => (Segments.basic_units c hc).1
  · exact hone _ h Segments.extension_units

theorem eq_of_inTables {a b : List Text}
    (h : List.Forall₂ (fun char char' => char ≠ [] ∧ char <+: char') a b)
    (hb : ∀ char ∈ b, InTables char) : a = b := by
  induction h with
  | nil => rfl
  | @cons char char' a b hchar _ ih =>
      rw [List.forall_mem_cons] at hb
      have hone := length_of_inTables hb.1
      have hpos := List.length_pos_iff.2 hchar.1
      rw [ih hb.2, hchar.2.eq_of_length_le (by omega)]

/-- The parts of a text do not become fewer, whatever encoding it changes to. -/
theorem parts_append (text more : Text) :
    parts (encodingOf text) text ≤ parts (encodingOf (text ++ more)) (text ++ more) := by
  obtain ⟨front, back, heq, hfront⟩ := chars_append text more
  unfold parts
  rw [heq]
  by_cases hlong : ∀ char ∈ chars (text ++ more), InTables char
  · rw [encodingOf, encodingOf, if_pos hlong]
    rw [heq] at hlong
    have hin : ∀ char ∈ front, InTables char :=
      fun char hchar => hlong char (List.mem_append_left _ hchar)
    rw [eq_of_inTables hfront hin, if_pos hin]
    exact Packing.count_le (Nat.one_mul _).le (Nat.one_mul _).le
      (List.forall₂_same.2 fun char _ => (Nat.one_mul _).ge) back
  · rw [encodingOf, encodingOf, if_neg hlong]
    split
    · -- no character takes more septets than twice its units
      refine Packing.count_le (k := 2) (by decide) (by decide) (hfront.imp ?_) back
      intro char char' hchar
      have hpos := List.length_pos_iff.2 hchar.1
      have hle := hchar.2.length_le
      simp only [weight]
      split <;> omega
    · refine Packing.count_le (k := 1) (by decide) (by decide) (hfront.imp ?_) back
      intro char char' hchar
      rw [Nat.one_mul]
      exact hchar.2.length_le

/-- **The estimate is the least number of parts** of the encoding that the tables ask for, and does
not decrease as the text grows. -/
theorem estimateSegments_isLeast (text more : Text) :
    let estimate := estimateSegments text
    (estimate.encoding = .gsm7 ↔
        ∀ char ∈ chars text, char ∈ GSM7_BASIC_SET ∨ char ∈ GSM7_EXTENSION_SET) ∧
      IsLeast {n | ∃ pieces, Cut estimate.encoding text pieces ∧ pieces.length = n}
        estimate.segments ∧
      estimate.segments ≤ (estimateSegments (text ++ more)).segments := by
  obtain ⟨hencoding, hsegments⟩ := estimateSegments_eq text
  refine ⟨?_, ?_, ?_⟩
  · rw [hencoding]
    unfold encodingOf
    split
    · next h => exact ⟨fun _ => h, fun _ => rfl⟩
    · next h => exact ⟨fun hno => (nomatch hno), fun hin => absurd hin h⟩
  · rw [hencoding, hsegments]
    exact parts_isLeast _ text
  · rw [hsegments, (estimateSegments_eq (text ++ more)).2]
    exact parts_append text more

end Segments
