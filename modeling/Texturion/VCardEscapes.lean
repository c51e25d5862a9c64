/-
**Escaped text in a card, read back.**

A card writes a backslash, a comma, a semicolon and a line feed of a text with a backslash before
them.  The importer undoes this by four replacements, one after the other, over the whole text:
line feeds first, backslashes last.  A backslash of the text itself is written as two, and where an
`n` follows it the first replacement takes the second of them for the mark of a line feed.  The
components of a structured name are cut apart at every semicolon, before anything is undone, and so
at the escaped ones too.

Main results:

* `VCards.unescapeText_escapeText` — **what the four replacements make of an escaped text**;
* `VCards.decodes_iff` — **both, for every text and every name.**
-/

import Texturion.VCard

namespace VCards

open JsText

/-! ### The escape -/

/-- The letter that a backslash makes a line feed of. -/
def isN (u : UInt16) : Bool := foldCase u == 0x4E

/-- One unit of a text as RFC 6350 writes it. -/
def escapeUnit (u : UInt16) : Text :=
  if u = BACKSLASH then [BACKSLASH, BACKSLASH]
  else if u = COMMA then [BACKSLASH, COMMA]
  else if u = SEMICOLON then [BACKSLASH, SEMICOLON]
  else if u = LF then [BACKSLASH, 0x6E]
  else [u]

def escapeText (text : Text) : Text := text.flatMap escapeUnit

/-- A line feed is shown as a space. -/
def shownUnit (u : UInt16) : UInt16 := if u = LF then SPACE else u

/-- A text as a reader is to show it. -/
def shown (text : Text) : Text := trim (text.map shownUnit)

/-- A structured name as it is written: family, given, additional and further components, each
escaped by itself. -/
def nValue (given additional family : Text) (more : List Text) : Text :=
  [SEMICOLON].intercalate ((family :: given :: additional :: more).map escapeText)

/-- A structured name as it is to be shown, if there is anything to show. -/
def displayName (given additional family : Text) : Option Text :=
  let assembled := [SPACE].intercalate
    (([given, additional, family].map shown).filter fun part => part != [])
  if assembled = [] then none else some assembled

/-- A backslash of the text stands in front of an `n`. -/
def spellsBreak : Text → Bool
  | u :: v :: rest => (u == BACKSLASH && isN v) || spellsBreak (v :: rest)
  | _ => false

/-! ### One replacement -/

section Replace

variable {p : UInt16 → Bool} {unit u : UInt16} {rest : Text}

theorem replaceEscape_cons (h : u ≠ BACKSLASH) :
    replaceEscape p unit (u :: rest) = u :: replaceEscape p unit rest := by
  rw [replaceEscape.eq_def]
  exact if_neg h

theorem replaceEscape_hit (h : p u = true) :
    replaceEscape p unit (BACKSLASH :: u :: rest) = unit :: replaceEscape p unit rest := by
  rw [replaceEscape.eq_def]
  simp only [if_true, h]

theorem replaceEscape_miss (h : ∀ v ∈ rest.head?, p v = false) :
    replaceEscape p unit (BACKSLASH :: rest) = BACKSLASH :: replaceEscape p unit rest := by
  rw [replaceEscape.eq_def]
  cases rest with
  | nil => rfl
  | cons v rest =>
    have hv : p v = false := h v rfl
    simp only [if_true, hv, Bool.false_eq_true, if_false]

end Replace

/-! ### The text after each replacement -/

/-- A text as a replacement leaves it: an `n` behind a backslash is taken for a line feed's, every
other unit is written in one way. -/
def stage (f : UInt16 → Text) : Text → Text
  | u :: v :: rest =>
    if u = BACKSLASH ∧ isN v = true then BACKSLASH :: SPACE :: stage f rest
    else f u ++ stage f (v :: rest)
  | [u] => f u
  | [] => []

/-- With the line feeds replaced. -/
def spaced (u : UInt16) : Text := if u = LF then [SPACE] else escapeUnit u

/-- With the commas replaced as well. -/
def withCommas (u : UInt16) : Text := if u = COMMA then [COMMA] else spaced u

/-- With the semicolons replaced as well. -/
def withSemicolons (u : UInt16) : Text := if u = SEMICOLON then [SEMICOLON] else withCommas u

theorem special_or_plain (u : UInt16) :
    u = BACKSLASH ∨ u = COMMA ∨ u = SEMICOLON ∨ u = LF ∨
      u ≠ BACKSLASH ∧ u ≠ COMMA ∧ u ≠ SEMICOLON ∧ u ≠ LF := by
  tauto

theorem comma_apart : BACKSLASH ≠ COMMA ∧ SEMICOLON ≠ COMMA ∧ LF ≠ COMMA := by
  decide

@[simp] theorem escapeUnit_backslash : escapeUnit BACKSLASH = [BACKSLASH, BACKSLASH] := rfl

@[simp] theorem escapeUnit_comma : escapeUnit COMMA = [BACKSLASH, COMMA] := rfl

@[simp] theorem escapeUnit_semicolon : escapeUnit SEMICOLON = [BACKSLASH, SEMICOLON] := rfl

@[simp] theorem escapeUnit_lf : escapeUnit LF = [BACKSLASH, 0x6E] := rfl

@[simp] theorem spaced_backslash : spaced BACKSLASH = [BACKSLASH, BACKSLASH] := rfl

@[simp] theorem spaced_comma : spaced COMMA = [BACKSLASH, COMMA] := rfl

@[simp] theorem spaced_semicolon : spaced SEMICOLON = [BACKSLASH, SEMICOLON] := rfl

@[simp] theorem spaced_lf : spaced LF = [SPACE] := rfl

theorem escapeUnit_plain {u : UInt16}
    (h : u ≠ BACKSLASH ∧ u ≠ COMMA ∧ u ≠ SEMICOLON ∧ u ≠ LF) : escapeUnit u = [u] := by
  rw [escapeUnit, if_neg h.1, if_neg h.2.1, if_neg h.2.2.1, if_neg h.2.2.2]

theorem spaced_plain {u : UInt16}
    (h : u ≠ BACKSLASH ∧ u ≠ COMMA ∧ u ≠ SEMICOLON ∧ u ≠ LF) : spaced u = [u] := by
  rw [spaced, if_neg h.2.2.2, escapeUnit_plain h]

theorem escapeUnit_of_isN {u : UInt16} (h : isN u = true) : escapeUnit u = [u] := by
  have hne : ∀ v, isN v = false → u ≠ v := by
    rintro v hv rfl
    rw [h] at hv
    cases hv
  exact escapeUnit_plain ⟨hne _ rfl, hne _ rfl, hne _ rfl, hne _ rfl⟩

variable {text : Text}

theorem head_escapeText {u w : UInt16} (h : w ∈ (escapeText (u :: text)).head?) :
    w = u ∨ w = BACKSLASH := by
  have hcons : escapeText (u :: text) = escapeUnit u ++ escapeText text := rfl
  rw [hcons] at h
  rcases special_or_plain u with rfl | rfl | rfl | rfl | hplain
  · exact .inr (by simpa using h.symm)
  · exact .inr (by simpa using h.symm)
  · exact .inr (by simpa using h.symm)
  · exact .inr (by simpa using h.symm)
  · rw [escapeUnit_plain hplain] at h
    exact .inl (by simpa using h.symm)

theorem replaceEscape_escapeText (text : Text) :
    replaceEscape isN SPACE (escapeText text) = stage spaced text := by
  have hcons : ∀ (u : UInt16) (text : Text),
      escapeText (u :: text) = escapeUnit u ++ escapeText text := fun _ _ => rfl
  -- one unit with the text behind it
  have hunit : ∀ (u : UInt16) (rest : Text),
      (u = BACKSLASH → ∀ w ∈ rest.head?, isN w = false) →
        replaceEscape isN SPACE (escapeUnit u ++ rest) =
          spaced u ++ replaceEscape isN SPACE rest := by
    intro u rest hrest
    rcases special_or_plain u with rfl | rfl | rfl | rfl | hplain
    · simp only [escapeUnit_backslash, spaced_backslash, List.cons_append, List.nil_append]
      rw [replaceEscape_miss (by simp; decide), replaceEscape_miss (hrest rfl)]
    · simp only [escapeUnit_comma, spaced_comma, List.cons_append, List.nil_append]
      rw [replaceEscape_miss (by simp; decide), replaceEscape_cons (by decide)]
    · simp only [escapeUnit_semicolon, spaced_semicolon, List.cons_append, List.nil_append]
      rw [replaceEscape_miss (by simp; decide), replaceEscape_cons (by decide)]
    · exact replaceEscape_hit rfl
    · rw [spaced_plain hplain, escapeUnit_plain hplain]
      exact replaceEscape_cons hplain.1
  fun_induction stage spaced text with
  | case1 u v rest h ih =>
    rw [hcons, hcons, h.1, escapeUnit_of_isN h.2, ← ih]
    have hslash : escapeUnit BACKSLASH = [BACKSLASH, BACKSLASH] := rfl
    simp only [hslash, List.cons_append, List.nil_append]
    rw [replaceEscape_miss (by simp; decide), replaceEscape_hit h.2]
  | case2 u v rest h ih =>
    rw [hcons, hunit, ih]
    rintro hu w hw
    have hv : isN v = false := by simpa [hu] using h
    rcases head_escapeText hw with rfl | rfl
    · exact hv
    · decide
  | case3 u =>
    rw [hcons, hunit u _ (by simp [escapeText])]
    exact List.append_nil _
  | case4 => rfl

/-- A later replacement, which leaves the backslash in front of a space alone. -/
theorem replaceEscape_stage {p : UInt16 → Bool} {unit : UInt16} {f f' : UInt16 → Text}
    (Behind : Text → Prop) (hspace : p SPACE = false) (hbehind : ∀ text, Behind (stage f text))
    (hunit : ∀ u rest, Behind rest →
      replaceEscape p unit (f u ++ rest) = f' u ++ replaceEscape p unit rest) (text : Text) :
    replaceEscape p unit (stage f text) = stage f' text := by
  fun_induction stage f text with
  | case1 u v rest h ih =>
    rw [stage, if_pos h, ← ih, replaceEscape_miss (by simpa using hspace),
      replaceEscape_cons (by decide)]
  | case2 u v rest h ih => rw [stage, if_neg h, ← ih, hunit u _ (hbehind _)]
  | case3 u =>
    have hnil := hunit u [] (hbehind [])
    rw [List.append_nil] at hnil
    rw [hnil]
    exact List.append_nil _
  | case4 => rfl

theorem head_stage {f : UInt16 → Text} {p : UInt16 → Bool} (hslash : p BACKSLASH = false)
    (hf : ∀ u, f u ≠ [] ∧ ∀ w ∈ (f u).head?, p w = false) (text : Text) :
    ∀ w ∈ (stage f text).head?, p w = false := by
  have happ : ∀ (u : UInt16) (rest : Text), ∀ w ∈ (f u ++ rest).head?, p w = false := by
    intro u rest w hw
    rw [List.head?_append_of_ne_nil _ (hf u).1] at hw
    exact (hf u).2 w hw
  cases text with
  | nil => simp [stage]
  | cons u text =>
    cases text with
    | nil => exact (hf u).2
    | cons v rest =>
      rw [stage]
      split_ifs with h
      · simpa using hslash
      · exact happ u _

/-- **What the four replacements make of an escaped text**: the text as it is to be shown, but for
an `n` behind a backslash, which is shown as a space. -/
theorem unescapeText_escapeText (text : Text) :
    unescapeText (escapeText text) = trim (stage (fun u => [shownUnit u]) text) := by
  have hcommas : replaceEscape (fun u => u == COMMA) COMMA (stage spaced text) =
      stage withCommas text := by
    refine replaceEscape_stage (fun rest => ∀ w ∈ rest.head?, (w == COMMA) = false) rfl
      (head_stage rfl fun u => ?_) (fun u rest hrest => ?_) text
    · rcases special_or_plain u with rfl | rfl | rfl | rfl | hplain
      · simp; decide
      · simp; decide
      · simp; decide
      · simp; decide
      · rw [spaced_plain hplain]
        simpa using hplain.2.1
    · rcases special_or_plain u with rfl | rfl | rfl | rfl | hplain
      · have hkept : withCommas BACKSLASH = [BACKSLASH, BACKSLASH] := rfl
        simp only [spaced_backslash, hkept, List.cons_append, List.nil_append]
        rw [replaceEscape_miss (by simp; decide), replaceEscape_miss hrest]
      · exact replaceEscape_hit rfl
      · have hkept : withCommas SEMICOLON = [BACKSLASH, SEMICOLON] := rfl
        simp only [spaced_semicolon, hkept, List.cons_append, List.nil_append]
        rw [replaceEscape_miss (by simp; decide), replaceEscape_cons (by decide)]
      · exact replaceEscape_cons (by decide)
      · rw [withCommas, if_neg hplain.2.1, spaced_plain hplain]
        exact replaceEscape_cons hplain.1
  have hsemicolons : replaceEscape (fun u => u == SEMICOLON) SEMICOLON (stage withCommas text) =
      stage withSemicolons text := by
    refine replaceEscape_stage (fun rest => ∀ w ∈ rest.head?, (w == SEMICOLON) = false) rfl
      (head_stage rfl fun u => ?_) (fun u rest hrest => ?_) text
    · rcases special_or_plain u with rfl | rfl | rfl | rfl | hplain
      · simp [withCommas, comma_apart]; decide
      · simp [withCommas]; decide
      · simp [withCommas, comma_apart]; decide
      · simp [withCommas, comma_apart]; decide
      · rw [withCommas, if_neg hplain.2.1, spaced_plain hplain]
        simpa using hplain.2.2.1
    · rcases special_or_plain u with rfl | rfl | rfl | rfl | hplain
      · have hbefore : withCommas BACKSLASH = [BACKSLASH, BACKSLASH] := rfl
        have hkept : withSemicolons BACKSLASH = [BACKSLASH, BACKSLASH] := rfl
        simp only [hbefore, hkept, List.cons_append, List.nil_append]
        rw [replaceEscape_miss (by simp; decide), replaceEscape_miss hrest]
      · exact replaceEscape_cons (by decide)
      · exact replaceEscape_hit rfl
      · exact replaceEscape_cons (by decide)
      · rw [withSemicolons, if_neg hplain.2.2.1, withCommas, if_neg hplain.2.1,
          spaced_plain hplain]
        exact replaceEscape_cons hplain.1
  have hslashes : replaceEscape (fun u => u == BACKSLASH) BACKSLASH (stage withSemicolons text) =
      stage (fun u => [shownUnit u]) text := by
    refine replaceEscape_stage (fun _ => True) rfl (fun _ => trivial)
      (fun u rest _ => ?_) text
    rcases special_or_plain u with rfl | rfl | rfl | rfl | hplain
    · exact replaceEscape_hit rfl
    · exact replaceEscape_cons (by decide)
    · exact replaceEscape_cons (by decide)
    · exact replaceEscape_cons (by decide)
    · rw [withSemicolons, if_neg hplain.2.2.1, withCommas, if_neg hplain.2.1, spaced_plain hplain,
        shownUnit, if_neg hplain.2.2.2]
      exact replaceEscape_cons hplain.1
  have hspaced : replaceEscape (fun u => foldCase u == 0x4E) SPACE (escapeText text) =
      stage spaced text := replaceEscape_escapeText text
  unfold unescapeText
  simp only [hspaced, hcommas, hsemicolons, hslashes]

/-! ### Counting units -/

section Counting

variable {p : UInt16 → Bool}

theorem countP_trim (hp : ∀ u, p u = true → isSpace u = false) (text : Text) :
    (trim text).countP p = text.countP p := by
  have hdrop : ∀ text : Text, (text.dropWhile isSpace).countP p = text.countP p := by
    intro text
    induction text with
    | nil => rfl
    | cons u text ih =>
      cases hspace : isSpace u with
      | true =>
        have hu : p u = false := by
          cases hpu : p u with
          | true => rw [hp u hpu] at hspace; cases hspace
          | false => rfl
        rw [List.dropWhile_cons_of_pos hspace, ih, List.countP_cons_of_neg (by simp [hu])]
      | false => rw [List.dropWhile_cons_of_neg (by simp [hspace])]
  unfold trim List.rdropWhile
  rw [List.countP_reverse, hdrop, List.countP_reverse, hdrop]

theorem countP_intercalate (hp : p SPACE = false) (parts : List Text) :
    ([SPACE].intercalate parts).countP p = (parts.map (List.countP p)).sum := by
  induction parts with
  | nil => rfl
  | cons part parts ih =>
    cases parts with
    | nil => simp
    | cons next parts =>
      rw [List.intercalate_cons_cons, List.countP_append, List.countP_append, ih]
      simp [hp]

theorem countP_filter_ne_nil (parts : List Text) :
    ((parts.filter fun part => part != []).map (List.countP p)).sum =
      (parts.map (List.countP p)).sum := by
  induction parts with
  | nil => rfl
  | cons part parts ih =>
    cases part with
    | nil => simpa using ih
    | cons u part => simp [ih]

end Counting

theorem isSpace_of_isN {u : UInt16} (h : isN u = true) : isSpace u = false := by
  have hletter : u = 0x4E ∨ u = 0x6E := by
    simp only [isN, foldCase, beq_iff_eq] at h
    split_ifs at h with hlower
    · right
      have hback : u - 0x20 + 0x20 = 0x4E + 0x20 := by rw [h]
      rwa [UInt16.sub_add_cancel] at hback
    · exact .inl h
  rcases hletter with rfl | rfl <;> decide

/-- Every `n` behind a backslash is lost. -/
theorem countP_stage (text : Text) :
    (stage (fun u => [shownUnit u]) text).countP isN ≤ text.countP isN ∧
      ((stage (fun u => [shownUnit u]) text).countP isN = text.countP isN ↔
        spellsBreak text = false) := by
  have hshown : ∀ u, isN (shownUnit u) = isN u := by
    intro u
    unfold shownUnit
    split_ifs with hlf
    · rw [hlf]
      rfl
    · rfl
  fun_induction stage (fun u => [shownUnit u]) text with
  | case1 u v rest h ih =>
    have hslash : isN BACKSLASH = false := rfl
    have hspace : isN SPACE = false := rfl
    simp only [List.countP_cons, h.1, h.2, hslash, hspace, spellsBreak]
    simp
    omega
  | case2 u v rest h ih =>
    have hbreak : (u == BACKSLASH && isN v) = false := by simpa using h
    rw [List.countP_append, List.countP_singleton, hshown, List.countP_cons (l := v :: rest),
      spellsBreak, hbreak, Bool.false_or, ← ih.2]
    omega
  | case3 u => simp [hshown, spellsBreak]
  | case4 => simp [spellsBreak]

theorem stage_of_not_spellsBreak (h : spellsBreak text = false) :
    stage (fun u => [shownUnit u]) text = text.map shownUnit := by
  fun_induction stage (fun u => [shownUnit u]) text with
  | case1 u v rest hbreak ih => simp [spellsBreak, hbreak] at h
  | case2 u v rest hbreak ih =>
    rw [spellsBreak, Bool.or_eq_false_iff] at h
    rw [ih h.2]
    rfl
  | case3 | case4 => rfl

/-! ### Texts and names that are shown -/

theorem countP_unescapeText (text : Text) :
    (unescapeText (escapeText text)).countP isN ≤ (shown text).countP isN ∧
      ((unescapeText (escapeText text)).countP isN = (shown text).countP isN ↔
        spellsBreak text = false) := by
  have hmap : (text.map shownUnit).countP isN = text.countP isN := by
    rw [List.countP_map]
    refine List.countP_congr fun u _ => ?_
    simp only [Function.comp_apply, shownUnit]
    split_ifs with hlf
    · rw [hlf]
      decide
    · rfl
  rw [unescapeText_escapeText, shown, countP_trim fun _ => isSpace_of_isN,
    countP_trim fun _ => isSpace_of_isN, hmap]
  exact countP_stage text

/-- A text is shown as it is to be shown exactly where no backslash has an `n` behind it. -/
theorem unescapeText_iff (text : Text) :
    unescapeText (escapeText text) = shown text ↔ spellsBreak text = false := by
  constructor
  · intro h
    exact (countP_unescapeText text).2.1 (by rw [h])
  · intro h
    rw [unescapeText_escapeText, stage_of_not_spellsBreak h, shown]

/-- The parts of a name put together. -/
def assembled (parts : List Text) : Text :=
  [SPACE].intercalate (parts.filter fun part => part != [])

theorem countP_assembled {p : UInt16 → Bool} (hp : p SPACE = false) (parts : List Text) :
    (assembled parts).countP p = (parts.map (List.countP p)).sum := by
  rw [assembled, countP_intercalate hp, countP_filter_ne_nil]

theorem mem_assembled {u : UInt16} (hu : u ≠ SPACE) (parts : List Text) :
    u ∈ assembled parts ↔ ∃ part ∈ parts, u ∈ part := by
  have hspace : (SPACE == u) = false := by simpa using hu.symm
  rw [← List.count_pos_iff, List.count, countP_assembled hspace,
    List.sum_pos_iff_exists_pos_nat]
  simp only [List.mem_map, exists_exists_and_eq_and, List.countP_pos_iff, beq_iff_eq,
    exists_eq_right]

theorem nameFromN_eq (value : Text) :
    nameFromN value =
      if assembled (([1, 2, 0].map fun i =>
        trim (((value.splitOn SEMICOLON).map unescapeText).getD i []))) = [] then none
      else some (assembled ([1, 2, 0].map fun i =>
        trim (((value.splitOn SEMICOLON).map unescapeText).getD i []))) := rfl

theorem displayName_eq (given additional family : Text) :
    displayName given additional family =
      if assembled ([given, additional, family].map shown) = [] then none
      else some (assembled ([given, additional, family].map shown)) := rfl

theorem getD_ite (text : Text) : (if text = [] then none else some text).getD [] = text := by
  split_ifs with h
  · exact h.symm
  · rfl

theorem semicolon_notMem_escapeText (h : SEMICOLON ∉ text) : SEMICOLON ∉ escapeText text := by
  intro hmem
  obtain ⟨u, hu, hunit⟩ := List.mem_flatMap.1 hmem
  rcases special_or_plain u with rfl | rfl | rfl | rfl | hplain
  · exact absurd hunit (by decide)
  · exact absurd hunit (by decide)
  · exact h hu
  · exact absurd hunit (by decide)
  · rw [escapeUnit_plain hplain, List.mem_singleton] at hunit
    exact hplain.2.2.1 hunit.symm

theorem semicolon_notMem_replaceEscape {p : UInt16 → Bool} {unit : UInt16}
    (hunit : unit = SEMICOLON → ∀ u, p u = true → u = SEMICOLON) (h : SEMICOLON ∉ text) :
    SEMICOLON ∉ replaceEscape p unit text := by
  fun_induction replaceEscape p unit text with
  | case1 | case2 => exact h
  | case3 next rest hp ih =>
    rw [List.mem_cons, not_or] at h ⊢
    refine ⟨fun heq => h.2 ?_, ih fun hmem => h.2 (List.mem_cons_of_mem _ hmem)⟩
    rw [hunit heq.symm next hp]
    exact List.mem_cons_self ..
  | case4 next rest hp ih =>
    rw [List.mem_cons, not_or] at h ⊢
    exact ⟨h.1, ih h.2⟩
  | case5 u rest hslash ih =>
    rw [List.mem_cons, not_or] at h ⊢
    exact ⟨h.1, ih h.2⟩

theorem semicolon_notMem_unescapeText (h : SEMICOLON ∉ text) : SEMICOLON ∉ unescapeText text := by
  have htrim : ∀ text : Text, SEMICOLON ∈ trim text → SEMICOLON ∈ text := by
    intro text hmem
    exact (List.dropWhile_sublist _).subset ((List.rdropWhile_prefix _ _).subset hmem)
  refine fun hmem => ?_
  refine semicolon_notMem_replaceEscape (fun h => absurd h (by decide)) ?_ (htrim _ hmem)
  refine semicolon_notMem_replaceEscape (fun _ u hu => by simpa using hu) ?_
  refine semicolon_notMem_replaceEscape (fun h => absurd h (by decide)) ?_
  exact semicolon_notMem_replaceEscape (fun h => absurd h (by decide)) h

theorem semicolon_notMem_splitOn (text : Text) : ∀ part ∈ text.splitOn SEMICOLON,
    SEMICOLON ∉ part := by
  induction text with
  | nil => simp [List.splitOn_nil]
  | cons u text ih =>
    rw [List.splitOn_cons_eq_if_modifyHead]
    split_ifs with hu
    · intro part hpart
      rcases List.mem_cons.1 hpart with rfl | hpart
      · simp
      · exact ih part hpart
    · cases hsplit : text.splitOn SEMICOLON with
      | nil => simp
      | cons first parts =>
        rw [hsplit] at ih
        intro part hpart
        rcases List.mem_cons.1 hpart with rfl | hpart
        · have hfirst := ih first (List.mem_cons_self ..)
          have hne : SEMICOLON ≠ u := fun heq => hu (by simp [heq])
          simp [hfirst, hne]
        · exact ih part (List.mem_cons_of_mem _ hpart)

theorem trim_trim (text : Text) : trim (trim text) = trim text := by
  unfold trim
  generalize hfront : text.dropWhile isSpace = front
  have hhead : ∀ u ∈ front.head?, isSpace u = false := by
    intro u hu
    have hne : front ≠ [] := by
      rintro rfl
      cases hu
    have hdrop := List.head_dropWhile_not isSpace (l := text) (by rw [hfront]; exact hne)
    simp only [hfront] at hdrop
    rw [List.head?_eq_some_head hne, Option.mem_some_iff] at hu
    rwa [← hu]
  have hkeep : (front.rdropWhile isSpace).dropWhile isSpace = front.rdropWhile isSpace := by
    cases hback : front.rdropWhile isSpace with
    | nil => rfl
    | cons u back =>
      obtain ⟨rest, hrest⟩ := List.rdropWhile_prefix isSpace front
      rw [hback] at hrest
      have hu : isSpace u = false := hhead u (by rw [← hrest]; rfl)
      exact List.dropWhile_cons_of_neg (by simp [hu])
  rw [hkeep, List.rdropWhile_idempotent]

theorem semicolon_mem_shown (h : SEMICOLON ∈ text) : SEMICOLON ∈ shown text := by
  have hpos : 0 < (text.map shownUnit).countP (fun u => u == SEMICOLON) :=
    List.countP_pos_iff.2 ⟨SEMICOLON, List.mem_map.2 ⟨SEMICOLON, h, rfl⟩, rfl⟩
  have hspace : ∀ u, (u == SEMICOLON) = true → isSpace u = false := by
    intro u hu
    rw [beq_iff_eq.1 hu]
    decide
  rw [← countP_trim hspace] at hpos
  obtain ⟨u, hu, heq⟩ := List.countP_pos_iff.1 hpos
  exact beq_iff_eq.1 heq ▸ hu

theorem semicolon_notMem_nameFromN (value : Text) : SEMICOLON ∉ (nameFromN value).getD [] := by
  rw [nameFromN_eq, getD_ite]
  have hpart : ∀ i, SEMICOLON ∉ trim (((value.splitOn SEMICOLON).map unescapeText).getD i []) := by
    intro i hmem
    have hmem' := (List.dropWhile_sublist _).subset ((List.rdropWhile_prefix _ _).subset hmem)
    rw [List.getD_eq_getElem?_getD, List.getElem?_map] at hmem'
    cases hget : (value.splitOn SEMICOLON)[i]? with
    | none => simp [hget] at hmem'
    | some part =>
      rw [hget] at hmem'
      exact semicolon_notMem_unescapeText
        (semicolon_notMem_splitOn value part (List.mem_of_getElem? hget)) hmem'
  rw [mem_assembled (by decide)]
  rintro ⟨part, hmem, hsemi⟩
  obtain ⟨i, -, rfl⟩ := List.mem_map.1 hmem
  exact hpart i hsemi

theorem nameFromN_nValue {given additional family : Text} (more : List Text)
    (h : ∀ part ∈ [given, additional, family], SEMICOLON ∉ part) :
    nameFromN (nValue given additional family more) =
      if assembled ([given, additional, family].map fun part =>
        unescapeText (escapeText part)) = [] then none
      else some (assembled ([given, additional, family].map fun part =>
        unescapeText (escapeText part))) := by
  have hsplit : ∃ rest, (nValue given additional family more).splitOn SEMICOLON =
      escapeText family :: escapeText given :: escapeText additional :: rest := by
    have hfamily := semicolon_notMem_escapeText (h family (by simp))
    have hgiven := semicolon_notMem_escapeText (h given (by simp))
    have hadditional := semicolon_notMem_escapeText (h additional (by simp))
    unfold nValue
    simp only [List.map_cons, List.intercalate_cons_cons, List.append_assoc,
      List.singleton_append]
    rw [List.splitOn_append_cons_self_of_not_mem hfamily,
      List.splitOn_append_cons_self_of_not_mem hgiven]
    cases more with
    | nil =>
      exact ⟨[], by simp [List.splitOn_eq_singleton hadditional]⟩
    | cons next more =>
      refine ⟨([SEMICOLON].intercalate ((next :: more).map escapeText)).splitOn SEMICOLON, ?_⟩
      simp only [List.map_cons, List.intercalate_cons_cons, List.append_assoc,
        List.singleton_append]
      rw [List.splitOn_append_cons_self_of_not_mem hadditional]
  obtain ⟨rest, hrest⟩ := hsplit
  have htrim : ∀ part : Text, trim (unescapeText part) = unescapeText part :=
    fun part => trim_trim _
  rw [nameFromN_eq, hrest]
  simp [htrim]

/-- A name is shown as it is to be shown exactly where no component has a semicolon, and no
backslash in one has an `n` behind it. -/
theorem nameFromN_iff (given additional family : Text) (more : List Text) :
    nameFromN (nValue given additional family more) = displayName given additional family ↔
      ∀ part ∈ [given, additional, family], SEMICOLON ∉ part ∧ spellsBreak part = false := by
  by_cases hsemi : ∀ part ∈ [given, additional, family], SEMICOLON ∉ part
  · rw [nameFromN_nValue more hsemi, displayName_eq]
    constructor
    · intro h part hpart
      refine ⟨hsemi part hpart, ?_⟩
      have hassembled := congrArg (fun name => (Option.getD name []).countP isN) h
      simp only [getD_ite] at hassembled
      rw [countP_assembled rfl, countP_assembled rfl] at hassembled
      simp only [List.map_cons, List.map_nil, List.sum_cons, List.sum_nil] at hassembled
      have hgiven := countP_unescapeText given
      have hadditional := countP_unescapeText additional
      have hfamily := countP_unescapeText family
      simp only [List.mem_cons, List.not_mem_nil, or_false] at hpart
      rcases hpart with rfl | rfl | rfl
      · exact hgiven.2.1 (by omega)
      · exact hadditional.2.1 (by omega)
      · exact hfamily.2.1 (by omega)
    · intro h
      have hmap : ([given, additional, family].map fun part => unescapeText (escapeText part)) =
          [given, additional, family].map shown :=
        List.map_congr_left fun part hpart => (unescapeText_iff part).2 (h part hpart).2
      rw [hmap]
  · refine iff_of_false ?_ fun h => hsemi fun part hpart => (h part hpart).1
    intro h
    simp only [not_forall, not_not] at hsemi
    obtain ⟨part, hpart, hmem⟩ := hsemi
    have hnone := semicolon_notMem_nameFromN (nValue given additional family more)
    rw [h, displayName_eq, getD_ite] at hnone
    exact hnone ((mem_assembled (by decide) _).2
      ⟨shown part, List.mem_map_of_mem hpart, semicolon_mem_shown hmem⟩)

/-- **Which texts and names are decoded as they were written.**  A text is exactly where it has no
backslash with an `n` or an `N` behind it; a name exactly where none of its three components has
one, nor a semicolon. -/
theorem decodes_iff (text given additional family : Text) (more : List Text) :
    (unescapeText (escapeText text) = shown text ↔ spellsBreak text = false) ∧
      (nameFromN (nValue given additional family more) = displayName given additional family ↔
        ∀ part ∈ [given, additional, family], SEMICOLON ∉ part ∧ spellsBreak part = false) :=
  ⟨unescapeText_iff text, nameFromN_iff given additional family more⟩

/-- A backslash in front of an `n` is shown in front of a space, and a semicolon of a family name
cuts the name up. -/
theorem escapes_misread :
    (¬ ∀ text, unescapeText (escapeText text) = shown text) ∧
      ¬ ∀ given additional family more,
        nameFromN (nValue given additional family more) = displayName given additional family := by
  constructor
  · intro h
    exact absurd (h (ofString "C:\\new")) (by decide +kernel)
  · intro h
    exact absurd (h (ofString "Ana") [] (ofString "Lee; Sons") []) (by decide +kernel)

end VCards
