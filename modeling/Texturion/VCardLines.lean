/-
**Folds, blank lines and ends of cards.**

A content line may be folded anywhere: a line end and one space are put into it, and the parser
takes them out again.  The parser refuses a file in which a continuation reads as a delimiter, and
a fold can make one; every other fold is invisible.  Empty lines are another matter.  Between two
cards they are passed over, but inside a card an empty line has no property name, and the file is
refused for it.  The same holds for the empty line behind the last line end of a file, once the
card above it is not closed.

Main results:

* `VCards.logical_fold`, `VCards.parseVCards_refolds` — **a fold changes no card**;
* `VCards.edit_iff` — **which edits change none**;
* `VCards.parseVCards_append` — **two files put together**.
-/

import Texturion.VCard
import Mathlib.Logic.Relation

namespace VCards

open JsText

/-! ### Lines joined -/

def logical (lines : List Text) : List Text := (folds lines).map joined

/-- What the continuations at the head of the lines add, and the logical lines after them. -/
def glue : List Text → Text × List Text
  | [] => ([], [])
  | line :: lines =>
    if isFolded line then (line.tail ++ (glue lines).1, (glue lines).2)
    else ([], (line ++ (glue lines).1) :: (glue lines).2)

theorem glue_eq (lines : List Text) :
    glue lines = ((takeFolds lines).1.flatMap List.tail, (takeFolds lines).2.map joined) := by
  induction lines with
  | nil => rfl
  | cons line lines ih =>
    rw [glue, ih, takeFolds]
    split_ifs with hfold
    · simp
    · simp [joined]

theorem logical_cons (line : Text) (lines : List Text) :
    logical (line :: lines) = (line ++ (glue lines).1) :: (glue lines).2 := by
  rw [logical, folds, List.map_cons, glue_eq]
  rfl

/-- Lines whose first continues nothing begin a logical line of their own. -/
theorem glue_append (before : List Text) {after : List Text}
    (h : ∀ line ∈ after.head?, isFolded line = false) :
    glue (before ++ after) = ((glue before).1, (glue before).2 ++ logical after) := by
  induction before with
  | nil =>
    cases after with
    | nil => rfl
    | cons line after =>
      have hfold : isFolded line = false := h line rfl
      simp [glue, hfold, logical_cons]
  | cons line before ih =>
    rw [List.cons_append, glue, ih, glue]
    split_ifs <;> rfl

theorem logical_append (before : List Text) {after : List Text}
    (h : ∀ line ∈ after.head?, isFolded line = false) :
    logical (before ++ after) = logical before ++ logical after := by
  cases before with
  | nil => rfl
  | cons line before =>
    rw [List.cons_append, logical_cons, glue_append before h, logical_cons]
    rfl

/-! ### The loop over logical lines -/

section Loop

variable {toUpperCase : Text → Text}

/-- One turn of the parser's loop, without the line it would report. -/
def scanText (toUpperCase : Text → Text) (s : Scan) (text : Text) : Option Scan :=
  if isBegin text then some { s.flush with inCard := true }
  else if isEnd text then some s.flush
  else if !s.inCard then some s
  else (parseContentLine toUpperCase text).map s.read

def scanTexts (toUpperCase : Text → Text) (s : Scan) (texts : List Text) : Option Scan :=
  texts.foldlM (scanText toUpperCase) s

theorem scanTexts_cons (s : Scan) (text : Text) (texts : List Text) :
    scanTexts toUpperCase s (text :: texts) =
      (scanText toUpperCase s text).bind fun t => scanTexts toUpperCase t texts :=
  List.foldlM_cons

theorem scanTexts_append (s : Scan) (before after : List Text) :
    scanTexts toUpperCase s (before ++ after) =
      (scanTexts toUpperCase s before).bind fun t => scanTexts toUpperCase t after :=
  List.foldlM_append

theorem scanLine_toOption (s : Scan) (logical : LogicalLine) :
    (scanLine toUpperCase s logical).toOption = scanText toUpperCase s logical.text := by
  unfold scanLine scanText
  split_ifs
  · rfl
  · rfl
  · rfl
  · cases parseContentLine toUpperCase logical.text <;> rfl

theorem foldlM_toOption (s : Scan) (lines : List LogicalLine) :
    (lines.foldlM (scanLine toUpperCase) s).toOption =
      scanTexts toUpperCase s (lines.map LogicalLine.text) := by
  induction lines generalizing s with
  | nil => rfl
  | cons line lines ih =>
    rw [List.foldlM_cons, List.map_cons, scanTexts_cons, ← scanLine_toOption]
    cases scanLine toUpperCase s line with
    | error e => rfl
    | ok t => exact ih t

theorem parseVCards_ok_iff {text : Text} {cards : List ParsedVCard} :
    parseVCards toUpperCase text = .ok cards ↔
      mergedCard text = false ∧
        (scanTexts toUpperCase {} (logicalLines text)).map (fun s => s.flush.cards) =
          some cards := by
  cases hmerged : mergedCard text with
  | true =>
    obtain ⟨e, he⟩ := unfold_merged hmerged
    simp [parseVCards, he, Except.bind]
  | false =>
    obtain ⟨lines, hlines, htexts⟩ := unfold_ok hmerged
    have hloop := @foldlM_toOption toUpperCase {} lines
    rw [htexts] at hloop
    rw [← hloop, parseVCards, hlines]
    simp only [Except.bind, true_and]
    cases lines.foldlM (scanLine toUpperCase) {} with
    | error e => simp [Except.map, Except.toOption]
    | ok s => simp [Except.map, Except.toOption]

end Loop

/-! ### Folds -/

/-- One fold more: a line is broken up, and its second piece stands behind a space.  The blank of
a continuation stays at the head of its line. -/
inductive Fold : List Text → List Text → Prop
  | split (before : List Text) (a b : Text) (after : List Text)
      (h : before = [] ∨ a ≠ [] ∨ isFolded b = false) :
      Fold (before ++ (a ++ b) :: after) (before ++ a :: (SPACE :: b) :: after)

theorem isFolded_append {a : Text} (ha : a ≠ []) (b : Text) : isFolded (a ++ b) = isFolded a := by
  obtain ⟨u, a, rfl⟩ := List.exists_cons_of_ne_nil ha
  rfl

theorem isFolded_space (text : Text) : isFolded (SPACE :: text) = true := rfl

theorem glue_split {a b : Text} {after : List Text} (h : a ≠ [] ∨ isFolded b = false) :
    glue (a :: (SPACE :: b) :: after) = glue ((a ++ b) :: after) := by
  have hcont : glue ((SPACE :: b) :: after) = (b ++ (glue after).1, (glue after).2) := by
    rw [glue.eq_2, if_pos (isFolded_space b)]
    rfl
  rw [glue.eq_2 a, glue.eq_2 (a ++ b), hcont]
  by_cases ha : a = []
  · subst ha
    have hb : isFolded b = false := h.resolve_left fun hne => hne rfl
    have hnil : isFolded [] = false := rfl
    simp [hb, hnil]
  · rw [isFolded_append ha]
    split_ifs
    · rw [List.tail_append_of_ne_nil ha, List.append_assoc]
    · rw [List.append_assoc]

theorem glue_congr (before : List Text) {l l' : List Text} (h : glue l = glue l') :
    glue (before ++ l) = glue (before ++ l') := by
  induction before with
  | nil => exact h
  | cons line before ih =>
    rw [List.cons_append, List.cons_append, glue.eq_2 line, glue.eq_2 line, ih]

/-- **A fold changes no logical line.** -/
theorem logical_fold {lines lines' : List Text} (h : Fold lines lines') :
    logical lines' = logical lines := by
  obtain ⟨before, a, b, after, hplace⟩ := h
  cases before with
  | nil =>
    have hcont : glue ((SPACE :: b) :: after) = (b ++ (glue after).1, (glue after).2) := by
      rw [glue.eq_2, if_pos (isFolded_space b)]
      rfl
    rw [List.nil_append, List.nil_append, logical_cons, logical_cons, hcont, List.append_assoc]
  | cons line before =>
    have hsplit := @glue_split _ _ after (hplace.resolve_left (List.cons_ne_nil _ _))
    rw [List.cons_append, List.cons_append, logical_cons, logical_cons,
      glue_congr before hsplit]

/-! ### The lines of a text -/

theorem normalize_cons {u : UInt16} (h : u ≠ CR) (rest : Text) :
    normalize (u :: rest) = u :: normalize rest := by
  rw [normalize.eq_def]
  exact if_neg h

theorem normalize_cr {rest : Text} (h : rest.head? ≠ some LF) :
    normalize (CR :: rest) = LF :: normalize rest := by
  rw [normalize.eq_def]
  cases rest with
  | nil => rfl
  | cons next rest =>
    have hnext : next ≠ LF := fun heq => h (by rw [heq]; rfl)
    simp only [if_true, if_neg hnext]

theorem normalize_crlf (rest : Text) : normalize (CR :: LF :: rest) = normalize (LF :: rest) := by
  rw [normalize_cons (u := LF) (by decide), normalize.eq_def]
  simp only [if_true]

/-- A cut that divides no line end. -/
def Whole (p q : Text) : Prop := ¬ (p.getLast? = some CR ∧ q.head? = some LF)

theorem Whole.tail {u : UInt16} {p q : Text} (h : Whole (u :: p) q) : Whole p q := by
  intro hc
  refine h ⟨?_, hc.2⟩
  rw [List.getLast?_cons, hc.1]
  rfl

theorem normalize_append {p q : Text} (h : Whole p q) :
    normalize (p ++ q) = normalize p ++ normalize q := by
  induction p with
  | nil => rfl
  | cons u p ih =>
    have hrest : normalize (p ++ q) = normalize p ++ normalize q := by
      by_cases hp : p = []
      · rw [hp]
        rfl
      · exact ih h.tail
    by_cases hu : u = CR
    · subst hu
      by_cases hp : p.head? = some LF
      · obtain ⟨p, rfl⟩ := List.head?_eq_some_iff.1 hp
        rw [List.cons_append, List.cons_append, normalize_crlf, normalize_crlf]
        exact hrest
      · have hhead : (p ++ q).head? ≠ some LF := by
          cases p with
          | nil => exact fun hq => h ⟨rfl, hq⟩
          | cons v p => exact hp
        rw [List.cons_append, normalize_cr hhead, normalize_cr hp, hrest]
        rfl
    · rw [List.cons_append, normalize_cons hu, normalize_cons hu, hrest]
      rfl

/-- The lines of two texts put together: the last of the one and the first of the other join. -/
theorem splitOn_append (xs ys : Text) :
    ∃ before a b after, xs.splitOn LF = before ++ [a] ∧ ys.splitOn LF = b :: after ∧
      (xs ++ ys).splitOn LF = before ++ (a ++ b) :: after := by
  obtain ⟨b, after, hys⟩ := List.exists_cons_of_ne_nil (List.splitOn_ne_nil LF ys)
  induction xs with
  | nil => exact ⟨[], [], b, after, List.splitOn_nil _, hys, hys⟩
  | cons u xs ih =>
    obtain ⟨before, a, b', after', hxs, hys', happ⟩ := ih
    rw [List.cons_append, List.splitOn_cons_eq_if_modifyHead,
      List.splitOn_cons_eq_if_modifyHead, hxs, happ]
    split_ifs with hu
    · exact ⟨[] :: before, a, b', after', rfl, hys', rfl⟩
    · cases before with
      | nil => exact ⟨[], u :: a, b', after', rfl, hys', rfl⟩
      | cons first before => exact ⟨(u :: first) :: before, a, b', after', rfl, hys', rfl⟩

theorem isFolded_first {q b : Text} {after : List Text}
    (h : (normalize q).splitOn LF = b :: after) : isFolded b = isFolded q := by
  cases q with
  | nil =>
    have hnil : b :: after = [[]] := h.symm.trans (List.splitOn_nil _)
    rw [(List.cons.inj hnil).1]
  | cons u q =>
    by_cases hend : u = CR ∨ u = LF
    · have hlf : ∃ rest, normalize (u :: q) = LF :: rest := by
        rcases hend with rfl | rfl
        · by_cases hq : q.head? = some LF
          · obtain ⟨q, rfl⟩ := List.head?_eq_some_iff.1 hq
            exact ⟨_, (normalize_crlf q).trans (normalize_cons (by decide) q)⟩
          · exact ⟨_, normalize_cr hq⟩
        · exact ⟨_, normalize_cons (by decide) q⟩
      obtain ⟨rest, hrest⟩ := hlf
      rw [hrest, List.splitOn_cons_eq_if_modifyHead, if_pos (by simp)] at h
      rw [← (List.cons.inj h).1]
      rcases hend with rfl | rfl <;> rfl
    · rw [not_or] at hend
      rw [normalize_cons hend.1, List.splitOn_cons_eq_if_modifyHead,
        if_neg (by simpa using hend.2)] at h
      obtain ⟨c, rest, hrest⟩ := List.exists_cons_of_ne_nil (List.splitOn_ne_nil LF (normalize q))
      rw [hrest] at h
      rw [← (List.cons.inj h).1]
      rfl

theorem last_line {p : Text} {before : List Text}
    (h : (normalize p).splitOn LF = before ++ [[]]) (hbefore : before ≠ []) :
    p.getLast? = some CR ∨ p.getLast? = some LF := by
  rcases List.eq_nil_or_concat' p with rfl | ⟨p, u, rfl⟩
  · have hnil : before = [] := by simpa [normalize, List.splitOn_nil] using h
    exact absurd hnil hbefore
  · rw [List.getLast?_concat, Option.some.injEq, Option.some.injEq]
    by_contra hu
    rw [not_or] at hu
    have hwhole : Whole p [u] := fun hc => hu.2 (by simpa using hc.2)
    have hunit : normalize [u] = [u] := normalize_cons hu.1 []
    rw [normalize_append hwhole, hunit] at h
    obtain ⟨lines, a, b, after, -, hone, happ⟩ := splitOn_append (normalize p) [u]
    rw [List.splitOn_eq_singleton (by simpa using Ne.symm hu.2)] at hone
    obtain ⟨rfl, rfl⟩ := List.cons.inj hone
    rw [happ] at h
    have hlast := congrArg List.getLast? h
    simp at hlast

/-! ### Folds of a text -/

/-- One fold more: a line end and a space, put in where they divide no line end, complete none, and
do not take the blank of a continuation away from the line end before it. -/
inductive Refolds : Text → Text → Prop
  | fold (p q lineEnd : Text) (hend : lineEnd = [CR, LF] ∨ lineEnd = [CR] ∨ lineEnd = [LF])
      (hwhole : Whole p q) (hnew : Whole p lineEnd)
      (hplace : p.getLast? = some CR ∨ p.getLast? = some LF → isFolded q = false) :
      Refolds (p ++ q) (p ++ lineEnd ++ SPACE :: q)

theorem normalize_lineEnd {lineEnd : Text}
    (h : lineEnd = [CR, LF] ∨ lineEnd = [CR] ∨ lineEnd = [LF]) : normalize lineEnd = [LF] := by
  rcases h with rfl | rfl | rfl <;> decide

theorem Refolds.rawLines {text text' : Text} (h : Refolds text text') :
    Fold (rawLines text) (rawLines text') := by
  obtain ⟨p, q, lineEnd, hend, hwhole, hnew, hplace⟩ := h
  have hspace : Whole (p ++ lineEnd) (SPACE :: q) := fun hc => absurd hc.2 (by simp [SPACE, LF])
  have htext : normalize (p ++ lineEnd ++ SPACE :: q) =
      normalize p ++ LF :: (SPACE :: normalize q) := by
    rw [normalize_append hspace, normalize_append hnew, normalize_lineEnd hend,
      normalize_cons (by decide), List.append_assoc]
    rfl
  obtain ⟨before, a, b, after, hp, hq, happ⟩ := splitOn_append (normalize p) (normalize q)
  have hfolded : (SPACE :: normalize q).splitOn LF = (SPACE :: b) :: after := by
    rw [List.splitOn_cons_eq_if_modifyHead, if_neg (by decide), hq]
    rfl
  unfold VCards.rawLines
  rw [htext, List.splitOn_append_cons_self, hp, hfolded, normalize_append hwhole, happ,
    List.append_assoc]
  refine Fold.split before a b after ?_
  by_cases hbefore : before = []
  · exact .inl hbefore
  · by_cases ha : a = []
    · subst ha
      exact .inr (.inr ((isFolded_first hq).trans (hplace (last_line hp hbefore))))
    · exact .inr (.inl ha)

theorem unfoldFrom_error {index : ℕ} {lines : List LogicalLine} {rest : List Text}
    {e : VCardMalformedError} (h : unfoldFrom index lines rest = .error e) :
    e.kind = .mergedCard := by
  induction rest generalizing index lines with
  | nil => cases h
  | cons line rest ih =>
    rw [unfoldFrom] at h
    split_ifs at h
    · obtain rfl := Except.error.inj h
      rfl
    · exact ih h
    · exact ih h

theorem parseVCards_merged {toUpperCase : Text → Text} {text : Text} (h : mergedCard text = true) :
    ∃ line, parseVCards toUpperCase text = .error { kind := .mergedCard, line := line } := by
  obtain ⟨e, he⟩ := unfold_merged h
  have hkind := unfoldFrom_error he
  refine ⟨e.line, ?_⟩
  rw [parseVCards, he, ← hkind]
  rfl

/-- **A fold changes no card.**  However often a file is folded, it has the cards it had, but where
a continuation has come to read as a delimiter: then it is refused for that. -/
theorem parseVCards_refolds {toUpperCase : Text → Text} {text text' : Text}
    {cards : List ParsedVCard} (hcards : parseVCards toUpperCase text = .ok cards)
    (hfolds : Relation.ReflTransGen Refolds text text') :
    (mergedCard text' = false → parseVCards toUpperCase text' = .ok cards) ∧
      (mergedCard text' = true →
        ∃ line, parseVCards toUpperCase text' = .error { kind := .mergedCard, line := line }) := by
  have hlogical : logicalLines text' = logicalLines text := by
    induction hfolds with
    | refl => rfl
    | tail _ hstep ih => exact (logical_fold hstep.rawLines).trans ih
  refine ⟨fun hmerged => ?_, parseVCards_merged⟩
  rw [parseVCards_ok_iff, hlogical]
  exact ⟨hmerged, (parseVCards_ok_iff.1 hcards).2⟩

/-- A card whose note reads as a delimiter. -/
def noted : Text := ofString "BEGIN:VCARD\r\nFN:Dana\r\nNOTE:END:VCARD\r\nEND:VCARD\r\n"

def notedCards : List ParsedVCard :=
  [{ name := some (ofString "Dana"), tels := [], properties := [ofString "FN", ofString "NOTE"] }]

/-- The fold within the name of that card. -/
def notedFolded : Text :=
  ofString "BEGIN:VCARD\r\nFN:Da\r\n na\r\nNOTE:END:VCARD\r\nEND:VCARD\r\n"

theorem refolds_noted : Refolds noted notedFolded :=
  .fold (ofString "BEGIN:VCARD\r\nFN:Da") (ofString "na\r\nNOTE:END:VCARD\r\nEND:VCARD\r\n")
    [CR, LF] (.inl rfl) (by unfold Whole; decide) (by unfold Whole; decide) (by decide)

theorem parseVCards_refolds_noted : parseVCards (List.map foldCase) notedFolded = .ok notedCards :=
  (@parseVCards_refolds (List.map foldCase) noted _ _ (by decide +kernel)
    (.single refolds_noted)).1 (by decide +kernel)

/-- The same note is refused once it is folded in front of its value. -/
theorem fold_refused : ¬ ∀ (toUpperCase : Text → Text) (text text' : Text)
    (cards : List ParsedVCard), parseVCards toUpperCase text = .ok cards →
      Relation.ReflTransGen Refolds text text' → parseVCards toUpperCase text' = .ok cards := by
  intro h
  have hfold : Refolds noted
      (ofString "BEGIN:VCARD\r\nFN:Dana\r\nNOTE:\r\n END:VCARD\r\nEND:VCARD\r\n") :=
    .fold (ofString "BEGIN:VCARD\r\nFN:Dana\r\nNOTE:") (ofString "END:VCARD\r\nEND:VCARD\r\n")
      [CR, LF] (.inl rfl) (by unfold Whole; decide) (by unfold Whole; decide) (by decide)
  have hsame := h (List.map foldCase) noted _ notedCards (by decide +kernel) (.single hfold)
  exact absurd hsame (by decide +kernel)

/-! ### Open cards -/

/-- Whether a card is open behind the logical lines, which is a matter of the delimiters. -/
def openBehind (inCard : Bool) : List Text → Bool
  | [] => inCard
  | line :: lines =>
    openBehind (if isBegin line then true else if isEnd line then false else inCard) lines

/-- What the open card has come to. -/
def Scan.card (s : Scan) : ParsedVCard :=
  { name := s.fn <|> s.nName, tels := s.tels, properties := s.properties }

theorem Scan.flush_open {s : Scan} (h : s.inCard = true) :
    s.flush = { cards := s.cards ++ [s.card] } := by
  rw [Scan.flush, if_pos h]
  rfl

theorem Scan.flush_closed {s : Scan} (h : s.inCard = false) : s.flush = s := by
  rw [Scan.flush, h]
  rfl

theorem Scan.flush_inCard (s : Scan) : s.flush.inCard = false := by
  cases h : s.inCard with
  | true => rw [Scan.flush_open h]
  | false => rw [Scan.flush_closed h, h]

section Loop

variable {toUpperCase : Text → Text}

theorem scanText_inCard {s t : Scan} {line : Text} (h : scanText toUpperCase s line = some t) :
    t.inCard = if isBegin line then true else if isEnd line then false else s.inCard := by
  unfold scanText at h
  split_ifs at h ⊢ with hbegin hend hcard
  · obtain rfl := Option.some.inj h
    rfl
  · obtain rfl := Option.some.inj h
    exact s.flush_inCard
  · obtain rfl := Option.some.inj h
    rfl
  · obtain ⟨parsed, -, rfl⟩ := Option.map_eq_some_iff.1 h
    exact s.read_inCard parsed

variable {lines : List Text}

theorem scanTexts_inCard {s t : Scan}
    (h : scanTexts toUpperCase s lines = some t) : t.inCard = openBehind s.inCard lines := by
  induction lines generalizing s with
  | nil =>
    obtain rfl := Option.some.inj h
    rfl
  | cons line lines ih =>
    rw [scanTexts_cons] at h
    obtain ⟨u, hu, hrest⟩ := Option.bind_eq_some_iff.1 h
    rw [openBehind, ← scanText_inCard hu]
    exact ih hrest

/-- An empty line is passed over between two cards, and refused inside one. -/
theorem scanText_nil (s : Scan) :
    scanText toUpperCase s [] = if s.inCard then none else some s := by
  have hnone : parseContentLine toUpperCase [] = none := by
    simp [parseContentLine, firstColon, List.splitOn_nil]
  cases hcard : s.inCard with
  | true =>
    rw [scanText, if_neg (by decide), if_neg (by decide), hcard, hnone]
    rfl
  | false =>
    rw [scanText, if_neg (by decide), if_neg (by decide), hcard]
    rfl

/-- Cards that were closed before stay in front. -/
def Scan.after (cards : List ParsedVCard) (s : Scan) : Scan := { s with cards := cards ++ s.cards }

section

variable (cards : List ParsedVCard)

theorem Scan.flush_after (s : Scan) : (s.after cards).flush = s.flush.after cards := by
  cases h : s.inCard with
  | true =>
    have hafter : (s.after cards).inCard = true := h
    rw [Scan.flush_open hafter, Scan.flush_open h]
    simp [Scan.after, Scan.card]
  | false =>
    have hafter : (s.after cards).inCard = false := h
    rw [Scan.flush_closed hafter, Scan.flush_closed h]

theorem Scan.read_after (s : Scan) (parsed : ContentLine) :
    (s.after cards).read parsed = (s.read parsed).after cards := by
  unfold Scan.read Scan.after
  cases parsed.value with
  | none => rfl
  | some value =>
    simp only
    split_ifs <;> rfl

theorem scanText_after (s : Scan) (line : Text) :
    scanText toUpperCase (s.after cards) line =
      (scanText toUpperCase s line).map (Scan.after cards) := by
  have hcard : (s.after cards).inCard = s.inCard := rfl
  unfold scanText
  rw [hcard, Scan.flush_after]
  split_ifs
  · rfl
  · rfl
  · rfl
  · cases parseContentLine toUpperCase line with
    | none => rfl
    | some parsed => exact congrArg some (s.read_after cards parsed)

theorem scanTexts_after (s : Scan) (lines : List Text) :
    scanTexts toUpperCase (s.after cards) lines =
      (scanTexts toUpperCase s lines).map (Scan.after cards) := by
  induction lines generalizing s with
  | nil => rfl
  | cons line lines ih =>
    rw [scanTexts_cons, scanTexts_cons, scanText_after]
    cases scanText toUpperCase s line with
    | none => rfl
    | some t => exact ih t

end

theorem scanTexts_outside {s : Scan} (hs : s.inCard = false)
    (hbegin : ∀ line ∈ lines, isBegin line = false) : scanTexts toUpperCase s lines = some s := by
  induction lines with
  | nil => rfl
  | cons line lines ih =>
    have hline : scanText toUpperCase s line = some s := by
      unfold scanText
      rw [hbegin line (List.mem_cons_self ..), hs, Scan.flush_closed hs]
      simp
    rw [scanTexts_cons, hline]
    exact ih fun l hl => hbegin l (List.mem_cons_of_mem _ hl)

theorem scanTexts_inside {s t : Scan} (hs : s.inCard = true)
    (hlines : ∀ line ∈ lines, isBegin line = false ∧ isEnd line = false)
    (h : scanTexts toUpperCase s lines = some t) : t.inCard = true ∧ t.cards = s.cards := by
  induction lines generalizing s with
  | nil =>
    obtain rfl := Option.some.inj h
    exact ⟨hs, rfl⟩
  | cons line lines ih =>
    obtain ⟨hbegin, hend⟩ := hlines line (List.mem_cons_self ..)
    rw [scanTexts_cons] at h
    obtain ⟨u, hu, hrest⟩ := Option.bind_eq_some_iff.1 h
    have hread : ∃ parsed, s.read parsed = u := by
      rw [scanText, hbegin, hend, hs] at hu
      obtain ⟨parsed, -, hparsed⟩ := Option.map_eq_some_iff.1 hu
      exact ⟨parsed, hparsed⟩
    obtain ⟨parsed, rfl⟩ := hread
    obtain ⟨hopen, hcards⟩ := ih ((s.read_inCard parsed).trans hs)
      (fun l hl => hlines l (List.mem_cons_of_mem _ hl)) hrest
    exact ⟨hopen, hcards.trans (s.read_cards parsed)⟩

/-- From a line that begins a card on, or from the end of the file, only the cards before count. -/
theorem scanTexts_fresh {s : Scan} (hs : s.inCard = true)
    (hhead : ∀ line ∈ lines.head?, isBegin line = true) :
    (scanTexts toUpperCase s lines).map (fun t => t.flush.cards) =
      (scanTexts toUpperCase {} lines).map fun t => s.flush.cards ++ t.flush.cards := by
  cases lines with
  | nil =>
    change some s.flush.cards = some (s.flush.cards ++ [])
    rw [List.append_nil]
  | cons line lines =>
    have hbegin : isBegin line = true := hhead line rfl
    have hline : scanText toUpperCase s line =
        some (({ inCard := true } : Scan).after s.flush.cards) := by
      rw [scanText, if_pos hbegin, Scan.flush_open hs]
      simp [Scan.after]
    have hfresh : scanText toUpperCase {} line = some { inCard := true } := by
      rw [scanText, if_pos hbegin]
      rfl
    rw [scanTexts_cons, scanTexts_cons, hline, hfresh]
    simp only [Option.bind_some, scanTexts_after, Option.map_map]
    refine congrArg (fun f => Option.map f _) (funext fun t => ?_)
    rw [Function.comp_apply, Scan.flush_after]
    rfl

end Loop

/-! ### Edits -/

/-- An empty line put between two lines of a file; a line end put behind its last line; the last
line that ends a card taken out, with its continuations. -/
inductive Edit
  | blankLine (before after : List Text)
  | trailingNewline (lines : List Text)
  | withoutEnd (before : List Text) (line : Text) (conts after : List Text)

namespace Edit

def source : Edit → List Text
  | blankLine before after => before ++ after
  | trailingNewline lines => lines
  | withoutEnd before line conts after => before ++ (line :: conts) ++ after

def target : Edit → List Text
  | blankLine before after => before ++ [] :: after
  | trailingNewline lines => lines ++ [[]]
  | withoutEnd before _ _ after => before ++ after

/-- The empty line stands between two content lines, not in front of a continuation; the line taken
out is a content line that ends a card, and the last one to do so. -/
def Fits : Edit → Prop
  | blankLine before after => before ≠ [] ∧ ∀ line ∈ after.head?, isFolded line = false
  | trailingNewline _ => True
  | withoutEnd before line conts after =>
    (before ≠ [] → isFolded line = false) ∧ (∀ cont ∈ conts, isFolded cont = true) ∧
      (∀ next ∈ after.head?, isFolded next = false) ∧ isEnd (joined (line, conts)) = true ∧
      ∀ later ∈ logical after, isEnd later = false

/-- The lines that come to stand in the open card when its end is taken out. -/
def exposed (after : List Text) : List Text := (logical after).takeWhile fun line => !isBegin line

/-- No card is open where the edit takes place.  The end of an open card may be taken out where
the lines up to the next card, read on into it, leave it what it was. -/
def Harmless (toUpperCase : Text → Text) : Edit → Prop
  | blankLine before _ => openBehind false (logical before) = false
  | trailingNewline lines => openBehind false (logical lines) = false
  | withoutEnd before _ _ after =>
    openBehind false (logical before) = false ∨
      ∃ s t, scanTexts toUpperCase {} (logical before) = some s ∧
        scanTexts toUpperCase s (exposed after) = some t ∧ t.card = s.card

end Edit

/-! ### Which edits change no card -/

section Edits

variable {toUpperCase : Text → Text} {text text' : Text} {cards : List ParsedVCard}

theorem logical_nil_cons {after : List Text} (h : ∀ line ∈ after.head?, isFolded line = false) :
    logical ([] :: after) = [] :: logical after := by
  rw [← List.singleton_append, logical_append [[]] h]
  rfl

theorem blank_iff (h : parseVCards toUpperCase text = .ok cards) {before after : List Text}
    (hbefore : before ≠ []) (hafter : ∀ line ∈ after.head?, isFolded line = false)
    (hsource : rawLines text = before ++ after) (htarget : rawLines text' = before ++ [] :: after) :
    parseVCards toUpperCase text' = .ok cards ↔ openBehind false (logical before) = false := by
  obtain ⟨hmerged, hcards⟩ := parseVCards_ok_iff.1 h
  obtain ⟨first, before, rfl⟩ := List.exists_cons_of_ne_nil hbefore
  have hmerged' : mergedCard text' = false := by
    have hnil : isMerged [] = false := rfl
    rw [mergedCard, hsource] at hmerged
    rw [mergedCard, htarget]
    simpa [hnil] using hmerged
  have hlogical : logicalLines text = logical (first :: before) ++ logical after :=
    (congrArg logical hsource).trans (logical_append _ hafter)
  have hlogical' : logicalLines text' = logical (first :: before) ++ [] :: logical after := by
    refine (congrArg logical htarget).trans ?_
    rw [logical_append _ (by simp; rfl), logical_nil_cons hafter]
  rw [hlogical, scanTexts_append] at hcards
  rw [parseVCards_ok_iff, hlogical', scanTexts_append, and_iff_right hmerged']
  cases hscan : scanTexts toUpperCase {} (logical (first :: before)) with
  | none =>
    rw [hscan] at hcards
    cases hcards
  | some s =>
    rw [hscan, Option.bind_some] at hcards
    have hopen := scanTexts_inCard hscan
    rw [Option.bind_some, scanTexts_cons, scanText_nil, ← hopen]
    cases hcard : s.inCard with
    | true => simp
    | false => simpa using hcards

theorem glue_conts {conts : List Text} (h : ∀ cont ∈ conts, isFolded cont = true) :
    glue conts = (conts.flatMap List.tail, []) := by
  induction conts with
  | nil => rfl
  | cons cont conts ih =>
    rw [glue, if_pos (h cont (List.mem_cons_self ..)),
      ih fun c hc => h c (List.mem_cons_of_mem _ hc)]
    rfl

theorem isBegin_of_isEnd {line : Text} (h : isEnd line = true) : isBegin line = false := by
  rw [isEnd, matchesWord, beq_iff_eq] at h
  rw [isBegin, matchesWord, h]
  decide

theorem withoutEnd_iff (h : parseVCards toUpperCase text = .ok cards) {before : List Text}
    {line : Text} {conts after : List Text} (hfits : (Edit.withoutEnd before line conts after).Fits)
    (hsource : rawLines text = before ++ (line :: conts) ++ after)
    (htarget : rawLines text' = before ++ after) :
    parseVCards toUpperCase text' = .ok cards ↔
      (Edit.withoutEnd before line conts after).Harmless toUpperCase := by
  obtain ⟨hline, hconts, hafter, hend, hlater⟩ := hfits
  obtain ⟨hmerged, hcards⟩ := parseVCards_ok_iff.1 h
  have hmerged' : mergedCard text' = false := by
    rw [mergedCard, hsource] at hmerged
    rw [mergedCard, htarget]
    cases before with
    | nil =>
      have hall : (conts ++ after).any isMerged = false := hmerged
      rw [List.any_append, Bool.or_eq_false_iff] at hall
      rw [List.nil_append, ← List.drop_one, List.any_eq_false]
      exact fun l hl => List.any_eq_false.1 hall.2 l (List.mem_of_mem_drop hl)
    | cons first before =>
      have hall : (before ++ (line :: conts) ++ after).any isMerged = false := hmerged
      rw [List.any_append, List.any_append, Bool.or_eq_false_iff, Bool.or_eq_false_iff] at hall
      rw [List.cons_append, List.tail_cons, List.any_append, hall.1.1, hall.2]
      rfl
  have hlogical : logicalLines text =
      logical before ++ joined (line, conts) :: logical after := by
    have hone : logical (line :: conts) = [joined (line, conts)] := by
      rw [logical_cons, glue_conts hconts]
      rfl
    refine (congrArg logical hsource).trans ?_
    rw [logical_append _ hafter]
    by_cases hbefore : before = []
    · rw [hbefore, List.nil_append, hone]
      rfl
    · rw [logical_append before (by simpa using hline hbefore), hone, List.append_assoc]
      rfl
  have hlogical' : logicalLines text' = logical before ++ logical after :=
    (congrArg logical htarget).trans (logical_append _ hafter)
  rw [hlogical, scanTexts_append] at hcards
  rw [parseVCards_ok_iff, hlogical', scanTexts_append, and_iff_right hmerged', Edit.Harmless]
  cases hscan : scanTexts toUpperCase {} (logical before) with
  | none =>
    rw [hscan] at hcards
    cases hcards
  | some s =>
    have hbegin := isBegin_of_isEnd hend
    have hclosed : scanText toUpperCase s (joined (line, conts)) = some s.flush := by
      rw [scanText, hbegin, hend]
      rfl
    have hopen := scanTexts_inCard hscan
    rw [hscan, Option.bind_some, scanTexts_cons, hclosed, Option.bind_some] at hcards
    rw [Option.bind_some, ← hopen]
    cases hcard : s.inCard with
    | false =>
      rw [Scan.flush_closed hcard] at hcards
      simpa using hcards
    | true =>
      -- the exposed lines, and the cards behind them
      obtain ⟨rest, hrest⟩ : ∃ rest, logical after = Edit.exposed after ++ rest ∧
          ∀ line ∈ rest.head?, isBegin line = true := by
        refine ⟨_, (List.takeWhile_append_dropWhile).symm, fun l hl => ?_⟩
        have hnot := List.head?_dropWhile_not (fun line => !isBegin line) (logical after)
        rw [Option.mem_def.1 hl] at hnot
        simpa using hnot
      have hexposed : ∀ line ∈ Edit.exposed after,
          isBegin line = false ∧ isEnd line = false := by
        intro l hl
        have hbefore := List.mem_takeWhile_imp hl
        exact ⟨by simpa using hbefore, hlater l ((List.takeWhile_sublist _).subset hl)⟩
      rw [hrest.1, scanTexts_append] at hcards ⊢
      rw [scanTexts_outside s.flush_inCard fun l hl => (hexposed l hl).1, Option.bind_some]
        at hcards
      have hfresh : s.flush = ({} : Scan).after (s.cards ++ [s.card]) := by
        rw [Scan.flush_open hcard]
        simp [Scan.after]
      rw [hfresh, scanTexts_after, Option.map_map] at hcards
      obtain ⟨m, hm, rfl⟩ := Option.map_eq_some_iff.1 hcards
      cases hread : scanTexts toUpperCase s (Edit.exposed after) with
      | none =>
        refine iff_of_false (by simp) ?_
        rintro (hfalse | ⟨s', t', hs', ht', -⟩)
        · cases hfalse
        · obtain rfl := Option.some.inj hs'
          rw [hread] at ht'
          cases ht'
      | some t =>
        obtain ⟨htopen, htcards⟩ := scanTexts_inside hcard hexposed hread
        rw [Option.bind_some, scanTexts_fresh htopen hrest.2, hm, Scan.flush_open htopen]
        have hwhole : (s.cards ++ [t.card]) ++ m.flush.cards =
            (s.cards ++ [s.card]) ++ m.flush.cards ↔ t.card = s.card := by
          rw [List.append_left_inj, List.append_right_inj]
          simp
        simp only [Option.map_some, Option.some.injEq, Function.comp_apply,
          Scan.flush_after, htcards]
        refine hwhole.trans ⟨fun heq => .inr ⟨s, t, rfl, hread, heq⟩, ?_⟩
        rintro (hfalse | ⟨s', t', hs', ht', heq⟩)
        · cases hfalse
        · subst hs'
          obtain rfl := Option.some.inj (hread.symm.trans ht')
          exact heq

/-- **Which edits change no card.**  A file that is accepted has the same cards after an edit
exactly where no card is open at the place of it or, where the end of an open card is taken out,
where nothing that comes to stand in the card adds to it. -/
theorem edit_iff (h : parseVCards toUpperCase text = .ok cards) (edit : Edit) (hfits : edit.Fits)
    (hsource : rawLines text = edit.source) (htarget : rawLines text' = edit.target) :
    parseVCards toUpperCase text' = .ok cards ↔ edit.Harmless toUpperCase := by
  cases edit with
  | blankLine before after => exact blank_iff h hfits.1 hfits.2 hsource htarget
  | trailingNewline lines =>
    have hne : lines ≠ [] := by
      obtain ⟨first, rest, hraw⟩ := rawLines_cons text
      rw [hraw] at hsource
      rw [← show first :: rest = lines from hsource]
      exact List.cons_ne_nil _ _
    exact @blank_iff _ _ _ _ h _ [] hne nofun
      (hsource.trans (List.append_nil _).symm) htarget
  | withoutEnd before line conts after => exact withoutEnd_iff h hfits hsource htarget

end Edits

/-- Two cards, the second of them not closed. -/
def twoCards : Text :=
  ofString "BEGIN:VCARD\r\nFN:Dana\r\nEND:VCARD\r\nBEGIN:VCARD\r\nFN:Sam\r\nTEL:555"

theorem edit_iff_twoCards :
    parseVCards (List.map foldCase)
        (ofString "BEGIN:VCARD\r\nFN:Dana\r\nBEGIN:VCARD\r\nFN:Sam\r\nTEL:555") =
      .ok [{ name := some (ofString "Dana"), tels := [], properties := [ofString "FN"] },
        { name := some (ofString "Sam"), tels := [ofString "555"],
          properties := [ofString "FN", ofString "TEL"] }] :=
  (@edit_iff _ twoCards _ _ (by decide +kernel)
    (.withoutEnd [ofString "BEGIN:VCARD", ofString "FN:Dana"] (ofString "END:VCARD") []
      [ofString "BEGIN:VCARD", ofString "FN:Sam", ofString "TEL:555"])
    (by simp only [Edit.Fits]; decide +kernel) (by decide +kernel) (by decide +kernel)).2
    (.inr ⟨{ inCard := true, fn := some (ofString "Dana"), properties := [ofString "FN"] },
      { inCard := true, fn := some (ofString "Dana"), properties := [ofString "FN"] },
      by decide +kernel, by decide +kernel, rfl⟩)

/-- The last card is not closed, as in a file that was cut off; with a line end behind it the file
is refused. -/
theorem trailing_newline_refused : ¬ ∀ (toUpperCase : Text → Text) (text text' : Text)
    (cards : List ParsedVCard) (edit : Edit), parseVCards toUpperCase text = .ok cards →
      edit.Fits → rawLines text = edit.source → rawLines text' = edit.target →
        parseVCards toUpperCase text' = .ok cards := by
  intro h
  have hsame := h (List.map foldCase) (ofString "BEGIN:VCARD\r\nFN:Sam\r\nTEL:555")
    (ofString "BEGIN:VCARD\r\nFN:Sam\r\nTEL:555\r\n")
    [{ name := some (ofString "Sam"), tels := [ofString "555"],
       properties := [ofString "FN", ofString "TEL"] }]
    (.trailingNewline [ofString "BEGIN:VCARD", ofString "FN:Sam", ofString "TEL:555"])
    (by decide +kernel) trivial (by decide +kernel) (by decide +kernel)
  exact absurd hsame (by decide +kernel)

/-! ### Files put together -/

/-- A scan that has no card open keeps nothing but the cards. -/
theorem scanTexts_closed {toUpperCase : Text → Text} {lines : List Text} {s t : Scan}
    (hs : s.inCard = false → s = ({} : Scan).after s.cards)
    (h : scanTexts toUpperCase s lines = some t) (ht : t.inCard = false) :
    t = ({} : Scan).after t.cards := by
  induction lines generalizing s with
  | nil =>
    obtain rfl := Option.some.inj h
    exact hs ht
  | cons line lines ih =>
    rw [scanTexts_cons] at h
    obtain ⟨u, hu, hrest⟩ := Option.bind_eq_some_iff.1 h
    refine ih (fun hclosed => ?_) hrest
    unfold scanText at hu
    split_ifs at hu with hbegin hend hout
    · obtain rfl := Option.some.inj hu
      cases hclosed
    · obtain rfl := Option.some.inj hu
      cases hopen : s.inCard with
      | true => simp [Scan.flush_open hopen, Scan.after]
      | false =>
        rw [Scan.flush_closed hopen]
        exact hs hopen
    · obtain rfl := Option.some.inj hu
      exact hs hclosed
    · obtain ⟨parsed, -, rfl⟩ := Option.map_eq_some_iff.1 hu
      rw [Scan.read_inCard] at hclosed
      simp [hclosed] at hout

/-- **Two files put together have the cards of both**, where the first ends with a line end. -/
theorem parseVCards_append {toUpperCase : Text → Text} {p lineEnd q : Text}
    {cards cards' : List ParsedVCard}
    (hend : lineEnd = [CR, LF] ∨ lineEnd = [CR] ∨ lineEnd = [LF])
    (hnew : Whole p lineEnd) (hwhole : Whole (p ++ lineEnd) q) (hplace : isFolded q = false)
    (hp : parseVCards toUpperCase (p ++ lineEnd) = .ok cards)
    (hq : parseVCards toUpperCase q = .ok cards') :
    parseVCards toUpperCase (p ++ lineEnd ++ q) = .ok (cards ++ cards') := by
  have hlines : rawLines (p ++ lineEnd) = rawLines p ++ [[]] := by
    rw [rawLines, normalize_append hnew, normalize_lineEnd hend, List.splitOn_append_cons_self,
      List.splitOn_nil]
    rfl
  have hboth : rawLines (p ++ lineEnd ++ q) = rawLines p ++ rawLines q := by
    rw [rawLines, normalize_append hwhole, normalize_append hnew, normalize_lineEnd hend,
      List.append_assoc, List.singleton_append, List.splitOn_append_cons_self]
    rfl
  obtain ⟨first, rest, hraw⟩ := rawLines_cons p
  obtain ⟨first', rest', hraw'⟩ := rawLines_cons q
  have hfirst : isFolded first' = false := (isFolded_first hraw').trans hplace
  have hlogical : ∀ text, logicalLines text = logical (rawLines text) := fun _ => rfl
  rw [parseVCards_ok_iff, hlogical] at hp hq ⊢
  rw [hlines, logical_append _ (by rintro _ ⟨⟩; rfl), scanTexts_append] at hp
  rw [hboth, logical_append _ (by rw [hraw']; rintro _ ⟨⟩; exact hfirst), scanTexts_append]
  obtain ⟨s, hs, rfl⟩ := Option.map_eq_some_iff.1 hp.2
  obtain ⟨t, ht, hlast⟩ := Option.bind_eq_some_iff.1 hs
  obtain ⟨u, hu, rfl⟩ := Option.map_eq_some_iff.1 hq.2
  constructor
  · have hmerged := hp.1
    have hmerged' := hq.1
    simp only [mergedCard, hlines, hboth, hraw, hraw', List.cons_append, List.tail_cons,
      List.any_append, List.any_cons, Bool.or_eq_false_iff] at hmerged hmerged' ⊢
    exact ⟨hmerged.1, by simp [isMerged, hfirst], hmerged'⟩
  · -- the empty line behind the first file is read outside of any card
    change (scanText toUpperCase t []).bind some = some s at hlast
    rw [Option.bind_fun_some, scanText_nil] at hlast
    split_ifs at hlast with hopen
    obtain rfl := Option.some.inj hlast
    have hclosed : t.inCard = false := by simpa using hopen
    rw [ht, Option.bind_some, scanTexts_closed (fun _ => rfl) ht hclosed, scanTexts_after, hu]
    rw [Option.map_some, Option.map_some, Scan.flush_after, Scan.flush_after]
    simp [Scan.after, Scan.flush_closed]

theorem parseVCards_append_noted :
    parseVCards (List.map foldCase) (noted ++ noted) = .ok (notedCards ++ notedCards) :=
  @parseVCards_append _ (ofString "BEGIN:VCARD\r\nFN:Dana\r\nNOTE:END:VCARD\r\nEND:VCARD")
    [CR, LF] noted _ _ (.inl rfl) (by unfold Whole; decide +kernel)
    (by unfold Whole; decide +kernel) rfl (by decide +kernel) (by decide +kernel)

end VCards
