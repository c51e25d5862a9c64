/-
**Cards in a `.vcf` file.**

The parser of `apps/api/src/routes/core/vcard.ts` cuts the file into lines, joins every line that
starts with a blank to the line above it, and only then looks for the delimiters of a card.  A
delimiter on a continuation is refused.  A delimiter that a continuation is joined to is not: the
line `BEGIN:VCARD` with a continuation under it no longer reads `BEGIN:VCARD`, and its card is lost
or runs on into the one before it.

Main results:

* `VCards.length_parseVCards` — **a card for every logical line that begins one**;
* `VCards.keepsEveryCard_iff` — **exactly which files keep every card.**
-/

import Mathlib.Algebra.Ring.Nat
import Texturion.JsText

namespace VCards

open JsText

def LF : UInt16 := 0x0A

def CR : UInt16 := 0x0D

def TAB : UInt16 := 0x09

def SPACE : UInt16 := 0x20

def QUOTE : UInt16 := 0x22

def COMMA : UInt16 := 0x2C

def DOT : UInt16 := 0x2E

def COLON : UInt16 := 0x3A

def SEMICOLON : UInt16 := 0x3B

def EQUALS : UInt16 := 0x3D

def BACKSLASH : UInt16 := 0x5C

/-! ### Lines -/

/-- What the parser extracts of one card. -/
structure ParsedVCard where
  name : Option Text
  tels : List Text
  properties : List Text
  deriving DecidableEq

inductive MalformedKind
  | mergedCard
  | namelessProperty
  deriving DecidableEq

/-- A structurally malformed file, and the 1-based line to look at. -/
structure VCardMalformedError where
  kind : MalformedKind
  line : ℕ
  deriving DecidableEq

/-- One logical content line, and the file line it started on. -/
structure LogicalLine where
  text : Text
  line : ℕ
  deriving DecidableEq

/-- `text.replace(/\r\n?/g, "\n")`. -/
def normalize : Text → Text
  | [] => []
  | u :: rest =>
    if u = CR then
      match rest with
      | [] => [LF]
      | next :: rest' => LF :: if next = LF then normalize rest' else normalize (next :: rest')
    else u :: normalize rest

def rawLines (text : Text) : List Text := (normalize text).splitOn LF

/-- `/^BEGIN:VCARD$/i`, on the trimmed line. -/
def isBegin (line : Text) : Bool := matchesWord (ofString "BEGIN:VCARD") (trim line)

/-- `/^END:VCARD$/i`, on the trimmed line. -/
def isEnd (line : Text) : Bool := matchesWord (ofString "END:VCARD") (trim line)

/-- `line.startsWith(" ") || line.startsWith("\t")`. -/
def isFolded (line : Text) : Bool := line.head? == some SPACE || line.head? == some TAB

/-- `lines[lines.length - 1].text += text`. -/
def appendToLast (text : Text) : List LogicalLine → List LogicalLine
  | [] => []
  | [last] => [{ last with text := last.text ++ text }]
  | line :: lines => line :: appendToLast text lines

/-- The loop of `unfold`, from the raw line at an index on. -/
def unfoldFrom (index : ℕ) (lines : List LogicalLine) :
    List Text → Except VCardMalformedError (List LogicalLine)
  | [] => .ok lines
  | line :: rest =>
    if isFolded line && lines.length > 0 then
      if isBegin line || isEnd line then .error { kind := .mergedCard, line := index + 1 }
      else unfoldFrom (index + 1) (appendToLast line.tail lines) rest
    else unfoldFrom (index + 1) (lines ++ [{ text := line, line := index + 1 }]) rest

/-- Unfold folded lines: a line that starts with a blank continues the one before. -/
def unfold (text : Text) : Except VCardMalformedError (List LogicalLine) :=
  unfoldFrom 0 [] (rawLines text)

/-! ### Content lines -/

/-- A property, its parameters, and the text after its colon if it has one. -/
structure ContentLine where
  name : Text
  params : List Text
  value : Option Text
  deriving DecidableEq

def firstColon (inQuotes : Bool) : Text → Option ℕ
  | [] => none
  | u :: rest =>
    if u = QUOTE then (firstColon (!inQuotes) rest).map (· + 1)
    else if u = COLON ∧ inQuotes = false then some 0
    else (firstColon inQuotes rest).map (· + 1)

/-- Put an entry at the end of a list that does not have it yet. -/
def addNew (entries : List Text) (entry : Text) : List Text :=
  if entries.contains entry then entries else entries ++ [entry]

/-- One parameter segment: its name, if it has one, joins the list. -/
def addParam (toUpperCase : Text → Text) (params : List Text) (segment : Text) : List Text :=
  let param := toUpperCase (trim (segment.takeWhile fun u => u != EQUALS))
  if param != [] then addNew params param else params

/-- Split a content line.  `toUpperCase` is the one of the language. -/
def parseContentLine (toUpperCase : Text → Text) (line : Text) : Option ContentLine :=
  let colon := firstColon false line
  let namePart := match colon with
    | some i => line.take i
    | none => line
  let value := colon.map fun i => line.drop (i + 1)
  let segments := namePart.splitOn SEMICOLON
  -- what stands after the last dot, or all of it
  let propName := (trim (segments.headD [])).rtakeWhile fun u => u != DOT
  if propName = [] then none
  else some
    { name := toUpperCase propName
      params := segments.tail.foldl (addParam toUpperCase) []
      value := value }

def replaceEscape (p : UInt16 → Bool) (unit : UInt16) : Text → Text
  | [] => []
  | u :: rest =>
    if u = BACKSLASH then
      match rest with
      | [] => [u]
      | next :: rest' =>
        if p next then unit :: replaceEscape p unit rest'
        else u :: replaceEscape p unit (next :: rest')
    else u :: replaceEscape p unit rest

/-- Unescape the text of `FN` and `N`. -/
def unescapeText (value : Text) : Text :=
  let spaced := replaceEscape (fun u => foldCase u == 0x4E) SPACE value
  let commas := replaceEscape (fun u => u == COMMA) COMMA spaced
  let semicolons := replaceEscape (fun u => u == SEMICOLON) SEMICOLON commas
  trim (replaceEscape (fun u => u == BACKSLASH) BACKSLASH semicolons)

/-- Assemble a name from a structured `N` value: family, given, additional. -/
def nameFromN (value : Text) : Option Text :=
  let parts := (value.splitOn SEMICOLON).map unescapeText
  let family := parts.getD 0 []
  let given := parts.getD 1 []
  let additional := parts.getD 2 []
  let assembled := [SPACE].intercalate
    (([given, additional, family].map trim).filter fun part => part != [])
  if assembled = [] then none else some assembled

/-- Normalize a raw `TEL` value: its scheme goes. -/
def cleanTel (raw : Text) : Text :=
  let value := trim raw
  trim (if matchesWord (ofString "TEL:") (value.take 4) then value.drop 4 else value)

def vcardParameterProperty (property parameter : Text) : Text :=
  property ++ SEMICOLON :: parameter

/-! ### The parser -/

/-- The variables of the parser's loop. -/
structure Scan where
  cards : List ParsedVCard := []
  inCard : Bool := false
  fn : Option Text := none
  nName : Option Text := none
  tels : List Text := []
  properties : List Text := []
  deriving DecidableEq

/-- Close the card that is open, if one is. -/
def Scan.flush (s : Scan) : Scan :=
  if s.inCard then
    { cards := s.cards ++ [{ name := s.fn <|> s.nName, tels := s.tels,
                             properties := s.properties }] }
  else s

/-- A property of the open card. -/
def Scan.read (s : Scan) (parsed : ContentLine) : Scan :=
  let listed := { s with
    properties := parsed.params.foldl
      (fun properties param => addNew properties (vcardParameterProperty parsed.name param))
      (addNew s.properties parsed.name) }
  match parsed.value with
  | none => listed
  | some value =>
    if parsed.name = ofString "FN" then
      let name := unescapeText value
      if name != [] then { listed with fn := some name } else listed
    else if parsed.name = ofString "N" ∧ s.nName = none then
      { listed with nName := nameFromN value }
    else if parsed.name = ofString "TEL" then
      let tel := cleanTel value
      if tel != [] then { listed with tels := addNew s.tels tel } else listed
    else listed

/-- One turn of the parser's loop. -/
def scanLine (toUpperCase : Text → Text) (s : Scan) (logical : LogicalLine) :
    Except VCardMalformedError Scan :=
  if isBegin logical.text then .ok { s.flush with inCard := true }
  else if isEnd logical.text then .ok s.flush
  else if !s.inCard then .ok s
  else
    match parseContentLine toUpperCase logical.text with
    | none => .error { kind := .namelessProperty, line := logical.line }
    | some parsed => .ok (s.read parsed)

/-- Parse a whole file. -/
def parseVCards (toUpperCase : Text → Text) (text : Text) :
    Except VCardMalformedError (List ParsedVCard) :=
  (unfold text).bind fun lines =>
    (lines.foldlM (scanLine toUpperCase) {}).map fun s => s.flush.cards

/-! ### Cards and the lines that begin them -/

/-- The cards a scan has come to: those that are closed, and the one that is open. -/
def Scan.begun (s : Scan) : ℕ := s.cards.length + s.inCard.toNat

theorem Scan.length_flush (s : Scan) : s.flush.cards.length = s.begun := by
  unfold Scan.flush Scan.begun
  split_ifs with hcard
  · simp [hcard]
  · simp [hcard]

theorem Scan.begun_flush (s : Scan) : s.flush.begun = s.begun := by
  unfold Scan.flush Scan.begun
  split_ifs with hcard
  · simp [hcard]
  · rfl

@[simp] theorem Scan.read_cards (s : Scan) (parsed : ContentLine) :
    (s.read parsed).cards = s.cards := by
  unfold Scan.read
  cases parsed.value with
  | none => rfl
  | some value =>
    simp only
    split_ifs <;> rfl

@[simp] theorem Scan.read_inCard (s : Scan) (parsed : ContentLine) :
    (s.read parsed).inCard = s.inCard := by
  unfold Scan.read
  cases parsed.value with
  | none => rfl
  | some value =>
    simp only
    split_ifs <;> rfl

variable {lines : List LogicalLine} {rest : List Text}

section Loop

variable {toUpperCase : Text → Text}

theorem scanLine_begun {s t : Scan} {logical : LogicalLine}
    (h : scanLine toUpperCase s logical = .ok t) :
    t.begun = s.begun + (isBegin logical.text).toNat := by
  unfold scanLine at h
  cases hbegin : isBegin logical.text with
  | true =>
    rw [hbegin, if_pos rfl] at h
    obtain rfl := Except.ok.inj h
    have hlength := s.length_flush
    simp only [Scan.begun, Bool.toNat_true] at hlength ⊢
    omega
  | false =>
    simp only [hbegin, Bool.false_eq_true, if_false] at h
    simp only [Bool.toNat_false, Nat.add_zero]
    split_ifs at h with hend hcard
    · obtain rfl := Except.ok.inj h
      exact s.begun_flush
    · obtain rfl := Except.ok.inj h
      rfl
    · split at h
      · cases h
      · obtain rfl := Except.ok.inj h
        simp [Scan.begun]

theorem foldlM_scanLine_begun {s t : Scan} (h : lines.foldlM (scanLine toUpperCase) s = .ok t) :
    t.begun = s.begun + (lines.map LogicalLine.text).countP isBegin := by
  induction lines generalizing s with
  | nil =>
    obtain rfl := Except.ok.inj h
    rfl
  | cons line lines ih =>
    rw [List.foldlM_cons] at h
    cases hline : scanLine toUpperCase s line with
    | error e =>
      rw [hline] at h
      cases h
    | ok u =>
      rw [hline] at h
      have hrest := ih h
      have hstep := scanLine_begun hline
      rw [List.map_cons, List.countP_cons]
      cases hbegin : isBegin line.text with
      | true =>
        rw [hbegin, Bool.toNat_true] at hstep
        rw [if_pos rfl]
        omega
      | false =>
        rw [hbegin, Bool.toNat_false] at hstep
        rw [if_neg (by simp)]
        omega

/-- A line of an open card has no property name. -/
def namelessIn (toUpperCase : Text → Text) (inCard : Bool) : List Text → Bool
  | [] => false
  | line :: lines =>
    if isBegin line then namelessIn toUpperCase true lines
    else if isEnd line then namelessIn toUpperCase false lines
    else inCard && (parseContentLine toUpperCase line).isNone || namelessIn toUpperCase inCard lines

theorem foldlM_scanLine_error {s : Scan} :
    (∃ e, lines.foldlM (scanLine toUpperCase) s = .error e) ↔
      namelessIn toUpperCase s.inCard (lines.map LogicalLine.text) = true := by
  induction lines generalizing s with
  | nil => simp [namelessIn, pure, Except.pure]
  | cons line lines ih =>
    have hflush : s.flush.inCard = false := by
      unfold Scan.flush
      split_ifs with hcard
      · rfl
      · simpa using hcard
    have hok : ∀ {u : Scan}, scanLine toUpperCase s line = .ok u →
        ((∃ e, (line :: lines).foldlM (scanLine toUpperCase) s = .error e) ↔
          namelessIn toUpperCase u.inCard (lines.map LogicalLine.text) = true) := by
      intro u hu
      rw [List.foldlM_cons, hu]
      exact ih
    rw [List.map_cons, namelessIn]
    split_ifs with hbegin hend
    · exact hok (by rw [scanLine, if_pos hbegin])
    · rw [hok (by rw [scanLine, if_neg hbegin, if_pos hend]), hflush]
    · cases hcard : s.inCard with
      | false =>
        rw [hok (u := s) (by rw [scanLine, if_neg hbegin, if_neg hend, hcard]; rfl), hcard]
        simp
      | true =>
        have hscan : scanLine toUpperCase s line =
            match parseContentLine toUpperCase line.text with
            | none => .error { kind := .namelessProperty, line := line.line }
            | some parsed => .ok (s.read parsed) := by
          rw [scanLine, if_neg hbegin, if_neg hend, hcard]
          rfl
        cases hparse : parseContentLine toUpperCase line.text with
        | none =>
          rw [hparse] at hscan
          simp only [Option.isNone_none, Bool.and_self, Bool.true_or, iff_true]
          refine ⟨{ kind := .namelessProperty, line := line.line }, ?_⟩
          rw [List.foldlM_cons, hscan]
          rfl
        | some parsed =>
          rw [hparse] at hscan
          rw [hok hscan, Scan.read_inCard, hcard]
          simp

end Loop

/-! ### Lines and their continuations -/

/-- The continuations at the head of the lines, and the lines after them, each with its own. -/
def takeFolds : List Text → List Text × List (Text × List Text)
  | [] => ([], [])
  | line :: lines =>
    let (conts, groups) := takeFolds lines
    if isFolded line then (line :: conts, groups) else ([], (line, conts) :: groups)

/-- The lines of a file, each with the continuations under it; the first line continues none. -/
def folds : List Text → List (Text × List Text)
  | [] => []
  | line :: lines => (line, (takeFolds lines).1) :: (takeFolds lines).2

/-- A line joined with its continuations. -/
def joined (group : Text × List Text) : Text := group.1 ++ group.2.flatMap List.tail

/-- A continuation that reads as a delimiter. -/
def isMerged (line : Text) : Bool := isFolded line && (isBegin line || isEnd line)

theorem appendToLast_append (text : Text) (lines : List LogicalLine) (last : LogicalLine) :
    appendToLast text (lines ++ [last]) = lines ++ [{ last with text := last.text ++ text }] := by
  induction lines with
  | nil => rfl
  | cons line lines ih =>
    have hstep : ∀ l : List LogicalLine, l ≠ [] →
        appendToLast text (line :: l) = line :: appendToLast text l := by
      intro l hl
      cases l with
      | nil => exact absurd rfl hl
      | cons => rfl
    rw [List.cons_append, hstep _ (by simp), ih, List.cons_append]

theorem unfoldFrom_merged (h : rest.any isMerged = true) (index : ℕ) (hlines : lines ≠ []) :
    ∃ e, unfoldFrom index lines rest = .error e := by
  induction rest generalizing index lines with
  | nil => cases h
  | cons line rest ih =>
    have hpos : decide (lines.length > 0) = true := by
      simpa [List.length_pos_iff] using hlines
    rw [unfoldFrom, hpos, Bool.and_true]
    by_cases hmerged : isMerged line = true
    · simp only [isMerged, Bool.and_eq_true] at hmerged
      rw [if_pos hmerged.1, if_pos hmerged.2]
      exact ⟨_, rfl⟩
    · have hrest : rest.any isMerged = true := by
        simpa [hmerged] using h
      split_ifs with hfold hdelim
      · exact ⟨_, rfl⟩
      · refine ih hrest _ ?_
        obtain ⟨before, last, rfl⟩ := List.eq_nil_or_concat' lines |>.resolve_left hlines
        rw [appendToLast_append]
        simp
      · exact ih hrest _ (by simp)

theorem unfoldFrom_ok (h : rest.any isMerged = false) (index : ℕ) (lines : List LogicalLine)
    (last : LogicalLine) :
    ∃ out, unfoldFrom index (lines ++ [last]) rest = .ok out ∧
      out.map LogicalLine.text = lines.map LogicalLine.text ++
        joined (last.text, (takeFolds rest).1) :: (takeFolds rest).2.map joined := by
  induction rest generalizing index lines last with
  | nil => exact ⟨_, rfl, by simp [takeFolds, joined]⟩
  | cons line rest ih =>
    have hline : isMerged line = false := by
      simp only [List.any_cons, Bool.or_eq_false_iff] at h
      exact h.1
    have hrest : rest.any isMerged = false := by
      simp only [List.any_cons, Bool.or_eq_false_iff] at h
      exact h.2
    have hpos : decide ((lines ++ [last]).length > 0) = true := by simp
    rw [unfoldFrom, hpos, Bool.and_true, takeFolds]
    cases hfold : isFolded line with
    | true =>
      have hdelim : (isBegin line || isEnd line) = false := by
        simpa [isMerged, hfold] using hline
      rw [if_pos rfl, hdelim, if_neg (by simp), appendToLast_append]
      obtain ⟨out, hout, htexts⟩ :=
        ih hrest (index + 1) lines { last with text := last.text ++ line.tail }
      refine ⟨out, hout, ?_⟩
      rw [htexts]
      simp [joined]
    | false =>
      rw [if_neg (by simp)]
      obtain ⟨out, hout, htexts⟩ :=
        ih hrest (index + 1) (lines ++ [last]) { text := line, line := index + 1 }
      refine ⟨out, hout, ?_⟩
      rw [htexts]
      simp [joined]

/-! ### Files that keep every card -/

/-- The logical lines of a file that no merged delimiter stops. -/
def logicalLines (text : Text) : List Text := (folds (rawLines text)).map joined

/-- A continuation of the file reads as a delimiter. -/
def mergedCard (text : Text) : Bool := (rawLines text).tail.any isMerged

theorem rawLines_cons (text : Text) : ∃ first rest, rawLines text = first :: rest := by
  have hne : rawLines text ≠ [] := List.splitOn_ne_nil LF (normalize text)
  cases h : rawLines text with
  | nil => exact absurd h hne
  | cons first rest => exact ⟨first, rest, rfl⟩

theorem unfold_merged {text : Text} (h : mergedCard text = true) : ∃ e, unfold text = .error e := by
  obtain ⟨first, rest, hraw⟩ := rawLines_cons text
  unfold mergedCard at h
  unfold unfold
  rw [hraw] at h ⊢
  rw [unfoldFrom]
  simp only [List.length_nil, gt_iff_lt, lt_irrefl, decide_false, Bool.and_false,
    Bool.false_eq_true, if_false]
  exact unfoldFrom_merged h 1 (by simp)

theorem unfold_ok {text : Text} (h : mergedCard text = false) :
    ∃ lines, unfold text = .ok lines ∧ lines.map LogicalLine.text = logicalLines text := by
  obtain ⟨first, rest, hraw⟩ := rawLines_cons text
  unfold mergedCard at h
  unfold unfold logicalLines
  rw [hraw] at h ⊢
  rw [unfoldFrom]
  simp only [List.length_nil, gt_iff_lt, lt_irrefl, decide_false, Bool.and_false,
    Bool.false_eq_true, if_false, List.nil_append]
  obtain ⟨out, hout, htexts⟩ := unfoldFrom_ok h 1 [] { text := first, line := 1 }
  exact ⟨out, hout, htexts⟩

section Files

variable {toUpperCase : Text → Text}

/-- **A card for every logical line that begins one.** -/
theorem length_parseVCards {text : Text} {cards : List ParsedVCard}
    (h : parseVCards toUpperCase text = .ok cards) :
    cards.length = (logicalLines text).countP isBegin := by
  cases hmerged : mergedCard text with
  | true =>
    obtain ⟨e, he⟩ := unfold_merged hmerged
    rw [parseVCards, he] at h
    cases h
  | false =>
    obtain ⟨lines, hlines, htexts⟩ := unfold_ok hmerged
    rw [parseVCards, hlines] at h
    cases hscan : lines.foldlM (scanLine toUpperCase) {} with
    | error e =>
      simp only [Except.bind, hscan, Except.map] at h
      cases h
    | ok s =>
      simp only [Except.bind, hscan, Except.map, Except.ok.injEq] at h
      have hbegun := foldlM_scanLine_begun hscan
      rw [htexts] at hbegun
      rw [← h, s.length_flush, hbegun]
      exact Nat.zero_add _

/-- **The files that are refused.** -/
theorem parseVCards_error {text : Text} :
    (∃ e, parseVCards toUpperCase text = .error e) ↔
      mergedCard text = true ∨ namelessIn toUpperCase false (logicalLines text) = true := by
  cases hmerged : mergedCard text with
  | true =>
    obtain ⟨e, he⟩ := unfold_merged hmerged
    simp only [true_or, iff_true]
    exact ⟨e, by rw [parseVCards, he]; rfl⟩
  | false =>
    obtain ⟨lines, hlines, htexts⟩ := unfold_ok hmerged
    have hloop : (∃ e, lines.foldlM (scanLine toUpperCase) {} = .error e) ↔
        namelessIn toUpperCase false (lines.map LogicalLine.text) = true :=
      foldlM_scanLine_error
    rw [htexts] at hloop
    simp only [Bool.false_eq_true, false_or]
    rw [← hloop, parseVCards, hlines]
    simp only [Except.bind]
    cases lines.foldlM (scanLine toUpperCase) {} with
    | error e => simp [Except.map]
    | ok s => simp [Except.map]

end Files

/-- A line that begins a card until a continuation is joined to it. -/
def isSwallowed (group : Text × List Text) : Bool := isBegin group.1 && !isBegin (joined group)

/-- A line that begins a card once a continuation is joined to it. -/
def isMade (group : Text × List Text) : Bool := !isBegin group.1 && isBegin (joined group)

theorem countP_joined (groups : List (Text × List Text)) :
    groups.countP (fun group => isBegin group.1) + groups.countP isMade =
      groups.countP (fun group => isBegin (joined group)) + groups.countP isSwallowed := by
  induction groups with
  | nil => rfl
  | cons group groups ih =>
    have hhead : (isBegin group.1).toNat + (isMade group).toNat =
        (isBegin (joined group)).toNat + (isSwallowed group).toNat := by
      unfold isMade isSwallowed
      cases isBegin group.1 <;> cases isBegin (joined group) <;> rfl
    have hcons : ∀ p : Text × List Text → Bool,
        (group :: groups).countP p = groups.countP p + (p group).toNat := by
      intro p
      rw [List.countP_cons]
      cases p group <;> rfl
    rw [hcons, hcons, hcons, hcons]
    omega

/-- No continuation begins a card in a file that is not refused for one. -/
theorem countP_takeFolds (h : rest.any isMerged = false) :
    rest.countP isBegin = (takeFolds rest).2.countP fun group => isBegin group.1 := by
  induction rest with
  | nil => rfl
  | cons line rest ih =>
    simp only [List.any_cons, Bool.or_eq_false_iff] at h
    have hrest := ih h.2
    rw [List.countP_cons, takeFolds, hrest]
    cases hfold : isFolded line with
    | true =>
      have hbegin : isBegin line = false := by
        have hdelim := h.1
        simp only [isMerged, hfold, Bool.true_and, Bool.or_eq_false_iff] at hdelim
        exact hdelim.1
      simp [hbegin]
    | false => simp [List.countP_cons]

theorem countP_rawLines {text : Text} (h : mergedCard text = false) :
    (rawLines text).countP isBegin =
      (folds (rawLines text)).countP fun group => isBegin group.1 := by
  obtain ⟨first, rest, hraw⟩ := rawLines_cons text
  unfold mergedCard at h
  rw [hraw, List.tail_cons] at h
  rw [hraw, folds, List.countP_cons, List.countP_cons, countP_takeFolds h]

/-- The file is refused, or has exactly as many cards as raw lines that begin one. -/
def KeepsEveryCard (toUpperCase : Text → Text) (text : Text) : Prop :=
  (∃ e, parseVCards toUpperCase text = .error e) ∨
    ∃ cards, parseVCards toUpperCase text = .ok cards ∧
      cards.length = (rawLines text).countP isBegin

/-- **Which files keep every card.**  Those that are refused, for a delimiter on a continuation or
for a line of a card without a property name; and those in which as many lines begin a card only
by their continuations as cease to begin one by theirs. -/
theorem keepsEveryCard_iff (toUpperCase : Text → Text) (text : Text) :
    KeepsEveryCard toUpperCase text ↔
      mergedCard text = true ∨ namelessIn toUpperCase false (logicalLines text) = true ∨
        (folds (rawLines text)).countP isSwallowed = (folds (rawLines text)).countP isMade := by
  rw [← or_assoc, ← @parseVCards_error toUpperCase text]
  refine or_congr_right' fun hok => ?_
  have hmerged : mergedCard text = false := by
    by_contra hm
    exact hok (parseVCards_error.2 (Or.inl (by simpa using hm)))
  have hbalance := countP_joined (folds (rawLines text))
  have hraw := countP_rawLines hmerged
  have hlogical : (logicalLines text).countP isBegin =
      (folds (rawLines text)).countP fun group => isBegin (joined group) := by
    unfold logicalLines
    rw [List.countP_map]
    rfl
  cases hparse : parseVCards toUpperCase text with
  | error e => exact absurd ⟨e, hparse⟩ hok
  | ok cards =>
    have hlength := length_parseVCards hparse
    constructor
    · rintro ⟨cards', hcards, hcount⟩
      obtain rfl := Except.ok.inj hcards
      omega
    · intro heven
      exact ⟨cards, rfl, by omega⟩

/-- The card of a line that begins one is lost to a continuation under it. -/
theorem folded_begin_lost :
    ¬ KeepsEveryCard (List.map foldCase)
      (ofString "BEGIN:VCARD\r\n X\r\nFN:Sam Lee\r\nTEL:+15125550122\r\nEND:VCARD") := by
  rw [keepsEveryCard_iff]
  decide +kernel

end VCards
