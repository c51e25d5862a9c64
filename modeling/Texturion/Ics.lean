/-
**The calendar feed, read back.**

`packages/shared/src/ics.ts` writes a calendar: it escapes the texts, makes a line of every property
and folds the lines last, counting octets.  A reader unfolds, splits, and takes the escapes off.
Whatever the texts are, every line fits, no fold falls into a code point, and the reader has the
calendar again, line breaks inside texts apart.

An optional text that is empty is not written, so it comes back as absent.  The uid is written as
it is, though the reader takes it for an escaped text, and the year is written without padding, so
what is read back of an event is certain where the uid holds no escape and the years have four
digits.

Main result:

* `Ics.buildIcs_reads` — **the feed is legal, and gives the calendar back**.
-/

import Texturion.ContentLines
import Texturion.Calendar

namespace Ics

open JsText CodePoints ContentLines
open Calls (civilFromDays padStart)
open Calendar (daysFromCivil digitUnit isDigit digitValue)

def SEMICOLON : UInt16 := 0x3B

def COMMA : UInt16 := 0x2C

/-- The letter of the escape for a line break. -/
def LETTER_N : UInt16 := 0x6E

/-! ### The writer -/

/-- `value.replace(/u/g, text)` for one unit. -/
def replaceUnit (u : UInt16) (text value : Text) : Text :=
  value.flatMap fun v => if v = u then text else [v]

/-- `value.replace(/\r\n|\r|\n/g, text)`. -/
def replaceBreaks (text : Text) : Text → Text
  | a :: b :: rest =>
    if a = CR ∧ b = LF then text ++ replaceBreaks text rest
    else if a = CR ∨ a = LF then text ++ replaceBreaks text (b :: rest)
    else a :: replaceBreaks text (b :: rest)
  | [a] => if a = CR ∨ a = LF then text else [a]
  | [] => []

/-- The first three replacements of `icsEscape`, the backslash first. -/
def escapeUnits (value : Text) : Text :=
  replaceUnit COMMA [BACKSLASH, COMMA]
    (replaceUnit SEMICOLON [BACKSLASH, SEMICOLON]
      (replaceUnit BACKSLASH [BACKSLASH, BACKSLASH] value))

def icsEscape (value : Text) : Text := replaceBreaks [BACKSLASH, LETTER_N] (escapeUnits value)

/-- The loop of `icsFold` over the line's code points; a piece that is pushed onto `out` is one of
the list. -/
def foldFrom (current : Text) (currentBytes budget : ℕ) : List Text → List Text
  | [] => if current.length > 0 then [current] else []
  | char :: rest =>
    let size := utf8Length char
    if currentBytes + size > budget then current :: foldFrom char size 74 rest
    else foldFrom (current ++ char) (currentBytes + size) budget rest

def icsFold (line : Text) : Text :=
  if octets line ≤ 75 then line else folded (foldFrom [] 0 75 (chars line))

/-- A `Date` is its number of milliseconds from 1970. -/
def icsDate (value : ℤ) : Text :=
  let (year, month, day) := civilFromDays (value / 86400000)
  let rest := (value % 86400000).toNat
  ofString (toString year ++ padStart 2 month ++ padStart 2 day ++ "T" ++
    padStart 2 (rest / 3600000) ++ padStart 2 (rest / 60000 % 60) ++
    padStart 2 (rest / 1000 % 60) ++ "Z")

structure IcsEvent where
  uid : Text
  start : ℤ
  endAt : ℤ
  stamp : ℤ
  summary : Text
  description : Option Text
  location : Option Text
  url : Option Text
  deriving DecidableEq

structure IcsCalendar where
  name : Text
  events : List IcsEvent
  deriving DecidableEq

/-- `if (text)`: an optional text that is there and not empty. -/
def given (text : Option Text) : Option Text := text.filter (· ≠ [])

def eventLines (event : IcsEvent) : List (String × Text) :=
  [("BEGIN", ofString "VEVENT"), ("UID", event.uid), ("DTSTAMP", icsDate event.stamp),
    ("DTSTART", icsDate event.start), ("DTEND", icsDate event.endAt),
    ("SUMMARY", icsEscape event.summary)] ++
  ((given event.description).map fun text => ("DESCRIPTION", icsEscape text)).toList ++
  ((given event.location).map fun text => ("LOCATION", icsEscape text)).toList ++
  ((given event.url).map fun text => ("URL", text)).toList ++
  [("END", ofString "VEVENT")]

def calendarLines (calendar : IcsCalendar) : List (String × Text) :=
  [("BEGIN", ofString "VCALENDAR"), ("VERSION", ofString "2.0"),
    ("PRODID", ofString "-//Loonext//Schedule//EN"), ("CALSCALE", ofString "GREGORIAN"),
    ("METHOD", ofString "PUBLISH"), ("X-WR-CALNAME", icsEscape calendar.name)] ++
  calendar.events.flatMap eventLines ++ [("END", ofString "VCALENDAR")]

def contentLine (line : String × Text) : Text := ofString line.1 ++ COLON :: line.2

def buildIcs (calendar : IcsCalendar) : Text :=
  List.intercalate CRLF ((calendarLines calendar).map fun line => icsFold (contentLine line)) ++
    CRLF

/-! ### A reader -/

/-- An instant of the basic format, in milliseconds. -/
def readDate : Text → Option ℤ
  | [y1, y2, y3, y4, m1, m2, d1, d2, t, h1, h2, n1, n2, s1, s2, z] =>
    let two a b := digitValue a * 10 + digitValue b
    if [y1, y2, y3, y4, m1, m2, d1, d2, h1, h2, n1, n2, s1, s2].all isDigit ∧ t = 0x54 ∧
        z = 0x5A ∧ 1 ≤ two m1 m2 ∧ two m1 m2 ≤ 12 ∧ 1 ≤ two d1 d2 ∧ two d1 d2 ≤ 31 ∧
        two h1 h2 ≤ 23 ∧ two n1 n2 ≤ 59 ∧ two s1 s2 ≤ 59 then
      some ((daysFromCivil (two y1 y2 * 100 + two y3 y4 : ℕ) (two m1 m2) (two d1 d2) * 86400 +
        (two h1 h2 * 3600 + two n1 n2 * 60 + two s1 s2 : ℕ)) * 1000)
    else none
  | _ => none

def valueOf (name : String) (lines : List (Text × Text)) : Option Text :=
  (lines.find? fun line => line.1 = ofString name).map Prod.snd

/-- An event from the lines between its `BEGIN` and its `END`. -/
def readEvent (lines : List (Text × Text)) : Option IcsEvent := do
  let uid ← valueOf "UID" lines
  let start ← (valueOf "DTSTART" lines).bind readDate
  let endAt ← (valueOf "DTEND" lines).bind readDate
  let stamp ← (valueOf "DTSTAMP" lines).bind readDate
  let summary ← valueOf "SUMMARY" lines
  some
    { uid := unescape uid
      start, endAt, stamp
      summary := unescape summary
      description := (valueOf "DESCRIPTION" lines).map unescape
      location := (valueOf "LOCATION" lines).map unescape
      -- a URI, which has no escapes
      url := valueOf "URL" lines }

/-- What has been read: the calendar's name, its events, and the lines of an event that is open. -/
structure Reading where
  name : Option Text
  events : List IcsEvent
  current : Option (List (Text × Text))

def Reading.read (s : Reading) (line : Text × Text) : Option Reading :=
  if line = (ofString "BEGIN", ofString "VEVENT") then some { s with current := some [] }
  else if line = (ofString "END", ofString "VEVENT") then do
    let event ← s.current.bind readEvent
    some { s with events := s.events ++ [event], current := none }
  else
    match s.current with
    | some lines => some { s with current := some (lines ++ [line]) }
    | none =>
      if line.1 = ofString "X-WR-CALNAME" then some { s with name := some (unescape line.2) }
      else some s

/-- Unfolds, splits and reads line by line; the text behind the last line end has to be empty. -/
def readIcs (doc : Text) : Option IcsCalendar := do
  let lines := splitLines (unfold doc)
  if lines.getLast? = some [] then
    let lines ← lines.dropLast.mapM readLine
    let s ← lines.foldlM Reading.read ⟨none, [], none⟩
    let name ← s.name
    some ⟨name, s.events⟩
  else none

/-! ### What should be read -/

/-- A text with its line breaks made line feeds. -/
def normalised (text : Text) : Text := replaceBreaks [LF] text

def toSecond (ms : ℤ) : ℤ := ms / 1000 * 1000

def seenEvent (event : IcsEvent) : IcsEvent where
  uid := event.uid
  start := toSecond event.start
  endAt := toSecond event.endAt
  stamp := toSecond event.stamp
  summary := normalised event.summary
  description := (given event.description).map normalised
  location := (given event.location).map normalised
  url := given event.url

/-- The calendar a reader should have. -/
def seen (calendar : IcsCalendar) : IcsCalendar :=
  ⟨normalised calendar.name, calendar.events.map seenEvent⟩

/-- The years of an event's instants have four digits. -/
def FourDigits (ms : ℤ) : Prop :=
  1000 ≤ (civilFromDays (ms / 86400000)).1 ∧ (civilFromDays (ms / 86400000)).1 ≤ 9999

instance (ms : ℤ) : Decidable (FourDigits ms) := inferInstanceAs (Decidable (_ ∧ _))

/-! ### Escaping -/

variable {u : UInt16} {lines : List Text} {event : IcsEvent} {calendar : IcsCalendar}

theorem replaceBreaks_cons (hcr : u ≠ CR) (hlf : u ≠ LF) (text rest : Text) :
    replaceBreaks text (u :: rest) = u :: replaceBreaks text rest := by
  cases rest with
  | nil => rw [replaceBreaks, if_neg (by simp [hcr, hlf])]; rfl
  | cons b rest => rw [replaceBreaks, if_neg (by simp [hcr]), if_neg (by simp [hcr, hlf])]

theorem replaceBreaks_break {rest : Text} (hu : u = CR ∨ u = LF)
    (hpair : ¬ (u = CR ∧ rest.head? = some LF)) (text : Text) :
    replaceBreaks text (u :: rest) = text ++ replaceBreaks text rest := by
  cases rest with
  | nil => rw [replaceBreaks, if_pos hu, replaceBreaks, List.append_nil]
  | cons b rest =>
    rw [replaceBreaks, if_neg fun hc => hpair ⟨hc.1, congrArg some hc.2⟩, if_pos hu]

theorem replaceBreaks_pair (text rest : Text) :
    replaceBreaks text (CR :: LF :: rest) = text ++ replaceBreaks text rest := by
  rw [replaceBreaks, if_pos ⟨rfl, rfl⟩]

theorem unbroken_replaceBreaks {text : Text} (h : Unbroken text) (value : Text) :
    Unbroken (replaceBreaks text value) := by
  fun_induction replaceBreaks text value with
  | case1 a b rest _ ih => exact unbroken_append.2 ⟨h, ih⟩
  | case2 a b rest _ _ ih => exact unbroken_append.2 ⟨h, ih⟩
  | case3 a b rest _ hno ih =>
    rw [not_or] at hno
    exact List.forall_mem_cons.2 ⟨hno, ih⟩
  | case4 a _ => exact h
  | case5 a hno =>
    rw [not_or] at hno
    exact List.forall_mem_singleton.2 hno
  | case6 => exact List.forall_mem_nil _

theorem unbroken_icsEscape (value : Text) : Unbroken (icsEscape value) :=
  unbroken_replaceBreaks (by unfold Unbroken; decide) _

/-- A unit that is written behind a backslash. -/
def isSpecial (u : UInt16) : Prop := u = BACKSLASH ∨ u = SEMICOLON ∨ u = COMMA

instance (u : UInt16) : Decidable (isSpecial u) := inferInstanceAs (Decidable (_ ∨ _))

/-- The replacements go through the text unit by unit: the backslashes put in are not replaced
again, as theirs comes first. -/
theorem escapeUnits_cons (u : UInt16) (rest : Text) :
    escapeUnits (u :: rest) =
      (if isSpecial u then [BACKSLASH, u] else [u]) ++ escapeUnits rest := by
  have hsplit : ∀ (v : UInt16) (text a b : Text),
      replaceUnit v text (a ++ b) = replaceUnit v text a ++ replaceUnit v text b :=
    fun v text a b => List.flatMap_append
  have hone : escapeUnits [u] = if isSpecial u then [BACKSLASH, u] else [u] := by
    by_cases hb : u = BACKSLASH
    · subst hb; decide
    · by_cases hs : u = SEMICOLON
      · subst hs; decide
      · by_cases hc : u = COMMA
        · subst hc; decide
        · simp [escapeUnits, replaceUnit, isSpecial, hb, hs, hc]
  have happ : escapeUnits ([u] ++ rest) = escapeUnits [u] ++ escapeUnits rest := by
    simp only [escapeUnits, hsplit]
  rw [← hone, ← happ, List.singleton_append]

theorem escapeUnits_break (h : u = CR ∨ u = LF) (rest : Text) :
    escapeUnits (u :: rest) = u :: escapeUnits rest := by
  rw [escapeUnits_cons, if_neg (by rcases h with rfl | rfl <;> decide)]
  rfl

theorem head_escapeUnits (value : Text) :
    (escapeUnits value).head? = some LF → value.head? = some LF := by
  cases value with
  | nil => exact id
  | cons u rest =>
    rw [escapeUnits_cons]
    split
    · intro h
      cases h
    · exact id

theorem unescape_escape {u v : UInt16} (h : escaped u = some v) (rest : Text) :
    unescape (BACKSLASH :: u :: rest) = v :: unescape rest := by
  rw [unescape, if_pos rfl, h]

theorem unescape_cons (h : u ≠ BACKSLASH) (rest : Text) :
    unescape (u :: rest) = u :: unescape rest := by
  cases rest with
  | nil => rfl
  | cons b rest => rw [unescape, if_neg h]

/-- **The reader takes off what `icsEscape` puts on**, and has a line feed for every break. -/
theorem unescape_icsEscape (value : Text) : unescape (icsEscape value) = normalised value := by
  have hn : ∀ rest, unescape ([BACKSLASH, LETTER_N] ++ rest) = LF :: unescape rest :=
    fun rest => unescape_escape (by decide) rest
  -- the cases are those of `normalised`: a pair, a single break, a unit that is none
  unfold normalised icsEscape
  fun_induction replaceBreaks [LF] value with
  | case1 a b rest hpair ih =>
    obtain ⟨rfl, rfl⟩ := hpair
    rw [escapeUnits_break (.inl rfl), escapeUnits_break (.inr rfl), replaceBreaks_pair, hn, ih]
    rfl
  | case2 a b rest hpair hbreak ih =>
    rw [escapeUnits_break hbreak, replaceBreaks_break hbreak _, hn, ih]
    · rfl
    · rintro ⟨ha, hb⟩
      exact hpair ⟨ha, Option.some.inj (head_escapeUnits _ hb)⟩
  | case3 a b rest hpair hbreak ih =>
    rw [not_or] at hbreak
    rw [escapeUnits_cons]
    by_cases hspecial : isSpecial a
    · have hesc : escaped a = some a := if_pos hspecial
      rw [if_pos hspecial, List.cons_append, List.singleton_append,
        replaceBreaks_cons (by decide) (by decide), replaceBreaks_cons hbreak.1 hbreak.2,
        unescape_escape hesc, ih]
    · have hback : a ≠ BACKSLASH := fun ha => hspecial (.inl ha)
      rw [if_neg hspecial, List.singleton_append, replaceBreaks_cons hbreak.1 hbreak.2,
        unescape_cons hback, ih]
  | case4 a hbreak =>
    rw [escapeUnits_break hbreak, replaceBreaks_break hbreak (by rintro ⟨-, h⟩; cases h)]
    exact hn []
  | case5 a hbreak =>
    rw [not_or] at hbreak
    rw [escapeUnits_cons]
    by_cases hspecial : isSpecial a
    · have hesc : escaped a = some a := if_pos hspecial
      rw [if_pos hspecial, List.cons_append, List.singleton_append,
        replaceBreaks_cons (by decide) (by decide), replaceBreaks_cons hbreak.1 hbreak.2,
        unescape_escape hesc]
      rfl
    · rw [if_neg hspecial, List.singleton_append, replaceBreaks_cons hbreak.1 hbreak.2]
      rfl
  | case6 => rfl

/-! ### Folding -/

/-- A cut between two texts leaves the code points whole. -/
def CleanCut (before after : Text) : Prop := ¬ Splits before after

/-- What is known of the pieces a line is broken up into: the first takes `budget` octets, the
others, which stand behind a space, 74. -/
structure Broken (budget : ℕ) (line : Text) (pieces : List Text) : Prop where
  joined : pieces.flatten = line
  nonempty : ∀ p ∈ pieces, p ≠ []
  first : ∀ p ∈ pieces.head?, octets p ≤ budget
  others : ∀ p ∈ pieces.tail, octets p ≤ 74
  cuts : pieces.IsChain CleanCut

/-- The loop, from a piece begun with the code points `g`. -/
theorem foldFrom_broken {g cs : List Text} {budget : ℕ} (hchars : chars (g ++ cs).flatten = g ++ cs)
    (hne : g ++ cs ≠ []) (hfits : octets g.flatten ≤ budget) (hbudget : 4 ≤ budget) :
    Broken budget (g ++ cs).flatten (foldFrom g.flatten (octets g.flatten) budget cs) := by
  induction cs generalizing g budget with
  | nil =>
    rw [List.append_nil] at hchars hne ⊢
    have hflat : g.flatten ≠ [] := by
      intro h
      rw [h] at hchars
      exact hne hchars.symm
    rw [foldFrom, if_pos (List.length_pos_iff.2 hflat)]
    exact
      { joined := by simp
        nonempty := by simpa using hflat
        first := by simpa using hfits
        others := by simp
        cuts := List.IsChain.singleton _ }
  | cons char cs ih =>
    obtain ⟨hg, hcs, hcut⟩ := chars_of_append hchars
    have hsize := utf8Length_le char
    have hchar : chars ([char] ++ cs).flatten = [char] ++ cs := hcs
    have hone : octets [char].flatten = utf8Length char := by
      rw [octets_flatten (chars_of_append hchar).1, List.map_singleton, List.sum_singleton]
    rw [foldFrom]
    split
    case isTrue hover =>
      -- the piece is pushed, and the code point opens the next one
      have hflat : g.flatten ≠ [] := by
        intro h
        rw [h] at hover
        simp only [octets, chars_nil, List.map_nil, List.sum_nil] at hover
        omega
      have hrest : Broken 74 _ _ := ih hchar (by simp) (by omega) (by omega)
      rw [hone] at hrest
      simp only [List.flatten_cons, List.flatten_nil, List.append_nil] at hrest
      obtain ⟨hjoined, hnonempty, hfirst, hothers, hcuts⟩ := hrest
      cases hpieces : foldFrom char (utf8Length char) 74 cs with
      | nil =>
        rw [hpieces] at hjoined
        have hempty : char = [] := by simp_all
        exact absurd hempty (ne_nil_of_mem_chars (hcs ▸ List.mem_cons_self ..))
      | cons p pieces =>
        rw [hpieces] at hjoined hnonempty hfirst hothers hcuts
        have hp := hnonempty p (List.mem_cons_self ..)
        refine ⟨?_, ?_, ?_, ?_, ?_⟩
        · rw [List.flatten_cons, hjoined, List.flatten_append]
          simp
        · exact List.forall_mem_cons.2 ⟨hflat, hnonempty⟩
        · simpa using hfits
        · exact List.forall_mem_cons.2 ⟨hfirst p rfl, hothers⟩
        · refine List.isChain_cons_cons.2 ⟨?_, hcuts⟩
          rintro ⟨u, v, hu, hv, hlead⟩
          refine hcut ⟨u, v, hu, ?_, hlead⟩
          have hjoin : (char :: cs).flatten = p ++ pieces.flatten := by
            rw [← List.flatten_cons, hjoined]
            simp
          rw [hjoin, List.head?_append, hv]
          rfl
    case isFalse hfit =>
      have hgc : chars ((g ++ [char]) ++ cs).flatten = (g ++ [char]) ++ cs := by
        simpa using hchars
      have hlen : octets (g ++ [char]).flatten = octets g.flatten + utf8Length char := by
        rw [octets_flatten (chars_of_append hgc).1, octets_flatten hg, List.map_append,
          List.sum_append, List.map_singleton, List.sum_singleton]
      have hrest := ih hgc (by simp) (by omega) hbudget
      rw [hlen] at hrest
      simpa using hrest

/-- **A folded line**: its pieces join up to it, they fit, and no cut splits a code point. -/
theorem icsFold_spec (line : Text) :
    ∃ p pieces, icsFold line = folded (p :: pieces) ∧ (p :: pieces).flatten = line ∧
      (line ≠ [] → ∀ q ∈ p :: pieces, q ≠ []) ∧ octets p ≤ 75 ∧ (∀ q ∈ pieces, octets q ≤ 74) ∧
      (p :: pieces).IsChain CleanCut := by
  by_cases hshort : octets line ≤ 75
  · refine ⟨line, [], ?_, by simp, by simp, hshort, by simp, List.IsChain.singleton _⟩
    rw [icsFold, if_pos hshort, folded_singleton]
  · have hne : chars line ≠ [] := by
      intro h
      rw [octets, h] at hshort
      exact hshort (Nat.zero_le _)
    have hchars : chars ([] ++ chars line).flatten = [] ++ chars line := by
      rw [List.nil_append, flatten_chars]
    have hbroken : Broken 75 _ _ := foldFrom_broken hchars hne (Nat.zero_le _) (by decide)
    rw [List.nil_append, flatten_chars] at hbroken
    obtain ⟨hjoined, hnonempty, hfirst, hothers, hcuts⟩ := hbroken
    have hfold : icsFold line = folded (foldFrom [] 0 75 (chars line)) := by
      rw [icsFold, if_neg hshort]
    cases hpieces : foldFrom [] 0 75 (chars line) with
    | nil =>
      have hnil : foldFrom ([] : List Text).flatten (octets ([] : List Text).flatten) 75
        (chars line) = [] := hpieces
      rw [hnil] at hjoined
      rw [← hjoined] at hne
      exact absurd rfl hne
    | cons p pieces =>
      have hcons : foldFrom ([] : List Text).flatten (octets ([] : List Text).flatten) 75
        (chars line) = p :: pieces := hpieces
      rw [hcons] at hjoined hnonempty hfirst hothers hcuts
      exact ⟨p, pieces, by rw [hfold, hpieces], hjoined, fun _ => hnonempty, hfirst p rfl,
        hothers, hcuts⟩

/-! ### The document -/

/-- The text of a line before folding: no break in it, and it starts with something else than a
space. -/
def Foldable (line : Text) : Prop := Unbroken line ∧ line ≠ [] ∧ line.head? ≠ some SPACE

def written (lines : List Text) : Text := document (lines.map icsFold)

theorem unbroken_of_flatten {pieces : List Text} {line : Text} (h : pieces.flatten = line)
    (hline : Unbroken line) : ∀ p ∈ pieces, Unbroken p := by
  intro p hp u hu
  exact hline u (h ▸ List.mem_flatten.2 ⟨p, hp, hu⟩)

theorem written_cons (line : Text) (lines : List Text) :
    written (line :: lines) = icsFold line ++ (CRLF ++ written lines) := by
  rw [written, List.map_cons, document, List.flatMap_cons, List.append_assoc]
  rfl

section

variable (h : ∀ line ∈ lines, Foldable line)
include h

theorem head_written : (written lines).head? ≠ some SPACE := by
  cases lines with
  | nil => simp [written, document]
  | cons line lines =>
    obtain ⟨-, hne, hhead⟩ := h line (List.mem_cons_self ..)
    obtain ⟨p, pieces, hfold, hflat, hpne, -⟩ := icsFold_spec line
    obtain ⟨u, p, rfl⟩ := List.exists_cons_of_ne_nil (hpne hne p (List.mem_cons_self ..))
    have hline : line.head? = some u := by
      rw [← hflat]
      rfl
    rw [hline] at hhead
    rw [written_cons, hfold]
    cases pieces with
    | nil => rw [folded_singleton]; exact hhead
    | cons q pieces => rw [folded_cons_cons]; exact hhead

theorem unfold_written : unfold (written lines) = document lines := by
  induction lines with
  | nil => rfl
  | cons line lines ih =>
    have htail : ∀ l ∈ lines, Foldable l := fun l hl => h l (List.mem_cons_of_mem _ hl)
    obtain ⟨p, pieces, hfold, hflat, -⟩ := icsFold_spec line
    have hpieces := unbroken_of_flatten hflat (h line (List.mem_cons_self ..)).1
    have hend : unfold (CRLF ++ written lines) = CRLF ++ unfold (written lines) :=
      unfold_end (head_written htail)
    rw [written_cons, hfold, unfold_folded hpieces, hflat, hend, ih htail, document, document,
      List.flatMap_cons, List.append_assoc]

theorem octets_written : ∀ line ∈ splitLines (written lines), octets line ≤ 75 := by
  induction lines with
  | nil =>
    intro line hline
    rw [List.mem_singleton.1 hline]
    exact Nat.zero_le _
  | cons line lines ih =>
    have hrest := ih fun l hl => h l (List.mem_cons_of_mem _ hl)
    obtain ⟨p, pieces, hfold, hflat, -, hfirst, hothers, -⟩ := icsFold_spec line
    have hpieces := unbroken_of_flatten hflat (h line (List.mem_cons_self ..)).1
    obtain ⟨hp, hpieces⟩ := List.forall_mem_cons.1 hpieces
    rw [written_cons, hfold, splitLines_folded hp hpieces]
    refine List.forall_mem_cons.2 ⟨hfirst, List.forall_mem_append.2 ⟨?_, hrest⟩⟩
    -- a continuation is a space and a piece of 74 octets
    intro l hl
    obtain ⟨q, hq, rfl⟩ := List.mem_map.1 hl
    have hfit := hothers q hq
    have hspace : utf8Length [SPACE] = 1 := by decide
    rw [octets_cons (by decide), hspace]
    omega

theorem wholeFolds_written : WholeFolds (written lines) := by
  have hall : ∀ before, WholeFoldsFrom before (written lines) := by
    induction lines with
    | nil =>
      intro before a b hdoc
      exact absurd hdoc (by simp [written, document])
    | cons line lines ih =>
      have htail : ∀ l ∈ lines, Foldable l := fun l hl => h l (List.mem_cons_of_mem _ hl)
      obtain ⟨hline, hne, -⟩ := h line (List.mem_cons_self ..)
      obtain ⟨p, pieces, hfold, hflat, hpne, -, -, hcuts⟩ := icsFold_spec line
      have hpieces := unbroken_of_flatten hflat hline
      intro before
      rw [written_cons, hfold]
      exact wholeFoldsFrom_folded (fun q hq => ⟨hpieces q hq, hpne hne q hq⟩) hcuts
        (fun before => wholeFoldsFrom_end (head_written htail) (ih htail [])) before
  exact hall []

end

/-! ### The lines of a calendar -/

def NAMES : List String :=
  ["BEGIN", "END", "VERSION", "PRODID", "CALSCALE", "METHOD", "X-WR-CALNAME", "UID", "DTSTAMP",
    "DTSTART", "DTEND", "SUMMARY", "DESCRIPTION", "LOCATION", "URL"]

/-- The uids and URLs of a calendar are free of line breaks. -/
def UnbrokenIds (calendar : IcsCalendar) : Prop :=
  ∀ event ∈ calendar.events, Unbroken event.uid ∧ ∀ url ∈ event.url, Unbroken url

theorem names_foldable : ∀ name ∈ NAMES,
    Unbroken (ofString name) ∧ (ofString name).head? ≠ none ∧
      (ofString name).head? ≠ some SPACE ∧ COLON ∉ ofString name := by
  unfold Unbroken
  decide +kernel

theorem unbroken_ofString {s : String} (h : ∀ c ∈ s.toList, c ≠ '\r' ∧ c ≠ '\n') :
    Unbroken (ofString s) := by
  intro u hu
  obtain ⟨c, hc, hmem⟩ := List.mem_flatMap.1 hu
  obtain ⟨hcr, hlf⟩ := h c hc
  constructor
  · rintro rfl
    exact hcr (toNat_injective (mem_units (by decide) hmem))
  · rintro rfl
    exact hlf (toNat_injective (mem_units (by decide) hmem))

theorem unbroken_icsDate (ms : ℤ) : Unbroken (icsDate ms) := by
  have hdigits : ∀ n : ℕ, ∀ c ∈ Nat.toDigits 10 n, c ≠ '\r' ∧ c ≠ '\n' := by
    intro n c hc
    have hdigit := Nat.isDigit_of_mem_toDigits (by decide) (by decide) hc
    constructor
    · rintro rfl
      cases hdigit
    · rintro rfl
      cases hdigit
  have hpad : ∀ width n : ℕ, Unbroken (ofString (padStart width n)) := by
    intro width n
    refine unbroken_ofString fun c hc => ?_
    rw [padStart, String.toList_ofList] at hc
    rcases List.mem_append.1 hc with hc | hc
    · rw [(List.mem_replicate.1 hc).2]
      decide
    · exact hdigits n c hc
  have hnat : ∀ n : ℕ, Unbroken (ofString n.repr) := by
    intro n
    refine unbroken_ofString fun c hc => hdigits n c ?_
    rwa [Nat.repr, String.toList_ofList] at hc
  have hyear : ∀ year : ℤ, Unbroken (ofString (toString year)) := by
    intro year
    rw [Int.toString_eq_repr, Int.repr_eq_if]
    split
    · exact hnat _
    · rw [Calendar.ofString_append]
      exact unbroken_append.2 ⟨unbroken_ofString (by decide), hnat _⟩
  unfold icsDate
  simp only [Calendar.ofString_append, unbroken_append, hpad, hyear, and_true, true_and]
  exact ⟨unbroken_ofString (by decide), unbroken_ofString (by decide)⟩

theorem eventLines_spec (huid : Unbroken event.uid) (hurl : ∀ url ∈ event.url, Unbroken url) :
    ∀ line ∈ eventLines event, line.1 ∈ NAMES ∧ Unbroken line.2 := by
  have hgiven : ∀ url ∈ given event.url, Unbroken url := by
    intro url h
    exact hurl url (Option.mem_filter_iff.1 h).1
  have hlist : ∀ (name : String) (text : Option Text) (f : Text → Text), name ∈ NAMES →
      (∀ t ∈ text, Unbroken (f t)) → ∀ line ∈ (text.map fun t => (name, f t)).toList,
        line.1 ∈ NAMES ∧ Unbroken line.2 := by
    intro name text f hname htext line hline
    cases text with
    | none => cases hline
    | some t =>
      rw [List.mem_singleton.1 hline]
      exact ⟨hname, htext t rfl⟩
  have hfixed : Unbroken (ofString "VEVENT") := unbroken_ofString (by decide)
  unfold eventLines
  simp only [List.forall_mem_append, List.forall_mem_cons]
  refine ⟨⟨⟨⟨⟨⟨?_, hfixed⟩, ⟨?_, huid⟩, ⟨?_, unbroken_icsDate _⟩, ⟨?_, unbroken_icsDate _⟩,
    ⟨?_, unbroken_icsDate _⟩, ⟨?_, unbroken_icsEscape _⟩, List.forall_mem_nil _⟩,
    hlist _ _ icsEscape ?_ fun t _ => unbroken_icsEscape t⟩,
    hlist _ _ icsEscape ?_ fun t _ => unbroken_icsEscape t⟩,
    hlist _ _ id ?_ hgiven⟩, ⟨?_, hfixed⟩, List.forall_mem_nil _⟩ <;> decide

theorem calendarLines_spec (h : UnbrokenIds calendar) :
    ∀ line ∈ calendarLines calendar, line.1 ∈ NAMES ∧ Unbroken line.2 := by
  have hlit : ∀ s : String, (∀ c ∈ s.toList, c ≠ '\r' ∧ c ≠ '\n') → Unbroken (ofString s) :=
    fun s hs => unbroken_ofString hs
  unfold calendarLines
  simp only [List.forall_mem_append, List.forall_mem_cons]
  refine ⟨⟨⟨⟨?_, hlit _ ?_⟩, ⟨?_, hlit _ ?_⟩, ⟨?_, hlit _ ?_⟩, ⟨?_, hlit _ ?_⟩, ⟨?_, hlit _ ?_⟩,
    ⟨?_, unbroken_icsEscape _⟩, List.forall_mem_nil _⟩, ?_⟩, ⟨?_, hlit _ ?_⟩,
    List.forall_mem_nil _⟩
  case refine_12 =>
    intro line hline
    obtain ⟨event, hevent, hline⟩ := List.mem_flatMap.1 hline
    obtain ⟨huid, hurl⟩ := h event hevent
    exact eventLines_spec huid hurl line hline
  all_goals decide

theorem foldable_contentLine {line : String × Text} (hname : line.1 ∈ NAMES)
    (hvalue : Unbroken line.2) : Foldable (contentLine line) := by
  obtain ⟨hbreak, hne, hspace, -⟩ := names_foldable line.1 hname
  have hcolon : Unbroken (COLON :: line.2) := List.forall_mem_cons.2 ⟨by decide, hvalue⟩
  unfold contentLine
  refine ⟨unbroken_append.2 ⟨hbreak, hcolon⟩, by simp, ?_⟩
  cases hhead : ofString line.1 with
  | nil => rw [hhead] at hne; exact absurd rfl hne
  | cons u rest => rw [hhead] at hspace; exact hspace

theorem buildIcs_written (calendar : IcsCalendar) :
    buildIcs calendar = written ((calendarLines calendar).map contentLine) := by
  rw [buildIcs, intercalate_append (by simp [calendarLines]), written, List.map_map]
  rfl

theorem foldable_lines (h : UnbrokenIds calendar) :
    ∀ line ∈ (calendarLines calendar).map contentLine, Foldable line := by
  intro line hline
  obtain ⟨l, hl, rfl⟩ := List.mem_map.1 hline
  obtain ⟨hname, hvalue⟩ := calendarLines_spec h l hl
  exact foldable_contentLine hname hvalue

/-! ### Instants -/

/-- A number below 100 in two digits. -/
def twoDigits (n : ℕ) : Text := [digitUnit (n / 10), digitUnit (n % 10)]

def basicText (year month day hour minute second : ℕ) : Text :=
  twoDigits (year / 100) ++ (twoDigits (year % 100) ++ (twoDigits month ++ (twoDigits day ++
    (0x54 :: (twoDigits hour ++ (twoDigits minute ++ (twoDigits second ++ [0x5A])))))))

theorem readDate_basicText {year month day hour minute second : ℕ} (hyear : year ≤ 9999)
    (hmonth : 1 ≤ month ∧ month ≤ 12) (hday : 1 ≤ day ∧ day ≤ 31) (hhour : hour ≤ 23)
    (hminute : minute ≤ 59) (hsecond : second ≤ 59) :
    readDate (basicText year month day hour minute second) =
      some ((daysFromCivil year month day * 86400 + (hour * 3600 + minute * 60 + second : ℕ)) *
        1000) := by
  have hdigit : ∀ k : ℕ, k < 10 → isDigit (digitUnit k) = true :=
    fun k hk => Calendar.isDigit_digitUnit hk
  have htwo : ∀ n : ℕ, n < 100 →
      digitValue (digitUnit (n / 10)) * 10 + digitValue (digitUnit (n % 10)) = n := by
    intro n hn
    rw [Calendar.digitValue_digitUnit (by omega), Calendar.digitValue_digitUnit (by omega)]
    omega
  have hsplit : year / 100 * 100 + year % 100 = year := by omega
  simp only [basicText, twoDigits, List.cons_append, List.nil_append, readDate]
  rw [htwo (year / 100) (by omega), htwo (year % 100) (by omega), htwo month (by omega),
    htwo day (by omega), htwo hour (by omega), htwo minute (by omega), htwo second (by omega),
    hsplit, if_pos]
  refine ⟨?_, trivial, trivial, hmonth.1, hmonth.2, hday.1, hday.2, hhour, hminute, hsecond⟩
  simp only [List.all_cons, List.all_nil, Bool.and_true, Bool.and_eq_true]
  refine ⟨hdigit _ ?_, hdigit _ ?_, hdigit _ ?_, hdigit _ ?_, hdigit _ ?_, hdigit _ ?_,
    hdigit _ ?_, hdigit _ ?_, hdigit _ ?_, hdigit _ ?_, hdigit _ ?_, hdigit _ ?_, hdigit _ ?_,
    hdigit _ ?_⟩ <;> omega

theorem ofString_year {year : ℤ} (hlow : 1000 ≤ year) (hhigh : year ≤ 9999) :
    ofString (toString year) = twoDigits (year.toNat / 100) ++ twoDigits (year.toNat % 100) := by
  have hrepr : toString year = padStart 4 year.toNat := by
    rw [Int.toString_eq_repr, Int.repr_eq_if, if_pos (by omega), padStart,
      Calendar.toDigits_four (by omega) (by omega), Nat.repr,
      Calendar.toDigits_four (by omega) (by omega)]
    rfl
  rw [hrepr, Calendar.ofString_padStart_four (by omega)]
  have h₁ : year.toNat / 100 / 10 = year.toNat / 1000 := by omega
  have h₂ : year.toNat % 100 / 10 = year.toNat / 10 % 10 := by omega
  have h₃ : year.toNat % 100 % 10 = year.toNat % 10 := by omega
  rw [twoDigits, twoDigits, h₁, h₂, h₃]
  rfl

theorem icsDate_eq {ms : ℤ} (h : FourDigits ms) :
    icsDate ms =
      basicText (civilFromDays (ms / 86400000)).1.toNat (civilFromDays (ms / 86400000)).2.1
        (civilFromDays (ms / 86400000)).2.2 ((ms % 86400000).toNat / 3600000)
        ((ms % 86400000).toNat / 60000 % 60) ((ms % 86400000).toNat / 1000 % 60) := by
  obtain ⟨hlow, hhigh⟩ := h
  have hmonth : (civilFromDays (ms / 86400000)).2.1 < 100 := by
    have := (Calendar.civilFromDays_month (ms / 86400000)).2
    omega
  have hday : (civilFromDays (ms / 86400000)).2.2 < 100 := by
    have := (Calendar.civilFromDays_day (ms / 86400000)).2
    omega
  have hrest : (ms % 86400000).toNat < 86400000 := by omega
  have htwo : ∀ n : ℕ, n < 100 → ofString (padStart 2 n) = twoDigits n :=
    fun n hn => Calendar.ofString_padStart_two hn
  have htee : ofString "T" = [0x54] := by decide
  have hzed : ofString "Z" = [0x5A] := by decide
  simp only [icsDate, Calendar.ofString_append, ofString_year hlow hhigh, htee, hzed]
  rw [htwo _ hmonth, htwo _ hday, htwo _ (by omega), htwo _ (by omega), htwo _ (by omega)]
  simp only [basicText, List.append_assoc, List.cons_append, List.nil_append]

/-- **The reader has the instant, to the second.** -/
theorem readDate_icsDate {ms : ℤ} (h : FourDigits ms) :
    readDate (icsDate ms) = some (toSecond ms) := by
  have hmonth := Calendar.civilFromDays_month (ms / 86400000)
  have hday := Calendar.civilFromDays_day (ms / 86400000)
  have hdays := Calendar.daysFromCivil_civilFromDays (ms / 86400000)
  have hyear : ((civilFromDays (ms / 86400000)).1.toNat : ℤ) = (civilFromDays (ms / 86400000)).1 :=
    Int.toNat_of_nonneg (by have := h.1; omega)
  have hle : (civilFromDays (ms / 86400000)).1.toNat ≤ 9999 := by
    have := h.2
    omega
  rw [icsDate_eq h, readDate_basicText hle hmonth hday (by omega) (by omega) (by omega), hyear,
    hdays, toSecond]
  congr 1
  omega

/-! ### The reader -/

/-- The lines a reader sees. -/
def readLines (lines : List (String × Text)) : List (Text × Text) :=
  lines.map fun line => (ofString line.1, line.2)

theorem mapM_readLine {lines : List (String × Text)} (h : ∀ line ∈ lines, COLON ∉ ofString line.1) :
    (lines.map contentLine).mapM readLine = some (readLines lines) := by
  induction lines with
  | nil => rfl
  | cons line lines ih =>
    have htail := ih fun l hl => h l (List.mem_cons_of_mem _ hl)
    rw [List.map_cons, List.mapM_cons, htail, contentLine,
      readLine_append (h line (List.mem_cons_self ..))]
    rfl

/-- The lines between an event's `BEGIN` and its `END`. -/
def eventBody (event : IcsEvent) : List (String × Text) :=
  [("UID", event.uid), ("DTSTAMP", icsDate event.stamp), ("DTSTART", icsDate event.start),
    ("DTEND", icsDate event.endAt), ("SUMMARY", icsEscape event.summary)] ++
  ((given event.description).map fun text => ("DESCRIPTION", icsEscape text)).toList ++
  ((given event.location).map fun text => ("LOCATION", icsEscape text)).toList ++
  ((given event.url).map fun text => ("URL", text)).toList

theorem eventLines_eq (event : IcsEvent) :
    eventLines event = ("BEGIN", ofString "VEVENT") ::
      (eventBody event ++ [("END", ofString "VEVENT")]) := by
  simp [eventLines, eventBody]

/-- What is certain to come back: a uid that holds no escape, and years of four digits. -/
structure Plain (event : IcsEvent) : Prop where
  uid : unescape event.uid = event.uid
  start : FourDigits event.start
  endAt : FourDigits event.endAt
  stamp : FourDigits event.stamp

theorem readEvent_eventBody (h : Plain event) :
    readEvent (readLines (eventBody event)) = some (seenEvent event) := by
  obtain ⟨huid, hstart, hend, hstamp⟩ := h
  have hvalue : ∀ (name : String) (line : String × Text) (lines : List (String × Text)),
      valueOf name (readLines (line :: lines)) =
        if line.1 = name then some line.2 else valueOf name (readLines lines) := by
    intro name line lines
    by_cases hname : line.1 = name
    · simp [valueOf, readLines, hname]
    · simp [valueOf, readLines, hname, ofString_inj]
  have hnil : ∀ name, valueOf name (readLines []) = none := fun _ => rfl
  -- every optional line is there or is not
  unfold eventBody readEvent seenEvent
  cases given event.description <;> cases given event.location <;> cases given event.url <;>
    simp [hvalue, hnil, huid, readDate_icsDate hstart, readDate_icsDate hend,
      readDate_icsDate hstamp, unescape_icsEscape]

theorem foldlM_read_body {lines : List (String × Text)}
    (h : ∀ line ∈ lines, line.1 ≠ "BEGIN" ∧ line.1 ≠ "END") (s : Reading)
    (kept : List (Text × Text)) :
    (readLines lines).foldlM Reading.read { s with current := some kept } =
      some { s with current := some (kept ++ readLines lines) } := by
  induction lines generalizing kept with
  | nil => simp [readLines]
  | cons line lines ih =>
    obtain ⟨hbegin, hend⟩ := h line (List.mem_cons_self ..)
    have htail := ih (fun l hl => h l (List.mem_cons_of_mem _ hl))
      (kept ++ [(ofString line.1, line.2)])
    have hstep : Reading.read { s with current := some kept } (ofString line.1, line.2) =
        some { s with current := some (kept ++ [(ofString line.1, line.2)]) } := by
      rw [Reading.read, if_neg (by simp [ofString_inj, hbegin]),
        if_neg (by simp [ofString_inj, hend])]
    rw [readLines, List.map_cons, List.foldlM_cons, hstep]
    simpa [readLines] using htail

theorem eventBody_names (event : IcsEvent) :
    ∀ line ∈ eventBody event, line.1 ≠ "BEGIN" ∧ line.1 ≠ "END" := by
  unfold eventBody
  cases given event.description <;> cases given event.location <;> cases given event.url <;>
    simp

theorem foldlM_read_event (h : Plain event) (name : Option Text) (events : List IcsEvent) :
    (readLines (eventLines event)).foldlM Reading.read ⟨name, events, none⟩ =
      some ⟨name, events ++ [seenEvent event], none⟩ := by
  have hopen : Reading.read ⟨name, events, none⟩ (ofString "BEGIN", ofString "VEVENT") =
      some ⟨name, events, some []⟩ := if_pos rfl
  have hbody := foldlM_read_body (eventBody_names event) ⟨name, events, none⟩ []
  have hclose : Reading.read ⟨name, events, some (readLines (eventBody event))⟩
      (ofString "END", ofString "VEVENT") = some ⟨name, events ++ [seenEvent event], none⟩ := by
    rw [Reading.read, if_neg (by simp [ofString_inj]), if_pos rfl]
    simp [readEvent_eventBody h]
  rw [eventLines_eq, readLines, List.map_cons, List.foldlM_cons, hopen, List.map_append,
    Option.bind_eq_bind, Option.bind_some, List.foldlM_append]
  rw [readLines] at hbody
  rw [hbody]
  simpa [readLines] using hclose

theorem foldlM_read_events {events : List IcsEvent} (h : ∀ event ∈ events, Plain event)
    (name : Option Text) (before : List IcsEvent) :
    (readLines (events.flatMap eventLines)).foldlM Reading.read ⟨name, before, none⟩ =
      some ⟨name, before ++ events.map seenEvent, none⟩ := by
  induction events generalizing before with
  | nil => simp [readLines]
  | cons event events ih =>
    have hhead := foldlM_read_event (h event (List.mem_cons_self ..)) name before
    have htail := ih (fun e he => h e (List.mem_cons_of_mem _ he)) (before ++ [seenEvent event])
    rw [readLines] at hhead htail ⊢
    rw [List.flatMap_cons, List.map_append, List.foldlM_append, hhead, Option.bind_eq_bind,
      Option.bind_some, htail, List.append_assoc]
    rfl

theorem foldlM_read_calendar (h : ∀ event ∈ calendar.events, Plain event) :
    (readLines (calendarLines calendar)).foldlM Reading.read ⟨none, [], none⟩ =
      some ⟨some (normalised calendar.name), calendar.events.map seenEvent, none⟩ := by
  have hevents := foldlM_read_events h (some (normalised calendar.name)) []
  have hpass : ∀ (s : Reading) (line : String × Text), s.current = none → line.1 ≠ "X-WR-CALNAME" →
      (line.1 = "BEGIN" ∨ line.1 = "END" → line.2 = ofString "VCALENDAR") →
      s.read (ofString line.1, line.2) = some s := by
    intro s line hcurrent hname hvalue
    have hvcal : line.1 = "BEGIN" ∨ line.1 = "END" → line.2 ≠ ofString "VEVENT" := by
      intro hline
      rw [hvalue hline, Ne, ofString_inj]
      decide
    rw [Reading.read, if_neg (by simp [ofString_inj]; exact fun hb => hvcal (.inl hb)),
      if_neg (by simp [ofString_inj]; exact fun he => hvcal (.inr he)), hcurrent]
    simp [ofString_inj, hname]
  have hname : ∀ value : Text, Reading.read ⟨none, [], none⟩ (ofString "X-WR-CALNAME", value) =
      some ⟨some (unescape value), [], none⟩ := by
    intro value
    rw [Reading.read, if_neg (by simp [ofString_inj]), if_neg (by simp [ofString_inj])]
    exact if_pos rfl
  have hlast := hpass ⟨some (normalised calendar.name), calendar.events.map seenEvent, none⟩
    ("END", ofString "VCALENDAR") rfl (by decide) fun _ => rfl
  rw [readLines] at hevents
  rw [readLines, calendarLines, List.map_append, List.map_append, List.foldlM_append,
    List.foldlM_append]
  simp only [List.map_cons, List.map_nil, List.foldlM_cons, List.foldlM_nil,
    hpass ⟨none, [], none⟩ ("BEGIN", ofString "VCALENDAR") rfl (by decide) fun _ => rfl,
    hpass ⟨none, [], none⟩ ("VERSION", ofString "2.0") rfl (by decide) (by decide),
    hpass ⟨none, [], none⟩ ("PRODID", ofString "-//Loonext//Schedule//EN") rfl (by decide)
      (by decide),
    hpass ⟨none, [], none⟩ ("CALSCALE", ofString "GREGORIAN") rfl (by decide) (by decide),
    hpass ⟨none, [], none⟩ ("METHOD", ofString "PUBLISH") rfl (by decide) (by decide), hname,
    Option.bind_eq_bind, Option.bind_some, unescape_icsEscape, Option.pure_def, hevents,
    List.nil_append, hlast]

/-- Every line fits into 75 octets, and no fold splits a code point. -/
def Legal (doc : Text) : Prop := (∀ line ∈ splitLines doc, octets line ≤ 75) ∧ WholeFolds doc

/-- **The feed is legal, and gives the calendar back.** -/
theorem buildIcs_reads {calendar : IcsCalendar} (h : UnbrokenIds calendar) :
    Legal (buildIcs calendar) ∧ ((∀ event ∈ calendar.events, Plain event) →
      readIcs (buildIcs calendar) = some (seen calendar)) := by
  have hlines := foldable_lines h
  rw [buildIcs_written]
  refine ⟨⟨octets_written hlines, wholeFolds_written hlines⟩, fun hplain => ?_⟩
  have hsplit := splitLines_document fun line hline => (hlines line hline).1
  have hnames : ∀ line ∈ calendarLines calendar, COLON ∉ ofString line.1 := by
    intro line hline
    exact (names_foldable line.1 (calendarLines_spec h line hline).1).2.2.2
  rw [readIcs, unfold_written hlines, hsplit]
  simp [mapM_readLine hnames, foldlM_read_calendar hplain, seen]

/-- An event at an instant, with nothing in it. -/
def blankEvent (ms : ℤ) : IcsEvent := ⟨[], ms, ms, ms, [], none, none, none⟩

/-- A long title with everything that is escaped, beyond the basic plane, and with a fold. -/
theorem buildIcs_reads_title :
    let calendar : IcsCalendar := ⟨ofString "Été; hiver",
      [{ blankEvent 1753232400123 with
        uid := ofString "task-1@loonext.com"
        summary := ofString "Heater, valve\r\nEND:VEVENT \\ 😀😀😀😀😀😀😀😀😀😀😀😀😀😀😀😀😀" }]⟩
    Legal (buildIcs calendar) ∧ readIcs (buildIcs calendar) = some (seen calendar) := by
  intro calendar
  have h : UnbrokenIds calendar := by
    unfold UnbrokenIds Unbroken
    decide +kernel
  have hplain : ∀ event ∈ calendar.events, Plain event := by
    intro event hevent
    rw [List.mem_singleton.1 hevent]
    exact ⟨by decide +kernel, by decide, by decide, by decide⟩
  exact ⟨(buildIcs_reads h).1, (buildIcs_reads h).2 hplain⟩

/-- An empty description comes back as none; a uid that holds an escape comes back changed; the
years before 1000 are not read at all. -/
theorem calendar_not_read_back :
    let empty : IcsCalendar := ⟨[], [{ blankEvent 0 with description := some [] }]⟩
    let escape : IcsCalendar := ⟨[], [{ blankEvent 0 with uid := ofString "a\\n" }]⟩
    let early : IcsCalendar := ⟨[], [blankEvent (-30641760000000)]⟩
    (UnbrokenIds empty ∧ UnbrokenIds escape ∧ UnbrokenIds early) ∧
      readIcs (buildIcs empty) = some ⟨[], [blankEvent 0]⟩ ∧ blankEvent 0 ∉ empty.events ∧
      readIcs (buildIcs escape) = some ⟨[], [{ blankEvent 0 with uid := ofString "a\n" }]⟩ ∧
      ofString "a\n" ≠ ofString "a\\n" ∧ readIcs (buildIcs early) = none := by
  unfold UnbrokenIds Unbroken
  decide +kernel

end Ics
