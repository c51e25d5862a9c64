/-
**Exported tables, read back.**

`apps/api/src/routes/core/csv.ts` writes a table in three layers: a cell that a spreadsheet would
read as a formula is guarded by an apostrophe, a cell with a comma, a quote or a line end is
quoted, and the cells are joined.  The parser is one loop over the text, and `csvUnguardText` takes
the apostrophe off.  Quoting and parsing undo one another on every text.  The guard does not: it
leaves a cell alone that already looks guarded, and the mark at the head of a file is taken off
even where it is the first cell's own.

Main results:

* `Csv.parseCsv_write` — **the parser reads back what is written**, whatever the cells contain;
* `Csv.roundTrips_iff` — **exactly which tables survive** the trip.
-/

import Texturion.JsText

namespace Csv

open JsText

def COMMA : UInt16 := 0x2C

def QUOTE : UInt16 := 0x22

def CR : UInt16 := 0x0D

def LF : UInt16 := 0x0A

def APOSTROPHE : UInt16 := 0x27

/-- The byte-order mark. -/
def MARK : UInt16 := 0xFEFF

/-! ### The writer -/

/-- `FORMULA_TRIGGER`: the characters a spreadsheet reads as the start of a formula. -/
def isTrigger (u : UInt16) : Bool := u ∈ ofString "=+-@\t\r\n"

/-- The test of `csvSafeText`: the text starts with a trigger. -/
def startsFormula (text : Text) : Bool := text.head?.any isTrigger

/-- The formula guard. -/
def csvSafeText (value : Option Text) : Text :=
  let text := value.getD []
  if startsFormula text then APOSTROPHE :: text else text

/-- The test of `csvUnguardText`: an apostrophe, and then a trigger. -/
def looksGuarded : Text → Bool
  | u :: rest => u == APOSTROPHE && startsFormula rest
  | [] => false

/-- Undo the guard. -/
def csvUnguardText : Option Text → Option Text
  | none => none
  | some value => if looksGuarded value then some value.tail else some value

/-- A unit that makes a field quoted. -/
def needsQuotes (u : UInt16) : Bool := u == COMMA || u == QUOTE || u == CR || u == LF

/-- `text.replace(/"/g, '""')`. -/
def doubleQuotes (text : Text) : Text :=
  text.flatMap fun u => if u = QUOTE then [QUOTE, QUOTE] else [u]

def csvField (value : Option Text) : Text :=
  let text := value.getD []
  if text.any needsQuotes then QUOTE :: doubleQuotes text ++ [QUOTE] else text

abbrev Row := List (Option Text)

def serializeCsv (rows : List Row) : Text :=
  [CR, LF].intercalate (rows.map fun row =>
    [COMMA].intercalate (row.map fun cell => csvField (some (csvSafeText cell))))

/-! ### The parser -/

/-- One parsed row, with the 1-based line it came from. -/
structure CsvRow where
  line : ℕ
  cells : List Text
  deriving DecidableEq

/-- A quoted value that is never closed, and the 1-based line it was opened on. -/
structure CsvUnterminatedQuoteError where
  line : ℕ
  deriving DecidableEq

/-- The variables of the parser's loop. -/
structure Scan where
  rows : List (List Text) := []
  row : List Text := []
  field : Text := []
  inQuotes : Bool := false
  quoteOpenedOn : ℕ := 0
  deriving DecidableEq

namespace Scan

def endField (s : Scan) : Scan := { s with row := s.row ++ [s.field], field := [] }

def endRow (s : Scan) : Scan :=
  { s.endField with rows := s.rows ++ [s.endField.row], row := [] }

/-- `field += char`. -/
def add (s : Scan) (char : UInt16) : Scan := { s with field := s.field ++ [char] }

/-- A quote at the start of a field. -/
def openQuote (s : Scan) : Scan :=
  { s with inQuotes := true, quoteOpenedOn := s.rows.length + 1 }

def closeQuote (s : Scan) : Scan := { s with inQuotes := false }

end Scan

/-- The parser's loop over the input that is left. -/
def scan (s : Scan) : Text → Scan
  | [] => s
  | char :: rest =>
    if s.inQuotes then
      if char = QUOTE then
        match rest with
        | [] => s.closeQuote
        | next :: rest' =>
          if next = QUOTE then scan (s.add QUOTE) rest' else scan s.closeQuote (next :: rest')
      else scan (s.add char) rest
    else if char = QUOTE ∧ s.field = [] then scan s.openQuote rest
    else if char = COMMA then scan s.endField rest
    else if char = LF then scan s.endRow rest
    else if char = CR then
      match rest with
      | [] => s.endRow
      | next :: rest' =>
        if next = LF then scan s.endRow rest' else scan s.endRow (next :: rest')
    else scan (s.add char) rest

def withoutMark : Text → Text
  | char :: rest => if char = MARK then rest else char :: rest
  | [] => []

/-- The last row, which no line end closes. -/
def Scan.flush (s : Scan) : Scan :=
  if s.field ≠ [] ∨ s.row.length > 0 then s.endRow else s

/-- A row that is not entirely blank. -/
def isKept (cells : List Text) : Bool := cells.any fun cell => trim cell != []

def parseCsvRows (text : Text) : Except CsvUnterminatedQuoteError (List CsvRow) :=
  let s := scan {} (withoutMark text)
  if s.inQuotes then .error { line := s.quoteOpenedOn }
  else
    .ok ((s.flush.rows.zipIdx.map fun row => { line := row.2 + 1, cells := row.1 }).filter
      fun row => isKept row.cells)

def parseCsv (text : Text) : Except CsvUnterminatedQuoteError (List (List Text)) :=
  (parseCsvRows text).map fun rows => rows.map CsvRow.cells

/-! ### One turn of the loop -/

section Turns

variable {s : Scan} {rest : Text}

/-- One turn: what is done with the next unit, by the state and the unit. -/
theorem scan_cons (char : UInt16) : scan s (char :: rest) =
    if s.inQuotes then
      if char = QUOTE then
        match rest with
        | [] => s.closeQuote
        | next :: rest' =>
          if next = QUOTE then scan (s.add QUOTE) rest' else scan s.closeQuote (next :: rest')
      else scan (s.add char) rest
    else if char = QUOTE ∧ s.field = [] then scan s.openQuote rest
    else if char = COMMA then scan s.endField rest
    else if char = LF then scan s.endRow rest
    else if char = CR then
      match rest with
      | [] => s.endRow
      | next :: rest' =>
        if next = LF then scan s.endRow rest' else scan s.endRow (next :: rest')
    else scan (s.add char) rest := by
  rw [scan.eq_def]
  rfl

theorem scan_add {char : UInt16} (hq : s.inQuotes = true) (hchar : char ≠ QUOTE) :
    scan s (char :: rest) = scan (s.add char) rest := by
  rw [scan_cons]
  simp only [if_pos hq, if_neg hchar]

theorem scan_pair (hq : s.inQuotes = true) :
    scan s (QUOTE :: QUOTE :: rest) = scan (s.add QUOTE) rest := by
  rw [scan_cons]
  simp only [if_pos hq, if_true]

theorem scan_close (hq : s.inQuotes = true) (hrest : rest.head? ≠ some QUOTE) :
    scan s (QUOTE :: rest) = scan s.closeQuote rest := by
  rw [scan_cons]
  simp only [if_pos hq, if_true]
  cases rest with
  | nil => rfl
  | cons next rest =>
    have hnext : next ≠ QUOTE := fun h => hrest (by rw [h]; rfl)
    simp only [if_neg hnext]

section

variable (hq : s.inQuotes = false)
include hq

theorem scan_open (hfield : s.field = []) : scan s (QUOTE :: rest) = scan s.openQuote rest := by
  rw [scan_cons]
  simp [hq, hfield]

theorem scan_comma : scan s (COMMA :: rest) = scan s.endField rest := by
  rw [scan_cons]
  simp [hq, COMMA, QUOTE]

theorem scan_crlf : scan s (CR :: LF :: rest) = scan s.endRow rest := by
  rw [scan_cons]
  simp [hq, COMMA, QUOTE, CR, LF]

theorem scan_plain {char : UInt16} (hchar : needsQuotes char = false) :
    scan s (char :: rest) = scan (s.add char) rest := by
  obtain ⟨⟨⟨hcomma, hquote⟩, hcr⟩, hlf⟩ :
      ((char ≠ COMMA ∧ char ≠ QUOTE) ∧ char ≠ CR) ∧ char ≠ LF := by
    simpa [needsQuotes] using hchar
  rw [scan_cons]
  simp [hq, hquote, hcomma, hlf, hcr]

end

end Turns

/-! ### One field -/

variable {text : Text} {table : List (List Text)}

theorem scan_bare (htext : ∀ u ∈ text, needsQuotes u = false) (rest : Text) (s : Scan)
    (hq : s.inQuotes = false) :
    scan s (text ++ rest) = scan { s with field := s.field ++ text } rest := by
  induction text generalizing s with
  | nil => rw [List.nil_append, List.append_nil]
  | cons u text ih =>
    have hu := htext u (List.mem_cons_self ..)
    have htail : ∀ v ∈ text, needsQuotes v = false :=
      fun v hv => htext v (List.mem_cons_of_mem _ hv)
    rw [List.cons_append, scan_plain hq hu, ih htail (s.add u) hq]
    simp [Scan.add]

theorem scan_doubleQuotes (text rest : Text) (s : Scan) (hq : s.inQuotes = true) :
    scan s (doubleQuotes text ++ rest) = scan { s with field := s.field ++ text } rest := by
  induction text generalizing s with
  | nil => simp [doubleQuotes]
  | cons u text ih =>
    have hcons : doubleQuotes (u :: text) =
        (if u = QUOTE then [QUOTE, QUOTE] else [u]) ++ doubleQuotes text := rfl
    have hadd := ih (s.add u) hq
    rw [hcons]
    by_cases hu : u = QUOTE
    · rw [if_pos hu]
      subst hu
      simp only [List.cons_append, List.nil_append]
      rw [scan_pair hq, hadd]
      simp [Scan.add]
    · rw [if_neg hu, List.singleton_append, List.cons_append, scan_add hq hu, hadd]
      simp [Scan.add]

/-- **One field.**  A written field in front of a separator, or of the end, is read as its text. -/
theorem scan_field (text rest : Text) {s : Scan} (hq : s.inQuotes = false)
    (hfield : s.field = []) (hrest : rest.head? ≠ some QUOTE) :
    ∃ line, scan s (csvField (some text) ++ rest) =
      scan { s with field := text, quoteOpenedOn := line } rest := by
  unfold csvField
  simp only [Option.getD_some]
  split_ifs with hspecial
  · refine ⟨s.rows.length + 1, ?_⟩
    rw [List.append_assoc, List.cons_append, scan_open hq hfield]
    rw [scan_doubleQuotes text _ s.openQuote rfl, List.singleton_append]
    rw [scan_close (s := { s.openQuote with field := s.openQuote.field ++ text }) rfl hrest]
    simp [Scan.closeQuote, Scan.openQuote, hq, hfield]
  · have hbare : ∀ u ∈ text, needsQuotes u = false := by simpa using hspecial
    refine ⟨s.quoteOpenedOn, ?_⟩
    rw [scan_bare hbare rest s hq, hfield, List.nil_append]

/-! ### Rows and tables -/

def writeRow (cells : List Text) : Text :=
  [COMMA].intercalate (cells.map fun cell => csvField (some cell))

/-- The text of a table of cells as they stand in the file. -/
def write (table : List (List Text)) : Text := [CR, LF].intercalate (table.map writeRow)

theorem serializeCsv_eq_write (table : List Row) :
    serializeCsv table = write (table.map fun row => row.map csvSafeText) := by
  unfold serializeCsv write writeRow
  simp only [List.map_map, Function.comp_def]

/-- **One row.**  A written row in front of a line end, or of the end, leaves its last cell in the
field and the others in the row. -/
theorem scan_row (cell : Text) (cells : List Text) (rest : Text) {s : Scan}
    (hq : s.inQuotes = false) (hfield : s.field = []) (hrest : rest.head? ≠ some QUOTE) :
    ∃ line, scan s (writeRow (cell :: cells) ++ rest) =
      scan { s with
        row := s.row ++ (cell :: cells).dropLast
        field := (cell :: cells).getLast (List.cons_ne_nil _ _)
        quoteOpenedOn := line } rest := by
  induction cells generalizing s cell with
  | nil =>
    obtain ⟨line, h⟩ := scan_field cell rest hq hfield hrest
    refine ⟨line, ?_⟩
    simpa [writeRow] using h
  | cons next cells ih =>
    have hjoin : writeRow (cell :: next :: cells) ++ rest =
        csvField (some cell) ++ (COMMA :: (writeRow (next :: cells) ++ rest)) := by
      simp [writeRow, List.intercalate]
    obtain ⟨line, h⟩ := scan_field cell (COMMA :: (writeRow (next :: cells) ++ rest)) hq hfield
      (by simp [COMMA, QUOTE])
    obtain ⟨line', h'⟩ := ih next
      (s := Scan.endField { s with field := cell, quoteOpenedOn := line }) hq rfl
    refine ⟨line', ?_⟩
    rw [hjoin, h, scan_comma (by exact hq), h']
    simp [Scan.endField]

/-- A row whose text the parser does not take for the end of the file. -/
def Closes (row : List Text) : Prop := row ≠ [] ∧ row ≠ [[]]

/-- **A whole table.** -/
theorem scan_write (row : List Text) (table : List (List Text)) {s : Scan}
    (hq : s.inQuotes = false) (hrow : s.row = []) (hfield : s.field = [])
    (hcloses : ∀ r ∈ row :: table, Closes r) :
    (scan s (write (row :: table))).inQuotes = false ∧
      (scan s (write (row :: table))).flush.rows = s.rows ++ row :: table := by
  induction table generalizing s row with
  | nil =>
    obtain ⟨hne, hblank⟩ := hcloses row (List.mem_singleton_self _)
    cases row with
    | nil => exact absurd rfl hne
    | cons cell cells =>
      obtain ⟨line, h⟩ := scan_row cell cells [] hq hfield (by simp)
      have hwrite : write [cell :: cells] = writeRow (cell :: cells) ++ [] := by
        simp [write]
      rw [hwrite, h]
      refine ⟨hq, ?_⟩
      have hends : (cell :: cells).getLast (List.cons_ne_nil _ _) ≠ [] ∨
          (cell :: cells).dropLast.length > 0 := by
        cases cells with
        | nil => exact Or.inl fun hcell => hblank (by simpa using hcell)
        | cons next cells => exact Or.inr (by simp)
      unfold Scan.flush scan
      simp only [hrow, List.nil_append]
      rw [if_pos hends]
      simp only [Scan.endRow, Scan.endField]
      rw [List.dropLast_append_getLast]
  | cons next table ih =>
    obtain ⟨hne, _⟩ := hcloses row (List.mem_cons_self ..)
    cases row with
    | nil => exact absurd rfl hne
    | cons cell cells =>
      have hjoin : write ((cell :: cells) :: next :: table) =
          writeRow (cell :: cells) ++ (CR :: LF :: write (next :: table)) := by
        simp [write, List.intercalate]
      obtain ⟨line, h⟩ := scan_row cell cells (CR :: LF :: write (next :: table)) hq hfield
        (by simp [CR, QUOTE])
      rw [hjoin, h, scan_crlf (by exact hq)]
      obtain ⟨hclosed, hrows⟩ := ih next (s := Scan.endRow { s with
        row := s.row ++ (cell :: cells).dropLast
        field := (cell :: cells).getLast (List.cons_ne_nil _ _)
        quoteOpenedOn := line }) hq rfl rfl
        (fun r hr => hcloses r (List.mem_cons_of_mem _ hr))
      refine ⟨hclosed, ?_⟩
      rw [hrows]
      simp only [Scan.endRow, Scan.endField, hrow, List.nil_append, List.append_assoc]
      rw [List.dropLast_append_getLast]
      simp

/-! ### The mark at the head of the file -/

/-- A cell that starts with a byte-order mark and is written without quotes. -/
def bareMark (text : Text) : Bool := text.head? == some MARK && !text.any needsQuotes

/-- The table the parser is left with: a mark at the head of its first cell is taken for the
file's. -/
def stripMark : List (List Text) → List (List Text)
  | (cell :: cells) :: table => ((if bareMark cell then cell.tail else cell) :: cells) :: table
  | table => table

theorem writeRow_cons (cells : List Text) :
    ∃ rest : Text, (rest = [] ∨ rest.head? = some COMMA) ∧
      ∀ cell, writeRow (cell :: cells) = csvField (some cell) ++ rest := by
  cases cells with
  | nil => exact ⟨[], Or.inl rfl, fun cell => by simp [writeRow]⟩
  | cons next cells =>
    exact ⟨COMMA :: writeRow (next :: cells), Or.inr rfl,
      fun cell => by simp [writeRow, List.intercalate]⟩

theorem write_cons (cells : List Text) (table : List (List Text)) :
    ∃ rest : Text, rest.head? ≠ some MARK ∧
      ∀ cell, write ((cell :: cells) :: table) = csvField (some cell) ++ rest := by
  obtain ⟨rest, hhead, hrow⟩ := writeRow_cons cells
  cases table with
  | nil =>
    refine ⟨rest, ?_, fun cell => by rw [← hrow]; simp [write]⟩
    rcases hhead with h | h
    · simp [h]
    · simp [h, COMMA, MARK]
  | cons next table =>
    refine ⟨rest ++ CR :: LF :: write (next :: table), ?_, fun cell => ?_⟩
    · rcases hhead with h | h
      · simp [h, CR, MARK]
      · rw [List.head?_append, h]
        simp [COMMA, MARK]
    · rw [← List.append_assoc, ← hrow]
      simp [write, List.intercalate]

theorem csvField_bare (h : text.any needsQuotes = false) : csvField (some text) = text := by
  simp [csvField, h]

theorem withoutMark_of_head (h : text.head? ≠ some MARK) : withoutMark text = text := by
  cases text with
  | nil => rfl
  | cons u text =>
    have hu : u ≠ MARK := fun heq => h (by rw [heq]; rfl)
    exact if_neg hu

/-- **The mark** is taken off the file, and off its first cell where that was the cell's own. -/
theorem withoutMark_write (hrows : ∀ row ∈ table, row ≠ []) :
    withoutMark (write table) = write (stripMark table) := by
  cases table with
  | nil => rfl
  | cons row table =>
    cases row with
    | nil => exact absurd rfl (hrows [] (List.mem_cons_self ..))
    | cons cell cells =>
      obtain ⟨rest, hrest, h⟩ := write_cons cells table
      unfold stripMark
      rw [h, h]
      cases hmark : bareMark cell with
      | true =>
        simp only [bareMark, Bool.and_eq_true, beq_iff_eq, Bool.not_eq_true'] at hmark
        obtain ⟨hhead, hbare⟩ := hmark
        obtain ⟨tail, rfl⟩ := List.head?_eq_some_iff.1 hhead
        have htail : tail.any needsQuotes = false := by
          simp only [List.any_cons, Bool.or_eq_false_iff] at hbare
          exact hbare.2
        rw [csvField_bare hbare, if_pos rfl, List.tail_cons, csvField_bare htail]
        simp [withoutMark]
      | false =>
        simp only [Bool.false_eq_true, if_false]
        refine withoutMark_of_head fun hhead => ?_
        cases hany : cell.any needsQuotes with
        | true => simp [csvField, hany, QUOTE, MARK] at hhead
        | false =>
          rw [csvField_bare hany] at hhead
          cases cell with
          | nil => exact hrest hhead
          | cons u cell =>
            have hu : u = MARK := by simpa using hhead
            have hbare : bareMark (u :: cell) = true := by
              rw [bareMark, hany]
              simp [hu]
            rw [hbare] at hmark
            cases hmark

/-! ### Reading back what is written -/

theorem isKept_iff {cells : List Text} :
    isKept cells = true ↔ ∃ cell ∈ cells, ∃ u ∈ cell, isSpace u = false := by
  simp only [isKept, List.any_eq_true, bne_iff_ne, trim_ne_nil]

theorem closes_of_isKept {cells : List Text} (h : isKept cells = true) : Closes cells := by
  obtain ⟨cell, hcell, u, hu, _⟩ := isKept_iff.1 h
  refine ⟨?_, ?_⟩
  · rintro rfl
    cases hcell
  · rintro rfl
    rw [List.mem_singleton.1 hcell] at hu
    cases hu

/-- The mark is white space, so that a row stays without it what it was. -/
theorem isKept_stripMark (h : ∀ row ∈ table, isKept row = true) :
    ∀ row ∈ stripMark table, isKept row = true := by
  unfold stripMark
  split
  next cell cells table =>
    intro row hrow
    rcases List.mem_cons.1 hrow with rfl | hrow
    · obtain ⟨a, ha, u, hu, hspace⟩ := isKept_iff.1 (h _ (List.mem_cons_self ..))
      refine isKept_iff.2 ?_
      rcases List.mem_cons.1 ha with rfl | ha
      · refine ⟨_, List.mem_cons_self .., u, ?_, hspace⟩
        split_ifs with hmark
        · simp only [bareMark, Bool.and_eq_true, beq_iff_eq] at hmark
          obtain ⟨tail, rfl⟩ := List.head?_eq_some_iff.1 hmark.1
          rcases List.mem_cons.1 hu with rfl | hu
          · exact absurd hspace (by decide)
          · exact hu
        · exact hu
      · exact ⟨a, List.mem_cons_of_mem _ ha, u, hu, hspace⟩
    · exact h row (List.mem_cons_of_mem _ hrow)
  next => exact h

/-- **The parser reads back what is written**: every cell of every row that is not blank, but for
a mark at the head of the file. -/
theorem parseCsv_write (hkept : ∀ row ∈ table, isKept row = true) :
    parseCsv (write table) = .ok (stripMark table) := by
  have hkept' := isKept_stripMark hkept
  unfold parseCsv parseCsvRows
  rw [withoutMark_write fun row hrow => (closes_of_isKept (hkept row hrow)).1]
  generalize stripMark table = table at hkept' ⊢
  have hscan : (scan {} (write table)).inQuotes = false ∧
      (scan {} (write table)).flush.rows = table := by
    cases table with
    | nil => exact ⟨rfl, rfl⟩
    | cons row table =>
      exact scan_write row table rfl rfl rfl fun r hr => closes_of_isKept (hkept' r hr)
  have hfilter : ((table.zipIdx.map fun row => ({ line := row.2 + 1, cells := row.1 } : CsvRow)).filter
      fun row => isKept row.cells) =
        table.zipIdx.map fun row => { line := row.2 + 1, cells := row.1 } := by
    refine List.filter_eq_self.2 fun row hrow => ?_
    obtain ⟨⟨cells, line⟩, hmem, rfl⟩ := List.mem_map.1 hrow
    exact hkept' cells (List.fst_mem_of_mem_zipIdx hmem)
  simp only [hscan.1, hscan.2, hfilter, Bool.false_eq_true, if_false, Except.map, List.map_map]
  congr 1
  exact List.zipIdx_map_fst 0 table

/-! ### The guard -/

/-- A cell that looks guarded already is the one that the guard does not give back. -/
theorem csvUnguardText_csvSafeText (value : Option Text) :
    csvUnguardText (some (csvSafeText value)) = some (value.getD []) ↔
      looksGuarded (value.getD []) = false := by
  generalize htext : value.getD [] = text
  unfold csvSafeText
  rw [htext]
  simp only
  cases hstarts : startsFormula text with
  | true =>
    have hguarded : looksGuarded (APOSTROPHE :: text) = true := by
      simp [looksGuarded, hstarts]
    have hplain : looksGuarded text = false := by
      cases text with
      | nil => rfl
      | cons u text =>
        have hu : isTrigger u = true := by simpa [startsFormula] using hstarts
        have hne : u ≠ APOSTROPHE := by
          rintro rfl
          exact absurd hu (by decide)
        simp [looksGuarded, hne]
    simp [csvUnguardText, hguarded, hplain]
  | false =>
    cases hguarded : looksGuarded text with
    | false => simp [csvUnguardText, hguarded]
    | true =>
      cases text with
      | nil => cases hguarded
      | cons u text => simp [csvUnguardText, hguarded]

theorem bareMark_cons_of_ne {u : UInt16} (h : u ≠ MARK) (text : Text) :
    bareMark (u :: text) = false := by
  unfold bareMark
  rw [Bool.and_eq_false_iff]
  left
  simpa using h

theorem bareMark_csvSafeText (value : Option Text) :
    bareMark (csvSafeText value) = bareMark (value.getD []) := by
  generalize htext : value.getD [] = text
  unfold csvSafeText
  rw [htext]
  simp only
  split_ifs with hstarts
  · cases text with
    | nil => cases hstarts
    | cons u text =>
      have hu : isTrigger u = true := by simpa [startsFormula] using hstarts
      have hne : u ≠ MARK := by
        rintro rfl
        exact absurd hu (by decide)
      rw [bareMark_cons_of_ne hne, bareMark_cons_of_ne (by decide)]
  · rfl

theorem isKept_csvSafeText {row : Row} (h : ∃ cell ∈ row, trim (cell.getD []) ≠ []) :
    isKept (row.map csvSafeText) = true := by
  obtain ⟨cell, hcell, hblank⟩ := h
  obtain ⟨u, hu, hspace⟩ := trim_ne_nil.1 hblank
  refine isKept_iff.2 ⟨_, List.mem_map_of_mem hcell, u, ?_, hspace⟩
  unfold csvSafeText
  simp only
  split_ifs
  · exact List.mem_cons_of_mem _ hu
  · exact hu

/-! ### The round trip -/

/-- Writing a table, parsing the text and unguarding every cell gives the table back, with the
empty text for a cell that has none. -/
def RoundTrips (table : List Row) : Prop :=
  (parseCsv (serializeCsv table)).map
      (fun rows => rows.map fun row => row.map fun cell => csvUnguardText (some cell)) =
    .ok (table.map fun row => row.map fun cell => some (cell.getD []))

instance (table : List Row) : Decidable (RoundTrips table) :=
  inferInstanceAs (Decidable (_ = _))

/-- The first cell of the table starts with a byte-order mark, and is written without quotes. -/
def leadsWithMark : List Row → Bool
  | (cell :: _) :: _ => bareMark (cell.getD [])
  | _ => false

theorem csvSafeText_of_bareMark {value : Option Text} (h : bareMark (value.getD []) = true) :
    ∃ text, csvSafeText value = MARK :: text ∧ value.getD [] = MARK :: text := by
  simp only [bareMark, Bool.and_eq_true, beq_iff_eq] at h
  obtain ⟨text, htext⟩ := List.head?_eq_some_iff.1 h.1
  refine ⟨text, ?_, htext⟩
  unfold csvSafeText
  rw [htext]
  exact if_neg (by simp [startsFormula]; decide)

theorem stripMark_of_not_leads {table : List Row} (h : leadsWithMark table = false) :
    stripMark (table.map fun row => row.map csvSafeText) =
      table.map fun row => row.map csvSafeText := by
  cases table with
  | nil => rfl
  | cons row table =>
    cases row with
    | nil => rfl
    | cons cell cells =>
      have hmark : bareMark (csvSafeText cell) = false := by
        rw [bareMark_csvSafeText]
        exact h
      simp [stripMark, hmark]

/-- The cell the parser is left with in place of one that started with the mark. -/
theorem csvUnguardText_length {text value : Text} (h : csvUnguardText (some text) = some value) :
    value.length ≤ text.length := by
  unfold csvUnguardText at h
  simp only at h
  split_ifs at h
  · obtain rfl : text.tail = value := by simpa using h
    rw [List.length_tail]
    exact Nat.sub_le _ _
  · obtain rfl : text = value := by simpa using h
    exact le_rfl

theorem not_roundTrips_of_leads {table : List Row}
    (hrows : ∀ row ∈ table, ∃ cell ∈ row, trim (cell.getD []) ≠ []) (h : leadsWithMark table = true) :
    ¬ RoundTrips table := by
  intro htrip
  have hkept : ∀ row ∈ table.map (fun row => row.map csvSafeText), isKept row = true := by
    intro row hrow
    obtain ⟨source, hsource, rfl⟩ := List.mem_map.1 hrow
    exact isKept_csvSafeText (hrows source hsource)
  unfold RoundTrips at htrip
  rw [serializeCsv_eq_write, parseCsv_write hkept] at htrip
  cases table with
  | nil => cases h
  | cons row table =>
    cases row with
    | nil => cases h
    | cons cell cells =>
      have hmark : bareMark (csvSafeText cell) = true := by
        rw [bareMark_csvSafeText]
        exact h
      simp only [List.map_cons, stripMark, hmark, if_true, Except.map, Except.ok.injEq,
        List.cons.injEq] at htrip
      obtain ⟨text, hsafe, hvalue⟩ := csvSafeText_of_bareMark h
      have hshort := csvUnguardText_length htrip.1.1
      rw [hsafe, hvalue, List.tail_cons, List.length_cons] at hshort
      omega

/-- **Which tables survive.**  A table every row of which has a cell that is not blank comes back
as it was exactly when no cell looks guarded before it is written, an apostrophe in front of a
formula character, and the first cell does not start with a byte-order mark that stands bare at
the head of the file. -/
theorem roundTrips_iff (table : List Row)
    (hrows : ∀ row ∈ table, ∃ cell ∈ row, trim (cell.getD []) ≠ []) :
    RoundTrips table ↔
      (∀ row ∈ table, ∀ cell ∈ row, looksGuarded (cell.getD []) = false) ∧
        leadsWithMark table = false := by
  have hkept : ∀ row ∈ table.map (fun row => row.map csvSafeText), isKept row = true := by
    intro row hrow
    obtain ⟨source, hsource, rfl⟩ := List.mem_map.1 hrow
    exact isKept_csvSafeText (hrows source hsource)
  by_cases hleads : leadsWithMark table = true
  · exact ⟨fun h => absurd h (not_roundTrips_of_leads hrows hleads),
      fun h => absurd hleads (by simp [h.2])⟩
  · rw [Bool.not_eq_true] at hleads
    have hcells : RoundTrips table ↔
        ∀ row ∈ table, ∀ cell ∈ row,
          csvUnguardText (some (csvSafeText cell)) = some (cell.getD []) := by
      unfold RoundTrips
      rw [serializeCsv_eq_write, parseCsv_write hkept, stripMark_of_not_leads hleads]
      simp only [Except.map, Except.ok.injEq, List.map_map, List.map_inj_left, Function.comp_def]
    rw [hcells]
    constructor
    · intro h
      exact ⟨fun row hrow cell hcell =>
        (csvUnguardText_csvSafeText cell).1 (h row hrow cell hcell), hleads⟩
    · rintro ⟨h, _⟩ row hrow cell hcell
      exact (csvUnguardText_csvSafeText cell).2 (h row hrow cell hcell)

example : ¬ RoundTrips [[some (MARK :: ofString "Ana")]] := by decide

/-- An export with a header, a guarded formula, a quote and a line end. -/
def exported : List Row :=
  [[some (ofString "name"), some (ofString "phone")],
    [some (ofString "Has \"quote\""), some (ofString "+15125550100")],
    [some (ofString "line1\nline2"), none]]

theorem roundTrips_iff_exported : RoundTrips exported :=
  (roundTrips_iff exported (by decide)).2 ⟨by decide, by decide⟩

/-- A cell that a person typed with an apostrophe in front of a formula comes back without it. -/
theorem typed_apostrophe_lost :
    ¬ ∀ table : List Row, (∀ row ∈ table, ∃ cell ∈ row, trim (cell.getD []) ≠ []) →
      RoundTrips table := by
  intro h
  exact absurd (h [[some (ofString "'=1")]] (by decide)) (by decide)

end Csv
