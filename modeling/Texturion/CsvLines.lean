/-
**The line a row is reported on.**

The CSV parser reports with each row the line of the file it came from, and with a quote that is
never closed the line it was opened on.  It has no line counter: the number is that of the rows
ended so far, plus one.  A line break inside a quoted value ends no row, so every row after it is
reported above the line it stands on.

Main results:

* `Csv.scanAt_tracks` — **what the number of rows says of the lines**, at every turn of the loop;
* `Csv.reportsLines_iff` — **exactly which files are reported on their lines.**
-/

import Texturion.Csv

namespace Csv

open JsText

/-! ### Lines of a file -/

/-- How many line ends a text has: `CRLF`, `LF` or a lone `CR`, each counted at its last unit. -/
def terminators : Text → ℕ
  | [] => 0
  | char :: rest =>
    (if char = LF then 1 else if char = CR ∧ rest.head? ≠ some LF then 1 else 0) +
      terminators rest

/-- The 1-based line of a place in a file. -/
def lineAt (text : Text) (place : ℕ) : ℕ := 1 + terminators (text.take place)

@[simp] theorem terminators_nil : terminators [] = 0 := rfl

/-- Two texts put together have the line ends of both, but for one that the cut divides. -/
theorem terminators_append (a b : Text) (h : ¬ (a.getLast? = some CR ∧ b.head? = some LF)) :
    terminators (a ++ b) = terminators a + terminators b := by
  induction a with
  | nil => simp
  | cons u a ih =>
    cases a with
    | nil =>
      have hu : u = CR → b.head? ≠ some LF := fun hu hb => h ⟨by simp [hu], hb⟩
      by_cases hcr : u = CR
      · have hb := hu hcr
        simp [terminators, hcr, hb]
      · simp [terminators, hcr]
    | cons v a =>
      have htail := ih fun hc => h ⟨by rw [List.getLast?_cons_cons]; exact hc.1, hc.2⟩
      rw [List.cons_append, terminators, htail]
      exact (Nat.add_assoc _ _ _).symm

theorem terminators_pair {a : Text} (h : a.getLast? = some CR) (b : Text) :
    terminators (a ++ LF :: b) = terminators a + terminators b := by
  obtain ⟨front, rfl⟩ := List.getLast?_eq_some_iff.1 h
  have hfront : ∀ rest : Text, terminators (front ++ CR :: rest) =
      terminators front + terminators (CR :: rest) :=
    fun rest => terminators_append front (CR :: rest) (by simp [CR, LF])
  rw [List.append_assoc, List.singleton_append, hfront, hfront]
  simp [terminators, CR, LF]
  omega

/-! ### The parser's loop, with places -/

/-- The loop's variables, and the places in the file it passed. -/
structure Placed where
  s : Scan := {}
  /-- Where each row that is ended began. -/
  rowsAt : List ℕ := []
  /-- Where the row at hand began. -/
  rowAt : ℕ := 0
  /-- Where the last quote was opened. -/
  quoteAt : ℕ := 0
  /-- Where a quoted value had a carriage return or a line feed. -/
  breaks : List ℕ := []
  deriving DecidableEq

namespace Placed

/-- The row at hand ends, and the next one begins at a place. -/
def endRow (p : Placed) (next : ℕ) : Placed :=
  { p with s := p.s.endRow, rowsAt := p.rowsAt ++ [p.rowAt], rowAt := next }

/-- A unit of a quoted value. -/
def quoted (p : Placed) (place : ℕ) (char : UInt16) : Placed :=
  { p with
    s := p.s.add char
    breaks := if char = CR ∨ char = LF then p.breaks ++ [place] else p.breaks }

end Placed

/-- `scan`, from a place in the file on. -/
def scanAt (p : Placed) (place : ℕ) : Text → Placed
  | [] => p
  | char :: rest =>
    if p.s.inQuotes then
      if char = QUOTE then
        match rest with
        | [] => { p with s := p.s.closeQuote }
        | next :: rest' =>
          if next = QUOTE then scanAt { p with s := p.s.add QUOTE } (place + 2) rest'
          else scanAt { p with s := p.s.closeQuote } (place + 1) (next :: rest')
      else scanAt (p.quoted place char) (place + 1) rest
    else if char = QUOTE ∧ p.s.field = [] then
      scanAt { p with s := p.s.openQuote, quoteAt := place } (place + 1) rest
    else if char = COMMA then scanAt { p with s := p.s.endField } (place + 1) rest
    else if char = LF then scanAt (p.endRow (place + 1)) (place + 1) rest
    else if char = CR then
      match rest with
      | [] => p.endRow (place + 1)
      | next :: rest' =>
        if next = LF then scanAt (p.endRow (place + 2)) (place + 2) rest'
        else scanAt (p.endRow (place + 1)) (place + 1) (next :: rest')
    else scanAt { p with s := p.s.add char } (place + 1) rest

/-- Where the parser begins: behind a byte-order mark, if there is one. -/
def start (text : Text) : ℕ := if text.head? = some MARK then 1 else 0

/-- The whole loop over a file. -/
def placed (text : Text) : Placed := scanAt { rowAt := start text } (start text) (withoutMark text)

/-- The last row, which no line end closes. -/
def Placed.flush (p : Placed) : Placed :=
  if p.s.field ≠ [] ∨ p.s.row.length > 0 then p.endRow p.rowAt else p

theorem scanAt_scan (p : Placed) (place : ℕ) (rest : Text) :
    (scanAt p place rest).s = scan p.s rest := by
  fun_induction scanAt p place rest with
  | case1 p place => rfl
  | case2 p place hq => rw [scan, if_pos hq, if_pos rfl]
  | case3 p place hq rest ih => rw [ih, scan_pair hq]
  | case4 p place hq next rest hnext ih =>
    rw [ih, scan_close hq fun h => hnext (by simpa using h)]
  | case5 p place char rest hq hchar ih => rw [ih, scan_add hq hchar]; rfl
  | case6 p place char rest hq hopen ih =>
    rw [ih, hopen.1, scan_open (by simpa using hq) hopen.2]
  | case7 p place rest hq _ ih => rw [ih, scan_comma (by simpa using hq)]
  | case8 p place rest hq _ _ ih =>
    rw [ih, scan.eq_def p.s]
    simp [hq, LF, QUOTE, COMMA, Placed.endRow]
  | case9 p place hq _ _ _ =>
    rw [scan.eq_def]
    simp [hq, CR, LF, QUOTE, COMMA, Placed.endRow]
  | case10 p place hq rest _ _ _ ih => rw [ih, scan_crlf (by simpa using hq)]; rfl
  | case11 p place hq next rest hnext _ _ _ ih =>
    have hnext' : next ≠ 10 := hnext
    rw [ih, scan.eq_def p.s]
    simp [hq, hnext', CR, LF, QUOTE, COMMA, Placed.endRow]
  | case12 p place char rest hq hopen hcomma hlf hcr ih =>
    rw [ih, scan.eq_def p.s]
    simp [hq, hopen, hcomma, hlf, hcr]

/-! ### What the number of rows says of the lines -/

/-- The number of rows is at most that of the line ends above a place, and is that number where no
quoted line end stands above it. -/
def Counted (text : Text) (breaks : List ℕ) (rows place : ℕ) : Prop :=
  rows ≤ terminators (text.take place) ∧
    (terminators (text.take place) = rows ↔ ∀ b ∈ breaks, place ≤ b)

theorem Counted.append {text : Text} {breaks : List ℕ} {rows place b : ℕ}
    (h : Counted text breaks rows place) (hb : place ≤ b) :
    Counted text (breaks ++ [b]) rows place := by
  refine ⟨h.1, h.2.trans ?_⟩
  rw [List.forall_mem_append, List.forall_mem_singleton]
  exact (and_iff_left hb).symm

/-- The count at the place the loop has come to, below every quoted line end so far. -/
theorem counted_here {text before rest : Text} {breaks : List ℕ} {rows : ℕ}
    (hwhole : text = before ++ rest) (hpast : ∀ b ∈ breaks, b < before.length)
    (hle : rows ≤ terminators before) (hiff : terminators before = rows ↔ breaks = []) :
    Counted text breaks rows before.length := by
  have htake : text.take before.length = before := by rw [hwhole, List.take_left]
  rw [Counted, htake]
  refine ⟨hle, hiff.trans ⟨fun hnil b hb => ?_, fun hall => ?_⟩⟩
  · rw [hnil] at hb
    cases hb
  · refine List.eq_nil_iff_forall_not_mem.2 fun b hb => ?_
    have hlt := hpast b hb
    have hge := hall b hb
    omega

theorem getElem?_concat {l : List ℕ} {a b k : ℕ} (h : (l ++ [a])[k]? = some b) :
    l[k]? = some b ∨ k = l.length ∧ a = b := by
  rcases Nat.lt_or_ge k l.length with hlt | hge
  · rw [List.getElem?_append_left hlt] at h
    exact .inl h
  · rw [List.getElem?_append_right hge] at h
    cases hsub : k - l.length with
    | zero => exact .inr ⟨by omega, by simpa [hsub] using h⟩
    | succ n => simp [hsub] at h

/-- Between two turns of the loop: what is read, what is left, and what the places say. -/
structure Tracks (text before rest : Text) (p : Placed) : Prop where
  whole : text = before ++ rest
  here : p.s.rows.length ≤ terminators before ∧
    (terminators before = p.s.rows.length ↔ p.breaks = [])
  past : ∀ b ∈ p.breaks, b < before.length
  rows : p.rowsAt.length = p.s.rows.length
  ended : ∀ k place, p.rowsAt[k]? = some place →
    place ≤ before.length ∧ Counted text p.breaks k place
  row : p.rowAt ≤ before.length ∧ Counted text p.breaks p.s.rows.length p.rowAt
  quote : p.s.inQuotes = true → p.s.quoteOpenedOn = p.s.rows.length + 1 ∧
    p.quoteAt ≤ before.length ∧ Counted text p.breaks p.s.rows.length p.quoteAt ∧
    (before.getLast? = some CR → p.breaks ≠ [])
  cut : p.s.inQuotes = false → ¬ (before.getLast? = some CR ∧ rest.head? = some LF)

namespace Tracks

variable {text before rest : Text} {p q : Placed}

theorem counted (h : Tracks text before rest p) :
    Counted text p.breaks p.s.rows.length before.length :=
  counted_here h.whole h.past h.here.1 h.here.2

theorem pass {d : Text} (h : Tracks text before (d ++ rest) p) (hne : d ≠ [])
    (hd : ∀ u ∈ d, u ≠ CR ∧ u ≠ LF) (hrows : q.s.rows = p.s.rows) (hends : q.rowsAt = p.rowsAt)
    (hat : q.rowAt = p.rowAt) (hbreaks : q.breaks = p.breaks)
    (hquote : q.s.inQuotes = true →
      p.s.inQuotes = true ∧ q.s.quoteOpenedOn = p.s.quoteOpenedOn ∧ q.quoteAt = p.quoteAt ∨
        q.s.quoteOpenedOn = p.s.rows.length + 1 ∧ q.quoteAt = before.length) :
    Tracks text (before ++ d) rest q := by
  have hlast : (before ++ d).getLast? ≠ some CR := by
    rw [List.getLast?_append_of_ne_nil _ hne]
    intro hcr
    exact (hd CR (List.mem_of_getLast? hcr)).1 rfl
  have hhead : ¬ (before.getLast? = some CR ∧ d.head? = some LF) := fun hc =>
    (hd LF (List.mem_of_mem_head? hc.2)).2 rfl
  have hcount : terminators (before ++ d) = terminators before := by
    have hzero : ∀ e : Text, (∀ u ∈ e, u ≠ CR ∧ u ≠ LF) → terminators e = 0 := by
      intro e he
      induction e with
      | nil => rfl
      | cons u e ih =>
        obtain ⟨hcr, hlf⟩ := he u (List.mem_cons_self ..)
        rw [terminators, if_neg hlf, if_neg fun hc => hcr hc.1,
          ih fun v hv => he v (List.mem_cons_of_mem _ hv)]
    rw [terminators_append _ _ hhead, hzero d hd, Nat.add_zero]
  have hlen : before.length ≤ (before ++ d).length := by simp
  constructor
  · rw [h.whole, List.append_assoc]
  · rw [hcount, hrows, hbreaks]
    exact h.here
  · rw [hbreaks]
    exact fun b hb => (h.past b hb).trans_le hlen
  · rw [hends, hrows]
    exact h.rows
  · rw [hends, hbreaks]
    exact fun k place hk => ⟨(h.ended k place hk).1.trans hlen, (h.ended k place hk).2⟩
  · rw [hat, hbreaks, hrows]
    exact ⟨h.row.1.trans hlen, h.row.2⟩
  · intro hq
    rw [hbreaks, hrows]
    rcases hquote hq with ⟨hp, hon, hquoteAt⟩ | ⟨hon, hquoteAt⟩
    · obtain ⟨hopened, hle, hcounted, -⟩ := h.quote hp
      rw [hon, hquoteAt]
      exact ⟨hopened, hle.trans hlen, hcounted, fun hcr => absurd hcr hlast⟩
    · rw [hon, hquoteAt]
      exact ⟨rfl, hlen, h.counted, fun hcr => absurd hcr hlast⟩
  · exact fun _ hc => hlast hc.1

theorem endRow {d : Text} (h : Tracks text before (d ++ rest) p) (hp : p.s.inQuotes = false)
    (hd : d = [LF] ∨ d = [CR, LF] ∨ d = [CR] ∧ rest.head? ≠ some LF) :
    Tracks text (before ++ d) rest (p.endRow (before.length + d.length)) := by
  have hone : terminators d = 1 := by
    rcases hd with rfl | rfl | ⟨rfl, -⟩ <;> decide
  have hnext : ¬ ((before ++ d).getLast? = some CR ∧ rest.head? = some LF) := by
    rintro ⟨hlast, hhead⟩
    rcases hd with rfl | rfl | ⟨rfl, hrest⟩
    · simp [CR, LF] at hlast
    · simp [CR, LF] at hlast
    · exact hrest hhead
  have hcount : terminators (before ++ d) = terminators before + 1 := by
    rw [terminators_append, hone]
    intro hc
    refine h.cut hp ⟨hc.1, ?_⟩
    rw [List.head?_append, hc.2]
    rfl
  have hlen : before.length ≤ (before ++ d).length := by simp
  have hrowslen : (p.endRow (before.length + d.length)).s.rows.length = p.s.rows.length + 1 := by
    simp [Placed.endRow, Scan.endRow]
  have hhere : (p.endRow (before.length + d.length)).s.rows.length ≤ terminators (before ++ d) ∧
      (terminators (before ++ d) = (p.endRow (before.length + d.length)).s.rows.length ↔
        p.breaks = []) := by
    rw [hcount, hrowslen, Nat.add_right_cancel_iff]
    exact ⟨Nat.succ_le_succ h.here.1, h.here.2⟩
  have hwhole : text = before ++ d ++ rest := by rw [h.whole, List.append_assoc]
  have hpast : ∀ b ∈ p.breaks, b < (before ++ d).length :=
    fun b hb => (h.past b hb).trans_le hlen
  constructor
  · exact hwhole
  · exact hhere
  · exact hpast
  · rw [hrowslen]
    simp [Placed.endRow, h.rows]
  · intro k place hk
    rcases getElem?_concat hk with hk | ⟨rfl, rfl⟩
    · exact ⟨(h.ended k place hk).1.trans hlen, (h.ended k place hk).2⟩
    · rw [h.rows]
      exact ⟨h.row.1.trans hlen, h.row.2⟩
  · have hrowAt : (p.endRow (before.length + d.length)).rowAt = (before ++ d).length := by
      rw [List.length_append]
      rfl
    refine ⟨hrowAt.le, ?_⟩
    rw [hrowAt]
    exact counted_here hwhole hpast hhere.1 hhere.2
  · intro hq
    have hq' : p.s.inQuotes = true := hq
    rw [hp] at hq'
    cases hq'
  · exact fun _ => hnext

/-- A line end inside quotes is read, and ends no row: from here on there are more line ends than
rows. -/
theorem quoted {char : UInt16} (h : Tracks text before (char :: rest) p)
    (hp : p.s.inQuotes = true) (hchar : char = CR ∨ char = LF) :
    Tracks text (before ++ [char]) rest (p.quoted before.length char) := by
  obtain ⟨hopened, hquoteAt, hcounted, hcarriage⟩ := h.quote hp
  have hbreaks : (p.quoted before.length char).breaks = p.breaks ++ [before.length] := if_pos hchar
  have hmore : p.s.rows.length < terminators (before ++ [char]) := by
    have hle := h.here.1
    by_cases hpair : before.getLast? = some CR ∧ char = LF
    · -- the line feed belongs to a carriage return that was quoted too
      have hne := mt h.here.2.1 (hcarriage hpair.1)
      rw [hpair.2, terminators_pair hpair.1, terminators_nil, Nat.add_zero]
      omega
    · rw [terminators_append _ _ (by simpa using hpair)]
      have hone : terminators [char] = 1 := by
        rcases hchar with rfl | rfl <;> decide
      omega
  have hlen : before.length < (before ++ [char]).length := by simp
  constructor
  · rw [h.whole, List.append_assoc]
    rfl
  · rw [hbreaks]
    exact ⟨hmore.le, iff_of_false hmore.ne' (by simp)⟩
  · rw [hbreaks]
    intro b hb
    rcases List.mem_append.1 hb with hb | hb
    · exact (h.past b hb).trans hlen
    · rw [List.mem_singleton.1 hb]
      exact hlen
  · exact h.rows
  · rw [hbreaks]
    exact fun k place hk => ⟨(h.ended k place hk).1.trans hlen.le,
      (h.ended k place hk).2.append (h.ended k place hk).1⟩
  · rw [hbreaks]
    exact ⟨h.row.1.trans hlen.le, h.row.2.append h.row.1⟩
  · rw [hbreaks]
    exact fun _ => ⟨hopened, hquoteAt.trans hlen.le, hcounted.append hquoteAt, fun _ => by simp⟩
  · intro hq
    have hq' : p.s.inQuotes = false := hq
    rw [hp] at hq'
    cases hq'

end Tracks

/-- **Every turn of the loop keeps the count.** -/
theorem scanAt_tracks {text before rest : Text} {p : Placed} (h : Tracks text before rest p) :
    ∃ before', Tracks text before' [] (scanAt p before.length rest) := by
  generalize hplace : before.length = place
  fun_induction scanAt p place rest generalizing before with
  | case1 p place => exact ⟨before, h⟩
  | case2 p place hq =>
    have hclose : ∀ u ∈ [QUOTE], u ≠ CR ∧ u ≠ LF := by decide
    exact ⟨before ++ [QUOTE], h.pass (d := [QUOTE]) (by simp) hclose rfl rfl rfl rfl nofun⟩
  | case3 p place hq rest ih =>
    have hpair : ∀ u ∈ [QUOTE, QUOTE], u ≠ CR ∧ u ≠ LF := by decide
    refine @ih (before ++ [QUOTE, QUOTE]) ?_ (by simp [hplace])
    exact h.pass (d := [QUOTE, QUOTE]) (by simp) hpair rfl rfl rfl rfl fun _ =>
      .inl ⟨hq, rfl, rfl⟩
  | case4 p place hq next rest hnext ih =>
    have hclose : ∀ u ∈ [QUOTE], u ≠ CR ∧ u ≠ LF := by decide
    refine @ih (before ++ [QUOTE]) ?_ (by simp [hplace])
    exact h.pass (d := [QUOTE]) (by simp) hclose rfl rfl rfl rfl nofun
  | case5 p place char rest hq hchar ih =>
    refine @ih (before ++ [char]) ?_ (by simp [hplace])
    subst hplace
    by_cases hbreak : char = CR ∨ char = LF
    · exact h.quoted hq hbreak
    · refine h.pass (d := [char]) (by simp) ?_ rfl rfl rfl (if_neg hbreak) fun _ =>
      .inl ⟨hq, rfl, rfl⟩
      simpa using hbreak
  | case6 p place char rest hq hopen ih =>
    refine @ih (before ++ [char]) ?_ (by simp [hplace])
    refine h.pass (d := [char]) (by simp) ?_ rfl rfl rfl rfl fun _ => .inr ⟨rfl, hplace.symm⟩
    rw [hopen.1]
    decide
  | case7 p place rest hq _ ih =>
    have hcomma : ∀ u ∈ [COMMA], u ≠ CR ∧ u ≠ LF := by decide
    refine @ih (before ++ [COMMA]) ?_ (by simp [hplace])
    exact h.pass (d := [COMMA]) (by simp) hcomma rfl rfl rfl rfl fun hopen => absurd hopen hq
  | case8 p place rest hq _ _ ih =>
    subst hplace
    exact ih (h.endRow (d := [LF]) (by simpa using hq) (.inl rfl)) (by simp)
  | case9 p place hq _ _ _ =>
    subst hplace
    have hlone : ([] : Text).head? ≠ some LF := by simp
    exact ⟨_, h.endRow (d := [CR]) (by simpa using hq) (.inr (.inr ⟨rfl, hlone⟩))⟩
  | case10 p place hq rest _ _ _ ih =>
    subst hplace
    exact ih (h.endRow (d := [CR, LF]) (by simpa using hq) (.inr (.inl rfl))) (by simp)
  | case11 p place hq next rest hnext _ _ _ ih =>
    subst hplace
    have hlone : (next :: rest).head? ≠ some LF := by simpa using hnext
    exact ih (h.endRow (d := [CR]) (by simpa using hq) (.inr (.inr ⟨rfl, hlone⟩))) (by simp)
  | case12 p place char rest hq hopen hcomma hlf hcr ih =>
    refine @ih (before ++ [char]) ?_ (by simp [hplace])
    refine h.pass (d := [char]) (by simp) ?_ rfl rfl rfl rfl fun hquoted => absurd hquoted hq
    simpa using ⟨hcr, hlf⟩

/-! ### Files reported on their lines -/

/-- What the parser would say, were every line the one the row, or the open quote, stands on. -/
def truthfully (text : Text) : Except CsvUnterminatedQuoteError (List CsvRow) :=
  let p := placed text
  if p.s.inQuotes then .error { line := lineAt text p.quoteAt }
  else
    .ok (((p.flush.s.rows.zip p.flush.rowsAt).map fun row =>
      { line := lineAt text row.2, cells := row.1 }).filter fun row => isKept row.cells)

/-- Every row, and a quote left open, is reported on the line of the file it starts on. -/
def ReportsLines (text : Text) : Prop := parseCsvRows text = truthfully text

instance (text : Text) : Decidable (ReportsLines text) := inferInstanceAs (Decidable (_ = _))

/-- No quoted value has a line end above the quote that is left open, or, where none is, above a
row that is not blank. -/
def NoBreakAbove (text : Text) : Prop :=
  let p := placed text
  if p.s.inQuotes then ∀ b ∈ p.breaks, p.quoteAt ≤ b
  else ∀ row ∈ p.flush.s.rows.zip p.flush.rowsAt, isKept row.1 = true → ∀ b ∈ p.breaks, row.2 ≤ b

instance (text : Text) : Decidable (NoBreakAbove text) := by
  unfold NoBreakAbove
  infer_instance

theorem filter_lines_eq (line : ℕ → ℕ) (rows : List (List Text)) (places : List ℕ) (n : ℕ)
    (hlen : places.length = rows.length) :
    ((rows.zipIdx n).map fun row => ({ line := row.2 + 1, cells := row.1 } : CsvRow)).filter
        (fun row => isKept row.cells) =
      ((rows.zip places).map fun row => ({ line := line row.2, cells := row.1 } : CsvRow)).filter
        (fun row => isKept row.cells) ↔
      ∀ k cells place, rows[k]? = some cells → places[k]? = some place → isKept cells = true →
        n + k + 1 = line place := by
  induction rows generalizing places n with
  | nil => simp
  | cons cells rows ih =>
    cases places with
    | nil => cases hlen
    | cons place places =>
      have htail := ih places (n + 1) (by simpa using hlen)
      have hsplit : (∀ k c q, (cells :: rows)[k]? = some c → (place :: places)[k]? = some q →
          isKept c = true → n + k + 1 = line q) ↔
          (isKept cells = true → n + 1 = line place) ∧
            ∀ k c q, rows[k]? = some c → places[k]? = some q → isKept c = true →
              n + 1 + k + 1 = line q := by
        constructor
        · intro h
          refine ⟨fun hkept => h 0 cells place rfl rfl hkept, fun k c q hc hq hkept => ?_⟩
          have := h (k + 1) c q hc hq hkept
          omega
        · rintro ⟨hhead, hrest⟩ k c q hc hq hkept
          cases k with
          | zero =>
            obtain rfl : cells = c := by simpa using hc
            obtain rfl : place = q := by simpa using hq
            exact hhead hkept
          | succ k =>
            have := hrest k c q hc hq hkept
            omega
      rw [hsplit, ← htail, List.zipIdx_cons, List.zip_cons_cons, List.map_cons, List.map_cons,
        List.filter_cons, List.filter_cons]
      cases hkept : isKept cells with
      | true => simp
      | false => simp

/-- What stands in front of the text the loop reads: a byte-order mark, or nothing. -/
theorem exists_mark (text : Text) : ∃ mark : Text, (mark = [MARK] ∨ mark = []) ∧
    text = mark ++ withoutMark text ∧ mark.length = start text := by
  cases text with
  | nil => exact ⟨[], .inr rfl, rfl, rfl⟩
  | cons u text =>
    by_cases hmark : u = MARK
    · exact ⟨[MARK], .inl rfl, by simp [withoutMark, hmark], by simp [start, hmark]⟩
    · exact ⟨[], .inr rfl, by simp [withoutMark, hmark], by simp [start, hmark]⟩

theorem placed_tracks (text : Text) : ∃ before, Tracks text before [] (placed text) := by
  obtain ⟨mark, hmark, hwhole, hlen⟩ := exists_mark text
  have hzero : terminators mark = 0 := by
    rcases hmark with rfl | rfl <;> decide
  have hlast : mark.getLast? ≠ some CR := by
    rcases hmark with rfl | rfl <;> decide
  have hstart : Tracks text mark (withoutMark text) { rowAt := start text } := by
    have hcounted : Counted text [] 0 mark.length :=
      counted_here hwhole nofun (Nat.zero_le _) (by simp [hzero])
    exact ⟨hwhole, by simp [hzero], nofun, rfl, nofun, ⟨hlen.ge, hlen ▸ hcounted⟩, nofun,
      fun _ hc => hlast hc.1⟩
  have hrun := scanAt_tracks hstart
  rw [hlen] at hrun
  exact hrun

theorem flush_ended {text before : Text} {p : Placed} (h : Tracks text before [] p) :
    p.flush.rowsAt.length = p.flush.s.rows.length ∧
      ∀ k place, p.flush.rowsAt[k]? = some place → Counted text p.breaks k place := by
  unfold Placed.flush
  split_ifs with hlast
  · refine ⟨by simp [Placed.endRow, Scan.endRow, h.rows], fun k place hk => ?_⟩
    rcases getElem?_concat hk with hk | ⟨rfl, rfl⟩
    · exact (h.ended k place hk).2
    · rw [h.rows]
      exact h.row.2
  · exact ⟨h.rows, fun k place hk => (h.ended k place hk).2⟩

theorem flush_scan (p : Placed) : p.flush.s = p.s.flush := by
  unfold Placed.flush Scan.flush
  split_ifs <;> rfl

/-- **Which files are reported on their lines**: those in which no quoted value has a line end
above a row that is not blank or, where the file ends in a quote that is left open, above that
quote. -/
theorem reportsLines_iff (text : Text) : ReportsLines text ↔ NoBreakAbove text := by
  obtain ⟨before, h⟩ := placed_tracks text
  have hscan : (placed text).s = scan {} (withoutMark text) := scanAt_scan _ _ _
  unfold ReportsLines NoBreakAbove parseCsvRows truthfully
  simp only [← hscan]
  cases hquotes : (placed text).s.inQuotes with
  | true =>
    obtain ⟨hopened, -, hcounted, -⟩ := h.quote hquotes
    simp only [if_true, Except.error.injEq, CsvUnterminatedQuoteError.mk.injEq, hopened, lineAt]
    rw [← hcounted.2]
    omega
  | false =>
    obtain ⟨hlen, hended⟩ := flush_ended h
    simp only [Bool.false_eq_true, if_false, Except.ok.injEq, ← flush_scan]
    rw [filter_lines_eq (lineAt text) _ _ 0 hlen]
    have hline : ∀ k place, (placed text).flush.rowsAt[k]? = some place →
        (0 + k + 1 = lineAt text place ↔ ∀ b ∈ (placed text).breaks, place ≤ b) := by
      intro k place hk
      rw [← (hended k place hk).2, lineAt]
      omega
    constructor
    · intro hall row hrow hkept
      obtain ⟨k, hk⟩ := List.mem_iff_getElem?.1 hrow
      obtain ⟨hcells, hplace⟩ := List.getElem?_zip_eq_some.1 hk
      exact (hline k row.2 hplace).1 (hall k row.1 row.2 hcells hplace hkept)
    · intro hall k cells place hcells hplace hkept
      have hmem : (cells, place) ∈ (placed text).flush.s.rows.zip (placed text).flush.rowsAt :=
        List.mem_iff_getElem?.2 ⟨k, List.getElem?_zip_eq_some.2 ⟨hcells, hplace⟩⟩
      exact (hline k place hplace).2 (hall (cells, place) hmem hkept)

/-- The row below a quoted line break stands on the third line, and is reported on the second. -/
theorem quoted_break_shifts : ¬ ∀ text, ReportsLines text := by
  intro h
  exact absurd (h (ofString "\"a\nb\",1\nx,2")) (by decide +kernel)

end Csv
