/-
**Content lines, as RFC 5545 has them.**

A document is a sequence of lines, each ended by a carriage return and a line feed.  A long line is
folded: it is broken up by a line end and one space, and a reader joins the pieces by deleting both.
A line is a name, a colon and a value; a text value writes a backslash, a semicolon, a comma and a
line feed with a backslash before them.

Main result:

* `ContentLines.unfold_folded` — **unfolding joins the pieces**, wherever a line was broken up.
-/

import Texturion.CodePoints

namespace ContentLines

open JsText CodePoints

def CR : UInt16 := 0x0D

def LF : UInt16 := 0x0A

def SPACE : UInt16 := 0x20

def COLON : UInt16 := 0x3A

def BACKSLASH : UInt16 := 0x5C

/-- The line end. -/
def CRLF : Text := [CR, LF]

/-- No carriage return and no line feed. -/
def Unbroken (text : Text) : Prop := ∀ u ∈ text, u ≠ CR ∧ u ≠ LF

variable {u : UInt16} {line before doc : Text} {pieces : List Text}

theorem Unbroken.of_cons {text : Text} (h : Unbroken (u :: text)) : Unbroken text :=
  fun v hv => h v (List.mem_cons_of_mem _ hv)

theorem unbroken_append {a b : Text} : Unbroken (a ++ b) ↔ Unbroken a ∧ Unbroken b :=
  List.forall_mem_append

/-! ### The reader -/

/-- Deletes every line end that is followed by one space, and the space. -/
def unfold : Text → Text
  | a :: b :: c :: rest =>
    if a = CR ∧ b = LF ∧ c = SPACE then unfold rest else a :: unfold (b :: c :: rest)
  | [a, b] => [a, b]
  | [a] => [a]
  | [] => []

/-- Puts a unit in front of the first line. -/
def pushUnit (u : UInt16) : List Text → List Text
  | [] => [[u]]
  | line :: lines => (u :: line) :: lines

/-- `text.split("\r\n")`. -/
def splitLines : Text → List Text
  | a :: b :: rest =>
    if a = CR ∧ b = LF then [] :: splitLines rest else pushUnit a (splitLines (b :: rest))
  | [a] => [[a]]
  | [] => [[]]

def readLine : Text → Option (Text × Text)
  | [] => none
  | u :: rest =>
    if u = COLON then some ([], rest)
    else (readLine rest).map fun (name, value) => (u :: name, value)

/-- What an escape stands for. -/
def escaped (u : UInt16) : Option UInt16 :=
  if u = BACKSLASH ∨ u = 0x3B ∨ u = 0x2C then some u
  else if u = 0x6E ∨ u = 0x4E then some LF
  else none

/-- The text a value stands for; a backslash in front of anything else stays. -/
def unescape : Text → Text
  | a :: b :: rest =>
    if a = BACKSLASH then
      match escaped b with
      | some u => u :: unescape rest
      | none => a :: unescape (b :: rest)
    else a :: unescape (b :: rest)
  | [a] => [a]
  | [] => []

/-! ### Reading on -/

theorem unfold_cons (h : u ≠ CR) (rest : Text) : unfold (u :: rest) = u :: unfold rest := by
  match rest with
  | [] => rfl
  | [b] => rfl
  | b :: c :: rest => rw [unfold, if_neg fun hc => h hc.1]

theorem unfold_fold (rest : Text) : unfold (CR :: LF :: SPACE :: rest) = unfold rest := by
  rw [unfold, if_pos ⟨rfl, rfl, rfl⟩]

theorem unfold_end {rest : Text} (h : rest.head? ≠ some SPACE) :
    unfold (CR :: LF :: rest) = CR :: LF :: unfold rest := by
  match rest with
  | [] => rfl
  | c :: rest =>
    have hc : c ≠ SPACE := fun hc => h (congrArg some hc)
    rw [unfold, if_neg fun hall => hc hall.2.2, unfold_cons (by decide)]

theorem unfold_append (h : Unbroken line) (rest : Text) :
    unfold (line ++ rest) = line ++ unfold rest := by
  induction line with
  | nil => rfl
  | cons u line ih =>
    rw [List.cons_append, unfold_cons (h u (List.mem_cons_self ..)).1, ih h.of_cons]
    rfl

theorem splitLines_line (h : Unbroken line) (rest : Text) :
    splitLines (line ++ (CRLF ++ rest)) = line :: splitLines rest := by
  induction line with
  | nil => exact (splitLines.eq_1 CR LF rest).trans (if_pos ⟨rfl, rfl⟩)
  | cons u line ih =>
    have hu := (h u (List.mem_cons_self ..)).1
    have hcons : ∀ text : Text, text ≠ [] →
        splitLines (u :: text) = pushUnit u (splitLines text) := by
      intro text htext
      cases text with
      | nil => exact absurd rfl htext
      | cons b text => rw [splitLines, if_neg fun hc => hu hc.1]
    rw [List.cons_append, hcons _ (by simp [CRLF]), ih h.of_cons]
    rfl

theorem readLine_append {name : Text} (h : COLON ∉ name) (value : Text) :
    readLine (name ++ COLON :: value) = some (name, value) := by
  induction name with
  | nil => exact (readLine.eq_2 COLON value).trans (if_pos rfl)
  | cons u name ih =>
    have hu : u ≠ COLON := fun hu => h (hu ▸ List.mem_cons_self ..)
    have hname := ih fun hmem => h (List.mem_cons_of_mem _ hmem)
    rw [List.cons_append, readLine, if_neg hu, hname]
    rfl

/-! ### Documents -/

/-- Lines, each with its end. -/
def document (lines : List Text) : Text := lines.flatMap (· ++ CRLF)

/-- Pieces, with a fold between them: `pieces.join("\r\n ")`. -/
def folded (pieces : List Text) : Text := List.intercalate (CRLF ++ [SPACE]) pieces

/-- `lines.join("\r\n")` and a last line end. -/
theorem intercalate_append {lines : List Text} (h : lines ≠ []) :
    List.intercalate CRLF lines ++ CRLF = document lines := by
  induction lines with
  | nil => exact absurd rfl h
  | cons a lines ih =>
    cases lines with
    | nil => simp [List.intercalate, document]
    | cons b lines =>
      have htail := ih (List.cons_ne_nil _ _)
      have hstep : List.intercalate CRLF (a :: b :: lines) =
          a ++ (CRLF ++ List.intercalate CRLF (b :: lines)) := by
        simp [List.intercalate]
      rw [hstep, List.append_assoc, List.append_assoc, htail]
      simp [document]

theorem folded_singleton (piece : Text) : folded [piece] = piece := by
  simp [folded, List.intercalate]

theorem folded_cons_cons (a b : Text) (pieces : List Text) :
    folded (a :: b :: pieces) = a ++ CR :: LF :: SPACE :: folded (b :: pieces) := by
  simp [folded, List.intercalate, CRLF]

/-- **Unfolding joins the pieces.** -/
theorem unfold_folded (h : ∀ p ∈ pieces, Unbroken p) (rest : Text) :
    unfold (folded pieces ++ rest) = pieces.flatten ++ unfold rest := by
  induction pieces with
  | nil => rfl
  | cons a pieces ih =>
    have ha := h a (List.mem_cons_self ..)
    cases pieces with
    | nil => rw [folded_singleton, unfold_append ha, List.flatten_cons, List.flatten_nil,
        List.append_nil]
    | cons b pieces =>
      have htail := ih fun p hp => h p (List.mem_cons_of_mem _ hp)
      rw [folded_cons_cons, List.append_assoc, unfold_append ha, List.cons_append,
        List.cons_append, List.cons_append, unfold_fold, htail, ← List.append_assoc]
      rfl

/-- Before unfolding the lines are the pieces, the later ones behind a space. -/
theorem splitLines_folded {a : Text} (ha : Unbroken a) (h : ∀ p ∈ pieces, Unbroken p)
    (rest : Text) :
    splitLines (folded (a :: pieces) ++ (CRLF ++ rest)) =
      a :: (pieces.map (SPACE :: ·) ++ splitLines rest) := by
  induction pieces generalizing a with
  | nil => rw [folded_singleton, splitLines_line ha]; rfl
  | cons b pieces ih =>
    have hb := h b (List.mem_cons_self ..)
    have hspace : Unbroken (SPACE :: b) := by
      rw [Unbroken, List.forall_mem_cons]
      exact ⟨by decide, hb⟩
    have hjoin : folded (a :: b :: pieces) ++ (CRLF ++ rest) =
        a ++ (CRLF ++ (folded ((SPACE :: b) :: pieces) ++ (CRLF ++ rest))) := by
      cases pieces with
      | nil => simp [folded_cons_cons, folded_singleton, CRLF]
      | cons c pieces => simp [folded_cons_cons, CRLF]
    rw [hjoin, splitLines_line ha, ih hspace fun p hp => h p (List.mem_cons_of_mem _ hp)]
    rfl

theorem splitLines_document {lines : List Text} (h : ∀ line ∈ lines, Unbroken line) :
    splitLines (document lines) = lines ++ [[]] := by
  induction lines with
  | nil => rfl
  | cons line lines ih =>
    rw [document, List.flatMap_cons, List.append_assoc,
      splitLines_line (h line (List.mem_cons_self ..))]
    exact congrArg _ (ih fun l hl => h l (List.mem_cons_of_mem _ hl))

/-! ### Folds and code points -/

/-- No fold of the document has a lead surrogate before it and a trail surrogate behind it.  The
unit before the document counts too. -/
def WholeFoldsFrom (before doc : Text) : Prop :=
  ∀ a b, doc = a ++ CR :: LF :: SPACE :: b → ¬ Splits (before ++ a) b

def WholeFolds (doc : Text) : Prop := WholeFoldsFrom [] doc

theorem wholeFoldsFrom_cons (hu : u ≠ CR)
    (h : WholeFoldsFrom [u] doc) : WholeFoldsFrom before (u :: doc) := by
  intro a b hdoc
  cases a with
  | nil =>
    injection hdoc with hcr
    exact absurd hcr hu
  | cons v a =>
    injection hdoc with huv hdoc
    subst huv
    rw [splits_append (List.cons_ne_nil _ _)]
    exact h a b hdoc

theorem wholeFoldsFrom_append (hline : Unbroken line)
    (h : WholeFoldsFrom (before ++ line) doc) : WholeFoldsFrom before (line ++ doc) := by
  induction line generalizing before with
  | nil => rwa [List.append_nil] at h
  | cons u line ih =>
    refine wholeFoldsFrom_cons (hline u (List.mem_cons_self ..)).1 (ih hline.of_cons ?_)
    intro a b hdoc
    have hcut := h a b hdoc
    have happ : before ++ u :: line ++ a = before ++ ([u] ++ line ++ a) := by simp
    rwa [happ, splits_append (by simp)] at hcut

theorem wholeFoldsFrom_fold (hcut : ¬ Splits before doc)
    (h : WholeFoldsFrom [SPACE] doc) : WholeFoldsFrom before (CR :: LF :: SPACE :: doc) := by
  intro a b hdoc
  match a with
  | [] =>
    obtain rfl : doc = b := by simpa using hdoc
    rwa [List.append_nil]
  | [x] => simp [CR, LF] at hdoc
  | [x, y] => simp [CR, SPACE] at hdoc
  | x :: y :: z :: a =>
    simp only [List.cons_append, List.cons.injEq] at hdoc
    obtain ⟨rfl, rfl, rfl, hdoc⟩ := hdoc
    have hrest := h a b hdoc
    have happ : before ++ CR :: LF :: SPACE :: a = (before ++ [CR, LF]) ++ ([SPACE] ++ a) := by
      simp
    rwa [happ, splits_append (by simp)]

theorem wholeFoldsFrom_end (hhead : doc.head? ≠ some SPACE)
    (h : WholeFoldsFrom [] doc) : WholeFoldsFrom before (CR :: LF :: doc) := by
  intro a b hdoc
  match a with
  | [] =>
    have hdoc' : doc = SPACE :: b := by simpa using hdoc
    exact absurd (congrArg List.head? hdoc') hhead
  | [x] => simp [CR, LF] at hdoc
  | x :: y :: a =>
    simp only [List.cons_append, List.cons.injEq] at hdoc
    obtain ⟨rfl, rfl, hdoc⟩ := hdoc
    have hrest := h a b hdoc
    cases a with
    | nil =>
      rintro ⟨u, v, hu, -, hlead⟩
      obtain rfl : LF = u := by simpa using hu
      simp [isLead, LF] at hlead
    | cons z a =>
      have happ : before ++ CR :: LF :: z :: a = (before ++ [CR, LF]) ++ (z :: a) := by simp
      rwa [happ, splits_append (List.cons_ne_nil _ _)]

/-- Where no cut between the pieces splits a code point, no fold does. -/
theorem wholeFoldsFrom_folded {p : Text} {rest : Text}
    (hline : ∀ q ∈ p :: pieces, Unbroken q ∧ q ≠ [])
    (hcuts : (p :: pieces).IsChain fun a b => ¬ Splits a b)
    (hrest : ∀ before, WholeFoldsFrom before rest) (before : Text) :
    WholeFoldsFrom before (folded (p :: pieces) ++ rest) := by
  induction pieces generalizing p before with
  | nil =>
    rw [folded_singleton]
    exact wholeFoldsFrom_append (hline p (List.mem_cons_self ..)).1 (hrest _)
  | cons q pieces ih =>
    obtain ⟨hp, hpne⟩ := hline p (List.mem_cons_self ..)
    have hq := (hline q (by simp)).2
    obtain ⟨hcut, hcuts⟩ := List.isChain_cons_cons.1 hcuts
    have htail := ih (fun r hr => hline r (List.mem_cons_of_mem _ hr)) hcuts [SPACE]
    have hhead : (folded (q :: pieces) ++ rest).head? = q.head? := by
      obtain ⟨u, q, rfl⟩ := List.exists_cons_of_ne_nil hq
      cases pieces with
      | nil => rw [folded_singleton]; rfl
      | cons r pieces => rw [folded_cons_cons]; rfl
    rw [folded_cons_cons, List.append_assoc, List.cons_append, List.cons_append,
      List.cons_append]
    refine wholeFoldsFrom_append hp (wholeFoldsFrom_fold ?_ htail)
    rw [splits_append hpne]
    rintro ⟨u, v, hu, hv, hlead⟩
    exact hcut ⟨u, v, hu, hhead ▸ hv, hlead⟩

end ContentLines
