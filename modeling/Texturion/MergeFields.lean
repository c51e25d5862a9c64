/-
**Merge fields.**

`packages/shared/src/merge-fields.ts` replaces the tokens of a message body, `{first_name}` and the
like, by the values of the contact, the company and the sender.  A token without a value, or with a
name that is not known, is dropped, and the blanks around it are tidied.

The tokens are replaced from left to right, and what a replacement writes is not looked at again.
So a brace that belongs to no token stays, and it may find a partner that was too far away before:
what stood between the two has become a name.  Tidying takes blanks away, and a blank is part of no
token, so that it makes no token and undoes none.

Main result:

* `MergeFields.applyMergeFields_clean_iff` — **no token is left, and a second pass changes
  nothing**, exactly where no two lone braces enclose what becomes a name.
-/

import Texturion.JsText
import Mathlib.Data.List.Infix

namespace MergeFields

open JsText

/-! ### Tokens -/

/-- `[a-z_]` and `[a-z0-9_]`, in either case. -/
def isNameStart (u : UInt16) : Bool :=
  (0x61 ≤ u && u ≤ 0x7A) || (0x41 ≤ u && u ≤ 0x5A) || u == 0x5F

def isNameUnit (u : UInt16) : Bool := isNameStart u || (0x30 ≤ u && u ≤ 0x39)

/-- The name of a token: `[a-z_][a-z0-9_]*`. -/
def isName : Text → Bool
  | [] => false
  | u :: rest => isNameStart u && rest.all isNameUnit

def braced (name : Text) : Text := 0x7B :: name ++ [0x7D]

/-- `TOKEN_PATTERN` at the start of a text: the name it captures. -/
def tokenAt : Text → Option Text
  | [] => none
  | u :: rest =>
    let name := rest.takeWhile isNameUnit
    if u = 0x7B ∧ isName name = true ∧ (rest.dropWhile isNameUnit).head? = some 0x7D then some name
    else none

/-- What the matches of `TOKEN_PATTERN` cut a text into. -/
inductive Piece
  | unit (u : UInt16)
  | token (name : Text)
  deriving DecidableEq

def Piece.isToken : Piece → Bool
  | .unit _ => false
  | .token _ => true

/-- The matches from left to right; what a match has taken is skipped. -/
def scan : ℕ → Text → List Piece
  | _, [] => []
  | skip + 1, _ :: rest => scan skip rest
  | 0, u :: rest =>
    match tokenAt (u :: rest) with
    | some name => .token name :: scan (name.length + 1) rest
    | none => .unit u :: scan 0 rest

def pieces (text : Text) : List Piece := scan 0 text

/-! ### Values -/

/-- `MergeFieldValues`; `null` and a missing value are `none`. -/
structure MergeFieldValues where
  contactName : Option Text
  businessName : Option Text
  contactAddress : Option Text
  senderName : Option Text
  ourNumber : Option Text
  jobDay : Option Text
  jobTime : Option Text
  deriving DecidableEq

def MERGE_FIELD_TOKENS : List Text :=
  ["first_name", "business_name", "address", "my_name", "our_number", "job_day",
    "job_time"].map ofString

/-- What stands before the first white space of the trimmed name. -/
def firstName (contactName : Option Text) : Text :=
  (trim (contactName.getD [])).takeWhile fun u => !isSpace u

/-- `replace(/\s*\n+\s*/g, ", ")`: white space with a line feed in it; what is replaced is
skipped. -/
def joinLines : ℕ → Text → Text
  | _, [] => []
  | skip + 1, _ :: rest => joinLines skip rest
  | 0, u :: rest =>
    let space := (u :: rest).takeWhile isSpace
    if 0x0A ∈ space then 0x2C :: 0x20 :: joinLines (space.length - 1) rest
    else u :: joinLines 0 rest

def resolveToken (token : Text) (values : MergeFieldValues) : Text :=
  if token = ofString "first_name" then firstName values.contactName
  else if token = ofString "business_name" then trim (values.businessName.getD [])
  else if token = ofString "address" then trim (joinLines 0 (values.contactAddress.getD []))
  else if token = ofString "my_name" then firstName values.senderName
  else if token = ofString "our_number" then trim (values.ourNumber.getD [])
  else if token = ofString "job_day" then trim (values.jobDay.getD [])
  else if token = ofString "job_time" then trim (values.jobTime.getD [])
  else []

/-! ### Tidying -/

/-- `[ \t]`. -/
def isBlank (u : UInt16) : Bool := u == 0x20 || u == 0x09

/-- `[,.;:!?]`. -/
def isPunctuation (u : UInt16) : Bool := u ∈ ofString ",.;:!?"

/-- What ends a line for `^` and `$`. -/
def isTerminator (u : UInt16) : Bool := u ∈ [0x0A, 0x0D, 0x2028, 0x2029]

/-- Drop the runs of blanks before what satisfies `p`; `none` is the end of the text. -/
def dropBlanksBefore (p : Option UInt16 → Bool) : Text → Text
  | [] => []
  | u :: rest =>
    if isBlank u && p (rest.dropWhile isBlank).head? then dropBlanksBefore p rest
    else u :: dropBlanksBefore p rest

/-- `replace(/[ \t]{2,}/g, " ")`; `inRun` says that a blank of the run has been seen. -/
def collapseBlanks : Bool → Text → Text
  | _, [] => []
  | inRun, u :: rest =>
    if isBlank u then
      if inRun then collapseBlanks true rest
      else (if rest.head?.any isBlank then 0x20 else u) :: collapseBlanks true rest
    else u :: collapseBlanks false rest

/-- `replace(/^[ \t]+/gm, "")`. -/
def trimLineStarts : Bool → Text → Text
  | _, [] => []
  | atStart, u :: rest =>
    if atStart && isBlank u then trimLineStarts true rest
    else u :: trimLineStarts (isTerminator u) rest

def tidyDroppedTokens (text : Text) : Text :=
  trimLineStarts true (dropBlanksBefore (fun u => u.all isTerminator)
    (collapseBlanks false (dropBlanksBefore (fun u => u.any isPunctuation) text)))

/-! ### The two functions -/

def lower (token : Text) : Text := token.map fun u => if 0x41 ≤ u ∧ u ≤ 0x5A then u + 0x20 else u

/-- What a piece is replaced by. -/
def replacement (values : MergeFieldValues) : Piece → Text
  | .unit u => [u]
  | .token name => resolveToken (lower name) values

/-- The body after the replacements. -/
def substituted (values : MergeFieldValues) (text : Text) : Text :=
  (pieces text).flatMap (replacement values)

def applyMergeFields (text : Text) (values : MergeFieldValues) : Text :=
  if 0x7B ∉ text then text
  else if (pieces text).any fun p => (replacement values p).isEmpty then
    tidyDroppedTokens (substituted values text)
  else substituted values text

def hasMergeFields (text : Text) : Bool := decide (0x7B ∈ text) && (pieces text).any Piece.isToken

/-! ### What is asked of the two -/

def MergeFieldValues.fields (v : MergeFieldValues) : List (Option Text) :=
  [v.contactName, v.businessName, v.contactAddress, v.senderName, v.ourNumber, v.jobDay, v.jobTime]

def isBrace (u : UInt16) : Bool := u == 0x7B || u == 0x7D

def NoBraces (text : Text) : Prop := ∀ u ∈ text, isBrace u = false

def MergeFieldValues.NoBraces (v : MergeFieldValues) : Prop :=
  ∀ field ∈ v.fields, ∀ text ∈ field, MergeFields.NoBraces text

/-- No raw placeholder reaches a customer. -/
structure Clean (text : Text) (values : MergeFieldValues) : Prop where
  supported : ∀ name, lower name ∈ MERGE_FIELD_TOKENS →
    ¬braced name <:+: applyMergeFields text values
  again : applyMergeFields (applyMergeFields text values) values = applyMergeFields text values
  untouched : hasMergeFields text = false → applyMergeFields text values = text

/-- Two lone braces enclose what becomes a name. -/
def Encloses (text : Text) (values : MergeFieldValues) : Prop :=
  ∃ before between after,
    pieces text = before ++ .unit 0x7B :: between ++ .unit 0x7D :: after ∧
      isName (between.flatMap (replacement values)) = true

/-! ### Where there is a token -/

def closesName : Text → Bool
  | [] => false
  | u :: rest => if isNameUnit u then closesName rest else u == 0x7D

def closes : Text → Bool
  | [] => false
  | u :: rest => isNameStart u && closesName rest

def hasToken : Text → Bool
  | [] => false
  | u :: rest => (u == 0x7B && closes rest) || hasToken rest

theorem closesName_iff (text : Text) : closesName text = true ↔
    ∃ name after, name.all isNameUnit = true ∧ text = name ++ 0x7D :: after := by
  induction text with
  | nil =>
    refine ⟨fun h => (nomatch h), ?_⟩
    rintro ⟨name, after, -, h⟩
    cases name <;> cases h
  | cons u rest ih =>
    rw [closesName]
    constructor
    · intro h
      split at h
      · next hu =>
        obtain ⟨name, after, hname, rfl⟩ := ih.1 h
        exact ⟨u :: name, after, by rw [List.all_cons, hu, hname]; rfl, rfl⟩
      · exact ⟨[], rest, rfl, by rw [beq_iff_eq.1 h]; rfl⟩
    · rintro ⟨name, after, hname, heq⟩
      cases name with
      | nil =>
        obtain ⟨rfl, -⟩ := List.cons.inj heq
        rfl
      | cons v name =>
        obtain ⟨rfl, rfl⟩ := List.cons.inj heq
        rw [List.all_cons, Bool.and_eq_true] at hname
        rw [if_pos hname.1]
        exact ih.2 ⟨name, after, hname.2, rfl⟩

theorem closes_iff (text : Text) : closes text = true ↔
    ∃ name after, isName name = true ∧ text = name ++ 0x7D :: after := by
  cases text with
  | nil =>
    refine ⟨fun h => (nomatch h), ?_⟩
    rintro ⟨name, after, -, h⟩
    cases name <;> cases h
  | cons u rest =>
    rw [closes, Bool.and_eq_true, closesName_iff]
    constructor
    · rintro ⟨hu, name, after, hname, rfl⟩
      exact ⟨u :: name, after, by rw [isName, hu, hname]; rfl, rfl⟩
    · rintro ⟨name, after, hname, heq⟩
      cases name with
      | nil => cases hname
      | cons v name =>
        obtain ⟨rfl, rfl⟩ := List.cons.inj heq
        rw [isName, Bool.and_eq_true] at hname
        exact ⟨hname.1, name, after, hname.2, rfl⟩

theorem hasToken_iff (text : Text) :
    hasToken text = true ↔ ∃ name, isName name = true ∧ braced name <:+: text := by
  induction text with
  | nil =>
    refine ⟨fun h => (nomatch h), ?_⟩
    rintro ⟨name, -, h⟩
    cases List.infix_nil.1 h
  | cons u rest ih =>
    rw [hasToken, Bool.or_eq_true, Bool.and_eq_true, ih, closes_iff, beq_iff_eq]
    constructor
    · rintro (⟨rfl, name, after, hname, rfl⟩ | ⟨name, hname, h⟩)
      · exact ⟨name, hname, [], after, by simp [braced]⟩
      · exact ⟨name, hname, List.infix_cons_iff.2 (.inr h)⟩
    · rintro ⟨name, hname, h⟩
      rcases List.infix_cons_iff.1 h with ⟨after, heq⟩ | h
      · obtain ⟨rfl, rfl⟩ := List.cons.inj heq
        exact .inl ⟨rfl, name, after, hname, by simp⟩
      · exact .inr ⟨name, hname, h⟩

theorem closesName_eq (text : Text) :
    closesName text = decide ((text.dropWhile isNameUnit).head? = some 0x7D) := by
  induction text with
  | nil => rfl
  | cons u rest ih =>
    by_cases hu : isNameUnit u = true
    · rw [closesName, if_pos hu, List.dropWhile_cons_of_pos hu, ih]
    · rw [closesName, if_neg hu, List.dropWhile_cons_of_neg hu, Bool.eq_iff_iff]
      simp

theorem tokenAt_cons (u : UInt16) (rest : Text) :
    (tokenAt (u :: rest)).isSome = (u == 0x7B && closes rest) := by
  have hcloses : closes rest = (isName (rest.takeWhile isNameUnit) && closesName rest) := by
    cases rest with
    | nil => rfl
    | cons v rest =>
      by_cases hv : isNameUnit v = true
      · have hall : (rest.takeWhile isNameUnit).all isNameUnit = true := List.all_takeWhile
        rw [List.takeWhile_cons_of_pos hv, isName, hall, closes, closesName, if_pos hv,
          Bool.and_true]
      · have hstart : isNameStart v = false := by
          by_contra h
          simp [isNameUnit, Bool.not_eq_false _ ▸ h] at hv
        rw [List.takeWhile_cons_of_neg hv, isName, closes, hstart, Bool.false_and,
          Bool.false_and]
  rw [hcloses, closesName_eq, tokenAt, Bool.eq_iff_iff]
  simp only [Bool.and_eq_true, beq_iff_eq, decide_eq_true_eq]
  split
  · next h => simp [h]
  · next h => simpa using h

theorem any_isToken (text : Text) : (pieces text).any Piece.isToken = hasToken text := by
  unfold pieces
  induction text with
  | nil => rfl
  | cons u rest ih =>
    rw [hasToken, ← tokenAt_cons, scan]
    cases tokenAt (u :: rest) with
    | some name => rfl
    | none => exact ih

/-! ### Nothing is lost in the pieces -/

def Piece.source : Piece → Text
  | .unit u => [u]
  | .token name => braced name

theorem eq_of_tokenAt {text name : Text} (h : tokenAt text = some name) :
    ∃ after, text = braced name ++ after := by
  cases text with
  | nil => cases h
  | cons u rest =>
    simp only [tokenAt] at h
    split at h
    · next hmatch =>
      obtain ⟨rfl, -, hclose⟩ := hmatch
      obtain rfl := Option.some.inj h
      refine ⟨(rest.dropWhile isNameUnit).tail, ?_⟩
      have hcons := List.eq_cons_of_mem_head? hclose
      conv_lhs => rw [← List.takeWhile_append_dropWhile (p := isNameUnit) (l := rest), hcons]
      simp [braced]
    · cases h

theorem flatMap_source_scan (text : Text) : ∀ skip,
    (scan skip text).flatMap Piece.source = text.drop skip := by
  induction text with
  | nil => intro skip; cases skip <;> rfl
  | cons u rest ih =>
    intro skip
    cases skip with
    | succ skip => exact ih skip
    | zero =>
      rw [scan]
      cases htoken : tokenAt (u :: rest) with
      | none => exact congrArg (u :: ·) (ih 0)
      | some name =>
        obtain ⟨after, heq⟩ := eq_of_tokenAt htoken
        obtain ⟨rfl, rfl⟩ := List.cons.inj heq
        rw [List.flatMap_cons, ih]
        simp [Piece.source, braced]

variable {text : Text} {values : MergeFieldValues}

theorem substituted_of_no_token (values : MergeFieldValues)
    (h : hasToken text = false) : substituted values text = text := by
  have hunits : ∀ p ∈ pieces text, replacement values p = p.source := by
    intro p hp
    rw [← any_isToken, List.any_eq_false] at h
    cases p with
    | unit u => rfl
    | token name => exact absurd rfl (h _ hp)
  rw [substituted, List.flatMap_congr hunits]
  exact flatMap_source_scan text 0

/-! ### Tidying keeps the tokens -/

/-- No token has the unit in it. -/
structure Apart (u : UInt16) : Prop where
  unit : isNameUnit u = false
  opening : u ≠ 0x7B
  closing : u ≠ 0x7D

theorem apart_of_blank {u : UInt16} (h : isBlank u = true) : Apart u := by
  simp only [isBlank, Bool.or_eq_true, beq_iff_eq] at h
  rcases h with rfl | rfl <;> exact ⟨by decide, by decide, by decide⟩

theorem apart_of_punctuation {u : UInt16} (h : isPunctuation u = true) : Apart u := by
  have hall : ∀ u ∈ ofString ",.;:!?", isNameUnit u = false ∧ u ≠ 0x7B ∧ u ≠ 0x7D := by decide
  obtain ⟨hunit, hopening, hclosing⟩ := hall u (by simpa [isPunctuation] using h)
  exact ⟨hunit, hopening, hclosing⟩

theorem apart_of_terminator {u : UInt16} (h : isTerminator u = true) : Apart u := by
  have hall : ∀ u ∈ ([0x0A, 0x0D, 0x2028, 0x2029] : Text),
      isNameUnit u = false ∧ u ≠ 0x7B ∧ u ≠ 0x7D := by decide
  obtain ⟨hunit, hopening, hclosing⟩ := hall u (by simpa [isTerminator] using h)
  exact ⟨hunit, hopening, hclosing⟩

theorem isNameUnit_of_start {u : UInt16} (h : isNameStart u = true) : isNameUnit u = true := by
  rw [isNameUnit, h, Bool.true_or]

section

variable {u : UInt16} (h : Apart u) (rest : Text)

include h

theorem Apart.closesName : closesName (u :: rest) = false := by
  rw [MergeFields.closesName, if_neg (by rw [h.unit]; decide)]
  exact beq_false_of_ne h.closing

theorem Apart.closes : closes (u :: rest) = false := by
  have hstart : isNameStart u = false := by
    by_contra hno
    exact Bool.false_ne_true (h.unit.symm.trans
      (isNameUnit_of_start (by simpa using hno)))
  rw [MergeFields.closes, hstart, Bool.false_and]

theorem Apart.hasToken : hasToken (u :: rest) = hasToken rest := by
  rw [MergeFields.hasToken, beq_false_of_ne h.opening, Bool.false_and, Bool.false_or]

theorem Apart.count : (u :: rest).count 0x7B = rest.count 0x7B :=
  List.count_cons_of_ne h.opening

end

/-- Two texts have a token alike, and as many opening braces. -/
structure Alike (a b : Text) : Prop where
  token : hasToken a = hasToken b
  count : a.count 0x7B = b.count 0x7B

/-- They are so also as what follows an opening brace. -/
structure AlikeInside (a b : Text) : Prop extends Alike a b where
  name : closesName a = closesName b
  inside : closes a = closes b

theorem AlikeInside.refl (a : Text) : AlikeInside a a := ⟨⟨rfl, rfl⟩, rfl, rfl⟩

theorem AlikeInside.cons {a b : Text} (h : AlikeInside a b) (u : UInt16) :
    AlikeInside (u :: a) (u :: b) := by
  refine ⟨⟨?_, ?_⟩, ?_, ?_⟩
  · rw [hasToken, hasToken, h.token, h.inside]
  · rw [List.count_cons, List.count_cons, h.count]
  · rw [closesName, closesName, h.name]
  · rw [closes, closes, h.name]

theorem Alike.cons {a b : Text} (h : Alike a b) {u v : UInt16} (hu : Apart u) (hv : Apart v) :
    AlikeInside (u :: a) (v :: b) :=
  ⟨⟨by rw [hu.hasToken, hv.hasToken, h.token], by rw [hu.count, hv.count, h.count]⟩,
    by rw [hu.closesName, hv.closesName], by rw [hu.closes, hv.closes]⟩

theorem alikeInside_dropBlanksBefore {p : Option UInt16 → Bool}
    (hp : ∀ u, p (some u) = true → Apart u) (text : Text) :
    AlikeInside (dropBlanksBefore p text) text := by
  induction text with
  | nil => exact .refl []
  | cons u rest ih =>
    rw [dropBlanksBefore]
    split
    · next h =>
      rw [Bool.and_eq_true] at h
      have hu := apart_of_blank h.1
      refine ⟨⟨ih.token.trans (hu.hasToken rest).symm, ih.count.trans (hu.count rest).symm⟩,
        ?_, ?_⟩
      all_goals
        cases rest with
        | nil => simp [dropBlanksBefore, hu.closesName, hu.closes]; rfl
        | cons v rest =>
          -- what follows the blank is a blank, or stands for `p`
          have hv : Apart v := by
            by_cases hblank : isBlank v = true
            · exact apart_of_blank hblank
            · rw [List.dropWhile_cons_of_neg hblank] at h
              exact hp v h.2
          first
            | rw [ih.name, hv.closesName, hu.closesName]
            | rw [ih.inside, hv.closes, hu.closes]
    · exact ih.cons u

theorem alike_collapseBlanks (text : Text) :
    AlikeInside (collapseBlanks false text) text ∧ Alike (collapseBlanks true text) text := by
  induction text with
  | nil => exact ⟨.refl [], (AlikeInside.refl []).toAlike⟩
  | cons u rest ih =>
    rw [collapseBlanks, collapseBlanks]
    by_cases hu : isBlank u = true
    · have happart := apart_of_blank hu
      rw [if_pos hu, if_pos hu, if_neg (by decide), if_pos rfl]
      refine ⟨ih.2.cons ?_ happart, ih.2.token.trans (happart.hasToken rest).symm,
        ih.2.count.trans (happart.count rest).symm⟩
      split
      · exact ⟨by decide, by decide, by decide⟩
      · exact happart
    · rw [if_neg hu, if_neg hu]
      exact ⟨ih.1.cons u, (ih.1.cons u).toAlike⟩

theorem alike_trimLineStarts (text : Text) :
    AlikeInside (trimLineStarts false text) text ∧ Alike (trimLineStarts true text) text := by
  induction text with
  | nil => exact ⟨.refl [], (AlikeInside.refl []).toAlike⟩
  | cons u rest ih =>
    have hkept : AlikeInside (u :: trimLineStarts (isTerminator u) rest) (u :: rest) := by
      cases hterm : isTerminator u with
      | false => exact ih.1.cons u
      | true => exact ih.2.cons (apart_of_terminator hterm) (apart_of_terminator hterm)
    refine ⟨hkept, ?_⟩
    rw [trimLineStarts, Bool.true_and]
    split
    · next hu =>
      have happart := apart_of_blank hu
      exact ⟨ih.2.token.trans (happart.hasToken rest).symm,
        ih.2.count.trans (happart.count rest).symm⟩
    · exact hkept.toAlike

theorem Alike.trans {a b c : Text} (h : Alike a b) (h' : Alike b c) : Alike a c :=
  ⟨h.token.trans h'.token, h.count.trans h'.count⟩

/-- **Tidying makes no token and undoes none.** -/
theorem alike_tidyDroppedTokens (text : Text) : Alike (tidyDroppedTokens text) text := by
  have hpunct := alikeInside_dropBlanksBefore (p := fun u => u.any isPunctuation)
    (fun u h => apart_of_punctuation h) text
  have hend := fun text => alikeInside_dropBlanksBefore (p := fun u => u.all isTerminator)
    (fun u h => apart_of_terminator h) text
  exact (alike_trimLineStarts _).2.trans ((hend _).toAlike.trans
    ((alike_collapseBlanks _).1.toAlike.trans hpunct.toAlike))

/-! ### What is written has no braces -/

theorem NoBraces.trim (h : NoBraces text) : NoBraces (trim text) :=
  fun u hu => h u ((List.dropWhile_sublist _).subset ((List.rdropWhile_prefix _ _).subset hu))

theorem noBraces_joinLines (h : NoBraces text) : ∀ skip,
    NoBraces (joinLines skip text) := by
  induction text with
  | nil => intro skip; cases skip <;> exact h
  | cons u rest ih =>
    have hrest := ih fun v hv => h v (List.mem_cons_of_mem _ hv)
    intro skip
    cases skip with
    | succ skip => exact hrest skip
    | zero =>
      rw [joinLines]
      split
      · exact List.forall_mem_cons.2 ⟨by decide, List.forall_mem_cons.2
          ⟨by decide, hrest _⟩⟩
      · exact List.forall_mem_cons.2 ⟨h u (List.mem_cons_self ..), hrest 0⟩

theorem noBraces_resolveToken (h : values.NoBraces) (token : Text) :
    NoBraces (resolveToken token values) := by
  have hfield : ∀ field ∈ values.fields, NoBraces (field.getD []) := by
    intro field hmem
    cases field with
    | none => exact fun u hu => (List.not_mem_nil hu).elim
    | some text => exact h _ hmem text rfl
  have hfirst : ∀ field ∈ values.fields, NoBraces (firstName field) := fun field hmem u hu =>
    (hfield field hmem).trim u ((List.takeWhile_sublist _).subset hu)
  simp only [MergeFieldValues.fields, List.forall_mem_cons] at hfield hfirst
  unfold resolveToken
  split_ifs
  · exact hfirst.1
  · exact hfield.2.1.trim
  · exact (show NoBraces _ from noBraces_joinLines hfield.2.2.1 0).trim
  · exact hfirst.2.2.2.1
  · exact hfield.2.2.2.2.1.trim
  · exact hfield.2.2.2.2.2.1.trim
  · exact hfield.2.2.2.2.2.2.1.trim
  · exact fun u hu => (List.not_mem_nil hu).elim

theorem count_of_noBraces (h : NoBraces text) : text.count 0x7B = 0 :=
  List.count_eq_zero.2 fun hmem => absurd (h _ hmem) (by decide)

theorem count_replacements (h : values.NoBraces) (ps : List Piece) :
    (ps.flatMap (replacement values)).count 0x7B + ps.countP Piece.isToken ≤
      (ps.flatMap Piece.source).count 0x7B := by
  induction ps with
  | nil => exact Nat.le_refl _
  | cons p ps ih =>
    rw [List.flatMap_cons, List.flatMap_cons, List.count_append, List.count_append,
      List.countP_cons]
    cases p with
    | unit u =>
      simp only [replacement, Piece.source, Piece.isToken, Bool.false_eq_true, if_false]
      omega
    | token name =>
      have hnone := count_of_noBraces (noBraces_resolveToken h (lower name))
      have hone : 0 < (braced name).count 0x7B := List.count_pos_iff.2 (List.mem_cons_self ..)
      simp only [replacement, Piece.source, Piece.isToken, if_true]
      omega

/-! ### What is left of a message -/

theorem alike_applyMergeFields (text : Text) (values : MergeFieldValues) :
    Alike (applyMergeFields text values) (substituted values text) := by
  unfold applyMergeFields
  split
  · next hno =>
    have hnone : hasToken text = false := by
      by_contra h
      obtain ⟨name, -, hpart⟩ := (hasToken_iff text).1 (by simpa using h)
      exact hno (hpart.subset (List.mem_cons_self ..))
    rw [substituted_of_no_token values hnone]
    exact ⟨rfl, rfl⟩
  · split
    · exact alike_tidyDroppedTokens _
    · exact ⟨rfl, rfl⟩

theorem applyMergeFields_of_no_token (values : MergeFieldValues)
    (h : hasToken text = false) : applyMergeFields text values = text := by
  have hkept : (pieces text).any (fun p => (replacement values p).isEmpty) = false := by
    rw [← any_isToken, List.any_eq_false] at h
    rw [List.any_eq_false]
    intro p hp
    cases p with
    | unit u => exact Bool.false_ne_true
    | token name => exact absurd rfl (h _ hp)
  rw [applyMergeFields, hkept, if_neg Bool.false_ne_true, substituted_of_no_token values h,
    ite_self]

theorem applyMergeFields_ne (hvalues : values.NoBraces)
    (h : hasToken text = true) : applyMergeFields text values ≠ text := by
  intro heq
  have hcount := (alike_applyMergeFields text values).count
  have hle := count_replacements hvalues (pieces text)
  have hpos : 0 < (pieces text).countP Piece.isToken := by
    rw [← any_isToken, List.any_eq_true] at h
    obtain ⟨p, hp, htoken⟩ := h
    exact List.countP_pos_iff.2 ⟨p, hp, htoken⟩
  have hsource : (pieces text).flatMap Piece.source = text := flatMap_source_scan text 0
  rw [hsource] at hle
  rw [heq] at hcount
  unfold substituted at hcount
  omega

theorem hasMergeFields_eq (text : Text) : hasMergeFields text = hasToken text := by
  rw [hasMergeFields, any_isToken]
  cases h : hasToken text with
  | false => exact Bool.and_false _
  | true =>
    obtain ⟨name, -, hpart⟩ := (hasToken_iff text).1 h
    rw [Bool.and_true, decide_eq_true_eq]
    exact hpart.subset (List.mem_cons_self ..)

theorem isName_of_lower {name : Text} (h : lower name ∈ MERGE_FIELD_TOKENS) :
    isName name = true := by
  have hall : ∀ token ∈ MERGE_FIELD_TOKENS, isName token = true := by decide
  have hlower := hall _ h
  have hstart : ∀ u : UInt16, isNameStart (if 0x41 ≤ u ∧ u ≤ 0x5A then u + 0x20 else u) = true →
      isNameStart u = true := by
    intro u hu
    split at hu
    · next hupper => simp [isNameStart, hupper]
    · exact hu
  have hunit : ∀ u : UInt16, isNameUnit (if 0x41 ≤ u ∧ u ≤ 0x5A then u + 0x20 else u) = true →
      isNameUnit u = true := by
    intro u hu
    split at hu
    · next hupper => simp [isNameUnit, isNameStart, hupper]
    · exact hu
  cases name with
  | nil => exact hlower
  | cons u name =>
    rw [lower, List.map_cons, isName, Bool.and_eq_true, List.all_map] at hlower
    rw [isName, Bool.and_eq_true]
    refine ⟨hstart u hlower.1, List.all_eq_true.2 fun v hv => hunit v ?_⟩
    exact List.all_eq_true.1 hlower.2 v hv

theorem clean_iff (hvalues : values.NoBraces) :
    Clean text values ↔ hasToken (substituted values text) = false := by
  have hsame := (alike_applyMergeFields text values).token
  constructor
  · intro h
    by_contra hleft
    rw [Bool.not_eq_false, ← hsame] at hleft
    exact applyMergeFields_ne hvalues hleft h.again
  · intro h
    rw [← hsame] at h
    refine ⟨fun name hname hpart => ?_, applyMergeFields_of_no_token values h, fun hnone => ?_⟩
    · have hleft := (hasToken_iff _).2 ⟨name, isName_of_lower hname, hpart⟩
      rw [h] at hleft
      cases hleft
    · rw [hasMergeFields_eq] at hnone
      exact applyMergeFields_of_no_token values hnone

theorem split_at_brace (h : values.NoBraces) {b : UInt16} (hb : isBrace b = true)
    {ps : List Piece} : ∀ {front back : Text},
      ps.flatMap (replacement values) = front ++ b :: back → ∃ before after,
        ps = before ++ .unit b :: after ∧ before.flatMap (replacement values) = front ∧
          after.flatMap (replacement values) = back := by
  induction ps with
  | nil => intro front back heq; cases front <;> cases heq
  | cons p ps ih =>
    intro front back heq
    rw [List.flatMap_cons] at heq
    rcases List.append_eq_append_iff.1 heq with ⟨mid, rfl, hrest⟩ | ⟨mid, hp, hrest⟩
    · obtain ⟨before, after, rfl, rfl, rfl⟩ := ih hrest
      exact ⟨p :: before, after, rfl, by rw [List.flatMap_cons], rfl⟩
    · cases mid with
      | nil =>
        rw [List.append_nil] at hp
        obtain ⟨before, after, rfl, hbefore, rfl⟩ := @ih [] back hrest.symm
        refine ⟨p :: before, after, rfl, ?_, rfl⟩
        rw [List.flatMap_cons, hbefore, List.append_nil, hp]
      | cons v mid =>
        obtain ⟨rfl, rfl⟩ := List.cons.inj hrest
        cases p with
        | unit u =>
          cases front with
          | nil =>
            obtain ⟨rfl, hmid⟩ := List.cons.inj hp
            exact ⟨[], ps, rfl, rfl, by rw [← hmid]; rfl⟩
          | cons w front =>
            obtain ⟨-, hmid⟩ := List.cons.inj hp
            cases front <;> cases hmid
        | token name =>
          have hmem : b ∈ resolveToken (lower name) values := by
            have hmem : b ∈ replacement values (.token name) := by rw [hp]; simp
            exact hmem
          rw [noBraces_resolveToken h _ b hmem] at hb
          cases hb

theorem encloses_iff (hvalues : values.NoBraces) :
    Encloses text values ↔ hasToken (substituted values text) = true := by
  rw [hasToken_iff, substituted]
  constructor
  · rintro ⟨before, between, after, heq, hname⟩
    refine ⟨_, hname, before.flatMap (replacement values), after.flatMap (replacement values), ?_⟩
    rw [heq]
    simp [braced, replacement]
  · rintro ⟨name, hname, front, back, heq⟩
    have hopen : (pieces text).flatMap (replacement values) =
        front ++ 0x7B :: (name ++ 0x7D :: back) := by
      rw [← heq]
      simp [braced]
    obtain ⟨before, rest, hpieces, -, hrest⟩ := split_at_brace hvalues (by decide) hopen
    obtain ⟨between, after, rfl, rfl, -⟩ := split_at_brace hvalues (by decide) hrest
    exact ⟨before, between, after, by rw [hpieces]; simp, hname⟩

/-- **No token is left of a message, and a second pass changes nothing**, exactly where no two lone
braces enclose what becomes a name. -/
theorem applyMergeFields_clean_iff (text : Text) {values : MergeFieldValues}
    (hvalues : values.NoBraces) : Clean text values ↔ ¬Encloses text values := by
  rw [clean_iff hvalues, encloses_iff hvalues, Bool.not_eq_true]

def nameOnly (name : String) : MergeFieldValues where
  contactName := some (ofString name)
  businessName := none
  contactAddress := none
  senderName := none
  ourNumber := none
  jobDay := none
  jobTime := none

/-- `Hi {first_name}, from {business_name}` for a company without a name. -/
theorem applyMergeFields_clean_greeting :
    applyMergeFields (ofString "Hi \x7bfirst_name\x7d, from \x7bbusiness_name\x7d")
        (nameOnly "Dana Lee") = ofString "Hi Dana, from" ∧
      Clean (ofString "Hi \x7bfirst_name\x7d, from \x7bbusiness_name\x7d")
        (nameOnly "Dana Lee") := by
  refine ⟨by decide +kernel, (applyMergeFields_clean_iff _ (by
    unfold MergeFieldValues.NoBraces NoBraces; decide +kernel)).2 ?_⟩
  rintro ⟨before, between, after, heq, -⟩
  have hmem : Piece.unit 0x7B ∈
      pieces (ofString "Hi \x7bfirst_name\x7d, from \x7bbusiness_name\x7d") := by
    rw [heq]
    simp
  exact absurd hmem (by decide +kernel)

/-- In `{first{x}_name}` the token inside goes, and what is left is a token. -/
theorem placeholder_left :
    ¬∀ (text : Text) (values : MergeFieldValues), values.NoBraces → Clean text values := by
  intro h
  have hclean := h (ofString "Hi \x7bfirst\x7bx\x7d_name\x7d") (nameOnly "Dana Lee") (by
    unfold MergeFieldValues.NoBraces NoBraces; decide +kernel)
  refine hclean.supported (ofString "first_name") (by decide +kernel) ?_
  have hout : applyMergeFields (ofString "Hi \x7bfirst\x7bx\x7d_name\x7d")
      (nameOnly "Dana Lee") = ofString "Hi \x7bfirst_name\x7d" := by decide +kernel
  rw [hout]
  exact ⟨ofString "Hi ", [], by decide +kernel⟩

end MergeFields
