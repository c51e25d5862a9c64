/-
**Declarations on the wire.**

Who imports contacts declares what every column of a table, or every property of a card, is.  The
web client writes a declaration as one string and the API reads it back: `<index>:<action>:<header>`
for a column, cut at its first two colons, and `<PROPERTY>:<action>` for a property, cut at its
last.  A header may hold anything and comes back as it was.  The index comes back through the
language's numbers: two columns further out than a double can tell apart are one column.

Main result:

* `Declarations.declarations_codec` — **both round trips, and what one declaration says of the
  strings it is read from.**
-/

import Texturion.VCard
import Mathlib.Data.Nat.Digits.Defs
import Mathlib.Data.Nat.Log

namespace Declarations

open JsText VCards

/-! ### Numbers -/

/-- The least number from which on not every whole number is a double. -/
def LIMIT : ℕ := 2 ^ 53

def isDigit (u : UInt16) : Bool := 0x30 ≤ u && u ≤ 0x39

/-- The whole number a string of digits stands for. -/
def numeral (text : Text) : ℕ := text.foldl (fun n u => 10 * n + (u.toNat - 0x30)) 0

def digitUnit (d : ℕ) : UInt16 := (0x30 + d).toUInt16

/-- The digits of a whole number, as the language writes one below the limit. -/
def decimal (n : ℕ) : Text := if n = 0 then [0x30] else (Nat.digits 10 n).reverse.map digitUnit

/-- The double nearest to a whole number, ties to the even one, or infinity. -/
def double (n : ℕ) : WithTop ℕ :=
  if n < LIMIT then n
  else
    let unit := 2 ^ (Nat.log 2 n - 52)
    let below := n / unit
    let up := unit < 2 * (n % unit) ∨ unit = 2 * (n % unit) ∧ below % 2 = 1
    let value := (if up then below + 1 else below) * unit
    if value < 2 ^ 1024 then value else ⊤

/-! ### Declarations -/

inductive ContactImportColumnAction
  | ignore
  | phone
  | name
  | firstName
  | lastName
  | address
  | notes
  | optedOut
  deriving DecidableEq

namespace ContactImportColumnAction

def text : ContactImportColumnAction → Text
  | ignore => ofString "ignore"
  | phone => ofString "phone"
  | name => ofString "name"
  | firstName => ofString "first_name"
  | lastName => ofString "last_name"
  | address => ofString "address"
  | notes => ofString "notes"
  | optedOut => ofString "opted_out"

/-- `COLUMN_ACTIONS`. -/
def all : List ContactImportColumnAction :=
  [ignore, phone, name, firstName, lastName, address, notes, optedOut]

def read (text : Text) : Option ContactImportColumnAction := all.find? fun a => a.text == text

end ContactImportColumnAction

/-- One column's answer: the 0-based position, what the column is, and what the file called it. -/
structure ContactImportColumnDeclaration where
  index : WithTop ℕ
  action : ContactImportColumnAction
  header : Text
  deriving DecidableEq

def cutFirst (text : Text) : Option (Text × Text) :=
  match text.dropWhile fun u => u != COLON with
  | [] => none
  | _ :: behind => some (text.takeWhile fun u => u != COLON, behind)

def cutLast (text : Text) : Option (Text × Text) :=
  (cutFirst text.reverse).map fun parts => (parts.2.reverse, parts.1.reverse)

/-- `<index>:<action>:<header>`, for the column at an index. -/
def formatContactImportColumn (index : ℕ) (action : ContactImportColumnAction) (header : Text) :
    Text :=
  decimal index ++ COLON :: (action.text ++ COLON :: header)

/-- Read one declaration off the wire, or nothing when it is not one. -/
def parseContactImportColumn (raw : Text) : Option ContactImportColumnDeclaration :=
  match cutFirst raw with
  | none => none
  | some (rawIndex, rest) =>
    match cutFirst rest with
    | none => none
    | some (action, header) =>
      if rawIndex = [] ∨ ¬ rawIndex.all isDigit then none
      else
        (ContactImportColumnAction.read action).map fun action =>
          { index := double (numeral rawIndex), action := action, header := header }

inductive VCardPropertyAction
  | ignore
  | optedOut
  deriving DecidableEq

def VCardPropertyAction.text : VCardPropertyAction → Text
  | ignore => ofString "ignore"
  | optedOut => ofString "opted_out"

/-- The action of a text, if it is one of `VCARD_ACTIONS`. -/
def VCardPropertyAction.read (text : Text) : Option VCardPropertyAction :=
  [VCardPropertyAction.ignore, .optedOut].find? fun a => a.text == text

/-- One property's answer: its name, and what it means. -/
structure VCardPropertyDeclaration where
  property : Text
  action : VCardPropertyAction
  deriving DecidableEq

/-- `<PROPERTY>:<action>`. -/
def formatVCardProperty (declaration : VCardPropertyDeclaration) : Text :=
  declaration.property ++ COLON :: declaration.action.text

/-- Read one property declaration off the wire.  `toUpperCase` is the one of the language. -/
def parseVCardProperty (toUpperCase : Text → Text) (raw : Text) :
    Option VCardPropertyDeclaration :=
  match cutLast raw with
  | none => none
  | some (rawProperty, action) =>
    match VCardPropertyAction.read action with
    | none => none
    | some action =>
      let property := toUpperCase (trim rawProperty)
      if property = [] then none else some { property := property, action := action }

/-! ### Cutting at a colon -/

variable {front behind text : Text}

theorem cutFirst_append (h : COLON ∉ front) (behind : Text) :
    cutFirst (front ++ COLON :: behind) = some (front, behind) := by
  have hall : ∀ u ∈ front, (u != COLON) = true := by
    intro u hu
    rw [bne_iff_ne]
    rintro rfl
    exact h hu
  have hdrop : (front ++ COLON :: behind).dropWhile (fun u => u != COLON) = COLON :: behind := by
    rw [List.dropWhile_append_of_pos hall, List.dropWhile_cons_of_neg (by simp)]
  have htake : (front ++ COLON :: behind).takeWhile (fun u => u != COLON) = front := by
    rw [List.takeWhile_append_of_pos hall, List.takeWhile_cons_of_neg (by simp), List.append_nil]
  rw [cutFirst, hdrop, htake]

theorem cutLast_append (front : Text) (h : COLON ∉ behind) :
    cutLast (front ++ COLON :: behind) = some (front, behind) := by
  have hreverse : (front ++ COLON :: behind).reverse =
      behind.reverse ++ COLON :: front.reverse := by
    simp
  rw [cutLast, hreverse, cutFirst_append (by simpa using h)]
  simp

theorem eq_of_cutFirst (h : cutFirst text = some (front, behind)) :
    text = front ++ COLON :: behind := by
  unfold cutFirst at h
  cases hdrop : text.dropWhile fun u => u != COLON with
  | nil => rw [hdrop] at h; cases h
  | cons u rest =>
    have hu : u = COLON := by
      have hnot := List.head?_dropWhile_not (fun u => u != COLON) text
      rw [hdrop] at hnot
      simpa using hnot
    rw [hdrop] at h
    obtain ⟨rfl, rfl⟩ := Prod.mk.inj (Option.some.inj h)
    have hwhole := List.takeWhile_append_dropWhile (p := fun u => u != COLON) (l := text)
    rw [hdrop, hu] at hwhole
    exact hwhole.symm

theorem eq_of_cutLast (h : cutLast text = some (front, behind)) :
    text = front ++ COLON :: behind := by
  obtain ⟨⟨a, b⟩, hcut, hparts⟩ := Option.map_eq_some_iff.1 h
  obtain ⟨rfl, rfl⟩ := Prod.mk.inj hparts
  have hreverse := congrArg List.reverse (eq_of_cutFirst hcut)
  simpa using hreverse

/-! ### Numerals -/

theorem numeral_append (text : Text) (u : UInt16) :
    numeral (text ++ [u]) = 10 * numeral text + (u.toNat - 0x30) := by
  rw [numeral, List.foldl_append]
  rfl

theorem numeral_eq (text : Text) :
    numeral text = Nat.ofDigits 10 (text.reverse.map fun u => u.toNat - 0x30) := by
  induction text using List.reverseRecOn with
  | nil => rfl
  | append_singleton text u ih =>
    rw [numeral_append, ih, List.reverse_append, List.reverse_singleton, List.singleton_append,
      List.map_cons, Nat.ofDigits_cons]
    omega

theorem toNat_digitUnit {d : ℕ} (h : d < 10) : (digitUnit d).toNat - 0x30 = d := by
  rw [digitUnit, Nat.toUInt16_eq, UInt16.toNat_ofNat']
  omega

theorem isDigit_digitUnit {d : ℕ} (h : d < 10) : isDigit (digitUnit d) = true := by
  have hnat : (digitUnit d).toNat = 0x30 + d := by
    rw [digitUnit, Nat.toUInt16_eq, UInt16.toNat_ofNat']
    omega
  have hlow : (0x30 : UInt16).toNat = 0x30 := rfl
  have hhigh : (0x39 : UInt16).toNat = 0x39 := rfl
  simp only [isDigit, Bool.and_eq_true, decide_eq_true_eq, UInt16.le_iff_toNat_le]
  omega

theorem numeral_decimal (n : ℕ) : numeral (decimal n) = n := by
  unfold decimal
  split_ifs with hn
  · rw [hn]
    rfl
  · have hdigits : (((Nat.digits 10 n).reverse.map digitUnit).reverse.map
        fun u => u.toNat - 0x30) = Nat.digits 10 n := by
      rw [← List.map_reverse, List.reverse_reverse, List.map_map]
      refine (List.map_congr_left fun d hd => ?_).trans (List.map_id _)
      exact toNat_digitUnit (Nat.digits_lt_base (by decide) hd)
    rw [numeral_eq, hdigits, Nat.ofDigits_digits]

theorem decimal_digits (n : ℕ) : decimal n ≠ [] ∧ (decimal n).all isDigit = true := by
  unfold decimal
  split_ifs with hn
  · decide
  · refine ⟨by simpa using Nat.digits_ne_nil_iff_ne_zero.2 hn, ?_⟩
    rw [List.all_map, List.all_reverse, List.all_eq_true]
    exact fun d hd => isDigit_digitUnit (Nat.digits_lt_base (by decide) hd)

/-- Leading zeros off. -/
def stripZeros (text : Text) : Text := text.dropWhile fun u => u == 0x30

theorem numeral_stripZeros (text : Text) : numeral (stripZeros text) = numeral text := by
  induction text with
  | nil => rfl
  | cons u text ih =>
    by_cases hu : u = 0x30
    · rw [stripZeros, List.dropWhile_cons_of_pos (by simpa using hu)]
      refine ih.trans ?_
      rw [hu]
      rfl
    · rw [stripZeros, List.dropWhile_cons_of_neg (by simpa using hu)]

theorem digit_bounds {u : UInt16} (h : isDigit u = true) : 0x30 ≤ u.toNat ∧ u.toNat ≤ 0x39 := by
  have hlow : (0x30 : UInt16).toNat = 0x30 := rfl
  have hhigh : (0x39 : UInt16).toNat = 0x39 := rfl
  simp only [isDigit, Bool.and_eq_true, decide_eq_true_eq, UInt16.le_iff_toNat_le] at h
  omega

/-- A string of digits that does not begin with a zero is that of its number. -/
theorem digits_numeral (hdigits : text.all isDigit = true) (hhead : text.head? ≠ some 0x30) :
    Nat.digits 10 (numeral text) = text.reverse.map fun u => u.toNat - 0x30 := by
  rw [List.all_eq_true] at hdigits
  rw [numeral_eq]
  refine Nat.digits_ofDigits 10 (by decide) _ ?_ ?_
  · intro d hd
    obtain ⟨u, hu, rfl⟩ := List.mem_map.1 hd
    have := digit_bounds (hdigits u (List.mem_reverse.1 hu))
    omega
  · intro hne
    cases text with
    | nil => exact absurd rfl hne
    | cons u text =>
      have hu := digit_bounds (hdigits u (List.mem_cons_self ..))
      have hzero : u.toNat ≠ 0x30 := by
        intro heq
        refine hhead (congrArg some ?_)
        exact UInt16.toNat_inj.1 heq
      simp only [List.reverse_cons, List.map_append, List.map_cons, List.map_nil,
        List.getLast_append_singleton]
      omega

/-- **Two strings of digits for one number differ in leading zeros.** -/
theorem numeral_inj {a b : Text} (ha : a.all isDigit = true) (hb : b.all isDigit = true)
    (h : numeral a = numeral b) : stripZeros a = stripZeros b := by
  have hstrip : ∀ text : Text, text.all isDigit = true →
      (stripZeros text).all isDigit = true ∧ (stripZeros text).head? ≠ some 0x30 := by
    intro text htext
    rw [List.all_eq_true] at htext ⊢
    refine ⟨fun u hu => htext u ((List.dropWhile_sublist _).subset hu), fun hzero => ?_⟩
    have hnot := List.head?_dropWhile_not (fun u : UInt16 => u == 0x30) text
    rw [show text.dropWhile (fun u => u == 0x30) = stripZeros text from rfl, hzero] at hnot
    exact absurd hnot (by decide)
  obtain ⟨ha', hheada⟩ := hstrip a ha
  obtain ⟨hb', hheadb⟩ := hstrip b hb
  have hdigits := digits_numeral ha' hheada
  rw [numeral_stripZeros, h, ← numeral_stripZeros b, digits_numeral hb' hheadb] at hdigits
  -- a digit is the unit of its value
  have hback : ∀ text : Text, text.all isDigit = true →
      (text.reverse.map fun u => u.toNat - 0x30).map digitUnit = text.reverse := by
    intro text htext
    rw [List.all_eq_true] at htext
    rw [List.map_map]
    refine (List.map_congr_left fun u hu => ?_).trans (List.map_id _)
    have hbounds := digit_bounds (htext u (List.mem_reverse.1 hu))
    refine UInt16.toNat_inj.1 ?_
    rw [Function.comp_apply, digitUnit, Nat.toUInt16_eq, UInt16.toNat_ofNat', id_eq]
    omega
  have hunits := congrArg (List.map digitUnit) hdigits
  rw [hback _ ha', hback _ hb'] at hunits
  exact (List.reverse_inj.1 hunits).symm

/-! ### Doubles -/

theorem double_of_lt {n : ℕ} (h : n < LIMIT) : double n = n := by
  rw [double, if_pos h]

theorem le_double {n : ℕ} (h : LIMIT ≤ n) : (LIMIT : WithTop ℕ) ≤ double n := by
  rw [double, if_neg (by omega)]
  have hlog : 53 ≤ Nat.log 2 n := Nat.le_log_of_pow_le (by decide) h
  have hpow : 2 ^ 52 * 2 ^ (Nat.log 2 n - 52) ≤ n := by
    rw [← pow_add, Nat.add_sub_cancel' (by omega)]
    exact Nat.pow_log_le_self 2 (by unfold LIMIT at h; omega)
  have hbelow : 2 ^ 52 ≤ n / 2 ^ (Nat.log 2 n - 52) :=
    (Nat.le_div_iff_mul_le (by positivity)).2 hpow
  have hunit : 2 ≤ 2 ^ (Nat.log 2 n - 52) := by
    calc 2 = 2 ^ 1 := rfl
      _ ≤ 2 ^ (Nat.log 2 n - 52) := Nat.pow_le_pow_right (by decide) (by omega)
  simp only
  split_ifs with hup hfinite hfinite
  · refine WithTop.coe_le_coe.2 ?_
    calc LIMIT = 2 ^ 52 * 2 := rfl
      _ ≤ (n / 2 ^ (Nat.log 2 n - 52) + 1) * 2 ^ (Nat.log 2 n - 52) :=
        Nat.mul_le_mul (by omega) hunit
  · exact le_top
  · refine WithTop.coe_le_coe.2 ?_
    calc LIMIT = 2 ^ 52 * 2 := rfl
      _ ≤ n / 2 ^ (Nat.log 2 n - 52) * 2 ^ (Nat.log 2 n - 52) := Nat.mul_le_mul hbelow hunit
  · exact le_top

theorem eq_of_double {m n : ℕ} (h : double m = n) (hn : n < LIMIT) : m = n := by
  rcases Nat.lt_or_ge m LIMIT with hm | hm
  · rw [double_of_lt hm] at h
    exact WithTop.coe_inj.1 h
  · have hle := le_double hm
    rw [h] at hle
    exact absurd (Nat.cast_le.1 hle) (by omega)

/-! ### Round trips -/

theorem read_columnAction (a : ContactImportColumnAction) :
    ContactImportColumnAction.read a.text = some a := by
  cases a <;> decide

theorem colon_notMem_columnAction (a : ContactImportColumnAction) : COLON ∉ a.text := by
  cases a <;> decide

theorem read_propertyAction (a : VCardPropertyAction) :
    VCardPropertyAction.read a.text = some a := by
  cases a <;> decide

theorem colon_notMem_propertyAction (a : VCardPropertyAction) : COLON ∉ a.text := by
  cases a <;> decide

/-- A column's declaration is read back, whatever the file called the column. -/
theorem parse_formatColumn {index : ℕ} (hindex : index < LIMIT)
    (action : ContactImportColumnAction) (header : Text) :
    parseContactImportColumn (formatContactImportColumn index action header) =
      some { index := index, action := action, header := header } := by
  obtain ⟨hne, hdigits⟩ := decimal_digits index
  have hcolon : COLON ∉ decimal index := by
    intro hmem
    have hdigit := List.all_eq_true.1 hdigits COLON hmem
    exact absurd hdigit (by decide)
  rw [parseContactImportColumn, formatContactImportColumn, cutFirst_append hcolon]
  simp only
  rw [cutFirst_append (colon_notMem_columnAction action)]
  simp only [hne, hdigits, not_true_eq_false, or_self, if_false, read_columnAction,
    Option.map_some, numeral_decimal, double_of_lt hindex]

theorem parse_formatVCardProperty {toUpperCase : Text → Text} {property : Text}
    (action : VCardPropertyAction) (hne : property ≠ []) (htrim : trim property = property)
    (hupper : toUpperCase property = property) :
    parseVCardProperty toUpperCase
        (formatVCardProperty { property := property, action := action }) =
      some { property := property, action := action } := by
  rw [parseVCardProperty, formatVCardProperty,
    cutLast_append _ (colon_notMem_propertyAction action)]
  simp only [read_propertyAction, htrim, hupper, hne, if_false]

/-! ### One declaration, and the strings it is read from -/

theorem parseColumn_eq_some {raw : Text} {d : ContactImportColumnDeclaration}
    (h : parseContactImportColumn raw = some d) :
    ∃ digits : Text, digits ≠ [] ∧ digits.all isDigit = true ∧ double (numeral digits) = d.index ∧
      raw = digits ++ COLON :: (d.action.text ++ COLON :: d.header) := by
  unfold parseContactImportColumn at h
  cases hfirst : cutFirst raw with
  | none => rw [hfirst] at h; cases h
  | some parts =>
    obtain ⟨digits, rest⟩ := parts
    rw [hfirst] at h
    simp only at h
    cases hsecond : cutFirst rest with
    | none => rw [hsecond] at h; cases h
    | some parts =>
      obtain ⟨action, header⟩ := parts
      rw [hsecond] at h
      simp only at h
      split_ifs at h with hdigits
      obtain ⟨a, ha, rfl⟩ := Option.map_eq_some_iff.1 h
      rw [not_or, not_not] at hdigits
      have htext : a.text = action := by
        have hfound := List.find?_some ha
        simpa using hfound
      refine ⟨digits, hdigits.1, hdigits.2, rfl, ?_⟩
      rw [eq_of_cutFirst hfirst, eq_of_cutFirst hsecond, htext]

theorem parseVCardProperty_eq_some {toUpperCase : Text → Text} {raw : Text}
    {d : VCardPropertyDeclaration} (h : parseVCardProperty toUpperCase raw = some d) :
    ∃ written : Text, toUpperCase (trim written) = d.property ∧
      raw = written ++ COLON :: d.action.text := by
  unfold parseVCardProperty at h
  cases hcut : cutLast raw with
  | none => rw [hcut] at h; cases h
  | some parts =>
    obtain ⟨written, action⟩ := parts
    rw [hcut] at h
    simp only at h
    cases hread : VCardPropertyAction.read action with
    | none => rw [hread] at h; cases h
    | some a =>
      rw [hread] at h
      simp only at h
      split_ifs at h
      obtain rfl := Option.some.inj h
      have htext : a.text = action := by
        have hfound := List.find?_some hread
        simpa using hfound
      exact ⟨written, rfl, by rw [eq_of_cutLast hcut, htext]⟩

theorem stripZeros_append {digits : Text} (h : digits.all isDigit = true) (rest : Text) :
    stripZeros (digits ++ COLON :: rest) = stripZeros digits ++ COLON :: rest := by
  induction digits with
  | nil => rfl
  | cons u digits ih =>
    rw [List.all_cons, Bool.and_eq_true] at h
    by_cases hu : u = 0x30
    · rw [List.cons_append, stripZeros, List.dropWhile_cons_of_pos (by simpa using hu),
        stripZeros, List.dropWhile_cons_of_pos (by simpa using hu)]
      exact ih h.2
    · rw [List.cons_append, stripZeros, List.dropWhile_cons_of_neg (by simpa using hu),
        stripZeros, List.dropWhile_cons_of_neg (by simpa using hu), List.cons_append]

/-- **Declarations on the wire.**  A column's declaration is read back, whatever its header; so is
a property's.  Strings that one column's declaration is read from differ in leading zeros of the
index, below the limit; those of one property's differ in the blanks around the name and in its
case. -/
theorem declarations_codec (toUpperCase : Text → Text) :
    (∀ (index : ℕ) (action : ContactImportColumnAction) (header : Text), index < LIMIT →
      parseContactImportColumn (formatContactImportColumn index action header) =
        some { index := index, action := action, header := header }) ∧
      (∀ (property : Text) (action : VCardPropertyAction), property ≠ [] →
        trim property = property → toUpperCase property = property →
          parseVCardProperty toUpperCase
              (formatVCardProperty { property := property, action := action }) =
            some { property := property, action := action }) ∧
      (∀ (raw raw' : Text) (d : ContactImportColumnDeclaration) (index : ℕ),
        parseContactImportColumn raw = some d → parseContactImportColumn raw' = some d →
          d.index = index → index < LIMIT → stripZeros raw = stripZeros raw') ∧
      ∀ (raw raw' : Text) (d : VCardPropertyDeclaration),
        parseVCardProperty toUpperCase raw = some d →
          parseVCardProperty toUpperCase raw' = some d →
            ∃ written written' : Text, raw = written ++ COLON :: d.action.text ∧
              raw' = written' ++ COLON :: d.action.text ∧
                toUpperCase (trim written) = toUpperCase (trim written') := by
  refine ⟨fun _ action header hindex => parse_formatColumn hindex action header,
    fun _ action hne htrim hupper => parse_formatVCardProperty action hne htrim hupper, ?_, ?_⟩
  · intro raw raw' d index hraw hraw' hindex hlimit
    obtain ⟨digits, -, hall, hdouble, rfl⟩ := parseColumn_eq_some hraw
    obtain ⟨digits', -, hall', hdouble', rfl⟩ := parseColumn_eq_some hraw'
    have hnumeral : numeral digits = numeral digits' :=
      (eq_of_double (hdouble.trans hindex) hlimit).trans
        (eq_of_double (hdouble'.trans hindex) hlimit).symm
    rw [stripZeros_append hall, stripZeros_append hall', numeral_inj hall hall' hnumeral]
  · intro raw raw' d hraw hraw'
    obtain ⟨written, hwritten, heq⟩ := parseVCardProperty_eq_some hraw
    obtain ⟨written', hwritten', heq'⟩ := parseVCardProperty_eq_some hraw'
    exact ⟨written, written', heq, heq', hwritten.trans hwritten'.symm⟩

/-- A header with colons and a line feed in it. -/
theorem declarations_codec_header :
    parseContactImportColumn
        (formatContactImportColumn 3 .notes (ofString "a:b:\nc")) =
      some { index := (3 : ℕ), action := .notes, header := ofString "a:b:\nc" } :=
  (declarations_codec id).1 3 .notes (ofString "a:b:\nc") (by decide)

/-- The index of a column is a number of the language: the limit and the number after it are
one. -/
theorem far_columns_collide :
    ¬ ∀ (raw raw' : Text) (d : ContactImportColumnDeclaration),
      parseContactImportColumn raw = some d → parseContactImportColumn raw' = some d →
        stripZeros raw = stripZeros raw' := by
  intro h
  refine absurd (h (ofString "9007199254740992:ignore:") (ofString "9007199254740993:ignore:")
    { index := (9007199254740992 : ℕ), action := .ignore, header := [] } ?_ ?_) (by decide +kernel)
  · decide +kernel
  · decide +kernel

end Declarations
