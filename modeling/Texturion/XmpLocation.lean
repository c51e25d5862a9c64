/-
**Blanking the location in XMP text.**

`blankXmpLocation` goes through the file once for each of five names and replaces the value behind
each by blanks.  What one name has blanked may contain the quote, or the whole name, that another
would have found; all the same a second pass changes nothing, because a region that is blanked ends
on either side at a character that no name has, so that it covers a name whole or not at all.

Main result:

* `ImageLocation.blank_of_later` — **what is blank stays so**.
-/

import Mathlib.Logic.Relation
import Texturion.ImageLocation

namespace ImageLocation

open InPlace

/-! ### The first place of a kind -/

theorem firstFrom_eq_some {test : ℕ → Bool} {start stop place : ℕ} :
    firstFrom test start stop = some place ↔
      start ≤ place ∧ place < stop ∧ test place = true ∧
        ∀ q, start ≤ q → q < place → test q = false := by
  rw [firstFrom, List.find?_range'_eq_some, List.mem_range'_1]
  simp only [Bool.not_eq_true']
  constructor
  · rintro ⟨htest, hmem, hfirst⟩
    exact ⟨by omega, by omega, htest, hfirst⟩
  · rintro ⟨hstart, hstop, htest, hfirst⟩
    exact ⟨htest, by omega, hfirst⟩

theorem firstFrom_eq_none {test : ℕ → Bool} {start stop : ℕ} :
    firstFrom test start stop = none ↔ ∀ q, start ≤ q → q < stop → test q = false := by
  rw [firstFrom, List.find?_range'_eq_none]
  simp only [Bool.not_eq_true']
  constructor
  · intro h q hq hq'
    exact h q hq (by omega)
  · intro h q hq hq'
    exact h q hq (by omega)

theorem exists_firstFrom (test : ℕ → Bool) {start stop q : ℕ} (hq : start ≤ q) (hq' : q < stop)
    (htest : test q = true) : ∃ place ≤ q, firstFrom test start stop = some place := by
  cases hfirst : firstFrom test start stop with
  | none =>
    rw [firstFrom_eq_none.1 hfirst q hq hq'] at htest
    cases htest
  | some place =>
    refine ⟨place, ?_, rfl⟩
    obtain ⟨-, -, -, hbefore⟩ := firstFrom_eq_some.1 hfirst
    by_contra hlt
    rw [hbefore q hq (by omega)] at htest
    cases htest

/-! ### Names and values -/

/-- A character of a name: not a blank, nothing that opens or closes a value. -/
def NameChar (x : UInt8) : Prop := x ≠ 0 ∧ x ≠ 0x20 ∧ isOpener x = false ∧ x ≠ 0x3C

instance (x : UInt8) : Decidable (NameChar x) := by
  unfold NameChar
  infer_instance

def IsName (name : Bytes) : Prop := name ≠ [] ∧ ∀ x ∈ name, NameChar x

theorem isName_attributes : ∀ name ∈ attributes, IsName name := by
  unfold IsName
  decide

variable {name b b' c z : Bytes} {place start o e : ℕ}

theorem standsAt_iff :
    standsAt b name place = true ↔ ∀ i < name.length, byte b (place + i) = byte name i := by
  simp [standsAt]

theorem IsName.pos (h : IsName name) : 0 < name.length := List.length_pos_iff.2 h.1

theorem IsName.nameChar (h : IsName name) (hat : standsAt b name place = true) {q : ℕ}
    (hq : place ≤ q) (hq' : q < place + name.length) : NameChar (byte b q) := by
  have heq := standsAt_iff.1 hat (q - place) (by omega)
  rw [show place + (q - place) = q by omega] at heq
  rw [heq, byte, List.getD_eq_getElem _ _ (by omega)]
  exact h.2 _ (List.getElem_mem _)

theorem IsName.inside (h : IsName name) (hat : standsAt b name place = true) :
    place + name.length ≤ b.length := by
  have hpos := h.pos
  by_contra hlt
  -- behind the end of the file there are zeros
  have hlast := h.nameChar hat (q := place + name.length - 1) (by omega) (by omega)
  exact hlast.1 (byte_of_length_le (by omega))

/-- The value behind a name: the first opener of the next eight bytes, and the first closer of the
256 behind that. -/
theorem valueAfter_eq_some :
    valueAfter b start = some (o, e) ↔
      ∃ q, o = q + 1 ∧ (start ≤ q ∧ q < min b.length (start + 8) ∧ isOpener (byte b q) = true ∧
        ∀ r, start ≤ r → r < q → isOpener (byte b r) = false) ∧
        q + 1 ≤ e ∧ e < min b.length (q + 1 + 256) ∧ byte b e = closerOf (byte b q) ∧
          ∀ r, q + 1 ≤ r → r < e → byte b r ≠ closerOf (byte b q) := by
  rw [valueAfter, openerAfter]
  cases hopen : firstFrom (fun place => isOpener (byte b place)) start
      (min b.length (start + 8)) with
  | none =>
    refine iff_of_false nofun ?_
    rintro ⟨q, -, ⟨hq, hq', htest, -⟩, -⟩
    rw [firstFrom_eq_none.1 hopen q hq hq'] at htest
    cases htest
  | some q =>
    have hfirst := firstFrom_eq_some.1 hopen
    simp only [Option.map_some, closerFrom, Option.map_eq_some_iff, Prod.mk.injEq,
      firstFrom_eq_some, beq_iff_eq, beq_eq_false_iff_ne]
    constructor
    · rintro ⟨stop, hstop, rfl, rfl⟩
      exact ⟨q, rfl, hfirst, hstop⟩
    · rintro ⟨q', rfl, hfirst', hstop⟩
      obtain rfl : q' = q := by
        rcases Nat.lt_trichotomy q' q with hlt | heq | hlt
        · have hno := hfirst.2.2.2 q' hfirst'.1 hlt
          rw [hfirst'.2.2.1] at hno
          cases hno
        · exact heq
        · have hno := hfirst'.2.2.2 q hfirst.1 hlt
          rw [hfirst.2.2.1] at hno
          cases hno
      exact ⟨e, hstop, rfl, rfl⟩

/-! ### One value blanked -/

def Blanks (b b' : Bytes) : Prop :=
  ∃ q e, isOpener (byte b q) = true ∧ q + 1 ≤ e ∧ e < b.length ∧
    byte b e = closerOf (byte b q) ∧ (∀ r, q + 1 ≤ r → r < e → byte b r ≠ closerOf (byte b q)) ∧
      b' = fill 0x20 (q + 1) e b

/-- Any number of values were blanked. -/
def Later : Bytes → Bytes → Prop := Relation.ReflTransGen Blanks

def Blank (b name : Bytes) (place : ℕ) : Prop :=
  ∀ o e, valueAfter b (place + name.length) = some (o, e) →
    ∀ r, o ≤ r → r < e → byte b r = 0x20

theorem blanks_of_valueAfter (h : valueAfter b start = some (o, e)) :
    Blanks b (fill 0x20 o e b) := by
  obtain ⟨q, rfl, hopen, hle, hlt, hcloser, hfirst⟩ := valueAfter_eq_some.1 h
  exact ⟨q, e, hopen.2.2.1, hle, by omega, hcloser, hfirst, rfl⟩

theorem not_nameChar_closerOf {x : UInt8} (h : isOpener x = true) :
    ¬ NameChar (closerOf x) ∧ closerOf x ≠ 0x20 := by
  simp only [isOpener, Bool.or_eq_true, beq_iff_eq] at h
  rcases h with (rfl | rfl) | rfl <;> decide

namespace Blanks

theorem byte_eq (h : Blanks b b') {r : ℕ} (hr : byte b' r ≠ 0x20) : byte b' r = byte b r := by
  obtain ⟨q, e, -, -, -, -, -, rfl⟩ := h
  exact (byte_fill_cases 0x20 (q + 1) e b r).resolve_right fun hin => hr hin.1

theorem standsAt (hname : IsName name) (h : Blanks b b') (hat : standsAt b' name place = true) :
    standsAt b name place = true := by
  refine standsAt_iff.2 fun i hi => ?_
  rw [← h.byte_eq (hname.nameChar hat (by omega) (by omega)).2.1]
  exact standsAt_iff.1 hat i hi

theorem apart (hname : IsName name) (h : Blanks b b') {x y : ℕ}
    (hx : ImageLocation.standsAt b name x = true) (hx' : ImageLocation.standsAt b' name x ≠ true)
    (hy : ImageLocation.standsAt b' name y = true) : x + name.length ≤ y ∨ y + name.length ≤ x := by
  have hpos := hname.pos
  obtain ⟨q, e, hopen, hle, hlt, hcloser, -, rfl⟩ := h
  obtain ⟨i, hi, hne⟩ : ∃ i < name.length, byte (fill 0x20 (q + 1) e b) (x + i) ≠ byte name i := by
    by_contra hall
    push Not at hall
    exact hx' (standsAt_iff.2 hall)
  have hin : q + 1 ≤ x + i ∧ x + i < e := by
    rcases byte_fill_cases 0x20 (q + 1) e b (x + i) with heq | ⟨-, hin⟩
    · rw [heq, standsAt_iff.1 hx i hi] at hne
      exact absurd rfl hne
    · exact hin
  -- the opener and the closer are no characters of a name
  have hleft : q < x := by
    by_contra hge
    have hchar := hname.nameChar hx (q := q) (by omega) (by omega)
    rw [NameChar, hopen] at hchar
    exact absurd hchar.2.2.1 (by decide)
  have hright : x + name.length ≤ e := by
    by_contra hge
    have hchar := hname.nameChar hx (q := e) (by omega) (by omega)
    rw [hcloser] at hchar
    exact (not_nameChar_closerOf hopen).1 hchar
  by_contra hover
  push Not at hover
  -- a byte of both names
  have hboth : ∃ r, x ≤ r ∧ r < x + name.length ∧ y ≤ r ∧ r < y + name.length := by
    rcases Nat.le_total x y with hxy | hxy
    · exact ⟨y, hxy, hover.1, by omega, by omega⟩
    · exact ⟨x, by omega, by omega, hxy, hover.2⟩
  obtain ⟨r, hr, hr', hry, hry'⟩ := hboth
  exact (hname.nameChar hy hry hry').2.1 (byte_fill_in (by omega) (by omega) (by omega))

/-- **What is blank stays so.** -/
theorem blank (hname : IsName name) (h : Blanks b b')
    (hat : ImageLocation.standsAt b' name place = true) (hblank : Blank b name place) :
    Blank b' name place := by
  have hpos := hname.pos
  have hat' := h.standsAt hname hat
  have hkept := fun r => h.byte_eq (r := r)
  obtain ⟨q, e, hopen, hle, hlt, hcloser, hfirst, rfl⟩ := h
  intro o' e' hvalue
  obtain ⟨q', rfl, ⟨hq', hlast', hopen', hfirst'⟩, hle', hlt', hcloser', hnone'⟩ :=
    valueAfter_eq_some.1 hvalue
  rw [length_fill] at hlast' hlt'
  have hsame : ∀ r, r ≤ q → byte (fill 0x20 (q + 1) e b) r = byte b r :=
    fun r hr => byte_fill_of_lt (by omega)
  have hbehind : ∀ r, e ≤ r → byte (fill 0x20 (q + 1) e b) r = byte b r :=
    fun r hr => byte_fill_of_le hr
  by_cases hout : e ≤ place + name.length ∨ e = q + 1
  · -- behind the name nothing was written
    have hall : ∀ r, place + name.length ≤ r → byte (fill 0x20 (q + 1) e b) r = byte b r := by
      intro r hr
      rw [byte_fill, if_neg (by omega)]
    have hvalue' : valueAfter b (place + name.length) = some (q' + 1, e') := by
      rw [hall q' hq'] at hopen' hcloser' hnone'
      rw [hall e' (by omega)] at hcloser'
      refine valueAfter_eq_some.2 ⟨q', rfl, ⟨hq', hlast', hopen', fun r hr hr' => ?_⟩, hle', hlt',
        hcloser', fun r hr hr' => ?_⟩
      · rw [← hall r hr]
        exact hfirst' r hr hr'
      · rw [← hall r (by omega)]
        exact hnone' r hr hr'
    intro r hr hr'
    rw [hall r (by omega)]
    exact hblank _ _ hvalue' r hr hr'
  · push Not at hout
    have hq : place + name.length ≤ q := by
      by_contra hlt'
      by_cases hlast : q + 1 < place + name.length
      · have hchar := hname.nameChar hat (q := place + name.length - 1) (by omega) (by omega)
        exact hchar.2.1 (byte_fill_in (by omega) (by omega) (by omega))
      · have hchar := hname.nameChar hat' (q := q) (by omega) (by omega)
        rw [NameChar, hopen] at hchar
        exact absurd hchar.2.2.1 (by decide)
    -- the opener of the region is an opener behind the name too
    have hqq : q' ≤ q := by
      by_contra hlt'
      have hno := hfirst' q hq (by omega)
      rw [hsame q (Nat.le_refl q), hopen] at hno
      cases hno
    rw [hsame q' hqq] at hopen' hcloser' hnone'
    rcases Nat.lt_or_eq_of_le hqq with hless | rfl
    · -- an earlier one: its value was blank, so that it ended before
      have hin : byte b e' = closerOf (byte b q') := by
        rw [← hkept e' (by rw [hcloser']; exact (not_nameChar_closerOf hopen').2), hcloser']
      obtain ⟨e₀, he₀, hstop⟩ := exists_firstFrom
        (fun r => byte b r == closerOf (byte b q')) hle' hlt' (by simpa using hin)
      obtain ⟨hlow, hhigh, hclose, hnone⟩ := firstFrom_eq_some.1 hstop
      have hvalue' : valueAfter b (place + name.length) = some (q' + 1, e₀) := by
        refine valueAfter_eq_some.2 ⟨q', rfl, ⟨hq', hlast', hopen', fun r hr hr' => ?_⟩, hlow,
          hhigh, by simpa using hclose, fun r hr hr' => by simpa using hnone r hr hr'⟩
        rw [← hsame r (by omega)]
        exact hfirst' r hr hr'
      have hspaces := hblank _ _ hvalue'
      have hle₀ : e₀ ≤ q := by
        by_contra hlt'
        rw [hspaces q (by omega) (by omega)] at hopen
        exact absurd hopen (by decide)
      obtain rfl : e' = e₀ := by
        by_contra hne
        refine hnone' e₀ hlow (by omega) ?_
        rw [hsame e₀ hle₀]
        simpa using hclose
      intro r hr hr'
      rw [hsame r (by omega)]
      exact hspaces r hr hr'
    · -- the same one: what it opens is what was blanked
      obtain rfl : e' = e := by
        rcases Nat.lt_trichotomy e' e with hl | heq | hl
        · rw [byte_fill_in hle' hl (by omega)] at hcloser'
          exact absurd hcloser'.symm (not_nameChar_closerOf hopen).2
        · exact heq
        · refine absurd ?_ (hnone' e hle hl)
          rw [hbehind e (Nat.le_refl e), hcloser]
      exact fun r hr hr' => byte_fill_in hr hr' (by omega)

end Blanks

/-! ### Many values blanked -/

namespace Later

theorem standsAt (hname : IsName name) (h : Later b z)
    (hat : ImageLocation.standsAt z name place = true) :
    ImageLocation.standsAt b name place = true := by
  induction h with
  | refl => exact hat
  | tail _ hstep ih => exact ih (hstep.standsAt hname hat)

theorem apart (hname : IsName name) (h : Later b z) {x y : ℕ}
    (hx : ImageLocation.standsAt b name x = true) (hx' : ImageLocation.standsAt z name x ≠ true)
    (hy : ImageLocation.standsAt z name y = true) : x + name.length ≤ y ∨ y + name.length ≤ x := by
  induction h with
  | refl => exact absurd hx hx'
  | @tail b' z _ hstep ih =>
    by_cases hmid : ImageLocation.standsAt b' name x = true
    · exact hstep.apart hname hmid hx' hy
    · exact ih hmid (hstep.standsAt hname hy)

theorem length_eq (h : Later b z) : z.length = b.length := by
  induction h with
  | refl => rfl
  | tail _ hstep ih =>
    obtain ⟨q, e, -, -, -, -, -, rfl⟩ := hstep
    rw [length_fill, ih]

end Later

/-- **What is blank stays so**, whatever else is blanked. -/
theorem blank_of_later (hname : IsName name) (h : Later b z)
    (hat : standsAt z name place = true) (hblank : Blank b name place) : Blank z name place := by
  induction h with
  | refl => exact hblank
  | tail _ hstep ih => exact hstep.blank hname hat (ih (hstep.standsAt hname hat))

/-! ### The scan for one name -/

theorem indexOfAscii_eq_some (hname : IsName name) :
    indexOfAscii b name start = some place ↔
      start ≤ place ∧ standsAt b name place = true ∧
        ∀ q, start ≤ q → q < place → standsAt b name q ≠ true := by
  rw [indexOfAscii, firstFrom_eq_some]
  simp only [Bool.not_eq_true]
  constructor
  · rintro ⟨hstart, -, hat, hfirst⟩
    exact ⟨hstart, hat, hfirst⟩
  · rintro ⟨hstart, hat, hfirst⟩
    have hin := hname.inside hat
    have hpos := hname.pos
    exact ⟨hstart, by omega, hat, hfirst⟩

theorem exists_indexOfAscii (hname : IsName name) (hstart : start ≤ place)
    (hat : standsAt b name place = true) :
    ∃ first ≤ place, indexOfAscii b name start = some first := by
  have hin := hname.inside hat
  have hpos := hname.pos
  exact exists_firstFrom _ hstart (by omega) hat

/-- The places at which the scan for a name stops. -/
inductive Met (b name : Bytes) : ℕ → ℕ → Prop
  | here {start place : ℕ} (h : indexOfAscii b name start = some place) : Met b name start place
  | later {start first place : ℕ} (h : indexOfAscii b name start = some first)
      (hrest : Met b name (first + name.length) place) : Met b name start place

theorem Met.standsAt (hname : IsName name) (h : Met b name start place) :
    standsAt b name place = true := by
  induction h with
  | here h => exact ((indexOfAscii_eq_some hname).1 h).2.1
  | later _ _ ih => exact ih

theorem Met.start_le (hname : IsName name) (h : Met b name start place) : start ≤ place := by
  induction h with
  | here h => exact ((indexOfAscii_eq_some hname).1 h).1
  | later h _ ih =>
    have hfirst := ((indexOfAscii_eq_some hname).1 h).1
    omega

/-- Without its first stop the scan comes by the same places, unless that was one of them. -/
theorem Met.skip (hname : IsName name) {first : ℕ} (hb : indexOfAscii b name start = some first)
    (h : Later b z) (hmet : Met z name start place) :
    place = first ∨ Met z name (first + name.length) place := by
  obtain ⟨hle, hat, hfirst⟩ := (indexOfAscii_eq_some hname).1 hb
  -- where the scan of the later file stops first, and what follows from there
  obtain ⟨m, hm, hrest⟩ : ∃ m, indexOfAscii z name start = some m ∧
      (place = m ∨ Met z name (m + name.length) place) := by
    cases hmet with
    | here h => exact ⟨_, h, .inl rfl⟩
    | later h hrest => exact ⟨_, h, .inr hrest⟩
  obtain ⟨hlem, hatm, hfirstm⟩ := (indexOfAscii_eq_some hname).1 hm
  by_cases hsame : m = first
  · rw [hsame] at hrest
    exact hrest
  · have hlt : first < m := by
      by_contra hge
      exact hfirst m hlem (by omega) (h.standsAt hname hatm)
    have hgone : ImageLocation.standsAt z name first ≠ true := hfirstm first hle hlt
    have hapart := h.apart hname hat hgone hatm
    have hm' : indexOfAscii z name (first + name.length) = some m :=
      (indexOfAscii_eq_some hname).2 ⟨by omega, hatm, fun q hq hq' => hfirstm q (by omega) hq'⟩
    rcases hrest with rfl | hrest
    · exact .inr (.here hm')
    · exact .inr (.later hm' hrest)

theorem later_blankAttribute (name : Bytes) (n start : ℕ) (state : Bytes × Bool) :
    Later state.1 (blankAttribute name n start state).1 := by
  induction n generalizing start state with
  | zero => exact .refl
  | succ n ih =>
    rw [blankAttribute]
    cases indexOfAscii state.1 name start with
    | none => exact .refl
    | some place =>
      simp only
      cases hvalue : valueAfter state.1 (place + name.length) with
      | none => exact ih _ _
      | some found =>
        exact (Relation.ReflTransGen.single (blanks_of_valueAfter hvalue)).trans
          (ih _ (fill 0x20 found.1 found.2 state.1, true))

theorem blank_fill (hat : standsAt b name place = true)
    (hvalue : valueAfter b (place + name.length) = some (o, e)) :
    standsAt (fill 0x20 o e b) name place = true ∧ Blank (fill 0x20 o e b) name place := by
  obtain ⟨q, rfl, ⟨hq, hlast, hopen, hfirst⟩, hle, hlt, hcloser, hnone⟩ :=
    valueAfter_eq_some.1 hvalue
  have hsame : ∀ r, r ≤ q → byte (fill 0x20 (q + 1) e b) r = byte b r :=
    fun r hr => byte_fill_of_lt (by omega)
  refine ⟨standsAt_iff.2 fun i hi => ?_, fun o' e' hvalue' r hr hr' => ?_⟩
  · rw [hsame _ (by omega)]
    exact standsAt_iff.1 hat i hi
  · obtain ⟨q', rfl, ⟨hq', -, hopen', hfirst'⟩, hle', hlt', hcloser', hnone'⟩ :=
      valueAfter_eq_some.1 hvalue'
    -- the opener is the same one, and so is the closer
    obtain rfl : q' = q := by
      rcases Nat.lt_trichotomy q' q with hl | heq | hl
      · have hno := hfirst q' hq' hl
        rw [← hsame q' (by omega), hopen'] at hno
        cases hno
      · exact heq
      · have hno := hfirst' q hq hl
        rw [hsame q (Nat.le_refl q), hopen] at hno
        cases hno
    rw [hsame q' (Nat.le_refl q')] at hcloser' hnone'
    obtain rfl : e' = e := by
      rcases Nat.lt_trichotomy e' e with hl | heq | hl
      · rw [byte_fill_in hle' hl (by omega)] at hcloser'
        exact absurd hcloser'.symm (not_nameChar_closerOf hopen).2
      · exact heq
      · refine absurd ?_ (hnone' e hle hl)
        rw [byte_fill_of_le (Nat.le_refl e), hcloser]
    exact byte_fill_in hr hr' (by omega)

variable {n : ℕ} {state : Bytes × Bool} {value : ℕ × ℕ}

/-- **Whatever the scan for a name comes by is blank after it**, also when other values were blanked
since. -/
theorem blank_of_met (hname : IsName name)
    (hn : state.1.length < start + n) (hz : Later (blankAttribute name n start state).1 z)
    (hmet : Met z name start place) : Blank z name place := by
  have hpos := hname.pos
  induction n generalizing start state with
  | zero =>
    -- there is no room for the name behind the end
    have hz : Later state.1 z := hz
    have hin := hname.inside (hz.standsAt hname (hmet.standsAt hname))
    have hge := hmet.start_le hname
    omega
  | succ n ih =>
    rw [blankAttribute] at hz
    cases hindex : indexOfAscii state.1 name start with
    | none =>
      rw [hindex] at hz
      have hz : Later state.1 z := hz
      obtain ⟨first, -, hsome⟩ := exists_indexOfAscii hname (hmet.start_le hname)
        (hz.standsAt hname (hmet.standsAt hname))
      rw [hindex] at hsome
      cases hsome
    | some first =>
      obtain ⟨hle, hat, -⟩ := (indexOfAscii_eq_some hname).1 hindex
      rw [hindex] at hz
      simp only at hz
      cases hvalue : valueAfter state.1 (first + name.length) with
      | none =>
        rw [hvalue] at hz
        have hlater := (later_blankAttribute name n (first + name.length) state).trans hz
        rcases hmet.skip hname hindex hlater with rfl | hrest
        · refine blank_of_later hname hlater (hmet.standsAt hname) fun o e hsome => ?_
          rw [hvalue] at hsome
          cases hsome
        · exact ih (by omega) hz hrest
      | some found =>
        rw [hvalue] at hz
        simp only at hz
        obtain ⟨hat', hblank⟩ := blank_fill hat hvalue
        have hlater := (later_blankAttribute name n (first + name.length)
          (fill 0x20 found.1 found.2 state.1, true)).trans hz
        have hstep : Later state.1 z :=
          (Relation.ReflTransGen.single (blanks_of_valueAfter hvalue)).trans hlater
        rcases hmet.skip hname hindex hstep with rfl | hrest
        · exact blank_of_later hname hlater (hmet.standsAt hname) hblank
        · exact ih (by rw [length_fill]; omega) hz hrest

/-! ### The whole scan -/

/-- The scans for some names, one after another. -/
def blankNames (names : List Bytes) (n : ℕ) (state : Bytes × Bool) : Bytes × Bool :=
  names.foldl (fun state name => blankAttribute name n 0 state) state

theorem later_blankNames (names : List Bytes) (n : ℕ) (state : Bytes × Bool) :
    Later state.1 (blankNames names n state).1 := by
  induction names generalizing state with
  | nil => exact .refl
  | cons name names ih => exact (later_blankAttribute name n 0 state).trans (ih _)

theorem blank_of_blankNames {names : List Bytes} (hnames : ∀ name ∈ names, IsName name)
    (hn : state.1.length < n) (hname : name ∈ names)
    (hmet : Met (blankNames names n state).1 name 0 place) :
    Blank (blankNames names n state).1 name place := by
  induction names generalizing state with
  | nil => cases hname
  | cons first names ih =>
    have hlater := later_blankNames names n (blankAttribute first n 0 state)
    rcases List.mem_cons.1 hname with rfl | hname
    · exact blank_of_met (hnames name (List.mem_cons_self ..)) (by omega) hlater hmet
    · refine ih (fun other hother => hnames other (List.mem_cons_of_mem _ hother)) ?_ hname hmet
      rw [(later_blankAttribute first n 0 state).length_eq]
      exact hn

theorem fill_of_blank (hblank : ∀ r, o ≤ r → r < e → byte b r = 0x20) : fill 0x20 o e b = b := by
  refine bytes_ext (length_fill 0x20 o e b) fun r => ?_
  rcases byte_fill_cases 0x20 o e b r with h | ⟨h, hr, hr'⟩
  · exact h
  · rw [h, hblank r hr hr']

theorem blankAttribute_of_blank
    (h : ∀ place, Met state.1 name start place → Blank state.1 name place) :
    (blankAttribute name n start state).1 = state.1 := by
  induction n generalizing start state with
  | zero => rfl
  | succ n ih =>
    rw [blankAttribute]
    cases hindex : indexOfAscii state.1 name start with
    | none => rfl
    | some first =>
      simp only
      cases hvalue : valueAfter state.1 (first + name.length) with
      | none => exact ih fun place hmet => h place (.later hindex hmet)
      | some found =>
        have hsame := fill_of_blank (h first (.here hindex) found.1 found.2 hvalue)
        simp only
        rw [hsame]
        exact @ih _ (state.1, true) fun place hmet => h place (.later hindex hmet)

/-- **A second scan changes nothing.** -/
theorem blankXmpLocation_again (b : Bytes) :
    (blankXmpLocation (blankXmpLocation b).1).1 = (blankXmpLocation b).1 := by
  have hblank : ∀ name ∈ attributes, ∀ place, Met (blankXmpLocation b).1 name 0 place →
      Blank (blankXmpLocation b).1 name place := fun name hname place hmet =>
    blank_of_blankNames isName_attributes (Nat.lt_succ_self _) hname hmet
  generalize (blankXmpLocation b).1 = z at hblank ⊢
  have hnames : ∀ (names : List Bytes) (state : Bytes × Bool), (∀ name ∈ names, name ∈ attributes) →
      state.1 = z → (blankNames names (z.length + 1) state).1 = z := by
    intro names
    induction names with
    | nil => exact fun _ _ h => h
    | cons name names ih =>
      intro state hsub hstate
      refine ih _ (fun other hother => hsub other (List.mem_cons_of_mem _ hother)) ?_
      rw [← hstate] at hblank ⊢
      exact blankAttribute_of_blank (hblank name (hsub name (List.mem_cons_self ..)))
  exact hnames attributes (z, false) (fun _ h => h) rfl

/-! ### The values that are blanked -/

/-- The values that the scan for one name blanks, in the order it comes by them. -/
def valuesOf (name : Bytes) : ℕ → ℕ → Bytes → List (ℕ × ℕ)
  | 0, _, _ => []
  | n + 1, start, b =>
    match indexOfAscii b name start with
    | none => []
    | some place =>
      match valueAfter b (place + name.length) with
      | none => valuesOf name n (place + name.length) b
      | some value =>
        value :: valuesOf name n (place + name.length) (fill 0x20 value.1 value.2 b)

def blankAll (values : List (ℕ × ℕ)) (b : Bytes) : Bytes :=
  values.foldl (fun b value => fill 0x20 value.1 value.2 b) b

def valuesOfNames : List Bytes → ℕ → Bytes → List (ℕ × ℕ)
  | [], _, _ => []
  | name :: names, n, b =>
    valuesOf name n 0 b ++ valuesOfNames names n (blankAll (valuesOf name n 0 b) b)

/-- The values that the XMP scan blanks, from the byte behind the opener up to the closer. -/
def xmpValues (b : Bytes) : List (ℕ × ℕ) := valuesOfNames attributes (b.length + 1) b

theorem blankAll_append (values values' : List (ℕ × ℕ)) (b : Bytes) :
    blankAll (values ++ values') b = blankAll values' (blankAll values b) := List.foldl_append ..

theorem blankAttribute_eq (name : Bytes) (n start : ℕ) (state : Bytes × Bool) :
    blankAttribute name n start state =
      (blankAll (valuesOf name n start state.1) state.1,
        state.2 || !(valuesOf name n start state.1).isEmpty) := by
  induction n generalizing start state with
  | zero => simp [blankAttribute, valuesOf, blankAll]
  | succ n ih =>
    rw [blankAttribute, valuesOf]
    cases indexOfAscii state.1 name start with
    | none => simp [blankAll]
    | some place =>
      simp only
      cases valueAfter state.1 (place + name.length) with
      | none => exact ih _ _
      | some value =>
        refine (ih _ (fill 0x20 value.1 value.2 state.1, true)).trans ?_
        simp [blankAll]

theorem blankNames_eq (names : List Bytes) (n : ℕ) (state : Bytes × Bool) :
    blankNames names n state =
      (blankAll (valuesOfNames names n state.1) state.1,
        state.2 || !(valuesOfNames names n state.1).isEmpty) := by
  induction names generalizing state with
  | nil => simp [blankNames, valuesOfNames, blankAll]
  | cons name names ih =>
    rw [valuesOfNames, blankAll_append]
    refine (ih (blankAttribute name n 0 state)).trans ?_
    rw [blankAttribute_eq]
    cases valuesOf name n 0 state.1 <;> simp

/-- **The scan blanks these values, and says whether there were any.** -/
theorem blankXmpLocation_eq (b : Bytes) :
    blankXmpLocation b = (blankAll (xmpValues b) b, !(xmpValues b).isEmpty) := by
  refine (blankNames_eq attributes (b.length + 1) (b, false)).trans ?_
  rw [Bool.false_or]
  rfl

theorem length_blankAll (values : List (ℕ × ℕ)) (b : Bytes) :
    (blankAll values b).length = b.length := by
  induction values generalizing b with
  | nil => rfl
  | cons value values ih => exact (ih _).trans (length_fill ..)

theorem byte_blankAll (values : List (ℕ × ℕ)) (b : Bytes) (r : ℕ) :
    byte (blankAll values b) r = byte b r ∨
      byte (blankAll values b) r = 0x20 ∧ ∃ value ∈ values, value.1 ≤ r ∧ r < value.2 := by
  induction values generalizing b with
  | nil => exact .inl rfl
  | cons value values ih =>
    rcases ih (fill 0x20 value.1 value.2 b) with h | ⟨h, other, hother, hin⟩
    · rcases byte_fill_cases 0x20 value.1 value.2 b r with h' | ⟨h', hin⟩
      · exact .inl (h.trans h')
      · exact .inr ⟨h.trans h', value, List.mem_cons_self .., hin⟩
    · exact .inr ⟨h, other, List.mem_cons_of_mem _ hother, hin⟩

theorem byte_blankAll_of_mem {values : List (ℕ × ℕ)} {r : ℕ} (hr : r < b.length)
    (h : ∃ value ∈ values, value.1 ≤ r ∧ r < value.2) : byte (blankAll values b) r = 0x20 := by
  induction values generalizing b with
  | nil =>
    obtain ⟨value, hmem, -⟩ := h
    cases hmem
  | cons value values ih =>
    obtain ⟨other, hother, hin⟩ := h
    have hrest := byte_blankAll values (fill 0x20 value.1 value.2 b) r
    rcases List.mem_cons.1 hother with rfl | hother
    · rcases hrest with heq | ⟨heq, -⟩
      · exact heq.trans (byte_fill_in hin.1 hin.2 hr)
      · exact heq
    · exact ih (by rw [length_fill]; exact hr) ⟨other, hother, hin⟩

def Behind (name b : Bytes) (value : ℕ × ℕ) : Prop :=
  ∃ place, standsAt b name place = true ∧ place + name.length < value.1 ∧
    value.1 ≤ place + name.length + 8 ∧ value.2 < value.1 + 256

theorem behind_of_later (hname : IsName name) (h : Later b z)
    (hvalue : Behind name z value) : Behind name b value := by
  obtain ⟨place, hat, hin⟩ := hvalue
  exact ⟨place, h.standsAt hname hat, hin⟩

theorem behind_valuesOf (hname : IsName name)
    (h : value ∈ valuesOf name n start b) : Behind name b value := by
  induction n generalizing start b with
  | zero => cases h
  | succ n ih =>
    rw [valuesOf] at h
    cases hat : indexOfAscii b name start with
    | none =>
      rw [hat] at h
      cases h
    | some place =>
      rw [hat] at h
      simp only at h
      cases hvalue : valueAfter b (place + name.length) with
      | none =>
        rw [hvalue] at h
        exact ih h
      | some first =>
        rw [hvalue] at h
        rcases List.mem_cons.1 h with rfl | hrest
        · obtain ⟨q, hq, hopen, -, hstop, -⟩ := valueAfter_eq_some.1 hvalue
          refine ⟨place, ((indexOfAscii_eq_some hname).1 hat).2.1, ?_⟩
          omega
        · exact behind_of_later hname (.single (blanks_of_valueAfter hvalue)) (ih hrest)

theorem later_blankAll_valuesOf (name : Bytes) (n start : ℕ) (b : Bytes) :
    Later b (blankAll (valuesOf name n start b) b) := by
  have hlater := later_blankAttribute name n start (b, false)
  rwa [blankAttribute_eq] at hlater

/-- **A value that is blanked stands behind one of the names.** -/
theorem behind_xmpValues (h : value ∈ xmpValues b) : ∃ name ∈ attributes, Behind name b value := by
  have hnames : ∀ names : List Bytes, (∀ name ∈ names, IsName name) → ∀ (n : ℕ) (b : Bytes),
      value ∈ valuesOfNames names n b → ∃ name ∈ names, Behind name b value := by
    intro names hnames
    induction names with
    | nil => exact fun _ _ h => nomatch h
    | cons name names ih =>
      intro n b h
      rw [valuesOfNames] at h
      rcases List.mem_append.1 h with h | h
      · have hname := hnames name (List.mem_cons_self ..)
        exact ⟨name, List.mem_cons_self .., behind_valuesOf hname h⟩
      · obtain ⟨other, hother, hbehind⟩ :=
          ih (fun name hname => hnames name (List.mem_cons_of_mem _ hname)) n _ h
        exact ⟨other, List.mem_cons_of_mem _ hother, behind_of_later
          (hnames other (List.mem_cons_of_mem _ hother)) (later_blankAll_valuesOf name n 0 b)
          hbehind⟩
  exact hnames attributes isName_attributes _ b h

end ImageLocation
