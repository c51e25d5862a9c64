/-
**Calendar dates as texts and as numbers.**

A JavaScript `Date` counts milliseconds from 1970; the program keeps dates as texts
`YYYY-MM-DD` and goes from one to the other with `Date.UTC`, `Date.parse` and `toISOString`.
Here a date is the number of days since 1970-01-01, and the texts are compared with that number.

Main result:

* `Calendar.dateParts_isoDate` — **what `toISOString` writes, the expression reads**, in the years
  of four digits.
-/

import Mathlib.Data.Int.ConditionallyCompleteOrder
import Texturion.CallMachine
import Texturion.JsText
import Mathlib.Tactic.IntervalCases

namespace Calendar

open JsText
open Calls (civilFromDays padStart toISOString)

/-! ### Days and their parts -/

/-- The number of days from 1970-01-01 to a year, month and day.  A day past the end of its month
runs on into the next one. -/
def daysFromCivil (year : ℤ) (month day : ℕ) : ℤ :=
  let y := if month ≤ 2 then year - 1 else year
  let era := y / 400
  let yoe := (y % 400).toNat
  let mp := if month > 2 then month - 3 else month + 9
  let doy := (153 * mp + 2) / 5 + day - 1
  era * 146097 + ((yoe * 365 + yoe / 4 - yoe / 100 + doy : ℕ) : ℤ) - 719468

/-- The year an era's day falls in starts no later than the day, and no more than 365 days
before. -/
theorem yearOfEra_start {doe yoe : ℕ} (h : doe < 146097)
    (hy : yoe = (doe - doe / 1460 + doe / 36524 - doe / 146096) / 365) :
    yoe ≤ 399 ∧ 365 * yoe + yoe / 4 - yoe / 100 ≤ doe ∧
      doe ≤ 365 * yoe + yoe / 4 - yoe / 100 + 365 := by
  -- the last day of an era is the leap day of its last year
  by_cases hlast : doe = 146096
  · subst hlast
    subst hy
    decide
  have he : doe / 146096 = 0 := by omega
  have hcs : doe / 36524 = 0 ∨ doe / 36524 = 1 ∨ doe / 36524 = 2 ∨ doe / 36524 = 3 := by
    omega
  generalize hq : doe / 1460 = q at hy
  rw [he] at hy
  rcases hcs with hc | hc | hc | hc
  all_goals
    rw [hc] at hy
    -- `q` counts leap cycles of 1460 days, a day short each, so it may be one ahead
    have hcycle : yoe + 1 = 4 * q ∨ (4 * q ≤ yoe ∧ yoe ≤ 4 * q + 3) := by omega
    have hcent : yoe / 100 = doe / 36524 := by omega
    rw [hcent, hc]
    rcases hcycle with hcycle | hcycle
    · have h4 : yoe / 4 + 1 = q := by omega
      omega
    · have h4 : yoe / 4 = q := by omega
      omega

/-- A day number taken apart: its era of 400 years, the year of the era and the day of that year,
both counted from 1 March, and what `civilFromDays` makes of them. -/
theorem civilFromDays_parts (days : ℤ) :
    ∃ (era : ℤ) (yoe doy : ℕ), yoe ≤ 399 ∧ doy ≤ 365 ∧
      days + 719468 = era * 146097 + ((yoe * 365 + yoe / 4 - yoe / 100 + doy : ℕ) : ℤ) ∧
      civilFromDays days =
        (let mp := (5 * doy + 2) / 153
         let month := if mp < 10 then mp + 3 else mp - 9
         (yoe + era * 400 + (if month ≤ 2 then 1 else 0), month,
           doy - (153 * mp + 2) / 5 + 1)) := by
  have hdoe : ((days + 719468) % 146097).toNat < 146097 := by omega
  obtain ⟨hyoe, hle, hge⟩ := yearOfEra_start hdoe rfl
  refine ⟨(days + 719468) / 146097, _, _, hyoe, ?_, ?_, rfl⟩
  · omega
  · omega

theorem daysFromCivil_civilFromDays (days : ℤ) :
    daysFromCivil (civilFromDays days).1 (civilFromDays days).2.1 (civilFromDays days).2.2 =
      days := by
  obtain ⟨era, yoe, doy, hyoe, hdoy, hdays, hcivil⟩ := civilFromDays_parts days
  rw [hcivil]
  simp only [daysFromCivil]
  have hmp : (5 * doy + 2) / 153 ≤ 11 := by omega
  have hstart : (153 * ((5 * doy + 2) / 153) + 2) / 5 ≤ doy := by omega
  generalize (5 * doy + 2) / 153 = mp at hmp hstart
  have hera : (↑yoe + era * 400) / 400 = era := by omega
  have hyear : ((↑yoe + era * 400) % 400).toNat = yoe := by omega
  by_cases hm : mp < 10
  · -- March to December
    have h2 : ¬ mp + 3 ≤ 2 := by omega
    have h3 : mp + 3 > 2 := by omega
    simp only [if_pos hm, if_neg h2, if_pos h3, Int.add_zero]
    rw [hera, hyear]
    omega
  · -- January and February belong to the year before
    have h2 : mp - 9 ≤ 2 := by omega
    have h3 : ¬ mp - 9 > 2 := by omega
    simp only [if_neg hm, if_pos h2, if_neg h3, Int.add_sub_cancel]
    rw [hera, hyear]
    omega

theorem civilFromDays_month (days : ℤ) :
    1 ≤ (civilFromDays days).2.1 ∧ (civilFromDays days).2.1 ≤ 12 := by
  obtain ⟨era, yoe, doy, -, hdoy, -, hcivil⟩ := civilFromDays_parts days
  rw [hcivil]
  dsimp only
  split_ifs <;> omega

theorem civilFromDays_day (days : ℤ) :
    1 ≤ (civilFromDays days).2.2 ∧ (civilFromDays days).2.2 ≤ 31 := by
  obtain ⟨era, yoe, doy, -, hdoy, -, hcivil⟩ := civilFromDays_parts days
  rw [hcivil]
  dsimp only
  omega

/-- The year of a day number, from the parts of `civilFromDays_parts`: January comes 306 days after
1 March. -/
theorem civilFromDays_year (days : ℤ) :
    ∃ (era : ℤ) (yoe doy : ℕ), yoe ≤ 399 ∧ doy ≤ 365 ∧
      days + 719468 = era * 146097 + ((yoe * 365 + yoe / 4 - yoe / 100 + doy : ℕ) : ℤ) ∧
      (civilFromDays days).1 = yoe + era * 400 + (if 306 ≤ doy then 1 else 0) := by
  obtain ⟨era, yoe, doy, hyoe, hdoy, hdays, hcivil⟩ := civilFromDays_parts days
  refine ⟨era, yoe, doy, hyoe, hdoy, hdays, ?_⟩
  rw [hcivil]
  dsimp only
  by_cases h : 306 ≤ doy
  · have hmp : 10 ≤ (5 * doy + 2) / 153 := by omega
    have hmp' : (5 * doy + 2) / 153 ≤ 11 := by omega
    rw [if_neg (by omega : ¬ (5 * doy + 2) / 153 < 10), if_pos h, if_pos (by omega)]
  · have hmp : (5 * doy + 2) / 153 < 10 := by omega
    rw [if_pos hmp, if_neg h, if_neg (by omega)]

theorem yearStart_lt {a b : ℤ} (h : a < b) :
    365 * a + a / 4 - a / 100 + a / 400 + 365 ≤ 365 * b + b / 4 - b / 100 + b / 400 := by
  have ha : a / 100 = a / 4 / 25 := by omega
  have hb : b / 100 = b / 4 / 25 := by omega
  have h4 : a / 4 ≤ b / 4 := by omega
  have h400 : a / 400 ≤ b / 400 := by omega
  omega

/-- A day lies in a year or a later one exactly from the year's first of January on. -/
theorem year_ge_iff (year days : ℤ) :
    year ≤ (civilFromDays days).1 ↔ daysFromCivil year 1 1 ≤ days := by
  obtain ⟨era, yoe, doy, hyoe, hdoy, hdays, hyear⟩ := civilFromDays_year days
  have hstart : daysFromCivil year 1 1 + 719468 =
      365 * (year - 1) + (year - 1) / 4 - (year - 1) / 100 + (year - 1) / 400 + 306 := by
    have hjan : (1 : ℕ) ≤ 2 := by omega
    have hjan' : ¬ (1 : ℕ) > 2 := by omega
    simp only [daysFromCivil, if_pos hjan, if_neg hjan']
    omega
  have hday : days + 719468 =
      365 * (yoe + era * 400) + (yoe + era * 400) / 4 - (yoe + era * 400) / 100 +
        (yoe + era * 400) / 400 + doy := by
    omega
  rw [hyear]
  generalize (yoe : ℤ) + era * 400 = y at *
  -- the year that starts in March before `year` does, against the day's own
  rcases lt_trichotomy (year - 1) y with h | h | h
  · have hlt := yearStart_lt h
    split_ifs <;> omega
  · subst h
    split_ifs <;> omega
  · have hlt := yearStart_lt h
    split_ifs <;> omega

theorem four_digits_iff (days : ℤ) :
    1000 ≤ (civilFromDays days).1 ∧ (civilFromDays days).1 ≤ 9999 ↔
      -354285 ≤ days ∧ days ≤ 2932896 := by
  have hfirst : daysFromCivil 1000 1 1 = -354285 := by decide
  have hpast : daysFromCivil 10000 1 1 = 2932897 := by decide
  have hlow := year_ge_iff 1000 days
  have hhigh := year_ge_iff 10000 days
  rw [hfirst] at hlow
  rw [hpast] at hhigh
  omega

/-! ### Digits -/

def digitUnit (n : ℕ) : UInt16 := (0x30 + n).toUInt16

/-- `\d`. -/
def isDigit (u : UInt16) : Bool := 0x30 ≤ u && u ≤ 0x39

/-- The number a digit stands for. -/
def digitValue (u : UInt16) : ℕ := u.toNat - 0x30

variable {n : ℕ} {day : ℤ}

theorem isDigit_digitUnit (h : n < 10) : isDigit (digitUnit n) = true := by
  interval_cases n <;> decide

theorem digitValue_digitUnit (h : n < 10) : digitValue (digitUnit n) = n := by
  interval_cases n <;> decide

theorem units_digitChar (h : n < 10) : units n.digitChar = [digitUnit n] := by
  interval_cases n <;> decide

theorem ofString_append (s t : String) : ofString (s ++ t) = ofString s ++ ofString t := by
  simp [ofString]

theorem ofString_padStart (width n : ℕ) :
    ofString (padStart width n) =
      (List.replicate (width - (Nat.toDigits 10 n).length) '0' ++
        Nat.toDigits 10 n).flatMap units := by
  simp [ofString, padStart]

theorem ofString_padStart_one (h : n < 10) : ofString (padStart 1 n) = [digitUnit n] := by
  rw [ofString_padStart, Nat.toDigits_of_lt_base h]
  simp [units_digitChar h]

/-- The last digit apart. -/
theorem ofString_padStart_succ (width n : ℕ) :
    ofString (padStart (width + 2) n) =
      ofString (padStart (width + 1) (n / 10)) ++ [digitUnit (n % 10)] := by
  have hlast : n % 10 < 10 := by omega
  rw [ofString_padStart, ofString_padStart]
  by_cases hn : n < 10
  · have h0 : n / 10 = 0 := by omega
    rw [Nat.toDigits_of_lt_base hn, h0, ← Nat.mod_eq_of_lt hn]
    simp [units_digitChar hlast, List.replicate_succ']
  · rw [Nat.toDigits_of_base_le (by omega) (by omega)]
    simp [units_digitChar hlast]

theorem ofString_padStart_two (h : n < 100) :
    ofString (padStart 2 n) = [digitUnit (n / 10), digitUnit (n % 10)] := by
  rw [ofString_padStart_succ, ofString_padStart_one (by omega)]
  rfl

theorem toDigits_four (h : 1000 ≤ n) (h' : n ≤ 9999) :
    Nat.toDigits 10 n =
      [(n / 1000).digitChar, (n / 100 % 10).digitChar, (n / 10 % 10).digitChar,
        (n % 10).digitChar] := by
  rw [Nat.toDigits_of_base_le (by omega) (by omega),
    Nat.toDigits_of_base_le (by omega) (by omega : 10 ≤ n / 10),
    Nat.toDigits_of_base_le (by omega) (by omega : 10 ≤ n / 10 / 10),
    Nat.toDigits_of_lt_base (by omega : n / 10 / 10 / 10 < 10)]
  simp [Nat.div_div_eq_div_mul]

/-! ### Dates -/

/-- A date as `YYYY-MM-DD`. -/
def dateText (year month day : ℕ) : Text :=
  [digitUnit (year / 1000), digitUnit (year / 100 % 10), digitUnit (year / 10 % 10),
    digitUnit (year % 10), 0x2D, digitUnit (month / 10), digitUnit (month % 10), 0x2D,
    digitUnit (day / 10), digitUnit (day % 10)]

/-- The expression `/^\d{4}-\d{2}-\d{2}$/`, with the three numbers it reads. -/
def dateParts : Text → Option (ℕ × ℕ × ℕ)
  | [y1, y2, y3, y4, dash1, m1, m2, dash2, d1, d2] =>
      if [y1, y2, y3, y4, m1, m2, d1, d2].all isDigit && dash1 == 0x2D && dash2 == 0x2D then
        some (digitValue y1 * 1000 + digitValue y2 * 100 + digitValue y3 * 10 + digitValue y4,
          digitValue m1 * 10 + digitValue m2, digitValue d1 * 10 + digitValue d2)
      else none
  | _ => none

/-- `Date.parse` of a date followed by `T00:00:00Z`, in milliseconds. -/
def utcMidnight (date : Text) : Option ℤ :=
  match dateParts date with
  | none => none
  | some (year, month, day) =>
      if 1 ≤ month ∧ month ≤ 12 ∧ 1 ≤ day ∧ day ≤ 31 then
        some (daysFromCivil year month day * 86400000)
      else none

/-- `new Date(ms).toISOString().slice(0, 10)` at the midnight a day starts with. -/
def isoDate (day : ℤ) : Text := (ofString (toISOString (day * 86400000))).take 10

/-- `getUTCDay()`: 1970-01-01 was a Thursday. -/
def utcDay (day : ℤ) : ℕ := ((day + 4) % 7).toNat

theorem dateParts_length {date : Text} {parts : ℕ × ℕ × ℕ} (h : dateParts date = some parts) :
    date.length = 10 := by
  unfold dateParts at h
  split at h
  · rfl
  · cases h

theorem dateParts_dateText {year month day : ℕ} (hy : year ≤ 9999) (hm : month ≤ 99)
    (hd : day ≤ 99) : dateParts (dateText year month day) = some (year, month, day) := by
  have hy1 : year / 1000 < 10 := by omega
  have hy2 : year / 100 % 10 < 10 := by omega
  have hy3 : year / 10 % 10 < 10 := by omega
  have hy4 : year % 10 < 10 := by omega
  have hm1 : month / 10 < 10 := by omega
  have hm2 : month % 10 < 10 := by omega
  have hd1 : day / 10 < 10 := by omega
  have hd2 : day % 10 < 10 := by omega
  simp only [dateText, dateParts, List.all_cons, List.all_nil, isDigit_digitUnit, hy1, hy2, hy3,
    hy4, hm1, hm2, hd1, hd2, digitValue_digitUnit, beq_self_eq_true, Bool.and_true, if_true,
    Option.some.injEq, Prod.mk.injEq]
  omega

theorem ofString_padStart_four (h : n ≤ 9999) :
    ofString (padStart 4 n) =
      [digitUnit (n / 1000), digitUnit (n / 100 % 10), digitUnit (n / 10 % 10),
        digitUnit (n % 10)] := by
  rw [ofString_padStart_succ, ofString_padStart_succ, ofString_padStart_two (by omega)]
  simp [Nat.div_div_eq_div_mul]

/-- In the years of four digits `toISOString` starts with the date. -/
theorem isoDate_eq_dateText (h : -354285 ≤ day) (h' : day ≤ 2932896) :
    isoDate day =
      dateText (civilFromDays day).1.toNat (civilFromDays day).2.1 (civilFromDays day).2.2 := by
  obtain ⟨hlow, hhigh⟩ := (four_digits_iff day).2 ⟨h, h'⟩
  have hmonth := civilFromDays_month day
  have hday := civilFromDays_day day
  have hms : day * 86400000 / 86400000 = day := by omega
  unfold isoDate toISOString
  rw [hms]
  generalize civilFromDays day = parts at *
  obtain ⟨year, month, d⟩ := parts
  dsimp only at *
  have hneg : ¬ year < 0 := by omega
  have hfar : ¬ 9999 < year := by omega
  have habs : year.natAbs = year.toNat := by omega
  have hdash : ofString "-" = [0x2D] := by decide
  simp only [if_neg hneg, if_neg hfar, habs, ofString_append, hdash,
    ofString_padStart_four (by omega : year.toNat ≤ 9999),
    ofString_padStart_two (by omega : month < 100), ofString_padStart_two (by omega : d < 100)]
  rfl

theorem isoDate_far (h : 2932896 < day) : ∃ rest, isoDate day = 0x2B :: rest := by
  have hhigh : 9999 < (civilFromDays day).1 := by
    have hpast : daysFromCivil 10000 1 1 = 2932897 := by decide
    have hyear := year_ge_iff 10000 day
    rw [hpast] at hyear
    omega
  have hms : day * 86400000 / 86400000 = day := by omega
  unfold isoDate toISOString
  rw [hms]
  generalize civilFromDays day = parts at *
  obtain ⟨year, month, d⟩ := parts
  dsimp only at *
  have hneg : ¬ year < 0 := by omega
  have hplus : ofString "+" = [0x2B] := by decide
  simp only [if_neg hneg, if_pos hhigh, ofString_append, hplus, List.cons_append, List.nil_append,
    List.take_succ_cons]
  exact ⟨_, rfl⟩

/-- **What `toISOString` writes, the expression reads.** -/
theorem dateParts_isoDate (h : -354285 ≤ day) (h' : day ≤ 2932896) :
    dateParts (isoDate day) =
      some ((civilFromDays day).1.toNat, (civilFromDays day).2.1, (civilFromDays day).2.2) := by
  obtain ⟨hlow, hhigh⟩ := (four_digits_iff day).2 ⟨h, h'⟩
  have hmonth := civilFromDays_month day
  have hday := civilFromDays_day day
  rw [isoDate_eq_dateText h h']
  exact dateParts_dateText (by omega) (by omega) (by omega)

/-- And `Date.parse` returns to the day. -/
theorem utcMidnight_isoDate (h : -354285 ≤ day) (h' : day ≤ 2932896) :
    utcMidnight (isoDate day) = some (day * 86400000) := by
  obtain ⟨hlow, -⟩ := (four_digits_iff day).2 ⟨h, h'⟩
  obtain ⟨hm, hm'⟩ := civilFromDays_month day
  obtain ⟨hd, hd'⟩ := civilFromDays_day day
  have hyear : (((civilFromDays day).1.toNat : ℕ) : ℤ) = (civilFromDays day).1 := by omega
  unfold utcMidnight
  rw [dateParts_isoDate h h']
  dsimp only
  rw [if_pos ⟨hm, hm', hd, hd'⟩, hyear, daysFromCivil_civilFromDays]

end Calendar
