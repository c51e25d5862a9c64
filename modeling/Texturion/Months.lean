/-
**The months of the calendar.**

The months are numbered through: month `n` is month `n % 12` of year `n / 12`, counted from zero.
Every day lies in one month, at one day of it, and `civilFromDays` finds both: the inverse of
`daysFromCivil` on the days that a month has.

Main result:

* `Calendar.civilFromDays_date` — **the date of a day of a month.**
-/

import Texturion.Calendar

namespace Calendar

open Calls (civilFromDays)

def monthStart (n : ℤ) : ℤ := daysFromCivil (n / 12) ((n % 12).toNat + 1) 1

/-- How many days a month has. -/
def monthLength (n : ℤ) : ℕ := (monthStart (n + 1) - monthStart n).toNat

theorem daysFromCivil_eq (year : ℤ) (month : ℕ) {day : ℕ} (h : 1 ≤ day) :
    daysFromCivil year month day = daysFromCivil year month 1 + day - 1 := by
  simp only [daysFromCivil]
  omega

/-- A month by the year that starts in March before it, and its place in that year. -/
theorem monthStart_eq (n : ℤ) :
    monthStart n = 365 * ((n - 2) / 12) + (n - 2) / 12 / 4 - (n - 2) / 12 / 100 +
      (n - 2) / 12 / 400 + (153 * ((n - 2) % 12) + 2) / 5 - 719468 := by
  simp only [monthStart, daysFromCivil]
  by_cases h : (n % 12).toNat + 1 ≤ 2
  · have h' : ¬(n % 12).toNat + 1 > 2 := by omega
    rw [if_pos h, if_neg h']
    have hyear : (n - 2) / 12 = n / 12 - 1 := by omega
    have hplace : (n - 2) % 12 = n % 12 + 10 := by omega
    rw [hyear, hplace]
    generalize n / 12 - 1 = y
    omega
  · have h' : (n % 12).toNat + 1 > 2 := by omega
    rw [if_neg h, if_pos h']
    have hyear : (n - 2) / 12 = n / 12 := by omega
    have hplace : (n - 2) % 12 = n % 12 - 2 := by omega
    rw [hyear, hplace]
    generalize n / 12 = y
    omega

theorem monthStart_succ (n : ℤ) :
    monthStart n + 28 ≤ monthStart (n + 1) ∧ monthStart (n + 1) ≤ monthStart n + 31 := by
  rw [monthStart_eq, monthStart_eq]
  by_cases h : (n - 2) % 12 = 11
  · have hyear : (n + 1 - 2) / 12 = (n - 2) / 12 + 1 := by omega
    have hplace : (n + 1 - 2) % 12 = 0 := by omega
    rw [hyear, hplace, h]
    generalize (n - 2) / 12 = y
    omega
  · have hyear : (n + 1 - 2) / 12 = (n - 2) / 12 := by omega
    have hplace : (n + 1 - 2) % 12 = (n - 2) % 12 + 1 := by omega
    rw [hyear, hplace]
    omega

theorem monthStart_add_length (n : ℤ) : monthStart n + monthLength n = monthStart (n + 1) := by
  have h := (monthStart_succ n).1
  rw [monthLength]
  omega

theorem monthLength_bounds (n : ℤ) : 28 ≤ monthLength n ∧ monthLength n ≤ 31 := by
  have h := monthStart_succ n
  have hlength := monthStart_add_length n
  omega

theorem monthStart_strictMono : StrictMono monthStart :=
  strictMono_int_of_lt_succ fun n => by
    have h := (monthStart_succ n).1
    omega

theorem yearOfEra_end {doe yoe : ℕ} (h : doe < 146097)
    (hy : yoe = (doe - doe / 1460 + doe / 36524 - doe / 146096) / 365) :
    doe < 365 * (yoe + 1) + (yoe + 1) / 4 - (yoe + 1) / 100 + (yoe + 1) / 400 := by
  by_cases hlast : doe = 146096
  · subst hlast
    subst hy
    decide
  have he : doe / 146096 = 0 := by omega
  have hcs : doe / 36524 = 0 ∨ doe / 36524 = 1 ∨ doe / 36524 = 2 ∨ doe / 36524 = 3 := by
    omega
  generalize hq : doe / 1460 = q at hy
  rw [he] at hy
  rcases hcs with hc | hc | hc | hc
  all_goals
    rw [hc] at hy
    have hcent : yoe / 100 = doe / 36524 := by omega
    rw [hc] at hcent
    have hcycle : yoe + 1 = 4 * q ∨ (4 * q ≤ yoe ∧ yoe ≤ 4 * q + 3) := by omega
    -- the year after the last one of a century is in the next one
    have hnext : (yoe + 1) / 100 = yoe / 100 ∨ yoe + 1 = 100 * (yoe / 100 + 1) := by omega
    rw [hcent] at hnext
    rcases hnext with hnext | hnext
    · rw [hnext]
      have hq4 : q ≤ (yoe + 1) / 4 := by omega
      omega
    · omega

/-- A day by the year that starts in March before it: the year is not over yet. -/
theorem civilFromDays_march (days : ℤ) :
    ∃ (y : ℤ) (doy : ℕ), days + 719468 = 365 * y + y / 4 - y / 100 + y / 400 + doy ∧
      days + 719468 < 365 * (y + 1) + (y + 1) / 4 - (y + 1) / 100 + (y + 1) / 400 ∧ doy ≤ 365 ∧
      civilFromDays days =
        (let mp := (5 * doy + 2) / 153
         let month := if mp < 10 then mp + 3 else mp - 9
         (y + (if month ≤ 2 then 1 else 0), month, doy - (153 * mp + 2) / 5 + 1)) := by
  obtain ⟨doe, hdoe⟩ : ∃ doe, doe = ((days + 719468) % 146097).toNat := ⟨_, rfl⟩
  obtain ⟨yoe, hyoe⟩ : ∃ yoe, yoe = (doe - doe / 1460 + doe / 36524 - doe / 146096) / 365 :=
    ⟨_, rfl⟩
  have hlt : doe < 146097 := by omega
  obtain ⟨hyoe', hle, hge⟩ := yearOfEra_start hlt hyoe
  have hend := yearOfEra_end hlt hyoe
  have hcivil : civilFromDays days =
      (let doy := doe - (365 * yoe + yoe / 4 - yoe / 100)
       let mp := (5 * doy + 2) / 153
       let month := if mp < 10 then mp + 3 else mp - 9
       (yoe + (days + 719468) / 146097 * 400 + (if month ≤ 2 then 1 else 0), month,
         doy - (153 * mp + 2) / 5 + 1)) := by
    rw [hyoe, hdoe]
    rfl
  clear hyoe
  refine ⟨yoe + (days + 719468) / 146097 * 400, doe - (365 * yoe + yoe / 4 - yoe / 100), ?_, ?_, ?_,
    hcivil⟩
  · have h4 : (yoe + (days + 719468) / 146097 * 400 : ℤ) / 4 =
        yoe / 4 + (days + 719468) / 146097 * 100 := by omega
    have h100 : (yoe + (days + 719468) / 146097 * 400 : ℤ) / 100 =
        yoe / 100 + (days + 719468) / 146097 * 4 := by omega
    rw [h4, h100]
    omega
  · have h4 : (yoe + (days + 719468) / 146097 * 400 + 1 : ℤ) / 4 =
        ((yoe + 1 : ℕ) : ℤ) / 4 + (days + 719468) / 146097 * 100 := by omega
    have h100 : (yoe + (days + 719468) / 146097 * 400 + 1 : ℤ) / 100 =
        ((yoe + 1 : ℕ) : ℤ) / 100 + (days + 719468) / 146097 * 4 := by omega
    have h400 : (yoe + (days + 719468) / 146097 * 400 + 1 : ℤ) / 400 =
        ((yoe + 1 : ℕ) : ℤ) / 400 + (days + 719468) / 146097 := by omega
    rw [h4, h100, h400]
    omega
  · omega

theorem civilFromDays_month_start {days year : ℤ} {month day : ℕ}
    (h : civilFromDays days = (year, month, day)) :
    days = monthStart (year * 12 + month - 1) + day - 1 ∧
      days < monthStart (year * 12 + month - 1 + 1) := by
  obtain ⟨y, doy, hstart, hend, hdoy, hcivil⟩ := civilFromDays_march days
  rw [h] at hcivil
  obtain ⟨hyear, hmonth, hday⟩ : _ ∧ _ ∧ _ := by simpa only [Prod.mk.injEq] using hcivil
  have hmp : (5 * doy + 2) / 153 ≤ 11 := by omega
  have hfirst : (153 * ((5 * doy + 2) / 153) + 2) / 5 ≤ doy := by omega
  have hlast : (5 * doy + 2) / 153 ≠ 11 → doy < (153 * ((5 * doy + 2) / 153 + 1) + 2) / 5 := by
    omega
  generalize (5 * doy + 2) / 153 = mp at *
  rw [← hmonth] at hyear
  have hplace : year * 12 + month - 1 - 2 = y * 12 + mp := by
    split_ifs at hmonth with hm
    · rw [if_neg (by omega)] at hyear
      omega
    · rw [if_pos (by omega)] at hyear
      omega
  clear hyear hmonth
  have hn : (y * 12 + (mp : ℤ)) / 12 = y ∧ (y * 12 + (mp : ℤ)) % 12 = mp := by omega
  constructor
  · rw [monthStart_eq, hplace, hn.1, hn.2]
    omega
  · rw [monthStart_eq, show year * 12 + (month : ℤ) - 1 + 1 - 2 = y * 12 + mp + 1 by omega]
    by_cases hm : mp = 11
    · rw [show (y * 12 + (mp : ℤ) + 1) / 12 = y + 1 by omega,
        show (y * 12 + (mp : ℤ) + 1) % 12 = 0 by omega]
      omega
    · have hlt := hlast hm
      rw [show (y * 12 + (mp : ℤ) + 1) / 12 = y by omega,
        show (y * 12 + (mp : ℤ) + 1) % 12 = mp + 1 by omega]
      omega

theorem civilFromDays_date {n : ℤ} {day : ℕ} (h : 1 ≤ day) (h' : day ≤ monthLength n) :
    civilFromDays (monthStart n + day - 1) = (n / 12, (n % 12).toNat + 1, day) := by
  obtain ⟨⟨year, month, d⟩, hdate⟩ : ∃ date, date = civilFromDays (monthStart n + day - 1) :=
    ⟨_, rfl⟩
  obtain ⟨hdays, hlt⟩ := civilFromDays_month_start hdate.symm
  obtain ⟨hmonth, hmonth'⟩ := civilFromDays_month (monthStart n + day - 1)
  have hday := (civilFromDays_day (monthStart n + day - 1)).1
  rw [← hdate] at hmonth hmonth' hday
  change 1 ≤ month at hmonth
  change month ≤ 12 at hmonth'
  change 1 ≤ d at hday
  have hlength := monthStart_add_length n
  have hsame : year * 12 + month - 1 = n := by
    rcases lt_trichotomy (year * 12 + month - 1) n with hn | hn | hn
    · have hle := monthStart_strictMono.monotone (Int.add_one_le_of_lt hn)
      omega
    · exact hn
    · have hle := monthStart_strictMono.monotone (Int.add_one_le_of_lt hn)
      omega
  rw [hsame] at hdays
  rw [← hdate, Prod.mk.injEq, Prod.mk.injEq]
  refine ⟨?_, ?_, ?_⟩ <;> omega

end Calendar
