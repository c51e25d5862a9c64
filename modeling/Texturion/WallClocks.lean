/-
**Wall clocks and instants.**

What `Date.UTC` makes of a wall clock and what a zone's clock reads at an instant.  A zone is its
offset from UTC as a function of the instant: shorter than a day, in whole units, and changing at
most once in any four days.  The years that are read are those of the calendar without an era, and
`Date.UTC` takes a year below 100 as one of the twentieth century.

Main result:

* `WallClocks.dateUTC_fieldsAt` — what is read from 100 on, `Date.UTC` takes back.
-/

import Texturion.Months

namespace WallClocks

open Calendar
open Calls (civilFromDays)

def dayMs : ℤ := 86400000

/-- A wall clock, to the millisecond. -/
structure Fields where
  year : ℤ
  month : ℕ
  day : ℕ
  hour : ℕ
  minute : ℕ
  second : ℕ
  millisecond : ℕ
  deriving DecidableEq

/-- `getUTCFullYear` and the others. -/
def fieldsAt (ms : ℤ) : Fields :=
  let date := civilFromDays (ms / dayMs)
  let rest := (ms % dayMs).toNat
  ⟨date.1, date.2.1, date.2.2, rest / 3600000, rest / 60000 % 60, rest / 1000 % 60, rest % 1000⟩

/-- The instant of a wall clock; a field that runs over carries on. -/
def instantOf (f : Fields) : ℤ :=
  (monthStart (f.year * 12 + f.month - 1) + f.day - 1) * dayMs + f.hour * 3600000 +
    f.minute * 60000 + f.second * 1000 + f.millisecond

def dateUTC (f : Fields) : ℤ :=
  instantOf { f with year := if 0 ≤ f.year ∧ f.year ≤ 99 then 1900 + f.year else f.year }

theorem instantOf_fieldsAt (ms : ℤ) : instantOf (fieldsAt ms) = ms := by
  obtain ⟨⟨year, month, day⟩, hdate⟩ : ∃ date, civilFromDays (ms / dayMs) = date := ⟨_, rfl⟩
  obtain ⟨hday, -⟩ := civilFromDays_month_start hdate
  simp only [instantOf, fieldsAt, hdate]
  rw [← hday]
  unfold dayMs
  omega

theorem fieldsAt_injective {s t : ℤ} (h : fieldsAt s = fieldsAt t) : s = t := by
  rw [← instantOf_fieldsAt s, h, instantOf_fieldsAt]

theorem dateUTC_of_year {f : Fields} (h : 100 ≤ f.year) : dateUTC f = instantOf f := by
  rw [dateUTC, if_neg (by omega)]

theorem dateUTC_fieldsAt {ms : ℤ} (h : 100 ≤ (fieldsAt ms).year) : dateUTC (fieldsAt ms) = ms := by
  rw [dateUTC_of_year h, instantOf_fieldsAt]

/-- A year has begun by three days before the end of the next one's first. -/
theorem year_of_near {s t year : ℤ} (h : year + 1 ≤ (fieldsAt t).year) (hs : t - 3 * dayMs ≤ s) :
    year ≤ (fieldsAt s).year := by
  refine (year_ge_iff year _).2 ?_
  have hday := (year_ge_iff (year + 1) _).1 h
  have hjan : ∀ y : ℤ, daysFromCivil y 1 1 = monthStart (y * 12) := by
    intro y
    rw [monthStart, show y * 12 / 12 = y by omega, show (y * 12 % 12).toNat = 0 by omega]
  have hnext := (monthStart_succ (year * 12)).1
  have hmono := monthStart_strictMono.monotone
    (show year * 12 + 1 ≤ (year + 1) * 12 by omega)
  rw [hjan] at hday ⊢
  unfold dayMs at *
  omega

/-- The offset of a zone from UTC. -/
structure Offsets (unit : ℤ) where
  offset : ℤ → ℤ
  units : ∀ t, unit ∣ offset t
  short : ∀ t, -dayMs < offset t ∧ offset t < dayMs
  isolated : ∀ s, ∃ c, (∀ t, s ≤ t → t < c → offset t = offset s) ∧
    ∀ t, c ≤ t → t ≤ s + 4 * dayMs → offset t = offset (s + 4 * dayMs)

namespace Offsets

variable {unit : ℤ} (z : Offsets unit)

/-- What the zone's clock reads, as a number of milliseconds. -/
def clock (t : ℤ) : ℤ := t + z.offset t

/-- The change about an instant. -/
theorem around (T : ℤ) :
    ∃ c a b : ℤ, (unit ∣ a ∧ -dayMs < a ∧ a < dayMs) ∧ (unit ∣ b ∧ -dayMs < b ∧ b < dayMs) ∧
      (∀ t, T - 2 * dayMs ≤ t → t < c → z.offset t = a) ∧
      ∀ t, c ≤ t → t ≤ T + 2 * dayMs → z.offset t = b := by
  obtain ⟨c, hbefore, hafter⟩ := z.isolated (T - 2 * dayMs)
  refine ⟨c, z.offset (T - 2 * dayMs), z.offset (T - 2 * dayMs + 4 * dayMs),
    ⟨z.units _, z.short _⟩, ⟨z.units _, z.short _⟩, hbefore, fun t hct ht => ?_⟩
  exact hafter t hct (by omega)

end Offsets

end WallClocks
