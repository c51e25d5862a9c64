/-
**Is the shop open?**

A shop's hours are a weekly schedule, a window `HH:MM` to `HH:MM` for each weekday that has one,
and a list of exceptions that replace the window on the dates they cover.  `isAfterHours` answers
for one minute of one local date.  Read as what the settings page shows, the hours are intervals:
a window that closes before it opens runs on into the next calendar day.

Main result:

* `Hours.isAfterHours_interval_iff` — **where the answer is the interval's**.
-/

import Texturion.Calendar
import Texturion.DailyWindows

namespace Hours

open JsText Calendar DailyWindows
open Calls (civilFromDays padStart)

/-! ### The stored hours -/

inductive Weekday where
  | sun
  | mon
  | tue
  | wed
  | thu
  | fri
  | sat
deriving DecidableEq

def weekdays : List Weekday := [.sun, .mon, .tue, .wed, .thu, .fri, .sat]

/-- `DayHours`: the two texts of a window. -/
structure DayHours where
  opens : Text
  closes : Text
deriving DecidableEq

/-- `BusinessHours`: a weekday's key is absent, or holds `null`, or a window. -/
abbrev BusinessHours := Weekday → Option (Option DayHours)

/-- `HoursException`, from its first date `start` to its `last`. -/
structure HoursException where
  start : Text
  last : Text
  hours : Option DayHours
deriving DecidableEq

/-- `parseHhmm`: minutes since midnight. -/
def parseHhmm (value : Text) : Option ℕ :=
  match trim value with
  | [h1, h2, colon, m1, m2] =>
    if [h1, h2, m1, m2].all isDigit && colon == 0x3A then
      let hours := digitValue h1 * 10 + digitValue h2
      let minutes := digitValue m1 * 10 + digitValue m2
      if hours > 23 ∨ minutes > 59 then none else some (hours * 60 + minutes)
    else none
  | _ => none

/-- `parseIsoDate`: the trimmed text of a date the calendar has.  `Date.UTC` reads a year below 100
as one of the twentieth century. -/
def parseIsoDate (value : Text) : Option Text :=
  let trimmed := trim value
  match dateParts trimmed with
  | none => none
  | some (y, m, d) =>
    if m < 1 ∨ m > 12 ∨ d < 1 ∨ d > 31 then none
    else
      let probe := civilFromDays (daysFromCivil (if y ≤ 99 then 1900 + y else y) m d)
      if probe.2.1 ≠ m ∨ probe.2.2 ≠ d then none else some trimmed

/-- One round of the loop of `exceptionFor`: the best entry so far, with its span. -/
def exceptionRound (date : Text) (best : Option (HoursException × ℤ)) (entry : HoursException) :
    Option (HoursException × ℤ) :=
  match parseIsoDate entry.start, parseIsoDate entry.last with
  | some start, some last =>
    if last < start then best
    else if date < start ∨ last < date then best
    else
      match utcMidnight last, utcMidnight start with
      | some lastMs, some startMs =>
        match best with
        | none => some (entry, lastMs - startMs)
        | some (_, bestSpan) =>
          if lastMs - startMs < bestSpan then some (entry, lastMs - startMs) else best
      | _, _ => best
  | _, _ => best

/-- `exceptionFor`: of the exceptions that cover a date, the one of the shortest span. -/
def exceptionFor (exceptions : Option (List HoursException)) (date : Text) :
    Option HoursException :=
  match exceptions with
  | none => none
  | some entries => (entries.foldl (exceptionRound date) none).map Prod.fst

/-- `exception ? exception.hours : businessHours[weekday]`: a date's exception replaces the
weekday's window. -/
def effectiveHours (businessHours : BusinessHours) (exceptions : Option (List HoursException))
    (date : Option Text) (weekday : Weekday) : Option DayHours :=
  match date.bind (exceptionFor exceptions) with
  | some exception => exception.hours
  | none => (businessHours weekday).join

/-- What the platform's formatters say of an instant in the company's timezone:
`companyLocalDate`, `companyLocalMoment`. -/
structure LocalInstant where
  date : Option Text
  moment : Option (Weekday × ℕ)

def isAfterHours (businessHours : BusinessHours) (instant : LocalInstant)
    (exceptions : Option (List HoursException)) : Bool :=
  match instant.moment with
  | none => false
  | some (weekday, now) =>
    match effectiveHours businessHours exceptions instant.date weekday with
    | none => true
    | some day =>
      match parseHhmm day.opens, parseHhmm day.closes with
      | some opens, some closes =>
        if opens = closes then true
        else if closes > opens then !(decide (now ≥ opens) && decide (now < closes))
        -- an overnight window, as [open, 24:00) ∪ [00:00, close) of this day
        else !(decide (now ≥ opens) || decide (now < closes))
      | _, _ => true

/-! ### Local time -/

/-- A local date, as the number of its day, and a minute of it.  The dates are those of the common
era: of an earlier one the platform's formatters do not name the era. -/
structure LocalTime where
  day : ℤ
  minute : ℕ
  common_era : -719162 ≤ day
  minute_lt : minute < 1440

def LocalTime.clock (t : LocalTime) : ℤ := t.day * (1440 : ℕ) + t.minute

/-- `WEEKDAYS[getUTCDay()]`. -/
def weekdayOf (day : ℤ) : Option Weekday := weekdays[utcDay day]?

/-- `companyLocalDate` on a day: the year as it is, month and day in two digits, and nothing where
that is not `YYYY-MM-DD`. -/
def localDate (day : ℤ) : Option Text :=
  let (year, month, d) := civilFromDays day
  let out := ofString (toString year.toNat ++ "-" ++ padStart 2 month ++ "-" ++ padStart 2 d)
  if (dateParts out).isSome then some out else none

def LocalTime.read (t : LocalTime) : LocalInstant where
  date := localDate t.day
  moment := (weekdayOf t.day).map fun weekday => (weekday, t.minute)

@[simp] theorem LocalTime.read_date (t : LocalTime) : t.read.date = localDate t.day := by
  simp only [LocalTime.read]

@[simp] theorem LocalTime.read_moment (t : LocalTime) :
    t.read.moment = (weekdayOf t.day).map fun weekday => (weekday, t.minute) := rfl

theorem weekdayOf_isSome (day : ℤ) : ∃ weekday, weekdayOf day = some weekday := by
  have h : utcDay day < weekdays.length := by
    unfold utcDay weekdays
    simp only [List.length_cons, List.length_nil]
    omega
  exact ⟨_, List.getElem?_eq_getElem h⟩

/-! ### Windows -/

theorem parseHhmm_lt {value : Text} {minutes : ℕ} (h : parseHhmm value = some minutes) :
    minutes < 1440 := by
  unfold parseHhmm at h
  simp only at h
  split at h
  · split_ifs at h with hdigits hrange
    cases h
    omega
  · cases h

/-- The window of two texts, if they make one. -/
def DayHours.window (day : DayHours) : Option (Window 1440) :=
  (parseHhmm day.opens).bind fun opens =>
    (parseHhmm day.closes).bind fun closes => Window.ofMinutes opens closes

theorem DayHours.window_eq_some {day : DayHours} {w : Window 1440} :
    day.window = some w ↔
      parseHhmm day.opens = some w.opens ∧ parseHhmm day.closes = some w.closes := by
  unfold DayHours.window
  simp only [Option.bind_eq_some_iff, Window.ofMinutes_eq_some]
  constructor
  · rintro ⟨opens, hopens, closes, hcloses, rfl, rfl⟩
    exact ⟨hopens, hcloses⟩
  · rintro ⟨hopens, hcloses⟩
    exact ⟨_, hopens, _, hcloses, rfl, rfl⟩

theorem DayHours.eq_of_window_eq_none {day : DayHours} (h : day.window = none) {opens closes : ℕ}
    (hopens : parseHhmm day.opens = some opens) (hcloses : parseHhmm day.closes = some closes) :
    opens = closes := by
  unfold DayHours.window at h
  rw [hopens, hcloses] at h
  simp only [Option.bind_some, Window.ofMinutes, dite_eq_right_iff, reduceCtorEq, imp_false] at h
  by_contra hne
  exact h ⟨parseHhmm_lt hopens, parseHhmm_lt hcloses, hne⟩

/-- **Every day's effective window**: of the exception that covers it, or else of its weekday. -/
def timetable (businessHours : BusinessHours) (exceptions : Option (List HoursException))
    (day : ℤ) : Option (Window 1440) :=
  (weekdayOf day).bind fun weekday =>
    (effectiveHours businessHours exceptions (localDate day) weekday).bind DayHours.window

/-! ### The answer -/

/-- The comparisons of `isAfterHours`, on a window. -/
theorem afterHours_comparisons (w : Window 1440) (now : ℕ) :
    (if w.closes > w.opens then !(decide (now ≥ w.opens) && decide (now < w.closes))
      else !(decide (now ≥ w.opens) || decide (now < w.closes))) = false ↔
      w.Late now ∨ w.Early now := by
  have hdiffer := w.differ
  unfold Window.Late Window.Early Window.Overnight
  split_ifs with h
  · simp only [Bool.not_eq_false', Bool.and_eq_true, decide_eq_true_eq]
    omega
  · simp only [Bool.not_eq_false', Bool.or_eq_true, decide_eq_true_eq]
    omega

/-- **The answer looks at one day only**: both parts of the window of the day itself. -/
theorem isAfterHours_eq_false_iff (businessHours : BusinessHours)
    (exceptions : Option (List HoursException)) (t : LocalTime) :
    isAfterHours businessHours t.read exceptions = false ↔
      Wrapped (timetable businessHours exceptions) t.day t.minute := by
  obtain ⟨weekday, hweekday⟩ := weekdayOf_isSome t.day
  have htable : timetable businessHours exceptions t.day =
      (effectiveHours businessHours exceptions (localDate t.day) weekday).bind
        DayHours.window := by
    rw [timetable, hweekday, Option.bind_some]
  simp only [isAfterHours, LocalTime.read_date, LocalTime.read_moment, hweekday, Option.map_some]
  cases hours : effectiveHours businessHours exceptions (localDate t.day) weekday with
  | none =>
    rw [hours] at htable
    simp [not_wrapped htable]
  | some day =>
    rw [hours, Option.bind_some] at htable
    dsimp only
    cases hw : day.window with
    | some w =>
      rw [wrapped_iff (htable.trans hw), ← afterHours_comparisons]
      obtain ⟨hopens, hcloses⟩ := DayHours.window_eq_some.1 hw
      simp only [hopens, hcloses, if_neg w.differ]
    | none =>
      have hshut := not_wrapped (htable.trans hw) t.minute
      cases hopens : parseHhmm day.opens with
      | none => simp [hshut]
      | some opens =>
        cases hcloses : parseHhmm day.closes with
        | none => simp [hshut]
        | some closes => simp [DayHours.eq_of_window_eq_none hw hopens hcloses, hshut]

/-- **Where the answer is the interval's.**  The answer takes the part of an overnight window after
midnight on the day the window opens.  So it is open exactly when the instant lies in some day's
interval, if and only if the day's own window has opened by then and runs on to midnight or past
the minute, or the parts after midnight of the day's window and of the window of the day before
agree at that minute. -/
theorem isAfterHours_interval_iff (businessHours : BusinessHours)
    (exceptions : Option (List HoursException)) (t : LocalTime) :
    (isAfterHours businessHours t.read exceptions = false ↔
        OpenAt (timetable businessHours exceptions) t.clock) ↔
      LateOn (timetable businessHours exceptions) t.day t.minute ∨
        (EarlyOn (timetable businessHours exceptions) t.day t.minute ↔
          EarlyOn (timetable businessHours exceptions) (t.day - 1) t.minute) := by
  rw [isAfterHours_eq_false_iff]
  exact wrapped_iff_openAt_iff t.minute_lt

/-- A shop open on Wednesday nights only, from six until two. -/
def wednesdayNights : BusinessHours
  | .wed => some (some ⟨ofString "18:00", ofString "02:00"⟩)
  | _ => none

/-- One o'clock on the night after Wednesday 1 July 2026. -/
def thursdayAtOne : LocalTime where
  day := 20636
  minute := 60
  common_era := by decide
  minute_lt := by decide

/-- It is shut there for the rest of that window. -/
theorem overnight_tail_shut :
    ¬ ∀ (businessHours : BusinessHours) (exceptions : Option (List HoursException))
      (t : LocalTime),
        isAfterHours businessHours t.read exceptions = false ↔
          OpenAt (timetable businessHours exceptions) t.clock := by
  intro h
  have hopen : OpenAt (timetable wednesdayNights none) thursdayAtOne.clock := by
    have hwindow : timetable wednesdayNights none 20635 =
        some ⟨1080, 120, by decide, by decide, by decide⟩ := by decide +kernel
    exact ⟨20635, _, hwindow, by decide, by decide⟩
  have hshut : isAfterHours wednesdayNights thursdayAtOne.read none = true := by decide +kernel
  rw [← h, hshut] at hopen
  cases hopen

end Hours
