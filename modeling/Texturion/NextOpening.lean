/-
**When does the shop open next?**

`nextOpening` walks the days from today on, a fortnight far, and names the first window that is
still to open, with the words a greeting says it in.  It does not ask whether the shop is open now;
its callers have asked `isAfterHours` before.

Main result:

* `Hours.nextOpening_first` — **from a start at which the shop is shut, the opening found is the
  first**, and where none is found there is none.
-/

import Texturion.BusinessHours

namespace Hours

open JsText Calendar DailyWindows
open Calls (civilFromDays padStart toISOString)

/-! ### The search -/

def horizonDays : ℕ := 14

/-- `WEEKDAY_NAMES`. -/
def weekdayName : Weekday → String
  | .sun => "Sunday"
  | .mon => "Monday"
  | .tue => "Tuesday"
  | .wed => "Wednesday"
  | .thu => "Thursday"
  | .fri => "Friday"
  | .sat => "Saturday"

structure NextOpening where
  date : Text
  minutes : ℕ
  daysAhead : ℕ
  label : String
deriving DecidableEq

def spokenTime (minutes : ℕ) : String :=
  let hour24 := minutes / 60 % 24
  let minute := minutes % 60
  if hour24 = 0 ∧ minute = 0 then "midnight"
  else if hour24 = 12 ∧ minute = 0 then "noon"
  else
    let suffix := if hour24 < 12 then "am" else "pm"
    let hour12 := if hour24 % 12 = 0 then 12 else hour24 % 12
    if minute = 0 then toString hour12 ++ suffix
    else toString hour12 ++ ":" ++ padStart 2 minute ++ suffix

def openingLabel (daysAhead : ℕ) (weekday : Weekday) (minutes : ℕ) : String :=
  let time := "at " ++ spokenTime minutes
  if daysAhead = 0 then "later today " ++ time
  else if daysAhead = 1 then "tomorrow " ++ time
  else if daysAhead ≤ 6 then weekdayName weekday ++ " " ++ time
  else "in " ++ toString daysAhead ++ " days, " ++ time

def weekdayAfter (date : Text) (offset : ℕ) : Option Weekday :=
  match utcMidnight date with
  | none => none
  | some ms => weekdayOf ((ms + offset * 86400000) / 86400000)

def dateAfter (date : Text) (offset : ℕ) : Option Text :=
  match utcMidnight date with
  | none => none
  | some ms => some ((ofString (toISOString (ms + offset * 86400000))).take 10)

/-- The loop of `nextOpening`, over so many days from the one at `offset` on. -/
def openingSearch (businessHours : BusinessHours) (exceptions : Option (List HoursException))
    (today : Text) (now : ℕ) : ℕ → ℕ → Option NextOpening
  | 0, _ => none
  | days + 1, offset =>
    match dateAfter today offset, weekdayAfter today offset with
    | some date, some weekday =>
      match effectiveHours businessHours exceptions (some date) weekday with
      | none => openingSearch businessHours exceptions today now days (offset + 1)
      | some day =>
        match parseHhmm day.opens, parseHhmm day.closes with
        | some opens, some closes =>
          if opens = closes then
            openingSearch businessHours exceptions today now days (offset + 1)
          else if offset = 0 ∧ now ≥ opens then
            openingSearch businessHours exceptions today now days (offset + 1)
          else
            some { date := date, minutes := opens, daysAhead := offset,
                   label := openingLabel offset weekday opens }
        | _, _ => openingSearch businessHours exceptions today now days (offset + 1)
    | _, _ => none

def nextOpening (businessHours : Option BusinessHours) (instant : LocalInstant)
    (exceptions : Option (List HoursException)) : Option NextOpening :=
  match businessHours with
  | none => none
  | some hours =>
    if weekdays.all fun weekday => (hours weekday).isNone then none
    else
      match instant.date, instant.moment with
      | some today, some (_, now) =>
        openingSearch hours exceptions today now (horizonDays + 1) 0
      | _, _ => none

/-! ### Dates -/

theorem ofString_toString (n : ℕ) : ofString (toString n) = (Nat.toDigits 10 n).flatMap units := by
  rw [ofString, Nat.toString_eq_ofList_toDigits, String.toList_ofList]

theorem length_ofString_toString (n : ℕ) :
    (ofString (toString n)).length = (Nat.toDigits 10 n).length := by
  have hunits : ∀ c ∈ Nat.toDigits 10 n, (units c).length = 1 := by
    intro c hc
    have hdigit := Nat.isDigit_of_mem_toDigits (by decide) (by decide) hc
    have hlt : c.toNat < 0x10000 := by
      simp only [Char.isDigit, Bool.and_eq_true, decide_eq_true_eq] at hdigit
      have : c.toNat ≤ 57 := hdigit.2
      omega
    rw [units, if_pos hlt]
    rfl
  rw [ofString_toString, List.length_flatMap, List.map_congr_left hunits]
  simp

/-- The text `companyLocalDate` builds. -/
def shownDate (year month d : ℕ) : Text :=
  ofString (toString year ++ "-" ++ padStart 2 month ++ "-" ++ padStart 2 d)

theorem shownDate_eq_dateText {year month d : ℕ} (hy : 1000 ≤ year) (hy' : year ≤ 9999)
    (hm : month < 100) (hd : d < 100) : shownDate year month d = dateText year month d := by
  have hdash : ofString "-" = [0x2D] := by decide
  have hyear : ofString (toString year) = ofString (padStart 4 year) := by
    rw [ofString_toString, ofString_padStart, toDigits_four hy hy']
    rfl
  simp only [shownDate, ofString_append, hdash, hyear, ofString_padStart_four hy',
    ofString_padStart_two hm, ofString_padStart_two hd]
  rfl

theorem dateParts_shownDate {year month d : ℕ} (hy : year < 1000 ∨ 9999 < year)
    (hm : month < 100) (hd : d < 100) : dateParts (shownDate year month d) = none := by
  by_contra hsome
  obtain ⟨parts, hparts⟩ := Option.ne_none_iff_exists'.1 hsome
  have hlength := dateParts_length hparts
  have hdash : ofString "-" = [0x2D] := by decide
  simp only [shownDate, ofString_append, hdash, ofString_padStart_two hm,
    ofString_padStart_two hd, List.length_append, List.length_cons, List.length_nil,
    length_ofString_toString] at hlength
  have hfour : (Nat.toDigits 10 year).length ≤ 4 ↔ year < 10 ^ 4 :=
    Nat.length_toDigits_le_iff (by decide) (by decide)
  have hthree : (Nat.toDigits 10 year).length ≤ 3 ↔ year < 10 ^ 3 :=
    Nat.length_toDigits_le_iff (by decide) (by decide)
  omega

/-- The formatter writes a date in the years of four digits, and there it is the date
`toISOString` writes. -/
theorem localDate_eq (day : ℤ) :
    localDate day = if -354285 ≤ day ∧ day ≤ 2932896 then some (isoDate day) else none := by
  have hyears := four_digits_iff day
  have hmonth : (civilFromDays day).2.1 < 100 := by
    have := civilFromDays_month day
    omega
  have hd : (civilFromDays day).2.2 < 100 := by
    have := civilFromDays_day day
    omega
  have hshown : localDate day =
      if (dateParts (shownDate (civilFromDays day).1.toNat (civilFromDays day).2.1
          (civilFromDays day).2.2)).isSome then
        some (shownDate (civilFromDays day).1.toNat (civilFromDays day).2.1
          (civilFromDays day).2.2)
      else none := rfl
  rw [hshown]
  by_cases hplaced : -354285 ≤ day ∧ day ≤ 2932896
  · rw [if_pos hplaced, shownDate_eq_dateText (by omega) (by omega) hmonth hd,
      ← isoDate_eq_dateText hplaced.1 hplaced.2, dateParts_isoDate hplaced.1 hplaced.2]
    rfl
  · rw [if_neg hplaced, dateParts_shownDate (by omega) hmonth hd]
    rfl

variable {day : ℤ} {today : Text}

section

variable (h : localDate day = some today)
include h

theorem utcMidnight_of_localDate : utcMidnight today = some (day * 86400000) ∧ -354285 ≤ day := by
  rw [localDate_eq] at h
  split_ifs at h with hplaced
  rw [← Option.some.inj h]
  exact ⟨utcMidnight_isoDate hplaced.1 hplaced.2, hplaced.1⟩

theorem dateAfter_localDate
    (offset : ℕ) : dateAfter today offset = some (isoDate (day + offset)) := by
  have hms : day * 86400000 + (offset : ℤ) * 86400000 = (day + offset) * 86400000 := by ring
  simp only [dateAfter, (utcMidnight_of_localDate h).1, hms, isoDate]

theorem weekdayAfter_localDate
    (offset : ℕ) : weekdayAfter today offset = weekdayOf (day + offset) := by
  have hms : (day * 86400000 + (offset : ℤ) * 86400000) / 86400000 = day + offset := by omega
  simp only [weekdayAfter, (utcMidnight_of_localDate h).1, hms]

end

theorem dateParts_head {date : Text} {parts : ℕ × ℕ × ℕ} (h : dateParts date = some parts) :
    ∃ u rest, date = u :: rest ∧ 0x30 ≤ u := by
  unfold dateParts at h
  split at h
  · split_ifs at h with hdigits
    simp only [List.all_cons, isDigit, Bool.and_eq_true, decide_eq_true_eq] at hdigits
    exact ⟨_, _, rfl, hdigits.1.1.1.1⟩
  · cases h

/-- A text that starts with a sign comes before every date an exception can have. -/
theorem sign_lt_of_parseIsoDate {value date : Text} (h : parseIsoDate value = some date)
    (rest : Text) : 0x2B :: rest < date := by
  unfold parseIsoDate at h
  simp only at h
  cases hparts : dateParts (trim value) with
  | none =>
    rw [hparts] at h
    cases h
  | some parts =>
    obtain ⟨u, tail, htrim, hu⟩ := dateParts_head hparts
    have hdate : date = trim value := by
      rw [hparts] at h
      simp only [Option.ite_none_left_eq_some, Option.some.injEq] at h
      exact h.2.2.symm
    rw [hdate, htrim, List.cons_lt_cons_iff]
    left
    rw [UInt16.lt_iff_toNat_lt]
    have hu' := UInt16.le_iff_toNat_le.1 hu
    have hdigit : (0x30 : UInt16).toNat = 48 := rfl
    have hsign : (0x2B : UInt16).toNat = 43 := rfl
    omega

theorem exceptionRound_sign (rest : Text) (best : Option (HoursException × ℤ))
    (entry : HoursException) : exceptionRound (0x2B :: rest) best entry = best := by
  unfold exceptionRound
  cases hstart : parseIsoDate entry.start with
  | none => rfl
  | some start =>
    cases hlast : parseIsoDate entry.last with
    | none => rfl
    | some last =>
      have hbefore := sign_lt_of_parseIsoDate hstart rest
      simp only [hbefore, true_or, if_true, ite_self]

theorem exceptionFor_sign (exceptions : Option (List HoursException)) (rest : Text) :
    exceptionFor exceptions (0x2B :: rest) = none := by
  cases exceptions with
  | none => rfl
  | some entries =>
    have hfold : entries.foldl (exceptionRound (0x2B :: rest)) none = none := by
      induction entries with
      | nil => rfl
      | cons entry entries ih => rw [List.foldl_cons, exceptionRound_sign, ih]
    rw [exceptionFor, hfold]
    rfl

variable (businessHours : BusinessHours)

section

variable (exceptions : Option (List HoursException))

/-- On the days of the walk the search takes the window `isAfterHours` takes, also past the last day
that has a date. -/
theorem effectiveHours_isoDate (weekday : Weekday) (h : -354285 ≤ day) :
    effectiveHours businessHours exceptions (some (isoDate day)) weekday =
      effectiveHours businessHours exceptions (localDate day) weekday := by
  rw [localDate_eq]
  by_cases hlast : day ≤ 2932896
  · rw [if_pos ⟨h, hlast⟩]
  · obtain ⟨rest, hsign⟩ := isoDate_far (lt_of_not_ge hlast)
    rw [if_neg fun hplaced => hlast hplaced.2, hsign]
    simp only [effectiveHours, Option.bind_some, exceptionFor_sign, Option.bind_none]

/-! ### The loop -/

section

variable (htoday : localDate day = some today)
include htoday

theorem openingSearch_succ (now days offset : ℕ) :
    (∃ opens label, opensOn (timetable businessHours exceptions) day now offset = some opens ∧
      openingSearch businessHours exceptions today now (days + 1) offset =
        some ⟨isoDate (day + offset), opens, offset, label⟩) ∨
    (opensOn (timetable businessHours exceptions) day now offset = none ∧
      openingSearch businessHours exceptions today now (days + 1) offset =
        openingSearch businessHours exceptions today now days (offset + 1)) := by
  have hplaced := (utcMidnight_of_localDate htoday).2
  obtain ⟨weekday, hweekday⟩ := weekdayOf_isSome (day + offset)
  have htable : timetable businessHours exceptions (day + offset) =
      (effectiveHours businessHours exceptions (localDate (day + offset)) weekday).bind
        DayHours.window := by
    rw [timetable, hweekday, Option.bind_some]
  rw [← effectiveHours_isoDate _ _ _ (by omega)] at htable
  simp only [openingSearch, dateAfter_localDate htoday, weekdayAfter_localDate htoday, hweekday,
    opensOn]
  cases hours : effectiveHours businessHours exceptions (some (isoDate (day + offset))) weekday with
  | none =>
    rw [hours] at htable
    right
    simp [htable]
  | some hoursOf =>
    rw [hours, Option.bind_some] at htable
    dsimp only
    rw [htable]
    cases hw : hoursOf.window with
    | some w =>
      obtain ⟨hopens, hcloses⟩ := DayHours.window_eq_some.1 hw
      simp only [hopens, hcloses, if_neg w.differ]
      by_cases hpassed : offset = 0 ∧ now ≥ w.opens
      · right
        exact ⟨if_pos hpassed, if_pos hpassed⟩
      · left
        exact ⟨w.opens, _, if_neg hpassed, if_neg hpassed⟩
    | none =>
      right
      refine ⟨rfl, ?_⟩
      cases hopens : parseHhmm hoursOf.opens with
      | none => rfl
      | some opens =>
        cases hcloses : parseHhmm hoursOf.closes with
        | none => rfl
        | some closes =>
          have heq := DayHours.eq_of_window_eq_none hw hopens hcloses
          simp only [heq, if_true]

theorem openingSearch_eq (now days offset : ℕ) :
    (openingSearch businessHours exceptions today now days offset).map
        (fun opening => (opening.daysAhead, opening.minutes)) =
      firstOpening (timetable businessHours exceptions) day now days offset := by
  induction days generalizing offset with
  | zero => rfl
  | succ days ih =>
    rcases openingSearch_succ businessHours exceptions htoday now days offset with
      ⟨opens, label, hopens, hsearch⟩ | ⟨hopens, hsearch⟩
    · rw [hsearch, firstOpening, hopens]
      rfl
    · rw [hsearch, firstOpening, hopens]
      exact ih (offset + 1)

theorem openingSearch_date {now days offset : ℕ} {opening : NextOpening}
    (h : openingSearch businessHours exceptions today now days offset = some opening) :
    opening.date = isoDate (day + opening.daysAhead) := by
  induction days generalizing offset with
  | zero => cases h
  | succ days ih =>
    rcases openingSearch_succ businessHours exceptions htoday now days offset with
      ⟨opens, label, -, hsearch⟩ | ⟨-, hsearch⟩
    · rw [hsearch] at h
      rw [← Option.some.inj h]
    · rw [hsearch] at h
      exact ih h

end

end

/-! ### The first opening -/

def Off (businessHours : Option BusinessHours) : Prop :=
  ∀ hours ∈ businessHours, ∀ weekday, hours weekday = none

/-- **An opening is the first**: it is the local time `moment`, within the horizon; the shop is
open then, and shut at every minute from the start up to it.  Left out are the minutes after
midnight of the day found, in so far as its own window is an overnight one that closes later than
they are. -/
structure FirstOpening (hours : BusinessHours) (exceptions : Option (List HoursException))
    (start : LocalTime) (opening : NextOpening) (moment : LocalTime) : Prop where
  within : opening.daysAhead ≤ horizonDays
  day : moment.day = start.day + opening.daysAhead
  minute : moment.minute = opening.minutes
  date : opening.date = isoDate moment.day
  open_then : isAfterHours hours moment.read exceptions = false
  shut_before : ∀ t : LocalTime, start.clock ≤ t.clock → t.clock < moment.clock →
    isAfterHours hours t.read exceptions = true ∨
      (0 < opening.daysAhead ∧ t.day = moment.day ∧
        EarlyOn (timetable hours exceptions) moment.day t.minute)

theorem isAfterHours_eq_true_iff (exceptions : Option (List HoursException)) (t : LocalTime) :
    isAfterHours businessHours t.read exceptions = true ↔
      ¬ Wrapped (timetable businessHours exceptions) t.day t.minute := by
  rw [← isAfterHours_eq_false_iff, Bool.not_eq_false]

theorem firstOpening_of_openingSearch {hours : BusinessHours}
    {exceptions : Option (List HoursException)} {start : LocalTime}
    (htoday : localDate start.day = some today)
    (shut : ¬ Wrapped (timetable hours exceptions) start.day start.minute) {opening : NextOpening}
    (h : openingSearch hours exceptions today start.minute (horizonDays + 1) 0 = some opening) :
    ∃ moment, FirstOpening hours exceptions start opening moment := by
  have hfirst := openingSearch_eq hours exceptions htoday start.minute (horizonDays + 1) 0
  rw [h, Option.map_some] at hfirst
  obtain ⟨hwithin, hminutes, hopen, hbefore⟩ :=
    firstOpening_some start.minute_lt shut hfirst.symm
  have hera := start.common_era
  refine ⟨⟨start.day + opening.daysAhead, opening.minutes, by omega, hminutes⟩,
    by omega, rfl, rfl, openingSearch_date hours exceptions htoday h, ?_, ?_⟩
  · rw [isAfterHours_eq_false_iff]
    exact hopen
  · intro t hfrom hto
    by_cases hshut : isAfterHours hours t.read exceptions = true
    · exact Or.inl hshut
    · right
      rw [isAfterHours_eq_true_iff, not_not] at hshut
      exact hbefore t.day t.minute t.minute_lt hfrom hto hshut

/-- Where the loop finds nothing from a shut start, the shop stays shut. -/
theorem shut_of_openingSearch {hours : BusinessHours} {exceptions : Option (List HoursException)}
    {start : LocalTime} (htoday : localDate start.day = some today)
    (shut : ¬ Wrapped (timetable hours exceptions) start.day start.minute)
    (h : openingSearch hours exceptions today start.minute (horizonDays + 1) 0 = none)
    (t : LocalTime) (hfrom : start.clock ≤ t.clock) (hto : t.day ≤ start.day + horizonDays) :
    isAfterHours hours t.read exceptions = true := by
  have hnone := openingSearch_eq hours exceptions htoday start.minute (horizonDays + 1) 0
  rw [h, Option.map_none] at hnone
  rw [isAfterHours_eq_true_iff]
  refine firstOpening_none start.minute_lt shut hnone.symm t.day t.minute t.minute_lt hfrom ?_
  push_cast
  omega

/-- **From a start at which the shop is shut, the opening found is the first.**  Where none is
found the schedule is off, or the start has no date `YYYY-MM-DD`, or the shop is shut at every
minute up to the end of the horizon. -/
theorem nextOpening_first (businessHours : Option BusinessHours)
    (exceptions : Option (List HoursException)) (start : LocalTime)
    (shut : ∀ hours ∈ businessHours, isAfterHours hours start.read exceptions = true) :
    match nextOpening businessHours start.read exceptions with
    | some opening =>
      ∃ hours ∈ businessHours, ∃ moment, FirstOpening hours exceptions start opening moment
    | none =>
      Off businessHours ∨ localDate start.day = none ∨
        ∀ hours ∈ businessHours, ∀ t : LocalTime, start.clock ≤ t.clock →
          t.day ≤ start.day + horizonDays → isAfterHours hours t.read exceptions = true := by
  cases businessHours with
  | none =>
    left
    intro hours hmem
    cases hmem
  | some hours =>
    have hshut := (isAfterHours_eq_true_iff hours exceptions start).1 (shut hours rfl)
    unfold nextOpening
    by_cases hoff : (weekdays.all fun weekday => (hours weekday).isNone) = true
    · simp only [hoff, if_true]
      left
      intro hours' hmem weekday
      cases hmem
      have hkey : ∀ weekday, weekday ∈ weekdays := by
        intro weekday
        cases weekday <;> decide
      simpa using List.all_eq_true.1 hoff weekday (hkey weekday)
    · simp only [hoff]
      cases htoday : localDate start.day with
      | none =>
        have hdate : start.read.date = none := by rw [LocalTime.read_date, htoday]
        simp only [hdate]
        exact Or.inr (Or.inl trivial)
      | some today =>
        have hdate : start.read.date = some today := by rw [LocalTime.read_date, htoday]
        obtain ⟨weekday, hweekday⟩ := weekdayOf_isSome start.day
        have hmoment : start.read.moment = some (weekday, start.minute) := by
          rw [LocalTime.read_moment, hweekday, Option.map_some]
        simp only [hdate, hmoment]
        cases hsearch :
            openingSearch hours exceptions today start.minute (horizonDays + 1) 0 with
        | some opening =>
          exact ⟨hours, rfl, firstOpening_of_openingSearch htoday hshut hsearch⟩
        | none =>
          right
          right
          intro hours' hmem t hfrom hto
          cases hmem
          exact shut_of_openingSearch htoday hshut hsearch t hfrom hto

/-- Ten o'clock on the morning after Wednesday 1 July 2026. -/
def thursdayMorning : LocalTime :=
  { thursdayAtOne with minute := 600, minute_lt := by decide }

theorem nextOpening_first_wednesday :
    nextOpening (some wednesdayNights) thursdayMorning.read none =
        some ⟨ofString "2026-07-08", 1080, 6, "Wednesday at 6pm"⟩ ∧
      ∃ hours ∈ some wednesdayNights, ∃ moment,
        FirstOpening hours none thursdayMorning
          ⟨ofString "2026-07-08", 1080, 6, "Wednesday at 6pm"⟩ moment := by
  have hfound : nextOpening (some wednesdayNights) thursdayMorning.read none =
      some ⟨ofString "2026-07-08", 1080, 6, "Wednesday at 6pm"⟩ := by decide +kernel
  have hshut : ∀ hours ∈ some wednesdayNights,
      isAfterHours hours thursdayMorning.read none = true := by
    intro hours hmem
    cases hmem
    decide +kernel
  have hfirst := nextOpening_first (some wednesdayNights) none thursdayMorning hshut
  rw [hfound] at hfirst
  exact ⟨hfound, hfirst⟩

/-- Eight in the evening of that Wednesday, when the shop is open. -/
def wednesdayEvening : LocalTime where
  day := 20635
  minute := 1200
  common_era := by decide
  minute_lt := by decide

/-- Asked while the shop is open, it names the opening after. -/
theorem opening_named_while_open :
    ¬ ∀ (businessHours : Option BusinessHours) (exceptions : Option (List HoursException))
      (start : LocalTime),
        match nextOpening businessHours start.read exceptions with
        | some opening =>
          ∃ hours ∈ businessHours, ∃ moment : LocalTime,
            moment.day = start.day + opening.daysAhead ∧ moment.minute = opening.minutes ∧
              isAfterHours hours moment.read exceptions = false ∧
              ∀ t : LocalTime, start.clock ≤ t.clock → t.clock < moment.clock →
                isAfterHours hours t.read exceptions = true
        | none =>
          Off businessHours ∨
            ∀ hours ∈ businessHours, ∀ t : LocalTime, start.clock ≤ t.clock →
              t.day ≤ start.day + horizonDays →
                isAfterHours hours t.read exceptions = true := by
  intro h
  have hfound : nextOpening (some wednesdayNights) wednesdayEvening.read none =
      some ⟨ofString "2026-07-08", 1080, 7, "in 7 days, at 6pm"⟩ := by decide +kernel
  have hopen : isAfterHours wednesdayNights wednesdayEvening.read none = false := by
    decide +kernel
  have hclaim := h (some wednesdayNights) none wednesdayEvening
  rw [hfound] at hclaim
  obtain ⟨hours, hmem, moment, hday, -, -, hshut⟩ := hclaim
  cases hmem
  have hbefore : wednesdayEvening.clock < moment.clock := by
    have hstart : wednesdayEvening.day = 20635 := rfl
    have hminute : wednesdayEvening.minute = 1200 := rfl
    unfold LocalTime.clock
    rw [hday, hstart, hminute]
    dsimp only
    omega
  rw [hshut wednesdayEvening (le_refl _) hbefore] at hopen
  cases hopen

end Hours
