/-
**The destination's clock.**

`apps/api/src/messaging/destination-clock.ts`: what time it is where the customer is, and whether a
text may go there.  The clock of a zone is asked of the runtime, so a zone is here what the
runtime's formatters answer, and everything is proved of any such answers; what a result relies on
is stated where it does.

Main result:

* `DestinationClock.lastSendableInstantBefore_legal` — and ends at an instant that is not quiet.
-/

import Mathlib.Data.Int.Order.Basic
import Mathlib.Order.Basic

namespace DestinationClock

/-- What the runtime's formatters answer for a zone: the hour (`null` for a zone it does not know),
the short name of the weekday, and the minute. -/
structure Zone where
  localHourInZone : ℤ → Option ℕ
  weekdayShort : ℤ → String
  localMinuteIn : ℤ → ℕ

def quietHoursStart : ℕ := 20
def quietHoursEnd : ℕ := 8

namespace Zone

/-- `localHourIn`: a zone the runtime rejects reads as hour 0. -/
def localHourIn (z : Zone) (t : ℤ) : ℕ := (z.localHourInZone t).getD 0

/-- `localWeekdayIn`: an unknown name reads as Sunday. -/
def localWeekdayIn (z : Zone) (t : ℤ) : ℕ :=
  (["Sun", "Mon", "Tue", "Wed", "Thu", "Fri", "Sat"].idxOf? (z.weekdayShort t)).getD 0

end Zone

def quietOpenHourFor (region : Option String) (weekday : ℕ) : ℕ :=
  if region = some "TX" ∧ weekday = 0 then 12 else quietHoursEnd

def isQuietAt (z : Zone) (region : Option String) (t : ℤ) : Bool :=
  decide (z.localHourIn t ≥ quietHoursStart) ||
    decide (z.localHourIn t < quietOpenHourFor region (z.localWeekdayIn t))

variable {z : Zone} {region : Option String} {t : ℤ}

theorem isQuietAt_eq_false :
    isQuietAt z region t = false ↔ z.localHourIn t < quietHoursStart ∧
      quietOpenHourFor region (z.localWeekdayIn t) ≤ z.localHourIn t := by
  simp [isQuietAt]

def hourMs : ℤ := 3600000
def minuteMs : ℤ := 60000

/-- `lastSendableInstantBefore` from a cursor at a full hour: one hour back, at most `fuel` times,
until it is not quiet, and then to the top of the local hour. -/
def stepBack (z : Zone) (region : Option String) : ℕ → ℤ → Option ℤ
  | 0, _ => none
  | fuel + 1, cursor =>
      if isQuietAt z region (cursor - hourMs) then stepBack z region fuel (cursor - hourMs)
      else some (cursor - hourMs - z.localMinuteIn (cursor - hourMs) * minuteMs)

def lastSendableInstantBefore (z : Zone) (region : Option String) (t : ℤ) : Option ℤ :=
  if ¬isQuietAt z region t then some t else stepBack z region 26 (t - t % hourMs)

theorem stepBack_le {fuel : ℕ} {cursor at_ : ℤ}
    (h : stepBack z region fuel cursor = some at_) : at_ ≤ cursor := by
  induction fuel generalizing cursor with
  | zero => simp [stepBack] at h
  | succ fuel ih =>
      unfold stepBack at h
      split_ifs at h
      · have hback := ih h
        simp only [hourMs] at hback
        omega
      · simp only [Option.some.injEq] at h
        have hminute : (0 : ℤ) ≤ z.localMinuteIn (cursor - hourMs) := Int.natCast_nonneg _
        simp only [hourMs, minuteMs] at h hminute
        omega

/-- **The walk never goes forward.** -/
theorem lastSendableInstantBefore_le {t at_ : ℤ}
    (h : lastSendableInstantBefore z region t = some at_) : at_ ≤ t := by
  unfold lastSendableInstantBefore at h
  split_ifs at h
  · have hback := stepBack_le h
    have hfloor : 0 ≤ t % hourMs := Int.emod_nonneg _ (by decide)
    omega
  · simp only [Option.some.injEq] at h
    exact h.ge

/-- Going to the top of the local hour in the daytime leaves the hour and the day as they are: the
clocks change at night, and on the hour. -/
def Zone.WholeHours (z : Zone) (region : Option String) : Prop :=
  ∀ t, isQuietAt z region t = false →
    z.localHourIn (t - z.localMinuteIn t * minuteMs) = z.localHourIn t ∧
      z.localWeekdayIn (t - z.localMinuteIn t * minuteMs) = z.localWeekdayIn t

theorem Zone.WholeHours.top (hz : z.WholeHours region) (h : isQuietAt z region t = false) :
    isQuietAt z region (t - z.localMinuteIn t * minuteMs) = false := by
  obtain ⟨hhour, hweekday⟩ := hz t h
  rw [isQuietAt_eq_false, hhour, hweekday]
  exact isQuietAt_eq_false.1 h

theorem stepBack_legal (hz : z.WholeHours region) {fuel : ℕ} {cursor at_ : ℤ}
    (h : stepBack z region fuel cursor = some at_) : isQuietAt z region at_ = false := by
  induction fuel generalizing cursor with
  | zero => simp [stepBack] at h
  | succ fuel ih =>
      unfold stepBack at h
      split_ifs at h with hquiet
      · exact ih h
      · simp only [Option.some.injEq] at h
        rw [← h]
        exact hz.top (by simpa using hquiet)

/-- **The walk ends at an instant that is not quiet.** -/
theorem lastSendableInstantBefore_legal (hz : z.WholeHours region) {t at_ : ℤ}
    (h : lastSendableInstantBefore z region t = some at_) : isQuietAt z region at_ = false := by
  unfold lastSendableInstantBefore at h
  split_ifs at h with hquiet
  · exact stepBack_legal hz h
  · simp only [Option.some.injEq] at h
    rw [← h]
    simpa using hquiet

end DestinationClock
