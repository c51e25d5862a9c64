/-
**The three-way decision of calendar synchronisation.**

`apps/api/src/calendar/sync.ts` compares the scheduling fields of a task, those of the provider's
event, and the last values both sides agreed on; clocks and provider versions take no part.  An
observation that equals what was written last is the echo of that write.

Main results:

* `CalendarSync.resolve_applyTheirs_iff`, `CalendarSync.resolve_pushOurs_iff` — where what was sent
  last is the common base or nothing, **only the side that did not move is overwritten**.
-/

import Mathlib.Data.Int.Notation
import Mathlib.Tactic.SplitIfs

namespace CalendarSync

/-- The scheduling fields that take part: two instants, a zone, a title and the hash of the
description.  A canonical text of an instant stands for the instant, so it is a number here. -/
structure Snapshot where
  start : ℤ
  endAt : ℤ
  timeZone : String
  title : String
  descriptionHash : String
  deriving DecidableEq

/-- `link_state` of a row of `task_calendar_links`. -/
inductive LinkState
  | active
  | conflict
  | eventRemoved
  | refused
  | unlinked
  deriving DecidableEq

inductive TitleReason
  | empty
  | tooLong
  deriving DecidableEq

inductive TimeReason
  | invalidTime
  | invalidRange
  deriving DecidableEq

/-- An observation of the provider's event. -/
inductive Inbound
  | scheduled (schedule : Snapshot)
  | removed
  | allDay
  | zoneRefused (providerZone : String)
  | titleRefused (reason : TitleReason)
  | descriptionRefused
  | recurrenceRefused
  | timeRefused (reason : TimeReason)
  deriving DecidableEq

inductive NoopReason
  | unchanged
  | alreadyEqual
  | echo
  deriving DecidableEq

inductive PushReason
  | onlyOursChanged
  | echoSuperseded
  deriving DecidableEq

inductive ConflictReason
  | bothChanged
  | missingBase
  deriving DecidableEq

inductive Decision
  | noop (reason : NoopReason) (agreed : Snapshot)
  | pushOurs (reason : PushReason) (schedule : Snapshot)
  | applyTheirs (schedule : Snapshot)
  | conflict (reason : ConflictReason) (base : Option Snapshot) (ours theirs : Snapshot)
  | eventRemoved
  | allDayRefused
  | zoneRefused (providerZone : String)
  | titleRefused (reason : TitleReason)
  | timeRefused (reason : TimeReason)
  | descriptionRefused
  | recurrenceRefused
  deriving DecidableEq

/-- The decision against the last values both sides agreed on. -/
def resolveBase (base : Option Snapshot) (ours theirs : Snapshot) : Decision :=
  match base with
  | none =>
      if ours = theirs then .noop .alreadyEqual theirs
      else .conflict .missingBase none ours theirs
  | some base =>
      if ours = base ∧ theirs = base then .noop .unchanged base
      else if theirs = base then .pushOurs .onlyOursChanged ours
      else if ours = base then .applyTheirs theirs
      else if ours = theirs then .noop .alreadyEqual theirs
      else .conflict .bothChanged (some base) ours theirs

def resolveCalendarSync (base : Option Snapshot) (ours : Snapshot) (inbound : Inbound)
    (lastSent : Option Snapshot) : Decision :=
  match inbound with
  | .removed => .eventRemoved
  | .allDay => .allDayRefused
  | .zoneRefused zone => .zoneRefused zone
  | .titleRefused reason => .titleRefused reason
  | .timeRefused reason => .timeRefused reason
  | .descriptionRefused => .descriptionRefused
  | .recurrenceRefused => .recurrenceRefused
  | .scheduled theirs =>
      -- a match of values is the proof of an echo: the version may be another one
      if lastSent = some theirs then
        if ours = theirs then .noop .echo theirs else .pushOurs .echoSuperseded ours
      else resolveBase base ours theirs

variable {base ours theirs : Snapshot} {lastSent : Option Snapshot}

theorem resolve_applyTheirs_iff (h : lastSent = none ∨ lastSent = some base) :
    resolveCalendarSync (some base) ours (.scheduled theirs) lastSent = .applyTheirs theirs ↔
      ours = base ∧ theirs ≠ base := by
  simp only [resolveCalendarSync, resolveBase]
  by_cases htheirs : theirs = base
  · -- what was sent last does not matter: nothing has moved on their side
    subst htheirs
    split_ifs <;> simp_all
  · have hsent : lastSent ≠ some theirs := by
      rcases h with h | h
      · simp [h]
      · simpa [h] using Ne.symm htheirs
    simp only [if_neg hsent, htheirs, and_false, if_false, ne_eq, not_false_eq_true, and_true]
    split_ifs <;> simp_all

theorem resolve_pushOurs_iff (h : lastSent = none ∨ lastSent = some base) :
    (∃ reason, resolveCalendarSync (some base) ours (.scheduled theirs) lastSent =
      .pushOurs reason ours) ↔ theirs = base ∧ ours ≠ base := by
  simp only [resolveCalendarSync, resolveBase]
  by_cases htheirs : theirs = base
  · subst htheirs
    by_cases hours : ours = theirs
    · split_ifs <;> simp_all
    · split_ifs <;> simp_all
  · have hsent : lastSent ≠ some theirs := by
      rcases h with h | h
      · simp [h]
      · simpa [h] using Ne.symm htheirs
    simp only [if_neg hsent, htheirs, and_false, if_false, false_and, iff_false]
    split_ifs <;> simp

end CalendarSync
