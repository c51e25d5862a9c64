/-
**The instant of a wall clock.**

`instantForWallClock` of `packages/shared/src/two-clocks.ts` takes a wall clock for UTC, asks the
zone what it reads there, corrects by the difference, and asks and corrects once more; where that
does not settle it takes the later of the two guesses.  So what it answers is the wall clock less the
smaller of two offsets: the one at the wall clock read as UTC and the one at the first guess.

East of Greenwich the first of them may be that after a clock was put back, west of it that before
it was put forward.

Main result:

* `TwoClocks.solved_iff` — **the answer is the first instant that reads so, or past the gap, exactly
  where no change lies between the wall clock read as UTC and itself.**
-/

import Texturion.WallClocks
import Mathlib.Tactic.Linarith

namespace TwoClocks

open Calendar WallClocks
open Calls (civilFromDays)

def minuteMs : ℤ := 60000

structure WallClock where
  year : ℤ
  month : ℕ
  day : ℕ
  hour : ℕ
  minute : ℕ
  deriving DecidableEq

namespace WallClock

def fields (w : WallClock) : Fields := ⟨w.year, w.month, w.day, w.hour, w.minute, 0, 0⟩

/-- `Date.UTC` of a wall clock. -/
def utc (w : WallClock) : ℤ := dateUTC w.fields

/-- A wall clock of the calendar, in the years that `Date.UTC` takes as they are. -/
structure Valid (w : WallClock) : Prop where
  year : 100 < w.year
  month : 1 ≤ w.month ∧ w.month ≤ 12
  day : 1 ≤ w.day ∧ w.day ≤ monthLength (w.year * 12 + w.month - 1)
  hour : w.hour < 24
  minute : w.minute < 60

def ofClock (ms : ℤ) : WallClock :=
  let f := fieldsAt ms
  ⟨f.year, f.month, f.day, f.hour, f.minute⟩

end WallClock

/-- A zone, with offsets of whole minutes. -/
abbrev Zone := Offsets minuteMs

/-- `wallClockInZone`; the runtime rejects a zone that is `none`. -/
def wallClockInZone (t : ℤ) (timeZone : Option Zone) : Option WallClock :=
  timeZone.map fun z => .ofClock (z.clock t)

/-- The loop of `instantForWallClock`, with so many rounds to go. -/
def correct (target : ℤ) (timeZone : Option Zone) : ℕ → ℤ → ℤ → Option ℤ
  | 0, guess, previous => some (max guess previous)
  | rounds + 1, guess, _ =>
    match wallClockInZone guess timeZone with
    | none => none
    | some rendered =>
      let drift := rendered.utc - target
      if drift = 0 then some guess else correct target timeZone rounds (guess - drift) guess

def instantForWallClock (wall : WallClock) (timeZone : Option Zone) : Option ℤ :=
  correct wall.utc timeZone 2 wall.utc wall.utc

/-! ### Reading a clock -/

variable {w : WallClock} {x : ℤ}

theorem utc_eq (hw : w.Valid) : w.utc = instantOf w.fields :=
  dateUTC_of_year (by have h := hw.year; simp only [WallClock.fields]; omega)

/-- A valid wall clock is shown for a minute from its `Date.UTC` on. -/
theorem ofClock_eq_iff (hw : w.Valid) : .ofClock x = w ↔ w.utc ≤ x ∧ x < w.utc + minuteMs := by
  have hutc := utc_eq hw
  constructor
  · rintro rfl
    have hx := instantOf_fieldsAt x
    have hsecond : (fieldsAt x).second < 60 := Nat.mod_lt _ (by decide)
    have hms : (fieldsAt x).millisecond < 1000 := Nat.mod_lt _ (by decide)
    rw [hutc]
    simp only [instantOf, WallClock.fields, WallClock.ofClock] at hx ⊢
    unfold minuteMs
    omega
  · rintro ⟨hle, hlt⟩
    obtain ⟨hyear, ⟨hmonth, hmonth'⟩, ⟨hday, hday'⟩, hhour, hminute⟩ := hw
    have hdate := civilFromDays_date hday hday'
    have hparts : (w.year * 12 + w.month - 1) / 12 = w.year ∧
        ((w.year * 12 + w.month - 1) % 12).toNat + 1 = w.month := by omega
    rw [hparts.1, hparts.2] at hdate
    simp only [instantOf, WallClock.fields] at hutc
    have hdays : x / dayMs = monthStart (w.year * 12 + w.month - 1) + w.day - 1 := by
      unfold dayMs minuteMs at *
      omega
    simp only [WallClock.ofClock, fieldsAt, hdays, hdate]
    obtain ⟨year, month, day, hour, minute⟩ := w
    simp only [WallClock.mk.injEq, true_and]
    simp only at hutc hdays hhour hminute
    unfold dayMs minuteMs at *
    omega

theorem utc_ofClock (h : 100 ≤ (fieldsAt x).year) :
    (WallClock.ofClock x).utc = x - x % minuteMs := by
  have hx := instantOf_fieldsAt x
  have hsecond : (fieldsAt x).second < 60 := Nat.mod_lt _ (by decide)
  have hms : (fieldsAt x).millisecond < 1000 := Nat.mod_lt _ (by decide)
  have hutc : (WallClock.ofClock x).utc = instantOf (WallClock.ofClock x).fields :=
    dateUTC_of_year h
  rw [hutc]
  simp only [instantOf, WallClock.fields, WallClock.ofClock] at hx ⊢
  unfold minuteMs dayMs at *
  omega

theorem utc_mod (hw : w.Valid) : w.utc % minuteMs = 0 := by
  rw [utc_eq hw]
  simp only [instantOf, WallClock.fields]
  unfold minuteMs dayMs
  omega

theorem rendered_near (hw : w.Valid) (z : Zone) {t : ℤ} (ht : w.utc - 2 * dayMs ≤ t) :
    (WallClock.ofClock (z.clock t)).utc = z.clock t - z.clock t % minuteMs := by
  refine utc_ofClock (year_of_near (t := w.utc) ?_ ?_)
  · have hself : WallClock.ofClock w.utc = w := (ofClock_eq_iff hw).2
      ⟨le_refl _, by unfold minuteMs; omega⟩
    have hyear : (fieldsAt w.utc).year = w.year := congrArg WallClock.year hself
    have h := hw.year
    omega
  · have hshort := (z.short t).1
    unfold Offsets.clock
    omega

/-- The answer, by the offsets at the wall clock read as UTC and at the first guess. -/
theorem instantForWallClock_eq (hw : w.Valid) (z : Zone) :
    instantForWallClock w (some z) =
      some (w.utc - min (z.offset w.utc) (z.offset (w.utc - z.offset w.utc))) := by
  have hdrift : ∀ t, w.utc - 2 * dayMs ≤ t → t % minuteMs = 0 →
      (WallClock.ofClock (z.clock t)).utc - w.utc = t + z.offset t - w.utc := by
    intro t ht hmod
    obtain ⟨q, hq⟩ := z.units t
    rw [rendered_near hw z ht]
    unfold Offsets.clock minuteMs at *
    omega
  obtain ⟨q, hq⟩ := z.units w.utc
  have hshort := z.short w.utc
  have hmod := utc_mod hw
  have hfirst := hdrift w.utc (by unfold dayMs; omega) hmod
  have hsecond := hdrift (w.utc - z.offset w.utc) (by unfold dayMs at *; omega)
    (by rw [hq]; unfold minuteMs at *; omega)
  simp only [instantForWallClock, correct, wallClockInZone, Option.map_some]
  rw [hfirst, add_sub_cancel_left]
  by_cases hzero : z.offset w.utc = 0
  · rw [if_pos hzero, hzero, sub_zero, hzero, min_self, sub_zero]
  · rw [if_neg hzero, hsecond]
    split_ifs with hsettled
    · rw [min_eq_left (by omega)]
    · congr 1
      omega

/-! ### The first instant, or past the gap -/

/-- The answer is the first instant at which the zone reads the wall clock.  If there is none, the
clock was put forward at some `c`, over the whole minute; the answer is not before `c`, and shows a
later wall clock, by no more than the clock was put forward. -/
def Solved (z : Zone) (w : WallClock) : Prop :=
  ∃ r, instantForWallClock w (some z) = some r ∧
    ((∃ t, wallClockInZone t (some z) = some w) →
      IsLeast {t | wallClockInZone t (some z) = some w} r) ∧
    ((¬∃ t, wallClockInZone t (some z) = some w) →
      ∃ c, c + z.offset (c - 1) ≤ w.utc ∧ w.utc + minuteMs ≤ c + z.offset c ∧ c ≤ r ∧
        w.utc < (WallClock.ofClock (z.clock r)).utc ∧
          (WallClock.ofClock (z.clock r)).utc - w.utc ≤ z.offset c - z.offset (c - 1))

/-- Wherever the clock changes, at `c`: it is not put back with the wall clock, read as UTC, from `c`
on and before what the clock showed; nor put forward with it before `c` and from what the clock
shows on; nor put forward into the minute. -/
def Settles (z : Zone) (w : WallClock) : Prop :=
  ∀ c, ¬(z.offset c < z.offset (c - 1) ∧ c ≤ w.utc ∧ w.utc < c + z.offset (c - 1)) ∧
    ¬(z.offset (c - 1) < z.offset c ∧ c + z.offset c ≤ w.utc ∧ w.utc < c) ∧
    ¬(c + z.offset (c - 1) ≤ w.utc ∧ w.utc < c + z.offset c ∧
      c + z.offset c < w.utc + minuteMs)

variable {z : Zone} {c a b : ℤ}

/-- Near the wall clock there is one change to look at. -/
theorem settles_iff (ha : -dayMs < a ∧ a < dayMs) (hb : -dayMs < b ∧ b < dayMs)
    (hbefore : ∀ t, w.utc - 2 * dayMs ≤ t → t < c → z.offset t = a)
    (hafter : ∀ t, c ≤ t → t ≤ w.utc + 2 * dayMs → z.offset t = b) :
    Settles z w ↔ ¬((b < a ∧ c ≤ w.utc ∧ w.utc < c + a) ∨ (a < b ∧ c + b ≤ w.utc ∧ w.utc < c) ∨
      (c + a ≤ w.utc ∧ w.utc < c + b ∧ c + b < w.utc + minuteMs)) := by
  constructor
  · intro h hbad
    have hc : z.offset (c - 1) = a ∧ z.offset c = b :=
      ⟨hbefore _ (by unfold dayMs minuteMs at *; omega) (by omega),
        hafter _ (le_refl c) (by unfold dayMs minuteMs at *; omega)⟩
    have hat := h c
    rw [hc.1, hc.2] at hat
    omega
  · intro h c'
    have hshort := z.short c'
    have hshort' := z.short (c' - 1)
    by_contra hbad
    have hnear : w.utc - dayMs - minuteMs ≤ c' ∧ c' ≤ w.utc + dayMs := by
      unfold dayMs minuteMs at *
      omega
    unfold dayMs minuteMs at *
    rcases lt_trichotomy c' c with hlt | rfl | hgt
    · rw [hbefore c' (by omega) hlt, hbefore (c' - 1) (by omega) (by omega)] at hbad
      omega
    · rw [hbefore (c' - 1) (by omega) (by omega), hafter c' (le_refl c') (by omega)] at hbad
      omega
    · rw [hafter c' hgt.le (by omega), hafter (c' - 1) (by omega) (by omega)] at hbad
      omega

theorem wallClockInZone_eq_iff (hw : w.Valid) (t : ℤ) :
    wallClockInZone t (some z) = some w ↔
      w.utc ≤ t + z.offset t ∧ t + z.offset t < w.utc + minuteMs := by
  rw [wallClockInZone, Option.map_some, Option.some.injEq, ofClock_eq_iff hw]
  rfl

/-- **The answer is the first instant** at which the zone's clock reads so, or past the gap, exactly
where the rounds settle. -/
theorem solved_iff (z : Zone) (w : WallClock) (hw : w.Valid) : Solved z w ↔ Settles z w := by
  obtain ⟨c, a, b, ⟨hadvd, ha⟩, ⟨hbdvd, hb⟩, hbefore, hafter⟩ := z.around w.utc
  rw [settles_iff ha hb hbefore hafter]
  have hmod := utc_mod hw
  have hreads : ∀ t, wallClockInZone t (some z) = some w ↔
      (t < c ∧ w.utc ≤ t + a ∧ t + a < w.utc + minuteMs) ∨
        (c ≤ t ∧ w.utc ≤ t + b ∧ t + b < w.utc + minuteMs) := by
    intro t
    rw [wallClockInZone_eq_iff hw]
    have hshort := z.short t
    by_cases hnear : w.utc - 2 * dayMs ≤ t ∧ t ≤ w.utc + 2 * dayMs
    · rcases lt_or_ge t c with htc | hct
      · rw [hbefore t hnear.1 htc]
        omega
      · rw [hafter t hct hnear.2]
        omega
    · unfold dayMs minuteMs at *
      omega
  obtain ⟨p, hp⟩ : ∃ p, p = z.offset w.utc := ⟨_, rfl⟩
  obtain ⟨q, hq⟩ : ∃ q, q = z.offset (w.utc - p) := ⟨_, rfl⟩
  have hfirst : (w.utc < c → p = a) ∧ (c ≤ w.utc → p = b) :=
    ⟨fun h => hp.trans (hbefore _ (by unfold dayMs; omega) h),
      fun h => hp.trans (hafter _ h (by unfold dayMs; omega))⟩
  have hsecond : (w.utc - p < c → q = a) ∧ (c ≤ w.utc - p → q = b) := by
    have hshort := z.short w.utc
    rw [← hp] at hshort
    exact ⟨fun h => hq.trans (hbefore _ (by unfold dayMs at *; omega) h),
      fun h => hq.trans (hafter _ h (by unfold dayMs at *; omega))⟩
  have hanswer : instantForWallClock w (some z) = some (w.utc - min p q) := by
    rw [hq, hp]
    exact instantForWallClock_eq hw z
  -- where the clock reads so, the answer has to be the first instant at which it does
  have hleast : ∀ e, IsLeast {t | wallClockInZone t (some z) = some w} e →
      (Solved z w ↔ w.utc - min p q = e) := by
    intro e he
    constructor
    · rintro ⟨r, hr, hfound, -⟩
      rw [hanswer] at hr
      rw [Option.some.inj hr]
      exact (hfound ⟨e, he.1⟩).unique he
    · rintro rfl
      exact ⟨_, hanswer, fun _ => he, fun hnone => (hnone ⟨_, he.1⟩).elim⟩
  by_cases hold : w.utc - a < c
  · rw [hleast (w.utc - a)]
    · omega
    · refine ⟨(hreads _).2 (.inl ⟨hold, by unfold minuteMs; omega⟩), fun t ht => ?_⟩
      have h := (hreads t).1 ht
      omega
  by_cases hnew : c < w.utc - b + minuteMs
  · rw [hleast (max c (w.utc - b))]
    · obtain ⟨i, hi⟩ := hadvd
      obtain ⟨j, hj⟩ := hbdvd
      unfold minuteMs at *
      omega
    · refine ⟨(hreads _).2 (.inr ?_), fun t ht => ?_⟩
      · unfold minuteMs at *
        omega
      · have h := (hreads t).1 ht
        omega
  -- the clock is put forward over the minute
  refine iff_of_true ⟨_, hanswer, fun ⟨t, ht⟩ => ?_, fun _ => ⟨c, ?_⟩⟩
    (by unfold minuteMs at *; omega)
  · have h := (hreads t).1 ht
    omega
  · have hoffsets : z.offset (c - 1) = a ∧ z.offset c = b :=
      ⟨hbefore _ (by unfold dayMs minuteMs at *; omega) (by omega),
        hafter _ (le_refl c) (by unfold dayMs minuteMs at *; omega)⟩
    have hmin : min p q = a := by
      unfold minuteMs at *
      omega
    have hclock : z.clock (w.utc - a) = w.utc - a + b := by
      rw [Offsets.clock, hafter _ (by omega) (by unfold dayMs at *; omega)]
    rw [hmin, rendered_near hw z (by unfold dayMs at *; omega), hclock, hoffsets.1, hoffsets.2]
    obtain ⟨i, hi⟩ := hadvd
    obtain ⟨j, hj⟩ := hbdvd
    unfold minuteMs at *
    omega

/-- New York about the eighth of March 2026, when the clock is put forward at two in the morning. -/
def newYork : Zone where
  offset t := if t < 1772953200000 then -18000000 else -14400000
  units t := by
    split <;> decide
  short t := by
    split <;> decide
  isolated s := by
    refine ⟨1772953200000, fun t hst htc => ?_, fun t hct hts => ?_⟩
    · rw [if_pos htc, if_pos (by omega)]
    · rw [if_neg (by omega), if_neg (by omega)]

/-- Half past eight in the morning is safe. -/
theorem solved_new_york : Settles newYork ⟨2026, 3, 8, 8, 30⟩ ∧
    Solved newYork ⟨2026, 3, 8, 8, 30⟩ := by
  have hsettles : Settles newYork ⟨2026, 3, 8, 8, 30⟩ := by
    intro c
    rw [show WallClock.utc ⟨2026, 3, 8, 8, 30⟩ = 1772958600000 by decide +kernel]
    simp only [newYork]
    unfold minuteMs
    split_ifs <;> omega
  exact ⟨hsettles, (solved_iff newYork _ ⟨by decide, by decide, by decide +kernel, by decide,
    by decide⟩).2 hsettles⟩

/-- Half past three, an hour and a half after the clock was put forward, comes out as half past
four. -/
theorem hour_late : ¬∀ (z : Zone) (w : WallClock), w.Valid → Solved z w := by
  intro h
  obtain ⟨r, hr, hfound, -⟩ := h newYork ⟨2026, 3, 8, 3, 30⟩
    ⟨by decide, by decide, by decide +kernel, by decide, by decide⟩
  have hanswer : instantForWallClock ⟨2026, 3, 8, 3, 30⟩ (some newYork) = some 1772958600000 := by
    decide +kernel
  have hreads : wallClockInZone 1772955000000 (some newYork) = some ⟨2026, 3, 8, 3, 30⟩ := by
    decide +kernel
  obtain rfl := Option.some.inj (hr.symm.trans hanswer)
  have hle := (hfound ⟨_, hreads⟩).2 hreads
  omega

end TwoClocks
