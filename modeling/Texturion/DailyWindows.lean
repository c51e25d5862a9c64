/-
**Windows that come round with the days.**

A clock counts minutes through days of `L` minutes each.  A day may have a window, from the minute
it opens at to the minute it closes at; a window that closes before it opens runs on overnight and
closes on the next day.  A timetable gives every day its window, and it is open at an instant when
the instant lies in the interval of some day's window.

The same timetable can be read another way, that looks at one day only: the part of an overnight
window after midnight is then taken on the day itself, before the window opens.  This module
compares the two readings, and searches a timetable for its next opening.

Main definitions:

* `DailyWindows.Window` — a window, with both minutes inside the day and different;
* `DailyWindows.Window.Late`, `DailyWindows.Window.Early` — its part up to midnight and its part
  after it, as minutes of a day;
* `DailyWindows.OpenAt` — some day's interval holds the instant;
* `DailyWindows.Wrapped` — the reading that looks at one day only;
* `DailyWindows.firstOpening` — the first window, day by day, that opens after a given minute.

Main results:

* `DailyWindows.openAt_iff` — an instant is in an interval of its own day or of the day before;
* `DailyWindows.wrapped_iff_openAt_iff` — **the two readings agree exactly where the window has
  opened, or the parts after midnight of the day and of the day before agree**;
* `DailyWindows.firstOpening_some`, `DailyWindows.firstOpening_none` — what the search finds is the
  first opening of the wrapped reading, up to the part after midnight of the day found.
-/

import Mathlib.Tactic.Linarith
import Mathlib.Tactic.Ring

namespace DailyWindows

/-- A window of a day of `L` minutes.  One that opened and closed at the same minute would be
empty, or the whole day; it is neither, since it cannot be built. -/
@[ext] structure Window (L : ℕ) where
  opens : ℕ
  closes : ℕ
  opens_lt : opens < L
  closes_lt : closes < L
  differ : opens ≠ closes
deriving DecidableEq

variable {L : ℕ} {w : Window L} {table : ℤ → Option (Window L)} {day : ℤ} {minute : ℕ}

namespace Window

def ofMinutes (opens closes : ℕ) : Option (Window L) :=
  if h : opens < L ∧ closes < L ∧ opens ≠ closes then some ⟨opens, closes, h.1, h.2.1, h.2.2⟩
  else none

theorem ofMinutes_eq_some {opens closes : ℕ} :
    ofMinutes opens closes = some w ↔ opens = w.opens ∧ closes = w.closes := by
  unfold ofMinutes
  split_ifs with h
  · rw [Option.some.injEq, Window.ext_iff]
  · constructor
    · intro hw
      cases hw
    · rintro ⟨rfl, rfl⟩
      exact absurd ⟨w.opens_lt, w.closes_lt, w.differ⟩ h

/-- The window closes on the next day. -/
def Overnight (w : Window L) : Prop := w.closes < w.opens

/-- The part of the window on its own day. -/
def Late (w : Window L) (minute : ℕ) : Prop :=
  w.opens ≤ minute ∧ (w.Overnight ∨ minute < w.closes)

/-- The part of the window after midnight, by the minutes of the next day. -/
def Early (w : Window L) (minute : ℕ) : Prop := w.Overnight ∧ minute < w.closes

instance (w : Window L) : Decidable w.Overnight := inferInstanceAs (Decidable (_ < _))

instance (w : Window L) (minute : ℕ) : Decidable (w.Late minute) :=
  inferInstanceAs (Decidable (_ ∧ _))

instance (w : Window L) (minute : ℕ) : Decidable (w.Early minute) :=
  inferInstanceAs (Decidable (_ ∧ _))

def start (w : Window L) (day : ℤ) : ℤ := day * L + w.opens

/-- The instant it closes at. -/
def finish (w : Window L) (day : ℤ) : ℤ :=
  (if w.Overnight then day + 1 else day) * L + w.closes

end Window

/-! ### The two readings -/

/-- **Some day's window holds the instant.** -/
def OpenAt (table : ℤ → Option (Window L)) (instant : ℤ) : Prop :=
  ∃ day, ∃ w ∈ table day, w.start day ≤ instant ∧ instant < w.finish day

/-- The window of the day has opened, and not closed before midnight. -/
def LateOn (table : ℤ → Option (Window L)) (day : ℤ) (minute : ℕ) : Prop :=
  ∃ w ∈ table day, w.Late minute

def EarlyOn (table : ℤ → Option (Window L)) (day : ℤ) (minute : ℕ) : Prop :=
  ∃ w ∈ table day, w.Early minute

/-- The reading of a single day: both parts of its own window. -/
def Wrapped (table : ℤ → Option (Window L)) (day : ℤ) (minute : ℕ) : Prop :=
  LateOn table day minute ∨ EarlyOn table day minute

theorem lateOn_iff
    (h : table day = some w) (minute : ℕ) : LateOn table day minute ↔ w.Late minute := by
  simp [LateOn, h]

theorem earlyOn_iff
    (h : table day = some w) (minute : ℕ) : EarlyOn table day minute ↔ w.Early minute := by
  simp [EarlyOn, h]

theorem wrapped_iff (h : table day = some w) (minute : ℕ) :
    Wrapped table day minute ↔ w.Late minute ∨ w.Early minute := by
  rw [Wrapped, lateOn_iff h, earlyOn_iff h]

theorem not_wrapped (h : table day = none) (minute : ℕ) : ¬ Wrapped table day minute := by
  simp [Wrapped, LateOn, EarlyOn, h]

/-- An interval of at most two days' length that starts on a day holds instants of that day and of
the next one. -/
theorem day_eq_of_mem {day day' : ℤ} {minute a b : ℕ} (hm : minute < L) (hb : b ≤ 2 * L)
    (h : day' * L + a ≤ day * L + minute) (h' : day * L + minute < day' * L + b) :
    day' = day ∨ day' = day - 1 := by
  have hL : (0 : ℤ) < L := by omega
  have hupper : day' < day + 1 := by
    have : day' * L < (day + 1) * L := by linarith
    exact lt_of_mul_lt_mul_right this hL.le
  have hlower : day < day' + 2 := by
    have : day * L < (day' + 2) * L := by linarith
    exact lt_of_mul_lt_mul_right this hL.le
  omega

theorem Window.mem_same_day (hm : minute < L) :
    (w.start day ≤ day * L + minute ∧ day * L + minute < w.finish day) ↔ w.Late minute := by
  unfold Window.start Window.finish Window.Late
  by_cases ho : w.Overnight
  · rw [if_pos ho]
    simp only [ho, true_or, and_true]
    have hnext : (day + 1) * (L : ℤ) = day * L + L := by ring
    rw [hnext]
    omega
  · rw [if_neg ho]
    simp only [ho, false_or]
    omega

theorem Window.mem_next_day :
    (w.start (day - 1) ≤ day * L + minute ∧ day * L + minute < w.finish (day - 1)) ↔
      w.Early minute := by
  unfold Window.start Window.finish Window.Early
  have hprev : (day - 1) * (L : ℤ) = day * L - L := by ring
  have hopens := w.opens_lt
  have hcloses := w.closes_lt
  by_cases ho : w.Overnight
  · rw [if_pos ho]
    simp only [ho, true_and]
    rw [hprev, sub_add_cancel]
    omega
  · rw [if_neg ho, hprev]
    simp only [ho, false_and, iff_false]
    omega

theorem openAt_iff (hm : minute < L) :
    OpenAt table (day * L + minute) ↔
      LateOn table day minute ∨ EarlyOn table (day - 1) minute := by
  constructor
  · rintro ⟨day', w, hw, hstart, hfinish⟩
    have hb : (if w.Overnight then L else 0) + w.closes ≤ 2 * L := by
      have := w.closes_lt
      split_ifs <;> omega
    have hfinish' : day * L + minute <
        day' * L + ((if w.Overnight then L else 0) + w.closes : ℕ) := by
      unfold Window.finish at hfinish
      split_ifs at hfinish ⊢
      · push_cast
        linarith
      · push_cast
        linarith
    rcases day_eq_of_mem hm hb hstart hfinish' with rfl | rfl
    · exact Or.inl ⟨w, hw, (Window.mem_same_day hm).1 ⟨hstart, hfinish⟩⟩
    · exact Or.inr ⟨w, hw, Window.mem_next_day.1 ⟨hstart, hfinish⟩⟩
  · rintro (⟨w, hw, h⟩ | ⟨w, hw, h⟩)
    · exact ⟨day, w, hw, (Window.mem_same_day hm).2 h⟩
    · exact ⟨day - 1, w, hw, Window.mem_next_day.2 h⟩

/-- **Where the two readings agree.** -/
theorem wrapped_iff_openAt_iff (hm : minute < L) :
    (Wrapped table day minute ↔ OpenAt table (day * L + minute)) ↔
      LateOn table day minute ∨ (EarlyOn table day minute ↔ EarlyOn table (day - 1) minute) := by
  rw [openAt_iff hm]
  unfold Wrapped
  tauto

/-! ### The next opening -/

/-- The minute the window of a day opens at, `offset` days after the day the search starts on.  On
that first day only a window counts that opens after the minute the search starts at. -/
def opensOn (table : ℤ → Option (Window L)) (day : ℤ) (minute offset : ℕ) : Option ℕ :=
  match table (day + offset) with
  | none => none
  | some w => if offset = 0 ∧ w.opens ≤ minute then none else some w.opens

/-- The first window that opens after a minute of a day, from the day at `offset` on and over so
many days: the days ahead, and the minute. -/
def firstOpening (table : ℤ → Option (Window L)) (day : ℤ) (minute : ℕ) :
    ℕ → ℕ → Option (ℕ × ℕ)
  | 0, _ => none
  | days + 1, offset =>
    match opensOn table day minute offset with
    | some opens => some (offset, opens)
    | none => firstOpening table day minute days (offset + 1)

/-- Instants are ordered by their days, and within a day by their minutes. -/
theorem instant_le_iff {day day' : ℤ} {minute minute' : ℕ} (hm : minute < L) (hm' : minute' < L) :
    day * L + minute ≤ day' * L + minute' ↔ day < day' ∨ (day = day' ∧ minute ≤ minute') := by
  have hL : (0 : ℤ) < L := by omega
  rcases lt_trichotomy day day' with h | h | h
  · have hstep : (day + 1) * L ≤ day' * L := mul_le_mul_of_nonneg_right (by omega) hL.le
    rw [add_mul] at hstep
    constructor
    · exact fun _ => Or.inl h
    · intro _
      omega
  · subst h
    omega
  · have hstep : (day' + 1) * L ≤ day * L := mul_le_mul_of_nonneg_right (by omega) hL.le
    rw [add_mul] at hstep
    constructor
    · intro hle
      omega
    · rintro (h' | ⟨h', -⟩) <;> omega

theorem firstOpening_eq_some {days offset k m : ℕ}
    (h : firstOpening table day minute days offset = some (k, m)) :
    offset ≤ k ∧ k < offset + days ∧ opensOn table day minute k = some m ∧
      ∀ j, offset ≤ j → j < k → opensOn table day minute j = none := by
  induction days generalizing offset with
  | zero => cases h
  | succ days ih =>
    unfold firstOpening at h
    cases hopens : opensOn table day minute offset with
    | some opens =>
      rw [hopens] at h
      cases h
      refine ⟨le_refl _, by omega, hopens, ?_⟩
      intro j hj hj'
      omega
    | none =>
      rw [hopens] at h
      obtain ⟨hk, hk', hm, hbefore⟩ := ih h
      refine ⟨by omega, by omega, hm, ?_⟩
      intro j hj hj'
      rcases Nat.eq_or_lt_of_le hj with rfl | hj
      · exact hopens
      · exact hbefore j hj hj'

theorem firstOpening_eq_none {days offset : ℕ}
    (h : firstOpening table day minute days offset = none) :
    ∀ j, offset ≤ j → j < offset + days → opensOn table day minute j = none := by
  induction days generalizing offset with
  | zero =>
    intro j hj hj'
    omega
  | succ days ih =>
    unfold firstOpening at h
    cases hopens : opensOn table day minute offset with
    | some opens =>
      rw [hopens] at h
      cases h
    | none =>
      rw [hopens] at h
      intro j hj hj'
      rcases Nat.eq_or_lt_of_le hj with rfl | hj
      · exact hopens
      · exact ih h j hj (by omega)

/-- A day the search passes over is shut from the minute it started at. -/
theorem not_wrapped_of_opensOn {minute offset : ℕ} (shut : ¬ Wrapped table day minute)
    (h : opensOn table day minute offset = none) {minute' : ℕ}
    (hm : offset = 0 → minute ≤ minute') : ¬ Wrapped table (day + offset) minute' := by
  unfold opensOn at h
  cases hw : table (day + offset) with
  | none => exact not_wrapped hw minute'
  | some w =>
    rw [hw] at h
    simp only [ite_eq_left_iff, reduceCtorEq, imp_false, not_not] at h
    obtain ⟨rfl, hopens⟩ := h
    have hminute := hm rfl
    rw [Int.natCast_zero, Int.add_zero] at hw ⊢
    rw [wrapped_iff hw] at shut ⊢
    unfold Window.Late Window.Early at shut ⊢
    -- the window has opened, so it is shut only because it closed on the same day
    have ho : ¬ w.Overnight := fun ho => shut (Or.inl ⟨hopens, Or.inl ho⟩)
    have hclosed : ¬ minute < w.closes := fun hc => shut (Or.inl ⟨hopens, Or.inr hc⟩)
    rintro (⟨-, hl | hl⟩ | ⟨hl, -⟩)
    · exact ho hl
    · omega
    · exact ho hl

/-- The day the search stops at opens at the minute found, and before that minute only its part
after midnight reads as open. -/
theorem wrapped_of_opensOn {minute offset m : ℕ} (shut : ¬ Wrapped table day minute)
    (h : opensOn table day minute offset = some m) :
    m < L ∧ Wrapped table (day + offset) m ∧
      ∀ minute' < m, (offset = 0 → minute ≤ minute') → Wrapped table (day + offset) minute' →
        0 < offset ∧ EarlyOn table (day + offset) minute' := by
  unfold opensOn at h
  cases hw : table (day + offset) with
  | none =>
    rw [hw] at h
    cases h
  | some w =>
    rw [hw] at h
    simp only [Option.ite_none_left_eq_some, Option.some.injEq] at h
    obtain ⟨hnot, rfl⟩ := h
    rw [wrapped_iff hw]
    refine ⟨w.opens_lt, Or.inl ⟨le_refl _, ?_⟩, ?_⟩
    · have hdiffer := w.differ
      unfold Window.Overnight
      omega
    · intro minute' hlt hminute hopen
      rw [wrapped_iff hw] at hopen
      rw [earlyOn_iff hw]
      have hearly : w.Early minute' := by
        rcases hopen with hl | hl
        · exact absurd hl.1 (by omega)
        · exact hl
      refine ⟨?_, hearly⟩
      rcases Nat.eq_zero_or_pos offset with rfl | hpos
      · -- then the minute the search started at was in that part as well
        rw [Int.natCast_zero, Int.add_zero] at hw
        have hstart : minute < w.closes := lt_of_le_of_lt (hminute rfl) hearly.2
        exact absurd ((wrapped_iff hw minute).2 (Or.inr ⟨hearly.1, hstart⟩)) shut
      · exact hpos

/-- **What the search finds is the first opening.** -/
theorem firstOpening_some {minute days k m : ℕ} (hm : minute < L)
    (shut : ¬ Wrapped table day minute) (h : firstOpening table day minute days 0 = some (k, m)) :
    k < days ∧ m < L ∧ Wrapped table (day + k) m ∧
      ∀ (day' : ℤ) (minute' : ℕ), minute' < L → day * L + minute ≤ day' * L + minute' →
        day' * L + minute' < (day + k) * L + m → Wrapped table day' minute' →
          0 < k ∧ day' = day + k ∧ EarlyOn table (day + k) minute' := by
  obtain ⟨-, hk, hfound, hbefore⟩ := firstOpening_eq_some h
  obtain ⟨hmL, hopen, hearly⟩ := wrapped_of_opensOn shut hfound
  refine ⟨by omega, hmL, hopen, ?_⟩
  intro day' minute' hm' hfrom hto hopen'
  rw [instant_le_iff hm hm'] at hfrom
  rw [← not_le, instant_le_iff hmL hm'] at hto
  obtain ⟨j, rfl⟩ : ∃ j : ℕ, day' = day + j := ⟨(day' - day).toNat, by omega⟩
  have hstart : j = 0 → minute ≤ minute' := by omega
  by_cases hj : j < k
  · exact absurd hopen' (not_wrapped_of_opensOn shut (hbefore j (by omega) hj) hstart)
  · obtain rfl : j = k := by omega
    obtain ⟨hpos, hlate⟩ := hearly minute' (by omega) hstart hopen'
    exact ⟨hpos, rfl, hlate⟩

/-- **Where it finds nothing, nothing opens.** -/
theorem firstOpening_none {minute days : ℕ} (hm : minute < L) (shut : ¬ Wrapped table day minute)
    (h : firstOpening table day minute days 0 = none) :
    ∀ (day' : ℤ) (minute' : ℕ), minute' < L → day * L + minute ≤ day' * L + minute' →
      day' < day + days → ¬ Wrapped table day' minute' := by
  intro day' minute' hm' hfrom hto
  rw [instant_le_iff hm hm'] at hfrom
  obtain ⟨j, rfl⟩ : ∃ j : ℕ, day' = day + j := ⟨(day' - day).toNat, by omega⟩
  have hnone := firstOpening_eq_none h j (by omega) (by omega)
  exact not_wrapped_of_opensOn shut hnone (by omega)

end DailyWindows
