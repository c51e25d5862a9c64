/-
**Walking out of the quiet hours.**

`nextSendableInstant` and `lastSendableInstantBefore` of
`apps/api/src/messaging/destination-clock.ts` walk over the full hours of UTC, forwards or
backwards, until it is not quiet at the destination, and then go back to the top of the local hour.
Whether it is quiet depends on the local hour and the weekday alone, so that all that is between two
neighbouring quiet hours of the walk is quiet too, as long as the clock does not change by day.

The walk back begins an hour before the full hour at or before the instant and passes that one over,
so it says nothing here where that full hour is not quiet itself.

Main result:

* `DestinationClock.walks_exact` — **the walk forward ends at the first instant that is not quiet,
  the walk back at the start of the last local hour that is not**.
-/

import Texturion.DestinationClock
import Mathlib.Tactic.Ring
import Mathlib.Tactic.Linarith

namespace DestinationClock

/-- `nextSendableInstant` from a cursor at a full hour: one hour on, at most `fuel` times, until it
is not quiet, and then to the top of the local hour. -/
def stepOn (z : Zone) (region : Option String) : ℕ → ℤ → Option ℤ
  | 0, _ => none
  | fuel + 1, cursor =>
      if isQuietAt z region (cursor + hourMs) then stepOn z region fuel (cursor + hourMs)
      else some (cursor + hourMs - z.localMinuteIn (cursor + hourMs) * minuteMs)

def nextSendableInstant (z : Zone) (region : Option String) (t : ℤ) : Option ℤ :=
  if ¬isQuietAt z region t then none else stepOn z region 26 (t - t % hourMs)

def yearMs : ℤ := 365 * 24 * hourMs

/-- A local clock whose offsets are multiples of a quarter of an hour, and change at most twice a
year by at most an hour: in a year from any instant on there is one offset before some `x`, another
before some `y`, and a third one. -/
structure LocalClock where
  offset : ℤ → ℤ
  quarters : ∀ t, 15 * minuteMs ∣ offset t
  twiceAYear : ∀ t, ∃ x y, t ≤ x ∧ x ≤ y ∧ (∀ s, t ≤ s → s < x → offset s = offset t) ∧
    (∀ s, x ≤ s → s < y → offset s = offset x) ∧
    (∀ s, y ≤ s → s < t + yearMs → offset s = offset y) ∧
    |offset x - offset t| ≤ hourMs ∧ |offset y - offset x| ≤ hourMs

namespace LocalClock

variable (o : LocalClock)

def clock (t : ℤ) : ℤ := t + o.offset t

/-- What the runtime's formatters answer. -/
def zone : Zone where
  localHourInZone t := some (o.clock t / hourMs % 24).toNat
  weekdayShort t := ["Sun", "Mon", "Tue", "Wed", "Thu", "Fri", "Sat"].getD
    ((o.clock t / hourMs / 24 + 4) % 7).toNat ""
  localMinuteIn t := (o.clock t / minuteMs % 60).toNat

/-- The clock does not change within an hour of an instant that is not quiet. -/
def SteadyByDay (region : Option String) : Prop :=
  ∀ t, isQuietAt o.zone region t = false →
    ∀ s, t - hourMs ≤ s → s ≤ t + hourMs → o.offset s = o.offset t

variable {o} {region : Option String}

theorem offset_near {s t : ℤ} (h : s ≤ t) (hyear : t < s + yearMs) :
    -(2 * hourMs) ≤ o.offset t - o.offset s ∧ o.offset t - o.offset s ≤ 2 * hourMs := by
  obtain ⟨x, y, -, hxy, hfirst, hsecond, hthird, hx, hy⟩ := o.twiceAYear s
  rw [abs_le] at hx hy
  have hpos : (0 : ℤ) ≤ hourMs := by decide
  rcases lt_or_ge t x with htx | hxt
  · rw [hfirst t h htx]
    omega
  · rcases lt_or_ge t y with hty | hyt
    · rw [hsecond t hxt hty]
      omega
    · rw [hthird t hyt hyear]
      omega

/-! ### Quiet hours -/

/-- Whether it is quiet depends on the number of the local hour alone. -/
theorem isQuietAt_congr {s t : ℤ} (h : o.clock s / hourMs = o.clock t / hourMs) :
    isQuietAt o.zone region s = isQuietAt o.zone region t := by
  unfold isQuietAt Zone.localHourIn Zone.localWeekdayIn zone
  simp only [h]

theorem not_quiet {t : ℤ} (h : 12 ≤ o.clock t / hourMs % 24) (h' : o.clock t / hourMs % 24 < 20) :
    isQuietAt o.zone region t = false := by
  rw [isQuietAt_eq_false]
  have hhour : o.zone.localHourIn t = (o.clock t / hourMs % 24).toNat := rfl
  have hopen : ∀ weekday, quietOpenHourFor region weekday ≤ 12 := by
    intro weekday
    unfold quietOpenHourFor quietHoursEnd
    split <;> omega
  have hopen' := hopen (o.zone.localWeekdayIn t)
  rw [hhour]
  unfold quietHoursStart
  omega

theorem quiet_between (hsteady : o.SteadyByDay region) {p q x : ℤ}
    (hp : isQuietAt o.zone region p = true) (hq : isQuietAt o.zone region q = true) (hpx : p ≤ x)
    (hxq : x ≤ q) (hpq : q ≤ p + hourMs) : isQuietAt o.zone region x = true := by
  by_contra hx
  rw [Bool.not_eq_true] at hx
  have hop := hsteady x hx p (by omega) (by omega)
  have hoq := hsteady x hx q (by omega) (by omega)
  -- the local hour is that of one of the two
  have hhour : o.clock x / hourMs = o.clock p / hourMs ∨
      o.clock x / hourMs = o.clock q / hourMs := by
    simp only [clock, hop, hoq, hourMs] at *
    omega
  rcases hhour with h | h
  · rw [isQuietAt_congr h, hp] at hx
    cases hx
  · rw [isQuietAt_congr h, hq] at hx
    cases hx

theorem quiet_chain (hsteady : o.SteadyByDay region) {c : ℤ} (k : ℕ)
    (hquiet : ∀ j : ℕ, j ≤ k → isQuietAt o.zone region (c + j * hourMs) = true) {x : ℤ}
    (hcx : c ≤ x) (hxk : x ≤ c + k * hourMs) : isQuietAt o.zone region x = true := by
  induction k with
  | zero =>
    obtain rfl : x = c := by push_cast at hxk; omega
    simpa using hquiet 0 (le_refl 0)
  | succ k ih =>
    by_cases hle : x ≤ c + k * hourMs
    · exact ih (fun j hj => hquiet j (by omega)) hle
    · refine quiet_between hsteady (hquiet k (by omega)) (hquiet (k + 1) (le_refl _)) (by omega) hxk
        ?_
      push_cast
      rw [add_mul]
      omega

/-! ### The two walks -/

/-- Either walk, to its first instant that is not quiet. -/
theorem walk_eq (step : ℕ → ℤ → Option ℤ) {d : ℤ}
    (hstep : ∀ fuel cursor, step (fuel + 1) cursor =
      if isQuietAt o.zone region (cursor + d) then step fuel (cursor + d)
      else some (cursor + d - o.zone.localMinuteIn (cursor + d) * minuteMs)) {k : ℕ} :
    ∀ {fuel : ℕ} {cursor : ℤ}, k < fuel →
      (∀ j : ℕ, j < k → isQuietAt o.zone region (cursor + (j + 1) * d) = true) →
      isQuietAt o.zone region (cursor + (k + 1) * d) = false →
        step fuel cursor = some (cursor + (k + 1) * d -
          o.zone.localMinuteIn (cursor + (k + 1) * d) * minuteMs) := by
  induction k with
  | zero =>
    intro fuel cursor hfuel _ hfree
    obtain ⟨fuel, rfl⟩ : ∃ n, fuel = n + 1 := ⟨fuel - 1, by omega⟩
    simp only [Nat.cast_zero, zero_add, one_mul] at hfree ⊢
    rw [hstep, hfree, if_neg Bool.false_ne_true]
  | succ k ih =>
    intro fuel cursor hfuel hquiet hfree
    obtain ⟨fuel, rfl⟩ : ∃ n, fuel = n + 1 := ⟨fuel - 1, by omega⟩
    have hnext : ∀ j : ℕ, cursor + d + (j + 1) * d = cursor + ((j + 1 : ℕ) + 1) * d := by
      intro j
      push_cast
      ring
    have hfirst := hquiet 0 (by omega)
    simp only [Nat.cast_zero, zero_add, one_mul] at hfirst
    have hrest := @ih fuel (cursor + d) (by omega)
      (fun j hj => by rw [hnext]; exact hquiet (j + 1) (by omega)) (by rw [hnext]; exact hfree)
    rw [hstep, if_pos hfirst, hrest, hnext]

theorem stepBack_eq {k fuel : ℕ} {cursor : ℤ} (hfuel : k < fuel)
    (hquiet : ∀ j : ℕ, j < k → isQuietAt o.zone region (cursor - (j + 1) * hourMs) = true)
    (hfree : isQuietAt o.zone region (cursor - (k + 1) * hourMs) = false) :
    stepBack o.zone region fuel cursor = some (cursor - (k + 1) * hourMs -
      o.zone.localMinuteIn (cursor - (k + 1) * hourMs) * minuteMs) := by
  have hsub : ∀ j : ℤ, cursor - j * hourMs = cursor + j * -hourMs := fun j => by ring
  simp only [hsub] at hquiet hfree ⊢
  exact walk_eq (stepBack o.zone region) (fun _ _ => rfl) hfuel hquiet hfree

theorem exists_free_ahead (c : ℤ) :
    ∃ k : ℕ, k < 26 ∧ isQuietAt o.zone region (c + (k + 1) * hourMs) = false := by
  by_contra hnone
  push Not at hnone
  have hquiet : ∀ j : ℕ, j < 26 → ¬(12 ≤ o.clock (c + (j + 1) * hourMs) / hourMs % 24 ∧
      o.clock (c + (j + 1) * hourMs) / hourMs % 24 < 20) :=
    fun j hj h => hnone j hj (not_quiet h.1 h.2)
  -- the first noon ahead is never reached
  obtain ⟨n, hn⟩ : ∃ n, n = (o.clock (c + hourMs) / hourMs + 11) / 24 := ⟨_, rfl⟩
  have hbefore : ∀ j : ℕ, j < 26 → o.clock (c + (j + 1) * hourMs) < (24 * n + 12) * hourMs := by
    intro j
    induction j with
    | zero =>
      intro hj
      have h := hquiet 0 hj
      simp only [Nat.cast_zero, zero_add, one_mul] at h ⊢
      unfold hourMs at *
      omega
    | succ j ih =>
      intro hj
      have h := hquiet (j + 1) hj
      have hprev := ih (by omega)
      have hnear := @offset_near o (c + (j + 1) * hourMs) (c + ((j + 1 : ℕ) + 1) * hourMs)
        (by push_cast; unfold hourMs; omega) (by push_cast; unfold yearMs hourMs; omega)
      push_cast at h hnear ⊢
      unfold clock hourMs at *
      omega
  have hlast := hbefore 25 (by omega)
  have hnear := @offset_near o (c + hourMs) (c + ((25 : ℕ) + 1) * hourMs)
    (by push_cast; unfold hourMs; omega) (by push_cast; unfold yearMs hourMs; omega)
  have hfirst := hquiet 0 (by omega)
  simp only [Nat.cast_zero, zero_add, one_mul] at hfirst
  push_cast at hlast hnear
  unfold clock hourMs at *
  omega

theorem exists_free_behind (c : ℤ) :
    ∃ k : ℕ, k < 26 ∧ isQuietAt o.zone region (c - (k + 1) * hourMs) = false := by
  obtain ⟨k, hk, hfree⟩ := @exists_free_ahead o region (c - 27 * hourMs)
  refine ⟨25 - k, by omega, ?_⟩
  rwa [show c - ((25 - k : ℕ) + 1) * hourMs = c - 27 * hourMs + (k + 1) * hourMs by
    rw [Nat.cast_sub (by omega)]; push_cast; ring]

/-! ### The top of the local hour -/

/-- At a full hour of UTC the minutes are all that the clock is past its own hour. -/
theorem minute_eq {c : ℤ} (hc : c % hourMs = 0) :
    (o.zone.localMinuteIn c : ℤ) * minuteMs = o.clock c % hourMs := by
  have hminute : (o.zone.localMinuteIn c : ℤ) = ((o.clock c / minuteMs % 60).toNat : ℕ) := rfl
  obtain ⟨q, hq⟩ := o.quarters c
  rw [hminute]
  unfold clock minuteMs hourMs at *
  omega

section

variable (hsteady : o.SteadyByDay region)
include hsteady

theorem free_from_top {c x : ℤ} (hc : isQuietAt o.zone region c = false)
    (hcx : c - o.clock c % hourMs ≤ x) (hxc : x ≤ c) :
    o.clock x = o.clock c - (c - x) ∧ isQuietAt o.zone region x = false := by
  have hoff : o.offset x = o.offset c := hsteady c hc x (by unfold hourMs at *; omega)
    (by unfold hourMs at *; omega)
  have hclock : o.clock x = o.clock c - (c - x) := by
    unfold clock
    omega
  refine ⟨hclock, (isQuietAt_congr ?_).trans hc⟩
  unfold hourMs at *
  omega

theorem quiet_before_top {p c x : ℤ}
    (hp : isQuietAt o.zone region p = true) (hpx : p ≤ x) (hxc : x < c - o.clock c % hourMs)
    (hpc : c ≤ p + hourMs) : isQuietAt o.zone region x = true := by
  by_contra hx
  rw [Bool.not_eq_true] at hx
  have hop := hsteady x hx p (by unfold hourMs at *; omega) (by unfold hourMs at *; omega)
  have hoc := hsteady x hx c (by unfold hourMs at *; omega) (by unfold hourMs at *; omega)
  -- `x` is in the local hour of `p`
  rw [← isQuietAt_congr (s := p), hp] at hx
  · cases hx
  · unfold clock hourMs at *
    omega

theorem nextSendableInstant_isLeast {t : ℤ} (ht : isQuietAt o.zone region t = true) :
    ∃ u, nextSendableInstant o.zone region t = some u ∧
      IsLeast {x | t ≤ x ∧ isQuietAt o.zone region x = false} u := by
  obtain ⟨f, hf⟩ : ∃ f, f = t - t % hourMs := ⟨_, rfl⟩
  have hfull : f % hourMs = 0 := by unfold hourMs at *; omega
  have hex : ∃ k : ℕ, isQuietAt o.zone region (f + (k + 1) * hourMs) = false :=
    (exists_free_ahead f).imp fun _ h => h.2
  obtain ⟨k, hk, hmin⟩ : ∃ k : ℕ, isQuietAt o.zone region (f + (k + 1) * hourMs) = false ∧
      ∀ j < k, isQuietAt o.zone region (f + (j + 1) * hourMs) = true :=
    ⟨Nat.find hex, Nat.find_spec hex, fun j hj => by simpa using Nat.find_min hex hj⟩
  have hfuel : k < 26 := by
    obtain ⟨n, hn, hfree⟩ := @exists_free_ahead o region f
    by_contra hle
    rw [hmin n (by omega)] at hfree
    cases hfree
  obtain ⟨c, hc⟩ : ∃ c, c = f + (k + 1) * hourMs := ⟨_, rfl⟩
  have hcfull : c % hourMs = 0 := by unfold hourMs at *; omega
  refine ⟨c - o.clock c % hourMs, ?_, ⟨?_, ?_⟩, ?_⟩
  · rw [nextSendableInstant, if_neg (by simp [ht]), ← hf,
      walk_eq (stepOn o.zone region) (fun _ _ => rfl) hfuel hmin hk, ← hc, minute_eq hcfull]
  · by_contra hlt
    -- otherwise `t` is in the free hour itself
    have hfree := (free_from_top hsteady (hc ▸ hk) (x := t) (by omega)
      (by unfold hourMs at *; omega)).2
    rw [ht] at hfree
    cases hfree
  · exact (free_from_top hsteady (hc ▸ hk) (le_refl _) (by unfold hourMs; omega)).2
  · rintro x ⟨htx, hx⟩
    by_contra hlt
    push Not at hlt
    suffices hquiet : isQuietAt o.zone region x = true by
      rw [hx] at hquiet
      cases hquiet
    cases k with
    | zero => exact quiet_before_top hsteady ht htx hlt (by unfold hourMs at *; omega)
    | succ m =>
      have hsteps : ∀ j : ℕ, j ≤ m → isQuietAt o.zone region (f + hourMs + j * hourMs) = true := by
        intro j hj
        have h := hmin j (by omega)
        rwa [add_mul, one_mul, add_comm ((j : ℤ) * hourMs), ← add_assoc] at h
      by_cases hfirst : x ≤ f + hourMs
      · have h := hsteps 0 (Nat.zero_le m)
        rw [Nat.cast_zero, zero_mul, add_zero] at h
        exact quiet_between hsteady ht h htx hfirst (by unfold hourMs at *; omega)
      · by_cases hwalked : x ≤ f + hourMs + m * hourMs
        · exact quiet_chain hsteady m hsteps (by omega) hwalked
        · exact quiet_before_top hsteady (hsteps m (le_refl m)) (by omega) hlt
            (by unfold hourMs at *; omega)

theorem lastSendableInstantBefore_isGreatest {t : ℤ} (ht : isQuietAt o.zone region t = true)
    (hfloor : isQuietAt o.zone region (t - t % hourMs) = true) :
    ∃ u, lastSendableInstantBefore o.zone region t = some u ∧ IsGreatest
      {s | s < t ∧ o.clock s % hourMs = 0 ∧ isQuietAt o.zone region s = false} u := by
  obtain ⟨f, hf⟩ : ∃ f, f = t - t % hourMs := ⟨_, rfl⟩
  rw [← hf] at hfloor
  have hex : ∃ k : ℕ, isQuietAt o.zone region (f - (k + 1) * hourMs) = false :=
    (exists_free_behind f).imp fun _ h => h.2
  obtain ⟨k, hk, hmin⟩ : ∃ k : ℕ, isQuietAt o.zone region (f - (k + 1) * hourMs) = false ∧
      ∀ j < k, isQuietAt o.zone region (f - (j + 1) * hourMs) = true :=
    ⟨Nat.find hex, Nat.find_spec hex, fun j hj => by simpa using Nat.find_min hex hj⟩
  have hfuel : k < 26 := by
    obtain ⟨n, hn, hfree⟩ := @exists_free_behind o region f
    by_contra hle
    rw [hmin n (by omega)] at hfree
    cases hfree
  obtain ⟨b, hb⟩ : ∃ b, b = f - (k + 1) * hourMs := ⟨_, rfl⟩
  rw [← hb] at hk
  have hbfull : b % hourMs = 0 := by unfold hourMs at *; omega
  -- the walk is quiet from an hour after `b` on
  have hsteps : ∀ j : ℕ, j ≤ k → isQuietAt o.zone region (b + hourMs + j * hourMs) = true := by
    intro j hj
    obtain ⟨i, rfl⟩ := Nat.exists_eq_add_of_le hj
    cases i with
    | zero =>
      rwa [show b + hourMs + j * hourMs = f by rw [hb]; push_cast; ring]
    | succ i =>
      have h := hmin i (by omega)
      rwa [show b + hourMs + j * hourMs = f - (i + 1) * hourMs by rw [hb]; push_cast; ring]
  have htop := free_from_top hsteady hk (le_refl _) (by unfold hourMs; omega)
  refine ⟨b - o.clock b % hourMs, ?_, ⟨?_, ?_, htop.2⟩, ?_⟩
  · rw [lastSendableInstantBefore, if_neg (by simp [ht]), ← hf, stepBack_eq hfuel hmin (hb ▸ hk),
      ← hb, minute_eq hbfull]
  · unfold hourMs at *
    omega
  · rw [htop.1]
    unfold hourMs
    omega
  · rintro s ⟨hst, hhour, hs⟩
    by_contra hlt
    push Not at hlt
    rcases le_or_gt s b with hsb | hbs
    · -- no hour begins between the top and `b`
      have h := (free_from_top hsteady hk hlt.le hsb).1
      unfold hourMs at *
      omega
    suffices hquiet : isQuietAt o.zone region s = true by
      rw [hs] at hquiet
      cases hquiet
    rcases le_or_gt s (b + hourMs) with hsq | hqs
    · have hq := hsteps 0 (Nat.zero_le k)
      rw [Nat.cast_zero, zero_mul, add_zero] at hq
      have hob := hsteady s hs b (by omega) (by unfold hourMs; omega)
      have hoq := hsteady s hs (b + hourMs) (by omega) (by omega)
      rw [← hq]
      refine isQuietAt_congr ?_
      unfold clock hourMs at *
      omega
    · rcases le_or_gt s f with hsf | hfs
      · exact quiet_chain hsteady k hsteps hqs.le (by rw [hb]; linarith)
      · exact quiet_between hsteady hfloor ht hfs.le hst.le (by unfold hourMs at *; omega)

end

/-- A clock that never changes. -/
def constant (offset : ℤ) (h : 15 * minuteMs ∣ offset) : LocalClock where
  offset _ := offset
  quarters _ := h
  twiceAYear t := ⟨t, t, le_refl t, le_refl t, fun _ _ _ => rfl, fun _ _ _ => rfl,
    fun _ _ _ => rfl, by simp [hourMs], by simp [hourMs]⟩

/-- A clock put forward by an hour at `x`. -/
def putForward (x : ℤ) : LocalClock where
  offset s := if s < x then 0 else hourMs
  quarters s := by
    split
    · exact dvd_zero _
    · decide
  twiceAYear t := by
    refine ⟨max t x, max t x, le_max_left t x, le_refl _, fun s hs hsx => ?_,
      fun s hs hsx => absurd hsx (not_lt.2 hs), fun s hs _ => ?_, ?_, by simp [hourMs]⟩
    · rw [if_pos (by omega), if_pos (by omega)]
    · rw [if_neg (by omega), if_neg (by omega)]
    · split <;> split <;> simp [hourMs]

end LocalClock

end DestinationClock
