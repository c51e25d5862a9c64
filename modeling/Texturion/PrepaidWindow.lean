/-
**How many invoices a prepaid window holds.**

An item is invoiced every month on its anchor day, or on the last day of a month that is shorter.
`remainingPrepaidInvoices` walks from the end of the period by `setUTCMonth` instead: it keeps the
day the walk began with for as long as the months have it, and the first month that does not throws
it into the one after, where it stays.  The two disagree wherever the window closes between an
invoice and the date the walk has in its place.

Main result:

* `PrepaidYear.remaining_exactly` — **when the counts agree**, and what is counted at the grant.
-/

import Texturion.Months
import Texturion.PrepaidInvoices
import Mathlib.Data.Int.Interval
import Mathlib.Data.Set.Card

namespace PrepaidYear

open Prepay Calendar
open Calls (civilFromDays)
open Notices (dayMs)

/-- `remainingPrepaidInvoices`, with its checks: the end of the period in seconds, and when the
window closes, if that is a date. -/
def remainingInvoices : Option ℤ → Option ℤ → ℕ
  | none, _ => 0
  | some periodEndSeconds, grantedThrough =>
    if periodEndSeconds = 0 then 0
    else
      match grantedThrough with
      | none => 0
      | some closes => remainingPrepaidInvoices (periodEndSeconds * 1000) closes

/-! ### The invoices -/

/-- The day of the month on which an item is invoiced, and the second of that day. -/
structure Anchor where
  day : ℕ
  second : ℤ
  one_le : 1 ≤ day
  second_nonneg : 0 ≤ second
  second_lt : second < 86400

def Anchor.dayIn (a : Anchor) (month : ℤ) : ℕ := min a.day (monthLength month)

def Anchor.invoice (a : Anchor) (month : ℤ) : ℤ :=
  (monthStart month + a.dayIn month - 1) * 86400 + a.second

/-- The invoices from that of `month` on, before the window closes. -/
def Anchor.invoicesBefore (a : Anchor) (month closes : ℤ) : Set ℤ :=
  {n | a.invoice month ≤ a.invoice n ∧ a.invoice n * 1000 < closes}

variable (a : Anchor) (month : ℤ) {closes : ℤ} {k : ℕ}

theorem Anchor.dayIn_bounds : 1 ≤ a.dayIn month ∧ a.dayIn month ≤ monthLength month := by
  have h := monthLength_bounds month
  have hday := a.one_le
  rw [Anchor.dayIn]
  omega

theorem Anchor.invoice_strictMono : StrictMono a.invoice :=
  strictMono_int_of_lt_succ fun n => by
    have hlength := monthStart_add_length n
    have hday := (a.dayIn_bounds n).2
    have hday' := (a.dayIn_bounds (n + 1)).1
    simp only [Anchor.invoice]
    omega

theorem lt_ncard_iff {f : ℤ → ℤ} (hf : StrictMono f) (month c : ℤ) (k : ℕ) :
    k < Set.ncard {n | f month ≤ f n ∧ f n < c} ↔ f (month + k) < c := by
  have hgrows : ∀ k : ℕ, f month + k ≤ f (month + k) := by
    intro k
    induction k with
    | zero => simp
    | succ k ih =>
      have hlt : f (month + k) < f (month + (k + 1 : ℕ)) := hf (by omega)
      push_cast at hlt ⊢
      omega
  have hpast : ∃ k : ℕ, c ≤ f (month + k) := by
    refine ⟨(c - f month).toNat, ?_⟩
    have h := hgrows (c - f month).toNat
    omega
  have hset : {n | f month ≤ f n ∧ f n < c} =
      (Finset.Ico month (month + Nat.find hpast) : Finset ℤ) := by
    ext n
    simp only [Set.mem_ofPred_eq, Finset.coe_Ico, Set.mem_Ico, hf.le_iff_le]
    refine and_congr_right fun hn => ?_
    obtain ⟨j, rfl⟩ := Int.le.dest hn
    constructor
    · intro hlt
      by_contra hge
      have hle : f (month + Nat.find hpast) ≤ f (month + j) := hf.monotone (by omega)
      have hfind := Nat.find_spec hpast
      omega
    · intro hlt
      exact not_le.1 (Nat.find_min hpast (by omega))
  rw [hset, Set.ncard_coe_finset, Int.card_Ico]
  have hcard : (month + Nat.find hpast - month).toNat = Nat.find hpast := by omega
  rw [hcard, Nat.lt_find_iff]
  constructor
  · intro h
    exact not_le.1 (h k le_rfl)
  · intro h j hj hle
    have hmono : f (month + j) ≤ f (month + k) := hf.monotone (by omega)
    omega

theorem Anchor.lt_invoicesBefore_iff :
    k < (a.invoicesBefore month closes).ncard ↔ a.invoice (month + k) * 1000 < closes := by
  have hmono : StrictMono fun n => a.invoice n * 1000 := fun m n h => by
    have hlt := a.invoice_strictMono h
    show a.invoice m * 1000 < a.invoice n * 1000
    omega
  rw [← lt_ncard_iff hmono month closes k]
  have hset : a.invoicesBefore month closes =
      {n | a.invoice month * 1000 ≤ a.invoice n * 1000 ∧ a.invoice n * 1000 < closes} := by
    ext n
    simp only [Anchor.invoicesBefore, Set.mem_ofPred_eq]
    omega
  rw [hset]

/-! ### The walk -/

theorem setUTCMonth_date {n rest : ℤ} {day : ℕ} (h : 1 ≤ day) (h' : day ≤ monthLength n)
    (hrest : 0 ≤ rest) (hrest' : rest < dayMs) (j : ℤ) :
    setUTCMonth ((monthStart n + day - 1) * dayMs + rest) j =
      (monthStart (n + j) + day - 1) * dayMs + rest := by
  have hdays : ((monthStart n + day - 1) * dayMs + rest) / dayMs = monthStart n + day - 1 := by
    rw [dayMs] at *
    omega
  have hmod : ((monthStart n + day - 1) * dayMs + rest) % dayMs = rest := by
    rw [dayMs] at *
    omega
  have hmonth : (n / 12) * 12 + (((n % 12).toNat + 1 : ℕ) : ℤ) - 1 + j = n + j := by omega
  simp only [setUTCMonth, hdays, hmod, monthAfter, civilFromDays_date h h', hmonth]
  rw [daysFromCivil_eq _ _ h, monthStart]

theorem lt_nextMonth (date : ℤ) : date < nextMonth date := by
  obtain ⟨⟨year, month, day⟩, hdate⟩ : ∃ d, d = civilFromDays (date / dayMs) := ⟨_, rfl⟩
  obtain ⟨hdays, hlt⟩ := civilFromDays_month_start hdate.symm
  have hday := (civilFromDays_day (date / dayMs)).1
  rw [← hdate] at hday
  change 1 ≤ day at hday
  have hnext := monthStart_succ (year * 12 + month - 1)
  have hlength := monthStart_add_length (year * 12 + month - 1)
  have hrest : 0 ≤ date % dayMs := Int.emod_nonneg _ (by decide)
  have hmoved := setUTCMonth_date (n := year * 12 + month - 1) hday (by omega) hrest
    (Int.emod_lt_of_pos _ (by decide)) 1
  have hsplit : (monthStart (year * 12 + month - 1) + day - 1) * dayMs + date % dayMs = date := by
    rw [← hdays, mul_comm]
    exact Int.mul_ediv_add_emod ..
  rw [hsplit] at hmoved
  rw [nextMonth, hmoved]
  rw [dayMs] at *
  omega

theorem lt_countBefore_iff {fuel : ℕ} {date : ℤ} :
    k < countBefore closes fuel date ↔ k < fuel ∧ nextMonth^[k] date < closes := by
  have hmono : ∀ (j : ℕ) (date : ℤ), date ≤ nextMonth^[j] date := by
    intro j
    induction j with
    | zero => exact fun date => le_rfl
    | succ j ih =>
      intro date
      rw [Function.iterate_succ_apply]
      exact (lt_nextMonth date).le.trans (ih _)
  induction fuel generalizing date k with
  | zero => simp [countBefore]
  | succ fuel ih =>
    simp only [countBefore]
    split
    · next hdate =>
      cases k with
      | zero => simpa using hdate
      | succ k =>
        have hrest : k < countBefore closes fuel (nextMonth date) ↔
            k < fuel ∧ nextMonth^[k] (nextMonth date) < closes := ih
        rw [Nat.succ_lt_succ_iff, Nat.succ_lt_succ_iff]
        exact hrest
    · next hdate =>
      refine iff_of_false (Nat.not_lt_zero k) fun h => ?_
      have hle := hmono k date
      omega

/-- By how many days the first month that is too short for the day is, among the `k` months behind
`month`. -/
def overrun (day : ℕ) (month : ℤ) : ℕ → ℕ
  | 0 => 0
  | k + 1 =>
    if overrun day month k = 0 then day - monthLength (month + (k + 1 : ℕ))
    else overrun day month k

/-- Where the walk from a day of a month is after `k` months: at the same day, or as far into the
month behind as the day ran past the end of a shorter one. -/
def walked (day : ℕ) (month : ℤ) (k : ℕ) : ℤ :=
  if overrun day month k = 0 then monthStart (month + k) + day - 1
  else monthStart (month + k + 1) + overrun day month k - 1

theorem overrun_bounds {day : ℕ} (h : day ≤ monthLength month) (k : ℕ) :
    overrun day month k ≤ day - 28 ∧
      (overrun day month k = 0 → day ≤ monthLength (month + k)) := by
  induction k with
  | zero => exact ⟨Nat.zero_le _, fun _ => by simpa using h⟩
  | succ k ih =>
    have hlength := monthLength_bounds (month + (k + 1 : ℕ))
    rw [overrun]
    split_ifs with hzero
    · constructor <;> omega
    · exact ⟨ih.1, fun h => absurd h hzero⟩

theorem walk_eq (k : ℕ) : nextMonth^[k] (a.invoice month * 1000) =
    walked (a.dayIn month) month k * dayMs + a.second * 1000 := by
  obtain ⟨hday, hday'⟩ := a.dayIn_bounds month
  have hsecond := a.second_nonneg
  have hsecond' := a.second_lt
  generalize hd : a.dayIn month = day at hday hday'
  have hrest : a.second * 1000 < dayMs := by
    rw [dayMs]
    omega
  induction k with
  | zero =>
    simp only [Function.iterate_zero, id_eq, walked, overrun, Anchor.invoice, hd, dayMs]
    simp only [if_true, Nat.cast_zero, add_zero]
    omega
  | succ k ih =>
    rw [Function.iterate_succ_apply', ih, nextMonth]
    obtain ⟨hle, hfits⟩ := overrun_bounds month hday' k
    have hlength := monthStart_add_length (month + (k + 1 : ℕ))
    have hbounds := monthLength_bounds (month + (k + 1 : ℕ))
    by_cases hzero : overrun day month k = 0
    · -- the walk still has its day; the next month may be too short for it
      have hhere : walked day month k = monthStart (month + k) + day - 1 := if_pos hzero
      rw [hhere, setUTCMonth_date hday (hfits hzero) (by omega) hrest]
      have hnext : overrun day month (k + 1) = day - monthLength (month + (k + 1 : ℕ)) :=
        if_pos hzero
      rw [walked, hnext]
      push_cast at hlength ⊢
      rw [show month + ((k : ℤ) + 1) + 1 = month + (k + 1) + 1 by omega] at hlength
      split_ifs with hfit
      · rw [add_assoc]
      · congr 2
        rw [add_assoc month]
        push_cast [Nat.cast_sub (show monthLength (month + (k + 1)) ≤ day by omega)]
        omega
    · -- from then on the day is one that every month has
      have hhere : walked day month k = monthStart (month + k + 1) + overrun day month k - 1 :=
        if_neg hzero
      have hmonth := monthLength_bounds (month + k + 1)
      have hlong := monthLength_bounds month
      rw [hhere, setUTCMonth_date (by omega) (by omega) (by omega) hrest]
      have hnext : overrun day month (k + 1) = overrun day month k := if_neg hzero
      rw [walked, hnext, if_neg hzero]
      push_cast
      rw [add_assoc month]

theorem lt_remaining_iff (hzero : a.invoice month ≠ 0) :
    k < remainingInvoices (some (a.invoice month)) (some closes) ↔
      k < prepayMonths ∧ walked (a.dayIn month) month k * dayMs + a.second * 1000 < closes := by
  rw [← walk_eq, ← lt_countBefore_iff]
  simp only [remainingInvoices, if_neg hzero]
  rfl

/-! ### Where the counts agree -/

/-- The window closes between the invoice that is `k` months away and the date that the walk has in
its place, in either order. -/
def Between (closes : ℤ) (k : ℕ) : Prop :=
  let invoice := a.invoice (month + k) * 1000
  let date := walked (a.dayIn month) month k * dayMs + a.second * 1000
  (invoice < closes ∧ closes ≤ date) ∨ (date < closes ∧ closes ≤ invoice)

theorem agree_iff :
    ¬Between a month closes k ↔ (a.invoice (month + k) * 1000 < closes ↔
      walked (a.dayIn month) month k * dayMs + a.second * 1000 < closes) := by
  simp only [Between]
  omega

theorem remaining_eq_iff (hzero : a.invoice month ≠ 0) :
    remainingInvoices (some (a.invoice month)) (some closes) =
        min prepayMonths (a.invoicesBefore month closes).ncard ↔
      ∀ k < prepayMonths, ¬Between a month closes k := by
  constructor
  · intro heq k hk
    have hremaining : k < remainingInvoices (some (a.invoice month)) (some closes) ↔ _ :=
      lt_remaining_iff a month hzero
    rw [heq, lt_min_iff, a.lt_invoicesBefore_iff] at hremaining
    rw [agree_iff]
    tauto
  · intro h
    refine eq_of_forall_lt_iff fun k => ?_
    rw [lt_remaining_iff a month hzero, lt_min_iff, a.lt_invoicesBefore_iff]
    exact and_congr_right fun hk => ((agree_iff a month).1 (h k hk)).symm

/-! ### The count at the grant -/

section
variable {granted : ℤ} (hlast : a.invoice (month - 1) * 1000 ≤ granted)
  (hnext : granted < a.invoice month * 1000)
include hlast hnext

/-- Twelve months later the invoice that is eleven months behind the next one is due or over, but
no sooner than that. -/
theorem granted_through :
    walked (a.dayIn month) month 10 * dayMs + a.second * 1000 < setUTCMonth granted 12 ∧
      a.invoice (month + 10) * 1000 < setUTCMonth granted 12 := by
  obtain ⟨⟨year, number, day⟩, hdate⟩ : ∃ d, d = civilFromDays (granted / dayMs) := ⟨_, rfl⟩
  obtain ⟨hdays, hlt⟩ := civilFromDays_month_start hdate.symm
  have hone := (civilFromDays_day (granted / dayMs)).1
  rw [← hdate] at hone
  change 1 ≤ day at hone
  generalize year * 12 + (number : ℤ) - 1 = n at hdays hlt
  have hlength := monthStart_add_length n
  have hsplit : (monthStart n + day - 1) * dayMs + granted % dayMs = granted := by
    rw [← hdays, mul_comm]
    exact Int.mul_ediv_add_emod ..
  have hrest := Int.emod_nonneg granted (show dayMs ≠ 0 by decide)
  have hrest' := Int.emod_lt_of_pos granted (show 0 < dayMs by decide)
  have hcloses := setUTCMonth_date (n := n) hone (by omega) hrest hrest' 12
  rw [hsplit] at hcloses
  rw [hcloses]
  generalize granted % dayMs = rest at *
  -- the grant falls into the month of the next invoice or into the one before
  have hsecond := a.second_nonneg
  have hsecond' := a.second_lt
  have hprev := a.dayIn_bounds (month - 1)
  have hhere := a.dayIn_bounds month
  have hbefore := monthStart_add_length (month - 1)
  have hafter := monthStart_add_length month
  have hlow : a.dayIn (month - 1) + monthStart (month - 1) - 1 ≤ monthStart n + day - 1 := by
    simp only [Anchor.invoice] at hlast
    rw [dayMs] at *
    omega
  have hhigh : monthStart n + day - 1 ≤ monthStart month + a.dayIn month - 1 := by
    simp only [Anchor.invoice] at hnext
    rw [dayMs] at *
    omega
  have hmonth : n = month ∨ n = month - 1 := by
    rcases lt_trichotomy n (month - 1) with h | h | h
    · have hle := monthStart_strictMono.monotone (Int.add_one_le_of_lt h)
      omega
    · exact .inr h
    · rcases lt_trichotomy n month with h' | h' | h'
      · omega
      · exact .inl h'
      · have hle := monthStart_strictMono.monotone (Int.add_one_le_of_lt h')
        omega
  have hstart : monthStart (month + 11) ≤ monthStart (n + 12) :=
    monthStart_strictMono.monotone (by omega)
  have hten := monthStart_add_length (month + 10)
  have hinvoice := a.dayIn_bounds (month + 10)
  rw [show month + 10 + 1 = month + 11 by omega] at hten
  refine ⟨?_, ?_⟩
  · obtain ⟨hover, hfits⟩ := overrun_bounds month (hhere.2) 10
    have hbounds := monthLength_bounds month
    have hbounds' := monthLength_bounds (month - 1)
    rw [walked]
    push_cast at hfits ⊢
    rw [show month + 10 + 1 = month + 11 by omega]
    split_ifs with hzero
    · have hday := hfits hzero
      rw [dayMs] at *
      omega
    · rcases hmonth with rfl | rfl
      · have hlater := (monthStart_succ (n + 11)).1
        rw [show n + 11 + 1 = n + 12 by omega] at hlater
        rw [dayMs] at *
        omega
      · -- the walk is at most on the third, and the grant was on the 28th or later
        have hanchor : 28 ≤ a.dayIn (month - 1) := by
          have hmin : a.dayIn month ≤ a.day := min_le_left ..
          rw [Anchor.dayIn]
          omega
        rw [show month - 1 + 12 = month + 11 by omega] at *
        rw [dayMs] at *
        omega
  · simp only [Anchor.invoice]
    rw [dayMs] at *
    omega

theorem remaining_at_grant (hzero : a.invoice month ≠ 0) :
    let count := remainingInvoices (some (a.invoice month)) (some (setUTCMonth granted 12))
    (count = 11 ∨ count = 12) ∧
      (count ≤ (a.invoicesBefore month (setUTCMonth granted 12)).ncard ↔
        ¬(walked (a.dayIn month) month 11 * dayMs + a.second * 1000 < setUTCMonth granted 12 ∧
          setUTCMonth granted 12 ≤ a.invoice (month + 11) * 1000)) := by
  intro count
  obtain ⟨hwalk, hinvoice⟩ := granted_through a month hlast hnext
  have hcount : ∀ k, k < count ↔ k < prepayMonths ∧
      walked (a.dayIn month) month k * dayMs + a.second * 1000 < setUTCMonth granted 12 :=
    fun k => lt_remaining_iff a month hzero
  have hinvoices : ∀ k : ℕ, k < (a.invoicesBefore month (setUTCMonth granted 12)).ncard ↔
      a.invoice (month + k) * 1000 < setUTCMonth granted 12 :=
    fun k => a.lt_invoicesBefore_iff month
  have hten := (hcount 10).2 ⟨by decide, hwalk⟩
  have htwelve : ¬12 < count := fun h => absurd ((hcount 12).1 h).1 (by decide)
  have heleven := hcount 11
  have hten' := (hinvoices 10).2 (by exact_mod_cast hinvoice)
  have heleven' := hinvoices 11
  rw [prepayMonths] at heleven
  push_cast at heleven'
  omega

end

/-- **Exactly where no window closes between an invoice and the date that the walk has in its place
are the invoices counted that it holds.**  Right after a grant the count is eleven or twelve, and
more than the window holds only where it closes so at the twelfth. -/
theorem remaining_exactly (a : Anchor) (month : ℤ) :
    (∀ closes : ℤ, remainingInvoices (some (a.invoice month)) (some closes) =
        min prepayMonths (a.invoicesBefore month closes).ncard ↔
      (a.invoice month = 0 → closes ≤ 0) ∧
        (a.invoice month ≠ 0 → ∀ k < prepayMonths, ¬Between a month closes k)) ∧
    ∀ granted : ℤ, a.invoice (month - 1) * 1000 ≤ granted → granted < a.invoice month * 1000 →
      let closes := setUTCMonth granted prepayMonths
      let count := remainingInvoices (some (a.invoice month)) (some closes)
      (count = 11 ∨ count = 12 ↔ a.invoice month ≠ 0) ∧
        (count ≤ (a.invoicesBefore month closes).ncard ↔
          (a.invoice month ≠ 0 →
            ¬(walked (a.dayIn month) month 11 * dayMs + a.second * 1000 < closes ∧
              closes ≤ a.invoice (month + 11) * 1000))) := by
  constructor
  · intro closes
    by_cases hzero : a.invoice month = 0
    · have hfirst : 0 < (a.invoicesBefore month closes).ncard ↔ _ :=
        a.lt_invoicesBefore_iff month
      simp only [Nat.cast_zero, add_zero, hzero, zero_mul] at hfirst
      simp only [remainingInvoices, hzero, if_true, ne_eq, not_true_eq_false, forall_const,
        false_imp_iff, and_true]
      rw [prepayMonths]
      omega
    · rw [remaining_eq_iff a month hzero]
      exact ⟨fun h => ⟨fun h' => absurd h' hzero, fun _ => h⟩, fun h => h.2 hzero⟩
  · intro granted hlast hnext closes count
    by_cases hzero : a.invoice month = 0
    · have hnone : count = 0 := by simp [count, remainingInvoices, hzero]
      rw [hnone]
      exact ⟨iff_of_false (by decide) (not_not.2 hzero),
        iff_of_true (Nat.zero_le _) fun h => absurd hzero h⟩
    · obtain ⟨hcount, hover⟩ := remaining_at_grant a month hlast hnext hzero
      exact ⟨iff_of_true hcount hzero, hover.trans ⟨fun h _ => h, fun h => h hzero⟩⟩

/-- An item that is invoiced at noon of the 31st. -/
def lastDay : Anchor := ⟨31, 43200, by decide, by decide, by decide⟩

/-- A year that is granted on 1 January 2026 at noon. -/
theorem remaining_exactly_january :
    remainingInvoices (some (lastDay.invoice 24312)) (some (setUTCMonth 1767268800000 12)) = 11 ∨
      remainingInvoices (some (lastDay.invoice 24312)) (some (setUTCMonth 1767268800000 12)) = 12 :=
  (((remaining_exactly lastDay 24312).2 1767268800000 (by decide +kernel) (by decide +kernel)).1).2
    (by decide +kernel)

/-- It holds twelve invoices, from 31 January to 31 December; eleven are counted, since the walk
goes on from 31 January to 3 March, and ends on 3 January. -/
theorem january_undercounted :
    remainingInvoices (some (lastDay.invoice 24312)) (some (setUTCMonth 1767268800000 12)) = 11 ∧
      min prepayMonths
        (lastDay.invoicesBefore 24312 (setUTCMonth 1767268800000 12)).ncard ≠ 11 := by
  refine ⟨by decide +kernel, fun h => ?_⟩
  have heleven : 11 < (lastDay.invoicesBefore 24312 (setUTCMonth 1767268800000 12)).ncard :=
    (lastDay.lt_invoicesBefore_iff 24312).2 (by decide +kernel)
  rw [prepayMonths] at h
  omega

end PrepaidYear
