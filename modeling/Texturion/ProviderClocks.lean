/-
**The wall clocks of calendar providers.**

`instantFromWallClock` of `apps/api/src/calendar/providers/normalize.ts` reads a provider's wall
clock, tries the offsets the zone has at seven instants about it, and keeps what the zone renders
back as that wall clock; unless just one is left it refuses.  An instant and the wall clock it shows
are less than a day apart, and the outermost of the seven are two days off on either side, so no
change of the zone gets past them.

`Date.UTC` takes the years below 100 for those of the twentieth century, so their wall clocks do not
pass the validation; and `WALL_CLOCK` reads years of four digits only.

Main result:

* `ProviderClocks.instantFromWallClock_resolves` — **a wall clock resolves to the only instant that
  shows it, if there is just one**.
-/

import Texturion.WallClocks
import Mathlib.Data.List.Dedup
import Mathlib.Data.List.GetD

namespace ProviderClocks

open JsText Calendar WallClocks
open Calls (padStart toISOString)

/-- A zone, with offsets of whole seconds. -/
abbrev Zone := Offsets 1000

/-- `Number((match[7] ?? "").padEnd(3, "0").slice(0, 3))`, of what follows the seconds. -/
def readFraction : Text → Option ℕ
  | [] => some 0
  | dot :: digits =>
    if dot == 0x2E && digits.all isDigit && 1 ≤ digits.length && digits.length ≤ 9 then
      let padded (i : ℕ) := digitValue (digits.getD i 0x30)
      some (padded 0 * 100 + padded 1 * 10 + padded 2)
    else none

/-- `WALL_CLOCK`, with the numbers it reads. -/
def readWallClock (value : Text) : Option Fields :=
  match dateParts (value.take 10), value.drop 10 with
  | some (year, month, day), t :: h1 :: h2 :: colon1 :: m1 :: m2 :: colon2 :: s1 :: s2 :: rest =>
    if t == 0x54 && colon1 == 0x3A && colon2 == 0x3A && [h1, h2, m1, m2, s1, s2].all isDigit then
      (readFraction rest).map fun millisecond =>
        ⟨year, month, day, digitValue h1 * 10 + digitValue h2, digitValue m1 * 10 + digitValue m2,
          digitValue s1 * 10 + digitValue s2, millisecond⟩
    else none
  | _, _ => none

def parseWallClock (value : Text) : Option Fields :=
  match readWallClock value with
  | none => none
  | some parts =>
    let validation := fieldsAt (dateUTC parts)
    if validation.year ≠ parts.year ∨ validation.month ≠ parts.month ∨
        validation.day ≠ parts.day ∨ validation.hour ≠ parts.hour ∨
        validation.minute ≠ parts.minute ∨ validation.second ≠ parts.second then none
    else some parts

/-- The formatter renders to the second. -/
def partsAt (instant : ℤ) (timeZone : Zone) : Fields :=
  { fieldsAt (timeZone.clock instant) with millisecond := (instant % 1000).toNat }

def offsetAt (instant : ℤ) (timeZone : Zone) : ℤ :=
  dateUTC (partsAt instant timeZone) - instant

/-- `isIanaTimeZone` holds of the names that stand for a zone. -/
def instantFromWallClock (value : Text) (timeZone : Option Zone) : Option Text :=
  match parseWallClock value, timeZone with
  | some target, some zone =>
    let naive := dateUTC target
    let offsets := ([-48, -24, -12, 0, 12, 24, 48].map fun hours : ℤ =>
      offsetAt (naive + hours * 3600000) zone).dedup
    let candidates := ((offsets.map fun offset => naive - offset).filter fun candidate =>
      partsAt candidate zone = target).mergeSort (· ≤ ·)
    match candidates with
    | [candidate] => some (ofString (toISOString candidate))
    | _ => none
  | _, _ => none

/-- The date is `none` where it is not finite. -/
def wallClockFromInstant (date : Option ℤ) (timeZone : Option Zone) : Option Text :=
  match timeZone, date with
  | some zone, some instant =>
    let parts := partsAt instant zone
    let fraction := if parts.millisecond = 0 then "" else "." ++ padStart 3 parts.millisecond
    some (ofString (padStart 4 parts.year.toNat ++ "-" ++ padStart 2 parts.month ++ "-" ++
      padStart 2 parts.day ++ "T" ++ padStart 2 parts.hour ++ ":" ++ padStart 2 parts.minute ++
      ":" ++ padStart 2 parts.second ++ fraction))
  | _, _ => none

/-! ### Reading and validating -/

variable {value : Text} {f : Fields} {z : Zone} {t : ℤ}

theorem readFraction_lt {rest : Text} {ms : ℕ} (h : readFraction rest = some ms) : ms < 1000 := by
  unfold readFraction at h
  split at h
  · obtain rfl := Option.some.inj h
    decide
  · next dot digits =>
    split_ifs at h with hmatch
    simp only [Bool.and_eq_true, List.all_eq_true] at hmatch
    have hpadded : ∀ i, digitValue (digits.getD i 0x30) < 10 := by
      intro i
      have hdigit : isDigit (digits.getD i 0x30) = true := by
        rcases lt_or_ge i digits.length with hi | hi
        · rw [List.getD_eq_getElem _ _ hi]
          exact hmatch.1.1.2 _ (List.getElem_mem hi)
        · rw [List.getD_eq_default _ _ hi]
          rfl
      simp only [isDigit, Bool.and_eq_true, decide_eq_true_eq, UInt16.le_iff_toNat_le] at hdigit
      have h9 : (0x39 : UInt16).toNat = 0x39 := rfl
      unfold digitValue
      omega
    have h0 := hpadded 0
    have h1 := hpadded 1
    have h2 := hpadded 2
    have hms := Option.some.inj h
    dsimp only at hms
    omega

theorem readWallClock_bounds (h : readWallClock value = some f) :
    0 ≤ f.year ∧ f.millisecond < 1000 := by
  unfold readWallClock at h
  split at h
  · split_ifs at h
    obtain ⟨ms, hms, rfl⟩ := Option.map_eq_some_iff.1 h
    exact ⟨Int.natCast_nonneg _, readFraction_lt hms⟩
  · cases h

/-- A wall clock passes the validation if it is one that `Date.UTC` takes back. -/
theorem parseWallClock_eq_some_iff (h : readWallClock value = some f) {target : Fields} :
    parseWallClock value = some target ↔ target = f ∧ fieldsAt (dateUTC f) = f := by
  have hms := (readWallClock_bounds h).2
  have hmillisecond : (fieldsAt (dateUTC f)).millisecond = f.millisecond := by
    simp only [fieldsAt, dateUTC, instantOf]
    unfold dayMs
    omega
  simp only [parseWallClock, h]
  generalize fieldsAt (dateUTC f) = validation at *
  obtain ⟨year, month, day, hour, minute, second, millisecond⟩ := f
  obtain ⟨year', month', day', hour', minute', second', millisecond'⟩ := validation
  simp only [Fields.mk.injEq] at *
  split_ifs <;> simp <;> grind

/-- No year below 100 passes the validation. -/
theorem parseWallClock_of_year (h : readWallClock value = some f) (hyear : f.year < 100) :
    parseWallClock value = none := by
  have hlow := (readWallClock_bounds h).1
  rw [Option.eq_none_iff_forall_ne_some]
  intro target htarget
  have hback := ((parseWallClock_eq_some_iff h).1 htarget).2
  have hlate : 100 ≤ (fieldsAt (dateUTC f)).year := by
    refine (year_ge_iff 100 _).2 ?_
    have hmono := monthStart_strictMono.monotone
      (show 22799 ≤ (1900 + f.year) * 12 + f.month - 1 by omega)
    have hstart : daysFromCivil 100 1 1 < monthStart 22799 - 1 := by decide
    rw [dateUTC, if_pos (by omega)]
    simp only [instantOf]
    unfold dayMs
    omega
  rw [hback] at hlate
  omega

/-! ### Resolving -/

theorem partsAt_eq (t : ℤ) (z : Zone) : partsAt t z = fieldsAt (z.clock t) := by
  obtain ⟨q, hq⟩ := z.units t
  simp only [partsAt, fieldsAt, Offsets.clock, hq, Fields.mk.injEq, true_and]
  unfold dayMs
  omega

theorem offsetAt_near {naive : ℤ} (hyear : 100 < (fieldsAt naive).year)
    (ht : naive - 2 * dayMs ≤ t) : offsetAt t z = z.offset t := by
  have hshort := (z.short t).1
  have hlate := year_of_near (s := z.clock t) hyear (by unfold Offsets.clock; omega)
  rw [offsetAt, partsAt_eq, dateUTC_fieldsAt hlate, Offsets.clock, add_sub_cancel_left]

/-- What shows a wall clock has the offset of one of the outermost samples. -/
theorem offset_sampled {naive : ℤ} (ht : z.clock t = naive) :
    z.offset t = z.offset (naive - 2 * dayMs) ∨ z.offset t = z.offset (naive + 2 * dayMs) := by
  obtain ⟨c, a, b, -, -, hbefore, hafter⟩ := z.around naive
  have hshort := z.short t
  unfold Offsets.clock at ht
  unfold dayMs at *
  rcases lt_or_ge t c with htc | hct
  · left
    rw [hbefore t (by omega) htc, hbefore _ (le_refl _) (by omega)]
  · right
    rw [hafter t hct (by omega), hafter _ (by omega) (le_refl _)]

def Shows (z : Zone) (value : Text) (t : ℤ) : Prop := readWallClock value = some (partsAt t z)

theorem sole_iff {l : List ℤ} {p : ℤ → Prop} (hnodup : l.Nodup) (hmem : ∀ s, s ∈ l ↔ p s) :
    l = [t] ↔ ∀ s, p s ↔ s = t := by
  constructor
  · rintro rfl s
    rw [← hmem, List.mem_singleton]
  · intro h
    refine List.perm_singleton.1 ((List.perm_ext_iff_of_nodup hnodup (List.nodup_singleton t)).2 ?_)
    intro s
    rw [hmem, h, List.mem_singleton]

theorem instantFromWallClock_eq_some_iff (h : readWallClock value = some f)
    (hyear : 100 < f.year) (r : Text) :
    instantFromWallClock value (some z) = some r ↔
      ∃ t, r = ofString (toISOString t) ∧ ∀ s, Shows z value s ↔ s = t := by
  have hshows : ∀ s, Shows z value s ↔ fieldsAt (z.clock s) = f := by
    intro s
    rw [Shows, h, partsAt_eq, Option.some.injEq, eq_comm]
  by_cases hback : fieldsAt (dateUTC f) = f
  · obtain ⟨naive, hnaive⟩ : ∃ naive, naive = dateUTC f := ⟨_, rfl⟩
    rw [← hnaive] at hback
    have hclock : ∀ s, Shows z value s ↔ z.clock s = naive := by
      intro s
      rw [hshows, ← hback]
      exact ⟨fieldsAt_injective, congrArg fieldsAt⟩
    have hparse := (parseWallClock_eq_some_iff h).2 ⟨rfl, hnaive ▸ hback⟩
    have hsample : ∀ hours : ℤ, -48 ≤ hours →
        offsetAt (naive + hours * 3600000) z = z.offset (naive + hours * 3600000) :=
      fun hours hlow => offsetAt_near (by rw [hback]; exact hyear) (by unfold dayMs; omega)
    simp only [instantFromWallClock, hparse, ← hnaive]
    generalize hl : List.mergeSort _ _ = l
    have hmem : ∀ s, s ∈ l ↔ Shows z value s := by
      intro s
      rw [← hl, List.mem_mergeSort, List.mem_filter, decide_eq_true_eq, partsAt_eq, ← hshows,
        and_iff_right_iff_imp, hclock]
      intro hs
      have hs' : naive - z.offset s = s := by
        rw [← hs, Offsets.clock, add_sub_cancel_right]
      refine List.mem_map.2 ⟨z.offset s, List.mem_dedup.2 (List.mem_map.2 ?_), hs'⟩
      rcases offset_sampled hs with hout | hout
      · exact ⟨-48, by simp, (hsample _ (le_refl _)).trans (by rw [hout]; rfl)⟩
      · exact ⟨48, by simp, (hsample _ (by omega)).trans (by rw [hout]; rfl)⟩
    have hnodup : l.Nodup := by
      rw [← hl, (List.mergeSort_perm _ _).nodup_iff]
      exact ((List.nodup_dedup _).map (fun a b hab => by simpa using hab)).filter _
    have hsole : ∀ s, l = [s] ↔ ∀ t, Shows z value t ↔ t = s := fun s => sole_iff hnodup hmem
    simp only [← hsole]
    split
    · simp [eq_comm]
    · next hnot => simpa using fun t _ => hnot t
  · have hparse : parseWallClock value = none := by
      rw [Option.eq_none_iff_forall_ne_some]
      exact fun target htarget => hback ((parseWallClock_eq_some_iff h).1 htarget).2
    refine iff_of_false (by simp [instantFromWallClock, hparse]) ?_
    rintro ⟨t, -, ht⟩
    have hf := (hshows t).1 ((ht t).2 rfl)
    rw [← hf, dateUTC_fieldsAt (by rw [hf]; omega)] at hback
    exact hback rfl

/-! ### There and back -/

theorem two_digits : ∀ n < 100, isDigit (digitUnit (n / 10)) = true ∧
    isDigit (digitUnit (n % 10)) = true ∧
      digitValue (digitUnit (n / 10)) * 10 + digitValue (digitUnit (n % 10)) = n := by
  decide

theorem readFraction_padStart {ms : ℕ} (h : ms < 1000) :
    readFraction (ofString ("." ++ padStart 3 ms)) = some ms := by
  have hdot : ofString "." = [0x2E] := by decide
  have h3 : ms % 10 < 10 := by omega
  obtain ⟨h1, h2, hvalue⟩ := two_digits (ms / 10) (by omega)
  rw [ofString_append, hdot, ofString_padStart_succ, ofString_padStart_two (by omega)]
  simp [readFraction, isDigit_digitUnit h3, digitValue_digitUnit h3, h1, h2]
  omega

/-- What is written of a clock within four digits of a year reads as the clock shows. -/
theorem shows_wallClockFromInstant (hlow : 0 ≤ (partsAt t z).year)
    (hhigh : (partsAt t z).year ≤ 9999) {text : Text}
    (h : wallClockFromInstant (some t) (some z) = some text) : Shows z text t := by
  rw [Shows]
  simp only [wallClockFromInstant, Option.some.injEq] at h
  have hmonth := civilFromDays_month (z.clock t / dayMs)
  have hday := civilFromDays_day (z.clock t / dayMs)
  have hbounds : (partsAt t z).month < 100 ∧ (partsAt t z).day < 100 ∧ (partsAt t z).hour < 100 ∧
      (partsAt t z).minute < 100 ∧ (partsAt t z).second < 100 ∧
      (partsAt t z).millisecond < 1000 := by
    simp only [partsAt, fieldsAt]
    unfold dayMs at *
    omega
  generalize partsAt t z = parts at *
  obtain ⟨year, month, day, hour, minute, second, millisecond⟩ := parts
  obtain ⟨hmonth, hday, hhour, hminute, hsecond, hms⟩ := hbounds
  simp only at *
  obtain ⟨rest, hrest, hfraction⟩ : ∃ rest, rest = ofString
      (if millisecond = 0 then "" else "." ++ padStart 3 millisecond) ∧
        readFraction rest = some millisecond := by
    refine ⟨_, rfl, ?_⟩
    split_ifs with hzero
    · rw [hzero]
      rfl
    · exact readFraction_padStart hms
  have hdash : ofString "-" = [0x2D] := by decide
  have hT : ofString "T" = [0x54] := by decide
  have hcolon : ofString ":" = [0x3A] := by decide
  have hdate := dateParts_dateText (by omega : year.toNat ≤ 9999) (by omega : month ≤ 99)
    (by omega : day ≤ 99)
  rw [dateText] at hdate
  rw [← h, ofString_append, ← hrest]
  simp only [ofString_append, hdash, hT, hcolon, ofString_padStart_two, hmonth, hday, hhour,
    hminute, hsecond, ofString_padStart_four (by omega : year.toNat ≤ 9999), readWallClock,
    List.cons_append, List.nil_append, List.take_succ_cons, List.take_zero, List.drop_succ_cons,
    List.drop_zero]
  simp only [hdate, hfraction, List.all_cons, List.all_nil, two_digits, hhour, hminute, hsecond,
    beq_self_eq_true, Bool.and_true, if_true, Option.map_some, Int.toNat_of_nonneg hlow]

/-- **A wall clock resolves to the only instant that shows it**, if there is just one; none of a year
below 100 resolves, and what is written of an instant resolves to it, in the years of four digits
from 101 on, unless the clock shows the same at another one. -/
theorem instantFromWallClock_resolves (z : Zone) :
    (∀ value : Text, (∀ f, readWallClock value = some f → 100 < f.year) → ∀ r,
      instantFromWallClock value (some z) = some r ↔
        ∃ t, r = ofString (toISOString t) ∧ ∀ s, Shows z value s ↔ s = t) ∧
    (∀ (value : Text) (f : Fields), readWallClock value = some f → f.year < 100 →
      instantFromWallClock value (some z) = none) ∧
    ∀ t, 100 < (partsAt t z).year → (partsAt t z).year ≤ 9999 →
      (∀ s, partsAt s z = partsAt t z → s = t) →
        (wallClockFromInstant (some t) (some z)).bind (instantFromWallClock · (some z)) =
          some (ofString (toISOString t)) := by
  refine ⟨fun value hyear r => ?_, fun value f hread hyear => ?_, fun t hlow hhigh hsole => ?_⟩
  · cases hread : readWallClock value with
    | none =>
      have hparse : parseWallClock value = none := by
        simp only [parseWallClock, hread]
      simp [instantFromWallClock, hparse, Shows, hread]
    | some f => exact instantFromWallClock_eq_some_iff hread (hyear f hread) r
  · simp only [instantFromWallClock, parseWallClock_of_year hread hyear]
  · obtain ⟨text, htext⟩ : ∃ text, wallClockFromInstant (some t) (some z) = some text := ⟨_, rfl⟩
    have hshows := shows_wallClockFromInstant (by omega) hhigh htext
    rw [htext, Option.bind_some, instantFromWallClock_eq_some_iff hshows hlow]
    refine ⟨t, rfl, fun s => ⟨fun hs => hsole s ?_, ?_⟩⟩
    · rw [Shows, hshows] at hs
      exact (Option.some.inj hs).symm
    · rintro rfl
      exact hshows

def utc : Zone where
  offset _ := 0
  units _ := dvd_zero _
  short _ := by
    decide
  isolated s := ⟨s, fun _ _ _ => rfl, fun _ _ _ => rfl⟩

theorem shows_utc (h : readWallClock value = some (fieldsAt t)) (s : ℤ) :
    Shows utc value s ↔ s = t := by
  have hclock : utc.clock s = s := Int.add_zero s
  rw [Shows, h, partsAt_eq, hclock, Option.some.injEq]
  exact ⟨fun hs => (fieldsAt_injective hs).symm, fun hs => by rw [hs]⟩

/-- Half past three in the afternoon of the eighth of March 2026. -/
theorem resolves_afternoon : instantFromWallClock (ofString "2026-03-08T15:30:00") (some utc) =
    some (ofString (toISOString 1772983800000)) := by
  have hread : readWallClock (ofString "2026-03-08T15:30:00") = some (fieldsAt 1772983800000) := by
    decide +kernel
  refine ((instantFromWallClock_resolves utc).1 _ (fun f hf => ?_) _).2
    ⟨1772983800000, rfl, shows_utc hread⟩
  rw [← Option.some.inj (hread.symm.trans hf)]
  decide +kernel

/-- Wall clocks of the year 50 are refused, and so is what is written of the year 10000. -/
theorem refused_years :
    (¬∀ (z : Zone) (value r : Text), instantFromWallClock value (some z) = some r ↔
      ∃ t, r = ofString (toISOString t) ∧ ∀ s, Shows z value s ↔ s = t) ∧
    ¬∀ (z : Zone) (t : ℤ), (∀ s, partsAt s z = partsAt t z → s = t) →
      (wallClockFromInstant (some t) (some z)).bind (instantFromWallClock · (some z)) =
        some (ofString (toISOString t)) := by
  constructor
  · intro h
    have hread : readWallClock (ofString "0050-06-15T12:00:00") =
        some (fieldsAt (-60574996800000)) := by
      decide +kernel
    have hnone : instantFromWallClock (ofString "0050-06-15T12:00:00") (some utc) = none := by
      decide +kernel
    have hsome := (h utc _ _).2 ⟨_, rfl, shows_utc hread⟩
    rw [hnone] at hsome
    cases hsome
  · intro h
    have hfar := h utc 253402300800000 fun s hs => by
      rw [partsAt_eq, partsAt_eq] at hs
      simpa [Offsets.clock, utc] using fieldsAt_injective hs
    revert hfar
    decide +kernel

end ProviderClocks
