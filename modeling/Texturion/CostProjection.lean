/-
**What a period will have cost.**

`overageDecision` of `apps/api/src/billing/overage-projection.ts` multiplies the usage of a period
up to its end, prices it, and compares it with what the company pays.  What pauses at the spending
cap is clamped to what the cap allows, and telecom is the estimate or the carrier's own charges,
whichever is more.  All is computed here in rational numbers.

The multiplier is never below one.  But the clamps are those of the cap as it is now, and usage
that was recorded under a higher one is clamped with the rest.

Main result:

* `CostProjection.extrapolatedCost_covers_iff` — **what was recorded is covered exactly where the
  extrapolation, or the carrier, makes up for what lies beyond the ceilings; and the projection
  grows with every counter.**
-/

import Texturion.LedgeredNotices
import Mathlib.Data.Rat.Floor
import Mathlib.Algebra.Order.Group.MinMax
import Mathlib.Tactic.Positivity

namespace CostProjection

open Notices (PlanId planIncludedSegments planVoiceMinutes)

def planOverageCentsPerSegment : PlanId → ℚ
  | .starter => 3
  | .pro => 5 / 2

def voiceOverageCentsPerMinute : ℚ := 1

/-! ### `UNIT_COST_CENTS` -/

def outboundSegment : ℚ := 115 / 100
def inboundSegment : ℚ := 1
def voiceMinute : ℚ := 12 / 10
def voiceTransfer : ℚ := 10
def storageGbMonth : ℚ := 21 / 10
def egressGb : ℚ := 9

/-- `AI_UNIT_COST_CENTS[feature] ?? 0`. -/
def aiUnitCostCents : String → ℚ
  | "enrich" => 1 / 100
  | "suggest_reply" => 4 / 100
  | "voicemail_transcript" => 25 / 100
  | "voicemail_intake" => 2 / 100
  | "call_wrapup" => 1 / 10
  | "thread_summary" => 4 / 100
  | _ => 0

/-! ### `FIXED_MONTHLY_COST_CENTS` and the thresholds -/

def perNumber : ℚ := 110
def us10dlcCampaign : ℚ := 1000
def minElapsedDaysForWarning : ℚ := 2
def warnCostFraction : ℚ := 9 / 10

def dayMs : ℚ := 86400000
def gb : ℚ := 1024 ^ 3

structure PeriodUsage where
  outboundSegments : ℕ
  inboundSegments : ℕ
  voiceSeconds : ℕ
  forwardedCalls : ℕ
  egressBytes : ℕ
  storageBytes : ℕ
  actualTelecomCostCents : ℚ
  aiRequests : List (String × ℕ)

/-- `periodTiming`: how long the period is, and how much of it is over, in days. -/
def periodTiming (periodStart : ℤ) (periodEnd : Option ℤ) (now : ℤ) : ℚ × ℚ :=
  let periodEnd : ℚ := match periodEnd with
    | some t => t
    | none => periodStart + 30 * dayMs
  (max 1 ((periodEnd - periodStart) / dayMs), max 0 ((now - periodStart) / dayMs))

def extrapolationMultiplier (periodDays elapsedDays : ℚ) : ℚ :=
  max 1 (periodDays / max elapsedDays 1)

/-- `outboundCeiling`; `none` is `Infinity`. -/
def outboundCeiling (plan : PlanId) (overageCapMultiplier : Option ℚ) : Option ℚ :=
  overageCapMultiplier.map ((planIncludedSegments plan : ℚ) * ·)

def voiceCeilingSeconds (plan : PlanId) (overageCapMultiplier : Option ℚ) : Option ℚ :=
  overageCapMultiplier.map ((planVoiceMinutes plan : ℚ) * 60 * ·)

/-- `dialCeilings(plan, overageCapMultiplier).stopAt`.  No multiplier counts as zero, and zero as
the highest. -/
def dialStopAt (plan : PlanId) (overageCapMultiplier : Option ℚ) : ℚ :=
  let multiplier := overageCapMultiplier.getD 0
  let capMultiplier := if 0 < multiplier then min multiplier 10 else 10
  let alertAt : ℤ := max 1 ⌊planVoiceMinutes plan * capMultiplier * voiceMinute / voiceTransfer⌋
  alertAt * 5

/-- `Math.min` with a ceiling. -/
def clamp (x : ℚ) : Option ℚ → ℚ
  | none => x
  | some ceiling => min x ceiling

structure ProjectedUsage where
  costCents : ℚ
  overageRevenueGrossCents : ℚ
  overageSegments : ℚ
  overageVoiceMinutes : ℚ

def aiCents (multiplier : ℚ) (aiRequests : List (String × ℕ)) : ℚ :=
  aiRequests.foldl (fun sum entry => sum + entry.2 * multiplier * aiUnitCostCents entry.1) 0

def projectUsage (usage : PeriodUsage) (plan : PlanId) (overageCapMultiplier : Option ℚ)
    (multiplier : ℚ) : ProjectedUsage :=
  let projectedOutbound :=
    clamp (usage.outboundSegments * multiplier) (outboundCeiling plan overageCapMultiplier)
  let projectedInbound := usage.inboundSegments * multiplier
  let projectedVoiceSeconds :=
    clamp (usage.voiceSeconds * multiplier) (voiceCeilingSeconds plan overageCapMultiplier)
  let projectedForwardedCalls :=
    clamp (usage.forwardedCalls * multiplier) (some (dialStopAt plan overageCapMultiplier))
  let projectedEgressBytes := usage.egressBytes * multiplier
  let estimatedTelecomCents := projectedOutbound * outboundSegment +
    projectedInbound * inboundSegment + projectedVoiceSeconds / 60 * voiceMinute +
      projectedForwardedCalls * voiceTransfer
  let telecomCents := max estimatedTelecomCents (usage.actualTelecomCostCents * multiplier)
  let costCents := telecomCents + projectedEgressBytes / gb * egressGb +
    aiCents multiplier usage.aiRequests
  let overageVoiceMinutes := max 0 (projectedVoiceSeconds / 60 - planVoiceMinutes plan)
  let overageSegments := max 0 (projectedOutbound - planIncludedSegments plan)
  { costCents
    overageRevenueGrossCents := overageSegments * planOverageCentsPerSegment plan +
      overageVoiceMinutes * voiceOverageCentsPerMinute
    overageSegments
    overageVoiceMinutes }

def storageMonthlyCostCents (storageBytes : ℕ) : ℚ := storageBytes / gb * storageGbMonth

def fixedMonthlyCostCents (numbers : ℕ) (usTextingEnabled : Bool) : ℚ :=
  numbers * perNumber + if usTextingEnabled then us10dlcCampaign else 0

def stripeNetCents (grossCents : ℚ) : ℚ :=
  max 0 (grossCents * (1 - 29 / 1000 - 5 / 1000) - 30)

structure Inputs where
  usage : PeriodUsage
  plan : PlanId
  overageCapMultiplier : Option ℚ
  numbers : ℕ
  usTextingEnabled : Bool
  baseRevenueGrossCents : ℚ
  periodStart : ℤ
  periodEnd : Option ℤ

structure OverageDecision where
  trendingOver : Bool
  extrapolatedCostCents : ℚ
  revenueCents : ℚ
  marginCents : ℚ
  projectedOverageChargesCents : ℚ
  projectedOverageSegments : ℚ
  projectedOverageVoiceMinutes : ℚ
  elapsedDays : ℚ
  periodDays : ℚ

namespace Inputs

def multiplier (i : Inputs) (now : ℤ) : ℚ :=
  let timing := periodTiming i.periodStart i.periodEnd now
  extrapolationMultiplier timing.1 timing.2

end Inputs

def overageDecision (i : Inputs) (now : ℤ) : OverageDecision :=
  let (periodDays, elapsedDays) := periodTiming i.periodStart i.periodEnd now
  let projected := projectUsage i.usage i.plan i.overageCapMultiplier (i.multiplier now)
  let extrapolatedCostCents := projected.costCents + storageMonthlyCostCents i.usage.storageBytes +
    fixedMonthlyCostCents i.numbers i.usTextingEnabled
  let revenueCents := stripeNetCents (i.baseRevenueGrossCents + projected.overageRevenueGrossCents)
  { trendingOver := decide (elapsedDays ≥ minElapsedDaysForWarning) &&
      decide (extrapolatedCostCents > revenueCents * warnCostFraction)
    extrapolatedCostCents
    revenueCents
    marginCents := revenueCents - extrapolatedCostCents
    projectedOverageChargesCents := projected.overageRevenueGrossCents
    projectedOverageSegments := projected.overageSegments
    projectedOverageVoiceMinutes := projected.overageVoiceMinutes
    elapsedDays
    periodDays }

/-! ### What was recorded -/

namespace PeriodUsage

/-- The recorded telecom usage at unit prices. -/
def telecomCents (u : PeriodUsage) : ℚ :=
  u.outboundSegments * outboundSegment + u.inboundSegments * inboundSegment +
    u.voiceSeconds / 60 * voiceMinute + u.forwardedCalls * voiceTransfer

/-- The other recorded flows at unit prices. -/
def otherCents (u : PeriodUsage) : ℚ := u.egressBytes / gb * egressGb + aiCents 1 u.aiRequests

end PeriodUsage

def Inputs.recordedCents (i : Inputs) : ℚ :=
  i.usage.telecomCents + i.usage.otherCents + storageMonthlyCostCents i.usage.storageBytes +
    fixedMonthlyCostCents i.numbers i.usTextingEnabled

/-- One counter has grown. -/
inductive Grows (u : PeriodUsage) : PeriodUsage → Prop
  | outboundSegments (n : ℕ) : Grows u { u with outboundSegments := u.outboundSegments + n }
  | inboundSegments (n : ℕ) : Grows u { u with inboundSegments := u.inboundSegments + n }
  | voiceSeconds (n : ℕ) : Grows u { u with voiceSeconds := u.voiceSeconds + n }
  | forwardedCalls (n : ℕ) : Grows u { u with forwardedCalls := u.forwardedCalls + n }
  | egressBytes (n : ℕ) : Grows u { u with egressBytes := u.egressBytes + n }
  | storageBytes (n : ℕ) : Grows u { u with storageBytes := u.storageBytes + n }
  | actualTelecomCostCents (x : ℚ) (hx : 0 ≤ x) :
      Grows u { u with actualTelecomCostCents := u.actualTelecomCostCents + x }
  | aiRequests (before after : List (String × ℕ)) (feature : String) (k n : ℕ)
      (h : u.aiRequests = before ++ (feature, k) :: after) :
      Grows u { u with aiRequests := before ++ (feature, k + n) :: after }
  | aiFeature (feature : String) (n : ℕ) :
      Grows u { u with aiRequests := u.aiRequests ++ [(feature, n)] }

/-! ### Beyond the ceilings -/

/-- How much of a counter lies beyond its ceiling. -/
def beyond (x : ℚ) : Option ℚ → ℚ
  | none => 0
  | some ceiling => max 0 (x - ceiling)

/-- How much the extrapolation adds to a counter, up to its ceiling. -/
def added (multiplier x : ℚ) : Option ℚ → ℚ
  | none => x * multiplier - x
  | some ceiling => max 0 (min (x * multiplier - x) (ceiling - x))

namespace Inputs

/-- What recorded usage beyond the ceilings costs. -/
def beyondCents (i : Inputs) : ℚ :=
  beyond i.usage.outboundSegments (outboundCeiling i.plan i.overageCapMultiplier) *
      outboundSegment +
    beyond i.usage.voiceSeconds (voiceCeilingSeconds i.plan i.overageCapMultiplier) / 60 *
      voiceMinute +
    beyond i.usage.forwardedCalls (some (dialStopAt i.plan i.overageCapMultiplier)) *
      voiceTransfer

def addedCents (i : Inputs) (m : ℚ) : ℚ :=
  added m i.usage.outboundSegments (outboundCeiling i.plan i.overageCapMultiplier) *
      outboundSegment + (m - 1) * (i.usage.inboundSegments * inboundSegment) +
    added m i.usage.voiceSeconds (voiceCeilingSeconds i.plan i.overageCapMultiplier) / 60 *
      voiceMinute +
    added m i.usage.forwardedCalls (some (dialStopAt i.plan i.overageCapMultiplier)) *
      voiceTransfer

/-- What recorded usage beyond the ceilings costs is made up for: by what the extrapolation adds to
the rest, or by what the carrier has charged. -/
def Covered (i : Inputs) (now : ℤ) : Prop :=
  i.beyondCents ≤ i.addedCents (i.multiplier now) + (i.multiplier now - 1) * i.usage.otherCents ∨
    i.usage.telecomCents ≤ i.usage.actualTelecomCostCents * i.multiplier now +
      (i.multiplier now - 1) * i.usage.otherCents

end Inputs

/-! ### The parts of the projection -/

variable {m x : ℚ}

theorem one_le_multiplier (i : Inputs) (now : ℤ) : 1 ≤ i.multiplier now := le_max_left _ _

/-- A clamped extrapolation, by what it adds to the counter and by what it takes off. -/
theorem clamp_eq (hm : 1 ≤ m) (hx : 0 ≤ x) (ceiling : Option ℚ) :
    clamp (x * m) ceiling = x + added m x ceiling - beyond x ceiling := by
  have hgrown : x ≤ x * m := le_mul_of_one_le_right hx hm
  cases ceiling with
  | none => simp [clamp, added, beyond]
  | some c =>
    simp only [clamp, added, beyond]
    rcases le_total c x with hcx | hxc
    · -- the counter is past its ceiling
      have hadded : max 0 (min (x * m - x) (c - x)) = 0 :=
        max_eq_left ((min_le_right _ _).trans (by linarith))
      have hbeyond : max 0 (x - c) = x - c := max_eq_right (by linarith)
      rw [hadded, hbeyond, min_eq_right (hcx.trans hgrown)]
      ring
    · have hadded : max 0 (min (x * m - x) (c - x)) = min (x * m) c - x := by
        rw [max_eq_right (le_min (by linarith) (by linarith)), min_sub_sub_right]
      have hbeyond : max 0 (x - c) = 0 := max_eq_left (by linarith)
      rw [hadded, hbeyond]
      ring

theorem clamp_mono {y : ℚ} (h : x ≤ y) (ceiling : Option ℚ) : clamp x ceiling ≤ clamp y ceiling := by
  cases ceiling with
  | none => exact h
  | some c => exact min_le_min_right c h

theorem aiCents_cons (entry : String × ℕ) (entries : List (String × ℕ)) :
    aiCents m (entry :: entries) =
      entry.2 * m * aiUnitCostCents entry.1 + aiCents m entries := by
  have hfrom : ∀ (l : List (String × ℕ)) (a b : ℚ),
      l.foldl (fun sum e => sum + e.2 * m * aiUnitCostCents e.1) (a + b) =
        a + l.foldl (fun sum e => sum + e.2 * m * aiUnitCostCents e.1) b := by
    intro l
    induction l with
    | nil => exact fun a b => rfl
    | cons e l ih => exact fun a b => by rw [List.foldl_cons, add_assoc, ih, List.foldl_cons]
  rw [aiCents, aiCents, List.foldl_cons, zero_add, ← hfrom, add_zero]

theorem aiCents_eq (entries : List (String × ℕ)) : aiCents m entries = aiCents 1 entries * m := by
  induction entries with
  | nil => exact (zero_mul m).symm
  | cons entry entries ih =>
    rw [aiCents_cons, aiCents_cons, ih]
    ring

theorem aiCents_append (entries rest : List (String × ℕ)) :
    aiCents m (entries ++ rest) = aiCents m entries + aiCents m rest := by
  induction entries with
  | nil => exact (zero_add _).symm
  | cons entry entries ih => rw [List.cons_append, aiCents_cons, aiCents_cons, ih, add_assoc]

theorem aiUnitCostCents_nonneg (feature : String) : 0 ≤ aiUnitCostCents feature := by
  unfold aiUnitCostCents
  split <;> norm_num

/-- The estimate of the telecom costs. -/
def estimatedTelecomCents (u : PeriodUsage) (plan : PlanId) (cap : Option ℚ) (m : ℚ) : ℚ :=
  clamp (u.outboundSegments * m) (outboundCeiling plan cap) * outboundSegment +
    u.inboundSegments * m * inboundSegment +
    clamp (u.voiceSeconds * m) (voiceCeilingSeconds plan cap) / 60 * voiceMinute +
    clamp (u.forwardedCalls * m) (some (dialStopAt plan cap)) * voiceTransfer

/-- The extrapolated cost, with its maximum of an estimate and the carrier's charges. -/
theorem extrapolatedCost_eq (i : Inputs) (now : ℤ) :
    (overageDecision i now).extrapolatedCostCents =
      max (estimatedTelecomCents i.usage i.plan i.overageCapMultiplier (i.multiplier now))
          (i.usage.actualTelecomCostCents * i.multiplier now) +
        i.usage.otherCents * i.multiplier now + storageMonthlyCostCents i.usage.storageBytes +
          fixedMonthlyCostCents i.numbers i.usTextingEnabled := by
  have hai := @aiCents_eq (i.multiplier now) i.usage.aiRequests
  have hother : i.usage.egressBytes * i.multiplier now / gb * egressGb +
      aiCents (i.multiplier now) i.usage.aiRequests = i.usage.otherCents * i.multiplier now := by
    rw [hai, PeriodUsage.otherCents]
    ring
  rw [← hother, ← add_assoc]
  rfl

theorem estimatedTelecomCents_eq (i : Inputs) (hm : 1 ≤ m) :
    estimatedTelecomCents i.usage i.plan i.overageCapMultiplier m =
      i.usage.telecomCents + i.addedCents m - i.beyondCents := by
  rw [estimatedTelecomCents, clamp_eq hm (Nat.cast_nonneg _), clamp_eq hm (Nat.cast_nonneg _),
    clamp_eq hm (Nat.cast_nonneg _), PeriodUsage.telecomCents, Inputs.addedCents,
    Inputs.beyondCents]
  ring

theorem recorded_le_iff (i : Inputs) (now : ℤ) :
    i.recordedCents ≤ (overageDecision i now).extrapolatedCostCents ↔ i.Covered now := by
  have hle : i.recordedCents ≤ (overageDecision i now).extrapolatedCostCents ↔
      i.usage.telecomCents - (i.multiplier now - 1) * i.usage.otherCents ≤
        max (estimatedTelecomCents i.usage i.plan i.overageCapMultiplier (i.multiplier now))
          (i.usage.actualTelecomCostCents * i.multiplier now) := by
    rw [extrapolatedCost_eq, Inputs.recordedCents]
    constructor <;> intro h <;> linarith
  rw [hle, le_max_iff, estimatedTelecomCents_eq i (one_le_multiplier i now), Inputs.Covered]
  refine or_congr ?_ ?_ <;> constructor <;> intro h <;> linarith

/-! ### Growing counters -/

variable {u v : PeriodUsage}

theorem Grows.counters (h : Grows u v) :
    (u.outboundSegments ≤ v.outboundSegments ∧ u.inboundSegments ≤ v.inboundSegments ∧
        u.voiceSeconds ≤ v.voiceSeconds ∧ u.forwardedCalls ≤ v.forwardedCalls) ∧
      (u.egressBytes ≤ v.egressBytes ∧ u.storageBytes ≤ v.storageBytes) ∧
        u.actualTelecomCostCents ≤ v.actualTelecomCostCents ∧
          aiCents 1 u.aiRequests ≤ aiCents 1 v.aiRequests := by
  cases h with
  | aiRequests before after feature k n hentry =>
    refine ⟨by simp, by simp, le_rfl, ?_⟩
    rw [hentry, aiCents_append, aiCents_append, aiCents_cons, aiCents_cons]
    have hmore : (k : ℚ) * 1 * aiUnitCostCents feature ≤
        ((k + n : ℕ) : ℚ) * 1 * aiUnitCostCents feature := by
      refine mul_le_mul_of_nonneg_right ?_ (aiUnitCostCents_nonneg feature)
      push_cast
      linarith [Nat.cast_nonneg (α := ℚ) n]
    linarith
  | aiFeature feature n =>
    refine ⟨by simp, by simp, le_rfl, ?_⟩
    rw [aiCents_append, aiCents_cons]
    have hmore : 0 ≤ (n : ℚ) * 1 * aiUnitCostCents feature := by
      have hprice := aiUnitCostCents_nonneg feature
      positivity
    have hnil : aiCents 1 [] = 0 := rfl
    linarith
  | _ => simp_all

theorem estimatedTelecomCents_mono (hm : 1 ≤ m) (h : Grows u v) (plan : PlanId) (cap : Option ℚ) :
    estimatedTelecomCents u plan cap m ≤ estimatedTelecomCents v plan cap m := by
  obtain ⟨⟨hout, hin, hvoice, hcalls⟩, -⟩ := h.counters
  have hm0 : 0 ≤ m := zero_le_one.trans hm
  have hgrown : ∀ {k l : ℕ}, k ≤ l → (k : ℚ) * m ≤ l * m := fun hkl =>
    mul_le_mul_of_nonneg_right (Nat.cast_le.2 hkl) hm0
  have hvoice' := clamp_mono (hgrown hvoice) (voiceCeilingSeconds plan cap)
  have hcalls' := clamp_mono (hgrown hcalls) (some (dialStopAt plan cap))
  have hout' := clamp_mono (hgrown hout) (outboundCeiling plan cap)
  have hin' := hgrown hin
  simp only [estimatedTelecomCents, outboundSegment, inboundSegment, voiceMinute, voiceTransfer]
  linarith

theorem extrapolatedCost_mono (i : Inputs) (now : ℤ) (h : Grows i.usage v) :
    (overageDecision i now).extrapolatedCostCents ≤
      (overageDecision { i with usage := v } now).extrapolatedCostCents := by
  have hm := one_le_multiplier i now
  have hm0 : 0 ≤ i.multiplier now := zero_le_one.trans hm
  obtain ⟨-, ⟨hegress, hstored⟩, hactual, hai⟩ := h.counters
  rw [extrapolatedCost_eq, extrapolatedCost_eq]
  have htelecom := max_le_max (estimatedTelecomCents_mono hm h i.plan i.overageCapMultiplier)
    (mul_le_mul_of_nonneg_right hactual hm0)
  have hbytes : (i.usage.egressBytes : ℚ) / gb * egressGb ≤ v.egressBytes / gb * egressGb := by
    have hle : (i.usage.egressBytes : ℚ) ≤ v.egressBytes := Nat.cast_le.2 hegress
    norm_num only [gb, egressGb]
    linarith
  have hother : i.usage.otherCents * i.multiplier now ≤ v.otherCents * i.multiplier now :=
    mul_le_mul_of_nonneg_right (add_le_add hbytes hai) hm0
  have hstorage : storageMonthlyCostCents i.usage.storageBytes ≤
      storageMonthlyCostCents v.storageBytes := by
    have hle : (i.usage.storageBytes : ℚ) ≤ v.storageBytes := Nat.cast_le.2 hstored
    norm_num only [storageMonthlyCostCents, gb, storageGbMonth]
    linarith
  exact add_le_add_left (add_le_add (add_le_add htelecom hother) hstorage) _

/-! ### Never under-counted -/

/-- **What was recorded is covered** by the extrapolated cost exactly where the extrapolation, or
what the carrier has charged, makes up for what lies beyond the ceilings; and the cost never
decreases when a counter grows. -/
theorem extrapolatedCost_covers_iff (i : Inputs) (now : ℤ) :
    (i.recordedCents ≤ (overageDecision i now).extrapolatedCostCents ∧
        ∀ v, Grows i.usage v → (overageDecision i now).extrapolatedCostCents ≤
          (overageDecision { i with usage := v } now).extrapolatedCostCents) ↔ i.Covered now := by
  rw [recorded_le_iff]
  exact and_iff_left fun v h => extrapolatedCost_mono i now h

/-- Three times the included segments were sent, under the cap as it was; then the cap was set to
the allowance itself, on the last day of the month. -/
theorem lowered_cap : ¬∀ (i : Inputs) (now : ℤ), i.periodStart ≤ now → (∀ t ∈ i.periodEnd, now ≤ t) →
    i.recordedCents ≤ (overageDecision i now).extrapolatedCostCents := by
  intro h
  have hle := h ⟨⟨1500, 0, 0, 0, 0, 0, 0, []⟩, .starter, some 1, 1, false, 2900, 0,
    some 2592000000⟩ 2592000000 (by decide) (by decide)
  revert hle
  decide +kernel

end CostProjection
