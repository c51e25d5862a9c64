/-
**The ledgered notices.**

`apps/api/src/billing/grace.ts`, `apps/api/src/billing/usage-alerts.ts` and
`apps/api/src/webhooks/stripe.ts` mail the notices a customer must get once: the grace warnings and
the release notice, the usage alerts, the payment-failed notice and the notice that numbers came
back held.  Each has a key in a ledger, inserted first.  This module writes the jobs and handlers as
scripts of `Texturion/ClaimFirst.lean`, says which notices a run owes, and derives from there when
they are mailed exactly once.

What the database answers to the reads of a run is given with its request; neighbouring calls that
fail alike are one line.  The push that follows a mail never throws and is left out.

Main result:

* `Notices.notice_mailed_once` — **in a sequence of attended runs, every notice due to a completed
  run is mailed exactly once**.
-/

import Mathlib.Algebra.Ring.Nat
import Texturion.ClaimFirst
import Texturion.SqlTable

namespace Notices

open ClaimFirst

/-! ### Keys and calls -/

inductive PlanId
  | starter
  | pro
  deriving DecidableEq

inductive LocalSubscriptionStatus
  | incomplete
  | incompleteExpired
  | active
  | pastDue
  | unpaid
  | canceled
  deriving DecidableEq

inductive UsageAlertMetric
  | segments
  | storageAbuse
  | voiceMinutes
  | voiceDials
  | inboundVolume
  | egress
  deriving DecidableEq

/-- The primary keys of `grace_notices` and `usage_alerts`, and the keys the handlers write to
`email_ledger`. -/
inductive Notice
  | grace (companyId : ℕ) (canceledAt : ℤ) (thresholdDay : ℕ)
  | usage (companyId : ℕ) (periodStart : ℤ) (metric : UsageAlertMetric) (threshold : ℕ)
  | invoicePaymentFailed (companyId invoiceId attemptCount : ℕ)
  | numbersHeld (companyId sessionId : ℕ)
  deriving DecidableEq

inductive Call
  | canceledCompanies
  | companiesWithUnreleasedResources
  | numbersToRelease
  | campaignActive
  | releaseCompanyNumbers
  | deactivateCampaign
  | activeCompanies
  | periodSegments
  | storageUsage
  | periodForwardSeconds
  | periodForwardedCalls
  | periodInboundSegments
  | periodEgressBytes
  | retrieveSubscription
  | mirrorSubscription
  | reconcileModules
  | mirrorCancellation
  | claimCanceledAt
  | suspendCompanyNumbers
  | clearFeeMarker
  | voidInvoice
  | claimCheckoutActivation
  | claimNumberAllowance
  | startPendingPorts
  | provisionCompanyNumber
  | submitRegistration
  deriving DecidableEq

/-! ### The grace job -/

def dayMs : ℤ := 24 * 60 * 60 * 1000

def graceThresholdDays : List ℕ := [1, 15, 27]

def gracePeriodDays : ℕ := 30

def graceReleasedNoticeDay : ℕ := 30

/-- A canceled company that is not deleted, with what it still owns. -/
structure CanceledCompany where
  id : ℕ
  canceledAt : ℤ
  numbersToRelease : ℕ
  campaignActive : Bool
  deriving DecidableEq

/-- The canceled companies of the database. -/
structure CanceledCompanies where
  rows : List CanceledCompany
  distinct : (rows.map (·.id)).Nodup

def CanceledCompany.hasUnreleased (c : CanceledCompany) : Bool :=
  decide (0 < c.numbersToRelease) || c.campaignActive

/-- `companiesWithUnreleasedResources`: those with numbers, then those with only a campaign. -/
def companiesWithUnreleasedResources (rows : List CanceledCompany) (olderThan : ℤ) :
    List CanceledCompany :=
  let older := rows.filter fun c => c.canceledAt < olderThan
  older.filter (fun c => 0 < c.numbersToRelease) ++
    older.filter fun c => c.numbersToRelease = 0 ∧ c.campaignActive

def graceCutoff (now : ℤ) : ℤ := now - (graceReleasedNoticeDay + 3) * dayMs

/-- The companies a grace run works through. -/
def graceQueue (rows : List CanceledCompany) (now : ℤ) : List CanceledCompany :=
  let data := rows.filter fun c => graceCutoff now ≤ c.canceledAt
  let stragglers := companiesWithUnreleasedResources rows (graceCutoff now)
  data ++ stragglers.filter fun row => row.id ∉ data.map (·.id)

def daysElapsed (now canceledAt : ℤ) : ℤ := (now - canceledAt) / dayMs

def releaseExpiredCompany (c : CanceledCompany) : List (Line Notice Call) :=
  [.call .numbersToRelease, .call .campaignActive] ++
    (if c.numbersToRelease > 0 then [.call .releaseCompanyNumbers] else []) ++
    (if c.campaignActive then [.call .deactivateCampaign] else []) ++
    [.notice (.grace c.id c.canceledAt graceReleasedNoticeDay)]

/-- What `runGraceJob` does for one company; closing out dead provisioning rows never throws. -/
def graceLines (now : ℤ) (c : CanceledCompany) : List (Line Notice Call) :=
  ((graceThresholdDays.filter fun day : ℕ => daysElapsed now c.canceledAt ≥ day).map fun day =>
      .notice (.grace c.id c.canceledAt day)) ++
    if daysElapsed now c.canceledAt ≥ gracePeriodDays then releaseExpiredCompany c else []

def runGraceJob (now : ℤ) (companies : CanceledCompanies) : Script Notice Call :=
  .block [.call .canceledCompanies, .call .companiesWithUnreleasedResources]
    (.each (graceLines now) (graceQueue companies.rows now) .finish) .finish

/-! ### The usage alerts -/

def usageAlertPercents : List ℕ := [80, 100]

def planIncludedSegments : PlanId → ℕ
  | .starter => 500
  | .pro => 2500

def planVoiceMinutes : PlanId → ℕ
  | .starter => 2500
  | .pro => 6000

def storageAbuseTiersGb : List ℕ := [25, 50, 100, 200, 400]

def inboundAbuseTiersSegments : List ℕ := [2500, 5000, 10000, 25000, 50000]

def egressAllowanceBytes : ℕ := 200 * 1024 * 1024 * 1024

def usageAlertsBatch : ℕ := 200

/-- An active company with a plan and a period, what the sums of its period come to, and the
`alertAt` that `dialCeilings` makes of its plan and cap. -/
structure ActiveCompany where
  id : ℕ
  plan : PlanId
  currentPeriodStart : ℤ
  dialAlertAt : ℕ
  segments : ℕ
  storedBytes : ℕ
  voiceSeconds : ℕ
  dials : ℕ
  inbound : ℕ
  egressBytes : ℕ
  deriving DecidableEq

def ActiveCompany.key (c : ActiveCompany) (metric : UsageAlertMetric) (threshold : ℕ) : Notice :=
  .usage c.id c.currentPeriodStart metric threshold

/-- The arms that compare with 80 and 100 per cent of an allowance. -/
def percentArm (c : ActiveCompany) (metric : UsageAlertMetric) (used included : ℕ) :
    List (Line Notice Call) :=
  (usageAlertPercents.filter fun threshold => used * 100 ≥ included * threshold).map fun threshold =>
    .notice (c.key metric threshold)

def tierArm (c : ActiveCompany) (metric : UsageAlertMetric) (tiers : List ℕ) (unit used : ℕ) :
    List (Line Notice Call) :=
  (tiers.filter fun tier => used ≥ tier * unit).map fun tier => .notice (c.key metric tier)

/-- What `runUsageAlertsJob` does for one company. -/
def usageLines (c : ActiveCompany) : List (Line Notice Call) :=
  .call .periodSegments :: percentArm c .segments c.segments (planIncludedSegments c.plan) ++
  .call .storageUsage :: tierArm c .storageAbuse storageAbuseTiersGb (1024 ^ 3) c.storedBytes ++
  .call .periodForwardSeconds ::
    percentArm c .voiceMinutes c.voiceSeconds (planVoiceMinutes c.plan * 60) ++
  .call .periodForwardedCalls ::
    (if c.dials ≥ c.dialAlertAt then [.notice (c.key .voiceDials c.dialAlertAt)] else []) ++
  .call .periodInboundSegments ::
    tierArm c .inboundVolume inboundAbuseTiersSegments 1 c.inbound ++
  .call .periodEgressBytes :: percentArm c .egress c.egressBytes egressAllowanceBytes

def runUsageAlertsJob (companies : List ActiveCompany) : Script Notice Call :=
  .block [.call .activeCompanies]
    (.each usageLines (SqlTable.firstBy (fun c => c.id) usageAlertsBatch companies) .finish) .finish

/-! ### The Stripe handlers -/

/-- A company the mirror of a subscription has written; `claim` is the `canceled_at` its row holds
once it has been claimed. -/
structure MirroredCompany where
  id : ℕ
  canceledAt : Option ℤ
  claim : ℤ
  deriving DecidableEq

/-- A subscription as it is fetched, `none` standing for a status that is not mirrored. -/
structure Subscription where
  status : Option LocalSubscriptionStatus
  companies : List MirroredCompany
  deriving DecidableEq

def hasLiveSubscription : LocalSubscriptionStatus → Bool
  | .active | .pastDue | .unpaid => true
  | .incomplete | .incompleteExpired | .canceled => false

def startCancellationLifecycle (c : MirroredCompany) : List (Line Notice Call) :=
  match c.canceledAt with
  | some canceledAt => [.call .suspendCompanyNumbers, .notice (.grace c.id canceledAt 1)]
  | none =>
      [.call .claimCanceledAt, .call .suspendCompanyNumbers, .notice (.grace c.id c.claim 1)]

def syncSubscription (s : Subscription) : List (Line Notice Call) :=
  .call .retrieveSubscription ::
    match s.status with
    | none => []
    | some status =>
        .call .mirrorSubscription ::
          if status = .canceled then s.companies.flatMap startCancellationLifecycle
          else if hasLiveSubscription status then s.companies.map fun _ => .call .reconcileModules
          else []

/-- `customer.subscription.deleted`, for the company that is found. -/
def handleSubscriptionDeleted (companies : List MirroredCompany) : List (Line Notice Call) :=
  .call .mirrorCancellation ::
    match companies.head? with
    | none => []
    | some c => startCancellationLifecycle c

structure FailedInvoice where
  id : ℕ
  attemptCount : ℕ
  usRegistration : Bool
  subscription : Option Subscription
  deriving DecidableEq

/-- The companies `syncSubscription` returns that the dunning mail goes to. -/
def Subscription.unpaidCompanies (s : Subscription) : List MirroredCompany :=
  match s.status with
  | none | some .active => []
  | some _ => s.companies

def handleInvoicePaymentFailed (invoice : FailedInvoice) : List (Line Notice Call) :=
  (if invoice.usRegistration then [.call .clearFeeMarker, .call .voidInvoice] else []) ++
    match invoice.subscription with
    | none => []
    | some s =>
        syncSubscription s ++ s.unpaidCompanies.map fun c =>
          .notice (.invoicePaymentFailed c.id invoice.id invoice.attemptCount)

/-- A checkout session with what its handler finds: the mirrored status, whether the completion is a
raced duplicate, whether the price is in the catalog, and the numbers the allowance holds. -/
structure CheckoutSession where
  id : ℕ
  companyId : ℕ
  status : LocalSubscriptionStatus
  duplicate : Bool
  planKnown : Bool
  held : List ℕ
  deriving DecidableEq

/-- The rest of an activation, after the notice. -/
def CheckoutSession.provision : Script Notice Call :=
  .block [.call .startPendingPorts, .call .provisionCompanyNumber, .call .submitRegistration]
    .finish .finish

/-- The notice of held numbers is best effort: the activation goes on without it. -/
def CheckoutSession.noticeHeldNumbers (s : CheckoutSession) : Script Notice Call :=
  if s.held.length > 0 ∧ s.planKnown then
    .block [.notice (.numbersHeld s.companyId s.id)] provision provision
  else provision

def handleCheckoutCompleted (s : CheckoutSession) : Script Notice Call :=
  .block [.call .retrieveSubscription]
    (if s.status = .canceled then .finish
    else .block [.call .claimCheckoutActivation]
      (if s.duplicate then .finish
      else .block [.call .reconcileModules]
        (if s.status = .active then
          .block [.call .claimNumberAllowance] s.noticeHeldNumbers .finish
        else .finish) .finish) .finish) .finish

/-! ### The runs -/

inductive Request
  | grace (now : ℤ) (companies : CanceledCompanies)
  | usage (companies : List ActiveCompany)
  | subscription (s : Subscription)
  | subscriptionDeleted (companies : List MirroredCompany)
  | invoicePaymentFailed (invoice : FailedInvoice)
  | checkoutCompleted (session : CheckoutSession)

def script : Request → Script Notice Call
  | .grace now companies => runGraceJob now companies
  | .usage companies => runUsageAlertsJob companies
  | .subscription s => .block (syncSubscription s) .finish .finish
  | .subscriptionDeleted companies => .block (handleSubscriptionDeleted companies) .finish .finish
  | .invoicePaymentFailed invoice => .block (handleInvoicePaymentFailed invoice) .finish .finish
  | .checkoutCompleted session => handleCheckoutCompleted session

/-- Every notice looks up its recipients; the release notice first asks whether there ever was a
number, and the held-numbers notice reads the company's name. -/
def lookups : Notice → List Lookup
  | .grace _ _ day => if day = graceReleasedNoticeDay then [.audience, .audience] else [.audience]
  | .usage .. => [.audience]
  | .invoicePaymentFailed .. => [.audience]
  | .numbersHeld .. => [.reading, .audience]

/-- Only `noticeHeldNumbers` gives its claim back. -/
def givesBack : Notice → Bool
  | .numbersHeld .. => true
  | .grace .. | .usage .. | .invoicePaymentFailed .. => false

def policy : Policy Notice Call Request where
  script := script
  lookups := lookups
  givesBack := givesBack

/-! ### What a run owes -/

/-- The notices still owed to a canceled company: for three days after the release, or for as long
as the release has something left to take back. -/
def CanceledCompany.InScope (c : CanceledCompany) (now : ℤ) : Prop :=
  now ≤ c.canceledAt + (graceReleasedNoticeDay + 3) * dayMs ∨ c.hasUnreleased

/-- The day of the notice has come: the days of the warnings, and the release, which is a fact only
for a company that ever had a number. -/
def GraceDayReached (hadNumber : ℕ → Bool) (now : ℤ) (c : CanceledCompany) (day : ℕ) : Prop :=
  c.canceledAt + day * dayMs ≤ now ∧
    (day ∈ graceThresholdDays ∨ day = graceReleasedNoticeDay ∧ hadNumber c.id)

def ThresholdReached (c : ActiveCompany) : UsageAlertMetric → ℕ → Prop
  | .segments, t => t ∈ usageAlertPercents ∧ planIncludedSegments c.plan * t ≤ c.segments * 100
  | .storageAbuse, t => t ∈ storageAbuseTiersGb ∧ t * 1024 ^ 3 ≤ c.storedBytes
  | .voiceMinutes, t =>
      t ∈ usageAlertPercents ∧ planVoiceMinutes c.plan * 60 * t ≤ c.voiceSeconds * 100
  | .voiceDials, t => t = c.dialAlertAt ∧ c.dialAlertAt ≤ c.dials
  | .inboundVolume, t => t ∈ inboundAbuseTiersSegments ∧ t ≤ c.inbound
  | .egress, t => t ∈ usageAlertPercents ∧ egressAllowanceBytes * t ≤ c.egressBytes * 100

/-- What a run that is asked this has to have had mailed once it is completed. -/
inductive Due (hadNumber : ℕ → Bool) : Request → Notice → Prop
  | grace {now : ℤ} {companies : CanceledCompanies} {c : CanceledCompany} {day : ℕ}
      (hc : c ∈ companies.rows) (hscope : c.InScope now)
      (hday : GraceDayReached hadNumber now c day) :
      Due hadNumber (.grace now companies) (.grace c.id c.canceledAt day)
  | usage {companies : List ActiveCompany} {c : ActiveCompany} {metric : UsageAlertMetric}
      {threshold : ℕ} (hc : c ∈ companies) (hreached : ThresholdReached c metric threshold) :
      Due hadNumber (.usage companies) (.usage c.id c.currentPeriodStart metric threshold)
  | canceled {s : Subscription} {c : MirroredCompany} (hstatus : s.status = some .canceled)
      (hc : c ∈ s.companies) :
      Due hadNumber (.subscription s) (.grace c.id (c.canceledAt.getD c.claim) 1)
  | deleted {companies : List MirroredCompany} {c : MirroredCompany}
      (hc : companies.head? = some c) :
      Due hadNumber (.subscriptionDeleted companies) (.grace c.id (c.canceledAt.getD c.claim) 1)
  | unpaid {invoice : FailedInvoice} {s : Subscription} {status : LocalSubscriptionStatus}
      {c : MirroredCompany} (hs : invoice.subscription = some s) (hstatus : s.status = some status)
      (hunpaid : status ≠ .active) (hc : c ∈ s.companies) :
      Due hadNumber (.invoicePaymentFailed invoice)
        (.invoicePaymentFailed c.id invoice.id invoice.attemptCount)
  | canceledUnpaid {invoice : FailedInvoice} {s : Subscription} {c : MirroredCompany}
      (hs : invoice.subscription = some s) (hstatus : s.status = some .canceled)
      (hc : c ∈ s.companies) :
      Due hadNumber (.invoicePaymentFailed invoice) (.grace c.id (c.canceledAt.getD c.claim) 1)
  | held {session : CheckoutSession} (hstatus : session.status = .active)
      (hfresh : session.duplicate = false) (hplan : session.planKnown = true)
      (hheld : session.held ≠ []) :
      Due hadNumber (.checkoutCompleted session) (.numbersHeld session.companyId session.id)

/-- The scan of the run is not cut off by its limit. -/
def Request.Whole : Request → Prop
  | .usage companies => companies.length ≤ usageAlertsBatch
  | .grace .. | .subscription _ | .subscriptionDeleted _ | .invoicePaymentFailed _
  | .checkoutCompleted _ => True

instance : DecidablePred Request.Whole
  | .usage companies => inferInstanceAs (Decidable (companies.length ≤ _))
  | .grace .. | .subscription _ | .subscriptionDeleted _ | .invoicePaymentFailed _
  | .checkoutCompleted _ => inferInstanceAs (Decidable True)

def Wanted (hadNumber : ℕ → Bool) : Notice → Prop
  | .grace companyId _ day => day = graceReleasedNoticeDay → hadNumber companyId
  | .usage .. | .invoicePaymentFailed .. | .numbersHeld .. => True

instance (hadNumber : ℕ → Bool) : DecidablePred (Wanted hadNumber)
  | .grace _ _ day => inferInstanceAs (Decidable (day = _ → _))
  | .usage .. | .invoicePaymentFailed .. | .numbersHeld .. => inferInstanceAs (Decidable True)

theorem daysElapsed_ge {now canceledAt : ℤ} {day : ℕ} :
    daysElapsed now canceledAt ≥ day ↔ canceledAt + day * dayMs ≤ now := by
  have hpos : 0 < dayMs := by decide
  rw [daysElapsed, ge_iff_le, Int.le_ediv_iff_mul_le hpos]
  constructor <;> intro h <;> omega

theorem mem_graceQueue {companies : CanceledCompanies} {now : ℤ} {c : CanceledCompany}
    (hc : c ∈ companies.rows) (hscope : c.InScope now) : c ∈ graceQueue companies.rows now := by
  by_cases hwindow : graceCutoff now ≤ c.canceledAt
  · exact List.mem_append_left _ (by simpa using ⟨hc, hwindow⟩)
  · have hunreleased : c.hasUnreleased := by
      refine hscope.resolve_left fun h => hwindow ?_
      rw [graceCutoff]
      omega
    refine List.mem_append_right _ (List.mem_filter.2 ⟨?_, ?_⟩)
    · have holder : c ∈ companies.rows.filter fun c => c.canceledAt < graceCutoff now := by
        simpa using ⟨hc, not_le.1 hwindow⟩
      simp only [companiesWithUnreleasedResources, List.mem_append, List.mem_filter,
        decide_eq_true_eq]
      simp only [CanceledCompany.hasUnreleased, Bool.or_eq_true, decide_eq_true_eq] at hunreleased
      rcases Nat.eq_zero_or_pos c.numbersToRelease with hzero | hpos
      · right
        exact ⟨by simpa using holder, hzero, hunreleased.resolve_left (by omega)⟩
      · left
        exact ⟨by simpa using holder, hpos⟩
    · -- no row of the window has the same id
      simp only [List.mem_map, List.mem_filter, decide_eq_true_eq, not_exists, not_and]
      rintro d ⟨hd, hdw⟩ hid
      have hsame : d = c := List.inj_on_of_nodup_map companies.distinct hd hc hid
      exact hwindow (hsame ▸ hdw)

variable {hadNumber : ℕ → Bool} {c : ActiveCompany} {metric : UsageAlertMetric}

theorem mem_graceLines {now : ℤ} {c : CanceledCompany} {day : ℕ}
    (h : GraceDayReached hadNumber now c day) :
    .notice (.grace c.id c.canceledAt day) ∈ graceLines now c := by
  obtain ⟨hnow, hday⟩ := h
  rw [← daysElapsed_ge] at hnow
  rcases hday with hday | ⟨rfl, -⟩
  · refine List.mem_append_left _ (List.mem_map.2 ⟨day, ?_, rfl⟩)
    exact List.mem_filter.2 ⟨hday, by simpa using hnow⟩
  · refine List.mem_append_right _ ?_
    rw [if_pos (show daysElapsed now c.canceledAt ≥ gracePeriodDays from hnow)]
    exact List.mem_append_right _ (List.mem_singleton_self _)

theorem mem_percentArm {used included t : ℕ} (ht : t ∈ usageAlertPercents)
    (hreached : included * t ≤ used * 100) :
    .notice (c.key metric t) ∈ percentArm c metric used included :=
  List.mem_map.2 ⟨t, List.mem_filter.2 ⟨ht, by simpa using hreached⟩, rfl⟩

theorem mem_tierArm {tiers : List ℕ} {unit used t : ℕ} (ht : t ∈ tiers)
    (hreached : t * unit ≤ used) : .notice (c.key metric t) ∈ tierArm c metric tiers unit used :=
  List.mem_map.2 ⟨t, List.mem_filter.2 ⟨ht, by simpa using hreached⟩, rfl⟩

theorem mem_usageLines {t : ℕ}
    (h : ThresholdReached c metric t) : .notice (c.key metric t) ∈ usageLines c := by
  simp only [usageLines, List.mem_append, List.mem_cons]
  cases metric with
  | segments => simp [mem_percentArm h.1 h.2]
  | storageAbuse =>
      have hmem : .notice (c.key .storageAbuse t) ∈
          tierArm c .storageAbuse storageAbuseTiersGb (1024 ^ 3) c.storedBytes :=
        mem_tierArm h.1 h.2
      simp only [hmem, true_or, or_true]
  | voiceMinutes => simp [mem_percentArm h.1 h.2]
  | voiceDials =>
      obtain ⟨rfl, hdials⟩ := h
      simp [hdials]
  | inboundVolume => simp [mem_tierArm h.1 (show t * 1 ≤ c.inbound by simpa using h.2)]
  | egress => simp [mem_percentArm h.1 h.2]

theorem mem_startCancellationLifecycle (c : MirroredCompany) :
    .notice (.grace c.id (c.canceledAt.getD c.claim) 1) ∈ startCancellationLifecycle c := by
  unfold startCancellationLifecycle
  cases c.canceledAt <;> simp

theorem mem_syncSubscription {s : Subscription} {c : MirroredCompany}
    (hstatus : s.status = some .canceled) (hc : c ∈ s.companies) :
    .notice (.grace c.id (c.canceledAt.getD c.claim) 1) ∈ syncSubscription s := by
  simp only [syncSubscription, hstatus, if_true, List.mem_cons, List.mem_flatMap]
  exact .inr (.inr ⟨c, hc, mem_startCancellationLifecycle c⟩)

theorem mem_unpaidCompanies {s : Subscription} {status : LocalSubscriptionStatus}
    {c : MirroredCompany} (hstatus : s.status = some status) (hunpaid : status ≠ .active)
    (hc : c ∈ s.companies) : c ∈ s.unpaidCompanies := by
  unfold Subscription.unpaidCompanies
  rw [hstatus]
  cases status <;> first | exact hc | exact absurd rfl hunpaid

/-- **A run whose scan is not cut off comes to every notice it owes.** -/
theorem due_listed {r : Request} {k : Notice} (hdue : Due hadNumber r k)
    (hwhole : r.Whole) : k ∈ (script r).notices := by
  cases hdue with
  | grace hc hscope hday =>
      rw [script, runGraceJob, notices_block]
      refine List.mem_append_right _ ?_
      exact mem_each (mem_graceQueue hc hscope) (mem_graceLines hday)
  | usage hc hreached =>
      rw [script, runUsageAlertsJob, notices_block]
      refine List.mem_append_right _ ?_
      exact mem_each (SqlTable.mem_firstBy_of_length_le hwhole hc) (mem_usageLines hreached)
  | canceled hstatus hc => exact mem_block (mem_syncSubscription hstatus hc)
  | deleted hc =>
      refine mem_block ?_
      rw [handleSubscriptionDeleted, hc]
      exact List.mem_cons_of_mem _ (mem_startCancellationLifecycle _)
  | unpaid hs hstatus hunpaid hc =>
      refine mem_block ?_
      rw [handleInvoicePaymentFailed, hs]
      refine List.mem_append_right _ (List.mem_append_right _ (List.mem_map.2 ⟨_, ?_, rfl⟩))
      exact mem_unpaidCompanies hstatus hunpaid hc
  | canceledUnpaid hs hstatus hc =>
      refine mem_block ?_
      rw [handleInvoicePaymentFailed, hs]
      exact List.mem_append_right _ (List.mem_append_left _ (mem_syncSubscription hstatus hc))
  | held hstatus hfresh hplan hheld =>
      have hlen := List.length_pos_iff.2 hheld
      simp [script, handleCheckoutCompleted, CheckoutSession.noticeHeldNumbers, hstatus, hfresh,
        hplan, hlen, Line.notices]

theorem due_wanted {r : Request} {k : Notice} (hdue : Due hadNumber r k) : Wanted hadNumber k := by
  cases hdue with
  | grace hc hscope hday =>
      intro hrelease
      rcases hday.2 with hday | ⟨-, hhad⟩
      · -- no warning is on the day of the release
        subst hrelease
        exact absurd hday (by decide)
      · exact hhad
  | canceled | deleted | canceledUnpaid => exact fun h => absurd h (by decide)
  | usage | unpaid | held => trivial

/-! ### Exactly once -/

/-- The move loses no notice: the scan of a run that starts is not cut off; and between the claim of
a notice and its mail the run does not die, nothing fails, and somebody is found to be told, unless
the claim goes back and no mail has gone out. -/
def Attended (hadNumber : ℕ → Bool) (s : State Notice Call Request) : Input Request → Prop
  | .start r => r.Whole
  | .call a => Careful policy (Wanted hadNumber) s (.call a)
  | .crash => Careful policy (Wanted hadNumber) s .crash

instance (hadNumber : ℕ → Bool) (s : State Notice Call Request) :
    ∀ i, Decidable (Attended hadNumber s i)
  | .start r => inferInstanceAs (Decidable r.Whole)
  | .call a => inferInstanceAs (Decidable (Careful policy (Wanted hadNumber) s (.call a)))
  | .crash => inferInstanceAs (Decidable (Careful policy (Wanted hadNumber) s .crash))

theorem Attended.careful {s : State Notice Call Request} {i : Input Request}
    (h : Attended hadNumber s i) : Careful policy (Wanted hadNumber) s i := by
  cases i with
  | start r => trivial
  | call | crash => exact h

/-- **In a sequence of attended runs of the jobs and handlers, every notice due to a completed run
has been mailed exactly once.** -/
theorem notice_mailed_once (hadNumber : ℕ → Bool) {is : List (Input Request)}
    (h : Reactive.Along (step policy) (Attended hadNumber) start is) {r : Request}
    (hr : r ∈ Reactive.outputs (step policy) start is) {k : Notice} (hk : Due hadNumber r k) :
    (Reactive.final (step policy) start is).store.mailed.count k = 1 := by
  have hcare : Reactive.Along (step policy) (Careful policy (Wanted hadNumber)) start is :=
    Reactive.along_of_inv (step policy) (P := fun _ => True) (fun _ _ _ _ => trivial)
      (fun _ _ _ hattended => hattended.careful) trivial h
  have hwhole : r.Whole := by
    obtain ⟨js, ks, rfl⟩ := List.append_of_mem (start_of_mem_outputs policy hr)
    exact (Reactive.along_iff_prefix _ _ _ _).1 h js (.start r) ks rfl
  exact mailed_once policy (Wanted hadNumber) hcare hr (due_listed hk hwhole) (due_wanted hk)

def lateCompany : CanceledCompany :=
  { id := 1, canceledAt := 0, numbersToRelease := 1, campaignActive := false }

def lateRun : Request := .grace (2 * dayMs) { rows := [lateCompany], distinct := by decide }

theorem lateRun_due : Due (fun _ => true) lateRun (.grace 1 0 1) :=
  .grace (c := lateCompany) (List.mem_singleton_self _) (.inl (by decide))
    ⟨by decide, .inl (by decide)⟩

/-- The two scans, the claim, the recipients, the mail. -/
theorem notice_mailed_once_answered :
    (Reactive.final (step policy) start
      [.start lateRun, .call .done, .call .done, .call .done, .call .done,
        .call .done]).store.mailed.count (.grace 1 0 1) = 1 :=
  notice_mailed_once (fun _ => true) (by decide) (r := lateRun) (List.mem_singleton_self _)
    lateRun_due

/-- The mail of the first run fails; the second run finds the claim, and completes. -/
theorem notice_never_mailed :
    Reactive.outputs (step policy) start
        [.start lateRun, .call .done, .call .done, .call .done, .call .done, .call .failed,
          .start lateRun, .call .done, .call .done, .call .done] = [lateRun] ∧
      Due (fun _ => true) lateRun (.grace 1 0 1) ∧
      (Reactive.final (step policy) start
        [.start lateRun, .call .done, .call .done, .call .done, .call .done, .call .failed,
          .start lateRun, .call .done, .call .done, .call .done]).store.mailed.count
            (.grace 1 0 1) = 0 :=
  ⟨rfl, lateRun_due, rfl⟩

end Notices
