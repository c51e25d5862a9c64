/-
**The command budget is not read by the transition function.**

`telnyxCommandCount` is the one field of the machine that the shell writes between two transitions:
every vendor command spends one (`Calls.spendCommand`), and past the cap the shell drops it.  The
transition function neither reads the count nor changes it, so a machine with another count takes
the same steps and pushes the same effects.  This is what lets the journal of
`Texturion/CallJournal.lean` compare the persisted machine with a fold of `reduce`, which spends
nothing.

Main result:

* `Calls.reduceStep_unspent` — the same of `reduce`, the mints included.
-/

import Texturion.CallSession

namespace Calls

open FirstMatch

/-! ### Results with another count -/

/-- A result with another command count in its machine. -/
def charged (count : ℕ) (r : SessionMachine × List Effect) : SessionMachine × List Effect :=
  (r.1.withCount count, r.2)

theorem ite_charged {count : ℕ} {p : Prop} [Decidable p]
    {r₁ r₂ s₁ s₂ : SessionMachine × List Effect} (h₁ : s₁ = charged count r₁)
    (h₂ : s₂ = charged count r₂) : (if p then s₁ else s₂) = charged count (if p then r₁ else r₂) := by
  rw [h₁, h₂, apply_ite (charged count)]

variable (m : SessionMachine) (count : ℕ)

@[simp] theorem withCount_findLeg (ccid : String) :
    (m.withCount count).findLeg ccid = m.findLeg ccid := rfl

@[simp] theorem withCount_setLegStatus (ccid : String) (s : LegStatus) :
    (m.withCount count).setLegStatus ccid s = (m.setLegStatus ccid s).withCount count := rfl

/-! ### The shared actions -/

theorem runAvenueLadder_withCount :
    runAvenueLadder (m.withCount count) = charged count (runAvenueLadder m) :=
  ite_charged rfl (ite_charged rfl (ite_charged rfl (ite_charged rfl rfl)))

theorem terminalSweep_withCount (target : CallState) :
    terminalSweep (m.withCount count) target = charged count (terminalSweep m target) := by
  have hcancel : cancelAllLiveLegs { m.withCount count with
      state := target, ringDeadlineMs := none } true =
      charged count (cancelAllLiveLegs { m with state := target, ringDeadlineMs := none } true) := rfl
  have hreap : ∀ n : SessionMachine,
      reapAnsweredLegs (n.withCount count) = charged count (reapAnsweredLegs n) :=
    fun _ => ite_charged rfl rfl
  simp only [terminalSweep, hcancel]
  simp only [charged, hreap]

theorem terminalize_withCount (nowMs : ℤ) (target : CallState) (merge : Option TerminalMerge)
    (reason : Option Outcome) (extra : MirrorSet) :
    terminalize (m.withCount count) nowMs target merge reason extra =
      charged count (terminalize m nowMs target merge reason extra) := by
  simp only [terminalize, terminalSweep_withCount]
  rfl

@[simp] theorem resolveLeg_withCount (ccid userId : String) (destination : Option String)
    (mayAdopt : Bool) (wake : LegStatus → LegStatus) :
    resolveLeg (m.withCount count) ccid userId destination mayAdopt wake =
      (resolveLeg m ccid userId destination mayAdopt wake).withCount count := by
  simp only [resolveLeg, withCount_findLeg]
  cases m.findLeg ccid with
  | some leg => rfl
  | none => cases mayAdopt <;> rfl

theorem doomMember_withCount (memberCcid : String) :
    doomMember (m.withCount count) memberCcid = charged count (doomMember m memberCcid) := by
  simp only [doomMember, withCount_findLeg]
  cases m.findLeg memberCcid with
  | none => rfl
  | some leg => exact ite_charged rfl rfl

theorem stampFromIntent_withCount :
    stampFromIntent (m.withCount count) = (stampFromIntent m).withCount count := by
  have hby : (m.withCount count).answeredByUserId = m.answeredByUserId := rfl
  have hintent : (m.withCount count).answerIntent = m.answerIntent := rfl
  simp only [stampFromIntent, hby, hintent]
  cases m.answeredByUserId <;> cases m.answerIntent <;> rfl

/-! ### The handlers -/

theorem reduceOutboundPlacerAnswered_withCount (ccid userId : String)
    (destination : Option String) :
    reduceOutboundPlacerAnswered (m.withCount count) ccid userId destination =
      charged count (reduceOutboundPlacerAnswered m ccid userId destination) := by
  refine ite_charged rfl ?_
  simp only [resolveLeg_withCount, withCount_findLeg]
  cases (resolveLeg m ccid userId destination true id).findLeg ccid with
  | none => rfl
  | some leg => exact ite_charged rfl rfl

theorem reduceOutboundPlacerHangup_withCount (ccid userId : String) (nowMs : ℤ) :
    reduceOutboundPlacerHangup (m.withCount count) ccid userId nowMs =
      charged count (reduceOutboundPlacerHangup m ccid userId nowMs) := by
  refine ite_charged rfl (ite_charged rfl (ite_charged (ite_charged rfl rfl) ?_))
  simp only [withCount_setLegStatus, terminalize_withCount]
  rfl

theorem reduceMemberAnswered_withCount (ccid userId : String) (destination : Option String)
    (clockMs : ℤ) :
    reduceMemberAnswered (m.withCount count) ccid userId destination clockMs =
      charged count (reduceMemberAnswered m ccid userId destination clockMs) := by
  have hstate : (m.withCount count).state = m.state := rfl
  simp only [reduceMemberAnswered, resolveLeg_withCount, withCount_findLeg, hstate]
  cases (resolveLeg m ccid userId destination (m.state == .ringing) wakeAmbiguous).findLeg ccid with
  | none => rfl
  | some leg => exact ite_charged rfl (ite_charged rfl rfl)

theorem reduceMemberHangup_withCount (ccid userId : String) (destination : Option String) :
    reduceMemberHangup (m.withCount count) ccid userId destination =
      charged count (reduceMemberHangup m ccid userId destination) := by
  have hstate : (m.withCount count).state = m.state := rfl
  simp only [reduceMemberHangup, resolveLeg_withCount, withCount_findLeg, hstate]
  cases (resolveLeg m ccid userId destination (m.state == .ringing) id).findLeg ccid with
  | none => rfl
  | some leg =>
      refine ite_charged (ite_charged rfl (ite_charged rfl rfl)) (ite_charged rfl ?_)
      rw [withCount_setLegStatus]
      exact runAvenueLadder_withCount ..

theorem reduceAnswerOutcome_withCount (ok : Bool) (memberCcid userId answeredAtIso : String)
    (nowMs : ℤ) :
    reduceAnswerOutcome (m.withCount count) ok memberCcid userId answeredAtIso nowMs =
      charged count (reduceAnswerOutcome m ok memberCcid userId answeredAtIso nowMs) := by
  refine ite_charged rfl (ite_charged ?_ rfl)
  rw [doomMember_withCount]
  have hmissed : missedState ((doomMember m memberCcid).1.withCount count) =
      missedState (doomMember m memberCcid).1 := rfl
  simp only [charged, hmissed, terminalize_withCount]

theorem reduceLateInboundHangup_withCount (tag : HangupTag) (briAnsweredAtIso : Option String)
    (payload : Option Payload) :
    reduceLateInboundHangup (m.withCount count) tag briAnsweredAtIso payload =
      charged count (reduceLateInboundHangup m tag briAnsweredAtIso payload) := by
  refine ite_charged ?_ rfl
  have hintent : (m.withCount count).answerIntent = m.answerIntent := rfl
  simp only [hintent, briAnchor]
  cases m.answerIntent <;> rfl

theorem reduceInboundHangup_withCount (tag : HangupTag) (briAnsweredAtIso : Option String)
    (payload : Option Payload) (nowMs : ℤ) :
    reduceInboundHangup (m.withCount count) tag briAnsweredAtIso payload nowMs =
      charged count (reduceInboundHangup m tag briAnsweredAtIso payload nowMs) := by
  refine ite_charged (reduceLateInboundHangup_withCount ..) ?_
  cases tag with
  | bri =>
      simp only [stampFromIntent_withCount, terminalize_withCount]
      rfl
  | vmi => exact terminalize_withCount ..
  | untagged =>
      refine ite_charged ?_ (ite_charged ?_ ?_)
      · simp only [terminalize_withCount]
        rfl
      · exact terminalize_withCount ..
      · exact terminalize_withCount ..

theorem reduceDecline_withCount (userId : String) :
    (reduceDecline (m.withCount count) userId).machine =
        (reduceDecline m userId).machine.withCount count ∧
      (reduceDecline (m.withCount count) userId).effects = (reduceDecline m userId).effects := by
  have hstate : ((m.withCount count).state != .ringing) = (m.state != .ringing) := rfl
  have htarget : wasRingTarget (m.withCount count) userId = wasRingTarget m userId := rfl
  have hwithout : withoutMember (m.withCount count) userId =
      charged count (withoutMember m userId) := rfl
  simp only [reduceDecline, hstate, htarget, hwithout]
  split_ifs
  · exact ⟨rfl, rfl⟩
  · exact ⟨rfl, rfl⟩
  · simp only [charged, runAvenueLadder_withCount]
    exact ⟨trivial, trivial⟩

theorem reduceRingMe_withCount (userId sipUsername : String) (noLocalLeg : Bool) (nowMs : ℤ)
    (pendingKeyFor : ℕ → String) :
    (reduceRingMe (m.withCount count) userId sipUsername noLocalLeg nowMs pendingKeyFor).machine =
        (reduceRingMe m userId sipUsername noLocalLeg nowMs pendingKeyFor).machine.withCount count ∧
      (reduceRingMe (m.withCount count) userId sipUsername noLocalLeg nowMs
          pendingKeyFor).effects =
        (reduceRingMe m userId sipUsername noLocalLeg nowMs pendingKeyFor).effects := by
  have hrefusal : ringMeRefusal (m.withCount count) userId noLocalLeg nowMs =
      ringMeRefusal m userId noLocalLeg nowMs := rfl
  simp only [reduceRingMe, hrefusal]
  cases ringMeRefusal m userId noLocalLeg nowMs <;> exact ⟨rfl, rfl⟩

theorem reduceAlarmRingStep_withCount (nowMs : ℤ) (pendingKeyFor : ℕ → String) :
    reduceAlarmRingStep (m.withCount count) nowMs pendingKeyFor =
      charged count (reduceAlarmRingStep m nowMs pendingKeyFor) := by
  refine ite_charged rfl ?_
  have hwaiting : ((m.withCount count).queuedTargets.filter fun candidate =>
      !(m.withCount count).declinedUserIds.contains candidate.userId) =
      m.queuedTargets.filter fun candidate => !m.declinedUserIds.contains candidate.userId := rfl
  simp only [hwaiting]
  cases m.queuedTargets.filter fun candidate => !m.declinedUserIds.contains candidate.userId with
  | nil =>
      exact ite_charged (runAvenueLadder_withCount { m with queuedTargets := [] } count) rfl
  | cons target rest => exact ite_charged rfl rfl

theorem reduceAlarmJanitor_withCount (nowMs : ℤ) :
    reduceAlarmJanitor (m.withCount count) nowMs =
      charged count (reduceAlarmJanitor m nowMs) := by
  refine ite_charged rfl (ite_charged ?_ (ite_charged ?_ ?_))
  · exact terminalize_withCount ..
  · exact terminalize_withCount ..
  · exact terminalize_withCount ..

theorem reduceNoticeAnswerOutcome_withCount (ok : Bool) :
    reduceNoticeAnswerOutcome (m.withCount count) ok =
      charged count (reduceNoticeAnswerOutcome m ok) := by
  refine ite_charged rfl ?_
  have hcustomer : (m.withCount count).customerCcid = m.customerCcid := rfl
  simp only [hcustomer]
  cases ok <;> cases truthy m.customerCcid <;> rfl

theorem reduceVmAnswerOutcome_withCount (ok : Bool) (nowMs : ℤ) :
    reduceVmAnswerOutcome (m.withCount count) ok nowMs =
      charged count (reduceVmAnswerOutcome m ok nowMs) :=
  ite_charged rfl (ite_charged rfl (terminalize_withCount ..))

theorem reducePushFanoutSettled_withCount (unreachableUserIds : List String) :
    reducePushFanoutSettled (m.withCount count) unreachableUserIds =
      charged count (reducePushFanoutSettled m unreachableUserIds) := by
  have hladder := runAvenueLadder_withCount { m with
    wakeAttempted := true
    pushCapableUserIds := m.pushCapableUserIds.filter fun u => !unreachableUserIds.contains u } count
  exact congrArg (fun r : SessionMachine × List Effect => (r.1, Effect.clearAlarm .fanoutSettle :: r.2))
    hladder

theorem reduceDialOutcome_withCount (key : String) (ccid : Option String)
    (failure : Option DialFailure) (nowMs : ℤ) :
    reduceDialOutcome (m.withCount count) key ccid failure nowMs =
      charged count (reduceDialOutcome m key ccid failure nowMs) := by
  have hfind : ((m.withCount count).legs.find? fun entry => entry.key == key) =
      m.legs.find? fun entry => entry.key == key := rfl
  have hupdate : ∀ f, updateLegByKey (m.withCount count) key f =
      (updateLegByKey m key f).withCount count := fun _ => rfl
  simp only [reduceDialOutcome, hfind, hupdate]
  cases m.legs.find? fun entry => entry.key == key with
  | none => rfl
  | some leg =>
      cases truthy ccid with
      | some landed => rfl
      | none =>
          refine ite_charged (ite_charged ?_ rfl) (runAvenueLadder_withCount ..)
          rw [terminalize_withCount]
          rfl

theorem reduceMemberProbeOutcome_withCount (ccid userId : String) (alive : Bool) (nowMs : ℤ) :
    reduceMemberProbeOutcome (m.withCount count) ccid userId alive nowMs =
      charged count (reduceMemberProbeOutcome m ccid userId alive nowMs) := by
  refine ite_charged rfl ?_
  simp only [withCount_findLeg]
  cases m.findLeg ccid with
  | none => rfl
  | some leg =>
      rw [withCount_setLegStatus]
      exact ite_charged (runAvenueLadder_withCount ..) rfl

/-! ### The transition function -/

/-- **A step does not read the command count.** -/
theorem machineStep_withCount (i : Input) :
    machineStep (m.withCount count) i = charged count (machineStep m i) := by
  obtain ⟨event, nowMs, clockMs, pendingKeyFor⟩ := i
  cases event with
  | initiated | outboundInitiated | setOwner | registerIntent => rfl
  | memberLegAnswered => exact reduceMemberAnswered_withCount ..
  | memberLegHangup => exact reduceMemberHangup_withCount ..
  | inboundHangup => exact reduceInboundHangup_withCount ..
  | outboundAnswered => exact ite_charged rfl rfl
  | outboundHangup => exact ite_charged rfl (terminalize_withCount ..)
  | outboundPlacerAnswered => exact reduceOutboundPlacerAnswered_withCount ..
  | outboundPlacerHangup => exact reduceOutboundPlacerHangup_withCount ..
  | speakEnded => exact ite_charged rfl (ite_charged rfl rfl)
  | recordingSaved => exact ite_charged rfl rfl
  | ringMe userId sipUsername noLocalLeg =>
      obtain ⟨hmachine, heffects⟩ := reduceRingMe_withCount m count userId sipUsername noLocalLeg
        nowMs pendingKeyFor
      exact Prod.ext hmachine heffects
  | decline userId =>
      obtain ⟨hmachine, heffects⟩ := reduceDecline_withCount m count userId
      exact Prod.ext hmachine heffects
  | clearIntent | alarmIntentExpiry => exact ite_charged rfl rfl
  | alarmRing => exact ite_charged rfl rfl
  | alarmRingStep => exact reduceAlarmRingStep_withCount ..
  | alarmJanitor => exact reduceAlarmJanitor_withCount ..
  | answerOutcome => exact reduceAnswerOutcome_withCount ..
  | noticeAnswerOutcome => exact reduceNoticeAnswerOutcome_withCount ..
  | vmAnswerOutcome => exact reduceVmAnswerOutcome_withCount ..
  | pushFanoutSettled => exact reducePushFanoutSettled_withCount ..
  | dialOutcome => exact reduceDialOutcome_withCount ..
  | inboundLegGone => exact ite_charged rfl (terminalize_withCount ..)
  | memberProbeOutcome => exact reduceMemberProbeOutcome_withCount ..

/-- The machine with its command count left out of account. -/
def unspent (machine : Option SessionMachine) : Option SessionMachine :=
  machine.map fun m => m.withCount 0

/-- Machines that differ in nothing but their command count take the same step. -/
theorem reduceStep_unspent {machine other : Option SessionMachine}
    (h : unspent machine = unspent other) (i : Input) :
    unspent (reduceStep machine i).1 = unspent (reduceStep other i).1 ∧
      (reduceStep machine i).2 = (reduceStep other i).2 := by
  cases machine with
  | none =>
      cases other with
      | none => exact ⟨rfl, rfl⟩
      | some n => cases h
  | some m =>
      cases other with
      | none => cases h
      | some n =>
          have hzero : m.withCount 0 = n.withCount 0 := Option.some.inj h
          have hstep : charged 0 (machineStep m i) = charged 0 (machineStep n i) := by
            rw [← machineStep_withCount, hzero, machineStep_withCount]
          obtain ⟨hmachine, heffects⟩ := Prod.ext_iff.1 hstep
          exact ⟨congrArg some hmachine, heffects⟩

end Calls
