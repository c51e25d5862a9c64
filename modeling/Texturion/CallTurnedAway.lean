/-
**Calls that are turned away.**

A suspended line and a company over its voice cap mint a session in `ringing` that is to ring
nobody: no leg, no queue, no push and no alarm but the janitor.  Two roads still lead out of it.  A
ring-me from a member who has not declined dials that member, and a decline that empties the push
audience runs the avenue ladder into voicemail; neither handler asks whether the call was turned
away.  This module proves that there is no third road: a run of a turned-away session attends to
the caller exactly when one of its steps is one of these two.

Main result:

* `Calls.turned_away_iff` — **a turned-away session attends to nobody exactly when no step rouses
  it**.
-/

import Texturion.CallSession

namespace Calls

open FirstMatch

/-! ### The two roads -/

/-- The mint takes the suspended-line branch or the over-cap branch. -/
def turnsAway (context : InitiatedContext) : Bool :=
  !(context.lineBusy || context.screeningDivert || context.afterHoursVoicemail) &&
    (context.suspendedOrInactive || context.overCap)

/-- The effects that dial a phone, or take the caller to voicemail. -/
def Effect.attends : Effect → Bool
  | .telnyxDial _ | .telnyxAnswerVm _ | .telnyxSpeak _ .voicemailGreeting
  | .telnyxRecordStart _ => true
  | _ => false

/-- The events that bring a turned-away call back: a ring-me that meets no refusal, and a decline
that leaves nobody to push to. -/
def rouses (m : SessionMachine) : SessionEvent → Bool
  | .ringMe userId _ _ => m.state == .ringing && !m.declinedUserIds.contains userId
  | .decline userId =>
    m.state == .ringing && wasRingTarget m userId &&
      (m.pushCapableUserIds.filter fun u => u != userId).isEmpty &&
      (truthy m.customerCcid).isSome
  | _ => false

/-! ### The invariant of the machine -/

/-- A session that rings nobody: it is still in `ringing`, or over, or in a voicemail that its
missing caller leg can never open. -/
structure Dormant (m : SessionMachine) : Prop where
  inbound : m.direction = .inbound
  legs : m.legs = []
  queue : m.queuedTargets = []
  state : m.state = .ringing ∨ isTerminal m.state = true ∨
    ((m.state = .voicemailGreeting ∨ m.state = .voicemailRecording) ∧
      truthy m.customerCcid = none)

/-- The events that stay away from a dormant session: they follow from effects it never emits, or
from alarms it never arms. -/
def SessionEvent.isRemote : SessionEvent → Bool
  | .alarmRing | .alarmRingStep | .answerOutcome .. | .vmAnswerOutcome _ | .pushFanoutSettled _
  | .dialOutcome .. | .memberProbeOutcome .. => true
  | _ => false

/-- The alarms a dormant session never arms. -/
def AlarmKind.isRemote : AlarmKind → Bool
  | .ring | .ringStep | .fanoutSettle => true
  | _ => false

/-- The effects that would attend to the caller, or lead to a remote event. -/
def Effect.isStirring : Effect → Bool
  | .telnyxSpeak _ .voicemailGreeting | .telnyxRecordStart _ | .telnyxDial _
  | .telnyxDialPlacer .. | .telnyxAnswerVm _ | .telnyxAnswerInbound .. | .telnyxProbeMemberLeg ..
  | .pushFanout _ => true
  | .armAlarm alarm _ => alarm.isRemote
  | _ => false

abbrev Asleep (es : List Effect) : Prop := Within (fun e => !e.isStirring) es

variable {m : SessionMachine} {es : List Effect}

theorem Dormant.findLeg (h : Dormant m) (ccid : String) : m.findLeg ccid = none := by
  simp [SessionMachine.findLeg, h.legs]

theorem Dormant.setLegStatus (h : Dormant m) (ccid : String)
    (s : LegStatus) : m.setLegStatus ccid s = m :=
  setLegStatus_of_findLeg_none s (h.findLeg ccid)

theorem Dormant.resolveLeg (h : Dormant m) (ccid userId : String) (destination : Option String)
    (mayAdopt : Bool) (wake : LegStatus → LegStatus) :
    resolveLeg m ccid userId destination mayAdopt wake = m := by
  rcases resolveLeg_eq_or m ccid userId destination mayAdopt wake with
    ⟨_, _, hr⟩ | ⟨_, _, ⟨leg, hleg⟩, _⟩ | ⟨_, _, hr⟩
  · exact hr
  · rw [h.legs] at hleg
    cases hleg
  · exact hr

theorem Dormant.over (h : Dormant m) {target : CallState} (htarget : isTerminal target = true) :
    Dormant { m with state := target, ringDeadlineMs := none,
                     legs := m.legs.map (terminalLeg m.direction) } :=
  ⟨h.inbound, by simp [h.legs], h.queue, Or.inr (Or.inl htarget)⟩

theorem asleep_of_isTerminal (h : Within Effect.isTerminal es) : Asleep es := by
  refine within_mono h fun e he => ?_
  cases e with
  | armAlarm alarm atMs =>
    cases alarm with
    | purge => rfl
    | _ => cases he
  | mirror | telnyxHangup | terminalMerge | pushCallEnd | clearAlarm => rfl
  | _ => cases he

/-! ### One step of the machine -/

theorem Dormant.of_eq {m n : SessionMachine} (h : Dormant m) (hdir : n.direction = m.direction)
    (hlegs : n.legs = m.legs) (hqueue : n.queuedTargets = m.queuedTargets)
    (hstate : n.state = m.state) (hcust : n.customerCcid = m.customerCcid) : Dormant n where
  inbound := hdir.trans h.inbound
  legs := hlegs.trans h.legs
  queue := hqueue.trans h.queue
  state := by rw [hstate, hcust]; exact h.state

theorem Dormant.inboundHangup (h : Dormant m) (tag : HangupTag) (briAnsweredAtIso : Option String)
    (payload : Option Payload) (nowMs : ℤ) :
    Dormant (reduceInboundHangup m tag briAnsweredAtIso payload nowMs).1 := by
  unfold reduceInboundHangup reduceLateInboundHangup
  by_cases hterm : isTerminal m.state = true
  · rw [if_pos hterm]
    split_ifs
    · cases m.answerIntent with
      | none | some => exact ⟨h.inbound, h.legs, h.queue, Or.inr (Or.inl rfl)⟩
    · exact h
  · rw [if_neg hterm]
    cases tag with
    | bri =>
      have hstamp : Dormant (stampFromIntent m) := by
        unfold stampFromIntent
        split
        · exact h.of_eq rfl rfl rfl rfl rfl
        · exact h
      simp only [terminalize_fst]
      exact hstamp.over rfl
    | vmi =>
      simp only [terminalize_fst]
      exact h.over rfl
    | untagged =>
      simp only
      split_ifs
      · simp only [terminalize_fst]
        exact h.over rfl
      · simp only [terminalize_fst]
        exact h.over rfl
      · simp only [terminalize_fst]
        exact h.over (isTerminal_missedState m)

/-- A decline that leaves an avenue, or whose caller leg is missing, opens no voicemail. -/
theorem Dormant.decline (h : Dormant m) {userId : String}
    (hr : rouses m (.decline userId) = false) :
    Dormant (reduceDecline m userId).machine ∧ Asleep (reduceDecline m userId).effects := by
  unfold reduceDecline
  by_cases hring : m.state = .ringing
  · rw [if_neg (by simp [hring])]
    by_cases htarget : wasRingTarget m userId = true
    · rw [if_neg (by simp [htarget])]
      have hdropped : Dormant (withoutMember m userId).1 :=
        ⟨h.inbound, by simp [withoutMember, sweepLegs, h.legs],
          by simp [withoutMember, h.queue], h.state⟩
      have hnone : (withoutMember m userId).2 = [] := by
        simp [withoutMember, sweepLegs, h.legs]
      simp only
      rw [hnone, List.nil_append]
      rcases runAvenueLadder_eq_or (withoutMember m userId).1 with
        hsame | ⟨_, _, _, hpush, hentry⟩
      · rw [hsame]
        exact ⟨hdropped, within_nil⟩
      · -- nobody is left to push to: only a missing caller leg keeps the voicemail shut
        have hcust : truthy m.customerCcid = none := by
          have hempty : (m.pushCapableUserIds.filter fun u => u != userId) = [] := hpush
          simpa [rouses, hring, htarget, hempty] using hr
        rw [hentry]
        have hcust' : truthy (withoutMember m userId).1.customerCcid = none := hcust
        refine ⟨⟨hdropped.inbound, hdropped.legs, rfl, Or.inr (Or.inr ⟨Or.inl rfl, hcust'⟩)⟩, ?_⟩
        unfold vmEntry
        rw [ifTruthy_of_none hcust']
        simp [Asleep, Effect.isStirring]
    · rw [if_pos (by simpa using htarget)]
      exact ⟨h, within_nil⟩
  · rw [if_pos (by simpa using hring)]
    exact ⟨h, within_nil⟩

/-- **A step that does not rouse a dormant session** leaves it dormant and wakes nobody. -/
theorem dormant_step (i : Input) (h : Dormant m) (hremote : i.event.isRemote = false)
    (hr : rouses m i.event = false) : Dormant (machineStep m i).1 ∧ Asleep (machineStep m i).2 := by
  unfold machineStep reduceMachine
  cases hevent : i.event with
  | alarmRing | alarmRingStep | answerOutcome | vmAnswerOutcome | pushFanoutSettled | dialOutcome
  | memberProbeOutcome =>
    rw [hevent] at hremote
    cases hremote
  | initiated | outboundInitiated => exact ⟨h, within_nil⟩
  | setOwner | registerIntent =>
    exact ⟨h.of_eq rfl rfl rfl rfl rfl, by simp [quiet, Asleep, Effect.isStirring, AlarmKind.isRemote]⟩
  | memberLegAnswered =>
    simp only [quiet, reduceMemberAnswered, h.resolveLeg, h.findLeg]
    exact ⟨h, by simp [Asleep, Effect.isStirring, orphanWarning]⟩
  | memberLegHangup =>
    simp only [quiet, reduceMemberHangup, h.resolveLeg, h.findLeg]
    exact ⟨h, within_nil⟩
  | inboundHangup =>
    refine ⟨h.inboundHangup _ _ _ _, within_mono (reduceInboundHangup_within _ _ _ _ _) ?_⟩
    intro e he
    rcases Bool.or_eq_true_iff.1 he with he | he
    · simpa using asleep_of_isTerminal (within_cons.2 ⟨he, within_nil⟩)
    · cases e with
      | warn => rfl
      | _ => cases he
  | outboundAnswered =>
    simp only [quiet, reduceOutboundAnswered, h.inbound]
    exact ⟨h, within_nil⟩
  | outboundPlacerAnswered =>
    simp only [quiet, reduceOutboundPlacerAnswered, h.inbound]
    exact ⟨h, by simp [Asleep, Effect.isStirring]⟩
  | outboundHangup =>
    simp only [quiet, reduceOutboundHangup]
    by_cases hterm : isTerminal m.state = true
    · rw [if_pos hterm]
      exact ⟨h, within_nil⟩
    · rw [if_neg hterm]
      simp only [terminalize_fst]
      refine ⟨h.over ?_, asleep_of_isTerminal (terminalize_within _ _ _ _ _ _)⟩
      split_ifs <;> rfl
  | outboundPlacerHangup =>
    simp only [quiet, reduceOutboundPlacerHangup, h.setLegStatus]
    split_ifs
    · exact ⟨h, within_nil⟩
    · exact ⟨h, within_nil⟩
    · exact ⟨h.of_eq rfl rfl rfl rfl rfl, within_nil⟩
    · exact ⟨h.of_eq rfl rfl rfl rfl rfl, within_ifTruthy _ fun _ => rfl⟩
    · simp only [terminalize_fst]
      exact ⟨h.over rfl, within_append.2 ⟨asleep_of_isTerminal (terminalize_within _ _ _ _ _ _),
        within_ifTruthy _ fun _ => rfl⟩⟩
  | speakEnded =>
    simp only [quiet, reduceSpeakEnded]
    split_ifs with hnotice hgreeting
    · exact ⟨h, within_ifTruthy _ fun _ => rfl⟩
    · exact ⟨h, within_nil⟩
    · have hvm : m.state = .voicemailGreeting := by simpa using hgreeting
      have hcust : truthy m.customerCcid = none := by
        rcases h.state with hs | hs | ⟨_, hcust⟩
        · rw [hvm] at hs; cases hs
        · rw [hvm] at hs; cases hs
        · exact hcust
      rw [ifTruthy_of_none hcust]
      exact ⟨⟨h.inbound, h.legs, h.queue, Or.inr (Or.inr ⟨Or.inr rfl, hcust⟩)⟩,
        by simp [Asleep, Effect.isStirring]⟩
  | recordingSaved =>
    simp only [quiet, reduceRecordingSaved]
    split_ifs
    · exact ⟨h, within_nil⟩
    · exact ⟨⟨h.inbound, h.legs, h.queue, Or.inr (Or.inl rfl)⟩,
        by simp [Asleep, Effect.isStirring, AlarmKind.isRemote]⟩
    · exact ⟨⟨h.inbound, h.legs, h.queue, Or.inr (Or.inl rfl)⟩,
        by simp [Asleep, Effect.isStirring]⟩
  | ringMe userId sipUsername noLocalLeg =>
    simp only [reduceRingMe]
    cases hrefusal : ringMeRefusal m userId noLocalLeg i.nowMs with
    | some reason =>
      refine ⟨h, ?_⟩
      simp only
      split_ifs
      · simp [Asleep, Effect.isStirring, ringMeCapWarning]
      · exact within_nil
    | none =>
      -- without a leg on record only the state and the decliners can refuse
      have hroused : rouses m (.ringMe userId sipUsername noLocalLeg) = true := by
        have hring : m.state = .ringing := by
          by_contra hne
          simp [ringMeRefusal, hne] at hrefusal
        have hdeclined : m.declinedUserIds.contains userId = false := by
          by_contra hmem
          simp only [Bool.not_eq_false] at hmem
          simp only [ringMeRefusal, hring, hmem] at hrefusal
          cases hrefusal
        show (m.state == .ringing && !m.declinedUserIds.contains userId) = true
        rw [hring, hdeclined]
        rfl
      rw [← hevent, hr] at hroused
      cases hroused
  | clearIntent | alarmIntentExpiry =>
    simp only [quiet, reduceIntentOver]
    split_ifs
    · exact ⟨h.of_eq rfl rfl rfl rfl rfl, within_cons.2 ⟨rfl, within_ifTruthy _ fun _ => rfl⟩⟩
    · exact ⟨h.of_eq rfl rfl rfl rfl rfl, by simp [Asleep, Effect.isStirring]⟩
  | decline userId => exact h.decline (by rw [← hevent]; exact hr)
  | alarmJanitor =>
    simp only [quiet, reduceAlarmJanitor]
    split_ifs
    · exact ⟨h, within_nil⟩
    · simp only [terminalize_fst]
      exact ⟨h.over (isTerminal_missedState m),
        asleep_of_isTerminal (terminalize_within _ _ _ _ _ _)⟩
    · simp only [terminalize_fst]
      exact ⟨h.over rfl, asleep_of_isTerminal (terminalize_within _ _ _ _ _ _)⟩
    · simp only [terminalize_fst]
      exact ⟨h.over rfl, asleep_of_isTerminal (terminalize_within _ _ _ _ _ _)⟩
  | noticeAnswerOutcome =>
    simp only [quiet, reduceNoticeAnswerOutcome]
    split_ifs
    · exact ⟨h, within_nil⟩
    · split
      · exact ⟨h, by simp [Asleep, Effect.isStirring]⟩
      · exact ⟨h.of_eq rfl rfl rfl rfl rfl, by simp [Asleep, Effect.isStirring]⟩
  | inboundLegGone =>
    simp only [quiet, reduceInboundLegGone]
    split_ifs
    · exact ⟨h, within_nil⟩
    · simp only [terminalize_fst]
      exact ⟨h.over rfl, asleep_of_isTerminal (terminalize_within _ _ _ _ _ _)⟩

theorem attends_of_rouses (i : Input) (h : Dormant m)
    (hr : rouses m i.event = true) : ∃ e ∈ (machineStep m i).2, e.attends = true := by
  unfold machineStep reduceMachine
  cases hevent : i.event with
  | ringMe userId sipUsername noLocalLeg =>
    rw [hevent] at hr
    simp only [rouses, Bool.and_eq_true, beq_iff_eq, Bool.not_eq_true'] at hr
    have hrefusal : ringMeRefusal m userId noLocalLeg i.nowMs = none := by
      unfold ringMeRefusal
      simp only [hr.1, hr.2, h.legs]
      simp [MAX_LEGS_PER_SESSION]
    simp only [reduceRingMe, hrefusal]
    exact ⟨_, List.mem_singleton_self _, rfl⟩
  | decline userId =>
    rw [hevent] at hr
    simp only [rouses, Bool.and_eq_true, beq_iff_eq, List.isEmpty_iff] at hr
    obtain ⟨⟨⟨hring, htarget⟩, hpush⟩, hcust⟩ := hr
    obtain ⟨c, hc⟩ := Option.isSome_iff_exists.1 hcust
    have hladder : runAvenueLadder (withoutMember m userId).1 =
        vmEntry (withoutMember m userId).1 := by
      simp [runAvenueLadder, withoutMember, sweepLegs, liveLegs, h.legs, h.queue, hpush, hring]
    simp only [reduceDecline, hring, htarget, hladder]
    refine ⟨.telnyxAnswerVm c, List.mem_append_right _ ?_, rfl⟩
    unfold vmEntry
    exact List.mem_append_left _ (List.mem_append_right _ (mem_ifTruthy.2 ⟨c, hc, rfl⟩))
  | _ => rw [hevent] at hr; cases hr

/-! ### The invariant of the object -/

/-- The object of a turned-away call: nothing remote is armed, due or on the journal. -/
structure Session.Dormant (s : Session) : Prop where
  alarms : ∀ slot : AlarmKind, slot.isRemote = true → s.alarms slot = none
  due : ∀ slot ∈ s.due, slot.isRemote = false
  live : ∀ m, s.machine = some m → Calls.Dormant m ∧ ∀ e ∈ s.journal, e.isRemote = false
  mint : s.machine = none → ∃ context, turnsAway context = true ∧ s.journal = [.initiated context]

def Session.Rouses (s : Session) : Action → Prop
  | .drain .. => ∃ m event rest, s.machine = some m ∧ s.journal = event :: rest ∧
      rouses m event = true
  | _ => False

theorem dormant_mint {context : InitiatedContext} (h : turnsAway context = true) (nowMs : ℤ)
    (pendingKeyFor : ℕ → String) :
    Dormant (reduceInitiated context nowMs pendingKeyFor).1 ∧
      Asleep (reduceInitiated context nowMs pendingKeyFor).2 := by
  simp only [turnsAway, Bool.and_eq_true, Bool.not_eq_true', Bool.or_eq_true] at h
  obtain ⟨hring, haway⟩ := h
  unfold reduceInitiated initiatedBranch
  rw [if_neg (by simp [hring])]
  by_cases hsuspended : context.suspendedOrInactive = true
  · rw [if_pos hsuspended]
    refine ⟨⟨rfl, rfl, rfl, Or.inl rfl⟩, within_cons.2 ⟨rfl, within_cons.2 ⟨rfl, ?_⟩⟩⟩
    exact within_ite (by simp [Effect.isStirring]) within_nil
  · have hcap : context.overCap = true := haway.resolve_left hsuspended
    rw [if_neg hsuspended, if_pos hcap]
    exact ⟨⟨rfl, rfl, rfl, Or.inl rfl⟩, by
      simp [overCapStart, Asleep, Effect.isStirring, AlarmKind.isRemote]⟩

theorem not_isRemote_of_followsUp {customerCcid : Option String} {e : Effect}
    {event : SessionEvent} (he : e.isStirring = false)
    (h : followsUp customerCcid e event = true) : event.isRemote = false := by
  cases e with
  | telnyxAnswerNotice =>
    cases event with
    | noticeAnswerOutcome => rfl
    | _ => cases h
  | telnyxHangup ccid terminal =>
    cases event with
    | inboundLegGone => rfl
    | _ => cases terminal <;> cases h
  | telnyxDial | telnyxDialPlacer | telnyxAnswerVm | telnyxAnswerInbound | telnyxProbeMemberLeg
  | pushFanout => cases he
  | _ => cases h

theorem not_attends_of_asleep (h : Asleep es) : ∀ e ∈ es, ¬e.attends = true := by
  intro e he hattends
  have hstill := h e he
  cases e with
  | telnyxSpeak ccid script =>
    cases script with
    | voicemailGreeting => cases hstill
    | unavailableNotice => cases hattends
  | telnyxDial | telnyxAnswerVm | telnyxRecordStart => cases hstill
  | _ => cases hattends

/-- What a reduction that wakes nobody leaves behind: its effects arm no remote slot and report no
remote event. -/
theorem Asleep.executeAll (h : Asleep es) (s : Shell) (answers : ℕ → Answers) :
    (∀ slot : AlarmKind, slot.isRemote = true → s.alarms slot = none →
        (executeAll s es answers).1.alarms slot = none) ∧
      ∀ e ∈ (executeAll s es answers).2, e.isRemote = false := by
  constructor
  · intro slot hslot hnone
    refine executeAll_alarms_none answers hnone fun atMs hmem => ?_
    have hstill := h _ hmem
    simp [Effect.isStirring, hslot] at hstill
  · intro event hevent
    obtain ⟨e, he, hfollows⟩ := followsUp_of_mem hevent
    exact not_isRemote_of_followsUp (by simpa using h e he) hfollows

theorem Session.Dormant.drain {s : Session} (h : s.Dormant) {nowMs clockMs : ℤ}
    {pendingKeyFor : ℕ → String} {answers : ℕ → Answers}
    (hr : ¬s.Rouses (.drain nowMs clockMs pendingKeyFor answers)) :
    (sessionStep s (.drain nowMs clockMs pendingKeyFor answers)).1.Dormant ∧
      ∀ e ∈ (sessionStep s (.drain nowMs clockMs pendingKeyFor answers)).2,
        ¬e.attends = true := by
  cases hm : s.machine with
  | none =>
    obtain ⟨context, haway, hj⟩ := h.mint hm
    obtain ⟨hdormant, hasleep⟩ := dormant_mint haway nowMs pendingKeyFor
    obtain ⟨count, hstep⟩ := sessionStep_mint hm hj nowMs clockMs pendingKeyFor answers
    obtain ⟨halarms, hevents⟩ := hasleep.executeAll
      ⟨(reduceInitiated context nowMs pendingKeyFor).1, s.alarms⟩ answers
    rw [hstep]
    refine ⟨⟨fun slot hslot => halarms slot hslot (h.alarms slot hslot), h.due, ?_, ?_⟩,
      not_attends_of_asleep hasleep⟩
    · rintro m ⟨⟩
      exact ⟨hdormant.of_eq rfl rfl rfl rfl rfl, hevents⟩
    · rintro ⟨⟩
  | some m =>
    obtain ⟨hdormant, hjournal⟩ := h.live m hm
    cases hj : s.journal with
    | nil =>
      have hidle : sessionStep s (.drain nowMs clockMs pendingKeyFor answers) = (s, []) := by
        simp [sessionStep, Session.drain, hj]
      rw [hidle]
      exact ⟨h, by simp⟩
    | cons event rest =>
      rw [hj] at hjournal
      have hquiet : rouses m event = false := by
        by_contra hroused
        exact hr ⟨m, event, rest, hm, hj, by simpa using hroused⟩
      obtain ⟨hnext, hasleep⟩ := dormant_step ⟨event, nowMs, clockMs, pendingKeyFor⟩ hdormant
        (hjournal event (List.mem_cons_self ..)) hquiet
      obtain ⟨count, hstep⟩ := sessionStep_drain hm hj nowMs clockMs pendingKeyFor answers
      obtain ⟨halarms, hevents⟩ := hasleep.executeAll
        ⟨(machineStep m ⟨event, nowMs, clockMs, pendingKeyFor⟩).1, s.alarms⟩ answers
      rw [hstep]
      refine ⟨⟨fun slot hslot => halarms slot hslot (h.alarms slot hslot), h.due, ?_, ?_⟩,
        not_attends_of_asleep hasleep⟩
      · rintro m' ⟨⟩
        refine ⟨hnext.of_eq rfl rfl rfl rfl rfl, fun e he => ?_⟩
        rcases List.mem_append.1 he with he | he
        · exact hjournal e (List.mem_cons_of_mem _ he)
        · exact hevents e he
      · rintro ⟨⟩

theorem Session.Dormant.put {s t : Session} {event : SessionEvent} (h : s.Dormant)
    (hempty : s.journal = []) (hevent : event.isRemote = false) (hmachine : t.machine = s.machine)
    (hjournal : t.journal = [event])
    (halarms : ∀ slot : AlarmKind, slot.isRemote = true → t.alarms slot = none)
    (hdue : ∀ slot ∈ t.due, slot.isRemote = false) : t.Dormant where
  alarms := halarms
  due := hdue
  live := by
    intro m hm
    rw [hmachine] at hm
    refine ⟨(h.live m hm).1, fun e he => ?_⟩
    rw [hjournal] at he
    rw [List.mem_singleton.1 he]
    exact hevent
  mint := by
    intro hm
    obtain ⟨context, _, hj⟩ := h.mint (hmachine ▸ hm)
    rw [hempty] at hj
    cases hj

theorem Session.Dormant.of_slots {s t : Session} (h : s.Dormant) (hmachine : t.machine = s.machine)
    (hjournal : t.journal = s.journal)
    (halarms : ∀ slot : AlarmKind, slot.isRemote = true → t.alarms slot = none)
    (hdue : ∀ slot ∈ t.due, slot.isRemote = false) : t.Dormant where
  alarms := halarms
  due := hdue
  live := by rw [hmachine, hjournal]; exact h.live
  mint := by rw [hmachine, hjournal]; exact h.mint

theorem not_isRemote_of_not_isInternal {e : SessionEvent} (h : e.isInternal = false) :
    e.isRemote = false := by
  cases e with
  | alarmRing | alarmRingStep | answerOutcome | vmAnswerOutcome | pushFanoutSettled | dialOutcome
  | memberProbeOutcome => cases h
  | _ => rfl

/-- **A step that does not rouse the object** leaves it dormant and attends to nobody. -/
theorem dormant_sessionStep (s : Session) (a : Action) (h : s.Dormant) (hr : ¬s.Rouses a) :
    (sessionStep s a).1.Dormant ∧ ∀ e ∈ (sessionStep s a).2, ¬e.attends = true := by
  cases a with
  | drain => exact h.drain hr
  | admitEvent event =>
    refine ⟨?_, by simp [sessionStep]⟩
    rcases admit_eq_or s event with hsame | ⟨hempty, hexternal, hadmitted⟩
    · rw [sessionStep, hsame]
      exact h
    · rw [sessionStep, hadmitted]
      exact h.put hempty (not_isRemote_of_not_isInternal hexternal) rfl rfl h.alarms h.due
  | wake nowMs =>
    refine ⟨?_, by simp [sessionStep]⟩
    rcases wake_eq_or s nowMs with hsame | hwake
    · rw [sessionStep, hsame]
      exact h
    · rw [sessionStep, hwake]
      refine h.of_slots rfl rfl h.alarms fun slot hslot => ?_
      -- a slot that is due was armed
      obtain ⟨_, harmed⟩ := List.mem_filter.1 hslot
      by_contra hremote
      rw [h.alarms slot (by simpa using hremote)] at harmed
      cases harmed
  | fire unreachableUserIds =>
    refine ⟨?_, by simp [sessionStep]⟩
    rcases fire_eq_or s unreachableUserIds with
      hsame | ⟨slot, due, hempty, hdue, ⟨event, hevent, hfire⟩ | hpurge⟩
    · rw [sessionStep, hsame]
      exact h
    · have hslot : slot.isRemote = false := h.due slot (by rw [hdue]; exact List.mem_cons_self ..)
      have hquiet : event.isRemote = false := by
        cases slot with
        | intentExpiry | janitor => cases hevent; rfl
        | purge => cases hevent
        | ring | ringStep | fanoutSettle => cases hslot
      rw [sessionStep, hfire]
      refine h.put hempty hquiet rfl rfl (fun other hother => ?_) fun other hother => ?_
      · by_cases heq : other = slot
        · rw [heq]
          exact Function.update_self ..
        · exact (Function.update_of_ne heq _ _).trans (h.alarms other hother)
      · exact h.due other (by rw [hdue]; exact List.mem_cons_of_mem _ hother)
    · rw [sessionStep, hpurge]
      exact h.of_slots rfl rfl (fun _ _ => rfl) (by simp)

/-- **Turned-away calls.**  A run of a session that was to ring nobody attends to the caller —
dials a phone, answers into voicemail, speaks the greeting or starts a recording — exactly when one
of its steps is a ring-me that meets no refusal or a decline that empties the push audience. -/
theorem turned_away_iff (r : SessionRun) (haway : turnsAway r.context = true) :
    (∀ e ∈ r.effects, ¬e.attends = true) ↔
      Reactive.Along sessionStep (fun s a => ¬s.Rouses a) (.start r.context) r.actions := by
  have hstart : (Session.start r.context).Dormant :=
    { alarms := fun _ _ => rfl
      due := by simp [Session.start]
      live := fun m hm => nomatch hm
      mint := fun _ => ⟨r.context, haway, rfl⟩ }
  refine Reactive.outputs_good_iff_along sessionStep dormant_sessionStep (fun s a h hr => ?_)
    hstart r.actions
  cases a with
  | drain nowMs clockMs pendingKeyFor answers =>
    obtain ⟨m, event, rest, hm, hj, hroused⟩ := not_not.1 hr
    obtain ⟨count, hstep⟩ := sessionStep_drain hm hj nowMs clockMs pendingKeyFor answers
    rw [hstep]
    obtain ⟨e, he, hattends⟩ :=
      attends_of_rouses ⟨event, nowMs, clockMs, pendingKeyFor⟩ (h.live m hm).1 hroused
    exact ⟨e, he, not_not.2 hattends⟩
  | admitEvent | wake | fire => exact absurd (fun hroused => nomatch hroused) hr

/-! ### A decline on a suspended line -/

/-- A call to a suspended line whose only member has the app on a phone. -/
def suspendedCall : InitiatedContext :=
  { crewOfOne with suspendedOrInactive := true, dialTargets := [], pushAudience := ["ana"] }

def declinedSuspended : SessionRun :=
  ⟨suspendedCall, [drainOnce, .admitEvent (.decline "ana"), drainOnce]⟩

/-- Her decline answers the caller into voicemail. -/
theorem decline_opens_voicemail :
    turnsAway declinedSuspended.context = true ∧
      Effect.telnyxAnswerVm "customer" ∈ declinedSuspended.effects := by
  decide

/-- The same call left alone until its notice would have ended. -/
def undisturbed : SessionRun :=
  ⟨suspendedCall, [drainOnce, .admitEvent .speakEnded, drainOnce]⟩

theorem turned_away_iff_undisturbed : (undisturbed.effects.filter fun e => e.attends) = [] := by
  refine List.filter_eq_nil_iff.2 ((turned_away_iff undisturbed rfl).2 ⟨?_, ?_, ?_, trivial⟩)
  · rintro ⟨m, _, _, hm, _⟩
    cases hm
  · exact id
  · rintro ⟨m, _, _, _, hj, hr⟩
    cases hj
    cases hr

end Calls
