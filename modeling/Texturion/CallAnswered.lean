/-
**An answered call stays answered.**

Once a call is `answered` it carries the time it was answered, and no event takes that time away
again.  From `answered` the machine moves to `ended_answered` and nowhere else, with one licensed
exception: a hangup of the customer leg that carries the voicemail tag says that the machine lost
a transition, and ends the call provisionally as missed.

The dial outcome of an outbound call's placer is the one event the result leaves out: it resolves
the call by its own verdict in whatever live state it finds it.

Main result:

* `Calls.answered_kept` — **an answered call is only ever answered or ended as answered**, up to a
  voicemail-tagged hangup.
-/

import Texturion.CallTerminal
import Mathlib.Data.List.Induction

namespace Calls

open FirstMatch

/-! ### The answer time -/

theorem CoreMove.answeredAtIso {m c : SessionMachine} {event : SessionEvent}
    (h : CoreMove m event c) (hm : m.answeredAtIso.isSome = true) :
    c.answeredAtIso.isSome = true := by
  cases h with
  | @ended n target hn =>
    obtain ⟨owner, atIso, hcore, hkept⟩ := core_of_ended hn
    rw [hcore]
    exact hkept hm
  | upgraded | pickedUp | connected => rfl
  | _ => exact hm

variable {m : SessionMachine}

/-- **The answer time is never taken back.** -/
theorem machineStep_answeredAtIso (i : Input) (h : m.answeredAtIso.isSome = true) :
    (machineStep m i).1.answeredAtIso.isSome = true :=
  (machineStep_core m i).answeredAtIso h

def Stamped (m : SessionMachine) : Prop := m.state = .answered → m.answeredAtIso.isSome = true

theorem stamped_of_liveMove (i : Input) {t : CallState}
    (ht : (machineStep m i).1.state = t) (hmove : LiveMove i.event m.state t)
    (hans : t = .answered) : (machineStep m i).1.answeredAtIso.isSome = true := by
  obtain ⟨event, nowMs, clockMs, pendingKeyFor⟩ := i
  simp only at hmove
  generalize hs : m.state = s at hmove
  cases hmove with
  | voicemail | record => cases hans
  | @pickUp memberCcid userId answeredAtIso =>
    simp [machineStep, reduceMachine, quiet, reduceAnswerOutcome, hs, sweepLegs,
      SessionMachine.setLegStatus]
  | connect =>
    by_cases hout : m.direction = .outbound
    · simp [machineStep, reduceMachine, quiet, reduceOutboundAnswered, hs, hout]
    · -- an inbound machine ignores the event, so it never becomes answered by it
      have hsame : (machineStep m ⟨.outboundAnswered, nowMs, clockMs, pendingKeyFor⟩).1.state =
          .dialing := by
        simp [machineStep, reduceMachine, quiet, reduceOutboundAnswered, hs, hout]
      rw [hsame] at ht
      cases ht

theorem stamped_step (i : Input) (h : Stamped m) : Stamped (machineStep m i).1 := by
  intro hans
  have hlife := machineStep_life m i
  unfold LifeStep at hlife
  generalize ht : (machineStep m i).1.state = t at hlife hans
  generalize hs : m.state = s at hlife
  generalize he : i.event = event at hlife
  generalize mergeOutcomes (machineStep m i).2 = xs at hlife
  generalize purgeArms (machineStep m i).2 = n at hlife
  cases hlife with
  | stay => exact machineStep_answeredAtIso i (h (hs.trans hans))
  | live hmove => exact stamped_of_liveMove i ht (hs ▸ he ▸ hmove) hans
  | finish _ houtcome => rw [hans] at houtcome; cases houtcome
  | saved | upgradeAnswered | upgradeVoicemail => cases hans

theorem CallRun.stamped (r : CallRun) : Stamped r.machine := by
  refine CallRun.machine_inv (P := Stamped) ?_ (fun _ i => stamped_step i) r
  intro mint nowMs pendingKeyFor hans
  rcases mint_state mint nowMs pendingKeyFor with h | h | h
  · rw [h] at hans; cases hans
  · rw [h] at hans; cases hans
  · rw [h] at hans; cases hans

/-! ### One step from `answered` -/

/-- A voicemail-tagged hangup of the customer leg. -/
def isVoicemailHangup : SessionEvent → Bool
  | .inboundHangup .vmi _ _ => true
  | _ => false

def deadPlacerDial (m : SessionMachine) : SessionEvent → Bool
  | .dialOutcome key ccid (some .knownDead) =>
    m.direction == .outbound && (truthy ccid).isNone &&
      (m.legs.find? fun entry => entry.key == key).isSome
  | _ => false

theorem reduceInboundHangup_answered (tag : HangupTag) (briAnsweredAtIso : Option String)
    (payload : Option Payload) (nowMs : ℤ) (hm : m.state = .answered) :
    (reduceInboundHangup m tag briAnsweredAtIso payload nowMs).1.state =
      if tag = .vmi then .endedMissed else .endedAnswered := by
  unfold reduceInboundHangup
  rw [if_neg (by rw [hm]; decide)]
  cases tag with
  | bri => simp
  | vmi => simp
  | untagged => simp [hm]

/-- What the dial outcome of an answered call's leg does: nothing to the state, unless it is the
dead placer's. -/
theorem reduceDialOutcome_answered (key : String) (ccid : Option String)
    (failure : Option DialFailure) (nowMs : ℤ) (hm : m.state = .answered)
    (hdial : deadPlacerDial m (.dialOutcome key ccid failure) = false) :
    (reduceDialOutcome m key ccid failure nowMs).1.state = .answered := by
  have hsame : (updateLegByKey m key (failLeg failure)).state = .answered := hm
  rcases reduceDialOutcome_cases m key ccid failure nowMs with
    ⟨_, h⟩ | ⟨leg, hfind, ⟨landed, _, h⟩ | ⟨_, _, h⟩ | ⟨_, _, _, h⟩ |
      ⟨hccid, hout, hdead, _, _⟩⟩
  · rw [h]; exact hm
  · rw [h]; exact hm
  · rw [h, runAvenueLadder_of_not_ringing (by rw [hsame]; decide)]
    exact hsame
  · rw [h]; exact hsame
  · subst hdead
    simp [deadPlacerDial, hout, hccid, hfind] at hdial

/-- **What one step may do to an answered call**: keep it, end it as answered, or, on a
voicemail-tagged hangup, end it provisionally as missed. -/
theorem answered_step (i : Input) (hm : m.state = .answered)
    (hstamp : m.answeredAtIso.isSome = true) (hdial : deadPlacerDial m i.event = false) :
    (machineStep m i).1.state = .answered ∨ (machineStep m i).1.state = .endedAnswered ∨
      (isVoicemailHangup i.event = true ∧ (machineStep m i).1.state = .endedMissed) := by
  unfold machineStep reduceMachine
  cases hevent : i.event with
  | inboundHangup tag briAnsweredAtIso payload =>
    have h := reduceInboundHangup_answered tag briAnsweredAtIso payload i.nowMs hm
    cases tag with
    | bri => exact Or.inr (Or.inl h)
    | untagged => exact Or.inr (Or.inl h)
    | vmi => exact Or.inr (Or.inr ⟨rfl, h⟩)
  | outboundHangup payload =>
    right; left
    simp [quiet, reduceOutboundHangup, hm, isTerminal, hstamp]
  | alarmJanitor =>
    right; left
    simp [quiet, reduceAlarmJanitor, hm, isTerminal]
  | inboundLegGone =>
    right; left
    simp [quiet, reduceInboundLegGone, hm]
  | dialOutcome key ccid failure =>
    exact Or.inl (reduceDialOutcome_answered key ccid failure i.nowMs hm (hevent ▸ hdial))
  | memberLegAnswered ccid userId destination =>
    left
    simp only [quiet, reduceMemberAnswered]
    split
    · simpa using hm
    · simp [hm]
  | memberLegHangup ccid userId destination =>
    left
    simp only [quiet, reduceMemberHangup]
    split
    · simpa using hm
    · split_ifs <;> simp_all [ownerDeathTeardown]
  | outboundPlacerAnswered ccid userId destination =>
    left
    simp only [quiet, reduceOutboundPlacerAnswered]
    split_ifs
    · exact hm
    · split
      · simpa using hm
      · split_ifs <;> simpa using hm
  | outboundPlacerHangup ccid userId =>
    left
    simp only [quiet, reduceOutboundPlacerHangup]
    split_ifs <;> simp_all [ownerDeathTeardown]
  | alarmRingStep =>
    left
    rw [show reduceAlarmRingStep m i.nowMs i.pendingKeyFor = (m, []) by
      simp [reduceAlarmRingStep, hm]]
    exact hm
  | ringMe userId sipUsername noLocalLeg =>
    left
    simp only [reduceRingMe]
    split <;> exact hm
  | clearIntent | alarmIntentExpiry =>
    left
    simp only [quiet, reduceIntentOver]
    split_ifs <;> exact hm
  | decline userId =>
    left
    simp [reduceDecline, hm]
  | pushFanoutSettled unreachableUserIds =>
    left
    simp only [quiet, reducePushFanoutSettled]
    rw [runAvenueLadder_of_not_ringing (by simp [hm])]
    exact hm
  | noticeAnswerOutcome ok =>
    left
    simp only [quiet, reduceNoticeAnswerOutcome]
    split_ifs
    · exact hm
    · split <;> exact hm
  | speakEnded =>
    left
    simp only [quiet, reduceSpeakEnded]
    split_ifs <;> simp_all
  | initiated | outboundInitiated | setOwner | registerIntent => exact Or.inl hm
  | outboundAnswered => left; simp [quiet, reduceOutboundAnswered, hm]
  | recordingSaved payload => left; simp [quiet, reduceRecordingSaved, hm]
  | alarmRing => left; simp [quiet, reduceAlarmRing, hm]
  | answerOutcome => left; simp [quiet, reduceAnswerOutcome, hm]
  | vmAnswerOutcome => left; simp [quiet, reduceVmAnswerOutcome, hm]
  | memberProbeOutcome => left; simp [quiet, reduceMemberProbeOutcome, hm]

/-! ### Runs from `answered` -/

/-- `ended_answered` is final. -/
theorem endedAnswered_step (i : Input) (hm : m.state = .endedAnswered) :
    (machineStep m i).1.state = .endedAnswered := by
  rcases terminal_step i (by rw [hm]; rfl) with h | ⟨h, _⟩ | ⟨h, _⟩
  · rw [h, hm]
  · rw [hm] at h; cases h
  · rw [hm] at h; cases h

def VoicemailHangupWhileAnswered (m : SessionMachine) (i : Input) : Prop :=
  m.state = .answered ∧ isVoicemailHangup i.event = true

/-- **An answered call is only ever answered or ended as answered**, unless a voicemail-tagged
hangup of the customer leg finds it answered, which ends it provisionally as missed. -/
theorem answered_kept (r : CallRun) (is : List Input) (hr : r.machine.state = .answered)
    (hdial : Reactive.Along machineStep
      (fun m i => m.state = .answered → deadPlacerDial m i.event = false) r.machine is) :
    (r.extend is).machine.state = .answered ∨ (r.extend is).machine.state = .endedAnswered ∨
      ∃ js i ks, is = js ++ i :: ks ∧
        VoicemailHangupWhileAnswered (r.extend js).machine i ∧
        (r.extend (js ++ [i])).machine.state = .endedMissed := by
  induction is using List.reverseRecOn with
  | nil => exact Or.inl (by rw [CallRun.extend_machine]; exact hr)
  | append_singleton is i ih =>
    obtain ⟨hpre, hlive⟩ := (Reactive.along_append ..).1 hdial
    rw [← CallRun.extend_machine] at hlive
    have hlast : (r.extend (is ++ [i])).machine = (machineStep (r.extend is).machine i).1 := by
      rw [CallRun.extend_machine, Reactive.final_append, ← CallRun.extend_machine]
      rfl
    rcases ih hpre with h | h | ⟨js, j, ks, his, hvm, hmissed⟩
    · have hstamp := (r.extend is).stamped h
      rcases answered_step i h hstamp (hlive.1 h) with h' | h' | ⟨hevent, h'⟩
      · exact Or.inl (by rw [hlast, h'])
      · exact Or.inr (Or.inl (by rw [hlast, h']))
      · exact Or.inr (Or.inr ⟨is, i, [], rfl, ⟨h, hevent⟩, by rw [hlast, h']⟩)
    · exact Or.inr (Or.inl (by rw [hlast, endedAnswered_step i h]))
    · exact Or.inr (Or.inr ⟨js, j, ks ++ [i], by simp [his], hvm, hmissed⟩)

/-! ### A call to a crew of one -/

/-- An input at time zero, with the keys `key-0`, `key-1` and so on. -/
def inputOf (event : SessionEvent) : Input :=
  ⟨event, 0, 0, fun k => "key-" ++ toString k⟩

def pickedUp : CallRun where
  mint := .inbound crewOfOne
  nowMs := 0
  clockMs := 0
  pendingKeyFor := fun _ => "key"
  inputs := [inputOf (.dialOutcome "leg:pending:key" (some "ana-leg") none),
    inputOf (.memberLegAnswered "ana-leg" "ana" none),
    inputOf (.answerOutcome true "ana-leg" "ana" "1970-01-01T00:00:00.000Z")]

/-- A voicemail-tagged hangup ends an answered call as missed. -/
theorem answered_reverted_by_voicemail_hangup :
    pickedUp.machine.state = .answered ∧
      (pickedUp.extend [inputOf (.inboundHangup .vmi none none)]).machine.state =
        .endedMissed := by
  constructor <;> rfl

theorem answered_kept_picked_up :
    (pickedUp.extend [inputOf (.inboundHangup .bri none none)]).machine.state = .answered ∨
      (pickedUp.extend [inputOf (.inboundHangup .bri none none)]).machine.state =
        .endedAnswered ∨
      ∃ js i ks, [inputOf (.inboundHangup .bri none none)] = js ++ i :: ks ∧
        VoicemailHangupWhileAnswered (pickedUp.extend js).machine i ∧
        (pickedUp.extend (js ++ [i])).machine.state = .endedMissed :=
  answered_kept pickedUp [inputOf (.inboundHangup .bri none none)] rfl
    ⟨fun _ => rfl, trivial⟩

end Calls
