/-
**What the handlers' shared actions do.**

One specification lemma for each action that the handlers of `Texturion/CallReduce.lean` share: the
machine it leaves, field by field or as one record, and the effects it may push.  The proofs about
the transition function cite these and do not unfold the actions again.

Main result:

* `Calls.machineStep_core` — **what a step can do** to a machine, but for its legs and avenues.
-/

import Texturion.CallReduce

namespace Calls

open FirstMatch

/-! ### Conditional effects and sweeps -/

variable {s : Option String} {e : Effect} {leg : LegRecord} {ccid : String} {target : CallState}

theorem mem_ifTruthy {f : String → Effect} :
    e ∈ ifTruthy s f ↔ ∃ c, truthy s = some c ∧ e = f c := by
  unfold ifTruthy
  cases truthy s with
  | none | some => simp

theorem ifTruthy_of_some {c : String} (h : truthy s = some c)
    (f : String → Effect) : ifTruthy s f = [f c] := by
  simp [ifTruthy, h]

theorem ifTruthy_of_none (h : truthy s = none) (f : String → Effect) : ifTruthy s f = [] := by
  simp [ifTruthy, h]

/-- A hangup command, whichever leg it is for. -/
def Effect.isHangup : Effect → Bool
  | .telnyxHangup _ _ => true
  | _ => false

theorem mem_sweepLegs {f : LegRecord → LegRecord × List Effect} {m : SessionMachine} :
    e ∈ (sweepLegs f m).2 ↔ ∃ leg ∈ m.legs, e ∈ (f leg).2 := by
  simp [sweepLegs, List.mem_flatMap]

theorem mem_cancelLeg {terminal : Bool} :
    e ∈ (cancelLeg terminal leg).2 ↔
      leg.status.isUp = true ∧ ∃ c, truthy leg.ccid = some c ∧ e = .telnyxHangup c terminal := by
  unfold cancelLeg
  by_cases h : leg.status.isUp = true
  · simp [h, mem_ifTruthy]
  · simp [h]

theorem cancelLeg_not_isUp (terminal : Bool) (leg : LegRecord) :
    (cancelLeg terminal leg).1.status.isUp = false := by
  unfold cancelLeg
  by_cases h : leg.status.isUp = true
  · simp only [h, if_true]
    rfl
  · simp [h]

theorem mem_reapAnsweredLeg (h : e ∈ (reapAnsweredLeg leg).2) :
    ∃ c, truthy leg.ccid = some c ∧ e = .telnyxHangup c true := by
  unfold reapAnsweredLeg at h
  by_cases hs : (leg.status == .answered) = true
  · cases hc : truthy leg.ccid with
    | none => simp [hs, hc] at h
    | some c => exact ⟨c, rfl, by simpa [hs, hc] using h⟩
  · simp [hs] at h

theorem reapAnsweredLeg_not_isUp (h : leg.status.isUp = false) :
    (reapAnsweredLeg leg).1.status.isUp = false := by
  unfold reapAnsweredLeg
  by_cases hs : (leg.status == .answered) = true
  · cases hc : truthy leg.ccid with
    | none => simpa [hs, hc] using h
    | some c => simp only [hs, if_true]; rfl
  · simpa [hs] using h

/-! ### The leg map -/

section

variable (m : SessionMachine)

@[simp] theorem setLegStatus_state (ccid : String) (s : LegStatus) :
    (m.setLegStatus ccid s).state = m.state := rfl

@[simp] theorem setLegStatus_answeredByUserId (ccid : String)
    (s : LegStatus) : (m.setLegStatus ccid s).answeredByUserId = m.answeredByUserId := rfl

@[simp] theorem setLegStatus_intent (ccid : String) (s : LegStatus) :
    (m.setLegStatus ccid s).intent = m.intent := rfl

end

theorem setLegStatus_of_findLeg_none {m : SessionMachine} (s : LegStatus)
    (h : m.findLeg ccid = none) : m.setLegStatus ccid s = m := by
  unfold SessionMachine.setLegStatus
  rw [updateFirst_of_find?_none _ _ h]

theorem findLeg_eq_none_iff {m : SessionMachine} :
    m.findLeg ccid = none ↔ ∀ leg ∈ m.legs, leg.ccid ≠ some ccid := by
  simp [SessionMachine.findLeg, List.find?_eq_none]

theorem findLeg_some {m : SessionMachine}
    (h : m.findLeg ccid = some leg) : leg ∈ m.legs ∧ leg.ccid = some ccid := by
  refine ⟨List.mem_of_find?_eq_some h, ?_⟩
  have := List.find?_some h
  simpa using this

section

variable (m : SessionMachine)

/-- An event's ccid is known, or is adopted onto the first record that may take it, or leaves the
machine alone and names no leg. -/
theorem resolveLeg_eq_or (ccid userId : String) (destination : Option String) (mayAdopt : Bool)
    (wake : LegStatus → LegStatus) :
    (∃ leg, m.findLeg ccid = some leg ∧
        resolveLeg m ccid userId destination mayAdopt wake = m) ∨
      (m.findLeg ccid = none ∧ mayAdopt = true ∧
        (∃ leg, m.legs.find? (adoptable userId destination) = some leg) ∧
        resolveLeg m ccid userId destination mayAdopt wake =
          adoptLeg m ccid userId destination wake) ∨
      (m.findLeg ccid = none ∧
        (mayAdopt = true → m.legs.find? (adoptable userId destination) = none) ∧
        resolveLeg m ccid userId destination mayAdopt wake = m) := by
  unfold resolveLeg
  cases hfind : m.findLeg ccid with
  | some leg => exact Or.inl ⟨leg, rfl, rfl⟩
  | none =>
    right
    cases mayAdopt with
    | false => exact Or.inr ⟨rfl, by simp, rfl⟩
    | true =>
      cases hcand : m.legs.find? (adoptable userId destination) with
      | some leg => exact Or.inl ⟨rfl, rfl, ⟨leg, rfl⟩, rfl⟩
      | none =>
        refine Or.inr ⟨rfl, fun _ => rfl, ?_⟩
        simp only [if_true, adoptLeg]
        rw [updateFirst_of_find?_none _ _ hcand]

theorem resolveLeg_eq (ccid userId : String) (destination : Option String) (mayAdopt : Bool)
    (wake : LegStatus → LegStatus) :
    ∃ legs, resolveLeg m ccid userId destination mayAdopt wake = { m with legs := legs } := by
  rcases resolveLeg_eq_or m ccid userId destination mayAdopt wake with
    ⟨_, _, h⟩ | ⟨_, _, _, h⟩ | ⟨_, _, h⟩
  · exact ⟨m.legs, h⟩
  · exact ⟨_, h⟩
  · exact ⟨m.legs, h⟩

@[simp] theorem resolveLeg_state (ccid userId : String) (destination : Option String)
    (mayAdopt : Bool) (wake : LegStatus → LegStatus) :
    (resolveLeg m ccid userId destination mayAdopt wake).state = m.state := by
  obtain ⟨legs, h⟩ := resolveLeg_eq m ccid userId destination mayAdopt wake
  rw [h]

@[simp] theorem resolveLeg_customerCcid (ccid userId : String) (destination : Option String)
    (mayAdopt : Bool) (wake : LegStatus → LegStatus) :
    (resolveLeg m ccid userId destination mayAdopt wake).customerCcid = m.customerCcid := by
  obtain ⟨legs, h⟩ := resolveLeg_eq m ccid userId destination mayAdopt wake
  rw [h]

@[simp] theorem resolveLeg_answeredAtIso (ccid userId : String) (destination : Option String)
    (mayAdopt : Bool) (wake : LegStatus → LegStatus) :
    (resolveLeg m ccid userId destination mayAdopt wake).answeredAtIso = m.answeredAtIso := by
  obtain ⟨legs, h⟩ := resolveLeg_eq m ccid userId destination mayAdopt wake
  rw [h]

@[simp] theorem resolveLeg_answeredByUserId (ccid userId : String) (destination : Option String)
    (mayAdopt : Bool) (wake : LegStatus → LegStatus) :
    (resolveLeg m ccid userId destination mayAdopt wake).answeredByUserId =
      m.answeredByUserId := by
  obtain ⟨legs, h⟩ := resolveLeg_eq m ccid userId destination mayAdopt wake
  rw [h]

/-! ### The ladder -/

@[simp] theorem vmEntry_state : (vmEntry m).1.state = .voicemailGreeting := rfl

/-- **The ladder** leaves the machine alone, or finds a ringing call with no live leg, no waiting
phone and no push-capable member, and enters voicemail. -/
theorem runAvenueLadder_eq_or :
    runAvenueLadder m = (m, []) ∨
      (m.state = .ringing ∧ liveLegs m = [] ∧ m.queuedTargets = [] ∧
        m.pushCapableUserIds = [] ∧ runAvenueLadder m = vmEntry m) := by
  unfold runAvenueLadder
  split_ifs with h₁ h₂ h₃ h₄
  · exact Or.inl rfl
  · exact Or.inl rfl
  · exact Or.inl rfl
  · exact Or.inl rfl
  · refine Or.inr ⟨by simpa using h₁, ?_, ?_, ?_, rfl⟩
    · exact List.length_eq_zero_iff.1 (by omega)
    · exact List.length_eq_zero_iff.1 (by omega)
    · exact List.length_eq_zero_iff.1 (by omega)

end

theorem runAvenueLadder_of_not_ringing {m : SessionMachine} (h : m.state ≠ .ringing) :
    runAvenueLadder m = (m, []) := by
  simp [runAvenueLadder, h]

/-- Whatever it does, the ladder leaves every field but the ring's own alone. -/
theorem runAvenueLadder_eq (m : SessionMachine) :
    ∃ state deadline queue, (runAvenueLadder m).1 =
      { m with state := state, ringDeadlineMs := deadline, queuedTargets := queue } := by
  rcases runAvenueLadder_eq_or m with h | ⟨_, _, _, _, h⟩
  · exact ⟨_, _, _, by rw [h]⟩
  · exact ⟨_, _, _, by rw [h]; rfl⟩

@[simp] theorem runAvenueLadder_legs (m : SessionMachine) :
    (runAvenueLadder m).1.legs = m.legs := by
  obtain ⟨_, _, _, h⟩ := runAvenueLadder_eq m
  rw [h]

/-! ### The next phone -/

/-- The waiting phones whose owner has not declined. -/
def waitingTargets (m : SessionMachine) : List DialTarget :=
  m.queuedTargets.filter fun candidate => !m.declinedUserIds.contains candidate.userId

section

variable (m : SessionMachine)

/-- **A cascade step** does nothing, or finds that everybody still waiting has declined and asks
the ladder, or takes the next phone off the queue and, below the leg cap, dials it. -/
theorem reduceAlarmRingStep_cases (nowMs : ℤ) (pendingKeyFor : ℕ → String) :
    reduceAlarmRingStep m nowMs pendingKeyFor = (m, []) ∨
      (m.state = .ringing ∧ waitingTargets m = [] ∧
        reduceAlarmRingStep m nowMs pendingKeyFor =
          runAvenueLadder { m with queuedTargets := [] }) ∨
      ∃ target rest, m.state = .ringing ∧ waitingTargets m = target :: rest ∧
        ((m.legs.length ≥ MAX_LEGS_PER_SESSION ∧
            reduceAlarmRingStep m nowMs pendingKeyFor = ({ m with queuedTargets := rest }, [])) ∨
          (m.legs.length < MAX_LEGS_PER_SESSION ∧
            reduceAlarmRingStep m nowMs pendingKeyFor =
              ({ m with queuedTargets := rest,
                        legs := m.legs ++ [dialLegFor target nowMs (pendingKeyFor 0)] },
                .telnyxDial [(dialLegFor target nowMs (pendingKeyFor 0)).toDialLeg] ::
                  armRingStep { m with
                    queuedTargets := rest
                    legs := m.legs ++ [dialLegFor target nowMs (pendingKeyFor 0)] } nowMs))) := by
  unfold reduceAlarmRingStep
  by_cases hring : m.state = .ringing
  · rw [if_neg (by simp [hring])]
    cases hwait : waitingTargets m with
    | nil =>
      unfold waitingTargets at hwait
      simp only [hwait]
      by_cases hdropped : ([] : List DialTarget).length < m.queuedTargets.length
      · exact Or.inr (Or.inl ⟨hring, trivial, if_pos hdropped⟩)
      · exact Or.inl (if_neg hdropped)
    | cons target rest =>
      unfold waitingTargets at hwait
      simp only [hwait]
      refine Or.inr (Or.inr ⟨target, rest, hring, rfl, ?_⟩)
      by_cases hcap : m.legs.length ≥ MAX_LEGS_PER_SESSION
      · exact Or.inl ⟨hcap, if_pos hcap⟩
      · exact Or.inr ⟨by omega, if_neg hcap⟩
  · exact Or.inl (if_pos (by simpa using hring))

/-! ### The doomed member -/

theorem doomMember_eq (memberCcid : String) :
    doomMember m memberCcid = (m, []) ∨
      doomMember m memberCcid =
        (m.setLegStatus memberCcid .canceling, [.telnyxHangup memberCcid true]) := by
  unfold doomMember
  cases m.findLeg memberCcid with
  | none => exact Or.inl rfl
  | some leg =>
    by_cases h : (leg.status != .dead) = true
    · exact Or.inr (if_pos h)
    · exact Or.inl (if_neg h)

/-! ### Terminal resolution -/

theorem isTerminal_missedState : isTerminal (missedState m) = true := by
  unfold missedState
  split_ifs <;> rfl

end

def terminalLeg (direction : Direction) (leg : LegRecord) : LegRecord :=
  if direction = .outbound then (reapAnsweredLeg (cancelLeg true leg).1).1
  else (cancelLeg true leg).1

theorem terminalLeg_not_isUp (direction : Direction) (leg : LegRecord) :
    (terminalLeg direction leg).status.isUp = false := by
  unfold terminalLeg
  split_ifs
  · exact reapAnsweredLeg_not_isUp (cancelLeg_not_isUp true leg)
  · exact cancelLeg_not_isUp true leg

section

variable (m : SessionMachine)

theorem terminalSweep_fst (target : CallState) :
    (terminalSweep m target).1 =
      { m with state := target, ringDeadlineMs := none,
               legs := m.legs.map (terminalLeg m.direction) } := by
  unfold terminalSweep reapAnsweredLegs cancelAllLiveLegs sweepLegs
  by_cases h : m.direction = .outbound
  · have hleg : terminalLeg .outbound =
        (fun leg => (reapAnsweredLeg leg).1) ∘ fun leg => (cancelLeg true leg).1 := by
      funext leg
      simp [terminalLeg]
    simp [h, hleg]
  · have hleg : terminalLeg m.direction = fun leg => (cancelLeg true leg).1 := by
      funext leg
      simp [terminalLeg, h]
    simp [h, hleg]

section

variable (nowMs : ℤ) (target) (merge : Option TerminalMerge) (reason : Option Outcome) (extra : MirrorSet)

theorem terminalize_fst :
    (terminalize m nowMs target merge reason extra).1 =
      { m with state := target, ringDeadlineMs := none,
               legs := m.legs.map (terminalLeg m.direction) } :=
  terminalSweep_fst m target

@[simp] theorem terminalize_state : (terminalize m nowMs target merge reason extra).1.state = target := by
  rw [terminalize_fst]

@[simp] theorem terminalize_legs :
    (terminalize m nowMs target merge reason extra).1.legs =
      m.legs.map (terminalLeg m.direction) := by
  rw [terminalize_fst]

@[simp] theorem terminalize_customerCcid :
    (terminalize m nowMs target merge reason extra).1.customerCcid = m.customerCcid := by
  rw [terminalize_fst]

end

end

theorem isHangup_of_mem_cancelAll {m : SessionMachine} {terminal : Bool}
    (h : e ∈ (cancelAllLiveLegs m terminal).2) : e.isHangup = true := by
  obtain ⟨leg, _, he⟩ := mem_sweepLegs.1 h
  obtain ⟨_, c, _, rfl⟩ := mem_cancelLeg.1 he
  rfl

theorem isHangup_of_mem_terminalSweep {m : SessionMachine}
    (h : e ∈ (terminalSweep m target).2) : e.isHangup = true := by
  unfold terminalSweep at h
  rcases List.mem_append.1 h with h | h
  · exact isHangup_of_mem_cancelAll h
  · unfold reapAnsweredLegs at h
    split_ifs at h
    · obtain ⟨leg, _, he⟩ := mem_sweepLegs.1 h
      obtain ⟨c, _, rfl⟩ := mem_reapAnsweredLeg he
      rfl
    · simp at h

/-- A leg that a terminal resolution finds up is hung up if its ccid is known. -/
theorem hangup_mem_terminalSweep {m : SessionMachine} {c : String} (hmem : leg ∈ m.legs)
    (hup : leg.status.isUp = true) (hc : truthy leg.ccid = some c) :
    Effect.telnyxHangup c true ∈ (terminalSweep m target).2 := by
  unfold terminalSweep
  refine List.mem_append_left _ (mem_sweepLegs.2 ⟨leg, hmem, mem_cancelLeg.2 ⟨hup, c, hc, rfl⟩⟩)

theorem mem_terminalize_of_mem_terminalSweep {m : SessionMachine} {nowMs : ℤ}
    {merge : Option TerminalMerge} {reason : Option Outcome} {extra : MirrorSet}
    (h : e ∈ (terminalSweep m target).2) :
    e ∈ (terminalize m nowMs target merge reason extra).2 := by
  unfold terminalize
  simp only [List.append_assoc]
  exact List.mem_append_left _ h

/-! ### Dial outcomes -/

/-- **A dial outcome** is about no leg; or lands one; or fails one, which an inbound call hands to
the ladder and an outbound call ends on, if the failure is known and the call is live. -/
theorem reduceDialOutcome_cases (m : SessionMachine) (key : String) (ccid : Option String)
    (failure : Option DialFailure) (nowMs : ℤ) :
    (m.legs.find? (fun entry => entry.key == key) = none ∧
        reduceDialOutcome m key ccid failure nowMs = (m, [])) ∨
      ∃ leg, m.legs.find? (fun entry => entry.key == key) = some leg ∧
        ((∃ landed, truthy ccid = some landed ∧
            reduceDialOutcome m key ccid failure nowMs =
              (updateLegByKey m key (landLeg landed), [])) ∨
          (truthy ccid = none ∧ m.direction = .inbound ∧
            reduceDialOutcome m key ccid failure nowMs =
              runAvenueLadder (updateLegByKey m key (failLeg failure))) ∨
          (truthy ccid = none ∧ m.direction = .outbound ∧
            (failure ≠ some .knownDead ∨ isTerminal m.state = true) ∧
            reduceDialOutcome m key ccid failure nowMs =
              (updateLegByKey m key (failLeg failure), [])) ∨
          (truthy ccid = none ∧ m.direction = .outbound ∧ failure = some .knownDead ∧
            isTerminal m.state = false ∧
            reduceDialOutcome m key ccid failure nowMs =
              ((terminalize (updateLegByKey m key (failLeg failure)) nowMs .endedMissed
                  (some (syntheticMerge .missed none)) none {}).1,
                (terminalize (updateLegByKey m key (failLeg failure)) nowMs .endedMissed
                  (some (syntheticMerge .missed none)) none {}).2 ++
                    ifTruthy m.customerCcid fun c => .telnyxHangup c true))) := by
  unfold reduceDialOutcome
  cases hfind : m.legs.find? fun entry => entry.key == key with
  | none => exact Or.inl ⟨rfl, rfl⟩
  | some leg =>
    refine Or.inr ⟨leg, rfl, ?_⟩
    cases hccid : truthy ccid with
    | some landed => exact Or.inl ⟨landed, rfl, rfl⟩
    | none =>
      right
      simp only
      cases hdir : m.direction with
      | inbound =>
        left
        refine ⟨trivial, rfl, if_neg ?_⟩
        simp [updateLegByKey, hdir]
      | outbound =>
        right
        rw [if_pos (show (updateLegByKey m key (failLeg failure)).direction = .outbound
          from hdir)]
        by_cases hdead : failure = some .knownDead ∧ isTerminal m.state = false
        · right
          refine ⟨trivial, rfl, hdead.1, hdead.2, ?_⟩
          rw [if_pos ⟨hdead.1, by simp [updateLegByKey, hdead.2]⟩, terminalize_customerCcid]
          rfl
        · left
          refine ⟨trivial, rfl, ?_, if_neg ?_⟩
          · by_cases hk : failure = some .knownDead
            · right
              simpa using fun h => hdead ⟨hk, h⟩
            · exact Or.inl hk
          · rintro ⟨hk, hlive⟩
            exact hdead ⟨hk, by simpa [updateLegByKey] using hlive⟩

/-! ### What a step can do -/

/-- A machine without its legs, the avenues still open to it and the ring's own marks. -/
def SessionMachine.core (m : SessionMachine) : SessionMachine :=
  { m with
    legs := [], queuedTargets := [], pushCapableUserIds := [], wakeAttempted := false
    ringDeadlineMs := none, unattended := false, noticeSpoken := false, telnyxCommandCount := 0 }

/-- The decliners after a step: those before it, or a new one with them. -/
def Declines (m : SessionMachine) (event : SessionEvent) (declined : List String) : Prop :=
  declined = m.declinedUserIds ∨
    ∃ userId, event = .decline userId ∧ declined = m.declinedUserIds ++ [userId]

def AnswersFor (event : SessionEvent) (userId : String) : Prop :=
  (∃ ccid destination, event = .memberLegAnswered ccid userId destination) ∨
    ∃ ccid, event = .memberProbeOutcome ccid userId true

def LosesOwner (m : SessionMachine) (event : SessionEvent) (userId : String) : Prop :=
  (∃ ccid destination leg, event = .memberLegHangup ccid userId destination ∧
      m.answeredByUserId = some userId ∧ m.findLeg ccid = some leg ∧ leg.status = .answered) ∨
    ∃ ccid, event = .outboundPlacerHangup ccid userId

/-- **What a step can do to the core of a machine.** -/
inductive CoreMove (m : SessionMachine) (event : SessionEvent) : SessionMachine → Prop
  | still {declined : List String} (hdeclined : Declines m event declined) :
      CoreMove m event { m.core with declinedUserIds := declined }
  | voicemail {declined : List String} (hdeclined : Declines m event declined)
      (hring : m.state = .ringing) :
      CoreMove m event
        { m.core with declinedUserIds := declined, state := .voicemailGreeting }
  | record (hgreeting : m.state = .voicemailGreeting) :
      CoreMove m event { m.core with state := .voicemailRecording }
  | ended {n : SessionMachine} {target : CallState} (hn : n.core = m.core ∨ n.core = (stampFromIntent m).core)
      (hterminal : isTerminal target = true) : CoreMove m event { n.core with state := target }
  | upgraded {intent : AnswerIntent} (hintent : m.answerIntent = some intent)
      (hmissed : m.state = .endedMissed) :
      CoreMove m event { m.core with
        state := .endedAnswered, answeredByUserId := some intent.userId
        answeredAtIso := some intent.answeredAtIso }
  | pickedUp (userId answeredAtIso : String) (hring : m.state = .ringing) :
      CoreMove m event { m.core with
        state := .answered, answeredByUserId := some userId, answeredAtIso := some answeredAtIso
        answerIntent := none }
  | connected (answeredAtIso : String) (hdialing : m.state = .dialing) :
      CoreMove m event { m.core with state := .answered, answeredAtIso := some answeredAtIso }
  | offered {intent : AnswerIntent} (hevent : AnswersFor event intent.userId) :
      CoreMove m event { m.core with answerIntent := some intent }
  | owned (userId : String) :
      CoreMove m event
        { m.core with answeredByUserId := some userId, ownerLegDeadDuringIntent := none }
  | intended (intent : SessionIntent) : CoreMove m event { m.core with intent := some intent }
  | intentOver :
      CoreMove m event { m.core with intent := none, ownerLegDeadDuringIntent := none }
  | bereft {userId : String} (hanswered : m.state = .answered) (hintent : m.intent ≠ none)
      (hevent : LosesOwner m event userId) :
      CoreMove m event { m.core with ownerLegDeadDuringIntent := some userId }
  | tornDown : CoreMove m event { m.core with ownerLegDeadDuringIntent := none }

section

variable {m : SessionMachine} {event : SessionEvent}

theorem CoreMove.same {n : SessionMachine} (h : n.core = m.core) : CoreMove m event n.core := by
  rw [h]
  exact CoreMove.still (Or.inl rfl)

theorem CoreMove.ladder {n : SessionMachine} {declined : List String}
    (hdeclined : Declines m event declined)
    (h : n.core = { m.core with declinedUserIds := declined }) :
    CoreMove m event (runAvenueLadder n).1.core := by
  have hstate : n.core.state = m.state := by rw [h]; rfl
  rcases runAvenueLadder_eq_or n with hsame | ⟨hring, _, _, _, hentry⟩
  · rw [hsame, h]
    exact CoreMove.still hdeclined
  · have hcore : (runAvenueLadder n).1.core = { n.core with state := .voicemailGreeting } := by
      rw [hentry]
      rfl
    rw [hcore, h]
    exact CoreMove.voicemail hdeclined (hstate.symm.trans hring)

@[simp] theorem terminalize_core (m : SessionMachine) (nowMs : ℤ) (target : CallState)
    (merge : Option TerminalMerge) (reason : Option Outcome) (extra : MirrorSet) :
    (terminalize m nowMs target merge reason extra).1.core = { m.core with state := target } := by
  rw [terminalize_fst]
  rfl

@[simp] theorem setLegStatus_core (ccid : String) (s : LegStatus) :
    (m.setLegStatus ccid s).core = m.core := rfl

@[simp] theorem resolveLeg_core (ccid userId : String) (destination : Option String)
    (mayAdopt : Bool) (wake : LegStatus → LegStatus) :
    (resolveLeg m ccid userId destination mayAdopt wake).core = m.core := by
  obtain ⟨legs, h⟩ := resolveLeg_eq m ccid userId destination mayAdopt wake
  rw [h]
  rfl

theorem reduceInboundHangup_core (tag : HangupTag) (briAnsweredAtIso : Option String)
    (payload : Option Payload) (nowMs : ℤ) :
    CoreMove m event (reduceInboundHangup m tag briAnsweredAtIso payload nowMs).1.core := by
  unfold reduceInboundHangup reduceLateInboundHangup
  by_cases hterminal : isTerminal m.state = true
  · rw [if_pos hterminal]
    split_ifs with hlate
    · cases hintent : m.answerIntent with
      | none => exact CoreMove.ended (n := m) (Or.inl rfl) rfl
      | some intent =>
        have hmove : CoreMove m event _ := CoreMove.upgraded hintent hlate.2
        simpa only [SessionMachine.core, hintent] using hmove
    · exact CoreMove.same rfl
  · rw [if_neg hterminal]
    cases tag with
    | bri =>
      simp only [terminalize_core]
      exact CoreMove.ended (Or.inr rfl) rfl
    | vmi =>
      simp only [terminalize_core]
      exact CoreMove.ended (Or.inl rfl) rfl
    | untagged =>
      simp only
      split_ifs
      · simp only [terminalize_core]
        exact CoreMove.ended (Or.inl rfl) rfl
      · simp only [terminalize_core]
        exact CoreMove.ended (Or.inl rfl) rfl
      · simp only [terminalize_core]
        exact CoreMove.ended (Or.inl rfl) (isTerminal_missedState m)

theorem reduceMemberHangup_core (ccid userId : String) (destination : Option String) :
    CoreMove m (.memberLegHangup ccid userId destination)
      (reduceMemberHangup m ccid userId destination).1.core := by
  have hresolve := @resolveLeg_core m ccid userId destination (m.state == .ringing) id
  unfold reduceMemberHangup
  simp only
  split
  · exact CoreMove.same hresolve
  · rename_i leg hfind
    split_ifs with hanswered howner hintent hring
    · exact CoreMove.same hresolve
    · -- an answered call adopts no leg, so the machine the leg was found on is `m`
      have hknown : m.state = .answered := by
        rw [resolveLeg_state] at hanswered
        exact hanswered.1
      have hsame : resolveLeg m ccid userId destination (m.state == .ringing) id = m := by
        rw [hknown]
        unfold resolveLeg
        cases m.findLeg ccid <;> rfl
      rw [hsame] at hfind hanswered howner hintent ⊢
      refine CoreMove.bereft hknown ?_ (Or.inl ⟨ccid, destination, leg, rfl, ?_, hfind, hanswered.2⟩)
      · simpa using hintent
      · simpa using howner
    · have hcore : ∀ n : SessionMachine, n.core = m.core →
          CoreMove m (.memberLegHangup ccid userId destination) (ownerDeathTeardown n).1.core := by
        intro n h
        have hdead : (ownerDeathTeardown n).1.core =
            { n.core with ownerLegDeadDuringIntent := none } := rfl
        rw [hdead, h]
        exact CoreMove.tornDown
      exact hcore _ hresolve
    · exact CoreMove.same hresolve
    · exact CoreMove.ladder (Or.inl rfl) hresolve

theorem beginAnswer_core (ccid userId : String) (answeredAtIso : String) :
    (beginAnswer m ccid userId answeredAtIso).1.core =
      { m.core with answerIntent := some ⟨ccid, userId, answeredAtIso⟩ } := rfl

theorem doomMember_core (memberCcid : String) : (doomMember m memberCcid).1.core = m.core := by
  rcases doomMember_eq m memberCcid with h | h
  · rw [h]
  · rw [h]
    rfl

theorem reduceOutboundPlacerHangup_core (ccid userId : String) (nowMs : ℤ) :
    CoreMove m (.outboundPlacerHangup ccid userId)
      (reduceOutboundPlacerHangup m ccid userId nowMs).1.core := by
  unfold reduceOutboundPlacerHangup
  simp only
  split_ifs with hterminal howner hanswered hintent
  · exact CoreMove.same rfl
  · exact CoreMove.same rfl
  · refine CoreMove.bereft hanswered ?_ (Or.inr ⟨ccid, rfl⟩)
    simpa using hintent
  · exact CoreMove.tornDown
  · simp only [terminalize_core]
    exact CoreMove.ended (Or.inl rfl) rfl

theorem reduceAnswerOutcome_core (ok : Bool) (memberCcid userId answeredAtIso : String)
    (nowMs : ℤ) :
    CoreMove m event (reduceAnswerOutcome m ok memberCcid userId answeredAtIso nowMs).1.core := by
  unfold reduceAnswerOutcome
  split_ifs with hring
  · exact CoreMove.same rfl
  · simp only [terminalize_core, doomMember_core]
    exact CoreMove.ended (Or.inl rfl) (isTerminal_missedState _)
  · exact CoreMove.pickedUp userId answeredAtIso (by simpa using hring)

theorem reduceDecline_core (userId : String) :
    CoreMove m (.decline userId) (reduceDecline m userId).machine.core := by
  unfold reduceDecline
  split_ifs
  · exact CoreMove.same rfl
  · exact CoreMove.same rfl
  · have hdeclined : Declines m (.decline userId) (withoutMember m userId).1.declinedUserIds := by
      unfold withoutMember
      simp only
      split_ifs
      · exact Or.inl rfl
      · exact Or.inr ⟨userId, rfl, rfl⟩
    exact CoreMove.ladder hdeclined rfl

theorem reduceDialOutcome_core (key : String) (ccid : Option String)
    (failure : Option DialFailure) (nowMs : ℤ) :
    CoreMove m event (reduceDialOutcome m key ccid failure nowMs).1.core := by
  rcases reduceDialOutcome_cases m key ccid failure nowMs with
    ⟨_, h⟩ | ⟨_, _, ⟨_, _, h⟩ | ⟨_, _, h⟩ | ⟨_, _, _, h⟩ | ⟨_, _, _, _, h⟩⟩
  · rw [h]
    exact CoreMove.same rfl
  · rw [h]
    exact CoreMove.same rfl
  · rw [h]
    exact CoreMove.ladder (Or.inl rfl) rfl
  · rw [h]
    exact CoreMove.same rfl
  · rw [h]
    simp only [terminalize_core]
    exact CoreMove.ended (Or.inl rfl) rfl

end

/-- **Every step is one of these moves.** -/
theorem machineStep_core (m : SessionMachine) (i : Input) :
    CoreMove m i.event (machineStep m i).1.core := by
  unfold machineStep reduceMachine
  cases i.event with
  | initiated | outboundInitiated => exact CoreMove.same rfl
  | setOwner userId => exact CoreMove.owned userId
  | registerIntent => exact CoreMove.intended _
  | inboundHangup => exact reduceInboundHangup_core ..
  | memberLegHangup => exact reduceMemberHangup_core ..
  | outboundPlacerHangup => exact reduceOutboundPlacerHangup_core ..
  | answerOutcome => exact reduceAnswerOutcome_core ..
  | decline => exact reduceDecline_core _
  | dialOutcome => exact reduceDialOutcome_core ..
  | pushFanoutSettled => exact CoreMove.ladder (Or.inl rfl) rfl
  | memberLegAnswered ccid userId destination =>
    have hresolve := @resolveLeg_core m ccid userId destination (m.state == .ringing) wakeAmbiguous
    simp only [quiet, reduceMemberAnswered]
    split
    · exact CoreMove.same hresolve
    · split_ifs
      · exact CoreMove.same hresolve
      · exact CoreMove.same hresolve
      · exact CoreMove.same hresolve
      · rw [beginAnswer_core, hresolve]
        exact CoreMove.offered (Or.inl ⟨ccid, destination, rfl⟩)
  | memberProbeOutcome ccid userId alive =>
    simp only [quiet, reduceMemberProbeOutcome]
    split
    · exact CoreMove.same rfl
    · split
      · exact CoreMove.same rfl
      · cases alive with
        | false => exact CoreMove.ladder (Or.inl rfl) rfl
        | true => exact CoreMove.offered (Or.inr ⟨ccid, rfl⟩)
  | outboundAnswered =>
    simp only [quiet, reduceOutboundAnswered]
    split_ifs with hdialing
    · exact CoreMove.same rfl
    · refine CoreMove.connected _ ?_
      simp only [Bool.or_eq_true, bne_iff_ne, not_or, not_not] at hdialing
      exact hdialing.2
  | outboundPlacerAnswered ccid userId destination =>
    have hresolve := @resolveLeg_core m ccid userId destination true id
    simp only [quiet, reduceOutboundPlacerAnswered]
    split_ifs
    · exact CoreMove.same rfl
    · split
      · exact CoreMove.same hresolve
      · split_ifs
        · exact CoreMove.same hresolve
        · exact CoreMove.same hresolve
  | outboundHangup =>
    simp only [quiet, reduceOutboundHangup]
    split_ifs
    · exact CoreMove.same rfl
    · simp only [terminalize_core]
      exact CoreMove.ended (Or.inl rfl) rfl
    · simp only [terminalize_core]
      exact CoreMove.ended (Or.inl rfl) rfl
  | speakEnded =>
    simp only [quiet, reduceSpeakEnded]
    split_ifs with hnotice hgreeting
    · exact CoreMove.same rfl
    · exact CoreMove.same rfl
    · exact CoreMove.record (by simpa using hgreeting)
  | recordingSaved =>
    simp only [quiet, reduceRecordingSaved]
    split_ifs
    · exact CoreMove.same rfl
    · exact CoreMove.ended (n := m) (Or.inl rfl) rfl
    · exact CoreMove.ended (n := m) (Or.inl rfl) rfl
  | ringMe =>
    simp only [reduceRingMe]
    split
    · exact CoreMove.same rfl
    · exact CoreMove.same rfl
  | clearIntent | alarmIntentExpiry =>
    simp only [quiet, reduceIntentOver]
    split_ifs
    · exact CoreMove.intentOver
    · exact CoreMove.intentOver
  | alarmRing =>
    simp only [quiet, reduceAlarmRing]
    split_ifs with hring
    · exact CoreMove.same rfl
    · exact CoreMove.voicemail (Or.inl rfl) (by simpa using hring)
  | alarmRingStep =>
    rcases reduceAlarmRingStep_cases m i.nowMs i.pendingKeyFor with
      h | ⟨_, _, h⟩ | ⟨_, _, _, _, ⟨_, h⟩ | ⟨_, h⟩⟩
    · rw [h]
      exact CoreMove.same rfl
    · rw [h]
      exact CoreMove.ladder (Or.inl rfl) rfl
    · rw [h]
      exact CoreMove.same rfl
    · rw [h]
      exact CoreMove.same rfl
  | alarmJanitor =>
    simp only [quiet, reduceAlarmJanitor]
    split_ifs
    · exact CoreMove.same rfl
    · simp only [terminalize_core]
      exact CoreMove.ended (Or.inl rfl) (isTerminal_missedState m)
    · simp only [terminalize_core]
      exact CoreMove.ended (Or.inl rfl) rfl
    · simp only [terminalize_core]
      exact CoreMove.ended (Or.inl rfl) rfl
  | noticeAnswerOutcome =>
    simp only [quiet, reduceNoticeAnswerOutcome]
    split_ifs
    · exact CoreMove.same rfl
    · split
      · exact CoreMove.same rfl
      · exact CoreMove.same rfl
  | vmAnswerOutcome =>
    simp only [quiet, reduceVmAnswerOutcome]
    split_ifs
    · exact CoreMove.same rfl
    · exact CoreMove.same rfl
    · simp only [terminalize_core]
      exact CoreMove.ended (Or.inl rfl) (isTerminal_missedState m)
  | inboundLegGone =>
    simp only [quiet, reduceInboundLegGone]
    split_ifs
    · exact CoreMove.same rfl
    · simp only [terminalize_core]
      exact CoreMove.ended (Or.inl rfl) rfl

/-! ### Who is calling -/

/-- What a call is from its mint to its end: no event changes it. -/
def SessionMachine.identity (m : SessionMachine) :
    String × String × Direction × Option String :=
  (m.callSessionId, m.companyId, m.direction, m.customerCcid)

theorem identity_direction {m n : SessionMachine} (h : n.identity = m.identity) :
    n.direction = m.direction :=
  congrArg (fun x => x.2.2.1) h

theorem identity_customerCcid {m n : SessionMachine} (h : n.identity = m.identity) :
    n.customerCcid = m.customerCcid :=
  congrArg (fun x => x.2.2.2) h

/-- The core a terminal resolution starts from: the retained stamp touches the owner and the answer
time, and takes no answer time back. -/
theorem core_of_ended {m n : SessionMachine}
    (hn : n.core = m.core ∨ n.core = (stampFromIntent m).core) :
    ∃ owner atIso, n.core = { m.core with answeredByUserId := owner, answeredAtIso := atIso } ∧
      (m.answeredAtIso.isSome = true → atIso.isSome = true) := by
  rcases hn with hn | hn
  · exact ⟨m.answeredByUserId, m.answeredAtIso, hn, id⟩
  · rw [hn]
    unfold stampFromIntent
    split
    · exact ⟨_, _, rfl, fun _ => rfl⟩
    · exact ⟨_, _, rfl, id⟩

theorem CoreMove.identity {m c : SessionMachine} {event : SessionEvent} (h : CoreMove m event c) :
    c.identity = m.identity := by
  cases h with
  | @ended n target hn =>
    obtain ⟨owner, atIso, hcore, -⟩ := core_of_ended hn
    rw [hcore]
    rfl
  | _ => rfl

/-- **No event changes who is calling.** -/
theorem machineStep_identity (m : SessionMachine) (i : Input) :
    (machineStep m i).1.identity = m.identity :=
  (machineStep_core m i).identity

end Calls
