/-
**A call ends once, and is billed once.**

The billing view of a call forgets everything but its state, the outcomes of the terminal merges
emitted so far and how often the purge alarm was armed.  `Calls.Life` is the automaton of that
view: what one step may do to the three of them.  The reducer refines it event by event
(`Calls.machineStep_life`), and everything this module says about whole runs is read off the
automaton.

Main result:

* `Calls.terminal_absorption` — **terminal states absorb, with billing-exact outcomes.**
-/

import Texturion.CallActions

namespace Calls

open FirstMatch

/-! ### The billing view of effects -/

def Effect.mergeOutcome : Effect → Option Outcome
  | .terminalMerge merge => some merge.outcome
  | _ => none

def Effect.armsPurge : Effect → Bool
  | .armAlarm .purge _ => true
  | _ => false

def Effect.isTerminalMirror : Effect → Bool
  | .mirror _ true => true
  | _ => false

def mergeOutcomes (es : List Effect) : List Outcome := es.filterMap Effect.mergeOutcome

def purgeArms (es : List Effect) : ℕ := es.countP Effect.armsPurge

def terminalMirrors (es : List Effect) : ℕ := es.countP Effect.isTerminalMirror

@[simp] theorem mergeOutcomes_nil : mergeOutcomes [] = [] := rfl

@[simp] theorem mergeOutcomes_append (es es' : List Effect) :
    mergeOutcomes (es ++ es') = mergeOutcomes es ++ mergeOutcomes es' := List.filterMap_append

@[simp] theorem mergeOutcomes_cons (e : Effect) (es : List Effect) :
    mergeOutcomes (e :: es) = e.mergeOutcome.toList ++ mergeOutcomes es := by
  unfold mergeOutcomes
  cases h : e.mergeOutcome <;> simp [h]

@[simp] theorem purgeArms_nil : purgeArms [] = 0 := rfl

@[simp] theorem purgeArms_append (es es' : List Effect) :
    purgeArms (es ++ es') = purgeArms es + purgeArms es' := List.countP_append

@[simp] theorem purgeArms_cons (e : Effect) (es : List Effect) :
    purgeArms (e :: es) = (if e.armsPurge then 1 else 0) + purgeArms es := by
  rw [purgeArms, List.countP_cons, Nat.add_comm]
  rfl

@[simp] theorem terminalMirrors_append (es es' : List Effect) :
    terminalMirrors (es ++ es') = terminalMirrors es + terminalMirrors es' := List.countP_append

@[simp] theorem terminalMirrors_cons (e : Effect) (es : List Effect) :
    terminalMirrors (e :: es) = (if e.isTerminalMirror then 1 else 0) + terminalMirrors es := by
  rw [terminalMirrors, List.countP_cons, Nat.add_comm]
  rfl

@[simp] theorem terminalMirrors_nil : terminalMirrors [] = 0 := rfl

def Effect.isBilled (e : Effect) : Bool :=
  e.mergeOutcome.isSome || e.armsPurge || e.isTerminalMirror

/-- Effects that the billing view does not see. -/
def Unbilled (es : List Effect) : Prop := ∀ e ∈ es, e.isBilled = false

@[simp] theorem unbilled_nil : Unbilled [] := by simp [Unbilled]

variable {es : List Effect}

@[simp] theorem unbilled_cons {e : Effect} :
    Unbilled (e :: es) ↔ e.isBilled = false ∧ Unbilled es := by
  simp [Unbilled]

@[simp] theorem unbilled_append {es es' : List Effect} :
    Unbilled (es ++ es') ↔ Unbilled es ∧ Unbilled es' := by
  simp [Unbilled, or_imp, forall_and]

theorem Unbilled.merges (h : Unbilled es) : mergeOutcomes es = [] := by
  refine List.filterMap_eq_nil_iff.2 fun e he => ?_
  have := h e he
  simp_all [Effect.isBilled]

theorem Unbilled.purges (h : Unbilled es) : purgeArms es = 0 := by
  refine List.countP_eq_zero.2 fun e he => ?_
  have := h e he
  simp_all [Effect.isBilled]

theorem Unbilled.mirrors (h : Unbilled es) : terminalMirrors es = 0 := by
  refine List.countP_eq_zero.2 fun e he => ?_
  have := h e he
  simp_all [Effect.isBilled]

theorem unbilled_of_isHangup (h : ∀ e ∈ es, e.isHangup = true) : Unbilled es := by
  intro e he
  have := h e he
  cases e with
  | telnyxHangup => rfl
  | _ => simp [Effect.isHangup] at this

theorem unbilled_ifTruthy (s : Option String) {f : String → Effect}
    (hf : ∀ c, (f c).isBilled = false) : Unbilled (ifTruthy s f) := by
  intro e he
  obtain ⟨c, _, rfl⟩ := mem_ifTruthy.1 he
  exact hf c

section

variable (m : SessionMachine)

theorem unbilled_cancelAll (terminal : Bool) : Unbilled (cancelAllLiveLegs m terminal).2 :=
  unbilled_of_isHangup fun _ => isHangup_of_mem_cancelAll

theorem unbilled_terminalSweep (target : CallState) : Unbilled (terminalSweep m target).2 :=
  unbilled_of_isHangup fun _ => isHangup_of_mem_terminalSweep

theorem unbilled_armRingStep (nowMs : ℤ) : Unbilled (armRingStep m nowMs) := by
  intro e he
  have hring : e = .armAlarm .ringStep (nowMs + RING_STEP_SECS * 1000) := by
    unfold armRingStep at he
    cases h : m.ringDeadlineMs <;> grind
  rw [hring]
  rfl

theorem unbilled_vmEntry : Unbilled (vmEntry m).2 := by
  have hanswer : Unbilled (ifTruthy m.customerCcid .telnyxAnswerVm) :=
    unbilled_ifTruthy _ fun _ => rfl
  simpa [vmEntry, hanswer] using ⟨rfl, rfl, rfl, rfl⟩

end

/-! ### The billing automaton -/

/-- The moves between two states of a live call. -/
inductive LiveMove : SessionEvent → CallState → CallState → Prop
  | voicemail {event : SessionEvent} : LiveMove event .ringing .voicemailGreeting
  | record : LiveMove .speakEnded .voicemailGreeting .voicemailRecording
  | pickUp {memberCcid userId answeredAtIso : String} :
      LiveMove (.answerOutcome true memberCcid userId answeredAtIso) .ringing .answered
  | connect : LiveMove .outboundAnswered .dialing .answered

theorem LiveMove.live {event : SessionEvent} {s t : CallState} (h : LiveMove event s t) :
    isTerminal s = false ∧ isTerminal t = false := by
  cases h <;> exact ⟨rfl, rfl⟩

/-- One step of the billing view under an event: from the state before to the state after, with
the merge outcomes and the purge arms of the step. -/
inductive Life : SessionEvent → CallState → CallState → List Outcome → ℕ → Prop
  | stay {event : SessionEvent} {s : CallState} : Life event s s [] 0
  | live {event : SessionEvent} {s t : CallState} : LiveMove event s t → Life event s t [] 0
  | finish {event : SessionEvent} {s t : CallState} {x : Outcome} : isTerminal s = false →
      outcomeForState t = some x → t ≠ .endedVoicemail → Life event s t [x] 1
  | saved {payload : Payload} :
      Life (.recordingSaved payload) .voicemailRecording .endedVoicemail [] 1
  | upgradeAnswered {briAnsweredAtIso : Option String} {payload : Option Payload} :
      Life (.inboundHangup .bri briAnsweredAtIso payload) .endedMissed .endedAnswered [.answered] 0
  | upgradeVoicemail {payload : Payload} :
      Life (.recordingSaved payload) .endedMissed .endedVoicemail [] 0

/-- A step of the billing view, read off a handler's result. -/
def LifeStep (event : SessionEvent) (m : SessionMachine) (r : SessionMachine × List Effect) :
    Prop :=
  Life event m.state r.1.state (mergeOutcomes r.2) (purgeArms r.2)

variable {event : SessionEvent}

theorem lifeStep_same {m m' : SessionMachine} (hstate : m'.state = m.state)
    (h : Unbilled es) : LifeStep event m (m', es) := by
  unfold LifeStep
  rw [hstate, h.merges, h.purges]
  exact Life.stay

theorem lifeStep_live {m m' : SessionMachine} (hmove : LiveMove event m.state m'.state)
    (h : Unbilled es) : LifeStep event m (m', es) := by
  unfold LifeStep
  rw [h.merges, h.purges]
  exact Life.live hmove

/-- Effects the billing view does not see may stand before a step's own. -/
theorem LifeStep.prepend {m : SessionMachine} {r : SessionMachine × List Effect}
    {pre : List Effect} (h : LifeStep event m r) (hpre : Unbilled pre) :
    LifeStep event m (r.1, pre ++ r.2) := by
  unfold LifeStep at h ⊢
  simpa [hpre.merges, hpre.purges] using h

theorem LifeStep.of_state {m n : SessionMachine} {r : SessionMachine × List Effect}
    (h : LifeStep event n r) (hstate : n.state = m.state) : LifeStep event m r := by
  unfold LifeStep at h ⊢
  rwa [← hstate]

theorem runAvenueLadder_lifeStep (m : SessionMachine) : LifeStep event m (runAvenueLadder m) := by
  rcases runAvenueLadder_eq_or m with h | ⟨hring, _, _, _, h⟩
  · rw [h]
    exact lifeStep_same rfl unbilled_nil
  · rw [h]
    exact lifeStep_live (by rw [hring]; exact LiveMove.voicemail) (unbilled_vmEntry m)

theorem ownerDeathTeardown_unbilled (m : SessionMachine) : Unbilled (ownerDeathTeardown m).2 :=
  unbilled_ifTruthy _ fun _ => rfl

/-! ### Terminal resolutions -/

/-- The result of a step that ends a live call: a terminal resolution of a machine in the same
state, into the state that its merge's outcome is billed as, among effects the billing view does
not see. -/
inductive Resolves (m : SessionMachine) (target : CallState) :
    SessionMachine × List Effect → Prop
  | intro {before : SessionMachine} {nowMs : ℤ} {merge : TerminalMerge} {reason : Option Outcome}
      {extra : MirrorSet} {pre post : List Effect} :
      before.state = m.state → outcomeForState target = some merge.outcome →
      target ≠ .endedVoicemail → Unbilled pre → Unbilled post →
      Resolves m target ((terminalize before nowMs target (some merge) reason extra).1,
        pre ++ (terminalize before nowMs target (some merge) reason extra).2 ++ post)

theorem resolves_terminalize {m : SessionMachine} (nowMs : ℤ) {target : CallState}
    {merge : TerminalMerge} (reason : Option Outcome) (extra : MirrorSet)
    (houtcome : outcomeForState target = some merge.outcome) (hvm : target ≠ .endedVoicemail) :
    Resolves m target (terminalize m nowMs target (some merge) reason extra) := by
  have h : Resolves m target ((terminalize m nowMs target (some merge) reason extra).1,
      [] ++ (terminalize m nowMs target (some merge) reason extra).2 ++ []) :=
    Resolves.intro rfl houtcome hvm unbilled_nil unbilled_nil
  simpa using h

theorem Resolves.around {m n : SessionMachine} {target : CallState}
    {r : SessionMachine × List Effect} (h : Resolves n target r) {pre post : List Effect}
    (hstate : n.state = m.state) (hpre : Unbilled pre) (hpost : Unbilled post) :
    Resolves m target (r.1, pre ++ r.2 ++ post) := by
  cases h with
  | @intro before nowMs merge reason extra pre' post' hn houtcome hvm hpre' hpost' =>
      have h : Resolves m target
          ((terminalize before nowMs target (some merge) reason extra).1,
            (pre ++ pre') ++ (terminalize before nowMs target (some merge) reason extra).2 ++
              (post' ++ post)) :=
        Resolves.intro (hn.trans hstate) houtcome hvm (unbilled_append.2 ⟨hpre, hpre'⟩)
          (unbilled_append.2 ⟨hpost', hpost⟩)
      simpa using h

theorem Resolves.prepend {m n : SessionMachine} {target : CallState}
    {r : SessionMachine × List Effect} (h : Resolves n target r) {pre : List Effect}
    (hstate : n.state = m.state) (hpre : Unbilled pre) : Resolves m target (r.1, pre ++ r.2) := by
  have h := h.around hstate hpre unbilled_nil
  rwa [List.append_nil] at h

theorem Resolves.append {m n : SessionMachine} {target : CallState}
    {r : SessionMachine × List Effect} (h : Resolves n target r) {post : List Effect}
    (hstate : n.state = m.state) (hpost : Unbilled post) : Resolves m target (r.1, r.2 ++ post) :=
  h.around hstate unbilled_nil hpost

/-- The billing view of `terminalize` on a live call. -/
theorem terminalize_bill {m : SessionMachine} (nowMs : ℤ) (target : CallState)
    (merge : TerminalMerge) (reason : Option Outcome) (extra : MirrorSet)
    (hm : isTerminal m.state = false) :
    mergeOutcomes (terminalize m nowMs target (some merge) reason extra).2 = [merge.outcome] ∧
      purgeArms (terminalize m nowMs target (some merge) reason extra).2 = 1 ∧
      terminalMirrors (terminalize m nowMs target (some merge) reason extra).2 = 1 := by
  have hsweep := unbilled_terminalSweep m target
  have hpush : Unbilled (if m.state = .ringing then
      (reason.map Effect.pushCallEnd).toList else []) := by
    split_ifs
    · cases reason with
      | none => exact unbilled_nil
      | some x => exact unbilled_cons.2 ⟨rfl, unbilled_nil⟩
    · exact unbilled_nil
  unfold terminalize
  refine ⟨?_, ?_, ?_⟩
  · simp [hsweep.merges, hpush.merges, hm, Effect.mergeOutcome]
  · simp [hsweep.purges, hpush.purges, hm, Effect.armsPurge]
  · simp [hsweep.mirrors, hpush.mirrors, hm, Effect.isTerminalMirror]

namespace Resolves

variable {m : SessionMachine} {target : CallState} {r : SessionMachine × List Effect}

section

variable (h : Resolves m target r)
include h

theorem state : r.1.state = target := by
  cases h
  simp

theorem terminal : isTerminal r.1.state = true := by
  cases h with
  | intro hstate houtcome =>
      rw [terminalize_state]
      cases target <;> first | rfl | cases houtcome

/-- A resolution of a live call writes one merge, arms one purge and mirrors once. -/
theorem bill (hm : isTerminal m.state = false) :
    ∃ x, outcomeForState target = some x ∧ target ≠ .endedVoicemail ∧ mergeOutcomes r.2 = [x] ∧
      purgeArms r.2 = 1 ∧ terminalMirrors r.2 = 1 := by
  cases h with
  | @intro before nowMs merge reason extra pre post hstate houtcome hvm hpre hpost =>
      obtain ⟨hmerge, hpurge, hmirror⟩ :=
        terminalize_bill nowMs target merge reason extra (hstate ▸ hm)
      refine ⟨merge.outcome, houtcome, hvm, ?_, ?_, ?_⟩
      · simp [hmerge, hpre.merges, hpost.merges]
      · simp [hpurge, hpre.purges, hpost.purges]
      · simp [hmirror, hpre.mirrors, hpost.mirrors]

theorem not_isUp : ∀ leg ∈ r.1.legs, leg.status.isUp = false := by
  cases h
  rw [terminalize_fst]
  intro leg hleg
  obtain ⟨leg', _, rfl⟩ := List.mem_map.1 hleg
  exact terminalLeg_not_isUp _ _

/-- **A terminal resolution** is the step that finishes a live call. -/
theorem lifeStep (hm : isTerminal m.state = false) : LifeStep event m r := by
  obtain ⟨x, houtcome, hvm, hmerge, hpurge, _⟩ := h.bill hm
  unfold LifeStep
  rw [hmerge, hpurge, h.state]
  exact Life.finish hm houtcome hvm

end

end Resolves

theorem missedState_outcome (m : SessionMachine) :
    outcomeForState (missedState m) = some .missed ∧ missedState m ≠ .endedVoicemail := by
  unfold missedState
  split_ifs <;> exact ⟨rfl, by decide⟩

theorem resolves_missed {m : SessionMachine} (nowMs : ℤ) {merge : TerminalMerge}
    (reason : Option Outcome) (hmerge : merge.outcome = .missed) :
    Resolves m (missedState m) (terminalize m nowMs (missedState m) (some merge) reason {}) :=
  resolves_terminalize nowMs reason {} (by rw [hmerge]; exact (missedState_outcome m).1)
    (missedState_outcome m).2

/-- The end of an outbound call whose placer can never connect: a resolution, then the customer
leg is dropped. -/
theorem resolves_drop {m : SessionMachine} (nowMs : ℤ) (s : Option String) :
    Resolves m .endedMissed
      ((terminalize m nowMs .endedMissed (some (syntheticMerge .missed none)) none {}).1,
        (terminalize m nowMs .endedMissed (some (syntheticMerge .missed none)) none {}).2 ++
          ifTruthy s fun c => .telnyxHangup c true) :=
  (resolves_terminalize nowMs none {} rfl (by decide)).append rfl
    (unbilled_ifTruthy s fun _ => rfl)

/-! ### The handlers refine the automaton -/

theorem reduceMemberAnswered_lifeStep (m : SessionMachine) (ccid userId : String)
    (destination : Option String) (clockMs : ℤ) :
    LifeStep event m (reduceMemberAnswered m ccid userId destination clockMs) := by
  unfold reduceMemberAnswered
  simp only
  split
  · exact lifeStep_same (by simp) (unbilled_cons.2 ⟨rfl, unbilled_cons.2 ⟨rfl, unbilled_nil⟩⟩)
  · split_ifs
    · exact lifeStep_same (by simp) (unbilled_cons.2 ⟨rfl, unbilled_nil⟩)
    · exact lifeStep_same (by simp) unbilled_nil
    · exact lifeStep_same (by simp) (unbilled_cons.2 ⟨rfl, unbilled_nil⟩)
    · exact lifeStep_same (resolveLeg_state ..) (unbilled_ifTruthy _ fun _ => rfl)

theorem reduceMemberHangup_lifeStep (m : SessionMachine) (ccid userId : String)
    (destination : Option String) :
    LifeStep event m (reduceMemberHangup m ccid userId destination) := by
  unfold reduceMemberHangup
  simp only
  split
  · exact lifeStep_same (by simp) unbilled_nil
  · split_ifs
    · exact lifeStep_same (by simp) unbilled_nil
    · exact lifeStep_same (by simp) unbilled_nil
    · exact lifeStep_same (resolveLeg_state ..) (ownerDeathTeardown_unbilled _)
    · exact lifeStep_same (by simp) unbilled_nil
    · exact (runAvenueLadder_lifeStep _).of_state (by simp)

theorem reduceInboundHangup_resolves {m : SessionMachine} (tag : HangupTag)
    (briAnsweredAtIso : Option String) (payload : Option Payload) (nowMs : ℤ)
    (hm : isTerminal m.state = false) :
    ∃ target, Resolves m target (reduceInboundHangup m tag briAnsweredAtIso payload nowMs) := by
  unfold reduceInboundHangup
  rw [if_neg (by simp [hm])]
  cases tag with
  | bri =>
      have hstamp : (stampFromIntent m).state = m.state := by
        unfold stampFromIntent
        split <;> rfl
      refine ⟨_, (resolves_terminalize nowMs _ _ rfl (by decide)).prepend hstamp ?_⟩
      split_ifs
      · exact unbilled_cons.2 ⟨rfl, unbilled_nil⟩
      · exact unbilled_nil
  | vmi => exact ⟨_, resolves_terminalize nowMs _ _ rfl (by decide)⟩
  | untagged =>
      simp only
      split_ifs
      · have hwarn : Unbilled [untaggedWarning] := unbilled_cons.2 ⟨rfl, unbilled_nil⟩
        exact ⟨_, (resolves_terminalize nowMs _ _ rfl (by decide)).prepend rfl hwarn⟩
      · exact ⟨_, resolves_terminalize nowMs _ _ rfl (by decide)⟩
      · exact ⟨_, resolves_missed nowMs _ rfl⟩

/-- The one thing a late hangup can do is the upgrade edge: a warning at most, one mirror and one
merge. -/
theorem reduceLateInboundHangup_lifeStep (m : SessionMachine) (tag : HangupTag)
    (briAnsweredAtIso : Option String) (payload : Option Payload) :
    LifeStep (.inboundHangup tag briAnsweredAtIso payload) m
      (reduceLateInboundHangup m tag briAnsweredAtIso payload) := by
  unfold reduceLateInboundHangup
  split_ifs with hup
  · obtain ⟨rfl, hmissed⟩ := hup
    unfold LifeStep
    cases m.answerIntent <;>
      simpa [hmissed, Effect.mergeOutcome, Effect.armsPurge, eventMerge, upgradeWarning]
        using Life.upgradeAnswered
  · exact lifeStep_same rfl unbilled_nil

theorem reduceInboundHangup_lifeStep (m : SessionMachine) (tag : HangupTag)
    (briAnsweredAtIso : Option String) (payload : Option Payload) (nowMs : ℤ) :
    LifeStep (.inboundHangup tag briAnsweredAtIso payload) m
      (reduceInboundHangup m tag briAnsweredAtIso payload nowMs) := by
  by_cases hm : isTerminal m.state = true
  · unfold reduceInboundHangup
    rw [if_pos hm]
    exact reduceLateInboundHangup_lifeStep m tag briAnsweredAtIso payload
  · have hm' : isTerminal m.state = false := by simpa using hm
    obtain ⟨target, h⟩ := reduceInboundHangup_resolves tag briAnsweredAtIso payload nowMs hm'
    exact h.lifeStep hm'

theorem reduceOutboundHangup_resolves {m : SessionMachine} (payload : Option Payload) (nowMs : ℤ)
    (hm : isTerminal m.state = false) :
    ∃ target, Resolves m target (reduceOutboundHangup m payload nowMs) := by
  unfold reduceOutboundHangup
  rw [if_neg (by simp [hm])]
  refine ⟨_, resolves_terminalize nowMs _ _ ?_ ?_⟩
  · cases m.answeredAtIso <;> rfl
  · cases m.answeredAtIso <;> simp

section

variable (m)

theorem reduceOutboundHangup_lifeStep (payload : Option Payload)
    (nowMs : ℤ) : LifeStep event m (reduceOutboundHangup m payload nowMs) := by
  by_cases hm : isTerminal m.state = true
  · unfold reduceOutboundHangup
    rw [if_pos hm]
    exact lifeStep_same rfl unbilled_nil
  · have hm' : isTerminal m.state = false := by simpa using hm
    obtain ⟨target, h⟩ := reduceOutboundHangup_resolves payload nowMs hm'
    exact h.lifeStep hm'

theorem reduceOutboundPlacerHangup_lifeStep (ccid userId : String)
    (nowMs : ℤ) : LifeStep event m (reduceOutboundPlacerHangup m ccid userId nowMs) := by
  unfold reduceOutboundPlacerHangup
  simp only
  split_ifs with hm
  · exact lifeStep_same rfl unbilled_nil
  · exact lifeStep_same (by simp) unbilled_nil
  · exact lifeStep_same (by simp) unbilled_nil
  · exact lifeStep_same rfl (ownerDeathTeardown_unbilled _)
  · exact ((resolves_drop nowMs _).lifeStep (by simpa using hm)).of_state rfl

theorem reduceOutboundPlacerAnswered_lifeStep (ccid userId : String) (destination : Option String) :
    LifeStep event m (reduceOutboundPlacerAnswered m ccid userId destination) := by
  unfold reduceOutboundPlacerAnswered
  simp only
  split_ifs
  · exact lifeStep_same rfl (unbilled_cons.2 ⟨rfl, unbilled_nil⟩)
  · split
    · exact lifeStep_same (by simp) (unbilled_cons.2 ⟨rfl, unbilled_nil⟩)
    · split_ifs
      · exact lifeStep_same (by simp) unbilled_nil
      · exact lifeStep_same (by simp) (unbilled_ifTruthy _ fun _ => rfl)

theorem reduceOutboundAnswered_lifeStep (nowMs : ℤ) :
    LifeStep .outboundAnswered m (reduceOutboundAnswered m nowMs) := by
  unfold reduceOutboundAnswered
  split_ifs with h
  · exact lifeStep_same rfl unbilled_nil
  · have hdial : m.state = .dialing := by simp_all
    refine lifeStep_live (by rw [hdial]; exact LiveMove.connect) ?_
    refine unbilled_append.2 ⟨unbilled_cons.2 ⟨rfl, unbilled_nil⟩, ?_⟩
    split
    · exact unbilled_cons.2 ⟨rfl, unbilled_nil⟩
    · exact unbilled_nil

theorem reduceRecordingSaved_lifeStep (payload : Payload) (nowMs : ℤ) :
    LifeStep (.recordingSaved payload) m (reduceRecordingSaved m payload nowMs) := by
  unfold reduceRecordingSaved
  split_ifs with h hrec
  · exact lifeStep_same rfl unbilled_nil
  · unfold LifeStep
    simpa [hrec, Effect.mergeOutcome, Effect.armsPurge] using Life.saved
  · have hmissed : m.state = .endedMissed := by simp_all
    unfold LifeStep
    simpa [hmissed, Effect.mergeOutcome, Effect.armsPurge] using Life.upgradeVoicemail

theorem reduceAnswerOutcome_lifeStep (ok : Bool) (memberCcid userId answeredAtIso : String)
    (nowMs : ℤ) :
    LifeStep (.answerOutcome ok memberCcid userId answeredAtIso) m
      (reduceAnswerOutcome m ok memberCcid userId answeredAtIso nowMs) := by
  unfold reduceAnswerOutcome
  split_ifs with h hok
  · exact lifeStep_same rfl unbilled_nil
  · have hring : m.state = .ringing := by simpa using h
    have hdoom : (doomMember m memberCcid).1.state = m.state ∧
        Unbilled (doomMember m memberCcid).2 := by
      rcases doomMember_eq m memberCcid with h | h
      · rw [h]
        exact ⟨rfl, unbilled_nil⟩
      · rw [h]
        exact ⟨rfl, unbilled_cons.2 ⟨rfl, unbilled_nil⟩⟩
    exact ((resolves_missed nowMs _ rfl).prepend hdoom.1 hdoom.2).lifeStep (by rw [hring]; rfl)
  · have hring : m.state = .ringing := by simpa using h
    obtain rfl : ok = true := by simpa using hok
    refine lifeStep_live (by rw [hring]; exact LiveMove.pickUp) ?_
    have hbridge : Unbilled (ifTruthy m.customerCcid fun c => .telnyxBridge memberCcid c) :=
      unbilled_ifTruthy _ fun _ => rfl
    have hcancel : Unbilled (sweepLegs (cancelSibling memberCcid)
        (SessionMachine.setLegStatus { m with
          state := .answered, answeredByUserId := some userId
          answeredAtIso := some answeredAtIso, ringDeadlineMs := none }
          memberCcid .answered)).2 := by
      refine unbilled_of_isHangup fun e he => ?_
      obtain ⟨leg, _, he⟩ := mem_sweepLegs.1 he
      unfold cancelSibling at he
      split_ifs at he
      · simp at he
      · obtain ⟨_, c, _, rfl⟩ := mem_cancelLeg.1 he
        rfl
    simpa [hbridge, hcancel] using ⟨rfl, rfl, rfl, rfl, rfl⟩

theorem reduceDialOutcome_lifeStep (key : String) (ccid : Option String)
    (failure : Option DialFailure) (nowMs : ℤ) :
    LifeStep event m (reduceDialOutcome m key ccid failure nowMs) := by
  unfold reduceDialOutcome
  split
  · exact lifeStep_same rfl unbilled_nil
  · split
    · exact lifeStep_same rfl unbilled_nil
    · simp only
      split_ifs with hout hdead
      · refine ((resolves_drop nowMs _).lifeStep ?_).of_state rfl
        simpa using hdead.2
      · exact lifeStep_same rfl unbilled_nil
      · exact (runAvenueLadder_lifeStep _).of_state rfl

theorem reduceDecline_lifeStep (userId : String) :
    LifeStep event m ((reduceDecline m userId).machine, (reduceDecline m userId).effects) := by
  unfold reduceDecline
  split_ifs
  · exact lifeStep_same rfl unbilled_nil
  · exact lifeStep_same rfl unbilled_nil
  · have hladder : LifeStep event m (runAvenueLadder (withoutMember m userId).1) :=
      (runAvenueLadder_lifeStep _).of_state rfl
    have hdrop : Unbilled (withoutMember m userId).2 := by
      refine unbilled_of_isHangup fun e he => ?_
      obtain ⟨leg, _, he⟩ := mem_sweepLegs.1 he
      unfold declineLeg at he
      split_ifs at he
      · obtain ⟨c, _, rfl⟩ := mem_ifTruthy.1 he
        rfl
      · simp at he
    exact hladder.prepend hdrop

theorem reduceAlarmRingStep_lifeStep (nowMs : ℤ) (pendingKeyFor : ℕ → String) :
    LifeStep event m (reduceAlarmRingStep m nowMs pendingKeyFor) := by
  rcases reduceAlarmRingStep_cases m nowMs pendingKeyFor with
    h | ⟨_, _, h⟩ | ⟨target, rest, _, _, ⟨_, h⟩ | ⟨_, h⟩⟩
  · rw [h]
    exact lifeStep_same rfl unbilled_nil
  · rw [h]
    exact (runAvenueLadder_lifeStep _).of_state rfl
  · rw [h]
    exact lifeStep_same rfl unbilled_nil
  · rw [h]
    exact lifeStep_same rfl (unbilled_cons.2 ⟨rfl, unbilled_armRingStep _ _⟩)

theorem reduceAlarmJanitor_lifeStep (nowMs : ℤ) :
    LifeStep event m (reduceAlarmJanitor m nowMs) := by
  unfold reduceAlarmJanitor
  split_ifs with hm
  · exact lifeStep_same rfl unbilled_nil
  · exact (resolves_missed nowMs _ rfl).lifeStep (by simpa using hm)
  · exact (resolves_terminalize nowMs _ _ rfl (by decide)).lifeStep (by simpa using hm)
  · exact (resolves_terminalize nowMs _ _ rfl (by decide)).lifeStep (by simpa using hm)

theorem reduceVmAnswerOutcome_lifeStep (ok : Bool) (nowMs : ℤ) :
    LifeStep event m (reduceVmAnswerOutcome m ok nowMs) := by
  unfold reduceVmAnswerOutcome
  split_ifs with h
  · exact lifeStep_same rfl unbilled_nil
  · exact lifeStep_same rfl
      (unbilled_append.2 ⟨unbilled_ifTruthy _ fun _ => rfl, unbilled_cancelAll m true⟩)
  · have hvm : m.state = .voicemailGreeting := by simpa using h
    exact (resolves_missed nowMs _ rfl).lifeStep (by rw [hvm]; rfl)

theorem reduceSpeakEnded_lifeStep : LifeStep .speakEnded m (reduceSpeakEnded m) := by
  unfold reduceSpeakEnded
  split_ifs with hn hs
  · exact lifeStep_same rfl (unbilled_ifTruthy _ fun _ => rfl)
  · exact lifeStep_same rfl unbilled_nil
  · have hvm : m.state = .voicemailGreeting := by simpa using hs
    exact lifeStep_live (by rw [hvm]; exact LiveMove.record)
      (unbilled_cons.2 ⟨rfl, unbilled_ifTruthy m.customerCcid fun _ => rfl⟩)

theorem reduceRingMe_lifeStep (userId sipUsername : String) (noLocalLeg : Bool) (nowMs : ℤ)
    (pendingKeyFor : ℕ → String) :
    LifeStep event m ((reduceRingMe m userId sipUsername noLocalLeg nowMs pendingKeyFor).machine,
      (reduceRingMe m userId sipUsername noLocalLeg nowMs pendingKeyFor).effects) := by
  unfold reduceRingMe
  split
  · refine lifeStep_same rfl ?_
    split_ifs
    · exact unbilled_cons.2 ⟨rfl, unbilled_nil⟩
    · exact unbilled_nil
  · exact lifeStep_same rfl (unbilled_cons.2 ⟨rfl, unbilled_nil⟩)

theorem reduceIntentOver_lifeStep : LifeStep event m (reduceIntentOver m) := by
  unfold reduceIntentOver
  simp only
  split_ifs
  · exact lifeStep_same rfl (unbilled_cons.2 ⟨rfl, ownerDeathTeardown_unbilled _⟩)
  · exact lifeStep_same rfl (unbilled_cons.2 ⟨rfl, unbilled_nil⟩)

theorem reduceAlarmRing_lifeStep : LifeStep event m (reduceAlarmRing m) := by
  unfold reduceAlarmRing
  split_ifs with h
  · exact lifeStep_same rfl unbilled_nil
  · have hring : m.state = .ringing := by simpa using h
    exact lifeStep_live (by rw [hring]; exact LiveMove.voicemail) (unbilled_vmEntry m)

theorem reduceNoticeAnswerOutcome_lifeStep (ok : Bool) :
    LifeStep event m (reduceNoticeAnswerOutcome m ok) := by
  unfold reduceNoticeAnswerOutcome
  split_ifs
  · exact lifeStep_same rfl unbilled_nil
  · split
    · exact lifeStep_same rfl (unbilled_cons.2 ⟨rfl, unbilled_nil⟩)
    · exact lifeStep_same rfl (unbilled_cons.2 ⟨rfl, unbilled_nil⟩)

theorem reducePushFanoutSettled_lifeStep (unreachableUserIds : List String) :
    LifeStep event m (reducePushFanoutSettled m unreachableUserIds) := by
  have hclear : Unbilled [.clearAlarm .fanoutSettle] := unbilled_cons.2 ⟨rfl, unbilled_nil⟩
  exact ((runAvenueLadder_lifeStep _).prepend hclear).of_state rfl

theorem reduceInboundLegGone_lifeStep (nowMs : ℤ) :
    LifeStep event m (reduceInboundLegGone m nowMs) := by
  unfold reduceInboundLegGone
  split_ifs with h
  · exact lifeStep_same rfl unbilled_nil
  · have hans : m.state = .answered := by simpa using h
    exact (resolves_terminalize nowMs _ _ rfl (by decide)).lifeStep (by rw [hans]; rfl)

theorem reduceMemberProbeOutcome_lifeStep (ccid userId : String) (alive : Bool) (nowMs : ℤ) :
    LifeStep event m (reduceMemberProbeOutcome m ccid userId alive nowMs) := by
  unfold reduceMemberProbeOutcome
  split
  · exact lifeStep_same rfl unbilled_nil
  · split
    · exact lifeStep_same rfl unbilled_nil
    · split
      · exact (runAvenueLadder_lifeStep _).of_state (by simp)
      · exact lifeStep_same rfl (unbilled_ifTruthy _ fun _ => rfl)

/-- **Every event is a step of the billing automaton.** -/
theorem machineStep_life (i : Input) : LifeStep i.event m (machineStep m i) := by
  unfold machineStep reduceMachine
  cases i.event with
  | initiated | outboundInitiated => exact lifeStep_same rfl unbilled_nil
  | memberLegAnswered => exact reduceMemberAnswered_lifeStep ..
  | memberLegHangup => exact reduceMemberHangup_lifeStep ..
  | inboundHangup => exact reduceInboundHangup_lifeStep ..
  | outboundAnswered => exact reduceOutboundAnswered_lifeStep ..
  | outboundHangup => exact reduceOutboundHangup_lifeStep ..
  | outboundPlacerAnswered => exact reduceOutboundPlacerAnswered_lifeStep ..
  | outboundPlacerHangup => exact reduceOutboundPlacerHangup_lifeStep ..
  | speakEnded => exact reduceSpeakEnded_lifeStep ..
  | recordingSaved => exact reduceRecordingSaved_lifeStep ..
  | ringMe => exact reduceRingMe_lifeStep ..
  | setOwner | registerIntent => exact lifeStep_same rfl (unbilled_cons.2 ⟨rfl, unbilled_nil⟩)
  | clearIntent | alarmIntentExpiry => exact reduceIntentOver_lifeStep ..
  | decline => exact reduceDecline_lifeStep ..
  | alarmRing => exact reduceAlarmRing_lifeStep ..
  | alarmRingStep => exact reduceAlarmRingStep_lifeStep ..
  | alarmJanitor => exact reduceAlarmJanitor_lifeStep ..
  | answerOutcome => exact reduceAnswerOutcome_lifeStep ..
  | noticeAnswerOutcome => exact reduceNoticeAnswerOutcome_lifeStep ..
  | vmAnswerOutcome => exact reduceVmAnswerOutcome_lifeStep ..
  | pushFanoutSettled => exact reducePushFanoutSettled_lifeStep ..
  | dialOutcome => exact reduceDialOutcome_lifeStep ..
  | inboundLegGone => exact reduceInboundLegGone_lifeStep ..
  | memberProbeOutcome => exact reduceMemberProbeOutcome_lifeStep ..

end

/-! ### The mints -/

theorem initiatedBranch_state (context : InitiatedContext) (nowMs : ℤ)
    (pendingKeyFor : ℕ → String) :
    (initiatedBranch context nowMs pendingKeyFor).1.state = .ringing ∨
      (initiatedBranch context nowMs pendingKeyFor).1.state = .voicemailGreeting := by
  unfold initiatedBranch
  split_ifs
  · exact Or.inr rfl
  · exact Or.inl rfl
  · exact Or.inl rfl
  · exact Or.inr rfl
  · exact Or.inl rfl

theorem mint_state (mint : Mint) (nowMs : ℤ) (pendingKeyFor : ℕ → String) :
    (mint.start nowMs pendingKeyFor).1.state = .dialing ∨
      (mint.start nowMs pendingKeyFor).1.state = .ringing ∨
      (mint.start nowMs pendingKeyFor).1.state = .voicemailGreeting := by
  cases mint with
  | inbound context => exact Or.inr (initiatedBranch_state context nowMs pendingKeyFor)
  | outbound context =>
      left
      simp only [Mint.start, reduceOutboundInitiated]
      split <;> rfl

theorem initiatedBranch_unbilled (context : InitiatedContext) (nowMs : ℤ)
    (pendingKeyFor : ℕ → String) : Unbilled (initiatedBranch context nowMs pendingKeyFor).2 := by
  unfold initiatedBranch
  split_ifs
  · exact unbilled_vmEntry _
  · refine unbilled_append.2 ⟨unbilled_cons.2 ⟨rfl, unbilled_nil⟩, ?_⟩
    split_ifs
    · exact unbilled_cons.2 ⟨rfl, unbilled_nil⟩
    · exact unbilled_nil
  · exact unbilled_cons.2 ⟨rfl, unbilled_cons.2 ⟨rfl, unbilled_nil⟩⟩
  · exact unbilled_vmEntry _
  · have hstep : ∀ m, Unbilled (armRingStep m nowMs) := fun m => unbilled_armRingStep m nowMs
    unfold ringStart
    simp only [unbilled_append]
    refine ⟨⟨⟨⟨?_, unbilled_cons.2 ⟨rfl, unbilled_nil⟩⟩, ?_⟩, ?_⟩, hstep _⟩
    · split_ifs
      · exact unbilled_cons.2 ⟨rfl, unbilled_nil⟩
      · exact unbilled_nil
    · split_ifs
      · exact unbilled_cons.2 ⟨rfl, unbilled_nil⟩
      · exact unbilled_nil
    · exact unbilled_cons.2 ⟨rfl, unbilled_cons.2 ⟨rfl, unbilled_cons.2 ⟨rfl, unbilled_nil⟩⟩⟩

theorem mint_unbilled (mint : Mint) (nowMs : ℤ) (pendingKeyFor : ℕ → String) :
    Unbilled (mint.start nowMs pendingKeyFor).2 := by
  cases mint with
  | inbound context =>
      exact unbilled_cons.2 ⟨rfl, initiatedBranch_unbilled context nowMs pendingKeyFor⟩
  | outbound context =>
      simp only [Mint.start, reduceOutboundInitiated]
      split <;> simpa using ⟨rfl, rfl, rfl⟩

/-! ### The ledger of a run -/

/-- The merge outcomes and purge arms a run may have emitted by the time it is in a state. -/
def Ledger (s : CallState) (outcomes : List Outcome) (purges : ℕ) : Prop :=
  match s with
  | .endedMissed | .endedRejected => outcomes = [.missed] ∧ purges = 1
  | .endedAnswered => (outcomes = [.answered] ∨ outcomes = [.missed, .answered]) ∧ purges = 1
  | .endedVoicemail => (outcomes = [] ∨ outcomes = [.missed]) ∧ purges = 1
  | _ => outcomes = [] ∧ purges = 0

theorem ledger_of_live {s : CallState} (hs : isTerminal s = false) {outcomes : List Outcome}
    {purges : ℕ} : Ledger s outcomes purges ↔ outcomes = [] ∧ purges = 0 := by
  cases s <;> first | exact Iff.rfl | simp [isTerminal] at hs

/-- **The automaton keeps the ledger.** -/
theorem Ledger.step {s t : CallState} {outcomes new : List Outcome} {purges newPurges : ℕ}
    (h : Ledger s outcomes purges) (hlife : Life event s t new newPurges) :
    Ledger t (outcomes ++ new) (purges + newPurges) := by
  cases hlife with
  | stay => simpa using h
  | live hmove =>
      obtain ⟨hs, ht⟩ := hmove.live
      obtain ⟨rfl, rfl⟩ := (ledger_of_live hs).1 h
      exact (ledger_of_live ht).2 ⟨rfl, rfl⟩
  | finish hs ht hv =>
      obtain ⟨rfl, rfl⟩ := (ledger_of_live hs).1 h
      cases t <;> simp_all [outcomeForState, Ledger]
  | saved =>
      obtain ⟨rfl, rfl⟩ := h
      exact ⟨Or.inl rfl, rfl⟩
  | upgradeAnswered | upgradeVoicemail =>
      obtain ⟨rfl, rfl⟩ := h
      exact ⟨Or.inr rfl, rfl⟩

theorem CallRun.ledger (r : CallRun) :
    Ledger r.machine.state (mergeOutcomes r.effects) (purgeArms r.effects) := by
  have hstart : Ledger r.start.1.state (mergeOutcomes r.start.2) (purgeArms r.start.2) := by
    have hbill := mint_unbilled r.mint r.nowMs r.pendingKeyFor
    have hlive : isTerminal r.start.1.state = false := by
      rcases mint_state r.mint r.nowMs r.pendingKeyFor with h | h | h
      · rw [CallRun.start, h]; rfl
      · rw [CallRun.start, h]; rfl
      · rw [CallRun.start, h]; rfl
    exact (ledger_of_live hlive).2 ⟨hbill.merges, hbill.purges⟩
  refine Reactive.outputs_of_inv machineStep
    (P := fun m es => Ledger m.state (mergeOutcomes es) (purgeArms es)) ?_ hstart r.inputs
  intro m i es h
  rw [mergeOutcomes_append, purgeArms_append]
  exact h.step (machineStep_life m i)

/-! ### Terminal absorption -/

/-- What a step may do to a call that has ended: nothing, or one of the two upgrades of a
provisional miss. -/
theorem terminal_step {m : SessionMachine} (i : Input) (hm : isTerminal m.state = true) :
    (machineStep m i).1.state = m.state ∨
      (m.state = .endedMissed ∧ (machineStep m i).1.state = .endedAnswered ∧
        ∃ briAnsweredAtIso payload, i.event = .inboundHangup .bri briAnsweredAtIso payload) ∨
      (m.state = .endedMissed ∧ (machineStep m i).1.state = .endedVoicemail ∧
        ∃ payload, i.event = .recordingSaved payload) := by
  have hlife := machineStep_life m i
  unfold LifeStep at hlife
  generalize hs : m.state = s at hlife hm
  generalize ht : (machineStep m i).1.state = t at hlife
  generalize he : i.event = event at hlife
  generalize mergeOutcomes (machineStep m i).2 = xs at hlife
  generalize purgeArms (machineStep m i).2 = n at hlife
  cases hlife with
  | stay => exact Or.inl rfl
  | live hmove => rw [hmove.live.1] at hm; cases hm
  | finish h => rw [hm] at h; cases h
  | saved => cases hm
  | upgradeAnswered => exact Or.inr (Or.inl ⟨rfl, rfl, _, _, rfl⟩)
  | upgradeVoicemail => exact Or.inr (Or.inr ⟨rfl, rfl, _, rfl⟩)

theorem terminal_step_terminal {m : SessionMachine} (i : Input) (hm : isTerminal m.state = true) :
    isTerminal (machineStep m i).1.state = true := by
  rcases terminal_step i hm with h | ⟨_, h, _⟩ | ⟨_, h, _⟩
  · rw [h, hm]
  · rw [h]; rfl
  · rw [h]; rfl

/-- The customer leg's hangup event, of either direction. -/
def SessionEvent.isCustomerHangup : SessionEvent → Bool
  | .inboundHangup .. | .outboundHangup _ => true
  | _ => false

theorem customerHangup_resolves {m : SessionMachine} {i : Input}
    (hm : isTerminal m.state = false) (he : i.event.isCustomerHangup = true) :
    ∃ target, Resolves m target (machineStep m i) := by
  unfold machineStep reduceMachine
  cases hevent : i.event with
  | inboundHangup tag briAnsweredAtIso payload =>
      exact reduceInboundHangup_resolves tag briAnsweredAtIso payload i.nowMs hm
  | outboundHangup payload => exact reduceOutboundHangup_resolves payload i.nowMs hm
  | _ => simp [hevent, SessionEvent.isCustomerHangup] at he

/-- **Terminal states absorb, with billing-exact outcomes.**  Along every run from a mint a call
that has ended stays ended and changes its ending only by the two upgrades; the merges report
nothing, one outcome, or a miss that became an answer; the purge alarm is armed once if the call
has ended and not before.  And the customer's hangup ends any live call in its own step, with one
merge, one terminal mirror and no leg left up. -/
theorem terminal_absorption :
    (∀ (r : CallRun) (is : List Input), isTerminal r.machine.state = true →
        isTerminal (r.extend is).machine.state = true) ∧
      (∀ (r : CallRun) (i : Input), isTerminal r.machine.state = true →
        (r.extend [i]).machine.state = r.machine.state ∨
          (r.machine.state = .endedMissed ∧ (r.extend [i]).machine.state = .endedAnswered ∧
            ∃ briAnsweredAtIso payload,
              i.event = .inboundHangup .bri briAnsweredAtIso payload) ∨
          (r.machine.state = .endedMissed ∧ (r.extend [i]).machine.state = .endedVoicemail ∧
            ∃ payload, i.event = .recordingSaved payload)) ∧
      (∀ r : CallRun, mergeOutcomes r.effects = [] ∨ (∃ x, mergeOutcomes r.effects = [x]) ∨
        mergeOutcomes r.effects = [.missed, .answered]) ∧
      (∀ r : CallRun, purgeArms r.effects = if isTerminal r.machine.state then 1 else 0) ∧
      ∀ (m : SessionMachine) (i : Input), isTerminal m.state = false →
        i.event.isCustomerHangup = true →
          isTerminal (machineStep m i).1.state = true ∧
            (∃ x, mergeOutcomes (machineStep m i).2 = [x]) ∧
            terminalMirrors (machineStep m i).2 = 1 ∧
            ∀ leg ∈ (machineStep m i).1.legs,
              leg.status ≠ .dialing ∧ leg.status ≠ .ringing := by
  refine ⟨?_, ?_, ?_, ?_, ?_⟩
  · intro r is hr
    rw [CallRun.extend_machine]
    exact Reactive.final_of_inv machineStep (P := fun m => isTerminal m.state = true)
      (fun _ i => terminal_step_terminal i) hr is
  · intro r i hr
    rw [CallRun.extend_machine]
    exact terminal_step i hr
  · intro r
    have h := r.ledger
    unfold Ledger at h
    cases hs : r.machine.state <;> simp only [hs] at h <;> grind
  · intro r
    have h := r.ledger
    unfold Ledger at h
    cases hs : r.machine.state <;> simp only [hs] at h <;> simp [isTerminal, h.2]
  · intro m i hm he
    obtain ⟨target, h⟩ := customerHangup_resolves hm he
    obtain ⟨x, houtcome, _, hmerge, _, hmirror⟩ := h.bill hm
    refine ⟨?_, ⟨x, hmerge⟩, hmirror, ?_⟩
    · rw [h.state]
      cases target <;> simp_all [outcomeForState, isTerminal]
    · intro leg hleg
      have hup := h.not_isUp leg hleg
      constructor <;> intro hs <;> simp [hs, LegStatus.isUp, LegStatus.isLive] at hup

end Calls
