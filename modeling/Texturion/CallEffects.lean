/-
**Which events may emit which effects.**

The effects a handler can push fall into a few families: those of a terminal resolution, those of
the voicemail entry, and a handful each handler has to itself.  `Calls.mayEmit` is the table of
families by event, and the one theorem of this module says that the reducer keeps to it.  Whoever
wants to know that an effect cannot come from an event reads it off the table.

Main definitions:

* `Calls.Effect.isTerminal`, `Calls.Effect.isLadder` — the effects of a terminal resolution, and
  those of the voicemail entry;
* `Calls.mayEmit` — the table.

Main results:

* `Calls.machineStep_mayEmit` — every step keeps to the table;
* `Calls.reduceInitiated_within` — the mint of an inbound call keeps to its own.
-/

import Texturion.CallActions

namespace Calls

open FirstMatch

/-! ### The table -/

def Effect.isTerminal : Effect → Bool
  | .telnyxHangup _ _ | .mirror _ true | .terminalMerge _ | .pushCallEnd _ | .clearAlarm _
  | .armAlarm .purge _ => true
  | _ => false

/-- The effects of the voicemail entry. -/
def Effect.isLadder : Effect → Bool
  | .mirror _ false | .clearAlarm _ | .telnyxAnswerVm _ | .pushCallEnd _ => true
  | _ => false

def mayEmit : SessionEvent → Effect → Bool
  | .initiated _, _ | .outboundInitiated _, _ => false
  | .memberLegAnswered .., e => match e with
    | .telnyxHangup _ false | .warn _ | .telnyxProbeMemberLeg .. | .telnyxAnswerInbound .. => true
    | _ => false
  | .memberLegHangup .., e => e.isLadder || e.isHangup
  | .inboundHangup .., e => e.isTerminal || match e with
    | .warn _ => true
    | _ => false
  | .speakEnded, e => match e with
    | .telnyxHangup _ true | .mirror _ false | .telnyxRecordStart _ => true
    | _ => false
  | .noticeAnswerOutcome _, e => match e with
    | .telnyxSpeak _ .unavailableNotice | .mirror _ false => true
    | _ => false
  | .recordingSaved _, e => match e with
    | .voicemailPipeline _ | .mirror _ true | .armAlarm .purge _ => true
    | _ => false
  | .ringMe .., e => match e with
    | .warn _ | .telnyxDial _ => true
    | _ => false
  | .setOwner _, e => match e with
    | .mirror _ false => true
    | _ => false
  | .registerIntent .., e => match e with
    | .armAlarm .intentExpiry _ => true
    | _ => false
  | .clearIntent, e | .alarmIntentExpiry, e => match e with
    | .clearAlarm .intentExpiry | .telnyxHangup _ true => true
    | _ => false
  | .decline _, e => e.isLadder || e.isHangup
  | .alarmRing, e => e.isLadder
  | .alarmRingStep, e => e.isLadder || match e with
    | .telnyxDial _ | .armAlarm .ringStep _ => true
    | _ => false
  | .alarmJanitor, e => e.isTerminal
  | .answerOutcome .., e => e.isTerminal || match e with
    | .mirror _ false | .telnyxBridge .. | .threadAtAnswer => true
    | _ => false
  | .vmAnswerOutcome _, e => e.isTerminal || match e with
    | .telnyxSpeak _ .voicemailGreeting => true
    | _ => false
  | .pushFanoutSettled _, e => e.isLadder
  | .dialOutcome .., e => e.isLadder || e.isTerminal
  | .memberProbeOutcome .., e => e.isLadder || match e with
    | .telnyxAnswerInbound .. => true
    | _ => false
  | .inboundLegGone, e => e.isTerminal
  | .outboundAnswered, e => match e with
    | .mirror _ false | .telnyxBridge .. => true
    | _ => false
  | .outboundHangup _, e => e.isTerminal
  | .outboundPlacerAnswered .., e => match e with
    | .telnyxHangup _ _ | .telnyxBridge .. => true
    | _ => false
  | .outboundPlacerHangup .., e => e.isTerminal

/-- Everything but the cancellation of the janitor. -/
def Effect.keepsJanitor : Effect → Bool
  | .clearAlarm .janitor => false
  | _ => true

/-- A family without the cancellation of the janitor. -/
def tidy (family : Effect → Bool) (e : Effect) : Bool := family e && e.keepsJanitor

/-! ### Effects within a family -/

def Within (family : Effect → Bool) (es : List Effect) : Prop := ∀ e ∈ es, family e = true

variable {family : Effect → Bool}

@[simp] theorem within_nil : Within family [] := by simp [Within]

variable {es : List Effect}

@[simp] theorem within_cons {e : Effect} :
    Within family (e :: es) ↔ family e = true ∧ Within family es := by
  simp [Within]

@[simp] theorem within_append {es es' : List Effect} :
    Within family (es ++ es') ↔ Within family es ∧ Within family es' := by
  simp [Within, or_imp, forall_and]

theorem within_ifTruthy (s : Option String) {f : String → Effect}
    (hf : ∀ c, family (f c) = true) : Within family (ifTruthy s f) := by
  intro e he
  obtain ⟨c, _, rfl⟩ := mem_ifTruthy.1 he
  exact hf c

theorem within_ite {p : Prop} [Decidable p] {es es' : List Effect} (h : Within family es)
    (h' : Within family es') : Within family (if p then es else es') := by
  split
  · exact h
  · exact h'

theorem within_of_isHangup (h : Within Effect.isHangup es)
    (hfamily : ∀ c terminal, family (.telnyxHangup c terminal) = true) : Within family es := by
  intro e he
  have hhang := h e he
  cases e with
  | telnyxHangup c terminal => exact hfamily c terminal
  | _ => cases hhang

theorem within_mono {family' : Effect → Bool} (h : Within family es)
    (hle : ∀ e, family e = true → family' e = true) : Within family' es :=
  fun e he => hle e (h e he)

section

variable (h : Within (tidy family) es)
include h

theorem within_of_tidy : Within family es :=
  within_mono h fun _ he => (Bool.and_eq_true_iff.1 he).1

theorem keepsJanitor_of_tidy : Within Effect.keepsJanitor es :=
  within_mono h fun _ he => (Bool.and_eq_true_iff.1 he).2

theorem tidy_mono {family' : Effect → Bool}
    (hle : ∀ e, family e = true → family' e = true) : Within (tidy family') es :=
  within_mono h fun e he =>
    Bool.and_eq_true_iff.2 ((Bool.and_eq_true_iff.1 he).imp_left (hle e))

theorem tidy_left {own : Effect → Bool} : Within (tidy fun e => family e || own e) es :=
  tidy_mono h fun _ he => Bool.or_eq_true_iff.2 (.inl he)

theorem tidy_right {own : Effect → Bool} : Within (tidy fun e => own e || family e) es :=
  tidy_mono h fun _ he => Bool.or_eq_true_iff.2 (.inr he)

end

variable (m : SessionMachine)

theorem vmEntry_tidy : Within (tidy Effect.isLadder) (vmEntry m).2 := by
  have hanswer : Within (tidy Effect.isLadder) (ifTruthy m.customerCcid .telnyxAnswerVm) :=
    within_ifTruthy _ fun _ => rfl
  simpa [vmEntry, hanswer] using ⟨rfl, rfl, rfl, rfl⟩

theorem runAvenueLadder_tidy : Within (tidy Effect.isLadder) (runAvenueLadder m).2 := by
  rcases runAvenueLadder_eq_or m with h | ⟨_, _, _, _, h⟩
  · rw [h]; exact within_nil
  · rw [h]; exact vmEntry_tidy m

theorem terminalize_tidy (nowMs : ℤ) (target : CallState) (merge : Option TerminalMerge)
    (reason : Option Outcome) (extra : MirrorSet) :
    Within (tidy Effect.isTerminal) (terminalize m nowMs target merge reason extra).2 := by
  have hsweep : Within (tidy Effect.isTerminal) (terminalSweep m target).2 :=
    within_of_isHangup (fun _ => isHangup_of_mem_terminalSweep) fun _ _ => rfl
  have hmerge : Within (tidy Effect.isTerminal) (merge.map Effect.terminalMerge).toList := by
    cases merge <;> simp [Within, tidy, Effect.isTerminal, Effect.keepsJanitor]
  have hpush : Within (tidy Effect.isTerminal) (if m.state = .ringing then
      (reason.map Effect.pushCallEnd).toList else []) := by
    refine within_ite ?_ within_nil
    cases reason <;> simp [Within, tidy, Effect.isTerminal, Effect.keepsJanitor]
  have halarms : Within (tidy Effect.isTerminal) (if Calls.isTerminal m.state then []
      else [.clearAlarm .ring, .clearAlarm .ringStep, .clearAlarm .fanoutSettle,
        .armAlarm .purge (nowMs + PURGE_DELAY_MS)]) := by
    refine within_ite within_nil ?_
    simp [Within, tidy, Effect.isTerminal, Effect.keepsJanitor]
  unfold terminalize
  simp only [within_append, within_cons]
  exact ⟨⟨⟨⟨hsweep, rfl, within_nil⟩, hmerge⟩, hpush⟩, halarms⟩

theorem armRingStep_tidy (nowMs : ℤ) :
    Within (tidy (mayEmit .alarmRingStep)) (armRingStep m nowMs) := by
  unfold armRingStep
  refine within_ite within_nil ?_
  simp only
  split
  · exact within_ite within_nil (within_cons.2 ⟨rfl, within_nil⟩)
  · exact within_cons.2 ⟨rfl, within_nil⟩

theorem cancelLeg_within (terminal : Bool) (leg : LegRecord) :
    Within Effect.isHangup (cancelLeg terminal leg).2 := by
  intro e he
  obtain ⟨_, c, _, rfl⟩ := mem_cancelLeg.1 he
  rfl

theorem cancelSibling_within (memberCcid : String) (leg : LegRecord) :
    Within Effect.isHangup (cancelSibling memberCcid leg).2 := by
  unfold cancelSibling
  split_ifs
  · exact within_nil
  · exact cancelLeg_within false leg

theorem declineLeg_within (userId : String) (leg : LegRecord) :
    Within Effect.isHangup (declineLeg userId leg).2 := by
  unfold declineLeg
  split_ifs
  · exact within_ifTruthy _ fun _ => rfl
  · exact within_nil

theorem sweepLegs_within {f : LegRecord → LegRecord × List Effect}
    (hf : ∀ leg, Within family (f leg).2) (m : SessionMachine) :
    Within family (sweepLegs f m).2 := by
  intro e he
  obtain ⟨leg, _, he⟩ := mem_sweepLegs.1 he
  exact hf leg e he

/-! ### The handlers keep to the table -/

theorem reduceInboundHangup_tidy (tag : HangupTag) (briAnsweredAtIso : Option String)
    (payload : Option Payload) (nowMs : ℤ) :
    Within (tidy (mayEmit (.inboundHangup tag briAnsweredAtIso payload)))
      (reduceInboundHangup m tag briAnsweredAtIso payload nowMs).2 := by
  have hterm : ∀ (n : SessionMachine) (target : CallState) (merge : Option TerminalMerge)
      (reason : Option Outcome) (extra : MirrorSet),
      Within (tidy (mayEmit (.inboundHangup tag briAnsweredAtIso payload)))
        (terminalize n nowMs target merge reason extra).2 := by
    intro n target merge reason extra
    exact tidy_left (terminalize_tidy _ _ _ _ _ _)
  unfold reduceInboundHangup
  by_cases hm : Calls.isTerminal m.state = true
  · rw [if_pos hm]
    unfold reduceLateInboundHangup
    split_ifs
    · cases m.answerIntent with
      | none => exact within_cons.2 ⟨rfl, within_cons.2 ⟨rfl, within_cons.2 ⟨rfl, within_nil⟩⟩⟩
      | some intent => exact within_cons.2 ⟨rfl, within_cons.2 ⟨rfl, within_nil⟩⟩
    · exact within_nil
  · rw [if_neg hm]
    cases tag with
    | bri =>
      refine within_append.2 ⟨within_ite (within_cons.2 ⟨rfl, within_nil⟩) within_nil, ?_⟩
      exact hterm _ _ _ _ _
    | vmi => exact hterm _ _ _ _ _
    | untagged =>
      simp only
      split_ifs
      · exact within_cons.2 ⟨rfl, hterm _ _ _ _ _⟩
      · exact hterm _ _ _ _ _
      · exact hterm _ _ _ _ _

theorem reduceAnswerOutcome_tidy (ok : Bool) (memberCcid userId answeredAtIso : String)
    (nowMs : ℤ) :
    Within (tidy (mayEmit (.answerOutcome ok memberCcid userId answeredAtIso)))
      (reduceAnswerOutcome m ok memberCcid userId answeredAtIso nowMs).2 := by
  unfold reduceAnswerOutcome
  split_ifs
  · exact within_nil
  · refine within_append.2 ⟨?_, tidy_left (terminalize_tidy _ _ _ _ _ _)⟩
    rcases doomMember_eq m memberCcid with h | h
    · rw [h]; exact within_nil
    · rw [h]; exact within_cons.2 ⟨rfl, within_nil⟩
  · simp only [within_append, within_cons]
    refine ⟨⟨⟨⟨rfl, within_nil⟩, within_ifTruthy _ fun _ => rfl⟩, ?_⟩, rfl, rfl, rfl, rfl,
      within_nil⟩
    exact within_of_isHangup (sweepLegs_within (cancelSibling_within memberCcid) _) fun _ _ => rfl

theorem reduceDialOutcome_tidy (key : String) (ccid : Option String) (failure : Option DialFailure)
    (nowMs : ℤ) :
    Within (tidy (mayEmit (.dialOutcome key ccid failure)))
      (reduceDialOutcome m key ccid failure nowMs).2 := by
  rcases reduceDialOutcome_cases m key ccid failure nowMs with
    ⟨_, h⟩ | ⟨leg, _, ⟨landed, _, h⟩ | ⟨_, _, h⟩ | ⟨_, _, _, h⟩ | ⟨_, _, _, _, h⟩⟩
  · rw [h]; exact within_nil
  · rw [h]; exact within_nil
  · rw [h]
    exact tidy_left (runAvenueLadder_tidy _)
  · rw [h]; exact within_nil
  · rw [h]
    refine within_append.2 ⟨?_, within_ifTruthy _ fun _ => rfl⟩
    exact tidy_right (terminalize_tidy _ _ _ _ _ _)

theorem reduceAlarmRingStep_tidy (nowMs : ℤ) (pendingKeyFor : ℕ → String) :
    Within (tidy (mayEmit .alarmRingStep)) (reduceAlarmRingStep m nowMs pendingKeyFor).2 := by
  rcases reduceAlarmRingStep_cases m nowMs pendingKeyFor with
    h | ⟨_, _, h⟩ | ⟨target, rest, _, _, ⟨_, h⟩ | ⟨_, h⟩⟩
  · rw [h]; exact within_nil
  · rw [h]
    exact tidy_left (runAvenueLadder_tidy _)
  · rw [h]; exact within_nil
  · rw [h]
    exact within_cons.2 ⟨rfl, armRingStep_tidy _ _⟩

/-- Every step keeps to the table, and none cancels the janitor. -/
theorem machineStep_tidy (i : Input) : Within (tidy (mayEmit i.event)) (machineStep m i).2 := by
  unfold machineStep reduceMachine
  cases i.event with
  | initiated | outboundInitiated => exact within_nil
  | setOwner | registerIntent => exact within_cons.2 ⟨rfl, within_nil⟩
  | inboundHangup => exact reduceInboundHangup_tidy _ _ _ _ _
  | answerOutcome => exact reduceAnswerOutcome_tidy _ _ _ _ _ _
  | dialOutcome => exact reduceDialOutcome_tidy _ _ _ _ _
  | alarmRingStep => exact reduceAlarmRingStep_tidy _ _ _
  | memberLegAnswered =>
    simp only [quiet, reduceMemberAnswered]
    split
    · exact within_cons.2 ⟨rfl, within_cons.2 ⟨rfl, within_nil⟩⟩
    · split_ifs
      · exact within_cons.2 ⟨rfl, within_nil⟩
      · exact within_nil
      · exact within_cons.2 ⟨rfl, within_nil⟩
      · exact within_ifTruthy _ fun _ => rfl
  | memberLegHangup =>
    simp only [quiet, reduceMemberHangup]
    split
    · exact within_nil
    · split_ifs
      · exact within_nil
      · exact within_nil
      · exact within_ifTruthy _ fun _ => rfl
      · exact within_nil
      · exact tidy_left (runAvenueLadder_tidy _)
  | outboundHangup =>
    simp only [quiet, reduceOutboundHangup]
    split
    · exact within_nil
    · exact terminalize_tidy _ _ _ _ _ _
  | outboundPlacerAnswered =>
    simp only [quiet, reduceOutboundPlacerAnswered]
    split_ifs
    · exact within_cons.2 ⟨rfl, within_nil⟩
    · split
      · exact within_cons.2 ⟨rfl, within_nil⟩
      · split_ifs
        · exact within_nil
        · exact within_ifTruthy _ fun _ => rfl
  | outboundPlacerHangup =>
    simp only [quiet, reduceOutboundPlacerHangup]
    split_ifs
    · exact within_nil
    · exact within_nil
    · exact within_nil
    · exact within_ifTruthy _ fun _ => rfl
    · exact within_append.2 ⟨terminalize_tidy _ _ _ _ _ _, within_ifTruthy _ fun _ => rfl⟩
  | outboundAnswered =>
    simp only [quiet, reduceOutboundAnswered]
    split_ifs
    · exact within_nil
    · refine within_append.2 ⟨within_cons.2 ⟨rfl, within_nil⟩, ?_⟩
      split
      · exact within_cons.2 ⟨rfl, within_nil⟩
      · exact within_nil
  | speakEnded =>
    simp only [quiet, reduceSpeakEnded]
    split_ifs
    · exact within_ifTruthy _ fun _ => rfl
    · exact within_nil
    · exact within_cons.2 ⟨rfl, within_ifTruthy _ fun _ => rfl⟩
  | recordingSaved =>
    simp only [quiet, reduceRecordingSaved]
    split
    · exact within_nil
    · refine within_append.2 ⟨within_cons.2 ⟨rfl, within_cons.2 ⟨rfl, within_nil⟩⟩, ?_⟩
      exact within_ite (within_cons.2 ⟨rfl, within_nil⟩) within_nil
  | ringMe =>
    simp only [reduceRingMe]
    split
    · exact within_ite (within_cons.2 ⟨rfl, within_nil⟩) within_nil
    · exact within_cons.2 ⟨rfl, within_nil⟩
  | clearIntent | alarmIntentExpiry =>
    simp only [quiet, reduceIntentOver]
    split_ifs
    · exact within_cons.2 ⟨rfl, within_ifTruthy _ fun _ => rfl⟩
    · exact within_cons.2 ⟨rfl, within_nil⟩
  | decline userId =>
    simp only [reduceDecline]
    split_ifs
    · exact within_nil
    · exact within_nil
    · refine within_append.2 ⟨?_, ?_⟩
      · have hdrop := sweepLegs_within (declineLeg_within userId) m
        exact within_mono hdrop fun e he => by
          cases e with
          | telnyxHangup => simp [tidy, mayEmit, Effect.keepsJanitor, Effect.isHangup]
          | _ => cases he
      · exact tidy_left (runAvenueLadder_tidy _)
  | alarmRing =>
    simp only [quiet, reduceAlarmRing]
    split_ifs
    · exact within_nil
    · exact vmEntry_tidy m
  | alarmJanitor =>
    simp only [quiet, reduceAlarmJanitor]
    split_ifs
    · exact within_nil
    · exact terminalize_tidy _ _ _ _ _ _
    · exact terminalize_tidy _ _ _ _ _ _
    · exact terminalize_tidy _ _ _ _ _ _
  | noticeAnswerOutcome =>
    simp only [quiet, reduceNoticeAnswerOutcome]
    split_ifs
    · exact within_nil
    · split
      · exact within_cons.2 ⟨rfl, within_nil⟩
      · exact within_cons.2 ⟨rfl, within_nil⟩
  | vmAnswerOutcome ok =>
    simp only [quiet, reduceVmAnswerOutcome]
    split_ifs
    · exact within_nil
    · refine within_append.2 ⟨within_ifTruthy _ fun _ => rfl, ?_⟩
      exact within_of_isHangup (sweepLegs_within (cancelLeg_within true) m) fun _ _ => rfl
    · exact tidy_left (terminalize_tidy _ _ _ _ _ _)
  | pushFanoutSettled =>
    exact within_cons.2 ⟨rfl, runAvenueLadder_tidy _⟩
  | inboundLegGone =>
    simp only [quiet, reduceInboundLegGone]
    split_ifs
    · exact within_nil
    · exact terminalize_tidy _ _ _ _ _ _
  | memberProbeOutcome ccid userId alive =>
    simp only [quiet, reduceMemberProbeOutcome]
    split
    · exact within_nil
    · split
      · exact within_nil
      · split
        · exact tidy_left (runAvenueLadder_tidy _)
        · exact within_ifTruthy _ fun _ => rfl

/-! ### The families themselves -/

theorem runAvenueLadder_within : Within Effect.isLadder (runAvenueLadder m).2 :=
  within_of_tidy (runAvenueLadder_tidy m)

theorem terminalize_within (nowMs : ℤ) (target : CallState) (merge : Option TerminalMerge)
    (reason : Option Outcome) (extra : MirrorSet) :
    Within Effect.isTerminal (terminalize m nowMs target merge reason extra).2 :=
  within_of_tidy (terminalize_tidy m nowMs target merge reason extra)

theorem armRingStep_within (nowMs : ℤ) : Within (mayEmit .alarmRingStep) (armRingStep m nowMs) :=
  within_of_tidy (armRingStep_tidy m nowMs)

theorem reduceInboundHangup_within (tag : HangupTag) (briAnsweredAtIso : Option String)
    (payload : Option Payload) (nowMs : ℤ) :
    Within (mayEmit (.inboundHangup tag briAnsweredAtIso payload))
      (reduceInboundHangup m tag briAnsweredAtIso payload nowMs).2 :=
  within_of_tidy (reduceInboundHangup_tidy m tag briAnsweredAtIso payload nowMs)

/-- **Every step keeps to the table.** -/
theorem machineStep_mayEmit (i : Input) : Within (mayEmit i.event) (machineStep m i).2 :=
  within_of_tidy (machineStep_tidy m i)

/-! ### The mint -/

def mintMayEmit : Effect → Bool
  | .armAlarm .. | .mirror _ false | .clearAlarm _ | .telnyxAnswerVm _ | .pushCallEnd _
  | .telnyxAnswerNotice _ | .telnyxReject .. | .warn _ | .telnyxDial _ | .pushFanout _ => true
  | _ => false

section

variable (context : InitiatedContext)

theorem ringStart_tidy (nowMs : ℤ) (pendingKeyFor : ℕ → String) :
    Within (tidy mintMayEmit) (ringStart context nowMs pendingKeyFor).2 := by
  have hstep : ∀ m : SessionMachine, Within (tidy mintMayEmit) (armRingStep m nowMs) := by
    intro m
    unfold armRingStep
    refine within_ite within_nil ?_
    simp only
    split
    · exact within_ite within_nil (within_cons.2 ⟨rfl, within_nil⟩)
    · exact within_cons.2 ⟨rfl, within_nil⟩
  unfold ringStart
  simp only [within_append]
  refine ⟨⟨⟨⟨?_, ?_⟩, ?_⟩, ?_⟩, hstep _⟩
  · exact within_ite (within_cons.2 ⟨rfl, within_nil⟩) within_nil
  · exact within_cons.2 ⟨rfl, within_nil⟩
  · exact within_ite (within_cons.2 ⟨rfl, within_nil⟩) within_nil
  · simp [tidy, mintMayEmit, Effect.keepsJanitor]

theorem reduceInitiated_tidy (nowMs : ℤ) (pendingKeyFor : ℕ → String) :
    Within (tidy mintMayEmit) (reduceInitiated context nowMs pendingKeyFor).2 := by
  have hladder : ∀ e : Effect, e.isLadder = true → mintMayEmit e = true := by
    intro e he
    cases e with
    | mirror set terminal =>
      cases terminal with
      | false => rfl
      | true => cases he
    | clearAlarm | telnyxAnswerVm | pushCallEnd => rfl
    | _ => cases he
  unfold reduceInitiated initiatedBranch
  refine within_cons.2 ⟨rfl, ?_⟩
  split_ifs
  · exact tidy_mono (vmEntry_tidy _) hladder
  · exact within_cons.2 ⟨rfl, within_ite (within_cons.2 ⟨rfl, within_nil⟩) within_nil⟩
  · exact within_cons.2 ⟨rfl, within_cons.2 ⟨rfl, within_nil⟩⟩
  · exact tidy_mono (vmEntry_tidy _) hladder
  · exact ringStart_tidy context nowMs pendingKeyFor

/-- **The mint keeps to its table.** -/
theorem reduceInitiated_within (nowMs : ℤ) (pendingKeyFor : ℕ → String) :
    Within mintMayEmit (reduceInitiated context nowMs pendingKeyFor).2 :=
  within_of_tidy (reduceInitiated_tidy context nowMs pendingKeyFor)

end

end Calls
