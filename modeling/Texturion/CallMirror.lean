/-
**The mirror row.**

The object mirrors the columns it owns of a call to the call's row in the database.  A step that
changes one of them pushes a mirror write that carries it; a write that fails is kept, merged with
what later writes fail, and retried by an alarm of its own until it lands or has been tried too
often.  A retried patch may be older than what has landed since, so the retry replaces what it
carries of the state, the owner and the answer stamp by the machine's own.

It does not replace what it carries of `notice_spoken`, which the machine may have taken back since:
that column is right only as long as no retry carries a value of it that the machine has changed.

Main result:

* `Calls.mirror_converges` — once nothing is pending, the row is the machine's.
-/

import Texturion.CallAdoption
import Mathlib.Data.List.Induction

namespace Calls

open FirstMatch

/-! ### Rows and patches -/

/-- The columns of the call's row that the object owns. -/
structure Row where
  state : Option CallState
  answeredByUserId : Option String
  answeredAt : Option String
  unattended : Bool
  noticeSpoken : Bool
  deriving DecidableEq

def columns (m : SessionMachine) : Row where
  state := some m.state
  answeredByUserId := m.answeredByUserId
  answeredAt := m.answeredAtIso
  unattended := m.unattended
  noticeSpoken := m.noticeSpoken

/-- The update of a row: the columns a patch carries are overwritten. -/
def Row.patch (row : Row) (set : MirrorSet) : Row where
  state := (set.state.map some).getD row.state
  answeredByUserId := set.answeredByUserId.getD row.answeredByUserId
  answeredAt := set.answeredAt.getD row.answeredAt
  unattended := set.unattended.getD row.unattended
  noticeSpoken := set.noticeSpoken.getD row.noticeSpoken

def Effect.mirrorSet : Effect → Option MirrorSet
  | .mirror set _ => some set
  | _ => none

/-- The patches of a step, in order. -/
def mirrorSets (es : List Effect) : List MirrorSet := es.filterMap Effect.mirrorSet

/-- The columns after a step's patches. -/
def patched (row : Row) (es : List Effect) : Row := (mirrorSets es).foldl Row.patch row

/-- The columns of a machine, but for whatever the row holds of `unattended`. -/
def columnsBut (m : SessionMachine) (unattended : Bool) : Row :=
  { columns m with unattended := unattended }

/-- **A step mirrors what it changes**; it neither changes nor mirrors `unattended`. -/
structure Mirrors (m : SessionMachine) (r : SessionMachine × List Effect) : Prop where
  unattended : r.1.unattended = m.unattended
  patched : ∀ u, patched (columnsBut m u) r.2 = columnsBut r.1 u

theorem mirrorSets_append (es es' : List Effect) :
    mirrorSets (es ++ es') = mirrorSets es ++ mirrorSets es' :=
  List.filterMap_append

/-- Effects among which there is no mirror write. -/
def Silent (es : List Effect) : Prop := mirrorSets es = []

variable {es : List Effect} {m n : SessionMachine} {event : SessionEvent} {target : Row}

theorem silent_iff : Silent es ↔ ∀ e ∈ es, e.mirrorSet = none :=
  List.filterMap_eq_nil_iff

theorem silent_nil : Silent [] := rfl

theorem Silent.append {es es' : List Effect} (h : Silent es) (h' : Silent es') :
    Silent (es ++ es') := by
  rw [Silent, mirrorSets_append, h, h']
  rfl

theorem silent_of_isHangup (h : ∀ e ∈ es, e.isHangup = true) : Silent es := by
  rw [silent_iff]
  intro e he
  cases e with
  | telnyxHangup => rfl
  | _ => cases h _ he

theorem silent_ifTruthy (s : Option String) {f : String → Effect}
    (hf : ∀ c, (f c).mirrorSet = none) : Silent (ifTruthy s f) := by
  rw [silent_iff]
  intro e he
  obtain ⟨c, _, rfl⟩ := mem_ifTruthy.1 he
  exact hf c

theorem patched_append (row : Row) (es es' : List Effect) :
    patched row (es ++ es') = patched (patched row es) es' := by
  rw [patched, mirrorSets_append, List.foldl_append]
  rfl

theorem Silent.patched (h : Silent es) (row : Row) : patched row es = row := by
  rw [Calls.patched, h]
  rfl

/-! ### Combining steps -/

theorem Mirrors.row_eq {r : SessionMachine × List Effect} (h : Mirrors m r) :
    Calls.patched (columns m) r.2 = columns r.1 := by
  have hrow := h.patched m.unattended
  have hafter : columnsBut r.1 m.unattended = columns r.1 := by
    rw [columnsBut, ← h.unattended]
    rfl
  exact hrow.trans hafter

theorem mirrors_same (hcolumns : columns n = columns m) (hes : Silent es) : Mirrors m (n, es) where
  unattended := congrArg Row.unattended hcolumns
  patched := by
    intro u
    rw [hes.patched, columnsBut, columnsBut, hcolumns]

theorem Mirrors.of_columns {r : SessionMachine × List Effect} (h : Mirrors n r)
    (hcolumns : columns n = columns m) : Mirrors m r where
  unattended := h.unattended.trans (congrArg Row.unattended hcolumns)
  patched := by
    intro u
    rw [columnsBut, ← hcolumns]
    exact h.patched u

theorem Mirrors.around {pre es post : List Effect} (h : Mirrors m (n, es)) (hpre : Silent pre)
    (hpost : Silent post) : Mirrors m (n, pre ++ es ++ post) where
  unattended := h.unattended
  patched := by
    intro u
    rw [patched_append, patched_append, hpre.patched, hpost.patched]
    exact h.patched u

theorem Mirrors.prepend {pre es : List Effect} (h : Mirrors m (n, es))
    (hpre : Silent pre) : Mirrors m (n, pre ++ es) := by
  have hboth := h.around hpre silent_nil
  rwa [List.append_nil] at hboth

/-! ### The shared actions -/

section

variable (m)

theorem columns_resolveLeg (ccid userId : String) (destination : Option String) (mayAdopt : Bool)
    (wake : LegStatus → LegStatus) :
    columns (resolveLeg m ccid userId destination mayAdopt wake) = columns m := by
  obtain ⟨legs, h⟩ := resolveLeg_eq m ccid userId destination mayAdopt wake
  rw [h]
  rfl

theorem vmEntry_mirrors : Mirrors m (vmEntry m) := by
  have hanswer : Silent (ifTruthy m.customerCcid .telnyxAnswerVm) :=
    silent_ifTruthy _ fun _ => rfl
  refine ⟨rfl, fun u => ?_⟩
  unfold vmEntry
  rw [patched_append, patched_append, hanswer.patched]
  rfl

theorem runAvenueLadder_mirrors : Mirrors m (runAvenueLadder m) := by
  rcases runAvenueLadder_eq_or m with h | ⟨_, _, _, _, h⟩
  · rw [h]
    exact mirrors_same rfl silent_nil
  · rw [h]
    exact vmEntry_mirrors m

theorem terminalize_patched (nowMs : ℤ) (target : CallState) (merge : Option TerminalMerge)
    (reason : Option Outcome) (extra : MirrorSet) (row : Row) :
    patched row (terminalize m nowMs target merge reason extra).2 =
      row.patch { extra with state := some target } := by
  have hsweep : Silent (terminalSweep m target).2 :=
    silent_of_isHangup fun _ he => isHangup_of_mem_terminalSweep he
  have hmerge : Silent (merge.map Effect.terminalMerge).toList := by cases merge <;> rfl
  have hreason : Silent (if m.state = .ringing then (reason.map Effect.pushCallEnd).toList
      else []) := by
    split_ifs
    · cases reason <;> rfl
    · rfl
  have halarms : Silent (if isTerminal m.state then []
      else [.clearAlarm .ring, .clearAlarm .ringStep, .clearAlarm .fanoutSettle,
        .armAlarm .purge (nowMs + PURGE_DELAY_MS)]) := by
    split_ifs <;> rfl
  unfold terminalize
  rw [patched_append, patched_append, patched_append, patched_append, hsweep.patched,
    hmerge.patched, hreason.patched, halarms.patched]
  rfl

theorem terminalize_mirrors (nowMs : ℤ) (target : CallState) (merge : Option TerminalMerge)
    (reason : Option Outcome) : Mirrors m (terminalize m nowMs target merge reason {}) := by
  refine ⟨by rw [terminalize_fst], fun u => ?_⟩
  rw [terminalize_patched, terminalize_fst]
  rfl

theorem doomMember_silent (memberCcid : String) :
    columns (doomMember m memberCcid).1 = columns m ∧ Silent (doomMember m memberCcid).2 := by
  rcases doomMember_eq m memberCcid with h | h
  · rw [h]
    exact ⟨rfl, rfl⟩
  · rw [h]
    exact ⟨rfl, rfl⟩

theorem ownerDeathTeardown_mirrors : Mirrors m (ownerDeathTeardown m) :=
  mirrors_same rfl (silent_ifTruthy _ fun _ => rfl)

end

theorem silent_sweep {f : LegRecord → LegRecord × List Effect}
    (h : ∀ leg e, e ∈ (f leg).2 → e.isHangup = true) : Silent (sweepLegs f m).2 := by
  refine silent_of_isHangup fun e he => ?_
  obtain ⟨leg, _, he⟩ := mem_sweepLegs.1 he
  exact h leg e he

theorem silent_cancelAll (m : SessionMachine) (terminal : Bool) :
    Silent (cancelAllLiveLegs m terminal).2 :=
  silent_of_isHangup fun _ he => isHangup_of_mem_cancelAll he

theorem silent_armRingStep (m : SessionMachine) (nowMs : ℤ) : Silent (armRingStep m nowMs) := by
  unfold armRingStep
  split_ifs
  · rfl
  · simp only
    split
    · split_ifs <;> rfl
    · rfl

/-! ### The handlers -/

/-- An intent that may be stamped names the member it is about. -/
def IntentNamed (m : SessionMachine) : Prop :=
  ∀ intent, m.answerIntent = some intent → intent.userId ≠ ""

/-- An event whose table of effects holds no mirror write pushes none. -/
theorem silent_of_mayEmit (m : SessionMachine) (i : Input)
    (h : ∀ set terminal, mayEmit i.event (.mirror set terminal) = false) :
    Silent (machineStep m i).2 := by
  rw [silent_iff]
  intro e he
  have hmay := machineStep_mayEmit m i e he
  cases e with
  | mirror set terminal =>
    rw [h set terminal] at hmay
    cases hmay
  | _ => rfl

theorem patch_ownerMirror {row : Row} {s : CallState} (hby : truthy m.answeredByUserId = none →
      row.answeredByUserId = m.answeredByUserId ∧ row.answeredAt = m.answeredAtIso) :
    row.patch { ownerMirror m with state := some s } =
      { row with state := some s, answeredByUserId := m.answeredByUserId,
                 answeredAt := m.answeredAtIso } := by
  unfold ownerMirror
  cases htruthy : truthy m.answeredByUserId with
  | some userId =>
    rw [(truthy_eq_some.1 htruthy).1]
    rfl
  | none =>
    obtain ⟨huser, hat⟩ := hby htruthy
    rw [← huser, ← hat]
    rfl

theorem reduceLateInboundHangup_mirrors (tag : HangupTag) (briAnsweredAtIso : Option String)
    (payload : Option Payload) (h : IntentNamed m) :
    Mirrors m (reduceLateInboundHangup m tag briAnsweredAtIso payload) := by
  unfold reduceLateInboundHangup
  split_ifs
  · cases hintent : m.answerIntent with
    | none =>
      refine ⟨rfl, fun u => ?_⟩
      have hwarn : Silent [upgradeWarning] := rfl
      rw [patched_append, hwarn.patched]
      exact patch_ownerMirror fun _ => ⟨rfl, rfl⟩
    | some intent =>
      have hnamed : truthy (some intent.userId) = some intent.userId :=
        truthy_some (h intent hintent)
      refine ⟨rfl, fun u => ?_⟩
      exact patch_ownerMirror fun hnone => by rw [hnamed] at hnone; cases hnone
  · exact mirrors_same rfl silent_nil

theorem reduceInboundHangup_mirrors (tag : HangupTag) (briAnsweredAtIso : Option String)
    (payload : Option Payload) (nowMs : ℤ) (h : IntentNamed m) :
    Mirrors m (reduceInboundHangup m tag briAnsweredAtIso payload nowMs) := by
  unfold reduceInboundHangup
  by_cases hterm : isTerminal m.state = true
  · rw [if_pos hterm]
    exact reduceLateInboundHangup_mirrors tag briAnsweredAtIso payload h
  · rw [if_neg hterm]
    cases tag with
    | vmi => exact terminalize_mirrors ..
    | untagged =>
      simp only
      split_ifs
      · have hwarn : Silent [untaggedWarning] := rfl
        exact (terminalize_mirrors ..).prepend hwarn
      · exact terminalize_mirrors ..
      · exact terminalize_mirrors ..
    | bri =>
      have hwarn : Silent (if (stampFromIntent m).answeredByUserId = none
          then [unattributedWarning] else []) := by
        split_ifs <;> rfl
      -- a stamp is mirrored, since it names a member; without one nothing has changed
      have hstamp : truthy (stampFromIntent m).answeredByUserId = none →
          m.answeredByUserId = (stampFromIntent m).answeredByUserId ∧
            m.answeredAtIso = (stampFromIntent m).answeredAtIso := by
        intro hnone
        unfold stampFromIntent at hnone ⊢
        split at hnone
        · rename_i intent _ hintent
          rw [truthy_some (h intent hintent)] at hnone
          cases hnone
        · exact ⟨rfl, rfl⟩
      have hrest : (stampFromIntent m).unattended = m.unattended ∧
          (stampFromIntent m).noticeSpoken = m.noticeSpoken := by
        unfold stampFromIntent
        split <;> exact ⟨rfl, rfl⟩
      refine ⟨by rw [terminalize_fst]; exact hrest.1, fun u => ?_⟩
      have hpatch : (columnsBut m u).patch { ownerMirror (stampFromIntent m) with
          state := some .endedAnswered } = _ := patch_ownerMirror hstamp
      simp only
      rw [patched_append, hwarn.patched, terminalize_patched, terminalize_fst, hpatch]
      simp [columnsBut, columns, hrest.2]

section

variable (m)

theorem reduceAnswerOutcome_mirrors (ok : Bool) (memberCcid userId answeredAtIso : String)
    (nowMs : ℤ) : Mirrors m (reduceAnswerOutcome m ok memberCcid userId answeredAtIso nowMs) := by
  unfold reduceAnswerOutcome
  split_ifs
  · exact mirrors_same rfl silent_nil
  · obtain ⟨hcolumns, hsilent⟩ := doomMember_silent m memberCcid
    have hended := terminalize_mirrors (doomMember m memberCcid).1 nowMs
      (missedState (doomMember m memberCcid).1) (some (syntheticMerge .missed none)) (some .missed)
    exact (hended.of_columns hcolumns).prepend hsilent
  · have hbridge : Silent (ifTruthy m.customerCcid fun customerCcid =>
        .telnyxBridge memberCcid customerCcid) := silent_ifTruthy _ fun _ => rfl
    have hsweep : ∀ n : SessionMachine, Silent (sweepLegs (cancelSibling memberCcid) n).2 :=
      fun n => silent_sweep fun leg e he => cancelSibling_within memberCcid leg e he
    refine ⟨rfl, fun u => ?_⟩
    simp only
    rw [patched_append, patched_append, patched_append, hbridge.patched, (hsweep _).patched]
    rfl

theorem reduceOutboundAnswered_mirrors (nowMs : ℤ) :
    Mirrors m (reduceOutboundAnswered m nowMs) := by
  unfold reduceOutboundAnswered
  split_ifs
  · exact mirrors_same rfl silent_nil
  · refine ⟨rfl, fun u => ?_⟩
    simp only
    rw [patched_append]
    split <;> rfl

theorem reduceDialOutcome_mirrors (key : String) (ccid : Option String)
    (failure : Option DialFailure) (nowMs : ℤ) :
    Mirrors m (reduceDialOutcome m key ccid failure nowMs) := by
  rcases reduceDialOutcome_cases m key ccid failure nowMs with
    ⟨_, h⟩ | ⟨_, _, ⟨_, _, h⟩ | ⟨_, _, h⟩ | ⟨_, _, _, h⟩ | ⟨_, _, _, _, h⟩⟩
  · rw [h]
    exact mirrors_same rfl silent_nil
  · rw [h]
    exact mirrors_same rfl silent_nil
  · rw [h]
    exact (runAvenueLadder_mirrors _).of_columns rfl
  · rw [h]
    exact mirrors_same rfl silent_nil
  · rw [h]
    have hended : Mirrors m (terminalize (updateLegByKey m key (failLeg failure)) nowMs .endedMissed
        (some (syntheticMerge .missed none)) none {}) := (terminalize_mirrors ..).of_columns rfl
    exact hended.around silent_nil (silent_ifTruthy _ fun _ => rfl)

end

/-- **Every step mirrors what it changes**, as long as the intent it may stamp names a member. -/
theorem machineStep_mirrors (h : IntentNamed m) (i : Input) : Mirrors m (machineStep m i) := by
  have htable := silent_of_mayEmit m i
  unfold machineStep reduceMachine at htable ⊢
  cases hevent : i.event with
  | initiated | outboundInitiated => exact mirrors_same rfl silent_nil
  | setOwner => exact ⟨rfl, fun u => rfl⟩
  | registerIntent => exact mirrors_same rfl rfl
  | inboundHangup => exact reduceInboundHangup_mirrors _ _ _ _ h
  | answerOutcome => exact reduceAnswerOutcome_mirrors ..
  | outboundAnswered => exact reduceOutboundAnswered_mirrors ..
  | dialOutcome => exact reduceDialOutcome_mirrors ..
  | memberLegAnswered =>
    rw [hevent] at htable
    refine mirrors_same ?_ (htable fun _ _ => rfl)
    simp only [quiet, reduceMemberAnswered]
    split
    · exact columns_resolveLeg ..
    · split_ifs
      · exact columns_resolveLeg ..
      · exact columns_resolveLeg ..
      · exact columns_resolveLeg ..
      · exact columns_resolveLeg ..
  | memberLegHangup ccid userId destination =>
    have hsame := columns_resolveLeg m ccid userId destination (m.state == .ringing) id
    simp only [quiet, reduceMemberHangup]
    split
    · exact mirrors_same hsame silent_nil
    · split_ifs
      · exact mirrors_same hsame silent_nil
      · exact mirrors_same hsame silent_nil
      · exact (ownerDeathTeardown_mirrors _).of_columns hsame
      · exact mirrors_same hsame silent_nil
      · exact (runAvenueLadder_mirrors _).of_columns hsame
  | outboundHangup =>
    simp only [quiet, reduceOutboundHangup]
    split
    · exact mirrors_same rfl silent_nil
    · exact terminalize_mirrors ..
  | outboundPlacerAnswered =>
    rw [hevent] at htable
    refine mirrors_same ?_ (htable fun _ _ => rfl)
    simp only [quiet, reduceOutboundPlacerAnswered]
    split_ifs
    · rfl
    · split
      · exact columns_resolveLeg ..
      · split_ifs
        · exact columns_resolveLeg ..
        · exact columns_resolveLeg ..
  | outboundPlacerHangup ccid userId =>
    simp only [quiet, reduceOutboundPlacerHangup]
    split_ifs
    · exact mirrors_same rfl silent_nil
    · exact mirrors_same rfl silent_nil
    · exact mirrors_same rfl silent_nil
    · exact (ownerDeathTeardown_mirrors _).of_columns rfl
    · have hended : Mirrors m (terminalize (m.setLegStatus ccid .dead) i.nowMs .endedMissed
          (some (syntheticMerge .missed none)) none {}) :=
        (terminalize_mirrors ..).of_columns rfl
      exact hended.around silent_nil (silent_ifTruthy _ fun _ => rfl)
  | speakEnded =>
    have hrecord : Silent (ifTruthy m.customerCcid .telnyxRecordStart) :=
      silent_ifTruthy _ fun _ => rfl
    simp only [quiet, reduceSpeakEnded]
    split_ifs
    · exact mirrors_same rfl (silent_ifTruthy _ fun _ => rfl)
    · exact mirrors_same rfl silent_nil
    · refine ⟨rfl, fun u => ?_⟩
      refine (patched_append (columnsBut m u) [.mirror { state := some .voicemailRecording } false]
        (ifTruthy m.customerCcid .telnyxRecordStart)).trans ?_
      rw [hrecord.patched]
      rfl
  | recordingSaved payload =>
    have hpurge : Silent (if m.state = .voicemailRecording
        then [.armAlarm .purge (i.nowMs + PURGE_DELAY_MS)] else []) := by
      split_ifs <;> rfl
    simp only [quiet, reduceRecordingSaved]
    split
    · exact mirrors_same rfl silent_nil
    · refine ⟨rfl, fun u => ?_⟩
      simp only
      rw [patched_append, hpurge.patched]
      rfl
  | ringMe =>
    rw [hevent] at htable
    refine mirrors_same ?_ (htable fun _ _ => rfl)
    simp only [reduceRingMe]
    split <;> rfl
  | clearIntent | alarmIntentExpiry =>
    rw [hevent] at htable
    refine mirrors_same ?_ (htable fun _ _ => rfl)
    simp only [quiet, reduceIntentOver]
    split_ifs <;> rfl
  | decline userId =>
    simp only [reduceDecline]
    split_ifs
    · exact mirrors_same rfl silent_nil
    · exact mirrors_same rfl silent_nil
    · have hdrop : Silent (withoutMember m userId).2 :=
        silent_sweep fun leg e he => declineLeg_within userId leg e he
      have hladder : Mirrors m (runAvenueLadder (withoutMember m userId).1) :=
        (runAvenueLadder_mirrors _).of_columns rfl
      exact hladder.prepend hdrop
  | alarmRing =>
    simp only [quiet, reduceAlarmRing]
    split_ifs
    · exact mirrors_same rfl silent_nil
    · exact vmEntry_mirrors m
  | alarmRingStep =>
    rcases reduceAlarmRingStep_cases m i.nowMs i.pendingKeyFor with
      hr | ⟨_, _, hr⟩ | ⟨_, _, _, _, ⟨_, hr⟩ | ⟨_, hr⟩⟩
    · rw [hr]
      exact mirrors_same rfl silent_nil
    · rw [hr]
      exact (runAvenueLadder_mirrors _).of_columns rfl
    · rw [hr]
      exact mirrors_same rfl silent_nil
    · rw [hr]
      exact mirrors_same rfl
        (Silent.append (show Silent [.telnyxDial _] from rfl) (silent_armRingStep ..))
  | alarmJanitor =>
    simp only [quiet, reduceAlarmJanitor]
    split_ifs
    · exact mirrors_same rfl silent_nil
    · exact terminalize_mirrors ..
    · exact terminalize_mirrors ..
    · exact terminalize_mirrors ..
  | noticeAnswerOutcome =>
    simp only [quiet, reduceNoticeAnswerOutcome]
    split_ifs
    · exact mirrors_same rfl silent_nil
    · split
      · exact mirrors_same rfl rfl
      · exact ⟨rfl, fun u => rfl⟩
  | vmAnswerOutcome =>
    simp only [quiet, reduceVmAnswerOutcome]
    split_ifs
    · exact mirrors_same rfl silent_nil
    · have hspeak : Silent (ifTruthy m.customerCcid fun ccid =>
          .telnyxSpeak ccid .voicemailGreeting) := silent_ifTruthy _ fun _ => rfl
      exact mirrors_same rfl (hspeak.append (silent_cancelAll m true))
    · exact terminalize_mirrors ..
  | pushFanoutSettled unreachableUserIds =>
    have hclear : Silent [.clearAlarm .fanoutSettle] := rfl
    have hladder : Mirrors m (runAvenueLadder { m with
        wakeAttempted := true
        pushCapableUserIds :=
          m.pushCapableUserIds.filter fun u => !unreachableUserIds.contains u }) :=
      (runAvenueLadder_mirrors _).of_columns rfl
    exact hladder.prepend hclear
  | inboundLegGone =>
    simp only [quiet, reduceInboundLegGone]
    split_ifs
    · exact mirrors_same rfl silent_nil
    · exact terminalize_mirrors ..
  | memberProbeOutcome =>
    simp only [quiet, reduceMemberProbeOutcome]
    split
    · exact mirrors_same rfl silent_nil
    · split
      · exact mirrors_same rfl silent_nil
      · split_ifs
        · exact (runAvenueLadder_mirrors _).of_columns rfl
        · exact mirrors_same rfl (silent_ifTruthy _ fun _ => rfl)

/-! ### The intent that may be stamped -/

/-- The member that an event may make an answer intent of. -/
def SessionEvent.answerer : SessionEvent → Option String
  | .memberLegAnswered _ userId _ | .memberProbeOutcome _ userId _ => some userId
  | _ => none

theorem answerer_of_answersFor {userId : String}
    (h : AnswersFor event userId) : event.answerer = some userId := by
  rcases h with ⟨ccid, destination, rfl⟩ | ⟨ccid, rfl⟩
  · rfl
  · rfl

theorem CoreMove.answerIntent {m c : SessionMachine} (h : CoreMove m event c) :
    c.answerIntent = m.answerIntent ∨ c.answerIntent = none ∨
      ∃ intent, c.answerIntent = some intent ∧ event.answerer = some intent.userId := by
  cases h with
  | @ended n target hn =>
    left
    obtain ⟨owner, atIso, hcore, -⟩ := core_of_ended hn
    rw [hcore]
    rfl
  | pickedUp => exact Or.inr (Or.inl rfl)
  | offered hevent => exact Or.inr (Or.inr ⟨_, rfl, answerer_of_answersFor hevent⟩)
  | _ => exact Or.inl rfl

/-- **The answer intent** is kept, dropped, or made of the member that the event names. -/
theorem machineStep_answerIntent (m : SessionMachine) (i : Input) :
    (machineStep m i).1.answerIntent = m.answerIntent ∨
      (machineStep m i).1.answerIntent = none ∨
        ∃ intent, (machineStep m i).1.answerIntent = some intent ∧
          i.event.answerer = some intent.userId :=
  (machineStep_core m i).answerIntent

theorem probe_answerer {i : Input} {ccid userId : String}
    (h : .telnyxProbeMemberLeg ccid userId ∈ (machineStep m i).2) :
    i.event.answerer = some userId := by
  have hmay := machineStep_mayEmit m i _ h
  obtain ⟨event, nowMs, clockMs, pendingKeyFor⟩ := i
  cases event with
  | memberLegAnswered ccid' userId' destination =>
    simp only [machineStep, reduceMachine, quiet, reduceMemberAnswered] at h
    split at h
    · simp [orphanWarning] at h
    · split_ifs at h
      · simp at h
      · simp at h
      · simp only [List.mem_singleton, Effect.telnyxProbeMemberLeg.injEq] at h
        rw [h.2]
        rfl
      · obtain ⟨_, _, hanswer⟩ := mem_ifTruthy.1 h
        cases hanswer
  | _ => cases hmay

/-! ### Columns of the row and pending patches -/

/-- A column that no pending patch carries is the machine's. -/
def ColumnSynced {α : Type} (pending : Option α) (row machine : α) : Prop :=
  pending = none → row = machine

section Columns

variable {α : Type} {pending : Option α} {row machine : α}

section

variable (h : ColumnSynced pending row machine)
include h

theorem ColumnSynced.landed (set : Option α) :
    ColumnSynced pending (set.getD row) (set.getD machine) := by
  intro hnone
  rw [h hnone]

theorem ColumnSynced.kept (set : Option α) :
    ColumnSynced (set.or pending) row (set.getD machine) := by
  intro hnone
  obtain ⟨rfl, hpending⟩ := Option.or_eq_none_iff.1 hnone
  exact h hpending

theorem ColumnSynced.lost (set : Option α) :
    ColumnSynced (set.or pending) (set.getD row) (set.getD machine) := by
  intro hnone
  obtain ⟨_, hpending⟩ := Option.or_eq_none_iff.1 hnone
  rw [h hpending]

end

/-- A patch carries a value of a column only if it is the machine's. -/
def Current (pending : Option α) (machine : α) : Prop :=
  ∀ value, pending = some value → value = machine

/-- A patch that carries the machine's value, if any, sets the column right. -/
theorem ColumnSynced.replayed (h : ColumnSynced pending row machine)
    (hcurrent : Current pending machine) : pending.getD row = machine := by
  cases hpending : pending with
  | none => exact h hpending
  | some value => exact hcurrent value hpending

theorem ColumnSynced.pinned (h : ColumnSynced pending row machine) :
    (pending.map fun _ => machine).getD row = machine := by
  cases hpending : pending with
  | none => exact h hpending
  | some value => rfl

theorem Current.getD (h : Current pending machine) (row : α) :
    pending.getD row = row ∨ pending.getD row = machine := by
  cases pending with
  | none => exact Or.inl rfl
  | some value => exact Or.inr (h value rfl)

theorem getD_pinned (pending : Option α) (row machine : α) :
    (pending.map fun _ => machine).getD row = row ∨
      (pending.map fun _ => machine).getD row = machine := by
  cases pending with
  | none => exact Or.inl rfl
  | some _ => exact Or.inr rfl

end Columns

/-! ### The pending patch -/

/-- How often a failed write is tried before it is given up. -/
def MAX_MIRROR_ATTEMPTS : ℕ := 12

/-- The failed writes, merged, and how often they have been tried. -/
structure PendingMirror where
  set : MirrorSet
  attempts : ℕ
  deriving DecidableEq

/-- The columns of both patches; the newer one wins. -/
def MirrorSet.over (set prev : MirrorSet) : MirrorSet where
  state := set.state.or prev.state
  answeredByUserId := set.answeredByUserId.or prev.answeredByUserId
  answeredAt := set.answeredAt.or prev.answeredAt
  unattended := set.unattended.or prev.unattended
  noticeSpoken := set.noticeSpoken.or prev.noticeSpoken

/-- What a retry replaces of the patch it carries by the machine's own values. -/
def MirrorSet.pin (set : MirrorSet) (m : SessionMachine) : MirrorSet :=
  { set with
    state := set.state.map fun _ => m.state
    answeredByUserId := set.answeredByUserId.map fun _ => m.answeredByUserId
    answeredAt := set.answeredAt.map fun _ => m.answeredAtIso }

/-- How the database takes a write; a lost one has landed and is reported as failed. -/
inductive MirrorAnswer
  | landed
  | failed
  | lost
  deriving DecidableEq

/-- The row, and the patch that waits for its retry. -/
structure MirrorStore where
  row : Row
  pending : Option PendingMirror
  deriving DecidableEq

namespace MirrorStore

/-- The columns that wait for a retry. -/
def carried (s : MirrorStore) : MirrorSet := (s.pending.map PendingMirror.set).getD {}

/-- What reaches the row. -/
def write (s : MirrorStore) (set : MirrorSet) : MirrorAnswer → MirrorStore
  | .failed => s
  | .landed | .lost => { s with row := s.row.patch set }

/-- A failed write is merged into what is pending. -/
def keep (s : MirrorStore) (set : MirrorSet) : MirrorStore :=
  { s with pending := some ⟨set.over s.carried, (s.pending.map PendingMirror.attempts).getD 1⟩ }

def doMirror (s : MirrorStore) (set : MirrorSet) (answer : MirrorAnswer) : MirrorStore :=
  if answer = .landed then s.write set answer else (s.write set answer).keep set

def doMirrors (s : MirrorStore) : List MirrorSet → (ℕ → MirrorAnswer) → MirrorStore
  | [], _ => s
  | set :: sets, answers => (s.doMirror set (answers 0)).doMirrors sets fun k => answers (k + 1)

/-- The pending patch is written again, with the machine's state, owner and answer stamp.  After
too many failures it is given up. -/
def retryPendingMirror (s : MirrorStore) (machine : Option SessionMachine)
    (answer : MirrorAnswer) : MirrorStore :=
  match s.pending, machine with
  | none, _ => s
  | some _, none => { s with pending := none }
  | some pending, some m =>
    let set := pending.set.pin m
    let written := s.write set answer
    if answer = .landed ∨ pending.attempts + 1 ≥ MAX_MIRROR_ATTEMPTS then
      { written with pending := none }
    else { written with pending := some ⟨set, pending.attempts + 1⟩ }

end MirrorStore

/-- Every column that no pending patch carries is the target's. -/
structure Synced (s : MirrorStore) (target : Row) : Prop where
  state : ColumnSynced (s.carried.state.map some) s.row.state target.state
  answeredByUserId :
    ColumnSynced s.carried.answeredByUserId s.row.answeredByUserId target.answeredByUserId
  answeredAt : ColumnSynced s.carried.answeredAt s.row.answeredAt target.answeredAt
  unattended : ColumnSynced s.carried.unattended s.row.unattended target.unattended
  noticeSpoken : ColumnSynced s.carried.noticeSpoken s.row.noticeSpoken target.noticeSpoken

variable {s : MirrorStore}

theorem synced_of_eq (h : s.row = target) : Synced s target := by
  subst h
  exact ⟨fun _ => rfl, fun _ => rfl, fun _ => rfl, fun _ => rfl, fun _ => rfl⟩

theorem Synced.row_eq (h : Synced s target) (hnone : s.pending = none) : s.row = target := by
  have hcarried : s.carried = {} := by rw [MirrorStore.carried, hnone]; rfl
  obtain ⟨hstate, hby, hat, hunattended, hnotice⟩ := h
  rw [hcarried] at hstate hby hat hunattended hnotice
  obtain ⟨⟨state, by', at', unattended, notice⟩, pending⟩ := s
  obtain ⟨state', by'', at'', unattended', notice'⟩ := target
  obtain rfl : state = state' := hstate rfl
  obtain rfl : by' = by'' := hby rfl
  obtain rfl : at' = at'' := hat rfl
  obtain rfl : unattended = unattended' := hunattended rfl
  obtain rfl : notice = notice' := hnotice rfl
  rfl

/-- **A mirror write** keeps the rest of the columns in step with the machine that made it. -/
theorem Synced.doMirror (h : Synced s target) (set : MirrorSet)
    (answer : MirrorAnswer) : Synced (s.doMirror set answer) (target.patch set) := by
  cases answer with
  | landed =>
    exact ⟨h.state.landed _, h.answeredByUserId.landed _, h.answeredAt.landed _,
      h.unattended.landed _, h.noticeSpoken.landed _⟩
  | failed =>
    refine ⟨?_, h.answeredByUserId.kept _, h.answeredAt.kept _, h.unattended.kept _,
      h.noticeSpoken.kept _⟩
    have hstate := h.state.kept (set.state.map some)
    rwa [← Option.map_or] at hstate
  | lost =>
    refine ⟨?_, h.answeredByUserId.lost _, h.answeredAt.lost _, h.unattended.lost _,
      h.noticeSpoken.lost _⟩
    have hstate := h.state.lost (set.state.map some)
    rwa [← Option.map_or] at hstate

theorem Synced.doMirrors (h : Synced s target) (sets : List MirrorSet)
    (answers : ℕ → MirrorAnswer) :
    Synced (s.doMirrors sets answers) (sets.foldl Row.patch target) := by
  induction sets generalizing s target answers with
  | nil => exact h
  | cons set sets ih => exact ih (h.doMirror set (answers 0)) fun k => answers (k + 1)

/-! ### The retry -/

/-- The columns that the retry does not pin are current. -/
structure RetryCurrent (set : MirrorSet) (m : SessionMachine) : Prop where
  unattended : Current set.unattended m.unattended
  noticeSpoken : Current set.noticeSpoken m.noticeSpoken

/-- Each column is the one before or the machine's. -/
structure Forward (before after machine : Row) : Prop where
  state : after.state = before.state ∨ after.state = machine.state
  answeredByUserId : after.answeredByUserId = before.answeredByUserId ∨
    after.answeredByUserId = machine.answeredByUserId
  answeredAt : after.answeredAt = before.answeredAt ∨ after.answeredAt = machine.answeredAt
  unattended : after.unattended = before.unattended ∨ after.unattended = machine.unattended
  noticeSpoken : after.noticeSpoken = before.noticeSpoken ∨
    after.noticeSpoken = machine.noticeSpoken

theorem forward_refl (row machine : Row) : Forward row row machine :=
  ⟨Or.inl rfl, Or.inl rfl, Or.inl rfl, Or.inl rfl, Or.inl rfl⟩

theorem RetryCurrent.forward {set : MirrorSet} (h : RetryCurrent set m)
    (row : Row) : Forward row (row.patch (set.pin m)) (columns m) where
  state := by
    cases hstate : set.state with
    | none => exact Or.inl (by simp [Row.patch, MirrorSet.pin, hstate])
    | some s => exact Or.inr (by simp [Row.patch, MirrorSet.pin, hstate, columns])
  answeredByUserId := getD_pinned ..
  answeredAt := getD_pinned ..
  unattended := h.unattended.getD _
  noticeSpoken := h.noticeSpoken.getD _

theorem Synced.replayed {pending : PendingMirror}
    (h : Synced s (columns m)) (hpending : s.pending = some pending)
    (hcurrent : RetryCurrent pending.set m) : s.row.patch (pending.set.pin m) = columns m := by
  have hcarried : s.carried = pending.set := by rw [MirrorStore.carried, hpending]; rfl
  obtain ⟨hstate, hby, hat, hunattended, hnotice⟩ := h
  rw [hcarried] at hstate hby hat hunattended hnotice
  have hstate' : ((pending.set.state.map fun _ => m.state).map some).getD s.row.state =
      some m.state := by
    have hpinned := hstate.pinned
    rw [Option.map_map] at hpinned ⊢
    exact hpinned
  unfold Row.patch MirrorSet.pin columns
  simp only [hstate', Row.mk.injEq, true_and]
  exact ⟨hby.pinned, hat.pinned, hunattended.replayed hcurrent.unattended,
    hnotice.replayed hcurrent.noticeSpoken⟩

/-- A retry that fails, or seems to, leaves the columns that wait for it waiting. -/
theorem Synced.retried {pending : PendingMirror} (h : Synced s (columns m))
    (hpending : s.pending = some pending) {row : Row} (attempts : ℕ)
    (hrow : row = s.row ∨ row = columns m) :
    Synced ⟨row, some ⟨pending.set.pin m, attempts⟩⟩ (columns m) := by
  rcases hrow with rfl | rfl
  · have hcarried : s.carried = pending.set := by rw [MirrorStore.carried, hpending]; rfl
    obtain ⟨hstate, hby, hat, hunattended, hnotice⟩ := h
    rw [hcarried] at hstate hby hat hunattended hnotice
    refine ⟨fun hnone => hstate ?_, fun hnone => hby ?_, fun hnone => hat ?_, hunattended, hnotice⟩
    · exact Option.map_eq_none_iff.2 (Option.map_eq_none_iff.1 (Option.map_eq_none_iff.1 hnone))
    · exact Option.map_eq_none_iff.1 hnone
    · exact Option.map_eq_none_iff.1 hnone
  · exact synced_of_eq rfl

/-! ### The object with its row -/

/-- The object, and what it has mirrored. -/
structure MirroredSession where
  session : Session
  store : MirrorStore

/-- A step of the object, each of its mirror writes answered, or the retry. -/
inductive MirrorAction
  | act (action : Action) (answers : ℕ → MirrorAnswer)
  | retry (answer : MirrorAnswer)

/-- What a retry did: the row before it and after it, and the machine's columns. -/
structure Replay where
  before : Row
  after : Row
  machine : Row
  deriving DecidableEq

/-- The step fires the purge, which deletes the pending patch with the rest of the storage. -/
def Session.purges (s : Session) : Action → Bool
  | .fire _ => s.journal.isEmpty && s.due.head? == some .purge
  | _ => false

/-- The retry, which waits until the journal has drained. -/
def MirroredSession.retry (w : MirroredSession) (answer : MirrorAnswer) :
    MirroredSession × List Replay :=
  if w.session.journal.isEmpty then
    let store := w.store.retryPendingMirror w.session.machine answer
    ({ w with store := store },
      (w.session.machine.map fun m => ⟨w.store.row, store.row, columns m⟩).toList)
  else (w, [])

/-- One step of the object with its row. -/
def mirrorStep (w : MirroredSession) : MirrorAction → MirroredSession × List Replay
  | .act action answers =>
    let r := sessionStep w.session action
    let store := w.store.doMirrors (mirrorSets r.2) answers
    ({ session := r.1
       store := if w.session.purges action then { store with pending := none } else store }, [])
  | .retry answer => w.retry answer

/-- How an object begins: it mints the call whose row has just been inserted, or it adopts a call
from a row that others have written. -/
inductive Beginning
  | minted (mint : Mint) (state : Option CallState)
  | adopted (row : AdoptionRow) (raw : Option TelnyxEvent) (mirrored : Row)

/-- The object that has just admitted the event that mints its call. -/
def Session.minting (mint : Mint) : Session where
  machine := none
  journal := [mint.event]
  alarms := fun _ => none
  due := []

/-- A row that was just inserted: nobody has answered, and the flags have their defaults. -/
def insertedRow (state : Option CallState) : Row where
  state := state
  answeredByUserId := none
  answeredAt := none
  unattended := false
  noticeSpoken := false

def Beginning.start : Beginning → MirroredSession
  | .minted mint state => ⟨.minting mint, ⟨insertedRow state, none⟩⟩
  | .adopted row raw mirrored => ⟨.adopted row raw, ⟨mirrored, none⟩⟩

def Beginning.Faithful : Beginning → Prop
  | .minted _ _ => True
  | .adopted row raw mirrored => mirrored = columns (reconstructMachine row raw)

/-- The steps after which the row still follows the machine: members are named, nothing is purged
while a patch is pending, a retry is given up only when it landed, and one that lands carries no
value that the machine has taken back. -/
def MirroredSession.Orderly (w : MirroredSession) : MirrorAction → Prop
  | .act action _ =>
    (∀ event, action = .admitEvent event → event.answerer ≠ some "") ∧
      (w.session.purges action = true → w.store.pending = none)
  | .retry answer => w.session.journal = [] → ∀ m pending, w.session.machine = some m →
      w.store.pending = some pending →
        if answer = .failed then pending.attempts + 1 < MAX_MIRROR_ATTEMPTS
        else Current pending.set.noticeSpoken m.noticeSpoken

/-! ### The mint -/

theorem mint_mirrorSets (mint : Mint) (nowMs : ℤ) (pendingKeyFor : ℕ → String) :
    ∃ set, mirrorSets (mint.start nowMs pendingKeyFor).2 = [set] ∧
      ∀ state, (insertedRow state).patch set = columns (mint.start nowMs pendingKeyFor).1 := by
  have hvm : ∀ m : SessionMachine,
      mirrorSets (vmEntry m).2 = [{ state := some .voicemailGreeting }] := by
    intro m
    have hanswer : Silent (ifTruthy m.customerCcid .telnyxAnswerVm) := silent_ifTruthy _ fun _ => rfl
    unfold vmEntry
    rw [mirrorSets_append, mirrorSets_append, hanswer]
    rfl
  cases mint with
  | inbound context =>
    simp only [Mint.start, reduceInitiated]
    show ∃ set, mirrorSets (initiatedBranch context nowMs pendingKeyFor).2 = [set] ∧ _
    unfold initiatedBranch
    split_ifs
    · exact ⟨_, hvm _, fun _ => rfl⟩
    · have hnotice : ∀ speak : Bool, Silent (if speak then
          [.telnyxAnswerNotice context.inboundCcid] else []) := by
        intro speak
        cases speak <;> rfl
      unfold suspendedStart
      rw [mirrorSets_append, hnotice]
      exact ⟨_, rfl, fun _ => rfl⟩
    · exact ⟨_, rfl, fun _ => rfl⟩
    · exact ⟨_, hvm _, fun _ => rfl⟩
    · have hcap : Silent (if context.dialTargets.length > MAX_LEGS_PER_SESSION then
          [overCapWarning context.dialTargets.length] else []) := by split_ifs <;> rfl
      have hdial : ∀ legs : List LegRecord, Silent (if legs.length > 0 then
          [.telnyxDial (legs.map LegRecord.toDialLeg)] else []) := by
        intro legs
        split_ifs <;> rfl
      unfold ringStart
      simp only [mirrorSets_append]
      rw [hcap, hdial, silent_armRingStep]
      exact ⟨_, rfl, fun _ => rfl⟩
  | outbound context =>
    simp only [Mint.start, reduceOutboundInitiated]
    split
    · exact ⟨_, rfl, fun _ => rfl⟩
    · exact ⟨_, rfl, fun _ => rfl⟩

theorem mint_answerIntent (mint : Mint) (nowMs : ℤ) (pendingKeyFor : ℕ → String) :
    (mint.start nowMs pendingKeyFor).1.answerIntent = none := by
  cases mint with
  | inbound context =>
    simp only [Mint.start, reduceInitiated, initiatedBranch]
    split_ifs <;> rfl
  | outbound context =>
    simp only [Mint.start, reduceOutboundInitiated]
    split <;> rfl

theorem mint_no_probe (mint : Mint) (nowMs : ℤ) (pendingKeyFor : ℕ → String)
    (ccid userId : String) :
    .telnyxProbeMemberLeg ccid userId ∉ (mint.start nowMs pendingKeyFor).2 := by
  intro h
  cases mint with
  | inbound context =>
    have hmay := reduceInitiated_within context nowMs pendingKeyFor _ h
    cases hmay
  | outbound context =>
    simp only [Mint.start, reduceOutboundInitiated] at h
    split at h <;> simp at h

/-! ### What a step leaves pending -/

/-- Patches after which the unattended flag is the one before, whatever it was, do not carry it. -/
theorem unattended_eq_none {sets : List MirrorSet} {row : Row}
    (h : ∀ u, (sets.foldl Row.patch { row with unattended := u }).unattended = u) :
    ∀ set ∈ sets, set.unattended = none := by
  induction sets using List.reverseRecOn with
  | nil => intro set hset; cases hset
  | append_singleton sets last ih =>
    simp only [List.foldl_append, List.foldl_cons, List.foldl_nil] at h
    have hlast : last.unattended = none := by
      cases hcarried : last.unattended with
      | none => rfl
      | some u =>
        have hflip := h (!u)
        rw [Row.patch, hcarried] at hflip
        cases u <;> cases hflip
    have hrest : ∀ set ∈ sets, set.unattended = none := by
      refine ih fun u => ?_
      have hrow := h u
      rwa [Row.patch, hlast] at hrow
    intro set hset
    rcases List.mem_append.1 hset with hset | hset
    · exact hrest set hset
    · rw [List.mem_singleton.1 hset]
      exact hlast

/-- **Patches whose unattended flag is current** leave what is pending of it current. -/
theorem MirrorStore.doMirrors_current {unattended : Bool}
    (h : Current s.carried.unattended unattended) {sets : List MirrorSet}
    (hsets : ∀ set ∈ sets, Current set.unattended unattended) (answers : ℕ → MirrorAnswer) :
    Current (s.doMirrors sets answers).carried.unattended unattended := by
  induction sets generalizing s answers with
  | nil => exact h
  | cons set sets ih =>
    refine ih ?_ (fun next hnext => hsets next (List.mem_cons_of_mem _ hnext)) _
    have hset := hsets set (List.mem_cons_self ..)
    have hover : Current (set.unattended.or s.carried.unattended) unattended := by
      intro u hu
      rcases Option.or_eq_some_iff.1 hu with hu | ⟨_, hu⟩
      · exact hset u hu
      · exact h u hu
    unfold MirrorStore.doMirror
    cases answers 0 with
    | landed => exact h
    | failed => exact hover
    | lost => exact hover

/-! ### Runs -/

/-- The row, the pending patch and the journal fit a machine. -/
structure MirroredSession.Follows (w : MirroredSession) (m : SessionMachine) : Prop where
  synced : Synced w.store (columns m)
  unattended : Current w.store.carried.unattended m.unattended
  intent : IntentNamed m
  journal : ∀ event ∈ w.session.journal, event.answerer ≠ some ""

/-- They fit the object's machine; before the mint nothing has been written. -/
def MirroredSession.Fits (w : MirroredSession) : Prop :=
  match w.session.machine with
  | some m => w.Follows m
  | none => ∃ (mint : Mint) (state : Option CallState), w.session.journal = [mint.event] ∧
      w.store = ⟨insertedRow state, none⟩

variable {w : MirroredSession}

theorem MirroredSession.fits_some (hm : w.session.machine = some m) : w.Fits ↔ w.Follows m := by
  unfold Fits
  rw [hm]

theorem MirroredSession.fits_none (hm : w.session.machine = none) :
    w.Fits ↔ ∃ (mint : Mint) (state : Option CallState), w.session.journal = [mint.event] ∧
      w.store = ⟨insertedRow state, none⟩ := by
  unfold Fits
  rw [hm]

/-- The events that effects report back name the members that the effects ask about. -/
theorem answerer_of_followUp {s : Shell} {answers : ℕ → Answers}
    {userId : String} (h : event ∈ (executeAll s es answers).2)
    (huser : event.answerer = some userId) : ∃ ccid, .telnyxProbeMemberLeg ccid userId ∈ es := by
  obtain ⟨e, he, hfollows⟩ := followsUp_of_mem h
  cases event with
  | memberProbeOutcome ccid userId' alive =>
    obtain rfl : userId' = userId := by simpa [SessionEvent.answerer] using huser
    cases e with
    | telnyxProbeMemberLeg ccid' user =>
      simp only [followsUp, Bool.and_eq_true, beq_iff_eq] at hfollows
      obtain ⟨rfl, rfl⟩ := hfollows
      exact ⟨ccid', he⟩
    | _ => simp [followsUp] at hfollows
  | memberLegAnswered => cases e <;> simp [followsUp] at hfollows
  | _ => cases huser

theorem answerer_alarmEvent {unreachableUserIds : List String} {slot : AlarmKind}
    (h : alarmEvent unreachableUserIds slot = some event) : event.answerer = none := by
  cases slot <;> cases h <;> rfl

namespace MirroredSession

/-- A step that mirrors nothing, and leaves the machine and what is pending alone. -/
theorem Fits.calm {s : Session} (h : w.Fits) (hmachine : s.machine = w.session.machine)
    (hjournal : s.journal = w.session.journal ∨
      w.session.journal = [] ∧ ∀ event ∈ s.journal, event.answerer ≠ some "") :
    Fits ⟨s, w.store⟩ := by
  cases hm : w.session.machine with
  | none =>
    obtain ⟨mint, state, hmint, hstore⟩ := (fits_none hm).1 h
    rcases hjournal with hsame | ⟨hempty, _⟩
    · exact (fits_none (hmachine.trans hm)).2 ⟨mint, state, hsame.trans hmint, hstore⟩
    · rw [hmint] at hempty
      cases hempty
  | some m =>
    have hfollows := (fits_some hm).1 h
    refine (fits_some (hmachine.trans hm)).2
      ⟨hfollows.synced, hfollows.unattended, hfollows.intent, ?_⟩
    rcases hjournal with hsame | ⟨_, hnamed⟩
    · show ∀ event ∈ s.journal, event.answerer ≠ some ""
      rw [hsame]
      exact hfollows.journal
    · exact hnamed

theorem Fits.drain (h : w.Fits) (nowMs clockMs : ℤ) (pendingKeyFor : ℕ → String)
    (answers : ℕ → Answers) (mirrorAnswers : ℕ → MirrorAnswer) :
    (mirrorStep w (.act (.drain nowMs clockMs pendingKeyFor answers) mirrorAnswers)).1.Fits := by
  have hpurge : w.session.purges (.drain nowMs clockMs pendingKeyFor answers) = false := rfl
  rw [mirrorStep]
  simp only [hpurge]
  cases hm : w.session.machine with
  | none =>
    obtain ⟨mint, state, hj, hstore⟩ := (fits_none hm).1 h
    obtain ⟨count, hstep⟩ := sessionStep_start hm hj nowMs clockMs pendingKeyFor answers
    obtain ⟨set, hsets, hset⟩ := mint_mirrorSets mint nowMs pendingKeyFor
    rw [hstep]
    refine (fits_some rfl).2 ⟨?_, ?_, ?_, ?_⟩
    · have hsynced : Synced w.store (insertedRow state) := synced_of_eq (by rw [hstore])
      have hafter := hsynced.doMirrors [set] mirrorAnswers
      rw [List.foldl_cons, hset] at hafter
      rw [hsets]
      exact hafter
    · have hcurrent : Current set.unattended (mint.start nowMs pendingKeyFor).1.unattended := by
        intro u hu
        have hrow := congrArg Row.unattended (hset state)
        rw [Row.patch, hu] at hrow
        exact hrow
      have hnone : Current w.store.carried.unattended
          (mint.start nowMs pendingKeyFor).1.unattended := by
        rw [hstore]
        intro u hu
        cases hu
      refine MirrorStore.doMirrors_current hnone (fun other hother => ?_) mirrorAnswers
      rw [hsets, List.mem_singleton] at hother
      rw [hother]
      exact hcurrent
    · intro intent hintent
      cases (mint_answerIntent mint nowMs pendingKeyFor).symm.trans hintent
    · intro event hevent huser
      obtain ⟨ccid, hprobe⟩ := answerer_of_followUp hevent huser
      exact mint_no_probe mint nowMs pendingKeyFor ccid "" hprobe
  | some m =>
    have hfollows := (fits_some hm).1 h
    cases hj : w.session.journal with
    | nil =>
      have hidle : sessionStep w.session (.drain nowMs clockMs pendingKeyFor answers) =
          (w.session, []) := by simp [sessionStep, Session.drain, hj]
      rw [hidle]
      exact (fits_some hm).2 hfollows
    | cons event rest =>
      obtain ⟨count, hstep⟩ := sessionStep_drain hm hj nowMs clockMs pendingKeyFor answers
      rw [hstep]
      have hnamed : ∀ e ∈ event :: rest, e.answerer ≠ some "" := by
        rw [← hj]
        exact hfollows.journal
      generalize hi : (⟨event, nowMs, clockMs, pendingKeyFor⟩ : Input) = i
      have hhead : i.event.answerer ≠ some "" := by
        rw [← hi]
        exact hnamed event (List.mem_cons_self ..)
      have hmirrors := machineStep_mirrors hfollows.intent i
      refine (fits_some rfl).2 ⟨?_, ?_, ?_, ?_⟩
      · have hafter := hfollows.synced.doMirrors (mirrorSets (machineStep m i).2) mirrorAnswers
        exact hmirrors.row_eq ▸ hafter
      · have hpatched : ∀ u, ((mirrorSets (machineStep m i).2).foldl Row.patch
            { columns m with unattended := u }).unattended = u := fun u =>
          congrArg Row.unattended (hmirrors.patched u)
        have hsets := unattended_eq_none hpatched
        have hcurrent : Current w.store.carried.unattended (machineStep m i).1.unattended := by
          rw [hmirrors.unattended]
          exact hfollows.unattended
        refine MirrorStore.doMirrors_current hcurrent (fun set hset u hu => ?_) mirrorAnswers
        rw [hsets set hset] at hu
        cases hu
      · intro intent hintent
        rcases machineStep_answerIntent m i with hsame | hnone | ⟨made, hmade, huser⟩
        · exact hfollows.intent intent (hsame.symm.trans hintent)
        · cases hnone.symm.trans hintent
        · obtain rfl : made = intent := Option.some.inj (hmade.symm.trans hintent)
          intro hempty
          rw [hempty] at huser
          exact hhead huser
      · intro e he huser
        rcases List.mem_append.1 he with he | he
        · exact hnamed e (List.mem_cons_of_mem _ he) huser
        · obtain ⟨ccid, hprobe⟩ := answerer_of_followUp he huser
          exact hhead (probe_answerer hprobe)

end MirroredSession

namespace MirroredSession

/-- **An orderly retry** keeps the row in step, and moves it forward only. -/
theorem Fits.retry (h : w.Fits) {answer : MirrorAnswer} (ha : w.Orderly (.retry answer)) :
    (w.retry answer).1.Fits ∧
      ∀ replay ∈ (w.retry answer).2, Forward replay.before replay.after replay.machine := by
  unfold MirroredSession.retry
  split_ifs with hidle
  · have hempty : w.session.journal = [] := List.isEmpty_iff.1 hidle
    cases hm : w.session.machine with
    | none =>
      obtain ⟨mint, _, hj, _⟩ := (fits_none hm).1 h
      rw [hempty] at hj
      cases hj
    | some m =>
      have hfollows := (fits_some hm).1 h
      have hafter : ∀ store : MirrorStore, Synced store (columns m) →
          Current store.carried.unattended m.unattended →
          Fits ⟨w.session, store⟩ := by
        intro store hsynced hcurrent
        have hmachine : (MirroredSession.mk w.session store).session.machine = some m := hm
        exact (fits_some hmachine).2 ⟨hsynced, hcurrent, hfollows.intent, hfollows.journal⟩
      cases hpending : w.store.pending with
      | none =>
        -- nothing waits to be written
        have hsame : w.store.retryPendingMirror (some m) answer = w.store := by
          simp only [MirrorStore.retryPendingMirror, hpending]
        simp only [hsame]
        refine ⟨h, fun replay hreplay => ?_⟩
        obtain rfl : replay = ⟨w.store.row, w.store.row, columns m⟩ := by simpa using hreplay
        exact forward_refl ..
      | some pending =>
        have hcarried : w.store.carried = pending.set := by
          rw [MirrorStore.carried, hpending]
          rfl
        have horderly := ha hempty m pending hm hpending
        have hunattended : Current pending.set.unattended m.unattended := by
          rw [← hcarried]
          exact hfollows.unattended
        unfold MirrorStore.retryPendingMirror
        simp only [hpending, Option.map_some, Option.toList_some, List.mem_singleton,
          forall_eq]
        by_cases hfailed : answer = .failed
        · subst hfailed
          rw [if_pos rfl] at horderly
          rw [if_neg (by simp; omega)]
          exact ⟨hafter _ (hfollows.synced.retried hpending _ (Or.inl rfl)) hunattended,
            forward_refl ..⟩
        · rw [if_neg hfailed] at horderly
          have hcurrent : RetryCurrent pending.set m := ⟨hunattended, horderly⟩
          have hwritten : w.store.write (pending.set.pin m) answer =
              { w.store with row := w.store.row.patch (pending.set.pin m) } := by
            cases answer with
            | failed => exact absurd rfl hfailed
            | landed | lost => rfl
          have hrow := hfollows.synced.replayed hpending hcurrent
          rw [hwritten]
          split_ifs
          · refine ⟨hafter _ (synced_of_eq hrow) ?_, hcurrent.forward _⟩
            intro u hu
            cases hu
          · exact ⟨hafter _ (hfollows.synced.retried hpending _ (Or.inr hrow)) hunattended,
              hcurrent.forward _⟩
  · exact ⟨h, fun _ hreplay => by cases hreplay⟩

theorem unpurged {action : Action} {answers : ℕ → MirrorAnswer}
    (ha : w.Orderly (.act action answers)) (hsilent : (sessionStep w.session action).2 = []) :
    (mirrorStep w (.act action answers)).1 = ⟨(sessionStep w.session action).1, w.store⟩ := by
  rw [mirrorStep, hsilent]
  show MirroredSession.mk _ (if _ then { w.store with pending := none } else w.store) = _
  split_ifs with hpurge
  · rw [← ha.2 hpurge]
  · rfl

/-- **An orderly step** keeps the row in step with the machine, and its retry, if it is one, moves
the row forward only. -/
theorem Fits.step (h : w.Fits) {a : MirrorAction} (ha : w.Orderly a) :
    (mirrorStep w a).1.Fits ∧
      ∀ replay ∈ (mirrorStep w a).2, Forward replay.before replay.after replay.machine := by
  cases a with
  | retry answer => exact h.retry ha
  | act action answers =>
    refine ⟨?_, fun _ hreplay => by cases hreplay⟩
    cases action with
    | drain nowMs clockMs pendingKeyFor vendor => exact h.drain ..
    | admitEvent event =>
      rw [unpurged ha rfl]
      rcases admit_eq_or w.session event with hsame | ⟨hempty, _, hadmitted⟩
      · exact h.calm (by rw [sessionStep, hsame]) (Or.inl (by rw [sessionStep, hsame]))
      · refine h.calm (by rw [sessionStep, hadmitted]) (Or.inr ⟨hempty, fun e he => ?_⟩)
        rw [sessionStep, hadmitted, List.mem_singleton] at he
        rw [he]
        exact ha.1 event rfl
    | wake nowMs =>
      rw [unpurged ha rfl]
      rcases wake_eq_or w.session nowMs with hsame | hwake
      · exact h.calm (by rw [sessionStep, hsame]) (Or.inl (by rw [sessionStep, hsame]))
      · exact h.calm (by rw [sessionStep, hwake]) (Or.inl (by rw [sessionStep, hwake]))
    | fire unreachableUserIds =>
      rw [unpurged ha rfl]
      rcases fire_eq_or w.session unreachableUserIds with
        hsame | ⟨slot, due, hempty, _, ⟨event, hevent, hfire⟩ | hpurge⟩
      · exact h.calm (by rw [sessionStep, hsame]) (Or.inl (by rw [sessionStep, hsame]))
      · refine h.calm (by rw [sessionStep, hfire]) (Or.inr ⟨hempty, fun e he => ?_⟩)
        rw [sessionStep, hfire, List.mem_singleton] at he
        rw [he, answerer_alarmEvent hevent]
        simp
      · exact h.calm (by rw [sessionStep, hpurge]) (Or.inl (by rw [sessionStep, hpurge]))

theorem fits_start {b : Beginning} (hb : b.Faithful) : b.start.Fits := by
  cases b with
  | minted mint state => exact (fits_none rfl).2 ⟨mint, state, rfl, rfl⟩
  | adopted row raw mirrored =>
    refine (fits_some rfl).2 ⟨synced_of_eq hb, ?_, ?_, ?_⟩
    · intro u hu
      cases hu
    · intro intent hintent
      cases hintent
    · intro event hevent
      cases hevent

end MirroredSession

/-- **The mirror converges.**  Along every orderly run of an object that minted its call, or
adopted it from a row that says what the machine says: whenever no patch is pending the row is the
machine's, and no retry has ever put a value into the row other than the machine's. -/
theorem mirror_converges {b : Beginning} (hb : b.Faithful) {actions : List MirrorAction}
    (hrun : Reactive.Along mirrorStep MirroredSession.Orderly b.start actions) :
    (∀ m, (Reactive.final mirrorStep b.start actions).session.machine = some m →
        (Reactive.final mirrorStep b.start actions).store.pending = none →
        (Reactive.final mirrorStep b.start actions).store.row = columns m) ∧
      ∀ replay ∈ Reactive.outputs mirrorStep b.start actions,
        Forward replay.before replay.after replay.machine := by
  have hstart : b.start.Fits ∧ ∀ replay ∈ ([] : List Replay),
      Forward replay.before replay.after replay.machine :=
    ⟨MirroredSession.fits_start hb, fun _ hreplay => by cases hreplay⟩
  have hinv := Reactive.outputs_of_inv_along mirrorStep
    (P := fun w out => w.Fits ∧
      ∀ replay ∈ out, Forward replay.before replay.after replay.machine)
    (C := MirroredSession.Orderly)
    (fun w a out h ha => by
      obtain ⟨hfits, hforward⟩ := h.1.step ha
      refine ⟨hfits, fun replay hreplay => ?_⟩
      rcases List.mem_append.1 hreplay with hbefore | hnew
      · exact h.2 replay hbefore
      · exact hforward replay hnew)
    hstart hrun
  refine ⟨fun m hm hnone => ?_, hinv.2⟩
  exact ((MirroredSession.fits_some hm).1 hinv.1).synced.row_eq hnone

/-- A call to a suspended line, turned away with a spoken notice. -/
def noticeCall : InitiatedContext :=
  { crewOfOne with suspendedOrInactive := true, noticeAllowed := true }

/-- The mint's mirror write fails, the notice is answered as the vendor likes and what that mirrors
lands, and the failed patch is retried and lands. -/
def noticeRun (ok : Bool) : List MirrorAction :=
  [.act (.drain 0 0 (fun _ => "key") fun _ => { willing with ok := ok }) fun _ => .failed,
    .act drainOnce fun _ => .landed, .retry .landed]

/-- When the notice was spoken, the row is the machine's. -/
theorem mirror_converges_spoken : ∃ m,
    (Reactive.final mirrorStep (Beginning.minted (.inbound noticeCall) none).start
      (noticeRun true)).session.machine = some m ∧
    (Reactive.final mirrorStep (Beginning.minted (.inbound noticeCall) none).start
      (noticeRun true)).store.row = columns m := by
  have horderly : Reactive.Along mirrorStep MirroredSession.Orderly
      (Beginning.minted (.inbound noticeCall) none).start (noticeRun true) := by
    refine ⟨⟨fun _ h => (by cases h), fun h => (by cases h)⟩,
      ⟨fun _ h => (by cases h), fun h => (by cases h)⟩, fun _ m pending hm hpending => ?_, trivial⟩
    have hmachine := congrArg (Option.map SessionMachine.noticeSpoken) hm
    have hcarried := congrArg (Option.map fun p => PendingMirror.set p |>.noticeSpoken) hpending
    have htrue : m.noticeSpoken = true := by
      refine Option.some.inj (hmachine.symm.trans ?_)
      decide +kernel
    have hset : pending.set.noticeSpoken = some true := by
      refine Option.some.inj (hcarried.symm.trans ?_)
      decide +kernel
    intro u hu
    rw [htrue]
    exact Option.some.inj (hu.symm.trans hset)
  have hmachine : (Reactive.final mirrorStep (Beginning.minted (.inbound noticeCall) none).start
      (noticeRun true)).session.machine.isSome = true := by decide +kernel
  obtain ⟨m, hm⟩ := Option.isSome_iff_exists.1 hmachine
  have hrow := (mirror_converges (b := .minted (.inbound noticeCall) none) trivial horderly).1 m hm
    (by decide +kernel)
  exact ⟨m, hm, hrow⟩

/-- When it was not, the retry puts the value back that the machine had taken back. -/
theorem stale_notice_replayed :
    (Reactive.final mirrorStep (Beginning.minted (.inbound noticeCall) none).start
        (noticeRun false)).store.pending = none ∧
      (Reactive.final mirrorStep (Beginning.minted (.inbound noticeCall) none).start
        (noticeRun false)).store.row.noticeSpoken = true ∧
      (Reactive.final mirrorStep (Beginning.minted (.inbound noticeCall) none).start
        (noticeRun false)).session.machine.map SessionMachine.noticeSpoken = some false := by
  decide +kernel

end Calls
