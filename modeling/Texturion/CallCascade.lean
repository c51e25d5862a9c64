/-
**Honest ringback.**

Under `in_turn` the phones of a crew join the ring one after the other, each on a cascade alarm.  A
phone that waits for its turn counts as an avenue, so the ladder keeps the caller on ringback for
it; that is honest only as long as a cascade step is on its way.  This module proves when it is: the
mint and every cascade step that leave a phone waiting have time for the next step before the ring
deadline, no step is spent at the leg cap, and no placer's hangup takes the last avenue silently.

The bad settings are not exotic.  The accepted ring windows start at ten seconds and a cascade step
takes twelve, so a short window strands the queue at the mint: when the first phone's dial fails the
caller listens to ringback that nobody will ever answer.

Main result:

* `Calls.honest_ringback` — **the caller on ringback is being rung for, or will be before the
  deadline**.
-/

import Texturion.CallBackstop
import Texturion.CallTurnedAway

namespace Calls

open FirstMatch

/-! ### Avenues -/

/-- Somebody is rung, waits to be rung, or may still be woken. -/
def Avenue (m : SessionMachine) : Prop :=
  liveLegs m ≠ [] ∨ m.queuedTargets ≠ [] ∨ m.pushCapableUserIds ≠ []

/-- Nobody in the queue has declined. -/
def Willing (m : SessionMachine) : Prop :=
  ∀ target ∈ m.queuedTargets, target.userId ∉ m.declinedUserIds

/-- Everything but the arming and the cancellation of the cascade alarm. -/
def Effect.keepsRingStep : Effect → Bool
  | .armAlarm .ringStep _ | .clearAlarm .ringStep => false
  | _ => true

/-- The fields that a ring consists of, its legs apart. -/
def SessionMachine.ring (m : SessionMachine) :
    List DialTarget × List String × List String × Option ℤ :=
  (m.queuedTargets, m.pushCapableUserIds, m.declinedUserIds, m.ringDeadlineMs)

theorem ladder_avenue {m : SessionMachine} (h : (runAvenueLadder m).1.state = .ringing) :
    runAvenueLadder m = (m, []) ∧ Avenue m := by
  unfold runAvenueLadder at h ⊢
  split_ifs at h ⊢ with hring hlive hqueue hpush
  · exact absurd h (by simpa using hring)
  · exact ⟨rfl, Or.inl (List.length_pos_iff.1 hlive)⟩
  · exact ⟨rfl, Or.inr (Or.inl (List.length_pos_iff.1 hqueue))⟩
  · exact ⟨rfl, Or.inr (Or.inr (List.length_pos_iff.1 hpush))⟩
  · cases h

abbrev StaysLive (l l' : List LegRecord) : Prop :=
  List.Forall₂ (fun a b : LegRecord => a.status.isLive = true → b.status.isLive = true) l l'

theorem StaysLive.refl (l : List LegRecord) : StaysLive l l :=
  List.forall₂_same.2 fun _ _ hlive => hlive

theorem ne_nil_liveLegs_iff {m : SessionMachine} :
    liveLegs m ≠ [] ↔ ∃ leg ∈ m.legs, leg.status.isLive = true := by
  simp [liveLegs, List.filter_eq_nil_iff]

theorem Avenue.of_staysLive {m n : SessionMachine} (h : Avenue m) (hlegs : StaysLive m.legs n.legs)
    (hring : n.ring = m.ring) : Avenue n := by
  simp only [SessionMachine.ring, Prod.mk.injEq] at hring
  obtain ⟨hqueue, hpush, -, -⟩ := hring
  rcases h with hlive | hwait | hwake
  · obtain ⟨leg, hleg, hup⟩ := ne_nil_liveLegs_iff.1 hlive
    obtain ⟨leg', hleg', hstays⟩ := exists_of_mem_left hlegs hleg
    exact Or.inl (ne_nil_liveLegs_iff.2 ⟨leg', hleg', hstays hup⟩)
  · exact Or.inr (Or.inl (by rw [hqueue]; exact hwait))
  · exact Or.inr (Or.inr (by rw [hpush]; exact hwake))

/-! ### The steps that keep the ring -/

/-- What a step other than a cascade step leaves of a ring it does not end. -/
structure Rings (m : SessionMachine) (r : SessionMachine × List Effect) : Prop where
  avenue : Avenue r.1
  willing : Willing r.1
  queue : r.1.queuedTargets ≠ [] → m.queuedTargets ≠ []
  deadline : r.1.ringDeadlineMs = m.ringDeadlineMs
  alarms : Within Effect.keepsRingStep r.2

variable {m : SessionMachine}

variable {n : SessionMachine} {es : List Effect} {i : Input} {nowMs : ℤ} {alarms : AlarmTable}
  {pendingKeyFor : ℕ → String}

theorem Rings.of_staysLive (havenue : Avenue m) (hwilling : Willing m)
    (hlegs : StaysLive m.legs n.legs) (hring : n.ring = m.ring)
    (hes : Within Effect.keepsRingStep es) : Rings m (n, es) := by
  have hfields := hring
  simp only [SessionMachine.ring, Prod.mk.injEq] at hfields
  obtain ⟨hqueue, -, hdeclined, hdeadline⟩ := hfields
  refine ⟨havenue.of_staysLive hlegs hring, ?_, ?_, hdeadline, hes⟩
  · intro target htarget
    simp only [hqueue, hdeclined] at htarget ⊢
    exact hwilling target htarget
  · rw [hqueue]
    exact id

theorem Rings.of_ladder (es : List Effect) (hwilling : Willing n)
    (hqueue : n.queuedTargets ≠ [] → m.queuedTargets ≠ [])
    (hdeadline : n.ringDeadlineMs = m.ringDeadlineMs) (hes : Within Effect.keepsRingStep es)
    (h : (runAvenueLadder n).1.state = .ringing) :
    Rings m ((runAvenueLadder n).1, es ++ (runAvenueLadder n).2) := by
  obtain ⟨hsame, havenue⟩ := ladder_avenue h
  rw [hsame, List.append_nil]
  exact ⟨havenue, hwilling, hqueue, hdeadline, hes⟩

theorem Rings.ladder (hwilling : Willing m) (hring : n.ring = m.ring)
    (h : (runAvenueLadder n).1.state = .ringing) : Rings m (runAvenueLadder n) := by
  simp only [SessionMachine.ring, Prod.mk.injEq] at hring
  obtain ⟨hqueue, -, hdeclined, hdeadline⟩ := hring
  refine Rings.of_ladder [] ?_ ?_ hdeadline within_nil h
  · intro target htarget
    rw [hqueue] at htarget
    rw [hdeclined]
    exact hwilling target htarget
  · rw [hqueue]
    exact id

theorem ringing_of_step (h : (machineStep m i).1.state = .ringing) : m.state = .ringing := by
  have hlife := machineStep_life m i
  unfold LifeStep at hlife
  rw [h] at hlife
  generalize m.state = s at hlife ⊢
  generalize i.event = event at hlife
  generalize purgeArms (machineStep m i).2 = n at hlife
  generalize mergeOutcomes (machineStep m i).2 = xs at hlife
  cases hlife with
  | stay => rfl
  | live hmove => cases hmove
  | finish _ hout => cases hout

/-- A placer's hangup on a call that somebody else owns kills a leg and asks nobody: it keeps the
ring only where an avenue is left. -/
def SparesAvenue (m : SessionMachine) : SessionEvent → Prop
  | .outboundPlacerHangup ccid userId =>
    m.answeredByUserId = none ∨ m.answeredByUserId = some userId ∨
      Avenue (m.setLegStatus ccid .dead)
  | _ => True

theorem staysLive_resolveLeg (m : SessionMachine) (ccid userId : String)
    (destination : Option String) (mayAdopt : Bool) {wake : LegStatus → LegStatus}
    (hwake : ∀ s : LegStatus, s.isLive = true → (wake s).isLive = true) :
    StaysLive m.legs (resolveLeg m ccid userId destination mayAdopt wake).legs := by
  rcases resolveLeg_eq_or m ccid userId destination mayAdopt wake with
    ⟨_, _, h⟩ | ⟨_, _, _, h⟩ | ⟨_, _, h⟩
  · rw [h]
    exact StaysLive.refl _
  · rw [h]
    exact forall₂_updateFirst _ _ (fun _ hlive => hlive) (fun leg _ => hwake leg.status) m.legs
  · rw [h]
    exact StaysLive.refl _

theorem resolveLeg_ring (m : SessionMachine) (ccid userId : String)
    (destination : Option String) (mayAdopt : Bool) (wake : LegStatus → LegStatus) :
    (resolveLeg m ccid userId destination mayAdopt wake).ring = m.ring := by
  obtain ⟨legs, h⟩ := resolveLeg_eq m ccid userId destination mayAdopt wake
  rw [h]
  rfl

theorem reduceMemberAnswered_rings {ccid userId : String} {destination : Option String}
    {clockMs : ℤ} (havenue : Avenue m) (hwilling : Willing m) :
    Rings m (reduceMemberAnswered m ccid userId destination clockMs) := by
  have hwake : ∀ s : LegStatus, s.isLive = true → (wakeAmbiguous s).isLive = true := by
    intro s hs
    unfold wakeAmbiguous
    split_ifs
    · rfl
    · exact hs
  have hlive := staysLive_resolveLeg m ccid userId destination (m.state == .ringing) hwake
  have hring := resolveLeg_ring m ccid userId destination (m.state == .ringing) wakeAmbiguous
  unfold reduceMemberAnswered
  simp only
  split
  · exact Rings.of_staysLive havenue hwilling hlive hring
      (within_cons.2 ⟨rfl, within_cons.2 ⟨rfl, within_nil⟩⟩)
  · split_ifs
    · exact Rings.of_staysLive havenue hwilling hlive hring (within_cons.2 ⟨rfl, within_nil⟩)
    · exact Rings.of_staysLive havenue hwilling hlive hring within_nil
    · exact Rings.of_staysLive havenue hwilling hlive hring (within_cons.2 ⟨rfl, within_nil⟩)
    · exact Rings.of_staysLive havenue hwilling hlive hring (within_ifTruthy _ fun _ => rfl)

theorem reduceMemberHangup_rings {ccid userId : String} {destination : Option String}
    (hm : m.state = .ringing) (havenue : Avenue m) (hwilling : Willing m)
    (h : (reduceMemberHangup m ccid userId destination).1.state = .ringing) :
    Rings m (reduceMemberHangup m ccid userId destination) := by
  have hlive : StaysLive m.legs
      (resolveLeg m ccid userId destination (m.state == .ringing) id).legs :=
    staysLive_resolveLeg m ccid userId destination (m.state == .ringing) fun _ hs => hs
  have hring := resolveLeg_ring m ccid userId destination (m.state == .ringing) id
  have hstate := resolveLeg_state m ccid userId destination (m.state == .ringing) id
  unfold reduceMemberHangup at h ⊢
  simp only at h ⊢
  split at h
  · exact Rings.of_staysLive havenue hwilling hlive hring within_nil
  · rw [if_neg (by rw [hstate, hm]; simp), if_neg (by rw [hstate, hm]; simp)] at h ⊢
    exact Rings.ladder hwilling hring h

theorem reduceDecline_rings {userId : String} (havenue : Avenue m) (hwilling : Willing m)
    (h : (reduceDecline m userId).machine.state = .ringing) :
    Rings m ((reduceDecline m userId).machine, (reduceDecline m userId).effects) := by
  unfold reduceDecline at h ⊢
  split_ifs at h ⊢
  · exact Rings.of_staysLive havenue hwilling (StaysLive.refl _) rfl within_nil
  · exact Rings.of_staysLive havenue hwilling (StaysLive.refl _) rfl within_nil
  · have hswept : Within Effect.keepsRingStep (withoutMember m userId).2 :=
      within_of_isHangup (sweepLegs_within (declineLeg_within userId) m) fun _ _ => rfl
    refine Rings.of_ladder _ (fun target htarget => ?_) ?_ rfl hswept h
    · obtain ⟨hqueued, hother⟩ := List.mem_filter.1 htarget
      have hold := hwilling target hqueued
      have hne : target.userId ≠ userId := by simpa using hother
      show target.userId ∉ if m.declinedUserIds.contains userId then m.declinedUserIds
        else m.declinedUserIds ++ [userId]
      split_ifs
      · exact hold
      · simpa using ⟨hold, hne⟩
    · rintro hleft hnone
      exact hleft (by simp [withoutMember, hnone])

theorem reduceDialOutcome_rings {key : String} {ccid : Option String} {failure : Option DialFailure}
    (hdir : m.direction = .inbound) (havenue : Avenue m) (hwilling : Willing m)
    (h : (reduceDialOutcome m key ccid failure nowMs).1.state = .ringing) :
    Rings m (reduceDialOutcome m key ccid failure nowMs) := by
  rcases reduceDialOutcome_cases m key ccid failure nowMs with
    ⟨_, hr⟩ | ⟨leg, _, ⟨landed, _, hr⟩ | ⟨_, _, hr⟩ | ⟨_, hout, _⟩ | ⟨_, hout, _⟩⟩
  · rw [hr]
    exact Rings.of_staysLive havenue hwilling (StaysLive.refl _) rfl within_nil
  · rw [hr]
    refine Rings.of_staysLive havenue hwilling ?_ rfl within_nil
    refine forall₂_updateFirst _ _ (fun _ hlive => hlive) (fun leg _ hlive => ?_) m.legs
    unfold landLeg
    simp only
    split_ifs
    · rfl
    · exact hlive
  · rw [hr] at h ⊢
    exact Rings.ladder hwilling rfl h
  · rw [hdir] at hout
    cases hout
  · rw [hdir] at hout
    cases hout

theorem missedState_ne_ringing (m : SessionMachine) : missedState m ≠ .ringing := by
  unfold missedState
  split_ifs <;> decide

/-- **A step that keeps the ring**, other than a cascade step, keeps an avenue open, leaves the
deadline and the cascade alarm alone and puts nobody on the queue. -/
theorem machineStep_rings (hdir : m.direction = .inbound) (havenue : Avenue m)
    (hwilling : Willing m) (hevent : i.event ≠ .alarmRingStep) (hspares : SparesAvenue m i.event)
    (h : (machineStep m i).1.state = .ringing) : Rings m (machineStep m i) := by
  have hring := ringing_of_step h
  -- the ring's fields are left alone, and the effects come from the event's table
  have hsame : ∀ {n : SessionMachine} {es : List Effect}, n.legs = m.legs → n.ring = m.ring →
      Within Effect.keepsRingStep es → Rings m (n, es) := by
    intro n es hlegs hfields hes
    exact Rings.of_staysLive havenue hwilling (by rw [hlegs]; exact StaysLive.refl _) hfields hes
  unfold machineStep reduceMachine at h ⊢
  cases hi : i.event with
  | alarmRingStep => exact absurd hi hevent
  | initiated | outboundInitiated => exact hsame rfl rfl within_nil
  | setOwner | registerIntent => exact hsame rfl rfl (within_cons.2 ⟨rfl, within_nil⟩)
  | memberLegAnswered => exact reduceMemberAnswered_rings havenue hwilling
  | memberLegHangup =>
    rw [hi] at h
    exact reduceMemberHangup_rings hring havenue hwilling h
  | decline =>
    rw [hi] at h
    exact reduceDecline_rings havenue hwilling h
  | dialOutcome =>
    rw [hi] at h
    exact reduceDialOutcome_rings hdir havenue hwilling h
  | pushFanoutSettled =>
    rw [hi] at h
    have hes : Within Effect.keepsRingStep [.clearAlarm .fanoutSettle] :=
      within_cons.2 ⟨rfl, within_nil⟩
    exact Rings.of_ladder [.clearAlarm .fanoutSettle] hwilling id rfl hes h
  | memberProbeOutcome ccid userId alive =>
    rw [hi] at h
    simp only [quiet, reduceMemberProbeOutcome] at h ⊢
    rw [if_neg (by simp [hring])] at h ⊢
    split at h
    · exact hsame rfl rfl within_nil
    · split at h
      · rename_i halive
        rw [if_pos halive]
        exact Rings.ladder hwilling rfl h
      · rename_i halive
        rw [if_neg halive]
        exact hsame rfl rfl (within_ifTruthy _ fun _ => rfl)
  | ringMe userId sipUsername noLocalLeg =>
    simp only [reduceRingMe]
    cases hrefusal : ringMeRefusal m userId noLocalLeg i.nowMs with
    | some reason =>
      exact hsame rfl rfl (within_ite (within_cons.2 ⟨rfl, within_nil⟩) within_nil)
    | none =>
      refine ⟨?_, hwilling, id, rfl, within_cons.2 ⟨rfl, within_nil⟩⟩
      exact Or.inl (ne_nil_liveLegs_iff.2
        ⟨_, List.mem_append_right _ (List.mem_singleton_self _), rfl⟩)
  | outboundPlacerHangup ccid userId =>
    rw [hi] at h hspares
    simp only [quiet, reduceOutboundPlacerHangup] at h ⊢
    rw [if_neg (by simp [hring, isTerminal])] at h ⊢
    split_ifs at h ⊢ with howned hanswered
    · -- a call that somebody else owns
      simp only [setLegStatus_answeredByUserId, Bool.and_eq_true, bne_iff_ne] at howned
      have hleft : Avenue (m.setLegStatus ccid .dead) :=
        (hspares.resolve_left howned.1).resolve_left howned.2
      exact ⟨hleft, hwilling, id, rfl, within_nil⟩
    · simp [hring] at hanswered
    · simp [hring] at hanswered
    · simp at h
  | inboundHangup tag briAnsweredAtIso payload =>
    rw [hi] at h
    simp only [quiet, reduceInboundHangup] at h
    rw [if_neg (by simp [hring, isTerminal])] at h
    cases tag with
    | bri => simp at h
    | vmi => simp at h
    | untagged => simp [hring, missedState_ne_ringing] at h
  | outboundHangup =>
    rw [hi] at h
    simp only [quiet, reduceOutboundHangup] at h
    rw [if_neg (by simp [hring, isTerminal])] at h
    rw [terminalize_state] at h
    split_ifs at h
  | answerOutcome ok =>
    rw [hi] at h
    simp only [quiet, reduceAnswerOutcome] at h
    rw [if_neg (by simp [hring])] at h
    cases ok with
    | true => cases h
    | false => simp [missedState_ne_ringing] at h
  | alarmRing =>
    rw [hi] at h
    simp [quiet, reduceAlarmRing, hring] at h
  | alarmJanitor =>
    rw [hi] at h
    simp [quiet, reduceAlarmJanitor, hring, isTerminal, missedState_ne_ringing] at h
  | outboundAnswered =>
    simp only [quiet, reduceOutboundAnswered, hdir]
    exact hsame rfl rfl within_nil
  | outboundPlacerAnswered =>
    simp only [quiet, reduceOutboundPlacerAnswered, hdir]
    exact hsame rfl rfl (within_cons.2 ⟨rfl, within_nil⟩)
  | speakEnded =>
    simp only [quiet, reduceSpeakEnded, hring]
    split_ifs
    · exact hsame rfl rfl (within_ifTruthy _ fun _ => rfl)
    · exact hsame rfl rfl within_nil
    · simp at *
  | recordingSaved =>
    simp only [quiet, reduceRecordingSaved, hring]
    exact hsame rfl rfl within_nil
  | clearIntent | alarmIntentExpiry =>
    simp only [quiet, reduceIntentOver, hring]
    exact hsame rfl rfl (within_cons.2 ⟨rfl, within_nil⟩)
  | noticeAnswerOutcome ok =>
    simp only [quiet, reduceNoticeAnswerOutcome]
    split_ifs
    · exact hsame rfl rfl within_nil
    · split
      · exact hsame rfl rfl (within_cons.2 ⟨rfl, within_nil⟩)
      · exact hsame rfl rfl (within_cons.2 ⟨rfl, within_nil⟩)
  | vmAnswerOutcome =>
    simp only [quiet, reduceVmAnswerOutcome, hring]
    exact hsame rfl rfl within_nil
  | inboundLegGone =>
    simp only [quiet, reduceInboundLegGone, hring]
    exact hsame rfl rfl within_nil

/-! ### The cascade -/

def ArmedInTime (m : SessionMachine) (alarms : AlarmTable) : Prop :=
  ∃ atMs deadline, alarms .ringStep = some atMs ∧ m.ringDeadlineMs = some deadline ∧
    atMs < deadline

/-- **What a caller on ringback may hope for**: a live leg, a push-capable member, or a waiting
phone whose turn comes before the deadline. -/
def HonestRingback (m : SessionMachine) (alarms : AlarmTable) : Prop :=
  liveLegs m ≠ [] ∨ m.pushCapableUserIds ≠ [] ∨
    ((∃ target ∈ m.queuedTargets, target.userId ∉ m.declinedUserIds) ∧ ArmedInTime m alarms)

/-- The invariant of a ringing machine: an avenue is open, nobody in the queue has declined, and
while somebody waits a cascade step is next on the journal or armed in time. -/
structure Cascading (m : SessionMachine) (journal : List SessionEvent) (alarms : AlarmTable) :
    Prop where
  avenue : Avenue m
  willing : Willing m
  deadline : ∃ atMs, m.ringDeadlineMs = some atMs
  coming : m.queuedTargets ≠ [] → journal.head? = some .alarmRingStep ∨ ArmedInTime m alarms

theorem Cascading.honest (h : Cascading m [] alarms) : HonestRingback m alarms := by
  rcases h.avenue with hlive | hwait | hwake
  · exact Or.inl hlive
  · have harmed : ArmedInTime m alarms := (h.coming hwait).resolve_left (by simp)
    obtain ⟨target, htarget⟩ := List.exists_mem_of_ne_nil _ hwait
    exact Or.inr (Or.inr ⟨⟨target, htarget, h.willing target htarget⟩, harmed⟩)
  · exact Or.inr (Or.inl hwake)

def HasTime (m : SessionMachine) (nowMs : ℤ) : Prop :=
  ∀ deadline, m.ringDeadlineMs = some deadline → nowMs + RING_STEP_SECS * 1000 < deadline

/-- A cascade step is below the leg cap and leaves time for the next one if it leaves anybody
waiting; at the cap it takes the last phone off the queue while somebody else is rung. -/
def StepsInTime (m : SessionMachine) (nowMs : ℤ) : Prop :=
  m.state = .ringing → ∀ target rest, waitingTargets m = target :: rest →
    (m.legs.length < MAX_LEGS_PER_SESSION ∧ (rest ≠ [] → HasTime m nowMs)) ∨
      (rest = [] ∧ (liveLegs m ≠ [] ∨ m.pushCapableUserIds ≠ []))

/-- The phones that the mint leaves waiting. -/
def queuedAtStart (context : InitiatedContext) : List DialTarget :=
  (ringTargets context).drop (ringNow context).length

/-- **The steps that keep the ringback honest**: a mint that leaves phones waiting has a window
longer than one cascade step, every cascade step is in time, and a placer's hangup takes no last
avenue. -/
def KeepsRinging (s : Session) : Action → Prop
  | .drain nowMs _ _ _ =>
    match s.machine, s.journal with
    | none, .initiated context :: _ =>
      queuedAtStart context ≠ [] → RING_STEP_SECS * 1000 < ringWindowMs context.ringSeconds
    | some m, event :: _ =>
      (event = .alarmRingStep → StepsInTime m nowMs) ∧
        (m.state = .ringing → SparesAvenue m event)
    | _, _ => True
  | _ => True

theorem armRingStep_of_hasTime (hqueue : m.queuedTargets ≠ []) (htime : HasTime m nowMs) :
    armRingStep m nowMs = [.armAlarm .ringStep (nowMs + RING_STEP_SECS * 1000)] := by
  unfold armRingStep
  rw [if_neg (by simpa using hqueue)]
  cases hdeadline : m.ringDeadlineMs with
  | none => rfl
  | some deadline =>
    have hlt := htime deadline hdeadline
    simp only
    rw [if_neg (by omega)]

theorem waitingTargets_of_willing (hwilling : Willing m) : waitingTargets m = m.queuedTargets :=
  List.filter_eq_self.2 fun target htarget => by simpa using hwilling target htarget

/-- A cascade step with a willing phone waiting takes it off the queue and, below the cap, dials
it. -/
theorem reduceAlarmRingStep_cons {target : DialTarget} {rest : List DialTarget}
    (hring : m.state = .ringing) (hwait : waitingTargets m = target :: rest)
    (pendingKeyFor : ℕ → String) :
    reduceAlarmRingStep m nowMs pendingKeyFor =
      if m.legs.length ≥ MAX_LEGS_PER_SESSION then ({ m with queuedTargets := rest }, [])
      else
        ({ m with queuedTargets := rest,
                  legs := m.legs ++ [dialLegFor target nowMs (pendingKeyFor 0)] },
          .telnyxDial [(dialLegFor target nowMs (pendingKeyFor 0)).toDialLeg] ::
            armRingStep { m with
              queuedTargets := rest
              legs := m.legs ++ [dialLegFor target nowMs (pendingKeyFor 0)] } nowMs) := by
  unfold waitingTargets at hwait
  unfold reduceAlarmRingStep
  rw [if_neg (by simp [hring])]
  simp only [hwait]

/-- **A cascade step in time** keeps the cascade going. -/
theorem cascading_ringStep {journal : List SessionEvent} (hring : m.state = .ringing)
    (havenue : Avenue m) (hwilling : Willing m) (hdeadline : ∃ atMs, m.ringDeadlineMs = some atMs)
    (htime : StepsInTime m nowMs) :
    Cascading (reduceAlarmRingStep m nowMs pendingKeyFor).1 journal
      ((reduceAlarmRingStep m nowMs pendingKeyFor).2.foldl promise alarms) := by
  have hwaiting := waitingTargets_of_willing hwilling
  cases hqueue : m.queuedTargets with
  | nil =>
    have hnone : reduceAlarmRingStep m nowMs pendingKeyFor = (m, []) := by
      simp [reduceAlarmRingStep, hring, hqueue]
    rw [hnone]
    exact ⟨havenue, hwilling, hdeadline, fun hwait => absurd hqueue hwait⟩
  | cons target rest =>
    rw [hqueue] at hwaiting
    have hrest : Willing { m with queuedTargets := rest } := fun target' htarget =>
      hwilling target' (by rw [hqueue]; exact List.mem_cons_of_mem _ htarget)
    have hfirst := htime hring target rest hwaiting
    rw [reduceAlarmRingStep_cons hring hwaiting]
    by_cases hcap : m.legs.length ≥ MAX_LEGS_PER_SESSION
    · obtain ⟨rfl, hother⟩ := hfirst.resolve_left fun h => absurd h.1 (by omega)
      rw [if_pos hcap]
      refine ⟨?_, hrest, hdeadline, fun hwait => absurd rfl hwait⟩
      rcases hother with hlive | hwake
      · exact Or.inl hlive
      · exact Or.inr (Or.inr hwake)
    · rw [if_neg hcap]
      refine ⟨?_, hrest, hdeadline, fun hwait => Or.inr ?_⟩
      · exact Or.inl (ne_nil_liveLegs_iff.2
          ⟨_, List.mem_append_right _ (List.mem_singleton_self _), rfl⟩)
      · have hleft : HasTime m nowMs := by
          rcases hfirst with ⟨_, h⟩ | ⟨h, _⟩
          · exact h hwait
          · exact absurd h hwait
        obtain ⟨deadline, hd⟩ := hdeadline
        refine ⟨nowMs + RING_STEP_SECS * 1000, deadline, ?_, hd, hleft deadline hd⟩
        have harm := armRingStep_of_hasTime (m := { m with
          queuedTargets := rest
          legs := m.legs ++ [dialLegFor target nowMs (pendingKeyFor 0)] }) hwait hleft
        rw [harm]
        simp [promise]

/-! ### The alarm table after a step -/

theorem foldl_promise_ringStep {table : AlarmTable}
    (h : Within Effect.keepsRingStep es) : es.foldl promise table .ringStep = table .ringStep := by
  induction es generalizing table with
  | nil => rfl
  | cons e es ih =>
    obtain ⟨he, hes⟩ := within_cons.1 h
    rw [List.foldl_cons, ih hes]
    cases e with
    | armAlarm slot atMs =>
      have hslot : AlarmKind.ringStep ≠ slot := by
        rintro rfl
        cases he
      exact Function.update_of_ne hslot _ _
    | clearAlarm slot =>
      have hslot : AlarmKind.ringStep ≠ slot := by
        rintro rfl
        cases he
      exact Function.update_of_ne hslot _ _
    | pushFanout =>
      have hslot : AlarmKind.ringStep ≠ .fanoutSettle := by decide
      exact Function.update_of_ne hslot _ _
    | _ => rfl

theorem foldl_promise_purge {table : AlarmTable} (h : es.foldl promise table .purge ≠ none) :
    table .purge ≠ none ∨ ∃ atMs, .armAlarm .purge atMs ∈ es := by
  obtain ⟨atMs, hatMs⟩ := Option.ne_none_iff_exists'.1 h
  rcases foldl_promise_of_some hatMs with htable | harms
  · exact Or.inl (by rw [htable]; exact Option.some_ne_none atMs)
  · exact Or.inr ⟨atMs, harms⟩

/-- **A drained step** of a machine whose ring is honest. -/
theorem Cascading.step {rest : List SessionEvent} (h : Cascading m (i.event :: rest) alarms)
    (hdir : m.direction = .inbound) (htime : i.event = .alarmRingStep → StepsInTime m i.nowMs)
    (hspares : m.state = .ringing → SparesAvenue m i.event)
    (hstill : (machineStep m i).1.state = .ringing) (journal : List SessionEvent) :
    Cascading (machineStep m i).1 journal ((machineStep m i).2.foldl promise alarms) := by
  have hring := ringing_of_step hstill
  by_cases hevent : i.event = .alarmRingStep
  · have hstep : machineStep m i = reduceAlarmRingStep m i.nowMs i.pendingKeyFor := by
      simp [machineStep, reduceMachine, hevent, quiet]
    rw [hstep]
    exact cascading_ringStep hring h.avenue h.willing h.deadline (htime hevent)
  · have hrings := machineStep_rings hdir h.avenue h.willing hevent (hspares hring) hstill
    refine ⟨hrings.avenue, hrings.willing, by rw [hrings.deadline]; exact h.deadline, ?_⟩
    intro hwait
    right
    rcases h.coming (hrings.queue hwait) with hnext | ⟨atMs, deadline, harmed, hdeadline, hlt⟩
    · exact absurd (Option.some.inj hnext) hevent
    · refine ⟨atMs, deadline, ?_, hrings.deadline.trans hdeadline, hlt⟩
      rw [foldl_promise_ringStep hrings.alarms]
      exact harmed

/-! ### The mint -/

theorem length_rotateForFairness {α : Type} (items : List α) (seed : String) :
    (rotateForFairness items seed).length = items.length := by
  unfold rotateForFairness
  simp only [List.length_append, List.length_drop, List.length_take]
  omega

/-- A crew with a phone has one that may ring, and one that rings at once. -/
theorem ringNow_ne_nil {context : InitiatedContext} (h : context.dialTargets ≠ []) :
    ringNow context ≠ [] := by
  have hlen : 0 < context.dialTargets.length := List.length_pos_iff.2 h
  have htargets : 0 < (ringTargets context).length := by
    unfold ringTargets
    split_ifs
    · rw [List.length_take, length_rotateForFairness]
      exact lt_min (by decide) hlen
    · exact hlen
  rw [← List.length_pos_iff]
  unfold ringNow
  split_ifs
  · rw [List.length_take]
    omega
  · exact htargets

theorem ringStart_avenue {context : InitiatedContext}
    (h : ¬(context.dialTargets.length = 0 ∧ context.pushAudience.length = 0)) :
    Avenue (ringStart context nowMs pendingKeyFor).1 := by
  by_cases hphones : context.dialTargets = []
  · have hpush : context.pushAudience ≠ [] := by
      intro hnone
      exact h ⟨by rw [hphones]; rfl, by rw [hnone]; rfl⟩
    exact Or.inr (Or.inr hpush)
  · obtain ⟨first, others, hring⟩ := List.exists_cons_of_ne_nil (ringNow_ne_nil hphones)
    refine Or.inl (ne_nil_liveLegs_iff.2 ⟨dialLegFor first nowMs (pendingKeyFor 0), ?_, rfl⟩)
    simp [ringStart, hring]

/-- The cascade alarm of a mint that leaves phones waiting, with time for it. -/
theorem ringStart_armed {context : InitiatedContext} (hqueue : queuedAtStart context ≠ [])
    (htime : RING_STEP_SECS * 1000 < ringWindowMs context.ringSeconds) (table : AlarmTable) :
    ArmedInTime (ringStart context nowMs pendingKeyFor).1
      ((ringStart context nowMs pendingKeyFor).2.foldl promise table) := by
  refine ⟨nowMs + RING_STEP_SECS * 1000, nowMs + ringWindowMs context.ringSeconds, ?_, rfl,
    by omega⟩
  have hleft : HasTime (ringStart context nowMs pendingKeyFor).1 nowMs := by
    intro deadline hdeadline
    obtain rfl : nowMs + ringWindowMs context.ringSeconds = deadline := Option.some.inj hdeadline
    omega
  have harm := armRingStep_of_hasTime (m := (ringStart context nowMs pendingKeyFor).1) hqueue hleft
  unfold ringStart at harm ⊢
  simp only at harm ⊢
  rw [harm, List.foldl_append]
  simp [promise]

theorem cascading_mint {context : InitiatedContext} (haway : turnsAway context = false)
    (htime : queuedAtStart context ≠ [] →
      RING_STEP_SECS * 1000 < ringWindowMs context.ringSeconds)
    (hring : (reduceInitiated context nowMs pendingKeyFor).1.state = .ringing)
    (journal : List SessionEvent) (table : AlarmTable) :
    Cascading (reduceInitiated context nowMs pendingKeyFor).1 journal
      ((reduceInitiated context nowMs pendingKeyFor).2.foldl promise table) := by
  unfold reduceInitiated initiatedBranch at hring ⊢
  simp only [turnsAway, Bool.and_eq_false_iff, Bool.not_eq_false', Bool.or_eq_false_iff] at haway
  split_ifs at hring ⊢ with hvm hsuspended hcap hnobody
  · cases hring
  · rcases haway with haway | ⟨haway, _⟩
    · exact absurd haway hvm
    · rw [hsuspended] at haway
      cases haway
  · rcases haway with haway | ⟨_, haway⟩
    · exact absurd haway hvm
    · rw [hcap] at haway
      cases haway
  · cases hring
  · refine ⟨ringStart_avenue hnobody, fun _ _ hdeclined => (by cases hdeclined), ⟨_, rfl⟩, ?_⟩
    intro hwait
    exact Or.inr (ringStart_armed hwait (htime hwait) _)

/-! ### The invariant of the object -/

/-- **The invariant of the object**: a ringing machine's cascade goes on, and the purge, which would
take the cascade alarm with it, waits for calls that have ended. -/
structure Session.Cascades (context : InitiatedContext) (s : Session) : Prop where
  mint : s.machine = none → s.journal = [.initiated context]
  inbound : ∀ m, s.machine = some m → m.direction = .inbound
  ring : ∀ m, s.machine = some m → m.state = .ringing → Cascading m s.journal s.alarms
  purge : s.alarms .purge ≠ none ∨ .purge ∈ s.due → Ended s.machine

variable {s : Session} {context : InitiatedContext}

/-- An arrival or a fired alarm finds the journal empty, so the cascade alarm is armed. -/
theorem Cascading.raise {alarms alarms' : AlarmTable} {event : SessionEvent}
    (h : Cascading m [] alarms)
    (hkeeps : event = .alarmRingStep ∨ alarms' .ringStep = alarms .ringStep) :
    Cascading m [event] alarms' := by
  refine ⟨h.avenue, h.willing, h.deadline, fun hwait => ?_⟩
  rcases hkeeps with rfl | hsame
  · exact Or.inl rfl
  · obtain ⟨atMs, deadline, harmed, hdeadline, hlt⟩ := (h.coming hwait).resolve_left (by simp)
    exact Or.inr ⟨atMs, deadline, hsame.trans harmed, hdeadline, hlt⟩

/-- Nothing but the command count of the machine changes when its effects are executed. -/
theorem cascading_withCount {journal : List SessionEvent} {count : ℕ}
    (h : Cascading m journal alarms) : Cascading (m.withCount count) journal alarms :=
  ⟨h.avenue, h.willing, h.deadline, h.coming⟩

theorem Session.Cascades.fire (h : s.Cascades context) (unreachableUserIds : List String) :
    (s.fire unreachableUserIds).Cascades context := by
  rcases fire_eq_or s unreachableUserIds with
    hsame | ⟨slot, due, hempty, hdue, ⟨event, hevent, hfire⟩ | hpurge⟩
  · rw [hsame]
    exact h
  · have hminted : s.machine ≠ none := by
      intro hnone
      rw [h.mint hnone] at hempty
      cases hempty
    rw [hfire]
    refine ⟨fun hnone => absurd hnone hminted, h.inbound, fun m hm hring => ?_, ?_⟩
    · have hcascade := h.ring m hm hring
      rw [hempty] at hcascade
      refine hcascade.raise ?_
      by_cases hslot : slot = .ringStep
      · subst hslot
        exact Or.inl (Option.some.inj hevent).symm
      · exact Or.inr (Function.update_of_ne (Ne.symm hslot) _ _)
    · rintro (htable | hin)
      · have hslot : AlarmKind.purge ≠ slot := by
          rintro rfl
          cases hevent
        have hother : Function.update s.alarms slot none .purge = s.alarms .purge :=
          Function.update_of_ne hslot _ _
        exact h.purge (Or.inl (by rw [← hother]; exact htable))
      · exact h.purge (Or.inr (by rw [hdue]; exact List.mem_cons_of_mem _ hin))
  · -- only the purge empties the table, and it was due
    have hslot : slot = .purge := by
      by_contra hne
      have hadmits : ∃ event, alarmEvent unreachableUserIds slot = some event := by
        cases slot <;> first | exact ⟨_, rfl⟩ | exact absurd rfl hne
      obtain ⟨event, hevent⟩ := hadmits
      have hjournal := congrArg Session.journal hpurge
      simp [Session.fire, hempty, hdue, fireSlot, hevent] at hjournal
    have hended : Ended s.machine := h.purge (Or.inr (by rw [hdue, hslot]; simp))
    rw [hpurge]
    refine ⟨fun hnone => ?_, h.inbound, fun m hm hring => ?_, ?_⟩
    · rw [h.mint hnone] at hempty
      cases hempty
    · obtain ⟨n, hn, hterminal⟩ := hended
      obtain rfl : m = n := Option.some.inj (hm.symm.trans hn)
      rw [hring] at hterminal
      cases hterminal
    · rintro (htable | hin)
      · exact absurd rfl htable
      · cases hin

theorem Session.Cascades.drain (h : s.Cascades context) (haway : turnsAway context = false)
    {nowMs clockMs : ℤ} {answers : ℕ → Answers}
    (hkeeps : KeepsRinging s (.drain nowMs clockMs pendingKeyFor answers)) :
    (sessionStep s (.drain nowMs clockMs pendingKeyFor answers)).1.Cascades context := by
  unfold KeepsRinging at hkeeps
  cases hm : s.machine with
  | none =>
    have hj := h.mint hm
    obtain ⟨count, hstep⟩ := sessionStep_mint hm hj nowMs clockMs pendingKeyFor answers
    rw [hm, hj] at hkeeps
    rw [hstep, executeAll_promise]
    refine ⟨fun hnone => (by cases hnone), fun m hm' => ?_, fun m hm' hring => ?_, ?_⟩
    · obtain rfl := Option.some.inj hm'
      show (reduceInitiated context nowMs pendingKeyFor).1.direction = .inbound
      unfold reduceInitiated initiatedBranch
      split_ifs <;> rfl
    · obtain rfl := Option.some.inj hm'
      exact cascading_withCount (cascading_mint haway hkeeps hring _ _)
    · rintro (htable | hin)
      · rcases foldl_promise_purge htable with hbefore | ⟨atMs, harms⟩
        · obtain ⟨n, hn, _⟩ := h.purge (Or.inl hbefore)
          rw [hm] at hn
          cases hn
        · exact absurd harms ((mint_janitor (.inbound context) nowMs pendingKeyFor).2.2 atMs)
      · obtain ⟨n, hn, _⟩ := h.purge (Or.inr hin)
        rw [hm] at hn
        cases hn
  | some m =>
    cases hj : s.journal with
    | nil =>
      have hidle : sessionStep s (.drain nowMs clockMs pendingKeyFor answers) = (s, []) := by
        simp [sessionStep, Session.drain, hj]
      rw [hidle]
      exact h
    | cons event rest =>
      obtain ⟨count, hstep⟩ := sessionStep_drain hm hj nowMs clockMs pendingKeyFor answers
      rw [hm, hj] at hkeeps
      have hdir := h.inbound m hm
      rw [hstep, executeAll_promise]
      refine ⟨fun hnone => (by cases hnone), fun n hn => ?_, fun n hn hring => ?_, ?_⟩
      · obtain rfl := Option.some.inj hn
        exact (identity_direction (machineStep_identity m _)).trans hdir
      · obtain rfl := Option.some.inj hn
        have hbefore := h.ring m hm (ringing_of_step hring)
        rw [hj] at hbefore
        exact cascading_withCount (Cascading.step (i := ⟨event, nowMs, clockMs, pendingKeyFor⟩)
          hbefore hdir hkeeps.1 hkeeps.2 hring _)
      · have hended : s.alarms .purge ≠ none ∨ .purge ∈ s.due → Ended (some
            ((machineStep m ⟨event, nowMs, clockMs, pendingKeyFor⟩).1.withCount count)) := by
          intro hnear
          obtain ⟨n, hn, hterminal⟩ := h.purge hnear
          obtain rfl : m = n := Option.some.inj (hm.symm.trans hn)
          exact ⟨_, rfl, terminal_step_terminal _ hterminal⟩
        rintro (htable | hin)
        · rcases foldl_promise_purge htable with hbefore | ⟨atMs, harms⟩
          · exact hended (Or.inl hbefore)
          · exact ⟨_, rfl, machineStep_armsPurge harms⟩
        · exact hended (Or.inr hin)

/-- **Every step that keeps the ringback honest** keeps the invariant. -/
theorem Session.Cascades.next (h : s.Cascades context) (haway : turnsAway context = false)
    {a : Action} (ha : KeepsRinging s a) : (sessionStep s a).1.Cascades context := by
  cases a with
  | admitEvent event =>
    rcases admit_eq_or s event with hsame | ⟨hempty, _, hadmitted⟩
    · rw [sessionStep, hsame]
      exact h
    · rw [sessionStep, hadmitted]
      refine ⟨fun hnone => ?_, h.inbound, fun m hm hring => ?_, h.purge⟩
      · rw [h.mint hnone] at hempty
        cases hempty
      · have hcascade := h.ring m hm hring
        rw [hempty] at hcascade
        exact hcascade.raise (Or.inr rfl)
  | wake nowMs =>
    rcases wake_eq_or s nowMs with hsame | hwake
    · rw [sessionStep, hsame]
      exact h
    · rw [sessionStep, hwake]
      refine ⟨h.mint, h.inbound, h.ring, ?_⟩
      rintro (htable | hin)
      · exact h.purge (Or.inl htable)
      · exact h.purge (Or.inl (mem_dueSlots hin))
  | fire unreachableUserIds => exact h.fire unreachableUserIds
  | drain nowMs clockMs pendingKeyFor answers => exact h.drain haway ha

/-- **Honest ringback.**  In every run of a call that is not turned away, all of whose steps keep
the ringback honest: whenever the journal is empty and the call rings, a leg is live, or a member
may still be woken by a push, or somebody who has not declined waits for a cascade step that is
armed for a time before the ring deadline. -/
theorem honest_ringback {r : SessionRun} (hring : turnsAway r.context = false)
    (hrun : Reactive.Along sessionStep KeepsRinging (.start r.context) r.actions)
    (hquiet : r.session.journal = []) :
    ∀ m, r.session.machine = some m → m.state = .ringing → HonestRingback m r.session.alarms := by
  have hstart : (Session.start r.context).Cascades r.context := by
    refine ⟨fun _ => rfl, fun m hm => (by cases hm), fun m hm => (by cases hm), ?_⟩
    rintro (htable | hin)
    · exact absurd rfl htable
    · cases hin
  have hcascades : r.session.Cascades r.context :=
    Reactive.final_of_inv_along sessionStep (P := Session.Cascades r.context) (C := KeepsRinging)
      (fun s a h ha => h.next hring ha) hstart hrun
  intro m hm hstate
  have hcascade := hcascades.ring m hm hstate
  rw [hquiet] at hcascade
  exact hcascade.honest

/-! ### A crew that rings in turn -/

/-- The shortest ring window a number's settings accept. -/
def RING_SECONDS_MIN : ℚ := 10

/-- The longest. -/
def RING_SECONDS_MAX : ℚ := 45

/-- Two phones that ring one after the other, for as long as the settings say. -/
def inTurn (seconds : ℚ) : InitiatedContext :=
  { crewOfOne with
    ringStrategy := .inTurn
    ringSeconds := some seconds
    dialTargets := [⟨"ana", "ana-sip"⟩, ⟨"bo", "bo-sip"⟩] }

/-- One event reduced at time zero, for a vendor that knows at once that the phone is not there. -/
def drainDead : Action :=
  .drain 0 0 (fun _ => "key") fun _ => { willing with dial := fun _ => .failed .knownDead }

/-- The call is minted, the first phone's dial fails, and the push fan-out settles. -/
def firstPhoneGone (seconds : ℚ) : SessionRun where
  context := inTurn seconds
  actions := [drainDead, drainDead, drainDead]

/-- With the longest window the caller waits for the second phone, whose step is armed. -/
theorem honest_ringback_long : ∃ m, (firstPhoneGone RING_SECONDS_MAX).session.machine = some m ∧
    m.state = .ringing ∧ HonestRingback m (firstPhoneGone RING_SECONDS_MAX).session.alarms := by
  have hmachine : ∃ m, (firstPhoneGone RING_SECONDS_MAX).session.machine = some m ∧
      m.state = .ringing := by
    refine ⟨((firstPhoneGone RING_SECONDS_MAX).session.machine.getD (inboundBase crewOfOne 0)),
      ?_, ?_⟩ <;> decide +kernel
  obtain ⟨m, hm, hring⟩ := hmachine
  refine ⟨m, hm, hring, ?_⟩
  refine honest_ringback (r := firstPhoneGone RING_SECONDS_MAX) (by decide)
    ⟨fun _ => by decide +kernel, ⟨?_, ?_⟩, ⟨?_, ?_⟩, trivial⟩ (by decide +kernel) m hm hring
  · rintro ⟨⟩
  · exact fun _ => trivial
  · rintro ⟨⟩
  · exact fun _ => trivial

/-- **A short window strands the queue.**  With the shortest window the step would come after the
deadline, so it is never armed: the caller is left on ringback with no leg live, nobody to push to
and a phone waiting for a turn that will not come. -/
theorem short_window_strands :
    turnsAway (firstPhoneGone RING_SECONDS_MIN).context = false ∧
      (firstPhoneGone RING_SECONDS_MIN).session.journal = [] ∧
      ∃ m, (firstPhoneGone RING_SECONDS_MIN).session.machine = some m ∧ m.state = .ringing ∧
        m.queuedTargets = [⟨"bo", "bo-sip"⟩] ∧
        ¬HonestRingback m (firstPhoneGone RING_SECONDS_MIN).session.alarms := by
  have hmachine : ∃ m, (firstPhoneGone RING_SECONDS_MIN).session.machine = some m ∧
      m.state = .ringing ∧ m.queuedTargets = [⟨"bo", "bo-sip"⟩] ∧ liveLegs m = [] ∧
      m.pushCapableUserIds = [] := by
    refine ⟨((firstPhoneGone RING_SECONDS_MIN).session.machine.getD (inboundBase crewOfOne 0)),
      ?_, ?_, ?_, ?_, ?_⟩ <;> decide +kernel
  have hunarmed : (firstPhoneGone RING_SECONDS_MIN).session.alarms .ringStep = none := by
    decide +kernel
  obtain ⟨m, hm, hring, hqueue, hlive, hpush⟩ := hmachine
  refine ⟨by decide, by decide +kernel, m, hm, hring, hqueue, ?_⟩
  rintro (h | h | ⟨_, atMs, _, harmed, _⟩)
  · exact h hlive
  · exact h hpush
  · rw [hunarmed] at harmed
    cases harmed

end Calls
