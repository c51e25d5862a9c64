/-
**What a step does to the legs.**

The legs of a call are a list that only grows, and a leg never moves.  On an inbound machine a step
does one of four things to it: it changes statuses, and only downwards, never putting a leg back
into dialing or ringing; it attaches the ccid of an event to a record that was waiting for one; it
lands the leg whose dial came back; or it appends the leg it is about to dial.

The second half is about the end of the ring: a step that takes the machine out of `ringing`, other
than the ring alarm, leaves no leg up and has settled every leg that was ringing.

Main result:

* `Calls.machineStep_ringEnds` — **a step that ends the ring settles it.**
-/

import Texturion.CallTerminal

namespace Calls

open FirstMatch

/-! ### Statuses that wind down -/

/-- The same leg, perhaps with another status, but not put back up. -/
def Calmer (a b : LegRecord) : Prop :=
  ∃ s : LegStatus, b = { a with status := s } ∧ (s.isUp = true → s = a.status)

theorem Calmer.refl (a : LegRecord) : Calmer a a := ⟨a.status, rfl, fun _ => rfl⟩

theorem Calmer.trans {a b c : LegRecord} (hab : Calmer a b) (hbc : Calmer b c) : Calmer a c := by
  obtain ⟨s, rfl, hs⟩ := hab
  obtain ⟨t, rfl, ht⟩ := hbc
  refine ⟨t, rfl, fun hup => ?_⟩
  have htb := ht hup
  simp only at htb
  rw [htb] at hup ⊢
  exact hs hup

variable {a b : LegRecord} {s : LegStatus} {m n : SessionMachine} {es : List Effect}
  {event : SessionEvent}

theorem Calmer.key (h : Calmer a b) : b.key = a.key := by
  obtain ⟨s, rfl, _⟩ := h
  rfl

theorem Calmer.ccid (h : Calmer a b) : b.ccid = a.ccid := by
  obtain ⟨s, rfl, _⟩ := h
  rfl

theorem Calmer.userId (h : Calmer a b) : b.userId = a.userId := by
  obtain ⟨s, rfl, _⟩ := h
  rfl

theorem Calmer.status_of_isUp (h : Calmer a b) (hup : b.status.isUp = true) :
    a.status = b.status := by
  obtain ⟨s, rfl, hs⟩ := h
  exact (hs hup).symm

theorem calmer_of_status (hs : s.isUp = false) : Calmer a { a with status := s } :=
  ⟨s, rfl, fun hup => by rw [hs] at hup; cases hup⟩

theorem calmer_cancelLeg (terminal : Bool) (leg : LegRecord) :
    Calmer leg (cancelLeg terminal leg).1 := by
  unfold cancelLeg
  split_ifs
  · exact calmer_of_status rfl
  · exact Calmer.refl leg

theorem calmer_reapAnsweredLeg (leg : LegRecord) : Calmer leg (reapAnsweredLeg leg).1 := by
  unfold reapAnsweredLeg
  split_ifs
  · split
    · exact calmer_of_status rfl
    · exact Calmer.refl leg
  · exact Calmer.refl leg

theorem calmer_terminalLeg (direction : Direction) (leg : LegRecord) :
    Calmer leg (terminalLeg direction leg) := by
  unfold terminalLeg
  split_ifs
  · exact (calmer_cancelLeg true leg).trans (calmer_reapAnsweredLeg _)
  · exact calmer_cancelLeg true leg

theorem calmer_cancelSibling (memberCcid : String) (leg : LegRecord) :
    Calmer leg (cancelSibling memberCcid leg).1 := by
  unfold cancelSibling
  split_ifs
  · exact Calmer.refl leg
  · exact calmer_cancelLeg false leg

theorem calmer_declineLeg (userId : String) (leg : LegRecord) :
    Calmer leg (declineLeg userId leg).1 := by
  unfold declineLeg
  split_ifs
  · exact calmer_of_status rfl
  · exact Calmer.refl leg

/-! ### Lists of legs that wind down -/

abbrev LegsCalmer (l l' : List LegRecord) : Prop := List.Forall₂ Calmer l l'

theorem LegsCalmer.refl (l : List LegRecord) : LegsCalmer l l :=
  List.forall₂_same.2 fun leg _ => Calmer.refl leg

theorem LegsCalmer.trans {l₁ l₂ l₃ : List LegRecord} (h₁ : LegsCalmer l₁ l₂)
    (h₂ : LegsCalmer l₂ l₃) : LegsCalmer l₁ l₃ :=
  forall₂_trans (R := Calmer) (fun _ _ _ hab hbc => hab.trans hbc) h₁ h₂

theorem legsCalmer_map {f : LegRecord → LegRecord} (hf : ∀ leg, Calmer leg (f leg))
    (l : List LegRecord) : LegsCalmer l (l.map f) :=
  List.forall₂_map_right_iff.2 (List.forall₂_same.2 fun leg _ => hf leg)

theorem forall₂_setLegStatus {R : LegRecord → LegRecord → Prop} (hrefl : ∀ leg, R leg leg)
    {ccid : String} (hs : ∀ leg : LegRecord, leg.ccid = some ccid → R leg { leg with status := s })
    (m : SessionMachine) : List.Forall₂ R m.legs (m.setLegStatus ccid s).legs :=
  forall₂_updateFirst _ _ hrefl (fun leg hleg => hs leg (by simpa using hleg)) m.legs

theorem legsCalmer_setLegStatus (m : SessionMachine) (ccid : String)
    (hs : s.isUp = false) : LegsCalmer m.legs (m.setLegStatus ccid s).legs :=
  forall₂_setLegStatus Calmer.refl (fun _ _ => calmer_of_status hs) m

theorem legsCalmer_terminal (m : SessionMachine) :
    LegsCalmer m.legs (m.legs.map (terminalLeg m.direction)) :=
  legsCalmer_map (calmer_terminalLeg m.direction) m.legs

theorem legsCalmer_doomMember (m : SessionMachine) (memberCcid : String) :
    LegsCalmer m.legs (doomMember m memberCcid).1.legs := by
  rcases doomMember_eq m memberCcid with h | h
  · rw [h]
    exact LegsCalmer.refl _
  · rw [h]
    exact legsCalmer_setLegStatus m memberCcid rfl

/-! ### The moves of the leg list -/

def SessionEvent.memberLeg : SessionEvent → Option (String × String)
  | .memberLegAnswered ccid userId _ | .memberLegHangup ccid userId _ => some (ccid, userId)
  | _ => none

def SessionEvent.dials : SessionEvent → Bool
  | .ringMe .. | .alarmRingStep => true
  | _ => false

/-- What a step under an event may do to the legs of an inbound machine, with the effects it
emits. -/
inductive LegsMove (m : SessionMachine) (i : Input) (es : List Effect) : List LegRecord → Prop
  | calm {l : List LegRecord} : LegsCalmer m.legs l → LegsMove m i es l
  | adopt {l : List LegRecord} {ccid userId : String} {destination : Option String}
      {wake : LegStatus → LegStatus} : i.event.memberLeg = some (ccid, userId) →
      m.state = .ringing → m.findLeg ccid = none →
      wake = id ∨ wake = wakeAmbiguous →
      LegsCalmer (adoptLeg m ccid userId destination wake).legs l → LegsMove m i es l
  | land {key ccid : String} {failure : Option DialFailure} :
      i.event = .dialOutcome key (some ccid) failure → ccid ≠ "" →
      LegsMove m i es (updateLegByKey m key (landLeg ccid)).legs
  | append {leg : LegRecord} : i.event.dials = true → m.state = .ringing →
      leg.key = pendingKey (i.pendingKeyFor 0) → leg.ccid = none → leg.status = .dialing →
      Effect.telnyxDial [leg.toDialLeg] ∈ es → LegsMove m i es (m.legs ++ [leg])

theorem LegsMove.same {i : Input} {l : List LegRecord} (h : l = m.legs) : LegsMove m i es l := by
  rw [h]
  exact LegsMove.calm (LegsCalmer.refl _)

theorem legsMove_resolveLeg {i : Input} {ccid userId : String} {destination : Option String}
    {wake : LegStatus → LegStatus} {l : List LegRecord}
    (hevent : i.event.memberLeg = some (ccid, userId)) (hwake : wake = id ∨ wake = wakeAmbiguous)
    (h : LegsCalmer (resolveLeg m ccid userId destination (m.state == .ringing) wake).legs l) :
    LegsMove m i es l := by
  rcases resolveLeg_eq_or m ccid userId destination (m.state == .ringing) wake with
    ⟨_, _, hr⟩ | ⟨hfind, hring, _, hr⟩ | ⟨_, _, hr⟩
  · rw [hr] at h
    exact LegsMove.calm h
  · rw [hr] at h
    exact LegsMove.adopt hevent (by simpa using hring) hfind hwake h
  · rw [hr] at h
    exact LegsMove.calm h

section

variable (m)

theorem reduceMemberAnswered_legs (i : Input) (ccid userId : String) (destination : Option String)
    (hevent : i.event.memberLeg = some (ccid, userId)) :
    LegsMove m i (reduceMemberAnswered m ccid userId destination i.clockMs).2
      (reduceMemberAnswered m ccid userId destination i.clockMs).1.legs := by
  have hlegs : (reduceMemberAnswered m ccid userId destination i.clockMs).1.legs =
      (resolveLeg m ccid userId destination (m.state == .ringing) wakeAmbiguous).legs := by
    unfold reduceMemberAnswered
    simp only
    split
    · rfl
    · split_ifs <;> rfl
  rw [hlegs]
  exact legsMove_resolveLeg hevent (Or.inr rfl) (LegsCalmer.refl _)

theorem reduceMemberHangup_legs (i : Input) (ccid userId : String) (destination : Option String)
    (hevent : i.event.memberLeg = some (ccid, userId)) :
    LegsMove m i (reduceMemberHangup m ccid userId destination).2
      (reduceMemberHangup m ccid userId destination).1.legs := by
  have hcalm : LegsCalmer (resolveLeg m ccid userId destination (m.state == .ringing) id).legs
      (reduceMemberHangup m ccid userId destination).1.legs := ?_
  · exact legsMove_resolveLeg hevent (Or.inl rfl) hcalm
  unfold reduceMemberHangup
  simp only
  split
  · exact LegsCalmer.refl _
  · split_ifs
    · exact legsCalmer_setLegStatus _ ccid rfl
    · exact legsCalmer_setLegStatus _ ccid rfl
    · exact legsCalmer_setLegStatus _ ccid rfl
    · exact legsCalmer_setLegStatus _ ccid rfl
    · rw [runAvenueLadder_legs]
      exact legsCalmer_setLegStatus _ ccid rfl

theorem reduceInboundHangup_legs (tag : HangupTag) (briAnsweredAtIso : Option String)
    (payload : Option Payload) (nowMs : ℤ) :
    LegsCalmer m.legs (reduceInboundHangup m tag briAnsweredAtIso payload nowMs).1.legs := by
  have hstamp : (stampFromIntent m).legs = m.legs := by
    unfold stampFromIntent
    split <;> rfl
  unfold reduceInboundHangup
  by_cases hm : isTerminal m.state = true
  · rw [if_pos hm]
    unfold reduceLateInboundHangup
    split_ifs
    · cases m.answerIntent <;> exact LegsCalmer.refl _
    · exact LegsCalmer.refl _
  · rw [if_neg hm]
    cases tag with
    | bri =>
      simp only [terminalize_legs]
      rw [← hstamp]
      exact legsCalmer_terminal _
    | vmi =>
      simp only [terminalize_legs]
      exact legsCalmer_terminal m
    | untagged =>
      simp only
      split_ifs <;> simp only [terminalize_legs] <;> exact legsCalmer_terminal m

theorem reduceAnswerOutcome_legs (ok : Bool) (memberCcid userId answeredAtIso : String)
    (nowMs : ℤ) :
    LegsCalmer m.legs
      (reduceAnswerOutcome m ok memberCcid userId answeredAtIso nowMs).1.legs := by
  unfold reduceAnswerOutcome
  split_ifs
  · exact LegsCalmer.refl _
  · simp only [terminalize_legs]
    exact (legsCalmer_doomMember m memberCcid).trans (legsCalmer_terminal _)
  · have hmark : LegsCalmer m.legs (m.setLegStatus memberCcid .answered).legs :=
      legsCalmer_setLegStatus m memberCcid rfl
    exact hmark.trans (legsCalmer_map (calmer_cancelSibling memberCcid) _)

theorem legsCalmer_failLeg (key : String) (failure : Option DialFailure) :
    LegsCalmer m.legs (updateLegByKey m key (failLeg failure)).legs := by
  refine forall₂_updateFirst _ _ Calmer.refl (fun leg _ => calmer_of_status ?_) m.legs
  unfold failedStatus
  split_ifs <;> rfl

end

theorem reduceDialOutcome_legs (i : Input) {key : String} {ccid : Option String}
    {failure : Option DialFailure} (hevent : i.event = .dialOutcome key ccid failure) :
    LegsMove m i (reduceDialOutcome m key ccid failure i.nowMs).2
      (reduceDialOutcome m key ccid failure i.nowMs).1.legs := by
  have hfail := legsCalmer_failLeg m key failure
  rcases reduceDialOutcome_cases m key ccid failure i.nowMs with
    ⟨_, h⟩ | ⟨leg, _, ⟨landed, hland, h⟩ | ⟨_, _, h⟩ | ⟨_, _, _, h⟩ | ⟨_, _, _, _, h⟩⟩
  · rw [h]
    exact LegsMove.same rfl
  · obtain ⟨rfl, hne⟩ := truthy_eq_some.1 hland
    rw [h]
    exact LegsMove.land hevent hne
  · rw [h, runAvenueLadder_legs]
    exact LegsMove.calm hfail
  · rw [h]
    exact LegsMove.calm hfail
  · rw [h]
    simp only [terminalize_legs]
    exact LegsMove.calm (hfail.trans (legsCalmer_terminal _))

theorem reduceAlarmRingStep_legs (i : Input) (hevent : i.event = .alarmRingStep) :
    LegsMove m i (reduceAlarmRingStep m i.nowMs i.pendingKeyFor).2
      (reduceAlarmRingStep m i.nowMs i.pendingKeyFor).1.legs := by
  rcases reduceAlarmRingStep_cases m i.nowMs i.pendingKeyFor with
    h | ⟨_, _, h⟩ | ⟨target, rest, hring, _, ⟨_, h⟩ | ⟨_, h⟩⟩
  · rw [h]
    exact LegsMove.same rfl
  · rw [h, runAvenueLadder_legs]
    exact LegsMove.same rfl
  · rw [h]
    exact LegsMove.same rfl
  · rw [h]
    exact LegsMove.append (by rw [hevent]; rfl) hring rfl rfl rfl (List.mem_cons_self ..)

/-- **Every step is a move of the leg list**, the placer's answer on an outbound machine apart. -/
theorem machineStep_legs_of (i : Input) (hplacer : ∀ ccid userId destination,
      i.event = .outboundPlacerAnswered ccid userId destination → m.direction = .inbound) :
    LegsMove m i (machineStep m i).2 (machineStep m i).1.legs := by
  unfold machineStep reduceMachine
  cases hevent : i.event with
  | initiated | outboundInitiated | setOwner | registerIntent => exact LegsMove.same rfl
  | memberLegAnswered ccid userId destination =>
    exact reduceMemberAnswered_legs m i ccid userId destination (by rw [hevent]; rfl)
  | memberLegHangup ccid userId destination =>
    exact reduceMemberHangup_legs m i ccid userId destination (by rw [hevent]; rfl)
  | inboundHangup => exact LegsMove.calm (reduceInboundHangup_legs ..)
  | answerOutcome => exact LegsMove.calm (reduceAnswerOutcome_legs ..)
  | dialOutcome => exact reduceDialOutcome_legs i hevent
  | alarmRingStep => exact reduceAlarmRingStep_legs i hevent
  | outboundAnswered =>
    refine LegsMove.same ?_
    simp only [quiet, reduceOutboundAnswered]
    split_ifs <;> rfl
  | outboundPlacerAnswered ccid userId destination =>
    refine LegsMove.same ?_
    simp [quiet, reduceOutboundPlacerAnswered, hplacer ccid userId destination hevent]
  | outboundHangup =>
    refine LegsMove.calm ?_
    simp only [quiet, reduceOutboundHangup]
    split
    · exact LegsCalmer.refl _
    · simp only [terminalize_legs]
      exact legsCalmer_terminal m
  | outboundPlacerHangup ccid userId =>
    have hmark := legsCalmer_setLegStatus m ccid (s := .dead) rfl
    refine LegsMove.calm ?_
    simp only [quiet, reduceOutboundPlacerHangup]
    split_ifs
    · exact LegsCalmer.refl _
    · exact hmark
    · exact hmark
    · exact hmark
    · simp only [terminalize_legs]
      exact hmark.trans (legsCalmer_terminal _)
  | speakEnded =>
    refine LegsMove.same ?_
    simp only [quiet, reduceSpeakEnded]
    split_ifs <;> rfl
  | recordingSaved =>
    refine LegsMove.same ?_
    simp only [quiet, reduceRecordingSaved]
    split <;> rfl
  | ringMe userId sipUsername noLocalLeg =>
    simp only [reduceRingMe]
    cases hrefusal : ringMeRefusal m userId noLocalLeg i.nowMs with
    | some reason => exact LegsMove.same rfl
    | none =>
      have hring : m.state = .ringing := by
        by_contra hne
        simp [ringMeRefusal, hne] at hrefusal
      exact LegsMove.append (by rw [hevent]; rfl) hring rfl rfl rfl (List.mem_cons_self ..)
  | clearIntent | alarmIntentExpiry =>
    refine LegsMove.same ?_
    simp only [quiet, reduceIntentOver]
    split_ifs <;> rfl
  | decline userId =>
    refine LegsMove.calm ?_
    simp only [reduceDecline]
    split_ifs
    · exact LegsCalmer.refl _
    · exact LegsCalmer.refl _
    · rw [runAvenueLadder_legs]
      exact legsCalmer_map (calmer_declineLeg userId) m.legs
  | alarmRing =>
    refine LegsMove.same ?_
    simp only [quiet, reduceAlarmRing]
    split_ifs <;> rfl
  | alarmJanitor =>
    refine LegsMove.calm ?_
    simp only [quiet, reduceAlarmJanitor]
    split_ifs
    · exact LegsCalmer.refl _
    · simp only [terminalize_legs]
      exact legsCalmer_terminal m
    · simp only [terminalize_legs]
      exact legsCalmer_terminal m
    · simp only [terminalize_legs]
      exact legsCalmer_terminal m
  | noticeAnswerOutcome =>
    refine LegsMove.same ?_
    simp only [quiet, reduceNoticeAnswerOutcome]
    split_ifs
    · rfl
    · split <;> rfl
  | vmAnswerOutcome =>
    refine LegsMove.calm ?_
    simp only [quiet, reduceVmAnswerOutcome]
    split_ifs
    · exact LegsCalmer.refl _
    · exact legsCalmer_map (calmer_cancelLeg true) m.legs
    · simp only [terminalize_legs]
      exact legsCalmer_terminal m
  | pushFanoutSettled =>
    refine LegsMove.same ?_
    simp [quiet, reducePushFanoutSettled]
  | inboundLegGone =>
    refine LegsMove.calm ?_
    simp only [quiet, reduceInboundLegGone]
    split_ifs
    · exact LegsCalmer.refl _
    · simp only [terminalize_legs]
      exact legsCalmer_terminal m
  | memberProbeOutcome ccid userId alive =>
    refine LegsMove.calm ?_
    simp only [quiet, reduceMemberProbeOutcome]
    split
    · exact LegsCalmer.refl _
    · split
      · exact LegsCalmer.refl _
      · split
        · rw [runAvenueLadder_legs]
          exact legsCalmer_setLegStatus m ccid rfl
        · exact LegsCalmer.refl _

theorem machineStep_legs (i : Input) (hdir : m.direction = .inbound) :
    LegsMove m i (machineStep m i).2 (machineStep m i).1.legs :=
  machineStep_legs_of i fun _ _ _ _ => hdir

/-! ### Outside the ring no leg comes up -/

/-- No leg is dialing or ringing. -/
def NoneUp (m : SessionMachine) : Prop := ∀ leg ∈ m.legs, leg.status.isUp = false

theorem noneUp_of_calmer {l l' : List LegRecord} (h : LegsCalmer l l')
    (hl : ∀ leg ∈ l, leg.status.isUp = false) : ∀ leg ∈ l', leg.status.isUp = false := by
  intro leg hleg
  obtain ⟨before, hmem, hcalm⟩ := exists_of_mem_right h hleg
  by_contra hup
  have hstatus := hcalm.status_of_isUp (by simpa using hup)
  have hbefore := hl before hmem
  rw [hstatus] at hbefore
  exact hup hbefore

/-- **Outside `ringing` no leg comes up**: nothing is adopted or dialed there, and landing a leg
that was canceled does not ring it. -/
theorem machineStep_noneUp (i : Input) (hdir : m.direction = .inbound) (hstate : m.state ≠ .ringing)
    (h : NoneUp m) : NoneUp (machineStep m i).1 := by
  have hmove := machineStep_legs i hdir
  unfold NoneUp
  generalize (machineStep m i).1.legs = l at hmove
  cases hmove with
  | calm hcalm => exact noneUp_of_calmer hcalm h
  | adopt _ hring => exact absurd hring hstate
  | land =>
    refine forall_mem_updateFirst _ _ h fun leg hleg _ hup => ?_
    have hdial : leg.status ≠ .dialing := by
      intro hs
      rw [hs] at hup
      cases hup
    simpa [landLeg, hdial] using hup
  | append _ hring => exact absurd hring hstate

/-! ### The end of the ring -/

def SessionEvent.winner : SessionEvent → Option String
  | .answerOutcome true memberCcid _ _ => some memberCcid
  | _ => none

/-- What became of a leg that was ringing: its hangup is among the effects, it is dead, or it is
the winner. -/
def Settled (event : SessionEvent) (r : SessionMachine × List Effect) (c : String) : Prop :=
  (∃ terminal, Effect.telnyxHangup c terminal ∈ r.2) ∨
    (∃ leg ∈ r.1.legs, leg.ccid = some c ∧ leg.status = .dead) ∨ event.winner = some c

def Settles (m : SessionMachine) (event : SessionEvent) (r : SessionMachine × List Effect) :
    Prop :=
  ∀ leg ∈ m.legs, leg.status = .ringing → ∀ c, truthy leg.ccid = some c → Settled event r c

def RingEnds (m : SessionMachine) (event : SessionEvent) (r : SessionMachine × List Effect) :
    Prop :=
  r.1.state = .ringing ∨ (NoneUp r.1 ∧ Settles m event r)

/-- Half-way through a handler a leg that was ringing is still in place, or dead, or its hangup
has been pushed. -/
def Spared (m n : SessionMachine) (es : List Effect) : Prop :=
  ∀ leg ∈ m.legs, leg.status = .ringing → ∀ c, truthy leg.ccid = some c →
    leg ∈ n.legs ∨ (∃ leg' ∈ n.legs, leg'.ccid = some c ∧ leg'.status = .dead) ∨
      ∃ terminal, Effect.telnyxHangup c terminal ∈ es

theorem spared_of_legs (h : n.legs = m.legs) (es : List Effect) : Spared m n es :=
  fun _ hleg _ _ _ => Or.inl (h ▸ hleg)

def MarkedDead (a b : LegRecord) : Prop := b = a ∨ (b.ccid = a.ccid ∧ b.status = .dead)

/-- The same leg, unless it was waiting for a ccid. -/
def SameIfKnown (a b : LegRecord) : Prop := b = a ∨ a.ccid = none

/-- The same leg, unless it holds the ccid. -/
def SameIfOther (ccid : String) (a b : LegRecord) : Prop := a.ccid ≠ some ccid → b = a

theorem sameIfOther_setLegStatus (m : SessionMachine) (ccid : String) (s : LegStatus) :
    List.Forall₂ (SameIfOther ccid) m.legs (m.setLegStatus ccid s).legs :=
  forall₂_setLegStatus (fun _ _ => rfl) (fun _ hleg hne => absurd hleg hne) m

theorem spared_setLegStatus (h : Spared m n es)
    (ccid : String) : Spared m (n.setLegStatus ccid .dead) es := by
  have hmark : List.Forall₂ MarkedDead n.legs (n.setLegStatus ccid .dead).legs :=
    forall₂_setLegStatus (R := MarkedDead) (fun _ => Or.inl rfl) (fun _ _ => Or.inr ⟨rfl, rfl⟩) n
  intro leg hleg hring c hc
  rcases h leg hleg hring c hc with h | ⟨leg', hleg', hccid, hdead⟩ | h
  · obtain ⟨b, hb, rfl | ⟨hccid, hdead⟩⟩ := exists_of_mem_left hmark h
    · exact Or.inl hb
    · exact Or.inr (Or.inl ⟨b, hb, hccid.trans (truthy_eq_some.1 hc).1, hdead⟩)
  · obtain ⟨b, hb, rfl | ⟨hccid', hdead'⟩⟩ := exists_of_mem_left hmark hleg'
    · exact Or.inr (Or.inl ⟨b, hb, hccid, hdead⟩)
    · exact Or.inr (Or.inl ⟨b, hb, hccid'.trans hccid, hdead'⟩)
  · exact Or.inr (Or.inr h)

theorem spared_resolveLeg (m : SessionMachine) (ccid userId : String)
    (destination : Option String) (mayAdopt : Bool) (wake : LegStatus → LegStatus)
    (es : List Effect) : Spared m (resolveLeg m ccid userId destination mayAdopt wake) es := by
  rcases resolveLeg_eq_or m ccid userId destination mayAdopt wake with
    ⟨_, _, h⟩ | ⟨_, _, _, h⟩ | ⟨_, _, h⟩
  · exact spared_of_legs (by rw [h]) es
  · rw [h]
    have hadopt : List.Forall₂ SameIfKnown m.legs
        (adoptLeg m ccid userId destination wake).legs := by
      refine forall₂_updateFirst (R := SameIfKnown) _ _ (fun _ => Or.inl rfl)
        (fun leg hleg => Or.inr ?_) m.legs
      simp only [adoptable, Bool.and_eq_true, Option.isNone_iff_eq_none] at hleg
      exact hleg.1.1.1
    intro leg hleg _ c hc
    obtain ⟨b, hb, rfl | hnone⟩ := exists_of_mem_left hadopt hleg
    · exact Or.inl hb
    · rw [hnone] at hc
      cases hc
  · exact spared_of_legs (by rw [h]) es

theorem settles_terminalize {pre : List Effect} (event : SessionEvent) (post : List Effect)
    (h : Spared m n pre) (nowMs : ℤ) (target : CallState) (merge : Option TerminalMerge)
    (reason : Option Outcome) (extra : MirrorSet) :
    RingEnds m event ((terminalize n nowMs target merge reason extra).1,
      pre ++ (terminalize n nowMs target merge reason extra).2 ++ post) := by
  refine Or.inr ⟨?_, ?_⟩
  · intro leg hleg
    simp only [terminalize_legs] at hleg
    obtain ⟨leg', _, rfl⟩ := List.mem_map.1 hleg
    exact terminalLeg_not_isUp _ _
  · intro leg hleg hring c hc
    rcases h leg hleg hring c hc with h | ⟨leg', hleg', hccid, hdead⟩ | ⟨terminal, h⟩
    · left
      have hsweep : Effect.telnyxHangup c true ∈ (terminalSweep n target).2 :=
        hangup_mem_terminalSweep h (by rw [hring]; rfl) hc
      refine ⟨true, List.mem_append_left _ (List.mem_append_right _ ?_)⟩
      exact mem_terminalize_of_mem_terminalSweep hsweep
    · right; left
      refine ⟨terminalLeg n.direction leg', ?_, ?_, ?_⟩
      · simp only [terminalize_legs]
        exact List.mem_map.2 ⟨leg', hleg', rfl⟩
      · rw [(calmer_terminalLeg n.direction leg').ccid, hccid]
      · -- a dead leg is neither canceled nor reaped
        have hsame : (cancelLeg true leg').1 = leg' := by
          simp [cancelLeg, hdead, LegStatus.isUp, LegStatus.isLive]
        unfold terminalLeg
        split_ifs
        · rw [hsame]
          simp [reapAnsweredLeg, hdead]
        · rw [hsame, hdead]
    · exact Or.inl ⟨terminal, List.mem_append_left _ (List.mem_append_left _ h)⟩

theorem ringEnds_terminalize (nowMs : ℤ) (target : CallState) (merge : Option TerminalMerge)
    (reason : Option Outcome) (extra : MirrorSet) :
    RingEnds m event (terminalize m nowMs target merge reason extra) := by
  have h := settles_terminalize event [] (spared_of_legs rfl [])
    nowMs target merge reason extra (m := m) (n := m)
  rwa [List.append_nil, List.nil_append] at h

/-- The ladder enters voicemail with no leg live, so whatever was spared is dead or hung up. -/
theorem settles_ladder {pre : List Effect} (h : Spared m n pre) (hring : n.state = .ringing) :
    RingEnds m event ((runAvenueLadder n).1, pre ++ (runAvenueLadder n).2) := by
  rcases runAvenueLadder_eq_or n with hn | ⟨_, hlive, _, _, hn⟩
  · left
    rw [hn]
    exact hring
  · have hdown : ∀ leg ∈ n.legs, leg.status.isLive = false := by
      simpa [liveLegs, List.filter_eq_nil_iff] using hlive
    rw [hn]
    refine Or.inr ⟨fun leg hleg => ?_, fun leg hleg hleg' c hc => ?_⟩
    · simp [LegStatus.isUp, hdown leg hleg]
    · rcases h leg hleg hleg' c hc with h | h | ⟨terminal, h⟩
      · have hdead := hdown leg h
        rw [hleg'] at hdead
        cases hdead
      · exact Or.inr (Or.inl h)
      · exact Or.inl ⟨terminal, List.mem_append_left _ h⟩

/-! ### The handlers that end the ring -/

theorem reduceMemberHangup_ringEnds (ccid userId : String) (destination : Option String)
    (hring : m.state = .ringing) :
    RingEnds m event (reduceMemberHangup m ccid userId destination) := by
  have hspared := spared_setLegStatus
    (spared_resolveLeg m ccid userId destination (m.state == .ringing) id []) ccid
  have hstate := resolveLeg_state m ccid userId destination (m.state == .ringing) id
  unfold reduceMemberHangup
  simp only
  split
  · exact Or.inl (by rw [hstate, hring])
  · rw [if_neg (by rw [hstate, hring]; simp), if_neg (by rw [hstate, hring]; simp)]
    exact settles_ladder hspared (by rw [setLegStatus_state, hstate, hring])

theorem reduceInboundHangup_ringEnds (tag : HangupTag) (briAnsweredAtIso : Option String)
    (payload : Option Payload) (nowMs : ℤ) (hring : m.state = .ringing) :
    RingEnds m event (reduceInboundHangup m tag briAnsweredAtIso payload nowMs) := by
  unfold reduceInboundHangup
  rw [if_neg (by rw [hring]; decide)]
  cases tag with
  | bri =>
    have hstamp : (stampFromIntent m).legs = m.legs := by
      unfold stampFromIntent
      split <;> rfl
    have hend : ∀ pre, RingEnds m event
        ((terminalize (stampFromIntent m) nowMs .endedAnswered
            (some (eventMerge .answered payload
              (briAnchor (stampFromIntent m) briAnsweredAtIso)))
            (some .answered) (ownerMirror (stampFromIntent m))).1,
          pre ++ (terminalize (stampFromIntent m) nowMs .endedAnswered
            (some (eventMerge .answered payload
              (briAnchor (stampFromIntent m) briAnsweredAtIso)))
            (some .answered) (ownerMirror (stampFromIntent m))).2 ++ []) :=
      fun pre => settles_terminalize _ _ (spared_of_legs hstamp pre) _ _ _ _ _
    simpa using hend _
  | vmi => exact ringEnds_terminalize _ _ _ _ _
  | untagged =>
    simp only
    rw [if_neg (by rw [hring]; decide), if_neg (by rw [hring]; decide)]
    exact ringEnds_terminalize _ _ _ _ _

theorem reduceOutboundHangup_ringEnds (payload : Option Payload) (nowMs : ℤ)
    (hring : m.state = .ringing) : RingEnds m event (reduceOutboundHangup m payload nowMs) := by
  unfold reduceOutboundHangup
  rw [if_neg (by rw [hring]; decide)]
  exact ringEnds_terminalize _ _ _ _ _

theorem reduceAlarmJanitor_ringEnds (nowMs : ℤ)
    (hring : m.state = .ringing) : RingEnds m event (reduceAlarmJanitor m nowMs) := by
  unfold reduceAlarmJanitor
  rw [if_neg (by rw [hring]; decide), if_pos hring]
  exact ringEnds_terminalize _ _ _ _ _

theorem reduceOutboundPlacerHangup_ringEnds (ccid userId : String) (nowMs : ℤ)
    (hring : m.state = .ringing) :
    RingEnds m event (reduceOutboundPlacerHangup m ccid userId nowMs) := by
  have hspared := spared_setLegStatus (spared_of_legs rfl []) ccid (m := m) (n := m)
  unfold reduceOutboundPlacerHangup
  simp only
  rw [if_neg (by rw [hring]; decide)]
  split_ifs with howner hans
  · exact Or.inl hring
  · rw [setLegStatus_state, hring] at hans
    cases hans
  · rw [setLegStatus_state, hring] at hans
    cases hans
  · exact settles_terminalize _ _ hspared _ _ _ _ _

theorem reduceDecline_ringEnds (userId : String) (hring : m.state = .ringing) :
    RingEnds m event ((reduceDecline m userId).machine, (reduceDecline m userId).effects) := by
  unfold reduceDecline
  rw [if_neg (by rw [hring]; decide)]
  split_ifs
  · exact Or.inl hring
  · refine settles_ladder (fun leg hleg hleg' c hc => ?_) hring
    by_cases huser : leg.userId = userId
    · -- the decliner's own leg: hung up on the spot
      right; right
      refine ⟨false, mem_sweepLegs.2 ⟨leg, hleg, ?_⟩⟩
      unfold declineLeg
      rw [if_pos (by simp [huser, hleg', LegStatus.isLive])]
      exact mem_ifTruthy.2 ⟨c, hc, rfl⟩
    · left
      refine List.mem_map.2 ⟨leg, hleg, ?_⟩
      unfold declineLeg
      rw [if_neg (by simp [huser])]

theorem reduceAlarmRingStep_ringEnds (nowMs : ℤ) (pendingKeyFor : ℕ → String)
    (hring : m.state = .ringing) :
    RingEnds m event (reduceAlarmRingStep m nowMs pendingKeyFor) := by
  rcases reduceAlarmRingStep_cases m nowMs pendingKeyFor with
    h | ⟨_, _, h⟩ | ⟨target, rest, _, _, ⟨_, h⟩ | ⟨_, h⟩⟩
  · rw [h]
    exact Or.inl hring
  · rw [h]
    have hspared : Spared m { m with queuedTargets := [] } [] := spared_of_legs rfl []
    exact settles_ladder hspared hring
  · rw [h]
    exact Or.inl hring
  · rw [h]
    exact Or.inl hring

theorem reducePushFanoutSettled_ringEnds (unreachableUserIds : List String)
    (hring : m.state = .ringing) :
    RingEnds m event (reducePushFanoutSettled m unreachableUserIds) := by
  have hspared : Spared m { m with
      wakeAttempted := true
      pushCapableUserIds :=
        m.pushCapableUserIds.filter fun u => !unreachableUserIds.contains u }
      [.clearAlarm .fanoutSettle] := spared_of_legs rfl _
  exact settles_ladder hspared hring

theorem reduceMemberProbeOutcome_ringEnds (ccid userId : String) (alive : Bool) (nowMs : ℤ)
    (hring : m.state = .ringing) :
    RingEnds m event (reduceMemberProbeOutcome m ccid userId alive nowMs) := by
  have hspared := spared_setLegStatus (spared_of_legs rfl []) ccid (m := m) (n := m)
  unfold reduceMemberProbeOutcome
  rw [if_neg (by rw [hring]; decide)]
  split
  · exact Or.inl hring
  · split
    · exact settles_ladder hspared hring
    · exact Or.inl hring

/-- A failed dial ends the ring only when nothing else is left, and the leg it was about had no
ccid yet. -/
theorem reduceDialOutcome_ringEnds (key : String) (ccid : Option String)
    (failure : Option DialFailure) (nowMs : ℤ) (hring : m.state = .ringing)
    (hdir : m.direction = .inbound) (hkey : ∀ leg ∈ m.legs, leg.key = key → leg.ccid = none) :
    RingEnds m event (reduceDialOutcome m key ccid failure nowMs) := by
  have hspared : Spared m (updateLegByKey m key (failLeg failure)) [] := by
    intro leg hleg _ c hc
    have hfail : List.Forall₂ (fun a b : LegRecord => a.key ≠ key → b = a) m.legs
        (updateLegByKey m key (failLeg failure)).legs :=
      forall₂_updateFirst (R := fun a b : LegRecord => a.key ≠ key → b = a) _ _
        (fun _ _ => rfl) (fun a ha hne => absurd (by simpa using ha) hne) m.legs
    obtain ⟨b, hb, hsame⟩ := exists_of_mem_left hfail hleg
    have hne : leg.key ≠ key := by
      intro hk
      rw [hkey leg hleg hk] at hc
      cases hc
    exact Or.inl (hsame hne ▸ hb)
  rcases reduceDialOutcome_cases m key ccid failure nowMs with
    ⟨_, h⟩ | ⟨leg, _, ⟨landed, _, h⟩ | ⟨_, _, h⟩ | ⟨_, hout, _⟩ | ⟨_, hout, _⟩⟩
  · rw [h]
    exact Or.inl hring
  · rw [h]
    exact Or.inl hring
  · rw [h]
    exact settles_ladder hspared hring
  · rw [hdir] at hout
    cases hout
  · rw [hdir] at hout
    cases hout

def CcidsDistinct (m : SessionMachine) : Prop :=
  m.legs.Pairwise fun a b => a.ccid ≠ none → a.ccid ≠ b.ccid

/-- A member answers: the winner is marked, and every sibling that was up is canceled. -/
theorem reduceAnswerOutcome_won (memberCcid userId answeredAtIso : String) (nowMs : ℤ)
    (hring : m.state = .ringing) (hdistinct : CcidsDistinct m) :
    RingEnds m (.answerOutcome true memberCcid userId answeredAtIso)
      (reduceAnswerOutcome m true memberCcid userId answeredAtIso nowMs) := by
  have hone : m.legs.Pairwise fun a b => (a.ccid == some memberCcid) = true →
      (b.ccid == some memberCcid) = false := by
    refine List.Pairwise.imp (fun {a b} hab ha => ?_) hdistinct
    have ha' : a.ccid = some memberCcid := by simpa using ha
    have hb := hab (by rw [ha']; simp)
    rw [ha'] at hb
    simpa using fun h => hb h.symm
  have hmark := updateFirst_eq_map _ (fun leg : LegRecord => { leg with status := .answered }) hone
  have hlegs : (reduceAnswerOutcome m true memberCcid userId answeredAtIso nowMs).1.legs =
      (m.legs.map fun leg => if (leg.ccid == some memberCcid) = true then
        { leg with status := .answered } else leg).map fun leg =>
          (cancelSibling memberCcid leg).1 := by
    rw [← hmark]
    simp only [reduceAnswerOutcome, hring]
    rfl
  refine Or.inr ⟨?_, ?_⟩
  · intro leg hleg
    rw [hlegs, List.map_map] at hleg
    obtain ⟨before, _, rfl⟩ := List.mem_map.1 hleg
    by_cases hwin : before.ccid = some memberCcid
    · simp [cancelSibling, hwin, LegStatus.isUp, LegStatus.isLive]
    · simpa [cancelSibling, hwin] using cancelLeg_not_isUp false before
  · intro leg hleg hleg' c hc
    by_cases hwin : c = memberCcid
    · exact Or.inr (Or.inr (by rw [hwin]; rfl))
    · have hccid := (truthy_eq_some.1 hc).1
      have hne : leg.ccid ≠ some memberCcid := by
        rw [hccid]
        simpa using hwin
      have hkept : leg ∈ (SessionMachine.setLegStatus { m with
          state := .answered, answeredByUserId := some userId
          answeredAtIso := some answeredAtIso, ringDeadlineMs := none }
          memberCcid .answered).legs := by
        obtain ⟨b, hb, hsame⟩ :=
          exists_of_mem_left (sameIfOther_setLegStatus m memberCcid .answered) hleg
        exact hsame hne ▸ hb
      have hhang : Effect.telnyxHangup c false ∈ (cancelSibling memberCcid leg).2 := by
        unfold cancelSibling
        rw [if_neg (by simpa using hne)]
        exact mem_cancelLeg.2 ⟨by rw [hleg']; rfl, c, hc, rfl⟩
      refine Or.inl ⟨false, ?_⟩
      have hswept := mem_sweepLegs.2 ⟨leg, hkept, hhang⟩
      unfold reduceAnswerOutcome
      rw [if_neg (by rw [hring]; decide), if_neg (by simp)]
      exact List.mem_append_left _ (List.mem_append_right _ hswept)

/-- The customer was gone when the member answered: the member is doomed and the call resolved. -/
theorem reduceAnswerOutcome_lost (memberCcid userId answeredAtIso : String) (nowMs : ℤ)
    (hring : m.state = .ringing) :
    RingEnds m (.answerOutcome false memberCcid userId answeredAtIso)
      (reduceAnswerOutcome m false memberCcid userId answeredAtIso nowMs) := by
  have hspared : Spared m (doomMember m memberCcid).1 (doomMember m memberCcid).2 := by
    rcases doomMember_eq m memberCcid with h | h
    · rw [h]
      exact spared_of_legs rfl []
    · rw [h]
      intro leg hleg _ c hc
      have hccid := (truthy_eq_some.1 hc).1
      by_cases hmember : c = memberCcid
      · exact Or.inr (Or.inr ⟨true, by rw [hmember]; exact List.mem_singleton_self _⟩)
      · obtain ⟨b, hb, hsame⟩ :=
          exists_of_mem_left (sameIfOther_setLegStatus m memberCcid .canceling) hleg
        have hne : leg.ccid ≠ some memberCcid := by
          rw [hccid]
          simpa using hmember
        exact Or.inl (hsame hne ▸ hb)
  have hend := settles_terminalize (.answerOutcome false memberCcid userId answeredAtIso) []
    hspared nowMs (missedState (doomMember m memberCcid).1)
    (some (syntheticMerge .missed none)) (some .missed) {}
  unfold reduceAnswerOutcome
  rw [if_neg (by rw [hring]; decide), if_pos (show (!false) = true from rfl)]
  rwa [List.append_nil] at hend

/-- **A step that ends the ring settles it**: on a machine with distinct ccids, and with a dial
outcome only ever about a record without one, every step from `ringing` but the ring alarm either
stays in `ringing` or leaves no leg up and every leg that was ringing settled. -/
theorem machineStep_ringEnds (i : Input) (hring : m.state = .ringing)
    (hdir : m.direction = .inbound) (hdistinct : CcidsDistinct m)
    (hkey : ∀ key ccid failure, i.event = .dialOutcome key ccid failure →
      ∀ leg ∈ m.legs, leg.key = key → leg.ccid = none) (halarm : i.event ≠ .alarmRing) :
    RingEnds m i.event (machineStep m i) := by
  unfold machineStep reduceMachine
  cases hevent : i.event with
  | alarmRing => exact absurd hevent halarm
  | memberLegHangup => exact reduceMemberHangup_ringEnds _ _ _ hring
  | inboundHangup => exact reduceInboundHangup_ringEnds _ _ _ _ hring
  | outboundHangup => exact reduceOutboundHangup_ringEnds _ _ hring
  | alarmJanitor => exact reduceAlarmJanitor_ringEnds _ hring
  | outboundPlacerHangup => exact reduceOutboundPlacerHangup_ringEnds _ _ _ hring
  | decline => exact reduceDecline_ringEnds _ hring
  | alarmRingStep => exact reduceAlarmRingStep_ringEnds _ _ hring
  | pushFanoutSettled => exact reducePushFanoutSettled_ringEnds _ hring
  | memberProbeOutcome => exact reduceMemberProbeOutcome_ringEnds _ _ _ _ hring
  | dialOutcome key ccid failure =>
    exact reduceDialOutcome_ringEnds key ccid failure _ hring hdir
      (hkey key ccid failure hevent)
  | answerOutcome ok memberCcid userId answeredAtIso =>
    cases ok with
    | true => exact reduceAnswerOutcome_won _ _ _ _ hring hdistinct
    | false => exact reduceAnswerOutcome_lost _ _ _ _ hring
  | initiated | outboundInitiated | setOwner | registerIntent => exact Or.inl hring
  | memberLegAnswered =>
    left
    simp only [quiet, reduceMemberAnswered]
    split
    · simpa using hring
    · split_ifs <;> simpa [beginAnswer] using hring
  | outboundAnswered => left; simpa [quiet, reduceOutboundAnswered, hdir] using hring
  | outboundPlacerAnswered => left; simpa [quiet, reduceOutboundPlacerAnswered, hdir] using hring
  | speakEnded =>
    left
    simp only [quiet, reduceSpeakEnded]
    split_ifs <;> simp_all
  | noticeAnswerOutcome =>
    left
    simp only [quiet, reduceNoticeAnswerOutcome]
    split_ifs
    · exact hring
    · split <;> exact hring
  | recordingSaved => left; simp [quiet, reduceRecordingSaved, hring]
  | ringMe =>
    left
    simp only [reduceRingMe]
    split <;> exact hring
  | clearIntent | alarmIntentExpiry =>
    left
    simp only [quiet, reduceIntentOver]
    split_ifs <;> exact hring
  | vmAnswerOutcome => left; simp [quiet, reduceVmAnswerOutcome, hring]
  | inboundLegGone => left; simp [quiet, reduceInboundLegGone, hring]

end Calls
