/-
**Which phones a call rings.**

A phone is dialed from four places: the mint, the cascade step, a ring-me and, for an outbound call,
the placer's dial.  Each has its own filter and its own cap.  This module follows them over a run.
Who has declined is never dialed again, although the decline may fall between the moment a queue is
computed and the moment its head is dialed; and every phone that is dialed has its record in the
machine after the same step, so that the leg list is a ledger of what was dialed and its length the
budget that was spent.

Main results:

* `Calls.decliner_never_rung` — **a decliner is never dialed again**, and nobody is taken off the
  list of decliners;
* `Calls.legs_within_budget` — **the leg list never shrinks, never outgrows the cap, and accounts
  for every dial.**
-/

import Texturion.CallRinging

namespace Calls

open FirstMatch

variable {m : SessionMachine}

/-! ### Dials -/

def Effect.dialed : Effect → List DialLeg
  | .telnyxDial legs => legs
  | _ => []

def dialedLegs (es : List Effect) : List DialLeg := es.flatMap Effect.dialed

theorem dialedLegs_append (es es' : List Effect) :
    dialedLegs (es ++ es') = dialedLegs es ++ dialedLegs es' := List.flatMap_append

variable {es : List Effect} {i : Input} {l l' : List LegRecord}

theorem mem_dialedLegs {leg : DialLeg} :
    leg ∈ dialedLegs es ↔ ∃ legs, .telnyxDial legs ∈ es ∧ leg ∈ legs := by
  constructor
  · intro h
    obtain ⟨e, he, hleg⟩ := List.mem_flatMap.1 h
    cases e with
    | telnyxDial legs => exact ⟨legs, he, hleg⟩
    | _ => cases hleg
  · rintro ⟨legs, he, hleg⟩
    exact List.mem_flatMap.2 ⟨_, he, hleg⟩

/-! ### Decliners -/

@[simp] theorem runAvenueLadder_declined (m : SessionMachine) :
    (runAvenueLadder m).1.declinedUserIds = m.declinedUserIds := by
  obtain ⟨_, _, _, h⟩ := runAvenueLadder_eq m
  rw [h]

theorem CoreMove.declines {m c : SessionMachine} {event : SessionEvent} (h : CoreMove m event c) :
    Declines m event c.declinedUserIds := by
  cases h with
  | still hdeclined => exact hdeclined
  | voicemail hdeclined => exact hdeclined
  | @ended n target hn =>
    left
    obtain ⟨owner, atIso, hcore, -⟩ := core_of_ended hn
    rw [hcore]
    rfl
  | _ => exact Or.inl rfl

/-- **Nobody is taken off the list of decliners.** -/
theorem machineStep_declined (m : SessionMachine) (i : Input) :
    m.declinedUserIds <+: (machineStep m i).1.declinedUserIds := by
  have hdeclines : Declines m i.event (machineStep m i).1.declinedUserIds :=
    (machineStep_core m i).declines
  rcases hdeclines with h | ⟨userId, -, h⟩
  · exact ⟨[], by rw [List.append_nil, h]⟩
  · exact ⟨[userId], h.symm⟩

theorem ringMeRefusal_none {userId : String} {noLocalLeg : Bool} {nowMs : ℤ}
    (h : ringMeRefusal m userId noLocalLeg nowMs = none) :
    m.state = .ringing ∧ userId ∉ m.declinedUserIds ∧ m.legs.length < MAX_LEGS_PER_SESSION := by
  unfold ringMeRefusal at h
  simp only at h
  split_ifs at h with hring hdeclined hlive hrecent hcap
  refine ⟨by simpa using hring, ?_, by omega⟩
  simpa using hdeclined

theorem machineStep_dials_willing {leg : DialLeg}
    (h : leg ∈ dialedLegs (machineStep m i).2) : leg.userId ∉ m.declinedUserIds := by
  obtain ⟨legs, hdial, hleg⟩ := mem_dialedLegs.1 h
  have hmay := machineStep_mayEmit m i _ hdial
  unfold machineStep reduceMachine at hdial
  cases hevent : i.event with
  | ringMe userId sipUsername noLocalLeg =>
    simp only [hevent, reduceRingMe] at hdial
    cases hrefusal : ringMeRefusal m userId noLocalLeg i.nowMs with
    | some reason =>
      simp only [hrefusal] at hdial
      split_ifs at hdial
      · simp [ringMeCapWarning] at hdial
      · cases hdial
    | none =>
      simp only [hrefusal, List.mem_singleton, Effect.telnyxDial.injEq] at hdial
      rw [hdial, List.mem_singleton] at hleg
      rw [hleg]
      exact (ringMeRefusal_none hrefusal).2.1
  | alarmRingStep =>
    simp only [hevent, quiet] at hdial
    rcases reduceAlarmRingStep_cases m i.nowMs i.pendingKeyFor with
      hr | ⟨_, _, hr⟩ | ⟨target, rest, _, hwait, ⟨_, hr⟩ | ⟨_, hr⟩⟩
    · rw [hr] at hdial
      cases hdial
    · rw [hr] at hdial
      have hladder := runAvenueLadder_within { m with queuedTargets := [] } _ hdial
      cases hladder
    · rw [hr] at hdial
      cases hdial
    · rw [hr] at hdial
      rcases List.mem_cons.1 hdial with heq | harm
      · injection heq with heq
        rw [heq, List.mem_singleton] at hleg
        rw [hleg]
        have hwaits : target ∈ waitingTargets m := by
          rw [hwait]
          exact List.mem_cons_self ..
        have hkept := (List.mem_filter.1 hwaits).2
        show target.userId ∉ m.declinedUserIds
        simpa using hkept
      · exact absurd harm (armRingStep_no_dial _ _ legs)
  | _ => rw [hevent] at hmay; cases hmay

def AcceptsDecline (m : SessionMachine) (i : Input) (userId : String) : Prop :=
  i.event = .decline userId ∧ ∃ state reason,
    (reduceMachine m i.event i.nowMs i.clockMs i.pendingKeyFor).reply =
      some (.decline true state reason)

theorem AcceptsDecline.recorded {userId : String} (h : AcceptsDecline m i userId) :
    userId ∈ (machineStep m i).1.declinedUserIds := by
  obtain ⟨hevent, state, reason, hreply⟩ := h
  unfold machineStep
  rw [hevent] at hreply ⊢
  simp only [reduceMachine, reduceDecline] at hreply ⊢
  split_ifs at hreply ⊢
  · simp at hreply
  · simp at hreply
  · simp only [runAvenueLadder_declined, withoutMember]
    split_ifs with hmem
    · exact List.contains_iff_mem.1 hmem
    · exact List.mem_append_right _ (List.mem_singleton_self _)

theorem declined_run (m : SessionMachine) (is : List Input) :
    m.declinedUserIds <+: (Reactive.final machineStep m is).declinedUserIds :=
  Reactive.final_of_inv machineStep (P := fun n => m.declinedUserIds <+: n.declinedUserIds)
    (fun n i h => h.trans (machineStep_declined n i)) (List.prefix_refl _) is

/-- **A decliner is never rung again.**  In every run of a call the list of decliners only grows;
and once the reducer has accepted a member's decline, no dial effect of that step or of any later
one is for that member. -/
theorem decliner_never_rung (r : CallRun) :
    (∀ js ks, r.inputs = js ++ ks →
      (Reactive.final machineStep r.start.1 js).declinedUserIds <+: r.machine.declinedUserIds) ∧
    ∀ js i ks userId, r.inputs = js ++ i :: ks →
      AcceptsDecline (Reactive.final machineStep r.start.1 js) i userId →
        ∀ leg ∈ dialedLegs (Reactive.outputs machineStep
            (Reactive.final machineStep r.start.1 js) (i :: ks)), leg.userId ≠ userId := by
  constructor
  · intro js ks hsplit
    rw [CallRun.machine, hsplit, Reactive.final_append]
    exact declined_run _ ks
  · intro js i ks userId _ haccepts
    generalize Reactive.final machineStep r.start.1 js = m at haccepts ⊢
    have hlater : ∀ (n : SessionMachine) (j : Input) (out : List Effect),
        (userId ∈ n.declinedUserIds ∧ ∀ leg ∈ dialedLegs out, leg.userId ≠ userId) →
        userId ∈ (machineStep n j).1.declinedUserIds ∧
          ∀ leg ∈ dialedLegs (out ++ (machineStep n j).2), leg.userId ≠ userId := by
      rintro n j out ⟨hrecorded, hout⟩
      refine ⟨(machineStep_declined n j).subset hrecorded, fun leg hleg heq => ?_⟩
      rw [dialedLegs_append] at hleg
      rcases List.mem_append.1 hleg with hleg | hleg
      · exact hout leg hleg heq
      · exact machineStep_dials_willing hleg (heq ▸ hrecorded)
    have hnow : ∀ leg ∈ dialedLegs (machineStep m i).2, leg.userId ≠ userId := by
      intro leg hleg
      obtain ⟨legs, hdial, _⟩ := mem_dialedLegs.1 hleg
      have hmay := machineStep_mayEmit m i _ hdial
      rw [haccepts.1] at hmay
      cases hmay
    rw [Reactive.outputs_cons]
    exact (Reactive.outputs_of_inv machineStep (P := fun n out => userId ∈ n.declinedUserIds ∧
      ∀ leg ∈ dialedLegs out, leg.userId ≠ userId) hlater ⟨haccepts.recorded, hnow⟩ ks).2

def crewInTurn : InitiatedContext := { crewOfOne with
  ringStrategy := .inTurn
  dialTargets := [⟨"ana", "ana-sip"⟩, ⟨"bo", "bo-sip"⟩] }

/-- Ana's phone rings first; Bo declines while he waits in the queue, and then his turn comes. -/
def declinedInTurn : CallRun where
  mint := .inbound crewInTurn
  nowMs := 0
  clockMs := 0
  pendingKeyFor := strokes 0
  inputs := [⟨.decline "bo", 4000, 4000, strokes 1⟩, ⟨.alarmRingStep, 8000, 8000, strokes 1⟩]

/-- Bo's phone is left alone. -/
theorem decliner_never_rung_inTurn :
    ∀ leg ∈ dialedLegs (Reactive.outputs machineStep declinedInTurn.start.1
      declinedInTurn.inputs), leg.userId ≠ "bo" :=
  (decliner_never_rung declinedInTurn).2 [] _ _ "bo" rfl ⟨rfl, .ringing, none, by decide⟩

/-! ### The ledger of dials -/

/-- What a dial says of the phone it rings: the pending key, the user and the target. -/
def LegRecord.called (leg : LegRecord) : String × String × String :=
  (leg.key, leg.userId, leg.sipTarget)

/-- The phones an effect rings, the placer's own among them. -/
def Effect.called : Effect → List (String × String × String)
  | .telnyxDial legs => legs.map fun leg => (leg.pendingKey, leg.userId, leg.sipTarget)
  | .telnyxDialPlacer key userId sipTarget => [(key, userId, sipTarget)]
  | _ => []

def calledBy (es : List Effect) : List (String × String × String) := es.flatMap Effect.called

theorem calledBy_append (es es' : List Effect) :
    calledBy (es ++ es') = calledBy es ++ calledBy es' := List.flatMap_append

theorem calledBy_eq_nil (hdial : ∀ legs, Effect.telnyxDial legs ∉ es)
    (hplacer : ∀ key userId target, Effect.telnyxDialPlacer key userId target ∉ es) :
    calledBy es = [] := by
  refine List.flatMap_eq_nil_iff.2 fun e he => ?_
  cases e with
  | telnyxDial legs => exact absurd he (hdial legs)
  | telnyxDialPlacer key userId target => exact absurd he (hplacer key userId target)
  | _ => rfl

theorem length_dialedLegs_le (es : List Effect) :
    (dialedLegs es).length ≤ (calledBy es).length := by
  induction es with
  | nil => exact le_rfl
  | cons e es ih =>
    have hhead : e.dialed.length ≤ e.called.length := by
      cases e with
      | telnyxDial legs => simp [Effect.dialed, Effect.called]
      | _ => exact Nat.zero_le _
    have hdialed : dialedLegs (e :: es) = e.dialed ++ dialedLegs es := rfl
    have hcalled : calledBy (e :: es) = e.called ++ calledBy es := rfl
    rw [hdialed, hcalled, List.length_append, List.length_append]
    exact Nat.add_le_add hhead ih

/-- A record that is kept: the same phone of the same user.  It is renamed only by the ccid it is
given, and never loses one. -/
structure LegKept (a b : LegRecord) : Prop where
  userId : b.userId = a.userId
  sipTarget : b.sipTarget = a.sipTarget
  waiting : b.ccid = none → a.ccid = none ∧ b.key = a.key
  named : ∀ c, b.ccid = some c → b.key = legKey c ∨ a.ccid = some c ∧ b.key = a.key

theorem LegKept.refl (a : LegRecord) : LegKept a a :=
  ⟨rfl, rfl, fun h => ⟨h, rfl⟩, fun _ h => Or.inr ⟨h, rfl⟩⟩

theorem LegKept.trans {a b c : LegRecord} (hab : LegKept a b) (hbc : LegKept b c) :
    LegKept a c := by
  refine ⟨hbc.userId.trans hab.userId, hbc.sipTarget.trans hab.sipTarget, fun h => ?_,
    fun d h => ?_⟩
  · obtain ⟨hb, hkey⟩ := hbc.waiting h
    obtain ⟨ha, hkey'⟩ := hab.waiting hb
    exact ⟨ha, hkey.trans hkey'⟩
  · rcases hbc.named d h with hkey | ⟨hb, hkey⟩
    · exact Or.inl hkey
    · rw [hkey]
      exact hab.named d hb

theorem Calmer.legKept {a b : LegRecord} (h : Calmer a b) : LegKept a b := by
  obtain ⟨s, rfl, _⟩ := h
  exact ⟨rfl, rfl, fun h => ⟨h, rfl⟩, fun _ h => Or.inr ⟨h, rfl⟩⟩

theorem legKept_of_named (leg : LegRecord) (c : String) (s : LegStatus) :
    LegKept leg { leg with ccid := some c, key := legKey c, status := s } := by
  refine ⟨rfl, rfl, fun h => (by cases h), fun d h => Or.inl ?_⟩
  obtain rfl : c = d := by simpa using h
  rfl

abbrev LegsKept (l l' : List LegRecord) : Prop := List.Forall₂ LegKept l l'

theorem LegsKept.refl (l : List LegRecord) : LegsKept l l :=
  List.forall₂_same.2 fun leg _ => LegKept.refl leg

theorem LegsKept.trans {l₁ l₂ l₃ : List LegRecord} (h₁ : LegsKept l₁ l₂) (h₂ : LegsKept l₂ l₃) :
    LegsKept l₁ l₃ :=
  forall₂_trans (R := LegKept) (fun _ _ _ hab hbc => hab.trans hbc) h₁ h₂

theorem legsKept_of_calmer (h : LegsCalmer l l') : LegsKept l l' :=
  h.imp fun _ _ => Calmer.legKept

theorem legsKept_adoptLeg (m : SessionMachine) (ccid userId : String)
    (destination : Option String) (wake : LegStatus → LegStatus) :
    LegsKept m.legs (adoptLeg m ccid userId destination wake).legs :=
  forall₂_updateFirst _ _ LegKept.refl
    (fun leg _ => legKept_of_named leg ccid (wake leg.status)) m.legs

theorem legsKept_landLeg (m : SessionMachine) (key ccid : String) :
    LegsKept m.legs (updateLegByKey m key (landLeg ccid)).legs :=
  forall₂_updateFirst _ _ LegKept.refl (fun leg _ => legKept_of_named leg ccid _) m.legs

/-- The placer's answer is attached to a record, and marks it answered. -/
theorem reduceOutboundPlacerAnswered_kept (m : SessionMachine) (ccid userId : String)
    (destination : Option String) :
    LegsKept m.legs (reduceOutboundPlacerAnswered m ccid userId destination).1.legs := by
  have hresolve : LegsKept m.legs (resolveLeg m ccid userId destination true id).legs := by
    rcases resolveLeg_eq_or m ccid userId destination true id with
      ⟨_, _, h⟩ | ⟨_, _, _, h⟩ | ⟨_, _, h⟩
    · rw [h]
      exact LegsKept.refl _
    · rw [h]
      exact legsKept_adoptLeg m ccid userId destination id
    · rw [h]
      exact LegsKept.refl _
  unfold reduceOutboundPlacerAnswered
  simp only
  split_ifs
  · exact LegsKept.refl _
  · split
    · exact hresolve
    · split_ifs
      · exact hresolve
      · exact hresolve.trans (legsKept_of_calmer (legsCalmer_setLegStatus _ ccid rfl))

theorem machineStep_kept {m : SessionMachine} (hdials : i.event.dials = false) :
    LegsKept m.legs (machineStep m i).1.legs := by
  by_cases hplacer : ∃ ccid userId destination,
      i.event = .outboundPlacerAnswered ccid userId destination
  · obtain ⟨ccid, userId, destination, hevent⟩ := hplacer
    have hkept := reduceOutboundPlacerAnswered_kept m ccid userId destination
    unfold machineStep
    rw [hevent]
    exact hkept
  · have hmove := machineStep_legs_of (m := m) i fun ccid userId destination hevent =>
    absurd ⟨ccid, userId, destination, hevent⟩ hplacer
    generalize (machineStep m i).1.legs = l at hmove ⊢
    cases hmove with
    | calm hcalm => exact legsKept_of_calmer hcalm
    | adopt _ _ _ _ hcalm =>
      exact (legsKept_adoptLeg m _ _ _ _).trans (legsKept_of_calmer hcalm)
    | land => exact legsKept_landLeg m _ _
    | append hdial =>
      rw [hdials] at hdial
      cases hdial

theorem calledBy_armRingStep (m : SessionMachine) (nowMs : ℤ) :
    calledBy (armRingStep m nowMs) = [] := by
  unfold armRingStep
  split_ifs
  · rfl
  · cases m.ringDeadlineMs with
    | none => rfl
    | some deadline =>
      simp only
      split_ifs <;> rfl

/-- **The ledger grows by what is dialed.**  A step keeps the records it finds, and the phones it
calls are the records it adds; it adds at most one, while there is room for it. -/
theorem machineStep_ledger (m : SessionMachine) (i : Input) :
    calledBy (machineStep m i).2 = [] ∧ LegsKept m.legs (machineStep m i).1.legs ∨
      ∃ leg : LegRecord, m.legs.length < MAX_LEGS_PER_SESSION ∧ leg.ccid = none ∧
        leg.key = pendingKey (i.pendingKeyFor 0) ∧
        calledBy (machineStep m i).2 = [leg.called] ∧
        (machineStep m i).1.legs = m.legs ++ [leg] := by
  have hnone : (∀ legs, Effect.telnyxDial legs ∉ (machineStep m i).2) →
      calledBy (machineStep m i).2 = [] :=
    fun h => calledBy_eq_nil h (machineStep_no_placer m i)
  by_cases hdials : i.event.dials = true
  · unfold machineStep reduceMachine at hnone ⊢
    cases hevent : i.event with
    | ringMe userId sipUsername noLocalLeg =>
      simp only [hevent, reduceRingMe] at hnone ⊢
      cases hrefusal : ringMeRefusal m userId noLocalLeg i.nowMs with
      | some reason =>
        refine Or.inl ⟨?_, LegsKept.refl _⟩
        simp only
        split_ifs <;> rfl
      | none => exact Or.inr ⟨_, (ringMeRefusal_none hrefusal).2.2, rfl, rfl, rfl, rfl⟩
    | alarmRingStep =>
      simp only [hevent, quiet] at hnone ⊢
      rcases reduceAlarmRingStep_cases m i.nowMs i.pendingKeyFor with
        h | ⟨_, _, h⟩ | ⟨target, rest, _, _, ⟨_, h⟩ | ⟨hroom, h⟩⟩
      · rw [h]
        exact Or.inl ⟨rfl, LegsKept.refl _⟩
      · rw [h] at hnone ⊢
        have hladder : LegsKept m.legs
            (runAvenueLadder { m with queuedTargets := [] }).1.legs := by
          rw [runAvenueLadder_legs]
          exact LegsKept.refl _
        refine Or.inl ⟨hnone fun legs hdial => ?_, hladder⟩
        have hwithin := runAvenueLadder_within { m with queuedTargets := [] } _ hdial
        cases hwithin
      · rw [h]
        exact Or.inl ⟨rfl, LegsKept.refl _⟩
      · rw [h]
        refine Or.inr ⟨dialLegFor target i.nowMs (i.pendingKeyFor 0), by omega, rfl, rfl, ?_, rfl⟩
        have hcalled : ∀ (leg : LegRecord) (es : List Effect),
            calledBy (.telnyxDial [leg.toDialLeg] :: es) = leg.called :: calledBy es :=
          fun _ _ => rfl
        rw [hcalled, calledBy_armRingStep]
    | _ => rw [hevent] at hdials; cases hdials
  · refine Or.inl ⟨hnone fun legs hdial => ?_, machineStep_kept (by simpa using hdials)⟩
    obtain ⟨_, _, _, _, _, hevent, _⟩ := machineStep_dial hdial
    exact hdials hevent

/-! ### The mint's ledger -/

theorem length_ringTargets_le (context : InitiatedContext) :
    (ringTargets context).length ≤ MAX_LEGS_PER_SESSION := by
  unfold ringTargets
  split_ifs with hmany
  · exact List.length_take_le _ _
  · exact Nat.not_lt.1 hmany

theorem length_ringNow_le (context : InitiatedContext) :
    (ringNow context).length ≤ MAX_LEGS_PER_SESSION := by
  have htargets := length_ringTargets_le context
  unfold ringNow
  split_ifs
  · exact (List.length_take_le' _ _).trans htargets
  · exact htargets

/-- A list of legs the mint may leave: within the cap, waiting for their ccids, under keys made of
the uuids the shell hands out, in order. -/
structure Minted (pendingKeyFor : ℕ → String) (legs : List LegRecord) : Prop where
  length_le : legs.length ≤ MAX_LEGS_PER_SESSION
  waiting : ∀ leg ∈ legs, leg.ccid = none
  keys : legs.map LegRecord.key =
    (List.range legs.length).map fun k => pendingKey (pendingKeyFor k)

theorem minted_nil (pendingKeyFor : ℕ → String) : Minted pendingKeyFor [] :=
  ⟨Nat.zero_le _, by simp, rfl⟩

theorem minted_ringNow (context : InitiatedContext) (nowMs : ℤ) (pendingKeyFor : ℕ → String) :
    Minted pendingKeyFor ((ringNow context).zipIdx.map fun target =>
      dialLegFor target.1 nowMs (pendingKeyFor target.2)) := by
  refine ⟨?_, fun leg hleg => ?_, ?_⟩
  · rw [List.length_map, List.length_zipIdx]
    exact length_ringNow_le context
  · obtain ⟨target, _, rfl⟩ := List.mem_map.1 hleg
    rfl
  · have hindices : (ringNow context).zipIdx.map Prod.snd =
        List.range (ringNow context).length := by
      rw [List.zipIdx_map_snd, List.range_eq_range']
    rw [List.length_map, List.length_zipIdx, ← hindices, List.map_map, List.map_map]
    rfl

theorem calledBy_vmEntry (m : SessionMachine) : calledBy (vmEntry m).2 = [] := by
  unfold vmEntry ifTruthy
  cases truthy m.customerCcid <;> rfl

theorem calledBy_ringStart (context : InitiatedContext) (nowMs : ℤ) (pendingKeyFor : ℕ → String) :
    calledBy (ringStart context nowMs pendingKeyFor).2 =
      (ringStart context nowMs pendingKeyFor).1.legs.map LegRecord.called := by
  have hwarn : calledBy (if context.dialTargets.length > MAX_LEGS_PER_SESSION then
      [overCapWarning context.dialTargets.length] else []) = [] := by
    split_ifs <;> rfl
  unfold ringStart
  simp only [calledBy_append, hwarn, calledBy_armRingStep]
  split_ifs with hpos
  · simp [calledBy, Effect.called, LegRecord.called, LegRecord.toDialLeg]
  · have hnil := List.eq_nil_of_length_eq_zero (Nat.eq_zero_of_not_pos hpos)
    rw [hnil]
    rfl

/-- **The mint records whom it dials.** -/
theorem mint_ledger (mint : Mint) (nowMs : ℤ) (pendingKeyFor : ℕ → String) :
    Minted pendingKeyFor (mint.start nowMs pendingKeyFor).1.legs ∧
      calledBy (mint.start nowMs pendingKeyFor).2 =
        (mint.start nowMs pendingKeyFor).1.legs.map LegRecord.called := by
  cases mint with
  | inbound context =>
    have hcons : ∀ (atMs : ℤ) (es : List Effect),
        calledBy (.armAlarm .janitor atMs :: es) = calledBy es := fun _ _ => rfl
    simp only [Mint.start, reduceInitiated, hcons, initiatedBranch]
    split_ifs
    · exact ⟨minted_nil _, calledBy_vmEntry _⟩
    · refine ⟨minted_nil _, ?_⟩
      unfold suspendedStart
      simp only
      split_ifs <;> rfl
    · exact ⟨minted_nil _, rfl⟩
    · exact ⟨minted_nil _, calledBy_vmEntry _⟩
    · exact ⟨minted_ringNow context nowMs pendingKeyFor, calledBy_ringStart ..⟩
  | outbound context =>
    simp only [Mint.start, reduceOutboundInitiated]
    split
    · refine ⟨⟨Nat.le_add_left 1 23, fun leg hleg => ?_, rfl⟩, rfl⟩
      rw [List.mem_singleton.1 hleg]
      rfl
    · exact ⟨minted_nil _, rfl⟩

/-! ### The budget over a run -/

/-- The ledger of a run so far: within the cap, one record for each phone that was called, and
every record with a ccid under the key of that ccid. -/
structure DialLedger (m : SessionMachine) (es : List Effect) : Prop where
  within : m.legs.length ≤ MAX_LEGS_PER_SESSION
  count : (calledBy es).length = m.legs.length
  named : ∀ leg ∈ m.legs, ∀ c, leg.ccid = some c → leg.key = legKey c

theorem LegsKept.named (h : LegsKept l l')
    (hl : ∀ leg ∈ l, ∀ c, leg.ccid = some c → leg.key = legKey c) :
    ∀ leg ∈ l', ∀ c, leg.ccid = some c → leg.key = legKey c := by
  intro leg hleg c hc
  obtain ⟨before, hbefore, hkept⟩ := exists_of_mem_right h hleg
  rcases hkept.named c hc with hkey | ⟨hccid, hkey⟩
  · exact hkey
  · rw [hkey]
    exact hl before hbefore c hccid

theorem DialLedger.step {m : SessionMachine} (h : DialLedger m es) (i : Input) :
    DialLedger (machineStep m i).1 (es ++ (machineStep m i).2) := by
  rcases machineStep_ledger m i with ⟨hcalled, hkept⟩ | ⟨leg, hroom, hccid, _, hcalled, hlegs⟩
  · have hlength := hkept.length_eq
    refine ⟨hlength ▸ h.within, ?_, hkept.named h.named⟩
    rw [calledBy_append, hcalled, List.append_nil, h.count, hlength]
  · have hcount := h.count
    refine ⟨?_, ?_, ?_⟩
    · rw [hlegs, List.length_append, List.length_singleton]
      exact hroom
    · rw [calledBy_append, hcalled, hlegs, List.length_append, List.length_append, hcount]
      rfl
    · rw [hlegs]
      intro a ha c hc
      rcases List.mem_append.1 ha with ha | ha
      · exact h.named a ha c hc
      · rw [List.mem_singleton.1 ha, hccid] at hc
        cases hc

theorem dialLedger_run (r : CallRun) : DialLedger r.machine r.effects := by
  obtain ⟨hminted, hcalled⟩ := mint_ledger r.mint r.nowMs r.pendingKeyFor
  have hstart : DialLedger r.start.1 r.start.2 := by
    refine ⟨hminted.length_le, ?_, fun leg hleg c hc => ?_⟩
    · rw [CallRun.start, hcalled, List.length_map]
    · rw [hminted.waiting leg hleg] at hc
      cases hc
  exact Reactive.outputs_of_inv machineStep (fun m i out h => h.step i) hstart r.inputs

/-- Two records that both wait for their ccid have different keys. -/
def WaitingApart (legs : List LegRecord) : Prop :=
  legs.Pairwise fun a b => a.ccid = none → b.ccid = none → a.key ≠ b.key

theorem LegsKept.waitingApart (h : LegsKept l l') (hl : WaitingApart l) : WaitingApart l' := by
  refine pairwise_of_forall₂ (fun a a' b b' ha hb hab ha' hb' => ?_) h hl
  obtain ⟨hwait, hkey⟩ := ha.waiting ha'
  obtain ⟨hwait', hkey'⟩ := hb.waiting hb'
  rw [hkey, hkey']
  exact hab hwait hwait'

theorem Minted.waitingApart {pendingKeyFor : ℕ → String} {legs : List LegRecord}
    (h : Minted pendingKeyFor legs) (huuid : Function.Injective pendingKeyFor) :
    WaitingApart legs := by
  have hnodup : (legs.map LegRecord.key).Nodup := by
    rw [h.keys]
    exact List.Nodup.map (pendingKey_injective.comp huuid) List.nodup_range
  exact (List.pairwise_map.1 hnodup).imp fun {a b} hne (_ : a.ccid = none) _ => hne

theorem machineStep_waitingApart {m : SessionMachine} (h : WaitingApart m.legs)
    (hfresh : FreshUuids m.legs i.pendingKeyFor) : WaitingApart (machineStep m i).1.legs := by
  rcases machineStep_ledger m i with ⟨_, hkept⟩ | ⟨leg, _, _, hkey, _, hlegs⟩
  · exact hkept.waitingApart h
  · rw [hlegs]
    refine List.pairwise_append.2 ⟨h, List.pairwise_singleton _ _, fun a ha b hb _ _ => ?_⟩
    rw [List.mem_singleton.1 hb, hkey]
    exact hfresh.unused 0 a ha

def FreshRun (r : CallRun) : Prop :=
  Function.Injective r.pendingKeyFor ∧
    Reactive.Along machineStep (fun m i => FreshUuids m.legs i.pendingKeyFor) r.start.1 r.inputs

/-- No two records share a pending key, where the carrier has not spelled one as a ccid. -/
def SharesNoPendingKey (legs : List LegRecord) : Prop :=
  legs.Pairwise fun a b => ∀ uuid, a.key = pendingKey uuid → b.key = pendingKey uuid →
    ∃ c, (a.ccid = some c ∨ b.ccid = some c) ∧ pendingKey uuid = legKey c

theorem sharesNoPendingKey {legs : List LegRecord} (hapart : WaitingApart legs)
    (hnamed : ∀ leg ∈ legs, ∀ c, leg.ccid = some c → leg.key = legKey c) :
    SharesNoPendingKey legs := by
  refine hapart.imp_of_mem fun {a b} ha hb hne uuid hakey hbkey => ?_
  cases haccid : a.ccid with
  | some c =>
    refine ⟨c, Or.inl rfl, ?_⟩
    rw [← hakey]
    exact hnamed a ha c haccid
  | none =>
    cases hbccid : b.ccid with
    | some c =>
      refine ⟨c, Or.inr rfl, ?_⟩
      rw [← hbkey]
      exact hnamed b hb c hbccid
    | none => exact absurd (hakey.trans hbkey.symm) (hne haccid hbccid)

/-- The records of a machine are found, in order and for the same phones, in any later one. -/
def LegsOutlive (l l' : List LegRecord) : Prop := ∃ kept added, l' = kept ++ added ∧ LegsKept l kept

theorem LegsOutlive.trans {l₁ l₂ l₃ : List LegRecord} (h₁ : LegsOutlive l₁ l₂)
    (h₂ : LegsOutlive l₂ l₃) : LegsOutlive l₁ l₃ := by
  obtain ⟨kept, added, rfl, hkept⟩ := h₁
  obtain ⟨kept', added', rfl, hkept'⟩ := h₂
  have htake := List.forall₂_take kept.length hkept'
  rw [List.take_left] at htake
  refine ⟨kept'.take kept.length, kept'.drop kept.length ++ added', ?_, hkept.trans htake⟩
  rw [← List.append_assoc, List.take_append_drop]

theorem machineStep_legs_outlive (m : SessionMachine) (i : Input) :
    LegsOutlive m.legs (machineStep m i).1.legs := by
  rcases machineStep_ledger m i with ⟨_, hkept⟩ | ⟨leg, _, _, _, _, hlegs⟩
  · exact ⟨_, [], (List.append_nil _).symm, hkept⟩
  · exact ⟨m.legs, [leg], hlegs, LegsKept.refl _⟩

theorem machineStep_records (m : SessionMachine) (i : Input) :
    ∀ call ∈ calledBy (machineStep m i).2, ∃ leg ∈ (machineStep m i).1.legs, leg.called = call := by
  intro call hcall
  rcases machineStep_ledger m i with ⟨hnone, _⟩ | ⟨leg, _, _, _, hcalled, hlegs⟩
  · rw [hnone] at hcall
    cases hcall
  · rw [hcalled] at hcall
    refine ⟨leg, ?_, (List.mem_singleton.1 hcall).symm⟩
    rw [hlegs]
    exact List.mem_append_right _ (List.mem_singleton_self _)

/-- **The leg budget and its bookkeeping.**  In every run of a call the leg list only grows, its
records staying the phones they were; it never exceeds the cap, and neither does the number of legs
dialed over the run; the mint and every step record the phones they call; and where the shell hands
out fresh uuids, no two records share a pending key. -/
theorem legs_within_budget (r : CallRun) :
    (∀ js ks, r.inputs = js ++ ks →
      LegsOutlive (Reactive.final machineStep r.start.1 js).legs r.machine.legs) ∧
    r.machine.legs.length ≤ MAX_LEGS_PER_SESSION ∧
    (dialedLegs r.effects).length ≤ MAX_LEGS_PER_SESSION ∧
    (calledBy r.effects).length = r.machine.legs.length ∧
    (∀ call ∈ calledBy r.start.2, ∃ leg ∈ r.start.1.legs, leg.called = call) ∧
    (∀ js i ks, r.inputs = js ++ i :: ks →
      ∀ call ∈ calledBy (machineStep (Reactive.final machineStep r.start.1 js) i).2,
        ∃ leg ∈ (machineStep (Reactive.final machineStep r.start.1 js) i).1.legs,
          leg.called = call) ∧
    (FreshRun r → SharesNoPendingKey r.machine.legs) := by
  have hledger := dialLedger_run r
  obtain ⟨hminted, hcalled⟩ := mint_ledger r.mint r.nowMs r.pendingKeyFor
  refine ⟨fun js ks hsplit => ?_, hledger.within, ?_, hledger.count, fun call hcall => ?_,
    fun js i ks _ => machineStep_records _ i, fun hfresh => ?_⟩
  · rw [CallRun.machine, hsplit, Reactive.final_append]
    exact Reactive.final_of_inv machineStep
      (P := fun n => LegsOutlive (Reactive.final machineStep r.start.1 js).legs n.legs)
      (fun n i h => h.trans (machineStep_legs_outlive n i))
      ⟨_, [], (List.append_nil _).symm, LegsKept.refl _⟩ ks
  · calc (dialedLegs r.effects).length ≤ (calledBy r.effects).length := length_dialedLegs_le _
      _ = r.machine.legs.length := hledger.count
      _ ≤ MAX_LEGS_PER_SESSION := hledger.within
  · rw [CallRun.start, hcalled] at hcall
    exact List.mem_map.1 hcall
  · have hapart : WaitingApart r.machine.legs :=
      Reactive.final_of_inv_along machineStep (P := fun m => WaitingApart m.legs)
        (fun m i h hi => machineStep_waitingApart h hi) (hminted.waitingApart hfresh.1) hfresh.2
    exact sharesNoPendingKey hapart hledger.named

/-! ### A call to a crew of two, in turn -/

/-- Ana's phone rings first, and Bo's joins it at the cascade step. -/
def inTurnRun : CallRun where
  mint := .inbound crewInTurn
  nowMs := 0
  clockMs := 0
  pendingKeyFor := strokes 0
  inputs := [⟨.alarmRingStep, 8000, 8000, strokes 1⟩]

/-- Both phones are in the ledger, under keys of their own. -/
theorem legs_within_budget_inTurn :
    inTurnRun.machine.legs.length = 2 ∧ SharesNoPendingKey inTurnRun.machine.legs := by
  have hfresh : FreshRun inTurnRun :=
    ⟨strokes_injective 0, freshUuids_pending (by decide), trivial⟩
  obtain ⟨_, _, _, _, _, _, hshared⟩ := legs_within_budget inTurnRun
  exact ⟨by decide, hshared hfresh⟩

end Calls
