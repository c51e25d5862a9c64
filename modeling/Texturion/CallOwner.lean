/-
**No stranded customer.**

Once a call is answered the customer's leg is bridged to the owner's.  When the owner's leg dies
the customer must be hung up, unless a transfer is under way: then the machine remembers the owner
it lost until somebody else takes the call over, or until the transfer is called off and the
customer is hung up after all.  This module follows the owner, the intent and that memory from the
step in which the owner's leg dies through the rest of the run.

A leg's events carry the tag it was dialed with, which names the user it was dialed for; that the
vendor echoes it is the one thing assumed of the vendor.

Main result:

* `Calls.no_stranded_customer` — **after the owner's leg has died, and until a new owner is set, the
  customer has been hung up or is held, and is hung up when the intent ends.**
-/

import Texturion.CallDials
import Texturion.CallAnswered

namespace Calls

open FirstMatch

/-! ### Tags -/

/-- The vendor echoes the tag a leg was dialed with: an event about a ccid names the tag's user,
and a dial comes back as a ccid whose tag names the user of the leg it was made for. -/
def Echoes (tag : String → String) (m : SessionMachine) : SessionEvent → Prop
  | .memberLegAnswered ccid userId _ | .memberLegHangup ccid userId _
  | .outboundPlacerHangup ccid userId => userId = tag ccid
  | .dialOutcome key (some ccid) _ => ∀ leg ∈ m.legs, leg.key = key → leg.userId = tag ccid
  | _ => True

/-- Every leg whose ccid is known belongs to the user its tag names. -/
def Tagged (tag : String → String) (legs : List LegRecord) : Prop :=
  ∀ leg ∈ legs, ∀ c, leg.ccid = some c → leg.userId = tag c

variable {tag : String → String} {m : SessionMachine} {c ccid userId : String} {i : Input}

theorem tagged_of_calmer {l l' : List LegRecord} (h : LegsCalmer l l')
    (hl : Tagged tag l) : Tagged tag l' := by
  intro leg hleg c hc
  obtain ⟨before, hmem, hcalm⟩ := exists_of_mem_right h hleg
  rw [hcalm.ccid] at hc
  rw [hcalm.userId]
  exact hl before hmem c hc

theorem tagged_step (i : Input) (hdir : m.direction = .inbound) (hecho : Echoes tag m i.event)
    (h : Tagged tag m.legs) : Tagged tag (machineStep m i).1.legs := by
  have hmove := machineStep_legs i hdir
  generalize (machineStep m i).1.legs = l at hmove
  cases hmove with
  | calm hcalm => exact tagged_of_calmer hcalm h
  | @adopt _ ccid userId destination wake hevent _ _ _ hcalm =>
    have htag : userId = tag ccid := by
      obtain ⟨event, nowMs, clockMs, pendingKeyFor⟩ := i
      cases event with
      | memberLegAnswered | memberLegHangup => cases hevent; exact hecho
      | _ => cases hevent
    refine tagged_of_calmer hcalm (forall_mem_updateFirst _ _ h fun leg _ hfind _ c hc => ?_)
    have hadopt := List.find?_some hfind
    simp only [adoptable, Bool.and_eq_true, beq_iff_eq] at hadopt
    obtain rfl : ccid = c := by simpa using hc
    exact hadopt.1.2.trans htag
  | @land key ccid failure hevent _ =>
    rw [hevent] at hecho
    refine forall_mem_updateFirst _ _ h fun leg hleg hfind _ c hc => ?_
    have hkey : leg.key = key := by simpa using List.find?_some hfind
    obtain rfl : ccid = c := by simpa [landLeg] using hc
    exact hecho leg hleg hkey
  | append _ _ _ hnone _ _ =>
    intro leg hleg c hc
    rcases List.mem_append.1 hleg with hleg | hleg
    · exact h leg hleg c hc
    · rw [List.mem_singleton.1 hleg, hnone] at hc
      cases hc

/-! ### The owner, the intent and the memory of a lost owner -/

/-- What decides whether a customer is held. -/
def SessionMachine.custody (m : SessionMachine) :
    Option String × Option SessionIntent × Option String :=
  (m.answeredByUserId, m.intent, m.ownerLegDeadDuringIntent)

/-- An intent is registered, and the machine remembers that its owner's leg has died. -/
def Held (m : SessionMachine) : Prop :=
  m.intent ≠ none ∧ m.ownerLegDeadDuringIntent ≠ none ∧
    m.ownerLegDeadDuringIntent = m.answeredByUserId

theorem held_of_custody {m n : SessionMachine} (h : n.custody = m.custody) (hm : Held m) :
    Held n := by
  obtain ⟨howner, hrest⟩ := Prod.mk.inj h
  obtain ⟨hintent, hlost⟩ := Prod.mk.inj hrest
  unfold Held
  rw [howner, hintent, hlost]
  exact hm

/-- The events that may touch the owner, the intent or the legs of an answered call. -/
def SessionEvent.isHandover : SessionEvent → Bool
  | .setOwner _ | .registerIntent .. | .clearIntent | .alarmIntentExpiry | .memberLegHangup ..
  | .outboundPlacerHangup .. | .dialOutcome .. => true
  | _ => false

theorem resolveLeg_answered (hans : m.state = .answered) (ccid userId : String)
    (destination : Option String) (wake : LegStatus → LegStatus) :
    resolveLeg m ccid userId destination (m.state == .ringing) wake = m := by
  rcases resolveLeg_eq_or m ccid userId destination (m.state == .ringing) wake with
    ⟨_, _, h⟩ | ⟨_, habs, _⟩ | ⟨_, _, h⟩
  · exact h
  · simp [hans] at habs
  · exact h

theorem answered_still (i : Input) (hdir : m.direction = .inbound) (hans : m.state = .answered)
    (hevent : i.event.isHandover = false) :
    ((machineStep m i).1.legs = m.legs ∧ (machineStep m i).1.custody = m.custody) ∨
      isTerminal (machineStep m i).1.state = true := by
  have hlive : isTerminal m.state = false := by rw [hans]; rfl
  unfold machineStep reduceMachine
  cases he : i.event with
  | setOwner | registerIntent | clearIntent | alarmIntentExpiry | memberLegHangup
  | outboundPlacerHangup | dialOutcome =>
    rw [he] at hevent
    cases hevent
  | initiated | outboundInitiated => exact Or.inl ⟨rfl, rfl⟩
  | memberLegAnswered ccid userId destination =>
    simp only [quiet, reduceMemberAnswered, resolveLeg_answered hans]
    left
    split
    · exact ⟨rfl, rfl⟩
    · rw [if_pos (by simp [hans])]
      exact ⟨rfl, rfl⟩
  | inboundHangup tag briAnsweredAtIso payload =>
    obtain ⟨_, hresolves⟩ :=
      reduceInboundHangup_resolves tag briAnsweredAtIso payload i.nowMs hlive
    exact Or.inr hresolves.terminal
  | outboundHangup payload =>
    obtain ⟨_, hresolves⟩ := reduceOutboundHangup_resolves payload i.nowMs hlive
    exact Or.inr hresolves.terminal
  | alarmJanitor =>
    right
    simp [quiet, reduceAlarmJanitor, hans, isTerminal]
  | inboundLegGone =>
    right
    simp [quiet, reduceInboundLegGone, hans, isTerminal]
  | outboundAnswered => left; simp [quiet, reduceOutboundAnswered, hdir]
  | outboundPlacerAnswered => left; simp [quiet, reduceOutboundPlacerAnswered, hdir]
  | speakEnded =>
    left
    simp only [quiet, reduceSpeakEnded, hans]
    split_ifs <;> exact ⟨rfl, rfl⟩
  | recordingSaved => left; simp [quiet, reduceRecordingSaved, hans]
  | ringMe => left; simp [reduceRingMe, ringMeRefusal, hans]
  | decline => left; simp [reduceDecline, hans]
  | alarmRing => left; simp [quiet, reduceAlarmRing, hans]
  | alarmRingStep => left; simp [quiet, reduceAlarmRingStep, hans]
  | answerOutcome => left; simp [quiet, reduceAnswerOutcome, hans]
  | noticeAnswerOutcome =>
    left
    simp only [quiet, reduceNoticeAnswerOutcome]
    split_ifs
    · exact ⟨rfl, rfl⟩
    · split <;> exact ⟨rfl, rfl⟩
  | vmAnswerOutcome => left; simp [quiet, reduceVmAnswerOutcome, hans]
  | pushFanoutSettled =>
    left
    simp only [quiet, reducePushFanoutSettled]
    rw [runAvenueLadder_of_not_ringing (by simp [hans])]
    exact ⟨rfl, rfl⟩
  | memberProbeOutcome => left; simp [quiet, reduceMemberProbeOutcome, hans]

/-- A dial that comes back late touches one record and nothing else of an answered call. -/
theorem dialOutcome_custody (key : String) (ccid : Option String) (failure : Option DialFailure)
    (nowMs : ℤ) (hdir : m.direction = .inbound) (hans : m.state = .answered) :
    (reduceDialOutcome m key ccid failure nowMs).1.custody = m.custody := by
  rcases reduceDialOutcome_cases m key ccid failure nowMs with
    ⟨_, h⟩ | ⟨_, _, ⟨_, _, h⟩ | ⟨_, _, h⟩ | ⟨_, hout, _⟩ | ⟨_, hout, _⟩⟩
  · rw [h]
  · rw [h]
    rfl
  · rw [h, runAvenueLadder_of_not_ringing (by simp [updateLegByKey, hans])]
    rfl
  · rw [hdir] at hout
    cases hout
  · rw [hdir] at hout
    cases hout

/-! ### The death of the owner's leg -/

/-- A step that keeps the call answered, and in which the owner's answered leg dies. -/
structure OwnerDies (m m' : SessionMachine) : Prop where
  was : m.state = .answered
  now : m'.state = .answered
  leg : ∃ (k : ℕ) (before after : LegRecord), m.legs[k]? = some before ∧
    m'.legs[k]? = some after ∧ some before.userId = m.answeredByUserId ∧
    before.status = .answered ∧ after.status = .dead

/-- The hangup of the customer leg with a terminal outcome. -/
def HangsUpCustomer (m : SessionMachine) (es : List Effect) : Prop :=
  ∃ c, m.customerCcid = some c ∧ Effect.telnyxHangup c true ∈ es

theorem ownerDeathTeardown_hangsUp
    (hc : truthy m.customerCcid = some c) : HangsUpCustomer m (ownerDeathTeardown m).2 :=
  ⟨c, (truthy_eq_some.1 hc).1, mem_ifTruthy.2 ⟨c, hc, rfl⟩⟩

theorem dies_of_setLegStatus {k : ℕ} {before after : LegRecord} (hbefore : m.legs[k]? = some before)
    (hafter : (m.setLegStatus ccid .dead).legs[k]? = some after) (hans : before.status = .answered)
    (hdead : after.status = .dead) : m.findLeg ccid = some before := by
  rcases getElem?_updateFirst (fun entry : LegRecord => entry.ccid == some ccid)
    (fun leg => { leg with status := .dead }) m.legs k with hsame | ⟨a, hfind, ha, _⟩
  · have heq : some before = some after := by
      rw [← hbefore, ← hafter]
      exact hsame.symm
    obtain rfl := Option.some.inj heq
    rw [hans] at hdead
    cases hdead
  · rw [hbefore] at ha
    rw [Option.some.inj ha]
    exact hfind

theorem owner_of_dies (htagged : Tagged tag m.legs) (hecho : userId = tag ccid) {leg : LegRecord}
    (hfind : m.findLeg ccid = some leg) (howner : some leg.userId = m.answeredByUserId) :
    m.answeredByUserId = some userId := by
  obtain ⟨hmem, hccid⟩ := findLeg_some hfind
  rw [← howner, htagged leg hmem ccid hccid, hecho]

theorem memberHangup_ownerDies {destination : Option String}
    (hcaller : truthy m.customerCcid = some c) (htagged : Tagged tag m.legs)
    (hecho : userId = tag ccid)
    (hdies : OwnerDies m (reduceMemberHangup m ccid userId destination).1) :
    HangsUpCustomer m (reduceMemberHangup m ccid userId destination).2 ∨
      Held (reduceMemberHangup m ccid userId destination).1 := by
  obtain ⟨hstate, _, k, before, after, hbefore, hafter, howner, hans, hdead⟩ := hdies
  unfold reduceMemberHangup at hafter ⊢
  simp only [resolveLeg_answered hstate] at hafter ⊢
  cases hfind : m.findLeg ccid with
  | none =>
    simp only [hfind, hbefore, Option.some.injEq] at hafter
    rw [← hafter, hans] at hdead
    cases hdead
  | some leg =>
    -- whatever branch marked it, the leg that died is the one the ccid found
    have hmarked : (m.setLegStatus ccid .dead).legs[k]? = some after := by
      simp only [hfind] at hafter
      split_ifs at hafter
      · exact hafter
      · exact hafter
      · exact hafter
      · exact hafter
      · rwa [runAvenueLadder_legs] at hafter
    have hleg : m.findLeg ccid = some before := dies_of_setLegStatus hbefore hmarked hans hdead
    obtain rfl : leg = before := Option.some.inj (hfind.symm.trans hleg)
    have huser := owner_of_dies htagged hecho hleg howner
    simp only
    rw [if_pos ⟨hstate, hans⟩, if_neg (by simp [huser])]
    by_cases hintent : m.intent = none
    · rw [if_neg (by simp [hintent])]
      exact Or.inl (ownerDeathTeardown_hangsUp hcaller)
    · rw [if_pos (by simpa using hintent)]
      exact Or.inr ⟨hintent, by simp, huser.symm⟩

/-- The same for an event tagged as an outbound placer's, whose handler never asks for the
direction of the call. -/
theorem placerHangup_ownerDies {nowMs : ℤ} (hcaller : truthy m.customerCcid = some c)
    (htagged : Tagged tag m.legs) (hecho : userId = tag ccid)
    (hdies : OwnerDies m (reduceOutboundPlacerHangup m ccid userId nowMs).1) :
    HangsUpCustomer m (reduceOutboundPlacerHangup m ccid userId nowMs).2 ∨
      Held (reduceOutboundPlacerHangup m ccid userId nowMs).1 := by
  obtain ⟨hstate, _, k, before, after, hbefore, hafter, howner, hans, hdead⟩ := hdies
  unfold reduceOutboundPlacerHangup at hafter ⊢
  rw [if_neg (by rw [hstate]; decide)] at hafter ⊢
  simp only [setLegStatus_answeredByUserId, setLegStatus_state, setLegStatus_intent, hstate,
    if_true] at hafter ⊢
  have hmarked : (m.setLegStatus ccid .dead).legs[k]? = some after := by
    split_ifs at hafter <;> exact hafter
  have huser := owner_of_dies htagged hecho (dies_of_setLegStatus hbefore hmarked hans hdead) howner
  rw [if_neg (by simp [huser])]
  by_cases hintent : m.intent = none
  · rw [if_neg (by simp [hintent])]
    exact Or.inl (ownerDeathTeardown_hangsUp hcaller)
  · rw [if_pos (by simpa using hintent)]
    exact Or.inr ⟨hintent, by simp, huser.symm⟩

theorem not_ownerDies {m m' : SessionMachine} (h : m'.legs = m.legs) : ¬OwnerDies m m' := by
  rintro ⟨_, _, k, before, after, hbefore, hafter, _, hans, hdead⟩
  rw [h, hbefore] at hafter
  rw [Option.some.inj hafter, hdead] at hans
  cases hans

theorem reduceIntentOver_legs (m : SessionMachine) : (reduceIntentOver m).1.legs = m.legs := by
  unfold reduceIntentOver
  simp only
  split_ifs <;> rfl

/-- **The step in which the owner's leg dies** hangs the customer up, or leaves the customer held. -/
theorem ownerDies_step (i : Input) (hdir : m.direction = .inbound)
    (hcaller : truthy m.customerCcid = some c) (htagged : Tagged tag m.legs)
    (hecho : Echoes tag m i.event) (hdial : i.event.dialKey = none)
    (hdies : OwnerDies m (machineStep m i).1) :
    HangsUpCustomer m (machineStep m i).2 ∨ Held (machineStep m i).1 := by
  by_cases hevent : i.event.isHandover = true
  · obtain ⟨event, nowMs, clockMs, pendingKeyFor⟩ := i
    cases event with
    | memberLegHangup => exact memberHangup_ownerDies hcaller htagged hecho hdies
    | outboundPlacerHangup => exact placerHangup_ownerDies hcaller htagged hecho hdies
    | dialOutcome => cases hdial
    | setOwner | registerIntent => exact absurd hdies (not_ownerDies rfl)
    | clearIntent | alarmIntentExpiry =>
      exact absurd hdies (not_ownerDies (reduceIntentOver_legs m))
    | _ => cases hevent
  · rcases answered_still i hdir hdies.was (by simpa using hevent) with ⟨hlegs, _⟩ | hover
    · exact absurd hdies (not_ownerDies hlegs)
    · rw [hdies.now] at hover
      cases hover

/-! ### After the death -/

theorem intentOver_hangsUp (hcaller : truthy m.customerCcid = some c) (hans : m.state = .answered)
    (h : Held m) : HangsUpCustomer m (reduceIntentOver m).2 := by
  obtain ⟨_, hlost, howner⟩ := h
  obtain ⟨c', hc', hhang⟩ := ownerDeathTeardown_hangsUp (m := { m with intent := none }) hcaller
  unfold reduceIntentOver
  simp only
  rw [if_pos ⟨hans, hlost, howner⟩]
  exact ⟨c', hc', List.mem_cons_of_mem _ hhang⟩

theorem memberHangup_held (ccid userId : String) (destination : Option String)
    (hans : m.state = .answered) (h : Held m) :
    Held (reduceMemberHangup m ccid userId destination).1 := by
  unfold reduceMemberHangup
  simp only [resolveLeg_answered hans]
  split
  · exact h
  · by_cases howner : m.answeredByUserId = some userId
    · split_ifs with _ hother
      · simp [howner] at hother
      · exact ⟨h.1, by simp, howner.symm⟩
      · rename_i hintent
        exact absurd (by simpa using hintent) h.1
      · exact held_of_custody (m := m) rfl h
      · rename_i hring
        simp [hans] at hring
    · split_ifs with _ hsame
      · exact held_of_custody (m := m) rfl h
      · simp [howner] at hsame
      · simp [howner] at hsame
      · exact held_of_custody (m := m) rfl h
      · rename_i hring
        simp [hans] at hring

theorem placerHangup_held (ccid userId : String) (nowMs : ℤ) (hans : m.state = .answered)
    (h : Held m) : Held (reduceOutboundPlacerHangup m ccid userId nowMs).1 := by
  obtain ⟨hintent, hlost, howner⟩ := h
  unfold reduceOutboundPlacerHangup
  rw [if_neg (by rw [hans]; decide)]
  simp only [setLegStatus_answeredByUserId, setLegStatus_state, setLegStatus_intent, hans, if_true]
  by_cases hother : (m.answeredByUserId != none && m.answeredByUserId != some userId) = true
  · rw [if_pos hother]
    exact ⟨hintent, hlost, howner⟩
  · have hsome : m.answeredByUserId ≠ none := howner ▸ hlost
    have huser : m.answeredByUserId = some userId := by simpa [hsome] using hother
    rw [if_neg hother, if_pos (by simpa using hintent)]
    exact ⟨hintent, by simp, huser.symm⟩

/-- **Every later step** keeps the customer held, hangs the customer up, or sets a new owner. -/
theorem held_step (i : Input) (hdir : m.direction = .inbound)
    (hcaller : truthy m.customerCcid = some c) (hans : m.state = .answered) (h : Held m)
    (hset : ∀ userId, i.event ≠ .setOwner userId) (hnow : (machineStep m i).1.state = .answered) :
    HangsUpCustomer m (machineStep m i).2 ∨ Held (machineStep m i).1 := by
  by_cases hevent : i.event.isHandover = true
  · obtain ⟨event, nowMs, clockMs, pendingKeyFor⟩ := i
    cases event with
    | setOwner userId => exact absurd rfl (hset userId)
    | registerIntent => exact Or.inr ⟨by simp [machineStep, reduceMachine], h.2⟩
    | clearIntent | alarmIntentExpiry => exact Or.inl (intentOver_hangsUp hcaller hans h)
    | memberLegHangup => exact Or.inr (memberHangup_held _ _ _ hans h)
    | outboundPlacerHangup => exact Or.inr (placerHangup_held _ _ _ hans h)
    | dialOutcome =>
      exact Or.inr (held_of_custody (dialOutcome_custody _ _ _ _ hdir hans) h)
    | _ => cases hevent
  · rcases answered_still i hdir hans (by simpa using hevent) with ⟨_, hcustody⟩ | hover
    · exact Or.inr (held_of_custody hcustody h)
    · rw [hnow] at hover
      cases hover

/-! ### The object around the machine -/

def SessionEvent.isAnswering : SessionEvent → Bool
  | .answerOutcome .. | .memberProbeOutcome .. => true
  | _ => false

/-- What the machine and the journal keep of an inbound call, as far as its owner goes: only a
customer leg that exists is ever answered, and no dial is in flight while it is. -/
structure Custodial (tag : String → String) (m : SessionMachine) (journal : List SessionEvent) :
    Prop where
  inbound : m.direction = .inbound
  tagged : Tagged tag m.legs
  orderly : Orderly journal
  caller : m.state = .answered → ∃ c, truthy m.customerCcid = some c
  answering : ∀ ok memberCcid userId answeredAtIso,
    .answerOutcome ok memberCcid userId answeredAtIso ∈ journal →
      ∃ c, truthy m.customerCcid = some c
  settled : m.state = .answered ∨ (∃ e ∈ journal, e.isAnswering = true) → pendingKeys journal = []

/-- An inbound call becomes answered by the outcome of answering its customer leg. -/
theorem into_answered (i : Input) (hdir : m.direction = .inbound)
    (h : (machineStep m i).1.state = .answered) :
    m.state = .answered ∨ ∃ memberCcid userId answeredAtIso,
      i.event = .answerOutcome true memberCcid userId answeredAtIso := by
  obtain ⟨event, nowMs, clockMs, pendingKeyFor⟩ := i
  have hlife := machineStep_life m ⟨event, nowMs, clockMs, pendingKeyFor⟩
  unfold LifeStep at hlife
  by_cases hconnect : event = .outboundAnswered
  · -- an inbound machine ignores the answer of an outbound customer leg
    subst hconnect
    left
    simpa [machineStep, reduceMachine, quiet, reduceOutboundAnswered, hdir] using h
  · rw [h] at hlife
    generalize m.state = s at hlife
    generalize mergeOutcomes (machineStep m ⟨event, nowMs, clockMs, pendingKeyFor⟩).2 = xs at hlife
    generalize purgeArms (machineStep m ⟨event, nowMs, clockMs, pendingKeyFor⟩).2 = n at hlife
    cases hlife with
    | stay => exact Or.inl rfl
    | live hmove =>
      cases hmove with
      | pickUp => exact Or.inr ⟨_, _, _, rfl⟩
      | connect => exact absurd rfl hconnect
    | finish _ houtcome => cases houtcome

theorem answered_or_over (i : Input) (h : m.state = .answered) :
    (machineStep m i).1.state = .answered ∨ isTerminal (machineStep m i).1.state = true := by
  have hlife := machineStep_life m i
  unfold LifeStep at hlife
  rw [h] at hlife
  generalize (machineStep m i).1.state = t at hlife ⊢
  generalize i.event = event at hlife
  generalize mergeOutcomes (machineStep m i).2 = xs at hlife
  generalize purgeArms (machineStep m i).2 = n at hlife
  cases hlife with
  | stay => exact Or.inl rfl
  | live hmove => cases hmove
  | @finish _ _ _ x _ houtcome => right; cases t <;> first | rfl | cases houtcome

/-- Only an answer under way asks for the customer leg, and only for one that exists. -/
theorem beginsAnswer {e : Effect} (he : e ∈ (machineStep m i).2)
    (hanswers : (∃ ccid intent, e = .telnyxAnswerInbound ccid intent) ∨
      ∃ ccid userId, e = .telnyxProbeMemberLeg ccid userId) :
    (i.event.isAnswering = true ∨ i.event.isOutcome = false) ∧ i.event.dials = false := by
  have hmay := machineStep_mayEmit m i e he
  rcases hanswers with ⟨ccid, intent, rfl⟩ | ⟨ccid, userId, rfl⟩
  · cases hevent : i.event with
    | memberLegAnswered => exact ⟨Or.inr rfl, rfl⟩
    | memberProbeOutcome => exact ⟨Or.inl rfl, rfl⟩
    | _ => rw [hevent] at hmay; cases hmay
  · cases hevent : i.event with
    | memberLegAnswered => exact ⟨Or.inr rfl, rfl⟩
    | _ => rw [hevent] at hmay; cases hmay

theorem beginAnswer_caller {ccid userId answeredAtIso : String} {e : Effect}
    (h : e ∈ (beginAnswer m ccid userId answeredAtIso).2) :
    ∃ c, truthy m.customerCcid = some c := by
  obtain ⟨c, hc, _⟩ := mem_ifTruthy.1 h
  exact ⟨c, hc⟩

theorem answerInbound_caller {intent : AnswerIntent}
    (h : Effect.telnyxAnswerInbound ccid intent ∈ (machineStep m i).2) :
    ∃ c, truthy m.customerCcid = some c := by
  have hmay := machineStep_mayEmit m i _ h
  unfold machineStep reduceMachine at h
  cases hevent : i.event with
  | memberLegAnswered memberCcid userId destination =>
    simp only [hevent, quiet, reduceMemberAnswered] at h
    split at h
    · simp [orphanWarning] at h
    · split_ifs at h
      · simp at h
      · cases h
      · simp at h
      · simpa using beginAnswer_caller h
  | memberProbeOutcome memberCcid userId alive =>
    simp only [hevent, quiet, reduceMemberProbeOutcome] at h
    cases hfind : m.findLeg memberCcid with
    | none =>
      simp only [hfind] at h
      split_ifs at h <;> cases h
    | some leg =>
      simp only [hfind] at h
      split_ifs at h
      · cases h
      · have hladder := runAvenueLadder_within _ _ h
        cases hladder
      · exact beginAnswer_caller h
  | _ => rw [hevent] at hmay; cases hmay

/-- What a step leaves in flight when an answer is under way after it: nothing. -/
theorem custodial_settled {rest es : List SessionEvent} (h : Custodial tag m (i.event :: rest))
    (hes : ReportsOf (machineStep m i).2 es)
    (hanswer : (machineStep m i).1.state = .answered ∨ ∃ e ∈ rest ++ es, e.isAnswering = true) :
    pendingKeys (rest ++ es) = [] := by
  -- the events still on the journal: no dial waits among them, and the head of it dials nothing
  have hrest : pendingKeys (i.event :: rest) = [] → i.event.dials = false ∨ m.state = .answered →
      pendingKeys (rest ++ es) = [] := by
    intro hkeys hno
    have htail : pendingKeys rest = [] := by
      unfold pendingKeys at hkeys ⊢
      rw [List.filterMap_eq_nil_iff] at hkeys ⊢
      exact fun e he => hkeys e (List.mem_cons_of_mem _ he)
    have hnew : pendingKeys es = [] := by
      refine hes.pendingKeys_eq_nil (machineStep_no_placer m i) fun legs hlegs => ?_
      obtain ⟨_, _, _, _, _, hdials, hring⟩ := machineStep_dial hlegs
      rcases hno with hno | hans
      · rw [hno] at hdials
        cases hdials
      · rw [hans] at hring
        cases hring
    rw [pendingKeys_append, htail, hnew]
    rfl
  have hhead : i.event.isOutcome = true → i.event.dials = false := by
    intro hout
    by_contra hdials
    rw [(not_isOutcome_of_dials (by simpa using hdials)).1] at hout
    cases hout
  rcases hanswer with hans | ⟨e, he, hanswering⟩
  · rcases into_answered i h.inbound hans with hwas | ⟨_, _, _, hevent⟩
    · exact hrest (h.settled (Or.inl hwas)) (Or.inr hwas)
    · exact hrest (h.settled (Or.inr ⟨_, List.mem_cons_self .., by rw [hevent]; rfl⟩))
        (Or.inl (by rw [hevent]; rfl))
  · rcases List.mem_append.1 he with he | he
    · refine hrest (h.settled (Or.inr ⟨e, List.mem_cons_of_mem _ he, hanswering⟩)) (Or.inl ?_)
      refine hhead ?_
      by_contra hout
      rw [h.orderly.rest_eq_nil (by simpa using hout)] at he
      cases he
    · obtain ⟨_, effect, heffect, hfollows⟩ := hes.from_effect e he
      have hbegins : (∃ ccid intent, effect = .telnyxAnswerInbound ccid intent) ∨
          ∃ ccid userId, effect = .telnyxProbeMemberLeg ccid userId := by
        cases effect with
        | telnyxAnswerInbound ccid intent => exact Or.inl ⟨_, _, rfl⟩
        | telnyxProbeMemberLeg ccid userId => exact Or.inr ⟨_, _, rfl⟩
        | telnyxHangup ccid terminal =>
          cases e with
          | answerOutcome | memberProbeOutcome => cases terminal <;> cases hfollows
          | _ => cases hanswering
        | _ =>
          cases e with
          | answerOutcome | memberProbeOutcome => cases hfollows
          | _ => cases hanswering
      obtain ⟨hkind, hdials⟩ := beginsAnswer heffect hbegins
      rcases hkind with hkind | hout
      · exact hrest (h.settled (Or.inr ⟨_, List.mem_cons_self .., hkind⟩)) (Or.inl hdials)
      · have hnil := h.orderly.rest_eq_nil hout
        have hnokey : pendingKeys (i.event :: rest) = [] := by
          rw [hnil]
          cases hevent : i.event with
          | dialOutcome =>
            rw [hevent] at hout
            cases hout
          | _ => rfl
        exact hrest hnokey (Or.inl hdials)

theorem custodial_step {rest es : List SessionEvent} (h : Custodial tag m (i.event :: rest))
    (hecho : Echoes tag m i.event) (hes : ReportsOf (machineStep m i).2 es) (count : ℕ) :
    Custodial tag ((machineStep m i).1.withCount count) (rest ++ es) := by
  have hid := machineStep_identity m i
  have hcust : ((machineStep m i).1.withCount count).customerCcid = m.customerCcid :=
    identity_customerCcid hid
  refine ⟨(identity_direction hid).trans h.inbound, tagged_step i h.inbound hecho h.tagged,
    h.orderly.drain (isOutcome_of_reportsOf hes), fun hans => ?_,
    fun ok memberCcid userId answeredAtIso hmem => ?_, custodial_settled h hes⟩
  · rw [hcust]
    rcases into_answered i h.inbound hans with hwas | ⟨_, _, _, hevent⟩
    · exact h.caller hwas
    · exact h.answering _ _ _ _ (by rw [hevent]; exact List.mem_cons_self ..)
  · rw [hcust]
    rcases List.mem_append.1 hmem with hmem | hmem
    · exact h.answering _ _ _ _ (List.mem_cons_of_mem _ hmem)
    · obtain ⟨_, effect, heffect, hfollows⟩ := hes.from_effect _ hmem
      cases effect with
      | telnyxAnswerInbound => exact answerInbound_caller heffect
      | telnyxHangup ccid terminal => cases terminal <;> cases hfollows
      | _ => cases hfollows

theorem custodial_mint (context : InitiatedContext) (nowMs : ℤ) (pendingKeyFor : ℕ → String)
    {es : List SessionEvent} (hes : ReportsOf (reduceInitiated context nowMs pendingKeyFor).2 es)
    (count : ℕ) :
    Custodial tag ((reduceInitiated context nowMs pendingKeyFor).1.withCount count) es := by
  have hquiet : ∀ e ∈ es, e.isAnswering = false := by
    intro e he
    obtain ⟨_, effect, heffect, hfollows⟩ := hes.from_effect e he
    have hmay := reduceInitiated_within context nowMs pendingKeyFor effect heffect
    cases effect with
    | telnyxDial | telnyxAnswerVm | telnyxAnswerNotice | pushFanout =>
      cases e <;> first | rfl | cases hfollows
    | telnyxAnswerInbound | telnyxProbeMemberLeg | telnyxHangup | telnyxDialPlacer => cases hmay
    | _ => cases hfollows
  have hstate : (reduceInitiated context nowMs pendingKeyFor).1.state ≠ .answered := by
    intro hans
    rcases initiatedBranch_state context nowMs pendingKeyFor with h | h
    · exact absurd (h.symm.trans hans) (by decide)
    · exact absurd (h.symm.trans hans) (by decide)
  have hbare : ∀ leg ∈ (reduceInitiated context nowMs pendingKeyFor).1.legs, leg.ccid = none := by
    rcases mint_legs context nowMs pendingKeyFor with hnone | ⟨hlegs, _⟩
    · rw [hnone]
      simp
    · rw [hlegs]
      intro leg hleg
      obtain ⟨target, _, rfl⟩ := List.mem_map.1 hleg
      rfl
  have hdir : (reduceInitiated context nowMs pendingKeyFor).1.direction = .inbound := by
    unfold reduceInitiated initiatedBranch
    split_ifs <;> rfl
  refine ⟨hdir, fun leg hleg c hc => ?_, Or.inr (isOutcome_of_reportsOf hes),
    fun hans => absurd hans hstate, fun ok memberCcid userId answeredAtIso hmem => ?_, ?_⟩
  · rw [hbare leg hleg] at hc
    cases hc
  · cases hquiet _ hmem
  · rintro (hans | ⟨e, he, hanswering⟩)
    · exact absurd hans hstate
    · rw [hquiet e he] at hanswering
      cases hanswering

/-! ### Runs -/

/-- Along a run the vendor echoes the tags. -/
def EchoesTags (tag : String → String) (s : Session) : Action → Prop
  | .drain .. => ∀ m event, s.machine = some m → s.journal.head? = some event → Echoes tag m event
  | _ => True

/-- The next step sets a new owner. -/
def Session.SetsOwner (s : Session) : Action → Prop
  | .drain .. => ∃ userId, s.journal.head? = some (.setOwner userId)
  | _ => False

/-- The next step clears the intent, or lets it expire. -/
def Session.EndsIntent (s : Session) : Action → Prop
  | .drain .. => s.journal.head? = some .clearIntent ∨ s.journal.head? = some .alarmIntentExpiry
  | _ => False

theorem custodial_raise {event : SessionEvent} (hevent : event.isRaised = true)
    (h : Custodial tag m []) : Custodial tag m [event] where
  inbound := h.inbound
  tagged := h.tagged
  orderly := Or.inl ⟨event, rfl⟩
  caller := h.caller
  answering := by
    intro ok memberCcid userId answeredAtIso hmem
    rw [← List.mem_singleton.1 hmem] at hevent
    cases hevent
  settled := by
    intro _
    cases event with
    | dialOutcome => cases hevent
    | _ => rfl

theorem custodial_run (r : SessionRun)
    (hecho : Reactive.Along sessionStep (EchoesTags tag) (.start r.context) r.actions) :
    r.session.Holds (Custodial tag) r.context := by
  refine Session.holds_run (fun m event hevent h => custodial_raise hevent h) ?_ ?_ r.actions hecho
  · intro s nowMs clockMs pendingKeyFor answers _ _ _ count
    exact custodial_mint r.context nowMs pendingKeyFor (executeAll_reportsOf _ _ answers) count
  · intro s m event rest nowMs clockMs pendingKeyFor answers hm hj htags h count
    exact custodial_step (i := ⟨event, nowMs, clockMs, pendingKeyFor⟩) h
      (htags m event hm (by rw [hj]; rfl)) (executeAll_reportsOf _ _ answers) count

/-- Where the customer stands since the owner's leg died: the call is over, or the customer has
been hung up or is held. -/
def LookedAfter (c : String) (s : Session) (out : List Effect) : Prop :=
  ∃ m, s.machine = some m ∧ m.direction = .inbound ∧ m.customerCcid = some c ∧
    (isTerminal m.state = true ∨
      m.state = .answered ∧ (Effect.telnyxHangup c true ∈ out ∨ Held m))

/-- One step of the object looks after the customer, unless it sets a new owner. -/
theorem lookedAfter_step (hc : c ≠ "") (s : Session) (a : Action) (out : List Effect)
    (h : LookedAfter c s out) (hset : ¬s.SetsOwner a) :
    LookedAfter c (sessionStep s a).1 (out ++ (sessionStep s a).2) := by
  obtain ⟨m, hm, hdir, hcust, hstate⟩ := h
  rcases sessionStep_cases s a with
    ⟨hkept, hnone⟩ | ⟨event, rest, nowMs, clockMs, pendingKeyFor, answers, hj, rfl⟩
  · rw [hnone, List.append_nil]
    exact ⟨m, hkept.trans hm, hdir, hcust, hstate⟩
  · obtain ⟨count, hstep⟩ := sessionStep_drain hm hj nowMs clockMs pendingKeyFor answers
    have hid := machineStep_identity m ⟨event, nowMs, clockMs, pendingKeyFor⟩
    rw [hstep]
    refine ⟨_, rfl, (identity_direction hid).trans hdir, (identity_customerCcid hid).trans hcust, ?_⟩
    rcases hstate with hover | ⟨hans, hcare⟩
    · exact Or.inl (terminal_step_terminal _ hover)
    · rcases answered_or_over ⟨event, nowMs, clockMs, pendingKeyFor⟩ hans with hnow | hover
      · refine Or.inr ⟨hnow, ?_⟩
        rcases hcare with hhang | hheld
        · exact Or.inl (List.mem_append_left _ hhang)
        · have hcaller : truthy m.customerCcid = some c := truthy_eq_some.2 ⟨hcust, hc⟩
          have hevent : ∀ userId, event ≠ .setOwner userId := by
            rintro userId rfl
            exact hset ⟨userId, by rw [hj]; rfl⟩
          rcases held_step _ hdir hcaller hans hheld hevent hnow with ⟨c', hc', hhang⟩ | hheld'
          · obtain rfl : c = c' := Option.some.inj (hcust.symm.trans hc')
            exact Or.inl (List.mem_append_right _ hhang)
          · exact Or.inr hheld'
      · exact Or.inl hover

theorem intentOver_step {s : Session} {n : SessionMachine} {b : Action} (hn : s.machine = some n)
    (hcaller : truthy n.customerCcid = some c) (hans : n.state = .answered) (hheld : Held n)
    (hends : s.EndsIntent b) : HangsUpCustomer n (sessionStep s b).2 := by
  have hhang := intentOver_hangsUp hcaller hans hheld
  cases b with
  | drain nowMs clockMs pendingKeyFor answers =>
    rcases hends with hhead | hhead
    · obtain ⟨rest, hj⟩ := List.head?_eq_some_iff.1 hhead
      obtain ⟨_, hstep⟩ := sessionStep_drain hn hj nowMs clockMs pendingKeyFor answers
      rw [hstep]
      exact hhang
    · obtain ⟨rest, hj⟩ := List.head?_eq_some_iff.1 hhead
      obtain ⟨_, hstep⟩ := sessionStep_drain hn hj nowMs clockMs pendingKeyFor answers
      rw [hstep]
      exact hhang
  | admitEvent | wake | fire => cases hends

theorem lookedAfter_death (r : SessionRun)
    (hecho : Reactive.Along sessionStep (EchoesTags tag) (.start r.context) r.actions)
    {before since : List Action} {a : Action} (hactions : r.actions = before ++ a :: since)
    {m m' : SessionMachine} (hm : (r.upTo before).session.machine = some m)
    (hm' : (r.upTo (before ++ [a])).session.machine = some m') (hdies : OwnerDies m m') :
    ∃ c, c ≠ "" ∧ LookedAfter c (r.upTo (before ++ [a])).session
      (sessionStep (r.upTo before).session a).2 := by
  rw [hactions, Reactive.along_append] at hecho
  have hcustodial := custodial_run (r.upTo before) hecho.1
  have htags : EchoesTags tag (r.upTo before).session a := hecho.2.1
  have hstep : (r.upTo (before ++ [a])).session = (sessionStep (r.upTo before).session a).1 := by
    rw [SessionRun.session, SessionRun.session]
    simp only [SessionRun.upTo]
    rw [Reactive.final_append]
    rfl
  rw [hstep] at hm' ⊢
  rw [Session.holds_some hm] at hcustodial
  obtain ⟨c, hcaller⟩ := hcustodial.caller hdies.was
  obtain ⟨hcust, hc⟩ := truthy_eq_some.1 hcaller
  generalize (r.upTo before).session = s at *
  refine ⟨c, hc, ?_⟩
  rcases sessionStep_cases s a with
    ⟨hkept, _⟩ | ⟨event, rest, nowMs, clockMs, pendingKeyFor, answers, hj, rfl⟩
  · rw [hkept, hm] at hm'
    rw [← Option.some.inj hm'] at hdies
    exact absurd hdies (not_ownerDies rfl)
  · obtain ⟨count, hdrain⟩ := sessionStep_drain hm hj nowMs clockMs pendingKeyFor answers
    rw [hdrain] at hm' ⊢
    obtain rfl := Option.some.inj hm'
    have hid := machineStep_identity m ⟨event, nowMs, clockMs, pendingKeyFor⟩
    refine ⟨_, rfl, (identity_direction hid).trans hcustodial.inbound,
      (identity_customerCcid hid).trans hcust, Or.inr ⟨hdies.now, ?_⟩⟩
    -- no dial is in flight while the call is answered, so it is no late outcome that kills the leg
    have hdial : event.dialKey = none := by
      have hkeys := hcustodial.settled (Or.inl hdies.was)
      rw [hj, pendingKeys, List.filterMap_eq_nil_iff] at hkeys
      exact hkeys event (List.mem_cons_self ..)
    have hevent : Echoes tag m event := htags m event hm (by rw [hj]; rfl)
    rcases ownerDies_step ⟨event, nowMs, clockMs, pendingKeyFor⟩ hcustodial.inbound hcaller
      hcustodial.tagged hevent hdial ⟨hdies.was, hdies.now, hdies.leg⟩ with ⟨c', hc', hhang⟩ | hheld
    · obtain rfl : c = c' := Option.some.inj (hcust.symm.trans hc')
      exact Or.inl hhang
    · exact Or.inr hheld

def offered : List Action :=
  [drainOnce, drainOnce, drainOnce, .admitEvent (.memberLegAnswered "ana-leg" "ana" none),
    drainOnce, drainOnce, .admitEvent (.registerIntent .transfer "bob"), drainOnce,
    .admitEvent (.memberLegHangup "ana-leg" "ana" none)]

/-- Her leg dies, and then the offer is withdrawn. -/
def withdrawn : SessionRun := ⟨crewOfOne, offered ++ [drainOnce, .admitEvent .clearIntent]⟩

def withdrawnAfter (actions : List Action) : SessionMachine :=
  (withdrawn.upTo actions).session.machine.getD (inboundBase crewOfOne 0)

theorem withdrawn_echoes :
    Reactive.Along sessionStep (EchoesTags fun _ => "ana") (.start withdrawn.context)
      withdrawn.actions := by
  refine ⟨?_, ?_, ?_, trivial, ?_, ?_, trivial, ?_, trivial, ?_, trivial, trivial⟩
  · rintro m event hm ⟨⟩
    cases hm
  · rintro m event hm ⟨⟩
    obtain rfl := Option.some.inj hm
    show ∀ leg ∈ _, _
    decide
  · rintro m event hm ⟨⟩
    trivial
  · rintro m event hm ⟨⟩
    rfl
  · rintro m event hm ⟨⟩
    trivial
  · rintro m event hm ⟨⟩
    trivial
  · rintro m event hm ⟨⟩
    rfl

end Calls
