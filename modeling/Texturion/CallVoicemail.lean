/-
**Voicemail only when nobody can be rung.**

A caller reaches voicemail by three roads: the mint, when its facts license it; the ring alarm; and
the avenue ladder, which half a dozen handlers climb after they have taken an avenue away.  The
ladder answers into voicemail only from an exhausted machine: no leg is live, nobody who is waiting
for their turn is still willing, and no push-capable member is left.

The voicemail entry empties the queue, so "nobody is waiting" says nothing about the machine after
the step; what is proved is that everybody who was waiting before it has declined.

Main result:

* `Calls.voicemail_only_when_exhausted` — **the founder invariant**, for the steps of every run.
-/

import Texturion.CallEffects

namespace Calls

open FirstMatch

/-! ### Exhaustion -/

/-- No live leg, nobody waiting who has not declined, no push-capable member. -/
structure Exhausted (m : SessionMachine) : Prop where
  no_live_leg : ∀ leg ∈ m.legs, leg.status.isLive = false
  all_declined : ∀ target ∈ m.queuedTargets, target.userId ∈ m.declinedUserIds
  no_push : m.pushCapableUserIds = []

/-- A step that answers the call into voicemail does so from an exhausted machine, and leaves one:
the waiting phones of `before` had all declined. -/
structure LastResort (before after : SessionMachine) : Prop where
  exhausted : Exhausted after
  queue_declined : ∀ target ∈ before.queuedTargets, target.userId ∈ after.declinedUserIds

theorem liveLegs_eq_nil_iff {m : SessionMachine} :
    liveLegs m = [] ↔ ∀ leg ∈ m.legs, leg.status.isLive = false := by
  simp [liveLegs, List.filter_eq_nil_iff]

theorem lastResort_of_ladder {m n : SessionMachine} {c : String}
    (h : Effect.telnyxAnswerVm c ∈ (runAvenueLadder n).2)
    (hqueue : n.queuedTargets = [] → ∀ target ∈ m.queuedTargets,
      target.userId ∈ n.declinedUserIds) : LastResort m (runAvenueLadder n).1 := by
  rcases runAvenueLadder_eq_or n with hn | ⟨_, hlive, hwait, hpush, hn⟩
  · rw [hn] at h
    cases h
  · rw [hn]
    exact ⟨⟨liveLegs_eq_nil_iff.1 hlive, by simp [vmEntry], hpush⟩, hqueue hwait⟩

theorem not_answersVm_of_isHangup {es : List Effect} (h : Within Effect.isHangup es) (c : String) :
    Effect.telnyxAnswerVm c ∉ es := by
  intro hmem
  cases h _ hmem

/-! ### The handlers that climb the ladder -/

variable {m : SessionMachine} {c : String}

theorem reduceMemberHangup_answersVm {ccid userId : String} {destination : Option String}
    (h : Effect.telnyxAnswerVm c ∈ (reduceMemberHangup m ccid userId destination).2) :
    LastResort m (reduceMemberHangup m ccid userId destination).1 := by
  unfold reduceMemberHangup at h ⊢
  obtain ⟨legs, hnext⟩ := resolveLeg_eq m ccid userId destination (m.state == .ringing) id
  simp only at h ⊢
  split at h
  · cases h
  · split_ifs at h with h₁ h₂ h₃ h₄
    · cases h
    · cases h
    · obtain ⟨_, _, he⟩ := mem_ifTruthy.1 h
      cases he
    · cases h
    · simp only [if_neg h₁, if_neg h₄]
      refine lastResort_of_ladder h fun hwait => ?_
      rw [hnext] at hwait
      intro target htarget
      rw [show m.queuedTargets = [] from hwait] at htarget
      cases htarget

theorem reduceDecline_answersVm {userId : String}
    (h : Effect.telnyxAnswerVm c ∈ (reduceDecline m userId).effects) :
    LastResort m (reduceDecline m userId).machine := by
  unfold reduceDecline at h ⊢
  split_ifs at h ⊢
  · cases h
  · cases h
  · rcases List.mem_append.1 h with h | h
    · exact absurd h (not_answersVm_of_isHangup (sweepLegs_within (declineLeg_within userId) m) c)
    · refine lastResort_of_ladder h fun hwait target htarget => ?_
      -- the queue is empty once the decliner is out of it, so everybody waiting was the decliner
      have hself : target.userId = userId := by
        by_contra hne
        have hkept : target ∈ m.queuedTargets.filter fun target => target.userId != userId :=
          List.mem_filter.2 ⟨htarget, by simpa using hne⟩
        rw [show m.queuedTargets.filter (fun target => target.userId != userId) = []
          from hwait] at hkept
        cases hkept
      change target.userId ∈ if m.declinedUserIds.contains userId then m.declinedUserIds
        else m.declinedUserIds ++ [userId]
      rw [hself]
      split_ifs with hmem
      · simpa using hmem
      · simp

theorem reduceAlarmRingStep_answersVm {nowMs : ℤ} {pendingKeyFor : ℕ → String}
    (h : Effect.telnyxAnswerVm c ∈ (reduceAlarmRingStep m nowMs pendingKeyFor).2) :
    LastResort m (reduceAlarmRingStep m nowMs pendingKeyFor).1 := by
  rcases reduceAlarmRingStep_cases m nowMs pendingKeyFor with
    hr | ⟨_, hwait, hr⟩ | ⟨target, rest, _, _, ⟨_, hr⟩ | ⟨_, hr⟩⟩
  · rw [hr] at h
    cases h
  · rw [hr] at h ⊢
    refine lastResort_of_ladder h fun _ target htarget => ?_
    have hdeclined := List.filter_eq_nil_iff.1 hwait target htarget
    simpa using hdeclined
  · rw [hr] at h
    cases h
  · rw [hr] at h
    have harm := armRingStep_within { m with
      queuedTargets := rest
      legs := m.legs ++ [dialLegFor target nowMs (pendingKeyFor 0)] } nowMs
    rcases List.mem_cons.1 h with h | h
    · cases h
    · -- the table of the cascade step allows the answer, but arming the next step is not it
      unfold armRingStep at h
      split_ifs at h
      · cases h
      · simp only at h
        split at h
        · split_ifs at h
          · cases h
          · simp at h
        · simp at h

theorem reducePushFanoutSettled_answersVm {unreachableUserIds : List String}
    (h : Effect.telnyxAnswerVm c ∈ (reducePushFanoutSettled m unreachableUserIds).2) :
    LastResort m (reducePushFanoutSettled m unreachableUserIds).1 := by
  rcases List.mem_cons.1 h with h | h
  · cases h
  · refine lastResort_of_ladder h fun hwait target htarget => ?_
    rw [show m.queuedTargets = [] from hwait] at htarget
    cases htarget

theorem reduceDialOutcome_answersVm {key : String} {ccid : Option String}
    {failure : Option DialFailure} {nowMs : ℤ}
    (h : Effect.telnyxAnswerVm c ∈ (reduceDialOutcome m key ccid failure nowMs).2) :
    LastResort m (reduceDialOutcome m key ccid failure nowMs).1 := by
  rcases reduceDialOutcome_cases m key ccid failure nowMs with
    ⟨_, hr⟩ | ⟨leg, _, ⟨landed, _, hr⟩ | ⟨_, _, hr⟩ | ⟨_, _, _, hr⟩ | ⟨_, _, _, _, hr⟩⟩
  · rw [hr] at h
    cases h
  · rw [hr] at h
    cases h
  · rw [hr] at h ⊢
    refine lastResort_of_ladder h fun hwait target htarget => ?_
    rw [show m.queuedTargets = [] from hwait] at htarget
    cases htarget
  · rw [hr] at h
    cases h
  · rw [hr] at h
    rcases List.mem_append.1 h with h | h
    · cases terminalize_within _ _ _ _ _ _ _ h
    · obtain ⟨_, _, he⟩ := mem_ifTruthy.1 h
      cases he

theorem reduceMemberProbeOutcome_answersVm {ccid userId : String} {alive : Bool} {nowMs : ℤ}
    (h : Effect.telnyxAnswerVm c ∈ (reduceMemberProbeOutcome m ccid userId alive nowMs).2) :
    LastResort m (reduceMemberProbeOutcome m ccid userId alive nowMs).1 := by
  unfold reduceMemberProbeOutcome at h ⊢
  split at h
  · cases h
  · rename_i hring
    rw [if_neg hring]
    split at h
    · cases h
    · split at h
      · rename_i halive
        simp only [if_pos halive]
        refine lastResort_of_ladder h fun hwait target htarget => ?_
        rw [show m.queuedTargets = [] from hwait] at htarget
        cases htarget
      · obtain ⟨_, _, he⟩ := mem_ifTruthy.1 h
        cases he

theorem machineStep_answersVm {i : Input} (h : Effect.telnyxAnswerVm c ∈ (machineStep m i).2) :
    i.event = .alarmRing ∨ LastResort m (machineStep m i).1 := by
  have htable := machineStep_mayEmit m i _ h
  unfold machineStep reduceMachine at h ⊢
  cases hevent : i.event with
  | alarmRing => exact Or.inl rfl
  | memberLegHangup =>
      simp only [hevent] at h ⊢
      exact Or.inr (reduceMemberHangup_answersVm h)
  | decline =>
      simp only [hevent] at h ⊢
      exact Or.inr (reduceDecline_answersVm h)
  | alarmRingStep =>
      simp only [hevent] at h ⊢
      exact Or.inr (reduceAlarmRingStep_answersVm h)
  | pushFanoutSettled =>
      simp only [hevent] at h ⊢
      exact Or.inr (reducePushFanoutSettled_answersVm h)
  | dialOutcome =>
      simp only [hevent] at h ⊢
      exact Or.inr (reduceDialOutcome_answersVm h)
  | memberProbeOutcome =>
      simp only [hevent] at h ⊢
      exact Or.inr (reduceMemberProbeOutcome_answersVm h)
  | _ =>
      rw [hevent] at htable
      cases htable

/-! ### The mint -/

/-- The facts of a mint that send the caller to voicemail at once. -/
def licensesVoicemail (context : InitiatedContext) : Bool :=
  context.lineBusy || context.screeningDivert || context.afterHoursVoicemail ||
    (context.dialTargets.isEmpty && context.pushAudience.isEmpty)

theorem ringStart_not_answersVm (context : InitiatedContext) (nowMs : ℤ)
    (pendingKeyFor : ℕ → String) (c : String) :
    Effect.telnyxAnswerVm c ∉ (ringStart context nowMs pendingKeyFor).2 := by
  intro h
  unfold ringStart at h
  simp only [List.mem_append] at h
  rcases h with (((h | h) | h) | h) | h
  · split_ifs at h
    · simp [overCapWarning] at h
    · cases h
  · simp at h
  · split_ifs at h
    · simp at h
    · cases h
  · simp at h
  · unfold armRingStep at h
    split_ifs at h
    · cases h
    · simp only at h
      split_ifs at h
      · cases h
      · simp at h

theorem mint_answersVm {mint : Mint} {nowMs : ℤ} {pendingKeyFor : ℕ → String}
    (h : Effect.telnyxAnswerVm c ∈ (mint.start nowMs pendingKeyFor).2) :
    ∃ context, mint = .inbound context ∧ licensesVoicemail context = true := by
  cases mint with
  | outbound context =>
      simp only [Mint.start, reduceOutboundInitiated] at h
      split at h <;> simp at h
  | inbound context =>
      refine ⟨context, rfl, ?_⟩
      rcases List.mem_cons.1 h with h | h
      · cases h
      · unfold initiatedBranch at h
        split_ifs at h with h₁ h₂ h₃ h₄
        · unfold licensesVoicemail
          rw [h₁, Bool.true_or]
        · unfold suspendedStart at h
          rcases List.mem_append.1 h with h | h
          · simp at h
          · split_ifs at h
            · simp at h
            · cases h
        · simp [overCapStart] at h
        · unfold licensesVoicemail
          rw [List.isEmpty_iff_length_eq_zero.2 h₄.1, List.isEmpty_iff_length_eq_zero.2 h₄.2]
          simp
        · exact absurd h (ringStart_not_answersVm context nowMs pendingKeyFor c)

/-! ### The founder invariant -/

/-- **Voicemail only when nobody can be rung.**  Along every run, what answers the call into
voicemail is the mint, with facts that license it; the ring alarm; or a step that leaves no live
leg, nobody push-capable, and nobody still waiting, having found that everybody who was waiting has
declined. -/
theorem voicemail_only_when_exhausted (r : CallRun) (c : String) :
    (Effect.telnyxAnswerVm c ∈ r.start.2 →
        ∃ context, r.mint = .inbound context ∧ licensesVoicemail context = true) ∧
      ∀ js i ks, r.inputs = js ++ i :: ks →
        Effect.telnyxAnswerVm c ∈
            (machineStep (Reactive.final machineStep r.start.1 js) i).2 →
          i.event = .alarmRing ∨
            LastResort (Reactive.final machineStep r.start.1 js)
              (machineStep (Reactive.final machineStep r.start.1 js) i).1 := by
  refine ⟨fun h => mint_answersVm h, ?_⟩
  intro js i ks _ h
  exact machineStep_answersVm h

end Calls
