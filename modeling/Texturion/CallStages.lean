/-
**A call goes forward.**

The states of a call come in stages, and no event takes it back to an earlier one.  So a state that
has been left is never taken again, a call changes its state at most four times, and it is put into
its conversation at most once.

Main results:

* `Calls.never_taken_again`, `Calls.threaded_once`.
-/

import Texturion.CallTerminal
import Texturion.CallEffects

namespace Calls

/-- How far a call has come. -/
def stage : CallState → ℕ
  | .dialing | .ringing => 0
  | .answered | .voicemailGreeting => 1
  | .voicemailRecording => 2
  | .endedMissed => 3
  | .endedAnswered | .endedVoicemail | .endedRejected => 4

theorem stage_le (s : CallState) : stage s ≤ 4 := by cases s <;> decide

theorem stage_lt_iff (s : CallState) : stage s < 3 ↔ isTerminal s = false := by
  cases s <;> decide

/-! ### The stages -/

/-- A step keeps the state, or goes on to a later stage. -/
theorem stage_step (m : SessionMachine) (i : Input) :
    (machineStep m i).1.state = m.state ∨ stage m.state < stage (machineStep m i).1.state := by
  have hlife := machineStep_life m i
  unfold LifeStep at hlife
  generalize (machineStep m i).1.state = t at hlife ⊢
  generalize m.state = s at hlife ⊢
  generalize i.event = event at hlife
  generalize mergeOutcomes (machineStep m i).2 = xs at hlife
  generalize purgeArms (machineStep m i).2 = n at hlife
  cases hlife with
  | stay => exact .inl rfl
  | live hmove => cases hmove <;> exact .inr (by decide)
  | finish hlive houtcome =>
    right
    have hover : 3 ≤ stage t := by cases t <;> first | decide | cases houtcome
    exact ((stage_lt_iff s).2 hlive).trans_le hover
  | saved | upgradeAnswered | upgradeVoicemail => exact .inr (by decide)

theorem stage_run (m : SessionMachine) (is : List Input) :
    (Reactive.final machineStep m is).state = m.state ∨
      stage m.state < stage (Reactive.final machineStep m is).state := by
  induction is generalizing m with
  | nil => exact .inl rfl
  | cons i is ih =>
    rw [Reactive.final_cons]
    rcases stage_step m i with h | h
    · rw [← h]
      exact ih _
    · right
      rcases ih (machineStep m i).1 with hrest | hrest
      · rwa [hrest]
      · exact h.trans hrest

/-- How many inputs of a run change the state. -/
def turns : SessionMachine → List Input → ℕ
  | _, [] => 0
  | m, i :: is =>
      (if (machineStep m i).1.state = m.state then 0 else 1) + turns (machineStep m i).1 is

theorem turns_le (m : SessionMachine) (is : List Input) :
    turns m is + stage m.state ≤ stage (Reactive.final machineStep m is).state := by
  induction is generalizing m with
  | nil => simp [turns]
  | cons i is ih =>
    have hrest := ih (machineStep m i).1
    rw [turns, Reactive.final_cons]
    rcases stage_step m i with h | h
    · rw [if_pos h]
      rw [h] at hrest
      omega
    · split_ifs <;> omega

/-- **A state that has been left is never taken again**, and a call changes its state at most four
times. -/
theorem never_taken_again (r : CallRun) (is : List Input) :
    ((r.extend is).machine.state = r.machine.state ∨
        ∀ js, (r.extend (is ++ js)).machine.state ≠ r.machine.state) ∧
      turns r.start.1 r.inputs ≤ 4 := by
  constructor
  · rw [CallRun.extend_machine]
    refine (stage_run r.machine is).imp_right fun h js hback => ?_
    rw [CallRun.extend_machine, Reactive.final_append] at hback
    rcases stage_run (Reactive.final machineStep r.machine is) js with hlater | hlater
    · rw [← hlater, hback] at h
      exact lt_irrefl _ h
    · rw [hback] at hlater
      exact lt_asymm h hlater
  · have hturns := turns_le r.start.1 r.inputs
    have hlast := stage_le (Reactive.final machineStep r.start.1 r.inputs).state
    omega

/-! ### The conversation -/

/-- The call is put into its conversation. -/
def Effect.isThreading : Effect → Bool
  | .threadAtAnswer => true
  | _ => false

theorem countP_isThreading {family : Effect → Bool} {es : List Effect} (h : Within family es)
    (hfamily : family .threadAtAnswer = false) : es.countP Effect.isThreading = 0 := by
  refine List.countP_eq_zero.2 fun e he hthreads => ?_
  cases e with
  | threadAtAnswer => exact absurd (h _ he) (by simp [hfamily])
  | _ => cases hthreads

def pickedUpBy (m : SessionMachine) (i : Input) : Bool :=
  m.state == .ringing && (machineStep m i).1.state == .answered

/-- Nothing but the outcome of a bridge answers a ringing call. -/
theorem event_of_pickedUpBy {m : SessionMachine} {i : Input} (h : pickedUpBy m i = true) :
    ∃ memberCcid userId answeredAtIso,
      i.event = .answerOutcome true memberCcid userId answeredAtIso := by
  have hlife := machineStep_life m i
  unfold LifeStep at hlife
  simp only [pickedUpBy, Bool.and_eq_true, beq_iff_eq] at h
  rw [h.1, h.2] at hlife
  generalize i.event = event at hlife ⊢
  generalize mergeOutcomes (machineStep m i).2 = xs at hlife
  generalize purgeArms (machineStep m i).2 = n at hlife
  cases hlife with
  | live hmove =>
    cases hmove
    exact ⟨_, _, _, rfl⟩
  | finish _ houtcome => cases houtcome

/-- A step puts the call into its conversation once where it picks it up, and else not. -/
theorem threads_step (m : SessionMachine) (i : Input) :
    (machineStep m i).2.countP Effect.isThreading = (pickedUpBy m i).toNat := by
  have hmay := machineStep_mayEmit m i
  rcases hpick : pickedUpBy m i with - | -
  · cases hevent : i.event with
    | answerOutcome ok memberCcid userId answeredAtIso =>
      simp only [pickedUpBy, machineStep, reduceMachine, hevent, quiet, reduceAnswerOutcome]
        at hpick ⊢
      split_ifs at hpick ⊢ with hring hok
      · rfl
      · rw [List.countP_append, countP_isThreading (terminalize_within _ _ _ _ _ _) rfl, add_zero]
        rcases doomMember_eq m memberCcid with h | h
        · rw [h]; rfl
        · rw [h]; rfl
      · rw [(by simpa using hring : m.state = .ringing)] at hpick
        exact absurd hpick (by decide : ¬true = false)
    | _ => exact countP_isThreading (hevent ▸ hmay) rfl
  · obtain ⟨memberCcid, userId, answeredAtIso, hevent⟩ := event_of_pickedUpBy hpick
    have hring : m.state = .ringing := by
      simpa using (Bool.and_eq_true_iff.1 hpick).1
    have hbridge : Within (fun e => !e.isThreading) (ifTruthy m.customerCcid fun customerCcid =>
        .telnyxBridge memberCcid customerCcid) := within_ifTruthy _ fun _ => rfl
    simp only [machineStep, reduceMachine, hevent, quiet, reduceAnswerOutcome]
    rw [if_neg (by simp [hring]), if_neg (by simp), List.countP_append, List.countP_append,
      List.countP_append, countP_isThreading hbridge rfl,
      countP_isThreading (sweepLegs_within (cancelSibling_within memberCcid) _) rfl]
    rfl

/-- How many inputs of a run pick the call up. -/
def pickUps : SessionMachine → List Input → ℕ
  | _, [] => 0
  | m, i :: is => (pickedUpBy m i).toNat + pickUps (machineStep m i).1 is

theorem threads_run (m : SessionMachine) (is : List Input) :
    (Reactive.outputs machineStep m is).countP Effect.isThreading = pickUps m is := by
  induction is generalizing m with
  | nil => rfl
  | cons i is ih =>
    rw [Reactive.outputs_cons, List.countP_append, threads_step, ih]
    rfl

/-- Once picked up, a call is past the stage in which it may be. -/
theorem pickUps_le (m : SessionMachine) (is : List Input) : pickUps m is ≤ 1 - stage m.state := by
  induction is generalizing m with
  | nil => exact Nat.zero_le _
  | cons i is ih =>
    have hrest := ih (machineStep m i).1
    rw [pickUps]
    rcases hpick : pickedUpBy m i with - | -
    · rcases stage_step m i with hstage | hstage
      · rw [hstage] at hrest
        simpa using hrest
      · simp only [Bool.toNat_false]
        omega
    · simp only [pickedUpBy, Bool.and_eq_true, beq_iff_eq] at hpick
      rw [hpick.2] at hrest
      rw [hpick.1]
      simp only [stage, Bool.toNat_true] at hrest ⊢
      omega

/-- **A call is put into its conversation when it is picked up**, and that happens once at most. -/
theorem threaded_once (r : CallRun) :
    r.effects.countP Effect.isThreading = pickUps r.start.1 r.inputs ∧
      pickUps r.start.1 r.inputs ≤ 1 := by
  have hmint : r.start.2.countP Effect.isThreading = 0 := by
    unfold CallRun.start Mint.start
    rcases r.mint with context | context
    · exact countP_isThreading (reduceInitiated_within context _ _) rfl
    · simp only [reduceOutboundInitiated]
      split <;> rfl
  constructor
  · rw [CallRun.effects, List.countP_append, hmint, threads_run, zero_add]
  · exact (pickUps_le r.start.1 r.inputs).trans (Nat.sub_le ..)

end Calls
