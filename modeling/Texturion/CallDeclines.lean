/-
**Two members decline.**

A decline takes the member out of the three avenues of the ring and runs the ladder over what is
left.  The first of two declines may use up the last avenue, and then the second finds the call at
its voicemail.  That makes no difference to what is left of the ring: a ladder that runs out has
found no live leg, no waiting phone and no push-capable member, so that the second decline would
have taken nothing away.

Main result:

* `Calls.declines_commute` — **the order of two declines does not matter.**
-/

import Texturion.CallPhones

namespace Calls

/-- No avenue is left. -/
structure Spent (m : SessionMachine) : Prop where
  legs : ∀ leg ∈ m.legs, leg.status.isLive = false
  queue : m.queuedTargets = []
  push : m.pushCapableUserIds = []

variable {m : SessionMachine} {userId u v : String} {leg : LegRecord} {i : Input}

theorem spent_iff :
    Spent m ↔ liveLegs m = [] ∧ m.queuedTargets = [] ∧ m.pushCapableUserIds = [] := by
  constructor
  · intro h
    exact ⟨List.filter_eq_nil_iff.2 fun leg hleg => by simp [h.legs leg hleg], h.queue, h.push⟩
  · rintro ⟨hlegs, hqueue, hpush⟩
    exact ⟨fun leg hleg => by simpa using List.filter_eq_nil_iff.1 hlegs leg hleg, hqueue, hpush⟩

theorem runAvenueLadder_of_spent (hring : m.state = .ringing)
    (h : Spent m) : runAvenueLadder m = vmEntry m := by
  obtain ⟨hlegs, hqueue, hpush⟩ := spent_iff.1 h
  simp [runAvenueLadder, hring, hlegs, hqueue, hpush]

theorem runAvenueLadder_of_not_spent (h : ¬Spent m) : runAvenueLadder m = (m, []) := by
  rcases runAvenueLadder_eq_or m with heq | ⟨-, hlegs, hqueue, hpush, -⟩
  · exact heq
  · exact absurd (spent_iff.2 ⟨hlegs, hqueue, hpush⟩) h

/-! ### The avenues without a member -/

/-- The leg is hung up when the member declines. -/
def Hangs (userId : String) (ccid : String) (leg : LegRecord) : Prop :=
  leg.userId = userId ∧ leg.status.isLive = true ∧ truthy leg.ccid = some ccid

theorem mem_withoutMember {userId ccid : String} {terminal : Bool} :
    Effect.telnyxHangup ccid terminal ∈ (withoutMember m userId).2 ↔
      terminal = false ∧ ∃ leg ∈ m.legs, Hangs userId ccid leg := by
  simp only [withoutMember, mem_sweepLegs, declineLeg, Hangs]
  constructor
  · rintro ⟨leg, hleg, h⟩
    split at h
    · next hlive =>
        simp only [Bool.and_eq_true, beq_iff_eq] at hlive
        simp only [ifTruthy, Option.mem_toList, Option.map_eq_some_iff] at h
        obtain ⟨c, hc, heq⟩ := h
        cases heq
        exact ⟨rfl, leg, hleg, hlive.1, hlive.2, hc⟩
    · cases h
  · rintro ⟨rfl, leg, hleg, huser, hlive, hccid⟩
    refine ⟨leg, hleg, ?_⟩
    rw [if_pos (by simp [huser, hlive])]
    simp [ifTruthy, hccid]

theorem declineLeg_of_ne (h : leg.userId ≠ userId) : (declineLeg userId leg).1 = leg := by
  simp [declineLeg, h]

theorem declineLeg_userId (userId : String) (leg : LegRecord) :
    (declineLeg userId leg).1.userId = leg.userId := by
  unfold declineLeg
  split <;> rfl

theorem declineLeg_of_dead (h : leg.status.isLive = false) : (declineLeg userId leg).1 = leg := by
  simp [declineLeg, h]

theorem declineLeg_comm (huv : u ≠ v) (leg : LegRecord) :
    (declineLeg v (declineLeg u leg).1).1 = (declineLeg u (declineLeg v leg).1).1 := by
  by_cases hu : leg.userId = u
  · have hv : leg.userId ≠ v := fun h => huv (hu.symm.trans h)
    rw [declineLeg_of_ne hv, declineLeg_of_ne ((declineLeg_userId u leg).trans_ne hv)]
  · rw [declineLeg_of_ne hu, declineLeg_of_ne ((declineLeg_userId v leg).trans_ne hu)]

theorem hangs_declineLeg {u v ccid : String} (huv : u ≠ v) :
    Hangs v ccid (declineLeg u leg).1 ↔ Hangs v ccid leg := by
  by_cases hu : leg.userId = u
  · have hv : leg.userId ≠ v := fun h => huv (hu.symm.trans h)
    have hv' := (declineLeg_userId u leg).trans_ne hv
    exact iff_of_false (fun h => hv' h.1) fun h => hv h.1
  · rw [declineLeg_of_ne hu]

/-- A ring with no avenue left has nothing that a member could be taken out of. -/
theorem Spent.withoutMember (h : Spent m) (userId : String) :
    Spent (withoutMember m userId).1 ∧ (withoutMember m userId).1.legs = m.legs ∧
      ∀ ccid terminal, Effect.telnyxHangup ccid terminal ∉ (withoutMember m userId).2 := by
  have hlegs : (Calls.withoutMember m userId).1.legs = m.legs := by
    refine (List.map_congr_left fun leg hleg => ?_).trans (List.map_id m.legs)
    exact declineLeg_of_dead (h.legs leg hleg)
  refine ⟨⟨by rw [hlegs]; exact h.legs, ?_, ?_⟩, hlegs, fun ccid terminal hmem => ?_⟩
  · simp [Calls.withoutMember, h.queue]
  · simp [Calls.withoutMember, h.push]
  · obtain ⟨-, leg, hleg, -, hlive, -⟩ := mem_withoutMember.1 hmem
    rw [h.legs leg hleg] at hlive
    cases hlive

/-! ### Two declines -/

theorem AcceptsDecline.ringing
    (h : AcceptsDecline m i userId) : m.state = .ringing ∧ wasRingTarget m userId = true := by
  obtain ⟨hevent, state, reason, hreply⟩ := h
  rw [hevent] at hreply
  simp only [reduceMachine, reduceDecline] at hreply
  split_ifs at hreply with hring htarget
  · simp at hreply
  · simp at hreply
  · exact ⟨by simpa using hring, by simpa using htarget⟩

/-- **One decline**, where it is accepted. -/
theorem reduce_declined (hevent : i.event = .decline userId) (hring : m.state = .ringing)
    (htarget : wasRingTarget m userId = true) :
    machineStep m i = ((runAvenueLadder (withoutMember m userId).1).1,
      (withoutMember m userId).2 ++ (runAvenueLadder (withoutMember m userId).1).2) := by
  simp [machineStep, reduceMachine, reduceDecline, hevent, hring, htarget]

theorem reduce_not_ringing (hevent : i.event = .decline userId) (hring : m.state ≠ .ringing) :
    machineStep m i = (m, []) := by
  simp [machineStep, reduceMachine, reduceDecline, hevent, hring]

theorem hangup_not_mem_vmEntry (m : SessionMachine) (ccid : String) (terminal : Bool) :
    Effect.telnyxHangup ccid terminal ∉ (vmEntry m).2 := by
  simp [vmEntry, ifTruthy]

theorem wasRingTarget_withoutMember (huv : u ≠ v)
    (h : wasRingTarget m v = true) : wasRingTarget (withoutMember m u).1 v = true := by
  simp only [wasRingTarget, Bool.or_eq_true, List.any_eq_true, beq_iff_eq,
    List.contains_iff_mem] at h ⊢
  rcases h with ((⟨leg, hleg, hv⟩ | ⟨target, htarget, hv⟩) | hpush) | hdeclined
  · refine .inl (.inl (.inl ⟨(declineLeg u leg).1, List.mem_map_of_mem hleg, ?_⟩))
    exact (declineLeg_userId u leg).trans hv
  · refine .inl (.inl (.inr ⟨target, List.mem_filter.2 ⟨htarget, ?_⟩, hv⟩))
    simpa [hv] using huv.symm
  · exact .inl (.inr (List.mem_filter.2 ⟨hpush, by simpa using huv.symm⟩))
  · refine .inr ?_
    simp only [withoutMember]
    split_ifs
    · exact hdeclined
    · exact List.mem_append_left _ hdeclined

theorem runAvenueLadder_ringing {w : SessionMachine} (hring : w.state = .ringing) :
    (Spent w → (runAvenueLadder w).1.state = .voicemailGreeting) ∧
      (¬Spent w → (runAvenueLadder w).1.state = .ringing) ∧
        (runAvenueLadder w).1.legs = w.legs ∧
          (runAvenueLadder w).1.pushCapableUserIds = w.pushCapableUserIds ∧
            (runAvenueLadder w).1.queuedTargets = w.queuedTargets := by
  refine ⟨fun h => ?_, fun h => ?_, runAvenueLadder_legs w, ?_, ?_⟩
  · rw [runAvenueLadder_of_spent hring h]
    rfl
  · rw [runAvenueLadder_of_not_spent h]
    exact hring
  · obtain ⟨_, _, _, h⟩ := runAvenueLadder_eq w
    rw [h]
  · by_cases h : Spent w
    · rw [runAvenueLadder_of_spent hring h, h.queue]
      rfl
    · rw [runAvenueLadder_of_not_spent h]

theorem declines_eq {i j : Input} (huv : u ≠ v) (hi : AcceptsDecline m i u)
    (hj : AcceptsDecline m j v) : let w := (withoutMember (withoutMember m u).1 v).1
    let n := Reactive.final machineStep m [i, j]
    (Spent w → n.state = .voicemailGreeting) ∧ (¬Spent w → n.state = .ringing) ∧
      n.legs = w.legs ∧ n.pushCapableUserIds = w.pushCapableUserIds ∧
      n.queuedTargets = w.queuedTargets ∧
      ∀ ccid terminal, Effect.telnyxHangup ccid terminal ∈ Reactive.outputs machineStep m [i, j] ↔
        terminal = false ∧ ∃ leg ∈ m.legs, Hangs u ccid leg ∨ Hangs v ccid leg := by
  obtain ⟨hring, hu⟩ := hi.ringing
  have hfirst := reduce_declined hi.1 hring hu
  have hringing : (withoutMember m u).1.state = .ringing := hring
  -- the legs of `v` are hung up as they were before `u` declined
  have hkept : ∀ ccid terminal,
      Effect.telnyxHangup ccid terminal ∈ (withoutMember (withoutMember m u).1 v).2 ↔
        terminal = false ∧ ∃ leg ∈ m.legs, Hangs v ccid leg := by
    intro ccid terminal
    have hlegs : (withoutMember m u).1.legs = m.legs.map fun leg => (declineLeg u leg).1 := rfl
    simp only [mem_withoutMember, hlegs, List.mem_map, exists_exists_and_eq_and,
      hangs_declineLeg huv]
  have hunion : ∀ ccid terminal,
      (Effect.telnyxHangup ccid terminal ∈ (withoutMember m u).2 ∨
          Effect.telnyxHangup ccid terminal ∈ (withoutMember (withoutMember m u).1 v).2) ↔
        terminal = false ∧ ∃ leg ∈ m.legs, Hangs u ccid leg ∨ Hangs v ccid leg := by
    intro ccid terminal
    rw [hkept, mem_withoutMember, ← and_or_left]
    simp only [and_or_left, exists_or]
  intro w n
  by_cases hout : Spent (withoutMember m u).1
  · -- the first decline has used up the ring, and the second changes nothing
    obtain ⟨hw, hlegs, hnone⟩ := hout.withoutMember v
    rw [runAvenueLadder_of_spent hringing hout] at hfirst
    have hsecond := reduce_not_ringing (m := (vmEntry (withoutMember m u).1).1) hj.1
      (by rw [vmEntry_state]; decide)
    have hn : n = (vmEntry (withoutMember m u).1).1 := by
      show (machineStep (machineStep m i).1 j).1 = _
      rw [hfirst, hsecond]
    refine ⟨fun _ => by rw [hn]; rfl, fun h => absurd hw h, ?_, ?_, ?_, fun ccid terminal => ?_⟩
    · rw [hn, hlegs]
      rfl
    · rw [hn, hw.push]
      exact hout.push
    · rw [hn, hw.queue]
      rfl
    · rw [← hunion]
      simp only [Reactive.outputs, hfirst, hsecond, List.append_nil, List.mem_append,
        hangup_not_mem_vmEntry, hnone, or_false]
  · rw [runAvenueLadder_of_not_spent hout] at hfirst
    have hsecond := reduce_declined (m := (withoutMember m u).1) hj.1 hringing
      (wasRingTarget_withoutMember huv hj.ringing.2)
    have hn : n = (runAvenueLadder w).1 := by
      show (machineStep (machineStep m i).1 j).1 = _
      rw [hfirst, hsecond]
    have houtputs : ∀ ccid terminal,
        Effect.telnyxHangup ccid terminal ∈ (runAvenueLadder w).2 → False := by
      intro ccid terminal hmem
      rcases runAvenueLadder_eq_or w with h | ⟨-, -, -, -, h⟩
      · rw [h] at hmem
        cases hmem
      · rw [h] at hmem
        exact hangup_not_mem_vmEntry w ccid terminal hmem
    obtain ⟨hspent, hunspent, hlegs, hpush, hqueue⟩ := runAvenueLadder_ringing (w := w) hring
    rw [hn]
    refine ⟨hspent, hunspent, hlegs, hpush, hqueue, fun ccid terminal => ?_⟩
    rw [← hunion]
    simp only [Reactive.outputs, hfirst, hsecond, List.append_nil, List.mem_append]
    exact ⟨fun h => h.imp_right fun h => h.resolve_right (houtputs ccid terminal),
      fun h => h.imp_right .inl⟩

/-- **The order of two declines does not matter**: the call ends up in the same state, with the
same legs, push-capable members and waiting phones, and the same legs have been hung up. -/
theorem declines_commute {m : SessionMachine} {i j : Input} {u v : String} (huv : u ≠ v)
    (hi : AcceptsDecline m i u) (hj : AcceptsDecline m j v) :
    let uv := Reactive.final machineStep m [i, j]
    let vu := Reactive.final machineStep m [j, i]
    uv.state = vu.state ∧ uv.legs = vu.legs ∧
      uv.pushCapableUserIds = vu.pushCapableUserIds ∧ uv.queuedTargets = vu.queuedTargets ∧
      ∀ ccid terminal, Effect.telnyxHangup ccid terminal ∈ Reactive.outputs machineStep m [i, j] ↔
        Effect.telnyxHangup ccid terminal ∈ Reactive.outputs machineStep m [j, i] := by
  obtain ⟨hout, hleft, hlegs, hpush, hqueue, hhangs⟩ := declines_eq huv hi hj
  obtain ⟨hout', hleft', hlegs', hpush', hqueue', hhangs'⟩ := declines_eq huv.symm hj hi
  have hsweep : (withoutMember (withoutMember m u).1 v).1.legs =
      (withoutMember (withoutMember m v).1 u).1.legs := by
    simp only [withoutMember, sweepLegs, List.map_map]
    exact List.map_congr_left fun leg _ => declineLeg_comm huv leg
  have hpushes : (withoutMember (withoutMember m u).1 v).1.pushCapableUserIds =
      (withoutMember (withoutMember m v).1 u).1.pushCapableUserIds := List.filter_comm ..
  have hqueues : (withoutMember (withoutMember m u).1 v).1.queuedTargets =
      (withoutMember (withoutMember m v).1 u).1.queuedTargets := List.filter_comm ..
  have hspent : Spent (withoutMember (withoutMember m u).1 v).1 ↔
      Spent (withoutMember (withoutMember m v).1 u).1 := by
    rw [spent_iff, spent_iff, liveLegs, liveLegs, hsweep, hpushes, hqueues]
  refine ⟨?_, hlegs.trans (hsweep.trans hlegs'.symm), hpush.trans (hpushes.trans hpush'.symm),
    hqueue.trans (hqueues.trans hqueue'.symm), fun ccid terminal => ?_⟩
  · by_cases h : Spent (withoutMember (withoutMember m u).1 v).1
    · rw [hout h, hout' (hspent.1 h)]
    · rw [hleft h, hleft' fun h' => h (hspent.2 h')]
  · rw [hhangs, hhangs']
    simp only [or_comm]

/-- Ana's phone rings and Bo waits for his turn; whoever of them declines last sends the caller to
voicemail. -/
theorem declines_commute_inTurn :
    let ana : Input := ⟨.decline "ana", 4000, 4000, strokes 1⟩
    let bo : Input := ⟨.decline "bo", 5000, 5000, strokes 2⟩
    (Reactive.final machineStep inTurnRun.start.1 [ana, bo]).state = .voicemailGreeting ∧
      (Reactive.final machineStep inTurnRun.start.1 [bo, ana]).state = .voicemailGreeting := by
  intro ana bo
  have hcommute := declines_commute (m := inTurnRun.start.1) (i := ana) (j := bo) (u := "ana")
    (v := "bo") (by decide) ⟨rfl, .ringing, none, by decide⟩ ⟨rfl, .ringing, none, by decide⟩
  have hvoicemail : (Reactive.final machineStep inTurnRun.start.1 [ana, bo]).state =
      .voicemailGreeting := by decide
  exact ⟨hvoicemail, hcommute.1.symm.trans hvoicemail⟩

end Calls
