/-
**Stray legs.**

A leg event is stray when its ccid is no leg's and the machine has no record it would adopt it
onto: a forged tag, or a dial that was replayed.  Three of the four handlers look the leg up before
they believe the event; `outbound-placer-hangup` looks it up, and goes on whether or not it found
it.  So a stray hangup that carries the owner's user id takes the call down, and the hangup that
the session itself sends to a stray leg comes back as exactly such an event.

Main results:

* `Calls.stray_isolated_iff` — **a stray event leaves the call alone exactly when the machine
  tolerates it.**
-/

import Texturion.CallAnswered

namespace Calls

open FirstMatch

/-! ### Stray events -/

def unclaimed (m : SessionMachine) (ccid userId : String) (destination : Option String)
    (mayAdopt : Bool) : Bool :=
  (m.findLeg ccid).isNone &&
    !(mayAdopt && (m.legs.find? (adoptable userId destination)).isSome)

/-- A leg event about a ccid that the machine neither knows nor may adopt. -/
def isStray (m : SessionMachine) : SessionEvent → Bool
  | .memberLegAnswered ccid userId destination | .memberLegHangup ccid userId destination =>
      unclaimed m ccid userId destination (m.state == .ringing)
  | .outboundPlacerAnswered ccid userId destination =>
      unclaimed m ccid userId destination (m.direction == .outbound && !isTerminal m.state)
  | .outboundPlacerHangup ccid userId => unclaimed m ccid userId none false
  | _ => false

/-- The step left the call alone: its state, its owner and its legs are as they were, the customer
leg was not hung up and nothing was billed. -/
structure Isolated (m : SessionMachine) (r : SessionMachine × List Effect) : Prop where
  state : r.1.state = m.state
  owner : r.1.answeredByUserId = m.answeredByUserId
  legs : r.1.legs = m.legs
  no_customer_hangup : ∀ c terminal, m.customerCcid = some c → .telnyxHangup c terminal ∉ r.2
  no_merge : mergeOutcomes r.2 = []

/-- The machine tolerates a stray event: an answer is not about the customer's own leg, and a
placer's hangup finds a call that is over, or another's, or answered with a transfer under way or
no customer to hang up. -/
def tolerates (m : SessionMachine) : SessionEvent → Bool
  | .memberLegAnswered ccid _ _ | .outboundPlacerAnswered ccid _ _ =>
      m.customerCcid != some ccid
  | .outboundPlacerHangup _ userId =>
      isTerminal m.state ||
        (m.answeredByUserId != none && m.answeredByUserId != some userId) ||
        (m.state == .answered && (m.intent != none || (truthy m.customerCcid).isNone))
  | _ => true

/-! ### The four handlers on a stray event -/

variable {m : SessionMachine} {ccid userId : String} {destination : Option String}

theorem findLeg_of_unclaimed {mayAdopt : Bool}
    (h : unclaimed m ccid userId destination mayAdopt = true) : m.findLeg ccid = none := by
  unfold unclaimed at h
  rw [Bool.and_eq_true] at h
  simpa using h.1

theorem resolveLeg_of_unclaimed {mayAdopt : Bool} (wake : LegStatus → LegStatus)
    (h : unclaimed m ccid userId destination mayAdopt = true) :
    resolveLeg m ccid userId destination mayAdopt wake = m := by
  rcases resolveLeg_eq_or m ccid userId destination mayAdopt wake with
    ⟨leg, hleg, _⟩ | ⟨_, hadopt, ⟨leg, hleg⟩, _⟩ | ⟨_, _, hsame⟩
  · rw [findLeg_of_unclaimed h] at hleg
    cases hleg
  · simp [unclaimed, hadopt, hleg] at h
  · exact hsame

/-- A step that only emits a hangup, and perhaps a warning, leaves the call alone unless the
hangup is for the customer leg. -/
theorem isolated_hangup_iff (m : SessionMachine) (ccid : String) (terminal : Bool)
    {rest : List Effect} (hrest : ∀ e ∈ rest, e.isHangup = false ∧ e.mergeOutcome = none) :
    Isolated m (m, .telnyxHangup ccid terminal :: rest) ↔ m.customerCcid ≠ some ccid := by
  constructor
  · intro h hcust
    exact h.no_customer_hangup ccid terminal hcust (List.mem_cons_self ..)
  · intro hne
    refine ⟨rfl, rfl, rfl, ?_, ?_⟩
    · intro c terminal' hcust hmem
      rcases List.mem_cons.1 hmem with he | he
      · injection he with hc
        exact hne (hc ▸ hcust)
      · have hhang := (hrest _ he).1
        cases hhang
    · rw [mergeOutcomes_cons]
      exact List.filterMap_eq_nil_iff.2 fun e he => (hrest e he).2

/-- A step that does nothing, or touches a field the property does not name, leaves the call
alone. -/
theorem isolated_of_eq {m m' : SessionMachine} (hstate : m'.state = m.state)
    (howner : m'.answeredByUserId = m.answeredByUserId) (hlegs : m'.legs = m.legs) :
    Isolated m (m', []) :=
  ⟨hstate, howner, hlegs, by simp, rfl⟩

theorem reduceMemberAnswered_stray (clockMs : ℤ)
    (h : unclaimed m ccid userId destination (m.state == .ringing) = true) :
    reduceMemberAnswered m ccid userId destination clockMs =
      (m, [.telnyxHangup ccid false, orphanWarning userId]) := by
  unfold reduceMemberAnswered
  simp only [resolveLeg_of_unclaimed wakeAmbiguous h, findLeg_of_unclaimed h]

theorem reduceMemberHangup_stray
    (h : unclaimed m ccid userId destination (m.state == .ringing) = true) :
    reduceMemberHangup m ccid userId destination = (m, []) := by
  unfold reduceMemberHangup
  simp only [resolveLeg_of_unclaimed id h, findLeg_of_unclaimed h]

theorem reduceOutboundPlacerAnswered_stray (h : unclaimed m ccid userId destination
      (m.direction == .outbound && !isTerminal m.state) = true) :
    ∃ terminal, reduceOutboundPlacerAnswered m ccid userId destination =
      (m, [.telnyxHangup ccid terminal]) := by
  unfold reduceOutboundPlacerAnswered
  by_cases hover : (m.direction != .outbound || isTerminal m.state) = true
  · exact ⟨true, by rw [if_pos hover]⟩
  · have hlive : (m.direction == .outbound && !isTerminal m.state) = true := by
      simpa [bne] using hover
    rw [hlive] at h
    refine ⟨false, ?_⟩
    rw [if_neg hover]
    simp only [resolveLeg_of_unclaimed id h, findLeg_of_unclaimed h]

/-- A stray hangup of the placer leaves the call alone exactly when the machine tolerates it: the
handler never asks whether it found the leg. -/
theorem reduceOutboundPlacerHangup_stray (nowMs : ℤ) (h : m.findLeg ccid = none) :
    Isolated m (reduceOutboundPlacerHangup m ccid userId nowMs) ↔
      tolerates m (.outboundPlacerHangup ccid userId) = true := by
  have hsame : m.setLegStatus ccid .dead = m := setLegStatus_of_findLeg_none .dead h
  unfold reduceOutboundPlacerHangup
  simp only [hsame]
  by_cases hterm : isTerminal m.state = true
  · rw [if_pos hterm]
    exact iff_of_true (isolated_of_eq rfl rfl rfl) (by simp [tolerates, hterm])
  · rw [if_neg hterm]
    by_cases howner : (m.answeredByUserId != none && m.answeredByUserId != some userId) = true
    · rw [if_pos howner]
      refine iff_of_true (isolated_of_eq rfl rfl rfl) ?_
      simp only [tolerates]
      rw [howner, Bool.or_true, Bool.true_or]
    · rw [if_neg howner]
      have howner' : (m.answeredByUserId != none && m.answeredByUserId != some userId) = false := by
        simpa using howner
      by_cases hans : m.state = .answered
      · rw [if_pos hans]
        by_cases hintent : (m.intent != none) = true
        · rw [if_pos hintent]
          refine iff_of_true (isolated_of_eq rfl rfl rfl) ?_
          simp only [tolerates]
          rw [hintent]
          simp [hans]
        · rw [if_neg hintent]
          have hintent' : (m.intent != none) = false := by simpa using hintent
          unfold ownerDeathTeardown
          cases hcust : truthy m.customerCcid with
          | none =>
              rw [ifTruthy_of_none hcust]
              refine iff_of_true (isolated_of_eq rfl rfl rfl) ?_
              simp [tolerates, hans, hcust]
          | some c =>
              rw [ifTruthy_of_some hcust]
              refine iff_of_false (fun hiso => ?_) ?_
              · exact hiso.no_customer_hangup c true (truthy_eq_some.1 hcust).1
                  (List.mem_singleton.2 rfl)
              · simp [tolerates, howner', hans, hintent', hcust, isTerminal]
      · rw [if_neg hans]
        -- a call that is not answered ends as missed, on the word of a stranger
        refine iff_of_false (fun hiso => ?_) ?_
        · have hstate := hiso.state
          simp only [terminalize_state] at hstate
          rw [← hstate] at hterm
          exact hterm rfl
        · simp [tolerates, howner', hans, hterm]

/-! ### The exact condition -/

/-- **A stray leg event leaves the call alone exactly when the machine tolerates it.** -/
theorem stray_isolated_iff (m : SessionMachine) (i : Input) (h : isStray m i.event = true) :
    Isolated m (machineStep m i) ↔ tolerates m i.event = true := by
  unfold machineStep reduceMachine
  cases hevent : i.event with
  | memberLegAnswered ccid userId destination =>
      rw [hevent] at h
      simp only [quiet, reduceMemberAnswered_stray i.clockMs h]
      rw [isolated_hangup_iff m ccid false (by simp [orphanWarning, Effect.isHangup,
        Effect.mergeOutcome])]
      simp [tolerates]
  | memberLegHangup ccid userId destination =>
      rw [hevent] at h
      simp only [quiet, reduceMemberHangup_stray h]
      exact iff_of_true (isolated_of_eq rfl rfl rfl) rfl
  | outboundPlacerAnswered ccid userId destination =>
      rw [hevent] at h
      obtain ⟨terminal, hr⟩ := reduceOutboundPlacerAnswered_stray h
      simp only [quiet, hr]
      rw [isolated_hangup_iff m ccid terminal (by simp)]
      simp [tolerates]
  | outboundPlacerHangup ccid userId =>
      rw [hevent] at h
      exact reduceOutboundPlacerHangup_stray i.nowMs (findLeg_of_unclaimed h)
  | _ =>
      rw [hevent] at h
      cases h

/-! ### A call that takes itself down -/

def placedCall : OutboundInitiatedContext where
  callSessionId := "session"
  customerCcid := "customer"
  companyId := "company"
  phoneNumberId := "number"
  userId := some "ana"
  placerSipUsername := some "ana-sip"
  customer := some "+15550001111"
  businessNumberE164 := some "+15550002222"

/-- Ana's call, with her leg and the customer's both answered. -/
def talking : CallRun where
  mint := .outbound placedCall
  nowMs := 0
  clockMs := 0
  pendingKeyFor := fun _ => "key"
  inputs := [inputOf (.dialOutcome "leg:pending:key" (some "ana-leg") none),
    inputOf (.outboundPlacerAnswered "ana-leg" "ana" none), inputOf .outboundAnswered]

/-- A second leg with Ana's tag is hung up defensively, and the hangup of that leg, which no
record may adopt, hangs up the customer of the live call. -/
theorem defensive_hangup_tears_down :
    talking.machine.state = .answered ∧ talking.machine.customerCcid = some "customer" ∧
      (machineStep talking.machine
        (inputOf (.outboundPlacerAnswered "stray-leg" "ana" none))).2 =
          [.telnyxHangup "stray-leg" false] ∧
      isStray (talking.extend
          [inputOf (.outboundPlacerAnswered "stray-leg" "ana" none)]).machine
        (.outboundPlacerHangup "stray-leg" "ana") = true ∧
      (machineStep (talking.extend
          [inputOf (.outboundPlacerAnswered "stray-leg" "ana" none)]).machine
        (inputOf (.outboundPlacerHangup "stray-leg" "ana"))).2 =
          [.telnyxHangup "customer" true] := by
  exact ⟨rfl, rfl, rfl, rfl, rfl⟩

theorem stray_isolated_iff_talking :
    isStray talking.machine (.outboundPlacerHangup "stray-leg" "ana") = true ∧
      (Isolated talking.machine
          (machineStep talking.machine (inputOf (.outboundPlacerHangup "stray-leg" "ana"))) ↔
        tolerates talking.machine (.outboundPlacerHangup "stray-leg" "ana") = true) :=
  ⟨rfl, stray_isolated_iff talking.machine (inputOf (.outboundPlacerHangup "stray-leg" "ana")) rfl⟩

end Calls
