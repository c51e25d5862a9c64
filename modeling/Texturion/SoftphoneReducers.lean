/-
**The two reducers of the softphone.**

The browser keeps the member's calls in `state.ts` of the web app, the phone keeps them in
`CallStateMachine.kt`, which is written as a port of it.  Both hold a list of calls and the id of
the one whose audio is flowing, and both turn an action into the next state without any effect.

Here each is modelled with all it keeps of a call: its name and number, its session, its mute flag
and the moment it went live.  `SoftphoneCalls.lean` has of the Kotlin one only what the softphone
core around it looks at.

Main result:

* `Reducers.same_run` — **so does every sequence of them**.
-/

import Mathlib.Data.List.Forall2
import Texturion.SoftphoneCalls

namespace Reducers

open Softphone (CallDirection CallPhase)

/-! ### The browser -/

/-- The phase of a raw `call.state`, as of an outbound call. -/
def phaseFromSdkState : String → CallPhase
  | "new" | "trying" | "requesting" | "recovering" | "ringing" | "early" => .connecting
  | "active" => .active
  | "held" => .held
  | "hangup" | "destroy" | "purge" => .ended
  | _ => .connecting

structure Peer where
  name : String
  number : String
  deriving DecidableEq

structure CallInfo where
  id : String
  sessionId : Option String
  peer : Peer
  direction : CallDirection
  phase : CallPhase
  muted : Bool
  /-- Unix ms the call went active first. -/
  activeSince : Option ℤ
  deriving DecidableEq

structure SoftphoneState where
  ready : Bool
  error : Option String
  calls : List CallInfo
  activeId : Option String
  deriving DecidableEq

def initialSoftphoneState : SoftphoneState where
  ready := false
  error := none
  calls := []
  activeId := none

inductive SoftphoneAction
  | ready
  | disconnected
  | error (message : String)
  | placing (id : String) (sessionId : Option String) (peer : Peer)
  | incoming (id : String) (sessionId : Option String) (peer : Peer)
  | placementConnected (placementId id sessionId : String)
  | placementFailed (placementId message : String)
  | sessionKnown (id sessionId : String)
  | sdkState (id state : String) (now : ℤ)
  | held (id : String) (held : Bool)
  | muted (id : String) (muted : Bool)
  | dismissed (id : String)
  deriving DecidableEq

def updateCall (s : SoftphoneState) (id : String) (patch : CallInfo → CallInfo) : SoftphoneState :=
  { s with calls := s.calls.map fun c => if c.id = id then patch c else c }

def activated (id : String) (now : ℤ) (c : CallInfo) : CallInfo :=
  if c.id = id then { c with phase := .active, activeSince := some (c.activeSince.getD now) }
  else if c.phase = .active then { c with phase := .held }
  else c

def activate (s : SoftphoneState) (id : String) (now : ℤ) : SoftphoneState :=
  { s with calls := s.calls.map (activated id now), activeId := some id }

/-- `state.activeId === id ? null : state.activeId`. -/
def activeUnless {Id : Type} [DecidableEq Id] (activeId : Option Id) (id : Id) : Option Id :=
  if activeId = some id then none else activeId

/-- A call as `placing` and `incoming` write it. -/
def newCall (id : String) (sessionId : Option String) (peer : Peer) (direction : CallDirection)
    (phase : CallPhase) : CallInfo :=
  { id, sessionId, peer, direction, phase, muted := false, activeSince := none }

def liveCalls (s : SoftphoneState) : List CallInfo := s.calls.filter (·.phase != .ended)

/-- The call leaves the list. -/
def dropCall (s : SoftphoneState) (id : String) : SoftphoneState :=
  { s with calls := s.calls.filter (·.id != id), activeId := activeUnless s.activeId id }

/-- The `sdk_state` branch, with the state mapped. -/
def reduceSdkState (s : SoftphoneState) (id : String) (phase : CallPhase) (now : ℤ) :
    SoftphoneState :=
  match s.calls.find? (·.id == id) with
  | none => s
  | some call =>
    if call.phase = .ringing then
      -- early states must not morph the chip of a ring nobody answered
      if phase = .active then activate s id now
      else if phase = .ended then dropCall s id
      else s
    else if phase = .active then activate s id now
    else if phase = .ended then
      { updateCall s id (fun c => { c with phase := .ended }) with
        activeId := activeUnless s.activeId id }
    else if phase = .held then
      { updateCall s id (fun c => { c with phase := .held }) with
        activeId := activeUnless s.activeId id }
    else updateCall s id fun c => { c with phase := phase }

/-- The `held` branch. -/
def reduceHeld (s : SoftphoneState) (id : String) (held : Bool) : SoftphoneState :=
  match s.calls.find? (·.id == id) with
  | none => s
  | some call =>
    if call.phase ≠ .active ∧ call.phase ≠ .held then s
    else
      { updateCall s id (fun c => { c with phase := if held then .held else .active }) with
        activeId := if held then activeUnless s.activeId id else some id }

def softphoneReducer (s : SoftphoneState) : SoftphoneAction → SoftphoneState
  | .ready => { s with ready := true, error := none }
  | .disconnected => if s.ready then { s with ready := false } else s
  | .error message => { s with error := some message }
  | .placing id sessionId peer =>
    { s with
      error := none
      calls := liveCalls s ++ [newCall id sessionId peer .outbound .connecting]
      activeId := some id }
  | .incoming id sessionId peer =>
    if s.calls.any (·.id == id) then s
    else
      { s with calls := liveCalls s ++ [newCall id sessionId peer .inbound .ringing] }
  | .placementConnected placementId id sessionId =>
    if s.calls.any (·.id == placementId) then
      { updateCall s placementId (fun c => { c with id := id, sessionId := some sessionId }) with
        activeId := if s.activeId = some placementId then some id else s.activeId }
    else s
  | .placementFailed placementId message =>
    { dropCall s placementId with error := some message }
  | .sessionKnown id sessionId => updateCall s id fun c => { c with sessionId := some sessionId }
  | .sdkState id state now => reduceSdkState s id (phaseFromSdkState state) now
  | .held id held => reduceHeld s id held
  | .muted id muted => updateCall s id fun c => { c with muted := muted }
  | .dismissed id => dropCall s id

/-! ### The phone -/

inductive SoftphoneStatus
  | disconnected
  | connecting
  | ready
  deriving DecidableEq

structure CallSnapshot where
  id : String
  direction : CallDirection
  peerName : String
  peerNumber : String
  phase : CallPhase
  muted : Bool := false
  sessionId : Option String := none
  activeSinceMs : Option ℤ := none
  silenced : Bool := false
  deriving DecidableEq

structure SoftphoneSnapshot where
  status : SoftphoneStatus := .disconnected
  error : Option String := none
  calls : List CallSnapshot := []
  activeId : Option String := none
  deriving DecidableEq

namespace CallStateMachine

def ready (s : SoftphoneSnapshot) : SoftphoneSnapshot := { s with status := .ready, error := none }

def connecting (s : SoftphoneSnapshot) : SoftphoneSnapshot := { s with status := .connecting }

def disconnected (s : SoftphoneSnapshot) : SoftphoneSnapshot := { s with status := .disconnected }

def error (s : SoftphoneSnapshot) (message : String) : SoftphoneSnapshot :=
  { s with error := some message }

def clearError (s : SoftphoneSnapshot) : SoftphoneSnapshot := { s with error := none }

def liveCalls (s : SoftphoneSnapshot) : List CallSnapshot := s.calls.filter (·.phase != .ended)

def placing (s : SoftphoneSnapshot) (call : CallSnapshot) : SoftphoneSnapshot :=
  { s with
    error := none
    calls := liveCalls s ++ [{ call with phase := .connecting, direction := .outbound }]
    activeId := some call.id }

def incoming (s : SoftphoneSnapshot) (call : CallSnapshot) : SoftphoneSnapshot :=
  if s.calls.any (·.id == call.id) then s
  else { s with calls := liveCalls s ++ [{ call with phase := .ringing, direction := .inbound }] }

def update (s : SoftphoneSnapshot) (id : String) (patch : CallSnapshot → CallSnapshot) :
    SoftphoneSnapshot :=
  { s with calls := s.calls.map fun c => if c.id = id then patch c else c }

def sessionKnown (s : SoftphoneSnapshot) (id sessionId : String) : SoftphoneSnapshot :=
  update s id fun c => { c with sessionId := some sessionId }

def placementConnected (s : SoftphoneSnapshot) (placementId id sessionId : String) :
    SoftphoneSnapshot :=
  if s.calls.any (·.id == placementId) then
    { update s placementId (fun c => { c with id := id, sessionId := some sessionId }) with
      activeId := if s.activeId = some placementId then some id else s.activeId }
  else s

/-- What `placementFailed`, `dismissed` and the end of a ring have in common. -/
def drop (s : SoftphoneSnapshot) (id : String) : SoftphoneSnapshot :=
  { s with calls := s.calls.filter (·.id != id), activeId := activeUnless s.activeId id }

def placementFailed (s : SoftphoneSnapshot) (placementId message : String) : SoftphoneSnapshot :=
  { drop s placementId with error := some message }

def muted (s : SoftphoneSnapshot) (id : String) (muted : Bool) : SoftphoneSnapshot :=
  update s id fun c => { c with muted := muted }

def presentationSilenced (s : SoftphoneSnapshot) (id : String) : SoftphoneSnapshot :=
  update s id fun c => if c.phase = .ringing then { c with silenced := true } else c

def dismissed (s : SoftphoneSnapshot) (id : String) : SoftphoneSnapshot := drop s id

def activated (id : String) (nowMs : ℤ) (c : CallSnapshot) : CallSnapshot :=
  if c.id = id then
    { c with
      phase := .active, activeSinceMs := some (c.activeSinceMs.getD nowMs), silenced := false }
  else if c.phase = .active then { c with phase := .held }
  else c

def activate (s : SoftphoneSnapshot) (id : String) (nowMs : ℤ) : SoftphoneSnapshot :=
  { s with calls := s.calls.map (activated id nowMs), activeId := some id }

def sdkPhase (s : SoftphoneSnapshot) (id : String) (phase : CallPhase) (nowMs : ℤ) :
    SoftphoneSnapshot :=
  match s.calls.find? (·.id == id) with
  | none => s
  | some call =>
    if call.phase = .ringing then
      match phase with
      | .active => activate s id nowMs
      | .ended => drop s id
      | _ => s
    else
      match phase with
      | .active => activate s id nowMs
      | .ended =>
        { update s id (fun c => { c with phase := .ended }) with
          activeId := activeUnless s.activeId id }
      | .held =>
        { update s id (fun c => { c with phase := .held }) with
          activeId := activeUnless s.activeId id }
      | .ringing | .connecting => update s id fun c => { c with phase := .connecting }

end CallStateMachine

/-- A call of one of the functions of `CallStateMachine`. -/
inductive CallAction
  | ready
  | connecting
  | disconnected
  | error (message : String)
  | clearError
  | placing (call : CallSnapshot)
  | incoming (call : CallSnapshot)
  | sessionKnown (id sessionId : String)
  | placementConnected (placementId id sessionId : String)
  | placementFailed (placementId message : String)
  | muted (id : String) (muted : Bool)
  | presentationSilenced (id : String)
  | dismissed (id : String)
  | sdkPhase (id : String) (phase : CallPhase) (nowMs : ℤ)
  deriving DecidableEq

def callStateMachine (s : SoftphoneSnapshot) : CallAction → SoftphoneSnapshot
  | .ready => CallStateMachine.ready s
  | .connecting => CallStateMachine.connecting s
  | .disconnected => CallStateMachine.disconnected s
  | .error message => CallStateMachine.error s message
  | .clearError => CallStateMachine.clearError s
  | .placing call => CallStateMachine.placing s call
  | .incoming call => CallStateMachine.incoming s call
  | .sessionKnown id sessionId => CallStateMachine.sessionKnown s id sessionId
  | .placementConnected placementId id sessionId =>
    CallStateMachine.placementConnected s placementId id sessionId
  | .placementFailed placementId message => CallStateMachine.placementFailed s placementId message
  | .muted id muted => CallStateMachine.muted s id muted
  | .presentationSilenced id => CallStateMachine.presentationSilenced s id
  | .dismissed id => CallStateMachine.dismissed s id
  | .sdkPhase id phase nowMs => CallStateMachine.sdkPhase s id phase nowMs

/-! ### One call on both -/

/-- A call of the browser and one of the phone with the same name, phase, session, mute flag and
time. -/
structure Alike (c : CallInfo) (d : CallSnapshot) : Prop where
  id : c.id = d.id
  sessionId : c.sessionId = d.sessionId
  peerName : c.peer.name = d.peerName
  peerNumber : c.peer.number = d.peerNumber
  direction : c.direction = d.direction
  phase : c.phase = d.phase
  muted : c.muted = d.muted
  activeSince : c.activeSince = d.activeSinceMs

/-- The two show the same calls in the same order, and the same one is active. -/
structure Same (s : SoftphoneState) (t : SoftphoneSnapshot) : Prop where
  calls : List.Forall₂ Alike s.calls t.calls
  activeId : s.activeId = t.activeId

/-- The actions both have.  The phone is told the phase that its SDK's state stands for. -/
inductive Matches : SoftphoneAction → CallAction → Prop
  | placing (id : String) (sessionId : Option String) (peer : Peer) (direction : CallDirection)
      (phase : CallPhase) :
      Matches (.placing id sessionId peer)
        (.placing { id, direction, phase, sessionId, peerName := peer.name,
                    peerNumber := peer.number })
  | incoming (id : String) (sessionId : Option String) (peer : Peer) (direction : CallDirection)
      (phase : CallPhase) :
      Matches (.incoming id sessionId peer)
        (.incoming { id, direction, phase, sessionId, peerName := peer.name,
                     peerNumber := peer.number })
  | placementConnected (placementId id sessionId : String) :
      Matches (.placementConnected placementId id sessionId)
        (.placementConnected placementId id sessionId)
  | placementFailed (placementId message message' : String) :
      Matches (.placementFailed placementId message) (.placementFailed placementId message')
  | sessionKnown (id sessionId : String) :
      Matches (.sessionKnown id sessionId) (.sessionKnown id sessionId)
  | sdkState (id state : String) (phase : CallPhase) (now : ℤ)
      (h : phase = phaseFromSdkState state ∨
        phase = .ringing ∧ phaseFromSdkState state = .connecting) :
      Matches (.sdkState id state now) (.sdkPhase id phase now)
  | muted (id : String) (muted : Bool) : Matches (.muted id muted) (.muted id muted)
  | dismissed (id : String) : Matches (.dismissed id) (.dismissed id)

theorem find?_alike {cs : List CallInfo} {ds : List CallSnapshot} (h : List.Forall₂ Alike cs ds)
    (id : String) : Option.Rel Alike (cs.find? (·.id == id)) (ds.find? (·.id == id)) := by
  induction h with
  | nil => exact .none
  | @cons c d cs ds hcd _ ih =>
    rw [List.find?_cons, List.find?_cons, hcd.id]
    cases d.id == id with
    | true => exact .some hcd
    | false => exact ih

theorem any_alike {cs : List CallInfo} {ds : List CallSnapshot} (h : List.Forall₂ Alike cs ds)
    (id : String) : cs.any (·.id == id) = ds.any (·.id == id) := by
  induction h with
  | nil => rfl
  | cons hcd _ ih => rw [List.any_cons, List.any_cons, hcd.id, ih]

namespace Same

variable {s : SoftphoneState} {t : SoftphoneSnapshot}

section

variable (h : Same s t)
include h

theorem liveCalls : List.Forall₂ Alike (liveCalls s) (CallStateMachine.liveCalls t) := by
  refine List.rel_filter ?_ h.calls
  intro c d hcd
  simp only [hcd.phase]

theorem update (id : String) {f : CallInfo → CallInfo} {g : CallSnapshot → CallSnapshot}
    (hfg : ∀ c d, Alike c d → Alike (f c) (g d)) :
    List.Forall₂ Alike (updateCall s id f).calls (CallStateMachine.update t id g).calls := by
  refine List.rel_map ?_ h.calls
  intro c d hcd
  simp only [hcd.id]
  split
  · exact hfg c d hcd
  · exact hcd

theorem drop (id : String) : Same (dropCall s id) (CallStateMachine.drop t id) := by
  refine ⟨List.rel_filter ?_ h.calls, congrArg (activeUnless · id) h.activeId⟩
  intro c d hcd
  simp only [hcd.id]

theorem activate (id : String) (now : ℤ) :
    Same (activate s id now) (CallStateMachine.activate t id now) := by
  refine ⟨List.rel_map ?_ h.calls, rfl⟩
  intro c d hcd
  rw [activated, CallStateMachine.activated, hcd.id, hcd.phase]
  split_ifs
  · exact { hcd with id := rfl, phase := rfl, activeSince := by rw [hcd.activeSince] }
  · exact { hcd with id := rfl, phase := rfl }
  · exact hcd

theorem sdkPhase (id state : String) {phase : CallPhase} (now : ℤ)
    (hphase : phase = phaseFromSdkState state ∨
      phase = .ringing ∧ phaseFromSdkState state = .connecting) :
    Same (reduceSdkState s id (phaseFromSdkState state) now)
      (CallStateMachine.sdkPhase t id phase now) := by
  have hset : ∀ phase, Same (updateCall s id fun c => { c with phase := phase })
      (CallStateMachine.update t id fun c => { c with phase := phase }) := fun phase =>
    ⟨h.update id fun c d hcd => { hcd with phase := rfl }, h.activeId⟩
  have hunless := congrArg (activeUnless · id) h.activeId
  unfold reduceSdkState CallStateMachine.sdkPhase
  have hfind := find?_alike h.calls id
  generalize s.calls.find? (·.id == id) = found at hfind
  generalize t.calls.find? (·.id == id) = found' at hfind
  cases hfind with
  | none => exact h
  | @some c d hcd =>
    simp only [hcd.phase]
    have hstate : phase ≠ .ringing → phaseFromSdkState state = phase := by
      intro hne
      exact (hphase.resolve_right fun hr => hne hr.1).symm
    have hringing : phase = .ringing → phaseFromSdkState state = .connecting := by
      intro heq
      rcases hphase with hphase | hphase
      · unfold phaseFromSdkState at hphase
        split at hphase <;> rw [hphase] at heq <;> cases heq
      · exact hphase.2
    by_cases hring : d.phase = .ringing
    · simp only [if_pos hring]
      cases phase with
      | ringing => rw [hringing rfl]; exact h
      | connecting => rw [hstate nofun]; exact h
      | active => rw [hstate nofun]; exact h.activate id now
      | held => rw [hstate nofun]; exact h
      | ended => rw [hstate nofun]; exact h.drop id
    · simp only [if_neg hring]
      cases phase with
      | ringing => rw [hringing rfl]; exact hset .connecting
      | connecting => rw [hstate nofun]; exact hset .connecting
      | active => rw [hstate nofun]; exact h.activate id now
      | held => rw [hstate nofun]; exact ⟨(hset .held).calls, hunless⟩
      | ended => rw [hstate nofun]; exact ⟨(hset .ended).calls, hunless⟩

end

end Same

theorem same_step {s : SoftphoneState} {t : SoftphoneSnapshot} {a : SoftphoneAction}
    {b : CallAction} (h : Same s t) (hab : Matches a b) :
    Same (softphoneReducer s a) (callStateMachine t b) := by
  cases hab with
  | placing id sessionId peer direction phase =>
    exact ⟨List.rel_append h.liveCalls
      (.cons ⟨rfl, rfl, rfl, rfl, rfl, rfl, rfl, rfl⟩ .nil), rfl⟩
  | incoming id sessionId peer direction phase =>
    simp only [softphoneReducer, callStateMachine, CallStateMachine.incoming,
      any_alike h.calls id]
    split_ifs
    · exact h
    · exact ⟨List.rel_append h.liveCalls
        (.cons ⟨rfl, rfl, rfl, rfl, rfl, rfl, rfl, rfl⟩ .nil), h.activeId⟩
  | placementConnected placementId id sessionId =>
    simp only [softphoneReducer, callStateMachine, CallStateMachine.placementConnected,
      any_alike h.calls placementId, h.activeId]
    split_ifs
    · exact ⟨h.update placementId fun c d hcd => { hcd with id := rfl, sessionId := rfl }, rfl⟩
    · exact ⟨h.update placementId fun c d hcd => { hcd with id := rfl, sessionId := rfl }, rfl⟩
    · exact h
  | placementFailed placementId message message' =>
    exact ⟨(h.drop placementId).calls, (h.drop placementId).activeId⟩
  | sessionKnown id sessionId =>
    exact ⟨h.update id fun c d hcd => { hcd with sessionId := rfl }, h.activeId⟩
  | sdkState id state phase now hphase => exact h.sdkPhase id state now hphase
  | muted id muted =>
    exact ⟨h.update id fun c d hcd => { hcd with muted := rfl }, h.activeId⟩
  | dismissed id => exact h.drop id

/-- **Matching sequences of actions keep the two alike.** -/
theorem same_run {s : SoftphoneState} {t : SoftphoneSnapshot} {as : List SoftphoneAction}
    {bs : List CallAction} (h : Same s t) (hab : List.Forall₂ Matches as bs) :
    Same (as.foldl softphoneReducer s) (bs.foldl callStateMachine t) := by
  induction hab generalizing s t with
  | nil => exact h
  | cons hab _ ih => exact ih (same_step h hab)

end Reducers
