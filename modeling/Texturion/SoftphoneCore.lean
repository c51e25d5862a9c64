/-
**The softphone of the Android app.**

`SoftphoneCore.kt`: the calls a member sees, the SDK calls behind them, the placements that wait for
their leg and the INVITEs that are held silently.  Everything runs on the one main loop, so that a
function of the core is one step; between two of them, and wherever a function suspends, anything
else may happen.  The SDK's calls are part of the system: a call obeys the commands it has been
given, in any order, and reports the phase it is in; a far end may hang up at any time.

The INVITE comes with its headers read: the session of `X-Loonext-Session` if it carries one, and
the caller's number.  The connection itself, names, errors, tones and mutes are left out; what the
connection does to the core (a placement's registration gets through, fails or is cancelled, the
client dies) is an input.

Main definitions:

* `Softphone.Phone` — the core, its SDK calls, and what has been recorded of the run;
* `Softphone.onIncoming`, `Softphone.onPhase`, `Softphone.maybePromoteHeld`,
  `Softphone.reapOnClientDeath`, `Softphone.reapExpiredRings` — what the core does on its own;
* `Softphone.authorized`, `Softphone.answer`, `Softphone.hangup`, `Softphone.toggleHold` — what the
  member asks for;
* `Softphone.report`, `Softphone.obey` — the SDK;
* `Softphone.step` — one step.
-/

import Texturion.SoftphoneCalls
import Texturion.ReactiveRun

namespace Softphone

/-! ### The phone -/

/-- A placement that waits for its leg; its id is the session's chip. -/
structure PendingPlacement where
  session : String
  peerNumber : String
  timer : Bool
  deriving DecidableEq

inductive HoldReason
  | duplicate
  | capacity
  deriving DecidableEq

structure HeldInvite where
  id : CallId
  callerNumber : String
  reason : HoldReason
  headerSession : Option String
  deriving DecidableEq

/-- What the core tells an SDK call to do. -/
inductive Command
  | accept
  | toggleHold
  | endCall
  deriving DecidableEq

/-- What became of an INVITE that carries a session. -/
inductive Fate
  /-- Answered, and the chip of its placement made the call's. -/
  | reconciled
  /-- Answered, with no chip to show it. -/
  | answeredUnseen
  /-- Ended, the member having cancelled the placement. -/
  | declined
  | presented
  | held
  /-- Passed over: the leg was there already. -/
  | ignored
  deriving DecidableEq

structure Phone where
  state : SoftphoneSnapshot
  /-- The legs the core has a handle of; it watches the phases of exactly these. -/
  handles : CallId → Bool
  sdkPhases : CallId → Option CallPhase
  pendingHoldToggle : CallId → Bool
  /-- Calls being placed whose authorize request is under way. -/
  authorizing : ℕ
  /-- Placements whose `ensureConnected` and `awaitReady` are under way. -/
  registering : List String
  pendingPlacements : List PendingPlacement
  cancelledPlacements : List String
  heldInvites : List HeldInvite
  /-- Promotions that wait for the state of a session. -/
  decisions : List (CallId × String)
  ringFirstSeenMs : CallId → Option ℤ
  pushHint : Hint
  companyId : Option String
  nowMs : ℤ
  /-- The phase each SDK call is in. -/
  sdk : CallId → Option CallPhase
  /-- The commands no SDK call has obeyed yet. -/
  commands : List (CallId × Command)
  /-- The sessions the server has returned for placements. -/
  returned : List String
  /-- The sessions the core has been told have left ringing. -/
  leftRinging : List String
  /-- Every INVITE with a session, and what became of it. -/
  invites : List (String × Fate)

/-- The app has just started. -/
def fresh : Phone where
  state := ⟨[], none⟩
  handles := fun _ => false
  sdkPhases := fun _ => none
  pendingHoldToggle := fun _ => false
  authorizing := 0
  registering := []
  pendingPlacements := []
  cancelledPlacements := []
  heldInvites := []
  decisions := []
  ringFirstSeenMs := fun _ => none
  pushHint := ⟨none, none, none⟩
  companyId := none
  nowMs := 0
  sdk := fun _ => none
  commands := []
  returned := []
  leftRinging := []
  invites := []

def isPending (p : Phone) (session : String) : Bool :=
  p.pendingPlacements.any (·.session == session)

def isHeld (p : Phone) (id : CallId) : Bool := p.heldInvites.any (·.id == id)

def tell (p : Phone) (id : CallId) (c : Command) : Phone :=
  { p with commands := p.commands ++ [(id, c)] }

/-- `ringFirstSeenMs.getOrPut(id) { now() }`. -/
def firstSeen (p : Phone) (id : CallId) : CallId → Option ℤ :=
  Function.update p.ringFirstSeenMs id (some ((p.ringFirstSeenMs id).getD p.nowMs))

/-! ### Holding a call -/

/-- The SDK has a hold toggle only: it is used from the phase the SDK reported last, and never
while one is on its way. -/
def requestHold (p : Phone) (id : CallId) (hold : Bool) : Phone :=
  if !p.handles id then p
  else if p.sdkPhases id ≠ some (if hold then .active else .held) then p
  else if p.pendingHoldToggle id then p
  else tell { p with pendingHoldToggle := Function.update p.pendingHoldToggle id true } id
    .toggleHold

/-- `activeId?.let { if (it != id) requestHold(it, hold = true) }`. -/
def holdActive (p : Phone) (activeId : Option CallId) (id : CallId) : Phone :=
  match activeId with
  | none => p
  | some previousActive => if previousActive = id then p else requestHold p previousActive true

/-! ### INVITEs that are held -/

def holdInvite (p : Phone) (id : CallId) (number : String) (reason : HoldReason)
    (headerSession : Option String) : Phone :=
  { p with
    heldInvites := p.heldInvites ++ [⟨id, number, reason, headerSession⟩]
    ringFirstSeenMs := firstSeen p id }

def releaseHeld (p : Phone) (id : CallId) : Phone :=
  { p with
    heldInvites := p.heldInvites.filter (·.id != id)
    ringFirstSeenMs :=
      if hasCall p.state id then p.ringFirstSeenMs
      else Function.update p.ringFirstSeenMs id none }

def releaseHeldForSession (p : Phone) (session : String) : Phone :=
  ((p.heldInvites.filter (·.headerSession == some session)).map (·.id)).foldl releaseHeld p

def presentIncoming (p : Phone) (id : CallId) (number : String) (headerSession : Option String) :
    Phone :=
  { p with
    handles := Function.update p.handles id true
    sdkPhases := Function.update p.sdkPhases id (some .ringing)
    ringFirstSeenMs := firstSeen p id
    state := incoming p.state
      { id := id
        direction := .inbound
        peerNumber := number
        phase := .ringing
        sessionId := headerSession
        silenced := false } }

def atCeiling (p : Phone) : Bool := maxConcurrentCalls ≤ (liveCalls p.state).length

/-- A held INVITE gets its turn; when a slot has filled meanwhile it is held again. -/
def promoteHeld (p : Phone) (id : CallId) : Phone :=
  match p.heldInvites.find? (·.id == id) with
  | none => p
  | some held =>
    let p := { p with heldInvites := p.heldInvites.filter (·.id != id) }
    if atCeiling p then holdInvite p id held.callerNumber .capacity held.headerSession
    else presentIncoming p id held.callerNumber held.headerSession

def duplicateOf (ended : CallSnapshot) (h : HeldInvite) : Bool :=
  h.reason == .duplicate &&
    ((h.headerSession.isSome && h.headerSession == ended.sessionId) ||
      sameCaller (some h.callerNumber) (some ended.peerNumber))

/-- The INVITE `maybePromoteHeld` picks. -/
def candidate (p : Phone) (endedRinging : Option CallSnapshot) : Option HeldInvite :=
  (endedRinging.bind fun ended => p.heldInvites.find? (duplicateOf ended)).or
    (p.heldInvites.find? (·.reason == .capacity))

/-- The session whose state is read before the candidate is promoted. -/
def verifySession (p : Phone) (held : HeldInvite) : Option String :=
  if held.reason = .duplicate then
    match reconcileSession p.pushHint p.nowMs (liveCalls p.state).length held.callerNumber with
    | some session => if p.companyId.isSome then some session else none
    | none => none
  else none

def maybePromoteHeld (p : Phone) (endedRinging : Option CallSnapshot) : Phone :=
  if p.heldInvites = [] then p
  else if atCeiling p then p
  else
    match candidate p endedRinging with
    | none => p
    | some held =>
      match verifySession p held with
      | none => promoteHeld p held.id
      | some session => { p with decisions := p.decisions ++ [(held.id, session)] }

/-- The state a promotion has waited for comes back; none is a read that failed. -/
def promotionVerdict (p : Phone) (id : CallId) (session : String) (state : Option String) :
    Phone :=
  if (id, session) ∈ p.decisions then
    let p := { p with decisions := p.decisions.erase (id, session) }
    if isRingingExit state then
      releaseHeld { p with leftRinging := p.leftRinging ++ [session] } id
    else if isHeld p id then promoteHeld p id
    else p
  else p

/-- A session has left ringing: its rings stop presenting, and INVITEs the hint ties to it are
released. -/
def applyRingingExit (p : Phone) (sessionId : String) : Phone :=
  let p := { p with leftRinging := p.leftRinging ++ [sessionId] }
  let p :=
    if p.pushHint.session = some sessionId then
      ((p.heldInvites.filter fun h =>
        !callerMismatch p.pushHint.caller (some h.callerNumber)).map (·.id)).foldl releaseHeld p
    else p
  let ids := dismissalsForRingingExit p.state.calls sessionId p.pushHint p.nowMs
  if ids = [] then p
  else
    { p with
      state := ids.foldl presentationSilenced p.state
      pushHint := if p.pushHint.session = some sessionId then ⟨none, none, none⟩ else p.pushHint }

/-- Realtime `call.updated`, or the state read when a ring was presented. -/
def onCallSessionUpdate (p : Phone) (sessionId : String) (state : Option String) : Phone :=
  if isBlank sessionId then p
  else if !isRingingExit state then p
  else applyRingingExit p sessionId

def onCallEndPush (p : Phone) (sessionId : String) : Phone :=
  if isBlank sessionId then p else applyRingingExit p sessionId

/-! ### Reports -/

/-- What the core does with a phase the SDK reports of a call it watches. -/
def onPhase (p : Phone) (id : CallId) (phase : CallPhase) : Phone :=
  let p := { p with
    sdkPhases := Function.update p.sdkPhases id (some phase)
    pendingHoldToggle := Function.update p.pendingHoldToggle id false }
  match callOf p.state id with
  | none => p
  | some prev =>
    let activeId := p.state.activeId
    let p := { p with state := sdkPhase p.state id phase }
    match phase with
    | .active =>
      holdActive { p with ringFirstSeenMs := Function.update p.ringFirstSeenMs id none }
        activeId id
    | .ended =>
      maybePromoteHeld
        { p with
          handles := Function.update p.handles id false
          sdkPhases := Function.update p.sdkPhases id none
          ringFirstSeenMs := Function.update p.ringFirstSeenMs id none }
        (if prev.phase = .ringing ∧ prev.direction = .inbound then some prev else none)
    | _ => p

/-- The customer session of an answered leg is known: `onPhase` resolves a leg that has none. -/
def resolved (p : Phone) (id : CallId) (sessionId : String) : Phone :=
  match callOf p.state id with
  | some call => if call.sessionId.isSome then p
      else { p with state := sessionKnown p.state id sessionId }
  | none => p

/-! ### Rings that can no longer end -/

def dropRingingPresentation (p : Phone) (id : CallId) : Phone :=
  { p with
    handles := Function.update p.handles id false
    sdkPhases := Function.update p.sdkPhases id none
    pendingHoldToggle := Function.update p.pendingHoldToggle id false
    ringFirstSeenMs := Function.update p.ringFirstSeenMs id none
    state := sdkPhase p.state id .ended }

def failPlacement (p : Phone) (pending : PendingPlacement) : Phone :=
  { p with
    pendingPlacements := p.pendingPlacements.filter (·.session != pending.session)
    state := placementFailed p.state (.placement pending.session) }

def reapOnClientDeath (p : Phone) : Phone :=
  let p := ((p.state.calls.filter (·.phase == .ringing)).map (·.id)).foldl
    dropRingingPresentation p
  let p := (p.heldInvites.map (·.id)).foldl releaseHeld p
  p.pendingPlacements.foldl failPlacement p

/-- The ring has been there for the whole ring window. -/
def isExpired (p : Phone) (id : CallId) : Bool :=
  match p.ringFirstSeenMs id with
  | some firstSeenMs => ringExpired firstSeenMs p.nowMs
  | none => false

def expiredRings (p : Phone) : List CallId :=
  (p.state.calls.filter fun c =>
    c.phase == .ringing && c.direction == .inbound && isExpired p c.id).map (·.id)

def reapExpiredRings (p : Phone) : Phone :=
  let p := (expiredRings p).foldl dropRingingPresentation p
  let p := ((p.heldInvites.filter fun h => isExpired p h.id).map (·.id)).foldl releaseHeld p
  { p with
    ringFirstSeenMs := fun id =>
      if hasCall p.state id || isHeld p id then p.ringFirstSeenMs id
      else none }

/-! ### INVITEs -/

structure Invite where
  id : String
  headerSession : Option String
  number : String
  deriving DecidableEq

def Invite.callId (i : Invite) : CallId := .leg i.id

def isDuplicate (p : Phone) (i : Invite) : Bool :=
  let presented := (liveCalls p.state).filter (·.direction == .inbound)
  let presentedSessions :=
    presented.filterMap (·.sessionId) ++ p.heldInvites.filterMap (·.headerSession)
  let inboundCallers := presented.map (·.peerNumber) ++ p.heldInvites.map (·.callerNumber)
  (match i.headerSession with
    | some session => decide (session ∈ presentedSessions)
    | none => false) || holdInviteSilent inboundCallers i.number

/-- The leg of a placement: answered at once, and the chip made its own. -/
def acceptPlacementOpLeg (p : Phone) (id : CallId) (session : String) : Phone :=
  let p := { p with
    pendingPlacements := p.pendingPlacements.filter (·.session != session)
    handles := Function.update p.handles id true
    sdkPhases := Function.update p.sdkPhases id (some .connecting) }
  let p := tell p id .accept
  { p with state := placementConnected p.state (.placement session) id session }

def record (p : Phone) (session : Option String) (fate : Fate) : Phone :=
  match session with
  | some session => { p with invites := p.invites ++ [(session, fate)] }
  | none => p

/-- An INVITE that is nobody's placement. -/
def ringIn (p : Phone) (i : Invite) : Phone :=
  if isDuplicate p i then
    record (holdInvite p i.callId i.number .duplicate i.headerSession) i.headerSession .held
  else if atCeiling p then
    record (holdInvite p i.callId i.number .capacity i.headerSession) i.headerSession .held
  else record (presentIncoming p i.callId i.number i.headerSession) i.headerSession .presented

def onIncoming (p : Phone) (i : Invite) : Phone :=
  if hasCall p.state i.callId || isHeld p i.callId then
    record p i.headerSession .ignored
  else
    match i.headerSession with
    | none => ringIn p i
    | some session =>
      if isPending p session then
        record (acceptPlacementOpLeg p i.callId session) (some session)
          (if hasCall p.state (.placement session) then .reconciled else .answeredUnseen)
      else if session ∈ p.cancelledPlacements then
        -- `cancelledPlacements.remove(session)`, then `declineCancelledPlacement`
        record
          (tell { p with cancelledPlacements := p.cancelledPlacements.filter (· != session) }
            i.callId .endCall)
          (some session) .declined
      else ringIn p i

/-! ### What the member asks for -/

/-- `placeCall`, up to the authorize request. -/
def placeCall (p : Phone) : Phone :=
  if p.companyId.isNone || atCeiling p then p else { p with authorizing := p.authorizing + 1 }

/-- The server's answer makes a placement: it comes to a request, with a session of its own. -/
def places (p : Phone) (session : Option String) : Bool :=
  match session with
  | none => false
  | some session => p.authorizing != 0 && !p.returned.contains session && !isBlank session

/-- `placeCall` goes on: the server has authorized the call, for a session it has not returned
before. -/
def authorized (p : Phone) (session : Option String) (number : String) : Phone :=
  match p.authorizing with
  | 0 => p
  | authorizing + 1 =>
    match session with
    | none => { p with authorizing := authorizing }
    | some session =>
      if session ∈ p.returned then p
      else if isBlank session then { p with authorizing := authorizing }
      else
        { p with
          authorizing := authorizing
          returned := p.returned ++ [session]
          registering := p.registering ++ [session]
          pendingPlacements := p.pendingPlacements ++ [⟨session, number, false⟩]
          state := placing p.state
            { id := .placement session
              direction := .outbound
              peerNumber := number
              phase := .connecting
              sessionId := some session
              silenced := false } }

/-- `placeCall` ends: the phone is registered, and the placement's time runs. -/
def registered (p : Phone) (session : String) : Phone :=
  if session ∈ p.registering then
    { p with
      registering := p.registering.erase session
      pendingPlacements := p.pendingPlacements.map fun q =>
        if q.session = session then { q with timer := true } else q }
  else p

def registrationFailed (p : Phone) (session : String) : Phone :=
  if session ∈ p.registering then
    { p with
      registering := p.registering.erase session
      pendingPlacements := p.pendingPlacements.filter (·.session != session)
      state := dismissed p.state (.placement session) }
  else p

/-- The screen that placed the call has gone, and `placeCall` with it. -/
def registrationCancelled (p : Phone) (session : String) : Phone :=
  { p with registering := p.registering.erase session }

/-- The placement's time is running. -/
def isArmed (p : Phone) (session : String) : Bool :=
  p.pendingPlacements.any fun q => q.session == session && q.timer

def placementTimeout (p : Phone) (session : String) : Phone :=
  if isArmed p session then
    { p with
      pendingPlacements := p.pendingPlacements.filter (·.session != session)
      state := placementFailed p.state (.placement session) }
  else p

def answer (p : Phone) (id : CallId) : Phone :=
  match callOf p.state id with
  | none => p
  | some call =>
    if !p.handles id then p
    else if call.phase ≠ .ringing then p
    else tell (holdActive p p.state.activeId id) id .accept

/-- The end of a call that is no longer a placement: the SDK's, if it has a leg. -/
def endOrDismiss (p : Phone) (id : CallId) : Phone :=
  if p.handles id then tell p id .endCall else { p with state := dismissed p.state id }

def hangup (p : Phone) (id : CallId) : Phone :=
  match placementSession id with
  | none => endOrDismiss p id
  | some session =>
    if isPending p session then
      { p with
        pendingPlacements := p.pendingPlacements.filter (·.session != session)
        cancelledPlacements := p.cancelledPlacements ++ [session]
        state := dismissed p.state id }
    else endOrDismiss p id

def toggleHold (p : Phone) (id : CallId) : Phone :=
  match callOf p.state id with
  | none => p
  | some call =>
    match call.phase with
    | .held => requestHold (holdActive p p.state.activeId id) id false
    | .active => requestHold p id true
    | _ => p

/-- The chip of an ended call is dismissed, by the member or after a while; the app dismisses no
other call. -/
def dismiss (p : Phone) (id : CallId) : Phone :=
  match callOf p.state id with
  | none => p
  | some call => if call.phase = .ended then { p with state := dismissed p.state id } else p

/-! ### The SDK -/

def report (p : Phone) (id : CallId) (phase : CallPhase) : Phone :=
  let p := { p with
    sdk := Function.update p.sdk id (some phase)
    commands := if phase = CallPhase.ended then p.commands.filter (·.1 != id) else p.commands }
  if p.handles id then onPhase p id phase
  else if phase = CallPhase.ended then releaseHeld p id
  else p

def Command.outcome (c : Command) : CallPhase → Option CallPhase
  | .ended => none
  | .ringing => match c with
      | .accept => some .active
      | .toggleHold => none
      | .endCall => some .ended
  | .connecting => match c with
      | .accept => some .active
      | .toggleHold => none
      | .endCall => some .ended
  | .active => match c with
      | .accept => none
      | .toggleHold => some .held
      | .endCall => some .ended
  | .held => match c with
      | .accept => none
      | .toggleHold => some .active
      | .endCall => some .ended

def obey (p : Phone) (id : CallId) (c : Command) : Phone :=
  if (id, c) ∈ p.commands then
    let p := { p with commands := p.commands.erase (id, c) }
    match (p.sdk id).bind c.outcome with
    | some phase => report p id phase
    | none => p
  else p

def connecting (p : Phone) (id : CallId) : Phone :=
  if p.sdk id = some .ringing ∨ p.sdk id = some .connecting then report p id .connecting else p

def repeats (p : Phone) (id : CallId) : Phone :=
  match p.sdk id with
  | none => p
  | some phase =>
    if phase = CallPhase.ringing ∨ phase = CallPhase.ended then p else report p id phase

def remoteEnd (p : Phone) (id : CallId) : Phone :=
  match p.sdk id with
  | none => p
  | some phase => if phase = CallPhase.ended then p else report p id .ended

def invited (p : Phone) (i : Invite) : Phone :=
  if p.sdk i.callId = none then
    onIncoming { p with sdk := Function.update p.sdk i.callId (some .ringing) } i
  else p

/-! ### One step -/

inductive Input
  | company (id : String)
  | clock (nowMs : ℤ)
  | push (sessionId : String) (callerHint : Option String)
  /-- The server has answered a ring-me. -/
  | hintRefreshed
  | invite (i : Invite)
  | obey (id : CallId) (c : Command)
  | connecting (id : CallId)
  | repeats (id : CallId)
  | remoteEnd (id : CallId)
  | resolved (id : CallId) (sessionId : String)
  | sessionUpdate (sessionId : String) (state : Option String)
  | callEndPush (sessionId : String)
  | promotionVerdict (id : CallId) (session : String) (state : Option String)
  | sweep
  | clientDeath
  | placeCall
  | authorizeFailed
  | authorized (session : Option String) (number : String)
  | registered (session : String)
  | registrationFailed (session : String)
  | registrationCancelled (session : String)
  | placementTimeout (session : String)
  | answer (id : CallId)
  | hangup (id : CallId)
  | toggleHold (id : CallId)
  | dismiss (id : CallId)
  | releaseHeldForSession (session : String)
  deriving DecidableEq

def move (p : Phone) : Input → Phone
  | .company id => { p with companyId := some id }
  | .clock nowMs => { p with nowMs := nowMs }
  | .push sessionId callerHint =>
    { p with pushHint := ⟨some sessionId, callerHint, some p.nowMs⟩ }
  | .hintRefreshed => { p with pushHint := { p.pushHint with atMs := some p.nowMs } }
  | .invite i => invited p i
  | .obey id c => obey p id c
  | .connecting id => connecting p id
  | .repeats id => repeats p id
  | .remoteEnd id => remoteEnd p id
  | .resolved id sessionId => resolved p id sessionId
  | .sessionUpdate sessionId state => onCallSessionUpdate p sessionId state
  | .callEndPush sessionId => onCallEndPush p sessionId
  | .promotionVerdict id session state => promotionVerdict p id session state
  | .sweep => reapExpiredRings p
  | .clientDeath => reapOnClientDeath p
  | .placeCall => placeCall p
  | .authorizeFailed => { p with authorizing := p.authorizing - 1 }
  | .authorized session number => authorized p session number
  | .registered session => registered p session
  | .registrationFailed session => registrationFailed p session
  | .registrationCancelled session => registrationCancelled p session
  | .placementTimeout session => placementTimeout p session
  | .answer id => answer p id
  | .hangup id => hangup p id
  | .toggleHold id => toggleHold p id
  | .dismiss id => dismiss p id
  | .releaseHeldForSession session => releaseHeldForSession p session

def step (p : Phone) (i : Input) : Phone × List Empty := (move p i, [])

/-! ### What the functions leave alone -/

theorem foldl_releaseHeld (p : Phone) (ids : List CallId) :
    ∃ clocks, ids.foldl releaseHeld p =
      { p with
        heldInvites := p.heldInvites.filter fun h => !ids.contains h.id
        ringFirstSeenMs := clocks } := by
  induction ids generalizing p with
  | nil => exact ⟨p.ringFirstSeenMs, by simp⟩
  | cons id ids ih =>
    obtain ⟨clocks, h⟩ := ih (releaseHeld p id)
    refine ⟨clocks, h.trans ?_⟩
    simp only [releaseHeld, List.filter_filter, List.contains_cons, Bool.not_or, bne]
    congr 1
    exact List.filter_congr fun h _ => Bool.and_comm _ _

theorem applyRingingExit_eq (p : Phone) (sessionId : String) :
    ∃ (held : List HeldInvite) (clocks : CallId → Option ℤ) (silenced : List CallId) (hint : Hint),
      held.Sublist p.heldInvites ∧
      applyRingingExit p sessionId =
        { p with
          leftRinging := p.leftRinging ++ [sessionId]
          heldInvites := held
          ringFirstSeenMs := clocks
          state := silenced.foldl presentationSilenced p.state
          pushHint := hint } := by
  unfold applyRingingExit
  dsimp only
  split
  · obtain ⟨clocks, h⟩ := foldl_releaseHeld
      { p with leftRinging := p.leftRinging ++ [sessionId] }
      ((p.heldInvites.filter fun h =>
        !callerMismatch p.pushHint.caller (some h.callerNumber)).map (·.id))
    rw [h]
    split
    · exact ⟨_, clocks, [], p.pushHint, List.filter_sublist, rfl⟩
    · exact ⟨_, clocks, _, _, List.filter_sublist, rfl⟩
  · split
    · exact ⟨p.heldInvites, p.ringFirstSeenMs, [], p.pushHint, .refl _, rfl⟩
    · exact ⟨p.heldInvites, p.ringFirstSeenMs, _, _, .refl _, rfl⟩

theorem requestHold_cases (p : Phone) (id : CallId) (hold : Bool) :
    requestHold p id hold = p ∨
      (p.handles id = true ∧ p.sdkPhases id = some (if hold then .active else .held) ∧
        requestHold p id hold =
          tell { p with pendingHoldToggle := Function.update p.pendingHoldToggle id true } id
            .toggleHold) := by
  by_cases hhandle : p.handles id = true
  · by_cases hphase : p.sdkPhases id = some (if hold then .active else .held)
    · by_cases hpending : p.pendingHoldToggle id = true
      · exact .inl (by simp [requestHold, hpending])
      · exact .inr ⟨hhandle, hphase, by simp [requestHold, hhandle, hphase, hpending]⟩
    · exact .inl (by simp [requestHold, hphase])
  · exact .inl (by simp [requestHold, hhandle])

theorem holdActive_cases (p : Phone) (activeId : Option CallId) (id : CallId) :
    holdActive p activeId id = p ∨
      ∃ previousActive, activeId = some previousActive ∧ previousActive ≠ id ∧
        holdActive p activeId id = requestHold p previousActive true := by
  unfold holdActive
  cases activeId with
  | none => exact .inl rfl
  | some previousActive =>
    by_cases h : previousActive = id
    · exact .inl (by simp [h])
    · exact .inr ⟨previousActive, rfl, h, by simp [h]⟩

def chip (session number : String) : CallSnapshot where
  id := .placement session
  direction := .outbound
  peerNumber := number
  phase := .connecting
  sessionId := some session
  silenced := false

theorem authorized_of_places {p : Phone} {session number : String}
    (h : places p (some session) = true) :
    authorized p (some session) number =
      { p with
        authorizing := p.authorizing - 1
        returned := p.returned ++ [session]
        registering := p.registering ++ [session]
        pendingPlacements := p.pendingPlacements ++ [⟨session, number, false⟩]
        state := placing p.state (chip session number) } := by
  obtain ⟨⟨hrequest, hnew⟩, hblank⟩ : (p.authorizing ≠ 0 ∧ session ∉ p.returned) ∧
      isBlank session = false := by
    simpa [places] using h
  obtain ⟨n, hn⟩ := Nat.exists_eq_succ_of_ne_zero hrequest
  simp [authorized, hn, hnew, hblank, chip]

theorem authorized_of_not_places {p : Phone} {session : Option String} (number : String)
    (h : places p session = false) :
    ∃ authorizing, authorized p session number = { p with authorizing := authorizing } := by
  unfold authorized
  split
  · exact ⟨p.authorizing, rfl⟩
  · next authorizing hrequest =>
    split
    · exact ⟨_, rfl⟩
    · next session =>
      split
      · exact ⟨p.authorizing, rfl⟩
      · next hnew =>
        split
        · exact ⟨_, rfl⟩
        · next hblank => simp [places, hrequest, hnew, hblank] at h

/-! ### Reports, case by case -/

def enters (p : Phone) (id : CallId) (phase : CallPhase) (commands : List (CallId × Command)) :
    Phone :=
  { p with
    sdk := Function.update p.sdk id (some phase)
    commands := commands }

/-- What a report changes first. -/
def heard (p : Phone) (id : CallId) (phase : CallPhase) : Phone :=
  { p with
    sdkPhases := Function.update p.sdkPhases id (some phase)
    pendingHoldToggle := Function.update p.pendingHoldToggle id false }

/-- A call that has ended is forgotten. -/
def forgotten (p : Phone) (id : CallId) : Phone :=
  { heard p id .ended with
    state := sdkPhase p.state id .ended
    handles := Function.update p.handles id false
    sdkPhases := Function.update (heard p id .ended).sdkPhases id none
    ringFirstSeenMs := Function.update p.ringFirstSeenMs id none }

section

variable {p : Phone} {id : CallId}

theorem onPhase_of_not_hasCall (h : hasCall p.state id = false) (phase : CallPhase) :
    onPhase p id phase = heard p id phase := by
  rw [hasCall_eq_isSome, Option.isSome_eq_false_iff, Option.isNone_iff_eq_none] at h
  unfold onPhase
  dsimp only
  rw [h]
  rfl

theorem onPhase_active (h : hasCall p.state id = true) :
    onPhase p id .active =
      holdActive
        { heard p id .active with
          state := activate p.state id
          ringFirstSeenMs := Function.update p.ringFirstSeenMs id none }
        p.state.activeId id := by
  have hactive := sdkPhase_active h
  obtain ⟨prev, hprev⟩ := Option.isSome_iff_exists.1 (hasCall_eq_isSome p.state id ▸ h)
  unfold onPhase
  dsimp only
  rw [hprev, hactive]
  rfl

theorem onPhase_ended {prev : CallSnapshot} (h : callOf p.state id = some prev) :
    onPhase p id .ended =
      maybePromoteHeld (forgotten p id)
        (if prev.phase = .ringing ∧ prev.direction = .inbound then some prev else none) := by
  unfold onPhase
  dsimp only
  rw [h]
  rfl

theorem onPhase_other (h : hasCall p.state id = true) {phase : CallPhase}
    (hactive : phase ≠ .active) (hended : phase ≠ .ended) :
    onPhase p id phase = { heard p id phase with state := sdkPhase p.state id phase } := by
  obtain ⟨prev, hprev⟩ := Option.isSome_iff_exists.1 (hasCall_eq_isSome p.state id ▸ h)
  unfold onPhase
  dsimp only
  rw [hprev]
  cases phase with
  | active => exact absurd rfl hactive
  | ended => exact absurd rfl hended
  | ringing | connecting | held => rfl

theorem report_ended (p : Phone) (id : CallId) (commands : List (CallId × Command)) :
    report { p with commands := commands } id .ended =
      if p.handles id = true then
        onPhase (enters p id .ended (commands.filter (·.1 != id))) id .ended
      else releaseHeld (enters p id .ended (commands.filter (·.1 != id))) id := rfl

theorem report_other (commands : List (CallId × Command)) {phase : CallPhase}
    (h : phase ≠ .ended) :
    report { p with commands := commands } id phase =
      if p.handles id = true then onPhase (enters p id phase commands) id phase
      else enters p id phase commands := by
  simp [report, enters, h]

end

end Softphone
