/-
**Blind transfers against the intent's expiry.**

A blind transfer is driven from outside the session object.  The route registers an intent with the
object and then has the vendor ring the target (hop 0); when that leg fails, the webhook handler of
`apps/api/src/messaging/live-call.ts` has the vendor ring the sender again (hop 1).  Each leg rings
for `TRANSFER_TIMEOUT_SECS`.  The object knows nothing of the legs: it has armed the intent's expiry
at the registration, and when that goes off while the sender's own leg is dead, as it is in every
blind transfer, it hangs the customer up.

This module puts the object, the ledger and the vendor's legs on one clock.  The expiry leaves room
for one leg's window and fifteen seconds, so it spares a leg that rings within fifteen seconds of
the registration; the snap-back after a target who let the phone ring is later than that, and
nothing registers it.

Main result:

* `Calls.expiry_spares_transfer` — **the expiry hangs up no customer while a leg rings**, in every
  run whose legs are dialed in time.
-/

import Texturion.CallAlarms
import Texturion.CallTerminal

namespace Calls

open FirstMatch

/-! ### The transfer's own code -/

/-- Ring window for transfer and consult legs. -/
def TRANSFER_TIMEOUT_SECS : ℤ := 25

/-- One snap-back. -/
def MAX_TRANSFER_HOPS : ℤ := 1

/-- What a transfer leg's tag says. -/
structure TransferState where
  sessionId : String
  targetUserId : String
  senderUserId : String
  hops : ℤ
  caller : Option String
  deriving DecidableEq

inductive TransferRowState
  | ringing
  | answered
  | failed
  deriving DecidableEq

/-- A ledger row of kind `transfer` of this session. -/
structure TransferRow where
  callControlId : String
  userId : String
  state : TransferRowState
  deriving DecidableEq

/-- The token a transfer's row is inserted under, before its leg has a ccid. -/
def legToken (state : TransferState) : String :=
  "transfer:" ++ state.targetUserId ++ ":" ++ toString state.hops

/-- Insert a row, or overwrite the one with its token. -/
def upsertRow (ledger : List TransferRow) (row : TransferRow) : List TransferRow :=
  if ledger.any fun r => r.callControlId == row.callControlId then
    ledger.map fun r => if r.callControlId = row.callControlId then row else r
  else ledger ++ [row]

def isRingingFor (userId : String) (row : TransferRow) : Bool :=
  row.userId == userId && row.state == .ringing

/-- The commands that the code outside the object gives the vendor. -/
inductive TransferCommand
  | transfer (customerCcid to_ from_ : String) (timeoutSecs : ℤ) (state : TransferState)
  | dial (to_ from_ : String) (timeoutSecs : ℤ) (state : TransferState)
  | bridge (legCcid customerCcid : String)
  | hangup (ccid : String)
  deriving DecidableEq

/-- How the vendor answers the command that rings a leg: it rings; it is refused with a 4xx; or the
request fails, and the leg may ring all the same. -/
inductive TransferAnswer
  | accepted
  | refused
  | fault (rings : Bool)
  deriving DecidableEq

def TransferAnswer.rings : TransferAnswer → Bool
  | .accepted => true
  | .refused => false
  | .fault rings => rings

/-- What `issueTransfer` is called with. -/
structure TransferRequest where
  customerCcid : String
  targetSipUsername : String
  callerNumberForTarget : String
  direction : Direction
  state : TransferState
  deriving DecidableEq

def TransferRequest.command (input : TransferRequest) : TransferCommand :=
  match input.direction with
  | .outbound =>
    .dial (sipTargetOf input.targetSipUsername) input.callerNumberForTarget
      TRANSFER_TIMEOUT_SECS input.state
  | .inbound =>
    .transfer input.customerCcid (sipTargetOf input.targetSipUsername)
      input.callerNumberForTarget TRANSFER_TIMEOUT_SECS input.state

def issueTransfer (ledger : List TransferRow) (input : TransferRequest) (answer : TransferAnswer) :
    List TransferRow :=
  let token := legToken input.state
  let ledgered := upsertRow ledger
    { callControlId := token, userId := input.state.targetUserId, state := .ringing }
  match answer with
  | .refused => ledgered.filter fun row => row.callControlId != token
  | _ => ledgered

/-- The row of `calls` that a handler reads, and the number of its line, if it can be read. -/
structure LiveCallRow where
  customerCallControlId : Option String
  outcome : Option Outcome
  direction : Option String
  businessNumberE164 : Option String
  deriving DecidableEq

/-- What `handleTransferLegHangup` decides. -/
inductive Recovery
  | nothing
  | throws
  | snapBack (input : TransferRequest)
  | hangUp (customerCcid : String)
  deriving DecidableEq

/-- A transfer leg ended: `closed` says whether a ringing row of it was closed, `call` is the row of
the call and `sip` the sender's credential. -/
def transferRecovery (state : TransferState) (missed closed : Bool) (call : Option LiveCallRow)
    (sip : Option String) : Recovery :=
  if !missed || !closed then .nothing
  else
    match call with
    | none => .nothing
    | some row =>
      match truthy row.customerCallControlId with
      | none => .nothing
      | some customerCcid =>
        if row.outcome.isSome then .nothing
        else if row.direction = some "outbound" then .nothing
        else if state.hops < MAX_TRANSFER_HOPS then
          match truthy sip with
          | some username =>
            match state.caller.or row.businessNumberE164 with
            | some caller =>
              .snapBack
                { customerCcid := customerCcid
                  targetSipUsername := username
                  callerNumberForTarget := caller
                  direction := .inbound
                  state := { state with
                    targetUserId := state.senderUserId, hops := state.hops + 1 } }
            | none => .throws
          | none => .hangUp customerCcid
        else .hangUp customerCcid

/-! ### The world -/

/-- A leg the vendor was asked to ring for a transfer. -/
structure TransferLeg where
  state : TransferState
  dialedAtMs : ℤ
  ended : Bool
  deriving DecidableEq

/-- When the leg's own ring window closes. -/
def TransferLeg.windowEnd (leg : TransferLeg) : ℤ := leg.dialedAtMs + TRANSFER_TIMEOUT_SECS * 1000

/-- A transfer route between its registration and its command: the reply it has had, if any. -/
structure TransferRoute where
  targetUserId : String
  reply : Option CallState
  deriving DecidableEq

/-- What the route read when it let the request in. -/
structure RouteGate where
  sessionId : String
  customerCcid : String
  targetSipUsername : String
  senderUserId : String
  callerE164 : Option String
  businessNumber : String
  direction : Option String
  deriving DecidableEq

/-- The transfer the route issues: hop 0, to the target it registered. -/
def TransferRoute.request (route : TransferRoute) (gate : RouteGate) : TransferRequest where
  customerCcid := gate.customerCcid
  targetSipUsername := gate.targetSipUsername
  callerNumberForTarget := gate.callerE164.getD gate.businessNumber
  direction := if gate.direction = some "outbound" then .outbound else .inbound
  state :=
    { sessionId := gate.sessionId, targetUserId := route.targetUserId
      senderUserId := gate.senderUserId, hops := 0, caller := gate.callerE164 }

/-- The session object, the transfer ledger, the legs at the vendor and the clock; `routes` are the
transfer routes under way and `rpcs` the calls that handlers still have to make to the object. -/
structure TransferWorld where
  session : Session
  nowMs : ℤ
  ledger : List TransferRow
  legs : List TransferLeg
  routes : List TransferRoute
  rpcs : List SessionEvent

/-- What may happen next. -/
inductive TransferAction
  /-- Time passes. -/
  | elapse (ms : ℕ)
  /-- A webhook or RPC arrives at the object. -/
  | admitEvent (event : SessionEvent)
  | wake
  | fire (unreachableUserIds : List String)
  | drain (clockMs : ℤ) (pendingKeyFor : ℕ → String) (answers : ℕ → Answers)
  /-- A transfer route registers its intent. -/
  | register (targetUserId : String)
  /-- The route has its reply, and issues the transfer. -/
  | issue (route : ℕ) (gate : RouteGate) (answer : TransferAnswer)
  /-- The leg stops ringing at the vendor. -/
  | legEnds (leg : ℕ)
  /-- The webhook of a leg's hangup is handled. -/
  | legHangup (state : TransferState) (missed : Bool) (call : Option LiveCallRow)
      (sip : Option String) (answer : TransferAnswer)
  /-- The webhook of a leg's answer is handled. -/
  | legAnswered (state : TransferState) (realLegCcid : Option String) (call : Option LiveCallRow)
  /-- A handler makes the next of its calls to the object. -/
  | rpc

/-- What a step shows: the effects of the object and the commands of the code around it. -/
inductive TransferOutput
  | effect (e : Effect)
  | command (c : TransferCommand)
  deriving DecidableEq

/-- The reply of a registration reaches the route that waits for it. -/
def settleRoute (routes : List TransferRoute) : Option Reply → List TransferRoute
  | some (.state state) =>
    updateFirst (fun route => route.reply.isNone)
      (fun route => { route with reply := some state }) routes
  | _ => routes

def Session.headReply (s : Session) (nowMs clockMs : ℤ) (pendingKeyFor : ℕ → String) :
    Option Reply :=
  match s.journal with
  | event :: _ => (reduce s.machine event nowMs clockMs pendingKeyFor).reply
  | [] => none

namespace TransferWorld

def ring (w : TransferWorld) (state : TransferState) (answer : TransferAnswer) :
    List TransferLeg :=
  if answer.rings then w.legs ++ [{ state := state, dialedAtMs := w.nowMs, ended := false }]
  else w.legs

/-- The transfer route after its reply: it dials nobody unless the call is answered. -/
def issue (w : TransferWorld) (route : ℕ) (gate : RouteGate) (answer : TransferAnswer) :
    TransferWorld × List TransferOutput :=
  match w.routes[route]? with
  | some r =>
    match r.reply with
    | none => (w, [])
    | some state =>
      let left := { w with routes := w.routes.eraseIdx route }
      let input := r.request gate
      if state ≠ .answered then (left, [])
      else
        ({ left with
            ledger := issueTransfer w.ledger input answer
            legs := w.ring input.state answer
            rpcs := if answer = .refused then w.rpcs ++ [.clearIntent] else w.rpcs },
          [.command input.command])
  | none => (w, [])

/-- `handleTransferLegHangup`. -/
def legHangup (w : TransferWorld) (state : TransferState) (missed : Bool)
    (call : Option LiveCallRow) (sip : Option String) (answer : TransferAnswer) :
    TransferWorld × List TransferOutput :=
  let closed := w.ledger.any (isRingingFor state.targetUserId)
  let ledger := w.ledger.map fun row =>
    if isRingingFor state.targetUserId row then { row with state := .failed } else row
  match transferRecovery state missed closed call sip with
  | .nothing | .throws => ({ w with ledger := ledger }, [])
  | .hangUp customerCcid => ({ w with ledger := ledger }, [.command (.hangup customerCcid)])
  | .snapBack input =>
    ({ w with
        ledger := issueTransfer ledger input answer
        legs := w.ring input.state answer },
      .command input.command ::
        if answer = .refused then [.command (.hangup input.customerCcid)] else [])

/-- `handleTransferAnswered`: the owner goes over to the target, then the intent is cleared. -/
def legAnswered (w : TransferWorld) (state : TransferState) (realLegCcid : Option String)
    (call : Option LiveCallRow) : TransferWorld × List TransferOutput :=
  if w.ledger.any (isRingingFor state.targetUserId) then
    ({ w with
        ledger := w.ledger.map fun row =>
          if isRingingFor state.targetUserId row then
            { row with state := .answered
                       callControlId := (truthy realLegCcid).getD row.callControlId }
          else row
        rpcs := w.rpcs ++ [.setOwner state.targetUserId, .clearIntent] },
      match call.bind fun row => if row.direction = some "outbound" then
          truthy row.customerCallControlId else none, truthy realLegCcid with
      | some customerCcid, some legCcid => [.command (.bridge legCcid customerCcid)]
      | _, _ => [])
  else (w, [])

end TransferWorld

def worldStep (w : TransferWorld) : TransferAction → TransferWorld × List TransferOutput
  | .elapse ms => ({ w with nowMs := w.nowMs + ms }, [])
  | .admitEvent event => ({ w with session := w.session.admitEvent event }, [])
  | .wake => ({ w with session := w.session.wake w.nowMs }, [])
  | .fire unreachableUserIds => ({ w with session := w.session.fire unreachableUserIds }, [])
  | .drain clockMs pendingKeyFor answers =>
    let r := sessionStep w.session (.drain w.nowMs clockMs pendingKeyFor answers)
    ({ w with
        session := r.1
        routes := settleRoute w.routes (w.session.headReply w.nowMs clockMs pendingKeyFor) },
      r.2.map .effect)
  | .register targetUserId =>
    if w.session.idle then
      ({ w with
          session := w.session.admitEvent (.registerIntent .transfer targetUserId)
          routes := w.routes ++ [{ targetUserId := targetUserId, reply := none }] }, [])
    else (w, [])
  | .issue route gate answer => w.issue route gate answer
  | .legEnds leg => ({ w with legs := w.legs.modify leg fun l => { l with ended := true } }, [])
  | .legHangup state missed call sip answer => w.legHangup state missed call sip answer
  | .legAnswered state realLegCcid call => w.legAnswered state realLegCcid call
  | .rpc =>
    match w.rpcs with
    | event :: rpcs =>
      if w.session.idle then ({ w with session := w.session.admitEvent event, rpcs := rpcs }, [])
      else (w, [])
    | [] => (w, [])

/-- The object has just admitted the mint of a call. -/
def TransferWorld.start (mint : Mint) : TransferWorld where
  session := { machine := none, journal := [mint.event], alarms := fun _ => none, due := [] }
  nowMs := 0
  ledger := []
  legs := []
  routes := []
  rpcs := []

/-- A run of the world from the admission of a call. -/
structure TransferRun where
  mint : Mint
  actions : List TransferAction

def TransferRun.world (r : TransferRun) : TransferWorld :=
  Reactive.final worldStep (.start r.mint) r.actions

/-! ### The memory of the dead owner -/

def Stranded (m : SessionMachine) : Prop :=
  m.state = .answered ∧ m.ownerLegDeadDuringIntent ≠ none ∧
    m.ownerLegDeadDuringIntent = m.answeredByUserId

/-- The hangups that are remembered: the owner's own leg, of an answered call under an intent. -/
def strandsOwner (m : SessionMachine) : SessionEvent → Prop
  | .memberLegHangup ccid userId _ =>
    m.state = .answered ∧ m.intent ≠ none ∧ m.answeredByUserId = some userId ∧
      ∃ leg, m.findLeg ccid = some leg ∧ leg.status = .answered
  | .outboundPlacerHangup _ userId =>
    m.state = .answered ∧ m.intent ≠ none ∧ m.answeredByUserId = some userId
  | _ => False

/-- A call that is not answered yet remembers no dead owner. -/
def Unburdened (m : SessionMachine) : Prop :=
  m.state = .ringing ∨ m.state = .dialing → m.ownerLegDeadDuringIntent = none

/-- A step forgets the dead owner; or leaves the memory alone, and with it the owner of an answered
call; or remembers one that died in an answered call. -/
inductive FlagMove (m : SessionMachine) (event : SessionEvent) (n : SessionMachine) : Prop
  | forget : n.ownerLegDeadDuringIntent = none → FlagMove m event n
  | keep : n.ownerLegDeadDuringIntent = m.ownerLegDeadDuringIntent →
      (n.state = .answered → m.state = .answered ∧ n.answeredByUserId = m.answeredByUserId ∨
        m.state = .ringing ∨ m.state = .dialing) →
      (n.state = .ringing ∨ n.state = .dialing → m.state = .ringing ∨ m.state = .dialing) →
      FlagMove m event n
  | remember : n.state = .answered →
      (n.ownerLegDeadDuringIntent = n.answeredByUserId → n.ownerLegDeadDuringIntent ≠ none →
        strandsOwner m event) → FlagMove m event n

variable {m : SessionMachine} {event : SessionEvent} {n : SessionMachine} {w' : TransferWorld}

theorem FlagMove.same (hstate : n.state = m.state)
    (howner : n.answeredByUserId = m.answeredByUserId)
    (hflag : n.ownerLegDeadDuringIntent = m.ownerLegDeadDuringIntent) : FlagMove m event n := by
  refine FlagMove.keep hflag (fun hanswered => Or.inl ⟨?_, howner⟩) fun hearly => ?_
  · rw [← hstate]
    exact hanswered
  · rw [← hstate]
    exact hearly

theorem FlagMove.leave (hanswered : n.state ≠ .answered) (hringing : n.state ≠ .ringing)
    (hdialing : n.state ≠ .dialing)
    (hflag : n.ownerLegDeadDuringIntent = m.ownerLegDeadDuringIntent) : FlagMove m event n := by
  refine FlagMove.keep hflag (fun h => absurd h hanswered) ?_
  rintro (h | h)
  · exact absurd h hringing
  · exact absurd h hdialing

theorem FlagMove.terminal (h : isTerminal n.state = true)
    (hflag : n.ownerLegDeadDuringIntent = m.ownerLegDeadDuringIntent) : FlagMove m event n := by
  refine FlagMove.leave ?_ ?_ ?_ hflag <;> (intro hs; rw [hs] at h; cases h)

theorem CoreMove.flag {c : SessionMachine} (h : CoreMove m event c) : FlagMove m event c := by
  cases h with
  | still | offered | intended => exact FlagMove.same rfl rfl rfl
  | voicemail | record => exact FlagMove.leave (by simp) (by simp) (by simp) rfl
  | @ended n target hn hterminal =>
    obtain ⟨owner, atIso, hcore, -⟩ := core_of_ended hn
    rw [hcore]
    exact FlagMove.terminal hterminal rfl
  | upgraded => exact FlagMove.terminal rfl rfl
  | pickedUp userId answeredAtIso hring =>
    refine FlagMove.keep rfl (fun _ => Or.inr (Or.inl hring)) ?_
    rintro (h | h)
    · cases h
    · cases h
  | connected answeredAtIso hdialing =>
    refine FlagMove.keep rfl (fun _ => Or.inr (Or.inr hdialing)) ?_
    rintro (h | h)
    · cases h
    · cases h
  | owned | intentOver | tornDown => exact FlagMove.forget rfl
  | bereft hanswered hintent hevent =>
    refine FlagMove.remember hanswered fun hflag _ => ?_
    rcases hevent with ⟨ccid, destination, leg, rfl, howner, hfind, hleg⟩ | ⟨ccid, rfl⟩
    · exact ⟨hanswered, hintent, howner, leg, hfind, hleg⟩
    · exact ⟨hanswered, hintent, hflag.symm⟩

/-- **What a step does to the memory of the dead owner.** -/
theorem machineStep_flag (m : SessionMachine) (i : Input) :
    FlagMove m i.event (machineStep m i).1 := by
  cases (machineStep_core m i).flag with
  | forget hflag => exact FlagMove.forget hflag
  | keep hflag howner hearly => exact FlagMove.keep hflag howner hearly
  | remember hanswered hcause => exact FlagMove.remember hanswered hcause

/-- A call that is not answered yet remembers no dead owner, after the step either. -/
theorem unburdened_step (i : Input) (h : Unburdened m) : Unburdened (machineStep m i).1 := by
  intro hearly
  cases machineStep_flag m i with
  | forget hflag => exact hflag
  | keep hflag _ hback => rw [hflag]; exact h (hback hearly)
  | remember hanswered =>
    rw [hanswered] at hearly
    rcases hearly with h | h <;> cases h

/-- **A step strands the call** only by the hangup of its owner's own leg under an intent. -/
theorem stranded_step {i : Input} (hunburdened : Unburdened m)
    (h : Stranded (machineStep m i).1) : Stranded m ∨ strandsOwner m i.event := by
  obtain ⟨hanswered, hflagged, howner⟩ := h
  cases machineStep_flag m i with
  | forget hflag => exact absurd hflag hflagged
  | remember _ hstrands => exact Or.inr (hstrands howner hflagged)
  | keep hflag hback _ =>
    rw [hflag] at hflagged howner
    rcases hback hanswered with ⟨hbefore, hsame⟩ | hearly
    · exact Or.inl ⟨hbefore, hflagged, howner.trans hsame⟩
    · exact absurd (hunburdened hearly) hflagged

/-! ### Where the expiry is -/

/-- Every leg that still rings has had its window by the time. -/
def OutBy (legs : List TransferLeg) (atMs : ℤ) : Prop :=
  ∀ leg ∈ legs, leg.ended = false → leg.windowEnd ≤ atMs

theorem OutBy.mono {legs : List TransferLeg} {atMs atMs' : ℤ} (h : OutBy legs atMs)
    (hle : atMs ≤ atMs') : OutBy legs atMs' :=
  fun leg hleg hover => (h leg hleg hover).trans hle

/-- **No leg that still rings outlives the expiry**, which goes off as early as 50 ms before its
time: neither where it is armed, nor where it is due, nor where its event is next. -/
structure Covered (s : Session) (legs : List TransferLeg) (nowMs : ℤ) : Prop where
  armed : ∀ atMs, s.alarms .intentExpiry = some atMs → OutBy legs (atMs - 50)
  due : .intentExpiry ∈ s.due → OutBy legs nowMs
  next : .alarmIntentExpiry ∈ s.journal → OutBy legs nowMs

variable {s : Session} {legs : List TransferLeg} {nowMs : ℤ}

section

variable (h : Covered s legs nowMs)
include h

theorem Covered.admitEvent (event : SessionEvent) : Covered (s.admitEvent event) legs nowMs := by
  rcases admit_eq_or s event with hsame | ⟨_, hexternal, hadmitted⟩
  · rw [hsame]
    exact h
  · rw [hadmitted]
    refine ⟨h.armed, h.due, fun hnext => ?_⟩
    rw [← List.mem_singleton.1 hnext] at hexternal
    cases hexternal

theorem Covered.wake : Covered (s.wake nowMs) legs nowMs := by
  rcases wake_eq_or s nowMs with hsame | hwake
  · rw [hsame]
    exact h
  · rw [hwake]
    refine ⟨h.armed, fun hdue => ?_, h.next⟩
    obtain ⟨atMs, harmed, hle⟩ : ∃ atMs, s.alarms .intentExpiry = some atMs ∧ atMs ≤ nowMs + 50 := by
      have hslot := (List.mem_filter.1 hdue).2
      simpa [Option.any_eq_true] using hslot
    exact (h.armed atMs harmed).mono (by omega)

theorem Covered.fire (unreachableUserIds : List String) :
    Covered (s.fire unreachableUserIds) legs nowMs := by
  rcases fire_eq_or s unreachableUserIds with
    hsame | ⟨slot, due, _, hdue, ⟨event, hevent, hfire⟩ | hpurge⟩
  · rw [hsame]
    exact h
  · rw [hfire]
    refine ⟨fun atMs harmed => ?_, fun hin => ?_, fun hnext => ?_⟩
    · by_cases hslot : AlarmKind.intentExpiry = slot
      · subst hslot
        have hnone : Function.update s.alarms .intentExpiry none .intentExpiry = none :=
          Function.update_self ..
        rw [show Function.update s.alarms .intentExpiry none .intentExpiry = some atMs
          from harmed] at hnone
        cases hnone
      · have hother : Function.update s.alarms slot none .intentExpiry = s.alarms .intentExpiry :=
          Function.update_of_ne hslot _ _
        exact h.armed atMs (hother.symm.trans harmed)
    · exact h.due (by rw [hdue]; exact List.mem_cons_of_mem _ hin)
    · obtain rfl : SessionEvent.alarmIntentExpiry = event := List.mem_singleton.1 hnext
      have hslot : slot = .intentExpiry := by
        cases slot with
        | intentExpiry => rfl
        | _ => cases hevent
      exact h.due (by rw [hdue, hslot]; exact List.mem_cons_self ..)
  · rw [hpurge]
    refine ⟨fun atMs harmed => (by cases harmed), fun hin => (by cases hin), h.next⟩

end

theorem machineStep_armsExpiry {m : SessionMachine} {i : Input} {atMs : ℤ}
    (h : .armAlarm .intentExpiry atMs ∈ (machineStep m i).2) :
    atMs = i.nowMs + INTENT_EXPIRY_MS := by
  have hmay := machineStep_mayEmit m i _ h
  unfold machineStep reduceMachine at h
  cases hi : i.event with
  | registerIntent =>
    rw [hi] at h
    have heq : Effect.armAlarm .intentExpiry atMs =
        .armAlarm .intentExpiry (i.nowMs + INTENT_EXPIRY_MS) := List.mem_singleton.1 h
    injection heq
  | _ => rw [hi] at hmay; cases hmay

theorem expiry_not_reported {t : Shell} {es : List Effect} {answers : ℕ → Answers} :
    .alarmIntentExpiry ∉ (executeAll t es answers).2 := by
  intro hreported
  obtain ⟨e, _, hfollows⟩ := followsUp_of_mem hreported
  cases e with
  | telnyxHangup _ terminal => cases terminal <;> cases hfollows
  | _ => cases hfollows

/-- **A drained step keeps the legs covered**: a registration sets the expiry forty seconds off,
which is more than any leg already ringing has left. -/
theorem Covered.drain {m : SessionMachine} {event : SessionEvent} {rest : List SessionEvent}
    (h : Covered s legs nowMs) (hdialed : ∀ leg ∈ legs, leg.dialedAtMs ≤ nowMs)
    (hm : s.machine = some m) (hj : s.journal = event :: rest) (clockMs : ℤ)
    (pendingKeyFor : ℕ → String) (answers : ℕ → Answers) :
    Covered (sessionStep s (.drain nowMs clockMs pendingKeyFor answers)).1 legs nowMs := by
  obtain ⟨count, hstep⟩ := sessionStep_drain hm hj nowMs clockMs pendingKeyFor answers
  rw [hstep, executeAll_promise]
  refine ⟨fun atMs harmed => ?_, h.due, fun hnext => ?_⟩
  · rcases foldl_promise_of_some harmed with hbefore | harms
    · exact h.armed atMs hbefore
    · rw [machineStep_armsExpiry harms]
      intro leg hleg _
      have hbegan := hdialed leg hleg
      simp only [TransferLeg.windowEnd, TRANSFER_TIMEOUT_SECS, INTENT_EXPIRY_MS]
      omega
  · rcases List.mem_append.1 hnext with hlater | hreported
    · exact h.next (by rw [hj]; exact List.mem_cons_of_mem _ hlater)
    · exact absurd hreported expiry_not_reported

/-! ### The condition -/

def TransferWorld.Dials (w : TransferWorld) : TransferAction → Prop
  | .issue route _ answer =>
    answer.rings = true ∧ ∃ r, w.routes[route]? = some r ∧ r.reply = some .answered
  | .legHangup state missed call sip answer =>
    answer.rings = true ∧ ∃ input,
      transferRecovery state missed (w.ledger.any (isRingingFor state.targetUserId)) call sip =
        .snapBack input
  | _ => False

/-- A leg that starts to ring now has its window before the expiry goes off. -/
def DialsInTime (s : Session) (nowMs : ℤ) : Prop :=
  (∀ atMs, s.alarms .intentExpiry = some atMs →
      nowMs + TRANSFER_TIMEOUT_SECS * 1000 + 50 ≤ atMs) ∧
    .intentExpiry ∉ s.due ∧ .alarmIntentExpiry ∉ s.journal

/-- **The steps that keep a transfer safe**: a leg starts to ring in time for the expiry, unless
the owner's leg is still up; and when the owner's leg dies, every ringing leg is in time. -/
def KeepsTransfer (w : TransferWorld) (a : TransferAction) : Prop :=
  (w.Dials a → DialsInTime w.session w.nowMs ∨
      ∀ m, w.session.machine = some m → ¬Stranded m) ∧
    match a with
    | .drain _ _ _ => ∀ m event rest, w.session.machine = some m →
        w.session.journal = event :: rest → strandsOwner m event →
          Covered w.session w.legs w.nowMs
    | _ => True

/-! ### The invariant of the world -/

/-- **The invariant**: the legs are covered, or no dead owner is remembered. -/
structure TransferWorld.Sound (mint : Mint) (w : TransferWorld) : Prop where
  guarded : Covered w.session w.legs w.nowMs ∨ ∀ m, w.session.machine = some m → ¬Stranded m
  dialed : ∀ leg ∈ w.legs, leg.dialedAtMs ≤ w.nowMs
  unburdened : ∀ m, w.session.machine = some m → Unburdened m
  minting : w.session.machine = none → w.session.journal = [mint.event]

variable {mint : Mint} {w : TransferWorld}

theorem TransferWorld.Sound.object (h : w.Sound mint)
    (hmachine : w'.session.machine = w.session.machine) (hlegs : w'.legs = w.legs)
    (hnow : w'.nowMs = w.nowMs)
    (hcovered : Covered w.session w.legs w.nowMs → Covered w'.session w.legs w.nowMs)
    (hminting : w.session.machine = none → w'.session.journal = w.session.journal) :
    w'.Sound mint := by
  refine ⟨?_, ?_, ?_, ?_⟩
  · rw [hmachine, hlegs, hnow]
    rcases h.guarded with hcover | hunstranded
    · exact Or.inl (hcovered hcover)
    · exact Or.inr hunstranded
  · rw [hlegs, hnow]
    exact h.dialed
  · rw [hmachine]
    exact h.unburdened
  · rw [hmachine]
    exact fun hnone => (hminting hnone).trans (h.minting hnone)

theorem TransferWorld.Sound.admitEvent (h : w.Sound mint) (event : SessionEvent)
    (hsession : w'.session = w.session.admitEvent event) (hlegs : w'.legs = w.legs)
    (hnow : w'.nowMs = w.nowMs) : w'.Sound mint := by
  have hcovered := fun hcover : Covered w.session w.legs w.nowMs => hcover.admitEvent event
  rcases admit_eq_or w.session event with hsame | ⟨hempty, _, hadmitted⟩
  · refine h.object (by rw [hsession, hsame]) hlegs hnow ?_ (fun _ => by rw [hsession, hsame])
    rw [hsession]
    exact hcovered
  · refine h.object (by rw [hsession, hadmitted]) hlegs hnow ?_ (fun hnone => ?_)
    · rw [hsession]
      exact hcovered
    · rw [h.minting hnone] at hempty
      cases hempty

theorem mint_flag (mint : Mint) (nowMs : ℤ) (pendingKeyFor : ℕ → String) :
    (mint.start nowMs pendingKeyFor).1.ownerLegDeadDuringIntent = none := by
  cases mint with
  | inbound context =>
    show (initiatedBranch context nowMs pendingKeyFor).1.ownerLegDeadDuringIntent = none
    unfold initiatedBranch
    split_ifs <;> rfl
  | outbound context =>
    simp only [Mint.start, reduceOutboundInitiated]
    split <;> rfl

section

variable (h : w.Sound mint)
include h

/-- **A drained step**: the mint answers no call, and a step on a machine that exists keeps the legs
covered or strands nobody. -/
theorem TransferWorld.Sound.drain {clockMs : ℤ} {pendingKeyFor : ℕ → String} {answers : ℕ → Answers}
    (hkeeps : KeepsTransfer w (.drain clockMs pendingKeyFor answers)) :
    (worldStep w (.drain clockMs pendingKeyFor answers)).1.Sound mint := by
  cases hm : w.session.machine with
  | none =>
    have hj : w.session.journal = mint.event :: [] := h.minting hm
    obtain ⟨count, hstep⟩ :=
      sessionStep_start hm hj w.nowMs clockMs pendingKeyFor answers
    have hmachine : (sessionStep w.session
        (.drain w.nowMs clockMs pendingKeyFor answers)).1.machine =
          some ((mint.start w.nowMs pendingKeyFor).1.withCount count) := by rw [hstep]
    refine ⟨Or.inr fun m hm' => ?_, h.dialed, fun m hm' => ?_, fun hnone => ?_⟩
    · obtain rfl := Option.some.inj (hmachine.symm.trans hm')
      rintro ⟨hanswered, -, -⟩
      rw [withCount_state] at hanswered
      rcases mint_state mint w.nowMs pendingKeyFor with hs | hs | hs
      · rw [hs] at hanswered
        cases hanswered
      · rw [hs] at hanswered
        cases hanswered
      · rw [hs] at hanswered
        cases hanswered
    · obtain rfl := Option.some.inj (hmachine.symm.trans hm')
      exact fun _ => mint_flag mint w.nowMs pendingKeyFor
    · cases hmachine.symm.trans hnone
  | some m =>
    cases hj : w.session.journal with
    | nil =>
      have hidle : (sessionStep w.session
          (.drain w.nowMs clockMs pendingKeyFor answers)).1 = w.session := by
        simp [sessionStep, Session.drain, hj]
      refine h.object ?_ rfl rfl ?_ ?_
      · exact congrArg Session.machine hidle
      · show Covered w.session w.legs w.nowMs → Covered (sessionStep w.session
          (.drain w.nowMs clockMs pendingKeyFor answers)).1 w.legs w.nowMs
        rw [hidle]
        exact id
      · exact fun _ => congrArg Session.journal hidle
    | cons event rest =>
      obtain ⟨count, hstep⟩ := sessionStep_drain hm hj w.nowMs clockMs pendingKeyFor answers
      have hmachine : (sessionStep w.session
          (.drain w.nowMs clockMs pendingKeyFor answers)).1.machine = some ((machineStep m
            ⟨event, w.nowMs, clockMs, pendingKeyFor⟩).1.withCount count) := by rw [hstep]
      have hbefore := h.unburdened m hm
      have hcovered : Covered w.session w.legs w.nowMs → Covered (sessionStep w.session
          (.drain w.nowMs clockMs pendingKeyFor answers)).1 w.legs w.nowMs :=
        fun hcover => hcover.drain h.dialed hm hj clockMs pendingKeyFor answers
      refine ⟨?_, h.dialed, fun n hn => ?_, fun hnone => ?_⟩
      · rcases h.guarded with hcover | hunstranded
        · exact Or.inl (hcovered hcover)
        · by_cases hstrands : strandsOwner m event
          · exact Or.inl (hcovered (hkeeps.2 m event rest hm hj hstrands))
          · refine Or.inr fun n hn hstranded => ?_
            obtain rfl := Option.some.inj (hmachine.symm.trans hn)
            have hstep' : Stranded (machineStep m
                ⟨event, w.nowMs, clockMs, pendingKeyFor⟩).1 := hstranded
            rcases stranded_step hbefore hstep' with hearlier | hnow
            · exact hunstranded m hm hearlier
            · exact hstrands hnow
      · obtain rfl := Option.some.inj (hmachine.symm.trans hn)
        exact unburdened_step ⟨event, w.nowMs, clockMs, pendingKeyFor⟩ hbefore
      · cases hmachine.symm.trans hnone

theorem TransferWorld.Sound.ring (state : TransferState) (answer : TransferAnswer)
    (hsession : w'.session = w.session) (hnow : w'.nowMs = w.nowMs)
    (hlegs : w'.legs = w.ring state answer)
    (hintime : answer.rings = true → DialsInTime w.session w.nowMs ∨
      ∀ m, w.session.machine = some m → ¬Stranded m) : w'.Sound mint := by
  unfold TransferWorld.ring at hlegs
  cases hrings : answer.rings with
  | false =>
    rw [hrings] at hlegs
    exact h.object (by rw [hsession]) hlegs hnow (by rw [hsession]; exact id)
      (fun _ => by rw [hsession])
  | true =>
    rw [hrings] at hlegs
    simp only [if_true] at hlegs
    refine ⟨?_, ?_, ?_, ?_⟩
    · rw [hsession, hnow, hlegs]
      rcases h.guarded with hcover | hunstranded
      · rcases hintime hrings with ⟨hearly, hdue, hnext⟩ | hunstranded
        · refine Or.inl ⟨fun atMs harmed leg hleg hover => ?_, fun hin => absurd hin hdue,
            fun hin => absurd hin hnext⟩
          rcases List.mem_append.1 hleg with hleg | hleg
          · exact hcover.armed atMs harmed leg hleg hover
          · rw [List.mem_singleton.1 hleg]
            have hroom := hearly atMs harmed
            simp only [TransferLeg.windowEnd]
            omega
        · exact Or.inr hunstranded
      · exact Or.inr hunstranded
    · rw [hnow, hlegs]
      intro leg hleg
      rcases List.mem_append.1 hleg with hleg | hleg
      · exact h.dialed leg hleg
      · rw [List.mem_singleton.1 hleg]
    · rw [hsession]
      exact h.unburdened
    · rw [hsession]
      exact h.minting

theorem TransferWorld.Sound.legEnds (leg : ℕ) : (worldStep w (.legEnds leg)).1.Sound mint := by
  have hmem : ∀ l ∈ w.legs.modify leg (fun l => { l with ended := true }),
      l ∈ w.legs ∨ l.ended = true ∧ ∃ l' ∈ w.legs, l.dialedAtMs = l'.dialedAtMs := by
    intro l hl
    obtain ⟨k, hk⟩ := List.mem_iff_getElem?.1 hl
    rw [List.getElem?_modify] at hk
    cases hold : w.legs[k]? with
    | none =>
      rw [hold] at hk
      cases hk
    | some l' =>
      rw [hold] at hk
      have hin : l' ∈ w.legs := List.mem_of_getElem? hold
      have hnew : (if leg = k then { l' with ended := true } else l') = l := Option.some.inj hk
      split_ifs at hnew
      · rw [← hnew]
        exact Or.inr ⟨rfl, l', hin, rfl⟩
      · rw [← hnew]
        exact Or.inl hin
  have hout : ∀ atMs, OutBy w.legs atMs →
      OutBy (w.legs.modify leg fun l => { l with ended := true }) atMs := by
    intro atMs hby l hl hover
    rcases hmem l hl with hin | ⟨hended, _⟩
    · exact hby l hin hover
    · rw [hended] at hover
      cases hover
  refine ⟨?_, fun l hl => ?_, h.unburdened, h.minting⟩
  · rcases h.guarded with hcover | hunstranded
    · exact Or.inl ⟨fun atMs harmed => hout _ (hcover.armed atMs harmed),
        fun hdue => hout _ (hcover.due hdue), fun hnext => hout _ (hcover.next hnext)⟩
    · exact Or.inr hunstranded
  · rcases hmem l hl with hin | ⟨_, l', hin, hsame⟩
    · exact h.dialed l hin
    · rw [hsame]
      exact h.dialed l' hin

/-- **Every step that keeps a transfer safe** keeps the invariant. -/
theorem TransferWorld.Sound.next {a : TransferAction}
    (ha : KeepsTransfer w a) : (worldStep w a).1.Sound mint := by
  cases a with
  | elapse ms =>
    have hlater : w.nowMs ≤ w.nowMs + ms := by omega
    refine ⟨?_, fun leg hleg => (h.dialed leg hleg).trans hlater, h.unburdened, h.minting⟩
    rcases h.guarded with hcover | hunstranded
    · exact Or.inl ⟨hcover.armed, fun hdue => (hcover.due hdue).mono hlater,
        fun hnext => (hcover.next hnext).mono hlater⟩
    · exact Or.inr hunstranded
  | admitEvent event => exact h.admitEvent event rfl rfl rfl
  | wake =>
    rcases wake_eq_or w.session w.nowMs with hsame | hwake
    · exact h.object (congrArg Session.machine hsame) rfl rfl (fun hcover => hcover.wake)
        fun _ => congrArg Session.journal hsame
    · have hmachine : (w.session.wake w.nowMs).machine = w.session.machine := by rw [hwake]
      have hjournal : (w.session.wake w.nowMs).journal = w.session.journal := by rw [hwake]
      exact h.object hmachine rfl rfl (fun hcover => hcover.wake) fun _ => hjournal
  | fire unreachableUserIds =>
    have hcovered := fun hcover : Covered w.session w.legs w.nowMs =>
      hcover.fire unreachableUserIds
    rcases fire_eq_or w.session unreachableUserIds with
      hsame | ⟨slot, due, hempty, _, ⟨event, _, hfire⟩ | hpurge⟩
    · exact h.object (congrArg Session.machine hsame) rfl rfl hcovered
        fun _ => congrArg Session.journal hsame
    · have hmachine : (w.session.fire unreachableUserIds).machine = w.session.machine := by
        rw [hfire]
      refine h.object hmachine rfl rfl hcovered fun hnone => ?_
      rw [h.minting hnone] at hempty
      cases hempty
    · have hmachine : (w.session.fire unreachableUserIds).machine = w.session.machine := by
        rw [hpurge]
      have hjournal : (w.session.fire unreachableUserIds).journal = w.session.journal := by
        rw [hpurge]
      exact h.object hmachine rfl rfl hcovered fun _ => hjournal
  | drain clockMs pendingKeyFor answers => exact h.drain ha
  | register targetUserId =>
    rw [worldStep]
    split_ifs
    · exact h.admitEvent _ rfl rfl rfl
    · exact h
  | rpc =>
    rw [worldStep]
    split
    · split_ifs
      · exact h.admitEvent _ rfl rfl rfl
      · exact h
    · exact h
  | legEnds leg => exact h.legEnds leg
  | legAnswered state realLegCcid call =>
    rw [worldStep, TransferWorld.legAnswered]
    split_ifs
    · exact h.object rfl rfl rfl id fun _ => rfl
    · exact h
  | issue route gate answer =>
    rw [worldStep, TransferWorld.issue]
    split
    · rename_i r hr
      split
      · exact h
      · rename_i state hreply
        by_cases hanswered : state ≠ .answered
        · simp only [if_pos hanswered]
          exact h.object rfl rfl rfl id fun _ => rfl
        · have hstate : state = .answered := not_not.1 hanswered
          simp only [if_neg hanswered]
          refine h.ring (r.request gate).state answer rfl rfl rfl ?_
          exact fun hrings => ha.1 ⟨hrings, r, hr, by rw [hreply, hstate]⟩
    · exact h
  | legHangup state missed call sip answer =>
    rw [worldStep, TransferWorld.legHangup]
    split
    · exact h.object rfl rfl rfl id fun _ => rfl
    · exact h.object rfl rfl rfl id fun _ => rfl
    · exact h.object rfl rfl rfl id fun _ => rfl
    · rename_i input hinput
      refine h.ring input.state answer rfl rfl rfl ?_
      exact fun hrings => ha.1 ⟨hrings, input, hinput⟩

end

/-! ### The expiry and the transfer -/

def TransferWorld.ringing (w : TransferWorld) : List TransferLeg :=
  w.legs.filter fun leg => !leg.ended && w.nowMs < leg.windowEnd

/-- **The expiry hangs up no customer while a transfer leg rings** within its window. -/
def SparesTransfer (w : TransferWorld) (a : TransferAction) : Prop :=
  ∀ clockMs pendingKeyFor answers, a = .drain clockMs pendingKeyFor answers →
    w.session.journal.head? = some .alarmIntentExpiry →
      ∀ c, .effect (.telnyxHangup c true) ∈ (worldStep w a).2 → w.ringing = []

theorem stranded_of_hangup {m : SessionMachine} {c : String}
    (h : .telnyxHangup c true ∈ (reduceIntentOver m).2) : Stranded m := by
  unfold reduceIntentOver at h
  simp only at h
  split_ifs at h with hstranded
  · exact hstranded
  · simp at h

theorem TransferWorld.Sound.spares (h : w.Sound mint) (a : TransferAction) :
    SparesTransfer w a := by
  rintro clockMs pendingKeyFor answers rfl hhead c hhangup
  obtain ⟨rest, hj⟩ : ∃ rest, w.session.journal = .alarmIntentExpiry :: rest := by
    cases hj : w.session.journal with
    | nil =>
      rw [hj] at hhead
      cases hhead
    | cons event rest =>
      rw [hj] at hhead
      exact ⟨rest, by rw [Option.some.inj hhead]⟩
  cases hm : w.session.machine with
  | none =>
    have hminting := h.minting hm
    rw [hj] at hminting
    cases mint <;> cases hminting
  | some m =>
    obtain ⟨count, hstep⟩ := sessionStep_drain hm hj w.nowMs clockMs pendingKeyFor answers
    have hemitted : Effect.telnyxHangup c true ∈ (reduceIntentOver m).2 := by
      simp only [worldStep, hstep, List.mem_map] at hhangup
      obtain ⟨e, he, heq⟩ := hhangup
      injection heq with heq
      rw [heq] at he
      exact he
    have hcover : Covered w.session w.legs w.nowMs :=
      h.guarded.resolve_right fun hnone => hnone m hm (stranded_of_hangup hemitted)
    have hout := hcover.next (by rw [hj]; exact List.mem_cons_self ..)
    refine List.filter_eq_nil_iff.2 fun leg hleg hrings => ?_
    simp only [Bool.and_eq_true, Bool.not_eq_true', decide_eq_true_eq] at hrings
    have hdone := hout leg hleg hrings.1
    omega

theorem sound_start (mint : Mint) : (TransferWorld.start mint).Sound mint :=
  ⟨Or.inr fun _ hm => (by cases hm), fun _ hleg => (by cases hleg), fun _ hm => (by cases hm),
    fun _ => rfl⟩

/-- **Blind-transfer recovery against the intent's expiry.**  In every run in which each transfer
leg starts to ring at least its own window before the expiry, or with the owner's leg still up, and
in which the owner's leg dies only under legs that are in time, the expiry hangs up no customer
while a transfer leg rings within its window. -/
theorem expiry_spares_transfer {r : TransferRun}
    (hrun : Reactive.Along worldStep KeepsTransfer (.start r.mint) r.actions) :
    Reactive.Along worldStep SparesTransfer (.start r.mint) r.actions :=
  Reactive.along_of_inv worldStep (P := TransferWorld.Sound r.mint) (C := KeepsTransfer)
    (D := SparesTransfer) (fun _ _ h ha => h.next ha) (fun _ a h _ => h.spares a)
    (sound_start r.mint) hrun

/-! ### A transfer to somebody who does not pick up -/

/-- One event reduced, its effects carried out by the willing vendor. -/
def drainWilling : TransferAction := .drain 0 (fun _ => "key") fun _ => willing

/-- Ana answers the call at time zero. -/
def anaAnswers : List TransferAction :=
  [drainWilling, drainWilling, drainWilling, .admitEvent (.memberLegAnswered "ana-leg" "ana" none),
    drainWilling, drainWilling]

/-- What the route reads of the call. -/
def anaGate : RouteGate where
  sessionId := "session"
  customerCcid := "customer"
  targetSipUsername := "bo-sip"
  senderUserId := "ana"
  callerE164 := some "+15550001111"
  businessNumber := "+15550002222"
  direction := some "inbound"

/-- What the handler reads of the call. -/
def answeredRow : LiveCallRow where
  customerCallControlId := some "customer"
  outcome := none
  direction := some "inbound"
  businessNumberE164 := some "+15550002222"

/-- The tag of the leg to Bo. -/
def toBo : TransferState :=
  { sessionId := "session", targetUserId := "bo", senderUserId := "ana", hops := 0
    caller := some "+15550001111" }

/-- Ana transfers the call to Bo and is unbridged; Bo's phone rings for a while and stops; the call
snaps back to Ana, whose phone rings until the intent expires. -/
def boMisses (ms : ℕ) : List TransferAction :=
  anaAnswers ++ [.register "bo", drainWilling, .issue 0 anaGate .accepted,
    .admitEvent (.memberLegHangup "ana-leg" "ana" none), drainWilling, .elapse ms, .legEnds 0,
    .legHangup toBo true (some answeredRow) (some "ana-sip") .accepted, .elapse (40000 - ms),
    .wake, .fire []]

/-- Bo lets it ring for five seconds: when the intent expires the second leg has had its window. -/
def declinedEarly : TransferRun where
  mint := .inbound crewOfOne
  actions := boMisses 5000 ++ [drainWilling]

/-- The hangup of a leg, which alone may strand a call. -/
def SessionEvent.isLegHangup : SessionEvent → Bool
  | .memberLegHangup .. | .outboundPlacerHangup .. => true
  | _ => false

theorem keepsTransfer_drain {w : TransferWorld}
    (h : (w.session.journal.head?.all fun e => !e.isLegHangup) = true) :
    KeepsTransfer w drainWilling := by
  refine ⟨fun hdials => hdials.elim, fun m event rest _ hj hstrands => ?_⟩
  rw [hj] at h
  cases event with
  | memberLegHangup | outboundPlacerHangup => cases h
  | _ => exact hstrands.elim

theorem dialsInTime_of_idle {s : Session} {nowMs : ℤ} (atMs : ℤ) (hidle : s.idle = true)
    (harmed : s.alarms .intentExpiry = some atMs)
    (hroom : nowMs + TRANSFER_TIMEOUT_SECS * 1000 + 50 ≤ atMs) : DialsInTime s nowMs := by
  simp only [Session.idle, Bool.and_eq_true, List.isEmpty_iff] at hidle
  refine ⟨fun atMs' harmed' => ?_, by simp [hidle.2], by simp [hidle.1]⟩
  rw [harmed] at harmed'
  obtain rfl := Option.some.inj harmed'
  exact hroom

theorem covered_of_armed {s : Session} {legs : List TransferLeg} {nowMs : ℤ} (atMs : ℤ)
    (hdue : .intentExpiry ∉ s.due) (hnext : .alarmIntentExpiry ∉ s.journal)
    (harmed : s.alarms .intentExpiry = some atMs)
    (hlegs : ∀ leg ∈ legs, leg.windowEnd ≤ atMs - 50) : Covered s legs nowMs := by
  refine ⟨fun atMs' harmed' leg hleg _ => ?_, fun hin => absurd hin hdue,
    fun hin => absurd hin hnext⟩
  rw [harmed] at harmed'
  obtain rfl := Option.some.inj harmed'
  exact hlegs leg hleg

/-- The leg to Ana has had its whole window when the expiry hangs up the customer. -/
theorem expiry_spares_transfer_early :
    Reactive.Along worldStep SparesTransfer (.start declinedEarly.mint) declinedEarly.actions := by
  refine expiry_spares_transfer ⟨keepsTransfer_drain ?_, keepsTransfer_drain ?_,
    keepsTransfer_drain ?_, ⟨fun h => h.elim, trivial⟩, keepsTransfer_drain ?_,
    keepsTransfer_drain ?_, ⟨fun h => h.elim, trivial⟩, keepsTransfer_drain ?_,
    ⟨fun _ => Or.inl (dialsInTime_of_idle 40000 ?_ ?_ ?_), trivial⟩,
    ⟨fun h => h.elim, trivial⟩, ⟨fun h => h.elim, fun _ _ _ _ _ _ =>
      covered_of_armed 40000 ?_ ?_ ?_ ?_⟩,
    ⟨fun h => h.elim, trivial⟩, ⟨fun h => h.elim, trivial⟩,
    ⟨fun _ => Or.inl (dialsInTime_of_idle 40000 ?_ ?_ ?_), trivial⟩,
    ⟨fun h => h.elim, trivial⟩, ⟨fun h => h.elim, trivial⟩, ⟨fun h => h.elim, trivial⟩,
    keepsTransfer_drain ?_, trivial⟩ <;> decide +kernel

/-- Bo lets it ring for its whole window. -/
def unansweredTransfer : TransferRun where
  mint := .inbound crewOfOne
  actions := boMisses 25000

/-- **The snap-back is cut off**: fifteen seconds into the second leg's window the expiry hangs up
the customer. -/
theorem snap_back_cut_off :
    unansweredTransfer.world.ringing.map (fun leg => (leg.state.hops, leg.state.targetUserId)) =
        [(1, "ana")] ∧
      unansweredTransfer.world.nowMs = 40000 ∧
      .effect (.telnyxHangup "customer" true) ∈
        (worldStep unansweredTransfer.world drainWilling).2 ∧
      ¬SparesTransfer unansweredTransfer.world drainWilling := by
  have hringing : unansweredTransfer.world.ringing.map
      (fun leg => (leg.state.hops, leg.state.targetUserId)) = [(1, "ana")] := by decide +kernel
  have hhead : unansweredTransfer.world.session.journal.head? = some .alarmIntentExpiry := by
    decide +kernel
  have hhangup : .effect (.telnyxHangup "customer" true) ∈
      (worldStep unansweredTransfer.world drainWilling).2 := by decide +kernel
  refine ⟨hringing, by decide +kernel, hhangup, fun hspares => ?_⟩
  rw [hspares _ _ _ rfl hhead "customer" hhangup] at hringing
  cases hringing

end Calls
