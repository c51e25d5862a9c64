/-
**The call session's transition function.**

`Calls.reduce` is the transition table of `apps/api/src/calls/transitions.ts`: a machine (or none
yet), an event and the clock go to the next machine, the effects to run in order and the reply of
the RPC surface.  A handler that mutates its working copy and pushes effects is here a function to
the new machine and the effects it pushed; a loop over the legs that mutates some and pushes an
effect for some is `Calls.sweepLegs`; a `find` followed by an assignment to what was found is
`FirstMatch.updateFirst`.

`reduce` takes what the source reads from outside as arguments: `nowMs` is the time the shell
passes, `clockMs` is the time `reduceMemberAnswered` reads by itself, and `pendingKeyFor k` is the
`k`-th uuid the shell hands out during this call.
-/

import Texturion.CallMachine
import Texturion.FirstMatch
import Texturion.ReactiveRun
import Mathlib.Data.Rat.Floor

namespace Calls

open FirstMatch

/-! ### Effects pushed under a condition -/

/-- The effect `f c` for the value `c` of a nullable string, when the source's test of it
succeeds. -/
def ifTruthy (s : Option String) (f : String → Effect) : List Effect :=
  ((truthy s).map f).toList

/-- A loop over the legs: each leg is replaced, and pushes its effects in leg order. -/
def sweepLegs (f : LegRecord → LegRecord × List Effect) (m : SessionMachine) :
    SessionMachine × List Effect :=
  ({ m with legs := m.legs.map fun leg => (f leg).1 }, m.legs.flatMap fun leg => (f leg).2)

def SessionMachine.findLeg (m : SessionMachine) (ccid : String) : Option LegRecord :=
  m.legs.find? fun entry => entry.ccid == some ccid

def SessionMachine.setLegStatus (m : SessionMachine) (ccid : String) (status : LegStatus) :
    SessionMachine :=
  { m with
    legs := updateFirst (fun entry => entry.ccid == some ccid)
      (fun leg => { leg with status := status }) m.legs }

/-! ### The shared actions -/

def liveLegs (m : SessionMachine) : List LegRecord := m.legs.filter fun leg => leg.status.isLive

/-- One turn of the cancel loop. -/
def cancelLeg (terminal : Bool) (leg : LegRecord) : LegRecord × List Effect :=
  if leg.status.isUp then
    ({ leg with status := .canceling }, ifTruthy leg.ccid fun ccid => .telnyxHangup ccid terminal)
  else (leg, [])

def cancelAllLiveLegs (m : SessionMachine) (terminal : Bool) : SessionMachine × List Effect :=
  sweepLegs (cancelLeg terminal) m

def vmEntry (m : SessionMachine) : SessionMachine × List Effect :=
  ({ m with state := .voicemailGreeting, ringDeadlineMs := none, queuedTargets := [] },
    [.mirror { state := some .voicemailGreeting } false, .clearAlarm .ring,
      .clearAlarm .ringStep] ++ ifTruthy m.customerCcid .telnyxAnswerVm ++
      [.pushCallEnd .voicemail])

/-- The avenue ladder: voicemail only when no live leg, no waiting phone and no push-capable
member is left. -/
def runAvenueLadder (m : SessionMachine) : SessionMachine × List Effect :=
  if m.state != .ringing then (m, [])
  else if (liveLegs m).length > 0 then (m, [])
  else if m.queuedTargets.length > 0 then (m, [])
  else if m.pushCapableUserIds.length > 0 then (m, [])
  else vmEntry m

/-- One turn of the outbound teardown: an answered leg is hung up. -/
def reapAnsweredLeg (leg : LegRecord) : LegRecord × List Effect :=
  if leg.status == .answered then
    match truthy leg.ccid with
    | some ccid => ({ leg with status := .dead }, [.telnyxHangup ccid true])
    | none => (leg, [])
  else (leg, [])

/-- The loop of `terminalize` that only an outbound machine runs. -/
def reapAnsweredLegs (m : SessionMachine) : SessionMachine × List Effect :=
  if m.direction = .outbound then sweepLegs reapAnsweredLeg m else (m, [])

/-- The legs a terminal state leaves, with the hangups that got them there. -/
def terminalSweep (m : SessionMachine) (target : CallState) : SessionMachine × List Effect :=
  let canceled := cancelAllLiveLegs { m with state := target, ringDeadlineMs := none } true
  let reaped := reapAnsweredLegs canceled.1
  (reaped.1, canceled.2 ++ reaped.2)

/-- The terminal resolution every road to an `ended_*` state shares. -/
def terminalize (m : SessionMachine) (nowMs : ℤ) (target : CallState)
    (merge : Option TerminalMerge) (callEndReason : Option Outcome) (extraMirror : MirrorSet) :
    SessionMachine × List Effect :=
  let swept := terminalSweep m target
  (swept.1,
    swept.2 ++ [.mirror { extraMirror with state := some target } true] ++
      (merge.map Effect.terminalMerge).toList ++
      (if m.state = .ringing then (callEndReason.map Effect.pushCallEnd).toList else []) ++
      (if isTerminal m.state then []
        else [.clearAlarm .ring, .clearAlarm .ringStep, .clearAlarm .fanoutSettle,
          .armAlarm .purge (nowMs + PURGE_DELAY_MS)]))

/-- Hang up the customer leg: its own hangup resolves the call. -/
def ownerDeathTeardown (m : SessionMachine) : SessionMachine × List Effect :=
  ({ m with ownerLegDeadDuringIntent := none },
    ifTruthy m.customerCcid fun ccid => .telnyxHangup ccid true)

/-- The merge of a call that nobody's payload reports. -/
def syntheticMerge (outcome : Outcome) (briAnsweredAtIso : Option String) : TerminalMerge :=
  { mode := .synthetic, outcome := outcome, payload := none, briAnsweredAtIso := briAnsweredAtIso }

def eventMerge (outcome : Outcome) (payload : Option Payload) (briAnsweredAtIso : Option String) :
    TerminalMerge :=
  { mode := .event, outcome := outcome, payload := payload, briAnsweredAtIso := briAnsweredAtIso }

/-- How a call that nobody answered ends: rejected when the voice cap turned it away. -/
def missedState (m : SessionMachine) : CallState :=
  if m.rejectedForCap then .endedRejected else .endedMissed

/-! ### Dialing -/

def pendingKey (uuid : String) : String := "leg:pending:" ++ uuid

def legKey (ccid : String) : String := "leg:" ++ ccid

def sipTargetOf (sipUsername : String) : String := "sip:" ++ sipUsername ++ "@sip.telnyx.com"

def freshLeg (uuid userId sipUsername : String) (source : LegSource) (nowMs : ℤ) : LegRecord :=
  { key := pendingKey uuid, ccid := none, userId := userId, status := .dialing, source := source,
    dialedAtMs := nowMs, sipTarget := sipTargetOf sipUsername }

def LegRecord.toDialLeg (leg : LegRecord) : DialLeg :=
  { pendingKey := leg.key, userId := leg.userId, sipTarget := leg.sipTarget, source := leg.source }

def dialLegFor (target : DialTarget) (nowMs : ℤ) (uuid : String) : LegRecord :=
  freshLeg uuid target.userId target.sipUsername .engine nowMs

/-- Arm the next cascade step, but never past the ring window. -/
def armRingStep (m : SessionMachine) (nowMs : ℤ) : List Effect :=
  if m.queuedTargets.length = 0 then []
  else
    let atMs := nowMs + RING_STEP_SECS * 1000
    match m.ringDeadlineMs with
    | some deadline => if atMs ≥ deadline then [] else [.armAlarm .ringStep atMs]
    | none => [.armAlarm .ringStep atMs]

/-- The window, bounded to what the legs can stay alive for; `Math.round` rounds a half up. -/
def ringWindowMs (seconds : Option ℚ) : ℤ :=
  let bounded := match seconds with
    | some s => min RING_WINDOW_SECS (max 10 ⌊s + 1 / 2⌋)
    | none => RING_WINDOW_SECS
  bounded * 1000

/-- The UTF-16 code units of a string, as `charCodeAt` reads them. -/
def utf16 (s : String) : List ℕ :=
  s.toList.flatMap fun c =>
    if c.toNat < 0x10000 then [c.toNat]
    else [0xD800 + (c.toNat - 0x10000) / 0x400, 0xDC00 + (c.toNat - 0x10000) % 0x400]

/-- One FNV-1a turn in JavaScript's 32-bit signed arithmetic. -/
def fnvTurn (hash : ℤ) (unit : ℕ) : ℤ :=
  ((BitVec.ofInt 32 hash ^^^ BitVec.ofNat 32 unit) * 16777619#32).toInt

/-- Which of an over-sized crew is rung on this call: a rotation seeded by the session. -/
def rotateForFairness {α : Type} (items : List α) (seed : String) : List α :=
  let offset := ((utf16 seed).foldl fnvTurn 2166136261).natAbs % items.length
  items.drop offset ++ items.take offset

/-! ### The mints -/

def inboundBase (context : InitiatedContext) (nowMs : ℤ) : SessionMachine :=
  { state := .ringing
    callSessionId := context.callSessionId
    companyId := context.companyId
    phoneNumberId := some context.phoneNumberId
    companyName := context.companyName
    locale := context.locale
    greeting := context.greeting
    callerE164 := context.callerE164
    businessNumberE164 := some context.businessNumberE164
    customerCcid := some context.inboundCcid
    direction := .inbound
    startedAtMs := nowMs
    answeredByUserId := none
    answeredAtIso := none
    rejectedForCap := false
    unattended := false
    noticeSpoken := false
    wakeAttempted := false
    ownerLegDeadDuringIntent := none
    afterHours := context.afterHours
    nextOpenLabel := context.nextOpenLabel
    adopted := false
    pushCapableUserIds := context.pushAudience
    declinedUserIds := []
    ringDeadlineMs := none
    queuedTargets := []
    telnyxCommandCount := 0
    legs := []
    intent := none
    answerIntent := none }

def overCapWarning (count : ℕ) : Effect :=
  .warn ("calls-v3 RING-START: " ++ toString count ++ " eligible targets exceed " ++
    "MAX_LEGS_PER_SESSION=" ++ toString MAX_LEGS_PER_SESSION ++ " — dialing " ++
    toString MAX_LEGS_PER_SESSION ++ " chosen by a per-session rotation " ++
    "(alert-before-the-cap)")

/-- The phones this call may ring: all of them, or a rotation of an over-sized crew. -/
def ringTargets (context : InitiatedContext) : List DialTarget :=
  if context.dialTargets.length > MAX_LEGS_PER_SESSION then
    (rotateForFairness context.dialTargets context.callSessionId).take MAX_LEGS_PER_SESSION
  else context.dialTargets

/-- The phones that ring at once; under `in_turn` the rest join later. -/
def ringNow (context : InitiatedContext) : List DialTarget :=
  if context.ringStrategy = .inTurn ∧ (ringTargets context).length > 1 then
    (ringTargets context).take 1
  else ringTargets context

def ringStart (context : InitiatedContext) (nowMs : ℤ) (pendingKeyFor : ℕ → String) :
    SessionMachine × List Effect :=
  let deadline := nowMs + ringWindowMs context.ringSeconds
  let legs := (ringNow context).zipIdx.map fun target =>
    dialLegFor target.1 nowMs (pendingKeyFor target.2)
  let m := { inboundBase context nowMs with
    queuedTargets := (ringTargets context).drop (ringNow context).length
    legs := legs
    ringDeadlineMs := some deadline }
  (m,
    (if context.dialTargets.length > MAX_LEGS_PER_SESSION then
      [overCapWarning context.dialTargets.length] else []) ++
    [.mirror { state := some .ringing } false] ++
    (if legs.length > 0 then [.telnyxDial (legs.map LegRecord.toDialLeg)] else []) ++
    [.pushFanout context.pushAudience,
      .armAlarm .fanoutSettle (nowMs + FANOUT_SETTLE_MS), .armAlarm .ring deadline] ++
    armRingStep m nowMs)

/-- The suspended-line branch of the mint: the call is turned away, with a spoken notice when
the daily cap allows one. -/
def suspendedStart (context : InitiatedContext) (nowMs : ℤ) : SessionMachine × List Effect :=
  let speak := context.noticeAllowed && context.inboundCcid != ""
  ({ inboundBase context nowMs with unattended := true, noticeSpoken := speak },
    [.mirror { state := some .ringing, unattended := some true, noticeSpoken := some speak }
      false] ++ (if speak then [.telnyxAnswerNotice context.inboundCcid] else []))

/-- The over-cap branch of the mint: the call is rejected as busy. -/
def overCapStart (context : InitiatedContext) (nowMs : ℤ) : SessionMachine × List Effect :=
  ({ inboundBase context nowMs with rejectedForCap := true },
    [.telnyxReject context.inboundCcid .userBusy, .mirror { state := some .ringing } false])

/-- The branches of the inbound mint, in the source's order. -/
def initiatedBranch (context : InitiatedContext) (nowMs : ℤ) (pendingKeyFor : ℕ → String) :
    SessionMachine × List Effect :=
  if context.lineBusy || context.screeningDivert || context.afterHoursVoicemail then
    vmEntry (inboundBase context nowMs)
  else if context.suspendedOrInactive then suspendedStart context nowMs
  else if context.overCap then overCapStart context nowMs
  else if context.dialTargets.length = 0 ∧ context.pushAudience.length = 0 then
    vmEntry (inboundBase context nowMs)
  else ringStart context nowMs pendingKeyFor

def reduceInitiated (context : InitiatedContext) (nowMs : ℤ) (pendingKeyFor : ℕ → String) :
    SessionMachine × List Effect :=
  let r := initiatedBranch context nowMs pendingKeyFor
  (r.1, .armAlarm .janitor (nowMs + JANITOR_MS) :: r.2)

def outboundBase (context : OutboundInitiatedContext) (nowMs : ℤ) : SessionMachine :=
  { state := .dialing
    callSessionId := context.callSessionId
    companyId := context.companyId
    phoneNumberId := some context.phoneNumberId
    companyName := ""
    locale := none
    greeting := none
    afterHours := false
    nextOpenLabel := none
    callerE164 := context.customer
    businessNumberE164 := context.businessNumberE164
    customerCcid := some context.customerCcid
    direction := .outbound
    startedAtMs := nowMs
    answeredByUserId := context.userId
    answeredAtIso := none
    rejectedForCap := false
    unattended := false
    noticeSpoken := false
    wakeAttempted := false
    ownerLegDeadDuringIntent := none
    adopted := false
    pushCapableUserIds := []
    declinedUserIds := []
    ringDeadlineMs := none
    queuedTargets := []
    telnyxCommandCount := 0
    legs := []
    intent := none
    answerIntent := none }

def reduceOutboundInitiated (context : OutboundInitiatedContext) (nowMs : ℤ)
    (pendingKeyFor : ℕ → String) : SessionMachine × List Effect :=
  let base := outboundBase context nowMs
  let effects : List Effect :=
    [.mirror { state := some .dialing, answeredByUserId := some context.userId } false,
      .armAlarm .janitor (nowMs + JANITOR_MS)]
  match truthy context.placerSipUsername, truthy context.userId with
  | some placerSipUsername, some userId =>
      let leg := freshLeg (pendingKeyFor 0) userId placerSipUsername .engine nowMs
      ({ base with legs := [leg] },
        effects ++ [.telnyxDialPlacer leg.key userId leg.sipTarget])
  | _, _ =>
      (base, effects ++ [.warn ("#213 outbound " ++ context.callSessionId ++
        ": no placer SIP credential — " ++
        "cannot ring the placer; the oc leg / janitor will resolve the session")])

/-! ### Resolving the leg an event names -/

/-- A pending or ambiguous record that an event about an unknown ccid may adopt: dialed for the
tag's user, and to the destination the event reports. -/
def adoptable (userId : String) (destination : Option String) (entry : LegRecord) : Bool :=
  entry.ccid.isNone && (entry.status == .dialing || entry.status == .ambiguous) &&
    entry.userId == userId && (destination.isNone || some entry.sipTarget == destination)

/-- Attach a ccid to the first record that may adopt it. -/
def adoptLeg (m : SessionMachine) (ccid userId : String) (destination : Option String)
    (wake : LegStatus → LegStatus) : SessionMachine :=
  { m with
    legs := updateFirst (adoptable userId destination)
      (fun candidate => { candidate with
        ccid := some ccid, key := legKey ccid, status := wake candidate.status }) m.legs }

/-- The machine after an event's ccid has been looked up, and adopted if it was unknown and the
event `mayAdopt`. -/
def resolveLeg (m : SessionMachine) (ccid userId : String) (destination : Option String)
    (mayAdopt : Bool) (wake : LegStatus → LegStatus) : SessionMachine :=
  match m.findLeg ccid with
  | some _ => m
  | none => if mayAdopt then adoptLeg m ccid userId destination wake else m

def wakeAmbiguous (s : LegStatus) : LegStatus := if s = .ambiguous then .ringing else s

/-! ### The handlers -/

def answeredPlacerCcid (m : SessionMachine) : Option String :=
  (m.legs.find? fun entry => entry.status == .answered && entry.ccid.isSome).bind LegRecord.ccid

def reduceOutboundAnswered (m : SessionMachine) (nowMs : ℤ) : SessionMachine × List Effect :=
  if m.direction != .outbound || m.state != .dialing then (m, [])
  else
    let answeredAtIso := toISOString nowMs
    ({ m with state := .answered, answeredAtIso := some answeredAtIso },
      [.mirror { state := some .answered, answeredAt := some (some answeredAtIso) } false] ++
        match truthy (answeredPlacerCcid m), truthy m.customerCcid with
        | some placerCcid, some customerCcid => [.telnyxBridge placerCcid customerCcid]
        | _, _ => [])

def reduceOutboundPlacerAnswered (m : SessionMachine) (ccid userId : String)
    (destination : Option String) : SessionMachine × List Effect :=
  if m.direction != .outbound || isTerminal m.state then (m, [.telnyxHangup ccid true])
  else
    let next := resolveLeg m ccid userId destination true id
    match next.findLeg ccid with
    | none => (next, [.telnyxHangup ccid false])
    | some leg =>
      if leg.status == .answered then (next, [])
      else
        (next.setLegStatus ccid .answered,
          ifTruthy next.customerCcid fun customerCcid => .telnyxBridge ccid customerCcid)

def reduceOutboundPlacerHangup (m : SessionMachine) (ccid userId : String) (nowMs : ℤ) :
    SessionMachine × List Effect :=
  if isTerminal m.state then (m, [])
  else
    -- the leg is marked dead if it is known, and the handler goes on in either case
    let next := m.setLegStatus ccid .dead
    if next.answeredByUserId != none && next.answeredByUserId != some userId then (next, [])
    else if next.state = .answered then
      if next.intent != none then ({ next with ownerLegDeadDuringIntent := some userId }, [])
      else ownerDeathTeardown next
    else
      let ended := terminalize next nowMs .endedMissed (some (syntheticMerge .missed none)) none {}
      (ended.1, ended.2 ++ ifTruthy ended.1.customerCcid fun c => .telnyxHangup c true)

def reduceOutboundHangup (m : SessionMachine) (payload : Option Payload) (nowMs : ℤ) :
    SessionMachine × List Effect :=
  if isTerminal m.state then (m, [])
  else
    let answered := m.answeredAtIso.isSome
    terminalize m nowMs (if answered then .endedAnswered else .endedMissed)
      (some (eventMerge (if answered then .answered else .missed) payload m.answeredAtIso)) none {}

/-- The warning about a member leg nobody dialed. -/
def orphanWarning (userId : String) : Effect :=
  .warn ("calls-v3: orphan brm call.answered with no matching pending/" ++
    "ambiguous record (user " ++ userId ++ ") — defensively hung up " ++
    "(§7.7 forgery gate)")

def beginAnswer (m : SessionMachine) (ccid userId : String) (answeredAtIso : String) :
    SessionMachine × List Effect :=
  let intent : AnswerIntent :=
    { memberCcid := ccid, userId := userId, answeredAtIso := answeredAtIso }
  ({ m with answerIntent := some intent },
    ifTruthy m.customerCcid fun customerCcid => .telnyxAnswerInbound customerCcid intent)

def reduceMemberAnswered (m : SessionMachine) (ccid userId : String)
    (destination : Option String) (clockMs : ℤ) : SessionMachine × List Effect :=
  let next := resolveLeg m ccid userId destination (m.state == .ringing) wakeAmbiguous
  match next.findLeg ccid with
  | none => (next, [.telnyxHangup ccid false, orphanWarning userId])
  | some leg =>
    if next.state != .ringing || !leg.status.isLive then
      (next, if !isTerminal next.state && next.state != .ringing then
        [.telnyxHangup ccid false] else [])
    else if leg.status == .canceling then (next, [.telnyxProbeMemberLeg ccid userId])
    else beginAnswer next ccid userId (toISOString clockMs)

/-- One turn of the loop that cancels the winner's siblings. -/
def cancelSibling (memberCcid : String) (leg : LegRecord) : LegRecord × List Effect :=
  if leg.ccid == some memberCcid then (leg, []) else cancelLeg false leg

/-- The member whose answer came to nothing: unless it is dead its leg is hung up. -/
def doomMember (m : SessionMachine) (memberCcid : String) : SessionMachine × List Effect :=
  match m.findLeg memberCcid with
  | some leg =>
    if leg.status != .dead then
      (m.setLegStatus memberCcid .canceling, [.telnyxHangup memberCcid true])
    else (m, [])
  | none => (m, [])

def reduceAnswerOutcome (m : SessionMachine) (ok : Bool)
    (memberCcid userId answeredAtIso : String) (nowMs : ℤ) : SessionMachine × List Effect :=
  if m.state != .ringing then (m, [])
  else if !ok then
    let doomed := doomMember m memberCcid
    let ended := terminalize doomed.1 nowMs (missedState doomed.1)
      (some (syntheticMerge .missed none)) (some .missed) {}
    (ended.1, doomed.2 ++ ended.2)
  else
    let won := { m with
      state := .answered, answeredByUserId := some userId, answeredAtIso := some answeredAtIso
      ringDeadlineMs := none }
    let swept := sweepLegs (cancelSibling memberCcid) (won.setLegStatus memberCcid .answered)
    ({ swept.1 with answerIntent := none },
      [.mirror { state := some .answered, answeredByUserId := some (some userId)
                 answeredAt := some (some answeredAtIso) } false] ++
        (ifTruthy m.customerCcid fun customerCcid => .telnyxBridge memberCcid customerCcid) ++
        swept.2 ++
        [.threadAtAnswer, .clearAlarm .ring, .clearAlarm .fanoutSettle, .pushCallEnd .answered])

def reduceMemberHangup (m : SessionMachine) (ccid userId : String)
    (destination : Option String) : SessionMachine × List Effect :=
  let next := resolveLeg m ccid userId destination (m.state == .ringing) id
  match next.findLeg ccid with
  | none => (next, [])
  | some leg =>
    if next.state = .answered ∧ leg.status = .answered then
      let bereft := next.setLegStatus ccid .dead
      if bereft.answeredByUserId != some userId then (bereft, [])
      else if bereft.intent != none then
        ({ bereft with ownerLegDeadDuringIntent := some userId }, [])
      else ownerDeathTeardown bereft
    else if next.state != .ringing then (next.setLegStatus ccid .dead, [])
    else runAvenueLadder (next.setLegStatus ccid .dead)

/-- The stamp of a retained answer intent, put on a machine that nobody owns yet. -/
def stampFromIntent (m : SessionMachine) : SessionMachine :=
  match m.answeredByUserId, m.answerIntent with
  | none, some intent =>
      { m with answeredByUserId := some intent.userId,
               answeredAtIso := some intent.answeredAtIso }
  | _, _ => m

def ownerMirror (m : SessionMachine) : MirrorSet :=
  match truthy m.answeredByUserId with
  | some userId =>
      { answeredByUserId := some (some userId), answeredAt := some m.answeredAtIso }
  | none => {}

/-- The billing anchor of a bri-tagged hangup: the tag's own, else the retained intent's. -/
def briAnchor (m : SessionMachine) (briAnsweredAtIso : Option String) : Option String :=
  briAnsweredAtIso.or (m.answerIntent.map AnswerIntent.answeredAtIso)

/-- The alert of an upgrade that nobody can be credited with. -/
def upgradeWarning : Effect :=
  .warn ("calls-v3 T17 upgrade: bri-tagged hangup in ended_missed with no " ++
    "retained answerIntent — outcome upgraded unattributed (audit anomaly)")

/-- The alert of a bridged hangup that nobody can be credited with. -/
def unattributedWarning : Effect :=
  .warn ("calls-v3 T17: bri-tagged inbound hangup with no answer stamp and " ++
    "no retained answerIntent — terminal ended_answered stamped " ++
    "unattributed (audit anomaly, never a stuck line)")

/-- The alert of an untagged hangup where the tag ought to be `bri`. -/
def untaggedWarning : Effect :=
  .warn ("calls-v3 T17: UNTAGGED inbound hangup in state=answered " ++
    "(theoretically unreachable) — resolved ended_answered per T8 semantics")

/-- A hangup of the customer leg on a session that has already ended: the one upgrade. -/
def reduceLateInboundHangup (m : SessionMachine) (tag : HangupTag)
    (briAnsweredAtIso : Option String) (payload : Option Payload) :
    SessionMachine × List Effect :=
  if tag = .bri ∧ m.state = .endedMissed then
    let stamped : SessionMachine × List Effect :=
      match m.answerIntent with
      | some intent => ({ m with answeredByUserId := some intent.userId,
                                 answeredAtIso := some intent.answeredAtIso }, [])
      | none => (m, [upgradeWarning])
    ({ stamped.1 with state := .endedAnswered },
      stamped.2 ++
        [.mirror { ownerMirror stamped.1 with state := some .endedAnswered } true,
          .terminalMerge (eventMerge .answered payload (briAnchor m briAnsweredAtIso))])
  else (m, [])

def reduceInboundHangup (m : SessionMachine) (tag : HangupTag) (briAnsweredAtIso : Option String)
    (payload : Option Payload) (nowMs : ℤ) : SessionMachine × List Effect :=
  if isTerminal m.state then reduceLateInboundHangup m tag briAnsweredAtIso payload
  else
    match tag with
    | .bri =>
        let next := stampFromIntent m
        let ended := terminalize next nowMs .endedAnswered
          (some (eventMerge .answered payload (briAnchor next briAnsweredAtIso)))
          (some .answered) (ownerMirror next)
        (ended.1,
          (if next.answeredByUserId = none then [unattributedWarning] else []) ++ ended.2)
    | .vmi =>
        terminalize m nowMs .endedMissed (some (eventMerge .missed payload none))
          (some .missed) {}
    | .untagged =>
        if m.state = .answered then
          let ended := terminalize m nowMs .endedAnswered
            (some (eventMerge .answered payload m.answeredAtIso)) none {}
          (ended.1, untaggedWarning :: ended.2)
        else if m.state = .voicemailGreeting ∨ m.state = .voicemailRecording then
          terminalize m nowMs .endedMissed (some (eventMerge .missed payload none)) none {}
        else
          terminalize m nowMs (missedState m) (some (eventMerge .missed payload none))
            (some .missed) {}

def reduceSpeakEnded (m : SessionMachine) : SessionMachine × List Effect :=
  if m.noticeSpoken then (m, ifTruthy m.customerCcid fun ccid => .telnyxHangup ccid true)
  else if m.state != .voicemailGreeting then (m, [])
  else
    ({ m with state := .voicemailRecording },
      .mirror { state := some .voicemailRecording } false ::
        ifTruthy m.customerCcid .telnyxRecordStart)

def reduceRecordingSaved (m : SessionMachine) (payload : Payload) (nowMs : ℤ) :
    SessionMachine × List Effect :=
  if m.state != .voicemailRecording && m.state != .endedMissed then (m, [])
  else
    ({ m with state := .endedVoicemail, ringDeadlineMs := none },
      [.voicemailPipeline payload, .mirror { state := some .endedVoicemail } true] ++
        if m.state = .voicemailRecording then [.armAlarm .purge (nowMs + PURGE_DELAY_MS)] else [])

def ringMeRefusal (m : SessionMachine) (userId : String) (noLocalLeg : Bool) (nowMs : ℤ) :
    Option RingMeReason :=
  let memberLive := m.legs.filter fun leg => leg.userId == userId && leg.status.isLive
  if m.state != .ringing then some .notRinging
  else if m.declinedUserIds.contains userId then some .declined
  else if !noLocalLeg && memberLive.length > 0 then some .liveLeg
  else if noLocalLeg && memberLive.any (fun leg => leg.source == .ringMe &&
      nowMs - leg.dialedAtMs < RING_ME_DEBOUNCE_MS) then some .recentLeg
  else if m.legs.length ≥ MAX_LEGS_PER_SESSION then some .dialFailed
  else none

def ringMeCapWarning : Effect :=
  .warn ("calls-v3 ring-me: session at MAX_LEGS_PER_SESSION=" ++
    toString MAX_LEGS_PER_SESSION ++ " — refusing the dial (cap-and-drop)")

def reduceRingMe (m : SessionMachine) (userId sipUsername : String) (noLocalLeg : Bool)
    (nowMs : ℤ) (pendingKeyFor : ℕ → String) : Reduced :=
  match ringMeRefusal m userId noLocalLeg nowMs with
  | some reason =>
      { machine := m
        effects := if reason = .dialFailed then [ringMeCapWarning] else []
        reply := some (.ringMe false m.state (some reason) none) }
  | none =>
      let leg := freshLeg (pendingKeyFor 0) userId sipUsername .ringMe nowMs
      { machine := { m with legs := m.legs ++ [leg] }
        effects := [.telnyxDial [leg.toDialLeg]]
        reply := some (.ringMe true .ringing none (some leg.key)) }

/-- Did this ring ever reach this member? -/
def wasRingTarget (m : SessionMachine) (userId : String) : Bool :=
  m.legs.any (fun leg => leg.userId == userId) ||
    m.queuedTargets.any (fun target => target.userId == userId) ||
    m.pushCapableUserIds.contains userId || m.declinedUserIds.contains userId

/-- One turn of the loop that drops the decliner's legs: dead at once, not canceling. -/
def declineLeg (userId : String) (leg : LegRecord) : LegRecord × List Effect :=
  if leg.userId == userId && leg.status.isLive then
    ({ leg with status := .dead }, ifTruthy leg.ccid fun ccid => .telnyxHangup ccid false)
  else (leg, [])

/-- The machine a decline leaves before the ladder runs: the member is recorded as a decliner and
taken out of all three avenues. -/
def withoutMember (m : SessionMachine) (userId : String) : SessionMachine × List Effect :=
  let declined := if m.declinedUserIds.contains userId then m.declinedUserIds
    else m.declinedUserIds ++ [userId]
  let swept := sweepLegs (declineLeg userId) m
  ({ swept.1 with
      declinedUserIds := declined
      pushCapableUserIds := m.pushCapableUserIds.filter fun u => u != userId
      queuedTargets := m.queuedTargets.filter fun target => target.userId != userId },
    swept.2)

def reduceDecline (m : SessionMachine) (userId : String) : Reduced :=
  if m.state != .ringing then
    { machine := m, effects := [], reply := some (.decline false m.state (some .notRinging)) }
  else if !wasRingTarget m userId then
    { machine := m, effects := [], reply := some (.decline false m.state (some .notATarget)) }
  else
    let dropped := withoutMember m userId
    let laddered := runAvenueLadder dropped.1
    { machine := laddered.1
      effects := dropped.2 ++ laddered.2
      reply := some (.decline true laddered.1.state none) }

/-- The next phone joins the ring. -/
def reduceAlarmRingStep (m : SessionMachine) (nowMs : ℤ) (pendingKeyFor : ℕ → String) :
    SessionMachine × List Effect :=
  if m.state != .ringing then (m, [])
  else
    let waiting := m.queuedTargets.filter fun candidate =>
      !m.declinedUserIds.contains candidate.userId
    let droppedDecliners := waiting.length < m.queuedTargets.length
    match waiting with
    | [] => if droppedDecliners then runAvenueLadder { m with queuedTargets := [] } else (m, [])
    | target :: rest =>
        let next := { m with queuedTargets := rest }
        if m.legs.length ≥ MAX_LEGS_PER_SESSION then (next, [])
        else
          let leg := dialLegFor target nowMs (pendingKeyFor 0)
          let dialed := { next with legs := m.legs ++ [leg] }
          (dialed, .telnyxDial [leg.toDialLeg] :: armRingStep dialed nowMs)

def reduceAlarmRing (m : SessionMachine) : SessionMachine × List Effect :=
  if m.state != .ringing then (m, []) else vmEntry m

/-- The janitor's forced resolution, by state. -/
def reduceAlarmJanitor (m : SessionMachine) (nowMs : ℤ) : SessionMachine × List Effect :=
  if isTerminal m.state then (m, [])
  else if m.state = .ringing then
    terminalize m nowMs (missedState m) (some (syntheticMerge .missed none)) (some .missed) {}
  else if m.state = .answered then
    terminalize m nowMs .endedAnswered (some (syntheticMerge .answered m.answeredAtIso)) none {}
  else terminalize m nowMs .endedMissed (some (syntheticMerge .missed none)) none {}

/-- `clear-intent` and the intent-expiry alarm: the intent goes, and a customer whose owner died
under it is hung up. -/
def reduceIntentOver (m : SessionMachine) : SessionMachine × List Effect :=
  let next := { m with intent := none }
  if next.state = .answered ∧ next.ownerLegDeadDuringIntent ≠ none ∧
      next.ownerLegDeadDuringIntent = next.answeredByUserId then
    let torn := ownerDeathTeardown next
    (torn.1, .clearAlarm .intentExpiry :: torn.2)
  else ({ next with ownerLegDeadDuringIntent := none }, [.clearAlarm .intentExpiry])

def reduceNoticeAnswerOutcome (m : SessionMachine) (ok : Bool) : SessionMachine × List Effect :=
  if !m.noticeSpoken then (m, [])
  else
    match ok, truthy m.customerCcid with
    | true, some ccid => (m, [.telnyxSpeak ccid .unavailableNotice])
    | _, _ => ({ m with noticeSpoken := false }, [.mirror { noticeSpoken := some false } false])

def reduceVmAnswerOutcome (m : SessionMachine) (ok : Bool) (nowMs : ℤ) :
    SessionMachine × List Effect :=
  if m.state != .voicemailGreeting then (m, [])
  else if ok then
    let swept := cancelAllLiveLegs m true
    (swept.1, (ifTruthy m.customerCcid fun ccid => .telnyxSpeak ccid .voicemailGreeting) ++ swept.2)
  else terminalize m nowMs (missedState m) (some (syntheticMerge .missed none)) none {}

def reducePushFanoutSettled (m : SessionMachine) (unreachableUserIds : List String) :
    SessionMachine × List Effect :=
  let pruned := runAvenueLadder { m with
    wakeAttempted := true
    pushCapableUserIds := m.pushCapableUserIds.filter fun u => !unreachableUserIds.contains u }
  (pruned.1, .clearAlarm .fanoutSettle :: pruned.2)

def updateLegByKey (m : SessionMachine) (key : String) (f : LegRecord → LegRecord) :
    SessionMachine :=
  { m with legs := updateFirst (fun entry => entry.key == key) f m.legs }

def landLeg (ccid : String) (leg : LegRecord) : LegRecord :=
  { leg with ccid := some ccid, key := legKey ccid,
             status := if leg.status = .dialing then .ringing else leg.status }

def failedStatus (failure : Option DialFailure) : LegStatus :=
  if failure = some .ambiguous then .ambiguous else .dead

def failLeg (failure : Option DialFailure) (leg : LegRecord) : LegRecord :=
  { leg with status := failedStatus failure }

def reduceDialOutcome (m : SessionMachine) (key : String) (ccid : Option String)
    (failure : Option DialFailure) (nowMs : ℤ) : SessionMachine × List Effect :=
  match m.legs.find? fun entry => entry.key == key with
  | none => (m, [])
  | some _ =>
    match truthy ccid with
    | some landed => (updateLegByKey m key (landLeg landed), [])
    | none =>
      let next := updateLegByKey m key (failLeg failure)
      if next.direction = .outbound then
        if failure = some .knownDead ∧ !isTerminal next.state then
          let ended := terminalize next nowMs .endedMissed (some (syntheticMerge .missed none))
            none {}
          (ended.1, ended.2 ++ ifTruthy ended.1.customerCcid fun c => .telnyxHangup c true)
        else (next, [])
      else runAvenueLadder next

def reduceInboundLegGone (m : SessionMachine) (nowMs : ℤ) : SessionMachine × List Effect :=
  if m.state != .answered then (m, [])
  else
    terminalize m nowMs .endedAnswered (some (syntheticMerge .answered m.answeredAtIso)) none {}

def reduceMemberProbeOutcome (m : SessionMachine) (ccid userId : String) (alive : Bool)
    (nowMs : ℤ) : SessionMachine × List Effect :=
  if m.state != .ringing then (m, [])
  else
    match m.findLeg ccid with
    | none => (m, [])
    | some _ =>
      if !alive then runAvenueLadder (m.setLegStatus ccid .dead)
      else beginAnswer m ccid userId (toISOString nowMs)

/-! ### The transition function -/

/-- A result without a reply. -/
def quiet (r : SessionMachine × List Effect) : Reduced :=
  { machine := r.1, effects := r.2 }

/-- Every event on a machine that exists; the two mint events are replays there. -/
def reduceMachine (m : SessionMachine) (event : SessionEvent) (nowMs clockMs : ℤ)
    (pendingKeyFor : ℕ → String) : Reduced :=
  match event with
  | .initiated _ | .outboundInitiated _ => quiet (m, [])
  | .memberLegAnswered ccid userId destination =>
      quiet (reduceMemberAnswered m ccid userId destination clockMs)
  | .memberLegHangup ccid userId destination =>
      quiet (reduceMemberHangup m ccid userId destination)
  | .inboundHangup tag briAnsweredAtIso payload =>
      quiet (reduceInboundHangup m tag briAnsweredAtIso payload nowMs)
  | .outboundAnswered => quiet (reduceOutboundAnswered m nowMs)
  | .outboundHangup payload => quiet (reduceOutboundHangup m payload nowMs)
  | .outboundPlacerAnswered ccid userId destination =>
      quiet (reduceOutboundPlacerAnswered m ccid userId destination)
  | .outboundPlacerHangup ccid userId => quiet (reduceOutboundPlacerHangup m ccid userId nowMs)
  | .speakEnded => quiet (reduceSpeakEnded m)
  | .recordingSaved payload => quiet (reduceRecordingSaved m payload nowMs)
  | .ringMe userId sipUsername noLocalLeg =>
      reduceRingMe m userId sipUsername noLocalLeg nowMs pendingKeyFor
  | .setOwner userId =>
      quiet ({ m with answeredByUserId := some userId, ownerLegDeadDuringIntent := none },
        [.mirror { answeredByUserId := some (some userId) } false])
  | .registerIntent kind targetUserId =>
      { machine := { m with intent := some { kind := kind, targetUserId := targetUserId } }
        effects := [.armAlarm .intentExpiry (nowMs + INTENT_EXPIRY_MS)]
        reply := some (.state m.state) }
  | .clearIntent | .alarmIntentExpiry => quiet (reduceIntentOver m)
  | .decline userId => reduceDecline m userId
  | .alarmRingStep => quiet (reduceAlarmRingStep m nowMs pendingKeyFor)
  | .alarmRing => quiet (reduceAlarmRing m)
  | .alarmJanitor => quiet (reduceAlarmJanitor m nowMs)
  | .answerOutcome ok memberCcid userId answeredAtIso =>
      quiet (reduceAnswerOutcome m ok memberCcid userId answeredAtIso nowMs)
  | .noticeAnswerOutcome ok => quiet (reduceNoticeAnswerOutcome m ok)
  | .vmAnswerOutcome ok => quiet (reduceVmAnswerOutcome m ok nowMs)
  | .pushFanoutSettled unreachableUserIds =>
      quiet (reducePushFanoutSettled m unreachableUserIds)
  | .dialOutcome key ccid failure => quiet (reduceDialOutcome m key ccid failure nowMs)
  | .inboundLegGone => quiet (reduceInboundLegGone m nowMs)
  | .memberProbeOutcome ccid userId alive =>
      quiet (reduceMemberProbeOutcome m ccid userId alive nowMs)

def Reduced.toResult (r : Reduced) : ReduceResult :=
  { machine := some r.machine, effects := r.effects, reply := r.reply }

/-- **The transition function.** -/
def reduce (machine : Option SessionMachine) (event : SessionEvent) (nowMs clockMs : ℤ)
    (pendingKeyFor : ℕ → String) : ReduceResult :=
  match machine, event with
  | none, .initiated context =>
      (quiet (reduceInitiated context nowMs pendingKeyFor)).toResult
  | none, .outboundInitiated context =>
      (quiet (reduceOutboundInitiated context nowMs pendingKeyFor)).toResult
  | none, _ => { machine := none, effects := [] }
  | some m, event => (reduceMachine m event nowMs clockMs pendingKeyFor).toResult

/-! ### Runs of the reducer -/

/-- Everything one call of `reduce` reads besides the machine. -/
structure Input where
  event : SessionEvent
  nowMs : ℤ
  clockMs : ℤ
  pendingKeyFor : ℕ → String

/-- `reduce` as the step of a reactive system: its states are the machine or none, its inputs the
events with the clocks and keys of their call, its outputs the effects. -/
def reduceStep (machine : Option SessionMachine) (i : Input) :
    Option SessionMachine × List Effect :=
  let r := reduce machine i.event i.nowMs i.clockMs i.pendingKeyFor
  (r.machine, r.effects)

def machineStep (m : SessionMachine) (i : Input) : SessionMachine × List Effect :=
  let r := reduceMachine m i.event i.nowMs i.clockMs i.pendingKeyFor
  (r.machine, r.effects)

/-- The two events that mint a machine. -/
inductive Mint
  | inbound (context : InitiatedContext)
  | outbound (context : OutboundInitiatedContext)

def Mint.event : Mint → SessionEvent
  | .inbound context => .initiated context
  | .outbound context => .outboundInitiated context

def Mint.start (mint : Mint) (nowMs : ℤ) (pendingKeyFor : ℕ → String) :
    SessionMachine × List Effect :=
  match mint with
  | .inbound context => reduceInitiated context nowMs pendingKeyFor
  | .outbound context => reduceOutboundInitiated context nowMs pendingKeyFor

/-- A run of the reducer: a mint, and the inputs that follow it. -/
structure CallRun where
  mint : Mint
  nowMs : ℤ
  clockMs : ℤ
  pendingKeyFor : ℕ → String
  inputs : List Input

namespace CallRun

def start (r : CallRun) : SessionMachine × List Effect := r.mint.start r.nowMs r.pendingKeyFor

def machine (r : CallRun) : SessionMachine := Reactive.final machineStep r.start.1 r.inputs

/-- Every effect emitted along the run, the mint's included. -/
def effects (r : CallRun) : List Effect :=
  r.start.2 ++ Reactive.outputs machineStep r.start.1 r.inputs

def extend (r : CallRun) (is : List Input) : CallRun := { r with inputs := r.inputs ++ is }

theorem extend_machine (r : CallRun) (is : List Input) :
    (r.extend is).machine = Reactive.final machineStep r.machine is :=
  Reactive.final_append machineStep r.start.1 r.inputs is

end CallRun

/-- **The invariant rule for runs of the reducer.** -/
theorem CallRun.machine_inv {P : SessionMachine → Prop}
    (hmint : ∀ (mint : Mint) nowMs pendingKeyFor, P (mint.start nowMs pendingKeyFor).1)
    (hstep : ∀ m i, P m → P (machineStep m i).1) (r : CallRun) : P r.machine :=
  Reactive.final_of_inv machineStep hstep (hmint r.mint r.nowMs r.pendingKeyFor) r.inputs

/-! ### A call to a crew of one -/

def crewOfOne : InitiatedContext where
  callSessionId := "session"
  inboundCcid := "customer"
  companyId := "company"
  phoneNumberId := "number"
  companyName := "Crew of one"
  locale := none
  greeting := none
  callerE164 := some "+15550001111"
  businessNumberE164 := "+15550002222"
  lineBusy := false
  screeningDivert := false
  afterHours := false
  nextOpenLabel := none
  ringStrategy := .all
  ringSeconds := none
  afterHoursVoicemail := false
  suspendedOrInactive := false
  noticeAllowed := false
  overCap := false
  dialTargets := [⟨"ana", "ana-sip"⟩]
  pushAudience := []

end Calls
