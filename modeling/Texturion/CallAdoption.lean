/-
**Adoption.**

An object whose storage is empty reconstructs its machine from the call's row when anything but the
mint reaches it: `adoptFromRow` and `reconstructMachine` of `apps/api/src/calls/session-do.ts`.  The
row alone cannot tell an in-flight voicemail, so the event that triggered the adoption is looked at
too.  Nothing else is written: an adopted machine starts with an empty alarm table.

Main results:

* `Calls.reconstructMachine_terminal_iff` — the adopted machine is terminal exactly when the row
  has its outcome.
-/

import Texturion.CallSession

namespace Calls

/-! ### The row and the event -/

/-- One ringing leg of the ledger. -/
structure LedgerLeg where
  ccid : String
  userId : String
  state : String
  deriving DecidableEq

/-- The call's row, as the adoption loads it. -/
structure AdoptionRow where
  callSessionId : String
  companyId : String
  phoneNumberId : Option String
  callerE164 : Option String
  outcome : Option Outcome
  answeredAt : Option String
  answeredByUserId : Option String
  startedAtMs : ℤ
  customerCallControlId : Option String
  direction : Option String
  companyName : String
  greeting : Option String
  businessNumberE164 : Option String
  ledgerLegs : List LedgerLeg
  deriving DecidableEq

/-- The webhook that hits the empty object: its type, and the tag its leg carries. -/
structure TelnyxEvent where
  eventType : String
  tag : HangupTag
  deriving DecidableEq

/-- The greeting is over, played or spoken. -/
def TelnyxEvent.greetingEnded (e : TelnyxEvent) : Bool :=
  e.eventType == "call.speak.ended" || e.eventType == "call.playback.ended"

def TelnyxEvent.provesVoicemail (e : TelnyxEvent) : Bool :=
  e.greetingEnded || e.eventType == "call.recording.saved" ||
    (e.eventType == "call.hangup" && e.tag == .vmi)

/-! ### The machine -/

def endedState : Outcome → CallState
  | .answered => .endedAnswered
  | .voicemail => .endedVoicemail
  | .missed => .endedMissed

def adoptedInboundState (row : AdoptionRow) (raw : Option TelnyxEvent) : CallState :=
  if raw.any TelnyxEvent.provesVoicemail then
    if raw.any TelnyxEvent.greetingEnded then .voicemailGreeting else .voicemailRecording
  else if raw.any (fun e => e.eventType == "call.hangup" && e.tag == .bri) ∧
      truthy row.answeredAt = none then .ringing
  else if truthy row.answeredAt = none then .ringing else .answered

def adoptedState (row : AdoptionRow) (raw : Option TelnyxEvent) : CallState :=
  match row.outcome with
  | some outcome => endedState outcome
  | none =>
    if row.direction = some "outbound" then
      if truthy row.answeredAt = none then .dialing else .answered
    else adoptedInboundState row raw

def ledgerStatus (state : String) : LegStatus :=
  if state = "answered" then .answered else if state = "ringing" then .ringing else .dead

def adoptedLeg (startedAtMs : ℤ) (leg : LedgerLeg) : LegRecord where
  key := "leg:" ++ leg.ccid
  ccid := some leg.ccid
  userId := leg.userId
  status := ledgerStatus leg.state
  source := .engine
  dialedAtMs := startedAtMs
  sipTarget := ""

def reconstructMachine (row : AdoptionRow) (raw : Option TelnyxEvent) : SessionMachine where
  state := adoptedState row raw
  callSessionId := row.callSessionId
  companyId := row.companyId
  phoneNumberId := row.phoneNumberId
  companyName := row.companyName
  locale := none
  greeting := row.greeting
  callerE164 := row.callerE164
  businessNumberE164 := row.businessNumberE164
  customerCcid := row.customerCallControlId
  direction := if row.direction = some "outbound" then .outbound else .inbound
  startedAtMs := row.startedAtMs
  answeredByUserId := row.answeredByUserId
  answeredAtIso := row.answeredAt
  rejectedForCap := false
  unattended := false
  noticeSpoken := false
  wakeAttempted := false
  ownerLegDeadDuringIntent := none
  afterHours := false
  nextOpenLabel := none
  adopted := true
  pushCapableUserIds := []
  declinedUserIds := []
  ringDeadlineMs :=
    if adoptedState row raw = .ringing then some (row.startedAtMs + RING_WINDOW_SECS * 1000)
    else none
  queuedTargets := []
  telnyxCommandCount := 0
  legs := row.ledgerLegs.map (adoptedLeg row.startedAtMs)
  intent := none
  answerIntent := none

/-- The object that has just adopted its machine: nothing is armed. -/
def Session.adopted (row : AdoptionRow) (raw : Option TelnyxEvent) : Session where
  machine := some (reconstructMachine row raw)
  journal := []
  alarms := fun _ => none
  due := []

/-! ### The states an adopted machine may start in -/

theorem isTerminal_endedState (outcome : Outcome) : isTerminal (endedState outcome) = true := by
  cases outcome <;> rfl

theorem reconstructMachine_terminal_iff (row : AdoptionRow) (raw : Option TelnyxEvent) :
    isTerminal (reconstructMachine row raw).state = true ↔ row.outcome.isSome = true := by
  show isTerminal (adoptedState row raw) = true ↔ _
  unfold adoptedState adoptedInboundState
  cases row.outcome with
  | some outcome => simp [isTerminal_endedState]
  | none =>
      simp only
      split_ifs <;> simp [isTerminal]

end Calls
