/-
**The call session: states, events and effects.**

`apps/api/src/calls/transitions.ts` is the pure state machine behind one phone call.  This module
holds its data: the states of a call, the record of one ringing leg, the persisted machine, the
events the machine reacts to and the effects it asks its shell to run.  The transition function
itself is `Texturion/CallReduce.lean`.

A TypeScript `string | null` is an `Option String`; a test of its truth is `truthy`, which the
empty string fails.  The optional `queuedTargets` of a machine persisted by an older release reads
as the empty list wherever the source reads it, so it is a plain list here.  A JavaScript number
that only has to be finite is an `Option ℚ`, with `none` for the values that are not.

Main definitions:

* `Calls.CallState`, `Calls.isTerminal`, `Calls.outcomeForState` — the states and what each
  terminal one is billed as;
* `Calls.LegRecord`, `Calls.SessionMachine` — the persisted machine with its leg map;
* `Calls.SessionEvent` — the events, those of the outside world and the outcomes of effects;
* `Calls.Effect` — the effects, in the order the shell must run them.
-/

import Mathlib.Data.Rat.Defs
import Mathlib.Data.List.Basic

namespace Calls

/-! ### Constants -/

/-- The ring window's ceiling, and the default. -/
def RING_WINDOW_SECS : ℤ := 45

def RING_ME_DEBOUNCE_MS : ℤ := 4000

/-- The cap on the legs one session may ever record. -/
def MAX_LEGS_PER_SESSION : ℕ := 24

/-- Past it, commands drop except the terminal-path exemption class. -/
def MAX_TELNYX_COMMANDS_PER_SESSION : ℕ := 3 * MAX_LEGS_PER_SESSION + 16

/-- How long before the next phone joins the ring, under `in_turn`. -/
def RING_STEP_SECS : ℤ := 12

/-- The journal-resume alarm delay. -/
def JOURNAL_RESUME_MS : ℤ := 2000

/-- The fanout-settle alarm delay. -/
def FANOUT_SETTLE_MS : ℤ := 10000

/-- The storage purge delay after a terminal state. -/
def PURGE_DELAY_MS : ℤ := 15 * 60000

/-- The janitor's forced resolution. -/
def JANITOR_MS : ℤ := 4 * 60 * 60000

def INTENT_EXPIRY_MS : ℤ := (25 + 15) * 1000

/-! ### States -/

/-- The state of a call.  `dialing` is the one state only an outbound call is in. -/
inductive CallState
  | dialing
  | ringing
  | answered
  | voicemailGreeting
  | voicemailRecording
  | endedAnswered
  | endedVoicemail
  | endedMissed
  | endedRejected
  deriving DecidableEq

/-- The states whose name starts with `ended_`. -/
def isTerminal : CallState → Bool
  | .endedAnswered | .endedVoicemail | .endedMissed | .endedRejected => true
  | _ => false

/-- What a call was billed and reported as. -/
inductive Outcome
  | answered
  | voicemail
  | missed
  deriving DecidableEq

/-- The `outcome` column mirror of each terminal state. -/
def outcomeForState : CallState → Option Outcome
  | .endedAnswered => some .answered
  | .endedVoicemail => some .voicemail
  | .endedMissed | .endedRejected => some .missed
  | _ => none

/-! ### Legs -/

inductive LegStatus
  | dialing
  | ringing
  | canceling
  | answered
  | dead
  | ambiguous
  deriving DecidableEq

/-- `LIVE_LEG_STATUSES`: the statuses that hold the ring open. -/
def LegStatus.isLive : LegStatus → Bool
  | .dialing | .ringing | .canceling => true
  | _ => false

/-- The live statuses a cancel sweep still has to act on. -/
def LegStatus.isUp (s : LegStatus) : Bool := s.isLive && s != .canceling

inductive LegSource
  | engine
  | ringMe
  deriving DecidableEq

/-- One leg.  Its `key` is `leg:pending:` and a uuid before the dial returns, `leg:` and the
ccid after. -/
structure LegRecord where
  key : String
  ccid : Option String
  userId : String
  status : LegStatus
  source : LegSource
  dialedAtMs : ℤ
  sipTarget : String
  deriving DecidableEq

/-! ### The machine -/

inductive Direction
  | inbound
  | outbound
  deriving DecidableEq

inductive IntentKind
  | transfer
  | consult
  deriving DecidableEq

structure SessionIntent where
  kind : IntentKind
  targetUserId : String
  deriving DecidableEq

structure AnswerIntent where
  memberCcid : String
  userId : String
  answeredAtIso : String
  deriving DecidableEq

/-- A phone the ring may dial. -/
structure DialTarget where
  userId : String
  sipUsername : String
  deriving DecidableEq

/-- The persisted `machine` record with its leg map. -/
structure SessionMachine where
  state : CallState
  callSessionId : String
  companyId : String
  phoneNumberId : Option String
  companyName : String
  locale : Option String
  greeting : Option String
  callerE164 : Option String
  businessNumberE164 : Option String
  customerCcid : Option String
  direction : Direction
  startedAtMs : ℤ
  answeredByUserId : Option String
  answeredAtIso : Option String
  rejectedForCap : Bool
  unattended : Bool
  noticeSpoken : Bool
  wakeAttempted : Bool
  ownerLegDeadDuringIntent : Option String
  afterHours : Bool
  nextOpenLabel : Option String
  adopted : Bool
  pushCapableUserIds : List String
  declinedUserIds : List String
  ringDeadlineMs : Option ℤ
  queuedTargets : List DialTarget
  telnyxCommandCount : ℕ
  legs : List LegRecord
  intent : Option SessionIntent
  answerIntent : Option AnswerIntent
  deriving DecidableEq

/-! ### Events -/

inductive RingStrategy
  | all
  | inTurn
  deriving DecidableEq

/-- What the shell resolved before admitting `initiated`. -/
structure InitiatedContext where
  callSessionId : String
  inboundCcid : String
  companyId : String
  phoneNumberId : String
  companyName : String
  locale : Option String
  greeting : Option String
  callerE164 : Option String
  businessNumberE164 : String
  lineBusy : Bool
  screeningDivert : Bool
  afterHours : Bool
  nextOpenLabel : Option String
  ringStrategy : RingStrategy
  ringSeconds : Option ℚ
  afterHoursVoicemail : Bool
  suspendedOrInactive : Bool
  noticeAllowed : Bool
  overCap : Bool
  dialTargets : List DialTarget
  pushAudience : List String
  deriving DecidableEq

/-- What the shell resolved before minting an outbound machine. -/
structure OutboundInitiatedContext where
  callSessionId : String
  customerCcid : String
  companyId : String
  phoneNumberId : String
  userId : Option String
  placerSipUsername : Option String
  customer : Option String
  businessNumberE164 : Option String
  deriving DecidableEq

/-- The tag on the customer leg's own events: none, or the one our answer left on it. -/
inductive HangupTag
  | untagged
  | bri
  | vmi
  deriving DecidableEq

/-- A raw webhook payload, carried through the machine and never read by it. -/
structure Payload where
  json : String
  deriving DecidableEq

inductive DialFailure
  | knownDead
  | ambiguous
  deriving DecidableEq

/-- The events of the machine, in the source's order. -/
inductive SessionEvent
  | initiated (context : InitiatedContext)
  | memberLegAnswered (ccid userId : String) (destination : Option String)
  | memberLegHangup (ccid userId : String) (destination : Option String)
  | inboundHangup (tag : HangupTag) (briAnsweredAtIso : Option String) (payload : Option Payload)
  | speakEnded
  | noticeAnswerOutcome (ok : Bool)
  | recordingSaved (payload : Payload)
  | ringMe (userId sipUsername : String) (noLocalLeg : Bool)
  | setOwner (userId : String)
  | registerIntent (kind : IntentKind) (targetUserId : String)
  | clearIntent
  | decline (userId : String)
  | alarmRing
  | alarmRingStep
  | alarmJanitor
  | alarmIntentExpiry
  | answerOutcome (ok : Bool) (memberCcid userId answeredAtIso : String)
  | vmAnswerOutcome (ok : Bool)
  | pushFanoutSettled (unreachableUserIds : List String)
  | dialOutcome (pendingKey : String) (ccid : Option String) (failure : Option DialFailure)
  | memberProbeOutcome (ccid userId : String) (alive : Bool)
  | inboundLegGone
  | outboundInitiated (context : OutboundInitiatedContext)
  | outboundAnswered
  | outboundHangup (payload : Option Payload)
  | outboundPlacerAnswered (ccid userId : String) (destination : Option String)
  | outboundPlacerHangup (ccid userId : String)
  deriving DecidableEq

/-! ### Effects -/

inductive AlarmKind
  | ring
  | ringStep
  | janitor
  | purge
  | intentExpiry
  | fanoutSettle
  deriving DecidableEq

/-- The columns one mirror write carries; a column it does not carry is `none`. -/
structure MirrorSet where
  state : Option CallState := none
  answeredByUserId : Option (Option String) := none
  answeredAt : Option (Option String) := none
  unattended : Option Bool := none
  noticeSpoken : Option Bool := none
  deriving DecidableEq

/-- One leg of a `telnyx-dial` effect. -/
structure DialLeg where
  pendingKey : String
  userId : String
  sipTarget : String
  source : LegSource
  deriving DecidableEq

inductive RejectCause
  | userBusy
  deriving DecidableEq

inductive SpeakScript
  | voicemailGreeting
  | unavailableNotice
  deriving DecidableEq

inductive MergeMode
  | event
  | synthetic
  deriving DecidableEq

/-- The payload of a `terminal-merge` effect. -/
structure TerminalMerge where
  mode : MergeMode
  outcome : Outcome
  payload : Option Payload
  briAnsweredAtIso : Option String
  deriving DecidableEq

inductive Effect
  | mirror (set : MirrorSet) (terminal : Bool)
  | telnyxDial (legs : List DialLeg)
  | telnyxDialPlacer (pendingKey userId sipTarget : String)
  | telnyxAnswerInbound (ccid : String) (answerIntent : AnswerIntent)
  | telnyxAnswerVm (ccid : String)
  | telnyxAnswerNotice (ccid : String)
  | telnyxBridge (memberCcid customerCcid : String)
  | telnyxHangup (ccid : String) (terminal : Bool)
  | telnyxReject (ccid : String) (cause : RejectCause)
  | telnyxSpeak (ccid : String) (script : SpeakScript)
  | telnyxRecordStart (ccid : String)
  | telnyxProbeMemberLeg (ccid userId : String)
  | pushFanout (userIds : List String)
  | pushCallEnd (reason : Outcome)
  | threadAtAnswer
  | terminalMerge (merge : TerminalMerge)
  | voicemailPipeline (payload : Payload)
  | warn (message : String)
  | armAlarm (alarm : AlarmKind) (atMs : ℤ)
  | clearAlarm (alarm : AlarmKind)
  deriving DecidableEq

inductive RingMeReason
  | notRinging
  | liveLeg
  | recentLeg
  | dialFailed
  | declined
  deriving DecidableEq

inductive DeclineReason
  | notRinging
  | notATarget
  deriving DecidableEq

/-- The replies of the RPC surface: `ring-me`, `decline` and `register-intent`. -/
inductive Reply
  | ringMe (rang : Bool) (state : CallState) (reason : Option RingMeReason)
      (pendingKey : Option String)
  | decline (declined : Bool) (state : CallState) (reason : Option DeclineReason)
  | state (state : CallState)
  deriving DecidableEq

/-- What a handler returns: the machine it leaves, the effects it pushed, and its reply. -/
structure Reduced where
  machine : SessionMachine
  effects : List Effect
  reply : Option Reply := none
  deriving DecidableEq

structure ReduceResult where
  machine : Option SessionMachine
  effects : List Effect
  reply : Option Reply := none
  deriving DecidableEq

/-! ### Strings and clocks -/

/-- The value of a nullable string where the source tests it for truth. -/
def truthy (s : Option String) : Option String := s.filter fun v => v != ""

@[simp] theorem truthy_none : truthy none = none := rfl

theorem truthy_eq_some {s : Option String} {v : String} :
    truthy s = some v ↔ s = some v ∧ v ≠ "" := by
  simp [truthy, Option.filter_eq_some_iff]

theorem truthy_some {v : String} (h : v ≠ "") : truthy (some v) = some v :=
  truthy_eq_some.2 ⟨rfl, h⟩

/-- `n` written in decimal with at least `width` digits. -/
def padStart (width n : ℕ) : String :=
  String.ofList (List.replicate (width - (Nat.toDigits 10 n).length) '0' ++ Nat.toDigits 10 n)

/-- The civil date `(year, month, day)` of a number of days since 1970-01-01, in the proleptic
Gregorian calendar counted in eras of 400 years that start on 1 March. -/
def civilFromDays (days : ℤ) : ℤ × ℕ × ℕ :=
  let z := days + 719468
  let era := z / 146097
  let doe := (z % 146097).toNat
  let yoe := (doe - doe / 1460 + doe / 36524 - doe / 146096) / 365
  let doy := doe - (365 * yoe + yoe / 4 - yoe / 100)
  let mp := (5 * doy + 2) / 153
  let day := doy - (153 * mp + 2) / 5 + 1
  let month := if mp < 10 then mp + 3 else mp - 9
  (yoe + era * 400 + (if month ≤ 2 then 1 else 0), month, day)

/-- `new Date(ms).toISOString()`. -/
def toISOString (ms : ℤ) : String :=
  let (year, month, day) := civilFromDays (ms / 86400000)
  let rest := (ms % 86400000).toNat
  let yearText :=
    if year < 0 then "-" ++ padStart 6 year.natAbs
    else if 9999 < year then "+" ++ padStart 6 year.natAbs
    else padStart 4 year.natAbs
  yearText ++ "-" ++ padStart 2 month ++ "-" ++ padStart 2 day ++ "T" ++
    padStart 2 (rest / 3600000) ++ ":" ++ padStart 2 (rest / 60000 % 60) ++ ":" ++
    padStart 2 (rest / 1000 % 60) ++ "." ++ padStart 3 (rest % 1000) ++ "Z"

example : toISOString 1753232400123 = "2025-07-23T01:00:00.123Z" := by decide

end Calls
