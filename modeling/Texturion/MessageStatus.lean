/-
**The status of a message.**

`apps/api/src/messaging/status.ts` handles what the carrier says of a message: `message.sent` turns a
queued row to `sent`, and `message.finalized` writes the final status with its details, tells the
endpoints that listen to `message.failed` when the row turns to `failed`, and meters an outbound
message once.  Each handler is a sequence of calls any of which may fail; a handler that throws is
run again from the start.

The rows here are those with a carrier id; events without one are dropped at the door.  What is only
counted for statistics is left out.

Main result:

* `MessageStatus.column_call`, `MessageStatus.mem_call_messages`, `MessageStatus.usage_call` — what a
  call may change.
-/

import Texturion.Interleaving
import Texturion.WebhookQueue
import Mathlib.Data.Rat.Init

namespace MessageStatus

open SqlTable Interleaving

/-! ### The tables -/

inductive Status
  | received
  | queued
  | sent
  | delivered
  | failed
  deriving DecidableEq

inductive Direction
  | inbound
  | outbound
  deriving DecidableEq

/-- A row of `messages` that has a carrier id. -/
structure Message where
  id : ℕ
  telnyxMessageId : ℕ
  companyId : ℕ
  conversationId : Option ℕ
  direction : Direction
  status : Status
  segments : Option ℕ
  encoding : Option String
  providerCost : Option ℚ
  errorCode : Option String
  errorDetail : Option String
  deriving DecidableEq

inductive UsageEventType
  | smsOutbound
  | mmsOutbound
  deriving DecidableEq

/-- A row of `usage_events`; an adjustment has no message. -/
structure UsageEvent where
  id : ℕ
  companyId : ℕ
  messageId : Option ℕ
  type : UsageEventType
  quantity : ℕ
  meterIdentifier : ℕ
  stripeReportedAt : Option ℤ
  deriving DecidableEq

/-- What has been reported to the meter. -/
structure MeterEvent where
  identifier : ℕ
  value : ℕ
  deriving DecidableEq

/-- The tables; `stripeCustomers` are the companies that have a Stripe customer. -/
structure Store where
  messages : List Message
  usageEvents : List UsageEvent
  meterEvents : List MeterEvent
  stripeCustomers : List ℕ
  webhooks : Webhooks.Store
  deriving DecidableEq

/-! ### What the carrier says -/

inductive RecipientStatus
  | delivered
  | deliveryFailed
  | sendingFailed
  | other
  deriving DecidableEq

structure CarrierError where
  code : Option String
  title : Option String
  detail : Option String
  deriving DecidableEq

/-- `TelnyxMessagePayload`. -/
structure Payload where
  recipients : List RecipientStatus
  errors : List CarrierError
  parts : Option ℕ
  encoding : Option String
  cost : Option ℚ
  mms : Bool
  deriving DecidableEq

def failureStatuses : List RecipientStatus := [.deliveryFailed, .sendingFailed]

def Payload.delivered (p : Payload) : Bool := p.recipients.any (· = .delivered)

def Payload.hasFailure (p : Payload) : Bool :=
  p.errors.head?.isSome || p.recipients.any (failureStatuses.contains ·)

def finalStatus (p : Payload) : Status :=
  if p.delivered then .delivered else if p.hasFailure then .failed else .sent

/-- A text, with the empty one taken for none. -/
def nonempty : Option String → Option String := Option.filter fun s => !s.isEmpty

def Payload.segmentParts (p : Payload) : Option ℕ := p.parts.filter (0 < ·)

def Payload.errorCode (p : Payload) : Option String := p.errors.head?.bind (·.code)

def Payload.errorDetail (p : Payload) : Option String :=
  p.errors.head?.bind fun e => (nonempty e.detail).or (nonempty e.title)

/-- The update of `finalize`. -/
def Message.finalized (p : Payload) (m : Message) : Message :=
  { m with
    status := finalStatus p
    segments := p.segmentParts.or m.segments
    encoding := p.encoding.or m.encoding
    providerCost := p.cost.or m.providerCost
    errorCode := p.errorCode
    errorDetail := p.errorDetail }

def mmsSegments : ℕ := 3

def Payload.quantity (p : Payload) : ℕ := if p.mms then mmsSegments else p.segmentParts.getD 1

/-- What `message.failed` says of a message. -/
structure FailedNotice where
  messageId : ℕ
  conversationId : Option ℕ
  errorCode : Option String
  errorDetail : Option String
  deriving DecidableEq

def failedNotice (m : Message) (p : Payload) : FailedNotice where
  messageId := m.id
  conversationId := m.conversationId
  errorCode := p.errorCode
  errorDetail := p.errorDetail

/-- The event, its data written by `render`. -/
def messageFailed (render : FailedNotice → String) (m : Message) (p : Payload) :
    Webhooks.OutboundWebhookEvent where
  companyId := m.companyId
  type := "message.failed"
  data := render (failedNotice m p)

/-! ### The handlers -/

/-- An event of the carrier, by the id it carries. -/
inductive Event
  | sent (telnyxMessageId : ℕ)
  | finalized (telnyxMessageId : ℕ) (p : Payload)
  deriving DecidableEq

/-- Where a handler stands: before `markSent`'s update, or within `finalize` with what it has read. -/
inductive Point
  | marking (tid : ℕ)
  | looking (tid : ℕ) (p : Payload)
  | updating (tid : ℕ) (p : Payload) (m : Message)
  | listening (tid : ℕ) (p : Payload) (m : Message)
  | enqueuing (tid : ℕ) (p : Payload) (m : Message) (listeners : List Webhooks.Endpoint)
  | metering (tid : ℕ) (p : Payload) (m : Message)
  | findingCustomer (tid : ℕ) (p : Payload) (m : Message) (usageEventId : ℕ)
  | reporting (tid : ℕ) (p : Payload) (m : Message) (usageEventId : ℕ)
  | stamping (tid : ℕ) (p : Payload) (m : Message) (usageEventId : ℕ)

def enter : Event → Point
  | .sent tid => .marking tid
  | .finalized tid p => .looking tid p

/-- The event a handler works on. -/
def Point.event : Point → Event
  | .marking tid => .sent tid
  | .looking tid p | .updating tid p _ | .listening tid p _ | .enqueuing tid p _ _
  | .metering tid p _ | .findingCustomer tid p _ _ | .reporting tid p _ _
  | .stamping tid p _ _ => .finalized tid p

/-- What comes of a call: an answer, no effect, or an effect whose answer is lost. -/
inductive Outcome
  | done
  | failed
  | unheard
  deriving DecidableEq

/-- A call, and the time it is made. -/
structure Await where
  outcome : Outcome
  now : ℤ
  deriving DecidableEq

def Await.heard (x : Await) : Bool := x.outcome = .done

def Await.lands (x : Await) : Bool := x.outcome ≠ .failed

inductive Output
  | handled (e : Event)
  | enqueued (rows : List Webhooks.Delivery)
  deriving DecidableEq

/-- `usage_events_message_uq`. -/
def Store.metered (s : Store) (m : Message) : Bool :=
  s.usageEvents.any fun u => u.messageId = some m.id

def usageEvent (s : Store) (tid : ℕ) (p : Payload) (m : Message) : UsageEvent where
  id := s.usageEvents.length
  companyId := m.companyId
  messageId := some m.id
  type := if p.mms then .mmsOutbound else .smsOutbound
  quantity := p.quantity
  meterIdentifier := tid
  stripeReportedAt := none

/-- The rows of `message.failed` for the endpoints that were read. -/
def failedRows (render : FailedNotice → String) (s : Store) (p : Payload) (m : Message)
    (listeners : List Webhooks.Endpoint) (now : ℤ) : List Webhooks.Delivery :=
  Webhooks.deliveriesFor now (messageFailed render m p) s.webhooks.fresh listeners

/-- What a call that takes effect does. -/
def deed (render : FailedNotice → String) (s : Store) (now : ℤ) : Point → Store
  | .marking tid =>
    { s with
      messages := update
        (fun m => m.telnyxMessageId = tid ∧ m.direction = .outbound ∧ m.status = .queued)
        (fun m => { m with status := .sent }) s.messages }
  | .updating tid p _ =>
    { s with
      messages := update (fun m => m.telnyxMessageId = tid) (Message.finalized p) s.messages }
  | .enqueuing _ p m listeners =>
    { s with
      webhooks :=
        { s.webhooks with
          deliveries := s.webhooks.deliveries ++ failedRows render s p m listeners now
          fresh := s.webhooks.fresh + listeners.length } }
  | .metering tid p m =>
    if s.metered m then s
    else { s with usageEvents := s.usageEvents ++ [usageEvent s tid p m] }
  | .reporting tid p _ _ =>
    { s with meterEvents := s.meterEvents ++ [{ identifier := tid, value := p.quantity }] }
  | .stamping _ _ _ usageEventId =>
    { s with
      usageEvents := update (fun u => u.id = usageEventId ∧ u.stripeReportedAt = none)
        (fun u => { u with stripeReportedAt := some now }) s.usageEvents }
  | .looking .. | .listening .. | .findingCustomer .. => s

/-- A handler that is through. -/
def finish (e : Event) : Option Point × List Output := (none, [.handled e])

/-- A handler that has thrown is run again. -/
def again (e : Event) : Option Point × List Output := (some (enter e), [])

/-- Where `finalize` goes after its update. -/
def afterUpdate (tid : ℕ) (p : Payload) (m : Message) : Option Point × List Output :=
  if m.direction ≠ .outbound then finish (.finalized tid p)
  else if finalStatus p = .failed ∧ m.status ≠ .failed then (some (.listening tid p m), [])
  else (some (.metering tid p m), [])

/-- Where a call leaves its handler.  A failed enqueue is swallowed, and so is a failed report. -/
def next (render : FailedNotice → String) (s : Store) (x : Await) :
    Point → Option Point × List Output
  | .marking tid => if x.heard then finish (.sent tid) else again (.sent tid)
  | .looking tid p =>
    if x.heard then
      match s.messages.find? (·.telnyxMessageId = tid) with
      | none => finish (.finalized tid p)
      | some m => (some (.updating tid p m), [])
    else again (.finalized tid p)
  | .updating tid p m => if x.heard then afterUpdate tid p m else again (.finalized tid p)
  | .listening tid p m =>
    match x.heard, s.webhooks.listeners (messageFailed render m p) with
    | true, e :: es => (some (.enqueuing tid p m (e :: es)), [])
    | _, _ => (some (.metering tid p m), [])
  | .enqueuing tid p m listeners =>
    (some (.metering tid p m),
      if x.lands then [.enqueued (failedRows render s p m listeners x.now)] else [])
  | .metering tid p m =>
    if x.heard then
      if s.metered m then finish (.finalized tid p)
      else (some (.findingCustomer tid p m s.usageEvents.length), [])
    else again (.finalized tid p)
  | .findingCustomer tid p m usageEventId =>
    if x.heard then
      if s.stripeCustomers.contains m.companyId then
        (some (.reporting tid p m usageEventId), [])
      else finish (.finalized tid p)
    else again (.finalized tid p)
  | .reporting tid p m usageEventId =>
    if x.heard then (some (.stamping tid p m usageEventId), []) else finish (.finalized tid p)
  | .stamping tid p _ _ => if x.heard then finish (.finalized tid p) else again (.finalized tid p)

def call (render : FailedNotice → String) (s : Store) (p : Point) (x : Await) : Store :=
  if x.lands then deed render s x.now p else s

/-- The handlers, beside whatever else happens to the endpoints and their deliveries. -/
def statusEvents (render : FailedNotice → String) :
    System Store Event Point Await Webhooks.Deed Output where
  enter := enter
  advance s p x := (call render s p x, next render s x p)
  world s d := ({ s with webhooks := d.apply s.webhooks }, [])

theorem event_enter (e : Event) : (enter e).event = e := by
  cases e <;> rfl

/-- A call leaves its handler through with its event, or still at work on it. -/
theorem next_event (render : FailedNotice → String) (s : Store) (x : Await) (p : Point) :
    next render s x p = finish p.event ∨
      ∃ p' out, next render s x p = (some p', out) ∧ p'.event = p.event := by
  have hagain : ∀ e : Event, ∃ p' out, again e = (some p', out) ∧ p'.event = e :=
    fun e => ⟨enter e, [], rfl, event_enter e⟩
  cases p with
  | marking tid =>
    simp only [next]
    split
    · exact .inl rfl
    · exact .inr (hagain _)
  | looking tid pl =>
    simp only [next]
    split
    · split
      · exact .inl rfl
      · exact .inr ⟨_, _, rfl, rfl⟩
    · exact .inr (hagain _)
  | updating tid pl m =>
    simp only [next, afterUpdate]
    split
    · split
      · exact .inl rfl
      · split <;> exact .inr ⟨_, _, rfl, rfl⟩
    · exact .inr (hagain _)
  | listening tid pl m =>
    simp only [next]
    split <;> exact .inr ⟨_, _, rfl, rfl⟩
  | enqueuing tid pl m listeners => exact .inr ⟨_, _, rfl, rfl⟩
  | metering tid pl m =>
    simp only [next]
    split
    · split
      · exact .inl rfl
      · exact .inr ⟨_, _, rfl, rfl⟩
    · exact .inr (hagain _)
  | findingCustomer tid pl m usageEventId =>
    simp only [next]
    split
    · split
      · exact .inr ⟨_, _, rfl, rfl⟩
      · exact .inl rfl
    · exact .inr (hagain _)
  | reporting tid pl m usageEventId =>
    simp only [next]
    split
    · exact .inr ⟨_, _, rfl, rfl⟩
    · exact .inl rfl
  | stamping tid pl m usageEventId =>
    simp only [next]
    split
    · exact .inl rfl
    · exact .inr (hagain _)

theorem accountable (render : FailedNotice → String) :
    Accountable (statusEvents render) Point.event .handled where
  enter := event_enter
  next := by
    intro s p x p' h
    simp only [statusEvents] at h
    rcases next_event render s x p with hend | ⟨q, out, hnext, hevent⟩
    · simp [hend, finish] at h
    · rw [hnext] at h
      exact Option.some.inj h ▸ hevent
  ends := by
    intro s p x h
    simp only [statusEvents] at h ⊢
    rcases next_event render s x p with hend | ⟨q, out, hnext, -⟩
    · rw [hend]
      exact List.mem_singleton_self _
    · simp [hnext] at h

/-! ### What a call may change -/

/-- The columns no handler writes: the id, the carrier's id, the company, the conversation, and the
direction. -/
def Message.column (m : Message) : ℕ × ℕ × ℕ × Option ℕ × Direction :=
  (m.id, m.telnyxMessageId, m.companyId, m.conversationId, m.direction)

theorem column_call (render : FailedNotice → String) (s : Store) (p : Point) (x : Await) :
    (call render s p x).messages.map Message.column = s.messages.map Message.column := by
  unfold call
  split
  · cases p with
    | marking tid =>
      refine map_update ?_ _
      exact fun m => rfl
    | updating tid pl m =>
      refine map_update ?_ _
      exact fun m => rfl
    | metering tid pl m =>
      simp only [deed]
      split <;> rfl
    | looking | listening | enqueuing | findingCustomer | reporting | stamping => rfl
  · rfl

/-- Where a row of `messages` comes from. -/
theorem mem_call_messages {render : FailedNotice → String} {s : Store} {p : Point} {x : Await}
    {row : Message} (h : row ∈ (call render s p x).messages) :
    row ∈ s.messages ∨
      (∃ tid old, p = .marking tid ∧ old ∈ s.messages ∧ old.telnyxMessageId = tid ∧
        old.direction = .outbound ∧ old.status = .queued ∧ row = { old with status := .sent }) ∨
      ∃ tid pl read old, p = .updating tid pl read ∧ old ∈ s.messages ∧
        old.telnyxMessageId = tid ∧ row = old.finalized pl := by
  unfold call at h
  split at h
  · cases p with
    | marking tid =>
      rcases mem_update.1 h with ⟨hrow, -⟩ | ⟨old, hold, hwhere, rfl⟩
      · exact .inl hrow
      · obtain ⟨htid, hout, hqueued⟩ := of_decide_eq_true hwhere
        exact .inr (.inl ⟨tid, old, rfl, hold, htid, hout, hqueued, rfl⟩)
    | updating tid pl read =>
      rcases mem_update.1 h with ⟨hrow, -⟩ | ⟨old, hold, hwhere, rfl⟩
      · exact .inl hrow
      · exact .inr (.inr ⟨tid, pl, read, old, rfl, hold, of_decide_eq_true hwhere, rfl⟩)
    | metering tid pl m =>
      simp only [deed] at h
      split at h <;> exact .inl h
    | looking | listening | enqueuing | findingCustomer | reporting | stamping => exact .inl h
  · exact .inl h

/-- How often a message has been metered. -/
def Store.meterings (s : Store) (m : Message) : ℕ :=
  (s.usageEvents.map (·.messageId)).count (some m.id)

theorem metered_iff {s : Store} {m : Message} : s.metered m = true ↔ 0 < s.meterings m := by
  rw [Store.meterings, List.count_pos_iff, Store.metered, List.any_eq_true, List.mem_map]
  simp

/-- Only metering a message that is not metered adds to `usage_events`. -/
theorem usage_call (render : FailedNotice → String) (s : Store) (p : Point) (x : Await) :
    (call render s p x).usageEvents.map (·.messageId) = s.usageEvents.map (·.messageId) ∨
      ∃ tid pl read, p = .metering tid pl read ∧ s.metered read = false ∧
        (call render s p x).usageEvents.map (·.messageId) =
          s.usageEvents.map (·.messageId) ++ [some read.id] := by
  unfold call
  split
  · cases p with
    | metering tid pl read =>
      cases hread : s.metered read with
      | true => simp [deed, hread]
      | false =>
        right
        refine ⟨tid, pl, read, rfl, hread, ?_⟩
        simp [deed, hread, usageEvent]
    | stamping tid pl read usageEventId =>
      left
      refine map_update ?_ _
      exact fun u => rfl
    | marking | looking | updating | listening | enqueuing | findingCustomer | reporting =>
      exact .inl rfl
  · exact .inl rfl

theorem capped_call {render : FailedNotice → String} {s : Store} (h : s.webhooks.Capped) (p : Point)
    (x : Await) : (call render s p x).webhooks.Capped := by
  unfold call
  split
  · cases p with
    | metering tid pl m =>
      simp only [deed]
      split <;> exact h
    | marking | looking | updating | listening | enqueuing | findingCustomer | reporting
    | stamping => exact h
  · exact h

end MessageStatus
