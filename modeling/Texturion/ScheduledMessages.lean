/-
**Scheduled messages.**

A scheduled message is a row that a person, a job's reminder rules or a finished job put in the
queue; it becomes a row of `messages` when it is fired.  Everything that happens to it is one of the
SQL functions below, each of which runs as one transaction:
`20260803090000_scheduled_messages.sql`, with `api_hold_…` and `api_fail_…` as
`20260817000000_…` and `api_fire_…` and `api_sync_task_reminders` as `20260825020000_…` replaced
them.

Main result:

* `Scheduled.Move.ended` — a row that has ended is never touched again.
-/

import Texturion.SqlTable

namespace Scheduled

open SqlTable

/-! ### The tables -/

abbrev Uuid := ℕ

/-- `ScheduledMessageStatus`. -/
inductive Status
  | pending
  | held
  | sent
  | canceled
  | expired
  | failed
  deriving DecidableEq

/-- `isScheduledMessageLive`. -/
def Status.live : Status → Bool
  | .pending => true
  | .held => true
  | _ => false

/-- `scheduled_messages.origin`. -/
inductive Origin
  | human
  | reminder
  | rating
  deriving DecidableEq

/-- A row of `scheduled_messages`; instants are in milliseconds. -/
structure ScheduledMessage where
  id : Uuid
  companyId : Uuid
  conversationId : Uuid
  body : String
  sendAt : ℤ
  status : Status
  heldReason : Option String
  heldReasonKey : Option String
  heldAt : Option ℤ
  expiresAt : ℤ
  inboundWatermark : Option ℤ
  sentMessageId : Option Uuid
  claimedAt : Option ℤ
  canceledAt : Option ℤ
  canceledBy : Option Uuid
  taskId : Option Uuid
  origin : Origin
  reminderOffsetMinutes : Option ℤ
  createdBy : Uuid
  deriving DecidableEq

/-- A row of `messages` that a scheduled message was turned into; `firedFrom` is not a column, it
says which one. -/
structure Message where
  id : Uuid
  companyId : Uuid
  conversationId : Uuid
  body : String
  segments : ℕ
  sentByUserId : Uuid
  firedFrom : Uuid
  deriving DecidableEq

structure Store where
  table : List ScheduledMessage
  messages : List Message
  deriving DecidableEq

namespace ScheduledMessage

/-- The row is `id`, and it has not ended. -/
def isLive (id : Uuid) (r : ScheduledMessage) : Bool := r.id == id && r.status.live

/-- `status in ('pending', 'held') and send_at <= p_now`, and the lease has lapsed. -/
def claimable (now leaseSeconds : ℤ) (r : ScheduledMessage) : Bool :=
  r.status.live && decide (r.sendAt ≤ now) &&
    r.claimedAt.all fun claimedAt => decide (claimedAt < now - leaseSeconds * 1000)

/-- `status in ('pending', 'held') and expires_at <= p_now`. -/
def overdue (now : ℤ) (r : ScheduledMessage) : Bool :=
  r.status.live && decide (r.expiresAt ≤ now)

def isReminder (companyId taskId : Uuid) (status : Status) (r : ScheduledMessage) : Bool :=
  r.companyId == companyId && r.taskId == some taskId && r.origin == .reminder && r.status == status

end ScheduledMessage

def ids (rows : List ScheduledMessage) : List Uuid := rows.map (·.id)

/-- Change the live row `id`. -/
def Store.setLive (s : Store) (id : Uuid) (f : ScheduledMessage → ScheduledMessage) : Store :=
  { s with table := update (ScheduledMessage.isLive id) f s.table }

/-! ### What the job calls -/

/-- `api_claim_due_scheduled_messages`: the rows claimed, as the claim has stamped them. -/
def claimDue (now : ℤ) (limit : ℕ) (leaseSeconds : ℤ) (s : Store) :
    Store × List ScheduledMessage :=
  let due := firstBy (·.sendAt) limit (s.table.filter (·.claimable now leaseSeconds))
  let claim := fun r : ScheduledMessage => { r with claimedAt := some now }
  ({ s with table := update (fun r => r.status.live && (ids due).contains r.id) claim s.table },
   due.map claim)

/-- `api_expire_scheduled_messages`: the rows expired. -/
def expire (now : ℤ) (limit : ℕ) (s : Store) : Store × List ScheduledMessage :=
  let stale := firstBy (·.expiresAt) limit (s.table.filter (·.overdue now))
  let expired := fun r : ScheduledMessage =>
    { r with
      status := .expired
      heldReason := r.heldReason.or (some "the send window passed before it could go")
      claimedAt := none }
  ({ s with table := update (fun r => r.status.live && (ids stale).contains r.id) expired s.table },
   stale.map expired)

/-- What a hold writes. -/
def ScheduledMessage.holding (now : ℤ) (reason reasonKey : String) (r : ScheduledMessage) :
    ScheduledMessage :=
  { r with
    status := .held, heldReason := some reason, heldReasonKey := some reasonKey,
    heldAt := r.heldAt.or (some now), claimedAt := none }

/-- What a failure writes. -/
def ScheduledMessage.failing (reason reasonKey : String) (r : ScheduledMessage) :
    ScheduledMessage :=
  { r with
    status := .failed, heldReason := some reason, heldReasonKey := some reasonKey,
    claimedAt := none }

/-- `api_hold_scheduled_message`. -/
def hold (now : ℤ) (id : Uuid) (reason reasonKey : String) (s : Store) : Store :=
  s.setLive id (ScheduledMessage.holding now reason reasonKey)

/-- `api_fail_scheduled_message`. -/
def fail (id : Uuid) (reason reasonKey : String) (s : Store) : Store :=
  s.setLive id (ScheduledMessage.failing reason reasonKey)

/-- The task a reminder is about, as `api_fire_scheduled_message` locks it. -/
structure TaskRow where
  deletedAt : Option ℤ
  remindersOff : Bool
  dueAt : Option ℤ
  sourceDoneAt : Option ℤ
  deriving DecidableEq

def TaskRow.gone (t : TaskRow) : Bool :=
  t.deletedAt.isSome || t.remindersOff || t.dueAt.isNone || t.sourceDoneAt.isSome

/-- What `api_fire_scheduled_message` finds in the tables of tasks and calendars, with the id of the
message it inserts. -/
structure FireFacts where
  task : Option TaskRow
  calendarBacked : Bool
  calendarSafe : Bool
  now : ℤ
  messageId : Uuid
  deriving DecidableEq

inductive FireResult
  | fired (message : Message)
  | held (row : ScheduledMessage)
  | failed (row : ScheduledMessage)
  | gone
  deriving DecidableEq

/-- The message a row is turned into. -/
def ScheduledMessage.message (r : ScheduledMessage) (segments : ℕ) (messageId : Uuid) : Message where
  id := messageId
  companyId := r.companyId
  conversationId := r.conversationId
  body := r.body
  segments := segments
  sentByUserId := r.createdBy
  firedFrom := r.id

/-- What firing writes on the row. -/
def ScheduledMessage.firing (messageId : Uuid) (r : ScheduledMessage) : ScheduledMessage :=
  { r with
    status := .sent, sentMessageId := some messageId, heldReason := none, heldReasonKey := none }

/-- `api_fire_scheduled_message`.  The row is locked while the checks are made. -/
def fire (id : Uuid) (segments : ℕ) (facts : FireFacts) (s : Store) : Store × FireResult :=
  match s.table.find? (ScheduledMessage.isLive id) with
  | none => (s, .gone)
  | some r =>
    if r.origin = .reminder ∧ r.taskId.isSome ∧ facts.task.all TaskRow.gone then
      let failing := ScheduledMessage.failing "The job is no longer scheduled."
        "job_no_longer_scheduled"
      (s.setLive id failing, .failed (failing r))
    else if r.origin = .reminder ∧ r.taskId.isSome ∧ facts.calendarBacked ∧ ¬facts.calendarSafe then
      let holding := ScheduledMessage.holding facts.now "Calendar verification is pending."
        "calendar_unverified"
      (s.setLive id holding, .held (holding r))
    else
      let message := r.message segments facts.messageId
      let fired := s.setLive id (ScheduledMessage.firing facts.messageId)
      ({ fired with messages := s.messages ++ [message] }, .fired message)

/-! ### What people and other jobs call -/

/-- A row as an insert makes it. -/
def ScheduledMessage.fresh (id companyId conversationId : Uuid) (body : String)
    (sendAt expiresAt : ℤ) (createdBy : Uuid) : ScheduledMessage where
  id := id
  companyId := companyId
  conversationId := conversationId
  body := body
  sendAt := sendAt
  status := .pending
  heldReason := none
  heldReasonKey := none
  heldAt := none
  expiresAt := expiresAt
  inboundWatermark := none
  sentMessageId := none
  claimedAt := none
  canceledAt := none
  canceledBy := none
  taskId := none
  origin := .human
  reminderOffsetMinutes := none
  createdBy := createdBy

/-- `insert into scheduled_messages`; the id is the primary key. -/
def Store.insert (s : Store) (r : ScheduledMessage) : Store :=
  if (ids s.table).contains r.id then s else { s with table := s.table ++ [r] }

/-- `scheduled_messages_per_company_cap`, `…_per_thread_cap`, `…_horizon_days`. -/
def perCompanyCap : ℕ := 200
def perThreadCap : ℕ := 20
def horizonDays : ℤ := 90

/-- The arguments of `api_schedule_message`, with what it reads of the conversation and the id the
row gets. -/
structure ScheduleRequest where
  companyId : Uuid
  conversationId : Uuid
  userId : Uuid
  body : String
  sendAt : ℤ
  expiresAt : ℤ
  conversationFound : Bool
  newestInbound : Option ℤ
  rowId : Uuid
  deriving DecidableEq

inductive ScheduleOutcome
  | notFound
  | inThePast
  | tooFarOut
  | companyCap
  | threadCap
  | scheduled (row : ScheduledMessage)
  deriving DecidableEq

/-- `api_schedule_message`. -/
def schedule (now : ℤ) (q : ScheduleRequest) (s : Store) : Store × ScheduleOutcome :=
  let row := { ScheduledMessage.fresh q.rowId q.companyId q.conversationId q.body q.sendAt
    q.expiresAt q.userId with inboundWatermark := q.newestInbound }
  if ¬q.conversationFound then (s, .notFound)
  else if q.sendAt ≤ now then (s, .inThePast)
  else if q.sendAt > now + horizonDays * 86400000 then (s, .tooFarOut)
  else if s.table.countP (fun r => r.companyId == q.companyId && r.status.live) ≥ perCompanyCap then
    (s, .companyCap)
  else if s.table.countP (fun r => r.conversationId == q.conversationId && r.status.live)
      ≥ perThreadCap then
    (s, .threadCap)
  else (s.insert row, .scheduled row)

/-- What a cancellation writes. -/
def ScheduledMessage.canceling (now : ℤ) (userId : Option Uuid) (r : ScheduledMessage) :
    ScheduledMessage :=
  { r with
    status := .canceled, canceledAt := some now, canceledBy := userId.or r.canceledBy,
    claimedAt := none }

/-- `api_cancel_scheduled_message`. -/
def cancel (now : ℤ) (id companyId userId : Uuid) (s : Store) : Store :=
  { s with
    table := update (fun r => r.isLive id && r.companyId == companyId)
      (ScheduledMessage.canceling now (some userId)) s.table }

/-- `api_cancel_scheduled_for_company`. -/
def cancelForCompany (now : ℤ) (companyId : Uuid) (reason : String) (s : Store) : Store :=
  { s with
    table := update (fun r => r.companyId == companyId && r.status.live)
      (fun r => { r.canceling now none with heldReason := some reason }) s.table }

/-- What `PATCH /scheduled-messages/:id` may set. -/
structure Patch where
  body : Option String
  sendAt : Option ℤ
  deriving DecidableEq

def holdHorizonHours : ℤ := 24

/-- The columns a patch writes; a new time puts a held message back in the queue. -/
def Patch.apply (patch : Patch) (r : ScheduledMessage) : ScheduledMessage :=
  let r := { r with body := patch.body.getD r.body }
  match patch.sendAt with
  | none => r
  | some sendAt =>
    { r with
      sendAt := sendAt, expiresAt := sendAt + holdHorizonHours * 3600000, status := .pending,
      heldReason := none, heldAt := none }

/-- The guarded update of `PATCH /scheduled-messages/:id`. -/
def edit (id companyId : Uuid) (patch : Patch) (s : Store) : Store :=
  { s with table := update (fun r => r.isLive id && r.companyId == companyId) patch.apply s.table }

/-- One reminder, as the planner hands it over. -/
structure PlannedReminder where
  offsetMinutes : ℤ
  body : String
  sendAt : ℤ
  deriving DecidableEq

/-- The arguments of `api_sync_task_reminders`, with what it finds of the task and the ids the rows
get. -/
structure SyncRequest where
  companyId : Uuid
  taskId : Uuid
  userId : Uuid
  conversationId : Uuid
  reminders : List PlannedReminder
  expiresAt : ℤ
  taskDeleted : Bool
  remindersOff : Bool
  rowIds : List Uuid
  deriving DecidableEq

/-- The plan has a reminder at the row's offset. -/
def SyncRequest.planned (q : SyncRequest) (r : ScheduledMessage) : Option PlannedReminder :=
  q.reminders.find? fun p => r.reminderOffsetMinutes == some p.offsetMinutes

/-- A held reminder takes the new instant and the new words. -/
def SyncRequest.refresh (q : SyncRequest) (r : ScheduledMessage) : ScheduledMessage :=
  match q.planned r with
  | none => r
  | some p =>
    { r with body := p.body, sendAt := p.sendAt, expiresAt := q.expiresAt, claimedAt := none }

def SyncRequest.row (q : SyncRequest) (p : PlannedReminder) (id : Uuid) : ScheduledMessage :=
  { ScheduledMessage.fresh id q.companyId q.conversationId p.body p.sendAt q.expiresAt q.userId with
    taskId := some q.taskId, origin := .reminder, reminderOffsetMinutes := some p.offsetMinutes }

/-- `insert … on conflict do nothing` of one reminder. -/
def SyncRequest.insertReminder (q : SyncRequest) (s : Store) (p : PlannedReminder × Uuid) : Store :=
  if s.table.any fun r => r.taskId == some q.taskId && r.status.live &&
      r.reminderOffsetMinutes == some p.1.offsetMinutes then s
  else s.insert (q.row p.1 p.2)

/-- `api_sync_task_reminders` for a task that exists. -/
def syncTaskReminders (now : ℤ) (q : SyncRequest) (s : Store) : Store :=
  let off := q.taskDeleted || q.remindersOff
  let held := ScheduledMessage.isReminder q.companyId q.taskId .held
  let cleared := { s with
    table := s.table.filter fun r => !r.isReminder q.companyId q.taskId .pending }
  let refreshed := { cleared with
    table := update (fun r => held r && !off) q.refresh cleared.table }
  let dropped := { refreshed with
    table := update (fun r => held r && (off || (q.planned r).isNone))
      (ScheduledMessage.canceling now none) refreshed.table }
  if off then dropped else (q.reminders.zip q.rowIds).foldl q.insertReminder dropped

/-- The trigger `calendar_task_before_schedule_change`, on a task whose `due_at` has moved. -/
def dueMoved (now : ℤ) (companyId taskId : Uuid) (s : Store) : Store :=
  { s with
    table := update (ScheduledMessage.isReminder companyId taskId .held)
      (ScheduledMessage.canceling now none) s.table }

/-- The calendar sync clears the reminders of an appointment it has moved or removed. -/
def clearReminders (companyId taskId : Uuid) (s : Store) : Store :=
  { s with table := s.table.filter fun r => !r.isReminder companyId taskId .pending }

/-- The insert of `job-ratings.ts`. -/
def askRating (companyId conversationId taskId userId rowId : Uuid) (body : String)
    (sendAt expiresAt : ℤ) (s : Store) : Store :=
  s.insert { ScheduledMessage.fresh rowId companyId conversationId body sendAt expiresAt userId with
    taskId := some taskId, origin := .rating }

/-! ### All that can happen to the two tables -/

/-- One thing that happens to the two tables. -/
inductive Move : Store → Store → Prop
  /-- Live rows are changed, and none of them is made `sent`. -/
  | rewrite (s : Store) (p : ScheduledMessage → Bool) (f : ScheduledMessage → ScheduledMessage)
      (hlive : ∀ r, p r = true → r.status.live = true) (hid : ∀ r, (f r).id = r.id)
      (hsent : ∀ r, p r = true → (f r).status ≠ .sent) :
      Move s { s with table := update p f s.table }
  /-- A row is added. -/
  | insert (s : Store) (r : ScheduledMessage) (hr : r.status = .pending) : Move s (s.insert r)
  /-- Live rows are deleted. -/
  | delete (s : Store) (p : ScheduledMessage → Bool)
      (hlive : ∀ r, p r = true → r.status.live = true) :
      Move s { s with table := s.table.filter fun r => !p r }
  /-- A live row is made `sent` and gets its message. -/
  | fire (s : Store) (r : ScheduledMessage) (segments : ℕ) (messageId : Uuid) (hr : r ∈ s.table)
      (hlive : r.status.live = true) :
      Move s
        { table := update (ScheduledMessage.isLive r.id) (ScheduledMessage.firing messageId) s.table
          messages := s.messages ++ [r.message segments messageId] }

/-- Any number of them. -/
abbrev Moves : Store → Store → Prop := Relation.ReflTransGen Move

variable {r : ScheduledMessage} {s t : Store}

theorem live_of_isLive {id : Uuid} (h : r.isLive id = true) : r.status.live = true := by
  simp only [ScheduledMessage.isLive, Bool.and_eq_true] at h
  exact h.2

theorem not_sent_of_live (h : r.status.live = true) : r.status ≠ .sent := by
  intro hsent
  rw [hsent] at h
  exact absurd h (by decide)

/-- A change of the live row `id`. -/
theorem setLive_move (s : Store) (id : Uuid) (f : ScheduledMessage → ScheduledMessage)
    (hid : ∀ r, (f r).id = r.id) (hsent : ∀ r, (f r).status ≠ .sent) : Move s (s.setLive id f) :=
  .rewrite s _ f (fun _ h => live_of_isLive h) hid fun r _ => hsent r

theorem claimDue_move (now : ℤ) (limit : ℕ) (leaseSeconds : ℤ) (s : Store) :
    Move s (claimDue now limit leaseSeconds s).1 := by
  have hlive : ∀ (l : List Uuid) (r : ScheduledMessage),
      (r.status.live && l.contains r.id) = true → r.status.live = true := by
    intro l r h
    exact (Bool.and_eq_true _ _ ▸ h).1
  exact .rewrite s _ _ (hlive _) (fun _ => rfl) fun r h => not_sent_of_live (hlive _ r h)

theorem expire_move (now : ℤ) (limit : ℕ) (s : Store) : Move s (expire now limit s).1 :=
  .rewrite s _ _ (fun _ h => (Bool.and_eq_true _ _ ▸ h).1) (fun _ => rfl) fun _ _ => by simp

theorem hold_move (now : ℤ) (id : Uuid) (reason reasonKey : String) (s : Store) :
    Move s (hold now id reason reasonKey s) :=
  setLive_move s id _ (fun _ => rfl) fun _ => by simp [ScheduledMessage.holding]

theorem fail_move (id : Uuid) (reason reasonKey : String) (s : Store) :
    Move s (fail id reason reasonKey s) :=
  setLive_move s id _ (fun _ => rfl) fun _ => by simp [ScheduledMessage.failing]

/-- **Firing** is the one function that makes a row `sent`. -/
theorem fire_move (id : Uuid) (segments : ℕ) (facts : FireFacts) (s : Store) :
    Moves s (fire id segments facts s).1 := by
  unfold fire
  cases hfind : s.table.find? (ScheduledMessage.isLive id) with
  | none => exact .refl
  | some r =>
    have hr : r ∈ s.table := List.mem_of_find?_eq_some hfind
    have hisLive : r.isLive id = true := by simpa using List.find?_some hfind
    have hid : r.id = id := by
      simp only [ScheduledMessage.isLive, Bool.and_eq_true, beq_iff_eq] at hisLive
      exact hisLive.1
    simp only
    split
    · exact .single (setLive_move s id _ (fun _ => rfl) fun _ => by
        simp [ScheduledMessage.failing])
    · split
      · exact .single (setLive_move s id _ (fun _ => rfl) fun _ => by
          simp [ScheduledMessage.holding])
      · have hmove := Move.fire s r segments facts.messageId hr (live_of_isLive hisLive)
        rw [hid] at hmove
        exact .single hmove

theorem schedule_move (now : ℤ) (q : ScheduleRequest) (s : Store) :
    Moves s (schedule now q s).1 := by
  unfold schedule
  simp only
  split_ifs
  all_goals first | exact .refl | exact .single (.insert s _ rfl)

theorem cancel_move (now : ℤ) (id companyId userId : Uuid) (s : Store) :
    Move s (cancel now id companyId userId s) :=
  .rewrite s _ _ (fun _ h => live_of_isLive (Bool.and_eq_true _ _ ▸ h).1) (fun _ => rfl)
    fun _ _ => by simp [ScheduledMessage.canceling]

theorem cancelForCompany_move (now : ℤ) (companyId : Uuid) (reason : String) (s : Store) :
    Move s (cancelForCompany now companyId reason s) :=
  .rewrite s _ _ (fun _ h => (Bool.and_eq_true _ _ ▸ h).2) (fun _ => rfl)
    fun _ _ => by simp [ScheduledMessage.canceling]

theorem Patch.apply_id (patch : Patch) (r : ScheduledMessage) : (patch.apply r).id = r.id := by
  unfold Patch.apply
  cases patch.sendAt <;> rfl

theorem Patch.apply_status (patch : Patch) (r : ScheduledMessage) :
    (patch.apply r).status = .pending ∨ (patch.apply r).status = r.status := by
  unfold Patch.apply
  cases patch.sendAt with
  | none => exact .inr rfl
  | some sendAt => exact .inl rfl

theorem edit_move (id companyId : Uuid) (patch : Patch) (s : Store) :
    Move s (edit id companyId patch s) := by
  refine .rewrite s _ _ (fun _ h => live_of_isLive (Bool.and_eq_true _ _ ▸ h).1) patch.apply_id ?_
  intro r h
  have hlive := live_of_isLive (Bool.and_eq_true _ _ ▸ h).1
  rcases patch.apply_status r with hstatus | hstatus
  · rw [hstatus]
    decide
  · rw [hstatus]
    exact not_sent_of_live hlive

theorem live_of_isReminder {companyId taskId : Uuid} {status : Status} (hlive : status.live = true)
    (h : r.isReminder companyId taskId status = true) : r.status.live = true := by
  simp only [ScheduledMessage.isReminder, Bool.and_eq_true, beq_iff_eq] at h
  rw [h.2]
  exact hlive

theorem clearReminders_move (companyId taskId : Uuid) (s : Store) :
    Move s (clearReminders companyId taskId s) :=
  .delete s (ScheduledMessage.isReminder companyId taskId .pending)
    fun _ h => live_of_isReminder rfl h

theorem dueMoved_move (now : ℤ) (companyId taskId : Uuid) (s : Store) :
    Move s (dueMoved now companyId taskId s) :=
  .rewrite s _ _ (fun _ h => live_of_isReminder rfl h) (fun _ => rfl)
    fun _ _ => by simp [ScheduledMessage.canceling]

theorem askRating_move (companyId conversationId taskId userId rowId : Uuid) (body : String)
    (sendAt expiresAt : ℤ) (s : Store) :
    Move s (askRating companyId conversationId taskId userId rowId body sendAt expiresAt s) :=
  .insert s _ rfl

section

variable (q : SyncRequest)

theorem SyncRequest.refresh_id (r : ScheduledMessage) : (q.refresh r).id = r.id := by
  unfold SyncRequest.refresh
  cases q.planned r <;> rfl

theorem SyncRequest.refresh_status (r : ScheduledMessage) : (q.refresh r).status = r.status := by
  unfold SyncRequest.refresh
  cases q.planned r <;> rfl

theorem SyncRequest.insertReminder_moves (s : Store)
    (p : PlannedReminder × Uuid) : Moves s (q.insertReminder s p) := by
  unfold SyncRequest.insertReminder
  split_ifs
  · exact .refl
  · exact .single (.insert s _ rfl)

theorem SyncRequest.insertReminders_moves (ps : List (PlannedReminder × Uuid))
    (s : Store) : Moves s (ps.foldl q.insertReminder s) := by
  induction ps generalizing s with
  | nil => exact .refl
  | cons p ps ih => exact (q.insertReminder_moves s p).trans (ih _)

end

/-- **Regeneration** deletes, refreshes, cancels and inserts, in this order. -/
theorem syncTaskReminders_moves (now : ℤ) (q : SyncRequest) (s : Store) :
    Moves s (syncTaskReminders now q s) := by
  have hheld : ∀ (b : ScheduledMessage → Bool) (r : ScheduledMessage),
      (r.isReminder q.companyId q.taskId .held && b r) = true → r.status.live = true :=
    fun b r h => live_of_isReminder rfl (Bool.and_eq_true _ _ ▸ h).1
  have hcleared : Move s { s with
      table := s.table.filter fun r => !r.isReminder q.companyId q.taskId .pending } :=
    .delete s _ fun r h => live_of_isReminder rfl h
  have hrefreshed : ∀ (s : Store) (b : Bool), Move s { s with
      table := update (fun r => r.isReminder q.companyId q.taskId .held && b) q.refresh s.table } := by
    intro s b
    refine .rewrite s _ _ (hheld fun _ => b) q.refresh_id fun r h => ?_
    rw [q.refresh_status]
    exact not_sent_of_live (hheld (fun _ => b) r h)
  have hdropped : ∀ (s : Store) (b : ScheduledMessage → Bool), Move s { s with
      table := update (fun r => r.isReminder q.companyId q.taskId .held && b r)
        (ScheduledMessage.canceling now none) s.table } := by
    intro s b
    exact .rewrite s _ _ (hheld b) (fun _ => rfl) fun r _ => by simp [ScheduledMessage.canceling]
  have hbefore := ((Relation.ReflTransGen.single hcleared).tail
    (hrefreshed _ !(q.taskDeleted || q.remindersOff))).tail
    (hdropped _ fun r => (q.taskDeleted || q.remindersOff) || (q.planned r).isNone)
  unfold syncTaskReminders
  simp only
  split_ifs
  · exact hbefore
  · exact hbefore.trans (q.insertReminders_moves _ _)

/-! ### What stays true of the two tables -/

/-- Ids are unique, no row has two messages, and the rows with a message are the rows `sent`. -/
structure WellFormed (s : Store) : Prop where
  ids : (ids s.table).Nodup
  froms : (s.messages.map (·.firedFrom)).Nodup
  sent : ∀ id, (∃ m ∈ s.messages, m.firedFrom = id) ↔ ∃ r ∈ s.table, r.id = id ∧ r.status = .sent

theorem ids_update {p : ScheduledMessage → Bool} {f : ScheduledMessage → ScheduledMessage}
    (hid : ∀ r, (f r).id = r.id) (rows : List ScheduledMessage) :
    Scheduled.ids (update p f rows) = Scheduled.ids rows :=
  map_update hid rows

theorem Move.ids (h : Move s t) (hs : (Scheduled.ids s.table).Nodup) :
    (Scheduled.ids t.table).Nodup := by
  cases h with
  | rewrite p f hlive hid =>
    rw [ids_update hid]
    exact hs
  | insert r =>
    unfold Store.insert
    split_ifs with hmem
    · exact hs
    · simp only [Scheduled.ids, List.map_append, List.map_cons, List.map_nil]
      refine List.nodup_append.2 ⟨hs, List.nodup_singleton _, ?_⟩
      rintro a ha b hb rfl
      rw [List.mem_singleton.1 hb] at ha
      exact hmem (List.contains_iff_mem.2 ha)
  | delete p => exact hs.sublist (List.filter_sublist.map _)
  | fire r segments messageId =>
    have hid : ∀ r, (ScheduledMessage.firing messageId r).id = r.id := fun _ => rfl
    rw [ids_update hid]
    exact hs

theorem Moves.ids (h : Moves s t) (hs : (Scheduled.ids s.table).Nodup) :
    (Scheduled.ids t.table).Nodup := by
  induction h with
  | refl => exact hs
  | tail _ hmove ih => exact hmove.ids ih

theorem Move.ended (h : Move s t) (hr : r ∈ s.table)
    (hend : r.status.live = false) : r ∈ t.table := by
  have hspared : ∀ p : ScheduledMessage → Bool, (∀ r, p r = true → r.status.live = true) →
      p r = false := by
    intro p hp
    by_contra hne
    exact absurd (hp r (by simpa using hne)) (by simp [hend])
  cases h with
  | rewrite p f hlive => exact mem_update_of_not hr (hspared p hlive)
  | insert r' =>
    unfold Store.insert
    split_ifs
    · exact hr
    · exact List.mem_append_left _ hr
  | delete p hlive => exact List.mem_filter.2 ⟨hr, by simp [hspared p hlive]⟩
  | fire r' => exact mem_update_of_not hr (hspared _ fun _ h => live_of_isLive h)

theorem Moves.ended (h : Moves s t) (hr : r ∈ s.table)
    (hend : r.status.live = false) : r ∈ t.table := by
  induction h with
  | refl => exact hr
  | tail _ hmove ih => exact hmove.ended ih hend

theorem WellFormed.eq_of_id (hs : WellFormed s) {r r' : ScheduledMessage} (hr : r ∈ s.table)
    (hr' : r' ∈ s.table) (hid : r.id = r'.id) : r = r' :=
  List.inj_on_of_nodup_map hs.ids hr hr' hid

theorem WellFormed.no_message (hs : WellFormed s) (hr : r ∈ s.table)
    (hlive : r.status.live = true) : ∀ m ∈ s.messages, m.firedFrom ≠ r.id := by
  intro m hm hfrom
  obtain ⟨r', hr', hid, hsent⟩ := (hs.sent r.id).1 ⟨m, hm, hfrom⟩
  rw [hs.eq_of_id hr' hr hid] at hsent
  exact not_sent_of_live hlive hsent

/-- **Every move keeps the tables well formed.** -/
theorem Move.wellFormed (h : Move s t) (hs : WellFormed s) : WellFormed t := by
  refine ⟨h.ids hs.ids, ?_, fun id => ?_⟩
  · cases h with
    | rewrite p f => exact hs.froms
    | insert r =>
      unfold Store.insert
      split_ifs <;> exact hs.froms
    | delete p => exact hs.froms
    | fire r segments messageId hr hlive =>
      -- The message is the first of this row: a row with a message is `sent`, not live.
      simp only [List.map_append, List.map_cons, List.map_nil]
      refine List.nodup_append.2 ⟨hs.froms, List.nodup_singleton _, ?_⟩
      rintro a ha b hb rfl
      obtain ⟨m, hm, hfrom⟩ := List.mem_map.1 ha
      rw [List.mem_singleton.1 hb] at hfrom
      exact hs.no_message hr hlive m hm hfrom
  · cases h with
    | rewrite p f hlive hid hsent =>
      refine (hs.sent id).trans ⟨?_, ?_⟩
      · rintro ⟨r, hr, hrid, hrsent⟩
        refine ⟨r, mem_update_of_not hr ?_, hrid, hrsent⟩
        by_contra hne
        exact not_sent_of_live (hlive r (by simpa using hne)) hrsent
      · rintro ⟨r, hr, hrid, hrsent⟩
        rcases mem_update.1 hr with ⟨hr, -⟩ | ⟨a, -, hp, rfl⟩
        · exact ⟨r, hr, hrid, hrsent⟩
        · exact absurd hrsent (hsent a hp)
    | insert r hpending =>
      unfold Store.insert
      split_ifs with hmem
      · exact hs.sent id
      · refine (hs.sent id).trans ⟨?_, ?_⟩
        · rintro ⟨r', hr', hid, hsent⟩
          exact ⟨r', List.mem_append_left _ hr', hid, hsent⟩
        · rintro ⟨r', hr', hid, hsent⟩
          rcases List.mem_append.1 hr' with hr' | hr'
          · exact ⟨r', hr', hid, hsent⟩
          · rw [List.mem_singleton.1 hr', hpending] at hsent
            exact absurd hsent (by decide)
    | delete p hlive =>
      refine (hs.sent id).trans ⟨?_, ?_⟩
      · rintro ⟨r, hr, hid, hsent⟩
        refine ⟨r, List.mem_filter.2 ⟨hr, ?_⟩, hid, hsent⟩
        by_contra hne
        exact not_sent_of_live (hlive r (by simpa using hne)) hsent
      · rintro ⟨r, hr, hid, hsent⟩
        exact ⟨r, (List.mem_filter.1 hr).1, hid, hsent⟩
    | fire r segments messageId hr hlive =>
      have hlocked : r.isLive r.id = true := by simp [ScheduledMessage.isLive, hlive]
      constructor
      · rintro ⟨m, hm, hfrom⟩
        rcases List.mem_append.1 hm with hm | hm
        · obtain ⟨r', hr', hid, hsent⟩ := (hs.sent id).1 ⟨m, hm, hfrom⟩
          refine ⟨r', mem_update_of_not hr' ?_, hid, hsent⟩
          by_contra hne
          exact not_sent_of_live (live_of_isLive (by simpa using hne)) hsent
        · rw [List.mem_singleton.1 hm] at hfrom
          exact ⟨_, mem_update_of hr hlocked, hfrom, rfl⟩
      · rintro ⟨r', hr', hid, hsent⟩
        rcases mem_update.1 hr' with ⟨hr', -⟩ | ⟨a, ha, hp, rfl⟩
        · obtain ⟨m, hm, hfrom⟩ := (hs.sent id).2 ⟨r', hr', hid, hsent⟩
          exact ⟨m, List.mem_append_left _ hm, hfrom⟩
        · refine ⟨_, List.mem_append_right _ (List.mem_singleton_self _), ?_⟩
          simp only [ScheduledMessage.isLive, Bool.and_eq_true, beq_iff_eq] at hp
          exact hp.1.symm.trans hid

theorem Moves.wellFormed (h : Moves s t) (hs : WellFormed s) : WellFormed t := by
  induction h with
  | refl => exact hs
  | tail _ hmove ih => exact hmove.wellFormed ih

end Scheduled
