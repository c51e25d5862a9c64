/-
**The rows of two-way calendar synchronisation.**

Migration `20260825020000` keeps, for a task and a member's calendar connection, at most one link
to the provider's event and at most one live row of `calendar_outbox`: the index
`calendar_outbox_one_live_action_uq` admits one row that is queued or leased, and
`task_calendar_links` is unique in the connection and the task.  So the rows of one task and one
connection are a connection, a task, a link or none, and a live row or none.

A function of the migration is a function of these rows, which gives the rows afterwards and its
outcome, or nothing where it raises: the transaction is rolled back and the rows are as before.

Main definitions:

* `CalendarRows.Rows` — the rows of one task and one connection;
* `CalendarRows.snapshotFromFields`, `CalendarRows.taskSnapshot` — what is compared;
* `CalendarRows.Rows.eligible`, `CalendarRows.Rows.enqueue` — whether the task belongs on the
  calendar, and how an intent meets the live row.

Main results:

* `CalendarRows.Outbox.rewrite_of_ambiguous` — **a write that may have reached the provider is not
  replaced**;
* `CalendarRows.taskSnapshot_of_snapshot` — a task with the fields of a snapshot has that snapshot.
-/

import Texturion.CalendarSync
import Mathlib.Tactic.Ring

namespace CalendarRows

open CalendarSync

/-! ### Snapshots -/

/-- The two functions on texts that Postgres brings: the composed normal form, and the hash. -/
structure Text where
  nfc : String → String
  sha256 : String → String

/-- `\r\n` and `\r` become `\n`. -/
def unifyLines : List Char → List Char
  | '\r' :: '\n' :: cs => '\n' :: unifyLines cs
  | '\r' :: cs => '\n' :: unifyLines cs
  | c :: cs => c :: unifyLines cs
  | [] => []

/-- `calendar_normalize_text`. -/
def Text.normalizeText (x : Text) (s : String) : String :=
  String.ofList (unifyLines (x.nfc s).toList)

/-- `nullif(btrim(s), '') is null`. -/
def blank (s : String) : Bool := s.toList.all (· = ' ')

variable (x : Text)

/-- `calendar_snapshot_from_fields`. -/
def snapshotFromFields (start endAt : ℤ) (zone title description : String) : Option Snapshot :=
  if endAt ≤ start ∨ blank zone ∨ blank (x.normalizeText title) ∨
      500 < (x.normalizeText title).length then none
  else some
    { start := start
      endAt := endAt
      timeZone := zone
      title := x.normalizeText title
      descriptionHash := x.sha256 (x.normalizeText description) }

/-- A row of `tasks`, with the fields a calendar reads. -/
structure Task where
  title : String
  description : String
  dueAt : Option ℤ
  assignedUserId : Option ℕ
  deleted : Bool
  deriving DecidableEq

def hour : ℤ := 3600 * 1000000

/-- `calendar_task_snapshot`: the null of a task without a date, and the duration and the zone of
the reference. -/
def taskSnapshot (t : Task) (reference : Option Snapshot) (fallback : String) :
    Option (Option Snapshot) :=
  match t.dueAt with
  | none => some none
  | some due =>
      (snapshotFromFields x due
        (due + reference.elim hour fun r => r.endAt - r.start)
        (reference.elim fallback (·.timeZone)) t.title t.description).map some

/-! ### The rows -/

inductive ConnectionStatus
  | active
  | reauthRequired
  | disconnected
  | revoked
  deriving DecidableEq

inductive Action
  | create
  | upsert
  | unlink
  | scrub
  deriving DecidableEq

structure Lease where
  owner : ℕ
  expiresAt : ℤ
  deriving DecidableEq

def Lease.held (l : Lease) (worker : ℕ) (now : ℤ) : Bool := l.owner = worker ∧ now < l.expiresAt

/-- A row of `calendar_connections`; `revoked_at` is set exactly in the status `revoked`.  `working`
says that the workspace is open and the member active, `watch` that a webhook subscription is not
yet revoked. -/
structure Connection where
  userId : ℕ
  status : ConnectionStatus
  cleanup : Option Action
  timezone : String
  pullGeneration : ℕ
  pullLease : Option Lease
  working : Bool
  watch : Bool
  deriving DecidableEq

/-- A row of `task_calendar_links`. -/
structure Link where
  eventId : String
  instanceId : String
  seriesId : Option String
  version : Option String
  state : LinkState
  base : Snapshot
  lastSent : Option Snapshot
  conflictOurs : Option Snapshot
  conflictTheirs : Option Snapshot
  eventRemovedAt : Bool
  refusalCode : Option String
  deriving DecidableEq

/-- A live row of `calendar_outbox`: queued without a lease, leased with one.  `effect` is
`provider_effect_lease_generation`, which is set exactly where the effect is ambiguous; `linked`
says that `link_id` is given. -/
structure Outbox where
  id : ℕ
  linked : Bool
  action : Action
  requested : Option Snapshot
  precondition : Option String
  generation : ℕ
  lease : Option Lease
  leaseGeneration : ℕ
  effect : Option ℕ
  availableAt : ℤ
  deriving DecidableEq

def Outbox.ambiguous (o : Outbox) : Bool := o.effect.isSome

/-- The rows of one task and one connection.  `access` is what `calendar_task_access_allowed`
answers for the two. -/
structure Rows where
  connection : Connection
  task : Task
  access : Bool
  link : Option Link
  live : Option Outbox
  nextId : ℕ
  deriving DecidableEq

/-- The outcomes of the functions. -/
inductive Outcome
  | leaseLost
  | superseded
  | disconnected
  | invalidLeaseProof
  | notFound
  | committed
  | followupQueued
  | followupChecked
  | conflict
  | marked
  | queued
  | cancelled
  | ambiguousEffect
  | cleanupAbandoned
  | echo
  | pushQueued
  | providerApplied
  | localUnscheduled
  | converged
  | unlinkQueued
  | scrubQueued
  | refused
  | eventRemoved
  | observed
  | stillFlagged
  | appSnapshotRequired
  | attentionStale
  | providerConditionChanged
  | outsideSyncWindow
  | taskIneligible
  | providerVersionRequired
  | providerInstanceMismatch
  | resolved
  | dateRequired
  | moved
  | busy
  | revoked
  | disconnecting
  | done
  deriving DecidableEq

/-- What a function of the migration comes to; nothing where it raises. -/
abbrev Result := Option (Rows × Outcome)

/-- `calendar_task_in_sync_window`: 90 days back, 365 days ahead. -/
def inSyncWindow (now due : ℤ) : Bool := now - 90 * 24 * hour ≤ due ∧ due ≤ now + 365 * 24 * hour

namespace Rows

variable (s : Rows) (now : ℤ)

/-- The task belongs on the calendar: it is there, dated within the window, assigned to the
member, and the member may see it. -/
def eligible : Bool :=
  ¬s.task.deleted ∧ s.task.dueAt.any (inSyncWindow now) ∧
    s.task.assignedUserId = some s.connection.userId ∧ s.access

def active : Bool := s.connection.status = .active

def linkState : Option LinkState := s.link.map (·.state)

def endLive : Rows := { s with live := none }

def setLink (l : Link) : Rows := { s with link := some l }

def freshRow (linked : Bool) (action : Action) (requested : Option Snapshot)
    (precondition : Option String) : Outbox where
  id := s.nextId
  linked := linked
  action := action
  requested := requested
  precondition := precondition
  generation := 1
  lease := none
  leaseGeneration := 0
  effect := none
  availableAt := now

/-- An insert without a conflict clause: it raises while a row is live. -/
def insertLive (linked : Bool) (action : Action) (requested : Option Snapshot)
    (precondition : Option String) : Option Rows :=
  match s.live with
  | some _ => none
  | none => some { s with
      live := some (s.freshRow now linked action requested precondition)
      nextId := s.nextId + 1 }

end Rows

/-- The conflict clause of the enqueueing statements: the intent replaces the one of the live row,
unless its effect is ambiguous. -/
def Outbox.rewrite (o : Outbox) (now : ℤ) (linked : Bool) (action : Action)
    (requested : Option Snapshot) (precondition : Option String) : Outbox :=
  let o := { o with generation := o.generation + 1, availableAt := min o.availableAt now }
  if o.ambiguous then o
  else { o with
    linked := linked
    action := action
    requested := requested
    precondition := precondition }

/-- An insert with that clause. -/
def Rows.enqueue (s : Rows) (now : ℤ) (linked : Bool) (action : Action)
    (requested : Option Snapshot) (precondition : Option String) : Rows :=
  match s.live with
  | none => { s with
      live := some (s.freshRow now linked action requested precondition)
      nextId := s.nextId + 1 }
  | some o => { s with live := some (o.rewrite now linked action requested precondition) }

/-! ### Small facts -/

theorem Outbox.rewrite_of_ambiguous {o : Outbox} (h : o.ambiguous = true) (now : ℤ) (linked : Bool)
    (action : Action) (requested : Option Snapshot) (precondition : Option String) :
    (o.rewrite now linked action requested precondition).action = o.action ∧
      (o.rewrite now linked action requested precondition).linked = o.linked ∧
      (o.rewrite now linked action requested precondition).requested = o.requested ∧
      (o.rewrite now linked action requested precondition).ambiguous = true := by
  have h' : o.effect.isSome = true := h
  simp [Outbox.rewrite, Outbox.ambiguous, h']

theorem Outbox.rewrite_of_not_ambiguous {o : Outbox} (h : o.ambiguous = false) (now : ℤ)
    (linked : Bool) (action : Action) (requested : Option Snapshot) (precondition : Option String) :
    (o.rewrite now linked action requested precondition).action = action ∧
      (o.rewrite now linked action requested precondition).linked = linked ∧
      (o.rewrite now linked action requested precondition).requested = requested ∧
      (o.rewrite now linked action requested precondition).ambiguous = false := by
  have h' : o.effect.isSome = false := h
  simp [Outbox.rewrite, Outbox.ambiguous, h']

/-- Only the outbox is written. -/
structure Rows.OutboxOnly (s s' : Rows) : Prop where
  connection : s'.connection = s.connection
  task : s'.task = s.task
  access : s'.access = s.access
  link : s'.link = s.link

theorem Rows.OutboxOnly.refl (s : Rows) : s.OutboxOnly s := ⟨rfl, rfl, rfl, rfl⟩

theorem Rows.OutboxOnly.trans {s t u : Rows} (h : s.OutboxOnly t) (h' : t.OutboxOnly u) :
    s.OutboxOnly u :=
  ⟨h'.connection.trans h.connection, h'.task.trans h.task, h'.access.trans h.access,
    h'.link.trans h.link⟩

theorem Rows.OutboxOnly.eligible {s t : Rows} (h : s.OutboxOnly t) (now : ℤ) :
    t.eligible now = s.eligible now := by
  simp only [Rows.eligible, h.connection, h.task, h.access]

/-- Neither the connection nor what its member may see is written. -/
structure Rows.SameMember (s s' : Rows) : Prop where
  connection : s'.connection = s.connection
  access : s'.access = s.access

theorem Rows.SameMember.refl (s : Rows) : s.SameMember s := ⟨rfl, rfl⟩

theorem Rows.OutboxOnly.sameMember {s t : Rows} (h : s.OutboxOnly t) : s.SameMember t :=
  ⟨h.connection, h.access⟩

theorem Rows.outboxOnly_enqueue (s : Rows) (now : ℤ) (linked : Bool) (action : Action)
    (requested : Option Snapshot) (precondition : Option String) :
    s.OutboxOnly (s.enqueue now linked action requested precondition) := by
  unfold Rows.enqueue
  split <;> exact ⟨rfl, rfl, rfl, rfl⟩

theorem Rows.outboxOnly_insertLive {s s' : Rows} {now : ℤ} {linked : Bool} {action : Action}
    {requested : Option Snapshot} {precondition : Option String}
    (h : s.insertLive now linked action requested precondition = some s') : s.OutboxOnly s' := by
  unfold Rows.insertLive at h
  split at h
  · simp at h
  · obtain rfl := Option.some.inj h
    exact ⟨rfl, rfl, rfl, rfl⟩

theorem snapshotFromFields_eq_some {start endAt : ℤ} {zone title description : String}
    {r : Snapshot} (h : snapshotFromFields x start endAt zone title description = some r) :
    start < endAt ∧ r.start = start ∧ r.endAt = endAt ∧ r.timeZone = zone ∧
      r.title = x.normalizeText title ∧
      r.descriptionHash = x.sha256 (x.normalizeText description) := by
  unfold snapshotFromFields at h
  split at h
  · simp at h
  · next hc =>
      obtain rfl := Option.some.inj h
      exact ⟨by omega, rfl, rfl, rfl, rfl, rfl⟩

theorem snapshotFromFields_description {start endAt : ℤ} {zone title description : String}
    {r : Snapshot} (h : snapshotFromFields x start endAt zone title description = some r)
    (other : String) : snapshotFromFields x start endAt zone title other =
      some { r with descriptionHash := x.sha256 (x.normalizeText other) } := by
  unfold snapshotFromFields at h ⊢
  split at h
  · simp at h
  · next hc =>
      obtain rfl := Option.some.inj h
      rw [if_neg hc]

theorem taskSnapshot_of_snapshot {t : Task} {zone description : String} {r : Snapshot}
    {fallback : String} (hdue : t.dueAt = some r.start)
    (hr : snapshotFromFields x r.start r.endAt zone t.title description = some r)
    (hhash : r.descriptionHash = x.sha256 (x.normalizeText t.description)) :
    taskSnapshot x t (some r) fallback = some (some r) := by
  obtain ⟨-, -, -, hzone, -, -⟩ := snapshotFromFields_eq_some x hr
  have hdesc := snapshotFromFields_description x hr t.description
  have hend : r.start + (r.endAt - r.start) = r.endAt := by ring
  simp only [taskSnapshot, hdue, Option.elim_some, hend, hzone]
  rw [hdesc, ← hhash]
  rfl

end CalendarRows
