/-
**What an observation of the provider writes to the calendar rows.**

`api_apply_calendar_provider_snapshot` decides between the task, the observation and the last
values both sides agreed on; the functions beside it record a removal, a refusal, a conflict, and
the answers of the member to those.  A provider's write to the task does not pass the trigger of
`tasks`: the transaction carries a flag.
-/

import Texturion.CalendarCommits

namespace CalendarInbound

open CalendarSync CalendarRows CalendarHooks CalendarCommits Fallible

variable (x : Text) (now : ℤ)

/-- By what a worker proves that it may write: the pull, or the outbox row it holds. -/
inductive LeaseProof
  | pull (worker generation : ℕ)
  | outbox (ticket : Ticket)
  | neither
  deriving DecidableEq

/-- `calendar_sync_mutation_lease_outcome`; nothing is `current`. -/
def mutationLease (proof : LeaseProof) (s : Rows) : Option Outcome :=
  if ¬s.active then some .disconnected
  else match proof with
    | .neither => some .invalidLeaseProof
    | .outbox t =>
      match s.live with
      | none => some .leaseLost
      | some o =>
        if ¬leasedTo now t o then some .leaseLost
        else if o.generation ≠ t.generation then some .superseded
        else none
    | .pull worker generation =>
      if ¬s.connection.pullLease.any fun l => l.held worker now then some .leaseLost
      else if s.connection.pullGeneration ≠ generation then some .superseded
      else none

/-- An observation of the provider's event, with a time. -/
structure Observation where
  eventId : String
  instanceId : String
  seriesId : Option String
  version : Option String
  start : ℤ
  endAt : ℤ
  zone : String
  title : String
  description : String
  preserveDescription : Bool
  deriving DecidableEq

/-! ### Attention -/

/-- `left(s, 100)`, the width of a refusal's code. -/
def left100 (s : String) : String := String.ofList (s.toList.take 100)

def refusedLink (l : Link) (version : Option String) (code : String) : Link :=
  { l with
    state := .refused
    lastSent := none
    conflictOurs := none
    conflictTheirs := none
    eventRemovedAt := false
    version := version
    refusalCode := some (left100 code) }

/-- The date goes, where there is no instant to be honest about. -/
def clearDue (clear : Bool) (s : Rows) : Rows :=
  if clear then { s with task := { s.task with dueAt := none } } else s

/-- `api_mark_calendar_refusal`. -/
def markRefusal (proof : LeaseProof) (instanceId : String) (version : Option String)
    (code : String) (clear : Bool) (s : Rows) : Rows × Outcome :=
  match mutationLease now proof s with
  | some lost => (s, lost)
  | none =>
    match s.link with
    | none => (s, .notFound)
    | some l =>
      if l.instanceId ≠ instanceId then (s, .notFound)
      else match l.state with
        | .refused =>
          ((clearDue clear (s.setLink { l with
            version := version, refusalCode := some (left100 code) })).endLive, .refused)
        | .conflict =>
          -- an observation without a time cannot answer a conflict
          (s.setLink { l with
            version := version
            refusalCode := some (left100 code)
            eventRemovedAt := false }, .refused)
        | .unlinked => (s, .notFound)
        | _ => ((clearDue clear (s.setLink (refusedLink l version code))).endLive, .refused)

def removedLink (l : Link) (version : Option String) : Link :=
  { l with
    state := .eventRemoved
    eventRemovedAt := true
    version := version
    lastSent := none
    conflictOurs := none
    conflictTheirs := none
    refusalCode := none }

/-- The removal of an event that is not explained by a scrub of ours. -/
def removeEvent (l : Link) (version : Option String) (s : Rows) : Rows × Outcome :=
  match l.state with
  | .eventRemoved => (s.setLink { l with version := version }, .eventRemoved)
  | .conflict =>
    (s.setLink { l with version := version, eventRemovedAt := true, refusalCode := none },
      .eventRemoved)
  | .unlinked => (s, .notFound)
  | _ => ((clearDue true (s.setLink (removedLink l version))).endLive, .eventRemoved)

/-- A scrub whose answer was lost: the removal is its success. -/
def scrubbing (s : Rows) : Bool := s.live.any fun o => o.action = .scrub ∧ o.ambiguous

/-- `api_mark_calendar_event_removed`. -/
def markEventRemoved (proof : LeaseProof) (instanceId : String) (version : Option String)
    (s : Rows) : Result :=
  match mutationLease now proof s with
  | some lost => some (s, lost)
  | none =>
    match s.link with
    | none => some (s, .notFound)
    | some l =>
      if l.instanceId ≠ instanceId then some (s, .notFound)
      else if scrubbing s then do
        let r ← createAfterScrub x now (s.endLive.setLink { releasedLink l with version := none })
        some ((finalizeDisconnected r.1).1, .eventRemoved)
      else some (removeEvent l version s)

def conflictLink (l : Link) (version : Option String) (ours theirs : Snapshot) : Link :=
  { l with
    state := .conflict
    version := version
    lastSent := none
    conflictOurs := some ours
    conflictTheirs := some theirs }

/-- `api_mark_calendar_conflict`. -/
def markConflict (worker generation : ℕ) (version : Option String) (ours theirs : Snapshot)
    (s : Rows) : Rows × Outcome :=
  match mutationLease now (.pull worker generation) s with
  | some lost => (s, lost)
  | none =>
    match s.link with
    | none => (s, .notFound)
    | some l =>
      match l.state with
      | .conflict => (s.setLink { l with
          version := version, conflictOurs := some ours, conflictTheirs := some theirs },
          .conflict)
      | .active => ((s.setLink (conflictLink l version ours theirs)).endLive, .conflict)
      | _ => (s, .notFound)

/-! ### The decision -/

/-- `api_enqueue_calendar_push`: the outcome is not looked at by its caller. -/
def enqueuePush (proof : LeaseProof) (version : Option String) (snapshot : Snapshot) (s : Rows) :
    Rows :=
  if mutationLease now proof s = none ∧ s.linkState = some .active ∧ s.active ∧ s.access then
    s.enqueue now true .upsert (some snapshot) version
  else s

/-- The intent of the cleanup branch: the generation counts only what changes. -/
def enqueueUnwanted (action : Action) (version : Option String) (s : Rows) : Rows :=
  match s.live with
  | none => s.enqueue now true action none version
  | some o =>
    let same := o.action = action ∧ o.linked ∧ o.precondition = version
    { s with live := some { o.rewrite now true action none version with
      generation := if same then o.generation else o.generation + 1 } }

/-- The link as it is after the observation has been taken over, or has agreed. -/
def settledLink (l : Link) (version : Option String) (base : Snapshot) : Link :=
  { l with
    state := .active
    base := base
    version := version
    lastSent := none
    conflictOurs := none
    conflictTheirs := none
    eventRemovedAt := false
    refusalCode := none }

/-- The provider's values in the task: the column takes a title of 1 to 500 characters. -/
def overwriteTask (obs : Observation) (s : Rows) : Option Rows :=
  if obs.title.length = 0 ∨ 500 < obs.title.length then none
  else some { s with task := { s.task with
    dueAt := some obs.start
    title := obs.title
    description :=
      if obs.preserveDescription then s.task.description else obs.description } }

def weigh (proof : LeaseProof) (obs : Observation) (l : Link) (ours theirs : Snapshot)
    (s : Rows) : Result :=
  if l.lastSent = some theirs then
    let s := s.setLink (settledLink l obs.version theirs)
    if ours = theirs then some (s.endLive, .echo)
    else some (enqueuePush now proof obs.version ours s, .pushQueued)
  else if ours = l.base ∧ theirs ≠ l.base then do
    let s ← overwriteTask obs s
    some ((s.setLink (settledLink l obs.version theirs)).endLive, .providerApplied)
  else if theirs = l.base ∧ ours ≠ l.base then
    some (enqueuePush now proof obs.version ours (s.setLink (settledLink l obs.version l.base)),
      .pushQueued)
  else if ours = theirs then
    some ((s.setLink (settledLink l obs.version theirs)).endLive, .converged)
  else some ((s.setLink (conflictLink l obs.version ours theirs)).endLive, .conflict)

/-- An upsert whose answer was lost, and which asked for exactly what is observed. -/
def recovered (theirs : Snapshot) (s : Rows) : Bool :=
  s.live.any fun o => o.action = .upsert ∧ o.linked ∧ o.ambiguous ∧ o.requested = some theirs

def recoverWrite (obs : Observation) (l : Link) (ours : Option Snapshot) (theirs : Snapshot)
    (s : Rows) : Result :=
  let s := s.endLive.setLink (settledLink l obs.version theirs)
  if ours = some theirs then some (s, .echo)
  else do
    -- the column of an upsert takes no null
    let snapshot ← ours
    let s ← s.insertLive now true .upsert (some snapshot) obs.version
    some (s, .pushQueued)

/-- The provider's values as a snapshot; an online meeting keeps the description of the base. -/
def observedSnapshot (obs : Observation) (base : Snapshot) : Option Snapshot := do
  let theirs ← snapshotFromFields x obs.start obs.endAt obs.zone obs.title
    (if obs.preserveDescription then "" else obs.description)
  some (if obs.preserveDescription then { theirs with descriptionHash := base.descriptionHash }
    else theirs)

/-- What of an observation cannot be stored; nothing where all of it can. -/
def unstorable (obs : Observation) : Option String :=
  if ¬inSyncWindow now obs.start then some "outside_sync_window"
  else if ¬obs.preserveDescription ∧ 5000 < (x.normalizeText obs.description).length then
    some "description_too_long"
  else if (x.normalizeText obs.title).length = 0 ∨ 500 < (x.normalizeText obs.title).length then
    some "invalid_title"
  else none

/-- The task is not to be on the calendar: provider observations never bring it back. -/
def unwanted (l : Link) (s : Rows) : Bool :=
  s.task.deleted ∨ s.task.assignedUserId ≠ some s.connection.userId ∨ ¬s.access ∨
    s.task.dueAt.any (fun due => ¬inSyncWindow now due) ∨
    s.task.dueAt = none ∧ l.state ≠ .eventRemoved ∧ l.state ≠ .refused

/-- `api_apply_calendar_provider_snapshot`. -/
def applyProviderSnapshot (proof : LeaseProof) (obs : Observation) (s : Rows) : Result :=
  match mutationLease now proof s with
  | some lost => some (s, lost)
  | none =>
    match s.link with
    | none => some (s, .notFound)
    | some l =>
      if l.state = .unlinked ∨ l.eventId ≠ obs.eventId ∨ l.instanceId ≠ obs.instanceId ∨
          l.seriesId ≠ obs.seriesId then some (s, .notFound)
      else if unwanted now l s then
        if s.access then some (enqueueUnwanted now .unlink obs.version s, .unlinkQueued)
        else some (enqueueUnwanted now .scrub obs.version s, .scrubQueued)
      else match unstorable x now obs with
        | some code =>
          some (markRefusal now proof obs.instanceId obs.version code false s)
        | none => do
            let ours ← taskSnapshot x s.task (some l.base) s.connection.timezone
            let theirs ← observedSnapshot x obs l.base
            if recovered theirs s then recoverWrite now obs l ours theirs s
            else match ours with
              | some ours => weigh now proof obs l ours theirs s
              | none => do
                  -- a removed or refused event has come back with a time
                  let s ← overwriteTask obs s
                  some ((s.setLink (settledLink l obs.version theirs)).endLive,
                    .providerApplied)

/-! ### The member's answers -/

/-- `api_observe_calendar_conflict_condition`: the route's own reading of an event in conflict. -/
def observeCondition (instanceId : String) (expected : Option Snapshot)
    (expectedVersion : Option String) (refusal : Option (String × String)) (s : Rows) : Result :=
  match s.link with
  | none => some (s, .notFound)
  | some l =>
    if ¬(s.active ∧ s.connection.working) ∨ l.state ≠ .conflict then some (s, .notFound)
    else if l.instanceId ≠ instanceId then some (s, .providerInstanceMismatch)
    else if l.version ≠ expectedVersion then some (s, .attentionStale)
    else if ¬s.access then some (s, .notFound)
    else do
      let current ← taskSnapshot x s.task (some l.base) s.connection.timezone
      if expected = none ∨ current = none ∨ current ≠ expected then
        some (s, .attentionStale)
      else match refusal with
        | none => some (s.setLink { l with eventRemovedAt := true, refusalCode := none },
            .observed)
        | some (version, code) => some (s.setLink { l with
            version := some version, refusalCode := some code, eventRemovedAt := false },
            .observed)

/-- The conflict clause of an answer: the intent replaces the live row, whatever it is. -/
def replaceLive (action : Action) (requested : Option Snapshot) (version : Option String)
    (s : Rows) : Rows :=
  match s.live with
  | none => s.enqueue now true action requested version
  | some o => { s with live := some { o with
      linked := true
      action := action
      requested := requested
      precondition := version
      generation := o.generation + 1
      lease := none
      availableAt := now } }

inductive Resolution
  | useApp
  | useCalendar
  | notSure
  deriving DecidableEq

/-- A fresh reading of the event, for the member who takes its values. -/
structure Fresh where
  instanceId : String
  version : Option String
  start : Option ℤ
  endAt : ℤ
  zone : String
  title : String
  description : String
  deriving DecidableEq

def resolveUseApp (l : Link) (s : Rows) : Result :=
  if ¬s.eligible now then
    some (s, if s.task.dueAt.any fun due => ¬inSyncWindow now due then .outsideSyncWindow
      else .taskIneligible)
  else if l.refusalCode.isSome ∧ (l.version = none ∨ l.version = some "") then
    some (s, .providerVersionRequired)
  else do
    let snapshot ← taskSnapshot x s.task (some l.base) s.connection.timezone
    let s := s.setLink (settledLink l l.version l.base)
    if l.eventRemovedAt then some (replaceLive now .create snapshot none s, .queued)
    else some (replaceLive now .upsert snapshot l.version s, .queued)

def resolveUseCalendar (l : Link) (fresh : Fresh) (s : Rows) : Result :=
  if l.instanceId ≠ fresh.instanceId then some (s, .providerInstanceMismatch)
  else if fresh.version = none ∨ fresh.version = some "" then
    some (s, .providerVersionRequired)
  else match fresh.start with
    | none => some (s.setLink { l with
        version := fresh.version, refusalCode := some "invalid_time", eventRemovedAt := false },
        .providerConditionChanged)
    | some start =>
      if ¬inSyncWindow now start then some (s.setLink { l with
        version := fresh.version
        refusalCode := some "outside_sync_window"
        eventRemovedAt := false }, .providerConditionChanged)
      else do
        let snapshot ←
          snapshotFromFields x start fresh.endAt fresh.zone fresh.title fresh.description
        let task := { s.task with
          dueAt := some start
          title := x.normalizeText fresh.title
          description := x.normalizeText fresh.description }
        some (({ s with task := task }.setLink
          (settledLink l fresh.version snapshot)).endLive, .resolved)

/-- `api_resolve_calendar_conflict`, by the member whose connection it is. -/
def resolveConflict (resolution : Resolution) (expected : Option Snapshot) (fresh : Fresh)
    (s : Rows) : Result :=
  match s.link with
  | none => some (s, .notFound)
  | some l =>
    if ¬s.access ∨ l.state ≠ .conflict then some (s, .notFound)
    else if resolution = .notSure then some (s, .stillFlagged)
    else if ¬s.active then some (s, .disconnected)
    else if expected = none then some (s, .appSnapshotRequired)
    else do
      let current ← taskSnapshot x s.task (some l.base) s.connection.timezone
      if current = none ∨ current ≠ expected then some (s, .attentionStale)
      else match resolution with
        | .useApp => resolveUseApp x now l s
        | _ =>
          -- what was observed since makes the calendar's old choice inapplicable
          if l.eventRemovedAt ∨ l.refusalCode.isSome then some (s, .providerConditionChanged)
          else resolveUseCalendar x now l fresh s

inductive Answer
  | cancelled
  | moved (due : Option ℤ)
  | notSure
  deriving DecidableEq

/-- `api_resolve_calendar_event_removed`, by the member whose connection it is. -/
def resolveEventRemoved (answer : Answer) (s : Rows) : Result :=
  match s.link with
  | none => some (s, .notFound)
  | some l =>
    if ¬s.access ∨ l.state ≠ .eventRemoved then some (s, .notFound)
    else match answer with
      | .notSure => some (s, .stillFlagged)
      | .cancelled => some ((s.setLink { l with state := .unlinked }).endLive, .cancelled)
      | .moved none => some (s, .dateRequired)
      | .moved (some due) =>
        if ¬inSyncWindow now due then some (s, .outsideSyncWindow)
        else if ¬s.active then some (s, .disconnected)
        else if s.task.deleted ∨ s.task.assignedUserId ≠ some s.connection.userId then
          some (s, .taskIneligible)
        else do
          -- the new date passes the trigger like any other
          let r ← editTask x now { s.task with dueAt := some due } s
          let snapshot ← taskSnapshot x r.1.task (some l.base) r.1.connection.timezone
          some (replaceLive now .create snapshot none r.1, .moved)

/-! ### What they leave alone -/

theorem outboxOnly_enqueuePush (proof : LeaseProof) (version : Option String)
    (snapshot : Snapshot) (s : Rows) : s.OutboxOnly (enqueuePush now proof version snapshot s) := by
  unfold enqueuePush
  split
  · exact s.outboxOnly_enqueue now ..
  · exact .refl s

theorem outboxOnly_enqueueUnwanted (action : Action) (version : Option String) (s : Rows) :
    s.OutboxOnly (enqueueUnwanted now action version s) := by
  unfold enqueueUnwanted
  split
  · exact s.outboxOnly_enqueue now ..
  · exact ⟨rfl, rfl, rfl, rfl⟩

theorem outboxOnly_replaceLive (action : Action) (requested : Option Snapshot)
    (version : Option String) (s : Rows) :
    s.OutboxOnly (replaceLive now action requested version s) := by
  unfold replaceLive
  split
  · exact s.outboxOnly_enqueue now ..
  · exact ⟨rfl, rfl, rfl, rfl⟩

@[simp] theorem clearDue_link (clear : Bool) (s : Rows) : (clearDue clear s).link = s.link := by
  unfold clearDue
  split <;> rfl

@[simp] theorem clearDue_access (clear : Bool) (s : Rows) :
    (clearDue clear s).access = s.access := by
  unfold clearDue
  split <;> rfl

variable {obs : Observation}

theorem overwriteTask_link {s s' : Rows} (h : overwriteTask obs s = some s') :
    s'.link = s.link ∧ s'.live = s.live ∧ s'.access = s.access ∧
      s'.connection = s.connection := by
  unfold overwriteTask at h
  split at h
  · simp at h
  · obtain rfl := Option.some.inj h
    exact ⟨rfl, rfl, rfl, rfl⟩

/-! ### What each of them can do -/

section
variable {x now} {s s' : Rows} {outcome : Outcome} {proof : LeaseProof}

theorem mutationLease_active (h : mutationLease now proof s = none) : s.active = true := by
  unfold mutationLease at h
  split at h
  · simp at h
  · next ha => simpa using ha

variable {instanceId code : String} {version : Option String} {l : Link}
  {ours expected : Option Snapshot} {theirs : Snapshot} {fresh : Fresh}

theorem markRefusal_cases {clear : Bool}
    (h : markRefusal now proof instanceId version code clear s = (s', outcome)) :
    s' = s ∨ ∃ l, s.link = some l ∧
      (mutationLease now proof s = none ∧ l.instanceId = instanceId) ∧
      (l.state = .refused ∧ s' = (clearDue clear (s.setLink { l with
          version := version, refusalCode := some (left100 code) })).endLive ∨
        l.state = .conflict ∧ s' = s.setLink { l with
          version := version
          refusalCode := some (left100 code)
          eventRemovedAt := false } ∨
        (l.state = .active ∨ l.state = .eventRemoved) ∧
          s' = (clearDue clear (s.setLink (refusedLink l version code))).endLive) := by
  unfold markRefusal at h
  split at h
  · exact .inl (Prod.mk.inj h).1.symm
  next hlease =>
  split at h
  · exact .inl (Prod.mk.inj h).1.symm
  next l hl =>
  split at h
  · exact .inl (Prod.mk.inj h).1.symm
  next hinstance =>
  have hlease := And.intro hlease (not_not.1 hinstance)
  split at h
  · next hstate => exact .inr ⟨l, hl, hlease, .inl ⟨hstate, (Prod.mk.inj h).1.symm⟩⟩
  · next hstate => exact .inr ⟨l, hl, hlease, .inr (.inl ⟨hstate, (Prod.mk.inj h).1.symm⟩)⟩
  · exact .inl (Prod.mk.inj h).1.symm
  · next hr hc hu =>
    refine .inr ⟨l, hl, hlease, .inr (.inr ⟨?_, (Prod.mk.inj h).1.symm⟩)⟩
    cases hstate : l.state <;> simp_all

theorem markRefusal_task
    (h : markRefusal now proof instanceId version code false s = (s', outcome)) :
    s'.task = s.task := by
  rcases markRefusal_cases h with rfl | ⟨l, -, -, ⟨-, rfl⟩ | ⟨-, rfl⟩ | ⟨-, rfl⟩⟩ <;> rfl

theorem removeEvent_cases (h : removeEvent l version s = (s', outcome)) :
    s' = s ∨ l.state = .eventRemoved ∧ s' = s.setLink { l with version := version } ∨
      l.state = .conflict ∧ s' = s.setLink { l with
        version := version, eventRemovedAt := true, refusalCode := none } ∨
      (l.state = .active ∨ l.state = .refused) ∧
        s' = (clearDue true (s.setLink (removedLink l version))).endLive := by
  unfold removeEvent at h
  cases hstate : l.state <;> simp only [hstate] at h
  case active => exact .inr (.inr (.inr ⟨.inl rfl, (Prod.mk.inj h).1.symm⟩))
  case conflict => exact .inr (.inr (.inl ⟨rfl, (Prod.mk.inj h).1.symm⟩))
  case eventRemoved => exact .inr (.inl ⟨rfl, (Prod.mk.inj h).1.symm⟩)
  case refused => exact .inr (.inr (.inr ⟨.inr rfl, (Prod.mk.inj h).1.symm⟩))
  case unlinked => exact .inl (Prod.mk.inj h).1.symm

theorem markEventRemoved_cases
    (h : markEventRemoved x now proof instanceId version s = some (s', outcome)) :
    s' = s ∨ ∃ l, s.link = some l ∧ mutationLease now proof s = none ∧
      (scrubbing s = true ∧ (∃ r,
          createAfterScrub x now (s.endLive.setLink { releasedLink l with version := none }) =
            some r ∧ s' = (finalizeDisconnected r.1).1) ∨
        scrubbing s = false ∧ removeEvent l version s = (s', outcome)) := by
  unfold markEventRemoved at h
  split at h
  · exact .inl (left_eq h)
  next hlease =>
  split at h
  · exact .inl (left_eq h)
  next l hl =>
  split at h
  · exact .inl (left_eq h)
  split at h
  · next hscrub =>
    obtain ⟨r, hr, h⟩ := Option.bind_eq_some_iff.1 h
    exact .inr ⟨l, hl, hlease, .inl ⟨hscrub, r, hr, left_eq h⟩⟩
  · next hscrub =>
    exact .inr ⟨l, hl, hlease, .inr ⟨by simpa using hscrub, Option.some.inj h⟩⟩

theorem markConflict_cases {worker generation : ℕ} {ours theirs : Snapshot}
    (h : markConflict now worker generation version ours theirs s = (s', outcome)) :
    s' = s ∨ ∃ l, s.link = some l ∧ mutationLease now (.pull worker generation) s = none ∧
      (l.state = .conflict ∧ s' = s.setLink { l with
          version := version, conflictOurs := some ours, conflictTheirs := some theirs } ∨
        l.state = .active ∧ s' = (s.setLink (conflictLink l version ours theirs)).endLive) := by
  unfold markConflict at h
  split at h
  · exact .inl (Prod.mk.inj h).1.symm
  next hlease =>
  split at h
  · exact .inl (Prod.mk.inj h).1.symm
  next l hl =>
  split at h
  · next hstate => exact .inr ⟨l, hl, hlease, .inl ⟨hstate, (Prod.mk.inj h).1.symm⟩⟩
  · next hstate => exact .inr ⟨l, hl, hlease, .inr ⟨hstate, (Prod.mk.inj h).1.symm⟩⟩
  · exact .inl (Prod.mk.inj h).1.symm

theorem enqueuePush_of_lease {snapshot : Snapshot}
    (hlease : mutationLease now proof s = none) (haccess : s.access = true)
    (hl : l.state = .active) : enqueuePush now proof version snapshot (s.setLink l) =
      (s.setLink l).enqueue now true .upsert (some snapshot) version := by
  have hstate : (s.setLink l).linkState = some .active := by
    simp [Rows.linkState, Rows.setLink, hl]
  unfold enqueuePush
  exact if_pos ⟨hlease, hstate, mutationLease_active hlease, haccess⟩

theorem access_of_wanted (h : unwanted now l s = false) : s.access = true := by
  simp only [unwanted, decide_eq_false_iff_not, not_or, not_not] at h
  simpa using h.2.2.1

theorem weigh_cases {ours theirs : Snapshot}
    (h : weigh now proof obs l ours theirs s = some (s', outcome)) :
    (∃ b, s' = (s.setLink (settledLink l obs.version b)).endLive) ∨
      (∃ b, s' = enqueuePush now proof obs.version ours
        (s.setLink (settledLink l obs.version b))) ∨
      (∃ u, overwriteTask obs s = some u ∧ ours = l.base ∧
        s' = (u.setLink (settledLink l obs.version theirs)).endLive) ∨
      s' = (s.setLink (conflictLink l obs.version ours theirs)).endLive := by
  unfold weigh at h
  split at h
  · dsimp only at h
    split at h
    · exact .inl ⟨theirs, left_eq h⟩
    · exact .inr (.inl ⟨theirs, left_eq h⟩)
  split at h
  · next hours =>
    obtain ⟨u, hu, h⟩ := Option.bind_eq_some_iff.1 h
    exact .inr (.inr (.inl ⟨u, hu, hours.1, left_eq h⟩))
  split at h
  · exact .inr (.inl ⟨l.base, left_eq h⟩)
  split at h
  · exact .inl ⟨theirs, left_eq h⟩
  · exact .inr (.inr (.inr (left_eq h)))

theorem recoverWrite_cases (h : recoverWrite now obs l ours theirs s = some (s', outcome)) :
    s' = s.endLive.setLink (settledLink l obs.version theirs) ∨
      ∃ snapshot, ours = some snapshot ∧
        (s.endLive.setLink (settledLink l obs.version theirs)).insertLive now true .upsert
          (some snapshot) obs.version = some s' := by
  simp only [recoverWrite] at h
  split at h
  · exact .inl (left_eq h)
  · obtain ⟨snapshot, hours, h⟩ := Option.bind_eq_some_iff.1 h
    obtain ⟨u, hu, h⟩ := Option.bind_eq_some_iff.1 h
    obtain rfl := left_eq h
    exact .inr ⟨snapshot, hours, hu⟩

theorem recoverWrite_task (h : recoverWrite now obs l ours theirs s = some (s', outcome)) :
    s'.task = s.task := by
  rcases recoverWrite_cases h with rfl | ⟨snapshot, -, h⟩
  · rfl
  · exact (Rows.outboxOnly_insertLive h).task

/-- What an observation that passes its checks comes to: a cleanup, a refusal, the recovery of a
write, a decision, or the return of an event that had gone. -/
theorem applyProviderSnapshot_cases
    (h : applyProviderSnapshot x now proof obs s = some (s', outcome)) :
    s' = s ∨ ∃ l, s.link = some l ∧ l.state ≠ .unlinked ∧
      (l.eventId = obs.eventId ∧ l.instanceId = obs.instanceId ∧ l.seriesId = obs.seriesId) ∧
      mutationLease now proof s = none ∧
      (unwanted now l s = true ∧ s' = enqueueUnwanted now (if s.access then .unlink else .scrub)
          obs.version s ∨
        unwanted now l s = false ∧ (∃ code,
          markRefusal now proof obs.instanceId obs.version code false s = (s', outcome)) ∨
        unwanted now l s = false ∧ unstorable x now obs = none ∧ ∃ ours theirs,
          taskSnapshot x s.task (some l.base) s.connection.timezone = some ours ∧
          observedSnapshot x obs l.base = some theirs ∧
          (recovered theirs s = true ∧
              recoverWrite now obs l ours theirs s = some (s', outcome) ∨
            recovered theirs s = false ∧ (∃ o, ours = some o ∧
              weigh now proof obs l o theirs s = some (s', outcome)) ∨
            recovered theirs s = false ∧ ours = none ∧ ∃ u, overwriteTask obs s = some u ∧
              s' = (u.setLink (settledLink l obs.version theirs)).endLive)) := by
  unfold applyProviderSnapshot at h
  split at h
  · exact .inl (left_eq h)
  next hlease =>
  split at h
  · exact .inl (left_eq h)
  next l hl =>
  split at h
  · exact .inl (left_eq h)
  next hids =>
  simp only [not_or, not_not] at hids
  refine .inr ⟨l, hl, hids.1, hids.2, hlease, ?_⟩
  split at h
  · next hunwanted =>
    refine .inl ⟨hunwanted, ?_⟩
    split at h
    · next ha =>
      rw [if_pos ha]
      exact left_eq h
    · next ha =>
      rw [if_neg ha]
      exact left_eq h
  next hunwanted =>
  have hwanted : unwanted now l s = false := by simpa using hunwanted
  split at h
  · next code hcode => exact .inr (.inl ⟨hwanted, code, Option.some.inj h⟩)
  next hcode =>
  obtain ⟨ours, hours, h⟩ := Option.bind_eq_some_iff.1 h
  obtain ⟨theirs, htheirs, h⟩ := Option.bind_eq_some_iff.1 h
  refine .inr (.inr ⟨hwanted, hcode, ours, theirs, hours, htheirs, ?_⟩)
  split at h
  · next hrec => exact .inl ⟨hrec, h⟩
  next hrec =>
  have hrec : recovered theirs s = false := by simpa using hrec
  split at h
  · exact .inr (.inl ⟨hrec, _, rfl, h⟩)
  · obtain ⟨u, hu, h⟩ := Option.bind_eq_some_iff.1 h
    exact .inr (.inr ⟨hrec, rfl, u, hu, left_eq h⟩)

theorem observeCondition_cases {expectedVersion : Option String}
    {refusal : Option (String × String)}
    (h : observeCondition x instanceId expected expectedVersion refusal s = some (s', outcome)) :
    s' = s ∨ ∃ l version code removed, s.link = some l ∧ l.state = .conflict ∧
      s.access = true ∧ (l.version.isSome = true → version.isSome = true) ∧ s' = s.setLink { l with
        version := version, refusalCode := code, eventRemovedAt := removed } := by
  unfold observeCondition at h
  split at h
  · exact .inl (left_eq h)
  next l hl =>
  split at h
  · exact .inl (left_eq h)
  next hstate =>
  have hconflict : l.state = .conflict := by
    by_contra hne
    exact hstate (.inr hne)
  split at h
  · exact .inl (left_eq h)
  split at h
  · exact .inl (left_eq h)
  split at h
  · exact .inl (left_eq h)
  next haccess =>
  have haccess : s.access = true := by simpa using haccess
  obtain ⟨current, -, h⟩ := Option.bind_eq_some_iff.1 h
  split at h
  · exact .inl (left_eq h)
  split at h
  · exact .inr ⟨l, _, _, _, hl, hconflict, haccess, id, left_eq h⟩
  · exact .inr ⟨l, _, _, _, hl, hconflict, haccess, fun _ => rfl,
      left_eq h⟩

theorem resolveUseApp_cases (h : resolveUseApp x now l s = some (s', outcome)) :
    s' = s ∨ s.eligible now = true ∧ ∃ snapshot,
      taskSnapshot x s.task (some l.base) s.connection.timezone = some snapshot ∧
      (l.eventRemovedAt = true ∧
          s' = replaceLive now .create snapshot none (s.setLink (settledLink l l.version l.base)) ∨
        l.eventRemovedAt = false ∧ s' = replaceLive now .upsert snapshot l.version
          (s.setLink (settledLink l l.version l.base))) := by
  unfold resolveUseApp at h
  split at h
  · exact .inl (left_eq h)
  next he =>
  split at h
  · exact .inl (left_eq h)
  obtain ⟨snapshot, hsnap, h⟩ := Option.bind_eq_some_iff.1 h
  refine .inr ⟨by simpa using he, snapshot, hsnap, ?_⟩
  dsimp only at h
  split at h
  · next hr => exact .inl ⟨hr, left_eq h⟩
  · next hr => exact .inr ⟨by simpa using hr, left_eq h⟩

theorem resolveUseCalendar_cases (h : resolveUseCalendar x now l fresh s = some (s', outcome)) :
    s' = s ∨ (∃ code, fresh.version.isSome ∧ s' = s.setLink { l with
        version := fresh.version, refusalCode := some code, eventRemovedAt := false }) ∨
      ∃ task base, fresh.version.isSome ∧
        s' = ({ s with task := task }.setLink (settledLink l fresh.version base)).endLive := by
  unfold resolveUseCalendar at h
  split at h
  · exact .inl (left_eq h)
  split at h
  · exact .inl (left_eq h)
  next hversion =>
  have hgiven : fresh.version.isSome = true :=
    Option.isSome_iff_ne_none.2 fun hnone => hversion (.inl hnone)
  split at h
  · exact .inr (.inl ⟨_, hgiven, left_eq h⟩)
  split at h
  · exact .inr (.inl ⟨_, hgiven, left_eq h⟩)
  obtain ⟨snapshot, -, h⟩ := Option.bind_eq_some_iff.1 h
  exact .inr (.inr ⟨_, snapshot, hgiven, left_eq h⟩)

theorem resolveConflict_cases {resolution : Resolution}
    (h : resolveConflict x now resolution expected fresh s = some (s', outcome)) :
    s' = s ∨ ∃ l, s.link = some l ∧ l.state = .conflict ∧ s.access = true ∧ s.active = true ∧
      (resolution = .useApp ∧ resolveUseApp x now l s = some (s', outcome) ∨
        resolution = .useCalendar ∧ resolveUseCalendar x now l fresh s = some (s', outcome)) := by
  unfold resolveConflict at h
  split at h
  · exact .inl (left_eq h)
  next l hl =>
  split at h
  · exact .inl (left_eq h)
  next hguard =>
  have haccess : s.access = true := by
    by_contra hne
    exact hguard (.inl hne)
  have hconflict : l.state = .conflict := by
    by_contra hne
    exact hguard (.inr hne)
  split at h
  · exact .inl (left_eq h)
  next hsure =>
  split at h
  · exact .inl (left_eq h)
  next hactive =>
  have hactive : s.active = true := by simpa using hactive
  split at h
  · exact .inl (left_eq h)
  obtain ⟨current, -, h⟩ := Option.bind_eq_some_iff.1 h
  split at h
  · exact .inl (left_eq h)
  refine (?_ : s' = s ∨ _)
  cases resolution with
  | useApp => exact .inr ⟨l, hl, hconflict, haccess, hactive, .inl ⟨rfl, h⟩⟩
  | notSure => exact absurd rfl hsure
  | useCalendar =>
    dsimp only at h
    split at h
    · exact .inl (left_eq h)
    · exact .inr ⟨l, hl, hconflict, haccess, hactive, .inr ⟨rfl, h⟩⟩

theorem resolveEventRemoved_cases {answer : Answer}
    (h : resolveEventRemoved x now answer s = some (s', outcome)) :
    s' = s ∨ ∃ l, s.link = some l ∧ l.state = .eventRemoved ∧ s.access = true ∧
      (s' = (s.setLink { l with state := .unlinked }).endLive ∨
        ∃ due r snapshot, inSyncWindow now due = true ∧ s.active = true ∧
          s.task.deleted = false ∧ s.task.assignedUserId = some s.connection.userId ∧
          editTask x now { s.task with dueAt := some due } s = some r ∧
          taskSnapshot x r.1.task (some l.base) r.1.connection.timezone = some snapshot ∧
          s' = replaceLive now .create snapshot none r.1) := by
  unfold resolveEventRemoved at h
  split at h
  · exact .inl (left_eq h)
  next l hl =>
  split at h
  · exact .inl (left_eq h)
  next hguard =>
  have haccess : s.access = true := by
    by_contra hne
    exact hguard (.inl hne)
  have hremoved : l.state = .eventRemoved := by
    by_contra hne
    exact hguard (.inr hne)
  split at h
  · exact .inl (left_eq h)
  · exact .inr ⟨l, hl, hremoved, haccess, .inl (left_eq h)⟩
  · exact .inl (left_eq h)
  next due =>
  split at h
  · exact .inl (left_eq h)
  next hwindow =>
  split at h
  · exact .inl (left_eq h)
  next hactive =>
  split at h
  · exact .inl (left_eq h)
  next htask =>
  obtain ⟨r, hr, h⟩ := Option.bind_eq_some_iff.1 h
  obtain ⟨snapshot, hsnap, h⟩ := Option.bind_eq_some_iff.1 h
  have hdeleted : s.task.deleted = false := by
    by_contra hne
    exact htask (.inl (by simpa using hne))
  have hassigned : s.task.assignedUserId = some s.connection.userId := by
    by_contra hne
    exact htask (.inr hne)
  exact .inr ⟨l, hl, hremoved, haccess, .inr ⟨due, r, snapshot, by simpa using hwindow,
    by simpa using hactive, hdeleted, hassigned, hr, hsnap,
    left_eq h⟩⟩

/-! ### The connection, and what its member may see -/

@[simp] theorem clearDue_connection (clear : Bool) (s : Rows) :
    (clearDue clear s).connection = s.connection := by
  unfold clearDue
  split <;> rfl

theorem markRefusal_sameMember {clear : Bool}
    (h : markRefusal now proof instanceId version code clear s = (s', outcome)) :
    s.SameMember s' := by
  rcases markRefusal_cases h with rfl | ⟨l, -, -, ⟨-, rfl⟩ | ⟨-, rfl⟩ | ⟨-, rfl⟩⟩
  · exact .refl s'
  · exact ⟨clearDue_connection clear _, clearDue_access clear _⟩
  · exact ⟨rfl, rfl⟩
  · exact ⟨clearDue_connection clear _, clearDue_access clear _⟩

theorem removeEvent_sameMember (h : removeEvent l version s = (s', outcome)) : s.SameMember s' := by
  rcases removeEvent_cases h with rfl | ⟨-, rfl⟩ | ⟨-, rfl⟩ | ⟨-, rfl⟩ <;> exact ⟨rfl, rfl⟩

theorem markConflict_sameMember {worker generation : ℕ} {ours theirs : Snapshot}
    (h : markConflict now worker generation version ours theirs s = (s', outcome)) :
    s.SameMember s' := by
  rcases markConflict_cases h with rfl | ⟨l, -, -, ⟨-, rfl⟩ | ⟨-, rfl⟩⟩ <;> exact ⟨rfl, rfl⟩

theorem weigh_sameMember {ours theirs : Snapshot}
    (h : weigh now proof obs l ours theirs s = some (s', outcome)) : s.SameMember s' := by
  rcases weigh_cases h with ⟨b, rfl⟩ | ⟨b, rfl⟩ | ⟨u, hu, -, rfl⟩ | rfl
  · exact ⟨rfl, rfl⟩
  · have honly := outboxOnly_enqueuePush now proof obs.version ours
      (s.setLink (settledLink l obs.version b))
    exact ⟨honly.connection, honly.access⟩
  · exact ⟨(overwriteTask_link hu).2.2.2, (overwriteTask_link hu).2.2.1⟩
  · exact ⟨rfl, rfl⟩

theorem recoverWrite_sameMember (h : recoverWrite now obs l ours theirs s = some (s', outcome)) :
    s.SameMember s' := by
  rcases recoverWrite_cases h with rfl | ⟨snapshot, -, h⟩
  · exact ⟨rfl, rfl⟩
  · have honly := Rows.outboxOnly_insertLive h
    exact ⟨honly.connection, honly.access⟩

theorem applyProviderSnapshot_sameMember
    (h : applyProviderSnapshot x now proof obs s = some (s', outcome)) : s.SameMember s' := by
  rcases applyProviderSnapshot_cases h with
    rfl | ⟨l, -, -, -, -, ⟨-, rfl⟩ | ⟨-, code, h⟩ | ⟨-, -, ours, theirs, -, -, h⟩⟩
  · exact .refl s'
  · exact (outboxOnly_enqueueUnwanted now _ obs.version s).sameMember
  · exact markRefusal_sameMember h
  rcases h with ⟨-, h⟩ | ⟨-, o, -, h⟩ | ⟨-, -, u, hu, rfl⟩
  · exact recoverWrite_sameMember h
  · exact weigh_sameMember h
  · exact ⟨(overwriteTask_link hu).2.2.2, (overwriteTask_link hu).2.2.1⟩

theorem observeCondition_sameMember {expectedVersion : Option String}
    {refusal : Option (String × String)}
    (h : observeCondition x instanceId expected expectedVersion refusal s = some (s', outcome)) :
    s.SameMember s' := by
  rcases observeCondition_cases h with rfl | ⟨l, version, code, removed, -, -, -, -, rfl⟩
  · exact .refl s'
  · exact ⟨rfl, rfl⟩

theorem editTask_link {task : Task} (h : editTask x now task s = some (s', outcome)) :
    s'.link = s.link := by
  rcases editTask_cases h with rfl | h
  · rfl
  · exact (outboxOnly_enqueueMappedTaskChange x now h).link

theorem editTask_sameMember {task : Task} (h : editTask x now task s = some (s', outcome)) :
    s.SameMember s' := by
  rcases editTask_cases h with rfl | h
  · exact .refl s'
  · have honly := outboxOnly_enqueueMappedTaskChange x now h
    exact ⟨honly.connection, honly.access⟩

theorem resolveConflict_sameMember {resolution : Resolution}
    (h : resolveConflict x now resolution expected fresh s = some (s', outcome)) :
    s.SameMember s' := by
  rcases resolveConflict_cases h with rfl | ⟨l, -, -, -, -, ⟨-, h⟩ | ⟨-, h⟩⟩
  · exact .refl s'
  · have hreplaced : ∀ action requested version, s.SameMember (replaceLive now action requested
        version (s.setLink (settledLink l l.version l.base))) := by
      intro action requested version
      have honly := outboxOnly_replaceLive now action requested version
        (s.setLink (settledLink l l.version l.base))
      exact ⟨honly.connection, honly.access⟩
    rcases resolveUseApp_cases h with rfl | ⟨-, snapshot, -, ⟨-, rfl⟩ | ⟨-, rfl⟩⟩
    · exact .refl s'
    · exact hreplaced ..
    · exact hreplaced ..
  · rcases resolveUseCalendar_cases h with rfl | ⟨code, -, rfl⟩ | ⟨task, base, -, rfl⟩
    all_goals exact ⟨rfl, rfl⟩

theorem resolveEventRemoved_sameMember {answer : Answer}
    (h : resolveEventRemoved x now answer s = some (s', outcome)) : s.SameMember s' := by
  rcases resolveEventRemoved_cases h with
    rfl | ⟨l, -, -, -, rfl | ⟨due, r, snapshot, -, -, -, -, hr, -, rfl⟩⟩
  · exact .refl s'
  · exact ⟨rfl, rfl⟩
  · have honly := outboxOnly_replaceLive now .create snapshot none r.1
    have hedit := editTask_sameMember hr
    exact ⟨honly.connection.trans hedit.connection, honly.access.trans hedit.access⟩

end

end CalendarInbound
