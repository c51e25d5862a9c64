/-
**What an edit, an access rule and a disconnection write to the calendar rows.**

The triggers of migration `20260825020000` run inside the transaction of the write they follow: the
one of `tasks` queues what an edit means for the calendar, the ones of the access rules queue the
removal of what a member may no longer see, and the ones of a membership or a workspace that ends
begin the disconnection, as the member's own disconnection does.
-/

import Texturion.CalendarRows
import Texturion.Fallible

namespace CalendarHooks

open CalendarSync CalendarRows Fallible

variable (x : Text) (now : ℤ)

/-! ### Edits of the task -/

/-- The queued create of a task that has left the calendar is forgotten; one under way is told. -/
def dropIneligibleCreate (s : Rows) : Rows :=
  match s.live with
  | none => s
  | some o =>
      if o.action = .create ∧ ¬s.eligible now then
        if o.lease.isNone then
          if o.ambiguous then s else s.endLive
        else { s with live := some { o with generation := o.generation + 1 } }
      else s

def rebuildCreate (s : Rows) : Option Rows :=
  match s.live with
  | none => some s
  | some o =>
      if o.action = .create ∧ ¬o.ambiguous ∧ s.eligible now then do
        let requested ← taskSnapshot x s.task none s.connection.timezone
        some { s with
          live := some { o with
            requested := requested
            generation := o.generation + 1
            availableAt := min o.availableAt now } }
      else some s

/-- The intent for an event that the task has: scrubbed, unlinked or brought up to date. -/
def enqueueMapped (s : Rows) : Option Rows :=
  match s.link with
  | none => some s
  | some l =>
      if l.state ≠ .unlinked ∧ (l.state = .active ∨ ¬s.eligible now) ∧
          s.connection.status ≠ .revoked then
        if s.eligible now then do
          let requested ← taskSnapshot x s.task (some l.base) s.connection.timezone
          some (s.enqueue now true .upsert requested l.version)
        else
          some (s.enqueue now true (if s.access then .unlink else .scrub) none l.version)
      else some s

/-- A task on the calendar of an active connection that has no event and no live row gets its
first one; an unlinked link is used again. -/
def enqueueCreate (s : Rows) : Option Rows :=
  if s.eligible now ∧ s.active ∧ (s.linkState = none ∨ s.linkState = some .unlinked) ∧
      s.live = none then do
    let requested ← taskSnapshot x s.task none s.connection.timezone
    s.insertLive now s.link.isSome .create requested none
  else some s

/-- `calendar_enqueue_mapped_task_change`, after an insert or update of the task that is not the
provider's. -/
def enqueueMappedTaskChange (s : Rows) : Option Rows := do
  let s ← rebuildCreate x now (dropIneligibleCreate now s)
  let s ← enqueueMapped x now s
  enqueueCreate x now s

/-- A local edit of the task; an update that changes none of these fields queues nothing. -/
def editTask (t : Task) (s : Rows) : Result :=
  if t = s.task then some (s, .done)
  else do
    let s ← enqueueMappedTaskChange x now { s with task := t }
    some (s, .done)

/-- `calendar_enqueue_connection_horizon`, for this task. -/
def enqueueHorizon (s : Rows) : Option Rows := enqueueCreate x now s

/-! ### Access -/

/-- The cleanup of the event that the task has. -/
def enqueueCleanup (cleanup : Action) (s : Rows) : Rows :=
  match s.link with
  | none => s
  | some l => if l.state = .unlinked then s else s.enqueue now true cleanup none l.version

/-- The link of an event that is the provider's alone from now on. -/
def releasedLink (l : Link) : Link :=
  { l with
    state := .unlinked
    lastSent := none
    conflictOurs := none
    conflictTheirs := none
    eventRemovedAt := false
    refusalCode := none }

/-- The link, if it is not already one of those, is released. -/
def releaseLink (s : Rows) : Rows :=
  match s.link with
  | none => s
  | some l => if l.state = .unlinked then s else s.setLink (releasedLink l)

/-- A task that is not to be on the calendar.  Where the credential is known to be unusable, what
is there locally is released; else the event is cleaned up. -/
def reconcileIneligible (s : Rows) : Rows :=
  let s := dropIneligibleCreate now s
  if s.connection.status = .reauthRequired then releaseLink s.endLive
  else enqueueCleanup now (if s.access then .unlink else .scrub) s

/-- A scrub that has not reached the provider is dropped. -/
def dropScrub (s : Rows) : Rows :=
  match s.live with
  | none => s
  | some o => if o.action = .scrub ∧ ¬o.ambiguous then s.endLive else s

/-- A task that is to be on the calendar: its event needs nothing, since the rule changed and not
the task; without an event it gets one. -/
def reconcileEligible (s : Rows) : Option Rows :=
  if s.linkState = none ∨ s.linkState = some .unlinked then do
    let requested ← taskSnapshot x s.task none s.connection.timezone
    some (s.enqueue now s.link.isSome .create requested none)
  else some (dropScrub s)

/-- `calendar_reconcile_number_access`, for this task and connection. -/
def reconcileNumberAccess (s : Rows) : Option Rows :=
  if (s.connection.status = .active ∨ s.connection.status = .reauthRequired) ∧
      (s.task.assignedUserId = some s.connection.userId ∨ s.link.isSome ∨ s.live.isSome) then
    if s.eligible now then reconcileEligible x now s else some (reconcileIneligible now s)
  else some s

/-- A rule of a number, or a role, changes what the member may see. -/
def changeAccess (allowed : Bool) (s : Rows) : Result := do
  let s ← reconcileNumberAccess x now { s with access := allowed }
  some (s, .done)

/-! ### Disconnection -/

/-- `calendar_finalize_disconnected_connection`. -/
def finalizeDisconnected (s : Rows) : Rows × Bool :=
  if s.connection.status = .disconnected ∧ ¬s.connection.watch ∧ s.live.isNone then
    ({ s with connection := { s.connection with
        status := .revoked
        cleanup := none
        pullLease := none } }, true)
  else (s, false)

/-- A create that has not reached the provider is forgotten. -/
def dropCreate (s : Rows) : Rows :=
  match s.live with
  | none => s
  | some o => if o.action = .create ∧ ¬o.ambiguous then s.endLive else s

/-- `calendar_begin_connection_disconnect`. -/
def beginConnectionDisconnect (cleanup : Action) (s : Rows) : Rows × Bool :=
  if s.connection.status = .revoked then (s, true)
  else
    let cleanup := if s.connection.cleanup = some .scrub ∨ cleanup = .scrub then .scrub else .unlink
    finalizeDisconnected (enqueueCleanup now cleanup (dropCreate { s with
      connection := { s.connection with
        status := .disconnected
        cleanup := some cleanup
        pullGeneration := s.connection.pullGeneration + 1
        pullLease := none } }))

/-- A write that may be under way at the provider. -/
def writing (s : Rows) : Bool :=
  s.live.any fun o => o.ambiguous ∨ o.lease.any fun l => now < l.expiresAt

/-- `api_revoke_calendar_connection`: a write that may be under way is not left behind.
`renewing` says that a credential or a subscription is being renewed. -/
def revokeConnection (renewing : Bool) (s : Rows) : Result :=
  if s.connection.status = .revoked then some (s, .revoked)
  else if renewing ∨ writing now s then some (s, .busy)
  else
    let r := beginConnectionDisconnect now .unlink s
    some (r.1, if r.2 then .revoked else .disconnecting)

/-- The member is deactivated, and may see no number any more. -/
def deactivateMember (s : Rows) : Result := do
  let s ← reconcileNumberAccess x now
    { s with access := false, connection := { s.connection with working := false } }
  some ((beginConnectionDisconnect now .scrub s).1, .done)

/-- The workspace is closed. -/
def closeCompany (s : Rows) : Result :=
  some ((beginConnectionDisconnect now .scrub
    { s with connection := { s.connection with working := false } }).1, .done)

/-- `api_commit_calendar_webhook_revocation`: the watch has been stopped. -/
def commitWebhookRevocation (s : Rows) : Result :=
  some ((finalizeDisconnected { s with
    connection := { s.connection with watch := false } }).1, .revoked)

/-- `api_complete_calendar_connection`, for the same provider, account and calendar. -/
def completeConnection (timezone : String) (s : Rows) : Result :=
  if ¬s.connection.working then some (s, .notFound)
  else if s.connection.status = .disconnected then some (s, .disconnecting)
  else if s.connection.status = .revoked then some (s, .notFound)
  else do
    let s := { s with connection := { s.connection with
      status := .active
      timezone := timezone
      pullGeneration := s.connection.pullGeneration + 1
      pullLease := none
      watch := true } }
    let s ← enqueueCreate x now s
    some (s, .committed)

/-- `api_retry_calendar_credential_refresh` of a credential that the provider rejects: an active
connection waits for its member, a disconnected one gives up. -/
def rejectCredential (s : Rows) : Result :=
  match s.connection.status with
  | .revoked => some (s, .leaseLost)
  | .disconnected =>
      some (releaseLink { s.endLive with connection := { s.connection with
        status := .revoked
        cleanup := none
        watch := false
        pullLease := none } }, .cleanupAbandoned)
  | _ => some ({ s with connection := { s.connection with status := .reauthRequired } }, .done)

/-- `api_commit_calendar_credential_refresh`. -/
def renewCredential (s : Rows) : Result :=
  match s.connection.status with
  | .revoked => some (s, .leaseLost)
  | .disconnected => some (s, .committed)
  | _ => some ({ s with connection := { s.connection with status := .active } }, .committed)

/-! ### Pulls -/

/-- `api_claim_due_calendar_pulls`, with the trigger that queues the horizon. -/
def claimPull (worker : ℕ) (seconds : ℤ) (s : Rows) : Result :=
  if s.active ∧ s.connection.working ∧ (∀ l ∈ s.connection.pullLease, l.expiresAt ≤ now) then do
    let s := { s with connection := { s.connection with
      pullLease := some ⟨worker, now + seconds * 1000000⟩ } }
    let s ← enqueueHorizon x now s
    some (s, .done)
  else some (s, .notFound)

/-- `api_renew_calendar_pull_lease`, `api_commit_calendar_pull` and `api_retry_calendar_pull` as far
as they concern the lease. -/
def renewPull (worker : ℕ) (seconds : ℤ) (s : Rows) : Result :=
  match s.connection.pullLease with
  | some l =>
      if s.active ∧ l.held worker now then
        some ({ s with connection := { s.connection with
          pullLease := some ⟨worker, now + seconds * 1000000⟩ } }, .done)
      else some (s, .leaseLost)
  | none => some (s, .leaseLost)

def endPull (worker : ℕ) (s : Rows) : Result :=
  match s.connection.pullLease with
  | some l =>
      if l.held worker now then
        some ({ s with connection := { s.connection with pullLease := none } }, .done)
      else some (s, .leaseLost)
  | none => some (s, .leaseLost)

/-! ### What they leave alone -/

theorem outboxOnly_dropIneligibleCreate (s : Rows) : s.OutboxOnly (dropIneligibleCreate now s) := by
  unfold dropIneligibleCreate
  repeat' split
  all_goals exact ⟨rfl, rfl, rfl, rfl⟩

theorem outboxOnly_rebuildCreate {s s' : Rows} (h : rebuildCreate x now s = some s') :
    s.OutboxOnly s' := by
  unfold rebuildCreate at h
  split at h
  · obtain rfl := Option.some.inj h
    exact .refl s
  · split at h
    · obtain ⟨requested, -, h⟩ := Option.bind_eq_some_iff.1 h
      obtain rfl := Option.some.inj h
      exact ⟨rfl, rfl, rfl, rfl⟩
    · obtain rfl := Option.some.inj h
      exact .refl s

theorem outboxOnly_enqueueMapped {s s' : Rows} (h : enqueueMapped x now s = some s') :
    s.OutboxOnly s' := by
  unfold enqueueMapped at h
  split at h
  · obtain rfl := Option.some.inj h
    exact .refl s
  · split at h
    · split at h
      · obtain ⟨requested, -, h⟩ := Option.bind_eq_some_iff.1 h
        obtain rfl := Option.some.inj h
        exact s.outboxOnly_enqueue now ..
      · obtain rfl := Option.some.inj h
        exact s.outboxOnly_enqueue now ..
    · obtain rfl := Option.some.inj h
      exact .refl s

theorem outboxOnly_enqueueCreate {s s' : Rows} (h : enqueueCreate x now s = some s') :
    s.OutboxOnly s' := by
  unfold enqueueCreate at h
  split at h
  · obtain ⟨requested, -, h⟩ := Option.bind_eq_some_iff.1 h
    exact Rows.outboxOnly_insertLive h
  · obtain rfl := Option.some.inj h
    exact .refl s

theorem outboxOnly_enqueueMappedTaskChange {s s' : Rows}
    (h : enqueueMappedTaskChange x now s = some s') : s.OutboxOnly s' := by
  obtain ⟨t, ht, h⟩ := Option.bind_eq_some_iff.1 h
  obtain ⟨u, hu, h⟩ := Option.bind_eq_some_iff.1 h
  exact (((outboxOnly_dropIneligibleCreate now s).trans (outboxOnly_rebuildCreate x now ht)).trans
    (outboxOnly_enqueueMapped x now hu)).trans (outboxOnly_enqueueCreate x now h)

theorem editTask_cases {x : Text} {now : ℤ} {task : Task} {s s' : Rows} {outcome : Outcome}
    (h : editTask x now task s = some (s', outcome)) :
    s' = s ∨ enqueueMappedTaskChange x now { s with task := task } = some s' := by
  unfold editTask at h
  split at h
  · exact .inl (left_eq h)
  · obtain ⟨u, hu, h⟩ := Option.bind_eq_some_iff.1 h
    obtain rfl := left_eq h
    exact .inr hu

section

variable (s : Rows)

/-- A finished disconnection leaves the task, its event and its intents as they are. -/
theorem finalizeDisconnected_fst : ∃ c,
    (finalizeDisconnected s).1 = { s with connection := c } := by
  unfold finalizeDisconnected
  split
  · exact ⟨_, rfl⟩
  · exact ⟨s.connection, rfl⟩

@[simp] theorem finalizeDisconnected_link : (finalizeDisconnected s).1.link = s.link := by
  obtain ⟨c, hc⟩ := finalizeDisconnected_fst s
  rw [hc]

@[simp] theorem finalizeDisconnected_live : (finalizeDisconnected s).1.live = s.live := by
  obtain ⟨c, hc⟩ := finalizeDisconnected_fst s
  rw [hc]

@[simp] theorem finalizeDisconnected_access : (finalizeDisconnected s).1.access = s.access := by
  obtain ⟨c, hc⟩ := finalizeDisconnected_fst s
  rw [hc]

theorem finalizeDisconnected_active : (finalizeDisconnected s).1.active = s.active := by
  unfold finalizeDisconnected
  split
  · next h => simp [Rows.active, h.1]
  · rfl

end

theorem outboxOnly_enqueueCleanup (cleanup : Action) (s : Rows) :
    s.OutboxOnly (enqueueCleanup now cleanup s) := by
  unfold enqueueCleanup
  split
  · exact .refl s
  · split
    · exact .refl s
    · exact s.outboxOnly_enqueue now ..

theorem outboxOnly_dropScrub (s : Rows) : s.OutboxOnly (dropScrub s) := by
  unfold dropScrub
  repeat' split
  all_goals exact ⟨rfl, rfl, rfl, rfl⟩

theorem outboxOnly_dropCreate (s : Rows) : s.OutboxOnly (dropCreate s) := by
  unfold dropCreate
  repeat' split
  all_goals exact ⟨rfl, rfl, rfl, rfl⟩

theorem outboxOnly_reconcileEligible {s s' : Rows} (h : reconcileEligible x now s = some s') :
    s.OutboxOnly s' := by
  unfold reconcileEligible at h
  split at h
  · obtain ⟨requested, -, h⟩ := Option.bind_eq_some_iff.1 h
    obtain rfl := Option.some.inj h
    exact s.outboxOnly_enqueue now ..
  · obtain rfl := Option.some.inj h
    exact outboxOnly_dropScrub s

theorem releaseLink_cases (s : Rows) :
    (∀ l, s.link = some l → l.state = .unlinked) ∧ releaseLink s = s ∨
      ∃ l, s.link = some l ∧ l.state ≠ .unlinked ∧ releaseLink s = s.setLink (releasedLink l) := by
  unfold releaseLink
  split
  · next hl => exact .inl ⟨fun l h => by simp [hl] at h, rfl⟩
  · next l hl =>
      split
      · next hs =>
          refine .inl ⟨fun l' h => ?_, rfl⟩
          obtain rfl := Option.some.inj (hl.symm.trans h)
          exact hs
      · next hs => exact .inr ⟨l, hl, hs, rfl⟩

theorem releaseLink_link (s : Rows) : (releaseLink s).link = s.link ∨
    ∃ l, s.link = some l ∧ (releaseLink s).link = some (releasedLink l) := by
  rcases releaseLink_cases s with ⟨-, h⟩ | ⟨l, hl, -, h⟩
  · exact .inl (by rw [h])
  · exact .inr ⟨l, hl, by rw [h]; rfl⟩

/-- **What changed access does to the link**: it is left alone, or released. -/
theorem reconcileNumberAccess_link {s s' : Rows} (h : reconcileNumberAccess x now s = some s') :
    s'.link = s.link ∨ ∃ l, s.link = some l ∧ s'.link = some (releasedLink l) := by
  unfold reconcileNumberAccess at h
  split at h
  · split at h
    · exact .inl (outboxOnly_reconcileEligible x now h).link
    · obtain rfl := Option.some.inj h
      have hdrop := outboxOnly_dropIneligibleCreate now s
      simp only [reconcileIneligible]
      split
      · have := releaseLink_link (dropIneligibleCreate now s).endLive
        rwa [show (dropIneligibleCreate now s).endLive.link = s.link from hdrop.link] at this
      · exact .inl ((hdrop.trans (outboxOnly_enqueueCleanup now _ _)).link)
  · obtain rfl := Option.some.inj h
    exact .inl rfl

@[simp] theorem releaseLink_connection (s : Rows) : (releaseLink s).connection = s.connection := by
  rcases releaseLink_cases s with ⟨-, h⟩ | ⟨l, -, -, h⟩ <;> rw [h]
  rfl

theorem reconcileNumberAccess_connection {s s' : Rows}
    (h : reconcileNumberAccess x now s = some s') : s'.connection = s.connection := by
  unfold reconcileNumberAccess at h
  split at h
  · split at h
    · exact (outboxOnly_reconcileEligible x now h).connection
    · obtain rfl := Option.some.inj h
      have hdrop := outboxOnly_dropIneligibleCreate now s
      simp only [reconcileIneligible]
      split
      · rw [releaseLink_connection]
        exact hdrop.connection
      · exact (hdrop.trans (outboxOnly_enqueueCleanup now _ _)).connection
  · obtain rfl := Option.some.inj h
    rfl

theorem finalizeDisconnected_cleanup (s : Rows) :
    (finalizeDisconnected s).1.connection.cleanup = s.connection.cleanup ∨
      (finalizeDisconnected s).1.connection.cleanup = none := by
  unfold finalizeDisconnected
  split
  · exact .inr rfl
  · exact .inl rfl

theorem beginConnectionDisconnect_cleanup (cleanup : Action) (s : Rows) :
    (beginConnectionDisconnect now cleanup s).1.connection.cleanup = s.connection.cleanup ∨
      ∀ a, (beginConnectionDisconnect now cleanup s).1.connection.cleanup = some a →
        a = .unlink ∨ a = .scrub := by
  unfold beginConnectionDisconnect
  split
  · exact .inl rfl
  · refine .inr fun a ha => ?_
    rcases finalizeDisconnected_cleanup (enqueueCleanup now
      (if s.connection.cleanup = some .scrub ∨ cleanup = .scrub then .scrub else .unlink)
      (dropCreate { s with connection := { s.connection with
        status := .disconnected
        cleanup := some
          (if s.connection.cleanup = some .scrub ∨ cleanup = .scrub then .scrub else .unlink)
        pullGeneration := s.connection.pullGeneration + 1
        pullLease := none } })) with h | h
    · rw [h, (outboxOnly_enqueueCleanup now _ _).connection,
        (outboxOnly_dropCreate _).connection] at ha
      obtain rfl := Option.some.inj ha
      split
      · exact .inr rfl
      · exact .inl rfl
    · rw [h] at ha
      cases ha

theorem beginConnectionDisconnect_link (cleanup : Action) (s : Rows) :
    (beginConnectionDisconnect now cleanup s).1.link = s.link := by
  unfold beginConnectionDisconnect
  split
  · rfl
  · rw [finalizeDisconnected_link, (outboxOnly_enqueueCleanup now _ _).link,
      (outboxOnly_dropCreate _).link]

theorem beginConnectionDisconnect_active (cleanup : Action) (s : Rows) :
    (beginConnectionDisconnect now cleanup s).1.active = false := by
  unfold beginConnectionDisconnect
  split
  · next h => simp [Rows.active, h]
  · rw [finalizeDisconnected_active]
    unfold Rows.active
    rw [(outboxOnly_enqueueCleanup now _ _).connection, (outboxOnly_dropCreate _).connection]
    rfl

/-! ### What each of them can do -/

section
variable {x now} {s s' : Rows} {outcome : Outcome}

theorem changeAccess_cases {allowed : Bool}
    (h : changeAccess x now allowed s = some (s', outcome)) :
    reconcileNumberAccess x now { s with access := allowed } = some s' := by
  obtain ⟨u, hu, h⟩ := Option.bind_eq_some_iff.1 h
  obtain rfl := left_eq h
  exact hu

theorem deactivateMember_cases (h : deactivateMember x now s = some (s', outcome)) :
    ∃ u, reconcileNumberAccess x now
        { s with access := false, connection := { s.connection with working := false } } = some u ∧
      s' = (beginConnectionDisconnect now .scrub u).1 := by
  obtain ⟨u, hu, h⟩ := Option.bind_eq_some_iff.1 h
  exact ⟨u, hu, left_eq h⟩

theorem revokeConnection_cases {renewing : Bool}
    (h : revokeConnection now renewing s = some (s', outcome)) :
    s' = s ∨ writing now s = false ∧ s' = (beginConnectionDisconnect now .unlink s).1 := by
  unfold revokeConnection at h
  split at h
  · exact .inl (left_eq h)
  split at h
  · exact .inl (left_eq h)
  · next hw =>
      refine .inr ⟨?_, left_eq h⟩
      by_contra hne
      exact hw (.inr (by simpa using hne))

theorem completeConnection_cases {timezone : String}
    (h : completeConnection x now timezone s = some (s', outcome)) :
    s' = s ∨ (s.connection.status = .active ∨ s.connection.status = .reauthRequired) ∧
      enqueueCreate x now { s with connection := { s.connection with
        status := .active
        timezone := timezone
        pullGeneration := s.connection.pullGeneration + 1
        pullLease := none
        watch := true } } = some s' := by
  unfold completeConnection at h
  split at h
  · exact .inl (left_eq h)
  split at h
  · exact .inl (left_eq h)
  next hd =>
  split at h
  · exact .inl (left_eq h)
  next hr =>
  obtain ⟨u, hu, h⟩ := Option.bind_eq_some_iff.1 h
  obtain rfl := left_eq h
  refine .inr ⟨?_, hu⟩
  cases hstatus : s.connection.status <;> simp_all

theorem rejectCredential_cases (h : rejectCredential s = some (s', outcome)) :
    s' = s ∨
      s.connection.status = .disconnected ∧
        s' = releaseLink { s.endLive with connection := { s.connection with
          status := .revoked
          cleanup := none
          watch := false
          pullLease := none } } ∨
      (s.connection.status = .active ∨ s.connection.status = .reauthRequired) ∧
        s' = { s with connection := { s.connection with status := .reauthRequired } } := by
  unfold rejectCredential at h
  split at h
  · exact .inl (left_eq h)
  · next hd => exact .inr (.inl ⟨hd, left_eq h⟩)
  · next hr hd =>
      refine .inr (.inr ⟨?_, left_eq h⟩)
      cases hstatus : s.connection.status <;> simp_all

theorem renewCredential_cases (h : renewCredential s = some (s', outcome)) :
    s' = s ∨ (s.connection.status = .active ∨ s.connection.status = .reauthRequired) ∧
      s' = { s with connection := { s.connection with status := .active } } := by
  unfold renewCredential at h
  split at h
  · exact .inl (left_eq h)
  · exact .inl (left_eq h)
  · next hr hd =>
      refine .inr ⟨?_, left_eq h⟩
      cases hstatus : s.connection.status <;> simp_all

theorem claimPull_cases {worker : ℕ} {seconds : ℤ}
    (h : claimPull x now worker seconds s = some (s', outcome)) :
    s' = s ∨ s.active = true ∧ enqueueCreate x now { s with connection := { s.connection with
      pullLease := some ⟨worker, now + seconds * 1000000⟩ } } = some s' := by
  unfold claimPull at h
  split at h
  · next hc =>
      obtain ⟨u, hu, h⟩ := Option.bind_eq_some_iff.1 h
      obtain rfl := left_eq h
      exact .inr ⟨hc.1, hu⟩
  · exact .inl (left_eq h)

theorem renewPull_cases {worker : ℕ} {seconds : ℤ}
    (h : renewPull now worker seconds s = some (s', outcome)) :
    ∃ l, s' = { s with connection := { s.connection with pullLease := l } } := by
  unfold renewPull at h
  split at h
  · split at h
    · exact ⟨_, left_eq h⟩
    · exact ⟨s.connection.pullLease, left_eq h⟩
  · exact ⟨s.connection.pullLease, left_eq h⟩

theorem endPull_cases {worker : ℕ} (h : endPull now worker s = some (s', outcome)) :
    ∃ l, s' = { s with connection := { s.connection with pullLease := l } } := by
  unfold endPull at h
  split at h
  · split at h
    · exact ⟨_, left_eq h⟩
    · exact ⟨s.connection.pullLease, left_eq h⟩
  · exact ⟨s.connection.pullLease, left_eq h⟩

end

end CalendarHooks
