/-
**The outbox worker's side of the calendar rows.**

A row of the outbox is claimed under a lease; before the first write to the provider the worker
marks its effect as ambiguous; and what the provider answered is committed, which completes the row
and queues what the task has become meanwhile.

Main result:

* `CalendarCommits.whenLeased_cases` — a worker whose lease has run out changes nothing.
-/

import Texturion.CalendarHooks

namespace CalendarCommits

open CalendarSync CalendarRows CalendarHooks Fallible

variable (x : Text) (now : ℤ)

/-- What an outbox row is claimed, or held, by. -/
structure Ticket where
  worker : ℕ
  id : ℕ
  generation : ℕ
  deriving DecidableEq

/-- The condition of the claim. -/
def claimable (s : Rows) (o : Outbox) : Bool :=
  (s.active ∧ s.connection.working ∨
      s.connection.status = .disconnected ∧
        (some o.action = s.connection.cleanup ∨ o.ambiguous)) ∧
    o.availableAt ≤ now ∧ o.lease.all (fun l => l.expiresAt ≤ now)

/-- `api_claim_calendar_outbox`, for this row. -/
def claim (worker : ℕ) (seconds : ℤ) (s : Rows) : Result :=
  match s.live with
  | none => some (s, .notFound)
  | some o =>
      if claimable now s o then
        some ({ s with live := some { o with
          lease := some ⟨worker, now + seconds * 1000000⟩
          leaseGeneration := o.leaseGeneration + 1 } }, .done)
      else some (s, .notFound)

def leasedTo (t : Ticket) (o : Outbox) : Bool :=
  o.id = t.id ∧ o.lease.any fun l => l.held t.worker now

/-- A function of a row that the worker holds. -/
def whenLeased (t : Ticket) (s : Rows) (f : Outbox → Result) : Result :=
  match s.live with
  | none => some (s, .leaseLost)
  | some o => if leasedTo now t o then f o else some (s, .leaseLost)

/-- `api_mark_calendar_outbox_effect_started`. -/
def markEffectStarted (t : Ticket) (s : Rows) : Result :=
  whenLeased now t s fun o =>
    if o.generation ≠ t.generation then some (s, .superseded)
    else some ({ s with live := some { o with
      effect := o.effect.or (some o.leaseGeneration) } }, .marked)

/-- What the provider answered about an event. -/
structure Remote where
  eventId : String
  instanceId : String
  seriesId : Option String
  version : Option String
  start : ℤ
  endAt : ℤ
  zone : String
  title : String
  description : String
  deriving DecidableEq

/-- What is queued behind a commit. -/
def followup (s : Rows) (action : Option Action) (requested : Option Snapshot)
    (version : Option String) : Option Rows :=
  match action with
  | none => some s
  | some a => s.insertLive now true a (if a = .upsert then requested else none) version

/-- What a create leads to that is not in conflict: the cleanup of a connection that has gone, the
scrub of what may not be seen, the unlink of what is not on the calendar, and an update where the
task has moved. -/
def createdFollowup (s : Rows) (sent requested : Snapshot) (current : Option Snapshot) :
    Option Action :=
  if s.connection.status = .disconnected then some (s.connection.cleanup.getD .unlink)
  else if ¬s.access then some .scrub
  else if ¬s.eligible now then some .unlink
  else if sent = requested ∧ current ≠ some sent then some .upsert
  else none

/-- The link of an event that has been created: an observation that is not what was asked for is
never a base. -/
def createdLink (r : Remote) (conflict : Bool) (sent requested : Snapshot)
    (current : Option Snapshot) : Link where
  eventId := r.eventId
  instanceId := r.instanceId
  seriesId := r.seriesId
  version := r.version
  state := if conflict then .conflict else .active
  base := if sent = requested then sent else requested
  lastSent := if sent = requested then some sent else none
  conflictOurs := if conflict then current else none
  conflictTheirs := if conflict then some sent else none
  eventRemovedAt := false
  refusalCode := none

/-- The create is recorded, and what the task has become meanwhile is queued behind it. -/
def recordCreated (t : Ticket) (r : Remote) (o : Outbox) (sent requested : Snapshot)
    (current : Option Snapshot) (s : Rows) : Result :=
  if sent ≠ requested ∧ s.active ∧ s.eligible now then
    some (s.endLive.setLink (createdLink r true sent requested current), .conflict)
  else do
    let u ← followup now (s.endLive.setLink (createdLink r false sent requested current))
      (createdFollowup now s sent requested current) current r.version
    some ((finalizeDisconnected u).1,
      if o.generation ≠ t.generation ∨ (createdFollowup now s sent requested current).isSome then
        .followupQueued
      else .committed)

/-- `api_commit_calendar_outbox_created`. -/
def commitCreated (t : Ticket) (r : Remote) (s : Rows) : Result :=
  whenLeased now t s fun o =>
    if o.action ≠ .create then some (s, .leaseLost)
    else if r.eventId = "" ∨ r.instanceId = "" ∨ r.seriesId = some r.instanceId ∨
        o.linked ≠ s.link.isSome then none
    else do
      let sent ← snapshotFromFields x r.start r.endAt r.zone r.title r.description
      let requested ← o.requested
      let current ← taskSnapshot x s.task (some requested) s.connection.timezone
      recordCreated now t r o sent requested current s

/-- What a write leads to; `sent` is nothing for an unlink. -/
def sentFollowup (s : Rows) (o : Outbox) (sent : Option Snapshot) (current : Option Snapshot) :
    Option Action :=
  if s.connection.status = .disconnected ∧ (s.connection.cleanup = some .scrub ∨ ¬s.access) ∧
      o.action ≠ .scrub then some .scrub
  else if s.connection.status = .disconnected then
    -- an unlink is the last thing of an ordinary disconnection
    if sent.isSome then some (s.connection.cleanup.getD .unlink) else none
  else if ¬s.access ∧ o.action ≠ .scrub then some .scrub
  else if s.eligible now then
    if sent = none ∨ current ≠ sent then some .upsert else none
  else if sent.isSome then some .unlink
  else none

def sentLink (l : Link) (version : Option String) : Option Snapshot → Link
  | none => { l with state := .unlinked, version := version, lastSent := none }
  | some sent => { l with
      state := .active
      base := sent
      lastSent := some sent
      version := version
      conflictOurs := none
      conflictTheirs := none
      eventRemovedAt := false
      refusalCode := none }

/-- The fields of a write; nothing is an unlink. -/
structure Sent where
  start : ℤ
  endAt : ℤ
  zone : String
  title : String
  description : String
  deriving DecidableEq

def sentSnapshot : Option Sent → Option (Option Snapshot)
  | none => some none
  | some f => (snapshotFromFields x f.start f.endAt f.zone f.title f.description).map some

/-- The task as it is at the commit, where that decides what is queued. -/
def sentCurrent (s : Rows) (l : Link) (sent : Option Snapshot) : Option (Option Snapshot) :=
  if s.connection.status ≠ .disconnected ∧ s.eligible now then
    taskSnapshot x s.task (some (sent.getD l.base)) s.connection.timezone
  else some none

/-- The write is recorded, and what the task has become meanwhile is queued behind it. -/
def recordSent (t : Ticket) (version : Option String) (o : Outbox) (l : Link)
    (sent current : Option Snapshot) (s : Rows) : Result := do
  let u ← followup now (s.endLive.setLink (sentLink l version sent))
    (sentFollowup now s o sent current) current version
  some ((finalizeDisconnected u).1,
    if (sentFollowup now s o sent current).isSome then .followupQueued
    else if o.generation ≠ t.generation then .followupChecked
    else .committed)

/-- `api_commit_calendar_outbox_sent`. -/
def commitSent (t : Ticket) (version : Option String) (fields : Option Sent) (s : Rows) : Result :=
  whenLeased now t s fun o =>
    if o.action = .create then some (s, .leaseLost)
    else do
      let l ← s.link
      let sent ← sentSnapshot x fields
      let current ← sentCurrent x now s l sent
      recordSent now t version o l sent current s

/-- A task that is on the calendar again gets a new event behind a scrub. -/
def createAfterScrub (s : Rows) : Option (Rows × Bool) :=
  if s.active ∧ s.eligible now then do
    let current ← taskSnapshot x s.task none s.connection.timezone
    let s ← s.insertLive now true .create current none
    some (s, true)
  else some (s, false)

/-- `api_commit_calendar_outbox_scrubbed`. -/
def commitScrubbed (t : Ticket) (version : Option String) (deleted : Bool) (s : Rows) : Result :=
  whenLeased now t s fun o =>
    if o.action ≠ .scrub then some (s, .leaseLost)
    else do
      let l ← s.link
      let r ← createAfterScrub x now (s.endLive.setLink
        { releasedLink l with version := if deleted then none else version })
      some ((finalizeDisconnected r.1).1, if r.2 then .followupQueued else .committed)

/-- `api_abandon_calendar_cleanup`. -/
def abandonCleanup (t : Ticket) (s : Rows) : Result :=
  whenLeased now t s fun o =>
    if o.action ≠ .scrub ∨ o.generation ≠ t.generation then some (s, .leaseLost)
    else if s.connection.status = .revoked then some (s, .leaseLost)
    else
      if s.connection.status = .disconnected then
        some (releaseLink { s.endLive with connection := { s.connection with
          status := .revoked
          cleanup := none
          watch := false
          pullLease := none } }, .cleanupAbandoned)
      else match s.link with
        | none => some (s.endLive, .cleanupAbandoned)
        | some l => some (s.endLive.setLink (releasedLink l), .cleanupAbandoned)

/-- The effect after a retry: it is known to be absent only for the write of this very lease. -/
def retriedEffect (o : Outbox) (definitelyAbsent : Bool) : Option ℕ :=
  if definitelyAbsent ∧ o.effect = some o.leaseGeneration then none else o.effect

/-- `api_retry_calendar_outbox`. -/
def retry (t : Ticket) (seconds : ℤ) (definitelyAbsent : Bool) (s : Rows) : Result :=
  whenLeased now t s fun o =>
    some ({ s with live := some { o with
      lease := none
      effect := retriedEffect o definitelyAbsent
      availableAt := if o.generation ≠ t.generation then now else now + seconds * 1000000 } },
      if o.generation ≠ t.generation then .superseded else .queued)

/-- `api_cancel_calendar_outbox`. -/
def cancel (t : Ticket) (s : Rows) : Result :=
  whenLeased now t s fun o =>
    if o.ambiguous then
      some ({ s with live := some { o with lease := none, availableAt := now } },
        .ambiguousEffect)
    else if o.generation ≠ t.generation ∧ ¬(o.action = .create ∧ ¬s.eligible now) then
      some ({ s with live := some { o with lease := none, availableAt := now } }, .superseded)
    else some (s.endLive, .cancelled)

/-- **A worker whose lease has run out changes nothing.** -/
theorem whenLeased_cases {t : Ticket} {s : Rows} {f : Outbox → Result} {r : Rows × Outcome}
    (h : whenLeased now t s f = some r) :
    r = (s, .leaseLost) ∨ ∃ o, s.live = some o ∧ leasedTo now t o = true ∧ f o = some r := by
  unfold whenLeased at h
  split at h
  · exact .inl (Option.some.inj h).symm
  · next o ho =>
      split at h
      · next hl => exact .inr ⟨o, ho, hl, h⟩
      · exact .inl (Option.some.inj h).symm

variable {version : Option String}

theorem outboxOnly_followup {s s' : Rows} {action : Option Action} {requested : Option Snapshot}
    (h : followup now s action requested version = some s') : s.OutboxOnly s' := by
  unfold followup at h
  split at h
  · obtain rfl := Option.some.inj h
    exact .refl s
  · exact Rows.outboxOnly_insertLive h

theorem outboxOnly_createAfterScrub {s : Rows} {r : Rows × Bool}
    (h : createAfterScrub x now s = some r) : s.OutboxOnly r.1 := by
  unfold createAfterScrub at h
  split at h
  · obtain ⟨requested, -, h⟩ := Option.bind_eq_some_iff.1 h
    obtain ⟨t, ht, h⟩ := Option.bind_eq_some_iff.1 h
    obtain rfl := Option.some.inj h
    exact Rows.outboxOnly_insertLive ht
  · obtain rfl := Option.some.inj h
    exact .refl s

/-! ### What each of them can do -/

section
variable {x now} {s s' : Rows} {outcome : Outcome} {t : Ticket}

theorem claim_cases {worker : ℕ} {seconds : ℤ} (h : claim now worker seconds s = some (s', outcome)) :
    s' = s ∨ ∃ o, s.live = some o ∧ claimable now s o = true ∧ s' = { s with live := some { o with
      lease := some ⟨worker, now + seconds * 1000000⟩
      leaseGeneration := o.leaseGeneration + 1 } } := by
  unfold claim at h
  split at h
  · exact .inl (left_eq h)
  · next o ho =>
      split at h
      · next hc => exact .inr ⟨o, ho, hc, left_eq h⟩
      · exact .inl (left_eq h)

theorem markEffectStarted_cases (h : markEffectStarted now t s = some (s', outcome)) :
    s' = s ∨ ∃ o, s.live = some o ∧ leasedTo now t o = true ∧ o.generation = t.generation ∧
      s' = { s with live := some { o with effect := o.effect.or (some o.leaseGeneration) } } := by
  rcases whenLeased_cases now h with h | ⟨o, ho, hl, h⟩
  · exact .inl (Prod.mk.inj h).1
  · split at h
    · exact .inl (left_eq h)
    · next hg => exact .inr ⟨o, ho, hl, not_not.1 hg, left_eq h⟩

theorem commitCreated_cases {r : Remote} (h : commitCreated x now t r s = some (s', outcome)) :
    s' = s ∧ outcome = .leaseLost ∨ ∃ o sent requested current,
      s.live = some o ∧ leasedTo now t o = true ∧ o.action = .create ∧ o.linked = s.link.isSome ∧
      snapshotFromFields x r.start r.endAt r.zone r.title r.description = some sent ∧
      o.requested = some requested ∧
      taskSnapshot x s.task (some requested) s.connection.timezone = some current ∧
      (sent ≠ requested ∧ s.active = true ∧ s.eligible now = true ∧
          s' = s.endLive.setLink (createdLink r true sent requested current) ∨
        ¬(sent ≠ requested ∧ s.active = true ∧ s.eligible now = true) ∧
          ∃ u, followup now (s.endLive.setLink (createdLink r false sent requested current))
              (createdFollowup now s sent requested current) current r.version = some u ∧
            s' = (finalizeDisconnected u).1) := by
  rcases whenLeased_cases now h with h | ⟨o, ho, hl, h⟩
  · exact .inl (Prod.mk.inj h)
  · split at h
    · obtain ⟨hs, ho⟩ := Prod.mk.inj (Option.some.inj h)
      exact .inl ⟨hs.symm, ho.symm⟩
    next hact =>
    split at h
    · simp at h
    next hids =>
    obtain ⟨sent, hsent, h⟩ := Option.bind_eq_some_iff.1 h
    obtain ⟨requested, hreq, h⟩ := Option.bind_eq_some_iff.1 h
    obtain ⟨current, hcur, h⟩ := Option.bind_eq_some_iff.1 h
    have hlinked : o.linked = s.link.isSome := by
      by_contra hne
      exact hids (.inr (.inr (.inr hne)))
    refine .inr ⟨o, sent, requested, current, ho, hl, not_not.1 hact, hlinked, hsent, hreq, hcur,
      ?_⟩
    unfold recordCreated at h
    split at h
    · next hc => exact .inl ⟨hc.1, hc.2.1, hc.2.2, left_eq h⟩
    · next hc =>
        obtain ⟨u, hu, h⟩ := Option.bind_eq_some_iff.1 h
        exact .inr ⟨hc, u, hu, left_eq h⟩

theorem commitSent_cases {fields : Option Sent}
    (h : commitSent x now t version fields s = some (s', outcome)) :
    s' = s ∧ outcome = .leaseLost ∨ ∃ o l sent current u,
      s.live = some o ∧ leasedTo now t o = true ∧ o.action ≠ .create ∧ s.link = some l ∧
      sentSnapshot x fields = some sent ∧ sentCurrent x now s l sent = some current ∧
      followup now (s.endLive.setLink (sentLink l version sent))
        (sentFollowup now s o sent current) current version = some u ∧
      s' = (finalizeDisconnected u).1 := by
  rcases whenLeased_cases now h with h | ⟨o, ho, hl, h⟩
  · exact .inl (Prod.mk.inj h)
  · split at h
    · obtain ⟨hs, ho⟩ := Prod.mk.inj (Option.some.inj h)
      exact .inl ⟨hs.symm, ho.symm⟩
    next hact =>
    obtain ⟨l, hlink, h⟩ := Option.bind_eq_some_iff.1 h
    obtain ⟨sent, hsent, h⟩ := Option.bind_eq_some_iff.1 h
    obtain ⟨current, hcur, h⟩ := Option.bind_eq_some_iff.1 h
    obtain ⟨u, hu, h⟩ := Option.bind_eq_some_iff.1 h
    exact .inr ⟨o, l, sent, current, u, ho, hl, hact, hlink, hsent, hcur, hu,
      left_eq h⟩

theorem commitScrubbed_cases {deleted : Bool}
    (h : commitScrubbed x now t version deleted s = some (s', outcome)) :
    s' = s ∨ ∃ o l v r, s.live = some o ∧ leasedTo now t o = true ∧ o.action = .scrub ∧
      s.link = some l ∧
      createAfterScrub x now (s.endLive.setLink { releasedLink l with version := v }) = some r ∧
      s' = (finalizeDisconnected r.1).1 := by
  rcases whenLeased_cases now h with h | ⟨o, ho, hl, h⟩
  · exact .inl (Prod.mk.inj h).1
  · split at h
    · exact .inl (left_eq h)
    next hact =>
    obtain ⟨l, hlink, h⟩ := Option.bind_eq_some_iff.1 h
    obtain ⟨r, hr, h⟩ := Option.bind_eq_some_iff.1 h
    exact .inr ⟨o, l, _, r, ho, hl, not_not.1 hact, hlink, hr,
      left_eq h⟩

theorem abandonCleanup_cases (h : abandonCleanup now t s = some (s', outcome)) :
    s' = s ∨ ∃ o, s.live = some o ∧ leasedTo now t o = true ∧ o.action = .scrub ∧
      (s.connection.status = .disconnected ∧
          s' = releaseLink { s.endLive with connection := { s.connection with
            status := .revoked
            cleanup := none
            watch := false
            pullLease := none } } ∨
        s.connection.status ≠ .disconnected ∧ s.link = none ∧ s' = s.endLive ∨
        s.connection.status ≠ .disconnected ∧ ∃ l, s.link = some l ∧
          s' = s.endLive.setLink (releasedLink l)) := by
  rcases whenLeased_cases now h with h | ⟨o, ho, hl, h⟩
  · exact .inl (Prod.mk.inj h).1
  · split at h
    · exact .inl (left_eq h)
    next hact =>
    have hscrub : o.action = .scrub := by
      by_contra hne
      exact hact (.inl hne)
    split at h
    · exact .inl (left_eq h)
    refine .inr ⟨o, ho, hl, hscrub, ?_⟩
    split at h
    · next hd => exact .inl ⟨hd, left_eq h⟩
    next hd =>
    split at h
    · next hlink => exact .inr (.inl ⟨hd, hlink, left_eq h⟩)
    · next l hlink =>
        exact .inr (.inr ⟨hd, l, hlink, left_eq h⟩)

theorem retry_cases {seconds : ℤ} {absent : Bool}
    (h : retry now t seconds absent s = some (s', outcome)) :
    s' = s ∨ ∃ o availableAt, s.live = some o ∧ leasedTo now t o = true ∧
      s' = { s with live := some { o with
        lease := none
        effect := retriedEffect o absent
        availableAt := availableAt } } := by
  rcases whenLeased_cases now h with h | ⟨o, ho, hl, h⟩
  · exact .inl (Prod.mk.inj h).1
  · exact .inr ⟨o, _, ho, hl, left_eq h⟩

theorem cancel_cases (h : cancel now t s = some (s', outcome)) :
    s' = s ∨ ∃ o, s.live = some o ∧ leasedTo now t o = true ∧
      (s' = { s with live := some { o with lease := none, availableAt := now } } ∧
          (o.ambiguous = true ∨ o.generation ≠ t.generation) ∨
        s' = s.endLive ∧ o.ambiguous = false ∧
          (o.generation = t.generation ∨ o.action = .create ∧ s.eligible now = false)) := by
  rcases whenLeased_cases now h with h | ⟨o, ho, hl, h⟩
  · exact .inl (Prod.mk.inj h).1
  · refine .inr ⟨o, ho, hl, ?_⟩
    split at h
    · next ha => exact .inl ⟨left_eq h, .inl ha⟩
    next ha =>
    split at h
    · next hg => exact .inl ⟨left_eq h, .inr hg.1⟩
    · next hg =>
        refine .inr ⟨left_eq h, by simpa using ha, ?_⟩
        by_cases hgen : o.generation = t.generation
        · exact .inl hgen
        · have hcreate := not_not.1 (not_and.1 hg hgen)
          exact .inr ⟨hcreate.1, by simpa using hcreate.2⟩

/-! ### What they come to under a lease -/

theorem whenLeased_of_leased {o : Outbox} {f : Outbox → Result} (ho : s.live = some o)
    (hl : leasedTo now t o = true) : whenLeased now t s f = f o := by
  simp only [whenLeased, ho, hl, if_true]

theorem followup_of_none {action : Action} {requested : Option Snapshot}
    (hlive : s.live = none) : followup now s (some action) requested version = some { s with
      live := some (s.freshRow now true action (if action = .upsert then requested else none) version)
      nextId := s.nextId + 1 } := by
  simp only [followup, Rows.insertLive, hlive]

theorem commitSent_of_leased {fields : Option Sent} {o : Outbox} {l : Link}
    {sent current : Option Snapshot} (ho : s.live = some o) (hl : leasedTo now t o = true)
    (haction : o.action ≠ .create) (hlink : s.link = some l)
    (hsent : sentSnapshot x fields = some sent)
    (hcurrent : sentCurrent x now s l sent = some current) :
    commitSent x now t version fields s = recordSent now t version o l sent current s := by
  rw [commitSent, whenLeased_of_leased ho hl, if_neg haction, hlink, hsent]
  simp only [Option.bind_eq_bind, Option.bind_some, hcurrent]

end

end CalendarCommits
