/-
**A calendar connection with its credential, its watches and all of its tasks.**

The rows of one task and one connection are those of `Texturion/CalendarRows.lean`.  Here a
connection has the rows of every task, its sealed credential with the generation that a refresh has
to name, and its webhook subscriptions; a disconnection is finished where none of all these is left
to be cleaned up.

A function of one task's rows is run on these rows with the finish held back: `World.rows` says that
a watch is still there.  The finish is `World.finalize`, which looks at all rows and watches.  None
of these functions writes the connection.  The functions of the connection are here; like the
others they give nothing where they raise.

Main definitions:

* `CalendarConnections.World` — the connection;
* `CalendarConnections.World.finalize`, `CalendarConnections.World.beginDisconnect`,
  `CalendarConnections.World.abandon` — the end and the start of a disconnection, and its end
  without the provider;
* `CalendarConnections.World.claimRefresh`, `CalendarConnections.World.commitRefresh`,
  `CalendarConnections.World.retryRefresh` — the refresh of a credential;
* `CalendarConnections.Move`, `CalendarConnections.perform`, `CalendarConnections.step` — runs;
* `CalendarConnections.connect` — a connection as it is made.
-/

import Texturion.CalendarRuns

namespace CalendarConnections

open CalendarSync CalendarRows CalendarHooks CalendarCommits CalendarInbound

/-! ### The rows -/

/-- A sealed credential. -/
structure Envelope where
  ciphertext : String
  iv : String
  keyVersion : String
  deriving DecidableEq

inductive WatchStatus
  | active
  | error
  | revoking
  | revoked
  deriving DecidableEq

/-- A row of `webhook_subscriptions`; `revoked_at` is set exactly in the status `revoked`. -/
structure Watch where
  subscription : String
  status : WatchStatus
  generation : ℕ
  attempts : ℕ
  availableAt : ℤ
  expiresAt : ℤ
  lease : Option Lease
  deriving DecidableEq

/-- A task with its link and its live outbox row. -/
structure TaskRows where
  task : Task
  access : Bool
  link : Option Link
  live : Option Outbox
  nextId : ℕ
  deriving DecidableEq

/-- A row of `calendar_connections` with everything that refers to it.  `generation` is
`credential_generation`, `unconfirmed` is `remote_cleanup_unconfirmed`; the field `watch` of
`connection` is not looked at, as the watches are here. -/
structure World where
  connection : Connection
  credential : Option Envelope
  generation : ℕ
  refreshLease : Option Lease
  unconfirmed : Bool
  watches : List Watch
  tasks : List TaskRows
  deriving DecidableEq

abbrev Result := Option (World × Outcome)

def TaskRows.of (s : Rows) : TaskRows where
  task := s.task
  access := s.access
  link := s.link
  live := s.live
  nextId := s.nextId

/-- A watch that is there, as `begin_connection_disconnect` and a reconnection leave it. -/
def Watch.stop (now : ℤ) (watch : Watch) : Watch :=
  if watch.status = .revoked then watch
  else { watch with
    status := .revoking
    generation := watch.generation + 1
    availableAt := now
    lease := none }

/-- A watch that is there is given up locally. -/
def Watch.revoke (bump : ℕ) (watch : Watch) : Watch :=
  if watch.status = .revoked then watch
  else { watch with
    status := .revoked
    generation := watch.generation + bump
    lease := none }

def Watch.fresh (subscription : String) (now expiresAt : ℤ) : Watch where
  subscription := subscription
  status := .active
  generation := 1
  attempts := 0
  availableAt := now
  expiresAt := expiresAt
  lease := none

namespace World

variable (x : Text) (now : ℤ) (w : World)

def status : ConnectionStatus := w.connection.status

def setStatus (status : ConnectionStatus) : World :=
  { w with connection := { w.connection with status := status } }

/-- The rows of one task; the watch holds the finish back. -/
def rows (t : TaskRows) : Rows where
  connection := { w.connection with watch := true }
  task := t.task
  access := t.access
  link := t.link
  live := t.live
  nextId := t.nextId

def onTask (i : ℕ) (f : Rows → CalendarRows.Result) : Result :=
  match w.tasks[i]? with
  | none => some (w, .notFound)
  | some t =>
      match f (w.rows t) with
      | none => none
      | some (s, outcome) => some ({ w with tasks := w.tasks.set i (.of s) }, outcome)

def mapTasks (f : Rows → Rows) : World :=
  { w with tasks := w.tasks.map fun t => .of (f (w.rows t)) }

/-- A statement over all tasks; it raises where it does for one of them. -/
def traverse (f : Rows → Option Rows) : Option World := do
  let tasks ← w.tasks.mapM fun t => (f (w.rows t)).map TaskRows.of
  some { w with tasks := tasks }

def setWatch (i : ℕ) (watch : Watch) : World := { w with watches := w.watches.set i watch }

/-! ### Disconnection -/

/-- The connection row of a disconnection that is over. -/
def revoked : World :=
  { w with
    connection := { w.connection with status := .revoked, cleanup := none, pullLease := none }
    credential := none
    generation := w.generation + 1
    refreshLease := none }

/-- Nothing is left to be cleaned up: no watch, and no live outbox row. -/
def settled : Bool :=
  w.watches.all (fun watch => watch.status = .revoked) && w.tasks.all fun t => t.live.isNone

/-- `calendar_finalize_disconnected_connection`. -/
def finalize : World × Bool :=
  if w.status = .disconnected ∧ w.settled then (w.revoked, true) else (w, false)

/-- `calendar_begin_connection_disconnect`. -/
def beginDisconnect (cleanup : Action) : World × Bool :=
  if w.status = .revoked then (w, true)
  else
    let cleanup := if w.connection.cleanup = some .scrub ∨ cleanup = .scrub then .scrub else .unlink
    finalize (mapTasks
      { w with
        connection := { w.connection with
          status := .disconnected
          cleanup := some cleanup
          pullGeneration := w.connection.pullGeneration + 1
          pullLease := none }
        watches := w.watches.map (Watch.stop now) }
      fun s => enqueueCleanup now cleanup (dropCreate s))

/-- What is there locally is given up, without the provider. -/
def abandon (bump : ℕ) : World :=
  let w := (w.mapTasks fun s => releaseLink s.endLive).revoked
  { w with
    unconfirmed := true
    watches := w.watches.map (Watch.revoke bump) }

/-- `api_revoke_calendar_connection`: not while a credential, a watch or a write is under way. -/
def revoke : Result :=
  if w.status = .revoked then some (w, .revoked)
  else if (w.refreshLease.any fun l => now < l.expiresAt) ∨
      (w.tasks.any fun t => writing now (w.rows t)) ∨
      (w.watches.any fun watch => watch.status ≠ .revoked ∧ watch.lease.isSome) then
    some (w, .busy)
  else
    let r := w.beginDisconnect now .unlink
    some (r.1, if r.2 then .revoked else .disconnecting)

def setWorking (working : Bool) : World :=
  { w with connection := { w.connection with working := working } }

/-- The member is deactivated, and may see no number any more. -/
def deactivate : Result := do
  let w ← (w.setWorking false).traverse fun s =>
    reconcileNumberAccess x now { s with access := false }
  some ((w.beginDisconnect now .scrub).1, .done)

/-- The workspace is closed. -/
def close : Result := some (((w.setWorking false).beginDisconnect now .scrub).1, .done)

/-- The part of `purge_workspace_step` that ends what is still to be cleaned up. -/
def purge : Result :=
  if w.status = .revoked then some (w, .revoked) else some (w.abandon 1, .cleanupAbandoned)

/-! ### Connecting -/

/-- The live watches have their subscriptions for themselves. -/
def subscribed (subscription : String) : Bool :=
  w.watches.any fun watch => watch.status ≠ .revoked ∧ watch.subscription = subscription

/-- `api_complete_calendar_connection` for the provider, account and calendar of the connection.  A
connection that has been revoked stays so: the one that is made is another. -/
def complete (timezone : String) (envelope : Envelope) (subscription : String) (expiresAt : ℤ) :
    Result :=
  if ¬w.connection.working then some (w, .notFound)
  else if blank subscription ∨ expiresAt ≤ now then none
  else if w.status = .disconnected then some (w, .disconnecting)
  else if w.status = .revoked then some (w, .notFound)
  else if w.subscribed subscription then none
  else do
    let w ← traverse
      { w with
        connection := { w.connection with
          status := .active
          timezone := timezone
          pullGeneration := w.connection.pullGeneration + 1
          pullLease := none }
        credential := some envelope
        generation := w.generation + 1
        refreshLease := none
        watches := w.watches.map (Watch.stop now) ++ [.fresh subscription now expiresAt] }
      (enqueueCreate x now)
    some (w, .committed)

/-! ### The credential -/

/-- `api_claim_calendar_credential_refresh`. -/
def claimRefresh (worker : ℕ) (expected : Option ℕ) (seconds : ℤ) : Result :=
  if w.status = .active ∧ w.connection.working ∨
      w.status = .disconnected ∧ w.connection.cleanup.isSome then
    if expected.any (· ≠ w.generation) then some (w, .superseded)
    else if w.refreshLease.any fun l => now < l.expiresAt ∧ l.owner ≠ worker then some (w, .busy)
    else some ({ w with refreshLease := some ⟨worker, now + seconds * 1000000⟩ }, .done)
  else some (w, .notFound)

/-- `api_commit_calendar_credential_refresh`: the same envelope once more is the answer of a commit
that was lost. -/
def commitRefresh (worker expected : ℕ) (envelope : Envelope) : Result :=
  if w.status = .revoked then some (w, .leaseLost)
  else if w.generation = expected + 1 ∧ w.credential = some envelope then some (w, .committed)
  else if w.generation ≠ expected then some (w, .superseded)
  else if ¬w.refreshLease.any (fun l => l.held worker now) then some (w, .leaseLost)
  else
    some ({ w with
      connection := { w.connection with
        status := if w.status = .disconnected then .disconnected else .active }
      credential := some envelope
      generation := w.generation + 1
      refreshLease := none }, .committed)

/-- `api_retry_calendar_credential_refresh`: a disconnected connection whose credential the provider
rejects gives up. -/
def retryRefresh (worker expected : ℕ) (requiresReauth : Bool) : Result :=
  if w.status = .revoked then some (w, .leaseLost)
  else if w.generation ≠ expected then some (w, .superseded)
  else if ¬w.refreshLease.any (fun l => l.held worker now) then some (w, .leaseLost)
  else if w.status = .disconnected ∧ requiresReauth then some (w.abandon 0, .cleanupAbandoned)
  else
    some ({ w with
      connection := { w.connection with
        status :=
          if w.status = .disconnected then .disconnected
          else if requiresReauth then .reauthRequired
          else w.status }
      refreshLease := none }, .done)

/-! ### Pulls -/

def setPullLease (lease : Option Lease) : World :=
  { w with connection := { w.connection with pullLease := lease } }

def whenPulling (worker : ℕ) (f : Result) : Result :=
  if w.connection.pullLease.any fun l => l.held worker now then f else some (w, .leaseLost)

/-- `api_claim_due_calendar_pulls`, with the trigger that queues the horizon. -/
def claimPull (worker : ℕ) (seconds : ℤ) : Result :=
  if w.status = .active ∧ w.connection.working ∧
      (∀ l ∈ w.connection.pullLease, l.expiresAt ≤ now) then do
    let w ← traverse (w.setPullLease (some ⟨worker, now + seconds * 1000000⟩)) (enqueueHorizon x now)
    some (w, .done)
  else some (w, .notFound)

/-- `api_renew_calendar_pull_lease`. -/
def renewPull (worker generation : ℕ) (seconds : ℤ) : Result :=
  whenPulling now w worker <|
    if w.status ≠ .active then some (w, .leaseLost)
    else if w.connection.pullGeneration ≠ generation then some (w.setPullLease none, .superseded)
    else some (w.setPullLease (some ⟨worker, now + seconds * 1000000⟩), .done)

/-- `api_commit_calendar_pull`. -/
def commitPull (worker generation : ℕ) : Result :=
  whenPulling now w worker <|
    if w.connection.pullGeneration ≠ generation then some (w.setPullLease none, .superseded)
    else some ((w.setPullLease none).setStatus .active, .committed)

/-- `api_retry_calendar_pull`. -/
def retryPull (worker : ℕ) (requiresReauth : Bool) : Result :=
  whenPulling now w worker <|
    some ((w.setPullLease none).setStatus (if requiresReauth then .reauthRequired else w.status),
      .queued)

/-- `api_request_calendar_pull`: a pull that is under way keeps its generation. -/
def requestPull : Result :=
  if w.status ≠ .active then some (w, .notFound)
  else
    some ({ w with connection := { w.connection with
      pullGeneration := w.connection.pullGeneration +
        if w.connection.pullLease.any (fun l => now < l.expiresAt) then 0 else 1 } }, .queued)

/-! ### Watches -/

/-- `api_install_calendar_webhook_subscription`. -/
def installWatch (subscription : String) (expiresAt : ℤ) : Result :=
  if expiresAt ≤ now then none
  else if ¬(w.status = .active ∧ w.connection.working) then some (w, .notFound)
  else
    let watches := w.watches.map fun watch =>
      if watch.subscription ≠ subscription then watch.revoke 1
      else if watch.status = .revoked then watch
      else { watch with
        status := .active
        generation := watch.generation + 1
        attempts := 0
        availableAt := now
        expiresAt := expiresAt
        lease := none }
    some ({ w with watches :=
      if w.subscribed subscription then watches
      else watches ++ [.fresh subscription now expiresAt] }, .done)

/-- A watch may be leased. -/
def free (watch : Watch) : Bool :=
  watch.availableAt ≤ now ∧ watch.lease.all fun l => l.expiresAt ≤ now

def leased (worker : ℕ) (seconds : ℤ) (watch : Watch) : Watch :=
  { watch with
    lease := some ⟨worker, now + seconds * 1000000⟩
    attempts := watch.attempts + 1 }

/-- `api_claim_calendar_webhook_renewals`, for one watch.  The watches of a connection that is
neither active nor being disconnected are given up first. -/
def claimRenewal (i worker : ℕ) (seconds within : ℤ) : Result :=
  let w :=
    if w.status = .active ∨ w.status = .disconnected then w
    else { w with watches := w.watches.map (Watch.revoke 1) }
  match w.watches[i]? with
  | none => some (w, .notFound)
  | some watch =>
      if w.status = .active ∧ w.connection.working ∧ watch.status = .active ∧
          watch.expiresAt ≤ now + within * 1000000 ∧ free now watch then
        some (w.setWatch i (leased now worker seconds watch), .done)
      else some (w, .notFound)

/-- A function of a watch that the worker holds. -/
def whenHeld (i worker : ℕ) (f : Watch → Result) : Result :=
  match w.watches[i]? with
  | none => some (w, .leaseLost)
  | some watch =>
      if watch.lease.any fun l => l.held worker now then f watch else some (w, .leaseLost)

/-- `api_commit_calendar_webhook_renewal`. -/
def commitRenewal (i worker generation : ℕ) (subscription : String) (expiresAt : ℤ) : Result :=
  if blank subscription ∨ expiresAt ≤ now then none
  else whenHeld now w i worker fun watch =>
    if watch.generation ≠ generation then
      some (w.setWatch i { watch with availableAt := now, attempts := 0, lease := none },
        .superseded)
    else if w.status ≠ .active then
      some (w.setWatch i { watch with
        status := .revoked, generation := watch.generation + 1, lease := none }, .disconnected)
    else if w.watches.eraseIdx i |>.any fun other =>
        other.status ≠ .revoked ∧ other.subscription = subscription then
      some (w.setWatch i { watch with availableAt := now + 300 * 1000000, lease := none },
        .conflict)
    else
      some (w.setWatch i { watch with
        subscription := subscription
        status := .active
        generation := watch.generation + 1
        attempts := 0
        availableAt := now
        expiresAt := expiresAt
        lease := none }, .committed)

/-- `api_retry_calendar_webhook_renewal`. -/
def retryRenewal (i worker generation : ℕ) (seconds : ℤ) (requiresReauth : Bool) : Result :=
  whenHeld now w i worker fun watch =>
    if watch.generation ≠ generation then
      some (w.setWatch i { watch with availableAt := now, attempts := 0, lease := none },
        .superseded)
    else if w.status ≠ .active then
      some (w.setWatch i { watch with
        status := .revoked, generation := watch.generation + 1, lease := none }, .disconnected)
    else if requiresReauth then
      some (((w.setPullLease none).setStatus .reauthRequired).setWatch i { watch with
        status := .revoked, generation := watch.generation + 1, lease := none }, .done)
    else
      some (w.setWatch i { watch with
        status := if 12 ≤ watch.attempts then .error else .active
        availableAt := now + seconds * 1000000
        lease := none }, .queued)

/-- `api_claim_calendar_webhook_revocations`, for one watch. -/
def claimRevocation (i worker : ℕ) (seconds : ℤ) : Result :=
  match w.watches[i]? with
  | none => some (w, .notFound)
  | some watch =>
      if (w.status = .disconnected ∨ w.status = .active ∧ w.connection.working) ∧
          watch.status = .revoking ∧ free now watch then
        some (w.setWatch i (leased now worker seconds watch), .done)
      else some (w, .notFound)

/-- `api_commit_calendar_webhook_revocation`. -/
def commitRevocation (i worker generation : ℕ) : Result :=
  whenHeld now w i worker fun watch =>
    if watch.status ≠ .revoking then some (w, .leaseLost)
    else if watch.generation ≠ generation then
      some (w.setWatch i { watch with availableAt := now, lease := none }, .superseded)
    else some ((w.setWatch i (watch.revoke 0)).finalize.1, .revoked)

/-- `api_retry_calendar_webhook_revocation`. -/
def retryRevocation (i worker generation : ℕ) (seconds : ℤ) : Result :=
  whenHeld now w i worker fun watch =>
    if watch.status ≠ .revoking then some (w, .leaseLost)
    else if watch.generation ≠ generation then
      some (w.setWatch i { watch with availableAt := now, lease := none }, .superseded)
    else
      some (w.setWatch i { watch with
        availableAt := now + seconds * 1000000, lease := none }, .queued)

/-- `api_abandon_calendar_webhook_revocation`. -/
def abandonRevocation (i worker generation : ℕ) : Result :=
  whenHeld now w i worker fun watch =>
    if watch.status ≠ .revoking ∨ watch.generation ≠ generation then some (w, .leaseLost)
    else
      some ((finalize { w.setWatch i (watch.revoke 0) with unconfirmed := true }).1,
        .cleanupAbandoned)

/-! ### The outbox -/

/-- `api_retry_calendar_outbox`, with what it says of the connection. -/
def retryOutbox (i : ℕ) (ticket : Ticket) (seconds : ℤ) (absent requiresReauth : Bool) : Result :=
  match w.onTask i (CalendarCommits.retry now ticket seconds absent) with
  | some (u, .queued) =>
      some (if requiresReauth ∧ u.status ≠ .revoked then u.setStatus .reauthRequired else u,
        .queued)
  | r => r

/-- `api_abandon_calendar_cleanup`: a disconnected connection is given up as a whole. -/
def abandonCleanup (i : ℕ) (ticket : Ticket) : Result :=
  match w.onTask i (CalendarCommits.abandonCleanup now ticket) with
  | some (u, .cleanupAbandoned) =>
      some (if w.status = .disconnected then w.abandon 1 else { u with unconfirmed := true },
        .cleanupAbandoned)
  | r => r

def insertTask (task : Task) (access : Bool) : Result := do
  let s ← enqueueMappedTaskChange x now (w.rows
    { task := task, access := access, link := none, live := none, nextId := 1 })
  some ({ w with tasks := w.tasks ++ [.of s] }, .done)

end World

/-! ### Runs -/

/-- The functions of one task's rows, apart from those that have more to do with the connection. -/
def ofTask : CalendarRuns.Move → Bool
  | .deactivateMember => false
  | .closeCompany => false
  | .revokeConnection _ => false
  | .completeConnection _ => false
  | .rejectCredential => false
  | .renewCredential => false
  | .commitWebhookRevocation => false
  | .claimPull .. => false
  | .renewPull .. => false
  | .endPull _ => false
  | .abandonCleanup _ => false
  | .retry .. => false
  | _ => true

/-- The commits of the outbox, after which a disconnection may be over. -/
def commits : CalendarRuns.Move → Bool
  | .commitCreated .. => true
  | .commitSent .. => true
  | .commitScrubbed .. => true
  | _ => false

inductive Move
  | task (i : ℕ) (move : CalendarRuns.Move)
  | insertTask (task : Task) (access : Bool)
  | retryOutbox (i : ℕ) (ticket : Ticket) (seconds : ℤ) (absent requiresReauth : Bool)
  | abandonCleanup (i : ℕ) (ticket : Ticket)
  | revoke
  | deactivate
  | reactivate
  | close
  | purge
  | complete (timezone : String) (envelope : Envelope) (subscription : String) (expiresAt : ℤ)
  | claimRefresh (worker : ℕ) (expected : Option ℕ) (seconds : ℤ)
  | commitRefresh (worker expected : ℕ) (envelope : Envelope)
  | retryRefresh (worker expected : ℕ) (requiresReauth : Bool)
  | claimPull (worker : ℕ) (seconds : ℤ)
  | renewPull (worker generation : ℕ) (seconds : ℤ)
  | commitPull (worker generation : ℕ)
  | retryPull (worker : ℕ) (requiresReauth : Bool)
  | requestPull
  | installWatch (subscription : String) (expiresAt : ℤ)
  | claimRenewal (i worker : ℕ) (seconds within : ℤ)
  | commitRenewal (i worker generation : ℕ) (subscription : String) (expiresAt : ℤ)
  | retryRenewal (i worker generation : ℕ) (seconds : ℤ) (requiresReauth : Bool)
  | claimRevocation (i worker : ℕ) (seconds : ℤ)
  | commitRevocation (i worker generation : ℕ)
  | retryRevocation (i worker generation : ℕ) (seconds : ℤ)
  | abandonRevocation (i worker generation : ℕ)
  deriving DecidableEq

variable (x : Text)

/-- A function of the rows of one task, and the finish behind a commit. -/
def performTask (now : ℤ) (i : ℕ) (m : CalendarRuns.Move) (w : World) : Result :=
  if ofTask m then
    match w.onTask i (CalendarRuns.perform x now m) with
    | none => none
    | some (u, outcome) =>
        some (if commits m ∧ outcome ≠ .leaseLost then u.finalize.1 else u, outcome)
  else some (w, .notFound)

/-- The function a move stands for. -/
def perform (now : ℤ) : Move → World → Result
  | .task i m => performTask x now i m
  | .insertTask task access => fun w => w.insertTask x now task access
  | .retryOutbox i ticket seconds absent reauth => fun w =>
      w.retryOutbox now i ticket seconds absent reauth
  | .abandonCleanup i ticket => fun w => w.abandonCleanup now i ticket
  | .revoke => fun w => w.revoke now
  | .deactivate => fun w => w.deactivate x now
  | .reactivate => fun w => some (w.setWorking true, .done)
  | .close => fun w => w.close now
  | .purge => fun w => w.purge
  | .complete timezone envelope subscription expiresAt => fun w =>
      w.complete x now timezone envelope subscription expiresAt
  | .claimRefresh worker expected seconds => fun w => w.claimRefresh now worker expected seconds
  | .commitRefresh worker expected envelope => fun w => w.commitRefresh now worker expected envelope
  | .retryRefresh worker expected reauth => fun w => w.retryRefresh now worker expected reauth
  | .claimPull worker seconds => fun w => w.claimPull x now worker seconds
  | .renewPull worker generation seconds => fun w => w.renewPull now worker generation seconds
  | .commitPull worker generation => fun w => w.commitPull now worker generation
  | .retryPull worker reauth => fun w => w.retryPull now worker reauth
  | .requestPull => fun w => w.requestPull now
  | .installWatch subscription expiresAt => fun w => w.installWatch now subscription expiresAt
  | .claimRenewal i worker seconds within => fun w => w.claimRenewal now i worker seconds within
  | .commitRenewal i worker generation subscription expiresAt => fun w =>
      w.commitRenewal now i worker generation subscription expiresAt
  | .retryRenewal i worker generation seconds reauth => fun w =>
      w.retryRenewal now i worker generation seconds reauth
  | .claimRevocation i worker seconds => fun w => w.claimRevocation now i worker seconds
  | .commitRevocation i worker generation => fun w => w.commitRevocation now i worker generation
  | .retryRevocation i worker generation seconds => fun w =>
      w.retryRevocation now i worker generation seconds
  | .abandonRevocation i worker generation => fun w => w.abandonRevocation now i worker generation

/-- One move at its time, with its outcome; one that raises is rolled back. -/
def step (w : World) (i : ℤ × Move) : World × List Outcome :=
  match perform x i.1 i.2 w with
  | none => (w, [])
  | some (w', outcome) => (w', [outcome])

/-- `api_complete_calendar_connection` for a member without a connection: the tasks that are there
have no event in its calendar yet. -/
def connect (now : ℤ) (userId : ℕ) (timezone : String) (envelope : Envelope)
    (subscription : String) (expiresAt : ℤ) (tasks : List (Task × Bool)) : Option World :=
  if blank subscription ∨ expiresAt ≤ now then none
  else World.traverse
    { connection :=
        { userId := userId
          status := .active
          cleanup := none
          timezone := timezone
          pullGeneration := 1
          pullLease := none
          working := true
          watch := true }
      credential := some envelope
      generation := 1
      refreshLease := none
      unconfirmed := false
      watches := [.fresh subscription now expiresAt]
      tasks := tasks.map fun t =>
        { task := t.1, access := t.2, link := none, live := none, nextId := 1 } }
    (enqueueCreate x now)

end CalendarConnections
