/-
**Runs of the calendar rows.**

A run is any sequence of the functions of migration `20260825020000`, the triggers included, with
any arguments and at any times: edits of the task, changed access, disconnections, claims, commits,
retries and cancellations of the outbox worker, pulls with whatever they observe, and the member's
answers.  A function that raises leaves the rows as they are.

Main result:

* `CalendarRuns.lastSent_of_run` — **what was sent last is the common base, or nothing**.
-/

import Texturion.CalendarInbound
import Texturion.ReactiveRun

namespace CalendarRuns

open CalendarSync CalendarRows CalendarHooks CalendarCommits CalendarInbound Fallible

inductive Move
  | editTask (task : Task)
  | changeAccess (allowed : Bool)
  | deactivateMember
  | closeCompany
  | revokeConnection (renewing : Bool)
  | completeConnection (timezone : String)
  | rejectCredential
  | renewCredential
  | commitWebhookRevocation
  | claimPull (worker : ℕ) (seconds : ℤ)
  | renewPull (worker : ℕ) (seconds : ℤ)
  | endPull (worker : ℕ)
  | claim (worker : ℕ) (seconds : ℤ)
  | markEffectStarted (ticket : Ticket)
  | commitCreated (ticket : Ticket) (remote : Remote)
  | commitSent (ticket : Ticket) (version : Option String) (fields : Option Sent)
  | commitScrubbed (ticket : Ticket) (version : Option String) (deleted : Bool)
  | abandonCleanup (ticket : Ticket)
  | retry (ticket : Ticket) (seconds : ℤ) (definitelyAbsent : Bool)
  | cancel (ticket : Ticket)
  | apply (proof : LeaseProof) (observation : Observation)
  | markEventRemoved (proof : LeaseProof) (instanceId : String) (version : Option String)
  | markRefusal (proof : LeaseProof) (instanceId : String) (version : Option String)
      (code : String) (clear : Bool)
  | markConflict (worker generation : ℕ) (version : Option String) (ours theirs : Snapshot)
  | observeCondition (instanceId : String) (expected : Option Snapshot)
      (expectedVersion : Option String) (refusal : Option (String × String))
  | resolveConflict (resolution : Resolution) (expected : Option Snapshot) (reading : Fresh)
  | resolveEventRemoved (answer : Answer)
  deriving DecidableEq

variable (x : Text)

/-- The function a move stands for. -/
def perform (now : ℤ) : Move → Rows → Result
  | .editTask task => editTask x now task
  | .changeAccess allowed => changeAccess x now allowed
  | .deactivateMember => deactivateMember x now
  | .closeCompany => closeCompany now
  | .revokeConnection renewing => revokeConnection now renewing
  | .completeConnection timezone => completeConnection x now timezone
  | .rejectCredential => rejectCredential
  | .renewCredential => renewCredential
  | .commitWebhookRevocation => commitWebhookRevocation
  | .claimPull worker seconds => claimPull x now worker seconds
  | .renewPull worker seconds => renewPull now worker seconds
  | .endPull worker => endPull now worker
  | .claim worker seconds => claim now worker seconds
  | .markEffectStarted ticket => markEffectStarted now ticket
  | .commitCreated ticket remote => commitCreated x now ticket remote
  | .commitSent ticket version fields => commitSent x now ticket version fields
  | .commitScrubbed ticket version deleted => commitScrubbed x now ticket version deleted
  | .abandonCleanup ticket => abandonCleanup now ticket
  | .retry ticket seconds absent => retry now ticket seconds absent
  | .cancel ticket => cancel now ticket
  | .apply proof observation => applyProviderSnapshot x now proof observation
  | .markEventRemoved proof instanceId version => markEventRemoved x now proof instanceId version
  | .markRefusal proof instanceId version code clear => fun s =>
    some (markRefusal now proof instanceId version code clear s)
  | .markConflict worker generation version ours theirs => fun s =>
    some (markConflict now worker generation version ours theirs s)
  | .observeCondition instanceId expected expectedVersion refusal =>
    observeCondition x instanceId expected expectedVersion refusal
  | .resolveConflict resolution expected reading => resolveConflict x now resolution expected reading
  | .resolveEventRemoved answer => resolveEventRemoved x now answer

/-- One move at its time, with its outcome; one that raises is rolled back. -/
def step (s : Rows) (i : ℤ × Move) : Rows × List Outcome :=
  match perform x i.1 i.2 s with
  | none => (s, [])
  | some (s', outcome) => (s', [outcome])

/-- The rows of a task and a connection that has just been made. -/
def fresh (task : Task) (userId : ℕ) (timezone : String) (access : Bool) : Rows where
  connection :=
    { userId := userId
      status := .active
      cleanup := none
      timezone := timezone
      pullGeneration := 1
      pullLease := none
      working := true
      watch := true }
  task := task
  access := access
  link := none
  live := none
  nextId := 1

/-- The moves that are not about the link, nor about how its connection is cleaned up. -/
def Move.frames : Move → Bool
  | .completeConnection _ | .renewCredential | .claimPull _ _ | .renewPull _ _ | .endPull _
  | .claim _ _ | .markEffectStarted _ | .retry _ _ _ | .cancel _ => true
  | _ => false

theorem perform_frame {x : Text} {now : ℤ} {m : Move} {s s' : Rows} {outcome : Outcome}
    (hm : m.frames = true) (h : perform x now m s = some (s', outcome)) :
    s'.link = s.link ∧ s'.connection.cleanup = s.connection.cleanup := by
  cases m with
  | completeConnection timezone =>
    rcases completeConnection_cases h with rfl | ⟨-, h⟩
    · exact ⟨rfl, rfl⟩
    · have hrows := outboxOnly_enqueueCreate x now h
      exact ⟨hrows.link, by rw [hrows.connection]⟩
  | renewCredential => rcases renewCredential_cases h with rfl | ⟨-, rfl⟩ <;> exact ⟨rfl, rfl⟩
  | claimPull worker seconds =>
    rcases claimPull_cases h with rfl | ⟨-, h⟩
    · exact ⟨rfl, rfl⟩
    · have hrows := outboxOnly_enqueueCreate x now h
      exact ⟨hrows.link, by rw [hrows.connection]⟩
  | renewPull worker seconds =>
    obtain ⟨l, rfl⟩ := renewPull_cases h
    exact ⟨rfl, rfl⟩
  | endPull worker =>
    obtain ⟨l, rfl⟩ := endPull_cases h
    exact ⟨rfl, rfl⟩
  | claim worker seconds => rcases claim_cases h with rfl | ⟨o, -, -, rfl⟩ <;> exact ⟨rfl, rfl⟩
  | markEffectStarted ticket =>
    rcases markEffectStarted_cases h with rfl | ⟨o, -, -, -, rfl⟩ <;> exact ⟨rfl, rfl⟩
  | retry ticket seconds absent =>
    rcases retry_cases h with rfl | ⟨o, availableAt, -, -, rfl⟩ <;> exact ⟨rfl, rfl⟩
  | cancel ticket =>
    rcases cancel_cases h with rfl | ⟨o, -, -, ⟨rfl, -⟩ | ⟨rfl, -, -⟩⟩ <;> exact ⟨rfl, rfl⟩
  | _ => cases hm

/-! ### What was sent last -/

def Agreed (s : Rows) : Prop := ∀ l, s.link = some l → l.lastSent = none ∨ l.lastSent = some l.base

variable {proof : LeaseProof} {obs : Observation}

section
variable {x} {now : ℤ} {s s' : Rows} {outcome : Outcome}

theorem Agreed.of_link (hs : Agreed s) (h : s'.link = s.link) : Agreed s' := by
  intro l hl
  exact hs l (h ▸ hl)

theorem agreed_of_none {l : Link} (hl : s.link = some l) (h : l.lastSent = none) : Agreed s := by
  intro l' hl'
  obtain rfl := Option.some.inj (hl.symm.trans hl')
  exact .inl h

theorem Agreed.of_same (hs : Agreed s) {l l' : Link} (hl : s.link = some l) (hl' : s'.link = some l')
    (hbase : l'.base = l.base) (hsent : l'.lastSent = l.lastSent) : Agreed s' := by
  intro m hm
  obtain rfl := Option.some.inj (hl'.symm.trans hm)
  rw [hsent, hbase]
  exact hs l hl

theorem Agreed.released (hs : Agreed s)
    (h : s'.link = s.link ∨ ∃ l, s.link = some l ∧ s'.link = some (releasedLink l)) :
    Agreed s' := by
  rcases h with h | ⟨l, -, h⟩
  · exact hs.of_link h
  · exact agreed_of_none h rfl

/-! #### The outbox worker -/

/-- The base of a created event is what was sent, or what was asked for, and then nothing counts
as sent. -/
theorem agreed_createdLink {r : Remote} {conflict : Bool} {sent requested : Snapshot}
    {current : Option Snapshot}
    (h : s.link = some (createdLink r conflict sent requested current)) : Agreed s := by
  intro l hl
  obtain rfl := Option.some.inj (h.symm.trans hl)
  by_cases hsent : sent = requested
  · exact .inr (by simp [createdLink, hsent])
  · exact .inl (by simp [createdLink, hsent])

variable {t : Ticket} {version : Option String} {instanceId : String}

section

variable (hs : Agreed s)
include hs

theorem agreed_commitCreated {r : Remote}
    (h : commitCreated x now t r s = some (s', outcome)) : Agreed s' := by
  rcases commitCreated_cases h with
    ⟨rfl, -⟩ | ⟨o, sent, requested, current, -, -, -, -, -, -, -,
      ⟨-, -, -, rfl⟩ | ⟨-, u, hu, rfl⟩⟩
  · exact hs
  · exact agreed_createdLink rfl
  · have hlink : (finalizeDisconnected u).1.link =
        some (createdLink r false sent requested current) := by
      rw [finalizeDisconnected_link, (outboxOnly_followup now hu).link]
      rfl
    exact agreed_createdLink hlink

theorem agreed_commitSent {fields : Option Sent}
    (h : commitSent x now t version fields s = some (s', outcome)) : Agreed s' := by
  rcases commitSent_cases h with ⟨rfl, -⟩ | ⟨o, l, sent, current, u, -, -, -, -, -, -, hu, rfl⟩
  · exact hs
  · intro m hm
    rw [finalizeDisconnected_link, (outboxOnly_followup now hu).link] at hm
    obtain rfl := Option.some.inj hm
    cases sent with
    | none => exact .inl rfl
    | some sent => exact .inr rfl

theorem agreed_commitScrubbed {deleted : Bool}
    (h : commitScrubbed x now t version deleted s = some (s', outcome)) : Agreed s' := by
  rcases commitScrubbed_cases h with rfl | ⟨o, l, v, r, -, -, -, -, hr, rfl⟩
  · exact hs
  · refine agreed_of_none (l := { releasedLink l with version := v }) ?_ rfl
    rw [finalizeDisconnected_link, (outboxOnly_createAfterScrub x now hr).link]
    rfl

theorem agreed_abandonCleanup (h : abandonCleanup now t s = some (s', outcome)) : Agreed s' := by
  rcases abandonCleanup_cases h with
    rfl | ⟨o, -, -, -, ⟨-, rfl⟩ | ⟨-, -, rfl⟩ | ⟨-, l, -, rfl⟩⟩
  · exact hs
  · exact hs.released (releaseLink_link _)
  · exact hs.of_link rfl
  · exact agreed_of_none (l := releasedLink l) rfl rfl

/-! #### Observations -/

theorem agreed_markRefusal {code : String} {clear : Bool}
    (h : markRefusal now proof instanceId version code clear s = (s', outcome)) : Agreed s' := by
  rcases markRefusal_cases h with rfl | ⟨l, hl, -, ⟨-, rfl⟩ | ⟨-, rfl⟩ | ⟨-, rfl⟩⟩
  · exact hs
  · exact hs.of_same hl (clearDue_link _ _) rfl rfl
  · exact hs.of_same hl rfl rfl rfl
  · exact agreed_of_none (l := refusedLink l version code) (clearDue_link _ _) rfl

theorem agreed_markEventRemoved
    (h : markEventRemoved x now proof instanceId version s = some (s', outcome)) : Agreed s' := by
  rcases markEventRemoved_cases h with rfl | ⟨l, hl, -, ⟨-, r, hr, rfl⟩ | ⟨-, h⟩⟩
  · exact hs
  · refine agreed_of_none (l := { releasedLink l with version := none }) ?_ rfl
    rw [finalizeDisconnected_link, (outboxOnly_createAfterScrub x now hr).link]
    rfl
  · rcases removeEvent_cases h with rfl | ⟨-, rfl⟩ | ⟨-, rfl⟩ | ⟨-, rfl⟩
    · exact hs
    · exact hs.of_same hl rfl rfl rfl
    · exact hs.of_same hl rfl rfl rfl
    · exact agreed_of_none (l := removedLink l version) (clearDue_link _ _) rfl

theorem agreed_markConflict {worker generation : ℕ} {ours theirs : Snapshot}
    (h : markConflict now worker generation version ours theirs s = (s', outcome)) : Agreed s' := by
  rcases markConflict_cases h with rfl | ⟨l, hl, -, ⟨-, rfl⟩ | ⟨-, rfl⟩⟩
  · exact hs
  · exact hs.of_same hl rfl rfl rfl
  · exact agreed_of_none (l := conflictLink l version ours theirs) rfl rfl

end

theorem agreed_weigh {l : Link} {ours theirs : Snapshot}
    (h : weigh now proof obs l ours theirs s = some (s', outcome)) : Agreed s' := by
  rcases weigh_cases h with ⟨b, rfl⟩ | ⟨b, rfl⟩ | ⟨u, -, -, rfl⟩ | rfl
  · exact agreed_of_none (l := settledLink l obs.version b) rfl rfl
  · exact agreed_of_none (l := settledLink l obs.version b)
      (outboxOnly_enqueuePush now proof obs.version ours _).link rfl
  · exact agreed_of_none (l := settledLink l obs.version theirs) rfl rfl
  · exact agreed_of_none (l := conflictLink l obs.version ours theirs) rfl rfl

section

variable (hs : Agreed s)
include hs

theorem agreed_applyProviderSnapshot
    (h : applyProviderSnapshot x now proof obs s = some (s', outcome)) : Agreed s' := by
  rcases applyProviderSnapshot_cases h with
    rfl | ⟨l, -, -, -, -, ⟨-, rfl⟩ | ⟨-, code, h⟩ | ⟨-, -, ours, theirs, -, -, h⟩⟩
  · exact hs
  · exact hs.of_link (outboxOnly_enqueueUnwanted now _ obs.version s).link
  · exact agreed_markRefusal hs h
  rcases h with ⟨-, h⟩ | ⟨-, o, -, h⟩ | ⟨-, -, u, -, rfl⟩
  · rcases recoverWrite_cases h with rfl | ⟨snapshot, -, h⟩
    · exact agreed_of_none (l := settledLink l obs.version theirs) rfl rfl
    · exact agreed_of_none (l := settledLink l obs.version theirs)
        (Rows.outboxOnly_insertLive h).link rfl
  · exact agreed_weigh h
  · exact agreed_of_none (l := settledLink l obs.version theirs) rfl rfl

/-! #### The member -/

theorem agreed_observeCondition {expected : Option Snapshot} {expectedVersion : Option String}
    {refusal : Option (String × String)}
    (h : observeCondition x instanceId expected expectedVersion refusal s = some (s', outcome)) :
    Agreed s' := by
  rcases observeCondition_cases h with rfl | ⟨l, version, code, removed, hl, -, -, -, rfl⟩
  · exact hs
  · exact hs.of_same hl rfl rfl rfl

theorem agreed_resolveConflict {resolution : Resolution} {expected : Option Snapshot}
    {reading : Fresh}
    (h : resolveConflict x now resolution expected reading s = some (s', outcome)) : Agreed s' := by
  rcases resolveConflict_cases h with rfl | ⟨l, hl, -, -, -, ⟨-, h⟩ | ⟨-, h⟩⟩
  · exact hs
  · rcases resolveUseApp_cases h with rfl | ⟨-, snapshot, -, ⟨-, rfl⟩ | ⟨-, rfl⟩⟩
    · exact hs
    · exact agreed_of_none (l := settledLink l l.version l.base)
        (outboxOnly_replaceLive now _ _ _ _).link rfl
    · exact agreed_of_none (l := settledLink l l.version l.base)
        (outboxOnly_replaceLive now _ _ _ _).link rfl
  · rcases resolveUseCalendar_cases h with rfl | ⟨code, -, rfl⟩ | ⟨task, base, -, rfl⟩
    · exact hs
    · exact hs.of_same hl rfl rfl rfl
    · exact agreed_of_none (l := settledLink l reading.version base) rfl rfl

theorem agreed_editTask {task : Task}
    (h : editTask x now task s = some (s', outcome)) : Agreed s' :=
  hs.of_link (editTask_link h)

theorem agreed_resolveEventRemoved {answer : Answer}
    (h : resolveEventRemoved x now answer s = some (s', outcome)) : Agreed s' := by
  rcases resolveEventRemoved_cases h with
    rfl | ⟨l, hl, -, -, rfl | ⟨due, r, snapshot, -, -, -, -, hr, -, rfl⟩⟩
  · exact hs
  · exact hs.of_same hl rfl rfl rfl
  · exact (agreed_editTask hs hr).of_link (outboxOnly_replaceLive now _ _ _ _).link

/-- **What one move does to what was sent last.** -/
theorem perform_agreed {m : Move} (h : perform x now m s = some (s', outcome)) : Agreed s' := by
  cases m with
  | editTask task => exact agreed_editTask hs h
  | changeAccess allowed =>
    have hlink := reconcileNumberAccess_link x now (changeAccess_cases h)
    exact hs.released hlink
  | deactivateMember =>
    obtain ⟨u, hu, rfl⟩ := deactivateMember_cases h
    have hlink := reconcileNumberAccess_link x now hu
    have hu : Agreed u := hs.released hlink
    exact hu.of_link (beginConnectionDisconnect_link now .scrub u)
  | closeCompany =>
    obtain rfl := left_eq h
    exact hs.of_link (beginConnectionDisconnect_link now .scrub _)
  | revokeConnection renewing =>
    rcases revokeConnection_cases h with rfl | ⟨-, rfl⟩
    · exact hs
    · exact hs.of_link (beginConnectionDisconnect_link now .unlink s)
  | rejectCredential =>
    rcases rejectCredential_cases h with rfl | ⟨-, rfl⟩ | ⟨-, rfl⟩
    · exact hs
    · exact hs.released (releaseLink_link _)
    · exact hs.of_link rfl
  | commitWebhookRevocation =>
    obtain rfl := left_eq h
    exact hs.of_link (finalizeDisconnected_link _)
  | commitCreated ticket remote => exact agreed_commitCreated hs h
  | commitSent ticket version fields => exact agreed_commitSent hs h
  | commitScrubbed ticket version deleted => exact agreed_commitScrubbed hs h
  | abandonCleanup ticket => exact agreed_abandonCleanup hs h
  | apply proof observation => exact agreed_applyProviderSnapshot hs h
  | markEventRemoved proof instanceId version => exact agreed_markEventRemoved hs h
  | markRefusal proof instanceId version code clear =>
    exact agreed_markRefusal hs (Option.some.inj h)
  | markConflict worker generation version ours theirs =>
    exact agreed_markConflict hs (Option.some.inj h)
  | observeCondition instanceId expected expectedVersion refusal =>
    exact agreed_observeCondition hs h
  | resolveConflict resolution expected reading => exact agreed_resolveConflict hs h
  | resolveEventRemoved answer => exact agreed_resolveEventRemoved hs h
  | completeConnection | renewCredential | claimPull | renewPull | endPull | claim | markEffectStarted | retry
  | cancel => exact hs.of_link (perform_frame rfl h).1

end

theorem step_of_perform {P : Rows → Prop} {s : Rows} {i : ℤ × Move} (hs : P s)
    (h : ∀ s' outcome, perform x i.1 i.2 s = some (s', outcome) → P s') : P (step x s i).1 := by
  unfold step
  split
  · exact hs
  · next s' outcome hp => exact h s' outcome hp

end

/-- **What was sent last is the common base, or nothing**, after any moves. -/
theorem lastSent_of_run (task : Task) (userId : ℕ) (timezone : String) (access : Bool)
    (moves : List (ℤ × Move)) :
    Agreed (Reactive.final (step x) (fresh task userId timezone access) moves) := by
  refine Reactive.final_of_inv (step x) ?_ ?_ moves
  · intro s i hs
    exact step_of_perform hs fun _ _ h => perform_agreed hs h
  · intro l hl
    simp [fresh] at hl

/-! ### How a connection is cleaned up -/

def CleanupKnown (s : Rows) : Prop :=
  ∀ a, s.connection.cleanup = some a → a = .unlink ∨ a = .scrub

section
variable {x} {now : ℤ} {s s' : Rows} {outcome : Outcome}

theorem CleanupKnown.of_cleanup (hs : CleanupKnown s)
    (h : s'.connection.cleanup = s.connection.cleanup) : CleanupKnown s' := by
  intro a ha
  exact hs a (h ▸ ha)

theorem cleanupKnown_of_none (h : s.connection.cleanup = none) : CleanupKnown s := by
  intro a ha
  rw [h] at ha
  cases ha

section

variable (hs : CleanupKnown s)
include hs

theorem CleanupKnown.finalized : CleanupKnown (finalizeDisconnected s).1 := by
  rcases finalizeDisconnected_cleanup s with h | h
  · exact hs.of_cleanup h
  · exact cleanupKnown_of_none h

theorem CleanupKnown.disconnected (cleanup : Action) :
    CleanupKnown (beginConnectionDisconnect now cleanup s).1 := by
  rcases beginConnectionDisconnect_cleanup now cleanup s with h | h
  · exact hs.of_cleanup h
  · exact h

theorem CleanupKnown.of_connection (h : s'.connection = s.connection) :
    CleanupKnown s' := hs.of_cleanup (by rw [h])

theorem cleanupKnown_applyProviderSnapshot
    (h : applyProviderSnapshot x now proof obs s = some (s', outcome)) :
    CleanupKnown s' := hs.of_connection (applyProviderSnapshot_sameMember h).connection

theorem perform_cleanupKnown {m : Move}
    (h : perform x now m s = some (s', outcome)) : CleanupKnown s' := by
  cases m with
  | editTask task => exact hs.of_connection (editTask_sameMember h).connection
  | changeAccess allowed =>
    have hconn := reconcileNumberAccess_connection x now (changeAccess_cases h)
    exact hs.of_connection hconn
  | deactivateMember =>
    obtain ⟨u, hu, rfl⟩ := deactivateMember_cases h
    have hconn := reconcileNumberAccess_connection x now hu
    exact CleanupKnown.disconnected (hs.of_cleanup (by rw [hconn])) .scrub
  | closeCompany =>
    obtain rfl := left_eq h
    have hs : CleanupKnown
        { s with connection := { s.connection with working := false } } := hs
    exact hs.disconnected .scrub
  | revokeConnection renewing =>
    rcases revokeConnection_cases h with rfl | ⟨-, rfl⟩
    · exact hs
    · exact hs.disconnected .unlink
  | rejectCredential =>
    rcases rejectCredential_cases h with rfl | ⟨-, rfl⟩ | ⟨-, rfl⟩
    · exact hs
    · exact cleanupKnown_of_none (by rw [releaseLink_connection])
    · exact hs.of_cleanup rfl
  | commitWebhookRevocation =>
    obtain rfl := left_eq h
    exact CleanupKnown.finalized (hs.of_cleanup rfl)
  | commitCreated ticket remote =>
    rcases commitCreated_cases h with
      ⟨rfl, -⟩ | ⟨o, sent, requested, current, -, -, -, -, -, -, -,
        ⟨-, -, -, rfl⟩ | ⟨-, u, hu, rfl⟩⟩
    · exact hs
    · exact hs.of_cleanup rfl
    · exact (hs.of_connection (outboxOnly_followup now hu).connection).finalized
  | commitSent ticket version fields =>
    rcases commitSent_cases h with ⟨rfl, -⟩ | ⟨o, l, sent, current, u, -, -, -, -, -, -, hu, rfl⟩
    · exact hs
    · exact (hs.of_connection (outboxOnly_followup now hu).connection).finalized
  | commitScrubbed ticket version deleted =>
    rcases commitScrubbed_cases h with rfl | ⟨o, l, v, r, -, -, -, -, hr, rfl⟩
    · exact hs
    · exact (hs.of_connection (outboxOnly_createAfterScrub x now hr).connection).finalized
  | abandonCleanup ticket =>
    rcases abandonCleanup_cases h with
      rfl | ⟨o, -, -, -, ⟨-, rfl⟩ | ⟨-, -, rfl⟩ | ⟨-, l, -, rfl⟩⟩
    · exact hs
    · exact cleanupKnown_of_none (by rw [releaseLink_connection])
    · exact hs.of_cleanup rfl
    · exact hs.of_cleanup rfl
  | apply proof observation => exact cleanupKnown_applyProviderSnapshot hs h
  | markEventRemoved proof instanceId version =>
    rcases markEventRemoved_cases h with rfl | ⟨l, -, -, ⟨-, r, hr, rfl⟩ | ⟨-, h⟩⟩
    · exact hs
    · exact (hs.of_connection (outboxOnly_createAfterScrub x now hr).connection).finalized
    · exact hs.of_connection (removeEvent_sameMember h).connection
  | markRefusal proof instanceId version code clear =>
    exact hs.of_connection (markRefusal_sameMember (Option.some.inj h)).connection
  | markConflict worker generation version ours theirs =>
    exact hs.of_connection (markConflict_sameMember (Option.some.inj h)).connection
  | observeCondition instanceId expected expectedVersion refusal =>
    exact hs.of_connection (observeCondition_sameMember h).connection
  | resolveConflict resolution expected reading =>
    exact hs.of_connection (resolveConflict_sameMember h).connection
  | resolveEventRemoved answer =>
    exact hs.of_connection (resolveEventRemoved_sameMember h).connection
  | completeConnection | renewCredential | claimPull | renewPull | endPull | claim | markEffectStarted | retry
  | cancel => exact hs.of_cleanup (perform_frame rfl h).2

end

end

/-! ### A task that has got its event -/

/-- Texts that are their own normal form, and their own hash. -/
def plain : Text := ⟨id, id⟩

def visit : Task where
  title := "Gutter repair"
  description := "Side gate"
  dueAt := some hour
  assignedUserId := some 1
  deleted := false

def created : Remote where
  eventId := "event"
  instanceId := "event"
  seriesId := none
  version := some "v1"
  start := hour
  endAt := 2 * hour
  zone := "UTC"
  title := "Gutter repair"
  description := "Side gate"

/-- A pull is claimed, which queues the create; the outbox worker takes it to the provider. -/
def mapped : List (ℤ × Move) :=
  [(0, .claimPull 1 300), (1, .claim 7 300), (2, .markEffectStarted ⟨7, 1, 1⟩),
    (3, .commitCreated ⟨7, 1, 1⟩ created)]

/-- The rows of a visit, after moves that follow the creation of its event. -/
def after (moves : List (ℤ × Move)) : Rows :=
  Reactive.final (step plain) (fresh visit 1 "UTC" true) (mapped ++ moves)

end CalendarRuns
