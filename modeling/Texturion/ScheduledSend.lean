/-
**The scheduled-send job.**

`apps/api/src/messaging/scheduled-send.ts`: a run of the job expires what has run out of horizon,
claims what is due, and then takes the claimed rows one after the other, reading what the gates need
and firing, holding or failing the row.  A claim is only a lease, so two runs may hold one row; a
run may die between any two of its calls, and a call may be carried out without its answer being
heard.  Members edit (`apps/api/src/routes/scheduled-messages.ts`) and cancel meanwhile.

Main result:

* `Scheduled.sent_once` — **at most one message for each row**, and an end is final, in every
  interleaving.
-/

import Texturion.Interleaving
import Texturion.ScheduledMessages

namespace Scheduled

open SqlTable Interleaving

/-! ### Reasons -/

/-- `ScheduledHoldReason`. -/
inductive HoldReason
  | subscriptionInactive
  | workspacePaused
  | registrationPending
  | serviceUnavailable
  | calendarUnverified
  | customerReplied
  | recipientOptedOut
  | invalidDestination
  | expired
  | workspaceClosed
  | jobNoLongerScheduled
  deriving DecidableEq

/-- `SCHEDULED_HOLD_REASONS`. -/
def HoldReason.sentence : HoldReason → String
  | .subscriptionInactive =>
      "Your subscription has lapsed, so this has not been sent. It will go out when billing is " ++
        "sorted."
  | .workspacePaused =>
      "Your plan is paused, so this has not been sent. It will go out when you resume."
  | .registrationPending =>
      "This is waiting on carrier approval for US texting. It will send once that clears."
  | .serviceUnavailable =>
      "Texting is paused while we deal with an issue. This is still queued and nothing was lost."
  | .calendarUnverified =>
      "Calendar sync is disconnected or has not checked in recently, so this reminder is waiting. " ++
        "It will send after sync is verified again."
  | .customerReplied =>
      "They replied after you scheduled this, so we held it rather than talk over them. Send it " ++
        "anyway, or cancel it."
  | .recipientOptedOut =>
      "They replied STOP after you scheduled this, so it was not sent. Only they can undo that."
  | .invalidDestination => "We cannot text this number any more, so this was not sent."
  | .expired =>
      "The send window passed before this could go, so it was not sent. A late message is usually " ++
        "worse than none."
  | .workspaceClosed => "The workspace was closed before this was due to send."
  | .jobNoLongerScheduled => "That job is no longer booked, so this reminder was not sent."

/-- `SCHEDULED_HOLD_REASON_KEYS`. -/
def HoldReason.key : HoldReason → String
  | .subscriptionInactive => "domain.scheduledHoldSubscriptionInactive"
  | .workspacePaused => "domain.scheduledHoldWorkspacePaused"
  | .registrationPending => "domain.scheduledHoldRegistrationPending"
  | .serviceUnavailable => "domain.scheduledHoldServiceUnavailable"
  | .calendarUnverified => "domain.scheduledHoldCalendarUnverified"
  | .customerReplied => "domain.scheduledHoldCustomerReplied"
  | .recipientOptedOut => "domain.scheduledHoldOptedOut"
  | .invalidDestination => "domain.scheduledHoldInvalidDestination"
  | .expired => "domain.scheduledHoldExpired"
  | .workspaceClosed => "domain.scheduledHoldWorkspaceClosed"
  | .jobNoLongerScheduled => "domain.scheduledHoldJobUnscheduled"

/-- `scheduledReasonRecovers`. -/
def HoldReason.recovers : HoldReason → Bool
  | .subscriptionInactive => true
  | .workspacePaused => true
  | .registrationPending => true
  | .serviceUnavailable => true
  | .calendarUnverified => true
  | .customerReplied => true
  | _ => false

/-- The codes of an `ApiError` that `reasonFor` tells apart. -/
inductive GateCode
  | recipientOptedOut
  | subscriptionInactive
  | workspacePaused
  | registrationPending
  | validationFailed
  | other
  deriving DecidableEq

/-- `reasonFor`; `none` is a cause that is not an `ApiError`. -/
def reasonFor : Option GateCode → HoldReason
  | some .recipientOptedOut => .recipientOptedOut
  | some .subscriptionInactive => .subscriptionInactive
  | some .workspacePaused => .workspacePaused
  | some .registrationPending => .registrationPending
  | some .validationFailed => .invalidDestination
  | _ => .serviceUnavailable

/-! ### What the loop reads -/

/-- The conversation with its number, and the newest inbound of the thread. -/
structure ConversationRead where
  contactPhone : Option String
  number : Option (String × Bool)
  newestInbound : Option ℤ
  deriving DecidableEq

structure Destination where
  sender : String
  recipient : String
  newestInbound : Option ℤ
  deriving DecidableEq

/-- `resolveDestination`; a number comes with whether it is released. -/
def resolveDestination (conversation : Option ConversationRead) : Option Destination :=
  match conversation with
  | none => none
  | some c =>
      match c.contactPhone, c.number with
      | some recipient, some (sender, false) =>
          some { sender := sender, recipient := recipient, newestInbound := c.newestInbound }
      | _, _ => none

def customerReplied (row : ScheduledMessage) (destination : Destination) : Bool :=
  match destination.newestInbound, row.inboundWatermark with
  | none, _ => false
  | some _, none => true
  | some newest, some watermark => decide (newest > watermark)

/-- What the read of the task brings. -/
inductive TaskRead
  | error
  | missing
  | found (task : TaskRow)
  deriving DecidableEq

def jobStillBooked (row : ScheduledMessage) (task : TaskRead) : Bool :=
  if row.origin ≠ .reminder ∨ row.taskId.isNone then true
  else
    match task with
    | .error => true
    | .missing => false
    | .found t => !t.gone

structure CalendarLink where
  connectionId : Option Uuid
  active : Bool
  deriving DecidableEq

structure CalendarConnection where
  id : Uuid
  active : Bool
  revokedAt : Option ℤ
  pullLeased : Bool
  lastVerifiedAt : Option ℤ
  syncDueAt : Option ℤ
  deriving DecidableEq

/-- What the three calendar reads bring; `none` is an error. -/
structure CalendarReads where
  outbox : Option ℕ
  links : Option (List CalendarLink)
  connections : Option (List CalendarConnection)
  deriving DecidableEq

def calendarVerificationMaxAgeMs : ℤ := 15 * 60 * 1000

/-- A connection that has proved a recent round trip. -/
def CalendarConnection.verified (now : ℤ) (c : CalendarConnection) : Bool :=
  c.active && c.revokedAt.isNone && !c.pullLeased &&
    c.lastVerifiedAt.any (fun at_ => decide (at_ ≥ now - calendarVerificationMaxAgeMs)) &&
    c.syncDueAt.any fun due => decide (due > now)

def linkedCalendarsVerifiedRecently (row : ScheduledMessage) (now : ℤ) (r : CalendarReads) : Bool :=
  if row.origin ≠ .reminder ∨ row.taskId.isNone then true
  else
    match r.outbox, r.links with
    | some 0, some links =>
        links.all (fun l => l.active && l.connectionId.isSome) &&
          (links.isEmpty ||
            match r.connections with
            | none => false
            | some connections =>
                links.all fun l =>
                  (connections.find? fun c => l.connectionId == some c.id).any
                    (CalendarConnection.verified now))
    | _, _ => false

/-- Everything the loop reads about one row; `gates` is what `runPreSendGates` throws. -/
structure Reads where
  conversation : Option ConversationRead
  task : TaskRead
  calendar : CalendarReads
  gates : Option (Option GateCode)
  deriving DecidableEq

inductive Verdict
  | fire
  | hold (reason : HoldReason)
  | fail (reason : HoldReason)
  deriving DecidableEq

/-- What the loop decides about a row. -/
def verdict (now : ℤ) (row : ScheduledMessage) (r : Reads) : Verdict :=
  match resolveDestination r.conversation with
  | none => .fail .invalidDestination
  | some destination =>
      if customerReplied row destination then .hold .customerReplied
      else if ¬jobStillBooked row r.task then .fail .jobNoLongerScheduled
      else if ¬linkedCalendarsVerifiedRecently row now r.calendar then .hold .calendarUnverified
      else
        match r.gates with
        | none => .fire
        | some cause =>
            if (reasonFor cause).recovers then .hold (reasonFor cause) else .fail (reasonFor cause)

/-! ### The handlers -/

/-- `SCAN_LIMIT` and `LEASE_SECONDS`. -/
def scanLimit : ℕ := 100
def leaseSeconds : ℤ := 300

/-- A run of the job at its trigger's time, or a member's edit. -/
inductive Request
  | job (now : ℤ)
  | patch (now : ℤ) (id companyId : Uuid) (patch : Patch)
  deriving DecidableEq

/-- Where a handler is. -/
inductive Point
  | expiring (now : ℤ)
  | claiming (now : ℤ)
  | gating (now : ℤ) (due : List ScheduledMessage)
  | acting (now : ℤ) (row : ScheduledMessage) (verdict : Verdict) (due : List ScheduledMessage)
  | looking (now : ℤ) (id companyId : Uuid) (patch : Patch)
  | patching (id companyId : Uuid) (patch : Patch)
  deriving DecidableEq

/-- What a handler finds: the reads of a row, or what became of a call.  A call that is `unheard`
was carried out, and looks like a failure. -/
inductive Find
  | reads (r : Reads)
  | failed
  | done (facts : FireFacts)
  | unheard (facts : FireFacts)
  deriving DecidableEq

/-- A row that was turned into a message: the row as it was, the time of the run, and the instant
at which it went. -/
structure Departure where
  row : ScheduledMessage
  run : ℤ
  instant : ℤ
  deriving DecidableEq

section

variable (estimateSegments : String → ℕ)

/-- The SQL call a verdict leads to. -/
def act (row : ScheduledMessage) (v : Verdict) (facts : FireFacts) (s : Store) : Store :=
  match v with
  | .fire => (fire row.id (max 1 (estimateSegments row.body)) facts s).1
  | .hold reason => hold facts.now row.id reason.sentence reason.key s
  | .fail reason => fail row.id reason.sentence reason.key s

/-- What leaves when the call of a verdict is carried out. -/
def departures (now : ℤ) (row : ScheduledMessage) (v : Verdict) (facts : FireFacts) (s : Store) :
    List Departure :=
  match v, s.table.find? (ScheduledMessage.isLive row.id),
      (fire row.id (max 1 (estimateSegments row.body)) facts s).2 with
  | .fire, some r, .fired _ => [{ row := r, run := now, instant := facts.now }]
  | _, _, _ => []

/-- One step of a handler. -/
def advance (s : Store) : Point → Find → Store × Option Point × List Departure
  | .expiring now, .done _ => ((expire now scanLimit s).1, some (.claiming now), [])
  | .expiring now, .unheard _ => ((expire now scanLimit s).1, none, [])
  | .expiring _, _ => (s, none, [])
  | .claiming now, .done _ =>
      ((claimDue now scanLimit leaseSeconds s).1,
        some (.gating now (claimDue now scanLimit leaseSeconds s).2), [])
  | .claiming now, .unheard _ => ((claimDue now scanLimit leaseSeconds s).1, none, [])
  | .claiming _, _ => (s, none, [])
  | .gating _ [], _ => (s, none, [])
  | .gating now (row :: due), .reads r => (s, some (.acting now row (verdict now row r) due), [])
  -- Whatever is thrown while a row is worked on is collected, and the next row is taken.
  | .gating now (_ :: due), _ => (s, some (.gating now due), [])
  | .acting now row v due, .done facts =>
      (act estimateSegments row v facts s, some (.gating now due),
        departures estimateSegments now row v facts s)
  | .acting now row v due, .unheard facts =>
      (act estimateSegments row v facts s, some (.gating now due),
        departures estimateSegments now row v facts s)
  | .acting now _ _ due, _ => (s, some (.gating now due), [])
  | .looking now id companyId patch, .done _ =>
      match s.table.find? fun r => r.id == id && r.companyId == companyId with
      | none => (s, none, [])
      | some r =>
          if r.status.live ∧ patch.sendAt.all (fun sendAt => decide (now < sendAt)) then
            (s, some (.patching id companyId patch), [])
          else (s, none, [])
  | .looking _ _ _ _, _ => (s, none, [])
  | .patching id companyId patch, .done _ => (edit id companyId patch s, none, [])
  | .patching id companyId patch, .unheard _ => (edit id companyId patch s, none, [])
  | .patching _ _ _, _ => (s, none, [])

end

/-- What happens to the tables outside the two handlers: every call of another function. -/
inductive Deed
  | schedule (now : ℤ) (q : ScheduleRequest)
  | cancel (now : ℤ) (id companyId userId : Uuid)
  | cancelForCompany (now : ℤ) (companyId : Uuid) (reason : String)
  | syncTaskReminders (now : ℤ) (q : SyncRequest)
  | dueMoved (now : ℤ) (companyId taskId : Uuid)
  | clearReminders (companyId taskId : Uuid)
  | askRating (companyId conversationId taskId userId rowId : Uuid) (body : String)
      (sendAt expiresAt : ℤ)
  deriving DecidableEq

def Deed.apply (s : Store) : Deed → Store
  | .schedule now q => (Scheduled.schedule now q s).1
  | .cancel now id companyId userId => Scheduled.cancel now id companyId userId s
  | .cancelForCompany now companyId reason => Scheduled.cancelForCompany now companyId reason s
  | .syncTaskReminders now q => Scheduled.syncTaskReminders now q s
  | .dueMoved now companyId taskId => Scheduled.dueMoved now companyId taskId s
  | .clearReminders companyId taskId => Scheduled.clearReminders companyId taskId s
  | .askRating companyId conversationId taskId userId rowId body sendAt expiresAt =>
      Scheduled.askRating companyId conversationId taskId userId rowId body sendAt expiresAt s

/-- The job and the edit, with everybody else. -/
def job (estimateSegments : String → ℕ) :
    System Store Request Point Find Deed Departure where
  enter
    | .job now => .expiring now
    | .patch now id companyId patch => .looking now id companyId patch
  advance := advance estimateSegments
  world s deed := (deed.apply s, [])

/-- The tables before anything was scheduled. -/
def Store.empty : Store := { table := [], messages := [] }

/-! ### At most one message -/

section

variable (estimateSegments : String → ℕ)

theorem act_moves (row : ScheduledMessage) (v : Verdict) (facts : FireFacts) (s : Store) :
    Moves s (act estimateSegments row v facts s) := by
  cases v with
  | fire => exact fire_move _ _ _ _
  | hold reason => exact .single (hold_move _ _ _ _ _)
  | fail reason => exact .single (fail_move _ _ _ _)

/-- What working on a row writes leaves its identity, its time and its horizon alone. -/
structure KeepsPlan (f : ScheduledMessage → ScheduledMessage) : Prop where
  id : ∀ r, (f r).id = r.id
  sendAt : ∀ r, (f r).sendAt = r.sendAt
  expiresAt : ∀ r, (f r).expiresAt = r.expiresAt

theorem keepsPlan_holding (now : ℤ) (reason reasonKey : String) :
    KeepsPlan (ScheduledMessage.holding now reason reasonKey) :=
  ⟨fun _ => rfl, fun _ => rfl, fun _ => rfl⟩

theorem keepsPlan_failing (reason reasonKey : String) :
    KeepsPlan (ScheduledMessage.failing reason reasonKey) :=
  ⟨fun _ => rfl, fun _ => rfl, fun _ => rfl⟩

theorem keepsPlan_firing (messageId : Uuid) : KeepsPlan (ScheduledMessage.firing messageId) :=
  ⟨fun _ => rfl, fun _ => rfl, fun _ => rfl⟩

theorem act_table (row : ScheduledMessage) (v : Verdict) (facts : FireFacts) (s : Store) :
    ∃ f, KeepsPlan f ∧ (act estimateSegments row v facts s).table =
      update (ScheduledMessage.isLive row.id) f s.table := by
  cases v with
  | hold reason => exact ⟨_, keepsPlan_holding _ _ _, rfl⟩
  | fail reason => exact ⟨_, keepsPlan_failing _ _, rfl⟩
  | fire =>
      unfold act fire
      cases s.table.find? (ScheduledMessage.isLive row.id) with
      | none => exact ⟨id, ⟨fun _ => rfl, fun _ => rfl, fun _ => rfl⟩, (update_id _ _).symm⟩
      | some r =>
          simp only
          split_ifs
          · exact ⟨_, keepsPlan_failing _ _, rfl⟩
          · exact ⟨_, keepsPlan_holding _ _ _, rfl⟩
          · exact ⟨_, keepsPlan_firing _, rfl⟩

theorem advance_moves (s : Store) (p : Point) (x : Find) :
    Moves s (advance estimateSegments s p x).1 := by
  fun_cases advance
  all_goals first
    | exact .refl
    | exact .single (expire_move _ _ _)
    | exact .single (claimDue_move _ _ _ _)
    | exact act_moves _ _ _ _ _
    | exact .single (edit_move _ _ _ _)

theorem Deed.moves (s : Store) (deed : Deed) : Moves s (deed.apply s) := by
  cases deed with
  | schedule now q => exact schedule_move now q s
  | cancel => exact .single (cancel_move _ _ _ _ _)
  | cancelForCompany => exact .single (cancelForCompany_move _ _ _ _)
  | syncTaskReminders now q => exact syncTaskReminders_moves now q s
  | dueMoved => exact .single (dueMoved_move _ _ _ _)
  | clearReminders => exact .single (clearReminders_move _ _ _)
  | askRating => exact .single (askRating_move _ _ _ _ _ _ _ _ _)

theorem final_moves (s : State Store Point) (is : List (Input Request Find Deed)) :
    Moves s.store (Reactive.final (step (job estimateSegments)) s is).store :=
  final_store (job estimateSegments) (fun _ => .refl) (fun _ _ _ => .trans)
    (advance_moves estimateSegments) Deed.moves s is

theorem wellFormed_empty : WellFormed Store.empty :=
  ⟨List.nodup_nil, List.nodup_nil, fun id => by simp [Store.empty]⟩

/-- **A scheduled message is sent at most once, and its end is final**: after any run, every row has
at most one message and is `sent` exactly when it has one; and a row that has ended is never touched
again, so that one that ended otherwise than `sent` never gets a message. -/
theorem sent_once (before after : List (Input Request Find Deed)) :
    let start : State Store Point := { store := Store.empty, running := [] }
    let s := (Reactive.final (step (job estimateSegments)) start before).store
    let t := (Reactive.final (step (job estimateSegments)) start (before ++ after)).store
    (∀ id, t.messages.countP (fun m => m.firedFrom == id) ≤ 1) ∧
      (∀ r ∈ t.table, r.status = .sent ↔ ∃ m ∈ t.messages, m.firedFrom = r.id) ∧
      (∀ r ∈ s.table, r.status.live = false → ∃ r' ∈ t.table, r'.id = r.id ∧ r'.status = r.status) ∧
      ∀ r ∈ s.table, r.status = .canceled ∨ r.status = .expired ∨ r.status = .failed →
        ∀ m ∈ t.messages, m.firedFrom ≠ r.id := by
  intro start s t
  have hs : Moves start.store s := final_moves estimateSegments start before
  have hst : Moves s t := by
    have hlater := final_moves estimateSegments
      (Reactive.final (step (job estimateSegments)) start before) after
    rwa [← Reactive.final_append] at hlater
  have ht : WellFormed t := Moves.wellFormed (hs.trans hst) wellFormed_empty
  refine ⟨fun id => ?_, fun r hr => ?_, fun r hr hend => ?_, fun r hr hend m hm hfrom => ?_⟩
  · have hcount : (t.messages.map (·.firedFrom)).count id ≤ 1 :=
      List.nodup_iff_count_le_one.1 ht.froms id
    rwa [List.count_eq_countP, List.countP_map] at hcount
  · constructor
    · intro hsent
      exact (ht.sent r.id).2 ⟨r, hr, rfl, hsent⟩
    · intro hmessage
      obtain ⟨r', hr', hid, hsent⟩ := (ht.sent r.id).1 hmessage
      rw [← ht.eq_of_id hr' hr hid]
      exact hsent
  · exact ⟨r, hst.ended hr hend, rfl, rfl⟩
  · -- The row is still there in the end it came to, and a row with a message is `sent`.
    have hnotlive : r.status.live = false := by
      rcases hend with h | h | h <;> rw [h] <;> rfl
    have hr' := hst.ended hr hnotlive
    obtain ⟨r', hr'', hid, hsent⟩ := (ht.sent r.id).1 ⟨m, hm, hfrom⟩
    rw [ht.eq_of_id hr'' hr' hid] at hsent
    rcases hend with h | h | h <;> rw [h] at hsent <;> exact absurd hsent (by decide)

end

end Scheduled
