/-
**A pull of the provider's changes, one page after another.**

`processPull` of `apps/api/src/calendar/worker.ts` asks the provider for the pages of a listing,
reads every event that is linked to a task, has the database apply what it read, and commits the
cursor of the last page.  Where the provider rejects the cursor, the listing starts again over the
whole window; and after a listing of the whole window every linked event that was not on it is read
on its own, since an event that is gone is on no page.

Everything outside is asked: the leases, the pages, the events, the tables at the moment of each
query, the outcome of each change.  What is answered is any sequence whatever.

Main result:

* `CalendarPull.commit_accounts` — **what a committed cursor accounts for**.
-/

import Texturion.CallTrace
import Texturion.CalendarSync
import Mathlib.Data.List.Sort

namespace CalendarPull

open CallTrace CalendarSync

/-! ### What is read and written -/

/-- A row of `task_calendar_links`, as the worker reads it. -/
structure CalendarLinkRow where
  id : ℕ
  companyId : ℕ
  connectionId : ℕ
  taskId : ℕ
  providerEventId : String
  providerInstanceId : String
  providerSeriesId : Option String
  providerVersion : Option String
  linkState : LinkState
  deriving DecidableEq

/-- A row of `calendar_connections`, as it was claimed. -/
structure CalendarConnectionRow where
  id : ℕ
  companyId : ℕ
  userId : ℕ
  syncCursor : Option String
  pullFullSync : Bool
  pullGeneration : ℕ
  deriving DecidableEq

inductive DescriptionFormat
  | text
  | html
  deriving DecidableEq

structure CalendarRemoteEvent where
  instanceId : String
  version : Option String
  inbound : Inbound
  description : String
  descriptionFormat : DescriptionFormat
  hasAttendees : Bool
  hasOnlineMeeting : Bool
  organizerEmail : Option String
  organizerIsConnectedAccount : Bool
  webUrl : Option String
  deriving DecidableEq

structure CalendarChangeNotice where
  instanceId : String
  version : Option String
  removed : Bool
  deriving DecidableEq

structure CalendarChangePage where
  events : List CalendarChangeNotice
  nextPageToken : Option String
  nextCursor : Option String
  deriving DecidableEq

/-- The request for one page; the window goes along when there is no cursor. -/
structure ListRequest where
  cursor : Option String
  pageToken : Option String
  window : Bool
  deriving DecidableEq

/-- A text that counts as true: given, and not empty. -/
def truthy (s : Option String) : Bool := s.any (· ≠ "")

inductive CalendarProviderErrorKind
  | reauth
  | retry
  | precondition
  | fullResync
  | notFound
  | invalidEvent
  | response
  deriving DecidableEq

/-- The errors a pull ends with. -/
inductive Failure
  | provider (kind : CalendarProviderErrorKind)
  | leaseEnded (operation outcome : String)
  | rejected (operation outcome : String)
  | pageLimit
  | other (message : String)
  deriving DecidableEq

/-- The calls of a pull.  A query of the links is answered with the rows of the table. -/
inductive Call
  | authorize
  | renewPullLease (generation leaseSeconds : ℕ)
  | listChanges (request : ListRequest)
  | readLink (instanceId : String)
  | readLinks (afterId : Option ℕ)
  | getEvent (instanceId : String)
  | applyProviderEvent (link : CalendarLinkRow) (remote : CalendarRemoteEvent)
  | markEventRemoved (link : CalendarLinkRow) (remote : CalendarRemoteEvent)
  | markRefused (link : CalendarLinkRow) (remote : CalendarRemoteEvent) (code detail : String)
  | refreshTaskReminders (companyId taskId userId : ℕ)
  | commitPull (generation : ℕ) (cursor : Option String)
  deriving DecidableEq

/-- What each call is answered with, where it does not fail: a mutation with its outcome. -/
abbrev Reply : Call → Type
  | .authorize => Unit
  | .listChanges _ => CalendarChangePage
  | .readLink _ => List CalendarLinkRow
  | .readLinks _ => List CalendarLinkRow
  | .getEvent _ => CalendarRemoteEvent
  | .refreshTaskReminders .. => Unit
  | _ => String

abbrev Pull := Prog Failure Reply

abbrev Entry := Event Failure Reply

def ask (q : Call) : Pull (Reply q) := call q

def tryAsk (q : Call) : Pull (Except Failure (Reply q)) := attempt q

/-! ### One observation -/

def LEASE_SECONDS : ℕ := 120

def MAX_PROVIDER_PAGES : ℕ := 100

def LINK_VERIFICATION_PAGE_SIZE : ℕ := 500

def expectMutationOutcome (operation outcome : String) (accepted : List String) : Pull Unit :=
  if outcome = "lease_lost" ∨ outcome = "superseded" then fail (.leaseEnded operation outcome)
  else if outcome ∈ accepted then pure ()
  else fail (.rejected operation outcome)

/-- The outcomes of `api_apply_calendar_provider_snapshot` that are accepted. -/
def APPLIED : List String :=
  ["echo", "push_queued", "provider_applied", "local_unscheduled", "converged", "conflict",
    "unlink_queued", "scrub_queued", "refused"]

/-- Those after which the reminders are planned again. -/
def REPLANNED : List String := ["echo", "push_queued", "provider_applied", "converged"]

section
variable (connection : CalendarConnectionRow) (link : CalendarLinkRow)
  (remote : CalendarRemoteEvent)

/-- The branches that refuse what was observed differ in their texts. -/
def applyRefusal (operation code detail : String) : Pull Unit := do
  let outcome : String ← ask (.markRefused link remote code detail)
  expectMutationOutcome operation outcome ["refused"]

def titleReason : TitleReason → String
  | .empty => "empty"
  | .tooLong => "too_long"

def timeReason : TimeReason → String
  | .invalidTime => "invalid_time"
  | .invalidRange => "invalid_range"

/-- `applyInbound`, without an outbox row. -/
def applyInbound : Pull Unit :=
  match remote.inbound with
  | .scheduled _ => do
      let outcome : String ← ask (.applyProviderEvent link remote)
      expectMutationOutcome "apply calendar provider event" outcome APPLIED
      -- the rows deleted by an earlier apply may have their first chance now
      if outcome ∈ REPLANNED then
        ask (.refreshTaskReminders connection.companyId link.taskId connection.userId)
      else pure ()
  | .removed => do
      let outcome : String ← ask (.markEventRemoved link remote)
      expectMutationOutcome "mark calendar event removed" outcome ["event_removed"]
  | .allDay => applyRefusal link remote "mark all-day calendar refusal" "all_day"
      "Provider event has no honest start instant"
  | .zoneRefused zone => applyRefusal link remote "mark calendar time-zone refusal"
      "unknown_time_zone" zone
  | .titleRefused reason => applyRefusal link remote "mark calendar title refusal"
      "invalid_title" (titleReason reason)
  | .timeRefused reason => applyRefusal link remote "mark calendar time refusal"
      "invalid_time" (timeReason reason)
  | .descriptionRefused => applyRefusal link remote "mark calendar description refusal"
      "description_too_long" "too_long"
  | .recurrenceRefused => applyRefusal link remote "mark calendar recurrence refusal"
      "recurrence" "Provider event became a recurring series"

end

/-- What a pull makes of an event that is not there. -/
def removedProviderObservation (instanceId : String) (version : Option String) :
    CalendarRemoteEvent where
  instanceId := instanceId
  version := version
  inbound := .removed
  description := ""
  descriptionFormat := .text
  hasAttendees := false
  hasOnlineMeeting := false
  organizerEmail := none
  organizerIsConnectedAccount := false
  webUrl := none

/-! ### The store -/

section
variable (connection : CalendarConnectionRow)

def isSyncable (link : CalendarLinkRow) : Bool :=
  link.companyId = connection.companyId ∧ link.connectionId = connection.id ∧
    link.linkState ≠ .unlinked

/-- `findSyncableLink`: no row, one row, or an error. -/
def findSyncableLink (instanceId : String) : Pull (Option CalendarLinkRow) := do
  let rows : List CalendarLinkRow ← ask (.readLink instanceId)
  match rows.filter fun l => isSyncable connection l ∧ l.providerInstanceId = instanceId with
  | [] => pure none
  | [link] => pure (some link)
  | _ => fail (.other "read syncable calendar link")

/-- One query of `listSyncableLinks`. -/
def linkPage (afterId : Option ℕ) (rows : List CalendarLinkRow) : List CalendarLinkRow :=
  ((rows.filter fun l => isSyncable connection l ∧ ∀ a ∈ afterId, a < l.id).insertionSort
    fun a b => a.id ≤ b.id).take LINK_VERIFICATION_PAGE_SIZE

/-- `listSyncableLinks`, with at most so many queries. -/
def listSyncableLinks : ℕ → Option ℕ → Pull (List CalendarLinkRow)
  | 0, _ => fail (.other "list syncable calendar links")
  | n + 1, afterId => do
      let rows : List CalendarLinkRow ← ask (.readLinks afterId)
      let page := linkPage connection afterId rows
      if page.length < LINK_VERIFICATION_PAGE_SIZE then pure page
      else do
        let rest ← listSyncableLinks n ((page.getLast?.map (·.id)).or afterId)
        pure (page ++ rest)

/-! ### The pull -/

def renewPullLease (operation : String) : Pull Unit := do
  let outcome : String ← ask (.renewPullLease connection.pullGeneration LEASE_SECONDS)
  expectMutationOutcome operation outcome ["renewed"]

/-- The event itself, or the observation that it is gone. -/
def readEvent (instanceId : String) (version : Option String) : Pull CalendarRemoteEvent := do
  match ← tryAsk (.getEvent instanceId) with
  | .ok remote => pure remote
  | .error e =>
    if e = .provider .notFound then pure (removedProviderObservation instanceId version)
    else fail e

def observeNotice (notice : CalendarChangeNotice) : Pull Unit := do
  match ← findSyncableLink connection notice.instanceId with
  | none => pure ()
  | some link =>
    renewPullLease connection "renew calendar pull lease before mapped event read"
    let observation ← readEvent notice.instanceId (notice.version.or link.providerVersion)
    renewPullLease connection "renew calendar pull lease before inbound mutation"
    applyInbound connection link observation

/-- One link after a listing of the whole window. -/
def verifyAbsence (seen : List String) (link : CalendarLinkRow) : Pull Unit :=
  if link.providerInstanceId ∈ seen then pure ()
  else do
    renewPullLease connection "renew calendar pull lease before full-sync absence verification"
    let observation ← readEvent link.providerInstanceId link.providerVersion
    renewPullLease connection "renew calendar pull lease before full-sync verification mutation"
    applyInbound connection link observation

/-- What comes after the last page. -/
def finishPull (queries : ℕ) (restarted : Bool) (seen : List String)
    (finalCursor : Option String) : Pull Unit := do
  if restarted then
    let mappedLinks ← listSyncableLinks connection queries none
    each (verifyAbsence connection seen) mappedLinks
  renewPullLease connection "renew calendar pull lease before commit"
  let committed : String ← ask (.commitPull connection.pullGeneration finalCursor)
  expectMutationOutcome "commit calendar pull" committed ["committed"]

/-- Where a listing stands: what the next page is asked with, and the instances seen so far. -/
structure Position where
  cursor : Option String
  pageToken : Option String
  seenInstanceIds : List String

def Position.request (s : Position) : ListRequest where
  cursor := s.cursor
  pageToken := s.pageToken
  window := !truthy s.cursor

/-- The pages of a listing, with the number that may still be asked for.  `restart` is what a
rejected cursor leads to, once. -/
def scan (queries : ℕ) (restarted : Bool) (restart : Pull Unit) : ℕ → Position → Pull Unit
  | 0, _ => fail .pageLimit
  | n + 1, s => do
      renewPullLease connection "renew calendar pull lease before provider page"
      match ← tryAsk (.listChanges s.request) with
      | .error e => if e = .provider .fullResync ∧ ¬restarted then restart else fail e
      | .ok page =>
        each (observeNotice connection) page.events
        let seen := s.seenInstanceIds ++ page.events.map (·.instanceId)
        if truthy page.nextPageToken then
          scan queries restarted restart n
            { s with pageToken := page.nextPageToken, seenInstanceIds := seen }
        else finishPull connection queries restarted seen page.nextCursor

def wholeWindow : Position where
  cursor := none
  pageToken := none
  seenInstanceIds := []

/-- The listing that replaces one whose cursor was rejected; it is not replaced again. -/
def replacement (queries : ℕ) : Pull Unit :=
  scan connection queries true (fail (.provider .fullResync)) MAX_PROVIDER_PAGES wholeWindow

def processPull (queries : ℕ) : Pull Unit := do
  ask .authorize
  scan connection queries connection.pullFullSync (replacement connection queries)
    MAX_PROVIDER_PAGES
    { wholeWindow with
      cursor := if connection.pullFullSync then none else connection.syncCursor }

end

/-! ### What a listing accounts for -/

/-- The pages of a trace, each with the request it answers. -/
def listings (t : List Entry) : List (ListRequest × CalendarChangePage) :=
  t.filterMap fun
    | ⟨.listChanges request, .ok page⟩ => some (request, page)
    | _ => none

/-- The tables the linked events were listed from. -/
def linkReads (t : List Entry) : List (List CalendarLinkRow) :=
  t.filterMap fun
    | ⟨.readLinks _, .ok rows⟩ => some rows
    | _ => none

/-- The call that applies an observation, with an outcome that is accepted. -/
def Applies (link : CalendarLinkRow) (remote : CalendarRemoteEvent) : Entry → Prop
  | ⟨.applyProviderEvent l r, .ok outcome⟩ =>
    l = link ∧ r = remote ∧ (∃ s, remote.inbound = .scheduled s) ∧ outcome ∈ APPLIED
  | ⟨.markEventRemoved l r, .ok outcome⟩ =>
    l = link ∧ r = remote ∧ remote.inbound = .removed ∧ outcome = "event_removed"
  | ⟨.markRefused l r _ _, .ok outcome⟩ =>
    l = link ∧ r = remote ∧ remote.inbound ≠ .removed ∧
      (∀ s, remote.inbound ≠ .scheduled s) ∧ outcome = "refused"
  | _ => False

/-- What an answer of the provider says about the event. -/
def Observes (instanceId : String) (version : Option String) (remote : CalendarRemoteEvent) :
    Except Failure CalendarRemoteEvent → Prop
  | .ok r => remote = r
  | .error e =>
    e = .provider .notFound ∧ remote = removedProviderObservation instanceId version

def Verified (version : Option String) (link : CalendarLinkRow) (t : List Entry) : Prop :=
  ∃ u answer v remote, t = u ++ ⟨.getEvent link.providerInstanceId, answer⟩ :: v ∧
    Observes link.providerInstanceId version remote answer ∧ ∃ e ∈ v, Applies link remote e

def Checked (connection : CalendarConnectionRow) (notice : CalendarChangeNotice)
    (t : List Entry) : Prop :=
  ∃ u rows v, t = u ++ ⟨.readLink notice.instanceId, .ok rows⟩ :: v ∧
    ∀ link ∈ rows, isSyncable connection link → link.providerInstanceId = notice.instanceId →
      Verified (notice.version.or link.providerVersion) link v

def PageChecked (connection : CalendarConnectionRow) (e : Entry) (t : List Entry) : Prop :=
  ∀ request page, e = ⟨.listChanges request, .ok page⟩ →
    ∀ notice ∈ page.events, Checked connection notice t

/-- Every page is the answer to the request that the page before it leads to. -/
def Linked : ListRequest → List (ListRequest × CalendarChangePage) → Prop
  | _, [] => True
  | request, (r, page) :: rest =>
    r = request ∧ (rest ≠ [] → truthy page.nextPageToken) ∧
      Linked { request with pageToken := page.nextPageToken } rest

def OnPage (instanceId : String) (t : List Entry) : Prop :=
  ∃ l ∈ listings t, ∃ notice ∈ l.2.events, notice.instanceId = instanceId

/-- A listing that went from a position to its last page, with the cursor of that page, and has
been accounted for. -/
structure Completed (connection : CalendarConnectionRow) (full : Bool) (s : Position)
    (cursor : Option String) (t : List Entry) : Prop where
  linked : Linked s.request (listings t)
  last : ∃ l, (listings t).getLast? = some l ∧ truthy l.2.nextPageToken = false ∧
    l.2.nextCursor = cursor
  notices : Followed (PageChecked connection) t
  /-- Whoever is linked in every table the links are listed from, after the last page. -/
  absent : full = true → ∃ u v, t = u ++ v ∧ listings v = [] ∧ linkReads v ≠ [] ∧
    ∀ id, (∀ rows ∈ linkReads v, ∃ link ∈ rows, link.id = id ∧ isSyncable connection link) →
      ∃ link, link.id = id ∧ (∃ rows ∈ linkReads v, link ∈ rows) ∧
        (link.providerInstanceId ∈ s.seenInstanceIds ∨ OnPage link.providerInstanceId u ∨
          Verified link.providerVersion link v)

/-! ### The calls of each part -/

/-- A call that neither lists nor commits. -/
def Quiet (e : Entry) : Prop :=
  match e.query with
  | .listChanges _ => False
  | .readLinks _ => False
  | .commitPull .. => False
  | _ => True

variable {q : Call}

theorem ensures_ask {Φ : Except Failure (Reply q) → List Entry → Prop}
    (h : ∀ a, Φ a [⟨q, a⟩]) : Ensures (ask q) Φ := ensures_call h

theorem ensures_tryAsk {Φ : Except Failure (Except Failure (Reply q)) → List Entry → Prop}
    (h : ∀ a, Φ (.ok a) [⟨q, a⟩]) : Ensures (tryAsk q) Φ := ensures_attempt h

theorem ensures_expect (operation outcome : String) (accepted : List String) :
    Ensures (expectMutationOutcome operation outcome accepted)
      fun r t => t = [] ∧ (r = .ok () → outcome ∈ accepted) := by
  unfold expectMutationOutcome
  split
  · exact ensures_fail ⟨rfl, by simp⟩
  · split
    · next h => exact ensures_pure ⟨rfl, fun _ => h⟩
    · exact ensures_fail ⟨rfl, by simp⟩

theorem ensures_mutation {P : List Entry → Prop} (hq : Reply q = String) {operation : String}
    {accepted : List String} (hquiet : ∀ a, Quiet ⟨q, a⟩)
    (hP : ∀ a : Reply q, cast hq a ∈ accepted → P [⟨q, .ok a⟩]) :
    Ensures (do let outcome ← ask q; expectMutationOutcome operation (cast hq outcome) accepted)
      fun r t => (∀ e ∈ t, Quiet e) ∧ (r = .ok () → P t) := by
  refine Ensures.bind (ensures_ask (Φ := fun a t => t = [⟨q, a⟩]) fun _ => rfl) ?_ ?_
  · rintro outcome t rfl
    refine (ensures_expect operation (cast hq outcome) accepted).mono ?_
    rintro r u ⟨rfl, hacc⟩
    exact ⟨by simpa using hquiet _, fun hr => hP outcome (hacc hr)⟩
  · rintro e t rfl
    exact ⟨by simpa using hquiet _, by simp⟩

section
variable (connection : CalendarConnectionRow)

theorem renew_quiet (operation : String) :
    Ensures (renewPullLease connection operation) fun _ t => ∀ e ∈ t, Quiet e := by
  refine (ensures_mutation (q := .renewPullLease connection.pullGeneration LEASE_SECONDS)
    (P := fun _ => True) rfl (fun _ => trivial) fun _ _ => trivial).mono ?_
  exact fun _ _ h => h.1

theorem applyRefusal_ensures (link : CalendarLinkRow) (remote : CalendarRemoteEvent)
    (operation code detail : String) (hr : remote.inbound ≠ .removed)
    (hs : ∀ s, remote.inbound ≠ .scheduled s) :
    Ensures (applyRefusal link remote operation code detail)
      fun r t => (∀ e ∈ t, Quiet e) ∧ (r = .ok () → ∃ e ∈ t, Applies link remote e) := by
  refine ensures_mutation (q := .markRefused link remote code detail) rfl (fun _ => trivial) ?_
  intro outcome hacc
  exact ⟨_, List.mem_singleton_self _, rfl, rfl, hr, hs, List.mem_singleton.1 hacc⟩

/-- **One observation**: where it does not fail, the database has applied it. -/
theorem applyInbound_ensures (link : CalendarLinkRow) (remote : CalendarRemoteEvent) :
    Ensures (applyInbound connection link remote)
      fun r t => (∀ e ∈ t, Quiet e) ∧ (r = .ok () → ∃ e ∈ t, Applies link remote e) := by
  unfold applyInbound
  cases h : remote.inbound with
  | scheduled s =>
    refine Ensures.bind
      (ensures_ask (Φ := fun a t => t = [⟨.applyProviderEvent link remote, a⟩]) fun _ => rfl)
      ?_ ?_
    · rintro outcome t rfl
      refine (ensures_expect "apply calendar provider event" outcome APPLIED).bind ?_ ?_
      · rintro ⟨⟩ t ⟨rfl, hacc⟩
        have happ : Applies link remote ⟨.applyProviderEvent link remote, .ok outcome⟩ :=
          ⟨rfl, rfl, ⟨s, h⟩, hacc rfl⟩
        split
        · exact ensures_ask fun a => ⟨by simp [Quiet], fun _ => ⟨_, by simp, happ⟩⟩
        · exact ensures_pure ⟨by simp [Quiet], fun _ => ⟨_, by simp, happ⟩⟩
      · rintro e t ⟨rfl, -⟩
        exact ⟨by simp [Quiet], by simp⟩
    · rintro e t rfl
      exact ⟨by simp [Quiet], by simp⟩
  | removed =>
    refine ensures_mutation (q := .markEventRemoved link remote) rfl (fun _ => trivial) ?_
    intro outcome hacc
    exact ⟨_, List.mem_singleton_self _, rfl, rfl, h, List.mem_singleton.1 hacc⟩
  | _ => exact applyRefusal_ensures link remote _ _ _ (by simp [h]) (by simp [h])

theorem readEvent_ensures (instanceId : String) (version : Option String) :
    Ensures (readEvent instanceId version) fun r t => (∀ e ∈ t, Quiet e) ∧
      ∀ remote, r = .ok remote → ∃ answer, t = [⟨.getEvent instanceId, answer⟩] ∧
        Observes instanceId version remote answer := by
  refine Ensures.bind
    (ensures_tryAsk (Φ := fun a t => ∃ b, a = .ok b ∧ t = [⟨.getEvent instanceId, b⟩])
      fun a => ⟨a, rfl, rfl⟩) ?_ ?_
  · rintro b t ⟨_, hb, rfl⟩
    obtain rfl := Except.ok.inj hb
    cases b with
    | ok remote =>
      refine ensures_pure ⟨by simp [Quiet], ?_⟩
      rintro _ hr
      obtain rfl := Except.ok.inj hr
      exact ⟨_, rfl, rfl⟩
    | error e =>
      change Ensures (if _ then _ else _) _
      split
      · next he =>
        refine ensures_pure ⟨by simp [Quiet], ?_⟩
        rintro _ hr
        obtain rfl := Except.ok.inj hr
        exact ⟨_, rfl, he, rfl⟩
      · exact ensures_fail ⟨by simp [Quiet], by simp⟩
  · rintro e t ⟨b, hb, -⟩
    simp at hb

theorem verify_ensures (link : CalendarLinkRow) (instanceId : String) (version : Option String)
    (hid : link.providerInstanceId = instanceId) (before between : String) :
    Ensures (do
        renewPullLease connection before
        let observation ← readEvent instanceId version
        renewPullLease connection between
        applyInbound connection link observation)
      fun r t => (∀ e ∈ t, Quiet e) ∧ (r = .ok () → Verified version link t) := by
  subst hid
  refine (renew_quiet connection before).bind ?_ fun _ _ h => ⟨h, by simp⟩
  intro _ t₁ h₁
  refine (readEvent_ensures link.providerInstanceId version).bind ?_ ?_
  · rintro remote t₂ ⟨h₂, hread⟩
    obtain ⟨answer, rfl, hobs⟩ := hread remote rfl
    refine (renew_quiet connection between).bind ?_ ?_
    · intro _ t₃ h₃
      refine (applyInbound_ensures connection link remote).mono ?_
      rintro r t₄ ⟨h₄, happ⟩
      constructor
      · intro e he
        simp only [List.mem_append] at he
        rcases he with he | he | he | he
        exacts [h₁ e he, h₂ e he, h₃ e he, h₄ e he]
      · intro hr
        obtain ⟨e, he, hap⟩ := happ hr
        exact ⟨t₁, answer, t₃ ++ t₄, remote, by simp, hobs, e, List.mem_append_right _ he, hap⟩
    · intro e t₃ h₃
      refine ⟨?_, by simp⟩
      intro x hx
      simp only [List.mem_append] at hx
      rcases hx with hx | hx | hx
      exacts [h₁ x hx, h₂ x hx, h₃ x hx]
  · rintro e t₂ ⟨h₂, -⟩
    refine ⟨?_, by simp⟩
    intro x hx
    rcases List.mem_append.1 hx with hx | hx
    exacts [h₁ x hx, h₂ x hx]

theorem findSyncableLink_ensures (instanceId : String) :
    Ensures (findSyncableLink connection instanceId) fun r t => (∀ e ∈ t, Quiet e) ∧
      ∀ found, r = .ok found → ∃ rows, t = [⟨.readLink instanceId, .ok rows⟩] ∧
        (∀ link ∈ rows, isSyncable connection link → link.providerInstanceId = instanceId →
          found = some link) ∧
        ∀ link, found = some link → link.providerInstanceId = instanceId := by
  refine Ensures.bind (ensures_ask (Φ := fun a t => t = [⟨.readLink instanceId, a⟩])
    fun _ => rfl) ?_ ?_
  · rintro rows t rfl
    change Ensures (match List.filter _ rows with | [] => _ | [link] => _ | _ => _) _
    split
    · next h =>
      refine ensures_pure ⟨by simp [Quiet], ?_⟩
      rintro _ hr
      obtain rfl := Except.ok.inj hr
      refine ⟨rows, rfl, ?_, by simp⟩
      intro link hl hs hid
      have := List.filter_eq_nil_iff.1 h link hl
      simp [hs, hid] at this
    · next l h =>
      refine ensures_pure ⟨by simp [Quiet], ?_⟩
      rintro _ hr
      obtain rfl := Except.ok.inj hr
      refine ⟨rows, rfl, ?_, ?_⟩
      · intro link hl hs hid
        have hmem : link ∈ [l] := h ▸ List.mem_filter.2 ⟨hl, by simp [hs, hid]⟩
        rw [List.mem_singleton.1 hmem]
      · rintro _ ⟨⟩
        have hmem := (List.mem_filter.1 (h ▸ List.mem_singleton_self l)).2
        exact (of_decide_eq_true hmem).2
    · exact ensures_fail ⟨by simp [Quiet], by simp⟩
  · rintro e t rfl
    exact ⟨by simp [Quiet], by simp⟩

/-- **One notice**: it is looked up, and verified where its instance is linked. -/
theorem observeNotice_ensures (notice : CalendarChangeNotice) :
    Ensures (observeNotice connection notice) fun r t => (∀ e ∈ t, Quiet e) ∧
      (r = .ok () → Checked connection notice t) := by
  refine (findSyncableLink_ensures connection notice.instanceId).bind ?_ ?_
  · rintro found t ⟨hq, hfound⟩
    obtain ⟨rows, rfl, hsome, hid⟩ := hfound found rfl
    cases found with
    | none =>
      refine ensures_pure ⟨by simpa using hq, fun _ => ⟨[], rows, [], rfl, ?_⟩⟩
      intro link hl hs heq
      simpa using hsome link hl hs heq
    | some l =>
      refine (verify_ensures connection l notice.instanceId _ (hid l rfl) _ _).mono ?_
      rintro r u ⟨hu, hver⟩
      constructor
      · intro e he
        rcases List.mem_append.1 he with he | he
        exacts [hq e he, hu e he]
      · intro hr
        refine ⟨[], rows, u, rfl, ?_⟩
        intro link hl hs heq
        obtain rfl := Option.some.inj (hsome link hl hs heq)
        exact hver hr
  · rintro e t ⟨hq, -⟩
    exact ⟨hq, by simp⟩

theorem verifyAbsence_ensures (seen : List String) (link : CalendarLinkRow) :
    Ensures (verifyAbsence connection seen link) fun r t => (∀ e ∈ t, Quiet e) ∧
      (r = .ok () → link.providerInstanceId ∈ seen ∨ Verified link.providerVersion link t) := by
  unfold verifyAbsence
  split
  · next h => exact ensures_pure ⟨by simp, fun _ => .inl h⟩
  · refine (verify_ensures connection link _ _ rfl _ _).mono ?_
    rintro r t ⟨hq, hver⟩
    exact ⟨hq, fun hr => .inr (hver hr)⟩

theorem mem_linkPage {afterId : Option ℕ} {rows : List CalendarLinkRow} {link : CalendarLinkRow}
    (h : link ∈ linkPage connection afterId rows) : link ∈ rows := by
  unfold linkPage at h
  exact (List.mem_filter.1 ((List.mem_insertionSort _).1 (List.mem_of_mem_take h))).1

/-- A row that is linked and not behind is on the page, unless the page is full and ends before
it. -/
theorem exists_mem_linkPage {afterId : Option ℕ} {rows : List CalendarLinkRow}
    {link : CalendarLinkRow} (hl : link ∈ rows) (hs : isSyncable connection link = true)
    (hafter : ∀ a ∈ afterId, a < link.id)
    (hlast : LINK_VERIFICATION_PAGE_SIZE ≤ (linkPage connection afterId rows).length →
      ∃ l ∈ linkPage connection afterId rows, link.id ≤ l.id) :
    ∃ l ∈ linkPage connection afterId rows, l.id = link.id := by
  unfold linkPage at hlast ⊢
  generalize hsorted : List.insertionSort (fun a b : CalendarLinkRow => a.id ≤ b.id)
    (rows.filter fun l => isSyncable connection l ∧ ∀ a ∈ afterId, a < l.id) = sorted at hlast ⊢
  have hmem : link ∈ sorted := by
    rw [← hsorted, List.mem_insertionSort, List.mem_filter]
    exact ⟨hl, decide_eq_true ⟨hs, hafter⟩⟩
  have hpair : sorted.Pairwise fun a b => a.id ≤ b.id := by
    rw [← hsorted]
    exact List.pairwise_insertionSort _ _
  by_cases hfull : LINK_VERIFICATION_PAGE_SIZE ≤ (sorted.take LINK_VERIFICATION_PAGE_SIZE).length
  · obtain ⟨l, hl, hle⟩ := hlast hfull
    rw [← List.take_append_drop LINK_VERIFICATION_PAGE_SIZE sorted] at hmem hpair
    rcases List.mem_append.1 hmem with hmem | hmem
    · exact ⟨link, hmem, rfl⟩
    · exact ⟨l, hl, le_antisymm ((List.pairwise_append.1 hpair).2.2 l hl link hmem) hle⟩
  · refine ⟨link, ?_, rfl⟩
    rw [List.length_take] at hfull
    rwa [List.take_of_length_le (by omega)]

/-- **The list of the linked events**: one that is linked in every table the list was read from
is on it, however many queries it took. -/
theorem listSyncableLinks_ensures (n : ℕ) (afterId : Option ℕ) :
    Ensures (listSyncableLinks connection n afterId) fun r t =>
      (∀ e ∈ t, ∃ a, e.query = .readLinks a) ∧ ∀ links, r = .ok links → linkReads t ≠ [] ∧
        (∀ link ∈ links, ∃ rows ∈ linkReads t, link ∈ rows) ∧
        ∀ id, (∀ a ∈ afterId, a < id) →
          (∀ rows ∈ linkReads t, ∃ link ∈ rows, link.id = id ∧ isSyncable connection link) →
          ∃ link ∈ links, link.id = id := by
  induction n generalizing afterId with
  | zero => exact ensures_fail ⟨by simp, by simp⟩
  | succ n ih =>
    refine Ensures.bind (ensures_ask (Φ := fun a t => t = [⟨.readLinks afterId, a⟩])
      fun _ => rfl) ?_ ?_
    · rintro rows t rfl
      change Ensures (if (linkPage connection afterId rows).length < _ then _ else _) _
      split
      · next hshort =>
        refine ensures_pure ⟨by simp, ?_⟩
        rintro _ hr
        obtain rfl := Except.ok.inj hr
        refine ⟨by simp [linkReads], fun l hl => ⟨rows, by simp [linkReads], ?_⟩, ?_⟩
        · exact mem_linkPage connection hl
        · intro id hafter hall
          obtain ⟨link, hl, rfl, hs⟩ := hall rows (by simp [linkReads])
          exact exists_mem_linkPage connection hl hs hafter fun h => absurd hshort (by omega)
      · next hfull =>
        refine (ih _).bind ?_ ?_
        · rintro rest t₂ ⟨hq, hrest⟩
          obtain ⟨-, hfrom, hall₂⟩ := hrest rest rfl
          refine ensures_pure ⟨?_, ?_⟩
          · intro e he
            rcases List.mem_append.1 he with he | he
            · exact ⟨_, by rw [List.mem_singleton.1 he]⟩
            · exact hq e (by simpa using he)
          rintro _ hr
          obtain rfl := Except.ok.inj hr
          have hreads : linkReads ([⟨.readLinks afterId, .ok rows⟩] ++ (t₂ ++ [])) =
              rows :: linkReads t₂ := by simp [linkReads]
          rw [hreads]
          refine ⟨by simp, ?_, ?_⟩
          · intro link hl
            rcases List.mem_append.1 hl with hl | hl
            · exact ⟨rows, by simp, mem_linkPage connection hl⟩
            · obtain ⟨rows', hrows', hl⟩ := hfrom link hl
              exact ⟨rows', by simp [hrows'], hl⟩
          · intro id hafter hall
            -- either the page reaches the identifier, or the next query starts before it
            by_cases hreach : ∃ l ∈ linkPage connection afterId rows, id ≤ l.id
            · obtain ⟨link, hl, rfl, hs⟩ := hall rows (by simp)
              obtain ⟨l, hl, hid⟩ := exists_mem_linkPage connection hl hs hafter
                fun _ => hreach
              exact ⟨l, List.mem_append_left _ hl, hid⟩
            · have hnext : ∀ a ∈ ((linkPage connection afterId rows).getLast?.map
                  (·.id)).or afterId, a < id := by
                intro a ha
                cases hgl : (linkPage connection afterId rows).getLast? with
                | none =>
                  rw [hgl] at ha
                  exact hafter a ha
                | some l =>
                  rw [hgl] at ha
                  obtain rfl := Option.some.inj ha
                  by_contra hle
                  exact hreach ⟨l, List.mem_of_getLast? hgl, Nat.le_of_not_lt hle⟩
              obtain ⟨link, hl, hid⟩ :=
                hall₂ id hnext fun rows' h => hall rows' (List.mem_cons_of_mem _ h)
              exact ⟨link, List.mem_append_right _ hl, hid⟩
        · rintro e t₂ ⟨hq, -⟩
          refine ⟨?_, by simp⟩
          intro x hx
          rcases List.mem_cons.1 hx with rfl | hx
          · exact ⟨_, rfl⟩
          · exact hq x hx
    · rintro e t rfl
      exact ⟨by simp, by simp⟩

/-! ### The listing -/

theorem listings_append (t u : List Entry) : listings (t ++ u) = listings t ++ listings u :=
  List.filterMap_append

theorem linkReads_append (t u : List Entry) : linkReads (t ++ u) = linkReads t ++ linkReads u :=
  List.filterMap_append

theorem listings_of_quiet {t : List Entry} (h : ∀ e ∈ t, Quiet e) : listings t = [] := by
  refine List.filterMap_eq_nil_iff.2 ?_
  rintro ⟨q, a⟩ he
  have := h _ he
  cases q <;> simp_all [Quiet]

theorem linkReads_of_quiet {t : List Entry} (h : ∀ e ∈ t, Quiet e) : linkReads t = [] := by
  refine List.filterMap_eq_nil_iff.2 ?_
  rintro ⟨q, a⟩ he
  have := h _ he
  cases q <;> simp_all [Quiet]

theorem listings_of_reads {t : List Entry} (h : ∀ e ∈ t, ∃ a, e.query = .readLinks a) :
    listings t = [] := by
  refine List.filterMap_eq_nil_iff.2 ?_
  rintro ⟨q, a⟩ he
  obtain ⟨b, hb⟩ := h _ he
  cases q <;> simp_all

theorem pageChecked_of_listings {t : List Entry} (h : listings t = []) :
    Followed (PageChecked connection) t := by
  refine followed_of_forall fun e he b request page heq => ?_
  have := List.filterMap_eq_nil_iff.1 h e he
  subst heq
  simp at this

theorem Verified.around {version : Option String} {link : CalendarLinkRow} {t : List Entry}
    (h : Verified version link t) (s u : List Entry) : Verified version link (s ++ t ++ u) := by
  obtain ⟨a, answer, b, remote, rfl, hobs, e, he, happ⟩ := h
  exact ⟨s ++ a, answer, b ++ u, remote, by simp, hobs, e, List.mem_append_left _ he, happ⟩

theorem Checked.around {notice : CalendarChangeNotice} {t : List Entry}
    (h : Checked connection notice t) (s u : List Entry) :
    Checked connection notice (s ++ t ++ u) := by
  obtain ⟨a, rows, b, rfl, hall⟩ := h
  refine ⟨s ++ a, rows, b ++ u, by simp, ?_⟩
  intro link hl hs hid
  have := (hall link hl hs hid).around [] u
  rwa [List.nil_append] at this

/-- After the last page: what a commit of the cursor has behind it. -/
structure Finished (restarted : Bool) (seen : List String) (t : List Entry) : Prop where
  listings : listings t = []
  absent : restarted = true → linkReads t ≠ [] ∧
    ∀ id, (∀ rows ∈ linkReads t, ∃ link ∈ rows, link.id = id ∧ isSyncable connection link) →
      ∃ link, link.id = id ∧ (∃ rows ∈ linkReads t, link ∈ rows) ∧
        (link.providerInstanceId ∈ seen ∨ Verified link.providerVersion link t)

def CommitsWith (S : List Entry → Option String → Prop) (t : List Entry) (e : Entry) : Prop :=
  ∀ generation cursor, e.query = .commitPull generation cursor →
    generation = connection.pullGeneration ∧ S t cursor

variable {S : List Entry → Option String → Prop} {request : ListRequest}

theorem commitsWith_of_quiet {t : List Entry}
    (h : ∀ e ∈ t, Quiet e) : Preceded (CommitsWith connection S) t := by
  refine preceded_of_forall fun e he a generation cursor heq => ?_
  have := h e he
  rw [Quiet, heq] at this
  exact this.elim

theorem commitsWith_of_reads {t : List Entry}
    (h : ∀ e ∈ t, ∃ a, e.query = .readLinks a) : Preceded (CommitsWith connection S) t := by
  refine preceded_of_forall fun e he a generation cursor heq => ?_
  obtain ⟨b, hb⟩ := h e he
  rw [hb] at heq
  simp at heq

theorem commit_ensures (finalCursor : Option String)
    (hS : ∀ t, (∀ e ∈ t, Quiet e) → S t finalCursor) :
    Ensures (do
        renewPullLease connection "renew calendar pull lease before commit"
        let committed : String ← ask (.commitPull connection.pullGeneration finalCursor)
        expectMutationOutcome "commit calendar pull" committed ["committed"])
      fun _ t => Preceded (CommitsWith connection S) t := by
  refine (renew_quiet connection _).bind ?_ fun _ _ h => commitsWith_of_quiet connection h
  intro _ t ht
  have hcommit : ∀ a, Preceded (CommitsWith connection S)
      (t ++ [⟨.commitPull connection.pullGeneration finalCursor, a⟩]) := by
    intro a
    refine preceded_append (commitsWith_of_quiet connection ht) (preceded_singleton ?_)
    rintro generation cursor ⟨⟩
    rw [List.append_nil]
    exact ⟨rfl, hS t ht⟩
  refine Ensures.bind (ensures_ask
    (Φ := fun a u => u = [⟨.commitPull connection.pullGeneration finalCursor, a⟩])
    fun _ => rfl) ?_ ?_
  · rintro outcome u rfl
    refine (ensures_expect _ outcome _).mono ?_
    rintro r v ⟨rfl, -⟩
    exact hcommit _
  · rintro e u rfl
    exact hcommit _

/-- **After the last page.** -/
theorem finishPull_ensures (queries : ℕ) (restarted : Bool) (seen : List String)
    (finalCursor : Option String) :
    Ensures (finishPull connection queries restarted seen finalCursor)
      fun _ t => Preceded (CommitsWith connection fun a cursor =>
        cursor = finalCursor ∧ Finished connection restarted seen a) t := by
  cases restarted with
  | false =>
    refine commit_ensures connection finalCursor fun t ht => ⟨rfl, ?_, by simp⟩
    exact listings_of_quiet ht
  | true =>
    refine (listSyncableLinks_ensures connection queries none).bind ?_ ?_
    · rintro links t₁ ⟨hreads, hlinks⟩
      obtain ⟨hne, hfrom, hall⟩ := hlinks links rfl
      refine (ensures_each (fun link s t u h => h.imp_right fun h => h.around s u)
        (verifyAbsence_ensures connection seen) links).bind ?_ ?_
      · rintro ⟨⟩ t₂ ⟨hquiet, hver⟩
        refine (commit_ensures connection (S := fun a cursor => cursor = finalCursor ∧
          Finished connection true seen (t₁ ++ (t₂ ++ a))) finalCursor ?_).mono ?_
        · intro t₃ ht₃
          have hq : ∀ e ∈ t₂ ++ t₃, Quiet e := by
            intro e he
            rcases List.mem_append.1 he with he | he
            exacts [hquiet e he, ht₃ e he]
          have hlr : linkReads (t₁ ++ (t₂ ++ t₃)) = linkReads t₁ := by
            rw [linkReads_append, linkReads_of_quiet hq, List.append_nil]
          refine ⟨rfl, ?_, fun _ => ?_⟩
          · rw [listings_append, listings_of_reads hreads, listings_of_quiet hq]
            rfl
          · rw [hlr]
            refine ⟨hne, fun id hid => ?_⟩
            obtain ⟨link, hl, rfl⟩ := hall id (by simp) hid
            refine ⟨link, rfl, hfrom link hl, ?_⟩
            refine (hver rfl link hl).imp_right fun h => ?_
            have := h.around t₁ t₃
            rwa [List.append_assoc] at this
        · intro _ t₃ h₃
          refine preceded_append (commitsWith_of_reads connection hreads) ?_
          exact preceded_append (commitsWith_of_quiet connection hquiet) h₃
      · rintro e t₂ ⟨hquiet, -⟩
        exact preceded_append (commitsWith_of_reads connection hreads)
          (commitsWith_of_quiet connection hquiet)
    · rintro e t ⟨hreads, -⟩
      exact commitsWith_of_reads connection hreads

/-- What one page, with its notices checked, leaves in front of the rest. -/
theorem listings_page {t u v : List Entry} {page : CalendarChangePage} (ht : ∀ e ∈ t, Quiet e)
    (hu : ∀ e ∈ u, Quiet e) :
    listings (t ++ ([⟨.listChanges request, .ok page⟩] ++ (u ++ v))) =
      (request, page) :: listings v := by
  rw [listings_append, listings_of_quiet ht, listings_append, listings_append,
    listings_of_quiet hu]
  rfl

theorem followed_page {t u v : List Entry} {page : CalendarChangePage} (ht : ∀ e ∈ t, Quiet e)
    (hu : ∀ e ∈ u, Quiet e) (hcheck : ∀ notice ∈ page.events, Checked connection notice u)
    (hv : Followed (PageChecked connection) v) :
    Followed (PageChecked connection)
      (t ++ ([⟨.listChanges request, .ok page⟩] ++ (u ++ v))) := by
  have hmono : ∀ (e : Entry) b c, PageChecked connection e b → PageChecked connection e (b ++ c) :=
    fun e b c h request page he notice hn => by
      have := (h request page he notice hn).around connection [] c
      rwa [List.nil_append] at this
  refine followed_append hmono (pageChecked_of_listings connection (listings_of_quiet ht)) ?_
  change Followed (PageChecked connection) (_ :: (u ++ v))
  refine ⟨?_, followed_append hmono
    (pageChecked_of_listings connection (listings_of_quiet hu)) hv⟩
  intro request' page' he notice hn
  obtain ⟨rfl, rfl⟩ : request = request' ∧ page = page' := by simpa using he
  have := (hcheck notice hn).around connection [] v
  rwa [List.nil_append] at this

theorem onPage_of_mem {t u v : List Entry} {page : CalendarChangePage} {instanceId : String}
    (ht : ∀ e ∈ t, Quiet e) (hu : ∀ e ∈ u, Quiet e)
    (h : instanceId ∈ page.events.map (·.instanceId)) :
    OnPage instanceId (t ++ ([⟨.listChanges request, .ok page⟩] ++ (u ++ v))) := by
  obtain ⟨notice, hn, rfl⟩ := List.mem_map.1 h
  refine ⟨(request, page), ?_, notice, hn, rfl⟩
  rw [listings_page ht hu]
  exact List.mem_cons_self ..

theorem OnPage.behind {t u v : List Entry} {page : CalendarChangePage} {instanceId : String}
    (ht : ∀ e ∈ t, Quiet e) (hu : ∀ e ∈ u, Quiet e) (h : OnPage instanceId v) :
    OnPage instanceId (t ++ ([⟨.listChanges request, .ok page⟩] ++ (u ++ v))) := by
  obtain ⟨l, hl, notice, hn, hid⟩ := h
  refine ⟨l, ?_, notice, hn, hid⟩
  rw [listings_page ht hu]
  exact List.mem_cons_of_mem _ hl

def Position.after (s : Position) (page : CalendarChangePage) : Position :=
  { s with
    pageToken := page.nextPageToken
    seenInstanceIds := s.seenInstanceIds ++ page.events.map (·.instanceId) }

section
variable {connection} {t u : List Entry} {s : Position} {page : CalendarChangePage} {full : Bool}
  (ht : ∀ e ∈ t, Quiet e) (hu : ∀ e ∈ u, Quiet e)
  (hcheck : ∀ notice ∈ page.events, Checked connection notice u)

include ht hu hcheck

theorem completed_last {v : List Entry} (hnext : truthy page.nextPageToken = false)
    (hv : Finished connection full (s.after page).seenInstanceIds v) :
    Completed connection full s page.nextCursor
      (t ++ ([⟨.listChanges s.request, .ok page⟩] ++ (u ++ v))) where
  linked := by
    rw [listings_page ht hu, hv.listings]
    exact ⟨rfl, fun h => absurd rfl h, trivial⟩
  last := by
    rw [listings_page ht hu, hv.listings]
    exact ⟨_, rfl, hnext, rfl⟩
  notices := followed_page connection ht hu hcheck
    (pageChecked_of_listings connection hv.listings)
  absent := by
    intro hfull
    obtain ⟨hne, hall⟩ := hv.absent hfull
    refine ⟨t ++ ([⟨.listChanges s.request, .ok page⟩] ++ (u ++ [])), v, by simp, hv.listings,
      hne, fun id hid => ?_⟩
    obtain ⟨link, rfl, hfrom, hseen⟩ := hall id hid
    refine ⟨link, rfl, hfrom, ?_⟩
    rcases hseen with hseen | hver
    · rcases List.mem_append.1 hseen with hseen | hseen
      · exact .inl hseen
      · exact .inr (.inl (onPage_of_mem ht hu hseen))
    · exact .inr (.inr hver)

theorem Completed.behind_page {v : List Entry} {cursor : Option String}
    (hnext : truthy page.nextPageToken = true)
    (hv : Completed connection full (s.after page) cursor v) :
    Completed connection full s cursor
      (t ++ ([⟨.listChanges s.request, .ok page⟩] ++ (u ++ v))) where
  linked := by
    rw [listings_page ht hu]
    exact ⟨rfl, fun _ => hnext, hv.linked⟩
  last := by
    obtain ⟨l, hl, hrest⟩ := hv.last
    rw [listings_page ht hu]
    refine ⟨l, ?_, hrest⟩
    rw [List.getLast?_cons, hl]
    rfl
  notices := followed_page connection ht hu hcheck hv.notices
  absent := by
    intro hfull
    obtain ⟨a, b, rfl, hb, hne, hall⟩ := hv.absent hfull
    refine ⟨t ++ ([⟨.listChanges s.request, .ok page⟩] ++ (u ++ a)), b, by simp, hb, hne,
      fun id hid => ?_⟩
    obtain ⟨link, rfl, hfrom, hseen⟩ := hall id hid
    refine ⟨link, rfl, hfrom, ?_⟩
    rcases hseen with hseen | hon | hver
    · rcases List.mem_append.1 hseen with hseen | hseen
      · exact .inl hseen
      · exact .inr (.inl (onPage_of_mem ht hu hseen))
    · exact .inr (.inl (hon.behind ht hu))
    · exact .inr (.inr hver)

end

/-- What a commit has behind it: the listing itself, or a rejected cursor and the listing of the
whole window that replaced it. -/
def Accounted (restarted : Bool) (s : Position) (t : List Entry) (cursor : Option String) : Prop :=
  Completed connection restarted s cursor t ∨
    restarted = false ∧ ∃ aborted request v,
      t = aborted ++ ⟨.listChanges request, .error (.provider .fullResync)⟩ :: v ∧
      Completed connection true wholeWindow cursor v

variable {connection} in
theorem Accounted.behind_page {restarted : Bool} {t u v : List Entry} {s : Position}
    {page : CalendarChangePage} {cursor : Option String} (ht : ∀ e ∈ t, Quiet e)
    (hu : ∀ e ∈ u, Quiet e) (hcheck : ∀ notice ∈ page.events, Checked connection notice u)
    (hnext : truthy page.nextPageToken = true)
    (hv : Accounted connection restarted (s.after page) v cursor) :
    Accounted connection restarted s
      (t ++ ([⟨.listChanges s.request, .ok page⟩] ++ (u ++ v))) cursor := by
  rcases hv with hv | ⟨hr, aborted, request, v', rfl, hv⟩
  · exact .inl (hv.behind_page ht hu hcheck hnext)
  · refine .inr ⟨hr, t ++ ([⟨.listChanges s.request, .ok page⟩] ++ (u ++ aborted)), request, v',
      by simp, hv⟩

/-- **The listing.**  By induction on the number of pages that may still be asked for; a page is
put in front of the rest by `Completed.behind_page`. -/
theorem scan_ensures (queries : ℕ) (restarted : Bool) (restart : Pull Unit)
    (hrestart : restarted = false → Ensures restart fun _ t =>
      Preceded (CommitsWith connection fun a cursor =>
        Completed connection true wholeWindow cursor a) t) (n : ℕ) (s : Position) :
    Ensures (scan connection queries restarted restart n s) fun _ t =>
      Preceded (CommitsWith connection (Accounted connection restarted s)) t := by
  induction n generalizing s with
  | zero => exact ensures_fail (preceded_of_forall (by simp))
  | succ n ih =>
    refine (renew_quiet connection _).bind ?_ fun _ _ h => commitsWith_of_quiet connection h
    rintro - t ht
    refine Ensures.bind (ensures_tryAsk
      (Φ := fun a u => ∃ b, a = .ok b ∧ u = [⟨.listChanges s.request, b⟩])
      fun b => ⟨b, rfl, rfl⟩) ?_ ?_
    · rintro b _ ⟨_, hb, rfl⟩
      obtain rfl := Except.ok.inj hb
      have hlist : ∀ S, Preceded (CommitsWith connection S) (t ++ [⟨.listChanges s.request, b⟩])
          := by
        intro S
        refine preceded_append (commitsWith_of_quiet connection ht) (preceded_singleton ?_)
        rintro generation cursor ⟨⟩
      cases b with
      | error e =>
        change Ensures (if _ then _ else _) _
        split
        · next h =>
          obtain ⟨rfl, hr⟩ := h
          have hr : restarted = false := by simpa using hr
          refine (hrestart hr).mono fun r v hv => ?_
          rw [← List.append_assoc]
          refine preceded_append (hlist _) ?_
          intro a e b hab generation cursor heq
          refine ⟨(hv a e b hab generation cursor heq).1, .inr ⟨hr, t, s.request, a, ?_, ?_⟩⟩
          · simp
          · exact (hv a e b hab generation cursor heq).2
        · refine ensures_fail ?_
          rw [← List.append_assoc, List.append_nil]
          exact hlist _
      | ok page =>
        refine (ensures_each (fun notice s t u h => h.around connection s u)
          (observeNotice_ensures connection) page.events).bind ?_ ?_
        · rintro ⟨⟩ u ⟨hu, hcheck⟩
          -- what the rest does is put behind the page
          have hbehind : ∀ (S T : List Entry → Option String → Prop) v,
              (∀ a cursor, T a cursor →
                S (t ++ ([⟨.listChanges s.request, .ok page⟩] ++ (u ++ a))) cursor) →
              Preceded (CommitsWith connection T) v →
              Preceded (CommitsWith connection S)
                (t ++ ([⟨.listChanges s.request, .ok page⟩] ++ (u ++ v))) := by
            intro S T v himp hv
            rw [← List.append_assoc]
            refine preceded_append (hlist S) ?_
            refine preceded_append (commitsWith_of_quiet connection hu) ?_
            intro a e b hab generation cursor heq
            refine ⟨(hv a e b hab generation cursor heq).1, ?_⟩
            have := himp a cursor (hv a e b hab generation cursor heq).2
            rwa [← List.append_assoc] at this
          change Ensures (if _ then _ else _) _
          split
          · next hnext =>
            refine (ih (s.after page)).mono fun r v hv => hbehind _ _ v ?_ hv
            intro a cursor ha
            exact ha.behind_page ht hu (hcheck rfl) hnext
          · next hnext =>
            refine (finishPull_ensures connection queries restarted _ _).mono
              fun r v hv => hbehind _ _ v ?_ hv
            rintro a _ ⟨rfl, ha⟩
            exact .inl (completed_last ht hu (hcheck rfl) (by simpa using hnext) ha)
        · rintro e u ⟨hu, -⟩
          rw [← List.append_assoc]
          exact preceded_append (hlist _) (commitsWith_of_quiet connection hu)
    · rintro e t₂ ⟨b, hb, -⟩
      simp at hb

def startPosition : Position :=
  { wholeWindow with
    cursor := if connection.pullFullSync then none else connection.syncCursor }

theorem replacement_ensures (queries : ℕ) :
    Ensures (replacement connection queries) fun _ t =>
      Preceded (CommitsWith connection fun a cursor =>
        Completed connection true wholeWindow cursor a) t := by
  refine (scan_ensures connection queries true _ (by simp) _ _).mono fun r t ht => ?_
  intro a e b hab generation cursor heq
  obtain ⟨hg, hc | ⟨h, -⟩⟩ := ht a e b hab generation cursor heq
  · exact ⟨hg, hc⟩
  · simp at h

theorem processPull_ensures (queries : ℕ) :
    Ensures (processPull connection queries) fun _ t =>
      Preceded (CommitsWith connection fun a cursor => ∃ answer v,
        a = ⟨.authorize, answer⟩ :: v ∧
        Accounted connection connection.pullFullSync (startPosition connection) v cursor) t := by
  have hauth : ∀ (S : List Entry → Option String → Prop) a,
      Preceded (CommitsWith connection S) [⟨.authorize, a⟩] := by
    intro S a
    refine preceded_singleton ?_
    rintro generation cursor ⟨⟩
  refine Ensures.bind (ensures_ask (Φ := fun a t => t = [⟨.authorize, a⟩]) fun _ => rfl) ?_ ?_
  · rintro u _ rfl
    refine (scan_ensures connection queries connection.pullFullSync _
      (fun _ => replacement_ensures connection queries) _ _).mono fun r t ht => ?_
    refine preceded_append (hauth _ _) ?_
    intro a e b hab generation cursor heq
    obtain ⟨hg, hacc⟩ := ht a e b hab generation cursor heq
    exact ⟨hg, .ok u, a, rfl, hacc⟩
  · rintro e _ rfl
    exact hauth _ _

/-- How the listing begins that a commit rests on: as the connection was claimed, or over the
whole window, right after the provider has rejected the cursor. -/
def Begins (aborted : List Entry) (full : Bool) (start : Position) : Prop :=
  (∀ e ∈ aborted, e.query = .authorize) ∧ full = connection.pullFullSync ∧
      start = startPosition connection ∨
    (∃ t request, aborted = t ++ [⟨.listChanges request, .error (.provider .fullResync)⟩]) ∧
      connection.pullFullSync = false ∧ full = true ∧ start = wholeWindow

/-- **What a committed cursor accounts for**, whatever the world answers: before the commit lies a
listing from its beginning to its last page, whose cursor is the one committed; every notice on it
was looked up, and read and applied where its instance is linked; and where it was a listing of the
whole window, every event linked by then is on it or was read and applied by itself. -/
theorem commit_accounts (queries : ℕ) (w : World Failure Reply) (past before after : List Entry)
    (generation : ℕ) (cursor : Option String)
    (answer : Except Failure (Reply (.commitPull generation cursor)))
    (h : (processPull connection queries w past).2 =
      before ++ ⟨.commitPull generation cursor, answer⟩ :: after) :
    generation = connection.pullGeneration ∧ ∃ aborted listing full start,
      before = aborted ++ listing ∧ Begins connection aborted full start ∧
      Completed connection full start cursor listing := by
  obtain ⟨hg, reply, v, rfl, hacc⟩ :=
    processPull_ensures connection queries w past before _ after h generation cursor rfl
  refine ⟨hg, ?_⟩
  rcases hacc with hc | ⟨hfull, aborted, request, listing, rfl, hc⟩
  · exact ⟨[⟨.authorize, reply⟩], v, _, _, rfl, .inl ⟨by simp, rfl, rfl⟩, hc⟩
  · refine ⟨⟨.authorize, reply⟩ ::
      (aborted ++ [⟨.listChanges request, .error (.provider .fullResync)⟩]), listing, true,
      wholeWindow, by simp, .inr ⟨?_, hfull, rfl, rfl⟩, hc⟩
    exact ⟨⟨.authorize, reply⟩ :: aborted, request, rfl⟩

end

/-! ### A cursor that expires on its second page -/

/-- A connection of a week ago. -/
def expired : CalendarConnectionRow where
  id := 1
  companyId := 1
  userId := 7
  syncCursor := some "old"
  pullFullSync := false
  pullGeneration := 3

def gone : CalendarLinkRow where
  id := 4
  companyId := 1
  connectionId := 1
  taskId := 9
  providerEventId := "event"
  providerInstanceId := "event"
  providerSeriesId := none
  providerVersion := some "v1"
  linkState := .active

/-- The first page still names the event; then the cursor is rejected, and the new listing does
not name it, since it has been deleted. -/
def deletedMeanwhile : World Failure Reply
  | _, .authorize => .ok ()
  | _, .renewPullLease .. => .ok "renewed"
  | past, .listChanges request =>
    if request.window then .ok ⟨[], none, some "fresh"⟩
    else if request.pageToken = none then .ok ⟨[⟨"event", some "v1", false⟩], some "2", none⟩
    else if past.length < 12 then .error (.provider .fullResync)
    else .error (.provider .retry)
  | _, .readLink _ => .ok [gone]
  | _, .readLinks _ => .ok [gone]
  | past, .getEvent _ =>
    if past.length < 8 then .ok (removedProviderObservation "event" (some "v1"))
    else .error (.provider .notFound)
  | _, .applyProviderEvent .. => .ok "converged"
  | _, .markEventRemoved .. => .ok "event_removed"
  | _, .markRefused .. => .ok "refused"
  | _, .refreshTaskReminders .. => .ok ()
  | _, .commitPull .. => .ok "committed"

/-- Both the notice of the first listing and the absence from the second one are settled before
the new cursor is committed. -/
theorem commit_accounts_expired : ∃ before answer,
    (processPull expired 1 deletedMeanwhile []).2 =
      before ++ [⟨.commitPull 3 (some "fresh"), answer⟩] ∧
    ∃ aborted listing full start, before = aborted ++ listing ∧
      Begins expired aborted full start ∧
      Completed expired full start (some "fresh") listing := by
  have hlast : ((processPull expired 1 deletedMeanwhile []).2.map (·.query)).getLast? =
      some (.commitPull 3 (some "fresh")) := by decide +kernel
  rw [List.getLast?_map] at hlast
  obtain ⟨⟨q, answer⟩, he, rfl⟩ := Option.map_eq_some_iff.1 hlast
  obtain ⟨before, htrace⟩ := List.getLast?_eq_some_iff.1 he
  exact ⟨before, answer, htrace,
    (commit_accounts expired 1 deletedMeanwhile [] before [] 3 (some "fresh") answer htrace).2⟩

end CalendarPull
