/-
**Contacts, their numbers and their threads.**

A contact of a company has a primary number and any number of others; a thread is with a number of a
contact, on a line of the company.  A contact that is merged into another one stays as a tombstone
with a forwarding address, and a trigger on the tables of conversations and calls follows it, one
hop.  The consent ledger is written by triggers as well.

Everything here is one SQL function or statement that runs as one transaction, on the rows of one
company: `20260802020000_contact_merge.sql`, `20260802030000_contact_merge_follow.sql`,
`20260804120000_contact_phones.sql`, `20260805060000_paid_pause.sql`,
`20260806100000_consent_ledger_outlives_the_contact.sql` and `20260814020000_…`.  An id that
`gen_random_uuid()` gives is one that nothing has had before.

Main definitions:

* `Contacts.Store` — the tables;
* `Contacts.Store.writeOptOut`, `Contacts.Store.insertContact`, `Contacts.Store.updateContact` — the
  writes that a trigger of the ledger sees;
* `Contacts.mergeContacts`, `Contacts.unmergeContact`, `Contacts.Store.follow` — tombstones;
* `Contacts.threadInbound`, `Contacts.threadCall`, `Contacts.claimMissedCallText` — the three ways
  into a thread.
-/

import Texturion.OptOuts
import Texturion.SqlTable

namespace Contacts

open SqlTable OptOuts

abbrev Phone := String

/-! ### The tables -/

/-- `consent_source_t`. -/
inductive ConsentSource
  | inboundSms
  | attested
  | widgetForm
  deriving DecidableEq

/-- A row of `contacts`; instants are in milliseconds. -/
structure Contact where
  id : Uuid
  phone : Phone
  consentSource : Option ConsentSource
  consentAt : Option ℤ
  consentAttestedBy : Option Uuid
  createdBy : Option Uuid
  deletedAt : Option ℤ
  mergedInto : Option Uuid
  deriving DecidableEq

/-- A row of `contact_phones`: another number of a contact. -/
structure ContactPhone where
  contactId : Uuid
  phone : Phone
  deriving DecidableEq

/-- `conversation_status`; `open` is `opened`. -/
inductive ConversationStatus
  | new
  | opened
  | waiting
  | closed
  deriving DecidableEq

/-- A row of `conversations`: a thread with a number of a contact, on a line of the company. -/
structure Conversation where
  id : Uuid
  contactId : Uuid
  phoneNumberId : Uuid
  contactPhone : Phone
  status : ConversationStatus
  isSpam : Bool
  closedAt : Option ℤ
  lastAutoReplyAt : Option ℤ
  deriving DecidableEq

/-- A row of `calls`. -/
structure Call where
  id : Uuid
  contactId : Option Uuid
  deriving DecidableEq

/-- An inbound row of `messages`. -/
structure Message where
  telnyxMessageId : String
  conversationId : Uuid
  body : String
  deriving DecidableEq

/-- What the thread says of a call, under the key that is looked for before it is written. -/
structure CallEvent where
  key : String
  conversationId : Uuid
  deriving DecidableEq

/-- `contact_consent_events.state`. -/
inductive ConsentState
  | implied
  | express
  | revoked
  deriving DecidableEq

/-- `contact_consent_events.source`. -/
inductive LedgerSource
  | consent (source : ConsentSource)
  | optOut (source : Source)
  | startKeyword
  | manual
  deriving DecidableEq

/-- A row of `contact_consent_events`; `optOutSource` is the one in its evidence. -/
structure ConsentEvent where
  contactId : Option Uuid
  phone : Phone
  state : ConsentState
  source : LedgerSource
  capturedBy : Option Uuid
  capturedAt : ℤ
  optOutSource : Option Source
  recordedOnContactCreate : Bool
  deriving DecidableEq

/-- The tables; `nextId` is the next id that `gen_random_uuid()` gives. -/
structure Store where
  contacts : List Contact
  contactPhones : List ContactPhone
  conversations : List Conversation
  calls : List Call
  messages : List Message
  /-- `call_completed`, by the session of the call. -/
  callEvents : List CallEvent
  /-- `missed_call`, by the id of the call. -/
  missedCalls : List CallEvent
  optOuts : Phone → Option OptOut
  ledger : List ConsentEvent
  nextId : Uuid

/-! ### The ledger -/

/-- `contacts_record_consent`: a contact that gets a basis for consent. -/
def recordConsent (old : Option Contact) (c : Contact) : List ConsentEvent :=
  match c.consentAt with
  | none => []
  | some consentAt =>
    if old.any fun o => o.consentAt.isSome then []
    else
      [{ contactId := some c.id
         phone := c.phone
         state := if c.consentSource = some .inboundSms then .implied else .express
         source := (c.consentSource.map .consent).getD .manual
         capturedBy := c.consentAttestedBy
         capturedAt := consentAt
         optOutSource := none
         recordedOnContactCreate := false }]

/-- `contacts_record_standing_revocation`: a contact whose number is opted out already. -/
def recordStandingRevocation (c : Contact) (row : Option OptOut) : List ConsentEvent :=
  match row.filter OptOut.active with
  | none => []
  | some r =>
    [{ contactId := some c.id
       phone := c.phone
       state := .revoked
       source := .optOut r.source
       capturedBy := r.createdBy
       capturedAt := r.createdAt
       optOutSource := some r.source
       recordedOnContactCreate := true }]

def optOutEvent (now : ℤ) (c : Contact) (r : OptOut) : ConsentEvent where
  contactId := some c.id
  phone := c.phone
  state := if r.active then .revoked else .express
  source := if r.active then .optOut r.source
    else if r.source = .stopKeyword then .startKeyword else .manual
  capturedBy := r.createdBy
  capturedAt := if r.active then r.createdAt else r.revokedAt.getD now
  optOutSource := some r.source
  recordedOnContactCreate := false

/-- `opt_outs_record_consent`, for the contact that has the number as its primary one. -/
def recordOptOut (now : ℤ) (contact : Option Contact) (old new : Option OptOut) :
    List ConsentEvent :=
  match new, contact with
  | some r, some c => if old.any fun o => o.active == r.active then [] else [optOutEvent now c r]
  | _, _ => []

namespace Store

variable (s : Store)

def find (id : Uuid) : Option Contact := s.contacts.find? fun c => c.id == id

def primary (phone : Phone) : Option Contact := s.contacts.find? fun c => c.phone == phone

/-- A statement on the row of a number in `opt_outs`. -/
def writeOptOut (now : ℤ) (phone : Phone) (w : Statement) : Store :=
  let row := w.apply now s.nextId (s.optOuts phone)
  { s with
    optOuts := Function.update s.optOuts phone row
    ledger := s.ledger ++ recordOptOut now (s.primary phone) (s.optOuts phone) row
    nextId := s.nextId + 1 }

/-- `insert into contacts`, where the number is not yet there. -/
def insertContact (c : Contact) : Store :=
  if (s.primary c.phone).isSome then s
  else
    { s with
      contacts := s.contacts ++ [c]
      ledger := s.ledger ++ recordConsent none c ++
        recordStandingRevocation c (s.optOuts c.phone) }

/-- `update contacts set … where id = …`. -/
def updateContact (id : Uuid) (f : Contact → Contact) : Store :=
  { s with
    contacts := update (fun c => c.id == id) f s.contacts
    ledger := s.ledger ++ (s.contacts.filter fun c => c.id == id).flatMap fun c =>
      recordConsent (some c) (f c) }

/-- `follow_merged_contact`: one hop. -/
def follow (id : Uuid) : Uuid := ((s.find id).bind (·.mergedInto)).getD id

/-- `insert into contact_phones`; a number is there once, and is another number of a contact. -/
def insertContactPhone (contactId : Uuid) (phone : Phone) : Store :=
  if (s.find contactId).isNone || s.contactPhones.any (·.phone == phone) then s
  else { s with
    contactPhones := s.contactPhones ++ [{ contactId := contactId, phone := phone }] }

/-- `delete from contact_phones`. -/
def deleteContactPhone (phone : Phone) : Store :=
  { s with contactPhones := s.contactPhones.filter fun p => p.phone != phone }

/-- `delete from contacts`, which its conversations and its tombstones restrict; its other numbers
go with it, and the ledger and the calls let go of it. -/
def deleteContact (id : Uuid) : Store :=
  if s.conversations.any (·.contactId == id) || s.contacts.any (·.mergedInto == some id) then s
  else
    { s with
      contacts := s.contacts.filter fun c => c.id != id
      contactPhones := s.contactPhones.filter fun p => p.contactId != id
      calls := update (fun c => c.contactId == some id) (fun c => { c with contactId := none })
        s.calls
      ledger := update (fun e => e.contactId == some id) (fun e => { e with contactId := none })
        s.ledger }

/-- A write of a row of `calls`, which follows the tombstone of its contact. -/
def writeCall (id : Uuid) (contactId : Option Uuid) : Store :=
  { s with
    calls := (s.calls.filter fun c => c.id != id) ++
      [{ id := id, contactId := contactId.map s.follow }] }

/-- A member closes a conversation, or marks it as spam, which closes it too. -/
def closeConversation (now : ℤ) (id : Uuid) : Store :=
  { s with
    conversations := update (fun c => c.id == id && c.status != .closed)
      (fun c => { c with status := .closed, closedAt := some now }) s.conversations }

def setSpam (now : ℤ) (id : Uuid) (isSpam : Bool) : Store :=
  { s with
    conversations := update (fun c => c.id == id && c.isSpam != isSpam)
      (fun c => if isSpam then
          { c with isSpam := true, status := .closed, closedAt := c.closedAt.or (some now) }
        else { c with isSpam := false }) s.conversations }

end Store

/-! ### Merges -/

inductive MergeOutcome
  | sameContact
  | notFound
  | alreadyMerged
  | merged (moved closed : ℕ) (optedOut : Bool)
  deriving DecidableEq

def Conversation.openOn (contactId phoneNumberId : Uuid) (c : Conversation) : Bool :=
  c.contactId == contactId && c.phoneNumberId == phoneNumberId && c.closedAt.isNone

/-- The conversation arrives at a survivor that has an open one on its line. -/
def collides (into : Uuid) (conversations : List Conversation) (c : Conversation) : Bool :=
  c.closedAt.isNone && conversations.any (·.openOn into c.phoneNumberId)

def moveConversation (now : ℤ) (into : Uuid) (conversations : List Conversation)
    (c : Conversation) : List Conversation :=
  if collides into conversations c then
    update (fun d => d.id == c.id)
      (fun d => { d with contactId := into, status := .closed, closedAt := some now })
      conversations
  else update (fun d => d.id == c.id) (fun d => { d with contactId := into }) conversations

def moveConversations (now : ℤ) (fromId into : Uuid) (conversations : List Conversation) :
    List Conversation :=
  (conversations.filter fun c => c.contactId == fromId).foldl (moveConversation now into)
    conversations

def uniteOptOuts (now : ℤ) (actor : Option Uuid) (a b : Phone) (s : Store) : Store :=
  if isActive (s.optOuts a) || isActive (s.optOuts b) then
    (s.writeOptOut now a (.union actor)).writeOptOut now b (.union actor)
  else s

/-- The writes of a merge: the conversations and the calls move, the opt-outs are united, the one
contact becomes a tombstone, and the other inherits what it was missing. -/
def mergeInto (now : ℤ) (actor : Option Uuid) (fromId intoId : Uuid) (a b : Contact) (s : Store) :
    Store :=
  let moved := { s with
    conversations := moveConversations now fromId (s.follow intoId) s.conversations
    calls := update (fun c => c.contactId == some fromId)
      (fun c => { c with contactId := some (s.follow intoId) }) s.calls }
  let united := uniteOptOuts now actor a.phone b.phone moved
  let buried := united.updateContact fromId fun c => { c with mergedInto := some intoId }
  buried.updateContact intoId fun c =>
    { c with
      consentSource := c.consentSource.or a.consentSource
      consentAt := c.consentAt.or a.consentAt }

/-- `api_merge_contacts`. -/
def mergeContacts (now : ℤ) (actor : Option Uuid) (fromId intoId : Uuid) (s : Store) :
    Store × MergeOutcome :=
  if fromId = intoId then (s, .sameContact)
  else
    match s.find fromId, s.find intoId with
    | some a, some b =>
      if a.mergedInto.isSome || b.mergedInto.isSome then (s, .alreadyMerged)
      else
        let merged := mergeInto now actor fromId intoId a b s
        let isClosed := fun c : Conversation => c.closedAt.isSome
        (merged, .merged (s.conversations.countP (·.contactId == fromId))
          (merged.conversations.countP isClosed - s.conversations.countP isClosed)
          (isActive (s.optOuts a.phone) || isActive (s.optOuts b.phone)))
    | _, _ => (s, .notFound)

inductive UnmergeOutcome
  | notFound
  | notMerged
  | unmerged (phone : Phone)
  deriving DecidableEq

/-- `api_unmerge_contact`: the tombstone becomes a contact again, and nothing else is undone. -/
def unmergeContact (id : Uuid) (s : Store) : Store × UnmergeOutcome :=
  match s.find id with
  | none => (s, .notFound)
  | some c =>
    if c.mergedInto.isNone then (s, .notMerged)
    else (s.updateContact id fun c => { c with mergedInto := none }, .unmerged c.phone)

/-! ### Threads -/

/-- The columns of a new contact. -/
def Contact.fresh (id : Uuid) (phone : Phone) (consentSource : Option ConsentSource)
    (consentAt : Option ℤ) : Contact where
  id := id
  phone := phone
  consentSource := consentSource
  consentAt := consentAt
  consentAttestedBy := none
  createdBy := none
  deletedAt := none
  mergedInto := none

/-- What a text or a call stamps on the contact: it is back, and has consented once. -/
def Contact.heard (now : ℤ) (c : Contact) : Contact :=
  { c with
    deletedAt := none
    consentSource := c.consentSource.or (some .inboundSms)
    consentAt := c.consentAt.or (some now) }

/-- The contact that has the number: as another number of it, else as its primary one. -/
def Store.owner (phone : Phone) (s : Store) : Option Uuid :=
  ((s.contactPhones.find? fun p => p.phone == phone).map (·.contactId)).or
    ((s.primary phone).map (·.id))

/-- The contact that a text or a call from the number is from; it is inserted where there is
none. -/
def resolveContact (now : ℤ) (phone : Phone) (s : Store) : Store × Uuid :=
  match s.owner phone with
  | some id => (s.updateContact id (.heard now), id)
  | none =>
    ({ s with nextId := s.nextId + 1 }.insertContact
      (.fresh s.nextId phone (some .inboundSms) (some now)), s.nextId)

/-- The thread of a line with a number of a contact. -/
def Conversation.isWith (phoneNumberId contactId : Uuid) (phone : Phone) (c : Conversation) :
    Bool :=
  c.phoneNumberId == phoneNumberId && c.contactId == contactId && c.contactPhone == phone

def lastClosed (conversations : List Conversation) : Option Conversation :=
  (firstBy (fun c => -c.closedAt.getD 0) 1 conversations).head?

/-- Thirty days. -/
def reopenWindow : ℤ := 30 * 86400000

/-- Where a text or a call goes. -/
inductive Place
  /-- The open conversation. -/
  | append (c : Conversation)
  /-- A closed conversation that is spam, and stays closed. -/
  | absorb (c : Conversation)
  | reopen (c : Conversation)
  | create
  deriving DecidableEq

/-- Rules 2 to 5 of `thread_inbound_message`. -/
def inboundPlace (now : ℤ) (phoneNumberId contactId : Uuid) (phone : Phone)
    (conversations : List Conversation) : Place :=
  let ours := conversations.filter (·.isWith phoneNumberId contactId phone)
  match ours.find? (·.closedAt.isNone) with
  | some c => .append c
  | none =>
    match lastClosed (ours.filter (·.closedAt.isSome)) with
    | none => .create
    | some c =>
      if c.isSpam then .absorb c
      else if c.closedAt.any fun closedAt => decide (now - reopenWindow ≤ closedAt) then
        .reopen c
      else .create

/-- The rules of `claim_missed_call_text`, which leave a spam thread alone. -/
def missedCallPlace (now : ℤ) (phoneNumberId contactId : Uuid) (phone : Phone)
    (conversations : List Conversation) : Place :=
  let ours := conversations.filter (·.isWith phoneNumberId contactId phone)
  match ours.find? (·.closedAt.isNone) with
  | some c => .append c
  | none =>
    match lastClosed (ours.filter fun c => c.closedAt.isSome && !c.isSpam) with
    | none => .create
    | some c =>
      if c.closedAt.any fun closedAt => decide (now - reopenWindow ≤ closedAt) then .reopen c
      else .create

/-- How the database finds one of the rows that meet a condition, where no order is asked for. -/
structure Picker where
  pick : List Conversation → Option Conversation
  mem : ∀ {rows c}, pick rows = some c → c ∈ rows
  finds : ∀ {rows}, rows ≠ [] → (pick rows).isSome = true

/-- The rules of `api_thread_call`, which asks for an open conversation of the contact on the
line. -/
def callPlace (picker : Picker) (now : ℤ) (phoneNumberId contactId : Uuid) (phone : Phone)
    (conversations : List Conversation) : Place :=
  match picker.pick (conversations.filter (·.openOn contactId phoneNumberId)) with
  | some c => .append c
  | none =>
    match lastClosed (conversations.filter fun c =>
        c.isWith phoneNumberId contactId phone && (c.closedAt.isSome && !c.isSpam)) with
    | none => .create
    | some c =>
      if c.closedAt.any fun closedAt => decide (now - reopenWindow ≤ closedAt) then .reopen c
      else .create

/-- `update conversations set status = 'new', closed_at = null`. -/
def Conversation.reopened (c : Conversation) : Conversation :=
  { c with status := .new, closedAt := none }

/-- The insert of a conversation, which follows the tombstone of its contact, and `on conflict do
nothing` with the open conversation that is there. -/
def Store.insertConversation (phoneNumberId contactId : Uuid) (phone : Phone) (s : Store) :
    Option Store :=
  let survivor := s.follow contactId
  if s.conversations.any fun c => c.isWith phoneNumberId survivor phone && c.closedAt.isNone then
    none
  else some
    { s with
      conversations := s.conversations ++
        [{ id := s.nextId
           contactId := survivor
           phoneNumberId := phoneNumberId
           contactPhone := phone
           status := .new
           isSpam := false
           closedAt := none
           lastAutoReplyAt := none }]
      nextId := s.nextId + 1 }

/-- The conversation is there for what is threaded; `waits` says whether an open conversation stops
waiting.  Nothing comes back where the insert conflicts and the conversation that it conflicts with
is not found: the function raises. -/
def Store.takePlace (waits : Bool) (phoneNumberId contactId : Uuid) (phone : Phone) (s : Store) :
    Place → Option (Store × Uuid)
  | .append c => some
      ({ s with
          conversations := update (fun d => d.id == c.id && waits && d.status == .waiting)
            (fun d => { d with status := .opened }) s.conversations }, c.id)
  | .absorb c => some (s, c.id)
  | .reopen c => some
      ({ s with conversations := update (fun d => d.id == c.id) .reopened s.conversations }, c.id)
  | .create =>
    match s.insertConversation phoneNumberId contactId phone with
    | some inserted => some (inserted, s.nextId)
    | none =>
      (s.conversations.find? fun c =>
        c.isWith phoneNumberId contactId phone && c.closedAt.isNone).map fun c => (s, c.id)

/-- An inbound text from the carrier. -/
structure InboundText where
  phoneNumberId : Uuid
  fromE164 : Phone
  body : String
  telnyxMessageId : String
  deriving DecidableEq

inductive Threaded
  /-- The text is in a thread already. -/
  | duplicate (conversationId : Uuid)
  | created (conversationId : Uuid)
  /-- `lost conversation race`, and nothing is written. -/
  | raised
  deriving DecidableEq

/-- `thread_inbound_message`. -/
def threadInbound (now : ℤ) (m : InboundText) (s : Store) : Store × Threaded :=
  match s.messages.find? fun stored => stored.telnyxMessageId == m.telnyxMessageId with
  | some stored => (s, .duplicate stored.conversationId)
  | none =>
    let (known, contactId) := resolveContact now m.fromE164 s
    match known.takePlace true m.phoneNumberId contactId m.fromE164
        (inboundPlace now m.phoneNumberId contactId m.fromE164 known.conversations) with
    | none => (s, .raised)
    | some (placed, conversationId) =>
      ({ placed with
          messages := placed.messages ++
            [{ telnyxMessageId := m.telnyxMessageId
               conversationId := conversationId
               body := m.body }] }, .created conversationId)

/-- The arguments of `api_thread_call`. -/
structure CallRecord where
  phoneNumberId : Uuid
  callerE164 : Phone
  callSessionId : String
  createIfMissing : Bool
  deriving DecidableEq

inductive CallThreaded
  /-- `{}`. -/
  | nothing
  | threaded (contactId conversationId : Uuid) (eventInserted : Bool)
  | raised
  deriving DecidableEq

/-- The contact of a call; without `p_create_if_missing` none is inserted, and one that is deleted
stays so. -/
def callContact (now : ℤ) (k : CallRecord) (s : Store) : Option (Store × Uuid) :=
  if k.createIfMissing || s.contactPhones.any (·.phone == k.callerE164) then
    some (resolveContact now k.callerE164 s)
  else ((s.primary k.callerE164).filter (·.deletedAt.isNone)).map fun c => (s, c.id)

/-- The line in the thread, once for each session of a call. -/
def recordCall (sessionId : String) (conversationId : Uuid) (s : Store) : Store × Bool :=
  let event : CallEvent := { key := sessionId, conversationId := conversationId }
  if s.callEvents.contains event then (s, false)
  else ({ s with callEvents := s.callEvents ++ [event] }, true)

/-- `api_thread_call`. -/
def threadCall (picker : Picker) (now : ℤ) (k : CallRecord) (s : Store) : Store × CallThreaded :=
  if k.callerE164.isEmpty then (s, .nothing)
  else
    match callContact now k s with
    | none => (s, .nothing)
    | some (known, contactId) =>
      let place := callPlace picker now k.phoneNumberId contactId k.callerE164 known.conversations
      let append := match place with
        | .append _ => true
        | _ => false
      if !append && !k.createIfMissing then (known, .nothing)
      else
        match known.takePlace false k.phoneNumberId contactId k.callerE164 place with
        | none => (s, .raised)
        | some (placed, conversationId) =>
          let recorded := recordCall k.callSessionId conversationId placed
          (recorded.1, .threaded contactId conversationId recorded.2)

/-- The arguments of `claim_missed_call_text`. -/
structure MissedCall where
  phoneNumberId : Uuid
  callerE164 : Phone
  callId : String
  body : String
  segmentsEstimate : ℤ
  throttleSeconds : ℤ
  deriving DecidableEq

/-- What `claim_missed_call_text` finds in the other tables: the company and its line,
`company_send_block`, `outbound_spend_check`, and whether the text of a call that is claimed already
has not reached the carrier. -/
structure SendFacts where
  companyFound : Bool
  numberOwned : Bool
  sendBlock : Option String
  spendError : Option String
  priorUnsent : Bool
  deriving DecidableEq

inductive MissedCallClaim
  | skipped (reason : String)
  | replayed (conversationId : Uuid)
  | claimed (conversationId : Uuid) (createdConversation : Bool)
  | raised
  deriving DecidableEq

/-- `length(trim(text)) = 0`. -/
def isBlank (text : String) : Bool := text.toList.all (· == ' ')

def textBack (now : ℤ) (k : MissedCall) (facts : SendFacts) (conversationId : Uuid) (created : Bool)
    (s : Store) : Store × MissedCallClaim :=
  if isActive (s.optOuts k.callerE164) then (s, .skipped "recipient_opted_out")
  else if s.conversations.any fun c => c.id == conversationId && c.lastAutoReplyAt.any fun last =>
      decide (now - k.throttleSeconds * 1000 < last) then
    (s, .skipped "throttled")
  else
    match facts.spendError with
    | some reason => (s, .skipped reason)
    | none =>
      ({ s with
          conversations := update (fun c => c.id == conversationId)
            (fun c => { c with lastAutoReplyAt := some now }) s.conversations
          missedCalls := s.missedCalls ++
            [{ key := k.callId, conversationId := conversationId }] },
        .claimed conversationId created)

def claimMissedCallText (now : ℤ) (k : MissedCall) (facts : SendFacts) (s : Store) :
    Store × MissedCallClaim :=
  if isBlank k.callerE164 || isBlank k.callId || isBlank k.body || k.segmentsEstimate < 1 ||
      k.throttleSeconds < 0 then
    (s, .skipped "not_found")
  else if !facts.companyFound || !facts.numberOwned then (s, .skipped "not_found")
  else
    match facts.sendBlock, s.missedCalls.find? fun e => e.key == k.callId with
    | some reason, _ => (s, .skipped reason)
    | none, some prior =>
      if facts.priorUnsent then (s, .replayed prior.conversationId) else (s, .skipped "duplicate")
    | none, none =>
      let (known, contactId) := resolveContact now k.callerE164 s
      let place :=
        missedCallPlace now k.phoneNumberId contactId k.callerE164 known.conversations
      match known.takePlace true k.phoneNumberId contactId k.callerE164 place with
      | none => (s, .raised)
      | some (placed, conversationId) =>
        textBack now k facts conversationId (place = .create) placed

end Contacts
