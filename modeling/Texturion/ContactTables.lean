/-
**Well-formed tables of contacts and threads.**

The constraints of the database on `contacts`, `contact_phones`, `conversations` and `messages`, and
that the statements and functions of `Texturion/ContactStore.lean` keep them: the writes of a
contact, the writes of conversations, and the three ways into a thread.

Main result:

* `Contacts.WellFormed.threadInbound`, `Contacts.WellFormed.threadCall`,
  `Contacts.WellFormed.claimMissedCallText` — and so do the three functions.
-/

import Texturion.ContactStore
import Texturion.Fallible

namespace Contacts

open SqlTable OptOuts Fallible

/-- `conversations_open_uq`. -/
def OpenOnce (conversations : List Conversation) : Prop :=
  ∀ c ∈ conversations, ∀ d ∈ conversations, c.closedAt = none → d.closedAt = none →
    c.phoneNumberId = d.phoneNumberId → c.contactId = d.contactId →
    c.contactPhone = d.contactPhone → c.id = d.id

/-- What the tables are like at any time. -/
structure WellFormed (s : Store) : Prop where
  contactIds : (s.contacts.map (·.id)).Nodup
  contactsOld : ∀ c ∈ s.contacts, c.id < s.nextId
  numberContact : ∀ p ∈ s.contactPhones, ∃ c ∈ s.contacts, c.id = p.contactId
  survivor : ∀ c ∈ s.contacts, ∀ w, c.mergedInto = some w → ∃ d ∈ s.contacts, d.id = w
  conversationIds : (s.conversations.map (·.id)).Nodup
  conversationsOld : ∀ c ∈ s.conversations, c.id < s.nextId
  conversationContact : ∀ c ∈ s.conversations, ∃ d ∈ s.contacts, d.id = c.contactId
  openOnce : OpenOnce s.conversations
  /-- `messages_telnyx_id_uq`. -/
  messageIds : (s.messages.map (·.telnyxMessageId)).Nodup

def Store.empty : Store where
  contacts := []
  contactPhones := []
  conversations := []
  calls := []
  messages := []
  callEvents := []
  missedCalls := []
  optOuts _ := none
  ledger := []
  nextId := 0

theorem wellFormed_empty : WellFormed .empty := by
  constructor <;> simp [Store.empty, OpenOnce]

/-! ### Finding a contact -/

variable {s : Store} {id phoneNumberId contactId : Uuid} {f : Contact → Contact}
  {conversations : List Conversation} {c : Conversation} {phone : Phone}

theorem WellFormed.find_eq_some (hs : WellFormed s) {c : Contact} :
    s.find id = some c ↔ c ∈ s.contacts ∧ c.id = id :=
  find?_key_eq_some hs.contactIds

theorem find_none : s.find id = none ↔ ∀ c ∈ s.contacts, c.id ≠ id := by
  simp [Store.find, List.find?_eq_none]

/-! ### Writes of contacts -/

/-- The contacts, by their ids and forwarding addresses. -/
def links (s : Store) : List (Uuid × Option Uuid) := s.contacts.map fun c => (c.id, c.mergedInto)

theorem mem_links {x : Uuid × Option Uuid} :
    x ∈ links s ↔ ∃ c ∈ s.contacts, (c.id, c.mergedInto) = x := List.mem_map

theorem mem_links_of_mem {c : Contact} (hc : c ∈ s.contacts) :
    (c.id, c.mergedInto) ∈ links s := List.mem_map_of_mem hc

/-- A write of a contact that leaves its id, its number and its forwarding address alone. -/
structure Plain (f : Contact → Contact) : Prop where
  id : ∀ c, (f c).id = c.id
  phone : ∀ c, (f c).phone = c.phone
  mergedInto : ∀ c, (f c).mergedInto = c.mergedInto

theorem plain_heard (now : ℤ) : Plain (Contact.heard now) :=
  ⟨fun _ => rfl, fun _ => rfl, fun _ => rfl⟩

theorem map_updateContact {α : Type*} {column : Contact → α} (h : ∀ c, column (f c) = column c)
    (s : Store) (id : Uuid) : (s.updateContact id f).contacts.map column = s.contacts.map column :=
  map_update h s.contacts

theorem links_updateContact {g : Uuid × Option Uuid → Uuid × Option Uuid}
    (hf : ∀ c, ((f c).id, (f c).mergedInto) = g (c.id, c.mergedInto)) (s : Store) (id : Uuid) :
    links (s.updateContact id f) = update (fun x => x.1 == id) g (links s) := by
  simp only [links, Store.updateContact, update, List.map_map]
  refine List.map_congr_left fun c _ => ?_
  simp only [Function.comp_apply]
  split_ifs
  · exact hf c
  · rfl

theorem Plain.links (hf : Plain f) (s : Store) (id : Uuid) :
    links (s.updateContact id f) = links s := by
  have hpair : ∀ c : Contact, ((f c).id, (f c).mergedInto) = (c.id, c.mergedInto) := by
    intro c
    rw [hf.id, hf.mergedInto]
  rw [links_updateContact (g := fun x => x) hpair]
  exact update_id _ _

section

variable (hs : WellFormed s)
include hs

/-- A write of one contact that keeps ids, and forwards to a contact that is there. -/
theorem WellFormed.updateContact (id : Uuid) (hid : ∀ c, (f c).id = c.id)
    (hsurvivor : ∀ c ∈ s.contacts, c.id = id → ∀ w, (f c).mergedInto = some w →
      ∃ d ∈ s.contacts, d.id = w) : WellFormed (s.updateContact id f) := by
  have hids : (s.updateContact id f).contacts.map (·.id) = s.contacts.map (·.id) :=
    map_updateContact hid s id
  have hthere : ∀ w, (∃ d ∈ s.contacts, d.id = w) →
      ∃ d ∈ (s.updateContact id f).contacts, d.id = w := by
    intro w hw
    have hmem : w ∈ s.contacts.map (·.id) := List.mem_map.2 hw
    rw [← hids] at hmem
    exact List.mem_map.1 hmem
  refine { hs with
    contactIds := by rw [hids]; exact hs.contactIds
    contactsOld := ?_
    numberContact := fun p hp => hthere _ (hs.numberContact p hp)
    survivor := ?_
    conversationContact := fun c hc => hthere _ (hs.conversationContact c hc) }
  · intro c hc
    rcases mem_update.1 hc with ⟨hc, -⟩ | ⟨a, ha, -, rfl⟩
    · exact hs.contactsOld c hc
    · rw [hid]
      exact hs.contactsOld a ha
  · intro c hc w hw
    rcases mem_update.1 hc with ⟨hc, -⟩ | ⟨a, ha, haid, rfl⟩
    · exact hthere _ (hs.survivor c hc w hw)
    · exact hthere _ (hsurvivor a ha (by simpa using haid) w hw)

theorem WellFormed.updatePlain (id : Uuid) (hf : Plain f) : WellFormed (s.updateContact id f) := by
  refine hs.updateContact id hf.id fun c hc _ w hw => ?_
  rw [hf.mergedInto] at hw
  exact hs.survivor c hc w hw

theorem WellFormed.insertContact {c : Contact} (hid : c.id = s.nextId)
    (hmerged : c.mergedInto = none) :
    WellFormed ({ s with nextId := s.nextId + 1 }.insertContact c) := by
  have hlater : WellFormed { s with nextId := s.nextId + 1 } :=
    { hs with
      contactsOld := fun d hd => Nat.lt_succ_of_lt (hs.contactsOld d hd)
      conversationsOld := fun d hd => Nat.lt_succ_of_lt (hs.conversationsOld d hd) }
  unfold Store.insertContact
  split
  · exact hlater
  · have hthere : ∀ w, (∃ d ∈ s.contacts, d.id = w) → ∃ d ∈ s.contacts ++ [c], d.id = w := by
      rintro w ⟨d, hd, hdid⟩
      exact ⟨d, List.mem_append_left _ hd, hdid⟩
    refine { hlater with
      contactIds := ?_
      contactsOld := ?_
      numberContact := fun p hp => hthere _ (hs.numberContact p hp)
      survivor := ?_
      conversationContact := fun d hd => hthere _ (hs.conversationContact d hd) }
    · rw [List.map_append, List.map_singleton, List.nodup_append]
      refine ⟨hs.contactIds, List.nodup_singleton _, ?_⟩
      rintro a ha b hb rfl
      obtain ⟨d, hd, rfl⟩ := List.mem_map.1 ha
      have hold := hs.contactsOld d hd
      rw [List.mem_singleton.1 hb, hid] at hold
      exact Nat.lt_irrefl _ hold
    · intro d hd
      rcases List.mem_append.1 hd with hd | hd
      · exact Nat.lt_succ_of_lt (hs.contactsOld d hd)
      · rw [List.mem_singleton.1 hd, hid]
        exact Nat.lt_succ_self _
    · intro d hd w hw
      rcases List.mem_append.1 hd with hd | hd
      · exact hthere _ (hs.survivor d hd w hw)
      · rw [List.mem_singleton.1 hd, hmerged] at hw
        cases hw

theorem WellFormed.writeOptOut (now : ℤ) (phone : Phone)
    (w : Statement) : WellFormed (s.writeOptOut now phone w) :=
  { hs with
    contactsOld := fun d hd => Nat.lt_succ_of_lt (hs.contactsOld d hd)
    conversationsOld := fun d hd => Nat.lt_succ_of_lt (hs.conversationsOld d hd) }

end

/-! ### Writes of conversations -/

/-- A write of conversations that leaves alone what they are with, and opens none. -/
structure Closing (f : Conversation → Conversation) : Prop where
  id : ∀ c, (f c).id = c.id
  phoneNumberId : ∀ c, (f c).phoneNumberId = c.phoneNumberId
  contactId : ∀ c, (f c).contactId = c.contactId
  contactPhone : ∀ c, (f c).contactPhone = c.contactPhone
  closedAt : ∀ c, (f c).closedAt = none → c.closedAt = none

theorem WellFormed.withConversations (hs : WellFormed s)
    (hids : conversations.map (·.id) = s.conversations.map (·.id))
    (hcontact : ∀ c ∈ conversations, ∃ d ∈ s.contacts, d.id = c.contactId)
    (hopen : OpenOnce conversations) : WellFormed { s with conversations := conversations } :=
  { hs with
    conversationIds := by
      change (conversations.map (·.id)).Nodup
      rw [hids]
      exact hs.conversationIds
    conversationsOld := by
      intro c hc
      have hmem : c.id ∈ s.conversations.map (·.id) := hids ▸ List.mem_map_of_mem hc
      obtain ⟨d, hd, hid⟩ := List.mem_map.1 hmem
      rw [← hid]
      exact hs.conversationsOld d hd
    conversationContact := hcontact
    openOnce := hopen }

theorem WellFormed.updateConversations (hs : WellFormed s) (p : Conversation → Bool)
    {f : Conversation → Conversation} (hf : Closing f) :
    WellFormed { s with conversations := update p f s.conversations } := by
  -- each row comes from one that is with the same number, and was open if it is
  have hfrom : ∀ c ∈ update p f s.conversations, ∃ a ∈ s.conversations, c.id = a.id ∧
      c.phoneNumberId = a.phoneNumberId ∧ c.contactId = a.contactId ∧
      c.contactPhone = a.contactPhone ∧ (c.closedAt = none → a.closedAt = none) := by
    intro c hc
    rcases mem_update.1 hc with ⟨hc, -⟩ | ⟨a, ha, -, rfl⟩
    · exact ⟨c, hc, rfl, rfl, rfl, rfl, id⟩
    · exact ⟨a, ha, hf.id a, hf.phoneNumberId a, hf.contactId a, hf.contactPhone a, hf.closedAt a⟩
  refine hs.withConversations (map_update hf.id _) ?_ ?_
  · intro c hc
    obtain ⟨a, ha, -, -, hcontact, -⟩ := hfrom c hc
    rw [hcontact]
    exact hs.conversationContact a ha
  · intro c hc d hd hopenc hopend hline hcontact hphone
    obtain ⟨a, ha, hida, hlinea, hcontacta, hphonea, hopena⟩ := hfrom c hc
    obtain ⟨b, hb, hidb, hlineb, hcontactb, hphoneb, hopenb⟩ := hfrom d hd
    rw [hida, hidb]
    refine hs.openOnce a ha b hb (hopena hopenc) (hopenb hopend) ?_ ?_ ?_
    · rw [← hlinea, ← hlineb, hline]
    · rw [← hcontacta, ← hcontactb, hcontact]
    · rw [← hphonea, ← hphoneb, hphone]

/-- A write of one conversation, which is the only open one of its number if it is open then. -/
theorem OpenOnce.update (hopen : OpenOnce conversations) (hids : (conversations.map (·.id)).Nodup)
    (hc : c ∈ conversations) {f : Conversation → Conversation}
    (hfree : (f c).closedAt = none → ∀ d ∈ conversations, d.id ≠ c.id → d.closedAt = none →
      d.phoneNumberId = (f c).phoneNumberId → d.contactId = (f c).contactId →
      d.contactPhone ≠ (f c).contactPhone) :
    OpenOnce (update (fun d => d.id == c.id) f conversations) := by
  have hrow : ∀ a ∈ conversations, (a.id == c.id) = true → a = c := fun a ha hid =>
    List.inj_on_of_nodup_map hids ha hc (by simpa using hid)
  intro d hd e he hopend hopene hline hcontact hphone
  rcases mem_update.1 hd with ⟨hd', hdid⟩ | ⟨a, ha, haid, rfl⟩
  · rcases mem_update.1 he with ⟨he', -⟩ | ⟨b, hb, hbid, rfl⟩
    · exact hopen d hd' e he' hopend hopene hline hcontact hphone
    · obtain rfl := hrow b hb hbid
      exact absurd hphone (hfree hopene d hd' (by simpa using hdid) hopend hline hcontact)
  · obtain rfl := hrow a ha haid
    rcases mem_update.1 he with ⟨he', heid⟩ | ⟨b, hb, hbid, rfl⟩
    · exact absurd hphone.symm
        (hfree hopend e he' (by simpa using heid) hopene hline.symm hcontact.symm)
    · obtain rfl := hrow b hb hbid
      rfl

theorem WellFormed.reopen (hs : WellFormed s) (hc : c ∈ s.conversations)
    (hnone : ∀ d ∈ s.conversations, d.closedAt = none → d.phoneNumberId = c.phoneNumberId →
      d.contactId = c.contactId → d.contactPhone ≠ c.contactPhone) :
    WellFormed { s with
      conversations := update (fun d => d.id == c.id) .reopened s.conversations } := by
  refine hs.withConversations (map_update (f := Conversation.reopened) (fun _ => rfl) _) ?_ ?_
  · intro d hd
    rcases mem_update.1 hd with ⟨hd, -⟩ | ⟨a, ha, -, rfl⟩
    · exact hs.conversationContact d hd
    · exact hs.conversationContact a ha
  · exact hs.openOnce.update hs.conversationIds hc fun _ d hd _ hopen hline hcontact =>
    hnone d hd hopen hline hcontact

theorem WellFormed.insertConversation {s inserted : Store} (hs : WellFormed s)
    (hcontact : ∃ d ∈ s.contacts, d.id = contactId)
    (h : s.insertConversation phoneNumberId contactId phone = some inserted) :
    WellFormed inserted := by
  have hsurvivor : ∃ d ∈ s.contacts, d.id = s.follow contactId := by
    cases hfind : s.find contactId with
    | none => simpa [Store.follow, hfind] using hcontact
    | some c =>
      cases hmerged : c.mergedInto with
      | none => simpa [Store.follow, hfind, hmerged] using hcontact
      | some w =>
        simp only [Store.follow, hfind, Option.bind_some, hmerged, Option.getD_some]
        exact hs.survivor c (hs.find_eq_some.1 hfind).1 w hmerged
  simp only [Store.insertConversation] at h
  split at h
  · cases h
  · next hnone =>
    obtain rfl := Option.some.inj h
    have hfree : ∀ d ∈ s.conversations, d.closedAt = none → d.phoneNumberId = phoneNumberId →
        d.contactId = s.follow contactId → d.contactPhone ≠ phone := by
      intro d hd hopen hline hcontact hphone
      refine hnone (List.any_eq_true.2 ⟨d, hd, ?_⟩)
      simp [Conversation.isWith, hline, hcontact, hphone, hopen]
    refine { hs with
      contactsOld := fun d hd => Nat.lt_succ_of_lt (hs.contactsOld d hd)
      conversationIds := ?_
      conversationsOld := ?_
      conversationContact := ?_
      openOnce := ?_ }
    · rw [List.map_append, List.map_singleton, List.nodup_append]
      refine ⟨hs.conversationIds, List.nodup_singleton _, ?_⟩
      rintro a ha b hb rfl
      obtain ⟨d, hd, rfl⟩ := List.mem_map.1 ha
      have hold := hs.conversationsOld d hd
      rw [List.mem_singleton.1 hb] at hold
      exact Nat.lt_irrefl _ hold
    · intro d hd
      rcases List.mem_append.1 hd with hd | hd
      · exact Nat.lt_succ_of_lt (hs.conversationsOld d hd)
      · rw [List.mem_singleton.1 hd]
        exact Nat.lt_succ_self _
    · intro d hd
      rcases List.mem_append.1 hd with hd | hd
      · exact hs.conversationContact d hd
      · rw [List.mem_singleton.1 hd]
        exact hsurvivor
    · intro d hd e he hopend hopene hline hcontact hphone
      rcases List.mem_append.1 hd with hd | hd <;> rcases List.mem_append.1 he with he | he
      · exact hs.openOnce d hd e he hopend hopene hline hcontact hphone
      · rw [List.mem_singleton.1 he] at hline hcontact hphone
        exact absurd hphone (hfree d hd hopend hline hcontact)
      · rw [List.mem_singleton.1 hd] at hline hcontact hphone
        exact absurd hphone.symm (hfree e he hopene hline.symm hcontact.symm)
      · rw [List.mem_singleton.1 hd, List.mem_singleton.1 he]

/-! ### Places -/

def NoneOpen (conversations : List Conversation) (phoneNumberId contactId : Uuid)
    (phone : Phone) : Prop :=
  ∀ d ∈ conversations, d.isWith phoneNumberId contactId phone = true → d.closedAt ≠ none

def Place.Fits (conversations : List Conversation) (phoneNumberId contactId : Uuid)
    (phone : Phone) : Place → Prop
  | .append c => c ∈ conversations ∧ c.openOn contactId phoneNumberId = true
  | .absorb c => c ∈ conversations ∧ c.isWith phoneNumberId contactId phone = true
  | .reopen c => c ∈ conversations ∧ c.isWith phoneNumberId contactId phone = true ∧
      NoneOpen conversations phoneNumberId contactId phone
  | .create => True

theorem mem_of_lastClosed (h : lastClosed conversations = some c) : c ∈ conversations :=
  mem_of_mem_firstBy (List.mem_of_mem_head? h)

theorem isWith_iff :
    c.isWith phoneNumberId contactId phone = true ↔
      c.phoneNumberId = phoneNumberId ∧ c.contactId = contactId ∧ c.contactPhone = phone := by
  simp [Conversation.isWith, and_assoc]

theorem openOn_iff :
    c.openOn contactId phoneNumberId = true ↔
      c.contactId = contactId ∧ c.phoneNumberId = phoneNumberId ∧ c.closedAt = none := by
  simp [Conversation.openOn, and_assoc]

theorem noneOpen_of_find (h : (conversations.filter (·.isWith phoneNumberId contactId phone)).find?
      (·.closedAt.isNone) = none) : NoneOpen conversations phoneNumberId contactId phone := by
  intro d hd hwith hopen
  have hfound := List.find?_eq_none.1 h d (List.mem_filter.2 ⟨hd, hwith⟩)
  simp [hopen] at hfound

theorem mem_of_find_open (h : (conversations.filter (·.isWith phoneNumberId contactId phone)).find?
      (·.closedAt.isNone) = some c) :
    c ∈ conversations ∧ c.isWith phoneNumberId contactId phone = true ∧ c.closedAt = none := by
  obtain ⟨hc, hwith⟩ := List.mem_filter.1 (List.mem_of_find?_eq_some h)
  exact ⟨hc, hwith, by simpa using List.find?_some h⟩

/-- An open conversation is taken, and else one of the closed ones, by whatever choice fits. -/
theorem fits_chosen {eligible : Conversation → Bool} {choose : Conversation → Place}
    (hchoose : ∀ c ∈ conversations, c.isWith phoneNumberId contactId phone = true →
      NoneOpen conversations phoneNumberId contactId phone →
        (choose c).Fits conversations phoneNumberId contactId phone) :
    Place.Fits conversations phoneNumberId contactId phone
      (match (conversations.filter (·.isWith phoneNumberId contactId phone)).find?
          (·.closedAt.isNone) with
        | some c => .append c
        | none =>
          match lastClosed ((conversations.filter
              (·.isWith phoneNumberId contactId phone)).filter eligible) with
          | none => .create
          | some c => choose c) := by
  cases hopen : (conversations.filter (·.isWith phoneNumberId contactId phone)).find?
      (·.closedAt.isNone) with
  | some c =>
    obtain ⟨hc, hwith, hnone⟩ := mem_of_find_open hopen
    obtain ⟨hline, hcontact, -⟩ := isWith_iff.1 hwith
    exact ⟨hc, openOn_iff.2 ⟨hcontact, hline, hnone⟩⟩
  | none =>
    cases hlast : lastClosed ((conversations.filter
        (·.isWith phoneNumberId contactId phone)).filter eligible) with
    | none => trivial
    | some c =>
      obtain ⟨hours, -⟩ := List.mem_filter.1 (mem_of_lastClosed hlast)
      obtain ⟨hc, hwith⟩ := List.mem_filter.1 hours
      exact hchoose c hc hwith (noneOpen_of_find hopen)

theorem fits_inboundPlace (now : ℤ) :
    (inboundPlace now phoneNumberId contactId phone conversations).Fits conversations
      phoneNumberId contactId phone := by
  refine fits_chosen fun c hc hwith hnone => ?_
  split_ifs
  · exact ⟨hc, hwith⟩
  · exact ⟨hc, hwith, hnone⟩
  · trivial

theorem fits_missedCallPlace (now : ℤ) :
    (missedCallPlace now phoneNumberId contactId phone conversations).Fits conversations
      phoneNumberId contactId phone := by
  refine fits_chosen fun c hc hwith hnone => ?_
  split_ifs
  · exact ⟨hc, hwith, hnone⟩
  · trivial

/-- `api_thread_call` finds no open conversation of the contact on the line. -/
theorem noneOpen_of_pick {picker : Picker}
    (h : picker.pick (conversations.filter (·.openOn contactId phoneNumberId)) = none)
    (phone : Phone) : NoneOpen conversations phoneNumberId contactId phone := by
  intro d hd hwith hopen
  obtain ⟨hline, hcontact, -⟩ := isWith_iff.1 hwith
  have hmem : d ∈ conversations.filter (·.openOn contactId phoneNumberId) :=
    List.mem_filter.2 ⟨hd, openOn_iff.2 ⟨hcontact, hline, hopen⟩⟩
  have hfound := picker.finds (List.ne_nil_of_mem hmem)
  rw [h] at hfound
  cases hfound

theorem fits_callPlace (picker : Picker) (now : ℤ) (phoneNumberId contactId : Uuid)
    (phone : Phone) (conversations : List Conversation) :
    (callPlace picker now phoneNumberId contactId phone conversations).Fits conversations
      phoneNumberId contactId phone := by
  simp only [callPlace]
  cases hopen : picker.pick (conversations.filter (·.openOn contactId phoneNumberId)) with
  | some c => exact List.mem_filter.1 (picker.mem hopen)
  | none =>
    cases hlast : lastClosed (conversations.filter fun c =>
        c.isWith phoneNumberId contactId phone && (c.closedAt.isSome && !c.isSpam)) with
    | none => trivial
    | some c =>
      obtain ⟨hc, hrow⟩ := List.mem_filter.1 (mem_of_lastClosed hlast)
      have hwith := (Bool.and_eq_true _ _ ▸ hrow).1
      dsimp only
      split_ifs
      · exact ⟨hc, hwith, noneOpen_of_pick hopen phone⟩
      · trivial

/-- **Taking a place** keeps the tables well formed. -/
theorem WellFormed.takePlace {s placed : Store} (hs : WellFormed s) {waits : Bool} {place : Place}
    {conversationId : Uuid} (hcontact : ∃ d ∈ s.contacts, d.id = contactId)
    (hfits : place.Fits s.conversations phoneNumberId contactId phone)
    (h : s.takePlace waits phoneNumberId contactId phone place = some (placed, conversationId)) :
    WellFormed placed := by
  cases place with
  | append c =>
    obtain rfl := left_eq h
    exact hs.updateConversations _ ⟨fun _ => rfl, fun _ => rfl, fun _ => rfl, fun _ => rfl,
      fun _ h => h⟩
  | absorb c =>
    obtain rfl := left_eq h
    exact hs
  | reopen c =>
    obtain rfl := left_eq h
    obtain ⟨hc, hwith, hnone⟩ := hfits
    obtain ⟨rfl, rfl, rfl⟩ := isWith_iff.1 hwith
    refine hs.reopen hc fun d hd hopen hline hcontact hphone => ?_
    exact hnone d hd (isWith_iff.2 ⟨hline, hcontact, hphone⟩) hopen
  | create =>
    simp only [Store.takePlace] at h
    cases hinserted : s.insertConversation phoneNumberId contactId phone with
    | some inserted =>
      rw [hinserted] at h
      obtain rfl := left_eq h
      exact hs.insertConversation hcontact hinserted
    | none =>
      rw [hinserted] at h
      obtain ⟨c, -, hc⟩ := Option.map_eq_some_iff.1 h
      obtain ⟨rfl, -⟩ := Prod.mk.inj hc
      exact hs

/-! ### The three ways into a thread -/

theorem WellFormed.owner (hs : WellFormed s)
    (h : s.owner phone = some id) : ∃ c ∈ s.contacts, c.id = id := by
  simp only [Store.owner, Option.or_eq_some_iff, Option.map_eq_some_iff] at h
  rcases h with ⟨p, hp, rfl⟩ | ⟨-, c, hc, rfl⟩
  · exact hs.numberContact p (List.mem_of_find?_eq_some hp)
  · exact ⟨c, List.mem_of_find?_eq_some hc, rfl⟩

/-- What resolving the number of a text or a call leaves behind. -/
structure Resolved (s : Store) (r : Store × Uuid) : Prop where
  wellFormed : WellFormed r.1
  contact : ∃ c ∈ r.1.contacts, c.id = r.2
  conversations : r.1.conversations = s.conversations
  messages : r.1.messages = s.messages
  links : links r.1 = links s ∨ links r.1 = links s ++ [(s.nextId, none)]

theorem resolved_resolveContact (hs : WellFormed s) (now : ℤ) (phone : Phone) :
    Resolved s (resolveContact now phone s) := by
  unfold resolveContact
  cases howner : s.owner phone with
  | some id =>
    obtain ⟨c, hc, hid⟩ := hs.owner howner
    have hplain := plain_heard now
    refine ⟨hs.updatePlain id hplain, ?_, rfl, rfl, .inl (hplain.links s id)⟩
    have hmem : id ∈ (s.updateContact id (.heard now)).contacts.map (·.id) := by
      rw [map_updateContact hplain.id]
      exact List.mem_map.2 ⟨c, hc, hid⟩
    exact List.mem_map.1 hmem
  | none =>
    have hprimary : s.primary phone = none := by
      simp only [Store.owner, Option.or_eq_none_iff, Option.map_eq_none_iff] at howner
      exact howner.2
    have hinsert := hs.insertContact
      (c := .fresh s.nextId phone (some .inboundSms) (some now)) rfl rfl
    have hfree : ({ s with nextId := s.nextId + 1 } : Store).primary phone = none := hprimary
    refine ⟨hinsert, ⟨.fresh s.nextId phone (some .inboundSms) (some now), ?_, rfl⟩, ?_, ?_, ?_⟩
    · simp [Store.insertContact, Contact.fresh, hfree]
    · simp [Store.insertContact, Contact.fresh, hfree]
    · simp [Store.insertContact, Contact.fresh, hfree]
    · right
      simp [Contacts.links, Store.insertContact, Contact.fresh, hfree]

theorem takePlace_frame {s placed : Store} {waits : Bool} {place : Place} {conversationId : Uuid}
    (h : s.takePlace waits phoneNumberId contactId phone place = some (placed, conversationId)) :
    ∃ conversations nextId,
      placed = { s with conversations := conversations, nextId := nextId } := by
  cases place with
  | append c =>
    obtain rfl := left_eq h
    exact ⟨_, s.nextId, rfl⟩
  | absorb c =>
    obtain rfl := left_eq h
    exact ⟨placed.conversations, placed.nextId, rfl⟩
  | reopen c =>
    obtain rfl := left_eq h
    exact ⟨_, s.nextId, rfl⟩
  | create =>
    simp only [Store.takePlace, Store.insertConversation] at h
    split at h
    · next inserted hinserted =>
      obtain rfl := left_eq h
      split at hinserted
      · cases hinserted
      · obtain rfl := Option.some.inj hinserted
        exact ⟨_, _, rfl⟩
    · obtain ⟨c, -, hc⟩ := Option.map_eq_some_iff.1 h
      obtain ⟨rfl, -⟩ := Prod.mk.inj hc
      exact ⟨s.conversations, s.nextId, rfl⟩

/-- **What `thread_inbound_message` does.** -/
theorem threadInbound_cases (now : ℤ) (m : InboundText) (s : Store) :
    (∃ stored ∈ s.messages, stored.telnyxMessageId = m.telnyxMessageId ∧
      threadInbound now m s = (s, .duplicate stored.conversationId)) ∨
    (∀ stored ∈ s.messages, stored.telnyxMessageId ≠ m.telnyxMessageId) ∧
      let r := resolveContact now m.fromE164 s
      let taken := r.1.takePlace true m.phoneNumberId r.2 m.fromE164
        (inboundPlace now m.phoneNumberId r.2 m.fromE164 r.1.conversations)
      (taken = none ∧ threadInbound now m s = (s, .raised)) ∨
        ∃ placed conversationId, taken = some (placed, conversationId) ∧
          threadInbound now m s = ({ placed with
            messages := placed.messages ++
              [{ telnyxMessageId := m.telnyxMessageId
                 conversationId := conversationId
                 body := m.body }] }, .created conversationId) := by
  unfold threadInbound
  cases hfind : s.messages.find? fun stored => stored.telnyxMessageId == m.telnyxMessageId with
  | some stored =>
    have hid : stored.telnyxMessageId = m.telnyxMessageId := by
      simpa using List.find?_some hfind
    exact .inl ⟨stored, List.mem_of_find?_eq_some hfind, hid, rfl⟩
  | none =>
    refine .inr ⟨by simpa [List.find?_eq_none] using hfind, ?_⟩
    dsimp only
    split
    · next htaken => exact .inl ⟨htaken, rfl⟩
    · next placed conversationId htaken => exact .inr ⟨placed, conversationId, htaken, rfl⟩

theorem WellFormed.threadInbound (hs : WellFormed s) (now : ℤ) (m : InboundText) :
    WellFormed (threadInbound now m s).1 := by
  rcases threadInbound_cases now m s with
    ⟨stored, -, -, h⟩ | ⟨hnew, ⟨-, h⟩ | ⟨placed, id, htaken, h⟩⟩
  · rw [h]
    exact hs
  · rw [h]
    exact hs
  · rw [h]
    have hr := resolved_resolveContact hs now m.fromE164
    have hplaced := hr.wellFormed.takePlace hr.contact (fits_inboundPlace ..) htaken
    refine { hplaced with messageIds := ?_ }
    obtain ⟨conversations, nextId, rfl⟩ := takePlace_frame htaken
    dsimp only
    rw [hr.messages, List.map_append, List.map_singleton, List.nodup_append]
    refine ⟨hs.messageIds, List.nodup_singleton _, ?_⟩
    rintro a ha b hb rfl
    obtain ⟨stored, hstored, hid⟩ := List.mem_map.1 ha
    exact hnew stored hstored (hid.trans (List.mem_singleton.1 hb))

/-- **What `api_thread_call` does**: nothing, or it resolves the contact, and may give the call a
place and a line there. -/
theorem threadCall_cases (picker : Picker) (now : ℤ) (k : CallRecord) (s : Store) :
    ((threadCall picker now k s).1 = s ∧
      ∀ x id inserted, (threadCall picker now k s).2 ≠ .threaded x id inserted) ∨
    ∃ known contactId, callContact now k s = some (known, contactId) ∧
      (threadCall picker now k s = (known, .nothing) ∨
        ∃ placed conversationId, known.takePlace false k.phoneNumberId contactId k.callerE164
            (callPlace picker now k.phoneNumberId contactId k.callerE164 known.conversations) =
          some (placed, conversationId) ∧
          threadCall picker now k s = ((recordCall k.callSessionId conversationId placed).1,
            .threaded contactId conversationId
              (recordCall k.callSessionId conversationId placed).2)) := by
  simp only [threadCall]
  by_cases hempty : k.callerE164.isEmpty = true
  · rw [if_pos hempty]
    exact .inl ⟨rfl, nofun⟩
  · rw [if_neg hempty]
    cases hcontact : callContact now k s with
    | none => exact .inl ⟨rfl, nofun⟩
    | some r =>
      obtain ⟨known, contactId⟩ := r
      dsimp only
      split_ifs
      · exact .inr ⟨known, contactId, rfl, .inl rfl⟩
      · cases htaken : known.takePlace false k.phoneNumberId contactId k.callerE164
            (callPlace picker now k.phoneNumberId contactId k.callerE164
              known.conversations) with
        | none => exact .inl ⟨rfl, nofun⟩
        | some taken => exact .inr ⟨known, contactId, rfl, .inr ⟨taken.1, taken.2, htaken, rfl⟩⟩

theorem WellFormed.recordCall (hs : WellFormed s) (sessionId : String)
    (conversationId : Uuid) : WellFormed (recordCall sessionId conversationId s).1 := by
  simp only [Contacts.recordCall]
  split
  · exact hs
  · exact { hs with }

theorem resolved_callContact {s known : Store} (hs : WellFormed s) {now : ℤ} {k : CallRecord}
    (h : callContact now k s = some (known, contactId)) : Resolved s (known, contactId) := by
  unfold callContact at h
  split at h
  · rw [← Option.some.inj h]
    exact resolved_resolveContact hs now k.callerE164
  · obtain ⟨c, hc, hpair⟩ := Option.map_eq_some_iff.1 h
    obtain ⟨rfl, rfl⟩ := Prod.mk.inj hpair
    have hfound := (Option.filter_eq_some_iff.1 hc).1
    exact ⟨hs, ⟨c, List.mem_of_find?_eq_some hfound, rfl⟩, rfl, rfl, .inl rfl⟩

theorem WellFormed.threadCall (hs : WellFormed s) (picker : Picker) (now : ℤ)
    (k : CallRecord) : WellFormed (threadCall picker now k s).1 := by
  rcases threadCall_cases picker now k s with
    ⟨h, -⟩ | ⟨known, contactId, hcontact, h | ⟨placed, id, htaken, h⟩⟩
  · rw [h]
    exact hs
  · rw [h]
    exact (resolved_callContact hs hcontact).wellFormed
  · rw [h]
    have hr := resolved_callContact hs hcontact
    exact (hr.wellFormed.takePlace hr.contact (fits_callPlace ..) htaken).recordCall _ _

theorem WellFormed.textBack (hs : WellFormed s) (now : ℤ) (k : MissedCall) (facts : SendFacts)
    (conversationId : Uuid) (created : Bool) :
    WellFormed (textBack now k facts conversationId created s).1 := by
  unfold Contacts.textBack
  split_ifs
  · exact hs
  · exact hs
  · cases facts.spendError with
    | some reason => exact hs
    | none =>
      have hstamped := hs.updateConversations (fun c => c.id == conversationId)
        (f := fun c => { c with lastAutoReplyAt := some now })
        ⟨fun _ => rfl, fun _ => rfl, fun _ => rfl, fun _ => rfl, fun _ h => h⟩
      exact { hstamped with }

/-- **What `claim_missed_call_text` does**: nothing, or it gives the missed call a place. -/
theorem claimMissedCallText_cases (now : ℤ) (k : MissedCall) (facts : SendFacts) (s : Store) :
    ((claimMissedCallText now k facts s).1 = s ∧
      ∀ id created, (claimMissedCallText now k facts s).2 ≠ .claimed id created) ∨
    let r := resolveContact now k.callerE164 s
    let place := missedCallPlace now k.phoneNumberId r.2 k.callerE164 r.1.conversations
    ∃ placed conversationId,
      r.1.takePlace true k.phoneNumberId r.2 k.callerE164 place = some (placed, conversationId) ∧
        claimMissedCallText now k facts s =
          textBack now k facts conversationId (place = .create) placed := by
  unfold claimMissedCallText
  by_cases hwell : (isBlank k.callerE164 || isBlank k.callId || isBlank k.body ||
      k.segmentsEstimate < 1 || k.throttleSeconds < 0) = true
  · rw [if_pos hwell]
    exact .inl ⟨rfl, nofun⟩
  rw [if_neg hwell]
  by_cases hfound : (!facts.companyFound || !facts.numberOwned) = true
  · rw [if_pos hfound]
    exact .inl ⟨rfl, nofun⟩
  rw [if_neg hfound]
  cases facts.sendBlock with
  | some reason => exact .inl ⟨rfl, nofun⟩
  | none =>
    cases s.missedCalls.find? fun e => e.key == k.callId with
    | some prior =>
      dsimp only
      split_ifs
      · exact .inl ⟨rfl, nofun⟩
      · exact .inl ⟨rfl, nofun⟩
    | none =>
      dsimp only
      split
      · exact .inl ⟨rfl, nofun⟩
      · next placed conversationId htaken =>
        exact .inr ⟨placed, conversationId, htaken, rfl⟩

theorem WellFormed.claimMissedCallText (hs : WellFormed s) (now : ℤ) (k : MissedCall)
    (facts : SendFacts) : WellFormed (claimMissedCallText now k facts s).1 := by
  rcases claimMissedCallText_cases now k facts s with ⟨h, -⟩ | ⟨placed, id, htaken, h⟩
  · rw [h]
    exact hs
  · rw [h]
    have hr := resolved_resolveContact hs now k.callerE164
    exact (hr.wellFormed.takePlace hr.contact (fits_missedCallPlace ..) htaken).textBack ..

end Contacts
