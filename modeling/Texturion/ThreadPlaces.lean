/-
**Where a text or a call goes.**

The ladder of rules by which a conversation is chosen, read off the tables: the open conversation
where there is one, else the last one to be closed if it is spam or was closed in the last thirty
days, else a new one.  What it makes of the tables is the conversation of the place, or a new one of
the contact that the trigger follows to.

Main result:

* `Contacts.threadInbound_of_taken`, `Contacts.threadCall_of_taken`, `Contacts.textBack_claimed` —
  what the functions return once the place is taken.
-/

import Texturion.ContactTables

namespace Contacts

open SqlTable OptOuts

/-! ### The rules -/

def closedWith (phoneNumberId contactId : Uuid) (phone : Phone)
    (conversations : List Conversation) : List Conversation :=
  (conversations.filter (·.isWith phoneNumberId contactId phone)).filter (·.closedAt.isSome)

/-- A conversation that was closed in the last thirty days. -/
def Recent (now : ℤ) (c : Conversation) : Prop :=
  ∃ closedAt, c.closedAt = some closedAt ∧ now - reopenWindow ≤ closedAt

/-- The last closed conversation takes a text if it is spam or recent. -/
def Taken (now : ℤ) (c : Conversation) : Prop := c.isSpam = true ∨ Recent now c

/-- No conversation takes a text. -/
def Untaken (now : ℤ) (phoneNumberId contactId : Uuid) (phone : Phone)
    (conversations : List Conversation) : Prop :=
  NoneOpen conversations phoneNumberId contactId phone ∧
    ∀ c, lastClosed (closedWith phoneNumberId contactId phone conversations) = some c →
      ¬Taken now c

/-- The conversation that the rules ask for. -/
structure Chosen (now : ℤ) (phoneNumberId contactId : Uuid) (phone : Phone)
    (conversations : List Conversation) (id : Uuid) : Prop where
  opened : ∀ c ∈ conversations, c.isWith phoneNumberId contactId phone = true →
    c.closedAt = none → id = c.id
  taken : NoneOpen conversations phoneNumberId contactId phone →
    ∀ c, lastClosed (closedWith phoneNumberId contactId phone conversations) = some c →
      Taken now c → id = c.id
  new : Untaken now phoneNumberId contactId phone conversations → ∀ c ∈ conversations, id ≠ c.id

variable {now : ℤ} {c : Conversation} {place : Place} {phoneNumberId contactId id : Uuid}
  {phone : Phone} {conversations : List Conversation} {s : Store}

theorem recent_iff :
    (c.closedAt.any fun closedAt => decide (now - reopenWindow ≤ closedAt)) = true ↔
      Recent now c := by
  cases hclosed : c.closedAt <;> simp [Recent, hclosed]

def Place.existing : Place → Option Conversation
  | .append c => some c
  | .absorb c => some c
  | .reopen c => some c
  | .create => none

theorem existing_eq_none (h : place.existing = none) : place = .create := by
  cases place with
  | append | absorb | reopen => cases h
  | create => rfl

/-- A place follows the rules of `thread_inbound_message`. -/
def Place.Inbound (now : ℤ) (phoneNumberId contactId : Uuid) (phone : Phone)
    (conversations : List Conversation) : Place → Prop
  | .append c => c ∈ conversations ∧ c.isWith phoneNumberId contactId phone = true ∧
      c.closedAt = none
  | .absorb c => NoneOpen conversations phoneNumberId contactId phone ∧
      lastClosed (closedWith phoneNumberId contactId phone conversations) = some c ∧
      c.isSpam = true
  | .reopen c => NoneOpen conversations phoneNumberId contactId phone ∧
      lastClosed (closedWith phoneNumberId contactId phone conversations) = some c ∧
      Recent now c
  | .create => Untaken now phoneNumberId contactId phone conversations

/-- **`thread_inbound_message` follows the rules.** -/
theorem inboundPlace_spec (now : ℤ) (phoneNumberId contactId : Uuid) (phone : Phone)
    (conversations : List Conversation) :
    (inboundPlace now phoneNumberId contactId phone conversations).Inbound now phoneNumberId
      contactId phone conversations := by
  simp only [inboundPlace]
  cases hopen : (conversations.filter (·.isWith phoneNumberId contactId phone)).find?
      (·.closedAt.isNone) with
  | some c => exact mem_of_find_open hopen
  | none =>
      have hnone := noneOpen_of_find hopen
      cases hlast : lastClosed ((conversations.filter
          (·.isWith phoneNumberId contactId phone)).filter (·.closedAt.isSome)) with
      | none => exact ⟨hnone, fun c hc => nomatch hlast.symm.trans hc⟩
      | some c =>
          dsimp only
          split_ifs with hspam hrecent
          · exact ⟨hnone, hlast, hspam⟩
          · exact ⟨hnone, hlast, recent_iff.1 hrecent⟩
          · refine ⟨hnone, fun d hd => ?_⟩
            obtain rfl := Option.some.inj (hlast.symm.trans hd)
            exact fun htaken => htaken.elim hspam fun h => hrecent (recent_iff.2 h)

section

variable (h : place.Inbound now phoneNumberId contactId phone conversations)
include h

theorem Place.Inbound.isWith (hc : place.existing = some c) :
    c ∈ conversations ∧ c.isWith phoneNumberId contactId phone = true := by
  have hlast : ∀ d, lastClosed (closedWith phoneNumberId contactId phone conversations) = some d →
      d ∈ conversations ∧ d.isWith phoneNumberId contactId phone = true := by
    intro d hd
    exact List.mem_filter.1 (List.mem_filter.1 (mem_of_lastClosed hd)).1
  cases place with
  | append d =>
      obtain rfl := Option.some.inj hc
      exact ⟨h.1, h.2.1⟩
  | absorb d =>
      obtain rfl := Option.some.inj hc
      exact hlast d h.2.1
  | reopen d =>
      obtain rfl := Option.some.inj hc
      exact hlast d h.2.1
  | create => cases hc

theorem Place.Inbound.chosen (hopen : OpenOnce conversations) {new : Uuid}
    (hnew : ∀ c ∈ conversations, new ≠ c.id) :
    Chosen now phoneNumberId contactId phone conversations
      ((place.existing.map (·.id)).getD new) := by
  cases place with
  | append c =>
      obtain ⟨hc, hwith, hnone⟩ := h
      refine ⟨fun d hd hwith' hnone' => ?_, fun hno => absurd hnone (hno c hc hwith),
        fun hno => absurd hnone (hno.1 c hc hwith)⟩
      obtain ⟨rfl, rfl, rfl⟩ := isWith_iff.1 hwith
      obtain ⟨hline, hcontact, hphone⟩ := isWith_iff.1 hwith'
      exact hopen c hc d hd hnone hnone' hline.symm hcontact.symm hphone.symm
  | absorb c =>
      obtain ⟨hno, hlast, hspam⟩ := h
      refine ⟨fun d hd hwith hnone => absurd hnone (hno d hd hwith), fun _ d hd _ => ?_,
        fun hnot => absurd (.inl hspam) (hnot.2 c hlast)⟩
      rw [Option.some.inj (hd.symm.trans hlast)]
      rfl
  | reopen c =>
      obtain ⟨hno, hlast, hrecent⟩ := h
      refine ⟨fun d hd hwith hnone => absurd hnone (hno d hd hwith), fun _ d hd _ => ?_,
        fun hnot => absurd (.inr hrecent) (hnot.2 c hlast)⟩
      rw [Option.some.inj (hd.symm.trans hlast)]
      rfl
  | create =>
      exact ⟨fun d hd hwith hnone => absurd hnone (h.1 d hd hwith),
        fun _ d hd htaken => absurd htaken (h.2 d hd), fun _ => hnew⟩

theorem Place.Inbound.create_of_untaken
    (hnot : Untaken now phoneNumberId contactId phone conversations) : place = .create := by
  cases place with
  | append c => exact absurd h.2.2 (hnot.1 c h.1 h.2.1)
  | absorb c => exact absurd (.inl h.2.2) (hnot.2 c h.2.1)
  | reopen c => exact absurd (.inr h.2.2) (hnot.2 c h.2.1)
  | create => rfl

theorem Place.Inbound.none_open
    (hplace : place = .create) : NoneOpen conversations phoneNumberId contactId phone := by
  subst hplace
  exact h.1

end

/-! ### What taking a place leaves there -/

/-- A conversation that is there is taken as it is, whatever becomes of its status. -/
theorem takePlace_existing (hplace : place.existing = some c) (hc : c ∈ s.conversations)
    (waits : Bool) (phoneNumberId contactId : Uuid) (phone : Phone) :
    ∃ placed, s.takePlace waits phoneNumberId contactId phone place = some (placed, c.id) ∧
      ∃ d ∈ placed.conversations, d.id = c.id ∧ d.phoneNumberId = c.phoneNumberId ∧
        d.contactId = c.contactId ∧ d.contactPhone = c.contactPhone := by
  -- the row of the conversation after an update of some rows
  have hrow : ∀ (p : Conversation → Bool) (f : Conversation → Conversation),
      (∀ d, (f d).id = d.id ∧ (f d).phoneNumberId = d.phoneNumberId ∧
        (f d).contactId = d.contactId ∧ (f d).contactPhone = d.contactPhone) →
      ∃ d ∈ update p f s.conversations, d.id = c.id ∧ d.phoneNumberId = c.phoneNumberId ∧
        d.contactId = c.contactId ∧ d.contactPhone = c.contactPhone := by
    intro p f hf
    by_cases hp : p c = true
    · exact ⟨f c, mem_update_of hc hp, hf c⟩
    · exact ⟨c, mem_update_of_not hc (by simpa using hp), rfl, rfl, rfl, rfl⟩
  cases place with
  | append d =>
      obtain rfl := Option.some.inj hplace
      exact ⟨_, rfl, hrow _ _ fun _ => ⟨rfl, rfl, rfl, rfl⟩⟩
  | absorb d =>
      obtain rfl := Option.some.inj hplace
      exact ⟨_, rfl, d, hc, rfl, rfl, rfl, rfl⟩
  | reopen d =>
      obtain rfl := Option.some.inj hplace
      exact ⟨_, rfl, hrow _ _ fun _ => ⟨rfl, rfl, rfl, rfl⟩⟩
  | create => cases hplace

/-- **A new conversation** is one of the contact that the trigger follows to; where that has an open
conversation already the function raises. -/
theorem takePlace_create (hnone : NoneOpen s.conversations phoneNumberId contactId phone)
    (waits : Bool) :
    (s.takePlace waits phoneNumberId contactId phone .create = none ∧
      ¬NoneOpen s.conversations phoneNumberId (s.follow contactId) phone) ∨
    NoneOpen s.conversations phoneNumberId (s.follow contactId) phone ∧
      ∃ placed, s.takePlace waits phoneNumberId contactId phone .create =
          some (placed, s.nextId) ∧
        ∃ d ∈ placed.conversations, d.id = s.nextId ∧ d.phoneNumberId = phoneNumberId ∧
          d.contactId = s.follow contactId ∧ d.contactPhone = phone := by
  simp only [Store.takePlace, Store.insertConversation]
  split_ifs with hconflict
  · refine .inl ⟨?_, fun hno => ?_⟩
    · rw [Option.map_eq_none_iff, List.find?_eq_none]
      intro d hd hopen
      obtain ⟨hwith, hopen⟩ := Bool.and_eq_true_iff.1 hopen
      exact hnone d hd hwith (Option.isNone_iff_eq_none.1 hopen)
    · obtain ⟨d, hd, hopen⟩ := List.any_eq_true.1 hconflict
      obtain ⟨hwith, hopen⟩ := Bool.and_eq_true_iff.1 hopen
      exact hno d hd hwith (Option.isNone_iff_eq_none.1 hopen)
  · refine .inr ⟨fun d hd hwith hopen => hconflict (List.any_eq_true.2 ⟨d, hd, ?_⟩), _, rfl, _,
      List.mem_append_right _ (List.mem_singleton_self _), rfl, rfl, rfl, rfl⟩
    exact Bool.and_eq_true_iff.2 ⟨hwith, Option.isNone_iff_eq_none.2 hopen⟩

section

variable (hs : WellFormed s)
include hs

theorem WellFormed.nextId_ne : ∀ c ∈ s.conversations, s.nextId ≠ c.id :=
  fun c hc => (Nat.ne_of_lt (hs.conversationsOld c hc)).symm

/-! ### Who the contact is -/

theorem follow_eq {into : Option Uuid} (h : (id, into) ∈ links s) : s.follow id = into.getD id := by
  obtain ⟨c, hc, heq⟩ := List.mem_map.1 h
  obtain ⟨rfl, rfl⟩ := Prod.mk.inj heq
  have hfind : s.find c.id = some c := hs.find_eq_some.2 ⟨hc, rfl⟩
  simp [Store.follow, hfind]

/-- **The place of a contact that is not a tombstone** leaves a conversation of the line with the
number of the contact. -/
theorem takePlace_right (hlive : (contactId, none) ∈ links s)
    (hexisting : ∀ c, place.existing = some c →
      c ∈ s.conversations ∧ c.isWith phoneNumberId contactId phone = true)
    (hcreate : place = .create → NoneOpen s.conversations phoneNumberId contactId phone)
    (waits : Bool) :
    ∃ placed c, s.takePlace waits phoneNumberId contactId phone place = some (placed, c.id) ∧
      c ∈ placed.conversations ∧ c.id = (place.existing.map (·.id)).getD s.nextId ∧
        c.phoneNumberId = phoneNumberId ∧ c.contactId = contactId ∧ c.contactPhone = phone := by
  cases hplace : place.existing with
  | some e =>
      obtain ⟨he, hwith⟩ := hexisting e hplace
      obtain ⟨hline, hcontact, hphone⟩ := isWith_iff.1 hwith
      obtain ⟨placed, htaken, c, hc, hid, hlinec, hcontactc, hphonec⟩ :=
        takePlace_existing hplace he waits phoneNumberId contactId phone
      exact ⟨placed, c, hid ▸ htaken, hc, hid, hlinec.trans hline, hcontactc.trans hcontact,
        hphonec.trans hphone⟩
  | none =>
      obtain rfl := existing_eq_none hplace
      have hfollow : s.follow contactId = contactId := follow_eq hs hlive
      rcases takePlace_create (hcreate rfl) waits with
        ⟨-, hopen⟩ | ⟨-, placed, htaken, c, hc, hid, hline, hcontact, hphone⟩
      · rw [hfollow] at hopen
        exact absurd (hcreate rfl) hopen
      · exact ⟨placed, c, hid ▸ htaken, hc, hid, hline, hcontact.trans hfollow, hphone⟩

theorem WellFormed.links_inj {a b : Option Uuid} (ha : (id, a) ∈ links s)
    (hb : (id, b) ∈ links s) : a = b := by
  obtain ⟨c, hc, heq⟩ := List.mem_map.1 ha
  obtain ⟨d, hd, heq'⟩ := List.mem_map.1 hb
  obtain ⟨hcid, rfl⟩ := Prod.mk.inj heq
  obtain ⟨hdid, rfl⟩ := Prod.mk.inj heq'
  rw [List.inj_on_of_nodup_map hs.contactIds hc hd (hcid.trans hdid.symm)]

end

/-- A number that has an owner resolves to it, and its forwarding address is as it was. -/
theorem resolveContact_of_owner (h : s.owner phone = some id) (now : ℤ) :
    (resolveContact now phone s).2 = id ∧ links (resolveContact now phone s).1 = links s ∧
      (resolveContact now phone s).1.nextId = s.nextId := by
  simp only [resolveContact, h, true_and]
  exact ⟨(plain_heard now).links s id, rfl⟩

theorem resolveContact_of_none (h : s.owner phone = none) (now : ℤ) :
    (resolveContact now phone s).2 = s.nextId ∧
      links (resolveContact now phone s).1 = links s ++ [(s.nextId, none)] ∧
      (resolveContact now phone s).1.nextId = s.nextId + 1 := by
  have hprimary : ({ s with nextId := s.nextId + 1 } : Store).primary phone = none := by
    simp only [Store.owner, Option.or_eq_none_iff, Option.map_eq_none_iff] at h
    exact h.2
  simp [resolveContact, h, Store.insertContact, Contact.fresh, hprimary, links]

/-! ### What the functions return -/

theorem threadInbound_of_taken {m : InboundText} {s placed : Store}
    (hnew : ∀ stored ∈ s.messages, stored.telnyxMessageId ≠ m.telnyxMessageId)
    (htaken : (resolveContact now m.fromE164 s).1.takePlace true m.phoneNumberId
      (resolveContact now m.fromE164 s).2 m.fromE164
      (inboundPlace now m.phoneNumberId (resolveContact now m.fromE164 s).2 m.fromE164
        (resolveContact now m.fromE164 s).1.conversations) = some (placed, id)) :
    threadInbound now m s = ({ placed with
      messages := placed.messages ++ [⟨m.telnyxMessageId, id, m.body⟩] }, .created id) := by
  rcases threadInbound_cases now m s with ⟨stored, hstored, hid, -⟩ | ⟨-, h⟩
  · exact absurd hid (hnew stored hstored)
  · rcases h with ⟨hnone, -⟩ | ⟨placed', id', htaken', hout⟩
    · exact nomatch htaken.symm.trans hnone
    · obtain ⟨rfl, rfl⟩ := Prod.mk.inj (Option.some.inj (htaken.symm.trans htaken'))
      exact hout

theorem threadCall_of_taken {picker : Picker} {k : CallRecord} {s placed : Store}
    (hcaller : k.callerE164.isEmpty = false) (hcreate : k.createIfMissing = true)
    (htaken : (resolveContact now k.callerE164 s).1.takePlace false k.phoneNumberId
      (resolveContact now k.callerE164 s).2 k.callerE164
      (callPlace picker now k.phoneNumberId (resolveContact now k.callerE164 s).2 k.callerE164
        (resolveContact now k.callerE164 s).1.conversations) = some (placed, id)) :
    threadCall picker now k s = ((recordCall k.callSessionId id placed).1,
      .threaded (resolveContact now k.callerE164 s).2 id
        (recordCall k.callSessionId id placed).2) := by
  simp [threadCall, callContact, hcaller, hcreate, htaken]

theorem textBack_claimed {k : MissedCall} {facts : SendFacts} {conversationId : Uuid}
    {created : Bool} {created' : Bool}
    (h : (textBack now k facts conversationId created s).2 = .claimed id created') :
    id = conversationId ∧ ∃ missedCalls, (textBack now k facts conversationId created s).1 =
      { s with
        conversations := update (fun c => c.id == conversationId)
          (fun c => { c with lastAutoReplyAt := some now }) s.conversations
        missedCalls := missedCalls } := by
  unfold textBack at h ⊢
  by_cases hactive : isActive (s.optOuts k.callerE164) = true
  · rw [if_pos hactive] at h
    cases h
  rw [if_neg hactive] at h ⊢
  by_cases hthrottled : (s.conversations.any fun c => c.id == conversationId &&
      c.lastAutoReplyAt.any fun last => decide (now - k.throttleSeconds * 1000 < last)) = true
  · rw [if_pos hthrottled] at h
    cases h
  rw [if_neg hthrottled] at h ⊢
  cases hspend : facts.spendError with
  | some reason =>
      rw [hspend] at h
      cases h
  | none =>
      rw [hspend] at h
      exact ⟨(MissedCallClaim.claimed.inj h).1.symm, _, rfl⟩

end Contacts
