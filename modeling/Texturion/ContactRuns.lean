/-
**What holds of contacts and threads at any time.**

The statements and functions of `Texturion/ContactStore.lean`, in any order: contacts come and go
and are merged and taken apart again, numbers are added and removed, threads are closed and marked
as spam, and texts, calls and opt-outs arrive.  Every step keeps the tables well formed.  A merge
writes one forwarding address, and every other step does one of four things to them.

Main result:

* `Contacts.links_mergeInto`, `Contacts.step_links` — what a step does to the forwarding addresses.
-/

import Texturion.ContactTables
import Texturion.ReactiveRun

namespace Contacts

open SqlTable OptOuts

/-- What happens to the tables, at its time. -/
inductive Event
  | insertContact (phone : Phone) (consentSource : Option ConsentSource) (consentAt : Option ℤ)
      (attestedBy createdBy : Option Uuid)
  | deleteContact (id : Uuid)
  | insertContactPhone (contactId : Uuid) (phone : Phone)
  | deleteContactPhone (phone : Phone)
  | merge (actor : Option Uuid) (fromId intoId : Uuid)
  | unmerge (id : Uuid)
  | close (conversationId : Uuid)
  | setSpam (conversationId : Uuid) (isSpam : Bool)
  | writeCall (id : Uuid) (contactId : Option Uuid)
  | inbound (m : InboundText)
  | call (picker : Picker) (k : CallRecord)
  | missedCall (k : MissedCall) (facts : SendFacts)
  | optOut (phone : Phone) (w : Statement)

def step (s : Store) (i : ℤ × Event) : Store × List Empty :=
  match i.2 with
  | .insertContact phone consentSource consentAt attestedBy createdBy =>
    ({ s with nextId := s.nextId + 1 }.insertContact
      { Contact.fresh s.nextId phone consentSource consentAt with
        consentAttestedBy := attestedBy, createdBy := createdBy }, [])
  | .deleteContact id => (s.deleteContact id, [])
  | .insertContactPhone contactId phone => (s.insertContactPhone contactId phone, [])
  | .deleteContactPhone phone => (s.deleteContactPhone phone, [])
  | .merge actor fromId intoId => ((mergeContacts i.1 actor fromId intoId s).1, [])
  | .unmerge id => ((unmergeContact id s).1, [])
  | .close conversationId => (s.closeConversation i.1 conversationId, [])
  | .setSpam conversationId isSpam => (s.setSpam i.1 conversationId isSpam, [])
  | .writeCall id contactId => (s.writeCall id contactId, [])
  | .inbound m => ((threadInbound i.1 m s).1, [])
  | .call picker k => ((threadCall picker i.1 k s).1, [])
  | .missedCall k facts => ((claimMissedCallText i.1 k facts s).1, [])
  | .optOut phone w => (s.writeOptOut i.1 phone w, [])

/-! ### Merges -/

/-- What is there once some of the conversations of a contact have moved, and `rest` have not. -/
structure Moved (before : List Conversation) (into : Uuid) (rest after : List Conversation) :
    Prop where
  ids : after.map (·.id) = before.map (·.id)
  openOnce : OpenOnce after
  contact : ∀ c ∈ after, c.contactId = into ∨ ∃ d ∈ before, d.contactId = c.contactId
  rest : ∀ c ∈ rest, c ∈ after

theorem Moved.move {before after : List Conversation} {into : Uuid} {c : Conversation}
    {rest : List Conversation} (h : Moved before into (c :: rest) after)
    (hbefore : (before.map (·.id)).Nodup) (hrest : ((c :: rest).map (·.id)).Nodup) (now : ℤ) :
    Moved before into rest (moveConversation now into after c) := by
  have hids : (after.map (·.id)).Nodup := by rw [h.ids]; exact hbefore
  have hc := h.rest c (List.mem_cons_self ..)
  have hother : ∀ d ∈ rest, (d.id == c.id) = false := by
    intro d hd
    have hne := (List.nodup_cons.1 (List.map_cons ▸ hrest)).1
    exact beq_eq_false_iff_ne.2 fun hid => hne (hid ▸ List.mem_map_of_mem hd)
  have hmoved : ∀ f : Conversation → Conversation, (∀ d, (f d).id = d.id) →
      (∀ d, (f d).contactId = into) → OpenOnce (update (fun d => d.id == c.id) f after) →
      Moved before into rest (update (fun d => d.id == c.id) f after) := by
    intro f hid hinto hopen
    refine ⟨(map_update hid after).trans h.ids, hopen, ?_, fun d hd => ?_⟩
    · intro d hd
      rcases mem_update.1 hd with ⟨hd, -⟩ | ⟨a, ha, -, rfl⟩
      · exact h.contact d hd
      · exact .inl (hinto a)
    · exact mem_update_of_not (h.rest d (List.mem_cons_of_mem _ hd)) (hother d hd)
  unfold moveConversation
  split
  · exact hmoved _ (fun _ => rfl) (fun _ => rfl)
      (h.openOnce.update hids hc fun hopen => nomatch hopen)
  · next hcollides =>
    refine hmoved _ (fun _ => rfl) (fun _ => rfl) (h.openOnce.update hids hc ?_)
    -- an open conversation of the survivor on the line would have collided
    intro hopen d hd _ hopend hline hcontact
    refine absurd ?_ hcollides
    have hopenc : c.closedAt.isNone = true := Option.isNone_iff_eq_none.2 hopen
    refine Bool.and_eq_true_iff.2 ⟨hopenc, List.any_eq_true.2 ⟨d, hd, ?_⟩⟩
    exact openOn_iff.2 ⟨hcontact, hline, hopend⟩

theorem moved_foldl {before : List Conversation} {into : Uuid} (now : ℤ)
    (hbefore : (before.map (·.id)).Nodup) {rest : List Conversation} :
    ∀ {after : List Conversation}, (rest.map (·.id)).Nodup → Moved before into rest after →
      Moved before into [] (rest.foldl (moveConversation now into) after) := by
  induction rest with
  | nil => exact fun _ h => h
  | cons c rest ih =>
    intro after hrest h
    exact ih (List.nodup_cons.1 (List.map_cons ▸ hrest)).2 (h.move hbefore hrest now)

theorem moved_moveConversations {conversations : List Conversation}
    (hids : (conversations.map (·.id)).Nodup) (hopen : OpenOnce conversations) (now : ℤ)
    (fromId into : Uuid) :
    Moved conversations into [] (moveConversations now fromId into conversations) := by
  refine moved_foldl now hids ?_ ⟨rfl, hopen, fun c hc => .inr ⟨c, hc, rfl⟩, ?_⟩
  · exact hids.sublist (List.filter_sublist.map _)
  · exact fun c hc => (List.mem_filter.1 hc).1

/-- A merge that `api_merge_contacts` does not refuse, of the contact `a` into `b`. -/
structure Mergeable (s : Store) (fromId intoId : Uuid) (a b : Contact) : Prop where
  ne : fromId ≠ intoId
  fromContact : s.find fromId = some a
  intoContact : s.find intoId = some b
  fromLive : a.mergedInto = none
  intoLive : b.mergedInto = none

/-- **What `api_merge_contacts` does.** -/
theorem mergeContacts_cases (now : ℤ) (actor : Option Uuid) (fromId intoId : Uuid) (s : Store) :
    (mergeContacts now actor fromId intoId s).1 = s ∧ (∀ a b, ¬Mergeable s fromId intoId a b) ∨
    ∃ a b, Mergeable s fromId intoId a b ∧
      (mergeContacts now actor fromId intoId s).1 = mergeInto now actor fromId intoId a b s := by
  unfold mergeContacts
  split_ifs with heq
  · exact .inl ⟨rfl, fun a b h => h.ne heq⟩
  · cases hfrom : s.find fromId with
    | none => exact .inl ⟨rfl, fun a b h => nomatch hfrom.symm.trans h.fromContact⟩
    | some a =>
      cases hinto : s.find intoId with
      | none => exact .inl ⟨rfl, fun a b h => nomatch hinto.symm.trans h.intoContact⟩
      | some b =>
        dsimp only
        split_ifs with hmerged
        · refine .inl ⟨rfl, fun a' b' h => ?_⟩
          obtain rfl := Option.some.inj (hfrom.symm.trans h.fromContact)
          obtain rfl := Option.some.inj (hinto.symm.trans h.intoContact)
          simp [h.fromLive, h.intoLive] at hmerged
        · simp only [Bool.or_eq_true, not_or, Bool.not_eq_true, Option.isSome_eq_false_iff,
            Option.isNone_iff_eq_none] at hmerged
          exact .inr ⟨a, b, ⟨heq, hfrom, hinto, hmerged.1, hmerged.2⟩, rfl⟩

variable {s : Store}

theorem follow_of_live {id : Uuid} {c : Contact} (hfind : s.find id = some c)
    (hlive : c.mergedInto = none) : s.follow id = id := by
  simp [Store.follow, hfind, hlive]

theorem contacts_uniteOptOuts (now : ℤ) (actor : Option Uuid) (a b : Phone) (s : Store) :
    (uniteOptOuts now actor a b s).contacts = s.contacts := by
  unfold uniteOptOuts
  split_ifs <;> rfl

theorem WellFormed.uniteOptOuts (hs : WellFormed s) (now : ℤ) (actor : Option Uuid)
    (a b : Phone) : WellFormed (uniteOptOuts now actor a b s) := by
  unfold Contacts.uniteOptOuts
  split_ifs
  · exact (hs.writeOptOut ..).writeOptOut ..
  · exact hs

theorem plain_inherit (a : Contact) : Plain fun c =>
    { c with
      consentSource := c.consentSource.or a.consentSource
      consentAt := c.consentAt.or a.consentAt } :=
  ⟨fun _ => rfl, fun _ => rfl, fun _ => rfl⟩

theorem WellFormed.mergeInto (hs : WellFormed s) {fromId intoId : Uuid} {a b : Contact}
    (h : Mergeable s fromId intoId a b) (now : ℤ) (actor : Option Uuid) :
    WellFormed (mergeInto now actor fromId intoId a b s) := by
  have hinto : b ∈ s.contacts ∧ b.id = intoId := hs.find_eq_some.1 h.intoContact
  simp only [Contacts.mergeInto, follow_of_live h.intoContact h.intoLive]
  refine WellFormed.updatePlain ?_ intoId (plain_inherit a)
  refine WellFormed.updateContact ?_ fromId (fun _ => rfl) ?_
  · refine WellFormed.uniteOptOuts ?_ now actor a.phone b.phone
    have hmoved := moved_moveConversations hs.conversationIds hs.openOnce now fromId intoId
    have hconversations := hs.withConversations hmoved.ids (fun c hc => ?_) hmoved.openOnce
    · exact { hconversations with }
    · rcases hmoved.contact c hc with hid | ⟨d, hd, hid⟩
      · exact ⟨b, hinto.1, hinto.2.trans hid.symm⟩
      · exact hid ▸ hs.conversationContact d hd
  · rintro c - - w hw
    obtain rfl := Option.some.inj hw
    rw [contacts_uniteOptOuts]
    exact ⟨b, hinto⟩

/-! ### One step -/

theorem WellFormed.deleteContact (hs : WellFormed s) (id : Uuid) :
    WellFormed (s.deleteContact id) := by
  unfold Store.deleteContact
  split
  · exact hs
  · next hfree =>
    simp only [Bool.or_eq_true, List.any_eq_true, beq_iff_eq, not_or, not_exists,
      not_and] at hfree
    have hthere : ∀ w, w ≠ id → (∃ d ∈ s.contacts, d.id = w) →
        ∃ d ∈ s.contacts.filter fun c => c.id != id, d.id = w := by
      rintro w hw ⟨d, hd, rfl⟩
      exact ⟨d, List.mem_filter.2 ⟨hd, by simpa using hw⟩, rfl⟩
    refine { hs with
      contactIds := hs.contactIds.sublist (List.filter_sublist.map _)
      contactsOld := fun c hc => hs.contactsOld c (List.mem_filter.1 hc).1
      numberContact := fun p hp => ?_
      survivor := fun c hc w hw => ?_
      conversationContact := fun c hc => hthere _ (hfree.1 c hc) (hs.conversationContact c hc) }
    · obtain ⟨hp, hother⟩ := List.mem_filter.1 hp
      exact hthere _ (by simpa using hother) (hs.numberContact p hp)
    · obtain ⟨hc, -⟩ := List.mem_filter.1 hc
      exact hthere w (fun hid => hfree.2 c hc (hid ▸ hw)) (hs.survivor c hc w hw)

theorem WellFormed.insertContactPhone (hs : WellFormed s) (contactId : Uuid)
    (phone : Phone) : WellFormed (s.insertContactPhone contactId phone) := by
  unfold Store.insertContactPhone
  split
  · exact hs
  · next hfree =>
    simp only [Bool.or_eq_true, not_or, Bool.not_eq_true, Option.isNone_eq_false_iff] at hfree
    obtain ⟨c, hc⟩ := Option.isSome_iff_exists.1 hfree.1
    refine { hs with numberContact := fun p hp => ?_ }
    rcases List.mem_append.1 hp with hp | hp
    · exact hs.numberContact p hp
    · rw [List.mem_singleton.1 hp]
      exact ⟨c, hs.find_eq_some.1 hc⟩

theorem WellFormed.unmergeContact (hs : WellFormed s) (id : Uuid) :
    WellFormed (unmergeContact id s).1 := by
  unfold Contacts.unmergeContact
  cases s.find id with
  | none => exact hs
  | some c =>
    dsimp only
    split_ifs
    · exact hs
    · exact hs.updateContact id (fun _ => rfl) fun _ _ _ w hw => nomatch hw

/-- **Every step keeps the tables well formed.** -/
theorem step_wellFormed (hs : WellFormed s) (i : ℤ × Event) : WellFormed (step s i).1 := by
  obtain ⟨now, event⟩ := i
  cases event with
  | insertContact phone consentSource consentAt attestedBy createdBy =>
    exact hs.insertContact rfl rfl
  | deleteContact id => exact hs.deleteContact id
  | insertContactPhone contactId phone => exact hs.insertContactPhone contactId phone
  | deleteContactPhone phone =>
    exact { hs with numberContact := fun p hp => hs.numberContact p (List.mem_filter.1 hp).1 }
  | merge actor fromId intoId =>
    change WellFormed (mergeContacts now actor fromId intoId s).1
    rcases mergeContacts_cases now actor fromId intoId s with ⟨h, -⟩ | ⟨a, b, hmergeable, h⟩
    · rw [h]
      exact hs
    · rw [h]
      exact hs.mergeInto hmergeable now actor
  | unmerge id => exact hs.unmergeContact id
  | close conversationId =>
    exact hs.updateConversations _
      ⟨fun _ => rfl, fun _ => rfl, fun _ => rfl, fun _ => rfl, fun _ h => nomatch h⟩
  | setSpam conversationId isSpam =>
    refine hs.updateConversations _ ?_
    cases isSpam with
    | true =>
      refine ⟨fun _ => rfl, fun _ => rfl, fun _ => rfl, fun _ => rfl, fun c h => ?_⟩
      simp at h
    | false => exact ⟨fun _ => rfl, fun _ => rfl, fun _ => rfl, fun _ => rfl, fun _ h => h⟩
  | writeCall id contactId => exact { hs with }
  | inbound m => exact hs.threadInbound now m
  | call picker k => exact hs.threadCall picker now k
  | missedCall k facts => exact hs.claimMissedCallText now k facts
  | optOut phone w => exact hs.writeOptOut now phone w

/-! ### Forwarding addresses -/

/-- What a step that is not a merge may do to the forwarding addresses. -/
inductive Relinks (nextId : Uuid) (before : List (Uuid × Option Uuid)) :
    List (Uuid × Option Uuid) → Prop
  | keep : Relinks nextId before before
  | insert : Relinks nextId before (before ++ [(nextId, none)])
  | unmerge (id : Uuid) :
      Relinks nextId before (update (fun x => x.1 == id) (fun x => (x.1, none)) before)
  | delete {id : Uuid} (hfree : ∀ x ∈ before, x.2 ≠ some id) :
      Relinks nextId before (before.filter fun x => x.1 != id)

theorem Resolved.relinks {r : Store × Uuid} (h : Resolved s r) :
    Relinks s.nextId (Contacts.links s) (Contacts.links r.1) := by
  rcases h.links with hlinks | hlinks
  · rw [hlinks]
    exact .keep
  · rw [hlinks]
    exact .insert

theorem links_takePlace {s placed : Store} {waits : Bool} {phoneNumberId contactId : Uuid}
    {phone : Phone} {place : Place} {conversationId : Uuid}
    (h : s.takePlace waits phoneNumberId contactId phone place = some (placed, conversationId)) :
    links placed = links s := by
  obtain ⟨conversations, nextId, rfl⟩ := takePlace_frame h
  rfl

theorem links_mergeInto {fromId intoId : Uuid} {a b : Contact} (now : ℤ) (actor : Option Uuid) :
    links (mergeInto now actor fromId intoId a b s) =
      update (fun x => x.1 == fromId) (fun x => (x.1, some intoId)) (links s) := by
  simp only [mergeInto, (plain_inherit a).links]
  rw [links_updateContact (g := fun x => (x.1, some intoId)) fun _ => rfl]
  simp only [links, contacts_uniteOptOuts]

theorem links_recordCall (sessionId : String) (conversationId : Uuid) (s : Store) :
    links (recordCall sessionId conversationId s).1 = links s := by
  unfold recordCall
  dsimp only
  split_ifs <;> rfl

theorem links_textBack (now : ℤ) (k : MissedCall) (facts : SendFacts) (conversationId : Uuid)
    (created : Bool) (s : Store) :
    links (textBack now k facts conversationId created s).1 = links s := by
  unfold textBack
  split_ifs
  · rfl
  · rfl
  · cases facts.spendError <;> rfl

/-- **What any other step does to the forwarding addresses.** -/
theorem step_links (hs : WellFormed s) {i : ℤ × Event}
    (hmerge : ∀ actor fromId intoId, i.2 ≠ .merge actor fromId intoId) :
    Relinks s.nextId (links s) (links (step s i).1) := by
  obtain ⟨now, event⟩ := i
  cases event with
  | insertContact phone consentSource consentAt attestedBy createdBy =>
    simp only [step, Store.insertContact]
    split_ifs
    · exact .keep
    · simp only [links, List.map_append, List.map_singleton, Contact.fresh]
      exact .insert
  | deleteContact id =>
    simp only [step, Store.deleteContact]
    split
    · exact .keep
    · next hfree =>
      have hlinks : links { s with contacts := s.contacts.filter fun c => c.id != id } =
          (links s).filter fun x => x.1 != id := by
        simp only [links, List.filter_map]
        rfl
      refine (show Relinks s.nextId (links s) (links { s with
        contacts := s.contacts.filter fun c => c.id != id }) from hlinks ▸ .delete ?_)
      simp only [Bool.or_eq_true, List.any_eq_true, beq_iff_eq, not_or, not_exists,
        not_and] at hfree
      intro x hx
      obtain ⟨c, hc, rfl⟩ := mem_links.1 hx
      exact hfree.2 c hc
  | insertContactPhone contactId phone =>
    simp only [step, Store.insertContactPhone]
    split_ifs
    · exact .keep
    · exact .keep
  | deleteContactPhone phone => exact .keep
  | merge actor fromId intoId => exact absurd rfl (hmerge actor fromId intoId)
  | unmerge id =>
    simp only [step, unmergeContact]
    cases s.find id with
    | none => exact .keep
    | some c =>
      dsimp only
      split_ifs
      · exact .keep
      · rw [links_updateContact (g := fun x => (x.1, none)) fun _ => rfl]
        exact .unmerge id
  | close | setSpam | writeCall => exact .keep
  | inbound m =>
    change Relinks s.nextId (links s) (links (threadInbound now m s).1)
    rcases threadInbound_cases now m s with
      ⟨stored, -, -, h⟩ | ⟨-, ⟨-, h⟩ | ⟨placed, id, htaken, h⟩⟩
    · rw [h]
      exact .keep
    · rw [h]
      exact .keep
    · rw [h]
      change Relinks s.nextId (links s) (links placed)
      rw [links_takePlace htaken]
      exact (resolved_resolveContact hs now m.fromE164).relinks
  | call picker k =>
    change Relinks s.nextId (links s) (links (threadCall picker now k s).1)
    rcases threadCall_cases picker now k s with
      ⟨h, -⟩ | ⟨known, contactId, hcontact, h | ⟨placed, id, htaken, h⟩⟩
    · rw [h]
      exact .keep
    · rw [h]
      exact (resolved_callContact hs hcontact).relinks
    · rw [h, links_recordCall, links_takePlace htaken]
      exact (resolved_callContact hs hcontact).relinks
  | missedCall k facts =>
    change Relinks s.nextId (links s) (links (claimMissedCallText now k facts s).1)
    rcases claimMissedCallText_cases now k facts s with ⟨h, -⟩ | ⟨placed, id, htaken, h⟩
    · rw [h]
      exact .keep
    · rw [h, links_textBack, links_takePlace htaken]
      exact (resolved_resolveContact hs now k.callerE164).relinks
  | optOut phone w => exact .keep

end Contacts
