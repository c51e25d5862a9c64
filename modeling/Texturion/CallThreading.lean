/-
**Calls and texts of one number.**

`api_thread_call`, `claim_missed_call_text` and `thread_inbound_message` each have the ladder of
rules in their own words.  The first asks for an open conversation of the contact on the line, and
forgot the number when contacts got more than one: where another number of the contact has an open
thread on the line, the call is written into that one.

Main result:

* `Contacts.threadsTogether_iff` — **the exact condition**.
-/

import Texturion.ThreadPlaces

namespace Contacts

open SqlTable OptOuts

/-! ### The three ladders -/

def LastNotSpam (phoneNumberId contactId : Uuid) (phone : Phone)
    (conversations : List Conversation) : Prop :=
  ∀ c, lastClosed (closedWith phoneNumberId contactId phone conversations) = some c →
    c.isSpam = false

variable {phoneNumberId contactId x id : Uuid} {phone : Phone} {conversations : List Conversation}
  {s : Store} {now : ℤ} {k : CallRecord}

/-- Passing over spam makes no difference where the last closed conversation is none. -/
theorem lastClosed_not_spam (h : LastNotSpam phoneNumberId contactId phone conversations) :
    lastClosed ((conversations.filter (·.isWith phoneNumberId contactId phone)).filter
        fun c => c.closedAt.isSome && !c.isSpam) =
      lastClosed (closedWith phoneNumberId contactId phone conversations) := by
  have hfilter : (conversations.filter (·.isWith phoneNumberId contactId phone)).filter
      (fun c => c.closedAt.isSome && !c.isSpam) =
        (closedWith phoneNumberId contactId phone conversations).filter fun c => !c.isSpam := by
    simp only [closedWith, List.filter_filter]
    refine List.filter_congr fun c _ => ?_
    rw [Bool.and_comm c.closedAt.isSome, Bool.and_assoc]
  rw [hfilter]
  cases hlast : lastClosed (closedWith phoneNumberId contactId phone conversations) with
  | none =>
    rw [head?_firstBy_eq_none.1 hlast]
    rfl
  | some c => exact head?_firstBy_filter hlast (by simp [h c hlast])

/-- `claim_missed_call_text` chooses as `thread_inbound_message` does. -/
theorem missedCallPlace_eq (h : LastNotSpam phoneNumberId contactId phone conversations) (now : ℤ) :
    missedCallPlace now phoneNumberId contactId phone conversations =
      inboundPlace now phoneNumberId contactId phone conversations := by
  simp only [missedCallPlace, inboundPlace, lastClosed_not_spam h]
  cases (conversations.filter (·.isWith phoneNumberId contactId phone)).find?
      (·.closedAt.isNone) with
  | some c => rfl
  | none =>
    cases hlast : lastClosed (closedWith phoneNumberId contactId phone conversations) with
    | none =>
      rw [closedWith] at hlast
      simp only [hlast]
    | some c =>
      have hspam := h c hlast
      rw [closedWith] at hlast
      simp only [hlast, hspam, Bool.false_eq_true, if_false]

/-- `api_thread_call` chooses as `claim_missed_call_text` does, where every open conversation of the
contact on the line is with the number. -/
theorem callPlace_eq (hids : (conversations.map (·.id)).Nodup) (hopen : OpenOnce conversations)
    (h : ∀ c ∈ conversations, c.openOn contactId phoneNumberId = true → c.contactPhone = phone)
    (picker : Picker) (now : ℤ) :
    callPlace picker now phoneNumberId contactId phone conversations =
      missedCallPlace now phoneNumberId contactId phone conversations := by
  simp only [callPlace, missedCallPlace]
  cases hpick : picker.pick (conversations.filter (·.openOn contactId phoneNumberId)) with
  | some c =>
    obtain ⟨hc, hopenc⟩ := List.mem_filter.1 (picker.mem hpick)
    obtain ⟨hcontact, hline, hnone⟩ := openOn_iff.1 hopenc
    have hphone := h c hc hopenc
    cases hfind : (conversations.filter (·.isWith phoneNumberId contactId phone)).find?
        (·.closedAt.isNone) with
    | none =>
      exact absurd hnone (noneOpen_of_find hfind c hc (isWith_iff.2 ⟨hline, hcontact, hphone⟩))
    | some d =>
      obtain ⟨hd, hwith, hnoned⟩ := mem_of_find_open hfind
      obtain ⟨hlined, hcontactd, hphoned⟩ := isWith_iff.1 hwith
      have hid := hopen c hc d hd hnone hnoned (hline.trans hlined.symm)
        (hcontact.trans hcontactd.symm) (hphone.trans hphoned.symm)
      rw [List.inj_on_of_nodup_map hids hc hd hid]
  | none =>
    have hno := noneOpen_of_pick hpick phone
    have hfind : (conversations.filter (·.isWith phoneNumberId contactId phone)).find?
        (·.closedAt.isNone) = none := by
      refine List.find?_eq_none.2 fun d hd hopend => ?_
      obtain ⟨hd, hwith⟩ := List.mem_filter.1 hd
      exact hno d hd hwith (Option.isNone_iff_eq_none.1 hopend)
    simp only [hfind, List.filter_filter, Bool.and_comm]

/-! ### Who owns a number -/

theorem owner_congr {s t : Store} (hphones : t.contactPhones = s.contactPhones)
    (hcontacts : t.contacts.map (fun c => (c.phone, c.id)) =
      s.contacts.map fun c => (c.phone, c.id)) (phone : Phone) : t.owner phone = s.owner phone := by
  have hprimary : ∀ l : List Contact, (l.find? fun c => c.phone == phone).map (·.id) =
      ((l.map fun c => (c.phone, c.id)).find? fun x => x.1 == phone).map (·.2) := by
    intro l
    rw [List.find?_map, Option.map_map]
    rfl
  simp only [Store.owner, Store.primary, hphones, hprimary, hcontacts]

theorem owner_resolveContact (s : Store) (now : ℤ) (phone : Phone) :
    (resolveContact now phone s).1.owner phone = some (resolveContact now phone s).2 := by
  cases howner : s.owner phone with
  | some id =>
    simp only [resolveContact, howner]
    have hsame : (s.updateContact id (.heard now)).owner phone = s.owner phone :=
      owner_congr (t := s.updateContact id (.heard now)) (s := s) rfl
        (map_update (f := Contact.heard now) (fun _ => rfl) s.contacts) phone
    exact hsame.trans howner
  | none =>
    have hnone := howner
    simp only [Store.owner, Option.or_eq_none_iff, Option.map_eq_none_iff] at hnone
    have hlast : s.contacts.find? (fun c => c.phone == phone) = none := hnone.2
    simp [resolveContact, Store.insertContact, Contact.fresh, Store.owner, hnone.1, Store.primary,
      List.find?_append, hlast]

/-! ### What is recorded -/

/-- The conversation is on the line, of the contact that owns the number, and with the number. -/
def Recorded (s : Store) (phoneNumberId : Uuid) (phone : Phone) (id : Uuid) : Prop :=
  ∃ c ∈ s.conversations, c.id = id ∧ c.phoneNumberId = phoneNumberId ∧
    s.owner phone = some c.contactId ∧ c.contactPhone = phone

def OneNumber (s : Store) (phoneNumberId : Uuid) (phone : Phone) : Prop :=
  ∀ x, s.owner phone = some x → ∀ c ∈ s.conversations, c.openOn x phoneNumberId = true →
    c.contactPhone = phone

/-- What the three ways have to do with a number on a line. -/
structure ThreadsTogether (now : ℤ) (phoneNumberId : Uuid) (phone : Phone) (s : Store) : Prop where
  call : ∀ picker k, k.phoneNumberId = phoneNumberId → k.callerE164 = phone → ∀ x id inserted,
    (threadCall picker now k s).2 = .threaded x id inserted →
      Recorded (threadCall picker now k s).1 phoneNumberId phone id
  missed : ∀ k facts, k.phoneNumberId = phoneNumberId → k.callerE164 = phone → ∀ id created,
    (claimMissedCallText now k facts s).2 = .claimed id created →
      Recorded (claimMissedCallText now k facts s).1 phoneNumberId phone id
  /-- The three ways choose the same place for the contact. -/
  places : (∀ x, s.owner phone = some x → LastNotSpam phoneNumberId x phone s.conversations) →
    ∀ picker, let x := (resolveContact now phone s).2
      callPlace picker now phoneNumberId x phone s.conversations =
          inboundPlace now phoneNumberId x phone s.conversations ∧
        missedCallPlace now phoneNumberId x phone s.conversations =
          inboundPlace now phoneNumberId x phone s.conversations
  /-- And return the same conversation. -/
  same : (∀ x, s.owner phone = some x → LastNotSpam phoneNumberId x phone s.conversations) →
    ∀ picker k, k.phoneNumberId = phoneNumberId → k.callerE164 = phone → k.createIfMissing = true →
      ∃ x id inserted, (threadCall picker now k s).2 = .threaded x id inserted ∧
        (∀ m : InboundText, m.phoneNumberId = phoneNumberId → m.fromE164 = phone →
          (∀ stored ∈ s.messages, stored.telnyxMessageId ≠ m.telnyxMessageId) →
          (threadInbound now m s).2 = .created id) ∧
        ∀ k' facts, k'.phoneNumberId = phoneNumberId → k'.callerE164 = phone → ∀ id' created,
          (claimMissedCallText now k' facts s).2 = .claimed id' created → id' = id

/-! ### The contact of a call -/

/-- What is known of the contact that a number resolves to, where there are no tombstones. -/
structure Reached (s k : Store) (phone : Phone) (x : Uuid) : Prop where
  wellFormed : WellFormed k
  live : (x, none) ∈ links k
  owner : k.owner phone = some x
  conversations : k.conversations = s.conversations
  known : s.owner phone = some x ∨ s.owner phone = none ∧ ∀ c ∈ s.conversations, c.contactId ≠ x

theorem live_of_unmerged (hlive : ∀ c ∈ s.contacts, c.mergedInto = none)
    (hx : ∃ c ∈ s.contacts, c.id = x) : (x, none) ∈ links s := by
  obtain ⟨c, hc, rfl⟩ := hx
  exact hlive c hc ▸ mem_links_of_mem hc

theorem reached_resolveContact (hs : WellFormed s) (hlive : ∀ c ∈ s.contacts, c.mergedInto = none)
    (now : ℤ) (phone : Phone) :
    Reached s (resolveContact now phone s).1 phone (resolveContact now phone s).2 := by
  have hr := resolved_resolveContact hs now phone
  refine ⟨hr.wellFormed, ?_, owner_resolveContact s now phone, hr.conversations, ?_⟩
  · cases howner : s.owner phone with
    | some id =>
      obtain ⟨hid, hlinks, -⟩ := resolveContact_of_owner howner now
      rw [hid, hlinks]
      exact live_of_unmerged hlive (hs.owner howner)
    | none =>
      obtain ⟨hid, hlinks, -⟩ := resolveContact_of_none howner now
      rw [hid, hlinks]
      exact List.mem_append_right _ (List.mem_singleton_self _)
  · cases howner : s.owner phone with
    | some id => exact .inl (congrArg some (resolveContact_of_owner howner now).1.symm)
    | none =>
      refine .inr ⟨rfl, fun c hc => ?_⟩
      rw [(resolveContact_of_none howner now).1]
      obtain ⟨d, hd, hid⟩ := hs.conversationContact c hc
      exact hid ▸ Nat.ne_of_lt (hs.contactsOld d hd)

theorem reached_callContact {s known : Store} (hs : WellFormed s)
    (hlive : ∀ c ∈ s.contacts, c.mergedInto = none)
    (h : callContact now k s = some (known, x)) : Reached s known k.callerE164 x := by
  unfold callContact at h
  split at h
  · obtain ⟨rfl, rfl⟩ := Prod.mk.inj (Option.some.inj h)
    exact reached_resolveContact hs hlive now k.callerE164
  · next hother =>
    obtain ⟨c, hc, hpair⟩ := Option.map_eq_some_iff.1 h
    obtain ⟨rfl, rfl⟩ := Prod.mk.inj hpair
    have hfound := (Option.filter_eq_some_iff.1 hc).1
    have hphones : s.contactPhones.find? (fun p => p.phone == k.callerE164) = none := by
      simp only [Bool.or_eq_true, not_or, Bool.not_eq_true, List.any_eq_false] at hother
      exact List.find?_eq_none.2 fun p hp => by rw [hother.2 p hp]; exact Bool.false_ne_true
    have howner : s.owner k.callerE164 = some c.id := by
      simp [Store.owner, hphones, hfound]
    exact ⟨hs, live_of_unmerged hlive ⟨c, List.mem_of_find?_eq_some hfound, rfl⟩, howner, rfl,
      .inl howner⟩

theorem Reached.one {s k : Store} (h : Reached s k phone x)
    (hone : OneNumber s phoneNumberId phone) :
    ∀ c ∈ k.conversations, c.openOn x phoneNumberId = true → c.contactPhone = phone := by
  rw [h.conversations]
  intro c hc hopen
  rcases h.known with howner | ⟨-, hnew⟩
  · exact hone x howner c hc hopen
  · exact absurd (openOn_iff.1 hopen).1 (hnew c hc)

theorem Reached.lastNotSpam {s k : Store} (h : Reached s k phone x)
    (hlast : ∀ x, s.owner phone = some x → LastNotSpam phoneNumberId x phone s.conversations) :
    LastNotSpam phoneNumberId x phone s.conversations := by
  rcases h.known with howner | ⟨-, hnew⟩
  · exact hlast x howner
  · intro c hc
    obtain ⟨hmem, hwith⟩ := List.mem_filter.1 (List.mem_filter.1 (mem_of_lastClosed hc)).1
    exact absurd (isWith_iff.1 hwith).2.1 (hnew c hmem)

/-! ### What the functions record -/

/-- A place of `claim_missed_call_text` is with the number, or new where none is open. -/
theorem missedCallPlace_right (now : ℤ) (phoneNumberId contactId : Uuid) (phone : Phone)
    (conversations : List Conversation) :
    (∀ c, (missedCallPlace now phoneNumberId contactId phone conversations).existing = some c →
      c ∈ conversations ∧ c.isWith phoneNumberId contactId phone = true) ∧
    (missedCallPlace now phoneNumberId contactId phone conversations = .create →
      NoneOpen conversations phoneNumberId contactId phone) := by
  simp only [missedCallPlace]
  cases hopen : (conversations.filter (·.isWith phoneNumberId contactId phone)).find?
      (·.closedAt.isNone) with
  | some c =>
    refine ⟨fun d hd => ?_, nofun⟩
    obtain rfl := Option.some.inj hd
    exact ⟨(mem_of_find_open hopen).1, (mem_of_find_open hopen).2.1⟩
  | none =>
    refine ⟨?_, fun _ => noneOpen_of_find hopen⟩
    cases hlast : lastClosed ((conversations.filter
        (·.isWith phoneNumberId contactId phone)).filter
          fun c => c.closedAt.isSome && !c.isSpam) with
    | none => exact fun d hd => nomatch hd
    | some c =>
      dsimp only
      split_ifs
      · intro d hd
        obtain rfl := Option.some.inj hd
        exact List.mem_filter.1 (List.mem_filter.1 (mem_of_lastClosed hlast)).1
      · exact fun d hd => nomatch hd

theorem recorded_of_taken {k placed : Store}
    {waits : Bool} {place : Place} (howner : k.owner phone = some x)
    (htaken : k.takePlace waits phoneNumberId x phone place = some (placed, id))
    {c : Conversation} (hc : c ∈ placed.conversations) (hid : c.id = id)
    (hline : c.phoneNumberId = phoneNumberId) (hcontact : c.contactId = x)
    (hphone : c.contactPhone = phone) : Recorded placed phoneNumberId phone id := by
  obtain ⟨conversations, nextId, rfl⟩ := takePlace_frame htaken
  exact ⟨c, hc, hid, hline, hcontact ▸ howner, hphone⟩

theorem recorded_recordCall (h : Recorded s phoneNumberId phone id) (sessionId : String)
    (conversationId : Uuid) :
    Recorded (recordCall sessionId conversationId s).1 phoneNumberId phone id := by
  simp only [recordCall]
  split_ifs
  · exact h
  · exact h

/-- **A recorded call** is in a conversation with the number, if the open ones of its contact
are. -/
theorem recorded_threadCall (hs : WellFormed s) (hlive : ∀ c ∈ s.contacts, c.mergedInto = none)
    (hone : OneNumber s k.phoneNumberId k.callerE164) {picker : Picker} {inserted : Bool}
    (h : (threadCall picker now k s).2 = .threaded x id inserted) :
    Recorded (threadCall picker now k s).1 k.phoneNumberId k.callerE164 id := by
  rcases threadCall_cases picker now k s with
    ⟨-, hno⟩ | ⟨known, contactId, hcontact, hout | ⟨placed, id', htaken, hout⟩⟩
  · exact absurd h (hno x id inserted)
  · rw [hout] at h
    cases h
  · rw [hout] at h ⊢
    obtain ⟨rfl, rfl, -⟩ := CallThreaded.threaded.inj h
    have hreached := reached_callContact hs hlive hcontact
    have hk := hreached.wellFormed
    rw [callPlace_eq hk.conversationIds hk.openOnce (hreached.one hone)] at htaken
    obtain ⟨hexisting, hcreate⟩ := missedCallPlace_right now k.phoneNumberId contactId k.callerE164
      known.conversations
    obtain ⟨placed', c, htaken', hc, -, hrow⟩ :=
      takePlace_right hk hreached.live hexisting hcreate false
    obtain ⟨rfl, rfl⟩ := Prod.mk.inj (Option.some.inj (htaken.symm.trans htaken'))
    exact recorded_recordCall (recorded_of_taken hreached.owner htaken hc rfl hrow.1 hrow.2.1
      hrow.2.2) _ _

theorem recorded_claimMissedCallText (hs : WellFormed s)
    (hlive : ∀ c ∈ s.contacts, c.mergedInto = none) {k : MissedCall} {facts : SendFacts}
    {created : Bool} (h : (claimMissedCallText now k facts s).2 = .claimed id created) :
    Recorded (claimMissedCallText now k facts s).1 k.phoneNumberId k.callerE164 id := by
  rcases claimMissedCallText_cases now k facts s with ⟨-, hno⟩ | ⟨placed, id', htaken, hout⟩
  · exact absurd h (hno id created)
  · rw [hout] at h ⊢
    obtain ⟨rfl, missedCalls, hstamped⟩ := textBack_claimed h
    have hreached := reached_resolveContact hs hlive now k.callerE164
    obtain ⟨hexisting, hcreate⟩ := missedCallPlace_right now k.phoneNumberId
      (resolveContact now k.callerE164 s).2 k.callerE164
      (resolveContact now k.callerE164 s).1.conversations
    obtain ⟨placed', c, htaken', hc, -, hrow⟩ :=
      takePlace_right hreached.wellFormed hreached.live hexisting hcreate true
    obtain ⟨rfl, rfl⟩ := Prod.mk.inj (Option.some.inj (htaken.symm.trans htaken'))
    have howner : placed.owner k.callerE164 = some c.contactId := by
      obtain ⟨conversations, nextId, rfl⟩ := takePlace_frame htaken
      exact hrow.2.1 ▸ hreached.owner
    rw [hstamped]
    exact ⟨{ c with lastAutoReplyAt := some now }, mem_update_of hc (by simp), rfl, hrow.1, howner,
      hrow.2.2⟩

/-- **The three ways return the same conversation.** -/
theorem same_of_oneNumber (hs : WellFormed s) (hlive : ∀ c ∈ s.contacts, c.mergedInto = none)
    (hphone : phone.isEmpty = false) (hone : OneNumber s phoneNumberId phone)
    (hlast : ∀ x, s.owner phone = some x → LastNotSpam phoneNumberId x phone s.conversations)
    (now : ℤ) (picker : Picker) (hline : k.phoneNumberId = phoneNumberId)
    (hcaller : k.callerE164 = phone) (hcreate : k.createIfMissing = true) :
    ∃ x id inserted, (threadCall picker now k s).2 = .threaded x id inserted ∧
      (∀ m : InboundText, m.phoneNumberId = phoneNumberId → m.fromE164 = phone →
        (∀ stored ∈ s.messages, stored.telnyxMessageId ≠ m.telnyxMessageId) →
        (threadInbound now m s).2 = .created id) ∧
      ∀ k' facts, k'.phoneNumberId = phoneNumberId → k'.callerE164 = phone → ∀ id' created,
        (claimMissedCallText now k' facts s).2 = .claimed id' created → id' = id := by
  subst hline hcaller
  have hreached := reached_resolveContact hs hlive now k.callerE164
  have hk := hreached.wellFormed
  have hspam := hreached.lastNotSpam hlast
  rw [← hreached.conversations] at hspam
  have hcall := callPlace_eq hk.conversationIds hk.openOnce (hreached.one hone) picker now
  have hmissed := missedCallPlace_eq hspam now
  have hspec := inboundPlace_spec now k.phoneNumberId (resolveContact now k.callerE164 s).2
    k.callerE164 (resolveContact now k.callerE164 s).1.conversations
  have hplace := takePlace_right hk hreached.live (fun _ => hspec.isWith) fun h => hspec.none_open h
  obtain ⟨placed, c, htaken, -, hid, -⟩ := hplace false
  obtain ⟨placed', d, htaken', -, hid', -⟩ := hplace true
  have hsame : d.id = c.id := hid'.trans hid.symm
  refine ⟨(resolveContact now k.callerE164 s).2, c.id, (recordCall k.callSessionId c.id placed).2,
    ?_, ?_, ?_⟩
  · rw [← hmissed, ← hcall] at htaken
    rw [threadCall_of_taken hphone hcreate htaken]
  · rintro m hline hfrom hnew
    rw [← hline, ← hfrom] at htaken'
    rw [threadInbound_of_taken hnew htaken', hsame]
  · rintro k' facts hline hcaller id' created h
    rcases claimMissedCallText_cases now k' facts s with ⟨-, hno⟩ | ⟨placed'', id'', htaken'', hout⟩
    · exact absurd h (hno id' created)
    · rw [hout] at h
      obtain ⟨rfl, -⟩ := textBack_claimed h
      rw [hline, hcaller, hmissed] at htaken''
      obtain ⟨-, rfl⟩ := Prod.mk.inj (Option.some.inj (htaken''.symm.trans htaken'))
      exact hsame

/-! ### The exact condition -/

def Picker.preferring (c : Conversation) : Picker where
  pick rows := if c ∈ rows then some c else rows.head?
  mem := by
    intro rows d hd
    split_ifs at hd with hc
    · exact Option.some.inj hd ▸ hc
    · exact List.mem_of_mem_head? hd
  finds := by
    intro rows hrows
    split_ifs
    · rfl
    · exact List.isSome_head?.2 hrows

theorem conversations_recordCall (sessionId : String) (conversationId : Uuid) (s : Store) :
    (recordCall sessionId conversationId s).1.conversations = s.conversations := by
  simp only [recordCall]
  split_ifs <;> rfl

/-- A call is recorded in any open conversation of the contact on the line that is found. -/
theorem oneNumber_of_recorded (hs : WellFormed s) (hphone : phone.isEmpty = false)
    (h : ∀ picker k, k.phoneNumberId = phoneNumberId → k.callerE164 = phone → ∀ x id inserted,
      (threadCall picker now k s).2 = .threaded x id inserted →
        Recorded (threadCall picker now k s).1 phoneNumberId phone id) :
    OneNumber s phoneNumberId phone := by
  intro x howner c hc hopen
  have hr := resolved_resolveContact hs now phone
  obtain ⟨hx, -⟩ := resolveContact_of_owner howner now
  have hc' : c ∈ (resolveContact now phone s).1.conversations := by
    rw [hr.conversations]
    exact hc
  have hplace : callPlace (.preferring c) now phoneNumberId (resolveContact now phone s).2 phone
      (resolveContact now phone s).1.conversations = .append c := by
    have hmem := List.mem_filter.2 ⟨hc', hx.symm ▸ hopen⟩
    simp only [callPlace, Picker.preferring, if_pos hmem]
  have hexisting : (Place.append c).existing = some c := rfl
  obtain ⟨placed, htaken, e, he, hid, -, -, hphonee⟩ := takePlace_existing hexisting hc' false
    phoneNumberId (resolveContact now phone s).2 phone
  have hplaced : WellFormed placed := by
    refine hr.wellFormed.takePlace hr.contact ?_ htaken
    exact ⟨hc', hx.symm ▸ hopen⟩
  rw [← hplace] at htaken
  have hout := threadCall_of_taken (k := ⟨phoneNumberId, phone, "", true⟩) hphone rfl htaken
  obtain ⟨d, hd, hdid, -, -, hdphone⟩ := h (.preferring c) ⟨phoneNumberId, phone, "", true⟩ rfl rfl
    _ _ _ (congrArg Prod.snd hout)
  rw [hout, conversations_recordCall] at hd
  obtain rfl := List.inj_on_of_nodup_map hplaced.conversationIds hd he (hdid.trans hid.symm)
  exact hphonee.symm.trans hdphone

/-- **A call threads with the number that called, and the three ways agree, exactly where every open
conversation of the contact on the line is with the number.** -/
theorem threadsTogether_iff {s : Store} (hs : WellFormed s)
    (hlive : ∀ c ∈ s.contacts, c.mergedInto = none) {phone : Phone}
    (hphone : phone.isEmpty = false) (now : ℤ) (phoneNumberId : Uuid) :
    ThreadsTogether now phoneNumberId phone s ↔ OneNumber s phoneNumberId phone := by
  refine ⟨fun h => oneNumber_of_recorded hs hphone h.call, fun hone => ⟨?_, ?_, ?_, ?_⟩⟩
  · rintro picker k rfl rfl x id inserted h
    exact recorded_threadCall hs hlive hone h
  · rintro k facts rfl rfl id created h
    exact recorded_claimMissedCallText hs hlive h
  · intro hlast picker
    have hreached := reached_resolveContact hs hlive now phone
    have hk := hreached.wellFormed
    have hmissed := missedCallPlace_eq (hreached.lastNotSpam hlast) now
    have hcall := callPlace_eq hk.conversationIds hk.openOnce (hreached.one hone) picker now
    rw [hreached.conversations] at hcall
    exact ⟨hcall.trans hmissed, hmissed⟩
  · intro hlast picker k hline hcaller hcreate
    exact same_of_oneNumber hs hlive hphone hone hlast now picker hline hcaller hcreate

/-! ### Two numbers of one contact -/

/-- A contact with a mobile and a landline, and an open thread with the mobile. -/
def twoNumbers : Store :=
  { Store.empty with
    contacts := [.fresh 0 "+15550100" none none]
    contactPhones := [{ contactId := 0, phone := "+15550190" }]
    conversations := [⟨1, 0, 7, "+15550100", .opened, false, none, none⟩]
    nextId := 2 }

theorem wellFormed_twoNumbers : WellFormed twoNumbers := by
  constructor <;> simp [twoNumbers, Store.empty, Contact.fresh, OpenOnce]

theorem threadsTogether_iff_mobile : ThreadsTogether 9 7 "+15550100" twoNumbers := by
  refine (threadsTogether_iff wellFormed_twoNumbers (by decide) (by decide +kernel) 9 7).2 ?_
  intro x _ c hc _
  obtain rfl := List.mem_singleton.1 hc
  rfl

/-- **A call in the thread of another number**: the landline calls, and the call is written into the
thread of the mobile. -/
theorem call_to_another_number : ¬ThreadsTogether 9 7 "+15550190" twoNumbers := by
  intro h
  have hphone := oneNumber_of_recorded wellFormed_twoNumbers (by decide +kernel) h.call 0
    (by decide +kernel) ⟨1, 0, 7, "+15550100", .opened, false, none, none⟩
    (List.mem_singleton_self _) (by decide +kernel)
  revert hphone
  decide

end Contacts
