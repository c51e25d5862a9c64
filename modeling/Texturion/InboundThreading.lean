/-
**Inbound texts after a merge.**

`thread_inbound_message` finds the contact of a number, which may be a tombstone, and looks for a
conversation with the id it has found, while the trigger on the table writes the id of the survivor.
A conversation that the trigger has moved away is not found, and where the survivor has an open one
the insert conflicts with it and the second lookup finds nothing: the function raises, and the text
is lost.  So a text from the number of a tombstone is delivered exactly where a new conversation is
right for both contacts.

Main result:

* `Contacts.delivered_iff_threadable` — **the exact condition**, in every reachable store.
-/

import Texturion.ContactTombstones
import Texturion.ThreadPlaces

namespace Contacts

open SqlTable OptOuts

/-- The text has not been stored yet. -/
def Unstored (s : Store) (m : InboundText) : Prop :=
  ∀ stored ∈ s.messages, stored.telnyxMessageId ≠ m.telnyxMessageId

/-- The conversation is the right one for the text: on its line, with its number, of a contact that
is not a tombstone, and the one that the rules ask for. -/
structure Rightful (now : ℤ) (m : InboundText) (before after : Store) (c : Conversation) :
    Prop where
  phoneNumberId : c.phoneNumberId = m.phoneNumberId
  contactPhone : c.contactPhone = m.fromE164
  live : Live after c.contactId
  owner : ∀ x, before.owner m.fromE164 = some x → c.contactId = before.follow x
  chosen : Chosen now m.phoneNumberId c.contactId m.fromE164 before.conversations c.id

/-- **An inbound text is delivered**: nothing is raised, it is stored exactly once, and in the right
conversation. -/
structure Delivered (now : ℤ) (m : InboundText) (s : Store) : Prop where
  returned : (threadInbound now m s).2 ≠ .raised
  once : (threadInbound now m s).1.messages.countP
    (fun stored => stored.telnyxMessageId == m.telnyxMessageId) = 1
  openOnce : OpenOnce (threadInbound now m s).1.conversations
  placed : Unstored s m → ∃ c ∈ (threadInbound now m s).1.conversations,
    (threadInbound now m s).2 = .created c.id ∧
      (⟨m.telnyxMessageId, c.id, m.body⟩ : Message) ∈ (threadInbound now m s).1.messages ∧
        Rightful now m s (threadInbound now m s).1 c

/-- Where the number belongs to a tombstone, its survivor is not one, and neither of the two has a
conversation that would take the text. -/
def Threadable (now : ℤ) (m : InboundText) (s : Store) : Prop :=
  Unstored s m → ∀ c ∈ s.contacts, s.owner m.fromE164 = some c.id → ∀ w, c.mergedInto = some w →
    Live s w ∧ Untaken now m.phoneNumberId c.id m.fromE164 s.conversations ∧
      Untaken now m.phoneNumberId w m.fromE164 s.conversations

/-! ### One text -/

variable {s placed k : Store} {now : ℤ} {m : InboundText} {c : Conversation} {x w : Uuid}

theorem live_iff {id : Uuid} : Live s id ↔ (id, none) ∈ links s := by
  simp [Live, links]

theorem countP_of_stored (hs : WellFormed s) {id : String}
    (h : id ∈ s.messages.map (·.telnyxMessageId)) :
    s.messages.countP (fun stored => stored.telnyxMessageId == id) = 1 := by
  have hcount : (s.messages.map (·.telnyxMessageId)).count id = 1 :=
    List.count_eq_one_of_mem hs.messageIds h
  rw [List.count_eq_countP, List.countP_map] at hcount
  exact hcount

theorem delivered_of_stored (hs : WellFormed s) (h : ¬Unstored s m) : Delivered now m s := by
  rcases threadInbound_cases now m s with ⟨stored, hstored, hid, hout⟩ | ⟨hnew, -⟩
  · constructor
    · rw [hout]
      exact nofun
    · rw [hout]
      exact countP_of_stored hs (List.mem_map.2 ⟨stored, hstored, hid⟩)
    · rw [hout]
      exact hs.openOnce
    · exact fun hnew => absurd hnew h
  · exact absurd hnew h

/-- A new text that takes the place of the right conversation is delivered. -/
theorem delivered_of_rightful (hs : WellFormed s) (hout : threadInbound now m s = ({ placed with
      messages := placed.messages ++ [⟨m.telnyxMessageId, c.id, m.body⟩] }, .created c.id))
    (hc : c ∈ placed.conversations) (hright : Rightful now m s placed c) : Delivered now m s := by
  have hafter := hs.threadInbound now m
  have hstored : (⟨m.telnyxMessageId, c.id, m.body⟩ : Message) ∈
      (threadInbound now m s).1.messages := by
    rw [hout]
    exact List.mem_append_right _ (List.mem_singleton_self _)
  refine ⟨?_, countP_of_stored hafter (List.mem_map_of_mem hstored), hafter.openOnce, fun _ => ?_⟩
  · rw [hout]
    exact nofun
  · refine ⟨c, ?_, ?_, hstored, ?_⟩
    · rw [hout]
      exact hc
    · rw [hout]
    · rw [hout]
      exact { hright with live := hright.live }

/-- The place that a text takes has the right conversation, of the contact or of its survivor. -/
structure Holds (now : ℤ) (m : InboundText) (k placed : Store) (x : Uuid) (c : Conversation) :
    Prop where
  mem : c ∈ placed.conversations
  phoneNumberId : c.phoneNumberId = m.phoneNumberId
  contactPhone : c.contactPhone = m.fromE164
  contactId : c.contactId = x
  chosen : Chosen now m.phoneNumberId x m.fromE164 k.conversations c.id

theorem takePlace_of_live (hk : WellFormed k) (hx : (x, none) ∈ links k) (now : ℤ)
    (m : InboundText) :
    ∃ placed c, k.takePlace true m.phoneNumberId x m.fromE164
        (inboundPlace now m.phoneNumberId x m.fromE164 k.conversations) = some (placed, c.id) ∧
      Holds now m k placed x c := by
  have hspec := inboundPlace_spec now m.phoneNumberId x m.fromE164 k.conversations
  obtain ⟨placed, c, htaken, hc, hid, hline, hcontact, hphone⟩ :=
    takePlace_right hk hx (fun _ => hspec.isWith) (fun h => hspec.none_open h) true
  refine ⟨placed, c, htaken, hc, hline, hphone, hcontact, ?_⟩
  rw [hid]
  exact hspec.chosen hk.openOnce hk.nextId_ne

/-- The number of a tombstone: a new conversation of the survivor is right if neither of the two has
one to take. -/
theorem takePlace_of_tombstone (hk : WellFormed k) (hx : (x, some w) ∈ links k)
    (hold : Untaken now m.phoneNumberId x m.fromE164 k.conversations)
    (hnew : Untaken now m.phoneNumberId w m.fromE164 k.conversations) :
    ∃ placed c, k.takePlace true m.phoneNumberId x m.fromE164
        (inboundPlace now m.phoneNumberId x m.fromE164 k.conversations) = some (placed, c.id) ∧
      Holds now m k placed w c := by
  have hcreate : inboundPlace now m.phoneNumberId x m.fromE164 k.conversations = .create :=
    (inboundPlace_spec now m.phoneNumberId x m.fromE164 k.conversations).create_of_untaken hold
  have hfollow : k.follow x = w := follow_eq hk hx
  rw [hcreate]
  rcases takePlace_create hold.1 true with ⟨-, hopen⟩ | ⟨-, placed, htaken, c, hc, hid, hrow⟩
  · rw [hfollow] at hopen
    exact absurd hnew.1 hopen
  · refine ⟨placed, c, hid ▸ htaken, hc, hrow.1, hrow.2.2, hrow.2.1.trans hfollow, ?_⟩
    refine ⟨fun d hd hwith hopen => absurd hopen (hnew.1 d hd hwith),
      fun _ d hd htaken => absurd htaken (hnew.2 d hd), fun _ d hd => ?_⟩
    rw [hid]
    exact hk.nextId_ne d hd

theorem untaken_of_takePlace (hk : WellFormed k) {x w id : Uuid} (hx : (x, some w) ∈ links k)
    (htaken : k.takePlace true m.phoneNumberId x m.fromE164
      (inboundPlace now m.phoneNumberId x m.fromE164 k.conversations) = some (placed, id))
    (hc : c ∈ placed.conversations) (hid : c.id = id) (hlive : Live placed c.contactId)
    (hchosen : Chosen now m.phoneNumberId c.contactId m.fromE164 k.conversations c.id) :
    Live k w ∧ Untaken now m.phoneNumberId x m.fromE164 k.conversations ∧
      Untaken now m.phoneNumberId w m.fromE164 k.conversations := by
  have hspec := inboundPlace_spec now m.phoneNumberId x m.fromE164 k.conversations
  have hplaced : WellFormed placed := by
    obtain ⟨d, hd, heq⟩ := List.mem_map.1 hx
    exact hk.takePlace ⟨d, hd, (Prod.mk.inj heq).1⟩ (fits_inboundPlace ..) htaken
  have hlinks : links placed = links k := links_takePlace htaken
  generalize inboundPlace now m.phoneNumberId x m.fromE164 k.conversations = place
    at hspec htaken
  cases hexisting : place.existing with
  | some e =>
      -- the conversation is still the one of the tombstone
      obtain ⟨he, hwith⟩ := hspec.isWith hexisting
      obtain ⟨-, hcontact, -⟩ := isWith_iff.1 hwith
      obtain ⟨placed', htaken', d, hd, hdid, -, hcontactd, -⟩ :=
        takePlace_existing hexisting he true m.phoneNumberId x m.fromE164
      obtain ⟨rfl, rfl⟩ := Prod.mk.inj (Option.some.inj (htaken.symm.trans htaken'))
      obtain rfl := List.inj_on_of_nodup_map hplaced.conversationIds hc hd (hid.trans hdid.symm)
      have hnone : (x, none) ∈ links k := by
        rw [← hlinks, ← hcontact, ← hcontactd]
        exact live_iff.1 hlive
      exact nomatch hk.links_inj hx hnone
  | none =>
      obtain rfl := existing_eq_none hexisting
      have hfollow : k.follow x = w := follow_eq hk hx
      rcases takePlace_create hspec.1 true with
        ⟨hnone, -⟩ | ⟨hno, placed', htaken', d, hd, hdid, -, hcontactd, -⟩
      · exact nomatch hnone.symm.trans htaken
      · obtain ⟨rfl, rfl⟩ := Prod.mk.inj (Option.some.inj (htaken.symm.trans htaken'))
        obtain rfl := List.inj_on_of_nodup_map hplaced.conversationIds hc hd (hid.trans hdid.symm)
        rw [hcontactd, hfollow] at hlive hchosen
        rw [hfollow] at hno
        refine ⟨live_iff.2 (hlinks ▸ live_iff.1 hlive), hspec, hno, fun e he htake => ?_⟩
        have hold : e ∈ k.conversations :=
          (List.mem_filter.1 (List.mem_filter.1 (mem_of_lastClosed he)).1).1
        exact hk.nextId_ne e hold (hid.symm.trans (hchosen.taken hno e he htake))

section

variable (hs : WellFormed s)
include hs

/-- The contact that the number resolves to, in the tables that this leaves. -/
theorem Holds.delivered (hnew : Unstored s m)
    (htaken : (resolveContact now m.fromE164 s).1.takePlace true m.phoneNumberId
      (resolveContact now m.fromE164 s).2 m.fromE164
      (inboundPlace now m.phoneNumberId (resolveContact now m.fromE164 s).2 m.fromE164
        (resolveContact now m.fromE164 s).1.conversations) = some (placed, c.id))
    (h : Holds now m (resolveContact now m.fromE164 s).1 placed w c)
    (hlive : (w, none) ∈ links (resolveContact now m.fromE164 s).1)
    (howner : ∀ x, s.owner m.fromE164 = some x → w = s.follow x) : Delivered now m s := by
  have hr := resolved_resolveContact hs now m.fromE164
  refine delivered_of_rightful hs (threadInbound_of_taken hnew htaken) h.mem
    ⟨h.phoneNumberId, h.contactPhone, ?_, fun x hx => h.contactId.trans (howner x hx), ?_⟩
  · rw [h.contactId, live_iff, links_takePlace htaken]
    exact hlive
  · rw [h.contactId, ← hr.conversations]
    exact h.chosen

/-- **A text to a contact that is not a tombstone is delivered**, and so is one from a new
number. -/
theorem delivered_of_live (hnew : Unstored s m)
    (hlive : ∀ x, s.owner m.fromE164 = some x → Live s x) : Delivered now m s := by
  have hr := resolved_resolveContact hs now m.fromE164
  have hcontact : ((resolveContact now m.fromE164 s).2, none) ∈
      links (resolveContact now m.fromE164 s).1 := by
    cases howner : s.owner m.fromE164 with
    | some x =>
        obtain ⟨hx, hlinks, -⟩ := resolveContact_of_owner howner now
        rw [hx, hlinks]
        exact live_iff.1 (hlive x howner)
    | none =>
        obtain ⟨hx, hlinks, -⟩ := resolveContact_of_none howner now
        rw [hx, hlinks]
        exact List.mem_append_right _ (List.mem_singleton_self _)
  obtain ⟨placed, c, htaken, hholds⟩ := takePlace_of_live hr.wellFormed hcontact now m
  refine hholds.delivered hs hnew htaken hcontact fun x hx => ?_
  rw [(resolveContact_of_owner hx now).1, follow_eq hs (live_iff.1 (hlive x hx))]
  rfl

theorem delivered_tombstone_iff (hnew : Unstored s m) (howner : s.owner m.fromE164 = some x)
    (hx : (x, some w) ∈ links s) :
    Delivered now m s ↔ Live s w ∧ Untaken now m.phoneNumberId x m.fromE164 s.conversations ∧
      Untaken now m.phoneNumberId w m.fromE164 s.conversations := by
  have hr := resolved_resolveContact hs now m.fromE164
  obtain ⟨hcontact, hlinks, -⟩ := resolveContact_of_owner howner now
  have hx' : (((resolveContact now m.fromE164 s).2, some w) : Uuid × Option Uuid) ∈
      links (resolveContact now m.fromE164 s).1 := by
    rw [hcontact, hlinks]
    exact hx
  constructor
  · intro h
    obtain ⟨c, hc, hout, -, hright⟩ := h.placed hnew
    rcases threadInbound_cases now m s with ⟨stored, hstored, hid, -⟩ | ⟨-, hcases⟩
    · exact absurd hid (hnew stored hstored)
    rcases hcases with ⟨-, hraised⟩ | ⟨placed, id, htaken, hthreaded⟩
    · exact absurd (by rw [hraised]) h.returned
    rw [hthreaded] at hc hout hright
    obtain rfl := Threaded.created.inj hout
    have huntaken := untaken_of_takePlace hr.wellFormed hx' htaken hc rfl
      (live_iff.2 (live_iff.1 hright.live)) (hr.conversations ▸ hright.chosen)
    rw [hr.conversations, hcontact, live_iff, hlinks] at huntaken
    exact ⟨live_iff.2 huntaken.1, huntaken.2⟩
  · rintro ⟨hlive, hold, hnew'⟩
    rw [← hr.conversations] at hold hnew'
    rw [← hcontact] at hold
    obtain ⟨placed, c, htaken, hholds⟩ := takePlace_of_tombstone hr.wellFormed hx' hold hnew'
    refine hholds.delivered hs hnew htaken (hlinks ▸ live_iff.1 hlive) fun y hy => ?_
    obtain rfl := Option.some.inj (howner.symm.trans hy)
    rw [follow_eq hs hx]
    rfl

/-- **Exactly the threadable texts are delivered.** -/
theorem delivered_iff : Delivered now m s ↔ Threadable now m s := by
  by_cases hnew : Unstored s m
  · constructor
    · rintro h - c hc howner w hw
      exact (delivered_tombstone_iff hs hnew howner (hw ▸ mem_links_of_mem hc)).1 h
    · intro h
      by_cases hlive : ∀ x, s.owner m.fromE164 = some x → Live s x
      · exact delivered_of_live hs hnew hlive
      · obtain ⟨x, hx⟩ := not_forall.1 hlive
        obtain ⟨howner, hdead⟩ := Classical.not_imp.1 hx
        obtain ⟨c, hc, rfl⟩ := hs.owner howner
        obtain ⟨w, hw⟩ : ∃ w, c.mergedInto = some w :=
          Option.ne_none_iff_exists'.1 fun hnone => hdead ⟨c, hc, rfl, hnone⟩
        exact (delivered_tombstone_iff hs hnew howner (hw ▸ mem_links_of_mem hc)).2
          (h hnew c hc howner w hw)
  · exact ⟨fun _ h => absurd h hnew, fun _ => delivered_of_stored hs hnew⟩

end

/-- **Inbound threading after merges**: in every store that any run reaches, a text is delivered
exactly when it is threadable. -/
theorem delivered_iff_threadable (run : List (ℤ × Event)) (now : ℤ) (m : InboundText) :
    Delivered now m (Reactive.final step Store.empty run) ↔
      Threadable now m (Reactive.final step Store.empty run) :=
  delivered_iff (Reactive.final_of_inv step (P := WellFormed) (fun _ i h => step_wellFormed h i)
    wellFormed_empty run)

/-! ### A text after a merge -/

/-- Two contacts, a text of the second, the merge of the first into it, a text of the first. -/
def mergedRun : List (ℤ × Event) :=
  [(0, .insertContact "+15550100" none none none none),
    (1, .insertContact "+15550101" none none none none),
    (2, .merge none 0 1),
    (3, .inbound ⟨7, "+15550100", "Are you open?", "m1"⟩)]

/-- **A text that is lost**: the first text of the number since the merge has made a conversation of
the survivor, and the second one raises. -/
theorem text_lost :
    (threadInbound 4 ⟨7, "+15550100", "Hello?", "m2"⟩
      (Reactive.final step Store.empty mergedRun)).2 = .raised := by
  decide +kernel

end Contacts
