/-
**Does a number belong to one customer?**

The primary numbers are a column of `contacts`, the other numbers are `contact_phones`, and each
table is unique on its own.  `POST /contacts/:id/phones` looks a number up in both before it inserts
it, in calls of its own; an import upserts contacts by their primary numbers and looks into the
other table not at all.  Both are handlers on the tables of `Texturion/ContactStore.lean`, where
texts, calls and merges happen between any two of their calls.

Main result:

* `ContactNumbers.one_owner_iff` — **the exact runs in which a number belongs to one customer**.
-/

import Texturion.ContactImport
import Texturion.ContactRuns
import Texturion.ThreadPlaces

namespace ContactNumbers

open Contacts SqlTable OptOuts

/-! ### The handlers -/

/-- The columns that a row of an import writes on a contact, with the columns its call names. -/
def imported (keys : ContactImport.Columns) (row : ContactImport.Row) (c : Contact) : Contact :=
  let basis := row.consent.getD .empty
  { c with
    deletedAt := none
    createdBy := some row.createdBy
    consentSource := if keys.consent then basis.source else c.consentSource
    consentAt := if keys.consent then basis.consentAt else c.consentAt
    consentAttestedBy := if keys.consent then basis.attestedBy else c.consentAttestedBy }

/-- One row of the upsert, `on conflict (company_id, phone_e164)`. -/
def upsertContact (keys : ContactImport.Columns) (s : Store) (row : ContactImport.Row) : Store :=
  match s.primary row.phone with
  | some c => s.updateContact c.id (imported keys row)
  | none =>
    { s with nextId := s.nextId + 1 }.insertContact
      (imported keys row (.fresh s.nextId row.phone none none))

def upsertContacts (rows : List ContactImport.Row) (s : Store) : Store :=
  match rows.head? with
  | none => s
  | some first => rows.foldl (upsertContact first.columns) s

def contactPhoneCap : ℕ := 8

/-- What `POST /contacts/:id/phones` answers. -/
inductive Response
  | notFound
  | notAPhoneNumber
  | alreadyMainNumber
  | ownedByCustomer (id : Uuid)
  | alreadyOnThisCustomer
  | onAnotherCustomer
  | tooMany
  | failed
  | created
  deriving DecidableEq

/-- The next call of a handler. -/
inductive Point
  /-- `findContact`; the number is as `normalizeNanpPhone` gives it. -/
  | find (contactId : Uuid) (phone : Option Phone)
  /-- `number owner lookup`. -/
  | owner (contactId : Uuid) (phone : Phone)
  /-- `number claim lookup`. -/
  | taken (contactId : Uuid) (phone : Phone)
  /-- `number count`. -/
  | count (contactId : Uuid) (phone : Phone)
  /-- `create contact phone`. -/
  | insert (contactId : Uuid) (phone : Phone)
  /-- `import upsert`, with the calls that are left. -/
  | upsert (calls : List (List ContactImport.Row))

/-- One call. -/
def advance (s : Store) (p : Point) (_ : Unit) : Store × Option Point × List Response :=
  match p with
  | .find contactId phone =>
    match s.find contactId, phone with
    | none, _ => (s, none, [.notFound])
    | some _, none => (s, none, [.notAPhoneNumber])
    | some c, some phone =>
      if phone = c.phone then (s, none, [.alreadyMainNumber])
      else (s, some (.owner contactId phone), [])
  | .owner contactId phone =>
    match s.primary phone with
    | some c => (s, none, [.ownedByCustomer c.id])
    | none => (s, some (.taken contactId phone), [])
  | .taken contactId phone =>
    match s.contactPhones.find? fun p => p.phone == phone with
    | some p =>
      (s, none,
        [if p.contactId = contactId then .alreadyOnThisCustomer else .onAnotherCustomer])
    | none => (s, some (.count contactId phone), [])
  | .count contactId phone =>
    if contactPhoneCap ≤ s.contactPhones.countP fun p => p.contactId == contactId then
      (s, none, [.tooMany])
    else (s, some (.insert contactId phone), [])
  | .insert contactId phone =>
    if (s.find contactId).isNone || s.contactPhones.any (·.phone == phone) then
      (s, none, [.failed])
    else (s.insertContactPhone contactId phone, none, [.created])
  | .upsert [] => (s, none, [])
  | .upsert (rows :: calls) => (upsertContacts rows s, some (.upsert calls), [])

/-- A member adds a number; or imports contacts, in the calls that `groupByKeySet` and
`IMPORT_CHUNK` make of the rows. -/
inductive Request
  | addNumber (contactId : Uuid) (phone : Option Phone)
  | importContacts (calls : List (List ContactImport.Row))

/-- The event is not the insert of a contact or of a number by somebody who asks nothing first. -/
def Settled (i : ℤ × Event) : Prop :=
  match i.2 with
  | .insertContact .. => False
  | .insertContactPhone .. => False
  | _ => True

/-- Added numbers and imports; in between there are texts, calls, merges, removed numbers and
whatever else happens to the tables in one statement. -/
def system :
    Interleaving.System Store Request Point Unit { i : ℤ × Event // Settled i } Response where
  enter
    | .addNumber contactId phone => .find contactId phone
    | .importContacts calls => .upsert calls
  advance := advance
  world s i := ((step s i.1).1, [])

abbrev State := Interleaving.State Store Point

abbrev Input := Interleaving.Input Request Unit { i : ℤ × Event // Settled i }

/-! ### Owners -/

/-- No number is at once the primary number of a contact and another number of one. -/
def OneOwner (s : Store) : Prop :=
  ∀ c ∈ s.contacts, ∀ p ∈ s.contactPhones, p.phone ≠ c.phone

/-- A contact that is new has a number that was no other number; and no other number is new. -/
structure Quiet (s s' : Store) : Prop where
  contacts : ∀ c' ∈ s'.contacts, (∃ c ∈ s.contacts, c.phone = c'.phone) ∨
    ∀ p ∈ s.contactPhones, p.phone ≠ c'.phone
  contactPhones : ∀ p ∈ s'.contactPhones, p ∈ s.contactPhones

theorem Quiet.oneOwner {s s' : Store} (h : Quiet s s') (hs : OneOwner s) : OneOwner s' := by
  intro c' hc' p hp
  rcases h.contacts c' hc' with ⟨c, hc, hphone⟩ | hfree
  · exact hphone ▸ hs c hc p (h.contactPhones p hp)
  · exact hfree p (h.contactPhones p hp)

theorem quiet_of_eq {s s' : Store}
    (hcontacts : s'.contacts.map (·.phone) = s.contacts.map (·.phone))
    (hphones : s'.contactPhones = s.contactPhones) : Quiet s s' := by
  refine ⟨fun c' hc' => .inl ?_, fun p hp => hphones ▸ hp⟩
  have hmem : c'.phone ∈ s.contacts.map (·.phone) := hcontacts ▸ List.mem_map_of_mem hc'
  exact List.mem_map.1 hmem

theorem quiet_refl (s : Store) : Quiet s s := quiet_of_eq rfl rfl

theorem quiet_updateContact (s : Store) (id : Uuid) {f : Contact → Contact}
    (hf : ∀ c, (f c).phone = c.phone) : Quiet s (s.updateContact id f) :=
  quiet_of_eq (map_updateContact hf s id) rfl

theorem Quiet.congr {s s' s'' : Store} (h : Quiet s s') (hcontacts : s''.contacts = s'.contacts)
    (hphones : s''.contactPhones = s'.contactPhones) : Quiet s s'' :=
  ⟨fun c hc => h.contacts c (hcontacts ▸ hc), fun p hp => h.contactPhones p (hphones ▸ hp)⟩

/-- The contact of a text or a call is inserted only where nobody has its number. -/
theorem quiet_resolveContact (now : ℤ) (phone : Phone) (s : Store) :
    Quiet s (resolveContact now phone s).1 := by
  unfold resolveContact
  cases howner : s.owner phone with
  | some id => exact quiet_updateContact s id (plain_heard now).phone
  | none =>
    simp only [Store.owner, Option.or_eq_none_iff, Option.map_eq_none_iff,
      List.find?_eq_none] at howner
    obtain ⟨hphones, hprimary⟩ := howner
    have hfree : ({ s with nextId := s.nextId + 1 } : Store).primary phone = none := hprimary
    refine ⟨fun c' hc' => ?_, fun p hp => ?_⟩
    · simp only [Store.insertContact, Contact.fresh, hfree, Option.isSome_none,
        Bool.false_eq_true, if_false] at hc'
      rcases List.mem_append.1 hc' with hc' | hc'
      · exact .inl ⟨c', hc', rfl⟩
      · right
        rw [List.mem_singleton.1 hc']
        intro p hp
        simpa using hphones p hp
    · simpa [Store.insertContact, Contact.fresh, hfree] using hp

theorem quiet_callContact {s known : Store} {now : ℤ} {k : CallRecord} {contactId : Uuid}
    (h : callContact now k s = some (known, contactId)) : Quiet s known := by
  unfold callContact at h
  split at h
  · have hknown : (resolveContact now k.callerE164 s).1 = known :=
      congrArg Prod.fst (Option.some.inj h)
    rw [← hknown]
    exact quiet_resolveContact now k.callerE164 s
  · obtain ⟨c, -, hpair⟩ := Option.map_eq_some_iff.1 h
    obtain ⟨rfl, -⟩ := Prod.mk.inj hpair
    exact quiet_refl s

theorem quiet_takePlace {s k placed : Store} (h : Quiet s k) {waits : Bool}
    {phoneNumberId contactId : Uuid} {phone : Phone} {place : Place} {conversationId : Uuid}
    (htaken : k.takePlace waits phoneNumberId contactId phone place =
      some (placed, conversationId)) : Quiet s placed := by
  obtain ⟨conversations, nextId, rfl⟩ := takePlace_frame htaken
  exact h.congr rfl rfl

theorem quiet_mergeInto (now : ℤ) (actor : Option Uuid) (fromId intoId : Uuid) (a b : Contact)
    (s : Store) : Quiet s (mergeInto now actor fromId intoId a b s) := by
  refine quiet_of_eq ?_ ?_
  · simp only [mergeInto, Store.updateContact, contacts_uniteOptOuts, update, List.map_map]
    refine List.map_congr_left fun c _ => ?_
    simp only [Function.comp_apply]
    split_ifs <;> rfl
  · simp only [mergeInto, Store.updateContact, uniteOptOuts]
    split_ifs <;> rfl

/-- **What happens between the calls gives no number a second owner.** -/
theorem quiet_event {i : ℤ × Event} (hi : Settled i) (s : Store) : Quiet s (step s i).1 := by
  obtain ⟨now, event⟩ := i
  cases event with
  | insertContact | insertContactPhone => cases hi
  | deleteContact id =>
    simp only [step, Store.deleteContact]
    split
    · exact quiet_refl s
    · refine ⟨fun c hc => .inl ⟨c, (List.mem_filter.1 hc).1, rfl⟩, fun p hp => ?_⟩
      exact (List.mem_filter.1 hp).1
  | deleteContactPhone phone =>
    exact ⟨fun c hc => .inl ⟨c, hc, rfl⟩, fun p hp => (List.mem_filter.1 hp).1⟩
  | merge actor fromId intoId =>
    change Quiet s (mergeContacts now actor fromId intoId s).1
    rcases mergeContacts_cases now actor fromId intoId s with ⟨h, -⟩ | ⟨a, b, -, h⟩
    · rw [h]
      exact quiet_refl s
    · rw [h]
      exact quiet_mergeInto now actor fromId intoId a b s
  | unmerge id =>
    simp only [step, unmergeContact]
    cases s.find id with
    | none => exact quiet_refl s
    | some c =>
      simp only
      split
      · exact quiet_refl s
      · exact quiet_updateContact s id fun _ => rfl
  | close | setSpam | writeCall | optOut => exact quiet_of_eq rfl rfl
  | inbound m =>
    change Quiet s (threadInbound now m s).1
    rcases threadInbound_cases now m s with
      ⟨stored, -, -, h⟩ | ⟨-, ⟨-, h⟩ | ⟨placed, id, htaken, h⟩⟩
    · rw [h]
      exact quiet_refl s
    · rw [h]
      exact quiet_refl s
    · rw [h]
      exact (quiet_takePlace (quiet_resolveContact ..) htaken).congr rfl rfl
  | call picker k =>
    change Quiet s (threadCall picker now k s).1
    rcases threadCall_cases picker now k s with
      ⟨h, -⟩ | ⟨known, contactId, hcontact, h | ⟨placed, id, htaken, h⟩⟩
    · rw [h]
      exact quiet_refl s
    · rw [h]
      exact quiet_callContact hcontact
    · rw [h]
      refine (quiet_takePlace (quiet_callContact hcontact) htaken).congr ?_ ?_
      · simp only [recordCall]
        split <;> rfl
      · simp only [recordCall]
        split <;> rfl
  | missedCall k facts =>
    change Quiet s (claimMissedCallText now k facts s).1
    rcases claimMissedCallText_cases now k facts s with ⟨h, -⟩ | ⟨placed, id, htaken, h⟩
    · rw [h]
      exact quiet_refl s
    · rw [h]
      refine (quiet_takePlace (quiet_resolveContact ..) htaken).congr ?_ ?_
      · unfold textBack
        split_ifs
        · rfl
        · rfl
        · cases facts.spendError <;> rfl
      · unfold textBack
        split_ifs
        · rfl
        · rfl
        · cases facts.spendError <;> rfl

/-! ### Texts go home -/

/-- A text from the primary number of a contact goes into a conversation of that contact, or of the
survivor of its merge. -/
def Home (now : ℤ) (m : InboundText) (s : Store) : Prop :=
  ∀ c, s.primary m.fromE164 = some c → ∀ id, (threadInbound now m s).2 = .created id →
    ∀ d ∈ (threadInbound now m s).1.conversations, d.id = id →
      d.contactId = c.id ∨ c.mergedInto = some d.contactId

theorem owner_of_oneOwner {s : Store} (hs : OneOwner s) {phone : Phone} {c : Contact}
    (hc : s.primary phone = some c) : s.owner phone = some c.id := by
  have hmem := List.mem_of_find?_eq_some hc
  have hphone : c.phone = phone := by simpa using List.find?_some hc
  have hnone : s.contactPhones.find? (fun p => p.phone == phone) = none := by
    refine List.find?_eq_none.2 fun p hp heq => ?_
    exact hs c hmem p hp ((eq_of_beq heq).trans hphone.symm)
  simp [Store.owner, hnone, hc]

theorem home_of_oneOwner {s : Store} (hwell : WellFormed s) (hs : OneOwner s) (now : ℤ)
    (m : InboundText) : Home now m s := by
  intro c hc id hcreated d hd hid
  obtain ⟨hcontact, hlinks, -⟩ := resolveContact_of_owner (owner_of_oneOwner hs hc) now
  have hafter := hwell.threadInbound now m
  rcases threadInbound_cases now m s with
    ⟨stored, -, -, h⟩ | ⟨-, ⟨-, h⟩ | ⟨placed, id', htaken, h⟩⟩
  · rw [h] at hcreated
    cases hcreated
  · rw [h] at hcreated
    cases hcreated
  · rw [h] at hcreated hd hafter
    obtain rfl : id' = id := Threaded.created.inj hcreated
    rw [hcontact] at htaken
    have hplace := inboundPlace_spec now m.phoneNumberId c.id m.fromE164
      (resolveContact now m.fromE164 s).1.conversations
    -- the conversation of the text is the one with its id
    have hsame : ∀ e ∈ placed.conversations, e.id = id' → d = e := fun e he hide =>
      List.inj_on_of_nodup_map hafter.conversationIds hd he (hid.trans hide.symm)
    generalize inboundPlace now m.phoneNumberId c.id m.fromE164
      (resolveContact now m.fromE164 s).1.conversations = place at htaken hplace
    cases hexisting : place.existing with
    | some e =>
      obtain ⟨he, hwith⟩ := hplace.isWith hexisting
      obtain ⟨placed', htaken', f, hf, hidf, -, hcontactf, -⟩ :=
        takePlace_existing hexisting he true m.phoneNumberId c.id m.fromE164
      obtain ⟨rfl, rfl⟩ := Prod.mk.inj (Option.some.inj (htaken'.symm.trans htaken))
      left
      rw [hsame f hf hidf, hcontactf]
      exact (isWith_iff.1 hwith).2.1
    | none =>
      obtain rfl := existing_eq_none hexisting
      rcases takePlace_create (hplace.none_open rfl) true with
        ⟨hnone, -⟩ | ⟨-, placed', htaken', f, hf, hidf, -, hcontactf, -⟩
      · rw [hnone] at htaken
        cases htaken
      · obtain ⟨rfl, rfl⟩ := Prod.mk.inj (Option.some.inj (htaken'.symm.trans htaken))
        have hlink : (c.id, c.mergedInto) ∈ links (resolveContact now m.fromE164 s).1 := by
          rw [hlinks]
          exact mem_links_of_mem (List.mem_of_find?_eq_some hc)
        rw [hsame f hf hidf, hcontactf,
          follow_eq (resolved_resolveContact hwell now m.fromE164).wellFormed hlink]
        cases c.mergedInto with
        | none => exact .inl rfl
        | some w => exact .inr rfl

/-! ### The writes of the handlers -/

theorem plain_imported (keys : ContactImport.Columns) (row : ContactImport.Row) :
    Plain (imported keys row) :=
  ⟨fun _ => rfl, fun _ => rfl, fun _ => rfl⟩

theorem WellFormed.upsertContact {s : Store} (hs : WellFormed s) (keys : ContactImport.Columns)
    (row : ContactImport.Row) : WellFormed (upsertContact keys s row) := by
  unfold ContactNumbers.upsertContact
  cases s.primary row.phone with
  | some c => exact hs.updatePlain c.id (plain_imported keys row)
  | none => exact hs.insertContact rfl rfl

theorem phones_upsertContact (keys : ContactImport.Columns) (s : Store) (row : ContactImport.Row)
    (phone : Phone) :
    phone ∈ (upsertContact keys s row).contacts.map (·.phone) ↔
      phone ∈ s.contacts.map (·.phone) ∨ phone = row.phone := by
  unfold upsertContact
  cases hprimary : s.primary row.phone with
  | some c =>
    have hmem : row.phone ∈ s.contacts.map (·.phone) := by
      have hphone : c.phone = row.phone := by simpa using List.find?_some hprimary
      exact hphone ▸ List.mem_map_of_mem (List.mem_of_find?_eq_some hprimary)
    simp only
    rw [map_updateContact (plain_imported keys row).phone]
    constructor
    · exact .inl
    · rintro (h | rfl)
      · exact h
      · exact hmem
  | none =>
    have hfree : ({ s with nextId := s.nextId + 1 } : Store).primary row.phone = none := hprimary
    simp only [Store.insertContact, imported, Contact.fresh, hfree, Option.isSome_none,
      Bool.false_eq_true, if_false, List.map_append, List.mem_append, List.map_cons,
      List.map_nil, List.mem_singleton]

@[simp] theorem contactPhones_upsertContact (keys : ContactImport.Columns) (s : Store)
    (row : ContactImport.Row) : (upsertContact keys s row).contactPhones = s.contactPhones := by
  unfold upsertContact
  cases s.primary row.phone with
  | some c => rfl
  | none =>
    simp only [Store.insertContact]
    split <;> rfl

theorem upsertContacts_spec (rows : List ContactImport.Row) (s : Store) :
    (WellFormed s → WellFormed (upsertContacts rows s)) ∧
      (upsertContacts rows s).contactPhones = s.contactPhones ∧
      ∀ phone, phone ∈ (upsertContacts rows s).contacts.map (·.phone) ↔
        phone ∈ s.contacts.map (·.phone) ∨ ∃ row ∈ rows, phone = row.phone := by
  have hfold : ∀ (keys : ContactImport.Columns) (rows : List ContactImport.Row) (s : Store),
      (WellFormed s → WellFormed (rows.foldl (upsertContact keys) s)) ∧
        (rows.foldl (upsertContact keys) s).contactPhones = s.contactPhones ∧
        ∀ phone, phone ∈ (rows.foldl (upsertContact keys) s).contacts.map (·.phone) ↔
          phone ∈ s.contacts.map (·.phone) ∨ ∃ row ∈ rows, phone = row.phone := by
    intro keys rows
    induction rows with
    | nil =>
      intro s
      exact ⟨id, rfl, fun phone => by simp⟩
    | cons row rows ih =>
      intro s
      obtain ⟨hwell, hphones, hcontacts⟩ := ih (upsertContact keys s row)
      refine ⟨fun hs => hwell (WellFormed.upsertContact hs keys row), ?_, fun phone => ?_⟩
      · exact hphones.trans (contactPhones_upsertContact keys s row)
      · rw [List.foldl_cons, hcontacts, phones_upsertContact, or_assoc,
          List.exists_mem_cons_iff]
  unfold upsertContacts
  cases hhead : rows.head? with
  | none =>
    obtain rfl := List.head?_eq_none_iff.1 hhead
    exact ⟨id, rfl, fun phone => by simp⟩
  | some first => exact hfold first.columns rows s

/-! ### One move -/

/-- The write of a handler meets no number of the other table. -/
def Clear (s : Store) : Point → Prop
  | .insert contactId phone => (s.find contactId).isSome = true → ∀ c ∈ s.contacts, phone ≠ c.phone
  | .upsert (rows :: _) => ∀ row ∈ rows, ∀ p ∈ s.contactPhones, p.phone ≠ row.phone
  | _ => True

def ClearMove (s : State) : Input → Prop
  | .step n _ => ∀ p, s.running[n]? = some p → Clear s.store p
  | _ => True

/-- After the move no number has two owners; and if it is a text, it goes home. -/
def Kept (s : State) (i : Input) : Prop :=
  OneOwner (Interleaving.step system s i).1.store ∧
    ∀ now m h, i = .world ⟨(now, .inbound m), h⟩ → Home now m s.store

theorem WellFormed.advance {s : Store} (hs : WellFormed s) (p : Point) (x : Unit) :
    WellFormed (advance s p x).1 := by
  cases p with
  | find contactId phone =>
    simp only [ContactNumbers.advance]
    split
    · exact hs
    · exact hs
    · split <;> exact hs
  | owner | taken | count =>
    simp only [ContactNumbers.advance]
    split <;> exact hs
  | insert contactId phone =>
    simp only [ContactNumbers.advance]
    split
    · exact hs
    · exact hs.insertContactPhone contactId phone
  | upsert calls =>
    cases calls with
    | nil => exact hs
    | cons rows calls => exact (upsertContacts_spec rows s).1 hs

/-- **One call** of a handler leaves every number with one owner exactly if it is clear. -/
theorem advance_oneOwner_iff {s : Store} (hs : OneOwner s) (p : Point) (x : Unit) :
    OneOwner (advance s p x).1 ↔ Clear s p := by
  cases p with
  | find contactId phone =>
    refine iff_of_true ?_ trivial
    simp only [advance]
    split
    · exact hs
    · exact hs
    · split <;> exact hs
  | owner | taken | count =>
    refine iff_of_true ?_ trivial
    simp only [advance]
    split <;> exact hs
  | insert contactId phone =>
    simp only [advance, Clear]
    by_cases hfind : (s.find contactId).isSome = true
    · by_cases htaken : s.contactPhones.any (·.phone == phone) = true
      · -- the number is another number already, and so it is no primary one
        simp only [htaken, Bool.or_true, if_true]
        refine iff_of_true hs fun _ c hc heq => ?_
        obtain ⟨p, hp, hphone⟩ := List.any_eq_true.1 htaken
        exact hs c hc p hp ((eq_of_beq hphone).trans heq)
      · have hnone : (s.find contactId).isNone = false := by simpa using hfind
        simp only [Bool.not_eq_true] at htaken
        simp only [hnone, htaken, Bool.or_self, Bool.false_eq_true, if_false,
          Store.insertContactPhone, hfind, forall_const]
        constructor
        · intro h c hc
          exact h c hc ⟨contactId, phone⟩ (List.mem_append_right _ (List.mem_singleton_self _))
        · intro h c hc p hp
          rcases List.mem_append.1 hp with hp | hp
          · exact hs c hc p hp
          · rw [List.mem_singleton.1 hp]
            exact h c hc
    · have hnone : (s.find contactId).isNone = true := by simpa using hfind
      simp only [hnone, Bool.true_or, if_true]
      exact iff_of_true hs fun h => absurd h hfind
  | upsert calls =>
    cases calls with
    | nil => exact iff_of_true hs trivial
    | cons rows calls =>
      obtain ⟨-, hphones, hcontacts⟩ := upsertContacts_spec rows s
      simp only [advance, Clear]
      constructor
      · intro h row hrow p hp heq
        have hmem := (hcontacts row.phone).2 (.inr ⟨row, hrow, rfl⟩)
        obtain ⟨c, hc, hphone⟩ := List.mem_map.1 hmem
        exact h c hc p (hphones ▸ hp) (heq.trans hphone.symm)
      · intro h c hc p hp heq
        rw [hphones] at hp
        rcases (hcontacts c.phone).1 (List.mem_map_of_mem hc) with hold | ⟨row, hrow, hphone⟩
        · obtain ⟨d, hd, hphone⟩ := List.mem_map.1 hold
          exact hs d hd p hp (heq.trans hphone.symm)
        · exact h row hrow p hp (heq.trans hphone)

theorem kept_iff {s : State} (hwell : WellFormed s.store) (hs : OneOwner s.store) (i : Input) :
    Kept s i ↔ ClearMove s i := by
  cases i with
  | start | crash => exact iff_of_true ⟨hs, fun _ _ _ h => nomatch h⟩ trivial
  | world e =>
    refine iff_of_true ⟨(quiet_event e.2 s.store).oneOwner hs, fun now m h heq => ?_⟩ trivial
    exact home_of_oneOwner hwell hs now m
  | step n x =>
    have hkept : Kept s (.step n x) ↔ OneOwner (Interleaving.step system s (.step n x)).1.store :=
      and_iff_left fun _ _ _ h => nomatch h
    rw [hkept]
    cases hp : s.running[n]? with
    | none =>
      have hstep : Interleaving.step system s (.step n x) = (s, []) := by
        simp [Interleaving.step, hp]
      rw [hstep]
      refine iff_of_true hs fun p hp' => ?_
      rw [hp] at hp'
      cases hp'
    | some p =>
      simp only [Interleaving.step, ClearMove, hp, Option.some.injEq, forall_eq']
      exact advance_oneOwner_iff hs p x

theorem wellFormed_move {s : State} (h : WellFormed s.store) (i : Input) :
    WellFormed (Interleaving.step system s i).1.store := by
  cases i with
  | start | crash => exact h
  | world e => exact step_wellFormed h e.1
  | step n x =>
    cases hp : s.running[n]? with
    | none =>
      simp only [Interleaving.step, hp]
      exact h
    | some p =>
      simp only [Interleaving.step, hp]
      exact WellFormed.advance h p x

/-- **A number belongs to one customer, exactly where every write is clear.**  In every run, no
number is at any time the primary number of a contact and another number of one, and every text from
a primary number goes to its contact or to the survivor of that, if and only if no import writes a
number that is another number when it writes it, and no number is added that has become a primary
one since it was looked up. -/
theorem one_owner_iff {s : Store} (hwell : WellFormed s) (hs : OneOwner s) (is : List Input) :
    Reactive.Along (Interleaving.step system) Kept ⟨s, []⟩ is ↔
      Reactive.Along (Interleaving.step system) ClearMove ⟨s, []⟩ is := by
  have hmove : ∀ (t : State) (i : Input), WellFormed t.store → OneOwner t.store →
      (Kept t i ↔ ClearMove t i) := fun t i ht hone => kept_iff ht hone i
  exact Reactive.along_iff_of_good (P := fun t : State => WellFormed t.store) _
    (fun t i ht => wellFormed_move ht i) hmove (fun t i _ _ hkept => hkept.1) hwell hs is

/-! ### Examples -/

/-- A customer texts, and a member adds another number of theirs. -/
def numberAdded : List Input :=
  [.world ⟨(0, .inbound ⟨7, "+15550100", "Hello", "m1"⟩), trivial⟩,
    .start (.addNumber 0 (some "+15550101")), .step 0 (), .step 0 (), .step 0 (), .step 0 (),
    .step 0 ()]

/-- A number that nobody has is added. -/
theorem one_owner_iff_added :
    Reactive.Along (Interleaving.step system) Kept ⟨.empty, []⟩ numberAdded := by
  have hnobody : OneOwner Store.empty := fun c hc => nomatch hc
  refine (one_owner_iff wellFormed_empty hnobody numberAdded).2 ?_
  refine ⟨trivial, trivial, ?_, ?_, ?_, ?_, ?_, trivial⟩
  all_goals
    intro p hp
    cases hp
    first
      | trivial
      | exact fun _ => by decide +kernel

/-- A line of a file of contacts. -/
def importedRow (phone : Phone) : ContactImport.Row where
  phone := phone
  createdBy := 9
  consent := none
  name := some "Dave"
  address := none
  notes := none

def otherNumberImported : List Input :=
  numberAdded ++ [.start (.importContacts [[importedRow "+15550101"]]), .step 0 ()]

/-- **An import of another number gives it a second owner**, and its texts go on to the first. -/
theorem two_owners :
    (¬∀ is, OneOwner (Reactive.final (Interleaving.step system) ⟨.empty, []⟩ is).store) ∧
    ¬∀ is now m, Home now m (Reactive.final (Interleaving.step system) ⟨.empty, []⟩ is).store := by
  have hcontact : ((Reactive.final (Interleaving.step system) ⟨.empty, []⟩
      otherNumberImported).store.primary "+15550101").map (·.id) = some 2 := by decide +kernel
  obtain ⟨c, hc, hid⟩ := Option.map_eq_some_iff.1 hcontact
  constructor
  · intro h
    have hphone : c.phone = "+15550101" := by simpa using List.find?_some hc
    refine h otherNumberImported c (List.mem_of_find?_eq_some hc) ⟨0, "+15550101"⟩ ?_ hphone.symm
    decide +kernel
  · intro h
    have hhome := h otherNumberImported 5 ⟨7, "+15550101", "Hello", "m2"⟩ c hc 3 (by decide +kernel)
      { id := 3
        contactId := 0
        phoneNumberId := 7
        contactPhone := "+15550101"
        status := .new
        isSpam := false
        closedAt := none
        lastAutoReplyAt := none } (by decide +kernel) rfl
    rcases hhome with hown | hsurvivor
    · rw [hid] at hown
      cases hown
    · have hlive : c.mergedInto = none := by
        have hcontact' : ((Reactive.final (Interleaving.step system) ⟨.empty, []⟩
          otherNumberImported).store.primary "+15550101").map (·.mergedInto) = some none := by
          decide +kernel
        rw [hc] at hcontact'
        exact Option.some.inj hcontact'
      rw [hlive] at hsurvivor
      cases hsurvivor

end ContactNumbers
