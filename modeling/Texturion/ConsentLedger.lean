/-
**The consent ledger.**

The ledger is written by triggers: one on `opt_outs` infers from the old and the new row that a
number has been opted out or is back, and finds the contact by its primary number; one on `contacts`
says that the number of a new contact is opted out already; one says on what basis a contact
consents.  "The ledger is per CONTACT and opt_outs is per PHONE", so that a change of a number that
nobody has as the primary one is not told, and a contact that arrives with a number that is opted
out brings an event that no change of the opt-out goes with.

Main result:

* `Contacts.ledger_tells` — **over every run**.
-/

import Texturion.MergedOptOuts
import Texturion.ThreadPlaces

namespace Contacts

open SqlTable OptOuts

/-! ### What the ledger is owed -/

def ConsentEvent.isAbout (phone : Phone) (e : ConsentEvent) : Bool :=
  e.phone == phone && e.optOutSource.isSome

/-- What the event says, and of whom: the contact, whether it is a withdrawal, and whether it came
with the contact. -/
def ConsentEvent.entry (e : ConsentEvent) : Option Uuid × ConsentState × Bool :=
  (e.contactId, e.state, e.recordedOnContactCreate)

/-- The events about opting out of a number, and what they say. -/
def entriesAbout (phone : Phone) (events : List ConsentEvent) :
    List (Option Uuid × ConsentState × Bool) :=
  (events.filter (·.isAbout phone)).map ConsentEvent.entry

/-- The contact that has the number as its primary one. -/
def Store.holder (phone : Phone) (s : Store) : Option Uuid := (s.primary phone).map (·.id)

/-- The events about opting out of a number that are owed between two stores: one for a change of
its opt-out, if somebody has it as the primary number, and one for a contact that arrives with a
number that is opted out. -/
def told (s t : Store) (phone : Phone) : List (Option Uuid × ConsentState × Bool) :=
  (if isActive (s.optOuts phone) = isActive (t.optOuts phone) then []
    else (s.holder phone).toList.map fun id =>
      (some id, if isActive (t.optOuts phone) then .revoked else .express, false)) ++
  if (s.holder phone).isNone ∧ isActive (t.optOuts phone) = true then
    (t.holder phone).toList.map fun id => (some id, .revoked, true)
  else []

def BasisOf (s t : Store) (e : ConsentEvent) : Prop :=
  ∃ c ∈ t.contacts, e.contactId = some c.id ∧ e.phone = c.phone ∧ c.consentAt = some e.capturedAt ∧
    ∀ o ∈ s.contacts, o.id = c.id → o.consentAt = none

/-- The events that are added between two stores are the ones owed, and the bases of consent. -/
structure Adds (s t : Store) (added : List ConsentEvent) : Prop where
  about : ∀ phone, entriesAbout phone added = told s t phone
  basis : ∀ e ∈ added, e.optOutSource = none → BasisOf s t e

/-- An event of the ledger after a step: as it was, or of a contact that the step has deleted. -/
def Detached (s : Store) (i : ℤ × Event) (e e' : ConsentEvent) : Prop :=
  e' = e ∨ ∃ id, i.2 = .deleteContact id ∧ (step s i).1.find id = none ∧ e.contactId = some id ∧
    e' = { e with contactId := none }

/-- **A step tells the ledger what it owes**, and changes nothing that is there. -/
def Tells (s : Store) (i : ℤ × Event) : Prop :=
  ∃ kept added, (step s i).1.ledger = kept ++ added ∧ List.Forall₂ (Detached s i) s.ledger kept ∧
    Adds s (step s i).1 added

/-! ### Events -/

@[simp] theorem entriesAbout_nil (phone : Phone) : entriesAbout phone [] = [] := rfl

theorem entriesAbout_append (phone : Phone) (events events' : List ConsentEvent) :
    entriesAbout phone (events ++ events') =
      entriesAbout phone events ++ entriesAbout phone events' := by
  simp [entriesAbout]

theorem entriesAbout_of_none {events : List ConsentEvent}
    (h : ∀ e ∈ events, e.optOutSource = none) (phone : Phone) : entriesAbout phone events = [] := by
  have hnil : events.filter (·.isAbout phone) = [] := by
    refine List.filter_eq_nil_iff.2 fun e he => ?_
    simp [ConsentEvent.isAbout, h e he]
  rw [entriesAbout, hnil, List.map_nil]

variable {c : Contact} {s t : Store} {phone : Phone} {i : ℤ × Event}

theorem recordConsent_basis {old : Option Contact} {e : ConsentEvent}
    (he : e ∈ recordConsent old c) :
    e.optOutSource = none ∧ e.contactId = some c.id ∧ e.phone = c.phone ∧
      c.consentAt = some e.capturedAt ∧ ∀ o, old = some o → o.consentAt = none := by
  unfold recordConsent at he
  cases hconsent : c.consentAt with
  | none =>
    rw [hconsent] at he
    cases he
  | some consentAt =>
    rw [hconsent] at he
    by_cases hold : (old.any fun o => o.consentAt.isSome) = true
    · simp only [hold, if_true, List.not_mem_nil] at he
    · simp only [hold] at he
      obtain rfl := List.mem_singleton.1 he
      refine ⟨rfl, rfl, rfl, rfl, ?_⟩
      rintro o rfl
      simpa using hold

theorem recordStandingRevocation_about {row : Option OptOut} (phone : Phone) :
    entriesAbout phone (recordStandingRevocation c row) =
      if phone = c.phone ∧ isActive row = true then [(some c.id, .revoked, true)] else [] := by
  cases row with
  | none => simp [recordStandingRevocation]
  | some r =>
    cases hactive : r.active with
    | false => simp [recordStandingRevocation, Option.filter, hactive]
    | true =>
      by_cases hphone : phone = c.phone
      · simp [recordStandingRevocation, Option.filter, entriesAbout, ConsentEvent.isAbout,
          ConsentEvent.entry, hactive, hphone]
      · simp [recordStandingRevocation, Option.filter, entriesAbout, ConsentEvent.isAbout,
          hactive, hphone, Ne.symm hphone]

/-- A statement leaves no row where there is one, and puts an active one where there is none. -/
theorem row_of_apply (w : Statement) (now : ℤ) (id : Uuid) (row : Option OptOut) :
    (row = none ∧ w.apply now id row = none) ∨
      ∃ r, w.apply now id row = some r ∧ (row = none → r.active = true) := by
  cases row with
  | none =>
    cases w with
    | revoke => exact .inl ⟨rfl, rfl⟩
    | revive source createdBy => exact .inl ⟨rfl, rfl⟩
    | stop => exact .inr ⟨_, rfl, fun _ => rfl⟩
    | insert source createdBy => exact .inr ⟨_, rfl, fun _ => rfl⟩
    | union actor => exact .inr ⟨_, rfl, fun _ => rfl⟩
  | some r => cases w <;> exact .inr ⟨_, rfl, nofun⟩

/-- The trigger on `opt_outs` adds an event exactly for a change, if it finds a contact. -/
theorem recordOptOut_eq (w : Statement) (now : ℤ) (id : Uuid) (contact : Option Contact)
    (row : Option OptOut) :
    recordOptOut now contact row (w.apply now id row) =
      if isActive row = isActive (w.apply now id row) then []
      else contact.toList.flatMap fun c => (w.apply now id row).toList.map (optOutEvent now c) := by
  rcases row_of_apply w now id row with ⟨rfl, hnone⟩ | ⟨r, hr, hactive⟩
  · rw [hnone]
    rfl
  · rw [hr]
    cases contact with
    | none => simp [recordOptOut]
    | some c =>
      cases row with
      | none => simp [recordOptOut, hactive rfl]
      | some o => by_cases ho : o.active = r.active <;> simp [recordOptOut, ho]

theorem recordOptOut_about (s : Store) (now : ℤ) (id : Uuid) (w : Statement)
    (number phone : Phone) :
    entriesAbout phone (recordOptOut now (s.primary number) (s.optOuts number)
        (w.apply now id (s.optOuts number))) =
      if phone = number ∧
          isActive (s.optOuts number) ≠ isActive (w.apply now id (s.optOuts number)) then
        (s.holder number).toList.map fun id' =>
          (some id', if isActive (w.apply now id (s.optOuts number)) then .revoked else .express,
            false)
      else [] := by
  rw [recordOptOut_eq]
  by_cases hsame : isActive (s.optOuts number) = isActive (w.apply now id (s.optOuts number))
  · simp [hsame]
  · rw [if_neg hsame]
    cases hprimary : s.primary number with
    | none => simp [Store.holder, hprimary]
    | some c =>
      have hphone : c.phone = number := by simpa using List.find?_some hprimary
      rcases row_of_apply w now id (s.optOuts number) with ⟨hnone, hnone'⟩ | ⟨r, hr, -⟩
      · exact absurd (by rw [hnone', hnone]) hsame
      · rw [hr] at hsame ⊢
        by_cases hp : phone = number
        · have hne : isActive (s.optOuts number) ≠ r.active := hsame
          cases hactive : r.active <;>
            simp [entriesAbout, ConsentEvent.isAbout, ConsentEvent.entry, optOutEvent, hphone, hp,
              Store.holder, hprimary, hactive] <;>
            simpa [hactive] using hne
        · simp [entriesAbout, ConsentEvent.isAbout, optOutEvent, hphone, hp, Ne.symm hp]

/-! ### Between two stores -/

def numbers (s : Store) : List (Phone × Uuid) := s.contacts.map fun c => (c.phone, c.id)

theorem holder_eq (s : Store) (phone : Phone) :
    s.holder phone = ((numbers s).find? fun x => x.1 == phone).map (·.2) := by
  rw [Store.holder, Store.primary, numbers, List.find?_map, Option.map_map]
  rfl

theorem told_congr {s t t' : Store} (hoptOuts : t'.optOuts = t.optOuts)
    (hnumbers : numbers t' = numbers t) : told s t' = told s t := by
  funext phone
  simp only [told, holder_eq, hoptOuts, hnumbers]

theorem told_self (hoptOuts : t.optOuts = s.optOuts) (hnumbers : numbers t = numbers s)
    (phone : Phone) : told s t phone = [] := by
  have hholder : t.holder phone = s.holder phone := by simp only [holder_eq, hnumbers]
  simp only [told, hoptOuts, hholder, if_true, List.nil_append]
  split_ifs with h
  · rw [Option.isNone_iff_eq_none.1 h.1]
    rfl
  · rfl

theorem adds_updateContact (hids : (s.contacts.map (·.id)).Nodup) {f : Contact → Contact}
    (hf : Plain f) (id : Uuid) :
    ∃ added, (s.updateContact id f).ledger = s.ledger ++ added ∧
      Adds s (s.updateContact id f) added := by
  have hbasis : ∀ e ∈ (s.contacts.filter fun c => c.id == id).flatMap fun c =>
      recordConsent (some c) (f c),
      ∃ c ∈ s.contacts, c.id = id ∧ e ∈ recordConsent (some c) (f c) := by
    intro e he
    obtain ⟨c, hc, he⟩ := List.mem_flatMap.1 he
    obtain ⟨hc, hid⟩ := List.mem_filter.1 hc
    exact ⟨c, hc, by simpa using hid, he⟩
  refine ⟨_, rfl, fun phone => ?_, fun e he _ => ?_⟩
  · have hnumbers : numbers (s.updateContact id f) = numbers s :=
      map_update (fun c => by rw [hf.id, hf.phone]) s.contacts
    rw [told_self (by rfl) hnumbers]
    refine entriesAbout_of_none (fun e he => ?_) phone
    obtain ⟨c, -, -, he⟩ := hbasis e he
    exact (recordConsent_basis he).1
  · obtain ⟨c, hc, hid, he⟩ := hbasis e he
    obtain ⟨-, hcontact, hphone, hat, hold⟩ := recordConsent_basis he
    refine ⟨f c, mem_update_of hc (by simpa using hid), hcontact, hphone, hat, fun o ho hoid => ?_⟩
    obtain rfl := List.inj_on_of_nodup_map hids ho hc (hoid.trans (hf.id c))
    exact hold o rfl

theorem told_insert (hcontacts : t.contacts = s.contacts ++ [c]) (hoptOuts : t.optOuts = s.optOuts)
    (hnone : s.primary c.phone = none) (phone : Phone) :
    told s t phone =
      if phone = c.phone ∧ isActive (s.optOuts c.phone) = true then [(some c.id, .revoked, true)]
      else [] := by
  by_cases hp : phone = c.phone
  · subst hp
    have hholder : t.holder c.phone = some c.id := by
      have hlast : s.contacts.find? (fun d => d.phone == c.phone) = none := hnone
      simp [Store.holder, Store.primary, hcontacts, List.find?_append, hlast]
    have hnobody : s.holder c.phone = none := by
      rw [Store.holder, hnone]
      rfl
    simp [told, hoptOuts, hholder, hnobody]
  · have hholder : t.holder phone = s.holder phone := by
      simp [Store.holder, Store.primary, hcontacts, List.find?_append, Ne.symm hp]
    cases hsome : s.holder phone <;> simp [told, hoptOuts, hholder, hsome, hp]

/-- The insert of a contact with a new number tells of an opt-out that stands. -/
theorem adds_insertContact (hs : WellFormed s) (hid : c.id = s.nextId) :
    ∃ added, ({ s with nextId := s.nextId + 1 }.insertContact c).ledger = s.ledger ++ added ∧
      Adds s ({ s with nextId := s.nextId + 1 }.insertContact c) added := by
  unfold Store.insertContact
  split
  · refine ⟨[], (List.append_nil _).symm, fun phone => ?_, fun e he => nomatch he⟩
    exact (told_self rfl rfl phone).symm
  · next hfree =>
    have hnone : s.primary c.phone = none := by
      rw [Bool.not_eq_true, Option.isSome_eq_false_iff, Option.isNone_iff_eq_none] at hfree
      exact hfree
    refine ⟨recordConsent none c ++ recordStandingRevocation c (s.optOuts c.phone),
      List.append_assoc .., fun phone => ?_, fun e he hsource => ?_⟩
    · rw [entriesAbout_append, entriesAbout_of_none fun e he => (recordConsent_basis he).1,
        List.nil_append, recordStandingRevocation_about]
      exact (told_insert (by rfl) (by rfl) hnone phone).symm
    · rcases List.mem_append.1 he with he | he
      · obtain ⟨-, hcontact, hphone, hat, -⟩ := recordConsent_basis he
        refine ⟨c, List.mem_append_right _ (List.mem_singleton_self _), hcontact, hphone, hat, ?_⟩
        intro o ho hoid
        exact absurd (hoid.trans hid) (Nat.ne_of_lt (hs.contactsOld o ho))
      · cases hrow : (s.optOuts c.phone).filter OptOut.active with
        | none =>
          simp only [recordStandingRevocation, hrow] at he
          cases he
        | some r =>
          simp only [recordStandingRevocation, hrow] at he
          obtain rfl := List.mem_singleton.1 he
          cases hsource

theorem told_of_numbers (hnumbers : numbers t = numbers s) (phone : Phone) :
    told s t phone =
      if isActive (s.optOuts phone) = isActive (t.optOuts phone) then []
      else (s.holder phone).toList.map fun id =>
        (some id, if isActive (t.optOuts phone) then .revoked else .express, false) := by
  have hholder : t.holder phone = s.holder phone := by simp only [holder_eq, hnumbers]
  have hnone : (if (s.holder phone).isNone ∧ isActive (t.optOuts phone) = true then
      (s.holder phone).toList.map fun id =>
        ((some id, .revoked, true) : Option Uuid × ConsentState × Bool)
      else []) = [] := by
    split_ifs with h
    · rw [Option.isNone_iff_eq_none.1 h.1]
      rfl
    · rfl
  rw [told, hholder, hnone, List.append_nil]

/-- **A statement on an opt-out** adds the event it owes. -/
theorem adds_writeOptOut (s : Store) (now : ℤ) (number : Phone) (w : Statement) :
    ∃ added, (s.writeOptOut now number w).ledger = s.ledger ++ added ∧
      Adds s (s.writeOptOut now number w) added ∧ ∀ e ∈ added, e.optOutSource ≠ none := by
  have hsource : ∀ e ∈ recordOptOut now (s.primary number) (s.optOuts number)
      (w.apply now s.nextId (s.optOuts number)), e.optOutSource ≠ none := by
    rw [recordOptOut_eq]
    intro e he
    split_ifs at he
    · cases he
    · obtain ⟨c, -, he⟩ := List.mem_flatMap.1 he
      obtain ⟨r, -, rfl⟩ := List.mem_map.1 he
      exact nofun
  refine ⟨_, rfl, ⟨fun phone => ?_, fun e he hnone => absurd hnone (hsource e he)⟩, hsource⟩
  rw [recordOptOut_about, told_of_numbers (s := s) (t := s.writeOptOut now number w) rfl]
  by_cases hp : phone = number
  · subst hp
    by_cases hsame : isActive (s.optOuts phone) =
        isActive (w.apply now s.nextId (s.optOuts phone))
    · simp [Store.writeOptOut, hsame]
    · simp [Store.writeOptOut, hsame]
  · simp [Store.writeOptOut, hp]

theorem told_trans {s t u : Store} (hst : numbers t = numbers s) (htu : numbers u = numbers t)
    (phone : Phone) (honly : isActive (s.optOuts phone) = true → isActive (t.optOuts phone) = true)
    (honly' : isActive (t.optOuts phone) = true → isActive (u.optOuts phone) = true) :
    told s u phone = told s t phone ++ told t u phone := by
  have hholder : t.holder phone = s.holder phone := by simp only [holder_eq, hst]
  rw [told_of_numbers (htu.trans hst), told_of_numbers hst, told_of_numbers htu, hholder]
  cases hs : isActive (s.optOuts phone) with
  | true => simp [honly hs, honly' (honly hs)]
  | false =>
    cases ht : isActive (t.optOuts phone) with
    | true => simp [honly' ht]
    | false => simp

theorem adds_uniteOptOuts (now : ℤ) (actor : Option Uuid) (a b : Phone) (s : Store) :
    ∃ added, (uniteOptOuts now actor a b s).ledger = s.ledger ++ added ∧
      (∀ phone, entriesAbout phone added = told s (uniteOptOuts now actor a b s) phone) ∧
      ∀ e ∈ added, e.optOutSource ≠ none := by
  unfold uniteOptOuts
  split
  · obtain ⟨added, hledger, hadds, hsource⟩ := adds_writeOptOut s now a (.union actor)
    obtain ⟨added', hledger', hadds', hsource'⟩ :=
      adds_writeOptOut (s.writeOptOut now a (.union actor)) now b (.union actor)
    refine ⟨added ++ added', ?_, fun phone => ?_, ?_⟩
    · rw [hledger', hledger, List.append_assoc]
    · have honly : ∀ (t : Store) (number : Phone), isActive (t.optOuts phone) = true →
          isActive ((t.writeOptOut now number (.union actor)).optOuts phone) = true := by
        intro t number ht
        by_cases hp : phone = number
        · subst hp
          simp [Store.writeOptOut, isActive_apply]
        · simp [Store.writeOptOut, hp, ht]
      rw [entriesAbout_append, hadds.about, hadds'.about]
      exact (told_trans (s := s) (t := s.writeOptOut now a (.union actor))
        (u := (s.writeOptOut now a (.union actor)).writeOptOut now b (.union actor)) rfl rfl phone
        (honly _ _) (honly _ _)).symm
    · intro e he
      exact (List.mem_append.1 he).elim (hsource e) (hsource' e)
  · exact ⟨[], (List.append_nil _).symm, fun phone => (told_self rfl rfl phone).symm,
      fun _ he => absurd he List.not_mem_nil⟩

theorem ledger_updateContact_of_same {f : Contact → Contact}
    (hf : ∀ c, (f c).consentAt = c.consentAt) (id : Uuid) :
    (s.updateContact id f).ledger = s.ledger := by
  have hnil : (s.contacts.filter fun c => c.id == id).flatMap (fun c =>
      recordConsent (some c) (f c)) = [] := by
    refine List.flatMap_eq_nil_iff.2 fun c _ => ?_
    cases hconsent : c.consentAt <;> simp [recordConsent, hf, hconsent]
  simp only [Store.updateContact, hnil, List.append_nil]

/-- **A merge** adds the events that its union owes, and the basis of consent that is inherited. -/
theorem adds_mergeInto (hs : WellFormed s) (fromId intoId : Uuid) (a b : Contact) (now : ℤ)
    (actor : Option Uuid) :
    ∃ added, (mergeInto now actor fromId intoId a b s).ledger = s.ledger ++ added ∧
      Adds s (mergeInto now actor fromId intoId a b s) added := by
  simp only [mergeInto]
  generalize hmoved : ({ s with
    conversations := moveConversations now fromId (s.follow intoId) s.conversations
    calls := update (fun c => c.contactId == some fromId)
      (fun c => { c with contactId := some (s.follow intoId) }) s.calls } : Store) = moved
  have hcontacts : moved.contacts = s.contacts := by rw [← hmoved]
  have hoptOuts : moved.optOuts = s.optOuts := by rw [← hmoved]
  have hledger : moved.ledger = s.ledger := by rw [← hmoved]
  obtain ⟨added, hunited, habout, hsource⟩ := adds_uniteOptOuts now actor a.phone b.phone moved
  have hkept := contacts_uniteOptOuts now actor a.phone b.phone moved
  generalize uniteOptOuts now actor a.phone b.phone moved = united at hunited habout hkept ⊢
  -- the tombstone keeps ids, numbers and consent
  have hburied := ledger_updateContact_of_same (s := united)
    (f := fun c => { c with mergedInto := some intoId }) (fun _ => rfl) fromId
  have hconsents : (united.updateContact fromId fun c =>
      { c with mergedInto := some intoId }).contacts.map (fun c => (c.id, c.consentAt)) =
        s.contacts.map fun c => (c.id, c.consentAt) := by
    rw [map_updateContact, hkept, hcontacts]
    exact fun _ => rfl
  have hids : ((united.updateContact fromId fun c =>
      { c with mergedInto := some intoId }).contacts.map (·.id)).Nodup := by
    rw [map_updateContact, hkept, hcontacts]
    · exact hs.contactIds
    · exact fun _ => rfl
  have hnumbers : numbers (united.updateContact fromId fun c =>
      { c with mergedInto := some intoId }) = numbers s := by
    rw [numbers, map_updateContact, hkept, hcontacts]
    · rfl
    · exact fun _ => rfl
  have hoptOuts' : (united.updateContact fromId fun c =>
      { c with mergedInto := some intoId }).optOuts = united.optOuts := rfl
  generalize (united.updateContact fromId fun c => { c with mergedInto := some intoId }) = buried
    at hburied hconsents hids hnumbers hoptOuts' ⊢
  -- and the survivor may inherit a basis of consent
  obtain ⟨bases, hlast, hadds⟩ := adds_updateContact hids (plain_inherit a) intoId
  have hinherit : numbers (buried.updateContact intoId fun c =>
      { c with
        consentSource := c.consentSource.or a.consentSource
        consentAt := c.consentAt.or a.consentAt }) = numbers buried := by
    rw [numbers, map_updateContact]
    · rfl
    · exact fun _ => rfl
  refine ⟨added ++ bases, ?_, fun phone => ?_, fun e he hnone => ?_⟩
  · rw [hlast, hburied, hunited, hledger, List.append_assoc]
  · rw [entriesAbout_append, habout, hadds.about, told_self (by rfl) hinherit,
      List.append_nil]
    have hmoved' : numbers moved = numbers s := by rw [numbers, hcontacts, numbers]
    have hunited' : numbers united = numbers s := by rw [numbers, hkept, hcontacts, numbers]
    simp only [told, holder_eq, hmoved', hunited', hinherit, hnumbers, hoptOuts]
    rw [show (buried.updateContact intoId fun c =>
      { c with
        consentSource := c.consentSource.or a.consentSource
        consentAt := c.consentAt.or a.consentAt }).optOuts = united.optOuts from hoptOuts']
  · rcases List.mem_append.1 he with he | he
    · exact absurd hnone (hsource e he)
    · obtain ⟨c, hc, hcontact, hphone, hat, hold⟩ := hadds.basis e he hnone
      refine ⟨c, hc, hcontact, hphone, hat, fun o ho hid => ?_⟩
      have hmem : (o.id, o.consentAt) ∈ buried.contacts.map fun c => (c.id, c.consentAt) := by
        rw [hconsents]
        exact List.mem_map_of_mem ho
      obtain ⟨o', ho', heq⟩ := List.mem_map.1 hmem
      obtain ⟨hid', hconsent⟩ := Prod.mk.inj heq
      exact hconsent ▸ hold o' ho' (hid'.trans hid)

/-! ### One step -/

/-- The ledger of the second store is the one of the first and what is owed. -/
def Appends (s t : Store) : Prop := ∃ added, t.ledger = s.ledger ++ added ∧ Adds s t added

theorem Appends.congr {s t t' : Store} (h : Appends s t) (hledger : t'.ledger = t.ledger)
    (hcontacts : t'.contacts = t.contacts) (hoptOuts : t'.optOuts = t.optOuts) : Appends s t' := by
  obtain ⟨added, hadded, habout, hbasis⟩ := h
  have hnumbers : numbers t' = numbers t := by rw [numbers, hcontacts, numbers]
  refine ⟨added, hledger.trans hadded, fun phone => ?_, fun e he hnone => ?_⟩
  · rw [habout, told_congr hoptOuts hnumbers]
  · obtain ⟨c, hc, hrest⟩ := hbasis e he hnone
    exact ⟨c, hcontacts ▸ hc, hrest⟩

theorem appends_of_same (hledger : t.ledger = s.ledger) (hnumbers : numbers t = numbers s)
    (hoptOuts : t.optOuts = s.optOuts) : Appends s t :=
  ⟨[], hledger.trans (List.append_nil _).symm,
    fun phone => (told_self hoptOuts hnumbers phone).symm, fun _ he => absurd he List.not_mem_nil⟩

theorem appends_refl (s : Store) : Appends s s := appends_of_same rfl rfl rfl

theorem appends_resolveContact (hs : WellFormed s) (now : ℤ) (phone : Phone) :
    Appends s (resolveContact now phone s).1 := by
  unfold resolveContact
  cases s.owner phone with
  | some id => exact adds_updateContact hs.contactIds (plain_heard now) id
  | none => exact adds_insertContact hs rfl

theorem Appends.takePlace {s k placed : Store} (h : Appends s k) {waits : Bool}
    {phoneNumberId contactId id : Uuid} {place : Place}
    (htaken : k.takePlace waits phoneNumberId contactId phone place = some (placed, id)) :
    Appends s placed := by
  obtain ⟨conversations, nextId, rfl⟩ := takePlace_frame htaken
  exact h.congr rfl rfl rfl

theorem Appends.recordCall {s placed : Store} (h : Appends s placed) (sessionId : String)
    (conversationId : Uuid) : Appends s (recordCall sessionId conversationId placed).1 := by
  simp only [Contacts.recordCall]
  split_ifs
  · exact h
  · exact h.congr rfl rfl rfl

theorem Appends.textBack {s placed : Store} (h : Appends s placed) (now : ℤ) (k : MissedCall)
    (facts : SendFacts) (conversationId : Uuid) (created : Bool) :
    Appends s (textBack now k facts conversationId created placed).1 := by
  unfold Contacts.textBack
  split_ifs
  · exact h
  · exact h
  · cases facts.spendError with
    | some reason => exact h
    | none => exact h.congr rfl rfl rfl

theorem appends_callContact {s known : Store} (hs : WellFormed s) {now : ℤ} {k : CallRecord}
    {x : Uuid} (h : callContact now k s = some (known, x)) : Appends s known := by
  unfold callContact at h
  split at h
  · rw [← (Prod.mk.inj (Option.some.inj h)).1]
    exact appends_resolveContact hs now k.callerE164
  · obtain ⟨c, -, hpair⟩ := Option.map_eq_some_iff.1 h
    rw [← (Prod.mk.inj hpair).1]
    exact appends_refl s

/-- **Every step but a deletion appends to the ledger what it owes.** -/
theorem appends_step (hs : WellFormed s)
    (hdelete : ∀ id, i.2 ≠ .deleteContact id) : Appends s (step s i).1 := by
  obtain ⟨now, event⟩ := i
  cases event with
  | insertContact phone consentSource consentAt attestedBy createdBy =>
    exact adds_insertContact hs rfl
  | deleteContact id => exact absurd rfl (hdelete id)
  | insertContactPhone contactId phone =>
    simp only [step, Store.insertContactPhone]
    split_ifs
    · exact appends_refl s
    · exact appends_of_same rfl rfl rfl
  | deleteContactPhone phone => exact appends_of_same rfl rfl rfl
  | merge actor fromId intoId =>
    change Appends s (mergeContacts now actor fromId intoId s).1
    rcases mergeContacts_cases now actor fromId intoId s with ⟨h, -⟩ | ⟨a, b, -, h⟩
    · rw [h]
      exact appends_refl s
    · rw [h]
      exact adds_mergeInto hs fromId intoId a b now actor
  | unmerge id =>
    simp only [step, unmergeContact]
    cases s.find id with
    | none => exact appends_refl s
    | some c =>
      dsimp only
      split_ifs
      · exact appends_refl s
      · refine appends_of_same (ledger_updateContact_of_same (fun _ => rfl) id) ?_ rfl
        dsimp only
        rw [numbers, map_updateContact]
        · rfl
        · exact fun _ => rfl
  | close | setSpam | writeCall => exact appends_of_same rfl rfl rfl
  | inbound m =>
    change Appends s (threadInbound now m s).1
    rcases threadInbound_cases now m s with
      ⟨stored, -, -, h⟩ | ⟨-, ⟨-, h⟩ | ⟨placed, id, htaken, h⟩⟩
    · rw [h]
      exact appends_refl s
    · rw [h]
      exact appends_refl s
    · rw [h]
      exact ((appends_resolveContact hs now m.fromE164).takePlace htaken).congr rfl rfl rfl
  | call picker k =>
    change Appends s (threadCall picker now k s).1
    rcases threadCall_cases picker now k s with
      ⟨h, -⟩ | ⟨known, contactId, hcontact, h | ⟨placed, id, htaken, h⟩⟩
    · rw [h]
      exact appends_refl s
    · rw [h]
      exact appends_callContact hs hcontact
    · rw [h]
      exact ((appends_callContact hs hcontact).takePlace htaken).recordCall _ _
  | missedCall k facts =>
    change Appends s (claimMissedCallText now k facts s).1
    rcases claimMissedCallText_cases now k facts s with ⟨h, -⟩ | ⟨placed, id, htaken, h⟩
    · rw [h]
      exact appends_refl s
    · rw [h]
      exact ((appends_resolveContact hs now k.callerE164).takePlace htaken).textBack ..
  | optOut phone w =>
    obtain ⟨added, hledger, hadds, -⟩ := adds_writeOptOut s now phone w
    exact ⟨added, hledger, hadds⟩

/-- A deletion lets the ledger go of the contact, and is owed nothing. -/
theorem tells_deleteContact {id : Uuid} (hi : i.2 = .deleteContact id) : Tells s i := by
  have hstep : (step s i).1 = s.deleteContact id := by simp only [step, hi]
  unfold Tells
  by_cases hrefused : (s.conversations.any (·.contactId == id) ||
      s.contacts.any (·.mergedInto == some id)) = true
  · rw [hstep, Store.deleteContact, if_pos hrefused]
    exact ⟨s.ledger, [], (List.append_nil _).symm, List.forall₂_same.2 fun _ _ => .inl rfl,
      fun phone => (told_self rfl rfl phone).symm, fun _ he => absurd he List.not_mem_nil⟩
  · have hgone : (step s i).1.find id = none := by
      rw [hstep, Store.deleteContact, if_neg hrefused]
      exact find_none.2 fun c hc => by simpa using (List.mem_filter.1 hc).2
    have hdetached : List.Forall₂ (Detached s i) s.ledger
        (update (fun e => e.contactId == some id) (fun e => { e with contactId := none })
          s.ledger) := by
      refine List.forall₂_map_right_iff.2 (List.forall₂_same.2 fun e _ => ?_)
      by_cases he : e.contactId = some id
      · exact .inr ⟨id, hi, hgone, he, by simp [he]⟩
      · exact .inl (by simp [he])
    rw [hstep, Store.deleteContact, if_neg hrefused]
    refine ⟨_, [], (List.append_nil _).symm, hdetached, fun phone => ?_,
      fun _ he => absurd he List.not_mem_nil⟩
    -- nobody new has a number
    simp only [told, if_true, List.nil_append, entriesAbout_nil]
    split_ifs with h
    · have hnone : s.primary phone = none := by
        simpa [Store.holder] using h.1
      have hnobody : (s.contacts.filter fun c => c.id != id).find?
          (fun c => c.phone == phone) = none := by
        refine List.find?_eq_none.2 fun c hc => ?_
        exact List.find?_eq_none.1 hnone c (List.mem_filter.1 hc).1
      simp [Store.holder, Store.primary, hnobody]
    · rfl

/-- **Every step tells the ledger what it owes.** -/
theorem tells_step (hs : WellFormed s) (i : ℤ × Event) : Tells s i := by
  by_cases hdelete : ∃ id, i.2 = .deleteContact id
  · obtain ⟨id, hi⟩ := hdelete
    exact tells_deleteContact hi
  · obtain ⟨added, hledger, hadds⟩ := appends_step hs (i := i) fun id hi => hdelete ⟨id, hi⟩
    exact ⟨s.ledger, added, hledger, List.forall₂_same.2 fun _ _ => .inl rfl, hadds⟩

/-! ### The last event -/

/-- The last event about opting out of a number is a withdrawal exactly if it is opted out. -/
def LastTold (phone : Phone) (s : Store) : Prop :=
  ∀ entry, (entriesAbout phone s.ledger).getLast? = some entry →
    (entry.2.1 = .revoked ↔ isActive (s.optOuts phone) = true)

/-- A change of the opt-out of the number finds a contact that has it as the primary one. -/
def FlipKnown (phone : Phone) (s : Store) (i : ℤ × Event) : Prop :=
  isActive (s.optOuts phone) ≠ isActive ((step s i).1.optOuts phone) → s.holder phone ≠ none

/-- Letting go of a contact changes nothing that an event says about a number. -/
theorem entriesAbout_detached {events kept : List ConsentEvent}
    (h : List.Forall₂ (Detached s i) events kept) (phone : Phone) :
    (entriesAbout phone kept).map (fun x => x.2) =
      (entriesAbout phone events).map fun x => x.2 := by
  induction h with
  | nil => rfl
  | @cons e e' events kept he _ ih =>
    have hsame : e'.isAbout phone = e.isAbout phone ∧ e'.entry.2 = e.entry.2 := by
      rcases he with rfl | ⟨id, -, -, -, rfl⟩
      · exact ⟨rfl, rfl⟩
      · exact ⟨rfl, rfl⟩
    simp only [entriesAbout] at ih ⊢
    by_cases habout : e.isAbout phone = true
    · rw [List.filter_cons_of_pos (hsame.1.trans habout), List.filter_cons_of_pos habout]
      simp only [List.map_cons, hsame.2, ih]
    · rw [List.filter_cons_of_neg (hsame.1 ▸ habout), List.filter_cons_of_neg habout]
      exact ih

theorem lastTold_iff :
    LastTold phone s ↔ ∀ said, ((entriesAbout phone s.ledger).map (·.2)).getLast? = some said →
      (said.1 = .revoked ↔ isActive (s.optOuts phone) = true) := by
  rw [List.getLast?_map]
  constructor
  · intro h said hsaid
    obtain ⟨entry, hentry, rfl⟩ := Option.map_eq_some_iff.1 hsaid
    exact h entry hentry
  · intro h entry hentry
    exact h entry.2 (by rw [hentry]; rfl)

/-- **A step leaves the last event in agreement**, if it finds a contact. -/
theorem lastTold_step (hs : WellFormed s) (h : LastTold phone s)
    (hknown : FlipKnown phone s i) : LastTold phone (step s i).1 := by
  obtain ⟨kept, added, hledger, hdetached, habout, -⟩ := tells_step hs i
  rw [lastTold_iff] at h ⊢
  intro said hsaid
  rw [hledger, entriesAbout_append, List.map_append, entriesAbout_detached hdetached,
    habout] at hsaid
  by_cases hsame : isActive (s.optOuts phone) = isActive ((step s i).1.optOuts phone)
  · -- nothing has changed: the old last event stands, or a contact has come with the number
    by_cases hnew : (s.holder phone).isNone ∧ isActive ((step s i).1.optOuts phone) = true
    · cases hholder : (step s i).1.holder phone with
      | none =>
        simp only [told, hsame, if_true, hnew, and_self, hholder, Option.toList_none,
          List.map_nil, List.append_nil] at hsaid
        exact hsame ▸ h said hsaid
      | some id =>
        simp only [told, hsame, if_true, hnew, and_self, hholder, Option.toList_some,
          List.map_cons, List.map_nil, List.nil_append, List.getLast?_append,
          List.getLast?_singleton, Option.some_or, Option.some.injEq] at hsaid
        subst hsaid
        simp [hnew.2]
    · simp only [told, hsame, if_true, if_neg hnew, List.append_nil, List.map_nil] at hsaid
      exact hsame ▸ h said hsaid
  · -- the opt-out has changed, and its contact is told
    obtain ⟨id, hid⟩ := Option.ne_none_iff_exists'.1 (hknown hsame)
    simp only [told, if_neg hsame, hid, Option.toList_some, List.map_cons, List.map_nil,
      Option.isNone_some, Bool.false_eq_true, false_and, if_false, List.append_nil,
      List.getLast?_append, List.getLast?_singleton, Option.some_or, Option.some.injEq] at hsaid
    subst hsaid
    cases isActive ((step s i).1.optOuts phone) <;> simp

/-- **The consent ledger, over every run**: every step tells it what it owes, and the last event
about opting out of a number agrees with its opt-out as long as every change of it has found a
contact. -/
theorem ledger_tells (run : List (ℤ × Event)) :
    Reactive.Along step Tells Store.empty run ∧
      ∀ phone, Reactive.Along step (FlipKnown phone) Store.empty run →
        LastTold phone (Reactive.final step Store.empty run) := by
  constructor
  · refine Reactive.along_of_inv step (P := WellFormed) (C := fun _ _ => True)
      (fun _ i h _ => step_wellFormed h i) (fun _ i h _ => tells_step h i) wellFormed_empty ?_
    exact Reactive.along_of_forall step (fun _ _ => trivial) _
  · intro phone hknown
    refine (Reactive.final_of_inv_along step (P := fun s => WellFormed s ∧ LastTold phone s)
      (fun _ i h hC => ⟨step_wellFormed h.1 i, lastTold_step h.1 h.2 hC⟩)
      ⟨wellFormed_empty, ?_⟩ hknown).2
    intro entry hentry
    cases hentry

def stopAndStart : List (ℤ × Event) :=
  [(0, .insertContact "+15550100" none none none none), (1, .optOut "+15550100" .stop),
    (2, .optOut "+15550100" .revoke)]

theorem ledger_tells_start :
    LastTold "+15550100" (Reactive.final step Store.empty stopAndStart) := by
  refine (ledger_tells stopAndStart).2 "+15550100" ⟨?_, ?_, ?_, trivial⟩
  · exact fun hflip => absurd (by decide +kernel) hflip
  · exact fun _ => by decide +kernel
  · exact fun _ => by decide +kernel

/-- A number says STOP before anybody has it. -/
def stoppedFirst : Store := Reactive.final step Store.empty [(5, .optOut "+15550100" .stop)]

def landlineStopped : Store :=
  Reactive.final step Store.empty
    [(0, .insertContact "+15550100" none none none none), (1, .insertContactPhone 0 "+15550190"),
      (2, .optOut "+15550190" .stop)]

/-- **An event that no change goes with**: a contact arrives with a number that is opted out.  And a
change that no event goes with, of a number that is not a primary one. -/
theorem told_without_change :
    (stoppedFirst.ledger.length = 0 ∧
      (step stoppedFirst (6, .insertContact "+15550100" none none none none)).1.ledger.length = 1 ∧
      (step stoppedFirst (6, .insertContact "+15550100" none none none none)).1.optOuts
        "+15550100" = stoppedFirst.optOuts "+15550100") ∧
    isActive (landlineStopped.optOuts "+15550190") = true ∧ landlineStopped.ledger.length = 0 := by
  decide +kernel

end Contacts
