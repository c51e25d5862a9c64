/-
**The union of opt-outs over merges.**

"A STOP on either side must hold for the merged contact", and it "is recorded as a MANUAL opt-out
attributed to the merge, never copied as `carrier`".  `api_merge_contacts` writes the union to the
two primary numbers, with an upsert that clears `revoked_at` and leaves the source of a row alone.
So it misses the other numbers of both sides (`contact_phones` came with a later migration) and the
numbers that they have inherited from earlier merges, and a row that a START has revoked comes back
with the source it had.

Main result:

* `Contacts.lawful_iff_along` — **the exact condition**, over every run.
-/

import Texturion.ContactRuns

namespace Contacts

open SqlTable OptOuts

/-! ### The numbers of a person -/

def Forwards (s : Store) (x y : Uuid) : Prop :=
  ∃ c ∈ s.contacts, c.id = x ∧ c.mergedInto = some y

/-- The number is the primary one of a contact, or another one. -/
def NumberOf (s : Store) (x : Uuid) (phone : Phone) : Prop :=
  (∃ c ∈ s.contacts, c.id = x ∧ c.phone = phone) ∨
    ∃ p ∈ s.contactPhones, p.contactId = x ∧ p.phone = phone

/-- The number belongs to the person: to the contact, or to one that has been merged into it. -/
def Belongs (s : Store) (id : Uuid) (phone : Phone) : Prop :=
  ∃ x, Relation.ReflTransGen (Forwards s) x id ∧ NumberOf s x phone

def OptedOut (s : Store) (phone : Phone) : Prop := isActive (s.optOuts phone) = true

instance decidableOptedOut (s : Store) (phone : Phone) : Decidable (OptedOut s phone) :=
  inferInstanceAs (Decidable (isActive (s.optOuts phone) = true))

variable {s : Store} {fromId intoId : Uuid} {a b : Contact}

theorem Mergeable.belongs_from (hs : WellFormed s)
    (h : Mergeable s fromId intoId a b) : Belongs s fromId a.phone :=
  ⟨fromId, .refl, .inl ⟨a, (hs.find_eq_some.1 h.fromContact).1,
    (hs.find_eq_some.1 h.fromContact).2, rfl⟩⟩

theorem Mergeable.belongs_into (hs : WellFormed s)
    (h : Mergeable s fromId intoId a b) : Belongs s intoId b.phone :=
  ⟨intoId, .refl, .inl ⟨b, (hs.find_eq_some.1 h.intoContact).1,
    (hs.find_eq_some.1 h.intoContact).2, rfl⟩⟩

/-- A path along a relation with one more edge either takes it last of all, or not at all. -/
theorem reflTransGen_of_edge {α : Type*} {r : α → α → Prop} {a b x : α}
    (h : Relation.ReflTransGen (fun y z => r y z ∨ y = a ∧ z = b) x b) :
    Relation.ReflTransGen r x a ∨ Relation.ReflTransGen r x b := by
  induction h using Relation.ReflTransGen.head_induction_on with
  | refl => exact .inr .refl
  | head hstep _ ih =>
      rcases hstep with hstep | ⟨rfl, -⟩
      · exact ih.imp (.head hstep) (.head hstep)
      · exact .inl .refl

theorem forwards_mergeInto (hs : WellFormed s) (h : Mergeable s fromId intoId a b) (now : ℤ)
    (actor : Option Uuid) (x y : Uuid) :
    Forwards (mergeInto now actor fromId intoId a b s) x y ↔
      Forwards s x y ∨ x = fromId ∧ y = intoId := by
  obtain ⟨ha, rfl⟩ := hs.find_eq_some.1 h.fromContact
  have hlinks : ∀ t : Store, Forwards t x y ↔ (x, some y) ∈ links t := by
    intro t
    rw [mem_links]
    exact exists_congr fun c => and_congr_right fun _ => Prod.mk.injEq .. ▸ Iff.rfl
  rw [hlinks, hlinks, links_mergeInto, mem_update]
  constructor
  · rintro (⟨hx, -⟩ | ⟨z, -, hz, heq⟩)
    · exact .inl hx
    · obtain ⟨rfl, hinto⟩ := Prod.mk.inj heq
      exact .inr ⟨by simpa using hz, (Option.some.inj hinto).symm⟩
  · rintro (hx | ⟨rfl, rfl⟩)
    · refine .inl ⟨hx, ?_⟩
      obtain ⟨c, hc, heq⟩ := mem_links.1 hx
      obtain ⟨rfl, hmerged⟩ := Prod.mk.inj heq
      refine beq_eq_false_iff_ne.2 fun hid => ?_
      obtain rfl := List.inj_on_of_nodup_map hs.contactIds hc ha hid
      exact nomatch hmerged.symm.trans h.fromLive
    · exact .inr ⟨_, mem_links_of_mem ha, by simp, rfl⟩

theorem numberOf_mergeInto (now : ℤ) (actor : Option Uuid) (x : Uuid) (phone : Phone) :
    NumberOf (mergeInto now actor fromId intoId a b s) x phone ↔ NumberOf s x phone := by
  have hphones : (mergeInto now actor fromId intoId a b s).contactPhones = s.contactPhones := by
    simp only [mergeInto, uniteOptOuts]
    split_ifs <;> rfl
  have hcontacts : (mergeInto now actor fromId intoId a b s).contacts.map
      (fun c => (c.id, c.phone)) = s.contacts.map fun c => (c.id, c.phone) := by
    have hone : ∀ (t : Store) (id : Uuid) (f : Contact → Contact),
        (∀ c, ((f c).id, (f c).phone) = (c.id, c.phone)) →
        (t.updateContact id f).contacts.map (fun c => (c.id, c.phone)) =
          t.contacts.map fun c => (c.id, c.phone) := fun t _ _ hf => map_update hf t.contacts
    simp only [mergeInto]
    rw [hone, hone, contacts_uniteOptOuts]
    · exact fun _ => rfl
    · exact fun _ => rfl
  have hmem : ∀ l : List Contact, (∃ c ∈ l, c.id = x ∧ c.phone = phone) ↔
      (x, phone) ∈ l.map fun c => (c.id, c.phone) := by
    intro l
    simp [List.mem_map]
  simp only [NumberOf, hphones, hmem, hcontacts]

/-- **A merged person has the numbers of both sides.** -/
theorem belongs_mergeInto (hs : WellFormed s) (h : Mergeable s fromId intoId a b) (now : ℤ)
    (actor : Option Uuid) (phone : Phone) :
    Belongs (mergeInto now actor fromId intoId a b s) intoId phone ↔
      Belongs s fromId phone ∨ Belongs s intoId phone := by
  have hforwards : Forwards (mergeInto now actor fromId intoId a b s) =
      fun x y => Forwards s x y ∨ x = fromId ∧ y = intoId :=
    funext₂ fun x y => propext (forwards_mergeInto hs h now actor x y)
  have hkept : ∀ x y, Relation.ReflTransGen (Forwards s) x y →
      Relation.ReflTransGen (fun x y => Forwards s x y ∨ x = fromId ∧ y = intoId) x y :=
    fun x y h => h.lift id fun _ _ => .inl
  simp only [Belongs, numberOf_mergeInto, hforwards]
  constructor
  · rintro ⟨x, hx, hnumber⟩
    exact (reflTransGen_of_edge hx).imp (⟨x, ·, hnumber⟩) (⟨x, ·, hnumber⟩)
  · rintro (⟨x, hx, hnumber⟩ | ⟨x, hx, hnumber⟩)
    · exact ⟨x, (hkept x _ hx).tail (.inr ⟨rfl, rfl⟩), hnumber⟩
    · exact ⟨x, hkept x _ hx, hnumber⟩

/-! ### What a merge does to opt-outs -/

theorem union_union (actor : Option Uuid) (now : ℤ) (id id' : Uuid) (row : Option OptOut) :
    (Statement.union actor).apply now id ((Statement.union actor).apply now id' row) =
      (Statement.union actor).apply now id' row := by
  cases row <;> rfl

/-- The union of two numbers writes both, and leaves every other number as it was. -/
theorem optOuts_uniteOptOuts (now : ℤ) (actor : Option Uuid) (a b : Phone) (s : Store)
    (phone : Phone) :
    ∃ id, (uniteOptOuts now actor a b s).optOuts phone =
      if (OptedOut s a ∨ OptedOut s b) ∧ (phone = a ∨ phone = b) then
        (Statement.union actor).apply now id (s.optOuts phone)
      else s.optOuts phone := by
  have hactive : (isActive (s.optOuts a) || isActive (s.optOuts b)) = true ↔
      OptedOut s a ∨ OptedOut s b := Bool.or_eq_true_iff
  unfold uniteOptOuts
  split
  · next h =>
      simp only [hactive.1 h, true_and, Store.writeOptOut]
      by_cases hb : phone = b
      · subst hb
        by_cases ha : phone = a
        · subst ha
          exact ⟨s.nextId, by simp [union_union]⟩
        · exact ⟨s.nextId + 1, by simp [Function.update_of_ne ha]⟩
      · by_cases ha : phone = a
        · subst ha
          exact ⟨s.nextId, by simp [Function.update_of_ne hb]⟩
        · exact ⟨s.nextId, by simp [ha, hb]⟩
  · next h =>
      refine ⟨s.nextId, ?_⟩
      rw [if_neg fun hif => h (hactive.2 hif.1)]

theorem optOuts_mergeInto (fromId intoId : Uuid) (now : ℤ) (actor : Option Uuid) (s : Store)
    (phone : Phone) :
    ∃ id, (mergeInto now actor fromId intoId a b s).optOuts phone =
      if (OptedOut s a.phone ∨ OptedOut s b.phone) ∧ (phone = a.phone ∨ phone = b.phone) then
        (Statement.union actor).apply now id (s.optOuts phone)
      else s.optOuts phone :=
  optOuts_uniteOptOuts now actor a.phone b.phone
    { s with
      conversations := moveConversations now fromId (s.follow intoId) s.conversations
      calls := update (fun c => c.contactId == some fromId)
        (fun c => { c with contactId := some (s.follow intoId) }) s.calls } phone

/-! ### The law -/

/-- The two stores of a merge: all numbers of the person are opted out where one is, and an opt-out
that has become active is a manual one. -/
structure United (before after : Store) (fromId intoId : Uuid) : Prop where
  union : (∃ phone, (Belongs before fromId phone ∨ Belongs before intoId phone) ∧
    OptedOut before phone) → ∀ phone, Belongs after intoId phone → OptedOut after phone
  manual : ∀ phone r, ¬OptedOut before phone → after.optOuts phone = some r → r.active = true →
    r.source = .manual

def Keeps (before after : Store) : Prop :=
  ∀ phone r, before.optOuts phone = some r → r.active = true →
    ∃ r', after.optOuts phone = some r' ∧ r'.active = true ∧ r'.source = r.source

/-- The law of a merge that is not refused, and of every merge and unmerge. -/
def Lawful (s : Store) (i : ℤ × Event) : Prop :=
  (∀ actor fromId intoId a b, i.2 = .merge actor fromId intoId →
    Mergeable s fromId intoId a b → United s (step s i).1 fromId intoId) ∧
  ((∃ actor fromId intoId, i.2 = .merge actor fromId intoId) ∨ (∃ id, i.2 = .unmerge id) →
    Keeps s (step s i).1)

/-- What the upsert of a merge covers: a number that is opted out comes with a primary one, the
numbers that are not primary are opted out already, and a primary number that is to become opted out
has a manual row or none. -/
structure CoveredBy (s : Store) (fromId intoId : Uuid) (a b : Contact) : Prop where
  primary : (∃ phone, (Belongs s fromId phone ∨ Belongs s intoId phone) ∧ OptedOut s phone) →
    OptedOut s a.phone ∨ OptedOut s b.phone
  others : OptedOut s a.phone ∨ OptedOut s b.phone → ∀ phone,
    Belongs s fromId phone ∨ Belongs s intoId phone → phone ≠ a.phone → phone ≠ b.phone →
      OptedOut s phone
  manual : OptedOut s a.phone ∨ OptedOut s b.phone → ∀ phone r, phone = a.phone ∨ phone = b.phone →
    s.optOuts phone = some r → r.active = false → r.source = .manual

/-- Every merge of the step covers the numbers of both sides. -/
def Covered (s : Store) (i : ℤ × Event) : Prop :=
  ∀ actor fromId intoId a b, i.2 = .merge actor fromId intoId → Mergeable s fromId intoId a b →
    CoveredBy s fromId intoId a b

/-- After a merge a number is opted out if it was, or if the union is written to it. -/
theorem optedOut_mergeInto (now : ℤ) (actor : Option Uuid) (s : Store) (phone : Phone) :
    OptedOut (mergeInto now actor fromId intoId a b s) phone ↔
      OptedOut s phone ∨
        (OptedOut s a.phone ∨ OptedOut s b.phone) ∧ (phone = a.phone ∨ phone = b.phone) := by
  obtain ⟨id, hrow⟩ := optOuts_mergeInto fromId intoId now actor s phone
  by_cases hwritten : (OptedOut s a.phone ∨ OptedOut s b.phone) ∧
      (phone = a.phone ∨ phone = b.phone)
  · rw [if_pos hwritten] at hrow
    simp only [OptedOut, hrow, isActive_apply, true_iff]
    exact .inr hwritten
  · rw [if_neg hwritten] at hrow
    simp only [OptedOut, hrow]
    exact ⟨.inl, fun h => h.resolve_right hwritten⟩

theorem keeps_mergeInto (now : ℤ) (actor : Option Uuid)
    (s : Store) : Keeps s (mergeInto now actor fromId intoId a b s) := by
  intro phone r hr hactive
  obtain ⟨id, hrow⟩ := optOuts_mergeInto fromId intoId now actor s phone
  rw [hr, apply_of_active _ now id hactive, ite_self] at hrow
  exact ⟨r, hrow, hactive, rfl⟩

/-- **A merge is lawful exactly when the upsert covers it.** -/
theorem united_iff (hs : WellFormed s) (h : Mergeable s fromId intoId a b) (now : ℤ)
    (actor : Option Uuid) :
    United s (mergeInto now actor fromId intoId a b s) fromId intoId ↔
      CoveredBy s fromId intoId a b := by
  have ha := h.belongs_from hs
  have hb := h.belongs_into hs
  constructor
  · intro hunited
    have hprimary : OptedOut s a.phone ∨ OptedOut s b.phone → ∃ phone,
        (Belongs s fromId phone ∨ Belongs s intoId phone) ∧ OptedOut s phone := by
      rintro (hopted | hopted)
      · exact ⟨a.phone, .inl ha, hopted⟩
      · exact ⟨b.phone, .inr hb, hopted⟩
    have hafter : ∀ phone, (∃ phone, (Belongs s fromId phone ∨ Belongs s intoId phone) ∧
        OptedOut s phone) → Belongs s fromId phone ∨ Belongs s intoId phone →
        OptedOut s phone ∨
          (OptedOut s a.phone ∨ OptedOut s b.phone) ∧ (phone = a.phone ∨ phone = b.phone) := by
      intro phone hany hbelongs
      exact (optedOut_mergeInto now actor s phone).1
        (hunited.union hany phone ((belongs_mergeInto hs h now actor phone).2 hbelongs))
    refine ⟨fun hany => ?_, fun hopted phone hbelongs hnea hneb => ?_, ?_⟩
    · exact (hafter a.phone hany (.inl ha)).elim .inl (fun h => h.1)
    · refine (hafter phone (hprimary hopted) hbelongs).resolve_right fun h => ?_
      exact h.2.elim hnea hneb
    · intro hopted phone r hphone hr hrevoked
      have hnot : ¬OptedOut s phone := by
        simp only [OptedOut, hr, isActive_some, hrevoked]
        decide
      obtain ⟨id, hrow⟩ := optOuts_mergeInto fromId intoId now actor s phone
      rw [if_pos ⟨hopted, hphone⟩, hr] at hrow
      exact hunited.manual phone { r with revokedAt := none } hnot hrow rfl
  · intro hcovered
    refine ⟨fun hany phone hbelongs => ?_, fun phone r hnot hr hactive => ?_⟩
    · have hopted := hcovered.primary hany
      have hside := (belongs_mergeInto hs h now actor phone).1 hbelongs
      rw [optedOut_mergeInto]
      by_cases hphone : phone = a.phone ∨ phone = b.phone
      · exact .inr ⟨hopted, hphone⟩
      · obtain ⟨hnea, hneb⟩ := not_or.1 hphone
        exact .inl (hcovered.others hopted phone hside hnea hneb)
    · obtain ⟨id, hrow⟩ := optOuts_mergeInto fromId intoId now actor s phone
      rw [hr] at hrow
      by_cases hwritten : (OptedOut s a.phone ∨ OptedOut s b.phone) ∧
          (phone = a.phone ∨ phone = b.phone)
      · rw [if_pos hwritten] at hrow
        cases hbefore : s.optOuts phone with
        | none =>
            rw [hbefore] at hrow
            obtain rfl := Option.some.inj hrow
            rfl
        | some old =>
            rw [hbefore] at hrow
            obtain rfl := Option.some.inj hrow
            have hrevoked : old.active = false := by
              simpa [OptedOut, hbefore] using hnot
            exact hcovered.manual hwritten.1 phone old hwritten.2 hbefore hrevoked
      · rw [if_neg hwritten] at hrow
        exact absurd (by simpa [OptedOut, ← hrow] using hactive) hnot

/-- A merge or an unmerge keeps every active opt-out, whatever it does. -/
theorem keeps_step {i : ℤ × Event}
    (h : (∃ actor fromId intoId, i.2 = .merge actor fromId intoId) ∨ ∃ id, i.2 = .unmerge id) :
    Keeps s (step s i).1 := by
  have hrefl : Keeps s s := fun phone r hr hactive => ⟨r, hr, hactive, rfl⟩
  rcases h with ⟨actor, fromId, intoId, hi⟩ | ⟨id, hi⟩
  · simp only [step, hi]
    rcases mergeContacts_cases i.1 actor fromId intoId s with ⟨h, -⟩ | ⟨a, b, -, h⟩
    · rw [h]
      exact hrefl
    · rw [h]
      exact keeps_mergeInto i.1 actor s
  · simp only [step, hi, unmergeContact]
    cases s.find id with
    | none => exact hrefl
    | some c =>
        dsimp only
        split_ifs
        · exact hrefl
        · exact hrefl

theorem lawful_iff (hs : WellFormed s) (i : ℤ × Event) : Lawful s i ↔ Covered s i := by
  have hmerge : ∀ actor fromId intoId a b, i.2 = .merge actor fromId intoId →
      Mergeable s fromId intoId a b →
        (United s (step s i).1 fromId intoId ↔ CoveredBy s fromId intoId a b) := by
    intro actor fromId intoId a b hi h
    rcases mergeContacts_cases i.1 actor fromId intoId s with ⟨-, hno⟩ | ⟨a', b', h', hstep⟩
    · exact absurd h (hno a b)
    · obtain rfl := Option.some.inj (h.fromContact.symm.trans h'.fromContact)
      obtain rfl := Option.some.inj (h.intoContact.symm.trans h'.intoContact)
      simp only [step, hi, hstep]
      exact united_iff hs h i.1 actor
  constructor
  · intro hlawful actor fromId intoId a b hi h
    exact (hmerge actor fromId intoId a b hi h).1 (hlawful.1 actor fromId intoId a b hi h)
  · intro hcovered
    refine ⟨fun actor fromId intoId a b hi h => ?_, keeps_step⟩
    exact (hmerge actor fromId intoId a b hi h).2 (hcovered actor fromId intoId a b hi h)

/-- **The union of opt-outs holds after every merge of exactly the runs whose merges are
covered.** -/
theorem lawful_iff_along {s : Store} (hs : WellFormed s) (run : List (ℤ × Event)) :
    Reactive.Along step Lawful s run ↔ Reactive.Along step Covered s run := by
  constructor
  · exact Reactive.along_of_inv step (P := WellFormed) (fun _ i h _ => step_wellFormed h i)
      (fun _ i h => (lawful_iff h i).1) hs
  · exact Reactive.along_of_inv step (P := WellFormed) (fun _ i h _ => step_wellFormed h i)
      (fun _ i h => (lawful_iff h i).2) hs

/-! ### Merges that are covered, and merges that are not -/

def stopped (source : Source) : OptOut := .fresh source none 0 9

def restarted : OptOut := { stopped .stopKeyword with revokedAt := some 1 }

/-- Two records of one customer, the first with a landline. -/
def twoRecords (optOuts : Phone → Option OptOut) : Store :=
  { Store.empty with
    contacts := [.fresh 0 "+15550100" none none, .fresh 1 "+15550101" none none]
    contactPhones := [{ contactId := 0, phone := "+15550190" }]
    optOuts := optOuts
    nextId := 2 }

theorem wellFormed_twoRecords (optOuts : Phone → Option OptOut) :
    WellFormed (twoRecords optOuts) := by
  constructor <;> simp [twoRecords, Store.empty, Contact.fresh, OpenOnce]

theorem mergeable_twoRecords (optOuts : Phone → Option OptOut) :
    Mergeable (twoRecords optOuts) 0 1 (.fresh 0 "+15550100" none none)
      (.fresh 1 "+15550101" none none) :=
  ⟨by decide, rfl, rfl, rfl, rfl⟩

theorem mem_of_belongs_twoRecords {optOuts : Phone → Option OptOut} {id : Uuid} {phone : Phone}
    (h : Belongs (twoRecords optOuts) id phone) :
    phone ∈ ["+15550100", "+15550101", "+15550190"] := by
  obtain ⟨x, -, ⟨c, hc, -, rfl⟩ | ⟨p, hp, -, rfl⟩⟩ := h
  · simp only [twoRecords, Contact.fresh, List.mem_cons, List.not_mem_nil, or_false] at hc
    rcases hc with rfl | rfl <;> simp
  · simp only [twoRecords, List.mem_cons, List.not_mem_nil, or_false] at hp
    subst hp
    simp

/-- The number and its landline have said STOP. -/
def allStopped (phone : Phone) : Option OptOut :=
  if phone = "+15550101" then none else some (stopped .stopKeyword)

theorem lawful_iff_along_stopped :
    Reactive.Along step Lawful (twoRecords allStopped) [(5, .merge none 0 1), (6, .unmerge 0)] := by
  refine (lawful_iff_along (wellFormed_twoRecords allStopped) _).2 ⟨?_, ?_, trivial⟩
  · rintro actor fromId intoId a b hi hmergeable
    obtain ⟨-, rfl, rfl⟩ := Event.merge.inj hi
    obtain rfl := Option.some.inj (hmergeable.fromContact.symm.trans
      (mergeable_twoRecords allStopped).fromContact)
    obtain rfl := Option.some.inj (hmergeable.intoContact.symm.trans
      (mergeable_twoRecords allStopped).intoContact)
    refine ⟨fun _ => .inl (by decide +kernel), fun _ phone hbelongs hnea hneb => ?_, ?_⟩
    · have hmem := hbelongs.elim mem_of_belongs_twoRecords mem_of_belongs_twoRecords
      simp only [List.mem_cons, List.not_mem_nil, or_false] at hmem
      rcases hmem with rfl | rfl | rfl
      · exact absurd rfl hnea
      · exact absurd rfl hneb
      · decide +kernel
    · rintro - phone r (rfl | rfl) hr hrevoked
      · obtain rfl := Option.some.inj hr
        cases hrevoked
      · cases hr
  · intro actor fromId intoId a b hi
    cases hi

/-- **A landline is missed, and a STOP that was taken back returns.**  In the one merge the landline
is opted out and neither primary number is; in the other the survivor has sent STOP and START. -/
theorem union_incomplete :
    ¬Reactive.Along step Lawful
        (twoRecords fun phone => if phone = "+15550190" then some (stopped .stopKeyword) else none)
        [(5, .merge none 0 1)] ∧
      ¬Reactive.Along step Lawful
        (twoRecords fun phone => if phone = "+15550100" then some (stopped .manual)
          else if phone = "+15550101" then some restarted else none)
        [(5, .merge none 0 1)] := by
  constructor
  · rintro ⟨hlawful, -⟩
    have hcovered := (lawful_iff (wellFormed_twoRecords _) _).1 hlawful none 0 1 _ _ rfl
      (mergeable_twoRecords _)
    have hlandline : Belongs (twoRecords fun phone =>
        if phone = "+15550190" then some (stopped .stopKeyword) else none) 0 "+15550190" :=
      ⟨0, .refl, .inr ⟨_, List.mem_singleton_self _, rfl, rfl⟩⟩
    have hprimary := hcovered.primary ⟨"+15550190", .inl hlandline, by decide +kernel⟩
    revert hprimary
    decide +kernel
  · rintro ⟨hlawful, -⟩
    have hcovered := (lawful_iff (wellFormed_twoRecords _) _).1 hlawful none 0 1 _ _ rfl
      (mergeable_twoRecords _)
    have hsource := hcovered.manual (.inl (by decide +kernel)) "+15550101" restarted (.inr rfl)
      (by decide +kernel) rfl
    cases hsource

end Contacts
