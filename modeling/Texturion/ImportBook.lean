/-
**What an import makes of a workspace.**

Up to the instants and the ids it writes, an import that nothing interrupts is a function of the
book it finds: of the contacts, the opt-outs, the announcements in the threads and where these go.
This module states that function and shows that the calls of an import compute it.  It shows as well
that an import that dies leaves every contact and every opt-out either as it was or as it would have
been left in the end, and that the announcements come with the last call.

Main result:

* `ContactImport.book_run` — **an import that ends makes of the book what it should**.
-/

import Texturion.ContactImport
import Mathlib.Data.Prod.Lex

namespace ContactImport

open OptOuts Interleaving

/-! ### Books -/

/-- A contact, up to instants. -/
structure Person where
  name : Option String
  address : Option String
  notes : Option String
  source : Option Contacts.ConsentSource
  consented : Bool
  attestedBy : Option Uuid
  createdBy : Option Uuid
  deleted : Bool
  deriving DecidableEq

/-- A row of `opt_outs`, up to its id and its instants. -/
structure Restriction where
  source : Source
  createdBy : Option Uuid
  active : Bool
  deriving DecidableEq

/-- A store, up to instants and ids. -/
structure Book where
  people : Phone → Option Person
  restrictions : Phone → Option Restriction
  events : List OptedOutEvent
  latestConversation : Phone → Option Uuid

def Contact.person (c : Contact) : Person where
  name := c.name
  address := c.address
  notes := c.notes
  source := c.consent.source
  consented := c.consent.consentAt.isSome
  attestedBy := c.consent.attestedBy
  createdBy := c.createdBy
  deleted := c.deletedAt.isSome

def restriction (r : OptOut) : Restriction where
  source := r.source
  createdBy := r.createdBy
  active := r.active

def Store.book (s : Store) : Book where
  people := fun phone => (s.contacts phone).map Contact.person
  restrictions := fun phone => (s.optOuts phone).map restriction
  events := s.events
  latestConversation := s.latestConversation

@[simp] theorem people_book (s : Store) (phone : Phone) :
    s.book.people phone = (s.contacts phone).map Contact.person := rfl

@[simp] theorem restrictions_book (s : Store) (phone : Phone) :
    s.book.restrictions phone = (s.optOuts phone).map restriction := rfl

@[simp] theorem events_book (s : Store) : s.book.events = s.events := rfl

@[simp] theorem latestConversation_book (s : Store) :
    s.book.latestConversation = s.latestConversation := rfl

def Person.given (p : Person) : Bool := p.consented || p.source.isSome

@[simp] theorem given_person (c : Contact) : c.person.given = c.consent.given := rfl

namespace Book

variable (b : Book)

/-- The number is opted out. -/
def isActive (phone : Phone) : Bool := (b.restrictions phone).any (·.active)

def isAnnounced (phone : Phone) : Bool := b.events.any (·.phone == some phone)

end Book

@[simp] theorem isActive_book (s : Store) (phone : Phone) :
    s.book.isActive phone = isActive (s.optOuts phone) := by
  rw [Book.isActive, restrictions_book]
  cases s.optOuts phone <;> rfl

@[simp] theorem isAnnounced_book (s : Store) (phone : Phone) :
    s.book.isAnnounced phone = s.isAnnounced phone := rfl

/-! ### What an import makes of a book -/

/-- A person that is new to the workspace. -/
def newcomer : Person := Contact.fresh.person

/-- What the row of an entry says, over what was said of the person before. -/
def Entry.over (u : Request) (attests : Bool) (e : Entry) (p : Person) : Person where
  name := e.name.or p.name
  address := e.address.getD p.address
  notes := e.notes.getD p.notes
  source := if attests then some .attested else p.source
  consented := attests || p.consented
  attestedBy := if attests then some u.userId else p.attestedBy
  createdBy := some u.userId
  deleted := false

/-- A row that is written again, with the basis or without it, says no more than once. -/
theorem over_over (u : Request) {attests again : Bool} (h : again = true → attests = true)
    (e : Entry) (p : Person) : e.over u again (e.over u attests p) = e.over u attests p := by
  cases hname : e.name <;> cases haddress : e.address <;> cases hnotes : e.notes <;>
    cases again <;> cases attests <;> simp_all [Entry.over]

namespace Book

variable (u : Request) (b : Book)

/-- The person gets the basis that the file attests. -/
def attests (e : Entry) : Bool :=
  !(b.isActive e.phone || e.optedOut) && !(b.people e.phone).any Person.given

def person (e : Entry) : Person :=
  e.over u (b.attests e) ((b.people e.phone).getD newcomer)

/-- The opt-out of an import. -/
def imposed : Restriction where
  source := .imported
  createdBy := some u.userId
  active := true

/-- What an import makes of the opt-out of a number that its file opts out. -/
def restrict (phone : Phone) : Option Restriction :=
  if b.isActive phone then b.restrictions phone else some (imposed u)

def newlyOptedOut : List Phone := u.file.newlyOptedOut b.isActive b.isAnnounced

def event (phone : Phone) : OptedOutEvent where
  phone := some phone
  source := some .imported
  actorUserId := some u.userId
  conversationId := b.latestConversation phone

def imported : Book where
  people := fun phone =>
    match u.file.entries.find? (·.phone == phone) with
    | none => b.people phone
    | some e => some (b.person u e)
  restrictions := fun phone =>
    if phone ∈ u.file.optedOutPhones then b.restrict u phone else b.restrictions phone
  events := b.events ++ (b.newlyOptedOut u).map (b.event u)
  latestConversation := b.latestConversation

end Book

theorem people_imported {u : Request} {b : Book} {e : Entry} (he : e ∈ u.file.entries) :
    (b.imported u).people e.phone = some (b.person u e) := by
  have hfind : u.file.entries.find? (fun e' => e'.phone == e.phone) = some e :=
    (SqlTable.find?_key_eq_some (notes_entries u.file).distinct).2 ⟨he, rfl⟩
  simp only [Book.imported, hfind]

variable {phone : Phone} {α : Type*} {rest : List (List Phone)} {s t : Store}
  {standing : Phone → Bool} {x : Answer} {plan : Plan}

theorem people_imported_of_not {u : Request} {b : Book}
    (h : ∀ e ∈ u.file.entries, e.phone ≠ phone) : (b.imported u).people phone = b.people phone := by
  have hfind : u.file.entries.find? (fun e => e.phone == phone) = none :=
    List.find?_eq_none.2 fun e he => by simpa using h e he
  simp only [Book.imported, hfind]

theorem restrictions_imported {u : Request} {b : Book} (h : phone ∈ u.file.optedOutPhones) :
    (b.imported u).restrictions phone = b.restrict u phone := by
  simp only [Book.imported, h, if_true]

theorem restrictions_imported_of_not {u : Request} {b : Book} (h : phone ∉ u.file.optedOutPhones) :
    (b.imported u).restrictions phone = b.restrictions phone := by
  simp only [Book.imported, h, if_false]

/-! ### Rows -/

def rowFor (u : Request) (importedAt : ℤ) (s : Store) (e : Entry) : Row :=
  e.upsertRow (fun phone => (s.contacts phone).map (·.consent))
    (fun phone => isActive (s.optOuts phone)) importedAt u.userId

theorem consent_rowFor (u : Request) (importedAt : ℤ) (s : Store) (e : Entry) :
    (rowFor u importedAt s e).consent =
      if s.book.attests e then
        some
          { source := some .attested
            consentAt := some importedAt
            attestedBy := some u.userId }
      else none := by
  have hgiven : ((s.contacts e.phone).map (·.consent)).any Basis.given =
      (s.book.people e.phone).any Person.given := by
    rw [people_book]
    cases s.contacts e.phone <;> rfl
  unfold rowFor Entry.upsertRow Entry.decision importConsent Book.attests
  simp only [hgiven, isActive_book]
  generalize (s.book.people e.phone).any Person.given = given
  generalize isActive (s.optOuts e.phone) = standing
  cases standing <;> cases e.optedOut <;> cases given <;> rfl

theorem person_onto (u : Request) (importedAt : ℤ) (s : Store) (e : Entry) (old : Option Contact) :
    ((rowFor u importedAt s e).onto (rowFor u importedAt s e).columns old).person =
      e.over u (s.book.attests e) ((old.map Contact.person).getD newcomer) := by
  have hold : (old.map Contact.person).getD newcomer = (old.getD .fresh).person := by
    cases old <;> rfl
  rw [Contact.person, consent_onto, name_onto, address_onto, notes_onto, consent_rowFor, hold,
    Entry.over]
  cases s.book.attests e <;> rfl

/-! ### Opt-outs -/

theorem restriction_revive (u : Request) (now : ℤ) (id : Uuid) (row : Option OptOut) :
    ((Statement.revive .imported (some u.userId)).apply now id row).map restriction =
      (row.map restriction).map fun r => if r.active then r else Book.imposed u := by
  cases row with
  | none => rfl
  | some r =>
    cases hactive : r.active <;> simp [Statement.apply, restriction, hactive]
    rfl

theorem restriction_insert (u : Request) (now : ℤ) (id : Uuid) (row : Option OptOut) :
    ((Statement.insert .imported (some u.userId)).apply now id row).map restriction =
      some ((row.map restriction).getD (Book.imposed u)) := by
  cases row <;> rfl

theorem restrictions_writeOptOuts (t : Store) (w : Statement) (now : ℤ) (ids : Phone → Uuid)
    (phones : List Phone) (phone : Phone) :
    (t.writeOptOuts w now ids phones).book.restrictions phone =
      if phone ∈ phones then (w.apply now (ids phone) (t.optOuts phone)).map restriction
      else t.book.restrictions phone := by
  simp only [restrictions_book, Store.writeOptOuts]
  split_ifs <;> rfl

/-- The revival of an opt-out that is as it was, or as the import leaves it. -/
theorem revived {u : Request} {b : Book} {r : Option Restriction}
    (h : r = b.restrictions phone ∨ r = b.restrict u phone) :
    (b.restrictions phone = none ∧ (r.map fun r => if r.active then r else Book.imposed u) = none) ∨
      (r.map fun r => if r.active then r else Book.imposed u) = b.restrict u phone := by
  unfold Book.restrict Book.isActive at *
  cases hrow : b.restrictions phone with
  | none =>
    rcases h with rfl | rfl
    · left
      rw [hrow]
      exact ⟨rfl, rfl⟩
    · right
      rw [hrow]
      rfl
  | some row =>
    right
    cases hactive : row.active
    · rcases h with rfl | rfl <;> simp [hrow, hactive, Book.imposed]
    · rcases h with rfl | rfl <;> simp [hrow, hactive]

theorem inserted {u : Request} {b : Book} {r : Option Restriction}
    (h : r = b.restrictions phone ∨ r = b.restrict u phone)
    (hrevived : b.restrictions phone = none ∨ r = b.restrict u phone) :
    some (r.getD (Book.imposed u)) = b.restrict u phone := by
  have hsome : ∃ row, b.restrict u phone = some row := by
    unfold Book.restrict Book.isActive
    cases hrow : b.restrictions phone with
    | none => exact ⟨_, rfl⟩
    | some row => cases hactive : row.active <;> simp [hactive]
  obtain ⟨row, hrow⟩ := hsome
  by_cases hdone : r = b.restrict u phone
  · rw [hdone, hrow]
    rfl
  · have hnone := hrevived.resolve_right hdone
    rw [h.resolve_right hdone, hnone]
    unfold Book.restrict Book.isActive
    rw [hnone]
    rfl

/-! ### How far an import has come -/

/-- The calls that are left of a loop are about its items, and the others are done. -/
structure Through {α : Type*} (items : List α) (rest : List (List α)) (done : α → Prop) : Prop where
  sub : ∀ call ∈ rest, ∀ a ∈ call, a ∈ items
  done : ∀ a ∈ items, a ∈ rest.flatten ∨ done a

theorem through_chunks (items : List α) (done : α → Prop) :
    Through items (chunks items) done where
  sub := fun _ hcall _ ha => mem_of_mem_chunks hcall ha
  done := fun a ha => .inl (by rwa [flatten_chunks])

theorem Through.next {items call : List α} {rest : List (List α)} {done done' : α → Prop}
    (h : Through items (call :: rest) done) (hkept : ∀ a ∈ items, done a → done' a)
    (hcall : ∀ a ∈ call, done' a) :
    Through items rest done' where
  sub := fun c hc => h.sub c (List.mem_cons_of_mem _ hc)
  done := fun a ha => by
    rcases h.done a ha with hrest | hdone
    · rcases List.mem_append.1 (List.flatten_cons ▸ hrest) with hnow | hlater
      · exact .inr (hcall a hnow)
      · exact .inl hlater
    · exact .inr (hkept a ha hdone)

theorem Through.all {items : List α} {done : α → Prop} (h : Through items [] done) :
    ∀ a ∈ items, done a :=
  fun a ha => (h.done a ha).resolve_left List.not_mem_nil

theorem Through.learn {items call : List Phone} {known answer : Phone → α}
    (h : Through items (call :: rest) fun phone => known phone = answer phone) :
    Through items rest fun phone => learn call answer known phone = answer phone := by
  refine h.next (fun phone _ hknown => ?_) fun phone hphone => if_pos hphone
  unfold ContactImport.learn
  split_ifs
  · rfl
  · exact hknown

/-- Every contact and every opt-out is as it was, or as the import leaves it. -/
structure Between (u : Request) (s t : Store) : Prop where
  people : ∀ phone, t.book.people phone = s.book.people phone ∨
    t.book.people phone = (s.book.imported u).people phone
  restrictions : ∀ phone, t.book.restrictions phone = s.book.restrictions phone ∨
    t.book.restrictions phone = (s.book.imported u).restrictions phone
  latestConversation : t.latestConversation = s.latestConversation

theorem between_refl (u : Request) (s : Store) : Between u s s :=
  ⟨fun _ => .inl rfl, fun _ => .inl rfl, rfl⟩

/-- Nothing has been announced yet. -/
structure Silent (u : Request) (s t : Store) : Prop where
  between : Between u s t
  events : t.events = s.events

/-- The import goes on with what it should have decided. -/
structure Ready (u : Request) (s : Store) (plan : Plan) : Prop where
  request : plan.request = u
  rows : ∃ importedAt, plan.rows = u.file.entries.map (rowFor u importedAt s)
  newlyOptedOut : plan.newlyOptedOut = s.book.newlyOptedOut u

/-- How far an import has come that began at `s`, where it is at a point and the store is `t`. -/
def Reached (u : Request) (s t : Store) : Option Point → Prop
  | none => t.book = s.book.imported u
  | some (.reading v bs ss basis standing) =>
    v = u ∧ t = s ∧
      Through u.file.phones bs (fun phone => basis phone = (s.contacts phone).map (·.consent)) ∧
      Through u.file.phones ss fun phone => standing phone = isActive (s.optOuts phone)
  | some (.checking v standing rows _ rest announced) =>
    v = u ∧ t = s ∧ (∃ importedAt, rows = u.file.entries.map (rowFor u importedAt s)) ∧
      (∀ phone ∈ u.file.phones, standing phone = isActive (s.optOuts phone)) ∧
      Through (u.file.optedOutPhones.filter standing) rest fun phone =>
        announced phone = s.isAnnounced phone
  | some (.reviving plan rest) =>
    Ready u s plan ∧ Silent u s t ∧
      Through u.file.optedOutPhones rest fun phone => s.book.restrictions phone = none ∨
        t.book.restrictions phone = (s.book.imported u).restrictions phone
  | some (.inserting plan rest) =>
    Ready u s plan ∧ Silent u s t ∧
      (∀ phone ∈ u.file.optedOutPhones, s.book.restrictions phone = none ∨
        t.book.restrictions phone = (s.book.imported u).restrictions phone) ∧
      Through u.file.optedOutPhones rest fun phone =>
        t.book.restrictions phone = (s.book.imported u).restrictions phone
  | some (.upserting plan rest) =>
    Ready u s plan ∧ Silent u s t ∧ t.book.restrictions = (s.book.imported u).restrictions ∧
      (∀ call ∈ rest, Uniform call) ∧
      Through plan.rows rest fun row =>
        t.book.people row.phone = (s.book.imported u).people row.phone
  | some (.looking plan rest latest) =>
    Ready u s plan ∧ Silent u s t ∧ t.book.restrictions = (s.book.imported u).restrictions ∧
      t.book.people = (s.book.imported u).people ∧
      Through plan.newlyOptedOut rest fun phone => latest phone = s.latestConversation phone
  | some (.announcing plan latest) =>
    Ready u s plan ∧ Silent u s t ∧ t.book.restrictions = (s.book.imported u).restrictions ∧
      t.book.people = (s.book.imported u).people ∧
      ∀ phone ∈ plan.newlyOptedOut, latest phone = s.latestConversation phone

/-! ### One step -/

theorem reached_enter (u : Request) (s : Store) : Reached u s s (some (enter u)) :=
  ⟨rfl, rfl, through_chunks _ _, through_chunks _ _⟩

theorem map_upsertRow {u : Request} {basis : Phone → Option Basis} {importedAt : ℤ}
    (hbasis : ∀ phone ∈ u.file.phones, basis phone = (s.contacts phone).map (·.consent))
    (hstanding : ∀ phone ∈ u.file.phones, standing phone = isActive (s.optOuts phone)) :
    u.file.entries.map (Entry.upsertRow basis standing importedAt u.userId) =
      u.file.entries.map (rowFor u importedAt s) := by
  refine List.map_congr_left fun e he => ?_
  have hphone : e.phone ∈ u.file.phones := List.mem_map_of_mem he
  simp only [Entry.upsertRow, Entry.decision, rowFor, hbasis _ hphone, hstanding _ hphone]

theorem reached_reading {u v : Request} {bs ss : List (List Phone)} {basis : Phone → Option Basis}
    (h : Reached u s t (some (.reading v bs ss basis standing))) :
    Reached u s (advance t (.reading v bs ss basis standing) x).1
      (advance t (.reading v bs ss basis standing) x).2.1 := by
  obtain ⟨rfl, rfl, hbasis, hstanding⟩ := h
  cases bs with
  | nil =>
    cases ss with
    | nil =>
      refine ⟨rfl, rfl, ⟨x.now, map_upsertRow hbasis.all hstanding.all⟩, hstanding.all, ?_⟩
      exact through_chunks _ _
    | cons call rest => exact ⟨rfl, rfl, hbasis, hstanding.learn⟩
  | cons call rest =>
    cases ss with
    | nil => exact ⟨rfl, rfl, hbasis.learn, hstanding⟩
    | cons call' rest' =>
      by_cases hfirst : x.basisFirst = true
      · simp only [advance, hfirst, if_true]
        exact ⟨rfl, rfl, hbasis.learn, hstanding⟩
      · simp only [advance, hfirst]
        exact ⟨rfl, rfl, hbasis, hstanding.learn⟩

theorem reached_checking {u v : Request} {rows : List Row} {refusals : List Refusal}
    {announced : Phone → Bool}
    (h : Reached u s t (some (.checking v standing rows refusals rest announced))) :
    Reached u s (advance t (.checking v standing rows refusals rest announced) x).1
      (advance t (.checking v standing rows refusals rest announced) x).2.1 := by
  obtain ⟨rfl, rfl, hrows, hstanding, hannounced⟩ := h
  cases rest with
  | nil =>
    refine ⟨⟨rfl, hrows, ?_⟩, ⟨between_refl _ _, rfl⟩, through_chunks _ _⟩
    refine List.filter_congr fun phone hphone => ?_
    have hmem : phone ∈ v.file.phones := by
      obtain ⟨e, he, rfl⟩ := List.mem_map.1 hphone
      exact List.mem_map_of_mem (List.mem_filter.1 he).1
    rw [isActive_book, isAnnounced_book, ← hstanding phone hmem]
    cases hactive : standing phone with
    | false => rfl
    | true =>
      have hasked : phone ∈ v.file.optedOutPhones.filter standing :=
        List.mem_filter.2 ⟨hphone, hactive⟩
      rw [hannounced.all phone hasked]
  | cons call rest => exact ⟨rfl, rfl, hrows, hstanding, hannounced.learn⟩

theorem silent_writeOptOuts {u : Request} (h : Silent u s t) {w : Statement} {now : ℤ}
    {ids : Phone → Uuid} {phones : List Phone} (hw : ∀ phone ∈ phones,
      (w.apply now (ids phone) (t.optOuts phone)).map restriction = s.book.restrictions phone ∨
      (w.apply now (ids phone) (t.optOuts phone)).map restriction =
        (s.book.imported u).restrictions phone) : Silent u s (t.writeOptOuts w now ids phones) := by
  refine ⟨⟨h.between.people, fun phone => ?_, h.between.latestConversation⟩, h.events⟩
  rw [restrictions_writeOptOuts]
  split_ifs with hphone
  · exact hw phone hphone
  · exact h.between.restrictions phone

theorem reached_reviving {u : Request} (h : Reached u s t (some (.reviving plan rest))) :
    Reached u s (advance t (.reviving plan rest) x).1 (advance t (.reviving plan rest) x).2.1 := by
  obtain ⟨hready, hsilent, hthrough⟩ := h
  obtain rfl := hready.request
  cases rest with
  | nil => exact ⟨hready, hsilent, hthrough.all, through_chunks _ _⟩
  | cons call rest =>
    have hcall : ∀ phone ∈ call, phone ∈ plan.request.file.optedOutPhones :=
      hthrough.sub call (by simp)
    have hrevived : ∀ phone ∈ call,
        (s.book.restrictions phone = none ∧
          ((Statement.revive .imported (some plan.request.userId)).apply x.now (x.ids phone)
            (t.optOuts phone)).map restriction = none) ∨
        ((Statement.revive .imported (some plan.request.userId)).apply x.now (x.ids phone)
          (t.optOuts phone)).map restriction =
            (s.book.imported plan.request).restrictions phone := by
      intro phone hphone
      have hwas := hsilent.between.restrictions phone
      rw [restrictions_imported (hcall phone hphone)] at hwas
      rw [restriction_revive, restrictions_imported (hcall phone hphone)]
      exact revived hwas
    refine ⟨hready, silent_writeOptOuts hsilent fun phone hphone => ?_, ?_⟩
    · rcases hrevived phone hphone with ⟨hnone, hstill⟩ | hdone
      · exact .inl (hstill.trans hnone.symm)
      · exact .inr hdone
    · refine hthrough.next (fun phone _ hdone => ?_) fun phone hphone => ?_
      · rw [advance, restrictions_writeOptOuts]
        split_ifs with hphone
        · exact (hrevived phone hphone).imp_left And.left
        · exact hdone
      · rw [advance, restrictions_writeOptOuts, if_pos hphone]
        exact (hrevived phone hphone).imp_left And.left

theorem reached_inserting {u : Request} (h : Reached u s t (some (.inserting plan rest))) :
    Reached u s (advance t (.inserting plan rest) x).1
      (advance t (.inserting plan rest) x).2.1 := by
  obtain ⟨hready, hsilent, hrevived, hthrough⟩ := h
  obtain rfl := hready.request
  cases rest with
  | nil =>
    refine ⟨hready, hsilent, funext fun phone => ?_, fun call hcall => (calls_upsert hcall).1,
      fun call hcall => (calls_upsert hcall).2, fun row hrow => .inl (mem_calls_upsert.2 hrow)⟩
    by_cases hphone : phone ∈ plan.request.file.optedOutPhones
    · exact hthrough.all phone hphone
    · have hwas := hsilent.between.restrictions phone
      rw [restrictions_imported_of_not hphone] at hwas ⊢
      exact hwas.elim id id
  | cons call rest =>
    have hcall : ∀ phone ∈ call, phone ∈ plan.request.file.optedOutPhones :=
      hthrough.sub call (by simp)
    have hinserted : ∀ phone ∈ call,
        ((Statement.insert .imported (some plan.request.userId)).apply x.now (x.ids phone)
          (t.optOuts phone)).map restriction =
            (s.book.imported plan.request).restrictions phone := by
      intro phone hphone
      have hwas := hsilent.between.restrictions phone
      have hdone := hrevived phone (hcall phone hphone)
      rw [restrictions_imported (hcall phone hphone)] at hwas hdone ⊢
      rw [restriction_insert]
      exact inserted hwas hdone
    have hkept : ∀ phone,
        t.book.restrictions phone = (s.book.imported plan.request).restrictions phone →
        (t.writeOptOuts (.insert .imported (some plan.request.userId)) x.now x.ids
          call).book.restrictions phone =
            (s.book.imported plan.request).restrictions phone := by
      intro phone hdone
      rw [restrictions_writeOptOuts]
      split_ifs with hphone
      · exact hinserted phone hphone
      · exact hdone
    refine ⟨hready, silent_writeOptOuts hsilent fun phone hphone => .inr (hinserted phone hphone),
      fun phone hphone => (hrevived phone hphone).imp_right (hkept phone), ?_⟩
    refine hthrough.next (fun phone _ => hkept phone) fun phone hphone => ?_
    rw [advance, restrictions_writeOptOuts, if_pos hphone]
    exact hinserted phone hphone

theorem people_upsert {u : Request} {importedAt : ℤ} {call : List Row} (huniform : Uniform call)
    (hcall : ∀ row ∈ call, row ∈ u.file.entries.map (rowFor u importedAt s))
    (hbetween : ∀ phone, t.book.people phone = s.book.people phone ∨
      t.book.people phone = (s.book.imported u).people phone) (phone : Phone) :
    (t.upsert call).book.people phone =
      if phone ∈ call.map (·.phone) then (s.book.imported u).people phone
      else t.book.people phone := by
  rw [people_book, contacts_upsert huniform]
  cases hfind : call.find? (·.phone == phone) with
  | none =>
    have hnone : phone ∉ call.map (·.phone) := by
      intro hmem
      obtain ⟨row, hrow, rfl⟩ := List.mem_map.1 hmem
      exact absurd (beq_self_eq_true _) (List.find?_eq_none.1 hfind row hrow)
    rw [if_neg hnone, people_book]
  | some row =>
    have hrow := List.mem_of_find?_eq_some hfind
    have hphone : row.phone = phone :=
      eq_of_beq (List.find?_some (p := fun row : Row => row.phone == phone) hfind)
    subst hphone
    obtain ⟨e, he, rfl⟩ := List.mem_map.1 (hcall row hrow)
    have hentry : (rowFor u importedAt s e).phone = e.phone := rfl
    rw [if_pos (List.mem_map_of_mem hrow), hentry, people_imported he, Option.map_some,
      person_onto]
    have hwas := hbetween e.phone
    rw [people_imported he] at hwas
    rcases hwas with hwas | hwas
    · rw [← people_book, hwas]
      rfl
    · -- the contact has been written already
      rw [← people_book, hwas, Option.getD_some, Book.person, over_over u id]

theorem reached_upserting {u : Request} {rest : List (List Row)}
    (h : Reached u s t (some (.upserting plan rest))) :
    Reached u s (advance t (.upserting plan rest) x).1
      (advance t (.upserting plan rest) x).2.1 := by
  obtain ⟨hready, hsilent, hrestrictions, huniform, hthrough⟩ := h
  obtain ⟨importedAt, hrows⟩ := hready.rows
  cases rest with
  | nil =>
    refine ⟨hready, hsilent, hrestrictions, funext fun phone => ?_, through_chunks _ _⟩
    by_cases hphone : ∃ e ∈ u.file.entries, e.phone = phone
    · obtain ⟨e, he, rfl⟩ := hphone
      have hrow : rowFor u importedAt s e ∈ plan.rows := by
        rw [hrows]
        exact List.mem_map_of_mem he
      exact hthrough.all _ hrow
    · have hwas := hsilent.between.people phone
      rw [people_imported_of_not fun e he heq => hphone ⟨e, he, heq⟩] at hwas ⊢
      exact hwas.elim id id
  | cons call rest =>
    have hcall : ∀ row ∈ call, row ∈ u.file.entries.map (rowFor u importedAt s) := by
      intro row hrow
      rw [← hrows]
      exact hthrough.sub call (by simp) row hrow
    have hpeople := people_upsert (huniform call (by simp)) hcall hsilent.between.people
    have hbetween : Between u s (t.upsert call) := by
      refine ⟨fun phone => ?_, fun phone => ?_, ?_⟩
      · rw [hpeople]
        split_ifs
        · exact .inr rfl
        · exact hsilent.between.people phone
      · rw [restrictions_book, optOuts_upsert]
        exact hsilent.between.restrictions phone
      · rw [latestConversation_upsert]
        exact hsilent.between.latestConversation
    refine ⟨hready, ⟨hbetween, (events_upsert call t).trans hsilent.events⟩, ?_,
      fun c hc => huniform c (List.mem_cons_of_mem _ hc), ?_⟩
    · refine Eq.trans (funext fun phone => ?_) hrestrictions
      rw [advance, restrictions_book, optOuts_upsert, restrictions_book]
    · refine hthrough.next (fun row _ hdone => ?_) fun row hrow => ?_
      · rw [advance, hpeople]
        split_ifs
        · rfl
        · exact hdone
      · rw [advance, hpeople, if_pos (List.mem_map_of_mem hrow)]

theorem reached_announcing {u : Request} {latest : Phone → Option Uuid}
    (h : Reached u s t (some (.announcing plan latest))) :
    Reached u s (advance t (.announcing plan latest) x).1
      (advance t (.announcing plan latest) x).2.1 := by
  obtain ⟨hready, hsilent, hrestrictions, hpeople, hlatest⟩ := h
  have hevent : plan.newlyOptedOut.map (plan.event latest) =
      (s.book.newlyOptedOut u).map (s.book.event u) := by
    rw [← hready.newlyOptedOut]
    refine List.map_congr_left fun phone hphone => ?_
    rw [Plan.event, Book.event, hready.request, hlatest phone hphone, latestConversation_book]
  have hevents : t.events ++ plan.newlyOptedOut.map (plan.event latest) =
      (s.book.imported u).events := by
    rw [hsilent.events, hevent]
    rfl
  have hto : t.latestConversation = (s.book.imported u).latestConversation :=
    hsilent.between.latestConversation
  rw [advance, Reached, Store.book]
  exact Book.mk.injEq .. |>.mpr ⟨hpeople, hrestrictions, hevents, hto⟩

/-- **One step of an import.** -/
theorem reached_advance {u : Request} {p : Point} (h : Reached u s t (some p))
    (x : Answer) : Reached u s (advance t p x).1 (advance t p x).2.1 := by
  cases p with
  | reading v bs ss basis standing => exact reached_reading h
  | checking v standing rows refusals rest announced => exact reached_checking h
  | reviving plan rest => exact reached_reviving h
  | inserting plan rest => exact reached_inserting h
  | upserting plan rest => exact reached_upserting h
  | looking plan rest latest =>
    obtain ⟨hready, hsilent, hrestrictions, hpeople, hthrough⟩ := h
    cases rest with
    | nil => exact ⟨hready, hsilent, hrestrictions, hpeople, hthrough.all⟩
    | cons call rest =>
      refine ⟨hready, hsilent, hrestrictions, hpeople, ?_⟩
      rw [← hsilent.between.latestConversation] at hthrough ⊢
      exact hthrough.learn
  | announcing plan latest => exact reached_announcing h

/-! ### An import on its own -/

/-- The store after an import on its own, which dies where its answers end. -/
def run (u : Request) (s : Store) (xs : List Answer) : Store :=
  (solo system s (some (enter u)) xs).1

def Ends (u : Request) (s : Store) (xs : List Answer) : Prop :=
  soloPoint system s (some (enter u)) xs = none

/-- **How far an import has come on its own.** -/
theorem reached_run (u : Request) (s : Store) (xs : List Answer) :
    Reached u s (run u s xs) (soloPoint system s (some (enter u)) xs) :=
  solo_inv system (L := Reached u s) (fun _ _ x h => reached_advance h x) (reached_enter u s) xs

/-- **An import that ends makes of the book what it should.** -/
theorem book_run {u : Request} {xs : List Answer} (h : Ends u s xs) :
    (run u s xs).book = s.book.imported u := by
  have hreached := reached_run u s xs
  rw [h] at hreached
  exact hreached

/-- **An import that dies has announced nothing.** -/
theorem silent_run {u : Request} {xs : List Answer} (h : ¬Ends u s xs) :
    Silent u s (run u s xs) := by
  have hreached := reached_run u s xs
  obtain ⟨p, hp⟩ := Option.ne_none_iff_exists'.1 h
  rw [hp] at hreached
  cases p with
  | reading | checking =>
    rw [hreached.2.1]
    exact ⟨between_refl u s, rfl⟩
  | reviving | inserting | upserting | looking | announcing => exact hreached.2.1

/-- **Whether it dies or not**, it leaves everything as it was or as it should be. -/
theorem between_run (u : Request) (s : Store) (xs : List Answer) : Between u s (run u s xs) := by
  by_cases h : Ends u s xs
  · have hbook := book_run h
    refine ⟨fun phone => .inr (by rw [hbook]), fun phone => .inr (by rw [hbook]), ?_⟩
    exact congrArg Book.latestConversation hbook
  · exact (silent_run h).between

/-- The phase of an import, and how much of it is left. -/
def Point.rank : Point → ℕ ×ₗ ℕ
  | .reading _ bs ss _ _ => toLex (6, bs.length + ss.length)
  | .checking _ _ _ _ rest _ => toLex (5, rest.length)
  | .reviving _ rest => toLex (4, rest.length)
  | .inserting _ rest => toLex (3, rest.length)
  | .upserting _ rest => toLex (2, rest.length)
  | .looking _ rest _ => toLex (1, rest.length)
  | .announcing _ _ => toLex (0, 0)

theorem rank_advance (s : Store) (p : Point) (x : Answer) (q : Point)
    (h : (advance s p x).2.1 = some q) : q.rank < p.rank := by
  cases p with
  | reading u bs ss basis standing =>
    cases bs <;> cases ss <;> simp only [advance, afterReads] at h
    · obtain rfl := Option.some.inj h
      simp [Point.rank, Prod.Lex.toLex_lt_toLex]
    · obtain rfl := Option.some.inj h
      simp [Point.rank, Prod.Lex.toLex_lt_toLex]
    · obtain rfl := Option.some.inj h
      simp [Point.rank, Prod.Lex.toLex_lt_toLex]
    · split_ifs at h
      · obtain rfl := Option.some.inj h
        simp [Point.rank, Prod.Lex.toLex_lt_toLex]
      · obtain rfl := Option.some.inj h
        simp [Point.rank, Prod.Lex.toLex_lt_toLex]
  | announcing plan latest => simp [advance] at h
  | checking v standing rows refusals rest announced =>
    cases rest <;> obtain rfl := Option.some.inj h <;>
      simp [Point.rank, Prod.Lex.toLex_lt_toLex]
  | reviving plan rest =>
    cases rest <;> obtain rfl := Option.some.inj h <;>
      simp [Point.rank, Prod.Lex.toLex_lt_toLex]
  | inserting plan rest =>
    cases rest <;> obtain rfl := Option.some.inj h <;>
      simp [Point.rank, Prod.Lex.toLex_lt_toLex]
  | upserting plan rest =>
    cases rest <;> obtain rfl := Option.some.inj h <;>
      simp [Point.rank, Prod.Lex.toLex_lt_toLex]
  | looking plan rest latest =>
    cases rest <;> obtain rfl := Option.some.inj h <;>
      simp [Point.rank, Prod.Lex.toLex_lt_toLex]

/-- **Every import ends, and does as a whole what it should**: whatever it is answered it comes to
an end and leaves the book the file makes of it.  Where it dies, each contact and each opt-out is as
it was or as it should be, and nothing has been announced. -/
theorem import_alone (u : Request) (s : Store) :
    (∀ f : ℕ → Answer, ∃ n, Ends u s ((List.range n).map f)) ∧
      ∀ xs, (Ends u s xs → (run u s xs).book = s.book.imported u) ∧
        (¬Ends u s xs → Silent u s (run u s xs)) := by
  refine ⟨fun f => ?_, fun _ => ⟨book_run, silent_run⟩⟩
  exact solo_ends system wellFounded_lt Point.rank rank_advance f s (enter u)

end ContactImport
