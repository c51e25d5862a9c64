/-
**The import of contacts.**

A file of contacts comes through one of two doors, as CSV or as vCards.  Either one folds the file
into one entry for each number, asks the database which of the numbers have a contact with a basis
for consent and which are opted out, decides from the two answers what to write, and then writes:
the opt-outs the file asks for, the contacts, and a line in a thread for each opt-out that has not
been announced.  There is no transaction around it, and every call takes at most `IMPORT_CHUNK`
numbers, so that anything may happen between two calls and an import may die after any of them.

A contact of the store below is the one with the number as its primary one; a row of the file is
what the importer reads of it, with the number as `normalizeNanpPhone` gives it.

Main result:

* `ContactImport.contacts_upsert` — what a call makes of a contact, where its rows have the same
  keys.
-/

import Texturion.ContactStore
import Texturion.Interleaving

namespace ContactImport

open OptOuts

abbrev Phone := Contacts.Phone

/-! ### The file -/

/-- A data row of a CSV file: the cells are as `normalizeNanpPhone`, `joinContactName` and
`readContactFlag` read them, and `none` is a blank one. -/
structure CsvRow where
  line : ℕ
  phone : Option Phone
  name : Option String
  address : Option String
  notes : Option String
  optedOut : Bool
  deriving DecidableEq

/-- A card, opted out if one of its properties was declared to mean so. -/
structure Card where
  name : Option String
  tels : List (Option Phone)
  optedOut : Bool
  deriving DecidableEq

inductive File
  | csv (hasAddress hasNotes : Bool) (rows : List CsvRow)
  | vcard (cards : List Card)
  deriving DecidableEq

/-- A number of the file, with what the row or the card says of it; `address` and `notes` are `none`
where the file has no such column. -/
structure Entry where
  row : ℕ
  phone : Phone
  name : Option String
  address : Option (Option String)
  notes : Option (Option String)
  optedOut : Bool
  deriving DecidableEq

def CsvRow.mention (hasAddress hasNotes : Bool) (r : CsvRow) : Option Entry :=
  r.phone.map fun phone =>
    { row := r.line
      phone := phone
      name := r.name
      address := if hasAddress then some r.address else none
      notes := if hasNotes then some r.notes else none
      optedOut := r.optedOut }

def Card.mentions (row : ℕ) (c : Card) : List Entry :=
  (c.tels.filterMap id).eraseDups.map fun phone =>
    { row := row
      phone := phone
      name := c.name
      address := none
      notes := none
      optedOut := c.optedOut }

/-- The numbers of the file, in order, those with several rows as often. -/
def File.mentions : File → List Entry
  | .csv hasAddress hasNotes rows => rows.filterMap (CsvRow.mention hasAddress hasNotes)
  | .vcard cards => cards.zipIdx.flatMap fun card => card.1.mentions (card.2 + 1)

/-- `byPhone`, after one more number: the first row of a number is kept, and is opted out by any
later one. -/
def note (byPhone : List Entry) (m : Entry) : List Entry :=
  if byPhone.any (·.phone == m.phone) then
    byPhone.map fun seen =>
      if seen.phone == m.phone && m.optedOut then { seen with optedOut := true } else seen
  else byPhone ++ [m]

def File.entries (file : File) : List Entry := file.mentions.foldl note []

/-- What `byPhone` says after some of the numbers. -/
structure Notes (mentions byPhone : List Entry) : Prop where
  distinct : (byPhone.map (·.phone)).Nodup
  phone : ∀ phone, (∃ e ∈ byPhone, e.phone = phone) ↔ ∃ m ∈ mentions, m.phone = phone
  optedOut : ∀ e ∈ byPhone, e.optedOut = true ↔
    ∃ m ∈ mentions, m.phone = e.phone ∧ m.optedOut = true

variable {mentions byPhone : List Entry} {file : File} {α : Type*}

section

variable (h : Notes mentions byPhone)
include h

/-- One more row of a number that is there: nothing is lost but the row. -/
theorem notes_seen {m e : Entry} (he : e ∈ byPhone) (hm : e.phone = m.phone) :
    Notes (mentions ++ [m]) (byPhone.map fun seen =>
      if seen.phone == m.phone && m.optedOut then { seen with optedOut := true } else seen) := by
  have hphone : ∀ seen : Entry, (if seen.phone == m.phone && m.optedOut then
      { seen with optedOut := true } else seen).phone = seen.phone := by
    intro seen
    split_ifs <;> rfl
  refine ⟨?_, fun phone => ?_, fun seen' hseen' => ?_⟩
  · rw [List.map_map]
    have hsame : ((fun e : Entry => e.phone) ∘ fun seen : Entry =>
        if seen.phone == m.phone && m.optedOut then { seen with optedOut := true } else seen) =
        fun e => e.phone := funext hphone
    rw [hsame]
    exact h.distinct
  · simp only [List.mem_map, List.mem_append, List.mem_singleton]
    constructor
    · rintro ⟨-, ⟨seen, hseen, rfl⟩, rfl⟩
      obtain ⟨m', hm', hsame⟩ := (h.phone seen.phone).1 ⟨seen, hseen, rfl⟩
      exact ⟨m', .inl hm', hsame.trans (hphone seen).symm⟩
    · rintro ⟨m', hm' | rfl, rfl⟩
      · obtain ⟨seen, hseen, hsame⟩ := (h.phone m'.phone).2 ⟨m', hm', rfl⟩
        exact ⟨_, ⟨seen, hseen, rfl⟩, (hphone seen).trans hsame⟩
      · exact ⟨_, ⟨e, he, rfl⟩, (hphone e).trans hm⟩
  · obtain ⟨seen, hseen, rfl⟩ := List.mem_map.1 hseen'
    rw [hphone seen]
    by_cases hflag : (seen.phone == m.phone && m.optedOut) = true
    · obtain ⟨hsame, hopted⟩ := Bool.and_eq_true_iff.1 hflag
      rw [if_pos hflag]
      exact ⟨fun _ => ⟨m, by simp, (eq_of_beq hsame).symm, hopted⟩, fun _ => rfl⟩
    · rw [if_neg hflag, h.optedOut seen hseen]
      constructor
      · rintro ⟨m', hm', hrest⟩
        exact ⟨m', List.mem_append_left _ hm', hrest⟩
      · rintro ⟨m', hm', hsame, hopted⟩
        rcases List.mem_append.1 hm' with hm' | hm'
        · exact ⟨m', hm', hsame, hopted⟩
        · obtain rfl := List.mem_singleton.1 hm'
          exact absurd (by simp [hsame, hopted]) hflag

theorem notes_new {m : Entry}
    (hm : ∀ e ∈ byPhone, e.phone ≠ m.phone) : Notes (mentions ++ [m]) (byPhone ++ [m]) := by
  have hfirst : ∀ m' ∈ mentions, m'.phone ≠ m.phone := by
    intro m' hm' hsame
    obtain ⟨e, he, hphone⟩ := (h.phone m'.phone).2 ⟨m', hm', rfl⟩
    exact hm e he (hphone.trans hsame)
  refine ⟨?_, fun phone => ?_, fun e he => ?_⟩
  · rw [List.map_append, List.map_singleton]
    refine List.nodup_append.2 ⟨h.distinct, List.nodup_singleton _, ?_⟩
    intro phone hphone phone' hphone'
    obtain ⟨e, he, rfl⟩ := List.mem_map.1 hphone
    rw [List.mem_singleton.1 hphone']
    exact hm e he
  · have hold := h.phone phone
    constructor
    · rintro ⟨e, he, hphone⟩
      rcases List.mem_append.1 he with he | he
      · obtain ⟨m', hm', hsame⟩ := hold.1 ⟨e, he, hphone⟩
        exact ⟨m', List.mem_append_left _ hm', hsame⟩
      · exact ⟨e, List.mem_append_right _ he, hphone⟩
    · rintro ⟨m', hm', hphone⟩
      rcases List.mem_append.1 hm' with hm' | hm'
      · obtain ⟨e, he, hsame⟩ := hold.2 ⟨m', hm', hphone⟩
        exact ⟨e, List.mem_append_left _ he, hsame⟩
      · exact ⟨m', List.mem_append_right _ hm', hphone⟩
  · rcases List.mem_append.1 he with hseen | hnew
    · rw [h.optedOut e hseen]
      constructor
      · rintro ⟨m', hm', hrest⟩
        exact ⟨m', List.mem_append_left _ hm', hrest⟩
      · rintro ⟨m', hm', hsame, hopted⟩
        rcases List.mem_append.1 hm' with hm' | hm'
        · exact ⟨m', hm', hsame, hopted⟩
        · obtain rfl := List.mem_singleton.1 hm'
          exact absurd hsame.symm (hm e hseen)
    · obtain rfl := List.mem_singleton.1 hnew
      constructor
      · intro hopted
        exact ⟨e, by simp, rfl, hopted⟩
      · rintro ⟨m', hm', hsame, hopted⟩
        rcases List.mem_append.1 hm' with hm' | hm'
        · exact absurd hsame (hfirst m' hm')
        · obtain rfl := List.mem_singleton.1 hm'
          exact hopted

theorem notes_note (m : Entry) : Notes (mentions ++ [m]) (note byPhone m) := by
  unfold note
  split_ifs with hany
  · obtain ⟨e, he, hphone⟩ := List.any_eq_true.1 hany
    exact notes_seen h he (eq_of_beq hphone)
  · refine notes_new h fun e he hphone => hany ?_
    exact List.any_eq_true.2 ⟨e, he, beq_iff_eq.2 hphone⟩

end

/-- **What the fold of a file says of its numbers.** -/
theorem notes_entries (file : File) : Notes file.mentions file.entries := by
  unfold File.entries
  induction file.mentions using List.reverseRecOn with
  | nil => exact ⟨List.nodup_nil, by simp, by simp⟩
  | append_singleton mentions m ih =>
    rw [List.foldl_append]
    exact notes_note ih m

def File.phones (file : File) : List Phone := file.entries.map (·.phone)

def File.optedOutPhones (file : File) : List Phone :=
  (file.entries.filter (·.optedOut)).map (·.phone)

/-- Some row or card of the file opts the number out. -/
def File.Flagged (file : File) (phone : Phone) : Prop :=
  ∃ m ∈ file.mentions, m.phone = phone ∧ m.optedOut = true

theorem optedOut_entries {e : Entry} (he : e ∈ file.entries) :
    e.optedOut = true ↔ file.Flagged e.phone :=
  (notes_entries file).optedOut e he

theorem mem_optedOutPhones {phone : Phone} : phone ∈ file.optedOutPhones ↔ file.Flagged phone := by
  constructor
  · intro h
    obtain ⟨e, he, rfl⟩ := List.mem_map.1 h
    exact (optedOut_entries (List.mem_filter.1 he).1).1 (List.mem_filter.1 he).2
  · rintro ⟨m, hm, rfl, hopted⟩
    obtain ⟨e, he, hphone⟩ := ((notes_entries file).phone m.phone).2 ⟨m, hm, rfl⟩
    have heopted : e.optedOut = true :=
      ((notes_entries file).optedOut e he).2 ⟨m, hm, hphone.symm, hopted⟩
    exact List.mem_map.2 ⟨e, List.mem_filter.2 ⟨he, heopted⟩, hphone⟩

theorem nodup_optedOutPhones (file : File) : file.optedOutPhones.Nodup :=
  (notes_entries file).distinct.sublist (List.filter_sublist.map _)

/-! ### The store -/

/-- The three consent columns of a contact. -/
structure Basis where
  source : Option Contacts.ConsentSource
  consentAt : Option ℤ
  attestedBy : Option Uuid
  deriving DecidableEq

/-- The columns of a contact that has no basis. -/
def Basis.empty : Basis where
  source := none
  consentAt := none
  attestedBy := none

/-- `consent_at !== null || consent_source !== null`. -/
def Basis.given (b : Basis) : Bool := b.consentAt.isSome || b.source.isSome

/-- A row of `contacts`. -/
structure Contact where
  name : Option String
  address : Option String
  notes : Option String
  consent : Basis
  createdBy : Option Uuid
  deletedAt : Option ℤ
  deriving DecidableEq

/-- The columns of a new contact that nothing is said of. -/
def Contact.fresh : Contact where
  name := none
  address := none
  notes := none
  consent := .empty
  createdBy := none
  deletedAt := none

/-- A row of `conversation_events` of type `opted_out`; the one of an inbound STOP has no number. -/
structure OptedOutEvent where
  phone : Option Phone
  source : Option Source
  actorUserId : Option Uuid
  conversationId : Option Uuid
  deriving DecidableEq

/-- The tables, by number; `latestConversation` is the thread with the last message of its
contact. -/
structure Store where
  contacts : Phone → Option Contact
  optOuts : Phone → Option OptOut
  events : List OptedOutEvent
  latestConversation : Phone → Option Uuid

namespace Store

/-- A workspace that nobody is in. -/
def empty : Store where
  contacts := fun _ => none
  optOuts := fun _ => none
  events := []
  latestConversation := fun _ => none

variable (s : Store)

def consent (phone : Phone) : Basis := ((s.contacts phone).map (·.consent)).getD .empty

/-- The workspace has been told that the number is opted out. -/
def isAnnounced (phone : Phone) : Bool := s.events.any (·.phone == some phone)

/-- A statement on the rows of the numbers. -/
def writeOptOuts (w : Statement) (now : ℤ) (ids : Phone → Uuid) (phones : List Phone) : Store :=
  { s with
    optOuts := fun phone =>
      if phone ∈ phones then w.apply now (ids phone) (s.optOuts phone) else s.optOuts phone }

end Store

/-! ### The decision -/

structure ImportConsent where
  columns : Option Basis
  refused : Bool
  deriving DecidableEq

/-- `existing` is `none` where there is no such contact. -/
def importConsent (existing : Option Basis) (standing inFile : Bool) (importedAt : ℤ)
    (userId : Uuid) : ImportConsent :=
  if standing || inFile then { columns := none, refused := standing && !inFile }
  else if existing.any Basis.given then { columns := none, refused := false }
  else
    { columns := some
        { source := some .attested
          consentAt := some importedAt
          attestedBy := some userId }
      refused := false }

/-- A row of the upsert; the columns that are `none` are not among its keys. -/
structure Row where
  phone : Phone
  createdBy : Uuid
  consent : Option Basis
  name : Option String
  address : Option (Option String)
  notes : Option (Option String)
  deriving DecidableEq

/-- The keys that a row may lack. -/
structure Columns where
  consent : Bool
  name : Bool
  address : Bool
  notes : Bool
  deriving DecidableEq

def Row.columns (row : Row) : Columns where
  consent := row.consent.isSome
  name := row.name.isSome
  address := row.address.isSome
  notes := row.notes.isSome

def Entry.decision (basis : Phone → Option Basis) (standing : Phone → Bool) (importedAt : ℤ)
    (userId : Uuid) (e : Entry) : ImportConsent :=
  importConsent (basis e.phone) (standing e.phone) e.optedOut importedAt userId

def Entry.upsertRow (basis : Phone → Option Basis) (standing : Phone → Bool) (importedAt : ℤ)
    (userId : Uuid) (e : Entry) : Row where
  phone := e.phone
  createdBy := userId
  consent := (e.decision basis standing importedAt userId).columns
  name := e.name
  address := e.address
  notes := e.notes

theorem importConsent_columns {existing : Option Basis} {standing inFile : Bool} {importedAt : ℤ}
    {userId : Uuid} {b : Basis}
    (h : (importConsent existing standing inFile importedAt userId).columns = some b) :
    standing = false ∧ inFile = false ∧ existing.any Basis.given = false := by
  unfold importConsent at h
  by_cases hout : (standing || inFile) = true
  · rw [if_pos hout] at h
    cases h
  · rw [if_neg hout] at h
    by_cases hgiven : existing.any Basis.given = true
    · rw [if_pos hgiven] at h
      cases h
    · simp only [Bool.or_eq_true, not_or, Bool.not_eq_true] at hout
      exact ⟨hout.1, hout.2, by simpa using hgiven⟩

/-- **The file's own opt-outs are believed**: a number that any row of the file opts out gets no
basis from it. -/
theorem consent_of_flagged {basis : Phone → Option Basis} {standing : Phone → Bool} {importedAt : ℤ}
    {userId : Uuid} {row : Row}
    (hrow : row ∈ file.entries.map (Entry.upsertRow basis standing importedAt userId))
    (hflag : file.Flagged row.phone) : row.consent = none := by
  obtain ⟨e, he, rfl⟩ := List.mem_map.1 hrow
  by_contra hsome
  obtain ⟨b, hb⟩ := Option.ne_none_iff_exists'.1 hsome
  have hopted : e.optedOut = true := (optedOut_entries he).2 hflag
  rw [(importConsent_columns hb).2.1] at hopted
  cases hopted

/-- A line of the response: the number was opted out, and the file did not know. -/
structure Refusal where
  row : ℕ
  phone : Phone
  deriving DecidableEq

def Entry.refusal (basis : Phone → Option Basis) (standing : Phone → Bool) (importedAt : ℤ)
    (userId : Uuid) (e : Entry) : Option Refusal :=
  if (e.decision basis standing importedAt userId).refused then
    some { row := e.row, phone := e.phone }
  else none

/-! ### The calls -/

def IMPORT_CHUNK : ℕ := 200

/-- At most `fuel` slices of `IMPORT_CHUNK`. -/
def slices {α : Type*} : ℕ → List α → List (List α)
  | 0, _ => []
  | fuel + 1, xs =>
    if xs.isEmpty then [] else xs.take IMPORT_CHUNK :: slices fuel (xs.drop IMPORT_CHUNK)

def chunks {α : Type*} (xs : List α) : List (List α) := slices xs.length xs

variable {rows : List Row}

theorem flatten_slices (fuel : ℕ) (xs : List α) (h : xs.length ≤ fuel) :
    (slices fuel xs).flatten = xs := by
  induction fuel generalizing xs with
  | zero =>
    obtain rfl := List.length_eq_zero_iff.1 (Nat.le_zero.1 h)
    rfl
  | succ fuel ih =>
    rw [slices]
    cases xs with
    | nil => rfl
    | cons x xs =>
      have hdrop : ((x :: xs).drop IMPORT_CHUNK).length ≤ fuel := by
        simp only [List.length_drop, List.length_cons, IMPORT_CHUNK] at h ⊢
        omega
      simp only [List.isEmpty_cons, Bool.false_eq_true, if_false, List.flatten_cons, ih _ hdrop,
        List.take_append_drop]

@[simp] theorem flatten_chunks (xs : List α) : (chunks xs).flatten = xs :=
  flatten_slices xs.length xs le_rfl

theorem mem_of_mem_chunks {xs chunk : List α} {x : α} (hchunk : chunk ∈ chunks xs)
    (hx : x ∈ chunk) : x ∈ xs := by
  rw [← flatten_chunks xs]
  exact List.mem_flatten.2 ⟨chunk, hchunk, hx⟩

/-- The groups come in the order of their first rows. -/
def groupByKeySet (rows : List Row) : List (List Row) :=
  (rows.map Row.columns).eraseDups.map fun keys => rows.filter (·.columns == keys)

def Uniform (rows : List Row) : Prop := ∃ keys, ∀ row ∈ rows, row.columns = keys

theorem calls_upsert {rows call : List Row} (hcall : call ∈ (groupByKeySet rows).flatMap chunks) :
    Uniform call ∧ ∀ row ∈ call, row ∈ rows := by
  obtain ⟨group, hgroup, hcall⟩ := List.mem_flatMap.1 hcall
  obtain ⟨keys, -, rfl⟩ := List.mem_map.1 hgroup
  refine ⟨⟨keys, fun row hrow => ?_⟩, fun row hrow => ?_⟩
  · exact eq_of_beq (List.mem_filter.1 (mem_of_mem_chunks hcall hrow)).2
  · exact (List.mem_filter.1 (mem_of_mem_chunks hcall hrow)).1

theorem mem_calls_upsert {row : Row} :
    row ∈ ((groupByKeySet rows).flatMap chunks).flatten ↔ row ∈ rows := by
  constructor
  · intro hrow
    obtain ⟨call, hcall, hmem⟩ := List.mem_flatten.1 hrow
    exact (calls_upsert hcall).2 row hmem
  · intro hrow
    have hkeys : row.columns ∈ (rows.map Row.columns).eraseDups :=
      List.mem_eraseDups.2 (List.mem_map_of_mem hrow)
    have hgroup : row ∈ (chunks (rows.filter (·.columns == row.columns))).flatten := by
      rw [flatten_chunks]
      exact List.mem_filter.2 ⟨hrow, beq_self_eq_true _⟩
    obtain ⟨call, hcall, hmem⟩ := List.mem_flatten.1 hgroup
    refine List.mem_flatten.2 ⟨call, List.mem_flatMap.2 ⟨_, ?_, hcall⟩, hmem⟩
    exact List.mem_map_of_mem hkeys

/-- What a row makes of the contact, with the columns the call names; a row that lacks one of them
writes `null`. -/
def Row.onto (keys : Columns) (row : Row) (old : Option Contact) : Contact :=
  let c := old.getD .fresh
  { name := if keys.name then row.name else c.name
    address := if keys.address then row.address.getD none else c.address
    notes := if keys.notes then row.notes.getD none else c.notes
    consent := if keys.consent then row.consent.getD .empty else c.consent
    createdBy := some row.createdBy
    deletedAt := none }

def Store.upsert (rows : List Row) (s : Store) : Store :=
  match rows.head? with
  | none => s
  | some first =>
    { s with
      contacts := fun phone =>
        match rows.find? (·.phone == phone) with
        | none => s.contacts phone
        | some row => some (row.onto first.columns (s.contacts phone)) }

/-- **Where the rows of a call have the same keys, each of them writes its own columns**, and no
contact loses one. -/
theorem contacts_upsert (h : Uniform rows) (s : Store) (phone : Phone) :
    (s.upsert rows).contacts phone =
      match rows.find? (·.phone == phone) with
      | none => s.contacts phone
      | some row => some (row.onto row.columns (s.contacts phone)) := by
  obtain ⟨keys, hkeys⟩ := h
  cases rows with
  | nil => rfl
  | cons first rows =>
    simp only [Store.upsert, List.head?_cons]
    cases hfind : (first :: rows).find? (·.phone == phone) with
    | none => rfl
    | some row =>
      have hrow : row.columns = first.columns :=
        (hkeys row (List.mem_of_find?_eq_some hfind)).trans (hkeys first (by simp)).symm
      simp only [hrow]

@[simp] theorem optOuts_upsert (rows : List Row) (s : Store) :
    (s.upsert rows).optOuts = s.optOuts := by
  unfold Store.upsert
  cases rows.head? <;> rfl

@[simp] theorem events_upsert (rows : List Row) (s : Store) :
    (s.upsert rows).events = s.events := by
  unfold Store.upsert
  cases rows.head? <;> rfl

@[simp] theorem latestConversation_upsert (rows : List Row) (s : Store) :
    (s.upsert rows).latestConversation = s.latestConversation := by
  unfold Store.upsert
  cases rows.head? <;> rfl

theorem consent_onto (row : Row) (old : Option Contact) :
    (row.onto row.columns old).consent = row.consent.getD (old.getD .fresh).consent := by
  cases hconsent : row.consent <;> simp [Row.onto, Row.columns, hconsent]

theorem name_onto (row : Row) (old : Option Contact) :
    (row.onto row.columns old).name = row.name.or (old.getD .fresh).name := by
  cases hname : row.name <;> simp [Row.onto, Row.columns, hname]

theorem address_onto (row : Row) (old : Option Contact) :
    (row.onto row.columns old).address = row.address.getD (old.getD .fresh).address := by
  cases haddress : row.address <;> simp [Row.onto, Row.columns, haddress]

theorem notes_onto (row : Row) (old : Option Contact) :
    (row.onto row.columns old).notes = row.notes.getD (old.getD .fresh).notes := by
  cases hnotes : row.notes <;> simp [Row.onto, Row.columns, hnotes]

/-- The basis that a call writes for the contact with the number. -/
def basisFor (rows : List Row) (phone : Phone) : Option Basis :=
  (rows.find? (·.phone == phone)).bind (·.consent)

theorem consent_upsert (h : Uniform rows) (s : Store) (phone : Phone) :
    (s.upsert rows).consent phone = (basisFor rows phone).getD (s.consent phone) := by
  unfold Store.consent basisFor
  rw [contacts_upsert h]
  cases rows.find? (·.phone == phone) with
  | none => rfl
  | some row =>
    simp only [Option.map_some, Option.getD_some, Option.bind_some, consent_onto]
    cases s.contacts phone <;> rfl

/-! ### The import as a handler -/

structure Request where
  file : File
  userId : Uuid

/-- What an import goes on with once it has decided. -/
structure Plan where
  request : Request
  rows : List Row
  refusals : List Refusal
  newlyOptedOut : List Phone

/-- Where an import is, with the calls that are left of a loop; one that has none left goes on
without a call. -/
inductive Point
  /-- The two reads run at the same time. -/
  | reading (u : Request) (basisRest standingRest : List (List Phone))
      (basis : Phone → Option Basis) (standing : Phone → Bool)
  /-- `announcedOptOuts`. -/
  | checking (u : Request) (standing : Phone → Bool) (rows : List Row) (refusals : List Refusal)
      (rest : List (List Phone)) (announced : Phone → Bool)
  /-- The two loops of `writeImportOptOuts`. -/
  | reviving (plan : Plan) (rest : List (List Phone))
  | inserting (plan : Plan) (rest : List (List Phone))
  | upserting (plan : Plan) (rest : List (List Row))
  /-- `announceImportOptOuts`. -/
  | looking (plan : Plan) (rest : List (List Phone)) (latest : Phone → Option Uuid)
  | announcing (plan : Plan) (latest : Phone → Option Uuid)

/-- What a step finds outside the store: the clock, the ids that an insert would give, and which of
the two reads is the next to be answered. -/
structure Answer where
  now : ℤ
  ids : Phone → Uuid
  basisFirst : Bool

def Answer.clock (now : ℤ) : Answer where
  now := now
  ids := fun _ => 7
  basisFirst := true

/-- An answer of the database, for the numbers of a call. -/
def learn {α : Type*} (phones : List Phone) (answer known : Phone → α) : Phone → α :=
  fun phone => if phone ∈ phones then answer phone else known phone

def enter (u : Request) : Point :=
  .reading u (chunks u.file.phones) (chunks u.file.phones) (fun _ => none) fun _ => false

/-- The decision, once for every entry, from both reads. -/
def afterReads (u : Request) (basis : Phone → Option Basis) (standing : Phone → Bool)
    (importedAt : ℤ) : Point :=
  .checking u standing
    (u.file.entries.map (Entry.upsertRow basis standing importedAt u.userId))
    (u.file.entries.filterMap (Entry.refusal basis standing importedAt u.userId))
    (chunks (u.file.optedOutPhones.filter standing)) fun _ => false

def File.newlyOptedOut (file : File) (standing announced : Phone → Bool) : List Phone :=
  file.optedOutPhones.filter fun phone => !standing phone || !announced phone

def Plan.event (plan : Plan) (latest : Phone → Option Uuid) (phone : Phone) : OptedOutEvent where
  phone := some phone
  source := some .imported
  actorUserId := some plan.request.userId
  conversationId := latest phone

/-- One step of an import. -/
def advance (s : Store) (p : Point) (x : Answer) : Store × Option Point × List Refusal :=
  match p with
  | .reading u [] [] basis standing => (s, some (afterReads u basis standing x.now), [])
  | .reading u (phones :: rest) [] basis standing =>
    (s, some (.reading u rest []
      (learn phones (fun phone => (s.contacts phone).map (·.consent)) basis) standing), [])
  | .reading u [] (phones :: rest) basis standing =>
    (s, some (.reading u [] rest basis
      (learn phones (fun phone => isActive (s.optOuts phone)) standing)), [])
  | .reading u (phones :: rest) (phones' :: rest') basis standing =>
    if x.basisFirst then
      (s, some (.reading u rest (phones' :: rest')
        (learn phones (fun phone => (s.contacts phone).map (·.consent)) basis) standing), [])
    else
      (s, some (.reading u (phones :: rest) rest' basis
        (learn phones' (fun phone => isActive (s.optOuts phone)) standing)), [])
  | .checking u standing rows refusals [] announced =>
    (s, some (.reviving
      { request := u
        rows := rows
        refusals := refusals
        newlyOptedOut := u.file.newlyOptedOut standing announced }
      (chunks u.file.optedOutPhones)), [])
  | .checking u standing rows refusals (phones :: rest) announced =>
    (s, some (.checking u standing rows refusals rest
      (learn phones s.isAnnounced announced)), [])
  | .reviving plan [] =>
    (s, some (.inserting plan (chunks plan.request.file.optedOutPhones)), [])
  | .reviving plan (phones :: rest) =>
    (s.writeOptOuts (.revive .imported (some plan.request.userId)) x.now x.ids phones,
      some (.reviving plan rest), [])
  | .inserting plan [] =>
    (s, some (.upserting plan ((groupByKeySet plan.rows).flatMap chunks)), [])
  | .inserting plan (phones :: rest) =>
    (s.writeOptOuts (.insert .imported (some plan.request.userId)) x.now x.ids phones,
      some (.inserting plan rest), [])
  | .upserting plan [] =>
    (s, some (.looking plan (chunks plan.newlyOptedOut) fun _ => none), [])
  | .upserting plan (rows :: rest) => (s.upsert rows, some (.upserting plan rest), [])
  | .looking plan [] latest => (s, some (.announcing plan latest), [])
  | .looking plan (phones :: rest) latest =>
    (s, some (.looking plan rest (learn phones s.latestConversation latest)), [])
  | .announcing plan latest =>
    ({ s with events := s.events ++ plan.newlyOptedOut.map (plan.event latest) }, none,
      plan.refusals)

/-! ### What others do -/

/-- A text stamps its contact, which is back and has consented once. -/
def heard (now : ℤ) (old : Option Contact) : Contact :=
  let c := old.getD .fresh
  { c with
    consent :=
      { c.consent with
        source := c.consent.source.or (some .inboundSms)
        consentAt := c.consent.consentAt.or (some now) }
    deletedAt := none }

inductive Outside
  /-- An inbound text, of the contact with the number. -/
  | text (phone : Phone) (now : ℤ)
  /-- A statement on the opt-out of a number: of a STOP, a START, the carrier or a member. -/
  | optOut (phone : Phone) (w : Statement) (now : ℤ) (id : Uuid)

def outside (s : Store) : Outside → Store × List Refusal
  | .text phone now =>
    ({ s with
        contacts := Function.update s.contacts phone (some (heard now (s.contacts phone))) }, [])
  | .optOut phone w now id =>
    ({ s with
        optOuts := Function.update s.optOuts phone (w.apply now id (s.optOuts phone)) }, [])

/-- Imports, and what others do in between. -/
def system : Interleaving.System Store Request Point Answer Outside Refusal where
  enter := enter
  advance := advance
  world := outside

end ContactImport
