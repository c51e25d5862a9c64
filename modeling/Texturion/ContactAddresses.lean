/-
**The primary address of a contact.**

A contact that has addresses has one that the van goes to by default.  A partial unique index keeps
it from having two; that it has one at all is left to the routes.  Adding an address, or making one
the primary one, first takes the flag off the others and then writes its own row, in a second
statement.  Where that write is refused, or finds no row, the flag is gone and stays gone.

Main result:

* `ContactAddresses.staysGood_iff` — **exactly the runs in which there is one primary address.**
-/

import Texturion.SqlTable
import Texturion.JsText

namespace ContactAddresses

open JsText SqlTable

/-! ### The table and the requests -/

/-- A row of `contact_addresses`. -/
structure Address where
  id : ℕ
  companyId : ℕ
  contactId : ℕ
  label : Option Text
  address : Text
  isPrimary : Bool
  createdAt : ℤ
  deriving DecidableEq

/-- A body; a label may be absent, null or a text. -/
structure AddressBody where
  label : Option (Option Text) := none
  address : Option Text := none
  isPrimary : Option Bool := none
  deriving DecidableEq

/-- `z.string().trim().min(1).max(max)`. -/
def readText (max : ℕ) (text : Text) : Option Text :=
  if trim text ≠ [] ∧ (trim text).length ≤ max then some (trim text) else none

/-- The label of `addressSchema`. -/
def readLabel : Option (Option Text) → Option (Option (Option Text))
  | none => some none
  | some none => some (some none)
  | some (some text) => (readText 80 text).map fun text => some (some text)

/-- `addressSchema`, or its `partial()`. -/
def readBody (isPartial : Bool) (raw : Option AddressBody) : Option AddressBody :=
  match raw with
  | none => none
  | some body =>
    match readLabel body.label with
    | none => none
    | some label =>
      match body.address with
      | none => if isPartial then some { body with label := label } else none
      | some text =>
        (readText 500 text).map fun text => { body with label := label, address := some text }

/-- A request on the addresses of a contact.  An id is missing where the path has no UUID, a body
where it is not of the schema's shape. -/
inductive Request
  | create (contactId : Option ℕ) (body : Option AddressBody)
  | patch (contactId addressId : Option ℕ) (body : Option AddressBody)
  | remove (contactId addressId : Option ℕ)
  deriving DecidableEq

/-- A request as it is served: for a company, with the id and the time its row would get. -/
structure Call where
  companyId : ℕ
  request : Request
  newId : ℕ
  now : ℤ
  deriving DecidableEq

inductive ErrorCode
  | notFound
  | validationFailed
  | internal
  deriving DecidableEq

inductive Answer
  | created
  | ok
  | noContent
  | error (code : ErrorCode)
  deriving DecidableEq

def Answer.isError : Answer → Bool
  | error _ => true
  | _ => false

def ADDRESS_CAP : ℕ := 50

/-! ### Statements -/

def Address.isOf (companyId contactId : ℕ) (a : Address) : Bool :=
  a.companyId == companyId && a.contactId == contactId

/-- Take the flag off the primary addresses of a contact, but for one id. -/
def demoteOtherPrimaries (companyId contactId : ℕ) (exceptId : Option ℕ) (db : List Address) :
    List Address :=
  update (fun a => a.isOf companyId contactId && a.isPrimary && exceptId != some a.id)
    (fun a => { a with isPrimary := false }) db

/-- `contact_addresses_one_primary_uq`: another row of the contact has the flag. -/
def taken (contactId id : ℕ) (db : List Address) : Bool :=
  db.any fun a => a.contactId == contactId && a.isPrimary && a.id != id

section Routes

variable (companyOf : ℕ → Option ℕ) (stores : Text → Bool)

def storesBody (body : AddressBody) : Bool :=
  (body.label.getD none).all stores && body.address.all stores

/-- `insert into contact_addresses`: refused for a text that cannot be stored, and by an index. -/
def insertAddress (a : Address) (db : List Address) : Option (List Address) :=
  if a.label.all stores && stores a.address && !(db.any fun b => b.id == a.id) &&
      !(a.isPrimary && taken a.contactId a.id db) then
    some (db ++ [a])
  else none

def patched (body : AddressBody) (a : Address) : Address :=
  { a with
    label := body.label.getD a.label
    address := body.address.getD a.address
    isPrimary := if body.isPrimary = some true then true else a.isPrimary }

/-- The row of an id, if it is one of the contact's. -/
def Address.isAt (companyId contactId addressId : ℕ) (a : Address) : Bool :=
  a.isOf companyId contactId && a.id == addressId

/-- `update contact_addresses … where id = …`: refused like an insert. -/
def updateAddress (companyId contactId addressId : ℕ) (body : AddressBody) (db : List Address) :
    Option (List Address) :=
  if storesBody stores body && !(db.any (Address.isAt companyId contactId addressId) &&
      body.isPrimary == some true && taken contactId addressId db) then
    some (update (Address.isAt companyId contactId addressId) (patched body) db)
  else none

/-! ### Routes -/

/-- `POST /contacts/:id/addresses`. -/
def create (companyId contactId newId : ℕ) (now : ℤ) (body : AddressBody) (db : List Address) :
    Answer × List Address :=
  if companyOf contactId ≠ some companyId then (.error .notFound, db)
  else
    let existing := db.filter (Address.isOf companyId contactId)
    if ADDRESS_CAP ≤ existing.length then (.error .validationFailed, db)
    else
      let wantsPrimary := body.isPrimary == some true || existing.length == 0
      let db := if wantsPrimary then demoteOtherPrimaries companyId contactId none db else db
      match insertAddress stores
          { id := newId, companyId := companyId, contactId := contactId,
            label := body.label.getD none, address := body.address.getD [],
            isPrimary := wantsPrimary, createdAt := now } db with
      | none => (.error .internal, db)
      | some db => (.created, db)

/-- `PATCH /contacts/:id/addresses/:addressId`. -/
def patch (companyId contactId addressId : ℕ) (body : AddressBody) (db : List Address) :
    Answer × List Address :=
  let db := if body.isPrimary = some true then
    demoteOtherPrimaries companyId contactId (some addressId) db else db
  match updateAddress stores companyId contactId addressId body db with
  | none => (.error .internal, db)
  | some updated =>
    if db.any (Address.isAt companyId contactId addressId) then (.ok, updated)
    else (.error .notFound, updated)

/-- `DELETE /contacts/:id/addresses/:addressId`. -/
def remove (companyId contactId addressId : ℕ) (db : List Address) : Answer × List Address :=
  let removed := db.filter (Address.isAt companyId contactId addressId)
  let db := db.filter fun a => !a.isAt companyId contactId addressId
  match removed with
  | [] => (.error .notFound, db)
  | a :: _ =>
    if a.isPrimary then
      match (firstBy Address.createdAt 1 (db.filter (Address.isOf companyId contactId))).head? with
      | none => (.noContent, db)
      | some survivor =>
        if taken survivor.contactId survivor.id db then (.error .internal, db)
        else
          (.noContent, update (fun a => a.companyId == companyId && a.id == survivor.id)
            (fun a => { a with isPrimary := true }) db)
    else (.noContent, db)

def serve (call : Call) (db : List Address) : Answer × List Address :=
  match call.request with
  | .create (some contactId) raw =>
    match readBody false raw with
    | none => (.error .validationFailed, db)
    | some body => create companyOf stores call.companyId contactId call.newId call.now body db
  | .patch (some contactId) (some addressId) raw =>
    match readBody true raw with
    | none => (.error .validationFailed, db)
    | some body => patch stores call.companyId contactId addressId body db
  | .remove (some contactId) (some addressId) => remove call.companyId contactId addressId db
  | _ => (.error .notFound, db)

end Routes

/-! ### One primary address -/

/-- How many primary addresses a contact has. -/
def primaries (db : List Address) (contactId : ℕ) : ℕ :=
  db.countP fun a => a.contactId == contactId && a.isPrimary

def OnePrimary (db : List Address) : Prop :=
  ∀ contactId, (∃ a ∈ db, a.contactId = contactId) → primaries db contactId = 1

/-- Ids are unique, and a row is in the company of its contact. -/
structure Keyed (companyOf : ℕ → Option ℕ) (db : List Address) : Prop where
  ids : (db.map Address.id).Nodup
  home : ∀ a ∈ db, companyOf a.contactId = some a.companyId

/-- A table in which every contact with addresses has one primary address. -/
structure Good (companyOf : ℕ → Option ℕ) (db : List Address) : Prop
    extends Keyed companyOf db where
  one : OnePrimary db

/-- A write that leaves the ids of a row alone. -/
def KeepsIds (f : Address → Address) : Prop :=
  ∀ a, (f a).id = a.id ∧ (f a).companyId = a.companyId ∧ (f a).contactId = a.contactId

section Tables

variable {companyOf : ℕ → Option ℕ} {db : List Address} {companyId contactId addressId : ℕ}

variable {a : Address} {f : Address → Address}

theorem isOf_iff :
    a.isOf companyId contactId = true ↔ a.companyId = companyId ∧ a.contactId = contactId := by
  simp [Address.isOf]

theorem isAt_iff : a.isAt companyId contactId addressId = true ↔
    (a.companyId = companyId ∧ a.contactId = contactId) ∧ a.id = addressId := by
  simp [Address.isAt, isOf_iff]

section

variable (h : Keyed companyOf db)
include h

theorem Keyed.isOf_eq (hcompany : companyOf contactId = some companyId)
    (ha : a ∈ db) : a.isOf companyId contactId = (a.contactId == contactId) := by
  rw [Bool.eq_iff_iff, isOf_iff, beq_iff_eq]
  refine ⟨fun hof => hof.2, fun hcontact => ⟨?_, hcontact⟩⟩
  have hhome := h.home a ha
  rw [hcontact, hcompany] at hhome
  exact (Option.some.inj hhome).symm

theorem Keyed.company_of_isOf (ha : a ∈ db)
    (hof : a.isOf companyId contactId = true) : companyOf contactId = some companyId := by
  obtain ⟨hcompany, hcontact⟩ := isOf_iff.1 hof
  rw [← hcompany, ← hcontact]
  exact h.home a ha

theorem Keyed.update (hf : KeepsIds f)
    (p : Address → Bool) : Keyed companyOf (SqlTable.update p f db) := by
  constructor
  · rw [map_update fun a => (hf a).1]
    exact h.ids
  · intro a ha
    rcases mem_update.1 ha with ⟨ha, -⟩ | ⟨b, hb, -, rfl⟩
    · exact h.home a ha
    · rw [(hf b).2.1, (hf b).2.2]
      exact h.home b hb

theorem Keyed.filter (p : Address → Bool) : Keyed companyOf (db.filter p) :=
  ⟨h.ids.sublist ((List.filter_sublist (p := p)).map Address.id),
    fun a ha => h.home a (List.mem_of_mem_filter ha)⟩

end

theorem update_of_none {p : Address → Bool} (h : ∀ a ∈ db, p a = false) (f : Address → Address) :
    SqlTable.update p f db = db := by
  refine (List.map_congr_left fun a ha => ?_).trans (List.map_id _)
  rw [h a ha]
  rfl

theorem exists_contact_update (hf : KeepsIds f) (p : Address → Bool)
    (contactId : ℕ) : (∃ a ∈ SqlTable.update p f db, a.contactId = contactId) ↔
      ∃ a ∈ db, a.contactId = contactId := by
  have hmap := map_update (fun a => (hf a).2.2) (p := p) db
  simp only [← List.mem_map, hmap]

theorem primaries_update (hf : KeepsIds f) (p : Address → Bool)
    (contactId : ℕ) : primaries (SqlTable.update p f db) contactId =
      db.countP fun a => a.contactId == contactId &&
        (if p a then (f a).isPrimary else a.isPrimary) := by
  rw [primaries, countP_update]
  refine List.countP_congr fun a _ => ?_
  split_ifs <;> simp [(hf a).2.2]

theorem countP_id (hids : (db.map Address.id).Nodup) (ha : a ∈ db) {q : Address → Bool}
    (hq : ∀ b ∈ db, q b = true ↔ b.id = a.id) : db.countP q = 1 := by
  have hcount : (db.map Address.id).count a.id = 1 :=
    List.count_eq_one_of_mem hids (List.mem_map_of_mem ha)
  rw [List.count, List.countP_map] at hcount
  rw [← hcount]
  refine List.countP_congr fun b hb => ?_
  rw [hq b hb]
  simp

/-! ### Taking the flag off -/

theorem keepsIds_demote : KeepsIds fun a => { a with isPrimary := false } :=
  fun _ => ⟨rfl, rfl, rfl⟩

theorem demote_of_none {exceptId : Option ℕ}
    (h : ∀ a ∈ db, a.isOf companyId contactId = true → a.isPrimary = true → exceptId = some a.id) :
    demoteOtherPrimaries companyId contactId exceptId db = db := by
  refine update_of_none (fun a ha => ?_) _
  by_contra hp
  simp only [Bool.not_eq_false, Bool.and_eq_true, bne_iff_ne] at hp
  exact hp.2 (h a ha hp.1.1 hp.1.2)

theorem primaries_demote_of_ne {exceptId : Option ℕ} {other : ℕ} (hne : other ≠ contactId) :
    primaries (demoteOtherPrimaries companyId contactId exceptId db) other =
      primaries db other := by
  rw [demoteOtherPrimaries, primaries_update keepsIds_demote]
  refine List.countP_congr fun a _ => ?_
  by_cases hother : a.contactId = other
  · have hof : a.isOf companyId contactId = false := by
      rw [Bool.eq_false_iff, Ne, isOf_iff]
      exact fun hc => hne (hother.symm.trans hc.2)
    simp [hof]
  · simp [hother]

theorem primaries_demote_self (h : Keyed companyOf db)
    (hcompany : companyOf contactId = some companyId) (exceptId : Option ℕ) :
    primaries (demoteOtherPrimaries companyId contactId exceptId db) contactId =
      db.countP fun a => a.contactId == contactId && a.isPrimary && exceptId == some a.id := by
  rw [demoteOtherPrimaries, primaries_update keepsIds_demote]
  refine List.countP_congr fun a ha => ?_
  rw [h.isOf_eq hcompany ha]
  cases a.contactId == contactId <;> cases a.isPrimary <;> cases hid : exceptId == some a.id <;>
    simp [bne, hid]

theorem demote_keyed (h : Keyed companyOf db) (exceptId : Option ℕ) :
    Keyed companyOf (demoteOtherPrimaries companyId contactId exceptId db) :=
  h.update keepsIds_demote _

theorem primaries_demote_none (h : Keyed companyOf db)
    (hcompany : companyOf contactId = some companyId) :
    primaries (demoteOtherPrimaries companyId contactId none db) contactId = 0 := by
  rw [primaries_demote_self h hcompany]
  simp

theorem primaries_eq_zero : primaries db contactId = 0 ↔
    ∀ a ∈ db, a.contactId = contactId → a.isPrimary = false := by
  simp [primaries, List.countP_eq_zero]

theorem taken_eq_false_iff : taken contactId addressId db = false ↔
    ∀ a ∈ db, a.contactId = contactId → a.isPrimary = true → a.id = addressId := by
  rw [taken, List.any_eq_false]
  refine forall₂_congr fun a _ => ?_
  simp only [Bool.and_eq_true, beq_iff_eq, bne_iff_ne, not_and, not_not, and_imp]

theorem taken_of_primaries (addressId : ℕ) (h : primaries db contactId = 0) :
    taken contactId addressId db = false := by
  rw [taken_eq_false_iff]
  intro a ha hcontact hflag
  rw [primaries_eq_zero.1 h a ha hcontact] at hflag
  cases hflag

/-! ### Adding an address -/

variable {stores : Text → Bool} {body : AddressBody} {newId : ℕ} {now : ℤ}

theorem insertAddress_eq_none (stores : Text → Bool)
    (h : (a.isPrimary && taken a.contactId a.id db) = false) :
    insertAddress stores a db = none ↔
      ¬ (a.label.all stores = true ∧ stores a.address = true ∧ a.id ∉ db.map Address.id) := by
  have hany : (db.any fun b => b.id == a.id) = true ↔ a.id ∈ db.map Address.id := by
    simp [List.any_eq_true, List.mem_map]
  rw [insertAddress, h, ← hany]
  cases a.label.all stores <;> cases stores a.address <;>
    cases db.any fun b => b.id == a.id <;> simp

theorem insert_good (h : Keyed companyOf db) (hid : a.id ∉ db.map Address.id)
    (hhome : companyOf a.contactId = some a.companyId)
    (hothers : ∀ other ≠ a.contactId, (∃ b ∈ db, b.contactId = other) → primaries db other = 1)
    (hflag : primaries db a.contactId + a.isPrimary.toNat = 1) : Good companyOf (db ++ [a]) := by
  refine ⟨⟨?_, ?_⟩, ?_⟩
  · rw [List.map_append, List.map_singleton]
    exact List.nodup_append.2 ⟨h.ids, List.nodup_singleton _, by
      intro x hx y hy
      rw [List.mem_singleton.1 hy]
      rintro rfl
      exact hid hx⟩
  · intro b hb
    rcases List.mem_append.1 hb with hb | hb
    · exact h.home b hb
    · rw [List.mem_singleton.1 hb]
      exact hhome
  · rintro other ⟨b, hb, hother⟩
    have hcount : primaries (db ++ [a]) other =
        primaries db other + ((a.contactId == other) && a.isPrimary).toNat := by
      rw [primaries, List.countP_append, List.countP_singleton]
      cases (a.contactId == other && a.isPrimary) <;> rfl
    by_cases hsame : other = a.contactId
    · subst hsame
      rw [hcount, beq_self_eq_true, Bool.true_and]
      exact hflag
    · have hne : (a.contactId == other) = false := by simpa using Ne.symm hsame
      rw [hcount, hne]
      refine hothers other hsame ⟨b, ?_, hother⟩
      rcases List.mem_append.1 hb with hb | hb
      · exact hb
      · rw [List.mem_singleton.1 hb] at hother
        exact absurd hother.symm hsame

/-- The first address gets the flag whether or not anybody said so. -/
def wantsPrimary (companyId contactId : ℕ) (body : AddressBody) (db : List Address) : Bool :=
  body.isPrimary == some true || (db.filter (Address.isOf companyId contactId)).length == 0

/-- The table a create writes its row to. -/
def createBase (companyId contactId : ℕ) (body : AddressBody) (db : List Address) : List Address :=
  if wantsPrimary companyId contactId body db then
    demoteOtherPrimaries companyId contactId none db else db

def createRow (companyId contactId newId : ℕ) (now : ℤ) (body : AddressBody) (db : List Address) :
    Address :=
  { id := newId, companyId := companyId, contactId := contactId, label := body.label.getD none,
    address := body.address.getD [], isPrimary := wantsPrimary companyId contactId body db,
    createdAt := now }

theorem createBase_keyed (body : AddressBody) (h : Good companyOf db)
    (hcompany : companyOf contactId = some companyId) :
    Keyed companyOf (createBase companyId contactId body db) ∧
      (createBase companyId contactId body db).map Address.id = db.map Address.id ∧
      (wantsPrimary companyId contactId body db = true →
        primaries (createBase companyId contactId body db) contactId = 0) ∧
      ∀ other ≠ contactId, (∃ b ∈ createBase companyId contactId body db, b.contactId = other) →
        primaries (createBase companyId contactId body db) other = 1 := by
  unfold createBase
  split_ifs with hwants
  · have hids : (demoteOtherPrimaries companyId contactId none db).map Address.id =
        db.map Address.id := map_update (fun a => (keepsIds_demote a).1) db
    refine ⟨demote_keyed h.toKeyed none, hids,
      fun _ => primaries_demote_none h.toKeyed hcompany, fun other hne hrows => ?_⟩
    rw [primaries_demote_of_ne hne]
    exact h.one other ((exists_contact_update keepsIds_demote _ other).1 hrows)
  · exact ⟨h.toKeyed, rfl, fun hw => absurd hw hwants, fun other _ hrows => h.one other hrows⟩

/-- A create that takes the flag off an address and cannot write its own. -/
def SpoilsCreate (companyOf : ℕ → Option ℕ) (stores : Text → Bool) (companyId contactId newId : ℕ)
    (body : AddressBody) (db : List Address) : Prop :=
  companyOf contactId = some companyId ∧
    (db.filter (Address.isOf companyId contactId)).length < ADDRESS_CAP ∧
    body.isPrimary = some true ∧ 0 < primaries db contactId ∧
    ¬ (storesBody stores body = true ∧ newId ∉ db.map Address.id)

theorem create_eq (hcompany : companyOf contactId = some companyId)
    (hcap : (db.filter (Address.isOf companyId contactId)).length < ADDRESS_CAP) :
    create companyOf stores companyId contactId newId now body db =
      match insertAddress stores (createRow companyId contactId newId now body db)
          (createBase companyId contactId body db) with
      | none => (.error .internal, createBase companyId contactId body db)
      | some db => (.created, db) := by
  rw [create, if_neg (by simpa using hcompany)]
  exact if_neg (Nat.not_le.2 hcap)

/-- A create that cannot write its row, and took no flag off, leaves the table alone. -/
theorem createBase_eq (hs : ¬ SpoilsCreate companyOf stores companyId contactId newId body db)
    (hcompany : companyOf contactId = some companyId)
    (hcap : (db.filter (Address.isOf companyId contactId)).length < ADDRESS_CAP)
    (hrefused : ¬ (storesBody stores body = true ∧ newId ∉ db.map Address.id)) :
    createBase companyId contactId body db = db := by
  unfold createBase
  split_ifs with hwants
  · refine demote_of_none fun a ha hof hflag => ?_
    exfalso
    rcases Bool.or_eq_true_iff.1 hwants with hprimary | hnone
    · refine hs ⟨hcompany, hcap, by simpa using hprimary, ?_, hrefused⟩
      exact List.countP_pos_iff.2 ⟨a, ha, by simp [(isOf_iff.1 hof).2, hflag]⟩
    · have hmem : a ∈ db.filter (Address.isOf companyId contactId) :=
        List.mem_filter.2 ⟨ha, hof⟩
      rw [List.length_eq_zero_iff.1 (beq_iff_eq.1 hnone)] at hmem
      cases hmem
  · rfl

theorem createRow_refused (stores : Text → Bool) (newId : ℕ) (now : ℤ) (h : Good companyOf db)
    (haddress : body.address ≠ none) (hcompany : companyOf contactId = some companyId) :
    insertAddress stores (createRow companyId contactId newId now body db)
        (createBase companyId contactId body db) = none ↔
      ¬ (storesBody stores body = true ∧ newId ∉ db.map Address.id) := by
  obtain ⟨text, htext⟩ := Option.ne_none_iff_exists'.1 haddress
  obtain ⟨-, hids, hzero, -⟩ := createBase_keyed body h hcompany
  have hfields : (createRow companyId contactId newId now body db).label.all stores = true ∧
      stores (createRow companyId contactId newId now body db).address = true ↔
        storesBody stores body = true := by
    simp [createRow, storesBody, htext]
  have hindex : ((createRow companyId contactId newId now body db).isPrimary &&
      taken contactId newId (createBase companyId contactId body db)) = false := by
    cases hwants : wantsPrimary companyId contactId body db with
    | false => rw [createRow, hwants, Bool.false_and]
    | true =>
      rw [taken_of_primaries newId (hzero hwants), Bool.and_false]
  have hnone := insertAddress_eq_none stores hindex
  rw [hnone, ← hfields, ← hids, and_assoc]
  rfl

theorem create_good (h : Good companyOf db) (haddress : body.address ≠ none)
    (hs : ¬ SpoilsCreate companyOf stores companyId contactId newId body db) :
    Good companyOf (create companyOf stores companyId contactId newId now body db).2 ∧
      ((create companyOf stores companyId contactId newId now body db).1.isError = true →
        (create companyOf stores companyId contactId newId now body db).2 = db) := by
  by_cases hcompany : companyOf contactId = some companyId
  swap
  · rw [create, if_pos hcompany]
    exact ⟨h, fun _ => rfl⟩
  by_cases hcap : (db.filter (Address.isOf companyId contactId)).length < ADDRESS_CAP
  swap
  · have hfull : create companyOf stores companyId contactId newId now body db =
        (.error .validationFailed, db) := by
      rw [create, if_neg (by simpa using hcompany)]
      exact if_pos (Nat.not_lt.1 hcap)
    rw [hfull]
    exact ⟨h, fun _ => rfl⟩
  have hrefused := createRow_refused stores newId now h haddress hcompany
  rw [create_eq hcompany hcap]
  cases hinsert : insertAddress stores (createRow companyId contactId newId now body db)
      (createBase companyId contactId body db) with
  | none =>
    have hbase := createBase_eq hs hcompany hcap (hrefused.1 hinsert)
    simp only [hbase]
    exact ⟨h, fun _ => trivial⟩
  | some after =>
    refine ⟨?_, nofun⟩
    obtain ⟨hkeyed, hids, hzero, hothers⟩ := createBase_keyed body h hcompany
    have hfresh : newId ∉ db.map Address.id := by
      by_contra hmem
      rw [hrefused.2 fun hc => hc.2 hmem] at hinsert
      cases hinsert
    have hafter : createBase companyId contactId body db ++
        [createRow companyId contactId newId now body db] = after := by
      rw [insertAddress] at hinsert
      split_ifs at hinsert
      exact Option.some.inj hinsert
    simp only [← hafter]
    refine insert_good hkeyed ?_ hcompany hothers ?_
    · rw [hids]
      exact hfresh
    · cases hwants : wantsPrimary companyId contactId body db with
      | true =>
        have hflag : (createRow companyId contactId newId now body db).isPrimary = true :=
          hwants
        rw [hflag]
        exact congrArg (· + 1) (hzero hwants)
      | false =>
        -- the contact has an address already, and so a primary one
        have hflag : (createRow companyId contactId newId now body db).isPrimary = false :=
          hwants
        have hbase : createBase companyId contactId body db = db := by
          rw [createBase, hwants]
          rfl
        rw [hflag, hbase]
        obtain ⟨a, ha⟩ : ∃ a, a ∈ db.filter (Address.isOf companyId contactId) := by
          rw [wantsPrimary, Bool.or_eq_false_iff] at hwants
          refine List.exists_mem_of_length_pos (Nat.pos_of_ne_zero ?_)
          simpa using hwants.2
        obtain ⟨ha, hof⟩ := List.mem_filter.1 ha
        exact h.one contactId ⟨a, ha, (isOf_iff.1 hof).2⟩

/-- A create that takes a flag off for nothing is answered with an error. -/
theorem create_spoils (h : Good companyOf db) (haddress : body.address ≠ none)
    (hs : SpoilsCreate companyOf stores companyId contactId newId body db) :
    (create companyOf stores companyId contactId newId now body db).1.isError = true ∧
      (create companyOf stores companyId contactId newId now body db).2 ≠ db := by
  obtain ⟨hcompany, hcap, hprimary, hpos, hrefused⟩ := hs
  have hnone := (createRow_refused stores newId now h haddress hcompany).2 hrefused
  have hwants : wantsPrimary companyId contactId body db = true := by
    rw [wantsPrimary, hprimary]
    rfl
  have hzero := (createBase_keyed body h hcompany).2.2.1 hwants
  rw [create_eq hcompany hcap, hnone]
  refine ⟨rfl, fun hsame => ?_⟩
  have hbase : createBase companyId contactId body db = db := hsame
  rw [hbase] at hzero
  omega

/-! ### Changing an address -/

/-- The table a patch changes its row in. -/
def patchBase (companyId contactId addressId : ℕ) (body : AddressBody) (db : List Address) :
    List Address :=
  if body.isPrimary = some true then
    demoteOtherPrimaries companyId contactId (some addressId) db else db

/-- A patch that takes the flag off an address and cannot put it on its own. -/
def SpoilsPatch (stores : Text → Bool) (companyId contactId addressId : ℕ) (body : AddressBody)
    (db : List Address) : Prop :=
  body.isPrimary = some true ∧
    (∃ a ∈ db, a.isOf companyId contactId = true ∧ a.isPrimary = true ∧ a.id ≠ addressId) ∧
    ¬ (storesBody stores body = true ∧ ∃ a ∈ db, a.isAt companyId contactId addressId = true)

theorem keepsIds_patched (body : AddressBody) : KeepsIds (patched body) := fun _ => ⟨rfl, rfl, rfl⟩

/-- The row of a patch is there before the demotion where it is there after it. -/
theorem exists_isAt_demote (exceptId : Option ℕ) :
    (∃ a ∈ demoteOtherPrimaries companyId contactId exceptId db,
        a.isAt companyId contactId addressId = true) ↔
      ∃ a ∈ db, a.isAt companyId contactId addressId = true := by
  constructor
  · rintro ⟨a, ha, hat⟩
    rcases mem_update.1 ha with ⟨ha, -⟩ | ⟨b, hb, -, rfl⟩
    · exact ⟨a, ha, hat⟩
    · exact ⟨b, hb, hat⟩
  · rintro ⟨a, ha, hat⟩
    cases hp : a.isOf companyId contactId && a.isPrimary && exceptId != some a.id with
    | true => exact ⟨_, mem_update_of ha hp, hat⟩
    | false => exact ⟨a, mem_update_of_not ha hp, hat⟩

/-- No other row of the contact keeps the flag when a patch asks for it. -/
theorem taken_patchBase (h : Good companyOf db)
    (hrow : ∃ a ∈ db, a.isAt companyId contactId addressId = true)
    (hprimary : body.isPrimary = some true) :
    taken contactId addressId (patchBase companyId contactId addressId body db) = false := by
  obtain ⟨a, ha, hat⟩ := hrow
  have hcompany := h.company_of_isOf ha (isOf_iff.2 (isAt_iff.1 hat).1)
  rw [patchBase, if_pos hprimary, taken_eq_false_iff]
  intro b hb hcontact hflag
  rcases mem_update.1 hb with ⟨hb, hp⟩ | ⟨c, hc, -, rfl⟩
  · have hof : b.isOf companyId contactId = true := by
      rw [h.isOf_eq hcompany hb]
      simpa using hcontact
    rw [hof, hflag, Bool.true_and, Bool.true_and, bne_eq_false_iff_eq] at hp
    exact (Option.some.inj hp).symm
  · cases hflag

theorem patch_eq (h : Good companyOf db) :
    patch stores companyId contactId addressId body db =
      if storesBody stores body = true then
        if ∃ a ∈ db, a.isAt companyId contactId addressId = true then
          (.ok, SqlTable.update (Address.isAt companyId contactId addressId) (patched body)
            (patchBase companyId contactId addressId body db))
        else (.error .notFound, patchBase companyId contactId addressId body db)
      else (.error .internal, patchBase companyId contactId addressId body db) := by
  have hrows : (patchBase companyId contactId addressId body db).any
      (Address.isAt companyId contactId addressId) = true ↔
        ∃ a ∈ db, a.isAt companyId contactId addressId = true := by
    rw [List.any_eq_true, patchBase]
    split_ifs
    · exact exists_isAt_demote _
    · rfl
  have hbase : patch stores companyId contactId addressId body db =
      match updateAddress stores companyId contactId addressId body
          (patchBase companyId contactId addressId body db) with
      | none => (.error .internal, patchBase companyId contactId addressId body db)
      | some updated =>
        if (patchBase companyId contactId addressId body db).any
            (Address.isAt companyId contactId addressId) then (.ok, updated)
        else (.error .notFound, updated) := rfl
  have hindex : ((patchBase companyId contactId addressId body db).any
      (Address.isAt companyId contactId addressId) && body.isPrimary == some true &&
        taken contactId addressId (patchBase companyId contactId addressId body db)) = false := by
    by_contra hc
    simp only [Bool.not_eq_false, Bool.and_eq_true] at hc
    obtain ⟨⟨hany, hprimary⟩, htaken⟩ := hc
    rw [taken_patchBase h (hrows.1 hany) (by simpa using hprimary)] at htaken
    cases htaken
  rw [hbase, updateAddress, hindex, Bool.not_false, Bool.and_true]
  by_cases hstores : storesBody stores body = true
  · rw [if_pos hstores, if_pos hstores]
    by_cases hrow : ∃ a ∈ db, a.isAt companyId contactId addressId = true
    · rw [if_pos hrow]
      exact if_pos (hrows.2 hrow)
    · have hnone : (patchBase companyId contactId addressId body db).any
          (Address.isAt companyId contactId addressId) = false := by
        rw [Bool.eq_false_iff]
        exact fun hany => hrow (hrows.1 hany)
      have hsame := update_of_none (fun a ha => by simpa using List.any_eq_false.1 hnone a ha)
        (patched body)
      rw [if_neg hrow]
      simp only [hnone, hsame, Bool.false_eq_true, if_false]
  · rw [if_neg hstores, if_neg hstores]

/-- A patch that cannot write its row, and took no flag off, leaves the table alone. -/
theorem patchBase_eq (hs : ¬ SpoilsPatch stores companyId contactId addressId body db)
    (hrefused : ¬ (storesBody stores body = true ∧
      ∃ a ∈ db, a.isAt companyId contactId addressId = true)) :
    patchBase companyId contactId addressId body db = db := by
  unfold patchBase
  split_ifs with hprimary
  · refine demote_of_none fun a ha hof hflag => ?_
    by_contra hne
    exact hs ⟨hprimary, ⟨a, ha, hof, hflag, fun hid => hne (congrArg some hid.symm)⟩, hrefused⟩
  · rfl

theorem patchBase_keyed (companyId contactId addressId : ℕ) (body : AddressBody)
    (h : Good companyOf db) :
    Keyed companyOf (patchBase companyId contactId addressId body db) := by
  unfold patchBase
  split_ifs
  · exact demote_keyed h.toKeyed _
  · exact h.toKeyed

/-- The row that a patch finds gets the flag where it is asked for, and its contact has one. -/
theorem patched_one (h : Good companyOf db)
    (hrow : ∃ a ∈ db, a.isAt companyId contactId addressId = true) :
    OnePrimary (SqlTable.update (Address.isAt companyId contactId addressId) (patched body)
      (patchBase companyId contactId addressId body db)) := by
  intro other hother
  rw [exists_contact_update (keepsIds_patched body)] at hother
  rw [primaries_update (keepsIds_patched body)]
  by_cases hprimary : body.isPrimary = some true
  · have hbase : patchBase companyId contactId addressId body db =
        demoteOtherPrimaries companyId contactId (some addressId) db := if_pos hprimary
    by_cases hsame : other = contactId
    · -- of the contact's rows exactly the one of the patch has the flag
      subst hsame
      have hkeyed := patchBase_keyed companyId other addressId body h
      have hfree := taken_eq_false_iff.1 (taken_patchBase h hrow hprimary)
      obtain ⟨a, ha, hat⟩ : ∃ a ∈ patchBase companyId other addressId body db,
          a.isAt companyId other addressId = true := by
        rw [hbase]
        exact (exists_isAt_demote _).2 hrow
      obtain ⟨⟨hcompany, hcontact⟩, hid⟩ := isAt_iff.1 hat
      refine countP_id hkeyed.ids ha fun b hb => ?_
      have hflag : (patched body b).isPrimary = true := by
        rw [patched, if_pos hprimary]
      simp only [hflag, Bool.and_eq_true, beq_iff_eq]
      constructor
      · rintro ⟨hb', hset⟩
        split_ifs at hset with hatb
        · exact (isAt_iff.1 hatb).2.trans hid.symm
        · exact (hfree b hb hb' hset).trans hid.symm
      · intro hbid
        obtain rfl := List.inj_on_of_nodup_map hkeyed.ids hb ha hbid
        exact ⟨hcontact, by rw [if_pos hat]⟩
    · have hcount : ((patchBase companyId contactId addressId body db).countP fun a =>
          a.contactId == other && (if a.isAt companyId contactId addressId = true then
            (patched body a).isPrimary else a.isPrimary)) =
          primaries (patchBase companyId contactId addressId body db) other := by
        refine List.countP_congr fun a _ => ?_
        by_cases hcontact : a.contactId = other
        · have hat : ¬ a.isAt companyId contactId addressId = true := fun hat =>
          hsame (hcontact.symm.trans (isAt_iff.1 hat).1.2)
          rw [if_neg hat]
        · simp [hcontact]
      rw [hbase] at hother
      rw [hcount, hbase, primaries_demote_of_ne hsame]
      exact h.one other ((exists_contact_update keepsIds_demote _ other).1 hother)
  · have hbase : patchBase companyId contactId addressId body db = db := if_neg hprimary
    have hcount : (db.countP fun a => a.contactId == other &&
        (if a.isAt companyId contactId addressId = true then (patched body a).isPrimary
          else a.isPrimary)) = primaries db other := by
      refine List.countP_congr fun a _ => ?_
      rw [patched, if_neg hprimary, ite_self]
    rw [hbase] at hother ⊢
    rw [hcount]
    exact h.one other hother

theorem patch_good (h : Good companyOf db)
    (hs : ¬ SpoilsPatch stores companyId contactId addressId body db) :
    Good companyOf (patch stores companyId contactId addressId body db).2 ∧
      ((patch stores companyId contactId addressId body db).1.isError = true →
        (patch stores companyId contactId addressId body db).2 = db) := by
  rw [patch_eq h]
  split_ifs with hstores hrow
  · have hkeyed := patchBase_keyed companyId contactId addressId body h
    exact ⟨⟨hkeyed.update (keepsIds_patched body) _, patched_one h hrow⟩, nofun⟩
  · have hbase := patchBase_eq hs fun hc => hrow hc.2
    simp only [hbase]
    exact ⟨h, fun _ => trivial⟩
  · have hbase := patchBase_eq hs fun hc => hstores hc.1
    simp only [hbase]
    exact ⟨h, fun _ => trivial⟩

/-- A patch that takes a flag off for nothing is answered with an error. -/
theorem patch_spoils (h : Good companyOf db)
    (hs : SpoilsPatch stores companyId contactId addressId body db) :
    (patch stores companyId contactId addressId body db).1.isError = true ∧
      (patch stores companyId contactId addressId body db).2 ≠ db := by
  obtain ⟨hprimary, ⟨a, ha, hof, hflag, hid⟩, hrefused⟩ := hs
  have hchanged : patchBase companyId contactId addressId body db ≠ db := by
    intro hsame
    have hmem : a ∈ patchBase companyId contactId addressId body db := by
      rw [hsame]
      exact ha
    rw [patchBase, if_pos hprimary] at hmem
    rcases mem_update.1 hmem with ⟨-, hp⟩ | ⟨b, -, -, rfl⟩
    · rw [hof, hflag, Bool.true_and, Bool.true_and, bne_eq_false_iff_eq] at hp
      exact hid (Option.some.inj hp).symm
    · cases hflag
  rw [patch_eq h]
  split_ifs with hstores hrow
  · exact absurd ⟨hstores, hrow⟩ hrefused
  · exact ⟨rfl, hchanged⟩
  · exact ⟨rfl, hchanged⟩

/-! ### Removing an address -/

/-- The addresses of a contact that has no primary one, once its oldest is promoted. -/
theorem promoted_one (h : Keyed companyOf db) (hcompany : companyOf contactId = some companyId)
    (hzero : primaries db contactId = 0)
    (hothers : ∀ other ≠ contactId, (∃ b ∈ db, b.contactId = other) → primaries db other = 1)
    {survivor : Address} (hsurvivor : survivor ∈ db) (hcontact : survivor.contactId = contactId) :
    OnePrimary (SqlTable.update (fun a => a.companyId == companyId && a.id == survivor.id)
      (fun a => { a with isPrimary := true }) db) := by
  have hkeeps : KeepsIds fun a => { a with isPrimary := true } := fun _ => ⟨rfl, rfl, rfl⟩
  have hfound : ∀ b ∈ db, (b.companyId == companyId && b.id == survivor.id) = true ↔
      b.id = survivor.id := by
    intro b hb
    simp only [Bool.and_eq_true, beq_iff_eq]
    refine ⟨fun hc => hc.2, fun hid => ⟨?_, hid⟩⟩
    obtain rfl := List.inj_on_of_nodup_map h.ids hb hsurvivor hid
    have hhome := h.home b hb
    rw [hcontact, hcompany] at hhome
    exact (Option.some.inj hhome).symm
  intro other hother
  rw [exists_contact_update hkeeps] at hother
  rw [primaries_update hkeeps]
  by_cases hsame : other = contactId
  · subst hsame
    refine countP_id h.ids hsurvivor fun b hb => ?_
    by_cases hid : b.id = survivor.id
    · obtain rfl := List.inj_on_of_nodup_map h.ids hb hsurvivor hid
      rw [if_pos ((hfound b hb).2 rfl)]
      simp [hcontact]
    · rw [if_neg fun hc => hid ((hfound b hb).1 hc)]
      have hnone := primaries_eq_zero.1 hzero b hb
      simp only [Bool.and_eq_true, beq_iff_eq, hid, iff_false, not_and]
      intro hb'
      rw [hnone hb']
      exact Bool.false_ne_true
  · rw [← hothers other hsame hother]
    refine List.countP_congr fun b hb => ?_
    by_cases hb' : b.contactId = other
    · have hid : ¬ (b.companyId == companyId && b.id == survivor.id) = true := by
        intro hc
        obtain rfl := List.inj_on_of_nodup_map h.ids hb hsurvivor ((hfound b hb).1 hc)
        exact hsame (hb'.symm.trans hcontact)
      rw [if_neg hid]
    · simp [hb']

theorem remove_good (h : Good companyOf db) :
    Good companyOf (remove companyId contactId addressId db).2 ∧
      ((remove companyId contactId addressId db).1.isError = true →
        (remove companyId contactId addressId db).2 = db) := by
  have hkeyed := h.toKeyed.filter fun a => !a.isAt companyId contactId addressId
  have hothers : ∀ other ≠ contactId,
      primaries (db.filter fun a => !a.isAt companyId contactId addressId) other =
        primaries db other := by
    intro other hne
    rw [primaries, List.countP_filter]
    refine List.countP_congr fun a _ => ?_
    by_cases hcontact : a.contactId = other
    · have hat : a.isAt companyId contactId addressId = false := by
        rw [Bool.eq_false_iff, Ne, isAt_iff]
        exact fun hat => hne (hcontact.symm.trans hat.1.2)
      simp [hat]
    · simp [hcontact]
  unfold remove
  cases hremoved : db.filter (Address.isAt companyId contactId addressId) with
  | nil =>
    have hsame : (db.filter fun a => !a.isAt companyId contactId addressId) = db := by
      refine List.filter_eq_self.2 fun a ha => ?_
      have hnone := List.filter_eq_nil_iff.1 hremoved a ha
      simpa using hnone
    simp only [hsame]
    exact ⟨h, fun _ => trivial⟩
  | cons a removed =>
    have ha : a ∈ db ∧ a.isAt companyId contactId addressId = true :=
      List.mem_filter.1 (by rw [hremoved]; exact List.mem_cons_self ..)
    obtain ⟨hof, hid⟩ := isAt_iff.1 ha.2
    have hcompany := h.company_of_isOf ha.1 (isOf_iff.2 hof)
    have hone := h.one contactId ⟨a, ha.1, hof.2⟩
    -- the row taken out, and those that stay
    have hcount : primaries db contactId =
        primaries (db.filter (Address.isAt companyId contactId addressId)) contactId +
          primaries (db.filter fun a => !a.isAt companyId contactId addressId) contactId :=
      List.countP_eq_countP_filter_add ..
    have honly : ∀ b ∈ db.filter (Address.isAt companyId contactId addressId), b = a := by
      intro b hb
      obtain ⟨hb, hat⟩ := List.mem_filter.1 hb
      exact List.inj_on_of_nodup_map h.ids hb ha.1 ((isAt_iff.1 hat).2.trans hid.symm)
    have hrest : ∀ other ≠ contactId,
        (∃ b ∈ db.filter fun a => !a.isAt companyId contactId addressId, b.contactId = other) →
          primaries (db.filter fun a => !a.isAt companyId contactId addressId) other = 1 := by
      rintro other hne ⟨b, hb, hother⟩
      rw [hothers other hne]
      exact h.one other ⟨b, List.mem_of_mem_filter hb, hother⟩
    cases hflag : a.isPrimary with
    | false =>
      have hzero : primaries (db.filter (Address.isAt companyId contactId addressId))
          contactId = 0 := by
        refine primaries_eq_zero.2 fun b hb _ => ?_
        rw [honly b hb]
        exact hflag
      simp only [hflag, Bool.false_eq_true, if_false]
      refine ⟨⟨hkeyed, fun other hrows => ?_⟩, nofun⟩
      by_cases hsame : other = contactId
      · rw [hsame]
        omega
      · exact hrest other hsame hrows
    | true =>
      have hpos : 0 < primaries (db.filter (Address.isAt companyId contactId addressId))
          contactId :=
        List.countP_pos_iff.2 ⟨a, List.mem_filter.2 ha, by simp [hof.2, hflag]⟩
      have hzero : primaries (db.filter fun a => !a.isAt companyId contactId addressId)
          contactId = 0 := by omega
      simp only [hflag, if_true]
      cases hfirst : (firstBy Address.createdAt 1
          ((db.filter fun a => !a.isAt companyId contactId addressId).filter
            (Address.isOf companyId contactId))).head? with
      | none =>
        refine ⟨⟨hkeyed, fun other hrows => ?_⟩, nofun⟩
        by_cases hsame : other = contactId
        · subst hsame
          obtain ⟨b, hb, hother⟩ := hrows
          have hof' : b.isOf companyId other = true := by
            rw [hkeyed.isOf_eq hcompany hb, beq_iff_eq]
            exact hother
          have hmem : b ∈ (db.filter fun a => !a.isAt companyId other addressId).filter
              (Address.isOf companyId other) := List.mem_filter.2 ⟨hb, hof'⟩
          rw [head?_firstBy_eq_none.1 hfirst] at hmem
          cases hmem
        · exact hrest other hsame hrows
      | some survivor =>
        obtain ⟨hmem, hsurvivor⟩ :=
          List.mem_filter.1 (mem_of_mem_firstBy (List.mem_of_mem_head? hfirst))
        have hcontact := (isOf_iff.1 hsurvivor).2
        have hfree := taken_of_primaries survivor.id hzero
        simp only [hcontact, hfree, Bool.false_eq_true, if_false]
        have hkeeps : KeepsIds fun a => { a with isPrimary := true } :=
          fun _ => ⟨rfl, rfl, rfl⟩
        refine ⟨⟨hkeyed.update hkeeps _, ?_⟩, nofun⟩
        exact promoted_one hkeyed hcompany hzero hrest hmem hcontact

/-! ### Requests, and runs of them -/

/-- A request that takes the flag off an address of the contact and then cannot write its own: its
text cannot be stored, its id is taken, or the address it names is none of the contact's. -/
def Spoils (companyOf : ℕ → Option ℕ) (stores : Text → Bool) (call : Call) (db : List Address) :
    Prop :=
  match call.request with
  | .create (some contactId) raw =>
    match readBody false raw with
    | none => False
    | some body => SpoilsCreate companyOf stores call.companyId contactId call.newId body db
  | .patch (some contactId) (some addressId) raw =>
    match readBody true raw with
    | none => False
    | some body => SpoilsPatch stores call.companyId contactId addressId body db
  | _ => False

theorem address_of_readBody {raw : Option AddressBody} {body : AddressBody}
    (h : readBody false raw = some body) : body.address ≠ none := by
  unfold readBody at h
  cases raw with
  | none => cases h
  | some given =>
    simp only at h
    cases hlabel : readLabel given.label with
    | none => rw [hlabel] at h; cases h
    | some label =>
      rw [hlabel] at h
      cases htext : given.address with
      | none => rw [htext] at h; cases h
      | some text =>
        rw [htext] at h
        obtain ⟨trimmed, -, rfl⟩ := Option.map_eq_some_iff.1 h
        exact Option.some_ne_none trimmed

/-- A request that spoils nothing keeps the table good, and an error leaves it as it was. -/
theorem serve_good (h : Good companyOf db) {call : Call} (hs : ¬ Spoils companyOf stores call db) :
    Good companyOf (serve companyOf stores call db).2 ∧
      ((serve companyOf stores call db).1.isError = true →
        (serve companyOf stores call db).2 = db) := by
  unfold serve
  unfold Spoils at hs
  split
  next contactId raw hrequest =>
    rw [hrequest] at hs
    simp only at hs
    cases hread : readBody false raw with
    | none => exact ⟨h, fun _ => rfl⟩
    | some body =>
      rw [hread] at hs
      exact create_good h (address_of_readBody hread) hs
  next contactId addressId raw hrequest =>
    rw [hrequest] at hs
    simp only at hs
    cases hread : readBody true raw with
    | none => exact ⟨h, fun _ => rfl⟩
    | some body =>
      rw [hread] at hs
      exact patch_good h hs
  next => exact remove_good h
  next => exact ⟨h, fun _ => rfl⟩

/-- A request that spoils is answered with an error, and changes the addresses. -/
theorem serve_spoils (h : Good companyOf db) {call : Call} (hs : Spoils companyOf stores call db) :
    (serve companyOf stores call db).1.isError = true ∧
      (serve companyOf stores call db).2 ≠ db := by
  unfold serve
  unfold Spoils at hs
  split at hs
  next contactId raw hrequest =>
    rw [hrequest]
    cases hread : readBody false raw with
    | none => rw [hread] at hs; exact hs.elim
    | some body =>
      rw [hread] at hs
      simp only [hread]
      exact create_spoils h (address_of_readBody hread) hs
  next contactId addressId raw hrequest =>
    rw [hrequest]
    cases hread : readBody true raw with
    | none => rw [hread] at hs; exact hs.elim
    | some body =>
      rw [hread] at hs
      simp only [hread]
      exact patch_spoils h hs
  next => exact hs.elim

/-- In every state of the run a contact with addresses has one primary address, and a request that
is answered with an error leaves the addresses as they were. -/
def StaysGood (companyOf : ℕ → Option ℕ) (stores : Text → Bool) (db : List Address) :
    List Call → Prop
  | [] => OnePrimary db
  | call :: calls => OnePrimary db ∧
      ((serve companyOf stores call db).1.isError = true →
        (serve companyOf stores call db).2 = db) ∧
      StaysGood companyOf stores (serve companyOf stores call db).2 calls

/-- No request of the run takes a flag off for nothing. -/
def SpoilsNothing (companyOf : ℕ → Option ℕ) (stores : Text → Bool) (db : List Address) :
    List Call → Prop
  | [] => True
  | call :: calls => ¬ Spoils companyOf stores call db ∧
      SpoilsNothing companyOf stores (serve companyOf stores call db).2 calls

theorem staysGood_of_good (h : Good companyOf db) (calls : List Call) :
    StaysGood companyOf stores db calls ↔ SpoilsNothing companyOf stores db calls := by
  induction calls generalizing db with
  | nil => exact iff_of_true h.one trivial
  | cons call calls ih =>
    by_cases hs : Spoils companyOf stores call db
    · obtain ⟨herror, hchanged⟩ := serve_spoils h hs
      exact iff_of_false (fun hc => hchanged (hc.2.1 herror)) fun hc => hc.1 hs
    · obtain ⟨hgood, hsame⟩ := serve_good h hs
      rw [StaysGood, SpoilsNothing, ih hgood]
      exact ⟨fun hc => ⟨hs, hc.2.2⟩, fun hc => ⟨h.one, hsame, hc.2⟩⟩

end Tables

/-- **Exactly the runs in which there is one primary address.**  From a table without addresses,
every contact with addresses has one primary address throughout, and errors change nothing, where
no request takes the flag off an address and then cannot write its own row. -/
theorem staysGood_iff (companyOf : ℕ → Option ℕ) (stores : Text → Bool) (calls : List Call) :
    StaysGood companyOf stores [] calls ↔ SpoilsNothing companyOf stores [] calls := by
  have hempty : Good companyOf [] :=
    { ids := List.nodup_nil, home := nofun, one := nofun }
  exact staysGood_of_good hempty calls

/-- An address is added, and another id is made the primary one. -/
theorem primary_lost : ¬ ∀ (companyOf : ℕ → Option ℕ) (stores : Text → Bool) (calls : List Call),
    StaysGood companyOf stores [] calls := by
  intro h
  have hrun := h (fun _ => some 1) (fun _ => true)
    [{ companyId := 1, newId := 10, now := 0,
       request := .create (some 5) (some { address := some (ofString "1 Main St") }) },
     { companyId := 1, newId := 11, now := 1,
       request := .patch (some 5) (some 99) (some { isPrimary := some true }) }]
  have hsame := hrun.2.2.2.1 (by decide +kernel)
  exact absurd hsame (by decide +kernel)

end ContactAddresses
