/-
**Extra phone numbers.**

A company may hold the numbers its plan includes and the extra ones it pays for.  How many it pays
for is the quantity of a subscription item; what a slot claim may admit is the column
`paid_extra_numbers`, kept under the lock of the company's row together with an epoch that fences
its raises.  This module is the state machine of the four kinds of process on the two:
`convergeExtraNumberQuantity` of `apps/api/src/billing/extra-numbers.ts`, the buy and the release of
`apps/api/src/routes/numbers.ts`, and the slot claims of the migration `20260710001000` (paid extra
capacity).

Every function of the migration is one atomic step and every call of the provider another; a process
that throws ends.  The gates of a buy that refuse before money moves come with the answer of a step.

Main result:

* `ExtraNumbers.ledger_call` — **what a step does** to the column, the bill and the epoch.
-/

import Mathlib.Algebra.Ring.Nat
import Texturion.Interleaving
import Texturion.IdempotencyKeys
import Texturion.LedgeredNotices
import Mathlib.Algebra.Order.BigOperators.Group.List
import Mathlib.Algebra.Order.Group.Nat

namespace ExtraNumbers

open Idempotency Interleaving
open Notices (PlanId dayMs)

/-! ### The numbers and the column -/

def planNumbers : PlanId → ℕ
  | .starter => 1
  | .pro => 2

def numberProvisionChurnCap : ℕ := 20

structure PhoneNumber where
  provisioningKey : ℕ
  released : Bool
  deriving DecidableEq

/-- A licensed item of the subscription, at a plan's price for extra numbers. -/
structure ExtraItem where
  id : ℕ
  price : PlanId
  quantity : ℕ
  deriving DecidableEq

/-- The keys of a buy, with that of its request, and of a convergence: the item, the quantity and
the day. -/
inductive Key
  | buy (provisioningKey : ℕ)
  | converge (itemId quantity : ℕ) (day : ℤ)
  deriving DecidableEq

inductive ItemWrite
  | create (price : PlanId) (quantity : ℕ)
  | update (id : ℕ) (price : Option PlanId) (quantity : ℕ)
  | delete (id : ℕ)
  deriving DecidableEq

structure Store where
  numbers : List PhoneNumber
  paid : ℕ
  epoch : ℕ
  soleProprietor : Bool
  provisionCount : ℕ
  items : List ExtraItem
  nextItemId : ℕ
  memory : List (Record Key ItemWrite Unit)
  clock : ℤ
  deriving DecidableEq

def Store.occupying (s : Store) : ℕ := s.numbers.countP fun number => !number.released

def billedOf (items : List ExtraItem) : ℕ := (items.map (·.quantity)).sum

def Store.billed (s : Store) : ℕ := billedOf s.items

def desiredExtraQuantity (nonReleasedNumbers : ℕ) (plan : PlanId) : ℕ :=
  nonReleasedNumbers - planNumbers plan

/-! ### The provider -/

def findExtraNumberItem (items : List ExtraItem) (price : PlanId) : Option ExtraItem :=
  items.find? fun item => item.price = price

def findStaleItem (items : List ExtraItem) (price : PlanId) : Option ExtraItem :=
  items.find? fun item => item.price ≠ price

def writeItem (id : ℕ) (price : Option PlanId) (quantity : ℕ) (item : ExtraItem) : ExtraItem :=
  if item.id = id then { item with price := price.getD item.price, quantity := quantity } else item

/-- A write on the items; `none` is an error: there is no such item, or another one has the price
already. -/
def applyWrite (items : List ExtraItem) (newId : ℕ) : ItemWrite → Option (List ExtraItem)
  | .create price quantity =>
    if items.any fun item => item.price = price then none
    else some (items ++ [{ id := newId, price := price, quantity := quantity }])
  | .update id price quantity =>
    if (items.any fun item => item.id = id) ∧
        ¬(items.any fun item => item.id ≠ id ∧ some item.price = price) then
      some (items.map (writeItem id price quantity))
    else none
  | .delete id =>
    if items.any fun item => item.id = id then some (items.filter fun item => item.id ≠ id)
    else none

def Store.verdict (s : Store) (key : Key) (w : ItemWrite) : Verdict Unit :=
  Idempotency.verdict dayMs s.memory s.clock key w

/-- `stripe.subscriptionItems.create`, `.update` and `.del`, under a key. -/
def updateItems (s : Store) (key : Key) (w : ItemWrite) : Store :=
  match s.verdict key w with
  | .fresh =>
    match applyWrite s.items s.nextItemId w with
    | some items =>
      { s with
        items := items, nextItemId := s.nextItemId + 1,
        memory := { key := key, params := w, result := (), madeAt := s.clock } :: s.memory }
    | none => s
  | _ => s

def accepts (s : Store) (key : Key) (w : ItemWrite) : Bool :=
  match s.verdict key w with
  | .fresh => (applyWrite s.items s.nextItemId w).isSome
  | .replayed _ => true
  | .refused => false

/-- `setExtraNumberQuantity`: the write that takes the items it was given to a quantity; `none`
where they are there already. -/
def setExtraNumberQuantity (items : List ExtraItem) (price : PlanId) (quantity : ℕ) :
    Option ItemWrite :=
  match findExtraNumberItem items price with
  | none => if quantity = 0 then none else some (.create price quantity)
  | some item =>
    if item.quantity = quantity then none
    else if quantity = 0 then some (.delete item.id)
    else some (.update item.id none quantity)

/-! ### The functions of the migration -/

/-- `sync_paid_extra_capacity` refuses a raise whose epoch is stale. -/
def syncApplies (s : Store) (billed epoch : ℕ) : Bool := billed ≤ s.paid ∨ epoch = s.epoch

def syncPaidExtraCapacity (s : Store) (billed epoch : ℕ) : Store :=
  if syncApplies s billed epoch then { s with paid := billed } else s

def claimDesired (s : Store) (included : ℕ) : ℕ := s.occupying - included

/-- `claim_extra_lower` bumps the epoch in any case. -/
def claimExtraLower (s : Store) (included : ℕ) : Store :=
  { s with epoch := s.epoch + 1, paid := min s.paid (claimDesired s included) }

inductive SlotOutcome
  | created
  | existing
  | solePropCap
  | planLimit
  | provisionCap
  | numberTaken
  deriving DecidableEq

/-- What the three slot claims decide under the lock, in their common order. -/
def slotOutcome (s : Store) (included provisioningKey : ℕ) (capped taken : Bool) : SlotOutcome :=
  if s.numbers.any fun number => number.provisioningKey = provisioningKey then .existing
  else if s.soleProprietor ∧ 1 ≤ s.occupying then .solePropCap
  else if included + s.paid ≤ s.occupying then .planLimit
  else if capped then .provisionCap
  else if taken then .numberTaken
  else .created

def admitSlot (s : Store) (provisioningKey : ℕ) : Store :=
  { s with numbers := s.numbers ++ [{ provisioningKey := provisioningKey, released := false }] }

def provisionNumberSlot (s : Store) (included provisioningKey : ℕ) : SlotOutcome :=
  slotOutcome s included provisioningKey (decide (numberProvisionChurnCap ≤ s.provisionCount)) false

def claimPortSlot (s : Store) (included provisioningKey : ℕ) : SlotOutcome :=
  slotOutcome s included provisioningKey false false

/-- `taken`: the number is in the table already. -/
def claimTextEnablementSlot (s : Store) (included provisioningKey : ℕ) (taken : Bool) :
    SlotOutcome :=
  slotOutcome s included provisioningKey false taken

/-! ### The processes -/

inductive Request
  | buy (provisioningKey : ℕ)
  | claimPort (provisioningKey : ℕ)
  | claimTextEnablement (provisioningKey : ℕ)
  | release (provisioningKey : ℕ)
  | converge
  deriving DecidableEq

/-- A step that is still to be made.  A buy holds its key, the epoch it has read and the quantity it
means to bill; a convergence the day it was started, the epoch and the items it has read. -/
inductive Point
  | loadingCompany (key : ℕ)
  | findingReplay (key epoch : ℕ)
  | countingToBuy (key epoch : ℕ)
  | retrievingToBuy (key epoch quantity : ℕ)
  | buying (key epoch quantity : ℕ) (w : ItemWrite)
  | verifying (key epoch quantity : ℕ)
  | syncing (key epoch quantity : ℕ)
  | provisioning (key : ℕ)
  | porting (key : ℕ)
  | enabling (key : ℕ)
  | releasing (key : ℕ)
  | readingEpoch
  | retrieving (epoch : ℕ) (day : ℤ)
  | counting (epoch : ℕ) (day : ℤ) (items : List ExtraItem)
  | mirroring (epoch billed : ℕ)
  | claimingLower (day : ℤ) (item : ExtraItem)
  | lowering (day : ℤ) (itemId desired epoch : ℕ)
  | claimingMigrate (day : ℤ) (stale : ExtraItem)
  | migrating (day : ℤ) (itemId quantity epoch : ℕ)
  deriving DecidableEq

/-- What comes of a call; whether the gates of a buy let it pass; whether a schedule manages the
subscription that is read; and whether the number to enable is taken. -/
structure Await where
  outcome : Outcome
  allowed : Bool
  scheduled : Bool
  taken : Bool
  deriving DecidableEq

/-- A slot is admitted: the numbers there are then, and those that are included or billed. -/
inductive Output
  | admitted (occupying allowance : ℕ)
  deriving DecidableEq

def lowerWrite (itemId quantity : ℕ) : ItemWrite :=
  if quantity = 0 then .delete itemId else .update itemId none quantity

/-- The write of a convergence that takes the item to the plan's price. -/
def migrateWrite (plan : PlanId) (itemId quantity : ℕ) : ItemWrite :=
  if quantity = 0 then .delete itemId else .update itemId (some plan) quantity

def enter : Request → Point
  | .buy key => .loadingCompany key
  | .claimPort key => .porting key
  | .claimTextEnablement key => .enabling key
  | .release key => .releasing key
  | .converge => .readingEpoch

def Point.slot (plan : PlanId) (s : Store) (taken : Bool) : Point → Option (ℕ × SlotOutcome)
  | .provisioning key => some (key, provisionNumberSlot s (planNumbers plan) key)
  | .porting key => some (key, claimPortSlot s (planNumbers plan) key)
  | .enabling key => some (key, claimTextEnablementSlot s (planNumbers plan) key taken)
  | _ => none

def deed (plan : PlanId) (s : Store) (taken : Bool) : Point → Store
  | .buying key _ _ w => updateItems s (.buy key) w
  | .syncing _ epoch quantity => syncPaidExtraCapacity s quantity epoch
  | .provisioning key =>
    if provisionNumberSlot s (planNumbers plan) key = .created then
      { admitSlot s key with provisionCount := s.provisionCount + 1 }
    else s
  | .porting key => if claimPortSlot s (planNumbers plan) key = .created then admitSlot s key else s
  | .enabling key =>
    if claimTextEnablementSlot s (planNumbers plan) key taken = .created then admitSlot s key else s
  | .releasing key =>
    { s with
      numbers := s.numbers.map fun number =>
        if number.provisioningKey = key then { number with released := true } else number }
  | .mirroring epoch billed => syncPaidExtraCapacity s billed epoch
  | .claimingLower .. | .claimingMigrate .. => claimExtraLower s (planNumbers plan)
  | .lowering day itemId desired _ =>
    updateItems s (.converge itemId desired day) (lowerWrite itemId desired)
  | .migrating day itemId quantity _ =>
    updateItems s (.converge itemId quantity day) (migrateWrite plan itemId quantity)
  | .loadingCompany .. | .findingReplay .. | .countingToBuy .. | .retrievingToBuy .. | .verifying ..
  | .readingEpoch | .retrieving .. | .counting .. => s

def call (plan : PlanId) (s : Store) (p : Point) (x : Await) : Store :=
  if x.outcome.lands then deed plan s x.taken p else s

/-- Where a convergence goes from its count. -/
def converged (plan : PlanId) (s : Store) (epoch : ℕ) (day : ℤ) (items : List ExtraItem) : Point :=
  match findStaleItem items plan with
  | some stale => .claimingMigrate day stale
  | none =>
    match findExtraNumberItem items plan with
    | some item =>
      if item.quantity ≤ desiredExtraQuantity s.occupying plan then
        .mirroring epoch item.quantity
      else .claimingLower day item
    | none => .mirroring epoch 0

/-- What a subscription that a schedule manages bills, by the first of the two prices it has. -/
def scheduleBilled (items : List ExtraItem) : ℕ :=
  (((findExtraNumberItem items .starter).or (findExtraNumberItem items .pro)).map
    (·.quantity)).getD 0

/-- Where a process goes from a step that succeeds, given the store before it. -/
def onward (plan : PlanId) (s : Store) (x : Await) : Point → Option Point
  | .loadingCompany key => if x.allowed then some (.findingReplay key s.epoch) else none
  | .findingReplay key epoch =>
    if x.allowed = false ∨ s.numbers.any fun number => number.provisioningKey = key then none
    else some (.countingToBuy key epoch)
  | .countingToBuy key epoch =>
    if s.occupying < planNumbers plan then some (.provisioning key)
    else if x.allowed then
      some (.retrievingToBuy key epoch (desiredExtraQuantity (s.occupying + 1) plan))
    else none
  | .retrievingToBuy key epoch quantity =>
    if x.scheduled then none
    else
      match setExtraNumberQuantity s.items plan quantity with
      | some w => some (.buying key epoch quantity w)
      | none => some (.verifying key epoch quantity)
  | .buying key epoch quantity w =>
    if accepts s (.buy key) w then some (.verifying key epoch quantity) else none
  | .verifying key epoch quantity =>
    if quantity ≤ ((findExtraNumberItem s.items plan).map (·.quantity)).getD 0 then
      some (.syncing key epoch quantity)
    else none
  | .syncing key epoch quantity =>
    if syncApplies s quantity epoch then some (.provisioning key) else none
  | .releasing _ => some .readingEpoch
  | .readingEpoch => some (.retrieving s.epoch (s.clock / dayMs))
  | .retrieving epoch day =>
    if x.scheduled then some (.mirroring epoch (scheduleBilled s.items))
    else some (.counting epoch day s.items)
  | .counting epoch day items => some (converged plan s epoch day items)
  | .claimingLower day item =>
    if item.quantity ≤ claimDesired s (planNumbers plan) then none
    else some (.lowering day item.id (claimDesired s (planNumbers plan)) (s.epoch + 1))
  | .claimingMigrate day stale =>
    some (.migrating day stale.id (min stale.quantity (claimDesired s (planNumbers plan)))
      (s.epoch + 1))
  | .migrating day itemId quantity epoch =>
    if accepts s (.converge itemId quantity day) (migrateWrite plan itemId quantity) then
      some (.mirroring epoch quantity)
    else none
  | .provisioning _ | .porting _ | .enabling _ | .mirroring .. | .lowering .. => none

def next (plan : PlanId) (s : Store) (x : Await) (p : Point) : Option Point :=
  if x.outcome.heard then onward plan s x p else none

/-- A slot that the claim admits. -/
def emits (plan : PlanId) (s : Store) (x : Await) (p : Point) : List Output :=
  if x.outcome.lands ∧ (p.slot plan s x.taken).map (·.2) = some .created then
    [.admitted (s.occupying + 1) (planNumbers plan + s.billed)]
  else []

/-- The processes of a company on a plan; outside them only time passes. -/
def capacity (plan : PlanId) : System Store Request Point Await ℕ Output where
  enter := enter
  advance s p x := (call plan s p x, next plan s x p, emits plan s x p)
  world s ms := ({ s with clock := s.clock + ms }, [])

/-! ### The bill -/

variable {items items' : List ExtraItem} {newId : ℕ}

theorem le_billedOf {item : ExtraItem} (h : item ∈ items) : item.quantity ≤ billedOf items :=
  List.single_le_sum (fun _ _ => Nat.zero_le _) _ (List.mem_map_of_mem h)

theorem find_quantity_le_billedOf (items : List ExtraItem) (price : PlanId) :
    ((findExtraNumberItem items price).map (·.quantity)).getD 0 ≤ billedOf items := by
  cases h : findExtraNumberItem items price with
  | none => exact Nat.zero_le _
  | some item => exact le_billedOf (List.mem_of_find?_eq_some h)

theorem scheduleBilled_le (items : List ExtraItem) : scheduleBilled items ≤ billedOf items := by
  unfold scheduleBilled
  cases h : findExtraNumberItem items .starter with
  | none => exact find_quantity_le_billedOf items .pro
  | some item => exact le_billedOf (List.mem_of_find?_eq_some h)

def ItemWrite.Raises (items : List ExtraItem) : ItemWrite → Prop
  | .create .. => True
  | .update id _ quantity => ∀ item ∈ items, item.id = id → item.quantity ≤ quantity
  | .delete _ => False

instance decidableRaises (items : List ExtraItem) : ∀ w, Decidable (ItemWrite.Raises items w)
  | .create .. => inferInstanceAs (Decidable True)
  | .update id _ quantity =>
    inferInstanceAs (Decidable (∀ item ∈ items, item.id = id → item.quantity ≤ quantity))
  | .delete _ => inferInstanceAs (Decidable False)

theorem billed_le_applyWrite {w : ItemWrite} (hraises : w.Raises items)
    (h : applyWrite items newId w = some items') : billedOf items ≤ billedOf items' := by
  cases w with
  | create price quantity =>
    simp only [applyWrite] at h
    split at h
    · simp at h
    · obtain rfl := Option.some.inj h
      simp [billedOf]
  | update id price quantity =>
    simp only [applyWrite] at h
    split at h
    · obtain rfl := Option.some.inj h
      rw [billedOf, billedOf, List.map_map]
      refine List.sum_le_sum fun item hitem => ?_
      simp only [Function.comp_apply, writeItem]
      split
      · rename_i hid
        exact hraises item hitem hid
      · exact le_rfl
    · simp at h
  | delete id => exact hraises.elim

theorem le_billed_applyWrite {newId id quantity : ℕ} {price : Option PlanId}
    (h : applyWrite items newId (.update id price quantity) = some items') :
    quantity ≤ billedOf items' := by
  simp only [applyWrite] at h
  split at h
  · rename_i hcond
    obtain rfl := Option.some.inj h
    obtain ⟨item, hitem, hid⟩ := List.any_eq_true.1 hcond.1
    have hquantity : (writeItem id price quantity item).quantity = quantity := by
      simp [writeItem, of_decide_eq_true hid]
    have hle := le_billedOf (List.mem_map_of_mem (f := writeItem id price quantity) hitem)
    rwa [hquantity] at hle
  · simp at h

/-- A convergence bills at least what it lowers an item to, or takes it to the plan's price at. -/
theorem le_billed_lowerWrite {newId id quantity : ℕ}
    (h : applyWrite items newId (lowerWrite id quantity) = some items') :
    quantity ≤ billedOf items' := by
  unfold lowerWrite at h
  split at h
  · omega
  · exact le_billed_applyWrite h

theorem le_billed_migrateWrite {plan : PlanId} {newId id quantity : ℕ}
    (h : applyWrite items newId (migrateWrite plan id quantity) = some items') :
    quantity ≤ billedOf items' := by
  unfold migrateWrite at h
  split at h
  · omega
  · exact le_billed_applyWrite h

/-! ### One step -/

def Point.write (plan : PlanId) : Point → Option (Key × ItemWrite)
  | .buying key _ _ w => some (.buy key, w)
  | .lowering day itemId desired _ => some (.converge itemId desired day, lowerWrite itemId desired)
  | .migrating day itemId quantity _ =>
    some (.converge itemId quantity day, migrateWrite plan itemId quantity)
  | _ => none

/-- What a process is about to mirror into the column, with its epoch. -/
def Point.mirrors : Point → Option (ℕ × ℕ)
  | .syncing _ epoch quantity => some (quantity, epoch)
  | .mirroring epoch billed => some (billed, epoch)
  | _ => none

def Point.claims : Point → Bool
  | .claimingLower .. | .claimingMigrate .. => true
  | _ => false

/-- The column, the bill and the epoch after a step. -/
structure Moved (s t : Store) : Prop where
  paid : t.paid ≤ s.paid
  billed : t.billed = s.billed
  epoch : t.epoch = s.epoch

theorem Moved.refl (s : Store) : Moved s s := ⟨le_rfl, rfl, rfl⟩

theorem updateItems_cases (s : Store) (key : Key) (w : ItemWrite) :
    updateItems s key w = s ∨
      ∃ items, s.verdict key w = .fresh ∧ applyWrite s.items s.nextItemId w = some items ∧
        (updateItems s key w).items = items ∧ (updateItems s key w).paid = s.paid ∧
          (updateItems s key w).epoch = s.epoch := by
  cases hverdict : s.verdict key w with
  | fresh =>
    cases hwrite : applyWrite s.items s.nextItemId w with
    | none =>
      left
      simp only [updateItems, hverdict, hwrite]
    | some items =>
      right
      refine ⟨items, rfl, rfl, ?_⟩
      simp only [updateItems, hverdict, hwrite, and_self]
  | replayed | refused =>
    left
    simp only [updateItems, hverdict]

/-- **What a step does** to the column, the bill and the epoch: it lowers the column at most; or it
raises the column under a fresh epoch; or it claims; or it writes. -/
theorem ledger_call (plan : PlanId) (s : Store) (p : Point) (x : Await) :
    Moved s (call plan s p x) ∨
      (∃ billed, p.mirrors = some (billed, s.epoch) ∧ (call plan s p x).paid = billed ∧
        (call plan s p x).billed = s.billed ∧ (call plan s p x).epoch = s.epoch) ∨
      (p.claims = true ∧ call plan s p x = claimExtraLower s (planNumbers plan)) ∨
      ∃ key w items, p.write plan = some (key, w) ∧ x.outcome.lands = true ∧
        s.verdict key w = .fresh ∧ applyWrite s.items s.nextItemId w = some items ∧
        (call plan s p x).items = items ∧ (call plan s p x).paid = s.paid ∧
        (call plan s p x).epoch = s.epoch := by
  by_cases hlands : x.outcome.lands = true
  · have hsync : ∀ billed epoch, p.mirrors = some (billed, epoch) →
        call plan s p x = syncPaidExtraCapacity s billed epoch →
        Moved s (call plan s p x) ∨
          ∃ billed, p.mirrors = some (billed, s.epoch) ∧ (call plan s p x).paid = billed ∧
            (call plan s p x).billed = s.billed ∧ (call plan s p x).epoch = s.epoch := by
      intro billed epoch hmirrors hcall
      rw [hcall, syncPaidExtraCapacity]
      split
      · rename_i happlies
        rcases of_decide_eq_true happlies with hle | rfl
        · exact .inl ⟨hle, rfl, rfl⟩
        · exact .inr ⟨billed, hmirrors, rfl, rfl, rfl⟩
      · exact .inl (.refl s)
    have hwrite : ∀ key w, p.write plan = some (key, w) →
        call plan s p x = updateItems s key w →
        Moved s (call plan s p x) ∨
          ∃ key w items, p.write plan = some (key, w) ∧ x.outcome.lands = true ∧
            s.verdict key w = .fresh ∧ applyWrite s.items s.nextItemId w = some items ∧
            (call plan s p x).items = items ∧ (call plan s p x).paid = s.paid ∧
            (call plan s p x).epoch = s.epoch := by
      intro key w hp hcall
      rw [hcall]
      rcases updateItems_cases s key w with hsame | ⟨items, hfresh, happly, hitems, hpaid, hepoch⟩
      · rw [hsame]
        exact .inl (.refl s)
      · exact .inr ⟨key, w, items, hp, hlands, hfresh, happly, hitems, hpaid, hepoch⟩
    have hdeed : call plan s p x = deed plan s x.taken p := by
      rw [call, if_pos hlands]
    cases p with
    | syncing key epoch quantity =>
      exact (hsync quantity epoch rfl hdeed).imp_right .inl
    | mirroring epoch billed => exact (hsync billed epoch rfl hdeed).imp_right .inl
    | buying | lowering | migrating => exact (hwrite _ _ rfl hdeed).imp_right (.inr ∘ .inr)
    | claimingLower | claimingMigrate => exact .inr (.inr (.inl ⟨rfl, hdeed⟩))
    | provisioning key | porting key | enabling key =>
      left
      rw [hdeed]
      simp only [deed]
      split <;> exact ⟨le_rfl, rfl, rfl⟩
    | releasing key =>
      left
      rw [hdeed]
      exact ⟨le_rfl, rfl, rfl⟩
    | loadingCompany | findingReplay | countingToBuy | retrievingToBuy | verifying | readingEpoch
    | retrieving | counting =>
      left
      rw [hdeed]
      exact .refl s
  · left
    rw [call, if_neg hlands]
    exact .refl s

theorem admitted_within {s : Store} {included provisioningKey : ℕ} {capped taken : Bool}
    (h : slotOutcome s included provisioningKey capped taken = .created) :
    s.occupying < included + s.paid := by
  unfold slotOutcome at h
  split at h
  · simp at h
  · split at h
    · simp at h
    · split at h
      · simp at h
      · omega

end ExtraNumbers
