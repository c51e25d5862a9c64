/-
**The credit of a converted year.**

A plan change ends a prepaid year early: `convertPrepaidYear` of `apps/api/src/billing/prepay.ts`
closes the window, takes the coupon off, credits the customer's balance and stamps the row.
`sweepUncreditedConversions` credits and stamps the rows where that did not come to an end.  Both
make the credit under one idempotency key, which the provider forgets after a day.

A balance transaction is kept as the request that made it, which is what the provider remembers of
it.  Calls that fail alike are one step.

Main result:

* `PrepaidCredit.conversion_credited_once` — **a credit is made once in exactly the runs whose calls are in
  time.**
-/

import Texturion.Prepayments
import Texturion.Interleaving

namespace PrepaidCredit

open Prepay SqlTable Idempotency Interleaving
open Notices (PlanId dayMs)

/-! ### The provider -/

structure CreditParams where
  customer : ℕ
  amount : ℤ
  currency : String
  description : String
  prepaymentId : ℕ
  deriving DecidableEq

/-- A balance transaction: the request that made it, with its own id as the result. -/
abbrev BalanceTransaction := Record Key CreditParams ℕ

structure Store where
  rows : List Prepayment
  transactions : List BalanceTransaction
  clock : ℤ
  deriving DecidableEq

/-- The number of balance transactions that were made for a row. -/
def Store.paid (s : Store) (id : ℕ) : ℕ :=
  s.transactions.countP fun t => t.params.prepaymentId = id

def Store.verdict (s : Store) (params : CreditParams) : Verdict ℕ :=
  Idempotency.verdict dayMs s.transactions s.clock (.credit params.prepaymentId) params

/-- `stripe.customers.createBalanceTransaction`, under the key of the row. -/
def createBalanceTransaction (s : Store) (params : CreditParams) : Store :=
  match s.verdict params with
  | .fresh =>
    { s with
      transactions :=
        { key := .credit params.prepaymentId, params := params,
          result := s.transactions.length, madeAt := s.clock } :: s.transactions }
  | _ => s

/-- The id the caller is given; `none` is an error. -/
def balanceTransactionId (s : Store) (params : CreditParams) : Option ℕ :=
  match s.verdict params with
  | .fresh => some s.transactions.length
  | .replayed txn => some txn
  | .refused => none

/-! ### The two handlers -/

inductive Request
  | convertPrepaidYear (companyId : ℕ) (stripeCustomerId : Option ℕ) (toPlan : PlanId)
  | sweepUncreditedConversions
  deriving DecidableEq

/-- A row that `prepayments_awaiting_credit` answers. -/
structure AwaitingRow where
  prepaymentId : ℕ
  companyId : ℕ
  currency : String
  creditCents : ℤ
  convertedToPlan : Option PlanId
  deriving DecidableEq

/-- What a sweep returns. -/
structure Tally where
  credited : ℕ
  failed : ℕ
  deriving DecidableEq

/-- A step of a handler that is still to be made. -/
inductive Point
  | converting (companyId : ℕ) (stripeCustomerId : Option ℕ) (toPlan : PlanId)
  | uncouponing (row : Prepayment) (stripeCustomerId : Option ℕ) (toPlan : PlanId)
  | crediting (params : CreditParams)
  | stamping (prepaymentId txn : ℕ)
  | awaiting
  | findingCustomer (row : AwaitingRow) (rest : List AwaitingRow) (tally : Tally)
  | paying (params : CreditParams) (rest : List AwaitingRow) (tally : Tally)
  | marking (prepaymentId txn : ℕ) (rest : List AwaitingRow) (tally : Tally)
  deriving DecidableEq

/-- What comes of a call, and the customer a lookup finds. -/
structure Await where
  outcome : Outcome
  stripeCustomerId : Option ℕ
  deriving DecidableEq

inductive Output
  | credited (prepaymentId : ℕ)
  | swept (tally : Tally)
  deriving DecidableEq

def conversionDescription (plan toPlan : PlanId) : String :=
  "Unused portion of a prepaid " ++ planText plan ++ " year, credited on switching to " ++
    planText toPlan ++ "."

def sweepDescription (convertedToPlan : Option PlanId) : String :=
  "Unused portion of a prepaid year, credited on switching to " ++
    (convertedToPlan.map planText).getD "another plan" ++ "."

/-- The request of a plan change, from the row as it was converted. -/
def conversionParams (row : Prepayment) (customer : ℕ) (toPlan : PlanId) : CreditParams where
  customer := customer
  amount := -row.creditCents.getD 0
  currency := row.currency
  description := conversionDescription row.plan toPlan
  prepaymentId := row.id

def sweepParams (row : AwaitingRow) (customer : ℕ) : CreditParams where
  customer := customer
  amount := -row.creditCents
  currency := row.currency
  description := sweepDescription row.convertedToPlan
  prepaymentId := row.prepaymentId

def awaitingCredit (row : Prepayment) : Bool :=
  row.convertedAt.isSome ∧ row.creditedAt.isNone ∧ 0 < row.creditCents.getD 0

/-- `prepayments_awaiting_credit`, with a limit of 50. -/
def prepaymentsAwaitingCredit (rows : List Prepayment) : List AwaitingRow :=
  (firstBy (fun row => row.convertedAt.getD 0) 50 (rows.filter awaitingCredit)).map fun row =>
    { prepaymentId := row.id, companyId := row.companyId, currency := row.currency,
      creditCents := row.creditCents.getD 0, convertedToPlan := row.convertedToPlan }

def deed (s : Store) : Point → Store
  | .converting companyId _ toPlan =>
    match openPrepayment companyId s.clock s.rows with
    | none => s
    | some row =>
      { s with
        rows := update (fun r => r.id = row.id) (convertPrepayment toPlan s.clock) s.rows }
  | .crediting params | .paying params _ _ => createBalanceTransaction s params
  | .stamping id txn | .marking id txn _ _ =>
    { s with rows := update (fun r => r.id = id) (stampPrepaymentCredit txn s.clock) s.rows }
  | .uncouponing .. | .awaiting | .findingCustomer .. => s

def call (s : Store) (p : Point) (x : Await) : Store :=
  if x.outcome.lands then deed s p else s

def sweepRows (tally : Tally) : List AwaitingRow → Option Point × List Output
  | [] => (none, [.swept tally])
  | row :: rest => (some (.findingCustomer row rest tally), [])

/-- The failure of a row is logged, and the sweep goes on. -/
def failRow (tally : Tally) (rest : List AwaitingRow) : Option Point × List Output :=
  sweepRows { tally with failed := tally.failed + 1 } rest

/-- Where a handler goes from a step, given the store before it. -/
def next (s : Store) (x : Await) : Point → Option Point × List Output
  | .converting companyId customer toPlan =>
    match openPrepayment companyId s.clock s.rows with
    | some row =>
      if x.outcome.heard then
        (some (.uncouponing (convertPrepayment toPlan s.clock row) customer toPlan), [])
      else (none, [])
    | none => (none, [])
  | .uncouponing row customer toPlan =>
    match customer with
    | some customer =>
      if x.outcome.heard ∧ 0 < row.creditCents.getD 0 then
        (some (.crediting (conversionParams row customer toPlan)), [])
      else (none, [])
    | none => (none, [])
  | .crediting params =>
    match balanceTransactionId s params with
    | some txn =>
      if x.outcome.heard then (some (.stamping params.prepaymentId txn), []) else (none, [])
    | none => (none, [])
  | .stamping id _ => (none, if x.outcome.heard then [.credited id] else [])
  | .awaiting =>
    if x.outcome.heard then sweepRows ⟨0, 0⟩ (prepaymentsAwaitingCredit s.rows) else (none, [])
  | .findingCustomer row rest tally =>
    match x.stripeCustomerId with
    | some customer =>
      if x.outcome.heard then (some (.paying (sweepParams row customer) rest tally), [])
      else failRow tally rest
    | none => failRow tally rest
  | .paying params rest tally =>
    match balanceTransactionId s params with
    | some txn =>
      if x.outcome.heard then (some (.marking params.prepaymentId txn rest tally), [])
      else failRow tally rest
    | none => failRow tally rest
  | .marking id _ rest tally =>
    if x.outcome.heard then
      let onward := sweepRows { tally with credited := tally.credited + 1 } rest
      (onward.1, .credited id :: onward.2)
    else failRow tally rest

def enter : Request → Point
  | .convertPrepaidYear companyId customer toPlan => .converting companyId customer toPlan
  | .sweepUncreditedConversions => .awaiting

/-- The handlers; outside them only time passes. -/
def conversions : System Store Request Point Await ℕ Output where
  enter := enter
  advance s p x := (call s p x, next s x p)
  world s ms := ({ s with clock := s.clock + ms }, [])

/-! ### One call -/

variable {s : Store} {params : CreditParams} {p : Point} {x : Await}

theorem createBalanceTransaction_of_fresh (h : s.verdict params = .fresh) :
    createBalanceTransaction s params =
      { s with
        transactions :=
          { key := .credit params.prepaymentId, params := params,
            result := s.transactions.length, madeAt := s.clock } :: s.transactions } := by
  simp only [createBalanceTransaction, h]

theorem createBalanceTransaction_of_ne
    (h : s.verdict params ≠ .fresh) : createBalanceTransaction s params = s := by
  unfold createBalanceTransaction
  split
  · rename_i hfresh
    exact absurd hfresh h
  · rfl

theorem createBalanceTransaction_cases (s : Store) (params : CreditParams) :
    createBalanceTransaction s params = s ∨ s.verdict params = .fresh := by
  by_cases h : s.verdict params = .fresh
  · exact .inr h
  · exact .inl (createBalanceTransaction_of_ne h)

@[simp] theorem createBalanceTransaction_rows (s : Store) (params : CreditParams) :
    (createBalanceTransaction s params).rows = s.rows := by
  unfold createBalanceTransaction
  split <;> rfl

theorem paid_createBalanceTransaction (h : s.verdict params = .fresh) (id : ℕ) :
    (createBalanceTransaction s params).paid id =
      s.paid id + if params.prepaymentId = id then 1 else 0 := by
  rw [createBalanceTransaction_of_fresh h]
  simp [Store.paid, List.countP_cons]

/-- The credit call a handler is at. -/
def Point.credit : Point → Option CreditParams
  | .crediting params | .paying params _ _ => some params
  | _ => none

/-- **What a call does**: the transactions are as they were, or the handler is at its credit. -/
theorem transactions_call (s : Store) (p : Point) (x : Await) :
    (call s p x).transactions = s.transactions ∨
      ∃ params, p.credit = some params ∧ x.outcome.lands = true ∧ s.verdict params = .fresh ∧
        call s p x = createBalanceTransaction s params := by
  by_cases hlands : x.outcome.lands = true
  · simp only [call, hlands, if_true]
    cases p with
    | crediting params =>
      rcases createBalanceTransaction_cases s params with h | h
      · exact .inl (congrArg Store.transactions h)
      · exact .inr ⟨params, rfl, trivial, h, rfl⟩
    | paying params rest tally =>
      rcases createBalanceTransaction_cases s params with h | h
      · exact .inl (congrArg Store.transactions h)
      · exact .inr ⟨params, rfl, trivial, h, rfl⟩
    | converting companyId customer toPlan =>
      left
      simp only [deed]
      split <;> rfl
    | uncouponing | stamping | awaiting | findingCustomer | marking => exact .inl rfl
  · left
    simp only [call, hlands]
    rfl

theorem ids_call (s : Store) (p : Point) (x : Await) :
    (call s p x).rows.map (·.id) = s.rows.map (·.id) := by
  unfold call
  split
  · cases p with
    | crediting | paying => simp [deed]
    | converting companyId customer toPlan =>
      simp only [deed]
      split
      · rfl
      · refine map_update ?_ _
        exact fun row => rfl
    | stamping id txn | marking id txn rest tally =>
      exact map_update (stampPrepaymentCredit_id txn s.clock) _
    | uncouponing | awaiting | findingCustomer => rfl
  · rfl

def Store.Stamped (s : Store) (id : ℕ) : Prop :=
  id ∈ s.rows.map (·.id) ∧ ∀ row ∈ s.rows, row.id = id → row.creditedAt.isSome = true

theorem creditedAt_call {row : Prepayment} (hrow : row ∈ (call s p x).rows) :
    ∃ old ∈ s.rows, old.id = row.id ∧
      (old.creditedAt.isSome = true → row.creditedAt.isSome = true) := by
  unfold call at hrow
  split at hrow
  · cases p with
    | crediting | paying =>
      rw [deed, createBalanceTransaction_rows] at hrow
      exact ⟨row, hrow, rfl, id⟩
    | converting companyId customer toPlan =>
      simp only [deed] at hrow
      split at hrow
      · exact ⟨row, hrow, rfl, id⟩
      · rcases mem_update.1 hrow with ⟨hrow, -⟩ | ⟨old, hold, -, rfl⟩
        · exact ⟨row, hrow, rfl, id⟩
        · exact ⟨old, hold, rfl, id⟩
    | stamping rid txn | marking rid txn rest tally =>
      rcases mem_update.1 hrow with ⟨hrow, -⟩ | ⟨old, hold, -, rfl⟩
      · exact ⟨row, hrow, rfl, id⟩
      · exact ⟨old, hold, (stampPrepaymentCredit_id ..).symm,
          fun _ => isSome_creditedAt_stampPrepaymentCredit ..⟩
    | uncouponing | awaiting | findingCustomer => exact ⟨row, hrow, rfl, id⟩
  · exact ⟨row, hrow, rfl, id⟩

theorem stamped_call {id : ℕ} (p : Point) (x : Await) (h : s.Stamped id) :
    (call s p x).Stamped id := by
  refine ⟨by rw [ids_call]; exact h.1, fun row hrow hid => ?_⟩
  obtain ⟨old, hold, hsame, hkept⟩ := creditedAt_call hrow
  exact hkept (h.2 old hold (hsame.trans hid))

theorem stamped_stamp {id txn : ℕ} (h : id ∈ s.rows.map (·.id)) :
    Store.Stamped
      { s with rows := update (fun r => r.id = id) (stampPrepaymentCredit txn s.clock) s.rows }
      id := by
  constructor
  · have hids := map_update (p := fun r => r.id = id) (c := (·.id))
      (stampPrepaymentCredit_id txn s.clock) s.rows
    rw [hids]
    exact h
  · intro row hrow hid
    rcases mem_update.1 hrow with ⟨-, hspared⟩ | ⟨old, -, -, rfl⟩
    · exact absurd hid (of_decide_eq_false hspared)
    · exact isSome_creditedAt_stampPrepaymentCredit ..

/-! ### The two requests differ -/

/-! ### The invariant -/

/-- The rows are those of `ids`, every transaction has the key of its row, and no row has two. -/
structure Books (ids : List ℕ) (s : Store) : Prop where
  ids : s.rows.map (·.id) = ids
  keyed : ∀ t ∈ s.transactions, t.key = .credit t.params.prepaymentId
  once : ∀ id, s.paid id ≤ 1

/-- What a handler relies on: its rows are in the table, and what it is about to stamp has been
paid. -/
def Relies (ids : List ℕ) (s : Store) : Point → Prop
  | .converting .. | .awaiting => True
  | .uncouponing row _ _ => row.id ∈ ids
  | .crediting params => params.prepaymentId ∈ ids
  | .stamping id _ => id ∈ ids ∧ 0 < s.paid id
  | .findingCustomer row rest _ => row.prepaymentId ∈ ids ∧ ∀ r ∈ rest, r.prepaymentId ∈ ids
  | .paying params rest _ => params.prepaymentId ∈ ids ∧ ∀ r ∈ rest, r.prepaymentId ∈ ids
  | .marking id _ rest _ => (id ∈ ids ∧ 0 < s.paid id) ∧ ∀ r ∈ rest, r.prepaymentId ∈ ids

/-- **A call is in time**: a credit that the provider takes for a row which already has a
transaction is asked for within a day of it. -/
def InTime (s : State Store Point) : Input Request Await ℕ → Prop
  | .step n x => ∀ p ∈ s.running[n]?, ∀ params ∈ p.credit, x.outcome.lands = true →
      ∀ t ∈ s.store.transactions, t.params.prepaymentId = params.prepaymentId →
        s.store.clock < t.madeAt + dayMs
  | _ => True

variable {ids : List ℕ}

/-- A credit that is in time is made anew only where the row has none. -/
theorem paid_eq_zero_of_fresh (hs : Books ids s) (hfresh : s.verdict params = .fresh)
    (htime : ∀ t ∈ s.transactions, t.params.prepaymentId = params.prepaymentId →
      s.clock < t.madeAt + dayMs) : s.paid params.prepaymentId = 0 := by
  refine List.countP_eq_zero.2 fun t ht hid => ?_
  have hid' : t.params.prepaymentId = params.prepaymentId := of_decide_eq_true hid
  have hkey : t.key = .credit params.prepaymentId := by
    rw [hs.keyed t ht, hid']
  have hold := verdict_eq_fresh.1 hfresh t ht hkey
  have hyoung := htime t ht hid'
  omega

theorem paid_call_mono (s : Store) (p : Point) (x : Await) (id : ℕ) :
    s.paid id ≤ (call s p x).paid id := by
  rcases transactions_call s p x with h | ⟨params, -, -, hfresh, h⟩
  · rw [Store.paid, Store.paid, h]
  · rw [h, paid_createBalanceTransaction hfresh]
    exact Nat.le_add_right _ _

theorem books_call (hs : Books ids s) (htime : ∀ params ∈ p.credit, x.outcome.lands = true →
      ∀ t ∈ s.transactions, t.params.prepaymentId = params.prepaymentId →
        s.clock < t.madeAt + dayMs) : Books ids (call s p x) := by
  refine ⟨(ids_call s p x).trans hs.ids, ?_, fun id => ?_⟩
  · intro t ht
    rcases transactions_call s p x with h | ⟨params, -, -, hfresh, h⟩
    · rw [h] at ht
      exact hs.keyed t ht
    · rw [h, createBalanceTransaction_of_fresh hfresh] at ht
      rcases List.mem_cons.1 ht with rfl | ht
      · rfl
      · exact hs.keyed t ht
  · rcases transactions_call s p x with h | ⟨params, hcredit, hlands, hfresh, h⟩
    · rw [Store.paid, h]
      exact hs.once id
    · have hzero := paid_eq_zero_of_fresh hs hfresh (htime params hcredit hlands)
      have honce := hs.once id
      rw [h, paid_createBalanceTransaction hfresh]
      split
      · rename_i hid
        rw [← hid]
        omega
      · omega

theorem Relies.mono {s t : Store} (hpaid : ∀ id, s.paid id ≤ t.paid id)
    (h : Relies ids s p) : Relies ids t p := by
  cases p with
  | stamping id txn => exact ⟨h.1, Nat.lt_of_lt_of_le h.2 (hpaid id)⟩
  | marking id txn rest tally => exact ⟨⟨h.1.1, Nat.lt_of_lt_of_le h.1.2 (hpaid id)⟩, h.2⟩
  | converting | awaiting | uncouponing | crediting | findingCustomer | paying => exact h

/-- Where the caller of a credit is given an id, the row has been paid. -/
theorem paid_pos_of_id {txn : ℕ} (h : balanceTransactionId s params = some txn) :
    0 < (createBalanceTransaction s params).paid params.prepaymentId := by
  cases hv : s.verdict params with
  | fresh =>
    rw [paid_createBalanceTransaction hv]
    simp
  | replayed b =>
    obtain ⟨t, ht, -, hparams, -⟩ := verdict_of_replayed hv
    rw [createBalanceTransaction_of_ne (by simp [hv])]
    exact List.countP_pos_iff.2 ⟨t, ht, by simp [hparams]⟩
  | refused => simp [balanceTransactionId, hv] at h

theorem relies_sweepRows {tally : Tally} {rest : List AwaitingRow}
    (hrest : ∀ r ∈ rest, r.prepaymentId ∈ ids) (h : (sweepRows tally rest).1 = some p) :
    Relies ids s p := by
  cases rest with
  | nil => simp [sweepRows] at h
  | cons row rest =>
    obtain rfl := Option.some.inj h
    exact ⟨hrest row (List.mem_cons_self ..), fun r hr => hrest r (List.mem_cons_of_mem _ hr)⟩

theorem prepaymentId_mem_of_awaiting {rows : List Prepayment} {r : AwaitingRow}
    (hr : r ∈ prepaymentsAwaitingCredit rows) : r.prepaymentId ∈ rows.map (·.id) := by
  obtain ⟨row, hrow, rfl⟩ := List.mem_map.1 hr
  exact List.mem_map_of_mem (List.mem_of_mem_filter (mem_of_mem_firstBy hrow))

theorem call_of_heard (h : x.outcome.heard = true) : call s p x = deed s p := by
  rw [call, if_pos (Outcome.lands_of_heard h)]

/-- **A handler has what it relies on at its next step.** -/
theorem relies_next {p p' : Point} (hs : Books ids s) (hp : Relies ids s p)
    (hnext : (next s x p).1 = some p') : Relies ids (call s p x) p' := by
  cases p with
  | converting companyId customer toPlan =>
    simp only [next] at hnext
    split at hnext
    · rename_i row hopen
      split at hnext
      · obtain rfl := Option.some.inj hnext
        have hmem : row.id ∈ s.rows.map (·.id) :=
          List.mem_map_of_mem (mem_of_openPrepayment hopen).1
        exact hs.ids ▸ hmem
      · simp at hnext
    · simp at hnext
  | uncouponing row customer toPlan =>
    simp only [next] at hnext
    split at hnext
    · split at hnext
      · obtain rfl := Option.some.inj hnext
        exact hp
      · simp at hnext
    · simp at hnext
  | crediting params =>
    simp only [next] at hnext
    split at hnext
    · rename_i txn hid
      split at hnext
      · rename_i hheard
        obtain rfl := Option.some.inj hnext
        rw [call_of_heard hheard]
        exact ⟨hp, paid_pos_of_id hid⟩
      · simp at hnext
    · simp at hnext
  | stamping id txn => simp [next] at hnext
  | awaiting =>
    simp only [next] at hnext
    split at hnext
    · refine relies_sweepRows (fun r hr => ?_) hnext
      exact hs.ids ▸ prepaymentId_mem_of_awaiting hr
    · simp at hnext
  | findingCustomer row rest tally =>
    simp only [next] at hnext
    split at hnext
    · split at hnext
      · obtain rfl := Option.some.inj hnext
        exact hp
      · exact relies_sweepRows hp.2 hnext
    · exact relies_sweepRows hp.2 hnext
  | paying params rest tally =>
    simp only [next] at hnext
    split at hnext
    · rename_i txn hid
      split at hnext
      · rename_i hheard
        obtain rfl := Option.some.inj hnext
        rw [call_of_heard hheard]
        exact ⟨⟨hp.1, paid_pos_of_id hid⟩, hp.2⟩
      · exact relies_sweepRows hp.2 hnext
    · exact relies_sweepRows hp.2 hnext
  | marking id txn rest tally =>
    simp only [next] at hnext
    split at hnext
    · exact relies_sweepRows hp.2 hnext
    · exact relies_sweepRows hp.2 hnext

/-! ### A run -/

/-- What comes with a row that is reported as credited. -/
def Fact : Output → Store → Prop
  | .credited id, s => 0 < s.paid id ∧ s.Stamped id
  | .swept _, _ => True

theorem fact_call {o : Output} (p : Point) (x : Await) (h : Fact o s) : Fact o (call s p x) := by
  cases o with
  | credited id => exact ⟨Nat.lt_of_lt_of_le h.1 (paid_call_mono s p x id), stamped_call p x h.2⟩
  | swept tally => trivial

theorem fact_sweepRows {tally : Tally} {rest : List AwaitingRow} :
    ∀ o ∈ (sweepRows tally rest).2, Fact o s := by
  intro o ho
  cases rest with
  | nil =>
    obtain rfl := List.mem_singleton.1 ho
    trivial
  | cons row rest => exact absurd ho List.not_mem_nil

theorem fact_next (hs : Books ids s) (hp : Relies ids s p) :
    ∀ o ∈ (next s x p).2, Fact o (call s p x) := by
  intro o ho
  cases p with
  | stamping id txn =>
    simp only [next] at ho
    split at ho
    · rename_i hheard
      obtain rfl := List.mem_singleton.1 ho
      have hpaid : 0 < (call s (.stamping id txn) x).paid id :=
        Nat.lt_of_lt_of_le hp.2 (paid_call_mono ..)
      refine ⟨hpaid, ?_⟩
      rw [call_of_heard hheard]
      exact stamped_stamp (hs.ids ▸ hp.1)
    · exact absurd ho List.not_mem_nil
  | marking id txn rest tally =>
    simp only [next] at ho
    split at ho
    · rename_i hheard
      rcases List.mem_cons.1 ho with rfl | ho
      · have hpaid : 0 < (call s (.marking id txn rest tally) x).paid id :=
          Nat.lt_of_lt_of_le hp.1.2 (paid_call_mono ..)
        refine ⟨hpaid, ?_⟩
        rw [call_of_heard hheard]
        exact stamped_stamp (hs.ids ▸ hp.1.1)
      · exact fact_sweepRows o ho
    · exact fact_sweepRows o ho
  | awaiting =>
    simp only [next] at ho
    split at ho
    · exact fact_sweepRows o ho
    · exact absurd ho List.not_mem_nil
  | findingCustomer | paying =>
    simp only [next] at ho
    split at ho
    · split at ho
      · exact absurd ho List.not_mem_nil
      · exact fact_sweepRows o ho
    · exact fact_sweepRows o ho
  | converting | uncouponing | crediting =>
    simp only [next] at ho
    split at ho
    · split at ho <;> exact absurd ho List.not_mem_nil
    · exact absurd ho List.not_mem_nil

theorem due_time {ids : List ℕ} {s : State Store Point} {n : ℕ}
    (h : Due (Books ids) (Relies ids) (fun _ _ => True) InTime s n x p) :
    ∀ params ∈ p.credit, x.outcome.lands = true →
      ∀ t ∈ s.store.transactions, t.params.prepaymentId = params.prepaymentId →
        s.store.clock < t.madeAt + dayMs :=
  h.meets p h.point

theorem nonInterfering (ids : List ℕ) :
    NonInterfering conversions (Books ids) (Relies ids) (fun _ _ => True) InTime
      (fun _ => True) where
  symm _ _ _ := trivial
  enter s r _ _ := by cases r <;> trivial
  alone _ _ := trivial
  advance s n x p h := books_call h.sound.store (due_time h)
  next s n x p p' h hnext := relies_next h.sound.store h.relies hnext
  others s n x p q h hq _ :=
    (h.sound.running q (List.mem_of_mem_eraseIdx hq)).mono (paid_call_mono s.store p x)
  apart _ _ _ _ _ _ _ _ _ _ := trivial
  emits _ _ _ _ _ _ _ := trivial
  world s ms h _ := ⟨⟨h.store.ids, h.store.keyed, h.store.once⟩,
    fun p hp => (h.running p hp).mono fun _ => le_rfl, fun _ _ => trivial⟩

/-- **A credit is made once**: whenever one looks, no row has two transactions, and a row that was
reported as credited has one and is stamped. -/
def CreditedOnce (s : State Store Point) (is : List (Input Request Await ℕ)) : Prop :=
  ∀ js ks, is = js ++ ks →
    (∀ id, (Reactive.final (step conversions) s js).store.paid id ≤ 1) ∧
      ∀ id, .credited id ∈ Reactive.outputs (step conversions) s js →
        (Reactive.final (step conversions) s js).store.paid id = 1 ∧
          (Reactive.final (step conversions) s js).store.Stamped id

theorem creditedOnce_of_inTime (hs : Books ids s) {is : List (Input Request Await ℕ)}
    (htime : Reactive.Along (step conversions) InTime ⟨s, []⟩ is) : CreditedOnce ⟨s, []⟩ is := by
  rintro js ks rfl
  have hjs := ((Reactive.along_append (step conversions) InTime ⟨s, []⟩ js ks).1 htime).1
  have hstart : Sound (Books ids) (Relies ids) (fun _ _ => True)
      (⟨s, []⟩ : State Store Point) := by
    exact ⟨hs, fun p hp => absurd hp List.not_mem_nil, List.Pairwise.nil⟩
  have hfinal := (nonInterfering ids).final hstart hjs
  refine ⟨hfinal.store.once, fun id hid => ?_⟩
  have hfact := (nonInterfering ids).facts Fact
    (fun s n x p h => fact_next h.sound.store h.relies)
    (fun _ _ _ _ o ho => absurd ho List.not_mem_nil)
    (fun s n x p o _ h => fact_call p x h)
    (fun s ms o _ _ h => by cases o <;> exact h) hstart hjs _ hid
  have honce := hfinal.store.once id
  have hpaid := hfact.1
  exact ⟨by omega, hfact.2⟩

theorem eq_of_paid_le_one {id : ℕ} (h : s.paid id ≤ 1) {t t' : BalanceTransaction}
    (ht : t ∈ s.transactions) (ht' : t' ∈ s.transactions) (hid : t.params.prepaymentId = id)
    (hid' : t'.params.prepaymentId = id) : t = t' := by
  rw [Store.paid, List.countP_eq_length_filter] at h
  have hmem : t ∈ s.transactions.filter fun t => t.params.prepaymentId = id :=
    List.mem_filter.2 ⟨ht, decide_eq_true hid⟩
  have hmem' : t' ∈ s.transactions.filter fun t => t.params.prepaymentId = id :=
    List.mem_filter.2 ⟨ht', decide_eq_true hid'⟩
  match hlist : s.transactions.filter fun t => t.params.prepaymentId = id with
  | [] => simp [hlist] at hmem
  | [a] =>
    rw [hlist] at hmem hmem'
    rw [List.mem_singleton.1 hmem, List.mem_singleton.1 hmem']
  | a :: b :: rest => simp [hlist] at h

theorem paid_twice_of_late (hs : Books ids s) (hcredit : p.credit = some params)
    (hlands : x.outcome.lands = true) {t : BalanceTransaction} (ht : t ∈ s.transactions)
    (hid : t.params.prepaymentId = params.prepaymentId) (hlate : t.madeAt + dayMs ≤ s.clock) :
    1 < (call s p x).paid params.prepaymentId := by
  have hfresh : s.verdict params = .fresh := by
    refine verdict_eq_fresh.2 fun r hr hkey => ?_
    have hr' : r.params.prepaymentId = params.prepaymentId :=
      Key.credit.inj ((hs.keyed r hr).symm.trans hkey)
    rw [eq_of_paid_le_one (hs.once _) hr ht hr' hid]
    exact hlate
  have hcall : call s p x = createBalanceTransaction s params := by
    simp only [call, hlands, if_true]
    cases p with
    | crediting | paying =>
      obtain rfl := Option.some.inj hcredit
      rfl
    | converting | uncouponing | stamping | awaiting | findingCustomer | marking =>
      simp [Point.credit] at hcredit
  have hpos : 0 < s.paid params.prepaymentId :=
    List.countP_pos_iff.2 ⟨t, ht, decide_eq_true hid⟩
  rw [hcall, paid_createBalanceTransaction hfresh, if_pos rfl]
  omega

theorem inTime_of_creditedOnce {s : State Store Point}
    (hs : Sound (Books ids) (Relies ids) (fun _ _ => True) s) {is : List (Input Request Await ℕ)}
    (h : CreditedOnce s is) : Reactive.Along (step conversions) InTime s is := by
  induction is generalizing s with
  | nil => trivial
  | cons i is ih =>
    have htime : InTime s i := by
      cases i with
      | step n x =>
        intro p hp params hcredit hlands t ht hid
        by_contra hlate
        have htwice := paid_twice_of_late (x := x) hs.store hcredit hlands ht hid
          (not_lt.1 hlate)
        have honce := (h [.step n x] is rfl).1 params.prepaymentId
        have hstep : (step conversions s (.step n x)).1.store = call s.store p x := by
          simp only [step, Option.mem_def.1 hp, conversions]
        rw [Reactive.final_cons, Reactive.final_nil, hstep] at honce
        omega
      | start | crash | world => trivial
    refine ⟨htime, ih ((nonInterfering ids).step hs htime).1 ?_⟩
    rintro js ks rfl
    obtain ⟨honce, hcredited⟩ := h (i :: js) ks rfl
    refine ⟨honce, fun id hid => hcredited id ?_⟩
    rw [Reactive.outputs_cons]
    exact List.mem_append_right _ hid

/-- **A credit is made once in exactly the runs whose calls are in time.** -/
theorem conversion_credited_once {s : Store} (hs : Books ids s)
    (is : List (Input Request Await ℕ)) :
    CreditedOnce ⟨s, []⟩ is ↔ Reactive.Along (step conversions) InTime ⟨s, []⟩ is := by
  constructor
  · intro h
    have hstart : Sound (Books ids) (Relies ids) (fun _ _ => True)
        (⟨s, []⟩ : State Store Point) :=
      ⟨hs, fun p hp => absurd hp List.not_mem_nil, List.Pairwise.nil⟩
    exact inTime_of_creditedOnce hstart h
  · exact creditedOnce_of_inTime hs

def starterYear : Prepayment :=
  { Prepayment.fresh 1 1 1 .starter 29000 "usd" 12 none with
    grantedAt := some 1767225600000, grantedThrough := some 1798761600000 }

def creditStore : Store where
  rows := [starterYear]
  transactions := []
  clock := 1773532800000

theorem creditStore_books : Books [1] creditStore :=
  ⟨rfl, fun _ ht => absurd ht List.not_mem_nil, fun _ => Nat.zero_le 1⟩

def answered : Await := { outcome := .done, stripeCustomerId := some 5 }

def unheard : Await := { answered with outcome := .unheard }

/-- The stamp of a plan change is lost, and a sweep in the next hour is refused. -/
def refusedRun : List (Input Request Await ℕ) :=
  [.start (.convertPrepaidYear 1 (some 5) .pro), .step 0 answered, .step 0 answered,
    .step 0 unheard, .world 3600000, .start .sweepUncreditedConversions, .step 0 answered,
    .step 0 answered, .step 0 answered]

theorem conversion_credited_once_refused :
    CreditedOnce ⟨creditStore, []⟩ refusedRun ↔
      Reactive.Along (step conversions) InTime ⟨creditStore, []⟩ refusedRun :=
  conversion_credited_once creditStore_books refusedRun

/-- The same plan change, and a sweep a day later: the year's remainder is paid twice. -/
theorem conversion_credited_twice :
    (Reactive.final (step conversions) ⟨creditStore, []⟩
        (refusedRun ++ [.world 86400000, .start .sweepUncreditedConversions, .step 0 answered,
          .step 0 answered, .step 0 answered, .step 0 answered])).store.paid 1 = 2 ∧
      Reactive.outputs (step conversions) ⟨creditStore, []⟩
        (refusedRun ++ [.world 86400000, .start .sweepUncreditedConversions, .step 0 answered,
          .step 0 answered, .step 0 answered, .step 0 answered]) =
        [.swept ⟨0, 1⟩, .credited 1, .swept ⟨1, 0⟩] := by
  decide +kernel

end PrepaidCredit
