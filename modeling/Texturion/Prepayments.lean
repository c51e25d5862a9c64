/-
**Prepaid years.**

A row of `prepayments` is the record of a year that was bought up front: the discount on the
subscription is a projection of it.  The functions of two migrations, `20260801070000` (a prepaid
year) and `20260813020000` (a prepaid year can end early and pay the rest back), each change such a
row in one atomic step, and each is given here with the `where` clause it has.

Times are milliseconds; ids of companies, sessions, customers and payment intents are numbers.

Main result:

* `Prepay.isOpen_iff` — what an open window is.
-/

import Texturion.Calendar
import Texturion.SqlTable
import Texturion.IdempotencyKeys
import Texturion.LedgeredNotices

namespace Prepay

open Calendar (daysFromCivil)
open Calls (civilFromDays)
open Notices (PlanId dayMs)

/-! ### Months -/

/-- The year and the month that are `n` months after the month of a day. -/
def monthAfter (days : ℤ) (n : ℤ) : ℤ × ℕ :=
  let months := (civilFromDays days).1 * 12 + ((civilFromDays days).2.1 : ℤ) - 1 + n
  (months / 12, (months % 12).toNat + 1)

/-- `date.setUTCMonth(date.getUTCMonth() + n)`: a day past the end of the month runs on. -/
def setUTCMonth (t : ℤ) (n : ℤ) : ℤ :=
  let days := t / dayMs
  daysFromCivil (monthAfter days n).1 (monthAfter days n).2 (civilFromDays days).2.2 * dayMs +
    t % dayMs

/-- `t + make_interval(months => n)`: a day past the end of the month is its last day. -/
def addMonths (t : ℤ) (n : ℤ) : ℤ :=
  let days := t / dayMs
  let next := daysFromCivil (monthAfter days (n + 1)).1 (monthAfter days (n + 1)).2 1
  min (daysFromCivil (monthAfter days n).1 (monthAfter days n).2 (civilFromDays days).2.2)
      (next - 1) * dayMs +
    t % dayMs

/-! ### The row -/

def prepayMonths : ℕ := 12

def planText : PlanId → String
  | .starter => "starter"
  | .pro => "pro"

structure Prepayment where
  id : ℕ
  companyId : ℕ
  stripeSessionId : ℕ
  plan : PlanId
  amountCents : ℤ
  currency : String
  monthsGranted : ℕ
  stripePaymentIntent : Option ℕ
  stripeDiscountId : Option String
  grantedAt : Option ℤ
  grantedThrough : Option ℤ
  revokedAt : Option ℤ
  revokedReason : Option String
  convertedAt : Option ℤ
  convertedToPlan : Option PlanId
  creditCents : Option ℤ
  creditedAt : Option ℤ
  stripeCreditTxn : Option ℕ
  deriving DecidableEq

/-- A row as `claim_prepayment` inserts it. -/
def Prepayment.fresh (id companyId stripeSessionId : ℕ) (plan : PlanId) (amountCents : ℤ)
    (currency : String) (months : ℕ) (paymentIntent : Option ℕ) : Prepayment where
  id := id
  companyId := companyId
  stripeSessionId := stripeSessionId
  plan := plan
  amountCents := amountCents
  currency := currency
  monthsGranted := months
  stripePaymentIntent := paymentIntent
  stripeDiscountId := none
  grantedAt := none
  grantedThrough := none
  revokedAt := none
  revokedReason := none
  convertedAt := none
  convertedToPlan := none
  creditCents := none
  creditedAt := none
  stripeCreditTxn := none

/-! ### Claim, stamp, revoke

A session has one row at most, which these three are given. -/

inductive ClaimOutcome
  | claimed
  | resume
  | granted
  | revoked
  deriving DecidableEq

def claimOutcome : Option Prepayment → ClaimOutcome
  | none => .claimed
  | some row =>
      if row.revokedAt.isSome then .revoked
      else if row.grantedAt.isNone then .resume
      else .granted

/-- `claim_prepayment`: insert the row, on conflict do nothing. -/
def claimPrepayment (new : Prepayment) (row : Option Prepayment) : Option Prepayment :=
  row.or (some new)

/-- `stamp_prepayment`, where granted_at is null. -/
def stampPrepayment (discountId : String) (grantedThrough now : ℤ) (row : Prepayment) :
    Prepayment :=
  if row.grantedAt.isNone then
    { row with
      stripeDiscountId := some discountId, grantedAt := some now,
      grantedThrough := some grantedThrough }
  else row

/-- `revoke_prepayment`, where revoked_at is null. -/
def revokePrepayment (reason : String) (now : ℤ) (row : Prepayment) : Prepayment :=
  if row.revokedAt.isNone then { row with revokedAt := some now, revokedReason := some reason }
  else row

theorem stampPrepayment_of_granted {row : Prepayment} (h : row.grantedAt.isSome)
    (discountId : String) (grantedThrough now : ℤ) :
    stampPrepayment discountId grantedThrough now row = row := by
  rw [stampPrepayment, if_neg]
  cases hg : row.grantedAt with
  | none => simp [hg] at h
  | some t => simp

@[simp] theorem stampPrepayment_revokedAt (discountId : String) (grantedThrough now : ℤ)
    (row : Prepayment) :
    (stampPrepayment discountId grantedThrough now row).revokedAt = row.revokedAt := by
  unfold stampPrepayment
  split <;> rfl

/-! ### The window, and its conversion -/

/-- Granted, not taken back, and not over. -/
def Prepayment.isOpen (now : ℤ) (row : Prepayment) : Bool :=
  row.grantedAt.isSome ∧ row.revokedAt.isNone ∧ ∃ through ∈ row.grantedThrough, now < through

/-- The open window of a company that is the last to end. -/
def openPrepayment (companyId : ℕ) (now : ℤ) (rows : List Prepayment) : Option Prepayment :=
  (SqlTable.firstBy (fun row => -row.grantedThrough.getD 0) 1
    (rows.filter fun row => row.companyId = companyId ∧ row.isOpen now)).head?

/-- The whole months since the year was granted, of those that were granted. -/
def consumedMonths (now : ℤ) (row : Prepayment) : ℕ :=
  ((List.range row.monthsGranted).filter fun m =>
    addMonths (row.grantedAt.getD now) ((m : ℤ) + 1) ≤ now).length

/-- What is owed for the months that are left. -/
def creditCents (now : ℤ) (row : Prepayment) : ℤ :=
  max 0 (row.amountCents - row.amountCents * (consumedMonths now row : ℤ) / row.monthsGranted)

/-- The update of `convert_prepayment`: the window closes, and the amount owed is recorded. -/
def convertPrepayment (toPlan : PlanId) (now : ℤ) (row : Prepayment) : Prepayment :=
  { row with
    convertedAt := some now, convertedToPlan := some toPlan,
    creditCents := some (creditCents now row), revokedAt := some now,
    revokedReason := some ("converted_to_" ++ planText toPlan) }

/-- `stamp_prepayment_credit`, where credited_at is null. -/
def stampPrepaymentCredit (txn : ℕ) (now : ℤ) (row : Prepayment) : Prepayment :=
  if row.creditedAt.isNone then
    { row with creditedAt := some now, stripeCreditTxn := some txn }
  else row

theorem isOpen_iff {now : ℤ} {row : Prepayment} :
    row.isOpen now = true ↔
      row.grantedAt.isSome ∧ row.revokedAt.isNone ∧
        ∃ through ∈ row.grantedThrough, now < through := by
  simp [Prepayment.isOpen]

theorem isSome_creditedAt_stampPrepaymentCredit (txn : ℕ) (now : ℤ) (row : Prepayment) :
    (stampPrepaymentCredit txn now row).creditedAt.isSome = true := by
  unfold stampPrepaymentCredit
  split
  · rfl
  · rename_i h
    cases hc : row.creditedAt with
    | none => simp [hc] at h
    | some t => rfl

@[simp] theorem stampPrepaymentCredit_id (txn : ℕ) (now : ℤ) (row : Prepayment) :
    (stampPrepaymentCredit txn now row).id = row.id := by
  unfold stampPrepaymentCredit
  split <;> rfl

theorem mem_of_openPrepayment {companyId : ℕ} {now : ℤ} {rows : List Prepayment}
    {row : Prepayment} (h : openPrepayment companyId now rows = some row) :
    row ∈ rows ∧ row.companyId = companyId ∧ row.isOpen now = true := by
  have hmem : row ∈ rows.filter fun row => row.companyId = companyId ∧ row.isOpen now :=
    SqlTable.mem_of_mem_firstBy (List.mem_of_head? h)
  simpa using hmem

/-! ### Keys -/

/-- The idempotency keys of the calls: `prepay_grant:` with the session, `prepay_reassert:` with
the session and the months, and `prepay-credit:` with the row. -/
inductive Key
  | grant (sessionId : ℕ)
  | reassert (sessionId months : ℕ)
  | credit (prepaymentId : ℕ)
  deriving DecidableEq

/-- A year runs from 31 January, and its first month is over on 1 March for a JavaScript date and
on 28 February for the database. -/
example : setUTCMonth 1769817600000 1 = 1772496000000 ∧
    addMonths 1769817600000 1 = 1772236800000 := by
  decide

end Prepay
