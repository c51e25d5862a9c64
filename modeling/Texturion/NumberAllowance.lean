/-
**Numbers brought back within an allowance.**

`claim_number_allowance` of the migration `20260805120000` settles the numbers of a company against
the ones its plan includes and the ones it pays for: under the lock of the company's row it writes
the paid capacity, counts what is occupied, and brings back as many of the suspended numbers as
there is room for, the oldest first.  A purchase names one number; that one comes first, and if it
cannot come back nothing is written.  A raise of the capacity has to carry the epoch that was read
before the billed figure was, as in `sync_paid_extra_capacity` and `claim_extra_lower` of
`20260710001000`.

Main results:

* `NumberAllowance.perm_restoring` — **the first so many** of the queue are the ones brought back;
* `NumberAllowance.allowance_law` — **what a claim does**.
-/

import Texturion.SqlTable

namespace NumberAllowance

/-! ### The tables -/

inductive NumberStatus
  | provisioning
  | active
  | suspended
  | released
  | provisionFailed
  | portedOut
  deriving DecidableEq

/-- A row of `phone_numbers`. -/
structure PhoneNumber where
  id : ℕ
  companyId : ℕ
  numberE164 : Option String
  createdAt : ℤ
  status : NumberStatus
  suspendedAt : Option ℤ
  deriving DecidableEq

/-- A row of `companies`: `paid_extra_numbers` and `paid_capacity_epoch`. -/
structure Company where
  id : ℕ
  paid : ℕ
  epoch : ℕ
  deriving DecidableEq

/-- The two tables; the identifier of a number is its primary key. -/
structure Tables where
  companies : List Company
  numbers : List PhoneNumber
  nodup : (numbers.map (·.id)).Nodup

namespace Tables

variable (s : Tables) (companyId : ℕ)

def company : Option Company := s.companies.find? fun c => c.id = companyId

def paid : ℕ := ((s.company companyId).map (·.paid)).getD 0

def epoch : ℕ := ((s.company companyId).map (·.epoch)).getD 0

def isHeld (n : PhoneNumber) : Bool := n.companyId = companyId ∧ n.status = .suspended

def heldNumbers : List PhoneNumber := s.numbers.filter (isHeld companyId)

def isOccupying (n : PhoneNumber) : Bool :=
  n.companyId = companyId ∧ n.status ≠ .released ∧ n.status ≠ .suspended

def occupied : ℕ := s.numbers.countP (isOccupying companyId)

def isActive (n : PhoneNumber) : Bool := n.companyId = companyId ∧ n.status = .active

def active : ℕ := s.numbers.countP (isActive companyId)

/-- `update companies set … where id = …`. -/
def setCapacity (capacity epoch : ℕ) : Tables :=
  { s with
    companies := SqlTable.update (fun c => c.id = companyId)
      (fun c => { c with paid := capacity, epoch := epoch }) s.companies }

end Tables

/-- A number brought back. -/
def restored (n : PhoneNumber) : PhoneNumber := { n with status := .active, suspendedAt := none }

/-- `update phone_numbers set status = 'active', suspended_at = null where …`. -/
def Tables.restoreWhere (s : Tables) (p : PhoneNumber → Bool) : Tables where
  companies := s.companies
  numbers := SqlTable.update p restored s.numbers
  nodup := by
    have hids : (SqlTable.update p restored s.numbers).map (·.id) = s.numbers.map (·.id) := by
      refine SqlTable.map_update ?_ _
      intro n
      rfl
    rw [hids]
    exact s.nodup

/-! ### The order -/

/-- `created_at, id`. -/
def older (a b : PhoneNumber) : Prop :=
  a.createdAt < b.createdAt ∨ a.createdAt = b.createdAt ∧ a.id < b.id

instance (a b : PhoneNumber) : Decidable (older a b) := inferInstanceAs (Decidable (_ ∨ _))

/-- The number a purchase named comes first. -/
def preference (preferId : Option ℕ) (n : PhoneNumber) : ℕ := if some n.id = preferId then 0 else 1

/-- `order by (case when id = p_prefer_id then 0 else 1 end), created_at, id`. -/
def before (preferId : Option ℕ) (a b : PhoneNumber) : Bool :=
  preference preferId a < preference preferId b ∨
    preference preferId a = preference preferId b ∧ older a b

def byAge (rows : List PhoneNumber) : List PhoneNumber :=
  rows.insertionSort fun a b => ¬ older b a

/-! ### The functions -/

structure ClaimArgs where
  companyId : ℕ
  included : Option ℤ
  paidExtras : Option ℤ
  expectedEpoch : Option ℕ
  preferId : Option ℕ
  deriving DecidableEq

inductive ClaimError
  | paidExtras
  | companyNotFound (companyId : ℕ)
  | included
  deriving DecidableEq

def ClaimError.message : ClaimError → String
  | .paidExtras => "claim_number_allowance: p_paid_extras must be >= 0"
  | .companyNotFound companyId =>
      "claim_number_allowance: company " ++ toString companyId ++ " not found"
  | .included => "claim_number_allowance: p_included must be >= 0"

/-- The object the function returns.  `capacity_fenced` is absent where the plan is unknown. -/
structure Claim where
  applied : Bool
  planKnown : Bool
  allowance : Option ℤ
  capacity : ℕ
  capacityFenced : Option Bool
  restored : List (ℕ × Option String)
  held : List (ℕ × Option String × Option ℤ)
  deriving DecidableEq

def restoredReport (rows : List PhoneNumber) : List (ℕ × Option String) :=
  (byAge rows).map fun n => (n.id, n.numberE164)

def heldReport (rows : List PhoneNumber) : List (ℕ × Option String × Option ℤ) :=
  (byAge rows).map fun n => (n.id, n.numberE164, n.suspendedAt)

/-- The epoch that comes with a raise is not the current one. -/
def isFenced (company : Company) (paidExtras : ℤ) (expectedEpoch : Option ℕ) : Bool :=
  (company.paid : ℤ) < paidExtras ∧ expectedEpoch ≠ some company.epoch

/-- `v_capacity`. -/
def capacityOf (company : Company) (paidExtras : ℤ) (expectedEpoch : Option ℕ) : ℕ :=
  if isFenced company paidExtras expectedEpoch then company.paid else paidExtras.toNat

/-- `v_budget`. -/
def budgetOf (s : Tables) (companyId : ℕ) (allowance : ℤ) : ℕ :=
  (allowance - s.occupied companyId).toNat

def restoring (s : Tables) (companyId : ℕ) (preferId : Option ℕ) (budget : ℕ) :
    List PhoneNumber :=
  (s.heldNumbers companyId).filter fun n =>
    decide (SqlTable.rowNumber (before preferId) (s.heldNumbers companyId) n ≤ budget)

/-- `where pn.id = c.id` for one of the candidates `c` within the budget. -/
def isRestoring (s : Tables) (companyId : ℕ) (preferId : Option ℕ) (budget : ℕ)
    (n : PhoneNumber) : Bool :=
  (restoring s companyId preferId budget).any fun c => c.id = n.id

def settle (s : Tables) (companyId capacity epoch : ℕ) (preferId : Option ℕ) (budget : ℕ) :
    Tables :=
  (s.setCapacity companyId capacity epoch).restoreWhere (isRestoring s companyId preferId budget)

/-- The row a purchase named is suspended, and the company's. -/
def isWanted (s : Tables) (companyId id : ℕ) : Bool :=
  s.numbers.any fun n => n.id = id ∧ n.companyId = companyId ∧ n.status = .suspended

/-- A purchase that cannot be delivered. -/
def isRefused (s : Tables) (companyId : ℕ) (preferId : Option ℕ) (budget : ℕ) (fenced : Bool) :
    Bool :=
  match preferId with
  | none => false
  | some id => !isWanted s companyId id || budget < 1 || fenced

/-- The function from the lock on, for a plan that is known. -/
def claimKnown (s : Tables) (a : ClaimArgs) (company : Company) (included paidExtras : ℤ) :
    Tables × Claim :=
  let fenced := isFenced company paidExtras a.expectedEpoch
  let capacity := capacityOf company paidExtras a.expectedEpoch
  let allowance := included + capacity
  let budget := budgetOf s a.companyId allowance
  if isRefused s a.companyId a.preferId budget fenced then
    (s,
      { applied := false
        planKnown := true
        allowance := some (included + company.paid)
        capacity := company.paid
        capacityFenced := some fenced
        restored := []
        held := heldReport (s.heldNumbers a.companyId) })
  else
    let t := settle s a.companyId capacity (company.epoch + 1) a.preferId budget
    (t,
      { applied := true
        planKnown := true
        allowance := some allowance
        capacity := capacity
        capacityFenced := some fenced
        restored := restoredReport (restoring s a.companyId a.preferId budget)
        held := heldReport (t.heldNumbers a.companyId) })

/-- The plan could not be read: everything comes back, and the capacity stays. -/
def claimUnknown (s : Tables) (a : ClaimArgs) (company : Company) : Tables × Claim :=
  (s.restoreWhere (Tables.isHeld a.companyId),
    { applied := true
      planKnown := false
      allowance := none
      capacity := company.paid
      capacityFenced := none
      restored := restoredReport (s.heldNumbers a.companyId)
      held := [] })

def claimNumberAllowance (s : Tables) (a : ClaimArgs) : Except ClaimError (Tables × Claim) :=
  match a.paidExtras with
  | none => .error .paidExtras
  | some paidExtras =>
    if paidExtras < 0 then .error .paidExtras
    else
      match s.company a.companyId with
      | none => .error (.companyNotFound a.companyId)
      | some company =>
        match a.included with
        | none => .ok (claimUnknown s a company)
        | some included =>
          if included < 0 then .error .included
          else .ok (claimKnown s a company included paidExtras)

/-- `sync_paid_extra_capacity`; `none` is an exception, and the flag is `applied`. -/
def syncPaidExtraCapacity (s : Tables) (companyId : ℕ) (billed : ℤ) (expectedEpoch : Option ℕ) :
    Option (Tables × Bool) :=
  if billed < 0 then none
  else
    match s.company companyId with
    | none => none
    | some company =>
      if isFenced company billed expectedEpoch then some (s, false)
      else some (s.setCapacity companyId billed.toNat company.epoch, true)

/-! ### The queue -/

/-- The order without the cases: the preferred one, then the older one, then the smaller id. -/
theorem before_iff {preferId : Option ℕ} {a b : PhoneNumber} :
    before preferId a b = true ↔
      preference preferId a < preference preferId b ∨
        preference preferId a = preference preferId b ∧ (a.createdAt < b.createdAt ∨
          a.createdAt = b.createdAt ∧ a.id < b.id) := by
  rw [before, decide_eq_true_iff]
  rfl

theorem before_asymm {preferId : Option ℕ} (a b : PhoneNumber) (h : before preferId a b = true) :
    before preferId b a = false := by
  rw [before_iff] at h
  rw [Bool.eq_false_iff, Ne, before_iff]
  omega

theorem before_or {preferId : Option ℕ} {a b : PhoneNumber} (h : a.id ≠ b.id) :
    before preferId a b = true ∨ before preferId b a = true := by
  rw [before_iff, before_iff]
  omega

/-- The order a list is sorted by: `b` does not come before `a`. -/
def notAfter (preferId : Option ℕ) (a b : PhoneNumber) : Prop := before preferId b a = false

instance (preferId : Option ℕ) (a b : PhoneNumber) : Decidable (notAfter preferId a b) :=
  inferInstanceAs (Decidable (_ = _))

instance (preferId : Option ℕ) : Std.Total (notAfter preferId) where
  total a b := by
    by_cases h : before preferId b a = true
    · exact .inr (before_asymm b a h)
    · exact .inl (by simpa [notAfter] using h)

instance (preferId : Option ℕ) : IsTrans PhoneNumber (notAfter preferId) where
  trans a b c hab hbc := by
    rw [notAfter, Bool.eq_false_iff, Ne, before_iff] at *
    omega

/-- The suspended numbers of the company, in the order they come back. -/
def Tables.queue (s : Tables) (companyId : ℕ) (preferId : Option ℕ) : List PhoneNumber :=
  (s.heldNumbers companyId).insertionSort (notAfter preferId)

section

variable (s : Tables) (companyId : ℕ)

theorem Tables.perm_queue (preferId : Option ℕ) :
    (s.queue companyId preferId).Perm (s.heldNumbers companyId) :=
  List.perm_insertionSort _ _

theorem Tables.nodup_heldNumbers : ((s.heldNumbers companyId).map (·.id)).Nodup :=
  s.nodup.sublist (List.filter_sublist.map _)

section

variable (preferId : Option ℕ)

theorem Tables.pairwise_queue :
    (s.queue companyId preferId).Pairwise fun a b => before preferId a b = true := by
  have hsorted := List.pairwise_insertionSort (notAfter preferId) (s.heldNumbers companyId)
  have hids : (s.queue companyId preferId).Pairwise fun a b => a.id ≠ b.id := by
    have hnodup := ((s.perm_queue companyId preferId).map (·.id)).nodup_iff.2
      (s.nodup_heldNumbers companyId)
    exact List.pairwise_map.1 hnodup
  refine (hsorted.and hids).imp ?_
  rintro a b ⟨hab, hne⟩
  rcases before_or hne with h | h
  · exact h
  · rw [hab] at h
    cases h

/-- **The first so many of the queue come back.** -/
theorem perm_restoring (budget : ℕ) :
    (restoring s companyId preferId budget).Perm
      ((s.queue companyId preferId).take budget) := by
  rw [← SqlTable.filter_rowNumber (s.perm_queue companyId preferId)
    (s.pairwise_queue companyId preferId) before_asymm budget]
  exact ((s.perm_queue companyId preferId).filter _).symm

theorem length_restoring (budget : ℕ) :
    (restoring s companyId preferId budget).length =
      min budget (s.heldNumbers companyId).length := by
  rw [(perm_restoring s companyId preferId budget).length_eq, List.length_take,
    (s.perm_queue companyId preferId).length_eq]

end

end

variable {n : PhoneNumber} {company : Company}

/-- A number in the table is brought back where it is itself a candidate within the budget. -/
theorem isRestoring_iff {s : Tables} {companyId : ℕ} {preferId : Option ℕ} {budget : ℕ}
    (hn : n ∈ s.numbers) :
    isRestoring s companyId preferId budget n = true ↔
      n ∈ restoring s companyId preferId budget := by
  constructor
  · intro h
    obtain ⟨c, hc, hid⟩ := List.any_eq_true.1 h
    have hmem : c ∈ s.numbers := (List.mem_filter.1 (List.mem_filter.1 hc).1).1
    have hcn : c = n := List.inj_on_of_nodup_map s.nodup hmem hn (by simpa using hid)
    exact hcn ▸ hc
  · intro h
    exact List.any_eq_true.2 ⟨n, h, by simp⟩

theorem isRestoring_iff_mem {s : Tables} {companyId : ℕ} {preferId : Option ℕ} {budget : ℕ} :
    isRestoring s companyId preferId budget n = true ↔
      n.id ∈ (restoring s companyId preferId budget).map (·.id) := by
  simp [isRestoring, List.any_eq_true]

theorem isHeld_of_mem_restoring {s : Tables} {companyId : ℕ} {preferId : Option ℕ} {budget : ℕ}
    (h : n ∈ restoring s companyId preferId budget) : Tables.isHeld companyId n = true :=
  (List.mem_filter.1 (List.mem_filter.1 h).1).2

theorem mem_restoring_preferred {s : Tables} {companyId id budget : ℕ}
    (hwanted : isWanted s companyId id = true) (hbudget : 1 ≤ budget) :
    ∃ n ∈ restoring s companyId (some id) budget, n.id = id := by
  obtain ⟨n, hn, hprop⟩ := List.any_eq_true.1 hwanted
  obtain ⟨hid, hcompany, hstatus⟩ := of_decide_eq_true hprop
  refine ⟨n, List.mem_filter.2 ⟨List.mem_filter.2 ⟨hn, by simp [Tables.isHeld, *]⟩, ?_⟩, hid⟩
  have hnone : (s.heldNumbers companyId).countP (fun a => before (some id) a n) = 0 := by
    refine List.countP_eq_zero.2 fun a ha hbefore => ?_
    have hne : a.id ≠ n.id ∨ a = n := by
      by_cases h : a.id = n.id
      · exact .inr (List.inj_on_of_nodup_map s.nodup (List.mem_filter.1 ha).1 hn h)
      · exact .inl h
    rcases hne with hne | rfl
    · rw [before_iff] at hbefore
      have hpref : preference (some id) n = 0 := if_pos (by rw [hid])
      have hlow : preference (some id) a = 1 := if_neg (by simpa [← hid] using hne)
      omega
    · rw [before_asymm a a hbefore] at hbefore
      cases hbefore
  rw [SqlTable.rowNumber, hnone]
  simpa using hbudget

/-! ### What is written -/

theorem company_update (companies : List Company) (id : ℕ) (f : Company → Company)
    (hf : ∀ c, (f c).id = c.id) :
    (SqlTable.update (fun c => c.id = id) f companies).find? (fun c => c.id = id) =
      (companies.find? fun c => c.id = id).map f := by
  induction companies with
  | nil => rfl
  | cons c companies ih =>
      rw [SqlTable.update_cons]
      by_cases h : c.id = id
      · simp [h, hf]
      · simpa [h] using ih

theorem company_setCapacity {s : Tables} {companyId : ℕ} (h : s.company companyId = some company)
    (capacity epoch : ℕ) :
    (s.setCapacity companyId capacity epoch).company companyId =
      some { company with paid := capacity, epoch := epoch } := by
  have hset : (s.setCapacity companyId capacity epoch).company companyId =
      (s.company companyId).map fun c => { c with paid := capacity, epoch := epoch } :=
    company_update s.companies companyId _ fun _ => rfl
  rw [hset, h]
  rfl

theorem company_settle {s : Tables} {companyId : ℕ} (h : s.company companyId = some company)
    (capacity epoch : ℕ) (preferId : Option ℕ) (budget : ℕ) :
    (settle s companyId capacity epoch preferId budget).company companyId =
      some { company with paid := capacity, epoch := epoch } :=
  company_setCapacity h capacity epoch

theorem countP_join {p q q' : PhoneNumber → Bool} {rows : List PhoneNumber}
    (h : ∀ n ∈ rows, p n = true → q' n = true ∧ q n = false) :
    (rows.countP fun n => if p n then q' n else q n) = rows.countP q + rows.countP p := by
  induction rows with
  | nil => rfl
  | cons n rows ih =>
      have htail := ih fun m hm => h m (List.mem_cons_of_mem _ hm)
      simp only [List.countP_cons, htail]
      by_cases hp : p n = true
      · obtain ⟨hq', hq⟩ := h n (List.mem_cons_self ..) hp
        simp only [hp, hq', hq, if_true, Bool.false_eq_true, if_false]
        omega
      · simp only [hp, Bool.false_eq_true, if_false]
        omega

theorem countP_leave {p q q' : PhoneNumber → Bool} {rows : List PhoneNumber}
    (h : ∀ n ∈ rows, p n = true → q' n = false ∧ q n = true) :
    (rows.countP fun n => if p n then q' n else q n) + rows.countP p = rows.countP q := by
  refine (countP_join fun n hn hp => ⟨(h n hn hp).2, ?_⟩).symm.trans (List.countP_congr ?_)
  · simp [hp, (h n hn hp).1]
  · intro n _
    split_ifs <;> rfl

theorem countP_isRestoring (s : Tables) (companyId : ℕ) (preferId : Option ℕ) (budget : ℕ) :
    s.numbers.countP (isRestoring s companyId preferId budget) =
      (restoring s companyId preferId budget).length := by
  have hfilter : restoring s companyId preferId budget =
      s.numbers.filter (isRestoring s companyId preferId budget) := by
    rw [restoring, Tables.heldNumbers, List.filter_filter]
    refine List.filter_congr fun n hn => ?_
    rw [Bool.eq_iff_iff, isRestoring_iff hn, restoring, Tables.heldNumbers, List.mem_filter,
      List.mem_filter, Bool.and_eq_true]
    simp [hn, and_comm]
  rw [List.countP_eq_length_filter, ← hfilter]

section Settle

variable (s : Tables) (companyId capacity epoch : ℕ) (preferId : Option ℕ) (budget : ℕ)

theorem isHeld_of_isRestoring (hn : n ∈ s.numbers)
    (h : isRestoring s companyId preferId budget n = true) :
    n.companyId = companyId ∧ n.status = .suspended := by
  have := isHeld_of_mem_restoring ((isRestoring_iff hn).1 h)
  simpa [Tables.isHeld] using this

theorem active_settle :
    (settle s companyId capacity epoch preferId budget).active companyId =
      s.active companyId + (restoring s companyId preferId budget).length := by
  rw [← countP_isRestoring]
  refine (SqlTable.countP_update _ _ _ _).trans (countP_join fun n hn hp => ?_)
  obtain ⟨hcompany, hstatus⟩ := isHeld_of_isRestoring s companyId preferId budget hn hp
  simp [Tables.isActive, restored, hcompany, hstatus]

theorem occupied_settle :
    (settle s companyId capacity epoch preferId budget).occupied companyId =
      s.occupied companyId + (restoring s companyId preferId budget).length := by
  rw [← countP_isRestoring]
  refine (SqlTable.countP_update _ _ _ _).trans (countP_join fun n hn hp => ?_)
  obtain ⟨hcompany, hstatus⟩ := isHeld_of_isRestoring s companyId preferId budget hn hp
  simp [Tables.isOccupying, restored, hcompany, hstatus]

theorem held_settle :
    ((settle s companyId capacity epoch preferId budget).heldNumbers companyId).length +
      (restoring s companyId preferId budget).length = (s.heldNumbers companyId).length := by
  rw [← countP_isRestoring, Tables.heldNumbers, Tables.heldNumbers, ← List.countP_eq_length_filter,
    ← List.countP_eq_length_filter]
  have hupdate := SqlTable.countP_update (Tables.isHeld companyId)
    (isRestoring s companyId preferId budget) restored s.numbers
  refine (congrArg (· + _) hupdate).trans (countP_leave fun n hn hp => ?_)
  obtain ⟨hcompany, hstatus⟩ := isHeld_of_isRestoring s companyId preferId budget hn hp
  simp [Tables.isHeld, restored, hcompany, hstatus]

theorem mem_settle (h : n ∈ (settle s companyId capacity epoch preferId budget).numbers) :
    n ∈ s.numbers ∨ ∃ m ∈ s.numbers, m.status = .suspended ∧ n = restored m := by
  rcases SqlTable.mem_update.1 h with ⟨hn, -⟩ | ⟨m, hm, hp, rfl⟩
  · exact .inl hn
  · exact .inr ⟨m, hm, (isHeld_of_isRestoring s companyId preferId budget hm hp).2, rfl⟩

end Settle

/-- Nobody is brought back without a budget, or without a suspended number. -/
theorem restoring_eq_nil {s : Tables} {companyId : ℕ} {preferId : Option ℕ} {budget : ℕ}
    (h : budget = 0 ∨ (s.heldNumbers companyId).length = 0) :
    restoring s companyId preferId budget = [] := by
  refine List.length_eq_zero_iff.1 ?_
  rw [length_restoring]
  omega

theorem restoredReport_nil : restoredReport [] = [] := rfl

theorem ids_restoredReport (rows : List PhoneNumber) :
    ((restoredReport rows).map Prod.fst).Perm (rows.map (·.id)) := by
  rw [restoredReport, List.map_map]
  exact (List.perm_insertionSort _ rows).map _

/-! ### Settling twice -/

theorem restoring_settle (s : Tables) (companyId capacity epoch : ℕ) (preferId preferId' : Option ℕ)
    (allowance : ℤ) :
    let budget := budgetOf s companyId allowance
    let t := settle s companyId capacity epoch preferId budget
    restoring t companyId preferId' (budgetOf t companyId allowance) = [] := by
  intro budget t
  have hlen := length_restoring s companyId preferId budget
  have hheld := held_settle s companyId capacity epoch preferId budget
  have hoccupied := occupied_settle s companyId capacity epoch preferId budget
  refine restoring_eq_nil ?_
  -- either the budget was spent, or every suspended number fitted
  have hbudget : budget = (allowance - s.occupied companyId).toNat := rfl
  rw [budgetOf]
  change t.occupied companyId = _ at hoccupied
  change (t.heldNumbers companyId).length + _ = _ at hheld
  omega

/-- The capacity a repeated call settles on is the same: a raise that was fenced is fenced again,
as its epoch is no later than the one then. -/
theorem capacityOf_again {paidExtras : ℤ} {expectedEpoch : Option ℕ}
    (hread : ∀ e ∈ expectedEpoch, e ≤ company.epoch) :
    capacityOf
      { company with
        paid := capacityOf company paidExtras expectedEpoch, epoch := company.epoch + 1 }
      paidExtras expectedEpoch = capacityOf company paidExtras expectedEpoch := by
  by_cases hfenced : isFenced company paidExtras expectedEpoch = true
  · have hcap : capacityOf company paidExtras expectedEpoch = company.paid := if_pos hfenced
    have hagain : isFenced { company with paid := company.paid, epoch := company.epoch + 1 }
        paidExtras expectedEpoch = true := by
      simp only [isFenced, decide_eq_true_eq] at hfenced ⊢
      refine ⟨hfenced.1, fun hsome => ?_⟩
      have := hread _ hsome
      omega
    rw [hcap, capacityOf, if_pos hagain]
  · have hcap : capacityOf company paidExtras expectedEpoch = paidExtras.toNat := if_neg hfenced
    rw [hcap]
    unfold capacityOf
    split
    · rfl
    · rfl

/-! ### The claim -/

theorem claim_known {s : Tables} {a : ClaimArgs} {included : ℤ} {out : Tables × Claim}
    (hknown : a.included = some included) (h : claimNumberAllowance s a = .ok out) :
    ∃ company paidExtras, s.company a.companyId = some company ∧
      out = claimKnown s a company included paidExtras ∧
      ∀ t : Tables, ∀ company', t.company a.companyId = some company' →
        claimNumberAllowance t a = .ok (claimKnown t a company' included paidExtras) := by
  unfold claimNumberAllowance at h
  cases hextras : a.paidExtras with
  | none => simp [hextras] at h
  | some paidExtras =>
      by_cases hneg : paidExtras < 0
      · simp [hextras, hneg] at h
      cases hcompany : s.company a.companyId with
      | none => simp [hextras, hneg, hcompany] at h
      | some company =>
          by_cases hincluded : included < 0
          · simp [hextras, hneg, hcompany, hknown, hincluded] at h
          refine ⟨company, paidExtras, rfl, ?_, ?_⟩
          · simpa [hextras, hneg, hcompany, hknown, hincluded] using h.symm
          · intro t company' ht
            simp [claimNumberAllowance, hextras, hneg, ht, hknown, hincluded]

/-- The two ways a claim ends: nothing is written, or the numbers are settled. -/
theorem claimKnown_cases (s : Tables) (a : ClaimArgs) (company : Company)
    (included paidExtras : ℤ) :
    let capacity := capacityOf company paidExtras a.expectedEpoch
    let budget := budgetOf s a.companyId (included + capacity)
    ((claimKnown s a company included paidExtras).1 = s ∧
      (claimKnown s a company included paidExtras).2.applied = false ∧
      (claimKnown s a company included paidExtras).2.restored = [] ∧
      isRefused s a.companyId a.preferId budget (isFenced company paidExtras a.expectedEpoch)
        = true) ∨
    ((claimKnown s a company included paidExtras).1 =
        settle s a.companyId capacity (company.epoch + 1) a.preferId budget ∧
      (claimKnown s a company included paidExtras).2.applied = true ∧
      (claimKnown s a company included paidExtras).2.restored =
        restoredReport (restoring s a.companyId a.preferId budget) ∧
      isRefused s a.companyId a.preferId budget (isFenced company paidExtras a.expectedEpoch)
        = false) := by
  intro capacity budget
  by_cases h : isRefused s a.companyId a.preferId budget
      (isFenced company paidExtras a.expectedEpoch) = true
  · left
    unfold claimKnown
    dsimp only
    rw [if_pos h]
    exact ⟨rfl, rfl, rfl, h⟩
  · right
    unfold claimKnown
    dsimp only
    rw [if_neg h]
    exact ⟨rfl, rfl, rfl, by simpa using h⟩

theorem delivered {s : Tables} {companyId id budget : ℕ} {fenced : Bool}
    (h : isRefused s companyId (some id) budget fenced = false) :
    ∃ n ∈ restoring s companyId (some id) budget, n.id = id := by
  simp only [isRefused, Bool.or_eq_false_iff, Bool.not_eq_false', decide_eq_false_iff_not] at h
  exact mem_restoring_preferred h.1.1 (by omega)

theorem capacityOf_le {paidExtras : ℤ} {expectedEpoch : Option ℕ}
    (h : expectedEpoch ≠ some company.epoch) :
    capacityOf company paidExtras expectedEpoch ≤ company.paid := by
  unfold capacityOf
  split
  case isTrue => exact Nat.le_refl _
  case isFalse hfenced =>
    have hle : ¬ (company.paid : ℤ) < paidExtras := fun hlt => hfenced (by simp [isFenced, hlt, h])
    omega

theorem paid_eq {s : Tables} {companyId : ℕ}
    (h : s.company companyId = some company) : s.paid companyId = company.paid := by
  rw [Tables.paid, h]
  rfl

theorem epoch_eq {s : Tables} {companyId : ℕ}
    (h : s.company companyId = some company) : s.epoch companyId = company.epoch := by
  rw [Tables.epoch, h]
  rfl

/-- **A repeated claim brings no other number back.** -/
theorem settle_again {s t : Tables} {a : ClaimArgs} {included : ℤ} {r : Claim}
    (hknown : a.included = some included) (hread : ∀ e ∈ a.expectedEpoch, e ≤ s.epoch a.companyId)
    (h : claimNumberAllowance s a = .ok (t, r)) :
    ∃ t' r', claimNumberAllowance t a = .ok (t', r') ∧ r'.restored = [] := by
  obtain ⟨company, paidExtras, hcompany, hout, hall⟩ := claim_known hknown h
  rw [epoch_eq hcompany] at hread
  rcases claimKnown_cases s a company included paidExtras with
    ⟨hs, -, hnil, -⟩ | ⟨hs, -, -, hrefused⟩
  · -- nothing was written
    have ht : t = s := by rw [← hs, ← hout]
    subst ht
    exact ⟨_, _, hall t company hcompany, hnil⟩
  · have ht := (congrArg Prod.fst hout).trans hs
    dsimp only at ht
    obtain ⟨company', hcompany', hagain⟩ : ∃ company', t.company a.companyId = some company' ∧
        capacityOf company' paidExtras a.expectedEpoch =
          capacityOf company paidExtras a.expectedEpoch := by
      rw [ht]
      exact ⟨_, company_settle hcompany _ _ _ _, capacityOf_again hread⟩
    refine ⟨(claimKnown t a company' included paidExtras).1,
      (claimKnown t a company' included paidExtras).2, hall t company' hcompany', ?_⟩
    rcases claimKnown_cases t a company' included paidExtras with
      ⟨-, -, hnil, -⟩ | ⟨-, -, hrestored, -⟩
    · exact hnil
    · rw [hrestored, hagain, ht, restoring_settle, restoredReport_nil]

theorem syncPaidExtraCapacity_le {s t : Tables} {companyId : ℕ} {billed : ℤ}
    {expectedEpoch : Option ℕ} {applied : Bool}
    (h : syncPaidExtraCapacity s companyId billed expectedEpoch = some (t, applied))
    (hstale : expectedEpoch ≠ some (s.epoch companyId)) : t.paid companyId ≤ s.paid companyId := by
  unfold syncPaidExtraCapacity at h
  split at h
  · cases h
  cases hcompany : s.company companyId with
  | none =>
      rw [hcompany] at h
      cases h
  | some company =>
      rw [epoch_eq hcompany] at hstale
      simp only [hcompany] at h
      split at h
      case isTrue =>
        injection h with h
        injection h with ht
        rw [ht]
      case isFalse hfenced =>
        injection h with h
        injection h with ht
        have hcap := @capacityOf_le _ billed _ hstale
        rw [capacityOf, if_neg hfenced] at hcap
        rw [← ht, paid_eq (company_setCapacity hcompany _ _), paid_eq hcompany]
        exact hcap

/-! ### Epochs only grow -/

/-- **What a claim does**, for a plan that is known and an epoch that was read before.  Where it
applies, the active numbers stay within the allowance or do not grow, and the first so many of the
queue come back.  No number is released or suspended; a named number that is not reported as
restored means that nothing was written; a repeated call restores nothing more; and a raise whose
epoch is stale raises nothing, here and in `sync_paid_extra_capacity`. -/
theorem allowance_law {s t : Tables} {a : ClaimArgs} {included : ℤ} {r : Claim}
    (hknown : a.included = some included) (hread : ∀ e ∈ a.expectedEpoch, e ≤ s.epoch a.companyId)
    (h : claimNumberAllowance s a = .ok (t, r)) :
    (r.applied = true → (t.active a.companyId : ℤ) ≤
      max (s.active a.companyId : ℤ) (included + t.paid a.companyId)) ∧
    (r.applied = true → (r.restored.map Prod.fst).Perm
      (((s.queue a.companyId a.preferId).take
        (included + t.paid a.companyId - s.occupied a.companyId).toNat).map (·.id)) ∧
      t.numbers = SqlTable.update (fun n => n.id ∈ r.restored.map Prod.fst) restored s.numbers) ∧
    (∀ n ∈ t.numbers, n ∈ s.numbers ∨ ∃ m ∈ s.numbers, m.status = .suspended ∧ n = restored m) ∧
    (∀ id, a.preferId = some id → id ∉ r.restored.map Prod.fst → t = s) ∧
    (∃ t' r', claimNumberAllowance t a = .ok (t', r') ∧ r'.restored = []) ∧
    (a.expectedEpoch ≠ some (s.epoch a.companyId) → t.paid a.companyId ≤ s.paid a.companyId) ∧
    (∀ billed u applied, syncPaidExtraCapacity s a.companyId billed a.expectedEpoch =
      some (u, applied) → a.expectedEpoch ≠ some (s.epoch a.companyId) →
        u.paid a.companyId ≤ s.paid a.companyId) := by
  have hrepeated := settle_again hknown hread h
  obtain ⟨company, paidExtras, hcompany, hout, -⟩ := claim_known hknown h
  have hr : r = (claimKnown s a company included paidExtras).2 := congrArg Prod.snd hout
  have hsync : ∀ billed u applied, syncPaidExtraCapacity s a.companyId billed a.expectedEpoch =
      some (u, applied) → a.expectedEpoch ≠ some (s.epoch a.companyId) →
        u.paid a.companyId ≤ s.paid a.companyId :=
    fun billed u applied hsync hstale => syncPaidExtraCapacity_le hsync hstale
  rcases claimKnown_cases s a company included paidExtras with
    ⟨hs, happlied, hnil, -⟩ | ⟨hs, happlied, hrestored, hrefused⟩
  · have ht : t = s := by rw [← hs, ← hout]
    rw [← hr] at happlied hnil
    subst ht
    refine ⟨?_, ?_, fun n hn => .inl hn, fun _ _ _ => rfl, hrepeated, fun _ => Nat.le_refl _,
      hsync⟩
    · rw [happlied]
      intro h
      cases h
    · rw [happlied]
      intro h
      cases h
  · have ht := (congrArg Prod.fst hout).trans hs
    dsimp only at ht
    rw [← hr] at happlied hrestored
    have hpaid : t.paid a.companyId = capacityOf company paidExtras a.expectedEpoch := by
      rw [ht]
      exact paid_eq (company_settle hcompany _ _ _ _)
    refine ⟨?_, ?_, ?_, ?_, hrepeated, ?_, hsync⟩
    · intro _
      have hlen := length_restoring s a.companyId a.preferId
        (budgetOf s a.companyId (included + capacityOf company paidExtras a.expectedEpoch))
      have hle : s.active a.companyId ≤ s.occupied a.companyId := by
        refine List.countP_mono_left fun n _ hn => ?_
        simp only [Tables.isActive, Tables.isOccupying, decide_eq_true_eq] at hn ⊢
        rw [hn.2]
        exact ⟨hn.1, by decide, by decide⟩
      rw [hpaid, ht, active_settle]
      rw [budgetOf] at hlen
      rw [budgetOf]
      omega
    · intro _
      rw [hrestored, hpaid]
      refine ⟨(ids_restoredReport _).trans ((perm_restoring s a.companyId a.preferId _).map _), ?_⟩
      rw [ht]
      refine congrArg (fun p => SqlTable.update p restored s.numbers) (funext fun n => ?_)
      rw [Bool.eq_iff_iff, isRestoring_iff_mem]
      simp [(ids_restoredReport _).mem_iff]
    · intro n hn
      rw [ht] at hn
      exact mem_settle s _ _ _ _ _ hn
    · intro id hid hnot
      exfalso
      rw [hid] at hrefused
      obtain ⟨n, hn, hnid⟩ := delivered hrefused
      rw [hrestored, hid] at hnot
      refine hnot ((ids_restoredReport _).mem_iff.2 (List.mem_map.2 ⟨n, hn, hnid⟩))
    · intro hstale
      rw [epoch_eq hcompany] at hstale
      rw [hpaid, paid_eq hcompany]
      exact capacityOf_le hstale

def sample : Tables where
  companies := [⟨1, 0, 3⟩]
  numbers :=
    [⟨10, 1, none, 100, .active, none⟩, ⟨11, 1, none, 200, .suspended, some 900⟩,
      ⟨12, 1, none, 300, .suspended, some 900⟩]
  nodup := by decide

/-- The purchase of the newer of the two brings it back, and not the older one. -/
theorem allowance_law_sample :
    ∃ t r, claimNumberAllowance sample ⟨1, some 1, some 1, some 3, some 12⟩ = .ok (t, r) ∧
      r.restored.map Prod.fst = [12] ∧
      (t.active 1 : ℤ) ≤ max (sample.active 1 : ℤ) (1 + t.paid 1) := by
  have hread : ∀ e ∈ some 3, e ≤ sample.epoch 1 := by decide
  refine ⟨_, _, rfl, by decide, ?_⟩
  exact (allowance_law (a := ⟨1, some 1, some 1, some 3, some 12⟩) rfl hread rfl).1 rfl

end NumberAllowance
