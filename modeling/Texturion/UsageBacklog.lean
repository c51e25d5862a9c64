/-
**Does the backlog of usage drain?**

A run takes the two hundred oldest pending rows, but it reports only those of a company with a
customer; the others are skipped, stay pending, and are the oldest again in the next run.  So a run
in which every call succeeds reports two hundred rows less those that crowd its batch, and with two
hundred such rows at the head it reports nothing.

Fix the ids `T` of rows that are waiting for a report.  Before a run `waiting` of them are
unreported, and `crowd` rows of the batch are not among them; after it
`waiting + crowd - 200` are left, or none if the batch holds every pending row.

Main result:

* `UsageReports.accepted_once_and_drained_iff` — **at most one acceptance for each row, and the
  exact condition under which the runs leave none behind**.
-/

import Mathlib.Data.List.Count
import Texturion.UsageReports

namespace UsageReports

open SqlTable

variable {α : Type*}

def pending (m : Meter α) (w : World α) : List α := w.rows.filter m.isPending

theorem mem_pending {m : Meter α} {w : World α} {r : α} :
    r ∈ pending m w ↔ r ∈ w.rows ∧ m.bills r = true ∧ m.reportedAt r = none := by
  simp [pending, Meter.isPending]

section

variable (m : Meter α) (w : World α)

theorem pending_stampWhere (p : α → Bool) :
    pending m (stampWhere m w p) = (pending m w).filter fun r => !p r := by
  simp only [pending, stampWhere]
  induction w.rows with
  | nil => rfl
  | cons r rows ih =>
    rw [update_cons, List.filter_cons, List.filter_cons]
    by_cases hp : p r = true
    · by_cases hr : m.reportedAt r = none
      · by_cases hb : m.bills r = true
        · simp [hp, hr, hb, Meter.isPending, m.reportedAt_stamp, ih]
        · simp [hp, hr, hb, Meter.isPending, m.reportedAt_stamp, ih]
      · simp [hp, hr, Meter.isPending, ih]
    · by_cases hpend : m.isPending r = true
      · simp [hp, hpend, ih]
      · simp [hp, hpend, ih]

theorem pending_sweep : pending m (sweep m w) = pending m w := by
  unfold sweep
  split
  · rfl
  · rename_i p hp
    rw [pending_stampWhere, List.filter_eq_self]
    intro r hr
    rw [m.not_hygiene p r hp (mem_pending.1 hr).2.1]
    rfl

@[simp] theorem sweep_customerOf : (sweep m w).customerOf = w.customerOf := by
  unfold sweep
  split <;> rfl

theorem batch_eq : batch m w = firstBy m.createdAt reportBatch (pending m w) :=
  rfl

theorem batch_sweep : batch m (sweep m w) = batch m w := by
  rw [batch_eq, batch_eq, pending_sweep]

end

/-! ### A run in which every call succeeds -/

/-- The company of the row has a customer, and there is something to report. -/
def reportable (m : Meter α) (w : World α) (r : α) : Bool :=
  (stripeCustomerId m w r).isSome && decide (1 ≤ m.value r)

theorem stripeCustomerId_congr (m : Meter α) {w v : World α} (h : v.customerOf = w.customerOf)
    (r : α) : stripeCustomerId m v r = stripeCustomerId m w r := by
  simp only [stripeCustomerId, h]

theorem reportable_congr (m : Meter α) {w v : World α} (h : v.customerOf = w.customerOf) :
    reportable m v = reportable m w := by
  funext r
  rw [reportable, reportable, stripeCustomerId_congr m h]

def Turn.Succeeds (turn : Turn) : Prop := turn.transit = .delivered ∧ turn.stamped = true

instance (turn : Turn) : Decidable turn.Succeeds := inferInstanceAs (Decidable (_ ∧ _))

def Run.Succeeds (m : Meter α) (w : World α) (run : Run) : Prop :=
  run.swept = true ∧ run.selected = true ∧ (batch m w).length ≤ run.turns.length ∧
    ∀ turn ∈ run.turns, turn.Succeeds

instance (m : Meter α) (w : World α) (run : Run) : Decidable (run.Succeeds m w) :=
  inferInstanceAs (Decidable (_ ∧ _ ∧ _ ∧ _))

theorem create_customerOf (stripe : Stripe) (w : World α) (row : ℕ) (customer : String)
    (value : ℤ) (identifier : String) :
    (stripe.create w row customer value identifier).1.customerOf = w.customerOf := by
  unfold Stripe.create
  split <;> rfl

/-- One row: a successful call leaves it stamped, where there is something to report. -/
theorem reportRow_succeeds {stripe : Stripe}
    (hdup : isDuplicateMeterIdentifierError stripe.duplicate = true) (m : Meter α) (w : World α)
    (r : α) (customer : String) {turn : Turn} (h : turn.Succeeds) :
    let next := reportRow stripe m w r customer turn
    next.1.customerOf = w.customerOf ∧
      if 1 ≤ m.value r then
        next.2 = .stamped ∧ pending m next.1 = (pending m w).filter fun a => !(m.id a == m.id r)
      else (∃ cause, next.2 = .failed cause) ∧ pending m next.1 = pending m w := by
  obtain ⟨htransit, hstamped⟩ := h
  by_cases hvalue : 1 ≤ m.value r
  · have hnot : ¬m.value r < 1 := by omega
    have hcall : reportMeterEvent stripe m.eventName (w.wait turn.calledAfter) (m.id r) customer
        (m.value r) (m.identifier r) turn.transit =
          stripe.create (w.wait turn.calledAfter) (m.id r) customer (m.value r)
            (m.identifier r) := by
      rw [htransit]
      simp only [reportMeterEvent, if_neg hnot]
    have hnone : (stripe.create (w.wait turn.calledAfter) (m.id r) customer (m.value r)
        (m.identifier r)).2.filter (fun cause => !isDuplicateMeterIdentifierError cause) =
          none := by
      unfold Stripe.create
      split
      · simp [hdup]
      · rfl
    rw [reportRow, hcall]
    simp only [hnone, hstamped, if_true, if_pos hvalue, stampRow]
    refine ⟨create_customerOf .., True.intro, ?_⟩
    rw [pending_stampWhere]
    simp only [pending, World.wait_rows, create_rows]
  · have hlt : m.value r < 1 := by omega
    simp only [reportRow, reportMeterEvent, if_pos hlt, if_neg hvalue]
    exact ⟨rfl, ⟨_, rfl⟩, rfl⟩

/-- The loop, where every call succeeds: it takes the reportable rows out of what is pending. -/
theorem reportRows_succeeds {stripe : Stripe}
    (hdup : isDuplicateMeterIdentifierError stripe.duplicate = true) (m : Meter α) (found : ℕ)
    {rows : List α} : ∀ (w : World α) (turns : List Turn) (failed : ℕ)
      (lastFailure : Option Cause), rows.length ≤ turns.length →
      (∀ turn ∈ turns, turn.Succeeds) →
      let next := reportRows stripe m found w rows turns failed lastFailure
      next.1.customerOf = w.customerOf ∧
        pending m next.1 = (pending m w).filter fun a =>
          !((rows.filter (reportable m w)).any fun r => m.id a == m.id r) := by
  induction rows with
  | nil =>
    intro w turns failed lastFailure _ _
    simp [reportRows]
  | cons r rows ih =>
    intro w turns failed lastFailure hlength hturns
    have hlength' : rows.length + 1 ≤ turns.length := hlength
    unfold reportRows
    cases hcustomer : stripeCustomerId m w r with
    | none =>
      have hr : reportable m w r = false := by simp [reportable, hcustomer]
      simpa [hr] using ih w turns failed lastFailure (by omega) hturns
    | some customer =>
      cases turns with
      | nil => simp at hlength'
      | cons turn turns =>
        have hrest : ∀ t ∈ turns, t.Succeeds := fun t ht =>
          hturns t (List.mem_cons_of_mem _ ht)
        have hlt : rows.length ≤ turns.length := by simpa using hlength'
        obtain ⟨hcus, hone⟩ := reportRow_succeeds hdup m w r customer
          (hturns turn (List.mem_cons_self ..))
        by_cases hvalue : 1 ≤ m.value r
        · have hr : reportable m w r = true := by simp [reportable, hcustomer, hvalue]
          rw [if_pos hvalue] at hone
          obtain ⟨hout, hpend⟩ := hone
          simp only [hout]
          obtain ⟨hcus', hpend'⟩ := ih (reportRow stripe m w r customer turn).1 turns
            failed lastFailure hlt hrest
          refine ⟨hcus'.trans hcus, ?_⟩
          rw [hpend', hpend, List.filter_filter, reportable_congr m hcus]
          refine List.filter_congr fun a _ => ?_
          rw [List.filter_cons_of_pos hr, List.any_cons, Bool.not_or, Bool.and_comm]
        · have hr : reportable m w r = false := by simp [reportable, hvalue]
          rw [if_neg hvalue] at hone
          obtain ⟨⟨cause, hout⟩, hpend⟩ := hone
          simp only [hout]
          obtain ⟨hcus', hpend'⟩ := ih (reportRow stripe m w r customer turn).1 turns
            (failed + 1) (some cause) hlt hrest
          refine ⟨hcus'.trans hcus, ?_⟩
          rw [hpend', hpend, reportable_congr m hcus, List.filter_cons_of_neg (by simp [hr])]

/-- **What a run leaves pending** in which every call succeeds: all but the reportable rows of its
batch. -/
theorem pending_run {stripe : Stripe}
    (hdup : isDuplicateMeterIdentifierError stripe.duplicate = true) {m : Meter α} {w : World α}
    {run : Run} (h : run.Succeeds m w) :
    (reportUnreported stripe m w run).1.customerOf = w.customerOf ∧
      pending m (reportUnreported stripe m w run).1 = (pending m w).filter fun a =>
        !(((batch m w).filter (reportable m w)).any fun r => m.id a == m.id r) := by
  obtain ⟨hswept, hselected, hlength, hturns⟩ := h
  unfold reportUnreported
  simp only [hswept, hselected, Bool.not_true, Bool.and_false, Bool.false_eq_true, if_false]
  rw [batch_sweep]
  obtain ⟨hcus, hpend⟩ := reportRows_succeeds hdup m (batch m w).length (sweep m w) run.turns 0
    none hlength hturns
  refine ⟨hcus.trans (sweep_customerOf m w), ?_⟩
  rw [hpend, pending_sweep, reportable_congr m (sweep_customerOf m w)]

/-! ### How many are left -/

/-- The rows of `T` without a stamp. -/
def waiting (m : Meter α) (T : List ℕ) (w : World α) : ℕ :=
  w.rows.countP fun r => decide (m.id r ∈ T) && (m.reportedAt r).isNone

/-- The rows of the next batch that are not of `T`. -/
def crowd (m : Meter α) (T : List ℕ) (w : World α) : ℕ :=
  (batch m w).countP fun r => !decide (m.id r ∈ T)

/-- The rows of `T` are in the table, and the unreported ones bill a company with a customer, for
something. -/
structure Billable (m : Meter α) (T : List ℕ) (w : World α) : Prop where
  nodup : (w.rows.map m.id).Nodup
  known : ∀ i ∈ T, i ∈ w.rows.map m.id
  bills : ∀ r ∈ w.rows, m.id r ∈ T → m.reportedAt r = none →
    m.bills r = true ∧ reportable m w r = true

theorem unreported_run (stripe : Stripe) {m : Meter α} {w : World α}
    (hnodup : (w.rows.map m.id).Nodup) (run : Run) :
    ∀ r ∈ (reportUnreported stripe m w run).1.rows, m.reportedAt r = none → r ∈ w.rows := by
  have hP : Preserved stripe m fun v => ∀ r ∈ v.rows, m.reportedAt r = none → r ∈ w.rows :=
    { wait := fun v d h => h
      stamp := fun v p h r hr hreported => by
        rcases mem_update.1 hr with ⟨hr, -⟩ | ⟨a, -, -, rfl⟩
        · exact h r hr hreported
        · rw [m.reportedAt_stamp] at hreported
          cases hreported
      accept := fun v r customer h _ _ _ => h }
  exact reportUnreported_inv hP hnodup (fun r hr _ => hr) run

theorem map_id_run (stripe : Stripe) {m : Meter α} {w : World α}
    (hnodup : (w.rows.map m.id).Nodup) (run : Run) :
    (reportUnreported stripe m w run).1.rows.map m.id = w.rows.map m.id := by
  have hP : Preserved stripe m fun v => v.rows.map m.id = w.rows.map m.id :=
    { wait := fun v d h => h
      stamp := fun v p h => (map_id_stampWhere m v p).trans h
      accept := fun v r customer h _ _ _ => h }
  exact reportUnreported_inv hP hnodup rfl run

namespace Billable

variable {m : Meter α} {T : List ℕ} {w : World α}

theorem waiting_eq (h : Billable m T w) :
    waiting m T w = (pending m w).countP fun r => decide (m.id r ∈ T) := by
  rw [waiting, pending, List.countP_filter]
  refine List.countP_congr fun r hr => ?_
  simp only [Meter.isPending, Bool.and_eq_true, decide_eq_true_eq, Option.isNone_iff_eq_none]
  constructor
  · rintro ⟨hT, hnone⟩
    exact ⟨hT, (h.bills r hr hT hnone).1, hnone⟩
  · rintro ⟨hT, -, hnone⟩
    exact ⟨hT, hnone⟩

theorem perm (m : Meter α) (w : World α) :
    (batch m w ++ beyond m.createdAt reportBatch (pending m w)).Perm (pending m w) := by
  rw [batch_eq, firstBy, beyond, List.take_append_drop]
  exact List.perm_insertionSort _ _

theorem run (h : Billable m T w) {stripe : Stripe}
    (hdup : isDuplicateMeterIdentifierError stripe.duplicate = true) {run : Run}
    (hrun : run.Succeeds m w) : Billable m T (reportUnreported stripe m w run).1 := by
  have hids := map_id_run stripe h.nodup run
  refine ⟨hids ▸ h.nodup, fun i hi => hids ▸ h.known i hi, fun r hr hT hnone => ?_⟩
  rw [reportable_congr m (pending_run hdup hrun).1]
  exact h.bills r (unreported_run stripe h.nodup run r hr hnone) hT hnone

/-- **One run**: it reports two hundred rows of `T`, less those that crowd its batch, or all. -/
theorem waiting_run (h : Billable m T w) {stripe : Stripe}
    (hdup : isDuplicateMeterIdentifierError stripe.duplicate = true) {run : Run}
    (hrun : run.Succeeds m w) :
    waiting m T (reportUnreported stripe m w run).1 =
      crowd m T w + waiting m T w - reportBatch := by
  have hperm := perm m w
  have hnodup : ((batch m w ++ beyond m.createdAt reportBatch (pending m w)).map m.id).Nodup :=
    ((hperm.map m.id).nodup_iff).2 (h.nodup.sublist (List.filter_sublist.map _))
  rw [List.map_append, List.nodup_append] at hnodup
  -- what the run takes out of the batch, and that it takes nothing out of the rest
  have hbatch : (batch m w).countP (fun a => decide (m.id a ∈ T) &&
      !(((batch m w).filter (reportable m w)).any fun r => m.id a == m.id r)) = 0 := by
    refine List.countP_eq_zero.2 fun a ha => ?_
    by_cases hT : m.id a ∈ T
    · obtain ⟨hmem, -, hnone⟩ := mem_pending.1 (mem_of_mem_firstBy ha)
      have hself : (((batch m w).filter (reportable m w)).any fun r => m.id a == m.id r) = true :=
        List.any_eq_true.2 ⟨a, List.mem_filter.2 ⟨ha, (h.bills a hmem hT hnone).2⟩, by simp⟩
      simp [hself]
    · simp [hT]
  have hrest : (beyond m.createdAt reportBatch (pending m w)).countP (fun a =>
      decide (m.id a ∈ T) &&
        !(((batch m w).filter (reportable m w)).any fun r => m.id a == m.id r)) =
      (beyond m.createdAt reportBatch (pending m w)).countP fun a => decide (m.id a ∈ T) := by
    refine List.countP_congr fun a ha => ?_
    have hnone : (((batch m w).filter (reportable m w)).any fun r => m.id a == m.id r) = false := by
      refine List.any_eq_false.2 fun r hr => ?_
      have hne := hnodup.2.2 (m.id r) (List.mem_map_of_mem (List.mem_filter.1 hr).1) (m.id a)
        (List.mem_map_of_mem ha)
      simpa using Ne.symm hne
    simp [hnone]
  have hafter : waiting m T (reportUnreported stripe m w run).1 =
      (beyond m.createdAt reportBatch (pending m w)).countP fun a => decide (m.id a ∈ T) := by
    rw [(h.run hdup hrun).waiting_eq, (pending_run hdup hrun).2, List.countP_filter,
      ← hperm.countP_eq, List.countP_append, hbatch, hrest, Nat.zero_add]
  have hbefore : waiting m T w = (batch m w).countP (fun a => decide (m.id a ∈ T)) +
      (beyond m.createdAt reportBatch (pending m w)).countP fun a => decide (m.id a ∈ T) := by
    rw [h.waiting_eq, ← hperm.countP_eq, List.countP_append]
  have hcrowd : (batch m w).length =
      (batch m w).countP (fun a => decide (m.id a ∈ T)) + crowd m T w := by
    simpa [crowd] using
      List.length_eq_countP_add_countP (l := batch m w) fun a => decide (m.id a ∈ T)
  have hlength : (batch m w).length = min reportBatch (pending m w).length :=
    length_firstBy ..
  have hbeyond := List.countP_le_length (p := fun a => decide (m.id a ∈ T))
    (l := beyond m.createdAt reportBatch (pending m w))
  rw [beyond, List.length_drop, List.length_insertionSort] at hbeyond
  rw [hafter, beyond]
  rw [beyond] at hbefore
  omega

end Billable

/-! ### Sequences of runs -/

/-- Every call of the run succeeds; between two runs a company keeps its customer, or gets one. -/
def Move.Succeeds (m : Meter α) (w : World α) : Move α → Prop
  | .run r => r.Succeeds m w
  | .customer _ id => (id.filter fun customer => customer != "").isSome = true
  | _ => True

instance (m : Meter α) (w : World α) (move : Move α) : Decidable (move.Succeeds m w) := by
  cases move <;> unfold Move.Succeeds <;> infer_instance

def runs : List (Move α) → ℕ
  | [] => 0
  | .run _ :: moves => runs moves + 1
  | _ :: moves => runs moves

/-- **Room to spare**: before each run, the rows of its batch that are not of `T`, and those of `T`
that wait, are at most two hundred for each run from this one on. -/
def RoomToSpare (stripe : Stripe) (m : Meter α) (T : List ℕ) : World α → List (Move α) → Prop
  | _, [] => True
  | w, .run r :: moves =>
    crowd m T w + waiting m T w ≤ reportBatch * (runs moves + 1) ∧
      RoomToSpare stripe m T (step stripe m w (.run r)).1 moves
  | w, move :: moves => RoomToSpare stripe m T (step stripe m w move).1 moves

section Runs

variable {stripe : Stripe} {m : Meter α} {T : List ℕ} {w : World α}

theorem stripeCustomerId_customer {companyId : ℕ} {id : Option String}
    (hid : (id.filter fun customer => customer != "").isSome = true) {r : α}
    (h : (stripeCustomerId m w r).isSome = true) :
    (stripeCustomerId m (step stripe m w (.customer companyId id)).1 r).isSome = true := by
  simp only [stripeCustomerId, step]
  split_ifs
  · exact hid
  · exact h

/-- What happens between two runs changes nothing about the rows of `T`. -/
theorem Billable.between (h : Billable m T w) {move : Move α} (hmove : move.Succeeds m w)
    (hne : ∀ r, move ≠ .run r) :
    Billable m T (step stripe m w move).1 ∧
      waiting m T (step stripe m w move).1 = waiting m T w := by
  cases move with
  | run r => exact absurd rfl (hne r)
  | wait d => exact ⟨⟨h.nodup, h.known, h.bills⟩, rfl⟩
  | customer companyId id =>
    refine ⟨⟨h.nodup, h.known, fun r hr hT hnone => ?_⟩, rfl⟩
    obtain ⟨hbills, hrep⟩ := h.bills r hr hT hnone
    simp only [reportable, Bool.and_eq_true] at hrep ⊢
    exact ⟨hbills, stripeCustomerId_customer hmove hrep.1, hrep.2⟩
  | insert r =>
    unfold step
    simp only
    split_ifs with htaken
    · exact ⟨h, rfl⟩
    · simp only [Bool.not_eq_true, List.any_eq_false, beq_iff_eq] at htaken
      have hnew : m.id r ∉ w.rows.map m.id := fun hmem => by
        obtain ⟨a, ha, hid⟩ := List.mem_map.1 hmem
        exact htaken a ha hid
      have hT : m.id r ∉ T := fun hT => hnew (h.known _ hT)
      refine ⟨⟨?_, fun i hi => ?_, fun a ha haT hnone => ?_⟩, ?_⟩
      · rw [List.map_append, List.nodup_append]
        refine ⟨h.nodup, List.nodup_singleton _, fun i hi j hj hij => ?_⟩
        rw [List.map_singleton, List.mem_singleton] at hj
        exact hnew (hj ▸ hij ▸ hi)
      · rw [List.map_append]
        exact List.mem_append_left _ (h.known i hi)
      · rcases List.mem_append.1 ha with ha | ha
        · exact h.bills a ha haT hnone
        · rw [List.mem_singleton.1 ha] at haT
          exact absurd haT hT
      · simp [waiting, hT]

theorem Billable.step (h : Billable m T w)
    (hdup : isDuplicateMeterIdentifierError stripe.duplicate = true) {move : Move α}
    (hmove : move.Succeeds m w) : Billable m T (step stripe m w move).1 := by
  by_cases hrun : ∃ r, move = .run r
  · obtain ⟨r, rfl⟩ := hrun
    exact h.run hdup hmove
  · exact (h.between hmove fun r hr => hrun ⟨r, hr⟩).1

section

variable (hdup : isDuplicateMeterIdentifierError stripe.duplicate = true)
include hdup

variable {moves : List (Move α)}

theorem waiting_final_ge (h : Billable m T w)
    (hmoves : Reactive.Along (step stripe m) (fun w move => move.Succeeds m w) w moves) :
    waiting m T w ≤
      waiting m T (Reactive.final (step stripe m) w moves) + reportBatch * runs moves := by
  induction moves generalizing w with
  | nil => simp [runs]
  | cons move moves ih =>
    obtain ⟨hmove, hrest⟩ := hmoves
    have hlater := ih (h.step hdup hmove) hrest
    cases move with
    | run r =>
      have hrun := h.waiting_run hdup hmove
      simp only [Reactive.final_cons, runs, step] at hlater ⊢
      rw [Nat.mul_add, Nat.mul_one]
      omega
    | wait d => exact hlater
    | customer companyId id => exact hlater
    | insert r =>
      rw [(h.between hmove fun _ hr => nomatch hr).2] at hlater
      exact hlater

/-- **The backlog drains exactly with room to spare**, in runs that would be enough without the
other rows. -/
theorem waiting_final_eq_zero_iff (h : Billable m T w)
    (hmoves : Reactive.Along (step stripe m) (fun w move => move.Succeeds m w) w moves)
    (henough : waiting m T w ≤ reportBatch * runs moves) :
    waiting m T (Reactive.final (step stripe m) w moves) = 0 ↔
      RoomToSpare stripe m T w moves := by
  induction moves generalizing w with
  | nil =>
    have hzero : waiting m T w = 0 := by simpa [runs] using henough
    simp [hzero, RoomToSpare]
  | cons move moves ih =>
    obtain ⟨hmove, hrest⟩ := hmoves
    have hnext := h.step hdup hmove
    cases move with
    | run r =>
      have hrun : waiting m T (step stripe m w (.run r)).1 =
          crowd m T w + waiting m T w - reportBatch := h.waiting_run hdup hmove
      rw [Reactive.final_cons, RoomToSpare]
      by_cases hroom : crowd m T w + waiting m T w ≤ reportBatch * (runs moves + 1)
      · rw [ih hnext hrest (by rw [Nat.mul_add] at hroom; omega)]
        exact (and_iff_right hroom).symm
      · -- too many are left for the runs that follow
        refine iff_of_false (fun hzero => ?_) fun hspare => hroom hspare.1
        have hlater := waiting_final_ge hdup hnext hrest
        rw [Nat.mul_add] at hroom
        omega
    | wait d => exact ih hnext hrest henough
    | customer companyId id => exact ih hnext hrest henough
    | insert r =>
      refine ih hnext hrest ?_
      rw [(h.between hmove fun _ hr => nomatch hr).2]
      exact henough

theorem worthless_pending (h : Sound stripe m w)
    (hmoves : Reactive.Along (step stripe m) (fun w move => move.Succeeds m w) w moves) {r : α}
    (hr : r ∈ pending m w) (hvalue : m.value r < 1) :
    r ∈ pending m (Reactive.final (step stripe m) w moves) := by
  induction moves generalizing w with
  | nil => exact hr
  | cons move moves ih =>
    obtain ⟨hmove, hrest⟩ := hmoves
    refine ih (sound_step h move) hrest ?_
    cases move with
    | wait d => exact hr
    | customer companyId id => exact hr
    | insert a =>
      unfold step
      simp only
      split_ifs
      · exact hr
      · simp only [pending, List.filter_append]
        exact List.mem_append_left _ hr
    | run run =>
      have hpend : pending m (step stripe m w (.run run)).1 = _ := (pending_run hdup hmove).2
      rw [hpend, List.mem_filter, Bool.not_eq_true', List.any_eq_false]
      refine ⟨hr, fun a ha hid => ?_⟩
      obtain ⟨hbatch, hrep⟩ := List.mem_filter.1 ha
      have ha := (mem_pending.1 (mem_of_mem_firstBy hbatch)).1
      obtain rfl : r = a :=
        List.inj_on_of_nodup_map h.nodup (mem_pending.1 hr).1 ha (eq_of_beq hid)
      simp only [reportable, Bool.and_eq_true, decide_eq_true_eq] at hrep
      omega

end

end Runs

/-! ### The claim of the jobs -/

/-- The unreported rows of companies with a customer. -/
def targets (m : Meter α) (w : World α) : List α :=
  (pending m w).filter fun r => (stripeCustomerId m w r).isSome

theorem mem_targets {m : Meter α} {w : World α} {r : α} :
    r ∈ targets m w ↔ r ∈ w.rows ∧ m.bills r = true ∧ m.reportedAt r = none ∧
      (stripeCustomerId m w r).isSome = true := by
  rw [targets, List.mem_filter, mem_pending, and_assoc, and_assoc]

/-- `⌈n / 200⌉`. -/
def runsFor (n : ℕ) : ℕ := (n + (reportBatch - 1)) / reportBatch

theorem le_runsFor (n : ℕ) : n ≤ reportBatch * runsFor n := by
  simp only [runsFor, reportBatch]
  omega

theorem billable_targets {stripe : Stripe} {m : Meter α} {w : World α} (h : Sound stripe m w)
    (hvalue : ∀ r ∈ targets m w, 1 ≤ m.value r) : Billable m ((targets m w).map m.id) w := by
  refine ⟨h.nodup, fun i hi => ?_, fun r hr hT hnone => ?_⟩
  · obtain ⟨r, hr, rfl⟩ := List.mem_map.1 hi
    exact List.mem_map_of_mem (mem_targets.1 hr).1
  · obtain ⟨a, ha, hid⟩ := List.mem_map.1 hT
    have hrow := mem_targets.1 ha
    obtain rfl : a = r := List.inj_on_of_nodup_map h.nodup hrow.1 hr hid
    refine ⟨hrow.2.1, ?_⟩
    rw [reportable, hrow.2.2.2, Bool.true_and, decide_eq_true_eq]
    exact hvalue a ha

theorem waiting_targets_le {stripe : Stripe} {m : Meter α} {w : World α} (h : Sound stripe m w)
    (hvalue : ∀ r ∈ targets m w, 1 ≤ m.value r) :
    waiting m ((targets m w).map m.id) w ≤ (targets m w).length := by
  rw [(billable_targets h hvalue).waiting_eq, targets, ← List.countP_eq_length_filter]
  refine List.countP_mono_left fun r hr hT => ?_
  obtain ⟨a, ha, hid⟩ := List.mem_map.1 (of_decide_eq_true hT)
  have hrow := mem_targets.1 ha
  obtain rfl : a = r :=
    List.inj_on_of_nodup_map h.nodup hrow.1 (mem_pending.1 hr).1 hid
  exact hrow.2.2.2

theorem waiting_eq_zero {m : Meter α} {T : List ℕ} {w : World α} :
    waiting m T w = 0 ↔ ∀ r ∈ w.rows, m.id r ∈ T → m.reportedAt r ≠ none := by
  simp [waiting, List.countP_eq_zero]

/-- **Usage is reported once, and with room to spare it is reported.**  Whatever a sequence of runs
meets, a row whose acceptances are each followed by its stamp within one window is accepted at most
once.  And where every call succeeds, at least `⌈n / 200⌉` runs leave none of the `n` unreported
rows of companies with a customer exactly when each of them has a positive value and the rows that
crowd the batches leave room to spare. -/
theorem accepted_once_and_drained_iff {stripe : Stripe} {m : Meter α} {w : World α}
    (hw : Sound stripe m w)
    (hdup : isDuplicateMeterIdentifierError stripe.duplicate = true) :
    (∀ moves, ∀ r ∈ (Reactive.final (step stripe m) w moves).rows,
      (∀ a ∈ acceptances (Reactive.final (step stripe m) w moves) (m.id r),
        settledAt m (Reactive.final (step stripe m) w moves) r ≤
          a.acceptedAt + stripe.window) →
      (acceptances (Reactive.final (step stripe m) w moves) (m.id r)).length ≤ 1) ∧
    ∀ moves,
      Reactive.Along (step stripe m) (fun w move => move.Succeeds m w) w moves →
      runsFor (targets m w).length ≤ runs moves →
      ((∀ r ∈ (Reactive.final (step stripe m) w moves).rows,
          m.id r ∈ (targets m w).map m.id → m.reportedAt r ≠ none) ↔
        (∀ r ∈ targets m w, 1 ≤ m.value r) ∧
          RoomToSpare stripe m ((targets m w).map m.id) w moves) := by
  refine ⟨fun moves r hr => (sound_final hw moves).accepted_le_one hr,
    fun moves hmoves henough => ?_⟩
  by_cases hvalue : ∀ r ∈ targets m w, 1 ≤ m.value r
  · have hwaiting : waiting m ((targets m w).map m.id) w ≤ reportBatch * runs moves :=
      (waiting_targets_le hw hvalue).trans
        ((le_runsFor _).trans (Nat.mul_le_mul_left _ henough))
    rw [and_iff_right hvalue, ← waiting_eq_zero]
    exact waiting_final_eq_zero_iff hdup (billable_targets hw hvalue) hmoves hwaiting
  · refine iff_of_false (fun hdrained => hvalue fun r hr => ?_) fun h => hvalue h.1
    by_contra hlt
    obtain ⟨hmem, hbills, hnone, -⟩ := mem_targets.1 hr
    have hlast := worthless_pending hdup hw hmoves (mem_pending.2 ⟨hmem, hbills, hnone⟩) (by omega)
    obtain ⟨hmem, -, hnone⟩ := mem_pending.1 hlast
    exact hdrained r hmem (List.mem_map_of_mem hr) hnone

/-! ### Examples -/

/-- The documented answer to a repeated identifier. -/
def duplicateIdentifier : Cause where
  type := some "StripeInvalidRequestError"
  rawType := some "invalid_request_error"
  message := some "An event already exists with identifier m1."

/-- A text of three segments. -/
def segmentsOf (id companyId : ℕ) : UsageEvent where
  id := id
  companyId := companyId
  quantity := 3
  meterIdentifier := none
  stripeReportedAt := none
  createdAt := id

/-- Company 2 is billed and company 1 is not; the texts have the given ids and companies. -/
def worldOf (rows : List UsageEvent) : World UsageEvent where
  rows := rows
  customerOf := fun c => if c = 2 then some "cus_2" else none
  accepted := []
  now := 1000

/-- A run with `n` successful turns. -/
def goodRun (n : ℕ) : Run where
  swept := true
  selected := true
  turns := List.replicate n ⟨1, .delivered, 1, true⟩

def stripeForADay : Stripe where
  window := 24 * 60 * 60
  duplicate := duplicateIdentifier

theorem sound_worldOf {rows : List UsageEvent} (h : (rows.map UsageEvent.id).Nodup) :
    Sound stripeForADay (segments "sms_segments") (worldOf rows) := by
  refine ⟨h, fun a ha => ?_, fun a ha => ?_, fun a ha => ?_, List.Pairwise.nil⟩
  · cases ha
  · cases ha
  · cases ha

/-- One text of a company with a customer, behind one of a company without: a run reports it. -/
theorem accepted_once_and_drained_iff_two :
    (reportUnreportedUsage stripeForADay "sms_segments"
      (worldOf [segmentsOf 0 1, segmentsOf 1 2]) (goodRun 2)).1.rows.Forall fun r =>
      r.id ∈ [1] → r.stripeReportedAt ≠ none := by
  have h := (accepted_once_and_drained_iff (w := worldOf [segmentsOf 0 1, segmentsOf 1 2])
    (sound_worldOf (by decide)) (by decide +kernel)).2
    [.run (goodRun 2)] ⟨by decide +kernel, trivial⟩ (by decide +kernel)
  refine List.forall_iff_forall_mem.2 (h.2 ⟨by decide +kernel, ?_, trivial⟩)
  decide +kernel

/-- Two hundred texts of a company without a customer, and then one of a company with one. -/
def crowdedRows : List UsageEvent :=
  (List.range 200).map (fun i => segmentsOf i 1) ++ [segmentsOf 200 2]

/-- **Two hundred rows that cannot be reported yet hold up all that come after them.** -/
theorem crowded_out : ¬∀ (stripe : Stripe) (w : World UsageEvent) (moves : List (Move UsageEvent)),
    Sound stripe (segments "sms_segments") w →
    isDuplicateMeterIdentifierError stripe.duplicate = true →
    Reactive.Along (step stripe (segments "sms_segments"))
      (fun w move => move.Succeeds (segments "sms_segments") w) w moves →
    runs moves = runsFor (targets (segments "sms_segments") w).length →
    ∀ r ∈ (Reactive.final (step stripe (segments "sms_segments")) w moves).rows,
      r.id ∈ (targets (segments "sms_segments") w).map UsageEvent.id →
        r.stripeReportedAt ≠ none := by
  intro h
  have hnodup : (crowdedRows.map UsageEvent.id).Nodup := by
    have hids : crowdedRows.map UsageEvent.id = List.range 201 := by decide +kernel
    exact hids ▸ List.nodup_range
  refine h stripeForADay (worldOf crowdedRows) [.run (goodRun 200)] (sound_worldOf hnodup)
    (by decide +kernel) ⟨by decide +kernel, trivial⟩ (by decide +kernel) (segmentsOf 200 2) ?_ ?_
    rfl
  · decide +kernel
  · decide +kernel

end UsageReports
