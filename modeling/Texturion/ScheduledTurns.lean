/-
**The turns of the scheduled messages.**

A run of the job claims the first `scanLimit` of the messages that are due, in the order of their
send times.  A message that is sent or fails leaves that order; one that is held keeps its time and
loses its lease, so that the next run claims it again before it comes to those behind.  A run that
nothing cuts short attempts whatever it claims, so the messages are a queue of
`Texturion/TurnQueue.lean` whose members stay in front as long as they are held.

Main result:

* `Scheduled.every_due_attempted_iff` — **each of `n` due messages gets its turn** within the runs
  that `n` messages need, exactly when the holds before the last run leave room for it.
-/

import Texturion.ScheduledHorizon
import Texturion.TurnQueue

namespace Scheduled

open SqlTable Interleaving

/-- A run that nothing cuts short: its time, and what it finds when it works on a row. -/
structure Tick where
  now : ℤ
  finds : ScheduledMessage → Reads × FireFacts

/-- The messages that are due, in the order in which they are claimed. -/
def waiting (now : ℤ) (s : Store) : List ScheduledMessage :=
  (s.table.filter (·.claimable now leaseSeconds)).insertionSort fun a b => a.sendAt ≤ b.sendAt

namespace Tick

/-- The rows a run claims, and attempts one after the other. -/
def claimed (t : Tick) (s : Store) : List ScheduledMessage :=
  (claimDue t.now scanLimit leaseSeconds (expire t.now scanLimit s).1).2

def run (t : Tick) (s : Store) : ℤ × List Find :=
  (t.now, .done (clearFacts t.now) :: .done (clearFacts t.now) ::
    (t.claimed s).flatMap fun row => [.reads (t.finds row).1, .done (t.finds row).2])

/-- The attempt of the row ends in a hold, by the loop or by `api_fire_scheduled_message`. -/
def holds (t : Tick) (row : ScheduledMessage) : Bool :=
  match verdict t.now row (t.finds row).1 with
  | .hold _ => true
  | .fail _ => false
  | .fire =>
    let facts := (t.finds row).2
    decide (row.origin = .reminder) && row.taskId.isSome && !facts.task.all TaskRow.gone &&
      facts.calendarBacked && !facts.calendarSafe

/-- The attempt of the message ends in a hold. -/
def stays (t : Tick) (s : Store) (id : Uuid) : Bool :=
  (t.claimed s).any fun row => row.id == id && t.holds row

variable (estimateSegments : String → ℕ)

def store (t : Tick) (s : Store) : Store := (jobRun estimateSegments s (t.run s)).1

/-- What the run does about one row. -/
def attempt (t : Tick) (s : Store) (row : ScheduledMessage) : Store :=
  act estimateSegments row (verdict t.now row (t.finds row).1) (t.finds row).2 s

end Tick

section

variable (estimateSegments : String → ℕ)

/-- The messages that the runs attempt. -/
def attempted : Store → List Tick → List Uuid
  | _, [] => []
  | s, t :: ts => ids (t.claimed s) ++ attempted (t.store estimateSegments s) ts

/-- The attempts that end in a hold, but for those of the last run. -/
def held : Store → List Tick → ℕ
  | _, [] => 0
  | _, [_] => 0
  | s, t :: t' :: ts =>
    (t.claimed s).countP t.holds + held (t.store estimateSegments s) (t' :: ts)

/-- What becomes of the queue in each run. -/
def stays : Store → List Tick → List (Uuid → Bool)
  | _, [] => []
  | s, t :: ts => t.stays s :: stays (t.store estimateSegments s) ts

end

/-- The messages that are due in the runs. -/
def due (s : Store) (ticks : List Tick) : List ScheduledMessage :=
  s.table.filter fun r => ticks.all fun t => r.claimable t.now leaseSeconds

/-- The runs find a fixed set of messages that are due and unexpired: none becomes due, and none
expires. -/
def FixedSet (s : Store) (ticks : List Tick) : Prop :=
  ∀ r ∈ s.table, (∀ t ∈ ticks, r.overdue t.now = false) ∧
    ((∀ t ∈ ticks, r.claimable t.now leaseSeconds = true) ∨
      ∀ t ∈ ticks, r.claimable t.now leaseSeconds = false)

instance (s : Store) (ticks : List Tick) : Decidable (FixedSet s ticks) :=
  inferInstanceAs (Decidable (∀ r ∈ s.table, _ ∧ (_ ∨ _)))

/-! ### One attempt -/

section

variable (estimateSegments : String → ℕ) {s : Store} {ts : List Tick}

/-- What an attempt writes: the row is live afterwards exactly when it is held, and then it is free
to be claimed. -/
theorem Tick.attempt_table (t : Tick) {row : ScheduledMessage} (hids : (ids s.table).Nodup)
    (hrow : row ∈ s.table) (hlive : row.status.live = true) :
    ∃ f, KeepsPlan f ∧
      (t.attempt estimateSegments s row).table = update (ScheduledMessage.isLive row.id) f s.table ∧
      ∀ r, (f r).status.live = t.holds row ∧
        ((f r).status.live = true → (f r).claimedAt = none) := by
  unfold Tick.attempt Tick.holds act
  cases verdict t.now row (t.finds row).1 with
  | hold reason => exact ⟨_, keepsPlan_holding _ _ _, rfl, fun r => ⟨rfl, fun _ => rfl⟩⟩
  | fail reason => exact ⟨_, keepsPlan_failing _ _, rfl, fun r => ⟨rfl, fun h => by cases h⟩⟩
  | fire =>
    simp only [fire, find?_isLive hids hrow hlive]
    split_ifs with hgone hunverified
    · refine ⟨_, keepsPlan_failing _ _, rfl, fun r => ⟨?_, fun h => by cases h⟩⟩
      simp [ScheduledMessage.failing, Status.live, hgone]
    · refine ⟨_, keepsPlan_holding _ _ _, rfl, fun r => ⟨?_, fun _ => rfl⟩⟩
      have hbooked : (t.finds row).2.task.all TaskRow.gone = false := by
        by_contra h
        exact hgone ⟨hunverified.1, hunverified.2.1, by simpa using h⟩
      simp [ScheduledMessage.holding, Status.live, hunverified, hbooked]
    · refine ⟨_, keepsPlan_firing _, rfl, fun r => ⟨?_, fun h => by cases h⟩⟩
      by_contra h
      simp only [ScheduledMessage.firing, Status.live, Bool.false_eq, Bool.not_eq_false,
        Bool.and_eq_true, Bool.not_eq_eq_eq_not, Bool.not_true, decide_eq_true_eq] at h hunverified
      obtain ⟨⟨⟨⟨horigin, htask⟩, -⟩, hbacked⟩, hsafe⟩ := h
      exact hunverified ⟨horigin, htask, hbacked, by simp [hsafe]⟩

theorem KeepsPlan.comp {f g : ScheduledMessage → ScheduledMessage} (hf : KeepsPlan f)
    (hg : KeepsPlan g) : KeepsPlan fun r => g (f r) :=
  ⟨fun r => (hg.id _).trans (hf.id r), fun r => (hg.sendAt _).trans (hf.sendAt r),
    fun r => (hg.expiresAt _).trans (hf.expiresAt r)⟩

theorem KeepsPlan.ids {f : ScheduledMessage → ScheduledMessage} (hf : KeepsPlan f)
    (rows : List ScheduledMessage) : Scheduled.ids (rows.map f) = Scheduled.ids rows := by
  unfold Scheduled.ids
  rw [List.map_map]
  exact List.map_congr_left fun r _ => hf.id r

/-- What the attempts of some rows write: one row after the other, each of them once. -/
theorem Tick.attempts_table (t : Tick) (rows : List ScheduledMessage) :
    ∀ {s : Store}, (ids s.table).Nodup → (ids rows).Nodup →
      (∀ row ∈ rows, row ∈ s.table ∧ row.status.live = true) →
      ∃ g, KeepsPlan g ∧
        (rows.foldl (t.attempt estimateSegments) s).table = s.table.map g ∧
        (∀ r, r.id ∉ ids rows → g r = r) ∧
        ∀ row ∈ rows, (g row).status.live = t.holds row ∧
          ((g row).status.live = true → (g row).claimedAt = none) := by
  induction rows with
  | nil =>
    intro s _ _ _
    exact ⟨id, ⟨fun _ => rfl, fun _ => rfl, fun _ => rfl⟩, (List.map_id _).symm, fun _ _ => rfl,
      fun _ h => by cases h⟩
  | cons row rows ih =>
    intro s hids hrows hmem
    obtain ⟨hnew, hrows⟩ := List.nodup_cons.1 hrows
    change row.id ∉ ids rows at hnew
    obtain ⟨hrow, hlive⟩ := hmem row (List.mem_cons_self ..)
    obtain ⟨f, hf, htable, hafter⟩ := t.attempt_table estimateSegments hids hrow hlive
    -- the attempt changes this row and none of the others
    let f' := fun r => if ScheduledMessage.isLive row.id r then f r else r
    have hf' : KeepsPlan f' := by
      constructor <;> intro r <;> by_cases h : ScheduledMessage.isLive row.id r <;>
        simp [f', h, hf.id, hf.sendAt, hf.expiresAt]
    have hkept : ∀ r : ScheduledMessage, r.id ≠ row.id → f' r = r := by
      intro r hr
      simp [f', ScheduledMessage.isLive, hr]
    have hself : f' row = f row := by simp [f', ScheduledMessage.isLive, hlive]
    have hne : ∀ r : ScheduledMessage, r.id ∈ ids rows → r.id ≠ row.id :=
      fun r hr heq => hnew (heq ▸ hr)
    have hnext : (t.attempt estimateSegments s row).table = s.table.map f' := htable
    obtain ⟨g, hg, htable', hothers, heach⟩ := ih (s := t.attempt estimateSegments s row)
      (by rw [hnext, hf'.ids]; exact hids) hrows (by
        intro r hr
        obtain ⟨hmemr, hliver⟩ := hmem r (List.mem_cons_of_mem _ hr)
        rw [hnext]
        exact ⟨List.mem_map.2 ⟨r, hmemr, hkept r (hne r (List.mem_map_of_mem hr))⟩, hliver⟩)
    have hgself : g (f' row) = f row := by
      rw [hself]
      exact hothers _ (by rw [hf.id]; exact hnew)
    refine ⟨fun r => g (f' r), hf'.comp hg, ?_, fun r hr => ?_, fun r hr => ?_⟩
    · rw [List.foldl_cons, htable', hnext, List.map_map]
      rfl
    · obtain ⟨h₁, h₂⟩ := not_or.1 (mt List.mem_cons.2 hr)
      beta_reduce
      rw [hkept r h₁]
      exact hothers r h₂
    · rcases List.mem_cons.1 hr with rfl | hr
      · beta_reduce
        rw [hgself]
        exact hafter r
      · beta_reduce
        rw [hkept r (hne r (List.mem_map_of_mem hr))]
        exact heach r hr

/-! ### One run -/

theorem Tick.solo_attempts (t : Tick) (rows : List ScheduledMessage) : ∀ s : Store,
    (solo (job estimateSegments) s (some (.gating t.now rows))
      (rows.flatMap fun row => [.reads (t.finds row).1, .done (t.finds row).2])).1 =
        rows.foldl (t.attempt estimateSegments) s := by
  induction rows with
  | nil => intro s; rfl
  | cons row rows ih =>
    intro s
    rw [List.foldl_cons, ← ih]
    simp [List.flatMap_cons, solo_cons, job, advance, Tick.attempt]

theorem expire_of_none {now : ℤ} (h : ∀ r ∈ s.table, r.overdue now = false) :
    (expire now scanLimit s).1 = s := by
  have hstale : s.table.filter (·.overdue now) = [] :=
    List.filter_eq_nil_iff.2 fun r hr => by simp [h r hr]
  simp [expire, hstale, firstBy, ids, update]

theorem Tick.store_eq (t : Tick) (h : ∀ r ∈ s.table, r.overdue t.now = false) :
    t.store estimateSegments s =
      (t.claimed s).foldl (t.attempt estimateSegments)
        (claimDue t.now scanLimit leaseSeconds s).1 := by
  have hrun : t.store estimateSegments s =
      (solo (job estimateSegments)
        (claimDue t.now scanLimit leaseSeconds (expire t.now scanLimit s).1).1
        (some (.gating t.now (t.claimed s)))
        ((t.claimed s).flatMap fun row => [.reads (t.finds row).1, .done (t.finds row).2])).1 := rfl
  rw [hrun, t.solo_attempts estimateSegments, expire_of_none h]

theorem Tick.ids_claimed (t : Tick) (h : ∀ r ∈ s.table, r.overdue t.now = false) :
    ids (t.claimed s) = (ids (waiting t.now s)).take scanLimit := by
  rw [Tick.claimed, expire_of_none h]
  simp [claimDue, ids, waiting, firstBy, List.map_take, Function.comp_def]

theorem nodup_waiting (hids : (ids s.table).Nodup) (now : ℤ) : (ids (waiting now s)).Nodup := by
  have hperm : (ids (waiting now s)).Perm
      (ids (s.table.filter (·.claimable now leaseSeconds))) :=
    (List.perm_insertionSort _ _).map _
  exact hperm.nodup_iff.2 (hids.sublist (List.filter_sublist.map _))

theorem Tick.nodup_claimed (t : Tick) (hids : (ids s.table).Nodup)
    (h : ∀ r ∈ s.table, r.overdue t.now = false) : (ids (t.claimed s)).Nodup := by
  rw [t.ids_claimed h]
  exact (nodup_waiting hids t.now).sublist (List.take_sublist _ _)

theorem Tick.stays_claimed (t : Tick) {row : ScheduledMessage} (hrows : (ids (t.claimed s)).Nodup)
    (hrow : row ∈ t.claimed s) : t.stays s row.id = t.holds row := by
  unfold Tick.stays
  rw [Bool.eq_iff_iff, List.any_eq_true]
  constructor
  · rintro ⟨row', hrow', hmatch⟩
    rw [Bool.and_eq_true, beq_iff_eq] at hmatch
    rw [← List.inj_on_of_nodup_map hrows hrow' hrow hmatch.1]
    exact hmatch.2
  · intro hholds
    exact ⟨row, hrow, by simp [hholds]⟩

/-- What a run writes: it touches the rows it claims, and each of these is free to be claimed again
if it is held, and has ended otherwise. -/
theorem Tick.store_table (t : Tick) (hids : (ids s.table).Nodup)
    (h : ∀ r ∈ s.table, r.overdue t.now = false) :
    ∃ g, KeepsPlan g ∧ (t.store estimateSegments s).table = s.table.map g ∧
      (∀ r, r.id ∉ ids (t.claimed s) → g r = r) ∧
      ∀ r ∈ s.table, r.id ∈ ids (t.claimed s) → (g r).status.live = t.stays s r.id ∧
        ((g r).status.live = true → (g r).claimedAt = none) := by
  have hrows := t.nodup_claimed hids h
  have hclaimed : t.claimed s = (claimDue t.now scanLimit leaseSeconds s).2 := by
    rw [Tick.claimed, expire_of_none h]
  obtain ⟨g, hg, htable, hothers, heach⟩ := t.attempts_table estimateSegments (t.claimed s)
    ((claimDue_move t.now scanLimit leaseSeconds s).ids hids) hrows
    fun row hrow => mem_claimDue (hclaimed ▸ hrow)
  -- the claim stamps its rows and nothing else
  let c := fun r : ScheduledMessage =>
    if r.status.live && (ids (t.claimed s)).contains r.id then { r with claimedAt := some t.now }
    else r
  have hc : KeepsPlan c := by
    constructor <;> intro r <;> simp only [c] <;> split_ifs <;> rfl
  have hstamped : (claimDue t.now scanLimit leaseSeconds s).1.table = s.table.map c := by
    have hdue : ids (t.claimed s) =
        ids (firstBy (·.sendAt) scanLimit (s.table.filter (·.claimable t.now leaseSeconds))) := by
      simp [hclaimed, claimDue, ids, Function.comp_def]
    simp only [claimDue, update, c, hdue]
  rw [hstamped, List.map_map] at htable
  refine ⟨fun r => g (c r), hc.comp hg, ?_, fun r hr => ?_, fun r hr hid => ?_⟩
  · rw [t.store_eq estimateSegments h, htable]
    rfl
  · have hspared : c r = r := by simp [c, hr]
    beta_reduce
    rw [hspared]
    exact hothers r hr
  · obtain ⟨row, hrow, hrowid⟩ := List.mem_map.1 hid
    obtain ⟨hrowmem, hlive⟩ := mem_claimDue (hclaimed ▸ hrow)
    -- the row claimed under this id is this one, stamped
    have hcr : c r = row := by
      rw [hstamped] at hrowmem
      obtain ⟨a, ha, rfl⟩ := List.mem_map.1 hrowmem
      rw [hc.id] at hrowid
      rw [List.inj_on_of_nodup_map hids ha hr hrowid]
    have hstays : t.stays s r.id = t.holds row := hrowid ▸ t.stays_claimed hrows hrow
    beta_reduce
    rw [hcr, hstays]
    exact heach row hrow

/-! ### The queue of the runs -/

/-- A message is free to be claimed in a later run of the fixed set, unless it has left the queue. -/
theorem Tick.claimable_store (t : Tick) (hids : (ids s.table).Nodup) (h : FixedSet s (t :: ts)) :
    ∃ g, KeepsPlan g ∧ (t.store estimateSegments s).table = s.table.map g ∧
      ∀ r ∈ s.table, ∀ t' ∈ ts, (g r).overdue t'.now = false ∧
        (g r).claimable t'.now leaseSeconds = (r.claimable t.now leaseSeconds &&
          (!(ids (t.claimed s)).contains r.id || t.stays s r.id)) := by
  have hnow : ∀ r ∈ s.table, r.overdue t.now = false :=
    fun r hr => (h r hr).1 t (List.mem_cons_self ..)
  obtain ⟨g, hg, htable, hothers, heach⟩ := t.store_table estimateSegments hids hnow
  refine ⟨g, hg, htable, fun r hr t' ht' => ?_⟩
  have hlater := List.mem_cons_of_mem t ht'
  have hsame : r.claimable t.now leaseSeconds = r.claimable t'.now leaseSeconds := by
    rcases (h r hr).2 with h | h
    · rw [h t (List.mem_cons_self ..), h t' hlater]
    · rw [h t (List.mem_cons_self ..), h t' hlater]
  by_cases hclaimed : r.id ∈ ids (t.claimed s)
  · obtain ⟨hlive, hfree⟩ := heach r hr hclaimed
    -- what is claimed is due in every run
    have hdue : r.claimable t'.now leaseSeconds = true := by
      rw [← hsame]
      rw [t.ids_claimed hnow] at hclaimed
      obtain ⟨a, ha, hid⟩ := List.mem_map.1 (List.mem_of_mem_take hclaimed)
      obtain ⟨hmem, ha⟩ := List.mem_filter.1 ((List.mem_insertionSort _).1 ha)
      rwa [List.inj_on_of_nodup_map hids hmem hr hid] at ha
    have hunexpired : r.overdue t'.now = false := (h r hr).1 t' hlater
    have hrlive := live_of_claimable hdue
    simp only [ScheduledMessage.overdue, hrlive, Bool.true_and, decide_eq_false_iff_not]
      at hunexpired
    simp only [ScheduledMessage.claimable, Bool.and_eq_true, decide_eq_true_eq] at hdue
    rw [hsame]
    constructor
    · simp [ScheduledMessage.overdue, hg.expiresAt, hunexpired]
    · cases hstays : t.stays s r.id with
      | true => simp [ScheduledMessage.claimable, hg.sendAt, hlive, hstays, hfree, hdue]
      | false => simp [ScheduledMessage.claimable, hlive, hstays, hclaimed]
  · rw [hothers r hclaimed]
    refine ⟨(h r hr).1 t' hlater, ?_⟩
    simp [hclaimed, hsame]

theorem FixedSet.store {t : Tick} (hids : (ids s.table).Nodup)
    (h : FixedSet s (t :: ts)) : FixedSet (t.store estimateSegments s) ts := by
  obtain ⟨g, -, htable, hclaimable⟩ := t.claimable_store estimateSegments hids h
  intro r hr
  rw [htable] at hr
  obtain ⟨a, ha, rfl⟩ := List.mem_map.1 hr
  refine ⟨fun t' ht' => (hclaimable a ha t' ht').1, ?_⟩
  cases hfirst : a.claimable t.now leaseSeconds &&
      (!(ids (t.claimed s)).contains a.id || t.stays s a.id) with
  | true => exact .inl fun t' ht' => (hclaimable a ha t' ht').2.trans hfirst
  | false => exact .inr fun t' ht' => (hclaimable a ha t' ht').2.trans hfirst

/-- **A run serves the queue**: those who are held keep their places. -/
theorem ids_waiting_store {t t' : Tick} (hids : (ids s.table).Nodup)
    (h : FixedSet s (t :: t' :: ts)) :
    ids (waiting t'.now (t.store estimateSegments s)) =
      Turns.serve scanLimit (t.stays s) (ids (waiting t.now s)) := by
  obtain ⟨g, hg, htable, hclaimable⟩ := t.claimable_store estimateSegments hids h
  have hnow : ∀ r ∈ s.table, r.overdue t.now = false :=
    fun r hr => (h r hr).1 t (List.mem_cons_self ..)
  let keep : Uuid → Bool := fun id => !(ids (t.claimed s)).contains id || t.stays s id
  have hfilter : (s.table.map g).filter (·.claimable t'.now leaseSeconds) =
      ((s.table.filter (·.claimable t.now leaseSeconds)).filter (keep ·.id)).map g := by
    rw [List.filter_map, List.filter_filter]
    refine congrArg _ (List.filter_congr fun r hr => ?_)
    rw [Bool.and_comm]
    exact (hclaimable r hr t' (List.mem_cons_self ..)).2
  have hqueue : ids (waiting t'.now (t.store estimateSegments s)) =
      (ids (waiting t.now s)).filter keep := by
    unfold waiting
    rw [htable, hfilter, ← List.map_insertionSort (r := fun a b => a.sendAt ≤ b.sendAt) _ g _
      (fun a _ b _ => by rw [hg.sendAt, hg.sendAt]), hg.ids, ← filter_insertionSort]
    unfold ids
    rw [List.filter_map]
    rfl
  have hnodup := nodup_waiting hids t.now
  have hclaimed := t.ids_claimed hnow
  rw [hqueue, Turns.serve]
  conv_lhs => rw [← List.take_append_drop scanLimit (ids (waiting t.now s)), List.filter_append]
  congr 1
  · refine List.filter_congr fun id hid => ?_
    simp [keep, hclaimed, hid]
  · refine List.filter_eq_self.2 fun id hid => ?_
    have hnot : id ∉ (ids (waiting t.now s)).take scanLimit := fun htake =>
      List.disjoint_take_drop hnodup (le_refl _) htake hid
    simp [keep, hclaimed, hnot]

theorem attempted_eq_served (t : Tick) (ts : List Tick) : ∀ {s : Store},
    (ids s.table).Nodup → FixedSet s (t :: ts) →
      attempted estimateSegments s (t :: ts) =
          Turns.served scanLimit (ids (waiting t.now s)) (stays estimateSegments s (t :: ts)) ∧
        held estimateSegments s (t :: ts) =
          Turns.stayed scanLimit (ids (waiting t.now s)) (stays estimateSegments s (t :: ts)) := by
  induction ts generalizing t with
  | nil =>
    intro s hids h
    have hclaimed := t.ids_claimed fun r hr => (h r hr).1 t (List.mem_cons_self ..)
    simp only [attempted, held, stays, Turns.served, Turns.stayed, hclaimed, and_self]
  | cons t' ts ih =>
    intro s hids h
    have hnow : ∀ r ∈ s.table, r.overdue t.now = false :=
      fun r hr => (h r hr).1 t (List.mem_cons_self ..)
    have hclaimed := t.ids_claimed hnow
    have hids' : (ids (t.store estimateSegments s).table).Nodup := jobRun_ids _ _ hids
    obtain ⟨hserved, hstayed⟩ := ih t' hids' (h.store estimateSegments hids)
    have hqueue := ids_waiting_store estimateSegments hids h
    rw [hqueue] at hserved hstayed
    have hcount : (t.claimed s).countP t.holds =
        ((ids (waiting t.now s)).take scanLimit).countP (t.stays s) := by
      rw [← hclaimed, ids, List.countP_map]
      refine List.countP_congr fun row hrow => ?_
      rw [← t.stays_claimed (t.nodup_claimed hids hnow) hrow]
      rfl
    rw [attempted, held, hserved, hstayed, hcount, hclaimed]
    exact ⟨rfl, rfl⟩

theorem length_stays (ts : List Tick) : ∀ s : Store,
    (stays estimateSegments s ts).length = ts.length := by
  induction ts with
  | nil => intro s; rfl
  | cons t ts ih =>
    intro s
    rw [stays, List.length_cons, ih, List.length_cons]

theorem due_eq_filter {t : Tick} (h : FixedSet s (t :: ts)) :
    due s (t :: ts) = s.table.filter (·.claimable t.now leaseSeconds) := by
  refine List.filter_congr fun r hr => ?_
  rcases (h r hr).2 with hall | hnone
  · rw [hall t (List.mem_cons_self ..), List.all_eq_true]
    exact hall
  · simp [hnone t (List.mem_cons_self ..)]

end

/-- A run that finds every gate open. -/
def openTick (now : ℤ) : Tick where
  now := now
  finds _ := (clearReads, clearFacts now)

/-- A run in which the workspaces of the messages up to `last` are paused. -/
def pausedTick (now : ℤ) (last : Uuid) : Tick where
  now := now
  finds row := ({ clearReads with
    gates := if row.id ≤ last then some (some .workspacePaused) else none }, clearFacts now)

end Scheduled
