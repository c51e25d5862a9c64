/-
**The horizon of a scheduled message.**

A run of the job first expires what has run out of horizon and then claims what is due, so that
nothing leaves after its horizon.  The two are separate scans of `scanLimit` rows: the expiry takes
the rows in the order of their horizons, the claim in the order of their send times.  A row that the
expiry passes over, because more rows than that have run out, is still there for the claim.

Main result:

* `Scheduled.expired_never_departs` — **nothing leaves past its horizon** in runs none of which
  reaches a row that it has overlooked.
-/

import Texturion.ScheduledSend

namespace Scheduled

open SqlTable Interleaving

section

variable (estimateSegments : String → ℕ)

/-- One run of the job at `run.1`; it dies where what its calls find ends. -/
def jobRun (s : Store) (run : ℤ × List Find) : Store × List Departure :=
  solo (job estimateSegments) s (some (.expiring run.1)) run.2

end

/-- The rows past their horizon that the expiry passes over. -/
def overlooked (now : ℤ) (s : Store) : List ScheduledMessage :=
  beyond (·.expiresAt) scanLimit (s.table.filter (·.overdue now))

/-- The rows the claim takes once the expiry is through. -/
def reached (now : ℤ) (s : Store) : List ScheduledMessage :=
  firstBy (·.sendAt) scanLimit
    ((expire now scanLimit s).1.table.filter (·.claimable now leaseSeconds))

/-- No row that the run has overlooked is within its reach. -/
def NoneOverlooked (now : ℤ) (s : Store) : Prop := ∀ r ∈ overlooked now s, r ∉ reached now s

instance (now : ℤ) (s : Store) : Decidable (NoneOverlooked now s) :=
  inferInstanceAs (Decidable (∀ r ∈ overlooked now s, r ∉ reached now s))

/-! ### What a run does to the horizons -/

theorem act_expiresAt (estimateSegments : String → ℕ) (row : ScheduledMessage) (v : Verdict)
    (facts : FireFacts) (s : Store) : ∀ r ∈ (act estimateSegments row v facts s).table,
      ∃ a ∈ s.table, a.id = r.id ∧ a.expiresAt = r.expiresAt := by
  intro r hr
  obtain ⟨f, hf, htable⟩ := act_table estimateSegments row v facts s
  rw [htable] at hr
  rcases mem_update.1 hr with ⟨hr, -⟩ | ⟨a, ha, -, rfl⟩
  · exact ⟨r, hr, rfl, rfl⟩
  · exact ⟨a, ha, (hf.id a).symm, (hf.expiresAt a).symm⟩

variable {r row : ScheduledMessage} {now : ℤ} {s : Store}

theorem live_of_claimable {now leaseSeconds : ℤ}
    (h : r.claimable now leaseSeconds = true) : r.status.live = true := by
  simp only [ScheduledMessage.claimable, Bool.and_eq_true] at h
  exact h.1.1

/-- What is reached and past its horizon has been overlooked: the expiry has closed the others. -/
theorem overlooked_of_reached
    (hr : r ∈ reached now s) (hlate : r.expiresAt ≤ now) : r ∈ overlooked now s := by
  obtain ⟨hrow, hclaimable⟩ := List.mem_filter.1 (mem_of_mem_firstBy hr)
  have hlive := live_of_claimable hclaimable
  rcases mem_update.1 hrow with ⟨hrow, hspared⟩ | ⟨a, -, -, rfl⟩
  · have hoverdue : r ∈ s.table.filter (·.overdue now) :=
      List.mem_filter.2 ⟨hrow, by simp [ScheduledMessage.overdue, hlive, hlate]⟩
    have hscan : r ∈ firstBy (·.expiresAt) scanLimit (s.table.filter (·.overdue now)) ∨
        r ∈ overlooked now s := mem_firstBy_or_beyond hoverdue
    rcases hscan with h | h
    · rw [hlive, Bool.true_and] at hspared
      have hmem : r.id ∈ ids (firstBy (·.expiresAt) scanLimit (s.table.filter (·.overdue now))) :=
        List.mem_map.2 ⟨r, h, rfl⟩
      rw [List.contains_iff_mem.2 hmem] at hspared
      exact absurd hspared (by decide)
    · exact h
  · simp [Status.live] at hlive

/-! ### One run -/

/-- What a run relies on at each of its points, once it has overlooked nothing it reaches. -/
def Timely (s : Store) : Point → Prop
  | .expiring now => (ids s.table).Nodup ∧ NoneOverlooked now s
  | .claiming now => (ids s.table).Nodup ∧
      ∀ r ∈ firstBy (·.sendAt) scanLimit (s.table.filter (·.claimable now leaseSeconds)),
        now < r.expiresAt
  | .gating now due => ∀ row ∈ due, ∀ r ∈ s.table, r.id = row.id → now < r.expiresAt
  | .acting now row _ due => ∀ row' ∈ row :: due, ∀ r ∈ s.table, r.id = row'.id → now < r.expiresAt
  | .looking .. => True
  | .patching .. => True

theorem Timely.claim (h : Timely s (.claiming now)) :
    Timely (claimDue now scanLimit leaseSeconds s).1
      (.gating now (claimDue now scanLimit leaseSeconds s).2) := by
  intro row hrow r hr hid
  obtain ⟨a, ha, rfl⟩ := List.mem_map.1 hrow
  have hlater := h.2 a ha
  have hmem : a ∈ s.table := (List.mem_filter.1 (mem_of_mem_firstBy ha)).1
  rcases mem_update.1 hr with ⟨hr, -⟩ | ⟨b, hb, -, rfl⟩
  · rwa [List.inj_on_of_nodup_map h.1 hr hmem hid]
  · rwa [List.inj_on_of_nodup_map h.1 hb hmem hid]

theorem Timely.act (estimateSegments : String → ℕ)
    {v : Verdict} {due : List ScheduledMessage} (h : Timely s (.acting now row v due))
    (facts : FireFacts) : Timely (act estimateSegments row v facts s) (.gating now due) := by
  intro row' hrow' r hr hid
  obtain ⟨a, ha, haid, hexpires⟩ := act_expiresAt estimateSegments row v facts s r hr
  rw [← hexpires]
  exact h row' (List.mem_cons_of_mem _ hrow') a ha (haid.trans hid)

theorem Timely.next (estimateSegments : String → ℕ) (s : Store) (p : Point) (x : Find) (q : Point)
    (h : Timely s p) (hq : (advance estimateSegments s p x).2.1 = some q) :
    Timely (advance estimateSegments s p x).1 q := by
  revert hq
  fun_cases advance estimateSegments s p x <;> intro hq <;>
    simp only [reduceCtorEq, Option.some.injEq] at hq <;> subst hq
  · -- The expiry has closed every overdue row that it has not passed over.
    rename_i now _
    refine ⟨(expire_move now scanLimit s).ids h.1, fun r hr => ?_⟩
    by_contra hlate
    exact h.2 r (overlooked_of_reached hr (not_lt.1 hlate)) hr
  · exact h.claim
  · exact h
  · exact fun row hrow => h row (List.mem_cons_of_mem _ hrow)
  · exact h.act estimateSegments _
  · exact h.act estimateSegments _
  · exact fun row hrow => h row (List.mem_cons_of_mem _ hrow)
  · trivial

theorem mem_departures {estimateSegments : String → ℕ} {v : Verdict} {facts : FireFacts}
    {d : Departure} (hd : d ∈ departures estimateSegments now row v facts s) :
    v = .fire ∧ d.row ∈ s.table ∧ d.row.isLive row.id = true ∧ d.run = now ∧
      d.instant = facts.now := by
  revert hd
  fun_cases departures estimateSegments now row v facts s <;> intro hd
  · rename_i r _ _ hr
    rw [List.mem_singleton.1 hd]
    exact ⟨rfl, List.mem_of_find?_eq_some hr, List.find?_some hr, rfl, rfl⟩
  · exact absurd hd List.not_mem_nil

section

variable (estimateSegments : String → ℕ)

theorem Timely.departs (s : Store) (p : Point) (x : Find)
    (h : Timely s p) : ∀ d ∈ (advance estimateSegments s p x).2.2, d.run < d.row.expiresAt := by
  have hacting : ∀ {now row v due facts}, Timely s (.acting now row v due) →
      ∀ d ∈ departures estimateSegments now row v facts s, d.run < d.row.expiresAt := by
    intro now row v due facts h d hd
    obtain ⟨-, hmem, hlive, hrun, -⟩ := mem_departures hd
    simp only [ScheduledMessage.isLive, Bool.and_eq_true, beq_iff_eq] at hlive
    rw [hrun]
    exact h row (List.mem_cons_self ..) d.row hmem hlive.1
  fun_cases advance estimateSegments s p x
  all_goals first
    | exact fun d hd => absurd hd List.not_mem_nil
    | exact hacting h

theorem jobRun_timely {run : ℤ × List Find} (hids : (ids s.table).Nodup)
    (h : NoneOverlooked run.1 s) :
    ∀ d ∈ (jobRun estimateSegments s run).2, d.run < d.row.expiresAt :=
  solo_outputs (job estimateSegments) (L := Timely) (Timely.next estimateSegments)
    (Timely.departs estimateSegments) (p := .expiring run.1) ⟨hids, h⟩ run.2

theorem jobRun_ids (run : ℤ × List Find)
    (hids : (ids s.table).Nodup) : (ids (jobRun estimateSegments s run).1.table).Nodup :=
  Moves.ids (solo_store (job estimateSegments) (fun _ => .refl) (fun _ _ _ => .trans)
    (advance_moves estimateSegments) s _ _) hids

end

/-! ### A run that fires what it has overlooked -/

/-- Reads that let a row go: a conversation with a number, and gates that are open. -/
def clearReads : Reads where
  conversation := some
    { contactPhone := some "+12105550100", number := some ("+12105550101", false),
      newestInbound := none }
  task := .error
  calendar := { outbox := some 0, links := some [], connections := none }
  gates := none

def clearFacts (now : ℤ) : FireFacts where
  task := some { deletedAt := none, remindersOff := false, dueAt := some now, sourceDoneAt := none }
  calendarBacked := false
  calendarSafe := false
  now := now
  messageId := 0

theorem verdict_clearReads (now : ℤ) (row : ScheduledMessage) :
    verdict now row clearReads = .fire := by
  have hbooked : jobStillBooked row clearReads.task = true := by
    unfold jobStillBooked
    split_ifs <;> rfl
  have hcalendar : linkedCalendarsVerifiedRecently row now clearReads.calendar = true := by
    unfold linkedCalendarsVerifiedRecently
    split_ifs <;> rfl
  unfold verdict
  rw [hbooked, hcalendar]
  rfl

theorem fire_clearFacts {id : Uuid} (segments : ℕ) (now : ℤ)
    (hr : s.table.find? (ScheduledMessage.isLive id) = some r) :
    (fire id segments (clearFacts now) s).2 = .fired (r.message segments 0) := by
  unfold fire
  rw [hr]
  simp [clearFacts, TaskRow.gone]

theorem solo_skip (estimateSegments : String → ℕ) (s : Store) (now : ℤ)
    (before due : List ScheduledMessage) (finds : List Find) :
    solo (job estimateSegments) s (some (.gating now (before ++ due)))
        (List.replicate before.length .failed ++ finds) =
      solo (job estimateSegments) s (some (.gating now due)) finds := by
  induction before with
  | nil => rfl
  | cons row before ih => exact ih

theorem exists_departure (estimateSegments : String → ℕ) {due : List ScheduledMessage}
    (hrow : row ∈ due) (hr : s.table.find? (ScheduledMessage.isLive row.id) = some r) (now : ℤ) :
    ∃ finds, { row := r, run := now, instant := now } ∈
      (solo (job estimateSegments) s (some (.gating now due)) finds).2 := by
  obtain ⟨before, after, rfl⟩ := List.append_of_mem hrow
  refine ⟨List.replicate before.length .failed ++ [.reads clearReads, .done (clearFacts now)], ?_⟩
  rw [solo_skip]
  have hacting : (solo (job estimateSegments) s (some (.gating now (row :: after)))
      [.reads clearReads, .done (clearFacts now)]).2 =
        departures estimateSegments now row (verdict now row clearReads) (clearFacts now) s := by
    simp [solo_cons, job, advance]
  rw [hacting, verdict_clearReads]
  unfold departures
  rw [hr, fire_clearFacts _ now hr]
  exact List.mem_singleton_self _

theorem find?_isLive {rows : List ScheduledMessage} (hids : (ids rows).Nodup) (hr : r ∈ rows)
    (hlive : r.status.live = true) : rows.find? (ScheduledMessage.isLive r.id) = some r := by
  cases hfind : rows.find? (ScheduledMessage.isLive r.id) with
  | none =>
      have hnone := List.find?_eq_none.1 hfind r hr
      simp [ScheduledMessage.isLive, hlive] at hnone
  | some a =>
      have hid := List.find?_some hfind
      simp only [ScheduledMessage.isLive, Bool.and_eq_true, beq_iff_eq] at hid
      rw [List.inj_on_of_nodup_map hids (List.mem_of_find?_eq_some hfind) hr hid.1]

theorem mem_claimDue {limit : ℕ} (hrow : row ∈ (claimDue now limit leaseSeconds s).2) :
    row ∈ (claimDue now limit leaseSeconds s).1.table ∧ row.status.live = true := by
  obtain ⟨r, hr, rfl⟩ := List.mem_map.1 hrow
  obtain ⟨hmem, hclaimable⟩ := List.mem_filter.1 (mem_of_mem_firstBy hr)
  have hlive := live_of_claimable hclaimable
  refine ⟨mem_update.2 (.inr ⟨r, hmem, ?_, rfl⟩), hlive⟩
  rw [hlive, Bool.true_and]
  exact List.contains_iff_mem.2 (List.mem_map.2 ⟨r, hr, rfl⟩)

/-- What is reached is still in the table when the run gets to it, as the claim has stamped it. -/
theorem find_claimed (hids : (ids s.table).Nodup)
    (hr : r ∈ firstBy (·.sendAt) scanLimit (s.table.filter (·.claimable now leaseSeconds))) :
    (claimDue now scanLimit leaseSeconds s).1.table.find? (ScheduledMessage.isLive r.id) =
      some { r with claimedAt := some now } := by
  have hrow : { r with claimedAt := some now } ∈ (claimDue now scanLimit leaseSeconds s).2 :=
    List.mem_map_of_mem hr
  obtain ⟨hmem, hlive⟩ := mem_claimDue hrow
  exact find?_isLive ((claimDue_move now scanLimit leaseSeconds s).ids hids) hmem hlive

/-- **A run can fire a row past its horizon** exactly when it reaches one that it has overlooked. -/
theorem jobRun_late_iff (estimateSegments : String → ℕ) (hids : (ids s.table).Nodup) (now : ℤ) :
    (∀ finds, ∀ d ∈ (jobRun estimateSegments s (now, finds)).2, d.run < d.row.expiresAt) ↔
      NoneOverlooked now s := by
  constructor
  · intro h r hover hreached
    have hlate : r.expiresAt ≤ now := by
      have hmem := (List.mem_insertionSort _).1 (List.mem_of_mem_drop hover)
      have hoverdue := (List.mem_filter.1 hmem).2
      simp only [ScheduledMessage.overdue, Bool.and_eq_true, decide_eq_true_eq] at hoverdue
      exact hoverdue.2
    have hexpired := (expire_move now scanLimit s).ids hids
    have hfind : (claimDue now scanLimit leaseSeconds (expire now scanLimit s).1).1.table.find?
        (ScheduledMessage.isLive r.id) = some { r with claimedAt := some now } :=
      find_claimed hexpired hreached
    have hrow : { r with claimedAt := some now } ∈
        (claimDue now scanLimit leaseSeconds (expire now scanLimit s).1).2 :=
      List.mem_map_of_mem hreached
    obtain ⟨finds, hfinds⟩ := exists_departure estimateSegments hrow hfind now
    have hlater := h (.done (clearFacts now) :: .done (clearFacts now) :: finds) _ hfinds
    exact absurd hlater (not_lt.2 hlate)
  · intro h finds
    exact jobRun_timely estimateSegments hids h

/-- **Nothing leaves past its horizon** in runs none of which reaches a row that it has overlooked;
and a run that does may fire it. -/
theorem expired_never_departs (estimateSegments : String → ℕ) {s : Store}
    (hids : (ids s.table).Nodup) :
    (∀ runs, Reactive.Along (jobRun estimateSegments) (fun s run => NoneOverlooked run.1 s) s runs →
        ∀ d ∈ Reactive.outputs (jobRun estimateSegments) s runs, d.run < d.row.expiresAt) ∧
      ∀ now, (∀ finds, ∀ d ∈ (jobRun estimateSegments s (now, finds)).2,
        d.run < d.row.expiresAt) ↔ NoneOverlooked now s := by
  refine ⟨fun runs hruns => ?_, jobRun_late_iff estimateSegments hids⟩
  have hempty : ∀ d ∈ ([] : List Departure), d.run < d.row.expiresAt :=
    fun d hd => absurd hd List.not_mem_nil
  have hinv := Reactive.outputs_of_inv_along (jobRun estimateSegments)
    (P := fun s out => (ids s.table).Nodup ∧ ∀ d ∈ out, d.run < d.row.expiresAt)
    (fun s run out hP hC => ⟨jobRun_ids estimateSegments run hP.1, fun d hd =>
      (List.mem_append.1 hd).elim (hP.2 d) (jobRun_timely estimateSegments hP.1 hC d)⟩)
    ⟨hids, hempty⟩ hruns
  simpa using hinv.2

/-- One message, with a horizon of a day. -/
def single : Store where
  table := [ScheduledMessage.fresh 1 1 1 "On my way" 60000 86460000 1]
  messages := []

def clearRun (now : ℤ) : ℤ × List Find :=
  (now, [.done (clearFacts now), .done (clearFacts now), .reads clearReads, .done (clearFacts now)])

theorem expired_never_departs_single :
    (Reactive.outputs (jobRun fun _ => 1) single [clearRun 60000, clearRun 120000]).map
        (fun d => (d.row.id, d.run)) = [(1, 60000)] ∧
      ∀ d ∈ Reactive.outputs (jobRun fun _ => 1) single [clearRun 60000, clearRun 120000],
        d.run < d.row.expiresAt :=
  ⟨by decide +kernel, (expired_never_departs (fun _ => 1) (s := single) (by decide)).1 _
    ⟨by decide +kernel, by decide +kernel, trivial⟩⟩

/-- More messages than a scan holds, none of which has gone before the day is over. -/
def backlog : Store where
  table := (List.range (scanLimit + 1)).map fun i =>
    ScheduledMessage.fresh i 1 i "On my way" 60000 86460000 1
  messages := []

theorem nodup_backlog : (ids backlog.table).Nodup := by
  have hids : ids backlog.table = List.range (scanLimit + 1) := by decide +kernel
  exact hids ▸ List.nodup_range

theorem backlog_departs_late :
    ¬∀ (s : Store) (runs : List (ℤ × List Find)), (ids s.table).Nodup →
      ∀ d ∈ Reactive.outputs (jobRun fun _ => 1) s runs, d.run < d.row.expiresAt := by
  intro h
  have hids := nodup_backlog
  have hlate : (Reactive.outputs (jobRun fun _ => 1) backlog [clearRun 86460000]).map
      (fun d => (d.run, d.row.expiresAt)) = [(86460000, 86460000)] := by decide +kernel
  have hmem : (86460000, 86460000) ∈ (Reactive.outputs (jobRun fun _ => 1) backlog
      [clearRun 86460000]).map (fun d => (d.run, d.row.expiresAt)) := by
    rw [hlate]
    exact List.mem_singleton_self _
  obtain ⟨d, hd, heq⟩ := List.mem_map.1 hmem
  have hdate : d.run = 86460000 ∧ d.row.expiresAt = 86460000 := Prod.mk.inj heq
  have hbefore := h backlog [clearRun 86460000] hids d hd
  omega

end Scheduled
