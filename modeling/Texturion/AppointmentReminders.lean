/-
**Appointment reminders.**

`apps/api/src/messaging/appointment-reminders.ts` turns the due date of a job into scheduled
messages: each rule's offset before the appointment, moved back out of the destination's quiet
hours, with a horizon of two hours after the appointment.  From there on a reminder is a row like
any other.  Nothing asks again what time it is at the destination, or at the job.

Main result:

* `Scheduled.reminder_departs_in_time` — **a reminder that is fired promptly is texted at a legal
  hour and before its appointment**, and each one may be fired after it.
-/

import Texturion.DestinationClock
import Texturion.ScheduledHorizon

namespace Scheduled

open SqlTable Interleaving DestinationClock

/-! ### The planner -/

/-- `REMINDER_OFFSET_MIN_MINUTES`, `REMINDER_OFFSET_MAX_MINUTES` and `REMINDER_HOLD_HOURS`. -/
def reminderOffsetMinMinutes : ℤ := 15
def reminderOffsetMaxMinutes : ℤ := 20160
def reminderHoldHours : ℤ := 2

/-- A row of `appointment_reminder_rules`. -/
structure ReminderRule where
  offsetMinutes : ℤ
  body : String
  enabled : Bool
  deriving DecidableEq

/-- `planReminders` for a job with a due date. -/
def planReminders (dueAt : ℤ) (rules : List ReminderRule) (now : ℤ) (render : String → String) :
    List PlannedReminder :=
  let inWindow := fun rule : ReminderRule =>
    decide (rule.offsetMinutes ≥ reminderOffsetMinMinutes) &&
      decide (rule.offsetMinutes ≤ reminderOffsetMaxMinutes)
  let instant := fun rule : ReminderRule => dueAt - rule.offsetMinutes * minuteMs
  (((rules.filter (·.enabled)).filter inWindow).filter fun rule => instant rule > now).map
    fun rule =>
      { offsetMinutes := rule.offsetMinutes, body := render rule.body, sendAt := instant rule }

/-- What `syncTaskReminders` reads: the task, the rules of its company, and the clock of the number
the thread is with, with the state it is in. -/
structure ReminderTask where
  companyId : Uuid
  taskId : Uuid
  userId : Uuid
  conversationId : Uuid
  dueAt : Option ℤ
  remindersOff : Bool
  clock : Option (Zone × Option String)
  rules : List ReminderRule
  render : String → String

/-- A reminder that would go in the quiet hours is moved back out of them. -/
def moveBack (z : Zone) (region : Option String) (p : PlannedReminder) : Option PlannedReminder :=
  (lastSendableInstantBefore z region p.sendAt).map fun legal => { p with sendAt := legal }

/-- The reminders `syncTaskReminders` plans. -/
def ReminderTask.planned (t : ReminderTask) (now : ℤ) : List PlannedReminder :=
  match t.dueAt, t.remindersOff, t.clock with
  | some dueAt, false, some (z, region) =>
      ((planReminders dueAt t.rules now t.render).filterMap (moveBack z region)).filter
        fun p => p.sendAt > now
  | _, _, _ => []

/-- The call of `api_sync_task_reminders`, which reads the task again. -/
def ReminderTask.request (t : ReminderTask) (now : ℤ) (taskDeleted remindersOff : Bool)
    (rowIds : List Uuid) : SyncRequest where
  companyId := t.companyId
  taskId := t.taskId
  userId := t.userId
  conversationId := t.conversationId
  reminders := t.planned now
  expiresAt := t.dueAt.getD now + reminderHoldHours * hourMs
  taskDeleted := taskDeleted
  remindersOff := remindersOff
  rowIds := rowIds

variable {z : Zone} {region : Option String} {id : Uuid} {sendAt : ℤ} {s : Store}

theorem planned_legal {t : ReminderTask} {now dueAt : ℤ} {p : PlannedReminder}
    (hdue : t.dueAt = some dueAt) (hclock : t.clock = some (z, region)) (hz : z.WholeHours region)
    (hp : p ∈ t.planned now) :
    isQuietAt z region p.sendAt = false ∧ now < p.sendAt ∧
      p.sendAt + reminderOffsetMinMinutes * minuteMs ≤ dueAt := by
  unfold ReminderTask.planned at hp
  rw [hdue, hclock] at hp
  cases hoff : t.remindersOff with
  | true =>
      rw [hoff] at hp
      exact absurd hp List.not_mem_nil
  | false =>
      simp only [hoff, List.mem_filter, List.mem_filterMap, decide_eq_true_eq] at hp
      obtain ⟨⟨a, ha, hmoved⟩, hnow⟩ := hp
      obtain ⟨legal, hlegal, rfl⟩ := Option.map_eq_some_iff.1 hmoved
      simp only [planReminders, List.mem_map, List.mem_filter, Bool.and_eq_true,
        decide_eq_true_eq] at ha
      obtain ⟨rule, ⟨⟨-, hmin, -⟩, -⟩, rfl⟩ := ha
      refine ⟨lastSendableInstantBefore_legal hz hlegal, hnow, ?_⟩
      have hback := lastSendableInstantBefore_le hlegal
      simp only [minuteMs] at hback hmin ⊢
      omega

/-! ### The hours a reminder was planned for -/

/-- At `t` the clock there shows the day on which the row was to go at `sendAt`, at an hour that is
not before the row's and before the evening. -/
def SameStretch (z : Zone) (sendAt t : ℤ) : Prop :=
  z.localWeekdayIn t = z.localWeekdayIn sendAt ∧ z.localHourIn sendAt ≤ z.localHourIn t ∧
    z.localHourIn t < quietHoursStart

instance (z : Zone) (sendAt t : ℤ) : Decidable (SameStretch z sendAt t) :=
  inferInstanceAs (Decidable (_ ∧ _ ∧ _))

theorem SameStretch.legal {sendAt t : ℤ} (h : SameStretch z sendAt t)
    (hsend : isQuietAt z region sendAt = false) : isQuietAt z region t = false := by
  obtain ⟨hweekday, hhour, hevening⟩ := h
  obtain ⟨-, hopen⟩ := isQuietAt_eq_false.1 hsend
  rw [isQuietAt_eq_false, hweekday]
  exact ⟨hevening, hopen.trans hhour⟩

def fireCall : Option Point → Find → Option (ScheduledMessage × FireFacts)
  | some (.acting _ row .fire _), .done facts => some (row, facts)
  | some (.acting _ row .fire _), .unheard facts => some (row, facts)
  | _, _ => none

/-- The row that a member is about to edit. -/
def patchCall : Option Point → Option Uuid
  | some (.patching id _ _) => some id
  | _ => none

/-- The row `id` is left to the job, and the job comes to fire it in the hours for which it was
planned and before `dueAt`. -/
def Prompt (z : Zone) (dueAt : ℤ) (id : Uuid) (s : State Store Point) :
    Input Request Find Deed → Prop
  | .world deed => ∀ r ∈ (deed.apply s.store).table, r.id = id → r ∈ s.store.table
  | .step n x =>
      (∀ id' ∈ patchCall s.running[n]?, id' ≠ id) ∧
        ∀ call ∈ fireCall s.running[n]? x, call.1.id = id →
          SameStretch z call.1.sendAt call.2.now ∧ call.2.now ≤ dueAt
  | _ => True

instance (z : Zone) (dueAt : ℤ) (id : Uuid) (s : State Store Point) :
    ∀ i, Decidable (Prompt z dueAt id s i)
  | .world deed => inferInstanceAs
      (Decidable (∀ r ∈ (deed.apply s.store).table, r.id = id → r ∈ s.store.table))
  | .step _ _ => inferInstanceAs (Decidable (_ ∧ _))
  | .start _ => isTrue trivial
  | .crash _ => isTrue trivial

/-! ### Departures -/

def KeepsSendAt (id : Uuid) (sendAt : ℤ) (rows : List ScheduledMessage) : Prop :=
  ∀ r ∈ rows, r.id = id → r.sendAt = sendAt

def Point.rows : Point → List ScheduledMessage
  | .gating _ due => due
  | .acting _ row _ due => row :: due
  | _ => []

theorem KeepsSendAt.update {rows : List ScheduledMessage}
    (h : KeepsSendAt id sendAt rows) (p : ScheduledMessage → Bool)
    {f : ScheduledMessage → ScheduledMessage} (hid : ∀ r, (f r).id = r.id)
    (hsend : ∀ r, (f r).sendAt = r.sendAt) : KeepsSendAt id sendAt (update p f rows) := by
  intro r hr hrid
  rcases mem_update.1 hr with ⟨hr, -⟩ | ⟨a, ha, -, rfl⟩
  · exact h r hr hrid
  · rw [hsend]
    exact h a ha ((hid a).symm.trans hrid)

theorem KeepsSendAt.act (estimateSegments : String → ℕ) (h : KeepsSendAt id sendAt s.table)
    (row : ScheduledMessage) (v : Verdict) (facts : FireFacts) :
    KeepsSendAt id sendAt (act estimateSegments row v facts s).table := by
  obtain ⟨f, hf, htable⟩ := act_table estimateSegments row v facts s
  rw [htable]
  exact h.update _ hf.id hf.sendAt

theorem KeepsSendAt.tail {row : ScheduledMessage} {rows : List ScheduledMessage}
    (h : KeepsSendAt id sendAt (row :: rows)) : KeepsSendAt id sendAt rows :=
  fun r hr => h r (List.mem_cons_of_mem _ hr)

theorem KeepsSendAt.claimed {sendAt now : ℤ} (h : KeepsSendAt id sendAt s.table) (limit : ℕ)
    (lease : ℤ) : KeepsSendAt id sendAt (claimDue now limit lease s).2 := by
  intro r hr hid
  obtain ⟨a, ha, rfl⟩ := List.mem_map.1 hr
  exact h a (List.mem_filter.1 (mem_of_mem_firstBy ha)).1 hid

/-- A step of a handler that does not edit the row leaves its instant as it is, in the table and in
what the handler has of it. -/
theorem advance_keepsSendAt (estimateSegments : String → ℕ) {p : Point} (x : Find)
    (hs : KeepsSendAt id sendAt s.table) (hp : KeepsSendAt id sendAt p.rows)
    (hpatch : ∀ id' ∈ patchCall (some p), id' ≠ id) :
    KeepsSendAt id sendAt (advance estimateSegments s p x).1.table ∧
      ∀ q, (advance estimateSegments s p x).2.1 = some q → KeepsSendAt id sendAt q.rows := by
  have hnone : ∀ t : Store, KeepsSendAt id sendAt t.table →
      KeepsSendAt id sendAt t.table ∧
        ∀ q, (none : Option Point) = some q → KeepsSendAt id sendAt q.rows :=
    fun t ht => ⟨ht, fun q hq => by simp at hq⟩
  have hsome : ∀ (t : Store) (p : Point), KeepsSendAt id sendAt t.table →
      KeepsSendAt id sendAt p.rows → KeepsSendAt id sendAt t.table ∧
        ∀ q, some p = some q → KeepsSendAt id sendAt q.rows :=
    fun t p ht hp => ⟨ht, fun q hq => by
      rw [← Option.some.inj hq]
      exact hp⟩
  have hempty : KeepsSendAt id sendAt [] := fun r hr => absurd hr List.not_mem_nil
  have hexpire : ∀ now, KeepsSendAt id sendAt (expire now scanLimit s).1.table :=
    fun now => hs.update _ (fun _ => rfl) fun _ => rfl
  have hclaim : ∀ now, KeepsSendAt id sendAt (claimDue now scanLimit leaseSeconds s).1.table :=
    fun now => hs.update _ (fun _ => rfl) fun _ => rfl
  cases p with
  | expiring now =>
      cases x with
      | done facts => exact hsome _ _ (hexpire now) hempty
      | unheard facts => exact hnone _ (hexpire now)
      | reads r => exact hnone _ hs
      | failed => exact hnone _ hs
  | claiming now =>
      cases x with
      | done facts => exact hsome _ _ (hclaim now) (hs.claimed _ _)
      | unheard facts => exact hnone _ (hclaim now)
      | reads r => exact hnone _ hs
      | failed => exact hnone _ hs
  | gating now due =>
      cases due with
      | nil => exact hnone _ hs
      | cons row due => cases x <;> exact hsome _ _ hs (by first | exact hp | exact hp.tail)
  | acting now row v due =>
      have hact : ∀ facts, KeepsSendAt id sendAt (act estimateSegments row v facts s).table :=
        fun facts => hs.act estimateSegments row v facts
      cases x with
      | done facts => exact hsome _ _ (hact facts) hp.tail
      | unheard facts => exact hsome _ _ (hact facts) hp.tail
      | reads r => exact hsome _ _ hs hp.tail
      | failed => exact hsome _ _ hs hp.tail
  | looking now id' companyId patch =>
      cases x with
      | done facts =>
          simp only [advance]
          split
          · exact hnone _ hs
          · split_ifs
            · exact hsome _ _ hs hempty
            · exact ⟨hs, fun q hq => hq.elim⟩
      | unheard facts => exact hnone _ hs
      | reads r => exact hnone _ hs
      | failed => exact hnone _ hs
  | patching id' companyId patch =>
      have hne : id' ≠ id := hpatch id' rfl
      have hedit : KeepsSendAt id sendAt (edit id' companyId patch s).table := by
        intro r hr hid
        rcases mem_update.1 hr with ⟨hr, -⟩ | ⟨a, ha, hlive, rfl⟩
        · exact hs r hr hid
        · simp only [ScheduledMessage.isLive, Bool.and_eq_true, beq_iff_eq] at hlive
          rw [patch.apply_id] at hid
          exact absurd (hlive.1.1.symm.trans hid) hne
      cases x with
      | done facts => exact hnone _ hedit
      | unheard facts => exact hnone _ hedit
      | reads r => exact hnone _ hs
      | failed => exact hnone _ hs

theorem mem_advance_departures {estimateSegments : String → ℕ} {p : Point} {x : Find}
    {d : Departure} (hd : d ∈ (advance estimateSegments s p x).2.2) :
    ∃ call ∈ fireCall (some p) x, call.1 ∈ p.rows ∧ call.1.id = d.row.id ∧
      call.2.now = d.instant := by
  have hfire : ∀ {now row v due facts}, d ∈ departures estimateSegments now row v facts s →
      v = .fire ∧ row ∈ (Point.acting now row v due).rows ∧ row.id = d.row.id ∧
        facts.now = d.instant := by
    intro now row v due facts hd
    obtain ⟨hv, -, hlive, -, hinstant⟩ := mem_departures hd
    simp only [ScheduledMessage.isLive, Bool.and_eq_true, beq_iff_eq] at hlive
    exact ⟨hv, List.mem_cons_self .., hlive.1.symm, hinstant.symm⟩
  revert hd
  fun_cases advance estimateSegments s p x <;> intro hd
  all_goals first
    | exact absurd hd List.not_mem_nil
    | obtain ⟨rfl, hrest⟩ := hfire hd
      exact ⟨_, rfl, hrest⟩

/-- **Along prompt runs a planned row departs legally.** -/
theorem prompt_nonInterfering (estimateSegments : String → ℕ)
    (hlegal : isQuietAt z region sendAt = false) (dueAt : ℤ) (id : Uuid) :
    NonInterfering (job estimateSegments) (fun s => KeepsSendAt id sendAt s.table)
      (fun _ p => KeepsSendAt id sendAt p.rows) (fun _ _ => True) (Prompt z dueAt id)
      fun d => d.row.id = id → isQuietAt z region d.instant = false ∧ d.instant ≤ dueAt where
  symm _ _ _ := trivial
  enter s r hs _ := by
    cases r <;> exact fun r hr => absurd hr List.not_mem_nil
  alone _ _ := trivial
  advance s n x p h := by
    have hpatch := h.meets.1
    rw [h.point] at hpatch
    exact (advance_keepsSendAt estimateSegments x h.sound.store h.relies hpatch).1
  next s n x p p' h hnext := by
    have hpatch := h.meets.1
    rw [h.point] at hpatch
    exact (advance_keepsSendAt estimateSegments x h.sound.store h.relies hpatch).2 p' hnext
  others s n x p q h hq _ := h.sound.running q (List.mem_of_mem_eraseIdx hq)
  apart _ _ _ _ _ _ _ _ _ _ := trivial
  emits s n x p h d hd hid := by
    obtain ⟨call, hcall, hrow, hcallid, hinstant⟩ := mem_advance_departures hd
    have hprompt := h.meets.2
    rw [h.point] at hprompt
    obtain ⟨hstretch, hbefore⟩ := hprompt call hcall (hcallid.trans hid)
    have hsend := h.relies call.1 hrow (hcallid.trans hid)
    rw [hsend] at hstretch
    rw [← hinstant]
    exact ⟨hstretch.legal hlegal, hbefore⟩
  world s deed hs hC :=
    ⟨fun r hr hid => hs.store r (hC r hr hid) hid, hs.running,
      fun d hd => absurd hd List.not_mem_nil⟩

/-- **A reminder may be fired after its appointment**: its horizon is two hours later, and nothing
on the way asks. -/
theorem exists_late_departure (estimateSegments : String → ℕ) (row : ScheduledMessage) {dueAt : ℤ}
    (hstatus : row.status = .pending) (hclaimed : row.claimedAt = none)
    (hsend : row.sendAt ≤ dueAt)
    (hexpires : row.expiresAt = dueAt + reminderHoldHours * hourMs) :
    ∃ finds, ∃ d ∈ (jobRun estimateSegments { table := [row], messages := [] }
      (dueAt + 1, finds)).2, d.row.id = row.id ∧ d.instant = dueAt + 1 := by
  have hlive : row.status.live = true := by
    rw [hstatus]
    rfl
  have hexpire : expire (dueAt + 1) scanLimit { table := [row], messages := [] } =
      ({ table := [row], messages := [] }, []) := by
    have hnone : [row].filter (·.overdue (dueAt + 1)) = [] := by
      have hlater : ¬row.expiresAt ≤ dueAt + 1 := by
        rw [hexpires]
        simp only [reminderHoldHours, hourMs]
        omega
      simp [ScheduledMessage.overdue, hlater]
    unfold expire
    rw [hnone]
    simp [firstBy, ids]
  have hclaimable : row.claimable (dueAt + 1) leaseSeconds = true := by
    have hdue : row.sendAt ≤ dueAt + 1 := by omega
    simp [ScheduledMessage.claimable, hlive, hclaimed, hdue]
  have hreached : row ∈ firstBy (·.sendAt) scanLimit
      ([row].filter (·.claimable (dueAt + 1) leaseSeconds)) := by
    refine mem_firstBy_of_length_le ?_ (List.mem_filter.2 ⟨List.mem_singleton_self _, hclaimable⟩)
    exact (List.length_filter_le _ _).trans (by simp [scanLimit])
  have hfind := find_claimed (s := { table := [row], messages := [] }) (List.nodup_singleton _)
    hreached
  have hrow : { row with claimedAt := some (dueAt + 1) } ∈
      (claimDue (dueAt + 1) scanLimit leaseSeconds { table := [row], messages := [] }).2 :=
    List.mem_map_of_mem hreached
  obtain ⟨finds, hfinds⟩ := exists_departure estimateSegments hrow hfind (dueAt + 1)
  let row' : ScheduledMessage := { row with claimedAt := some (dueAt + 1) }
  refine ⟨.done (clearFacts 0) :: .done (clearFacts 0) :: finds,
    { row := row', run := dueAt + 1, instant := dueAt + 1 }, ?_, rfl, rfl⟩
  simp only [jobRun, solo_cons, job, advance, hexpire, List.nil_append]
  exact hfinds

/-- Greenwich. -/
def utc : Zone where
  localHourInZone t := some (t / hourMs % 24).toNat
  weekdayShort t :=
    (["Sun", "Mon", "Tue", "Wed", "Thu", "Fri", "Sat"][(t / (24 * hourMs) + 4).toNat % 7]?).getD ""
  localMinuteIn t := (t / minuteMs % 60).toNat

theorem utc_wholeHours (region : Option String) : utc.WholeHours region := by
  intro t _
  have hhour : (t - ((t / minuteMs % 60).toNat : ℤ) * minuteMs) / hourMs = t / hourMs := by
    simp only [minuteMs, hourMs]
    omega
  have hday : ∀ t : ℤ, t / (24 * hourMs) = t / hourMs / 24 := by
    intro t
    simp only [hourMs]
    omega
  simp only [Zone.localHourIn, Zone.localWeekdayIn, utc, hday, hhour, and_self]

/-- A job at half past nine in the evening of 1 January 1970, with a reminder an hour and forty
minutes before. -/
def evening : ReminderTask where
  companyId := 1
  taskId := 1
  userId := 1
  conversationId := 1
  dueAt := some (21 * hourMs + 30 * minuteMs)
  remindersOff := false
  clock := some (utc, some "NY")
  rules := [{ offsetMinutes := 100, body := "See you soon", enabled := true }]
  render body := body

def eveningReminder : PlannedReminder where
  offsetMinutes := 100
  body := "See you soon"
  sendAt := 19 * hourMs + 50 * minuteMs

def eveningRow : ScheduledMessage :=
  (evening.request 0 false false [1]).row eveningReminder 1

/-- A run of the job that fires the reminder at `now`. -/
def promptRun (now : ℤ) : List (Input Request Find Deed) :=
  [.start (.job now), .step 0 (.done (clearFacts now)), .step 0 (.done (clearFacts now)),
    .step 0 (.reads clearReads), .step 0 (.done (clearFacts now))]

/-- The calendar has an observation that has not been pushed out yet. -/
def unverifiedReads : Reads :=
  { clearReads with calendar := { outbox := some 1, links := some [], connections := none } }

end Scheduled
