/-
**Which due date a reminder speaks of.**

The words of a reminder are fixed when it is queued: `syncTaskReminders` reads the job, renders each
rule, and calls `api_sync_task_reminders` later.  That function locks the job but does not compare
its due date with the one that was read; a change of the due date by people cancels the held
reminders and leaves the pending ones to the next call, which may fail or never come.  The firing
asks whether the job is still scheduled, and not for when.

For each row the model keeps the due date that its words were rendered from.

Main result:

* `ReminderReplan.fired_current_iff` — **reminders speak of the current appointment in exactly the
  runs in which none is fired before a call that has read it**.
-/

import Texturion.AppointmentReminders
import Texturion.ReactiveRun

namespace ReminderReplan

open SqlTable Scheduled DestinationClock

/-- A job with the scheduled messages. -/
structure Appointment where
  companyId : Uuid
  taskId : Uuid
  store : Store
  task : TaskRow
  /-- What calls of `syncTaskReminders` have read of the job. -/
  reads : List TaskRow
  /-- The due date that the words of a row were rendered from. -/
  renderedFrom : Uuid → Option ℤ
  /-- The due date that the last call of `api_sync_task_reminders` had read. -/
  planned : Option ℤ

inductive Event
  /-- People change the job; so does the answer that a removed event has moved. -/
  | edit (task : TaskRow)
  /-- The provider moves the job. -/
  | applyMove (dueAt : Option ℤ)
  /-- A removal, a refusal, or an answer that takes the calendar's values or cancels the job. -/
  | clearingWrite (task : TaskRow)
  | read
  | sync (read : ℕ) (t : ReminderTask) (rowIds : List Uuid)
  | claim (limit : ℕ) (leaseSeconds : ℤ)
  | expire (limit : ℕ)
  | hold (id : Uuid) (reason reasonKey : String)
  | fail (id : Uuid) (reason reasonKey : String)
  | fire (id : Uuid) (segments : ℕ) (facts : FireFacts)

/-- A reminder that has been fired. -/
structure Fired where
  renderedFrom : Option ℤ
  dueAt : Option ℤ
  deriving DecidableEq

namespace Appointment

variable (w : Appointment) (now : ℤ)

/-- A reminder of the job that has not ended. -/
def isLiveReminder (r : ScheduledMessage) : Bool :=
  r.status.live && r.companyId == w.companyId && r.taskId == some w.taskId && r.origin == .reminder

/-- A write of the job, with the trigger of `due_at`. -/
def writeTask (task : TaskRow) : Appointment :=
  { w with
    task := task
    store := if task.dueAt = w.task.dueAt then w.store
      else dueMoved now w.companyId w.taskId w.store }

/-- The pending reminders go. -/
def clear : Appointment := { w with store := clearReminders w.companyId w.taskId w.store }

/-- The words of the row are set by the call: those of a held reminder that is planned, and those of
a row that was not there. -/
def writtenBy (q : SyncRequest) (id : Uuid) : Bool :=
  !(q.taskDeleted || q.remindersOff) && (ids (w.store.table.filter fun r =>
      r.isReminder w.companyId w.taskId .held && (q.planned r).isSome)).contains id ||
    !(ids (clearReminders w.companyId w.taskId w.store).table).contains id

/-- The call of `api_sync_task_reminders` for what was read. -/
def request (read : TaskRow) (t : ReminderTask) (rowIds : List Uuid) : SyncRequest :=
  { t with
    companyId := w.companyId
    taskId := w.taskId
    dueAt := read.dueAt
    remindersOff := read.remindersOff }.request now w.task.deletedAt.isSome w.task.remindersOff rowIds

/-- `api_sync_task_reminders` for what was read. -/
def sync (read : TaskRow) (t : ReminderTask) (rowIds : List Uuid) : Appointment :=
  let q := w.request now read t rowIds
  { w with
    store := syncTaskReminders now q w.store
    renderedFrom := fun id => if w.writtenBy q id then read.dueAt else w.renderedFrom id
    planned := read.dueAt }

/-- What the firing of a row finds: of a reminder of the job, the job as it is. -/
def factsFor (r : ScheduledMessage) (facts : FireFacts) : FireFacts :=
  if w.isLiveReminder r then { facts with task := some w.task } else facts

/-- `api_fire_scheduled_message`. -/
def fire (id : Uuid) (segments : ℕ) (facts : FireFacts) : Appointment × List Fired :=
  match w.store.table.find? (ScheduledMessage.isLive id) with
  | none => (w, [])
  | some r =>
    let result := Scheduled.fire id segments (w.factsFor r facts) w.store
    ({ w with store := result.1 },
      match result.2 with
      | .fired _ => if w.isLiveReminder r then [⟨w.renderedFrom id, w.task.dueAt⟩] else []
      | _ => [])

end Appointment

def step (w : Appointment) (i : ℤ × Event) : Appointment × List Fired :=
  match i.2 with
  | .edit task => (w.writeTask i.1 task, [])
  | .applyMove dueAt =>
    (if dueAt = w.task.dueAt then w
      else (w.writeTask i.1 { w.task with dueAt := dueAt }).clear, [])
  | .clearingWrite task => ((w.writeTask i.1 task).clear, [])
  | .read => ({ w with reads := w.reads ++ [w.task] }, [])
  | .sync read t rowIds =>
    (match w.reads[read]? with
      | none => w
      | some task => w.sync i.1 task t rowIds, [])
  | .claim limit leaseSeconds =>
    ({ w with store := (claimDue i.1 limit leaseSeconds w.store).1 }, [])
  | .expire limit => ({ w with store := (expire i.1 limit w.store).1 }, [])
  | .hold id reason key => ({ w with store := hold i.1 id reason key w.store }, [])
  | .fail id reason key => ({ w with store := fail id reason key w.store }, [])
  | .fire id segments facts => w.fire id segments facts

/-- Every live reminder of the job was rendered from what the last call had read. -/
def Settled (w : Appointment) : Prop :=
  ∀ r ∈ w.store.table, w.isLiveReminder r = true → w.renderedFrom r.id = w.planned

/-! ### Statements that leave the words alone -/

/-- The live reminders of the job are, by their ids, among those of before. -/
def Narrows (w : Appointment) (s : Store) : Prop :=
  ∀ r ∈ s.table, w.isLiveReminder r = true →
    ∃ a ∈ w.store.table, w.isLiveReminder a = true ∧ a.id = r.id

theorem Narrows.refl (w : Appointment) : Narrows w w.store := fun r hr hlive => ⟨r, hr, hlive, rfl⟩

theorem Narrows.settled {w : Appointment} {s : Store} (h : Narrows w s) (hw : Settled w) :
    Settled { w with store := s } := by
  intro r hr hlive
  obtain ⟨a, ha, halive, hid⟩ := h r hr hlive
  rw [← hid]
  exact hw a ha halive

/-- An update of live rows that sets neither ids nor what the rows are about. -/
theorem narrows_update {w : Appointment} {p : ScheduledMessage → Bool}
    {f : ScheduledMessage → ScheduledMessage} {messages : List Message}
    (hp : ∀ r, p r = true → r.status.live = true) (hid : ∀ r, (f r).id = r.id)
    (hcompany : ∀ r, (f r).companyId = r.companyId) (htask : ∀ r, (f r).taskId = r.taskId)
    (horigin : ∀ r, (f r).origin = r.origin) : Narrows w ⟨update p f w.store.table, messages⟩ := by
  intro r hr hlive
  rcases mem_update.1 hr with ⟨hr, -⟩ | ⟨a, ha, hpa, rfl⟩
  · exact ⟨r, hr, hlive, rfl⟩
  · refine ⟨a, ha, ?_, (hid a).symm⟩
    simp only [Appointment.isLiveReminder, hcompany, htask, horigin, Bool.and_eq_true] at hlive ⊢
    exact ⟨⟨⟨hp a hpa, hlive.1.1.2⟩, hlive.1.2⟩, hlive.2⟩

theorem live_of_isReminder {c t : Uuid} {status : Status} {r : ScheduledMessage}
    (hstatus : status.live = true) (h : r.isReminder c t status = true) : r.status.live = true := by
  simp only [ScheduledMessage.isReminder, Bool.and_eq_true, beq_iff_eq] at h
  rw [h.2]
  exact hstatus

theorem narrows_dueMoved (w : Appointment) (now : ℤ) :
    Narrows w (dueMoved now w.companyId w.taskId w.store) :=
  narrows_update (fun _ h => live_of_isReminder rfl h) (fun _ => rfl) (fun _ => rfl) (fun _ => rfl)
    fun _ => rfl

theorem narrows_clearReminders (w : Appointment) :
    Narrows w (clearReminders w.companyId w.taskId w.store) := by
  intro r hr hlive
  exact ⟨r, (List.mem_filter.1 hr).1, hlive, rfl⟩

theorem narrows_setLive {w : Appointment} {id : Uuid} {f : ScheduledMessage → ScheduledMessage}
    {messages : List Message} (hid : ∀ r, (f r).id = r.id)
    (hcompany : ∀ r, (f r).companyId = r.companyId) (htask : ∀ r, (f r).taskId = r.taskId)
    (horigin : ∀ r, (f r).origin = r.origin) :
    Narrows w { w.store.setLive id f with messages := messages } :=
  narrows_update (fun _ h => live_of_isLive h) hid hcompany htask horigin

theorem narrows_fire (w : Appointment) (id : Uuid) (segments : ℕ) (facts : FireFacts) :
    Narrows w (Scheduled.fire id segments facts w.store).1 := by
  unfold Scheduled.fire
  split
  · exact .refl w
  · dsimp only
    split
    · exact narrows_setLive (fun _ => rfl) (fun _ => rfl) (fun _ => rfl) fun _ => rfl
    · split
      · exact narrows_setLive (fun _ => rfl) (fun _ => rfl) (fun _ => rfl) fun _ => rfl
      · exact narrows_setLive (fun _ => rfl) (fun _ => rfl) (fun _ => rfl) fun _ => rfl

/-! ### The replan -/

section

variable (q : SyncRequest)

theorem insertReminders_fresh (plan : List (PlannedReminder × Uuid)) (s : Store) :
    ∀ r ∈ (plan.foldl q.insertReminder s).table, r ∈ s.table ∨ r.id ∉ ids s.table := by
  induction plan generalizing s with
  | nil => exact fun r hr => .inl hr
  | cons p plan ih =>
    intro r hr
    -- one insert: nothing, or a row whose id is new
    have hone : (∀ a ∈ (q.insertReminder s p).table, a ∈ s.table ∨ a.id ∉ ids s.table) ∧
        ∀ id ∈ ids s.table, id ∈ ids (q.insertReminder s p).table := by
      unfold SyncRequest.insertReminder
      split
      · exact ⟨fun a ha => .inl ha, fun id hid => hid⟩
      · unfold Store.insert
        split
        · exact ⟨fun a ha => .inl ha, fun id hid => hid⟩
        · next hnew =>
          constructor
          · intro a ha
            rcases List.mem_append.1 ha with ha | ha
            · exact .inl ha
            · obtain rfl := List.mem_singleton.1 ha
              exact .inr (by simpa using hnew)
          · intro id hid
            simp only [ids, List.map_append, List.mem_append]
            exact .inl hid
    rcases ih (q.insertReminder s p) r hr with hmem | hfresh
    · exact hone.1 r hmem
    · exact .inr fun hid => hfresh (hone.2 r.id hid)

theorem refresh_keeps (r : ScheduledMessage) :
    (q.refresh r).id = r.id ∧ (q.refresh r).status = r.status ∧
      (q.refresh r).companyId = r.companyId ∧ (q.refresh r).taskId = r.taskId ∧
      (q.refresh r).origin = r.origin ∧
      (q.refresh r).reminderOffsetMinutes = r.reminderOffsetMinutes := by
  unfold SyncRequest.refresh
  split <;> exact ⟨rfl, rfl, rfl, rfl, rfl, rfl⟩

theorem isReminder_refresh (c t : Uuid) (status : Status)
    (r : ScheduledMessage) : (q.refresh r).isReminder c t status = r.isReminder c t status := by
  obtain ⟨-, hstatus, hcompany, htask, horigin, -⟩ := refresh_keeps q r
  simp only [ScheduledMessage.isReminder, hstatus, hcompany, htask, horigin]

theorem planned_refresh (r : ScheduledMessage) : q.planned (q.refresh r) = q.planned r := by
  obtain ⟨-, -, -, -, -, hoffset⟩ := refresh_keeps q r
  simp only [SyncRequest.planned, hoffset]

end

theorem isReminder_of_live {w : Appointment} {r : ScheduledMessage}
    (h : w.isLiveReminder r = true) : r.isReminder w.companyId w.taskId .pending = true ∨
      r.isReminder w.companyId w.taskId .held = true := by
  simp only [Appointment.isLiveReminder, ScheduledMessage.isReminder, Bool.and_eq_true,
    beq_iff_eq] at h ⊢
  obtain ⟨⟨⟨hlive, hcompany⟩, htask⟩, horigin⟩ := h
  cases hstatus : r.status <;> simp_all [Status.live]

/-- **A call writes the words of every reminder that is live after it.** -/
theorem sync_written (w : Appointment) (now : ℤ) {q : SyncRequest}
    (hcompany : q.companyId = w.companyId) (htask : q.taskId = w.taskId) {r : ScheduledMessage}
    (hr : r ∈ (syncTaskReminders now q w.store).table) (hlive : w.isLiveReminder r = true) :
    w.writtenBy q r.id = true := by
  simp only [syncTaskReminders, hcompany, htask] at hr
  generalize hoff : (q.taskDeleted || q.remindersOff) = off at hr
  -- what is left once the rows that are not in the plan are dropped
  generalize hdropped : ({ w.store with
      table := update (fun r => r.isReminder w.companyId w.taskId .held &&
          (off || (q.planned r).isNone)) (ScheduledMessage.canceling now none)
        (update (fun r => r.isReminder w.companyId w.taskId .held && !off) q.refresh
          (w.store.table.filter fun r => !r.isReminder w.companyId w.taskId .pending)) } : Store) =
      dropped at hr
  have hids : ids dropped.table = ids (clearReminders w.companyId w.taskId w.store).table := by
    rw [← hdropped]
    simp only [ids, clearReminders]
    rw [map_update (f := ScheduledMessage.canceling now none) (fun _ => rfl),
      map_update fun r => (refresh_keeps q r).1]
  have hold : r ∈ dropped.table → w.writtenBy q r.id = true := by
    intro hmem
    rw [← hdropped] at hmem
    rcases mem_update.1 hmem with ⟨hmem, hkept⟩ | ⟨a, -, -, rfl⟩
    · rcases mem_update.1 hmem with ⟨hmem, hsame⟩ | ⟨a, ha, hheld, rfl⟩
      · -- a held reminder is refreshed or dropped, and a pending one has been deleted
        have hpending := (List.mem_filter.1 hmem).2
        rcases isReminder_of_live hlive with h | h
        · simp [h] at hpending
        · cases off <;> simp [h] at hsame hkept
      · simp only [Bool.and_eq_true, Bool.not_eq_true'] at hheld
        obtain ⟨hheld, rfl⟩ := hheld
        rw [isReminder_refresh, planned_refresh, hheld] at hkept
        have hplanned : (q.planned a).isSome = true := by
          simpa [Option.isNone_eq_false_iff] using hkept
        have hmem : a.id ∈ ids (w.store.table.filter fun r =>
            r.isReminder w.companyId w.taskId .held && (q.planned r).isSome) :=
          List.mem_map_of_mem (List.mem_filter.2
            ⟨(List.mem_filter.1 ha).1, by rw [hheld, hplanned]; rfl⟩)
        rw [(refresh_keeps q a).1]
        simp only [Appointment.writtenBy, hoff, Bool.not_false, Bool.true_and, Bool.or_eq_true]
        exact .inl (by simpa using hmem)
    · simp [Appointment.isLiveReminder, ScheduledMessage.canceling, Status.live] at hlive
  cases off with
  | true => exact hold hr
  | false =>
    rcases insertReminders_fresh q _ dropped r hr with hmem | hfresh
    · exact hold hmem
    · rw [hids] at hfresh
      simp only [Appointment.writtenBy, Bool.or_eq_true, Bool.not_eq_true']
      exact .inr (by simpa using hfresh)

/-- After a call, the live reminders were rendered from what it had read, whatever was there. -/
theorem settled_sync (w : Appointment) (now : ℤ) (read : TaskRow) (t : ReminderTask)
    (rowIds : List Uuid) : Settled (w.sync now read t rowIds) := by
  intro r hr hlive
  have hwritten := sync_written w now (q := w.request now read t rowIds) rfl rfl hr hlive
  simp [Appointment.sync, hwritten]

theorem settled_writeTask {w : Appointment} (hw : Settled w) (now : ℤ) (task : TaskRow) :
    Settled (w.writeTask now task) := by
  unfold Appointment.writeTask
  split
  · exact hw
  · exact (narrows_dueMoved w now).settled hw

theorem settled_clear {w : Appointment} (hw : Settled w) : Settled w.clear :=
  (narrows_clearReminders w).settled hw

/-! ### Runs -/

/-- The firing of the row sends it: it is a live reminder of the job, the job is on the books, and
no calendar stands against it. -/
def Sends (w : Appointment) (id : Uuid) (facts : FireFacts) : Prop :=
  ∃ r, w.store.table.find? (ScheduledMessage.isLive id) = some r ∧ w.isLiveReminder r = true ∧
    w.task.gone = false ∧ ¬(facts.calendarBacked = true ∧ facts.calendarSafe = false)

/-- A reminder is not sent unless the last call of `api_sync_task_reminders` had read the due date
that the job has. -/
def Replanned (w : Appointment) (i : ℤ × Event) : Prop :=
  match i.2 with
  | .fire id _ facts => Sends w id facts → w.planned = w.task.dueAt
  | _ => True

theorem fire_outputs (w : Appointment) (id : Uuid) (segments : ℕ) (facts : FireFacts) :
    Sends w id facts ∧ (w.fire id segments facts).2 = [⟨w.renderedFrom id, w.task.dueAt⟩] ∨
      ¬Sends w id facts ∧ (w.fire id segments facts).2 = [] := by
  unfold Appointment.fire
  cases hfind : w.store.table.find? (ScheduledMessage.isLive id) with
  | none =>
    refine .inr ⟨?_, rfl⟩
    rintro ⟨r, hr, -⟩
    rw [hfind] at hr
    cases hr
  | some r =>
    -- of another row nothing is sent of the job
    cases hlive : w.isLiveReminder r with
    | false =>
      refine .inr ⟨?_, ?_⟩
      · rintro ⟨r', hr', hlive', -⟩
        obtain rfl := Option.some.inj (hfind.symm.trans hr')
        rw [hlive] at hlive'
        cases hlive'
      · dsimp only
        split <;> simp [hlive]
    | true =>
      have hrow := hlive
      simp only [Appointment.isLiveReminder, Bool.and_eq_true, beq_iff_eq] at hrow
      obtain ⟨⟨⟨-, -⟩, htask⟩, horigin⟩ := hrow
      simp only [Scheduled.fire, hfind, Appointment.factsFor, hlive, if_true, horigin, htask,
        Option.isSome_some, Option.all_some, true_and]
      by_cases hgone : w.task.gone = true
      · refine .inr ⟨?_, by simp [hgone]⟩
        rintro ⟨-, -, -, hnot, -⟩
        rw [hgone] at hnot
        cases hnot
      · by_cases hbacked : facts.calendarBacked = true ∧ facts.calendarSafe = false
        · refine .inr ⟨?_, by simp [hgone, hbacked]⟩
          rintro ⟨-, -, -, -, hnot⟩
          exact hnot hbacked
        · refine .inl ⟨⟨r, hfind, hlive, by simpa using hgone, hbacked⟩, ?_⟩
          have hclear : ¬(facts.calendarBacked = true ∧ ¬facts.calendarSafe = true) := by
            simpa using hbacked
          rw [if_neg hgone, if_neg hclear]

/-- The row that a firing sends was rendered from what the last call had read. -/
theorem renderedFrom_of_sends {w : Appointment} (hw : Settled w) {id : Uuid} {facts : FireFacts}
    (h : Sends w id facts) : w.renderedFrom id = w.planned := by
  obtain ⟨r, hfind, hlive, -⟩ := h
  have hid : r.id = id := by
    have hisLive := List.find?_some hfind
    simp only [ScheduledMessage.isLive, Bool.and_eq_true, beq_iff_eq] at hisLive
    exact hisLive.1
  rw [← hid]
  exact hw r (List.mem_of_find?_eq_some hfind) hlive

theorem step_settled {w : Appointment} (hw : Settled w) (i : ℤ × Event) : Settled (step w i).1 := by
  obtain ⟨now, event⟩ := i
  cases event with
  | edit task => exact settled_writeTask hw now task
  | applyMove dueAt =>
    simp only [step]
    split
    · exact hw
    · exact settled_clear (settled_writeTask hw now _)
  | clearingWrite task => exact settled_clear (settled_writeTask hw now task)
  | read => exact hw
  | sync read t rowIds =>
    simp only [step]
    split
    · exact hw
    · next task _ => exact settled_sync w now task t rowIds
  | claim limit leaseSeconds =>
    have h : Narrows w (claimDue now limit leaseSeconds w.store).1 :=
      narrows_update (fun _ h => (Bool.and_eq_true _ _ ▸ h).1) (fun _ => rfl) (fun _ => rfl)
        (fun _ => rfl) fun _ => rfl
    exact h.settled hw
  | expire limit =>
    have h : Narrows w (expire now limit w.store).1 :=
      narrows_update (fun _ h => (Bool.and_eq_true _ _ ▸ h).1) (fun _ => rfl) (fun _ => rfl)
        (fun _ => rfl) fun _ => rfl
    exact h.settled hw
  | hold id reason key =>
    have h : Narrows w (hold now id reason key w.store) :=
      narrows_setLive (fun _ => rfl) (fun _ => rfl) (fun _ => rfl) fun _ => rfl
    exact h.settled hw
  | fail id reason key =>
    have h : Narrows w (fail id reason key w.store) :=
      narrows_setLive (fun _ => rfl) (fun _ => rfl) (fun _ => rfl) fun _ => rfl
    exact h.settled hw
  | fire id segments facts =>
    simp only [step, Appointment.fire]
    split
    · exact hw
    · exact (narrows_fire w id segments _).settled hw

theorem step_outputs (w : Appointment) (i : ℤ × Event) :
    (step w i).2 = [] ∨ ∃ id segments facts, i.2 = .fire id segments facts := by
  obtain ⟨now, event⟩ := i
  cases event with
  | fire id segments facts => exact .inr ⟨id, segments, facts, rfl⟩
  | _ => exact .inl rfl

/-- **Reminders speak of the current appointment in exactly the runs in which none is sent unless
the last call of `api_sync_task_reminders` had read the due date that the job has then.** -/
theorem fired_current_iff (w : Appointment)
    (hw : ∀ r ∈ w.store.table, w.isLiveReminder r = false) (run : List (ℤ × Event)) :
    (∀ o ∈ Reactive.outputs step w run, o.renderedFrom = o.dueAt) ↔
      Reactive.Along step Replanned w run := by
  have hsettled : Settled w := by
    intro r hr hlive
    rw [hw r hr] at hlive
    cases hlive
  refine Reactive.outputs_good_iff_along step (P := Settled) ?_ ?_ hsettled run
  · intro w i hw hC
    refine ⟨step_settled hw i, ?_⟩
    intro o ho
    rcases step_outputs w i with hnone | ⟨id, segments, facts, hfire⟩
    · rw [hnone] at ho
      cases ho
    · obtain ⟨now, event⟩ := i
      obtain rfl : event = .fire id segments facts := hfire
      rcases fire_outputs w id segments facts with ⟨hsends, hout⟩ | ⟨-, hout⟩
      · obtain rfl := List.mem_singleton.1 (hout ▸ ho : o ∈ [_])
        exact (renderedFrom_of_sends hw hsends).trans (hC hsends)
      · rw [show (step w (now, .fire id segments facts)).2 = [] from hout] at ho
        cases ho
  · intro w i hw hC
    rcases i with ⟨now, event⟩
    cases event with
    | fire id segments facts =>
      have hsends : Sends w id facts ∧ w.planned ≠ w.task.dueAt := by
        simpa only [Replanned, Classical.not_imp] using hC
      rcases fire_outputs w id segments facts with ⟨-, hout⟩ | ⟨hnot, -⟩
      · refine ⟨⟨w.renderedFrom id, w.task.dueAt⟩, ?_, ?_⟩
        · rw [show (step w (now, .fire id segments facts)).2 = _ from hout]
          exact List.mem_singleton_self _
        · intro heq
          exact hsends.2 ((renderedFrom_of_sends hw hsends.1).symm.trans heq)
      · exact absurd hsends.1 hnot
    | _ => exact absurd trivial hC

/-! ### An edit whose replan fails -/

/-- The job of `evening`, without reminders. -/
def booked : Appointment where
  companyId := 1
  taskId := 1
  store := { table := [], messages := [] }
  task := { deletedAt := none, remindersOff := false, dueAt := evening.dueAt, sourceDoneAt := none }
  reads := []
  renderedFrom _ := none
  planned := none

/-- The call for what was read at position `read`, with the id its row gets. -/
def replan (read : ℕ) (rowId : Uuid) : ℤ × Event := (2, .sync read evening [rowId])

/-- The claim and the firing of a row. -/
def fireAt (now : ℤ) (id : Uuid) : List (ℤ × Event) :=
  [(now, .claim 50 300), (now, .fire id 1 (clearFacts now))]

/-- The job moves on by an hour. -/
def postponed : TaskRow := { booked.task with dueAt := some (22 * hourMs + 30 * minuteMs) }

/-- The replan after the edit has read the job as it is. -/
theorem fired_current_iff_replanned :
    (Reactive.outputs step booked
        ([(1, .read), replan 0 1, (3, .edit postponed), (4, .read), replan 1 2] ++
          fireAt (21 * hourMs) 2)).Forall fun o => o.renderedFrom = o.dueAt := by
  refine List.forall_iff_forall_mem.2 ((fired_current_iff booked (fun r hr => nomatch hr) _).2 ?_)
  refine ⟨trivial, trivial, trivial, trivial, trivial, trivial, ?_, trivial⟩
  intro _
  decide +kernel

/-- **A reminder of the old appointment**: the due date is changed, the replan fails, and the
reminder that was queued goes out. -/
theorem fired_stale :
    ¬∀ o ∈ Reactive.outputs step booked
        ([(1, .read), replan 0 1, (3, .edit postponed)] ++ fireAt (20 * hourMs) 1),
      o.renderedFrom = o.dueAt := by
  decide +kernel

end ReminderReplan
