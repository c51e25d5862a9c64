/-
**What a refresh does to the reminders that have fallen due.**

`syncTaskReminders` runs after every echo, pull and replan of an appointment.  It plans the
reminders whose moment is still to come, and `api_sync_task_reminders` deletes the pending ones and
inserts what was planned.  A reminder that has fallen due and has not been fired yet is pending as
well: it is deleted, and it is not planned again.

Here neither the job nor its rules, its clock and its calendar change.

Main result:

* `ReminderRefresh.accounted_iff` — **no reminder is lost in exactly the runs whose refreshes find
  no pending reminder that has fallen due**.
-/

import Texturion.AppointmentReminders
import Texturion.ReactiveRun

namespace ReminderRefresh

open SqlTable Scheduled DestinationClock

inductive Event
  /-- `syncTaskReminders`, which read the clock at `readAt`; `gen_random_uuid()` gives the ids. -/
  | refresh (readAt : ℤ) (rowIds : List Uuid)
  | claim (limit : ℕ) (leaseSeconds : ℤ)
  | expire (limit : ℕ)
  | hold (id : Uuid) (reason reasonKey : String)
  | fail (id : Uuid) (reason reasonKey : String)
  | fire (id : Uuid) (segments : ℕ) (facts : FireFacts)

/-- One step at its time, for a job that stays as it is. -/
def step (t : ReminderTask) (s : Store) (i : ℤ × Event) : Store × List Empty :=
  match i.2 with
  | .refresh readAt rowIds => (syncTaskReminders i.1 (t.request readAt false false rowIds) s, [])
  | .claim limit leaseSeconds => ((claimDue i.1 limit leaseSeconds s).1, [])
  | .expire limit => ((expire i.1 limit s).1, [])
  | .hold id reason key => (hold i.1 id reason key s, [])
  | .fail id reason key => (fail id reason key s, [])
  | .fire id segments facts => ((fire id segments facts s).1, [])

/-- There is a reminder of the job at the offset: queued, or sent, failed, expired or canceled with
the reason for which it was held. -/
def Accounted (t : ReminderTask) (offset : ℤ) (s : Store) : Prop :=
  ∃ r ∈ s.table, r.taskId = some t.taskId ∧ r.reminderOffsetMinutes = some offset ∧
    (r.status = .canceled → r.heldReason.isSome = true)

def Queued (taskId : Uuid) (offset : Option ℤ) (s : Store) : Prop :=
  ∃ r ∈ s.table, r.taskId = some taskId ∧ r.reminderOffsetMinutes = offset ∧
    r.status.live = true

/-- A refresh adds every reminder that it deletes. -/
def Readds (t : ReminderTask) (s : Store) (i : ℤ × Event) : Prop :=
  match i.2 with
  | .refresh _ _ => ∀ r ∈ s.table, r.isReminder t.companyId t.taskId .pending = true →
      Queued t.taskId r.reminderOffsetMinutes (step t s i).1
  | _ => True

/-- No pending reminder has fallen due when a refresh reads the clock. -/
def Timely (t : ReminderTask) (s : Store) (i : ℤ × Event) : Prop :=
  match i.2 with
  | .refresh readAt _ => ∀ r ∈ s.table, r.isReminder t.companyId t.taskId .pending = true →
      readAt < r.sendAt
  | _ => True

def NewIds (t : ReminderTask) (s : Store) (i : ℤ × Event) : Prop :=
  match i.2 with
  | .refresh readAt rowIds => rowIds.Nodup ∧ (t.planned readAt).length ≤ rowIds.length ∧
      ∀ id ∈ rowIds, id ∉ ids s.table
  | _ => True

instance (t : ReminderTask) (s : Store) : ∀ i, Decidable (Timely t s i)
  | (_, .refresh readAt _) => inferInstanceAs (Decidable (∀ r ∈ s.table,
      r.isReminder t.companyId t.taskId .pending = true → readAt < r.sendAt))
  | (_, .claim _ _) => isTrue trivial
  | (_, .expire _) => isTrue trivial
  | (_, .hold _ _ _) => isTrue trivial
  | (_, .fail _ _ _) => isTrue trivial
  | (_, .fire _ _ _) => isTrue trivial

instance (t : ReminderTask) (s : Store) : ∀ i, Decidable (NewIds t s i)
  | (_, .refresh _ _) => inferInstanceAs (Decidable (_ ∧ _ ∧ _))
  | (_, .claim _ _) => isTrue trivial
  | (_, .expire _) => isTrue trivial
  | (_, .hold _ _ _) => isTrue trivial
  | (_, .fail _ _ _) => isTrue trivial
  | (_, .fire _ _ _) => isTrue trivial

/-! ### The plan -/

/-- A reminder of the job at the offset goes at `sendAt`, whenever that is asked. -/
def GoesAt (t : ReminderTask) (offset sendAt : ℤ) : Prop :=
  ∃ dueAt z region, t.dueAt = some dueAt ∧ t.remindersOff = false ∧ t.clock = some (z, region) ∧
    (∃ rule ∈ t.rules, rule.enabled = true ∧ reminderOffsetMinMinutes ≤ rule.offsetMinutes ∧
      rule.offsetMinutes ≤ reminderOffsetMaxMinutes ∧ rule.offsetMinutes = offset) ∧
    lastSendableInstantBefore z region (dueAt - offset * minuteMs) = some sendAt

variable {t : ReminderTask} {s : Store} {now offset : ℤ} {r : ScheduledMessage} {q : SyncRequest}
  {rowIds : List Uuid}

theorem GoesAt.eq {offset a b : ℤ} (ha : GoesAt t offset a) (hb : GoesAt t offset b) : a = b := by
  obtain ⟨dueAt, z, region, hdue, -, hclock, -, ha⟩ := ha
  obtain ⟨dueAt', z', region', hdue', -, hclock', -, hb⟩ := hb
  obtain rfl := Option.some.inj (hdue.symm.trans hdue')
  obtain ⟨rfl, rfl⟩ := Prod.mk.inj (Option.some.inj (hclock.symm.trans hclock'))
  exact Option.some.inj (ha.symm.trans hb)

/-- **What is planned** at `readAt`: the reminders that go later. -/
theorem planned_iff {readAt offset sendAt : ℤ} :
    (∃ p ∈ t.planned readAt, p.offsetMinutes = offset ∧ p.sendAt = sendAt) ↔
      GoesAt t offset sendAt ∧ readAt < sendAt := by
  constructor
  · rintro ⟨p, hp, rfl, rfl⟩
    unfold ReminderTask.planned at hp
    split at hp
    · next dueAt z region hdue hoff hclock =>
        simp only [List.mem_filter, List.mem_filterMap, decide_eq_true_eq] at hp
        obtain ⟨⟨a, ha, hmoved⟩, hlater⟩ := hp
        obtain ⟨legal, hlegal, rfl⟩ := Option.map_eq_some_iff.1 hmoved
        simp only [planReminders, List.mem_map, List.mem_filter, Bool.and_eq_true,
          decide_eq_true_eq] at ha
        obtain ⟨rule, ⟨⟨⟨hrule, henabled⟩, hmin, hmax⟩, -⟩, rfl⟩ := ha
        exact ⟨⟨dueAt, z, region, hdue, hoff, hclock, ⟨rule, hrule, henabled, hmin, hmax, rfl⟩,
          hlegal⟩, hlater⟩
    · exact absurd hp List.not_mem_nil
  · rintro ⟨⟨dueAt, z, region, hdue, hoff, hclock, ⟨rule, hrule, henabled, hmin, hmax, rfl⟩,
      hlegal⟩, hlater⟩
    have hback := lastSendableInstantBefore_le hlegal
    refine ⟨⟨rule.offsetMinutes, t.render rule.body, sendAt⟩, ?_, rfl, rfl⟩
    simp only [ReminderTask.planned, hdue, hoff, hclock, List.mem_filter, List.mem_filterMap,
      decide_eq_true_eq]
    refine ⟨⟨⟨rule.offsetMinutes, t.render rule.body, dueAt - rule.offsetMinutes * minuteMs⟩, ?_,
      ?_⟩, hlater⟩
    · simp only [planReminders, List.mem_map, List.mem_filter, Bool.and_eq_true, decide_eq_true_eq]
      exact ⟨rule, ⟨⟨⟨hrule, henabled⟩, hmin, hmax⟩, by omega⟩, rfl⟩
    · simp only [moveBack, hlegal, Option.map_some]

/-- What holds of the reminders of the job at any time: a live one goes at the moment of its offset,
and a held one has a reason. -/
structure InPlan (t : ReminderTask) (s : Store) : Prop where
  reminder : ∀ r ∈ s.table, r.taskId = some t.taskId → r.status.live = true →
    r.reminderOffsetMinutes.isSome = true → r.companyId = t.companyId ∧ r.origin = .reminder
  goesAt : ∀ r ∈ s.table, r.taskId = some t.taskId → r.status.live = true →
    r.origin = .reminder →
      ∃ offset, r.reminderOffsetMinutes = some offset ∧ GoesAt t offset r.sendAt
  disclosed : ∀ r ∈ s.table, r.taskId = some t.taskId → r.status = .held → r.origin = .reminder →
    r.heldReason.isSome = true

/-! ### Calls of the job -/

/-- What a call of the job makes of a row. -/
structure Follows (r r' : ScheduledMessage) : Prop where
  companyId : r'.companyId = r.companyId
  taskId : r'.taskId = r.taskId
  origin : r'.origin = r.origin
  offset : r'.reminderOffsetMinutes = r.reminderOffsetMinutes
  sendAt : r'.sendAt = r.sendAt
  live : r'.status.live = true → r.status.live = true
  held : r'.status = .held → r'.heldReason.isSome = true ∨
    r.status = .held ∧ r'.heldReason = r.heldReason
  canceled : r'.status = .canceled → r.status = .canceled ∧ r'.heldReason = r.heldReason

theorem Follows.refl (r : ScheduledMessage) : Follows r r :=
  ⟨rfl, rfl, rfl, rfl, rfl, id, fun h => .inr ⟨h, rfl⟩, fun h => ⟨h, rfl⟩⟩

/-- The rows are what a call of the job makes of those of before. -/
def Followed (s s' : Store) : Prop :=
  ∃ f : ScheduledMessage → ScheduledMessage, s'.table = s.table.map f ∧ ∀ r, Follows r (f r)

theorem Followed.refl (s : Store) : Followed s s := ⟨id, by simp, Follows.refl⟩

theorem followed_update {p : ScheduledMessage → Bool} {f : ScheduledMessage → ScheduledMessage}
    {messages : List Message} (hf : ∀ r, p r = true → Follows r (f r)) :
    Followed s ⟨update p f s.table, messages⟩ := by
  refine ⟨fun r => if p r then f r else r, rfl, fun r => ?_⟩
  by_cases hp : p r = true
  · simpa [hp] using hf r hp
  · simpa [hp] using Follows.refl r

theorem follows_holding {reason key : String}
    (h : r.status.live = true) : Follows r (r.holding now reason key) :=
  ⟨rfl, rfl, rfl, rfl, rfl, fun _ => h, fun _ => .inl rfl, (nomatch ·)⟩

theorem follows_failing {reason key : String} : Follows r (r.failing reason key) :=
  ⟨rfl, rfl, rfl, rfl, rfl, (nomatch ·), (nomatch ·), (nomatch ·)⟩

theorem followed_fire (id : Uuid) (segments : ℕ) (facts : FireFacts) (s : Store) :
    Followed s (fire id segments facts s).1 := by
  unfold fire
  split
  · exact .refl s
  · dsimp only
    split
    · exact followed_update fun r _ => follows_failing
    · split
      · exact followed_update fun r h => follows_holding (live_of_isLive h)
      · exact followed_update fun r _ => ⟨rfl, rfl, rfl, rfl, rfl, (nomatch ·), (nomatch ·),
          (nomatch ·)⟩

/-- **A call of the job follows the rows.** -/
theorem step_followed (t : ReminderTask) (s : Store) (i : ℤ × Event)
    (hi : ∀ readAt rowIds, i.2 ≠ .refresh readAt rowIds) : Followed s (step t s i).1 := by
  obtain ⟨now, event⟩ := i
  cases event with
  | refresh readAt rowIds => exact absurd rfl (hi readAt rowIds)
  | claim limit leaseSeconds =>
      exact followed_update fun r _ => ⟨rfl, rfl, rfl, rfl, rfl, fun h => h,
        fun h => .inr ⟨h, rfl⟩, fun h => ⟨h, rfl⟩⟩
  | expire limit =>
      exact followed_update fun r _ => ⟨rfl, rfl, rfl, rfl, rfl, (nomatch ·), (nomatch ·),
        (nomatch ·)⟩
  | hold id reason key => exact followed_update fun r h => follows_holding (live_of_isLive h)
  | fail id reason key => exact followed_update fun r _ => follows_failing
  | fire id segments facts => exact followed_fire id segments facts s

theorem Followed.inPlan {s s' : Store} (h : Followed s s') (hs : InPlan t s) : InPlan t s' := by
  obtain ⟨f, htable, hf⟩ := h
  refine ⟨?_, ?_, ?_⟩
  · intro r' hr' htask hlive hoffset
    rw [htable] at hr'
    obtain ⟨r, hr, rfl⟩ := List.mem_map.1 hr'
    rw [(hf r).offset] at hoffset
    rw [(hf r).companyId, (hf r).origin]
    exact hs.reminder r hr ((hf r).taskId.symm.trans htask) ((hf r).live hlive) hoffset
  · intro r' hr' htask hlive horigin
    rw [htable] at hr'
    obtain ⟨r, hr, rfl⟩ := List.mem_map.1 hr'
    rw [(hf r).offset, (hf r).sendAt]
    exact hs.goesAt r hr ((hf r).taskId.symm.trans htask) ((hf r).live hlive)
      ((hf r).origin.symm.trans horigin)
  · intro r' hr' htask hheld horigin
    rw [htable] at hr'
    obtain ⟨r, hr, rfl⟩ := List.mem_map.1 hr'
    rcases (hf r).held hheld with hsome | ⟨hbefore, hsame⟩
    · exact hsome
    · rw [hsame]
      exact hs.disclosed r hr ((hf r).taskId.symm.trans htask) hbefore
        ((hf r).origin.symm.trans horigin)

theorem accounted_call {s s' : Store} (h : Followed s s')
    (hs : Accounted t offset s) : Accounted t offset s' := by
  obtain ⟨f, htable, hf⟩ := h
  obtain ⟨r, hr, htask, hoffset, hcanceled⟩ := hs
  refine ⟨f r, htable ▸ List.mem_map_of_mem hr, (hf r).taskId.trans htask,
    (hf r).offset.trans hoffset, fun h => ?_⟩
  obtain ⟨hbefore, hsame⟩ := (hf r).canceled h
  rw [hsame]
  exact hcanceled hbefore

/-! ### The inserts of a refresh -/

theorem zip_ids_sublist (plan : List PlannedReminder) (rowIds : List Uuid) :
    ((plan.zip rowIds).map (·.2)).Sublist rowIds := by
  induction plan generalizing rowIds with
  | nil => exact List.nil_sublist _
  | cons p plan ih =>
      cases rowIds with
      | nil => exact List.nil_sublist _
      | cons id rowIds => exact (ih rowIds).cons_cons id

theorem insertReminder_keeps (q : SyncRequest) (s : Store) (p : PlannedReminder × Uuid) :
    ∀ r ∈ s.table, r ∈ (q.insertReminder s p).table := by
  intro r hr
  unfold SyncRequest.insertReminder Store.insert
  split_ifs
  · exact hr
  · exact hr
  · exact List.mem_append_left _ hr

theorem insertReminders_keep (q : SyncRequest) (plan : List (PlannedReminder × Uuid)) (s : Store) :
    ∀ r ∈ s.table, r ∈ (plan.foldl q.insertReminder s).table := by
  induction plan generalizing s with
  | nil => exact fun r hr => hr
  | cons p plan ih => exact fun r hr => ih _ r (insertReminder_keeps q s p r hr)

theorem mem_insertReminder {p : PlannedReminder × Uuid} (hr : r ∈ (q.insertReminder s p).table) :
    r ∈ s.table ∨ r = q.row p.1 p.2 := by
  unfold SyncRequest.insertReminder Store.insert at hr
  split_ifs at hr
  · exact .inl hr
  · exact .inl hr
  · rcases List.mem_append.1 hr with hr | hr
    · exact .inl hr
    · exact .inr (List.mem_singleton.1 hr)

theorem mem_insertReminders {plan : List (PlannedReminder × Uuid)}
    (hr : r ∈ (plan.foldl q.insertReminder s).table) :
    r ∈ s.table ∨ ∃ p ∈ plan, r = q.row p.1 p.2 := by
  induction plan generalizing s with
  | nil => exact .inl hr
  | cons p plan ih =>
      rcases ih hr with hmem | ⟨p', hp', rfl⟩
      · rcases mem_insertReminder hmem with hmem | rfl
        · exact .inl hmem
        · exact .inr ⟨p, List.mem_cons_self .., rfl⟩
      · exact .inr ⟨p', List.mem_cons_of_mem _ hp', rfl⟩

/-- Whether a row is inserted or not, the offset is queued afterwards. -/
theorem insertReminder_queued (q : SyncRequest) {p : PlannedReminder × Uuid}
    (hnew : p.2 ∉ ids s.table) :
    Queued q.taskId (some p.1.offsetMinutes) (q.insertReminder s p) := by
  unfold SyncRequest.insertReminder
  split
  · next hany =>
      obtain ⟨r, hr, hrow⟩ := List.any_eq_true.1 hany
      simp only [Bool.and_eq_true, beq_iff_eq] at hrow
      exact ⟨r, hr, hrow.1.1, hrow.2, hrow.1.2⟩
  · have hcontains : (ids s.table).contains (q.row p.1 p.2).id = false := by
      simpa [SyncRequest.row, ScheduledMessage.fresh] using hnew
    refine ⟨q.row p.1 p.2, ?_, rfl, rfl, rfl⟩
    simp only [Store.insert, hcontains, Bool.false_eq_true, if_false]
    exact List.mem_append_right _ (List.mem_singleton_self _)

theorem insertReminders_queued (q : SyncRequest) {plan : List (PlannedReminder × Uuid)}
    (hnodup : (plan.map (·.2)).Nodup) (hnew : ∀ p ∈ plan, p.2 ∉ ids s.table) :
    ∀ p ∈ plan, Queued q.taskId (some p.1.offsetMinutes) (plan.foldl q.insertReminder s) := by
  induction plan generalizing s with
  | nil => exact fun p hp => absurd hp List.not_mem_nil
  | cons p plan ih =>
      rw [List.map_cons, List.nodup_cons] at hnodup
      intro p' hp'
      rcases List.mem_cons.1 hp' with rfl | hp'
      · obtain ⟨r, hr, hrow⟩ := insertReminder_queued q (hnew p' (List.mem_cons_self ..))
        exact ⟨r, insertReminders_keep q plan _ r hr, hrow⟩
      · refine ih hnodup.2 (fun a ha hid => ?_) p' hp'
        -- the ids that are taken after the first insert: those of before, and its own
        obtain ⟨r, hr, hrid⟩ := List.mem_map.1 hid
        rcases mem_insertReminder hr with hr | rfl
        · exact hnew a (List.mem_cons_of_mem _ ha) (hrid ▸ List.mem_map_of_mem hr)
        · have hsame : p.2 = a.2 := hrid
          exact hnodup.1 (hsame ▸ List.mem_map_of_mem ha)

/-! ### A refresh -/

/-- What a refresh of a job that is on the books leaves before the inserts: the pending reminders
go, and a held one takes the plan or is canceled. -/
def dropped (now : ℤ) (q : SyncRequest) (s : Store) : Store :=
  let held := ScheduledMessage.isReminder q.companyId q.taskId .held
  { s with
    table := update (fun r => held r && (q.planned r).isNone) (ScheduledMessage.canceling now none)
      (update held q.refresh
        (s.table.filter fun r => !r.isReminder q.companyId q.taskId .pending)) }

theorem sync_eq (s : Store) (hdeleted : q.taskDeleted = false) (hoff : q.remindersOff = false) :
    syncTaskReminders now q s = (q.reminders.zip q.rowIds).foldl q.insertReminder
      (dropped now q s) := by
  simp [syncTaskReminders, dropped, hdeleted, hoff]

/-- What a row becomes that is not deleted. -/
def keeping (now : ℤ) (q : SyncRequest) (r : ScheduledMessage) : ScheduledMessage :=
  if r.isReminder q.companyId q.taskId .held then
    match q.planned r with
    | some _ => q.refresh r
    | none => r.canceling now none
  else r

theorem refresh_keeps (q : SyncRequest) (r : ScheduledMessage) :
    (q.refresh r).id = r.id ∧ (q.refresh r).status = r.status ∧
      (q.refresh r).companyId = r.companyId ∧ (q.refresh r).taskId = r.taskId ∧
      (q.refresh r).origin = r.origin ∧ (q.refresh r).heldReason = r.heldReason ∧
      (q.refresh r).reminderOffsetMinutes = r.reminderOffsetMinutes := by
  unfold SyncRequest.refresh
  split <;> exact ⟨rfl, rfl, rfl, rfl, rfl, rfl, rfl⟩

theorem dropped_table (now : ℤ) (q : SyncRequest) (s : Store) :
    (dropped now q s).table =
      (s.table.filter fun r => !r.isReminder q.companyId q.taskId .pending).map
        (keeping now q) := by
  simp only [dropped, update, List.map_map]
  refine List.map_congr_left fun r _ => ?_
  obtain ⟨-, hstatus, hcompany, htask, horigin, -, hoffset⟩ := refresh_keeps q r
  have hheld : (q.refresh r).isReminder q.companyId q.taskId .held =
      r.isReminder q.companyId q.taskId .held := by
    simp only [ScheduledMessage.isReminder, hstatus, hcompany, htask, horigin]
  have hplanned : q.planned (q.refresh r) = q.planned r := by
    simp only [SyncRequest.planned, hoffset]
  simp only [Function.comp_apply, keeping]
  by_cases h : r.isReminder q.companyId q.taskId .held = true
  · cases hplan : q.planned r with
    | some p => simp [h, hheld, hplanned, hplan]
    | none =>
        have hsame : q.refresh r = r := by simp only [SyncRequest.refresh, hplan]
        simp [h, hsame, hplan]
  · simp [h]

/-- The columns that no refresh touches in a row that it does not delete. -/
theorem keeping_keeps (now : ℤ) (q : SyncRequest) (r : ScheduledMessage) :
    (keeping now q r).id = r.id ∧ (keeping now q r).companyId = r.companyId ∧
      (keeping now q r).taskId = r.taskId ∧ (keeping now q r).origin = r.origin ∧
      (keeping now q r).heldReason = r.heldReason ∧
      (keeping now q r).reminderOffsetMinutes = r.reminderOffsetMinutes := by
  unfold keeping
  split
  · split
    · obtain ⟨hid, -, hcompany, htask, horigin, hreason, hoffset⟩ := refresh_keeps q r
      exact ⟨hid, hcompany, htask, horigin, hreason, hoffset⟩
    · exact ⟨rfl, rfl, rfl, rfl, rfl, rfl⟩
  · exact ⟨rfl, rfl, rfl, rfl, rfl, rfl⟩

/-- The status that a row is left with: its own, unless it is a held reminder that goes. -/
theorem keeping_status (now : ℤ) (q : SyncRequest) (r : ScheduledMessage) :
    (keeping now q r).status = r.status ∨
      r.isReminder q.companyId q.taskId .held = true ∧ (keeping now q r).status = .canceled := by
  unfold keeping
  split
  · next hheld =>
      split
      · exact .inl (refresh_keeps q r).2.1
      · exact .inr ⟨hheld, rfl⟩
  · exact .inl rfl

theorem keeping_sendAt (now : ℤ) (q : SyncRequest) (r : ScheduledMessage) :
    (keeping now q r).sendAt = r.sendAt ∨ ∃ p ∈ q.reminders,
      r.reminderOffsetMinutes = some p.offsetMinutes ∧ (keeping now q r).sendAt = p.sendAt := by
  unfold keeping
  split
  · split
    · next p hp =>
        have hoffset := List.find?_some hp
        refine .inr ⟨p, List.mem_of_find?_eq_some hp, by simpa using hoffset, ?_⟩
        simp only [SyncRequest.refresh, hp]
    · exact .inl rfl
  · exact .inl rfl

theorem mem_refresh {now readAt : ℤ}
    (hr : r ∈ (syncTaskReminders now (t.request readAt false false rowIds) s).table) :
    (∃ a ∈ s.table, a.isReminder t.companyId t.taskId .pending = false ∧
        r = keeping now (t.request readAt false false rowIds) a) ∨
      ∃ p ∈ t.planned readAt, ∃ id, r = (t.request readAt false false rowIds).row p id := by
  rw [sync_eq s rfl rfl] at hr
  rcases mem_insertReminders hr with hr | ⟨⟨p, id⟩, hp, rfl⟩
  · rw [dropped_table] at hr
    obtain ⟨a, ha, rfl⟩ := List.mem_map.1 hr
    obtain ⟨ha, hpending⟩ := List.mem_filter.1 ha
    have hnot : (!a.isReminder t.companyId t.taskId .pending) = true := hpending
    exact .inl ⟨a, ha, by simpa using hnot, rfl⟩
  · exact .inr ⟨p, (List.of_mem_zip hp).1, id, rfl⟩

theorem live_of_keeping
    (h : (keeping now q r).status.live = true) : (keeping now q r).status = r.status := by
  rcases keeping_status now q r with hsame | ⟨-, hcanceled⟩
  · exact hsame
  · rw [hcanceled] at h
    cases h

/-- **A refresh keeps the live reminders those of the plan.** -/
theorem inPlan_refresh (hs : InPlan t s) (now readAt : ℤ) (rowIds : List Uuid) :
    InPlan t (syncTaskReminders now (t.request readAt false false rowIds) s) := by
  have hgoes : ∀ p ∈ t.planned readAt, GoesAt t p.offsetMinutes p.sendAt :=
    fun p hp => (planned_iff.1 ⟨p, hp, rfl, rfl⟩).1
  refine ⟨?_, ?_, ?_⟩
  · intro r hr htask hlive hoffset
    rcases mem_refresh hr with ⟨a, ha, -, rfl⟩ | ⟨p, -, id, rfl⟩
    · obtain ⟨-, hcompany, htaskId, horigin, -, hoffsets⟩ := keeping_keeps now _ a
      rw [htaskId] at htask
      rw [hoffsets] at hoffset
      rw [live_of_keeping hlive] at hlive
      rw [hcompany, horigin]
      exact hs.reminder a ha htask hlive hoffset
    · exact ⟨rfl, rfl⟩
  · intro r hr htask hlive horigin
    rcases mem_refresh hr with ⟨a, ha, -, rfl⟩ | ⟨p, hp, id, rfl⟩
    · obtain ⟨-, -, htaskId, horiginId, -, hoffsets⟩ := keeping_keeps now _ a
      rw [htaskId] at htask
      rw [horiginId] at horigin
      rw [live_of_keeping hlive] at hlive
      obtain ⟨offset, hoffset, hmoment⟩ := hs.goesAt a ha htask hlive horigin
      refine ⟨offset, hoffsets.trans hoffset, ?_⟩
      rcases keeping_sendAt now _ a with hsame | ⟨p, hp, hplanned, hsend⟩
      · rw [hsame]
        exact hmoment
      · obtain rfl := Option.some.inj (hoffset.symm.trans hplanned)
        rw [hsend]
        exact hgoes p hp
    · exact ⟨p.offsetMinutes, rfl, hgoes p hp⟩
  · intro r hr htask hheld horigin
    rcases mem_refresh hr with ⟨a, ha, -, rfl⟩ | ⟨p, -, id, rfl⟩
    · obtain ⟨-, -, htaskId, horiginId, hreason, -⟩ := keeping_keeps now _ a
      have hsame := live_of_keeping (r := a) (by rw [hheld]; rfl)
      rw [hreason]
      exact hs.disclosed a ha (htaskId.symm.trans htask) (hsame.symm.trans hheld)
        (horiginId.symm.trans horigin)
    · cases hheld

theorem queued_of_planned {now readAt : ℤ} (hnew : NewIds t s (now, .refresh readAt rowIds))
    {p : PlannedReminder} (hp : p ∈ t.planned readAt) :
    Queued t.taskId (some p.offsetMinutes)
      (syncTaskReminders now (t.request readAt false false rowIds) s) := by
  obtain ⟨hnodup, hlength, hids⟩ := hnew
  rw [sync_eq s rfl rfl]
  have hzip : ((t.planned readAt).zip rowIds).map (·.1) = t.planned readAt :=
    List.map_fst_zip hlength
  rw [← hzip] at hp
  obtain ⟨⟨p, id⟩, hmem, rfl⟩ := List.mem_map.1 hp
  refine insertReminders_queued _ ?_ ?_ (p, id) hmem
  · exact hnodup.sublist (zip_ids_sublist _ _)
  · intro a ha hid
    rw [dropped_table] at hid
    obtain ⟨r, hr, hrid⟩ := List.mem_map.1 hid
    obtain ⟨b, hb, rfl⟩ := List.mem_map.1 hr
    rw [(keeping_keeps now _ b).1] at hrid
    exact hids a.2 (List.of_mem_zip ha).2
      (hrid ▸ List.mem_map_of_mem (List.mem_filter.1 hb).1)

section

variable (hs : InPlan t s)
include hs

theorem InPlan.pending_or_held (hr : r ∈ s.table) (htask : r.taskId = some t.taskId)
    (hlive : r.status.live = true) (hoffset : r.reminderOffsetMinutes.isSome = true) :
    r.isReminder t.companyId t.taskId .pending = true ∨
      r.isReminder t.companyId t.taskId .held = true := by
  obtain ⟨hcompany, horigin⟩ := hs.reminder r hr htask hlive hoffset
  cases hstatus : r.status with
  | pending => exact .inl (by simp [ScheduledMessage.isReminder, hcompany, htask, horigin, hstatus])
  | held => exact .inr (by simp [ScheduledMessage.isReminder, hcompany, htask, horigin, hstatus])
  | _ =>
      rw [hstatus] at hlive
      cases hlive

/-- **An offset whose moment is not to come is not queued after the refresh.** -/
theorem not_queued_of_lapsed {now readAt offset sendAt : ℤ} (hgoes : GoesAt t offset sendAt)
    (hlapsed : sendAt ≤ readAt) :
    ¬Queued t.taskId (some offset)
      (syncTaskReminders now (t.request readAt false false rowIds) s) := by
  have hnot : ∀ p ∈ t.planned readAt, p.offsetMinutes ≠ offset := by
    rintro p hp rfl
    obtain ⟨hmoment, hlater⟩ := planned_iff.1 ⟨p, hp, rfl, rfl⟩
    rw [hmoment.eq hgoes] at hlater
    omega
  rintro ⟨r, hr, htask, hoffset, hlive⟩
  rcases mem_refresh hr with ⟨a, ha, hpending, rfl⟩ | ⟨p, hp, id, rfl⟩
  · obtain ⟨-, -, htaskId, -, -, hoffsets⟩ := keeping_keeps now _ a
    rw [htaskId] at htask
    rw [hoffsets] at hoffset
    have halive := hlive
    rw [live_of_keeping hlive] at halive
    -- it was held, and the refresh has canceled it
    rcases hs.pending_or_held ha htask halive (by rw [hoffset]; rfl) with h | hheld
    · rw [hpending] at h
      cases h
    · have hnone : (t.request readAt false false rowIds).planned a = none := by
        refine List.find?_eq_none.2 fun p hp heq => hnot p hp ?_
        rw [hoffset] at heq
        simpa using Eq.symm (by simpa using heq : offset = p.offsetMinutes)
      have hcanceled : keeping now (t.request readAt false false rowIds) a =
          a.canceling now none := by
        have hheld' : a.isReminder (t.request readAt false false rowIds).companyId
            (t.request readAt false false rowIds).taskId .held = true := hheld
        simp only [keeping, hheld', if_true, hnone]
      rw [hcanceled] at hlive
      cases hlive
  · exact hnot p hp (Option.some.inj hoffset)

/-! ### Runs -/

/-- **A refresh adds every reminder that it deletes exactly if none of them has fallen due.** -/
theorem readds_iff {i : ℤ × Event} (hnew : NewIds t s i) : Readds t s i ↔ Timely t s i := by
  obtain ⟨now, event⟩ := i
  cases event with
  | refresh readAt rowIds =>
      have hrow : ∀ r ∈ s.table, r.isReminder t.companyId t.taskId .pending = true →
          ∃ offset, r.reminderOffsetMinutes = some offset ∧ GoesAt t offset r.sendAt := by
        intro r hr hpending
        simp only [ScheduledMessage.isReminder, Bool.and_eq_true, beq_iff_eq] at hpending
        obtain ⟨⟨⟨-, htask⟩, horigin⟩, hstatus⟩ := hpending
        exact hs.goesAt r hr htask (hstatus ▸ rfl) horigin
      constructor
      · intro hreadds r hr hpending
        obtain ⟨offset, hoffset, hgoes⟩ := hrow r hr hpending
        by_contra hlapsed
        have hqueued := hreadds r hr hpending
        rw [hoffset] at hqueued
        exact not_queued_of_lapsed hs hgoes (by omega) hqueued
      · intro htimely r hr hpending
        obtain ⟨offset, hoffset, hgoes⟩ := hrow r hr hpending
        obtain ⟨p, hp, rfl, -⟩ := planned_iff.2 ⟨hgoes, htimely r hr hpending⟩
        rw [hoffset]
        exact queued_of_planned hnew hp
  | _ => exact Iff.rfl

theorem inPlan_step (i : ℤ × Event) : InPlan t (step t s i).1 := by
  obtain ⟨now, event⟩ := i
  cases event with
  | refresh readAt rowIds => exact inPlan_refresh hs now readAt rowIds
  | _ => exact (step_followed t s _ (by simp)).inPlan hs

end

theorem Queued.accounted (h : Queued t.taskId (some offset) s) : Accounted t offset s := by
  obtain ⟨r, hr, htask, hoffset, hlive⟩ := h
  refine ⟨r, hr, htask, hoffset, fun hcanceled => ?_⟩
  rw [hcanceled] at hlive
  cases hlive

/-- **A refresh that adds what it deletes loses no offset.** -/
theorem accounted_refresh {offset now readAt : ℤ} (hs : InPlan t s)
    (hreadds : Readds t s (now, .refresh readAt rowIds)) (h : Accounted t offset s) :
    Accounted t offset (syncTaskReminders now (t.request readAt false false rowIds) s) := by
  obtain ⟨r, hr, htask, hoffset, hcanceled⟩ := h
  by_cases hpending : r.isReminder t.companyId t.taskId .pending = true
  · have hqueued := hreadds r hr hpending
    rw [hoffset] at hqueued
    exact Queued.accounted hqueued
  · -- a row that is not deleted: it is canceled only if it was held, with its reason
    obtain ⟨-, -, htaskId, -, hreason, hoffsets⟩ :=
      keeping_keeps now (t.request readAt false false rowIds) r
    refine ⟨keeping now (t.request readAt false false rowIds) r, ?_, htaskId.trans htask,
      hoffsets.trans hoffset, fun h => ?_⟩
    · rw [sync_eq s rfl rfl]
      refine insertReminders_keep _ _ _ _ ?_
      rw [dropped_table]
      have hnot : (!r.isReminder t.companyId t.taskId .pending) = true := by simpa using hpending
      exact List.mem_map_of_mem (List.mem_filter.2 ⟨hr, hnot⟩)
    · rw [hreason]
      rcases keeping_status now (t.request readAt false false rowIds) r with hsame | ⟨hheld, -⟩
      · exact hcanceled (hsame.symm.trans h)
      · simp only [ScheduledMessage.isReminder, Bool.and_eq_true, beq_iff_eq] at hheld
        exact hs.disclosed r hr htask hheld.2 hheld.1.2

theorem accounted_step {i : ℤ × Event} (hs : InPlan t s) (hreadds : Readds t s i)
    (h : Accounted t offset s) : Accounted t offset (step t s i).1 := by
  obtain ⟨now, event⟩ := i
  cases event with
  | refresh readAt rowIds => exact accounted_refresh hs hreadds h
  | _ => exact accounted_call (step_followed t s _ (by simp)) h

theorem inPlan_of_none (hs : ∀ r ∈ s.table, r.taskId = some t.taskId → r.status.live = true →
      r.origin ≠ .reminder ∧ r.reminderOffsetMinutes = none) : InPlan t s where
  reminder r hr htask hlive hoffset := by
    rw [(hs r hr htask hlive).2] at hoffset
    cases hoffset
  goesAt r hr htask hlive horigin := absurd horigin (hs r hr htask hlive).1
  disclosed r hr htask hheld horigin :=
    absurd horigin (hs r hr htask (by rw [hheld]; rfl)).1

theorem along_readds_iff (hs : InPlan t s) {run : List (ℤ × Event)}
    (hnew : Reactive.Along (step t) (NewIds t) s run) :
    Reactive.Along (step t) (Readds t) s run ↔ Reactive.Along (step t) (Timely t) s run := by
  constructor
  · intro h
    exact Reactive.along_of_inv (step t) (P := InPlan t) (fun s i hs _ => inPlan_step hs i)
      (fun s i hs hC => (readds_iff hs hC.1).1 hC.2) hs (Reactive.along_and (step t) |>.2 ⟨hnew, h⟩)
  · intro h
    exact Reactive.along_of_inv (step t) (P := InPlan t) (fun s i hs _ => inPlan_step hs i)
      (fun s i hs hC => (readds_iff hs hC.1).2 hC.2) hs (Reactive.along_and (step t) |>.2 ⟨hnew, h⟩)

/-- **No reminder is lost in exactly the runs whose refreshes find no pending reminder that has
fallen due.**  The run begins with the first refresh of a job; the ids of new rows are new. -/
theorem accounted_iff {t : ReminderTask} {start : Store}
    (hstart : ∀ r ∈ start.table, r.taskId = some t.taskId → r.status.live = true →
      r.origin ≠ .reminder ∧ r.reminderOffsetMinutes = none)
    {now readAt : ℤ} {rowIds : List Uuid} {run : List (ℤ × Event)}
    (hnew : Reactive.Along (step t) (NewIds t) start ((now, .refresh readAt rowIds) :: run)) :
    ((∀ pre post, run = pre ++ post → ∀ p ∈ t.planned readAt, Accounted t p.offsetMinutes
        (Reactive.final (step t) start ((now, .refresh readAt rowIds) :: pre))) ∧
      Reactive.Along (step t) (Readds t) start ((now, .refresh readAt rowIds) :: run)) ↔
      Reactive.Along (step t) (Timely t) start ((now, .refresh readAt rowIds) :: run) := by
  have hs : InPlan t start := inPlan_of_none hstart
  rw [← along_readds_iff hs hnew]
  refine ⟨fun h => h.2, fun hreadds => ⟨?_, hreadds⟩⟩
  rintro pre post rfl p hp
  -- the offset is queued after the first refresh, and every later step keeps it accounted for
  have hfirst : Accounted t p.offsetMinutes (step t start (now, .refresh readAt rowIds)).1 :=
    Queued.accounted (queued_of_planned hnew.1 hp)
  have hpre := ((Reactive.along_append (step t) _ _ pre post).1 hreadds.2).1
  have hfinal := Reactive.final_of_inv_along (step t)
    (P := fun s => InPlan t s ∧ Accounted t p.offsetMinutes s)
    (fun s i h hC => ⟨inPlan_step h.1 i, accounted_step h.1 hC h.2⟩)
    ⟨inPlan_step hs _, hfirst⟩ hpre
  exact hfinal.2

/-! ### A refresh between the moment of a reminder and the next run of the job -/

def unplanned : Store := { table := [], messages := [] }

/-- A refresh of the job of `evening` at `now`, whose row gets the id. -/
def refreshAt (now : ℤ) (rowId : Uuid) : ℤ × Event := (now, .refresh now [rowId])

/-- The run of the job that fires the row, before an echo is pulled in. -/
def firedRun : List (ℤ × Event) :=
  [(19 * hourMs + 51 * minuteMs, .claim 50 300),
    (19 * hourMs + 51 * minuteMs, .fire 1 1 (clearFacts (19 * hourMs + 51 * minuteMs))),
    refreshAt (19 * hourMs + 52 * minuteMs) 2]

theorem accounted_iff_fired :
    (evening.planned 0).Forall fun p => Accounted evening p.offsetMinutes
      (Reactive.final (step evening) unplanned (refreshAt 0 1 :: firedRun)) := by
  have hnew : Reactive.Along (step evening) (NewIds evening) unplanned
      (refreshAt 0 1 :: firedRun) := by decide +kernel
  have htimely : Reactive.Along (step evening) (Timely evening) unplanned
      (refreshAt 0 1 :: firedRun) := by decide +kernel
  exact List.forall_iff_forall_mem.2 <|
    ((accounted_iff (fun r hr => absurd hr List.not_mem_nil) hnew).2 htimely).1 firedRun [] (by simp)

/-- **A reminder that is lost**: it falls due at ten to eight, and an echo is pulled in a minute
later, before the job comes round. -/
theorem reminder_lost :
    eveningReminder ∈ evening.planned 0 ∧
      ¬Accounted evening eveningReminder.offsetMinutes
        (Reactive.final (step evening) unplanned
          [refreshAt 0 1, refreshAt (19 * hourMs + 51 * minuteMs) 2]) := by
  refine ⟨by decide +kernel, ?_⟩
  rintro ⟨r, hr, -⟩
  have hnone : (Reactive.final (step evening) unplanned
      [refreshAt 0 1, refreshAt (19 * hourMs + 51 * minuteMs) 2]).table = [] := by decide +kernel
  rw [hnone] at hr
  cases hr

end ReminderRefresh
