/-
**The alarm handler.**

`runAlarms` of `apps/api/src/calls/session-do.ts` collects the slots that are due and fires them
one after the other.  Firing a slot is two writes: the slot is cleared from the table, and then its
event is admitted to the journal; the purge, which has no event, deletes the storage instead.
Between the two the event is built, and for the fan-out backstop that means asking for the push
audience, which may throw.  So between the two the alarm is in the handler's hand and nowhere else:
a crash or an error there loses it, although the platform runs the handler again.

The object below is the journaled object of `Texturion/CallJournal.lean` with this handler around
it.  What it owes, the alarms that were armed and neither cancelled nor fired since, is kept beside
it and read by none of its steps.

Main result:

* `Calls.no_lost_alarm_iff` — the exact conditions under which no alarm is lost.
-/

import Texturion.CallJournal

namespace Calls

/-! ### The handler -/

/-- The object, the rest of the batch the handler fires, the slot it has cleared and not yet fired,
and the alarms owed. -/
structure AlarmObject where
  object : ObjectState
  due : List AlarmKind
  hand : Option AlarmKind
  owed : AlarmTable

/-- What may happen next: an arrival or an adoption, the resumption of a journal, a write of the
drain, the platform alarm, the two halves of firing a slot, an error while an event is built, or a
crash. -/
inductive AlarmAction
  | admitEvent (id : Option EventId) (event : SessionEvent)
  | adopt (machine : SessionMachine)
  | resume
  | tick (clock : Clock) (answers : Answers)
  | wake (nowMs : ℤ)
  | clear
  | fire (unreachableUserIds : List String)
  | fail
  | crash

def promise (owed : AlarmTable) : Effect → AlarmTable
  | .armAlarm alarm atMs => Function.update owed alarm (some atMs)
  | .clearAlarm alarm => Function.update owed alarm none
  | .pushFanout _ => Function.update owed .fanoutSettle none
  | _ => owed

/-- What the next write of the drain changes of the alarms owed. -/
def owedAfter (s : ObjectState) (owed : AlarmTable) : AlarmTable :=
  match s.pc with
  | .running _ effect => promise owed effect
  | _ => owed

/-- Everything is deleted; the machine in memory is not. -/
def wiped (s : ObjectState) : ObjectState where
  disk :=
    { store := { s.disk.store with persisted := none, alarms := fun _ => none, resume := none }
      journal := none
      seen := [] }
  pc := .idle

namespace AlarmObject

def table (w : AlarmObject) : AlarmTable := w.object.disk.store.alarms

def step (w : AlarmObject) (a : ObjectAction) : AlarmObject :=
  { w with object := (JournaledQueue.step sessionObject w.object a).1 }

/-- The handler is at work: entrypoints wait in the FIFO until its batch is fired. -/
def firing (w : AlarmObject) : Bool := w.hand.isSome || !w.due.isEmpty

/-- The second half of firing a slot: its event is admitted, if there is a machine; the purge
deletes everything and ends the batch.  The alarm is owed until its event is on the journal. -/
def fire (w : AlarmObject) (slot : AlarmKind) (unreachableUserIds : List String) : AlarmObject :=
  match alarmEvent unreachableUserIds slot with
  | none => { object := wiped w.object, due := [], hand := none, owed := fun _ => none }
  | some event =>
    if w.object.disk.store.cached.isNone then { w with hand := none }
    else
      let admitted := JournaledQueue.step sessionObject w.object (.admitEvent none event)
      { w with
        object := admitted.1
        hand := none
        owed := if admitted.2.isEmpty then w.owed else Function.update w.owed slot none }

def next (w : AlarmObject) : AlarmAction → AlarmObject
  | .admitEvent id event =>
    if w.firing || event.isInternal then w else w.step (.admitEvent id event)
  | .adopt machine =>
    if w.firing || !w.object.ready then w else w.step (.poke (.adopt machine))
  | .resume => if w.hand.isSome then w else w.step .resume
  | .tick clock answers =>
    if w.hand.isSome then w
    else { w.step (.tick clock answers) with owed := owedAfter w.object w.owed }
  | .wake nowMs =>
    if w.firing || !w.object.ready then w else { w with due := dueSlots w.table nowMs }
  | .clear =>
    match w.due with
    | slot :: due =>
      if w.hand.isSome || !w.object.ready then w
      else { w.step (.poke (.clearSlot slot)) with due := due, hand := some slot }
    | [] => w
  | .fire unreachableUserIds =>
    match w.hand with
    | some slot => w.fire slot unreachableUserIds
    | none => w
  | .fail => if w.hand = some .fanoutSettle then { w with due := [], hand := none } else w
  | .crash => { w.step .crash with due := [], hand := none }

/-- An object that has never stored anything. -/
def start : AlarmObject where
  object := .init .empty
  due := []
  hand := none
  owed := fun _ => none

end AlarmObject

/-- The same as the step of a reactive system, which shows the state it has left on the disk. -/
def alarmStep (w : AlarmObject) (a : AlarmAction) : AlarmObject × List AlarmObject :=
  (w.next a, [w.next a])

/-- Every durable state of a run, the one after each of its steps. -/
def durableStates (actions : List AlarmAction) : List AlarmObject :=
  Reactive.outputs alarmStep .start actions

/-! ### What is owed -/

/-- **No alarm is lost**: what is armed and neither cancelled nor fired is in the table. -/
def AlarmsKept (w : AlarmObject) : Prop := ∀ slot atMs, w.owed slot = some atMs →
  w.table slot = some atMs

/-- There is a machine, in memory and in the storage. -/
def ObjectStore.Alive (s : ObjectStore) : Prop := s.cached.isSome = true ∧ s.persisted.isSome = true

/-- The drain has no effect to execute. -/
def Effectless (s : ObjectState) : Prop :=
  (∀ cursor effect, s.pc ≠ .running cursor effect) ∧
    ∀ j h effects, s.disk.journal = some j → j.head = some h → h.effects = some effects →
      effects = []

/-- The table is what is owed, but for the slot in hand, whose event may be admitted; and nothing
is owed before there is a machine. -/
structure AlarmObject.InHand (w : AlarmObject) : Prop where
  table : ∀ slot, w.hand ≠ some slot → w.table slot = w.owed slot
  held : ∀ slot, w.hand = some slot → w.table slot = none ∧ w.object.ready = true
  alive : w.object.disk.store.Alive ∨ w.owed = (fun _ => none) ∧ Effectless w.object

/-! ### What the object's steps do -/

/-- Executing an effect changes the alarm table as the effect promises. -/
theorem execute_promise (s : Shell) (i : Effect × Answers) :
    (execute s i).1.alarms = promise s.alarms i.1 := by
  obtain ⟨effect, answers⟩ := i
  cases effect with
  | telnyxAnswerInbound | telnyxAnswerNotice | telnyxAnswerVm =>
    simp only [execute]
    split_ifs <;> rfl
  | _ => rfl

theorem executeAll_promise (s : Shell) (es : List Effect) (answers : ℕ → Answers) :
    (executeAll s es answers).1.alarms = es.foldl promise s.alarms := by
  unfold executeAll withAnswers
  generalize 0 = k
  induction es generalizing s k with
  | nil => rfl
  | cons e es ih =>
    rw [List.zipIdx_cons, List.map_cons, Reactive.final_cons, List.foldl_cons,
      ← execute_promise s (e, answers k)]
    exact ih _ _

theorem promise_of_some {table : AlarmTable} {e : Effect} {slot : AlarmKind} {atMs : ℤ}
    (h : promise table e slot = some atMs) : table slot = some atMs ∨ e = .armAlarm slot atMs := by
  have hcleared : ∀ other : AlarmKind, Function.update table other none slot = some atMs →
      table slot = some atMs := by
    intro other hother
    by_cases hslot : slot = other
    · subst hslot
      rw [Function.update_self] at hother
      cases hother
    · rwa [Function.update_of_ne hslot] at hother
  cases e with
  | armAlarm other atMs' =>
    by_cases hslot : slot = other
    · subst hslot
      rw [promise, Function.update_self] at h
      exact Or.inr (by rw [Option.some.inj h])
    · rw [promise, Function.update_of_ne hslot] at h
      exact Or.inl h
  | clearAlarm other => exact Or.inl (hcleared other h)
  | pushFanout => exact Or.inl (hcleared .fanoutSettle h)
  | _ => exact Or.inl h

theorem foldl_promise_of_some {es : List Effect} {table : AlarmTable} {slot : AlarmKind} {atMs : ℤ}
    (h : es.foldl promise table slot = some atMs) :
    table slot = some atMs ∨ .armAlarm slot atMs ∈ es := by
  induction es generalizing table with
  | nil => exact Or.inl h
  | cons e es ih =>
    rcases ih h with hbefore | hlater
    · rcases promise_of_some hbefore with htable | rfl
      · exact Or.inl htable
      · exact Or.inr (List.mem_cons_self ..)
    · exact Or.inr (List.mem_cons_of_mem _ hlater)

theorem exec_alarms {s : ObjectStore} {m : SessionMachine} (hm : s.cached = some m)
    (effect : Effect) (answers : Answers) :
    (s.exec effect answers).1.alarms = promise s.alarms effect := by
  unfold ObjectStore.exec
  rw [hm]
  exact execute_promise ⟨m, s.alarms⟩ (effect, answers)

theorem exec_alive {s : ObjectStore} (effect : Effect) (answers : Answers) (h : s.Alive) :
    (s.exec effect answers).1.Alive := by
  obtain ⟨hcached, hpersisted⟩ := h
  obtain ⟨m, hm⟩ := Option.isSome_iff_exists.1 hcached
  unfold ObjectStore.exec
  rw [hm]
  refine ⟨rfl, ?_⟩
  simp only
  split_ifs
  · rfl
  · exact hpersisted

/-- A reduction leaves the alarms alone; it leaves a machine, or asks for nothing. -/
theorem reduce_store (s : ObjectStore) (event : SessionEvent) (c : Clock) :
    (s.reduce event c).1.alarms = s.alarms ∧
      ((s.reduce event c).1.Alive ∨ (s.reduce event c).1 = s ∧ (s.reduce event c).2 = []) := by
  have hnone : (reduceStep s.cached (c.input event)).1 = none →
      s.cached = none ∧ (reduceStep s.cached (c.input event)).2 = [] := reduceStep_none
  unfold ObjectStore.reduce
  cases hstep : (reduceStep s.cached (c.input event)).1 with
  | some m => simp [hstep, ObjectStore.save, ObjectStore.Alive]
  | none => simp [hstep, (hnone hstep).2]

/-- **One write of the drain** changes the table as it changes what is owed. -/
theorem tick_alarms {s : ObjectState} (c : Clock) (answers : Answers)
    (h : s.disk.store.Alive ∨ Effectless s) :
    (JournaledQueue.tick sessionObject s c answers).1.disk.store.alarms =
      owedAfter s s.disk.store.alarms := by
  obtain ⟨disk, pc⟩ := s
  cases pc with
  | idle | arm | commit | disarm => rfl
  | running cursor effect =>
    rcases h with ⟨hcached, _⟩ | ⟨hidle, _⟩
    · obtain ⟨m, hm⟩ := Option.isSome_iff_exists.1 hcached
      exact exec_alarms hm effect answers
    · exact absurd rfl (hidle cursor effect)
  | loop =>
    simp only [JournaledQueue.tick, JournaledQueue.turn, owedAfter]
    split
    · rfl
    · split
      · rfl
      · split
        · exact (reduce_store ..).1
        · split <;> rfl

theorem tick_alive {s : ObjectState} (c : Clock) (answers : Answers) (h : s.disk.store.Alive) :
    (JournaledQueue.tick sessionObject s c answers).1.disk.store.Alive := by
  obtain ⟨disk, pc⟩ := s
  cases pc with
  | idle | arm | commit | disarm => exact h
  | running cursor effect => exact exec_alive effect answers h
  | loop =>
    simp only [JournaledQueue.tick, JournaledQueue.turn]
    split
    · exact h
    · split
      · exact h
      · rename_i head _
        split
        · rcases (reduce_store disk.store head.event c).2 with halive | ⟨hsame, _⟩
          · exact halive
          · show ObjectStore.Alive (disk.store.reduce head.event c).1
            rw [hsame]
            exact h
        · split <;> exact h

theorem tick_effectless {s : ObjectState} (c : Clock) (answers : Answers) (h : Effectless s) :
    (JournaledQueue.tick sessionObject s c answers).1.disk.store.Alive ∨
      Effectless (JournaledQueue.tick sessionObject s c answers).1 := by
  obtain ⟨⟨store, journal, seen⟩, pc⟩ := s
  obtain ⟨hrunning, heffects⟩ := h
  cases pc with
  | idle => exact Or.inr ⟨hrunning, heffects⟩
  | arm | disarm => exact Or.inr ⟨by simp [JournaledQueue.tick], heffects⟩
  | running cursor effect => exact absurd rfl (hrunning cursor effect)
  | commit cursor followUps =>
    refine Or.inr ⟨by simp [JournaledQueue.tick], fun j h effects hj hh he => ?_⟩
    obtain ⟨j', hj', rfl⟩ := Option.map_eq_some_iff.1 hj
    obtain ⟨h', hh', rfl⟩ := Option.map_eq_some_iff.1 hh
    exact heffects j' h' effects hj' hh' he
  | loop =>
    cases journal with
    | none => exact Or.inr ⟨by simp [JournaledQueue.tick, JournaledQueue.turn], heffects⟩
    | some j =>
      obtain ⟨head, rest⟩ := j
      cases head with
      | none =>
        refine Or.inr ⟨by simp [JournaledQueue.tick, JournaledQueue.turn], ?_⟩
        intro j h effects hj
        cases hj
      | some head =>
        obtain ⟨event, effects, cursor⟩ := head
        cases effects with
        | none =>
          rcases (reduce_store store event c).2 with halive | ⟨_, hnil⟩
          · exact Or.inl halive
          · refine Or.inr ⟨by simp [JournaledQueue.tick, JournaledQueue.turn], ?_⟩
            intro j h effects hj hh he
            cases hj
            cases hh
            exact (Option.some.inj he).symm.trans hnil
        | some effects =>
          obtain rfl : effects = [] := heffects _ _ _ rfl rfl rfl
          refine Or.inr ⟨by simp [JournaledQueue.tick, JournaledQueue.turn], ?_⟩
          intro j h effects hj hh he
          cases hj
          obtain ⟨event', _, rfl⟩ := Option.map_eq_some_iff.1 hh
          cases he

/-- Nothing but the journal and the point the drain has reached matters. -/
theorem Effectless.of_journal {s t : ObjectState} (h : Effectless s)
    (hjournal : t.disk.journal = s.disk.journal)
    (hpc : ∀ cursor effect, t.pc ≠ .running cursor effect) : Effectless t := by
  refine ⟨hpc, ?_⟩
  rw [hjournal]
  exact h.2

theorem admit_keeps (s : ObjectState) (id : Option EventId) (event : SessionEvent) :
    (JournaledQueue.step sessionObject s (.admitEvent id event)).1.disk.store = s.disk.store ∧
      (Effectless s →
        Effectless (JournaledQueue.step sessionObject s (.admitEvent id event)).1) := by
  rw [JournaledQueue.step]
  split_ifs
  · refine ⟨rfl, fun _ => ⟨by simp, fun j h effects hj hh he => ?_⟩⟩
    cases hj
    cases hh
    cases he
  · exact ⟨rfl, fun h => h⟩

theorem resume_keeps (s : ObjectState) :
    (JournaledQueue.step sessionObject s .resume).1.disk.store = s.disk.store ∧
      (Effectless s → Effectless (JournaledQueue.step sessionObject s .resume).1) := by
  rw [JournaledQueue.step]
  split_ifs
  · exact ⟨rfl, fun h => h.of_journal rfl (by simp)⟩
  · exact ⟨rfl, fun h => h⟩

theorem poke_keeps (s : ObjectState) (write : StoreWrite) :
    ((JournaledQueue.step sessionObject s (.poke write)).1 = s ∨
        (JournaledQueue.step sessionObject s (.poke write)).1.disk.store =
          s.disk.store.poke write) ∧
      (Effectless s → Effectless (JournaledQueue.step sessionObject s (.poke write)).1) := by
  rw [JournaledQueue.step]
  split_ifs
  · exact ⟨Or.inr rfl, fun h => h.of_journal rfl (by simp)⟩
  · exact ⟨Or.inl rfl, fun h => h⟩

theorem adopt_keeps (s : ObjectStore) (m : SessionMachine) :
    (s.poke (.adopt m)).alarms = s.alarms ∧ (s.Alive → (s.poke (.adopt m)).Alive) := by
  unfold ObjectStore.poke ObjectStore.Alive
  cases hcached : s.cached with
  | none => simp [ObjectStore.save]
  | some n => simp [hcached]

/-! ### The slot in hand -/

variable {w : AlarmObject}

namespace AlarmObject

/-- A step with empty hands that leaves the table and what is owed alone. -/
theorem InHand.calm {w v : AlarmObject} (h : w.InHand) (hhand : w.hand = none)
    (hnone : v.hand = none) (htable : v.table = w.table) (howed : v.owed = w.owed)
    (halive : w.object.disk.store.Alive → v.object.disk.store.Alive)
    (heffectless : Effectless w.object → Effectless v.object) : v.InHand where
  table := by
    intro slot _
    rw [htable, howed]
    exact h.table slot (by rw [hhand]; simp)
  held := by
    intro slot hslot
    rw [hnone] at hslot
    cases hslot
  alive := by
    rcases h.alive with h | ⟨hnothing, h⟩
    · exact Or.inl (halive h)
    · exact Or.inr ⟨howed.trans hnothing, heffectless h⟩

/-- The steps that drop what the handler holds: a crash, and an error where one can be thrown. -/
def droppedBy (w : AlarmObject) : AlarmAction → Bool
  | .crash => true
  | .fail => w.hand = some .fanoutSettle
  | _ => false

/-- What the handler drops is owed to nobody. -/
def Uninterrupted (w : AlarmObject) (a : AlarmAction) : Prop :=
  w.droppedBy a = true → ∀ slot, w.hand = some slot → w.owed slot = none

theorem InHand.drop {w v : AlarmObject} (h : w.InHand) (hnone : v.hand = none)
    (htable : v.table = w.table) (howed : v.owed = w.owed)
    (hlost : ∀ slot, w.hand = some slot → w.owed slot = none)
    (halive : v.object.disk.store.Alive ∨ v.owed = (fun _ => none) ∧ Effectless v.object) :
    v.InHand where
  table := by
    intro slot _
    rw [htable, howed]
    by_cases hslot : w.hand = some slot
    · rw [(h.held slot hslot).1, hlost slot hslot]
    · exact h.table slot hslot
  held := by
    intro slot hslot
    rw [hnone] at hslot
    cases hslot
  alive := halive

theorem InHand.tick (h : w.InHand) (c : Clock) (answers : Answers) :
    (w.next (.tick c answers)).InHand := by
  rw [next]
  split_ifs with hhand
  · exact h
  · have hnone : w.hand = none := by simpa using hhand
    have htable : w.table = w.owed := funext fun slot => h.table slot (by rw [hnone]; simp)
    have halarms : (JournaledQueue.tick sessionObject w.object c answers).1.disk.store.alarms =
        owedAfter w.object w.owed := by
      rw [← htable]
      exact tick_alarms c answers (h.alive.imp_right And.right)
    refine ⟨fun slot _ => congrFun halarms slot, fun slot hslot => ?_, ?_⟩
    · cases hnone.symm.trans hslot
    · rcases h.alive with halive | ⟨hnothing, heffectless⟩
      · exact Or.inl (tick_alive c answers halive)
      · rcases tick_effectless c answers heffectless with halive | hstill
        · exact Or.inl halive
        · -- no effect is being executed, so nothing is armed
          have howed : owedAfter w.object w.owed = w.owed := by
            unfold owedAfter
            split
            · rename_i cursor effect hpc
              exact absurd hpc (heffectless.1 cursor effect)
            · rfl
          exact Or.inr ⟨howed.trans hnothing, hstill⟩

theorem InHand.clear (h : w.InHand) {slot : AlarmKind} {due : List AlarmKind}
    (hhand : w.hand = none) (hready : w.object.ready = true) :
    InHand { w.step (.poke (.clearSlot slot)) with due := due, hand := some slot } := by
  have hidle : w.object.pc.isIdle = true := (Bool.and_eq_true_iff.1 hready).1
  have hstep : (JournaledQueue.step sessionObject w.object (.poke (.clearSlot slot))).1 =
      ⟨{ w.object.disk with store := w.object.disk.store.poke (.clearSlot slot) }, .idle⟩ := by
    rw [JournaledQueue.step, if_pos hidle]
    rfl
  have htable : (w.step (.poke (.clearSlot slot))).table = Function.update w.table slot none := by
    rw [AlarmObject.table, AlarmObject.step, hstep]
    rfl
  have hready' : (w.step (.poke (.clearSlot slot))).object.ready = true := by
    rw [AlarmObject.step, hstep]
    exact (Bool.and_eq_true_iff.1 hready).2
  refine ⟨fun other hother => ?_, fun other hother => ?_, ?_⟩
  · have hne : other ≠ slot := fun heq => hother (by rw [heq])
    refine (congrFun htable other).trans ((Function.update_of_ne hne _ _).trans ?_)
    exact h.table other (by rw [hhand]; simp)
  · obtain rfl : slot = other := Option.some.inj hother
    exact ⟨(congrFun htable slot).trans (Function.update_self ..), hready'⟩
  · rcases h.alive with halive | ⟨hnothing, heffectless⟩
    · refine Or.inl ?_
      rw [AlarmObject.step, hstep]
      exact halive
    · exact Or.inr ⟨hnothing, (poke_keeps ..).2 heffectless⟩

theorem InHand.fire (h : w.InHand) {slot : AlarmKind} (unreachableUserIds : List String)
    (hhand : w.hand = some slot) : (w.fire slot unreachableUserIds).InHand := by
  unfold AlarmObject.fire
  split
  · -- the purge
    refine ⟨fun _ _ => rfl, fun _ hslot => (by cases hslot), Or.inr ⟨rfl, by simp [wiped], ?_⟩⟩
    intro j _ _ hj
    cases hj
  · rename_i event _
    split_ifs with hcached
    · -- no machine: nothing is owed
      refine h.drop rfl rfl rfl (fun other _ => ?_) h.alive
      rcases h.alive with ⟨halive, _⟩ | ⟨hnothing, _⟩
      · rw [Option.isNone_iff_eq_none.1 hcached] at halive
        cases halive
      · exact congrFun hnothing other
    · have hadmitted : JournaledQueue.step sessionObject w.object (.admitEvent none event) =
          (⟨w.object.disk.accept SEEN_CAP none event, .arm⟩, [.admitted none event]) := by
        rw [JournaledQueue.step, if_pos]
        · rfl
        · rw [(h.held slot hhand).2]
          rfl
      rw [hadmitted]
      have howed : ∀ other, Function.update w.owed slot none other = w.table other := by
        intro other
        by_cases hother : other = slot
        · subst hother
          rw [Function.update_self, (h.held other hhand).1]
        · rw [Function.update_of_ne hother]
          exact (h.table other (by rw [hhand]; simpa using Ne.symm hother)).symm
      refine ⟨fun other _ => (howed other).symm, fun other hother => (by cases hother), ?_⟩
      rcases h.alive with halive | ⟨hnothing, heffectless⟩
      · exact Or.inl halive
      · refine Or.inr ⟨?_, ?_⟩
        · show Function.update w.owed slot none = fun _ => none
          rw [hnothing]
          exact Function.update_eq_self slot _
        · have hkeeps := (admit_keeps w.object none event).2 heffectless
          rw [hadmitted] at hkeeps
          exact hkeeps

/-- **A step that drops nothing owed** keeps the table equal to what is owed, but for the slot in
hand. -/
theorem InHand.next (h : w.InHand) {a : AlarmAction} (ha : w.Uninterrupted a) :
    (w.next a).InHand := by
  cases a with
  | tick c answers => exact h.tick c answers
  | wake nowMs =>
    rw [AlarmObject.next]
    split_ifs
    · exact h
    · exact ⟨h.table, h.held, h.alive⟩
  | admitEvent id event =>
    rw [AlarmObject.next]
    split_ifs with hbusy
    · exact h
    · have hnone : w.hand = none := by
        simp only [firing, Bool.or_eq_true, not_or] at hbusy
        simpa using hbusy.1.1
      obtain ⟨hstore, hkeeps⟩ := admit_keeps w.object id event
      refine h.calm hnone hnone ?_ rfl (fun halive => ?_) hkeeps
      · exact congrArg ObjectStore.alarms hstore
      · rw [AlarmObject.step, hstore]
        exact halive
  | adopt machine =>
    rw [AlarmObject.next]
    split_ifs with hbusy
    · exact h
    · have hnone : w.hand = none := by
        simp only [firing, Bool.or_eq_true, not_or] at hbusy
        simpa using hbusy.1.1
      obtain ⟨hsame | hstore, hkeeps⟩ := poke_keeps w.object (.adopt machine)
      · rw [AlarmObject.step, hsame]
        exact h
      · obtain ⟨halarms, halive⟩ := adopt_keeps w.object.disk.store machine
        refine h.calm hnone hnone ?_ rfl (fun hal => ?_) hkeeps
        · exact (congrArg ObjectStore.alarms hstore).trans halarms
        · rw [AlarmObject.step, hstore]
          exact halive hal
  | resume =>
    rw [AlarmObject.next]
    split_ifs with hbusy
    · exact h
    · have hnone : w.hand = none := by simpa using hbusy
      obtain ⟨hstore, hkeeps⟩ := resume_keeps w.object
      refine h.calm hnone hnone ?_ rfl (fun halive => ?_) hkeeps
      · exact congrArg ObjectStore.alarms hstore
      · rw [AlarmObject.step, hstore]
        exact halive
  | clear =>
    rw [AlarmObject.next]
    split
    · split_ifs with hbusy
      · exact h
      · simp only [Bool.or_eq_true, not_or, Bool.not_eq_true, Bool.not_eq_false'] at hbusy
        exact h.clear (by simpa using hbusy.1) (by simpa using hbusy.2)
    · exact h
  | fire unreachableUserIds =>
    rw [AlarmObject.next]
    split
    · rename_i slot hhand
      exact h.fire unreachableUserIds hhand
    · exact h
  | fail =>
    rw [AlarmObject.next]
    split_ifs with hhand
    · exact h.drop rfl rfl rfl (ha (decide_eq_true hhand)) h.alive
    · exact h
  | crash =>
    refine h.drop rfl rfl rfl (ha rfl) ?_
    rcases h.alive with ⟨hcached, hpersisted⟩ | ⟨hnothing, heffectless⟩
    · exact Or.inl ⟨hpersisted, hpersisted⟩
    · have hidle : (w.next .crash).object.pc = .idle := rfl
      exact Or.inr ⟨hnothing, heffectless.of_journal rfl (by simp [hidle])⟩

theorem inHand_start : start.InHand := by
  refine ⟨fun _ _ => rfl, fun _ hslot => (by cases hslot), Or.inr ⟨rfl, ?_, ?_⟩⟩
  · simp [start, JournaledQueue.State.init]
  · intro j h effects hj
    cases hj

end AlarmObject

/-! ### No alarm is lost -/

namespace AlarmObject

theorem InHand.kept (h : w.InHand) (hhand : w.hand = none) : AlarmsKept w := by
  intro slot atMs howed
  rw [h.table slot (by rw [hhand]; simp)]
  exact howed

theorem not_kept {slot : AlarmKind} (htable : w.table slot = none)
    (howed : w.owed slot ≠ none) : ¬AlarmsKept w := by
  intro hkept
  obtain ⟨atMs, hatMs⟩ := Option.ne_none_iff_exists'.1 howed
  have hthere := hkept slot atMs hatMs
  rw [htable] at hthere
  cases hthere

/-- The slot that a step would take out of the table is owed to nobody. -/
def LeavesOwed (w : AlarmObject) (a : AlarmAction) : Prop :=
  a = .clear → ∀ slot due, w.due = slot :: due → w.hand = none → w.object.ready = true →
    w.owed slot = none

/-- What a step leaves in the hand was there before, or has just been cleared. -/
theorem hand_next (w : AlarmObject) (a : AlarmAction) {slot : AlarmKind}
    (h : (w.next a).hand = some slot) :
    (w.hand = some slot ∧ (w.next a).owed = w.owed) ∨
      (a = .clear ∧ (∃ due, w.due = slot :: due) ∧ w.hand = none ∧ w.object.ready = true ∧
        (w.next a).owed = w.owed) := by
  cases a with
  | admitEvent | adopt | resume | wake =>
    rw [next] at h ⊢
    split_ifs at h ⊢ <;> exact Or.inl ⟨h, rfl⟩
  | tick =>
    rw [next] at h ⊢
    split_ifs at h ⊢ with hhand
    · exact Or.inl ⟨h, rfl⟩
    · rw [show w.hand = some slot from h] at hhand
      exact absurd rfl hhand
  | clear =>
    rw [next] at h ⊢
    split at h
    · rename_i cleared due hdue
      split_ifs at h ⊢ with hbusy
      · exact Or.inl ⟨h, rfl⟩
      · obtain rfl : cleared = slot := Option.some.inj h
        simp only [Bool.or_eq_true, not_or, Bool.not_eq_true, Bool.not_eq_false'] at hbusy
        exact Or.inr ⟨rfl, ⟨due, hdue⟩, by simpa using hbusy.1, by simpa using hbusy.2, rfl⟩
    · exact Or.inl ⟨h, rfl⟩
  | fire unreachableUserIds =>
    rw [next] at h
    split at h
    · unfold fire at h
      split at h
      · cases h
      · split_ifs at h
    · rename_i hhand
      rw [hhand] at h
      cases h
  | fail =>
    rw [next] at h ⊢
    split_ifs at h ⊢
    exact Or.inl ⟨h, rfl⟩
  | crash => cases h

theorem not_kept_of_dropped (h : w.InHand) {a : AlarmAction}
    (ha : ¬w.Uninterrupted a) : (w.next a).hand = none ∧ ¬AlarmsKept (w.next a) := by
  simp only [Uninterrupted, not_forall] at ha
  obtain ⟨hdropped, slot, hhand, howed⟩ := ha
  have hlost := (h.held slot hhand).1
  cases a with
  | crash => exact ⟨rfl, @not_kept _ slot hlost howed⟩
  | fail =>
    have hbackstop : w.hand = some .fanoutSettle := of_decide_eq_true hdropped
    rw [next, if_pos hbackstop]
    exact ⟨rfl, @not_kept _ slot hlost howed⟩
  | _ => cases hdropped

/-- A step that takes an owed slot out of the table leaves a durable state without it. -/
theorem not_kept_of_cleared (h : w.InHand) {a : AlarmAction}
    (ha : ¬w.LeavesOwed a) : ¬AlarmsKept (w.next a) := by
  simp only [LeavesOwed, not_forall] at ha
  obtain ⟨rfl, slot, due, hdue, hhand, hready, howed⟩ := ha
  have hnext : w.next .clear =
      { w.step (.poke (.clearSlot slot)) with due := due, hand := some slot } := by
    rw [next, hdue]
    simp [hhand, hready]
  have hcleared : InHand { w.step (.poke (.clearSlot slot)) with due := due, hand := some slot } :=
    h.clear hhand hready
  have hheld := hcleared.held slot rfl
  rw [hnext]
  exact not_kept hheld.1 howed

end AlarmObject

open AlarmObject in
/-- **No alarm is lost, exactly when** nothing interrupts the handler with an owed slot in its
hand: then every alarm owed is in the table at every durable state at which the hand is empty.  And
it is in the table at every durable state whatever exactly when no owed slot is ever taken out to
be fired. -/
theorem no_lost_alarm_iff (actions : List AlarmAction) :
    ((∀ w ∈ durableStates actions, w.hand = none → AlarmsKept w) ↔
        Reactive.Along alarmStep Uninterrupted .start actions) ∧
      ((∀ w ∈ durableStates actions, AlarmsKept w) ↔
        Reactive.Along alarmStep LeavesOwed .start actions) := by
  constructor
  · refine Reactive.outputs_good_iff_along alarmStep (P := InHand) ?_ ?_ inHand_start actions
    · intro w a h ha
      refine ⟨h.next ha, fun v hv => ?_⟩
      rw [List.mem_singleton.1 hv]
      exact (h.next ha).kept
    · intro w a h ha
      obtain ⟨hhand, hlost⟩ := not_kept_of_dropped h ha
      exact ⟨w.next a, List.mem_singleton_self _, fun hkept => hlost (hkept hhand)⟩
  · -- as long as nothing owed has been cleared, nothing owed is in the hand
    refine Reactive.outputs_good_iff_along alarmStep
      (P := fun w => w.InHand ∧ ∀ slot, w.hand = some slot → w.owed slot = none) ?_ ?_
      ⟨inHand_start, fun slot hslot => by cases hslot⟩ actions
    · rintro w a ⟨h, hnothing⟩ ha
      have hnext : (w.next a).InHand := h.next fun _ => hnothing
      have hstill : ∀ slot, (w.next a).hand = some slot → (w.next a).owed slot = none := by
        intro slot hslot
        rcases hand_next w a hslot with ⟨hhand, howed⟩ | ⟨hclear, ⟨due, hdue⟩, hhand, hready, howed⟩
        · rw [howed]
          exact hnothing slot hhand
        · rw [howed]
          exact ha hclear slot due hdue hhand hready
      refine ⟨⟨hnext, hstill⟩, fun v hv => ?_⟩
      rw [List.mem_singleton.1 hv]
      intro slot atMs howed
      by_cases hslot : (w.next a).hand = some slot
      · rw [hstill slot hslot] at howed
        cases howed
      · show (w.next a).table slot = some atMs
        rw [hnext.table slot hslot]
        exact howed
    · rintro w a ⟨h, _⟩ ha
      exact ⟨w.next a, List.mem_singleton_self _, not_kept_of_cleared h ha⟩

/-- A call to a crew of one is minted and its cascade drained; the ring window runs out, the
handler clears its slot, and the object is evicted before the event is on the journal. -/
def evictedRing : List AlarmAction :=
  .admitEvent none (.initiated crewOfOne) ::
    List.replicate 30 (.tick ⟨0, 0, fun _ => "key"⟩ willing) ++ [.wake 45000, .clear] ++ [.crash]

theorem final_mem_durableStates (actions : List AlarmAction) (a : AlarmAction) :
    Reactive.final alarmStep .start (actions ++ [a]) ∈ durableStates (actions ++ [a]) := by
  rw [durableStates, Reactive.outputs_append, Reactive.final_append]
  exact List.mem_append_right _ (List.mem_singleton_self _)

/-- The ring alarm is owed, in no table and in nobody's hand, and no journal holds its event: the
caller rings on. -/
theorem ring_alarm_lost : ∃ w ∈ durableStates evictedRing,
    w.hand = none ∧ w.object.disk.journal.isNone = true ∧ w.owed .ring = some 45000 ∧
      w.table .ring = none := by
  refine ⟨Reactive.final alarmStep .start evictedRing, ?_, ?_⟩
  · exact final_mem_durableStates _ .crash
  · decide +kernel

end Calls
