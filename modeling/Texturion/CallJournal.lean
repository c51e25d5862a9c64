/-
**The session object's journal.**

`admit`, `drain` and `resumeJournalIfAny` of `apps/api/src/calls/session-do.ts` as an instance of
`JournaledQueue.System`: the store is the machine as it is persisted and as it is cached, the alarm
table and the `journal-resume` slot; the direct writes are the adoption of a machine from the row
and the slots that the alarm handler clears.  Each step is one write of the object's storage, and
the process may die between any two; what is in memory is then read again from the storage.

The transition function spends no vendor commands, the execution of its effects does.  So what the
journal keeps equal to the fold of `reduce` is the persisted machine up to its command count.

Main result:

* `Calls.journal_crash_resume` — the journal loses and repeats nothing, whatever crashes.
-/

import Texturion.CallBudget
import Texturion.JournaledQueue

namespace Calls

open JournaledQueue (Entry Reduction recorded queued admittedIds history starts follows)

/-! ### The store -/

/-- The ids the object remembers. -/
def SEEN_CAP : ℕ := 256

/-- An event id the object looks at: the source tests it for truth. -/
abbrev EventId := { id : String // id ≠ "" }

/-- The machine as it is persisted and as it is cached, the alarm table and the slot that resumes
an unfinished journal. -/
structure ObjectStore where
  persisted : Option SessionMachine
  cached : Option SessionMachine
  alarms : AlarmTable
  resume : Option ℤ

/-- The clocks and uuids one reduction reads. -/
structure Clock where
  nowMs : ℤ
  clockMs : ℤ
  pendingKeyFor : ℕ → String

def Clock.input (c : Clock) (event : SessionEvent) : Input :=
  ⟨event, c.nowMs, c.clockMs, c.pendingKeyFor⟩

/-- A write of an entrypoint before it admits its event: the adoption of a machine that the row
describes, or a slot that the alarm handler clears. -/
inductive StoreWrite
  | adopt (machine : SessionMachine)
  | clearSlot (alarm : AlarmKind)
  | clearResume

namespace ObjectStore

/-- An object that has never stored anything. -/
def empty : ObjectStore where
  persisted := none
  cached := none
  alarms := fun _ => none
  resume := none

/-- The store with another machine, in memory and in the storage. -/
def save (s : ObjectStore) (m : SessionMachine) : ObjectStore :=
  { s with persisted := some m, cached := some m }

/-- Reduce an event on the machine in memory; a result without a machine keeps the prior one. -/
def reduce (s : ObjectStore) (event : SessionEvent) (c : Clock) : ObjectStore × List Effect :=
  let result := reduceStep s.cached (c.input event)
  match result.1 with
  | some m => (s.save m, result.2)
  | none => (s, result.2)

/-- The adoption, which only an empty object makes, and the cleared slots. -/
def poke (s : ObjectStore) : StoreWrite → ObjectStore
  | .adopt m =>
    match s.cached with
    | none => s.save m
    | some _ => s
  | .clearSlot alarm => { s with alarms := Function.update s.alarms alarm none }
  | .clearResume => { s with resume := none }

/-- What a crash leaves: the next load reads the storage. -/
def restart (s : ObjectStore) : ObjectStore :=
  { s with cached := s.persisted }

end ObjectStore

def saves (m : SessionMachine) : Effect → Bool
  | .telnyxDial _ | .telnyxBridge _ _ | .telnyxReject _ _ | .telnyxSpeak _ _
  | .telnyxRecordStart _ => true
  | .telnyxDialPlacer _ _ _ => (spendCommand m false).2
  | .telnyxHangup _ terminal => (spendCommand m terminal).2
  | .telnyxAnswerInbound ccid _ | .telnyxAnswerNotice ccid | .telnyxAnswerVm ccid => ccid != ""
  | _ => false

theorem execute_unspent (s : Shell) (i : Effect × Answers) :
    unspent (some (execute s i).1.machine) = unspent (some s.machine) := by
  obtain ⟨count, h⟩ := execute_machine s i
  rw [h]
  rfl

/-- Execute an effect on the machine in memory, and save it where the source does: a command that
the cap drops is counted in memory and written with the next save.  Without a machine nothing has
asked for an effect. -/
def ObjectStore.exec (s : ObjectStore) (effect : Effect) (answers : Answers) :
    ObjectStore × List SessionEvent :=
  match s.cached with
  | none => (s, [])
  | some m =>
    let done := execute ⟨m, s.alarms⟩ (effect, answers)
    ({ s with
        persisted := if saves m effect then some done.1.machine else s.persisted
        cached := some done.1.machine
        alarms := done.1.alarms }, done.2)

def sessionObject : JournaledQueue.System ObjectStore SessionEvent Effect Clock Answers StoreWrite
    where
  cap := SEEN_CAP
  reduce := ObjectStore.reduce
  exec := ObjectStore.exec
  poke := ObjectStore.poke
  arm := fun s c => { s with resume := some (c.nowMs + JOURNAL_RESUME_MS) }
  disarm := fun s => { s with resume := none }
  restart := ObjectStore.restart

/-! ### The specification -/

/-- The fold of `reduce`, which knows of no journal, no crash and no command count. -/
def reduceFold (machine : Option SessionMachine) (event : SessionEvent) (c : Clock) :
    Option SessionMachine × List Effect :=
  reduceStep machine (c.input event)

/-- An empty object takes the machine it adopts. -/
def adoptFold (machine : Option SessionMachine) : StoreWrite → Option SessionMachine
  | .adopt m => machine.or (some m)
  | _ => machine

/-- The machine in the storage and the one in memory, up to their command counts. -/
structure ObjectStore.Holds (s : ObjectStore) (machine : Option SessionMachine) : Prop where
  persisted : unspent s.persisted = unspent machine
  cached : unspent s.cached = unspent machine

variable {s : ObjectStore} {machine : Option SessionMachine}

theorem ObjectStore.exec_holds (effect : Effect) (answers : Answers) (h : s.Holds machine) :
    (s.exec effect answers).1.Holds machine := by
  obtain ⟨persisted, cached, alarms, resume⟩ := s
  cases cached with
  | none => exact h
  | some m =>
      have hdone : unspent (some (execute ⟨m, alarms⟩ (effect, answers)).1.machine) =
          unspent machine :=
        (execute_unspent ..).trans h.cached
      refine ⟨?_, hdone⟩
      simp only [ObjectStore.exec]
      split_ifs
      · exact hdone
      · exact h.persisted

/-- A reduction leaves a machine wherever it found one, and without a machine asks for nothing. -/
theorem reduceStep_none {i : Input}
    (h : (reduceStep machine i).1 = none) : machine = none ∧ (reduceStep machine i).2 = [] := by
  cases machine with
  | some m => cases h
  | none =>
      refine ⟨rfl, ?_⟩
      obtain ⟨event, nowMs, clockMs, pendingKeyFor⟩ := i
      cases event with
      | initiated | outboundInitiated => cases h
      | _ => rfl

theorem ObjectStore.reduce_holds (event : SessionEvent) (c : Clock) (h : s.Holds machine) :
    (s.reduce event c).1.Holds (reduceFold machine event c).1 ∧
      (s.reduce event c).2 = (reduceFold machine event c).2 := by
  obtain ⟨hmachine, heffects⟩ := reduceStep_unspent h.cached (c.input event)
  unfold ObjectStore.reduce reduceFold
  cases hstep : (reduceStep s.cached (c.input event)).1 with
  | some m =>
      rw [hstep] at hmachine
      simp only [hstep]
      exact ⟨⟨hmachine, hmachine⟩, heffects⟩
  | none =>
      -- no machine before, none after: the prior storage is kept
      have hbefore : unspent s.cached = none := by rw [(reduceStep_none hstep).1]; rfl
      have hmachine' : unspent machine = none := h.cached.symm.trans hbefore
      rw [hstep] at hmachine
      have hsame : unspent machine = unspent (reduceStep machine (c.input event)).1 :=
        hmachine'.trans hmachine
      simp only [hstep]
      exact ⟨⟨h.persisted.trans hsame, h.cached.trans hsame⟩, heffects⟩

theorem ObjectStore.poke_holds
    (write : StoreWrite) (h : s.Holds machine) : (s.poke write).Holds (adoptFold machine write) := by
  cases write with
  | clearSlot | clearResume => exact ⟨h.persisted, h.cached⟩
  | adopt m =>
      have hcached := h.cached
      simp only [ObjectStore.poke, adoptFold]
      cases hs : s.cached with
      | none =>
          rw [hs] at hcached
          obtain rfl : machine = none := Option.map_eq_none_iff.1 hcached.symm
          exact ⟨rfl, rfl⟩
      | some n =>
          rw [hs] at hcached
          cases machine with
          | none => cases hcached
          | some k => exact h

/-- **Every operation of the object respects `reduce`.** -/
theorem sessionObject_simulates :
    JournaledQueue.Simulates sessionObject ObjectStore.Holds reduceFold adoptFold where
  reduce := fun event c h => ObjectStore.reduce_holds event c h
  exec := fun effect answers h => ObjectStore.exec_holds effect answers h
  poke := fun write h => ObjectStore.poke_holds write h
  arm := fun _ h => ⟨h.persisted, h.cached⟩
  disarm := fun h => ⟨h.persisted, h.cached⟩
  restart := fun h => ⟨h.persisted, h.persisted⟩

/-! ### Runs -/

abbrev ObjectAction := JournaledQueue.Action SessionEvent Clock Answers EventId StoreWrite

abbrev ObjectState := JournaledQueue.State ObjectStore SessionEvent Effect EventId

abbrev ObjectEntry := Entry SessionEvent Effect Clock EventId StoreWrite

def objectRun (actions : List ObjectAction) :
    JournaledQueue.Run ObjectStore SessionEvent Clock Answers EventId StoreWrite :=
  ⟨.empty, actions⟩

def objectAfter (actions : List ObjectAction) : ObjectState :=
  (objectRun actions).state sessionObject

def objectLog (actions : List ObjectAction) : List ObjectEntry :=
  (objectRun actions).log sessionObject

/-- The reductions of a run, in order. -/
def reductions (actions : List ObjectAction) : List (Reduction SessionEvent Effect) :=
  (recorded (objectLog actions)).reverse

/-- The reductions end in the machine that is persisted, up to its command count, and ask for the
effects that were recorded for them. -/
def FoldsReduce (actions : List ObjectAction) : Prop :=
  unspent (objectAfter actions).disk.store.persisted =
      unspent (Reactive.final (JournaledQueue.replay reduceFold adoptFold) none
        (history (objectLog actions))) ∧
    (reductions actions).map Reduction.effects =
      Reactive.outputs (JournaledQueue.replay reduceFold adoptFold) none
        (history (objectLog actions)) ∧
    (reductions actions).map Reduction.event =
      (history (objectLog actions)).filterMap JournaledQueue.reducedEvent

theorem foldsReduce (actions : List ObjectAction) : FoldsReduce actions := by
  have hempty : ObjectStore.empty.Holds none := ⟨rfl, rfl⟩
  obtain ⟨hstore, heffects, hevents⟩ :=
    JournaledQueue.replay_simulates sessionObject (objectRun actions) sessionObject_simulates hempty
  exact ⟨hstore.persisted, heffects, hevents⟩

/-- How the first `done` effects of a reduction have been executed, and no others: each was started
and has finished, they started in order, and what they returned was queued once, in order. -/
structure ExecutedInOrder (rd : Reduction SessionEvent Effect) (done : ℕ) : Prop where
  executed : ∀ j effect, j < done → rd.effects[j]? = some effect →
    .started j effect ∈ rd.execs ∧ ∃ followUps, .finished j effect followUps ∈ rd.execs
  starts_le : ∀ j ∈ starts rd.execs, j ≤ done
  starts_sorted : (starts rd.execs).Pairwise (· ≤ ·)
  follows : follows rd.execs = List.range done
  returned : ∀ j followUps, .followed j followUps ∈ rd.execs →
    ∃ effect, .finished j effect followUps ∈ rd.execs

theorem executedInOrder_of_wellRun {rd : Reduction SessionEvent Effect} {done : ℕ}
    (h : JournaledQueue.WellRun rd.effects rd.execs done) : ExecutedInOrder rd done where
  executed := by
    intro j effect hj heffect
    obtain ⟨effect', followUps, heffect', hstart, hfinish⟩ := h.executed hj
    obtain rfl : effect' = effect := Option.some.inj (heffect'.symm.trans heffect)
    exact ⟨hstart, followUps, hfinish⟩
  starts_le := fun _ hj => h.le_of_mem_starts hj
  starts_sorted := h.starts_sorted
  follows := h.follows_eq
  returned := fun _ _ hmem => h.finished_of_followed hmem

/-- A drain without a further crash. -/
def resumed (stream : ℕ → Clock × Answers) (n : ℕ) : List ObjectAction :=
  .crash :: .resume :: JournaledQueue.drainActions stream n

/-- **The journal survives every crash.**  Along every run of the object, with crashes wherever
they fall: what has been reduced, followed by what is pending, is what was admitted and followed
up, in order; the persisted machine is the fold of `reduce` over it, up to the command count; the
effects of every reduction are executed in order, all of them before the next reduction or before
the journal is done with; an id among the last `SEEN_CAP` admitted is not admitted again; and a
drain that is resumed and not interrupted reduces everything that was queued. -/
theorem journal_crash_resume (actions : List ObjectAction) :
    ((reductions actions).map Reduction.event ++ (objectAfter actions).disk.pending =
        queued (objectLog actions)) ∧
      FoldsReduce actions ∧
      (∀ rd ∈ reductions actions, (∃ done, ExecutedInOrder rd done) ∧
        (ExecutedInOrder rd rd.effects.length ∨
          (reductions actions).getLast? = some rd ∧
            (objectAfter actions).disk.unfinished = true)) ∧
      (∀ id event, id ∈ (admittedIds (objectLog actions)).rtake SEEN_CAP →
        JournaledQueue.step sessionObject (objectAfter actions) (.admitEvent (some id) event) =
          (objectAfter actions, [])) ∧
      (∀ pre id mid post, admittedIds (objectLog actions) = pre ++ id :: (mid ++ id :: post) →
        SEEN_CAP ≤ mid.length) ∧
      ((objectAfter actions).disk.unfinished = true → ∀ stream, ∃ n,
        (queued (objectLog actions)).length ≤
          (reductions (actions ++ resumed stream n)).length) := by
  refine ⟨?_, foldsReduce actions, fun rd hrd => ?_, fun id event hid => ?_, ?_, ?_⟩
  · exact JournaledQueue.queue_exactly_once sessionObject (objectRun actions)
  · have hmem : rd ∈ recorded (objectLog actions) := List.mem_reverse.1 hrd
    obtain ⟨⟨done, hrun⟩, hlast⟩ :=
      JournaledQueue.recorded_wellRun sessionObject (objectRun actions) hmem
    refine ⟨⟨done, executedInOrder_of_wellRun hrun⟩, ?_⟩
    cases hfin : (objectAfter actions).disk.unfinished with
    | false =>
        have hcomplete :=
          JournaledQueue.recorded_complete sessionObject (objectRun actions) hfin hmem
        exact Or.inl (executedInOrder_of_wellRun hcomplete)
    | true =>
        rcases hlast with hcomplete | hhead
        · exact Or.inl (executedInOrder_of_wellRun hcomplete)
        · refine Or.inr ⟨?_, rfl⟩
          rw [reductions, List.getLast?_reverse]
          exact hhead
  · exact JournaledQueue.admit_of_remembered sessionObject (objectRun actions) event hid
  · exact (JournaledQueue.Run.remembers sessionObject (objectRun actions)).spaced
  · intro hunfinished stream
    obtain ⟨n, hn⟩ :=
      JournaledQueue.drains sessionObject (objectRun actions) hunfinished stream
    refine ⟨n, ?_⟩
    rw [reductions, List.length_reverse]
    exact hn

def overCapCall : InitiatedContext := { crewOfOne with overCap := true }

/-- The mint of an over-cap call, drained until the reject command has been executed. -/
def rejectedCall : List ObjectAction :=
  .admitEvent none (.initiated overCapCall) ::
    List.replicate 8 (.tick ⟨0, 0, fun _ => "key"⟩ willing)

/-- The persisted machine has counted the reject, the fold of `reduce` has not. -/
theorem persisted_counts_commands :
    (objectAfter rejectedCall).disk.store.persisted ≠
      Reactive.final (JournaledQueue.replay reduceFold adoptFold) none
        (history (objectLog rejectedCall)) := by
  intro h
  have hcount := congrArg (Option.map SessionMachine.telnyxCommandCount) h
  revert hcount
  decide

end Calls
