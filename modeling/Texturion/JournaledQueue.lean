/-
**A write-ahead journal over a queue of events.**

An object keeps a durable store and a journal.  Admitting an event is one write: the event becomes
the head of a fresh journal, and its id joins a ring of the ids last seen.  The drain reduces the
head and writes the reduced store together with the effects the reduction asked for; it executes
these effects one after the other, each followed by a write that moves the cursor past it and
queues the events its execution returned; then it takes the next event off the queue.  The process
may die between any two of these writes: what is durable stays, and the drain resumes from it.

A run leaves a log, and everything is stated about that log: what was queued, what was reduced with
which effects, and how the effects of each reduction were executed.

Main definitions:

* `JournaledQueue.System` — what the object does with an event, an effect and a direct write;
* `JournaledQueue.State`, `JournaledQueue.step` — the durable disk with the point the drain has
  reached, and its steps, one durable write at a time;
* `JournaledQueue.WellRun` — how the effects of one reduction may be executed;
* `JournaledQueue.Simulates` — a specification that every operation of the object respects.

Main results:

* `JournaledQueue.queue_exactly_once` — the events reduced, followed by those pending, are the
  events queued;
* `JournaledQueue.recorded_complete`, `JournaledQueue.recorded_wellRun` — every reduction but the
  last has had all its effects executed in order;
* `JournaledQueue.replay_simulates` — the store is the fold of the specification over the log;
* `JournaledQueue.Run.remembers`, `JournaledQueue.admit_of_remembered` — no id is admitted twice
  among `cap` admissions;
* `JournaledQueue.drains` — without a further crash everything queued is reduced;
* `JournaledQueue.tick_moves` — what one write of the drain does to what is still to do.
-/

import Texturion.ReactiveRun
import Mathlib.Data.List.DropRight
import Mathlib.Data.List.Range

namespace JournaledQueue

variable {σ ε φ χ α κ π τ : Type*}

/-! ### The object -/

/-- What the object does: `reduce` with an event, `exec` with an effect, `poke` outside the drain;
`arm` and `disarm` bracket the drain, and `restart` is what a crash leaves of the store. -/
structure System (σ ε φ χ α π : Type*) where
  cap : ℕ
  reduce : σ → ε → χ → σ × List φ
  exec : σ → φ → α → σ × List ε
  poke : σ → π → σ
  arm : σ → χ → σ
  disarm : σ → σ
  restart : σ → σ

/-- The event being worked on: its effects once it is reduced, and how many of them are done. -/
structure Head (ε φ : Type*) where
  event : ε
  effects : Option (List φ)
  cursor : ℕ

/-- The event being worked on and the queue behind it. -/
structure Journal (ε φ : Type*) where
  head : Option (Head ε φ)
  rest : List ε

/-- What is durable. -/
structure Disk (σ ε φ κ : Type*) where
  store : σ
  journal : Option (Journal ε φ)
  seen : List κ

/-- Where the drain is between two writes. -/
inductive Pc (ε φ : Type*)
  | idle
  | arm
  | loop
  | running (cursor : ℕ) (effect : φ)
  | commit (cursor : ℕ) (followUps : List ε)
  | disarm

structure State (σ ε φ κ : Type*) where
  disk : Disk σ ε φ κ
  pc : Pc ε φ

/-- What may happen next: an arrival, a direct write, the resumption of an unfinished journal, the
next write of the drain, or a crash. -/
inductive Action (ε χ α κ π : Type*)
  | admitEvent (id : Option κ) (event : ε)
  | poke (write : π)
  | resume
  | tick (choice : χ) (answer : α)
  | crash

/-! ### The log -/

/-- How the execution of one effect goes: it starts, it ends with the events it returns, and these
are queued. -/
inductive Exec (ε φ : Type*)
  | started (cursor : ℕ) (effect : φ)
  | finished (cursor : ℕ) (effect : φ) (followUps : List ε)
  | followed (cursor : ℕ) (followUps : List ε)

inductive Entry (ε φ χ κ π : Type*)
  | admitted (id : Option κ) (event : ε)
  | poked (write : π)
  | reduced (event : ε) (choice : χ) (effects : List φ)
  | executed (exec : Exec ε φ)

def Entry.queued : Entry ε φ χ κ π → List ε
  | .admitted _ event => [event]
  | .executed (.followed _ followUps) => followUps
  | _ => []

/-- Everything queued along a log, in order. -/
def queued (log : List (Entry ε φ χ κ π)) : List ε := log.flatMap Entry.queued

/-- One reduction: its event, the effects it asked for and their execution so far. -/
structure Reduction (ε φ : Type*) where
  event : ε
  effects : List φ
  execs : List (Exec ε φ)

/-- The reductions of a log, the last one first. -/
def record : List (Reduction ε φ) → Entry ε φ χ κ π → List (Reduction ε φ)
  | rs, .reduced event _ effects => ⟨event, effects, []⟩ :: rs
  | r :: rs, .executed exec => { r with execs := r.execs ++ [exec] } :: rs
  | rs, _ => rs

def recorded (log : List (Entry ε φ χ κ π)) : List (Reduction ε φ) := log.foldl record []

def admittedIds (log : List (Entry ε φ χ κ π)) : List κ :=
  log.flatMap fun
    | .admitted (some id) _ => [id]
    | _ => []

/-- What changes the specification: a reduced event with what its reduction was given, or a
direct write. -/
def history (log : List (Entry ε φ χ κ π)) : List ((ε × χ) ⊕ π) :=
  log.flatMap fun
    | .reduced event choice _ => [.inl (event, choice)]
    | .poked write => [.inr write]
    | _ => []

/-- The event of a reduction that the history records. -/
def reducedEvent : (ε × χ) ⊕ π → Option ε
  | .inl (event, _) => some event
  | .inr _ => none

/-! ### The steps -/

def Journal.fresh (event : ε) : Journal ε φ where
  head := some ⟨event, none, 0⟩
  rest := []

def Journal.reduced (j : Journal ε φ) (h : Head ε φ) (effects : List φ) : Journal ε φ :=
  { j with head := some { h with effects := some effects, cursor := 0 } }

/-- One effect of the head is done, and what it returned is queued. -/
def Journal.commit (j : Journal ε φ) (followUps : List ε) : Journal ε φ where
  head := j.head.map fun h => { h with cursor := h.cursor + 1 }
  rest := j.rest ++ followUps

/-- The next event of the queue becomes the head. -/
def Journal.shift (j : Journal ε φ) : Journal ε φ where
  head := j.rest.head?.map fun event => ⟨event, none, 0⟩
  rest := j.rest.tail

/-- There is a head to work on. -/
def Disk.unfinished (d : Disk σ ε φ κ) : Bool := d.journal.any fun j => j.head.isSome

def Journal.pending (j : Journal ε φ) : List ε :=
  match j.head with
  | some ⟨event, none, _⟩ => event :: j.rest
  | _ => j.rest

def Disk.pending (d : Disk σ ε φ κ) : List ε :=
  match d.journal with
  | some j => j.pending
  | none => []

def Pc.isIdle : Pc ε φ → Bool
  | .idle => true
  | _ => false

theorem Pc.eq_idle {pc : Pc ε φ} (h : pc.isIdle = true) : pc = .idle := by
  cases pc with
  | idle => rfl
  | _ => cases h

/-- An arrival is looked at: nothing is being drained or left to drain. -/
def State.ready (s : State σ ε φ κ) : Bool := s.pc.isIdle && !s.disk.unfinished

def Disk.accept (d : Disk σ ε φ κ) (cap : ℕ) (id : Option κ) (event : ε) : Disk σ ε φ κ where
  store := d.store
  journal := some (.fresh event)
  seen := match id with
    | some id => (d.seen ++ [id]).rtake cap
    | none => d.seen

/-- One turn of the drain loop, by what the journal holds. -/
def turn (sys : System σ ε φ χ α π) (d : Disk σ ε φ κ) (choice : χ) :
    State σ ε φ κ × List (Entry ε φ χ κ π) :=
  match d.journal with
  | none => (⟨d, .idle⟩, [])
  | some j =>
    match j.head with
    | none => (⟨{ d with journal := none }, .disarm⟩, [])
    | some h =>
      match h.effects with
      | none =>
        let r := sys.reduce d.store h.event choice
        (⟨{ d with store := r.1, journal := some (j.reduced h r.2) }, .loop⟩,
          [.reduced h.event choice r.2])
      | some effects =>
        match effects[h.cursor]? with
        | some effect => (⟨d, .running h.cursor effect⟩, [.executed (.started h.cursor effect)])
        | none => (⟨{ d with journal := some j.shift }, .loop⟩, [])

/-- The next write of the drain. -/
def tick (sys : System σ ε φ χ α π) (s : State σ ε φ κ) (choice : χ) (answer : α) :
    State σ ε φ κ × List (Entry ε φ χ κ π) :=
  match s.pc with
  | .idle => (s, [])
  | .arm => (⟨{ s.disk with store := sys.arm s.disk.store choice }, .loop⟩, [])
  | .loop => turn sys s.disk choice
  | .running cursor effect =>
    let r := sys.exec s.disk.store effect answer
    (⟨{ s.disk with store := r.1 }, .commit cursor r.2⟩,
      [.executed (.finished cursor effect r.2)])
  | .commit cursor followUps =>
    (⟨{ s.disk with journal := s.disk.journal.map fun j => j.commit followUps }, .loop⟩,
      [.executed (.followed cursor followUps)])
  | .disarm => (⟨{ s.disk with store := sys.disarm s.disk.store }, .idle⟩, [])

/-- One step of the object. -/
def step [DecidableEq κ] (sys : System σ ε φ χ α π) (s : State σ ε φ κ) :
    Action ε χ α κ π → State σ ε φ κ × List (Entry ε φ χ κ π)
  | .admitEvent id event =>
    if s.ready && id.all (fun id => id ∉ s.disk.seen) then
      (⟨s.disk.accept sys.cap id event, .arm⟩, [.admitted id event])
    else (s, [])
  | .poke write =>
    if s.pc.isIdle then
      (⟨{ s.disk with store := sys.poke s.disk.store write }, .idle⟩, [.poked write])
    else (s, [])
  | .resume => if s.pc.isIdle && s.disk.unfinished then (⟨s.disk, .loop⟩, []) else (s, [])
  | .tick choice answer => tick sys s choice answer
  | .crash => (⟨{ s.disk with store := sys.restart s.disk.store }, .idle⟩, [])

/-- The object that has never admitted an event. -/
def State.init (store : σ) : State σ ε φ κ where
  disk := ⟨store, none, []⟩
  pc := .idle

/-! ### How the effects of a reduction are executed -/

/-- The executions of a list of effects after which the first `n` of them are done: the next one
may start, and start again after a crash; one that has started may finish; and once one has
finished, the events it returned are queued and it is done. -/
inductive WellRun (effects : List φ) : List (Exec ε φ) → ℕ → Prop
  | nil : WellRun effects [] 0
  | start {execs : List (Exec ε φ)} {n : ℕ} {effect : φ} (h : WellRun effects execs n)
      (heffect : effects[n]? = some effect) :
      WellRun effects (execs ++ [.started n effect]) n
  | finish {execs : List (Exec ε φ)} {n : ℕ} {effect : φ} {followUps : List ε}
      (h : WellRun effects execs n) (hstart : .started n effect ∈ execs) :
      WellRun effects (execs ++ [.finished n effect followUps]) n
  | follow {execs : List (Exec ε φ)} {n : ℕ} {effect : φ} {followUps : List ε}
      (h : WellRun effects execs n) (hfinish : .finished n effect followUps ∈ execs) :
      WellRun effects (execs ++ [.followed n followUps]) (n + 1)

def Exec.start? : Exec ε φ → Option ℕ
  | .started cursor _ => some cursor
  | _ => none

/-- The effect whose events are queued, if they are. -/
def Exec.follow? : Exec ε φ → Option ℕ
  | .followed cursor _ => some cursor
  | _ => none

/-- Which effects have been started, in order, as often as they were. -/
def starts (execs : List (Exec ε φ)) : List ℕ := execs.filterMap Exec.start?

/-- Which effects have had the events they returned queued, in order. -/
def follows (execs : List (Exec ε φ)) : List ℕ := execs.filterMap Exec.follow?

variable {effect : φ}

namespace WellRun

variable {effects : List φ} {execs : List (Exec ε φ)} {n : ℕ} {j : ℕ}

section

variable (h : WellRun effects execs n)
include h

theorem effect_of_started
    (hmem : .started j effect ∈ execs) : effects[j]? = some effect ∧ j ≤ n := by
  induction h with
  | nil => cases hmem
  | start h heffect ih =>
    rcases List.mem_append.1 hmem with hmem | hmem
    · exact ih hmem
    · cases List.mem_singleton.1 hmem
      exact ⟨heffect, le_rfl⟩
  | finish h _ ih =>
    rcases List.mem_append.1 hmem with hmem | hmem
    · exact ih hmem
    · cases List.mem_singleton.1 hmem
  | follow h _ ih =>
    rcases List.mem_append.1 hmem with hmem | hmem
    · exact ⟨(ih hmem).1, Nat.le_succ_of_le (ih hmem).2⟩
    · cases List.mem_singleton.1 hmem

theorem started_of_finished {followUps : List ε}
    (hmem : .finished j effect followUps ∈ execs) : .started j effect ∈ execs := by
  induction h with
  | nil => cases hmem
  | start h _ ih =>
    rcases List.mem_append.1 hmem with hmem | hmem
    · exact List.mem_append_left _ (ih hmem)
    · cases List.mem_singleton.1 hmem
  | finish h hstart ih =>
    rcases List.mem_append.1 hmem with hmem | hmem
    · exact List.mem_append_left _ (ih hmem)
    · cases List.mem_singleton.1 hmem
      exact List.mem_append_left _ hstart
  | follow h _ ih =>
    rcases List.mem_append.1 hmem with hmem | hmem
    · exact List.mem_append_left _ (ih hmem)
    · cases List.mem_singleton.1 hmem

theorem finished_of_followed {followUps : List ε}
    (hmem : .followed j followUps ∈ execs) : ∃ effect, .finished j effect followUps ∈ execs := by
  induction h with
  | nil => cases hmem
  | start _ _ ih | finish _ _ ih =>
    rcases List.mem_append.1 hmem with hmem | hmem
    · obtain ⟨effect, hfinish⟩ := ih hmem
      exact ⟨effect, List.mem_append_left _ hfinish⟩
    · cases List.mem_singleton.1 hmem
  | follow _ hfinish ih =>
    rcases List.mem_append.1 hmem with hmem | hmem
    · obtain ⟨effect, hfinish⟩ := ih hmem
      exact ⟨effect, List.mem_append_left _ hfinish⟩
    · cases List.mem_singleton.1 hmem
      exact ⟨_, List.mem_append_left _ hfinish⟩

/-- **At least once**: an effect that is done has been started and has finished. -/
theorem executed (hj : j < n) :
    ∃ effect followUps, effects[j]? = some effect ∧ .started j effect ∈ execs ∧
      .finished j effect followUps ∈ execs := by
  induction h with
  | nil => omega
  | start h _ ih | finish h _ ih =>
    obtain ⟨effect, followUps, heffect, hstart, hfinish⟩ := ih hj
    exact ⟨effect, followUps, heffect, List.mem_append_left _ hstart,
      List.mem_append_left _ hfinish⟩
  | @follow execs n effect followUps h hfinish ih =>
    rcases Nat.lt_succ_iff_lt_or_eq.1 hj with hj | rfl
    · obtain ⟨effect, followUps, heffect, hstart, hfinish⟩ := ih hj
      exact ⟨effect, followUps, heffect, List.mem_append_left _ hstart,
        List.mem_append_left _ hfinish⟩
    · have hstart := h.started_of_finished hfinish
      exact ⟨effect, followUps, (h.effect_of_started hstart).1,
        List.mem_append_left _ hstart, List.mem_append_left _ hfinish⟩

theorem le_of_mem_starts (hj : j ∈ starts execs) : j ≤ n := by
  obtain ⟨x, hx, hj⟩ := List.mem_filterMap.1 hj
  cases x with
  | started cursor effect =>
    cases hj
    exact (h.effect_of_started hx).2
  | finished | followed => cases hj

/-- **In order**: effects start in the order of the list, a restarted one again before the next. -/
theorem starts_sorted : (starts execs).Pairwise (· ≤ ·) := by
  induction h with
  | nil => exact List.Pairwise.nil
  | @start execs n effect h _ ih =>
    have hsnoc : starts (execs ++ [.started n effect]) = starts execs ++ [n] :=
      List.filterMap_append
    rw [hsnoc, List.pairwise_append]
    refine ⟨ih, List.pairwise_singleton .., fun j hj k hk => ?_⟩
    rw [List.mem_singleton.1 hk]
    exact h.le_of_mem_starts hj
  | @finish execs n effect followUps _ _ ih =>
    have hsame : starts (execs ++ [.finished n effect followUps]) = starts execs := by
      simp [starts, Exec.start?]
    rwa [hsame]
  | @follow execs n effect followUps _ _ ih =>
    have hsame : starts (execs ++ [.followed n followUps]) = starts execs := by
      simp [starts, Exec.start?]
    rwa [hsame]

/-- **Exactly once**: the events an effect returned are queued once, in the order of the effects. -/
theorem follows_eq : follows execs = List.range n := by
  induction h with
  | nil => rfl
  | @start execs n effect _ _ ih =>
    have hsame : follows (execs ++ [.started n effect]) = follows execs := by
      simp [follows, Exec.follow?]
    rwa [hsame]
  | @finish execs n effect followUps _ _ ih =>
    have hsame : follows (execs ++ [.finished n effect followUps]) = follows execs := by
      simp [follows, Exec.follow?]
    rwa [hsame]
  | follow _ _ ih =>
    rw [List.range_succ, ← ih]
    exact List.filterMap_append

end

end WellRun

/-! ### The journal and the log -/

def Reduction.Complete (r : Reduction ε φ) : Prop := WellRun r.effects r.execs r.effects.length

/-- What the journal and the point the drain has reached say of the reductions so far, the last
one first. -/
inductive Phase : State σ ε φ κ → List (Reduction ε φ) → Prop
  | empty {store : σ} {seen : List κ} {pc : Pc ε φ} {rs : List (Reduction ε φ)}
      (hpc : pc = .idle ∨ pc = .arm ∨ pc = .loop ∨ pc = .disarm) (hrs : ∀ r ∈ rs, r.Complete) :
      Phase ⟨⟨store, none, seen⟩, pc⟩ rs
  | drained {store : σ} {seen : List κ} {pc : Pc ε φ} {rs : List (Reduction ε φ)}
      (hpc : pc = .idle ∨ pc = .arm ∨ pc = .loop) (hrs : ∀ r ∈ rs, r.Complete) :
      Phase ⟨⟨store, some ⟨none, []⟩, seen⟩, pc⟩ rs
  | unreduced {store : σ} {seen : List κ} {pc : Pc ε φ} {rs : List (Reduction ε φ)} {event : ε}
      {rest : List ε} (hpc : pc = .idle ∨ pc = .arm ∨ pc = .loop) (hrs : ∀ r ∈ rs, r.Complete) :
      Phase ⟨⟨store, some ⟨some ⟨event, none, 0⟩, rest⟩, seen⟩, pc⟩ rs
  | working {store : σ} {seen : List κ} {pc : Pc ε φ} {rs : List (Reduction ε φ)} {event : ε}
      {rest : List ε} {effects : List φ} {execs : List (Exec ε φ)} {cursor : ℕ}
      (hpc : pc = .idle ∨ pc = .loop) (hrs : ∀ r ∈ rs, r.Complete)
      (hcursor : cursor ≤ effects.length) (hrun : WellRun effects execs cursor) :
      Phase ⟨⟨store, some ⟨some ⟨event, some effects, cursor⟩, rest⟩, seen⟩, pc⟩
        (⟨event, effects, execs⟩ :: rs)
  | running {store : σ} {seen : List κ} {rs : List (Reduction ε φ)} {event : ε}
      {rest : List ε} {effects : List φ} {execs : List (Exec ε φ)} {cursor : ℕ} {effect : φ}
      (hrs : ∀ r ∈ rs, r.Complete) (hrun : WellRun effects execs cursor)
      (heffect : effects[cursor]? = some effect) (hstart : .started cursor effect ∈ execs) :
      Phase ⟨⟨store, some ⟨some ⟨event, some effects, cursor⟩, rest⟩, seen⟩,
          .running cursor effect⟩ (⟨event, effects, execs⟩ :: rs)
  | committing {store : σ} {seen : List κ} {rs : List (Reduction ε φ)} {event : ε}
      {rest followUps : List ε} {effects : List φ} {execs : List (Exec ε φ)} {cursor : ℕ}
      {effect : φ} (hrs : ∀ r ∈ rs, r.Complete) (hrun : WellRun effects execs cursor)
      (heffect : effects[cursor]? = some effect)
      (hfinish : .finished cursor effect followUps ∈ execs) :
      Phase ⟨⟨store, some ⟨some ⟨event, some effects, cursor⟩, rest⟩, seen⟩,
          .commit cursor followUps⟩ (⟨event, effects, execs⟩ :: rs)

/-- The journal agrees with the log: the phase is right, and what was queued is what was reduced
followed by what is pending. -/
structure Agrees (s : State σ ε φ κ) (log : List (Entry ε φ χ κ π)) : Prop where
  phase : Phase s (recorded log)
  queue : queued log = (recorded log).reverse.map Reduction.event ++ s.disk.pending

theorem recorded_snoc (log : List (Entry ε φ χ κ π)) (x : Entry ε φ χ κ π) :
    recorded (log ++ [x]) = record (recorded log) x :=
  List.foldl_append ..

theorem queued_snoc (log : List (Entry ε φ χ κ π)) (x : Entry ε φ χ κ π) :
    queued (log ++ [x]) = queued log ++ x.queued := by
  simp [queued]

theorem cursor_lt {effects : List φ} {cursor : ℕ}
    (h : effects[cursor]? = some effect) : cursor < effects.length :=
  (List.getElem?_eq_some_iff.1 h).1

variable {s : State σ ε φ κ}

theorem Phase.of_finished {rs : List (Reduction ε φ)} (h : Phase s rs)
    (hfin : s.disk.unfinished = false) : s.disk.pending = [] ∧ ∀ r ∈ rs, r.Complete := by
  cases h with
  | empty _ hrs | drained _ hrs => exact ⟨rfl, hrs⟩
  | unreduced | working | running | committing => cases hfin

theorem Phase.restore {rs : List (Reduction ε φ)} (h : Phase s rs)
    (store : σ) : Phase ⟨{ s.disk with store := store }, .idle⟩ rs := by
  cases h with
  | empty _ hrs => exact .empty (Or.inl rfl) hrs
  | drained _ hrs => exact .drained (Or.inl rfl) hrs
  | unreduced _ hrs => exact .unreduced (Or.inl rfl) hrs
  | working _ hrs hcursor hrun => exact .working (Or.inl rfl) hrs hcursor hrun
  | running hrs hrun heffect | committing hrs hrun heffect =>
    exact .working (Or.inl rfl) hrs (cursor_lt heffect).le hrun

/-- A step of the drain that writes nothing to the log and leaves the same events pending. -/
theorem Agrees.quiet {s t : State σ ε φ κ} {log : List (Entry ε φ χ κ π)} (h : Agrees s log)
    (hphase : Phase t (recorded log)) (hpending : t.disk.pending = s.disk.pending) :
    Agrees t (log ++ []) := by
  rw [List.append_nil]
  exact ⟨hphase, by rw [hpending]; exact h.queue⟩

section

variable (sys : System σ ε φ χ α π)

theorem Agrees.turn {log : List (Entry ε φ χ κ π)} (choice : χ) (h : Agrees s log)
    (hpc : s.pc = .loop) :
    Agrees (turn sys s.disk choice).1 (log ++ (turn sys s.disk choice).2) := by
  obtain ⟨hphase, hqueue⟩ := h
  have hquiet : ∀ t : State σ ε φ κ, Phase t (recorded log) →
      t.disk.pending = s.disk.pending → Agrees t (log ++ []) :=
    fun t => Agrees.quiet ⟨hphase, hqueue⟩
  generalize hrecorded : recorded log = rs at *
  cases hphase with
  | running | committing => cases hpc
  | empty _ hrs => exact hquiet _ (.empty (Or.inl rfl) hrs) rfl
  | drained _ hrs => exact hquiet _ (.empty (by simp) hrs) rfl
  | @unreduced store _ _ _ event _ _ hrs =>
    refine ⟨?_, ?_⟩
    · rw [JournaledQueue.turn, recorded_snoc, hrecorded]
      exact .working (Or.inr rfl) hrs (Nat.zero_le _) .nil
    · rw [JournaledQueue.turn, recorded_snoc, queued_snoc, hrecorded, hqueue]
      simp [record, Entry.queued, Disk.pending, Journal.pending, Journal.reduced]
  | @working store seen _ rs event rest effects execs cursor _ hrs hcursor hrun =>
    cases heffect : effects[cursor]? with
    | some effect =>
      have hturn : JournaledQueue.turn sys
          ⟨store, some ⟨some ⟨event, some effects, cursor⟩, rest⟩, seen⟩ choice =
          (⟨⟨store, some ⟨some ⟨event, some effects, cursor⟩, rest⟩, seen⟩,
            .running cursor effect⟩, [.executed (.started cursor effect)]) := by
        simp [JournaledQueue.turn, heffect]
      rw [hturn]
      refine ⟨?_, ?_⟩
      · rw [recorded_snoc, hrecorded]
        exact .running hrs (hrun.start heffect) heffect (by simp)
      · rw [recorded_snoc, queued_snoc, hrecorded, hqueue]
        simp [record, Entry.queued]
    | none =>
      have hturn : JournaledQueue.turn sys
          ⟨store, some ⟨some ⟨event, some effects, cursor⟩, rest⟩, seen⟩ choice =
          (⟨⟨store, some (Journal.shift ⟨some ⟨event, some effects, cursor⟩, rest⟩), seen⟩,
            .loop⟩, []) := by
        simp [JournaledQueue.turn, heffect]
      rw [hturn]
      -- the cursor has passed the last effect: this reduction is complete
      have hend : cursor = effects.length :=
        Nat.le_antisymm hcursor (List.getElem?_eq_none_iff.1 heffect)
      have hdone : ∀ r ∈ (⟨event, effects, execs⟩ : Reduction ε φ) :: rs, r.Complete := by
        intro r hr
        rcases List.mem_cons.1 hr with rfl | hr
        · rw [hend] at hrun
          exact hrun
        · exact hrs r hr
      cases rest with
      | nil => exact hquiet _ (.drained (by simp) hdone) rfl
      | cons next rest => exact hquiet _ (.unreduced (by simp) hdone) rfl

/-- **The drain** keeps the journal in agreement with the log. -/
theorem Agrees.tick {log : List (Entry ε φ χ κ π)} (choice : χ) (answer : α) (h : Agrees s log) :
    Agrees (tick sys s choice answer).1 (log ++ (tick sys s choice answer).2) := by
  obtain ⟨disk, pc⟩ := s
  cases pc with
  | idle => exact h.quiet h.phase rfl
  | loop => exact h.turn sys choice rfl
  | arm =>
    refine h.quiet ?_ rfl
    obtain ⟨hphase, -⟩ := h
    generalize recorded log = rs at hphase
    cases hphase with
    | empty _ hrs => exact .empty (by simp) hrs
    | drained _ hrs => exact .drained (by simp) hrs
    | unreduced _ hrs => exact .unreduced (by simp) hrs
    | working hpc => simp at hpc
  | disarm => exact h.quiet (h.phase.restore _) rfl
  | running cursor effect =>
    obtain ⟨hphase, hqueue⟩ := h
    generalize hrecorded : recorded log = rs at hphase hqueue
    cases hphase with
    | empty hpc | drained hpc | unreduced hpc | working hpc => simp at hpc
    | running hrs hrun heffect hstart =>
      refine ⟨?_, ?_⟩
      · rw [JournaledQueue.tick, recorded_snoc, hrecorded]
        exact .committing hrs (hrun.finish hstart) heffect (by simp)
      · rw [JournaledQueue.tick, recorded_snoc, queued_snoc, hrecorded, hqueue]
        simp [record, Entry.queued, Disk.pending, Journal.pending]
  | commit cursor followUps =>
    obtain ⟨hphase, hqueue⟩ := h
    generalize hrecorded : recorded log = rs at hphase hqueue
    cases hphase with
    | empty hpc | drained hpc | unreduced hpc | working hpc => simp at hpc
    | committing hrs hrun heffect hfinish =>
      refine ⟨?_, ?_⟩
      · rw [JournaledQueue.tick, recorded_snoc, hrecorded]
        exact .working (Or.inr rfl) hrs (cursor_lt heffect) (hrun.follow hfinish)
      · rw [JournaledQueue.tick, recorded_snoc, queued_snoc, hrecorded, hqueue]
        simp [record, Entry.queued, Disk.pending, Journal.pending, Journal.commit]

theorem Agrees.step [DecidableEq κ] {log : List (Entry ε φ χ κ π)} (a : Action ε χ α κ π)
    (h : Agrees s log) : Agrees (step sys s a).1 (log ++ (step sys s a).2) := by
  have hsame : Agrees s (log ++ []) := h.quiet h.phase rfl
  cases a with
  | tick choice answer => exact h.tick sys choice answer
  | crash => exact h.quiet (h.phase.restore _) rfl
  | resume =>
    rw [JournaledQueue.step]
    split_ifs with hready
    · refine h.quiet ?_ rfl
      obtain ⟨hphase, -⟩ := h
      generalize recorded log = rs at hphase
      cases hphase with
      | empty | drained => simp [Disk.unfinished] at hready
      | unreduced _ hrs => exact .unreduced (by simp) hrs
      | working _ hrs hcursor hrun => exact .working (by simp) hrs hcursor hrun
      | running | committing => cases hready
    · exact hsame
  | poke write =>
    rw [JournaledQueue.step]
    split_ifs
    · refine ⟨?_, ?_⟩
      · rw [recorded_snoc]
        exact h.phase.restore _
      · rw [recorded_snoc, queued_snoc]
        exact (List.append_nil _).trans h.queue
    · exact hsame
  | admitEvent id event =>
    rw [JournaledQueue.step]
    split_ifs with hready
    · have hfin : s.disk.unfinished = false := by
        simp only [State.ready, Bool.and_eq_true, Bool.not_eq_true'] at hready
        exact hready.1.2
      obtain ⟨hpending, hrs⟩ := h.phase.of_finished hfin
      refine ⟨?_, ?_⟩
      · rw [recorded_snoc]
        exact .unreduced (by simp) hrs
      · rw [recorded_snoc, queued_snoc, h.queue, hpending]
        simp [record, Entry.queued, Disk.pending, Disk.accept, Journal.fresh, Journal.pending]
    · exact hsame

end

theorem agrees_init (store : σ) :
    Agrees (State.init store : State σ ε φ κ) ([] : List (Entry ε φ χ κ π)) :=
  ⟨.empty (Or.inl rfl) (by simp [recorded]), rfl⟩

/-! ### The ring of ids -/

/-- Two admissions of one id have at least `cap` admissions between them. -/
def Spaced (cap : ℕ) (ids : List κ) : Prop :=
  ∀ pre id mid post, ids = pre ++ id :: (mid ++ id :: post) → cap ≤ mid.length

theorem spaced_nil (cap : ℕ) : Spaced cap ([] : List κ) := by
  intro pre id mid post h
  simp at h

/-- What is not among the last `cap` of a list may be put at its end. -/
theorem Spaced.snoc {cap : ℕ} {ids : List κ} {id : κ} (h : Spaced cap ids)
    (hid : id ∉ ids.rtake cap) : Spaced cap (ids ++ [id]) := by
  intro pre x mid post heq
  rcases List.eq_nil_or_concat post with rfl | ⟨post', y, rfl⟩
  · -- the second occurrence is the new one: the first is out of the ring
    have hsplit : ids ++ [id] = (pre ++ x :: mid) ++ [x] := by simpa using heq
    obtain ⟨rfl, hx⟩ := List.append_inj' hsplit rfl
    obtain rfl : id = x := by simpa using hx
    by_contra hshort
    refine hid ?_
    rw [List.rtake, List.drop_append]
    have hdrop : (pre ++ id :: mid).length - cap ≤ pre.length := by
      simp only [List.length_append, List.length_cons]
      omega
    have hzero : (pre ++ id :: mid).length - cap - pre.length = 0 := by omega
    rw [hzero]
    simp
  · have hsplit : ids ++ [id] = (pre ++ x :: (mid ++ x :: post')) ++ [y] := by simpa using heq
    obtain ⟨rfl, -⟩ := List.append_inj' hsplit rfl
    exact h pre x mid post' rfl

theorem rtake_rtake_snoc (cap : ℕ) (ids : List κ) (id : κ) :
    (ids.rtake cap ++ [id]).rtake cap = (ids ++ [id]).rtake cap := by
  simp only [List.rtake, List.length_append, List.length_drop, List.length_singleton]
  rw [List.drop_append, List.drop_append, List.drop_drop, List.length_drop]
  congr 2 <;> omega

/-- The ring holds the last `cap` admitted ids, and no id among them was admitted again. -/
structure Remembers (cap : ℕ) (s : State σ ε φ κ) (log : List (Entry ε φ χ κ π)) : Prop where
  seen : s.disk.seen = (admittedIds log).rtake cap
  spaced : Spaced cap (admittedIds log)

theorem admittedIds_append (log out : List (Entry ε φ χ κ π)) :
    admittedIds (log ++ out) = admittedIds log ++ admittedIds out :=
  List.flatMap_append

theorem Remembers.quiet {cap : ℕ} {s t : State σ ε φ κ} {log out : List (Entry ε φ χ κ π)}
    (h : Remembers cap s log) (hseen : t.disk.seen = s.disk.seen) (hout : admittedIds out = []) :
    Remembers cap t (log ++ out) := by
  have hids : admittedIds (log ++ out) = admittedIds log := by
    rw [admittedIds_append, hout, List.append_nil]
  exact ⟨by rw [hseen, hids]; exact h.seen, by rw [hids]; exact h.spaced⟩

theorem tick_seen (sys : System σ ε φ χ α π) (s : State σ ε φ κ) (choice : χ) (answer : α) :
    (tick sys s choice answer).1.disk.seen = s.disk.seen ∧
      admittedIds (tick sys s choice answer).2 = [] := by
  unfold tick
  cases s.pc with
  | loop =>
    simp only [turn]
    repeat' split
    all_goals exact ⟨rfl, rfl⟩
  | _ => exact ⟨rfl, rfl⟩

theorem Remembers.step [DecidableEq κ] {log : List (Entry ε φ χ κ π)} (sys : System σ ε φ χ α π)
    (a : Action ε χ α κ π) (h : Remembers sys.cap s log) :
    Remembers sys.cap (step sys s a).1 (log ++ (step sys s a).2) := by
  cases a with
  | tick choice answer =>
    obtain ⟨hseen, hout⟩ := tick_seen sys s choice answer
    exact h.quiet hseen hout
  | crash => exact h.quiet rfl rfl
  | resume | poke =>
    rw [JournaledQueue.step]
    split_ifs <;> exact h.quiet rfl rfl
  | admitEvent id event =>
    rw [JournaledQueue.step]
    split_ifs with hready
    · cases id with
      | none => exact h.quiet rfl rfl
      | some id =>
        have hfresh : id ∉ s.disk.seen := by simpa using (Bool.and_eq_true_iff.1 hready).2
        have hids : admittedIds (log ++ [Entry.admitted (some id) event]) =
            admittedIds log ++ [id] := admittedIds_append ..
        refine ⟨?_, ?_⟩
        · rw [hids, ← rtake_rtake_snoc, ← h.seen]
          rfl
        · rw [hids]
          exact h.spaced.snoc (by rw [← h.seen]; exact hfresh)
    · exact h.quiet rfl rfl

theorem remembers_init (cap : ℕ) (store : σ) :
    Remembers cap (State.init store : State σ ε φ κ) ([] : List (Entry ε φ χ κ π)) :=
  ⟨by simp [State.init, admittedIds, List.rtake], spaced_nil cap⟩

/-! ### The specification -/

/-- The specification replays a log: it takes a reduced event and yields its effects, or takes a
direct write. -/
def replay (step : τ → ε → χ → τ × List φ) (poke : τ → π → τ) (t : τ) :
    (ε × χ) ⊕ π → τ × List (List φ)
  | .inl (event, choice) => ((step t event choice).1, [(step t event choice).2])
  | .inr write => (poke t write, [])

/-- Every operation of the object respects the specification `step`, `poke` under the relation `R`
between its store and the specification's state. -/
structure Simulates (sys : System σ ε φ χ α π) (R : σ → τ → Prop)
    (step : τ → ε → χ → τ × List φ) (poke : τ → π → τ) : Prop where
  reduce : ∀ {s t} event choice, R s t → R (sys.reduce s event choice).1 (step t event choice).1 ∧
    (sys.reduce s event choice).2 = (step t event choice).2
  exec : ∀ {s t} effect answer, R s t → R (sys.exec s effect answer).1 t
  poke : ∀ {s t} write, R s t → R (sys.poke s write) (poke t write)
  arm : ∀ {s t} choice, R s t → R (sys.arm s choice) t
  disarm : ∀ {s t}, R s t → R (sys.disarm s) t
  restart : ∀ {s t}, R s t → R (sys.restart s) t

/-- The store is the replay of the log, and so are the events and effects of its reductions. -/
structure Replays (R : σ → τ → Prop) (step : τ → ε → χ → τ × List φ) (poke : τ → π → τ) (t₀ : τ)
    (s : State σ ε φ κ) (log : List (Entry ε φ χ κ π)) : Prop where
  store : R s.disk.store (Reactive.final (replay step poke) t₀ (history log))
  effects : (recorded log).reverse.map Reduction.effects =
    Reactive.outputs (replay step poke) t₀ (history log)
  events : (recorded log).reverse.map Reduction.event = (history log).filterMap reducedEvent

theorem history_append (log out : List (Entry ε φ χ κ π)) :
    history (log ++ out) = history log ++ history out :=
  List.flatMap_append

section Specification

variable {R : σ → τ → Prop} {spec : τ → ε → χ → τ × List φ} {write : τ → π → τ} {t₀ : τ}
  {s : State σ ε φ κ} {log : List (Entry ε φ χ κ π)}

theorem Replays.quiet {t : State σ ε φ κ} (h : Replays R spec write t₀ s log)
    (hstore : R t.disk.store (Reactive.final (replay spec write) t₀ (history log))) :
    Replays R spec write t₀ t (log ++ []) := by
  rw [List.append_nil]
  exact ⟨hstore, h.effects, h.events⟩

theorem Replays.executed {t : State σ ε φ κ} (h : Replays R spec write t₀ s log) (x : Exec ε φ)
    (hstore : R t.disk.store (Reactive.final (replay spec write) t₀ (history log))) :
    Replays R spec write t₀ t (log ++ [.executed x]) := by
  have hhistory : history (log ++ [Entry.executed x]) = history log := by
    rw [history_append]
    exact List.append_nil _
  refine ⟨by rw [hhistory]; exact hstore, ?_, ?_⟩
  · rw [hhistory, ← h.effects, recorded_snoc]
    cases recorded log <;> simp [record]
  · rw [hhistory, ← h.events, recorded_snoc]
    cases recorded log <;> simp [record]

theorem Replays.tick {sys : System σ ε φ χ α π} (hsim : Simulates sys R spec write)
    (h : Replays R spec write t₀ s log) (choice : χ) (answer : α) :
    Replays R spec write t₀ (tick sys s choice answer).1
      (log ++ (tick sys s choice answer).2) := by
  unfold JournaledQueue.tick
  cases s.pc with
  | idle => exact h.quiet h.store
  | arm => exact h.quiet (hsim.arm choice h.store)
  | disarm => exact h.quiet (hsim.disarm h.store)
  | running cursor effect => exact h.executed _ (hsim.exec effect answer h.store)
  | commit => exact h.executed _ h.store
  | loop =>
    simp only [turn]
    split
    · exact h.quiet h.store
    · split
      · exact h.quiet h.store
      · rename_i j _ head _
        split
        · obtain ⟨hstore, heffects⟩ := hsim.reduce head.event choice h.store
          refine ⟨?_, ?_, ?_⟩
          · rw [history_append, Reactive.final_append]
            exact hstore
          · rw [history_append, Reactive.outputs_append, ← h.effects, recorded_snoc]
            simp [record, history, replay, heffects]
          · rw [history_append, List.filterMap_append, ← h.events, recorded_snoc]
            simp [record, history, reducedEvent]
        · split
          · exact h.executed _ h.store
          · exact h.quiet h.store

theorem Replays.step [DecidableEq κ] {sys : System σ ε φ χ α π}
    (hsim : Simulates sys R spec write) (h : Replays R spec write t₀ s log) (a : Action ε χ α κ π) :
    Replays R spec write t₀ (step sys s a).1 (log ++ (step sys s a).2) := by
  have hsame : Replays R spec write t₀ s (log ++ []) := h.quiet h.store
  cases a with
  | tick choice answer => exact h.tick hsim choice answer
  | crash => exact h.quiet (hsim.restart h.store)
  | resume =>
    rw [JournaledQueue.step]
    split_ifs
    · exact h.quiet h.store
    · exact hsame
  | poke w =>
    rw [JournaledQueue.step]
    split_ifs
    · refine ⟨?_, ?_, ?_⟩
      · rw [history_append, Reactive.final_append]
        exact hsim.poke w h.store
      · rw [history_append, Reactive.outputs_append, ← h.effects, recorded_snoc]
        simp [record, history, replay]
      · rw [history_append, List.filterMap_append, ← h.events, recorded_snoc]
        simp [record, history, reducedEvent]
    · exact hsame
  | admitEvent id event =>
    rw [JournaledQueue.step]
    split_ifs
    · refine ⟨?_, ?_, ?_⟩
      · rw [history_append, Reactive.final_append]
        cases id <;> exact h.store
      · rw [history_append, Reactive.outputs_append, ← h.effects, recorded_snoc]
        cases id <;> simp [record, history]
      · rw [history_append, List.filterMap_append, ← h.events, recorded_snoc]
        cases id <;> simp [record, history]
    · exact hsame

end Specification

/-! ### Progress -/

/-- The writes until the next reduction, when something is pending. -/
def Disk.work (d : Disk σ ε φ κ) : ℕ :=
  match d.journal with
  | some ⟨some ⟨_, some effects, cursor⟩, _⟩ => 3 * (effects.length - cursor) + 2
  | some ⟨some ⟨_, none, _⟩, _⟩ => 1
  | _ => 0

def State.work (s : State σ ε φ κ) : ℕ :=
  match s.pc with
  | .arm => s.disk.work + 1
  | .running .. => s.disk.work - 1
  | .commit .. => s.disk.work - 2
  | _ => s.disk.work

/-- What one write of a drain does while something is pending: it reduces an event, or it gets
closer to the next reduction. -/
theorem tick_progress {log : List (Entry ε φ χ κ π)} (sys : System σ ε φ χ α π) (choice : χ)
    (answer : α) (h : Agrees s log) (hbusy : s.pc.isIdle = false) (hpending : s.disk.pending ≠ []) :
    (tick sys s choice answer).1.pc.isIdle = false ∧
      ((recorded (log ++ (tick sys s choice answer).2)).length = (recorded log).length + 1 ∨
        ((recorded (log ++ (tick sys s choice answer).2)).length = (recorded log).length ∧
          (tick sys s choice answer).1.work < s.work)) := by
  obtain ⟨hphase, -⟩ := h
  generalize hrecorded : recorded log = rs at hphase
  cases hphase with
  | empty | drained => exact absurd rfl hpending
  | unreduced hpc =>
    rcases hpc with rfl | rfl | rfl
    · cases hbusy
    · refine ⟨rfl, Or.inr ⟨?_, Nat.lt_succ_self _⟩⟩
      rw [tick, List.append_nil, hrecorded]
    · refine ⟨rfl, Or.inl ?_⟩
      rw [tick, turn, recorded_snoc, hrecorded]
      rfl
  | running hrs hrun heffect hstart =>
    have hlt := cursor_lt heffect
    refine ⟨rfl, Or.inr ⟨?_, ?_⟩⟩
    · rw [tick, recorded_snoc, hrecorded]
      rfl
    · simp only [tick, State.work, Disk.work]
      omega
  | committing hrs hrun heffect hfinish =>
    have hlt := cursor_lt heffect
    refine ⟨rfl, Or.inr ⟨?_, ?_⟩⟩
    · rw [tick, recorded_snoc, hrecorded]
      rfl
    · simp only [tick, State.work, Disk.work, Journal.commit, Option.map_some]
      omega
  | @working store seen _ rs event rest effects execs cursor hpc _ hcursor =>
    rcases hpc with rfl | rfl
    · cases hbusy
    · cases heffect : effects[cursor]? with
      | some effect =>
        have hlt := cursor_lt heffect
        simp only [tick, turn, heffect]
        refine ⟨rfl, Or.inr ⟨?_, ?_⟩⟩
        · rw [recorded_snoc, hrecorded]
          rfl
        · simp only [State.work, Disk.work]
          omega
      | none =>
        simp only [tick, turn, heffect]
        refine ⟨rfl, Or.inr ⟨by rw [List.append_nil, hrecorded], ?_⟩⟩
        cases rest with
        | nil => exact absurd rfl hpending
        | cons next rest =>
          simp only [State.work, Disk.work, Journal.shift, List.head?_cons, Option.map_some]
          omega

/-- A drain without a crash, whatever is chosen and answered at each write. -/
def drainActions : (ℕ → χ × α) → ℕ → List (Action ε χ α κ π)
  | _, 0 => []
  | stream, n + 1 => .tick (stream 0).1 (stream 0).2 :: drainActions (fun i => stream (i + 1)) n

/-- A drain reduces the first `target` queued events. -/
theorem Agrees.drains [DecidableEq κ] {s : State σ ε φ κ} {log : List (Entry ε φ χ κ π)}
    (sys : System σ ε φ χ α π) (target : ℕ) (h : Agrees s log) (hbusy : s.pc.isIdle = false)
    (htarget : target ≤ (queued log).length) (stream : ℕ → χ × α) :
    ∃ n, target ≤
      (recorded (log ++ Reactive.outputs (JournaledQueue.step sys) s
        (drainActions stream n))).length := by
  by_cases hdone : target ≤ (recorded log).length
  · exact ⟨0, by rw [drainActions, Reactive.outputs_nil, List.append_nil]; exact hdone⟩
  · have hpending : s.disk.pending ≠ [] := by
      intro hnil
      have hlength := congrArg List.length h.queue
      simp only [hnil, List.append_nil, List.length_map, List.length_reverse] at hlength
      omega
    obtain ⟨hbusy', hprogress⟩ :=
      tick_progress sys (stream 0).1 (stream 0).2 h hbusy hpending
    have htarget' : target ≤
        (queued (log ++ (JournaledQueue.tick sys s (stream 0).1 (stream 0).2).2)).length := by
      rw [queued, List.flatMap_append, List.length_append]
      exact Nat.le_add_right_of_le htarget
    obtain ⟨n, hn⟩ := Agrees.drains sys target (h.tick sys (stream 0).1 (stream 0).2) hbusy'
      htarget' fun i => stream (i + 1)
    refine ⟨n + 1, ?_⟩
    rwa [drainActions, Reactive.outputs_cons, ← List.append_assoc]
termination_by (target - (recorded log).length, s.work)
decreasing_by
  rcases hprogress with hmore | ⟨hsame, hless⟩
  · exact Prod.Lex.left _ _ (by omega)
  · rw [hsame]
    exact Prod.Lex.right _ hless

/-! ### What the drain has still to do -/

/-- The effects that the head was reduced to. -/
def Disk.asked (d : Disk σ ε φ κ) : List φ :=
  match d.journal with
  | some ⟨some ⟨_, some effects, _⟩, _⟩ => effects
  | _ => []

/-- The event that the drain reduces next. -/
def Disk.toReduce (d : Disk σ ε φ κ) : Option ε :=
  match d.journal with
  | some ⟨some ⟨event, none, _⟩, _⟩ => some event
  | _ => none

/-- The effects of the head that the drain has still to execute. -/
def State.toDo (s : State σ ε φ κ) : List φ :=
  match s.disk.journal with
  | some ⟨some ⟨_, some effects, cursor⟩, _⟩ =>
    match s.pc with
    | .commit _ _ => effects.drop (cursor + 1)
    | _ => effects.drop cursor
  | _ => []

/-- An effect that runs is the next one to do. -/
def State.Running (s : State σ ε φ κ) : Prop :=
  ∀ cursor effect, s.pc = .running cursor effect → s.toDo.head? = some effect

theorem mem_asked_of_mem_toDo (h : effect ∈ s.toDo) : effect ∈ s.disk.asked := by
  unfold State.toDo at h
  unfold Disk.asked
  split at h
  · split at h
    · exact List.mem_of_mem_drop h
    · exact List.mem_of_mem_drop h
  · cases h

theorem State.toDo_of_ready (h : s.ready = true) :
    s.toDo = [] ∧ s.disk.toReduce = none ∧ s.disk.asked = [] := by
  obtain ⟨⟨store, journal, seen⟩, pc⟩ := s
  have hfinished := (Bool.and_eq_true_iff.1 h).2
  cases journal with
  | none => exact ⟨rfl, rfl, rfl⟩
  | some j =>
    obtain ⟨head, rest⟩ := j
    cases head with
    | none => exact ⟨rfl, rfl, rfl⟩
    | some head => simp [Disk.unfinished] at hfinished

/-- A crash leaves everything still to do, and perhaps the effect before it once more. -/
theorem State.toDo_restart (s : State σ ε φ κ) (store : σ) (h : effect ∈ s.toDo) :
    effect ∈ State.toDo ⟨{ s.disk with store := store }, .idle⟩ := by
  obtain ⟨⟨_, journal, seen⟩, pc⟩ := s
  unfold State.toDo at h ⊢
  split at h
  · rename_i event effects cursor rest hjournal
    simp only at hjournal
    simp only [hjournal]
    split at h
    · rw [← List.drop_drop] at h
      exact List.mem_of_mem_drop h
    · exact h
  · cases h

/-- What one write of the drain does to the store and to what is still to do. -/
inductive Moves (sys : System σ ε φ χ α π) (s t : State σ ε φ κ) (choice : χ) (answer : α) : Prop
  | still (hstore : t.disk.store = s.disk.store ∨ t.disk.store = sys.arm s.disk.store choice ∨
      t.disk.store = sys.disarm s.disk.store) (hasked : t.disk.asked = s.disk.asked)
      (htoDo : t.toDo = s.toDo) (hreduce : t.disk.toReduce = s.disk.toReduce)
  | shift (hstore : t.disk.store = s.disk.store) (hbefore : s.toDo = [])
      (hnone : s.disk.toReduce = none) (hasked : t.disk.asked = []) (htoDo : t.toDo = [])
  | reduce (event : ε) (hevent : s.disk.toReduce = some event) (hbefore : s.toDo = [])
      (hstore : t.disk.store = (sys.reduce s.disk.store event choice).1)
      (hasked : t.disk.asked = (sys.reduce s.disk.store event choice).2)
      (htoDo : t.toDo = (sys.reduce s.disk.store event choice).2)
      (hreduce : t.disk.toReduce = none)
  | exec (effect : φ) (hbefore : s.toDo = effect :: t.toDo)
      (hstore : t.disk.store = (sys.exec s.disk.store effect answer).1)
      (hasked : t.disk.asked = s.disk.asked) (hreduce : t.disk.toReduce = s.disk.toReduce)

/-- **Every write of the drain** leaves what is to do, shifts the queue, reduces the head or
executes the next effect. -/
theorem tick_moves (sys : System σ ε φ χ α π) (h : s.Running) (choice : χ)
    (answer : α) : Moves sys s (tick sys s choice answer).1 choice answer ∧
      (tick sys s choice answer).1.Running := by
  obtain ⟨⟨store, journal, seen⟩, pc⟩ := s
  cases pc with
  | idle => exact ⟨.still (Or.inl rfl) rfl rfl rfl, h⟩
  | arm => exact ⟨.still (Or.inr (Or.inl rfl)) rfl rfl rfl, fun _ _ hpc => by cases hpc⟩
  | disarm => exact ⟨.still (Or.inr (Or.inr rfl)) rfl rfl rfl, fun _ _ hpc => by cases hpc⟩
  | running cursor effect =>
    refine ⟨?_, fun _ _ hpc => by cases hpc⟩
    have hhead := h cursor effect rfl
    cases journal with
    | none => cases hhead
    | some j =>
      obtain ⟨head, rest⟩ := j
      cases head with
      | none => cases hhead
      | some head =>
        obtain ⟨event, effects, k⟩ := head
        cases effects with
        | none => cases hhead
        | some effects =>
          have hk : effects[k]? = some effect := by
            rw [← List.head?_drop]
            exact hhead
          refine .exec effect ?_ rfl rfl rfl
          obtain ⟨hlt, hget⟩ := List.getElem?_eq_some_iff.1 hk
          simp only [State.toDo, tick]
          rw [List.drop_eq_getElem_cons hlt, hget]
  | commit cursor followUps =>
    refine ⟨?_, fun _ _ hpc => by cases hpc⟩
    cases journal with
    | none => exact .still (Or.inl rfl) rfl rfl rfl
    | some j =>
      obtain ⟨head, rest⟩ := j
      cases head with
      | none => exact .still (Or.inl rfl) rfl rfl rfl
      | some head =>
        obtain ⟨event, effects, k⟩ := head
        cases effects with
        | none => exact .still (Or.inl rfl) rfl rfl rfl
        | some effects => exact .still (Or.inl rfl) rfl rfl rfl
  | loop =>
    cases journal with
    | none => exact ⟨.still (Or.inl rfl) rfl rfl rfl, fun _ _ hpc => by cases hpc⟩
    | some j =>
      obtain ⟨head, rest⟩ := j
      cases head with
      | none => exact ⟨.still (Or.inl rfl) rfl rfl rfl, fun _ _ hpc => by cases hpc⟩
      | some head =>
        obtain ⟨event, effects, k⟩ := head
        cases effects with
        | none => exact ⟨.reduce event rfl rfl rfl rfl rfl rfl, fun _ _ hpc => by cases hpc⟩
        | some effects =>
          cases hk : effects[k]? with
          | some effect =>
            simp only [tick, turn, hk]
            refine ⟨.still (Or.inl rfl) rfl rfl rfl, fun _ _ hpc => ?_⟩
            cases hpc
            simp only [State.toDo, List.head?_drop]
            exact hk
          | none =>
            have hdone : effects.drop k = [] :=
              List.drop_eq_nil_iff.2 (List.getElem?_eq_none_iff.1 hk)
            simp only [tick, turn, hk]
            refine ⟨?_, fun _ _ hpc => by cases hpc⟩
            cases rest with
            | nil => exact .shift rfl hdone rfl rfl rfl
            | cons next rest => exact .shift rfl hdone rfl rfl rfl

/-! ### Runs -/

/-- A run of the object from its first admission on. -/
structure Run (σ ε χ α κ π : Type*) where
  store : σ
  actions : List (Action ε χ α κ π)

theorem step_resume [DecidableEq κ] (sys : System σ ε φ χ α π) (hidle : s.pc.isIdle = true)
    (hunfinished : s.disk.unfinished = true) :
    step sys s (.resume : Action ε χ α κ π) = (⟨s.disk, .loop⟩, []) := by
  rw [step]
  exact if_pos (by rw [hidle, hunfinished]; rfl)

section Runs

variable [DecidableEq κ] (sys : System σ ε φ χ α π) (r : Run σ ε χ α κ π)

def Run.state : State σ ε φ κ := Reactive.final (step sys) (.init r.store) r.actions

def Run.log : List (Entry ε φ χ κ π) := Reactive.outputs (step sys) (.init r.store) r.actions

def Run.extend (as : List (Action ε χ α κ π)) : Run σ ε χ α κ π :=
  { r with actions := r.actions ++ as }

theorem Run.extend_log (as : List (Action ε χ α κ π)) :
    (r.extend as).log sys = r.log sys ++ Reactive.outputs (step sys) (r.state sys) as :=
  Reactive.outputs_append ..

theorem Run.agrees : Agrees (r.state sys) (r.log sys) :=
  Reactive.outputs_of_inv (step sys) (fun _ a _ h => h.step sys a) (agrees_init r.store) r.actions

/-- **Exactly once and in order**: what has been reduced, followed by what is pending, is what was
queued. -/
theorem queue_exactly_once :
    (recorded (r.log sys)).reverse.map Reduction.event ++ (r.state sys).disk.pending =
      queued (r.log sys) :=
  (r.agrees sys).queue.symm

/-- The effects of every reduction are executed in order; only the last one may be unfinished. -/
theorem recorded_wellRun {rd : Reduction ε φ} (h : rd ∈ recorded (r.log sys)) :
    (∃ n, WellRun rd.effects rd.execs n) ∧
      (rd.Complete ∨ (recorded (r.log sys)).head? = some rd) := by
  have hphase : Phase (r.state sys) (recorded (r.log sys)) := (r.agrees sys).phase
  generalize r.state sys = s at hphase
  generalize recorded (r.log sys) = rs at hphase h
  cases hphase with
  | empty _ hrs | drained _ hrs | unreduced _ hrs => exact ⟨⟨_, hrs rd h⟩, Or.inl (hrs rd h)⟩
  | working _ hrs _ hrun | running hrs hrun | committing hrs hrun =>
    rcases List.mem_cons.1 h with rfl | h
    · exact ⟨⟨_, hrun⟩, Or.inr rfl⟩
    · exact ⟨⟨_, hrs rd h⟩, Or.inl (hrs rd h)⟩

theorem recorded_complete (hfin : (r.state sys).disk.unfinished = false) {rd : Reduction ε φ}
    (h : rd ∈ recorded (r.log sys)) : rd.Complete :=
  ((r.agrees sys).phase.of_finished hfin).2 rd h

theorem Run.remembers : Remembers sys.cap (r.state sys) (r.log sys) :=
  Reactive.outputs_of_inv (step sys) (fun _ a _ h => h.step sys a)
    (remembers_init sys.cap r.store) r.actions

/-- **No id twice**: an id among the last `cap` admitted is not admitted again. -/
theorem admit_of_remembered {id : κ} (event : ε)
    (h : id ∈ (admittedIds (r.log sys)).rtake sys.cap) :
    step sys (r.state sys) (.admitEvent (some id) event) = (r.state sys, []) := by
  have hseen : id ∈ (r.state sys).disk.seen := by
    rw [(r.remembers sys).seen]
    exact h
  simp [step, hseen]

/-- **The store is the fold of the specification over the log.** -/
theorem replay_simulates {R : σ → τ → Prop} {spec : τ → ε → χ → τ × List φ} {write : τ → π → τ}
    {t₀ : τ} (hsim : Simulates sys R spec write) (hstart : R r.store t₀) :
    Replays R spec write t₀ (r.state sys) (r.log sys) := by
  have hinit : Replays R spec write t₀ (State.init r.store : State σ ε φ κ)
      ([] : List (Entry ε φ χ κ π)) := ⟨hstart, rfl, rfl⟩
  exact Reactive.outputs_of_inv (step sys) (fun _ a _ h => h.step hsim a) hinit r.actions

/-- **Progress**: from wherever a run has stopped, if something is left to work on, resuming the
drain without a further crash reduces everything queued so far. -/
theorem drains (hunfinished : (r.state sys).disk.unfinished = true) (stream : ℕ → χ × α) :
    ∃ n, (queued (r.log sys)).length ≤
      (recorded ((r.extend (.crash :: .resume :: drainActions stream n)).log sys)).length := by
  have hcrash := (r.agrees sys).step sys (.crash : Action ε χ α κ π)
  have hresume := hcrash.step sys (.resume : Action ε χ α κ π)
  have hbusy : (step sys (step sys (r.state sys) (.crash : Action ε χ α κ π)).1
      (.resume : Action ε χ α κ π)).1.pc.isIdle = false := by
    have hidle : (step sys (r.state sys) (.crash : Action ε χ α κ π)).1.pc.isIdle = true := rfl
    rw [step_resume sys hidle hunfinished]
    rfl
  obtain ⟨n, hn⟩ := hresume.drains sys (queued (r.log sys)).length hbusy
    (by rw [queued, queued, List.flatMap_append, List.flatMap_append]; simp) stream
  refine ⟨n, ?_⟩
  rw [Run.extend_log, Reactive.outputs_cons, Reactive.outputs_cons, ← List.append_assoc,
    ← List.append_assoc]
  exact hn

end Runs

end JournaledQueue
