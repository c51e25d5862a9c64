/-
**The session object: admit and drain.**

`apps/api/src/calls/session-do.ts` wraps the transition function in an object with a FIFO.  Every
entrypoint enqueues its whole body, so a webhook, an RPC or an alarm is admitted only when the
cascade of the one before it has drained; draining reduces the head event, executes its effects in
order and appends what they report back, the follow-up events, to the same queue.  Alarms are
logical slots in one table: when the platform wakes the object it collects the slots that are due
and fires them one after the other, each a cleared slot and an admitted event.

The vendor is adversarial: every executed effect is answered by an `Answers`, chosen anew for each
effect of each step.  What a command does outside the object is not modelled; only what the object
learns of it is.  A crash in the middle of a drain is the subject of `Texturion/CallJournal.lean`;
here a drain step runs to its end.

Main result:

* `Calls.dialOutcome_mem_executeAll` — every leg of a dial effect gets its dial outcome.
-/

import Texturion.CallEffects

namespace Calls

/-! ### Answers -/

/-- How the vendor answers one dial. -/
inductive DialAnswer
  | landed (ccid : String)
  | failed (failure : DialFailure)
  deriving DecidableEq

def DialAnswer.outcome (pendingKey : String) : DialAnswer → SessionEvent
  | .landed ccid => .dialOutcome pendingKey (some ccid) none
  | .failed failure => .dialOutcome pendingKey none (some failure)

/-- The answers to one executed effect: each effect reads the field that is about it. -/
structure Answers where
  dial : String → DialAnswer
  ok : Bool
  dead : Bool
  alive : Bool
  unreachableUserIds : List String

/-! ### Executing effects -/

/-- Spend one command of the session's budget; past the cap only the terminal path still may. -/
def spendCommand (m : SessionMachine) (terminalExempt : Bool) : SessionMachine × Bool :=
  let next := { m with telnyxCommandCount := m.telnyxCommandCount + 1 }
  (next, terminalExempt || next.telnyxCommandCount ≤ MAX_TELNYX_COMMANDS_PER_SESSION)

/-- The legs of a dial effect, in leg order: a leg past the cap is reported dead undialed. -/
def dialLegs (dial : String → DialAnswer) :
    SessionMachine → List DialLeg → SessionMachine × List SessionEvent
  | m, [] => (m, [])
  | m, leg :: legs =>
    let spent := spendCommand m false
    let answer := if spent.2 then dial leg.pendingKey else .failed .knownDead
    let rest := dialLegs dial spent.1 legs
    (rest.1, answer.outcome leg.pendingKey :: rest.2)

/-- The armed alarms: the time each logical slot is due. -/
abbrev AlarmTable := AlarmKind → Option ℤ

/-- What executing an effect reads and writes. -/
structure Shell where
  machine : SessionMachine
  alarms : AlarmTable

/-- Spend a command that runs whatever the budget says. -/
def Shell.spend (s : Shell) : Shell := { s with machine := (spendCommand s.machine true).1 }

/-- Set or clear a slot of the alarm table. -/
def Shell.setAlarm (s : Shell) (alarm : AlarmKind) (atMs : Option ℤ) : Shell :=
  { s with alarms := Function.update s.alarms alarm atMs }

def execute (s : Shell) (i : Effect × Answers) : Shell × List SessionEvent :=
  let answers := i.2
  match i.1 with
  | .telnyxDial legs =>
    let dialed := dialLegs answers.dial s.machine legs
    ({ s with machine := dialed.1 }, dialed.2)
  | .telnyxDialPlacer pendingKey userId sipTarget =>
    let dialed := dialLegs answers.dial s.machine
      [{ pendingKey := pendingKey, userId := userId, sipTarget := sipTarget, source := .engine }]
    ({ s with machine := dialed.1 }, dialed.2)
  | .telnyxAnswerInbound ccid intent =>
    if ccid = "" then (s, [])
    else (s.spend,
      [.answerOutcome answers.ok intent.memberCcid intent.userId intent.answeredAtIso])
  | .telnyxAnswerNotice ccid =>
    if ccid = "" then (s, []) else (s.spend, [.noticeAnswerOutcome answers.ok])
  | .telnyxAnswerVm ccid =>
    if ccid = "" then (s, []) else (s.spend, [.vmAnswerOutcome answers.ok])
  | .telnyxHangup ccid terminal =>
    let spent := spendCommand s.machine terminal
    ({ s with machine := spent.1 },
      if spent.2 ∧ answers.dead ∧ terminal ∧ s.machine.customerCcid = some ccid then
        [.inboundLegGone] else [])
  | .telnyxBridge _ _ | .telnyxReject _ _ | .telnyxSpeak _ _ | .telnyxRecordStart _ => (s.spend, [])
  | .telnyxProbeMemberLeg ccid userId => (s, [.memberProbeOutcome ccid userId answers.alive])
  | .pushFanout _ =>
    (s.setAlarm .fanoutSettle none, [.pushFanoutSettled answers.unreachableUserIds])
  | .armAlarm alarm atMs => (s.setAlarm alarm (some atMs), [])
  | .clearAlarm alarm => (s.setAlarm alarm none, [])
  | .mirror _ _ | .pushCallEnd _ | .threadAtAnswer | .terminalMerge _ | .voicemailPipeline _
  | .warn _ => (s, [])

def withAnswers (es : List Effect) (answers : ℕ → Answers) : List (Effect × Answers) :=
  es.zipIdx.map fun p => (p.1, answers p.2)

def executeAll (s : Shell) (es : List Effect) (answers : ℕ → Answers) :
    Shell × List SessionEvent :=
  (Reactive.final execute s (withAnswers es answers),
    Reactive.outputs execute s (withAnswers es answers))

/-! ### The object -/

/-- The object between two of its durable points: the machine, the journal of events still to be
reduced, the alarm table and the rest of the alarm batch that is being fired. -/
structure Session where
  machine : Option SessionMachine
  journal : List SessionEvent
  alarms : AlarmTable
  due : List AlarmKind

/-- The events that only an executed effect or a fired alarm can put on the journal. -/
def SessionEvent.isInternal : SessionEvent → Bool
  | .alarmRing | .alarmRingStep | .alarmJanitor | .alarmIntentExpiry | .answerOutcome ..
  | .noticeAnswerOutcome _ | .vmAnswerOutcome _ | .pushFanoutSettled _ | .dialOutcome ..
  | .memberProbeOutcome .. | .inboundLegGone => true
  | _ => false

/-- The order in which a batch of due slots is fired. -/
def alarmOrder : List AlarmKind :=
  [.fanoutSettle, .intentExpiry, .ringStep, .ring, .janitor, .purge]

/-- The event that firing a slot admits; the purge admits none. -/
def alarmEvent (unreachableUserIds : List String) : AlarmKind → Option SessionEvent
  | .fanoutSettle => some (.pushFanoutSettled unreachableUserIds)
  | .intentExpiry => some .alarmIntentExpiry
  | .ringStep => some .alarmRingStep
  | .ring => some .alarmRing
  | .janitor => some .alarmJanitor
  | .purge => none

/-- What may happen next: a webhook or RPC arrives, the platform alarm wakes the object, the next
slot of the batch is fired, or the head of the journal is reduced and its effects executed. -/
inductive Action
  | admitEvent (event : SessionEvent)
  | wake (nowMs : ℤ)
  | fire (unreachableUserIds : List String)
  | drain (nowMs clockMs : ℤ) (pendingKeyFor : ℕ → String) (answers : ℕ → Answers)

def dueSlots (alarms : AlarmTable) (nowMs : ℤ) : List AlarmKind :=
  alarmOrder.filter fun slot => (alarms slot).any fun atMs => atMs ≤ nowMs + 50

/-- Fire one slot: clear it, then admitEvent its event.  The purge empties the storage and ends the
batch; the object that is still in memory keeps its machine. -/
def fireSlot (s : Session) (slot : AlarmKind) (due : List AlarmKind)
    (unreachableUserIds : List String) : Session :=
  match alarmEvent unreachableUserIds slot with
  | some event =>
    { s with alarms := Function.update s.alarms slot none, due := due, journal := [event] }
  | none => { s with alarms := fun _ => none, due := [] }

def drainHead (s : Session) (event : SessionEvent) (rest : List SessionEvent) (nowMs clockMs : ℤ)
    (pendingKeyFor : ℕ → String) (answers : ℕ → Answers) : Session × List Effect :=
  let r := reduce s.machine event nowMs clockMs pendingKeyFor
  match r.machine with
  | some m =>
    let done := executeAll ⟨m, s.alarms⟩ r.effects answers
    ({ s with machine := some done.1.machine, alarms := done.1.alarms, journal := rest ++ done.2 },
      r.effects)
  | none => ({ s with journal := rest }, r.effects)

/-- Nothing is left to do: the entrypoint that waits in the FIFO may run. -/
def Session.idle (s : Session) : Bool := s.journal.isEmpty && s.due.isEmpty

/-- An arrival, which waits until the object is idle. -/
def Session.admitEvent (s : Session) (event : SessionEvent) : Session :=
  if s.idle && !event.isInternal then { s with journal := [event] } else s

/-- The platform alarm, which waits until the object is idle. -/
def Session.wake (s : Session) (nowMs : ℤ) : Session :=
  if s.idle then { s with due := dueSlots s.alarms nowMs } else s

/-- The next slot of the batch, which waits until the journal of the one before it has drained. -/
def Session.fire (s : Session) (unreachableUserIds : List String) : Session :=
  match s.journal, s.due with
  | [], slot :: due => fireSlot s slot due unreachableUserIds
  | _, _ => s

def Session.drain (s : Session) (nowMs clockMs : ℤ) (pendingKeyFor : ℕ → String)
    (answers : ℕ → Answers) : Session × List Effect :=
  match s.journal with
  | event :: rest => drainHead s event rest nowMs clockMs pendingKeyFor answers
  | [] => (s, [])

def sessionStep (s : Session) : Action → Session × List Effect
  | .admitEvent event => (s.admitEvent event, [])
  | .wake nowMs => (s.wake nowMs, [])
  | .fire unreachableUserIds => (s.fire unreachableUserIds, [])
  | .drain nowMs clockMs pendingKeyFor answers => s.drain nowMs clockMs pendingKeyFor answers

/-- The object that has just admitted an inbound call. -/
def Session.start (context : InitiatedContext) : Session where
  machine := none
  journal := [.initiated context]
  alarms := fun _ => none
  due := []

/-- A run of the object from the admission of an inbound call. -/
structure SessionRun where
  context : InitiatedContext
  actions : List Action

namespace SessionRun

def session (r : SessionRun) : Session := Reactive.final sessionStep (.start r.context) r.actions

/-- Every effect emitted along the run. -/
def effects (r : SessionRun) : List Effect :=
  Reactive.outputs sessionStep (.start r.context) r.actions

def extend (r : SessionRun) (as : List Action) : SessionRun :=
  { r with actions := r.actions ++ as }

/-- The run up to some point. -/
def upTo (r : SessionRun) (actions : List Action) : SessionRun := { r with actions := actions }

end SessionRun

/-! ### What executing effects does -/

def SessionMachine.withCount (m : SessionMachine) (count : ℕ) : SessionMachine :=
  { m with telnyxCommandCount := count }

section

variable (m : SessionMachine)

@[simp] theorem withCount_self : m.withCount m.telnyxCommandCount = m := rfl

@[simp] theorem withCount_withCount (k n : ℕ) : (m.withCount k).withCount n = m.withCount n := rfl

theorem withCount_state (count : ℕ) : (m.withCount count).state = m.state := rfl

end

theorem dialLegs_machine (dial : String → DialAnswer) (m : SessionMachine)
    (legs : List DialLeg) : ∃ count, (dialLegs dial m legs).1 = m.withCount count := by
  induction legs generalizing m with
  | nil => exact ⟨m.telnyxCommandCount, rfl⟩
  | cons leg legs ih =>
    obtain ⟨count, h⟩ := ih (spendCommand m false).1
    exact ⟨count, h⟩

theorem execute_machine (s : Shell) (i : Effect × Answers) :
    ∃ count, (execute s i).1.machine = s.machine.withCount count := by
  have hsame : ∃ count, s.machine = s.machine.withCount count := ⟨_, rfl⟩
  have hspend : ∃ count, s.spend.machine = s.machine.withCount count := ⟨_, rfl⟩
  obtain ⟨effect, answers⟩ := i
  unfold execute
  cases effect with
  | telnyxDial | telnyxDialPlacer => exact dialLegs_machine ..
  | telnyxAnswerInbound ccid | telnyxAnswerNotice ccid | telnyxAnswerVm ccid =>
    by_cases h : ccid = ""
    · simp only [h, if_true]
      exact hsame
    · simp only [h, if_false]
      exact hspend
  | telnyxHangup => exact ⟨_, rfl⟩
  | telnyxBridge | telnyxReject | telnyxSpeak | telnyxRecordStart => exact hspend
  | _ => exact hsame

/-- **Executing effects** changes the command count and nothing else of the machine. -/
theorem executeAll_machine (s : Shell) (es : List Effect) (answers : ℕ → Answers) :
    ∃ count, (executeAll s es answers).1.machine = s.machine.withCount count := by
  refine Reactive.final_of_inv execute (P := fun t => ∃ count, t.machine = s.machine.withCount count)
    ?_ ⟨s.machine.telnyxCommandCount, rfl⟩ _
  rintro t i ⟨count, ht⟩
  obtain ⟨count', h⟩ := execute_machine t i
  exact ⟨count', by rw [h, ht, withCount_withCount]⟩

variable {es : List Effect} {m : SessionMachine} {legs : List DialLeg} {event : SessionEvent}
  {s : Session} {rest : List SessionEvent}

theorem mem_withAnswers {answers : ℕ → Answers} {i : Effect × Answers}
    (h : i ∈ withAnswers es answers) : i.1 ∈ es := by
  obtain ⟨p, hp, rfl⟩ := List.mem_map.1 h
  exact (List.mem_zipIdx' hp).2 ▸ List.getElem_mem _

theorem execute_alarms (s : Shell) (i : Effect × Answers) (slot : AlarmKind) :
    (execute s i).1.alarms slot = s.alarms slot ∨ (execute s i).1.alarms slot = none ∨
      ∃ atMs, i.1 = .armAlarm slot atMs := by
  have hset : ∀ (alarm : AlarmKind) (atMs : Option ℤ),
      (s.setAlarm alarm atMs).alarms slot = s.alarms slot ∨
        alarm = slot ∧ (s.setAlarm alarm atMs).alarms slot = atMs := by
    intro alarm atMs
    by_cases h : slot = alarm
    · subst h
      exact Or.inr ⟨rfl, Function.update_self ..⟩
    · exact Or.inl (Function.update_of_ne h _ _)
  obtain ⟨effect, answers⟩ := i
  cases effect with
  | armAlarm alarm atMs =>
    rcases hset alarm (some atMs) with h | ⟨rfl, _⟩
    · exact Or.inl h
    · exact Or.inr (Or.inr ⟨atMs, rfl⟩)
  | clearAlarm alarm =>
    rcases hset alarm none with h | ⟨_, h⟩
    · exact Or.inl h
    · exact Or.inr (Or.inl h)
  | pushFanout =>
    rcases hset .fanoutSettle none with h | ⟨_, h⟩
    · exact Or.inl h
    · exact Or.inr (Or.inl h)
  | telnyxAnswerInbound ccid | telnyxAnswerNotice ccid | telnyxAnswerVm ccid =>
    left
    unfold execute
    simp only
    split_ifs <;> rfl
  | _ => exact Or.inl rfl

theorem executeAll_alarms_none {s : Shell} (answers : ℕ → Answers) {slot : AlarmKind}
    (hnone : s.alarms slot = none) (hes : ∀ atMs, Effect.armAlarm slot atMs ∉ es) :
    (executeAll s es answers).1.alarms slot = none := by
  have hall : ∀ i ∈ withAnswers es answers, ∀ atMs, i.1 ≠ .armAlarm slot atMs :=
    fun i hi atMs heq => hes atMs (heq ▸ mem_withAnswers hi)
  refine Reactive.final_of_inv_along execute (P := fun t => t.alarms slot = none) ?_ hnone
    (Reactive.along_of_forall execute hall s)
  intro t i ht harm
  rcases execute_alarms t i slot with h | h | ⟨atMs, h⟩
  · rw [h, ht]
  · exact h
  · exact absurd h (harm atMs)

/-! ### Follow-up events -/

/-- The follow-up events an effect may report on a machine. -/
def followsUp (customerCcid : Option String) : Effect → SessionEvent → Bool
  | .telnyxDial legs, .dialOutcome key _ _ => legs.any fun leg => leg.pendingKey == key
  | .telnyxDialPlacer pendingKey _ _, .dialOutcome key _ _ => pendingKey == key
  | .telnyxAnswerInbound _ intent, .answerOutcome _ memberCcid userId answeredAtIso =>
    intent == ⟨memberCcid, userId, answeredAtIso⟩
  | .telnyxAnswerNotice _, .noticeAnswerOutcome _ => true
  | .telnyxAnswerVm _, .vmAnswerOutcome _ => true
  | .telnyxHangup ccid true, .inboundLegGone => customerCcid == some ccid
  | .telnyxProbeMemberLeg ccid userId, .memberProbeOutcome ccid' userId' _ =>
    ccid == ccid' && userId == userId'
  | .pushFanout _, .pushFanoutSettled _ => true
  | _, _ => false

theorem mem_dialLegs {dial : String → DialAnswer} (h : event ∈ (dialLegs dial m legs).2) :
    ∃ leg ∈ legs, event = (dial leg.pendingKey).outcome leg.pendingKey ∨
      event = (DialAnswer.failed .knownDead).outcome leg.pendingKey := by
  induction legs generalizing m with
  | nil => cases h
  | cons leg legs ih =>
    rcases List.mem_cons.1 h with h | h
    · refine ⟨leg, List.mem_cons_self .., ?_⟩
      rw [h]
      split_ifs
      · exact Or.inl rfl
      · exact Or.inr rfl
    · obtain ⟨leg', hmem, he⟩ := ih h
      exact ⟨leg', List.mem_cons_of_mem _ hmem, he⟩

theorem dialLegs_covers (dial : String → DialAnswer) (m : SessionMachine) {leg : DialLeg}
    (hleg : leg ∈ legs) :
    ∃ answer : DialAnswer, answer.outcome leg.pendingKey ∈ (dialLegs dial m legs).2 := by
  induction legs generalizing m with
  | nil => cases hleg
  | cons first legs ih =>
    rcases List.mem_cons.1 hleg with rfl | hleg
    · exact ⟨_, List.mem_cons_self ..⟩
    · obtain ⟨answer, h⟩ := ih (spendCommand m false).1 hleg
      exact ⟨answer, List.mem_cons_of_mem _ h⟩

theorem execute_followsUp {s : Shell} {i : Effect × Answers}
    (h : event ∈ (execute s i).2) : followsUp s.machine.customerCcid i.1 event = true := by
  obtain ⟨effect, answers⟩ := i
  unfold execute at h
  cases effect with
  | telnyxDial legs =>
    obtain ⟨leg, hleg, rfl | rfl⟩ := mem_dialLegs h
    · cases answers.dial leg.pendingKey <;>
        exact List.any_eq_true.2 ⟨leg, hleg, beq_self_eq_true _⟩
    · exact List.any_eq_true.2 ⟨leg, hleg, beq_self_eq_true _⟩
  | telnyxDialPlacer key =>
    obtain ⟨leg, hleg, he⟩ := mem_dialLegs h
    rw [List.mem_singleton.1 hleg] at he
    rcases he with rfl | rfl
    · cases answers.dial key <;> exact beq_self_eq_true key
    · exact beq_self_eq_true key
  | telnyxAnswerInbound ccid intent =>
    simp only at h
    split_ifs at h
    · cases h
    · rw [List.mem_singleton.1 h]
      exact beq_self_eq_true intent
  | telnyxAnswerNotice | telnyxAnswerVm =>
    simp only at h
    split_ifs at h
    · cases h
    · rw [List.mem_singleton.1 h]
      rfl
  | telnyxHangup ccid terminal =>
    simp only at h
    split_ifs at h with hgone
    · obtain ⟨_, _, rfl, hcust⟩ := hgone
      rw [List.mem_singleton.1 h]
      simp [followsUp, hcust]
    · cases h
  | telnyxProbeMemberLeg ccid userId =>
    rw [List.mem_singleton.1 h]
    simp [followsUp]
  | pushFanout userIds =>
    rw [List.mem_singleton.1 h]
    rfl
  | _ => cases h

/-- **Every follow-up event comes from an effect that may report it.** -/
theorem followsUp_of_mem {s : Shell} {answers : ℕ → Answers}
    (h : event ∈ (executeAll s es answers).2) :
    ∃ e ∈ es, followsUp s.machine.customerCcid e event = true := by
  unfold executeAll withAnswers at h
  generalize 0 = k at h
  induction es generalizing s k with
  | nil => cases h
  | cons e es ih =>
    rw [List.zipIdx_cons, List.map_cons, Reactive.outputs_cons] at h
    rcases List.mem_append.1 h with h | h
    · exact ⟨e, List.mem_cons_self .., execute_followsUp h⟩
    · obtain ⟨e', he', hf⟩ := ih _ h
      obtain ⟨count, hm⟩ := execute_machine s (e, answers k)
      rw [hm] at hf
      exact ⟨e', List.mem_cons_of_mem _ he', hf⟩

theorem dialOutcome_mem_executeAll (s : Shell) (answers : ℕ → Answers) {leg : DialLeg}
    (hdial : Effect.telnyxDial legs ∈ es) (hleg : leg ∈ legs) :
    ∃ answer : DialAnswer, answer.outcome leg.pendingKey ∈ (executeAll s es answers).2 := by
  unfold executeAll withAnswers
  generalize 0 = k
  induction es generalizing s k with
  | nil => cases hdial
  | cons e es ih =>
    rw [List.zipIdx_cons, List.map_cons, Reactive.outputs_cons]
    rcases List.mem_cons.1 hdial with rfl | hdial
    · obtain ⟨answer, h⟩ := dialLegs_covers (answers k).dial s.machine hleg
      exact ⟨answer, List.mem_append_left _ h⟩
    · obtain ⟨answer, h⟩ := ih _ hdial (k + 1)
      exact ⟨answer, List.mem_append_right _ h⟩

/-! ### Draining -/

/-- Draining the head of the journal on a machine that exists: a step of the machine, its effects
executed, their follow-up events appended. -/
theorem sessionStep_drain (hm : s.machine = some m) (hj : s.journal = event :: rest)
    (nowMs clockMs : ℤ) (pendingKeyFor : ℕ → String) (answers : ℕ → Answers) :
    ∃ count, sessionStep s (.drain nowMs clockMs pendingKeyFor answers) =
      ({ s with
          machine := some ((machineStep m ⟨event, nowMs, clockMs, pendingKeyFor⟩).1.withCount count)
          alarms := (executeAll ⟨(machineStep m ⟨event, nowMs, clockMs, pendingKeyFor⟩).1, s.alarms⟩
            (machineStep m ⟨event, nowMs, clockMs, pendingKeyFor⟩).2 answers).1.alarms
          journal := rest ++
            (executeAll ⟨(machineStep m ⟨event, nowMs, clockMs, pendingKeyFor⟩).1, s.alarms⟩
              (machineStep m ⟨event, nowMs, clockMs, pendingKeyFor⟩).2 answers).2 },
        (machineStep m ⟨event, nowMs, clockMs, pendingKeyFor⟩).2) := by
  obtain ⟨count, hcount⟩ := executeAll_machine
    ⟨(machineStep m ⟨event, nowMs, clockMs, pendingKeyFor⟩).1, s.alarms⟩
    (machineStep m ⟨event, nowMs, clockMs, pendingKeyFor⟩).2 answers
  refine ⟨count, ?_⟩
  rw [← hcount]
  simp only [sessionStep, Session.drain, hj, drainHead, hm]
  rfl

theorem sessionStep_start {mint : Mint} (hm : s.machine = none)
    (hj : s.journal = mint.event :: rest) (nowMs clockMs : ℤ) (pendingKeyFor : ℕ → String)
    (answers : ℕ → Answers) :
    ∃ count, sessionStep s (.drain nowMs clockMs pendingKeyFor answers) =
      ({ s with
          machine := some ((mint.start nowMs pendingKeyFor).1.withCount count)
          alarms := (executeAll ⟨(mint.start nowMs pendingKeyFor).1, s.alarms⟩
            (mint.start nowMs pendingKeyFor).2 answers).1.alarms
          journal := rest ++
            (executeAll ⟨(mint.start nowMs pendingKeyFor).1, s.alarms⟩
              (mint.start nowMs pendingKeyFor).2 answers).2 },
        (mint.start nowMs pendingKeyFor).2) := by
  obtain ⟨count, hcount⟩ := executeAll_machine ⟨(mint.start nowMs pendingKeyFor).1, s.alarms⟩
    (mint.start nowMs pendingKeyFor).2 answers
  refine ⟨count, ?_⟩
  rw [← hcount]
  simp only [sessionStep, Session.drain, hj, drainHead, hm]
  cases mint <;> rfl

theorem sessionStep_mint {context : InitiatedContext} (hm : s.machine = none)
    (hj : s.journal = .initiated context :: rest) (nowMs clockMs : ℤ) (pendingKeyFor : ℕ → String)
    (answers : ℕ → Answers) :
    ∃ count, sessionStep s (.drain nowMs clockMs pendingKeyFor answers) =
      ({ s with
          machine := some ((reduceInitiated context nowMs pendingKeyFor).1.withCount count)
          alarms := (executeAll ⟨(reduceInitiated context nowMs pendingKeyFor).1, s.alarms⟩
            (reduceInitiated context nowMs pendingKeyFor).2 answers).1.alarms
          journal := rest ++
            (executeAll ⟨(reduceInitiated context nowMs pendingKeyFor).1, s.alarms⟩
              (reduceInitiated context nowMs pendingKeyFor).2 answers).2 },
        (reduceInitiated context nowMs pendingKeyFor).2) := by
  have hstart : s.journal = (Mint.inbound context).event :: rest := hj
  exact sessionStep_start hm hstart nowMs clockMs pendingKeyFor answers

section

variable (s : Session)

theorem admit_eq_or (event : SessionEvent) :
    s.admitEvent event = s ∨
      s.journal = [] ∧ event.isInternal = false ∧
        s.admitEvent event = { s with journal := [event] } := by
  unfold Session.admitEvent
  by_cases h : (s.idle && !event.isInternal) = true
  · rw [if_pos h]
    simp only [Session.idle, Bool.and_eq_true, List.isEmpty_iff, Bool.not_eq_true'] at h
    exact Or.inr ⟨h.1.1, h.2, rfl⟩
  · exact Or.inl (if_neg h)

theorem wake_eq_or (nowMs : ℤ) :
    s.wake nowMs = s ∨ s.wake nowMs = { s with due := dueSlots s.alarms nowMs } := by
  unfold Session.wake
  by_cases h : s.idle = true
  · exact Or.inr (if_pos h)
  · exact Or.inl (if_neg h)

/-- What firing does: nothing, or a slot's event is put on an empty journal, or the storage is
purged. -/
theorem fire_eq_or (unreachableUserIds : List String) :
    s.fire unreachableUserIds = s ∨
      ∃ slot due, s.journal = [] ∧ s.due = slot :: due ∧
        ((∃ event, alarmEvent unreachableUserIds slot = some event ∧
            s.fire unreachableUserIds =
              { s with alarms := Function.update s.alarms slot none, due := due,
                       journal := [event] }) ∨
          s.fire unreachableUserIds = { s with alarms := fun _ => none, due := [] }) := by
  unfold Session.fire
  split
  · rename_i slot due hj hdue
    refine Or.inr ⟨slot, due, hj, hdue, ?_⟩
    unfold fireSlot
    cases alarmEvent unreachableUserIds slot with
    | none => exact Or.inr rfl
    | some event => exact Or.inl ⟨event, rfl, rfl⟩
  · exact Or.inl rfl

/-- A step keeps the machine and emits nothing, or drains the head of the journal. -/
theorem sessionStep_cases (a : Action) :
    ((sessionStep s a).1.machine = s.machine ∧ (sessionStep s a).2 = []) ∨
      ∃ event rest nowMs clockMs pendingKeyFor answers, s.journal = event :: rest ∧
        a = .drain nowMs clockMs pendingKeyFor answers := by
  cases a with
  | drain nowMs clockMs pendingKeyFor answers =>
    cases hj : s.journal with
    | nil => exact Or.inl (by simp [sessionStep, Session.drain, hj])
    | cons event rest =>
      exact Or.inr ⟨event, rest, nowMs, clockMs, pendingKeyFor, answers, rfl, rfl⟩
  | admitEvent event =>
    rcases admit_eq_or s event with hsame | ⟨_, _, hadmitted⟩
    · exact Or.inl ⟨by rw [sessionStep, hsame], rfl⟩
    · exact Or.inl ⟨by rw [sessionStep, hadmitted], rfl⟩
  | wake nowMs =>
    rcases wake_eq_or s nowMs with hsame | hwake
    · exact Or.inl ⟨by rw [sessionStep, hsame], rfl⟩
    · exact Or.inl ⟨by rw [sessionStep, hwake], rfl⟩
  | fire unreachableUserIds =>
    rcases fire_eq_or s unreachableUserIds with
      hsame | ⟨slot, due, _, _, ⟨event, _, hfire⟩ | hpurge⟩
    · exact Or.inl ⟨by rw [sessionStep, hsame], rfl⟩
    · exact Or.inl ⟨by rw [sessionStep, hfire], rfl⟩
    · exact Or.inl ⟨by rw [sessionStep, hpurge], rfl⟩

end

/-! ### Invariants of the machine and the journal -/

/-- The events that an arrival or a fired alarm may put on the journal. -/
def SessionEvent.isRaised : SessionEvent → Bool
  | .answerOutcome .. | .noticeAnswerOutcome _ | .vmAnswerOutcome _ | .dialOutcome ..
  | .memberProbeOutcome .. | .inboundLegGone => false
  | _ => true

theorem isRaised_of_not_isInternal {e : SessionEvent} (h : e.isInternal = false) :
    e.isRaised = true := by
  cases e <;> first | rfl | cases h

theorem isRaised_of_alarmEvent {unreachableUserIds : List String} {slot : AlarmKind}
    (h : alarmEvent unreachableUserIds slot = some event) : event.isRaised = true := by
  cases slot <;> cases h <;> rfl

/-- A relation between the machine and the journal holds of the object; before the mint the object
holds nothing but the admitted call. -/
def Session.Holds (P : SessionMachine → List SessionEvent → Prop) (context : InitiatedContext)
    (s : Session) : Prop :=
  match s.machine with
  | some m => P m s.journal
  | none => s.journal = [.initiated context]

variable {P : SessionMachine → List SessionEvent → Prop} {context : InitiatedContext}

theorem Session.holds_some (hm : s.machine = some m) : s.Holds P context ↔ P m s.journal := by
  unfold Session.Holds
  rw [hm]

theorem Session.holds_none (hm : s.machine = none) :
    s.Holds P context ↔ s.journal = [.initiated context] := by
  unfold Session.Holds
  rw [hm]

theorem Session.Holds.congr {s t : Session} (h : s.Holds P context)
    (hmachine : t.machine = s.machine) (hjournal : t.journal = s.journal) : t.Holds P context := by
  unfold Session.Holds at h ⊢
  rw [hmachine, hjournal]
  exact h

theorem Session.Holds.raise {s t : Session} (h : s.Holds P context)
    (hraise : ∀ m event, event.isRaised = true → P m [] → P m [event]) (hempty : s.journal = [])
    (hevent : event.isRaised = true) (hmachine : t.machine = s.machine)
    (hjournal : t.journal = [event]) : t.Holds P context := by
  cases hm : s.machine with
  | none =>
    rw [Session.holds_none hm, hempty] at h
    cases h
  | some m =>
    rw [Session.holds_some hm, hempty] at h
    rw [Session.holds_some (hmachine.trans hm), hjournal]
    exact hraise m event hevent h

/-- **The invariant rule of the object**, for runs whose steps meet a condition: what holds after
the mint, survives raising an event on an empty journal and survives draining the head of it. -/
theorem Session.holds_run {C : Session → Action → Prop}
    (hraise : ∀ m event, event.isRaised = true → P m [] → P m [event])
    (hmint : ∀ (s : Session) nowMs clockMs pendingKeyFor answers, s.machine = none →
      s.journal = [.initiated context] → C s (.drain nowMs clockMs pendingKeyFor answers) →
      ∀ count, P ((reduceInitiated context nowMs pendingKeyFor).1.withCount count)
        (executeAll ⟨(reduceInitiated context nowMs pendingKeyFor).1, s.alarms⟩
          (reduceInitiated context nowMs pendingKeyFor).2 answers).2)
    (hdrain : ∀ (s : Session) m event rest nowMs clockMs pendingKeyFor answers,
      s.machine = some m → s.journal = event :: rest →
      C s (.drain nowMs clockMs pendingKeyFor answers) → P m (event :: rest) →
      ∀ count, P ((machineStep m ⟨event, nowMs, clockMs, pendingKeyFor⟩).1.withCount count)
        (rest ++ (executeAll ⟨(machineStep m ⟨event, nowMs, clockMs, pendingKeyFor⟩).1, s.alarms⟩
          (machineStep m ⟨event, nowMs, clockMs, pendingKeyFor⟩).2 answers).2))
    (actions : List Action) (hC : Reactive.Along sessionStep C (.start context) actions) :
    (Reactive.final sessionStep (.start context) actions).Holds P context := by
  have hstart : (Session.start context).Holds P context := rfl
  refine Reactive.final_of_inv_along sessionStep (fun s a h hcond => ?_) hstart hC
  cases a with
  | admitEvent event =>
    rcases admit_eq_or s event with hsame | ⟨hempty, hexternal, hadmitted⟩
    · exact h.congr (by rw [sessionStep, hsame]) (by rw [sessionStep, hsame])
    · exact h.raise hraise hempty (isRaised_of_not_isInternal hexternal)
        (by rw [sessionStep, hadmitted]) (by rw [sessionStep, hadmitted])
  | wake nowMs =>
    rcases wake_eq_or s nowMs with hsame | hwake
    · exact h.congr (by rw [sessionStep, hsame]) (by rw [sessionStep, hsame])
    · exact h.congr (by rw [sessionStep, hwake]) (by rw [sessionStep, hwake])
  | fire unreachableUserIds =>
    rcases fire_eq_or s unreachableUserIds with
      hsame | ⟨slot, due, hempty, _, ⟨event, hevent, hfire⟩ | hpurge⟩
    · exact h.congr (by rw [sessionStep, hsame]) (by rw [sessionStep, hsame])
    · exact h.raise hraise hempty (isRaised_of_alarmEvent hevent)
        (by rw [sessionStep, hfire]) (by rw [sessionStep, hfire])
    · exact h.congr (by rw [sessionStep, hpurge]) (by rw [sessionStep, hpurge])
  | drain nowMs clockMs pendingKeyFor answers =>
    cases hm : s.machine with
    | none =>
      rw [Session.holds_none hm] at h
      obtain ⟨count, hstep⟩ := sessionStep_mint hm h nowMs clockMs pendingKeyFor answers
      rw [hstep, Session.holds_some rfl]
      exact hmint s nowMs clockMs pendingKeyFor answers hm h hcond count
    | some m =>
      rw [Session.holds_some hm] at h
      cases hj : s.journal with
      | nil =>
        have hidle : sessionStep s (.drain nowMs clockMs pendingKeyFor answers) =
            (s, []) := by simp [sessionStep, Session.drain, hj]
        rw [hidle, Session.holds_some hm]
        exact h
      | cons event rest =>
        rw [hj] at h
        obtain ⟨count, hstep⟩ := sessionStep_drain hm hj nowMs clockMs pendingKeyFor answers
        rw [hstep, Session.holds_some rfl]
        exact hdrain s m event rest nowMs clockMs pendingKeyFor answers hm hj hcond h count

/-! ### A willing vendor -/

/-- A vendor that lands every dial as `ana-leg` and carries out every command. -/
def willing : Answers where
  dial := fun _ => .landed "ana-leg"
  ok := true
  dead := false
  alive := true
  unreachableUserIds := []

/-- One event reduced at time zero, its effects carried out by the willing vendor. -/
def drainOnce : Action := .drain 0 0 (fun _ => "key") fun _ => willing

end Calls
