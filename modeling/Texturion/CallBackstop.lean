/-
**The janitor.**

Every mint arms the janitor, no transition cancels it, and its event forces a call in any live
state to a terminal one.  So a call that was minted never hangs: as long as it is live the janitor
is in the alarm table, in the handler's hand, in the effects still to be executed, or on the
journal.  The purge, which would take the janitor with it, is armed only by terminal calls.

An adopted machine has none of this.  `adoptFromRow` writes the reconstructed machine and arms
nothing, so a call that is adopted live is forced to no end.

Main result:

* `Calls.Guarded.next` — **every step but an adoption of a live call and a crash with the janitor
  in hand keeps the janitor coming**.
-/

import Texturion.CallAdoption
import Texturion.CallAlarms
import Texturion.CallTerminal

namespace Calls

/-! ### What the steps arm and cancel -/

variable {e : Effect} {m : SessionMachine} {i : Input} {table owed : AlarmTable} {t : ObjectState}
  {slot : AlarmKind}

theorem machineStep_keepsJanitor (m : SessionMachine) (i : Input) :
    Within Effect.keepsJanitor (machineStep m i).2 :=
  keepsJanitor_of_tidy (machineStep_tidy m i)

/-- **The purge is armed only by a call that has ended.** -/
theorem machineStep_armsPurge {atMs : ℤ} (h : .armAlarm .purge atMs ∈ (machineStep m i).2) :
    isTerminal (machineStep m i).1.state = true := by
  have hpos : 0 < purgeArms (machineStep m i).2 :=
    List.countP_pos_iff.2 ⟨_, h, rfl⟩
  have hlife := machineStep_life m i
  unfold LifeStep at hlife
  generalize (machineStep m i).1.state = t at hlife ⊢
  generalize m.state = s at hlife
  generalize i.event = event at hlife
  generalize purgeArms (machineStep m i).2 = n at hlife hpos
  generalize mergeOutcomes (machineStep m i).2 = xs at hlife
  cases hlife with
  | stay | live => cases hpos
  | finish _ hout => cases t <;> first | rfl | cases hout
  | saved | upgradeAnswered | upgradeVoicemail => rfl

/-- **The janitor's event** ends a call in any state. -/
theorem janitor_terminal (h : i.event = .alarmJanitor) :
    isTerminal (machineStep m i).1.state = true := by
  unfold machineStep reduceMachine
  rw [h]
  simp only [quiet, reduceAlarmJanitor]
  split_ifs with hterm
  · exact hterm
  · rw [terminalize_fst]
    cases hrejected : m.rejectedForCap <;> simp [missedState, hrejected, isTerminal]
  · rw [terminalize_fst]
    rfl
  · rw [terminalize_fst]
    rfl

/-- **Every mint** arms the janitor, and neither cancels it nor arms the purge. -/
theorem mint_janitor (mint : Mint) (nowMs : ℤ) (pendingKeyFor : ℕ → String) :
    .armAlarm .janitor (nowMs + JANITOR_MS) ∈ (mint.start nowMs pendingKeyFor).2 ∧
      Within Effect.keepsJanitor (mint.start nowMs pendingKeyFor).2 ∧
      ∀ atMs, .armAlarm .purge atMs ∉ (mint.start nowMs pendingKeyFor).2 := by
  refine ⟨?_, ?_, fun atMs h => ?_⟩
  · cases mint with
    | inbound context => exact List.mem_cons_self ..
    | outbound context =>
      simp only [Mint.start, reduceOutboundInitiated]
      split <;> simp
  · cases mint with
    | inbound context => exact keepsJanitor_of_tidy (reduceInitiated_tidy context nowMs pendingKeyFor)
    | outbound context =>
      simp only [Mint.start, reduceOutboundInitiated]
      split <;> simp [Effect.keepsJanitor]
  · have hunbilled := mint_unbilled mint nowMs pendingKeyFor _ h
    simp [Effect.isBilled, Effect.armsPurge] at hunbilled

/-! ### Where the janitor is -/

def Live (machine : Option SessionMachine) : Prop :=
  ∃ m, machine = some m ∧ isTerminal m.state = false

def Ended (machine : Option SessionMachine) : Prop :=
  ∃ m, machine = some m ∧ isTerminal m.state = true

theorem Ended.not_live {machine : Option SessionMachine} (h : Ended machine) : ¬Live machine := by
  rintro ⟨n, hn, hlive⟩
  obtain ⟨m, hm, hended⟩ := h
  obtain rfl : m = n := Option.some.inj (hm.symm.trans hn)
  rw [hended] at hlive
  cases hlive

/-- The janitor is armed, in the handler's hand, still to be armed, or its event is next. -/
def JanitorComing (w : AlarmObject) : Prop :=
  w.table .janitor ≠ none ∨ w.hand = some .janitor ∨
    (∃ atMs, .armAlarm .janitor atMs ∈ w.object.toDo) ∨
    w.object.disk.toReduce = some .alarmJanitor

def PurgeNear (w : AlarmObject) : Prop :=
  w.table .purge ≠ none ∨ .purge ∈ w.due ∨ w.hand = some .purge ∨
    ∃ atMs, .armAlarm .purge atMs ∈ w.object.disk.asked

/-- **The backstop's invariant.**  The storage never holds a live call that the memory does not; a
live call's janitor is coming; and the purge waits for calls that have ended. -/
structure Guarded (w : AlarmObject) : Prop where
  stored : Live w.object.disk.store.persisted → Live w.object.disk.store.cached
  coming : Live w.object.disk.store.cached → JanitorComing w
  keeps : Within Effect.keepsJanitor w.object.disk.asked
  purge : PurgeNear w → Ended w.object.disk.store.cached ∧ Ended w.object.disk.store.persisted
  held : ∀ slot, w.hand = some slot → w.object.ready = true
  running : w.object.Running

/-! ### The store -/

/-- What the machines of a store are, up to their command counts, before and after. -/
structure StoreMoves (s t : ObjectStore) : Prop where
  live : Live t.cached → Live s.cached
  ended : Ended s.cached → Ended t.cached
  stored : (Live s.persisted → Live s.cached) → Live t.persisted → Live t.cached
  endedStored : Ended s.cached → Ended s.persisted → Ended t.persisted

theorem storeMoves_of_eq {s t : ObjectStore} (hcached : t.cached = s.cached)
    (hpersisted : t.persisted = s.persisted) : StoreMoves s t where
  live := by rw [hcached]; exact id
  ended := by rw [hcached]; exact id
  stored := by rw [hcached, hpersisted]; exact id
  endedStored := by rw [hpersisted]; exact fun _ h => h

theorem exec_moves (s : ObjectStore) (effect : Effect) (answers : Answers) :
    StoreMoves s (s.exec effect answers).1 := by
  unfold ObjectStore.exec
  cases hcached : s.cached with
  | none => exact storeMoves_of_eq rfl rfl
  | some m =>
    obtain ⟨count, hcount⟩ := execute_machine ⟨m, s.alarms⟩ (effect, answers)
    have hstate : (execute ⟨m, s.alarms⟩ (effect, answers)).1.machine.state = m.state := by
      rw [hcount]
      rfl
    refine ⟨?_, ?_, ?_, ?_⟩
    · rintro ⟨n, hn, hlive⟩
      cases hn
      exact ⟨m, hcached, by rw [← hstate]; exact hlive⟩
    · rintro ⟨n, hn, hended⟩
      obtain rfl : m = n := Option.some.inj (hcached.symm.trans hn)
      exact ⟨_, rfl, by rw [hstate]; exact hended⟩
    · intro hbefore hlive
      simp only at hlive
      split_ifs at hlive
      · exact hlive
      · obtain ⟨n, hn, hlive⟩ := hbefore hlive
        obtain rfl : m = n := Option.some.inj (hcached.symm.trans hn)
        exact ⟨_, rfl, by rw [hstate]; exact hlive⟩
    · rintro ⟨n, hn, hended⟩ hpersisted
      obtain rfl : m = n := Option.some.inj (hcached.symm.trans hn)
      simp only
      split_ifs
      · exact ⟨_, rfl, by rw [hstate]; exact hended⟩
      · exact hpersisted

/-- **A reduction** steps the machine that is there; without one it mints, or does nothing. -/
theorem reduce_cases (s : ObjectStore) (event : SessionEvent) (c : Clock) :
    (∃ m, s.cached = some m ∧ s.reduce event c =
        (s.save (machineStep m (c.input event)).1, (machineStep m (c.input event)).2)) ∨
      (s.cached = none ∧ ∃ mint : Mint, event = mint.event ∧ s.reduce event c =
        (s.save (mint.start c.nowMs c.pendingKeyFor).1, (mint.start c.nowMs c.pendingKeyFor).2)) ∨
      (s.cached = none ∧ s.reduce event c = (s, [])) := by
  unfold ObjectStore.reduce
  cases hcached : s.cached with
  | some m => exact Or.inl ⟨m, rfl, rfl⟩
  | none =>
    refine Or.inr ?_
    cases event with
    | initiated context => exact Or.inl ⟨rfl, .inbound context, rfl, rfl⟩
    | outboundInitiated context => exact Or.inl ⟨rfl, .outbound context, rfl, rfl⟩
    | _ => exact Or.inr ⟨rfl, rfl⟩

theorem promise_janitor (h : e.keepsJanitor = true)
    (harmed : table .janitor ≠ none) : promise table e .janitor ≠ none := by
  cases e with
  | armAlarm slot atMs =>
    by_cases hslot : slot = .janitor
    · subst hslot
      simp [promise]
    · rw [promise, Function.update_of_ne (Ne.symm hslot)]
      exact harmed
  | clearAlarm slot =>
    have hslot : AlarmKind.janitor ≠ slot := by
      rintro rfl
      cases h
    rw [promise, Function.update_of_ne hslot]
    exact harmed
  | pushFanout =>
    rw [promise, Function.update_of_ne (by decide)]
    exact harmed
  | _ => exact harmed

theorem promise_purge (h : promise table e .purge ≠ none) :
    table .purge ≠ none ∨ ∃ atMs, e = .armAlarm .purge atMs := by
  obtain ⟨atMs, hatMs⟩ := Option.ne_none_iff_exists'.1 h
  rcases promise_of_some hatMs with htable | rfl
  · exact Or.inl (by rw [htable]; exact Option.some_ne_none atMs)
  · exact Or.inr ⟨atMs, rfl⟩

/-! ### The steps of the drain -/

variable {w : AlarmObject}

/-- A step of the object that leaves the machines and the table alone, and of a live call what is
to do. -/
theorem Guarded.still (h : Guarded w) (hhand : w.hand = none)
    (hcached : t.disk.store.cached = w.object.disk.store.cached)
    (hpersisted : t.disk.store.persisted = w.object.disk.store.persisted)
    (htable : t.disk.store.alarms = w.table)
    (htoDo : Live w.object.disk.store.cached → (∀ e ∈ w.object.toDo, e ∈ t.toDo) ∧
      ∀ event, w.object.disk.toReduce = some event → t.disk.toReduce = some event)
    (hasked : t.disk.asked = w.object.disk.asked ∨ t.disk.asked = []) (hrunning : t.Running) :
    Guarded ⟨t, w.due, none, owed⟩ where
  stored := by
    rw [hcached, hpersisted]
    exact h.stored
  coming := by
    intro hlive
    rw [hcached] at hlive
    rcases h.coming hlive with htab | hhas | htodo | hnext
    · exact Or.inl (by rw [AlarmObject.table, htable]; exact htab)
    · rw [hhand] at hhas
      cases hhas
    · obtain ⟨atMs, htodo⟩ := htodo
      exact Or.inr (Or.inr (Or.inl ⟨atMs, (htoDo hlive).1 _ htodo⟩))
    · exact Or.inr (Or.inr (Or.inr ((htoDo hlive).2 _ hnext)))
  keeps := by
    rcases hasked with hasked | hasked
    · rw [hasked]
      exact h.keeps
    · rw [hasked]
      exact within_nil
  purge := by
    rw [hcached, hpersisted]
    rintro (htab | hdue | hhas | ⟨atMs, hask⟩)
    · exact h.purge (Or.inl (by rw [AlarmObject.table, htable] at htab; exact htab))
    · exact h.purge (Or.inr (Or.inl hdue))
    · cases hhas
    · rcases hasked with hsame | hnone
      · exact h.purge (Or.inr (Or.inr (Or.inr ⟨atMs, by rw [← hsame]; exact hask⟩)))
      · rw [hnone] at hask
        cases hask
  held := by
    intro slot hslot
    cases hslot
  running := hrunning

theorem live_of_step
    (h : isTerminal (machineStep m i).1.state = false) : isTerminal m.state = false := by
  cases hm : isTerminal m.state with
  | false => rfl
  | true =>
    rw [terminal_step_terminal i hm] at h
    cases h

theorem Guarded.ended (h : Guarded w) (hnear : w.table .purge ≠ none ∨ .purge ∈ w.due) :
    Ended w.object.disk.store.cached ∧ Ended w.object.disk.store.persisted := by
  rcases hnear with htab | hdue
  · exact h.purge (Or.inl htab)
  · exact h.purge (Or.inr (Or.inl hdue))

/-- **Reducing the head**: the janitor's own event ends the call, a mint has the janitor among its
effects, and any other step of a live call leaves the janitor where it was. -/
theorem Guarded.reduce (h : Guarded w) {event : SessionEvent}
    {c : Clock} (hhand : w.hand = none) (hevent : w.object.disk.toReduce = some event)
    (hbefore : w.object.toDo = []) (hstore : t.disk.store = (w.object.disk.store.reduce event c).1)
    (hasked : t.disk.asked = (w.object.disk.store.reduce event c).2)
    (htoDo : t.toDo = (w.object.disk.store.reduce event c).2)
    (hrunning : t.Running) : Guarded ⟨t, w.due, none, owed⟩ := by
  have htable : t.disk.store.alarms = w.table := by
    rw [hstore, (reduce_store ..).1]
    rfl
  rcases reduce_cases w.object.disk.store event c with
    ⟨m, hm, hr⟩ | ⟨hnone, mint, rfl, hr⟩ | ⟨hnone, hr⟩
  · rw [hr] at hstore hasked htoDo
    refine ⟨fun hlive => ?_, ?_, ?_, ?_, fun slot hslot => (by cases hslot), hrunning⟩
    · show Live t.disk.store.cached
      rw [hstore] at hlive ⊢
      exact hlive
    · rintro ⟨n, hn, hlive⟩
      obtain rfl : (machineStep m (c.input event)).1 = n := by
        rw [hstore] at hn
        exact Option.some.inj hn
      rcases h.coming ⟨m, hm, live_of_step hlive⟩ with htab | hhas | ⟨atMs, htodo⟩ | hnext
      · exact Or.inl (by rw [AlarmObject.table, htable]; exact htab)
      · rw [hhand] at hhas
        cases hhas
      · rw [hbefore] at htodo
        cases htodo
      · have hjanitor : (c.input event).event = .alarmJanitor :=
          Option.some.inj (hevent.symm.trans hnext)
        rw [janitor_terminal hjanitor] at hlive
        cases hlive
    · rw [hasked]
      exact machineStep_keepsJanitor m _
    · have hended : Ended (some (machineStep m (c.input event)).1) → Ended t.disk.store.cached ∧
          Ended t.disk.store.persisted := by
        rw [hstore]
        exact fun hended => ⟨hended, hended⟩
      have hbefore : w.table .purge ≠ none ∨ .purge ∈ w.due →
          Ended (some (machineStep m (c.input event)).1) := by
        intro hnear
        obtain ⟨⟨n, hn, hended⟩, -⟩ := h.ended hnear
        obtain rfl : m = n := Option.some.inj (hm.symm.trans hn)
        exact ⟨_, rfl, terminal_step_terminal _ hended⟩
      rintro (htab | hdue | hhas | ⟨atMs, hask⟩)
      · exact hended (hbefore (Or.inl (by rw [AlarmObject.table, htable] at htab; exact htab)))
      · exact hended (hbefore (Or.inr hdue))
      · cases hhas
      · rw [hasked] at hask
        exact hended ⟨_, rfl, machineStep_armsPurge hask⟩
  · rw [hr] at hstore hasked htoDo
    obtain ⟨harms, hkeeps, hpurge⟩ := mint_janitor mint c.nowMs c.pendingKeyFor
    have hfresh : ¬(w.table .purge ≠ none ∨ .purge ∈ w.due) := by
      intro hnear
      obtain ⟨⟨n, hn, _⟩, -⟩ := h.ended hnear
      rw [hnone] at hn
      cases hn
    refine ⟨fun hlive => ?_, fun _ => ?_, ?_, ?_, fun slot hslot => (by cases hslot), hrunning⟩
    · show Live t.disk.store.cached
      rw [hstore] at hlive ⊢
      exact hlive
    · exact Or.inr (Or.inr (Or.inl ⟨_, by rw [htoDo]; exact harms⟩))
    · rw [hasked]
      exact hkeeps
    · rintro (htab | hdue | hhas | ⟨atMs, hask⟩)
      · rw [AlarmObject.table, htable] at htab
        exact absurd (Or.inl htab) hfresh
      · exact absurd (Or.inr hdue) hfresh
      · cases hhas
      · rw [hasked] at hask
        exact absurd hask (hpurge atMs)
  · rw [hr] at hstore hasked
    refine h.still hhand (by rw [hstore]) (by rw [hstore]) htable ?_ (Or.inr hasked) hrunning
    rintro ⟨m, hm, _⟩
    rw [hnone] at hm
    cases hm

/-- **Executing an effect**: the janitor that was to be armed is armed, and stays so. -/
theorem Guarded.exec (h : Guarded w) {effect : Effect} {answers : Answers} (hhand : w.hand = none)
    (hbefore : w.object.toDo = effect :: t.toDo)
    (hstore : t.disk.store = (w.object.disk.store.exec effect answers).1)
    (hasked : t.disk.asked = w.object.disk.asked)
    (hreduce : t.disk.toReduce = w.object.disk.toReduce) (hrunning : t.Running) :
    Guarded ⟨t, w.due, none, owed⟩ := by
  have hmoves := exec_moves w.object.disk.store effect answers
  rw [← hstore] at hmoves
  have hmem : effect ∈ w.object.disk.asked :=
    JournaledQueue.mem_asked_of_mem_toDo (by rw [hbefore]; exact List.mem_cons_self ..)
  have hkeeps : Within Effect.keepsJanitor t.disk.asked := by
    rw [hasked]
    exact h.keeps
  have htable : ∀ {m}, w.object.disk.store.cached = some m →
      t.disk.store.alarms = promise w.table effect := by
    intro m hm
    rw [hstore]
    exact exec_alarms hm effect answers
  refine ⟨hmoves.stored h.stored, fun hlive => ?_, hkeeps, ?_, fun slot hslot => (by cases hslot),
    hrunning⟩
  · have hlive' := hmoves.live hlive
    have halarms : t.disk.store.alarms = promise w.table effect := by
      obtain ⟨m, hm, _⟩ := hlive'
      exact htable hm
    rcases h.coming hlive' with htab | hhas | ⟨atMs, htodo⟩ | hnext
    · exact Or.inl (by
        rw [AlarmObject.table, halarms]
        exact promise_janitor (h.keeps effect hmem) htab)
    · rw [hhand] at hhas
      cases hhas
    · rw [hbefore] at htodo
      rcases List.mem_cons.1 htodo with rfl | htodo
      · exact Or.inl (by rw [AlarmObject.table, halarms]; simp [promise])
      · exact Or.inr (Or.inr (Or.inl ⟨atMs, htodo⟩))
    · exact Or.inr (Or.inr (Or.inr (hreduce.trans hnext)))
  · have hended : Ended w.object.disk.store.cached ∧ Ended w.object.disk.store.persisted →
        Ended t.disk.store.cached ∧ Ended t.disk.store.persisted :=
      fun hboth => ⟨hmoves.ended hboth.1, hmoves.endedStored hboth.1 hboth.2⟩
    rintro (htab | hdue | hhas | ⟨atMs, hask⟩)
    · refine hended ?_
      cases hm : w.object.disk.store.cached with
      | none =>
        have hsame : t.disk.store = w.object.disk.store := by
          rw [hstore, ObjectStore.exec, hm]
        rw [AlarmObject.table, hsame] at htab
        rw [← hm]
        exact h.ended (Or.inl htab)
      | some m =>
        rw [← hm]
        rw [AlarmObject.table, htable hm] at htab
        rcases promise_purge htab with htab | ⟨atMs, rfl⟩
        · exact h.ended (Or.inl htab)
        · exact h.purge (Or.inr (Or.inr (Or.inr ⟨atMs, hmem⟩)))
    · exact hended (h.ended (Or.inr hdue))
    · cases hhas
    · rw [hasked] at hask
      exact hended (h.purge (Or.inr (Or.inr (Or.inr ⟨atMs, hask⟩))))

/-- **The drain keeps the backstop**, one write at a time. -/
theorem Guarded.tick (h : Guarded w) (hhand : w.hand = none) (c : Clock) (answers : Answers)
    (owed : AlarmTable) :
    Guarded ⟨(JournaledQueue.tick sessionObject w.object c answers).1, w.due, none, owed⟩ := by
  obtain ⟨hmoves, hrunning⟩ := JournaledQueue.tick_moves sessionObject h.running c answers
  generalize (JournaledQueue.tick sessionObject w.object c answers).1 = t at hmoves hrunning
  cases hmoves with
  | still hstore hasked htoDo hreduce =>
    have hsame : Live w.object.disk.store.cached → (∀ e ∈ w.object.toDo, e ∈ t.toDo) ∧
        ∀ event, w.object.disk.toReduce = some event → t.disk.toReduce = some event := by
      rw [htoDo, hreduce]
      exact fun _ => ⟨fun _ he => he, fun _ he => he⟩
    rcases hstore with hstore | hstore | hstore
    · exact h.still hhand (by rw [hstore]) (by rw [hstore]) (by rw [hstore]; rfl) hsame
        (Or.inl hasked) hrunning
    · exact h.still hhand (by rw [hstore]; rfl) (by rw [hstore]; rfl) (by rw [hstore]; rfl) hsame
        (Or.inl hasked) hrunning
    · exact h.still hhand (by rw [hstore]; rfl) (by rw [hstore]; rfl) (by rw [hstore]; rfl) hsame
        (Or.inl hasked) hrunning
  | shift hstore hbefore hnone hasked htoDo =>
    refine h.still hhand (by rw [hstore]) (by rw [hstore]) (by rw [hstore]; rfl) (fun _ => ?_)
      (Or.inr hasked) hrunning
    rw [hbefore, hnone]
    exact ⟨fun _ he => (by cases he), fun _ he => (by cases he)⟩
  | reduce event hevent hbefore hstore hasked htoDo =>
    exact h.reduce hhand hevent hbefore hstore hasked htoDo hrunning
  | exec effect hbefore hstore hasked hreduce =>
    exact h.exec hhand hbefore hstore hasked hreduce hrunning

/-! ### The steps of the handler -/

/-- The steps that leave the janitor coming: no live call is adopted, and nothing dies with the
janitor in hand. -/
def KeepsBackstop (w : AlarmObject) : AlarmAction → Prop
  | .adopt machine => w.object.disk.store.cached = none → isTerminal machine.state = true
  | .crash => w.hand ≠ some .janitor
  | _ => True

theorem mem_dueSlots {nowMs : ℤ} (h : slot ∈ dueSlots table nowMs) : table slot ≠ none := by
  intro hnone
  have hdue := (List.mem_filter.1 h).2
  rw [hnone] at hdue
  cases hdue

theorem hand_of_not_firing {b : Bool} (h : ¬(w.firing || b) = true) : w.hand = none := by
  simp only [AlarmObject.firing, Bool.or_eq_true, not_or] at h
  simpa using h.1.1

section

variable (h : Guarded w)
include h

/-- With empty hands only the table can hold the janitor of an object at rest. -/
theorem Guarded.armed (hready : w.object.ready = true) (hlive : Live w.object.disk.store.cached) :
    w.table .janitor ≠ none ∨ w.hand = some .janitor := by
  obtain ⟨htoDo, hreduce, -⟩ := JournaledQueue.State.toDo_of_ready hready
  rcases h.coming hlive with htab | hhas | ⟨_, htodo⟩ | hnext
  · exact Or.inl htab
  · exact Or.inr hhas
  · rw [htoDo] at htodo
    cases htodo
  · rw [hreduce] at hnext
    cases hnext

theorem Guarded.admitEvent (hhand : w.hand = none) (id : Option EventId) (event : SessionEvent)
    (owed : AlarmTable) :
    Guarded ⟨(JournaledQueue.step sessionObject w.object (.admitEvent id event)).1, w.due, none,
      owed⟩ := by
  rw [JournaledQueue.step]
  split_ifs with haccept
  · have hready : w.object.ready = true := (Bool.and_eq_true_iff.1 haccept).1
    obtain ⟨htoDo, hreduce, -⟩ := JournaledQueue.State.toDo_of_ready hready
    refine h.still hhand rfl rfl rfl (fun _ => ?_) (Or.inr rfl) fun _ _ hpc => (by cases hpc)
    rw [htoDo, hreduce]
    exact ⟨fun _ he => (by cases he), fun _ he => (by cases he)⟩
  · exact h.still hhand rfl rfl rfl (fun _ => ⟨fun _ he => he, fun _ he => he⟩) (Or.inl rfl)
      h.running

theorem Guarded.adopt (hhand : w.hand = none) {machine : SessionMachine}
    (hended : w.object.disk.store.cached = none → isTerminal machine.state = true) :
    Guarded ⟨(JournaledQueue.step sessionObject w.object (.poke (.adopt machine))).1, w.due, none,
      w.owed⟩ := by
  have hkeep : ∀ t : ObjectState, t.disk.store = w.object.disk.store → t.toDo = w.object.toDo →
      t.disk.toReduce = w.object.disk.toReduce → t.disk.asked = w.object.disk.asked →
      t.Running → Guarded ⟨t, w.due, none, w.owed⟩ := by
    intro t hstore htoDo hreduce hasked hrunning
    refine h.still hhand (by rw [hstore]) (by rw [hstore]) (by rw [hstore]; rfl) (fun _ => ?_)
      (Or.inl hasked) hrunning
    rw [htoDo, hreduce]
    exact ⟨fun _ he => he, fun _ he => he⟩
  rw [JournaledQueue.step]
  split_ifs with hidle
  · have htoDo : ∀ store : ObjectStore,
        JournaledQueue.State.toDo ⟨{ w.object.disk with store := store }, .idle⟩ =
          w.object.toDo := by
      intro store
      unfold JournaledQueue.State.toDo
      rw [JournaledQueue.Pc.eq_idle hidle]
    have hrunning : ∀ store : ObjectStore,
        JournaledQueue.State.Running ⟨{ w.object.disk with store := store }, .idle⟩ :=
      fun store cursor effect hpc => by cases hpc
    cases hcached : w.object.disk.store.cached with
    | some m =>
      refine hkeep _ ?_ (htoDo _) rfl rfl (hrunning _)
      show w.object.disk.store.poke (.adopt machine) = _
      rw [ObjectStore.poke, hcached]
    | none =>
      have hsave : w.object.disk.store.poke (.adopt machine) =
          w.object.disk.store.save machine := by rw [ObjectStore.poke, hcached]
      have hnear : ¬PurgeNear w := by
        intro hpurge
        obtain ⟨⟨m, hm, _⟩, -⟩ := h.purge hpurge
        rw [hcached] at hm
        cases hm
      show Guarded ⟨⟨{ w.object.disk with
        store := w.object.disk.store.poke (.adopt machine) }, .idle⟩, w.due, none, w.owed⟩
      rw [hsave]
      refine ⟨fun hlive => hlive, ?_, h.keeps, ?_, fun slot hslot => (by cases hslot),
        hrunning _⟩
      · rintro ⟨m, hm, hlive⟩
        obtain rfl : machine = m := Option.some.inj hm
        rw [hended hcached] at hlive
        cases hlive
      · rintro (htab | hdue | hhas | hask)
        · exact absurd (Or.inl htab) hnear
        · exact absurd (Or.inr (Or.inl hdue)) hnear
        · cases hhas
        · exact absurd (Or.inr (Or.inr (Or.inr hask))) hnear
  · exact hkeep w.object rfl rfl rfl rfl h.running

theorem Guarded.clear {due : List AlarmKind} (hhand : w.hand = none)
    (hready : w.object.ready = true) (hdue : w.due = slot :: due) :
    Guarded { w.step (.poke (.clearSlot slot)) with due := due, hand := some slot } := by
  have hidle : w.object.pc.isIdle = true := (Bool.and_eq_true_iff.1 hready).1
  have hstep : (JournaledQueue.step sessionObject w.object (.poke (.clearSlot slot))).1 =
      ⟨{ w.object.disk with store := w.object.disk.store.poke (.clearSlot slot) }, .idle⟩ := by
    rw [JournaledQueue.step, if_pos hidle]
    rfl
  have hother : ∀ other, other ≠ slot →
      (w.step (.poke (.clearSlot slot))).table other = w.table other := by
    intro other hne
    rw [AlarmObject.table, AlarmObject.step, hstep]
    exact Function.update_of_ne hne _ _
  have hself : (w.step (.poke (.clearSlot slot))).table slot = none := by
    rw [AlarmObject.table, AlarmObject.step, hstep]
    exact Function.update_self ..
  have hasked := (JournaledQueue.State.toDo_of_ready hready).2.2
  refine ⟨?_, fun hlive => ?_, ?_, ?_, fun other _ => ?_, fun cursor effect hpc => ?_⟩
  · rw [AlarmObject.step, hstep]
    exact h.stored
  · rw [AlarmObject.step, hstep] at hlive
    rcases h.armed hready hlive with htab | hhas
    · by_cases hslot : slot = .janitor
      · exact Or.inr (Or.inl (congrArg some hslot))
      · refine Or.inl ?_
        show (w.step (.poke (.clearSlot slot))).table .janitor ≠ none
        rw [hother .janitor (Ne.symm hslot)]
        exact htab
    · rw [hhand] at hhas
      cases hhas
  · rw [AlarmObject.step, hstep]
    exact h.keeps
  · have hended : PurgeNear w → Ended (w.step (.poke (.clearSlot slot))).object.disk.store.cached ∧
        Ended (w.step (.poke (.clearSlot slot))).object.disk.store.persisted := by
      rw [AlarmObject.step, hstep]
      exact h.purge
    rintro (htab | hin | hhas | ⟨atMs, hask⟩)
    · refine hended (Or.inl ?_)
      rw [← hother .purge]
      · exact htab
      · rintro rfl
        exact htab hself
    · exact hended (Or.inr (Or.inl (by rw [hdue]; exact List.mem_cons_of_mem _ hin)))
    · obtain rfl : slot = .purge := Option.some.inj hhas
      exact hended (Or.inr (Or.inl (by rw [hdue]; exact List.mem_cons_self ..)))
    · refine hended (Or.inr (Or.inr (Or.inr ⟨atMs, ?_⟩)))
      rw [AlarmObject.step, hstep] at hask
      exact hask
  · rw [AlarmObject.step, hstep]
    exact (Bool.and_eq_true_iff.1 hready).2
  · rw [AlarmObject.step, hstep] at hpc
    cases hpc

/-- **The slot in hand is fired**: the janitor's event is put on the journal; the purge finds a
call that has ended. -/
theorem Guarded.fire (unreachableUserIds : List String)
    (hhand : w.hand = some slot) : Guarded (w.fire slot unreachableUserIds) := by
  have hready := h.held slot hhand
  obtain ⟨htoDo, hreduce, hasked⟩ := JournaledQueue.State.toDo_of_ready hready
  unfold AlarmObject.fire
  split
  · rename_i hpurge
    obtain rfl : slot = .purge := by cases slot <;> first | rfl | cases hpurge
    refine ⟨?_, fun hlive => ?_, within_nil, ?_, fun _ hslot => (by cases hslot),
      fun _ _ hpc => (by cases hpc)⟩
    · rintro ⟨m, hm, _⟩
      cases hm
    · exact absurd hlive (h.purge (Or.inr (Or.inr (Or.inl hhand)))).1.not_live
    · rintro (htab | hdue | hhas | ⟨atMs, hask⟩)
      · exact absurd rfl htab
      · cases hdue
      · cases hhas
      · cases hask
  · rename_i event hevent
    have hpurge : w.table .purge ≠ none ∨ .purge ∈ w.due →
        Ended w.object.disk.store.cached ∧ Ended w.object.disk.store.persisted := h.ended
    split_ifs with hcached
    · refine ⟨h.stored, ?_, h.keeps, ?_, fun _ hslot => (by cases hslot), h.running⟩
      · rintro ⟨m, hm, _⟩
        rw [Option.isNone_iff_eq_none.1 hcached] at hm
        cases hm
      · rintro (htab | hdue | hhas | hask)
        · exact hpurge (Or.inl htab)
        · exact hpurge (Or.inr hdue)
        · cases hhas
        · exact h.purge (Or.inr (Or.inr (Or.inr hask)))
    · have hadmitted : JournaledQueue.step sessionObject w.object (.admitEvent none event) =
          (⟨w.object.disk.accept SEEN_CAP none event, .arm⟩, [.admitted none event]) := by
        rw [JournaledQueue.step, if_pos]
        · rfl
        · rw [hready]
          rfl
      rw [hadmitted]
      refine ⟨h.stored, fun hlive => ?_, within_nil, ?_, fun _ hslot => (by cases hslot),
        fun _ _ hpc => (by cases hpc)⟩
      · rcases h.armed hready hlive with htab | hhas
        · exact Or.inl htab
        · obtain rfl : slot = .janitor := Option.some.inj (hhand.symm.trans hhas)
          obtain rfl : event = .alarmJanitor := (Option.some.inj hevent).symm
          exact Or.inr (Or.inr (Or.inr rfl))
      · rintro (htab | hdue | hhas | ⟨_, hask⟩)
        · exact hpurge (Or.inl htab)
        · exact hpurge (Or.inr hdue)
        · cases hhas
        · cases hask

/-- **A crash** with the janitor out of the hand loses nothing of it. -/
theorem Guarded.crash (hhand : w.hand ≠ some .janitor) :
    Guarded { w.step .crash with due := [], hand := none } where
  stored := fun hlive => hlive
  coming := by
    intro hlive
    rcases h.coming (h.stored hlive) with htab | hhas | ⟨atMs, htodo⟩ | hnext
    · exact Or.inl htab
    · exact absurd hhas hhand
    · exact Or.inr (Or.inr (Or.inl ⟨atMs, w.object.toDo_restart _ htodo⟩))
    · exact Or.inr (Or.inr (Or.inr hnext))
  keeps := h.keeps
  purge := by
    have hboth : PurgeNear w → Ended w.object.disk.store.persisted ∧
        Ended w.object.disk.store.persisted := fun hnear => ⟨(h.purge hnear).2, (h.purge hnear).2⟩
    rintro (htab | hdue | hhas | hask)
    · exact hboth (Or.inl htab)
    · cases hdue
    · cases hhas
    · exact hboth (Or.inr (Or.inr (Or.inr hask)))
  held := fun _ hslot => by cases hslot
  running := fun _ _ hpc => by cases hpc

end

theorem step_eq (hhand : w.hand = none) (a : ObjectAction) :
    w.step a = ⟨(JournaledQueue.step sessionObject w.object a).1, w.due, none, w.owed⟩ := by
  rw [AlarmObject.step, hhand]

/-- **Every step but an adoption of a live call and a crash with the janitor in hand** keeps the
janitor of a live call coming. -/
theorem Guarded.next (h : Guarded w) {a : AlarmAction} (ha : KeepsBackstop w a) :
    Guarded (w.next a) := by
  cases a with
  | admitEvent id event =>
    rw [AlarmObject.next]
    split_ifs with hbusy
    · exact h
    · have hhand := hand_of_not_firing hbusy
      rw [step_eq hhand]
      exact h.admitEvent hhand id event w.owed
  | adopt machine =>
    rw [AlarmObject.next]
    split_ifs with hbusy
    · exact h
    · have hhand := hand_of_not_firing hbusy
      rw [step_eq hhand]
      exact h.adopt hhand ha
  | resume =>
    rw [AlarmObject.next]
    split_ifs with hbusy
    · exact h
    · have hhand : w.hand = none := by simpa using hbusy
      rw [step_eq hhand, JournaledQueue.step]
      split_ifs with hidle
      · have hpc := JournaledQueue.Pc.eq_idle (Bool.and_eq_true_iff.1 hidle).1
        refine h.still hhand rfl rfl rfl (fun _ => ⟨fun e he => ?_, fun _ he => he⟩)
          (Or.inl rfl) fun _ _ hpc => (by cases hpc)
        rw [JournaledQueue.State.toDo, hpc] at he
        exact he
      · exact h.still hhand rfl rfl rfl (fun _ => ⟨fun _ he => he, fun _ he => he⟩)
          (Or.inl rfl) h.running
  | tick c answers =>
    rw [AlarmObject.next]
    split_ifs with hbusy
    · exact h
    · have hhand : w.hand = none := by simpa using hbusy
      rw [step_eq hhand]
      exact h.tick hhand c answers _
  | wake nowMs =>
    rw [AlarmObject.next]
    split_ifs
    · exact h
    · refine ⟨h.stored, h.coming, h.keeps, ?_, h.held, h.running⟩
      rintro (htab | hdue | hhas | hask)
      · exact h.purge (Or.inl htab)
      · exact h.purge (Or.inl (mem_dueSlots hdue))
      · exact h.purge (Or.inr (Or.inr (Or.inl hhas)))
      · exact h.purge (Or.inr (Or.inr (Or.inr hask)))
  | clear =>
    rw [AlarmObject.next]
    split
    · rename_i slot due hdue
      split_ifs with hbusy
      · exact h
      · simp only [Bool.or_eq_true, not_or, Bool.not_eq_true, Bool.not_eq_false'] at hbusy
        exact h.clear (by simpa using hbusy.1) (by simpa using hbusy.2) hdue
    · exact h
  | fire unreachableUserIds =>
    rw [AlarmObject.next]
    split
    · rename_i slot hhand
      exact h.fire unreachableUserIds hhand
    · exact h
  | fail =>
    rw [AlarmObject.next]
    split_ifs with hhand
    · refine ⟨h.stored, fun hlive => ?_, h.keeps, ?_, fun _ hslot => (by cases hslot),
        h.running⟩
      · rcases h.coming hlive with htab | hhas | hrest
        · exact Or.inl htab
        · rw [hhand] at hhas
          cases hhas
        · exact Or.inr (Or.inr hrest)
      · rintro (htab | hdue | hhas | hask)
        · exact h.purge (Or.inl htab)
        · cases hdue
        · cases hhas
        · exact h.purge (Or.inr (Or.inr (Or.inr hask)))
    · exact h
  | crash => exact h.crash ha

/-! ### The backstop -/

/-- **A live call at rest is backstopped**: its janitor is armed, and due once its time has come. -/
def Backstopped (w : AlarmObject) : Prop :=
  w.object.ready = true → w.hand = none → ∀ m, w.object.disk.store.persisted = some m →
    isTerminal m.state = false → ∃ atMs, w.table .janitor = some atMs ∧
      ∀ nowMs, atMs ≤ nowMs → .janitor ∈ dueSlots w.table nowMs

theorem Guarded.backstopped (h : Guarded w) : Backstopped w := by
  intro hready hhand m hm hlive
  have harmed : w.table .janitor ≠ none := by
    rcases h.armed hready (h.stored ⟨m, hm, hlive⟩) with htab | hhas
    · exact htab
    · rw [hhand] at hhas
      cases hhas
  obtain ⟨atMs, hatMs⟩ := Option.ne_none_iff_exists'.1 harmed
  refine ⟨atMs, hatMs, fun nowMs hdue => List.mem_filter.2 ⟨by simp [alarmOrder], ?_⟩⟩
  rw [hatMs]
  simpa using by omega

theorem guarded_start : Guarded .start := by
  refine ⟨?_, ?_, within_nil, ?_, fun _ hslot => (by cases hslot), fun _ _ hpc => (by cases hpc)⟩
  · rintro ⟨m, hm, _⟩
    cases hm
  · rintro ⟨m, hm, _⟩
    cases hm
  · rintro (htab | hdue | hhas | ⟨_, hask⟩)
    · exact absurd rfl htab
    · cases hdue
    · cases hhas
    · cases hask

def AlarmObject.adopted (row : AdoptionRow) (raw : Option TelnyxEvent) : AlarmObject :=
  AlarmObject.start.next (.adopt (reconstructMachine row raw))

/-- Adoption arms nothing, so the adopted call is backstopped only when it has ended. -/
theorem adopted_backstopped_iff (row : AdoptionRow) (raw : Option TelnyxEvent) :
    Backstopped (.adopted row raw) ↔ row.outcome.isSome = true := by
  rw [← reconstructMachine_terminal_iff row raw]
  constructor
  · intro h
    by_contra hlive
    obtain ⟨atMs, harmed, _⟩ := h rfl rfl _ rfl (by simpa using hlive)
    cases harmed
  · intro hended _ _ m hm hlive
    obtain rfl : reconstructMachine row raw = m := Option.some.inj hm
    rw [hended] at hlive
    cases hlive

/-- **The backstop.**  Along every run in which no live call is adopted and no crash falls while
the janitor is in the handler's hand, a live call at rest has its janitor armed, whose event ends a
call in any state; and a call that has just been adopted is backstopped exactly when it has ended.
-/
theorem live_call_backstopped {actions : List AlarmAction}
    (hrun : Reactive.Along alarmStep KeepsBackstop .start actions) :
    Backstopped (Reactive.final alarmStep .start actions) ∧
      (∀ (m : SessionMachine) (i : Input), i.event = .alarmJanitor →
        isTerminal (machineStep m i).1.state = true) ∧
      ∀ (row : AdoptionRow) (raw : Option TelnyxEvent),
        Backstopped (.adopted row raw) ↔ row.outcome.isSome = true := by
  have hguarded : Guarded (Reactive.final alarmStep .start actions) :=
    Reactive.final_of_inv_along alarmStep (P := Guarded) (C := KeepsBackstop)
      (fun w a h ha => h.next ha) guarded_start hrun
  exact ⟨hguarded.backstopped, fun _ _ => janitor_terminal, adopted_backstopped_iff⟩

def mintedCall : List AlarmAction :=
  .admitEvent none (.initiated crewOfOne) ::
    List.replicate 30 (.tick ⟨0, 0, fun _ => "key"⟩ willing)

/-- The minted call rings with its janitor armed. -/
theorem mintedCall_backstopped : Backstopped (Reactive.final alarmStep .start mintedCall) := by
  refine (live_call_backstopped ?_).1
  rw [mintedCall, Reactive.along_iff_prefix]
  intro js a ks hsplit
  have hmem : a ∈ AlarmAction.admitEvent none (.initiated crewOfOne) ::
      List.replicate 30 (.tick ⟨0, 0, fun _ => "key"⟩ willing) := by
    rw [hsplit]
    exact List.mem_append_right _ (List.mem_cons_self ..)
  rcases List.mem_cons.1 hmem with rfl | hmem
  · trivial
  · rw [List.eq_of_mem_replicate hmem]
    trivial

def ringingRow : AdoptionRow where
  callSessionId := "session"
  companyId := "company"
  phoneNumberId := some "number"
  callerE164 := some "+15550001111"
  outcome := none
  answeredAt := none
  answeredByUserId := none
  startedAtMs := 0
  customerCallControlId := some "customer"
  direction := some "inbound"
  companyName := "Crew of one"
  greeting := none
  businessNumberE164 := some "+15550002222"
  ledgerLegs := [⟨"ana-leg", "ana", "ringing"⟩]

/-- Adopted, it rings on with no alarm armed at all. -/
theorem adopted_call_unarmed :
    (AlarmObject.adopted ringingRow none).object.disk.store.persisted.map SessionMachine.state =
        some .ringing ∧
      (AlarmObject.adopted ringingRow none).object.ready = true ∧
      (AlarmObject.adopted ringingRow none).hand = none ∧
      (∀ slot, (AlarmObject.adopted ringingRow none).table slot = none) ∧
      ¬Backstopped (.adopted ringingRow none) := by
  refine ⟨rfl, rfl, rfl, fun _ => rfl, ?_⟩
  rw [adopted_backstopped_iff]
  exact Bool.false_ne_true

end Calls
