/-
**The database decides as the specification of the merge does.**

`api_apply_calendar_provider_snapshot` and `resolveCalendarSync` are two accounts of one three-way
merge, with their branches in different orders: the database takes up an observed change before it
asks whether ours is to be pushed, and settles an agreement last.  They come to the same, and what
was sent last, which every function of the migration keeps at the common base or at nothing, is why
the echo of a superseded write pushes ours against that base.

Main result:

* `CalendarMerge.merge_of_run` — **the correspondence, in every state that a run leads to**, with
  what is overwritten, what is pushed, and that a second such observation changes nothing.
-/

import Texturion.CalendarRuns

namespace CalendarMerge

open CalendarSync CalendarRows CalendarHooks CalendarCommits CalendarInbound CalendarRuns Fallible

/-- Which outcome of the database is which decision of the merge. -/
inductive Corresponds (ours theirs : Snapshot) : Outcome → Decision → Prop
  | providerApplied : Corresponds ours theirs .providerApplied (.applyTheirs theirs)
  | pushQueued (reason : PushReason) :
      Corresponds ours theirs .pushQueued (.pushOurs reason ours)
  | echo (reason : NoopReason) : Corresponds ours theirs .echo (.noop reason theirs)
  | converged (reason : NoopReason) : Corresponds ours theirs .converged (.noop reason theirs)
  | conflict (reason : ConflictReason) (base : Option Snapshot) :
      Corresponds ours theirs .conflict (.conflict reason base ours theirs)

variable (x : Text)

/-- What the decision is about: the worker's lease is current, the observation is one of the event
of the link and can be stored, and the task is on the calendar, with no write in doubt. -/
structure Observed (now : ℤ) (proof : LeaseProof) (obs : Observation) (s : Rows) (l : Link)
    (ours theirs : Snapshot) : Prop where
  lease : mutationLease now proof s = none
  link : s.link = some l
  state : l.state ≠ .unlinked
  event : l.eventId = obs.eventId ∧ l.instanceId = obs.instanceId ∧ l.seriesId = obs.seriesId
  eligible : s.eligible now = true
  undoubted : ∀ o, s.live = some o → o.ambiguous = false
  storable : unstorable x now obs = none
  title : 0 < obs.title.length ∧ obs.title.length ≤ 500
  ours : taskSnapshot x s.task (some l.base) s.connection.timezone = some (some ours)
  theirs : observedSnapshot x obs l.base = some theirs

/-! ### Snapshots against themselves -/

variable {x} {b r : Snapshot} {fallback : String}

theorem taskSnapshot_eq_some {t : Task}
    (h : taskSnapshot x t (some b) fallback = some (some r)) : ∃ due, t.dueAt = some due ∧
      snapshotFromFields x due (due + (b.endAt - b.start)) b.timeZone t.title t.description =
        some r := by
  unfold taskSnapshot at h
  split at h
  · simp at h
  · next due hdue =>
      obtain ⟨r', hr, h⟩ := Option.map_eq_some_iff.1 h
      obtain rfl := Option.some.inj h
      exact ⟨due, hdue, hr⟩

/-- A task's snapshot is its snapshot against itself: the reference gives a duration and a zone. -/
theorem taskSnapshot_self {t : Task} (h : taskSnapshot x t (some b) fallback = some (some r)) :
    taskSnapshot x t (some r) fallback = some (some r) := by
  obtain ⟨due, hdue, hr⟩ := taskSnapshot_eq_some h
  obtain ⟨-, hstart, hend, hzone, -, hhash⟩ := snapshotFromFields_eq_some x hr
  refine @taskSnapshot_of_snapshot x _ b.timeZone t.description _ _ ?_ ?_ hhash
  · rw [hdue, hstart]
  · rw [hstart, hend]
    exact hr

theorem observedSnapshot_fields {obs : Observation} (h : observedSnapshot x obs b = some r) : ∃ d,
      snapshotFromFields x obs.start obs.endAt obs.zone obs.title
          (if obs.preserveDescription then "" else obs.description) = some d ∧
        r = if obs.preserveDescription then { d with descriptionHash := b.descriptionHash }
          else d := by
  obtain ⟨d, hd, h⟩ := Option.bind_eq_some_iff.1 h
  exact ⟨d, hd, (Option.some.inj h).symm⟩

theorem observedSnapshot_self {obs : Observation}
    (h : observedSnapshot x obs b = some r) : observedSnapshot x obs r = some r := by
  obtain ⟨d, hd, rfl⟩ := observedSnapshot_fields h
  unfold observedSnapshot
  rw [hd]
  cases obs.preserveDescription <;> rfl

theorem observedSnapshot_start {obs : Observation}
    (h : observedSnapshot x obs b = some r) : r.start = obs.start := by
  obtain ⟨d, hd, rfl⟩ := observedSnapshot_fields h
  obtain ⟨-, hstart, -⟩ := snapshotFromFields_eq_some x hd
  split <;> exact hstart

/-- **The task that has taken an observation over has its snapshot.**  Where the description is
preserved, that is the one of the task, whose hash is the base's. -/
theorem taskSnapshot_overwritten {obs : Observation} {b theirs : Snapshot} {s u : Rows}
    (hours : taskSnapshot x s.task (some b) fallback = some (some b))
    (htheirs : observedSnapshot x obs b = some theirs) (h : overwriteTask obs s = some u) :
    taskSnapshot x u.task (some theirs) fallback = some (some theirs) := by
  obtain ⟨d, hd, rfl⟩ := observedSnapshot_fields htheirs
  obtain ⟨-, hstart, hend, hzone, htitle, hhash⟩ := snapshotFromFields_eq_some x hd
  obtain ⟨due, hdue, hb⟩ := taskSnapshot_eq_some hours
  obtain ⟨-, -, -, -, -, hbhash⟩ := snapshotFromFields_eq_some x hb
  unfold overwriteTask at h
  split at h
  · simp at h
  obtain rfl := Option.some.inj h
  cases hp : obs.preserveDescription with
  | true =>
      simp only [hp, if_true] at hd ⊢
      refine @taskSnapshot_of_snapshot x _ obs.zone s.task.description _ _
        (by rw [hstart]) ?_ hbhash
      rw [hstart, hend, snapshotFromFields_description x hd, ← hbhash, hstart, hend]
  | false =>
      simp only [hp, Bool.false_eq_true, if_false] at hd hhash ⊢
      refine @taskSnapshot_of_snapshot x _ obs.zone obs.description _ _
        (by rw [hstart]) ?_ hhash
      rw [hstart, hend]
      exact hd

theorem overwriteTask_rest {obs : Observation} {s u : Rows} (h : overwriteTask obs s = some u) :
    u.task.deleted = s.task.deleted ∧ u.task.assignedUserId = s.task.assignedUserId := by
  unfold overwriteTask at h
  split at h
  · simp at h
  · obtain rfl := Option.some.inj h
    exact ⟨rfl, rfl⟩

/-! ### The branches -/

section
variable {now : ℤ} {proof : LeaseProof} {obs : Observation} {s s' : Rows} {outcome : Outcome}
  {l : Link} {ours theirs : Snapshot}

/-- **The branches of the database are those of the merge.** -/
theorem weigh_corresponds (h : weigh now proof obs l ours theirs s = some (s', outcome)) :
    Corresponds ours theirs outcome
      (resolveCalendarSync (some l.base) ours (.scheduled theirs) l.lastSent) := by
  simp only [weigh, resolveCalendarSync, resolveBase] at h ⊢
  by_cases hsent : l.lastSent = some theirs
  · rw [if_pos hsent] at h ⊢
    by_cases hours : ours = theirs
    · rw [if_pos hours] at h ⊢
      obtain ⟨-, rfl⟩ := Prod.mk.inj (Option.some.inj h)
      exact .echo _
    · rw [if_neg hours] at h ⊢
      obtain ⟨-, rfl⟩ := Prod.mk.inj (Option.some.inj h)
      exact .pushQueued _
  rw [if_neg hsent] at h ⊢
  by_cases htheirs : theirs = l.base
  · by_cases hours : ours = l.base
    · -- nothing has moved: the database calls it an agreement
      simp only [htheirs, hours, ne_eq, not_true_eq_false, and_false, if_false, if_true,
        and_self] at h ⊢
      obtain ⟨-, rfl⟩ := Prod.mk.inj (Option.some.inj h)
      exact .converged _
    · simp only [htheirs, hours, ne_eq, not_true_eq_false, and_false, if_false, not_false_eq_true,
        and_true, if_true] at h ⊢
      obtain ⟨-, rfl⟩ := Prod.mk.inj (Option.some.inj h)
      exact .pushQueued _
  · by_cases hours : ours = l.base
    · simp only [htheirs, hours, ne_eq, not_false_eq_true, and_true, if_true, and_false,
        if_false] at h ⊢
      obtain ⟨u, -, h⟩ := Option.bind_eq_some_iff.1 h
      obtain ⟨-, rfl⟩ := Prod.mk.inj (Option.some.inj h)
      exact .providerApplied
    · simp only [htheirs, hours, false_and, if_false] at h ⊢
      by_cases hagree : ours = theirs
      · rw [if_pos hagree] at h ⊢
        obtain ⟨-, rfl⟩ := Prod.mk.inj (Option.some.inj h)
        exact .converged _
      · rw [if_neg hagree] at h ⊢
        obtain ⟨-, rfl⟩ := Prod.mk.inj (Option.some.inj h)
        exact .conflict _ _

/-- The decision raises only where the column of the title does not take the one observed. -/
theorem weigh_total (htitle : 0 < obs.title.length ∧ obs.title.length ≤ 500) :
    ∃ r, weigh now proof obs l ours theirs s = some r := by
  have hover : ∃ u, overwriteTask obs s = some u := by
    unfold overwriteTask
    rw [if_neg (by omega)]
    exact ⟨_, rfl⟩
  obtain ⟨u, hu⟩ := hover
  unfold weigh
  simp only [hu]
  split_ifs <;> exact ⟨_, rfl⟩

/-- What the three outcomes that settle a link leave: the observation is the base, no row is live,
and the task has those values, or has them now. -/
theorem weigh_settled (h : weigh now proof obs l ours theirs s = some (s', outcome))
    (hout : outcome = .providerApplied ∨ outcome = .converged ∨ outcome = .echo) :
    s'.link = some (settledLink l obs.version theirs) ∧ s'.live = none ∧
      s'.connection = s.connection ∧ s'.access = s.access ∧
      (ours = theirs ∧ s'.task = s.task ∨
        ours = l.base ∧ ∃ u, overwriteTask obs s = some u ∧ s'.task = u.task) := by
  unfold weigh at h
  split at h
  · dsimp only at h
    split at h
    · next hours =>
        obtain rfl := left_eq h
        exact ⟨rfl, rfl, rfl, rfl, .inl ⟨hours, rfl⟩⟩
    · obtain ⟨-, rfl⟩ := Prod.mk.inj (Option.some.inj h)
      simp at hout
  split at h
  · next hours =>
      obtain ⟨u, hu, h⟩ := Option.bind_eq_some_iff.1 h
      obtain rfl := left_eq h
      obtain ⟨-, -, haccess, hconn⟩ := overwriteTask_link hu
      exact ⟨rfl, rfl, hconn, haccess, .inr ⟨hours.1, u, hu, rfl⟩⟩
  split at h
  · obtain ⟨-, rfl⟩ := Prod.mk.inj (Option.some.inj h)
    simp at hout
  split at h
  · next hours =>
      obtain rfl := left_eq h
      exact ⟨rfl, rfl, rfl, rfl, .inl ⟨hours, rfl⟩⟩
  · obtain ⟨-, rfl⟩ := Prod.mk.inj (Option.some.inj h)
    simp at hout

/-- Only a taken-over observation writes the task: ours has not moved, and theirs is neither the
base nor what was sent last. -/
theorem weigh_task (h : weigh now proof obs l ours theirs s = some (s', outcome))
    (htask : s'.task ≠ s.task) :
    outcome = .providerApplied ∧ l.lastSent ≠ some theirs ∧ ours = l.base ∧ theirs ≠ l.base := by
  unfold weigh at h
  split at h
  · dsimp only at h
    split at h
    · obtain rfl := left_eq h
      exact absurd rfl htask
    · obtain rfl := left_eq h
      exact absurd (outboxOnly_enqueuePush now proof obs.version ours _).task htask
  next hsent =>
  split at h
  · next hours =>
      obtain ⟨u, -, h⟩ := Option.bind_eq_some_iff.1 h
      exact ⟨(Prod.mk.inj (Option.some.inj h)).2.symm, hsent, hours⟩
  split at h
  · obtain rfl := left_eq h
    exact absurd (outboxOnly_enqueuePush now proof obs.version ours _).task htask
  split at h <;>
    · obtain rfl := left_eq h
      exact absurd rfl htask

/-! ### The whole function -/

theorem not_unwanted {s : Rows} {now : ℤ} {l : Link} (h : s.eligible now = true) :
    unwanted now l s = false := by
  simp only [Rows.eligible, decide_eq_true_eq, Bool.not_eq_true] at h
  obtain ⟨hdeleted, hdue, hassigned, haccess⟩ := h
  cases hd : s.task.dueAt with
  | none => simp [hd] at hdue
  | some due =>
      have hwindow : inSyncWindow now due = true := by simpa [hd] using hdue
      simp [unwanted, hdeleted, hassigned, haccess, hd, hwindow]

theorem apply_of_observed (h : Observed x now proof obs s l ours theirs) :
    applyProviderSnapshot x now proof obs s = weigh now proof obs l ours theirs s := by
  have hrecovered : recovered theirs s = false := by
    unfold recovered
    cases hlive : s.live with
    | none => rfl
    | some o => simp [h.undoubted o hlive]
  unfold applyProviderSnapshot
  simp only [h.lease, h.link]
  rw [if_neg (by simp [h.state, h.event.1, h.event.2.1, h.event.2.2]),
    if_neg (by simp [not_unwanted h.eligible])]
  simp only [h.storable, h.ours, h.theirs, Option.bind_eq_bind, Option.bind_some, hrecovered,
    Bool.false_eq_true, if_false]

theorem unstorable_later {now' : ℤ} (h : unstorable x now obs = none)
    (hw : inSyncWindow now' obs.start = true) : unstorable x now' obs = none := by
  unfold unstorable at h ⊢
  split at h
  · simp at h
  · rw [if_neg (by simpa using hw)]
    exact h

/-- **An observation that agrees with task and base settles nothing further**: under any lease, at
any time that the window of the event covers, task and outbox stay as they are. -/
theorem apply_of_agreement {s : Rows} {l : Link} {theirs : Snapshot} {now : ℤ}
    {proof : LeaseProof} {obs : Observation} (hlink : s.link = some l) (hstate : l.state ≠ .unlinked)
    (hevent : l.eventId = obs.eventId ∧ l.instanceId = obs.instanceId ∧ l.seriesId = obs.seriesId)
    (hbase : l.base = theirs) (hsent : l.lastSent = none) (hlive : s.live = none)
    (heligible : s.eligible now = true) (hstorable : unstorable x now obs = none)
    (htitle : 0 < obs.title.length ∧ obs.title.length ≤ 500)
    (hours : taskSnapshot x s.task (some theirs) s.connection.timezone = some (some theirs))
    (htheirs : observedSnapshot x obs theirs = some theirs) :
    ∃ s' outcome, applyProviderSnapshot x now proof obs s = some (s', outcome) ∧
      s'.task = s.task ∧ s'.live = s.live := by
  cases hlease : mutationLease now proof s with
  | some lost =>
      refine ⟨s, lost, ?_, rfl, rfl⟩
      unfold applyProviderSnapshot
      simp only [hlease]
  | none =>
      subst hbase
      have hobs : Observed x now proof obs s l l.base l.base :=
        { lease := hlease
          link := hlink
          state := hstate
          event := hevent
          eligible := heligible
          undoubted := fun o ho => by simp [hlive] at ho
          storable := hstorable
          title := htitle
          ours := hours
          theirs := htheirs }
      refine ⟨(s.setLink (settledLink l obs.version l.base)).endLive, .converged, ?_, rfl,
        hlive.symm⟩
      rw [apply_of_observed hobs]
      simp [weigh, hsent]

end

/-! ### Runs -/

variable (x)

/-- **The database is the merge**, in every state that a run leads to.  What was sent last is the
common base or nothing; an observation is decided as the merge decides; the task is overwritten
only where ours is the base, and a push is queued only where theirs is; and after an outcome that
settles the link a second observation of the same, under any lease and while the event is in the
window, changes neither the task nor the outbox. -/
theorem merge_of_run (task : Task) (userId : ℕ) (timezone : String) (access : Bool)
    (moves : List (ℤ × Move)) (s : Rows)
    (hs : s = Reactive.final (step x) (fresh task userId timezone access) moves) :
    (∀ l, s.link = some l → l.lastSent = none ∨ l.lastSent = some l.base) ∧
      ∀ now proof obs l ours theirs, Observed x now proof obs s l ours theirs →
        ∃ s' outcome, applyProviderSnapshot x now proof obs s = some (s', outcome) ∧
          Corresponds ours theirs outcome
            (resolveCalendarSync (some l.base) ours (.scheduled theirs) l.lastSent) ∧
          (s'.task ≠ s.task → ours = l.base) ∧
          (outcome = .pushQueued → theirs = l.base) ∧
          (outcome = .providerApplied ∨ outcome = .converged ∨ outcome = .echo →
            ∀ now' proof', inSyncWindow now' obs.start = true →
              ∃ t outcome', applyProviderSnapshot x now' proof' obs s' = some (t, outcome') ∧
                t.task = s'.task ∧ t.live = s'.live) := by
  have hagreed : Agreed s := hs ▸ lastSent_of_run x task userId timezone access moves
  refine ⟨hagreed, ?_⟩
  intro now proof obs l ours theirs h
  have htotal : ∃ r, weigh now proof obs l ours theirs s = some r := weigh_total h.title
  obtain ⟨⟨s', outcome⟩, hw⟩ := htotal
  have hcorr := weigh_corresponds hw
  have hlast := hagreed l h.link
  refine ⟨s', outcome, by rw [apply_of_observed h, hw], hcorr, ?_, ?_, ?_⟩
  · intro htask
    obtain ⟨rfl, -⟩ := weigh_task hw htask
    generalize hd : resolveCalendarSync (some l.base) ours (.scheduled theirs) l.lastSent = d
      at hcorr
    cases hcorr
    exact ((resolve_applyTheirs_iff hlast).1 hd).1
  · rintro rfl
    generalize hd : resolveCalendarSync (some l.base) ours (.scheduled theirs) l.lastSent = d
      at hcorr
    cases hcorr with
    | pushQueued reason => exact ((resolve_pushOurs_iff hlast).1 ⟨reason, hd⟩).1
  · intro hout now' proof' hwindow
    obtain ⟨hlink, hlive, hconn, haccess, htask⟩ := weigh_settled hw hout
    -- either way the task has the snapshot observed, and is on the calendar as before
    have hours : taskSnapshot x s'.task (some theirs) s'.connection.timezone =
        some (some theirs) := by
      rw [hconn]
      rcases htask with ⟨rfl, htask⟩ | ⟨rfl, u, hu, htask⟩
      · rw [htask]
        exact taskSnapshot_self h.ours
      · rw [htask]
        exact taskSnapshot_overwritten h.ours h.theirs hu
    have hdue : s'.task.dueAt = some obs.start := by
      obtain ⟨due, hdue, hr⟩ := taskSnapshot_eq_some hours
      obtain ⟨-, hstart, -⟩ := snapshotFromFields_eq_some x hr
      rw [hdue, ← hstart, observedSnapshot_start h.theirs]
    have hrest : s'.task.deleted = s.task.deleted ∧
        s'.task.assignedUserId = s.task.assignedUserId := by
      rcases htask with ⟨-, htask⟩ | ⟨-, u, hu, htask⟩
      · rw [htask]
        exact ⟨rfl, rfl⟩
      · rw [htask]
        exact overwriteTask_rest hu
    have heligible : s'.eligible now' = true := by
      have he := h.eligible
      simp only [Rows.eligible, decide_eq_true_eq, Bool.not_eq_true] at he ⊢
      rw [hrest.1, hrest.2, hdue, hconn, haccess]
      exact ⟨he.1, by simpa using hwindow, he.2.2.1, he.2.2.2⟩
    exact apply_of_agreement hlink (by simp [settledLink]) h.event rfl rfl hlive heligible
      (unstorable_later h.storable hwindow) h.title hours (observedSnapshot_self h.theirs)

def movedTwoHours : Observation where
  eventId := "event"
  instanceId := "event"
  seriesId := none
  version := some "v2"
  start := 3 * hour
  endAt := 4 * hour
  zone := "UTC"
  title := "Gutter repair"
  description := "Side gate"
  preserveDescription := false

theorem merge_of_run_moved : ∃ s' outcome,
    applyProviderSnapshot plain 4 (.pull 1 1) movedTwoHours (after []) = some (s', outcome) ∧
      Corresponds ⟨hour, 2 * hour, "UTC", "Gutter repair", "Side gate"⟩
        ⟨3 * hour, 4 * hour, "UTC", "Gutter repair", "Side gate"⟩ outcome
        (.applyTheirs ⟨3 * hour, 4 * hour, "UTC", "Gutter repair", "Side gate"⟩) := by
  have h := (merge_of_run plain visit 1 "UTC" true (mapped ++ []) (after []) rfl).2 4 (.pull 1 1)
    movedTwoHours
    { eventId := "event"
      instanceId := "event"
      seriesId := none
      version := some "v1"
      state := .active
      base := ⟨hour, 2 * hour, "UTC", "Gutter repair", "Side gate"⟩
      lastSent := some ⟨hour, 2 * hour, "UTC", "Gutter repair", "Side gate"⟩
      conflictOurs := none
      conflictTheirs := none
      eventRemovedAt := false
      refusalCode := none }
    ⟨hour, 2 * hour, "UTC", "Gutter repair", "Side gate"⟩
    ⟨3 * hour, 4 * hour, "UTC", "Gutter repair", "Side gate"⟩
    { lease := by decide +kernel
      link := by decide +kernel
      state := by decide
      event := by decide
      eligible := by decide +kernel
      undoubted := by decide +kernel
      storable := by decide +kernel
      title := by decide
      ours := by decide +kernel
      theirs := by decide +kernel }
  obtain ⟨s', outcome, happly, hcorr, -⟩ := h
  exact ⟨s', outcome, happly, hcorr⟩

end CalendarMerge
