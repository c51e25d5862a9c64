/-
**A scrub of what may not be seen any more.**

A task that the owner of a calendar may no longer see leaves a copy in that calendar, until a scrub
removes what it says.  The trigger of the access rules queues the scrub.  The live row is one for
each link, so that whatever rewrites it, ends it, or changes the link beside it answers for the
scrub: the row stays a scrub, or it is a write that may be on its way to the provider, and then the
scrub is queued when that is committed.

Main result:

* `CalendarScrub.covered_iff` — **while the connection stays active no scrub is forgotten, exactly in
  the runs without such a step**.
-/

import Texturion.CalendarRuns

namespace CalendarScrub

open CalendarSync CalendarRows CalendarHooks CalendarCommits CalendarInbound CalendarRuns Fallible

/-- The event is there, and the owner of the calendar may not see its task. -/
def Exposed (s : Rows) : Prop :=
  s.access = false ∧ ∃ l, s.link = some l ∧ l.state ≠ .unlinked ∧ l.state ≠ .eventRemoved

def Scrubbing (s : Rows) : Prop := ∃ o, s.live = some o ∧ o.action = .scrub

/-- Whatever the worker commits for the live row, a scrub is live afterwards. -/
structure Promised (x : Text) (s : Rows) : Prop where
  created : ∀ now t r s' outcome, commitCreated x now t r s = some (s', outcome) →
    outcome ≠ .leaseLost → Scrubbing s'
  sent : ∀ now t version fields s' outcome,
    commitSent x now t version fields s = some (s', outcome) → outcome ≠ .leaseLost → Scrubbing s'

/-- A scrub is live, or an ambiguous write whose commit queues one. -/
def Covered (x : Text) (s : Rows) : Prop :=
  Exposed s → ∃ o, s.live = some o ∧ (o.action = .scrub ∨ o.ambiguous = true ∧ Promised x s)

def Tracked (s : Rows) : Prop := ∃ o, s.live = some o ∧ (o.action = .scrub ∨ o.ambiguous = true)

/-- What the functions keep. -/
def Guarded (s : Rows) : Prop := Exposed s → Tracked s

/-- The steps that forget a scrub. -/
def Forgets (x : Text) (now : ℤ) (s : Rows) : Move → Prop
  | .markRefusal proof instanceId _ _ _ => s.access = false ∧ mutationLease now proof s = none ∧
      ∃ l, s.link = some l ∧ l.instanceId = instanceId ∧
        l.state ≠ .conflict ∧ l.state ≠ .unlinked
  | .markConflict worker generation _ _ _ => s.access = false ∧
      mutationLease now (.pull worker generation) s = none ∧ s.linkState = some .active
  | .cancel t => Exposed s ∧ ∃ o, s.live = some o ∧ leasedTo now t o = true ∧
      o.ambiguous = false ∧ o.generation = t.generation
  | .commitSent t _ (some f) => s.access = false ∧ s.link.isSome = true ∧
      (sentSnapshot x (some f)).isSome = true ∧
      ∃ o, s.live = some o ∧ leasedTo now t o = true ∧ o.action = .scrub
  | .retry t _ true => Exposed s ∧ ∃ o, s.live = some o ∧ leasedTo now t o = true ∧
      o.action ≠ .scrub ∧ o.effect = some o.leaseGeneration
  | _ => False

variable {x : Text} {now : ℤ} {s s' : Rows} {outcome : Outcome}

/-! ### Small steps -/

theorem eligible_of_no_access (h : s.access = false) (now : ℤ) : s.eligible now = false := by
  simp [Rows.eligible, h]

theorem guarded_of_access (h : s.access = true) : Guarded s := by
  intro hex
  rw [hex.1] at h
  cases h

theorem guarded_of_link {l : Link} (hl : s.link = some l)
    (h : l.state = .unlinked ∨ l.state = .eventRemoved) : Guarded s := by
  intro hex
  obtain ⟨-, l', hl', hunlinked, hremoved⟩ := hex
  obtain rfl := Option.some.inj (hl.symm.trans hl')
  rcases h with h | h
  · exact absurd h hunlinked
  · exact absurd h hremoved

theorem Exposed.of_same (hex : Exposed s) (haccess : s'.access = s.access)
    (hlink : s'.link = s.link) : Exposed s' := by
  refine ⟨haccess.trans hex.1, ?_⟩
  rw [hlink]
  exact hex.2

theorem Guarded.of_same (hs : Guarded s) (haccess : s'.access = s.access)
    (hlink : s'.link = s.link) (hlive : s'.live = s.live) : Guarded s' := by
  intro hex
  obtain ⟨o, ho, h⟩ := hs (hex.of_same haccess.symm hlink.symm)
  exact ⟨o, hlive.trans ho, h⟩

/-- The live row is written in place: it keeps its action, and stays ambiguous. -/
theorem Guarded.of_row (hs : Guarded s) {o o' : Outbox} (ho : s.live = some o)
    (haction : o'.action = o.action) (hamb : o.ambiguous = true → o'.ambiguous = true) :
    Guarded { s with live := some o' } := by
  intro hex
  have hex : Exposed s := hex
  obtain ⟨o₁, ho₁, h⟩ := hs hex
  obtain rfl := Option.some.inj (ho.symm.trans ho₁)
  refine ⟨o', rfl, ?_⟩
  rcases h with h | h
  · exact .inl (haction.trans h)
  · exact .inr (hamb h)

/-- The link is changed in place, and still says that the event is there. -/
theorem Guarded.of_setLink (hs : Guarded s) {l l' : Link} (hl : s.link = some l)
    (hl' : s'.link = some l') (haccess : s'.access = s.access) (hlive : s'.live = s.live)
    (hstate : l'.state = l.state) : Guarded s' := by
  intro hex
  obtain ⟨haccess', m, hm, hunlinked, hremoved⟩ := hex
  obtain rfl := Option.some.inj (hl'.symm.trans hm)
  obtain ⟨o, ho, h⟩ := hs
    ⟨haccess.symm.trans haccess', l, hl, hstate ▸ hunlinked, hstate ▸ hremoved⟩
  exact ⟨o, hlive.trans ho, h⟩

/-- A row that a scrub is written over is the scrub, unless it is an ambiguous write. -/
theorem rewrite_scrub (o : Outbox) (now : ℤ) (linked : Bool) (requested : Option Snapshot)
    (precondition : Option String) :
    (o.rewrite now linked .scrub requested precondition).action = .scrub ∨
      (o.rewrite now linked .scrub requested precondition).ambiguous = true := by
  cases hamb : o.ambiguous with
  | true => exact .inr (Outbox.rewrite_of_ambiguous hamb ..).2.2.2
  | false => exact .inl (Outbox.rewrite_of_not_ambiguous hamb ..).1

theorem tracked_enqueue (s : Rows) (now : ℤ) (linked : Bool) (requested : Option Snapshot)
    (precondition : Option String) :
    Tracked (s.enqueue now linked .scrub requested precondition) := by
  unfold Rows.enqueue
  split
  · exact ⟨_, rfl, .inl rfl⟩
  · next o _ => exact ⟨_, rfl, rewrite_scrub o now linked requested precondition⟩

variable {version : Option String} {t : Ticket} {proof : LeaseProof} {instanceId : String}

theorem scrubbing_followup {requested : Option Snapshot}
    (h : followup now s (some .scrub) requested version = some s') : Scrubbing s' := by
  simp only [followup, Rows.insertLive] at h
  split at h
  · simp at h
  · obtain rfl := Option.some.inj h
    exact ⟨_, rfl, rfl⟩

/-! ### The triggers -/

theorem tracked_enqueueMapped (hex : Exposed s) (hactive : s.active = true)
    (h : enqueueMapped x now s = some s') : Tracked s' := by
  obtain ⟨haccess, l, hl, hstate, -⟩ := hex
  have he := eligible_of_no_access haccess now
  have hstatus : s.connection.status ≠ .revoked := by
    intro hrevoked
    simp [Rows.active, hrevoked] at hactive
  unfold enqueueMapped at h
  rw [hl] at h
  dsimp only at h
  rw [if_pos ⟨hstate, .inr (by simp [he]), hstatus⟩, if_neg (by simp [he])] at h
  obtain rfl := Option.some.inj h
  rw [haccess]
  exact tracked_enqueue s now true none l.version

theorem guarded_editTask {task : Task} (hs : Guarded s) (hactive : s.active = true)
    (h : editTask x now task s = some (s', outcome)) : Guarded s' := by
  rcases editTask_cases h with rfl | h
  · exact hs
  intro hex
  obtain ⟨t, ht, h⟩ := Option.bind_eq_some_iff.1 h
  obtain ⟨u, hu, h⟩ := Option.bind_eq_some_iff.1 h
  have hbefore := (outboxOnly_dropIneligibleCreate now { s with task := task }).trans
    (outboxOnly_rebuildCreate x now ht)
  have hmapped := outboxOnly_enqueueMapped x now hu
  have hcreate := outboxOnly_enqueueCreate x now h
  have hu' : s' = u := by
    have he := eligible_of_no_access (hcreate.access.symm.trans hex.1) now
    simp only [enqueueCreate, he, Bool.false_eq_true, false_and, if_false] at h
    exact (Option.some.inj h).symm
  subst hu'
  have hactive : t.active = true := by
    unfold Rows.active
    rw [hbefore.connection]
    exact hactive
  exact tracked_enqueueMapped (hex.of_same hmapped.access.symm hmapped.link.symm) hactive hu

theorem guarded_enqueueCreate (hs : Guarded s) (h : enqueueCreate x now s = some s') :
    Guarded s' := by
  have honly := outboxOnly_enqueueCreate x now h
  cases haccess : s.access with
  | true => exact guarded_of_access (honly.access.trans haccess)
  | false =>
    have he := eligible_of_no_access haccess now
    simp only [enqueueCreate, he, Bool.false_eq_true, false_and, if_false] at h
    obtain rfl := Option.some.inj h
    exact hs

theorem guarded_changeAccess {allowed : Bool} (hactive : s.active = true)
    (h : changeAccess x now allowed s = some (s', outcome)) : Guarded s' := by
  have h := changeAccess_cases h
  have hstatus : s.connection.status = .active := by simpa [Rows.active] using hactive
  unfold reconcileNumberAccess at h
  split at h
  · split at h
    · next he =>
      have honly := outboxOnly_reconcileEligible x now h
      refine guarded_of_access (honly.access.trans ?_)
      simp only [Rows.eligible, decide_eq_true_eq] at he
      exact he.2.2.2
    · obtain rfl := Option.some.inj h
      have hdrop := outboxOnly_dropIneligibleCreate now { s with access := allowed }
      have hreauth : (dropIneligibleCreate now { s with access := allowed }).connection.status ≠
          .reauthRequired := by
        rw [hdrop.connection]
        simp [hstatus]
      simp only [reconcileIneligible, if_neg hreauth]
      intro hex
      have hclean := outboxOnly_enqueueCleanup now
        (if (dropIneligibleCreate now { s with access := allowed }).access then .unlink else .scrub)
        (dropIneligibleCreate now { s with access := allowed })
      obtain ⟨haccess, l, hl, hunlinked, -⟩ := hex.of_same hclean.access.symm hclean.link.symm
      simp only [enqueueCleanup, hl, if_neg hunlinked, haccess, Bool.false_eq_true, if_false]
      exact tracked_enqueue _ now true none l.version
  · next hnone =>
    -- a link that is there is looked at
    intro hex
    obtain rfl := Option.some.inj h
    obtain ⟨-, l, hl, -⟩ := hex
    have hl : s.link = some l := hl
    exact absurd ⟨.inl hstatus, .inr (.inl (by simp [hl]))⟩ hnone

/-! ### The outbox worker -/

/-- Without access, and of an active connection, whatever is committed queues a scrub behind it. -/
theorem promised_of_active (hactive : s.active = true) (haccess : s.access = false)
    (hrow : ∀ o, s.live = some o → o.action ≠ .scrub) : Promised x s := by
  have he := eligible_of_no_access haccess
  have hstatus : s.connection.status ≠ .disconnected := by
    intro hd
    simp [Rows.active, hd] at hactive
  constructor
  · intro now t r s' outcome h hlost
    rcases commitCreated_cases h with
      ⟨-, rfl⟩ | ⟨o, sent, requested, current, -, -, -, -, -, -, -,
        ⟨-, -, heligible, -⟩ | ⟨-, u, hu, rfl⟩⟩
    · exact absurd rfl hlost
    · rw [he now] at heligible
      cases heligible
    · have hfollow : createdFollowup now s sent requested current = some .scrub := by
        simp [createdFollowup, hstatus, haccess]
      rw [hfollow] at hu
      obtain ⟨o', ho', haction⟩ := scrubbing_followup hu
      exact ⟨o', (finalizeDisconnected_live u).trans ho', haction⟩
  · intro now t version fields s' outcome h hlost
    rcases commitSent_cases h with
      ⟨-, rfl⟩ | ⟨o, l, sent, current, u, ho, -, -, -, -, -, hu, rfl⟩
    · exact absurd rfl hlost
    · have hfollow : sentFollowup now s o sent current = some .scrub := by
        simp [sentFollowup, hstatus, haccess, hrow o ho]
      rw [hfollow] at hu
      obtain ⟨o', ho', haction⟩ := scrubbing_followup hu
      exact ⟨o', (finalizeDisconnected_live u).trans ho', haction⟩

section

variable (hs : Guarded s)
include hs

theorem Guarded.covered (hactive : s.active = true) : Covered x s := by
  intro hex
  obtain ⟨o, ho, h⟩ := hs hex
  refine ⟨o, ho, ?_⟩
  by_cases haction : o.action = .scrub
  · exact .inl haction
  · refine .inr ⟨h.resolve_left haction, promised_of_active hactive hex.1 ?_⟩
    intro o' ho'
    obtain rfl := Option.some.inj (ho.symm.trans ho')
    exact haction

theorem guarded_commitCreated {r : Remote} (hactive : s.active = true)
    (h : commitCreated x now t r s = some (s', outcome)) : Guarded s' := by
  rcases commitCreated_cases h with
    ⟨rfl, -⟩ | ⟨o, sent, requested, current, -, -, -, -, -, -, -,
      ⟨-, -, heligible, rfl⟩ | ⟨-, u, hu, rfl⟩⟩
  · exact hs
  · refine guarded_of_access ?_
    simp only [Rows.eligible, decide_eq_true_eq] at heligible
    exact heligible.2.2.2
  · intro hex
    have haccess : s.access = false := by
      have h := hex.1
      rwa [finalizeDisconnected_access, (outboxOnly_followup now hu).access] at h
    have hstatus : s.connection.status ≠ .disconnected := by
      intro hd
      simp [Rows.active, hd] at hactive
    have hfollow : createdFollowup now s sent requested current = some .scrub := by
      simp [createdFollowup, hstatus, haccess]
    rw [hfollow] at hu
    obtain ⟨o', ho', haction⟩ := scrubbing_followup hu
    exact ⟨o', (finalizeDisconnected_live u).trans ho', .inl haction⟩

theorem guarded_commitSent {fields : Option Sent} (hactive : s.active = true)
    (hnot : ¬Forgets x now s (.commitSent t version fields))
    (h : commitSent x now t version fields s = some (s', outcome)) : Guarded s' := by
  rcases commitSent_cases h with
    ⟨rfl, -⟩ | ⟨o, l, sent, current, u, ho, hleased, -, hl, hsent, -, hu, rfl⟩
  · exact hs
  intro hex
  have haccess : s.access = false := by
    have h := hex.1
    rwa [finalizeDisconnected_access, (outboxOnly_followup now hu).access] at h
  have hstatus : s.connection.status ≠ .disconnected := by
    intro hd
    simp [Rows.active, hd] at hactive
  by_cases haction : o.action = .scrub
  · cases fields with
    | none =>
      -- an unlink: the event is given up
      obtain rfl := Option.some.inj hsent
      obtain ⟨-, m, hm, hunlinked, -⟩ := hex
      rw [finalizeDisconnected_link, (outboxOnly_followup now hu).link] at hm
      obtain rfl := Option.some.inj hm
      exact absurd rfl hunlinked
    | some f =>
      refine absurd ⟨haccess, by simp [hl], ?_, o, ho, hleased, haction⟩ hnot
      rw [hsent]
      rfl
  · have hfollow : sentFollowup now s o sent current = some .scrub := by
      simp [sentFollowup, hstatus, haccess, haction]
    rw [hfollow] at hu
    obtain ⟨o', ho', hscrub⟩ := scrubbing_followup hu
    exact ⟨o', (finalizeDisconnected_live u).trans ho', .inl hscrub⟩

theorem guarded_commitScrubbed {deleted : Bool}
    (h : commitScrubbed x now t version deleted s = some (s', outcome)) : Guarded s' := by
  rcases commitScrubbed_cases h with rfl | ⟨o, l, v, r, -, -, -, -, hr, rfl⟩
  · exact hs
  · refine guarded_of_link (l := { releasedLink l with version := v }) ?_ (.inl rfl)
    rw [finalizeDisconnected_link, (outboxOnly_createAfterScrub x now hr).link]
    rfl

theorem guarded_abandonCleanup (hactive : s.active = true)
    (h : abandonCleanup now t s = some (s', outcome)) : Guarded s' := by
  rcases abandonCleanup_cases h with
    rfl | ⟨o, -, -, -, ⟨hd, -⟩ | ⟨-, hl, rfl⟩ | ⟨-, l, -, rfl⟩⟩
  · exact hs
  · simp [Rows.active, hd] at hactive
  · intro hex
    obtain ⟨-, l, hl', -⟩ := hex
    have hnone : s.link = some l := hl'
    rw [hl] at hnone
    cases hnone
  · exact guarded_of_link (l := releasedLink l) rfl (.inl rfl)

theorem guarded_retry {seconds : ℤ} {absent : Bool}
    (hnot : ¬Forgets x now s (.retry t seconds absent))
    (h : retry now t seconds absent s = some (s', outcome)) : Guarded s' := by
  rcases retry_cases h with rfl | ⟨o, availableAt, ho, hleased, rfl⟩
  · exact hs
  intro hex
  have hex : Exposed s := hex
  obtain ⟨o', ho', hrow⟩ := hs hex
  obtain rfl := Option.some.inj (ho.symm.trans ho')
  refine ⟨_, rfl, ?_⟩
  by_cases hscrub : o.action = .scrub
  · exact .inl hscrub
  · have hamb := hrow.resolve_left hscrub
    -- the effect stays, unless this lease is known not to have reached the provider
    have hkept : retriedEffect o absent = o.effect := by
      refine if_neg ?_
      rintro ⟨rfl, heffect⟩
      exact hnot ⟨hex, o, ho, hleased, hscrub, heffect⟩
    refine .inr ?_
    simpa [Outbox.ambiguous, hkept] using hamb

theorem guarded_cancel (hnot : ¬Forgets x now s (.cancel t))
    (h : cancel now t s = some (s', outcome)) : Guarded s' := by
  rcases cancel_cases h with rfl | ⟨o, ho, hleased, ⟨rfl, -⟩ | ⟨rfl, hamb, hends⟩⟩
  · exact hs
  · exact hs.of_row ho rfl id
  · intro hex
    have hex : Exposed s := hex
    obtain ⟨o', ho', hrow⟩ := hs hex
    obtain rfl := Option.some.inj (ho.symm.trans ho')
    have hscrub : o.action = .scrub := hrow.resolve_right (by simp [hamb])
    rcases hends with hgen | ⟨hcreate, -⟩
    · exact absurd ⟨hex, o, ho, hleased, hamb, hgen⟩ hnot
    · rw [hscrub] at hcreate
      cases hcreate

/-! ### Observations, and the member's answers -/

theorem guarded_markRefusal {code : String} {clear : Bool}
    (hnot : ¬Forgets x now s (.markRefusal proof instanceId version code clear))
    (h : markRefusal now proof instanceId version code clear s = (s', outcome)) : Guarded s' := by
  have haccess := (markRefusal_sameMember h).access
  rcases markRefusal_cases h with rfl | ⟨l, hl, ⟨hlease, hinstance⟩, hcases⟩
  · exact hs
  rcases hcases with ⟨hstate, -⟩ | ⟨-, rfl⟩ | ⟨hstate, -⟩
  · intro hex
    refine absurd ⟨haccess.symm.trans hex.1, hlease, l, hl, hinstance, ?_, ?_⟩ hnot
    · simp [hstate]
    · simp [hstate]
  · exact hs.of_setLink hl rfl rfl rfl rfl
  · intro hex
    refine absurd ⟨haccess.symm.trans hex.1, hlease, l, hl, hinstance, ?_, ?_⟩ hnot
    · rcases hstate with hstate | hstate <;> simp [hstate]
    · rcases hstate with hstate | hstate <;> simp [hstate]

theorem guarded_markConflict {worker generation : ℕ} {ours theirs : Snapshot}
    (hnot : ¬Forgets x now s (.markConflict worker generation version ours theirs))
    (h : markConflict now worker generation version ours theirs s = (s', outcome)) :
    Guarded s' := by
  rcases markConflict_cases h with rfl | ⟨l, hl, hlease, ⟨-, rfl⟩ | ⟨hstate, rfl⟩⟩
  · exact hs
  · exact hs.of_setLink hl rfl rfl rfl rfl
  · intro hex
    refine absurd ⟨hex.1, hlease, ?_⟩ hnot
    simp [Rows.linkState, hl, hstate]

theorem guarded_markEventRemoved
    (h : markEventRemoved x now proof instanceId version s = some (s', outcome)) : Guarded s' := by
  rcases markEventRemoved_cases h with rfl | ⟨l, hl, -, ⟨-, r, hr, rfl⟩ | ⟨-, h⟩⟩
  · exact hs
  · refine guarded_of_link (l := { releasedLink l with version := none }) ?_ (.inl rfl)
    rw [finalizeDisconnected_link, (outboxOnly_createAfterScrub x now hr).link]
    rfl
  · rcases removeEvent_cases h with rfl | ⟨-, rfl⟩ | ⟨-, rfl⟩ | ⟨-, rfl⟩
    · exact hs
    · exact hs.of_setLink hl rfl rfl rfl rfl
    · exact hs.of_setLink hl rfl rfl rfl rfl
    · exact guarded_of_link (l := removedLink l version) (clearDue_link _ _) (.inr rfl)

end

theorem tracked_enqueueUnwanted (s : Rows) (now : ℤ) (version : Option String) :
    Tracked (enqueueUnwanted now .scrub version s) := by
  unfold enqueueUnwanted
  split
  · exact tracked_enqueue s now true none version
  · next o _ =>
    -- the generation takes no part in what the row is for
    exact ⟨_, rfl, rewrite_scrub o now true none version⟩

section

variable (hs : Guarded s)
include hs

theorem guarded_applyProviderSnapshot {obs : Observation}
    (h : applyProviderSnapshot x now proof obs s = some (s', outcome)) : Guarded s' := by
  have haccess := (applyProviderSnapshot_sameMember h).access
  have hwanted : ∀ l, unwanted now l s = false → Guarded s' := by
    intro l hl
    exact guarded_of_access (haccess.trans (access_of_wanted hl))
  rcases applyProviderSnapshot_cases h with
    rfl | ⟨l, -, -, -, -, ⟨-, rfl⟩ | ⟨hl, -⟩ | ⟨hl, -⟩⟩
  · exact hs
  · intro hex
    rw [← haccess, hex.1]
    exact tracked_enqueueUnwanted s now obs.version
  · exact hwanted l hl
  · exact hwanted l hl

theorem guarded_observeCondition {expected : Option Snapshot} {expectedVersion : Option String}
    {refusal : Option (String × String)}
    (h : observeCondition x instanceId expected expectedVersion refusal s = some (s', outcome)) :
    Guarded s' := by
  rcases observeCondition_cases h with rfl | ⟨l, version, code, removed, -, -, haccess, -, rfl⟩
  · exact hs
  · exact guarded_of_access haccess

theorem guarded_resolveConflict {resolution : Resolution} {expected : Option Snapshot}
    {reading : Fresh}
    (h : resolveConflict x now resolution expected reading s = some (s', outcome)) :
    Guarded s' := by
  have hsame := (resolveConflict_sameMember h).access
  rcases resolveConflict_cases h with rfl | ⟨l, -, -, haccess, -⟩
  · exact hs
  · exact guarded_of_access (hsame.trans haccess)

theorem guarded_resolveEventRemoved {answer : Answer}
    (h : resolveEventRemoved x now answer s = some (s', outcome)) : Guarded s' := by
  have hsame := (resolveEventRemoved_sameMember h).access
  rcases resolveEventRemoved_cases h with rfl | ⟨l, -, -, haccess, -⟩
  · exact hs
  · exact guarded_of_access (hsame.trans haccess)

/-! ### Runs -/

/-- **Every other function of an active connection keeps the scrub.** -/
theorem perform_guarded {m : Move} (hactive : s.active = true) (hactive' : s'.active = true)
    (hnot : ¬Forgets x now s m) (h : perform x now m s = some (s', outcome)) : Guarded s' := by
  have hends : ∀ cleanup u, s' = (beginConnectionDisconnect now cleanup u).1 → Guarded s' := by
    intro cleanup u hu
    rw [hu, beginConnectionDisconnect_active] at hactive'
    cases hactive'
  cases m with
  | editTask task => exact guarded_editTask hs hactive h
  | changeAccess allowed => exact guarded_changeAccess hactive h
  | deactivateMember =>
    obtain ⟨u, -, hu⟩ := deactivateMember_cases h
    exact hends .scrub u hu
  | closeCompany => exact hends .scrub _ (left_eq h)
  | revokeConnection renewing =>
    rcases revokeConnection_cases h with rfl | ⟨-, hu⟩
    · exact hs
    · exact hends .unlink s hu
  | completeConnection timezone =>
    rcases completeConnection_cases h with rfl | ⟨-, h⟩
    · exact hs
    · refine guarded_enqueueCreate ?_ h
      exact hs.of_same rfl rfl rfl
  | rejectCredential =>
    rcases rejectCredential_cases h with rfl | ⟨hd, -⟩ | ⟨-, rfl⟩
    · exact hs
    · simp [Rows.active, hd] at hactive
    · exact hs.of_same rfl rfl rfl
  | renewCredential =>
    rcases renewCredential_cases h with rfl | ⟨-, rfl⟩
    · exact hs
    · exact hs.of_same rfl rfl rfl
  | commitWebhookRevocation =>
    obtain rfl := left_eq h
    exact hs.of_same (finalizeDisconnected_access _) (finalizeDisconnected_link _)
      (finalizeDisconnected_live _)
  | claimPull worker seconds =>
    rcases claimPull_cases h with rfl | ⟨-, h⟩
    · exact hs
    · refine guarded_enqueueCreate ?_ h
      exact hs.of_same rfl rfl rfl
  | renewPull worker seconds =>
    obtain ⟨l, rfl⟩ := renewPull_cases h
    exact hs.of_same rfl rfl rfl
  | endPull worker =>
    obtain ⟨l, rfl⟩ := endPull_cases h
    exact hs.of_same rfl rfl rfl
  | claim worker seconds =>
    rcases claim_cases h with rfl | ⟨o, ho, -, rfl⟩
    · exact hs
    · exact hs.of_row ho rfl id
  | markEffectStarted ticket =>
    rcases markEffectStarted_cases h with rfl | ⟨o, ho, -, -, rfl⟩
    · exact hs
    · refine hs.of_row ho rfl fun _ => ?_
      simp [Outbox.ambiguous]
  | commitCreated ticket remote => exact guarded_commitCreated hs hactive h
  | commitSent ticket version fields => exact guarded_commitSent hs hactive hnot h
  | commitScrubbed ticket version deleted => exact guarded_commitScrubbed hs h
  | abandonCleanup ticket => exact guarded_abandonCleanup hs hactive h
  | retry ticket seconds absent => exact guarded_retry hs hnot h
  | cancel ticket => exact guarded_cancel hs hnot h
  | apply proof observation => exact guarded_applyProviderSnapshot hs h
  | markEventRemoved proof instanceId version => exact guarded_markEventRemoved hs h
  | markRefusal proof instanceId version code clear =>
    exact guarded_markRefusal hs hnot (Option.some.inj h)
  | markConflict worker generation version ours theirs =>
    exact guarded_markConflict hs hnot (Option.some.inj h)
  | observeCondition instanceId expected expectedVersion refusal =>
    exact guarded_observeCondition hs h
  | resolveConflict resolution expected reading => exact guarded_resolveConflict hs h
  | resolveEventRemoved answer => exact guarded_resolveEventRemoved hs h

end

/-! ### What the steps in question do -/

theorem not_guarded {l : Link} (haccess : s.access = false) (hl : s.link = some l)
    (hunlinked : l.state ≠ .unlinked) (hremoved : l.state ≠ .eventRemoved)
    (hrow : ∀ o, s.live = some o → o.action ≠ .scrub ∧ o.ambiguous = false) : ¬Guarded s := by
  intro hs
  obtain ⟨o, ho, h⟩ := hs ⟨haccess, l, hl, hunlinked, hremoved⟩
  obtain ⟨haction, hamb⟩ := hrow o ho
  rcases h with h | h
  · exact haction h
  · rw [hamb] at h
    cases h

theorem not_guarded_markRefusal {code : String} {clear : Bool}
    (h : Forgets x now s (.markRefusal proof instanceId version code clear)) :
    ¬Guarded (markRefusal now proof instanceId version code clear s).1 := by
  obtain ⟨haccess, hlease, l, hl, rfl, hconflict, hunlinked⟩ := h
  unfold markRefusal
  simp only [hlease, hl, ne_eq, not_true_eq_false, if_false]
  cases hstate : l.state with
  | refused =>
    refine not_guarded (s := Rows.endLive _) ((clearDue_access _ _).trans haccess)
      (clearDue_link _ _) ?_ ?_ ?_
    · simp
    · simp
    · intro o ho
      cases ho
  | conflict => exact absurd hstate hconflict
  | unlinked => exact absurd hstate hunlinked
  | _ =>
    refine not_guarded (s := Rows.endLive _) (l := refusedLink l version code)
      ((clearDue_access _ _).trans haccess) (clearDue_link _ _) ?_ ?_ ?_
    · simp [refusedLink]
    · simp [refusedLink]
    · intro o ho
      cases ho

theorem not_guarded_markConflict {worker generation : ℕ} {ours theirs : Snapshot}
    (h : Forgets x now s (.markConflict worker generation version ours theirs)) :
    ¬Guarded (markConflict now worker generation version ours theirs s).1 := by
  obtain ⟨haccess, hlease, hstate⟩ := h
  obtain ⟨l, hl, hstate⟩ := Option.map_eq_some_iff.1 hstate
  unfold markConflict
  simp only [hlease, hl, hstate]
  refine not_guarded (l := conflictLink l version ours theirs) haccess rfl ?_ ?_ ?_
  · simp [conflictLink]
  · simp [conflictLink]
  · intro o ho
    cases ho

/-- A scrub that is committed as a write leaves an unlink behind it, which may be taken back. -/
theorem not_guarded_commitSent {f : Sent} (hactive : s.active = true)
    (h : Forgets x now s (.commitSent t version (some f))) :
    ¬Guarded (step x s (now, .commitSent t version (some f))).1 := by
  obtain ⟨haccess, hlink, hsent, o, ho, hleased, haction⟩ := h
  obtain ⟨l, hl⟩ := Option.isSome_iff_exists.1 hlink
  obtain ⟨sent, hsent⟩ := Option.isSome_iff_exists.1 hsent
  obtain ⟨written, -, hwritten⟩ := Option.map_eq_some_iff.1 hsent
  subst hwritten
  have he := eligible_of_no_access haccess now
  have hstatus : s.connection.status ≠ .disconnected := by
    intro hd
    simp [Rows.active, hd] at hactive
  have hcurrent : sentCurrent x now s l (some written) = some none := by
    simp [sentCurrent, he]
  have hfollow : sentFollowup now s o (some written) none = some .unlink := by
    simp [sentFollowup, hstatus, haction, he]
  have hlive : (s.endLive.setLink (sentLink l version (some written))).live = none := rfl
  have hrun : commitSent x now t version (some f) s = _ :=
    commitSent_of_leased ho hleased (by simp [haction]) hl hsent hcurrent
  rw [recordSent, hfollow, followup_of_none hlive] at hrun
  simp only [step, perform, hrun, Option.bind_eq_bind, Option.bind_some]
  refine not_guarded (l := sentLink l version (some written)) ?_ ?_ ?_ ?_ ?_
  · exact (finalizeDisconnected_access _).trans haccess
  · exact finalizeDisconnected_link _
  · simp [sentLink]
  · simp [sentLink]
  · intro o' ho'
    rw [finalizeDisconnected_live] at ho'
    obtain rfl := Option.some.inj ho'
    exact ⟨by simp [Rows.freshRow], rfl⟩

/-- **Each of the steps loses the scrub.** -/
theorem not_guarded_of_forgets {m : Move} (hactive : s.active = true) (h : Forgets x now s m) :
    ¬Guarded (step x s (now, m)).1 := by
  cases m with
  | markRefusal proof instanceId version code clear => exact not_guarded_markRefusal h
  | markConflict worker generation version ours theirs => exact not_guarded_markConflict h
  | commitSent t version fields =>
    cases fields with
    | none => exact h.elim
    | some f => exact not_guarded_commitSent hactive h
  | cancel t =>
    obtain ⟨⟨haccess, l, hl, hunlinked, hremoved⟩, o, ho, hleased, hamb, hgen⟩ := h
    have hcancel : cancel now t s = some (s.endLive, .cancelled) := by
      simp [cancel, whenLeased_of_leased ho hleased, hamb, hgen]
    simp only [step, perform, hcancel]
    refine not_guarded (l := l) haccess hl hunlinked hremoved ?_
    intro o' ho'
    cases ho'
  | retry t seconds absent =>
    cases absent with
    | false => exact h.elim
    | true =>
      obtain ⟨⟨haccess, l, hl, hunlinked, hremoved⟩, o, ho, hleased, haction, heffect⟩ := h
      simp only [step, perform, retry, whenLeased_of_leased ho hleased]
      refine not_guarded (l := l) haccess hl hunlinked hremoved ?_
      intro o' ho'
      obtain rfl := Option.some.inj ho'
      exact ⟨haction, by simp [Outbox.ambiguous, retriedEffect, heffect]⟩
  | _ => exact h.elim

variable (x)

theorem guarded_of_run {moves : List (ℤ × Move)} (hs : Guarded s) (hactive : s.active = true)
    (hkept : Reactive.Along (step x) (fun s i => (step x s i).1.active = true) s moves)
    (h : Reactive.Along (step x) (fun s i => ¬Forgets x i.1 s i.2) s moves) :
    Guarded (Reactive.final (step x) s moves) ∧
      (Reactive.final (step x) s moves).active = true := by
  refine Reactive.final_of_inv_along (step x)
    (P := fun s => Guarded s ∧ s.active = true) ?_ ⟨hs, hactive⟩
    ((Reactive.along_and (step x)).2 ⟨hkept, h⟩)
  rintro s i ⟨hs, hactive⟩ ⟨hkept, hnot⟩
  refine ⟨?_, hkept⟩
  unfold step at hkept ⊢
  split at hkept
  · exact hs
  · next s' outcome hp => exact perform_guarded hs hactive hkept hnot hp

/-- **No scrub is forgotten, exactly in the runs without such a step**: while the connection stays
active, every event of a task that its owner may not see has a live scrub, or an ambiguous write
whose commit queues one, in every state reached, if and only if no step forgets it. -/
theorem covered_iff (task : Task) (userId : ℕ) (timezone : String) (access : Bool)
    (moves : List (ℤ × Move))
    (hactive : Reactive.Along (step x) (fun s i => (step x s i).1.active = true)
      (fresh task userId timezone access) moves) :
    (∀ before, before <+: moves →
        Covered x (Reactive.final (step x) (fresh task userId timezone access) before)) ↔
      Reactive.Along (step x) (fun s i => ¬Forgets x i.1 s i.2)
        (fresh task userId timezone access) moves := by
  have hstart : Guarded (fresh task userId timezone access) := by
    rintro ⟨-, l, hl, -⟩
    cases hl
  constructor
  · intro h
    rw [Reactive.along_iff_prefix]
    intro before i rest hsplit hforgets
    subst hsplit
    have hbefore : (Reactive.final (step x) (fresh task userId timezone access) before).active =
        true :=
      Reactive.final_of_inv_along (step x) (P := fun s => s.active = true)
        (fun _ _ _ hkept => hkept) rfl ((Reactive.along_append ..).1 hactive).1
    refine not_guarded_of_forgets hbefore hforgets fun hex => ?_
    -- what is covered after the step is tracked there
    have hnext := h (before ++ [i]) ⟨rest, by simp⟩
    rw [Reactive.final_append] at hnext
    obtain ⟨o, ho, hrow⟩ := hnext hex
    exact ⟨o, ho, hrow.imp_right And.left⟩
  · rintro h before ⟨rest, rfl⟩
    obtain ⟨hguarded, hafter⟩ := guarded_of_run x hstart rfl
      ((Reactive.along_append ..).1 hactive).1 ((Reactive.along_append ..).1 h).1
    exact hguarded.covered hafter

/-! ### An all-day event after the access is gone -/

/-- The member loses access, and the scrub is taken to the provider. -/
def scrubbed : List (ℤ × Move) :=
  [(10, .changeAccess false), (11, .claim 7 300), (12, .markEffectStarted ⟨7, 2, 1⟩),
    (13, .commitScrubbed ⟨7, 2, 1⟩ (some "v2") false)]

/-- The scrub is live until it is committed. -/
theorem covered_iff_scrubbed :
    Covered plain
      (Reactive.final (step plain) (fresh visit 1 "UTC" true) (mapped ++ scrubbed)) := by
  refine (covered_iff plain visit 1 "UTC" true _ (by decide +kernel)).2 ?_ _ List.prefix_rfl
  exact ⟨id, id, id, id, id, id, id, id, trivial⟩

/-- The member loses access, and moves the event to the whole of a day before the scrub is taken. -/
def allDay : List (ℤ × Move) :=
  [(10, .changeAccess false), (11, .markRefusal (.pull 1 1) "event" (some "v2") "all_day" true)]

/-- **A scrub is forgotten**: the pull records the refusal and ends the live row with it; nothing is
queued any more, and the connection has been active all along. -/
theorem forgotten :
    Reactive.Along (step plain) (fun s i => (step plain s i).1.active = true)
        (fresh visit 1 "UTC" true) (mapped ++ allDay) ∧
      ¬Covered plain (after allDay) := by
  refine ⟨by decide +kernel, ?_⟩
  intro h
  generalize hs : after allDay = s at h
  have haccess : s.access = false := by
    rw [← hs]
    decide +kernel
  have hstate : s.linkState = some .refused := by
    rw [← hs]
    decide +kernel
  have hlive : s.live = none := by
    rw [← hs]
    decide +kernel
  obtain ⟨l, hl, hrefused⟩ := Option.map_eq_some_iff.1 hstate
  obtain ⟨o, ho, -⟩ := h ⟨haccess, l, hl, by simp [hrefused], by simp [hrefused]⟩
  rw [hlive] at ho
  cases ho

end CalendarScrub
