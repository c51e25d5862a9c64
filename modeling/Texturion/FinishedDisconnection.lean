/-
**What a finished disconnection leaves behind.**

A disconnection is finished by whichever function finds no live outbox row and no watch any more; it
does not look at the links.  That none of them is left is a matter of the outbox: from its start on,
a disconnection has a live row for every event that is still linked, and no function takes the row
away before the link is released, apart from a cancellation of the row.

Main result:

* `CalendarConnections.finished_disconnection` — **a finished disconnection leaves nothing behind,
  and a refresh of an older credential stores nothing**.
-/

import Texturion.CalendarConnections

namespace CalendarConnections

open CalendarSync CalendarRows CalendarHooks CalendarCommits CalendarInbound Fallible

/-! ### The rows of one task -/

/-- The rows of a task while its connection is being disconnected: an event that is linked has a
live row, and a create that is leased may have reached the provider. -/
structure Tended (t : TaskRows) : Prop where
  live : ∀ l, t.link = some l → l.state ≠ .unlinked → t.live.isSome = true
  create : ∀ o, t.live = some o → o.action = .create → o.ambiguous = true ∨ o.lease = none

/-- Nothing of the task is left in the calendar. -/
structure Bare (t : TaskRows) : Prop where
  live : t.live = none
  link : ∀ l, t.link = some l → l.state = .unlinked

/-- The worker cancels a row that it holds, at its generation, only if it is a create or has no
link. -/
def AskedOfTask (now : ℤ) (s : Rows) : CalendarRuns.Move → Prop
  | .cancel ticket => ∀ o, s.live = some o → leasedTo now ticket o = true →
      o.generation = ticket.generation → o.action = .create ∨ s.link = none
  | _ => True

variable {x : Text} {now : ℤ} {s s' : Rows} {outcome : Outcome}

theorem tended_of_live {o : Outbox} (hlive : s.live = some o)
    (hcreate : o.action = .create → o.ambiguous = true ∨ o.lease = none) : Tended (.of s) where
  live _ _ _ := by
    show s.live.isSome = true
    rw [hlive]
    rfl
  create o' ho' := by
    obtain rfl := Option.some.inj (hlive.symm.trans ho')
    exact hcreate

theorem tended_of_unlinked (hlink : ∀ l, s.link = some l → l.state = .unlinked)
    (hcreate : ∀ o, s.live = some o → o.action = .create → o.ambiguous = true ∨ o.lease = none) :
    Tended (.of s) where
  live l hl hne := absurd (hlink l hl) hne
  create := hcreate

theorem tended_enqueue {action : Action} (hne : action ≠ .create) (s : Rows) (now : ℤ)
    (linked : Bool) (requested : Option Snapshot) (version : Option String) :
    Tended (.of (s.enqueue now linked action requested version)) := by
  cases hlive : s.live with
  | none =>
    rw [Rows.enqueue, hlive]
    exact tended_of_live rfl fun hcreate => absurd hcreate hne
  | some o =>
    rw [Rows.enqueue, hlive]
    refine tended_of_live rfl fun hcreate => ?_
    cases hamb : o.ambiguous with
    | true => exact .inl (Outbox.rewrite_of_ambiguous hamb ..).2.2.2
    | false =>
      rw [(Outbox.rewrite_of_not_ambiguous hamb ..).1] at hcreate
      exact absurd hcreate hne

/-! #### An edit of the task -/

/-- While an edit is under way a row may be gone of a task that is not on the calendar. -/
structure HalfTended (now : ℤ) (s : Rows) : Prop where
  live : ∀ l, s.link = some l → l.state ≠ .unlinked →
    s.live.isSome = true ∨ s.eligible now = false
  create : ∀ o, s.live = some o → o.action = .create → o.ambiguous = true ∨ o.lease = none

theorem halfTended_dropIneligibleCreate (hs : HalfTended now s) :
    HalfTended now (dropIneligibleCreate now s) := by
  rw [dropIneligibleCreate]
  cases hlive : s.live with
  | none => exact hs
  | some o =>
    simp only
    split_ifs with hcreate hlease hamb
    · exact hs
    · have hout : s.eligible now = false := by simpa using hcreate.2
      exact ⟨fun _ _ _ => .inr hout, fun o' ho' => by cases ho'⟩
    · refine ⟨fun _ _ _ => .inl rfl, fun o' ho' haction => ?_⟩
      obtain rfl := Option.some.inj ho'
      exact hs.create o hlive haction
    · exact hs

theorem halfTended_rebuildCreate (hs : HalfTended now s) (h : rebuildCreate x now s = some s') :
    HalfTended now s' := by
  have heligible := (outboxOnly_rebuildCreate x now h).eligible now
  rw [rebuildCreate] at h
  cases hlive : s.live with
  | none =>
    rw [hlive] at h
    exact Option.some.inj h ▸ hs
  | some o =>
    rw [hlive] at h
    simp only at h
    split_ifs at h with hcreate
    · obtain ⟨requested, -, h⟩ := Option.bind_eq_some_iff.1 h
      obtain rfl := Option.some.inj h
      refine ⟨fun _ _ _ => .inl rfl, fun o' ho' haction => ?_⟩
      obtain rfl := Option.some.inj ho'
      exact hs.create o hlive haction
    · exact Option.some.inj h ▸ hs

theorem tended_enqueueMapped (hstatus : s.connection.status = .disconnected)
    (hs : HalfTended now s) (h : enqueueMapped x now s = some s') : Tended (.of s') := by
  rw [enqueueMapped] at h
  cases hlink : s.link with
  | none =>
    rw [hlink] at h
    obtain rfl := Option.some.inj h
    refine tended_of_unlinked (fun l hl => ?_) hs.create
    rw [hlink] at hl
    cases hl
  | some l =>
    rw [hlink] at h
    simp only at h
    split_ifs at h with hmapped heligible haccess
    · obtain ⟨requested, -, h⟩ := Option.bind_eq_some_iff.1 h
      obtain rfl := Option.some.inj h
      exact tended_enqueue (by decide) ..
    · obtain rfl := Option.some.inj h
      exact tended_enqueue (by decide) ..
    · obtain rfl := Option.some.inj h
      exact tended_enqueue (by decide) ..
    · obtain rfl := Option.some.inj h
      refine ⟨fun l' hl' hne => ?_, hs.create⟩
      obtain rfl := Option.some.inj (hlink.symm.trans hl')
      refine (hs.live l hlink hne).resolve_right fun hout => hmapped ⟨hne, .inr ?_, ?_⟩
      · rw [hout]
        exact Bool.false_ne_true
      · rw [hstatus]
        decide

theorem enqueueCreate_of_inactive (hstatus : s.active = false)
    (h : enqueueCreate x now s = some s') : s' = s := by
  rw [enqueueCreate, if_neg (by rw [hstatus]; simp)] at h
  exact (Option.some.inj h).symm

theorem tended_enqueueMappedTaskChange (hstatus : s.connection.status = .disconnected)
    (hs : HalfTended now s) (h : enqueueMappedTaskChange x now s = some s') : Tended (.of s') := by
  obtain ⟨t, ht, h⟩ := Option.bind_eq_some_iff.1 h
  obtain ⟨u, hu, h⟩ := Option.bind_eq_some_iff.1 h
  have hconn : t.connection = s.connection :=
    (outboxOnly_rebuildCreate x now ht).connection.trans
      (outboxOnly_dropIneligibleCreate now s).connection
  have hconn' : u.connection = s.connection :=
    (outboxOnly_enqueueMapped x now hu).connection.trans hconn
  rw [enqueueCreate_of_inactive (by rw [Rows.active, hconn', hstatus]; decide) h]
  exact tended_enqueueMapped (by rw [hconn, hstatus])
    (halfTended_rebuildCreate (halfTended_dropIneligibleCreate hs) ht) hu

theorem Tended.half (hs : Tended (.of s)) : HalfTended now s :=
  ⟨fun l hl hne => .inl (hs.live l hl hne), hs.create⟩

/-! #### The functions of the outbox -/

theorem of_finalizeDisconnected (s : Rows) : TaskRows.of (finalizeDisconnected s).1 = .of s := by
  obtain ⟨c, hc⟩ := finalizeDisconnected_fst s
  rw [hc]
  rfl

variable {version : Option String} {worker i expected generation : ℕ} {seconds expiresAt : ℤ}
  {m : CalendarRuns.Move} {f : Rows → CalendarRows.Result} {envelope : Envelope}
  {subscription : String} {reauth : Bool}

/-- Behind a commit there is a row that is no create, or an event that is not linked any more. -/
theorem tended_followup {action : Option Action} {requested : Option Snapshot}
    (hne : action ≠ some .create) (hlive : s.live = none)
    (hlink : action = none → ∀ l, s.link = some l → l.state = .unlinked)
    (h : followup now s action requested version = some s') : Tended (.of s') := by
  cases action with
  | none =>
    obtain rfl := Option.some.inj h
    refine tended_of_unlinked (hlink rfl) fun o ho => ?_
    rw [hlive] at ho
    cases ho
  | some a =>
    rw [followup_of_none hlive] at h
    obtain rfl := Option.some.inj h
    exact tended_of_live rfl fun hcreate => absurd (congrArg some hcreate) hne

theorem createAfterScrub_of_inactive {r : Rows × Bool} (hactive : s.active = false)
    (h : createAfterScrub x now s = some r) : r.1 = s := by
  rw [createAfterScrub, if_neg (by rw [hactive]; simp)] at h
  exact (congrArg Prod.fst (Option.some.inj h)).symm

theorem getD_ne_create {cleanup : Option Action} (h : cleanup ≠ some .create) :
    some (cleanup.getD .unlink) ≠ some .create := by
  cases cleanup with
  | none => decide
  | some a => exact h

theorem createdFollowup_ne_create (h : s.connection.cleanup ≠ some .create)
    (sent requested : Snapshot) (current : Option Snapshot) :
    createdFollowup now s sent requested current ≠ some .create := by
  rw [createdFollowup]
  split_ifs
  · exact getD_ne_create h
  all_goals decide

theorem sentFollowup_ne_create (h : s.connection.cleanup ≠ some .create) (o : Outbox)
    (sent current : Option Snapshot) : sentFollowup now s o sent current ≠ some .create := by
  rw [sentFollowup]
  split_ifs
  · decide
  · exact getD_ne_create h
  all_goals decide

section
variable {t : Ticket} (hstatus : s.connection.status = .disconnected)
  (hcleanup : s.connection.cleanup ≠ some .create)
include hstatus

theorem not_active : s.active = false := by
  rw [Rows.active, hstatus]
  decide

include hcleanup

section

variable (hs : Tended (.of s))
include hs

theorem tended_claim (h : claim now worker seconds s = some (s', outcome)) : Tended (.of s') := by
  rcases claim_cases h with rfl | ⟨o, ho, hclaim, rfl⟩
  · exact hs
  · refine tended_of_live rfl fun hcreate => .inl ?_
    have hnot := not_active hstatus
    simp only [claimable, hnot, hstatus, decide_eq_true_eq] at hclaim
    rcases hclaim.1 with ⟨hactive, -⟩ | ⟨-, haction | hamb⟩
    · cases hactive
    · exact absurd (haction.symm.trans (congrArg some hcreate)) hcleanup
    · exact hamb

theorem tended_commitCreated {r : Remote}
    (h : commitCreated x now t r s = some (s', outcome)) : Tended (.of s') := by
  rcases commitCreated_cases h with
    ⟨rfl, -⟩ | ⟨o, sent, requested, current, -, -, -, -, -, -, -,
      ⟨-, hactive, -, -⟩ | ⟨-, u, hu, rfl⟩⟩
  · exact hs
  · rw [not_active hstatus] at hactive
    cases hactive
  · rw [of_finalizeDisconnected]
    refine tended_followup (createdFollowup_ne_create hcleanup sent requested current) rfl
      (fun hnone => ?_) hu
    rw [createdFollowup, if_pos hstatus] at hnone
    cases hnone

theorem tended_commitSent {fields : Option Sent}
    (h : commitSent x now t version fields s = some (s', outcome)) : Tended (.of s') := by
  rcases commitSent_cases h with ⟨rfl, -⟩ | ⟨o, l, sent, current, u, -, -, -, -, -, -, hu, rfl⟩
  · exact hs
  · rw [of_finalizeDisconnected]
    refine tended_followup (sentFollowup_ne_create hcleanup o sent current) rfl
      (fun hnone m hm => ?_) hu
    obtain rfl := Option.some.inj hm
    cases sent with
    | none => rfl
    | some sent =>
      -- while it is being disconnected, only an unlink has nothing behind it
      rw [sentFollowup] at hnone
      split_ifs at hnone with hscrub hsent
      exact absurd rfl hsent

omit hcleanup in
theorem tended_commitScrubbed {deleted : Bool}
    (h : commitScrubbed x now t version deleted s = some (s', outcome)) : Tended (.of s') := by
  rcases commitScrubbed_cases h with rfl | ⟨o, l, v, r, -, -, -, -, hr, rfl⟩
  · exact hs
  · have hsame := createAfterScrub_of_inactive (s := s.endLive.setLink _) (not_active hstatus) hr
    rw [of_finalizeDisconnected, hsame]
    refine tended_of_unlinked (fun m hm => ?_) fun o' ho' => by cases ho'
    obtain rfl := Option.some.inj hm
    rfl

end

end

/-- A worker that has the lease of a create in doubt does not end it, and a row of the link is not
cancelled. -/
theorem tended_cancel {t : Ticket} (hs : Tended (.of s))
    (hasked : AskedOfTask now s (.cancel t)) (h : cancel now t s = some (s', outcome)) :
    Tended (.of s') := by
  rcases cancel_cases h with rfl | ⟨o, ho, hl, ⟨rfl, -⟩ | ⟨rfl, hamb, hgen⟩⟩
  · exact hs
  · exact tended_of_live rfl fun _ => .inr rfl
  have hcreate : o.action ≠ .create := by
    intro hcreate
    rcases hs.create o ho hcreate with h | h
    · rw [hamb] at h
      cases h
    · simp [leasedTo, h] at hl
  rcases hgen with hgen | ⟨h, -⟩
  · refine tended_of_unlinked (fun l hlink => ?_) fun o' ho' => by cases ho'
    have hnone := (hasked o ho hl hgen).resolve_left hcreate
    rw [show s.link = some l from hlink] at hnone
    cases hnone
  · exact absurd h hcreate

/-! #### What a connection that is not active does not let in -/

def inbound : CalendarRuns.Move → Bool
  | .apply .. => true
  | .markEventRemoved .. => true
  | .markRefusal .. => true
  | .markConflict .. => true
  | .resolveConflict .. => true
  | _ => false

theorem perform_of_inbound (hm : inbound m = true) (hactive : s.active = false)
    (h : CalendarRuns.perform x now m s = some (s', outcome)) : s' = s := by
  have hlease : ∀ {proof}, mutationLease now proof s ≠ none := by
    intro proof hlease
    have := mutationLease_active hlease
    rw [hactive] at this
    cases this
  cases m <;> try cases hm
  case apply proof observation =>
    rcases applyProviderSnapshot_cases h with rfl | ⟨l, -, -, -, hnone, -⟩
    · rfl
    · exact absurd hnone hlease
  case markEventRemoved proof instanceId version =>
    rcases markEventRemoved_cases h with rfl | ⟨l, -, hnone, -⟩
    · rfl
    · exact absurd hnone hlease
  case markRefusal proof instanceId version code clear =>
    rcases markRefusal_cases (Option.some.inj h) with rfl | ⟨l, -, ⟨hnone, -⟩, -⟩
    · rfl
    · exact absurd hnone hlease
  case markConflict worker generation version ours theirs =>
    rcases markConflict_cases (Option.some.inj h) with rfl | ⟨l, -, hnone, -⟩
    · rfl
    · exact absurd hnone hlease
  case resolveConflict resolution expected reading =>
    rcases resolveConflict_cases h with rfl | ⟨l, -, -, -, htrue, -⟩
    · rfl
    · rw [hactive] at htrue
      cases htrue

/-- An access rule concerns connections that are not being disconnected. -/
theorem reconcileNumberAccess_of_ended
    (hstatus : s.connection.status = .disconnected ∨ s.connection.status = .revoked)
    (h : reconcileNumberAccess x now s = some s') : s' = s := by
  rw [reconcileNumberAccess, if_neg] at h
  · exact (Option.some.inj h).symm
  · rcases hstatus with h | h <;> simp [h]

/-- **What one function of a task does while the connection is being disconnected.** -/
theorem tended_perform (hstatus : s.connection.status = .disconnected)
    (hcleanup : s.connection.cleanup ≠ some .create) (hm : ofTask m = true) (hs : Tended (.of s))
    (hasked : AskedOfTask now s m) (h : CalendarRuns.perform x now m s = some (s', outcome)) :
    Tended (.of s') := by
  have hactive := not_active hstatus
  cases m with
  | editTask task =>
    rcases editTask_cases h with rfl | h
    · exact hs
    · exact tended_enqueueMappedTaskChange (s := { s with task := task }) hstatus
        (Tended.half ⟨hs.live, hs.create⟩) h
  | changeAccess allowed =>
    have h : reconcileNumberAccess x now { s with access := allowed } = some s' :=
      changeAccess_cases h
    obtain rfl := reconcileNumberAccess_of_ended (s := { s with access := allowed })
      (.inl hstatus) h
    exact ⟨hs.live, hs.create⟩
  | claim worker seconds => exact tended_claim hstatus hcleanup hs h
  | markEffectStarted ticket =>
    rcases markEffectStarted_cases h with rfl | ⟨o, ho, -, -, rfl⟩
    · exact hs
    · refine tended_of_live rfl fun _ => .inl ?_
      cases o.effect <;> rfl
  | commitCreated ticket remote => exact tended_commitCreated hstatus hcleanup hs h
  | commitSent ticket version fields => exact tended_commitSent hstatus hcleanup hs h
  | commitScrubbed ticket version deleted => exact tended_commitScrubbed hstatus hs h
  | cancel ticket => exact tended_cancel hs hasked h
  | apply | markEventRemoved | markRefusal | markConflict | resolveConflict =>
    exact perform_of_inbound rfl hactive h ▸ hs
  | observeCondition instanceId expected expectedVersion refusal =>
    rcases observeCondition_cases h with rfl | ⟨l, version, code, removed, hl, hstate, -, -, rfl⟩
    · exact hs
    · refine ⟨fun m hm hne => hs.live l hl ?_, hs.create⟩
      rw [hstate]
      exact nofun
  | resolveEventRemoved answer =>
    rcases resolveEventRemoved_cases h with
      rfl | ⟨l, -, -, -, rfl | ⟨due, r, snapshot, -, htrue, -⟩⟩
    · exact hs
    · refine tended_of_unlinked (fun m hm => ?_) fun o' ho' => by cases ho'
      obtain rfl := Option.some.inj hm
      rfl
    · rw [hactive] at htrue
      cases htrue
  | _ => cases hm

/-! #### Afterwards -/

theorem Bare.tended (hs : Bare (.of s)) : Tended (.of s) :=
  tended_of_unlinked hs.link fun o ho _ => by
    have hnone : s.live = none := hs.live
    rw [hnone] at ho
    cases ho

theorem enqueueMappedTaskChange_of_bare (hstatus : s.connection.status = .revoked)
    (hs : Bare (.of s)) (h : enqueueMappedTaskChange x now s = some s') : s' = s := by
  have hlive : s.live = none := hs.live
  have hdrop : dropIneligibleCreate now s = s := by rw [dropIneligibleCreate, hlive]
  have hrebuild : rebuildCreate x now s = some s := by rw [rebuildCreate, hlive]
  have hmapped : enqueueMapped x now s = some s := by
    rw [enqueueMapped]
    cases hlink : s.link with
    | none => rfl
    | some l => simp [hs.link l hlink]
  have hcreate : enqueueCreate x now s = some s' := by
    simpa only [enqueueMappedTaskChange, hdrop, hrebuild, hmapped, Option.bind_eq_bind,
      Option.bind_some] using h
  exact enqueueCreate_of_inactive (by rw [Rows.active, hstatus]; decide) hcreate

theorem bare_of_none (hlive : s.live = none) (hlink : s.link = none) : Bare (.of s) := by
  refine ⟨hlive, fun l hl => ?_⟩
  rw [show s.link = some l from hl] at hlink
  cases hlink

theorem whenLeased_of_none {t : Ticket} {f : Outbox → CalendarRows.Result} (hlive : s.live = none)
    (h : whenLeased now t s f = some (s', outcome)) : s' = s := by
  rcases whenLeased_cases now h with h | ⟨o, ho, -⟩
  · exact (Prod.mk.inj h).1
  · rw [hlive] at ho
    cases ho

/-- **What one function of a task does after the connection has been revoked.** -/
theorem bare_perform (hstatus : s.connection.status = .revoked)
    (hm : ofTask m = true) (hs : Bare (.of s))
    (h : CalendarRuns.perform x now m s = some (s', outcome)) : Bare (.of s') := by
  have hlive : s.live = none := hs.live
  have hactive : s.active = false := by
    rw [Rows.active, hstatus]
    decide
  cases m with
  | editTask task =>
    rcases editTask_cases h with rfl | h
    · exact hs
    · obtain rfl := enqueueMappedTaskChange_of_bare (s := { s with task := task }) hstatus
        ⟨hs.live, hs.link⟩ h
      exact ⟨hs.live, hs.link⟩
  | changeAccess allowed =>
    have h : reconcileNumberAccess x now { s with access := allowed } = some s' :=
      changeAccess_cases h
    obtain rfl := reconcileNumberAccess_of_ended (s := { s with access := allowed })
      (.inr hstatus) h
    exact ⟨hs.live, hs.link⟩
  | claim worker seconds =>
    rcases claim_cases h with rfl | ⟨o, ho, -⟩
    · exact hs
    · rw [hlive] at ho
      cases ho
  | markEffectStarted | commitCreated | commitSent | commitScrubbed | cancel =>
    exact whenLeased_of_none hlive h ▸ hs
  | apply | markEventRemoved | markRefusal | markConflict | resolveConflict =>
    exact perform_of_inbound rfl hactive h ▸ hs
  | observeCondition instanceId expected expectedVersion refusal =>
    rcases observeCondition_cases h with rfl | ⟨l, version, code, removed, hl, hstate, -, -, rfl⟩
    · exact hs
    · have hgone := hs.link l hl
      rw [hstate] at hgone
      cases hgone
  | resolveEventRemoved answer =>
    rcases resolveEventRemoved_cases h with rfl | ⟨l, hl, hstate, -⟩
    · exact hs
    · have hgone := hs.link l hl
      rw [hstate] at hgone
      cases hgone
  | _ => cases hm

theorem tended_enqueueCleanup {cleanup : Action} (hne : cleanup ≠ .create) (now : ℤ) (s : Rows) :
    Tended (.of (enqueueCleanup now cleanup (dropCreate s))) := by
  have hcreate : ∀ o, (dropCreate s).live = some o → o.action = .create → o.ambiguous = true := by
    intro o ho hcreate
    rw [dropCreate] at ho
    cases hlive : s.live with
    | none =>
      rw [hlive] at ho
      simp only [hlive] at ho
      cases ho
    | some o' =>
      rw [hlive] at ho
      simp only at ho
      split_ifs at ho with hdrop
      · cases ho
      · obtain rfl := Option.some.inj (hlive.symm.trans ho)
        simpa [hcreate] using hdrop
  rw [enqueueCleanup]
  cases hlink : (dropCreate s).link with
  | none =>
    refine tended_of_unlinked (fun l hl => ?_) fun o ho h => .inl (hcreate o ho h)
    rw [hlink] at hl
    cases hl
  | some l =>
    simp only
    split_ifs with hstate
    · refine tended_of_unlinked (fun m hm => ?_) fun o ho h => .inl (hcreate o ho h)
      obtain rfl := Option.some.inj (hlink.symm.trans hm)
      exact hstate
    · exact tended_enqueue hne ..

theorem bare_releaseLink (s : Rows) : Bare (.of (releaseLink s.endLive)) := by
  rcases releaseLink_cases s.endLive with ⟨hlink, h⟩ | ⟨l, -, -, h⟩
  · rw [h]
    exact ⟨rfl, hlink⟩
  · rw [h]
    refine ⟨rfl, fun m hm => ?_⟩
    obtain rfl := Option.some.inj hm
    rfl

theorem Tended.bare {t : TaskRows} (ht : Tended t) (hlive : t.live = none) : Bare t := by
  refine ⟨hlive, fun l hl => ?_⟩
  by_contra hne
  have hsome := ht.live l hl hne
  rw [hlive] at hsome
  cases hsome

/-! ### The connection -/

/-- The connection keeps its credential until it is revoked, pulls only while it is not being
disconnected, and looks after the events that are still linked. -/
structure Inv (w : World) : Prop where
  credential : w.credential = none ↔ w.status = .revoked
  cleanup : w.connection.cleanup ≠ some .create
  pull : w.status = .disconnected ∨ w.status = .revoked → w.connection.pullLease = none
  watches : w.status = .revoked → ∀ watch ∈ w.watches, watch.status = .revoked
  tended : w.status = .disconnected → ∀ t ∈ w.tasks, Tended t
  bare : w.status = .revoked → ∀ t ∈ w.tasks, Bare t

/-- Another credential has a later generation. -/
structure Stamped (w w' : World) : Prop where
  le : w.generation ≤ w'.generation
  lt : w'.credential ≠ w.credential → w.generation < w'.generation

variable {w w' : World}

theorem Stamped.refl (w : World) : Stamped w w := ⟨le_rfl, fun h => absurd rfl h⟩

theorem Stamped.trans {u v : World} (h : Stamped w u) (h' : Stamped u v) : Stamped w v where
  le := h.le.trans h'.le
  lt hne := by
    by_cases hsame : u.credential = w.credential
    · have hlt := h'.lt fun heq => hne (heq.trans hsame)
      have hle := h.le
      omega
    · have hlt := h.lt hsame
      have hle := h'.le
      omega

theorem stamped_of_same (hgeneration : w'.generation = w.generation)
    (hcredential : w'.credential = w.credential) : Stamped w w' :=
  ⟨hgeneration.ge, fun h => absurd hcredential h⟩

theorem stamped_of_next (h : w'.generation = w.generation + 1) : Stamped w w' := by
  refine ⟨?_, fun _ => ?_⟩ <;> omega

/-- What a function of the connection keeps: the invariant, and the order of the generations. -/
structure Kept (w w' : World) : Prop where
  inv : Inv w → Inv w'
  stamped : Stamped w w'

theorem Kept.refl (w : World) : Kept w w := ⟨id, .refl w⟩

theorem Kept.trans {u v : World} (h : Kept w u) (h' : Kept u v) : Kept w v :=
  ⟨fun hw => h'.inv (h.inv hw), h.stamped.trans h'.stamped⟩

theorem kept_of_same (hinv : Inv w → Inv w') (hgeneration : w'.generation = w.generation)
    (hcredential : w'.credential = w.credential) : Kept w w' :=
  ⟨hinv, stamped_of_same hgeneration hcredential⟩

theorem inv_of_connected (hstatus : w.status = .active ∨ w.status = .reauthRequired)
    (hcredential : w.credential ≠ none) (hcleanup : w.connection.cleanup ≠ some .create) :
    Inv w := by
  have hdisconnected : w.status ≠ .disconnected := by rcases hstatus with h | h <;> simp [h]
  have hrevoked : w.status ≠ .revoked := by rcases hstatus with h | h <;> simp [h]
  exact
    { credential := ⟨fun h => absurd h hcredential, fun h => absurd h hrevoked⟩
      cleanup := hcleanup
      pull := fun h => (h.elim hdisconnected hrevoked).elim
      watches := fun h => absurd h hrevoked
      tended := fun h => absurd h hdisconnected
      bare := fun h => absurd h hrevoked }

theorem Inv.credential_ne_none (hw : Inv w) (h : w.status ≠ .revoked) : w.credential ≠ none :=
  fun hnone => h (hw.credential.1 hnone)

theorem kept_of_connected (hstatus : w'.status = .active ∨ w'.status = .reauthRequired)
    (hrevoked : w.status ≠ .revoked) (hcleanup : w'.connection.cleanup = w.connection.cleanup)
    (hgeneration : w'.generation = w.generation) (hcredential : w'.credential = w.credential) :
    Kept w w' := by
  refine kept_of_same (fun hw => inv_of_connected hstatus ?_ ?_) hgeneration hcredential
  · rw [hcredential]
    exact hw.credential_ne_none hrevoked
  · rw [hcleanup]
    exact hw.cleanup

/-! #### Tasks and watches -/

/-- The rows of a task are as the status of the connection asks for. -/
structure Fits (w : World) (t : TaskRows) : Prop where
  tended : w.status = .disconnected → Tended t
  bare : w.status = .revoked → Bare t

theorem Inv.fits (hw : Inv w) {t : TaskRows} (ht : t ∈ w.tasks) : Fits w t :=
  ⟨fun h => hw.tended h t ht, fun h => hw.bare h t ht⟩

theorem Inv.setTasks (hw : Inv w) {tasks : List TaskRows} (h : ∀ t ∈ tasks, Fits w t) :
    Inv { w with tasks := tasks } :=
  { hw with
    tended := fun hstatus t ht => (h t ht).tended hstatus
    bare := fun hstatus t ht => (h t ht).bare hstatus }

theorem Inv.onTask (hw : Inv w)
    (h : ∀ t, w.tasks[i]? = some t → Fits w t → Ends (fun s => Fits w (.of s)) (f (w.rows t))) :
    Ends Inv (w.onTask i f) := by
  rw [World.onTask]
  split
  · exact ends_some hw
  next t hi =>
  split
  · exact ends_none
  next s outcome hs =>
  refine ends_some (hw.setTasks fun u hu => ?_)
  rcases List.mem_or_eq_of_mem_set hu with hu | rfl
  · exact hw.fits hu
  · exact h t hi (hw.fits (List.mem_of_getElem? hi)) s outcome hs

theorem stamped_onTask : Ends (Stamped w) (w.onTask i f) := by
  rw [World.onTask]
  split
  · exact ends_some (.refl w)
  split
  · exact ends_none
  · exact ends_some (stamped_of_same rfl rfl)

theorem kept_onTask (h : ∀ t, Fits w t → Ends (fun s => Fits w (.of s)) (f (w.rows t))) :
    Ends (Kept w) (w.onTask i f) := fun u o hu =>
  ⟨fun hw => hw.onTask (fun t _ => h t) u o hu, stamped_onTask u o hu⟩

theorem mem_of_mapM {α β : Type*} {f : α → Option β} {l : List α} {l' : List β}
    (h : l.mapM f = some l') : ∀ b ∈ l', ∃ a ∈ l, f a = some b := by
  induction l generalizing l' with
  | nil =>
    obtain rfl := Option.some.inj h
    intro b hb
    cases hb
  | cons a l ih =>
    rw [List.mapM_cons] at h
    obtain ⟨b, hb, h⟩ := Option.bind_eq_some_iff.1 h
    obtain ⟨bs, hbs, h⟩ := Option.bind_eq_some_iff.1 h
    obtain rfl := Option.some.inj h
    intro c hc
    rcases List.mem_cons.1 hc with rfl | hc
    · exact ⟨a, List.mem_cons_self .., hb⟩
    · obtain ⟨a', ha', hfa⟩ := ih hbs c hc
      exact ⟨a', List.mem_cons_of_mem _ ha', hfa⟩

theorem traverse_cases {f : Rows → Option Rows} (h : w.traverse f = some w') :
    (∃ tasks, w' = { w with tasks := tasks }) ∧
      ∀ t' ∈ w'.tasks, ∃ t ∈ w.tasks, ∃ s, f (w.rows t) = some s ∧ t' = .of s := by
  obtain ⟨tasks, htasks, h⟩ := Option.bind_eq_some_iff.1 h
  obtain rfl := Option.some.inj h
  refine ⟨⟨tasks, rfl⟩, fun t' ht' => ?_⟩
  obtain ⟨t, ht, hf⟩ := mem_of_mapM htasks t' ht'
  obtain ⟨s, hs, rfl⟩ := Option.map_eq_some_iff.1 hf
  exact ⟨t, ht, s, hs, rfl⟩

theorem kept_traverse {f : Rows → Option Rows}
    (hf : ∀ t s, Fits w t → f (w.rows t) = some s → Fits w (.of s))
    (h : w.traverse f = some w') : Kept w w' := by
  obtain ⟨⟨tasks, rfl⟩, htasks⟩ := traverse_cases h
  refine kept_of_same (fun hw => hw.setTasks fun t' ht' => ?_) rfl rfl
  obtain ⟨t, ht, s, hs, rfl⟩ := htasks t' ht'
  exact hf t s (hw.fits ht) hs

theorem kept_setWatches {watches : List Watch}
    (h : w.status = .revoked → (∀ watch ∈ w.watches, watch.status = .revoked) →
      ∀ watch ∈ watches, watch.status = .revoked) : Kept w { w with watches := watches } :=
  kept_of_same (fun hw => { hw with watches := fun hs => h hs (hw.watches hs) }) rfl rfl

theorem kept_setWatch {watch watch' : Watch} (hi : w.watches[i]? = some watch)
    (h : watch.status = .revoked → watch'.status = .revoked) : Kept w (w.setWatch i watch') := by
  refine kept_setWatches fun _ hwatches other hother => ?_
  rcases List.mem_or_eq_of_mem_set hother with hother | rfl
  · exact hwatches other hother
  · exact h (hwatches watch (List.mem_of_getElem? hi))

theorem kept_of_fields (hconnection : w'.connection = w.connection)
    (hcredential : w'.credential = w.credential) (hgeneration : w'.generation = w.generation)
    (hwatches : w'.watches = w.watches) (htasks : w'.tasks = w.tasks) : Kept w w' := by
  refine kept_of_same (fun hw => ?_) hgeneration hcredential
  have hstatus : w'.status = w.status := congrArg Connection.status hconnection
  constructor
  · rw [hcredential, hstatus]
    exact hw.credential
  · rw [hconnection]
    exact hw.cleanup
  · rw [hconnection, hstatus]
    exact hw.pull
  · rw [hwatches, hstatus]
    exact hw.watches
  · rw [htasks, hstatus]
    exact hw.tended
  · rw [htasks, hstatus]
    exact hw.bare

/-! #### The end of a disconnection -/

theorem kept_finalize (w : World) : Kept w w.finalize.1 := by
  rw [World.finalize]
  split_ifs with h
  · obtain ⟨hstatus, hsettled⟩ := h
    simp only [World.settled, Bool.and_eq_true, List.all_eq_true, decide_eq_true_eq,
      Option.isNone_iff_eq_none] at hsettled
    refine ⟨fun hw => ?_, stamped_of_next rfl⟩
    exact
      { credential := ⟨fun _ => rfl, fun _ => rfl⟩
        cleanup := nofun
        pull := fun _ => rfl
        watches := fun _ => hsettled.1
        tended := nofun
        bare := fun _ t ht => (hw.tended hstatus t ht).bare (hsettled.2 t ht) }
  · exact .refl w

theorem kept_beginDisconnect (w : World) (now : ℤ) (cleanup : Action) :
    Kept w (w.beginDisconnect now cleanup).1 := by
  by_cases hrevoked : w.status = .revoked
  · rw [World.beginDisconnect, if_pos hrevoked]
    exact .refl w
  · rw [World.beginDisconnect, if_neg hrevoked]
    have hcleanup : (if w.connection.cleanup = some .scrub ∨ cleanup = .scrub then Action.scrub
        else .unlink) ≠ .create := by
      split_ifs <;> decide
    generalize (if w.connection.cleanup = some .scrub ∨ cleanup = .scrub then Action.scrub
      else .unlink) = c at hcleanup ⊢
    refine Kept.trans ?_ (kept_finalize _)
    refine kept_of_same (fun hw => ?_) rfl rfl
    refine
      { credential := ⟨fun h => absurd (hw.credential.1 h) hrevoked, nofun⟩
        cleanup := fun h => hcleanup (Option.some.inj h)
        pull := fun _ => rfl
        watches := nofun
        tended := fun _ t ht => ?_
        bare := nofun }
    obtain ⟨u, -, rfl⟩ := List.mem_map.1 ht
    exact tended_enqueueCleanup hcleanup now _

theorem revoke_status (bump : ℕ) (watch : Watch) : (watch.revoke bump).status = .revoked := by
  rw [Watch.revoke]
  split_ifs with h
  · exact h
  · rfl

theorem kept_abandon (w : World) (bump : ℕ) : Kept w (w.abandon bump) := by
  refine ⟨fun _ => ?_, stamped_of_next rfl⟩
  refine
    { credential := ⟨fun _ => rfl, fun _ => rfl⟩
      cleanup := nofun
      pull := fun _ => rfl
      watches := fun _ watch hwatch => ?_
      tended := nofun
      bare := fun _ t ht => ?_ }
  · obtain ⟨other, -, rfl⟩ := List.mem_map.1 hwatch
    exact revoke_status bump other
  · obtain ⟨u, -, rfl⟩ := List.mem_map.1 ht
    exact bare_releaseLink _

/-! #### The outbox and the tasks -/

/-- The worker cancels a row of a task only as it is allowed to. -/
def Asked (w : World) (i : ℤ × Move) : Prop :=
  match i.2 with
  | .task k m => ∀ t, w.tasks[k]? = some t → AskedOfTask i.1 (w.rows t) m
  | _ => True

theorem ends_performTask {P : World → Prop} (hw : P w) (hfinalize : ∀ u, P u → P u.finalize.1)
    (h : ofTask m = true → Ends P (w.onTask i (CalendarRuns.perform x now m))) :
    Ends P (performTask x now i m w) := by
  rw [performTask]
  refine ends_ite (fun hm => ?_) fun _ => ends_some hw
  cases hr : w.onTask i (CalendarRuns.perform x now m) with
  | none => exact ends_none
  | some r =>
    have hu : P r.1 := h hm r.1 r.2 hr
    refine ends_some ?_
    split_ifs
    · exact hfinalize _ hu
    · exact hu

theorem Inv.performTask (hw : Inv w)
    (hasked : ∀ t, w.tasks[i]? = some t → AskedOfTask now (w.rows t) m) :
    Ends Inv (performTask x now i m w) := by
  refine ends_performTask hw (fun u => (kept_finalize u).inv) fun hm => ?_
  refine hw.onTask fun t ht hfits s outcome hs => ⟨fun hstatus => ?_, fun hstatus => ?_⟩
  · exact tended_perform (s := w.rows t) hstatus hw.cleanup hm (hfits.tended hstatus)
      (hasked t ht) hs
  · exact bare_perform (s := w.rows t) hstatus hm (hfits.bare hstatus) hs

theorem stamped_performTask : Ends (Stamped w) (performTask x now i m w) :=
  ends_performTask (.refl w) (fun u hu => hu.trans (kept_finalize u).stamped) fun _ =>
    stamped_onTask

theorem kept_insertTask {task : Task} {access : Bool} :
    Ends (Kept w) (w.insertTask x now task access) := by
  refine ends_bind fun s hs => ends_some (kept_of_same (fun hw => ?_) rfl rfl)
  refine hw.setTasks fun t ht => ?_
  rcases List.mem_append.1 ht with ht | ht
  · exact hw.fits ht
  obtain rfl := List.mem_singleton.1 ht
  refine ⟨fun hstatus => ?_, fun hstatus => ?_⟩
  · exact tended_enqueueMappedTaskChange hstatus (bare_of_none rfl rfl).tended.half hs
  · obtain rfl := enqueueMappedTaskChange_of_bare hstatus (bare_of_none rfl rfl) hs
    exact bare_of_none rfl rfl

theorem kept_retryOutbox {ticket : Ticket} {absent reauth : Bool} :
    Ends (Kept w) (w.retryOutbox now i ticket seconds absent reauth) := by
  have htask : Ends (Kept w) (w.onTask i (retry now ticket seconds absent)) := by
    refine kept_onTask fun t ht s _ hs => ⟨fun hstatus => ?_, fun hstatus => ?_⟩
    · rcases retry_cases hs with rfl | ⟨row, availableAt, -, -, rfl⟩
      · exact ht.tended hstatus
      · exact tended_of_live rfl fun _ => .inr rfl
    · have hbare := ht.bare hstatus
      obtain rfl := whenLeased_of_none (s := w.rows t) hbare.live hs
      exact hbare
  rw [World.retryOutbox]
  split
  · next u hu =>
    refine ends_some ((htask u _ hu).trans ?_)
    split_ifs with hreauth
    · exact kept_of_connected (.inr rfl) hreauth.2 rfl rfl rfl
    · exact .refl u
  · exact htask

theorem kept_abandonCleanup {ticket : Ticket} : Ends (Kept w) (w.abandonCleanup now i ticket) := by
  have htask : Ends (Kept w) (w.onTask i (CalendarCommits.abandonCleanup now ticket)) := by
    refine kept_onTask fun t ht s _ hs => ⟨fun hstatus => ?_, fun hstatus => ?_⟩
    · rcases abandonCleanup_cases hs with
        rfl | ⟨row, -, -, -, ⟨-, rfl⟩ | ⟨hother, -⟩ | ⟨hother, -⟩⟩
      · exact ht.tended hstatus
      · exact (bare_releaseLink { w.rows t with connection := _ }).tended
      · exact absurd hstatus hother
      · exact absurd hstatus hother
    · have hbare := ht.bare hstatus
      obtain rfl := whenLeased_of_none (s := w.rows t) hbare.live hs
      exact hbare
  rw [World.abandonCleanup]
  split
  · next u hu =>
    refine ends_some ?_
    split_ifs
    · exact kept_abandon w 1
    · exact (htask u _ hu).trans (kept_of_fields rfl rfl rfl rfl rfl)
  · exact htask

/-! #### The member and the workspace -/

theorem kept_setWorking (w : World) (working : Bool) : Kept w (w.setWorking working) :=
  kept_of_same (fun hw => ⟨hw.credential, hw.cleanup, hw.pull, hw.watches, hw.tended, hw.bare⟩)
    rfl rfl

theorem kept_revoke : Ends (Kept w) (w.revoke now) := by
  rw [World.revoke]
  refine ends_ite (fun _ => ends_some (.refl w)) fun _ => ?_
  refine ends_ite (fun _ => ends_some (.refl w)) fun _ => ?_
  exact ends_some (kept_beginDisconnect w now .unlink)

theorem kept_deactivate : Ends (Kept w) (w.deactivate x now) := by
  refine ends_bind fun u hu => ends_some ?_
  refine ((kept_setWorking w false).trans (kept_traverse (fun t s ht hs => ?_) hu)).trans
    (kept_beginDisconnect u now .scrub)
  refine ⟨fun hstatus => ?_, fun hstatus => ?_⟩
  · rw [reconcileNumberAccess_of_ended (.inl hstatus) hs]
    exact ⟨(ht.tended hstatus).live, (ht.tended hstatus).create⟩
  · rw [reconcileNumberAccess_of_ended (.inr hstatus) hs]
    exact ⟨(ht.bare hstatus).live, (ht.bare hstatus).link⟩

theorem kept_purge : Ends (Kept w) w.purge := by
  rw [World.purge]
  exact ends_ite (fun _ => ends_some (.refl w)) fun _ => ends_some (kept_abandon w 1)

theorem kept_complete {timezone : String} : Ends (Kept w) (w.complete x now timezone envelope subscription expiresAt) := by
  rw [World.complete]
  refine ends_ite (fun _ => ends_some (.refl w)) fun _ => ?_
  refine ends_ite (fun _ => ends_none) fun _ => ?_
  refine ends_ite (fun _ => ends_some (.refl w)) fun _ => ?_
  refine ends_ite (fun _ => ends_some (.refl w)) fun _ => ?_
  refine ends_ite (fun _ => ends_none) fun _ => ?_
  refine ends_bind fun u hu => ends_some ?_
  obtain ⟨⟨tasks, rfl⟩, -⟩ := traverse_cases hu
  exact ⟨fun hw => inv_of_connected (.inl rfl) (Option.some_ne_none envelope) hw.cleanup,
    stamped_of_next rfl⟩

/-! #### The credential -/

theorem kept_claimRefresh {expected : Option ℕ} :
    Ends (Kept w) (w.claimRefresh now worker expected seconds) := by
  rw [World.claimRefresh]
  refine ends_ite (fun _ => ?_) fun _ => ends_some (.refl w)
  refine ends_ite (fun _ => ends_some (.refl w)) fun _ => ?_
  refine ends_ite (fun _ => ends_some (.refl w)) fun _ => ?_
  exact ends_some (kept_of_fields rfl rfl rfl rfl rfl)

/-- A refreshed credential is stored in place of the one it was obtained with; a connection that is
being disconnected stays so. -/
theorem commitRefresh_cases :
    Ends (fun w' => w' = w ∨ w.status ≠ .revoked ∧ w.generation = expected ∧ w' = { w with
      connection := { w.connection with
        status := if w.status = .disconnected then .disconnected else .active }
      credential := some envelope
      generation := w.generation + 1
      refreshLease := none }) (w.commitRefresh now worker expected envelope) := by
  rw [World.commitRefresh]
  refine ends_ite (fun _ => ends_some (.inl rfl)) fun hrevoked => ?_
  refine ends_ite (fun _ => ends_some (.inl rfl)) fun _ => ?_
  refine ends_ite (fun _ => ends_some (.inl rfl)) fun hgeneration => ?_
  refine ends_ite (fun _ => ends_some (.inl rfl)) fun _ => ?_
  exact ends_some (.inr ⟨hrevoked, not_not.1 hgeneration, rfl⟩)

theorem Inv.of_disconnected (hw : Inv w) (hstatus : w.status = .disconnected)
    {credential : Option Envelope} (hcredential : credential ≠ none) (generation : ℕ)
    (lease : Option Lease) : Inv { w with
      connection := { w.connection with status := .disconnected }
      credential := credential
      generation := generation
      refreshLease := lease } where
  credential := ⟨fun h => absurd h hcredential, nofun⟩
  cleanup := hw.cleanup
  pull _ := hw.pull (.inl hstatus)
  watches := nofun
  tended _ := hw.tended hstatus
  bare := nofun

theorem kept_commitRefresh : Ends (Kept w) (w.commitRefresh now worker expected envelope) := by
  refine commitRefresh_cases.mono ?_
  rintro u (rfl | ⟨-, -, rfl⟩)
  · exact .refl _
  refine ⟨fun hw => ?_, stamped_of_next rfl⟩
  split_ifs with hstatus
  · exact hw.of_disconnected hstatus (Option.some_ne_none envelope) _ none
  · exact inv_of_connected (.inl rfl) (Option.some_ne_none envelope) hw.cleanup

theorem kept_retryRefresh : Ends (Kept w) (w.retryRefresh now worker expected reauth) := by
  rw [World.retryRefresh]
  refine ends_ite (fun _ => ends_some (.refl w)) fun hrevoked => ?_
  refine ends_ite (fun _ => ends_some (.refl w)) fun _ => ?_
  refine ends_ite (fun _ => ends_some (.refl w)) fun _ => ?_
  refine ends_ite (fun _ => ends_some (kept_abandon w 0)) fun _ => ends_some ?_
  refine kept_of_same (fun hw => ?_) rfl rfl
  have hcredential := hw.credential_ne_none hrevoked
  split_ifs with hstatus
  · exact hw.of_disconnected hstatus hcredential _ none
  · exact inv_of_connected (.inr rfl) hcredential hw.cleanup
  · exact ⟨hw.credential, hw.cleanup, hw.pull, hw.watches, hw.tended, hw.bare⟩

/-! #### Pulls -/

theorem kept_claimPull : Ends (Kept w) (w.claimPull x now worker seconds) := by
  rw [World.claimPull]
  refine ends_ite (fun hactive => ?_) fun _ => ends_some (.refl w)
  refine ends_bind fun u hu => ends_some ?_
  obtain ⟨⟨tasks, rfl⟩, -⟩ := traverse_cases hu
  exact kept_of_connected (.inl hactive.1) (by simp [hactive.1]) rfl rfl rfl

theorem Inv.connected (hw : Inv w) (hlease : w.connection.pullLease ≠ none) :
    w.status = .active ∨ w.status = .reauthRequired := by
  cases hstatus : w.status with
  | active => exact .inl rfl
  | reauthRequired => exact .inr rfl
  | disconnected => exact absurd (hw.pull (.inl hstatus)) hlease
  | revoked => exact absurd (hw.pull (.inr hstatus)) hlease

theorem kept_whenPulling {r : Result}
    (h : (Inv w → w.status = .active ∨ w.status = .reauthRequired) → Ends (Kept w) r) :
    Ends (Kept w) (World.whenPulling now w worker r) := by
  rw [World.whenPulling]
  refine ends_ite (fun hlease => h fun hw => hw.connected fun hnone => ?_) fun _ =>
    ends_some (.refl w)
  rw [hnone] at hlease
  cases hlease

theorem kept_of_pulling (h : Inv w → w.status = .active ∨ w.status = .reauthRequired)
    (hstatus : w'.status = .active ∨ w'.status = .reauthRequired ∨ w'.status = w.status)
    (hcleanup : w'.connection.cleanup = w.connection.cleanup)
    (hgeneration : w'.generation = w.generation) (hcredential : w'.credential = w.credential) :
    Kept w w' := by
  refine kept_of_same (fun hw => ?_) hgeneration hcredential
  have hrevoked : w.status ≠ .revoked := by rcases h hw with h | h <;> simp [h]
  refine (kept_of_connected ?_ hrevoked hcleanup hgeneration hcredential).inv hw
  rcases hstatus with hstatus | hstatus | hstatus
  · exact .inl hstatus
  · exact .inr hstatus
  · rw [hstatus]
    exact h hw

theorem kept_renewPull : Ends (Kept w) (w.renewPull now worker generation seconds) := by
  refine kept_whenPulling fun h => ?_
  refine ends_ite (fun _ => ends_some (.refl w)) fun _ => ?_
  exact ends_ite (fun _ => ends_some (kept_of_pulling h (.inr (.inr rfl)) rfl rfl rfl)) fun _ =>
    ends_some (kept_of_pulling h (.inr (.inr rfl)) rfl rfl rfl)

theorem kept_commitPull : Ends (Kept w) (w.commitPull now worker generation) := by
  refine kept_whenPulling fun h => ?_
  exact ends_ite (fun _ => ends_some (kept_of_pulling h (.inr (.inr rfl)) rfl rfl rfl)) fun _ =>
    ends_some (kept_of_pulling h (.inl rfl) rfl rfl rfl)

theorem kept_retryPull : Ends (Kept w) (w.retryPull now worker reauth) := by
  refine kept_whenPulling fun h => ends_some (kept_of_pulling h (.inr ?_) rfl rfl rfl)
  cases reauth
  · exact .inr rfl
  · exact .inl rfl

theorem kept_requestPull : Ends (Kept w) (w.requestPull now) := by
  rw [World.requestPull]
  refine ends_ite (fun _ => ends_some (.refl w)) fun _ => ends_some (kept_of_same (fun hw => ?_)
    rfl rfl)
  exact ⟨hw.credential, hw.cleanup, hw.pull, hw.watches, hw.tended, hw.bare⟩

/-! #### Watches -/

theorem kept_installWatch : Ends (Kept w) (w.installWatch now subscription expiresAt) := by
  rw [World.installWatch]
  refine ends_ite (fun _ => ends_none) fun _ => ?_
  refine ends_ite (fun _ => ends_some (.refl w)) fun hactive => ?_
  refine ends_some (kept_setWatches fun hrevoked => ?_)
  rw [(not_not.1 hactive).1] at hrevoked
  cases hrevoked

theorem kept_claimRenewal {seconds within : ℤ} :
    Ends (Kept w) (w.claimRenewal now i worker seconds within) := by
  have hgiven : Kept w (if w.status = .active ∨ w.status = .disconnected then w
      else { w with watches := w.watches.map (Watch.revoke 1) }) := by
    split_ifs
    · exact .refl w
    · refine kept_setWatches fun _ _ watch hwatch => ?_
      obtain ⟨other, -, rfl⟩ := List.mem_map.1 hwatch
      exact revoke_status 1 other
  rw [World.claimRenewal]
  generalize (if w.status = .active ∨ w.status = .disconnected then w
    else { w with watches := w.watches.map (Watch.revoke 1) }) = u at hgiven
  cases hi : u.watches[i]? with
  | none =>
    exact ends_some hgiven
  | some watch =>
    exact ends_ite (fun _ => ends_some (hgiven.trans (kept_setWatch hi id))) fun _ =>
      ends_some hgiven

theorem kept_whenHeld {f : Watch → Result}
    (h : ∀ watch, w.watches[i]? = some watch → Ends (Kept w) (f watch)) :
    Ends (Kept w) (World.whenHeld now w i worker f) := by
  rw [World.whenHeld]
  split
  · exact ends_some (.refl w)
  next watch hi =>
  exact ends_ite (fun _ => h watch hi) fun _ => ends_some (.refl w)

theorem kept_commitRenewal :
    Ends (Kept w) (w.commitRenewal now i worker generation subscription expiresAt) := by
  rw [World.commitRenewal]
  refine ends_ite (fun _ => ends_none) fun _ => kept_whenHeld fun watch hi => ?_
  refine ends_ite (fun _ => ends_some (kept_setWatch hi id)) fun _ => ?_
  refine ends_ite (fun _ => ends_some (kept_setWatch hi fun _ => rfl)) fun hactive => ?_
  refine ends_ite (fun _ => ends_some (kept_setWatch hi id)) fun _ => ?_
  refine ends_some (kept_setWatches fun hrevoked => ?_)
  rw [not_not.1 hactive] at hrevoked
  cases hrevoked

theorem kept_retryRenewal :
    Ends (Kept w) (w.retryRenewal now i worker generation seconds reauth) := by
  refine kept_whenHeld fun watch hi => ?_
  refine ends_ite (fun _ => ends_some (kept_setWatch hi id)) fun _ => ?_
  refine ends_ite (fun _ => ends_some (kept_setWatch hi fun _ => rfl)) fun hactive => ?_
  have hrevoked : w.status ≠ .revoked := by simp [not_not.1 hactive]
  refine ends_ite (fun _ => ends_some ?_) fun _ => ends_some ?_
  · exact kept_of_connected (.inr rfl) hrevoked rfl rfl rfl
  · exact kept_setWatches fun h => absurd h hrevoked

theorem kept_claimRevocation : Ends (Kept w) (w.claimRevocation now i worker seconds) := by
  rw [World.claimRevocation]
  split
  · exact ends_some (.refl w)
  next watch hi =>
  exact ends_ite (fun _ => ends_some (kept_setWatch hi id)) fun _ => ends_some (.refl w)

theorem kept_commitRevocation : Ends (Kept w) (w.commitRevocation now i worker generation) := by
  refine kept_whenHeld fun watch hi => ?_
  refine ends_ite (fun _ => ends_some (.refl w)) fun _ => ?_
  refine ends_ite (fun _ => ends_some (kept_setWatch hi id)) fun _ => ends_some ?_
  exact (kept_setWatch hi fun _ => revoke_status 0 watch).trans (kept_finalize _)

theorem kept_retryRevocation :
    Ends (Kept w) (w.retryRevocation now i worker generation seconds) := by
  refine kept_whenHeld fun watch hi => ?_
  refine ends_ite (fun _ => ends_some (.refl w)) fun _ => ?_
  exact ends_ite (fun _ => ends_some (kept_setWatch hi id)) fun _ =>
    ends_some (kept_setWatch hi id)

theorem kept_abandonRevocation : Ends (Kept w) (w.abandonRevocation now i worker generation) := by
  refine kept_whenHeld fun watch hi => ?_
  refine ends_ite (fun _ => ends_some (.refl w)) fun _ => ends_some ?_
  refine Kept.trans ?_ (kept_finalize _)
  exact (kept_setWatch hi fun _ => revoke_status 0 watch).trans
    (kept_of_fields rfl rfl rfl rfl rfl)

/-- **What one function of the connection keeps.** -/
theorem perform_kept (x : Text) (now : ℤ) (m : Move) (w : World) :
    Ends (fun w' => (Asked w (now, m) → Inv w → Inv w') ∧ Stamped w w') (perform x now m w) := by
  have hkept : ∀ {r : Result}, Ends (Kept w) r →
      Ends (fun w' => (Asked w (now, m) → Inv w → Inv w') ∧ Stamped w w') r := fun h =>
    h.mono fun _ hu => ⟨fun _ => hu.inv, hu.stamped⟩
  cases m with
  | task i m =>
    intro u outcome hu
    exact ⟨fun hasked hw => hw.performTask hasked u outcome hu, stamped_performTask u outcome hu⟩
  | insertTask task access => exact hkept kept_insertTask
  | retryOutbox i ticket seconds absent reauth => exact hkept kept_retryOutbox
  | abandonCleanup i ticket => exact hkept kept_abandonCleanup
  | revoke => exact hkept kept_revoke
  | deactivate => exact hkept kept_deactivate
  | reactivate => exact hkept (ends_some (kept_setWorking w true))
  | close =>
    exact hkept (ends_some
      ((kept_setWorking w false).trans (kept_beginDisconnect _ now .scrub)))
  | purge => exact hkept kept_purge
  | complete timezone envelope subscription expiresAt => exact hkept kept_complete
  | claimRefresh worker expected seconds => exact hkept kept_claimRefresh
  | commitRefresh worker expected envelope => exact hkept kept_commitRefresh
  | retryRefresh worker expected reauth => exact hkept kept_retryRefresh
  | claimPull worker seconds => exact hkept kept_claimPull
  | renewPull worker generation seconds => exact hkept kept_renewPull
  | commitPull worker generation => exact hkept kept_commitPull
  | retryPull worker reauth => exact hkept kept_retryPull
  | requestPull => exact hkept kept_requestPull
  | installWatch subscription expiresAt => exact hkept kept_installWatch
  | claimRenewal i worker seconds within => exact hkept kept_claimRenewal
  | commitRenewal i worker generation subscription expiresAt => exact hkept kept_commitRenewal
  | retryRenewal i worker generation seconds reauth => exact hkept kept_retryRenewal
  | claimRevocation i worker seconds => exact hkept kept_claimRevocation
  | commitRevocation i worker generation => exact hkept kept_commitRevocation
  | retryRevocation i worker generation seconds => exact hkept kept_retryRevocation
  | abandonRevocation i worker generation => exact hkept kept_abandonRevocation

/-! ### Runs -/

/-- **Nothing is left of a disconnection that is over**, unless it says that it does not know. -/
def LeavesNothing (w : World) : Prop :=
  w.status = .revoked → w.unconfirmed = false →
    w.credential = none ∧ (∀ t ∈ w.tasks, t.live = none) ∧
      (∀ watch ∈ w.watches, watch.status = .revoked) ∧
      ∀ t ∈ w.tasks, ∀ l ∈ t.link, l.state = .unlinked

instance (w : World) : Decidable (LeavesNothing w) :=
  inferInstanceAs (Decidable (w.status = .revoked → w.unconfirmed = false →
    w.credential = none ∧ (∀ t ∈ w.tasks, t.live = none) ∧
      (∀ watch ∈ w.watches, watch.status = .revoked) ∧
      ∀ t ∈ w.tasks, ∀ l ∈ t.link, l.state = .unlinked))

theorem Inv.leavesNothing (hw : Inv w) : LeavesNothing w := by
  intro hstatus _
  refine ⟨hw.credential.2 hstatus, fun t ht => (hw.bare hstatus t ht).live,
    hw.watches hstatus, fun t ht l hl => (hw.bare hstatus t ht).link l hl⟩

theorem inv_connect {userId : ℕ} {timezone : String} {tasks : List (Task × Bool)}
    (h : connect x now userId timezone envelope subscription expiresAt tasks = some w) : Inv w := by
  rw [connect] at h
  split at h
  · cases h
  · obtain ⟨⟨rows, rfl⟩, -⟩ := traverse_cases h
    exact inv_of_connected (.inl rfl) (Option.some_ne_none envelope) nofun

theorem step_cases (x : Text) (w : World) (i : ℤ × Move) :
    (step x w i).1 = w ∨ ∃ outcome, perform x i.1 i.2 w = some ((step x w i).1, outcome) := by
  rw [step]
  cases hp : perform x i.1 i.2 w with
  | none => exact .inl rfl
  | some r => exact .inr ⟨r.2, rfl⟩

theorem inv_of_run {moves : List (ℤ × Move)} (hw : Inv w)
    (hasked : Reactive.Along (step x) Asked w moves) : Inv (Reactive.final (step x) w moves) := by
  refine Reactive.final_of_inv_along (step x) (fun u i hu hi => ?_) hw hasked
  rcases step_cases x u i with h | ⟨outcome, h⟩
  · rw [h]
    exact hu
  · exact (perform_kept x i.1 i.2 u _ outcome h).1 hi hu

/-- **A credential changes only with its generation**, whatever is done. -/
theorem generation_of_run (x : Text) (w : World) (moves : List (ℤ × Move)) :
    Stamped w (Reactive.final (step x) w moves) := by
  refine Reactive.final_of_inv (step x) (fun u i hu => ?_) (.refl w) moves
  rcases step_cases x u i with h | ⟨outcome, h⟩
  · rw [h]
    exact hu
  · exact hu.trans (perform_kept x i.1 i.2 u _ outcome h).2

theorem commitRefresh_of_stale (hstale : expected < w.generation ∨ w.status = .revoked)
    (h : w.commitRefresh now worker expected envelope = some (w', outcome)) : w' = w := by
  rcases commitRefresh_cases w' outcome h with h | ⟨hrevoked, hgeneration, -⟩
  · exact h
  · rcases hstale with hlt | hstatus
    · omega
    · exact absurd hstatus hrevoked

theorem commitRefresh_of_disconnected (hstatus : w.status = .disconnected)
    (h : w.commitRefresh now worker expected envelope = some (w', outcome)) :
    w'.status = .disconnected := by
  rcases commitRefresh_cases w' outcome h with rfl | ⟨-, -, rfl⟩
  · exact hstatus
  · exact if_pos hstatus

/-- **A finished disconnection leaves nothing behind**, as long as the worker cancels only what it
is allowed to; and a refresh that was begun with the credential of `u` stores nothing at `v` once
`v` has another credential or has been revoked, and never ends a disconnection. -/
theorem finished_disconnection {userId : ℕ} {timezone : String} {envelope : Envelope}
    {subscription : String} {expiresAt : ℤ} {tasks : List (Task × Bool)}
    (h : connect x now userId timezone envelope subscription expiresAt tasks = some w)
    (moves later : List (ℤ × Move)) :
    let u := Reactive.final (step x) w moves
    let v := Reactive.final (step x) u later
    (Reactive.Along (step x) Asked w moves → LeavesNothing u) ∧
      (v.credential ≠ u.credential → u.generation < v.generation) ∧
      ∀ at' worker expected refreshed v' outcome,
        v.commitRefresh at' worker expected refreshed = some (v', outcome) →
        (expected < v.generation ∨ v.status = .revoked → v' = v) ∧
          (v.status = .disconnected → v'.status = .disconnected) := by
  intro u v
  refine ⟨fun hasked => (inv_of_run (inv_connect h) hasked).leavesNothing,
    (generation_of_run x u later).lt, fun at' worker expected refreshed v' outcome hcommit => ?_⟩
  exact ⟨fun hstale => commitRefresh_of_stale hstale hcommit,
    fun hstatus => commitRefresh_of_disconnected hstatus hcommit⟩

def visiting : Option World :=
  connect CalendarRuns.plain 0 1 "UTC" ⟨"sealed", "iv", "1"⟩ "watch" (24 * hour)
    [(CalendarRuns.visit, true)]

/-- The visit gets its event; the member disconnects, and a worker has claimed the unlink. -/
def leaving : List (ℤ × Move) :=
  [(1, .task 0 (.claim 7 300)), (2, .task 0 (.markEffectStarted ⟨7, 1, 1⟩)),
    (3, .task 0 (.commitCreated ⟨7, 1, 1⟩ CalendarRuns.created)), (4, .revoke),
    (5, .task 0 (.claim 7 300))]

/-- The unlink reaches the provider, and the watch is stopped. -/
def left : List (ℤ × Move) :=
  leaving ++ [(6, .task 0 (.markEffectStarted ⟨7, 2, 1⟩)),
    (7, .task 0 (.commitSent ⟨7, 2, 1⟩ (some "v1") none)), (8, .claimRevocation 0 8 300),
    (9, .commitRevocation 0 8 2)]

theorem finished_disconnection_visit : ∃ w, visiting = some w ∧
    (Reactive.final (step CalendarRuns.plain) w left).status = .revoked ∧
    (Reactive.final (step CalendarRuns.plain) w left).unconfirmed = false ∧
    LeavesNothing (Reactive.final (step CalendarRuns.plain) w left) := by
  have hconnect : visiting = some (visiting.get (by decide +kernel)) := (Option.some_get _).symm
  refine ⟨_, hconnect, by decide +kernel, by decide +kernel,
    (finished_disconnection hconnect left []).1 ?_⟩
  exact ⟨fun _ _ => trivial, fun _ _ => trivial, fun _ _ => trivial, trivial, fun _ _ => trivial,
    fun _ _ => trivial, fun _ _ => trivial, trivial, trivial, trivial⟩

/-- Where the unlink is cancelled the disconnection is finished with the event still linked: only
the outbox and the watches are looked at. -/
theorem unlink_cancelled : ∃ w, visiting = some w ∧
    ¬LeavesNothing (Reactive.final (step CalendarRuns.plain) w (leaving ++
      [(6, .task 0 (.cancel ⟨7, 2, 1⟩)), (7, .claimRevocation 0 8 300),
        (8, .commitRevocation 0 8 2)])) :=
  ⟨visiting.get (by decide +kernel), (Option.some_get _).symm, by decide +kernel⟩

end CalendarConnections
