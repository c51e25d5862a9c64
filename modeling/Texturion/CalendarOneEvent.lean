/-
**One event for one task.**

An update is queued for an event that the task has, with the version that the provider must still
have it in; a create is queued where the task has no event, or one that has been given up or
removed.  The live row is written in place by whatever comes next, while it is leased and while its
link changes, so that the two have to be kept in step by every function.

Main result:

* `CalendarOneEvent.wellFormed_of_run` — **in every run without such a step whose provider versions
  are given, the live row fits its link at every moment**.
-/

import Texturion.CalendarRuns

namespace CalendarOneEvent

open CalendarSync CalendarRows CalendarHooks CalendarCommits CalendarInbound CalendarRuns Fallible

/-- An action fits the link beside it: an update is for an event that the task has, in a known
version; a create is for a task that has none, or one given up or removed. -/
def Fits (link : Option Link) (linked : Bool) : Action → Prop
  | .upsert => linked = true ∧ ∃ l, link = some l ∧ l.state ≠ .unlinked ∧ l.version.isSome = true
  | .create => ∀ l, link = some l → l.state = .unlinked ∨ l.state = .eventRemoved
  | _ => True

def WellFormed (s : Rows) : Prop := ∀ o, s.live = some o → Fits s.link o.linked o.action

/-- With it goes that a link which is not given up has a version. -/
structure Sound (s : Rows) : Prop where
  wellFormed : WellFormed s
  versioned : ∀ l, s.link = some l → l.state ≠ .unlinked → l.version.isSome = true

/-- The provider's version is given in what a move hands over. -/
def Given : Move → Prop
  | .commitCreated _ remote => remote.version.isSome = true
  | .commitSent _ version (some _) => version.isSome = true
  | .apply _ observation => observation.version.isSome = true
  | .markEventRemoved _ _ version => version.isSome = true
  | .markRefusal _ _ version _ _ => version.isSome = true
  | .markConflict _ _ version _ _ => version.isSome = true
  | _ => True

/-- The moves that leave a row beside a link which it does not fit. -/
def Doubles (now : ℤ) (s : Rows) : Move → Prop
  | .commitSent t _ none => s.connection.status ≠ .disconnected ∧ s.eligible now = true ∧
      ∃ o, s.live = some o ∧ leasedTo now t o = true ∧ o.action ≠ .create
  | .resolveConflict .useApp _ _ => s.eligible now = true ∧
      ∃ l, s.link = some l ∧ l.state = .conflict ∧ l.eventRemovedAt = true
  | .apply proof _ => mutationLease now proof s = none ∧
      (∃ l, s.link = some l ∧ l.state = .eventRemoved ∧ unwanted now l s = false) ∧
      ∃ o, s.live = some o ∧ o.action = .create ∧ o.ambiguous = true
  | _ => False

variable {x : Text} {now : ℤ} {s s' : Rows} {outcome : Outcome}

/-! ### Small steps -/

def Kept (s s' : Rows) : Prop :=
  ∀ o', s'.live = some o' → ∃ o, s.live = some o ∧ o'.action = o.action ∧ o'.linked = o.linked

theorem kept_of_live {o o' : Outbox} (ho : s.live = some o) (ho' : s'.live = some o')
    (haction : o'.action = o.action) (hlinked : o'.linked = o.linked) : Kept s s' := by
  intro o'' ho''
  obtain rfl := Option.some.inj (ho'.symm.trans ho'')
  exact ⟨o, ho, haction, hlinked⟩

theorem Sound.of_kept (hs : Sound s) (hlink : s'.link = s.link) (h : Kept s s') : Sound s' := by
  constructor
  · intro o' ho'
    obtain ⟨o, ho, haction, hlinked⟩ := h o' ho'
    rw [hlink, haction, hlinked]
    exact hs.wellFormed o ho
  · intro l hl
    exact hs.versioned l (hlink ▸ hl)

theorem Sound.of_none (hlive : s.live = none)
    (hv : ∀ l, s.link = some l → l.state ≠ .unlinked → l.version.isSome = true) : Sound s :=
  ⟨fun o ho => by simp [hlive] at ho, hv⟩

theorem Sound.endLive (hs : Sound s) : Sound s.endLive := .of_none rfl hs.versioned

variable {l : Link} {linked : Bool} {action : Action} {requested : Option Snapshot}
  {version : Option String} {t : Ticket} {proof : LeaseProof} {instanceId : String}

theorem sound_of_link (hlive : s.live = none) (hl : s.link = some l)
    (hv : l.state ≠ .unlinked → l.version.isSome = true) : Sound s := by
  refine .of_none hlive fun l' hl' => ?_
  obtain rfl := Option.some.inj (hl.symm.trans hl')
  exact hv

/-- A change of the link in place: it keeps whether it is given up or removed. -/
theorem Sound.of_link (hs : Sound s) {l l' : Link} (hl : s.link = some l)
    (hl' : s'.link = some l') (hlive : s'.live = s.live) (hstate : l'.state = l.state)
    (hv : l'.state ≠ .unlinked → l'.version.isSome = true) : Sound s' := by
  constructor
  · intro o ho
    have hfits := hs.wellFormed o (hlive ▸ ho)
    rw [hl] at hfits
    rw [hl']
    cases haction : o.action <;> rw [haction] at hfits
    case upsert =>
      obtain ⟨hlinked, l₀, hl₀, hne, -⟩ := hfits
      obtain rfl := Option.some.inj hl₀
      rw [← hstate] at hne
      exact ⟨hlinked, l', rfl, hne, hv hne⟩
    case create =>
      intro l₀ hl₀
      obtain rfl := Option.some.inj hl₀
      rw [hstate]
      exact hfits l rfl
    all_goals trivial
  · intro l₀ hl₀
    obtain rfl := Option.some.inj (hl'.symm.trans hl₀)
    exact hv

/-- A new intent: an ambiguous row keeps what it is for, so that this must fit the link. -/
theorem sound_enqueue {now : ℤ} {precondition : Option String}
    (hv : ∀ l, s.link = some l → l.state ≠ .unlinked → l.version.isSome = true)
    (hkept : ∀ o, s.live = some o → o.ambiguous = true → Fits s.link o.linked o.action)
    (h : Fits s.link linked action) :
    Sound (s.enqueue now linked action requested precondition) := by
  have honly := s.outboxOnly_enqueue now linked action requested precondition
  constructor
  · intro o' ho'
    rw [honly.link]
    unfold Rows.enqueue at ho'
    split at ho'
    · obtain rfl := Option.some.inj ho'
      exact h
    · next o ho =>
      obtain rfl := Option.some.inj ho'
      cases hamb : o.ambiguous with
      | true =>
        obtain ⟨haction, hlinked, -⟩ :=
          Outbox.rewrite_of_ambiguous hamb now linked action requested precondition
        rw [haction, hlinked]
        exact hkept o ho hamb
      | false =>
        obtain ⟨haction, hlinked, -⟩ :=
          Outbox.rewrite_of_not_ambiguous hamb now linked action requested precondition
        rw [haction, hlinked]
        exact h
  · intro l hl
    exact hv l (honly.link ▸ hl)

theorem Sound.enqueue (hs : Sound s) (now : ℤ) (requested : Option Snapshot)
    (precondition : Option String) (h : Fits s.link linked action) :
    Sound (s.enqueue now linked action requested precondition) :=
  sound_enqueue hs.versioned (fun o ho _ => hs.wellFormed o ho) h

theorem Sound.insertLive {now : ℤ} {precondition : Option String}
    (hv : ∀ l, s.link = some l → l.state ≠ .unlinked → l.version.isSome = true)
    (hfits : Fits s.link linked action)
    (h : s.insertLive now linked action requested precondition = some s') : Sound s' := by
  have honly := Rows.outboxOnly_insertLive h
  unfold Rows.insertLive at h
  split at h
  · simp at h
  · obtain rfl := Option.some.inj h
    refine ⟨?_, hv⟩
    intro o ho
    obtain rfl := Option.some.inj ho
    exact hfits

theorem fits_create (h : s.linkState = none ∨ s.linkState = some .unlinked) (linked : Bool) :
    Fits s.link linked .create := by
  intro l hl
  rcases h with h | h
  · simp [Rows.linkState, hl] at h
  · exact .inl (by simpa [Rows.linkState, hl] using h)

/-! ### Hooks -/

theorem kept_dropIneligibleCreate (now : ℤ) (s : Rows) : Kept s (dropIneligibleCreate now s) := by
  intro o' ho'
  unfold dropIneligibleCreate at ho'
  split at ho'
  · exact ⟨o', ho', rfl, rfl⟩
  next o ho =>
  split at ho'
  · split at ho'
    · split at ho'
      · exact ⟨o', ho', rfl, rfl⟩
      · cases ho'
    · obtain rfl := Option.some.inj ho'
      exact ⟨o, ho, rfl, rfl⟩
  · exact ⟨o', ho', rfl, rfl⟩

theorem kept_rebuildCreate (h : rebuildCreate x now s = some s') : Kept s s' := by
  unfold rebuildCreate at h
  split at h
  · obtain rfl := Option.some.inj h
    exact fun o' ho' => ⟨o', ho', rfl, rfl⟩
  next o ho =>
  split at h
  · obtain ⟨requested, -, h⟩ := Option.bind_eq_some_iff.1 h
    obtain rfl := Option.some.inj h
    intro o' ho'
    obtain rfl := Option.some.inj ho'
    exact ⟨o, ho, rfl, rfl⟩
  · obtain rfl := Option.some.inj h
    exact fun o' ho' => ⟨o', ho', rfl, rfl⟩

theorem kept_dropScrub (s : Rows) : Kept s (dropScrub s) := by
  intro o' ho'
  unfold dropScrub at ho'
  split at ho'
  · exact ⟨o', ho', rfl, rfl⟩
  · split at ho'
    · cases ho'
    · exact ⟨o', ho', rfl, rfl⟩

theorem kept_dropCreate (s : Rows) : Kept s (dropCreate s) := by
  intro o' ho'
  unfold dropCreate at ho'
  split at ho'
  · exact ⟨o', ho', rfl, rfl⟩
  · split at ho'
    · cases ho'
    · exact ⟨o', ho', rfl, rfl⟩

section

variable (hs : Sound s)
include hs

theorem sound_enqueueMapped (h : enqueueMapped x now s = some s') : Sound s' := by
  unfold enqueueMapped at h
  split at h
  · obtain rfl := Option.some.inj h
    exact hs
  next l hl =>
  split at h
  · next hc =>
    split at h
    · obtain ⟨requested, -, h⟩ := Option.bind_eq_some_iff.1 h
      obtain rfl := Option.some.inj h
      exact hs.enqueue now _ _ ⟨rfl, l, hl, hc.1, hs.versioned l hl hc.1⟩
    · obtain rfl := Option.some.inj h
      refine hs.enqueue now _ _ ?_
      split <;> trivial
  · obtain rfl := Option.some.inj h
    exact hs

theorem sound_enqueueCreate (h : enqueueCreate x now s = some s') : Sound s' := by
  unfold enqueueCreate at h
  split at h
  · next hc =>
    obtain ⟨requested, -, h⟩ := Option.bind_eq_some_iff.1 h
    exact Sound.insertLive hs.versioned (fits_create hc.2.2.1 _) h
  · obtain rfl := Option.some.inj h
    exact hs

theorem sound_enqueueMappedTaskChange
    (h : enqueueMappedTaskChange x now s = some s') : Sound s' := by
  obtain ⟨t, ht, h⟩ := Option.bind_eq_some_iff.1 h
  obtain ⟨u, hu, h⟩ := Option.bind_eq_some_iff.1 h
  have hdrop := hs.of_kept (outboxOnly_dropIneligibleCreate now s).link
    (kept_dropIneligibleCreate now s)
  have ht := hdrop.of_kept (outboxOnly_rebuildCreate x now ht).link (kept_rebuildCreate ht)
  exact sound_enqueueCreate (sound_enqueueMapped ht hu) h

theorem sound_editTask {task : Task}
    (h : editTask x now task s = some (s', outcome)) : Sound s' := by
  rcases editTask_cases h with rfl | h
  · exact hs
  · have hs : Sound { s with task := task } := ⟨hs.wellFormed, hs.versioned⟩
    exact sound_enqueueMappedTaskChange hs h

theorem sound_enqueueCleanup (now : ℤ) {cleanup : Action}
    (h : cleanup = .scrub ∨ cleanup = .unlink) : Sound (enqueueCleanup now cleanup s) := by
  unfold enqueueCleanup
  split
  · exact hs
  · split
    · exact hs
    · refine hs.enqueue now _ _ ?_
      rcases h with rfl | rfl <;> trivial

theorem sound_releaseLink (hlive : s.live = none) : Sound (releaseLink s) := by
  rcases releaseLink_cases s with ⟨-, h⟩ | ⟨l, hl, -, h⟩
  · rwa [h]
  · rw [h]
    exact sound_of_link (l := releasedLink l) hlive rfl fun hne => absurd rfl hne

theorem sound_reconcileNumberAccess (h : reconcileNumberAccess x now s = some s') : Sound s' := by
  unfold reconcileNumberAccess at h
  split at h
  · split at h
    · unfold reconcileEligible at h
      split at h
      · next hc =>
        obtain ⟨requested, -, h⟩ := Option.bind_eq_some_iff.1 h
        obtain rfl := Option.some.inj h
        exact hs.enqueue now _ _ (fits_create hc _)
      · obtain rfl := Option.some.inj h
        exact hs.of_kept (outboxOnly_dropScrub s).link (kept_dropScrub s)
    · obtain rfl := Option.some.inj h
      have hdrop := hs.of_kept (outboxOnly_dropIneligibleCreate now s).link
        (kept_dropIneligibleCreate now s)
      simp only [reconcileIneligible]
      split
      · exact sound_releaseLink hdrop.endLive rfl
      · refine sound_enqueueCleanup hdrop now ?_
        split
        · exact .inr rfl
        · exact .inl rfl
  · obtain rfl := Option.some.inj h
    exact hs

theorem sound_finalizeDisconnected : Sound (finalizeDisconnected s).1 := by
  obtain ⟨c, hc⟩ := finalizeDisconnected_fst s
  rw [hc]
  exact ⟨hs.wellFormed, hs.versioned⟩

theorem sound_beginConnectionDisconnect (now : ℤ) (cleanup : Action) :
    Sound (beginConnectionDisconnect now cleanup s).1 := by
  unfold beginConnectionDisconnect
  split
  · exact hs
  · refine sound_finalizeDisconnected (sound_enqueueCleanup ?_ now ?_)
    · refine Sound.of_kept (s := { s with connection := _ }) ⟨hs.wellFormed, hs.versioned⟩
        (outboxOnly_dropCreate _).link (kept_dropCreate _)
    · split
      · exact .inl rfl
      · exact .inr rfl

end

/-! ### Commits -/

/-- What is queued behind a commit fits the link that the commit has written. -/
theorem sound_followup {action : Option Action} (hlive : s.live = none) (hl : s.link = some l)
    (hv : l.state ≠ .unlinked → l.version.isSome = true)
    (hfits : ∀ a, action = some a → Fits (some l) true a)
    (h : followup now s action requested version = some s') : Sound s' := by
  have hs := sound_of_link hlive hl hv
  unfold followup at h
  split at h
  · obtain rfl := Option.some.inj h
    exact hs
  · next a => exact Sound.insertLive hs.versioned (hl ▸ hfits a rfl) h

theorem getD_cleanup (hc : CleanupKnown s) :
    s.connection.cleanup.getD .unlink = .unlink ∨ s.connection.cleanup.getD .unlink = .scrub := by
  cases h : s.connection.cleanup with
  | none => exact .inl rfl
  | some a => exact hc a h

theorem createdFollowup_ne_create (hc : CleanupKnown s) {sent requested : Snapshot}
    {current : Option Snapshot} : createdFollowup now s sent requested current ≠ some .create := by
  unfold createdFollowup
  rcases getD_cleanup hc with h | h <;> split_ifs <;> simp [h]

theorem sentFollowup_ne_create (hc : CleanupKnown s) {o : Outbox} {sent current : Option Snapshot} :
    sentFollowup now s o sent current ≠ some .create := by
  unfold sentFollowup
  rcases getD_cleanup hc with h | h <;> split_ifs <;> simp [h]

/-- Behind an unlink comes no update, unless the task is on the calendar. -/
theorem sentFollowup_unlink_ne_upsert {o : Outbox} {current : Option Snapshot}
    (h : ¬(s.connection.status ≠ .disconnected ∧ s.eligible now = true)) :
    sentFollowup now s o none current ≠ some .upsert := by
  unfold sentFollowup
  by_cases hd : s.connection.status = .disconnected
  · simp only [hd, true_and, if_true, Option.isSome_none, Bool.false_eq_true, if_false]
    split <;> simp
  · have he : s.eligible now = false := by
      by_contra hne
      exact h ⟨hd, by simpa using hne⟩
    simp only [hd, false_and, if_false, he, Bool.false_eq_true, Option.isSome_none]
    split <;> simp

theorem sound_commitCreated {r : Remote} (hs : Sound s) (hc : CleanupKnown s)
    (hgiven : r.version.isSome = true) (h : commitCreated x now t r s = some (s', outcome)) :
    Sound s' := by
  rcases commitCreated_cases h with
    ⟨rfl, -⟩ | ⟨o, sent, requested, current, -, -, -, -, -, -, -,
      ⟨-, -, -, rfl⟩ | ⟨-, u, hu, rfl⟩⟩
  · exact hs
  · exact sound_of_link (l := createdLink r true sent requested current) rfl rfl fun _ => hgiven
  · refine sound_finalizeDisconnected (sound_followup rfl rfl (fun _ => hgiven) ?_ hu)
    intro a ha
    cases a
    case upsert => exact ⟨rfl, _, rfl, by simp [createdLink], hgiven⟩
    case create => exact absurd ha (createdFollowup_ne_create hc)
    all_goals trivial

theorem sound_commitSent {fields : Option Sent} (hs : Sound s) (hc : CleanupKnown s)
    (hgiven : Given (.commitSent t version fields))
    (hnot : ¬Doubles now s (.commitSent t version fields))
    (h : commitSent x now t version fields s = some (s', outcome)) : Sound s' := by
  rcases commitSent_cases h with
    ⟨rfl, -⟩ | ⟨o, l, sent, current, u, ho, hleased, haction, hl, hsent, -, hu, rfl⟩
  · exact hs
  refine sound_finalizeDisconnected ?_
  cases fields with
  | none =>
    obtain rfl := Option.some.inj hsent
    refine sound_followup (l := sentLink l version none) rfl rfl (fun hne => absurd rfl hne) ?_ hu
    intro a ha
    cases a
    case upsert =>
      refine absurd ha (sentFollowup_unlink_ne_upsert fun hdoubles => hnot ?_)
      exact ⟨hdoubles.1, hdoubles.2, o, ho, hleased, haction⟩
    case create => exact absurd ha (sentFollowup_ne_create hc)
    all_goals trivial
  | some f =>
    obtain ⟨written, -, hwritten⟩ := Option.map_eq_some_iff.1 hsent
    subst hwritten
    refine sound_followup (l := sentLink l version (some written)) rfl rfl (fun _ => hgiven) ?_ hu
    intro a ha
    cases a
    case upsert => exact ⟨rfl, _, rfl, by simp [sentLink], hgiven⟩
    case create => exact absurd ha (sentFollowup_ne_create hc)
    all_goals trivial

theorem sound_createAfterScrub {r : Rows × Bool} (hlive : s.live = none)
    (h : createAfterScrub x now (s.setLink { releasedLink l with version := version }) = some r) :
    Sound r.1 := by
  have hs : Sound (s.setLink { releasedLink l with version := version }) :=
    sound_of_link hlive rfl fun hne => absurd rfl hne
  unfold createAfterScrub at h
  split at h
  · obtain ⟨current, -, h⟩ := Option.bind_eq_some_iff.1 h
    obtain ⟨u, hu, h⟩ := Option.bind_eq_some_iff.1 h
    obtain rfl := Option.some.inj h
    exact Sound.insertLive hs.versioned (fits_create (.inr rfl) true) hu
  · obtain rfl := Option.some.inj h
    exact hs

section

variable (hs : Sound s)
include hs

theorem sound_commitScrubbed {deleted : Bool}
    (h : commitScrubbed x now t version deleted s = some (s', outcome)) : Sound s' := by
  rcases commitScrubbed_cases h with rfl | ⟨o, l, v, r, -, -, -, -, hr, rfl⟩
  · exact hs
  · exact sound_finalizeDisconnected (sound_createAfterScrub rfl hr)

theorem sound_abandonCleanup (h : abandonCleanup now t s = some (s', outcome)) : Sound s' := by
  rcases abandonCleanup_cases h with
    rfl | ⟨o, -, -, -, ⟨-, rfl⟩ | ⟨-, -, rfl⟩ | ⟨-, l, -, rfl⟩⟩
  · exact hs
  · have hs : Sound { s.endLive with connection := { s.connection with
        status := .revoked
        cleanup := none
        watch := false
        pullLease := none } } := .of_none rfl hs.versioned
    exact sound_releaseLink hs rfl
  · exact hs.endLive
  · exact sound_of_link (l := releasedLink l) rfl rfl fun hne => absurd rfl hne

/-! ### Observations -/

section

variable (hgiven : version.isSome = true)
include hgiven

theorem sound_markRefusal {code : String} {clear : Bool}
    (h : markRefusal now proof instanceId version code clear s = (s', outcome)) : Sound s' := by
  rcases markRefusal_cases h with rfl | ⟨l, hl, -, ⟨-, rfl⟩ | ⟨-, rfl⟩ | ⟨-, rfl⟩⟩
  · exact hs
  · exact sound_of_link (s := Rows.endLive _) rfl (clearDue_link _ _) fun _ => hgiven
  · exact hs.of_link hl rfl rfl rfl fun _ => hgiven
  · exact sound_of_link (s := Rows.endLive _) rfl (clearDue_link _ _) fun _ => hgiven

theorem sound_markEventRemoved
    (h : markEventRemoved x now proof instanceId version s = some (s', outcome)) : Sound s' := by
  rcases markEventRemoved_cases h with rfl | ⟨l, hl, -, ⟨-, r, hr, rfl⟩ | ⟨-, h⟩⟩
  · exact hs
  · exact sound_finalizeDisconnected (sound_createAfterScrub rfl hr)
  · rcases removeEvent_cases h with rfl | ⟨-, rfl⟩ | ⟨-, rfl⟩ | ⟨-, rfl⟩
    · exact hs
    · exact hs.of_link hl rfl rfl rfl fun _ => hgiven
    · exact hs.of_link hl rfl rfl rfl fun _ => hgiven
    · exact sound_of_link (s := Rows.endLive _) rfl (clearDue_link _ _) fun _ => hgiven

theorem sound_markConflict {worker generation : ℕ} {ours theirs : Snapshot}
    (h : markConflict now worker generation version ours theirs s = (s', outcome)) : Sound s' := by
  rcases markConflict_cases h with rfl | ⟨l, hl, -, ⟨-, rfl⟩ | ⟨-, rfl⟩⟩
  · exact hs
  · exact hs.of_link hl rfl rfl rfl fun _ => hgiven
  · exact sound_of_link (l := conflictLink l version ours theirs) rfl rfl fun _ => hgiven

end

/-- A push fits the link that has been settled for it, unless a create may be on its way for a
removed event. -/
theorem sound_push {base snapshot : Snapshot} (hl : s.link = some l) (hstate : l.state ≠ .unlinked)
    (hlease : mutationLease now proof s = none) (haccess : s.access = true)
    (hgiven : version.isSome = true) (hnot : l.state = .eventRemoved →
      ∀ o, s.live = some o → o.action = .create → o.ambiguous = false) :
    Sound (enqueuePush now proof version snapshot (s.setLink (settledLink l version base))) := by
  rw [enqueuePush_of_lease hlease haccess rfl]
  refine sound_enqueue ?_ ?_ ⟨rfl, _, rfl, by simp [settledLink], hgiven⟩
  · intro l' hl' _
    obtain rfl := Option.some.inj hl'
    exact hgiven
  · intro o ho hamb
    have hfits := hs.wellFormed o ho
    rw [hl] at hfits
    cases haction : o.action <;> rw [haction] at hfits
    case upsert => exact ⟨hfits.1, _, rfl, by simp [settledLink], hgiven⟩
    case create =>
      rcases hfits l rfl with hunlinked | hremoved
      · exact absurd hunlinked hstate
      · rw [hnot hremoved o ho haction] at hamb
        cases hamb
    all_goals trivial

theorem sound_weigh {obs : Observation} {ours theirs : Snapshot} (hl : s.link = some l)
    (hstate : l.state ≠ .unlinked) (hlease : mutationLease now proof s = none)
    (haccess : s.access = true) (hgiven : obs.version.isSome = true)
    (hnot : l.state = .eventRemoved →
      ∀ o, s.live = some o → o.action = .create → o.ambiguous = false)
    (h : weigh now proof obs l ours theirs s = some (s', outcome)) : Sound s' := by
  rcases weigh_cases h with ⟨b, rfl⟩ | ⟨b, rfl⟩ | ⟨u, -, -, rfl⟩ | rfl
  · exact sound_of_link (l := settledLink l obs.version b) rfl rfl fun _ => hgiven
  · exact sound_push hs hl hstate hlease haccess hgiven hnot
  · exact sound_of_link (l := settledLink l obs.version theirs) rfl rfl fun _ => hgiven
  · exact sound_of_link (l := conflictLink l obs.version ours theirs) rfl rfl fun _ => hgiven

theorem sound_enqueueUnwanted :
    Sound (enqueueUnwanted now (if s.access then .unlink else .scrub) version s) := by
  have hfits : Fits s.link true (if s.access then .unlink else .scrub) := by
    split <;> trivial
  unfold enqueueUnwanted
  split
  · exact hs.enqueue now _ _ hfits
  · next o ho =>
    have hrow : Sound (s.enqueue now true (if s.access then .unlink else .scrub) none version) :=
      hs.enqueue now none version hfits
    -- the generation takes no part in what the row is for
    refine ⟨?_, hs.versioned⟩
    intro o' ho'
    obtain rfl := Option.some.inj ho'
    have hlive : (s.enqueue now true (if s.access then .unlink else .scrub) none version).live =
        some (o.rewrite now true (if s.access then .unlink else .scrub) none version) := by
      simp only [Rows.enqueue, ho]
    have h := hrow.wellFormed _ hlive
    rw [(s.outboxOnly_enqueue now true _ none version).link] at h
    exact h

theorem sound_applyProviderSnapshot {obs : Observation} (hgiven : obs.version.isSome = true)
    (hnot : ¬Doubles now s (.apply proof obs))
    (h : applyProviderSnapshot x now proof obs s = some (s', outcome)) : Sound s' := by
  rcases applyProviderSnapshot_cases h with rfl | ⟨l, hl, hstate, -, hlease, hcases⟩
  · exact hs
  rcases hcases with ⟨-, rfl⟩ | ⟨-, code, h⟩ | ⟨hwanted, -, ours, theirs, -, -, h⟩
  · exact sound_enqueueUnwanted hs
  · exact sound_markRefusal hs hgiven h
  have hnot : l.state = .eventRemoved →
      ∀ o, s.live = some o → o.action = .create → o.ambiguous = false := by
    intro hremoved o ho haction
    by_contra hamb
    exact hnot ⟨hlease, ⟨l, hl, hremoved, hwanted⟩, o, ho, haction, by simpa using hamb⟩
  rcases h with ⟨-, h⟩ | ⟨-, o, -, h⟩ | ⟨-, -, u, -, rfl⟩
  · rcases recoverWrite_cases h with rfl | ⟨snapshot, -, h⟩
    · exact sound_of_link (l := settledLink l obs.version theirs) rfl rfl fun _ => hgiven
    · have hfits : Fits (some (settledLink l obs.version theirs)) true .upsert :=
        ⟨rfl, _, rfl, by simp [settledLink], hgiven⟩
      refine Sound.insertLive ?_ hfits h
      intro l' hl' _
      obtain rfl := Option.some.inj hl'
      exact hgiven
  · exact sound_weigh hs hl hstate hlease (access_of_wanted hwanted) hgiven hnot h
  · exact sound_of_link (l := settledLink l obs.version theirs) rfl rfl fun _ => hgiven

end

/-! ### The member's answers -/

theorem sound_replaceLive
    (hv : ∀ l, s.link = some l → l.state ≠ .unlinked → l.version.isSome = true)
    (h : Fits s.link true action) : Sound (replaceLive now action requested version s) := by
  have honly := outboxOnly_replaceLive now action requested version s
  constructor
  · intro o ho
    rw [honly.link]
    unfold replaceLive at ho
    split at ho
    · next hlive =>
      simp only [Rows.enqueue, hlive] at ho
      obtain rfl := Option.some.inj ho
      exact h
    · obtain rfl := Option.some.inj ho
      exact h
  · intro l hl
    exact hv l (honly.link ▸ hl)

theorem sound_resolveConflict {resolution : Resolution} {expected : Option Snapshot}
    {reading : Fresh} (hs : Sound s)
    (hnot : ¬Doubles now s (.resolveConflict resolution expected reading))
    (h : resolveConflict x now resolution expected reading s = some (s', outcome)) : Sound s' := by
  rcases resolveConflict_cases h with rfl | ⟨l, hl, hstate, -, -, ⟨rfl, hres⟩ | ⟨-, hres⟩⟩
  · exact hs
  · have hversion := hs.versioned l hl (by simp [hstate])
    have hv : ∀ l', (s.setLink (settledLink l l.version l.base)).link = some l' →
        l'.state ≠ .unlinked → l'.version.isSome = true := by
      intro l' hl' _
      obtain rfl := Option.some.inj hl'
      exact hversion
    rcases resolveUseApp_cases hres with rfl | ⟨he, snapshot, -, ⟨hremoved, rfl⟩ | ⟨-, rfl⟩⟩
    · exact hs
    · exact absurd ⟨he, l, hl, hstate, hremoved⟩ hnot
    · exact sound_replaceLive hv ⟨rfl, _, rfl, by simp [settledLink], hversion⟩
  · rcases resolveUseCalendar_cases hres with rfl | ⟨code, hgiven, rfl⟩ | ⟨task, base, hgiven, rfl⟩
    · exact hs
    · exact hs.of_link hl rfl rfl rfl fun _ => hgiven
    · exact sound_of_link (l := settledLink l reading.version base) rfl rfl fun _ => hgiven

theorem sound_observeCondition {expected : Option Snapshot} {expectedVersion : Option String}
    {refusal : Option (String × String)} (hs : Sound s)
    (h : observeCondition x instanceId expected expectedVersion refusal s = some (s', outcome)) :
    Sound s' := by
  rcases observeCondition_cases h with rfl | ⟨l, version, code, removed, hl, hstate, -, hv, rfl⟩
  · exact hs
  · refine hs.of_link hl rfl rfl rfl fun _ => hv ?_
    exact hs.versioned l hl (by simp [hstate])

theorem sound_resolveEventRemoved {answer : Answer} (hs : Sound s)
    (h : resolveEventRemoved x now answer s = some (s', outcome)) : Sound s' := by
  rcases resolveEventRemoved_cases h with
    rfl | ⟨l, hl, hstate, -, rfl | ⟨due, r, snapshot, -, -, -, -, hr, -, rfl⟩⟩
  · exact hs
  · exact sound_of_link (l := { l with state := .unlinked }) rfl rfl fun hne => absurd rfl hne
  · have hedit := sound_editTask hs hr
    have hlink : r.1.link = some l := (editTask_link hr).trans hl
    refine sound_replaceLive hedit.versioned ?_
    intro l' hl'
    obtain rfl := Option.some.inj (hlink.symm.trans hl')
    exact .inr hstate

/-! ### Runs -/

/-- **Every other function keeps the row and the link in step.** -/
theorem perform_sound {m : Move} (hs : Sound s) (hc : CleanupKnown s) (hgiven : Given m)
    (hnot : ¬Doubles now s m) (h : perform x now m s = some (s', outcome)) : Sound s' := by
  cases m with
  | editTask task => exact sound_editTask hs h
  | changeAccess allowed =>
    have hs : Sound { s with access := allowed } := ⟨hs.wellFormed, hs.versioned⟩
    exact sound_reconcileNumberAccess hs (changeAccess_cases h)
  | deactivateMember =>
    obtain ⟨u, hu, rfl⟩ := deactivateMember_cases h
    have hs : Sound { s with
        access := false, connection := { s.connection with working := false } } :=
      ⟨hs.wellFormed, hs.versioned⟩
    exact sound_beginConnectionDisconnect (sound_reconcileNumberAccess hs hu) now .scrub
  | closeCompany =>
    obtain rfl := left_eq h
    have hs : Sound { s with connection := { s.connection with working := false } } :=
      ⟨hs.wellFormed, hs.versioned⟩
    exact sound_beginConnectionDisconnect hs now .scrub
  | revokeConnection renewing =>
    rcases revokeConnection_cases h with rfl | ⟨-, rfl⟩
    · exact hs
    · exact sound_beginConnectionDisconnect hs now .unlink
  | completeConnection timezone =>
    rcases completeConnection_cases h with rfl | ⟨-, h⟩
    · exact hs
    · refine sound_enqueueCreate ?_ h
      exact ⟨hs.wellFormed, hs.versioned⟩
  | rejectCredential =>
    rcases rejectCredential_cases h with rfl | ⟨-, rfl⟩ | ⟨-, rfl⟩
    · exact hs
    · exact sound_releaseLink (.of_none rfl hs.versioned) rfl
    · exact ⟨hs.wellFormed, hs.versioned⟩
  | renewCredential =>
    rcases renewCredential_cases h with rfl | ⟨-, rfl⟩
    · exact hs
    · exact ⟨hs.wellFormed, hs.versioned⟩
  | commitWebhookRevocation =>
    obtain rfl := left_eq h
    refine sound_finalizeDisconnected ?_
    exact ⟨hs.wellFormed, hs.versioned⟩
  | claimPull worker seconds =>
    rcases claimPull_cases h with rfl | ⟨-, h⟩
    · exact hs
    · refine sound_enqueueCreate ?_ h
      exact ⟨hs.wellFormed, hs.versioned⟩
  | renewPull worker seconds =>
    obtain ⟨l, rfl⟩ := renewPull_cases h
    exact ⟨hs.wellFormed, hs.versioned⟩
  | endPull worker =>
    obtain ⟨l, rfl⟩ := endPull_cases h
    exact ⟨hs.wellFormed, hs.versioned⟩
  | claim worker seconds =>
    rcases claim_cases h with rfl | ⟨o, ho, -, rfl⟩
    · exact hs
    · exact hs.of_kept rfl (kept_of_live ho rfl rfl rfl)
  | markEffectStarted ticket =>
    rcases markEffectStarted_cases h with rfl | ⟨o, ho, -, -, rfl⟩
    · exact hs
    · exact hs.of_kept rfl (kept_of_live ho rfl rfl rfl)
  | commitCreated ticket remote => exact sound_commitCreated hs hc hgiven h
  | commitSent ticket version fields => exact sound_commitSent hs hc hgiven hnot h
  | commitScrubbed ticket version deleted => exact sound_commitScrubbed hs h
  | abandonCleanup ticket => exact sound_abandonCleanup hs h
  | retry ticket seconds absent =>
    rcases retry_cases h with rfl | ⟨o, availableAt, ho, -, rfl⟩
    · exact hs
    · exact hs.of_kept rfl (kept_of_live ho rfl rfl rfl)
  | cancel ticket =>
    rcases cancel_cases h with rfl | ⟨o, ho, -, ⟨rfl, -⟩ | ⟨rfl, -, -⟩⟩
    · exact hs
    · exact hs.of_kept rfl (kept_of_live ho rfl rfl rfl)
    · exact hs.endLive
  | apply proof observation => exact sound_applyProviderSnapshot hs hgiven hnot h
  | markEventRemoved proof instanceId version => exact sound_markEventRemoved hs hgiven h
  | markRefusal proof instanceId version code clear =>
    exact sound_markRefusal hs hgiven (Option.some.inj h)
  | markConflict worker generation version ours theirs =>
    exact sound_markConflict hs hgiven (Option.some.inj h)
  | observeCondition instanceId expected expectedVersion refusal =>
    exact sound_observeCondition hs h
  | resolveConflict resolution expected reading => exact sound_resolveConflict hs hnot h
  | resolveEventRemoved answer => exact sound_resolveEventRemoved hs h

variable (x)

/-- **The live row fits its link at every moment**: in every run none of whose steps doubles an
event, and in which the provider's versions are given, an update is for an event that the task has,
in a known version, and a create is for a task that has none, or one given up or removed. -/
theorem wellFormed_of_run (task : Task) (userId : ℕ) (timezone : String) (access : Bool)
    (moves : List (ℤ × Move)) (hgiven : ∀ i ∈ moves, Given i.2)
    (h : Reactive.Along (step x) (fun s i => ¬Doubles i.1 s i.2)
      (fresh task userId timezone access) moves) :
    WellFormed (Reactive.final (step x) (fresh task userId timezone access) moves) := by
  have hall := (Reactive.along_and (step x)).2 ⟨Reactive.along_of_forall (step x) hgiven _, h⟩
  have hfinal := Reactive.final_of_inv_along (step x) (P := fun s => Sound s ∧ CleanupKnown s)
    ?_ ?_ hall
  · exact hfinal.1.wellFormed
  · intro s i hs hi
    refine step_of_perform (P := fun s => Sound s ∧ CleanupKnown s) hs fun s' outcome hp => ?_
    exact ⟨perform_sound hs.1 hs.2 hi.1 hi.2 hp, perform_cleanupKnown hs.2 hp⟩
  · refine ⟨.of_none rfl ?_, cleanupKnown_of_none rfl⟩
    intro l hl
    cases hl

/-! ### An unlink that is committed after the task has come back -/

/-- The task is assigned to nobody; the unlink is claimed, and the worker finds no event. -/
def unassigned : List (ℤ × Move) :=
  [(10, .editTask { visit with assignedUserId := none }), (11, .claim 7 300)]

/-- The unlink is committed while the task is off the calendar. -/
theorem wellFormed_of_run_unassigned :
    WellFormed (after (unassigned ++ [(13, .commitSent ⟨7, 2, 1⟩ none none)])) := by
  refine wellFormed_of_run plain visit 1 "UTC" true _ ?_ ?_
  · simp [mapped, unassigned, Given, created]
  · refine ⟨id, id, id, id, id, id, ?_, trivial⟩
    rintro ⟨-, he, -⟩
    exact absurd he (by decide +kernel)

/-- **An update of an event that has been given up**: the task is assigned back before the unlink of
a missing event is committed, and the commit queues an update without a version. -/
theorem upsert_of_unlinked :
    ¬WellFormed (after (unassigned ++
      [(12, .editTask visit), (13, .commitSent ⟨7, 2, 1⟩ none none)])) := by
  intro h
  generalize hs : after (unassigned ++
    [(12, .editTask visit), (13, .commitSent ⟨7, 2, 1⟩ none none)]) = s at h
  have hlive : s.live.map (·.action) = some .upsert := by
    rw [← hs]
    decide +kernel
  have hstate : s.linkState = some .unlinked := by
    rw [← hs]
    decide +kernel
  obtain ⟨o, ho, haction⟩ := Option.map_eq_some_iff.1 hlive
  have hfits := h o ho
  rw [haction] at hfits
  obtain ⟨-, l, hl, hne, -⟩ := hfits
  rw [Rows.linkState, hl] at hstate
  exact hne (Option.some.inj hstate)

end CalendarOneEvent
