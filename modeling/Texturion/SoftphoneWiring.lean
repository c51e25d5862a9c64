/-
**What the softphone never mixes up.**

A leg is nowhere before its INVITE has come; a leg that is held is not on the screen, and the core
watches none that is held or has ended; the ids of chips are no legs.  Nothing is asked of a run for
this: every step keeps it.

Main results:

* `Softphone.move_wired` — every step keeps it.
-/

import Texturion.SoftphoneCore

namespace Softphone

/-! ### The invariant -/

structure WiredAt (p : Phone) (id : CallId) : Prop where
  born : p.sdk id = none →
    p.handles id = false ∧ isHeld p id = false ∧
      (hasCall p.state id = true → ∃ session, id = .placement session)
  apart : isHeld p id = true → hasCall p.state id = false ∧ p.handles id = false
  ended : shows p.state id .ended → p.handles id = false
  chip : ∀ session, id = .placement session →
    p.sdk id = none ∧ ∀ x, shows p.state id x → x = .connecting

def Wired (p : Phone) : Prop := ∀ id, WiredAt p id

/-- A step after which a call is nowhere it was not before. -/
structure Less (p q : Phone) (id : CallId) : Prop where
  sdk : q.sdk id = none ↔ p.sdk id = none
  handles : q.handles id = true → p.handles id = true
  held : isHeld q id = true → isHeld p id = true
  calls : hasCall q.state id = true → hasCall p.state id = true
  ended : shows q.state id .ended → shows p.state id .ended
  connecting : (∀ x, shows p.state id x → x = .connecting) →
    ∀ x, shows q.state id x → x = .connecting

theorem WiredAt.of_less {p q : Phone} {id : CallId} (hw : WiredAt p id) (h : Less p q id) :
    WiredAt q id where
  born hsdk := by
    obtain ⟨hhandle, hheld, hcall⟩ := hw.born (h.sdk.1 hsdk)
    refine ⟨Bool.eq_false_iff.2 fun hq => ?_, Bool.eq_false_iff.2 fun hq => ?_, fun hq => ?_⟩
    · exact absurd ((h.handles hq).symm.trans hhandle) (by decide)
    · exact absurd ((h.held hq).symm.trans hheld) (by decide)
    · exact hcall (h.calls hq)
  apart hheld := by
    obtain ⟨hcall, hhandle⟩ := hw.apart (h.held hheld)
    refine ⟨Bool.eq_false_iff.2 fun hq => ?_, Bool.eq_false_iff.2 fun hq => ?_⟩
    · exact absurd ((h.calls hq).symm.trans hcall) (by decide)
    · exact absurd ((h.handles hq).symm.trans hhandle) (by decide)
  ended hended := Bool.eq_false_iff.2 fun hq =>
    absurd ((h.handles hq).symm.trans (hw.ended (h.ended hended))) (by decide)
  chip session hid :=
    ⟨h.sdk.2 (hw.chip session hid).1, h.connecting (hw.chip session hid).2⟩

theorem Less.refl (p : Phone) (id : CallId) : Less p p id :=
  ⟨Iff.rfl, fun h => h, fun h => h, fun h => h, fun h => h, fun h => h⟩

theorem Less.trans {p q r : Phone} {id : CallId} (h : Less p q id) (h' : Less q r id) :
    Less p r id where
  sdk := h'.sdk.trans h.sdk
  handles := h.handles ∘ h'.handles
  held := h.held ∘ h'.held
  calls := h.calls ∘ h'.calls
  ended := h.ended ∘ h'.ended
  connecting := h'.connecting ∘ h.connecting

theorem Less.of_eq {p q : Phone} {id : CallId} (hsdk : q.sdk = p.sdk)
    (hhandles : q.handles = p.handles) (hheld : q.heldInvites = p.heldInvites)
    (hstate : q.state = p.state) : Less p q id where
  sdk := by rw [hsdk]
  handles h := by rwa [hhandles] at h
  held h := by simpa only [isHeld, hheld] using h
  calls h := by rwa [hstate] at h
  ended h := by rwa [hstate] at h
  connecting h := by rwa [hstate]

/-! ### What the list of calls loses -/

variable {phase : CallPhase}

section

variable {s : SoftphoneSnapshot} {id id' : CallId}

theorem hasCall_dropped : hasCall (dropped s id') id = true ↔ hasCall s id = true ∧ id ≠ id' := by
  simp only [hasCall_iff, shows_dropped, exists_and_right]

theorem hasCall_of_sdkPhase
    (h : hasCall (sdkPhase s id' phase) id = true) : hasCall s id = true := by
  have hmap : ∀ (f : CallSnapshot → CallSnapshot) (activeId : Option CallId),
      (∀ c, (f c).id = c.id) → hasCall ⟨s.calls.map f, activeId⟩ id = true →
        hasCall s id = true := by
    intro f activeId hf h
    simpa [hasCall, hf] using h
  have hset : ∀ (ph : CallPhase) (activeId : Option CallId), hasCall
      { update s id' (fun c => { c with phase := ph }) with activeId := activeId } id = true →
      hasCall s id = true := fun ph activeId =>
    hmap _ activeId fun c => by split <;> rfl
  by_cases hcall : hasCall s id' = true
  · unfold sdkPhase at h
    split at h
    · exact h
    · split at h
      · cases phase with
        | active => exact hmap _ _ (activated_id id') h
        | ended => exact (hasCall_dropped.1 h).1
        | ringing | connecting | held => exact h
      · cases phase with
        | active => exact hmap _ _ (activated_id id') h
        | ended => exact hset .ended _ h
        | ringing | connecting => exact hset .connecting _ h
        | held => exact hset .held _ h
  · rwa [sdkPhase_of_not_hasCall (by simpa using hcall)] at h

theorem ended_of_sdkPhase_self (hphase : phase ≠ .ended)
    (h : shows (sdkPhase s id phase) id .ended) : shows s id .ended := by
  unfold sdkPhase at h
  split at h
  · exact h
  · split at h
    · cases phase with
      | active => exact nomatch (shows_activate_self.1 h).2
      | ended => exact absurd rfl hphase
      | ringing | connecting | held => exact h
    · cases phase with
      | active => exact nomatch (shows_activate_self.1 h).2
      | ended => exact absurd rfl hphase
      | ringing | connecting | held => exact nomatch (shows_setPhase_self.1 h).2

theorem connecting_of_sdkPhase (hne : id ≠ id') (h : ∀ x, shows s id x → x = .connecting)
    (x : CallPhase) (hx : shows (sdkPhase s id' phase) id x) : x = .connecting := by
  by_cases hactive : phase = .active
  · subst hactive
    by_cases hcall : hasCall s id' = true
    · rw [sdkPhase_active hcall, shows_activate_of_ne hne] at hx
      exact hx.elim (fun hx => h x hx.1) fun hx => absurd (h _ hx.2) (by decide)
    · rw [sdkPhase_of_not_hasCall (by simpa using hcall)] at hx
      exact h x hx
  · exact h x ((shows_sdkPhase_of_ne hne hactive).1 hx)

theorem ended_of_sdkPhase (hne : id ≠ id')
    (h : shows (sdkPhase s id' phase) id .ended) : shows s id .ended := by
  by_cases hactive : phase = .active
  · subst hactive
    by_cases hcall : hasCall s id' = true
    · rw [sdkPhase_active hcall, shows_activate_of_ne hne] at h
      exact h.elim And.left fun h => nomatch h.1
    · rwa [sdkPhase_of_not_hasCall (by simpa using hcall)] at h
  · exact (shows_sdkPhase_of_ne hne hactive).1 h

end

section

variable {p : Phone} {id : CallId}

theorem Less.tell (p : Phone) (id id' : CallId) (c : Command) : Less p (tell p id c) id' :=
  Less.of_eq rfl rfl rfl rfl

theorem Less.requestHold (p : Phone) (id id' : CallId) (hold : Bool) :
    Less p (requestHold p id hold) id' := by
  rcases requestHold_cases p id hold with h | ⟨-, -, h⟩
  · rw [h]
    exact Less.refl p id'
  · rw [h]
    exact Less.of_eq rfl rfl rfl rfl

theorem Less.holdActive (p : Phone) (activeId : Option CallId) (id id' : CallId) :
    Less p (holdActive p activeId id) id' := by
  rcases holdActive_cases p activeId id with h | ⟨previousActive, -, -, h⟩
  · rw [h]
    exact Less.refl p id'
  · rw [h]
    exact Less.requestHold p previousActive id' true

theorem Less.released (p : Phone) (ids : List CallId) (id : CallId) :
    Less p (ids.foldl releaseHeld p) id := by
  obtain ⟨clocks, h⟩ := foldl_releaseHeld p ids
  rw [h]
  refine ⟨Iff.rfl, fun h => h, fun h => ?_, fun h => h, fun h => h, fun h => h⟩
  obtain ⟨held, hmem, hid⟩ := List.any_eq_true.1 h
  exact List.any_eq_true.2 ⟨held, List.mem_of_mem_filter hmem, hid⟩

variable {q : Phone}

theorem Less.dropped {id' : CallId} (hsdk : q.sdk = p.sdk)
    (hhandles : q.handles = p.handles) (hheld : q.heldInvites = p.heldInvites)
    (hstate : q.state = Softphone.dropped p.state id') : Less p q id where
  sdk := by rw [hsdk]
  handles h := by rwa [hhandles] at h
  held h := by simpa only [isHeld, hheld] using h
  calls h := by
    rw [hstate] at h
    exact (hasCall_dropped.1 h).1
  ended h := by
    rw [hstate] at h
    exact (shows_dropped.1 h).1
  connecting h x hx := by
    rw [hstate] at hx
    exact h x (shows_dropped.1 hx).1

theorem Less.dropRinging (p : Phone) (id id' : CallId) (hne : id' ≠ id) :
    Less p (dropRingingPresentation p id) id' where
  sdk := Iff.rfl
  handles h := by simpa [dropRingingPresentation, Function.update_of_ne hne] using h
  held h := h
  calls h := hasCall_of_sdkPhase h
  ended h := ended_of_sdkPhase hne h
  connecting := connecting_of_sdkPhase hne

theorem Wired.dropRinging (hw : Wired p) (hleg : ∀ session, id ≠ .placement session) :
    Wired (dropRingingPresentation p id) := by
  intro id'
  by_cases hid : id' = id
  · subst hid
    have hat := hw id'
    exact
      { born := fun h => ⟨Function.update_self .., (hat.born h).2.1, fun hcall =>
          (hat.born h).2.2 (hasCall_of_sdkPhase hcall)⟩
        apart := fun h => ⟨Bool.eq_false_iff.2 fun hcall => absurd
          ((hasCall_of_sdkPhase hcall).symm.trans (hat.apart h).1) (by decide),
          Function.update_self ..⟩
        ended := fun _ => Function.update_self ..
        chip := fun session h => absurd h (hleg session) }
  · exact (hw id').of_less (Less.dropRinging p id id' hid)

theorem Wired.dropRings (hw : Wired p) {ids : List CallId}
    (hids : ∀ id ∈ ids, shows p.state id .ringing) :
    Wired (ids.foldl dropRingingPresentation p) := by
  have hleg : ∀ id ∈ ids, ∀ session, id ≠ .placement session := fun id hid session h =>
    absurd (((hw id).chip session h).2 _ (hids id hid)) (by decide)
  clear hids
  induction ids generalizing p with
  | nil => exact hw
  | cons id ids ih =>
    exact ih (hw.dropRinging (hleg id (List.mem_cons_self ..))) fun other h =>
      hleg other (List.mem_cons_of_mem _ h)

theorem Wired.failPlacements (hw : Wired p) (pendings : List PendingPlacement) :
    Wired (pendings.foldl failPlacement p) := by
  induction pendings generalizing p with
  | nil => exact hw
  | cons pending pendings ih =>
    exact ih fun id => (hw id).of_less (Less.dropped rfl rfl rfl rfl)

/-! ### Legs that are held, and legs that ring -/

theorem isHeld_append {h : HeldInvite} (hq : q.heldInvites = p.heldInvites ++ [h]) :
    isHeld q id = true ↔ isHeld p id = true ∨ h.id = id := by
  simp [isHeld, hq]

theorem hasCall_incoming {s : SoftphoneSnapshot} {call : CallSnapshot}
    (h : hasCall (incoming s call) id = true) : hasCall s id = true ∨ call.id = id := by
  by_cases hnew : hasCall s call.id = false
  · obtain ⟨x, hx⟩ := hasCall_iff.1 h
    rcases (shows_incoming hnew).1 hx with hx | hx
    · exact .inl (hasCall_iff.2 ⟨x, hx.1⟩)
    · exact .inr hx.1
  · simp only [incoming, hnew] at h
    exact .inl h

section

variable (hw : Wired p)
include hw

section

variable (hsdk : p.sdk id ≠ none)
include hsdk

theorem Wired.holdInvite (hcall : hasCall p.state id = false)
    (hhandle : p.handles id = false) (number : String) (reason : HoldReason)
    (headerSession : Option String) : Wired (holdInvite p id number reason headerSession) := by
  intro id'
  have hat := hw id'
  have hheld : isHeld (Softphone.holdInvite p id number reason headerSession) id' = true ↔
      isHeld p id' = true ∨ id = id' :=
    isHeld_append (h := ⟨id, number, reason, headerSession⟩) rfl
  exact
    { born := fun h => by
        refine ⟨(hat.born h).1, Bool.eq_false_iff.2 fun hq => ?_, (hat.born h).2.2⟩
        rcases hheld.1 hq with hq | rfl
        · exact absurd (hq.symm.trans (hat.born h).2.1) (by decide)
        · exact hsdk h
      apart := fun h => by
        rcases hheld.1 h with h | rfl
        · exact hat.apart h
        · exact ⟨hcall, hhandle⟩
      ended := hat.ended
      chip := hat.chip }

theorem Wired.presentIncoming
    (hheld : isHeld p id = false) (hcall : hasCall p.state id = false) (number : String)
    (headerSession : Option String) : Wired (presentIncoming p id number headerSession) := by
  intro id'
  have hat := hw id'
  by_cases hid : id' = id
  · subst hid
    exact
      { born := fun h => absurd h hsdk
        apart := fun h => absurd (h.symm.trans hheld) (by decide)
        ended := fun h => by
          rcases (shows_incoming hcall).1 h with h | h
          · exact absurd rfl h.2
          · exact nomatch h.2
        chip := fun session h => absurd (hat.chip session h).1 hsdk }
  · refine hat.of_less
      { sdk := Iff.rfl
        handles := fun h => by
          simpa [Softphone.presentIncoming, Function.update_of_ne hid] using h
        held := fun h => h
        calls := fun h => (hasCall_incoming h).resolve_right fun h => hid h.symm
        ended := fun h => ?_
        connecting := fun h x hx => ?_ }
    · rcases (shows_incoming hcall).1 h with h | h
      · exact h.1
      · exact absurd h.1.symm hid
    · rcases (shows_incoming hcall).1 hx with hx | hx
      · exact h x hx.1
      · exact absurd hx.1.symm hid

/-- The leg of a placement is new, and takes the chip over if it is still there. -/
theorem Wired.acceptPlacementOpLeg (hheld : isHeld p id = false)
    (hcall : hasCall p.state id = false) (session : String) :
    Wired (acceptPlacementOpLeg p id session) := by
  have hshows : ∀ {id' : CallId} {x : CallPhase},
      shows (placementConnected p.state (.placement session) id session) id' x →
        shows p.state id' x ∨ (id = id' ∧ x = .connecting) := by
    intro id' x hx
    by_cases hchip : hasCall p.state (.placement session) = true
    · rcases (shows_placementConnected hchip).1 hx with h | ⟨hid, h⟩
      · exact .inl h.1
      · exact .inr ⟨hid, ((hw (.placement session)).chip session rfl).2 x h⟩
    · simp only [placementConnected, hchip] at hx
      exact .inl hx
  intro id'
  have hat := hw id'
  by_cases hid : id' = id
  · subst hid
    exact
      { born := fun h => absurd h hsdk
        apart := fun h => absurd (h.symm.trans hheld) (by decide)
        ended := fun h => by
          rcases hshows h with h | h
          · exact absurd ((hasCall_iff.2 ⟨_, h⟩).symm.trans hcall) (by decide)
          · cases h.2
        chip := fun other h => absurd (hat.chip other h).1 hsdk }
  · refine hat.of_less
      { sdk := Iff.rfl
        handles := fun h => by
          simpa [Softphone.acceptPlacementOpLeg, tell, Function.update_of_ne hid] using h
        held := fun h => h
        calls := fun h => ?_
        ended := fun h => (hshows h).resolve_right fun h => hid h.1.symm
        connecting := fun h x hx => (hshows hx).elim (h x) And.right }
    obtain ⟨x, hx⟩ := hasCall_iff.1 h
    exact hasCall_iff.2 ⟨x, (hshows hx).resolve_right fun h => hid h.1.symm⟩

end

theorem Wired.aside (hsdk : q.sdk = p.sdk) (hhandles : q.handles = p.handles)
    (hheld : q.heldInvites = p.heldInvites) (hstate : q.state = p.state) : Wired q :=
  fun id => (hw id).of_less (Less.of_eq hsdk hhandles hheld hstate)

theorem Wired.released (ids : List CallId) : Wired (ids.foldl releaseHeld p) :=
  fun id => (hw id).of_less (Less.released p ids id)

end

theorem isHeld_removed {id' : CallId}
    (h : isHeld { p with heldInvites := p.heldInvites.filter (·.id != id) } id' = true) :
    isHeld p id' = true ∧ id' ≠ id := by
  obtain ⟨other, hmem, hother⟩ := List.any_eq_true.1 h
  obtain ⟨hmem, hne⟩ := List.mem_filter.1 hmem
  have hother : other.id = id' := by simpa using hother
  exact ⟨List.any_eq_true.2 ⟨other, hmem, by simpa using hother⟩, hother ▸ by simpa using hne⟩

theorem isHeld_of_find {held : HeldInvite}
    (h : p.heldInvites.find? (·.id == id) = some held) : isHeld p id = true ∧ held.id = id := by
  have hid : held.id = id := by simpa using List.find?_some h
  exact ⟨List.any_eq_true.2 ⟨held, List.mem_of_find?_eq_some h, by simpa using hid⟩, hid⟩

theorem Wired.promoteHeld (hw : Wired p) (id : CallId) : Wired (promoteHeld p id) := by
  unfold Softphone.promoteHeld
  split
  · exact hw
  · next held hfind =>
    have hheld := (isHeld_of_find hfind).1
    obtain ⟨hcall, hhandle⟩ := (hw id).apart hheld
    have hsdk : p.sdk id ≠ none := fun h =>
      absurd (hheld.symm.trans ((hw id).born h).2.1) (by decide)
    have hrest : Wired { p with heldInvites := p.heldInvites.filter (·.id != id) } := fun id' =>
      (hw id').of_less ⟨Iff.rfl, fun h => h, fun h => (isHeld_removed h).1, fun h => h,
        fun h => h, fun h => h⟩
    dsimp only
    split
    · exact hrest.holdInvite hsdk hcall hhandle _ _ _
    · refine hrest.presentIncoming hsdk ?_ hcall _ _
      exact Bool.eq_false_iff.2 fun h => (isHeld_removed h).2 rfl

theorem Wired.maybePromoteHeld (hw : Wired p) (endedRinging : Option CallSnapshot) :
    Wired (maybePromoteHeld p endedRinging) := by
  unfold Softphone.maybePromoteHeld
  split
  · exact hw
  · split
    · exact hw
    · split
      · exact hw
      · split
        · exact hw.promoteHeld _
        · exact hw.aside rfl rfl rfl rfl

theorem Wired.promotionVerdict (hw : Wired p) (id : CallId) (session : String)
    (state : Option String) : Wired (promotionVerdict p id session state) := by
  unfold Softphone.promotionVerdict
  split
  · dsimp only
    split
    · exact (hw.aside (q := { p with
        decisions := p.decisions.erase (id, session)
        leftRinging := p.leftRinging ++ [session] }) rfl rfl rfl rfl).released [id]
    · split
      · exact (hw.aside (q := { p with decisions := p.decisions.erase (id, session) }) rfl rfl rfl
          rfl).promoteHeld id
      · exact hw.aside rfl rfl rfl rfl
  · exact hw

theorem shows_foldl_silenced (ids : List CallId) (s : SoftphoneSnapshot) (x : CallPhase) :
    shows (ids.foldl presentationSilenced s) id x ↔ shows s id x := by
  induction ids generalizing s with
  | nil => exact Iff.rfl
  | cons other ids ih => exact (ih _).trans shows_presentationSilenced

theorem Wired.applyRingingExit (hw : Wired p) (sessionId : String) :
    Wired (applyRingingExit p sessionId) := by
  obtain ⟨held, clocks, silenced, hint, hsub, h⟩ := applyRingingExit_eq p sessionId
  rw [h]
  refine fun id => (hw id).of_less
    ⟨Iff.rfl, fun h => h, fun h => ?_, fun h => ?_, fun h => ?_, fun h x hx => ?_⟩
  · obtain ⟨held, hmem, hid⟩ := List.any_eq_true.1 h
    exact List.any_eq_true.2 ⟨held, hsub.subset hmem, hid⟩
  · obtain ⟨x, hx⟩ := hasCall_iff.1 h
    exact hasCall_iff.2 ⟨x, (shows_foldl_silenced silenced _ x).1 hx⟩
  · exact (shows_foldl_silenced silenced _ _).1 h
  · exact h x ((shows_foldl_silenced silenced _ _).1 hx)

/-! ### Reports -/

/-- What a report makes of the other calls, before it promotes an INVITE. -/
theorem Less.reported {id' : CallId} (hid : id' ≠ id)
    (hsdk : q.sdk = Function.update p.sdk id (some phase))
    (hhandles : q.handles id' = true → p.handles id' = true) (hheld : q.heldInvites = p.heldInvites)
    (hstate : q.state = sdkPhase p.state id phase) :
    Less p q id' where
  sdk := by rw [hsdk, Function.update_of_ne hid]
  handles := hhandles
  held h := by simpa only [isHeld, hheld] using h
  calls h := by
    rw [hstate] at h
    exact hasCall_of_sdkPhase h
  ended h := by
    rw [hstate] at h
    exact ended_of_sdkPhase hid h
  connecting h x hx := by
    rw [hstate] at hx
    exact connecting_of_sdkPhase hid h x hx

/-- What a report makes of its own call, before it promotes an INVITE: a call that has ended is not
watched. -/
theorem WiredAt.reported (hw : WiredAt p id) (hborn : p.sdk id ≠ none)
    (hhandle : p.handles id = true) (hsdk : q.sdk = Function.update p.sdk id (some phase))
    (hheld : q.heldInvites = p.heldInvites) (hstate : q.state = sdkPhase p.state id phase)
    (hover : phase = .ended → q.handles id = false) : WiredAt q id where
  born h := by
    rw [hsdk, Function.update_self] at h
    cases h
  apart h := by
    have hheld : isHeld p id = true := by simpa only [isHeld, hheld] using h
    exact absurd (hhandle.symm.trans (hw.apart hheld).2) (by decide)
  ended h := by
    refine hover (Classical.byContradiction fun hphase => ?_)
    -- before the report the call had not ended, since it is watched
    rw [hstate] at h
    exact absurd (hhandle.symm.trans (hw.ended (ended_of_sdkPhase_self hphase h))) (by decide)
  chip session hid := absurd (hw.chip session hid).1 hborn

theorem Wired.enters (hw : Wired p) (hborn : p.sdk id ≠ none) (hhandle : p.handles id = false)
    (commands : List (CallId × Command)) : Wired (enters p id phase commands) := by
  intro id'
  by_cases hid : id' = id
  · subst hid
    have hat := hw id'
    exact
      { born := fun h => by simp [Softphone.enters] at h
        apart := hat.apart
        ended := fun _ => hhandle
        chip := fun session h => absurd (hat.chip session h).1 hborn }
  · refine (hw id').of_less ⟨?_, fun h => h, fun h => h, fun h => h, fun h => h, fun h => h⟩
    simp only [Softphone.enters, Function.update_of_ne hid]

/-- A call has ended, and the core forgets it. -/
theorem Wired.forgotten (hw : Wired p) (hborn : p.sdk id ≠ none) (hhandle : p.handles id = true)
    (commands : List (CallId × Command)) :
    Wired (forgotten (Softphone.enters p id .ended commands) id) := by
  intro id'
  by_cases hid : id' = id
  · subst hid
    exact (hw id').reported hborn hhandle rfl rfl rfl fun _ => Function.update_self ..
  · refine (hw id').of_less (Less.reported hid rfl (fun h => ?_) rfl rfl)
    simpa [Softphone.forgotten, heard, Softphone.enters, Function.update_of_ne hid] using h

section

variable (hw : Wired p)
include hw

theorem Wired.report (hborn : p.sdk id ≠ none) (commands : List (CallId × Command)) :
    Wired (report { p with commands := commands } id phase) := by
  by_cases hended : phase = .ended
  · subst hended
    rw [report_ended]
    split
    · next hhandle =>
      cases hprev : callOf p.state id with
      | none =>
        have hcall : hasCall p.state id = false := by
          rw [hasCall_eq_isSome, hprev]
          rfl
        rw [onPhase_of_not_hasCall
          (p := Softphone.enters p id .ended (commands.filter (·.1 != id))) hcall]
        intro id'
        by_cases hid : id' = id
        · subst hid
          have hat := hw id'
          exact
            { born := fun h => by simp [heard, Softphone.enters] at h
              apart := hat.apart
              ended := fun h => absurd ((hasCall_iff.2 ⟨_, h⟩).symm.trans hcall) (by decide)
              chip := fun session h => absurd (hat.chip session h).1 hborn }
        · exact (hw id').of_less (Less.reported hid rfl (fun h => h) rfl
            (sdkPhase_of_not_hasCall hcall).symm)
      | some prev =>
        rw [onPhase_ended
          (p := Softphone.enters p id .ended (commands.filter (·.1 != id))) hprev]
        exact (hw.forgotten hborn hhandle _).maybePromoteHeld _
    · next hhandle =>
      exact (hw.enters hborn (by simpa using hhandle) _).released [id]
  · rw [report_other commands hended]
    split
    · next hhandle =>
      by_cases hcall : hasCall p.state id = true
      · by_cases hactive : phase = .active
        · subst hactive
          have hstate : activate p.state id = sdkPhase p.state id .active :=
            (sdkPhase_active hcall).symm
          rw [onPhase_active (p := Softphone.enters p id .active commands) hcall]
          intro id'
          refine WiredAt.of_less ?_ (Less.holdActive _ _ _ _)
          by_cases hid : id' = id
          · subst hid
            exact (hw id').reported hborn hhandle rfl rfl hstate (by rintro ⟨⟩)
          · exact (hw id').of_less (Less.reported hid rfl (fun h => h) rfl hstate)
        · rw [onPhase_other (p := Softphone.enters p id phase commands) hcall hactive hended]
          intro id'
          by_cases hid : id' = id
          · subst hid
            exact (hw id').reported hborn hhandle rfl rfl rfl fun h => absurd h hended
          · exact (hw id').of_less (Less.reported hid rfl (fun h => h) rfl rfl)
      · have hcall : hasCall p.state id = false := by simpa using hcall
        have hstate : p.state = sdkPhase p.state id phase := (sdkPhase_of_not_hasCall hcall).symm
        rw [onPhase_of_not_hasCall (p := Softphone.enters p id phase commands) hcall]
        intro id'
        by_cases hid : id' = id
        · subst hid
          exact (hw id').reported hborn hhandle rfl rfl hstate fun h => absurd h hended
        · exact (hw id').of_less (Less.reported hid rfl (fun h => h) rfl hstate)
    · next hhandle => exact hw.enters hborn (by simpa using hhandle) commands

theorem Wired.reportSelf (hborn : p.sdk id ≠ none) : Wired (Softphone.report p id phase) :=
  hw.report hborn p.commands

/-! ### Steps -/

theorem Wired.came (hid : ∀ session, id ≠ .placement session) (phase : CallPhase) :
    Wired { p with sdk := Function.update p.sdk id (some phase) } := by
  intro id'
  have hat := hw id'
  by_cases hsame : id' = id
  · subst hsame
    exact
      { born := fun h => by simp at h
        apart := hat.apart
        ended := hat.ended
        chip := fun session h => absurd h (hid session) }
  · refine hat.of_less ⟨?_, fun h => h, fun h => h, fun h => h, fun h => h, fun h => h⟩
    dsimp only
    rw [Function.update_of_ne hsame]

theorem Wired.invited (i : Invite) : Wired (invited p i) := by
  unfold Softphone.invited
  split
  · next hsdk =>
    obtain ⟨hhandle, hheld, hcall⟩ := (hw i.callId).born hsdk
    have hcall : hasCall p.state i.callId = false :=
      Bool.eq_false_iff.2 fun h => (hcall h).elim fun _ h => nomatch h
    have hleg : Wired { p with sdk := Function.update p.sdk i.callId (some .ringing) } := by
      refine hw.came (fun _ h => ?_) _
      exact nomatch h
    have hborn : (Function.update p.sdk i.callId (some .ringing)) i.callId ≠ none := by simp
    have hrecord : ∀ {q : Phone} (session : Option String) (fate : Fate), Wired q →
        Wired (record q session fate) := by
      intro q session fate hq
      cases session with
      | none => exact hq
      | some session => exact hq.aside rfl rfl rfl rfl
    have hring : Wired (ringIn { p with
        sdk := Function.update p.sdk i.callId (some .ringing) } i) := by
      unfold ringIn
      split
      · exact hrecord _ _ (hleg.holdInvite hborn hcall hhandle _ _ _)
      · split
        · exact hrecord _ _ (hleg.holdInvite hborn hcall hhandle _ _ _)
        · exact hrecord _ _ (hleg.presentIncoming hborn hheld hcall _ _)
    unfold onIncoming
    split
    · exact hrecord _ _ hleg
    · split
      · exact hring
      · split
        · exact hrecord _ _ (hleg.acceptPlacementOpLeg hborn hheld hcall _)
        · split
          · exact hrecord _ _ (hleg.aside rfl rfl rfl rfl)
          · exact hring
  · exact hw

section

variable (id)

theorem Wired.obey (c : Command) : Wired (obey p id c) := by
  unfold Softphone.obey
  split
  · dsimp only
    split
    · next hphase =>
      refine hw.report (fun h => ?_) _
      rw [h] at hphase
      cases hphase
    · exact hw.aside rfl rfl rfl rfl
  · exact hw

theorem Wired.connecting : Wired (connecting p id) := by
  unfold Softphone.connecting
  split
  · next h =>
    refine hw.reportSelf fun hnone => ?_
    rw [hnone] at h
    exact h.elim nofun nofun
  · exact hw

theorem Wired.repeats : Wired (repeats p id) := by
  unfold Softphone.repeats
  split
  · exact hw
  · next phase hphase =>
    split
    · exact hw
    · exact hw.reportSelf (by simp [hphase])

theorem Wired.remoteEnd : Wired (remoteEnd p id) := by
  unfold Softphone.remoteEnd
  split
  · exact hw
  · next phase hphase =>
    split
    · exact hw
    · exact hw.reportSelf (by simp [hphase])

end

end

theorem Less.sessionKnown (p : Phone) (id : CallId) (sessionId : String) (id' : CallId) :
    Less p { p with state := sessionKnown p.state id sessionId } id' := by
  have hshows : ∀ x, shows (Softphone.sessionKnown p.state id sessionId) id' x ↔
      shows p.state id' x := fun x => shows_update fun _ => ⟨rfl, rfl⟩
  refine ⟨Iff.rfl, fun h => h, fun h => h, fun h => ?_, (hshows _).1, fun h x hx => ?_⟩
  · obtain ⟨x, hx⟩ := hasCall_iff.1 h
    exact hasCall_iff.2 ⟨x, (hshows x).1 hx⟩
  · exact h x ((hshows x).1 hx)

section

variable (hw : Wired p)
include hw

theorem Wired.resolved (id : CallId) (sessionId : String) : Wired (resolved p id sessionId) := by
  unfold Softphone.resolved
  split
  · split
    · exact hw
    · exact fun id' => (hw id').of_less (Less.sessionKnown p id sessionId id')
  · exact hw

theorem Wired.reapOnClientDeath : Wired (reapOnClientDeath p) := by
  refine ((hw.dropRings fun id hid => ?_).released _).failPlacements _
  obtain ⟨c, hc, rfl⟩ := List.mem_map.1 hid
  obtain ⟨hc, hphase⟩ := List.mem_filter.1 hc
  exact ⟨c, hc, rfl, by simpa using hphase⟩

theorem Wired.reapExpiredRings : Wired (reapExpiredRings p) := by
  have hdropped : Wired ((expiredRings p).foldl dropRingingPresentation p) := by
    refine hw.dropRings fun id hid => ?_
    obtain ⟨c, hc, rfl⟩ := List.mem_map.1 hid
    obtain ⟨hc, hphase⟩ := List.mem_filter.1 hc
    simp only [Bool.and_eq_true, beq_iff_eq] at hphase
    exact ⟨c, hc, rfl, hphase.1.1⟩
  exact (hdropped.released _).aside rfl rfl rfl rfl

theorem Wired.authorized (session : Option String) (number : String) :
    Wired (authorized p session number) := by
  by_cases hplaces : places p session = true
  · obtain ⟨session, rfl⟩ : ∃ s, session = some s := by
      cases session with
      | none => cases hplaces
      | some s => exact ⟨s, rfl⟩
    rw [authorized_of_places hplaces]
    intro id
    have hat := hw id
    by_cases hid : id = .placement session
    · obtain ⟨hsdk, hchip⟩ := hat.chip session hid
      obtain ⟨hhandle, hheld, -⟩ := hat.born hsdk
      exact
        { born := fun _ => ⟨hhandle, hheld, fun _ => ⟨session, hid⟩⟩
          apart := fun h => absurd (h.symm.trans hheld) (by decide)
          ended := fun _ => hhandle
          chip := fun other hother => ⟨hsdk, fun x hx =>
            (shows_placing.1 hx).elim (fun h => hchip x h.1) And.right⟩ }
    · have hshows : ∀ {x : CallPhase},
          shows (placing p.state (Softphone.chip session number)) id x → shows p.state id x :=
        fun hx => (shows_placing.1 hx).elim And.left fun h => absurd h.1.symm hid
      refine hat.of_less ⟨Iff.rfl, fun h => h, fun h => h, fun h => ?_, hshows,
        fun h x hx => h x (hshows hx)⟩
      obtain ⟨x, hx⟩ := hasCall_iff.1 h
      exact hasCall_iff.2 ⟨x, hshows hx⟩
  · obtain ⟨authorizing, h⟩ := authorized_of_not_places number (by simpa using hplaces)
    rw [h]
    exact hw.aside rfl rfl rfl rfl

theorem Wired.hangup (id : CallId) : Wired (hangup p id) := by
  have hend : Wired (endOrDismiss p id) := by
    unfold endOrDismiss
    split
    · exact hw.aside rfl rfl rfl rfl
    · exact fun id' => (hw id').of_less (Less.dropped rfl rfl rfl rfl)
  unfold Softphone.hangup
  split
  · exact hend
  · split
    · exact fun id' => (hw id').of_less (Less.dropped rfl rfl rfl rfl)
    · exact hend

theorem Wired.toggleHold (id : CallId) : Wired (toggleHold p id) := by
  unfold Softphone.toggleHold
  split
  · exact hw
  · split
    · exact fun id' => (hw id').of_less
        ((Less.holdActive p p.state.activeId id id').trans (Less.requestHold _ id id' false))
    · exact fun id' => (hw id').of_less (Less.requestHold p id id' true)
    · exact hw

theorem Wired.answer (id : CallId) : Wired (answer p id) := by
  unfold Softphone.answer
  split
  · exact hw
  · split
    · exact hw
    · split
      · exact hw
      · exact fun id' => (hw id').of_less
          ((Less.holdActive p p.state.activeId id id').trans (Less.tell _ id id' .accept))

theorem Wired.fell {id : CallId} (hsdk : q.sdk = p.sdk) (hhandles : q.handles = p.handles)
    (hheld : q.heldInvites = p.heldInvites) (hstate : q.state = dropped p.state id) : Wired q :=
  fun id' => (hw id').of_less (Less.dropped hsdk hhandles hheld hstate)

/-- **Every step keeps it.** -/
theorem move_wired (i : Input) : Wired (move p i) := by
  cases i with
  | company | clock | push | hintRefreshed => exact hw.aside rfl rfl rfl rfl
  | invite i => exact hw.invited i
  | obey id c => exact hw.obey id c
  | connecting id => exact hw.connecting id
  | repeats id => exact hw.repeats id
  | remoteEnd id => exact hw.remoteEnd id
  | resolved id sessionId => exact hw.resolved id sessionId
  | sessionUpdate sessionId state =>
    show Wired (onCallSessionUpdate p sessionId state)
    unfold onCallSessionUpdate
    split
    · exact hw
    · split
      · exact hw
      · exact hw.applyRingingExit sessionId
  | callEndPush sessionId =>
    show Wired (onCallEndPush p sessionId)
    unfold onCallEndPush
    split
    · exact hw
    · exact hw.applyRingingExit sessionId
  | promotionVerdict id session state => exact hw.promotionVerdict id session state
  | sweep => exact hw.reapExpiredRings
  | clientDeath => exact hw.reapOnClientDeath
  | placeCall =>
    show Wired (placeCall p)
    unfold placeCall
    split
    · exact hw
    · exact hw.aside rfl rfl rfl rfl
  | authorizeFailed => exact hw.aside rfl rfl rfl rfl
  | authorized session number => exact hw.authorized session number
  | registered session =>
    show Wired (registered p session)
    unfold registered
    split
    · exact hw.aside rfl rfl rfl rfl
    · exact hw
  | registrationFailed session =>
    show Wired (registrationFailed p session)
    unfold registrationFailed
    split
    · exact hw.fell rfl rfl rfl rfl
    · exact hw
  | registrationCancelled session => exact hw.aside rfl rfl rfl rfl
  | placementTimeout session =>
    show Wired (placementTimeout p session)
    unfold placementTimeout
    split
    · exact hw.fell rfl rfl rfl rfl
    · exact hw
  | answer id => exact hw.answer id
  | hangup id => exact hw.hangup id
  | toggleHold id => exact hw.toggleHold id
  | dismiss id =>
    show Wired (dismiss p id)
    unfold dismiss
    split
    · exact hw
    · split
      · exact hw.fell rfl rfl rfl rfl
      · exact hw
  | releaseHeldForSession session => exact hw.released _

end

theorem fresh_wired : Wired fresh := by
  intro id
  have hshows : ∀ x, ¬shows fresh.state id x := by simp [shows, fresh]
  exact
    { born := fun _ => ⟨rfl, rfl, fun h => by simp [hasCall, fresh] at h⟩
      apart := fun h => by simp [isHeld, fresh] at h
      ended := fun h => absurd h (hshows _)
      chip := fun _ _ => ⟨rfl, fun x h => absurd h (hshows x)⟩ }

end

end Softphone
