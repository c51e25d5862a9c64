/-
**One audio path.**

Of the calls on the phone at most one is to be heard, and the screen is to name it.  The core keeps
the two apart: the reducer demotes a call on the screen at once, and the SDK follows when it obeys
the hold that was asked for.  So long as every call that is active at the SDK, other than the one
the screen names, has a hold on its way, the two agree whenever nothing is on its way.

Each step keeps that, but for two: a placement takes the active slot without holding the call that
has it, so that nobody holds that call when the placement goes active; and a ring that is dropped
for its age, or with the client, takes the watch off its leg even when the member has answered it.

Main result:

* `Softphone.placed_over_a_call` — a call is placed while another is active: both are heard.
-/

import Texturion.SoftphoneWiring

namespace Softphone

/-! ### What holds of one call -/

/-- The SDK call is connected, or about to be. -/
def Engaged (p : Phone) (id : CallId) : Prop :=
  p.sdk id = some .active ∨ p.sdk id = some .held ∨ (id, .accept) ∈ p.commands

structure SoundAt (p : Phone) (id : CallId) : Prop where
  shown : shows p.state id .active →
    p.sdk id = some .active ∧ (p.state.activeId = some id ∨ (id, .toggleHold) ∈ p.commands)
  audible : p.sdk id = some .active →
    shows p.state id .active ∨ (shows p.state id .held ∧ (id, .toggleHold) ∈ p.commands)
  known : Engaged p id → p.handles id = true ∧ ∃ x, x ≠ .ended ∧ shows p.state id x
  reported : p.sdk id = some .active → p.sdkPhases id = some .active
  ringing : shows p.state id .ringing → p.sdk id ≠ some .active ∧ p.sdk id ≠ some .held
  toggles : p.pendingHoldToggle id = true → p.sdk id = some .active →
    (id, .toggleHold) ∈ p.commands
  ended : shows p.state id .ended → p.handles id = false
  unborn : p.sdk id = none → p.handles id = false
  apart : isHeld p id = true →
    p.handles id = false ∧ p.sdk id ≠ none ∧ ∀ x, ¬shows p.state id x
  chip : ∀ session, id = .placement session →
    p.sdk id = none ∧ p.handles id = false ∧
      (isPending p session = true → shows p.state id .connecting) ∧
      ∀ x, shows p.state id x → x = .connecting

def Sound (p : Phone) : Prop := ∀ id, SoundAt p id

/-- A step that leaves a call alone, but may forget its ended chip. -/
structure SameAt (p q : Phone) (id : CallId) : Prop where
  shows : ∀ x, x ≠ .ended → (shows q.state id x ↔ shows p.state id x)
  gone : Softphone.shows q.state id .ended → Softphone.shows p.state id .ended
  activeId : p.state.activeId = some id →
    q.state.activeId = some id ∨ (p.sdk id = some .active → (id, .toggleHold) ∈ q.commands)
  handles : q.handles id = p.handles id
  sdk : q.sdk id = p.sdk id
  sdkPhases : q.sdkPhases id = p.sdkPhases id
  pendingHoldToggle : q.pendingHoldToggle id = true → p.pendingHoldToggle id = true
  commands : ∀ c, c ≠ .endCall → ((id, c) ∈ q.commands ↔ (id, c) ∈ p.commands)
  held : isHeld q id = true → isHeld p id = true
  placement : ∀ session, id = .placement session → isPending q session = true →
    isPending p session = true

theorem SameAt.refl (p : Phone) (id : CallId) : SameAt p p id where
  shows _ _ := Iff.rfl
  gone h := h
  activeId := .inl
  handles := rfl
  sdk := rfl
  sdkPhases := rfl
  pendingHoldToggle h := h
  commands _ _ := Iff.rfl
  held h := h
  placement _ _ h := h

theorem SameAt.engaged {p q : Phone} {id : CallId} (h : SameAt p q id) :
    Engaged q id ↔ Engaged p id := by
  unfold Engaged
  rw [h.sdk, h.commands .accept (by decide)]

theorem SoundAt.of_same {p q : Phone} {id : CallId} (hs : SoundAt p id) (h : SameAt p q id) :
    SoundAt q id where
  shown hactive := by
    obtain ⟨hsdk, hwhy⟩ := hs.shown ((h.shows _ (by decide)).1 hactive)
    refine ⟨h.sdk.trans hsdk, ?_⟩
    rcases hwhy with hid | htoggle
    · exact (h.activeId hid).imp_right fun hcommand => hcommand hsdk
    · exact .inr ((h.commands _ (by decide)).2 htoggle)
  audible hsdk := by
    rw [h.shows _ (by decide), h.shows _ (by decide), h.commands _ (by decide)]
    exact hs.audible (h.sdk ▸ hsdk)
  known hengaged := by
    obtain ⟨hhandle, x, hx, hshows⟩ := hs.known (h.engaged.1 hengaged)
    exact ⟨h.handles.trans hhandle, x, hx, (h.shows x hx).2 hshows⟩
  reported hsdk := h.sdkPhases.trans (hs.reported (h.sdk ▸ hsdk))
  ringing hring := by
    rw [h.sdk]
    exact hs.ringing ((h.shows _ (by decide)).1 hring)
  toggles hpending hsdk :=
    (h.commands _ (by decide)).2 (hs.toggles (h.pendingHoldToggle hpending) (h.sdk ▸ hsdk))
  ended hended := h.handles.trans (hs.ended (h.gone hended))
  unborn hsdk := h.handles.trans (hs.unborn (h.sdk ▸ hsdk))
  apart hheld := by
    obtain ⟨hhandle, hsdk, hnone⟩ := hs.apart (h.held hheld)
    refine ⟨h.handles.trans hhandle, by rwa [h.sdk], fun x hx => ?_⟩
    by_cases hended : x = .ended
    · subst hended
      exact hnone _ (h.gone hx)
    · exact hnone x ((h.shows x hended).1 hx)
  chip session hid := by
    obtain ⟨hsdk, hhandle, hpending, honly⟩ := hs.chip session hid
    refine ⟨h.sdk.trans hsdk, h.handles.trans hhandle, fun hq => ?_, fun x hx => ?_⟩
    · exact (h.shows _ (by decide)).2 (hpending (h.placement session hid hq))
    · by_cases hended : x = .ended
      · subst hended
        exact honly _ (h.gone hx)
      · exact honly x ((h.shows x hended).1 hx)

theorem SameAt.of_eq {p q : Phone} (id : CallId)
    (hshows : ∀ x, Softphone.shows q.state id x ↔ Softphone.shows p.state id x)
    (hactive : q.state.activeId = p.state.activeId) (hhandles : q.handles = p.handles)
    (hsdk : q.sdk = p.sdk) (hsdkPhases : q.sdkPhases = p.sdkPhases)
    (hpending : q.pendingHoldToggle = p.pendingHoldToggle) (hcommands : q.commands = p.commands)
    (hheld : isHeld q id = true → isHeld p id = true)
    (hplacement : ∀ session, isPending q session = true → isPending p session = true) :
    SameAt p q id where
  shows x _ := hshows x
  gone := (hshows _).1
  activeId h := .inl (hactive.trans h)
  handles := by rw [hhandles]
  sdk := by rw [hsdk]
  sdkPhases := by rw [hsdkPhases]
  pendingHoldToggle h := by rwa [hpending] at h
  commands c _ := by rw [hcommands]
  held := hheld
  placement session _ := hplacement session

theorem SoundAt.silent {q : Phone} {id : CallId} (hactive : q.sdk id ≠ some .active)
    (hheld : q.sdk id ≠ some .held) (hshown : ¬shows q.state id .active)
    (hknown : (id, .accept) ∈ q.commands →
      q.handles id = true ∧ ∃ x, x ≠ .ended ∧ shows q.state id x)
    (hover : shows q.state id .ended → q.handles id = false)
    (hunborn : q.sdk id = none → q.handles id = false)
    (hapart : isHeld q id = true →
      q.handles id = false ∧ q.sdk id ≠ none ∧ ∀ x, ¬shows q.state id x)
    (hleg : ∀ session, id ≠ .placement session) : SoundAt q id where
  shown h := absurd h hshown
  audible h := absurd h hactive
  known h := by
    rcases h with h | h | h
    · exact absurd h hactive
    · exact absurd h hheld
    · exact hknown h
  reported h := absurd h hactive
  ringing _ := ⟨hactive, hheld⟩
  toggles _ h := absurd h hactive
  ended := hover
  unborn := hunborn
  apart := hapart
  chip session h := absurd h (hleg session)

/-! ### Holds, answers and calls that go -/

section

variable {p : Phone} {id : CallId}

variable {id' : CallId} {phase : CallPhase} {commands : List (CallId × Command)}

theorem mem_tell {c c' : Command} :
    (id', c') ∈ (tell p id c).commands ↔ (id', c') ∈ p.commands ∨ (id' = id ∧ c' = c) := by
  simp [tell]

theorem mem_tell_self (p : Phone) (id : CallId) (c : Command) : (id, c) ∈ (tell p id c).commands :=
  mem_tell.2 (.inr ⟨rfl, rfl⟩)

theorem SameAt.tell {c : Command} (h : id' ≠ id ∨ c = .endCall) : SameAt p (tell p id c) id' :=
  { SameAt.refl p id' with
    activeId := .inl
    commands := fun c' hc' => by
      rw [mem_tell]
      refine or_iff_left ?_
      rintro ⟨rfl, rfl⟩
      exact h.elim (absurd rfl) hc' }

section

variable (hs : Sound p)
include hs

theorem Sound.tellEnd (id : CallId) : Sound (tell p id .endCall) :=
  fun id' => (hs id').of_same (SameAt.tell (.inr rfl))

theorem Sound.requestHold (id : CallId) (hold : Bool) : Sound (requestHold p id hold) := by
  rcases requestHold_cases p id hold with h | ⟨-, -, h⟩
  · rwa [h]
  · rw [h]
    intro id'
    by_cases hid : id' = id
    · subst hid
      have hat := hs id'
      have htoggle := fun q : Phone => mem_tell_self q id' .toggleHold
      have hengaged : Engaged (tell { p with
          pendingHoldToggle := Function.update p.pendingHoldToggle id' true } id' .toggleHold)
          id' ↔ Engaged p id' := by
        unfold Engaged
        rw [mem_tell]
        simp [tell]
      exact
        { hat with
          shown := fun hactive => ⟨(hat.shown hactive).1, .inr (htoggle _)⟩
          audible := fun hsdk => (hat.audible hsdk).imp_right fun hheld => ⟨hheld.1, htoggle _⟩
          known := fun h => hat.known (hengaged.1 h)
          toggles := fun _ _ => htoggle _ }
    · have hsame : SameAt p { p with
          pendingHoldToggle := Function.update p.pendingHoldToggle id true } id' :=
        { SameAt.refl p id' with
          pendingHoldToggle := fun h => by simpa [Function.update_of_ne hid] using h }
      exact ((hs id').of_same hsame).of_same (SameAt.tell (.inl hid))

theorem Sound.holdActive (activeId : Option CallId) (id : CallId) :
    Sound (holdActive p activeId id) := by
  rcases holdActive_cases p activeId id with h | ⟨previousActive, -, -, h⟩
  · rwa [h]
  · rw [h]
    exact hs.requestHold previousActive true

theorem Sound.tellAccept (hhandle : p.handles id = true)
    (hring : shows p.state id .ringing) : Sound (tell p id .accept) := by
  intro id'
  by_cases hid : id' = id
  · subst hid
    have hat := hs id'
    have htoggle : (id', .toggleHold) ∈ (tell p id' .accept).commands ↔
        (id', .toggleHold) ∈ p.commands := by
      rw [mem_tell]
      exact or_iff_left fun h => nomatch h.2
    exact
      { hat with
        shown := fun hactive => by
          rw [htoggle]
          exact hat.shown hactive
        audible := fun hsdk => by
          rw [htoggle]
          exact hat.audible hsdk
        known := fun _ => ⟨hhandle, .ringing, by decide, hring⟩
        toggles := fun hpending hsdk => htoggle.2 (hat.toggles hpending hsdk) }
  · exact (hs id').of_same (SameAt.tell (.inl hid))

theorem Sound.dropped (hhandle : p.handles id = false) (pending : List PendingPlacement)
    (registering cancelled : List String)
    (hpending : ∀ session, (pending.any (·.session == session)) = true →
      isPending p session = true ∧ id ≠ .placement session) :
    Sound { p with
      state := dropped p.state id
      pendingPlacements := pending
      registering := registering
      cancelledPlacements := cancelled } := by
  intro id'
  by_cases hid : id' = id
  · subst hid
    have hat := hs id'
    have hnone : ∀ x, ¬shows (Softphone.dropped p.state id') id' x := fun x h =>
      absurd rfl (shows_dropped.1 h).2
    have hnot : ¬Engaged p id' := fun h => by
      rw [(hat.known h).1] at hhandle
      cases hhandle
    exact
      { shown := fun h => absurd h (hnone _)
        audible := fun h => absurd (.inl h) hnot
        known := fun h => absurd h hnot
        reported := hat.reported
        ringing := fun h => absurd h (hnone _)
        toggles := fun _ h => absurd (.inl h) hnot
        ended := fun h => absurd h (hnone _)
        unborn := fun _ => hhandle
        apart := fun h => ⟨hhandle, (hat.apart h).2.1, hnone⟩
        chip := fun session h => by
          obtain ⟨hsdk, -, -⟩ := hat.chip session h
          refine ⟨hsdk, hhandle, fun hp => absurd h (hpending session hp).2, fun x hx => ?_⟩
          exact absurd hx (hnone x) }
  · refine (hs id').of_same
      { SameAt.refl p id' with
        shows := fun x _ => shows_dropped.trans (and_iff_left hid)
        gone := fun h => (shows_dropped.1 h).1
        activeId := fun h => .inl ((activeUnless_eq_some hid).2 h)
        placement := fun session _ h => (hpending session h).1 }

theorem Sound.released (ids : List CallId) : Sound (ids.foldl releaseHeld p) := by
  obtain ⟨clocks, h⟩ := foldl_releaseHeld p ids
  rw [h]
  refine fun id => (hs id).of_same (SameAt.of_eq id (fun _ => Iff.rfl) rfl rfl rfl rfl rfl rfl
    (fun hheld => ?_) fun _ h => h)
  obtain ⟨held, hmem, hid⟩ := List.any_eq_true.1 hheld
  exact List.any_eq_true.2 ⟨held, List.mem_of_mem_filter hmem, hid⟩

theorem Sound.dropRinging (hnot : ¬Engaged p id)
    (hleg : ∀ session, id ≠ .placement session) : Sound (dropRingingPresentation p id) := by
  intro id'
  by_cases hid : id' = id
  · subst hid
    have hat := hs id'
    have honly : ∀ x, shows (sdkPhase p.state id' .ended) id' x → x = .ended := fun x h =>
      shows_sdkPhase_ended h
    refine SoundAt.silent (fun h => hnot (.inl h)) (fun h => hnot (.inr (.inl h)))
      (fun h => absurd (honly _ h) (by decide)) (fun h => absurd (.inr (.inr h)) hnot)
      (fun _ => Function.update_self ..) (fun _ => Function.update_self ..) (fun h => ?_) hleg
    obtain ⟨-, hsdk, hnone⟩ := hat.apart h
    refine ⟨Function.update_self .., hsdk, fun x hx => ?_⟩
    have hcall : hasCall p.state id' = false :=
      Bool.eq_false_iff.2 fun hcall => (hasCall_iff.1 hcall).elim hnone
    refine hnone x ?_
    simpa [dropRingingPresentation, sdkPhase_of_not_hasCall hcall] using hx
  · refine (hs id').of_same
      { SameAt.refl p id' with
        shows := fun x _ => shows_sdkPhase_of_ne hid (by decide)
        gone := (shows_sdkPhase_of_ne hid (by decide)).1
        activeId := fun h => .inl ((activeId_sdkPhase_of_ne hid (by decide)).2 h)
        handles := Function.update_of_ne hid _ _
        sdkPhases := Function.update_of_ne hid _ _
        pendingHoldToggle := fun h => by
          simpa [dropRingingPresentation, Function.update_of_ne hid] using h }

end

/-! ### Rings that come and INVITEs that are promoted -/

theorem not_hasCall_iff {s : SoftphoneSnapshot} : hasCall s id = false ↔ ∀ x, ¬shows s id x := by
  rw [← Bool.not_eq_true, hasCall_iff, not_exists]

section

variable (hs : Sound p)
include hs

theorem Sound.holdInvite (hhandle : p.handles id = false) (hsdk : p.sdk id ≠ none)
    (hnone : hasCall p.state id = false) (number : String) (reason : HoldReason)
    (headerSession : Option String) : Sound (holdInvite p id number reason headerSession) := by
  intro id'
  have hheld : isHeld (Softphone.holdInvite p id number reason headerSession) id' = true ↔
      isHeld p id' = true ∨ id = id' :=
    isHeld_append (h := ⟨id, number, reason, headerSession⟩) rfl
  have hat := hs id'
  exact
    { hat with
      apart := fun h => by
        rcases hheld.1 h with h | rfl
        · exact hat.apart h
        · exact ⟨hhandle, hsdk, not_hasCall_iff.1 hnone⟩ }

theorem Sound.presentIncoming (hnot : ¬Engaged p id) (hsdk : p.sdk id ≠ none)
    (hheld : isHeld p id = false) (hleg : ∀ session, id ≠ .placement session)
    (hnone : hasCall p.state id = false) (number : String) (headerSession : Option String) :
    Sound (presentIncoming p id number headerSession) := by
  intro id'
  have hshows : ∀ x, shows (Softphone.presentIncoming p id number headerSession).state id' x ↔
      (shows p.state id' x ∧ x ≠ .ended) ∨ (id = id' ∧ x = .ringing) := fun x =>
    shows_incoming hnone
  by_cases hid : id' = id
  · subst hid
    have honly : ∀ x, shows (Softphone.presentIncoming p id' number headerSession).state id' x →
        x = .ringing := fun x h => by
      rcases (hshows x).1 h with h | h
      · exact absurd h.1 (not_hasCall_iff.1 hnone x)
      · exact h.2
    exact SoundAt.silent (fun h => hnot (.inl h)) (fun h => hnot (.inr (.inl h)))
      (fun h => absurd (honly _ h) (by decide)) (fun h => absurd (.inr (.inr h)) hnot)
      (fun h => absurd (honly _ h) (by decide)) (fun h => absurd h hsdk)
      (fun h => absurd (h.symm.trans hheld) (by decide)) hleg
  · have hne : id ≠ id' := fun h => hid h.symm
    refine (hs id').of_same
      { SameAt.refl p id' with
        shows := fun x hx => by
          rw [hshows]
          exact ⟨fun h => h.elim And.left fun h => absurd h.1 hne, fun h => .inl ⟨h, hx⟩⟩
        gone := fun h => ((hshows _).1 h).elim And.left fun h => absurd h.1 hne
        activeId := fun h => .inl (by
          have hcalls : (Softphone.presentIncoming p id number headerSession).state.activeId =
              p.state.activeId := by
            simp [Softphone.presentIncoming, incoming, hnone]
          rw [hcalls, h])
        handles := Function.update_of_ne hid _ _
        sdkPhases := Function.update_of_ne hid _ _ }

theorem Sound.promoteHeld (id : CallId) : Sound (promoteHeld p id) := by
  unfold Softphone.promoteHeld
  split
  · exact hs
  · next held hfind =>
    obtain ⟨hhandle, hsdk, hnone⟩ := (hs id).apart (isHeld_of_find hfind).1
    have hcall := not_hasCall_iff.2 hnone
    have hleg : ∀ session, id ≠ .placement session := fun session h =>
      hsdk ((hs id).chip session h).1
    have hnot : ¬Engaged p id := fun h => by
      rw [((hs id).known h).1] at hhandle
      cases hhandle
    have hrest : Sound { p with heldInvites := p.heldInvites.filter (·.id != id) } := fun id' =>
      (hs id').of_same (SameAt.of_eq id' (fun _ => Iff.rfl) rfl rfl rfl rfl rfl rfl
        (fun h => (isHeld_removed h).1) fun _ h => h)
    dsimp only
    split
    · exact hrest.holdInvite hhandle hsdk hcall _ _ _
    · refine hrest.presentIncoming hnot hsdk ?_ hleg hcall _ _
      exact Bool.eq_false_iff.2 fun h => (isHeld_removed h).2 rfl

theorem Sound.maybePromoteHeld (endedRinging : Option CallSnapshot) :
    Sound (maybePromoteHeld p endedRinging) := by
  unfold Softphone.maybePromoteHeld
  split
  · exact hs
  · split
    · exact hs
    · split
      · exact hs
      · split
        · exact hs.promoteHeld _
        · exact fun id => (hs id).of_same (SameAt.of_eq id (fun _ => Iff.rfl) rfl rfl rfl rfl rfl
            rfl (fun h => h) fun _ h => h)

theorem Sound.promotionVerdict (id : CallId) (session : String)
    (state : Option String) : Sound (promotionVerdict p id session state) := by
  have haside : ∀ decisions leftRinging, Sound { p with
      decisions := decisions
      leftRinging := leftRinging } := fun _ _ id' =>
    (hs id').of_same (SameAt.of_eq id' (fun _ => Iff.rfl) rfl rfl rfl rfl rfl rfl (fun h => h)
      fun _ h => h)
  unfold Softphone.promotionVerdict
  split
  · dsimp only
    split
    · exact (haside _ _).released [id]
    · split
      · exact (haside _ p.leftRinging).promoteHeld id
      · exact haside _ p.leftRinging
  · exact hs

theorem Sound.applyRingingExit (sessionId : String) : Sound (applyRingingExit p sessionId) := by
  have haside : Sound { p with leftRinging := p.leftRinging ++ [sessionId] } := fun id' =>
    (hs id').of_same (SameAt.of_eq id' (fun _ => Iff.rfl) rfl rfl rfl rfl rfl rfl (fun h => h)
      fun _ h => h)
  have hsilenced : ∀ {q : Phone} (ids : List CallId) (hint : Hint), Sound q →
      Sound { q with
        state := ids.foldl presentationSilenced q.state
        pushHint := hint } := by
    intro q ids hint hq id'
    have hsame : ∀ s : SoftphoneSnapshot,
        (ids.foldl presentationSilenced s).activeId = s.activeId ∧
          ∀ x, shows (ids.foldl presentationSilenced s) id' x ↔ shows s id' x := by
      induction ids with
      | nil => exact fun s => ⟨rfl, fun _ => Iff.rfl⟩
      | cons id ids ih =>
        intro s
        obtain ⟨hactive, hshows⟩ := ih (presentationSilenced s id)
        exact ⟨hactive, fun x => (hshows x).trans shows_presentationSilenced⟩
    exact (hq id').of_same (SameAt.of_eq id' (hsame q.state).2 (hsame q.state).1 rfl rfl rfl rfl
      rfl (fun h => h) fun _ h => h)
  unfold Softphone.applyRingingExit
  dsimp only
  split
  all_goals split
  · exact haside.released _
  · exact hsilenced _ _ (haside.released _)
  · exact haside
  · exact hsilenced _ _ haside

end

/-! ### Reports -/

/-- The phases an SDK call may report. -/
def Follows (p : Phone) (id : CallId) : CallPhase → Prop
  | .ringing => False
  | .connecting => p.sdk id = some .ringing ∨ p.sdk id = some .connecting
  | .active => Engaged p id
  | .held => p.sdk id = some .active ∨ p.sdk id = some .held
  | .ended => True

/-- The commands of the other calls are as they were, and the call itself has got none. -/
structure Obeyed (p : Phone) (id : CallId) (commands : List (CallId × Command)) : Prop where
  other : ∀ id', id' ≠ id → ∀ c, (id', c) ∈ commands ↔ (id', c) ∈ p.commands
  own : ∀ c, (id, c) ∈ commands → (id, c) ∈ p.commands

/-- What a report that is not `active` leaves of another call. -/
theorem SameAt.heard (hobeyed : Obeyed p id commands) (hid : id' ≠ id) (hphase : phase ≠ .active) :
    SameAt p { Softphone.heard (enters p id phase commands) id phase with
      state := sdkPhase p.state id phase } id' where
  shows x _ := shows_sdkPhase_of_ne hid hphase
  gone := (shows_sdkPhase_of_ne hid hphase).1
  activeId h := .inl ((activeId_sdkPhase_of_ne hid hphase).2 h)
  handles := rfl
  sdk := Function.update_of_ne hid _ _
  sdkPhases := Function.update_of_ne hid _ _
  pendingHoldToggle h := by
    simpa [Softphone.heard, enters, Function.update_of_ne hid] using h
  commands c _ := hobeyed.other id' hid c
  held h := h
  placement _ _ h := h

theorem holdActive_eq (q : Phone) (activeId : Option CallId) (id : CallId) :
    ∃ pending commands,
      Softphone.holdActive q activeId id =
        { q with
          pendingHoldToggle := pending
          commands := commands } ∧
      pending id = q.pendingHoldToggle id ∧ (∀ x ∈ q.commands, x ∈ commands) ∧
      ∀ id' c, c ≠ .toggleHold → (id', c) ∈ commands → (id', c) ∈ q.commands := by
  rcases holdActive_cases q activeId id with hsame | ⟨a, -, hne, hsame⟩
  · exact ⟨q.pendingHoldToggle, q.commands, hsame, rfl, fun _ h => h, fun _ _ _ h => h⟩
  · rcases requestHold_cases q a true with hnone | ⟨-, -, htell⟩
    · exact ⟨q.pendingHoldToggle, q.commands, hsame.trans hnone, rfl, fun _ h => h,
        fun _ _ _ h => h⟩
    · refine ⟨_, _, hsame.trans htell, Function.update_of_ne hne.symm _ _, fun x h => ?_, ?_⟩
      · exact List.mem_append_left _ h
      · intro id' c hc h
        exact (mem_tell.1 h).resolve_right fun h => hc h.2

theorem toggle_mem_holdActive {q : Phone} {a : CallId} (hne : a ≠ id)
    (hhandle : q.handles a = true) (hphase : q.sdkPhases a = some .active)
    (hpending : q.pendingHoldToggle a = true → (a, .toggleHold) ∈ q.commands) :
    (a, .toggleHold) ∈ (Softphone.holdActive q (some a) id).commands := by
  have hhold : Softphone.holdActive q (some a) id = Softphone.requestHold q a true := by
    simp [Softphone.holdActive, hne]
  rw [hhold]
  by_cases h : q.pendingHoldToggle a = true
  · have hsame : Softphone.requestHold q a true = q := by simp [Softphone.requestHold, h]
    rw [hsame]
    exact hpending h
  · simp [Softphone.requestHold, hhandle, hphase, h, tell]

section

variable (hs : Sound p) (hobeyed : Obeyed p id commands)
include hs hobeyed

theorem Sound.reportActive
    (hengaged : Engaged p id) : Sound (onPhase (enters p id .active commands) id .active) := by
  obtain ⟨hhandle, y, -, hy⟩ := (hs id).known hengaged
  have hcall : hasCall p.state id = true := hasCall_iff.2 ⟨y, hy⟩
  rw [onPhase_active (p := enters p id .active commands) hcall]
  -- the phone before the hold is asked for
  obtain ⟨q, hq⟩ : ∃ q : Phone, q =
    { heard (enters p id .active commands) id .active with
      state := activate p.state id
      ringFirstSeenMs := Function.update p.ringFirstSeenMs id none } := ⟨_, rfl⟩
  have hactive : (enters p id .active commands).state.activeId = p.state.activeId := rfl
  have hstate : (enters p id .active commands).state = p.state := rfl
  have hclocks : (enters p id .active commands).ringFirstSeenMs = p.ringFirstSeenMs := rfl
  rw [hactive, hstate, hclocks, ← hq]
  have hlist : q.commands = commands := by rw [hq]; rfl
  obtain ⟨pending, cmds, hr, hpend, hkept, hnew⟩ := holdActive_eq q p.state.activeId id
  intro id'
  by_cases hid : id' = id
  · subst hid
    have honly : ∀ x, shows q.state id' x → x = .active := fun x h => by
      rw [hq] at h
      exact (shows_activate_self.1 h).2
    rw [hr]
    exact
      { shown := fun _ => by
          rw [hq]
          exact ⟨Function.update_self .., .inl rfl⟩
        audible := fun _ => .inl (by
          rw [hq]
          exact shows_activate_self.2 ⟨hcall, rfl⟩)
        known := fun _ => by
          rw [hq]
          exact ⟨hhandle, .active, by decide, shows_activate_self.2 ⟨hcall, rfl⟩⟩
        reported := fun _ => by
          rw [hq]
          exact Function.update_self ..
        ringing := fun h => absurd (honly _ h) (by decide)
        toggles := fun h => by
          change pending id' = true at h
          rw [hpend, hq] at h
          simp [heard] at h
        ended := fun h => absurd (honly _ h) (by decide)
        unborn := fun h => by
          rw [hq] at h
          cases (Function.update_self (β := fun _ => Option CallPhase) ..).symm.trans h
        apart := fun h => by
          rw [hq] at h
          rw [((hs id').apart h).1] at hhandle
          cases hhandle
        chip := fun session h => by
          rw [((hs id').chip session h).2.1] at hhandle
          cases hhandle }
  · have hat := hs id'
    have hshows : ∀ x, shows q.state id' x ↔
        (shows p.state id' x ∧ x ≠ .active) ∨ (x = .held ∧ shows p.state id' .active) := by
      rw [hq]
      exact fun x => shows_activate_of_ne hid
    have hfrom : ∀ {x}, shows q.state id' x → x ≠ .held → shows p.state id' x := fun h hx =>
      ((hshows _).1 h).elim And.left fun h => absurd h.1 hx
    have hsdk : q.sdk id' = p.sdk id' := by
      rw [hq]
      exact Function.update_of_ne hid _ _
    have hphases : q.sdkPhases id' = p.sdkPhases id' := by
      rw [hq]
      exact Function.update_of_ne hid _ _
    have hhandles : q.handles id' = p.handles id' := by rw [hq]; rfl
    have hp : q.pendingHoldToggle id' = p.pendingHoldToggle id' := by
      rw [hq]
      exact Function.update_of_ne hid _ _
    have hother : ∀ c, (id', c) ∈ q.commands ↔ (id', c) ∈ p.commands := by
      rw [hlist]
      exact hobeyed.other id' hid
    -- whoever else is active has a hold on its way
    have htoggle : p.sdk id' = some .active → (id', .toggleHold) ∈ cmds := by
      intro h
      have hcmds : cmds = (Softphone.holdActive q p.state.activeId id).commands := by rw [hr]
      have hmaybe : p.state.activeId = some id' ∨ (id', .toggleHold) ∈ p.commands :=
        (hat.audible h).elim (fun h => (hat.shown h).2) fun h => .inr h.2
      rcases hmaybe with hnamed | hmem
      · rw [hcmds, hnamed]
        refine toggle_mem_holdActive hid (hhandles.trans (hat.known (.inl h)).1)
          (hphases.trans (hat.reported h)) fun hpending => ?_
        exact (hother _).2 (hat.toggles (hp ▸ hpending) h)
      · exact hkept _ ((hother _).2 hmem)
    rw [hr]
    exact
      { shown := fun h => by
          rcases (hshows _).1 h with h | h
          · exact absurd rfl h.2
          · cases h.1
        audible := fun h => by
          refine .inr ⟨(hshows _).2 ?_, htoggle (hsdk ▸ h)⟩
          exact (hat.audible (hsdk ▸ h)).elim (fun h => .inr ⟨rfl, h⟩) fun h =>
            .inl ⟨h.1, by decide⟩
        known := fun h => by
          have hp : Engaged p id' := by
            rcases h with h | h | h
            · exact .inl (hsdk ▸ h)
            · exact .inr (.inl (hsdk ▸ h))
            · exact .inr (.inr ((hother _).1 (hnew _ _ (by decide) h)))
          obtain ⟨hh, x, hx, hshown⟩ := hat.known hp
          refine ⟨hhandles.trans hh, ?_⟩
          by_cases hxa : x = .active
          · exact ⟨.held, by decide, (hshows _).2 (.inr ⟨rfl, hxa ▸ hshown⟩)⟩
          · exact ⟨x, hx, (hshows _).2 (.inl ⟨hshown, hxa⟩)⟩
        reported := fun h => hphases.trans (hat.reported (hsdk ▸ h))
        ringing := fun h => by
          change q.sdk id' ≠ _ ∧ q.sdk id' ≠ _
          rw [hsdk]
          exact hat.ringing (hfrom h (by decide))
        toggles := fun _ h => htoggle (hsdk ▸ h)
        ended := fun h => hhandles.trans (hat.ended (hfrom h (by decide)))
        unborn := fun h => hhandles.trans (hat.unborn (hsdk ▸ h))
        apart := fun h => by
          have hheld : isHeld p id' = true := by rw [hq] at h; exact h
          obtain ⟨hh, hnone, hshown⟩ := hat.apart hheld
          refine ⟨hhandles.trans hh, fun h => hnone (hsdk ▸ h), fun x hx => ?_⟩
          exact ((hshows x).1 hx).elim (fun h => hshown x h.1) fun h => hshown _ h.2
        chip := fun session h => by
          obtain ⟨hnone, hh, hpending, honly⟩ := hat.chip session h
          refine ⟨hsdk.trans hnone, hhandles.trans hh, fun hp => ?_, fun x hx => ?_⟩
          · have hp : isPending p session = true := by rw [hq] at hp; exact hp
            exact (hshows _).2 (.inl ⟨hpending hp, by decide⟩)
          · rcases (hshows x).1 hx with hx | hx
            · exact honly x hx.1
            · exact absurd (honly _ hx.2) (by decide) }

/-- A leg that is not connected reports to a core that no longer watches it, or to none. -/
theorem Sound.reportUnwatched (hhandle : p.handles id = false) (hphase : Follows p id phase)
    (hsdk : p.sdk id ≠ none) : Sound (enters p id phase commands) := by
  have hnot : ¬Engaged p id := fun h => by
    rw [((hs id).known h).1] at hhandle
    cases hhandle
  intro id'
  by_cases hid : id' = id
  · subst hid
    have hat := hs id'
    have hquiet : phase ≠ .active ∧ phase ≠ .held := by
      refine ⟨fun h => ?_, fun h => ?_⟩
      · subst h
        exact hnot hphase
      · subst h
        exact hnot (hphase.imp_right .inl)
    have hnew : (enters p id' phase commands).sdk id' = some phase := Function.update_self ..
    refine SoundAt.silent (by simpa [hnew] using hquiet.1) (by simpa [hnew] using hquiet.2)
      (fun h => hnot (.inl (hat.shown h).1))
      (fun h => absurd (.inr (.inr (hobeyed.own _ h))) hnot) hat.ended (fun _ => hhandle)
      (fun h => ?_) fun session h => hsdk (hat.chip session h).1
    exact ⟨hhandle, by simp [hnew], (hat.apart h).2.2⟩
  · exact (hs id').of_same
      { SameAt.refl p id' with
        activeId := .inl
        sdk := Function.update_of_ne hid _ _
        commands := fun c _ => hobeyed.other id' hid c }

/-- What the core makes of a report that is not `active`, before it promotes an INVITE. -/
theorem Sound.reportQuiet (hhandle : p.handles id = true) (hsdk : p.sdk id ≠ none)
    (hphase : Follows p id phase) (hactive : phase ≠ .active) (hended : phase ≠ .ended) :
    Sound { heard (enters p id phase commands) id phase with
      state := sdkPhase p.state id phase } := by
  intro id'
  by_cases hid : id' = id
  · subst hid
    have hat := hs id'
    have hnew : ({ heard (enters p id' phase commands) id' phase with
        state := sdkPhase p.state id' phase } : Phone).sdk id' = some phase :=
      Function.update_self ..
    have hleg : ∀ session, id' ≠ .placement session := fun session h => hsdk (hat.chip session h).1
    have hapart : isHeld p id' = true → False := fun h => by
      rw [(hat.apart h).1] at hhandle
      cases hhandle
    cases phase with
    | ringing => exact hphase.elim
    | active => exact absurd rfl hactive
    | ended => exact absurd rfl hended
    | connecting =>
      have hquiet : p.sdk id' ≠ some .active ∧ p.sdk id' ≠ some .held := by
        rcases hphase with h | h <;> simp [h]
      refine SoundAt.silent (fun h => absurd (hnew.symm.trans h) (by decide))
        (fun h => absurd (hnew.symm.trans h) (by decide)) (fun h => ?_) (fun h => ?_)
        (fun h => ?_) (fun h => nomatch hnew.symm.trans h) (fun h => (hapart h).elim) hleg
      · rcases shows_sdkPhase_connecting h with h | h
        · exact hquiet.1 (hat.shown h).1
        · exact nomatch h
      · obtain ⟨-, x, hx, hshown⟩ := hat.known (.inr (.inr (hobeyed.own _ h)))
        refine ⟨hhandle, ?_⟩
        rcases shows_sdkPhase_connecting_of hshown with h | h
        · exact ⟨x, hx, h⟩
        · exact ⟨.connecting, by decide, h⟩
      · rcases shows_sdkPhase_connecting h with h | h
        · exact hat.ended h
        · exact nomatch h
    | held =>
      have hengaged : Engaged p id' := hphase.imp_right .inl
      have hring : ¬shows p.state id' .ringing := fun h => by
        obtain ⟨hnoactive, hnoheld⟩ := hat.ringing h
        exact hphase.elim hnoactive hnoheld
      obtain ⟨-, y, -, hy⟩ := hat.known hengaged
      have hshows : ∀ x, shows (sdkPhase p.state id' .held) id' x ↔ x = .held := fun x =>
        (shows_sdkPhase_held hring).trans (and_iff_right (hasCall_iff.2 ⟨y, hy⟩))
      exact
        { shown := fun h => absurd ((hshows _).1 h) (by decide)
          audible := fun h => absurd (hnew.symm.trans h) (by decide)
          known := fun _ => ⟨hhandle, .held, by decide, (hshows _).2 rfl⟩
          reported := fun h => absurd (hnew.symm.trans h) (by decide)
          ringing := fun h => absurd ((hshows _).1 h) (by decide)
          toggles := fun _ h => absurd (hnew.symm.trans h) (by decide)
          ended := fun h => absurd ((hshows _).1 h) (by decide)
          unborn := fun h => nomatch hnew.symm.trans h
          apart := fun h => (hapart h).elim
          chip := fun session h => absurd h (hleg session) }
  · exact (hs id').of_same (SameAt.heard hobeyed hid hactive)

theorem Sound.reportEnded (hnone : ∀ c, (id, c) ∉ commands) (hhandle : p.handles id = true)
    (hsdk : p.sdk id ≠ none) : Sound (forgotten (enters p id .ended commands) id) := by
  intro id'
  by_cases hid : id' = id
  · subst hid
    have hat := hs id'
    have hnew : (forgotten (enters p id' .ended commands) id').sdk id' = some .ended :=
      Function.update_self ..
    refine SoundAt.silent (by simp [hnew]) (by simp [hnew])
      (fun h => absurd (shows_sdkPhase_ended h) (by decide)) (fun h => absurd h (hnone _))
      (fun _ => Function.update_self ..) (fun _ => Function.update_self ..) (fun h => ?_)
      fun session h => hsdk (hat.chip session h).1
    rw [(hat.apart h).1] at hhandle
    cases hhandle
  · refine (hs id').of_same
      { (SameAt.heard hobeyed hid (by decide) :
          SameAt p { Softphone.heard (enters p id .ended commands) id .ended with
            state := sdkPhase p.state id .ended } id') with
        handles := Function.update_of_ne hid _ _
        sdkPhases := ?_ }
    exact (Function.update_of_ne hid _ _).trans (Function.update_of_ne hid _ _)

theorem Sound.report (hsdk : p.sdk id ≠ none)
    (hphase : Follows p id phase) : Sound (report { p with commands := commands } id phase) := by
  have hfiltered : Obeyed p id (commands.filter (·.1 != id)) :=
    { other := fun id' hid c => by
        rw [List.mem_filter, hobeyed.other id' hid c]
        exact and_iff_left (by simpa using hid)
      own := fun c h => hobeyed.own c (List.mem_of_mem_filter h) }
  have hgone : ∀ c, (id, c) ∉ commands.filter (·.1 != id) := fun c h => by
    simpa using (List.mem_filter.1 h).2
  by_cases hended : phase = .ended
  · subst hended
    rw [report_ended]
    split
    · next hhandle =>
      cases hprev : callOf p.state id with
      | none =>
        have hcall : hasCall p.state id = false := by
          rw [hasCall_eq_isSome, hprev]
          rfl
        rw [onPhase_of_not_hasCall
          (p := enters p id .ended (commands.filter (·.1 != id))) hcall]
        -- the chip has gone already, and with it anything the leg could have broken
        intro id'
        by_cases hid : id' = id
        · subst hid
          have hat := hs id'
          have hnone := not_hasCall_iff.1 hcall
          have hnew : (heard (enters p id' .ended (commands.filter (·.1 != id'))) id'
              .ended).sdk id' = some .ended := Function.update_self ..
          refine SoundAt.silent (by simp [hnew]) (by simp [hnew]) (hnone _)
            (fun h => absurd h (hgone _)) (fun h => absurd h (hnone _))
            (fun h => nomatch hnew.symm.trans h) (fun h => ?_)
            fun session h => hsdk (hat.chip session h).1
          rw [(hat.apart h).1] at hhandle
          cases hhandle
        · have hsame : SameAt p { heard (enters p id .ended
              (commands.filter (·.1 != id))) id .ended with
              state := sdkPhase p.state id .ended } id' :=
            SameAt.heard hfiltered hid (by decide)
          rw [sdkPhase_of_not_hasCall hcall] at hsame
          exact (hs id').of_same hsame
      | some prev =>
        rw [onPhase_ended (p := enters p id .ended (commands.filter (·.1 != id))) hprev]
        exact (hs.reportEnded hfiltered hgone hhandle hsdk).maybePromoteHeld _
    · next hhandle =>
      exact (hs.reportUnwatched hfiltered (by simpa using hhandle) hphase hsdk).released [id]
  · rw [report_other commands hended]
    split
    · next hhandle =>
      by_cases hactive : phase = .active
      · subst hactive
        exact hs.reportActive hobeyed hphase
      · by_cases hcall : hasCall p.state id = true
        · rw [onPhase_other (p := enters p id phase commands) hcall hactive hended]
          exact hs.reportQuiet hobeyed hhandle hsdk hphase hactive hended
        · have hcall : hasCall p.state id = false := by simpa using hcall
          have hquiet := hs.reportQuiet hobeyed hhandle hsdk hphase hactive hended
          rw [sdkPhase_of_not_hasCall hcall] at hquiet
          rw [onPhase_of_not_hasCall (p := enters p id phase commands) hcall]
          exact hquiet
    · next hhandle =>
      exact hs.reportUnwatched hobeyed (by simpa using hhandle) hphase hsdk

end

/-! ### The SDK's own steps -/

theorem Obeyed.refl (p : Phone) (id : CallId) : Obeyed p id p.commands where
  other _ _ _ := Iff.rfl
  own _ h := h

theorem Obeyed.erase (p : Phone) (id : CallId) (c : Command) :
    Obeyed p id (p.commands.erase (id, c)) where
  other id' hid c' := List.mem_erase_of_ne fun h => hid (by cases h; rfl)
  own _ h := List.mem_of_mem_erase h

theorem follows_outcome {c : Command} {phase phase' : CallPhase}
    (hmem : (id, c) ∈ p.commands) (hsdk : p.sdk id = some phase)
    (houtcome : c.outcome phase = some phase') : Follows p id phase' := by
  cases phase <;> cases c <;>
    simp only [Command.outcome, Option.some.injEq, reduceCtorEq] at houtcome <;>
    subst houtcome <;> simp [Follows, Engaged, hsdk, hmem]

section

variable (hs : Sound p)
include hs

section

variable (id)

theorem Sound.obey (c : Command) : Sound (obey p id c) := by
  unfold Softphone.obey
  split
  · next hmem =>
    dsimp only
    split
    · next phase' hbind =>
      obtain ⟨phase, hsdk, houtcome⟩ := Option.bind_eq_some_iff.1 hbind
      refine hs.report (Obeyed.erase p id c) ?_ (follows_outcome hmem hsdk houtcome)
      rw [hsdk]
      exact nofun
    · next hnone =>
      -- a command that finds nothing to do is dropped; a hold of an active call is none
      have hkept : ∀ id', p.sdk id' = some .active → (id', .toggleHold) ∈ p.commands →
          (id', .toggleHold) ∈ p.commands.erase (id, c) := by
        intro id' hsdk h
        refine (List.mem_erase_of_ne fun heq => ?_).2 h
        cases heq
        rw [hsdk] at hnone
        exact nomatch hnone
      intro id'
      have hat := hs id'
      have hengaged : Engaged { p with commands := p.commands.erase (id, c) } id' →
          Engaged p id' := fun h => h.imp_right fun h => h.imp_right List.mem_of_mem_erase
      exact
        { hat with
          shown := fun h => by
            obtain ⟨hsdk, hwhy⟩ := hat.shown h
            exact ⟨hsdk, hwhy.imp_right (hkept id' hsdk)⟩
          audible := fun h =>
            (hat.audible h).imp_right fun hheld => ⟨hheld.1, hkept id' h hheld.2⟩
          known := fun h => hat.known (hengaged h)
          toggles := fun hpending h => hkept id' h (hat.toggles hpending h) }
  · exact hs

theorem Sound.connecting : Sound (connecting p id) := by
  unfold Softphone.connecting
  split
  · next h =>
    refine hs.report (Obeyed.refl p id) ?_ h
    rcases h with h | h <;> simp [h]
  · exact hs

theorem Sound.repeats : Sound (repeats p id) := by
  unfold Softphone.repeats
  split
  · exact hs
  · next phase hsdk =>
    split
    · exact hs
    · next hphase =>
      refine hs.report (Obeyed.refl p id) (by simp [hsdk]) ?_
      cases phase <;> simp_all [Follows, Engaged]

theorem Sound.remoteEnd : Sound (remoteEnd p id) := by
  unfold Softphone.remoteEnd
  split
  · exact hs
  · next phase hsdk =>
    split
    · exact hs
    · exact hs.report (Obeyed.refl p id) (by simp [hsdk]) trivial

end

/-! ### INVITEs -/

theorem Sound.leg (hsdk : p.sdk id = none) (hleg : ∀ session, id ≠ .placement session) :
    Sound { p with sdk := Function.update p.sdk id (some .ringing) } := by
  intro id'
  by_cases hid : id' = id
  · subst hid
    have hat := hs id'
    have hnew : ({ p with sdk := Function.update p.sdk id' (some .ringing) } : Phone).sdk id' =
        some .ringing := Function.update_self ..
    refine SoundAt.silent (fun h => absurd (hnew.symm.trans h) (by decide))
      (fun h => absurd (hnew.symm.trans h) (by decide)) (fun h => ?_)
      (fun h => hat.known (.inr (.inr h))) hat.ended (fun h => nomatch hnew.symm.trans h)
      (fun h => ?_) hleg
    · rw [(hat.shown h).1] at hsdk
      cases hsdk
    · exact absurd hsdk (hat.apart h).2.1
  · exact (hs id').of_same
      { SameAt.refl p id' with sdk := Function.update_of_ne hid _ _ }

theorem Sound.record (session : Option String) (fate : Fate) : Sound (record p session fate) := by
  cases session with
  | none => exact hs
  | some session =>
    exact fun id => (hs id).of_same (SameAt.of_eq id (fun _ => Iff.rfl) rfl rfl rfl rfl rfl rfl
      (fun h => h) fun _ h => h)

theorem Sound.acceptPlacementOpLeg (hsdk : p.sdk id = some .ringing)
    (hcall : hasCall p.state id = false) (hheld : isHeld p id = false) {session : String}
    (hpending : isPending p session = true) : Sound (acceptPlacementOpLeg p id session) := by
  have hchip := (hs (.placement session)).chip session rfl
  have hshown : hasCall p.state (.placement session) = true :=
    hasCall_iff.2 ⟨_, hchip.2.2.1 hpending⟩
  have hleg : ∀ session, id ≠ .placement session := fun session h => by
    rw [((hs id).chip session h).1] at hsdk
    cases hsdk
  have hshows : ∀ id' x, shows (Softphone.acceptPlacementOpLeg p id session).state id' x ↔
      (shows p.state id' x ∧ id' ≠ .placement session) ∨
        (id = id' ∧ shows p.state (.placement session) x) := fun id' x =>
    shows_placementConnected hshown
  intro id'
  by_cases hid : id' = id
  · subst hid
    have honly : ∀ x, shows (Softphone.acceptPlacementOpLeg p id' session).state id' x →
        x = .connecting := fun x h => by
      rcases (hshows id' x).1 h with h | h
      · exact absurd h.1 (not_hasCall_iff.1 hcall x)
      · exact hchip.2.2.2 x h.2
    have hstill : (Softphone.acceptPlacementOpLeg p id' session).sdk id' = some .ringing := hsdk
    refine SoundAt.silent (fun h => absurd (hstill.symm.trans h) (by decide))
      (fun h => absurd (hstill.symm.trans h) (by decide))
      (fun h => absurd (honly _ h) (by decide)) (fun _ => ?_)
      (fun h => absurd (honly _ h) (by decide)) (fun h => nomatch hstill.symm.trans h)
      (fun h => absurd (h.symm.trans hheld) (by decide)) hleg
    refine ⟨Function.update_self .., .connecting, by decide, ?_⟩
    exact (hshows _ _).2 (.inr ⟨rfl, hchip.2.2.1 hpending⟩)
  · have hne : id ≠ id' := fun h => hid h.symm
    by_cases hplacement : id' = .placement session
    · -- the chip has gone over to the leg
      subst hplacement
      have hnone : ∀ x, ¬shows (Softphone.acceptPlacementOpLeg p id session).state
          (.placement session) x := fun x h =>
        ((hshows _ x).1 h).elim (fun h => h.2 rfl) fun h => hne h.1
      have hsame : (Softphone.acceptPlacementOpLeg p id session).sdk (.placement session) = none :=
        hchip.1
      have hhandle : (Softphone.acceptPlacementOpLeg p id session).handles (.placement session) =
          false := (Function.update_of_ne hid _ _).trans hchip.2.1
      have hnot : ¬Engaged (Softphone.acceptPlacementOpLeg p id session) (.placement session) := by
        rintro (h | h | h)
        · exact absurd (hsame.symm.trans h) (by decide)
        · exact absurd (hsame.symm.trans h) (by decide)
        · rcases mem_tell.1 h with h | h
          · have hknown := ((hs (.placement session)).known (.inr (.inr h))).1
            rw [hchip.2.1] at hknown
            cases hknown
          · exact hid h.1
      exact
        { shown := fun h => absurd h (hnone _)
          audible := fun h => absurd (.inl h) hnot
          known := fun h => absurd h hnot
          reported := fun h => absurd (.inl h) hnot
          ringing := fun h => absurd h (hnone _)
          toggles := fun _ h => absurd (.inl h) hnot
          ended := fun h => absurd h (hnone _)
          unborn := fun _ => hhandle
          apart := fun h => absurd hchip.1 ((hs _).apart h).2.1
          chip := fun other h => by
            cases h
            refine ⟨hsame, hhandle, fun h => ?_, fun x h => absurd h (hnone x)⟩
            simp [Softphone.acceptPlacementOpLeg, isPending, tell] at h }
    · refine (hs id').of_same
        { SameAt.refl p id' with
          shows := fun x _ => by
            rw [hshows]
            exact ⟨fun h => h.elim And.left fun h => absurd h.1 hne, fun h => .inl ⟨h, hplacement⟩⟩
          gone := fun h => ((hshows _ _).1 h).elim And.left fun h => absurd h.1 hne
          activeId := fun h => .inl (by
            have hkeep : p.state.activeId ≠ some (.placement session) := fun h' =>
              hplacement (by simpa [h] using h')
            have hactive : (Softphone.acceptPlacementOpLeg p id session).state.activeId =
                p.state.activeId := by
              simp [Softphone.acceptPlacementOpLeg, tell, placementConnected, hshown, hkeep]
            exact hactive.trans h)
          handles := Function.update_of_ne hid _ _
          sdkPhases := Function.update_of_ne hid _ _
          commands := fun c _ => mem_tell.trans (or_iff_left fun h => hid h.1)
          placement := fun other _ h => by
            obtain ⟨pending, hmem, hother⟩ := List.any_eq_true.1 h
            exact List.any_eq_true.2 ⟨pending, List.mem_of_mem_filter hmem, hother⟩ }

theorem Sound.ringIn {i : Invite} (hsdk : p.sdk i.callId = some .ringing)
    (hcall : hasCall p.state i.callId = false) (hheld : isHeld p i.callId = false)
    (hhandle : p.handles i.callId = false) : Sound (ringIn p i) := by
  have hnot : ¬Engaged p i.callId := fun h => by
    rw [((hs _).known h).1] at hhandle
    cases hhandle
  unfold Softphone.ringIn
  split
  · exact (hs.holdInvite hhandle (by simp [hsdk]) hcall _ _ _).record _ _
  · split
    · exact (hs.holdInvite hhandle (by simp [hsdk]) hcall _ _ _).record _ _
    · exact (hs.presentIncoming hnot (by simp [hsdk]) hheld (fun _ h => nomatch h) hcall _ _).record
        _ _

theorem Sound.onIncoming {i : Invite} (hsdk : p.sdk i.callId = some .ringing)
    (hhandle : p.handles i.callId = false) : Sound (onIncoming p i) := by
  unfold Softphone.onIncoming
  split
  · exact hs.record _ _
  · next hnew =>
    obtain ⟨hcall, hheld⟩ : hasCall p.state i.callId = false ∧ isHeld p i.callId = false := by
      simpa using hnew
    split
    · exact hs.ringIn hsdk hcall hheld hhandle
    · split
      · next hpending => exact (hs.acceptPlacementOpLeg hsdk hcall hheld hpending).record _ _
      · split
        · have haside : ∀ cancelled, Sound { p with cancelledPlacements := cancelled } :=
            fun _ id => (hs id).of_same (SameAt.of_eq id (fun _ => Iff.rfl) rfl rfl rfl rfl rfl
              rfl (fun h => h) fun _ h => h)
          exact ((haside _).tellEnd _).record _ _
        · exact hs.ringIn hsdk hcall hheld hhandle

theorem Sound.invited (i : Invite) : Sound (invited p i) := by
  unfold Softphone.invited
  split
  · next hsdk =>
    refine (hs.leg hsdk fun _ h => nomatch h).onIncoming ?_ ((hs _).unborn hsdk)
    exact Function.update_self ..
  · exact hs

end

/-! ### Placements -/

/-- The call the screen names is to be heard, and nothing holds it. -/
def unheldActive (p : Phone) : Bool :=
  match p.state.activeId with
  | none => false
  | some id => p.sdk id == some .active && !p.commands.contains (id, .toggleHold)

section

variable (hs : Sound p)
include hs

/-- A placement takes the active slot, from no call that is to be heard. -/
theorem Sound.authorized (session : Option String) (number : String)
    (hsafe : places p session = true → unheldActive p = false) :
    Sound (authorized p session number) := by
  by_cases hplaces : places p session = true
  · cases session with
    | none => exact nomatch hplaces
    | some session =>
      rw [authorized_of_places hplaces]
      intro id
      by_cases hid : id = .placement session
      · subst hid
        have hat := hs (.placement session)
        obtain ⟨hsdk, hhandle, -, honly⟩ := hat.chip session rfl
        have hnot : ¬Engaged p (.placement session) := fun h => by
          rw [(hat.known h).1] at hhandle
          cases hhandle
        have honly' : ∀ x, shows (placing p.state (chip session number)) (.placement session) x →
            x = .connecting := fun x h =>
          (shows_placing.1 h).elim (fun h => honly x h.1) And.right
        exact
          { shown := fun h => absurd (honly' _ h) (by decide)
            audible := fun h => absurd (.inl h) hnot
            known := fun h => absurd h hnot
            reported := fun h => absurd (.inl h) hnot
            ringing := fun h => absurd (honly' _ h) (by decide)
            toggles := fun _ h => absurd (.inl h) hnot
            ended := fun h => absurd (honly' _ h) (by decide)
            unborn := fun _ => hhandle
            apart := fun h => absurd hsdk (hat.apart h).2.1
            chip := fun _ _ =>
              ⟨hsdk, hhandle, fun _ => shows_placing.2 (.inr ⟨rfl, rfl⟩), honly'⟩ }
      · have hne : (chip session number).id ≠ id := fun h => hid h.symm
        refine (hs id).of_same
          { SameAt.refl p id with
            shows := fun x hx => shows_placing.trans
              ⟨fun h => h.elim And.left fun h => absurd h.1 hne, fun h => .inl ⟨h, hx⟩⟩
            gone := fun h => (shows_placing.1 h).elim And.left fun h => absurd h.1 hne
            activeId := fun h => .inr fun hsdk => ?_
            placement := fun other hother h => ?_ }
        · simpa [unheldActive, h, hsdk] using hsafe hplaces
        · have hdiff : session ≠ other := fun h => hid (by rw [hother, h])
          simpa [isPending, hdiff] using h
  · obtain ⟨authorizing, h⟩ := authorized_of_not_places number (by simpa using hplaces)
    rw [h]
    exact fun id => (hs id).of_same (SameAt.of_eq id (fun _ => Iff.rfl) rfl rfl rfl rfl rfl rfl
      (fun h => h) fun _ h => h)

theorem Sound.registered (session : String) : Sound (registered p session) := by
  unfold Softphone.registered
  split
  · refine fun id => (hs id).of_same (SameAt.of_eq id (fun _ => Iff.rfl) rfl rfl rfl rfl rfl rfl
      (fun h => h) fun other h => ?_)
    obtain ⟨pending, hmem, hother⟩ := List.any_eq_true.1 h
    obtain ⟨q, hq, rfl⟩ := List.mem_map.1 hmem
    refine List.any_eq_true.2 ⟨q, hq, ?_⟩
    split at hother <;> exact hother
  · exact hs

theorem Sound.endPlacement (session : String) (registering cancelled : List String) :
    Sound { p with
      state := Softphone.dropped p.state (.placement session)
      pendingPlacements := p.pendingPlacements.filter (·.session != session)
      registering := registering
      cancelledPlacements := cancelled } := by
  refine hs.dropped ((hs _).chip session rfl).2.1 _ _ _ fun other h => ?_
  obtain ⟨pending, hmem, hother⟩ := List.any_eq_true.1 h
  obtain ⟨hmem, hne⟩ := List.mem_filter.1 hmem
  refine ⟨List.any_eq_true.2 ⟨pending, hmem, hother⟩, fun heq => ?_⟩
  cases heq
  simp_all

theorem Sound.failPlacements (pendings : List PendingPlacement) :
    Sound (pendings.foldl failPlacement p) := by
  induction pendings generalizing p with
  | nil => exact hs
  | cons pending pendings ih => exact ih (hs.endPlacement _ p.registering p.cancelledPlacements)

theorem Sound.dropRings {ids : List CallId}
    (hids : ∀ id ∈ ids, shows p.state id .ringing ∧ (id, .accept) ∉ p.commands) :
    Sound (ids.foldl dropRingingPresentation p) := by
  have hquiet : ∀ id ∈ ids, ¬Engaged p id ∧ ∀ session, id ≠ .placement session := by
    intro id hid
    obtain ⟨hring, haccept⟩ := hids id hid
    obtain ⟨hactive, hheld⟩ := (hs id).ringing hring
    refine ⟨fun h => ?_, fun session h => ?_⟩
    · rcases h with h | h | h
      · exact hactive h
      · exact hheld h
      · exact haccept h
    · exact absurd (((hs id).chip session h).2.2.2 _ hring) (by decide)
  clear hids
  induction ids generalizing p with
  | nil => exact hs
  | cons id ids ih =>
    obtain ⟨hnot, hleg⟩ := hquiet id (List.mem_cons_self ..)
    -- dropping one ring engages no other
    exact ih (hs.dropRinging hnot hleg) fun other h => hquiet other (List.mem_cons_of_mem _ h)

section

variable (id)

/-- A call without a handle, and without a placement, leaves the screen. -/
theorem Sound.endOrDismiss
    (hpending : ∀ session, id = .placement session → isPending p session = false) :
    Sound (endOrDismiss p id) := by
  unfold Softphone.endOrDismiss
  split
  · exact hs.tellEnd id
  · next hhandle =>
    refine hs.dropped (by simpa using hhandle) p.pendingPlacements p.registering
      p.cancelledPlacements fun session h => ⟨h, fun hid => ?_⟩
    exact absurd (h.symm.trans (hpending session hid)) (by decide)

theorem Sound.hangup : Sound (hangup p id) := by
  unfold Softphone.hangup
  split
  · next hnone =>
    refine hs.endOrDismiss id fun session h => ?_
    subst h
    exact nomatch hnone
  · next session hsession =>
    have hid : id = .placement session := by
      cases id with
      | placement other => exact congrArg _ (Option.some.inj hsession)
      | leg => exact nomatch hsession
    subst hid
    split
    · exact hs.endPlacement session p.registering _
    · next hnone =>
      refine hs.endOrDismiss _ fun other h => ?_
      cases h
      simpa using hnone

theorem Sound.answer : Sound (answer p id) := by
  unfold Softphone.answer
  split
  · exact hs
  · next call hcall =>
    split
    · exact hs
    · next hhandle =>
      split
      · exact hs
      · next hring =>
        have hring : call.phase = .ringing := by simpa using hring
        refine (hs.holdActive p.state.activeId id).tellAccept ?_ ?_
        all_goals obtain ⟨pending, commands, h, -⟩ := holdActive_eq p p.state.activeId id
        all_goals rw [h]
        · simpa using hhandle
        · exact hring ▸ shows_of_callOf hcall

theorem Sound.toggleHold : Sound (toggleHold p id) := by
  unfold Softphone.toggleHold
  split
  · exact hs
  · split
    · exact (hs.holdActive _ id).requestHold id false
    · exact hs.requestHold id true
    · exact hs

theorem Sound.dismiss : Sound (dismiss p id) := by
  unfold Softphone.dismiss
  split
  · exact hs
  · next call hcall =>
    split
    · next hended =>
      have hshown : shows p.state id .ended := hended ▸ shows_of_callOf hcall
      refine hs.dropped ((hs id).ended hshown) p.pendingPlacements p.registering
        p.cancelledPlacements fun session h => ⟨h, fun hid => ?_⟩
      exact absurd (((hs id).chip session hid).2.2.2 _ hshown) (by decide)
    · exact hs

theorem Sound.resolved (sessionId : String) : Sound (resolved p id sessionId) := by
  unfold Softphone.resolved
  split
  · split
    · exact hs
    · exact fun id' => (hs id').of_same (SameAt.of_eq id'
        (fun _ => shows_update fun _ => ⟨rfl, rfl⟩) rfl rfl rfl rfl rfl rfl (fun h => h)
        fun _ h => h)
  · exact hs

end

end

end

/-! ### Runs -/

/-- The member has answered the ring, and its leg is on its way to being connected. -/
def isAnswered (p : Phone) (id : CallId) : Bool := p.commands.contains (id, .accept)

/-- No placement is made while a call is to be heard that nothing holds, and no ring is dropped
that the member has answered. -/
def unheard (p : Phone) : Input → Bool
  | .authorized session _ => !(places p session && unheldActive p)
  | .sweep => (expiredRings p).all fun id => !isAnswered p id
  | .clientDeath =>
    ((p.state.calls.filter (·.phase == .ringing)).map (·.id)).all fun id => !isAnswered p id
  | _ => true

/-- **One step.** -/
theorem move_sound {p : Phone} {i : Input} (hs : Sound p) (h : unheard p i = true) :
    Sound (move p i) := by
  have haside : ∀ {q : Phone}, q.state = p.state → q.handles = p.handles → q.sdk = p.sdk →
      q.sdkPhases = p.sdkPhases → q.pendingHoldToggle = p.pendingHoldToggle →
      q.commands = p.commands → q.heldInvites = p.heldInvites →
      q.pendingPlacements = p.pendingPlacements → Sound q := by
    intro q h1 h2 h3 h4 h5 h6 h7 h8 id
    exact (hs id).of_same (SameAt.of_eq id (fun _ => by rw [h1]) (by rw [h1]) h2 h3 h4 h5 h6
      (by simp only [isHeld, h7, imp_self]) (by simp only [isPending, h8, imp_self, implies_true]))
  cases i with
  | company | clock | push | hintRefreshed | authorizeFailed | registrationCancelled =>
    exact haside rfl rfl rfl rfl rfl rfl rfl rfl
  | placeCall =>
    change Sound (placeCall p)
    unfold placeCall
    split
    · exact hs
    · exact haside rfl rfl rfl rfl rfl rfl rfl rfl
  | invite i => exact hs.invited i
  | obey id c => exact hs.obey id c
  | connecting id => exact hs.connecting id
  | repeats id => exact hs.repeats id
  | remoteEnd id => exact hs.remoteEnd id
  | resolved id sessionId => exact hs.resolved id sessionId
  | sessionUpdate sessionId state =>
    change Sound (onCallSessionUpdate p sessionId state)
    unfold onCallSessionUpdate
    split
    · exact hs
    · split
      · exact hs
      · exact hs.applyRingingExit sessionId
  | callEndPush sessionId =>
    change Sound (onCallEndPush p sessionId)
    unfold onCallEndPush
    split
    · exact hs
    · exact hs.applyRingingExit sessionId
  | promotionVerdict id session state => exact hs.promotionVerdict id session state
  | sweep =>
    have hrings : ∀ id ∈ expiredRings p, shows p.state id .ringing ∧
        (id, .accept) ∉ p.commands := by
      intro id hid
      refine ⟨?_, by simpa [isAnswered] using List.all_eq_true.1 h id hid⟩
      obtain ⟨c, hc, rfl⟩ := List.mem_map.1 hid
      obtain ⟨hmem, hring⟩ := List.mem_filter.1 hc
      exact ⟨c, hmem, rfl, by simp_all⟩
    have hreleased := (hs.dropRings hrings).released
      ((((expiredRings p).foldl dropRingingPresentation p).heldInvites.filter fun h =>
        isExpired ((expiredRings p).foldl dropRingingPresentation p) h.id).map (·.id))
    exact fun id => (hreleased id).of_same (SameAt.of_eq id (fun _ => Iff.rfl) rfl rfl rfl rfl
      rfl rfl (fun h => h) fun _ h => h)
  | clientDeath =>
    have hrings : ∀ id ∈ (p.state.calls.filter (·.phase == .ringing)).map (·.id),
        shows p.state id .ringing ∧ (id, .accept) ∉ p.commands := by
      intro id hid
      refine ⟨?_, by simpa [isAnswered] using List.all_eq_true.1 h id hid⟩
      obtain ⟨c, hc, rfl⟩ := List.mem_map.1 hid
      obtain ⟨hmem, hring⟩ := List.mem_filter.1 hc
      exact ⟨c, hmem, rfl, by simpa using hring⟩
    exact ((hs.dropRings hrings).released _).failPlacements _
  | authorized session number =>
    refine hs.authorized session number fun hplaces => ?_
    simpa [unheard, hplaces] using h
  | registered session => exact hs.registered session
  | registrationFailed session =>
    change Sound (registrationFailed p session)
    unfold registrationFailed
    split
    · exact hs.endPlacement session _ p.cancelledPlacements
    · exact hs
  | placementTimeout session =>
    change Sound (placementTimeout p session)
    unfold placementTimeout
    split
    · exact hs.endPlacement session p.registering p.cancelledPlacements
    · exact hs
  | answer id => exact hs.answer id
  | hangup id => exact hs.hangup id
  | toggleHold id => exact hs.toggleHold id
  | dismiss id => exact hs.dismiss id
  | releaseHeldForSession session => exact hs.released _

theorem fresh_sound : Sound fresh := fun id =>
  { shown := fun h => by simp [shows, fresh] at h
    audible := nofun
    known := by simp [Engaged, fresh]
    reported := nofun
    ringing := fun h => by simp [shows, fresh] at h
    toggles := nofun
    ended := fun _ => rfl
    unborn := fun _ => rfl
    apart := fun h => by simp [isHeld, fresh] at h
    chip := fun session _ => ⟨rfl, rfl, by simp [isPending, fresh], by simp [shows, fresh]⟩ }

/-- At most one call is heard, the screen shows just that one as active, and names it. -/
structure OneAudioPath (p : Phone) : Prop where
  sole : ∀ id id', p.sdk id = some .active → p.sdk id' = some .active → id = id'
  shown : ∀ id, shows p.state id .active ↔ p.sdk id = some .active
  named : ∀ id, p.sdk id = some .active → p.state.activeId = some id

/-- With no command on its way, what holds all along is one audio path. -/
theorem Sound.oneAudioPath {p : Phone} (hs : Sound p) (hquiet : p.commands = []) :
    OneAudioPath p := by
  have hnone : ∀ x, x ∉ p.commands := by simp [hquiet]
  have hshown : ∀ id, shows p.state id .active ↔ p.sdk id = some .active := fun id =>
    ⟨fun h => ((hs id).shown h).1, fun h =>
      ((hs id).audible h).resolve_right fun h => hnone _ h.2⟩
  have hnamed : ∀ id, p.sdk id = some .active → p.state.activeId = some id := fun id h =>
    (((hs id).shown ((hshown id).2 h)).2).resolve_right (hnone _)
  refine ⟨fun id id' h h' => ?_, hshown, hnamed⟩
  exact Option.some.inj ((hnamed id h).symm.trans (hnamed id' h'))

/-- **One audio path, along a run** in which no placement is made over a call that is to be heard
and no answered ring is dropped. -/
theorem one_audio_path (is : List Input)
    (h : Reactive.Along step (fun p i => unheard p i = true) fresh is)
    (hquiet : (Reactive.final step fresh is).commands = []) :
    OneAudioPath (Reactive.final step fresh is) := by
  have hsound : Sound (Reactive.final step fresh is) :=
    Reactive.final_of_inv_along step (P := Sound) (fun _ _ hs hi => move_sound hs hi) fresh_sound h
  exact hsound.oneAudioPath hquiet

/-- A member answers a call and places another one, whose leg is connected. -/
def answered : List Input :=
  [.company "acme", .invite ⟨"a", some "in", "+14155550100"⟩, .answer (.leg "a"),
    .obey (.leg "a") .accept]

def placed : List Input :=
  [.placeCall, .authorized (some "out") "+14155550123", .registered "out",
    .invite ⟨"b", some "out", "+14155550199"⟩, .obey (.leg "b") .accept]

/-- Where the first call is held before, one is heard. -/
theorem one_audio_path_held :
    OneAudioPath (Reactive.final step fresh
      (answered ++ [.toggleHold (.leg "a"), .obey (.leg "a") .toggleHold] ++ placed)) :=
  one_audio_path _ (by decide +kernel) (by decide +kernel)

/-- **A call is placed while another is active**: both are heard, and no command is on its way. -/
theorem placed_over_a_call :
    ¬∀ is, (Reactive.final step fresh is).commands = [] →
      OneAudioPath (Reactive.final step fresh is) := by
  intro h
  have hquiet : (Reactive.final step fresh (answered ++ placed)).commands = [] := by
    decide +kernel
  have hsole := (h _ hquiet).sole (.leg "a") (.leg "b") (by decide +kernel) (by decide +kernel)
  exact absurd hsole (by decide)

end Softphone
