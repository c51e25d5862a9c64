/-
**Placements and their INVITEs.**

A call is placed by the server: it returns a session and rings this phone with an INVITE that
carries it, and the core is to answer that INVITE on its own and to make the chip of the placement
the call's.  It knows the session from the answer to its request on, until the placement is
answered, hung up, fails, runs out of time or goes with the client; of all these only hanging up
leaves a note of the session behind.  An INVITE that comes before the answer, or after one of the
other ends, rings like a customer's.

The time of a placement starts to run when the phone is registered; a screen that goes before takes
the waiting with it, and the chip stays.

Main result:

* `Softphone.placement_rings` — the INVITE of a placement that has run out of time rings.
-/

import Texturion.SoftphoneWiring

namespace Softphone

/-! ### What is to hold -/

structure KeptAt (p : Phone) (session : String) : Prop where
  /-- An INVITE of a placement is answered with its chip, or ended. -/
  answered : ∀ fate, (session, fate) ∈ p.invites → session ∈ p.returned →
    fate = .reconciled ∨ fate = .declined
  /-- What is to be ended is on the screen no more. -/
  gone : session ∈ p.cancelledPlacements → hasCall p.state (.placement session) = false
  /-- A chip goes by itself: registration comes to one end or the other, and time runs out. -/
  leaves : hasCall p.state (.placement session) = true →
    ∀ outcome ∈ [Input.registered session, Input.registrationFailed session],
      hasCall (Reactive.final step p [outcome, .placementTimeout session]).state
        (.placement session) = false

def PlacementsKept (p : Phone) : Prop := ∀ session, KeptAt p session

/-- The INVITE of a placement comes while the core knows of the placement, and the screen that
places a call stays until the phone is registered or the placement is over. -/
def keepsPlacements (p : Phone) : Input → Prop
  | .invite i => p.sdk i.callId = none → ∀ session, i.headerSession = some session →
      session ∈ p.returned → isPending p session = true ∨ session ∈ p.cancelledPlacements
  | .authorized (some session) _ => places p (some session) = true →
      ∀ fate, (session, fate) ∉ p.invites
  | .registrationCancelled session => session ∈ p.registering → isPending p session = false
  | _ => True

/-! ### The notes of a session -/

structure LedgerAt (p : Phone) (session : String) : Prop where
  shown : isPending p session = true ↔ hasCall p.state (.placement session) = true
  waits : isPending p session = true → session ∈ p.returned
  registers : session ∈ p.registering → session ∈ p.returned
  cancelled : session ∈ p.cancelledPlacements → session ∈ p.returned ∧ isPending p session = false
  fated : ∀ fate, (session, fate) ∈ p.invites → fate = .reconciled ∨ fate = .declined →
    session ∈ p.returned
  once : p.registering.count session ≤ 1
  unarmed : session ∈ p.registering → isArmed p session = false

def Ledger (p : Phone) : Prop := ∀ session, LedgerAt p session

/-- What is left to say of a session whose notes are in order. -/
structure AccountedAt (p : Phone) (session : String) : Prop where
  answered : ∀ fate, (session, fate) ∈ p.invites → session ∈ p.returned →
    fate = .reconciled ∨ fate = .declined
  leaves : isPending p session = true → session ∈ p.registering ∨ isArmed p session = true

/-- A step that leaves a session alone. -/
structure Untouched (p q : Phone) (session : String) : Prop where
  pending : isPending q session = isPending p session
  armed : isArmed q session = isArmed p session
  registering : q.registering.count session = p.registering.count session
  cancelled : session ∈ q.cancelledPlacements ↔ session ∈ p.cancelledPlacements
  returned : session ∈ q.returned ↔ session ∈ p.returned
  invites : ∀ fate, (session, fate) ∈ q.invites ↔ (session, fate) ∈ p.invites
  chip : hasCall q.state (.placement session) = hasCall p.state (.placement session)

section

variable {p q r : Phone} {session : String} {id : CallId}

theorem Untouched.mem_registering (h : Untouched p q session) :
    session ∈ q.registering ↔ session ∈ p.registering := by
  rw [← List.count_pos_iff, ← List.count_pos_iff, h.registering]

theorem LedgerAt.of_untouched (hl : LedgerAt p session) (h : Untouched p q session) :
    LedgerAt q session where
  shown := by rw [h.pending, h.chip, hl.shown]
  waits hq := h.returned.2 (hl.waits (h.pending ▸ hq))
  registers hq := h.returned.2 (hl.registers (h.mem_registering.1 hq))
  cancelled hq := by
    obtain ⟨hreturned, hpending⟩ := hl.cancelled (h.cancelled.1 hq)
    exact ⟨h.returned.2 hreturned, h.pending.trans hpending⟩
  fated fate hq hfate := h.returned.2 (hl.fated fate ((h.invites fate).1 hq) hfate)
  once := h.registering.symm ▸ hl.once
  unarmed hq := h.armed.trans (hl.unarmed (h.mem_registering.1 hq))

theorem AccountedAt.of_untouched (ha : AccountedAt p session) (h : Untouched p q session) :
    AccountedAt q session where
  answered fate hq hreturned := ha.answered fate ((h.invites fate).1 hq) (h.returned.1 hreturned)
  leaves hq := by
    rw [h.mem_registering, h.armed]
    exact ha.leaves (h.pending ▸ hq)

/-! ### The ways a chip goes -/

theorem isPending_iff : isPending p session = true ↔
    ∃ w ∈ p.pendingPlacements, w.session = session := by
  simp [isPending]

theorem isArmed_iff : isArmed p session = true ↔
    ∃ w ∈ p.pendingPlacements, w.session = session ∧ w.timer = true := by
  simp [isArmed]

theorem isPending_of_isArmed (h : isArmed p session = true) : isPending p session = true := by
  obtain ⟨w, hw, hsession, -⟩ := isArmed_iff.1 h
  exact isPending_iff.2 ⟨w, hw, hsession⟩

/-- After its time has run out, a placement is on the screen only if no time was running. -/
theorem hasCall_placementTimeout :
    hasCall (placementTimeout p session).state (.placement session) = true ↔
      hasCall p.state (.placement session) = true ∧ isArmed p session = false := by
  unfold placementTimeout
  by_cases harmed : isArmed p session = true
  · rw [if_pos harmed]
    simp only [placementFailed, hasCall_dropped, ne_eq, not_true_eq_false, and_false, harmed,
      Bool.true_eq_false]
  · rw [if_neg harmed]
    simp [harmed]

theorem isArmed_registered (h : session ∈ p.registering) :
    isArmed (registered p session) session = isPending p session := by
  rw [Bool.eq_iff_iff, isPending_iff]
  simp only [registered, h, if_true, isArmed, List.any_map, List.any_eq_true, Function.comp_apply]
  refine exists_congr fun w => and_congr_right fun _ => ?_
  by_cases hw : w.session = session
  · simp [hw]
  · simp [hw]

theorem keptAt_iff (hl : LedgerAt p session) : KeptAt p session ↔ AccountedAt p session := by
  constructor
  · intro hk
    refine ⟨hk.answered, fun hpending => or_iff_not_imp_left.2 fun hregistering => ?_⟩
    -- nothing is registering, so that only time can take the chip off
    have hshown := hl.shown.1 hpending
    have hleft := hk.leaves hshown (.registered session) (List.mem_cons_self ..)
    have hsame : registered p session = p := by simp [registered, hregistering]
    by_contra harmed
    have hstays := hasCall_placementTimeout.2 ⟨hshown, by simpa using harmed⟩
    change hasCall (placementTimeout (registered p session) session).state _ = false at hleft
    rw [hsame, hstays] at hleft
    cases hleft
  · intro ha
    refine
      { answered := ha.answered
        gone := fun h => ?_
        leaves := fun hshown outcome houtcome => ?_ }
    · have hpending := (hl.cancelled h).2
      exact Bool.eq_false_iff.2 fun hshown =>
        absurd ((hl.shown.2 hshown).symm.trans hpending) (by decide)
    · have hpending := hl.shown.2 hshown
      refine Bool.eq_false_iff.2 fun hleft => ?_
      rcases List.mem_cons.1 houtcome with rfl | houtcome
      · obtain ⟨-, harmed⟩ := hasCall_placementTimeout.1 hleft
        change isArmed (registered p session) session = false at harmed
        by_cases hregistering : session ∈ p.registering
        · rw [isArmed_registered hregistering, hpending] at harmed
          cases harmed
        · have hsame : registered p session = p := by simp [registered, hregistering]
          rw [hsame] at harmed
          exact absurd (((ha.leaves hpending).resolve_left hregistering).symm.trans harmed)
            (by decide)
      · obtain rfl := List.mem_singleton.1 houtcome
        obtain ⟨hshown', harmed⟩ := hasCall_placementTimeout.1 hleft
        change hasCall (registrationFailed p session).state _ = true at hshown'
        change isArmed (registrationFailed p session) session = false at harmed
        by_cases hregistering : session ∈ p.registering
        · simp only [registrationFailed, hregistering, if_true, dismissed, hasCall_dropped, ne_eq,
            not_true_eq_false, and_false] at hshown'
        · have hsame : registrationFailed p session = p := by
            simp [registrationFailed, hregistering]
          rw [hsame] at harmed
          exact absurd (((ha.leaves hpending).resolve_left hregistering).symm.trans harmed)
            (by decide)

/-! ### Steps that are about other things -/

/-- What the core notes of placements, and what is recorded of them. -/
def books (p : Phone) :
    List PendingPlacement × List String × List String × List String × List (String × Fate) :=
  (p.pendingPlacements, p.registering, p.cancelledPlacements, p.returned, p.invites)

/-- A step that writes nothing into the books and takes no chip. -/
structure Elsewhere (p q : Phone) : Prop where
  books : books q = books p
  chips : ∀ session, hasCall q.state (.placement session) = hasCall p.state (.placement session)

theorem Elsewhere.untouched (h : Elsewhere p q) (session : String) : Untouched p q session := by
  obtain ⟨hpending, hregistering, hcancelled, hreturned, hinvites⟩ :
      q.pendingPlacements = p.pendingPlacements ∧ q.registering = p.registering ∧
      q.cancelledPlacements = p.cancelledPlacements ∧ q.returned = p.returned ∧
      q.invites = p.invites := by simpa [Softphone.books] using h.books
  exact
    { pending := by rw [isPending, hpending, isPending]
      armed := by rw [isArmed, hpending, isArmed]
      registering := by rw [hregistering]
      cancelled := by rw [hcancelled]
      returned := by rw [hreturned]
      invites := fun fate => by rw [hinvites]
      chip := h.chips session }

theorem Elsewhere.refl (p : Phone) : Elsewhere p p := ⟨rfl, fun _ => rfl⟩

theorem Elsewhere.trans (h : Elsewhere p q) (h' : Elsewhere q r) : Elsewhere p r :=
  ⟨h'.books.trans h.books, fun session => (h'.chips session).trans (h.chips session)⟩

theorem Elsewhere.of_state (hbooks : Softphone.books q = Softphone.books p)
    (hstate : q.state = p.state) : Elsewhere p q :=
  ⟨hbooks, fun _ => by rw [hstate]⟩

theorem hasCall_sdkPhase_of_ne {s : SoftphoneSnapshot} {id id' : CallId} (hne : id ≠ id')
    (phase : CallPhase) : hasCall (sdkPhase s id' phase) id = hasCall s id := by
  rw [Bool.eq_iff_iff]
  refine ⟨hasCall_of_sdkPhase, fun h => ?_⟩
  obtain ⟨x, hx⟩ := hasCall_iff.1 h
  by_cases hactive : phase = .active
  · subst hactive
    by_cases hcall : hasCall s id' = true
    · rw [sdkPhase_active hcall, hasCall_iff]
      by_cases hx' : x = .active
      · exact ⟨.held, (shows_activate_of_ne hne).2 (.inr ⟨rfl, hx' ▸ hx⟩)⟩
      · exact ⟨x, (shows_activate_of_ne hne).2 (.inl ⟨hx, hx'⟩)⟩
    · rwa [sdkPhase_of_not_hasCall (by simpa using hcall)]
  · exact hasCall_iff.2 ⟨x, (shows_sdkPhase_of_ne hne hactive).2 hx⟩

theorem Wired.not_chip (hw : Wired p) (hsdk : p.sdk id ≠ none) (session : String) :
    CallId.placement session ≠ id :=
  fun h => hsdk ((hw id).chip session h.symm).1

theorem Elsewhere.ofSdkPhase (phase : CallPhase) (hbooks : Softphone.books q = Softphone.books p)
    (hid : ∀ session, CallId.placement session ≠ id)
    (hstate : q.state = sdkPhase p.state id phase) : Elsewhere p q :=
  ⟨hbooks, fun session => by rw [hstate, hasCall_sdkPhase_of_ne (hid session)]⟩

theorem Elsewhere.requestHold (p : Phone) (id : CallId) (hold : Bool) :
    Elsewhere p (requestHold p id hold) := by
  rcases requestHold_cases p id hold with h | ⟨-, -, h⟩
  · rw [h]
    exact .refl p
  · rw [h]
    exact .of_state rfl rfl

theorem Elsewhere.holdActive (p : Phone) (activeId : Option CallId) (id : CallId) :
    Elsewhere p (holdActive p activeId id) := by
  rcases holdActive_cases p activeId id with h | ⟨previousActive, -, -, h⟩
  · rw [h]
    exact .refl p
  · rw [h]
    exact .requestHold p previousActive true

theorem Elsewhere.released (p : Phone) (ids : List CallId) :
    Elsewhere p (ids.foldl releaseHeld p) := by
  obtain ⟨clocks, h⟩ := foldl_releaseHeld p ids
  rw [h]
  exact .of_state rfl rfl

theorem hasCall_foldl_silenced (ids : List CallId) (s : SoftphoneSnapshot) :
    hasCall (ids.foldl presentationSilenced s) id = hasCall s id := by
  rw [Bool.eq_iff_iff, hasCall_iff, hasCall_iff]
  exact exists_congr fun x => shows_foldl_silenced ids s x

theorem Elsewhere.applyRingingExit (p : Phone) (sessionId : String) :
    Elsewhere p (applyRingingExit p sessionId) := by
  obtain ⟨held, clocks, silenced, hint, -, h⟩ := applyRingingExit_eq p sessionId
  rw [h]
  exact ⟨rfl, fun session => hasCall_foldl_silenced silenced p.state⟩

theorem Elsewhere.presentIncoming (hw : Wired p) (hsdk : p.sdk id ≠ none)
    (hcall : hasCall p.state id = false) (number : String) (headerSession : Option String) :
    Elsewhere p (presentIncoming p id number headerSession) := by
  refine ⟨rfl, fun session => ?_⟩
  rw [Bool.eq_iff_iff]
  constructor
  · intro h
    exact (hasCall_incoming h).resolve_right fun h => hw.not_chip hsdk session h.symm
  · intro h
    obtain ⟨x, hx⟩ := hasCall_iff.1 h
    have hlive : x ≠ .ended := by
      rw [((hw _).chip session rfl).2 x hx]
      decide
    exact hasCall_iff.2 ⟨x, (shows_incoming hcall).2 (.inl ⟨hx, hlive⟩)⟩

theorem Elsewhere.promoteHeld (hw : Wired p) (id : CallId) : Elsewhere p (promoteHeld p id) := by
  unfold Softphone.promoteHeld
  split
  · exact Elsewhere.refl p
  · next held hfind =>
    have hheld := (isHeld_of_find hfind).1
    have hsdk : p.sdk id ≠ none := fun h =>
      absurd (hheld.symm.trans ((hw id).born h).2.1) (by decide)
    have hrest : Wired { p with heldInvites := p.heldInvites.filter (·.id != id) } := fun id' =>
      (hw id').of_less ⟨Iff.rfl, fun h => h, fun h => (isHeld_removed h).1, fun h => h,
        fun h => h, fun h => h⟩
    dsimp only
    split
    · exact .of_state rfl rfl
    · exact (Elsewhere.of_state (p := p) (q := { p with
        heldInvites := p.heldInvites.filter (·.id != id) }) rfl rfl).trans
        (.presentIncoming hrest hsdk ((hw id).apart hheld).1 _ _)

theorem Elsewhere.maybePromoteHeld (hw : Wired p) (endedRinging : Option CallSnapshot) :
    Elsewhere p (maybePromoteHeld p endedRinging) := by
  unfold Softphone.maybePromoteHeld
  split
  · exact Elsewhere.refl p
  · split
    · exact Elsewhere.refl p
    · split
      · exact Elsewhere.refl p
      · split
        · exact .promoteHeld hw _
        · exact .of_state rfl rfl

theorem Elsewhere.promotionVerdict (hw : Wired p) (id : CallId) (session : String)
    (state : Option String) : Elsewhere p (promotionVerdict p id session state) := by
  unfold Softphone.promotionVerdict
  split
  · dsimp only
    split
    · exact (Elsewhere.of_state (p := p) (q := { p with
        decisions := p.decisions.erase (id, session)
        leftRinging := p.leftRinging ++ [session] }) rfl rfl).trans (.released _ [id])
    · split
      · have hrest : Wired { p with decisions := p.decisions.erase (id, session) } :=
          hw.aside rfl rfl rfl rfl
        have haside : Elsewhere p { p with decisions := p.decisions.erase (id, session) } :=
          .of_state rfl rfl
        exact haside.trans (.promoteHeld hrest id)
      · exact .of_state rfl rfl
  · exact Elsewhere.refl p

theorem Elsewhere.dropRings (p : Phone) {ids : List CallId}
    (hids : ∀ id ∈ ids, ∀ session, CallId.placement session ≠ id) :
    Elsewhere p (ids.foldl dropRingingPresentation p) := by
  induction ids generalizing p with
  | nil => exact Elsewhere.refl p
  | cons id ids ih =>
    have hfirst : Elsewhere p (dropRingingPresentation p id) :=
      .ofSdkPhase .ended rfl (hids id (List.mem_cons_self ..)) rfl
    exact hfirst.trans (ih _ fun other h => hids other (List.mem_cons_of_mem _ h))

section

variable (hw : Wired p)
include hw

theorem Wired.not_chip_of_ringing (h : shows p.state id .ringing)
    (session : String) : CallId.placement session ≠ id :=
  fun hid => absurd (((hw id).chip session hid.symm).2 _ h) (by decide)

/-- **A report is about other things.** -/
theorem Elsewhere.report {phase : CallPhase} (hborn : p.sdk id ≠ none)
    (commands : List (CallId × Command)) :
    Elsewhere p (report { p with commands := commands } id phase) := by
  have hid := hw.not_chip hborn
  by_cases hended : phase = .ended
  · subst hended
    rw [report_ended]
    split
    · next hhandle =>
      cases hprev : callOf p.state id with
      | none =>
        rw [onPhase_of_not_hasCall (p := enters p id .ended (commands.filter (·.1 != id)))
          (by rw [hasCall_eq_isSome]; simp [enters, hprev])]
        exact .of_state rfl rfl
      | some prev =>
        rw [onPhase_ended (p := enters p id .ended (commands.filter (·.1 != id))) hprev]
        have hforgotten : Elsewhere p
            (forgotten (enters p id .ended (commands.filter (·.1 != id))) id) :=
          .ofSdkPhase .ended rfl hid rfl
        exact hforgotten.trans (.maybePromoteHeld (hw.forgotten hborn hhandle _) _)
    · exact (Elsewhere.of_state (p := p) (q := enters p id .ended (commands.filter (·.1 != id))) rfl
        rfl).trans (.released _ [id])
  · rw [report_other commands hended]
    split
    · by_cases hcall : hasCall p.state id = true
      · by_cases hactive : phase = .active
        · subst hactive
          rw [onPhase_active (p := enters p id .active commands) hcall]
          refine Elsewhere.trans ?_ (.holdActive _ _ _)
          exact .ofSdkPhase .active rfl hid (sdkPhase_active hcall).symm
        · rw [onPhase_other (p := enters p id phase commands) hcall hactive hended]
          exact .ofSdkPhase phase rfl hid rfl
      · have hcall : hasCall p.state id = false := by simpa using hcall
        rw [onPhase_of_not_hasCall (p := enters p id phase commands) hcall]
        exact .of_state rfl rfl
    · exact .of_state rfl rfl

theorem Elsewhere.obey (id : CallId) (c : Command) : Elsewhere p (obey p id c) := by
  unfold Softphone.obey
  split
  · dsimp only
    split
    · next hphase =>
      refine .report hw (fun h => ?_) _
      rw [h] at hphase
      cases hphase
    · exact .of_state rfl rfl
  · exact .refl p

theorem Elsewhere.connecting (id : CallId) : Elsewhere p (connecting p id) := by
  unfold Softphone.connecting
  split
  · next h =>
    refine Elsewhere.report hw (fun hnone => ?_) p.commands
    rw [hnone] at h
    exact h.elim nofun nofun
  · exact .refl p

theorem Elsewhere.repeats (id : CallId) : Elsewhere p (repeats p id) := by
  unfold Softphone.repeats
  split
  · exact .refl p
  · next phase hphase =>
    split
    · exact .refl p
    · exact Elsewhere.report hw (by simp [hphase]) p.commands

theorem Elsewhere.remoteEnd (id : CallId) : Elsewhere p (remoteEnd p id) := by
  unfold Softphone.remoteEnd
  split
  · exact .refl p
  · next phase hphase =>
    split
    · exact .refl p
    · exact Elsewhere.report hw (by simp [hphase]) p.commands

end

theorem Elsewhere.resolved (p : Phone) (id : CallId) (sessionId : String) :
    Elsewhere p (resolved p id sessionId) := by
  unfold Softphone.resolved
  split
  · split
    · exact .refl p
    · refine ⟨rfl, fun session => ?_⟩
      rw [Bool.eq_iff_iff, hasCall_iff, hasCall_iff]
      exact exists_congr fun x => shows_update fun _ => ⟨rfl, rfl⟩
  · exact .refl p

theorem Elsewhere.reapExpiredRings (hw : Wired p) : Elsewhere p (reapExpiredRings p) := by
  have hdropped : Elsewhere p ((expiredRings p).foldl dropRingingPresentation p) := by
    refine .dropRings p fun id hid => ?_
    obtain ⟨c, hc, rfl⟩ := List.mem_map.1 hid
    obtain ⟨hc, hphase⟩ := List.mem_filter.1 hc
    simp only [Bool.and_eq_true, beq_iff_eq] at hphase
    exact hw.not_chip_of_ringing ⟨c, hc, rfl, hphase.1.1⟩
  exact (hdropped.trans (.released _ _)).trans (.of_state rfl rfl)

theorem Elsewhere.answer (p : Phone) (id : CallId) : Elsewhere p (answer p id) := by
  unfold Softphone.answer
  split
  · exact .refl p
  · split
    · exact .refl p
    · split
      · exact .refl p
      · exact (Elsewhere.holdActive p p.state.activeId id).trans (.of_state rfl rfl)

theorem Elsewhere.toggleHold (p : Phone) (id : CallId) : Elsewhere p (toggleHold p id) := by
  unfold Softphone.toggleHold
  split
  · exact .refl p
  · split
    · exact (Elsewhere.holdActive p p.state.activeId id).trans (.requestHold _ _ _)
    · exact .requestHold p id true
    · exact .refl p

theorem Elsewhere.dropped (hbooks : Softphone.books q = Softphone.books p)
    (hstate : q.state = Softphone.dropped p.state id)
    (hid : ∀ session, id = .placement session → hasCall p.state id = false) : Elsewhere p q := by
  refine ⟨hbooks, fun session => ?_⟩
  rw [hstate, Bool.eq_iff_iff, hasCall_dropped]
  refine ⟨And.left, fun h => ⟨h, fun hchip => ?_⟩⟩
  rw [hchip, hid session hchip.symm] at h
  cases h

theorem Elsewhere.endOrDismiss (p : Phone) (id : CallId)
    (hid : ∀ session, id = .placement session → hasCall p.state id = false) :
    Elsewhere p (endOrDismiss p id) := by
  unfold Softphone.endOrDismiss
  split
  · exact .of_state rfl rfl
  · exact .dropped rfl rfl hid

theorem Elsewhere.dismiss (hw : Wired p) (id : CallId) : Elsewhere p (dismiss p id) := by
  unfold Softphone.dismiss
  split
  · exact .refl p
  · next call hcall =>
    split
    · next hended =>
      refine .dropped rfl rfl fun session hid => ?_
      -- a chip has not ended
      have hphase := ((hw id).chip session hid).2 _ (shows_of_callOf hcall)
      exact absurd (hphase.symm.trans hended) (by decide)
    · exact .refl p

/-! ### Steps on a placement -/

theorem Untouched.ended {other : String} (hne : session ≠ other)
    (hpending : q.pendingPlacements = p.pendingPlacements.filter (·.session != other))
    (hregistering : q.registering.count session = p.registering.count session)
    (hcancelled : session ∈ q.cancelledPlacements ↔ session ∈ p.cancelledPlacements)
    (hreturned : q.returned = p.returned)
    (hinvites : ∀ fate, (session, fate) ∈ q.invites ↔ (session, fate) ∈ p.invites)
    (hchip : hasCall q.state (.placement session) = hasCall p.state (.placement session)) :
    Untouched p q session where
  pending := by
    rw [Bool.eq_iff_iff, isPending_iff, isPending_iff, hpending]
    refine exists_congr fun w => ?_
    rw [List.mem_filter, and_assoc]
    refine and_congr_right fun _ => and_iff_right_of_imp ?_
    rintro rfl
    simpa using hne
  armed := by
    rw [Bool.eq_iff_iff, isArmed_iff, isArmed_iff, hpending]
    refine exists_congr fun w => ?_
    rw [List.mem_filter, and_assoc]
    refine and_congr_right fun _ => and_iff_right_of_imp ?_
    rintro ⟨rfl, -⟩
    simpa using hne
  registering := hregistering
  cancelled := hcancelled
  returned := by rw [hreturned]
  invites := hinvites
  chip := hchip

theorem isPending_ended
    (hpending : q.pendingPlacements = p.pendingPlacements.filter (·.session != session)) :
    isPending q session = false := by
  refine Bool.eq_false_iff.2 fun h => ?_
  obtain ⟨w, hw, hsession⟩ := isPending_iff.1 h
  rw [hpending] at hw
  exact absurd hsession (by simpa using (List.mem_filter.1 hw).2)

/-- A placement that has come to its end, with its chip: its notes are in order. -/
theorem LedgerAt.ended (hl : LedgerAt p session) (hnone : isPending q session = false)
    (hregistering : q.registering.count session ≤ p.registering.count session)
    (hcancelled : session ∈ q.cancelledPlacements → session ∈ p.returned)
    (hreturned : q.returned = p.returned)
    (hfated : ∀ fate, (session, fate) ∈ q.invites → fate = .reconciled ∨ fate = .declined →
      session ∈ p.returned)
    (hchip : hasCall q.state (.placement session) = false) : LedgerAt q session := by
  have hdown : session ∈ q.registering → session ∈ p.registering := by
    rw [← List.count_pos_iff, ← List.count_pos_iff]
    omega
  exact
    { shown := by simp only [hnone, hchip, Bool.false_eq_true]
      waits := fun h => absurd (h.symm.trans hnone) (by decide)
      registers := fun h => hreturned ▸ hl.registers (hdown h)
      cancelled := fun h => ⟨hreturned ▸ hcancelled h, hnone⟩
      fated := fun fate h hfate => hreturned ▸ hfated fate h hfate
      once := Nat.le_trans hregistering hl.once
      unarmed := fun _ => Bool.eq_false_iff.2 fun h =>
        absurd ((isPending_of_isArmed h).symm.trans hnone) (by decide) }

theorem hasCall_dropped_self (s : SoftphoneSnapshot) (id : CallId) :
    hasCall (dropped s id) id = false :=
  Bool.eq_false_iff.2 fun h => (hasCall_dropped.1 h).2 rfl

theorem hasCall_dropped_of_ne {s : SoftphoneSnapshot} {id id' : CallId} (h : id ≠ id') :
    hasCall (dropped s id') id = hasCall s id := by
  rw [Bool.eq_iff_iff, hasCall_dropped]
  exact and_iff_left h

theorem AccountedAt.ended (ha : AccountedAt p session) (hnone : isPending q session = false)
    (hreturned : q.returned = p.returned)
    (hinvites : ∀ fate, (session, fate) ∈ q.invites →
      (session, fate) ∈ p.invites ∨ fate = .reconciled ∨ fate = .declined) :
    AccountedAt q session where
  answered fate h hq := (hinvites fate h).elim
    (fun h => ha.answered fate h (hreturned ▸ hq)) (fun h => h)
  leaves h := absurd (h.symm.trans hnone) (by decide)

/-- A step that keeps the notes together, and the placements exactly under a condition. -/
structure Keeps (p q : Phone) (c : Prop) : Prop where
  ledger : Ledger q
  accounted : (∀ session, AccountedAt p session) → ((∀ session, AccountedAt q session) ↔ c)

theorem Keeps.congr {c c' : Prop} (h : Keeps p q c) (hc : c ↔ c') : Keeps p q c' :=
  ⟨h.ledger, fun ha => (h.accounted ha).trans hc⟩

theorem Keeps.elsewhere (hl : Ledger p) (h : Elsewhere p q) : Keeps p q True :=
  ⟨fun session => (hl session).of_untouched (h.untouched session),
    fun ha => iff_of_true (fun session => (ha session).of_untouched (h.untouched session)) trivial⟩

theorem Keeps.single (session : String) {c : Prop} (hl : Ledger p)
    (hothers : ∀ other, other ≠ session → Untouched p q other) (hledger : LedgerAt q session)
    (haccounted : AccountedAt p session → (AccountedAt q session ↔ c)) : Keeps p q c where
  ledger other := by
    by_cases h : other = session
    · exact h ▸ hledger
    · exact (hl other).of_untouched (hothers other h)
  accounted ha := by
    rw [← haccounted (ha session)]
    refine ⟨fun h => h session, fun h other => ?_⟩
    by_cases hother : other = session
    · exact hother ▸ h
    · exact (ha other).of_untouched (hothers other hother)

section

variable (hl : Ledger p)
include hl

theorem Keeps.ended
    (hpending : q.pendingPlacements = p.pendingPlacements.filter (·.session != session))
    (hregistering : q.registering = p.registering ∨
      q.registering = p.registering.erase session)
    (hcancelled : q.cancelledPlacements = p.cancelledPlacements ∨
      (q.cancelledPlacements = p.cancelledPlacements ++ [session] ∧ session ∈ p.returned))
    (hreturned : q.returned = p.returned) (hinvites : q.invites = p.invites)
    (hstate : q.state = dropped p.state (.placement session)) : Keeps p q True := by
  have hnone := isPending_ended hpending
  refine Keeps.single session hl (fun other hother => ?_) ?_ fun ha =>
    iff_of_true (ha.ended hnone hreturned fun fate h => .inl (hinvites ▸ h)) trivial
  · refine Untouched.ended hother hpending ?_ ?_ hreturned (fun fate => by rw [hinvites]) ?_
    · rcases hregistering with h | h
      · rw [h]
      · rw [h, List.count_erase_of_ne hother]
    · rcases hcancelled with h | ⟨h, -⟩
      · rw [h]
      · rw [h, List.mem_append, List.mem_singleton]
        exact or_iff_left hother
    · rw [hstate, hasCall_dropped_of_ne fun h => hother (CallId.placement.inj h)]
  · refine (hl session).ended hnone ?_ (fun h => ?_) hreturned
      (fun fate h => (hl session).fated fate (hinvites ▸ h)) ?_
    · rcases hregistering with h | h
      · exact Nat.le_of_eq (by rw [h])
      · rw [h]
        exact List.erase_sublist.count_le session
    · rcases hcancelled with h' | ⟨-, h'⟩
      · exact ((hl session).cancelled (h' ▸ h)).1
      · exact h'
    · rw [hstate]
      exact hasCall_dropped_self ..

theorem Keeps.registrationFailed (session : String) :
    Keeps p (registrationFailed p session) True := by
  unfold Softphone.registrationFailed
  split
  · exact .ended hl rfl (.inr rfl) (.inl rfl) rfl rfl rfl
  · exact .elsewhere hl (.refl p)

theorem Keeps.placementTimeout (session : String) : Keeps p (placementTimeout p session) True := by
  unfold Softphone.placementTimeout
  split
  · exact .ended hl rfl (.inl rfl) (.inl rfl) rfl rfl rfl
  · exact .elsewhere hl (.refl p)

theorem Keeps.hangup (id : CallId) : Keeps p (hangup p id) True := by
  unfold Softphone.hangup
  cases id with
  | leg id => exact .elsewhere hl (.endOrDismiss p _ fun _ h => nomatch h)
  | placement session =>
    dsimp only [placementSession]
    split
    · next hpending =>
      exact .ended hl rfl (.inl rfl) (.inr ⟨rfl, (hl session).waits hpending⟩) rfl rfl rfl
    · next hpending =>
      -- nobody waits for it, so that there is no chip
      refine .elsewhere hl (.endOrDismiss p _ fun _ _ => Bool.eq_false_iff.2 fun h => ?_)
      exact hpending ((hl session).shown.2 h)

theorem Keeps.registered (session : String) : Keeps p (registered p session) True := by
  by_cases hregistering : session ∈ p.registering
  · have hpendings : ∀ other, isPending (Softphone.registered p session) other =
        isPending p other := by
      intro other
      simp only [isPending, Softphone.registered, hregistering, if_true, List.any_map]
      congr 1
      funext w
      by_cases hw : w.session = session <;> simp [hw]
    have hcount : ∀ other, (Softphone.registered p session).registering.count other =
        (p.registering.erase session).count other := fun other => by
      simp only [Softphone.registered, hregistering, if_true]
    have hgone : session ∉ (Softphone.registered p session).registering := by
      have honce := (hl session).once
      rw [← List.count_eq_zero, hcount, List.count_erase_self]
      omega
    have hrest : (Softphone.registered p session).cancelledPlacements = p.cancelledPlacements ∧
        (Softphone.registered p session).returned = p.returned ∧
        (Softphone.registered p session).invites = p.invites ∧
        (Softphone.registered p session).state = p.state := by
      simp only [Softphone.registered, hregistering, if_true, and_self]
    obtain ⟨hcancelled, hreturned, hinvites, hstate⟩ := hrest
    refine Keeps.single session hl (fun other hother => ?_) ?_ fun ha =>
      iff_of_true ⟨?_, fun h => ?_⟩ trivial
    · exact
        { pending := hpendings other
          armed := by
            simp only [isArmed, Softphone.registered, hregistering, if_true, List.any_map]
            congr 1
            funext w
            by_cases hw : w.session = session
            · simp [hw, Ne.symm hother]
            · simp [hw]
          registering := by rw [hcount, List.count_erase_of_ne hother]
          cancelled := by rw [hcancelled]
          returned := by rw [hreturned]
          invites := fun fate => by rw [hinvites]
          chip := by rw [hstate] }
    · exact
        { shown := by rw [hpendings, hstate, (hl session).shown]
          waits := fun h => hreturned ▸ (hl session).waits (hpendings session ▸ h)
          registers := fun h => absurd h hgone
          cancelled := fun h => by
            rw [hpendings, hreturned]
            exact (hl session).cancelled (hcancelled ▸ h)
          fated := fun fate h hfate => hreturned ▸ (hl session).fated fate (hinvites ▸ h) hfate
          once := by
            rw [List.count_eq_zero.2 hgone]
            exact Nat.zero_le 1
          unarmed := fun h => absurd h hgone }
    · intro fate h hq
      exact ha.answered fate (hinvites ▸ h) (hreturned ▸ hq)
    · rw [hpendings] at h
      exact .inr ((isArmed_registered hregistering).trans h)
  · have hsame : Softphone.registered p session = p := by
      simp [Softphone.registered, hregistering]
    rw [hsame]
    exact .elsewhere hl (.refl p)

/-- The screen goes before the phone is registered: a placement that waits is left without a
time. -/
theorem Keeps.registrationCancelled (session : String) :
    Keeps p (registrationCancelled p session)
      (keepsPlacements p (.registrationCancelled session)) := by
  by_cases hregistering : session ∈ p.registering
  · have hgone : session ∉ p.registering.erase session := by
      have honce := (hl session).once
      rw [← List.count_eq_zero, List.count_erase_self]
      omega
    refine Keeps.single session hl (fun other hother => ?_) ?_ fun ha => ?_
    · exact ⟨rfl, rfl, List.count_erase_of_ne hother, Iff.rfl, Iff.rfl, fun _ => Iff.rfl, rfl⟩
    · exact
        { shown := (hl session).shown
          waits := (hl session).waits
          registers := fun h => absurd h hgone
          cancelled := (hl session).cancelled
          fated := (hl session).fated
          once := Nat.le_trans (List.erase_sublist.count_le session) (hl session).once
          unarmed := fun h => absurd h hgone }
    · constructor
      · intro ha' _
        refine Bool.eq_false_iff.2 fun hpending => ?_
        have harmed := (ha'.leaves hpending).resolve_left hgone
        exact absurd (harmed.symm.trans ((hl session).unarmed hregistering)) (by decide)
      · intro hc
        exact ⟨ha.answered, fun h => absurd (h.symm.trans (hc hregistering)) (by decide)⟩
  · have hsame : Softphone.registrationCancelled p session = p := by
      simp [Softphone.registrationCancelled, List.erase_of_not_mem hregistering]
    rw [hsame]
    exact (Keeps.elsewhere hl (.refl p)).congr
      (iff_of_true trivial fun h => absurd h hregistering)

end

/-- The server has answered: the placement is a new one, and none of its INVITEs may have come. -/
theorem Keeps.authorized (hw : Wired p) (hl : Ledger p) (session : Option String)
    (number : String) :
    Keeps p (authorized p session number) (keepsPlacements p (.authorized session number)) := by
  cases hplaces : places p session with
  | false =>
    obtain ⟨authorizing, h⟩ := authorized_of_not_places number hplaces
    rw [h]
    have haside : Elsewhere p { p with authorizing := authorizing } := .of_state rfl rfl
    refine (Keeps.elsewhere hl haside).congr (iff_of_true trivial ?_)
    cases session with
    | none => trivial
    | some session => exact fun h => absurd (hplaces.symm.trans h) (by decide)
  | true =>
    obtain ⟨session, rfl⟩ : ∃ s, session = some s := by
      cases session with
      | none => cases hplaces
      | some s => exact ⟨s, rfl⟩
    have hnew : session ∉ p.returned := by
      simp only [places, Bool.and_eq_true] at hplaces
      simpa using hplaces.1.2
    have hpending : isPending p session = false :=
      Bool.eq_false_iff.2 fun h => hnew ((hl session).waits h)
    have hcount : p.registering.count session = 0 :=
      List.count_eq_zero.2 fun h => hnew ((hl session).registers h)
    have hunarmed : isArmed p session = false :=
      Bool.eq_false_iff.2 fun h => hnew ((hl session).waits (isPending_of_isArmed h))
    -- all other chips stay, and the new one comes
    have hchips : ∀ other, hasCall (placing p.state (chip session number)) (.placement other) =
        true ↔ hasCall p.state (.placement other) = true ∨ session = other := by
      intro other
      rw [hasCall_iff, hasCall_iff]
      constructor
      · rintro ⟨x, hx⟩
        exact (shows_placing.1 hx).imp (fun h => ⟨x, h.1⟩) fun h =>
          CallId.placement.inj h.1
      · rintro (⟨x, hx⟩ | rfl)
        · have hlive : x ≠ .ended := by
            rw [((hw _).chip other rfl).2 x hx]
            decide
          exact ⟨x, shows_placing.2 (.inl ⟨hx, hlive⟩)⟩
        · exact ⟨.connecting, shows_placing.2 (.inr ⟨rfl, rfl⟩)⟩
    rw [authorized_of_places hplaces]
    refine Keeps.single session hl (fun other hother => ?_) ?_ fun ha => ?_
    · exact
        { pending := by simp [isPending, Ne.symm hother]
          armed := by simp [isArmed]
          registering := by simp [List.count_append, Ne.symm hother]
          cancelled := Iff.rfl
          returned := by simp [hother]
          invites := fun _ => Iff.rfl
          chip := by
            rw [Bool.eq_iff_iff, hchips]
            exact or_iff_left (Ne.symm hother) }
    · exact
        { shown := iff_of_true (by simp [isPending]) ((hchips session).2 (.inr rfl))
          waits := fun _ => by simp
          registers := fun _ => by simp
          cancelled := fun h => absurd ((hl session).cancelled h).1 hnew
          fated := fun fate h hfate => absurd ((hl session).fated fate h hfate) hnew
          once := by simp [List.count_append, hcount]
          unarmed := fun _ => by simpa [isArmed] using hunarmed }
    · constructor
      · intro ha' _ fate h
        exact hnew ((hl session).fated fate h (ha'.answered fate h (by simp)))
      · intro hc
        exact ⟨fun fate h => absurd h (hc hplaces fate), fun _ => .inl (by simp)⟩

/-! ### The client dies -/

theorem foldl_failPlacement (p : Phone) (failed : List PendingPlacement) :
    let q := failed.foldl failPlacement p
    (q.registering = p.registering ∧ q.cancelledPlacements = p.cancelledPlacements ∧
      q.returned = p.returned ∧ q.invites = p.invites) ∧
    ∀ session,
      (isPending q session = true ↔
        isPending p session = true ∧ ∀ w ∈ failed, w.session ≠ session) ∧
      (hasCall q.state (.placement session) = true ↔
        hasCall p.state (.placement session) = true ∧ ∀ w ∈ failed, w.session ≠ session) := by
  induction failed generalizing p with
  | nil => simp
  | cons w failed ih =>
    obtain ⟨hbooks, hrest⟩ := ih (failPlacement p w)
    refine ⟨hbooks, fun session => ?_⟩
    obtain ⟨hpending, hchip⟩ := hrest session
    have hfirst : isPending (failPlacement p w) session = true ↔
        isPending p session = true ∧ w.session ≠ session := by
      by_cases hw : w.session = session
      · subst hw
        refine iff_of_false (Bool.eq_false_iff.1 (isPending_ended rfl)) fun h => h.2 rfl
      · rw [(Untouched.ended (p := p) (q := failPlacement p w) (Ne.symm hw) rfl rfl Iff.rfl rfl
          (fun _ => Iff.rfl) (hasCall_dropped_of_ne fun h =>
            hw (CallId.placement.inj h).symm)).pending]
        exact (and_iff_left hw).symm
    have hchip' : hasCall (failPlacement p w).state (.placement session) = true ↔
        hasCall p.state (.placement session) = true ∧ w.session ≠ session := by
      refine hasCall_dropped.trans (and_congr_right fun _ => not_congr ?_)
      exact ⟨fun h => (CallId.placement.inj h).symm, fun h => h ▸ rfl⟩
    simp only [List.foldl_cons, List.forall_mem_cons]
    exact ⟨hpending.trans (by rw [hfirst, and_assoc]), hchip.trans (by rw [hchip', and_assoc])⟩

theorem Keeps.clientDeath (hw : Wired p) (hl : Ledger p) : Keeps p (reapOnClientDeath p) True := by
  have hdropped : Elsewhere p
      (((p.state.calls.filter (·.phase == .ringing)).map (·.id)).foldl
        dropRingingPresentation p) := by
    refine .dropRings p fun id hid => ?_
    obtain ⟨c, hc, rfl⟩ := List.mem_map.1 hid
    obtain ⟨hc, hphase⟩ := List.mem_filter.1 hc
    exact hw.not_chip_of_ringing ⟨c, hc, rfl, by simpa using hphase⟩
  have hreleased := hdropped.trans (.released _
    ((((p.state.calls.filter (·.phase == .ringing)).map (·.id)).foldl
      dropRingingPresentation p).heldInvites.map (·.id)))
  unfold reapOnClientDeath
  dsimp only
  generalize (List.foldl releaseHeld _ _) = q at hreleased ⊢
  obtain ⟨⟨hregistering, hcancelled, hreturned, hinvites⟩, hrest⟩ :=
    foldl_failPlacement q q.pendingPlacements
  -- no placement waits any more
  have hnone : ∀ session,
      isPending (q.pendingPlacements.foldl failPlacement q) session = false := by
    intro session
    refine Bool.eq_false_iff.2 fun h => ?_
    obtain ⟨h, hall⟩ := (hrest session).1.1 h
    obtain ⟨w, hmem, hsession⟩ := isPending_iff.1 h
    exact hall w hmem hsession
  refine ⟨fun session => ?_, fun ha => iff_of_true (fun session => ?_) trivial⟩
  · have hlq := (hl session).of_untouched (hreleased.untouched session)
    refine hlq.ended (hnone session) (Nat.le_of_eq (by rw [hregistering])) (fun h => ?_) hreturned
      (fun fate h => hlq.fated fate (hinvites ▸ h)) (Bool.eq_false_iff.2 fun h => ?_)
    · exact (hlq.cancelled (hcancelled ▸ h)).1
    · obtain ⟨h, hall⟩ := (hrest session).2.1 h
      obtain ⟨w, hmem, hsession⟩ := isPending_iff.1 (hlq.shown.2 h)
      exact hall w hmem hsession
  · have haq := (ha session).of_untouched (hreleased.untouched session)
    exact haq.ended (hnone session) hreturned fun fate h => .inl (hinvites ▸ h)

/-! ### INVITEs -/

/-- An INVITE rings, or is held: that is well unless it is a placement's. -/
theorem Keeps.rang (hl : Ledger p) (h : Elsewhere p q) {fate : Fate}
    (hfate : ¬(fate = .reconciled ∨ fate = .declined)) :
    Keeps p (record q (some session) fate) (session ∉ p.returned) := by
  have hother : ∀ other, other ≠ session → Untouched p (record q (some session) fate) other := by
    intro other hother
    have hq := h.untouched other
    exact ⟨hq.pending, hq.armed, hq.registering, hq.cancelled, hq.returned,
      fun f => by simpa [record, hother] using hq.invites f, hq.chip⟩
  have hself := h.untouched session
  have hinvites : ∀ f, (session, f) ∈ (record q (some session) fate).invites ↔
      (session, f) ∈ p.invites ∨ f = fate := by
    intro f
    rw [← hself.invites f]
    simp [record]
  have hlq := (hl session).of_untouched hself
  refine Keeps.single session hl hother ?_ fun ha => ?_
  · exact
      { shown := hlq.shown
        waits := hlq.waits
        registers := hlq.registers
        cancelled := hlq.cancelled
        fated := fun f hf hkind => by
          rcases (hinvites f).1 hf with hf | rfl
          · exact hself.returned.2 ((hl session).fated f hf hkind)
          · exact absurd hkind hfate
        once := hlq.once
        unarmed := hlq.unarmed }
  · constructor
    · intro ha' hreturned
      exact hfate (ha'.answered fate ((hinvites fate).2 (.inr rfl)) (hself.returned.2 hreturned))
    · intro hnew
      exact ⟨fun f _ hreturned => absurd (hself.returned.1 hreturned) hnew,
        (ha.of_untouched hself).leaves⟩

theorem Keeps.reconciled (hw : Wired p) (hl : Ledger p) (hsdk : p.sdk id ≠ none)
    (hpending : isPending p session = true) :
    Keeps p (record (acceptPlacementOpLeg p id session) (some session) .reconciled) True := by
  have hshown := (hl session).shown.1 hpending
  have hnone : isPending (acceptPlacementOpLeg p id session) session = false := isPending_ended rfl
  have hchips : ∀ other, hasCall (placementConnected p.state (.placement session) id session)
      (.placement other) = true ↔
        hasCall p.state (.placement other) = true ∧ other ≠ session := by
    intro other
    rw [hasCall_iff, hasCall_iff]
    constructor
    · rintro ⟨x, hx⟩
      rcases (shows_placementConnected hshown).1 hx with ⟨hx, hne⟩ | ⟨hid, -⟩
      · exact ⟨⟨x, hx⟩, fun h => hne (h ▸ rfl)⟩
      · exact absurd hid.symm (hw.not_chip hsdk other)
    · rintro ⟨⟨x, hx⟩, hne⟩
      exact ⟨x, (shows_placementConnected hshown).2
        (.inl ⟨hx, fun h => hne (CallId.placement.inj h)⟩)⟩
  refine Keeps.single session hl (fun other hother => ?_) ?_ fun ha =>
    iff_of_true (ha.ended hnone rfl fun fate h => ?_) trivial
  · refine Untouched.ended hother rfl rfl Iff.rfl rfl (fun fate => ?_) ?_
    · simp [record, acceptPlacementOpLeg, tell, hother]
    · rw [Bool.eq_iff_iff]
      exact (hchips other).trans (and_iff_left hother)
  · refine (hl session).ended hnone (Nat.le_refl _) (fun h => ?_) rfl
      (fun fate h hfate => (hl session).waits hpending)
      (Bool.eq_false_iff.2 fun h => ((hchips session).1 h).2 rfl)
    exact ((hl session).cancelled h).1
  · exact (List.mem_append.1 h).imp_right fun h => .inl (by simpa using h)

theorem Keeps.declined (hl : Ledger p) (hcancelled : session ∈ p.cancelledPlacements) :
    Keeps p
      (record (tell { p with cancelledPlacements := p.cancelledPlacements.filter (· != session) }
        id .endCall) (some session) .declined) True := by
  obtain ⟨hreturned, hpending⟩ := (hl session).cancelled hcancelled
  refine Keeps.single session hl (fun other hother => ?_) ?_ fun ha =>
    iff_of_true ⟨fun fate h hq => ?_, ha.leaves⟩ trivial
  · exact
      { pending := rfl
        armed := rfl
        registering := rfl
        cancelled := by simp [record, tell, hother]
        returned := Iff.rfl
        invites := fun fate => by simp [record, tell, hother]
        chip := rfl }
  · exact
      { shown := (hl session).shown
        waits := (hl session).waits
        registers := (hl session).registers
        cancelled := fun h => by simp [record, tell] at h
        fated := fun _ _ _ => hreturned
        once := (hl session).once
        unarmed := (hl session).unarmed }
  · rcases List.mem_append.1 h with h | h
    · exact ha.answered fate h hq
    · exact .inr (by simpa using h)

theorem Keeps.after {c : Prop} (h : Elsewhere p q) (hk : Keeps q r c) : Keeps p r c :=
  ⟨hk.ledger, fun ha => hk.accounted fun session => (ha session).of_untouched (h.untouched session)⟩

theorem Elsewhere.rings (hw : Wired p) {i : Invite} (hsdk : p.sdk i.callId ≠ none)
    (hcall : hasCall p.state i.callId = false) :
    ∃ q fate, Elsewhere p q ∧ ¬(fate = Fate.reconciled ∨ fate = Fate.declined) ∧
      ringIn p i = record q i.headerSession fate := by
  unfold ringIn
  split
  · exact ⟨holdInvite p i.callId i.number .duplicate i.headerSession, .held, .of_state rfl rfl,
      by decide, rfl⟩
  · split
    · exact ⟨holdInvite p i.callId i.number .capacity i.headerSession, .held, .of_state rfl rfl,
        by decide, rfl⟩
    · exact ⟨_, .presented, .presentIncoming hw hsdk hcall _ _, by decide, rfl⟩

theorem Keeps.onIncoming (hw : Wired p) (hl : Ledger p) {i : Invite}
    (hsdk : p.sdk i.callId ≠ none) (hheld : isHeld p i.callId = false)
    (hcall : hasCall p.state i.callId = false) :
    Keeps p (onIncoming p i) (∀ session, i.headerSession = some session →
      session ∈ p.returned → isPending p session = true ∨ session ∈ p.cancelledPlacements) := by
  obtain ⟨q, fate, helsewhere, hfate, hrings⟩ := Elsewhere.rings hw hsdk hcall
  unfold Softphone.onIncoming
  rw [if_neg (by simp [hcall, hheld])]
  cases hheader : i.headerSession with
  | none =>
    dsimp only
    rw [hrings, hheader]
    exact (Keeps.elsewhere hl helsewhere).congr (iff_of_true trivial fun _ h => nomatch h)
  | some session =>
    dsimp only
    by_cases hpending : isPending p session = true
    · rw [if_pos hpending, if_pos ((hl session).shown.1 hpending)]
      refine (Keeps.reconciled hw hl hsdk hpending).congr (iff_of_true trivial ?_)
      rintro _ ⟨⟩ _
      exact .inl hpending
    · rw [if_neg hpending]
      by_cases hcancelled : session ∈ p.cancelledPlacements
      · rw [if_pos hcancelled]
        refine (Keeps.declined hl hcancelled).congr (iff_of_true trivial ?_)
        rintro _ ⟨⟩ _
        exact .inr hcancelled
      · rw [if_neg hcancelled, hrings, hheader]
        refine (Keeps.rang hl helsewhere hfate).congr ⟨?_, fun h hreturned => ?_⟩
        · rintro hnew _ ⟨⟩ hreturned
          exact absurd hreturned hnew
        · exact (h session rfl hreturned).elim hpending hcancelled

theorem Keeps.invited (hw : Wired p) (hl : Ledger p) (i : Invite) :
    Keeps p (invited p i) (keepsPlacements p (.invite i)) := by
  unfold Softphone.invited
  split
  · next hsdk =>
    obtain ⟨-, hheld, hcall⟩ := (hw i.callId).born hsdk
    have hcall : hasCall p.state i.callId = false :=
      Bool.eq_false_iff.2 fun h => (hcall h).elim fun _ h => nomatch h
    have hleg : Wired { p with sdk := Function.update p.sdk i.callId (some .ringing) } := by
      refine hw.came (fun _ h => ?_) _
      exact nomatch h
    have haside : Elsewhere p
        { p with sdk := Function.update p.sdk i.callId (some .ringing) } := .of_state rfl rfl
    have hledger : Ledger { p with sdk := Function.update p.sdk i.callId (some .ringing) } :=
      fun session => (hl session).of_untouched (haside.untouched session)
    have hkeeps := Keeps.onIncoming hleg hledger (by simp) hheld hcall
    exact (hkeeps.after haside).congr ⟨fun h _ => h, fun h => h hsdk⟩
  · next hsdk =>
    exact (Keeps.elsewhere hl (.refl p)).congr
      (iff_of_true trivial fun h => absurd h hsdk)

/-! ### One step, and runs -/

/-- **One step**: the notes stay together, and the placements are kept exactly under the
condition. -/
theorem move_keeps (hw : Wired p) (hl : Ledger p) (i : Input) :
    Keeps p (move p i) (keepsPlacements p i) := by
  have aside : ∀ {q : Phone}, Elsewhere p q → Keeps p q True := fun h => .elsewhere hl h
  cases i with
  | company | clock | push | hintRefreshed => exact aside (.of_state rfl rfl)
  | invite i => exact .invited hw hl i
  | obey id c => exact aside (.obey hw id c)
  | connecting id => exact aside (.connecting hw id)
  | repeats id => exact aside (.repeats hw id)
  | remoteEnd id => exact aside (.remoteEnd hw id)
  | resolved id sessionId => exact aside (.resolved p id sessionId)
  | sessionUpdate sessionId state =>
    refine aside ?_
    show Elsewhere p (onCallSessionUpdate p sessionId state)
    unfold onCallSessionUpdate
    split
    · exact .refl p
    · split
      · exact .refl p
      · exact .applyRingingExit p sessionId
  | callEndPush sessionId =>
    refine aside ?_
    show Elsewhere p (onCallEndPush p sessionId)
    unfold onCallEndPush
    split
    · exact .refl p
    · exact .applyRingingExit p sessionId
  | promotionVerdict id session state => exact aside (.promotionVerdict hw id session state)
  | sweep => exact aside (.reapExpiredRings hw)
  | clientDeath => exact .clientDeath hw hl
  | placeCall =>
    refine aside ?_
    show Elsewhere p (placeCall p)
    unfold placeCall
    split
    · exact .refl p
    · exact .of_state rfl rfl
  | authorizeFailed => exact aside (.of_state rfl rfl)
  | authorized session number => exact .authorized hw hl session number
  | registered session => exact .registered hl session
  | registrationFailed session => exact .registrationFailed hl session
  | registrationCancelled session => exact .registrationCancelled hl session
  | placementTimeout session => exact .placementTimeout hl session
  | answer id => exact aside (.answer p id)
  | hangup id => exact .hangup hl id
  | toggleHold id => exact aside (.toggleHold p id)
  | dismiss id => exact aside (.dismiss hw id)
  | releaseHeldForSession session => exact aside (.released p _)

theorem placementsKept_iff (hl : Ledger p) : PlacementsKept p ↔ ∀ session, AccountedAt p session :=
  forall_congr' fun session => keptAt_iff (hl session)

theorem fresh_ledger : Ledger fresh := by
  intro session
  have hpending : isPending fresh session = false := rfl
  exact
    { shown := iff_of_false (by simp [hpending]) (by simp [hasCall, fresh])
      waits := fun h => absurd (h.symm.trans hpending) (by decide)
      registers := fun h => nomatch h
      cancelled := fun h => nomatch h
      fated := fun _ h => nomatch h
      once := Nat.zero_le 1
      unarmed := fun h => nomatch h }

end

end Softphone
