/-
**Nobody waits while a place is free.**

Two calls at most are on the line.  An INVITE that comes when they are is held, and so is a
duplicate of a ring; a held INVITE is looked at again when the SDK reports the end of a call, and
then one of them is promoted at most.  A place that comes free in any other way (a placement is hung
up, fails or runs out of time, a ring is dropped for its age) promotes nobody, and the answer to a
placement's request takes a place without looking whether there is one.

For every step this module gives the exact condition under which it leaves the line good, and with
it the runs in which nobody ever waits while a place is free.

Main result:

* `Softphone.ring_waits` — a call that is being placed is hung up, and a customer still waits.
-/

import Texturion.RingLine

namespace Softphone

/-! ### What is to hold -/

structure RingsServed (p : Phone) : Prop where
  two : (liveCalls p.state).length ≤ maxConcurrentCalls
  served : p.decisions = [] → (liveCalls p.state).length < maxConcurrentCalls →
    ∀ h ∈ p.heldInvites, h.reason = .duplicate ∧
      ((∃ c ∈ liveCalls p.state, accompanies c.seat h = true) ∨ hasLeft p.leftRinging h = true)

def rings (p : Phone) (i : Invite) : Bool :=
  match i.headerSession with
  | none => true
  | some session => !isPending p session && !p.cancelledPlacements.contains session

/-- The line once a session's state has come back. -/
def decided (p : Phone) (id : CallId) (session : String) (state : Option String) : Line :=
  let l := { line p with decisions := p.decisions.erase (id, session) }
  if isRingingExit state then { l with left := l.left ++ [session] }.release id
  else l.promote id

/-- A placement that is authorized finds a place, an INVITE that is held as a duplicate is one of a
call on the line, and a call that goes, or a promotion that is decided, leaves nobody waiting. -/
def keepsRings (p : Phone) : Input → Prop
  | .invite i => p.sdk i.callId = none → rings p i = true → isDuplicate p i = true →
      ((line p).hold ⟨i.callId, i.number, .duplicate, i.headerSession⟩).Calm
  | .obey id c => (id, c) ∈ p.commands → (p.sdk id).bind c.outcome = some .ended →
      CalmsWithout p id
  | .remoteEnd id => p.sdk id ≠ none → p.sdk id ≠ some .ended → CalmsWithout p id
  | .promotionVerdict id session state => (id, session) ∈ p.decisions →
      (decided p id session state).Calm
  | .sweep => (swept p).Calm
  | .authorized session _ => places p session = true →
      (liveCalls p.state).length < maxConcurrentCalls
  | .registrationFailed session => session ∈ p.registering →
      ((line p).without (· == .placement session)).Calm
  | .placementTimeout session => isArmed p session = true →
      ((line p).without (· == .placement session)).Calm
  | .hangup id => p.handles id = false → ((line p).without (· == id)).Calm
  | _ => True

section

variable {p q : Phone} {l : Line} {id : CallId} {c : Prop}

theorem ringsServed_iff : RingsServed p ↔ (line p).Good := by
  have hserves : ∀ h, (line p).serves h = true ↔ h.reason = .duplicate ∧
      ((∃ c ∈ liveCalls p.state, accompanies c.seat h = true) ∨
        hasLeft p.leftRinging h = true) := by
    intro h
    simp [Line.serves, line, seats]
  constructor
  · intro h
    refine ⟨length_line p ▸ h.two, fun hnone hfree held hheld => ?_⟩
    exact (hserves held).2 (h.served hnone (length_line p ▸ hfree) held hheld)
  · intro h
    refine ⟨length_line p ▸ h.two, fun hnone hfree held hheld => ?_⟩
    exact (hserves held).1 (h.calm hnone (length_line p ▸ hfree) held hheld)

/-! ### One step -/

/-- A step that keeps the calls tidy, and the line good exactly under a condition. -/
structure Serves (p q : Phone) (c : Prop) : Prop where
  tidy : Tidy q.state
  good : (line p).Good → ((line q).Good ↔ c)

theorem Serves.of_makes (hd : Tidy p.state) (h : Makes p q l)
    (hc : (line p).Good → (l.Good ↔ c)) : Serves p q c :=
  ⟨h.tidy hd, fun hl => h.line ▸ hc hl⟩

theorem Serves.congr {c' : Prop} (h : Serves p q c) (hc : c ↔ c') : Serves p q c' :=
  ⟨h.tidy, fun hl => (h.good hl).trans hc⟩

section

variable (hd : Tidy p.state)
include hd

theorem Serves.still (h : Makes p q (line p)) : Serves p q True :=
  .of_makes hd h fun hl => iff_of_true hl trivial

theorem Serves.unmoved (hstate : q.state = p.state)
    (hheld : q.heldInvites = p.heldInvites) (hleft : q.leftRinging = p.leftRinging)
    (hdecisions : q.decisions = p.decisions) (hc : c) : Serves p q c :=
  (Serves.still hd (.still hstate hheld hleft hdecisions)).congr (iff_of_true trivial hc)

theorem Serves.fewer {held : List HeldInvite} {left : List String}
    (h : Makes p q { line p with held := held, left := left })
    (hheld : ∀ h ∈ held, h ∈ p.heldInvites) (hleft : ∀ session ∈ p.leftRinging, session ∈ left) :
    Serves p q True :=
  .of_makes hd h fun hl => iff_of_true
    (hl.mono hl.two (Nat.le_refl _) (fun _ _ t ht hyes => ⟨t, ht, hyes⟩) hheld hleft fun h => h)
    trivial

theorem Serves.dropped (id : CallId) (hstate : q.state = Softphone.dropped p.state id)
    (hheld : q.heldInvites = p.heldInvites) (hleft : q.leftRinging = p.leftRinging)
    (hdecisions : q.decisions = p.decisions) (hc : ((line p).without (· == id)).Calm ↔ c) :
    Serves p q c :=
  .of_makes hd (.dropped hstate hheld hleft hdecisions) fun hl =>
    (Line.Good.iff_calm (Nat.le_trans (Line.without_length _ _) hl.two)).trans hc

end

theorem Serves.ended (hw : Wired p) (hd : Tidy p.state) (hborn : p.sdk id ≠ none)
    (commands : List (CallId × Command)) :
    Serves p (report { p with commands := commands } id .ended) (CalmsWithout p id) := by
  obtain ⟨l, hmakes, hgood⟩ := Makes.ended hw hborn commands
  exact .of_makes hd hmakes hgood

theorem Serves.released (hd : Tidy p.state) (ids : List CallId) :
    Serves p (ids.foldl releaseHeld p) True :=
  .fewer hd (.released p ids) (fun _ h => List.mem_of_mem_filter h) fun _ h => h

theorem Serves.applyRingingExit (hd : Tidy p.state) (sessionId : String) :
    Serves p (applyRingingExit p sessionId) True := by
  obtain ⟨held, hsub, hmakes⟩ := Makes.applyRingingExit p sessionId
  exact .fewer hd hmakes (fun _ h => hsub.subset h) fun _ h => List.mem_append_left _ h

section

variable (hw : Wired p) (hd : Tidy p.state)
include hw hd

theorem Serves.promotionVerdict (id : CallId) (session : String) (state : Option String) :
    Serves p (promotionVerdict p id session state)
      (keepsRings p (.promotionVerdict id session state)) := by
  unfold Softphone.promotionVerdict
  by_cases hmem : (id, session) ∈ p.decisions
  · have hdecided : ∀ {q : Phone}, Makes p q (decided p id session state) →
        Serves p q (keepsRings p (.promotionVerdict id session state)) := by
      intro q hq
      refine .of_makes hd hq fun hl => (Line.Good.iff_calm ?_).trans ⟨fun h _ => h, fun h => h hmem⟩
      unfold decided
      dsimp only
      split
      · exact hl.two
      · refine Line.promote_length ?_ id
        exact hl.two
    rw [if_pos hmem]
    refine hdecided ?_
    unfold decided
    dsimp only
    split
    · obtain ⟨hline, htidy⟩ := Makes.released { p with
        decisions := p.decisions.erase (id, session)
        leftRinging := p.leftRinging ++ [session] } [id]
      refine ⟨hline.trans ?_, htidy⟩
      simp only [line, Line.release, List.contains_cons, List.contains_nil, Bool.or_false]
      rfl
    · have haside : Wired { p with decisions := p.decisions.erase (id, session) } :=
        hw.aside rfl rfl rfl rfl
      obtain ⟨hline, htidy⟩ := Makes.promoteHeld haside id
      split
      · exact ⟨hline, htidy⟩
      · next hheld =>
        refine ⟨?_, fun h => h⟩
        have hnone : p.heldInvites.find? (·.id == id) = none := by
          simpa [isHeld] using hheld
        simp [line, Line.promote, hnone]
  · rw [if_neg hmem]
    exact .unmoved hd rfl rfl rfl rfl fun h => absurd h hmem

theorem Serves.obey (id : CallId) (c : Command) :
    Serves p (obey p id c) (keepsRings p (.obey id c)) := by
  unfold Softphone.obey
  by_cases hmem : (id, c) ∈ p.commands
  · rw [if_pos hmem]
    dsimp only
    cases hphase : (p.sdk id).bind c.outcome with
    | none =>
      refine .unmoved hd rfl rfl rfl rfl fun _ h => ?_
      rw [hphase] at h
      cases h
    | some phase =>
      have hborn : p.sdk id ≠ none := by
        intro h
        rw [h] at hphase
        cases hphase
      by_cases hended : phase = .ended
      · subst hended
        exact (Serves.ended hw hd hborn _).congr ⟨fun h _ _ => h, fun h => h hmem hphase⟩
      · refine (Serves.still hd (.reported hw hended _)).congr (iff_of_true trivial ?_)
        intro _ h
        rw [hphase] at h
        exact absurd (Option.some.inj h) hended
  · rw [if_neg hmem]
    exact .unmoved hd rfl rfl rfl rfl fun h => absurd h hmem

theorem Serves.remoteEnd (id : CallId) :
    Serves p (remoteEnd p id) (keepsRings p (.remoteEnd id)) := by
  unfold Softphone.remoteEnd
  cases hphase : p.sdk id with
  | none =>
    exact .unmoved hd rfl rfl rfl rfl fun h => absurd hphase h
  | some phase =>
    have hborn : p.sdk id ≠ none := by simp [hphase]
    dsimp only
    by_cases hended : phase = .ended
    · rw [if_pos hended]
      refine .unmoved hd rfl rfl rfl rfl fun _ h => absurd ?_ h
      rw [hphase, hended]
    · rw [if_neg hended]
      refine (Serves.ended hw hd hborn p.commands).congr ⟨fun h _ _ => h, fun h => h hborn ?_⟩
      rw [hphase]
      exact fun h => hended (Option.some.inj h)

theorem Serves.repeats (id : CallId) : Serves p (repeats p id) True := by
  unfold Softphone.repeats
  split
  · exact .still hd (.refl p)
  · split
    · exact .still hd (.refl p)
    · next hphase =>
      exact .still hd (.reported hw (fun h => hphase (.inr h)) p.commands)

theorem Serves.connecting (id : CallId) : Serves p (connecting p id) True := by
  unfold Softphone.connecting
  split
  · refine .still hd (.reported hw ?_ p.commands)
    decide
  · exact .still hd (.refl p)

end

theorem Serves.resolved (hd : Tidy p.state) (id : CallId) (sessionId : String) :
    Serves p (resolved p id sessionId) True := by
  obtain ⟨l, hmakes, hlength, hheld, hleft, hdecisions, hseats⟩ :=
    Makes.resolved hd id sessionId
  refine .of_makes hd hmakes fun hl => iff_of_true ?_ trivial
  refine hl.mono (hlength ▸ hl.two) (Nat.le_of_eq hlength.symm) (fun h _ => hseats h)
    (fun h hh => ?_) (fun session hs => hleft ▸ hs) fun h => hdecisions.symm.trans h
  rw [hheld] at hh
  exact hh

theorem Serves.clientDeath (hd : Tidy p.state) : Serves p (reapOnClientDeath p) True := by
  obtain ⟨l, hmakes, hheld, hlength⟩ := Makes.clientDeath p
  refine .of_makes hd hmakes fun hl => iff_of_true ⟨Nat.le_trans hlength hl.two, ?_⟩ trivial
  intro _ _ h hh
  rw [hheld] at hh
  cases hh

theorem Serves.sweep (hw : Wired p) (hd : Tidy p.state) :
    Serves p (reapExpiredRings p) (swept p).Calm :=
  .of_makes hd (.sweep hw) fun hl =>
    Line.Good.iff_calm (Nat.le_trans (Line.without_length _ _) hl.two)

theorem Serves.authorized (hl : Ledger p) (hd : Tidy p.state)
    (session : Option String) (number : String) :
    Serves p (authorized p session number) (keepsRings p (.authorized session number)) := by
  cases hplaces : places p session with
  | false =>
    obtain ⟨authorizing, h⟩ := authorized_of_not_places number hplaces
    rw [h]
    exact .unmoved hd rfl rfl rfl rfl fun h => absurd (hplaces.symm.trans h) (by decide)
  | true =>
    obtain ⟨session, rfl⟩ : ∃ s, session = some s := by
      cases session with
      | none => cases hplaces
      | some s => exact ⟨s, rfl⟩
    have hnew : session ∉ p.returned := by
      simp only [places, Bool.and_eq_true] at hplaces
      simpa using hplaces.1.2
    have hcall : hasCall p.state (chip session number).id = false :=
      Bool.eq_false_iff.2 fun h => hnew ((hl session).waits ((hl session).shown.2 h))
    rw [authorized_of_places hplaces]
    refine ⟨hd.placing hcall, fun hgood => ?_⟩
    have hseats : (seats (placing p.state (chip session number))).length =
        (line p).seats.length + 1 := by
      rw [seats_placing, List.length_append]
      rfl
    have hlength := length_line p
    constructor
    · intro hgood' _
      have htwo : (seats (placing p.state (chip session number))).length ≤ maxConcurrentCalls :=
        hgood'.two
      omega
    · intro hc
      have hfree := hc hplaces
      refine hgood.mono ?_ ?_ (fun h _ t ht hyes => ⟨t, ?_, hyes⟩) (fun _ h => h)
        (fun _ h => h) fun h => h
      · change (seats (placing p.state (chip session number))).length ≤ maxConcurrentCalls
        omega
      · change _ ≤ (seats (placing p.state (chip session number))).length
        omega
      · change t ∈ seats (placing p.state (chip session number))
        rw [seats_placing]
        exact List.mem_append_left _ ht

theorem Serves.hangup (hd : Tidy p.state) (hw : Wired p) (id : CallId) :
    Serves p (hangup p id) (keepsRings p (.hangup id)) := by
  have hdropped : ∀ {q : Phone}, p.handles id = false → q.state = Softphone.dropped p.state id →
      q.heldInvites = p.heldInvites → q.leftRinging = p.leftRinging →
      q.decisions = p.decisions → Serves p q (keepsRings p (.hangup id)) := by
    intro q hhandle hstate hheld hleft hdecisions
    exact .dropped hd id hstate hheld hleft hdecisions ⟨fun h _ => h, fun h => h hhandle⟩
  have hend : Serves p (endOrDismiss p id) (keepsRings p (.hangup id)) := by
    unfold endOrDismiss
    by_cases hhandle : p.handles id = true
    · rw [if_pos hhandle]
      exact .unmoved hd rfl rfl rfl rfl fun h => absurd (hhandle.symm.trans h) (by decide)
    · rw [if_neg hhandle]
      exact hdropped (by simpa using hhandle) rfl rfl rfl rfl
  unfold Softphone.hangup
  split
  · exact hend
  · next session hsession =>
    split
    · cases id with
      | leg id => cases hsession
      | placement session' =>
        have hsdk := ((hw (.placement session')).chip session' rfl).1
        exact hdropped ((hw _).born hsdk).1 rfl rfl rfl rfl
    · exact hend

/-! ### INVITEs -/

section

variable (hw : Wired p)
include hw

section

variable (hd : Tidy p.state)
include hd

theorem Serves.ringIn {i : Invite} (hsdk : p.sdk i.callId ≠ none)
    (hcall : hasCall p.state i.callId = false) :
    Serves p (ringIn p i) (isDuplicate p i = true →
      ((line p).hold ⟨i.callId, i.number, .duplicate, i.headerSession⟩).Calm) := by
  have hrecord : ∀ {q : Phone} (session : Option String) (fate : Fate) {l : Line},
      Makes p q l → Makes p (record q session fate) l := by
    intro q session fate l hq
    cases session with
    | none => exact hq
    | some session => exact hq.then_still (.still rfl rfl rfl rfl)
  unfold Softphone.ringIn
  by_cases hduplicate : isDuplicate p i = true
  · rw [if_pos hduplicate]
    have hmakes : Makes p (holdInvite p i.callId i.number .duplicate i.headerSession)
        ((line p).hold ⟨i.callId, i.number, .duplicate, i.headerSession⟩) := ⟨rfl, fun h => h⟩
    refine .of_makes hd (hrecord _ _ hmakes) fun hl => ?_
    have htwo : ((line p).hold
        ⟨i.callId, i.number, .duplicate, i.headerSession⟩).seats.length ≤ maxConcurrentCalls :=
      hl.two
    exact (Line.Good.iff_calm htwo).trans ⟨fun h _ => h, fun h => h hduplicate⟩
  · rw [if_neg hduplicate]
    have hceiling : atCeiling p = decide (maxConcurrentCalls ≤ (line p).seats.length) := by
      rw [← length_line]
      rfl
    by_cases hfull : maxConcurrentCalls ≤ (line p).seats.length
    · rw [hceiling, if_pos (by simpa using hfull)]
      have hmakes : Makes p (holdInvite p i.callId i.number .capacity i.headerSession)
          ((line p).hold ⟨i.callId, i.number, .capacity, i.headerSession⟩) := ⟨rfl, fun h => h⟩
      refine .of_makes hd (hrecord _ _ hmakes) fun hl => ?_
      exact iff_of_true (hl.hold hfull _) fun h => absurd h hduplicate
    · rw [hceiling, if_neg (by simpa using hfull)]
      have hmakes := Makes.presentIncoming hcall (hw.not_chip hsdk)
        ⟨i.callId, i.number, .duplicate, i.headerSession⟩ rfl
      refine .of_makes hd (hrecord _ _ hmakes) fun hl => ?_
      exact iff_of_true (hl.present (by omega) _) fun h => absurd h hduplicate

theorem Serves.acceptPlacementOpLeg (hsdk : p.sdk id ≠ none) (hcall : hasCall p.state id = false)
    (session : String) : Serves p (acceptPlacementOpLeg p id session) True := by
  refine ⟨hd.placementConnected (hw.not_chip hsdk) hcall, fun hl => iff_of_true ?_ trivial⟩
  have hline : line (Softphone.acceptPlacementOpLeg p id session) =
      { line p with seats := seats (placementConnected p.state (.placement session) id session) } :=
    rfl
  rw [hline]
  by_cases hchip : hasCall p.state (.placement session) = true
  · rw [seats_placementConnected hchip]
    refine hl.mono ?_ ?_ (fun h _ t ht hyes => ⟨_, List.mem_map.2 ⟨t, ht, rfl⟩, ?_⟩)
      (fun _ h => h) (fun _ h => h) fun h => h
    · rw [List.length_map]
      exact hl.two
    · rw [List.length_map]
      exact Nat.le_refl _
    · by_cases hid : t.id = .placement session
      · -- a chip is no customer's call
        obtain ⟨c, hc, -, rfl⟩ := mem_seats.1 ht
        have hdirection := hd.outbound c hc session hid
        simp [accompanies, CallSnapshot.seat, hdirection] at hyes
      · rwa [if_neg hid]
  · have hsame : placementConnected p.state (.placement session) id session = p.state := by
      simp [placementConnected, hchip]
    rw [hsame]
    exact hl

theorem Serves.onIncoming {i : Invite} (hsdk : p.sdk i.callId ≠ none)
    (hheld : isHeld p i.callId = false) (hcall : hasCall p.state i.callId = false) :
    Serves p (onIncoming p i) (rings p i = true → isDuplicate p i = true →
      ((line p).hold ⟨i.callId, i.number, .duplicate, i.headerSession⟩).Calm) := by
  have hring := Serves.ringIn hw hd hsdk hcall
  unfold Softphone.onIncoming
  rw [if_neg (by simp [hcall, hheld])]
  cases hheader : i.headerSession with
  | none =>
    rw [hheader] at hring
    exact hring.congr ⟨fun h _ => h, fun h => h (by simp [rings, hheader])⟩
  | some session =>
    rw [hheader] at hring
    dsimp only
    by_cases hpending : isPending p session = true
    · rw [if_pos hpending]
      obtain ⟨htidy, hgood⟩ := Serves.acceptPlacementOpLeg hw hd hsdk hcall session
      refine ⟨htidy, fun hl => (hgood hl).trans (iff_of_true trivial fun h => ?_)⟩
      simp [rings, hheader, hpending] at h
    · rw [if_neg hpending]
      by_cases hcancelled : session ∈ p.cancelledPlacements
      · rw [if_pos hcancelled]
        refine .unmoved hd rfl rfl rfl rfl fun h => ?_
        simp [rings, hheader, hcancelled] at h
      · rw [if_neg hcancelled]
        refine hring.congr ⟨fun h _ => h, fun h => h ?_⟩
        simp [rings, hheader, hpending, hcancelled]

theorem Serves.invited (i : Invite) : Serves p (invited p i) (keepsRings p (.invite i)) := by
  unfold Softphone.invited
  split
  · next hsdk =>
    obtain ⟨-, hheld, hcall⟩ := (hw i.callId).born hsdk
    have hcall : hasCall p.state i.callId = false :=
      Bool.eq_false_iff.2 fun h => (hcall h).elim fun _ h => nomatch h
    have hleg : Wired { p with sdk := Function.update p.sdk i.callId (some .ringing) } := by
      refine hw.came (fun _ h => ?_) _
      exact nomatch h
    obtain ⟨htidy, hgood⟩ := Serves.onIncoming hleg hd (by simp) hheld hcall
    exact ⟨htidy, fun hl => (hgood hl).trans ⟨fun h _ => h, fun h => h hsdk⟩⟩
  · next hsdk =>
    exact .unmoved hd rfl rfl rfl rfl fun h => absurd h hsdk

end

/-- **One step** leaves the line good exactly under its condition. -/
theorem move_serves (hl : Ledger p) (hd : Tidy p.state) (i : Input) :
    Serves p (move p i) (keepsRings p i) := by
  have aside : ∀ {q : Phone}, Makes p q (line p) → Serves p q True := fun h => .still hd h
  cases i with
  | company | clock | push | hintRefreshed => exact aside (.still rfl rfl rfl rfl)
  | invite i => exact .invited hw hd i
  | obey id c => exact .obey hw hd id c
  | connecting id => exact .connecting hw hd id
  | repeats id => exact .repeats hw hd id
  | remoteEnd id => exact .remoteEnd hw hd id
  | resolved id sessionId => exact .resolved hd id sessionId
  | sessionUpdate sessionId state =>
    show Serves p (onCallSessionUpdate p sessionId state) True
    unfold onCallSessionUpdate
    split
    · exact aside (.refl p)
    · split
      · exact aside (.refl p)
      · exact .applyRingingExit hd sessionId
  | callEndPush sessionId =>
    show Serves p (onCallEndPush p sessionId) True
    unfold onCallEndPush
    split
    · exact aside (.refl p)
    · exact .applyRingingExit hd sessionId
  | promotionVerdict id session state => exact .promotionVerdict hw hd id session state
  | sweep => exact .sweep hw hd
  | clientDeath => exact .clientDeath hd
  | placeCall =>
    show Serves p (placeCall p) True
    unfold placeCall
    split
    · exact aside (.refl p)
    · exact aside (.still rfl rfl rfl rfl)
  | authorizeFailed => exact aside (.still rfl rfl rfl rfl)
  | authorized session number => exact .authorized hl hd session number
  | registered session =>
    show Serves p (registered p session) True
    unfold registered
    split
    · exact aside (.still rfl rfl rfl rfl)
    · exact aside (.refl p)
  | registrationFailed session =>
    show Serves p (registrationFailed p session) _
    unfold registrationFailed
    split
    · next h =>
      exact .dropped hd (.placement session) rfl rfl rfl rfl ⟨fun hc _ => hc, fun hc => hc h⟩
    · next h => exact .unmoved hd rfl rfl rfl rfl fun h' => absurd h' h
  | registrationCancelled session => exact aside (.still rfl rfl rfl rfl)
  | placementTimeout session =>
    show Serves p (placementTimeout p session) _
    unfold placementTimeout
    split
    · next h =>
      exact .dropped hd (.placement session) rfl rfl rfl rfl ⟨fun hc _ => hc, fun hc => hc h⟩
    · next h => exact .unmoved hd rfl rfl rfl rfl fun h' => absurd h' h
  | answer id =>
    show Serves p (answer p id) True
    unfold answer
    split
    · exact aside (.refl p)
    · split
      · exact aside (.refl p)
      · split
        · exact aside (.refl p)
        · exact aside ((Makes.holdActive p p.state.activeId id).then_still
            (.still rfl rfl rfl rfl))
  | hangup id => exact .hangup hd hw id
  | toggleHold id =>
    show Serves p (toggleHold p id) True
    unfold toggleHold
    split
    · exact aside (.refl p)
    · split
      · exact aside ((Makes.holdActive p p.state.activeId id).then_still
          (.requestHold _ id false))
      · exact aside (.requestHold p id true)
      · exact aside (.refl p)
  | dismiss id => exact aside (.dismiss hd id)
  | releaseHeldForSession session => exact .released hd _

end

theorem fresh_tidy : Tidy fresh.state := ⟨List.nodup_nil, fun _ h => nomatch h⟩

end

end Softphone
