/-
**Who is on the line, and who waits.**

Of the phone, what the ceiling of two calls and the promotion of held INVITEs are about: the calls
that have not ended, the INVITEs that are held, the sessions known to have left ringing and the
promotions that wait for an answer.  An INVITE is held in order when it is the duplicate of a ring
or call on the line, or of a session that has left ringing; any other wants the next free place.

Each function of the core does something plain to the line, and this module says what.

Main result:

* `Softphone.Makes.maybePromoteHeld`, `Softphone.Makes.report`, `Softphone.Makes.dropRings` — the
  core.
-/

import Texturion.Placements
import Mathlib.Data.List.Nodup

namespace Softphone

/-! ### The line -/

structure Line where
  seats : List Seat
  held : List HeldInvite
  left : List String
  decisions : List (CallId × String)
  deriving DecidableEq

/-- A call that comes in is another leg of the INVITE's session, or from its caller. -/
def accompanies (t : Seat) (h : HeldInvite) : Bool :=
  t.direction == .inbound &&
    ((h.headerSession.isSome && h.headerSession == t.sessionId) ||
      sameCaller (some t.peerNumber) (some h.callerNumber))

/-- The INVITE's session is known to have left ringing. -/
def hasLeft (left : List String) (h : HeldInvite) : Bool :=
  match h.headerSession with
  | some session => left.contains session
  | none => false

namespace Line

def serves (l : Line) (h : HeldInvite) : Bool :=
  h.reason == .duplicate && (l.seats.any (accompanies · h) || hasLeft l.left h)

/-- With no promotion under way, nobody waits while a place is free. -/
def Calm (l : Line) : Prop :=
  l.decisions = [] → l.seats.length < maxConcurrentCalls → ∀ h ∈ l.held, l.serves h = true

instance (l : Line) : Decidable l.Calm :=
  inferInstanceAs (Decidable (l.decisions = [] → l.seats.length < maxConcurrentCalls →
    ∀ h ∈ l.held, l.serves h = true))

structure Good (l : Line) : Prop where
  two : l.seats.length ≤ maxConcurrentCalls
  calm : l.Calm

def without (l : Line) (gone : CallId → Bool) : Line :=
  { l with seats := l.seats.filter fun t => !gone t.id }

def hold (l : Line) (h : HeldInvite) : Line := { l with held := l.held ++ [h] }

/-- The call an INVITE becomes. -/
def present (l : Line) (h : HeldInvite) : Line :=
  { l with seats := l.seats ++ [⟨h.id, .inbound, h.callerNumber, h.headerSession⟩] }

/-- An INVITE is no longer held. -/
def release (l : Line) (id : CallId) : Line := { l with held := l.held.filter (·.id != id) }

/-- A held INVITE gets its turn, if there is a place. -/
def promote (l : Line) (id : CallId) : Line :=
  match l.held.find? (·.id == id) with
  | none => l
  | some h =>
    if maxConcurrentCalls ≤ l.seats.length then
      (l.release id).hold { h with id := id, reason := .capacity }
    else (l.release id).present { h with id := id }

variable {l l' : Line} {h : HeldInvite} {gone : CallId → Bool}

theorem serves_mono (hseats : ∀ t ∈ l.seats, accompanies t h = true →
      ∃ t' ∈ l'.seats, accompanies t' h = true)
    (hleft : ∀ session ∈ l.left, session ∈ l'.left) (hserves : l.serves h = true) :
    l'.serves h = true := by
  simp only [serves, Bool.and_eq_true, Bool.or_eq_true, List.any_eq_true] at hserves ⊢
  refine ⟨hserves.1, hserves.2.imp (fun ⟨t, ht, haccompanies⟩ => hseats t ht haccompanies) ?_⟩
  intro hgone
  cases hheader : h.headerSession with
  | none => simp [hasLeft, hheader] at hgone
  | some session =>
    simp only [hasLeft, hheader, List.contains_iff_mem] at hgone ⊢
    exact hleft session hgone

/-- **A line stays good** while nobody leaves it and no INVITE is held that was not. -/
theorem Good.mono (hl : l.Good) (htwo : l'.seats.length ≤ maxConcurrentCalls)
    (hlength : l.seats.length ≤ l'.seats.length)
    (hseats : ∀ h ∈ l'.held, ∀ t ∈ l.seats, accompanies t h = true →
      ∃ t' ∈ l'.seats, accompanies t' h = true)
    (hheld : ∀ h ∈ l'.held, h ∈ l.held) (hleft : ∀ session ∈ l.left, session ∈ l'.left)
    (hdecisions : l'.decisions = [] → l.decisions = []) : l'.Good where
  two := htwo
  calm hnone hfree h hh := by
    have hserves := hl.calm (hdecisions hnone) (by omega) h (hheld h hh)
    exact serves_mono (hseats h hh) hleft hserves

theorem Good.present (hl : l.Good) (hfree : l.seats.length < maxConcurrentCalls)
    (h : HeldInvite) : (l.present h).Good := by
  refine hl.mono ?_ ?_ (fun h _ t ht haccompanies => ⟨t, ?_, haccompanies⟩) (fun _ h => h)
    (fun _ h => h) fun h => h
  · simp only [Line.present, List.length_append, List.length_singleton]
    omega
  · simp [Line.present]
  · exact List.mem_append_left _ ht

theorem Good.hold (hl : l.Good) (hfull : maxConcurrentCalls ≤ l.seats.length)
    (h : HeldInvite) : (l.hold h).Good :=
  ⟨hl.two, fun _ hfree => absurd hfree (Nat.not_lt.2 hfull)⟩

theorem without_without (l : Line) (gone gone' : CallId → Bool) :
    (l.without gone).without gone' = l.without fun id => gone id || gone' id := by
  simp only [without, List.filter_filter, Bool.not_or]
  congr 1
  exact List.filter_congr fun t _ => Bool.and_comm _ _

theorem without_length (l : Line) (gone : CallId → Bool) :
    (l.without gone).seats.length ≤ l.seats.length :=
  List.length_filter_le _ _

theorem without_eq_self (h : ∀ t ∈ l.seats, gone t.id = false) : l.without gone = l := by
  have hseats : l.seats.filter (fun t => !gone t.id) = l.seats :=
    List.filter_eq_self.2 fun t ht => by simp [h t ht]
  rw [without, hseats]

theorem Good.iff_calm (htwo : l.seats.length ≤ maxConcurrentCalls) : l.Good ↔ l.Calm :=
  ⟨Good.calm, fun h => ⟨htwo, h⟩⟩

theorem calm_of_full (hfull : maxConcurrentCalls ≤ l.seats.length) : l.Calm :=
  fun _ hfree => absurd hfree (Nat.not_lt.2 hfull)

theorem promote_seats_of_full (hfull : maxConcurrentCalls ≤ l.seats.length) (id : CallId) :
    (l.promote id).seats = l.seats := by
  unfold promote
  split
  · rfl
  · rw [if_pos hfull]
    rfl

theorem promote_length (htwo : l.seats.length ≤ maxConcurrentCalls) (id : CallId) :
    (l.promote id).seats.length ≤ maxConcurrentCalls := by
  unfold promote
  split
  · exact htwo
  · split
    · exact htwo
    · simp only [Line.present, release, List.length_append, List.length_singleton]
      omega

end Line

/-! ### Calls have ids of their own -/

/-- No two calls have the same id, and chips are outbound. -/
structure Tidy (s : SoftphoneSnapshot) : Prop where
  distinct : (s.calls.map (·.id)).Nodup
  outbound : ∀ c ∈ s.calls, ∀ session, c.id = .placement session → c.direction = .outbound

section

variable {s : SoftphoneSnapshot} {id id' : CallId}

theorem Tidy.map (hs : Tidy s) {f : CallSnapshot → CallSnapshot}
    (hf : ∀ c, (f c).id = c.id ∧ (f c).direction = c.direction) (activeId : Option CallId) :
    Tidy ⟨s.calls.map f, activeId⟩ where
  distinct := by
    have hids : (s.calls.map f).map (·.id) = s.calls.map (·.id) := by
      rw [List.map_map]
      exact List.map_congr_left fun c _ => (hf c).1
    exact hids ▸ hs.distinct
  outbound := by
    intro c hmem session hid
    obtain ⟨c', hc, rfl⟩ := List.mem_map.1 hmem
    rw [(hf c').2]
    exact hs.outbound c' hc session ((hf c').1 ▸ hid)

theorem Tidy.filter (hs : Tidy s) (f : CallSnapshot → Bool) (activeId : Option CallId) :
    Tidy ⟨s.calls.filter f, activeId⟩ where
  distinct := hs.distinct.sublist (List.filter_sublist.map _)
  outbound c hc := hs.outbound c (List.mem_of_mem_filter hc)

theorem ne_of_not_hasCall (h : hasCall s id = false) {c : CallSnapshot} (hc : c ∈ s.calls) :
    c.id ≠ id := by
  intro hid
  have hcall : hasCall s id = true := List.any_eq_true.2 ⟨c, hc, by simpa using hid⟩
  exact absurd (hcall.symm.trans h) (by decide)

section

variable (hs : Tidy s)
include hs

theorem Tidy.append (call : CallSnapshot) (hnew : hasCall s call.id = false)
    (hchip : ∀ session, call.id = .placement session → call.direction = .outbound)
    (activeId : Option CallId) : Tidy ⟨s.calls ++ [call], activeId⟩ where
  distinct := by
    rw [List.map_append, List.map_singleton]
    refine List.nodup_append.2 ⟨hs.distinct, by simp, fun id hid other hother => ?_⟩
    obtain ⟨c, hc, rfl⟩ := List.mem_map.1 hid
    obtain rfl := List.mem_singleton.1 hother
    exact ne_of_not_hasCall hnew hc
  outbound := by
    intro c hc session hid
    rcases List.mem_append.1 hc with hc | hc
    · exact hs.outbound c hc session hid
    · obtain rfl := List.mem_singleton.1 hc
      exact hchip session hid

theorem Tidy.dropped (id : CallId) : Tidy (dropped s id) := hs.filter _ _

theorem Tidy.update (id : CallId) {patch : CallSnapshot → CallSnapshot}
    (h : ∀ c, (patch c).id = c.id ∧ (patch c).direction = c.direction)
    (activeId : Option CallId) : Tidy { update s id patch with activeId := activeId } := by
  refine hs.map (fun c => ?_) activeId
  split
  · exact h c
  · exact ⟨rfl, rfl⟩

theorem Tidy.sessionKnown (id : CallId) (sessionId : String) :
    Tidy (sessionKnown s id sessionId) := by
  refine hs.map (fun c => ?_) _
  split <;> exact ⟨rfl, rfl⟩

theorem Tidy.silenced (ids : List CallId) : Tidy (ids.foldl presentationSilenced s) := by
  induction ids generalizing s with
  | nil => exact hs
  | cons id ids ih =>
    refine ih (hs.update id (fun c => ?_) _)
    split <;> exact ⟨rfl, rfl⟩

theorem Tidy.activate (id : CallId) : Tidy (activate s id) := by
  refine hs.map (fun c => ?_) _
  unfold activated
  split
  · exact ⟨rfl, rfl⟩
  · split <;> exact ⟨rfl, rfl⟩

theorem Tidy.sdkPhase (id : CallId) (phase : CallPhase) : Tidy (sdkPhase s id phase) := by
  have hset : ∀ (ph : CallPhase) (activeId : Option CallId),
      Tidy { Softphone.update s id (fun c => { c with phase := ph }) with activeId := activeId } :=
    fun ph => hs.update id fun c => ⟨rfl, rfl⟩
  unfold Softphone.sdkPhase
  split
  · exact hs
  · split
    · cases phase with
      | active => exact hs.activate id
      | ended => exact hs.dropped id
      | ringing | connecting | held => exact hs
    · cases phase with
      | active => exact hs.activate id
      | ended => exact hset .ended _
      | ringing | connecting => exact hset .connecting _
      | held => exact hset .held _

end

theorem hasCall_liveCalls (h : hasCall s id = false) (activeId : Option CallId) :
    hasCall ⟨liveCalls s, activeId⟩ id = false := by
  refine Bool.eq_false_iff.2 fun hlive => ?_
  obtain ⟨c, hc, hid⟩ := List.any_eq_true.1 hlive
  exact ne_of_not_hasCall h (List.mem_of_mem_filter hc) (by simpa using hid)

theorem Tidy.placing (hs : Tidy s) {call : CallSnapshot} (hnew : hasCall s call.id = false) :
    Tidy (placing s call) :=
  (hs.filter _ none).append { call with phase := .connecting, direction := .outbound }
    (hasCall_liveCalls hnew none) (fun _ _ => rfl) _

theorem Tidy.incoming (hs : Tidy s) {call : CallSnapshot}
    (hleg : ∀ session, CallId.placement session ≠ call.id) : Tidy (incoming s call) := by
  unfold Softphone.incoming
  split
  · exact hs
  · next hnew =>
    exact (hs.filter _ none).append { call with phase := .ringing, direction := .inbound }
      (hasCall_liveCalls (by simpa using hnew) none)
      (fun session hid => absurd hid.symm (hleg session)) _

theorem Tidy.placementConnected (hs : Tidy s) {pid : CallId} {sessionId : String}
    (hleg : ∀ session, CallId.placement session ≠ id) (hnew : hasCall s id = false) :
    Tidy (placementConnected s pid id sessionId) := by
  unfold Softphone.placementConnected
  split
  · refine ⟨?_, fun c hmem session hid => ?_⟩
    · have hids : ((s.calls.map fun c => if c.id = pid then
          { c with id := id, sessionId := some sessionId } else c).map (·.id)) =
          (s.calls.map (·.id)).map fun other => if other = pid then id else other := by
        rw [List.map_map, List.map_map]
        refine List.map_congr_left fun c _ => ?_
        simp only [Function.comp_apply]
        split <;> rfl
      rw [hids]
      refine List.Nodup.map_on (fun a ha b hb hab => ?_) hs.distinct
      have hother : ∀ x ∈ s.calls.map (·.id), x ≠ id := by
        rintro x hx rfl
        obtain ⟨c, hc, hid⟩ := List.mem_map.1 hx
        exact ne_of_not_hasCall hnew hc hid
      split at hab
      · split at hab
        · simp_all
        · exact absurd hab.symm (hother b hb)
      · split at hab
        · exact absurd hab (hother a ha)
        · exact hab
    · obtain ⟨c', hc, rfl⟩ := List.mem_map.1 hmem
      split at hid
      · exact absurd hid.symm (hleg session)
      · next hne =>
        rw [if_neg hne]
        exact hs.outbound c' hc session hid
  · exact hs

/-- A change of the calls that no call's life depends on, by what it does to each seat. -/
theorem seats_mapped {calls : List CallSnapshot} {f : CallSnapshot → CallSnapshot} {g : Seat → Seat}
    (hlive : ∀ c, (f c).isLive = c.isLive) (hseat : ∀ c, (f c).seat = g c.seat)
    (activeId activeId' : Option CallId) :
    seats ⟨calls.map f, activeId⟩ = (seats ⟨calls, activeId'⟩).map g := by
  have hfilter : calls.filter ((fun c => c.isLive) ∘ f) = calls.filter (·.isLive) :=
    List.filter_congr fun c _ => hlive c
  simp only [seats, liveCalls, List.filter_map, List.map_map, hfilter]
  exact List.map_congr_left fun c _ => hseat c

theorem seats_placementConnected {pid : CallId} {sessionId : String} (h : hasCall s pid = true) :
    seats (placementConnected s pid id sessionId) =
      (seats s).map fun t => if t.id = pid then { t with id := id, sessionId := some sessionId }
        else t := by
  simp only [placementConnected, h, if_true]
  refine seats_mapped (fun c => ?_) (fun c => ?_) _ _
  · split <;> rfl
  · by_cases hid : c.id = pid <;> simp [CallSnapshot.seat, hid]

theorem seats_sessionKnown (s : SoftphoneSnapshot) (id : CallId) (sessionId : String) :
    seats (sessionKnown s id sessionId) =
      (seats s).map fun t => if t.id = id then { t with sessionId := some sessionId } else t := by
  refine seats_mapped (fun c => ?_) (fun c => ?_) _ _
  · split <;> rfl
  · by_cases hid : c.id = id <;> simp [CallSnapshot.seat, hid]

theorem Tidy.eq_of_callOf (hs : Tidy s) {call : CallSnapshot} (h : callOf s id = some call)
    {c : CallSnapshot} (hc : c ∈ s.calls) (hid : c.id = id) : c = call := by
  have hcall : call ∈ s.calls := List.mem_of_find?_eq_some h
  have hcallId : call.id = id := by simpa using List.find?_some h
  exact List.inj_on_of_nodup_map hs.distinct hc hcall (hid.trans hcallId.symm)

end

/-! ### What a step makes of the line -/

def line (p : Phone) : Line := ⟨seats p.state, p.heldInvites, p.leftRinging, p.decisions⟩

/-- A step makes a line, and keeps the calls tidy. -/
structure Makes (p q : Phone) (l : Line) : Prop where
  line : line q = l
  tidy : Tidy p.state → Tidy q.state

section

variable {p q r : Phone} {l : Line} {id : CallId}

theorem Makes.trans (h : Makes p q l) {l' : Line} (h' : Makes q r l') : Makes p r l' :=
  ⟨h'.line, h'.tidy ∘ h.tidy⟩

theorem Makes.refl (p : Phone) : Makes p p (Softphone.line p) := ⟨rfl, fun h => h⟩

theorem Makes.still (hstate : q.state = p.state) (hheld : q.heldInvites = p.heldInvites)
    (hleft : q.leftRinging = p.leftRinging) (hdecisions : q.decisions = p.decisions) :
    Makes p q (Softphone.line p) :=
  ⟨by rw [Softphone.line, hstate, hheld, hleft, hdecisions, Softphone.line], hstate ▸ fun h => h⟩

theorem Makes.requestHold (p : Phone) (id : CallId) (hold : Bool) :
    Makes p (requestHold p id hold) (Softphone.line p) := by
  rcases requestHold_cases p id hold with h | ⟨-, -, h⟩
  · rw [h]
    exact .refl p
  · rw [h]
    exact .still rfl rfl rfl rfl

theorem Makes.holdActive (p : Phone) (activeId : Option CallId) (id : CallId) :
    Makes p (holdActive p activeId id) (Softphone.line p) := by
  rcases holdActive_cases p activeId id with h | ⟨previousActive, -, -, h⟩
  · rw [h]
    exact .refl p
  · rw [h]
    exact .requestHold p previousActive true

theorem Makes.then_still (h : Makes p q l) (h' : Makes q r (Softphone.line q)) : Makes p r l :=
  ⟨h'.line.trans h.line, h'.tidy ∘ h.tidy⟩

theorem Makes.released (p : Phone) (ids : List CallId) :
    Makes p (ids.foldl releaseHeld p)
      { Softphone.line p with held := p.heldInvites.filter fun h => !ids.contains h.id } := by
  obtain ⟨clocks, h⟩ := foldl_releaseHeld p ids
  rw [h]
  exact ⟨rfl, fun h => h⟩

theorem seats_foldl_silenced (ids : List CallId) (s : SoftphoneSnapshot) :
    seats (ids.foldl presentationSilenced s) = seats s := by
  induction ids generalizing s with
  | nil => rfl
  | cons id ids ih => exact (ih _).trans (seats_presentationSilenced s id)

theorem Makes.applyRingingExit (p : Phone) (sessionId : String) :
    ∃ held, held.Sublist p.heldInvites ∧ Makes p (applyRingingExit p sessionId)
      { Softphone.line p with held := held, left := p.leftRinging ++ [sessionId] } := by
  obtain ⟨held, clocks, silenced, hint, hsub, h⟩ := applyRingingExit_eq p sessionId
  refine ⟨held, hsub, ?_, fun htidy => ?_⟩
  · rw [h]
    simp only [Softphone.line, seats_foldl_silenced]
  · rw [h]
    exact htidy.silenced silenced

theorem Makes.presentIncoming (hcall : hasCall p.state id = false)
    (hleg : ∀ session, CallId.placement session ≠ id) (h : HeldInvite) (hid : h.id = id) :
    Makes p (presentIncoming p id h.callerNumber h.headerSession)
      ((Softphone.line p).present h) := by
  refine ⟨?_, fun htidy => htidy.incoming hleg⟩
  simp only [Softphone.line, Softphone.presentIncoming, Line.present, Line.mk.injEq, and_true]
  rw [seats_incoming hcall]
  simp [CallSnapshot.seat, hid]

theorem length_line (p : Phone) : (liveCalls p.state).length = (Softphone.line p).seats.length :=
  length_liveCalls p.state

theorem Makes.promoteHeld (hw : Wired p) (id : CallId) :
    Makes p (promoteHeld p id) ((Softphone.line p).promote id) := by
  unfold Softphone.promoteHeld Line.promote
  have hheld : (Softphone.line p).held = p.heldInvites := rfl
  rw [hheld]
  cases hfind : p.heldInvites.find? (·.id == id) with
  | none => exact .refl p
  | some held =>
    obtain ⟨hthere, hid⟩ := isHeld_of_find hfind
    have hsdk : p.sdk id ≠ none := fun h =>
      absurd (hthere.symm.trans ((hw id).born h).2.1) (by decide)
    have hceiling : atCeiling { p with heldInvites := p.heldInvites.filter (·.id != id) } =
        decide (maxConcurrentCalls ≤ (Softphone.line p).seats.length) := by
      rw [← length_line]
      rfl
    dsimp only
    rw [hceiling]
    by_cases hfull : maxConcurrentCalls ≤ (Softphone.line p).seats.length
    · rw [if_pos (by simpa using hfull), if_pos hfull]
      exact ⟨rfl, fun h => h⟩
    · rw [if_neg (by simpa using hfull), if_neg hfull]
      have hpresent := Makes.presentIncoming
        (p := { p with heldInvites := p.heldInvites.filter (·.id != id) })
        ((hw id).apart hthere).1 (hw.not_chip hsdk) { held with id := id } rfl
      exact ⟨hpresent.line, hpresent.tidy⟩

/-- The promotion of the INVITE waits for the state of its session. -/
def verifies (p : Phone) (otherLiveCalls : ℕ) (held : HeldInvite) : Bool :=
  decide (held.reason = .duplicate) && p.companyId.isSome &&
    (reconcileSession p.pushHint p.nowMs otherLiveCalls held.callerNumber).isSome

theorem verifySession_isSome (p : Phone) (held : HeldInvite) :
    (verifySession p held).isSome = verifies p (Softphone.line p).seats.length held := by
  rw [← length_line]
  unfold verifySession verifies
  split
  · next hreason =>
    split
    · next hsession =>
      rw [hsession]
      cases p.companyId <;> simp [hreason]
    · next hsession =>
      rw [hsession]
      simp
  · next hreason => simp [hreason]

/-- Once a call has gone, the INVITE that gets its turn leaves nobody waiting. -/
def CalmsAfter (p : Phone) (l : Line) (endedRinging : Option CallSnapshot) : Prop :=
  match candidate p endedRinging with
  | none => l.Calm
  | some held => verifies p l.seats.length held = true ∨ (l.promote held.id).Calm

/-- **A promotion**, where a place may have come free. -/
theorem Makes.maybePromoteHeld (hw : Wired p) (endedRinging : Option CallSnapshot) :
    ∃ l, Makes p (maybePromoteHeld p endedRinging) l ∧
      ((Softphone.line p).seats.length ≤ maxConcurrentCalls →
        (l.Good ↔ CalmsAfter p (Softphone.line p) endedRinging)) := by
  unfold Softphone.maybePromoteHeld CalmsAfter
  by_cases hnone : p.heldInvites = []
  · have hcandidate : candidate p endedRinging = none := by
      cases endedRinging <;> simp [candidate, hnone]
    rw [if_pos hnone, hcandidate]
    exact ⟨_, .refl p, Line.Good.iff_calm⟩
  rw [if_neg hnone]
  have hceiling : atCeiling p = decide (maxConcurrentCalls ≤ (Softphone.line p).seats.length) := by
    rw [← length_line]
    rfl
  rw [hceiling]
  by_cases hfull : maxConcurrentCalls ≤ (Softphone.line p).seats.length
  · -- no place has come free
    rw [if_pos (by simpa using hfull)]
    refine ⟨_, .refl p, fun htwo =>
      (Line.Good.iff_calm htwo).trans (iff_of_true (Line.calm_of_full hfull) ?_)⟩
    split
    · exact Line.calm_of_full hfull
    · refine .inr (Line.calm_of_full ?_)
      rwa [Line.promote_seats_of_full hfull]
  · rw [if_neg (by simpa using hfull)]
    cases hcandidate : candidate p endedRinging with
    | none => exact ⟨_, .refl p, Line.Good.iff_calm⟩
    | some held =>
      have hverifies := verifySession_isSome p held
      dsimp only
      cases hverify : verifySession p held with
      | none =>
        have hnot : verifies p (Softphone.line p).seats.length held = false := by
          rw [← hverifies, hverify]
          rfl
        refine ⟨_, .promoteHeld hw held.id, fun htwo => ?_⟩
        rw [Line.Good.iff_calm (Line.promote_length htwo held.id), hnot]
        simp
      | some session =>
        have hyes : verifies p (Softphone.line p).seats.length held = true := by
          rw [← hverifies, hverify]
          rfl
        refine ⟨{ Softphone.line p with decisions := p.decisions ++ [(held.id, session)] },
          ⟨rfl, fun h => h⟩, fun htwo => iff_of_true ⟨htwo, fun h => ?_⟩ (.inl hyes)⟩
        simp at h

/-- A call that the list shows ended is not watched, so that a report comes of one that is live. -/
theorem Wired.live (hw : Wired p) (hhandle : p.handles id = true) :
    ∀ c ∈ p.state.calls, c.id = id → c.phase ≠ .ended := by
  intro c hc hid hended
  exact absurd (hhandle.symm.trans ((hw id).ended ⟨c, hc, hid, hended⟩)) (by decide)

theorem seats_ended (s : SoftphoneSnapshot) (id : CallId) :
    seats (sdkPhase s id .ended) = (seats s).filter fun t => !(t.id == id) :=
  seats_sdkPhase_ended s id

theorem Makes.reported {phase : CallPhase} (hw : Wired p) (hended : phase ≠ .ended)
    (commands : List (CallId × Command)) :
    Makes p (report { p with commands := commands } id phase) (Softphone.line p) := by
  rw [report_other commands hended]
  split
  · next hhandle =>
    by_cases hcall : hasCall p.state id = true
    · have hseats : seats (sdkPhase p.state id phase) = seats p.state :=
        seats_sdkPhase hended (hw.live hhandle)
      by_cases hactive : phase = .active
      · subst hactive
        rw [onPhase_active (p := enters p id .active commands) hcall]
        refine Makes.then_still (q := { heard (enters p id .active commands) id .active with
          state := activate p.state id
          ringFirstSeenMs := Function.update p.ringFirstSeenMs id none }) ?_ (.holdActive _ _ _)
        refine ⟨?_, fun htidy => htidy.activate id⟩
        rw [sdkPhase_active hcall] at hseats
        simp only [Softphone.line, hseats]
        rfl
      · rw [onPhase_other (p := enters p id phase commands) hcall hactive hended]
        refine ⟨?_, fun htidy => htidy.sdkPhase id phase⟩
        simp only [Softphone.line, heard, enters, hseats]
    · have hcall : hasCall p.state id = false := by simpa using hcall
      rw [onPhase_of_not_hasCall (p := enters p id phase commands) hcall]
      exact .still rfl rfl rfl rfl
  · exact .still rfl rfl rfl rfl

/-- What the end of a call leaves is calm. -/
def CalmsWithout (p : Phone) (id : CallId) : Prop :=
  p.handles id = true → ∀ prev, callOf p.state id = some prev →
    CalmsAfter p ((Softphone.line p).without (· == id))
      (if prev.phase = .ringing ∧ prev.direction = .inbound then some prev else none)

theorem Makes.ended (hw : Wired p) (hborn : p.sdk id ≠ none)
    (commands : List (CallId × Command)) :
    ∃ l, Makes p (report { p with commands := commands } id .ended) l ∧
      ((Softphone.line p).Good → (l.Good ↔ CalmsWithout p id)) := by
  rw [report_ended]
  by_cases hhandle : p.handles id = true
  · rw [if_pos hhandle]
    cases hprev : callOf p.state id with
    | none =>
      have hcall : hasCall p.state id = false := by
        rw [hasCall_eq_isSome, hprev]
        rfl
      rw [onPhase_of_not_hasCall (p := enters p id .ended (commands.filter (·.1 != id))) hcall]
      refine ⟨_, .still rfl rfl rfl rfl, fun hl => iff_of_true hl fun _ prev h => ?_⟩
      rw [hprev] at h
      cases h
    | some prev =>
      rw [onPhase_ended (p := enters p id .ended (commands.filter (·.1 != id))) hprev]
      have hforgotten : Makes p (forgotten (enters p id .ended (commands.filter (·.1 != id))) id)
          ((Softphone.line p).without (· == id)) :=
        ⟨by simp only [Softphone.line, forgotten, heard, enters, Line.without, seats_ended],
          fun htidy => htidy.sdkPhase id .ended⟩
      obtain ⟨l, hmakes, hgood⟩ := Makes.maybePromoteHeld (hw.forgotten hborn hhandle _)
        (if prev.phase = .ringing ∧ prev.direction = .inbound then some prev else none)
      rw [hforgotten.line] at hgood
      refine ⟨l, hforgotten.trans hmakes, fun hl =>
        (hgood (Nat.le_trans (Line.without_length _ _) hl.two)).trans ?_⟩
      constructor
      · intro h _ prev' hprev'
        obtain rfl := Option.some.inj (hprev.symm.trans hprev')
        exact h
      · intro h
        exact h hhandle prev hprev
  · rw [if_neg hhandle]
    obtain ⟨hline, htidy⟩ := Makes.released
      (enters p id .ended (commands.filter (·.1 != id))) [id]
    refine ⟨_, ⟨hline, htidy⟩, fun hl => iff_of_true ?_ fun h => absurd h hhandle⟩
    exact hl.mono hl.two (Nat.le_refl _) (fun _ _ t ht h => ⟨t, ht, h⟩)
      (fun h hh => List.mem_of_mem_filter hh) (fun _ h => h) fun h => h

/-! ### Calls that go without a promotion -/

theorem Makes.dropRings (p : Phone) (ids : List CallId) :
    Makes p (ids.foldl dropRingingPresentation p)
      ((Softphone.line p).without fun id => ids.contains id) := by
  induction ids generalizing p with
  | nil =>
    refine ⟨?_, fun h => h⟩
    exact (Line.without_eq_self fun _ _ => rfl).symm
  | cons id ids ih =>
    have hfirst : Makes p (dropRingingPresentation p id)
        ((Softphone.line p).without (· == id)) :=
      ⟨by simp only [Softphone.line, dropRingingPresentation, Line.without, seats_ended],
        fun htidy => htidy.sdkPhase id .ended⟩
    obtain ⟨hline, htidy⟩ := ih (dropRingingPresentation p id)
    refine ⟨hline.trans ?_, htidy ∘ hfirst.tidy⟩
    rw [hfirst.line, Line.without_without]
    simp only [List.contains_cons]

theorem Makes.dropped (hstate : q.state = Softphone.dropped p.state id)
    (hheld : q.heldInvites = p.heldInvites) (hleft : q.leftRinging = p.leftRinging)
    (hdecisions : q.decisions = p.decisions) : Makes p q ((Softphone.line p).without (· == id)) :=
  ⟨by
    rw [Softphone.line, hstate, hheld, hleft, hdecisions, seats_dropped]
    rfl, hstate ▸ fun h => h.dropped id⟩

theorem Makes.failPlacements (p : Phone) (failed : List PendingPlacement) :
    Makes p (failed.foldl failPlacement p)
      ((Softphone.line p).without fun id => failed.any fun w => id == .placement w.session) := by
  induction failed generalizing p with
  | nil =>
    refine ⟨?_, fun h => h⟩
    exact (Line.without_eq_self fun _ _ => rfl).symm
  | cons w failed ih =>
    have hfirst : Makes p (failPlacement p w)
        ((Softphone.line p).without (· == .placement w.session)) := .dropped rfl rfl rfl rfl
    obtain ⟨hline, htidy⟩ := ih (failPlacement p w)
    refine ⟨hline.trans ?_, htidy ∘ hfirst.tidy⟩
    rw [hfirst.line, Line.without_without]
    simp only [List.any_cons]

theorem Makes.clientDeath (p : Phone) :
    ∃ l, Makes p (reapOnClientDeath p) l ∧ l.held = [] ∧
      l.seats.length ≤ (Softphone.line p).seats.length := by
  have hdropped := Makes.dropRings p ((p.state.calls.filter (·.phase == .ringing)).map (·.id))
  unfold reapOnClientDeath
  dsimp only
  generalize hq : List.foldl dropRingingPresentation p _ = q at hdropped
  have hreleased := Makes.released q (q.heldInvites.map (·.id))
  refine ⟨_, (hdropped.trans hreleased).trans (.failPlacements _ _), ?_, ?_⟩
  · rw [hreleased.line]
    refine List.filter_eq_nil_iff.2 fun h hh => ?_
    simpa using ⟨h, hh, rfl⟩
  · rw [hreleased.line]
    refine Nat.le_trans (Line.without_length _ _) ?_
    change (Softphone.line q).seats.length ≤ _
    rw [hdropped.line]
    exact Line.without_length _ _

theorem ringFirstSeenMs_dropRings (p : Phone) (ids : List CallId) (h : id ∉ ids) :
    (ids.foldl dropRingingPresentation p).ringFirstSeenMs id = p.ringFirstSeenMs id ∧
      (ids.foldl dropRingingPresentation p).nowMs = p.nowMs := by
  induction ids generalizing p with
  | nil => exact ⟨rfl, rfl⟩
  | cons other ids ih =>
    obtain ⟨hother, hids⟩ : id ≠ other ∧ id ∉ ids := by simpa using h
    obtain ⟨hclock, hnow⟩ := ih (dropRingingPresentation p other) hids
    exact ⟨hclock.trans (Function.update_of_ne hother _ _), hnow⟩

/-- The line after a sweep: rings and INVITEs whose time is over have gone. -/
def swept (p : Phone) : Line :=
  { (line p).without (fun id => (expiredRings p).contains id) with
    held := p.heldInvites.filter fun h => !isExpired p h.id }

theorem Makes.sweep (hw : Wired p) : Makes p (reapExpiredRings p) (swept p) := by
  have hdropped := Makes.dropRings p (expiredRings p)
  have hclock : ∀ h ∈ p.heldInvites,
      isExpired ((expiredRings p).foldl dropRingingPresentation p) h.id = isExpired p h.id := by
    intro h hh
    -- an INVITE that is held is no ring on the screen
    have hring : h.id ∉ expiredRings p := by
      intro hring
      obtain ⟨c, hc, hid⟩ := List.mem_map.1 hring
      have hheld : isHeld p h.id = true := List.any_eq_true.2 ⟨h, hh, by simp⟩
      exact ne_of_not_hasCall ((hw h.id).apart hheld).1 (List.mem_of_mem_filter hc) hid
    obtain ⟨hclock, hnow⟩ := ringFirstSeenMs_dropRings p (expiredRings p) hring
    rw [isExpired, hclock, hnow, isExpired]
  unfold reapExpiredRings swept
  dsimp only
  generalize List.foldl dropRingingPresentation p (expiredRings p) = q at hdropped hclock
  have hheld : q.heldInvites = p.heldInvites := congrArg Line.held hdropped.line
  have hreleased := Makes.released q
    ((q.heldInvites.filter fun h => isExpired q h.id).map (·.id))
  refine ⟨?_, hreleased.tidy ∘ hdropped.tidy⟩
  refine Eq.trans (b := Softphone.line (List.foldl releaseHeld q _)) rfl (hreleased.line.trans ?_)
  have hfilter : (q.heldInvites.filter fun h =>
      !((q.heldInvites.filter fun h => isExpired q h.id).map (·.id)).contains h.id) =
      p.heldInvites.filter fun h => !isExpired p h.id := by
    rw [hheld]
    refine List.filter_congr fun h hh => ?_
    rw [← hclock h hh, Bool.not_inj_iff, Bool.eq_iff_iff, List.contains_iff_mem]
    constructor
    · intro hmem
      obtain ⟨other, hother, hid⟩ := List.mem_map.1 hmem
      rw [← hid]
      exact (List.mem_filter.1 hother).2
    · intro hexpired
      exact List.mem_map.2 ⟨h, List.mem_filter.2 ⟨hh, hexpired⟩, rfl⟩
  rw [hfilter, hdropped.line]

/-! ### The other steps -/

theorem Makes.dismiss (hd : Tidy p.state) (id : CallId) :
    Makes p (dismiss p id) (Softphone.line p) := by
  unfold Softphone.dismiss
  split
  · exact .refl p
  · next call hcall =>
    split
    · next hended =>
      have hdropped : Makes p { p with state := dismissed p.state id } _ :=
        .dropped rfl rfl rfl rfl
      rwa [Line.without_eq_self fun t ht => ?_] at hdropped
      obtain ⟨c, hc, hlive, rfl⟩ := mem_seats.1 ht
      refine Bool.eq_false_iff.2 fun hid => ?_
      obtain rfl := hd.eq_of_callOf hcall hc (by simpa [CallSnapshot.seat] using hid)
      exact hlive hended
    · exact .refl p

theorem Makes.resolved (hd : Tidy p.state) (id : CallId) (sessionId : String) :
    ∃ l, Makes p (resolved p id sessionId) l ∧
      l.seats.length = (Softphone.line p).seats.length ∧ l.held = p.heldInvites ∧
      l.left = p.leftRinging ∧ l.decisions = p.decisions ∧
      ∀ h, ∀ t ∈ (Softphone.line p).seats, accompanies t h = true →
        ∃ t' ∈ l.seats, accompanies t' h = true := by
  unfold Softphone.resolved
  split
  · next call hcall =>
    split
    · exact ⟨_, .refl p, rfl, rfl, rfl, rfl, fun h t ht hyes => ⟨t, ht, hyes⟩⟩
    · next hsession =>
      have hmakes : Makes p { p with state := sessionKnown p.state id sessionId }
          { Softphone.line p with
            seats := (Softphone.line p).seats.map fun t =>
              if t.id = id then { t with sessionId := some sessionId } else t } :=
        ⟨by simp only [Softphone.line, seats_sessionKnown],
          fun htidy => htidy.sessionKnown id sessionId⟩
      refine ⟨_, hmakes, List.length_map .., rfl, rfl, rfl, fun h t ht hyes =>
        ⟨_, List.mem_map.2 ⟨t, ht, rfl⟩, ?_⟩⟩
      by_cases hid : t.id = id
      · -- the call has had no session, so that it is its caller the INVITE goes by
        have hnone : t.sessionId = none := by
          obtain ⟨c, hc, -, rfl⟩ := mem_seats.1 ht
          obtain rfl := hd.eq_of_callOf hcall hc (by simpa [CallSnapshot.seat] using hid)
          simpa [CallSnapshot.seat] using hsession
        simp only [accompanies, hnone, Bool.and_eq_true, beq_iff_eq, Bool.or_eq_true] at hyes
        obtain ⟨hinbound, hsession | hcaller⟩ := hyes
        · rw [hsession.2] at hsession
          exact absurd hsession.1 (by decide)
        · simp [accompanies, hid, hinbound, hcaller]
      · rwa [if_neg hid]
  · exact ⟨_, .refl p, rfl, rfl, rfl, rfl, fun h t ht hyes => ⟨t, ht, hyes⟩⟩

end

end Softphone
