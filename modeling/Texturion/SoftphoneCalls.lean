/-
**The calls on the phone's screen.**

`CallStateMachine.kt` and `CallWakePolicy.kt` of the Android app: the list of calls a member sees,
with the one whose audio is flowing, and what each event makes of the list; and the pure decisions
about callers, hints and ring times the softphone takes.  A call that is ringing and ends goes
without a trace, any other that ends stays as an ended chip until it is dismissed.

Of a call only what these functions look at is here: its name, its mute flag and the moment it went
live are left out.

Main result:

* `Softphone.shows_activate_self`, `Softphone.shows_activate_of_ne`, `Softphone.shows_sdkPhase_of_ne`
  — the phases the list shows after a report.
-/

import Mathlib.Data.List.Basic
import Mathlib.Data.Int.Notation

namespace Softphone

/-! ### The list -/

inductive CallDirection
  | inbound
  | outbound
  deriving DecidableEq

inductive CallPhase
  | ringing
  | connecting
  | active
  | held
  | ended
  deriving DecidableEq

/-- The id of a call: `placement:<S>` for the chip of a placement whose leg has not come yet, or
the id the SDK has given the leg. -/
inductive CallId
  | placement (session : String)
  | leg (id : String)
  deriving DecidableEq

def placementSession : CallId → Option String
  | .placement session => some session
  | .leg _ => none

structure CallSnapshot where
  id : CallId
  direction : CallDirection
  peerNumber : String
  phase : CallPhase
  sessionId : Option String
  silenced : Bool
  deriving DecidableEq

structure SoftphoneSnapshot where
  calls : List CallSnapshot
  activeId : Option CallId
  deriving DecidableEq

def maxConcurrentCalls : ℕ := 2

/-- `it.phase != CallPhase.ENDED`. -/
def CallSnapshot.isLive (c : CallSnapshot) : Bool := decide (c.phase ≠ .ended)

def liveCalls (s : SoftphoneSnapshot) : List CallSnapshot := s.calls.filter (·.isLive)

def callOf (s : SoftphoneSnapshot) (id : CallId) : Option CallSnapshot :=
  s.calls.find? (·.id == id)

def hasCall (s : SoftphoneSnapshot) (id : CallId) : Bool := s.calls.any (·.id == id)

/-! ### The reducer -/

/-- `if (state.activeId == id) null else state.activeId`. -/
def activeUnless (s : SoftphoneSnapshot) (id : CallId) : Option CallId :=
  if s.activeId = some id then none else s.activeId

def placing (s : SoftphoneSnapshot) (call : CallSnapshot) : SoftphoneSnapshot where
  calls := liveCalls s ++ [{ call with phase := .connecting, direction := .outbound }]
  activeId := some call.id

def incoming (s : SoftphoneSnapshot) (call : CallSnapshot) : SoftphoneSnapshot :=
  if hasCall s call.id then s
  else { s with calls := liveCalls s ++ [{ call with phase := .ringing, direction := .inbound }] }

def update (s : SoftphoneSnapshot) (id : CallId) (patch : CallSnapshot → CallSnapshot) :
    SoftphoneSnapshot :=
  { s with calls := s.calls.map fun c => if c.id = id then patch c else c }

def sessionKnown (s : SoftphoneSnapshot) (id : CallId) (sessionId : String) : SoftphoneSnapshot :=
  update s id fun c => { c with sessionId := some sessionId }

def placementConnected (s : SoftphoneSnapshot) (placementId id : CallId) (sessionId : String) :
    SoftphoneSnapshot :=
  if hasCall s placementId then
    { calls := s.calls.map fun c =>
        if c.id = placementId then { c with id := id, sessionId := some sessionId } else c
      activeId := if s.activeId = some placementId then some id else s.activeId }
  else s

/-- A call leaves the list: what `placementFailed` and `dismissed` have in common. -/
def dropped (s : SoftphoneSnapshot) (id : CallId) : SoftphoneSnapshot where
  calls := s.calls.filter (·.id != id)
  activeId := activeUnless s id

def placementFailed (s : SoftphoneSnapshot) (placementId : CallId) : SoftphoneSnapshot :=
  dropped s placementId

def dismissed (s : SoftphoneSnapshot) (id : CallId) : SoftphoneSnapshot := dropped s id

def presentationSilenced (s : SoftphoneSnapshot) (id : CallId) : SoftphoneSnapshot :=
  update s id fun c => if c.phase = .ringing then { c with silenced := true } else c

def activated (id : CallId) (c : CallSnapshot) : CallSnapshot :=
  if c.id = id then { c with phase := .active, silenced := false }
  else if c.phase = .active then { c with phase := .held }
  else c

def activate (s : SoftphoneSnapshot) (id : CallId) : SoftphoneSnapshot where
  calls := s.calls.map (activated id)
  activeId := some id

def sdkPhase (s : SoftphoneSnapshot) (id : CallId) (phase : CallPhase) : SoftphoneSnapshot :=
  match callOf s id with
  | none => s
  | some call =>
      if call.phase = .ringing then
        match phase with
        | .active => activate s id
        | .ended => dropped s id
        | _ => s
      else
        match phase with
        | .active => activate s id
        | .ended =>
            { update s id (fun c => { c with phase := .ended }) with activeId := activeUnless s id }
        | .held =>
            { update s id (fun c => { c with phase := .held }) with activeId := activeUnless s id }
        | .ringing => update s id fun c => { c with phase := .connecting }
        | .connecting => update s id fun c => { c with phase := .connecting }

/-! ### Who is on the line -/

/-- A call that has not ended, without its phase. -/
structure Seat where
  id : CallId
  direction : CallDirection
  peerNumber : String
  sessionId : Option String
  deriving DecidableEq

def CallSnapshot.seat (c : CallSnapshot) : Seat where
  id := c.id
  direction := c.direction
  peerNumber := c.peerNumber
  sessionId := c.sessionId

def seats (s : SoftphoneSnapshot) : List Seat := (liveCalls s).map (·.seat)

theorem length_liveCalls (s : SoftphoneSnapshot) : (liveCalls s).length = (seats s).length := by
  simp [seats]

theorem mem_seats {s : SoftphoneSnapshot} {t : Seat} :
    t ∈ seats s ↔ ∃ c ∈ s.calls, c.phase ≠ .ended ∧ c.seat = t := by
  simp [seats, liveCalls, CallSnapshot.isLive, and_assoc]

theorem seats_placing (s : SoftphoneSnapshot) (call : CallSnapshot) :
    seats (placing s call) = seats s ++ [{ call.seat with direction := .outbound }] := by
  simp [seats, liveCalls, placing, List.filter_append, CallSnapshot.isLive, CallSnapshot.seat]

variable {call : CallSnapshot} {patch : CallSnapshot → CallSnapshot}

theorem seats_incoming {s : SoftphoneSnapshot} (h : hasCall s call.id = false) :
    seats (incoming s call) = seats s ++ [{ call.seat with direction := .inbound }] := by
  simp [seats, liveCalls, incoming, h, List.filter_append, CallSnapshot.isLive, CallSnapshot.seat]

theorem seats_dropped (s : SoftphoneSnapshot) (id : CallId) :
    seats (dropped s id) = (seats s).filter (·.id != id) := by
  simp only [seats, liveCalls, dropped, List.filter_map, List.filter_filter]
  congr 1
  refine List.filter_congr fun c _ => ?_
  rw [Bool.and_comm]
  rfl

theorem seats_map {calls : List CallSnapshot} {f : CallSnapshot → CallSnapshot}
    (hf : ∀ c ∈ calls, (f c).isLive = c.isLive ∧ (f c).seat = c.seat)
    (activeId activeId' : Option CallId) :
    seats ⟨calls.map f, activeId⟩ = seats ⟨calls, activeId'⟩ := by
  have hlive : calls.filter ((fun c => c.isLive) ∘ f) = calls.filter (·.isLive) :=
    List.filter_congr fun c hc => (hf c hc).1
  simp only [seats, liveCalls, List.filter_map, List.map_map, hlive]
  exact List.map_congr_left fun c hc => (hf c (List.mem_of_mem_filter hc)).2

theorem seats_update {s : SoftphoneSnapshot} {id : CallId}
    (h : ∀ c ∈ s.calls, c.id = id → (patch c).isLive = c.isLive ∧ (patch c).seat = c.seat) :
    seats (update s id patch) = seats s := by
  refine seats_map (fun c hc => ?_) _ _
  by_cases hid : c.id = id
  · simpa [hid] using h c hc hid
  · simp [hid]

theorem seats_presentationSilenced (s : SoftphoneSnapshot) (id : CallId) :
    seats (presentationSilenced s id) = seats s := by
  refine seats_update fun c _ _ => ?_
  split <;> exact ⟨rfl, rfl⟩

theorem seats_activate {s : SoftphoneSnapshot} {id : CallId}
    (h : ∀ c ∈ s.calls, c.id = id → c.phase ≠ .ended) : seats (activate s id) = seats s := by
  refine seats_map (fun c hc => ?_) _ _
  unfold activated
  by_cases hid : c.id = id
  · simp [hid, CallSnapshot.isLive, CallSnapshot.seat, h c hc hid]
  · by_cases hactive : c.phase = .active
    · simp [hid, hactive, CallSnapshot.isLive, CallSnapshot.seat]
    · simp [hid, hactive]

theorem seats_sdkPhase {s : SoftphoneSnapshot} {id : CallId} {phase : CallPhase}
    (hphase : phase ≠ .ended) (h : ∀ c ∈ s.calls, c.id = id → c.phase ≠ .ended) :
    seats (sdkPhase s id phase) = seats s := by
  have hpatch : ∀ ph : CallPhase, ph ≠ .ended →
      seats (update s id fun c => { c with phase := ph }) = seats s := by
    intro ph hph
    refine seats_update fun c hc hid => ?_
    simp [CallSnapshot.isLive, CallSnapshot.seat, hph, h c hc hid]
  unfold sdkPhase
  split
  · rfl
  · split
    · cases phase with
      | active => exact seats_activate h
      | ended => exact absurd rfl hphase
      | ringing | connecting | held => rfl
    · cases phase with
      | active => exact seats_activate h
      | ended => exact absurd rfl hphase
      | ringing | connecting => exact hpatch .connecting (by decide)
      | held => exact hpatch .held (by decide)

theorem seats_sdkPhase_ended (s : SoftphoneSnapshot) (id : CallId) :
    seats (sdkPhase s id .ended) = (seats s).filter (·.id != id) := by
  unfold sdkPhase
  split
  · next hnone =>
      have habsent : ∀ c ∈ s.calls, c.id ≠ id := by
        simpa [callOf] using hnone
      refine (List.filter_eq_self.2 fun t ht => ?_).symm
      obtain ⟨c, hc, -, rfl⟩ := mem_seats.1 ht
      simpa [CallSnapshot.seat] using habsent c hc
  · split
    · exact seats_dropped s id
    · simp only [seats, liveCalls, update, List.filter_map, List.map_map]
      induction s.calls with
      | nil => rfl
      | cons c calls ih =>
          by_cases hid : c.id = id
          · by_cases hlive : c.isLive = true <;>
              simp_all [CallSnapshot.isLive, CallSnapshot.seat]
          · by_cases hlive : c.isLive = true <;>
              simp_all [CallSnapshot.isLive, CallSnapshot.seat]

/-! ### The phases the list shows -/

def shows (s : SoftphoneSnapshot) (id : CallId) (phase : CallPhase) : Prop :=
  ∃ c ∈ s.calls, c.id = id ∧ c.phase = phase

instance (s : SoftphoneSnapshot) (id : CallId) (phase : CallPhase) : Decidable (shows s id phase) :=
  inferInstanceAs (Decidable (∃ c ∈ s.calls, c.id = id ∧ c.phase = phase))

theorem hasCall_iff {s : SoftphoneSnapshot} {id : CallId} :
    hasCall s id = true ↔ ∃ phase, shows s id phase := by
  constructor
  · intro h
    obtain ⟨c, hc, hid⟩ := List.any_eq_true.1 h
    exact ⟨c.phase, c, hc, by simpa using hid, rfl⟩
  · rintro ⟨phase, c, hc, hid, -⟩
    exact List.any_eq_true.2 ⟨c, hc, by simpa using hid⟩

theorem hasCall_eq_isSome (s : SoftphoneSnapshot) (id : CallId) :
    hasCall s id = (callOf s id).isSome := by
  rw [Bool.eq_iff_iff, hasCall, callOf, List.any_eq_true, List.find?_isSome]

theorem shows_of_callOf {s : SoftphoneSnapshot} {id : CallId} {c : CallSnapshot}
    (h : callOf s id = some c) : shows s id c.phase :=
  ⟨c, List.mem_of_find?_eq_some h, by simpa using List.find?_some h, rfl⟩

section

variable {s : SoftphoneSnapshot} {id id' : CallId} {phase x : CallPhase}

theorem shows_placing :
    shows (placing s call) id x ↔
      (shows s id x ∧ x ≠ .ended) ∨ (call.id = id ∧ x = .connecting) := by
  simp only [shows, placing, List.mem_append, List.mem_singleton, liveCalls, List.mem_filter,
    CallSnapshot.isLive, decide_eq_true_eq]
  constructor
  · rintro ⟨c, ⟨hc, hlive⟩ | rfl, hid, rfl⟩
    · exact .inl ⟨⟨c, hc, hid, rfl⟩, hlive⟩
    · exact .inr ⟨hid, rfl⟩
  · rintro (⟨⟨c, hc, hid, rfl⟩, hlive⟩ | ⟨hid, rfl⟩)
    · exact ⟨c, .inl ⟨hc, hlive⟩, hid, rfl⟩
    · exact ⟨_, .inr rfl, hid, rfl⟩

theorem shows_incoming (hnew : hasCall s call.id = false) :
    shows (incoming s call) id x ↔ (shows s id x ∧ x ≠ .ended) ∨ (call.id = id ∧ x = .ringing) := by
  simp only [shows, incoming, hnew, List.mem_append, List.mem_singleton, liveCalls,
    List.mem_filter, CallSnapshot.isLive, decide_eq_true_eq, Bool.false_eq_true, if_false]
  constructor
  · rintro ⟨c, ⟨hc, hlive⟩ | rfl, hid, rfl⟩
    · exact .inl ⟨⟨c, hc, hid, rfl⟩, hlive⟩
    · exact .inr ⟨hid, rfl⟩
  · rintro (⟨⟨c, hc, hid, rfl⟩, hlive⟩ | ⟨hid, rfl⟩)
    · exact ⟨c, .inl ⟨hc, hlive⟩, hid, rfl⟩
    · exact ⟨_, .inr rfl, hid, rfl⟩

theorem shows_dropped : shows (dropped s id') id x ↔ shows s id x ∧ id ≠ id' := by
  simp only [shows, dropped, List.mem_filter, bne_iff_ne]
  constructor
  · rintro ⟨c, ⟨hc, hne⟩, rfl, rfl⟩
    exact ⟨⟨c, hc, rfl, rfl⟩, hne⟩
  · rintro ⟨⟨c, hc, rfl, rfl⟩, hne⟩
    exact ⟨c, ⟨hc, hne⟩, rfl, rfl⟩

/-- A change of the calls that keeps ids, by what it does to each phase. -/
theorem shows_map {calls : List CallSnapshot} {f : CallSnapshot → CallSnapshot}
    (hid : ∀ c, (f c).id = c.id) (activeId : Option CallId) :
    shows ⟨calls.map f, activeId⟩ id x ↔ ∃ c ∈ calls, c.id = id ∧ (f c).phase = x := by
  simp only [shows, List.mem_map]
  constructor
  · rintro ⟨-, ⟨c, hc, rfl⟩, h, rfl⟩
    exact ⟨c, hc, by rw [← hid c, h], rfl⟩
  · rintro ⟨c, hc, rfl, rfl⟩
    exact ⟨f c, ⟨c, hc, rfl⟩, hid c, rfl⟩

theorem shows_update (h : ∀ c, (patch c).id = c.id ∧ (patch c).phase = c.phase) :
    shows (update s id' patch) id x ↔ shows s id x := by
  rw [update, shows_map fun c => by split <;> simp [h]]
  refine exists_congr fun c => and_congr_right fun _ => and_congr_right fun _ => ?_
  split <;> simp [h]

theorem shows_presentationSilenced : shows (presentationSilenced s id') id x ↔ shows s id x := by
  refine shows_update fun c => ?_
  split <;> exact ⟨rfl, rfl⟩

theorem shows_placementConnected {pid : CallId} {sessionId : String} (h : hasCall s pid = true) :
    shows (placementConnected s pid id' sessionId) id x ↔
      (shows s id x ∧ id ≠ pid) ∨ (id' = id ∧ shows s pid x) := by
  simp only [shows, placementConnected, h, if_true, List.mem_map]
  constructor
  · rintro ⟨-, ⟨c, hc, rfl⟩, hid, rfl⟩
    by_cases hp : c.id = pid
    · exact .inr ⟨by simpa [hp] using hid, c, hc, hp, by simp [hp]⟩
    · refine .inl ⟨⟨c, hc, by simpa [hp] using hid, by simp [hp]⟩, ?_⟩
      rintro rfl
      simp [hp] at hid
  · rintro (⟨⟨c, hc, rfl, rfl⟩, hne⟩ | ⟨rfl, c, hc, rfl, rfl⟩)
    · exact ⟨c, ⟨c, hc, by simp [hne]⟩, rfl, rfl⟩
    · exact ⟨_, ⟨c, hc, rfl⟩, by simp, by simp⟩

theorem activated_id (id : CallId) (c : CallSnapshot) : (activated id c).id = c.id := by
  unfold activated
  split
  · rfl
  · split <;> rfl

theorem shows_activate_self : shows (activate s id) id x ↔ hasCall s id = true ∧ x = .active := by
  rw [activate, shows_map (activated_id id), hasCall_iff]
  constructor
  · rintro ⟨c, hc, rfl, rfl⟩
    exact ⟨⟨c.phase, c, hc, rfl, rfl⟩, by simp [activated]⟩
  · rintro ⟨⟨phase, c, hc, rfl, -⟩, rfl⟩
    exact ⟨c, hc, rfl, by simp [activated]⟩

theorem shows_activate_of_ne (hne : id ≠ id') :
    shows (activate s id') id x ↔
      (shows s id x ∧ x ≠ .active) ∨ (x = .held ∧ shows s id .active) := by
  rw [activate, shows_map (activated_id id')]
  constructor
  · rintro ⟨c, hc, rfl, rfl⟩
    by_cases hactive : c.phase = .active
    · exact .inr ⟨by simp [activated, hne, hactive], c, hc, rfl, hactive⟩
    · refine .inl ⟨⟨c, hc, rfl, ?_⟩, ?_⟩ <;> simp [activated, hne, hactive]
  · rintro (⟨⟨c, hc, rfl, rfl⟩, hactive⟩ | ⟨rfl, c, hc, rfl, hactive⟩)
    · exact ⟨c, hc, rfl, by simp [activated, hne, hactive]⟩
    · exact ⟨c, hc, rfl, by simp [activated, hne, hactive]⟩

theorem shows_setPhase_self :
    shows (update s id fun c => { c with phase := phase }) id x ↔
      hasCall s id = true ∧ x = phase := by
  rw [update, shows_map fun c => by split <;> rfl, hasCall_iff]
  constructor
  · rintro ⟨c, hc, rfl, rfl⟩
    exact ⟨⟨c.phase, c, hc, rfl, rfl⟩, by simp⟩
  · rintro ⟨⟨ph, c, hc, rfl, -⟩, rfl⟩
    exact ⟨c, hc, rfl, by simp⟩

theorem shows_update_of_ne (hid : ∀ c, (patch c).id = c.id)
    (hne : id ≠ id') : shows (update s id' patch) id x ↔ shows s id x := by
  rw [update, shows_map fun c => by split <;> simp [hid]]
  refine exists_congr fun c => and_congr_right fun _ => and_congr_right fun hc => ?_
  rw [if_neg (by rw [hc]; exact hne)]

/-- A report that is not `active` leaves the other calls as they are shown. -/
theorem shows_sdkPhase_of_ne (hne : id ≠ id') (hphase : phase ≠ .active) :
    shows (sdkPhase s id' phase) id x ↔ shows s id x := by
  have hset : ∀ ph : CallPhase,
      shows (update s id' fun c => { c with phase := ph }) id x ↔ shows s id x :=
    fun ph => shows_update_of_ne (fun _ => rfl) hne
  unfold sdkPhase
  split
  · exact Iff.rfl
  · split
    · cases phase with
      | active => exact absurd rfl hphase
      | ended => exact shows_dropped.trans (and_iff_left hne)
      | ringing | connecting | held => exact Iff.rfl
    · cases phase with
      | active => exact absurd rfl hphase
      | ended => exact hset .ended
      | ringing | connecting => exact hset .connecting
      | held => exact hset .held

theorem sdkPhase_of_not_hasCall (h : hasCall s id = false) : sdkPhase s id phase = s := by
  rw [hasCall_eq_isSome, Option.isSome_eq_false_iff, Option.isNone_iff_eq_none] at h
  unfold sdkPhase
  rw [h]

theorem activeUnless_eq_some (hne : id ≠ id') :
    activeUnless s id' = some id ↔ s.activeId = some id := by
  unfold activeUnless
  split
  · next h => simp [h, Ne.symm hne]
  · exact Iff.rfl

theorem activeId_sdkPhase_of_ne (hne : id ≠ id') (hphase : phase ≠ .active) :
    (sdkPhase s id' phase).activeId = some id ↔ s.activeId = some id := by
  unfold sdkPhase
  split
  · exact Iff.rfl
  · split
    · cases phase with
      | active => exact absurd rfl hphase
      | ended => exact activeUnless_eq_some hne
      | ringing | connecting | held => exact Iff.rfl
    · cases phase with
      | active => exact absurd rfl hphase
      | ended => exact activeUnless_eq_some hne
      | ringing | connecting => exact Iff.rfl
      | held => exact activeUnless_eq_some hne

theorem shows_sdkPhase_ended (h : shows (sdkPhase s id .ended) id x) : x = .ended := by
  unfold sdkPhase at h
  split at h
  · next hnone =>
      have hcall := hasCall_iff.2 ⟨x, h⟩
      rw [hasCall_eq_isSome, hnone] at hcall
      cases hcall
  · split at h
    · exact absurd rfl (shows_dropped.1 h).2
    · exact (shows_setPhase_self.1 h).2

theorem shows_sdkPhase_held (hring : ¬shows s id .ringing) :
    shows (sdkPhase s id .held) id x ↔ hasCall s id = true ∧ x = .held := by
  unfold sdkPhase
  split
  · next hnone =>
      rw [hasCall_eq_isSome, hnone]
      refine ⟨fun h => ?_, fun h => absurd h.1 (by simp)⟩
      have hcall := hasCall_iff.2 ⟨x, h⟩
      rw [hasCall_eq_isSome, hnone] at hcall
      cases hcall
  · next call hcall =>
      split
      · next hphase => exact absurd (hphase ▸ shows_of_callOf hcall) hring
      · exact shows_setPhase_self

theorem shows_sdkPhase_connecting (h : shows (sdkPhase s id .connecting) id x) :
    shows s id x ∨ x = .connecting := by
  unfold sdkPhase at h
  split at h
  · exact .inl h
  · split at h
    · exact .inl h
    · exact .inr (shows_setPhase_self.1 h).2

theorem shows_sdkPhase_connecting_of (h : shows s id x) :
    shows (sdkPhase s id .connecting) id x ∨ shows (sdkPhase s id .connecting) id .connecting := by
  unfold sdkPhase
  split
  · exact .inl h
  · split
    · exact .inl h
    · exact .inr (shows_setPhase_self.2 ⟨hasCall_iff.2 ⟨x, h⟩, rfl⟩)

theorem sdkPhase_active (h : hasCall s id = true) : sdkPhase s id .active = activate s id := by
  obtain ⟨c, hc⟩ := Option.isSome_iff_exists.1 (hasCall_eq_isSome s id ▸ h)
  unfold sdkPhase
  rw [hc]
  exact ite_self _

end

/-! ### Callers, hints and ring times -/

/-- The digits `0` of the scripts whose digits are one UTF-16 unit: `Char.isDigit` is true of these
and the nine after each. -/
def digitZeros : List ℕ :=
  [0x30, 0x660, 0x6F0, 0x7C0, 0x966, 0x9E6, 0xA66, 0xAE6, 0xB66, 0xBE6, 0xC66, 0xCE6, 0xD66, 0xDE6,
    0xE50, 0xED0, 0xF20, 0x1040, 0x1090, 0x17E0, 0x1810, 0x1946, 0x19D0, 0x1A80, 0x1A90, 0x1B50,
    0x1BB0, 0x1C40, 0x1C50, 0xA620, 0xA8D0, 0xA900, 0xA9D0, 0xA9F0, 0xAA50, 0xABF0, 0xFF10]

def isDigit (c : Char) : Bool := digitZeros.any fun z => z ≤ c.toNat && c.toNat < z + 10

/-- The last ten digits of a number that has at least seven. -/
def callerDigits (raw : Option String) : Option (List Char) :=
  match raw with
  | none => none
  | some text =>
      let digits := text.toList.filter isDigit
      if 7 ≤ digits.length then some (digits.drop (digits.length - 10)) else none

def sameCaller (a b : Option String) : Bool :=
  match callerDigits a, callerDigits b with
  | some da, some db => da == db
  | _, _ => false

def callerMismatch (a b : Option String) : Bool :=
  match callerDigits a, callerDigits b with
  | some da, some db => da != db
  | _, _ => false

def holdInviteSilent (inboundCallers : List String) (inviteCaller : String) : Bool :=
  inboundCallers.any fun number => sameCaller (some number) (some inviteCaller)

def hintWindowMs : ℤ := 90000

def ringTtlMs : ℤ := 55000

def ringExpired (firstSeenMs nowMs : ℤ) : Bool :=
  firstSeenMs ≤ nowMs && ringTtlMs ≤ nowMs - firstSeenMs

/-- `Char.isWhitespace`. -/
def isWhitespace (c : Char) : Bool :=
  let n := c.toNat
  (0x09 ≤ n && n ≤ 0x0D) || (0x1C ≤ n && n ≤ 0x20) || n == 0xA0 || n == 0x1680 ||
    (0x2000 ≤ n && n ≤ 0x200A) || n == 0x2028 || n == 0x2029 || n == 0x202F || n == 0x205F ||
    n == 0x3000

def isBlank (text : String) : Bool := text.toList.all isWhitespace

/-- A state the server gives, other than `ringing`; none is "could not tell". -/
def isRingingExit (state : Option String) : Bool := state.isSome && state != some "ringing"

/-- The hint a wake push has left: the session, its caller and when. -/
structure Hint where
  session : Option String
  caller : Option String
  atMs : Option ℤ
  deriving DecidableEq

def Hint.isFresh (h : Hint) (nowMs : ℤ) : Bool :=
  match h.atMs with
  | none => false
  | some atMs => !(hintWindowMs < nowMs - atMs || nowMs < atMs)

/-- The session an INVITE is to be reconciled against, if the hint names one without ambiguity. -/
def reconcileSession (hint : Hint) (nowMs : ℤ) (otherLiveCalls : ℕ) (inviteCaller : String) :
    Option String :=
  match hint.session with
  | none => none
  | some session =>
      if isBlank session then none
      else if !hint.isFresh nowMs then none
      else if 0 < otherLiveCalls then none
      else if callerMismatch hint.caller (some inviteCaller) then none
      else some session

/-- The rings that stop presenting when a session has left ringing: those that carry the session,
else the only live call when the hint names the session without ambiguity. -/
def dismissalsForRingingExit (calls : List CallSnapshot) (sessionId : String) (hint : Hint)
    (nowMs : ℤ) : List CallId :=
  let direct := calls.filter fun c =>
    c.phase == .ringing && c.direction == .inbound && !c.silenced && c.sessionId == some sessionId
  if direct ≠ [] then direct.map (·.id)
  else if hint.session ≠ some sessionId then []
  else if !hint.isFresh nowMs then []
  else
    match calls.filter (·.isLive) with
    | [lone] =>
        if lone.phase ≠ .ringing ∨ lone.direction ≠ .inbound then []
        else if lone.silenced then []
        else if lone.sessionId.isSome && lone.sessionId != some sessionId then []
        else if callerMismatch hint.caller (some lone.peerNumber) then []
        else [lone.id]
    | _ => []

/-- The one ring a member-scoped decline takes down on this device. -/
def matchLocalRing (calls : List CallSnapshot) (hintCaller : Option String) : Option CallId :=
  match calls.filter fun c => c.phase == .ringing && c.direction == .inbound && !c.silenced with
  | [lone] => if callerMismatch hintCaller (some lone.peerNumber) then none else some lone.id
  | _ => none

end Softphone
