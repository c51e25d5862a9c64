/-
**At most one call is active.**

What the softphone's reducers are for: a line with a few calls on it of which one at most has its
audio, and the id of that one.  The line is said here by itself, with the moves that can happen to
it; each of the two reducers of `SoftphoneReducers.lean` makes one of these moves with each action,
so that what the moves keep is proved once and holds of both.

Main result:

* `Reducers.oneActive_and_alike` — **both reducers keep one active call, and agree**.
-/

import Mathlib.Data.List.Nodup
import Texturion.SoftphoneReducers

namespace Reducers

open Softphone (CallPhase)

/-! ### A line and its moves -/

/-- The calls of a member, each an id with its phase, and the active one. -/
structure Line (Id : Type) where
  seats : List (Id × CallPhase)
  activeId : Option Id

/-- What can happen to a line. -/
inductive Move (Id : Type)
  | keep
  /-- A call is placed, and is the active one at once. -/
  | place (id : Id)
  | ring (id : Id)
  | rename (old new : Id)
  | drop (id : Id)
  /-- A call goes active, and any other active one is held. -/
  | activate (id : Id)
  | connect (id : Id)
  | hold (id : Id)
  /-- A call is taken off hold. -/
  | resume (id : Id)
  | finish (id : Id)

section Moves

variable {Id : Type} [DecidableEq Id]

namespace Line

def ids (l : Line Id) : List Id := l.seats.map Prod.fst

def live (l : Line Id) : List (Id × CallPhase) := l.seats.filter (·.2 != .ended)

def setPhase (l : Line Id) (id : Id) (phase : CallPhase) : List (Id × CallPhase) :=
  l.seats.map fun seat => if seat.1 = id then (seat.1, phase) else seat

def apply (l : Line Id) : Move Id → Line Id
  | .keep => l
  | .place id => ⟨l.live ++ [(id, .connecting)], some id⟩
  | .ring id => ⟨l.live ++ [(id, .ringing)], l.activeId⟩
  | .rename old new =>
    ⟨l.seats.map fun seat => if seat.1 = old then (new, seat.2) else seat,
      if l.activeId = some old then some new else l.activeId⟩
  | .drop id => ⟨l.seats.filter (·.1 != id), activeUnless l.activeId id⟩
  | .activate id =>
    if id ∈ l.ids then
      ⟨l.seats.map fun seat =>
          if seat.1 = id then (seat.1, .active)
          else if seat.2 = .active then (seat.1, .held)
          else seat,
        some id⟩
    else l
  | .connect id => ⟨l.setPhase id .connecting, l.activeId⟩
  | .hold id => ⟨l.setPhase id .held, activeUnless l.activeId id⟩
  | .resume id => if id ∈ l.ids then ⟨l.setPhase id .active, some id⟩ else l
  | .finish id => ⟨l.setPhase id .ended, activeUnless l.activeId id⟩

def NamesLive (l : Line Id) : Prop :=
  ∀ id, l.activeId = some id → ∃ phase ≠ .ended, (id, phase) ∈ l.seats

def OneActive (l : Line Id) : Prop := (l.seats.filter (·.2 == .active)).length ≤ 1

def ActiveNamed (l : Line Id) : Prop := ∀ id, (id, .active) ∈ l.seats → l.activeId = some id

end Line

namespace Move

/-- A call that comes onto the line, or gets another id, has an id of its own. -/
def Fresh (l : Line Id) : Move Id → Prop
  | .place id => id ∉ l.ids
  | .ring id => id ∉ l.ids
  | .rename _ new => new ∉ l.ids
  | _ => True

/-- A call is taken off hold while no other is active. -/
def Alone (l : Line Id) : Move Id → Prop
  | .resume id => ∀ other, (other, .active) ∈ l.seats → other = id
  | _ => True

def PlacesAlone (l : Line Id) : Move Id → Prop
  | .place _ => ∀ id, (id, .active) ∉ l.seats
  | _ => True

/-- Nothing but its end is heard of a call that has ended. -/
def InTime (l : Line Id) : Move Id → Prop
  | .activate id => (id, .ended) ∉ l.seats
  | .connect id => (id, .ended) ∉ l.seats
  | .hold id => (id, .ended) ∉ l.seats
  | .resume id => (id, .ended) ∉ l.seats
  | _ => True

def followed : Move Id → Id → Id
  | .rename old new, id => if id = old then new else id
  | _, id => id

end Move

/-! ### Who is on the line after a move -/

variable {l : Line Id} {m : Move Id} {id other : Id} {phase : CallPhase}

omit [DecidableEq Id] in
theorem Line.mem_ids : other ∈ l.ids ↔ ∃ phase, (other, phase) ∈ l.seats := by
  simp [Line.ids]

omit [DecidableEq Id] in
theorem Line.mem_live : (other, phase) ∈ l.live ↔ (other, phase) ∈ l.seats ∧ phase ≠ .ended := by
  simp [Line.live]

theorem Line.mem_setPhase {new : CallPhase} :
    (other, phase) ∈ l.setPhase id new ↔
      other = id ∧ id ∈ l.ids ∧ phase = new ∨ other ≠ id ∧ (other, phase) ∈ l.seats := by
  rw [Line.setPhase, List.mem_map, Line.mem_ids]
  constructor
  · rintro ⟨⟨a, p⟩, hmem, heq⟩
    split_ifs at heq with ha
    · cases heq
      exact .inl ⟨ha, ⟨p, ha ▸ hmem⟩, rfl⟩
    · cases heq
      exact .inr ⟨ha, hmem⟩
  · rintro (⟨rfl, ⟨p, hmem⟩, rfl⟩ | ⟨hne, hmem⟩)
    · exact ⟨(other, p), hmem, if_pos rfl⟩
    · exact ⟨(other, phase), hmem, if_neg hne⟩

theorem Line.active_setPhase (new : CallPhase) (hnew : new ≠ .active)
    (h : (other, .active) ∈ l.setPhase id new) : (other, .active) ∈ l.seats ∧ other ≠ id := by
  rcases Line.mem_setPhase.1 h with ⟨-, -, heq⟩ | ⟨hne, hmem⟩
  · exact absurd heq.symm hnew
  · exact ⟨hmem, hne⟩

omit [DecidableEq Id] in
theorem Line.active_added (new : CallPhase) (hnew : new ≠ .active)
    (h : (other, .active) ∈ l.live ++ [(id, new)]) : (other, .active) ∈ l.seats := by
  rcases List.mem_append.1 h with hmem | hmem
  · exact (Line.mem_live.1 hmem).1
  · cases List.mem_singleton.1 hmem
    exact absurd rfl hnew

theorem Line.mem_rename {old new : Id} :
    (other, phase) ∈ (l.apply (.rename old new)).seats ↔
      other = new ∧ (old, phase) ∈ l.seats ∨ other ≠ old ∧ (other, phase) ∈ l.seats := by
  rw [Line.apply, List.mem_map]
  constructor
  · rintro ⟨⟨a, p⟩, hmem, heq⟩
    split_ifs at heq with ha
    · cases heq
      exact .inl ⟨rfl, ha ▸ hmem⟩
    · cases heq
      exact .inr ⟨ha, hmem⟩
  · rintro (⟨rfl, hmem⟩ | ⟨hne, hmem⟩)
    · exact ⟨(old, phase), hmem, if_pos rfl⟩
    · exact ⟨(other, phase), hmem, if_neg hne⟩

theorem Line.mem_activate (hid : id ∈ l.ids) :
    (other, phase) ∈ (l.apply (.activate id)).seats ↔
      other = id ∧ phase = .active ∨
        other ≠ id ∧ (phase = .held ∧ (other, .active) ∈ l.seats ∨
          phase ≠ .active ∧ (other, phase) ∈ l.seats) := by
  rw [Line.apply, if_pos hid, List.mem_map]
  constructor
  · rintro ⟨⟨a, p⟩, hmem, heq⟩
    split_ifs at heq with ha hp
    · cases heq
      exact .inl ⟨ha, rfl⟩
    · cases heq
      exact .inr ⟨ha, .inl ⟨rfl, (show p = .active from hp) ▸ hmem⟩⟩
    · cases heq
      exact .inr ⟨ha, .inr ⟨hp, hmem⟩⟩
  · rintro (⟨rfl, rfl⟩ | ⟨hne, ⟨rfl, hmem⟩ | ⟨hp, hmem⟩⟩)
    · obtain ⟨p, hmem⟩ := Line.mem_ids.1 hid
      exact ⟨(other, p), hmem, if_pos rfl⟩
    · exact ⟨(other, .active), hmem, by rw [if_neg hne, if_pos rfl]⟩
    · exact ⟨(other, phase), hmem, by rw [if_neg hne, if_neg hp]⟩

theorem activeUnless_eq_some {activeId : Option Id} :
    activeUnless activeId id = some other ↔ activeId = some other ∧ other ≠ id := by
  unfold activeUnless
  split_ifs with h
  · rw [h]
    simp [eq_comm]
  · refine ⟨fun hsome => ⟨hsome, ?_⟩, And.left⟩
    rintro rfl
    exact h hsome

/-! ### What a move keeps -/

theorem Line.NamesLive.setPhase (h : l.NamesLive) (new : CallPhase) (hnew : new ≠ .ended) :
    ∀ id', l.activeId = some id' → ∃ phase ≠ .ended, (id', phase) ∈ l.setPhase id new := by
  intro id' hactive
  obtain ⟨phase, hlive, hmem⟩ := h id' hactive
  by_cases hid : id' = id
  · exact ⟨new, hnew, Line.mem_setPhase.2 (.inl ⟨hid, Line.mem_ids.2 ⟨phase, hid ▸ hmem⟩, rfl⟩)⟩
  · exact ⟨phase, hlive, Line.mem_setPhase.2 (.inr ⟨hid, hmem⟩)⟩

/-- **Every move leaves the active id with a call that has not ended.** -/
theorem Line.NamesLive.apply (h : l.NamesLive) (m : Move Id) : (l.apply m).NamesLive := by
  cases m with
  | keep => exact h
  | place id =>
    rintro _ ⟨⟩
    exact ⟨.connecting, nofun, List.mem_append_right _ (List.mem_singleton.2 rfl)⟩
  | ring id =>
    intro id' hactive
    obtain ⟨phase, hlive, hmem⟩ := h id' hactive
    exact ⟨phase, hlive, List.mem_append_left _ (Line.mem_live.2 ⟨hmem, hlive⟩)⟩
  | rename old new =>
    intro id' hactive
    by_cases hold : l.activeId = some old
    · obtain ⟨phase, hlive, hmem⟩ := h old hold
      rw [Line.apply] at hactive
      simp only [if_pos hold] at hactive
      cases hactive
      exact ⟨phase, hlive, Line.mem_rename.2 (.inl ⟨rfl, hmem⟩)⟩
    · rw [Line.apply] at hactive
      simp only [if_neg hold] at hactive
      obtain ⟨phase, hlive, hmem⟩ := h id' hactive
      have hne : id' ≠ old := by
        rintro rfl
        exact hold hactive
      exact ⟨phase, hlive, Line.mem_rename.2 (.inr ⟨hne, hmem⟩)⟩
  | drop id =>
    intro id' hactive
    obtain ⟨hactive, hne⟩ := activeUnless_eq_some.1 hactive
    obtain ⟨phase, hlive, hmem⟩ := h id' hactive
    exact ⟨phase, hlive, List.mem_filter.2 ⟨hmem, by simpa using hne⟩⟩
  | activate id =>
    by_cases hid : id ∈ l.ids
    · intro id' hactive
      rw [Line.apply, if_pos hid] at hactive
      cases hactive
      exact ⟨.active, nofun, (Line.mem_activate hid).2 (.inl ⟨rfl, rfl⟩)⟩
    · rw [Line.apply, if_neg hid]
      exact h
  | connect id => exact h.setPhase .connecting nofun
  | hold id =>
    intro id' hactive
    exact h.setPhase .held nofun id' (activeUnless_eq_some.1 hactive).1
  | resume id =>
    by_cases hid : id ∈ l.ids
    · rw [Line.apply, if_pos hid]
      rintro _ ⟨⟩
      exact ⟨.active, nofun, Line.mem_setPhase.2 (.inl ⟨rfl, hid, rfl⟩)⟩
    · rw [Line.apply, if_neg hid]
      exact h
  | finish id =>
    intro id' hactive
    obtain ⟨hactive, hne⟩ := activeUnless_eq_some.1 hactive
    obtain ⟨phase, hlive, hmem⟩ := h id' hactive
    exact ⟨phase, hlive, Line.mem_setPhase.2 (.inr ⟨hne, hmem⟩)⟩

/-- An activation names the call it makes active, whatever was active before. -/
theorem Line.activeNamed_activate (l : Line Id) (hid : id ∈ l.ids) :
    (l.apply (.activate id)).ActiveNamed := by
  intro id' hmem
  rcases (Line.mem_activate hid).1 hmem with ⟨rfl, -⟩ | ⟨-, ⟨hheld, -⟩ | ⟨hne, -⟩⟩
  · rw [Line.apply, if_pos hid]
  · cases hheld
  · exact absurd rfl hne

/-- A move that is not a second placement leaves the active call named. -/
theorem Line.ActiveNamed.apply (h : l.ActiveNamed) (halone : m.Alone l)
    (hplaces : m.PlacesAlone l) : (l.apply m).ActiveNamed := by
  cases m with
  | keep => exact h
  | place id =>
    intro id' hmem
    exact absurd (Line.active_added .connecting nofun hmem) (hplaces id')
  | ring id =>
    intro id' hmem
    exact h id' (Line.active_added .ringing nofun hmem)
  | rename old new =>
    intro id' hmem
    rcases Line.mem_rename.1 hmem with ⟨rfl, hold⟩ | ⟨hne, hmem⟩
    · exact if_pos (h old hold)
    · have hactive := h id' hmem
      have hold : l.activeId ≠ some old := by
        rw [hactive]
        simpa using hne
      exact (if_neg hold).trans hactive
  | drop id =>
    intro id' hmem
    obtain ⟨hmem, hne⟩ := List.mem_filter.1 hmem
    exact activeUnless_eq_some.2 ⟨h id' hmem, by simpa using hne⟩
  | activate id =>
    intro id' hmem
    by_cases hid : id ∈ l.ids
    · exact l.activeNamed_activate hid id' hmem
    · rw [Line.apply, if_neg hid] at hmem ⊢
      exact h id' hmem
  | connect id =>
    intro id' hmem
    exact h id' (Line.active_setPhase .connecting nofun hmem).1
  | hold id =>
    intro id' hmem
    obtain ⟨hmem, hne⟩ := Line.active_setPhase .held nofun hmem
    exact activeUnless_eq_some.2 ⟨h id' hmem, hne⟩
  | resume id =>
    intro id' hmem
    by_cases hid : id ∈ l.ids
    · rw [Line.apply, if_pos hid] at hmem ⊢
      rcases Line.mem_setPhase.1 hmem with ⟨rfl, -, -⟩ | ⟨-, hmem⟩
      · rfl
      · rw [halone id' hmem]
    · rw [Line.apply, if_neg hid] at hmem ⊢
      exact h id' hmem
  | finish id =>
    intro id' hmem
    obtain ⟨hmem, hne⟩ := Line.active_setPhase .ended nofun hmem
    exact activeUnless_eq_some.2 ⟨h id' hmem, hne⟩

def Line.Agrees (l : Line Id) : Prop :=
  ∀ a b, (a, .active) ∈ l.seats → (b, .active) ∈ l.seats → a = b

theorem Line.Agrees.apply (h : l.Agrees) (halone : m.Alone l) : (l.apply m).Agrees := by
  -- most moves make no call active
  have hfewer : (∀ a, (a, .active) ∈ (l.apply m).seats → (a, .active) ∈ l.seats) →
      (l.apply m).Agrees := fun hsub a b ha hb => h a b (hsub a ha) (hsub b hb)
  cases m with
  | keep => exact h
  | place id => exact hfewer fun a => Line.active_added .connecting nofun
  | ring id => exact hfewer fun a => Line.active_added .ringing nofun
  | rename old new =>
    intro a b ha hb
    rcases Line.mem_rename.1 ha with ⟨rfl, hold⟩ | ⟨hne, hmem⟩
    · rcases Line.mem_rename.1 hb with ⟨rfl, -⟩ | ⟨hne, hmem⟩
      · rfl
      · exact absurd (h b old hmem hold) hne
    · rcases Line.mem_rename.1 hb with ⟨rfl, hold⟩ | ⟨-, hmem'⟩
      · exact absurd (h a old hmem hold) hne
      · exact h a b hmem hmem'
  | drop id => exact hfewer fun a ha => (List.mem_filter.1 ha).1
  | activate id =>
    by_cases hid : id ∈ l.ids
    · intro a b ha hb
      have hnamed := l.activeNamed_activate hid
      exact Option.some.inj ((hnamed a ha).symm.trans (hnamed b hb))
    · rw [Line.apply, if_neg hid]
      exact h
  | connect id => exact hfewer fun a ha => (Line.active_setPhase .connecting nofun ha).1
  | hold id => exact hfewer fun a ha => (Line.active_setPhase .held nofun ha).1
  | resume id =>
    by_cases hid : id ∈ l.ids
    · have hone : ∀ a, (a, .active) ∈ l.setPhase id .active → a = id := by
        intro a ha
        rcases Line.mem_setPhase.1 ha with ⟨heq, -, -⟩ | ⟨-, ha⟩
        · exact heq
        · exact halone a ha
      rw [Line.apply, if_pos hid]
      exact fun a b ha hb => (hone a ha).trans (hone b hb).symm
    · rw [Line.apply, if_neg hid]
      exact h
  | finish id => exact hfewer fun a ha => (Line.active_setPhase .ended nofun ha).1

theorem Line.nodup_apply (h : l.ids.Nodup) (hfresh : m.Fresh l) : (l.apply m).ids.Nodup := by
  have hset : ∀ (id : Id) (new : CallPhase), ((l.setPhase id new).map Prod.fst).Nodup := by
    intro id new
    have hmap : (l.setPhase id new).map Prod.fst = l.ids := by
      rw [Line.setPhase, Line.ids, List.map_map]
      refine List.map_congr_left fun seat _ => ?_
      simp only [Function.comp_apply]
      split_ifs <;> rfl
    rw [hmap]
    exact h
  have hadded : ∀ (id : Id) (new : CallPhase), id ∉ l.ids →
      ((l.live ++ [(id, new)]).map Prod.fst).Nodup := by
    intro id new hid
    have hsub : (l.live.map Prod.fst).Sublist l.ids := List.filter_sublist.map Prod.fst
    rw [List.map_append]
    refine List.nodup_append.2 ⟨h.sublist hsub, List.nodup_singleton _, ?_⟩
    rintro a ha b hb rfl
    rw [List.mem_singleton.1 hb] at ha
    exact hid (hsub.subset ha)
  cases m with
  | keep => exact h
  | place id => exact hadded id _ hfresh
  | ring id => exact hadded id _ hfresh
  | rename old new =>
    have hmap : (l.apply (.rename old new)).ids =
        l.ids.map fun id => if id = old then new else id := by
      rw [Line.ids, Line.apply, List.map_map, Line.ids, List.map_map]
      refine List.map_congr_left fun seat _ => ?_
      simp only [Function.comp_apply]
      split_ifs <;> rfl
    rw [hmap]
    refine h.map_on fun a ha b hb heq => ?_
    have hnew : ∀ id ∈ l.ids, id ≠ new := by
      rintro id hid rfl
      exact hfresh hid
    split_ifs at heq with hl hr hr
    · rw [hl, hr]
    · exact absurd heq.symm (hnew b hb)
    · exact absurd heq (hnew a ha)
    · exact heq
  | drop id => exact h.sublist (List.filter_sublist.map Prod.fst)
  | activate id =>
    by_cases hid : id ∈ l.ids
    · have hmap : (l.apply (.activate id)).ids = l.ids := by
        rw [Line.apply, if_pos hid, Line.ids, List.map_map]
        refine List.map_congr_left fun seat _ => ?_
        simp only [Function.comp_apply]
        split_ifs <;> rfl
      rw [hmap]
      exact h
    · rw [Line.apply, if_neg hid]
      exact h
  | connect id => exact hset id _
  | hold id => exact hset id _
  | resume id =>
    by_cases hid : id ∈ l.ids
    · rw [Line.apply, if_pos hid]
      exact hset id _
    · rw [Line.apply, if_neg hid]
      exact h
  | finish id => exact hset id _

omit [DecidableEq Id] in
theorem Line.oneActive_of_nodup (hnodup : l.ids.Nodup) (h : l.Agrees) : l.OneActive := by
  have hall : ∀ seat ∈ l.seats.filter (·.2 == .active), ∀ seat' ∈ l.seats.filter (·.2 == .active),
      seat = seat' := by
    rintro ⟨a, p⟩ ha ⟨b, q⟩ hb
    obtain ⟨ha, hp⟩ := List.mem_filter.1 ha
    obtain ⟨hb, hq⟩ := List.mem_filter.1 hb
    obtain rfl : p = .active := by simpa using hp
    obtain rfl : q = .active := by simpa using hq
    rw [h a b ha hb]
  have hdistinct : (l.seats.filter (·.2 == .active)).Nodup :=
    (List.Nodup.of_map Prod.fst hnodup).sublist List.filter_sublist
  rw [Line.OneActive]
  generalize l.seats.filter (·.2 == .active) = found at hall hdistinct ⊢
  match found with
  | [] => exact Nat.zero_le _
  | [_] => exact Nat.le_refl _
  | a :: b :: rest =>
    have heq := hall a (by simp) b (by simp)
    rw [heq] at hdistinct
    simp at hdistinct

/-- **A call that has ended does not come back**, under the id it has after the move. -/
theorem Line.ended_apply (hnodup : l.ids.Nodup) (hfresh : m.Fresh l) (htime : m.InTime l)
    (hended : (id, .ended) ∈ l.seats) (hmem : (m.followed id, phase) ∈ (l.apply m).seats) :
    phase = .ended := by
  have hsame : ∀ {phase}, (id, phase) ∈ l.seats → phase = .ended := fun hp =>
    congrArg Prod.snd (List.inj_on_of_nodup_map hnodup hp hended rfl)
  have hid : id ∈ l.ids := Line.mem_ids.2 ⟨_, hended⟩
  have hset : ∀ {touched : Id} {new : CallPhase}, (touched, .ended) ∉ l.seats →
      (id, phase) ∈ l.setPhase touched new → phase = .ended := by
    intro touched new hno hp
    rcases Line.mem_setPhase.1 hp with ⟨rfl, -, -⟩ | ⟨-, hp⟩
    · exact absurd hended hno
    · exact hsame hp
  have hadded : ∀ {added : Id} {new : CallPhase}, added ∉ l.ids →
      (id, phase) ∈ l.live ++ [(added, new)] → phase = .ended := by
    intro added new hno hp
    rcases List.mem_append.1 hp with hp | hp
    · exact hsame (Line.mem_live.1 hp).1
    · cases List.mem_singleton.1 hp
      exact absurd hid hno
  cases m with
  | keep => exact hsame hmem
  | place | ring => exact hadded hfresh hmem
  | rename old new =>
    rw [Move.followed] at hmem
    split_ifs at hmem with hold
    · rcases Line.mem_rename.1 hmem with ⟨-, hp⟩ | ⟨-, hp⟩
      · exact hsame (hold ▸ hp)
      · exact absurd (Line.mem_ids.2 ⟨_, hp⟩) hfresh
    · rcases Line.mem_rename.1 hmem with ⟨heq, -⟩ | ⟨-, hp⟩
      · exact absurd (heq ▸ hid) hfresh
      · exact hsame hp
  | drop dropped => exact hsame (List.mem_filter.1 hmem).1
  | activate touched =>
    by_cases htouched : touched ∈ l.ids
    · rcases (Line.mem_activate htouched).1 hmem with ⟨heq, -⟩ | ⟨-, ⟨-, hp⟩ | ⟨-, hp⟩⟩
      · obtain rfl : id = touched := heq
        exact absurd hended htime
      · cases hsame hp
      · exact hsame hp
    · rw [Line.apply, if_neg htouched] at hmem
      exact hsame hmem
  | connect | hold => exact hset htime hmem
  | resume touched =>
    by_cases htouched : touched ∈ l.ids
    · rw [Line.apply, if_pos htouched] at hmem
      exact hset htime hmem
    · rw [Line.apply, if_neg htouched] at hmem
      exact hsame hmem
  | finish touched =>
    rcases Line.mem_setPhase.1 hmem with ⟨-, -, hp⟩ | ⟨-, hp⟩
    · exact hp
    · exact hsame hp

end Moves

/-! ### Runs of a reducer that makes moves -/

section Runs

variable {σ α : Type}

/-- Each action of a run meets a condition in the state it is taken in. -/
def Throughout (step : σ → α → σ) (p : σ → α → Prop) : σ → List α → Prop
  | _, [] => True
  | s, a :: as => p s a ∧ Throughout step p (step s a) as

/-- What holds before a run, and is kept by every step of it, holds after it. -/
theorem Throughout.invariant {step : σ → α → σ} {p : σ → α → Prop} (inv : σ → Prop)
    (hstep : ∀ s a, inv s → p s a → inv (step s a)) {s : σ} {as : List α} (hs : inv s)
    (h : Throughout step p s as) : inv (as.foldl step s) := by
  induction as generalizing s with
  | nil => exact hs
  | cons a as ih => exact ih (hstep s a hs h.1) h.2

theorem Throughout.append {step : σ → α → σ} {p : σ → α → Prop} {s : σ} {as bs : List α}
    (h : Throughout step p s (as ++ bs)) :
    Throughout step p s as ∧ Throughout step p (as.foldl step s) bs := by
  induction as generalizing s with
  | nil => exact ⟨trivial, h⟩
  | cons a as ih => exact ⟨⟨h.1, (ih h.2).1⟩, (ih h.2).2⟩

/-- A call stays ended for as long as it is on the line, under whatever id it goes. -/
def EndedUntilGone (step : σ → α → σ) (line : σ → Line String) (renamed : α → String → String) :
    σ → String → List α → Prop
  | _, _, [] => True
  | s, id, a :: as =>
    renamed a id ∈ (line (step s a)).ids →
      (∀ phase, (renamed a id, phase) ∈ (line (step s a)).seats → phase = .ended) ∧
        EndedUntilGone step line renamed (step s a) (renamed a id) as

/-- A reducer whose actions are moves of its line. -/
structure Machine (σ α : Type) where
  step : σ → α → σ
  init : σ
  line : σ → Line String
  move : σ → α → Move String
  renamed : α → String → String
  line_init : line init = ⟨[], none⟩
  line_step : ∀ s a, line (step s a) = (line s).apply (move s a)
  renamed_eq : ∀ s a id, id ∈ (line s).ids → renamed a id = (move s a).followed id

/-- What a reducer keeps over its runs, with what it asks of the actions: ids of their own
(`fresh`), no second call taken off hold (`alone`), no call placed beside an active one
(`placesAlone`), nothing but its end heard of an ended call (`inTime`). -/
structure Keeps (step : σ → α → σ) (init : σ) (line : σ → Line String)
    (renamed : α → String → String) (fresh alone placesAlone inTime activates : σ → α → Prop) :
    Prop where
  /-- In every state the active id is none or that of a call that has not ended. -/
  names : ∀ as : List α, (line (as.foldl step init)).NamesLive
  /-- One call at most is active. -/
  one : ∀ as, Throughout step (fun s a => fresh s a ∧ alone s a) init as →
    (line (as.foldl step init)).OneActive
  /-- From the start, and from any activation on, the active call is the one named. -/
  named : ∀ before after : List α,
    (before = [] ∨ ∃ as a, before = as ++ [a] ∧ activates (as.foldl step init) a) →
      Throughout step (fun s a => alone s a ∧ placesAlone s a) (before.foldl step init) after →
        (line ((before ++ after).foldl step init)).ActiveNamed
  /-- A call that has ended stays so. -/
  final : ∀ (before after : List α) (id : String),
    Throughout step (fun s a => fresh s a ∧ inTime s a) init (before ++ after) →
      (id, .ended) ∈ (line (before.foldl step init)).seats →
        EndedUntilGone step line renamed (before.foldl step init) id after

namespace Machine

variable (M : Machine σ α) {fresh alone placesAlone inTime activates : σ → α → Prop}

theorem names_run (s : σ) (as : List α) (h : (M.line s).NamesLive) :
    (M.line (as.foldl M.step s)).NamesLive := by
  induction as generalizing s with
  | nil => exact h
  | cons a as ih =>
    refine ih (M.step s a) ?_
    rw [M.line_step]
    exact h.apply _

theorem keeps (hfresh : ∀ s a, fresh s a → (M.move s a).Fresh (M.line s))
    (halone : ∀ s a, alone s a → (M.move s a).Alone (M.line s))
    (hplaces : ∀ s a, placesAlone s a → (M.move s a).PlacesAlone (M.line s))
    (htime : ∀ s a, (M.line s).ids.Nodup → inTime s a → (M.move s a).InTime (M.line s))
    (hactivates : ∀ s a, activates s a → ∃ id ∈ (M.line s).ids, M.move s a = .activate id) :
    Keeps M.step M.init M.line M.renamed fresh alone placesAlone inTime activates where
  names as := by
    refine M.names_run M.init as ?_
    rw [M.line_init]
    rintro id ⟨⟩
  one as h := by
    have hboth : (M.line (as.foldl M.step M.init)).ids.Nodup ∧
        (M.line (as.foldl M.step M.init)).Agrees := by
      refine Throughout.invariant (fun s => (M.line s).ids.Nodup ∧ (M.line s).Agrees) ?_ ?_ h
      · intro s a hs ha
        rw [M.line_step]
        exact ⟨Line.nodup_apply hs.1 (hfresh s a ha.1), hs.2.apply (halone s a ha.2)⟩
      · rw [M.line_init]
        exact ⟨List.nodup_nil, nofun⟩
    exact Line.oneActive_of_nodup hboth.1 hboth.2
  named before after hbefore h := by
    rw [List.foldl_append]
    refine Throughout.invariant (fun s => (M.line s).ActiveNamed) ?_ ?_ h
    · intro s a hs ha
      rw [M.line_step]
      exact hs.apply (halone s a ha.1) (hplaces s a ha.2)
    · rcases hbefore with rfl | ⟨as, a, rfl, ha⟩
      · rw [List.foldl_nil, M.line_init]
        exact nofun
      · obtain ⟨id, hid, hmove⟩ := hactivates _ a ha
        rw [List.foldl_append, List.foldl_cons, List.foldl_nil, M.line_step, hmove]
        exact Line.activeNamed_activate _ hid
  final before after id h hended := by
    obtain ⟨hbefore, hafter⟩ := h.append
    have hnodup : (M.line (before.foldl M.step M.init)).ids.Nodup := by
      refine Throughout.invariant (fun s => (M.line s).ids.Nodup) ?_ ?_ hbefore
      · intro s a hs ha
        rw [M.line_step]
        exact Line.nodup_apply hs (hfresh s a ha.1)
      · rw [M.line_init]
        exact List.nodup_nil
    generalize before.foldl M.step M.init = s at hnodup hafter hended ⊢
    clear hbefore h
    induction after generalizing s id with
    | nil => exact trivial
    | cons a as ih =>
      intro hthere
      have hid : id ∈ (M.line s).ids := Line.mem_ids.2 ⟨_, hended⟩
      have hkept : ∀ phase, (M.renamed a id, phase) ∈ (M.line (M.step s a)).seats →
          phase = .ended := by
        intro phase hmem
        rw [M.line_step, M.renamed_eq s a id hid] at hmem
        exact Line.ended_apply hnodup (hfresh s a hafter.1.1) (htime s a hnodup hafter.1.2)
          hended hmem
      obtain ⟨phase, hmem⟩ := Line.mem_ids.1 hthere
      have hnodup' : (M.line (M.step s a)).ids.Nodup := by
        rw [M.line_step]
        exact Line.nodup_apply hnodup (hfresh s a hafter.1.1)
      exact ⟨hkept, ih _ _ hnodup' hafter.2 (hkept phase hmem ▸ hmem)⟩

end Machine

end Runs

/-! ### The two reducers -/

def reportMove (l : Line String) (id : String) (phase : CallPhase) : Move String :=
  match l.seats.find? (·.1 == id) with
  | none => .keep
  | some seat =>
    if seat.2 = .ringing then
      if phase = .active then .activate id else if phase = .ended then .drop id else .keep
    else if phase = .active then .activate id
    else if phase = .ended then .finish id
    else if phase = .held then .hold id
    else .connect id

def SoftphoneState.line (s : SoftphoneState) : Line String :=
  ⟨s.calls.map fun c => (c.id, c.phase), s.activeId⟩

def SoftphoneSnapshot.line (s : SoftphoneSnapshot) : Line String :=
  ⟨s.calls.map fun c => (c.id, c.phase), s.activeId⟩

namespace SoftphoneAction

def move (s : SoftphoneState) : SoftphoneAction → Move String
  | .placing id _ _ => .place id
  | .incoming id _ _ => if id ∈ s.line.ids then .keep else .ring id
  | .placementConnected placementId id _ =>
    if placementId ∈ s.line.ids then .rename placementId id else .keep
  | .placementFailed placementId _ => .drop placementId
  | .sdkState id state _ => reportMove s.line id (phaseFromSdkState state)
  | .held id onHold =>
    match s.line.seats.find? (·.1 == id) with
    | none => .keep
    | some seat =>
      if seat.2 ≠ .active ∧ seat.2 ≠ .held then .keep
      else if onHold then .hold id else .resume id
  | .dismissed id => .drop id
  | _ => .keep

def renamed : SoftphoneAction → String → String
  | .placementConnected placementId id _, old => if old = placementId then id else old
  | _, old => old

def Fresh (s : SoftphoneState) : SoftphoneAction → Prop
  | .placing id _ _ => ∀ c ∈ s.calls, c.id ≠ id
  | .placementConnected _ id _ => ∀ c ∈ s.calls, c.id ≠ id
  | _ => True

/-- A call is taken off hold while no other is active. -/
def ResumesAlone (s : SoftphoneState) : SoftphoneAction → Prop
  | .held id false => ∀ c ∈ s.calls, c.phase = .active → c.id = id
  | _ => True

def PlacesAlone (s : SoftphoneState) : SoftphoneAction → Prop
  | .placing .. => ∀ c ∈ s.calls, c.phase ≠ .active
  | _ => True

def InTime (s : SoftphoneState) : SoftphoneAction → Prop
  | .sdkState id state _ =>
    phaseFromSdkState state = .ended ∨ ∀ c ∈ s.calls, c.id = id → c.phase ≠ .ended
  | _ => True

def Activates (s : SoftphoneState) : SoftphoneAction → Prop
  | .sdkState id state _ => phaseFromSdkState state = .active ∧ ∃ c ∈ s.calls, c.id = id
  | _ => False

end SoftphoneAction

namespace CallAction

def move (s : SoftphoneSnapshot) : CallAction → Move String
  | .placing call => .place call.id
  | .incoming call => if call.id ∈ s.line.ids then .keep else .ring call.id
  | .placementConnected placementId id _ =>
    if placementId ∈ s.line.ids then .rename placementId id else .keep
  | .placementFailed placementId _ => .drop placementId
  | .sdkPhase id phase _ => reportMove s.line id phase
  | .dismissed id => .drop id
  | _ => .keep

def renamed : CallAction → String → String
  | .placementConnected placementId id _, old => if old = placementId then id else old
  | _, old => old

def Fresh (s : SoftphoneSnapshot) : CallAction → Prop
  | .placing call => ∀ c ∈ s.calls, c.id ≠ call.id
  | .placementConnected _ id _ => ∀ c ∈ s.calls, c.id ≠ id
  | _ => True

/-- A call is placed while none is active. -/
def PlacesAlone (s : SoftphoneSnapshot) : CallAction → Prop
  | .placing _ => ∀ c ∈ s.calls, c.phase ≠ .active
  | _ => True

def InTime (s : SoftphoneSnapshot) : CallAction → Prop
  | .sdkPhase id phase _ => phase = .ended ∨ ∀ c ∈ s.calls, c.id = id → c.phase ≠ .ended
  | _ => True

def Activates (s : SoftphoneSnapshot) : CallAction → Prop
  | .sdkPhase id phase _ => phase = .active ∧ ∃ c ∈ s.calls, c.id = id
  | _ => False

end CallAction

/-! ### An action is a move -/

theorem map_update {κ β : Type} (view : κ → β) {p : κ → Prop} {q : β → Prop} [DecidablePred p]
    [DecidablePred q] {f : κ → κ} {g : β → β} (cs : List κ) (hp : ∀ c, p c ↔ q (view c))
    (hf : ∀ c, p c → view (f c) = g (view c)) :
    (cs.map fun c => if p c then f c else c).map view =
      (cs.map view).map fun b => if q b then g b else b := by
  rw [List.map_map, List.map_map]
  refine List.map_congr_left fun c _ => ?_
  simp only [Function.comp_apply, ← hp c]
  split_ifs with h
  · exact hf c h
  · rfl

section Browser

variable (s : SoftphoneState) (id : String)

theorem seats_updateCall {f : CallInfo → CallInfo} {g : String × CallPhase → String × CallPhase}
    (hf : ∀ c, c.id = id → ((f c).id, (f c).phase) = g (c.id, c.phase)) :
    (updateCall s id f).line.seats =
      s.line.seats.map fun seat => if seat.1 = id then g seat else seat :=
  map_update (fun c : CallInfo => (c.id, c.phase)) s.calls (fun _ => Iff.rfl) hf

theorem line_updateCall {f : CallInfo → CallInfo}
    (hf : ∀ c, ((f c).id, (f c).phase) = (c.id, c.phase)) : (updateCall s id f).line = s.line := by
  have hseats := seats_updateCall s id (g := fun seat => seat) fun c _ => hf c
  simp only [ite_self, List.map_id'] at hseats
  rw [SoftphoneState.line, SoftphoneState.line]
  exact congrArg (Line.mk · s.activeId) hseats

theorem seats_setPhase (phase : CallPhase) :
    (updateCall s id fun c => { c with phase := phase }).line.seats = s.line.setPhase id phase :=
  seats_updateCall s id fun _ _ => rfl

theorem line_dropCall : (dropCall s id).line = s.line.apply (.drop id) := by
  have hseats : (s.calls.filter (·.id != id)).map (fun c => (c.id, c.phase)) =
      s.line.seats.filter (·.1 != id) := by
    rw [SoftphoneState.line, List.filter_map]
    rfl
  rw [Line.apply, ← hseats]
  rfl

theorem mem_line_ids : id ∈ s.line.ids ↔ s.calls.any (·.id == id) = true := by
  simp [SoftphoneState.line, Line.ids]

theorem find?_line :
    s.line.seats.find? (·.1 == id) =
      (s.calls.find? (·.id == id)).map fun c => (c.id, c.phase) := List.find?_map ..

theorem mem_ids_of_find? {s : SoftphoneState} {id : String} {c : CallInfo}
    (h : s.calls.find? (·.id == id) = some c) : id ∈ s.line.ids := by
  have hc := List.find?_some h
  rw [mem_line_ids, List.any_eq_true]
  exact ⟨c, List.mem_of_find?_eq_some h, hc⟩

theorem line_activate (now : ℤ) (hid : id ∈ s.line.ids) :
    (activate s id now).line = s.line.apply (.activate id) := by
  have hseats : (s.calls.map (activated id now)).map (fun c => (c.id, c.phase)) =
      s.line.seats.map fun seat =>
        if seat.1 = id then (seat.1, .active)
        else if seat.2 = .active then (seat.1, .held)
        else seat := by
    rw [SoftphoneState.line, List.map_map, List.map_map]
    refine List.map_congr_left fun c _ => ?_
    simp only [Function.comp_apply, activated]
    split_ifs <;> rfl
  rw [Line.apply, if_pos hid, ← hseats]
  rfl

theorem line_live (call : CallInfo) (activeId : Option String) :
    ({ s with calls := liveCalls s ++ [call], activeId := activeId } : SoftphoneState).line =
      ⟨s.line.live ++ [(call.id, call.phase)], activeId⟩ := by
  have hlive : (liveCalls s).map (fun c => (c.id, c.phase)) = s.line.live := by
    rw [SoftphoneState.line, Line.live, List.filter_map]
    rfl
  rw [SoftphoneState.line, List.map_append, hlive]
  rfl

theorem line_reduceSdkState (phase : CallPhase) (now : ℤ) (hphase : phase ≠ .ringing) :
    (reduceSdkState s id phase now).line = s.line.apply (reportMove s.line id phase) := by
  rw [reduceSdkState, reportMove, find?_line]
  cases hfind : s.calls.find? (·.id == id) with
  | none => rfl
  | some call =>
    have hid := mem_ids_of_find? hfind
    simp only [Option.map_some]
    split_ifs with hring hactive hended hactive hended hheld
    · exact line_activate s id now hid
    · exact line_dropCall s id
    · rfl
    · exact line_activate s id now hid
    · exact congrArg (Line.mk · _) (seats_setPhase s id .ended)
    · exact congrArg (Line.mk · _) (seats_setPhase s id .held)
    · have hconnecting : phase = .connecting := by
        cases phase <;> first | rfl | contradiction
      rw [hconnecting]
      exact congrArg (Line.mk · _) (seats_setPhase s id .connecting)

theorem phaseFromSdkState_ne_ringing (state : String) : phaseFromSdkState state ≠ .ringing := by
  unfold phaseFromSdkState
  split <;> nofun

theorem line_reduceHeld (onHold : Bool) :
    (reduceHeld s id onHold).line = s.line.apply ((SoftphoneAction.held id onHold).move s) := by
  rw [reduceHeld, SoftphoneAction.move, find?_line]
  cases hfind : s.calls.find? (·.id == id) with
  | none => rfl
  | some call =>
    have hid := mem_ids_of_find? hfind
    simp only [Option.map_some]
    split_ifs with hphase hheld
    · rfl
    · exact congrArg (Line.mk · _) (seats_setPhase s id .held)
    · rw [Line.apply, if_pos hid]
      exact congrArg (Line.mk · _) (seats_setPhase s id .active)

theorem line_softphoneReducer (a : SoftphoneAction) :
    (softphoneReducer s a).line = s.line.apply (a.move s) := by
  cases a with
  | ready => rfl
  | disconnected =>
    rw [softphoneReducer]
    split_ifs <;> rfl
  | error message => rfl
  | placing id sessionId peer =>
    exact line_live s (newCall id sessionId peer .outbound .connecting) (some id)
  | incoming id sessionId peer =>
    rw [softphoneReducer, SoftphoneAction.move]
    simp only [mem_line_ids]
    split_ifs
    · rfl
    · exact line_live s (newCall id sessionId peer .inbound .ringing) s.activeId
  | placementConnected placementId id sessionId =>
    have hseats := seats_updateCall s placementId (g := fun seat => (id, seat.2))
      (f := fun c => { c with id := id, sessionId := some sessionId }) fun _ _ => rfl
    by_cases hid : placementId ∈ s.line.ids
    · rw [softphoneReducer, SoftphoneAction.move, if_pos hid, if_pos ((mem_line_ids s _).1 hid)]
      exact congrArg (Line.mk · _) hseats
    · rw [softphoneReducer, SoftphoneAction.move, if_neg hid,
        if_neg (mt (mem_line_ids s _).2 hid)]
      rfl
  | placementFailed placementId message => exact line_dropCall s placementId
  | sessionKnown id sessionId => exact line_updateCall s id fun _ => rfl
  | sdkState id state now =>
    exact line_reduceSdkState s id _ now (phaseFromSdkState_ne_ringing state)
  | held id onHold => exact line_reduceHeld s id onHold
  | muted id muted => exact line_updateCall s id fun _ => rfl
  | dismissed id => exact line_dropCall s id

end Browser

variable {a : SoftphoneAction} {b : CallAction}

section Phone

/-- A state of the browser that shows what the phone shows. -/
def SoftphoneSnapshot.mirrored (t : SoftphoneSnapshot) : SoftphoneState where
  ready := false
  error := none
  calls := t.calls.map fun d =>
    { id := d.id, sessionId := d.sessionId, peer := ⟨d.peerName, d.peerNumber⟩,
      direction := d.direction, phase := d.phase, muted := d.muted, activeSince := d.activeSinceMs }
  activeId := t.activeId

theorem same_mirrored (t : SoftphoneSnapshot) : Same t.mirrored t := by
  refine ⟨?_, rfl⟩
  rw [SoftphoneSnapshot.mirrored, List.forall₂_map_left_iff, List.forall₂_same]
  exact fun d _ => ⟨rfl, rfl, rfl, rfl, rfl, rfl, rfl, rfl⟩

theorem Same.line {s : SoftphoneState} {t : SoftphoneSnapshot} (h : Same s t) :
    s.line = t.line := by
  have hseats : ∀ {cs ds}, List.Forall₂ Alike cs ds →
      cs.map (fun c => (c.id, c.phase)) = ds.map fun d => (d.id, d.phase) := by
    intro cs ds hcalls
    induction hcalls with
    | nil => rfl
    | cons hcd _ ih => rw [List.map_cons, List.map_cons, hcd.id, hcd.phase, ih]
  rw [SoftphoneState.line, SoftphoneSnapshot.line, h.activeId, hseats h.calls]

variable (t : SoftphoneSnapshot)

theorem line_of_matches (hab : Matches a b) :
    (callStateMachine t b).line = t.line.apply (a.move t.mirrored) := by
  rw [← (same_step (same_mirrored t) hab).line, line_softphoneReducer, (same_mirrored t).line]

theorem reportMove_ringing (l : Line String) (id : String) :
    reportMove l id .ringing = reportMove l id .connecting := by
  rw [reportMove, reportMove]
  cases l.seats.find? (·.1 == id) with
  | none => rfl
  | some seat =>
    cases seat with
    | mk id phase => cases phase <;> rfl

theorem line_sdkPhase (id : String) (phase : CallPhase) (now : ℤ) :
    (callStateMachine t (.sdkPhase id phase now)).line =
      t.line.apply (reportMove t.line id phase) := by
  -- a state of the browser's SDK that stands for the phase
  have hline := (same_mirrored t).line
  cases phase with
  | ringing =>
    rw [line_of_matches t (.sdkState id "ringing" .ringing now (.inr ⟨rfl, rfl⟩)),
      SoftphoneAction.move, hline, reportMove_ringing]
    rfl
  | connecting =>
    rw [line_of_matches t (.sdkState id "ringing" .connecting now (.inl rfl)),
      SoftphoneAction.move, hline]
    rfl
  | active =>
    rw [line_of_matches t (.sdkState id "active" .active now (.inl rfl)),
      SoftphoneAction.move, hline]
    rfl
  | held =>
    rw [line_of_matches t (.sdkState id "held" .held now (.inl rfl)),
      SoftphoneAction.move, hline]
    rfl
  | ended =>
    rw [line_of_matches t (.sdkState id "destroy" .ended now (.inl rfl)),
      SoftphoneAction.move, hline]
    rfl

/-- What is written of a new call besides its id does not show on the line. -/
theorem line_placing (call : CallSnapshot) :
    (callStateMachine t (.placing call)).line = t.line.apply (.place call.id) := by
  have hmove := line_of_matches t
    (.placing call.id none ⟨call.peerName, call.peerNumber⟩ call.direction call.phase)
  rw [SoftphoneAction.move] at hmove
  rw [← hmove]
  simp only [callStateMachine, CallStateMachine.placing, SoftphoneSnapshot.line, List.map_append,
    List.map_cons, List.map_nil]

theorem line_incoming (call : CallSnapshot) :
    (callStateMachine t (.incoming call)).line =
      t.line.apply ((CallAction.incoming call).move t) := by
  have hmove := line_of_matches t
    (.incoming call.id none ⟨call.peerName, call.peerNumber⟩ call.direction call.phase)
  rw [SoftphoneAction.move, (same_mirrored t).line] at hmove
  rw [CallAction.move, ← hmove]
  simp only [callStateMachine, CallStateMachine.incoming]
  split_ifs
  · rfl
  · simp only [SoftphoneSnapshot.line, List.map_append, List.map_cons, List.map_nil]

theorem line_presentationSilenced (id : String) :
    (callStateMachine t (.presentationSilenced id)).line = t.line := by
  refine congrArg (Line.mk · t.activeId) ?_
  have hseen := map_update (fun c : CallSnapshot => (c.id, c.phase)) t.calls
    (p := fun c => c.id = id) (q := fun seat => seat.1 = id) (g := fun seat => seat)
    (f := fun c => if c.phase = .ringing then { c with silenced := true } else c)
    (fun _ => Iff.rfl) fun c _ => by split_ifs <;> rfl
  simp only [ite_self, List.map_id'] at hseen
  exact hseen

/-- **An action of the phone's reducer is a move of its line.** -/
theorem line_callStateMachine (b : CallAction) :
    (callStateMachine t b).line = t.line.apply (b.move t) := by
  have hline := (same_mirrored t).line
  cases b with
  | ready | connecting | disconnected | error | clearError => rfl
  | placing call => exact line_placing t call
  | incoming call => exact line_incoming t call
  | sessionKnown id sessionId => exact line_of_matches t (.sessionKnown id sessionId)
  | placementConnected placementId id sessionId =>
    rw [line_of_matches t (.placementConnected placementId id sessionId), SoftphoneAction.move,
      hline]
    rfl
  | placementFailed placementId message =>
    exact line_of_matches t (.placementFailed placementId message message)
  | muted id muted => exact line_of_matches t (.muted id muted)
  | presentationSilenced id => exact line_presentationSilenced t id
  | dismissed id => exact line_of_matches t (.dismissed id)
  | sdkPhase id phase now => exact line_sdkPhase t id phase now

end Phone

/-! ### The conditions, seen on the line -/

theorem reportMove_cases (l : Line String) (id : String) (phase : CallPhase) :
    reportMove l id phase ∈ [.keep, .drop id, .finish id] ∨
      phase ≠ .ended ∧ reportMove l id phase ∈ [.activate id, .hold id, .connect id] := by
  rw [reportMove]
  cases l.seats.find? (·.1 == id) with
  | none => exact .inl (by simp)
  | some seat =>
    simp only
    cases phase <;> split_ifs <;> simp_all

theorem reportMove_active {l : Line String} {id : String} (hid : id ∈ l.ids) :
    reportMove l id .active = .activate id := by
  rw [reportMove]
  cases hfind : l.seats.find? (·.1 == id) with
  | none =>
    obtain ⟨phase, hmem⟩ := Line.mem_ids.1 hid
    exact absurd (List.find?_eq_none.1 hfind _ hmem) (by simp)
  | some seat => simp only [if_true, ite_self]

theorem reportMove_fresh (l : Line String) (id : String) (phase : CallPhase) :
    (reportMove l id phase).Fresh l ∧ (reportMove l id phase).Alone l ∧
      (reportMove l id phase).PlacesAlone l := by
  have hcases := reportMove_cases l id phase
  simp only [List.mem_cons, List.not_mem_nil, or_false] at hcases
  rcases hcases with (h | h | h) | ⟨-, h | h | h⟩ <;> rw [h] <;> exact ⟨trivial, trivial, trivial⟩

theorem reportMove_inTime {l : Line String} {id : String} {phase : CallPhase}
    (h : phase = .ended ∨ (id, .ended) ∉ l.seats) : (reportMove l id phase).InTime l := by
  have hcases := reportMove_cases l id phase
  simp only [List.mem_cons, List.not_mem_nil, or_false] at hcases
  rcases hcases with (hmove | hmove | hmove) | ⟨hne, hmove | hmove | hmove⟩ <;> rw [hmove]
  · exact trivial
  · exact trivial
  · exact trivial
  · exact h.resolve_left hne
  · exact h.resolve_left hne
  · exact h.resolve_left hne

section Browser

variable {s : SoftphoneState} {id : String}

theorem not_mem_line_ids : id ∉ s.line.ids ↔ ∀ c ∈ s.calls, c.id ≠ id := by
  rw [mem_line_ids, List.any_eq_true]
  simp

theorem mem_line {phase : CallPhase} :
    (id, phase) ∈ s.line.seats ↔ ∃ c ∈ s.calls, c.id = id ∧ c.phase = phase := by
  simp [SoftphoneState.line]

theorem heldMove_cases (s : SoftphoneState) (id : String) (onHold : Bool) :
    (SoftphoneAction.held id onHold).move s = .keep ∨
      (∃ phase, (id, phase) ∈ s.line.seats ∧ phase ≠ .ended) ∧
        (onHold = true ∧ (SoftphoneAction.held id onHold).move s = .hold id ∨
          onHold = false ∧ (SoftphoneAction.held id onHold).move s = .resume id) := by
  rw [SoftphoneAction.move]
  cases hfind : s.line.seats.find? (·.1 == id) with
  | none => exact .inl rfl
  | some seat =>
    have hid : seat.1 = id := by simpa using List.find?_some hfind
    have hmem : (id, seat.2) ∈ s.line.seats := hid ▸ List.mem_of_find?_eq_some hfind
    have hlive : ¬ (seat.2 ≠ .active ∧ seat.2 ≠ .held) →
        ∃ phase, (id, phase) ∈ s.line.seats ∧ phase ≠ .ended := by
      intro hphase
      refine ⟨_, hmem, fun hend => hphase ?_⟩
      simp [hend]
    simp only
    split_ifs with hphase hhold
    · exact .inl rfl
    · exact .inr ⟨hlive hphase, .inl ⟨hhold, rfl⟩⟩
    · exact .inr ⟨hlive hphase, .inr ⟨by simpa using hhold, rfl⟩⟩

namespace SoftphoneAction

theorem Fresh.move (h : a.Fresh s) : (a.move s).Fresh s.line := by
  cases a with
  | placing id sessionId peer => exact not_mem_line_ids.2 h
  | incoming id sessionId peer =>
    rw [SoftphoneAction.move]
    split_ifs with hid
    · exact trivial
    · exact hid
  | placementConnected placementId id sessionId =>
    rw [SoftphoneAction.move]
    split_ifs
    · exact not_mem_line_ids.2 h
    · exact trivial
  | sdkState id state now => exact (reportMove_fresh ..).1
  | held id onHold =>
    rcases heldMove_cases s id onHold with hmove | ⟨-, ⟨-, hmove⟩ | ⟨-, hmove⟩⟩ <;> rw [hmove] <;>
      exact trivial
  | ready | disconnected | error | placementFailed | sessionKnown | muted | dismissed =>
    exact trivial

theorem ResumesAlone.move (h : a.ResumesAlone s) : (a.move s).Alone s.line := by
  cases a with
  | incoming | placementConnected =>
    rw [SoftphoneAction.move]
    split_ifs <;> exact trivial
  | sdkState id state now => exact (reportMove_fresh ..).2.1
  | held id onHold =>
    rcases heldMove_cases s id onHold with hmove | ⟨-, ⟨-, hmove⟩ | ⟨rfl, hmove⟩⟩
    · rw [hmove]
      exact trivial
    · rw [hmove]
      exact trivial
    · rw [hmove]
      intro other hother
      obtain ⟨c, hc, rfl, hactive⟩ := mem_line.1 hother
      exact h c hc hactive
  | ready | disconnected | error | placing | placementFailed | sessionKnown | muted | dismissed =>
    exact trivial

theorem PlacesAlone.move (h : a.PlacesAlone s) : (a.move s).PlacesAlone s.line := by
  cases a with
  | placing id sessionId peer =>
    intro other hother
    obtain ⟨c, hc, -, hactive⟩ := mem_line.1 hother
    exact h c hc hactive
  | incoming | placementConnected =>
    rw [SoftphoneAction.move]
    split_ifs <;> exact trivial
  | sdkState id state now => exact (reportMove_fresh ..).2.2
  | held id onHold =>
    rcases heldMove_cases s id onHold with hmove | ⟨-, ⟨-, hmove⟩ | ⟨-, hmove⟩⟩ <;> rw [hmove] <;>
      exact trivial
  | ready | disconnected | error | placementFailed | sessionKnown | muted | dismissed =>
    exact trivial

theorem InTime.move (hnodup : s.line.ids.Nodup) (h : a.InTime s) : (a.move s).InTime s.line := by
  cases a with
  | incoming | placementConnected =>
    rw [SoftphoneAction.move]
    split_ifs <;> exact trivial
  | sdkState id state now =>
    refine reportMove_inTime (h.imp_right fun hlive hended => ?_)
    obtain ⟨c, hc, heq, hphase⟩ := mem_line.1 hended
    exact hlive c hc heq hphase
  | held id onHold =>
    -- the button works on a call that is active or held, and no other has its id
    have hone : (∃ phase, (id, phase) ∈ s.line.seats ∧ phase ≠ .ended) →
        (id, .ended) ∉ s.line.seats := by
      rintro ⟨phase, hmem, hne⟩ hended
      exact hne (congrArg Prod.snd (List.inj_on_of_nodup_map hnodup hmem hended rfl))
    rcases heldMove_cases s id onHold with hmove | ⟨hlive, ⟨-, hmove⟩ | ⟨-, hmove⟩⟩
    · rw [hmove]
      exact trivial
    · rw [hmove]
      exact hone hlive
    · rw [hmove]
      exact hone hlive
  | ready | disconnected | error | placing | placementFailed | sessionKnown | muted | dismissed =>
    exact trivial

theorem Activates.move (h : a.Activates s) : ∃ id ∈ s.line.ids, a.move s = .activate id := by
  cases a with
  | sdkState id state now =>
    obtain ⟨hactive, c, hc, heq⟩ := h
    have hid : id ∈ s.line.ids := Line.mem_ids.2 ⟨c.phase, mem_line.2 ⟨c, hc, heq, rfl⟩⟩
    refine ⟨id, hid, ?_⟩
    rw [SoftphoneAction.move, hactive]
    exact reportMove_active hid
  | _ => exact h.elim

theorem renamed_eq (a : SoftphoneAction) (s : SoftphoneState) (id : String)
    (hid : id ∈ s.line.ids) : a.renamed id = (a.move s).followed id := by
  cases a with
  | incoming other sessionId peer =>
    rw [SoftphoneAction.move]
    split_ifs <;> rfl
  | placementConnected placementId new sessionId =>
    rw [SoftphoneAction.move, renamed]
    by_cases hthere : placementId ∈ s.line.ids
    · rw [if_pos hthere]
      rfl
    · rw [if_neg hthere]
      refine if_neg ?_
      rintro rfl
      exact hthere hid
  | sdkState other state now =>
    have hcases := reportMove_cases s.line other (phaseFromSdkState state)
    simp only [List.mem_cons, List.not_mem_nil, or_false] at hcases
    rw [SoftphoneAction.move]
    rcases hcases with (h | h | h) | ⟨-, h | h | h⟩ <;> rw [h] <;> rfl
  | held other onHold =>
    rcases heldMove_cases s other onHold with hmove | ⟨-, ⟨-, hmove⟩ | ⟨-, hmove⟩⟩ <;>
      rw [hmove] <;> rfl
  | ready | disconnected | error | placing | placementFailed | sessionKnown | muted | dismissed =>
    rfl

end SoftphoneAction

end Browser

namespace CallAction

variable {t : SoftphoneSnapshot} {id : String}

theorem not_mem_ids : id ∉ t.line.ids ↔ ∀ c ∈ t.calls, c.id ≠ id := by
  simp [SoftphoneSnapshot.line, Line.ids]

theorem mem_seats {phase : CallPhase} :
    (id, phase) ∈ t.line.seats ↔ ∃ c ∈ t.calls, c.id = id ∧ c.phase = phase := by
  simp [SoftphoneSnapshot.line]

theorem Fresh.move (h : b.Fresh t) : (b.move t).Fresh t.line := by
  cases b with
  | placing call => exact not_mem_ids.2 h
  | incoming call =>
    rw [CallAction.move]
    split_ifs with hid
    · exact trivial
    · exact hid
  | placementConnected placementId id sessionId =>
    rw [CallAction.move]
    split_ifs
    · exact not_mem_ids.2 h
    · exact trivial
  | sdkPhase id phase now => exact (reportMove_fresh ..).1
  | _ => exact trivial

/-- The phone takes no call off hold but by the report that it is active. -/
theorem alone_move (b : CallAction) : (b.move t).Alone t.line := by
  cases b with
  | incoming | placementConnected =>
    rw [CallAction.move]
    split_ifs <;> exact trivial
  | sdkPhase id phase now => exact (reportMove_fresh ..).2.1
  | _ => exact trivial

theorem PlacesAlone.move (h : b.PlacesAlone t) : (b.move t).PlacesAlone t.line := by
  cases b with
  | placing call =>
    intro other hother
    obtain ⟨c, hc, -, hactive⟩ := mem_seats.1 hother
    exact h c hc hactive
  | incoming | placementConnected =>
    rw [CallAction.move]
    split_ifs <;> exact trivial
  | sdkPhase id phase now => exact (reportMove_fresh ..).2.2
  | _ => exact trivial

theorem InTime.move (h : b.InTime t) : (b.move t).InTime t.line := by
  cases b with
  | incoming | placementConnected =>
    rw [CallAction.move]
    split_ifs <;> exact trivial
  | sdkPhase id phase now =>
    refine reportMove_inTime (h.imp_right fun hlive hended => ?_)
    obtain ⟨c, hc, heq, hphase⟩ := mem_seats.1 hended
    exact hlive c hc heq hphase
  | _ => exact trivial

theorem Activates.move (h : b.Activates t) : ∃ id ∈ t.line.ids, b.move t = .activate id := by
  cases b with
  | sdkPhase id phase now =>
    obtain ⟨rfl, c, hc, heq⟩ := h
    have hid : id ∈ t.line.ids := Line.mem_ids.2 ⟨c.phase, mem_seats.2 ⟨c, hc, heq, rfl⟩⟩
    exact ⟨id, hid, reportMove_active hid⟩
  | _ => exact h.elim

theorem renamed_eq (b : CallAction) (t : SoftphoneSnapshot) (id : String)
    (hid : id ∈ t.line.ids) : b.renamed id = (b.move t).followed id := by
  cases b with
  | incoming call =>
    rw [CallAction.move]
    split_ifs <;> rfl
  | placementConnected placementId new sessionId =>
    rw [CallAction.move, renamed]
    by_cases hthere : placementId ∈ t.line.ids
    · rw [if_pos hthere]
      rfl
    · rw [if_neg hthere]
      refine if_neg ?_
      rintro rfl
      exact hthere hid
  | sdkPhase other phase now =>
    have hcases := reportMove_cases t.line other phase
    simp only [List.mem_cons, List.not_mem_nil, or_false] at hcases
    rw [CallAction.move]
    rcases hcases with (h | h | h) | ⟨-, h | h | h⟩ <;> rw [h] <;> rfl
  | _ => rfl

end CallAction

/-! ### Both reducers -/

def browser : Machine SoftphoneState SoftphoneAction where
  step := softphoneReducer
  init := initialSoftphoneState
  line := SoftphoneState.line
  move s a := a.move s
  renamed := SoftphoneAction.renamed
  line_init := rfl
  line_step := line_softphoneReducer
  renamed_eq s a := a.renamed_eq s

def phone : Machine SoftphoneSnapshot CallAction where
  step := callStateMachine
  init := {}
  line := SoftphoneSnapshot.line
  move t b := b.move t
  renamed := CallAction.renamed
  line_init := rfl
  line_step := line_callStateMachine
  renamed_eq t b := b.renamed_eq t

/-- **One active call at most in both reducers, which agree.**  Over every run of either the active
id is none or that of a call that has not ended.  While every call comes under an id of its own, and
none is taken off hold beside an active one, one call at most is active; it is the one the active
id names, but after a call was placed beside it and until the next activation.  A call that has
ended stays so while nothing but its end is heard of it.  Over every run of the actions both have,
the two show the same calls with the same one active. -/
theorem oneActive_and_alike :
    Keeps softphoneReducer initialSoftphoneState SoftphoneState.line SoftphoneAction.renamed
        (fun s a => a.Fresh s) (fun s a => a.ResumesAlone s) (fun s a => a.PlacesAlone s)
        (fun s a => a.InTime s) (fun s a => a.Activates s) ∧
      Keeps callStateMachine {} SoftphoneSnapshot.line CallAction.renamed
        (fun t b => b.Fresh t) (fun _ _ => True) (fun t b => b.PlacesAlone t)
        (fun t b => b.InTime t) (fun t b => b.Activates t) ∧
      ∀ (as : List SoftphoneAction) (bs : List CallAction), List.Forall₂ Matches as bs →
        Same (as.foldl softphoneReducer initialSoftphoneState) (bs.foldl callStateMachine {}) := by
  refine ⟨?_, ?_, fun as bs hab => same_run ⟨.nil, rfl⟩ hab⟩
  · exact browser.keeps (fun _ _ h => h.move) (fun _ _ h => h.move) (fun _ _ h => h.move)
      (fun _ _ hnodup h => h.move hnodup) fun _ _ h => h.move
  · exact phone.keeps (fun _ _ h => h.move) (fun _ b _ => b.alone_move) (fun _ _ h => h.move)
      (fun _ _ _ h => h.move) fun _ _ h => h.move

/-- A call placed while another is active takes the active slot, and the other stays active. -/
theorem placing_beside_active : ¬ ∀ (as : List SoftphoneAction) (id : String),
    (id, .active) ∈ (as.foldl softphoneReducer initialSoftphoneState).line.seats →
      (as.foldl softphoneReducer initialSoftphoneState).activeId = some id := by
  intro h
  have hnamed := h [.placing "c1" (some "s1") ⟨"Ana", "1"⟩, .sdkState "c1" "active" 1000,
    .placing "c2" (some "s2") ⟨"Ben", "2"⟩] "c1" (by decide)
  exact absurd hnamed (by decide)

end Reducers
