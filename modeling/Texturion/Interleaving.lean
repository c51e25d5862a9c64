/-
**Handlers that share a store.**

A request starts a handler; a handler is a sequence of atomic steps on a shared store, and between
two of its steps any other handler may move, the world outside may move, and the handler itself may
die.  A run is a list of such moves, so it is a run of a reactive system in the sense of
`Texturion/ReactiveRun.lean`.

To show that something holds of every run one names an invariant of the store, for each point a
handler may have reached, what the handler relies on there, and what two handlers may not both hold.
A step of one handler has to keep the invariant, to establish what the handler relies on next, to
leave alone what the others rely on, and to take nothing that another one holds.

Main definitions:

* `Interleaving.System` — where a request starts a handler, and what one step of it does;
* `Interleaving.State`, `Interleaving.step` — the store with the handlers under way, and the moves;
* `Interleaving.Sound` — the invariant holds, every handler has what it relies on, and any two of
  them are apart;
* `Interleaving.NonInterfering` — every move that meets a condition keeps the three;
* `Interleaving.solo` — one handler on its own, for as long as it is answered.

Main results:

* `Interleaving.NonInterfering.step` — one move;
* `Interleaving.NonInterfering.final` — a run, all of whose moves meet the condition;
* `Interleaving.NonInterfering.outputs`, `Interleaving.NonInterfering.facts` — and what such a run
  emits, with what goes on to hold of it;
* `Interleaving.Accountable.handled_or_running` — where nothing dies, no request is forgotten;
* `Interleaving.step_store`, `Interleaving.final_store` — a relation that every step on the store
  respects holds across a run;
* `Interleaving.solo_store`, `Interleaving.solo_outputs` — what a handler on its own does to the
  store, and what it emits;
* `Interleaving.solo_inv`, `Interleaving.solo_ends` — an invariant of the two together with the
  point it is at, and that it ends.
-/

import Texturion.ReactiveRun

namespace Interleaving

variable {σ ρ π ι ε ω : Type*}

/-- `enter` is where a request starts its handler; `advance` is one step of a handler, with what it
finds outside the store, and ends the handler with `none`; `world` is a move of nobody's. -/
structure System (σ ρ π ι ε ω : Type*) where
  enter : ρ → π
  advance : σ → π → ι → σ × Option π × List ω
  world : σ → ε → σ × List ω

/-- The store, and the handlers under way. -/
structure State (σ π : Type*) where
  store : σ
  running : List π
  deriving DecidableEq

inductive Input (ρ ι ε : Type*)
  | start (r : ρ)
  | step (n : ℕ) (x : ι)
  | crash (n : ℕ)
  | world (e : ε)

/-- The handlers after the one at `n` has moved. -/
def putBack (running : List π) (n : ℕ) : Option π → List π
  | some p => running.set n p
  | none => running.eraseIdx n

/-- One move. -/
def step (S : System σ ρ π ι ε ω) (s : State σ π) : Input ρ ι ε → State σ π × List ω
  | .start r => ({ s with running := s.running ++ [S.enter r] }, [])
  | .step n x =>
    match s.running[n]? with
    | none => (s, [])
    | some p =>
      ({ store := (S.advance s.store p x).1,
         running := putBack s.running n (S.advance s.store p x).2.1 },
       (S.advance s.store p x).2.2)
  | .crash n => ({ s with running := s.running.eraseIdx n }, [])
  | .world e => ({ s with store := (S.world s.store e).1 }, (S.world s.store e).2)

variable {running : List π} {n : ℕ} {p q : π} {s : State σ π} {R : σ → σ → Prop}
  {is : List (Input ρ ι ε)}

theorem mem_set_or (hq : q ∈ running.set n p) : q = p ∨ q ∈ running.eraseIdx n := by
  obtain ⟨m, hm, rfl⟩ := List.mem_iff_getElem.1 hq
  rw [List.length_set] at hm
  rw [List.getElem_set]
  split_ifs with hnm
  · exact .inl rfl
  · exact .inr (List.mem_eraseIdx_iff_getElem?.2 ⟨m, Ne.symm hnm, List.getElem?_eq_getElem hm⟩)

theorem running_step (S : System σ ρ π ι ε ω) (hq : q ∈ s.running) (n : ℕ)
    (x : ι) : s.running[n]? = some q ∨ q ∈ (step S s (.step n x)).1.running := by
  cases hp : s.running[n]? with
  | none =>
    right
    simpa only [step, hp] using hq
  | some p =>
    obtain ⟨m, hm⟩ := List.mem_iff_getElem?.1 hq
    rcases eq_or_ne m n with rfl | hne
    · exact .inl (hp.symm.trans hm)
    · right
      simp only [step, hp]
      cases (S.advance s.store p x).2.1 with
      | none => exact List.mem_eraseIdx_iff_getElem?.2 ⟨m, hne, hm⟩
      | some p' =>
        refine List.mem_iff_getElem?.2 ⟨m, ?_⟩
        simp only [putBack, List.getElem?_set_ne hne.symm]
        exact hm

/-- The handlers under way are the one at `n` and the others. -/
theorem mem_running_iff (hp : running[n]? = some p) :
    q ∈ running ↔ q ∈ running.eraseIdx n ∨ p = q := by
  constructor
  · intro hq
    obtain ⟨m, hm⟩ := List.mem_iff_getElem?.1 hq
    rcases eq_or_ne m n with rfl | hne
    · exact .inr (Option.some.inj (hp.symm.trans hm))
    · exact .inl (List.mem_eraseIdx_iff_getElem?.2 ⟨m, hne, hm⟩)
  · rintro (hq | rfl)
    · exact List.mem_of_mem_eraseIdx hq
    · exact List.mem_of_getElem? hp

/-- After the one at `n` has moved, they are where it went and the others. -/
theorem mem_putBack_iff (hp : running[n]? = some p) {next : Option π} :
    q ∈ putBack running n next ↔ q ∈ running.eraseIdx n ∨ next = some q := by
  have hn : n < running.length := (List.getElem?_eq_some_iff.1 hp).1
  cases next with
  | none => simp [putBack]
  | some p' =>
    have hset : (running.set n p')[n]? = some p' := by simp [hn]
    rw [putBack, mem_running_iff hset, List.eraseIdx_set_eq, Option.some.injEq]

/-- A handler that is under way after a step was so before, or is the one that has moved. -/
theorem mem_running_step {S : System σ ρ π ι ε ω} {x : ι}
    (hq : q ∈ (step S s (.step n x)).1.running) :
    q ∈ s.running ∨ ∃ p, s.running[n]? = some p ∧ (S.advance s.store p x).2.1 = some q := by
  cases hp : s.running[n]? with
  | none => exact .inl (by simpa only [step, hp] using hq)
  | some p =>
    simp only [step, hp] at hq
    cases hnext : (S.advance s.store p x).2.1 with
    | none =>
      rw [hnext] at hq
      exact .inl (List.mem_of_mem_eraseIdx hq)
    | some p' =>
      rw [hnext] at hq
      rcases mem_set_or hq with rfl | hq
      · exact .inr ⟨p, rfl, hnext⟩
      · exact .inl (List.mem_of_mem_eraseIdx hq)

theorem mem_running_of_next {S : System σ ρ π ι ε ω} {x : ι} (hp : s.running[n]? = some p)
    (hq : (S.advance s.store p x).2.1 = some q) : q ∈ (step S s (.step n x)).1.running := by
  have hn : n < s.running.length := (List.getElem?_eq_some_iff.1 hp).1
  simp only [step, hp, hq]
  exact List.mem_set hn ..

section

variable (S : System σ ρ π ι ε ω)

theorem mem_running_crash (hq : q ∈ s.running)
    (hn : s.running[n]? ≠ some q) : q ∈ (step S s (.crash n)).1.running := by
  obtain ⟨m, hm⟩ := List.mem_iff_getElem?.1 hq
  refine List.mem_eraseIdx_iff_getElem?.2 ⟨m, ?_, hm⟩
  rintro rfl
  exact hn hm

theorem step_store (hrefl : ∀ s, R s s)
    (hadvance : ∀ s p x, R s (S.advance s p x).1) (hworld : ∀ s e, R s (S.world s e).1)
    (s : State σ π) (i : Input ρ ι ε) : R s.store (step S s i).1.store := by
  cases i with
  | start r => exact hrefl _
  | step n x =>
    cases hp : s.running[n]? with
    | none =>
      simp only [step, hp]
      exact hrefl _
    | some p =>
      simp only [step, hp]
      exact hadvance _ _ _
  | crash n => exact hrefl _
  | world e => exact hworld _ _

/-- **The frame rule**: such a relation holds across a run. -/
theorem final_store (hrefl : ∀ s, R s s) (htrans : ∀ s t u, R s t → R t u → R s u)
    (hadvance : ∀ s p x, R s (S.advance s p x).1) (hworld : ∀ s e, R s (S.world s e).1)
    (s : State σ π) (is : List (Input ρ ι ε)) : R s.store (Reactive.final (step S) s is).store := by
  induction is generalizing s with
  | nil => exact hrefl _
  | cons i is ih =>
    exact htrans _ _ _ (step_store S hrefl hadvance hworld s i) (ih (step S s i).1)

end

/-- The handlers other than the one at `n` are apart from it. -/
theorem apart_of_mem_eraseIdx {D : π → π → Prop} (hsymm : ∀ p q, D p q → D q p)
    (h : running.Pairwise D) (hp : running[n]? = some p) (hq : q ∈ running.eraseIdx n) : D p q := by
  obtain ⟨m, hne, hm⟩ := List.mem_eraseIdx_iff_getElem?.1 hq
  obtain ⟨hn', hp'⟩ := List.getElem?_eq_some_iff.1 hp
  obtain ⟨hm', hq'⟩ := List.getElem?_eq_some_iff.1 hm
  rw [← hp', ← hq']
  rcases Nat.lt_or_gt_of_ne hne with hlt | hlt
  · exact hsymm _ _ (List.pairwise_iff_getElem.1 h m n hm' hn' hlt)
  · exact List.pairwise_iff_getElem.1 h n m hn' hm' hlt

/-- A handler that is apart from all the others may take the place of the one at `n`. -/
theorem pairwise_set {D : π → π → Prop} (hsymm : ∀ p q, D p q → D q p) (h : running.Pairwise D)
    (hp : ∀ q ∈ running.eraseIdx n, D p q) : (running.set n p).Pairwise D := by
  have hother : ∀ m (hm : m < running.length), m ≠ n → D p running[m] := fun m hm hne =>
    hp _ (List.mem_eraseIdx_iff_getElem?.2 ⟨m, hne, List.getElem?_eq_getElem hm⟩)
  refine List.pairwise_iff_getElem.2 fun i j hi hj hij => ?_
  rw [List.length_set] at hi hj
  rw [List.getElem_set, List.getElem_set]
  split_ifs with hni hnj hnj
  · omega
  · exact hother j hj (Ne.symm hnj)
  · exact hsymm _ _ (hother i hi (Ne.symm hni))
  · exact List.pairwise_iff_getElem.1 h i j hi hj hij

/-- The invariant holds of the store, every handler has what it relies on, and any two of them are
apart. -/
structure Sound (I : σ → Prop) (L : σ → π → Prop) (D : π → π → Prop) (s : State σ π) : Prop where
  store : I s.store
  running : ∀ p ∈ s.running, L s.store p
  apart : s.running.Pairwise D

/-- A sound state in which the handler at `n` is at `p`, about to make a move that meets `C`. -/
structure Due (I : σ → Prop) (L : σ → π → Prop) (D : π → π → Prop)
    (C : State σ π → Input ρ ι ε → Prop) (s : State σ π) (n : ℕ) (x : ι) (p : π) : Prop where
  sound : Sound I L D s
  meets : C s (.step n x)
  point : s.running[n]? = some p

theorem Due.relies {I : σ → Prop} {L : σ → π → Prop} {D : π → π → Prop}
    {C : State σ π → Input ρ ι ε → Prop} {x : ι} (h : Due I L D C s n x p) : L s.store p :=
  h.sound.running p (List.mem_of_getElem? h.point)

/-- Every move that meets the condition `C` keeps the invariant `I`, what the handlers rely on, `L`,
and what keeps them apart, `D`, and emits only what is `good`. -/
structure NonInterfering (S : System σ ρ π ι ε ω) (I : σ → Prop) (L : σ → π → Prop)
    (D : π → π → Prop) (C : State σ π → Input ρ ι ε → Prop) (good : ω → Prop) : Prop where
  symm : ∀ p q, D p q → D q p
  enter : ∀ s r, I s.store → C s (.start r) → L s.store (S.enter r)
  alone : ∀ p r, D p (S.enter r)
  advance : ∀ s n x p, Due I L D C s n x p → I (S.advance s.store p x).1
  next : ∀ s n x p p', Due I L D C s n x p → (S.advance s.store p x).2.1 = some p' →
    L (S.advance s.store p x).1 p'
  others : ∀ s n x p q, Due I L D C s n x p → q ∈ s.running.eraseIdx n → D p q →
    L (S.advance s.store p x).1 q
  apart : ∀ s n x p p' q, Due I L D C s n x p → (S.advance s.store p x).2.1 = some p' →
    q ∈ s.running.eraseIdx n → D p q → D p' q
  emits : ∀ s n x p, Due I L D C s n x p → ∀ o ∈ (S.advance s.store p x).2.2, good o
  world : ∀ s e, Sound I L D s → C s (.world e) → I (S.world s.store e).1 ∧
    (∀ p ∈ s.running, L (S.world s.store e).1 p) ∧ ∀ o ∈ (S.world s.store e).2, good o

namespace NonInterfering

variable {S : System σ ρ π ι ε ω} {I : σ → Prop} {L : σ → π → Prop} {D : π → π → Prop}
  {C : State σ π → Input ρ ι ε → Prop} {good : ω → Prop}

section

variable (h : NonInterfering S I L D C good)
include h

/-- **The step rule.** -/
theorem step {i : Input ρ ι ε} (hs : Sound I L D s) (hC : C s i) :
    Sound I L D (Interleaving.step S s i).1 ∧ ∀ o ∈ (Interleaving.step S s i).2, good o := by
  cases i with
  | start r =>
    refine ⟨⟨hs.store, fun q hq => ?_, ?_⟩, fun o ho => absurd ho (List.not_mem_nil)⟩
    · rcases List.mem_append.1 hq with hq | hq
      · exact hs.running q hq
      · rw [List.mem_singleton.1 hq]
        exact h.enter s r hs.store hC
    · refine List.pairwise_append.2 ⟨hs.apart, List.pairwise_singleton _ _, fun p _ q hq => ?_⟩
      rw [List.mem_singleton.1 hq]
      exact h.alone p r
  | step n x =>
    cases hp : s.running[n]? with
    | none =>
      have hstep : Interleaving.step S s (.step n x) = (s, []) := by
        simp [Interleaving.step, hp]
      rw [hstep]
      exact ⟨hs, fun o ho => absurd ho (List.not_mem_nil)⟩
    | some p =>
      have hdue : Due I L D C s n x p := ⟨hs, hC, hp⟩
      have hothers : ∀ q ∈ s.running.eraseIdx n, L (S.advance s.store p x).1 q :=
        fun q hq => h.others s n x p q hdue hq (apart_of_mem_eraseIdx h.symm hs.apart hp hq)
      simp only [Interleaving.step, hp]
      refine ⟨⟨h.advance s n x p hdue, ?_, ?_⟩, h.emits s n x p hdue⟩
      · intro q hq
        cases hnext : (S.advance s.store p x).2.1 with
        | none =>
          rw [hnext] at hq
          exact hothers q hq
        | some p' =>
          rw [hnext] at hq
          rcases mem_set_or hq with rfl | hq
          · exact h.next s n x p _ hdue hnext
          · exact hothers q hq
      · cases hnext : (S.advance s.store p x).2.1 with
        | none => exact hs.apart.sublist (List.eraseIdx_sublist _ _)
        | some p' =>
          refine pairwise_set h.symm hs.apart fun q hq => ?_
          exact h.apart s n x p p' q hdue hnext hq
            (apart_of_mem_eraseIdx h.symm hs.apart hp hq)
  | crash n =>
    refine ⟨⟨hs.store, fun q hq => ?_, hs.apart.sublist (List.eraseIdx_sublist _ _)⟩,
      fun o ho => absurd ho (List.not_mem_nil)⟩
    exact hs.running q (List.mem_of_mem_eraseIdx hq)
  | world e =>
    obtain ⟨hstore, hrunning, hemits⟩ := h.world s e hs hC
    exact ⟨⟨hstore, hrunning, hs.apart⟩, hemits⟩

/-- **The run rule**: what is sound stays sound along a run whose moves meet the condition. -/
theorem final (hs : Sound I L D s) (hC : Reactive.Along (Interleaving.step S) C s is) :
    Sound I L D (Reactive.final (Interleaving.step S) s is) := by
  have hstep : ∀ s i, Sound I L D s → C s i → Sound I L D (Interleaving.step S s i).1 :=
    fun s i hs hC => (h.step hs hC).1
  exact Reactive.final_of_inv_along _ hstep hs hC

/-- **The run rule** for what is emitted. -/
theorem outputs (hs : Sound I L D s) (hC : Reactive.Along (Interleaving.step S) C s is) :
    ∀ o ∈ Reactive.outputs (Interleaving.step S) s is, good o := by
  have hempty : ∀ o ∈ ([] : List ω), good o := fun o ho => absurd ho List.not_mem_nil
  have hinv := Reactive.outputs_of_inv_along (P := fun s out => Sound I L D s ∧ ∀ o ∈ out, good o)
    (Interleaving.step S)
    (fun s i out hP hC => ⟨(h.step hP.1 hC).1, fun o ho =>
      (List.mem_append.1 ho).elim (hP.2 o) ((h.step hP.1 hC).2 o)⟩)
    ⟨hs, hempty⟩ hC
  simpa using hinv.2

/-- **The history rule**: a fact about the store that comes with an output when it is emitted, and
that no move takes back, holds of all that has been emitted. -/
theorem facts (fact : ω → σ → Prop) (hemits : ∀ s n x p, Due I L D C s n x p →
      ∀ o ∈ (S.advance s.store p x).2.2, fact o (S.advance s.store p x).1)
    (hworld : ∀ s e, Sound I L D s → C s (.world e) →
      ∀ o ∈ (S.world s.store e).2, fact o (S.world s.store e).1)
    (hadvance : ∀ s n x p o, Due I L D C s n x p → fact o s.store →
      fact o (S.advance s.store p x).1)
    (houtside : ∀ s e o, Sound I L D s → C s (.world e) → fact o s.store →
      fact o (S.world s.store e).1) (hs : Sound I L D s)
    (hC : Reactive.Along (Interleaving.step S) C s is) :
    ∀ o ∈ Reactive.outputs (Interleaving.step S) s is,
      fact o (Reactive.final (Interleaving.step S) s is).store := by
  have hstep : ∀ s i out, (Sound I L D s ∧ ∀ o ∈ out, fact o s.store) → C s i →
      Sound I L D (Interleaving.step S s i).1 ∧
        ∀ o ∈ out ++ (Interleaving.step S s i).2, fact o (Interleaving.step S s i).1.store := by
    rintro s i out ⟨hs, hout⟩ hC
    refine ⟨(h.step hs hC).1, ?_⟩
    cases i with
    | start | crash => simpa [Interleaving.step] using hout
    | world e =>
      intro o ho
      rcases List.mem_append.1 ho with ho | ho
      · exact houtside s e o hs hC (hout o ho)
      · exact hworld s e hs hC o ho
    | step n x =>
      cases hp : s.running[n]? with
      | none => simpa [Interleaving.step, hp] using hout
      | some p =>
        have hdue : Due I L D C s n x p := ⟨hs, hC, hp⟩
        simp only [Interleaving.step, hp]
        intro o ho
        rcases List.mem_append.1 ho with ho | ho
        · exact hadvance s n x p o hdue (hout o ho)
        · exact hemits s n x p hdue o ho
  have hinv := Reactive.outputs_of_inv_along
    (P := fun s out => Sound I L D s ∧ ∀ o ∈ out, fact o s.store) (Interleaving.step S) hstep
    ⟨hs, fun o ho => absurd ho List.not_mem_nil⟩ hC
  simpa using hinv.2

end

end NonInterfering

/-! ### Handlers that are retried until they are through -/

/-- A handler works on one request from its first step to its last, and says so when it ends. -/
structure Accountable (S : System σ ρ π ι ε ω) (request : π → ρ) (handled : ρ → ω) : Prop where
  enter : ∀ r, request (S.enter r) = r
  next : ∀ s p x p', (S.advance s p x).2.1 = some p' → request p' = request p
  ends : ∀ s p x, (S.advance s p x).2.1 = none → handled (request p) ∈ (S.advance s p x).2.2

namespace Accountable

variable {S : System σ ρ π ι ε ω} {request : π → ρ} {handled : ρ → ω}

/-- Where nothing dies, a request under way stays under way until it is handled. -/
theorem step (h : Accountable S request handled) {i : Input ρ ι ε} (hi : ∀ n, i ≠ .crash n) {r : ρ}
    (hr : (∃ p ∈ s.running, request p = r) ∨ i = .start r) :
    handled r ∈ (Interleaving.step S s i).2 ∨
      ∃ p ∈ (Interleaving.step S s i).1.running, request p = r := by
  cases i with
  | start q =>
    right
    rcases hr with ⟨p, hp, hr⟩ | hr
    · exact ⟨p, List.mem_append_left _ hp, hr⟩
    · obtain rfl : q = r := Input.start.inj hr
      exact ⟨_, List.mem_append_right _ (List.mem_singleton_self _), h.enter q⟩
  | crash n => exact absurd rfl (hi n)
  | world e =>
    right
    obtain ⟨p, hp, hr⟩ := hr.resolve_right (by simp)
    exact ⟨p, hp, hr⟩
  | step n x =>
    obtain ⟨q, hq, rfl⟩ := hr.resolve_right (by simp)
    rcases running_step S hq n x with hp | hstays
    · -- the handler of the request is the one that moves
      cases hnext : (S.advance s.store q x).2.1 with
      | none =>
        left
        simp only [Interleaving.step, hp]
        exact h.ends _ _ _ hnext
      | some p' => exact .inr ⟨p', mem_running_of_next hp hnext, h.next _ _ _ _ hnext⟩
    · exact .inr ⟨q, hstays, rfl⟩

/-- **Where nothing dies, every request that was made has been handled or is under way.** -/
theorem handled_or_running (h : Accountable S request handled) (his : ∀ n, .crash n ∉ is) {r : ρ}
    (hr : (∃ p ∈ s.running, request p = r) ∨ .start r ∈ is) :
    handled r ∈ Reactive.outputs (Interleaving.step S) s is ∨
      ∃ p ∈ (Reactive.final (Interleaving.step S) s is).running, request p = r := by
  induction is generalizing s with
  | nil => exact .inr (hr.resolve_right List.not_mem_nil)
  | cons i is ih =>
    have hi : ∀ n, i ≠ .crash n := fun n hn => his n (hn ▸ List.mem_cons_self ..)
    have hrest : ∀ n, .crash n ∉ is := fun n hn => his n (List.mem_cons_of_mem _ hn)
    have hlater : (handled r ∈ (Interleaving.step S s i).2) ∨
        (∃ p ∈ (Interleaving.step S s i).1.running, request p = r) ∨ .start r ∈ is := by
      rcases hr with hr | hr
      · exact (h.step hi (.inl hr)).imp_right .inl
      · rcases List.mem_cons.1 hr with hr | hr
        · exact (h.step hi (.inr hr.symm)).imp_right .inl
        · exact .inr (.inr hr)
    rw [Reactive.outputs_cons]
    rcases hlater with hnow | hlater
    · exact .inl (List.mem_append_left _ hnow)
    · exact (ih hrest hlater).imp_left (List.mem_append_right _)

end Accountable

/-! ### A handler on its own -/

variable (S : System σ ρ π ι ε ω)

/-- A handler runs with nobody else about; it dies where its answers end. -/
def solo (S : System σ ρ π ι ε ω) : σ → Option π → List ι → σ × List ω
  | s, some p, x :: xs =>
    let rest := solo S (S.advance s p x).1 (S.advance s p x).2.1 xs
    (rest.1, (S.advance s p x).2.2 ++ rest.2)
  | s, _, _ => (s, [])

@[simp] theorem solo_none (s : σ) (xs : List ι) : solo S s none xs = (s, []) := by
  cases xs <;> rfl

@[simp] theorem solo_nil (s : σ) (p : Option π) : solo S s p [] = (s, []) := by
  cases p <;> rfl

theorem solo_cons (s : σ) (p : π) (x : ι) (xs : List ι) :
    solo S s (some p) (x :: xs) =
      ((solo S (S.advance s p x).1 (S.advance s p x).2.1 xs).1,
        (S.advance s p x).2.2 ++ (solo S (S.advance s p x).1 (S.advance s p x).2.1 xs).2) :=
  rfl

/-- A relation between stores that every step respects holds across a handler on its own. -/
theorem solo_store (hrefl : ∀ s, R s s)
    (htrans : ∀ s t u, R s t → R t u → R s u) (hadvance : ∀ s p x, R s (S.advance s p x).1) (s : σ)
    (p : Option π) (xs : List ι) : R s (solo S s p xs).1 := by
  induction xs generalizing s p with
  | nil =>
    rw [solo_nil]
    exact hrefl s
  | cons x xs ih =>
    cases p with
    | none =>
      rw [solo_none]
      exact hrefl s
    | some p =>
      rw [solo_cons]
      exact htrans _ _ _ (hadvance s p x) (ih _ _)

/-- Where a handler on its own is after its answers; `none` is where it has ended. -/
def soloPoint (S : System σ ρ π ι ε ω) : σ → Option π → List ι → Option π
  | s, some p, x :: xs => soloPoint S (S.advance s p x).1 (S.advance s p x).2.1 xs
  | _, p, _ => p

@[simp] theorem soloPoint_none (s : σ) (xs : List ι) : soloPoint S s none xs = none := by
  cases xs <;> rfl

@[simp] theorem soloPoint_nil (s : σ) (p : Option π) : soloPoint S s p [] = p := by
  cases p <;> rfl

/-- **The invariant rule for a handler on its own.** -/
theorem solo_inv {L : σ → Option π → Prop}
    (hadvance : ∀ s p x, L s (some p) → L (S.advance s p x).1 (S.advance s p x).2.1) {s : σ}
    {p : Option π} (h : L s p) (xs : List ι) : L (solo S s p xs).1 (soloPoint S s p xs) := by
  induction xs generalizing s p with
  | nil => simpa using h
  | cons x xs ih =>
    cases p with
    | none => simpa using h
    | some p => exact ih (hadvance s p x h)

/-- **A handler whose steps go down a well-founded order ends**, whatever it is answered. -/
theorem solo_ends {κ : Type*} {r : κ → κ → Prop} (hwf : WellFounded r) (rank : π → κ)
    (hadvance : ∀ s p x q, (S.advance s p x).2.1 = some q → r (rank q) (rank p)) (f : ℕ → ι)
    (s : σ) (p : π) : ∃ n, soloPoint S s (some p) ((List.range n).map f) = none := by
  induction hk : rank p using hwf.induction generalizing s p f with
  | _ k ih =>
    subst hk
    cases hq : (S.advance s p (f 0)).2.1 with
    | none =>
      refine ⟨1, ?_⟩
      simp only [List.range_one, List.map_singleton, soloPoint, hq]
    | some q =>
      obtain ⟨n, hn⟩ := ih _ (hadvance s p _ q hq) (fun m => f (m + 1))
        (S.advance s p (f 0)).1 q rfl
      refine ⟨n + 1, ?_⟩
      rw [List.range_succ_eq_map, List.map_cons, List.map_map, soloPoint, hq]
      exact hn

/-- What a handler emits on its own, where each of its points has what it relies on. -/
theorem solo_outputs {L : σ → π → Prop} {good : ω → Prop}
    (hnext : ∀ s p x q, L s p → (S.advance s p x).2.1 = some q → L (S.advance s p x).1 q)
    (hemits : ∀ s p x, L s p → ∀ o ∈ (S.advance s p x).2.2, good o) {s : σ} {p : π} (hL : L s p)
    (xs : List ι) : ∀ o ∈ (solo S s (some p) xs).2, good o := by
  induction xs generalizing s p with
  | nil =>
    intro o ho
    exact absurd ho List.not_mem_nil
  | cons x xs ih =>
    intro o ho
    rcases List.mem_append.1 ho with ho | ho
    · exact hemits s p x hL o ho
    · cases hq : (S.advance s p x).2.1 with
      | none =>
        rw [hq, solo_none] at ho
        exact absurd ho List.not_mem_nil
      | some q =>
        rw [hq] at ho
        exact ih (hnext s p x q hL hq) o ho

end Interleaving
