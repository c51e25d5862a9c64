/-
**Programs that make calls, and the traces they leave.**

A program asks the world outside, one call after another; each call is answered or fails, and what
the world answers may depend on everything it has been asked before.  A run leaves the trace of its
calls with their answers.  This module gives such programs as a monad, and the rules by which one
shows what every run of a program ends in and what trace it leaves: a property of the result
and of the trace it leaves is established for every world and every history at once.

Main definitions:

* `CallTrace.Prog` — a program, with `CallTrace.call` and `CallTrace.attempt` for one call;
* `CallTrace.Ensures` — what holds of the result and of the calls of every run;
* `CallTrace.Followed` — after each event of a trace, the rest of it has a property;
* `CallTrace.Preceded` — before each event of a trace, what led to it has a property.

Main results:

* `CallTrace.Ensures.bind` — the rule of composition;
* `CallTrace.ensures_each` — the rule of a loop over a list;
* `CallTrace.followed_append`, `CallTrace.preceded_append` — the two properties of a trace that is
  put together from two.
-/

import Mathlib.Data.List.Basic

namespace CallTrace

universe u

variable {Q ε : Type} {R : Q → Type} {α β : Type}

/-- A call that has been made, with what came back. -/
structure Event (ε : Type) (R : Q → Type) where
  query : Q
  answer : Except ε (R query)

/-- The world outside, which answers from all that has happened. -/
abbrev World (ε : Type) (R : Q → Type) := List (Event ε R) → (q : Q) → Except ε (R q)

/-- A program: what it comes to in a world with a history, and the calls it makes. -/
def Prog (ε : Type) (R : Q → Type) (α : Type) :=
  World ε R → List (Event ε R) → Except ε α × List (Event ε R)

/-- The program without calls. -/
def done (a : α) : Prog ε R α := fun _ _ => (.ok a, [])

def fail (e : ε) : Prog ε R α := fun _ _ => (.error e, [])

/-- One program after another; a failure ends both. -/
def andThen (p : Prog ε R α) (f : α → Prog ε R β) : Prog ε R β := fun w h =>
  match p w h with
  | (.error e, t) => (.error e, t)
  | (.ok a, t) => ((f a w (h ++ t)).1, t ++ (f a w (h ++ t)).2)

instance : Monad (Prog ε R) where
  pure := done
  bind := andThen

/-- One call, whose failure the program looks at itself. -/
def attempt (q : Q) : Prog ε R (Except ε (R q)) := fun w h =>
  (.ok (w h q), [⟨q, w h q⟩])

/-- One call, whose failure is the program's. -/
def call (q : Q) : Prog ε R (R q) := fun w h => (w h q, [⟨q, w h q⟩])

def each (f : β → Prog ε R Unit) : List β → Prog ε R Unit
  | [] => pure ()
  | b :: bs => do f b; each f bs

/-! ### What every run ensures -/

/-- `Φ` holds of what the program comes to and of its calls, in every world after every history. -/
def Ensures (p : Prog ε R α) (Φ : Except ε α → List (Event ε R) → Prop) : Prop :=
  ∀ w h, Φ (p w h).1 (p w h).2

variable {p : Prog ε R α} {f : α → Prog ε R β}
  {Φ : Except ε α → List (Event ε R) → Prop} {Ψ : Except ε β → List (Event ε R) → Prop}

theorem Ensures.mono {Φ' : Except ε α → List (Event ε R) → Prop} (h : Ensures p Φ)
    (himp : ∀ r t, Φ r t → Φ' r t) : Ensures p Φ' := fun w hist => himp _ _ (h w hist)

theorem ensures_pure {a : α} (h : Φ (.ok a) []) : Ensures (pure a : Prog ε R α) Φ := fun _ _ => h

theorem ensures_fail {e : ε} (h : Φ (.error e) []) : Ensures (fail e : Prog ε R α) Φ :=
  fun _ _ => h

theorem ensures_attempt {q : Q} {Φ : Except ε (Except ε (R q)) → List (Event ε R) → Prop}
    (h : ∀ a, Φ (.ok a) [⟨q, a⟩]) : Ensures (attempt q) Φ := fun w hist => h (w hist q)

theorem ensures_call {q : Q} {Φ : Except ε (R q) → List (Event ε R) → Prop}
    (h : ∀ a, Φ a [⟨q, a⟩]) : Ensures (call q) Φ := fun w hist => h (w hist q)

/-- **The rule of composition.** -/
theorem Ensures.bind (hp : Ensures p Φ)
    (hok : ∀ a t, Φ (.ok a) t → Ensures (f a) fun r u => Ψ r (t ++ u))
    (herr : ∀ e t, Φ (.error e) t → Ψ (.error e) t) : Ensures (p >>= f) Ψ := by
  intro w hist
  have h := hp w hist
  change Ψ (andThen p f w hist).1 (andThen p f w hist).2
  unfold andThen
  split
  next e t heq =>
    rw [heq] at h
    exact herr e t h
  next a t heq =>
    rw [heq] at h
    exact hok a t h w (hist ++ t)

/-- **The rule of a loop.**  What one pass ensures of its own calls, and what goes on to hold of
any trace around them, the loop ensures for every element. -/
theorem ensures_each {f : β → Prog ε R Unit} {N : Event ε R → Prop}
    {P : β → List (Event ε R) → Prop} (hP : ∀ b s t u, P b t → P b (s ++ t ++ u))
    (hf : ∀ b, Ensures (f b) fun r t => (∀ e ∈ t, N e) ∧ (r = .ok () → P b t)) (bs : List β) :
    Ensures (each f bs) fun r t => (∀ e ∈ t, N e) ∧ (r = .ok () → ∀ b ∈ bs, P b t) := by
  induction bs with
  | nil => exact ensures_pure ⟨by simp, by simp⟩
  | cons b bs ih =>
      refine (hf b).bind ?_ ?_
      · intro _ t ht
        refine ih.mono ?_
        rintro r u ⟨hN, hall⟩
        constructor
        · intro e he
          rcases List.mem_append.1 he with he | he
          · exact ht.1 e he
          · exact hN e he
        · intro hr c hc
          rcases List.mem_cons.1 hc with rfl | hc
          · exact hP c [] t u (ht.2 rfl)
          · have h := hP c t u [] (hall hr c hc)
            rwa [List.append_nil] at h
      · rintro e t ⟨hN, -⟩
        exact ⟨hN, by simp⟩

/-! ### Properties along a trace -/

section
variable {σ : Type u} {P : σ → List σ → Prop} {S : List σ → σ → Prop} {t v : List σ}

/-- After each event of the trace, the rest of it has the property. -/
def Followed (P : σ → List σ → Prop) : List σ → Prop
  | [] => True
  | e :: t => P e t ∧ Followed P t

theorem followed_append (hP : ∀ e b c, P e b → P e (b ++ c)) (ht : Followed P t)
    (hv : Followed P v) : Followed P (t ++ v) := by
  induction t with
  | nil => exact hv
  | cons e t ih => exact ⟨hP e t v ht.1, ih ht.2⟩

theorem followed_of_forall (h : ∀ e ∈ t, ∀ b, P e b) : Followed P t := by
  induction t with
  | nil => trivial
  | cons e t ih =>
      exact ⟨h e (List.mem_cons_self ..) t, ih fun x hx => h x (List.mem_cons_of_mem _ hx)⟩

/-- Before each event of the trace, what led to it has the property. -/
def Preceded (S : List σ → σ → Prop) (t : List σ) : Prop := ∀ a e b, t = a ++ e :: b → S a e

theorem preceded_of_forall (h : ∀ e ∈ t, ∀ a, S a e) : Preceded S t := by
  rintro a e b rfl
  exact h e (by simp) a

theorem preceded_append (ht : Preceded S t) (hv : Preceded (fun a => S (t ++ a)) v) :
    Preceded S (t ++ v) := by
  intro a e b h
  rcases List.append_eq_append_iff.1 h with ⟨c, rfl, hc⟩ | ⟨c, rfl, hc⟩
  · exact hv c e b hc
  · cases c with
    | nil =>
        rw [List.nil_append] at hc
        have := hv [] e b hc.symm
        rwa [List.append_nil, List.append_nil] at this
    | cons x c =>
        obtain ⟨rfl, -⟩ := List.cons.inj hc
        exact ht a _ c rfl

theorem preceded_singleton {e : σ} (h : S [] e) : Preceded S [e] := by
  intro a x b hab
  cases a with
  | nil =>
      obtain ⟨rfl, -⟩ := List.cons.inj hab
      exact h
  | cons y a =>
      obtain ⟨-, hab⟩ := List.cons.inj hab
      simp at hab

end

end CallTrace
