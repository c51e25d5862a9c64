/-
**Replays of opt-out texts.**

`handleInboundMessage` threads a text, then does what its keyword says to the opt-out of its sender,
and then does the rest, most of which only the first delivery does; any of it may throw.  A delivery
that has thrown is replayed by the sweeper, and `handleOptOutKeywords` runs on every replay.  The
upsert of a STOP and the revoke of a START are idempotent, and they do not commute: the step of an
old text that is replayed undoes that of a newer one.

Main result:

* `OptOutReplay.honoured_iff` — **the newest keyword is honoured exactly when every step of the
  other keyword is followed by one of its own**.
-/

import Texturion.OptOuts
import Texturion.Interleaving

namespace OptOutReplay

open JsText OptOuts Interleaving

/-- The opt-out of the sender, and the texts that are in a thread already. -/
structure Store where
  row : Option OptOut
  threaded : List ℕ
  deriving DecidableEq

/-- The call that the handling of a text makes next; the texts have numbers in the order in which
they were sent. -/
inductive Point
  /-- All up to and including `thread_inbound_message`. -/
  | threading (text : ℕ)
  | optOut (text : ℕ) (created : Bool)
  /-- The line in the thread, which the first delivery writes. -/
  | event (text : ℕ)
  /-- All that comes after `handleOptOutKeywords`. -/
  | rest (text : ℕ)
  deriving DecidableEq

/-- What becomes of a call: it is made, it is made and the handler throws all the same, or it is not
made and the handler throws. -/
inductive Answer
  | done (now : ℤ) (id : Uuid)
  | unheard (now : ℤ) (id : Uuid)
  | failed

inductive Happened
  /-- The opt-out step of the text has run. -/
  | ran (text : ℕ)
  /-- The text has been handled to completion. -/
  | handled (text : ℕ)
  deriving DecidableEq

variable (toUpperCase : Text → Text) (texts : List Text)

def keywordAt (text : ℕ) : Option Keyword := texts[text]?.bind (keywordOf toUpperCase)

/-- `handleInboundMessage`, on its first delivery and on every replay. -/
def advance (s : Store) (p : Point) (x : Answer) : Store × Option Point × List Happened :=
  match p with
  | .threading text =>
    let threaded := { s with threaded := text :: s.threaded }
    match x with
    | .done _ _ => (threaded, some (.optOut text !(s.threaded.contains text)), [])
    | .unheard _ _ => (threaded, none, [])
    | .failed => (s, none, [])
  | .optOut text created =>
    match keywordAt toUpperCase texts text with
    | none => (s, some (.rest text), [])
    | some word =>
      match x with
      | .done now id =>
        ({ s with row := word.statement.apply now id s.row },
          some (if created && word.statement.returns s.row then .event text else .rest text),
          [.ran text])
      | .unheard now id =>
        ({ s with row := word.statement.apply now id s.row }, none, [.ran text])
      | .failed => (s, none, [])
  | .event text =>
    match x with
    | .done _ _ => (s, some (.rest text), [])
    | _ => (s, none, [])
  | .rest text =>
    match x with
    | .done _ _ => (s, none, [.handled text])
    | _ => (s, none, [])

/-- The deliveries of the texts: each may come at any time, and any number of times. -/
def deliveries : System Store ℕ Point Answer Empty Happened where
  enter := .threading
  advance := advance toUpperCase texts
  world s _ := (s, [])

/-- The newest keyword that the customer has sent. -/
def lastKeyword : Option Keyword := (texts.filterMap (keywordOf toUpperCase)).getLast?

def stepOf : Happened → Option Keyword
  | .ran text => keywordAt toUpperCase texts text
  | .handled _ => none

/-- The keywords whose steps have run, in the order in which they ran. -/
def stepsOf (out : List Happened) : List Keyword := out.filterMap (stepOf toUpperCase texts)

/-- The opt-out that a list of keywords leaves behind. -/
def optedOutBy (before : Bool) : Option Keyword → Bool
  | some word => decide (word = .stop)
  | none => before

def CaughtUp (word : Keyword) (steps : List Keyword) : Prop :=
  ∀ pre other post, steps = pre ++ other :: post → other ≠ word → word ∈ post

variable {toUpperCase texts}

theorem caughtUp_iff {word : Keyword} {steps : List Keyword} (hmem : word ∈ steps) :
    CaughtUp word steps ↔ steps.getLast? = some word := by
  obtain ⟨init, last, rfl⟩ := List.eq_nil_or_concat' steps |>.resolve_left
    (List.ne_nil_of_mem hmem)
  rw [List.getLast?_concat, Option.some.injEq]
  constructor
  · intro h
    by_contra hne
    exact absurd (h init last [] rfl hne) List.not_mem_nil
  · rintro rfl pre other post hsplit hother
    rcases List.eq_nil_or_concat' post with rfl | ⟨post, b, rfl⟩
    · obtain ⟨-, hlast⟩ := List.append_inj' hsplit rfl
      exact absurd (List.singleton_inj.1 hlast).symm hother
    · have hends : init ++ [last] = (pre ++ other :: post) ++ [b] := by
        rw [hsplit]
        simp
      obtain ⟨-, hlast⟩ := List.append_inj' hends rfl
      rw [List.singleton_inj.1 hlast]
      exact List.mem_append_right _ (List.mem_singleton_self b)

/-! ### One move -/

/-- What holds of the store, the handlers under way and all that has happened so far. -/
structure Kept (toUpperCase : Text → Text) (texts : List Text) (before : Bool)
    (s : State Store Point) (out : List Happened) : Prop where
  row : isActive s.store.row = optedOutBy before (stepsOf toUpperCase texts out).getLast?
  handled : ∀ text, .handled text ∈ out → (keywordAt toUpperCase texts text).isSome = true →
    .ran text ∈ out
  event : ∀ text, .event text ∈ s.running → .ran text ∈ out
  rest : ∀ text, .rest text ∈ s.running → (keywordAt toUpperCase texts text).isSome = true →
    .ran text ∈ out

/-- What one call does. -/
structure Advanced (toUpperCase : Text → Text) (texts : List Text) (s : Store) (p : Point)
    (r : Store × Option Point × List Happened) : Prop where
  row : isActive r.1.row =
    optedOutBy (isActive s.row) (stepsOf toUpperCase texts r.2.2).getLast?
  handled : ∀ text, .handled text ∈ r.2.2 → p = .rest text
  event : ∀ text, r.2.1 = some (.event text) → .ran text ∈ r.2.2
  rest : ∀ text, r.2.1 = some (.rest text) → p = .event text ∨
    keywordAt toUpperCase texts text = none ∨ .ran text ∈ r.2.2

theorem advanced_quiet {s s' : Store} {p : Point} {next : Option Point} (hrow : s'.row = s.row)
    (hevent : ∀ text, next ≠ some (.event text))
    (hrest : ∀ text, next = some (.rest text) → p = .event text ∨
      keywordAt toUpperCase texts text = none) :
    Advanced toUpperCase texts s p (s', next, []) where
  row := by rw [hrow]; rfl
  handled text h := absurd h List.not_mem_nil
  event text h := absurd h (hevent text)
  rest text h := (hrest text h).imp_right .inl

theorem advanced_ran {s : Store} {text : ℕ} {created : Bool} {word : Keyword}
    (hword : keywordAt toUpperCase texts text = some word) (now : ℤ) (id : Uuid)
    {next : Option Point}
    (hnext : ∀ q, next = some q → q = .event text ∨ q = .rest text) :
    Advanced toUpperCase texts s (.optOut text created)
      ({ s with row := word.statement.apply now id s.row }, next, [.ran text]) where
  row := by
    rw [isActive_keyword]
    simp [stepsOf, stepOf, hword, optedOutBy]
  handled t h := by simp at h
  event t h := by
    rcases hnext _ h with heq | heq
    · obtain rfl := Point.event.inj heq
      exact List.mem_singleton_self _
    · cases heq
  rest t h := by
    rcases hnext _ h with heq | heq
    · cases heq
    · obtain rfl := Point.rest.inj heq
      exact .inr (.inr (List.mem_singleton_self _))

theorem advance_advanced (toUpperCase : Text → Text) (texts : List Text) (s : Store) (p : Point)
    (x : Answer) : Advanced toUpperCase texts s p (advance toUpperCase texts s p x) := by
  cases p with
  | threading text =>
    cases x with
    | done now id => exact advanced_quiet rfl (by simp) (by simp)
    | unheard now id => exact advanced_quiet rfl (by simp) (by simp)
    | failed => exact advanced_quiet rfl (by simp) (by simp)
  | optOut text created =>
    cases hword : keywordAt toUpperCase texts text with
    | none =>
      simp only [advance, hword]
      refine advanced_quiet rfl (by simp) fun t h => .inr ?_
      obtain rfl := Point.rest.inj (Option.some.inj h)
      exact hword
    | some word =>
      cases x with
      | done now id =>
        simp only [advance, hword]
        refine advanced_ran hword now id fun q hq => ?_
        obtain rfl := Option.some.inj hq
        split
        · exact .inl rfl
        · exact .inr rfl
      | unheard now id =>
        simp only [advance, hword]
        exact advanced_ran hword now id (by simp)
      | failed =>
        simp only [advance, hword]
        exact advanced_quiet rfl (by simp) (by simp)
  | event text =>
    cases x with
    | done now id =>
      refine advanced_quiet rfl (by simp) fun t h => .inl ?_
      obtain rfl := Point.rest.inj (Option.some.inj h)
      rfl
    | unheard now id => exact advanced_quiet rfl (by simp) (by simp)
    | failed => exact advanced_quiet rfl (by simp) (by simp)
  | rest text =>
    cases x with
    | done now id => exact ⟨rfl, by simp [advance], by simp [advance], by simp [advance]⟩
    | unheard now id => exact advanced_quiet rfl (by simp) (by simp)
    | failed => exact advanced_quiet rfl (by simp) (by simp)

theorem optedOutBy_append (before : Bool) (steps more : List Keyword) :
    optedOutBy before (steps ++ more).getLast? =
      optedOutBy (optedOutBy before steps.getLast?) more.getLast? := by
  rw [List.getLast?_append]
  cases more.getLast? <;> rfl

theorem stepsOf_append (out more : List Happened) :
    stepsOf toUpperCase texts (out ++ more) =
      stepsOf toUpperCase texts out ++ stepsOf toUpperCase texts more :=
  List.filterMap_append

/-- **One move** keeps what holds of all that has happened. -/
theorem kept_step {before : Bool} {s : State Store Point} {out : List Happened}
    (h : Kept toUpperCase texts before s out) (i : Input ℕ Answer Empty) :
    Kept toUpperCase texts before (step (deliveries toUpperCase texts) s i).1
      (out ++ (step (deliveries toUpperCase texts) s i).2) := by
  -- a move that makes no call, and after which no handler is at a new point
  have hquiet : ∀ running : List Point,
      (∀ p ∈ running, p ∈ s.running ∨ ∃ text, p = .threading text) →
        Kept toUpperCase texts before { s with running := running } (out ++ []) := by
    intro running hrunning
    rw [List.append_nil]
    refine ⟨h.row, h.handled, fun text hmem => ?_, fun text hmem => ?_⟩
    · rcases hrunning _ hmem with hmem | ⟨t, ht⟩
      · exact h.event text hmem
      · cases ht
    · rcases hrunning _ hmem with hmem | ⟨t, ht⟩
      · exact h.rest text hmem
      · cases ht
  cases i with
  | start text =>
    refine hquiet _ fun p hp => ?_
    rcases List.mem_append.1 hp with hp | hp
    · exact .inl hp
    · exact .inr ⟨text, List.mem_singleton.1 hp⟩
  | crash n => exact hquiet _ fun p hp => .inl (List.mem_of_mem_eraseIdx hp)
  | world e => exact hquiet _ fun p hp => .inl hp
  | step n x =>
    cases hp : s.running[n]? with
    | none =>
      simp only [step, hp]
      exact hquiet _ fun p hp => .inl hp
    | some p =>
      have hcall := advance_advanced toUpperCase texts s.store p x
      have hmem := List.mem_of_getElem? hp
      have hrunning : ∀ q ∈ (step (deliveries toUpperCase texts) s (.step n x)).1.running,
          q ∈ s.running ∨ (advance toUpperCase texts s.store p x).2.1 = some q := by
        intro q hq
        rcases mem_running_step hq with hq | ⟨p', hp', hnext⟩
        · exact .inl hq
        · obtain rfl := Option.some.inj (hp.symm.trans hp')
          exact .inr hnext
      have hout : (step (deliveries toUpperCase texts) s (.step n x)).2 =
          (advance toUpperCase texts s.store p x).2.2 := by
        simp only [step, hp]
        rfl
      have hstore : (step (deliveries toUpperCase texts) s (.step n x)).1.store =
          (advance toUpperCase texts s.store p x).1 := by
        simp only [step, hp]
        rfl
      rw [hout]
      refine ⟨?_, ?_, ?_, ?_⟩
      · rw [hstore, hcall.row, h.row, stepsOf_append, optedOutBy_append]
      · intro text hhandled hword
        rcases List.mem_append.1 hhandled with hold | hnew
        · exact List.mem_append_left _ (h.handled text hold hword)
        · obtain rfl := hcall.handled text hnew
          exact List.mem_append_left _ (h.rest text hmem hword)
      · intro text hevent
        rcases hrunning _ hevent with hold | hnext
        · exact List.mem_append_left _ (h.event text hold)
        · exact List.mem_append_right _ (hcall.event text hnext)
      · intro text hrest hword
        rcases hrunning _ hrest with hold | hnext
        · exact List.mem_append_left _ (h.rest text hold hword)
        · rcases hcall.rest text hnext with rfl | hnone | hran
          · exact List.mem_append_left _ (h.event text hmem)
          · rw [hnone] at hword
            cases hword
          · exact List.mem_append_right _ hran

/-! ### Runs -/

/-- **The opt-out is that of the last step**, in every interleaving. -/
theorem kept_final (toUpperCase : Text → Text) (texts : List Text) (row : Option OptOut)
    (run : List (Input ℕ Answer Empty)) :
    Kept toUpperCase texts (isActive row)
      (Reactive.final (step (deliveries toUpperCase texts)) ⟨⟨row, []⟩, []⟩ run)
      (Reactive.outputs (step (deliveries toUpperCase texts)) ⟨⟨row, []⟩, []⟩ run) := by
  have hstart : Kept toUpperCase texts (isActive row) ⟨⟨row, []⟩, []⟩ [] :=
    ⟨rfl, fun _ h => absurd h List.not_mem_nil, fun _ h => absurd h List.not_mem_nil,
      fun _ h => absurd h List.not_mem_nil⟩
  exact Reactive.outputs_of_inv (step (deliveries toUpperCase texts))
    (P := Kept toUpperCase texts (isActive row)) (fun _ i _ h => kept_step h i) hstart run

theorem exists_of_lastKeyword {word : Keyword} (h : lastKeyword toUpperCase texts = some word) :
    ∃ text < texts.length, keywordAt toUpperCase texts text = some word := by
  obtain ⟨body, hbody, hword⟩ := List.mem_filterMap.1 (List.mem_of_getLast? h)
  obtain ⟨text, hlt, rfl⟩ := List.mem_iff_getElem.1 hbody
  exact ⟨text, hlt, by simp [keywordAt, hlt, hword]⟩

theorem stepsOf_of_none (h : lastKeyword toUpperCase texts = none) (out : List Happened) :
    stepsOf toUpperCase texts out = [] := by
  have hnone := List.filterMap_eq_nil_iff.1 (List.getLast?_eq_none_iff.1 h)
  refine List.filterMap_eq_nil_iff.2 fun o _ => ?_
  cases o with
  | handled text => rfl
  | ran text =>
    simp only [stepOf, keywordAt]
    cases hbody : texts[text]? with
    | none => rfl
    | some body => exact hnone body (List.mem_of_getElem? hbody)

/-- **The newest keyword is honoured exactly when every step of the other keyword is followed by one
of its own**, once every text has been handled to completion; where there is no keyword the opt-out
is as it was. -/
theorem honoured_iff (row : Option OptOut) {run : List (Input ℕ Answer Empty)}
    (hhandled : ∀ text < texts.length, .handled text ∈
      Reactive.outputs (step (deliveries toUpperCase texts)) ⟨⟨row, []⟩, []⟩ run) :
    isActive (Reactive.final (step (deliveries toUpperCase texts)) ⟨⟨row, []⟩, []⟩ run).store.row =
        optedOutBy (isActive row) (lastKeyword toUpperCase texts) ↔
      ∀ word, lastKeyword toUpperCase texts = some word → CaughtUp word (stepsOf toUpperCase texts
        (Reactive.outputs (step (deliveries toUpperCase texts)) ⟨⟨row, []⟩, []⟩ run)) := by
  have hkept := kept_final toUpperCase texts row run
  rw [hkept.row]
  cases hlast : lastKeyword toUpperCase texts with
  | none =>
    rw [stepsOf_of_none hlast]
    simp
  | some word =>
    -- the text of the newest keyword has been handled, so that a step of the keyword has run
    obtain ⟨text, hlt, hword⟩ := exists_of_lastKeyword hlast
    have hran := hkept.handled text (hhandled text hlt) (by rw [hword]; rfl)
    have hmem : word ∈ stepsOf toUpperCase texts
        (Reactive.outputs (step (deliveries toUpperCase texts)) ⟨⟨row, []⟩, []⟩ run) :=
      List.mem_filterMap.2 ⟨_, hran, hword⟩
    have hcaught := caughtUp_iff hmem
    constructor
    · intro h other hother
      obtain rfl := Option.some.inj hother
      refine hcaught.2 ?_
      obtain ⟨last, hlastStep⟩ := Option.isSome_iff_exists.1
        (List.getLast?_isSome.2 (List.ne_nil_of_mem hmem))
      rw [hlastStep] at h ⊢
      cases last <;> cases word <;> simp_all [optedOutBy]
    · intro h
      rw [hcaught.1 (h word rfl)]

/-! ### A STOP and a START -/

/-- A customer who texts STOP, and START a minute later; the words are in capitals. -/
def changeOfMind : List Text := [ofString "STOP", ofString "START"]

def delivery (text : ℕ) (answers : List Answer) : List (Input ℕ Answer Empty) :=
  .start text :: answers.map (.step 0)

/-- The delivery of the STOP throws after the step, say when it notifies the crew. -/
def thrown : List (Input ℕ Answer Empty) :=
  delivery 0 [.done 1 1, .done 1 1, .done 1 1, .failed]

def started : List (Input ℕ Answer Empty) :=
  delivery 1 [.done 2 2, .done 2 2, .done 2 2, .done 2 2]

/-- The replay of the STOP, which is in its thread already. -/
def replayed : List (Input ℕ Answer Empty) :=
  delivery 0 [.done 3 3, .done 3 3, .done 3 3]

theorem honoured_iff_in_order :
    isActive (Reactive.final (step (deliveries id changeOfMind)) ⟨⟨none, []⟩, []⟩
      (thrown ++ replayed ++ started)).store.row = false := by
  have hhandled : ∀ text < changeOfMind.length, Happened.handled text ∈
      Reactive.outputs (step (deliveries id changeOfMind)) ⟨⟨none, []⟩, []⟩
        (thrown ++ replayed ++ started) := by
    decide +kernel
  refine (honoured_iff none hhandled).2 fun word hword => ?_
  obtain rfl := Option.some.inj (hword.symm.trans (show _ = some Keyword.start by decide +kernel))
  have hsteps : stepsOf id changeOfMind (Reactive.outputs (step (deliveries id changeOfMind))
      ⟨⟨none, []⟩, []⟩ (thrown ++ replayed ++ started)) = [.stop, .stop, .start] := by
    decide +kernel
  rw [hsteps, caughtUp_iff (by decide)]
  rfl

/-- **A START that is undone**: the STOP is replayed after it, and everything has been handled. -/
theorem start_undone :
    lastKeyword id changeOfMind = some .start ∧
      (∀ text < changeOfMind.length, Happened.handled text ∈
        Reactive.outputs (step (deliveries id changeOfMind)) ⟨⟨none, []⟩, []⟩
          (thrown ++ started ++ replayed)) ∧
      isActive (Reactive.final (step (deliveries id changeOfMind)) ⟨⟨none, []⟩, []⟩
        (thrown ++ started ++ replayed)).store.row = true := by
  decide +kernel

end OptOutReplay
