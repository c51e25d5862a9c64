/-
**The ledger of received webhooks.**

`apps/api/src/webhooks/stripe.ts`, `telnyx.ts`, `resend.ts` and `sweepWebhookEvents` in
`apps/api/src/messaging/crons.ts`: an event from a provider is written down once, processed in the
background and stamped; what stays unstamped the sweeper takes up again, under a lease, five times
at most.  A live handler and a sweeper run are handlers that share the ledger: between any two of
their statements others move, and each may die.

A statement is answered, or it fails before its effect or after it.  What the processing of an event
does elsewhere is not modelled; its answer is.

Main definitions:

* `WebhookLedger.Row`, `WebhookLedger.Ledger` — the table `webhook_events`, the clock, and the
  events reported as exhausted;
* `WebhookLedger.Point`, `WebhookLedger.advance` — the statements of a live handler and of a sweeper
  run;
* `WebhookLedger.system` — both, as handlers that share the ledger;
* `WebhookLedger.eligible`, `WebhookLedger.claimable` — the conditions of the sweep and of a claim.

Main results:

* `WebhookLedger.Wrote.claimedSince` — a lease is only ever renewed;
* `WebhookLedger.leases` — what sweeper runs rely on, along every run;
* `WebhookLedger.exclusive` — **two sweeper runs work on one event only after a lease has lapsed**.
-/

import Texturion.Interleaving
import Texturion.JsText
import Texturion.SqlTable

namespace WebhookLedger

open SqlTable

/-! ### The table -/

inductive Provider
  | stripe
  | telnyx
  | resend
  deriving DecidableEq

/-- The primary key. -/
structure Key where
  provider : Provider
  eventId : String
  deriving DecidableEq

/-- A row of `webhook_events`. -/
structure Row where
  key : Key
  eventType : String
  receivedAt : ℤ
  processedAt : Option ℤ
  attempts : ℕ
  lastError : Option JsText.Text
  claimedAt : Option ℤ
  deriving DecidableEq

/-- What is reported of an event whose replays have failed. -/
structure Exhausted where
  key : Key
  eventType : String
  attempts : ℕ
  deriving DecidableEq

structure Ledger where
  rows : List Row
  now : ℤ
  reported : List Exhausted
  deriving DecidableEq

def sweepMinAgeMs : ℤ := 2 * 60 * 1000

def sweepMaxAttempts : ℕ := 5

def sweepBatch : ℕ := 100

def sweepClaimLeaseMs : ℤ := 10 * 60 * 1000

/-- `unclaimedFilter`, of a run that began at `start`. -/
def unclaimed (start : ℤ) (r : Row) : Bool :=
  match r.claimedAt with
  | none => true
  | some t => decide (t < start - sweepClaimLeaseMs)

/-- The rows a run that began at `start` asks for. -/
def eligible (start : ℤ) (r : Row) : Bool :=
  r.processedAt.isNone && decide (r.receivedAt < start - sweepMinAgeMs) &&
    decide (r.attempts < sweepMaxAttempts) && unclaimed start r

/-- The row a claim changes, for a row the run has read. -/
def claimable (start : ℤ) (read r : Row) : Bool :=
  r.key == read.key && decide (r.attempts = read.attempts) && r.processedAt.isNone &&
    unclaimed start r

/-- Change the rows that meet `p`. -/
def write (l : Ledger) (p : Row → Bool) (f : Row → Row) : Ledger :=
  { l with rows := update p f l.rows }

@[simp] theorem write_now (l : Ledger) (p : Row → Bool) (f : Row → Row) :
    (write l p f).now = l.now := rfl
@[simp] theorem write_reported (l : Ledger) (p : Row → Bool) (f : Row → Row) :
    (write l p f).reported = l.reported := rfl

def insertRow (l : Ledger) (key : Key) (eventType : String) : Ledger :=
  { l with
    rows := l.rows ++
      [{ key := key
         eventType := eventType
         receivedAt := l.now
         processedAt := none
         attempts := 0
         lastError := none
         claimedAt := none }] }

def stampProcessed (l : Ledger) (key : Key) : Ledger :=
  write l (fun r => r.key == key) fun r => { r with processedAt := some l.now }

/-- The error write of a live handler: the attempts it has read, and one more. -/
def countAttempt (l : Ledger) (key : Key) (attempts : ℕ) (message : JsText.Text) : Ledger :=
  write l (fun r => r.key == key) fun r =>
    { r with
      attempts := attempts + 1
      lastError := some (message.take 2000) }

def noteError (l : Ledger) (key : Key) (message : JsText.Text) : Ledger :=
  write l (fun r => r.key == key) fun r => { r with lastError := some message }

def claimRow (l : Ledger) (start : ℤ) (read : Row) : Ledger :=
  write l (claimable start read) fun r =>
    { r with
      attempts := read.attempts + 1
      claimedAt := some l.now }

/-! ### The handlers -/

/-- How an event is processed when it arrives: in the background by `processAndStamp` of
`stripe.ts` and `telnyx.ts`, by that of `resend.ts`, by admission of a call event, or as the cost of
a call. -/
inductive Route
  | background
  | resend
  | admitted
  | cost
  deriving DecidableEq

/-- A row that a sweeper run has claimed, and the rest of its batch. -/
structure Hold where
  start : ℤ
  row : Row
  claimedAt : ℤ
  rest : List Row
  deriving DecidableEq

/-- The attempt that the claim has counted. -/
def Hold.attempts (h : Hold) : ℕ := h.row.attempts + 1

/-- The next statement of a handler.  The first seven are those of a live handler. -/
inductive Point
  | insert (key : Key) (eventType : String) (route : Route)
  | lookup (key : Key)
  | process (key : Key) (route : Route)
  | stamp (key : Key) (route : Route)
  | readAttempts (key : Key) (message : JsText.Text)
  | writeAttempts (key : Key) (attempts : ℕ) (message : JsText.Text)
  | writeError (key : Key) (message : JsText.Text)
  | begin
  | select (start : ℤ)
  | claim (start : ℤ) (rows : List Row)
  | dispatch (h : Hold)
  | stampSwept (h : Hold)
  | note (h : Hold) (message : JsText.Text)
  | report (h : Hold)
  deriving DecidableEq

/-- How a statement ends: with its effect, with the answer that the event is not to be stamped, with
an error and no effect, or with its effect and an error. -/
inductive Answer
  | ok
  | left
  | error (message : JsText.Text)
  | lost (message : JsText.Text)
  deriving DecidableEq

/-- The statement has had its effect. -/
def Answer.lands : Answer → Bool
  | .error _ => false
  | _ => true

/-- What the handler is told has gone wrong. -/
def Answer.failure : Answer → Option JsText.Text
  | .error message => some message
  | .lost message => some message
  | _ => none

/-- Where a live handler goes when the processing or the stamp has thrown. -/
def Route.onFailure (key : Key) (message : JsText.Text) : Route → Option Point
  | .background => some (.readAttempts key message)
  | .resend => some (.writeError key message)
  | _ => none

/-- The processing may ask for the event not to be stamped. -/
def Route.mayLeave : Route → Bool
  | .admitted => true
  | .cost => true
  | _ => false

/-- `processed_at` of an event. -/
def isProcessed (l : Ledger) (key : Key) : Bool :=
  l.rows.any fun r => r.key == key && r.processedAt.isSome

/-- `attempts` of an event; 0 where the row is not found. -/
def attemptsOf (l : Ledger) (key : Key) : ℕ :=
  ((l.rows.find? fun r => r.key == key).map Row.attempts).getD 0

/-- `sweep stamp failed: …` and `webhook_events stamp failed: …`. -/
def prefixed (text : String) (message : JsText.Text) : JsText.Text :=
  JsText.ofString text ++ message

/-- One statement. -/
def advance (l : Ledger) : Point → Answer → Ledger × Option Point × List Exhausted
  | .insert key eventType route, x =>
    if !x.lands then (l, none, [])
    else if l.rows.any fun r => r.key == key then
      (l, if x.failure.isNone && route == .admitted then some (.lookup key) else none, [])
    else
      (insertRow l key eventType,
        if x.failure.isNone then some (.process key route) else none, [])
  | .lookup key, x =>
    (l, if x.failure.isNone && isProcessed l key then none
      else some (.process key .admitted), [])
  | .process key route, x =>
    (l, match x.failure with
      | none => if x == .left && route.mayLeave then none else some (.stamp key route)
      | some message => route.onFailure key message, [])
  | .stamp key route, x =>
    (if x.lands then stampProcessed l key else l,
      match x.failure with
      | none => none
      | some message =>
        route.onFailure key (prefixed "webhook_events stamp failed: " message), [])
  | .readAttempts key message, x =>
    (l, some (.writeAttempts key (if x.failure.isNone then attemptsOf l key else 0) message), [])
  | .writeAttempts key attempts message, x =>
    (if x.lands then countAttempt l key attempts message else l, none, [])
  | .writeError key message, x => (if x.lands then noteError l key message else l, none, [])
  | .begin, _ => (l, some (.select l.now), [])
  | .select start, x =>
    (l, if x.failure.isNone then
        some (.claim start (firstBy Row.receivedAt sweepBatch (l.rows.filter (eligible start))))
      else none, [])
  | .claim _ [], _ => (l, none, [])
  | .claim start (row :: rest), x =>
    (if x.lands then claimRow l start row else l,
      if x.failure.isNone && l.rows.any (claimable start row) then
        some (.dispatch ⟨start, row, l.now, rest⟩)
      else some (.claim start rest), [])
  | .dispatch h, x =>
    (l, match x.failure with
      | none => some (.stampSwept h)
      | some message => some (.note h message), [])
  | .stampSwept h, x =>
    (if x.lands then stampProcessed l h.row.key else l,
      match x.failure with
      | none => some (.claim h.start h.rest)
      | some message => some (.note h (prefixed "sweep stamp failed: " message)), [])
  | .note h message, x =>
    (if x.lands then noteError l h.row.key (message.take 2000) else l,
      if sweepMaxAttempts ≤ h.attempts then some (.report h) else some (.claim h.start h.rest),
      [])
  | .report h, _ =>
    let e : Exhausted := ⟨h.row.key, h.row.eventType, h.attempts⟩
    ({ l with reported := l.reported ++ [e] }, some (.claim h.start h.rest), [e])

/-- What starts a handler: an event of a provider arrives, or the sweeper is due. -/
inductive Request
  | event (key : Key) (eventType : String) (route : Route)
  | sweep
  deriving DecidableEq

/-- Live handlers and sweeper runs, over one ledger; outside them, time goes by. -/
def system : Interleaving.System Ledger Request Point Answer ℕ Exhausted where
  enter
    | .event key eventType route => .insert key eventType route
    | .sweep => .begin
  advance := advance
  world l d := ({ l with now := l.now + d }, [])

abbrev State := Interleaving.State Ledger Point

abbrev Input := Interleaving.Input Request Answer ℕ

/-! ### Leases -/

/-- The row a sweeper run has claimed and not done with. -/
def Point.hold : Point → Option Hold
  | .dispatch h => some h
  | .stampSwept h => some h
  | .note h _ => some h
  | .report h => some h
  | _ => none

/-- When a sweeper run began. -/
def Point.start : Point → Option ℤ
  | .select start => some start
  | .claim start _ => some start
  | .dispatch h => some h.start
  | .stampSwept h => some h.start
  | .note h _ => some h.start
  | .report h => some h.start
  | _ => none

/-- The event a sweeper run is processing. -/
def Point.dispatching : Point → Option Hold
  | .dispatch h => some h
  | _ => none

/-- The row is the event's, and has been claimed at `t` or later. -/
def ClaimedSince (l : Ledger) (key : Key) (t : ℤ) : Prop :=
  ∃ r ∈ l.rows, r.key = key ∧ ∃ u, r.claimedAt = some u ∧ t ≤ u

/-- Keys are unique, and no claim lies in the future. -/
structure Orderly (l : Ledger) : Prop where
  nodup : (l.rows.map Row.key).Nodup
  past : ∀ r ∈ l.rows, ∀ t, r.claimedAt = some t → t ≤ l.now

/-- What a handler relies on: its run began in the past, and since it has claimed its event, nobody
has claimed it earlier. -/
structure Relies (l : Ledger) (p : Point) : Prop where
  began : ∀ start, p.start = some start → start ≤ l.now
  claimed : ∀ h, p.hold = some h → h.claimedAt ≤ l.now ∧ ClaimedSince l h.row.key h.claimedAt

def Apart (p q : Point) : Prop :=
  ∀ h k, p.hold = some h → q.hold = some k → h.row.key = k.row.key →
    h.claimedAt + sweepClaimLeaseMs < k.claimedAt ∨ k.claimedAt + sweepClaimLeaseMs < h.claimedAt

variable {p q : Point} {x : Answer}

theorem Apart.symm (h : Apart p q) : Apart q p :=
  fun k₁ k₂ h₁ h₂ hkey => (h k₂ k₁ h₂ h₁ hkey.symm).symm

/-! ### What a statement writes -/

/-- The ledger after one statement. -/
inductive Wrote (l : Ledger) : Ledger → Prop
  | nothing : Wrote l l
  | insert (key : Key) (eventType : String) (hnew : ∀ r ∈ l.rows, r.key ≠ key) :
      Wrote l (insertRow l key eventType)
  | stamp (key : Key) : Wrote l (stampProcessed l key)
  | count (key : Key) (attempts : ℕ) (message : JsText.Text) :
      Wrote l (countAttempt l key attempts message)
  | note (key : Key) (message : JsText.Text) : Wrote l (noteError l key message)
  | claim (start : ℤ) (read : Row) : Wrote l (claimRow l start read)
  | report (e : Exhausted) : Wrote l { l with reported := l.reported ++ [e] }

theorem advance_wrote (l : Ledger) (p : Point) (x : Answer) : Wrote l (advance l p x).1 := by
  cases p with
  | insert key eventType route =>
    simp only [advance]
    split
    · exact .nothing
    · split
      · exact .nothing
      · rename_i htaken
        simp only [Bool.not_eq_true, List.any_eq_false, beq_iff_eq] at htaken
        exact .insert key eventType htaken
  | lookup | process => exact .nothing
  | stamp key route =>
    simp only [advance]
    split_ifs
    · exact .stamp key
    · exact .nothing
  | readAttempts key message => exact .nothing
  | writeAttempts key attempts message =>
    simp only [advance]
    split_ifs
    · exact .count key attempts message
    · exact .nothing
  | writeError key message =>
    simp only [advance]
    split_ifs
    · exact .note key message
    · exact .nothing
  | begin | select => exact .nothing
  | claim start rows =>
    cases rows with
    | nil => exact .nothing
    | cons row rest =>
      simp only [advance]
      split
      · exact .claim start row
      · exact .nothing
  | dispatch h => exact .nothing
  | stampSwept h =>
    simp only [advance]
    split_ifs
    · exact .stamp h.row.key
    · exact .nothing
  | note h message =>
    simp only [advance]
    split
    · exact .note h.row.key _
    · exact .nothing
  | report h => exact .report _

namespace Wrote

variable {l l' : Ledger}

theorem now_eq (h : Wrote l l') : l'.now = l.now := by
  cases h <;> rfl

theorem orderly (h : Wrote l l') (hl : Orderly l) : Orderly l' := by
  -- a write to columns other than the key, of a lease at most the present
  have hwrite : ∀ (p : Row → Bool) (f : Row → Row), (∀ r, (f r).key = r.key) →
      (∀ r, (f r).claimedAt = r.claimedAt ∨ (f r).claimedAt = some l.now) →
        Orderly (write l p f) := by
    intro p f hkey hclaim
    refine ⟨?_, fun r hr t ht => ?_⟩
    · rw [write, map_update hkey]
      exact hl.nodup
    · rcases mem_update.1 hr with ⟨hr, -⟩ | ⟨a, ha, -, rfl⟩
      · exact hl.past r hr t ht
      · rcases hclaim a with heq | heq
        · exact hl.past a ha t (heq ▸ ht)
        · rw [heq, Option.some.injEq] at ht
          exact ht ▸ le_refl _
  cases h with
  | nothing => exact hl
  | insert key eventType hnew =>
    refine ⟨?_, fun r hr t ht => ?_⟩
    · rw [insertRow, List.map_append, List.nodup_append]
      refine ⟨hl.nodup, List.nodup_singleton _, fun i hi j hj hij => ?_⟩
      obtain ⟨r, hr, rfl⟩ := List.mem_map.1 hi
      rw [List.map_singleton, List.mem_singleton] at hj
      exact hnew r hr (hij.trans hj)
    · rcases List.mem_append.1 hr with hr | hr
      · exact hl.past r hr t ht
      · rw [List.mem_singleton.1 hr] at ht
        cases ht
  | stamp | count | note => exact hwrite _ _ (fun _ => rfl) fun _ => .inl rfl
  | claim start read => exact hwrite _ _ (fun _ => rfl) fun _ => .inr rfl
  | report e => exact ⟨hl.nodup, hl.past⟩

theorem claimedSince (h : Wrote l l') (hl : Orderly l) {key : Key} {t : ℤ}
    (hc : ClaimedSince l key t) : ClaimedSince l' key t := by
  obtain ⟨r, hr, hkey, u, hu, hle⟩ := hc
  have hwrite : ∀ (p : Row → Bool) (f : Row → Row), (∀ r, (f r).key = r.key) →
      (∀ r, (f r).claimedAt = r.claimedAt ∨ (f r).claimedAt = some l.now) →
        ClaimedSince (write l p f) key t := by
    intro p f hf hclaim
    by_cases hp : p r = true
    · refine ⟨f r, mem_update_of hr hp, (hf r).trans hkey, ?_⟩
      rcases hclaim r with heq | heq
      · exact ⟨u, heq.trans hu, hle⟩
      · exact ⟨l.now, heq, hle.trans (hl.past r hr u hu)⟩
    · exact ⟨r, mem_update_of_not hr (Bool.eq_false_iff.2 hp), hkey, u, hu, hle⟩
  cases h with
  | nothing => exact ⟨r, hr, hkey, u, hu, hle⟩
  | insert key' eventType hnew => exact ⟨r, List.mem_append_left _ hr, hkey, u, hu, hle⟩
  | stamp | count | note => exact hwrite _ _ (fun _ => rfl) fun _ => .inl rfl
  | claim start read => exact hwrite _ _ (fun _ => rfl) fun _ => .inr rfl
  | report e => exact ⟨r, hr, hkey, u, hu, hle⟩

theorem relies (h : Wrote l l') (hl : Orderly l) (hq : Relies l q) : Relies l' q := by
  refine ⟨fun start hstart => h.now_eq ▸ hq.began start hstart, fun k hk => ?_⟩
  obtain ⟨hle, hc⟩ := hq.claimed k hk
  exact ⟨h.now_eq ▸ hle, h.claimedSince hl hc⟩

end Wrote

/-! ### Where a handler goes -/

def Point.live : Point → Bool
  | .insert _ _ _ => true
  | .lookup _ => true
  | .process _ _ => true
  | .stamp _ _ => true
  | .readAttempts _ _ => true
  | .writeAttempts _ _ _ => true
  | .writeError _ _ => true
  | _ => false

/-- The point after one statement, of a handler that goes on. -/
inductive Goes (l : Ledger) (x : Answer) : Point → Point → Prop
  | live (p q : Point) (hp : p.live = true) (hq : q.live = true) : Goes l x p q
  | begin : Goes l x .begin (.select l.now)
  | select (start : ℤ) (rows : List Row) : Goes l x (.select start) (.claim start rows)
  | passed (start : ℤ) (row : Row) (rest : List Row)
      (hpassed : x.failure = none → l.rows.any (claimable start row) = false) :
      Goes l x (.claim start (row :: rest)) (.claim start rest)
  | claimed (start : ℤ) (row : Row) (rest : List Row) (hx : x.failure = none)
      (hclaim : l.rows.any (claimable start row) = true) :
      Goes l x (.claim start (row :: rest)) (.dispatch ⟨start, row, l.now, rest⟩)
  | processed (h : Hold) : Goes l x (.dispatch h) (.stampSwept h)
  | failed (h : Hold) (message : JsText.Text) : Goes l x (.dispatch h) (.note h message)
  | stamped (h : Hold) (hx : x.failure = none) : Goes l x (.stampSwept h) (.claim h.start h.rest)
  | unstamped (h : Hold) (message : JsText.Text) : Goes l x (.stampSwept h) (.note h message)
  | noted (h : Hold) (message : JsText.Text) (hlt : h.attempts < sweepMaxAttempts) :
      Goes l x (.note h message) (.claim h.start h.rest)
  | exhausted (h : Hold) (message : JsText.Text) (hle : sweepMaxAttempts ≤ h.attempts) :
      Goes l x (.note h message) (.report h)
  | reported (h : Hold) : Goes l x (.report h) (.claim h.start h.rest)

theorem onFailure_live {route : Route} {key : Key} {message : JsText.Text}
    (hq : route.onFailure key message = some q) : q.live = true := by
  cases route <;> cases hq <;> rfl

theorem advance_goes {l : Ledger} (hq : (advance l p x).2.1 = some q) : Goes l x p q := by
  cases p with
  | insert key eventType route =>
    refine .live _ _ rfl ?_
    simp only [advance] at hq
    split_ifs at hq
    all_goals
      cases hq
      rfl
  | lookup key =>
    refine .live _ _ rfl ?_
    simp only [advance] at hq
    split_ifs at hq
    cases hq
    rfl
  | process key route =>
    refine .live _ _ rfl ?_
    simp only [advance] at hq
    split at hq
    · split_ifs at hq
      cases hq
      rfl
    · exact onFailure_live hq
  | stamp key route =>
    refine .live _ _ rfl ?_
    simp only [advance] at hq
    split at hq
    · cases hq
    · exact onFailure_live hq
  | readAttempts key message =>
    refine .live _ _ rfl ?_
    simp only [advance, Option.some.injEq] at hq
    exact hq ▸ rfl
  | writeAttempts | writeError =>
    simp only [advance] at hq
    cases hq
  | begin =>
    simp only [advance, Option.some.injEq] at hq
    exact hq ▸ .begin
  | select start =>
    simp only [advance] at hq
    split_ifs at hq
    cases hq
    exact .select start _
  | claim start rows =>
    cases rows with
    | nil => cases hq
    | cons row rest =>
      simp only [advance] at hq
      split_ifs at hq with hclaim
      · simp only [Bool.and_eq_true, Option.isNone_iff_eq_none] at hclaim
        cases hq
        exact .claimed start row rest hclaim.1 hclaim.2
      · cases hq
        refine .passed start row rest fun hx => ?_
        simpa [hx] using hclaim
  | dispatch h =>
    simp only [advance] at hq
    split at hq
    · cases hq
      exact .processed h
    · cases hq
      exact .failed h _
  | stampSwept h =>
    simp only [advance] at hq
    split at hq
    · rename_i hx
      cases hq
      exact .stamped h hx
    · cases hq
      exact .unstamped h _
  | note h message =>
    simp only [advance] at hq
    split_ifs at hq with hle
    · cases hq
      exact .exhausted h message hle
    · cases hq
      exact .noted h message (Nat.lt_of_not_le hle)
  | report h =>
    simp only [advance, Option.some.injEq] at hq
    exact hq ▸ .reported h

theorem hold_of_live (h : p.live = true) : p.hold = none := by
  cases p <;> first | rfl | cases h

theorem start_of_live (h : p.live = true) : p.start = none := by
  cases p <;> first | rfl | cases h

/-! ### Sweeper runs keep apart -/

/-- A sweeper run that goes on began when it began before, or has just begun. -/
theorem Goes.start {l : Ledger} (hgoes : Goes l x p q) {start : ℤ}
    (hstart : q.start = some start) : p.start = some start ∨ start = l.now := by
  cases hgoes with
  | live p q hp hq =>
    rw [start_of_live hq] at hstart
    cases hstart
  | begin => exact .inr (Option.some.inj hstart).symm
  | select | passed | claimed | processed | failed | stamped | unstamped | noted | exhausted |
    reported => exact .inl hstart

/-- A handler that holds an event held it before, or has just claimed it. -/
theorem Goes.hold {l : Ledger} (hgoes : Goes l x p q) {h : Hold} (hhold : q.hold = some h) :
    p.hold = some h ∨ ∃ start row rest, p = .claim start (row :: rest) ∧ x.failure = none ∧
      (∃ r ∈ l.rows, claimable start row r = true) ∧ h = ⟨start, row, l.now, rest⟩ := by
  cases hgoes with
  | live p q hp hq =>
    rw [hold_of_live hq] at hhold
    cases hhold
  | claimed start row rest hx hclaim =>
    exact .inr ⟨start, row, rest, rfl, hx, List.any_eq_true.1 hclaim,
      (Option.some.inj hhold).symm⟩
  | begin | select | passed | stamped | noted | reported => cases hhold
  | processed | failed | unstamped | exhausted => exact .inl hhold

theorem lands_of_failure (h : x.failure = none) : x.lands = true := by
  cases x <;> first | rfl | cases h

/-- What a claim has found: the row of the event, with a lease that has lapsed. -/
theorem claimable_iff {start : ℤ} {read r : Row} :
    claimable start read r = true ↔ r.key = read.key ∧ r.attempts = read.attempts ∧
      r.processedAt = none ∧ ∀ t, r.claimedAt = some t → t + sweepClaimLeaseMs < start := by
  simp only [claimable, unclaimed, Bool.and_eq_true, beq_iff_eq, decide_eq_true_eq,
    Option.isNone_iff_eq_none, and_assoc]
  refine and_congr_right' (and_congr_right' (and_congr_right' ?_))
  cases r.claimedAt with
  | none => simp
  | some t =>
    simp only [decide_eq_true_eq, Option.some.injEq, forall_eq']
    omega

theorem claimedSince_claimRow {l : Ledger} {start : ℤ} {row r : Row} (hr : r ∈ l.rows)
    (hclaim : claimable start row r = true) : ClaimedSince (claimRow l start row) row.key l.now :=
  ⟨_, mem_update_of hr hclaim, (claimable_iff.1 hclaim).1, l.now, rfl, le_refl _⟩

theorem nonInterfering :
    Interleaving.NonInterfering system Orderly Relies Apart (fun _ _ => True) fun _ => True where
  symm := fun _ _ h => h.symm
  enter := fun l r _ _ => by
    cases r with
    | event | sweep => exact ⟨fun _ h => (nomatch h), fun _ h => (nomatch h)⟩
  alone := fun p r h k _ hk _ => by
    cases r with
    | event | sweep => cases hk
  advance := fun s n x p hdue => (advance_wrote s.store p x).orderly hdue.sound.store
  next := fun s n x p q hdue hq => by
    have hwrote := advance_wrote s.store p x
    have hgoes := advance_goes hq
    refine ⟨fun start hstart => ?_, fun h hhold => ?_⟩
    · change start ≤ (advance s.store p x).1.now
      rw [hwrote.now_eq]
      rcases hgoes.start hstart with hstart | rfl
      · exact hdue.relies.began start hstart
      · exact le_refl _
    · rcases hgoes.hold hhold with hold | ⟨start, row, rest, rfl, hx, ⟨r, hr, hclaim⟩, rfl⟩
      · exact (hwrote.relies hdue.sound.store hdue.relies).claimed h hold
      · refine ⟨hwrote.now_eq.symm ▸ le_refl _, ?_⟩
        change ClaimedSince (advance s.store (.claim start (row :: rest)) x).1 row.key s.store.now
        simp only [advance, lands_of_failure hx, if_true]
        exact claimedSince_claimRow hr hclaim
  others := fun s n x p q hdue hq _ =>
    (advance_wrote s.store p x).relies hdue.sound.store
      (hdue.sound.running q (List.mem_of_mem_eraseIdx hq))
  apart := fun s n x p q' q hdue hq' hq hapart h k hhold hk hkey => by
    rcases (advance_goes hq').hold hhold with hold |
      ⟨start, row, rest, rfl, hx, ⟨r, hr, hclaim⟩, rfl⟩
    · exact hapart h k hold hk hkey
    · -- the lease of the other had lapsed when this run began
      right
      obtain ⟨hrow, -, -, hlapsed⟩ := claimable_iff.1 hclaim
      obtain ⟨-, r', hr', hkey', t, ht, hle⟩ :=
        (hdue.sound.running q (List.mem_of_mem_eraseIdx hq)).claimed k hk
      have hrr : r' = r := List.inj_on_of_nodup_map hdue.sound.store.nodup hr' hr
        (hkey'.trans (hkey.symm.trans hrow.symm))
      have hstart := hdue.relies.began start rfl
      have hlt := hlapsed t (hrr ▸ ht)
      change k.claimedAt + sweepClaimLeaseMs < s.store.now
      omega
  emits := fun _ _ _ _ _ _ _ => trivial
  world := fun s d hs _ => by
    refine ⟨⟨hs.store.nodup, fun r hr t ht => ?_⟩, fun p hp => ?_, fun _ _ => trivial⟩
    · have hle := hs.store.past r hr t ht
      change t ≤ s.store.now + d
      omega
    · have hrelies := hs.running p hp
      refine ⟨fun start hstart => ?_, fun h hhold => ⟨?_, (hrelies.claimed h hhold).2⟩⟩
      · have hle := hrelies.began start hstart
        change start ≤ s.store.now + d
        omega
      · have hle := (hrelies.claimed h hhold).1
        change h.claimedAt ≤ s.store.now + d
        omega

theorem leases {l : Ledger} (hl : Orderly l) (is : List Input) :
    Interleaving.Sound Orderly Relies Apart
      (Reactive.final (Interleaving.step system) ⟨l, []⟩ is) := by
  have hstart : Interleaving.Sound Orderly Relies Apart (⟨l, []⟩ : State) :=
    ⟨hl, fun p hp => (nomatch hp), .nil⟩
  exact nonInterfering.final hstart (Reactive.along_of_forall (C := fun _ => True) _
    (fun _ _ => trivial) _)

def Lapsed (now : ℤ) (h : Hold) : Prop := h.claimedAt + sweepClaimLeaseMs < now

/-- **Two sweeper runs dispatch one event only after a lease has lapsed**, whatever moves in
between. -/
theorem exclusive {l : Ledger} (hl : Orderly l) (is : List Input) :
    (Reactive.final (Interleaving.step system) ⟨l, []⟩ is).running.Pairwise fun p q =>
      ∀ h k, p.dispatching = some h → q.dispatching = some k → h.row.key = k.row.key →
        Lapsed (Reactive.final (Interleaving.step system) ⟨l, []⟩ is).store.now h ∨
          Lapsed (Reactive.final (Interleaving.step system) ⟨l, []⟩ is).store.now k := by
  have hsound := leases hl is
  have hhold : ∀ {p : Point} {h : Hold}, p.dispatching = some h → p.hold = some h := by
    intro p h hp
    cases p <;> first | exact hp | cases hp
  refine hsound.apart.imp_of_mem fun {p q} hp hq hapart h k hh hk hkey => ?_
  have hh' := ((hsound.running p hp).claimed h (hhold hh)).1
  have hk' := ((hsound.running q hq).claimed k (hhold hk)).1
  rcases hapart h k (hhold hh) (hhold hk) hkey with hlt | hlt
  · exact .inl (lt_of_lt_of_le hlt hk')
  · exact .inr (lt_of_lt_of_le hlt hh')

end WebhookLedger
