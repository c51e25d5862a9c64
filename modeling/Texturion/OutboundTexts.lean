/-
**One outbound message and the carrier.**

`apps/api/src/messaging/send.ts`, `retry-interrupted.ts` and the two routes of `routes/messages.ts`:
a message is inserted as `queued`, its text is handed to the carrier under a key made of the
message's id, and the carrier's id is stored on the row; or the row is set `failed` and a member may
retry it.  A row that stays `queued` without a carrier id for a quarter of an hour counts as stuck,
and a cron retries it once and fails it out otherwise.

Every call to the database and to the carrier is a step of its own.  A call may fail with or without
having had its effect, a handler may die between any two of them, and time goes by.

The carrier is a parameter of each call: what it decides, and what becomes of the request and its
answer.  It answers a repeated key for a day as it answered first, and takes the key as new
afterwards.

Main definitions:

* `OutboundTexts.Message`, `OutboundTexts.World` — the row, what the carrier knows, and the clock;
* `OutboundTexts.World.create`, `OutboundTexts.telnyxCreateMessage` — one request;
* `OutboundTexts.claimMessageRetry`, `OutboundTexts.claimStuckSendForRetry`,
  `OutboundTexts.failStuckOutboundSend` — the functions of the database;
* `OutboundTexts.advance`, `OutboundTexts.system` — the handlers, and what happens in between.

Main result:

* `OutboundTexts.Wrote`, `OutboundTexts.advance_wrote` — **what one call may do**.
-/

import Texturion.JsText
import Texturion.MessageStatus

namespace OutboundTexts

open MessageStatus (Status)

/-! ### The row, the carrier and the clock -/

/-- `TelnyxSendFailure`. -/
structure SendFailure where
  errorCode : Option String
  errorDetail : JsText.Text
  deriving DecidableEq

/-- The row of an outbound message. -/
structure Message where
  status : Status
  telnyxMessageId : Option ℕ
  errorCode : Option String
  errorDetail : Option JsText.Text
  autoRetryCount : ℕ
  updatedAt : ℤ
  deriving DecidableEq

/-- What the carrier decides of a text; `telnyxCreateMessage` has the same two results. -/
inductive Answer
  | accepted (id : ℕ)
  | refused (failure : SendFailure)
  deriving DecidableEq

def Answer.texts : Answer → List ℕ
  | .accepted id => [id]
  | .refused _ => []

/-- The row, the texts that the carrier has accepted for it, the first answer under its key with the
moment of it, and the clock. -/
structure World where
  message : Message
  accepted : List ℕ
  first : Option (Answer × ℤ)
  now : ℤ
  deriving DecidableEq

/-- How long the carrier knows a key, in milliseconds. -/
def keyLifetimeMs : ℤ := 24 * 60 * 60 * 1000

/-- `STUCK_SEND_SECONDS`, in milliseconds. -/
def stuckSendMs : ℤ := 15 * 60 * 1000

def autoRetryLimit : ℕ := 1

def sendInterruptedErrorCode : String := "send_interrupted"

/-- An update of the row; the trigger on it refreshes `updated_at`. -/
def World.write (w : World) (f : Message → Message) : World :=
  { w with message := { f w.message with updatedAt := w.now } }

@[simp] theorem World.write_message (w : World) (f : Message → Message) :
    (w.write f).message = { f w.message with updatedAt := w.now } := rfl
@[simp] theorem World.write_accepted (w : World) (f : Message → Message) :
    (w.write f).accepted = w.accepted := rfl
@[simp] theorem World.write_first (w : World) (f : Message → Message) :
    (w.write f).first = w.first := rfl
@[simp] theorem World.write_now (w : World) (f : Message → Message) :
    (w.write f).now = w.now := rfl

/-! ### One request to the carrier -/

/-- The answer that the carrier repeats. -/
def World.remembered (w : World) : Option Answer :=
  (w.first.filter fun a => decide (w.now ≤ a.2 + keyLifetimeMs)).map Prod.fst

/-- A request that has reached the carrier. -/
def World.create (w : World) (verdict : Answer) : World × Answer :=
  match w.remembered with
  | some answer => (w, answer)
  | none =>
    ({ w with
        accepted := w.accepted ++ verdict.texts
        first := some (verdict, w.now) }, verdict)

/-- What becomes of a request and its answer. -/
inductive Transit
  | delivered
  /-- The carrier has the request, and the call ends with a network error, an error of somebody on
  the way, or without an id. -/
  | answerLost (failure : SendFailure)
  /-- The carrier has the request, and reading the body of its answer throws. -/
  | bodyLost
  /-- A network error on the way there, or a destination that is not allowed. -/
  | undelivered (failure : SendFailure)
  deriving DecidableEq

/-- The carrier has the request. -/
def Transit.reaches : Transit → Bool
  | .undelivered _ => false
  | _ => true

/-- `telnyxCreateMessage`; it throws with `none`. -/
def telnyxCreateMessage (w : World) (transit : Transit) (verdict : Answer) :
    World × Option Answer :=
  match transit with
  | .delivered => ((w.create verdict).1, some (w.create verdict).2)
  | .answerLost failure => ((w.create verdict).1, some (.refused failure))
  | .bodyLost => ((w.create verdict).1, none)
  | .undelivered failure => (w, some (.refused failure))

/-! ### The writes -/

/-- The columns of a failure; the detail is sliced. -/
def failWith (errorCode : Option String) (errorDetail : JsText.Text) (m : Message) : Message :=
  { m with
    status := .failed
    errorCode := errorCode
    errorDetail := some (errorDetail.take 2000) }

/-- The patch of `dispatchOutbound`. -/
def patch (answer : Answer) (m : Message) : Message :=
  match answer with
  | .accepted id => { m with telnyxMessageId := some id }
  | .refused failure => failWith failure.errorCode failure.errorDetail m

def World.isStuck (w : World) : Bool :=
  w.message.status == .queued && w.message.telnyxMessageId.isNone &&
    decide (w.message.updatedAt < w.now - stuckSendMs)

/-- What a member may retry. -/
def World.isRetryable (w : World) : Bool :=
  w.message.telnyxMessageId.isNone &&
    (w.message.status == .failed ||
      (w.message.status == .queued && decide (w.message.updatedAt < w.now - stuckSendMs)))

def interrupted : JsText.Text :=
  JsText.ofString "The send was interrupted before reaching the carrier."

def rateLimited : JsText.Text :=
  JsText.ofString "Outbound rate limit reached (about 1 message per second per company)."

def failedOut : Message → Message := failWith (some sendInterruptedErrorCode) interrupted

/-- What `claim_message_retry` finds beside the row. -/
inductive Gate
  | opens
  /-- `company_send_block`, an opt-out, or a conversation that is gone. -/
  | blocked
  /-- `outbound_spend_check`. -/
  | overSpent
  deriving DecidableEq

/-- `claim_message_retry`; whether it returns the row. -/
def claimMessageRetry (gate : Gate) (w : World) : World × Bool :=
  if w.isRetryable then
    match gate with
    | .blocked => (w, false)
    | .overSpent => (if w.message.status = .queued then w.write failedOut else w, false)
    | .opens =>
      (w.write fun m =>
        { m with
          status := .queued
          errorCode := none
          errorDetail := none }, true)
  else (w, false)

/-- `claim_stuck_sends_for_retry`; whether it returns the row. -/
def claimStuckSendForRetry (w : World) : World × Bool :=
  if w.isStuck && decide (w.message.autoRetryCount < autoRetryLimit) then
    (w.write fun m => { m with autoRetryCount := m.autoRetryCount + 1 }, true)
  else (w, false)

/-- `fail_stuck_outbound_sends`. -/
def failStuckOutboundSend (w : World) : World := if w.isStuck then w.write failedOut else w

/-! ### The handlers -/

/-- Who dispatches a text. -/
inductive Caller
  | send
  | retry
  | sweep
  deriving DecidableEq

/-- The final status of a text, with what the row then says of it. -/
structure Final where
  status : Status
  errorCode : Option String
  errorDetail : Option JsText.Text
  deriving DecidableEq

/-- The next call of a handler. -/
inductive Point
  /-- `uploadOutboundMedia` and `signedMediaUrls`. -/
  | upload
  /-- The row as the retry route looks it up. -/
  | lookup
  /-- What is read before the claim: the conversation, the gates, the attachments. -/
  | prepare (caller : Caller)
  /-- `claim_message_retry`. -/
  | claim (caller : Caller)
  /-- `SEND_RATE_LIMITER`. -/
  | limit (caller : Caller)
  /-- The row of a text that the limiter has denied. -/
  | deny (caller : Caller)
  /-- `telnyxCreateMessage`. -/
  | call (caller : Caller)
  /-- `persistMessagePatch`, with the carrier's answer. -/
  | persist (caller : Caller) (answer : Answer)
  /-- `persistSendInterruption`. -/
  | interrupt (detail : JsText.Text)
  /-- `claim_stuck_sends_for_retry`. -/
  | claimStuck
  /-- `fail_stuck_outbound_sends`. -/
  | failStuck
  /-- The update of `message.sent`. -/
  | markSent (id : ℕ)
  /-- The lookup of `message.finalized`. -/
  | lookupFinal (id : ℕ) (final : Final)
  /-- The update of `message.finalized`. -/
  | finalize (id : ℕ) (final : Final)
  deriving DecidableEq

/-- Where a handler goes when a call of it throws: `retryInterruptedSends` catches. -/
def Caller.onThrow : Caller → Option Point
  | .send => none
  | .retry => none
  | .sweep => some (.interrupt (JsText.ofString ("The send was interrupted before reaching the " ++
      "carrier and could not be resent automatically.")))

/-- What a call meets: it goes through, somebody says no, or it fails, with its effect or without
it. -/
inductive Reply
  | ok
  | denied
  | lost
  | failed
  deriving DecidableEq

/-- The call has its effect. -/
def Reply.lands : Reply → Bool
  | .ok => true
  | .lost => true
  | _ => false

/-- What one step of a handler meets; the gate is for a claim, the last two are for the carrier. -/
structure Turn where
  reply : Reply
  gate : Gate
  transit : Transit
  verdict : Answer
  deriving DecidableEq

/-- An update of the row, and where the handler goes from it. -/
def save (w : World) (x : Turn) (f : Message → Message) (next throws : Option Point) :
    World × Option Point × List Empty :=
  (if x.reply.lands then w.write f else w, if x.reply = .ok then next else throws, [])

/-- One call. -/
def advance (w : World) (p : Point) (x : Turn) : World × Option Point × List Empty :=
  match p with
  | .upload =>
    -- of the row, only the number of photos is written
    save w x id (some (.limit .send)) (some (.interrupt interrupted))
  | .lookup => (w, if x.reply = .ok ∧ w.isRetryable then some (.prepare .retry) else none, [])
  | .prepare caller =>
    match x.reply with
    | .ok => (w, some (.claim caller), [])
    -- no conversation or no active number: `retryOne` returns
    | .denied => (w, none, [])
    | _ => (w, caller.onThrow, [])
  | .claim caller =>
    let claimed := claimMessageRetry x.gate w
    (if x.reply.lands then claimed.1 else w,
      if x.reply = .ok ∧ claimed.2 then some (.limit caller) else caller.onThrow, [])
  | .limit caller =>
    match x.reply with
    | .ok => (w, some (.call caller), [])
    | .denied => (w, some (.deny caller), [])
    | _ => (w, caller.onThrow, [])
  | .deny caller =>
    save w x (failWith (some "rate_limited") rateLimited) caller.onThrow caller.onThrow
  | .call caller =>
    let result := telnyxCreateMessage w x.transit x.verdict
    match result.2 with
    | some answer => (result.1, some (.persist caller answer), [])
    | none => (result.1, caller.onThrow, [])
  | .persist caller answer => save w x (patch answer) none caller.onThrow
  | .interrupt detail =>
    save w x (failWith (some sendInterruptedErrorCode) detail) none none
  | .claimStuck =>
    let claimed := claimStuckSendForRetry w
    (if x.reply.lands then claimed.1 else w,
      if x.reply = .ok ∧ claimed.2 then some (.prepare .sweep) else none, [])
  | .failStuck => (if x.reply.lands then failStuckOutboundSend w else w, none, [])
  | .markSent id =>
    if w.message.telnyxMessageId = some id ∧ w.message.status = .queued then
      save w x (fun m => { m with status := .sent }) none none
    else (w, none, [])
  | .lookupFinal id final =>
    (w, if x.reply = .ok ∧ w.message.telnyxMessageId = some id then some (.finalize id final)
      else none, [])
  | .finalize id final =>
    if w.message.telnyxMessageId = some id then
      save w x (fun m =>
        { m with
          status := final.status
          errorCode := final.errorCode
          errorDetail := final.errorDetail }) none none
    else (w, none, [])

/-- What starts a handler; the send itself has inserted the row and is under way. -/
inductive Request
  | retry
  | retryInterruptedSends
  | failStuckOutboundSends
  | messageSent (id : ℕ)
  | messageFinalized (id : ℕ) (final : Final)
  deriving DecidableEq

/-- Time goes by, or somebody updates another column of the row. -/
inductive Event
  | wait (d : ℕ)
  | touch
  deriving DecidableEq

def system : Interleaving.System World Request Point Turn Event Empty where
  enter
    | .retry => .lookup
    | .retryInterruptedSends => .claimStuck
    | .failStuckOutboundSends => .failStuck
    | .messageSent id => .markSent id
    | .messageFinalized id final => .lookupFinal id final
  advance := advance
  world w
    | .wait d => ({ w with now := w.now + d }, [])
    | .touch => (w.write id, [])

abbrev State := Interleaving.State World Point

abbrev Input := Interleaving.Input Request Turn Event

/-- The row has just been inserted, and its send goes on from there. -/
def inserted (now : ℤ) (hasMedia : Bool) : State where
  store :=
    { message :=
        { status := .queued
          telnyxMessageId := none
          errorCode := none
          errorDetail := none
          autoRetryCount := 0
          updatedAt := now }
      accepted := []
      first := none
      now := now }
  running := [if hasMedia then .upload else .limit .send]

/-! ### What one call may do -/

/-- The points whose update sets the row `failed`, whatever has become of it. -/
def Point.failsRow : Point → Bool
  | .deny _ => true
  | .persist _ (.refused _) => true
  | .interrupt _ => true
  | _ => false

/-- What one call may do.  A plain write leaves the carrier id alone, and sets no row with a carrier
id `failed`. -/
inductive Wrote (w : World) (x : Turn) : Point → World → Prop
  | nothing (p : Point) : Wrote w x p w
  | plain (p : Point) (f : Message → Message)
      (hid : (f w.message).telnyxMessageId = w.message.telnyxMessageId)
      (hstatus : (f w.message).status = .failed →
        w.message.telnyxMessageId = none ∨ w.message.status = .failed) : Wrote w x p (w.write f)
  | failed (p : Point) (errorCode : Option String) (detail : JsText.Text)
      (hp : p.failsRow = true) (hx : x.reply.lands = true) :
      Wrote w x p (w.write (failWith errorCode detail))
  | stored (caller : Caller) (id : ℕ) :
      Wrote w x (.persist caller (.accepted id)) (w.write (patch (.accepted id)))
  | created (caller : Caller) (hx : x.transit.reaches = true) :
      Wrote w x (.call caller) (w.create x.verdict).1
  | finalized (id : ℕ) (final : Final) :
      Wrote w x (.finalize id final) (w.write fun m =>
        { m with
          status := final.status
          errorCode := final.errorCode
          errorDetail := final.errorDetail })

theorem isRetryable_id {w : World} (h : w.isRetryable = true) :
    w.message.telnyxMessageId = none := by
  simp only [World.isRetryable, Bool.and_eq_true, Option.isNone_iff_eq_none] at h
  exact h.1

theorem isStuck_id {w : World} (h : w.isStuck = true) : w.message.telnyxMessageId = none := by
  simp only [World.isStuck, Bool.and_eq_true, Option.isNone_iff_eq_none] at h
  exact h.1.2

/-- The claims and the fail-out look at the carrier id in the statement that writes. -/
theorem claimMessageRetry_wrote (gate : Gate) (w : World) (x : Turn) (p : Point) :
    Wrote w x p (claimMessageRetry gate w).1 := by
  unfold claimMessageRetry
  split
  · rename_i hretry
    cases gate with
    | opens =>
      simp only
      exact .plain _ _ (by rfl) (by intro h; cases h)
    | blocked => exact .nothing _
    | overSpent =>
      simp only
      split
      · exact .plain _ _ (by rfl) (by exact fun _ => .inl (isRetryable_id hretry))
      · exact .nothing _
  · exact .nothing _

section

variable (w : World)

theorem claimStuckSendForRetry_wrote (x : Turn) (p : Point) :
    Wrote w x p (claimStuckSendForRetry w).1 := by
  unfold claimStuckSendForRetry
  split
  · simp only
    exact .plain _ _ (by rfl) (by exact .inr)
  · exact .nothing _

theorem failStuckOutboundSend_wrote (x : Turn) (p : Point) :
    Wrote w x p (failStuckOutboundSend w) := by
  unfold failStuckOutboundSend
  split
  · rename_i hstuck
    exact .plain _ _ (by rfl) (by exact fun _ => .inl (isStuck_id hstuck))
  · exact .nothing _

theorem telnyxCreateMessage_fst (transit : Transit) (verdict : Answer) :
    (telnyxCreateMessage w transit verdict).1 =
      if transit.reaches then (w.create verdict).1 else w := by
  cases transit <;> rfl

theorem advance_call_fst (caller : Caller) (x : Turn) :
    (advance w (.call caller) x).1 = if x.transit.reaches then (w.create x.verdict).1 else w := by
  rw [← telnyxCreateMessage_fst]
  simp only [advance]
  split <;> rfl

theorem advance_wrote (p : Point) (x : Turn) : Wrote w x p (advance w p x).1 := by
  cases p with
  | upload =>
    change Wrote w x _ (if x.reply.lands then w.write id else w)
    split
    · exact .plain _ _ (by rfl) (by exact .inr)
    · exact .nothing _
  | lookup => exact .nothing _
  | prepare caller =>
    simp only [advance]
    split <;> exact .nothing _
  | claim caller =>
    simp only [advance]
    split
    · exact claimMessageRetry_wrote x.gate w x _
    · exact .nothing _
  | limit caller =>
    simp only [advance]
    split <;> exact .nothing _
  | deny caller =>
    simp only [advance, save]
    split
    · exact .failed _ _ _ rfl ‹_›
    · exact .nothing _
  | call caller =>
    rw [advance_call_fst]
    split
    · exact .created caller ‹_›
    · exact .nothing _
  | persist caller answer =>
    simp only [advance, save]
    split
    · cases answer with
      | accepted id => exact .stored caller id
      | refused failure => exact .failed _ _ _ rfl ‹_›
    · exact .nothing _
  | interrupt detail =>
    simp only [advance, save]
    split
    · exact .failed _ _ _ rfl ‹_›
    · exact .nothing _
  | claimStuck =>
    simp only [advance]
    split
    · exact claimStuckSendForRetry_wrote w x _
    · exact .nothing _
  | failStuck =>
    simp only [advance]
    split
    · exact failStuckOutboundSend_wrote w x _
    · exact .nothing _
  | markSent id =>
    simp only [advance]
    split
    · simp only [save]
      split
      · exact .plain _ _ (by rfl) (by intro h; cases h)
      · exact .nothing _
    · exact .nothing _
  | lookupFinal id final => exact .nothing _
  | finalize id final =>
    simp only [advance]
    split
    · simp only [save]
      split
      · exact .finalized id final
      · exact .nothing _
    · exact .nothing _

end

end OutboundTexts
