/-
**The delivery job.**

`apps/api/src/webhooks/outbound-deliver.ts`: a tick claims a batch of deliveries, reads the
endpoints they go to, posts them one after the other, writes down what came back, and at the end of
the batch settles the streaks of the endpoints; and so on for a few batches.  Ticks overlap, a tick
may die between any two of its calls, and a write may fail without the job noticing.
-/

import Texturion.Interleaving
import Texturion.WebhookQueue

namespace Webhooks

open SqlTable Interleaving

/-! ### The schedule -/

/-- `WEBHOOK_RETRY_SCHEDULE_SECONDS` and `WEBHOOK_MAX_ATTEMPTS`. -/
def retryScheduleSeconds : List ℤ := [30, 120, 600, 3600, 21600]
def maxAttempts : ℕ := retryScheduleSeconds.length + 1

def webhookRetryDelaySeconds (attemptsSoFar : ℕ) : Option ℤ :=
  if attemptsSoFar < 1 then some 0 else retryScheduleSeconds[attemptsSoFar - 1]?

/-- `WEBHOOK_AUTO_DISABLE_AFTER_CONSECUTIVE_FAILURES`. -/
def autoDisableAfterConsecutiveFailures : ℕ := 20

theorem lt_maxAttempts_of_delay {attempts : ℕ} {delay : ℤ}
    (h : webhookRetryDelaySeconds attempts = some delay) : attempts < maxAttempts := by
  unfold webhookRetryDelaySeconds at h
  split_ifs at h with hzero
  · exact lt_of_lt_of_le hzero (by decide)
  · obtain ⟨hlt, -⟩ := List.getElem?_eq_some_iff.1 h
    simp only [maxAttempts]
    omega

/-! ### Where a deployment may post -/

/-- The deployment: whether it is the rig, and `RIG_ROBOT_WEBHOOK_ORIGIN`. -/
structure Deployment where
  rig : Bool
  robot : Option String
  deriving DecidableEq

/-- `customerWebhookRefusal`; `origin` is the runtime's parser of addresses. -/
def customerWebhookRefusal (origin : String → Option String) (env : Deployment) (url : String) :
    Option String :=
  if ¬env.rig then none
  else
    match env.robot with
    | none => some "rig mode delivers webhooks only to RIG_ROBOT_WEBHOOK_ORIGIN, which is unset"
    | some robot =>
        match origin url with
        | none => some "rig mode refuses an unparseable webhook URL"
        | some o => if o = robot then none else some "rig mode delivers webhooks only to the robot"

/-! ### What comes back -/

/-- `Attempt`. -/
inductive Attempt
  | ok (status : ℕ)
  | rejected (status : ℕ) (excerpt : String)
  | timedOut
  | requestFailed (name : String)
  deriving DecidableEq

namespace Attempt

def succeeded : Attempt → Bool
  | .ok _ => true
  | _ => false

def status : Attempt → Option ℕ
  | .ok status => some status
  | .rejected status _ => some status
  | _ => none

def error : Attempt → Option LastError
  | .ok _ => none
  | .rejected status excerpt => some (.http status excerpt)
  | .timedOut => some .timedOut
  | .requestFailed name => some (.requestFailed name)

end Attempt

/-- What is written about an attempt; `attempts` is the number the claim has stamped. -/
def Delivery.recording (now : ℤ) (attempts : ℕ) (attempt : Attempt) (d : Delivery) : Delivery :=
  if attempt.succeeded then
    { d with
      status := .succeeded, responseStatus := attempt.status, deliveredAt := some now
      lastError := none }
  else
    match webhookRetryDelaySeconds attempts with
    | none =>
        { d with
          status := .failed, responseStatus := attempt.status, lastError := attempt.error }
    | some delay =>
        { d with
          status := .pending, responseStatus := attempt.status, lastError := attempt.error
          nextAttemptAt := now + delay * 1000 }

/-- What is written where nothing is posted. -/
def Delivery.refusing (error : LastError) (d : Delivery) : Delivery :=
  { d with status := .failed, lastError := some error }

/-- Change the delivery `id`. -/
def Store.setDelivery (s : Store) (id : ℕ) (f : Delivery → Delivery) : Store :=
  { s with deliveries := update (fun d => d.id == id) f s.deliveries }

/-- How the deliveries of a batch went for one endpoint. -/
structure Tally where
  successes : ℕ
  failures : ℕ
  deriving DecidableEq

/-- One attempt more in the map of the tallies. -/
def tallyUp (succeeded : Bool) (id : ℕ) : List (ℕ × Tally) → List (ℕ × Tally)
  | [] => [(id, if succeeded then ⟨1, 0⟩ else ⟨0, 1⟩)]
  | (id', tally) :: rest =>
      if id' = id then
        (id, if succeeded then { tally with successes := tally.successes + 1 }
          else { tally with failures := tally.failures + 1 }) :: rest
      else (id', tally) :: tallyUp succeeded id rest

/-- The streak of an endpoint after a batch without a success. -/
def streak (endpoints : List Endpoint) (id : ℕ) (tally : Tally) : Option ℕ :=
  (endpoints.find? fun e => e.id == id).map fun e => e.consecutiveFailures + tally.failures

/-- What the end of a batch writes on an endpoint. -/
def Endpoint.settling (now : ℤ) (streak : ℕ) (tally : Tally) (e : Endpoint) : Endpoint :=
  if tally.successes > 0 then { e with consecutiveFailures := 0, lastSuccessAt := some now }
  else if streak ≥ autoDisableAfterConsecutiveFailures then
    { e with
      consecutiveFailures := streak, lastFailureAt := some now, active := false
      disabledAt := some now, disabledReason := some "webhooks.disabled.tooManyFailures" }
  else { e with consecutiveFailures := streak, lastFailureAt := some now }

/-- The end of a batch, for one endpoint. -/
def settle (now : ℤ) (endpoints : List Endpoint) (id : ℕ) (tally : Tally) (s : Store) : Store :=
  match streak endpoints id tally with
  | none => s
  | some n =>
      { s with
        endpoints := update (fun e => e.id == id) (Endpoint.settling now n tally) s.endpoints }

/-! ### The handler -/

/-- `MAX_BATCHES_PER_TICK`, and the size of a batch. -/
def maxBatchesPerTick : ℕ := 6
def batchSize : ℕ := 50

/-- Where a tick is; `left` counts its batches, and `endpoints` is what the batch has read. -/
inductive Point
  | claiming (left : ℕ)
  | reading (left : ℕ) (due : List Delivery)
  | posting (left : ℕ) (endpoints : List Endpoint) (outcomes : List (ℕ × Tally))
      (due : List Delivery)
  | awaiting (left : ℕ) (endpoints : List Endpoint) (outcomes : List (ℕ × Tally))
      (delivery : Delivery) (due : List Delivery)
  | writing (left : ℕ) (endpoints : List Endpoint) (outcomes : List (ℕ × Tally))
      (delivery : Delivery) (attempt : Attempt) (due : List Delivery)
  | closing (left : ℕ) (endpoints : List Endpoint) (outcomes : List (ℕ × Tally))
  deriving DecidableEq

/-- What a tick finds: what became of a call, or what came back from a post.  A call that is
`unheard` was carried out, and looks like a failure. -/
inductive Find
  | failed
  | done (now : ℤ)
  | unheard (now : ℤ)
  | answered (attempt : Attempt)
  deriving DecidableEq

/-- The instant at which a call was carried out. -/
def Find.carried : Find → Option ℤ
  | .done now => some now
  | .unheard now => some now
  | _ => none

/-- A write whose failure nobody looks at. -/
def Find.write (x : Find) (f : ℤ → Store → Store) (s : Store) : Store :=
  match x.carried with
  | none => s
  | some now => f now s

def post (s : Store) (d : Delivery) (e : Endpoint) : Store :=
  { s with
    posts := s.posts ++
      [{ deliveryId := d.id, url := e.url, secret := e.secret, eventType := d.eventType
         payload := d.payload, current := s.endpoints.find? fun e' => e'.id == e.id }] }

section

variable (origin : String → Option String) (env : Deployment)

/-- What becomes of a delivery when its turn comes. -/
inductive Dispatch
  | refuse (error : LastError)
  | post (endpoint : Endpoint)
  deriving DecidableEq

/-- The loop of `deliverWebhookBatch`, up to the post. -/
def dispatch (endpoints : List Endpoint) (d : Delivery) : Dispatch :=
  match endpoints.find? fun e => e.id == d.endpointId with
  | none => .refuse .endpointRemoved
  | some e =>
      if e.active = false then .refuse .endpointPaused
      else
        match customerWebhookRefusal origin env e.url with
        | some sentence => .refuse (.refused sentence)
        | none => .post e

/-- What the call of a tick does to the tables. -/
def call (s : Store) : Point → Find → Store
  | .claiming _, x => x.write (fun now s => (claimDeliveries now batchSize s).1) s
  | .posting _ endpoints _ (d :: _), x =>
      match dispatch origin env endpoints d with
      | .refuse error => x.write (fun _ s => s.setDelivery d.id (Delivery.refusing error)) s
      | .post e => post s d e
  | .writing _ _ _ d attempt _, x =>
      x.write (fun now s => s.setDelivery d.id (Delivery.recording now d.attempts attempt)) s
  | .closing _ endpoints ((id, tally) :: _), x =>
      x.write (fun now s => settle now endpoints id tally s) s
  | _, _ => s

theorem call_claiming (s : Store) (left : ℕ) (x : Find) :
    call origin env s (.claiming left) x =
      x.write (fun now s => (claimDeliveries now batchSize s).1) s := rfl

theorem call_posting (s : Store) (left : ℕ) (endpoints : List Endpoint)
    (outcomes : List (ℕ × Tally)) (d : Delivery) (due : List Delivery) (x : Find) :
    call origin env s (.posting left endpoints outcomes (d :: due)) x =
      match dispatch origin env endpoints d with
      | .refuse error => x.write (fun _ s => s.setDelivery d.id (Delivery.refusing error)) s
      | .post e => post s d e := rfl

theorem call_writing (s : Store) (left : ℕ) (endpoints : List Endpoint)
    (outcomes : List (ℕ × Tally)) (d : Delivery) (attempt : Attempt) (due : List Delivery)
    (x : Find) :
    call origin env s (.writing left endpoints outcomes d attempt due) x =
      x.write (fun now s => s.setDelivery d.id (Delivery.recording now d.attempts attempt)) s := rfl

theorem call_closing (s : Store) (left : ℕ) (endpoints : List Endpoint) (id : ℕ) (tally : Tally)
    (rest : List (ℕ × Tally)) (x : Find) :
    call origin env s (.closing left endpoints ((id, tally) :: rest)) x =
      x.write (fun now s => settle now endpoints id tally s) s := rfl

/-- Where a tick is after its call. -/
def next (s : Store) : Point → Find → Option Point
  | .claiming left, .done now =>
      match (claimDeliveries now batchSize s).2 with
      | [] => none
      | d :: due => some (.reading left (d :: due))
  | .claiming _, _ => none
  | .reading left due, .done _ =>
      some (.posting left (s.endpoints.filter fun e => (due.map (·.endpointId)).contains e.id) [] due)
  -- The error of the read is not looked at.
  | .reading left due, _ => some (.posting left [] [] due)
  | .posting left endpoints outcomes [], _ => some (.closing left endpoints outcomes)
  | .posting left endpoints outcomes (d :: due), _ =>
      match dispatch origin env endpoints d with
      | .refuse _ => some (.posting left endpoints outcomes due)
      | .post _ => some (.awaiting left endpoints outcomes d due)
  | .awaiting left endpoints outcomes d due, .answered attempt =>
      some (.writing left endpoints outcomes d attempt due)
  | .awaiting .., _ => none
  | .writing left endpoints outcomes d attempt due, _ =>
      some (.posting left endpoints (tallyUp attempt.succeeded d.endpointId outcomes) due)
  | .closing left _ [], _ => if left ≤ 1 then none else some (.claiming (left - 1))
  | .closing left endpoints (_ :: rest), _ => some (.closing left endpoints rest)

end

/-- The delivery job, with everything else that happens to the tables. -/
def deliveryJob (origin : String → Option String) (env : Deployment) :
    System Store Unit Point Find Deed Empty where
  enter _ := .claiming maxBatchesPerTick
  advance s p x := (call origin env s p x, next origin env s p x, [])
  world s deed := (deed.apply s, [])

end Webhooks
