/-
**Webhook endpoints and their deliveries.**

`20260814060000_…_can_be_told_when_something_happens.sql` and `apps/api/src/webhooks/outbound.ts`: an
event of a company is written down as one delivery for each of its endpoints that listens to it, and
stays in the table as it is delivered.  Ids are numbers drawn from a counter, as no id is drawn
twice.

Main result:

* `Webhooks.Deed.capped`, `Webhooks.mem_listeners` — the cap on endpoints, and that under it no
  listener is passed over.
-/

import Texturion.SqlTable

namespace Webhooks

open SqlTable

/-! ### The tables -/

/-- A row of `webhook_endpoints`. -/
structure Endpoint where
  id : ℕ
  companyId : ℕ
  url : String
  secret : String
  events : List String
  active : Bool
  disabledReason : Option String
  disabledAt : Option ℤ
  consecutiveFailures : ℕ
  lastSuccessAt : Option ℤ
  lastFailureAt : Option ℤ
  deriving DecidableEq

inductive Status
  | pending
  | delivering
  | succeeded
  | failed
  deriving DecidableEq

/-- `succeeded` and `failed`. -/
def Status.terminal : Status → Bool
  | .succeeded => true
  | .failed => true
  | _ => false

/-- `WebhookEnvelope`. -/
structure Envelope where
  id : ℕ
  type : String
  createdAt : ℤ
  companyId : ℕ
  data : String
  deriving DecidableEq

/-- What `last_error` may say. -/
inductive LastError
  | endpointRemoved
  | endpointPaused
  | refused (sentence : String)
  | http (status : ℕ) (excerpt : String)
  | timedOut
  | requestFailed (name : String)
  deriving DecidableEq

/-- The text of `last_error`. -/
def LastError.text : LastError → String
  | .endpointRemoved => "endpoint removed"
  | .endpointPaused => "endpoint paused"
  | .refused sentence => sentence
  | .http status excerpt =>
      if excerpt.isEmpty then s!"HTTP {status}" else s!"HTTP {status}: {excerpt}"
  | .timedOut => "timed out"
  | .requestFailed name => s!"request failed ({name})"

/-- A row of `webhook_deliveries`. -/
structure Delivery where
  id : ℕ
  companyId : ℕ
  endpointId : ℕ
  eventType : String
  payload : Envelope
  status : Status
  attempts : ℕ
  nextAttemptAt : ℤ
  responseStatus : Option ℕ
  lastError : Option LastError
  createdAt : ℤ
  deliveredAt : Option ℤ
  deriving DecidableEq

/-- A request that has been made, with the row of the endpoint at that instant. -/
structure Post where
  deliveryId : ℕ
  url : String
  secret : String
  eventType : String
  payload : Envelope
  current : Option Endpoint
  deriving DecidableEq

/-- The tables, the posts made so far, and the next id. -/
structure Store where
  endpoints : List Endpoint
  deliveries : List Delivery
  posts : List Post
  fresh : ℕ
  deriving DecidableEq

def Store.empty : Store := { endpoints := [], deliveries := [], posts := [], fresh := 0 }

/-! ### Events -/

/-- `WEBHOOK_ENDPOINT_CAP`. -/
def endpointCap : ℕ := 10

structure OutboundWebhookEvent where
  companyId : ℕ
  type : String
  data : String
  deriving DecidableEq

def Endpoint.subscribed (event : OutboundWebhookEvent) (e : Endpoint) : Bool :=
  e.companyId == event.companyId && e.active && e.events.contains event.type

def delivery (now : ℤ) (event : OutboundWebhookEvent) (id : ℕ) (e : Endpoint) : Delivery where
  id := id
  companyId := event.companyId
  endpointId := e.id
  eventType := event.type
  payload :=
    { id := id, type := event.type, createdAt := now, companyId := event.companyId
      data := event.data }
  status := .pending
  attempts := 0
  nextAttemptAt := now
  responseStatus := none
  lastError := none
  createdAt := now
  deliveredAt := none

/-- The rows of an event, with ids from `first` on. -/
def deliveriesFor (now : ℤ) (event : OutboundWebhookEvent) : ℕ → List Endpoint → List Delivery
  | _, [] => []
  | first, e :: rest => delivery now event first e :: deliveriesFor now event (first + 1) rest

def Store.listeners (event : OutboundWebhookEvent) (s : Store) : List Endpoint :=
  (s.endpoints.filter (Endpoint.subscribed event)).take endpointCap

/-- `enqueue`, where neither call fails; the number of rows. -/
def enqueue (now : ℤ) (event : OutboundWebhookEvent) (s : Store) : Store × ℕ :=
  let listeners := s.listeners event
  ({ s with
      deliveries := s.deliveries ++ deliveriesFor now event s.fresh listeners
      fresh := s.fresh + listeners.length },
    listeners.length)

theorem mem_deliveriesFor {now : ℤ} {event : OutboundWebhookEvent} {first : ℕ}
    {endpoints : List Endpoint} {d : Delivery} (hd : d ∈ deliveriesFor now event first endpoints) :
    first ≤ d.id ∧ d.id < first + endpoints.length ∧
      ∃ e ∈ endpoints, d = delivery now event d.id e := by
  induction endpoints generalizing first with
  | nil => exact absurd hd List.not_mem_nil
  | cons e rest ih =>
      rw [List.length_cons]
      rcases List.mem_cons.1 hd with rfl | hd
      · refine ⟨le_rfl, ?_, e, List.mem_cons_self .., rfl⟩
        have hid : (delivery now event first e).id = first := rfl
        omega
      · obtain ⟨hge, hlt, e', he', heq⟩ := ih hd
        exact ⟨by omega, by omega, e', List.mem_cons_of_mem _ he', heq⟩

theorem nodup_deliveriesFor (now : ℤ) (event : OutboundWebhookEvent) (first : ℕ)
    (endpoints : List Endpoint) : ((deliveriesFor now event first endpoints).map (·.id)).Nodup := by
  induction endpoints generalizing first with
  | nil => exact List.nodup_nil
  | cons e rest ih =>
      refine List.nodup_cons.2 ⟨fun hmem => ?_, ih (first + 1)⟩
      obtain ⟨d, hd, hid⟩ := List.mem_map.1 hmem
      obtain ⟨hge, -⟩ := mem_deliveriesFor hd
      have hfirst : d.id = first := hid
      omega

/-! ### The claim -/

/-- Fifteen minutes, in milliseconds: the crash floor of a claim. -/
def crashFloorMs : ℤ := 15 * 60 * 1000

/-- `status in ('pending', 'delivering') and next_attempt_at <= now()`. -/
def Delivery.due (now : ℤ) (d : Delivery) : Bool :=
  !d.status.terminal && decide (d.nextAttemptAt ≤ now)

def Delivery.claiming (now : ℤ) (d : Delivery) : Delivery :=
  { d with
    status := .delivering, attempts := d.attempts + 1, nextAttemptAt := now + crashFloorMs }

/-- The rows a claim takes. -/
def dueDeliveries (now : ℤ) (limit : ℕ) (s : Store) : List Delivery :=
  firstBy (·.nextAttemptAt) limit (s.deliveries.filter (Delivery.due now))

/-- `api_claim_webhook_deliveries`. -/
def claimDeliveries (now : ℤ) (limit : ℕ) (s : Store) : Store × List Delivery :=
  let due := dueDeliveries now limit s
  ({ s with
      deliveries := update (fun d => (due.map (·.id)).contains d.id) (Delivery.claiming now)
        s.deliveries },
    due.map (Delivery.claiming now))

/-! ### What else happens to the tables -/

/-- `PATCH /webhooks/:id`. -/
structure EndpointPatch where
  url : Option String
  events : Option (List String)
  active : Option Bool
  deriving DecidableEq

/-- The columns a patch writes: turning an endpoint on clears its streak and its reason. -/
def EndpointPatch.apply (patch : EndpointPatch) (e : Endpoint) : Endpoint :=
  let e := { e with url := patch.url.getD e.url, events := patch.events.getD e.events }
  match patch.active with
  | none => e
  | some true =>
      { e with active := true, consecutiveFailures := 0, disabledReason := none, disabledAt := none }
  | some false => { e with active := false }

/-- The endpoint `id` of a company. -/
def Endpoint.is (companyId id : ℕ) (e : Endpoint) : Bool := e.companyId == companyId && e.id == id

/-- An endpoint as `POST /webhooks` makes it. -/
def Endpoint.fresh (id companyId : ℕ) (url secret : String) (events : List String) : Endpoint where
  id := id
  companyId := companyId
  url := url
  secret := secret
  events := events
  active := true
  disabledReason := none
  disabledAt := none
  consecutiveFailures := 0
  lastSuccessAt := none
  lastFailureAt := none

/-- `POST /webhooks`, with the trigger `webhook_endpoints_cap`. -/
def createEndpoint (companyId : ℕ) (url secret : String) (events : List String) (s : Store) :
    Store :=
  if s.endpoints.countP (fun e => e.companyId == companyId) ≥ endpointCap then s
  else
    { s with
      endpoints := s.endpoints ++ [.fresh s.fresh companyId url secret events]
      fresh := s.fresh + 1 }

def patchEndpoint (companyId id : ℕ) (patch : EndpointPatch) (s : Store) : Store :=
  { s with endpoints := update (Endpoint.is companyId id) patch.apply s.endpoints }

/-- `POST /webhooks/:id/secret`. -/
def rotateSecret (companyId id : ℕ) (secret : String) (s : Store) : Store :=
  { s with
    endpoints := update (Endpoint.is companyId id) (fun e => { e with secret := secret })
      s.endpoints }

/-- `DELETE /webhooks/:id`; `on delete cascade` takes the deliveries along. -/
def deleteEndpoint (companyId id : ℕ) (s : Store) : Store :=
  let gone := (s.endpoints.filter (Endpoint.is companyId id)).map (·.id)
  { s with
    endpoints := s.endpoints.filter fun e => !e.is companyId id
    deliveries := s.deliveries.filter fun d => !gone.contains d.endpointId }

/-- Thirty days, in milliseconds. -/
def retentionMs : ℤ := 30 * 24 * 3600 * 1000

/-- `api_prune_webhook_deliveries`. -/
def prune (now : ℤ) (limit : ℕ) (s : Store) : Store :=
  let old := (s.deliveries.filter fun d => decide (d.createdAt < now - retentionMs)).take limit
  { s with deliveries := s.deliveries.filter fun d => !(old.map (·.id)).contains d.id }

inductive Deed
  | enqueue (now : ℤ) (event : OutboundWebhookEvent)
  | createEndpoint (companyId : ℕ) (url secret : String) (events : List String)
  | patchEndpoint (companyId id : ℕ) (patch : EndpointPatch)
  | rotateSecret (companyId id : ℕ) (secret : String)
  | deleteEndpoint (companyId id : ℕ)
  | prune (now : ℤ) (limit : ℕ)
  deriving DecidableEq

def Deed.apply (s : Store) : Deed → Store
  | .enqueue now event => (Webhooks.enqueue now event s).1
  | .createEndpoint companyId url secret events =>
      Webhooks.createEndpoint companyId url secret events s
  | .patchEndpoint companyId id patch => Webhooks.patchEndpoint companyId id patch s
  | .rotateSecret companyId id secret => Webhooks.rotateSecret companyId id secret s
  | .deleteEndpoint companyId id => Webhooks.deleteEndpoint companyId id s
  | .prune now limit => Webhooks.prune now limit s

/-! ### The cap -/

/-- What the trigger `webhook_endpoints_cap` keeps. -/
def Store.Capped (s : Store) : Prop :=
  ∀ companyId, s.endpoints.countP (fun e => e.companyId == companyId) ≤ endpointCap

/-- An update that leaves the companies alone leaves their endpoints as many as they were. -/
theorem countP_update_endpoints {p : Endpoint → Bool} {f : Endpoint → Endpoint}
    (hf : ∀ e, (f e).companyId = e.companyId) (companyId : ℕ) (endpoints : List Endpoint) :
    (update p f endpoints).countP (fun e => e.companyId == companyId) =
      endpoints.countP (fun e => e.companyId == companyId) := by
  induction endpoints with
  | nil => rfl
  | cons e rest ih =>
      rw [update_cons, List.countP_cons, List.countP_cons, ih]
      split <;> simp [hf]

theorem EndpointPatch.apply_companyId (patch : EndpointPatch) (e : Endpoint) :
    (patch.apply e).companyId = e.companyId := by
  unfold EndpointPatch.apply
  dsimp only
  split <;> rfl

theorem Deed.capped {s : Store} (h : s.Capped) (d : Deed) : (d.apply s).Capped := by
  intro companyId
  cases d with
  | enqueue now event => exact h companyId
  | createEndpoint owner url secret events =>
      simp only [Deed.apply, Webhooks.createEndpoint]
      split
      · exact h companyId
      · rename_i hroom
        rw [List.countP_append]
        rcases eq_or_ne owner companyId with rfl | hne
        · simp only [List.countP_singleton, Endpoint.fresh]
          simp only [endpointCap, beq_self_eq_true, if_true] at hroom ⊢
          omega
        · have hother := h companyId
          simpa [Endpoint.fresh, hne] using hother
  | patchEndpoint owner id patch =>
      simp only [Deed.apply, Webhooks.patchEndpoint]
      rw [countP_update_endpoints patch.apply_companyId]
      exact h companyId
  | rotateSecret owner id secret =>
      have hf : ∀ e : Endpoint, { e with secret := secret }.companyId = e.companyId := fun _ => rfl
      simp only [Deed.apply, Webhooks.rotateSecret]
      rw [countP_update_endpoints hf]
      exact h companyId
  | deleteEndpoint owner id =>
      exact (List.filter_sublist.countP_le).trans (h companyId)
  | prune now limit => exact h companyId

theorem mem_listeners {s : Store} (h : s.Capped) {event : OutboundWebhookEvent} {e : Endpoint}
    (he : e ∈ s.endpoints) (hsub : e.subscribed event = true) : e ∈ s.listeners event := by
  have hle : (s.endpoints.filter (Endpoint.subscribed event)).length ≤ endpointCap := by
    rw [← List.countP_eq_length_filter]
    refine le_trans (List.countP_mono_left fun e' _ hsub' => ?_) (h event.companyId)
    simp only [Endpoint.subscribed, Bool.and_eq_true] at hsub'
    exact hsub'.1.1
  rw [Store.listeners, List.take_of_length_le hle]
  exact List.mem_filter.2 ⟨he, hsub⟩

theorem exists_mem_deliveriesFor (now : ℤ) (event : OutboundWebhookEvent) (first : ℕ)
    {endpoints : List Endpoint} {e : Endpoint} (he : e ∈ endpoints) :
    ∃ id, delivery now event id e ∈ deliveriesFor now event first endpoints := by
  induction endpoints generalizing first with
  | nil => exact absurd he List.not_mem_nil
  | cons e' rest ih =>
      rcases List.mem_cons.1 he with rfl | he
      · exact ⟨first, List.mem_cons_self ..⟩
      · obtain ⟨id, hid⟩ := ih (first + 1) he
        exact ⟨id, List.mem_cons_of_mem _ hid⟩

end Webhooks
