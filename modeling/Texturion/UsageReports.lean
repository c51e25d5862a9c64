/-
**Usage reported to Stripe.**

`apps/api/src/messaging/crons.ts` and `apps/api/src/billing/meter.ts`: the hourly jobs take the two
hundred oldest usage rows without a `stripe_reported_at`, send each as a meter event and stamp it.
`reportUnreportedUsage` and `reportUnreportedVoiceUsage` are the same job over two tables; what they
differ in is a `Meter`.

Stripe is a parameter: it accepts an identifier, and for a window of time answers a repeat of it
with one and the same error.  Between any two calls of a run time goes by, any call may fail with or
without having had its effect, and the job may die.

Main result:

* `UsageReports.Sound.accepted_le_one` — where every acceptance of a row is followed by its stamp
  within a window, there is one.
-/

import Mathlib.Data.List.Infix
import Texturion.ReactiveRun
import Texturion.SqlTable

namespace UsageReports

open SqlTable

/-! ### Errors -/

/-- What a call has thrown, as far as the job looks at it; a property that is no string is none. -/
structure Cause where
  type : Option String
  rawType : Option String
  message : Option String
  deriving DecidableEq

/-- `/word/i.test(message)`, for a word in small letters. -/
def mentions (word message : String) : Bool :=
  decide (word.toList <:+: message.toList.map Char.toLower)

def isDuplicateMeterIdentifierError (cause : Cause) : Bool :=
  (cause.type == some "StripeInvalidRequestError" ||
      cause.rawType == some "invalid_request_error") &&
    match cause.message with
    | none => false
    | some message =>
      mentions "identifier" message &&
        (mentions "already" message || mentions "duplicate" message)

example : isDuplicateMeterIdentifierError
    { type := some "StripeInvalidRequestError"
      rawType := none
      message := some "An event already exists with Identifier m1" } = true := by
  decide +kernel

/-! ### The tables -/

/-- A usage table as its job reads and writes it.  `bills` and `hygiene` are the conditions of its
query and of the sweep before it, beside `stripe_reported_at is null`. -/
structure Meter (α : Type*) where
  eventName : String
  id : α → ℕ
  companyId : α → ℕ
  createdAt : α → ℤ
  reportedAt : α → Option ℤ
  bills : α → Bool
  hygiene : Option (α → Bool)
  value : α → ℤ
  identifier : α → String
  stamp : ℤ → α → α
  reportedAt_stamp : ∀ t r, reportedAt (stamp t r) = some t
  id_stamp : ∀ t r, id (stamp t r) = id r
  identifier_stamp : ∀ t r, identifier (stamp t r) = identifier r
  not_hygiene : ∀ p r, hygiene = some p → bills r = true → p r = false

/-- A row of `usage_events`. -/
structure UsageEvent where
  id : ℕ
  companyId : ℕ
  quantity : ℤ
  meterIdentifier : Option String
  stripeReportedAt : Option ℤ
  createdAt : ℤ
  deriving DecidableEq

/-- `call_records.leg`. -/
inductive Leg
  | inbound
  | forward
  | outAgent
  | outCustomer
  | inBrowser
  deriving DecidableEq

/-- A row of `call_records`. -/
structure CallRecord where
  id : ℕ
  companyId : ℕ
  callLegId : Option String
  leg : Leg
  billableSeconds : ℤ
  stripeReportedAt : Option ℤ
  createdAt : ℤ
  deriving DecidableEq

/-- `["forward", "out_customer", "in_browser"]`. -/
def Leg.billed : Leg → Bool
  | .forward => true
  | .outCustomer => true
  | .inBrowser => true
  | _ => false

/-- The `sms_segments` meter. -/
def segments (eventName : String) : Meter UsageEvent where
  eventName := eventName
  id := UsageEvent.id
  companyId := UsageEvent.companyId
  createdAt := UsageEvent.createdAt
  reportedAt := UsageEvent.stripeReportedAt
  bills := fun _ => true
  hygiene := none
  value := UsageEvent.quantity
  identifier := fun r => r.meterIdentifier.getD (toString r.id)
  stamp := fun t r => { r with stripeReportedAt := some t }
  reportedAt_stamp := fun _ _ => rfl
  id_stamp := fun _ _ => rfl
  identifier_stamp := fun _ _ => rfl
  not_hygiene := fun _ _ h _ => nomatch h

/-- The `voice_seconds` meter. -/
def voice (eventName : String) : Meter CallRecord where
  eventName := eventName
  id := CallRecord.id
  companyId := CallRecord.companyId
  createdAt := CallRecord.createdAt
  reportedAt := CallRecord.stripeReportedAt
  bills := fun r => r.leg.billed && decide (0 < r.billableSeconds)
  hygiene := some fun r => !r.leg.billed || r.billableSeconds == 0
  value := CallRecord.billableSeconds
  identifier := fun r => r.callLegId.getD (toString r.id)
  stamp := fun t r => { r with stripeReportedAt := some t }
  reportedAt_stamp := fun _ _ => rfl
  id_stamp := fun _ _ => rfl
  identifier_stamp := fun _ _ => rfl
  not_hygiene := by
    intro p r hp hbills
    obtain rfl := Option.some.inj hp
    simp only [Bool.and_eq_true, decide_eq_true_eq] at hbills
    have hne : r.billableSeconds ≠ 0 := by omega
    simp [hbills.1, hne]

/-- A meter event that Stripe has accepted, and the row it was sent for. -/
structure Acceptance where
  row : ℕ
  customer : String
  value : ℤ
  identifier : String
  acceptedAt : ℤ
  deriving DecidableEq

/-- The usage table, `companies.stripe_customer_id`, what Stripe has accepted, and the clock. -/
structure World (α : Type*) where
  rows : List α
  customerOf : ℕ → Option String
  accepted : List Acceptance
  now : ℤ

/-- Stripe: how long it knows an identifier, and what it answers to a repeat. -/
structure Stripe where
  window : ℕ
  duplicate : Cause

variable {α : Type*}

/-- Time goes by. -/
def World.wait (w : World α) (d : ℕ) : World α := { w with now := w.now + d }

@[simp] theorem World.wait_rows (w : World α) (d : ℕ) : (w.wait d).rows = w.rows := rfl
@[simp] theorem World.wait_accepted (w : World α) (d : ℕ) :
    (w.wait d).accepted = w.accepted := rfl
@[simp] theorem World.wait_customerOf (w : World α) (d : ℕ) :
    (w.wait d).customerOf = w.customerOf := rfl

/-! ### One meter event -/

def Stripe.knows (stripe : Stripe) (w : World α) (identifier : String) : Bool :=
  w.accepted.any fun a =>
    a.identifier == identifier && decide (w.now ≤ a.acceptedAt + stripe.window)

/-- `billing.meterEvents.create`, at Stripe. -/
def Stripe.create (stripe : Stripe) (w : World α) (row : ℕ) (customer : String) (value : ℤ)
    (identifier : String) : World α × Option Cause :=
  if stripe.knows w identifier then (w, some stripe.duplicate)
  else ({ w with accepted := w.accepted ++ [⟨row, customer, value, identifier, w.now⟩] }, none)

/-- What becomes of a call on its way to Stripe and back. -/
inductive Transit
  | delivered
  | answerLost (cause : Cause)
  | undelivered (cause : Cause)
  deriving DecidableEq

/-- `reportMeterEvent`; the result is what it throws. -/
def reportMeterEvent (stripe : Stripe) (eventName : String) (w : World α) (row : ℕ)
    (customer : String) (value : ℤ) (identifier : String) (transit : Transit) :
    World α × Option Cause :=
  if value < 1 then
    (w, some
      { type := none
        rawType := none
        message := some ("reportMeterEvent(" ++ eventName ++
          "): value must be a positive integer, got " ++ toString value) })
  else
    match transit with
    | .delivered => stripe.create w row customer value identifier
    | .answerLost cause => ((stripe.create w row customer value identifier).1, some cause)
    | .undelivered cause => (w, some cause)

/-! ### The job -/

/-- What a run meets at one row: how long until its call and from there to its stamp, what becomes
of the call, and whether the stamp is written. -/
structure Turn where
  calledAfter : ℕ
  transit : Transit
  stampedAfter : ℕ
  stamped : Bool
  deriving DecidableEq

inductive Outcome
  | failed (cause : Cause)
  | stamped
  | stampError
  deriving DecidableEq

/-- The rows a job is after: those that bill and have not been reported. -/
def Meter.isPending (m : Meter α) (r : α) : Bool := m.bills r && (m.reportedAt r).isNone

/-- `row.companies?.stripe_customer_id`, unless it is falsy. -/
def stripeCustomerId (m : Meter α) (w : World α) (r : α) : Option String :=
  (w.customerOf (m.companyId r)).filter fun customer => customer != ""

/-- `update … set stripe_reported_at = now() where … and stripe_reported_at is null`. -/
def stampWhere (m : Meter α) (w : World α) (p : α → Bool) : World α :=
  { w with rows := update (fun r => p r && (m.reportedAt r).isNone) (m.stamp w.now) w.rows }

@[simp] theorem stampWhere_accepted (m : Meter α) (w : World α) (p : α → Bool) :
    (stampWhere m w p).accepted = w.accepted := rfl
@[simp] theorem stampWhere_customerOf (m : Meter α) (w : World α) (p : α → Bool) :
    (stampWhere m w p).customerOf = w.customerOf := rfl

def stampRow (m : Meter α) (w : World α) (id : ℕ) : World α := stampWhere m w fun r => m.id r == id

/-- The body of the loop, for a row whose company has a customer. -/
def reportRow (stripe : Stripe) (m : Meter α) (w : World α) (r : α) (customer : String)
    (turn : Turn) : World α × Outcome :=
  let called := reportMeterEvent stripe m.eventName (w.wait turn.calledAfter) (m.id r) customer
    (m.value r) (m.identifier r) turn.transit
  let ready := called.1.wait turn.stampedAfter
  match called.2.filter fun cause => !isDuplicateMeterIdentifierError cause with
  | some cause => (ready, .failed cause)
  | none => if turn.stamped then (stampRow m ready (m.id r), .stamped) else (ready, .stampError)

/-- How a run ends. -/
inductive End
  | sweepError
  | queryError
  | stampError
  | crashed
  | done (found failed : ℕ) (lastFailure : Option Cause)
  deriving DecidableEq

/-- The loop over the rows of the batch.  Where the turns end, the job has died. -/
def reportRows (stripe : Stripe) (m : Meter α) (found : ℕ) :
    World α → List α → List Turn → ℕ → Option Cause → World α × End
  | w, [], _, failed, lastFailure => (w, .done found failed lastFailure)
  | w, r :: rows, turns, failed, lastFailure =>
    match stripeCustomerId m w r with
    | none => reportRows stripe m found w rows turns failed lastFailure
    | some customer =>
      match turns with
      | [] => (w, .crashed)
      | turn :: turns =>
        let next := reportRow stripe m w r customer turn
        match next.2 with
        | .failed cause =>
          reportRows stripe m found next.1 rows turns (failed + 1) (some cause)
        | .stamped => reportRows stripe m found next.1 rows turns failed lastFailure
        | .stampError => (next.1, .stampError)

def reportBatch : ℕ := 200

/-- The rows a run works on. -/
def batch (m : Meter α) (w : World α) : List α :=
  firstBy m.createdAt reportBatch (w.rows.filter m.isPending)

/-- What a run meets: whether the sweep and the query are answered, and a turn for each row. -/
structure Run where
  swept : Bool
  selected : Bool
  turns : List Turn
  deriving DecidableEq

def sweep (m : Meter α) (w : World α) : World α :=
  match m.hygiene with
  | none => w
  | some p => stampWhere m w p

def reportUnreported (stripe : Stripe) (m : Meter α) (w : World α) (run : Run) : World α × End :=
  if m.hygiene.isSome && !run.swept then (w, .sweepError)
  else if !run.selected then (sweep m w, .queryError)
  else
    reportRows stripe m (batch m (sweep m w)).length (sweep m w) (batch m (sweep m w)) run.turns 0
      none

def reportUnreportedUsage (stripe : Stripe) (smsMeterEventName : String) (w : World UsageEvent)
    (run : Run) : World UsageEvent × End :=
  reportUnreported stripe (segments smsMeterEventName) w run

/-- `reportUnreportedVoiceUsage`; without a voice meter it does nothing. -/
def reportUnreportedVoiceUsage (stripe : Stripe) (voiceMeterEventName : Option String)
    (w : World CallRecord) (run : Run) : World CallRecord × End :=
  match voiceMeterEventName.filter fun name => name != "" with
  | none => (w, .done 0 0 none)
  | some name => reportUnreported stripe (voice name) w run

/-- What `reportReporterFailures` reports. -/
structure Report where
  found : ℕ
  failed : ℕ
  lastFailure : Option Cause
  deriving DecidableEq

/-- `reportReporterFailures`, at the end of a run that came to its end. -/
def reportReporterFailures : End → List Report
  | .done found failed lastFailure => if failed = 0 then [] else [⟨found, failed, lastFailure⟩]
  | _ => []

/-! ### Sequences of runs -/

/-- A run; and between two runs time goes by, a company gets or loses its customer, and a row is
written, unless its id is taken. -/
inductive Move (α : Type*)
  | run (r : Run)
  | wait (d : ℕ)
  | customer (companyId : ℕ) (id : Option String)
  | insert (r : α)

def step (stripe : Stripe) (m : Meter α) (w : World α) : Move α → World α × List Report
  | .run r =>
    let next := reportUnreported stripe m w r
    (next.1, reportReporterFailures next.2)
  | .wait d => (w.wait d, [])
  | .customer companyId id =>
    ({ w with customerOf := fun c => if c = companyId then id else w.customerOf c }, [])
  | .insert r =>
    if w.rows.any fun a => m.id a == m.id r then (w, [])
    else ({ w with rows := w.rows ++ [r] }, [])

/-! ### What a run can do -/

/-- The rows of a batch that a run has not come to are in the table, unreported, each once. -/
structure Open (m : Meter α) (w : World α) (rows : List α) : Prop where
  mem : ∀ r ∈ rows, r ∈ w.rows ∧ m.reportedAt r = none
  nodup : (rows.map m.id).Nodup

variable {w : World α} {r : α} {rows : List α}

theorem Open.tail {m : Meter α} (h : Open m w (r :: rows)) : Open m w rows :=
  ⟨fun a ha => h.mem a (List.mem_cons_of_mem _ ha), (List.nodup_cons.1 h.nodup).2⟩

theorem Open.stampRow {m : Meter α} {w v : World α} (h : Open m w (r :: rows))
    (hrows : v.rows = w.rows) : Open m (stampRow m v (m.id r)) rows := by
  obtain ⟨hnot, hnodup⟩ := List.nodup_cons.1 h.nodup
  refine ⟨fun a ha => ?_, hnodup⟩
  have hne : (m.id a == m.id r) = false :=
    beq_eq_false_iff_ne.2 fun heq => hnot (heq ▸ List.mem_map_of_mem ha)
  obtain ⟨hmem, hreported⟩ := h.mem a (List.mem_cons_of_mem _ ha)
  exact ⟨mem_update_of_not (hrows ▸ hmem) (by simp [hne]), hreported⟩

/-- A property that time, a stamp and a new acceptance of an unreported row leave true. -/
structure Preserved (stripe : Stripe) (m : Meter α) (P : World α → Prop) : Prop where
  wait : ∀ w d, P w → P (w.wait d)
  stamp : ∀ w p, P w → P (stampWhere m w p)
  accept : ∀ w r customer, P w → r ∈ w.rows → m.reportedAt r = none →
    stripe.knows w (m.identifier r) = false →
      P { w with
        accepted := w.accepted ++ [⟨m.id r, customer, m.value r, m.identifier r, w.now⟩] }

theorem create_rows (stripe : Stripe) (w : World α) (row : ℕ) (customer : String) (value : ℤ)
    (identifier : String) : (stripe.create w row customer value identifier).1.rows = w.rows := by
  unfold Stripe.create
  split <;> rfl

theorem reportMeterEvent_rows (stripe : Stripe) (eventName : String) (w : World α) (row : ℕ)
    (customer : String) (value : ℤ) (identifier : String) (transit : Transit) :
    (reportMeterEvent stripe eventName w row customer value identifier transit).1.rows =
      w.rows := by
  unfold reportMeterEvent
  split
  · rfl
  · cases transit with
    | delivered | answerLost => exact create_rows ..
    | undelivered cause => rfl

namespace Preserved

variable {stripe : Stripe} {m : Meter α} {P : World α → Prop}

section

variable (h : Preserved stripe m P)
include h

theorem create (hw : P w) (hr : r ∈ w.rows) (hreported : m.reportedAt r = none)
    (customer : String) : P (stripe.create w (m.id r) customer (m.value r) (m.identifier r)).1 := by
  unfold Stripe.create
  split_ifs with hknows
  · exact hw
  · exact h.accept w r customer hw hr hreported (by simpa using hknows)

theorem reportMeterEvent (hw : P w) (hr : r ∈ w.rows) (hreported : m.reportedAt r = none)
    (customer : String) (transit : Transit) :
    P (reportMeterEvent stripe m.eventName w (m.id r) customer (m.value r) (m.identifier r)
      transit).1 := by
  unfold UsageReports.reportMeterEvent
  split
  · exact hw
  · cases transit with
    | delivered | answerLost => exact h.create hw hr hreported customer
    | undelivered cause => exact hw

/-- One row of the batch: the property, and that the rest of the batch is still open. -/
theorem reportRow (hw : P w) (hopen : Open m w (r :: rows)) (customer : String) (turn : Turn) :
    P (reportRow stripe m w r customer turn).1 ∧
      Open m (UsageReports.reportRow stripe m w r customer turn).1 rows := by
  obtain ⟨hr, hreported⟩ := hopen.mem r (List.mem_cons_self ..)
  have hcalled := h.reportMeterEvent (h.wait w turn.calledAfter hw) (r := r) hr hreported customer
    turn.transit
  have hrows := reportMeterEvent_rows stripe m.eventName (w.wait turn.calledAfter) (m.id r)
    customer (m.value r) (m.identifier r) turn.transit
  have hready := h.wait _ turn.stampedAfter hcalled
  have hrest : ∀ v : World α, v.rows = w.rows → Open m v rows := fun v hv =>
    ⟨fun a ha => hv ▸ hopen.tail.mem a ha, hopen.tail.nodup⟩
  unfold UsageReports.reportRow
  simp only
  split
  · exact ⟨hready, hrest _ hrows⟩
  · split_ifs
    · exact ⟨h.stamp _ _ hready, hopen.stampRow hrows⟩
    · exact ⟨hready, hrest _ hrows⟩

theorem reportRows (found : ℕ) : ∀ {w : World α}
    {turns : List Turn} {failed : ℕ} {lastFailure : Option Cause}, P w → Open m w rows →
      P (reportRows stripe m found w rows turns failed lastFailure).1 := by
  induction rows with
  | nil =>
    intro w turns failed lastFailure hw _
    exact hw
  | cons r rows ih =>
    intro w turns failed lastFailure hw hopen
    unfold UsageReports.reportRows
    cases stripeCustomerId m w r with
    | none => exact ih hw hopen.tail
    | some customer =>
      cases turns with
      | nil => exact hw
      | cons turn turns =>
        obtain ⟨hnext, hrest⟩ := h.reportRow hw hopen customer turn
        simp only
        split
        · exact ih hnext hrest
        · exact ih hnext hrest
        · exact hnext

theorem sweep (hw : P w) : P (sweep m w) := by
  unfold UsageReports.sweep
  split
  · exact hw
  · exact h.stamp w _ hw

end

end Preserved

theorem map_id_stampWhere (m : Meter α) (w : World α) (p : α → Bool) :
    (stampWhere m w p).rows.map m.id = w.rows.map m.id :=
  map_update (m.id_stamp w.now) w.rows

theorem map_id_sweep (m : Meter α) (w : World α) : (sweep m w).rows.map m.id = w.rows.map m.id := by
  unfold sweep
  split
  · rfl
  · exact map_id_stampWhere m w _

theorem open_batch {m : Meter α} (h : (w.rows.map m.id).Nodup) : Open m w (batch m w) := by
  refine ⟨fun r hr => ?_, nodup_map_firstBy (h.sublist (List.filter_sublist.map _))⟩
  obtain ⟨hmem, hpending⟩ := List.mem_filter.1 (mem_of_mem_firstBy hr)
  simp only [Meter.isPending, Bool.and_eq_true, Option.isNone_iff_eq_none] at hpending
  exact ⟨hmem, hpending.2⟩

/-- **What a run can do**: whatever it meets, a property that time, stamps and acceptances of
unreported rows leave true is true after it. -/
theorem reportUnreported_inv {stripe : Stripe} {m : Meter α} {P : World α → Prop}
    (h : Preserved stripe m P) (hnodup : (w.rows.map m.id).Nodup) (hw : P w)
    (run : Run) : P (reportUnreported stripe m w run).1 := by
  unfold reportUnreported
  split_ifs
  · exact hw
  · exact h.sweep hw
  · exact h.reportRows _ (h.sweep hw) (open_batch (by rwa [map_id_sweep]))

/-! ### No row is accepted twice within a window -/

/-- Ids are unique; every acceptance was of a row of the table under its identifier, none lies in
the future, none of a row lies after its stamp, and two of one identifier lie more than a window
apart. -/
structure Sound (stripe : Stripe) (m : Meter α) (w : World α) : Prop where
  nodup : (w.rows.map m.id).Nodup
  ofRow : ∀ a ∈ w.accepted, ∃ r ∈ w.rows, m.id r = a.row ∧ m.identifier r = a.identifier
  past : ∀ a ∈ w.accepted, a.acceptedAt ≤ w.now
  unstamped : ∀ a ∈ w.accepted, ∀ r ∈ w.rows, m.id r = a.row → ∀ t, m.reportedAt r = some t →
    a.acceptedAt ≤ t
  apart : w.accepted.Pairwise fun a b : Acceptance =>
    a.identifier = b.identifier → a.acceptedAt + stripe.window < b.acceptedAt

theorem Stripe.not_knows {stripe : Stripe} {identifier : String}
    (h : stripe.knows w identifier = false) :
    ∀ a ∈ w.accepted, a.identifier = identifier → a.acceptedAt + stripe.window < w.now := by
  intro a ha hid
  have hnot := List.any_eq_false.1 h a ha
  simp only [hid, beq_self_eq_true, Bool.true_and, decide_eq_true_eq] at hnot
  omega

theorem sound_preserved (stripe : Stripe) (m : Meter α) : Preserved stripe m (Sound stripe m) where
  wait := fun w d h =>
    { nodup := h.nodup
      ofRow := h.ofRow
      past := fun a ha => by
        have hle := h.past a ha
        simp only [World.wait]
        omega
      unstamped := h.unstamped
      apart := h.apart }
  stamp := fun w p h => by
    refine ⟨(map_id_stampWhere m w p).symm ▸ h.nodup, fun a ha => ?_, h.past, ?_, h.apart⟩
    · obtain ⟨r, hr, hrow, hid⟩ := h.ofRow a ha
      by_cases hp : (p r && (m.reportedAt r).isNone) = true
      · exact ⟨_, mem_update_of hr hp, (m.id_stamp ..).trans hrow,
          (m.identifier_stamp ..).trans hid⟩
      · exact ⟨r, mem_update_of_not hr (Bool.eq_false_iff.2 hp), hrow, hid⟩
    · intro a ha r hr hrow t ht
      rcases mem_update.1 hr with ⟨hr, -⟩ | ⟨b, -, -, rfl⟩
      · exact h.unstamped a ha r hr hrow t ht
      · rw [m.reportedAt_stamp, Option.some.injEq] at ht
        exact ht ▸ h.past a ha
  accept := fun w r customer h hr hreported hknows => by
    have hrow : ∀ b ∈ w.rows, m.id b = m.id r → b = r :=
      fun b hb => List.inj_on_of_nodup_map h.nodup hb hr
    refine ⟨h.nodup, fun a ha => ?_, fun a ha => ?_, fun a ha b hb hid t ht => ?_, ?_⟩
    · rcases List.mem_append.1 ha with ha | ha
      · exact h.ofRow a ha
      · rw [List.mem_singleton.1 ha]
        exact ⟨r, hr, rfl, rfl⟩
    · rcases List.mem_append.1 ha with ha | ha
      · exact h.past a ha
      · rw [List.mem_singleton.1 ha]
    · rcases List.mem_append.1 ha with ha | ha
      · exact h.unstamped a ha b hb hid t ht
      · rw [List.mem_singleton.1 ha] at hid
        rw [hrow b hb hid, hreported] at ht
        cases ht
    · refine List.pairwise_append.2 ⟨h.apart, List.pairwise_singleton .., fun a ha b hb hid => ?_⟩
      rw [List.mem_singleton.1 hb] at hid ⊢
      exact Stripe.not_knows hknows a ha hid

theorem Sound.insert {stripe : Stripe} {m : Meter α} (h : Sound stripe m w)
    (hnew : ∀ a ∈ w.rows, m.id a ≠ m.id r) : Sound stripe m { w with rows := w.rows ++ [r] } := by
  refine ⟨?_, fun a ha => ?_, h.past, fun a ha b hb hid t ht => ?_, h.apart⟩
  · rw [List.map_append, List.nodup_append]
    refine ⟨h.nodup, List.nodup_singleton _, fun i hi j hj hij => ?_⟩
    obtain ⟨a, ha, rfl⟩ := List.mem_map.1 hi
    rw [List.map_singleton, List.mem_singleton] at hj
    exact hnew a ha (hij.trans hj)
  · obtain ⟨b, hb, hrest⟩ := h.ofRow a ha
    exact ⟨b, List.mem_append_left _ hb, hrest⟩
  · rcases List.mem_append.1 hb with hb | hb
    · exact h.unstamped a ha b hb hid t ht
    · obtain ⟨c, hc, hrow, -⟩ := h.ofRow a ha
      rw [List.mem_singleton.1 hb] at hid
      exact absurd (hrow.trans hid.symm) (hnew c hc)

theorem sound_step {stripe : Stripe} {m : Meter α} (h : Sound stripe m w)
    (move : Move α) : Sound stripe m (step stripe m w move).1 := by
  cases move with
  | run r => exact reportUnreported_inv (sound_preserved stripe m) h.nodup h r
  | wait d => exact (sound_preserved stripe m).wait w d h
  | customer companyId id => exact ⟨h.nodup, h.ofRow, h.past, h.unstamped, h.apart⟩
  | insert r =>
    unfold step
    simp only
    split_ifs with htaken
    · exact h
    · simp only [Bool.not_eq_true, List.any_eq_false, beq_iff_eq] at htaken
      exact h.insert htaken

theorem sound_final {stripe : Stripe} {m : Meter α} (h : Sound stripe m w)
    (moves : List (Move α)) : Sound stripe m (Reactive.final (step stripe m) w moves) :=
  Reactive.final_of_inv (P := Sound stripe m) _ (fun _ move hw => sound_step hw move) h moves

/-- The time of a row's stamp; the present, while it has none. -/
def settledAt (m : Meter α) (w : World α) (r : α) : ℤ := (m.reportedAt r).getD w.now

def acceptances (w : World α) (row : ℕ) : List Acceptance := w.accepted.filter fun a => a.row == row

theorem Sound.le_settledAt {stripe : Stripe} {m : Meter α} (h : Sound stripe m w) (hr : r ∈ w.rows)
    {a : Acceptance} (ha : a ∈ w.accepted) (hrow : m.id r = a.row) :
    a.acceptedAt ≤ settledAt m w r := by
  unfold settledAt
  cases ht : m.reportedAt r with
  | none => exact h.past a ha
  | some t => exact h.unstamped a ha r hr hrow t ht

/-- **A row whose acceptances are each followed by its stamp, or still by no more than the present,
within one window has been accepted at most once.** -/
theorem Sound.accepted_le_one {stripe : Stripe} {m : Meter α} (h : Sound stripe m w)
    (hr : r ∈ w.rows)
    (hstamp : ∀ a ∈ acceptances w (m.id r), settledAt m w r ≤ a.acceptedAt + stripe.window) :
    (acceptances w (m.id r)).length ≤ 1 := by
  have hidentifier : ∀ a ∈ acceptances w (m.id r), a.identifier = m.identifier r := by
    intro a ha
    obtain ⟨ha, hrow⟩ := List.mem_filter.1 ha
    obtain ⟨b, hb, hid, hident⟩ := h.ofRow a ha
    have hbr : b = r := List.inj_on_of_nodup_map h.nodup hb hr (hid.trans (by simpa using hrow))
    exact hbr ▸ hident.symm
  have hapart : (acceptances w (m.id r)).Pairwise fun a b : Acceptance =>
      a.identifier = b.identifier → a.acceptedAt + stripe.window < b.acceptedAt :=
    h.apart.sublist List.filter_sublist
  cases hlist : acceptances w (m.id r) with
  | nil => simp
  | cons a rest =>
    cases rest with
    | nil => simp
    | cons b rest =>
      -- the later of two acceptances lies before the stamp, and so within the window
      have ha : a ∈ acceptances w (m.id r) := by rw [hlist]; exact List.mem_cons_self ..
      have hb : b ∈ acceptances w (m.id r) := by
        rw [hlist]
        exact List.mem_cons_of_mem _ (List.mem_cons_self ..)
      obtain ⟨hmem, hrow⟩ := List.mem_filter.1 hb
      rw [hlist] at hapart
      have hlater := (List.pairwise_cons.1 hapart).1 b (List.mem_cons_self ..)
        ((hidentifier a ha).trans (hidentifier b hb).symm)
      have hbefore := h.le_settledAt hr hmem (eq_of_beq hrow).symm
      have hwithin := hstamp a ha
      omega

end UsageReports
