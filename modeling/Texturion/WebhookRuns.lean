/-
**Runs of the delivery job.**

Ticks overlap and die, endpoints come, go, are turned off and on, and events are written down
meanwhile.  A run is orderly when no move of it does what the job does not guard against; in such a
run the tables stay consistent, and a delivery that has ended stays as it is.

Main result:

* `Webhooks.deliveries_kept` — **the four properties hold in every orderly run**.
-/

import Texturion.WebhookSafety

namespace Webhooks

open SqlTable Interleaving

/-- What the job does not guard against does not happen. -/
def Orderly (s : State Store Point) : Input Unit Find Deed → Prop
  | .step n x => ∀ p ∈ s.running[n]?,
      (∀ d ∈ taken s.store p x, d.attempts < maxAttempts ∧ ∀ q ∈ s.running, q.holds d.id = false) ∧
        unread p x = false ∧ ∀ id ∈ turnsOff p x, ∀ q ∈ s.running, q.watches id = false
  | .world deed => ∀ id ∈ deed.turnsOff, ∀ q ∈ s.running, q.watches id = false
  | _ => True

instance (s : State Store Point) : ∀ i, Decidable (Orderly s i)
  | .step n x => inferInstanceAs (Decidable (∀ p ∈ s.running[n]?,
      (∀ d ∈ taken s.store p x, d.attempts < maxAttempts ∧ ∀ q ∈ s.running, q.holds d.id = false) ∧
        unread p x = false ∧ ∀ id ∈ turnsOff p x, ∀ q ∈ s.running, q.watches id = false))
  | .world deed => inferInstanceAs
      (Decidable (∀ id ∈ deed.turnsOff, ∀ q ∈ s.running, q.watches id = false))
  | .start _ => isTrue trivial
  | .crash _ => isTrue trivial

theorem holds_eq_false {p : Point} {id : ℕ} (h : p.holds id = false) : ∀ d ∈ p.held, d.id ≠ id := by
  intro d hd heq
  have hholds : p.holds id = true := List.any_eq_true.2 ⟨d, hd, by simp [heq]⟩
  rw [hholds] at h
  exact absurd h (by decide)

theorem not_mem_reach {s : Store} {p q : Point} {x : Find} (hapart : Apart p q)
    (htaken : ∀ d ∈ taken s p x, q.holds d.id = false) : ∀ h ∈ q.held, h.id ∉ reach s p x := by
  intro h hh hmem
  rcases List.mem_append.1 hmem with hmem | hmem
  · obtain ⟨d, hd, hid⟩ := List.mem_map.1 hmem
    exact holds_eq_false (htaken d hd) h hh hid.symm
  · obtain ⟨d, hd, hid⟩ := List.mem_map.1 hmem
    exact hapart d hd h hh hid

/-- **Every orderly move keeps the tables consistent.** -/
theorem orderly_nonInterfering (origin : String → Option String) (env : Deployment) :
    NonInterfering (deliveryJob origin env) Consistent Relies Apart Orderly fun _ => True where
  symm p q h d hd d' hd' heq := h d' hd' d hd heq.symm
  enter s _ _ _ := .nothing s.store rfl
  alone _ _ _ _ _ h := absurd h List.not_mem_nil
  advance s n x p h := by
    obtain ⟨htaken, -, -⟩ := h.meets p h.point
    exact call_consistent origin env h.sound.store h.relies fun d hd => (htaken d hd).1
  next s n x p p' h hnext := by
    obtain ⟨htaken, hread, -⟩ := h.meets p h.point
    exact next_relies origin env h.sound.store h.relies (fun d hd => (htaken d hd).1) hread
      (turn_of_next origin env hnext)
  others s n x p q h hq hapart := by
    obtain ⟨htaken, -, hoff⟩ := h.meets p h.point
    have hmem : q ∈ s.running := List.mem_of_mem_eraseIdx hq
    exact (h.sound.running q hmem).spared (call_touches origin env s.store p x)
      (call_onlyOff origin env s.store p x)
      (not_mem_reach hapart fun d hd => (htaken d hd).2 q hmem) fun id hid => hoff id hid q hmem
  apart s n x p p' q h hnext hq hapart := by
    obtain ⟨htaken, -, -⟩ := h.meets p h.point
    intro d hd d' hd' heq
    have hreach := next_held origin env (turn_of_next origin env hnext) hd
    rw [heq] at hreach
    exact not_mem_reach hapart
      (fun d hd => (htaken d hd).2 q (List.mem_of_mem_eraseIdx hq)) d' hd' hreach
  emits _ _ _ _ _ _ _ := trivial
  world s deed hs hC := by
    refine ⟨hs.store.deed deed, fun p hp => ?_, fun _ _ => trivial⟩
    exact (hs.running p hp).spared (deed.touches s.store) (deed.onlyOff s.store)
      (fun _ _ => List.not_mem_nil) fun id hid => hC id hid p hp

/-! ### Deliveries that have ended -/

/-- The delivery is as it was, or gone for good. -/
structure Kept (d : Delivery) (s : Store) : Prop where
  row : d ∈ s.deliveries ∨ ∀ d' ∈ s.deliveries, d'.id ≠ d.id
  fresh : d.id < s.fresh

theorem Touches.kept {s t : Store} {ids : List ℕ} {d : Delivery} (h : Touches s t ids)
    (hs : Consistent s) (hd : Kept d s) (hids : d ∈ s.deliveries → d.id ∉ ids) : Kept d t := by
  refine ⟨?_, hd.fresh.trans_le h.fresh⟩
  by_cases hrow : ∃ d' ∈ t.deliveries, d'.id = d.id
  · obtain ⟨d', hd', hid⟩ := hrow
    obtain ⟨a, ha, haid⟩ := h.old d' hd' (hid ▸ hd.fresh)
    have hmem : d ∈ s.deliveries := hd.row.resolve_right fun hnone => hnone a ha (haid.trans hid)
    rcases h.rows d' hd' with hold | hin | hnew
    · rw [hs.eq_of_id hold hmem hid] at hd'
      exact .inl hd'
    · exact absurd (hid ▸ hin) (hids hmem)
    · have hlt := hd.fresh
      omega
  · exact .inr fun d' hd' hid => hrow ⟨d', hd', hid⟩

theorem terminal_not_mem_reach {s : Store} (hs : Consistent s) {p : Point} (hp : Relies s p)
    (x : Find) {d : Delivery} (hd : d ∈ s.deliveries) (hend : d.status.terminal = true) :
    d.id ∉ reach s p x := by
  intro hmem
  rcases List.mem_append.1 hmem with hmem | hmem
  · obtain ⟨a, ha, hid⟩ := List.mem_map.1 hmem
    have hdue : ∃ now, a ∈ dueDeliveries now batchSize s := by
      cases p with
      | claiming left =>
          cases hx : x.carried with
          | none => exact absurd ha (by simp [taken, hx])
          | some now => exact ⟨now, by simpa [taken, hx] using ha⟩
      | _ => exact absurd ha List.not_mem_nil
    obtain ⟨now, hdue⟩ := hdue
    obtain ⟨hrow, hopen⟩ := List.mem_filter.1 (mem_of_mem_firstBy hdue)
    rw [hs.eq_of_id hrow hd hid] at hopen
    simp [Delivery.due, hend] at hopen
  · obtain ⟨h, hh, hid⟩ := List.mem_map.1 hmem
    obtain ⟨hstatus, -⟩ := hp.row h hh d hd hid.symm
    rw [hstatus] at hend
    exact absurd hend (by decide)

theorem step_kept (origin : String → Option String) (env : Deployment) {d : Delivery}
    (hend : d.status.terminal = true) {s : State Store Point}
    (hs : Sound Consistent Relies Apart s) (hd : Kept d s.store) (i : Input Unit Find Deed) :
    Kept d (step (deliveryJob origin env) s i).1.store := by
  cases i with
  | start | crash => exact hd
  | world deed => exact (deed.touches s.store).kept hs.store hd fun _ => List.not_mem_nil
  | step n x =>
      cases hp : s.running[n]? with
      | none =>
          simp only [step, hp]
          exact hd
      | some p =>
          simp only [step, hp]
          exact (call_touches origin env s.store p x).kept hs.store hd fun hmem =>
            terminal_not_mem_reach hs.store (hs.running p (List.mem_of_getElem? hp)) x hmem hend

/-- The tables before there was an endpoint. -/
def start : State Store Point := { store := Store.empty, running := [] }

theorem sound_start : Sound Consistent Relies Apart start :=
  ⟨consistent_empty, fun _ hp => absurd hp List.not_mem_nil, List.Pairwise.nil⟩

/-- **The delivery state machine** in every orderly run: a delivery that has ended never changes
again; no post is made to an endpoint that is off in the table; no delivery is posted more often
than the retry schedule allows; and none is failed for a removed endpoint that is still there. -/
theorem deliveries_kept (origin : String → Option String) (env : Deployment)
    (before after : List (Input Unit Find Deed))
    (h : Reactive.Along (step (deliveryJob origin env)) Orderly start (before ++ after)) :
    let s := (Reactive.final (step (deliveryJob origin env)) start before).store
    let t := (Reactive.final (step (deliveryJob origin env)) start (before ++ after)).store
    (∀ d ∈ s.deliveries, d.status.terminal = true → ∀ d' ∈ t.deliveries, d'.id = d.id → d' = d) ∧
      (∀ p ∈ t.posts, ∀ e, p.current = some e → e.active = true) ∧
      (∀ id, t.postsOf id ≤ maxAttempts) ∧
      ∀ d ∈ t.deliveries, d.status = .failed → d.lastError = some .endpointRemoved →
        ∀ e ∈ t.endpoints, e.id ≠ d.endpointId := by
  intro s t
  have hjob := orderly_nonInterfering origin env
  have ht : Consistent t := (hjob.final sound_start h).store
  obtain ⟨hbefore, hafter⟩ := (Reactive.along_append _ _ _ _ _).1 h
  have hs := hjob.final sound_start hbefore
  refine ⟨fun d hd hend d' hd' hid => ?_, ht.current, ht.count, fun d hd _ herror => ?_⟩
  · have hkept : Kept d t := by
      have hrun := Reactive.final_of_inv_along (step (deliveryJob origin env))
        (P := fun s => Sound Consistent Relies Apart s ∧ Kept d s.store)
        (fun s i hP hC => ⟨(hjob.step hP.1 hC).1, step_kept origin env hend hP.1 hP.2 i⟩)
        ⟨hs, .inl hd, (hs.store.row d hd).fresh⟩ hafter
      rw [← Reactive.final_append] at hrun
      exact hrun.2
    exact ht.eq_of_id hd' (hkept.row.resolve_right fun hnone => hnone d' hd' hid) hid
  · exact absurd herror (ht.row d hd).error

/-! ### Examples -/

/-- One endpoint, and one event it listens to. -/
def oneDelivery : List (Input Unit Find Deed) :=
  [.world (.createEndpoint 7 "https://crm.example.com/hook" "whsec" ["message.received"]),
    .world (.enqueue 0 { companyId := 7, type := "message.received", data := "{}" })]

/-- A tick that posts it, is turned away once, and posts it again when it is due. -/
def deliveredAtTheSecond : List (Input Unit Find Deed) :=
  [.start (), .step 0 (.done 0), .step 0 (.done 0), .step 0 (.done 0),
    .step 0 (.answered (.rejected 503 "")), .step 0 (.done 0), .step 0 (.done 0), .step 0 (.done 0),
    .step 0 (.done 0), .step 0 (.done 30000), .step 0 (.done 30000), .step 0 (.done 30000),
    .step 0 (.answered (.ok 200)), .step 0 (.done 30000)]

/-- Outside the rig, every address is allowed. -/
def production : Deployment := { rig := false, robot := none }

theorem deliveries_kept_second :
    let t := (Reactive.final (step (deliveryJob some production)) start
      (oneDelivery ++ deliveredAtTheSecond)).store
    t.deliveries.map (·.status) = [.succeeded] ∧ t.postsOf 1 = 2 ∧
      ∀ p ∈ t.posts, ∀ e, p.current = some e → e.active = true := by
  intro t
  refine ⟨by decide +kernel, by decide +kernel, ?_⟩
  exact (deliveries_kept some production oneDelivery deliveredAtTheSecond (by decide +kernel)).2.1

/-- The endpoint is there, but the read of the endpoints fails. -/
theorem endpoint_not_removed :
    ¬∀ (before after : List (Input Unit Find Deed)),
      let s := (Reactive.final (step (deliveryJob some production)) start before).store
      let t := (Reactive.final (step (deliveryJob some production)) start (before ++ after)).store
      (∀ d ∈ s.deliveries, d.status.terminal = true → ∀ d' ∈ t.deliveries, d'.id = d.id → d' = d) ∧
        (∀ p ∈ t.posts, ∀ e, p.current = some e → e.active = true) ∧
        (∀ id, t.postsOf id ≤ maxAttempts) ∧
        ∀ d ∈ t.deliveries, d.status = .failed → d.lastError = some .endpointRemoved →
          ∀ e ∈ t.endpoints, e.id ≠ d.endpointId := by
  intro h
  have hremoved := (h oneDelivery
    [.start (), .step 0 (.done 0), .step 0 .failed, .step 0 (.done 0)]).2.2.2
  exact absurd hremoved (by decide +kernel)

end Webhooks
