/-
**What the delivery job keeps.**

A delivery that has ended stays as it is, nothing is posted to an endpoint that is off, nothing is
posted more often than the schedule allows, and nothing is given up for an endpoint that is still
there.  A tick can only keep its part of this: here is what the tables satisfy, what a tick relies
on at each of its points, and what its calls do to the tables and to what the other ticks rely on.
Runs are `Texturion/WebhookRuns.lean`.

Main result:

* `Webhooks.Relies.spared` — **the frame rule** for the ticks that do not move.
-/

import Texturion.WebhookDelivery

namespace Webhooks

open SqlTable Interleaving

/-! ### What a tick holds -/

/-- The deliveries a tick has not come to yet. -/
def Point.due : Point → List Delivery
  | .reading _ due => due
  | .posting _ _ _ due => due
  | .awaiting _ _ _ _ due => due
  | .writing _ _ _ _ _ due => due
  | _ => []

/-- The deliveries a tick has claimed and not written yet. -/
def Point.held : Point → List Delivery
  | .awaiting _ _ _ d due => d :: due
  | .writing _ _ _ d _ due => d :: due
  | p => p.due

/-- The endpoints as the batch has read them. -/
def Point.snapshot : Point → Option (List Endpoint)
  | .posting _ endpoints _ _ => some endpoints
  | .awaiting _ endpoints _ _ _ => some endpoints
  | .writing _ endpoints _ _ _ _ => some endpoints
  | _ => none

/-- The tick has read the endpoint as on, and has a delivery for it. -/
def Point.watches (p : Point) (id : ℕ) : Bool :=
  (p.snapshot.getD []).any (fun e => e.id == id && e.active) &&
    p.due.any fun d => d.endpointId == id

/-- The tick holds the delivery. -/
def Point.holds (p : Point) (id : ℕ) : Bool := p.held.any fun d => d.id == id

def Store.postsOf (s : Store) (id : ℕ) : ℕ := s.posts.countP fun p => p.deliveryId == id

/-! ### What a move does -/

/-- The rows a tick takes with the claim it is about to make. -/
def taken (s : Store) : Point → Find → List Delivery
  | .claiming _, x => x.carried.elim [] fun now => dueDeliveries now batchSize s
  | _, _ => []

/-- The endpoint a tick turns off with the write it is about to make. -/
def turnsOff : Point → Find → Option ℕ
  | .closing _ endpoints ((id, tally) :: _), x =>
    if x.carried.isSome ∧ tally.successes = 0 ∧
        (streak endpoints id tally).any (· ≥ autoDisableAfterConsecutiveFailures) then some id
    else none
  | _, _ => none

def Deed.turnsOff : Deed → Option ℕ
  | .patchEndpoint _ id patch => if patch.active = some false then some id else none
  | _ => none

/-- The rows a move may write: those it takes, and those its tick holds. -/
def reach (s : Store) (p : Point) (x : Find) : List ℕ :=
  (taken s p x).map (·.id) ++ p.held.map (·.id)

/-- Only the rows `ids`, and new ones, are written, and only they are posted. -/
structure Touches (s t : Store) (ids : List ℕ) : Prop where
  fresh : s.fresh ≤ t.fresh
  rows : ∀ d ∈ t.deliveries, d ∈ s.deliveries ∨ d.id ∈ ids ∨ s.fresh ≤ d.id
  old : ∀ d ∈ t.deliveries, d.id < s.fresh → ∃ a ∈ s.deliveries, a.id = d.id
  posts : ∀ id, id ∉ ids → t.postsOf id = s.postsOf id

/-- An endpoint that is off was so before, or is `off`. -/
def OnlyOff (s t : Store) (off : Option ℕ) : Prop :=
  ∀ e ∈ t.endpoints, e.active = false → off = some e.id ∨
    ∃ a ∈ s.endpoints, a.id = e.id ∧ a.active = false

theorem OnlyOff.same {s t : Store} (h : t.endpoints = s.endpoints) (off : Option ℕ) :
    OnlyOff s t off :=
  fun e he hoff => .inr ⟨e, h ▸ he, rfl, hoff⟩

theorem Touches.same (s t : Store) (hposts : t.posts = s.posts) (hfresh : s.fresh ≤ t.fresh)
    (hrows : ∀ d ∈ t.deliveries, d ∈ s.deliveries) (ids : List ℕ) : Touches s t ids := by
  refine ⟨hfresh, fun d hd => .inl (hrows d hd), fun d hd _ => ⟨d, hrows d hd, rfl⟩, ?_⟩
  intro id _
  rw [Store.postsOf, hposts, Store.postsOf]

theorem Touches.refl (s : Store) (ids : List ℕ) : Touches s s ids :=
  .same s s rfl le_rfl (fun _ hd => hd) ids

variable {f : Delivery → Delivery} {ids : List ℕ} {s : Store} {x : Find} {p p' : Point}
  {endpoints : List Endpoint} {d : Delivery}

theorem Touches.update (s : Store) (p : Delivery → Bool) (hid : ∀ d, (f d).id = d.id)
    (hp : ∀ d, p d = true → d.id ∈ ids) :
    Touches s { s with deliveries := SqlTable.update p f s.deliveries } ids := by
  refine ⟨le_rfl, fun d hd => ?_, fun d hd _ => ?_, fun _ _ => rfl⟩
  · rcases mem_update.1 hd with ⟨hd, -⟩ | ⟨a, -, ha, rfl⟩
    · exact .inl hd
    · rw [hid]
      exact .inr (.inl (hp a ha))
  · rcases mem_update.1 hd with ⟨hd, -⟩ | ⟨a, hmem, -, rfl⟩
    · exact ⟨d, hd, rfl⟩
    · exact ⟨a, hmem, (hid a).symm⟩

theorem Touches.setDelivery (s : Store) {id : ℕ} (hid : ∀ d, (f d).id = d.id) (hmem : id ∈ ids) :
    Touches s (s.setDelivery id f) ids :=
  .update s _ hid fun d hd => by
    rw [beq_iff_eq] at hd
    exact hd ▸ hmem

theorem Touches.post (s : Store) (d : Delivery) (e : Endpoint) (hmem : d.id ∈ ids) :
    Touches s (post s d e) ids := by
  refine ⟨le_rfl, fun d hd => .inl hd, fun d hd _ => ⟨d, hd, rfl⟩, fun id hid => ?_⟩
  have hne : d.id ≠ id := fun heq => hid (heq ▸ hmem)
  simp [Webhooks.post, Store.postsOf, List.countP_append, hne]

@[simp] theorem refusing_id (error : LastError) (d : Delivery) : (d.refusing error).id = d.id := rfl

@[simp] theorem claiming_id (now : ℤ) (d : Delivery) : (d.claiming now).id = d.id := rfl

@[simp] theorem recording_id (now : ℤ) (attempts : ℕ) (attempt : Attempt) (d : Delivery) :
    (d.recording now attempts attempt).id = d.id := by
  unfold Delivery.recording
  split_ifs
  · rfl
  · cases webhookRetryDelaySeconds attempts <;> rfl

theorem Find.write_cases (x : Find) (f : ℤ → Store → Store) (s : Store) :
    x.write f s = s ∨ ∃ now, x.carried = some now ∧ x.write f s = f now s := by
  unfold Find.write
  cases x.carried with
  | none => exact .inl rfl
  | some now => exact .inr ⟨now, rfl, rfl⟩

theorem Touches.write {f : ℤ → Store → Store}
    (h : ∀ now, Touches s (f now s) ids) : Touches s (x.write f s) ids := by
  rcases x.write_cases f s with heq | ⟨now, -, heq⟩ <;> rw [heq]
  · exact .refl s ids
  · exact h now

theorem settle_deliveries (now : ℤ) (endpoints : List Endpoint) (id : ℕ) (tally : Tally)
    (s : Store) : (settle now endpoints id tally s).deliveries = s.deliveries ∧
      (settle now endpoints id tally s).posts = s.posts ∧
      (settle now endpoints id tally s).fresh = s.fresh := by
  unfold settle
  cases streak endpoints id tally <;> exact ⟨rfl, rfl, rfl⟩

section

variable (origin : String → Option String) (env : Deployment)

/-- **A tick writes the rows it takes, and the rows it holds.** -/
theorem call_touches (s : Store) (p : Point) (x : Find) :
    Touches s (call origin env s p x) (reach s p x) := by
  cases p with
  | claiming left =>
    rw [call_claiming]
    unfold Find.write
    cases hx : x.carried with
    | none => exact .refl s _
    | some now =>
      refine .update s (fun d => ((dueDeliveries now batchSize s).map (·.id)).contains d.id)
        (claiming_id now) fun d hd => ?_
      simp only [reach, taken, hx, Option.elim_some]
      exact List.mem_append_left _ (List.contains_iff_mem.1 hd)
  | reading left due => exact .refl s _
  | posting left endpoints outcomes due =>
    cases due with
    | nil => exact .refl s _
    | cons d due =>
      have hmem : d.id ∈ reach s (.posting left endpoints outcomes (d :: due)) x :=
        List.mem_append_right _ (List.mem_cons_self ..)
      rw [call_posting]
      cases dispatch origin env endpoints d with
      | refuse error => exact .write fun now => .setDelivery s (refusing_id error) hmem
      | post e => exact .post s d e hmem
  | awaiting left endpoints outcomes d due => exact .refl s _
  | writing left endpoints outcomes d attempt due =>
    rw [call_writing]
    exact .write fun now => .setDelivery s (recording_id now d.attempts attempt)
      (List.mem_append_right _ (List.mem_cons_self ..))
  | closing left endpoints outcomes =>
    cases outcomes with
    | nil => exact .refl s _
    | cons outcome rest =>
      rw [call_closing]
      refine .write fun now => ?_
      obtain ⟨hdeliveries, hposts, hfresh⟩ :=
        settle_deliveries now endpoints outcome.1 outcome.2 s
      exact .same s _ hposts hfresh.ge (fun d hd => hdeliveries ▸ hd) _

theorem OnlyOff.write {f : ℤ → Store → Store} {off : Option ℕ}
    (h : ∀ now, x.carried = some now → OnlyOff s (f now s) off) : OnlyOff s (x.write f s) off := by
  rcases x.write_cases f s with heq | ⟨now, hnow, heq⟩ <;> rw [heq]
  · exact .same rfl off
  · exact h now hnow

theorem settle_onlyOff {now : ℤ} (hx : x.carried = some now) (left : ℕ) (endpoints : List Endpoint)
    (id : ℕ) (tally : Tally) (rest : List (ℕ × Tally)) (s : Store) :
    OnlyOff s (settle now endpoints id tally s)
      (turnsOff (.closing left endpoints ((id, tally) :: rest)) x) := by
  intro e he hoff
  unfold settle at he
  cases hstreak : streak endpoints id tally with
  | none =>
    rw [hstreak] at he
    exact .inr ⟨e, he, rfl, hoff⟩
  | some n =>
    rw [hstreak] at he
    rcases mem_update.1 he with ⟨he, -⟩ | ⟨a, ha, hid, rfl⟩
    · exact .inr ⟨e, he, rfl, hoff⟩
    · rw [beq_iff_eq] at hid
      unfold Endpoint.settling at hoff ⊢
      split_ifs at hoff ⊢ with hsuccess hmany
      · exact .inr ⟨a, ha, rfl, hoff⟩
      · -- The streak has become too long: this is the endpoint it turns off.
        have hzero : tally.successes = 0 := by omega
        exact .inl (by simp [turnsOff, hx, hzero, hstreak, hmany, hid])
      · exact .inr ⟨a, ha, rfl, hoff⟩

theorem call_onlyOff (s : Store) (p : Point) (x : Find) :
    OnlyOff s (call origin env s p x) (turnsOff p x) := by
  cases p with
  | claiming left =>
    rw [call_claiming]
    exact .write fun now _ => .same rfl _
  | reading left due => exact .same rfl _
  | posting left endpoints outcomes due =>
    cases due with
    | nil => exact .same rfl _
    | cons d due =>
      rw [call_posting]
      cases dispatch origin env endpoints d with
      | refuse error => exact .write fun now _ => .same rfl _
      | post e => exact .same rfl _
  | awaiting left endpoints outcomes d due => exact .same rfl _
  | writing left endpoints outcomes d attempt due =>
    rw [call_writing]
    exact .write fun now _ => .same rfl _
  | closing left endpoints outcomes =>
    cases outcomes with
    | nil => exact .same rfl _
    | cons outcome rest =>
      rw [call_closing]
      exact .write fun now hx => settle_onlyOff hx left endpoints outcome.1 outcome.2 rest s

end

/-- **A deed writes no row that is there.** -/
theorem Deed.touches (s : Store) (deed : Deed) : Touches s (deed.apply s) [] := by
  cases deed with
  | enqueue now event =>
    refine ⟨Nat.le_add_right _ _, fun d hd => ?_, fun d hd hlt => ?_, fun _ _ => rfl⟩
    · rcases List.mem_append.1 hd with hd | hd
      · exact .inl hd
      · exact .inr (.inr (mem_deliveriesFor hd).1)
    · rcases List.mem_append.1 hd with hd | hd
      · exact ⟨d, hd, rfl⟩
      · have hge := (mem_deliveriesFor hd).1
        omega
  | createEndpoint companyId url secret events =>
    change Touches s (Webhooks.createEndpoint companyId url secret events s) []
    unfold Webhooks.createEndpoint
    split_ifs
    · exact .refl s _
    · exact ⟨Nat.le_succ s.fresh, fun d hd => .inl hd, fun d hd _ => ⟨d, hd, rfl⟩, fun _ _ => rfl⟩
  | patchEndpoint companyId id patch =>
    exact .same s (Webhooks.patchEndpoint companyId id patch s) rfl le_rfl (fun _ hd => hd) _
  | rotateSecret companyId id secret =>
    exact .same s (Webhooks.rotateSecret companyId id secret s) rfl le_rfl (fun _ hd => hd) _
  | deleteEndpoint companyId id =>
    exact .same s (Webhooks.deleteEndpoint companyId id s) rfl le_rfl
      (fun _ hd => (List.mem_filter.1 hd).1) _
  | prune now limit =>
    exact .same s (Webhooks.prune now limit s) rfl le_rfl
      (fun _ hd => (List.mem_filter.1 hd).1) _

theorem Deed.onlyOff (s : Store) (deed : Deed) : OnlyOff s (deed.apply s) deed.turnsOff := by
  cases deed with
  | enqueue now event => exact .same (s := s) (t := (Webhooks.enqueue now event s).1) rfl _
  | createEndpoint companyId url secret events =>
    change OnlyOff s (Webhooks.createEndpoint companyId url secret events s) none
    unfold Webhooks.createEndpoint
    split_ifs
    · exact .same rfl _
    · intro e he hoff
      rcases List.mem_append.1 he with he | he
      · exact .inr ⟨e, he, rfl, hoff⟩
      · rw [List.mem_singleton.1 he] at hoff
        exact absurd hoff (by simp [Endpoint.fresh])
  | patchEndpoint companyId id patch =>
    intro e he hoff
    rcases mem_update.1 he with ⟨he, -⟩ | ⟨a, ha, his, rfl⟩
    · exact .inr ⟨e, he, rfl, hoff⟩
    · simp only [Endpoint.is, Bool.and_eq_true, beq_iff_eq] at his
      unfold EndpointPatch.apply at hoff ⊢
      unfold Deed.turnsOff
      cases hactive : patch.active with
      | none =>
        rw [hactive] at hoff
        exact .inr ⟨a, ha, rfl, hoff⟩
      | some on =>
        cases on with
        | true =>
          rw [hactive] at hoff
          exact absurd hoff (by simp)
        | false => exact .inl (by simp [his.2, hactive])
  | rotateSecret companyId id secret =>
    intro e he hoff
    rcases mem_update.1 he with ⟨he, -⟩ | ⟨a, ha, -, rfl⟩
    · exact .inr ⟨e, he, rfl, hoff⟩
    · exact .inr ⟨a, ha, rfl, hoff⟩
  | deleteEndpoint companyId id =>
    exact fun e he hoff => .inr ⟨e, (List.mem_filter.1 he).1, rfl, hoff⟩
  | prune now limit => exact .same (s := s) (t := Webhooks.prune now limit s) rfl _

/-! ### What holds of the tables -/

/-- What holds of a row of the deliveries. -/
structure RowOk (s : Store) (d : Delivery) : Prop where
  fresh : d.id < s.fresh
  endpoint : ∃ e ∈ s.endpoints, e.id = d.endpointId
  pending : d.status = .pending → d.attempts < maxAttempts
  bound : d.attempts ≤ maxAttempts
  posts : s.postsOf d.id ≤ d.attempts
  error : d.lastError ≠ some .endpointRemoved

structure Consistent (s : Store) : Prop where
  ids : (s.deliveries.map (·.id)).Nodup
  endpointIds : (s.endpoints.map (·.id)).Nodup
  endpointFresh : ∀ e ∈ s.endpoints, e.id < s.fresh
  row : ∀ d ∈ s.deliveries, RowOk s d
  count : ∀ id, s.postsOf id ≤ maxAttempts
  unused : ∀ id, s.fresh ≤ id → s.postsOf id = 0
  current : ∀ p ∈ s.posts, ∀ e, p.current = some e → e.active = true

theorem Consistent.eq_of_id (h : Consistent s) {d d' : Delivery} (hd : d ∈ s.deliveries)
    (hd' : d' ∈ s.deliveries) (hid : d.id = d'.id) : d = d' :=
  List.inj_on_of_nodup_map h.ids hd hd' hid

theorem consistent_empty : Consistent Store.empty where
  ids := List.nodup_nil
  endpointIds := List.nodup_nil
  endpointFresh _ he := absurd he List.not_mem_nil
  row _ hd := absurd hd List.not_mem_nil
  count _ := Nat.zero_le _
  unused _ _ := rfl
  current _ hp := absurd hp List.not_mem_nil

theorem Consistent.update (h : Consistent s) (p : Delivery → Bool) (hid : ∀ d, (f d).id = d.id)
    (hrow : ∀ d ∈ s.deliveries, p d = true → RowOk s (f d)) :
    Consistent { s with deliveries := SqlTable.update p f s.deliveries } where
  ids := by
    rw [map_update hid]
    exact h.ids
  endpointIds := h.endpointIds
  endpointFresh := h.endpointFresh
  row d hd := by
    have hok : ∀ d, RowOk s d →
        RowOk { s with deliveries := SqlTable.update p f s.deliveries } d :=
      fun d hd => ⟨hd.fresh, hd.endpoint, hd.pending, hd.bound, hd.posts, hd.error⟩
    rcases mem_update.1 hd with ⟨hd, -⟩ | ⟨a, ha, hp, rfl⟩
    · exact hok d (h.row d hd)
    · exact hok _ (hrow a ha hp)
  count := h.count
  unused := h.unused
  current := h.current

theorem Consistent.updateEndpoints (h : Consistent s) (p : Endpoint → Bool)
    {f : Endpoint → Endpoint} (hid : ∀ e, (f e).id = e.id) :
    Consistent { s with endpoints := SqlTable.update p f s.endpoints } where
  ids := h.ids
  endpointIds := by
    rw [map_update hid]
    exact h.endpointIds
  endpointFresh e he := by
    rcases mem_update.1 he with ⟨he, -⟩ | ⟨a, ha, -, rfl⟩
    · exact h.endpointFresh e he
    · rw [hid]
      exact h.endpointFresh a ha
  row d hd := by
    have hd := h.row d hd
    refine ⟨hd.fresh, ?_, hd.pending, hd.bound, hd.posts, hd.error⟩
    obtain ⟨e, he, heid⟩ := hd.endpoint
    have hmem : e.id ∈ (SqlTable.update p f s.endpoints).map (·.id) := by
      rw [map_update hid]
      exact List.mem_map_of_mem he
    obtain ⟨e', he', hid'⟩ := List.mem_map.1 hmem
    exact ⟨e', he', hid'.trans heid⟩
  count := h.count
  unused := h.unused
  current := h.current

/-- Rows are deleted, with endpoints none of the rows that stay goes to. -/
theorem Consistent.delete (h : Consistent s) (p : Delivery → Bool) (q : Endpoint → Bool)
    (hstay : ∀ d ∈ s.deliveries, p d = true → ∀ e ∈ s.endpoints, e.id = d.endpointId → q e = true) :
    Consistent { s with deliveries := s.deliveries.filter p, endpoints := s.endpoints.filter q } where
  ids := h.ids.sublist (List.filter_sublist.map _)
  endpointIds := h.endpointIds.sublist (List.filter_sublist.map _)
  endpointFresh e he := h.endpointFresh e (List.mem_filter.1 he).1
  row d hd := by
    obtain ⟨hd, hp⟩ := List.mem_filter.1 hd
    have hok := h.row d hd
    refine ⟨hok.fresh, ?_, hok.pending, hok.bound, hok.posts, hok.error⟩
    obtain ⟨e, he, heid⟩ := hok.endpoint
    exact ⟨e, List.mem_filter.2 ⟨he, hstay d hd hp e he heid⟩, heid⟩
  count := h.count
  unused := h.unused
  current := h.current

theorem patch_id (patch : EndpointPatch) (e : Endpoint) : (patch.apply e).id = e.id := by
  unfold EndpointPatch.apply
  cases patch.active with
  | none => rfl
  | some on => cases on <;> rfl

theorem Consistent.enqueue (h : Consistent s) (now : ℤ) (event : OutboundWebhookEvent) :
    Consistent (Webhooks.enqueue now event s).1 where
  ids := by
    simp only [Webhooks.enqueue, List.map_append]
    refine List.nodup_append.2 ⟨h.ids, nodup_deliveriesFor _ _ _ _, ?_⟩
    rintro id hid id' hid' rfl
    obtain ⟨d, hd, hdid⟩ := List.mem_map.1 hid
    obtain ⟨d', hd', hdid'⟩ := List.mem_map.1 hid'
    have hlt := (h.row d hd).fresh
    have hge := (mem_deliveriesFor hd').1
    omega
  endpointIds := h.endpointIds
  endpointFresh e he := Nat.lt_of_lt_of_le (h.endpointFresh e he) (Nat.le_add_right _ _)
  row d hd := by
    rcases List.mem_append.1 hd with hd | hd
    · have hok := h.row d hd
      exact ⟨Nat.lt_of_lt_of_le hok.fresh (Nat.le_add_right _ _), hok.endpoint, hok.pending,
        hok.bound, hok.posts, hok.error⟩
    · obtain ⟨hge, hlt, e, he, heq⟩ := mem_deliveriesFor hd
      have hlistens : e ∈ s.endpoints := (List.mem_filter.1 (List.mem_of_mem_take he)).1
      have hposts : s.postsOf d.id = 0 := h.unused d.id hge
      have hattempts : d.attempts = 0 := by rw [heq]; rfl
      refine ⟨hlt, ⟨e, hlistens, by rw [heq]; rfl⟩, fun _ => ?_, ?_, hposts.le.trans (Nat.zero_le _), ?_⟩
      · rw [hattempts]
        decide
      · rw [hattempts]
        exact Nat.zero_le _
      · rw [heq]
        simp [delivery]
  count := h.count
  unused id hid := h.unused id ((Nat.le_add_right _ _).trans hid)
  current := h.current

theorem Consistent.createEndpoint (h : Consistent s) (companyId : ℕ) (url secret : String)
    (events : List String) :
    Consistent (Webhooks.createEndpoint companyId url secret events s) := by
  unfold Webhooks.createEndpoint
  split_ifs
  · exact h
  · refine ⟨h.ids, ?_, fun e he => ?_, fun d hd => ?_, h.count, fun id hid => ?_, h.current⟩
    · simp only [List.map_append, List.map_cons, List.map_nil]
      refine List.nodup_append.2 ⟨h.endpointIds, List.nodup_singleton _, ?_⟩
      rintro id hid id' hid' rfl
      obtain ⟨e, he, heid⟩ := List.mem_map.1 hid
      have hlt := h.endpointFresh e he
      have hfresh : id = s.fresh := List.mem_singleton.1 hid'
      omega
    · rcases List.mem_append.1 he with he | he
      · exact Nat.lt_succ_of_lt (h.endpointFresh e he)
      · rw [List.mem_singleton.1 he]
        exact Nat.lt_succ_self _
    · have hok := h.row d hd
      obtain ⟨e, he, heid⟩ := hok.endpoint
      exact ⟨Nat.lt_succ_of_lt hok.fresh, ⟨e, List.mem_append_left _ he, heid⟩, hok.pending,
        hok.bound, hok.posts, hok.error⟩
    · exact h.unused id ((Nat.le_succ _).trans hid)

/-- **Every deed keeps the tables consistent.** -/
theorem Consistent.deed (h : Consistent s) (deed : Deed) : Consistent (deed.apply s) := by
  cases deed with
  | enqueue now event => exact h.enqueue now event
  | createEndpoint companyId url secret events => exact h.createEndpoint companyId url secret events
  | patchEndpoint companyId id patch => exact h.updateEndpoints _ (patch_id patch)
  | rotateSecret companyId id secret =>
    exact h.updateEndpoints (f := fun e => { e with secret := secret }) _ fun _ => rfl
  | deleteEndpoint companyId id =>
    refine h.delete _ _ fun d _ hstays e he heid => ?_
    by_contra hgone
    simp only [Bool.not_eq_true', Bool.not_eq_false] at hgone
    have hmem : d.endpointId ∈ (s.endpoints.filter (Endpoint.is companyId id)).map (·.id) :=
      List.mem_map.2 ⟨e, List.mem_filter.2 ⟨he, hgone⟩, heid⟩
    rw [List.contains_iff_mem.2 hmem] at hstays
    exact absurd hstays (by decide)
  | prune now limit =>
    have hall : ∀ e : Endpoint, (fun _ : Endpoint => true) e = true := fun _ => rfl
    have hkept := h.delete (fun d => !(((s.deliveries.filter fun d =>
      decide (d.createdAt < now - retentionMs)).take limit).map (·.id)).contains d.id)
        (fun _ => true) fun d _ _ e _ _ => hall e
    rwa [List.filter_true] at hkept

/-! ### What a tick relies on -/

/-- What a tick relies on: the deliveries it holds are as it has claimed them or gone, none that it
has not come to has used up its attempt, an endpoint it has not found is not there for any of
them, and an endpoint that it has read as on is on. -/
structure Relies (s : Store) (p : Point) : Prop where
  fresh : ∀ h ∈ p.held, h.id < s.fresh
  row : ∀ h ∈ p.held, ∀ d ∈ s.deliveries, d.id = h.id →
    d.status = .delivering ∧ d.attempts = h.attempts ∧ d.endpointId = h.endpointId
  bound : ∀ h ∈ p.held, h.attempts ≤ maxAttempts
  posts : ∀ h ∈ p.due, s.postsOf h.id < h.attempts
  nodup : (p.held.map (·.id)).Nodup
  found : ∀ endpoints, p.snapshot = some endpoints → ∀ h ∈ p.due,
    (endpoints.find? fun e => e.id == h.endpointId) = none → ∀ d ∈ s.deliveries, d.id ≠ h.id
  on : ∀ e ∈ s.endpoints, p.watches e.id = true → e.active = true

/-- Two ticks hold no delivery in common. -/
def Apart (p q : Point) : Prop := ∀ h ∈ p.held, ∀ h' ∈ q.held, h.id ≠ h'.id

theorem mem_held_of_mem_due {h : Delivery} (hh : h ∈ p.due) : h ∈ p.held := by
  cases p with
  | awaiting | writing => exact List.mem_cons_of_mem _ hh
  | _ => exact hh

theorem watches_iff {id : ℕ} : p.watches id = true ↔
    (∃ e ∈ p.snapshot.getD [], e.id = id ∧ e.active = true) ∧ ∃ d ∈ p.due, d.endpointId = id := by
  simp only [Point.watches, Bool.and_eq_true, List.any_eq_true, beq_iff_eq]

theorem Relies.nothing (s : Store) (h : p.held = []) : Relies s p := by
  have hdue : ∀ d, d ∉ p.due := fun d hd => by
    have hheld := mem_held_of_mem_due hd
    rw [h] at hheld
    exact absurd hheld List.not_mem_nil
  constructor
  · rw [h]
    exact fun d hd => absurd hd List.not_mem_nil
  · rw [h]
    exact fun d hd => absurd hd List.not_mem_nil
  · rw [h]
    exact fun d hd => absurd hd List.not_mem_nil
  · exact fun d hd => absurd hd (hdue d)
  · rw [h]
    exact List.nodup_nil
  · exact fun _ _ d hd => absurd hd (hdue d)
  · intro e _ hwatches
    obtain ⟨-, d, hd, -⟩ := watches_iff.1 hwatches
    exact absurd hd (hdue d)

theorem Relies.less (h : Relies s p) (hheld : p'.held.Sublist p.held)
    (hdue : ∀ d ∈ p'.due, d ∈ p.due) (hsnapshot : p'.snapshot = p.snapshot) : Relies s p' where
  fresh d hd := h.fresh d (hheld.subset hd)
  row d hd := h.row d (hheld.subset hd)
  bound d hd := h.bound d (hheld.subset hd)
  posts d hd := h.posts d (hdue d hd)
  nodup := h.nodup.sublist (hheld.map _)
  found endpoints he d hd := h.found endpoints (hsnapshot ▸ he) d (hdue d hd)
  on e he hwatches := by
    obtain ⟨hread, d, hd, hid⟩ := watches_iff.1 hwatches
    rw [hsnapshot] at hread
    exact h.on e he (watches_iff.2 ⟨hread, d, hdue d hd, hid⟩)

/-- **The frame rule**: a move that writes none of its deliveries and turns off none of its
endpoints leaves a tick what it relies on. -/
theorem Relies.spared {s t : Store} {q : Point} {off : Option ℕ} (h : Relies s q)
    (htouches : Touches s t ids) (honly : OnlyOff s t off) (hids : ∀ d ∈ q.held, d.id ∉ ids)
    (hoff : ∀ id, off = some id → q.watches id = false) : Relies t q where
  fresh d hd := (h.fresh d hd).trans_le htouches.fresh
  row d hd d' hd' hid := by
    rcases htouches.rows d' hd' with hd' | hd' | hd'
    · exact h.row d hd d' hd' hid
    · exact absurd (hid ▸ hd') (hids d hd)
    · have hlt := h.fresh d hd
      omega
  bound := h.bound
  posts d hd := by
    rw [htouches.posts d.id (hids d (mem_held_of_mem_due hd))]
    exact h.posts d hd
  nodup := h.nodup
  found endpoints he d hd hnone d' hd' hid := by
    obtain ⟨a, ha, haid⟩ := htouches.old d' hd' (hid ▸ h.fresh d (mem_held_of_mem_due hd))
    exact h.found endpoints he d hd hnone a ha (haid.trans hid)
  on e he hwatches := by
    by_contra hne
    rw [Bool.not_eq_true] at hne
    rcases honly e he hne with hsome | ⟨a, ha, hid, haoff⟩
    · rw [hoff e.id hsome] at hwatches
      exact absurd hwatches (by decide)
    · rw [← hid] at hwatches
      rw [h.on a ha hwatches] at haoff
      exact absurd haoff (by decide)

/-! ### What a tick keeps -/

theorem dispatch_removed {origin : String → Option String} {env : Deployment}
    (h : dispatch origin env endpoints d = .refuse .endpointRemoved) :
    (endpoints.find? fun e => e.id == d.endpointId) = none := by
  unfold dispatch at h
  cases hfind : endpoints.find? fun e => e.id == d.endpointId with
  | none => rfl
  | some e =>
    rw [hfind] at h
    simp only at h
    split_ifs at h
    · injection h with h
      exact absurd h (by decide)
    · cases hrefusal : customerWebhookRefusal origin env e.url with
      | none =>
        rw [hrefusal] at h
        exact absurd h (by simp)
      | some sentence =>
        rw [hrefusal] at h
        exact absurd h (by simp)

theorem dispatch_post {origin : String → Option String} {env : Deployment} {e : Endpoint}
    (h : dispatch origin env endpoints d = .post e) :
    e ∈ endpoints ∧ e.id = d.endpointId ∧ e.active = true := by
  unfold dispatch at h
  cases hfind : endpoints.find? fun e => e.id == d.endpointId with
  | none =>
    rw [hfind] at h
    exact absurd h (by simp)
  | some a =>
    rw [hfind] at h
    simp only at h
    split_ifs at h with hoff
    cases hrefusal : customerWebhookRefusal origin env a.url with
    | some sentence =>
      rw [hrefusal] at h
      exact absurd h (by simp)
    | none =>
      rw [hrefusal] at h
      injection h with h
      subst h
      have hid := List.find?_some hfind
      exact ⟨List.mem_of_find?_eq_some hfind, by simpa using hid, by simpa using hoff⟩

theorem postsOf_post (s : Store) (d : Delivery) (e : Endpoint) (id : ℕ) :
    (post s d e).postsOf id = s.postsOf id + if d.id = id then 1 else 0 := by
  by_cases h : d.id = id <;> simp [post, Store.postsOf, List.countP_append, h]

theorem RowOk.recording (h : RowOk s d) (now : ℤ) (attempt : Attempt) :
    RowOk s (d.recording now d.attempts attempt) := by
  have herror : attempt.error ≠ some .endpointRemoved := by
    cases attempt <;> simp [Attempt.error]
  unfold Delivery.recording
  split_ifs
  · exact ⟨h.fresh, h.endpoint, fun hp => absurd hp (by simp), h.bound, h.posts, by simp⟩
  · cases hdelay : webhookRetryDelaySeconds d.attempts with
    | none =>
      exact ⟨h.fresh, h.endpoint, fun hp => absurd hp (by simp), h.bound, h.posts, herror⟩
    | some delay =>
      exact ⟨h.fresh, h.endpoint, fun _ => lt_maxAttempts_of_delay hdelay, h.bound, h.posts, herror⟩

theorem Find.write_induction {P : Store → Prop} {f : ℤ → Store → Store} (hs : P s)
    (hf : ∀ now, x.carried = some now → P (f now s)) : P (x.write f s) := by
  rcases x.write_cases f s with heq | ⟨now, hnow, heq⟩ <;> rw [heq]
  · exact hs
  · exact hf now hnow

section

variable (origin : String → Option String) (env : Deployment)

section

variable (hs : Consistent s)
include hs

theorem Consistent.claim {now : ℤ}
    (htaken : ∀ d ∈ dueDeliveries now batchSize s, d.attempts < maxAttempts) :
    Consistent (claimDeliveries now batchSize s).1 := by
  refine hs.update (fun d => ((dueDeliveries now batchSize s).map (·.id)).contains d.id)
    (claiming_id now) fun d hd hmem => ?_
  obtain ⟨a, ha, haid⟩ := List.mem_map.1 (List.contains_iff_mem.1 hmem)
  have hok := hs.row d hd
  have heq : a = d := hs.eq_of_id (List.mem_filter.1 (mem_of_mem_firstBy ha)).1 hd haid
  have hlt := htaken a ha
  rw [heq] at hlt
  exact ⟨hok.fresh, hok.endpoint, fun hp => absurd hp (by simp [Delivery.claiming]), hlt,
    hok.posts.trans (Nat.le_succ _), hok.error⟩

theorem Consistent.post (hp : Relies s p) (hd : d ∈ p.due) {e : Endpoint}
    (hwatches : p.watches e.id = true) : Consistent (post s d e) := by
  have hheld := mem_held_of_mem_due hd
  have hlt := hp.posts d hd
  refine ⟨hs.ids, hs.endpointIds, hs.endpointFresh, fun d' hd' => ?_, fun id => ?_, fun id hid => ?_,
    fun a ha e' he' => ?_⟩
  · have hok := hs.row d' hd'
    refine ⟨hok.fresh, hok.endpoint, hok.pending, hok.bound, ?_, hok.error⟩
    rw [postsOf_post]
    split_ifs with hid
    · -- The row is as the tick has claimed it, with an attempt to spare.
      obtain ⟨-, hattempts, -⟩ := hp.row d hheld d' hd' hid.symm
      rw [hattempts, ← hid]
      exact hlt
    · exact hok.posts
  · rw [postsOf_post]
    split_ifs with hid
    · rw [← hid]
      exact (Nat.succ_le_of_lt hlt).trans (hp.bound d hheld)
    · exact hs.count id
  · have hfresh : d.id < s.fresh := hp.fresh d hheld
    have hge : s.fresh ≤ id := hid
    rw [postsOf_post, hs.unused id hge, if_neg (by omega)]
  · rcases List.mem_append.1 ha with ha | ha
    · exact hs.current a ha e' he'
    · rw [List.mem_singleton.1 ha] at he'
      have hid := List.find?_some he'
      rw [beq_iff_eq] at hid
      exact hp.on e' (List.mem_of_find?_eq_some he') (hid ▸ hwatches)

/-- **A call of a tick keeps the tables consistent.** -/
theorem call_consistent (hp : Relies s p) (htaken : ∀ d ∈ taken s p x, d.attempts < maxAttempts) :
    Consistent (call origin env s p x) := by
  cases p with
  | claiming left =>
    rw [call_claiming]
    refine Find.write_induction hs fun now hx => hs.claim ?_
    simpa only [taken, hx, Option.elim_some] using htaken
  | reading left due => exact hs
  | posting left endpoints outcomes due =>
    cases due with
    | nil => exact hs
    | cons d due =>
      have hdue : d ∈ (Point.posting left endpoints outcomes (d :: due)).due :=
        List.mem_cons_self ..
      rw [call_posting]
      cases hdispatch : dispatch origin env endpoints d with
      | refuse error =>
        refine Find.write_induction hs fun now _ => ?_
        refine hs.update _ (refusing_id error) fun d' hd' hid => ?_
        rw [beq_iff_eq] at hid
        have hok := hs.row d' hd'
        refine ⟨hok.fresh, hok.endpoint, fun h => absurd h (by simp [Delivery.refusing]),
          hok.bound, hok.posts, fun herror => ?_⟩
        -- Where the endpoint was not found, the delivery has gone along with it.
        have hremoved : error = .endpointRemoved := Option.some.inj herror
        rw [hremoved] at hdispatch
        exact hp.found endpoints rfl d hdue (dispatch_removed hdispatch) d' hd' hid
      | post e =>
        obtain ⟨hmem, hid, hactive⟩ := dispatch_post hdispatch
        exact hs.post hp hdue (watches_iff.2 ⟨⟨e, hmem, rfl, hactive⟩, d, hdue, hid.symm⟩)
  | awaiting left endpoints outcomes d due => exact hs
  | writing left endpoints outcomes d attempt due =>
    rw [call_writing]
    refine Find.write_induction hs fun now _ => ?_
    refine hs.update _ (recording_id now d.attempts attempt) fun d' hd' hid => ?_
    rw [beq_iff_eq] at hid
    obtain ⟨-, hattempts, -⟩ := hp.row d (List.mem_cons_self ..) d' hd' hid
    rw [← hattempts]
    exact (hs.row d' hd').recording now attempt
  | closing left endpoints outcomes =>
    cases outcomes with
    | nil => exact hs
    | cons outcome rest =>
      rw [call_closing]
      refine Find.write_induction hs fun now _ => ?_
      unfold settle
      cases streak endpoints outcome.1 outcome.2 with
      | none => exact hs
      | some n =>
        refine hs.updateEndpoints _ fun e => ?_
        unfold Endpoint.settling
        split_ifs <;> rfl

theorem claimed_relies {now : ℤ} (left : ℕ)
    (htaken : ∀ d ∈ dueDeliveries now batchSize s, d.attempts < maxAttempts) :
    Relies (claimDeliveries now batchSize s).1
      (.reading left (claimDeliveries now batchSize s).2) where
  fresh h hh := by
    obtain ⟨a, ha, rfl⟩ := List.mem_map.1 hh
    exact (hs.row a (List.mem_filter.1 (mem_of_mem_firstBy ha)).1).fresh
  row h hh d hd hid := by
    obtain ⟨a, ha, rfl⟩ := List.mem_map.1 hh
    have hmem : a ∈ s.deliveries := (List.mem_filter.1 (mem_of_mem_firstBy ha)).1
    rcases mem_update.1 hd with ⟨hd, hspared⟩ | ⟨b, hb, -, rfl⟩
    · have hcontains : ((dueDeliveries now batchSize s).map (·.id)).contains d.id = true :=
        List.contains_iff_mem.2 (List.mem_map.2 ⟨a, ha, hid.symm⟩)
      rw [hcontains] at hspared
      exact absurd hspared (by decide)
    · rw [hs.eq_of_id hb hmem hid]
      exact ⟨rfl, rfl, rfl⟩
  bound h hh := by
    obtain ⟨a, ha, rfl⟩ := List.mem_map.1 hh
    exact htaken a ha
  posts h hh := by
    obtain ⟨a, ha, rfl⟩ := List.mem_map.1 hh
    have hok := hs.row a (List.mem_filter.1 (mem_of_mem_firstBy ha)).1
    exact Nat.lt_succ_of_le hok.posts
  nodup := by
    have hids : ((claimDeliveries now batchSize s).2.map (·.id)) =
        (dueDeliveries now batchSize s).map (·.id) := by
      simp only [claimDeliveries, List.map_map]
      rfl
    have hdue : ((dueDeliveries now batchSize s).map (·.id)).Nodup :=
      nodup_map_firstBy (hs.ids.sublist (List.filter_sublist.map _))
    rw [← hids] at hdue
    exact hdue
  found _ he := absurd he (by simp [Point.snapshot])
  on e _ hwatches := by
    obtain ⟨⟨a, ha, -⟩, -⟩ := watches_iff.1 hwatches
    exact absurd ha List.not_mem_nil

theorem read_relies {left : ℕ} {due : List Delivery} (hp : Relies s (.reading left due)) :
    Relies s (.posting left
      (s.endpoints.filter fun e => (due.map (·.endpointId)).contains e.id) [] due) where
  fresh := hp.fresh
  row := hp.row
  bound := hp.bound
  posts := hp.posts
  nodup := hp.nodup
  found endpoints he h hh hnone d hd hid := by
    -- The row goes to an endpoint that is there, so the read has brought it.
    obtain ⟨-, -, hendpoint⟩ := hp.row h hh d hd hid
    obtain ⟨e, hmem, heid⟩ := (hs.row d hd).endpoint
    rw [hendpoint] at heid
    have hread : e ∈ endpoints := by
      rw [← Option.some.inj he]
      exact List.mem_filter.2 ⟨hmem, List.contains_iff_mem.2 (List.mem_map.2 ⟨h, hh, heid.symm⟩)⟩
    have hmissing := List.find?_eq_none.1 hnone e hread
    exact hmissing (by simp [heid])
  on e he hwatches := by
    obtain ⟨⟨a, ha, haid, hactive⟩, -⟩ := watches_iff.1 hwatches
    have hmem : a ∈ s.endpoints := (List.mem_filter.1 ha).1
    rwa [List.inj_on_of_nodup_map hs.endpointIds hmem he haid] at hactive

end

/-- The tick has not heard which endpoints there are. -/
def unread : Point → Find → Bool
  | .reading _ _, .done _ => false
  | .reading _ _, _ => true
  | _, _ => false

/-- Where a call may take a tick. -/
inductive Turn (s : Store) (x : Find) : Point → Point → Prop
  | claimed (left : ℕ) (now : ℤ) (hx : x = .done now) :
      Turn s x (.claiming left) (.reading left (claimDeliveries now batchSize s).2)
  | read (left : ℕ) (due : List Delivery) (now : ℤ) (hx : x = .done now) :
      Turn s x (.reading left due)
        (.posting left (s.endpoints.filter fun e => (due.map (·.endpointId)).contains e.id) [] due)
  | unread (left : ℕ) (due : List Delivery) (hx : unread (.reading left due) x = true) :
      Turn s x (.reading left due) (.posting left [] [] due)
  | through (left : ℕ) (endpoints : List Endpoint) (outcomes : List (ℕ × Tally)) :
      Turn s x (.posting left endpoints outcomes []) (.closing left endpoints outcomes)
  | refused (left : ℕ) (endpoints : List Endpoint) (outcomes : List (ℕ × Tally)) (d : Delivery)
      (due : List Delivery) (error : LastError)
      (h : dispatch origin env endpoints d = .refuse error) :
      Turn s x (.posting left endpoints outcomes (d :: due)) (.posting left endpoints outcomes due)
  | posted (left : ℕ) (endpoints : List Endpoint) (outcomes : List (ℕ × Tally)) (d : Delivery)
      (due : List Delivery) (e : Endpoint) (h : dispatch origin env endpoints d = .post e) :
      Turn s x (.posting left endpoints outcomes (d :: due))
        (.awaiting left endpoints outcomes d due)
  | answered (left : ℕ) (endpoints : List Endpoint) (outcomes : List (ℕ × Tally)) (d : Delivery)
      (due : List Delivery) (attempt : Attempt) :
      Turn s x (.awaiting left endpoints outcomes d due)
        (.writing left endpoints outcomes d attempt due)
  | written (left : ℕ) (endpoints : List Endpoint) (outcomes outcomes' : List (ℕ × Tally))
      (d : Delivery) (due : List Delivery) (attempt : Attempt) :
      Turn s x (.writing left endpoints outcomes d attempt due)
        (.posting left endpoints outcomes' due)
  | closed (left : ℕ) (endpoints : List Endpoint) (outcomes : List (ℕ × Tally)) (p' : Point)
      (h : p'.held = []) : Turn s x (.closing left endpoints outcomes) p'

theorem turn_of_next (h : next origin env s p x = some p') : Turn origin env s x p p' := by
  cases p with
  | claiming left =>
    cases x with
    | done now =>
      have hclaimed : Turn origin env s (.done now) (.claiming left)
          (.reading left (claimDeliveries now batchSize s).2) := .claimed left now rfl
      unfold next at h
      cases hdue : (claimDeliveries now batchSize s).2 with
      | nil =>
        simp only [hdue] at h
        exact absurd h (by simp)
      | cons d due =>
        simp only [hdue, Option.some.injEq] at h
        rw [hdue] at hclaimed
        exact h ▸ hclaimed
    | unheard now => exact absurd h (by simp [next])
    | failed => exact absurd h (by simp [next])
    | answered attempt => exact absurd h (by simp [next])
  | reading left due =>
    cases x with
    | done now => exact Option.some.inj h ▸ .read left due now rfl
    | unheard now => exact Option.some.inj h ▸ .unread left due rfl
    | failed => exact Option.some.inj h ▸ .unread left due rfl
    | answered attempt => exact Option.some.inj h ▸ .unread left due rfl
  | posting left endpoints outcomes due =>
    cases due with
    | nil => exact Option.some.inj h ▸ .through left endpoints outcomes
    | cons d due =>
      unfold next at h
      cases hdispatch : dispatch origin env endpoints d with
      | refuse error =>
        simp only [hdispatch, Option.some.injEq] at h
        exact h ▸ .refused left endpoints outcomes d due error hdispatch
      | post e =>
        simp only [hdispatch, Option.some.injEq] at h
        exact h ▸ .posted left endpoints outcomes d due e hdispatch
  | awaiting left endpoints outcomes d due =>
    cases x with
    | answered attempt => exact Option.some.inj h ▸ .answered left endpoints outcomes d due attempt
    | done now => exact absurd h (by simp [next])
    | unheard now => exact absurd h (by simp [next])
    | failed => exact absurd h (by simp [next])
  | writing left endpoints outcomes d attempt due =>
    exact Option.some.inj h ▸ .written left endpoints outcomes _ d due attempt
  | closing left endpoints outcomes =>
    cases outcomes with
    | nil =>
      have hnext : (if left ≤ 1 then none else some (Point.claiming (left - 1))) = some p' := h
      split_ifs at hnext
      exact .closed left endpoints [] p' (Option.some.inj hnext ▸ rfl)
    | cons outcome rest =>
      exact .closed left endpoints _ p' (Option.some.inj h ▸ rfl)

theorem Relies.dealt (hp : Relies s p) {left : ℕ} {outcomes : List (ℕ × Tally)}
    {due : List Delivery} (hheld : p.held = d :: due) (hdue : ∀ h ∈ due, h ∈ p.due)
    (hread : p.snapshot = some endpoints) {f : ℤ → Delivery → Delivery}
    (hf : ∀ now d, (f now d).id = d.id) (x : Find) :
    Relies (x.write (fun now s => s.setDelivery d.id (f now)) s)
      (.posting left endpoints outcomes due) := by
  have hless : Relies s (.posting left endpoints outcomes due) :=
    hp.less (hheld ▸ List.sublist_cons_self _ _) hdue hread.symm
  have hothers : d.id ∉ due.map (·.id) := by
    have hnodup := hp.nodup
    rw [hheld] at hnodup
    exact (List.nodup_cons.1 hnodup).1
  rcases x.write_cases (fun now s => s.setDelivery d.id (f now)) s with heq | ⟨now, -, heq⟩ <;>
    rw [heq]
  · exact hless
  · have htouches : Touches s (s.setDelivery d.id (f now)) [d.id] :=
      .setDelivery s (hf now) (List.mem_singleton_self _)
    have honly : OnlyOff s (s.setDelivery d.id (f now)) none := .same rfl _
    exact hless.spared htouches honly
      (fun h hh hid => hothers (List.mem_map.2 ⟨h, hh, List.mem_singleton.1 hid⟩))
      fun id hoff => absurd hoff (by simp)

/-- **A call of a tick leaves it what it relies on next.** -/
theorem next_relies (hs : Consistent s) (hp : Relies s p)
    (htaken : ∀ d ∈ taken s p x, d.attempts < maxAttempts) (hread : unread p x = false)
    (hturn : Turn origin env s x p p') : Relies (call origin env s p x) p' := by
  cases hturn with
  | claimed left now hx =>
    subst hx
    exact claimed_relies hs left htaken
  | read left due now hx => exact read_relies hs hp
  | unread left due hx =>
    rw [hx] at hread
    exact absurd hread (by decide)
  | through left endpoints outcomes => exact .nothing _ rfl
  | refused left endpoints outcomes d due error h =>
    rw [call_posting, h]
    exact hp.dealt rfl (fun _ h => List.mem_cons_of_mem _ h) rfl (fun _ => refusing_id error) x
  | posted left endpoints outcomes d due e h =>
    rw [call_posting, h]
    have hless : Relies s (.awaiting left endpoints outcomes d due) :=
      hp.less (List.Sublist.refl _) (fun _ h => List.mem_cons_of_mem _ h) rfl
    refine ⟨hless.fresh, hless.row, hless.bound, fun h hh => ?_, hless.nodup, hless.found,
      hless.on⟩
    -- Only the delivery that is posted has one post more.
    have hne : d.id ≠ h.id := fun heq =>
      (List.nodup_cons.1 hless.nodup).1 (List.mem_map.2 ⟨h, hh, heq.symm⟩)
    rw [postsOf_post, if_neg hne]
    exact hless.posts h hh
  | answered left endpoints outcomes d due attempt =>
    exact hp.less (List.Sublist.refl _) (fun _ h => h) rfl
  | written left endpoints outcomes outcomes' d due attempt =>
    rw [call_writing]
    exact hp.dealt rfl (fun _ h => h) rfl (fun now => recording_id now d.attempts attempt) x
  | closed left endpoints outcomes p' h => exact .nothing _ h

theorem next_held (hturn : Turn origin env s x p p')
    {h : Delivery} (hh : h ∈ p'.held) : h.id ∈ reach s p x := by
  have hkept : h ∈ p.held → h.id ∈ reach s p x := fun hh =>
    List.mem_append_right _ (List.mem_map_of_mem hh)
  cases hturn with
  | claimed left now hx =>
    subst hx
    obtain ⟨a, ha, rfl⟩ := List.mem_map.1 hh
    exact List.mem_append_left _ (List.mem_map.2 ⟨a, ha, rfl⟩)
  | read | unread => exact hkept hh
  | through left endpoints outcomes => exact absurd hh List.not_mem_nil
  | refused left endpoints outcomes d due error h => exact hkept (List.mem_cons_of_mem _ hh)
  | posted | answered => exact hkept hh
  | written left endpoints outcomes outcomes' d due attempt =>
    exact hkept (List.mem_cons_of_mem _ hh)
  | closed left endpoints outcomes p' h =>
    rw [h] at hh
    exact absurd hh List.not_mem_nil

end

end Webhooks
