/-
**What becomes of a message.**

Handlers of the carrier's events interleave, and each is run again until it is through.  For one
message among all of them this module shows what its row and its metering have come to once no
handler is under way, and when its failure has been told.

Main result:

* `MessageStatus.events_settled` — the two together.
-/

import Texturion.MessageStatus

namespace MessageStatus

open SqlTable Interleaving

/-! ### The row among the others -/

/-- The columns of the table tell `m` from every other row, by its id and by its carrier's id. -/
structure Roster (m : Message) (columns : List (ℕ × ℕ × ℕ × Option ℕ × Direction)) : Prop where
  mem : m.column ∈ columns
  ids : (columns.map (·.1)).Nodup
  carrierIds : (columns.map (·.2.1)).Nodup

variable {m : Message} {columns : List (ℕ × ℕ × ℕ × Option ℕ × Direction)} {E : Event → Prop}
  {render : FailedNotice → String}

variable {row : Message} {s : Store} {p : Point} {x : Await}
  {is : List (Input Event Await Webhooks.Deed)} {i : Input Event Await Webhooks.Deed} {eid : ℕ}
  {out : List Output}

theorem Roster.of_carrierId (h : Roster m columns) (hrow : row.column ∈ columns)
    (htid : row.telnyxMessageId = m.telnyxMessageId) : row.column = m.column :=
  List.inj_on_of_nodup_map h.carrierIds hrow h.mem htid

theorem Roster.of_id (h : Roster m columns) (hrow : row.column ∈ columns)
    (hid : row.id = m.id) : row.column = m.column :=
  List.inj_on_of_nodup_map h.ids hrow h.mem hid

theorem column_eq (h : row.column = m.column) :
    row.id = m.id ∧ row.telnyxMessageId = m.telnyxMessageId ∧ row.companyId = m.companyId ∧
      row.conversationId = m.conversationId ∧ row.direction = m.direction := by
  simpa [Message.column] using h

/-! ### What holds of the store -/

def Finalized (m : Message) (E : Event → Prop) (s : Store) : Prop :=
  ∀ row ∈ s.messages, row.telnyxMessageId = m.telnyxMessageId →
    ∃ p, E (.finalized m.telnyxMessageId p) ∧ row.status = finalStatus p

def Explained (m : Message) (E : Event → Prop) (row : Message) : Prop :=
  row.status = m.status ∨
    (row.status = .sent ∧ m.status = .queued ∧ m.direction = .outbound ∧
      E (.sent m.telnyxMessageId)) ∨
    ∃ p, E (.finalized m.telnyxMessageId p) ∧ row.status = finalStatus p

structure Kept (m : Message) (columns : List (ℕ × ℕ × ℕ × Option ℕ × Direction))
    (E : Event → Prop) (s : Store) : Prop where
  columns : s.messages.map Message.column = columns
  status : ∀ row ∈ s.messages, row.telnyxMessageId = m.telnyxMessageId → Explained m E row
  once : s.meterings m ≤ 1
  metered : s.metered m = true →
    m.direction = .outbound ∧ ∃ p, E (.finalized m.telnyxMessageId p)

/-- A row as it was read for the carrier's id `tid`. -/
def ReadFor (columns : List (ℕ × ℕ × ℕ × Option ℕ × Direction)) (tid : ℕ) (row : Message) : Prop :=
  row.column ∈ columns ∧ row.telnyxMessageId = tid

/-- What a handler relies on: its event is one of those that were delivered, the row it read is one
of the table, and its own steps on the row have been made. -/
def Relies (m : Message) (columns : List (ℕ × ℕ × ℕ × Option ℕ × Direction)) (E : Event → Prop)
    (s : Store) : Point → Prop
  | .marking tid => E (.sent tid)
  | .looking tid p => E (.finalized tid p)
  | .updating tid p row => E (.finalized tid p) ∧ ReadFor columns tid row
  | .listening tid p row | .enqueuing tid p row _ | .metering tid p row =>
    E (.finalized tid p) ∧ ReadFor columns tid row ∧ row.direction = .outbound ∧
      (tid = m.telnyxMessageId → Finalized m E s)
  | .findingCustomer tid p row _ | .reporting tid p row _ | .stamping tid p row _ =>
    E (.finalized tid p) ∧ ReadFor columns tid row ∧ row.direction = .outbound ∧
      (tid = m.telnyxMessageId → Finalized m E s ∧ s.metered m = true)

theorem Relies.event (h : Relies m columns E s p) : E p.event := by
  cases p with
  | marking | looking => exact h
  | updating | listening | enqueuing | metering | findingCustomer | reporting | stamping =>
    exact h.1

theorem Relies.mono {s t : Store} (hf : Finalized m E s → Finalized m E t)
    (hm : s.metered m = true → t.metered m = true) (h : Relies m columns E s p) :
    Relies m columns E t p := by
  cases p with
  | marking | looking | updating => exact h
  | listening | enqueuing | metering =>
    exact ⟨h.1, h.2.1, h.2.2.1, fun htid => hf (h.2.2.2 htid)⟩
  | findingCustomer | reporting | stamping =>
    exact ⟨h.1, h.2.1, h.2.2.1, fun htid => ⟨hf (h.2.2.2 htid).1, hm (h.2.2.2 htid).2⟩⟩

theorem relies_enter {e : Event} (h : E e) : Relies m columns E s (enter e) := by
  cases e <;> exact h

/-! ### One call -/

theorem finalStatus_ne_queued (p : Payload) : finalStatus p ≠ .queued := by
  unfold finalStatus
  split
  · simp
  · split <;> simp

theorem finalized_call (x : Await) (hp : E p.event)
    (h : Finalized m E s) : Finalized m E (call render s p x) := by
  intro row hrow htid
  rcases mem_call_messages hrow with hrow | ⟨tid, old, rfl, hold, -, -, hqueued, rfl⟩ |
    ⟨tid, pl, read, old, rfl, hold, holdtid, rfl⟩
  · exact h row hrow htid
  · obtain ⟨pl, -, hstatus⟩ := h old hold htid
    exact absurd (hstatus.symm.trans hqueued) (finalStatus_ne_queued pl)
  · obtain rfl : tid = m.telnyxMessageId := holdtid.symm.trans htid
    exact ⟨pl, hp, rfl⟩

theorem metered_call (x : Await) (h : s.metered m = true) :
    (call render s p x).metered m = true := by
  rw [metered_iff, Store.meterings] at h ⊢
  rcases usage_call render s p x with heq | ⟨_, _, _, _, _, heq⟩
  · rwa [heq]
  · rw [heq, List.count_append]
    omega

theorem explained_call
    (hroster : Roster m columns) (hs : Kept m columns E s) (hp : E p.event)
    (hrow : row ∈ (call render s p x).messages)
    (htid : row.telnyxMessageId = m.telnyxMessageId) : Explained m E row := by
  rcases mem_call_messages hrow with hrow | ⟨tid, old, rfl, hold, holdtid, hout, hqueued, rfl⟩ |
    ⟨tid, pl, read, old, rfl, hold, holdtid, rfl⟩
  · exact hs.status row hrow htid
  · obtain rfl : tid = m.telnyxMessageId := holdtid.symm.trans htid
    have hcolumn : old.column = m.column :=
      hroster.of_carrierId (hs.columns ▸ List.mem_map_of_mem hold) htid
    have hdir : m.direction = .outbound := (column_eq hcolumn).2.2.2.2.symm.trans hout
    -- a queued row is still as it came
    rcases hs.status old hold htid with hsame | ⟨hsent, -⟩ | ⟨pl, -, hfinal⟩
    · exact .inr (.inl ⟨rfl, hsame.symm.trans hqueued, hdir, hp⟩)
    · exact absurd (hsent.symm.trans hqueued) (by decide)
    · exact absurd (hfinal.symm.trans hqueued) (finalStatus_ne_queued pl)
  · obtain rfl : tid = m.telnyxMessageId := holdtid.symm.trans htid
    exact .inr (.inr ⟨pl, hp, rfl⟩)

theorem meterings_call (render : FailedNotice → String) (x : Await) (hroster : Roster m columns)
    (hp : Relies m columns E s p) :
    (call render s p x).meterings m = s.meterings m ∨
      s.meterings m = 0 ∧ (call render s p x).meterings m = 1 ∧ m.direction = .outbound ∧
        ∃ pl, E (.finalized m.telnyxMessageId pl) := by
  rcases usage_call render s p x with heq | ⟨tid, pl, read, rfl, hread, heq⟩
  · left
    rw [Store.meterings, heq, Store.meterings]
  · obtain ⟨hevent, ⟨hmem, htid⟩, hout, -⟩ := hp
    rw [Store.meterings, heq, List.count_append, Store.meterings]
    by_cases hid : read.id = m.id
    · have hcolumn := column_eq (hroster.of_id hmem hid)
      obtain rfl : m.telnyxMessageId = tid := hcolumn.2.1.symm.trans htid
      have hzero : s.meterings m = 0 := by
        have hnot : ¬s.metered m = true := by
          rw [Store.metered, hid] at hread
          simpa [Store.metered] using hread
        rw [metered_iff] at hnot
        omega
      right
      rw [Store.meterings] at hzero
      refine ⟨hzero, ?_, hcolumn.2.2.2.2.symm.trans hout, pl, hevent⟩
      rw [hzero, hid]
      simp
    · left
      simp [hid]

theorem kept_call (hroster : Roster m columns) (hs : Kept m columns E s)
    (hp : Relies m columns E s p) :
    Kept m columns E (call render s p x) where
  columns := (column_call render s p x).trans hs.columns
  status := fun _ hrow htid => explained_call hroster hs hp.event hrow htid
  once := by
    rcases meterings_call render x hroster hp with heq | ⟨-, hone, -⟩
    · rw [heq]
      exact hs.once
    · omega
  metered := by
    intro hmet
    rcases meterings_call render x hroster hp with heq | ⟨-, -, hout, hev⟩
    · refine hs.metered ?_
      rw [metered_iff] at hmet ⊢
      omega
    · exact ⟨hout, hev⟩

theorem finalized_of_updating {p : Payload} (hlands : x.lands = true)
    (hevent : E (.finalized m.telnyxMessageId p)) :
    Finalized m E (call render s (.updating m.telnyxMessageId p row) x) := by
  intro row' hrow' htid
  simp only [call, hlands, if_true, deed] at hrow'
  rcases mem_update.1 hrow' with ⟨-, hspared⟩ | ⟨old, -, -, rfl⟩
  · exact absurd htid (of_decide_eq_false hspared)
  · exact ⟨p, hevent, rfl⟩

/-- The insert that metering makes, or the conflict it runs into, leaves the message metered. -/
theorem metered_of_metering {tid : ℕ} {p : Payload} (hlands : x.lands = true)
    (hid : row.id = m.id) : (call render s (.metering tid p row) x).metered m = true := by
  have hsame : ∀ t : Store, t.metered m = t.metered row := by
    intro t
    simp [Store.metered, hid]
  rw [hsame]
  simp only [call, hlands, if_true, deed]
  by_cases hmet : s.metered row = true
  · rwa [if_pos hmet]
  · rw [if_neg hmet]
    simp [Store.metered, usageEvent]

theorem lands_of_heard (h : x.heard = true) : x.lands = true := by
  have hdone : x.outcome = .done := of_decide_eq_true h
  simp [Await.lands, hdone]

/-- **A handler has what it relies on at its next step.** -/
theorem relies_next {p p' : Point} (hroster : Roster m columns)
    (hs : Kept m columns E s) (hp : Relies m columns E s p)
    (hnext : (next render s x p).1 = some p') : Relies m columns E (call render s p x) p' := by
  have hevent := hp.event
  have hfin : Finalized m E s → Finalized m E (call render s p x) := finalized_call x hevent
  have hagain : ∀ e, E e → p' = enter e → Relies m columns E (call render s p x) p' := by
    rintro e he rfl
    exact relies_enter he
  have hkeep : Relies m columns E (call render s p x) p := hp.mono hfin (metered_call x)
  cases p with
  | marking tid =>
    simp only [next] at hnext
    split at hnext
    · simp [finish] at hnext
    · exact hagain _ hevent (Option.some.inj hnext).symm
  | looking tid pl =>
    simp only [next] at hnext
    split at hnext
    · split at hnext
      · simp [finish] at hnext
      · rename_i row hfind
        obtain rfl := Option.some.inj hnext
        refine ⟨hevent, ?_, by simpa using List.find?_some hfind⟩
        rw [← hs.columns]
        exact List.mem_map_of_mem (List.mem_of_find?_eq_some hfind)
    · exact hagain _ hevent (Option.some.inj hnext).symm
  | updating tid pl row =>
    simp only [next] at hnext
    split at hnext
    · rename_i hheard
      have hdone : tid = m.telnyxMessageId →
          Finalized m E (call render s (.updating tid pl row) x) := by
        rintro rfl
        exact finalized_of_updating (lands_of_heard hheard) hevent
      simp only [afterUpdate] at hnext
      split at hnext
      · simp [finish] at hnext
      · rename_i hdir
        have hout : row.direction = .outbound := not_not.1 hdir
        split at hnext <;> obtain rfl := Option.some.inj hnext
        · exact ⟨hevent, hp.2, hout, hdone⟩
        · exact ⟨hevent, hp.2, hout, hdone⟩
    · exact hagain _ hevent (Option.some.inj hnext).symm
  | listening tid pl row =>
    simp only [next] at hnext
    split at hnext <;> obtain rfl := Option.some.inj hnext <;> exact hkeep
  | enqueuing tid pl row listeners =>
    obtain rfl := Option.some.inj hnext
    exact hkeep
  | metering tid pl row =>
    simp only [next] at hnext
    split at hnext
    · rename_i hheard
      split at hnext
      · simp [finish] at hnext
      · obtain rfl := Option.some.inj hnext
        refine ⟨hevent, hp.2.1, hp.2.2.1, fun htid => ⟨hkeep.2.2.2 htid, ?_⟩⟩
        refine metered_of_metering (lands_of_heard hheard) ?_
        exact (column_eq (hroster.of_carrierId hp.2.1.1 (hp.2.1.2.trans htid))).1
    · exact hagain _ hevent (Option.some.inj hnext).symm
  | findingCustomer tid pl row usageEventId =>
    simp only [next] at hnext
    split at hnext
    · split at hnext
      · obtain rfl := Option.some.inj hnext
        exact hkeep
      · simp [finish] at hnext
    · exact hagain _ hevent (Option.some.inj hnext).symm
  | reporting tid pl row usageEventId =>
    simp only [next] at hnext
    split at hnext
    · obtain rfl := Option.some.inj hnext
      exact hkeep
    · simp [finish] at hnext
  | stamping tid pl row usageEventId =>
    simp only [next] at hnext
    split at hnext
    · simp [finish] at hnext
    · exact hagain _ hevent (Option.some.inj hnext).symm

/-! ### A run -/

/-- What comes with an event that has been handled. -/
def Fact (m : Message) (E : Event → Prop) : Output → Store → Prop
  | .handled (.sent tid), s => tid = m.telnyxMessageId → m.direction = .outbound →
      ∀ row ∈ s.messages, row.telnyxMessageId = m.telnyxMessageId → row.status ≠ .queued
  | .handled (.finalized tid _), s => tid = m.telnyxMessageId →
      Finalized m E s ∧ (m.direction = .outbound → s.metered m = true)
  | .enqueued _, _ => True

theorem fact_call (x : Await) (hp : E p.event) {o : Output}
    (h : Fact m E o s) : Fact m E o (call render s p x) := by
  cases o with
  | enqueued rows => trivial
  | handled e =>
    cases e with
    | finalized tid pl =>
      intro htid
      obtain ⟨hfin, hmet⟩ := h htid
      exact ⟨finalized_call x hp hfin, fun hout => metered_call x (hmet hout)⟩
    | sent tid =>
      intro htid hout row hrow hrowtid
      rcases mem_call_messages hrow with hrow | ⟨_, old, rfl, -, -, -, -, rfl⟩ |
        ⟨_, pl, _, old, rfl, -, -, rfl⟩
      · exact h htid hout row hrow hrowtid
      · simp
      · exact finalStatus_ne_queued pl

theorem fact_finish (hroster : Roster m columns)
    (hs : Kept m columns E s) (hp : Relies m columns E s p) {o : Output}
    (ho : o ∈ (next render s x p).2) : Fact m E o (call render s p x) := by
  have hfin : Finalized m E s → Finalized m E (call render s p x) := finalized_call x hp.event
  have hkeep : Relies m columns E (call render s p x) p := hp.mono hfin (metered_call x)
  cases p with
  | marking tid =>
    simp only [next] at ho
    split at ho
    · rename_i hheard
      obtain rfl := List.mem_singleton.1 ho
      rintro rfl hout row hrow hrowtid hqueued
      simp only [call, lands_of_heard hheard, if_true, deed] at hrow
      rcases mem_update.1 hrow with ⟨hold, hspared⟩ | ⟨old, -, -, rfl⟩
      · -- a queued outbound row is one the update writes
        have hcolumn := hroster.of_carrierId (hs.columns ▸ List.mem_map_of_mem hold) hrowtid
        have hdir : row.direction = .outbound := (column_eq hcolumn).2.2.2.2.trans hout
        exact absurd ⟨hrowtid, hdir, hqueued⟩ (of_decide_eq_false hspared)
      · simp at hqueued
    · exact absurd ho List.not_mem_nil
  | looking tid pl =>
    simp only [next] at ho
    split at ho
    · split at ho
      · rename_i hfind
        obtain rfl := List.mem_singleton.1 ho
        rintro rfl
        -- the row of the message is in the table
        obtain ⟨row, hrow, hcolumn⟩ := List.mem_map.1 (hs.columns ▸ hroster.mem)
        have hnone := List.find?_eq_none.1 hfind row hrow
        exact absurd (column_eq hcolumn).2.1 (by simpa using hnone)
      · exact absurd ho List.not_mem_nil
    · exact absurd ho List.not_mem_nil
  | updating tid pl row =>
    simp only [next] at ho
    split at ho
    · rename_i hheard
      simp only [afterUpdate] at ho
      split at ho
      · rename_i hdir
        obtain rfl := List.mem_singleton.1 ho
        rintro rfl
        refine ⟨finalized_of_updating (lands_of_heard hheard) hp.event, fun hout => ?_⟩
        have hcolumn := column_eq (hroster.of_carrierId hp.2.1 hp.2.2)
        exact absurd (hcolumn.2.2.2.2.trans hout) hdir
      · split at ho <;> exact absurd ho List.not_mem_nil
    · exact absurd ho List.not_mem_nil
  | listening tid pl row =>
    simp only [next] at ho
    split at ho <;> exact absurd ho List.not_mem_nil
  | enqueuing tid pl row listeners =>
    simp only [next] at ho
    split at ho
    · obtain rfl := List.mem_singleton.1 ho
      trivial
    · exact absurd ho List.not_mem_nil
  | metering tid pl row =>
    simp only [next] at ho
    split at ho
    · rename_i hheard
      split at ho
      · obtain rfl := List.mem_singleton.1 ho
        intro htid
        refine ⟨hkeep.2.2.2 htid, fun _ => ?_⟩
        refine metered_of_metering (lands_of_heard hheard) ?_
        exact (column_eq (hroster.of_carrierId hp.2.1.1 (hp.2.1.2.trans htid))).1
      · exact absurd ho List.not_mem_nil
    · exact absurd ho List.not_mem_nil
  | findingCustomer tid pl row usageEventId =>
    simp only [next] at ho
    split at ho
    · split at ho
      · exact absurd ho List.not_mem_nil
      · obtain rfl := List.mem_singleton.1 ho
        exact fun htid => ⟨(hkeep.2.2.2 htid).1, fun _ => (hkeep.2.2.2 htid).2⟩
    · exact absurd ho List.not_mem_nil
  | reporting tid pl row usageEventId =>
    simp only [next] at ho
    split at ho
    · exact absurd ho List.not_mem_nil
    · obtain rfl := List.mem_singleton.1 ho
      exact fun htid => ⟨(hkeep.2.2.2 htid).1, fun _ => (hkeep.2.2.2 htid).2⟩
  | stamping tid pl row usageEventId =>
    simp only [next] at ho
    split at ho
    · obtain rfl := List.mem_singleton.1 ho
      exact fun htid => ⟨(hkeep.2.2.2 htid).1, fun _ => (hkeep.2.2.2 htid).2⟩
    · exact absurd ho List.not_mem_nil

/-- The events that start handlers are among those that were delivered. -/
def Delivers (E : Event → Prop) (_ : State Store Point) :
    Input Event Await Webhooks.Deed → Prop
  | .start e => E e
  | .step .. | .crash _ | .world _ => True

theorem delivers_of_mem (hi : i ∈ is) (s : State Store Point) :
    Delivers (fun e => .start e ∈ is) s i := by
  cases i with
  | start e => exact hi
  | step | crash | world => trivial

/-- **Every step of every handler keeps the invariant.** -/
theorem nonInterfering (render : FailedNotice → String) (hroster : Roster m columns) :
    NonInterfering (statusEvents render) (Kept m columns E) (Relies m columns E)
      (fun _ _ => True) (Delivers E) fun _ => True where
  symm _ _ _ := trivial
  enter _ _ _ he := relies_enter he
  alone _ _ := trivial
  advance _ _ _ _ h := kept_call hroster h.sound.store h.relies
  next _ _ _ _ _ h hnext := relies_next hroster h.sound.store h.relies hnext
  others _ _ x _ q h hq _ :=
    (h.sound.running q (List.mem_of_mem_eraseIdx hq)).mono (finalized_call x h.relies.event)
      (metered_call x)
  apart _ _ _ _ _ _ _ _ _ _ := trivial
  emits _ _ _ _ _ _ _ := trivial
  world _ _ h _ := ⟨⟨h.store.columns, h.store.status, h.store.once, h.store.metered⟩,
    fun p hp => (h.running p hp).mono id id, fun _ _ => trivial⟩

/-- The row of a message before the first of its events, among rows that ids tell apart. -/
structure Arrives (m : Message) (s : Store) : Prop where
  mem : m ∈ s.messages
  ids : (s.messages.map (·.id)).Nodup
  carrierIds : (s.messages.map (·.telnyxMessageId)).Nodup
  unmetered : s.metered m = false

theorem Arrives.roster (h : Arrives m s) :
    Roster m (s.messages.map Message.column) where
  mem := List.mem_map_of_mem h.mem
  ids := by
    rw [List.map_map]
    exact h.ids
  carrierIds := by
    rw [List.map_map]
    exact h.carrierIds

theorem Arrives.kept (h : Arrives m s) :
    Kept m (s.messages.map Message.column) E s where
  columns := rfl
  status row hrow htid := by
    have hsame : row = m := List.inj_on_of_nodup_map h.carrierIds hrow h.mem htid
    exact .inl (by rw [hsame])
  once := by
    have hzero : ¬0 < s.meterings m := by
      rw [← metered_iff, h.unmetered]
      simp
    omega
  metered hmet := absurd hmet (by simp [h.unmetered])

theorem Arrives.sound (h : Arrives m s) :
    Sound (Kept m (s.messages.map Message.column) E) (Relies m (s.messages.map Message.column) E)
      (fun _ _ => True) ⟨s, []⟩ :=
  ⟨h.kept, fun _ hp => absurd hp List.not_mem_nil, List.Pairwise.nil⟩

/-- What is to have become of the message `m` when the events of `is` have all been handled: its
status is that of a final event, if there was one; else it is `sent`, if the message was queued and
there was a sent event; and it has been metered once, if it is outbound and there was a final
event. -/
structure Settled (m : Message) (is : List (Input Event Await Webhooks.Deed)) (s : Store)
    (row : Message) : Prop where
  mem : row ∈ s.messages
  same : row.column = m.column
  finalized : (∃ p, .start (.finalized m.telnyxMessageId p) ∈ is) →
    ∃ p, .start (.finalized m.telnyxMessageId p) ∈ is ∧ row.status = finalStatus p
  sent : (¬∃ p, .start (.finalized m.telnyxMessageId p) ∈ is) →
    .start (.sent m.telnyxMessageId) ∈ is → m.direction = .outbound → m.status = .queued →
    row.status = .sent
  untouched : (¬∃ p, .start (.finalized m.telnyxMessageId p) ∈ is) →
    ¬(.start (.sent m.telnyxMessageId) ∈ is ∧ m.direction = .outbound ∧ m.status = .queued) →
    row.status = m.status
  metered : m.direction = .outbound → (∃ p, .start (.finalized m.telnyxMessageId p) ∈ is) →
    s.meterings m = 1
  unmetered : ¬(m.direction = .outbound ∧ ∃ p, .start (.finalized m.telnyxMessageId p) ∈ is) →
    s.meterings m = 0

/-- **Once all handlers are through, the message is settled.** -/
theorem message_settled (render : FailedNotice → String) (harrives : Arrives m s)
    (hretried : ∀ n, .crash n ∉ is)
    (hover : (Reactive.final (step (statusEvents render)) ⟨s, []⟩ is).running = []) :
    ∃ row, Settled m is (Reactive.final (step (statusEvents render)) ⟨s, []⟩ is).store row := by
  have hsound : Sound (Kept m (s.messages.map Message.column) fun e => .start e ∈ is)
      (Relies m (s.messages.map Message.column) fun e => .start e ∈ is) (fun _ _ => True)
      ⟨s, []⟩ := harrives.sound
  have hdelivers : Reactive.Along (step (statusEvents render)) (Delivers fun e => .start e ∈ is)
      ⟨s, []⟩ is := by
    refine (Reactive.along_iff_prefix _ _ _ _).2 fun js i ks his => ?_
    exact delivers_of_mem (his ▸ List.mem_append_right _ (List.mem_cons_self ..)) _
  have hni := nonInterfering (E := fun e => .start e ∈ is) render harrives.roster
  have hkept := (hni.final hsound hdelivers).store
  -- every event of the message has been handled, and what came with that still holds
  have hfacts := hni.facts (Fact m fun e => .start e ∈ is)
    (fun s n x p h o ho => fact_finish harrives.roster h.sound.store h.relies ho)
    (fun _ _ _ _ o ho => absurd ho List.not_mem_nil)
    (fun s n x p o h ho => fact_call x h.relies.event ho)
    (fun s d o _ _ ho => by
      cases o with
      | handled e => cases e <;> exact ho
      | enqueued rows => trivial) hsound hdelivers
  have hhandled : ∀ e, .start e ∈ is →
      Fact m (fun e => .start e ∈ is) (.handled e)
        (Reactive.final (step (statusEvents render)) ⟨s, []⟩ is).store := by
    intro e he
    refine hfacts _ ?_
    refine ((accountable render).handled_or_running hretried (.inr he)).resolve_right ?_
    rw [hover]
    simp
  obtain ⟨row, hrow, hcolumn⟩ := List.mem_map.1 (hkept.columns ▸ harrives.roster.mem)
  have htid := (column_eq hcolumn).2.1
  have hexplained := hkept.status row hrow htid
  refine ⟨row, hrow, hcolumn, ?_, ?_, ?_, ?_, ?_⟩
  · rintro ⟨p, hp⟩
    exact (hhandled _ hp rfl).1 row hrow htid
  · intro hnone hsent hout hqueued
    rcases hexplained with hsame | ⟨hs, -⟩ | ⟨p, hp, -⟩
    · exact absurd (hsame.trans hqueued) (hhandled _ hsent rfl hout row hrow htid)
    · exact hs
    · exact absurd ⟨p, hp⟩ hnone
  · intro hnone hnot
    rcases hexplained with hsame | ⟨-, hqueued, hout, hsent⟩ | ⟨p, hp, -⟩
    · exact hsame
    · exact absurd ⟨hsent, hout, hqueued⟩ hnot
    · exact absurd ⟨p, hp⟩ hnone
  · rintro hout ⟨p, hp⟩
    have hmet := (hhandled _ hp rfl).2 hout
    rw [metered_iff] at hmet
    have hle := hkept.once
    omega
  · intro hnot
    by_contra hne
    exact hnot (hkept.metered (metered_iff.2 (Nat.pos_of_ne_zero hne)))

/-! ### The failure is told -/

/-- The endpoint takes the failures of a company. -/
def Listens (eid companyId : ℕ) (s : Store) : Prop :=
  ∃ e ∈ s.webhooks.endpoints,
    e.id = eid ∧ e.companyId = companyId ∧ e.active = true ∧ "message.failed" ∈ e.events

/-- The call does not lose the failure of `m`: the update that turns a row to `failed` is answered,
and so are the two calls that tell it. -/
def Point.Tells (m : Message) : Point → Await → Prop
  | .updating tid p row, x => tid = m.telnyxMessageId → finalStatus p = .failed →
      row.status ≠ .failed → x.outcome ≠ .unheard
  | .listening tid _ _, x => tid = m.telnyxMessageId → x.heard = true
  | .enqueuing tid _ _ _, x => tid = m.telnyxMessageId → x.lands = true
  | .marking _, _ | .looking .., _ | .metering .., _ | .findingCustomer .., _ | .reporting .., _
  | .stamping .., _ => True

/-- The endpoint listens, and the move does not lose the failure of `m`. -/
def Telling (m : Message) (eid : ℕ) (s : State Store Point) :
    Input Event Await Webhooks.Deed → Prop
  | .step n x => Listens eid m.companyId s.store ∧ ∀ p ∈ s.running[n]?, p.Tells m x
  | .start _ | .crash _ | .world _ => Listens eid m.companyId s.store

def Tells (render : FailedNotice → String) (m : Message) (eid : ℕ) (d : Webhooks.Delivery) : Prop :=
  d.endpointId = eid ∧ d.companyId = m.companyId ∧ d.eventType = "message.failed" ∧
    ∃ p, d.payload.data = render (failedNotice m p)

def Told (render : FailedNotice → String) (m : Message) (eid : ℕ) (out : List Output) : Prop :=
  ∃ rows, .enqueued rows ∈ out ∧ ∃ d ∈ rows, Tells render m eid d

/-- A handler on its way to tell the endpoint. -/
def Teller (m : Message) (eid : ℕ) : Point → Prop
  | .listening tid _ _ => tid = m.telnyxMessageId
  | .enqueuing tid _ _ listeners => tid = m.telnyxMessageId ∧ ∃ e ∈ listeners, e.id = eid
  | .marking _ | .looking .. | .updating .. | .metering .. | .findingCustomer .. | .reporting ..
  | .stamping .. => False

/-- The failure has been told, or is about to be. -/
def Coming (render : FailedNotice → String) (m : Message) (eid : ℕ) (s : State Store Point)
    (out : List Output) : Prop :=
  Told render m eid out ∨ ∃ p ∈ s.running, Teller m eid p

theorem Told.append (h : Told render m eid out)
    (more : List Output) : Told render m eid (out ++ more) := by
  obtain ⟨rows, hrows, hd⟩ := h
  exact ⟨rows, List.mem_append_left _ hrows, hd⟩

theorem failedNotice_eq (h : row.column = m.column) (p : Payload) :
    failedNotice row p = failedNotice m p := by
  obtain ⟨hid, -, -, hconversation, -⟩ := column_eq h
  simp [failedNotice, hid, hconversation]

theorem teller_next (hroster : Roster m columns) (hp : Relies m columns E s p)
    (hcapped : s.webhooks.Capped) (hlistens : Listens eid m.companyId s) (htells : p.Tells m x)
    (hteller : Teller m eid p) :
    Told render m eid (next render s x p).2 ∨
      ∃ p', (next render s x p).1 = some p' ∧ Teller m eid p' := by
  cases p with
  | listening tid pl row =>
    right
    obtain ⟨e, he, heid, hcompany, hactive, hevents⟩ := hlistens
    have hcolumn := column_eq (hroster.of_carrierId hp.2.1.1 (hp.2.1.2.trans hteller))
    have hsub : e.subscribed (messageFailed render row pl) = true := by
      simp [Webhooks.Endpoint.subscribed, messageFailed, hcompany, hactive, hevents, hcolumn.2.2.1]
    have hmem := Webhooks.mem_listeners hcapped he hsub
    simp only [next, htells hteller]
    cases hls : s.webhooks.listeners (messageFailed render row pl) with
    | nil => exact absurd (hls ▸ hmem) List.not_mem_nil
    | cons e' es => exact ⟨_, rfl, hteller, e, hls ▸ hmem, heid⟩
  | enqueuing tid pl row listeners =>
    left
    obtain ⟨htid, e, he, heid⟩ := hteller
    have hcolumn := hroster.of_carrierId hp.2.1.1 (hp.2.1.2.trans htid)
    obtain ⟨id, hid⟩ := Webhooks.exists_mem_deliveriesFor x.now (messageFailed render row pl)
      s.webhooks.fresh he
    have hemitted : Output.enqueued (failedRows render s pl row listeners x.now) ∈
        (next render s x (.enqueuing tid pl row listeners)).2 := by
      simp [next, htells htid]
    refine ⟨_, hemitted, _, hid, ?_⟩
    refine ⟨heid, (column_eq hcolumn).2.2.1, rfl, pl, ?_⟩
    simp only [Webhooks.delivery, messageFailed]
    rw [failedNotice_eq hcolumn]
  | marking | looking | updating | metering | findingCustomer | reporting | stamping =>
    exact absurd hteller id

theorem Telling.listens {s : State Store Point}
    (h : Telling m eid s i) : Listens eid m.companyId s.store := by
  cases i with
  | step n x => exact h.1
  | start | crash | world => exact h

theorem coming_step {s : State Store Point} (hroster : Roster m columns)
    (hs : ∀ p ∈ s.running, Relies m columns E s.store p) (hcapped : s.store.webhooks.Capped)
    (hi : ∀ n, i ≠ .crash n) (htelling : Telling m eid s i) (h : Coming render m eid s out) :
    Coming render m eid (step (statusEvents render) s i).1
      (out ++ (step (statusEvents render) s i).2) := by
  rcases h with htold | ⟨p, hp, hteller⟩
  · exact .inl (htold.append _)
  cases i with
  | start e => exact .inr ⟨p, List.mem_append_left _ hp, hteller⟩
  | crash n => exact absurd rfl (hi n)
  | world d => exact .inr ⟨p, hp, hteller⟩
  | step n x =>
    rcases running_step (statusEvents render) hp n x with hmoves | hstays
    · simp only [step, hmoves]
      have hgoes : Told render m eid (next render s.store x p).2 ∨
          ∃ p', (next render s.store x p).1 = some p' ∧ Teller m eid p' :=
        teller_next hroster (hs p hp) hcapped htelling.listens (htelling.2 p hmoves) hteller
      rcases hgoes with ⟨rows, hrows, hd⟩ | ⟨p', hp', hteller'⟩
      · exact .inl ⟨rows, List.mem_append_right _ hrows, hd⟩
      · right
        have hn : n < s.running.length := (List.getElem?_eq_some_iff.1 hmoves).1
        simp only [statusEvents, hp']
        exact ⟨p', List.mem_set hn .., hteller'⟩
    · exact .inr ⟨p, hstays, hteller⟩

/-- A failure in sight, on the row or read off it. -/
structure InSight (m : Message) (s : State Store Point) (c : Prop) : Prop where
  row : ∀ row ∈ s.store.messages, row.telnyxMessageId = m.telnyxMessageId →
    row.status = .failed → c
  read : ∀ tid p row, .updating tid p row ∈ s.running → tid = m.telnyxMessageId →
    row.status = .failed → c

/-- A row that turns to `failed` has a handler that is about to tell it. -/
theorem coming_of_turns {s : State Store Point} {n : ℕ} (hroster : Roster m columns)
    (hout : m.direction = .outbound) (hp : s.running[n]? = some p)
    (hrelies : Relies m columns E s.store p) (htells : p.Tells m x)
    (hsight : InSight m s (Coming render m eid s out)) (hnot : ¬Coming render m eid s out)
    (hrow : row ∈ (call render s.store p x).messages)
    (htid : row.telnyxMessageId = m.telnyxMessageId) (hfailed : row.status = .failed) :
    ∃ p' ∈ (step (statusEvents render) s (.step n x)).1.running, Teller m eid p' := by
  have hn : n < s.running.length := (List.getElem?_eq_some_iff.1 hp).1
  have hlands : x.lands = true := by
    by_contra hno
    rw [call, if_neg hno] at hrow
    exact hnot (hsight.row row hrow htid hfailed)
  rcases mem_call_messages hrow with hold | ⟨tid, old, rfl, hold, -, -, -, rfl⟩ |
    ⟨tid, pl, read, old, rfl, hold, holdtid, rfl⟩
  · exact absurd (hsight.row row hold htid hfailed) hnot
  · simp at hfailed
  · obtain rfl : tid = m.telnyxMessageId := holdtid.symm.trans htid
    have hread : read.status ≠ .failed := fun hr =>
      hnot (hsight.read _ pl read (List.mem_of_getElem? hp) rfl hr)
    have hheard : x.heard = true := by
      have hne := htells rfl hfailed hread
      revert hlands hne
      cases hx : x.outcome <;> simp [Await.lands, Await.heard, hx]
    have hdir : read.direction = .outbound :=
      (column_eq (hroster.of_carrierId hrelies.2.1 hrelies.2.2)).2.2.2.2.trans hout
    have hfinal : finalStatus pl = .failed := hfailed
    refine ⟨.listening m.telnyxMessageId pl read, ?_, rfl⟩
    simp only [step, hp, statusEvents, next, hheard, if_true, afterUpdate, hdir, hfinal, hread,
      ne_eq, not_true_eq_false, not_false_eq_true, and_self, if_false]
    exact List.mem_set hn ..

theorem read_of_next {tid : ℕ} {pl : Payload}
    (h : (next render s x p).1 = some (.updating tid pl row)) :
    row ∈ s.messages ∧ row.telnyxMessageId = tid := by
  have hagain : ∀ e, some (enter e) ≠ some (Point.updating tid pl row) := by
    intro e
    cases e <;> simp [enter]
  cases p with
  | looking tid' pl' =>
    simp only [next] at h
    split at h
    · split at h
      · simp [finish] at h
      · rename_i hfind
        simp only [Option.some.injEq, Point.updating.injEq] at h
        obtain ⟨rfl, -, rfl⟩ := h
        exact ⟨List.mem_of_find?_eq_some hfind, by simpa using List.find?_some hfind⟩
    · exact absurd h (hagain _)
  | marking tid' | stamping tid' pl' row' usageEventId =>
    simp only [next] at h
    split at h
    · simp [finish] at h
    · exact absurd h (hagain _)
  | updating tid' pl' row' =>
    simp only [next, afterUpdate] at h
    split at h
    · split at h
      · simp [finish] at h
      · split at h <;> simp at h
    · exact absurd h (hagain _)
  | listening tid' pl' row' =>
    simp only [next] at h
    split at h <;> simp at h
  | enqueuing tid' pl' row' listeners => simp [next] at h
  | metering tid' pl' row' | findingCustomer tid' pl' row' usageEventId =>
    simp only [next] at h
    split at h
    · split at h <;> simp [finish] at h
    · exact absurd h (hagain _)
  | reporting tid' pl' row' usageEventId =>
    simp only [next] at h
    split at h <;> simp [finish] at h

/-- **A failure in sight is told, or about to be.** -/
theorem inSight_step {s : State Store Point} (hroster : Roster m columns)
    (hout : m.direction = .outbound) (hs : ∀ p ∈ s.running, Relies m columns E s.store p)
    (hcapped : s.store.webhooks.Capped) (hi : ∀ n, i ≠ .crash n) (htelling : Telling m eid s i)
    (h : InSight m s (Coming render m eid s out)) :
    InSight m (step (statusEvents render) s i).1
      (Coming render m eid (step (statusEvents render) s i).1
        (out ++ (step (statusEvents render) s i).2)) := by
  by_cases hcoming : Coming render m eid s out
  · have hstill := coming_step hroster hs hcapped hi htelling hcoming
    exact ⟨fun _ _ _ _ => hstill, fun _ _ _ _ _ _ => hstill⟩
  cases i with
  | start e =>
    refine ⟨fun row hrow htid hfailed => absurd (h.row row hrow htid hfailed) hcoming, ?_⟩
    intro tid p row hmem htid hfailed
    rcases List.mem_append.1 hmem with hmem | hmem
    · exact absurd (h.read tid p row hmem htid hfailed) hcoming
    · cases e <;> simp [statusEvents, enter] at hmem
  | crash n => exact absurd rfl (hi n)
  | world d =>
    exact ⟨fun row hrow htid hfailed => absurd (h.row row hrow htid hfailed) hcoming,
      fun tid p row hmem htid hfailed => absurd (h.read tid p row hmem htid hfailed) hcoming⟩
  | step n x =>
    cases hp : s.running[n]? with
    | none =>
      have hstep : step (statusEvents render) s (.step n x) = (s, []) := by simp [step, hp]
      rw [hstep]
      simpa using h
    | some p =>
      have hrelies := hs p (List.mem_of_getElem? hp)
      constructor
      · intro row hrow htid hfailed
        have hrow' : row ∈ (call render s.store p x).messages := by
          simpa only [step, hp, statusEvents] using hrow
        exact .inr (coming_of_turns hroster hout hp hrelies (htelling.2 p hp) h hcoming hrow'
          htid hfailed)
      · -- a row that is read as failed was failed in the table
        intro tid pl row hmem htid hfailed
        refine absurd ?_ hcoming
        rcases mem_running_step hmem with hmem | ⟨q, -, hnext⟩
        · exact h.read tid pl row hmem htid hfailed
        · obtain ⟨hrow, hrowtid⟩ := read_of_next hnext
          exact h.row row hrow (hrowtid.trans htid) hfailed

/-- What a run that loses none of its steps keeps. -/
structure Watched (render : FailedNotice → String) (m : Message)
    (columns : List (ℕ × ℕ × ℕ × Option ℕ × Direction)) (E : Event → Prop) (eid : ℕ)
    (s : State Store Point) (out : List Output) : Prop where
  sound : Sound (Kept m columns E) (Relies m columns E) (fun _ _ => True) s
  capped : s.store.webhooks.Capped
  sight : InSight m s (Coming render m eid s out)

theorem watched_step {s : State Store Point} (hroster : Roster m columns)
    (hout : m.direction = .outbound) (hi : ∀ n, i ≠ .crash n) (hdelivers : Delivers E s i)
    (htelling : Telling m eid s i) (h : Watched render m columns E eid s out) :
    Watched render m columns E eid (step (statusEvents render) s i).1
      (out ++ (step (statusEvents render) s i).2) where
  sound := ((nonInterfering render hroster).step h.sound hdelivers).1
  capped := by
    have hcap := h.capped
    cases i with
    | start | crash => exact hcap
    | world d => exact d.capped hcap
    | step n x =>
      cases hp : s.running[n]? with
      | none => simpa only [step, hp] using hcap
      | some p =>
        simp only [step, hp, statusEvents]
        exact capped_call hcap p x
  sight := inSight_step hroster hout h.sound.running h.capped hi htelling h.sight

/-- **A failure is told**: in a run that loses none of its steps, a message that has ended failed
has been told to every endpoint that listened throughout. -/
theorem failure_told (render : FailedNotice → String) (harrives : Arrives m s)
    (hcapped : s.webhooks.Capped) (hout : m.direction = .outbound) (hfresh : m.status ≠ .failed)
    (hretried : ∀ n, .crash n ∉ is)
    (htelling : Reactive.Along (step (statusEvents render)) (Telling m eid) ⟨s, []⟩ is)
    (hover : (Reactive.final (step (statusEvents render)) ⟨s, []⟩ is).running = [])
    (hrow : row ∈ (Reactive.final (step (statusEvents render)) ⟨s, []⟩ is).store.messages)
    (hcolumn : row.column = m.column) (hfailed : row.status = .failed) :
    Told render m eid (Reactive.outputs (step (statusEvents render)) ⟨s, []⟩ is) := by
  have hstart : Watched render m (s.messages.map Message.column) (fun e => .start e ∈ is) eid
      ⟨s, []⟩ [] := by
    refine ⟨harrives.sound, hcapped, ⟨fun row' hrow' htid hfailed' => ?_, by simp⟩⟩
    have hsame : row' = m := List.inj_on_of_nodup_map harrives.carrierIds hrow' harrives.mem htid
    exact absurd (hsame ▸ hfailed') hfresh
  have halong : Reactive.Along (step (statusEvents render)) (fun s' i => i ∈ is ∧ Telling m eid s' i)
      ⟨s, []⟩ is := by
    refine (Reactive.along_iff_prefix _ _ _ _).2 fun js i ks his => ⟨?_, ?_⟩
    · exact his ▸ List.mem_append_right _ (List.mem_cons_self ..)
    · exact (Reactive.along_iff_prefix _ _ _ _).1 htelling js i ks his
  have hwatched := Reactive.outputs_of_inv_along (step (statusEvents render))
    (fun s' i _ h hi => watched_step harrives.roster hout
      (fun n hn => hretried n (hn ▸ hi.1)) (delivers_of_mem hi.1 s') hi.2 h) hstart halong
  rcases hwatched.sight.row row hrow (column_eq hcolumn).2.1 hfailed with htold | ⟨p, hp, -⟩
  · exact htold
  · rw [hover] at hp
    exact absurd hp List.not_mem_nil

/-- **Whatever order the events of a message come in, and however often each is handled before it
is through, the message is settled in the end; and where no step loses its failure, every endpoint
that listened throughout has been told of it.** -/
theorem events_settled (render : FailedNotice → String) {s : Store} (harrives : Arrives m s)
    (hcapped : s.webhooks.Capped) {is : List (Input Event Await Webhooks.Deed)}
    (hretried : ∀ n, .crash n ∉ is)
    (hover : (Reactive.final (step (statusEvents render)) ⟨s, []⟩ is).running = []) :
    ∃ row, Settled m is (Reactive.final (step (statusEvents render)) ⟨s, []⟩ is).store row ∧
      ∀ eid, m.direction = .outbound → m.status ≠ .failed → row.status = .failed →
        Reactive.Along (step (statusEvents render)) (Telling m eid) ⟨s, []⟩ is →
        Told render m eid (Reactive.outputs (step (statusEvents render)) ⟨s, []⟩ is) := by
  obtain ⟨row, hsettled⟩ := message_settled render harrives hretried hover
  exact ⟨row, hsettled, fun eid hout hfresh hfailed htelling =>
    failure_told render harrives hcapped hout hfresh hretried htelling hover hsettled.mem
      hsettled.same hfailed⟩

/-- A queued text, an endpoint that listens, and a carrier that refuses. -/
def refusedText : Message where
  id := 1
  telnyxMessageId := 7
  companyId := 1
  conversationId := some 1
  direction := .outbound
  status := .queued
  segments := none
  encoding := none
  providerCost := none
  errorCode := none
  errorDetail := none

def textStore : Store where
  messages := [refusedText]
  usageEvents := []
  meterEvents := []
  stripeCustomers := []
  webhooks :=
    { Webhooks.Store.empty with endpoints := [.fresh 1 1 "url" "secret" ["message.failed"]] }

def refusal : Payload where
  recipients := [.deliveryFailed]
  errors := []
  parts := some 1
  encoding := none
  cost := none
  mms := false

def delivery : Payload := { refusal with recipients := [.delivered] }

def answered : Await := { outcome := .done, now := 0 }

def unanswered : Await := { outcome := .failed, now := 0 }

theorem refusedText_arrives : Arrives refusedText textStore :=
  ⟨by decide, by decide, by decide, by decide⟩

theorem textStore_capped : textStore.webhooks.Capped := by
  intro companyId
  exact (List.countP_le_length).trans (by decide)

/-- A sent event and a refusal, their handlers in turns, and no call fails. -/
def toldRun : List (Input Event Await Webhooks.Deed) :=
  [.start (.finalized 7 refusal), .start (.sent 7), .step 0 answered, .step 1 answered,
    .step 0 answered, .step 0 answered, .step 0 answered, .step 0 answered, .step 0 answered]

theorem events_settled_told :
    ∃ row, Settled refusedText toldRun
        (Reactive.final (step (statusEvents fun _ => "")) ⟨textStore, []⟩ toldRun).store row ∧
      ∀ eid, refusedText.direction = .outbound → refusedText.status ≠ .failed →
        row.status = .failed →
        Reactive.Along (step (statusEvents fun _ => "")) (Telling refusedText eid)
          ⟨textStore, []⟩ toldRun →
        Told (fun _ => "") refusedText eid
          (Reactive.outputs (step (statusEvents fun _ => "")) ⟨textStore, []⟩ toldRun) :=
  events_settled _ refusedText_arrives textStore_capped (by simp [toldRun]) (by decide +kernel)

/-- The enqueue of a failed text meets a failure, which is swallowed; and a text whose delivery has
been confirmed is marked failed by a later event. -/
theorem failure_untold_and_delivery_lost :
    ((Reactive.final (step (statusEvents fun _ => "")) ⟨textStore, []⟩
        [.start (.finalized 7 refusal), .step 0 answered, .step 0 answered, .step 0 unanswered,
          .step 0 answered, .step 0 answered]).running = [] ∧
      (Reactive.final (step (statusEvents fun _ => "")) ⟨textStore, []⟩
        [.start (.finalized 7 refusal), .step 0 answered, .step 0 answered, .step 0 unanswered,
          .step 0 answered, .step 0 answered]).store.messages.map (·.status) = [.failed] ∧
      (Reactive.final (step (statusEvents fun _ => "")) ⟨textStore, []⟩
        [.start (.finalized 7 refusal), .step 0 answered, .step 0 answered, .step 0 unanswered,
          .step 0 answered, .step 0 answered]).store.webhooks.deliveries = []) ∧
    (Reactive.final (step (statusEvents fun _ => "")) ⟨textStore, []⟩
        [.start (.finalized 7 delivery), .step 0 answered, .step 0 answered, .step 0 answered,
          .step 0 answered, .start (.finalized 7 refusal), .step 0 answered, .step 0 answered,
          .step 0 answered, .step 0 answered, .step 0 answered]).store.messages.map (·.status) =
      [.failed] := by
  decide +kernel

end MessageStatus
