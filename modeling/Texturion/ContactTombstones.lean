/-
**Tombstones and the one hop of the trigger.**

`follow_merged_contact` follows one forwarding address, "which is all it can ever need:
`api_merge_contacts` refuses to merge into a row that is itself merged, so chains cannot form".  It
refuses nothing about the tombstones that point at the contact it buries.  So the runs in which the
one hop is enough are exactly those that never merge away the survivor of an earlier merge, and two
merges build a chain.

Main result:

* `Contacts.sound_iff_along` — **the exact condition**, over every run.
-/

import Texturion.ContactRuns

namespace Contacts

open SqlTable OptOuts

/-- No tombstone forwards to a tombstone. -/
def OneHop (s : Store) : Prop :=
  ∀ c ∈ s.contacts, ∀ d ∈ s.contacts, c.mergedInto = some d.id → d.mergedInto = none

/-- The contact is there, and is not a tombstone. -/
def Live (s : Store) (id : Uuid) : Prop := ∃ d ∈ s.contacts, d.id = id ∧ d.mergedInto = none

/-- Tombstones are one hop, so that what is written with the id of a contact arrives at a contact
that is not a tombstone, and every tombstone has a survivor. -/
structure Sound (s : Store) : Prop where
  oneHop : OneHop s
  call : ∀ c ∈ s.contacts, ∀ id, ∀ call ∈ (s.writeCall id (some c.id)).calls, call.id = id →
    ∃ w, call.contactId = some w ∧ Live s w
  conversation : ∀ c ∈ s.contacts, ∀ phoneNumberId phone inserted,
    s.insertConversation phoneNumberId c.id phone = some inserted →
      ∀ d ∈ inserted.conversations, d.id = s.nextId → Live s d.contactId
  survivor : ∀ c ∈ s.contacts, ∀ w, c.mergedInto = some w → Live s w

/-! ### One hop is all that matters -/

variable {s : Store}

theorem OneHop.survivor (h : OneHop s) (hs : WellFormed s) {c : Contact} (hc : c ∈ s.contacts)
    {w : Uuid} (hw : c.mergedInto = some w) : Live s w := by
  obtain ⟨d, hd, rfl⟩ := hs.survivor c hc w hw
  exact ⟨d, hd, rfl, h c hc d hd hw⟩

theorem OneHop.follow (h : OneHop s) (hs : WellFormed s) {c : Contact}
    (hc : c ∈ s.contacts) : Live s (s.follow c.id) := by
  have hfind : s.find c.id = some c := hs.find_eq_some.2 ⟨hc, rfl⟩
  cases hmerged : c.mergedInto with
  | none =>
      rw [follow_of_live hfind hmerged]
      exact ⟨c, hc, rfl, hmerged⟩
  | some w =>
      have hfollow : s.follow c.id = w := by simp [Store.follow, hfind, hmerged]
      rw [hfollow]
      exact h.survivor hs hc hmerged

theorem sound_iff (hs : WellFormed s) : Sound s ↔ OneHop s := by
  refine ⟨fun h => h.oneHop, fun h => ⟨h, ?_, ?_, fun c hc w hw => h.survivor hs hc hw⟩⟩
  · intro c hc id call hcall hid
    rcases List.mem_append.1 hcall with hold | hnew
    · have hother := (List.mem_filter.1 hold).2
      simp [hid] at hother
    · obtain rfl := List.mem_singleton.1 hnew
      exact ⟨s.follow c.id, rfl, h.follow hs hc⟩
  · intro c hc phoneNumberId phone inserted hinserted d hd hid
    simp only [Store.insertConversation] at hinserted
    split at hinserted
    · cases hinserted
    · obtain rfl := Option.some.inj hinserted
      rcases List.mem_append.1 hd with hold | hnew
      · exact absurd hid (Nat.ne_of_lt (hs.conversationsOld d hold))
      · obtain rfl := List.mem_singleton.1 hnew
        exact h.follow hs hc

/-! ### What a step makes of it -/

theorem oneHop_links : OneHop s ↔ ∀ x ∈ links s, ∀ y ∈ links s, x.2 = some y.1 → y.2 = none := by
  constructor
  · intro h x hx y hy
    obtain ⟨c, hc, rfl⟩ := mem_links.1 hx
    obtain ⟨d, hd, rfl⟩ := mem_links.1 hy
    exact h c hc d hd
  · intro h c hc d hd
    exact h _ (mem_links_of_mem hc) _ (mem_links_of_mem hd)

/-- A merge does not bury a contact that a tombstone points at. -/
def BuriesNoSurvivor (s : Store) (i : ℤ × Event) : Prop :=
  ∀ actor fromId intoId, i.2 = .merge actor fromId intoId →
    (∃ a b, Mergeable s fromId intoId a b) → ∀ c ∈ s.contacts, c.mergedInto ≠ some fromId

theorem oneHop_mergeInto (hs : WellFormed s) (h : OneHop s) {fromId intoId : Uuid} {a b : Contact}
    (hmergeable : Mergeable s fromId intoId a b)
    (hfree : ∀ c ∈ s.contacts, c.mergedInto ≠ some fromId) (now : ℤ) (actor : Option Uuid) :
    OneHop (mergeInto now actor fromId intoId a b s) := by
  obtain ⟨hb, rfl⟩ := hs.find_eq_some.1 hmergeable.intoContact
  rw [oneHop_links, links_mergeInto]
  intro x hx y hy hxy
  rcases mem_update.1 hy with ⟨hy, hyid⟩ | ⟨y, -, hyid, rfl⟩
  · rcases mem_update.1 hx with ⟨hx, -⟩ | ⟨x, -, -, rfl⟩
    · exact oneHop_links.1 h x hx y hy hxy
    · -- the new tombstone points at the survivor
      obtain ⟨d, hd, rfl⟩ := mem_links.1 hy
      have hid : d.id = b.id := (Option.some.inj hxy).symm
      obtain rfl := List.inj_on_of_nodup_map hs.contactIds hd hb hid
      exact hmergeable.intoLive
  · have hyid' : y.1 = fromId := by simpa using hyid
    rcases mem_update.1 hx with ⟨hx, -⟩ | ⟨x, -, -, rfl⟩
    · obtain ⟨c, hc, rfl⟩ := mem_links.1 hx
      exact absurd (hxy.trans (congrArg some hyid')) (hfree c hc)
    · exact absurd ((Option.some.inj hxy).trans hyid').symm hmergeable.ne

/-- A merge that buries a survivor leaves a tombstone that forwards to a tombstone. -/
theorem not_oneHop_mergeInto (hs : WellFormed s) {fromId intoId : Uuid} {a b c : Contact}
    (hmergeable : Mergeable s fromId intoId a b) (hc : c ∈ s.contacts)
    (hpoints : c.mergedInto = some fromId) (now : ℤ) (actor : Option Uuid) :
    ¬OneHop (mergeInto now actor fromId intoId a b s) := by
  obtain ⟨ha, rfl⟩ := hs.find_eq_some.1 hmergeable.fromContact
  have hother : c.id ≠ a.id := by
    intro hid
    obtain rfl := List.inj_on_of_nodup_map hs.contactIds hc ha hid
    exact nomatch hpoints.symm.trans hmergeable.fromLive
  rw [oneHop_links, links_mergeInto]
  intro h
  have hburied := h _ (mem_update_of_not (mem_links_of_mem hc) (by simpa using hother))
    _ (mem_update_of (mem_links_of_mem ha) (by simp)) hpoints
  cases hburied

theorem oneHop_relinks {nextId : Uuid} {before after : List (Uuid × Option Uuid)}
    (h : ∀ x ∈ before, ∀ y ∈ before, x.2 = some y.1 → y.2 = none)
    (hstep : Relinks nextId before after) :
    ∀ x ∈ after, ∀ y ∈ after, x.2 = some y.1 → y.2 = none := by
  cases hstep with
  | keep => exact h
  | insert =>
      intro x hx y hy hxy
      rcases List.mem_append.1 hy with hy | hy
      · rcases List.mem_append.1 hx with hx | hx
        · exact h x hx y hy hxy
        · rw [List.mem_singleton.1 hx] at hxy
          cases hxy
      · rw [List.mem_singleton.1 hy]
  | unmerge id =>
      intro x hx y hy hxy
      rcases mem_update.1 hy with ⟨hy, -⟩ | ⟨y, -, -, rfl⟩
      · rcases mem_update.1 hx with ⟨hx, -⟩ | ⟨x, -, -, rfl⟩
        · exact h x hx y hy hxy
        · cases hxy
      · rfl
  | delete hfree =>
      intro x hx y hy hxy
      exact h x (List.mem_filter.1 hx).1 y (List.mem_filter.1 hy).1 hxy

theorem oneHop_step (hs : WellFormed s) (h : OneHop s) (i : ℤ × Event) :
    OneHop (step s i).1 ↔ BuriesNoSurvivor s i := by
  by_cases hmerge : ∃ actor fromId intoId, i.2 = .merge actor fromId intoId
  · obtain ⟨actor, fromId, intoId, hi⟩ := hmerge
    have hnext : (step s i).1 = (mergeContacts i.1 actor fromId intoId s).1 := by
      simp only [step, hi]
    have hself : BuriesNoSurvivor s i ↔ ((∃ a b, Mergeable s fromId intoId a b) →
        ∀ c ∈ s.contacts, c.mergedInto ≠ some fromId) := by
      refine ⟨fun hfree => hfree actor fromId intoId hi, ?_⟩
      intro hfree actor' from' into' hi'
      obtain ⟨rfl, rfl, rfl⟩ := Event.merge.inj (hi.symm.trans hi')
      exact hfree
    rw [hnext, hself]
    rcases mergeContacts_cases i.1 actor fromId intoId s with
      ⟨hsame, hrefused⟩ | ⟨a, b, hmergeable, hmerged⟩
    · rw [hsame]
      refine ⟨?_, fun _ => h⟩
      rintro - ⟨a, b, hmergeable⟩
      exact absurd hmergeable (hrefused a b)
    · rw [hmerged]
      constructor
      · intro hnext _ c hc hpoints
        exact not_oneHop_mergeInto hs hmergeable hc hpoints i.1 actor hnext
      · intro hfree
        exact oneHop_mergeInto hs h hmergeable (hfree ⟨a, b, hmergeable⟩) i.1 actor
  · refine ⟨fun _ actor fromId intoId hi => absurd ⟨actor, fromId, intoId, hi⟩ hmerge, fun _ => ?_⟩
    have hlinks := step_links hs (i := i) fun actor fromId intoId hi =>
      hmerge ⟨actor, fromId, intoId, hi⟩
    exact oneHop_links.2 (oneHop_relinks (oneHop_links.1 h) hlinks)

/-- **Tombstones are one hop, and what is written arrives at a contact that is not one, in exactly
the runs that bury no survivor.** -/
theorem sound_iff_along {s : Store} (hs : WellFormed s) (hstart : OneHop s)
    (run : List (ℤ × Event)) :
    (∀ pre post, run = pre ++ post → Sound (Reactive.final step s pre)) ↔
      Reactive.Along step BuriesNoSurvivor s run := by
  have hreached : ∀ pre, WellFormed (Reactive.final step s pre) :=
    Reactive.final_of_inv step (P := WellFormed) (fun _ i h => step_wellFormed h i) hs
  have hrule : (∀ pre post, run = pre ++ post → OneHop (Reactive.final step s pre)) ↔
      Reactive.Along step BuriesNoSurvivor s run :=
    Reactive.final_good_iff_along step (P := WellFormed) (fun _ i h => step_wellFormed h i)
      (fun _ i h hone => oneHop_step h hone i) hs hstart run
  rw [← hrule]
  exact forall_congr' fun pre => forall_congr' fun _ => imp_congr_right fun _ =>
    sound_iff (hreached pre)

/-! ### Two merges -/

/-- A contact with a number. -/
def person (id : Uuid) (phone : Phone) : Contact := .fresh id phone none none

def threeRecords : Store :=
  { Store.empty with
    contacts := [person 0 "+15550100", person 1 "+15550101", person 2 "+15550102"]
    nextId := 3 }

theorem wellFormed_threeRecords : WellFormed threeRecords := by
  constructor <;> simp [threeRecords, Store.empty, person, Contact.fresh, OpenOnce]

theorem oneHop_threeRecords : OneHop threeRecords := by
  simp [OneHop, threeRecords, person, Contact.fresh]

theorem sound_iff_along_unmerged :
    Sound (Reactive.final step threeRecords
      [(0, .merge none 0 2), (1, .merge none 1 2), (2, .unmerge 0)]) := by
  refine (sound_iff_along wellFormed_threeRecords oneHop_threeRecords _).2 ?_ _ []
    (List.append_nil _).symm
  refine ⟨?_, ?_, ?_, trivial⟩
  · rintro actor fromId intoId heq - c hc
    obtain ⟨-, rfl, -⟩ := Event.merge.inj heq
    revert c hc
    decide +kernel
  · rintro actor fromId intoId heq - c hc
    obtain ⟨-, rfl, -⟩ := Event.merge.inj heq
    revert c hc
    decide +kernel
  · intro actor fromId intoId heq
    cases heq

/-- **A chain**: the survivor of a merge is merged away. -/
theorem chain_of_merges :
    ¬OneHop (Reactive.final step threeRecords [(0, .merge none 0 1), (1, .merge none 1 2)]) := by
  intro h
  have hchain := h { person 0 "+15550100" with mergedInto := some 1 } (by decide +kernel)
    { person 1 "+15550101" with mergedInto := some 2 } (by decide +kernel) rfl
  cases hchain

end Contacts
