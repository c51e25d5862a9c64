/-
**The dials in flight.**

A dial is reported back as an event of its own, which waits in the journal behind whatever else is
there.  Until it is drained the leg's record has the key `leg:pending:` and a uuid, and no ccid.
This module says how the records and the journal fit together: every leg that is dialing has its
outcome in the journal, the outcome finds that leg and no other, and the ccids that are about to
land are not yet on any leg.  Dialing and adoption only happen when the journal holds a single
event, so neither meets a dial in flight.

Main result:

* `Calls.tracked_step`, `Calls.tracked_mint` — **every step keeps the dials in flight tracked.**
-/

import Texturion.CallLegs
import Texturion.CallSession
import Mathlib.Data.List.Nodup

namespace Calls

open FirstMatch

/-! ### Names -/

def SessionEvent.dialKey : SessionEvent → Option String
  | .dialOutcome key _ _ => some key
  | _ => none

def SessionEvent.landedCcid : SessionEvent → Option String
  | .dialOutcome _ ccid _ => truthy ccid
  | _ => none

def pendingKeys (journal : List SessionEvent) : List String :=
  journal.filterMap SessionEvent.dialKey

def landedCcids (journal : List SessionEvent) : List String :=
  journal.filterMap SessionEvent.landedCcid

/-- The uuids of a step are distinct, and none of them has named a leg before. -/
structure FreshUuids (legs : List LegRecord) (pendingKeyFor : ℕ → String) : Prop where
  injective : Function.Injective pendingKeyFor
  unused : ∀ k, ∀ leg ∈ legs, leg.key ≠ pendingKey (pendingKeyFor k)

/-- The ccids that events land are distinct, and none of them has named a leg before. -/
structure FreshCcids (legs : List LegRecord) (events : List SessionEvent) : Prop where
  nodup : (landedCcids events).Nodup
  unused : ∀ c ∈ landedCcids events, legKey c ∉ pendingKeys events ∧
    ∀ leg ∈ legs, leg.ccid ≠ some c ∧ leg.key ≠ legKey c

/-- The dials in flight: each dialing leg is waited for, by the outcome that will find it. -/
structure Tracked (legs : List LegRecord) (journal : List SessionEvent) : Prop where
  covered : ∀ leg ∈ legs, leg.status = .dialing → leg.key ∈ pendingKeys journal
  bare : ∀ leg ∈ legs, leg.key ∈ pendingKeys journal → leg.ccid = none
  keys : legs.Pairwise fun a b => a.status = .dialing ∨ b.status = .dialing → a.key ≠ b.key
  ccids : legs.Pairwise fun a b => a.ccid ≠ none → a.ccid ≠ b.ccid
  landed : FreshCcids legs journal

theorem legKey_injective : Function.Injective legKey := by
  intro a b h
  have hlist : "leg:".toList ++ a.toList = "leg:".toList ++ b.toList := by
    rw [← String.toList_append, ← String.toList_append]
    exact congrArg String.toList h
  exact String.toList_inj.1 (List.append_cancel_left hlist)

theorem pendingKey_injective : Function.Injective pendingKey := by
  intro a b h
  have hlist : "leg:pending:".toList ++ a.toList = "leg:pending:".toList ++ b.toList := by
    rw [← String.toList_append, ← String.toList_append]
    exact congrArg String.toList h
  exact String.toList_inj.1 (List.append_cancel_left hlist)

/-! ### The journal, read for dials -/

@[simp] theorem pendingKeys_nil : pendingKeys [] = [] := rfl

@[simp] theorem landedCcids_nil : landedCcids [] = [] := rfl

theorem pendingKeys_append (js ks : List SessionEvent) :
    pendingKeys (js ++ ks) = pendingKeys js ++ pendingKeys ks := List.filterMap_append

theorem landedCcids_append (js ks : List SessionEvent) :
    landedCcids (js ++ ks) = landedCcids js ++ landedCcids ks := List.filterMap_append

variable {e : SessionEvent} {key : String} {legs : List LegRecord}
  {journal rest es : List SessionEvent} {m : SessionMachine} {effects : List Effect}

theorem pendingKeys_cons_of_none (h : e.dialKey = none)
    (js : List SessionEvent) : pendingKeys (e :: js) = pendingKeys js :=
  List.filterMap_cons_none h

theorem landedCcid_eq_none (h : e.dialKey = none) : e.landedCcid = none := by
  cases e with
  | dialOutcome => cases h
  | _ => rfl

theorem landedCcids_cons_of_none (h : e.dialKey = none)
    (js : List SessionEvent) : landedCcids (e :: js) = landedCcids js :=
  List.filterMap_cons_none (landedCcid_eq_none h)

theorem landedCcids_eq_nil {js : List SessionEvent} (h : pendingKeys js = []) :
    landedCcids js = [] := by
  rw [pendingKeys, List.filterMap_eq_nil_iff] at h
  rw [landedCcids, List.filterMap_eq_nil_iff]
  exact fun e he => landedCcid_eq_none (h e he)

theorem mem_pendingKeys {js : List SessionEvent} :
    key ∈ pendingKeys js ↔ ∃ ccid failure, SessionEvent.dialOutcome key ccid failure ∈ js := by
  unfold pendingKeys
  rw [List.mem_filterMap]
  constructor
  · rintro ⟨e, he, hkey⟩
    cases e with
    | dialOutcome key' ccid failure =>
      obtain rfl : key' = key := by simpa [SessionEvent.dialKey] using hkey
      exact ⟨ccid, failure, he⟩
    | _ => cases hkey
  · rintro ⟨ccid, failure, h⟩
    exact ⟨_, h, rfl⟩

theorem freshCcids_of_none (h : pendingKeys journal = []) : FreshCcids legs journal := by
  have hnone := landedCcids_eq_nil h
  refine ⟨by rw [hnone]; exact List.nodup_nil, fun c hc => ?_⟩
  rw [hnone] at hc
  cases hc

theorem Tracked.congr {js ks : List SessionEvent} (h : Tracked legs js)
    (hkeys : pendingKeys ks = pendingKeys js) (hccids : landedCcids ks = landedCcids js) :
    Tracked legs ks where
  covered := by rw [hkeys]; exact h.covered
  bare := by rw [hkeys]; exact h.bare
  keys := h.keys
  ccids := h.ccids
  landed := ⟨by rw [hccids]; exact h.landed.nodup, by rw [hccids, hkeys]; exact h.landed.unused⟩

theorem Tracked.none_dialing (h : Tracked legs journal) (hnone : pendingKeys journal = []) :
    ∀ leg ∈ legs, leg.status ≠ .dialing := by
  intro leg hleg hdial
  have hkey := h.covered leg hleg hdial
  rw [hnone] at hkey
  cases hkey

/-! ### What the moves of the leg list keep -/

theorem Tracked.calm {l l' : List LegRecord} (h : Tracked l journal)
    (hcalm : LegsCalmer l l') : Tracked l' journal where
  covered := by
    intro leg hleg hdial
    obtain ⟨before, hmem, hc⟩ := exists_of_mem_right hcalm hleg
    have hstatus := hc.status_of_isUp (by rw [hdial]; rfl)
    rw [hc.key]
    exact h.covered before hmem (hstatus.trans hdial)
  bare := by
    intro leg hleg hkey
    obtain ⟨before, hmem, hc⟩ := exists_of_mem_right hcalm hleg
    rw [hc.ccid]
    exact h.bare before hmem (hc.key ▸ hkey)
  keys := by
    refine pairwise_of_forall₂ (fun a a' b b' ha hb hab hdial => ?_) hcalm h.keys
    rw [ha.key, hb.key]
    refine hab (hdial.imp (fun hd => ?_) fun hd => ?_)
    · exact (ha.status_of_isUp (by rw [hd]; rfl)).trans hd
    · exact (hb.status_of_isUp (by rw [hd]; rfl)).trans hd
  ccids := by
    refine pairwise_of_forall₂ (fun a a' b b' ha hb hab => ?_) hcalm h.ccids
    rw [ha.ccid, hb.ccid]
    exact hab
  landed := by
    refine ⟨h.landed.nodup, fun c hc => ⟨(h.landed.unused c hc).1, fun leg hleg => ?_⟩⟩
    obtain ⟨before, hmem, hcalm'⟩ := exists_of_mem_right hcalm hleg
    rw [hcalm'.ccid, hcalm'.key]
    exact (h.landed.unused c hc).2 before hmem

/-- Attaching the ccid of an event to a record, while no dial is in flight. -/
theorem Tracked.adopt (h : Tracked m.legs journal) (hnone : pendingKeys journal = [])
    {ccid : String} (hfind : m.findLeg ccid = none) (userId : String) (destination : Option String)
    {wake : LegStatus → LegStatus} (hwake : wake = id ∨ wake = wakeAmbiguous) :
    Tracked (adoptLeg m ccid userId destination wake).legs journal := by
  have hdial : ∀ leg ∈ (adoptLeg m ccid userId destination wake).legs,
      leg.status ≠ .dialing := by
    refine forall_mem_updateFirst _ _ (h.none_dialing hnone) fun leg _ _ hleg => ?_
    rcases hwake with rfl | rfl
    · exact hleg
    · unfold wakeAmbiguous
      simp only
      split_ifs
      · simp
      · exact hleg
  refine ⟨fun leg hleg hd => absurd hd (hdial leg hleg), fun leg _ hkey => ?_, ?_, ?_, ?_⟩
  · rw [hnone] at hkey
    cases hkey
  · exact List.Pairwise.imp_of_mem
      (fun ha hb _ hd => absurd hd (not_or.2 ⟨hdial _ ha, hdial _ hb⟩))
      (List.pairwise_of_forall fun (_ _ : LegRecord) => trivial)
  · have hother : ∀ leg ∈ m.legs, leg.ccid ≠ some ccid := findLeg_eq_none_iff.1 hfind
    rcases updateFirst_eq_or_split (adoptable userId destination)
      (fun candidate : LegRecord => { candidate with
        ccid := some ccid, key := legKey ccid, status := wake candidate.status }) m.legs with
      ⟨_, hl⟩ | ⟨a, l₁, l₂, _, _, _, hl, hu⟩
    · unfold adoptLeg
      rw [hl]
      exact h.ccids
    · have hpair := h.ccids
      unfold adoptLeg
      rw [hu]
      rw [hl] at hpair hother
      rw [List.pairwise_append, List.pairwise_cons] at hpair ⊢
      obtain ⟨h₁, ⟨_, h₂⟩, h₁₂⟩ := hpair
      refine ⟨h₁, ⟨fun b hb _ hc => ?_, h₂⟩, fun b hb c hc hne => ?_⟩
      · exact hother b (by simp [hb]) hc.symm
      · rcases List.mem_cons.1 hc with rfl | hc
        · exact hother b (by simp [hb])
        · exact h₁₂ b hb c (List.mem_cons_of_mem _ hc) hne
  · exact freshCcids_of_none hnone

/-- The outcome of a dial is dropped once no dialing leg waits for it. -/
theorem Tracked.drop {l : List LegRecord} (h : Tracked l (e :: rest))
    (hdone : ∀ leg ∈ l, leg.status = .dialing → e.dialKey ≠ some leg.key) : Tracked l rest := by
  have hkeys : ∀ key, key ∈ pendingKeys rest → key ∈ pendingKeys (e :: rest) := by
    intro key hkey
    obtain ⟨ccid, failure, hmem⟩ := mem_pendingKeys.1 hkey
    exact mem_pendingKeys.2 ⟨ccid, failure, List.mem_cons_of_mem _ hmem⟩
  have hlanded : (landedCcids rest).Sublist (landedCcids (e :: rest)) :=
    (List.sublist_cons_self e rest).filterMap _
  refine ⟨fun leg hleg hdial => ?_, fun leg hleg hkey => h.bare leg hleg (hkeys _ hkey), h.keys,
    h.ccids, h.landed.nodup.sublist hlanded, fun c hc => ?_⟩
  · obtain ⟨ccid, failure, hmem⟩ := mem_pendingKeys.1 (h.covered leg hleg hdial)
    rcases List.mem_cons.1 hmem with rfl | hmem
    · exact absurd rfl (hdone leg hleg hdial)
    · exact mem_pendingKeys.2 ⟨ccid, failure, hmem⟩
  · obtain ⟨hkey, hlegs⟩ := h.landed.unused c (hlanded.subset hc)
    exact ⟨fun hmem => hkey (hkeys _ hmem), hlegs⟩

/-- The leg that an outcome finds is the only one that may be dialing under its key. -/
theorem Tracked.others_not_dialing {l₁ l₂ : List LegRecord} {a : LegRecord}
    (h : Tracked (l₁ ++ a :: l₂) journal) :
    ∀ leg ∈ l₁ ++ l₂, leg.status = .dialing → leg.key ≠ a.key := by
  have hpair := h.keys
  rw [List.pairwise_append, List.pairwise_cons] at hpair
  obtain ⟨_, ⟨hafter, _⟩, hbefore⟩ := hpair
  intro leg hleg hdial
  rcases List.mem_append.1 hleg with hleg | hleg
  · exact hbefore leg hleg a (List.mem_cons_self ..) (Or.inl hdial)
  · exact (hafter leg hleg (Or.inr hdial)).symm

theorem Tracked.fail {ccid : Option String} {failure : Option DialFailure}
    (h : Tracked m.legs (.dialOutcome key ccid failure :: rest)) :
    Tracked (updateLegByKey m key (failLeg failure)).legs rest := by
  refine (h.calm (legsCalmer_failLeg m key failure)).drop fun leg hleg hdial hkey => ?_
  obtain rfl : key = leg.key := by simpa [SessionEvent.dialKey] using hkey
  have hfailed : ∀ b : LegRecord, (failLeg failure b).status ≠ .dialing := by
    intro b
    simp only [failLeg, failedStatus]
    split_ifs <;> simp
  rcases updateFirst_eq_or_split (fun entry : LegRecord => entry.key == leg.key)
    (failLeg failure) m.legs with ⟨hnone, hl⟩ | ⟨a, l₁, l₂, _, _, ha, hl, hu⟩
  · simp only [updateLegByKey, hl] at hleg
    exact List.find?_eq_none.1 hnone leg hleg (by simp)
  · rw [hl] at h
    simp only [updateLegByKey, hu] at hleg
    have hakey : a.key = leg.key := by simpa using ha
    rcases List.mem_append.1 hleg with hmem | hmem
    · exact h.others_not_dialing leg (List.mem_append_left _ hmem) hdial hakey.symm
    · rcases List.mem_cons.1 hmem with heq | hmem
      · rw [heq] at hdial
        exact hfailed a hdial
      · exact h.others_not_dialing leg (List.mem_append_right _ hmem) hdial hakey.symm

theorem Tracked.land {key c : String} {failure : Option DialFailure} {ccid : Option String}
    (hc : truthy ccid = some c) (h : Tracked m.legs (.dialOutcome key ccid failure :: rest)) :
    Tracked (updateLegByKey m key (landLeg c)).legs rest := by
  rcases updateFirst_eq_or_split (fun entry : LegRecord => entry.key == key) (landLeg c) m.legs with
    ⟨hnone, hl⟩ | ⟨a, l₁, l₂, _, _, ha, hl, hu⟩
  · simp only [updateLegByKey, hl]
    refine h.drop fun leg hleg _ hkey => ?_
    obtain rfl : key = leg.key := by simpa [SessionEvent.dialKey] using hkey
    exact List.find?_eq_none.1 hnone leg hleg (by simp)
  · obtain rfl : a.key = key := by simpa using ha
    have hlanded : landedCcids (.dialOutcome a.key ccid failure :: rest) =
        c :: landedCcids rest := List.filterMap_cons_some hc
    have hkeys : pendingKeys (.dialOutcome a.key ccid failure :: rest) =
        a.key :: pendingKeys rest := rfl
    have hfresh := h.landed.unused
    have hnodup := h.landed.nodup
    rw [hlanded] at hfresh hnodup
    rw [hkeys, hl] at hfresh
    rw [hl] at h
    obtain ⟨hckey, hclegs⟩ := hfresh c (List.mem_cons_self ..)
    have hmem : ∀ leg, leg ∈ l₁ ++ l₂ → leg ∈ l₁ ++ a :: l₂ := by
      intro leg hleg
      rcases List.mem_append.1 hleg with hleg | hleg
      · exact List.mem_append_left _ hleg
      · exact List.mem_append_right _ (List.mem_cons_of_mem _ hleg)
    have hsplit : ∀ leg, leg ∈ l₁ ++ landLeg c a :: l₂ → leg ∈ l₁ ++ l₂ ∨ leg = landLeg c a := by
      intro leg hleg
      rcases List.mem_append.1 hleg with hleg | hleg
      · exact Or.inl (List.mem_append_left _ hleg)
      · rcases List.mem_cons.1 hleg with rfl | hleg
        · exact Or.inr rfl
        · exact Or.inl (List.mem_append_right _ hleg)
    have hstatus : (landLeg c a).status ≠ .dialing := by
      unfold landLeg
      simp only
      split_ifs with hd
      · simp
      · exact hd
    simp only [updateLegByKey, hu]
    refine ⟨fun leg hleg hdial => ?_, fun leg hleg hkey => ?_, ?_, ?_, ?_, fun c' hc' => ?_⟩
    · rcases hsplit leg hleg with hleg | rfl
      · have hpending := h.covered leg (hmem leg hleg) hdial
        rw [hkeys] at hpending
        exact (List.mem_cons.1 hpending).resolve_left (h.others_not_dialing leg hleg hdial)
      · exact absurd hdial hstatus
    · rcases hsplit leg hleg with hleg | rfl
      · exact h.bare leg (hmem leg hleg) (by rw [hkeys]; exact List.mem_cons_of_mem _ hkey)
      · exact absurd (List.mem_cons_of_mem _ hkey) hckey
    · have hpair := h.keys
      rw [List.pairwise_append, List.pairwise_cons] at hpair ⊢
      obtain ⟨h₁, ⟨_, h₂⟩, h₁₂⟩ := hpair
      refine ⟨h₁, ⟨fun b hb hd => ?_, h₂⟩, fun b hb b' hb' hd => ?_⟩
      · exact ((hclegs b (hmem b (List.mem_append_right _ hb))).2).symm
      · rcases List.mem_cons.1 hb' with rfl | hb'
        · exact (hclegs b (hmem b (List.mem_append_left _ hb))).2
        · exact h₁₂ b hb b' (List.mem_cons_of_mem _ hb') hd
    · have hpair := h.ccids
      rw [List.pairwise_append, List.pairwise_cons] at hpair ⊢
      obtain ⟨h₁, ⟨_, h₂⟩, h₁₂⟩ := hpair
      refine ⟨h₁, ⟨fun b hb _ => ?_, h₂⟩, fun b hb b' hb' hne => ?_⟩
      · exact ((hclegs b (hmem b (List.mem_append_right _ hb))).1).symm
      · rcases List.mem_cons.1 hb' with rfl | hb'
        · exact (hclegs b (hmem b (List.mem_append_left _ hb))).1
        · exact h₁₂ b hb b' (List.mem_cons_of_mem _ hb') hne
    · exact hnodup.of_cons
    · obtain ⟨hkey', hlegs'⟩ := hfresh c' (List.mem_cons_of_mem _ hc')
      refine ⟨fun hkey => hkey' (List.mem_cons_of_mem _ hkey), fun leg hleg => ?_⟩
      rcases hsplit leg hleg with hleg | rfl
      · exact hlegs' leg (hmem leg hleg)
      · have hne : c ≠ c' := by
          rintro rfl
          exact (List.nodup_cons.1 hnodup).1 hc'
        exact ⟨by simpa [landLeg] using hne, fun hk => hne (legKey_injective hk)⟩

theorem Tracked.append {l : List LegRecord} {leg : LegRecord} (h : Tracked l [])
    (hccid : leg.ccid = none) (hkey : ∀ a ∈ l, a.key ≠ leg.key)
    (hes : ∀ key, key ∈ pendingKeys es ↔ key = leg.key) (hfresh : FreshCcids (l ++ [leg]) es) :
    Tracked (l ++ [leg]) es := by
  have hdial := h.none_dialing rfl
  refine ⟨fun a ha hd => ?_, fun a ha hk => ?_, ?_, ?_, hfresh⟩
  · rcases List.mem_append.1 ha with ha | ha
    · exact absurd hd (hdial a ha)
    · rw [List.mem_singleton.1 ha]
      exact (hes _).2 rfl
  · rcases List.mem_append.1 ha with ha | ha
    · exact absurd ((hes _).1 hk) (hkey a ha)
    · rw [List.mem_singleton.1 ha]
      exact hccid
  · refine List.pairwise_append.2 ⟨h.keys, List.pairwise_singleton _ _, fun a ha b hb _ => ?_⟩
    rw [List.mem_singleton.1 hb]
    exact hkey a ha
  · refine List.pairwise_append.2 ⟨h.ccids, List.pairwise_singleton _ _, fun a _ b hb hne => ?_⟩
    rw [List.mem_singleton.1 hb, hccid]
    exact hne

/-! ### Steps -/

theorem armRingStep_no_dial (m : SessionMachine) (nowMs : ℤ) (legs : List DialLeg) :
    Effect.telnyxDial legs ∉ armRingStep m nowMs := by
  unfold armRingStep
  split_ifs
  · simp
  · cases m.ringDeadlineMs with
    | none => simp
    | some deadline =>
      simp only
      split_ifs <;> simp

/-- **A dial effect** on a machine that exists comes with the record of its one leg. -/
theorem machineStep_dial {i : Input} {legs : List DialLeg}
    (h : Effect.telnyxDial legs ∈ (machineStep m i).2) :
    ∃ leg, legs = [leg.toDialLeg] ∧ (machineStep m i).1.legs = m.legs ++ [leg] ∧
      leg.key = pendingKey (i.pendingKeyFor 0) ∧ leg.ccid = none ∧ i.event.dials = true ∧
      m.state = .ringing := by
  have hmay := machineStep_mayEmit m i _ h
  unfold machineStep reduceMachine at h ⊢
  cases hevent : i.event with
  | ringMe userId sipUsername noLocalLeg =>
    simp only [hevent, reduceRingMe] at h ⊢
    cases hrefusal : ringMeRefusal m userId noLocalLeg i.nowMs with
    | some reason =>
      simp only [hrefusal] at h
      split_ifs at h
      · simp [ringMeCapWarning] at h
      · cases h
    | none =>
      simp only [hrefusal, List.mem_singleton, Effect.telnyxDial.injEq] at h
      have hring : m.state = .ringing := by
        by_contra hne
        simp [ringMeRefusal, hne] at hrefusal
      exact ⟨_, h, rfl, rfl, rfl, rfl, hring⟩
  | alarmRingStep =>
    simp only [hevent, quiet] at h ⊢
    rcases reduceAlarmRingStep_cases m i.nowMs i.pendingKeyFor with
      hr | ⟨_, _, hr⟩ | ⟨target, rest, hring, _, ⟨_, hr⟩ | ⟨_, hr⟩⟩
    · rw [hr] at h
      cases h
    · rw [hr] at h
      have hladder := runAvenueLadder_within { m with queuedTargets := [] } _ h
      cases hladder
    · rw [hr] at h
      cases h
    · rw [hr] at h ⊢
      rcases List.mem_cons.1 h with h | h
      · exact ⟨_, by simpa using h, rfl, rfl, rfl, rfl, hring⟩
      · exact absurd h (armRingStep_no_dial _ _ legs)
  | _ => rw [hevent] at hmay; cases hmay

/-- The follow-ups of a step's effects: each comes from one of them, and every dial reports. -/
structure ReportsOf (effects : List Effect) (es : List SessionEvent) : Prop where
  from_effect : ∀ event ∈ es, ∃ customerCcid, ∃ e ∈ effects, followsUp customerCcid e event = true
  covers : ∀ legs, Effect.telnyxDial legs ∈ effects → ∀ leg ∈ legs, leg.pendingKey ∈ pendingKeys es

theorem executeAll_reportsOf (s : Shell) (effects : List Effect) (answers : ℕ → Answers) :
    ReportsOf effects (executeAll s effects answers).2 := by
  refine ⟨fun event hevent => ⟨_, followsUp_of_mem hevent⟩, fun legs hlegs leg hleg => ?_⟩
  obtain ⟨answer, hmem⟩ := dialOutcome_mem_executeAll s answers hlegs hleg
  cases answer with
  | landed | failed => exact mem_pendingKeys.2 ⟨_, _, hmem⟩

theorem ReportsOf.dial_of_mem (h : ReportsOf effects es) (hplacer : ∀ key userId target,
      Effect.telnyxDialPlacer key userId target ∉ effects) (hkey : key ∈ pendingKeys es) :
    ∃ legs, Effect.telnyxDial legs ∈ effects ∧ ∃ leg ∈ legs, leg.pendingKey = key := by
  obtain ⟨ccid, failure, hmem⟩ := mem_pendingKeys.1 hkey
  obtain ⟨_, e, he, hfollows⟩ := h.from_effect _ hmem
  cases e with
  | telnyxDial legs =>
    obtain ⟨leg, hleg, hk⟩ := List.any_eq_true.1 hfollows
    exact ⟨legs, he, leg, hleg, by simpa using hk⟩
  | telnyxDialPlacer k userId target => exact absurd he (hplacer k userId target)
  | telnyxHangup ccid terminal => cases terminal <;> cases hfollows
  | _ => cases hfollows

theorem ReportsOf.pendingKeys_eq_nil (h : ReportsOf effects es)
    (hplacer : ∀ key userId target, Effect.telnyxDialPlacer key userId target ∉ effects)
    (hdial : ∀ legs, Effect.telnyxDial legs ∉ effects) : pendingKeys es = [] := by
  refine List.eq_nil_iff_forall_not_mem.2 fun key hkey => ?_
  obtain ⟨legs, hlegs, _⟩ := h.dial_of_mem hplacer hkey
  exact hdial legs hlegs

theorem machineStep_no_placer (m : SessionMachine) (i : Input) (key userId target : String) :
    Effect.telnyxDialPlacer key userId target ∉ (machineStep m i).2 := by
  intro h
  have hmay := machineStep_mayEmit m i _ h
  cases hevent : i.event <;> rw [hevent] at hmay <;> cases hmay

/-- The events that an executed effect may report. -/
def SessionEvent.isOutcome : SessionEvent → Bool
  | .answerOutcome .. | .noticeAnswerOutcome _ | .vmAnswerOutcome _ | .pushFanoutSettled _
  | .dialOutcome .. | .memberProbeOutcome .. | .inboundLegGone => true
  | _ => false

theorem not_isOutcome_of_dials (h : e.dials = true) : e.isOutcome = false ∧ e.dialKey = none := by
  cases e with
  | ringMe | alarmRingStep => exact ⟨rfl, rfl⟩
  | _ => cases h

theorem not_isOutcome_of_memberLeg {leg : String × String}
    (h : e.memberLeg = some leg) : e.isOutcome = false := by
  cases e with
  | memberLegAnswered | memberLegHangup => rfl
  | _ => cases h

theorem isOutcome_of_followsUp {customerCcid : Option String} {e : Effect} {event : SessionEvent}
    (h : followsUp customerCcid e event = true) : event.isOutcome = true := by
  cases event with
  | answerOutcome | noticeAnswerOutcome | vmAnswerOutcome | pushFanoutSettled | dialOutcome
  | memberProbeOutcome | inboundLegGone => rfl
  | _ =>
    cases e with
    | telnyxHangup ccid terminal => cases terminal <;> cases h
    | _ => cases h

theorem isOutcome_of_reportsOf (h : ReportsOf effects es) : ∀ e ∈ es, e.isOutcome = true := by
  intro e he
  obtain ⟨_, _, _, hfollows⟩ := h.from_effect e he
  exact isOutcome_of_followsUp hfollows

def Orderly (journal : List SessionEvent) : Prop :=
  (∃ e, journal = [e]) ∨ ∀ e ∈ journal, e.isOutcome = true

theorem Orderly.rest_eq_nil (h : Orderly (e :: rest)) (he : e.isOutcome = false) : rest = [] := by
  rcases h with ⟨e', hj⟩ | hall
  · exact (List.cons.inj hj).2
  · rw [hall e (List.mem_cons_self ..)] at he
    cases he

theorem Orderly.drain (h : Orderly (e :: rest))
    (hes : ∀ e ∈ es, e.isOutcome = true) : Orderly (rest ++ es) := by
  right
  intro e' he'
  rcases List.mem_append.1 he' with he' | he'
  · rcases h with ⟨_, hj⟩ | hall
    · rw [(List.cons.inj hj).2] at he'
      cases he'
    · exact hall e' (List.mem_cons_of_mem _ he')
  · exact hes e' he'

/-- **Every step of an inbound machine keeps the dials in flight tracked**, as long as the names
it brings in are new. -/
theorem tracked_step {i : Input} (hdir : m.direction = .inbound)
    (h : Tracked m.legs (i.event :: rest)) (horder : Orderly (i.event :: rest))
    (hes : ReportsOf (machineStep m i).2 es) (huuid : FreshUuids m.legs i.pendingKeyFor)
    (hccid : FreshCcids (machineStep m i).1.legs es) :
    Tracked (machineStep m i).1.legs (rest ++ es) := by
  by_cases hdial : ∃ legs, Effect.telnyxDial legs ∈ (machineStep m i).2
  · -- the step dials: it drains the only event of the journal
    obtain ⟨legs, hlegs⟩ := hdial
    obtain ⟨leg, rfl, happend, hkey, hnone, hdials, _⟩ := machineStep_dial hlegs
    obtain ⟨hhead, hdialKey⟩ := not_isOutcome_of_dials hdials
    rw [horder.rest_eq_nil hhead] at h ⊢
    rw [List.nil_append]
    rw [happend] at hccid ⊢
    have hbefore : Tracked m.legs [] := h.drop fun _ _ _ => by rw [hdialKey]; simp
    refine hbefore.append hnone (fun a ha => ?_) (fun key => ?_) hccid
    · rw [hkey]
      exact huuid.unused 0 a ha
    · constructor
      · intro hmem
        obtain ⟨legs', hlegs', leg', hleg', rfl⟩ :=
          hes.dial_of_mem (machineStep_no_placer m i) hmem
        obtain ⟨other, rfl, happend', _⟩ := machineStep_dial hlegs'
        rw [happend] at happend'
        obtain rfl : leg = other := by simpa using happend'
        rw [List.mem_singleton.1 hleg']
        rfl
      · rintro rfl
        exact hes.covers _ hlegs _ (List.mem_singleton_self _)
  · -- the step dials nothing: only the journal before it matters
    have hnone : pendingKeys es = [] := hes.pendingKeys_eq_nil (machineStep_no_placer m i)
      fun legs hlegs => hdial ⟨legs, hlegs⟩
    have hafter : ∀ {l}, Tracked l rest → Tracked l (rest ++ es) := fun {l} hl => hl.congr
      (by rw [pendingKeys_append, hnone, List.append_nil])
      (by rw [landedCcids_append, landedCcids_eq_nil hnone, List.append_nil])
    apply hafter
    cases hkey : i.event.dialKey with
    | some key =>
      obtain ⟨ccid, failure, hevent⟩ : ∃ ccid failure,
          i.event = .dialOutcome key ccid failure := by
        cases hevent : i.event <;> rw [hevent] at hkey <;> cases hkey
        exact ⟨_, _, rfl⟩
      rw [hevent] at h
      have hstep : (machineStep m i).1 =
          (reduceDialOutcome m key ccid failure i.nowMs).1 := by
        unfold machineStep reduceMachine
        rw [hevent]
        rfl
      rw [hstep]
      rcases reduceDialOutcome_cases m key ccid failure i.nowMs with
        ⟨hfind, hr⟩ | ⟨_, _, ⟨c, hc, hr⟩ | ⟨_, _, hr⟩ | ⟨_, hout, _⟩ | ⟨_, hout, _⟩⟩
      · rw [hr]
        refine h.drop fun leg hleg _ hk => ?_
        obtain rfl : key = leg.key := by simpa [SessionEvent.dialKey] using hk
        exact List.find?_eq_none.1 hfind leg hleg (by simp)
      · rw [hr]
        exact h.land hc
      · rw [hr, runAvenueLadder_legs]
        exact h.fail
      · rw [hdir] at hout
        cases hout
      · rw [hdir] at hout
        cases hout
    | none =>
      have hrest : Tracked m.legs rest := h.drop fun _ _ _ => by rw [hkey]; simp
      have hmove := machineStep_legs i hdir
      generalize (machineStep m i).1.legs = l at hmove
      cases hmove with
      | calm hcalm => exact hrest.calm hcalm
      | adopt hevent _ hfind hwake hcalm =>
        have hhead := not_isOutcome_of_memberLeg hevent
        rw [horder.rest_eq_nil hhead] at hrest ⊢
        exact (hrest.adopt rfl hfind _ _ hwake).calm hcalm
      | land hevent =>
        rw [hevent] at hkey
        cases hkey
      | append _ _ _ _ _ hmem => exact absurd ⟨_, hmem⟩ hdial

/-! ### The mint -/

theorem mint_legs (context : InitiatedContext) (nowMs : ℤ) (pendingKeyFor : ℕ → String) :
    (reduceInitiated context nowMs pendingKeyFor).1.legs = [] ∨
      (reduceInitiated context nowMs pendingKeyFor).1.legs =
          ((ringNow context).zipIdx.map fun target =>
            dialLegFor target.1 nowMs (pendingKeyFor target.2)) ∧
        Effect.telnyxDial ((reduceInitiated context nowMs pendingKeyFor).1.legs.map
          LegRecord.toDialLeg) ∈ (reduceInitiated context nowMs pendingKeyFor).2 := by
  unfold reduceInitiated initiatedBranch
  split_ifs
  · exact Or.inl rfl
  · exact Or.inl rfl
  · exact Or.inl rfl
  · exact Or.inl rfl
  · by_cases hlegs : (ringStart context nowMs pendingKeyFor).1.legs = []
    · exact Or.inl hlegs
    · refine Or.inr ⟨rfl, List.mem_cons_of_mem _ ?_⟩
      have hpos : (ringStart context nowMs pendingKeyFor).1.legs.length > 0 :=
        List.length_pos_iff.2 hlegs
      unfold ringStart at hpos ⊢
      simp only at hpos ⊢
      rw [if_pos hpos]
      simp only [List.mem_append]
      exact Or.inl (Or.inl (Or.inr (List.mem_singleton_self _)))

/-- **The mint's dials are tracked.** -/
theorem tracked_mint (context : InitiatedContext) (nowMs : ℤ) {pendingKeyFor : ℕ → String}
    (hes : ReportsOf (reduceInitiated context nowMs pendingKeyFor).2 es)
    (huuid : Function.Injective pendingKeyFor)
    (hccid : FreshCcids (reduceInitiated context nowMs pendingKeyFor).1.legs es) :
    Tracked (reduceInitiated context nowMs pendingKeyFor).1.legs es := by
  rcases mint_legs context nowMs pendingKeyFor with hnone | ⟨hlegs, hdial⟩
  · rw [hnone] at hccid ⊢
    exact ⟨by simp, by simp, List.Pairwise.nil, List.Pairwise.nil, hccid⟩
  · have hbare : ∀ leg ∈ (reduceInitiated context nowMs pendingKeyFor).1.legs,
        leg.ccid = none := by
      rw [hlegs]
      intro leg hleg
      obtain ⟨target, _, rfl⟩ := List.mem_map.1 hleg
      rfl
    have hkeys : ((reduceInitiated context nowMs pendingKeyFor).1.legs.map LegRecord.key).Nodup := by
      have hindices : ((ringNow context).zipIdx.map Prod.snd).Nodup := by
        rw [List.zipIdx_map_snd]
        exact List.nodup_range'
      rw [hlegs, List.map_map]
      have hmap := List.Nodup.map (pendingKey_injective.comp huuid) hindices
      rw [List.map_map] at hmap
      exact hmap
    refine ⟨fun leg hleg _ => ?_, fun leg hleg _ => hbare leg hleg, ?_, ?_, hccid⟩
    · exact hes.covers _ hdial leg.toDialLeg (List.mem_map_of_mem hleg)
    · exact (List.pairwise_map.1 hkeys).imp fun {a b} hne
        (_ : a.status = .dialing ∨ b.status = .dialing) => hne
    · refine List.Pairwise.imp_of_mem (fun ha _ _ hne => absurd (hbare _ ha) hne)
        (List.pairwise_of_forall fun (_ _ : LegRecord) => trivial)

end Calls
