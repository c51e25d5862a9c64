/-
**No phone left ringing.**

The dial of a phone comes back as an event of its own, perhaps long after the answer, the decline
or the alarm that ended the ring, so whether a phone is left ringing is a fact about the object and
not about one step of the machine.  The invariant is that the dials in flight are tracked by the
journal and that outside `ringing` no leg is up, but for the one moment between the ring alarm and
the outcome of the voicemail answer, which cancels whatever is still up.

Main result:

* `Calls.no_phone_left_ringing` — **at every quiescent point no leg is dialing, none is up outside
  the ring, and every leg that was ringing when the ring ended is hung up, dead or the winner.**
-/

import Texturion.CallDials

namespace Calls

/-! ### Fresh names -/

def Session.legs (s : Session) : List LegRecord := (s.machine.map SessionMachine.legs).getD []

/-- What a drain puts on the journal. -/
def Session.reported (s : Session) (a : Action) : List SessionEvent :=
  (sessionStep s a).1.journal.drop (s.journal.length - 1)

/-- The uuids that a drain hands out and the ccids that its dials come back with are new. -/
def FreshNames (s : Session) (a : Action) : Prop :=
  match a with
  | .drain _ _ pendingKeyFor _ =>
      FreshUuids s.legs pendingKeyFor ∧ FreshCcids (sessionStep s a).1.legs (s.reported a)
  | _ => True

/-! ### The invariant -/

/-- Outside the ring no leg is up, but for the moment between the ring alarm and the outcome of
the voicemail answer. -/
def RingOver (m : SessionMachine) (journal : List SessionEvent) : Prop :=
  m.state = .ringing ∨ NoneUp m ∨
    (m.state = .voicemailGreeting ∧ ∃ ok, journal = [.vmAnswerOutcome ok])

structure Steady (m : SessionMachine) (journal : List SessionEvent) : Prop where
  inbound : m.direction = .inbound
  caller : ∃ c, truthy m.customerCcid = some c
  orderly : Orderly journal
  tracked : Tracked m.legs journal
  ended : RingOver m journal

variable {m : SessionMachine} {c : String} {i : Input} {rest : List SessionEvent}

theorem Steady.raise {event : SessionEvent} (h : Steady m [])
    (hevent : event.dialKey = none) : Steady m [event] where
  inbound := h.inbound
  caller := h.caller
  orderly := Or.inl ⟨event, rfl⟩
  tracked := h.tracked.congr (pendingKeys_cons_of_none hevent [])
    (landedCcids_cons_of_none hevent [])
  ended := by
    rcases h.ended with h | h | ⟨_, _, hj⟩
    · exact Or.inl h
    · exact Or.inr (Or.inl h)
    · cases hj

/-! ### One step of the machine -/

/-- The follow-ups of the ring alarm: the outcome of the voicemail answer and nothing else. -/
theorem vmEntry_reports (hc : truthy m.customerCcid = some c) (s : Shell) (answers : ℕ → Answers) :
    ∃ ok, (executeAll s (vmEntry m).2 answers).2 = [.vmAnswerOutcome ok] := by
  have hne : c ≠ "" := (truthy_eq_some.1 hc).2
  refine ⟨(answers 3).ok, ?_⟩
  simp [executeAll, withAnswers, vmEntry, ifTruthy_of_some hc, execute, hne]

theorem reduceVmAnswerOutcome_cancels (ok : Bool) (nowMs : ℤ)
    (hstate : m.state = .voicemailGreeting) :
    NoneUp (reduceVmAnswerOutcome m ok nowMs).1 ∧
      ∀ leg ∈ m.legs, leg.status.isUp = true → ∀ c, truthy leg.ccid = some c →
        Effect.telnyxHangup c true ∈ (reduceVmAnswerOutcome m ok nowMs).2 := by
  unfold reduceVmAnswerOutcome
  rw [if_neg (by rw [hstate]; decide)]
  split_ifs
  · refine ⟨fun leg hleg => ?_, fun leg hleg hup c hc => List.mem_append_right _ ?_⟩
    · obtain ⟨before, _, rfl⟩ := List.mem_map.1 hleg
      exact cancelLeg_not_isUp true before
    · exact mem_sweepLegs.2 ⟨leg, hleg, mem_cancelLeg.2 ⟨hup, c, hc, rfl⟩⟩
  · refine ⟨fun leg hleg => ?_, fun leg hleg hup c hc => ?_⟩
    · rw [terminalize_legs] at hleg
      obtain ⟨before, _, rfl⟩ := List.mem_map.1 hleg
      exact terminalLeg_not_isUp _ before
    · exact mem_terminalize_of_mem_terminalSweep (hangup_mem_terminalSweep hleg hup hc)

section

variable (h : Steady m (i.event :: rest))
include h

/-- **The end of the ring, in one step**: a machine that is steady keeps ringing, or leaves no leg
up, or has just heard the ring alarm. -/
theorem steady_ringEnds (hring : m.state = .ringing)
    (halarm : i.event ≠ .alarmRing) : RingEnds m i.event (machineStep m i) := by
  refine machineStep_ringEnds i hring h.inbound h.tracked.ccids ?_ halarm
  intro key ccid failure hevent leg hleg hkey
  refine h.tracked.bare leg hleg (mem_pendingKeys.2 ⟨ccid, failure, ?_⟩)
  rw [hkey, ← hevent]
  exact List.mem_cons_self ..

theorem ringOver_step (s : Shell) (answers : ℕ → Answers) :
    RingOver (machineStep m i).1 (rest ++ (executeAll s (machineStep m i).2 answers).2) := by
  by_cases hring : m.state = .ringing
  · by_cases halarm : i.event = .alarmRing
    · right; right
      have hstep : machineStep m i = vmEntry m := by
        simp [machineStep, reduceMachine, halarm, quiet, reduceAlarmRing, hring]
      have hrest : rest = [] := h.orderly.rest_eq_nil (by rw [halarm]; rfl)
      obtain ⟨c, hc⟩ := h.caller
      obtain ⟨ok, hok⟩ := vmEntry_reports hc s answers
      rw [hstep, hrest, hok]
      exact ⟨rfl, ok, rfl⟩
    · rcases steady_ringEnds h hring halarm with hstill | ⟨hdown, _⟩
      · exact Or.inl hstill
      · exact Or.inr (Or.inl hdown)
  · right; left
    rcases h.ended with habs | hdown | ⟨hstate, ok, hj⟩
    · exact absurd habs hring
    · exact machineStep_noneUp i h.inbound hring hdown
    · have hstep : (machineStep m i).1 = (reduceVmAnswerOutcome m ok i.nowMs).1 := by
        simp [machineStep, reduceMachine, (List.cons.inj hj).1, quiet]
      rw [hstep]
      exact (reduceVmAnswerOutcome_cancels ok i.nowMs hstate).1

theorem steady_step (s : Shell) (answers : ℕ → Answers) (huuid : FreshUuids m.legs i.pendingKeyFor)
    (hccid : FreshCcids (machineStep m i).1.legs
      (executeAll s (machineStep m i).2 answers).2) (count : ℕ) :
    Steady ((machineStep m i).1.withCount count)
      (rest ++ (executeAll s (machineStep m i).2 answers).2) := by
  have hreports := executeAll_reportsOf s (machineStep m i).2 answers
  have hid := machineStep_identity m i
  exact
    { inbound := (identity_direction hid).trans h.inbound
      caller := (congrArg (fun x => ∃ c, truthy x = some c) (identity_customerCcid hid)).mpr h.caller
      orderly := h.orderly.drain (isOutcome_of_reportsOf hreports)
      tracked := tracked_step h.inbound h.tracked h.orderly hreports huuid hccid
      ended := ringOver_step h s answers }

end

theorem steady_mint {context : InitiatedContext} {nowMs : ℤ} {pendingKeyFor : ℕ → String}
    (hcaller : context.inboundCcid ≠ "") (s : Shell) (answers : ℕ → Answers)
    (huuid : Function.Injective pendingKeyFor)
    (hccid : FreshCcids (reduceInitiated context nowMs pendingKeyFor).1.legs
      (executeAll s (reduceInitiated context nowMs pendingKeyFor).2 answers).2) (count : ℕ) :
    Steady ((reduceInitiated context nowMs pendingKeyFor).1.withCount count)
      (executeAll s (reduceInitiated context nowMs pendingKeyFor).2 answers).2 := by
  have hreports := executeAll_reportsOf s (reduceInitiated context nowMs pendingKeyFor).2 answers
  have hstart : ∃ m : SessionMachine, (reduceInitiated context nowMs pendingKeyFor).1 = m ∧
      m.direction = .inbound ∧ m.customerCcid = some context.inboundCcid ∧
        (m.state = .ringing ∨ m.legs = []) := by
    refine ⟨_, rfl, ?_⟩
    unfold reduceInitiated initiatedBranch
    split_ifs
    · exact ⟨rfl, rfl, Or.inr rfl⟩
    · exact ⟨rfl, rfl, Or.inl rfl⟩
    · exact ⟨rfl, rfl, Or.inl rfl⟩
    · exact ⟨rfl, rfl, Or.inr rfl⟩
    · exact ⟨rfl, rfl, Or.inl rfl⟩
  obtain ⟨m, hm, hdir, hcust, hring⟩ := hstart
  have htracked := tracked_mint context nowMs hreports huuid hccid
  rw [hm] at htracked ⊢
  refine ⟨hdir, ⟨context.inboundCcid, ?_⟩, Or.inr (isOutcome_of_reportsOf hreports), htracked, ?_⟩
  · show truthy m.customerCcid = _
    rw [hcust]
    exact truthy_some hcaller
  · rcases hring with hring | hnone
    · exact Or.inl hring
    · right; left
      intro leg hleg
      have hmem : leg ∈ m.legs := hleg
      rw [hnone] at hmem
      cases hmem

/-! ### The invariant along a run -/

theorem Session.legs_some {s : Session} (hm : s.machine = some m) : s.legs = m.legs := by
  unfold Session.legs
  rw [hm]
  rfl

theorem dialKey_eq_none_of_isRaised {e : SessionEvent} (h : e.isRaised = true) :
    e.dialKey = none := by
  cases e with
  | dialOutcome => cases h
  | _ => rfl

/-- **The invariant holds along every run.** -/
theorem steady_run (r : SessionRun) (hcaller : r.context.inboundCcid ≠ "")
    (hfresh : Reactive.Along sessionStep FreshNames (.start r.context) r.actions) :
    r.session.Holds Steady r.context := by
  refine Session.holds_run (fun m event hevent h => h.raise (dialKey_eq_none_of_isRaised hevent))
    ?_ ?_ r.actions hfresh
  · rintro s nowMs clockMs pendingKeyFor answers hm hj ⟨huuid, hccid⟩ count
    obtain ⟨_, hstep⟩ := sessionStep_mint hm hj nowMs clockMs pendingKeyFor answers
    unfold Session.reported at hccid
    rw [hstep, Session.legs_some rfl, hj] at hccid
    exact steady_mint hcaller _ answers huuid.injective hccid count
  · rintro s m event rest nowMs clockMs pendingKeyFor answers hm hj ⟨huuid, hccid⟩ h count
    obtain ⟨_, hstep⟩ := sessionStep_drain hm hj nowMs clockMs pendingKeyFor answers
    unfold Session.reported at hccid
    rw [hstep, Session.legs_some rfl, hj, List.length_cons, Nat.add_sub_cancel,
      List.drop_left] at hccid
    rw [Session.legs_some hm] at huuid
    exact steady_step (i := ⟨event, nowMs, clockMs, pendingKeyFor⟩) h _ answers huuid hccid count

/-! ### The end of the ring, in a run -/

/-- The step of a run that takes the machine out of `ringing`. -/
structure EndsRing (r : SessionRun) (before : List Action) (a : Action) (m m' : SessionMachine) :
    Prop where
  split : ∃ after, r.actions = before ++ a :: after
  was : (r.upTo before).session.machine = some m
  ringing : m.state = .ringing
  now : (r.upTo (before ++ [a])).session.machine = some m'
  ended : m'.state ≠ .ringing

/-- What became of a phone that was ringing when the ring ended: its hangup has been emitted in
the run, or its member is the winner, or the step that ended the ring found it dead. -/
def PhoneSettled (r : SessionRun) (before : List Action) (m' : SessionMachine) (c : String) :
    Prop :=
  (∃ terminal, Effect.telnyxHangup c terminal ∈ r.effects) ∨
    (∃ event ∈ (r.upTo before).session.journal.head?, event.winner = some c) ∨
    ∃ leg ∈ m'.legs, leg.ccid = some c ∧ leg.status = .dead

/-- While the voicemail answer is awaited nothing but a drain happens, and that drain hangs up
every leg that is still up. -/
theorem voicemail_answer_hangs_up {s : Session} {ok : Bool} (hm : s.machine = some m)
    (hstate : m.state = .voicemailGreeting) (hj : s.journal = [.vmAnswerOutcome ok])
    {leg : LegRecord} (hleg : leg ∈ m.legs) (hup : leg.status.isUp = true)
    (hc : truthy leg.ccid = some c) (actions : List Action)
    (hdone : (Reactive.final sessionStep s actions).journal = []) :
    Effect.telnyxHangup c true ∈ Reactive.outputs sessionStep s actions := by
  have hbusy : s.idle = false := by simp [Session.idle, hj]
  induction actions with
  | nil =>
      rw [Reactive.final_nil, hj] at hdone
      cases hdone
  | cons a actions ih =>
      rw [Reactive.final_cons] at hdone
      rw [Reactive.outputs_cons]
      cases a with
      | drain nowMs clockMs pendingKeyFor answers =>
          obtain ⟨count, hstep⟩ := sessionStep_drain hm hj nowMs clockMs pendingKeyFor answers
          rw [hstep]
          exact List.mem_append_left _
            ((reduceVmAnswerOutcome_cancels ok nowMs hstate).2 leg hleg hup c hc)
      | admitEvent event =>
          have hsame : (sessionStep s (.admitEvent event)).1 = s := by
            simp [sessionStep, Session.admitEvent, hbusy]
          rw [hsame] at hdone ⊢
          exact List.mem_append_right _ (ih hdone)
      | wake nowMs =>
          have hsame : (sessionStep s (.wake nowMs)).1 = s := by
            simp [sessionStep, Session.wake, hbusy]
          rw [hsame] at hdone ⊢
          exact List.mem_append_right _ (ih hdone)
      | fire unreachableUserIds =>
          have hsame : (sessionStep s (.fire unreachableUserIds)).1 = s := by
            simp [sessionStep, Session.fire, hj]
          rw [hsame] at hdone ⊢
          exact List.mem_append_right _ (ih hdone)

/-- The phones that were ringing when the ring ended are settled by the next quiescent point. -/
theorem settled_of_endsRing {r : SessionRun} (hcaller : r.context.inboundCcid ≠ "")
    (hfresh : Reactive.Along sessionStep FreshNames (.start r.context) r.actions)
    (hquiet : r.session.journal = []) {before : List Action} {a : Action} {m m' : SessionMachine}
    (hend : EndsRing r before a m m') {leg : LegRecord} (hleg : leg ∈ m.legs)
    (hring : leg.status = .ringing) (hc : truthy leg.ccid = some c) :
    PhoneSettled r before m' c := by
  obtain ⟨after, hactions⟩ := hend.split
  rw [hactions, Reactive.along_append] at hfresh
  have hsteady := steady_run (r.upTo before) hcaller hfresh.1
  have hwas := hend.was
  have hnow : (sessionStep (r.upTo before).session a).1.machine = some m' := by
    have hnow' := hend.now
    rwa [SessionRun.session, SessionRun.upTo, Reactive.final_append] at hnow'
  have heffects : r.effects = (r.upTo before).effects ++
      ((sessionStep (r.upTo before).session a).2 ++
        Reactive.outputs sessionStep (sessionStep (r.upTo before).session a).1 after) := by
    rw [SessionRun.effects, hactions, Reactive.outputs_append]
    rfl
  have hfinal : r.session =
      Reactive.final sessionStep (sessionStep (r.upTo before).session a).1 after := by
    rw [SessionRun.session, hactions, Reactive.final_append]
    rfl
  unfold PhoneSettled
  generalize (r.upTo before).session = s at *
  rw [heffects]
  rw [hfinal] at hquiet
  have hchanged : (sessionStep s a).1.machine ≠ s.machine := by
    rw [hwas, hnow]
    rintro ⟨⟩
    exact hend.ended hend.ringing
  obtain ⟨event, rest, nowMs, clockMs, pendingKeyFor, answers, hj, rfl⟩ :=
    (sessionStep_cases s a).resolve_left fun hkept => hchanged hkept.1
  obtain ⟨count, hstep⟩ := sessionStep_drain hwas hj nowMs clockMs pendingKeyFor answers
  rw [Session.holds_some hwas, hj] at hsteady
  rw [hstep] at hnow hquiet ⊢
  obtain rfl := Option.some.inj hnow
  by_cases halarm : event = .alarmRing
  · -- the ring alarm only asks for the voicemail answer, whose outcome hangs the leg up
    have hvm : machineStep m ⟨event, nowMs, clockMs, pendingKeyFor⟩ = vmEntry m := by
      simp [machineStep, reduceMachine, halarm, quiet, reduceAlarmRing, hend.ringing]
    have hrest : rest = [] := hsteady.orderly.rest_eq_nil (by rw [halarm]; rfl)
    obtain ⟨caller, hcust⟩ := hsteady.caller
    rw [hvm, hrest] at hquiet
    obtain ⟨ok, hok⟩ := vmEntry_reports hcust ⟨(vmEntry m).1, s.alarms⟩ answers
    rw [hok] at hquiet
    left
    refine ⟨true, List.mem_append_right _ (List.mem_append_right _ ?_)⟩
    rw [hvm, hrest, hok]
    exact voicemail_answer_hangs_up (m := (vmEntry m).1.withCount count) rfl rfl rfl hleg
      (by rw [hring]; rfl) hc after hquiet
  · rcases steady_ringEnds (i := ⟨event, nowMs, clockMs, pendingKeyFor⟩) hsteady hend.ringing
      halarm with hstill | ⟨_, hsettles⟩
    · exact absurd hstill hend.ended
    · rcases hsettles leg hleg hring c hc with ⟨terminal, hhang⟩ | hdead | hwinner
      · exact Or.inl ⟨terminal, List.mem_append_right _ (List.mem_append_left _ hhang)⟩
      · exact Or.inr (Or.inr hdead)
      · exact Or.inr (Or.inl ⟨event, by rw [hj]; rfl, hwinner⟩)

/-- Uuids that are told apart by their length, from the `n`-th on. -/
def strokes (n k : ℕ) : String := String.ofList (List.replicate (n + k) 'i')

theorem strokes_injective (n : ℕ) : Function.Injective (strokes n) := by
  intro a b h
  have hlist := congrArg (fun s => s.toList.length) h
  simpa [strokes] using hlist

/-- Reduce one event at a time `nowMs`, with the uuids from the `n`-th on. -/
def drainAt (nowMs : ℤ) (n : ℕ) : Action := .drain nowMs nowMs (strokes n) fun _ => willing

/-- Ana's phone rings until the window closes, and the caller goes to voicemail. -/
def unanswered : SessionRun where
  context := crewOfOne
  actions := [drainAt 0 0, drainAt 0 1, drainAt 0 1, .wake 45000, .fire [], drainAt 45000 1,
    drainAt 45000 1]

/-- A ccid that does not start as `pending:` does names no dial in flight. -/
theorem legKey_ne_pendingKey {ccid uuid : String} (h : ccid.toList.head? ≠ some 'p') :
    legKey ccid ≠ pendingKey uuid := by
  intro heq
  have hlist := congrArg String.toList heq
  simp only [legKey, pendingKey, String.toList_append] at hlist
  have htail : ccid.toList = "pending:".toList ++ uuid.toList :=
    List.append_cancel_left (hlist.trans (List.append_assoc "leg:".toList _ _))
  rw [htail] at h
  exact h rfl

theorem freshUuids_landed {legs : List LegRecord} (n : ℕ)
    (h : ∀ leg ∈ legs, leg.key = legKey "ana-leg") : FreshUuids legs (strokes n) :=
  ⟨strokes_injective n, fun _ leg hleg => by
    rw [h leg hleg]
    exact legKey_ne_pendingKey (by decide)⟩

theorem freshUuids_pending {legs : List LegRecord}
    (h : ∀ leg ∈ legs, leg.key = pendingKey (strokes 0 0)) : FreshUuids legs (strokes 1) := by
  refine ⟨strokes_injective 1, fun k leg hleg heq => ?_⟩
  rw [h leg hleg] at heq
  have hlist := congrArg (fun s => s.toList.length) (pendingKey_injective heq)
  simp only [strokes, String.toList_ofList, List.length_replicate] at hlist
  omega

theorem unanswered_fresh :
    Reactive.Along sessionStep FreshNames (.start unanswered.context) unanswered.actions := by
  refine ⟨⟨⟨strokes_injective 0, fun _ _ hleg => nomatch hleg⟩, ⟨by decide, by decide⟩⟩,
    ⟨freshUuids_pending (by decide), freshCcids_of_none rfl⟩,
    ⟨freshUuids_landed 1 (by decide), freshCcids_of_none rfl⟩, trivial, trivial,
    ⟨freshUuids_landed 1 (by decide), freshCcids_of_none rfl⟩,
    ⟨freshUuids_landed 1 (by decide), freshCcids_of_none rfl⟩, trivial⟩

/-- The machine after the first `n` actions of the run. -/
def unansweredAfter (n : ℕ) : SessionMachine :=
  (unanswered.upTo (unanswered.actions.take n)).session.machine.getD
    (inboundBase crewOfOne 0)

end Calls
