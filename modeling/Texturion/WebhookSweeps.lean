/-
**Is every received event accounted for?**

An event is processed, or a future sweep will ask for it, or it has been reported as exhausted; in
its last attempt, from the claim to the report, it is in the hands of a sweeper run.  Nothing else
keeps it from being forgotten: after the last attempt no sweep asks for it again.

Two kinds of moves break this.  A sweeper run that dies in the last attempt, or whose claim of it
has its effect but no answer, takes the event along.  And a live handler writes the attempts it has
read a while ago, and one more: by then others may have counted further, so that the counter goes
down, or the write is the fifth, which nobody reports.

Main result:

* `WebhookLedger.kept_along_iff` — **the exact runs in which no event is dropped in silence**.
-/

import Texturion.WebhookLedger

namespace WebhookLedger

open SqlTable

/-! ### Events that are accounted for -/

/-- A sweep from now on asks for the event. -/
def Eligible (l : Ledger) (r : Row) : Prop := ∃ start, l.now ≤ start ∧ eligible start r = true

def IsReported (l : Ledger) (key : Key) : Prop := ∃ e ∈ l.reported, e.key = key

def Point.lastAttempt (p : Point) : Option Key :=
  (p.hold.filter fun h => decide (sweepMaxAttempts ≤ h.attempts)).map fun h => h.row.key

/-- One of the handlers is at the last attempt of the event. -/
def Held (running : List Point) (key : Key) : Prop := ∃ p ∈ running, p.lastAttempt = some key

/-- The event is processed, a future sweep asks for it, it has been reported, or it is in the hands
of a sweeper run in its last attempt. -/
def Accounted (s : State) (r : Row) : Prop :=
  r.processedAt ≠ none ∨ Eligible s.store r ∨ IsReported s.store r.key ∨ Held s.running r.key

variable {r : Row} {s : State} {p : Point} {key : Key}

theorem eligible_iff {l : Ledger} :
    Eligible l r ↔ r.processedAt = none ∧ r.attempts < sweepMaxAttempts := by
  constructor
  · rintro ⟨start, -, h⟩
    simp only [eligible, Bool.and_eq_true, decide_eq_true_eq, Option.isNone_iff_eq_none] at h
    exact ⟨h.1.1.1, h.1.2⟩
  · rintro ⟨hnone, hlt⟩
    -- late enough for its age and its lease
    let late := max l.now (max r.receivedAt (r.claimedAt.getD 0))
    have hnow : l.now ≤ late := le_max_left ..
    have hage : r.receivedAt ≤ late := (le_max_left ..).trans (le_max_right ..)
    have hlease : r.claimedAt.getD 0 ≤ late := (le_max_right ..).trans (le_max_right ..)
    refine ⟨late + sweepClaimLeaseMs + 1, ?_, ?_⟩
    · simp only [sweepClaimLeaseMs]
      omega
    · have hunclaimed : unclaimed (late + sweepClaimLeaseMs + 1) r = true := by
        unfold unclaimed
        cases hc : r.claimedAt with
        | none => rfl
        | some t =>
          rw [hc] at hlease
          simp only [Option.getD_some] at hlease
          simp only [decide_eq_true_eq]
          omega
      have hold : r.receivedAt < late + sweepClaimLeaseMs + 1 - sweepMinAgeMs := by
        simp only [sweepClaimLeaseMs, sweepMinAgeMs]
        omega
      simp [eligible, hnone, hlt, hunclaimed, hold]

/-- The row would be accounted for with its counter at `attempts`. -/
def Covered (l : Ledger) (held : Key → Prop) (r : Row) (attempts : ℕ) : Prop :=
  r.processedAt ≠ none ∨ attempts < sweepMaxAttempts ∨ IsReported l r.key ∨ held r.key

theorem accounted_iff_covered : Accounted s r ↔ Covered s.store (Held s.running) r r.attempts := by
  rw [Accounted, Covered, eligible_iff]
  by_cases h : r.processedAt = none
  · simp [h]
  · simp [h]

/-! ### One statement -/

/-- The rows after a write that counts no attempt: new ones, and old ones with their counter. -/
def Mild (l l' : Ledger) : Prop :=
  ∀ r' ∈ l'.rows, (r'.attempts = 0 ∧ ∀ r ∈ l.rows, r'.key ≠ r.key) ∨
    ∃ r ∈ l.rows, r'.key = r.key ∧ r'.attempts = r.attempts ∧
      (r.processedAt ≠ none → r'.processedAt ≠ none)

theorem mild_refl (l : Ledger) : Mild l l :=
  fun r hr => .inr ⟨r, hr, rfl, rfl, id⟩

theorem mild_write (l : Ledger) {p : Row → Bool} {f : Row → Row} (hkey : ∀ r, (f r).key = r.key)
    (hattempts : ∀ r, (f r).attempts = r.attempts)
    (hprocessed : ∀ r, r.processedAt ≠ none → (f r).processedAt ≠ none) : Mild l (write l p f) := by
  intro r' hr'
  rcases mem_update.1 hr' with ⟨hr, -⟩ | ⟨r, hr, -, rfl⟩
  · exact .inr ⟨r', hr, rfl, rfl, id⟩
  · exact .inr ⟨r, hr, hkey r, hattempts r, hprocessed r⟩

def Point.counts : Point → Bool
  | .writeAttempts _ _ _ => true
  | .claim _ _ => true
  | _ => false

theorem mild_advance {l : Ledger} (x : Answer) (hp : p.counts = false) :
    Mild l (advance l p x).1 := by
  have hstamp : ∀ key, Mild l (stampProcessed l key) := fun key =>
    mild_write l (fun _ => rfl) (fun _ => rfl) fun _ _ => Option.some_ne_none _
  have hnote : ∀ key message, Mild l (noteError l key message) := fun key message =>
    mild_write l (fun _ => rfl) (fun _ => rfl) fun _ h => h
  cases p with
  | insert key eventType route =>
    simp only [advance]
    split
    · exact mild_refl l
    · split
      · exact mild_refl l
      · rename_i htaken
        simp only [Bool.not_eq_true, List.any_eq_false, beq_iff_eq] at htaken
        intro r' hr'
        rcases List.mem_append.1 hr' with hr | hr
        · exact .inr ⟨r', hr, rfl, rfl, id⟩
        · rw [List.mem_singleton.1 hr]
          exact .inl ⟨rfl, fun r hr heq => htaken r hr heq.symm⟩
  | stamp key route =>
    simp only [advance]
    split
    · exact hstamp key
    · exact mild_refl l
  | stampSwept h =>
    simp only [advance]
    split
    · exact hstamp h.row.key
    · exact mild_refl l
  | writeError key message =>
    simp only [advance]
    split
    · exact hnote key message
    · exact mild_refl l
  | note h message =>
    simp only [advance]
    split
    · exact hnote h.row.key _
    · exact mild_refl l
  | report h => exact fun r hr => .inr ⟨r, hr, rfl, rfl, id⟩
  | writeAttempts | claim => cases hp
  | lookup | process | readAttempts | begin | select | dispatch => exact mild_refl l

theorem advance_reported {l : Ledger} (p : Point) (x : Answer)
    (h : IsReported l key) : IsReported (advance l p x).1 key := by
  have hwrote := advance_wrote l p x
  generalize (advance l p x).1 = l' at hwrote ⊢
  cases hwrote with
  | report e =>
    obtain ⟨a, ha, hkey⟩ := h
    exact ⟨a, List.mem_append_left _ ha, hkey⟩
  | nothing | insert | stamp | count | note | claim => exact h

theorem lastAttempt_eq_some : p.lastAttempt = some key ↔
    ∃ h, p.hold = some h ∧ sweepMaxAttempts ≤ h.attempts ∧ h.row.key = key := by
  simp only [Point.lastAttempt, Option.map_eq_some_iff, Option.filter_eq_some_iff,
    decide_eq_true_eq, and_assoc]

/-- The last attempt of an event goes on, or ends with its stamp or its report. -/
theorem lastAttempt_advance {l : Ledger} (x : Answer) (hp : p.lastAttempt = some key) :
    (advance l p x).2.1.bind Point.lastAttempt = some key ∨ IsReported (advance l p x).1 key ∨
      ∀ r ∈ (advance l p x).1.rows, r.key = key → r.processedAt ≠ none := by
  obtain ⟨h, hhold, hle, rfl⟩ := lastAttempt_eq_some.1 hp
  have hgoes : ∀ q : Point, q.hold = some h → q.lastAttempt = some h.row.key := fun q hq =>
    lastAttempt_eq_some.2 ⟨h, hq, hle, rfl⟩
  cases p with
  | dispatch k =>
    cases hhold
    simp only [advance]
    left
    cases x.failure with
    | none => exact hgoes _ rfl
    | some message => exact hgoes _ rfl
  | stampSwept k =>
    cases hhold
    simp only [advance]
    cases hx : x.failure with
    | none =>
      -- the stamp has been written
      right; right
      rw [lands_of_failure hx, if_pos rfl]
      intro r hr hkey
      rcases mem_update.1 hr with ⟨-, hne⟩ | ⟨a, -, -, rfl⟩
      · exact absurd hkey (by simpa using hne)
      · exact Option.some_ne_none _
    | some message => exact .inl (hgoes _ rfl)
  | note k message =>
    cases hhold
    simp only [advance, if_pos hle]
    exact .inl (hgoes _ rfl)
  | report k =>
    cases hhold
    exact .inr (.inl ⟨_, List.mem_append_right _ (List.mem_singleton_self _), rfl⟩)
  | insert | lookup | process | stamp | readAttempts | writeAttempts | writeError | begin | select |
    claim => cases hhold

/-- No counter is lower. -/
def Monotone (l l' : Ledger) : Prop :=
  ∀ r ∈ l.rows, ∀ r' ∈ l'.rows, r'.key = r.key → r.attempts ≤ r'.attempts

theorem monotone_of_mild {l l' : Ledger} (hl : Orderly l) (h : Mild l l') : Monotone l l' := by
  intro r hr r' hr' hkey
  rcases h r' hr' with ⟨-, hnew⟩ | ⟨a, ha, hkey', hattempts, -⟩
  · exact absurd hkey (hnew r hr)
  · obtain rfl : a = r := List.inj_on_of_nodup_map hl.nodup ha hr (hkey'.symm.trans hkey)
    exact hattempts.symm ▸ le_refl _

/-- What the two statements that count an attempt must respect, where `held` are the events that
other handlers have in their last attempt: an error write does not lower the counter, and a counter
that reaches five without anybody to report it belongs to no unprocessed event. -/
def Safe (l : Ledger) (held : Key → Prop) : Point → Answer → Prop
  | .writeAttempts key attempts _, x => x.lands = true → ∀ r ∈ l.rows, r.key = key →
      r.attempts ≤ attempts + 1 ∧ Covered l held r (attempts + 1)
  | .claim start (row :: _), .lost _ => ∀ r ∈ l.rows, claimable start row r = true →
      Covered l held r (row.attempts + 1)
  | _, _ => True

/-- The rows of the ledger, with the moving handler's last attempt, are accounted for. -/
def AllCovered (l : Ledger) (held : Key → Prop) (p : Option Point) : Prop :=
  ∀ r ∈ l.rows, Covered l (fun k => held k ∨ p.bind Point.lastAttempt = some k) r r.attempts

section Advance

variable {l : Ledger} {held : Key → Prop} {x : Answer}

theorem Covered.mono {a : ℕ} {held' : Key → Prop} (h : Covered l held r a)
    (hheld : held r.key → held' r.key) : Covered l held' r a :=
  h.imp_right (Or.imp_right (Or.imp_right hheld))

theorem safe_of_not_counts (hp : p.counts = false) : Safe l held p x := by
  cases p with
  | writeAttempts | claim => cases hp
  | _ => trivial

theorem advance_kept_of_not_counts (hl : Orderly l) (h : AllCovered l held (some p))
    (hp : p.counts = false) :
    Monotone l (advance l p x).1 ∧ AllCovered (advance l p x).1 held (advance l p x).2.1 := by
  have hmild := mild_advance (l := l) x hp
  refine ⟨monotone_of_mild hl hmild, fun r' hr' => ?_⟩
  rcases hmild r' hr' with ⟨hzero, -⟩ | ⟨r, hr, hkey, hattempts, hprocessed⟩
  · right; left
    rw [hzero]
    decide
  · rcases h r hr with hpr | hlt | hrep | hheld | hlast
    · exact .inl (hprocessed hpr)
    · exact .inr (.inl (hattempts ▸ hlt))
    · exact .inr (.inr (.inl (hkey ▸ advance_reported p x hrep)))
    · exact .inr (.inr (.inr (.inl (hkey ▸ hheld))))
    · rcases lastAttempt_advance x hlast with hgoes | hrep | hpr
      · exact .inr (.inr (.inr (.inr (hkey ▸ hgoes))))
      · exact .inr (.inr (.inl (hkey ▸ hrep)))
      · exact .inl (hpr r' hr' hkey)

theorem advance_kept_writeAttempts {attempts : ℕ} {message : JsText.Text}
    (h : AllCovered l held (some (.writeAttempts key attempts message))) (hl : Orderly l) :
    Monotone l (advance l (.writeAttempts key attempts message) x).1 ∧
      AllCovered (advance l (.writeAttempts key attempts message) x).1 held none ↔
        Safe l held (.writeAttempts key attempts message) x := by
  have hno : ∀ k, (some (Point.writeAttempts key attempts message)).bind Point.lastAttempt ≠
      some k := fun k hk => by cases hk
  simp only [advance, Safe]
  by_cases hlands : x.lands = true
  · simp only [hlands, if_true, forall_const]
    have hwritten : ∀ r ∈ l.rows, r.key = key → { r with
        attempts := attempts + 1
        lastError := some (message.take 2000) } ∈ (countAttempt l key attempts message).rows :=
      fun r hr hkey => mem_update_of hr (by simpa using hkey)
    constructor
    · rintro ⟨hmono, hcovered⟩ r hr hkey
      refine ⟨hmono r hr _ (hwritten r hr hkey) rfl, ?_⟩
      exact (hcovered _ (hwritten r hr hkey)).mono fun hheld => hheld.resolve_right (by rintro ⟨⟩)
    · intro hsafe
      refine ⟨fun r hr r' hr' hkey' => ?_, fun r' hr' => ?_⟩
      · rcases mem_update.1 hr' with ⟨hr', -⟩ | ⟨a, ha, hkey, rfl⟩
        · obtain rfl : r' = r := List.inj_on_of_nodup_map hl.nodup hr' hr hkey'
          exact le_refl _
        · obtain rfl : a = r := List.inj_on_of_nodup_map hl.nodup ha hr hkey'
          exact (hsafe a ha (by simpa using hkey)).1
      · rcases mem_update.1 hr' with ⟨hr', -⟩ | ⟨a, ha, hkey, rfl⟩
        · change Covered l (fun k => held k ∨ _) r' r'.attempts
          exact (h r' hr').mono fun hheld => .inl (hheld.resolve_right (hno _))
        · change Covered l (fun k => held k ∨ _) a (attempts + 1)
          exact ((hsafe a ha (by simpa using hkey)).2).mono .inl
  · rw [Bool.not_eq_true] at hlands
    simp only [hlands, Bool.false_eq_true, if_false, false_imp_iff, iff_true]
    refine ⟨monotone_of_mild hl (mild_refl l), fun r hr => ?_⟩
    exact (h r hr).mono fun hheld => .inl (hheld.resolve_right (hno _))

theorem advance_kept_claim {start : ℤ} {row : Row} {rest : List Row}
    (h : AllCovered l held (some (.claim start (row :: rest)))) (hl : Orderly l) :
    Monotone l (advance l (.claim start (row :: rest)) x).1 ∧
      AllCovered (advance l (.claim start (row :: rest)) x).1 held
        (advance l (.claim start (row :: rest)) x).2.1 ↔
          Safe l held (.claim start (row :: rest)) x := by
  have hno : ∀ k, (some (Point.claim start (row :: rest))).bind Point.lastAttempt ≠ some k :=
    fun k hk => by cases hk
  have hmono : Monotone l (claimRow l start row) := by
    intro r hr r' hr' hkey'
    rcases mem_update.1 hr' with ⟨hr', -⟩ | ⟨a, ha, hclaim, rfl⟩
    · obtain rfl : r' = r := List.inj_on_of_nodup_map hl.nodup hr' hr hkey'
      exact le_refl _
    · obtain rfl : a = r := List.inj_on_of_nodup_map hl.nodup ha hr hkey'
      have heq := (claimable_iff.1 hclaim).2.1
      simp only
      omega
  -- the rows that no claim touches
  have hothers : ∀ {l' : Ledger} {next : Option Point}, l'.reported = l.reported → ∀ r ∈ l.rows,
      Covered l' (fun k => held k ∨ next.bind Point.lastAttempt = some k) r r.attempts := by
    intro l' next hreported r hr
    rcases h r hr with hpr | hlt | hrep | hheld
    · exact .inl hpr
    · exact .inr (.inl hlt)
    · refine .inr (.inr (.inl ?_))
      rw [IsReported, hreported]
      exact hrep
    · exact .inr (.inr (.inr (.inl (hheld.resolve_right (hno _)))))
  cases x with
  | error message =>
    exact iff_of_true ⟨monotone_of_mild hl (mild_refl l), hothers rfl⟩ trivial
  | lost message =>
    simp only [advance, Answer.lands, Answer.failure, Safe, if_true, Option.isNone_some,
      Bool.false_and, Bool.false_eq_true, if_false]
    constructor
    · rintro ⟨-, hcovered⟩ r hr hclaim
      have hwritten := hcovered _ (mem_update_of hr hclaim)
      exact hwritten.mono fun hheld => hheld.resolve_right (by rintro ⟨⟩)
    · intro hsafe
      refine ⟨hmono, fun r' hr' => ?_⟩
      rcases mem_update.1 hr' with ⟨hr', -⟩ | ⟨a, ha, hclaim, rfl⟩
      · exact hothers rfl r' hr'
      · change Covered l (fun k => held k ∨ _) a (row.attempts + 1)
        exact (hsafe a ha hclaim).mono .inl
  | ok | left =>
    refine iff_of_true ⟨hmono, fun r' hr' => ?_⟩ trivial
    rcases mem_update.1 hr' with ⟨hr', -⟩ | ⟨a, ha, hclaim, rfl⟩
    · exact hothers rfl r' hr'
    · -- the run goes on with the event in hand
      have hany : l.rows.any (claimable start row) = true := List.any_eq_true.2 ⟨a, ha, hclaim⟩
      by_cases hlast : row.attempts + 1 < sweepMaxAttempts
      · exact .inr (.inl hlast)
      · refine .inr (.inr (.inr (.inr ?_)))
        simp only [advance, Answer.failure, Option.isNone_none, hany, Bool.and_self, if_true]
        refine lastAttempt_eq_some.2 ⟨_, rfl, Nat.le_of_not_lt hlast, ?_⟩
        exact (claimable_iff.1 hclaim).1.symm

/-- **One statement** keeps every event accounted for and lowers no counter exactly if it is
safe. -/
theorem advance_kept_iff (hl : Orderly l) (h : AllCovered l held (some p)) :
    Monotone l (advance l p x).1 ∧ AllCovered (advance l p x).1 held (advance l p x).2.1 ↔
      Safe l held p x := by
  cases hp : p.counts with
  | false => exact iff_of_true (advance_kept_of_not_counts hl h hp) (safe_of_not_counts hp)
  | true =>
    cases p with
    | writeAttempts key attempts message => exact advance_kept_writeAttempts h hl
    | claim start rows =>
      cases rows with
      | nil =>
        refine iff_of_true ⟨monotone_of_mild hl (mild_refl l), fun r hr => ?_⟩ trivial
        exact (h r hr).mono fun hheld => .inl (hheld.resolve_right (nomatch ·))
      | cons row rest => exact advance_kept_claim h hl
    | insert | lookup | process | stamp | readAttempts | writeError | begin | select | dispatch |
      stampSwept | note | report => cases hp

end Advance

/-! ### One move -/

/-- After the move every event is accounted for, and no counter is lower than before. -/
def Kept (s : State) (i : Input) : Prop :=
  Monotone s.store (Interleaving.step system s i).1.store ∧
    ∀ r ∈ (Interleaving.step system s i).1.store.rows,
      Accounted (Interleaving.step system s i).1 r

/-- The move is no unsafe statement, and no death of the only handler that had an event in its last
attempt. -/
def SafeMove (s : State) : Input → Prop
  | .step n x => ∀ p, s.running[n]? = some p → Safe s.store (Held (s.running.eraseIdx n)) p x
  | .crash n => ∀ p, s.running[n]? = some p → ∀ r ∈ s.store.rows, p.lastAttempt = some r.key →
      Covered s.store (Held (s.running.eraseIdx n)) r r.attempts
  | _ => True

theorem held_running {running : List Point} {n : ℕ} (hp : running[n]? = some p) (key : Key) :
    Held running key ↔ Held (running.eraseIdx n) key ∨ p.lastAttempt = some key := by
  simp only [Held, Interleaving.mem_running_iff hp, or_and_right, exists_or, exists_eq_left']

theorem held_putBack {running : List Point} {n : ℕ} (hp : running[n]? = some p)
    (next : Option Point) (key : Key) :
    Held (Interleaving.putBack running n next) key ↔
      Held (running.eraseIdx n) key ∨ next.bind Point.lastAttempt = some key := by
  simp only [Held, Interleaving.mem_putBack_iff hp, or_and_right, exists_or,
    Option.bind_eq_some_iff]

theorem covered_congr {l : Ledger} {held held' : Key → Prop} (h : ∀ k, held k ↔ held' k)
    {a : ℕ} : Covered l held r a ↔ Covered l held' r a := by
  rw [Covered, Covered, h]

theorem kept_iff (hl : Orderly s.store) (h : ∀ r ∈ s.store.rows, Accounted s r)
    (i : Input) : Kept s i ↔ SafeMove s i := by
  have hcovered : ∀ r ∈ s.store.rows, Covered s.store (Held s.running) r r.attempts :=
    fun r hr => accounted_iff_covered.1 (h r hr)
  have hrefl : Monotone s.store s.store := monotone_of_mild hl (mild_refl s.store)
  cases i with
  | start q =>
    refine iff_of_true ⟨hrefl, fun r hr => accounted_iff_covered.2 ?_⟩ trivial
    refine (hcovered r hr).mono fun hheld => ?_
    obtain ⟨p, hp, hlast⟩ := hheld
    exact ⟨p, List.mem_append_left _ hp, hlast⟩
  | world d =>
    refine iff_of_true ⟨hrefl, fun r hr => accounted_iff_covered.2 ?_⟩ trivial
    exact hcovered r hr
  | crash n =>
    cases hp : s.running[n]? with
    | none =>
      have hsame : s.running.eraseIdx n = s.running :=
        List.eraseIdx_of_length_le (List.getElem?_eq_none_iff.1 hp)
      refine iff_of_true ⟨hrefl, fun r hr => accounted_iff_covered.2 ?_⟩ fun p hp' => ?_
      · simp only [Interleaving.step, hsame]
        exact hcovered r hr
      · rw [hp] at hp'
        cases hp'
    | some p =>
      constructor
      · rintro ⟨-, hacc⟩ p' - r hr -
        exact accounted_iff_covered.1 (hacc r hr)
      · intro hsafe
        refine ⟨hrefl, fun r hr => accounted_iff_covered.2 ?_⟩
        by_cases hlast : p.lastAttempt = some r.key
        · exact hsafe p hp r hr hlast
        · refine (hcovered r hr).mono fun hheld => ?_
          exact ((held_running hp _).1 hheld).resolve_right hlast
  | step n x =>
    cases hp : s.running[n]? with
    | none =>
      have hstep : Interleaving.step system s (.step n x) = (s, []) := by
        simp [Interleaving.step, hp]
      refine iff_of_true ?_ fun p hp' => ?_
      · rw [Kept, hstep]
        exact ⟨hrefl, h⟩
      · rw [hp] at hp'
        cases hp'
    | some p =>
      have hall : AllCovered s.store (Held (s.running.eraseIdx n)) (some p) :=
        fun r hr => (covered_congr (held_running hp)).1 (hcovered r hr)
      have hkept : Kept s (.step n x) ↔ Monotone s.store (advance s.store p x).1 ∧
          AllCovered (advance s.store p x).1 (Held (s.running.eraseIdx n))
            (advance s.store p x).2.1 := by
        simp only [Kept, Interleaving.step, hp, accounted_iff_covered, AllCovered]
        refine and_congr_right fun _ => forall₂_congr fun r hr => ?_
        exact covered_congr (held_putBack hp _)
      rw [hkept, advance_kept_iff hl hall]
      simp only [SafeMove, hp, Option.some.injEq, forall_eq']

/-! ### Runs -/

theorem orderly_step (h : Interleaving.Sound Orderly Relies Apart s) (i : Input) :
    Interleaving.Sound Orderly Relies Apart (Interleaving.step system s i).1 :=
  (nonInterfering.step h trivial).1

/-- **No event is dropped in silence, exactly where every move is safe.**  Two sweeper runs dispatch
one event only after a lease has lapsed, in every run from any ledger; and every event is accounted
for and no counter lowered at every move, if and only if the run has neither a handler that dies
with an event in its last attempt nor an unsafe count. -/
theorem kept_along_iff {l : Ledger} (hl : Orderly l) (hstart : ∀ r ∈ l.rows, Accounted ⟨l, []⟩ r)
    (is : List Input) :
    ((Reactive.final (Interleaving.step system) ⟨l, []⟩ is).running.Pairwise fun p q =>
      ∀ h k, p.dispatching = some h → q.dispatching = some k → h.row.key = k.row.key →
        Lapsed (Reactive.final (Interleaving.step system) ⟨l, []⟩ is).store.now h ∨
          Lapsed (Reactive.final (Interleaving.step system) ⟨l, []⟩ is).store.now k) ∧
    (Reactive.Along (Interleaving.step system) Kept ⟨l, []⟩ is ↔
      Reactive.Along (Interleaving.step system) SafeMove ⟨l, []⟩ is) := by
  have hsound : Interleaving.Sound Orderly Relies Apart (⟨l, []⟩ : State) := leases hl []
  have hmove : ∀ s i, Interleaving.Sound Orderly Relies Apart s →
      (∀ r ∈ s.store.rows, Accounted s r) → (Kept s i ↔ SafeMove s i) :=
    fun s i hs hgood => kept_iff hs.store hgood i
  exact ⟨exclusive hl is, Reactive.along_iff_of_good _ (fun s i hs => orderly_step hs i) hmove
    (fun s i _ _ hkept => hkept.2) hsound hstart is⟩

/-! ### Examples -/

def stripeEvent : Key where
  provider := .stripe
  eventId := "evt_1"

/-- An event whose fifth attempt is due. -/
def fourTimesFailed : Ledger where
  rows :=
    [{ key := stripeEvent
       eventType := "invoice.paid"
       receivedAt := 0
       processedAt := none
       attempts := 4
       lastError := none
       claimedAt := none }]
  now := 10000000
  reported := []

theorem orderly_fourTimesFailed : Orderly fourTimesFailed := by
  refine ⟨by decide, fun r hr t ht => ?_⟩
  rw [List.mem_singleton.1 hr] at ht
  cases ht

theorem accounted_fourTimesFailed :
    ∀ r ∈ fourTimesFailed.rows, Accounted ⟨fourTimesFailed, []⟩ r := by
  intro r hr
  rw [List.mem_singleton.1 hr]
  exact accounted_iff_covered.2 (.inr (.inl (by decide)))

/-- A sweep that begins, asks for its batch and claims the event. -/
def claimed : List Input := [.start .sweep, .step 0 .ok, .step 0 .ok, .step 0 .ok]

/-- A fifth attempt that fails and is reported drops nothing. -/
theorem kept_along_iff_reported :
    Reactive.Along (Interleaving.step system) Kept ⟨fourTimesFailed, []⟩
      (claimed ++ [.step 0 (.error []), .step 0 .ok, .step 0 .ok]) := by
  refine (kept_along_iff orderly_fourTimesFailed accounted_fourTimesFailed _).2.2 ?_
  refine ⟨trivial, ?_, ?_, ?_, ?_, ?_, ?_, trivial⟩
  all_goals
    intro p hp
    cases hp
    trivial

/-- A handler of a new event has failed and read the counter; since then two sweeps have claimed the
event. -/
def overtaken : List Input :=
  [.start (.event stripeEvent "invoice.paid" .background), .step 0 .ok, .step 0 (.error []),
    .step 0 .ok, .world 200000, .start .sweep, .step 1 .ok, .step 1 .ok, .step 1 .ok,
    .step 1 (.error []), .step 1 .ok, .step 1 .ok, .world 700000, .start .sweep, .step 1 .ok,
    .step 1 .ok, .step 1 .ok]

def noEvents : Ledger where
  rows := []
  now := 0
  reported := []

/-- **A worker that dies in the fifth attempt drops the event in silence**, and a live handler that
was overtaken by the sweeper sets the counter back. -/
theorem dropped_in_silence :
    (¬∀ l is, Orderly l → (∀ r ∈ l.rows, Accounted ⟨l, []⟩ r) →
      ∀ r ∈ (Reactive.final (Interleaving.step system) ⟨l, []⟩ is).store.rows,
        Accounted (Reactive.final (Interleaving.step system) ⟨l, []⟩ is) r) ∧
    ¬∀ l is i, Orderly l → (∀ r ∈ l.rows, Accounted ⟨l, []⟩ r) →
      Monotone (Reactive.final (Interleaving.step system) ⟨l, []⟩ is).store
        (Interleaving.step system
          (Reactive.final (Interleaving.step system) ⟨l, []⟩ is) i).1.store := by
  constructor
  · intro h
    have hlost := h fourTimesFailed (claimed ++ [.crash 0]) orderly_fourTimesFailed
      accounted_fourTimesFailed
      { key := stripeEvent
        eventType := "invoice.paid"
        receivedAt := 0
        processedAt := none
        attempts := 5
        lastError := none
        claimedAt := some 10000000 } (by decide +kernel)
    rcases accounted_iff_covered.1 hlost with hprocessed | hlt | ⟨e, he, -⟩ | ⟨p, hp, -⟩
    · exact hprocessed rfl
    · exact absurd hlt (by decide)
    · exact absurd he List.not_mem_nil
    · exact absurd hp List.not_mem_nil
  · intro h
    have hempty : Orderly noEvents := ⟨.nil, fun r hr => nomatch hr⟩
    have hback := h noEvents overtaken (.step 0 .ok) hempty (fun r hr => nomatch hr)
      { key := stripeEvent
        eventType := "invoice.paid"
        receivedAt := 0
        processedAt := none
        attempts := 2
        lastError := some []
        claimedAt := some 900000 } (by decide +kernel)
      { key := stripeEvent
        eventType := "invoice.paid"
        receivedAt := 0
        processedAt := none
        attempts := 1
        lastError := some []
        claimedAt := some 900000 } (by decide +kernel) rfl
    exact absurd hback (by decide)

end WebhookLedger
