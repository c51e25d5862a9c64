/-
**An import does not raise anybody's standing, where its reads are still true.**

An import never lifts an opt-out and never gives it another source: it revives a row that is revoked
and inserts one where there is none.  It gives no basis for consent to a number that any row of its
file opts out.  But it decides from two reads whether a contact has a basis already and whether its
number is opted out, and the columns it has decided on are written several calls later, over
whatever is there by then.  A STOP that arrives in between leaves an attested basis on a contact
that must not be texted, and the basis that a first text leaves on its contact is replaced.

Main result:

* `ContactImport.standing_iff_along` — **over every run** of imports, texts and opt-outs.
-/

import Texturion.ContactImport

namespace ContactImport

open OptOuts Interleaving

/-! ### The standing of a person -/

/-- From one store to the next an import may lower the standing of a person, and not raise it. -/
structure Lowers (file : File) (s t : Store) : Prop where
  /-- An active opt-out stays, with its source. -/
  optOut : ∀ phone r, s.optOuts phone = some r → r.active = true →
    ∃ r', t.optOuts phone = some r' ∧ r'.active = true ∧ r'.source = r.source
  /-- A number that is opted out, or that the file opts out, gets no basis. -/
  gets : ∀ phone, t.consent phone ≠ s.consent phone →
    isActive (s.optOuts phone) = false ∧ ¬file.Flagged phone
  /-- A contact that has a basis keeps it. -/
  keeps : ∀ phone, (s.consent phone).given = true → t.consent phone = s.consent phone

def Point.request : Point → Request
  | .reading u .. => u
  | .checking u .. => u
  | .reviving plan _ => plan.request
  | .inserting plan _ => plan.request
  | .upserting plan _ => plan.request
  | .looking plan .. => plan.request
  | .announcing plan _ => plan.request

/-- If an import moves, it does not raise anybody's standing. -/
def Lawful (s : State Store Point) (i : Input Request Answer Outside) : Prop :=
  ∀ n x p, i = .step n x → s.running[n]? = some p →
    Lowers p.request.file s.store (advance s.store p x).1

/-- The basis that a call is about to write is the one the contact has, or the contact still has
none and its number is still not opted out. -/
def Due (s : Store) (call : List Row) : Prop :=
  ∀ phone b, basisFor call phone = some b → s.consent phone = b ∨
    isActive (s.optOuts phone) = false ∧ (s.consent phone).given = false

/-- What an import has read is still true when it writes the contacts. -/
def StillTrue (s : State Store Point) (i : Input Request Answer Outside) : Prop :=
  ∀ n x plan call rest, i = .step n x → s.running[n]? = some (.upserting plan (call :: rest)) →
    Due s.store call

/-! ### One step -/

/-- The rows have no basis for a number that the file opts out. -/
def Decided (file : File) (rows : List Row) : Prop :=
  ∀ row ∈ rows, file.Flagged row.phone → row.consent = none

/-- What an import carries from its decision to the upsert. -/
def Sober : Point → Prop
  | .reading .. => True
  | .checking u _ rows .. => Decided u.file rows
  | .reviving plan _ => Decided plan.request.file plan.rows
  | .inserting plan _ => Decided plan.request.file plan.rows
  | .upserting plan rest => ∀ call ∈ rest, Uniform call ∧ Decided plan.request.file call
  | .looking .. => True
  | .announcing .. => True

theorem sober_enter (u : Request) : Sober (enter u) := trivial

variable {s : Store} {file : File}

theorem sober_advance {p q : Point} {x : Answer} (h : Sober p)
    (hq : (advance s p x).2.1 = some q) : Sober q := by
  cases p with
  | reading u bs ss basis standing =>
    have hreads : q = afterReads u basis standing x.now ∨
        ∃ bs' ss' basis' standing', q = .reading u bs' ss' basis' standing' := by
      cases bs <;> cases ss <;> simp only [advance] at hq
      · exact .inl (Option.some.inj hq).symm
      · exact .inr ⟨_, _, _, _, (Option.some.inj hq).symm⟩
      · exact .inr ⟨_, _, _, _, (Option.some.inj hq).symm⟩
      · split_ifs at hq
        · exact .inr ⟨_, _, _, _, (Option.some.inj hq).symm⟩
        · exact .inr ⟨_, _, _, _, (Option.some.inj hq).symm⟩
    rcases hreads with rfl | ⟨bs', ss', basis', standing', rfl⟩
    · intro row hrow hflag
      exact consent_of_flagged hrow hflag
    · trivial
  | checking u standing rows refusals rest announced =>
    cases rest with
    | nil =>
      obtain rfl := Option.some.inj hq
      exact h
    | cons phones rest =>
      obtain rfl := Option.some.inj hq
      exact h
  | reviving plan rest =>
    cases rest with
    | nil =>
      obtain rfl := Option.some.inj hq
      exact h
    | cons phones rest =>
      obtain rfl := Option.some.inj hq
      exact h
  | inserting plan rest =>
    cases rest with
    | nil =>
      obtain rfl := Option.some.inj hq
      intro call hcall
      obtain ⟨huniform, hrows⟩ := calls_upsert hcall
      exact ⟨huniform, fun row hrow => h row (hrows row hrow)⟩
    | cons phones rest =>
      obtain rfl := Option.some.inj hq
      exact h
  | upserting plan rest =>
    cases rest with
    | nil =>
      obtain rfl := Option.some.inj hq
      trivial
    | cons call rest =>
      obtain rfl := Option.some.inj hq
      exact fun call' hcall' => h call' (List.mem_cons_of_mem _ hcall')
  | looking plan rest latest =>
    cases rest with
    | nil =>
      obtain rfl := Option.some.inj hq
      trivial
    | cons phones rest =>
      obtain rfl := Option.some.inj hq
      trivial
  | announcing plan latest => nomatch hq

theorem lowers_of_same {s t : Store} (hopt : t.optOuts = s.optOuts)
    (hcontacts : t.contacts = s.contacts) : Lowers file s t := by
  have hconsent : ∀ phone, t.consent phone = s.consent phone := by
    intro phone
    rw [Store.consent, hcontacts, Store.consent]
  refine ⟨fun phone r hr hactive => ⟨r, by rw [hopt, hr], hactive, rfl⟩, ?_, ?_⟩
  · intro phone hne
    exact absurd (hconsent phone) hne
  · intro phone _
    exact hconsent phone

theorem lowers_writeOptOuts {w : Statement}
    (hw : ∃ source createdBy, w = .revive source createdBy ∨ w = .insert source createdBy) (now : ℤ)
    (ids : Phone → Uuid) (phones : List Phone) :
    Lowers file s (s.writeOptOuts w now ids phones) := by
  refine ⟨fun phone r hr hactive => ?_, fun phone hne => absurd rfl hne, fun phone _ => rfl⟩
  refine ⟨r, ?_, hactive, rfl⟩
  have hkept : w.apply now (ids phone) (some r) = some r := by
    rw [apply_of_active w now (ids phone) hactive]
    obtain ⟨source, createdBy, rfl | rfl⟩ := hw <;> rfl
  simp only [Store.writeOptOuts, hr, hkept, ite_self]

/-- **A call of the upsert raises nobody's standing exactly where the reads are still true.** -/
theorem lowers_upsert {call : List Row} (huniform : Uniform call)
    (hdecided : Decided file call) : Lowers file s (s.upsert call) ↔ Due s call := by
  constructor
  · intro h phone b hb
    have hafter : (s.upsert call).consent phone = b := by
      rw [consent_upsert huniform, hb]
      rfl
    by_cases hsame : s.consent phone = b
    · exact .inl hsame
    · have hne : (s.upsert call).consent phone ≠ s.consent phone := by
        rw [hafter]
        exact Ne.symm hsame
      refine .inr ⟨(h.gets phone hne).1, ?_⟩
      by_contra hgiven
      exact hne (h.keeps phone (by simpa using hgiven))
  · intro h
    have hchange : ∀ phone, (s.upsert call).consent phone ≠ s.consent phone →
        isActive (s.optOuts phone) = false ∧ ¬file.Flagged phone ∧
          (s.consent phone).given = false := by
      intro phone hne
      rw [consent_upsert huniform] at hne
      cases hb : basisFor call phone with
      | none =>
        rw [hb] at hne
        exact absurd rfl hne
      | some b =>
        rw [hb] at hne
        obtain ⟨hactive, hgiven⟩ := (h phone b hb).resolve_left (Ne.symm hne)
        refine ⟨hactive, fun hflag => ?_, hgiven⟩
        -- the row that carries the basis is of a number that no row of the file opts out
        obtain ⟨row, hrow, hconsent⟩ := Option.bind_eq_some_iff.1 hb
        have hphone : row.phone = phone :=
          eq_of_beq (List.find?_some (p := fun row : Row => row.phone == phone) hrow)
        rw [← hphone] at hflag
        rw [hdecided row (List.mem_of_find?_eq_some hrow) hflag] at hconsent
        cases hconsent
    refine ⟨fun phone r hr hactive => ⟨r, by rw [optOuts_upsert, hr], hactive, rfl⟩, ?_, ?_⟩
    · intro phone hne
      exact ⟨(hchange phone hne).1, (hchange phone hne).2.1⟩
    · intro phone hgiven
      by_contra hne
      rw [(hchange phone hne).2.2] at hgiven
      cases hgiven

/-- **Every other step raises nobody's standing.** -/
theorem lowers_advance (s : Store) {p : Point} (x : Answer)
    (hp : ∀ plan call rest, p ≠ .upserting plan (call :: rest)) :
    Lowers p.request.file s (advance s p x).1 := by
  have hrefl : Lowers p.request.file s s := lowers_of_same rfl rfl
  cases p with
  | reading u bs ss basis standing =>
    cases bs <;> cases ss <;> simp only [advance]
    · exact hrefl
    · exact hrefl
    · exact hrefl
    · split_ifs <;> exact hrefl
  | checking u standing rows refusals rest announced => cases rest <;> exact hrefl
  | reviving plan rest =>
    cases rest with
    | nil => exact hrefl
    | cons phones rest => exact lowers_writeOptOuts ⟨_, _, .inl rfl⟩ _ _ _
  | inserting plan rest =>
    cases rest with
    | nil => exact hrefl
    | cons phones rest => exact lowers_writeOptOuts ⟨_, _, .inr rfl⟩ _ _ _
  | upserting plan rest =>
    cases rest with
    | nil => exact hrefl
    | cons call rest => exact absurd rfl (hp plan call rest)
  | looking plan rest latest => cases rest <;> exact hrefl
  | announcing plan latest => exact lowers_of_same rfl rfl

/-! ### Over a run -/

/-- Every import under way carries what it has decided. -/
def AllSober (s : State Store Point) : Prop := ∀ p ∈ s.running, Sober p

theorem allSober_step {s : State Store Point} (h : AllSober s)
    (i : Input Request Answer Outside) : AllSober (step system s i).1 := by
  cases i with
  | start u =>
    intro p hp
    rcases List.mem_append.1 hp with hp | hp
    · exact h p hp
    · rw [List.mem_singleton.1 hp]
      exact sober_enter u
  | crash n => exact fun p hp => h p (List.mem_of_mem_eraseIdx hp)
  | world e => exact h
  | step n x =>
    intro q hq
    rcases mem_running_step hq with hq | ⟨p, hp, hnext⟩
    · exact h q hq
    · exact sober_advance (h p (List.mem_of_getElem? hp)) hnext

theorem lawful_iff_stillTrue {s : State Store Point} (h : AllSober s)
    (i : Input Request Answer Outside) : Lawful s i ↔ StillTrue s i := by
  constructor
  · rintro hlawful n x plan call rest rfl hp
    obtain ⟨huniform, hdecided⟩ := h _ (List.mem_of_getElem? hp) call (by simp)
    exact (lowers_upsert huniform hdecided).1 (hlawful n x _ rfl hp)
  · rintro hstill n x p rfl hp
    by_cases hcall : ∃ plan call rest, p = .upserting plan (call :: rest)
    · obtain ⟨plan, call, rest, rfl⟩ := hcall
      obtain ⟨huniform, hdecided⟩ := h _ (List.mem_of_getElem? hp) call (by simp)
      exact (lowers_upsert huniform hdecided).2 (hstill n x plan call rest rfl hp)
    · refine lowers_advance s.store x fun plan call rest heq => ?_
      exact hcall ⟨plan, call, rest, heq⟩

/-- **Over every run** of imports, of any files, and of texts and opt-outs between their calls,
nobody's standing is raised exactly if, at every call that writes contacts, what was read before is
still true of those that it gives a basis. -/
theorem standing_iff_along (s : Store) (is : List (Input Request Answer Outside)) :
    Reactive.Along (step system) Lawful { store := s, running := [] } is ↔
      Reactive.Along (step system) StillTrue { store := s, running := [] } is :=
  Reactive.along_iff_of_inv _ (fun _ i h => allSober_step h i)
    (fun _ i h => lawful_iff_stillTrue h i) (fun _ hp => absurd hp List.not_mem_nil) is

/-! ### A STOP between the reads and the upsert -/

def oneRow : File :=
  .csv false false
    [{ line := 2
       phone := some "+14165550100"
       name := none
       address := none
       notes := none
       optedOut := false }]

/-- An import reads twice and decides; a STOP comes; the import is about to write the contact. -/
def stopBetween : List (Input Request Answer Outside) :=
  .start { file := oneRow, userId := 1 } ::
    (List.replicate 3 (.step 0 (.clock 10)) ++
      .world (.optOut "+14165550100" .stop 20 5) :: List.replicate 3 (.step 0 (.clock 30)))

/-- **A STOP that arrives between the reads and the upsert**: the contact gets an attested basis
while its number is opted out. -/
theorem stop_overwritten :
    ¬Reactive.Along (step system) Lawful { store := .empty, running := [] }
      (stopBetween ++ [.step 0 (.clock 30)]) := by
  intro h
  have hlast := ((Reactive.along_append _ _ _ _ _).1 h).2.1
  have hlowers := hlast 0 (.clock 30) _ rfl rfl
  have hgets := hlowers.gets "+14165550100" (by decide +kernel)
  exact absurd hgets.1 (by decide +kernel)

end ContactImport
