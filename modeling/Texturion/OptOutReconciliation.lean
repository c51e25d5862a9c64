/-
**The nightly reading of the carrier's list.**

The job takes the first workspaces that have a messaging profile, reads what the carrier blocks for
each of them, and records every number that has no active opt-out of ours.  A record is one or two
calls, and a text may be handled before any call of the run: `since` is the history of those of the
workspace since its list was read, which no row keeps.

Main result:

* `OptOuts.Reconcile.keepsStart_iff` — **a START is overruled exactly by a record that comes after
  it** without another STOP.
-/

import Texturion.OptOuts
import Texturion.ReactiveRun
import Texturion.SqlTable
import Mathlib.Data.List.Perm.Subperm

namespace OptOuts.Reconcile

open SqlTable

/-! ### The run -/

def maxCompaniesPerRun : ℕ := 200

/-- A row of `companies`. -/
structure Company where
  id : Uuid
  createdAt : ℤ
  telnyxMessagingProfileId : Option String
  deletedAt : Option ℤ
  deriving DecidableEq

def withProfile (companies : List Company) : List Company :=
  companies.filter fun c => c.telnyxMessagingProfileId.isSome && c.deletedAt.isNone

/-- The query of the run. -/
def batch (companies : List Company) : List Company :=
  firstBy (·.createdAt) maxCompaniesPerRun (withProfile companies)

/-- The call that the run makes next: the query, the list of a workspace, our opt-outs of it, and
the two statements of `recordCarrierOptOut`, with the numbers and workspaces that are left. -/
inductive Point
  | querying
  | listing (rest : List Company)
  | comparing (company : Company) (theirs : List String) (rest : List Company)
  | reviving (company : Company) (phone : String) (todo : List String) (rest : List Company)
  | inserting (company : Company) (phone : String) (todo : List String) (rest : List Company)
  | over
  deriving DecidableEq

/-- What becomes of a call: it is answered, it is carried out without an answer, or it fails. -/
inductive Answer
  | listed (phones : List String)
  | done (now : ℤ) (id : Uuid)
  | unheard (now : ℤ) (id : Uuid)
  | failed
  deriving DecidableEq

inductive Input
  | call (answer : Answer)
  | text (companyId : Uuid) (phone : String) (word : Keyword) (now : ℤ) (id : Uuid)
  deriving DecidableEq

inductive Event
  | read (companyId : Uuid)
  | recorded (companyId : Uuid) (phone : String)
  deriving DecidableEq

structure State where
  companies : List Company
  optOuts : Uuid → String → Option OptOut
  point : Point
  since : List (String × Keyword)

/-- A statement on the row of a number. -/
def State.write (s : State) (w : Statement) (companyId : Uuid) (phone : String) (now : ℤ)
    (id : Uuid) : State :=
  { s with optOuts := fun c p =>
      if c = companyId ∧ p = phone then w.apply now id (s.optOuts c p) else s.optOuts c p }

def State.carrierOnly (s : State) (company : Company) (theirs : List String) : List String :=
  theirs.filter fun phone => !isActive (s.optOuts company.id phone)

def next (company : Company) (rest : List Company) : List String → Point
  | [] => .listing rest
  | phone :: todo => .reviving company phone todo rest

/-- The statement recorded the number if it has changed whether it is opted out. -/
def record (company : Company) (phone : String) (w : Statement) (row : Option OptOut) :
    List Event :=
  if w.returns row then [.recorded company.id phone] else []

def revive : Statement := .revive .carrier none
def insert : Statement := .insert .carrier none

/-- One call of the run.  An error of a workspace ends with it; one of a record, with the number. -/
def advance (s : State) : Point → Answer → State × List Event
  | .querying, .done _ _ => ({ s with point := .listing (batch s.companies) }, [])
  | .querying, _ => ({ s with point := .over }, [])
  | .listing [], _ => ({ s with point := .over }, [])
  | .listing (company :: rest), .listed phones =>
    ({ s with point := .comparing company phones.eraseDups rest, since := [] },
      [.read company.id])
  | .listing (_ :: rest), _ => ({ s with point := .listing rest }, [])
  | .comparing company theirs rest, .done _ _ =>
    ({ s with point := next company rest (s.carrierOnly company theirs) }, [])
  | .comparing _ _ rest, _ => ({ s with point := .listing rest }, [])
  | .reviving company phone todo rest, .done now id =>
    let row := s.optOuts company.id phone
    ({ s.write revive company.id phone now id with
        point := if revive.returns row then next company rest todo
          else .inserting company phone todo rest },
      record company phone revive row)
  | .reviving company phone todo rest, .unheard now id =>
    ({ s.write revive company.id phone now id with point := next company rest todo },
      record company phone revive (s.optOuts company.id phone))
  | .inserting company phone todo rest, .done now id =>
    ({ s.write insert company.id phone now id with point := next company rest todo },
      record company phone insert (s.optOuts company.id phone))
  | .inserting company phone todo rest, .unheard now id =>
    ({ s.write insert company.id phone now id with point := next company rest todo },
      record company phone insert (s.optOuts company.id phone))
  | .reviving company _ todo rest, _ => ({ s with point := next company rest todo }, [])
  | .inserting company _ todo rest, _ => ({ s with point := next company rest todo }, [])
  | .over, _ => (s, [])

/-- The workspace that the run is at. -/
def Point.company : Point → Option Company
  | .comparing company _ _ => some company
  | .reviving company _ _ _ => some company
  | .inserting company _ _ _ => some company
  | _ => none

def step (s : State) : Input → State × List Event
  | .call answer => advance s s.point answer
  | .text companyId phone word now id =>
    ({ s.write word.statement companyId phone now id with
        since := if s.point.company.any (·.id = companyId) then (phone, word) :: s.since
          else s.since }, [])

/-- A run before its first call. -/
def start (companies : List Company) (optOuts : Uuid → String → Option OptOut) : State where
  companies := companies
  optOuts := optOuts
  point := .querying
  since := []

/-! ### The workspaces of a run -/

open Reactive (Along final outputs)

/-- The workspaces whose lists the run has still to read. -/
def Point.left (companies : List Company) : Point → List Company
  | .querying => batch companies
  | .listing rest => rest
  | .comparing _ _ rest => rest
  | .reviving _ _ _ rest => rest
  | .inserting _ _ _ rest => rest
  | .over => []

def State.left (s : State) : List Company := s.point.left s.companies

@[simp] theorem left_listing (companies rest : List Company) :
    (Point.listing rest).left companies = rest := rfl

section

variable (companies : List Company) (company : Company)

@[simp] theorem left_comparing (theirs : List String) (rest : List Company) :
    (Point.comparing company theirs rest).left companies = rest := rfl

@[simp] theorem left_reviving (phone : String) (todo : List String)
    (rest : List Company) : (Point.reviving company phone todo rest).left companies = rest := rfl

@[simp] theorem left_inserting (phone : String) (todo : List String)
    (rest : List Company) : (Point.inserting company phone todo rest).left companies = rest := rfl

@[simp] theorem left_next (rest : List Company)
    (todo : List String) : (next company rest todo).left companies = rest := by
  cases todo <;> rfl

end

def Answered (s : State) (i : Input) : Prop :=
  match s.point, i with
  | .querying, .call answer => ∃ now id, answer = .done now id
  | .listing (_ :: _), .call answer => ∃ phones, answer = .listed phones
  | _, _ => True

/-- The run has come to its end, and all lists that it asked for were read. -/
def Completed (companies : List Company)
    (run : (Uuid → String → Option OptOut) × List Input) : Prop :=
  (final step (start companies run.1) run.2).point = .over ∧
    Along step Answered (start companies run.1) run.2

def Reads (companies : List Company)
    (run : (Uuid → String → Option OptOut) × List Input) (c : Company) : Prop :=
  Event.read c.id ∈ outputs step (start companies run.1) run.2

variable {company : Company} {phone : String} {row : Option OptOut} {companies : List Company}
  {s : State} {i : Input}

theorem not_read_of_record {id : Uuid} {w : Statement} : Event.read id ∉ record company phone w row := by
  rw [record]
  split_ifs <;> simp

/-- **What one move does to the workspaces that are left**: none is taken, the first one is read, or
a call about them is not answered. -/
theorem step_left (s : State) (i : Input) :
    ((step s i).1.left = s.left ∧ ∀ id, Event.read id ∉ (step s i).2) ∨
      (∃ c rest, s.left = c :: rest ∧ (step s i).1.left = rest ∧ (step s i).2 = [.read c.id]) ∨
      (¬Answered s i ∧ (∃ n, (step s i).1.left = s.left.drop n) ∧ (step s i).2 = []) := by
  cases i with
  | text companyId phone word now id => exact .inl ⟨rfl, nofun⟩
  | call answer =>
    cases hpoint : s.point with
    | querying =>
      cases answer with
      | done now id =>
        left
        simp [step, hpoint, advance, State.left, Point.left]
      | _ =>
        refine .inr (.inr ⟨by simp [Answered, hpoint], ⟨s.left.length, ?_⟩, ?_⟩)
        · simp only [step, hpoint, advance, State.left, Point.left, List.drop_length]
        · simp only [step, hpoint, advance]
    | listing rest =>
      cases rest with
      | nil =>
        left
        simp [step, hpoint, advance, State.left, Point.left]
      | cons company rest =>
        cases answer with
        | listed phones =>
          refine .inr (.inl ⟨company, rest, ?_, ?_, ?_⟩) <;>
            simp only [step, hpoint, advance, State.left, Point.left]
        | _ =>
          refine .inr (.inr ⟨by simp [Answered, hpoint], ⟨1, ?_⟩, ?_⟩) <;>
            simp only [step, hpoint, advance, State.left, Point.left, List.drop_succ_cons,
              List.drop_zero]
    | comparing company theirs rest =>
      left
      cases answer <;> simp [step, hpoint, advance, State.left]
    | reviving company phone todo rest =>
      left
      cases answer with
      | done now id =>
        by_cases hreturns : revive.returns (s.optOuts company.id phone) = true <;>
          simp [step, hpoint, advance, State.left, State.write, hreturns,
            not_read_of_record]
      | _ =>
        simp [step, hpoint, advance, State.left, State.write, not_read_of_record]
    | inserting company phone todo rest =>
      left
      cases answer <;>
        simp [step, hpoint, advance, State.left, State.write, not_read_of_record]
    | «over» =>
      left
      simp [step, hpoint, advance]

@[simp] theorem step_companies (s : State) (i : Input) : (step s i).1.companies = s.companies := by
  cases i with
  | text companyId phone word now id => rfl
  | call answer =>
    simp only [step]
    fun_cases advance s s.point answer <;> simp_all [State.write]

/-- Only lists of the batch are read, and only those are left. -/
structure WithinBatch (companies : List Company) (s : State) (out : List Event) : Prop where
  left : ∀ c ∈ s.left, c ∈ batch companies
  read : ∀ id, Event.read id ∈ out → ∃ c ∈ batch companies, c.id = id

theorem withinBatch_step {out : List Event} (hs : WithinBatch companies s out) :
    WithinBatch companies (step s i).1 (out ++ (step s i).2) := by
  obtain ⟨hleft, hread⟩ := hs
  rcases step_left s i with ⟨hsame, hnone⟩ | ⟨c, rest, hc, hrest, hout⟩ | ⟨-, ⟨n, hdrop⟩, hout⟩
  · refine ⟨fun c hc => hleft c (hsame ▸ hc), fun id hid => ?_⟩
    rcases List.mem_append.1 hid with hid | hid
    · exact hread id hid
    · exact absurd hid (hnone id)
  · rw [hc] at hleft
    rw [hout]
    refine ⟨fun c' hc' => hleft c' ?_, fun id hid => ?_⟩
    · rw [hrest] at hc'
      exact List.mem_cons_of_mem _ hc'
    · rcases List.mem_append.1 hid with hid | hid
      · exact hread id hid
      · obtain rfl := Event.read.inj (List.mem_singleton.1 hid)
        exact ⟨c, hleft c (List.mem_cons_self ..), rfl⟩
  · rw [hout, List.append_nil]
    refine ⟨fun c hc => hleft c ?_, hread⟩
    rw [hdrop] at hc
    exact List.mem_of_mem_drop hc

theorem mem_batch_of_reads {run : (Uuid → String → Option OptOut) × List Input} {c : Company}
    (h : Reads companies run c) : ∃ c' ∈ batch companies, c'.id = c.id := by
  have hstart : WithinBatch companies (start companies run.1) [] := ⟨fun c hc => hc, nofun⟩
  have hinv := Reactive.outputs_of_inv step (P := WithinBatch companies)
    (fun _ _ _ hs => withinBatch_step hs) hstart run.2
  exact hinv.read c.id h

def ReadOrLeft (companies : List Company) (s : State) (out : List Event) : Prop :=
  ∀ c ∈ batch companies, c ∈ s.left ∨ Event.read c.id ∈ out

theorem readOrLeft_step {out : List Event} (hs : ReadOrLeft companies s out)
    (hanswered : Answered s i) : ReadOrLeft companies (step s i).1 (out ++ (step s i).2) := by
  intro c hc
  rcases hs c hc with hleft | hread
  · rcases step_left s i with ⟨hsame, -⟩ | ⟨c', rest, hc', hrest, hout⟩ | ⟨hnot, -⟩
    · exact .inl (hsame ▸ hleft)
    · rw [hc'] at hleft
      rw [hrest, hout]
      rcases List.mem_cons.1 hleft with rfl | hleft
      · exact .inr (by simp)
      · exact .inl hleft
    · exact absurd hanswered hnot
  · exact .inr (List.mem_append_left _ hread)

theorem reads_of_completed
    {run : (Uuid → String → Option OptOut) × List Input} (h : Completed companies run) {c : Company}
    (hc : c ∈ batch companies) : Reads companies run c := by
  have hstart : ReadOrLeft companies (start companies run.1) [] := fun c hc => .inl hc
  have hinv := Reactive.outputs_of_inv_along step (P := ReadOrLeft companies)
    (fun _ _ _ hs hanswered => readOrLeft_step hs hanswered) hstart h.2
  rcases hinv c hc with hleft | hread
  · rw [State.left, h.1] at hleft
    cases hleft
  · exact hread

/-- A night on which the carrier blocks nobody and nobody writes. -/
def quietNight (companies : List Company) : List Input :=
  .call (.done 0 0) ::
    ((batch companies).flatMap fun _ => [.call (.listed []), .call (.done 0 0)]) ++
      [.call .failed]

theorem completed_quietNight (companies : List Company) (optOuts : Uuid → String → Option OptOut) :
    Completed companies (optOuts, quietNight companies) := by
  have hlists : ∀ (rest : List Company) (s : State), s.point = .listing rest →
      (final step s (rest.flatMap (fun _ => [.call (.listed []), .call (.done 0 0)]) ++
        [.call .failed])).point = .over ∧
      Along step Answered s (rest.flatMap (fun _ => [.call (.listed []), .call (.done 0 0)]) ++
        [.call .failed]) := by
    intro rest
    induction rest with
    | nil =>
      intro s hs
      simp [step, hs, advance, Along, Answered]
    | cons company rest ih =>
      intro s hs
      obtain ⟨hfinal, hanswered⟩ := ih
        (step (step s (.call (.listed []))).1 (.call (.done 0 0))).1
        (by simp [step, hs, advance, State.carrierOnly, next])
      refine ⟨hfinal, ?_, ?_, hanswered⟩
      · simp [Answered, hs]
      · simp [Answered, step, hs, advance]
  obtain ⟨hfinal, hanswered⟩ := hlists (batch companies)
    (step (start companies optOuts) (.call (.done 0 0))).1 rfl
  exact ⟨hfinal, ⟨0, 0, rfl⟩, hanswered⟩

theorem exists_not_mem_batch (hids : (companies.map (·.id)).Nodup)
    (h : maxCompaniesPerRun < (withProfile companies).length) :
    ∃ c ∈ withProfile companies, ∀ c' ∈ batch companies, c'.id ≠ c.id := by
  have hnodup : ((withProfile companies).map (·.id)).Nodup :=
    hids.sublist (List.filter_sublist.map _)
  have hlength : (batch companies).length = maxCompaniesPerRun := by
    rw [batch, length_firstBy]
    omega
  by_contra hall
  push Not at hall
  have hsub : (withProfile companies).map (·.id) ⊆ (batch companies).map (·.id) := by
    intro id hid
    obtain ⟨c, hc, rfl⟩ := List.mem_map.1 hid
    obtain ⟨c', hc', heq⟩ := hall c hc
    exact List.mem_map.2 ⟨c', hc', heq⟩
  have hle := (hnodup.subperm hsub).length_le
  simp only [List.length_map] at hle
  omega

/-- `ceil(n / 200)` nights. -/
def nights (companies : List Company) : ℕ :=
  ((withProfile companies).length + maxCompaniesPerRun - 1) / maxCompaniesPerRun

/-- **The nights read every list exactly where the limit of one does not bind.** -/
theorem visits_iff (hids : (companies.map (·.id)).Nodup) :
    (∀ runs : List ((Uuid → String → Option OptOut) × List Input), runs.length = nights companies →
        (∀ run ∈ runs, Completed companies run) →
        ∀ c ∈ withProfile companies, ∃ run ∈ runs, Reads companies run c) ↔
      (withProfile companies).length ≤ maxCompaniesPerRun := by
  constructor
  · intro hall
    by_contra hlt
    obtain ⟨c, hc, hnot⟩ := exists_not_mem_batch hids (by omega)
    obtain ⟨run, hrun, hreads⟩ := hall
      (List.replicate (nights companies) (fun _ _ => none, quietNight companies))
      (List.length_replicate ..)
      (fun run hrun => List.eq_of_mem_replicate hrun ▸ completed_quietNight companies _) c hc
    obtain ⟨c', hc', heq⟩ := mem_batch_of_reads hreads
    exact hnot c' hc' heq
  · intro hle runs hlength hcompleted c hc
    have hpos : 0 < (withProfile companies).length := List.length_pos_of_mem hc
    have hone : nights companies = 1 := by
      simp only [nights, maxCompaniesPerRun] at hle ⊢
      omega
    obtain ⟨run, rfl⟩ := List.length_eq_one_iff.1 (hlength.trans hone)
    refine ⟨run, List.mem_singleton_self run, ?_⟩
    exact reads_of_completed (hcompleted run (List.mem_singleton_self run))
      (mem_firstBy_of_length_le hle hc)

/-! ### The texts of a run -/

/-- The last text of the number since the list of its workspace was read. -/
def State.lastWord (s : State) (phone : String) : Option Keyword :=
  (s.since.find? fun text => text.1 = phone).map (·.2)

def Input.carriedOut : Input → Bool
  | .call (.done _ _) => true
  | .call (.unheard _ _) => true
  | _ => false

/-- The call finds a row of the number to revive, or none where it inserts one. -/
def Fits (s : State) (phone : String) : Prop :=
  match s.point with
  | .reviving company p _ _ => p = phone ∧ (s.optOuts company.id p).isSome = true
  | .inserting company p _ _ => p = phone ∧ s.optOuts company.id p = none
  | _ => False

/-- No number is recorded whose customer has texted START since the list was read. -/
def KeepsStart (s : State) (i : Input) : Prop :=
  ∀ companyId phone, Event.recorded companyId phone ∈ (step s i).2 → (phone, .start) ∉ s.since

/-- A record that fits is carried out only if the last text since, if there is one, is a STOP. -/
def Settled (s : State) (i : Input) : Prop :=
  i.carriedOut = true → ∀ phone, Fits s phone → s.lastWord phone ≠ some .start

/-- The last text since says whether the number is opted out. -/
def Known (s : State) (company : Company) (phone : String) : Prop :=
  ∀ word, s.lastWord phone = some word →
    isActive (s.optOuts company.id phone) = decide (word = .stop)

/-- What a run knows of the numbers that it has still to record. -/
def Inv (s : State) : Prop :=
  match s.point with
  | .comparing company theirs _ => theirs.Nodup ∧ ∀ phone ∈ theirs, Known s company phone
  | .reviving company phone todo _ =>
    (phone :: todo).Nodup ∧ ∀ p ∈ phone :: todo, Known s company p
  | .inserting company phone todo _ =>
    (phone :: todo).Nodup ∧ ∀ p ∈ phone :: todo, Known s company p
  | _ => True

theorem nodup_eraseDups (l : List String) : l.eraseDups.Nodup := by
  induction hn : l.length using Nat.strong_induction_on generalizing l with
  | _ n ih =>
    cases l with
    | nil => exact List.nodup_nil
    | cons a l =>
      rw [List.eraseDups_cons, List.nodup_cons]
      constructor
      · intro hmem
        have hfilter := List.mem_eraseDups.1 hmem
        simp at hfilter
      · have hle := List.length_filter_le (fun b => !b == a) l
        rw [List.length_cons] at hn
        exact ih _ (by omega) _ rfl

theorem inv_next {rest : List Company} {todo : List String}
    (hpoint : s.point = next company rest todo) (hnodup : todo.Nodup)
    (hknown : ∀ phone ∈ todo, Known s company phone) : Inv s := by
  cases todo with
  | nil =>
    simp only [next] at hpoint
    simp only [Inv, hpoint]
  | cons phone todo =>
    simp only [next] at hpoint
    simp only [Inv, hpoint]
    exact ⟨hnodup, hknown⟩

theorem known_write {phone other : String} (hne : other ≠ phone) (h : Known s company other)
    (w : Statement) (now : ℤ) (id : Uuid) (point : Point) :
    Known { s.write w company.id phone now id with point := point } company other := by
  intro word hword
  have hsame : (s.write w company.id phone now id).optOuts company.id other =
      s.optOuts company.id other := if_neg fun h => hne h.2
  simp only [hsame]
  exact h word hword

theorem known_text (h : Known s company phone)
    (hcompany : s.point.company = some company) (companyId : Uuid) (p : String) (word : Keyword)
    (now : ℤ) (id : Uuid) : Known (step s (.text companyId p word now id)).1 company phone := by
  intro last hlast
  by_cases hid : company.id = companyId
  · subst hid
    by_cases hp : p = phone
    · subst hp
      have hword : word = last := by
        simpa [State.lastWord, step, hcompany] using hlast
      subst hword
      simp only [step, State.write, and_self, if_true]
      exact isActive_keyword word now id _
    · have hlast' : s.lastWord phone = some last := by
        simpa [State.lastWord, step, hcompany, hp] using hlast
      have hrow : (s.write word.statement company.id p now id).optOuts company.id phone =
          s.optOuts company.id phone := if_neg fun h => hp h.2.symm
      simp only [step, hrow]
      exact h last hlast'
  · have hlast' : s.lastWord phone = some last := by
      simpa [State.lastWord, step, hcompany, hid] using hlast
    have hrow : (s.write word.statement companyId p now id).optOuts company.id phone =
        s.optOuts company.id phone := if_neg fun h => hid h.1
    simp only [step, hrow]
    exact h last hlast'

theorem apply_revive_of_not_returned (h : ¬revive.returns row = true)
    (now : ℤ) (id : Uuid) : revive.apply now id row = row := by
  cases row with
  | none => rfl
  | some r =>
    have hactive : r.active = true := by simpa [revive, Statement.returns] using h
    simp only [revive, Statement.apply, hactive, if_true]

/-- **What one move keeps of what is known.** -/
theorem inv_step (hs : Inv s) (i : Input) : Inv (step s i).1 := by
  cases i with
  | text companyId p word now id =>
    have hpoint : (step s (.text companyId p word now id)).1.point = s.point := rfl
    cases hat : s.point with
    | comparing company theirs rest =>
      simp only [Inv, hat] at hs
      simp only [Inv, hpoint, hat]
      refine ⟨hs.1, fun q hq => known_text (hs.2 q hq) ?_ _ _ _ _ _⟩
      rw [hat]
      rfl
    | reviving company phone todo rest =>
      simp only [Inv, hat] at hs
      simp only [Inv, hpoint, hat]
      refine ⟨hs.1, fun q hq => known_text (hs.2 q hq) ?_ _ _ _ _ _⟩
      rw [hat]
      rfl
    | inserting company phone todo rest =>
      simp only [Inv, hat] at hs
      simp only [Inv, hpoint, hat]
      refine ⟨hs.1, fun q hq => known_text (hs.2 q hq) ?_ _ _ _ _ _⟩
      rw [hat]
      rfl
    | _ => simp only [Inv, hpoint, hat]
  | call answer =>
    cases hat : s.point with
    | querying => cases answer <;> simp [step, hat, advance, Inv]
    | listing rest =>
      cases rest with
      | nil => simp [step, hat, advance, Inv]
      | cons company rest =>
        cases answer with
        | listed phones =>
          simp only [step, hat, advance, Inv]
          exact ⟨nodup_eraseDups phones, fun phone _ word hword => by
            simp [State.lastWord] at hword⟩
        | _ => simp [step, hat, advance, Inv]
    | comparing company theirs rest =>
      simp only [Inv, hat] at hs
      cases answer with
      | done now id =>
        simp only [step, hat, advance]
        refine inv_next rfl (hs.1.filter _) fun phone hphone => ?_
        exact hs.2 phone (List.mem_filter.1 hphone).1
      | _ => simp [step, hat, advance, Inv]
    | reviving company phone todo rest =>
      simp only [Inv, hat] at hs
      obtain ⟨hnodup, hknown⟩ := hs
      have hnot := (List.nodup_cons.1 hnodup).1
      have hothers : ∀ p ∈ todo, Known s company p := fun p hp =>
        hknown p (List.mem_cons_of_mem _ hp)
      have hne : ∀ p ∈ todo, p ≠ phone := fun p hp heq => hnot (heq ▸ hp)
      cases answer with
      | done now id =>
        simp only [step, hat, advance]
        by_cases hreturns : revive.returns (s.optOuts company.id phone) = true
        · simp only [hreturns, if_true]
          exact inv_next rfl (List.nodup_cons.1 hnodup).2 fun p hp =>
            known_write (hne p hp) (hothers p hp) _ _ _ _
        · simp only [hreturns, Bool.false_eq_true, if_false, Inv]
          refine ⟨hnodup, fun p hp => ?_⟩
          rcases List.mem_cons.1 hp with rfl | hp
          · have hsame : (s.write revive company.id p now id).optOuts company.id p =
                s.optOuts company.id p :=
              (if_pos ⟨rfl, rfl⟩).trans (apply_revive_of_not_returned hreturns now id)
            intro word hword
            simp only [hsame]
            exact hknown p (List.mem_cons_self ..) word hword
          · exact known_write (hne p hp) (hothers p hp) _ _ _ _
      | unheard now id =>
        simp only [step, hat, advance]
        exact inv_next rfl (List.nodup_cons.1 hnodup).2 fun p hp =>
          known_write (hne p hp) (hothers p hp) _ _ _ _
      | _ =>
        simp only [step, hat, advance]
        exact inv_next rfl (List.nodup_cons.1 hnodup).2 hothers
    | inserting company phone todo rest =>
      simp only [Inv, hat] at hs
      obtain ⟨hnodup, hknown⟩ := hs
      have hnot := (List.nodup_cons.1 hnodup).1
      have hothers : ∀ p ∈ todo, Known s company p := fun p hp =>
        hknown p (List.mem_cons_of_mem _ hp)
      have hne : ∀ p ∈ todo, p ≠ phone := fun p hp heq => hnot (heq ▸ hp)
      cases answer with
      | done now id =>
        simp only [step, hat, advance]
        exact inv_next rfl (List.nodup_cons.1 hnodup).2 fun p hp =>
          known_write (hne p hp) (hothers p hp) _ _ _ _
      | unheard now id =>
        simp only [step, hat, advance]
        exact inv_next rfl (List.nodup_cons.1 hnodup).2 fun p hp =>
          known_write (hne p hp) (hothers p hp) _ _ _ _
      | _ =>
        simp only [step, hat, advance]
        exact inv_next rfl (List.nodup_cons.1 hnodup).2 hothers
    | «over» => simp [step, hat, advance, Inv]

theorem mem_record {companyId : Uuid} {p : String} {w : Statement} :
    Event.recorded companyId p ∈ record company phone w row ↔
      company.id = companyId ∧ phone = p ∧ w.returns row = true := by
  rw [record]
  split_ifs with hreturns
  · simp [hreturns, eq_comm]
  · simp [hreturns]

/-- The call of the run would change whether the number is opted out. -/
def Records (s : State) (companyId : Uuid) (phone : String) : Prop :=
  match s.point with
  | .reviving company p _ _ =>
    company.id = companyId ∧ p = phone ∧ revive.returns (s.optOuts company.id p) = true
  | .inserting company p _ _ =>
    company.id = companyId ∧ p = phone ∧ insert.returns (s.optOuts company.id p) = true
  | _ => False

theorem recorded_iff {companyId : Uuid} :
    Event.recorded companyId phone ∈ (step s i).2 ↔
      i.carriedOut = true ∧ Records s companyId phone := by
  cases i with
  | text companyId p word now id => simp [step, Input.carriedOut]
  | call answer =>
    cases hat : s.point with
    | querying => cases answer <;> simp [step, hat, advance, Records]
    | listing rest =>
      cases rest with
      | nil => simp [step, hat, advance, Records]
      | cons company rest => cases answer <;> simp [step, hat, advance, Records]
    | comparing company theirs rest => cases answer <;> simp [step, hat, advance, Records]
    | reviving company p todo rest =>
      cases answer <;> simp [step, hat, advance, Records, Input.carriedOut, mem_record]
    | inserting company p todo rest =>
      cases answer <;> simp [step, hat, advance, Records, Input.carriedOut, mem_record]
    | «over» => simp [step, hat, advance, Records]

theorem mem_since_of_lastWord {word : Keyword}
    (h : s.lastWord phone = some word) : (phone, word) ∈ s.since := by
  obtain ⟨text, htext, rfl⟩ := Option.map_eq_some_iff.1 h
  have hphone : text.1 = phone := by simpa using List.find?_some htext
  have hmem := List.mem_of_find?_eq_some htext
  subst hphone
  exact hmem

theorem exists_lastWord {word : Keyword}
    (h : (phone, word) ∈ s.since) : ∃ last, s.lastWord phone = some last := by
  cases hfind : s.since.find? fun text => text.1 = phone with
  | none => exact absurd (by simp) (List.find?_eq_none.1 hfind _ h)
  | some text => exact ⟨text.2, by simp [State.lastWord, hfind]⟩

/-- **One call overrules a START exactly where the last text since is one.** -/
theorem keepsStart_step (hs : Inv s) (i : Input) : KeepsStart s i ↔ Settled s i := by
  constructor
  · intro hkeeps hcarried phone hfits hlast
    refine absurd (mem_since_of_lastWord hlast) ?_
    cases hat : s.point with
    | reviving company p todo rest =>
      simp only [Fits, hat] at hfits
      simp only [Inv, hat] at hs
      obtain ⟨rfl, hrow⟩ := hfits
      have hknown := hs.2 p (List.mem_cons_self ..) .start hlast
      refine hkeeps company.id p (recorded_iff.2 ⟨hcarried, ?_⟩)
      simp only [Records, hat, true_and]
      obtain ⟨r, hr⟩ := Option.isSome_iff_exists.1 hrow
      rw [hr] at hknown ⊢
      simpa [revive, Statement.returns] using hknown
    | inserting company p todo rest =>
      simp only [Fits, hat] at hfits
      obtain ⟨rfl, hrow⟩ := hfits
      refine hkeeps company.id p (recorded_iff.2 ⟨hcarried, ?_⟩)
      simp only [Records, hat, true_and, hrow]
      rfl
    | _ => simp only [Fits, hat] at hfits
  · intro hsettled companyId phone hrecorded hstart
    obtain ⟨hcarried, hrecords⟩ := recorded_iff.1 hrecorded
    obtain ⟨last, hlast⟩ := exists_lastWord hstart
    cases hat : s.point with
    | reviving company p todo rest =>
      simp only [Records, hat] at hrecords
      simp only [Inv, hat] at hs
      obtain ⟨-, rfl, hreturns⟩ := hrecords
      have hknown := hs.2 p (List.mem_cons_self ..) last hlast
      cases hrow : s.optOuts company.id p with
      | none =>
        rw [hrow] at hreturns
        cases hreturns
      | some r =>
        have hfits : Fits s p := by simp [Fits, hat, hrow]
        have hstop : last = .stop := by
          cases last with
          | stop => rfl
          | start => exact absurd hlast (hsettled hcarried p hfits)
        rw [hrow] at hreturns hknown
        rw [hstop] at hknown
        simp [revive, Statement.returns] at hreturns hknown
        rw [hreturns] at hknown
        cases hknown
    | inserting company p todo rest =>
      simp only [Records, hat] at hrecords
      simp only [Inv, hat] at hs
      obtain ⟨-, rfl, hreturns⟩ := hrecords
      have hrow : s.optOuts company.id p = none := by
        simpa [insert, Statement.returns] using hreturns
      have hfits : Fits s p := by simp [Fits, hat, hrow]
      have hstop : last = .stop := by
        cases last with
        | stop => rfl
        | start => exact absurd hlast (hsettled hcarried p hfits)
      have hknown := hs.2 p (List.mem_cons_self ..) last hlast
      rw [hrow, hstop] at hknown
      cases hknown
    | _ => simp only [Records, hat] at hrecords

/-- **A run overrules no START exactly where none comes last before the record.** -/
theorem keepsStart_iff (companies : List Company) (optOuts : Uuid → String → Option OptOut)
    (is : List Input) : Along step KeepsStart (start companies optOuts) is ↔
      Along step Settled (start companies optOuts) is :=
  Reactive.along_iff_of_inv step (P := Inv) (fun _ i hs => inv_step hs i)
    (fun _ i hs => keepsStart_step hs i)
    (show Inv (start companies optOuts) from trivial) is

/-- **The job covers the workspaces exactly up to its limit, and overrules a START exactly where it
records a number after one.** -/
theorem reconcile_exactly {companies : List Company} (hids : (companies.map (·.id)).Nodup) :
    ((∀ runs : List ((Uuid → String → Option OptOut) × List Input),
        runs.length = nights companies → (∀ run ∈ runs, Completed companies run) →
        ∀ c ∈ withProfile companies, ∃ run ∈ runs, Reads companies run c) ↔
      (withProfile companies).length ≤ maxCompaniesPerRun) ∧
    ∀ optOuts is, Along step KeepsStart (start companies optOuts) is ↔
      Along step Settled (start companies optOuts) is :=
  ⟨visits_iff hids, fun optOuts is => keepsStart_iff companies optOuts is⟩

/-- Workspaces in the order in which they were made. -/
def workspaces (n : ℕ) : List Company :=
  (List.range n).map fun i =>
    { id := i, createdAt := i, telnyxMessagingProfileId := some "profile", deletedAt := none }

theorem nodup_workspaces (n : ℕ) : ((workspaces n).map (·.id)).Nodup := by
  rw [workspaces, List.map_map]
  simpa [Function.comp_def] using List.nodup_range

/-- The carrier blocks a number; its customer texts START before the run gets to record it. -/
def startedMeanwhile : List Input :=
  [.call (.done 0 0), .call (.listed ["+15550100"]), .call (.done 0 0),
    .text 0 "+15550100" .start 1 1, .call (.done 2 2), .call (.done 3 3)]

instance (s : State) (i : Input) : Decidable (KeepsStart s i) :=
  decidable_of_iff (∀ e ∈ (step s i).2, ∀ phone ∈ (match e with
    | .recorded _ phone => [phone]
    | .read _ => []), (phone, .start) ∉ s.since) <| by
  constructor
  · intro h companyId phone he
    exact h _ he phone (List.mem_singleton_self phone)
  · intro h e he phone hphone
    cases e with
    | read companyId => cases hphone
    | recorded companyId p =>
      obtain rfl := List.mem_singleton.1 hphone
      exact h companyId phone he

theorem reconcile_exactly_pair :
    Along step Settled (start (workspaces 2) fun _ _ => none) (quietNight (workspaces 2)) ∧
      Along step KeepsStart (start (workspaces 2) fun _ _ => none) (quietNight (workspaces 2)) := by
  have hkeeps : Along step KeepsStart (start (workspaces 2) fun _ _ => none)
      (quietNight (workspaces 2)) := by decide +kernel
  exact ⟨((reconcile_exactly (nodup_workspaces 2)).2 _ _).1 hkeeps, hkeeps⟩

/-- Two nights do not read the lists of 201 workspaces; and a START is overruled. -/
theorem start_overruled :
    (¬∀ runs : List ((Uuid → String → Option OptOut) × List Input),
      runs.length = nights (workspaces 201) → (∀ run ∈ runs, Completed (workspaces 201) run) →
        ∀ c ∈ withProfile (workspaces 201), ∃ run ∈ runs, Reads (workspaces 201) run c) ∧
      ¬Along step KeepsStart (start (workspaces 1) fun _ _ => none) startedMeanwhile := by
  have hlength : (withProfile (workspaces 201)).length = 201 := by decide +kernel
  constructor
  · rw [visits_iff (nodup_workspaces 201), hlength, maxCompaniesPerRun]
    omega
  · decide +kernel

end OptOuts.Reconcile
