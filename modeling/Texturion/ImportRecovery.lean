/-
**Uploading a file again after an import has died.**

"Both steps are idempotent, which is what makes re-uploading the file the whole recovery procedure":
the contacts and the opt-outs are indeed left as an import that nothing interrupts would have left
them.  The announcements are decided on from what has been announced instead of from what has
changed, so that the second import makes up for what the first has not come to.  But the evidence
that an opt-out has been announced is any earlier announcement of the number.  Where the number was
opted out once, came back, and is opted out again by an import that dies before its last call, the
second import takes the old announcement for its own.

Main results:

* `ContactImport.people_recovered`, `ContactImport.restrictions_recovered` — **contacts and opt-outs
  are always recovered**;
* `ContactImport.recovers_iff` — **the announcements are, exactly under the condition**.
-/

import Texturion.ImportBook

namespace ContactImport

open OptOuts Interleaving

/-! ### Contacts and opt-outs -/

variable {u : Request} {b c : Book} {phone : Phone} {s t : Store}

/-- Where the import has written a contact, another one gives it no other basis. -/
theorem attests_written {e : Entry} (hpeople : c.people e.phone = some (b.person u e))
    (hactive : e.optedOut = false → c.isActive e.phone = b.isActive e.phone) :
    c.attests e = false := by
  by_contra hattests
  simp only [Book.attests, hpeople, Option.any_some, Bool.not_eq_false, Bool.and_eq_true,
    Bool.not_eq_true', Bool.or_eq_false_iff] at hattests
  obtain ⟨⟨hnot, hfile⟩, hgiven⟩ := hattests
  rw [hactive hfile] at hnot
  -- it was given the basis, or had one
  by_cases hfirst : b.attests e = true
  · simp [Person.given, Book.person, Entry.over, hfirst] at hgiven
  · have hhad : (b.people e.phone).any Person.given = true := by
      simpa [Book.attests, hnot, hfile] using hfirst
    obtain ⟨p, hp, hpgiven⟩ := Option.any_eq_true .. |>.mp hhad
    simp only [Bool.not_eq_true] at hfirst
    simp only [Person.given, Book.person, Entry.over, hfirst, hp, Option.getD_some] at hgiven
    rw [Person.given] at hpgiven
    simp [hpgiven] at hgiven

theorem isActive_of_restrictions
    (h : c.restrictions phone = b.restrictions phone) : c.isActive phone = b.isActive phone := by
  rw [Book.isActive, h, Book.isActive]

/-- **The contacts are recovered.** -/
theorem people_recovered (h : Between u s t) :
    (t.book.imported u).people = (s.book.imported u).people := by
  funext phone
  by_cases hphone : ∃ e ∈ u.file.entries, e.phone = phone
  · obtain ⟨e, he, rfl⟩ := hphone
    have hactive : e.optedOut = false → t.book.isActive e.phone = s.book.isActive e.phone := by
      intro hfile
      have hnot : e.phone ∉ u.file.optedOutPhones := by
        rw [mem_optedOutPhones, ← optedOut_entries he, hfile]
        exact Bool.false_ne_true
      have hwas := h.restrictions e.phone
      rw [restrictions_imported_of_not hnot] at hwas
      exact isActive_of_restrictions (hwas.elim id id)
    have hwas := h.people e.phone
    rw [people_imported he] at hwas
    rw [people_imported he, people_imported he]
    rcases hwas with hwas | hwas
    · -- not written yet, so that the second import decides as the first one did
      have hattests : t.book.attests e = s.book.attests e := by
        unfold Book.attests
        rw [hwas]
        cases hfile : e.optedOut with
        | true => simp
        | false => rw [hactive hfile]
      rw [Book.person, hattests, hwas, Book.person]
    · rw [Book.person, attests_written hwas hactive, hwas, Option.getD_some, Book.person,
        over_over u (by simp)]
  · have hnot : ∀ e ∈ u.file.entries, e.phone ≠ phone := fun e he heq => hphone ⟨e, he, heq⟩
    have hwas := h.people phone
    rw [people_imported_of_not hnot] at hwas ⊢
    rw [people_imported_of_not hnot]
    exact hwas.elim id id

theorem isActive_restrict
    (h : c.restrictions phone = b.restrict u phone) : c.isActive phone = true := by
  rw [Book.isActive, h, Book.restrict]
  by_cases hactive : b.isActive phone = true
  · rw [if_pos hactive]
    exact hactive
  · rw [if_neg hactive]
    rfl

theorem restrictions_recovered (h : Between u s t) :
    (t.book.imported u).restrictions = (s.book.imported u).restrictions := by
  funext phone
  have hwas := h.restrictions phone
  by_cases hphone : phone ∈ u.file.optedOutPhones
  · rw [restrictions_imported hphone] at hwas ⊢
    rw [restrictions_imported hphone]
    rcases hwas with hwas | hwas
    · rw [Book.restrict, isActive_of_restrictions hwas, hwas, Book.restrict]
    · rw [Book.restrict, isActive_restrict hwas, if_pos rfl, hwas]
  · rw [restrictions_imported_of_not hphone] at hwas ⊢
    rw [restrictions_imported_of_not hphone]
    exact hwas.elim id id

/-! ### Announcements -/

theorem mem_newlyOptedOut :
    phone ∈ b.newlyOptedOut u ↔
      u.file.Flagged phone ∧ (b.isActive phone = false ∨ b.isAnnounced phone = false) := by
  rw [Book.newlyOptedOut, File.newlyOptedOut, List.mem_filter, mem_optedOutPhones]
  simp

theorem isAnnounced_imported :
    (b.imported u).isAnnounced phone = true ↔
      b.isAnnounced phone = true ∨ phone ∈ b.newlyOptedOut u := by
  simp [Book.isAnnounced, Book.imported, Book.event]

/-- **Where an import has ended there is nothing left to announce.** -/
theorem newlyOptedOut_imported (u : Request) (b : Book) : (b.imported u).newlyOptedOut u = [] := by
  refine List.eq_nil_iff_forall_not_mem.2 fun phone hphone => ?_
  obtain ⟨hflag, hopen⟩ := mem_newlyOptedOut.1 hphone
  have hactive : (b.imported u).isActive phone = true :=
    isActive_restrict (restrictions_imported (mem_optedOutPhones.2 hflag))
  rw [hactive] at hopen
  have hsilent := hopen.resolve_left (by simp)
  rw [← Bool.not_eq_true, isAnnounced_imported, mem_newlyOptedOut, not_or] at hsilent
  obtain ⟨hannounced, hnew⟩ := hsilent
  exact hnew ⟨hflag, .inr (by simpa using hannounced)⟩

/-- The import after one that has ended announces nothing, wherever it dies. -/
theorem events_run_again (h : t.book = s.book.imported u)
    (xs : List Answer) : (run u t xs).events = t.events := by
  by_cases hends : Ends u t xs
  · have hbook := congrArg Book.events (book_run hends)
    rw [events_book] at hbook
    rw [hbook, Book.imported, h, newlyOptedOut_imported, List.map_nil, List.append_nil, ← h,
      events_book]
  · exact (silent_run hends).events

/-- How often the workspace has been told that the number is opted out. -/
def announcements (phone : Phone) (events : List OptedOutEvent) : ℕ :=
  events.countP (·.phone == some phone)

theorem announcements_imported (hflag : u.file.Flagged phone) (hactive : b.isActive phone = false) :
    announcements phone (b.imported u).events = announcements phone b.events + 1 := by
  have hmem : phone ∈ b.newlyOptedOut u := mem_newlyOptedOut.2 ⟨hflag, .inl hactive⟩
  have hnodup : (b.newlyOptedOut u).Nodup := (nodup_optedOutPhones u.file).filter _
  have hcount : ((b.newlyOptedOut u).map (b.event u)).countP (·.phone == some phone) = 1 := by
    rw [List.countP_map, ← List.count_eq_one_of_mem hnodup hmem]
    refine List.countP_congr fun phone' _ => ?_
    simp [Book.event]
  rw [announcements, Book.imported, List.countP_append, hcount, announcements]

/-- Two imports announce the same exactly where no number has been opted out in between that an
earlier announcement vouches for. -/
theorem newlyOptedOut_eq_iff (hactive : ∀ phone, b.isActive phone = true → c.isActive phone = true)
    (hannounced : ∀ phone, c.isAnnounced phone = b.isAnnounced phone) :
    c.newlyOptedOut u = b.newlyOptedOut u ↔
      ∀ phone, u.file.Flagged phone → b.isActive phone = false → b.isAnnounced phone = true →
        c.isActive phone = false := by
  constructor
  · intro heq phone hflag hwas hann
    have hmem : phone ∈ c.newlyOptedOut u := by
      rw [heq]
      exact mem_newlyOptedOut.2 ⟨hflag, .inl hwas⟩
    refine (mem_newlyOptedOut.1 hmem).2.resolve_right ?_
    rw [hannounced, hann]
    exact Bool.noConfusion
  · intro h
    refine List.filter_congr fun phone hphone => ?_
    rw [hannounced phone]
    cases hann : b.isAnnounced phone with
    | false => simp
    | true =>
        cases hwas : b.isActive phone with
        | true => rw [hactive phone hwas]
        | false => rw [h phone (mem_optedOutPhones.1 hphone) hwas hann]

/-! ### Recovery -/

/-- An import dies after the answers `xs`, or does not; the next one, with the answers `ys`, leaves
what one with the answers `zs` would have left, and announces what the two have opted out; and one
more adds nothing. -/
structure Recovers (u : Request) (s : Store) (xs ys zs : List Answer) : Prop where
  same : (run u (run u s xs) ys).book = (run u s zs).book
  once : ∀ phone, isActive (s.optOuts phone) = false →
    isActive ((run u (run u s xs) ys).optOuts phone) = true →
    announcements phone (run u (run u s xs) ys).events = announcements phone s.events + 1
  third : ∀ ws, (run u (run u (run u s xs) ys) ws).events = (run u (run u s xs) ys).events

/-- The first import has ended, or has not come to opt out a number that the file opts out, that was
not opted out and that had been announced before. -/
def Unmistaken (u : Request) (s : Store) (xs : List Answer) : Prop :=
  Ends u s xs ∨ ∀ phone, u.file.Flagged phone → isActive (s.optOuts phone) = false →
    s.isAnnounced phone = true → isActive ((run u s xs).optOuts phone) = false

theorem book_ext (hpeople : b.people = c.people)
    (hrestrictions : b.restrictions = c.restrictions) (hevents : b.events = c.events)
    (hlatest : b.latestConversation = c.latestConversation) : b = c := by
  cases b
  cases c
  simp_all

theorem isActive_between (h : Between u s t)
    (hactive : s.book.isActive phone = true) : t.book.isActive phone = true := by
  by_cases hphone : phone ∈ u.file.optedOutPhones
  · rcases h.restrictions phone with hwas | hwas
    · rw [isActive_of_restrictions hwas, hactive]
    · exact isActive_restrict (hwas.trans (restrictions_imported hphone))
  · have hwas := h.restrictions phone
    rw [restrictions_imported_of_not hphone] at hwas
    rw [isActive_of_restrictions (hwas.elim id id), hactive]

/-- The book after both imports is the one after an uninterrupted import exactly under the
condition. -/
theorem imported_eq_iff (u : Request) (s : Store) (xs : List Answer) :
    (run u s xs).book.imported u = s.book.imported u ↔ Unmistaken u s xs := by
  have hbetween := between_run u s xs
  have hlatest : (run u s xs).book.latestConversation = s.book.latestConversation :=
    hbetween.latestConversation
  have hevents : (run u s xs).book.imported u = s.book.imported u ↔
      ((run u s xs).book.imported u).events = (s.book.imported u).events :=
    ⟨congrArg Book.events, fun h => book_ext (people_recovered hbetween)
      (restrictions_recovered hbetween) h hlatest⟩
  rw [hevents]
  by_cases hends : Ends u s xs
  · refine iff_of_true ?_ (.inl hends)
    rw [Book.imported, book_run hends, newlyOptedOut_imported, List.map_nil, List.append_nil]
  · have hsilent := (silent_run hends).events
    have hevent : (run u s xs).book.event u = s.book.event u := by
      funext phone
      rw [Book.event, hlatest, Book.event]
    have hinjective : Function.Injective (s.book.event u) := by
      intro phone phone' heq
      simpa [Book.event] using congrArg OptedOutEvent.phone heq
    have hannounced : ∀ phone, (run u s xs).book.isAnnounced phone = s.book.isAnnounced phone := by
      intro phone
      rw [Book.isAnnounced, events_book, hsilent, Book.isAnnounced, events_book]
    have hnewly := newlyOptedOut_eq_iff (u := u) (fun phone => isActive_between hbetween) hannounced
    simp only [isActive_book, isAnnounced_book] at hnewly
    simp only [Book.imported, events_book, hsilent, hevent, List.append_cancel_left_eq,
      hinjective.list_map.eq_iff, hnewly, Unmistaken, hends, false_or]

/-- **The second import recovers from the first exactly under the condition.** -/
theorem recovers_iff (u : Request) (s : Store) (xs ys zs : List Answer)
    (hys : Ends u (run u s xs) ys) (hzs : Ends u s zs) :
    Recovers u s xs ys zs ↔ Unmistaken u s xs := by
  have hsecond := book_run hys
  rw [← imported_eq_iff]
  constructor
  · intro h
    rw [← hsecond, h.same, book_run hzs]
  · intro h
    have hsame := hsecond.trans h
    refine ⟨hsame.trans (book_run hzs).symm, fun phone hwas hnow => ?_, fun ws => ?_⟩
    · rw [← isActive_book] at hwas hnow
      have hflag : u.file.Flagged phone := by
        rw [← mem_optedOutPhones]
        by_contra hnot
        rw [hsame, isActive_of_restrictions (restrictions_imported_of_not hnot), hwas] at hnow
        cases hnow
      have hevents := congrArg Book.events hsame
      rw [events_book] at hevents
      rw [hevents, announcements_imported hflag hwas, events_book]
    · exact events_run_again hsecond ws

/-! ### A number that had been back -/

def oneFlag : Request where
  file := .csv false false
    [{ line := 2
       phone := some "+14165550100"
       name := none
       address := none
       notes := none
       optedOut := true }]
  userId := 1

/-- An import that dies after it has inserted the opt-out. -/
theorem recovers_iff_inserted :
    Recovers oneFlag .empty (List.replicate 7 (.clock 10)) (List.replicate 20 (.clock 20))
      (List.replicate 20 (.clock 10)) :=
  (recovers_iff oneFlag .empty _ _ _ (by rfl) (by rfl)).2
    (.inr fun _ _ _ hann => absurd hann Bool.false_ne_true)

/-- The number was opted out by an import, which was announced, and came back with a START. -/
def returned : Store where
  contacts := fun _ => none
  optOuts := fun phone =>
    if phone = "+14165550100" then
      some
        { id := 3
          source := .imported
          createdBy := some 1
          createdAt := 1
          revokedAt := some 2 }
    else none
  events :=
    [{ phone := some "+14165550100"
       source := some .imported
       actorUserId := some 1
       conversationId := none }]
  latestConversation := fun _ => none

/-- **An import that dies after it has revived an opt-out**: the second one takes the announcement
of the first opt-out for that of the second, which is never told. -/
theorem announcement_lost :
    Ends oneFlag (run oneFlag returned (List.replicate 5 (.clock 10)))
      (List.replicate 20 (.clock 20)) ∧
    Ends oneFlag returned (List.replicate 20 (.clock 10)) ∧
    ¬Recovers oneFlag returned (List.replicate 5 (.clock 10)) (List.replicate 20 (.clock 20))
      (List.replicate 20 (.clock 10)) := by
  refine ⟨by rfl, by rfl, fun h => ?_⟩
  have honce := h.once "+14165550100" (by decide +kernel) (by decide +kernel)
  revert honce
  decide +kernel

end ContactImport
