/-
**Declining one of several rings.**

The server is told of a rejected ring in one of two ways: for a session, or for the member, who then
leaves every session that rings them.  Rejections start in two places with a knowledge of their own.
The registry of OS calls (`TelecomCallRegistry.kt`) counts its other inbound calls and declines for
the session when there is one; the core (`SoftphoneCore.declineCurrent`) always declines for the
member as well.  A ring the registry has no live call of is not counted: an INVITE that is held, one
whose session is still being asked for, a call that was refused or already taken down.

The functions are those of `TelecomCallRegistry.kt`, `SoftphoneManager.kt` and `SoftphoneCore.kt` as
far as they decide what is sent; the leg that is hung up on the way is in the phone.

Main result:

* `Softphone.second_ring_declined` — the second ring of a call is declined, and a third one with it.
-/

import Texturion.SoftphoneCore

namespace Softphone

/-! ### The client -/

/-- The key of an OS call: the session of its INVITE, or the leg's own id where it carried none. -/
inductive Key
  | session (session : String)
  | leg (id : String)
  deriving DecidableEq

/-- An OS call; two calls with a key are told apart by their serial. -/
structure CallEntry where
  serial : ℕ
  key : Key
  direction : CallDirection
  terminated : Bool
  accepted : Bool
  deriving DecidableEq

structure Client where
  phone : Phone
  entries : List CallEntry
  /-- The session the server knows a leg's INVITE to belong to. -/
  legSession : String → Option String

/-- A request to the server. -/
inductive Signal
  /-- `POST /v1/calls/live/:key/decline`. -/
  | decline (key : Key)
  /-- `POST /v1/calls/live/decline-mine`. -/
  | declineMine
  deriving DecidableEq

def Key.text : Key → String
  | .session text => text
  | .leg id => id

def Client.sessionOf (c : Client) : Key → Option String
  | .session session => some session
  | .leg id => c.legSession id

/-- The session of a call, as the server knows it. -/
def Client.legOf (c : Client) (id : CallId) (sessionId : Option String) : Option String :=
  match sessionId, id with
  | some session, _ => some session
  | none, .leg id => c.legSession id
  | none, .placement session => some session

/-- A session rings on this device: it is presented, held, or an OS call waits to be answered. -/
def Rings (c : Client) (session : String) : Prop :=
  (∃ call ∈ c.phone.state.calls, call.direction = .inbound ∧ call.phase = .ringing ∧
    call.silenced = false ∧ c.legOf call.id call.sessionId = some session) ∨
  (∃ h ∈ c.phone.heldInvites, c.legOf h.id h.headerSession = some session) ∨
  ∃ e ∈ c.entries, e.direction = .inbound ∧ e.terminated = false ∧ e.accepted = false ∧
    c.sessionOf e.key = some session

/-! ### What is sent -/

def postDecline (p : Phone) (key : Key) : List Signal :=
  if p.companyId.isNone then []
  else if isBlank key.text then []
  else [.decline key]

def postDeclineMine (p : Phone) : List Signal :=
  if p.companyId.isNone then [] else [.declineMine]

inductive RejectScope
  | session
  | mine
  deriving DecidableEq

def rejectScope (otherRingsPresented : ℕ) : RejectScope :=
  if 0 < otherRingsPresented then .session else .mine

/-- The other inbound calls of the registry that have not been taken down. -/
def otherRings (c : Client) (e : CallEntry) : ℕ :=
  c.entries.countP fun other =>
    other.serial != e.serial && !other.terminated && other.direction == .inbound

def declineForTeardown (c : Client) (e : CallEntry) : List Signal :=
  if e.direction ≠ .inbound then []
  else
    match rejectScope (otherRings c e) with
    | .session => postDecline c.phone e.key
    | .mine => postDeclineMine c.phone

/-! ### What goes on this device -/

def matchesKey (call : CallSnapshot) : Key → Bool
  | .session session => call.sessionId == some session
  | .leg id => call.id == .leg id

def legFor (p : Phone) (key : Key) : Option CallSnapshot :=
  let calls := p.state.calls.filter fun c =>
    c.direction == .inbound && c.phase != .ended && matchesKey c key
  (calls.find? (·.phase == .ringing)).or calls.head?

def endLeg (p : Phone) (key : Key) : Phone :=
  match legFor p key with
  | some call => hangup p call.id
  | none => p

def releaseHeldSession (p : Phone) : Key → Phone
  | .session session => releaseHeldForSession p session
  | .leg _ => p

/-- `disconnectEntry`: the call is taken down. -/
def disconnectEntry (c : Client) (e : CallEntry) : Client :=
  { c with entries := c.entries.map fun other =>
      if other.serial = e.serial then { other with terminated := true } else other }

/-- `SoftphoneCore.declineCurrent`. -/
def declineCurrent (c : Client) (callId : Option CallId) (sessionHint : Option Key) :
    Client × List Signal :=
  let signals := (match sessionHint with
    | some key => postDecline c.phone key
    | none => []) ++ postDeclineMine c.phone
  match callId.or (matchLocalRing c.phone.state.calls c.phone.pushHint.caller) with
  | some id => ({ c with phone := hangup c.phone id }, signals)
  | none => (c, signals)

def entryOf (c : Client) (key : Key) : Option CallEntry := c.entries.find? (·.key == key)

def declineFromNotification (c : Client) (e : CallEntry) : Client × List Signal :=
  let c := { c with phone := endLeg c.phone e.key }
  let signals := declineForTeardown c e
  (disconnectEntry { c with phone := releaseHeldSession c.phone e.key } e, signals)

/-- `SoftphoneManager.declineIncoming`: the app's own ring is declined. -/
def declineIncoming (c : Client) (key : Key) : Client × List Signal :=
  match entryOf c key with
  | some e => declineFromNotification c e
  | none => declineCurrent c none (some key)

/-- The OS has taken the call down: the member rejected it there, or it was hung up. -/
def onTelecomDisconnect (c : Client) (e : CallEntry) (byMember : Bool) : Client × List Signal :=
  let c := { disconnectEntry c e with phone := endLeg c.phone e.key }
  if e.accepted then (c, [])
  else
    let signals := declineForTeardown c e
    if byMember && e.direction == .inbound then
      ({ c with phone := releaseHeldSession c.phone e.key }, signals)
    else (c, signals)

/-- The call was answered and its leg has not come: the deadline takes it down. -/
def bindDeadline (c : Client) (e : CallEntry) : Client × List Signal :=
  if e.terminated || e.accepted then (c, [])
  else
    let c := { disconnectEntry c e with phone := endLeg c.phone e.key }
    (c, declineForTeardown c e)

def answerFailed (c : Client) (e : CallEntry) : Client × List Signal :=
  let c := disconnectEntry { c with phone := endLeg c.phone e.key } e
  (c, declineForTeardown c e)

/-- The OS would not take the call. -/
def addCallRefused (c : Client) (e : CallEntry) : Client × List Signal :=
  ({ c with entries := c.entries.filter (·.serial != e.serial) }, declineForTeardown c e)

/-! ### Rejections -/

inductive Rejection
  /-- The second ring is declined from the call. -/
  | inCall (call : CallSnapshot)
  /-- The app's own ring is declined: on its screen, or on the notification. -/
  | incoming (key : Key)
  | hangup (call : CallSnapshot)
  | osDisconnect (e : CallEntry) (byMember : Bool)
  | bindDeadline (e : CallEntry)
  | answerFailed (e : CallEntry)
  | addCallRefused (e : CallEntry)
  deriving DecidableEq

def reject (c : Client) : Rejection → Client × List Signal
  | .inCall call => declineCurrent c (some call.id) none
  | .incoming key => declineIncoming c key
  | .hangup call => ({ c with phone := Softphone.hangup c.phone call.id }, [])
  | .osDisconnect e byMember => onTelecomDisconnect c e byMember
  | .bindDeadline e => Softphone.bindDeadline c e
  | .answerFailed e => Softphone.answerFailed c e
  | .addCallRefused e => Softphone.addCallRefused c e

def rejected (c : Client) : Rejection → Option String
  | .inCall call => c.legOf call.id call.sessionId
  | .incoming key => c.sessionOf key
  | .hangup call => c.legOf call.id call.sessionId
  | .osDisconnect e _ => c.sessionOf e.key
  | .bindDeadline e => c.sessionOf e.key
  | .answerFailed e => c.sessionOf e.key
  | .addCallRefused e => c.sessionOf e.key

def taken (ringing : List String) : Signal → List String
  | .decline (.session session) => ringing.filter (· != session)
  -- a leg's id is no session's
  | .decline (.leg _) => ringing
  | .declineMine => []

/-- While another session rings, all that is sent is for the session that is rejected, and every
other session goes on ringing this member. -/
def Scoped (c : Client) (r : Rejection) : Prop :=
  (∃ session, Rings c session ∧ rejected c r ≠ some session) →
    (∀ signal ∈ (reject c r).2, ∃ key, signal = .decline key ∧ c.sessionOf key = rejected c r) ∧
    ∀ ringing, ∀ session ∈ ringing, rejected c r ≠ some session →
      session ∈ (reject c r).2.foldl taken ringing

def via (c : Client) : Rejection → Option CallEntry
  | .inCall _ => none
  | .incoming key => entryOf c key
  | .hangup _ => none
  | .osDisconnect e _ => some e
  | .bindDeadline e => some e
  | .answerFailed e => some e
  | .addCallRefused e => some e

/-- The leg is hung up and no more, or the call had been accepted or taken down before. -/
def isOver : Rejection → Bool
  | .hangup _ => true
  | .osDisconnect e _ => e.accepted
  | .bindDeadline e => e.terminated || e.accepted
  | _ => false

/-- The rejection tells the server nothing. -/
def silent (c : Client) (r : Rejection) : Bool :=
  c.phone.companyId.isNone || isOver r || (via c r).any (·.direction != .inbound)

section

variable {c : Client} {e : CallEntry}

/-! ### What stays as it is -/

theorem hangup_companyId (p : Phone) (id : CallId) : (hangup p id).companyId = p.companyId := by
  have hend : (endOrDismiss p id).companyId = p.companyId := by
    unfold endOrDismiss
    split <;> rfl
  unfold hangup
  split
  · exact hend
  · split
    · rfl
    · exact hend

theorem endLeg_companyId (p : Phone) (key : Key) : (endLeg p key).companyId = p.companyId := by
  unfold endLeg
  split
  · exact hangup_companyId p _
  · rfl

/-- A call does not count itself, so that taking it down changes nothing. -/
theorem otherRings_disconnectEntry (c : Client) (e : CallEntry) :
    otherRings (disconnectEntry c e) e = otherRings c e := by
  simp only [otherRings, disconnectEntry, List.countP_map]
  refine List.countP_congr fun other _ => ?_
  by_cases h : other.serial = e.serial
  · simp [h]
  · simp [h]

/-- What is sent for an OS call depends on the company, the key and the other calls alone. -/
theorem declineForTeardown_congr {c' : Client} (hcompany : c'.phone.companyId = c.phone.companyId)
    (hothers : otherRings c' e = otherRings c e) :
    declineForTeardown c' e = declineForTeardown c e := by
  simp only [declineForTeardown, hothers, postDecline, postDeclineMine, hcompany]

/-! ### What is sent -/

variable {r : Rejection}

theorem signals_of_via (hvia : via c r = some e) (hspeaks : silent c r = false) :
    (reject c r).2 = declineForTeardown c e := by
  have hended : otherRings { disconnectEntry c e with phone := endLeg c.phone e.key } e =
      otherRings c e := otherRings_disconnectEntry c e
  cases r with
  | inCall call => cases hvia
  | incoming key =>
    have hentry : entryOf c key = some e := hvia
    simp only [reject, declineIncoming, hentry]
    exact declineForTeardown_congr (endLeg_companyId ..) rfl
  | hangup call => cases hvia
  | osDisconnect e' byMember =>
    obtain rfl := Option.some.inj hvia
    have hnot : e'.accepted = false := by
      simp only [silent, Bool.or_eq_false_iff] at hspeaks
      exact hspeaks.1.2
    simp only [reject, onTelecomDisconnect, hnot, Bool.false_eq_true, if_false]
    split <;> exact declineForTeardown_congr (endLeg_companyId ..) hended
  | bindDeadline e' =>
    obtain rfl := Option.some.inj hvia
    have hnot : (e'.terminated || e'.accepted) = false := by
      rw [silent, Bool.or_eq_false_iff, Bool.or_eq_false_iff] at hspeaks
      exact hspeaks.1.2
    simp only [reject, Softphone.bindDeadline, hnot, Bool.false_eq_true, if_false]
    exact declineForTeardown_congr (endLeg_companyId ..) hended
  | answerFailed e' =>
    obtain rfl := Option.some.inj hvia
    exact declineForTeardown_congr (endLeg_companyId ..) hended
  | addCallRefused e' =>
    obtain rfl := Option.some.inj hvia
    rfl

theorem declineForTeardown_of_others (hcompany : c.phone.companyId.isNone = false)
    (hdirection : e.direction = .inbound) :
    declineForTeardown c e = if 0 < otherRings c e then postDecline c.phone e.key
      else [.declineMine] := by
  unfold declineForTeardown rejectScope
  rw [if_neg (fun h => h hdirection)]
  by_cases hothers : 0 < otherRings c e
  · rw [if_pos hothers, if_pos hothers]
  · rw [if_neg hothers, if_neg hothers]
    simp [postDeclineMine, hcompany]

theorem declineForTeardown_eq_nil
    (h : c.phone.companyId.isNone = true ∨ e.direction ≠ .inbound) :
    declineForTeardown c e = [] := by
  unfold declineForTeardown
  by_cases hdirection : e.direction ≠ .inbound
  · rw [if_pos hdirection]
  · rw [if_neg hdirection]
    have hnone := h.resolve_right hdirection
    split
    · simp only [postDecline, hnone, if_true]
    · simp only [postDeclineMine, hnone, if_true]

theorem declineCurrent_of_company (h : c.phone.companyId.isNone = true) (callId : Option CallId)
    (sessionHint : Option Key) : (declineCurrent c callId sessionHint).2 = [] := by
  have hsignals : ((match sessionHint with
      | some key => postDecline c.phone key
      | none => []) ++ postDeclineMine c.phone) = [] := by
    cases sessionHint <;> simp [postDecline, postDeclineMine, h]
  unfold declineCurrent
  dsimp only
  rw [hsignals]
  split <;> rfl

theorem signals_of_silent (h : silent c r = true) : (reject c r).2 = [] := by
  have hdown : ∀ (c' : Client) (e' : CallEntry), c'.phone.companyId = c.phone.companyId →
      via c r = some e' → (c.phone.companyId.isNone = true ∨ e'.direction ≠ .inbound) →
      declineForTeardown c' e' = [] := fun c' e' hcompany _ hquiet =>
    declineForTeardown_eq_nil (hcompany ▸ hquiet)
  have hquiet : ∀ e', via c r = some e' →
      (c.phone.companyId.isNone = true ∨ e'.direction ≠ .inbound) ∨ isOver r = true := by
    intro e' hvia
    simp only [silent, hvia, Option.any_some, Bool.or_eq_true] at h
    rcases h with (h | h) | h
    · exact .inl (.inl h)
    · exact .inr h
    · exact .inl (.inr (by simpa using h))
  cases r with
  | inCall call =>
    refine declineCurrent_of_company ?_ _ _
    simpa [silent, isOver, via] using h
  | incoming key =>
    cases hentry : entryOf c key with
    | none =>
      simp only [reject, declineIncoming, hentry]
      refine declineCurrent_of_company ?_ _ _
      simpa [silent, isOver, via, hentry] using h
    | some e' =>
      simp only [reject, declineIncoming, hentry]
      refine hdown _ e' (endLeg_companyId ..) hentry ?_
      exact (hquiet e' hentry).resolve_right nofun
  | hangup call => rfl
  | osDisconnect e' byMember =>
    simp only [reject, onTelecomDisconnect]
    by_cases haccepted : e'.accepted = true
    · rw [if_pos haccepted]
    · rw [if_neg haccepted]
      have hnone : ∀ phone : Phone, phone.companyId = c.phone.companyId →
          declineForTeardown { disconnectEntry c e' with phone := phone } e' = [] :=
        fun phone hphone => hdown _ e' hphone rfl ((hquiet e' rfl).resolve_right haccepted)
      split <;> exact hnone _ (endLeg_companyId ..)
  | bindDeadline e' =>
    simp only [reject, Softphone.bindDeadline]
    by_cases hover : (e'.terminated || e'.accepted) = true
    · rw [if_pos hover]
    · rw [if_neg hover]
      exact hdown _ e' (endLeg_companyId ..) rfl ((hquiet e' rfl).resolve_right hover)
  | answerFailed e' =>
    exact hdown _ e' (endLeg_companyId ..) rfl ((hquiet e' rfl).resolve_right nofun)
  | addCallRefused e' =>
    exact hdown _ e' rfl rfl ((hquiet e' rfl).resolve_right nofun)

theorem declineMine_of_core (hvia : via c r = none)
    (hspeaks : silent c r = false) : .declineMine ∈ (reject c r).2 := by
  have hcompany : c.phone.companyId.isNone = false := by
    simp only [silent, Bool.or_eq_false_iff] at hspeaks
    exact hspeaks.1.1
  have hcurrent : ∀ (callId : Option CallId) (sessionHint : Option Key),
      .declineMine ∈ (declineCurrent c callId sessionHint).2 := by
    intro callId sessionHint
    unfold declineCurrent
    dsimp only
    split <;> exact List.mem_append_right _ (by simp [postDeclineMine, hcompany])
  cases r with
  | inCall call => exact hcurrent _ _
  | incoming key =>
    have hentry : entryOf c key = none := hvia
    simp only [reject, declineIncoming, hentry]
    exact hcurrent _ _
  | hangup call => simp [silent, isOver] at hspeaks
  | osDisconnect | bindDeadline | answerFailed | addCallRefused => cases hvia

theorem rejected_of_via (hvia : via c r = some e) : rejected c r = c.sessionOf e.key := by
  cases r with
  | inCall call => cases hvia
  | incoming key =>
    have hkey : e.key = key := by
      have hfind : c.entries.find? (·.key == key) = some e := hvia
      simpa using List.find?_some hfind
    rw [hkey]
    rfl
  | hangup call => cases hvia
  | osDisconnect | bindDeadline | answerFailed | addCallRefused => rw [← Option.some.inj hvia]; rfl

/-! ### What the server makes of it -/

theorem kept_of_scoped {signals : List Signal} {target : Option String}
    (hsignals : ∀ signal ∈ signals, ∃ key, signal = .decline key ∧ c.sessionOf key = target)
    {ringing : List String} {session : String} (hmem : session ∈ ringing)
    (hother : target ≠ some session) : session ∈ signals.foldl taken ringing := by
  induction signals generalizing ringing with
  | nil => exact hmem
  | cons signal signals ih =>
    refine ih (fun s hs => hsignals s (List.mem_cons_of_mem _ hs)) ?_
    obtain ⟨key, rfl, hkey⟩ := hsignals signal (List.mem_cons_self ..)
    cases key with
    | leg id => exact hmem
    | session declined =>
      refine List.mem_filter.2 ⟨hmem, ?_⟩
      have hne : session ≠ declined := by
        rintro rfl
        exact hother hkey.symm
      simpa using hne

end

/-- **Declining one ring leaves the others ringing** exactly when nothing is sent, nothing else
rings, or the rejection goes by an OS call that the registry has another inbound call beside. -/
theorem declines_scoped (c : Client) (r : Rejection) :
    Scoped c r ↔ silent c r = true ∨
      (∀ session, Rings c session → rejected c r = some session) ∨
      ∃ e, via c r = some e ∧ 0 < otherRings c e := by
  constructor
  · intro h
    by_contra hnot
    simp only [not_or, not_forall, not_exists, not_and] at hnot
    obtain ⟨hspeaks, ⟨session, hrings, hother⟩, halone⟩ := hnot
    have hspeaks : silent c r = false := by simpa using hspeaks
    obtain ⟨hscoped, -⟩ := h ⟨session, hrings, hother⟩
    have hmine : .declineMine ∈ (reject c r).2 := by
      cases hvia : via c r with
      | none => exact declineMine_of_core hvia hspeaks
      | some e =>
        have hquiet := hspeaks
        simp only [silent, hvia, Option.any_some, Bool.or_eq_false_iff] at hquiet
        rw [signals_of_via hvia hspeaks, declineForTeardown_of_others hquiet.1.1
          (by simpa using hquiet.2), if_neg (halone e hvia)]
        exact List.mem_singleton_self _
    obtain ⟨key, hkey, -⟩ := hscoped _ hmine
    cases hkey
  · intro h hother
    have hscoped : ∀ signal ∈ (reject c r).2,
        ∃ key, signal = .decline key ∧ c.sessionOf key = rejected c r := by
      intro signal hsignal
      cases hspeaks : silent c r with
      | true =>
        rw [signals_of_silent hspeaks] at hsignal
        cases hsignal
      | false =>
        obtain ⟨e, hvia, hothers⟩ := by
          refine (h.resolve_left (by simp [hspeaks])).resolve_left fun hall => ?_
          obtain ⟨session, hrings, hne⟩ := hother
          exact hne (hall session hrings)
        have hquiet := hspeaks
        simp only [silent, hvia, Option.any_some, Bool.or_eq_false_iff] at hquiet
        rw [signals_of_via hvia hspeaks, declineForTeardown_of_others hquiet.1.1
          (by simpa using hquiet.2), if_pos hothers] at hsignal
        unfold postDecline at hsignal
        split at hsignal
        · cases hsignal
        · split at hsignal
          · cases hsignal
          · exact ⟨e.key, List.mem_singleton.1 hsignal, (rejected_of_via hvia).symm⟩
    exact ⟨hscoped, fun ringing session hmem hne => kept_of_scoped hscoped hmem hne⟩

/-- A call is on, a second one rings and a third INVITE is held: the second ring is declined from
the call, and the third session loses this member too. -/
theorem second_ring_declined :
    ¬Scoped
      { phone := Reactive.final step fresh
          [.company "firm", .invite ⟨"a", some "one", "2125550123"⟩, .answer (.leg "a"),
            .obey (.leg "a") .accept, .invite ⟨"b", some "two", "2125550124"⟩,
            .invite ⟨"c", some "three", "2125550125"⟩]
        entries := [⟨0, .session "one", .inbound, false, true⟩,
          ⟨1, .session "two", .inbound, false, false⟩]
        legSession := fun _ => none }
      (.inCall ⟨.leg "b", .inbound, "2125550124", .ringing, some "two", false⟩) := by
  intro h
  obtain ⟨-, hkept⟩ := h ⟨"three", .inr (.inl ⟨⟨.leg "c", "2125550125", .capacity, some "three"⟩,
    by decide +kernel, rfl⟩), by decide⟩
  exact absurd (hkept ["three"] "three" (by decide) (by decide)) (by decide +kernel)

end Softphone
