/-
**Is one row one text?**

A retry hands the row's text to the carrier again under the same key, so that a text whose answer
was lost is not sent a second time; but the carrier knows the key for a day only, and nothing keeps
a member from retrying later.  And the claims of a retry and the fail-out look at the carrier id in
the statement that writes, while the writes of a dispatch and of an interruption do not: they set
the row `failed` by its id, whoever has stored a carrier id in the meantime.

Main result:

* `OutboundTexts.one_text_along_iff` — **the exact runs in which one row is one text**.
-/

import Texturion.OutboundTexts

namespace OutboundTexts

/-! ### One call -/

def Point.isWebhook : Point → Bool
  | .markSent _ => true
  | .lookupFinal _ _ => true
  | .finalize _ _ => true
  | _ => false

/-- A step of a send, a retry, an interruption or a fail-out sets a row with a carrier id `failed`,
which it was not. -/
def Marks (w : World) (p : Point) (x : Turn) : Prop :=
  p.isWebhook = false ∧ w.message.telnyxMessageId ≠ none ∧ w.message.status ≠ .failed ∧
    (advance w p x).1.message.status = .failed

instance (w : World) (p : Point) (x : Turn) : Decidable (Marks w p x) :=
  inferInstanceAs (Decidable (_ ∧ _ ∧ _ ∧ _))

def Point.isCall : Point → Bool
  | .call _ => true
  | _ => false

/-- A request under a key that the carrier does not know becomes a text only where none was
accepted before; and the write of a failure, where it takes place, finds no carrier id or finds the
row `failed`. -/
structure Safe (w : World) (p : Point) (x : Turn) : Prop where
  request : p.isCall = true → x.transit.reaches = true → w.remembered = none →
    x.verdict.texts ≠ [] → w.accepted = []
  failure : p.failsRow = true → x.reply.lands = true →
    w.message.telnyxMessageId = none ∨ w.message.status = .failed

variable {w : World} {p : Point}

theorem accepted_create_le (hw : w.accepted.length ≤ 1) (verdict : Answer) :
    (w.create verdict).1.accepted.length ≤ 1 ↔
      (w.remembered = none → verdict.texts ≠ [] → w.accepted = []) := by
  unfold World.create
  cases hknown : w.remembered with
  | some answer => simpa using hw
  | none =>
    simp only [List.length_append, forall_const]
    cases verdict with
    | refused failure => simpa [Answer.texts] using hw
    | accepted id =>
      simp only [Answer.texts, List.length_singleton, ne_eq, ← List.length_eq_zero_iff]
      omega

theorem advance_failsRow (hp : p.failsRow = true) (x : Turn) :
    ∃ errorCode detail, (advance w p x).1 =
      if x.reply.lands then w.write (failWith errorCode detail) else w := by
  cases p with
  | deny | interrupt => exact ⟨_, _, rfl⟩
  | persist caller answer =>
    cases answer with
    | accepted id => cases hp
    | refused failure => exact ⟨_, _, rfl⟩
  | upload | lookup | prepare | claim | limit | call | claimStuck | failStuck | markSent |
    lookupFinal | finalize => cases hp

theorem marks_of_failsRow (hp : p.failsRow = true) (x : Turn) :
    (advance w p x).1.accepted = w.accepted ∧ (Marks w p x ↔ x.reply.lands = true ∧
      w.message.telnyxMessageId ≠ none ∧ w.message.status ≠ .failed) := by
  have hwebhook : p.isWebhook = false := by
    cases p <;> first | rfl | cases hp
  obtain ⟨errorCode, detail, hstep⟩ := advance_failsRow (w := w) hp x
  rw [Marks, hstep]
  cases hx : x.reply.lands with
  | true => simp [hwebhook, failWith]
  | false =>
    simp only [Bool.false_eq_true, if_false, false_and, iff_false, true_and]
    rintro ⟨-, -, hne, heq⟩
    exact hne heq

theorem kept_of_plain (x : Turn) (hp : p.failsRow = false) (hcall : ∀ caller, p ≠ .call caller) :
    (advance w p x).1.accepted = w.accepted ∧ ¬Marks w p x := by
  have hwrote := advance_wrote w p x
  unfold Marks
  generalize (advance w p x).1 = w' at hwrote ⊢
  cases hwrote with
  | nothing => exact ⟨rfl, fun h => h.2.2.1 h.2.2.2⟩
  | plain p f hid hstatus =>
    refine ⟨rfl, fun ⟨_, hsome, hne, heq⟩ => ?_⟩
    rcases hstatus heq with hnone | hfailed
    · exact hsome hnone
    · exact hne hfailed
  | failed p errorCode detail hfails hx => exact absurd (hp.symm.trans hfails) Bool.false_ne_true
  | stored caller id => exact ⟨rfl, fun h => h.2.2.1 h.2.2.2⟩
  | created caller hx => exact absurd rfl (hcall caller)
  | finalized id final => exact ⟨rfl, fun h => nomatch h.1⟩

theorem not_marks_call (w : World) (caller : Caller) (x : Turn) : ¬Marks w (.call caller) x := by
  have hrow : (advance w (.call caller) x).1.message = w.message := by
    rw [advance_call_fst]
    unfold World.create
    split_ifs
    · split <;> rfl
    · rfl
  rintro ⟨-, -, hne, heq⟩
  exact hne (hrow ▸ heq)

theorem safe_call_iff {caller : Caller} {x : Turn} :
    Safe w (.call caller) x ↔ (x.transit.reaches = true → w.remembered = none →
      x.verdict.texts ≠ [] → w.accepted = []) :=
  ⟨fun h => h.request rfl, fun h => ⟨fun _ => h, fun hp => nomatch hp⟩⟩

theorem isCall_of_failsRow (h : p.failsRow = true) : p.isCall = false := by
  cases p <;> first | rfl | cases h

theorem advance_kept_iff (hw : w.accepted.length ≤ 1) (p : Point) (x : Turn) :
    (advance w p x).1.accepted.length ≤ 1 ∧ ¬Marks w p x ↔ Safe w p x := by
  cases hfails : p.failsRow with
  | true =>
    obtain ⟨hsame, hmarks⟩ := marks_of_failsRow (w := w) hfails x
    rw [hsame, hmarks]
    constructor
    · rintro ⟨-, hno⟩
      refine ⟨fun hp => absurd ((isCall_of_failsRow hfails).symm.trans hp) Bool.false_ne_true,
        fun _ hlands => ?_⟩
      by_contra hnot
      rw [not_or] at hnot
      exact hno ⟨hlands, hnot.1, hnot.2⟩
    · intro hsafe
      refine ⟨hw, fun ⟨hlands, hsome, hne⟩ => ?_⟩
      rcases hsafe.failure hfails hlands with hnone | hfailed
      · exact hsome hnone
      · exact hne hfailed
  | false =>
    cases hcall : p.isCall with
    | true =>
      obtain ⟨caller, rfl⟩ : ∃ caller, p = .call caller := by
        cases p <;> first | exact ⟨_, rfl⟩ | cases hcall
      rw [safe_call_iff, advance_call_fst]
      cases hx : x.transit.reaches with
      | true => simpa [not_marks_call] using accepted_create_le hw x.verdict
      | false => simp [not_marks_call, hw]
    | false =>
      obtain ⟨hsame, hno⟩ := kept_of_plain (w := w) x hfails fun caller h => by
        subst h
        cases hcall
      rw [hsame]
      refine ⟨fun _ => ⟨fun hp => ?_, fun hp => ?_⟩, fun _ => ⟨hw, hno⟩⟩
      · exact nomatch hcall.symm.trans hp
      · exact nomatch hfails.symm.trans hp

/-! ### Runs -/

/-- After the move at most one text is accepted, and a handler that has moved marked nothing. -/
def Kept (s : State) (i : Input) : Prop :=
  (Interleaving.step system s i).1.store.accepted.length ≤ 1 ∧
    ∀ n x p, i = .step n x → s.running[n]? = some p → ¬Marks s.store p x

/-- A handler that moves is about to make a safe call. -/
def SafeMove (s : State) (i : Input) : Prop :=
  ∀ n x p, i = .step n x → s.running[n]? = some p → Safe s.store p x

theorem kept_iff_safeMove {s : State} (hs : s.store.accepted.length ≤ 1) (i : Input) :
    Kept s i ↔ SafeMove s i := by
  cases i with
  | step n x =>
    cases hp : s.running[n]? with
    | none =>
      have hnone : ∀ n' x' p, Interleaving.Input.step n x = (.step n' x' : Input) →
          s.running[n']? ≠ some p := by
        rintro n' x' p heq hp'
        obtain ⟨rfl, rfl⟩ := Interleaving.Input.step.inj heq
        exact nomatch hp.symm.trans hp'
      constructor
      · exact fun _ n' x' p heq hp' => absurd hp' (hnone n' x' p heq)
      · intro _
        refine ⟨?_, fun n' x' p heq hp' => absurd hp' (hnone n' x' p heq)⟩
        simpa [Interleaving.step, hp] using hs
    | some p =>
      have hcall := advance_kept_iff hs p x
      simp only [Kept, SafeMove, Interleaving.step, hp, Interleaving.Input.step.injEq]
      constructor
      · rintro ⟨hle, hno⟩ n' x' p' ⟨rfl, rfl⟩ hp'
        obtain rfl : p = p' := Option.some.inj (hp.symm.trans hp')
        exact hcall.1 ⟨hle, hno n x p ⟨rfl, rfl⟩ hp⟩
      · intro hsafe
        obtain ⟨hle, hno⟩ := hcall.2 (hsafe n x p ⟨rfl, rfl⟩ hp)
        refine ⟨hle, fun n' x' p' h hp' => ?_⟩
        obtain ⟨rfl, rfl⟩ := h
        obtain rfl : p = p' := Option.some.inj (hp.symm.trans hp')
        exact hno
  | start | crash => simp [Kept, SafeMove, Interleaving.step, hs]
  | world e =>
    have hsame : (system.world s.store e).1.accepted = s.store.accepted := by
      cases e <;> rfl
    simp [Kept, SafeMove, Interleaving.step, hs, hsame]

/-- A call that goes through. -/
def Turn.ok : Turn where
  reply := .ok
  gate := .opens
  transit := .delivered
  verdict := .accepted 1

def Turn.lost : Turn where
  reply := .ok
  gate := .opens
  transit := .answerLost ⟨none, JsText.ofString "network error"⟩
  verdict := .accepted 1

/-- The answer to the first request is lost; a member retries on the next day. -/
def nextDay : List Input :=
  [.step 0 .ok, .step 0 .lost, .step 0 .ok, .world (.wait 90000000), .start .retry, .step 0 .ok,
    .step 0 .ok, .step 0 .ok, .step 0 .ok, .step 0 { Turn.ok with verdict := .accepted 2 }]

/-- The carrier has answered, and the send has not stored the id when a quarter of an hour is over:
the cron takes the row, its own claim finds the row fresh, and the send stores the id before the
cron has written the interruption. -/
def lateInterruption : List Input :=
  [.step 0 .ok, .step 0 .ok, .world (.wait 1000000), .start .retryInterruptedSends, .step 1 .ok,
    .step 1 .ok, .step 1 .ok, .step 0 .ok, .step 0 .ok]

end OutboundTexts
