/-
**At most the months that were sold.**

Re-applying a prepaid coupon restarts its months, and the row, the coupon and the stamp are three
writes.  This module counts the invoices that a session discounts along every run of
`Texturion/PrepaidYear.lean`, and says which steps may give the year another start.

Main result:

* `PrepaidYear.discounts_at_most_twelve` — **in season, at most twelve invoices are discounted.**
-/

import Texturion.PrepaidYear

namespace PrepaidYear

open Prepay Idempotency Interleaving
open Notices (PlanId dayMs)

/-! ### What is left -/

/-- `date.setUTCMonth(date.getUTCMonth() + 1)`. -/
def nextMonth (date : ℤ) : ℤ := setUTCMonth date 1

variable {closes : ℤ} {p : Point} {s : Store} {x : Await}

/-- **The last date that is counted lies before the window closes.** -/
theorem lt_of_countBefore {fuel m : ℕ} {date : ℤ} (h : countBefore closes fuel date = m + 1) :
    m < fuel ∧ nextMonth^[m] date < closes := by
  induction fuel generalizing date m with
  | zero => simp [countBefore] at h
  | succ fuel ih =>
    simp only [countBefore] at h
    split at h
    · rename_i hdate
      have hrest : countBefore closes fuel (nextMonth date) = m := Nat.succ.inj h
      cases m with
      | zero => exact ⟨Nat.succ_pos fuel, hdate⟩
      | succ m =>
        obtain ⟨hm, hlast⟩ := ih hrest
        exact ⟨Nat.succ_lt_succ hm, hlast⟩
    · exact absurd h (Nat.succ_ne_zero m).symm

/-- The periods end no later than the dates that are counted for them. -/
def Aligned (env : Env) (period : ℕ) : Prop :=
  ∀ k < prepayMonths, env.periodEnd (period + k) ≤ nextMonth^[k] (env.periodEnd period)

/-- **What a pass counts ends with the window.** -/
theorem lt_of_remaining {env : Env} {period stop m : ℕ} (haligned : Aligned env period)
    (hcloses : closes ≤ env.periodEnd stop)
    (h : remainingPrepaidInvoices (env.periodEnd period) closes = m + 1) : period + m < stop := by
  obtain ⟨hm, hlast⟩ := lt_of_countBefore h
  have hend : env.periodEnd (period + m) < env.periodEnd stop := by
    calc env.periodEnd (period + m) ≤ nextMonth^[m] (env.periodEnd period) := haligned m hm
      _ < closes := hlast
      _ ≤ env.periodEnd stop := hcloses
  exact env.increasing.lt_iff_lt.1 hend

/-! ### The invariant -/

/-- The end of the window, once it is stamped. -/
def Store.through (s : Store) : Option ℤ := s.row.bind (·.grantedThrough)

/-- What has been discounted and what is on the item come to twelve at most, and so do they with
what can still be put back before an open window closes. -/
structure Books (env : Env) (s : Store) : Prop where
  few : s.discounted ≤ prepayMonths
  coupon : ∀ d ∈ s.item.discounts, d.coupon.isPrepaid = true →
    s.period < d.stop ∧ s.discounted + d.stop ≤ prepayMonths + s.period
  window : ∀ row ∈ s.row, row.revokedAt = none → ∀ closes ∈ row.grantedThrough,
    closes ≤ env.periodEnd (s.period + (prepayMonths - s.discounted))
  granted : ∀ row ∈ s.row, row.grantedAt = none → row.grantedThrough = none

/-- What a handler relies on: the coupon it is about to write is no longer than what is left. -/
def Relies (s : Store) : Point → Prop
  | .writing w => w.coupon = prepaidYearCoupon
  | .opening _ period => period ≤ s.period
  | .asserting period w => period ≤ s.period ∧ w.coupon.isPrepaid = true ∧ 0 < w.coupon.months ∧
      (s.period = period → s.discounted + w.coupon.months ≤ prepayMonths)
  | _ => True

/-- A step does not give the year another start: a grant's coupon is put on anew only before the
first discounted invoice; the stamp that takes lets the window close within what is left of the
twelve periods; a pass is over before the next invoice, and the periods end no later than the dates
it counts. -/
def Punctual (env : Env) (session : Session) (s : Store) (x : Await) : Point → Prop
  | .writing w =>
    x.outcome.lands = true → s.verdict (.grant session.id) w = .fresh → s.discounted = 0
  | .stamping =>
    x.outcome.lands = true → ∀ row ∈ s.row, row.grantedAt = none → row.revokedAt = none →
      setUTCMonth s.clock prepayMonths ≤
        env.periodEnd (s.period + (prepayMonths - s.discounted))
  | .opening _ period => s.period = period ∧ Aligned env period
  | .asserting period w =>
    x.outcome.lands = true →
      s.verdict (.reassert session.id w.coupon.months) w = .fresh → s.period = period
  | _ => True

instance decidablePunctual (env : Env) (session : Session) (s : Store) (x : Await) :
    ∀ p, Decidable (Punctual env session s x p)
  | .writing w =>
    inferInstanceAs (Decidable (_ → s.verdict (.grant session.id) w = .fresh → _))
  | .stamping =>
    inferInstanceAs (Decidable (_ → ∀ row ∈ s.row, row.grantedAt = none →
      row.revokedAt = none → _ ≤ env.periodEnd _))
  | .opening _ period =>
    inferInstanceAs (Decidable (s.period = period ∧ ∀ k < prepayMonths,
      env.periodEnd (period + k) ≤ nextMonth^[k] (env.periodEnd period)))
  | .asserting period w =>
    inferInstanceAs (Decidable (_ → s.verdict (.reassert session.id w.coupon.months) w = .fresh →
      s.period = period))
  | .claiming | .retrieving | .reading | .recording .. | .finding .. | .revoking ..
  | .converting .. | .uncouponing .. | .clearing .. | .crediting .. =>
    inferInstanceAs (Decidable True)

def InSeason (env : Env) (session : Session) (s : State Store Point) :
    Input Request Await Event → Prop
  | .step n x => ∀ p ∈ s.running[n]?, Punctual env session s.store x p
  | _ => True

instance decidableInSeason (env : Env) (session : Session) (s : State Store Point) :
    ∀ i, Decidable (InSeason env session s i)
  | .step n x => inferInstanceAs (Decidable (∀ p ∈ s.running[n]?, Punctual env session s.store x p))
  | .start _ | .crash _ | .world _ => inferInstanceAs (Decidable True)

variable {env : Env} {session : Session}

theorem Relies.congr {s t : Store} (hperiod : t.period = s.period)
    (hdiscounted : t.discounted = s.discounted) (h : Relies s p) : Relies t p := by
  cases p with
  | opening | asserting =>
    simp only [Relies, hperiod, hdiscounted] at h ⊢
    exact h
  | writing => exact h
  | claiming | retrieving | stamping | reading | recording | finding | revoking | converting
  | uncouponing | clearing | crediting => trivial

theorem books_call (hs : Books env s) (hp : Relies s p)
    (htime : Punctual env session s x p) : Books env (call env session s p x) where
  few := by
    rw [call_discounted]
    exact hs.few
  coupon := by
    intro d hd hprepaid
    rw [call_period, call_discounted]
    rcases @item_call env session s p x with
      h | h | ⟨key, w, hlands, hfresh, h, hwrites⟩
    · exact hs.coupon d (h ▸ hd) hprepaid
    · rw [h] at hd
      exact absurd hd List.not_mem_nil
    · rw [h] at hd
      rw [prepaid_of_mem_write hd hprepaid]
      simp only [Discount.stop]
      rcases hwrites with ⟨rfl, rfl⟩ | ⟨period, rfl, rfl⟩
      · -- a year is put on before the first discounted invoice
        have hcoupon : w.coupon.months = prepayMonths := by
          rw [show w.coupon = prepaidYearCoupon from hp]
          rfl
        have hzero : s.discounted = 0 := htime hlands hfresh
        have hpos : 0 < prepayMonths := by decide
        omega
      · -- a remainder is put back within the period it was counted in
        obtain ⟨-, -, hpos, hleft⟩ := hp
        have hmonths := hleft (htime hlands hfresh)
        omega
  window := by
    intro row hrow hrevoked closes hcloses
    rw [call_period, call_discounted]
    rcases row_call hrow with ⟨old, hold, -, hthrough, hopen⟩ | ⟨-, rfl⟩ |
      ⟨old, hold, rfl, hlands, hungranted, rfl⟩
    · exact hs.window old hold (hopen hrevoked) closes (hthrough ▸ hcloses)
    · simp [Session.row, Prepayment.fresh] at hcloses
    · simp only [stampPrepayment, hungranted, Option.isNone_none, if_true] at hrevoked hcloses
      obtain rfl := Option.some.inj hcloses
      exact htime hlands old hold hungranted hrevoked
  granted := by
    intro row hrow hungranted
    rcases row_call hrow with ⟨old, hold, hgranted, hthrough, -⟩ | ⟨-, rfl⟩ |
      ⟨old, hold, rfl, -, hold', rfl⟩
    · rw [hthrough]
      exact hs.granted old hold (hgranted ▸ hungranted)
    · rfl
    · simp [stampPrepayment, hold'] at hungranted

/-- **A handler has what it relies on at its next step.** -/
theorem relies_next {p p' : Point} (hs : Books env s) (hp : Relies s p)
    (htime : Punctual env session s x p) (hnext : (next env session s x p).1 = some p') :
    Relies s p' := by
  have hagain : ∀ r, (again r).1 = some p' → Relies s p' := by
    intro r hr
    cases r with
    | handleChargeDispute => simp [again] at hr
    | grantPrepaidYear | ensurePrepaidDiscount | revokePrepaidYear | convertPrepaidYear =>
      obtain rfl := Option.some.inj hr
      trivial
  have huncouponed : ∀ r owed, (uncouponed r owed).1 = some p' → Relies s p' := by
    intro r owed hr
    unfold uncouponed at hr
    split at hr
    · split at hr
      · obtain rfl := Option.some.inj hr
        trivial
      · simp at hr
    · simp at hr
  cases p with
  | claiming =>
    simp only [next] at hnext
    split at hnext
    · split at hnext
      · simp at hnext
      · simp at hnext
      all_goals
        obtain rfl := Option.some.inj hnext
        trivial
    · obtain rfl := Option.some.inj hnext
      trivial
  | retrieving =>
    simp only [next] at hnext
    split at hnext
    · split at hnext
      · rename_i w hwrite
        obtain rfl := Option.some.inj hnext
        exact mem_grantWrite hwrite
      · obtain rfl := Option.some.inj hnext
        trivial
    · obtain rfl := Option.some.inj hnext
      trivial
  | writing w =>
    simp only [next] at hnext
    split at hnext <;> obtain rfl := Option.some.inj hnext <;> trivial
  | stamping => simp [next] at hnext
  | reading =>
    simp only [next] at hnext
    split at hnext
    · obtain rfl := Option.some.inj hnext
      exact le_rfl
    · simp at hnext
  | opening item period =>
    simp only [next] at hnext
    split at hnext
    · rename_i w hwrite
      split at hnext
      · obtain rfl := Option.some.inj hnext
        obtain ⟨row, hrow, hrevoked, closes, hcloses, hcoupon, hpos⟩ := mem_assertWrite hwrite
        refine ⟨hp, by simp [hcoupon, Coupon.isPrepaid], hpos, fun hperiod => ?_⟩
        -- the window closes within what is left, and so do the dates that are counted
        have hwindow := hs.window row hrow hrevoked closes hcloses
        rw [hcoupon] at hpos ⊢
        simp only [Coupon.months] at hpos ⊢
        obtain ⟨m, hm⟩ := Nat.exists_eq_succ_of_ne_zero hpos.ne'
        have hlt := lt_of_remaining htime.2 hwindow hm
        have hfew := hs.few
        omega
      · simp at hnext
    · simp at hnext
  | asserting period w => simp [next] at hnext
  | recording disputeId paymentIntent =>
    simp only [next] at hnext
    split at hnext <;> obtain rfl := Option.some.inj hnext <;> trivial
  | finding disputeId paymentIntent =>
    simp only [next] at hnext
    split at hnext
    · split at hnext
      · split at hnext
        · obtain rfl := Option.some.inj hnext
          trivial
        · simp at hnext
      · simp at hnext
    · simp at hnext
  | revoking r reason =>
    simp only [next] at hnext
    split at hnext
    · split at hnext
      · split at hnext
        · obtain rfl := Option.some.inj hnext
          trivial
        · simp at hnext
      · simp at hnext
    · exact hagain r hnext
  | converting customer toPlan =>
    simp only [next] at hnext
    split at hnext
    · split at hnext
      · split at hnext
        · obtain rfl := Option.some.inj hnext
          trivial
        · simp at hnext
      · simp at hnext
    · obtain rfl := Option.some.inj hnext
      trivial
  | uncouponing r owed =>
    simp only [next] at hnext
    split at hnext
    · split at hnext
      · obtain rfl := Option.some.inj hnext
        trivial
      · exact huncouponed r owed hnext
    · exact hagain r hnext
  | clearing r owed =>
    simp only [next] at hnext
    split at hnext
    · exact huncouponed r owed hnext
    · exact hagain r hnext
  | crediting r =>
    simp only [next] at hnext
    split at hnext
    · simp at hnext
    · exact hagain r hnext

/-! ### The invoice -/

theorem books_invoice (hs : Books env s) : Books env (invoice env s) := by
  have hmem : ∀ d ∈ (invoice env s).item.discounts,
      d ∈ s.item.discounts ∧ s.period + 1 < d.stop := by
    intro d hd
    simpa [invoice] using hd
  have hcarries : itemHasPrepaidCoupon s.item = true →
      ∃ d ∈ s.item.discounts, d.coupon.isPrepaid = true := by
    intro h
    simpa [itemHasPrepaidCoupon] using h
  have hfew := hs.few
  constructor
  · simp only [invoice]
    split
    · rename_i hcoupon
      obtain ⟨d, hd, hprepaid⟩ := hcarries hcoupon.2
      obtain ⟨hstop, hleft⟩ := hs.coupon d hd hprepaid
      omega
    · exact hfew
  · intro d hd hprepaid
    obtain ⟨hd, hstop⟩ := hmem d hd
    have hleft := (hs.coupon d hd hprepaid).2
    simp only [invoice]
    split <;> omega
  · -- a discounted invoice takes one of what is left, and the period has moved on by one
    intro row hrow hrevoked closes hcloses
    refine (hs.window row hrow hrevoked closes hcloses).trans (env.increasing.monotone ?_)
    simp only [invoice]
    split <;> omega
  · exact hs.granted

theorem books_happen (e : Event) (hs : Books env s) : Books env (happen env s e) := by
  cases e with
  | tick ms => exact ⟨hs.few, hs.coupon, hs.window, hs.granted⟩
  | invoice => exact books_invoice hs
  | drop => exact ⟨hs.few, fun d hd => absurd hd List.not_mem_nil, hs.window, hs.granted⟩

theorem relies_happen (e : Event) (hp : Relies s p) : Relies (happen env s e) p := by
  cases e with
  | tick | drop => exact hp.congr rfl rfl
  | invoice =>
    have hperiod : (happen env s .invoice).period = s.period + 1 := rfl
    cases p with
    | opening item period =>
      simp only [Relies, hperiod] at hp ⊢
      omega
    | asserting period w =>
      obtain ⟨hle, hprepaid, hpos, -⟩ := hp
      refine ⟨by omega, hprepaid, hpos, fun heq => ?_⟩
      omega
    | writing => exact hp
    | claiming | retrieving | stamping | reading | recording | finding | revoking | converting
    | uncouponing | clearing | crediting => trivial

/-! ### A run -/

theorem nonInterfering (env : Env) (session : Session) :
    NonInterfering (prepaidYear env session) (Books env) Relies (fun _ _ => True)
      (InSeason env session) (fun _ => True) where
  symm _ _ _ := trivial
  enter s r _ _ := by cases r <;> trivial
  alone _ _ := trivial
  advance s n x p h := books_call h.sound.store h.relies (h.meets p h.point)
  next s n x p p' h hnext :=
    (relies_next h.sound.store h.relies (h.meets p h.point) hnext).congr
      (call_period ..) (call_discounted ..)
  others s n x p q h hq _ :=
    (h.sound.running q (List.mem_of_mem_eraseIdx hq)).congr (call_period ..) (call_discounted ..)
  apart _ _ _ _ _ _ _ _ _ _ := trivial
  emits _ _ _ _ _ _ _ := trivial
  world s e h _ := ⟨books_happen e h.store, fun p hp => relies_happen e (h.running p hp),
    fun _ ho => absurd ho List.not_mem_nil⟩

theorem opened_sound {item : Item} (hitem : itemHasPrepaidCoupon item = false) (clock : ℤ)
    (period : ℕ) : Sound (Books env) Relies (fun _ _ => True)
      (⟨.opened item clock period, []⟩ : State Store Point) := by
  refine ⟨⟨Nat.zero_le _, fun d hd hprepaid => ?_, by simp [Store.opened],
    by simp [Store.opened]⟩, fun p hp => absurd hp List.not_mem_nil, List.Pairwise.nil⟩
  have hcarries : itemHasPrepaidCoupon item = true := List.any_eq_true.2 ⟨d, hd, hprepaid⟩
  rw [hitem] at hcarries
  exact absurd hcarries Bool.false_ne_true

theorem through_call (hs : Books env s)
    (h : s.through = some closes) : (call env session s p x).through = some closes := by
  obtain ⟨row, hrow, hthrough⟩ := Option.bind_eq_some_iff.1 h
  obtain ⟨row', hrow'⟩ : ∃ row', (call env session s p x).row = some row' :=
    Option.isSome_iff_exists.1 (isSome_row_call p x (by rw [hrow]; rfl))
  have hkept : row'.grantedThrough = some closes := by
    rcases row_call hrow' with ⟨old, hold, -, heq, -⟩ | ⟨hnone, -⟩ |
      ⟨old, hold, -, -, hungranted, -⟩
    · rw [heq, ← hthrough, Option.some.inj (hrow.symm.trans hold)]
    · exact absurd (hrow.symm.trans hnone) (by simp)
    · have hnone := hs.granted old hold hungranted
      rw [← Option.some.inj (hrow.symm.trans hold), hthrough] at hnone
      simp at hnone
  rw [Store.through, hrow']
  exact hkept

theorem through_step {s : State Store Point} {i : Input Request Await Event}
    (hs : Books env s.store) (h : s.store.through = some closes) :
    (step (prepaidYear env session) s i).1.store.through = some closes := by
  cases i with
  | start | crash => exact h
  | step n x =>
    cases hp : s.running[n]? with
    | none => simpa only [step, hp] using h
    | some p =>
      simp only [step, hp, prepaidYear]
      exact through_call hs h
  | world e =>
    cases e with
    | tick | invoice | drop => exact h

/-- **The end of the year is set once.** -/
theorem through_fixed {s : State Store Point} (hs : Sound (Books env) Relies (fun _ _ => True) s)
    {is : List (Input Request Await Event)}
    (htime : Reactive.Along (step (prepaidYear env session)) (InSeason env session) s is)
    (h : s.store.through = some closes) :
    (Reactive.final (step (prepaidYear env session)) s is).store.through = some closes := by
  have hstep : ∀ s i, Sound (Books env) Relies (fun _ _ => True) s ∧
      s.store.through = some closes → InSeason env session s i →
      Sound (Books env) Relies (fun _ _ => True) (step (prepaidYear env session) s i).1 ∧
        (step (prepaidYear env session) s i).1.store.through = some closes :=
    fun s i hs hi =>
      ⟨((nonInterfering env session).step hs.1 hi).1, through_step hs.1.store hs.2⟩
  exact (Reactive.final_of_inv_along _ hstep ⟨hs, h⟩ htime).2

/-- **In season, a session discounts at most the twelve months it was sold for**, however its
deliveries, the passes, the invoices and the calls that take the year back interleave, and the end
of the year stays where it was stamped. -/
theorem discounts_at_most_twelve (env : Env) (session : Session) {item : Item}
    (hitem : itemHasPrepaidCoupon item = false) (clock : ℤ) (period : ℕ)
    {is : List (Input Request Await Event)}
    (htime : Reactive.Along (step (prepaidYear env session)) (InSeason env session)
      ⟨.opened item clock period, []⟩ is) :
    (Reactive.final (step (prepaidYear env session))
        ⟨.opened item clock period, []⟩ is).store.discounted ≤ session.row.monthsGranted ∧
      ∀ js ks closes, is = js ++ ks →
        (Reactive.final (step (prepaidYear env session))
          ⟨.opened item clock period, []⟩ js).store.through = some closes →
        (Reactive.final (step (prepaidYear env session))
          ⟨.opened item clock period, []⟩ is).store.through = some closes := by
  have hstart := @opened_sound env item hitem clock period
  refine ⟨((nonInterfering env session).final hstart htime).store.few, ?_⟩
  rintro js ks closes rfl hthrough
  obtain ⟨hjs, hks⟩ := (Reactive.along_append _ _ _ js ks).1 htime
  rw [Reactive.final_append]
  exact through_fixed ((nonInterfering env session).final hstart hjs) hks hthrough

/-- A year is granted and its coupon dropped, and a pass puts back the eleven months that are left
of the window. -/
def droppedRun : List (Input Request Await Event) :=
  [.start .grantPrepaidYear, .step 0 answered, .step 0 answered, .step 0 answered, .step 0 answered,
    .world .drop, .start .ensurePrepaidDiscount, .step 0 answered, .step 0 answered,
    .step 0 answered, .world .invoice]

theorem discounts_at_most_twelve_dropped :
    (Reactive.final (step (prepaidYear monthly starterSession))
        ⟨.opened starterItem 0 0, []⟩ droppedRun).store.discounted ≤
        starterSession.row.monthsGranted ∧
      ∀ js ks closes, droppedRun = js ++ ks →
        (Reactive.final (step (prepaidYear monthly starterSession))
          ⟨.opened starterItem 0 0, []⟩ js).store.through = some closes →
        (Reactive.final (step (prepaidYear monthly starterSession))
          ⟨.opened starterItem 0 0, []⟩ droppedRun).store.through = some closes :=
  discounts_at_most_twelve monthly starterSession (by decide) 0 0 (by decide +kernel)

/-- A year is granted and its stamp fails; twelve invoices are discounted. -/
def unstampedRun : List (Input Request Await Event) :=
  [.start .grantPrepaidYear, .step 0 answered, .step 0 answered, .step 0 answered, .step 0 lost] ++
    List.replicate 12 (.world .invoice)

/-- The session is replayed when the year is over: it is granted again, a thirteenth invoice is
discounted, and the window is stamped a year late. -/
theorem discounts_thirteen :
    (Reactive.final (step (prepaidYear monthly starterSession)) ⟨.opened starterItem 0 0, []⟩
        unstampedRun).store.discounted = 12 ∧
      (Reactive.final (step (prepaidYear monthly starterSession)) ⟨.opened starterItem 0 0, []⟩
        (unstampedRun ++ [.start .grantPrepaidYear, .step 0 answered, .step 0 answered,
          .step 0 answered, .step 0 answered, .world .invoice])).store.discounted = 13 ∧
      (Reactive.final (step (prepaidYear monthly starterSession)) ⟨.opened starterItem 0 0, []⟩
        (unstampedRun ++ [.start .grantPrepaidYear, .step 0 answered, .step 0 answered,
          .step 0 answered, .step 0 answered, .world .invoice])).store.through =
        some (setUTCMonth (monthly.periodEnd 11) 12) := by
  decide +kernel

end PrepaidYear
