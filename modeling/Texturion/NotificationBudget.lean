/-
**The budget of a day's notifications.**

Every claim of a notification that `thread_inbound_message` has won takes one unit of the day of its
company.  The two channels share the counter and have a ladder each: a claim that reaches the limit
of a channel warns at 100 per cent, and one that reaches 80 per cent of it at 80, each once a day.
A claim has its own limits, since they may be changed at any time.

Main result:

* `NotificationBudget.ascending_iff` — **an 80 never comes after a 100 exactly where the limits are
  in order**.
-/

import Texturion.ReactiveRun
import Mathlib.Data.Int.Order.Basic

namespace NotificationBudget

open Reactive (final outputs)

/-! ### A claim -/

inductive Channel
  | email
  | push
  deriving DecidableEq

/-- 80 and 100. -/
inductive Threshold
  | warning
  | cap
  deriving DecidableEq

/-- `…_limit`, `…_warned_at` and `…_capped_at` of one channel. -/
structure Ladder where
  limit : ℕ
  warnedAt : Option ℤ
  cappedAt : Option ℤ
  deriving DecidableEq

/-- A row of `inbound_notification_days`, of one company and one day. -/
structure NotifyDay where
  notifyCount : ℕ
  email : Ladder
  push : Ladder
  deriving DecidableEq

/-- `p_email_limit` and `p_push_limit` of a claim that was won, with its time. -/
structure Claim where
  emailLimit : ℕ
  pushLimit : ℕ
  now : ℤ
  deriving DecidableEq

structure Alert where
  channel : Channel
  threshold : Threshold
  deriving DecidableEq

/-- What the claim returns about notifications; `notificationAlert` is the scalar of the email
ladder that there was before the channels. -/
structure Verdict where
  alerts : List Alert
  notificationAlert : Option Threshold
  notifyEmail : Bool
  notifyPush : Bool
  deriving DecidableEq

/-- The ladder of one channel, after the counter. -/
def Ladder.climb (now : ℤ) (count limit : ℕ) (l : Ladder) : Ladder × Option Threshold :=
  if limit ≤ count ∧ l.cappedAt = none then ({ l with cappedAt := some now }, some .cap)
  else if limit * 8 / 10 ≤ count ∧ l.warnedAt = none then
    ({ l with warnedAt := some now }, some .warning)
  else (l, none)

/-- The insert of the row, or the update on conflict: the limits are stamped by every claim. -/
def counted (c : Claim) : Option NotifyDay → NotifyDay
  | none =>
    { notifyCount := 1
      email := ⟨c.emailLimit, none, none⟩
      push := ⟨c.pushLimit, none, none⟩ }
  | some d =>
    { notifyCount := d.notifyCount + 1
      email := { d.email with limit := c.emailLimit }
      push := { d.push with limit := c.pushLimit } }

/-- The budget part of `thread_inbound_message`. -/
def claim (row : Option NotifyDay) (c : Claim) : NotifyDay × Verdict :=
  let d := counted c row
  let email := d.email.climb c.now d.notifyCount c.emailLimit
  let push := d.push.climb c.now d.notifyCount c.pushLimit
  ({ d with email := email.1, push := push.1 },
    { alerts := (email.2.map (⟨.email, ·⟩)).toList ++ (push.2.map (⟨.push, ·⟩)).toList
      notificationAlert := email.2
      notifyEmail := decide (d.notifyCount ≤ c.emailLimit)
      notifyPush := decide (d.notifyCount ≤ c.pushLimit) })

def step (row : Option NotifyDay) (c : Claim) : Option NotifyDay × List Verdict :=
  (some (claim row c).1, [(claim row c).2])

/-! ### One channel -/

variable (channel : Channel)

def Claim.limit (c : Claim) : ℕ :=
  match channel with
  | .email => c.emailLimit
  | .push => c.pushLimit

/-- The counter and the ladder of a row, which may not be there yet. -/
def count (row : Option NotifyDay) : ℕ := row.elim 0 (·.notifyCount)

def ladder (row : Option NotifyDay) : Ladder :=
  match channel, row with
  | _, none => ⟨0, none, none⟩
  | .email, some d => d.email
  | .push, some d => d.push

/-- The claim returns the threshold for the channel. -/
def Verdict.alerts? (v : Verdict) (threshold : Threshold) : Bool :=
  v.alerts.contains ⟨channel, threshold⟩

def Verdict.allowed (v : Verdict) : Bool :=
  match channel with
  | .email => v.notifyEmail
  | .push => v.notifyPush

@[simp] theorem count_none : count none = 0 := rfl

variable (row : Option NotifyDay)

@[simp] theorem count_step (c : Claim) : count (step row c).1 = count row + 1 := by
  cases row with
  | none | some => rfl

def ready (row : Option NotifyDay) (c : Claim) : Ladder :=
  { ladder channel row with limit := c.limit channel }

theorem ladder_step (c : Claim) : ladder channel (step row c).1 =
    ((ready channel row c).climb c.now (count row + 1) (c.limit channel)).1 := by
  cases channel <;> cases row <;> rfl

theorem alerts_step (c : Claim) (threshold : Threshold) :
    (claim row c).2.alerts? channel threshold = true ↔
      ((ready channel row c).climb c.now (count row + 1) (c.limit channel)).2 = some threshold := by
  have hclimb : ∀ email push : Option Threshold,
      (((email.map (Alert.mk .email ·)).toList ++ (push.map (Alert.mk .push ·)).toList).contains
        ⟨channel, threshold⟩ = true) ↔
      (match channel with | .email => email | .push => push) = some threshold := by
    intro email push
    cases channel <;> cases email <;> cases push <;> simp [eq_comm]
  cases channel with
  | email | push =>
    cases row with
    | none => exact hclimb _ _
    | some d => exact hclimb _ _

theorem allowed_step (c : Claim) :
    (claim row c).2.allowed channel = true ↔ count row + 1 ≤ c.limit channel := by
  cases channel <;> cases row <;> exact decide_eq_true_iff

/-! ### What a ladder returns -/

variable {now : ℤ} {n limit : ℕ} {l : Ladder}

theorem climb_cap : (l.climb now n limit).2 = some .cap ↔ limit ≤ n ∧ l.cappedAt = none := by
  rw [Ladder.climb]
  split_ifs with hcap hwarning
  · simp [hcap]
  · simpa using fun h => fun hnone => hcap ⟨h, hnone⟩
  · simpa using fun h => fun hnone => hcap ⟨h, hnone⟩

theorem climb_warning :
    (l.climb now n limit).2 = some .warning ↔
      ¬(limit ≤ n ∧ l.cappedAt = none) ∧ limit * 8 / 10 ≤ n ∧ l.warnedAt = none := by
  rw [Ladder.climb]
  split_ifs with hcap hwarning
  · simp [hcap]
  · simp [hcap, hwarning]
  · simp [hcap, hwarning]

/-- The time at which a threshold was returned. -/
def Ladder.stamp (l : Ladder) : Threshold → Option ℤ
  | .warning => l.warnedAt
  | .cap => l.cappedAt

theorem climb_stamp (threshold : Threshold) :
    (l.climb now n limit).1.stamp threshold = none ↔
      l.stamp threshold = none ∧ (l.climb now n limit).2 ≠ some threshold := by
  rw [Ladder.climb]
  split_ifs with hcap hwarning
  · cases threshold <;> simp [Ladder.stamp]
  · cases threshold <;> simp [Ladder.stamp]
  · simp

theorem stamp_step (threshold : Threshold) (c : Claim) :
    (ladder channel (step row c).1).stamp threshold = none ↔
      (ladder channel row).stamp threshold = none ∧
        (claim row c).2.alerts? channel threshold = false := by
  rw [ladder_step, climb_stamp, ← Bool.not_eq_true, alerts_step]
  rfl

theorem cap_step (c : Claim) :
    (claim row c).2.alerts? channel .cap = true ↔
      c.limit channel ≤ count row + 1 ∧ (ladder channel row).cappedAt = none := by
  rw [alerts_step, climb_cap]
  rfl

theorem warning_step (c : Claim) :
    (claim row c).2.alerts? channel .warning = true ↔
      ¬(c.limit channel ≤ count row + 1 ∧ (ladder channel row).cappedAt = none) ∧
        c.limit channel * 8 / 10 ≤ count row + 1 ∧ (ladder channel row).warnedAt = none := by
  rw [alerts_step, climb_warning]
  rfl

theorem stamp_of_alerts {threshold : Threshold} {c : Claim}
    (h : (claim row c).2.alerts? channel threshold = true) :
    (ladder channel row).stamp threshold = none := by
  cases threshold with
  | warning => exact ((warning_step channel row c).1 h).2.2
  | cap => exact ((cap_step channel row c).1 h).2

/-! ### A day of claims -/

/-- **A stamp ends its threshold**, for the rest of the day. -/
theorem none_of_stamped {threshold : Threshold} (claims : List Claim) :
    ∀ {row : Option NotifyDay}, (ladder channel row).stamp threshold ≠ none →
      ∀ v ∈ outputs step row claims, v.alerts? channel threshold = false := by
  induction claims with
  | nil => intro row _ v hv; cases hv
  | cons c claims ih =>
    intro row hstamped v hv
    rcases List.mem_cons.1 hv with rfl | hv
    · by_contra htrue
      exact hstamped (stamp_of_alerts channel row (by simpa using htrue))
    · refine ih (fun hnone => hstamped ?_) v hv
      exact ((stamp_step channel row threshold c).1 hnone).1

/-- No threshold is returned twice. -/
def AtMostOnce (verdicts : List Verdict) : Prop :=
  verdicts.Pairwise fun v v' => ∀ threshold,
    ¬(v.alerts? channel threshold = true ∧ v'.alerts? channel threshold = true)

/-- No 80 comes after a 100. -/
def Ascending (verdicts : List Verdict) : Prop :=
  verdicts.Pairwise fun v v' =>
    ¬(v.alerts? channel .cap = true ∧ v'.alerts? channel .warning = true)

instance (verdicts : List Verdict) : Decidable (Ascending channel verdicts) :=
  inferInstanceAs (Decidable (verdicts.Pairwise _))

theorem once_of_run (claims : List Claim) : ∀ row : Option NotifyDay,
    AtMostOnce channel (outputs step row claims) := by
  induction claims with
  | nil => exact fun _ => List.Pairwise.nil
  | cons c claims ih =>
    intro row
    refine List.pairwise_cons.2 ⟨fun v hv threshold => ?_, ih _⟩
    rintro ⟨hfirst, hlater⟩
    have hstamped : (ladder channel (step row c).1).stamp threshold ≠ none := fun hnone => by
      rw [((stamp_step channel row threshold c).1 hnone).2] at hfirst
      cases hfirst
    rw [none_of_stamped channel claims hstamped v hv] at hlater
    cases hlater

/-! ### The order of the thresholds -/

/-- A limit, and the number of the claim. -/
def near (c : ℕ × ℕ) : Bool := decide (c.1 * 8 / 10 ≤ c.2)
def full (c : ℕ × ℕ) : Bool := decide (c.1 ≤ c.2)

/-- The first claim to reach 80 per cent of its limit stays below the limit, or no later one reaches
so much. -/
def InOrderFrom (n : ℕ) (limits : List ℕ) : Prop :=
  match (limits.zipIdx n).dropWhile fun c => !near c with
  | [] => True
  | c :: later => full c = true → ∀ c' ∈ later, near c' = false

def InOrder (limits : List ℕ) : Prop := InOrderFrom 1 limits

theorem near_of_full {c : ℕ × ℕ} (h : full c = true) : near c = true := by
  simp only [full, near, decide_eq_true_eq] at h ⊢
  omega

/-- Once the limit has been reached without a warning, a claim warns if it reaches 80 per cent. -/
theorem no_warning_iff (claims : List Claim) : ∀ {row : Option NotifyDay},
    (ladder channel row).cappedAt ≠ none → (ladder channel row).warnedAt = none →
      ((∀ v ∈ outputs step row claims, v.alerts? channel .warning = false) ↔
        ∀ c ∈ (claims.map (·.limit channel)).zipIdx (count row + 1), near c = false) := by
  induction claims with
  | nil => simp
  | cons c claims ih =>
    intro row hcapped hwarned
    have hcapped' : (ladder channel (step row c).1).cappedAt ≠ none := fun hnone =>
      hcapped ((stamp_step channel row .cap c).1 hnone).1
    have hhead : (claim row c).2.alerts? channel .warning = false ↔
        near (c.limit channel, count row + 1) = false := by
      rw [← Bool.not_eq_true, ← Bool.not_eq_true, warning_step, near, decide_eq_true_eq]
      simp [hcapped, hwarned]
    have hcons : outputs step row (c :: claims) =
        (claim row c).2 :: outputs step (step row c).1 claims := rfl
    rw [hcons, List.map_cons, List.zipIdx_cons, List.forall_mem_cons, List.forall_mem_cons, hhead]
    refine and_congr_right fun hnot => ?_
    have hwarned' := (stamp_step channel row .warning c).2 ⟨hwarned, hhead.2 hnot⟩
    rw [ih hcapped' hwarned', count_step]

/-- **An 80 never comes after a 100 exactly where the limits are in order.** -/
theorem ascending_iff (claims : List Claim) : ∀ {row : Option NotifyDay},
    (ladder channel row).cappedAt = none → (ladder channel row).warnedAt = none →
      (Ascending channel (outputs step row claims) ↔
        InOrderFrom (count row + 1) (claims.map (·.limit channel))) := by
  induction claims with
  | nil => intro row _ _; exact ⟨fun _ => trivial, fun _ => List.Pairwise.nil⟩
  | cons c claims ih =>
    intro row hcapped hwarned
    have hcons : outputs step row (c :: claims) =
        (claim row c).2 :: outputs step (step row c).1 claims := rfl
    rw [hcons, Ascending, List.pairwise_cons, InOrderFrom, List.map_cons, List.zipIdx_cons]
    by_cases hnear : near (c.limit channel, count row + 1) = true
    · rw [List.dropWhile_cons_of_neg (by simp [hnear])]
      by_cases hfull : full (c.limit channel, count row + 1) = true
      · -- the claim warns at 100 per cent, and the 80 is still to come
        have hlimit : c.limit channel ≤ count row + 1 := of_decide_eq_true hfull
        have hcap := (cap_step channel row c).2 ⟨hlimit, hcapped⟩
        have hnone : (claim row c).2.alerts? channel .warning = false := by
          rw [← Bool.not_eq_true, warning_step]
          exact fun h => h.1 ⟨hlimit, hcapped⟩
        have hcapped' : (ladder channel (step row c).1).stamp .cap ≠ none := fun h => by
          rw [((stamp_step channel row .cap c).1 h).2] at hcap
          cases hcap
        have hwarned' := (stamp_step channel row .warning c).2 ⟨hwarned, hnone⟩
        have hrest : (outputs step (step row c).1 claims).Pairwise fun v v' =>
            ¬(v.alerts? channel .cap = true ∧ v'.alerts? channel .warning = true) := by
          refine List.pairwise_of_forall_mem_list fun v hv v' _ h => ?_
          rw [none_of_stamped channel claims hcapped' v hv] at h
          cases h.1
        simp only [hcap, true_and, hrest, and_true, hfull, true_imp_iff, Bool.not_eq_true]
        rw [no_warning_iff channel claims hcapped' hwarned', count_step]
      · -- the claim warns at 80 per cent, for the whole day
        have hwarning := (warning_step channel row c).2
          ⟨fun h => hfull (decide_eq_true h.1), of_decide_eq_true hnear, hwarned⟩
        have hwarned' : (ladder channel (step row c).1).stamp .warning ≠ none := fun h => by
          rw [((stamp_step channel row .warning c).1 h).2] at hwarning
          cases hwarning
        have hnone := none_of_stamped channel claims hwarned'
        refine ⟨fun _ h => absurd h hfull, fun _ => ⟨fun v hv h => ?_, ?_⟩⟩
        · rw [hnone v hv] at h
          cases h.2
        · refine List.pairwise_of_forall_mem_list fun v _ v' hv' h => ?_
          rw [hnone v' hv'] at h
          cases h.2
    · -- the claim is below both, and returns nothing
      rw [List.dropWhile_cons_of_pos (by simp [hnear])]
      have hfull : ¬c.limit channel ≤ count row + 1 := fun h =>
        hnear (near_of_full (decide_eq_true h))
      have hcap : (claim row c).2.alerts? channel .cap = false := by
        rw [← Bool.not_eq_true, cap_step]
        exact fun h => hfull h.1
      have hwarning : (claim row c).2.alerts? channel .warning = false := by
        rw [← Bool.not_eq_true, warning_step]
        exact fun h => hnear (decide_eq_true h.2.1)
      have hih := ih ((stamp_step channel row .cap c).2 ⟨hcapped, hcap⟩)
        ((stamp_step channel row .warning c).2 ⟨hwarned, hwarning⟩)
      rw [count_step] at hih
      simp only [hcap, Bool.false_eq_true, false_and, not_false_eq_true, implies_true, true_and]
      exact hih

/-! ### What is allowed -/

theorem count_of_run (claims : List Claim) : ∀ row : Option NotifyDay,
    count (final step row claims) = count row + claims.length := by
  induction claims with
  | nil => exact fun _ => rfl
  | cons c claims ih =>
    intro row
    rw [Reactive.final_cons, ih, count_step, List.length_cons]
    omega

/-- **A constant limit allows so many claims at most.** -/
theorem allowed_le (limit : ℕ) (claims : List Claim) : ∀ row : Option NotifyDay,
    (∀ c ∈ claims, c.limit channel = limit) →
      (outputs step row claims).countP (Verdict.allowed channel) ≤ limit - count row := by
  induction claims with
  | nil => intro row _; exact Nat.zero_le _
  | cons c claims ih =>
    intro row hlimit
    have hrest := ih (step row c).1 fun c' hc' => hlimit c' (List.mem_cons_of_mem _ hc')
    have hcons : outputs step row (c :: claims) =
        (claim row c).2 :: outputs step (step row c).1 claims := rfl
    rw [count_step] at hrest
    rw [hcons, List.countP_cons]
    have hallowed := allowed_step channel row c
    rw [hlimit c (List.mem_cons_self ..)] at hallowed
    split_ifs with h
    · have := hallowed.1 h
      omega
    · omega

/-- **A day's ladder does what it is meant to exactly where the limits are in order.** -/
theorem ladder_exactly (claims : List Claim) :
    (AtMostOnce channel (outputs step none claims) ∧
      Ascending channel (outputs step none claims) ∧
      count (final step none claims) = claims.length ∧
      ∀ limit, (∀ c ∈ claims, c.limit channel = limit) →
        (outputs step none claims).countP (Verdict.allowed channel) ≤ limit) ↔
      InOrder (claims.map (·.limit channel)) := by
  have hnone : ladder channel none = ⟨0, none, none⟩ := by cases channel <;> rfl
  have hascending : Ascending channel (outputs step none claims) ↔
      InOrder (claims.map (·.limit channel)) :=
    ascending_iff channel claims (by rw [hnone]) (by rw [hnone])
  rw [hascending]
  refine ⟨fun h => h.2.1, fun h => ⟨once_of_run channel claims none, h, ?_, fun limit hlimit => ?_⟩⟩
  · simpa using count_of_run claims none
  · exact allowed_le channel limit claims none hlimit

/-- A limit of one email: the first claim caps the day, and the second warns of it. -/
theorem warned_after_cap : ¬Ascending .email (outputs step none [⟨1, 2000, 0⟩, ⟨1, 2000, 1⟩]) := by
  decide

end NotificationBudget
