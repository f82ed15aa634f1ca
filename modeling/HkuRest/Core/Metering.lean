import HkuRest.Core.TokenBucket

/-! Meters: buckets that are refilled continuously up to the request at hand. A late bucket lies
between two of them, and a full meter admits every request exactly when the requests conform to its
capacity and rate in every window. -/
namespace TokenBucket
variable {K : Type*}

/-- A request is admitted once the level has reached the threshold, and takes one token. -/
structure Meter (K : Type*) where
  capacity : K
  rate : K
  threshold : K

variable [Field K]

theorem cost_toNat (admitted : Bool) : (cost admitted : K) = admitted.toNat := by
  cases admitted <;> simp [cost]

omit [Field K] in
theorem admissions_cons (now : K) (admitted : Bool) (rest : List (K × Bool)) :
    admissions ((now, admitted) :: rest) = admitted.toNat + admissions rest := by
  cases admitted <;> simp [admissions, add_comm]

variable [LinearOrder K]

namespace Meter
variable {meter : Meter K} {last level now budget base : K} {times rest : List K}

/-- The level at `now` after standing at `level` at `last`. -/
def filled (meter : Meter K) (last level now : K) : K :=
  min meter.capacity (level + meter.rate * (now - last))

def admits (meter : Meter K) (last level now : K) : Bool :=
  decide (meter.threshold ≤ meter.filled last level now)

def remaining (meter : Meter K) (last level now : K) : K :=
  meter.filled last level now - cost (meter.admits last level now)

def verdicts (meter : Meter K) (last level : K) : List K → List Bool
  | [] => []
  | now :: rest =>
    meter.admits last level now :: meter.verdicts now (meter.remaining last level now) rest

theorem verdicts_length (meter : Meter K) (last level : K) (times : List K) :
    (meter.verdicts last level times).length = times.length := by
  induction times generalizing last level with
  | nil => rfl
  | cons now rest ih => simp only [verdicts, List.length_cons, ih]

theorem verdicts_take (meter : Meter K) (last level : K) (times : List K) (k : Nat) :
    (meter.verdicts last level times).take k = meter.verdicts last level (times.take k) := by
  induction times generalizing last level k with
  | nil => simp [verdicts]
  | cons now rest ih =>
    cases k with
    | zero => simp [verdicts]
    | succ k => simp only [verdicts, List.take_succ_cons, ih]

theorem count_verdicts_cons (meter : Meter K) (last level now : K) (rest : List K) :
    (meter.verdicts last level (now :: rest)).count true =
      (meter.admits last level now).toNat +
        (meter.verdicts now (meter.remaining last level now) rest).count true := by
  rw [verdicts, List.count_cons, add_comm]
  cases meter.admits last level now <;> rfl

/-- Every request so far is paid for by `budget` at `base` and the refill since. -/
def Affords (meter : Meter K) (budget base : K) (times : List K) : Prop :=
  ∀ j (_ : j < times.length), (j : K) + meter.threshold ≤ budget + meter.rate * (times[j] - base)

/-- Every window of requests is paid for by a full bucket and the refill over the window. -/
def Conforms (meter : Meter K) (times : List K) : Prop :=
  ∀ i j (_ : i ≤ j) (_ : j < times.length),
    ((j - i : Nat) : K) + meter.threshold ≤ meter.capacity + meter.rate * (times[j] - times[i])

theorem affords_nil : meter.Affords budget base [] := fun _ within => absurd within (by simp)

theorem conforms_nil : meter.Conforms [] := fun _ _ _ within => absurd within (by simp)

theorem affords_cons [IsStrictOrderedRing K] : meter.Affords budget base (now :: rest) ↔
    meter.threshold ≤ budget + meter.rate * (now - base) ∧
      meter.Affords (budget + meter.rate * (now - base) - 1) now rest := by
  constructor
  · intro affords
    have first := affords 0 (Nat.succ_pos _)
    rw [Nat.cast_zero, zero_add, List.getElem_cons_zero] at first
    refine ⟨first, ?_⟩
    intro j within
    have later := affords (j + 1) (by simpa using within)
    simp only [Nat.cast_add, Nat.cast_one, List.getElem_cons_succ] at later
    linarith only [later]
  · rintro ⟨first, later⟩ j within
    cases j with
    | zero => simpa only [Nat.cast_zero, zero_add, List.getElem_cons_zero] using first
    | succ j =>
      have step := later j (by simpa using within)
      simp only [Nat.cast_add, Nat.cast_one, List.getElem_cons_succ]
      linarith only [step]

theorem affords_min [IsStrictOrderedRing K] {left right : K} :
    meter.Affords (min left right) base times ↔
      meter.Affords left base times ∧ meter.Affords right base times := by
  simp only [Affords, ← forall_and]
  refine forall₂_congr fun j within => ?_
  rw [min_add, le_min_iff]

theorem conforms_cons : meter.Conforms (now :: rest) ↔
    meter.Affords meter.capacity now (now :: rest) ∧ meter.Conforms rest := by
  constructor
  · intro conforms
    refine ⟨fun j within => conforms 0 j (Nat.zero_le _) within, ?_⟩
    intro i j ordered within
    have later := conforms (i + 1) (j + 1) (by omega) (by simpa using within)
    rw [show j + 1 - (i + 1) = j - i by omega] at later
    simpa only [List.getElem_cons_succ] using later
  · rintro ⟨opened, later⟩ i j ordered within
    cases i with
    | zero => exact opened j within
    | succ i =>
      cases j with
      | zero => omega
      | succ j =>
        have step := later i j (by omega) (by simpa using within)
        rw [show j + 1 - (i + 1) = j - i by omega]
        simpa only [List.getElem_cons_succ] using step

variable [IsStrictOrderedRing K]

/-- From any level, nothing is rejected exactly when the level and every window pay. -/
theorem verdicts_all : (∀ verdict ∈ meter.verdicts last level times, verdict = true) ↔
    meter.Affords level last times ∧ meter.Conforms times := by
  induction times generalizing last level with
  | nil => simp [verdicts, affords_nil, conforms_nil]
  | cons now rest ih =>
    have head : meter.threshold ≤ meter.filled last level now ↔
        meter.threshold ≤ meter.capacity ∧
          meter.threshold ≤ level + meter.rate * (now - last) := le_min_iff
    rw [conforms_cons, affords_cons, affords_cons, sub_self, mul_zero, add_zero]
    simp only [verdicts, List.forall_mem_cons, admits, remaining, decide_eq_true_eq]
    by_cases admitted : meter.threshold ≤ meter.filled last level now
    · have split : meter.filled last level now - 1 =
          min (meter.capacity - 1) (level + meter.rate * (now - last) - 1) :=
        inf_sub _ _ _
      obtain ⟨room, paid⟩ := head.mp admitted
      simp only [admitted, decide_true, cost, if_true, ih, split, affords_min, true_and, room, paid]
      tauto
    · have refused := mt head.mpr admitted
      simp only [admitted, false_and, false_iff]
      tauto

theorem verdicts_all_full (rising : 0 ≤ meter.rate) (clock : ∀ now ∈ times, last ≤ now) :
    (∀ verdict ∈ meter.verdicts last meter.capacity times, verdict = true) ↔
      meter.Conforms times := by
  rw [verdicts_all]
  refine and_iff_right_of_imp fun conforms j within => ?_
  have window := conforms 0 j (Nat.zero_le _) within
  have opened := mul_nonneg rising (sub_nonneg.mpr (clock times[0] (List.getElem_mem _)))
  rw [Nat.sub_zero] at window
  linarith only [window, opened]

end Meter

/-- The meter that a late bucket never overtakes: the lag counts as capacity. -/
def Policy.above (policy : Policy K) : Meter K where
  capacity := policy.capacity + policy.rate * policy.grain
  rate := policy.rate
  threshold := 1

/-- The meter that never overtakes a late bucket: the lag is kept in hand. -/
def Policy.below (policy : Policy K) : Meter K where
  capacity := policy.capacity
  rate := policy.rate
  threshold := 1 + policy.rate * policy.grain

/-- One request that is paid out at the rate of the policy at least: what the stamps lie apart is
refilled up to the capacity, and no whole token is withheld. -/
structure Pays (policy : Policy K) (now : K) (before : Bucket K) (admitted : Bool)
    (after : Bucket K) : Prop where
  past : after.stamp ≤ now
  fresh : now - policy.grain ≤ after.stamp
  refilled : min policy.capacity (before.tokens + policy.rate * (after.stamp - before.stamp)) ≤
    after.tokens + cost admitted
  generous : admitted = false → after.tokens < 1

/-- Requests in order of arrival, each paid out. -/
inductive Paid (policy : Policy K) : Bucket K → List (K × Bool) → Bucket K → Prop where
  | nil (bucket) : Paid policy bucket [] bucket
  | cons : Pays policy now before admitted middle → Paid policy middle rest after →
      Paid policy before ((now, admitted) :: rest) after

variable [IsStrictOrderedRing K] {policy : Policy K} {before after : Bucket K}
  {requests : List (K × Bool)} {last level : K} {ahead : Nat}

theorem lead_step (ahead : Nat) (admitted metered : Bool)
    (lead : admitted = true → metered = false → 0 < ahead) :
    ∃ next : Nat, next + admitted.toNat = ahead + metered.toNat := by
  refine ⟨ahead + metered.toNat - admitted.toNat, Nat.sub_add_cancel ?_⟩
  cases admitted <;> cases metered <;> simp at lead ⊢
  exact lead

/-- The meter above is `ahead` admissions in front and owes the bucket no tokens beside them. -/
theorem Run.admissions_le (run : Run policy before requests after)
    (solvent : 0 ≤ before.tokens) (rising : 0 ≤ policy.rate)
    (covered : before.tokens + policy.rate * (last - before.stamp) ≤ level + ahead) :
    admissions requests ≤
      ahead + (policy.above.verdicts last level (requests.map (·.1))).count true := by
  induction run generalizing last level ahead with
  | nil => simp [admissions]
  | @cons now before admitted middle rest after served run ih =>
    have lag := mul_le_mul_of_nonneg_left
      (show now - middle.stamp ≤ policy.grain by linarith only [served.fresh]) rising
    have since := mul_nonneg rising (sub_nonneg.mpr served.past)
    have step : middle.tokens + cost admitted + policy.rate * (now - middle.stamp) ≤
        policy.above.filled last level now + ahead := by
      rw [Meter.filled, min_add]
      apply le_min
      · have front : (0 : K) ≤ ahead := Nat.cast_nonneg ahead
        simp only [Policy.above]
        linarith only [served.capped, lag, front]
      · simp only [Policy.above]
        linarith only [served.refilled, covered]
    have left := served.solvent solvent
    obtain ⟨next, moved⟩ := lead_step ahead admitted (policy.above.admits last level now) (by
        -- a token the bucket alone pays out is one the meter has handed out before
        rintro rfl refused
        have short : policy.above.filled last level now < 1 := not_le.mp (of_decide_eq_false refused)
        simp only [cost, if_true] at step
        exact (Nat.cast_pos (α := K)).mp (by linarith only [step, short, since, left]))
    have balance : (next : K) + cost admitted =
        ahead + cost (policy.above.admits last level now) := by
      simp only [cost_toNat]
      exact_mod_cast moved
    have tail := @ih now (policy.above.remaining last level now) next left
      (by simp only [Meter.remaining]; linarith only [step, balance])
    simp only [admissions_cons, List.map_cons, Meter.count_verdicts_cons]
    omega

/-- Started alike, the meter above has admitted as much at the end of every run. -/
theorem Run.admissions_le_above (run : Run policy before requests after)
    (solvent : 0 ≤ before.tokens) (rising : 0 ≤ policy.rate) :
    admissions requests ≤
      (policy.above.verdicts before.stamp before.tokens (requests.map (·.1))).count true := by
  have bound := @Run.admissions_le _ _ _ _ _ before after requests before.stamp before.tokens 0
    run solvent rising (by simp)
  simpa using bound

/-- The bucket is `ahead` admissions in front of the meter below, and lags by its refill only. -/
theorem Paid.le_admissions (paid : Paid policy before requests after) (rising : 0 ≤ policy.rate)
    (covered : level ≤ before.tokens + policy.rate * (last - before.stamp) + ahead) :
    (policy.below.verdicts last level (requests.map (·.1))).count true ≤
      ahead + admissions requests := by
  induction paid generalizing last level ahead with
  | nil => simp [Meter.verdicts]
  | @cons now before admitted middle rest after served paid ih =>
    have lag := mul_le_mul_of_nonneg_left
      (show now - middle.stamp ≤ policy.grain by linarith only [served.fresh]) rising
    have since := mul_nonneg rising (sub_nonneg.mpr served.past)
    have step : policy.below.filled last level now ≤
        middle.tokens + cost admitted + policy.rate * (now - middle.stamp) + ahead := by
      have front : (0 : K) ≤ ahead := Nat.cast_nonneg ahead
      rcases min_le_iff.mp served.refilled with full | earned
      · refine (min_le_left _ _).trans ?_
        simp only [Policy.below]
        linarith only [full, since, front]
      · refine (min_le_right _ _).trans ?_
        simp only [Policy.below]
        linarith only [earned, covered]
    obtain ⟨next, moved⟩ := lead_step ahead (policy.below.admits last level now) admitted (by
        -- the meter keeps the lag in hand, so the bucket withholds a token it has given before
        rintro enough rfl
        have reached : 1 + policy.rate * policy.grain ≤ policy.below.filled last level now :=
          of_decide_eq_true enough
        have empty := served.generous rfl
        simp only [cost, Bool.false_eq_true, if_false, add_zero] at step
        exact (Nat.cast_pos (α := K)).mp (by linarith only [step, reached, empty, lag]))
    have balance : (next : K) + cost (policy.below.admits last level now) = ahead + cost admitted := by
      simp only [cost_toNat]
      exact_mod_cast moved
    have tail := @ih now (policy.below.remaining last level now) next
      (by simp only [Meter.remaining]; linarith only [step, balance])
    simp only [admissions_cons, List.map_cons, Meter.count_verdicts_cons]
    omega

/-- Started alike, the meter below has admitted no more at the end of every run. -/
theorem Paid.below_le_admissions (paid : Paid policy before requests after)
    (rising : 0 ≤ policy.rate) :
    (policy.below.verdicts before.stamp before.tokens (requests.map (·.1))).count true ≤
      admissions requests := by
  have bound := @Paid.le_admissions _ _ _ _ _ before after requests before.stamp before.tokens 0
    paid rising (by simp)
  simpa using bound

end TokenBucket
