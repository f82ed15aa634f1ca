import Mathlib.Algebra.Order.Field.Basic
import Mathlib.Tactic.Linarith
import Mathlib.Tactic.Ring

/-! Token buckets over an ordered field. The server may refill late: the stamp
of a bucket is allowed to lag behind the clock by less than one grain. Every
window of a run admits at most the capacity plus what the rate yields over the
window and that lag. -/
namespace TokenBucket
variable {K : Type*} [Field K]

structure Policy (K : Type*) where
  capacity : K
  rate : K
  grain : K

structure Bucket (K : Type*) where
  tokens : K
  stamp : K

/-- What one request takes out of the bucket. -/
def cost (admitted : Bool) : K := if admitted then 1 else 0

/-- Requests are clock readings with their verdicts. -/
def admissions (requests : List (K × Bool)) : Nat := requests.countP (·.2)

theorem cost_admissions (now : K) (admitted : Bool) (rest : List (K × Bool)) :
    (admissions ((now, admitted) :: rest) : K) = cost admitted + admissions rest := by
  cases admitted <;> simp [admissions, cost, add_comm]

variable [LinearOrder K]

/-- One request at `now`. The tokens left and the token taken are covered both
by the capacity and by the old tokens with the refill up to the new stamp. -/
structure Serves (policy : Policy K) (now : K) (before : Bucket K) (admitted : Bool)
    (after : Bucket K) : Prop where
  forward : before.stamp ≤ after.stamp
  past : after.stamp ≤ now
  fresh : now - policy.grain ≤ after.stamp
  capped : after.tokens + cost admitted ≤ policy.capacity
  refilled : after.tokens + cost admitted ≤
    before.tokens + policy.rate * (after.stamp - before.stamp)
  solvent : 0 ≤ before.tokens → 0 ≤ after.tokens

/-- Requests in order of arrival. -/
inductive Run (policy : Policy K) : Bucket K → List (K × Bool) → Bucket K → Prop where
  | nil (bucket) : Run policy bucket [] bucket
  | cons : Serves policy now before admitted middle → Run policy middle rest after →
      Run policy before ((now, admitted) :: rest) after

namespace Run
variable {policy : Policy K} {before middle after : Bucket K}

theorem split (run : Run policy before (left ++ right) after) :
    ∃ middle, Run policy before left middle ∧ Run policy middle right after := by
  induction left generalizing before with
  | nil => exact ⟨before, .nil _, run⟩
  | cons head rest ih =>
    cases run with
    | cons served tail =>
      obtain ⟨middle, first, second⟩ := ih tail
      exact ⟨middle, .cons served first, second⟩

theorem solvent (run : Run policy before requests after) (paid : 0 ≤ before.tokens) :
    0 ≤ after.tokens := by
  induction run with
  | nil => exact paid
  | cons served _ ih => exact ih (served.solvent paid)

theorem stamp_past (run : Run policy before requests after) (start : before.stamp ≤ now)
    (bounded : ∀ request ∈ requests, request.1 ≤ now) : after.stamp ≤ now := by
  induction run with
  | nil => exact start
  | @cons reading _ admitted _ rest _ served _ ih =>
    obtain ⟨earlier, others⟩ := List.forall_mem_cons.mp bounded
    exact ih (served.past.trans earlier) others

variable [IsStrictOrderedRing K]

/-- Tokens are conserved: whatever was admitted came out of the initial tokens
or out of the refill between the two stamps. -/
theorem conserved (run : Run policy before requests after) :
    after.tokens + admissions requests ≤
      before.tokens + policy.rate * (after.stamp - before.stamp) := by
  induction run with
  | nil bucket => simp [admissions]
  | @cons now first admitted next rest last served _ ih =>
    have step := served.refilled
    rw [cost_admissions]
    calc last.tokens + (cost admitted + admissions rest)
        = (last.tokens + admissions rest) + cost admitted := by ring
      _ ≤ (next.tokens + policy.rate * (last.stamp - next.stamp)) + cost admitted := by
          linarith only [ih]
      _ ≤ first.tokens + policy.rate * (last.stamp - first.stamp) := by
          linarith only [step]

/-- The amortised bound for a run that opens with the request `head` and has no
request later than `closed`. -/
theorem opened_bound (run : Run policy before (head :: rest) after)
    (paid : 0 ≤ before.tokens) (rising : 0 ≤ policy.rate)
    (ordered : head.1 ≤ closed) (bounded : ∀ request ∈ rest, request.1 ≤ closed) :
    (admissions (head :: rest) : K) ≤
      policy.capacity + policy.rate * (closed - head.1 + policy.grain) := by
  cases run with
  | @cons opened _ _ middle _ _ served tail =>
    have balance := tail.conserved
    have left := tail.solvent (served.solvent paid)
    have latest := tail.stamp_past (served.past.trans ordered) bounded
    have span : policy.rate * (after.stamp - middle.stamp) ≤
        policy.rate * (closed - opened + policy.grain) :=
      mul_le_mul_of_nonneg_left (by linarith only [latest, served.fresh]) rising
    rw [cost_admissions]
    linarith only [balance, left, span, served.capped]

/-- The amortised bound for every window of a run. -/
theorem window_bound (run : Run policy before requests after)
    (paid : 0 ≤ before.tokens) (rising : 0 ≤ policy.rate)
    (clock : requests.Pairwise (·.1 ≤ ·.1)) (ordered : i ≤ j) (within : j < requests.length) :
    (admissions ((requests.drop i).take (j - i + 1)) : K) ≤
      policy.capacity + policy.rate * (requests[j].1 - requests[i].1 + policy.grain) := by
  have opens : requests.drop i = requests[i] :: requests.drop (i + 1) :=
    List.drop_eq_getElem_cons (by omega)
  rw [← List.take_append_drop i requests] at run
  obtain ⟨_, early, late⟩ := run.split
  rw [← List.take_append_drop (j - i + 1) (requests.drop i)] at late
  obtain ⟨_, window, _⟩ := late.split
  rw [opens, List.take_succ_cons] at window ⊢
  have upto : ∀ k (_ : i ≤ k) (_ : k ≤ j), requests[k].1 ≤ requests[j].1 := by
    intro k _ before
    rcases Nat.lt_or_eq_of_le before with sooner | same
    · exact List.pairwise_iff_getElem.mp clock k j (by omega) within sooner
    · simp only [same, le_refl]
  apply window.opened_bound (early.solvent paid) rising (upto i (le_refl i) ordered)
  intro request member
  obtain ⟨k, small, rfl⟩ := List.mem_iff_getElem.mp member
  simp only [List.length_take, List.length_drop] at small
  rw [List.getElem_take, List.getElem_drop]
  exact upto (i + 1 + k) (by omega) (by omega)

end Run
end TokenBucket
