import HkuRest.Httpd.RateLimit
import HkuRest.Core.TokenBucket
import Mathlib.Algebra.Order.Ring.Cast
import Mathlib.Tactic.NormNum
import Mathlib.Tactic.FieldSimp

/-! The rate limiter refines the abstract token bucket, with one millisecond of
grain because the stamp waits for a whole millisecond. Every window of a run is
bounded by the burst size and the rate. -/
namespace Hku.RateLimiter

/-- The bucket of a configuration, per nanosecond. -/
def policy (config : RateLimitConfig) : TokenBucket.Policy ℚ where
  capacity := config.burstSize.toNat
  rate := config.requestsPerSecond.toNat / 1000000000
  grain := 1000000

def bucket (limiter : RateLimiter) : TokenBucket.Bucket ℚ := ⟨limiter.tokens, limiter.lastUpdate⟩

theorem policy_rate_nonneg (config : RateLimitConfig) : 0 ≤ (policy config).rate := by
  simp only [policy]
  positivity

theorem milliseconds_le (span : 0 ≤ duration) :
    durationMilliseconds duration * 1000000 ≤ duration := by
  simp only [durationMilliseconds, Int.tdiv_eq_ediv_of_nonneg span]
  omega

theorem milliseconds_zero (duration : Int) (span : 0 ≤ duration) (none : ¬ durationMilliseconds duration > 0) :
    duration < 1000000 := by
  simp only [durationMilliseconds, Int.tdiv_eq_ediv_of_nonneg span] at none
  omega

theorem tokensToAdd_le (limiter : RateLimiter) (clock : limiter.lastUpdate ≤ now) :
    limiter.tokensToAdd now ≤
      (policy limiter.config).rate * ((now : ℚ) - limiter.lastUpdate) := by
  have whole : ((durationMilliseconds (now - limiter.lastUpdate) * 1000000 : Int) : ℚ) ≤
      ((now - limiter.lastUpdate : Int) : ℚ) := by
    exact_mod_cast milliseconds_le (by omega)
  push_cast at whole
  have scaled := mul_le_mul_of_nonneg_left whole (policy_rate_nonneg limiter.config)
  calc limiter.tokensToAdd now
      = (policy limiter.config).rate *
          ((durationMilliseconds (now - limiter.lastUpdate) : ℚ) * 1000000) := by
        simp only [tokensToAdd, policy]
        ring
    _ ≤ _ := scaled

theorem tokensToAdd_nonneg (limiter : RateLimiter)
    (elapsed : durationMilliseconds (now - limiter.lastUpdate) > 0) :
    0 ≤ limiter.tokensToAdd now := by
  have counted : (0 : ℚ) ≤ durationMilliseconds (now - limiter.lastUpdate) := by
    exact_mod_cast elapsed.le
  simp only [tokensToAdd]
  positivity

/-- What a refill establishes, whether or not the stamp moved. -/
structure Refilled (now : Int) (before after : RateLimiter) : Prop where
  forward : before.lastUpdate ≤ after.lastUpdate
  past : after.lastUpdate ≤ now
  fresh : now - 1000000 ≤ after.lastUpdate
  capped : after.tokens ≤ after.burst
  earned : after.tokens ≤
    before.tokens + (policy before.config).rate * ((after.lastUpdate : ℚ) - before.lastUpdate)
  solvent : 0 ≤ before.tokens → 0 ≤ after.tokens

theorem refill_spec (limiter : RateLimiter) (clock : limiter.lastUpdate ≤ now)
    (capped : limiter.tokens ≤ limiter.burst) : Refilled now limiter (limiter.refill now) := by
  by_cases elapsed : durationMilliseconds (now - limiter.lastUpdate) > 0
  · have shape : limiter.refill now = { limiter with
        tokens := min limiter.burst (limiter.tokens + limiter.tokensToAdd now)
        lastUpdate := now } := if_pos elapsed
    rw [shape]
    refine ⟨clock, le_refl _, by simp, min_le_left _ _, ?_, ?_⟩
    · exact (min_le_right _ _).trans (by linarith only [limiter.tokensToAdd_le clock])
    · intro paid
      have earned := limiter.tokensToAdd_nonneg elapsed
      have full : 0 ≤ limiter.burst := Nat.cast_nonneg _
      exact le_min full (by linarith only [paid, earned])
  · have shape : limiter.refill now = limiter := if_neg elapsed
    have lag := milliseconds_zero (now - limiter.lastUpdate) (by omega) elapsed
    rw [shape]
    exact ⟨le_refl _, clock, by omega, capped, by simp, id⟩

/-- One metered call is one request of the abstract bucket. -/
theorem allowRequest_serves (limiter : RateLimiter) (enabled : limiter.config.enabled = true)
    (metered : limiter.config.exempts ip endpoint method = false)
    (clock : limiter.lastUpdate ≤ now) (capped : limiter.tokens ≤ limiter.burst) :
    TokenBucket.Serves (policy limiter.config) (now : ℚ) limiter.bucket
      (limiter.allowRequest now ip endpoint method).2
      (limiter.allowRequest now ip endpoint method).1.bucket := by
  have refilled := limiter.refill_spec clock capped
  have same : (limiter.refill now).burst = (policy limiter.config).capacity := by
    simp only [burst, refill_config, policy]
  rw [allowRequest_metered enabled metered]
  have forward : (limiter.lastUpdate : ℚ) ≤ (limiter.refill now).lastUpdate := by
    exact_mod_cast refilled.forward
  have past : ((limiter.refill now).lastUpdate : ℚ) ≤ now := by exact_mod_cast refilled.past
  have fresh : (now : ℚ) - 1000000 ≤ (limiter.refill now).lastUpdate := by
    exact_mod_cast refilled.fresh
  have full := refilled.capped
  rw [same] at full
  have earned := refilled.earned
  unfold consume
  split
  · rename_i available
    refine ⟨forward, past, fresh, ?_, ?_, ?_⟩
    · simpa only [bucket, TokenBucket.cost, if_true, sub_add_cancel] using full
    · simpa only [bucket, TokenBucket.cost, if_true, sub_add_cancel] using earned
    · intro _
      simp only [bucket]
      linarith only [available]
  · refine ⟨forward, past, fresh, ?_, ?_, refilled.solvent⟩
    · simpa only [bucket, TokenBucket.cost, Bool.false_eq_true, if_false, add_zero] using full
    · simpa only [bucket, TokenBucket.cost, Bool.false_eq_true, if_false, add_zero] using earned

/-- The calls of a run as requests of the abstract bucket. -/
def requests (limiter : RateLimiter) (calls : List RateCall) : List (ℚ × Bool) :=
  (calls.map fun call => (call.time : ℚ)).zip (limiter.verdicts calls)

theorem requests_run (limiter : RateLimiter) (enabled : limiter.config.enabled = true)
    (capped : limiter.tokens ≤ limiter.burst)
    (clock : (limiter.lastUpdate :: calls.map RateCall.time).Pairwise (· ≤ ·))
    (metered : ∀ call ∈ calls,
      limiter.config.exempts call.clientIp call.endpoint call.method = false) :
    TokenBucket.Run (policy limiter.config) limiter.bucket (limiter.requests calls)
      (limiter.run calls).1.bucket := by
  induction calls generalizing limiter with
  | nil => exact .nil _
  | cons call rest ih =>
    obtain ⟨first, later⟩ := List.pairwise_cons.mp clock
    have here : limiter.lastUpdate ≤ call.time := first _ List.mem_cons_self
    have served := limiter.allowRequest_serves enabled (metered call List.mem_cons_self) here capped
    have config := limiter.allowRequest_config call.time call.clientIp call.endpoint call.method
    have stamp := served.past
    have left := served.capped
    have cost : (0 : ℚ) ≤ TokenBucket.cost
        (limiter.allowRequest call.time call.clientIp call.endpoint call.method).2 := by
      unfold TokenBucket.cost
      split <;> norm_num
    refine .cons served ?_
    rw [← config]
    apply ih _ (by rw [config]; exact enabled)
    · simp only [burst, config]
      exact (le_add_of_nonneg_right cost).trans left
    · obtain ⟨next, ordered⟩ := List.pairwise_cons.mp later
      refine List.pairwise_cons.mpr ⟨?_, ordered⟩
      intro time member
      have stamped : (limiter.allowRequest call.time call.clientIp call.endpoint
          call.method).1.lastUpdate ≤ call.time := by
        simp only [bucket] at stamp
        exact_mod_cast stamp
      exact stamped.trans (next time member)
    · intro next member
      rw [config]
      exact metered next (List.mem_cons_of_mem _ member)

theorem requests_length (limiter : RateLimiter) (calls : List RateCall) :
    (limiter.requests calls).length = calls.length := by
  simp [requests, verdicts_length]

theorem requests_verdicts (limiter : RateLimiter) (calls : List RateCall) :
    (limiter.requests calls).map (·.2) = limiter.verdicts calls := by
  rw [requests, List.map_snd_zip]
  simp [verdicts_length]

theorem requests_time (limiter : RateLimiter) (calls : List RateCall)
    (within : k < (limiter.requests calls).length) (bound : k < calls.length) :
    ((limiter.requests calls)[k]).1 = (calls[k].time : ℚ) := by
  simp [requests]

theorem requests_clock (limiter : RateLimiter) (calls : List RateCall)
    (clock : (calls.map RateCall.time).Pairwise (· ≤ ·)) :
    (limiter.requests calls).Pairwise (·.1 ≤ ·.1) := by
  apply List.pairwise_iff_getElem.mpr
  intro i j small large sooner
  have size := limiter.requests_length calls
  rw [requests_time limiter calls small (by omega), requests_time limiter calls large (by omega)]
  have rising := List.pairwise_iff_getElem.mp clock i j (by simp; omega) (by simp; omega) sooner
  simpa using rising

theorem fresh_start {config : RateLimitConfig} {start : Int} {limiter : RateLimiter}
    (fresh : limiter = .ofConfig config start ∨
      ∃ old : RateLimiter, old.config = config ∧ limiter = old.reset start) :
    limiter.config = config ∧ limiter.tokens = limiter.burst ∧ limiter.lastUpdate = start := by
  rcases fresh with rfl | ⟨old, rfl, rfl⟩
  · exact ⟨rfl, rfl, rfl⟩
  · exact ⟨rfl, rfl, rfl⟩

/-- The token-bucket bound over every window of every run of metered calls, from
a limiter just constructed or just reset. Times are nanoseconds, so the grain of
one millisecond is `1000000`. -/
theorem window_admissions_bound (config : RateLimitConfig) (start : Int) (limiter : RateLimiter)
    (calls : List RateCall) (i j : Nat) (enabled : config.enabled = true)
    (fresh : limiter = .ofConfig config start ∨
      ∃ old : RateLimiter, old.config = config ∧ limiter = old.reset start)
    (clock : (start :: calls.map RateCall.time).Pairwise (· ≤ ·))
    (metered : ∀ call ∈ calls,
      config.exempts call.clientIp call.endpoint call.method = false)
    (ordered : i ≤ j) (within : j < calls.length) :
    ((((limiter.verdicts calls).drop i).take (j - i + 1)).count true : ℚ) ≤
      config.burstSize.toNat + config.requestsPerSecond.toNat *
        ((calls[j].time - calls[i].time + 1000000 : ℚ) / 1000000000) := by
  obtain ⟨rfl, full, rfl⟩ := fresh_start fresh
  have size := limiter.requests_length calls
  have paid : 0 ≤ limiter.bucket.tokens := by
    simp only [bucket, full, burst]
    exact Nat.cast_nonneg _
  have bound := (limiter.requests_run enabled full.le clock metered).window_bound paid
    (policy_rate_nonneg limiter.config)
    (limiter.requests_clock calls (List.pairwise_cons.mp clock).2) ordered (by omega)
  have counted : TokenBucket.admissions (((limiter.requests calls).drop i).take (j - i + 1)) =
      (((limiter.verdicts calls).drop i).take (j - i + 1)).count true := by
    rw [← requests_verdicts, ← List.map_drop, ← List.map_take, List.count, List.countP_map]
    exact List.countP_congr (by simp)
  rw [counted, requests_time limiter calls (by omega) (by omega),
    requests_time limiter calls (by omega) (by omega)] at bound
  refine bound.trans (le_of_eq ?_)
  simp only [policy]
  ring

/-- Three calls within half a second against a limit of ten per second. -/
theorem window_admissions_bound_three :
    ((((RateLimiter.ofConfig (.globalLimit 10 20) 0).verdicts
        [⟨0, [], [], []⟩, ⟨900000, [], [], []⟩, ⟨500000000, [], [], []⟩]).drop 0).take 3).count true
      ≤ (20 + 10 * ((500000000 - 0 + 1000000) / 1000000000) : ℚ) :=
  window_admissions_bound (.globalLimit 10 20) 0 (.ofConfig (.globalLimit 10 20) 0)
    [⟨0, [], [], []⟩, ⟨900000, [], [], []⟩, ⟨500000000, [], [], []⟩] 0 2 rfl (.inl rfl)
    (by decide) (by decide) (by decide) (by decide)

end Hku.RateLimiter
