import HkuRest.Httpd.RateLimitStatistics

/-! The divisions of the rate limiter, over `Float`. Seconds that have passed are a divisor only
where a window is over, and a rate only where it is positive; a window of no seconds is over in the
second in which it began. -/

namespace Hku.RateLimiterOver

open Arithmetic (ofInt le lt)
open Divided (Defined defined_pure defined_bind defined_divide defined_divideBy defined_divideUInt32)

variable {limiter : RateLimiterOver Float} {now : Int}

theorem defined_refill (now : Int) (limiter : RateLimiterOver Float) : Defined (limiter.refill now) := by
  unfold refill
  split
  · have thousand : (Divisor.number (ofInt 1000 : Float)).isZero = false := by decide +kernel
    have added : Defined (limiter.tokensToAdd now) :=
      defined_bind.mpr ⟨defined_divide.mpr thousand, defined_pure _⟩
    exact defined_bind.mpr ⟨added, defined_pure _⟩
  · exact defined_pure _

/-- The seconds that have passed reach the length of the window and are none at all. -/
def EmptyWindow (now : Int) (config : RateLimitConfig) (stats : RateLimitStatsOver Float) : Prop :=
  config.windowSeconds = 0 ∧ durationSeconds (now - stats.lastUpdate) = 0

theorem defined_rate_iff {Value : Type} (now : Int) (config : RateLimitConfig)
    (stats : RateLimitStatsOver Float) (rated : Float → Value) (unrated : Value) :
    Defined (if durationSeconds (now - stats.lastUpdate) ≥ config.windowSeconds.toNat then do
        let currentRate ← rate now stats
        return rated currentRate
      else return unrated) ↔ ¬ EmptyWindow now config stats := by
  have zero : config.windowSeconds = 0 ↔ config.windowSeconds.toNat = 0 := UInt32.toNat_inj.symm
  rw [EmptyWindow, zero]
  split
  · rename_i passed
    have divides : Defined (rate now stats) ↔ durationSeconds (now - stats.lastUpdate) ≠ 0 :=
      defined_divideBy
    rw [defined_bind, divides, and_iff_left (defined_pure _)]
    omega
  · rename_i running
    refine iff_of_true (defined_pure _) fun empty => running ?_
    rw [empty.1, empty.2]
    exact Int.le_refl 0

theorem defined_allowRequest_iff (call : RateCall) (limiter : RateLimiterOver Float) :
    Defined (limiter.allowRequest call.time call.clientIp call.endpoint call.method) ↔
      (limiter.admits call = true → ¬ EmptyWindow call.time limiter.config limiter.stats) := by
  unfold allowRequest admits
  cases enabled : limiter.config.enabled with
  | false => simp [defined_pure]
  | true =>
    cases exempt : limiter.config.exempts call.clientIp call.endpoint call.method with
    | true => simp [defined_pure]
    | false =>
      simp only [Bool.not_true, Bool.false_eq_true, if_false, Bool.not_false, Bool.and_true, Bool.true_and]
      rw [defined_bind, and_iff_right (defined_refill call.time limiter)]
      simp only [consume, refill_tokens, refill_stats, refill_config]
      split
      · rename_i token
        rw [defined_bind, and_iff_left (defined_pure _), forall_prop_of_true token]
        exact defined_rate_iff call.time limiter.config _ _ _
      · rename_i short
        exact iff_of_true (defined_pure _) fun token => absurd token short

theorem defined_updateConfig (config : RateLimitConfig) (limiter : RateLimiterOver Float) :
    Defined (limiter.updateConfig config) := by
  simp only [updateConfig]
  split
  · rename_i positive
    have rate : (Divisor.number (ofInt limiter.config.requestsPerSecond.toNat : Float)).isZero = false := by
      simp only [Divisor.isZero, Arithmetic.not_le_zero_of_pos positive, Bool.false_and]
    exact defined_bind.mpr ⟨defined_divide.mpr rate, defined_pure _⟩
  · exact defined_pure _

theorem defined_updateConfigPreserveWhitelist (config : RateLimitConfig) (limiter : RateLimiterOver Float) :
    Defined (limiter.updateConfigPreserveWhitelist config) := by
  simp only [updateConfigPreserveWhitelist]
  split
  · rename_i positive
    have rate : (config.requestsPerSecond.toNat : Int) ≠ 0 := by
      have above : 0 < config.requestsPerSecond.toNat := positive
      omega
    exact defined_bind.mpr ⟨defined_divideUInt32.mpr rate, defined_pure _⟩
  · exact defined_pure _

def NoZeroDivisor (before : RateLimiterOver Float) (call : LimiterCall) (_ : RateLimiterOver Float) : Prop :=
  Defined (call.apply before)

/-- Where the window has no seconds, the rate is not computed in the second in which the
window began: no request takes a token in it, and nobody asks for the statistics. -/
def PassesWindow (before : RateLimiterOver Float) (call : LimiterCall) (_ : RateLimiterOver Float) : Prop :=
  match call with
  | .allowRequest check =>
      before.admits check = true → ¬ EmptyWindow check.time before.config before.stats
  | .getStats now => ¬ EmptyWindow now before.config before.stats
  | _ => True

theorem noZeroDivisor_iff (before : RateLimiterOver Float) (call : LimiterCall)
    (after : RateLimiterOver Float) :
    NoZeroDivisor before call after ↔ PassesWindow before call after := by
  cases call with
  | allowRequest call =>
    exact (defined_bind.trans (and_iff_left (defined_pure _))).trans (defined_allowRequest_iff call before)
  | updateConfig config => exact iff_of_true (defined_updateConfig config before) trivial
  | updateConfigPreserveWhitelist config =>
    exact iff_of_true (defined_updateConfigPreserveWhitelist config before) trivial
  | getStats now =>
    exact (defined_bind.trans (and_iff_left (defined_pure _))).trans
      (defined_rate_iff now before.config before.stats _ _)
  | reset now seen => exact iff_of_true (defined_pure _) trivial

/-- Whatever the limiter, the configurations and the clock readings: a run divides by zero
nowhere exactly if it passes every window. -/
theorem noZeroDivisor_along_iff (limiter : RateLimiterOver Float) (calls : List LimiterCall) :
    Transition.Along LimiterCall.next NoZeroDivisor limiter calls ↔
      Transition.Along LimiterCall.next PassesWindow limiter calls :=
  Transition.along_iff (fun _ => True) trivial (fun _ _ _ _ _ _ => trivial)
    (fun before call after _ _ => noZeroDivisor_iff before call after) calls

/-- A window of no seconds, and a request at once. -/
theorem empty_window_divided :
    ¬ ∀ (limiter : RateLimiterOver Float) (calls : List LimiterCall),
      Transition.Along LimiterCall.next NoZeroDivisor limiter calls := by
  intro nowhere
  have along := nowhere (.ofConfig {} 0 0)
    [.updateConfig { enabled := true, windowSeconds := 0 }, .allowRequest ⟨0, [], [], []⟩]
  obtain ⟨-, later⟩ := along _ rfl
  obtain ⟨divided, -⟩ := later _ rfl
  have zero : (LimiterCall.apply (.allowRequest ⟨0, [], [], []⟩)
      (updateConfig { enabled := true, windowSeconds := 0 }
        (.ofConfig {} 0 0 : RateLimiterOver Float)).value).divisors.any Divisor.isZero = true := by
    decide +kernel
  obtain ⟨divisor, member, isZero⟩ := List.any_eq_true.mp zero
  rw [divided divisor member] at isZero
  cases isZero

end Hku.RateLimiterOver
