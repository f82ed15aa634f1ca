import HkuRest.Httpd.RateLimitDoubles

/-! The three counters of the statistics. The count of the allowed requests is also that of the
window, and starts again when a window is closed; the other two never do. None of this depends on
how tokens are rounded, apart from the calls that find one. -/

namespace Hku.RateLimiterOver

open Arithmetic (ofInt le)

variable {Number : Type} {before after : RateLimiterOver Number} {stats : RateLimitStatsOver Number}

/-- Every request was allowed or rejected. -/
def Conserved (stats : RateLimitStatsOver Number) : Prop :=
  stats.totalRequests = stats.allowedRequests + stats.rejectedRequests

instance (stats : RateLimitStatsOver Number) : Decidable (Conserved stats) :=
  inferInstanceAs (Decidable (_ = _))

theorem conserved_admitted (conserved : Conserved stats) :
    Conserved { stats with
      totalRequests := stats.totalRequests + 1, allowedRequests := stats.allowedRequests + 1 } := by
  simp only [Conserved] at conserved ⊢
  grind

theorem conserved_rejected (conserved : Conserved stats) :
    Conserved { stats with
      totalRequests := stats.totalRequests + 1, rejectedRequests := stats.rejectedRequests + 1 } := by
  simp only [Conserved] at conserved ⊢
  grind

variable [Arithmetic Number]

/-- The statistics are conserved, and so is whatever is answered about them. -/
def KeepsCount (_ : RateLimiterOver Number) (_ : LimiterCall) (after : RateLimiterOver Number) : Prop :=
  Conserved after.stats ∧ ∀ now, Conserved (after.getStats now).value

/-- The call is metered and finds a token. -/
def admits (limiter : RateLimiterOver Number) (call : RateCall) : Bool :=
  limiter.config.enabled && !limiter.config.exempts call.clientIp call.endpoint call.method &&
    le (ofInt 1) (limiter.getCurrentTokens call.time).value

/-- The call is admitted, and a window is over. -/
def closesWindow (limiter : RateLimiterOver Number) (call : RateCall) : Bool :=
  limiter.admits call &&
    limiter.config.windowSeconds.toNat ≤ durationSeconds (call.time - limiter.stats.lastUpdate)

/-- No admission closes a window, unless its count is zero again anyway. -/
def WithinWindow (before : RateLimiterOver Number) (call : LimiterCall) (_ : RateLimiterOver Number) :
    Prop :=
  match call with
  | .allowRequest check => closesWindow before check = true → before.stats.allowedRequests + 1 = 0
  | _ => True

theorem getStats_conserved_iff (limiter : RateLimiterOver Number) (now : Int) :
    Conserved (limiter.getStats now).value ↔ Conserved limiter.stats := by
  unfold getStats
  split <;> rfl

@[simp] theorem refill_stats (limiter : RateLimiterOver Number) (now : Int) :
    (limiter.refill now).value.stats = limiter.stats := by
  unfold refill
  split <;> rfl

@[simp] theorem refill_config (limiter : RateLimiterOver Number) (now : Int) :
    (limiter.refill now).value.config = limiter.config := by
  unfold refill
  split <;> rfl

@[simp] theorem refill_tokens (limiter : RateLimiterOver Number) (now : Int) :
    (limiter.refill now).value.tokens = (limiter.getCurrentTokens now).value := by
  unfold refill getCurrentTokens
  split <;> rfl

theorem updateRate_conserved_iff (now : Int) (config : RateLimitConfig) (counted : Conserved stats) :
    Conserved (updateRate now config stats).value ↔
      (config.windowSeconds.toNat ≤ durationSeconds (now - stats.lastUpdate) →
        stats.allowedRequests = 0) := by
  unfold updateRate
  split
  · rename_i late
    simp only [Conserved, Divided.value_bind, Divided.value_pure, ge_iff_le] at counted late ⊢
    rw [forall_prop_of_true late]
    grind
  · rename_i within
    exact iff_of_true counted fun late => absurd late within

/-- A call is not counted unless it is metered. -/
theorem allowRequest_conserved_iff (conserved : Conserved before.stats) (call : RateCall) :
    Conserved (before.allowRequest call.time call.clientIp call.endpoint call.method).value.1.stats ↔
      (closesWindow before call = true → before.stats.allowedRequests + 1 = 0) := by
  unfold allowRequest closesWindow admits
  cases enabled : before.config.enabled with
  | false => simp [conserved]
  | true =>
    cases exempt : before.config.exempts call.clientIp call.endpoint call.method with
    | true => simp [conserved]
    | false =>
      simp only [Bool.not_true, Bool.false_eq_true, if_false, Divided.value_bind, consume, refill_stats,
        refill_tokens, refill_config]
      by_cases token : le (ofInt 1) (before.getCurrentTokens call.time).value = true
      · have admitted := conserved_admitted conserved
        rw [if_pos token]
        simpa [token] using updateRate_conserved_iff call.time before.config admitted
      · rw [if_neg token]
        have rejected := conserved_rejected conserved
        exact iff_of_true rejected fun closes => absurd closes (by simp [token])

theorem withinWindow_iff_keepsCount {call : LimiterCall} (conserved : Conserved before.stats)
    (stepped : LimiterCall.next before call = some after) :
    KeepsCount before call after ↔ WithinWindow before call after := by
  have answered : KeepsCount before call after ↔ Conserved after.stats := by
    simp only [KeepsCount, getStats_conserved_iff, and_iff_left_iff_imp]
    exact fun kept _ => kept
  rw [answered]
  cases stepped
  cases call with
  | allowRequest check => exact allowRequest_conserved_iff conserved check
  | updateConfig config =>
    refine iff_of_true ?_ trivial
    simp only [LimiterCall.apply, updateConfig]
    split <;> exact conserved
  | updateConfigPreserveWhitelist config =>
    refine iff_of_true ?_ trivial
    simp only [LimiterCall.apply, updateConfigPreserveWhitelist]
    split <;> exact conserved
  | getStats now => exact iff_of_true conserved trivial
  | reset now seen => exact iff_of_true rfl trivial

/-- The requests are those that were allowed or rejected, after every call, exactly in the runs in
which no admission closes a window. -/
theorem requests_conserved_iff (config : RateLimitConfig) (tokens : Float) (lastUpdate seen : Int)
    (calls : List LimiterCall) :
    Transition.Along LimiterCall.next KeepsCount ⟨config, tokens, lastUpdate, .start seen⟩ calls ↔
      Transition.Along LimiterCall.next WithinWindow ⟨config, tokens, lastUpdate, .start seen⟩ calls := by
  refine Transition.along_iff (fun limiter => Conserved limiter.stats) ?_ ?_ ?_ calls
  · rfl
  · exact fun before call after _ _ kept => kept.1
  · exact fun before call after conserved stepped => withinWindow_iff_keepsCount conserved stepped

/-- A request in the second after the first is allowed and not counted as such. -/
theorem window_closed_unconserved :
    ¬ ∀ (config : RateLimitConfig) (tokens : Float) (lastUpdate seen : Int) (calls : List LimiterCall),
      Transition.Along LimiterCall.next KeepsCount
        ⟨config, tokens, lastUpdate, .start seen⟩ calls := by
  intro conserved
  obtain ⟨⟨kept, -⟩, -⟩ := conserved (.globalLimit 10 20) (Float.ofInt 20) 0 0
    [.allowRequest ⟨1000000000, [], [], []⟩] _ rfl
  exact absurd kept (by decide +kernel)

end Hku.RateLimiterOver
