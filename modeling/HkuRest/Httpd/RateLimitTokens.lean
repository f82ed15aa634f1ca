import HkuRest.Core.Transition
import HkuRest.Httpd.RateLimitProofs
import HkuRest.Httpd.RateLimitWhitelist

/-! The range of the tokens. The default constructor leaves `m_tokens` unset, and one
update of the configuration does not clamp it; all other calls keep it within the burst. -/

namespace Hku.RateLimiter

open HttpServer (RateLimitCall WhitelistCall)

variable {limiter : RateLimiter} {config : RateLimitConfig} {now : Int}

def InRange (limiter : RateLimiter) : Prop := 0 ≤ limiter.tokens ∧ limiter.tokens ≤ limiter.burst

instance (limiter : RateLimiter) : Decidable limiter.InRange := inferInstanceAs (Decidable (_ ∧ _))

theorem inRange_reset (now : Int) (limiter : RateLimiter) : (limiter.reset now).InRange :=
  ⟨Nat.cast_nonneg _, le_refl _⟩

theorem inRange_refill (range : limiter.InRange) (now : Int) : (limiter.refill now).InRange := by
  obtain ⟨paid, capped⟩ := range
  unfold refill
  split
  · rename_i elapsed
    have earned := limiter.tokensToAdd_nonneg elapsed
    have full : 0 ≤ limiter.burst := Nat.cast_nonneg _
    exact ⟨le_min full (by linarith only [paid, earned]), min_le_left _ _⟩
  · exact ⟨paid, capped⟩

theorem inRange_consume (range : limiter.InRange) (now : Int) : (limiter.consume now).1.InRange := by
  obtain ⟨paid, capped⟩ := range
  unfold consume
  split
  · rename_i available
    have lower : 0 ≤ limiter.tokens - 1 := by linarith only [available]
    have upper : limiter.tokens - 1 ≤ limiter.burst := by linarith only [capped]
    exact ⟨lower, upper⟩
  · exact ⟨paid, capped⟩

theorem inRange_allowRequest (range : limiter.InRange) (call : RateCall) :
    (HttpServer.checkRateLimit call limiter).1.InRange := by
  unfold HttpServer.checkRateLimit allowRequest
  split
  · exact range
  · split
    · exact range
    · exact inRange_consume (inRange_refill range call.time) call.time

theorem inRange_extend (range : limiter.InRange) (call : WhitelistCall) :
    (call.apply limiter).InRange := by
  rw [call.apply_eq]
  split
  · obtain ⟨paid, capped⟩ := range
    simp only [HttpServer.clamped]
    split
    · exact ⟨le_min (Nat.cast_nonneg _) paid, min_le_left _ _⟩
    · exact ⟨paid, capped⟩
  · exact range

/-- The rescaled tokens never exceed the burst, and keep their sign unless the new rate
is zero. -/
theorem inRange_updateConfig_iff (config : RateLimitConfig) (limiter : RateLimiter) :
    (limiter.updateConfig config).InRange ↔
      limiter.config.requestsPerSecond = 0 ∨ config.requestsPerSecond = 0 ∨ 0 ≤ limiter.tokens := by
  have full : (0 : ℚ) ≤ config.burstSize.toNat := Nat.cast_nonneg _
  have rate (value : UInt32) : (0 : ℚ) < value.toNat ↔ value ≠ 0 := by
    rw [Nat.cast_pos, Nat.pos_iff_ne_zero, ne_eq, ← UInt32.toNat_zero, UInt32.toNat_inj]
  simp only [updateConfig, InRange, burst, gt_iff_lt]
  split
  · rename_i running
    have turned := (rate _).mp running
    by_cases stopped : config.requestsPerSecond = 0
    · simp [stopped, full]
    · have ratio : (0 : ℚ) < config.requestsPerSecond.toNat / limiter.config.requestsPerSecond.toNat :=
        div_pos ((rate _).mpr stopped) running
      have scaled : 0 ≤ limiter.tokens *
          (config.requestsPerSecond.toNat / limiter.config.requestsPerSecond.toNat) ↔
            0 ≤ limiter.tokens := mul_nonneg_iff_of_pos_right ratio
      simp only [le_min_iff, full, true_and, scaled, min_le_left, and_true, turned, stopped, false_or]
  · rename_i idle
    have off : limiter.config.requestsPerSecond = 0 := not_not.mp (mt (rate _).mpr idle)
    simp [off, full]

theorem inRange_updateConfigPreserveWhitelist_iff (range : limiter.InRange) (config : RateLimitConfig) :
    (limiter.updateConfigPreserveWhitelist config).InRange ↔
      (config.requestsPerSecond = 0 → limiter.tokens ≤ config.burstSize.toNat) := by
  have full : (0 : ℚ) ≤ config.burstSize.toNat := Nat.cast_nonneg _
  simp only [updateConfigPreserveWhitelist, InRange, burst, gt_iff_lt]
  by_cases stopped : config.requestsPerSecond = 0
  · simp [stopped, range.1]
  · have running : 0 < config.requestsPerSecond := by
      rw [UInt32.lt_iff_toNat_lt]
      exact Nat.pos_of_ne_zero fun zero => stopped (UInt32.toNat_inj.mp zero)
    have scaled : 0 ≤ limiter.tokens *
        (config.requestsPerSecond / config.requestsPerSecond).toNat :=
      mul_nonneg range.1 (Nat.cast_nonneg _)
    refine ⟨fun _ off => absurd off stopped, fun _ => ?_⟩
    simp only [if_pos running]
    exact ⟨le_min full scaled, min_le_left _ _⟩

inductive TokenCall
  | server (call : RateLimitCall)
  | updateConfigPreserveWhitelist (config : RateLimitConfig)
  | reset (now : Int)
  deriving DecidableEq

def TokenCall.apply : TokenCall → RateLimiter → RateLimiter
  | .server call, limiter => call.apply limiter
  | .updateConfigPreserveWhitelist config, limiter => limiter.updateConfigPreserveWhitelist config
  | .reset now, limiter => limiter.reset now

/-- A `setRateLimit` that enables limiting. -/
def TokenCall.enables : TokenCall → Bool
  | .server (.setRateLimit config) => config.enabled
  | _ => false

/-- `enabled`: limiting was enabled by a `setRateLimit` before. -/
structure Metered where
  limiter : RateLimiter
  enabled : Bool
  deriving DecidableEq

namespace Metered

/-- The default constructor leaves the tokens as the memory has them. -/
def initial (tokens : ℚ) (lastUpdate : Int) (stats : RateLimitStats) : Metered :=
  ⟨⟨{}, tokens, lastUpdate, stats⟩, false⟩

def next (metered : Metered) (call : TokenCall) : Option Metered :=
  some ⟨call.apply metered.limiter, metered.enabled || call.enables⟩

def KeepsRange (_ : Metered) (_ : TokenCall) (after : Metered) : Prop :=
  after.enabled = true → after.limiter.InRange

/-- The first `setRateLimit` that enables limiting finds tokens that are not negative, or
one of the two rates is zero; and later, an update to a rate of zero leaves room for the
tokens there are. -/
def Covered (before : Metered) (call : TokenCall) (_ : Metered) : Prop :=
  match call with
  | .server (.setRateLimit config) => config.enabled = true → before.enabled = false →
      before.limiter.config.requestsPerSecond = 0 ∨ config.requestsPerSecond = 0 ∨
        0 ≤ before.limiter.tokens
  | .updateConfigPreserveWhitelist config => before.enabled = true →
      config.requestsPerSecond = 0 → before.limiter.tokens ≤ config.burstSize.toNat
  | _ => True

variable {before after : Metered} {call : TokenCall}

theorem covered_iff_keepsRange (range : before.enabled = true → before.limiter.InRange)
    (stepped : before.next call = some after) :
    before.Covered call after ↔ before.KeepsRange call after := by
  cases stepped
  simp only [KeepsRange, Bool.or_eq_true]
  cases call with
  | server call =>
    cases call with
    | setRateLimit config =>
      have update := inRange_updateConfig_iff config before.limiter
      simp only [Covered, TokenCall.enables, TokenCall.apply, RateLimitCall.apply,
        HttpServer.setRateLimit, update]
      cases on : before.enabled with
      | true => simp [(range on).1]
      | false => simp
    | extend extension =>
      simp only [Covered, TokenCall.enables, Bool.false_eq_true, or_false, true_iff]
      exact fun on => inRange_extend (range on) extension
    | checkRateLimit check =>
      simp only [Covered, TokenCall.enables, Bool.false_eq_true, or_false, true_iff]
      exact fun on => inRange_allowRequest (range on) check
  | updateConfigPreserveWhitelist config =>
    simp only [Covered, TokenCall.enables, Bool.false_eq_true, or_false]
    exact forall_congr' fun on => (inRange_updateConfigPreserveWhitelist_iff (range on) config).symm
  | reset now =>
    simp only [Covered, TokenCall.enables, Bool.false_eq_true, or_false, true_iff]
    exact fun _ => inRange_reset now before.limiter

/-- Once limiting is enabled the tokens stay between zero and the burst, exactly in the
runs that meet the condition. -/
theorem tokens_in_range_iff (tokens : ℚ) (lastUpdate : Int) (stats : RateLimitStats)
    (calls : List TokenCall) :
    Transition.Along next KeepsRange (.initial tokens lastUpdate stats) calls ↔
      Transition.Along next Covered (.initial tokens lastUpdate stats) calls := by
  refine Transition.along_iff (fun metered => metered.enabled = true → metered.limiter.InRange)
    (fun on => nomatch on) ?_ ?_ calls
  · exact fun before call after _ _ kept => kept
  · exact fun before call after range stepped => (covered_iff_keepsRange range stepped).symm

/-- The memory happens to hold a negative number. -/
theorem negative_tokens_kept :
    ¬ ∀ (tokens : ℚ) (lastUpdate : Int) (stats : RateLimitStats) (calls : List TokenCall),
      Transition.Along next KeepsRange (.initial tokens lastUpdate stats) calls := by
  intro kept
  obtain ⟨range, -⟩ := kept (-5) 0 { lastUpdate := 0 }
    [.server (.setRateLimit (.globalLimit 10 20))] _ rfl
  exact absurd (range rfl) (by decide +kernel)

end Metered

end Hku.RateLimiter
