import HkuRest.Core.Divided
import HkuRest.Core.Transition
import HkuRest.Httpd.RateLimit

/-! The rate limiter over any arithmetic, with its divisions. Over `Float` this is the code, which
rounds; over the rationals it is the limiter that the bounds on tokens are proved of. -/

namespace Hku

open Divided (divide divideBy divideUInt32)
open Arithmetic (ofInt lt le least)

structure RateLimitStatsOver (Number : Type) where
  totalRequests : UInt64
  allowedRequests : UInt64
  rejectedRequests : UInt64
  currentRate : Number
  lastUpdate : Int
  deriving DecidableEq

structure RateLimiterOver (Number : Type) where
  config : RateLimitConfig
  tokens : Number
  lastUpdate : Int
  stats : RateLimitStatsOver Number
  deriving DecidableEq

variable {Number : Type} [Arithmetic Number]

/-- The default constructor. -/
def RateLimitStatsOver.start (now : Int) : RateLimitStatsOver Number := ⟨0, 0, 0, ofInt 0, now⟩

namespace RateLimiterOver

/-- The converting constructor. -/
def ofConfig (config : RateLimitConfig) (now seen : Int) : RateLimiterOver Number :=
  ⟨config, ofInt config.burstSize.toNat, now, .start seen⟩

def burst (limiter : RateLimiterOver Number) : Number := ofInt limiter.config.burstSize.toNat

def tokensToAdd (now : Int) (limiter : RateLimiterOver Number) : Divided Number Number := do
  let seconds ← divide (ofInt (durationMilliseconds (now - limiter.lastUpdate))) (ofInt 1000)
  return seconds * ofInt limiter.config.requestsPerSecond.toNat

def refill (now : Int) (limiter : RateLimiterOver Number) : Divided Number (RateLimiterOver Number) :=
  if durationMilliseconds (now - limiter.lastUpdate) > 0 then do
    let added ← limiter.tokensToAdd now
    return { limiter with tokens := least limiter.burst (limiter.tokens + added), lastUpdate := now }
  else return limiter

/-- `static_cast<double>(allowed_requests) / time_elapsed.count()`. -/
def rate (now : Int) (stats : RateLimitStatsOver Number) : Divided Number Number :=
  divideBy (ofInt stats.allowedRequests.toNat) (durationSeconds (now - stats.lastUpdate))

/-- The window statistics after an admission. -/
def updateRate (now : Int) (config : RateLimitConfig) (stats : RateLimitStatsOver Number) :
    Divided Number (RateLimitStatsOver Number) :=
  if durationSeconds (now - stats.lastUpdate) ≥ config.windowSeconds.toNat then do
    let currentRate ← rate now stats
    return { stats with currentRate, lastUpdate := now, allowedRequests := 0 }
  else return stats

def consume (now : Int) (limiter : RateLimiterOver Number) :
    Divided Number (RateLimiterOver Number × Bool) :=
  let counted := { limiter.stats with totalRequests := limiter.stats.totalRequests + 1 }
  if le (ofInt 1) limiter.tokens then do
    let stats ← updateRate now limiter.config
      { counted with allowedRequests := counted.allowedRequests + 1 }
    return ({ limiter with tokens := limiter.tokens - ofInt 1, stats }, true)
  else return ({ limiter with
    stats := { counted with rejectedRequests := counted.rejectedRequests + 1 } }, false)

def allowRequest (now : Int) (clientIp endpoint method : Bytes) (limiter : RateLimiterOver Number) :
    Divided Number (RateLimiterOver Number × Bool) :=
  if !limiter.config.enabled then return (limiter, true)
  else if limiter.config.exempts clientIp endpoint method then return (limiter, true)
  else do
    let refilled ← limiter.refill now
    refilled.consume now

def getCurrentTokens (now : Int) (limiter : RateLimiterOver Number) : Divided Number Number :=
  if durationMilliseconds (now - limiter.lastUpdate) > 0 then do
    let added ← limiter.tokensToAdd now
    return least limiter.burst (limiter.tokens + added)
  else return limiter.tokens

def getStats (now : Int) (limiter : RateLimiterOver Number) :
    Divided Number (RateLimitStatsOver Number) :=
  if durationSeconds (now - limiter.stats.lastUpdate) ≥ limiter.config.windowSeconds.toNat then do
    let currentRate ← rate now limiter.stats
    return { limiter.stats with currentRate }
  else return limiter.stats

def updateConfig (config : RateLimitConfig) (limiter : RateLimiterOver Number) :
    Divided Number (RateLimiterOver Number) :=
  let oldRate : Number := ofInt limiter.config.requestsPerSecond.toNat
  let full : Number := ofInt config.burstSize.toNat
  if lt (ofInt 0) oldRate then do
    let ratio ← divide (ofInt config.requestsPerSecond.toNat) oldRate
    return { limiter with config, tokens := least full (limiter.tokens * ratio) }
  else return { limiter with config, tokens := full }

/-- The ratio is one of two values of type `uint32_t`, both the new rate. -/
def updateConfigPreserveWhitelist (config : RateLimitConfig) (limiter : RateLimiterOver Number) :
    Divided Number (RateLimiterOver Number) :=
  let kept : RateLimitConfig :=
    { config with
      ipWhitelist := limiter.config.ipWhitelist
      endpointWhitelist := limiter.config.endpointWhitelist
      methodWhitelist := limiter.config.methodWhitelist }
  if config.requestsPerSecond > 0 then do
    let ratio ← divideUInt32 config.requestsPerSecond kept.requestsPerSecond
    return { limiter with
      config := kept
      tokens := least (ofInt config.burstSize.toNat) (limiter.tokens * ofInt ratio.toNat) }
  else return { limiter with config := kept }

/-- The constructor of the statistics reads the clock again. -/
def reset (now seen : Int) (limiter : RateLimiterOver Number) : RateLimiterOver Number :=
  { limiter with tokens := limiter.burst, lastUpdate := now, stats := .start seen }

end RateLimiterOver

/-- A call of a limiter, with the clock reading it takes. -/
inductive LimiterCall
  | allowRequest (call : RateCall)
  | updateConfig (config : RateLimitConfig)
  | updateConfigPreserveWhitelist (config : RateLimitConfig)
  | getStats (now : Int)
  | reset (now seen : Int)
  deriving DecidableEq

namespace LimiterCall

/-- What a call makes of the limiter, with its divisions. -/
def apply : LimiterCall → RateLimiterOver Number → Divided Number (RateLimiterOver Number)
  | .allowRequest call, limiter => do
      let served ← limiter.allowRequest call.time call.clientIp call.endpoint call.method
      return served.1
  | .updateConfig config, limiter => limiter.updateConfig config
  | .updateConfigPreserveWhitelist config, limiter => limiter.updateConfigPreserveWhitelist config
  | .getStats now, limiter => do
      let _stats ← limiter.getStats now
      return limiter
  | .reset now seen, limiter => return limiter.reset now seen

def next (limiter : RateLimiterOver Number) (call : LimiterCall) : Option (RateLimiterOver Number) :=
  some (call.apply limiter).value

end LimiterCall

namespace RateLimiter

def statsOver (stats : RateLimitStats) : RateLimitStatsOver ℚ :=
  ⟨stats.totalRequests, stats.allowedRequests, stats.rejectedRequests, stats.currentRate, stats.lastUpdate⟩

/-- The limiter with rational tokens. -/
def toOver (limiter : RateLimiter) : RateLimiterOver ℚ :=
  ⟨limiter.config, limiter.tokens, limiter.lastUpdate, statsOver limiter.stats⟩

theorem ofInt_natCast (count : Nat) : (ofInt (count : Int) : ℚ) = count := Int.cast_natCast count

theorem over_tokensToAdd (now : Int) (limiter : RateLimiter) :
    (limiter.toOver.tokensToAdd now).value = limiter.tokensToAdd now := by
  have thousand : (ofInt 1000 : ℚ) = 1000 := by norm_num [ofInt]
  simp only [RateLimiterOver.tokensToAdd, Divided.value_bind, Divided.value_pure, divide, thousand,
    ofInt_natCast]
  rfl

theorem over_getCurrentTokens (now : Int) (limiter : RateLimiter) :
    (limiter.toOver.getCurrentTokens now).value = limiter.getCurrentTokens now := by
  have burst : limiter.toOver.burst = limiter.burst := ofInt_natCast _
  unfold RateLimiterOver.getCurrentTokens getCurrentTokens
  simp only [apply_ite Divided.value, Divided.value_bind, Divided.value_pure, over_tokensToAdd,
    Arithmetic.least_rat, burst]
  rfl

theorem over_refill (now : Int) (limiter : RateLimiter) :
    (limiter.toOver.refill now).value = (limiter.refill now).toOver := by
  have burst : limiter.toOver.burst = limiter.burst := ofInt_natCast _
  unfold RateLimiterOver.refill refill
  simp only [apply_ite Divided.value, Divided.value_bind, Divided.value_pure, over_tokensToAdd,
    Arithmetic.least_rat, burst, apply_ite toOver]
  rfl

theorem over_updateRate (now : Int) (config : RateLimitConfig) (stats : RateLimitStats) :
    (RateLimiterOver.updateRate now config (statsOver stats)).value =
      statsOver (updateRate now config stats) := by
  unfold RateLimiterOver.updateRate updateRate
  simp only [apply_ite Divided.value, Divided.value_bind, Divided.value_pure, RateLimiterOver.rate,
    divideBy, apply_ite statsOver]
  rfl

theorem over_consume (now : Int) (limiter : RateLimiter) :
    (limiter.toOver.consume now).value = ((limiter.consume now).1.toOver, (limiter.consume now).2) := by
  have one : (ofInt 1 : ℚ) = 1 := Int.cast_one
  unfold RateLimiterOver.consume consume
  simp only [apply_ite Divided.value, Divided.value_bind, Divided.value_pure, one]
  by_cases token : 1 ≤ limiter.tokens
  · have taken : le 1 limiter.toOver.tokens = true := decide_eq_true token
    rw [if_pos taken, if_pos token]
    simp only [toOver, ← over_updateRate]
    rfl
  · have short : ¬ le 1 limiter.toOver.tokens = true := fun taken => token (of_decide_eq_true taken)
    rw [if_neg short, if_neg token]
    rfl

/-- Over the rationals it is the limiter with exact tokens. -/
theorem over_allowRequest (now : Int) (clientIp endpoint method : Bytes) (limiter : RateLimiter) :
    (limiter.toOver.allowRequest now clientIp endpoint method).value =
      ((limiter.allowRequest now clientIp endpoint method).1.toOver,
        (limiter.allowRequest now clientIp endpoint method).2) := by
  have same : limiter.toOver.config = limiter.config := rfl
  unfold RateLimiterOver.allowRequest allowRequest
  rw [same]
  split
  · rfl
  · split
    · rfl
    · rw [Divided.value_bind, over_refill, over_consume]

theorem over_getStats (now : Int) (limiter : RateLimiter) :
    (limiter.toOver.getStats now).value = statsOver (limiter.getStats now) := by
  unfold RateLimiterOver.getStats getStats
  simp only [apply_ite Divided.value, Divided.value_bind, Divided.value_pure, RateLimiterOver.rate,
    divideBy, apply_ite statsOver]
  rfl

theorem over_updateConfig (config : RateLimitConfig) (limiter : RateLimiter) :
    (limiter.toOver.updateConfig config).value = (limiter.updateConfig config).toOver := by
  have guarded : lt (ofInt 0) (ofInt limiter.toOver.config.requestsPerSecond.toNat : ℚ) =
      decide ((limiter.config.requestsPerSecond.toNat : ℚ) > 0) := by
    rw [ofInt_natCast]
    rfl
  unfold RateLimiterOver.updateConfig updateConfig
  simp only [guarded, decide_eq_true_eq]
  by_cases earns : (limiter.config.requestsPerSecond.toNat : ℚ) > 0
  · simp only [if_pos earns, Divided.value_bind, Divided.value_pure, divide, ofInt_natCast,
      Arithmetic.least_rat]
    rfl
  · simp only [if_neg earns, Divided.value_pure, ofInt_natCast]
    rfl

theorem over_updateConfigPreserveWhitelist (config : RateLimitConfig) (limiter : RateLimiter) :
    (limiter.toOver.updateConfigPreserveWhitelist config).value =
      (limiter.updateConfigPreserveWhitelist config).toOver := by
  unfold RateLimiterOver.updateConfigPreserveWhitelist updateConfigPreserveWhitelist
  simp only [apply_ite Divided.value, Divided.value_bind, Divided.value_pure, divideUInt32, ofInt_natCast,
    Arithmetic.least_rat]
  split <;> rfl

theorem over_reset (now : Int) (limiter : RateLimiter) :
    limiter.toOver.reset now now = (limiter.reset now).toOver := by
  have burst : limiter.toOver.burst = limiter.burst := ofInt_natCast _
  unfold RateLimiterOver.reset reset
  rw [burst]
  rfl

/-- One token in a second: over `Float` the third of these calls is a rounding short of it. -/
example : (Transition.execute LimiterCall.next (.ofConfig (.globalLimit 1 2) 0 0 : RateLimiterOver Float)
    [.allowRequest ⟨0, [], [], []⟩, .allowRequest ⟨148000000, [], [], []⟩]).map
      (fun limiter => (limiter.allowRequest 1000000000 [] [] []).value.2) = some false := by
  decide +kernel

end RateLimiter

end Hku
