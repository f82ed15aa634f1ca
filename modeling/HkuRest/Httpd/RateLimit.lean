import HkuRest.Core.Bytes
import Mathlib.Data.Rat.Defs
import Mathlib.Algebra.Order.Field.Rat

/-! The token-bucket rate limiter. Doubles are exact rationals and a steady-clock
reading is its integer count of nanoseconds. One call of a member function holds the
mutex throughout, so each is a function of the limiter and the clock reading. -/
namespace Hku

/-- `duration_cast<milliseconds>`, which truncates towards zero. -/
def durationMilliseconds (duration : Int) : Int := duration.tdiv 1000000

def durationSeconds (duration : Int) : Int := duration.tdiv 1000000000

structure RateLimitStats where
  totalRequests : UInt64 := 0
  allowedRequests : UInt64 := 0
  rejectedRequests : UInt64 := 0
  currentRate : ℚ := 0
  lastUpdate : Int
  deriving DecidableEq

structure RateLimitConfig where
  enabled : Bool := false
  requestsPerSecond : UInt32 := 10
  burstSize : UInt32 := 20
  windowSeconds : UInt32 := 1
  applyToAll : Bool := true
  perIp : Bool := false
  perEndpoint : Bool := false
  ipWhitelist : List Bytes := []
  endpointWhitelist : List Bytes := []
  methodWhitelist : List Bytes := []
  deriving DecidableEq

namespace RateLimitConfig

def globalLimit (rps burst : UInt32) : RateLimitConfig :=
  { enabled := true, requestsPerSecond := rps, burstSize := burst,
    applyToAll := true, perIp := false, perEndpoint := false }

def perIpLimit (rps burst : UInt32) : RateLimitConfig :=
  { enabled := true, requestsPerSecond := rps, burstSize := burst,
    applyToAll := true, perIp := true, perEndpoint := false }

def disable : RateLimitConfig := { enabled := false }

def isIpWhitelisted (config : RateLimitConfig) (ip : Bytes) : Bool :=
  config.ipWhitelist.any (ip == ·)

/-- Exact match, or prefix match where the entry ends in `*`. The source calls
`back()` on the entry, which is undefined for an empty one: no match here. -/
def isEndpointWhitelisted (config : RateLimitConfig) (endpoint : Bytes) : Bool :=
  config.endpointWhitelist.any fun entry =>
    endpoint == entry ||
      (entry.getLast? == some 42 && Bytes.hasPrefix (entry.take (entry.length - 1)) endpoint)

def isMethodWhitelisted (config : RateLimitConfig) (method : Bytes) : Bool :=
  config.methodWhitelist.any (method == ·)

/-- The three whitelist tests at the head of `allowRequest`. -/
def exempts (config : RateLimitConfig) (clientIp endpoint method : Bytes) : Bool :=
  (!clientIp.isEmpty && config.isIpWhitelisted clientIp) ||
  (!endpoint.isEmpty && config.isEndpointWhitelisted endpoint) ||
  (!method.isEmpty && config.isMethodWhitelisted method)

end RateLimitConfig

structure RateLimiter where
  config : RateLimitConfig
  tokens : ℚ
  lastUpdate : Int
  stats : RateLimitStats
  deriving DecidableEq

namespace RateLimiter

/-- The converting constructor. -/
def ofConfig (config : RateLimitConfig) (now : Int) : RateLimiter :=
  { config, tokens := config.burstSize.toNat, lastUpdate := now, stats := { lastUpdate := now } }

def burst (limiter : RateLimiter) : ℚ := limiter.config.burstSize.toNat

/-- Tokens earned since the last refill. -/
def tokensToAdd (now : Int) (limiter : RateLimiter) : ℚ :=
  (durationMilliseconds (now - limiter.lastUpdate) : ℚ) / 1000 *
    limiter.config.requestsPerSecond.toNat

/-- The stamp moves only when at least one whole millisecond has passed. -/
def refill (now : Int) (limiter : RateLimiter) : RateLimiter :=
  if durationMilliseconds (now - limiter.lastUpdate) > 0 then
    { limiter with
      tokens := min limiter.burst (limiter.tokens + limiter.tokensToAdd now)
      lastUpdate := now }
  else limiter

/-- The window statistics after an admission. A window of zero seconds divides by
the seconds elapsed, possibly zero; the quotient is then zero here. -/
def updateRate (now : Int) (config : RateLimitConfig) (stats : RateLimitStats) :
    RateLimitStats :=
  let timeElapsed := durationSeconds (now - stats.lastUpdate)
  if timeElapsed ≥ config.windowSeconds.toNat then
    { stats with
      currentRate := (stats.allowedRequests.toNat : ℚ) / timeElapsed
      lastUpdate := now
      allowedRequests := 0 }
  else stats

/-- Count the request and take a token if one is there. -/
def consume (now : Int) (limiter : RateLimiter) : RateLimiter × Bool :=
  let counted := { limiter.stats with totalRequests := limiter.stats.totalRequests + 1 }
  if limiter.tokens ≥ 1 then
    ({ limiter with
        tokens := limiter.tokens - 1
        stats := updateRate now limiter.config
          { counted with allowedRequests := counted.allowedRequests + 1 } }, true)
  else
    ({ limiter with
        stats := { counted with rejectedRequests := counted.rejectedRequests + 1 } }, false)

def allowRequest (now : Int) (clientIp endpoint method : Bytes) (limiter : RateLimiter) :
    RateLimiter × Bool :=
  if !limiter.config.enabled then (limiter, true)
  else if limiter.config.exempts clientIp endpoint method then (limiter, true)
  else (limiter.refill now).consume now

def getCurrentTokens (now : Int) (limiter : RateLimiter) : ℚ :=
  if durationMilliseconds (now - limiter.lastUpdate) > 0 then
    min limiter.burst (limiter.tokens + limiter.tokensToAdd now)
  else limiter.tokens

def getStats (now : Int) (limiter : RateLimiter) : RateLimitStats :=
  let timeElapsed := durationSeconds (now - limiter.stats.lastUpdate)
  if timeElapsed ≥ limiter.config.windowSeconds.toNat then
    { limiter.stats with
      currentRate := (limiter.stats.allowedRequests.toNat : ℚ) / timeElapsed }
  else limiter.stats

/-- Tokens are rescaled by the ratio of the rates, or refilled if the old rate was zero. -/
def updateConfig (config : RateLimitConfig) (limiter : RateLimiter) : RateLimiter :=
  let oldRate : ℚ := limiter.config.requestsPerSecond.toNat
  { limiter with
    config
    tokens :=
      if oldRate > 0 then
        min config.burstSize.toNat (limiter.tokens * (config.requestsPerSecond.toNat / oldRate))
      else config.burstSize.toNat }

/-- The ratio is an integer division of the new rate by the rate just stored, so
it is one whenever it is computed. -/
def updateConfigPreserveWhitelist (config : RateLimitConfig) (limiter : RateLimiter) :
    RateLimiter :=
  let kept : RateLimitConfig :=
    { config with
      ipWhitelist := limiter.config.ipWhitelist
      endpointWhitelist := limiter.config.endpointWhitelist
      methodWhitelist := limiter.config.methodWhitelist }
  { limiter with
    config := kept
    tokens :=
      if config.requestsPerSecond > 0 then
        min config.burstSize.toNat
          (limiter.tokens * (config.requestsPerSecond / kept.requestsPerSecond).toNat)
      else limiter.tokens }

def reset (now : Int) (limiter : RateLimiter) : RateLimiter :=
  { limiter with
    tokens := limiter.burst
    lastUpdate := now
    stats := { lastUpdate := now } }

end RateLimiter

/-- One call of `allowRequest` with the clock reading it takes. -/
structure RateCall where
  time : Int
  clientIp : Bytes := []
  endpoint : Bytes := []
  method : Bytes := []
  deriving DecidableEq

namespace RateLimiter

/-- A run of calls: the final limiter and the verdicts in order. -/
def run : RateLimiter → List RateCall → RateLimiter × List Bool
  | limiter, [] => (limiter, [])
  | limiter, call :: rest =>
    let served := limiter.allowRequest call.time call.clientIp call.endpoint call.method
    let tail := run served.1 rest
    (tail.1, served.2 :: tail.2)

def verdicts (limiter : RateLimiter) (calls : List RateCall) : List Bool := (limiter.run calls).2

@[simp] theorem verdicts_cons (limiter : RateLimiter) (call : RateCall) (rest : List RateCall) :
    limiter.verdicts (call :: rest) =
      (limiter.allowRequest call.time call.clientIp call.endpoint call.method).2 ::
        (limiter.allowRequest call.time call.clientIp call.endpoint call.method).1.verdicts rest :=
  rfl

theorem verdicts_length (limiter : RateLimiter) (calls : List RateCall) :
    (limiter.verdicts calls).length = calls.length := by
  induction calls generalizing limiter with
  | nil => rfl
  | cons call rest ih => simp only [verdicts_cons, List.length_cons, ih]

@[simp] theorem refill_config (now : Int) (limiter : RateLimiter) :
    (limiter.refill now).config = limiter.config := by
  unfold refill
  split <;> rfl

@[simp] theorem consume_config (now : Int) (limiter : RateLimiter) :
    (limiter.consume now).1.config = limiter.config := by
  unfold consume
  split <;> rfl

@[simp] theorem consume_lastUpdate (now : Int) (limiter : RateLimiter) :
    (limiter.consume now).1.lastUpdate = limiter.lastUpdate := by
  unfold consume
  split <;> rfl

@[simp] theorem allowRequest_config (now : Int) (ip endpoint method : Bytes)
    (limiter : RateLimiter) :
    (limiter.allowRequest now ip endpoint method).1.config = limiter.config := by
  unfold allowRequest
  split
  · rfl
  · split
    · rfl
    · simp only [consume_config, refill_config]

theorem allowRequest_exempt {limiter : RateLimiter}
    (exempt : limiter.config.exempts ip endpoint method = true) :
    limiter.allowRequest now ip endpoint method = (limiter, true) := by
  simp [allowRequest, exempt]

theorem allowRequest_disabled {limiter : RateLimiter} (disabled : limiter.config.enabled = false) :
    limiter.allowRequest now ip endpoint method = (limiter, true) := by
  simp [allowRequest, disabled]

theorem allowRequest_metered {limiter : RateLimiter} (enabled : limiter.config.enabled = true)
    (metered : limiter.config.exempts ip endpoint method = false) :
    limiter.allowRequest now ip endpoint method = (limiter.refill now).consume now := by
  simp [allowRequest, enabled, metered]

end RateLimiter
end Hku
