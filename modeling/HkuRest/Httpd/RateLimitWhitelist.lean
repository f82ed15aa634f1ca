import HkuRest.Httpd.RateLimit
import Mathlib.Tactic.Linarith

/-! The rate-limit calls of `HttpServer`, as functions of its `m_rate_limiter`. The
calls that extend a whitelist hand a longer list to an update that keeps the old one:
an added entry has an effect exactly when it needed none. -/
namespace Hku.HttpServer

open RateLimiter

def setRateLimit (config : RateLimitConfig) (limiter : RateLimiter) : RateLimiter :=
  limiter.updateConfig config

def addRateLimitIpWhitelist (ip : Bytes) (limiter : RateLimiter) : RateLimiter :=
  let config := limiter.config
  if ip ∈ config.ipWhitelist then limiter
  else
    limiter.updateConfigPreserveWhitelist
      { config with ipWhitelist := config.ipWhitelist ++ [ip] }

/-- The loop of the list form, over the copied configuration and `added_count`. -/
def pushNewIps : RateLimitConfig × Nat → List Bytes → RateLimitConfig × Nat
  | copied, [] => copied
  | (config, addedCount), ip :: rest =>
      if ip ∈ config.ipWhitelist then pushNewIps (config, addedCount) rest
      else
        pushNewIps ({ config with ipWhitelist := config.ipWhitelist ++ [ip] }, addedCount + 1) rest

def addRateLimitIpWhitelists (ips : List Bytes) (limiter : RateLimiter) : RateLimiter :=
  let copied := pushNewIps (limiter.config, 0) ips
  if copied.2 > 0 then limiter.updateConfigPreserveWhitelist copied.1 else limiter

def addRateLimitEndpointWhitelist (endpoint : Bytes) (limiter : RateLimiter) : RateLimiter :=
  let config := limiter.config
  if endpoint ∈ config.endpointWhitelist then limiter
  else
    limiter.updateConfigPreserveWhitelist
      { config with endpointWhitelist := config.endpointWhitelist ++ [endpoint] }

def checkRateLimit (call : RateCall) (limiter : RateLimiter) : RateLimiter × Bool :=
  limiter.allowRequest call.time call.clientIp call.endpoint call.method

inductive WhitelistCall
  | addIp (ip : Bytes)
  | addIps (ips : List Bytes)
  | addEndpoint (endpoint : Bytes)
  deriving DecidableEq

def WhitelistCall.apply : WhitelistCall → RateLimiter → RateLimiter
  | .addIp ip => addRateLimitIpWhitelist ip
  | .addIps ips => addRateLimitIpWhitelists ips
  | .addEndpoint endpoint => addRateLimitEndpointWhitelist endpoint

inductive RateLimitCall
  | setRateLimit (config : RateLimitConfig)
  | extend (call : WhitelistCall)
  | checkRateLimit (call : RateCall)
  deriving DecidableEq

/-- `enableGlobalRateLimit` and its like are `setRateLimit` with a configuration of theirs. -/
def RateLimitCall.apply : RateLimitCall → RateLimiter → RateLimiter
  | .setRateLimit config, limiter => HttpServer.setRateLimit config limiter
  | .extend call, limiter => call.apply limiter
  | .checkRateLimit call, limiter => (HttpServer.checkRateLimit call limiter).1

def RateLimitCall.sets : RateLimitCall → Bool
  | .setRateLimit _ => true
  | _ => false

def applyAll (limiter : RateLimiter) (calls : List RateLimitCall) : RateLimiter :=
  calls.foldl (fun limiter call => call.apply limiter) limiter

inductive WhitelistEntry
  | ip (address : Bytes)
  | endpoint (pattern : Bytes)
  deriving DecidableEq

def WhitelistCall.entries : WhitelistCall → List WhitelistEntry
  | .addIp ip => [.ip ip]
  | .addIps ips => ips.map .ip
  | .addEndpoint endpoint => [.endpoint endpoint]

/-- A configuration with no other entry. -/
def WhitelistEntry.alone : WhitelistEntry → RateLimitConfig
  | .ip address => { ipWhitelist := [address] }
  | .endpoint pattern => { endpointWhitelist := [pattern] }

/-- The check is for the address of the entry, or for an endpoint that it matches. -/
def WhitelistEntry.covers (entry : WhitelistEntry) (call : RateCall) : Bool :=
  entry.alone.exempts call.clientIp call.endpoint call.method

/-- Until the next `setRateLimit`, what the entry covers is admitted and draws no token. -/
def Honoured (limiter : RateLimiter) (entry : WhitelistEntry) : Prop :=
  ∀ calls : List RateLimitCall, (∀ call ∈ calls, call.sets = false) →
    ∀ check, entry.covers check = true →
      (checkRateLimit check (applyAll limiter calls)).2 = true ∧
        (checkRateLimit check (applyAll limiter calls)).1.tokens = (applyAll limiter calls).tokens

structure Honours (limiter : RateLimiter) (call : WhitelistCall) : Prop where
  added : ∀ entry ∈ call.entries, Honoured (call.apply limiter) entry
  earlier : ∀ entry, Honoured limiter entry → Honoured (call.apply limiter) entry
  again : call.apply (call.apply limiter) = call.apply limiter

/-- What the entry would exempt is exempt without it. -/
def Redundant (config : RateLimitConfig) : WhitelistEntry → Prop
  | .ip address => address = [] ∨ address ∈ config.ipWhitelist
  | .endpoint pattern =>
      ∀ endpoint, endpoint ≠ [] →
        RateLimitConfig.isEndpointWhitelisted { endpointWhitelist := [pattern] } endpoint = true →
          config.isEndpointWhitelisted endpoint = true

section

variable {config : RateLimitConfig} {limiter : RateLimiter} {entry : WhitelistEntry}

theorem redundant_iff : Redundant config entry ↔
    ∀ check : RateCall, entry.covers check = true →
      config.exempts check.clientIp check.endpoint check.method = true := by
  cases entry with
  | ip address =>
    constructor
    · intro redundant check covered
      obtain ⟨named, rfl⟩ : check.clientIp ≠ [] ∧ check.clientIp = address := by
        simpa [WhitelistEntry.covers, WhitelistEntry.alone, RateLimitConfig.exempts,
          RateLimitConfig.isIpWhitelisted, RateLimitConfig.isEndpointWhitelisted,
          RateLimitConfig.isMethodWhitelisted] using covered
      have listed := redundant.resolve_left named
      simp [RateLimitConfig.exempts, RateLimitConfig.isIpWhitelisted, named, listed]
    · intro exempt
      by_cases named : address = []
      · exact .inl named
      · have passed := exempt { time := 0, clientIp := address } (by
          simp [WhitelistEntry.covers, WhitelistEntry.alone, RateLimitConfig.exempts,
            RateLimitConfig.isIpWhitelisted, named])
        right
        simpa [RateLimitConfig.exempts, RateLimitConfig.isIpWhitelisted, named] using passed
  | endpoint pattern =>
    constructor
    · intro redundant check covered
      obtain ⟨named, matched⟩ : check.endpoint ≠ [] ∧
          RateLimitConfig.isEndpointWhitelisted { endpointWhitelist := [pattern] } check.endpoint =
            true := by
        simpa [WhitelistEntry.covers, WhitelistEntry.alone, RateLimitConfig.exempts,
          RateLimitConfig.isIpWhitelisted, RateLimitConfig.isMethodWhitelisted] using covered
      simp [RateLimitConfig.exempts, named, redundant check.endpoint named matched]
    · intro exempt endpoint named matched
      have passed := exempt { time := 0, endpoint } (by
        simp [WhitelistEntry.covers, WhitelistEntry.alone, RateLimitConfig.exempts, named, matched])
      simpa [RateLimitConfig.exempts, named] using passed

/-- The bucket is cut down to its burst size, where it has a rate. -/
def clamped (limiter : RateLimiter) : RateLimiter :=
  { limiter with
    tokens :=
      if limiter.config.requestsPerSecond > 0 then min limiter.burst limiter.tokens
      else limiter.tokens }

@[simp] theorem clamped_config (limiter : RateLimiter) : (clamped limiter).config = limiter.config :=
  rfl

theorem clamped_clamped (limiter : RateLimiter) : clamped (clamped limiter) = clamped limiter := by
  simp only [clamped, burst]
  split
  · rw [min_eq_right (min_le_left _ _)]
  · rfl

theorem updateConfigPreserveWhitelist_extended (ips endpoints : List Bytes) :
    limiter.updateConfigPreserveWhitelist
      { limiter.config with ipWhitelist := ips, endpointWhitelist := endpoints } =
        clamped limiter := by
  simp only [updateConfigPreserveWhitelist, clamped, burst]
  split
  · rename_i positive
    have ratio : limiter.config.requestsPerSecond / limiter.config.requestsPerSecond = 1 := by
      apply UInt32.toNat_inj.mp
      rw [UInt32.toNat_div]
      exact Nat.div_self (UInt32.lt_iff_toNat_lt.mp positive)
    simp only [ratio, UInt32.toNat_one, Nat.cast_one, mul_one]
  · rfl

theorem pushNewIps_config (ips : List Bytes) (config : RateLimitConfig) (addedCount : Nat) :
    (pushNewIps (config, addedCount) ips).1 =
      { config with ipWhitelist := (pushNewIps (config, addedCount) ips).1.ipWhitelist } := by
  induction ips generalizing config addedCount with
  | nil => rfl
  | cons ip rest ih =>
    simp only [pushNewIps]
    split
    · exact ih config addedCount
    · exact ih _ _

/-- The call finds an entry that it does not know. -/
def WhitelistCall.enlarges (config : RateLimitConfig) : WhitelistCall → Bool
  | .addIp ip => ip ∉ config.ipWhitelist
  | .addIps ips => (pushNewIps (config, 0) ips).2 > 0
  | .addEndpoint endpoint => endpoint ∉ config.endpointWhitelist

/-- All three calls end in the same two states. -/
theorem WhitelistCall.apply_eq (call : WhitelistCall) (limiter : RateLimiter) :
    call.apply limiter = if call.enlarges limiter.config then clamped limiter else limiter := by
  cases call with
  | addIp ip =>
    simp only [apply, addRateLimitIpWhitelist, WhitelistCall.enlarges, decide_not, Bool.not_eq_true',
      decide_eq_false_iff_not]
    split
    · rfl
    · exact updateConfigPreserveWhitelist_extended _ limiter.config.endpointWhitelist
  | addIps ips =>
    simp only [apply, addRateLimitIpWhitelists, WhitelistCall.enlarges, decide_eq_true_eq]
    split
    · rw [pushNewIps_config]
      exact updateConfigPreserveWhitelist_extended _ limiter.config.endpointWhitelist
    · rfl
  | addEndpoint endpoint =>
    simp only [apply, addRateLimitEndpointWhitelist, WhitelistCall.enlarges, decide_not,
      Bool.not_eq_true', decide_eq_false_iff_not]
    split
    · rfl
    · exact updateConfigPreserveWhitelist_extended limiter.config.ipWhitelist _

@[simp] theorem WhitelistCall.apply_config (call : WhitelistCall) (limiter : RateLimiter) :
    (call.apply limiter).config = limiter.config := by
  rw [apply_eq]
  split <;> rfl

theorem WhitelistCall.apply_apply (call : WhitelistCall) (limiter : RateLimiter) :
    call.apply (call.apply limiter) = call.apply limiter := by
  rw [call.apply_eq (call.apply limiter), apply_config, call.apply_eq limiter]
  split
  · exact clamped_clamped limiter
  · rfl

theorem applyAll_config (calls : List RateLimitCall) (limiter : RateLimiter)
    (unset : ∀ call ∈ calls, call.sets = false) :
    (applyAll limiter calls).config = limiter.config := by
  induction calls generalizing limiter with
  | nil => rfl
  | cons call rest ih =>
    obtain ⟨first, later⟩ := List.forall_mem_cons.mp unset
    have kept : (call.apply limiter).config = limiter.config := by
      cases call with
      | setRateLimit config => cases first
      | extend call => exact call.apply_config limiter
      | checkRateLimit call => exact allowRequest_config _ _ _ _ _
    exact (ih _ later).trans kept

theorem checkRateLimit_costs (enabled : limiter.config.enabled = true) (check : RateCall)
    (instant : check.time = limiter.lastUpdate)
    (metered : limiter.config.exempts check.clientIp check.endpoint check.method = false) :
    ¬ ((checkRateLimit check limiter).2 = true ∧
      (checkRateLimit check limiter).1.tokens = limiter.tokens) := by
  have still : limiter.refill check.time = limiter := by
    simp [refill, instant, durationMilliseconds]
  rw [checkRateLimit, allowRequest_metered enabled metered, still]
  simp only [consume]
  split
  · rintro ⟨_, kept⟩
    dsimp only at kept
    linarith
  · rintro ⟨admitted, _⟩
    cases admitted

theorem honoured_iff :
    Honoured limiter entry ↔ limiter.config.enabled = false ∨ Redundant limiter.config entry := by
  rw [redundant_iff]
  constructor
  · intro honoured
    by_cases disabled : limiter.config.enabled = false
    · exact .inl disabled
    right
    intro check covered
    by_contra metered
    have instantly : entry.covers { check with time := limiter.lastUpdate } = true := covered
    apply checkRateLimit_costs (by simpa using disabled) { check with time := limiter.lastUpdate }
      rfl (by simpa using metered)
    exact honoured [] (by simp) _ instantly
  · intro free calls unset check covered
    have config := applyAll_config calls limiter unset
    have admitted : checkRateLimit check (applyAll limiter calls) = (applyAll limiter calls, true) := by
      rcases free with disabled | redundant
      · exact allowRequest_disabled (by rw [config, disabled])
      · exact allowRequest_exempt (by rw [config, redundant check covered])
    rw [admitted]
    exact ⟨rfl, rfl⟩

/-- A whitelist call does what it is for exactly when there was nothing to do. -/
theorem whitelist_call_honoured_iff (limiter : RateLimiter) (call : WhitelistCall) :
    Honours limiter call ↔
      limiter.config.enabled = false ∨ ∀ entry ∈ call.entries, Redundant limiter.config entry := by
  constructor
  · rintro ⟨added, _, _⟩
    by_cases disabled : limiter.config.enabled = false
    · exact .inl disabled
    right
    intro entry member
    have free := honoured_iff.mp (added entry member)
    rw [call.apply_config] at free
    exact free.resolve_left disabled
  · intro free
    refine ⟨?_, ?_, call.apply_apply limiter⟩
    · intro entry member
      rw [honoured_iff, call.apply_config]
      exact free.imp_right fun redundant => redundant entry member
    · intro entry honoured
      rw [honoured_iff, call.apply_config]
      exact honoured_iff.mp honoured

end

/-- An address that is put on the whitelist of an enabled limiter goes on drawing tokens. -/
theorem added_ip_metered : ¬ ∀ (limiter : RateLimiter) (call : WhitelistCall), Honours limiter call := by
  intro honours
  have honoured := (honours (.ofConfig (.globalLimit 10 20) 0) (.addIp (Bytes.ascii "10.0.0.1"))).added
    (.ip (Bytes.ascii "10.0.0.1")) (by decide)
  rcases honoured_iff.mp honoured with disabled | unnamed | listed
  · cases disabled
  · cases unnamed
  · cases listed

end Hku.HttpServer
