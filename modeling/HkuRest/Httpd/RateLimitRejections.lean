import HkuRest.Httpd.RateLimitIsolation
import HkuRest.Httpd.RateLimitTokens

/-! What a rejected call leaves behind. It refills like any other and moves the stamp, so the part
of a millisecond that it came after the last whole one is never counted. -/

namespace Hku.RateLimiter

open HttpServer (checkRateLimit)

variable {limiter other : RateLimiter} {config : RateLimitConfig} {call : RateCall} {now : Int}

theorem run_append (limiter : RateLimiter) (earlier later : List RateCall) :
    limiter.run (earlier ++ later) =
      (((limiter.run earlier).1.run later).1,
        (limiter.run earlier).2 ++ ((limiter.run earlier).1.run later).2) := by
  induction earlier generalizing limiter with
  | nil => rfl
  | cons call earlier ih =>
    simp only [List.cons_append, run]
    rw [ih]

theorem verdicts_append (limiter : RateLimiter) (earlier later : List RateCall) :
    limiter.verdicts (earlier ++ later) =
      limiter.verdicts earlier ++ (limiter.run earlier).1.verdicts later := by
  simp only [verdicts, run_append]

@[simp] theorem run_config (limiter : RateLimiter) (calls : List RateCall) :
    (limiter.run calls).1.config = limiter.config := by
  induction calls generalizing limiter with
  | nil => rfl
  | cons call calls ih =>
    simp only [run]
    rw [ih, allowRequest_config]

theorem inRange_run (range : limiter.InRange) (calls : List RateCall) :
    (limiter.run calls).1.InRange := by
  induction calls generalizing limiter with
  | nil => exact range
  | cons call calls ih => exact ih (inRange_allowRequest range call)

/-- The verdicts do not depend on the statistics. -/
structure Alike (limiter other : RateLimiter) : Prop where
  config : limiter.config = other.config
  tokens : limiter.tokens = other.tokens
  lastUpdate : limiter.lastUpdate = other.lastUpdate

theorem Alike.refill (alike : Alike limiter other) (now : Int) :
    Alike (limiter.refill now) (other.refill now) := by
  obtain ⟨config, tokens, lastUpdate⟩ := alike
  have sum : limiter.tokensToAdd now = other.tokensToAdd now := by
    simp only [tokensToAdd, config, lastUpdate]
  have full : limiter.burst = other.burst := by simp only [burst, config]
  unfold RateLimiter.refill
  rw [lastUpdate, sum, full, tokens]
  split
  · exact ⟨config, rfl, rfl⟩
  · exact ⟨config, tokens, lastUpdate⟩

theorem Alike.consume (alike : Alike limiter other) (now : Int) :
    (limiter.consume now).2 = (other.consume now).2 ∧
      Alike (limiter.consume now).1 (other.consume now).1 := by
  obtain ⟨config, tokens, lastUpdate⟩ := alike
  refine ⟨?_, ?_, ?_, ?_⟩
  · rw [consume_verdict, consume_verdict, tokens]
  · rw [consume_config, consume_config, config]
  · rw [consume_tokens, consume_tokens, tokens]
  · rw [consume_lastUpdate, consume_lastUpdate, lastUpdate]

theorem Alike.check (alike : Alike limiter other) (call : RateCall) :
    (checkRateLimit call limiter).2 = (checkRateLimit call other).2 ∧
      Alike (checkRateLimit call limiter).1 (checkRateLimit call other).1 := by
  unfold checkRateLimit allowRequest
  rw [alike.config]
  split
  · exact ⟨rfl, alike⟩
  · split
    · exact ⟨rfl, alike⟩
    · exact (alike.refill call.time).consume call.time

theorem Alike.verdicts (alike : Alike limiter other) (calls : List RateCall) :
    limiter.verdicts calls = other.verdicts calls := by
  induction calls generalizing limiter other with
  | nil => rfl
  | cons call calls ih =>
    obtain ⟨verdict, later⟩ := alike.check call
    have tail := ih later
    simp only [checkRateLimit] at verdict tail
    rw [verdicts_cons, verdicts_cons, verdict, tail]

theorem verdicts_starved (enabled : limiter.config.enabled = true) (starved : Starved limiter)
    (calls : List RateCall) :
    limiter.verdicts calls =
      calls.map fun call => limiter.config.exempts call.clientIp call.endpoint call.method := by
  induction calls generalizing limiter with
  | nil => rfl
  | cons call calls ih =>
    obtain ⟨kept, verdict⟩ :
        Starved (limiter.allowRequest call.time call.clientIp call.endpoint call.method).1 ∧
          (limiter.allowRequest call.time call.clientIp call.endpoint call.method).2 =
            limiter.config.exempts call.clientIp call.endpoint call.method :=
      allowRequest_starved limiter enabled starved
    rw [verdicts_cons, verdict, ih (by rw [allowRequest_config]; exact enabled) kept, allowRequest_config]
    rfl

/-- The call is metered, and all it does is refill. -/
structure Rejects (limiter : RateLimiter) (call : RateCall) : Prop where
  enabled : limiter.config.enabled = true
  metered : limiter.config.exempts call.clientIp call.endpoint call.method = false
  short : (limiter.refill call.time).tokens < 1
  alike : Alike (checkRateLimit call limiter).1 (limiter.refill call.time)

theorem rejects_of_rejected (rejected : (checkRateLimit call limiter).2 = false) :
    Rejects limiter call := by
  unfold checkRateLimit at rejected
  cases enabled : limiter.config.enabled with
  | false =>
    rw [allowRequest_disabled enabled] at rejected
    cases rejected
  | true =>
    cases metered : limiter.config.exempts call.clientIp call.endpoint call.method with
    | true =>
      rw [allowRequest_exempt metered] at rejected
      cases rejected
    | false =>
      rw [allowRequest_metered enabled metered, consume_verdict, decide_eq_false_iff_not,
        not_le] at rejected
      refine ⟨enabled, metered, rejected, ?_⟩
      obtain ⟨-, same⟩ := consume_short (limiter.refill call.time) call.time rejected
      rw [checkRateLimit, allowRequest_metered enabled metered]
      exact ⟨consume_config _ _, same, consume_lastUpdate _ _⟩

/-- The tokens of a millisecond. -/
def perMillisecond (config : RateLimitConfig) : ℚ := config.requestsPerSecond.toNat / 1000

theorem refill_tokens (capped : limiter.tokens ≤ limiter.burst) {count : Nat}
    (elapsed : durationMilliseconds (now - limiter.lastUpdate) = count) :
    (limiter.refill now).tokens =
      min limiter.burst (limiter.tokens + count * perMillisecond limiter.config) := by
  unfold refill
  split
  · simp only [tokensToAdd, elapsed, perMillisecond, Int.cast_natCast]
    ring_nf
  · rename_i none
    have zero : count = 0 := by omega
    simp [zero, capped]

theorem refill_short (capped : limiter.tokens ≤ limiter.burst) (full : 1 ≤ limiter.burst) {count : Nat}
    (elapsed : durationMilliseconds (now - limiter.lastUpdate) = count)
    (short : (limiter.refill now).tokens < 1) :
    (limiter.refill now).tokens = limiter.tokens + count * perMillisecond limiter.config := by
  rw [refill_tokens capped elapsed] at short ⊢
  exact min_eq_right (le_of_not_ge fun above =>
    absurd short (not_lt.mpr (full.trans (le_min (le_refl _) above))))

theorem verdict_metered (capped : limiter.tokens ≤ limiter.burst) (full : 1 ≤ limiter.burst)
    (enabled : limiter.config.enabled = true)
    (metered : limiter.config.exempts call.clientIp call.endpoint call.method = false) {count : Nat}
    (elapsed : durationMilliseconds (call.time - limiter.lastUpdate) = count) :
    (checkRateLimit call limiter).2 = true ↔
      1 ≤ limiter.tokens + count * perMillisecond limiter.config := by
  rw [checkRateLimit, allowRequest_metered enabled metered, consume_verdict, refill_tokens capped elapsed,
    decide_eq_true_iff, ge_iff_le, le_min_iff]
  exact and_iff_right full

theorem exists_first_token {tokens rate : ℚ} (short : tokens < 1) (earns : 0 < rate) :
    ∃ count : Nat, tokens + count * rate < 1 ∧ 1 ≤ tokens + (count + 1 : Nat) * rate := by
  have reached : ∃ count : Nat, 1 ≤ tokens + count * rate := by
    obtain ⟨count, enough⟩ := Archimedean.arch (1 - tokens) earns
    refine ⟨count, ?_⟩
    rw [nsmul_eq_mul] at enough
    linarith only [enough]
  have first : Nat.find reached ≠ 0 := by
    intro zero
    have spec := Nat.find_spec reached
    rw [zero, Nat.cast_zero, zero_mul, add_zero] at spec
    linarith only [spec, short]
  obtain ⟨count, found⟩ := Nat.exists_eq_succ_of_ne_zero first
  refine ⟨count, ?_, ?_⟩
  · have least := Nat.find_min reached (m := count) (by omega)
    exact not_le.mp least
  · have spec := Nat.find_spec reached
    rwa [found] at spec

/-- The limiter after a rejected call: what was refilled stays, and the stamp has moved if that
was anything. -/
structure Leaves (limiter : RateLimiter) (call : RateCall) (count : Nat)
    (after : RateLimiter) : Prop where
  config : after.config = limiter.config
  tokens : after.tokens = limiter.tokens + count * perMillisecond limiter.config
  lastUpdate : after.lastUpdate = if 0 < count then call.time else limiter.lastUpdate
  capped : after.tokens ≤ after.burst
  short : after.tokens < 1

theorem Rejects.leaves (rejects : Rejects limiter call) (capped : limiter.tokens ≤ limiter.burst)
    (full : 1 ≤ limiter.burst) {count : Nat}
    (elapsed : durationMilliseconds (call.time - limiter.lastUpdate) = count) :
    Leaves limiter call count (checkRateLimit call limiter).1 := by
  obtain ⟨config, tokens, lastUpdate⟩ := rejects.alike
  have same : (checkRateLimit call limiter).1.config = limiter.config := by
    rw [config, refill_config]
  have short : (checkRateLimit call limiter).1.tokens < 1 := by
    rw [tokens]
    exact rejects.short
  refine ⟨same, ?_, ?_, ?_, short⟩
  · rw [tokens, refill_short capped full elapsed rejects.short]
  · rw [lastUpdate, refill, elapsed]
    by_cases moved : 0 < count
    · rw [if_pos (by exact_mod_cast moved), if_pos moved]
    · rw [if_neg (by exact_mod_cast moved), if_neg moved]
  · have burst : (checkRateLimit call limiter).1.burst = limiter.burst := by
      simp only [RateLimiter.burst, same]
    rw [burst]
    exact short.le.trans full

/-- The same request at another time. -/
def moved (call : RateCall) (time : Int) : RateCall := { call with time := time }

theorem verdicts_check (limiter : RateLimiter) (call : RateCall) (rest : List RateCall) :
    limiter.verdicts (call :: rest) =
      (checkRateLimit call limiter).2 :: (checkRateLimit call limiter).1.verdicts rest := rfl

theorem whole_milliseconds {duration : Int} (count rest : Nat) (split : duration = count * 1000000 + rest)
    (below : rest < 1000000) : durationMilliseconds duration = count := by
  rw [durationMilliseconds, Int.tdiv_eq_ediv_of_nonneg (by omega)]
  omega

theorem exists_milliseconds {duration : Int} (forward : 0 ≤ duration) :
    ∃ count rest : Nat, duration = count * 1000000 + rest ∧ rest < 1000000 := by
  refine ⟨duration.toNat / 1000000, duration.toNat % 1000000, ?_, ?_⟩ <;> omega

theorem milliseconds_pos {duration : Int} (positive : durationMilliseconds duration > 0) :
    1000000 ≤ duration := by
  by_contra short
  rcases le_or_gt 0 duration with forward | back
  · rw [durationMilliseconds, Int.tdiv_eq_ediv_of_nonneg forward] at positive
    omega
  · have span : 0 ≤ -duration := by omega
    have none := Int.tdiv_nonneg span (by decide : (0 : Int) ≤ 1000000)
    rw [Int.neg_tdiv] at none
    rw [durationMilliseconds] at positive
    omega

/-- What is asked of a limiter, apart from its tokens and its stamp. -/
structure Ready (limiter : RateLimiter) (call : RateCall) : Prop where
  enabled : limiter.config.enabled = true
  metered : limiter.config.exempts call.clientIp call.endpoint call.method = false
  capped : limiter.tokens ≤ limiter.burst
  full : 1 ≤ limiter.burst

theorem Leaves.ready {before : RateCall} {count : Nat} {after : RateLimiter}
    (leaves : Leaves limiter before count after) (ready : Ready limiter call) : Ready after call where
  enabled := by rw [leaves.config, ready.enabled]
  metered := by rw [leaves.config, ready.metered]
  capped := leaves.capped
  full := by simpa only [burst, leaves.config] using ready.full

theorem Ready.verdict (ready : Ready limiter call) {time : Int} (count rest : Nat)
    (split : time - limiter.lastUpdate = count * 1000000 + rest) (below : rest < 1000000) :
    (checkRateLimit (moved call time) limiter).2 = true ↔
      1 ≤ limiter.tokens + count * perMillisecond limiter.config := by
  have elapsed : durationMilliseconds ((moved call time).time - limiter.lastUpdate) = count :=
    whole_milliseconds count rest split below
  have metered : limiter.config.exempts (moved call time).clientIp (moved call time).endpoint
      (moved call time).method = false := ready.metered
  exact verdict_metered ready.capped ready.full ready.enabled metered elapsed

theorem Ready.leaves (ready : Ready limiter call) {time : Int} (count rest : Nat)
    (split : time - limiter.lastUpdate = count * 1000000 + rest) (below : rest < 1000000)
    (rejected : (checkRateLimit (moved call time) limiter).2 = false) :
    Leaves limiter (moved call time) count (checkRateLimit (moved call time) limiter).1 ∧
      Ready (checkRateLimit (moved call time) limiter).1 call := by
  have elapsed : durationMilliseconds ((moved call time).time - limiter.lastUpdate) = count :=
    whole_milliseconds count rest split below
  have leaves := (rejects_of_rejected rejected).leaves ready.capped ready.full elapsed
  exact ⟨leaves, leaves.ready ready⟩

/-- Left over by the rejected call, a part of a millisecond is lost. -/
theorem noticed_fraction {left : RateLimiter} {count rest : Nat} (ready : Ready limiter call)
    (readyLeft : Ready left call) (earns : 0 < perMillisecond limiter.config)
    (leaves : Leaves limiter call count left) (stamped : left.lastUpdate = call.time)
    (split : call.time - limiter.lastUpdate = count * 1000000 + rest) (below : rest < 1000000)
    (fraction : 0 < rest) :
    ∃ time, call.time ≤ time ∧
      left.verdicts [moved call time] ≠ limiter.verdicts [moved call time] := by
  obtain ⟨more, least, enough⟩ := exists_first_token leaves.short earns
  refine ⟨call.time - rest + (more + 1 : Nat) * 1000000, by omega, fun same => ?_⟩
  have admitted : (checkRateLimit (moved call (call.time - rest + (more + 1 : Nat) * 1000000))
      limiter).2 = true := by
    refine (ready.verdict (count + (more + 1)) 0 (by omega) (by decide)).mpr ?_
    rw [leaves.tokens] at enough
    push_cast at enough ⊢
    linarith only [enough]
  have refused : ¬ (checkRateLimit (moved call (call.time - rest + (more + 1 : Nat) * 1000000))
      left).2 = true := by
    rw [readyLeft.verdict more (1000000 - rest) (by omega) (by omega), leaves.config,
      not_le]
    exact least
  rw [verdicts_check, verdicts_check, admitted, List.cons.injEq] at same
  exact refused same.1

/-- After whole milliseconds it is a call right behind the rejected one that loses its fraction. -/
theorem noticed_whole {left : RateLimiter} {count : Nat} (ready : Ready limiter call)
    (readyLeft : Ready left call) (earns : 0 < perMillisecond limiter.config)
    (leaves : Leaves limiter call count left) (stamped : left.lastUpdate = call.time)
    (split : call.time - limiter.lastUpdate = count * 1000000) (positive : 0 < count) :
    ∃ time, call.time + 1 ≤ time ∧
      left.verdicts [moved call (call.time + 1), moved call time] ≠
        limiter.verdicts [moved call (call.time + 1), moved call time] := by
  obtain ⟨more, least, enough⟩ := exists_first_token leaves.short earns
  have refused : (checkRateLimit (moved call (call.time + 1)) limiter).2 = false := by
    rw [← Bool.not_eq_true, ready.verdict count 1 (by omega) (by decide), ← leaves.tokens, not_le]
    exact leaves.short
  have refusedLeft : (checkRateLimit (moved call (call.time + 1)) left).2 = false := by
    rw [← Bool.not_eq_true, readyLeft.verdict 0 1 (by omega) (by decide), not_le]
    simpa using leaves.short
  obtain ⟨next, readyNext⟩ := ready.leaves count 1 (by omega) (by decide) refused
  obtain ⟨nextLeft, readyNextLeft⟩ := readyLeft.leaves 0 1 (by omega) (by decide) refusedLeft
  have behind : (checkRateLimit (moved call (call.time + 1)) limiter).1.lastUpdate = call.time + 1 := by
    rw [next.lastUpdate, if_pos positive]
    rfl
  have still : (checkRateLimit (moved call (call.time + 1)) left).1.lastUpdate = call.time := by
    rw [nextLeft.lastUpdate, if_neg (lt_irrefl 0), stamped]
  refine ⟨call.time + (more + 1 : Nat) * 1000000, by omega, fun same => ?_⟩
  have admitted : (checkRateLimit (moved call (call.time + (more + 1 : Nat) * 1000000))
      (checkRateLimit (moved call (call.time + 1)) left).1).2 = true := by
    refine (readyNextLeft.verdict (more + 1) 0 (by omega) (by decide)).mpr ?_
    rw [nextLeft.tokens, nextLeft.config, leaves.config]
    simpa using enough
  have delayed : ¬ (checkRateLimit (moved call (call.time + (more + 1 : Nat) * 1000000))
      (checkRateLimit (moved call (call.time + 1)) limiter).1).2 = true := by
    rw [readyNext.verdict more 999999 (by omega) (by decide), next.tokens, next.config, ← leaves.tokens,
      not_le]
    exact least
  simp only [verdicts_check, List.cons.injEq] at same
  exact delayed (same.2.1 ▸ admitted)

/-- Once a rejected call has moved the stamp, later calls can tell. -/
theorem Rejects.noticed (rejects : Rejects limiter call) (capped : limiter.tokens ≤ limiter.burst)
    (full : 1 ≤ limiter.burst) (earns : 0 < perMillisecond limiter.config)
    (elapsed : 1000000 ≤ call.time - limiter.lastUpdate) :
    ∃ times : List Int, (call.time :: times).Pairwise (· ≤ ·) ∧
      (checkRateLimit call limiter).1.verdicts (times.map (moved call)) ≠
        limiter.verdicts (times.map (moved call)) := by
  obtain ⟨count, rest, split, below⟩ :=
    exists_milliseconds (by omega : 0 ≤ call.time - limiter.lastUpdate)
  have positive : 0 < count := by omega
  have leaves := rejects.leaves capped full (whole_milliseconds count rest split below)
  have stamped : (checkRateLimit call limiter).1.lastUpdate = call.time := by
    rw [leaves.lastUpdate, if_pos positive]
  have ready : Ready limiter call := ⟨rejects.enabled, rejects.metered, capped, full⟩
  have readyLeft : Ready (checkRateLimit call limiter).1 call := leaves.ready ready
  rcases Nat.eq_zero_or_pos rest with rfl | fraction
  · obtain ⟨time, later, differs⟩ := noticed_whole ready readyLeft earns leaves stamped
      (by omega) positive
    refine ⟨[call.time + 1, time], ?_, differs⟩
    simp only [List.pairwise_cons, List.mem_cons, List.not_mem_nil, or_false, forall_eq_or_imp, forall_eq,
      false_imp_iff, implies_true, List.Pairwise.nil, and_true]
    omega
  · obtain ⟨time, later, differs⟩ := noticed_fraction ready readyLeft earns leaves stamped
      split below fraction
    refine ⟨[time], ?_, differs⟩
    simpa using later

/-- All other calls are answered the same, whatever calls come later. -/
def Free (limiter : RateLimiter) (earlier : List RateCall) (call : RateCall) : Prop :=
  ∀ later : List RateCall, ((call :: later).map RateCall.time).Pairwise (· ≤ ·) →
    (∀ other ∈ later, limiter.config.exempts other.clientIp other.endpoint other.method = false) →
    (limiter.verdicts (earlier ++ call :: later)).eraseIdx earlier.length =
      limiter.verdicts (earlier ++ later)

theorem verdicts_without (limiter : RateLimiter) (earlier later : List RateCall) (call : RateCall) :
    (limiter.verdicts (earlier ++ call :: later)).eraseIdx earlier.length =
        limiter.verdicts (earlier ++ later) ↔
      (checkRateLimit call (limiter.run earlier).1).1.verdicts later =
        (limiter.run earlier).1.verdicts later := by
  have length : (limiter.verdicts earlier).length = earlier.length := verdicts_length limiter earlier
  rw [verdicts_append, verdicts_append, List.eraseIdx_append_of_length_le length.le, length, Nat.sub_self,
    verdicts_check, List.eraseIdx_cons_zero, List.append_cancel_left_eq]

theorem starved_of_rejects (rejects : Rejects limiter call) (capped : limiter.tokens ≤ limiter.burst)
    (dry : limiter.config.requestsPerSecond = 0 ∨ limiter.config.burstSize = 0) : Starved limiter := by
  refine ⟨?_, dry.symm⟩
  rcases dry with noRate | noBurst
  · have short := rejects.short
    have nothing : limiter.tokensToAdd call.time = 0 := by simp [tokensToAdd, noRate]
    unfold refill at short
    split at short
    · simpa only [nothing, add_zero, min_eq_right capped] using short
    · exact short
  · have empty : limiter.burst = 0 := by simp [burst, noBurst]
    rw [empty] at capped
    exact capped.trans_lt (by norm_num)

theorem Rejects.verdicts_dry (rejects : Rejects limiter call) (capped : limiter.tokens ≤ limiter.burst)
    (dry : limiter.config.requestsPerSecond = 0 ∨ limiter.config.burstSize = 0) (later : List RateCall) :
    (checkRateLimit call limiter).1.verdicts later = limiter.verdicts later := by
  have starved := starved_of_rejects rejects capped dry
  have left : Starved (checkRateLimit call limiter).1 :=
    (allowRequest_starved limiter rejects.enabled starved).1
  have kept : (checkRateLimit call limiter).1.config = limiter.config := allowRequest_config ..
  have enabled : (checkRateLimit call limiter).1.config.enabled = true := by
    rw [kept]
    exact rejects.enabled
  rw [verdicts_starved enabled left, verdicts_starved rejects.enabled starved, kept]

/-- Within the first millisecond nothing is refilled, and the stamp stays. -/
theorem Rejects.verdicts_early (rejects : Rejects limiter call)
    (early : call.time - limiter.lastUpdate < 1000000) (later : List RateCall) :
    (checkRateLimit call limiter).1.verdicts later = limiter.verdicts later := by
  have idle : limiter.refill call.time = limiter :=
    if_neg fun positive => not_le.mpr early (milliseconds_pos positive)
  have alike := rejects.alike
  rw [idle] at alike
  exact alike.verdicts later

theorem perMillisecond_pos (earns : config.requestsPerSecond ≠ 0) : 0 < perMillisecond config := by
  have positive : 0 < config.requestsPerSecond.toNat := by
    have nonzero : config.requestsPerSecond.toNat ≠ 0 := fun zero => earns (UInt32.toNat_inj.mp zero)
    omega
  have cast : (0 : ℚ) < config.requestsPerSecond.toNat := by exact_mod_cast positive
  unfold perMillisecond
  positivity

theorem one_le_burst (holds : limiter.config.burstSize ≠ 0) : 1 ≤ limiter.burst := by
  have nonzero : limiter.config.burstSize.toNat ≠ 0 := fun zero => holds (UInt32.toNat_inj.mp zero)
  have counted : 1 ≤ limiter.config.burstSize.toNat := by omega
  simp only [burst]
  exact_mod_cast counted

/-- A rejected call can be left out, whatever comes later, exactly when no call is ever given a
token by a refill, or it comes less than a millisecond after the last stamp. -/
theorem rejection_free_iff (config : RateLimitConfig) (start : Int) (earlier : List RateCall)
    (call : RateCall)
    (rejected : (checkRateLimit call ((ofConfig config start).run earlier).1).2 = false) :
    Free (ofConfig config start) earlier call ↔
      config.requestsPerSecond = 0 ∨ config.burstSize = 0 ∨
        call.time - ((ofConfig config start).run earlier).1.lastUpdate < 1000000 := by
  have range : ((ofConfig config start).run earlier).1.InRange :=
    inRange_run ⟨Nat.cast_nonneg _, le_refl _⟩ earlier
  have same : ((ofConfig config start).run earlier).1.config = config := run_config _ earlier
  unfold Free
  simp only [verdicts_without]
  generalize ((ofConfig config start).run earlier).1 = limiter at rejected range same
  have rejects := rejects_of_rejected rejected
  constructor
  · intro free
    by_contra neither
    obtain ⟨earns, holds, late⟩ := (not_or.mp neither).imp_right not_or.mp
    rw [← same] at earns holds
    obtain ⟨times, ordered, differs⟩ := rejects.noticed range.2 (one_le_burst holds)
      (perMillisecond_pos earns) (not_lt.mp late)
    refine differs (free (times.map (moved call)) ?_ ?_)
    · have back : (times.map (moved call)).map RateCall.time = times := by
        rw [List.map_map]
        exact List.map_id times
      rwa [List.map_cons, back]
    · intro other member
      obtain ⟨time, -, rfl⟩ := List.mem_map.mp member
      have metered := rejects.metered
      rwa [same] at metered
  · intro condition later _ _
    rw [← same] at condition
    rcases condition with noRate | noBurst | early
    · exact rejects.verdicts_dry range.2 (.inl noRate) later
    · exact rejects.verdicts_dry range.2 (.inr noBurst) later
    · exact rejects.verdicts_early early later

def onePerSecond : RateLimitConfig := .globalLimit 1 1

/-- The second of two calls at once has nothing to leave behind. -/
theorem rejection_free_iff_again :
    Free (ofConfig onePerSecond 0) [⟨0, [], [], []⟩] ⟨1, [], [], []⟩ ↔
      onePerSecond.requestsPerSecond = 0 ∨ onePerSecond.burstSize = 0 ∨
        1 - ((ofConfig onePerSecond 0).run [⟨0, [], [], []⟩]).1.lastUpdate < 1000000 :=
  rejection_free_iff onePerSecond 0 [⟨0, [], [], []⟩] ⟨1, [], [], []⟩ (by decide +kernel)

/-- Half a millisecond is lost at a rejected call, and the call after a second is rejected, too. -/
theorem rejection_not_free :
    ¬ ∀ (config : RateLimitConfig) (start : Int) (earlier : List RateCall) (call : RateCall),
      config.enabled = true →
      (checkRateLimit call ((ofConfig config start).run earlier).1).2 = false →
      Free (ofConfig config start) earlier call := by
  intro free
  have same := free onePerSecond 0 [⟨0, [], [], []⟩] ⟨1500000, [], [], []⟩ rfl (by decide +kernel)
    [⟨1000000000, [], [], []⟩] (by decide) (by decide +kernel)
  revert same
  decide +kernel

end Hku.RateLimiter
