import HkuRest.Httpd.RateLimitProofs
import HkuRest.Core.Metering

/-! What the limiter grants beside a bucket that is refilled continuously. It drops the part of a
millisecond that passed after the last whole one, so it may run at half its rate, never slower;
read by a clock of whole milliseconds it is that bucket. -/
namespace Hku.RateLimiter
open TokenBucket (Meter)

variable {limiter : RateLimiter} {config : RateLimitConfig} {start now : Int}
  {calls : List RateCall}

/-- Half the rate: a duration of at least one millisecond is at most twice its whole ones. -/
def halved (config : RateLimitConfig) : TokenBucket.Policy ℚ :=
  { policy config with rate := (policy config).rate / 2 }

/-- The bucket of the configuration, refilled up to the nanosecond. -/
def meter (config : RateLimitConfig) : Meter ℚ where
  capacity := config.burstSize.toNat
  rate := (policy config).rate
  threshold := 1

def times (calls : List RateCall) : List ℚ := calls.map fun call => call.time

theorem milliseconds_half (span : 0 ≤ duration) (elapsed : durationMilliseconds duration > 0) :
    duration ≤ durationMilliseconds duration * 2000000 := by
  simp only [durationMilliseconds, Int.tdiv_eq_ediv_of_nonneg span] at elapsed ⊢
  omega

theorem tokensToAdd_ge (limiter : RateLimiter) (clock : limiter.lastUpdate ≤ now)
    (elapsed : durationMilliseconds (now - limiter.lastUpdate) > 0) :
    (halved limiter.config).rate * ((now : ℚ) - limiter.lastUpdate) ≤ limiter.tokensToAdd now := by
  have whole : ((now - limiter.lastUpdate : Int) : ℚ) ≤
      ((durationMilliseconds (now - limiter.lastUpdate) * 2000000 : Int) : ℚ) := by
    exact_mod_cast milliseconds_half (by omega) elapsed
  push_cast at whole
  have scaled := mul_le_mul_of_nonneg_left whole (policy_rate_nonneg limiter.config)
  calc (halved limiter.config).rate * ((now : ℚ) - limiter.lastUpdate)
      = (policy limiter.config).rate * ((now : ℚ) - limiter.lastUpdate) / 2 := by
        simp only [halved]
        ring
    _ ≤ (policy limiter.config).rate *
          ((durationMilliseconds (now - limiter.lastUpdate) : ℚ) * 2000000) / 2 := by
        linarith only [scaled]
    _ = limiter.tokensToAdd now := by
        simp only [tokensToAdd, policy]
        ring

theorem refill_pays (limiter : RateLimiter) (clock : limiter.lastUpdate ≤ now) :
    min limiter.burst (limiter.tokens + (halved limiter.config).rate *
        (((limiter.refill now).lastUpdate : ℚ) - limiter.lastUpdate)) ≤
      (limiter.refill now).tokens := by
  by_cases elapsed : durationMilliseconds (now - limiter.lastUpdate) > 0
  · have shape : limiter.refill now = { limiter with
        tokens := min limiter.burst (limiter.tokens + limiter.tokensToAdd now)
        lastUpdate := now } := if_pos elapsed
    rw [shape]
    exact min_le_min_left _ (by linarith only [limiter.tokensToAdd_ge clock elapsed])
  · have shape : limiter.refill now = limiter := if_neg elapsed
    rw [shape, sub_self, mul_zero, add_zero]
    exact min_le_right _ _

theorem allowRequest_pays (limiter : RateLimiter) (enabled : limiter.config.enabled = true)
    (metered : limiter.config.exempts ip endpoint method = false)
    (clock : limiter.lastUpdate ≤ now) (capped : limiter.tokens ≤ limiter.burst) :
    TokenBucket.Pays (halved limiter.config) (now : ℚ) limiter.bucket
      (limiter.allowRequest now ip endpoint method).2
      (limiter.allowRequest now ip endpoint method).1.bucket := by
  have served := limiter.allowRequest_serves enabled metered clock capped
  refine ⟨served.past, served.fresh, ?_, ?_⟩
  · rw [allowRequest_metered enabled metered]
    refine (limiter.refill_pays clock).trans' (le_of_eq ?_) |>.trans (le_of_eq ?_)
    · simp only [bucket, consume_lastUpdate, halved, policy, burst]
    · unfold consume
      split <;> simp [bucket, TokenBucket.cost]
  · rw [allowRequest_metered enabled metered]
    unfold consume
    split
    · simp
    · rename_i short
      exact fun _ => not_le.mp short

/-- What a run of metered calls needs of the limiter it starts from. -/
structure Fit (limiter : RateLimiter) (calls : List RateCall) : Prop where
  enabled : limiter.config.enabled = true
  capped : limiter.tokens ≤ limiter.burst
  clock : (limiter.lastUpdate :: calls.map RateCall.time).Pairwise (· ≤ ·)
  metered : ∀ call ∈ calls,
    limiter.config.exempts call.clientIp call.endpoint call.method = false

/-- The limiter after a call. -/
def after (limiter : RateLimiter) (call : RateCall) : RateLimiter :=
  (limiter.allowRequest call.time call.clientIp call.endpoint call.method).1

namespace Fit
variable {call : RateCall} {rest : List RateCall}

theorem here (fit : Fit limiter (call :: rest)) : limiter.lastUpdate ≤ call.time :=
  (List.pairwise_cons.mp fit.clock).1 _ List.mem_cons_self

theorem exempts (fit : Fit limiter (call :: rest)) :
    limiter.config.exempts call.clientIp call.endpoint call.method = false :=
  fit.metered call List.mem_cons_self

theorem serves (fit : Fit limiter (call :: rest)) :
    TokenBucket.Serves (policy limiter.config) (call.time : ℚ) limiter.bucket
      (limiter.allowRequest call.time call.clientIp call.endpoint call.method).2
      (limiter.after call).bucket :=
  limiter.allowRequest_serves fit.enabled fit.exempts fit.here fit.capped

theorem next (fit : Fit limiter (call :: rest)) : Fit (limiter.after call) rest := by
  have config : (limiter.after call).config = limiter.config := allowRequest_config ..
  have left := fit.serves.capped
  have cost : (0 : ℚ) ≤ TokenBucket.cost
      (limiter.allowRequest call.time call.clientIp call.endpoint call.method).2 := by
    unfold TokenBucket.cost
    split <;> norm_num
  have stamped : (limiter.after call).lastUpdate ≤ call.time := by
    have past := fit.serves.past
    simp only [bucket] at past
    exact_mod_cast past
  obtain ⟨later, ordered⟩ := List.pairwise_cons.mp (List.pairwise_cons.mp fit.clock).2
  refine ⟨by rw [config]; exact fit.enabled, ?_, ?_, ?_⟩
  · simp only [burst, config]
    exact (le_add_of_nonneg_right cost).trans left
  · exact List.pairwise_cons.mpr ⟨fun time member => stamped.trans (later time member), ordered⟩
  · intro next member
    rw [config]
    exact fit.metered next (List.mem_cons_of_mem _ member)

theorem paid (fit : Fit limiter calls) :
    TokenBucket.Paid (halved limiter.config) limiter.bucket (limiter.requests calls)
      (limiter.run calls).1.bucket := by
  induction calls generalizing limiter with
  | nil => exact .nil _
  | cons call rest ih =>
    have served := limiter.allowRequest_pays fit.enabled fit.exempts fit.here fit.capped
    have tail := ih fit.next
    have config : (limiter.after call).config = limiter.config := allowRequest_config ..
    rw [config] at tail
    exact .cons served tail

end Fit

theorem fit_fresh (enabled : config.enabled = true)
    (fresh : limiter = .ofConfig config start ∨
      ∃ old : RateLimiter, old.config = config ∧ limiter = old.reset start)
    (clock : (start :: calls.map RateCall.time).Pairwise (· ≤ ·))
    (metered : ∀ call ∈ calls,
      config.exempts call.clientIp call.endpoint call.method = false) :
    Fit limiter calls := by
  obtain ⟨rfl, full, rfl⟩ := fresh_start fresh
  exact ⟨enabled, full.le, clock, metered⟩

theorem requests_times (limiter : RateLimiter) (calls : List RateCall) :
    (limiter.requests calls).map (·.1) = times calls := by
  rw [requests, List.map_fst_zip]
  · rfl
  · simp [verdicts_length]

theorem requests_admissions (limiter : RateLimiter) (calls : List RateCall) :
    TokenBucket.admissions (limiter.requests calls) = (limiter.verdicts calls).count true := by
  rw [← requests_verdicts, List.count, List.countP_map]
  exact List.countP_congr (by simp)

theorem verdicts_take (limiter : RateLimiter) (calls : List RateCall) (k : Nat) :
    (limiter.verdicts calls).take k = limiter.verdicts (calls.take k) := by
  induction calls generalizing limiter k with
  | nil => simp [verdicts, run]
  | cons call rest ih =>
    cases k with
    | zero => rfl
    | succ k => simp only [verdicts_cons, List.take_succ_cons, ih]

theorem Fit.take (fit : Fit limiter calls) (k : Nat) : Fit limiter (calls.take k) where
  enabled := fit.enabled
  capped := fit.capped
  clock := by
    refine fit.clock.sublist (List.Sublist.cons_cons _ ?_)
    rw [List.map_take]
    exact List.take_sublist _ _
  metered call member := fit.metered call (List.mem_of_mem_take member)

theorem counts_above (fit : Fit limiter calls) (solvent : 0 ≤ limiter.tokens) :
    (limiter.verdicts calls).count true ≤
      ((policy limiter.config).above.verdicts limiter.lastUpdate limiter.tokens
        (times calls)).count true := by
  have run := limiter.requests_run fit.enabled fit.capped fit.clock fit.metered
  have bound := run.admissions_le_above solvent (policy_rate_nonneg _)
  rwa [requests_admissions, requests_times] at bound

theorem counts_below (fit : Fit limiter calls) :
    ((halved limiter.config).below.verdicts limiter.lastUpdate limiter.tokens
        (times calls)).count true ≤ (limiter.verdicts calls).count true := by
  have bound := fit.paid.below_le_admissions (div_nonneg (policy_rate_nonneg _) zero_le_two)
  rwa [requests_admissions, requests_times] at bound

/-- At every moment of a run the limiter has admitted at least as many calls as a continuously
refilled bucket of half the rate that keeps one millisecond in hand, and at most as many as one of
the full rate that holds one millisecond more. -/
theorem admissions_between (config : RateLimitConfig) (start : Int) (limiter : RateLimiter)
    (calls : List RateCall) (k : Nat) (enabled : config.enabled = true)
    (fresh : limiter = .ofConfig config start ∨
      ∃ old : RateLimiter, old.config = config ∧ limiter = old.reset start)
    (clock : (start :: calls.map RateCall.time).Pairwise (· ≤ ·))
    (metered : ∀ call ∈ calls,
      config.exempts call.clientIp call.endpoint call.method = false) :
    (((halved config).below.verdicts start config.burstSize.toNat (times calls)).take k).count true ≤
        ((limiter.verdicts calls).take k).count true ∧
      ((limiter.verdicts calls).take k).count true ≤
        (((policy config).above.verdicts start config.burstSize.toNat (times calls)).take k).count
          true := by
  have fit := (fit_fresh enabled fresh clock metered).take k
  obtain ⟨rfl, full, rfl⟩ := fresh_start fresh
  have prefixed : times (calls.take k) = (times calls).take k := List.map_take ..
  simp only [verdicts_take, Meter.verdicts_take, ← prefixed]
  have below := counts_below fit
  have above := counts_above fit (full ▸ Nat.cast_nonneg _)
  rw [full] at below above
  exact ⟨below, above⟩

/-- Three calls within half a second against a limit of ten per second. -/
theorem admissions_between_three :
    (((halved (.globalLimit 10 20)).below.verdicts 0 20 (times
          [⟨0, [], [], []⟩, ⟨900000, [], [], []⟩, ⟨500000000, [], [], []⟩])).take 2).count true ≤
        (((RateLimiter.ofConfig (.globalLimit 10 20) 0).verdicts
          [⟨0, [], [], []⟩, ⟨900000, [], [], []⟩, ⟨500000000, [], [], []⟩]).take 2).count true := by
  have between := admissions_between (.globalLimit 10 20) 0 (.ofConfig (.globalLimit 10 20) 0)
    [⟨0, [], [], []⟩, ⟨900000, [], [], []⟩, ⟨500000000, [], [], []⟩] 2 rfl (.inl rfl)
    (by decide) (by decide)
  simpa [RateLimitConfig.globalLimit] using between.1

/-- Readings that lie whole milliseconds apart from the stamp. -/
def Whole (limiter : RateLimiter) (calls : List RateCall) : Prop :=
  ∀ call ∈ calls, (1000000 : Int) ∣ call.time - limiter.lastUpdate

theorem tokensToAdd_whole (limiter : RateLimiter) (whole : 1000000 ∣ now - limiter.lastUpdate) :
    limiter.tokensToAdd now =
      (policy limiter.config).rate * ((now : ℚ) - limiter.lastUpdate) := by
  obtain ⟨count, exactly⟩ := whole
  have counted : durationMilliseconds (now - limiter.lastUpdate) = count := by
    rw [durationMilliseconds, exactly, Int.mul_tdiv_cancel_left _ (by norm_num)]
  have apart : (now : ℚ) - limiter.lastUpdate = 1000000 * count := by exact_mod_cast exactly
  rw [tokensToAdd, counted, apart]
  simp only [policy]
  ring

/-- A whole number of milliseconds is refilled in full, and the stamp is the reading itself. -/
theorem refill_whole (clock : limiter.lastUpdate ≤ now)
    (whole : 1000000 ∣ now - limiter.lastUpdate) (capped : limiter.tokens ≤ limiter.burst) :
    (limiter.refill now).tokens =
        (meter limiter.config).filled limiter.lastUpdate limiter.tokens now ∧
      (limiter.refill now).lastUpdate = now := by
  have added := limiter.tokensToAdd_whole whole
  by_cases elapsed : durationMilliseconds (now - limiter.lastUpdate) > 0
  · have shape : limiter.refill now = { limiter with
        tokens := min limiter.burst (limiter.tokens + limiter.tokensToAdd now)
        lastUpdate := now } := if_pos elapsed
    rw [shape]
    exact ⟨by rw [added]; rfl, rfl⟩
  · have shape : limiter.refill now = limiter := if_neg elapsed
    have same : limiter.lastUpdate = now := by
      have lag := milliseconds_zero _ (by omega) elapsed
      omega
    rw [shape, ← same, Meter.filled, sub_self, mul_zero, add_zero]
    exact ⟨(min_eq_right capped).symm, rfl⟩

theorem verdicts_whole (fit : Fit limiter calls) (whole : limiter.Whole calls) :
    limiter.verdicts calls =
      (meter limiter.config).verdicts limiter.lastUpdate limiter.tokens (times calls) := by
  induction calls generalizing limiter with
  | nil => rfl
  | cons call rest ih =>
    obtain ⟨tokens, stamp⟩ := refill_whole fit.here (whole call List.mem_cons_self) fit.capped
    have shape : limiter.allowRequest call.time call.clientIp call.endpoint call.method =
        (limiter.refill call.time).consume call.time :=
      allowRequest_metered fit.enabled fit.exempts
    have config : (limiter.after call).config = limiter.config := allowRequest_config ..
    have verdict : (limiter.allowRequest call.time call.clientIp call.endpoint call.method).2 =
        (meter limiter.config).admits limiter.lastUpdate limiter.tokens call.time := by
      rw [shape, Meter.admits, ← tokens, consume]
      split
      · rename_i enough
        exact (decide_eq_true enough).symm
      · rename_i short
        exact (decide_eq_false short).symm
    have stamped : (limiter.after call).lastUpdate = call.time := by
      rw [after, shape, consume_lastUpdate, stamp]
    have left : (limiter.after call).tokens =
        (meter limiter.config).remaining limiter.lastUpdate limiter.tokens call.time := by
      rw [Meter.remaining, ← verdict, ← tokens, after, shape, consume]
      split <;> simp [TokenBucket.cost]
    have later : (limiter.after call).Whole rest := by
      intro next member
      rw [stamped]
      have step := dvd_sub (whole next (List.mem_cons_of_mem _ member))
        (whole call List.mem_cons_self)
      rwa [sub_sub_sub_cancel_right] at step
    have tail := ih fit.next later
    rw [config, stamped, left] at tail
    rw [verdicts_cons, verdict]
    exact congrArg _ tail

theorem conforms_whole : (meter config).Conforms (times calls) ↔
    ∀ i j (_ : j < calls.length) (_ : i ≤ j), ((j - i + 1 : Nat) : ℚ) ≤
      config.burstSize.toNat + config.requestsPerSecond.toNat *
        ((calls[j].time - calls[i].time : ℚ) / 1000000000) := by
  have size : (times calls).length = calls.length := List.length_map _
  simp only [Meter.Conforms, size]
  refine forall₂_congr fun i j => forall_comm.trans (forall₂_congr fun within ordered => ?_)
  simp only [meter, policy, times, List.getElem_map, Nat.cast_add, Nat.cast_one, div_mul_eq_mul_div,
    mul_div_assoc]

/-- Read by a clock of whole milliseconds, the limiter gives the verdicts of the bucket refilled
continuously, and it rejects nothing exactly when every window of calls conforms. -/
theorem unrejected_iff_conforms (config : RateLimitConfig) (start : Int) (limiter : RateLimiter)
    (calls : List RateCall) (enabled : config.enabled = true)
    (fresh : limiter = .ofConfig config start ∨
      ∃ old : RateLimiter, old.config = config ∧ limiter = old.reset start)
    (clock : (start :: calls.map RateCall.time).Pairwise (· ≤ ·))
    (metered : ∀ call ∈ calls,
      config.exempts call.clientIp call.endpoint call.method = false)
    (whole : ∀ call ∈ calls, (1000000 : Int) ∣ call.time - start) :
    limiter.verdicts calls = (meter config).verdicts start config.burstSize.toNat (times calls) ∧
      ((∀ verdict ∈ limiter.verdicts calls, verdict = true) ↔
        ∀ i j (_ : j < calls.length) (_ : i ≤ j), ((j - i + 1 : Nat) : ℚ) ≤
          config.burstSize.toNat + config.requestsPerSecond.toNat *
            ((calls[j].time - calls[i].time : ℚ) / 1000000000)) := by
  have fit := fit_fresh enabled fresh clock metered
  obtain ⟨rfl, full, rfl⟩ := fresh_start fresh
  have same := verdicts_whole fit whole
  rw [full] at same
  refine ⟨same, ?_⟩
  rw [same, ← conforms_whole]
  refine Meter.verdicts_all_full (policy_rate_nonneg _) fun now member => ?_
  obtain ⟨call, called, rfl⟩ := List.mem_map.mp member
  exact_mod_cast (List.pairwise_cons.mp clock).1 _ (List.mem_map_of_mem called)

/-- One call, and two more after a tenth of a second. -/
theorem unrejected_iff_conforms_three :
    (RateLimiter.ofConfig (.globalLimit 10 1) 0).verdicts
          [⟨0, [], [], []⟩, ⟨100000000, [], [], []⟩, ⟨101000000, [], [], []⟩] =
        (meter (.globalLimit 10 1)).verdicts 0 1 (times
          [⟨0, [], [], []⟩, ⟨100000000, [], [], []⟩, ⟨101000000, [], [], []⟩]) := by
  have exact := unrejected_iff_conforms (.globalLimit 10 1) 0 (.ofConfig (.globalLimit 10 1) 0)
    [⟨0, [], [], []⟩, ⟨100000000, [], [], []⟩, ⟨101000000, [], [], []⟩] rfl (.inl rfl)
    (by decide) (by decide) (by decide)
  simpa [RateLimitConfig.globalLimit] using exact.1

theorem verdicts_exempt (limiter : RateLimiter) (calls : List RateCall) :
    (∀ verdict ∈ limiter.verdicts calls, verdict = true) ↔
      ∀ verdict ∈ limiter.verdicts (calls.filter fun call =>
        !limiter.config.exempts call.clientIp call.endpoint call.method), verdict = true := by
  induction calls generalizing limiter with
  | nil => rfl
  | cons call rest ih =>
    cases exempt : limiter.config.exempts call.clientIp call.endpoint call.method with
    | true =>
      rw [List.filter_cons_of_neg (by simp [exempt]), ← ih, verdicts_cons,
        allowRequest_exempt exempt, List.forall_mem_cons]
      exact and_iff_right rfl
    | false =>
      rw [List.filter_cons_of_pos (by simp [exempt]), verdicts_cons, verdicts_cons,
        List.forall_mem_cons, List.forall_mem_cons, ih, allowRequest_config]

/-- Callers are never rejected, whatever the whitelisted calls between theirs and whatever the
clock reads below the millisecond, if every window of theirs keeps to half the rate with the
refill of one millisecond in hand. -/
theorem conforming_never_rejected (config : RateLimitConfig) (start : Int) (limiter : RateLimiter)
    (calls callers : List RateCall) (enabled : config.enabled = true)
    (fresh : limiter = .ofConfig config start ∨
      ∃ old : RateLimiter, old.config = config ∧ limiter = old.reset start)
    (clock : (start :: calls.map RateCall.time).Pairwise (· ≤ ·))
    (metered : callers = calls.filter fun call =>
      !config.exempts call.clientIp call.endpoint call.method)
    (conforming : ∀ i j (_ : j < callers.length) (_ : i ≤ j),
      ((j - i + 1 : Nat) : ℚ) + config.requestsPerSecond.toNat / 2000 ≤
        config.burstSize.toNat + config.requestsPerSecond.toNat / 2 *
          ((callers[j].time - callers[i].time : ℚ) / 1000000000)) :
    ∀ verdict ∈ limiter.verdicts calls, verdict = true := by
  have kept : (start :: callers.map RateCall.time).Pairwise (· ≤ ·) := by
    refine clock.sublist (List.Sublist.cons_cons _ (List.Sublist.map _ ?_))
    rw [metered]
    exact List.filter_sublist
  have fit : Fit limiter callers := fit_fresh enabled fresh kept (by
    intro call member
    rw [metered, List.mem_filter] at member
    simpa using member.2)
  obtain ⟨rfl, full, rfl⟩ := fresh_start fresh
  have conforms : (halved limiter.config).below.Conforms (times callers) := by
    intro i j ordered within
    have window := conforming i j (by simpa [times] using within) ordered
    simp only [halved, policy, TokenBucket.Policy.below, times, List.getElem_map]
    push_cast at window
    linarith only [window]
  have granted : ∀ verdict ∈ (halved limiter.config).below.verdicts limiter.lastUpdate
      limiter.tokens (times callers), verdict = true := by
    rw [full]
    refine (Meter.verdicts_all_full (div_nonneg (policy_rate_nonneg _) zero_le_two) ?_).mpr conforms
    intro now member
    obtain ⟨call, called, rfl⟩ := List.mem_map.mp member
    exact_mod_cast (List.pairwise_cons.mp kept).1 _ (List.mem_map_of_mem called)
  have all : callers.length ≤ (limiter.verdicts callers).count true := by
    have below := counts_below fit
    rwa [List.count_eq_length.mpr fun verdict member => (granted verdict member).symm,
      Meter.verdicts_length, times, List.length_map] at below
  rw [verdicts_exempt, ← metered]
  intro verdict member
  have counted : (limiter.verdicts callers).count true = (limiter.verdicts callers).length :=
    le_antisymm List.count_le_length (by rwa [verdicts_length])
  exact (List.count_eq_length.mp counted verdict member).symm

/-- Ten calls a second against a limit of fifty, with a whitelisted one between them. -/
theorem conforming_never_rejected_three :
    ((RateLimiter.ofConfig { RateLimitConfig.globalLimit 50 2 with
          methodWhitelist := [[80]] } 0).verdicts
        [⟨0, [], [], []⟩, ⟨40000007, [], [], [80]⟩, ⟨100999999, [], [], []⟩]).all id = true := by
  refine List.all_eq_true.mpr ?_
  exact conforming_never_rejected { RateLimitConfig.globalLimit 50 2 with methodWhitelist := [[80]] } 0
    _ _ [⟨0, [], [], []⟩, ⟨100999999, [], [], []⟩] rfl (.inl rfl) (by decide) (by decide) (by
      intro i j within ordered
      have small : j < 2 := within
      obtain ⟨rfl, rfl⟩ | ⟨rfl, rfl⟩ | ⟨rfl, rfl⟩ :
          i = 0 ∧ j = 0 ∨ i = 0 ∧ j = 1 ∨ i = 1 ∧ j = 1 := by omega
      all_goals norm_num [RateLimitConfig.globalLimit, show UInt32.toNat 50 = 50 from rfl,
        show UInt32.toNat 2 = 2 from rfl])

end Hku.RateLimiter
