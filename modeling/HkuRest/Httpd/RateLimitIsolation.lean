import HkuRest.Httpd.RateLimit
import Mathlib.Algebra.Order.Archimedean.Basic
import Mathlib.Tactic.Linarith
import Mathlib.Tactic.NormNum

/-! One bucket serves every client: `perIp` is stored and never read. Two clients
are isolated from each other exactly when at most one of them draws on the bucket
or the bucket can never hold a token. -/
namespace Hku.RateLimiter

/-- The verdicts given to one client in a run. -/
def verdictsOf (client : Bytes) : RateLimiter → List RateCall → List Bool
  | _, [] => []
  | limiter, call :: rest =>
    let served := limiter.allowRequest call.time call.clientIp call.endpoint call.method
    if call.clientIp = client then served.2 :: verdictsOf client served.1 rest
    else verdictsOf client served.1 rest

def callsOf (client : Bytes) (calls : List RateCall) : List RateCall :=
  calls.filter (·.clientIp = client)

/-- Removing the other client's requests leaves every verdict as it was. -/
def Isolated (limiter : RateLimiter) (a b : Bytes) : Prop :=
  ∀ calls : List RateCall, (∀ call ∈ calls, call.clientIp = a ∨ call.clientIp = b) →
    (limiter.lastUpdate :: calls.map RateCall.time).Pairwise (· ≤ ·) →
    limiter.verdictsOf a calls = limiter.verdictsOf a (callsOf a calls)

/-- The client's address is on the whitelist, so it never reaches the bucket. -/
def ExemptIp (config : RateLimitConfig) (client : Bytes) : Prop :=
  client ≠ [] ∧ client ∈ config.ipWhitelist

/-- No refill ever brings the bucket up to one token. -/
def Starved (limiter : RateLimiter) : Prop :=
  limiter.tokens < 1 ∧ (limiter.config.burstSize = 0 ∨ limiter.config.requestsPerSecond = 0)

section
variable {config : RateLimitConfig} {client endpoint method : Bytes}

theorem exempts_of_ip (exempt : ExemptIp config client) :
    config.exempts client endpoint method = true := by
  obtain ⟨named, listed⟩ := exempt
  simp [RateLimitConfig.exempts, RateLimitConfig.isIpWhitelisted, named, listed]

theorem exempts_bare : config.exempts client [] [] = true ↔ ExemptIp config client := by
  simp [RateLimitConfig.exempts, RateLimitConfig.isIpWhitelisted, ExemptIp]

end

theorem callsOf_idem (client : Bytes) (calls : List RateCall) :
    callsOf client (callsOf client calls) = callsOf client calls := by
  simp [callsOf, List.filter_filter]

theorem verdictsOf_fixed (answer : RateCall → Bool) (ready : RateLimiter → Prop)
    (kept : ∀ limiter (call : RateCall), ready limiter →
      ready (limiter.allowRequest call.time call.clientIp call.endpoint call.method).1)
    (told : ∀ limiter (call : RateCall), ready limiter → call.clientIp = client →
      (limiter.allowRequest call.time call.clientIp call.endpoint call.method).2 = answer call)
    (limiter : RateLimiter) (start : ready limiter) (calls : List RateCall) :
    limiter.verdictsOf client calls = (callsOf client calls).map answer := by
  induction calls generalizing limiter with
  | nil => rfl
  | cons call rest ih =>
    have tail := ih _ (kept limiter call start)
    by_cases own : call.clientIp = client
    · have filtered : callsOf client (call :: rest) = call :: callsOf client rest := by
        simp [callsOf, own]
      rw [verdictsOf, if_pos own, filtered, List.map_cons, told limiter call start own, tail]
    · have filtered : callsOf client (call :: rest) = callsOf client rest := by
        simp [callsOf, own]
      rw [verdictsOf, if_neg own, filtered, tail]

theorem isolated_of_fixed (answer : RateCall → Bool) (ready : RateLimiter → Prop)
    (kept : ∀ limiter (call : RateCall), ready limiter →
      ready (limiter.allowRequest call.time call.clientIp call.endpoint call.method).1)
    (told : ∀ limiter (call : RateCall), ready limiter → call.clientIp = a →
      (limiter.allowRequest call.time call.clientIp call.endpoint call.method).2 = answer call)
    (limiter : RateLimiter) (start : ready limiter) : Isolated limiter a b := by
  intro calls _ _
  rw [verdictsOf_fixed answer ready kept told limiter start,
    verdictsOf_fixed answer ready kept told limiter start, callsOf_idem]

theorem isolated_of_disabled (limiter : RateLimiter) (disabled : limiter.config.enabled = false) :
    Isolated limiter a b := by
  refine isolated_of_fixed (fun _ => true) (fun l => l.config.enabled = false) ?_ ?_ limiter disabled
  · intro l call off
    rw [allowRequest_disabled off]
    exact off
  · intro l call off _
    rw [allowRequest_disabled off]

theorem isolated_of_exempt_first (limiter : RateLimiter) (exempt : ExemptIp limiter.config a) :
    Isolated limiter a b := by
  refine isolated_of_fixed (fun _ => true) (fun l => ExemptIp l.config a) ?_ ?_ limiter exempt
  · intro l call listed
    rw [allowRequest_config]
    exact listed
  · intro l call listed own
    rw [allowRequest_exempt (exempts_of_ip (own ▸ listed))]

theorem isolated_of_exempt_second (limiter : RateLimiter) (distinct : a ≠ b)
    (exempt : ExemptIp limiter.config b) : Isolated limiter a b := by
  intro calls between clock
  clear clock
  induction calls generalizing limiter with
  | nil => rfl
  | cons call rest ih =>
    have others : ∀ call ∈ rest, call.clientIp = a ∨ call.clientIp = b :=
      fun next member => between next (List.mem_cons_of_mem _ member)
    rcases between call List.mem_cons_self with own | other
    · have filtered : callsOf a (call :: rest) = call :: callsOf a rest := by simp [callsOf, own]
      have tail := ih (limiter.allowRequest call.time call.clientIp call.endpoint call.method).1
        (by rw [allowRequest_config]; exact exempt) others
      rw [filtered, verdictsOf, verdictsOf, if_pos own, if_pos own, tail]
    · have foreign : call.clientIp ≠ a := fun own => distinct (own.symm.trans other)
      have filtered : callsOf a (call :: rest) = callsOf a rest := by simp [callsOf, foreign]
      rw [filtered, verdictsOf, if_neg foreign, allowRequest_exempt (exempts_of_ip (other ▸ exempt))]
      exact ih limiter exempt others

theorem refill_starved (limiter : RateLimiter) (now : Int) (starved : Starved limiter) :
    (limiter.refill now).tokens < 1 := by
  obtain ⟨short, dry⟩ := starved
  unfold refill
  split
  · rcases dry with noBurst | noRate
    · have empty : limiter.burst = 0 := by simp [burst, noBurst]
      exact (min_le_left _ _).trans_lt (by rw [empty]; norm_num)
    · have nothing : limiter.tokensToAdd now = 0 := by simp [tokensToAdd, noRate]
      exact (min_le_right _ _).trans_lt (by rw [nothing]; linarith only [short])
  · exact short

theorem consume_short (limiter : RateLimiter) (now : Int) (short : limiter.tokens < 1) :
    (limiter.consume now).2 = false ∧ (limiter.consume now).1.tokens = limiter.tokens := by
  unfold consume
  rw [if_neg (not_le.mpr short)]
  exact ⟨rfl, rfl⟩

theorem allowRequest_starved (limiter : RateLimiter) (enabled : limiter.config.enabled = true)
    (starved : Starved limiter) :
    Starved (limiter.allowRequest now ip endpoint method).1 ∧
      (limiter.allowRequest now ip endpoint method).2 =
        limiter.config.exempts ip endpoint method := by
  cases listed : limiter.config.exempts ip endpoint method with
  | true =>
    rw [allowRequest_exempt listed]
    exact ⟨starved, rfl⟩
  | false =>
    obtain ⟨refused, same⟩ := consume_short _ now (refill_starved limiter now starved)
    rw [allowRequest_metered enabled listed]
    refine ⟨⟨?_, ?_⟩, refused⟩
    · rw [same]
      exact refill_starved limiter _ starved
    · simpa only [consume_config, refill_config] using starved.2

theorem isolated_of_starved (limiter : RateLimiter) (enabled : limiter.config.enabled = true)
    (starved : Starved limiter) : Isolated limiter a b := by
  refine isolated_of_fixed
    (fun call => limiter.config.exempts call.clientIp call.endpoint call.method)
    (fun l => l.config = limiter.config ∧ Starved l) ?_ ?_ limiter ⟨rfl, starved⟩
  · rintro l call ⟨same, dry⟩
    exact ⟨by rw [allowRequest_config, same],
      (allowRequest_starved l (by rw [same]; exact enabled) dry).1⟩
  · rintro l call ⟨same, dry⟩ _
    rw [(allowRequest_starved l (by rw [same]; exact enabled) dry).2, same]

theorem refill_settled (limiter : RateLimiter) (now : Int) :
    (limiter.refill now).refill now = limiter.refill now := by
  by_cases elapsed : durationMilliseconds (now - limiter.lastUpdate) > 0
  · have shape : limiter.refill now = { limiter with
        tokens := min limiter.burst (limiter.tokens + limiter.tokensToAdd now)
        lastUpdate := now } := if_pos elapsed
    rw [shape, refill, if_neg]
    simp [durationMilliseconds]
  · have shape : limiter.refill now = limiter := if_neg elapsed
    rw [shape, shape]

theorem consume_settled (limiter : RateLimiter) (settled : limiter.refill now = limiter) :
    (limiter.consume now).1.refill now = (limiter.consume now).1 := by
  by_cases elapsed : durationMilliseconds (now - limiter.lastUpdate) > 0
  · -- a settled limiter has its stamp at `now`, so no time has elapsed
    have stamped : limiter.lastUpdate = now := by
      have moved := congrArg lastUpdate settled
      rw [refill, if_pos elapsed] at moved
      exact moved.symm
    rw [stamped, sub_self] at elapsed
    simp [durationMilliseconds] at elapsed
  · rw [refill, if_neg]
    rw [consume_lastUpdate]
    exact elapsed

theorem consume_tokens (limiter : RateLimiter) :
    (limiter.consume now).1.tokens = if limiter.tokens ≥ 1 then limiter.tokens - 1 else limiter.tokens := by
  unfold consume
  split <;> rfl

theorem consume_verdict (limiter : RateLimiter) :
    (limiter.consume now).2 = decide (limiter.tokens ≥ 1) := by
  unfold consume
  split
  · rename_i enough
    exact (decide_eq_true enough).symm
  · rename_i short
    exact (decide_eq_false short).symm

/-- A burst of bare requests at one instant. -/
def bare (now : Int) (client : Bytes) : RateCall := ⟨now, client, [], []⟩

theorem drain (limiter : RateLimiter) (client : Bytes) (enabled : limiter.config.enabled = true)
    (metered : limiter.config.exempts client [] [] = false) (settled : limiter.refill now = limiter)
    (n : Nat) (bounded : limiter.tokens < n + 1) :
    (limiter.run (List.replicate n (bare now client))).1.tokens < 1 ∧
      (limiter.run (List.replicate n (bare now client))).1.refill now =
        (limiter.run (List.replicate n (bare now client))).1 ∧
      (limiter.run (List.replicate n (bare now client))).1.config = limiter.config := by
  induction n generalizing limiter with
  | zero =>
    refine ⟨?_, settled, rfl⟩
    simpa [run] using bounded
  | succ n ih =>
    have served : limiter.allowRequest now client [] [] = limiter.consume now := by
      rw [allowRequest_metered enabled metered, settled]
    have next := ih (limiter.consume now).1 (by rw [consume_config]; exact enabled)
      (by rw [consume_config]; exact metered) (consume_settled limiter settled) (by
        rw [consume_tokens]
        push_cast at bounded
        split
        · linarith only [bounded]
        · rename_i short
          have small := not_le.mp short
          have count : (0 : ℚ) ≤ n := Nat.cast_nonneg n
          linarith only [small, count])
    simp only [List.replicate_succ, run, bare]
    rw [served]
    exact ⟨next.1, next.2.1, next.2.2.trans (consume_config now limiter)⟩

theorem flood (limiter : RateLimiter) (enabled : limiter.config.enabled = true)
    (metered : limiter.config.exempts client [] [] = false) (n : Nat)
    (bounded : (limiter.refill now).tokens < n) :
    (limiter.run (List.replicate (n + 1) (bare now client))).1.tokens < 1 ∧
      (limiter.run (List.replicate (n + 1) (bare now client))).1.refill now =
        (limiter.run (List.replicate (n + 1) (bare now client))).1 ∧
      (limiter.run (List.replicate (n + 1) (bare now client))).1.config = limiter.config := by
  have settled := limiter.refill_settled now
  have same : (limiter.run (List.replicate (n + 1) (bare now client))).1 =
      ((limiter.refill now).run (List.replicate (n + 1) (bare now client))).1 := by
    simp only [List.replicate_succ, run, bare]
    have again : (limiter.refill now).allowRequest now client [] [] =
        ((limiter.refill now).refill now).consume now :=
      allowRequest_metered (by simpa using enabled) (by simpa using metered)
    rw [allowRequest_metered enabled metered, again, settled]
  have emptied := (limiter.refill now).drain client (by simpa using enabled)
    (by simpa using metered) settled (n + 1) (by push_cast; linarith only [bounded])
  rw [same]
  exact ⟨emptied.1, emptied.2.1, emptied.2.2.trans (refill_config now limiter)⟩

theorem verdictsOf_bare (limiter : RateLimiter) (enabled : limiter.config.enabled = true)
    (metered : limiter.config.exempts client [] [] = false) :
    limiter.verdictsOf client [bare now client] = [decide ((limiter.refill now).tokens ≥ 1)] := by
  simp only [verdictsOf, bare, if_true]
  rw [allowRequest_metered enabled metered, consume_verdict]

theorem verdictsOf_append (limiter : RateLimiter) (left right : List RateCall) :
    limiter.verdictsOf client (left ++ right) =
      limiter.verdictsOf client left ++ (limiter.run left).1.verdictsOf client right := by
  induction left generalizing limiter with
  | nil => rfl
  | cons call rest ih =>
    simp only [List.cons_append, verdictsOf, run]
    split <;> simp [ih]

theorem verdictsOf_foreign (limiter : RateLimiter) (calls : List RateCall)
    (foreign : ∀ call ∈ calls, call.clientIp ≠ client) : limiter.verdictsOf client calls = [] := by
  induction calls generalizing limiter with
  | nil => rfl
  | cons call rest ih =>
    obtain ⟨other, others⟩ := List.forall_mem_cons.mp foreign
    rw [verdictsOf, if_neg other]
    exact ih _ others

theorem refill_available (limiter : RateLimiter) (fed : ¬ Starved limiter) :
    ∃ now, limiter.lastUpdate ≤ now ∧ (limiter.refill now).tokens ≥ 1 := by
  by_cases available : limiter.tokens ≥ 1
  · refine ⟨limiter.lastUpdate, le_refl _, ?_⟩
    rw [refill, if_neg (by simp [durationMilliseconds])]
    exact available
  · have short : limiter.tokens < 1 := not_le.mp available
    have sources : limiter.config.burstSize ≠ 0 ∧ limiter.config.requestsPerSecond ≠ 0 := by
      by_contra lacking
      exact fed ⟨short, by tauto⟩
    have room : (1 : ℚ) ≤ limiter.config.burstSize.toNat := by
      have positive : 0 < limiter.config.burstSize.toNat :=
        Nat.pos_of_ne_zero fun zero => sources.1 (UInt32.toNat_inj.mp zero)
      exact_mod_cast positive
    have rate : (1 : ℚ) ≤ limiter.config.requestsPerSecond.toNat := by
      have positive : 0 < limiter.config.requestsPerSecond.toNat :=
        Nat.pos_of_ne_zero fun zero => sources.2 (UInt32.toNat_inj.mp zero)
      exact_mod_cast positive
    -- wait for as many seconds as tokens are missing
    obtain ⟨seconds, enough⟩ := exists_nat_ge (1 - limiter.tokens)
    have positive : 0 < seconds := by
      have gap : (0 : ℚ) < seconds := by linarith only [short, enough]
      exact_mod_cast gap
    refine ⟨limiter.lastUpdate + seconds * 1000000000, by omega, ?_⟩
    have whole : durationMilliseconds
        (limiter.lastUpdate + seconds * 1000000000 - limiter.lastUpdate) = seconds * 1000 := by
      simp only [durationMilliseconds, add_sub_cancel_left]
      rw [Int.tdiv_eq_ediv_of_nonneg (by omega)]
      omega
    rw [refill, if_pos (by rw [whole]; omega)]
    apply le_min room
    have earned : limiter.tokensToAdd (limiter.lastUpdate + seconds * 1000000000) =
        seconds * limiter.config.requestsPerSecond.toNat := by
      rw [tokensToAdd, whole]
      push_cast
      ring
    have least : (seconds : ℚ) ≤ seconds * limiter.config.requestsPerSecond.toNat :=
      le_mul_of_one_le_right (Nat.cast_nonneg _) rate
    rw [earned]
    linarith only [enough, least]

/-- Two clients that both draw on a bucket that can hold a token: a burst of the
second takes the token the first would have got. -/
theorem not_isolated (limiter : RateLimiter) (distinct : a ≠ b)
    (enabled : limiter.config.enabled = true)
    (first : ¬ ExemptIp limiter.config a) (second : ¬ ExemptIp limiter.config b)
    (fed : ¬ Starved limiter) : ¬ Isolated limiter a b := by
  intro isolated
  obtain ⟨now, later, available⟩ := limiter.refill_available fed
  obtain ⟨n, large⟩ := exists_nat_gt (limiter.refill now).tokens
  have meteredA : limiter.config.exempts a [] [] = false :=
    Bool.eq_false_iff.mpr fun listed => first (exempts_bare.mp listed)
  have meteredB : limiter.config.exempts b [] [] = false :=
    Bool.eq_false_iff.mpr fun listed => second (exempts_bare.mp listed)
  have alone : limiter.verdictsOf a [bare now a] = [true] := by
    rw [verdictsOf_bare limiter enabled meteredA, decide_eq_true available]
  have crowded : limiter.verdictsOf a (List.replicate (n + 1) (bare now b) ++ [bare now a]) =
      [false] := by
    obtain ⟨short, settled, config⟩ := limiter.flood enabled meteredB n large
    rw [verdictsOf_append, verdictsOf_foreign _ _ (by
        intro call member
        rw [List.eq_of_mem_replicate member]
        exact distinct.symm),
      verdictsOf_bare _ (by rw [config]; exact enabled) (by rw [config]; exact meteredA),
      settled, decide_eq_false (not_le.mpr short)]
    rfl
  have owned : callsOf a (List.replicate (n + 1) (bare now b) ++ [bare now a]) = [bare now a] := by
    simp [callsOf, bare, distinct.symm]
  have equal := isolated (List.replicate (n + 1) (bare now b) ++ [bare now a])
    (by
      intro call member
      rcases List.mem_append.mp member with other | own
      · exact .inr (by rw [List.eq_of_mem_replicate other, bare])
      · exact .inl (by rw [List.mem_singleton.mp own, bare]))
    (by
      refine List.pairwise_cons.mpr ⟨?_, ?_⟩
      · intro time member
        obtain ⟨call, called, rfl⟩ := List.mem_map.mp member
        rcases List.mem_append.mp called with other | own
        · rw [List.eq_of_mem_replicate other]
          exact later
        · rw [List.mem_singleton.mp own]
          exact later
      · have flat : (List.replicate (n + 1) (bare now b) ++ [bare now a]).map RateCall.time =
            List.replicate (n + 2) now := by
          rw [List.replicate_succ' (n := n + 1)]
          simp [bare]
        rw [flat]
        exact List.pairwise_replicate.mpr (.inr (le_refl now)))
  rw [crowded, owned, alone] at equal
  cases equal

/-- The exact extent of the isolation of two clients, whatever `perIp` says. -/
theorem isolated_iff (limiter : RateLimiter) (a b : Bytes) (distinct : a ≠ b) :
    Isolated limiter a b ↔
      limiter.config.enabled = false ∨ ExemptIp limiter.config a ∨ ExemptIp limiter.config b ∨
        Starved limiter := by
  constructor
  · intro isolated
    by_contra none
    simp only [not_or] at none
    obtain ⟨enabled, first, second, fed⟩ := none
    exact not_isolated limiter distinct (Bool.not_eq_false _ ▸ enabled) first second fed isolated
  · rintro (disabled | first | second | starved)
    · exact isolated_of_disabled limiter disabled
    · exact isolated_of_exempt_first limiter first
    · exact isolated_of_exempt_second limiter distinct second
    · by_cases enabled : limiter.config.enabled = true
      · exact isolated_of_starved limiter enabled starved
      · exact isolated_of_disabled limiter (Bool.eq_false_iff.mpr enabled)

theorem isolated_iff_default :
    Isolated (.ofConfig (.perIpLimit 5 10) 0) (Bytes.ascii "10.0.0.1") (Bytes.ascii "10.0.0.2") ↔
      (RateLimitConfig.perIpLimit 5 10).enabled = false ∨
        ExemptIp (.perIpLimit 5 10) (Bytes.ascii "10.0.0.1") ∨
        ExemptIp (.perIpLimit 5 10) (Bytes.ascii "10.0.0.2") ∨
        Starved (.ofConfig (.perIpLimit 5 10) 0) :=
  isolated_iff (.ofConfig (.perIpLimit 5 10) 0) _ _ (by decide)

/-- With a burst of one, a single request of `10.0.0.2` makes the limiter refuse
the request of `10.0.0.1` that it would have admitted. -/
theorem per_ip_not_isolated :
    (RateLimitConfig.perIpLimit 1 1).perIp = true ∧
      ¬ Isolated (.ofConfig (.perIpLimit 1 1) 0) (Bytes.ascii "10.0.0.1") (Bytes.ascii "10.0.0.2") := by
  refine ⟨rfl, ?_⟩
  intro isolated
  have equal := isolated [bare 0 (Bytes.ascii "10.0.0.2"), bare 0 (Bytes.ascii "10.0.0.1")]
    (by decide) (by decide)
  revert equal
  decide +kernel

end Hku.RateLimiter
