import HkuRest.Httpd.ChunkedWrites

/-! When `readLoop` reads another request. A request that a handler has answered is counted,
and asked whether it keeps the connection alive; one that the rate limiter has turned away is
neither. -/

namespace Hku.Connection

variable {Network : Type} {server : HttpServer}
  {read : Network → Bytes → Option (Request × Bytes × Network)} {circumstances : Nat → Circumstances}
  {now : Circumstances} {index fuel i : Nat} {connection : Connection} {network : Network}
  {request : Request} {turn : Turn Network}

/-- The turn with this number has read this request. -/
structure TurnReads (server : HttpServer) (read : Network → Bytes → Option (Request × Bytes × Network))
    (circumstances : Nat → Circumstances) (fuel index : Nat) (connection : Connection)
    (network : Network) (i : Nat) (turn : Turn Network) (request : Request) : Prop where
  reached : (readLoop server read circumstances fuel index connection network)[i]? = some turn
  requested : turn.request = some request

/-- What a turn after which the loop goes on does to the count. -/
inductive Counts (server : HttpServer) (now : Circumstances) (before after : Connection)
    (request : Request) : Prop
  | rejected (action : server.action now.admitted request = .rejectRate)
      (count : after.requestCount = before.requestCount)
  | handled (action : server.action now.admitted request = .dispatch)
      (count : after.requestCount = before.requestCount + 1)
      (below : after.requestCount < HttpConfig.maxKeepaliveRequests)
      (keeps : request.keepAlive = true)

theorem turn_counts
    (requested : (Connection.turn server read now index connection network).request = some request)
    (stays : (Connection.turn server read now index connection network).continues = true) :
    Counts server now connection (Connection.turn server read now index connection network).connection
      request := by
  obtain ⟨buffer, rest, _, answered⟩ := turn_answer requested
  rw [answered] at stays ⊢
  cases action : server.action now.admitted request with
  | rejectHttp2 | upgrade => simp [answer, action] at stays
  | rejectRate => exact .rejected action (by simp [answer, action])
  | dispatch =>
    obtain ⟨_, keeps⟩ := processHandle_context server connection.ssl now.sendOk index now.admitted
      (connection.received request buffer) action
    have same : (connection.received request buffer).req.keepAlive = request.keepAlive := rfl
    simp only [answer, action, writeResponse_context, keeps, same, Bool.and_eq_true,
      decide_eq_true_eq] at stays
    obtain ⟨⟨delivered, below⟩, alive⟩ := stays
    rw [if_pos delivered] at below
    have count : (answer server now index connection request buffer rest).connection.requestCount =
        connection.requestCount + 1 := by
      simp [answer, action, delivered]
    exact .handled action count (count ▸ below) alive

/-- When writes succeed, the loop goes on after a rejection, and after a request that has
been handled if count and request allow it. -/
theorem turn_stays (ok : ∀ n, now.sendOk n = true)
    (requested : (Connection.turn server read now index connection network).request = some request)
    (allowed : server.action now.admitted request = .rejectRate ∨
      server.action now.admitted request = .dispatch ∧
        connection.requestCount + 1 < HttpConfig.maxKeepaliveRequests ∧ request.keepAlive = true) :
    (Connection.turn server read now index connection network).continues = true := by
  obtain ⟨buffer, rest, _, answered⟩ := turn_answer requested
  rw [answered]
  rcases allowed with action | ⟨action, below, alive⟩
  · simp [answer, action, writeResponse_delivered ok]
  · obtain ⟨_, keeps⟩ := processHandle_context server connection.ssl now.sendOk index now.admitted
      (connection.received request buffer) action
    have same : (connection.received request buffer).req.keepAlive = true := alive
    simp [answer, action, writeResponse_context, writeResponse_delivered ok, keeps, same, below]

/-- None of the first turns has been turned away by the rate limiter. -/
def NoneRejected (server : HttpServer) (read : Network → Bytes → Option (Request × Bytes × Network))
    (circumstances : Nat → Circumstances) (fuel index : Nat) (connection : Connection)
    (network : Network) (i : Nat) : Prop :=
  ∀ j < i, ∀ turn request, TurnReads server read circumstances fuel index connection network j turn
    request → server.action (circumstances (index + j)).admitted request ≠ .rejectRate

theorem readLoop_tail
    (stays : (Connection.turn server read (circumstances index) index connection network).continues =
      true) (j : Nat) :
    (readLoop server read circumstances (fuel + 1) index connection network)[j + 1]? =
      (readLoop server read circumstances fuel (index + 1)
        (Connection.turn server read (circumstances index) index connection network).connection
        (Connection.turn server read (circumstances index) index connection network).network)[j]? := by
  simp only [readLoop_cons, stays, if_true, List.getElem?_cons_succ]

theorem noneRejected_succ
    (stays : (Connection.turn server read (circumstances index) index connection network).continues =
      true)
    (requested : (Connection.turn server read (circumstances index) index connection network).request =
      some request) :
    NoneRejected server read circumstances (fuel + 1) index connection network (i + 1) ↔
      server.action (circumstances index).admitted request ≠ .rejectRate ∧
        NoneRejected server read circumstances fuel (index + 1)
          (Connection.turn server read (circumstances index) index connection network).connection
          (Connection.turn server read (circumstances index) index connection network).network i := by
  constructor
  · intro none
    constructor
    · exact none 0 (Nat.succ_pos i) _ request ⟨by simp [readLoop_cons], requested⟩
    · intro j below turn other reads
      have shifted : index + 1 + j = index + (j + 1) := by omega
      rw [shifted]
      refine none (j + 1) (by omega) turn other ⟨?_, reads.requested⟩
      rw [readLoop_tail stays]
      exact reads.reached
  · rintro ⟨first, rest⟩ j below turn other reads
    cases j with
    | zero =>
      obtain rfl := readLoop_zero reads.reached
      obtain rfl := Option.some.inj (requested.symm.trans reads.requested)
      exact first
    | succ j =>
      have shifted : index + (j + 1) = index + 1 + j := by omega
      rw [shifted]
      refine rest j (by omega) turn other ⟨?_, reads.requested⟩
      rw [← readLoop_tail stays]
      exact reads.reached

theorem readLoop_count
    (reached : (readLoop server read circumstances fuel index connection network)[i]? = some turn) :
    ∃ earlier remaining, turn =
        Connection.turn server read (circumstances (index + i)) (index + i) earlier remaining ∧
      earlier.requestCount ≤ connection.requestCount + i ∧
      (earlier.requestCount = connection.requestCount + i ↔
        NoneRejected server read circumstances fuel index connection network i) := by
  induction i generalizing fuel index connection network with
  | zero =>
    refine ⟨connection, network, readLoop_zero reached, Nat.le_refl _, ?_⟩
    simp [NoneRejected]
  | succ i ih =>
    cases fuel with
    | zero => simp [readLoop] at reached
    | succ fuel =>
      obtain ⟨stays, _⟩ := readLoop_succ reached
      obtain ⟨request, requested, _⟩ := turn_continues stays
      rw [readLoop_tail stays] at reached
      obtain ⟨earlier, remaining, started, bound, counted⟩ := ih reached
      have shifted : index + (i + 1) = index + 1 + i := by omega
      rw [noneRejected_succ stays requested, ← counted, shifted]
      refine ⟨earlier, remaining, started, ?_⟩
      cases turn_counts requested stays with
      | rejected action count =>
        rw [count] at bound ⊢
        refine ⟨by omega, ?_⟩
        simp only [action, ne_eq, not_true_eq_false, false_and, iff_false]
        omega
      | handled action count _ _ =>
        rw [count] at bound ⊢
        refine ⟨by omega, ?_⟩
        simp only [action, ne_eq, reduceCtorEq, not_false_eq_true, true_and]
        omega

theorem readLoop_previous
    (reached : (readLoop server read circumstances fuel index connection network)[i + 1]? = some turn) :
    ∃ previous request, TurnReads server read circumstances fuel index connection network i previous
      request ∧ previous.continues = true := by
  induction i generalizing fuel index connection network with
  | zero =>
    cases fuel with
    | zero => simp [readLoop] at reached
    | succ fuel =>
      obtain ⟨stays, _⟩ := readLoop_succ reached
      obtain ⟨request, requested, _⟩ := turn_continues stays
      exact ⟨_, request, ⟨by simp [readLoop_cons], requested⟩, stays⟩
  | succ i ih =>
    cases fuel with
    | zero => simp [readLoop] at reached
    | succ fuel =>
      obtain ⟨stays, _⟩ := readLoop_succ reached
      rw [readLoop_tail stays] at reached
      obtain ⟨previous, request, reads, goes⟩ := ih reached
      exact ⟨previous, request, ⟨(readLoop_tail stays i).trans reads.reached, reads.requested⟩, goes⟩

section

variable (server : HttpServer) (read : Network → Bytes → Option (Request × Bytes × Network))
  (circumstances : Nat → Circumstances) (ssl : Bool) (fuel : Nat) (network : Network)

/-- Another request is read only after one that keeps the connection alive, and while fewer
requests than the limit have been answered. -/
def ReadsOnProperly : Prop :=
  ∀ i turn request, TurnReads server read circumstances fuel 0 (.create ssl) network i turn request →
    turn.continues = true → request.keepAlive = true ∧ i + 1 < HttpConfig.maxKeepaliveRequests

/-- A rejected request keeps the connection alive and is below the limit; and if a handled one
that keeps it alive is at the limit, none before it has been rejected. -/
structure RejectsProperly : Prop where
  rejected : ∀ i turn request,
    TurnReads server read circumstances fuel 0 (.create ssl) network i turn request →
    server.action (circumstances i).admitted request = .rejectRate →
      request.keepAlive = true ∧ i + 1 < HttpConfig.maxKeepaliveRequests
  handled : ∀ i turn request,
    TurnReads server read circumstances fuel 0 (.create ssl) network i turn request →
    server.action (circumstances i).admitted request = .dispatch → request.keepAlive = true →
    HttpConfig.maxKeepaliveRequests ≤ i + 1 →
      NoneRejected server read circumstances fuel 0 (.create ssl) network i

end

theorem readsOn_of_rejects {ssl : Bool}
    (rejects : RejectsProperly server read circumstances ssl fuel network) :
    ReadsOnProperly server read circumstances ssl fuel network := by
  intro i turn request reads stays
  obtain ⟨earlier, remaining, started, _, counted⟩ := readLoop_count reads.reached
  have requested := reads.requested
  rw [started] at stays requested
  rw [Nat.zero_add] at stays requested
  have fresh : (create ssl).requestCount = 0 := rfl
  rw [fresh, Nat.zero_add] at counted
  cases turn_counts requested stays with
  | rejected action _ => exact rejects.rejected i turn request reads action
  | handled action count below keeps =>
    refine ⟨keeps, ?_⟩
    by_contra limit
    have all := counted.mpr (rejects.handled i turn request reads action keeps (by omega))
    omega

theorem rejects_of_readsOn {ssl : Bool} (ok : ∀ turn n, (circumstances turn).sendOk n = true)
    (readsOn : ReadsOnProperly server read circumstances ssl fuel network) :
    RejectsProperly server read circumstances ssl fuel network := by
  constructor
  · intro i turn request reads action
    obtain ⟨earlier, remaining, started, _⟩ := readLoop_count reads.reached
    have requested := reads.requested
    rw [Nat.zero_add] at started
    rw [started] at requested
    refine readsOn i turn request reads ?_
    rw [started]
    exact turn_stays (ok i) requested (.inl action)
  · intro i turn request reads action keeps limit
    obtain ⟨earlier, remaining, started, bound, counted⟩ := readLoop_count reads.reached
    have requested := reads.requested
    rw [Nat.zero_add] at started
    rw [started] at requested
    have fresh : (create ssl).requestCount = 0 := rfl
    rw [fresh, Nat.zero_add] at counted bound
    refine counted.mp ?_
    by_contra fewer
    -- a turn beyond the limit comes after one that read on at the limit
    have at_limit : i + 1 = HttpConfig.maxKeepaliveRequests := by
      cases i with
      | zero => omega
      | succ i =>
        obtain ⟨previous, other, before, stays⟩ := readLoop_previous reads.reached
        have below := (readsOn i previous other before stays).2
        omega
    have stays : turn.continues = true := by
      rw [started]
      exact turn_stays (ok i) requested (.inr ⟨action, by omega, keeps⟩)
    have below := (readsOn i turn request reads stays).2
    omega

/-- Whatever requests come and whatever the rate limiter says of each, the loop reads on only
as it should if rejected requests keep the connection alive, and neither are at the limit nor
delay it; and when writes succeed, only then. -/
theorem reads_on_properly (server : HttpServer)
    (read : Network → Bytes → Option (Request × Bytes × Network)) (circumstances : Nat → Circumstances)
    (ssl : Bool) (fuel : Nat) (network : Network) :
    (RejectsProperly server read circumstances ssl fuel network →
      ReadsOnProperly server read circumstances ssl fuel network) ∧
    ((∀ turn n, (circumstances turn).sendOk n = true) →
      ReadsOnProperly server read circumstances ssl fuel network →
      RejectsProperly server read circumstances ssl fuel network) :=
  ⟨readsOn_of_rejects, rejects_of_readsOn⟩

def limitedServer : HttpServer := { HttpServer.ofRoutes [] with rateLimitEnabled := true }

def closing : Request :=
  ⟨Bytes.ascii "GET", Bytes.ascii "/", 11, [(Field.connection, Bytes.ascii "close")], []⟩

/-- After `429` to a request with `Connection: close` the loop reads on. -/
theorem rejected_close_reads_on :
    ¬ ∀ (server : HttpServer) (circumstances : Nat → Circumstances) (ssl : Bool) (fuel : Nat)
      (requests : List Request), ReadsOnProperly server arriving circumstances ssl fuel requests := by
  intro proper
  let limited (_ : Nat) : Circumstances := { Circumstances.calm with admitted := false }
  have first : ∃ turn, (readLoop limitedServer arriving limited 2 0 (.create false) [closing])[0]? =
      some turn ∧ turn.request = some closing ∧ turn.continues = true := by
    refine ⟨_, rfl, ?_, ?_⟩ <;> decide +kernel
  obtain ⟨turn, reached, requested, stays⟩ := first
  have kept := (proper limitedServer limited false 2 [closing] 0 turn closing ⟨reached, requested⟩ stays).1
  exact absurd kept (by decide +kernel)

end Hku.Connection
