import HkuRest.Httpd.Connection

/-! The turns of `readLoop`: what a turn that has read a request is, and how a run is
made of its turns. -/

namespace Hku.Connection

variable {Network : Type} {server : HttpServer}
  {read : Network → Bytes → Option (Request × Bytes × Network)} {circumstances : Nat → Circumstances}
  {now : Circumstances} {index fuel i : Nat} {connection : Connection} {network rest : Network}
  {request : Request} {buffer : Bytes}

theorem writeResponse_context (ssl : Bool) (sendOk : Nat → Bool) (exchange : Exchange) :
    (writeResponse ssl sendOk exchange).1.context = exchange.context := by
  unfold writeResponse
  split <;> rfl

theorem writeResponse_delivered (ok : ∀ n, now.sendOk n = true) (ssl : Bool) (exchange : Exchange) :
    (writeResponse ssl now.sendOk exchange).2 = true := by
  unfold writeResponse
  split
  · rfl
  · exact ok _

@[simp] theorem answer_request :
    (answer server now index connection request buffer rest).request = some request := by
  unfold answer
  cases server.action now.admitted request <;> rfl

@[simp] theorem answer_network :
    (answer server now index connection request buffer rest).network = rest := by
  unfold answer
  cases server.action now.admitted request <;> rfl

@[simp] theorem answer_ssl :
    (answer server now index connection request buffer rest).connection.ssl = connection.ssl := by
  unfold answer
  cases server.action now.admitted request <;> rfl

theorem answer_continues
    (stays : (answer server now index connection request buffer rest).continues = true) :
    server.action now.admitted request ≠ .upgrade := by
  intro upgrade
  simp [answer, upgrade] at stays

theorem turn_answer
    (requested : (turn server read now index connection network).request = some request) :
    ∃ buffer rest, read network [] = some (request, buffer, rest) ∧
      turn server read now index connection network =
        answer server now index connection request buffer rest := by
  unfold turn at requested ⊢
  cases aged : now.aged with
  | true => simp [aged] at requested
  | false =>
    simp only [aged, Bool.false_eq_true, if_false] at requested ⊢
    cases received : read network [] with
    | none => simp [received] at requested
    | some arrival =>
      obtain ⟨arrived, buffer, rest⟩ := arrival
      simp only [received, answer_request, Option.some.injEq] at requested ⊢
      subst requested
      exact ⟨buffer, rest, rfl, rfl⟩

/-- A turn that has read no request writes nothing and ends the loop. -/
theorem turn_idle (idle : (turn server read now index connection network).request = none) :
    (turn server read now index connection network).writes = [] ∧
      (turn server read now index connection network).continues = false := by
  unfold turn at idle ⊢
  cases aged : now.aged with
  | true => simp
  | false =>
    cases received : read network [] with
    | none => simp
    | some arrival => simp [aged, received] at idle

theorem turn_drops (server : HttpServer)
    (read : Network → Bytes → Option (Request × Bytes × Network)) (index : Nat)
    (connection : Connection) (network : Network) (young : now.aged = false) :
    connection.session.buffer <+: (turn server read now index connection network).discarded := by
  have answers (request : Request) (buffer : Bytes) (rest : Network) : connection.session.buffer <+:
      (answer server now index connection request buffer rest).discarded := by
    unfold answer
    cases server.action now.admitted request with
    | rejectHttp2 | upgrade | rejectRate => exact List.prefix_rfl
    | dispatch => exact List.prefix_append _ _
  unfold turn
  rw [young, if_neg Bool.false_ne_true]
  cases read network [] with
  | none => exact List.prefix_rfl
  | some arrival => exact answers _ _ _

theorem turn_aged (old : now.aged = true) : turn server read now index connection network =
    ⟨none, [], [], connection, network, false⟩ := by
  rw [turn, if_pos old]

theorem turn_reads (young : now.aged = false) (received : read network [] = some (request, buffer, rest)) :
    turn server read now index connection network =
      answer server now index connection request buffer rest := by
  rw [turn, young, if_neg Bool.false_ne_true, received]

theorem turn_ssl : (turn server read now index connection network).connection.ssl = connection.ssl := by
  cases requested : (turn server read now index connection network).request with
  | some request =>
    obtain ⟨buffer, rest, _, answered⟩ := turn_answer requested
    rw [answered, answer_ssl]
  | none =>
    unfold turn
    split
    · rfl
    · split
      · rfl
      · exact answer_ssl

theorem turn_continues (stays : (turn server read now index connection network).continues = true) :
    ∃ request, (turn server read now index connection network).request = some request ∧
      server.action now.admitted request ≠ .upgrade := by
  cases requested : (turn server read now index connection network).request with
  | none => exact absurd stays (by simp [(turn_idle requested).2])
  | some request =>
    obtain ⟨buffer, rest, _, answered⟩ := turn_answer requested
    rw [answered] at stays
    exact ⟨request, rfl, answer_continues stays⟩

/-- What the handler of a request is given: a response with the headers of the server. -/
def dressed (server : HttpServer) (connection : Connection) (request : Request) (buffer : Bytes) :
    Exchange :=
  { Exchange.start (connection.received request buffer) with
    context := { connection.received request buffer with req := server.fixHost request } }.respond
      (setResponseHeaders server.corsConfig connection.ssl)

@[simp] theorem dressed_writes (server : HttpServer) (connection : Connection) (request : Request)
    (buffer : Bytes) : (dressed server connection request buffer).writes = [] := rfl

theorem turn_invoked {handler : HandlerFunc} {handle : Handle}
    (requested : (turn server read now index connection network).request = some request)
    (dispatched : server.action now.admitted request = .dispatch)
    (routed : server.route request = .found handler)
    (handled : handler index (server.fixHost request) = .handle handle) :
    ∃ buffer, (turn server read now index connection network).outputs =
      (writeResponse connection.ssl now.sendOk (settle (handle.invoke server.bizErrMsg now.sendOk
        (dressed server connection request buffer)))).1.writes.map Write.output := by
  obtain ⟨buffer, rest, _, answered⟩ := turn_answer requested
  refine ⟨buffer, ?_⟩
  have processed : processHandle server connection.ssl now.sendOk index
      (.start (connection.received request buffer)) =
        settle (handle.invoke server.bizErrMsg now.sendOk
          (dressed server connection request buffer)) := by
    have req : (Exchange.start (connection.received request buffer)).context.req = request := rfl
    simp only [processHandle, req, routed, handled]
    rfl
  rw [answered]
  simp only [answer, dispatched, processed, Turn.outputs]

theorem readLoop_cons : readLoop server read circumstances (fuel + 1) index connection network =
    let first := turn server read (circumstances index) index connection network
    first :: if first.continues then
      readLoop server read circumstances fuel (index + 1) first.connection first.network
    else [] := by
  simp only [readLoop]
  split <;> rfl

theorem readLoop_zero {turn : Turn Network}
    (reached : (readLoop server read circumstances fuel index connection network)[0]? = some turn) :
    turn = Connection.turn server read (circumstances index) index connection network := by
  cases fuel with
  | zero => simp [readLoop] at reached
  | succ fuel =>
    simp only [readLoop] at reached
    split at reached <;> simpa using reached.symm

theorem readLoop_succ {later : Turn Network}
    (reached :
      (readLoop server read circumstances fuel index connection network)[i + 1]? = some later) :
    let first := turn server read (circumstances index) index connection network
    first.continues = true ∧ ∃ left, (readLoop server read circumstances left (index + 1)
      first.connection first.network)[i]? = some later := by
  cases fuel with
  | zero => simp [readLoop] at reached
  | succ fuel =>
    simp only [readLoop] at reached
    split at reached
    · rename_i stays
      exact ⟨stays, fuel, by simpa using reached⟩
    · simp at reached

/-- Every turn of a run starts from some state of the same connection. -/
theorem readLoop_turn {turn : Turn Network}
    (reached : (readLoop server read circumstances fuel index connection network)[i]? = some turn) :
    ∃ earlier remaining, earlier.ssl = connection.ssl ∧
      turn = Connection.turn server read (circumstances (index + i)) (index + i) earlier remaining := by
  induction i generalizing fuel index connection network with
  | zero => exact ⟨connection, network, rfl, readLoop_zero reached⟩
  | succ i ih =>
    obtain ⟨_, left, continued⟩ := readLoop_succ reached
    obtain ⟨earlier, remaining, ssl, started⟩ := ih continued
    refine ⟨earlier, remaining, ssl.trans turn_ssl, ?_⟩
    rw [started, Nat.add_right_comm, Nat.add_assoc]

end Hku.Connection
