import HkuRest.Httpd.BodyFraming

/-! A handler that never enables chunked transfer. Its chunk calls do nothing, its
other calls rewrite the response, and the connection writes that response as one
message, unless it takes it for sent already. -/

namespace Hku

open Connection

def HandleCall.enables : HandleCall → Bool
  | .enableChunkedTransfer => true
  | _ => false

/-- What a call makes of the response while chunked transfer is off. -/
def HandleCall.rewrite : HandleCall → Response → Response
  | .respond change => change
  | _ => id

def rewrites (calls : List HandleCall) (response : Response) : Response :=
  calls.foldl (fun response call => call.rewrite response) response

@[simp] theorem rewrites_append (left right : List HandleCall) (response : Response) :
    rewrites (left ++ right) response = rewrites right (rewrites left response) :=
  List.foldl_append

theorem calls_unchunked (sendOk : Nat → Bool) {calls : List HandleCall}
    (never : ∀ call ∈ calls, call.enables = false) (exchange : Exchange)
    (unchunked : exchange.chunkedTransfer = false) :
    calls.foldl (HandleCall.perform sendOk) exchange = exchange.respond (rewrites calls) := by
  induction calls generalizing exchange with
  | nil => rfl
  | cons call rest ih =>
    obtain ⟨enabling, later⟩ := List.forall_mem_cons.mp never
    have idle (result : Exchange) (same : result = exchange) :
        rest.foldl (HandleCall.perform sendOk) result = exchange.respond (rewrites rest) := by
      rw [same, ih later exchange unchunked]
    cases call with
    | respond change => exact ih later (exchange.respond change) unchunked
    | enableChunkedTransfer => cases enabling
    | writeChunk data | writeChunkSync data =>
      apply idle _
      simp [HandleCall.perform, Exchange.writeChunk, Exchange.writeChunkSync, Exchange.writeChunkVia,
        unchunked]
    | finishChunkedTransfer | finishChunkedTransferSync =>
      apply idle _
      simp [HandleCall.perform, Exchange.finishChunkedTransfer, Exchange.finishChunkedTransferSync,
        Exchange.finishChunkedTransferVia, unchunked]

/-- A handler that succeeds runs its calls and, unless it streams, completes the payload. -/
theorem invoke_plain (bizErrMsg : Int → Bytes) (sendOk : Nat → Bool) {calls : List HandleCall}
    (never : ∀ call ∈ calls, call.enables = false) (exchange : Exchange)
    (unchunked : exchange.chunkedTransfer = false)
    (allowed : (rewrites calls exchange.context.res).status = 200)
    (unframed : (rewrites calls exchange.context.res).framing = (none, none)) :
    ∃ prepared : Response,
      Handle.invoke bizErrMsg sendOk (.ofRun ⟨calls, .returned bizOk⟩) exchange =
          exchange.respond (fun _ => prepared) ∧
        prepared.body = (rewrites calls exchange.context.res).body ∧ prepared.Sized := by
  obtain ⟨prepared, complete, body, sized⟩ := Response.preparePayload_sized allowed unframed
  have ran : Handle.runStages sendOk (Handle.ofRun ⟨calls, .returned bizOk⟩).stages exchange =
      (exchange.respond (rewrites calls), .returned bizOk) := by
    simp only [Handle.ofRun, Handle.stages, Handle.hook, List.nil_append,
      Handle.runStages, if_true, List.foldl_nil, calls_unchunked sendOk never exchange unchunked]
  refine ⟨prepared, ?_, body, sized⟩
  have off : (exchange.respond (rewrites calls)).chunkedTransfer = false := unchunked
  have ready : (exchange.respond (rewrites calls)).context.res.preparePayload = some prepared := complete
  simp only [Handle.invoke, ran, if_true, off, Bool.false_eq_true, if_false, ready]
  rfl

theorem settle_keeps (exchange : Exchange) : ∃ change, settle exchange = exchange.respond change ∧
    exchange.context.res.Keeps (change exchange.context.res) := by
  unfold settle
  split
  · exact ⟨id, rfl, .refl _⟩
  · refine ⟨_, rfl, ?_⟩
    have versioned : exchange.context.res.Keeps
        { exchange.context.res with version := exchange.context.req.version } := ⟨rfl, rfl, rfl⟩
    exact versioned.trans (.keepAlive _ _)

variable {Network : Type} {server : HttpServer}
  {read : Network → Bytes → Option (Request × Bytes × Network)} {now : Circumstances} {index : Nat}
  {connection : Connection} {network : Network} {request : Request} {handler : HandlerFunc}
  {calls : List HandleCall}

theorem turn_plain
    (requested : (turn server read now index connection network).request = some request)
    (dispatched : server.action now.admitted request = .dispatch)
    (routed : server.route request = .found handler)
    (handled : handler index (server.fixHost request) = .handle (.ofRun ⟨calls, .returned bizOk⟩))
    (never : ∀ call ∈ calls, call.enables = false)
    (allowed : (rewrites calls
      (setResponseHeaders server.corsConfig connection.ssl .empty)).status = 200)
    (unframed : (rewrites calls
      (setResponseHeaders server.corsConfig connection.ssl .empty)).framing = (none, none)) :
    ∃ response : Response,
      response.body = (rewrites calls
        (setResponseHeaders server.corsConfig connection.ssl .empty)).body ∧ response.Sized ∧
      (turn server read now index connection network).outputs =
        if connection.session.responseSent then [] else [.message response] := by
  obtain ⟨buffer, outputs⟩ := turn_invoked requested dispatched routed handled
  obtain ⟨prepared, invoked, body, sized⟩ := invoke_plain server.bizErrMsg now.sendOk never
    (dressed server connection request buffer) rfl allowed unframed
  obtain ⟨later, settled, keeps⟩ := settle_keeps
    ((dressed server connection request buffer).respond fun _ => prepared)
  have keeps : prepared.Keeps (later prepared) := keeps
  refine ⟨later prepared, keeps.body.trans body, ?_, ?_⟩
  · rw [Response.Sized, keeps.framing, keeps.body]
    exact sized
  · have sent : (((dressed server connection request buffer).respond fun _ => prepared).respond
        later).context.responseSent = connection.session.responseSent := rfl
    rw [outputs, invoked, settled, writeResponse, sent]
    cases connection.session.responseSent <;> rfl

end Hku
