import HkuRest.Httpd.ConnectionReplies

/-! Conversations with handler classes that stream nothing: their calls set the body, and fields that
say nothing about its frame. What such a handler writes is what the client reads. -/

namespace Hku

open Connection HeaderBlock

/-- A call that sets the body, or a field that can be written and does not frame it. -/
structure HandleCall.Describes (call : HandleCall) : Prop where
  keepsFraming : call.KeepsFraming
  neat : call.Preserves Response.Neat
  enables : call.enables = false
  status : ∀ response, (call.rewrite response).status = response.status

namespace HandleCall

theorem describes_body (body : Bytes) : Describes (.respond (·.setBody body)) where
  keepsFraming _ := rfl
  neat _ neat := neat.setBody body
  enables := rfl
  status _ := rfl

theorem describes_field {name value : Bytes} (plain : Plain (name, value))
    (other : Field.framesBody name = false) : Describes (.respond (·.set name value)) where
  keepsFraming response := (Response.Keeps.set response value other).framing
  neat _ neat := neat.set plain
  enables := rfl
  status _ := rfl

end HandleCall

theorem rewrites_status {calls : List HandleCall} (describes : ∀ call ∈ calls, call.Describes)
    (response : Response) : (rewrites calls response).status = response.status := by
  induction calls generalizing response with
  | nil => rfl
  | cons call calls ih =>
    obtain ⟨first, others⟩ := List.forall_mem_cons.mp describes
    exact (ih others (call.rewrite response)).trans (first.status response)

/-- So do all calls of a handle. -/
def Handle.Describes (handle : Handle) : Prop := ∀ call ∈ handle.calls, call.Describes

theorem Handle.Describes.never {handle : Handle} (describes : handle.Describes) :
    handle.calls.any HandleCall.enables = false := by
  rw [List.any_eq_false]
  intro call member
  simp [(describes call member).enables]

theorem Handle.Describes.decent {handle : Handle} (describes : handle.Describes) : handle.Decent := by
  refine ⟨fun call member => (describes call member).keepsFraming,
    fun call member => (describes call member).neat, fun enabling => ?_⟩
  rw [describes.never] at enabling
  cases enabling

/-- A request that is answered by such a handler, if by any. -/
structure HttpServer.Describes (server : HttpServer) (request : Request) : Prop where
  cors : server.corsConfig.Plain
  handler : ∀ handler, server.route request = .found handler → ∀ index, ∃ handle,
    handler index (server.fixHost request) = .handle handle ∧ handle.Describes

variable {server : HttpServer} {circumstances : Nat → Circumstances} {requests : List Request}
  {request : Request}

namespace HttpServer.Describes

theorem decent (describes : server.Describes request) : server.Decent request := by
  refine ⟨describes.cors, fun handler routed index => ?_⟩
  obtain ⟨handle, made, plain⟩ := describes.handler handler routed index
  rw [made]
  exact plain.decent

theorem silent (describes : server.Describes request) (admitted : Bool) (index : Nat) :
    pieces (server.handlerCalls admitted index request) = [] := by
  by_cases none : server.handlerCalls admitted index request = []
  · rw [none]
    rfl
  · obtain ⟨handler, handle, -, routed, made, calls⟩ := handlerCalls_found none
    obtain ⟨other, same, plain⟩ := describes.handler handler routed index
    rw [made, Handler.handle.injEq] at same
    rw [calls, same, pieces, pieces_unenabled plain.never]

theorem unfinished (describes : ∀ request ∈ requests, server.Describes request) (index i : Nat) :
    finishedBefore server circumstances index requests i = false := by
  induction i generalizing index requests with
  | zero => simp [finishedBefore]
  | succ i ih =>
    cases requests with
    | nil => rfl
    | cons request others =>
      obtain ⟨first, later⟩ := List.forall_mem_cons.mp describes
      simp [finishedBefore, first.silent, ih later]

end HttpServer.Describes

theorem action_stays (plain : server.isWebSocket request = false) (admitted : Bool) :
    server.action admitted request ≠ .upgrade := by
  unfold HttpServer.action
  rw [plain, if_neg Bool.false_ne_true]
  split
  · nofun
  · split <;> nofun

theorem HttpServer.Describes.serves (describes : ∀ request ∈ requests, server.Describes request)
    (ok : ∀ turn n, (circumstances turn).sendOk n = true) (ssl : Bool) (fuel : Nat)
    (plain : ∀ request ∈ requests, server.isWebSocket request = false) :
    ServesEach server circumstances ssl requests fuel := by
  intro i turn request reached requested
  obtain ⟨earlier, remaining, suffix, same, -⟩ := readLoop_session ok reached
  rw [same] at requested
  have asked := requested_mem requested suffix
  have silent := (describes request asked).silent (circumstances i).admitted i
  refine ⟨action_stays (plain request asked) _, .inl ⟨?_, silent⟩⟩
  rw [HttpServer.Describes.unfinished describes, silent]
  rfl

theorem HttpServer.Describes.layered (describes : ∀ request ∈ requests, server.Describes request)
    (ok : ∀ turn n, (circumstances turn).sendOk n = true) (ssl : Bool)
    (plain : ∀ request ∈ requests, server.isWebSocket request = false) {fuel : Nat}
    {run : List (Turn (List Request))}
    (ran : readLoop server arriving circumstances fuel 0 (.create ssl) requests = run) :
    ∀ turn ∈ run, ∀ write ∈ turn.writes, write.layer = responseLayer ssl := by
  cases ssl with
  | false => exact readLoop_writes_tcp ran
  | true =>
    intro turn member
    obtain ⟨i, reached⟩ := List.mem_iff_getElem?.mp member
    subst ran
    refine (tls_turn_iff reached).mpr fun request requested => ?_
    obtain ⟨earlier, remaining, suffix, same, -⟩ := readLoop_session ok reached
    rw [same] at requested
    have asked := requested_mem requested suffix
    have stays := action_stays (plain request asked) (circumstances i).admitted
    exact ⟨(describes request asked).silent _ i, fun upgrades => stays upgrades.1⟩

/-- A response to a request that a handler class answers tells what its calls made of it. -/
def TurnTells (server : HttpServer) (circumstances : Nat → Circumstances) (requests : List Request)
    (i : Nat) (turn : Turn (List Request)) (response : Response) : Prop :=
  ∀ request, turn.request = some request → request ∈ requests ∧
    ∀ handler handle, server.action (circumstances i).admitted request = .dispatch →
      server.route request = .found handler →
      handler i (server.fixHost request) = .handle handle →
      ∃ ssl, Tells server.bizErrMsg
        (rewrites handle.calls (setResponseHeaders server.corsConfig ssl .empty)) response
        (Handle.ending handle.stages)

theorem HttpServer.Describes.tells (describes : ∀ request ∈ requests, server.Describes request)
    (ok : ∀ turn n, (circumstances turn).sendOk n = true) {ssl : Bool} {fuel i : Nat}
    (answerable : ∀ request ∈ requests, request.Answerable) {turn : Turn (List Request)}
    (reached :
      (readLoop server arriving circumstances fuel 0 (.create ssl) requests)[i]? = some turn)
    {response : Response} (conveys : Conveys turn.outputs response) :
    TurnTells server circumstances requests i turn response := by
  intro request requested
  obtain ⟨earlier, remaining, suffix, same, marked⟩ := readLoop_session ok reached
  rw [Nat.zero_add] at same
  rw [HttpServer.Describes.unfinished describes, Bool.or_false] at marked
  rw [same] at requested conveys
  have asked := requested_mem requested suffix
  refine ⟨asked, fun handler handle dispatched routed made => ?_⟩
  have plain := describes request asked
  obtain ⟨other, found, calls⟩ := plain.handler handler routed i
  rw [made, Handler.handle.injEq] at found
  have silent : pieces handle.calls = [] := by
    rw [found]
    exact pieces_unenabled calls.never false
  obtain ⟨written, outputs, -, tells⟩ := turn_handled plain.decent requested dispatched routed made
    (answerable request asked).version marked silent
  rw [outputs] at conveys
  cases conveys
  exact ⟨_, tells⟩

/-- The client reads a response for each request, in order, and each tells what its handler made
of it. -/
theorem HttpServer.Describes.conversation
    (describes : ∀ request ∈ requests, server.Describes request)
    (ok : ∀ turn n, (circumstances turn).sendOk n = true) (ssl : Bool)
    (answerable : ∀ request ∈ requests, request.Answerable)
    (plain : ∀ request ∈ requests, server.isWebSocket request = false) (fuel : Nat)
    {reason : Nat → Bytes} (told : ∀ status, Unbroken (reason status)) :
    let run := readLoop server arriving circumstances fuel 0 (.create ssl) requests
    ∃ responses, List.Forall₂ (fun pair response => Conveys pair.1.outputs response ∧
        TurnTells server circumstances requests pair.2 pair.1 response) (requestTurns run 0) responses ∧
      readResponses (methods run) (wire reason (Response.head reason) (run.flatMap Turn.outputs)) =
        some responses := by
  refine readResponses_turns (TurnTells server circumstances requests) told (fun _ => .inl rfl) 0 ?_
  intro i turn reached
  have replies := readLoop_replies (fun request asked => (describes request asked).decent) ok ssl
    answerable (HttpServer.Describes.serves describes ok ssl fuel plain) i turn reached
  rw [Nat.zero_add]
  rcases replies with idle | ⟨request, response, requested, other, conveys, fields, -⟩
  · exact .inl idle
  · exact .inr ⟨request, response, requested, other, conveys, fields,
      HttpServer.Describes.tells describes ok answerable reached conveys⟩

end Hku
