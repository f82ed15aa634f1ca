import HkuRest.Httpd.FinishedResponses
import HkuRest.Httpd.KeepAliveResponses
import HkuRest.Httpd.TlsWrites

/-! The bytes that a connection sends, read by a client. Where every handler leaves the framing of
its body to the framework, sets header fields that can stand in a header, and either streams nothing
or one response to its end, a client reads one response for each request that the loop has read. -/

namespace Hku

open Connection ChunkedCoding HeaderBlock

def HandleCall.Preserves (holds : Response → Prop) : HandleCall → Prop
  | .respond change => ∀ response, holds response → holds (change response)
  | _ => True

/-- Kept by what the chunk calls do to the response. -/
structure Stable (holds : Response → Prop) : Prop where
  coded : ∀ response, holds response →
    holds (response.set Field.transferEncoding (Bytes.ascii "chunked"))
  emptied : ∀ response, holds response → holds (response.setBody [])

/-- It holds of the response as it stands, and of every header that was written. -/
structure Upholds (holds : Response → Prop) (exchange : Exchange) : Prop where
  current : holds exchange.context.res
  headers : ∀ response, .header response ∈ exchange.writes.map Write.output → holds response

variable {holds : Response → Prop} {sendOk : Nat → Bool} {exchange : Exchange}

theorem Upholds.send (upholds : Upholds holds exchange) (layer : Layer) {output : Output}
    (headed : ∀ response, output = .header response → holds response) :
    Upholds holds (exchange.send sendOk layer output).1 := by
  refine ⟨upholds.current, fun response member => ?_⟩
  simp only [Exchange.send, List.map_append, List.mem_append, List.map_cons, List.map_nil,
    List.mem_singleton] at member
  rcases member with before | last
  · exact upholds.headers response before
  · exact headed response last.symm

theorem Upholds.writeChunkVia (upholds : Upholds holds exchange) {prepare : Response → Response}
    (prepared : ∀ response, holds response → holds (prepare response)) (data : Bytes) :
    Upholds holds (exchange.writeChunkVia sendOk prepare data).1 := by
  have raw {exchange : Exchange} (upholds : Upholds holds exchange) :
      Upholds holds (exchange.send sendOk .tcp (.raw (chunk data))).1 :=
    upholds.send .tcp (by simp)
  unfold Exchange.writeChunkVia
  split
  · split
    · exact raw upholds
    · have headed := prepared _ upholds.current
      have ready : Upholds holds ({ exchange with headersSent := true }.respond prepare) :=
        ⟨headed, upholds.headers⟩
      have opened : Upholds holds (({ exchange with headersSent := true }.respond prepare).send sendOk
          .tcp (.header (prepare exchange.context.res))).1 := by
        apply ready.send .tcp
        rintro response ⟨⟩
        exact headed
      dsimp only
      split
      · exact raw opened
      · exact opened
  · exact upholds

theorem Upholds.finishChunkedTransferVia (upholds : Upholds holds exchange) (throws : Bool) :
    Upholds holds (exchange.finishChunkedTransferVia sendOk throws).1 := by
  have closed : Upholds holds (exchange.send sendOk .tcp (.raw (Bytes.ascii "0\r\n\r\n"))).1 :=
    upholds.send .tcp (by simp)
  unfold Exchange.finishChunkedTransferVia
  split
  · dsimp only
    split
    · exact ⟨closed.current, closed.headers⟩
    · exact ⟨closed.current, closed.headers⟩
  · exact upholds

theorem Upholds.perform (stable : Stable holds) (upholds : Upholds holds exchange) {call : HandleCall}
    (preserves : call.Preserves holds) : Upholds holds (call.perform sendOk exchange) := by
  cases call with
  | respond change => exact ⟨preserves _ upholds.current, upholds.headers⟩
  | enableChunkedTransfer => exact ⟨stable.coded _ upholds.current, upholds.headers⟩
  | writeChunk data => exact upholds.writeChunkVia stable.emptied data
  | writeChunkSync data =>
    exact upholds.writeChunkVia (fun _ held => stable.emptied _ (stable.coded _ held)) data
  | finishChunkedTransfer => exact upholds.finishChunkedTransferVia true
  | finishChunkedTransferSync => exact upholds.finishChunkedTransferVia false

theorem Upholds.calls (stable : Stable holds) (upholds : Upholds holds exchange)
    {calls : List HandleCall} (preserves : ∀ call ∈ calls, call.Preserves holds) :
    Upholds holds (calls.foldl (HandleCall.perform sendOk) exchange) := by
  induction calls generalizing exchange with
  | nil => exact upholds
  | cons call rest ih =>
    obtain ⟨first, others⟩ := List.forall_mem_cons.mp preserves
    exact ih (upholds.perform stable first) others

/-- A stream may start with this header. -/
structure Response.Openable (response : Response) : Prop where
  neat : response.Neat
  version : response.version = 11
  bodied : bodiless response.status = false

theorem stable_openable : Stable Response.Openable where
  coded _ openable := ⟨openable.neat.set (by decide), openable.version, openable.bodied⟩
  emptied _ openable := ⟨openable.neat.setBody [], openable.version, openable.bodied⟩

/-- It leaves the framing to the framework, sets fields that can be written, and finishes the
chunked transfer that it enables. -/
structure Handle.Decent (handle : Handle) : Prop where
  keepsFraming : ∀ call ∈ handle.calls, call.KeepsFraming
  neat : ∀ call ∈ handle.calls, call.Preserves Response.Neat
  streams : handle.calls.any HandleCall.enables = true →
    .last ∈ pieces handle.calls ∧ ∀ call ∈ handle.calls, call.Preserves Response.Openable

def Handler.Decent : Handler → Prop
  | .handle made => made.Decent
  | .function change throws => ∀ response, response.Neat → response.framing = (none, none) →
      if throws then (change response).Neat ∧ (change response).framing = (none, none)
      else (change response).Finished

/-- So is the handler that answers a request. -/
structure HttpServer.Decent (server : HttpServer) (request : Request) : Prop where
  cors : server.corsConfig.Plain
  handler : ∀ handler, server.route request = .found handler → ∀ index,
    (handler index (server.fixHost request)).Decent

theorem Router.findHandler_mem {router : Router} {method target : Bytes} {handler : HandlerFunc}
    (found : router.findHandler method target = some handler) :
    ∃ route ∈ router, route.2 = handler := by
  unfold Router.findHandler at found
  split at found
  · rename_i route exact
    exact ⟨route, List.mem_of_find?_eq_some exact, Option.some.inj found⟩
  · obtain ⟨route, matching, same⟩ := Option.map_eq_some_iff.mp found
    exact ⟨route, List.mem_of_find?_eq_some matching, same⟩

theorem route_registered {server : HttpServer} {request : Request} {handler : HandlerFunc}
    (routed : server.route request = .found handler) :
    ∃ router ∈ server.router, ∃ route ∈ router, route.2 = handler := by
  unfold HttpServer.route at routed
  cases routes : server.router with
  | none => simp [routes] at routed
  | some router =>
    simp only [routes] at routed
    split at routed
    · cases routed
    · split at routed
      · cases routed
      · rename_i other found
        cases routed
        obtain ⟨route, member, same⟩ := Router.findHandler_mem found
        exact ⟨router, rfl, route, member, same⟩

theorem pieces_unenabled {calls : List HandleCall}
    (never : calls.any HandleCall.enables = false) (opened : Bool) :
    piecesFrom false opened calls = [] := by
  induction calls with
  | nil => rfl
  | cons call calls ih =>
    obtain ⟨first, others⟩ := Bool.or_eq_false_iff.mp never
    cases call with
    | enableChunkedTransfer => cases first
    | _ => exact ih others

theorem Handle.Decent.silent {handle : Handle} (decent : handle.Decent)
    (silent : pieces handle.calls = []) : handle.calls.any HandleCall.enables = false := by
  by_contra enabling
  have ends := (decent.streams (by simpa using enabling)).1
  rw [silent] at ends
  cases ends

variable {server : HttpServer} {response : Response} {calls : List HandleCall}

theorem rewrites_holds (preserves : ∀ call ∈ calls, call.Preserves holds) (held : holds response) :
    holds (rewrites calls response) := by
  induction calls generalizing response with
  | nil => exact held
  | cons call calls ih =>
    obtain ⟨first, others⟩ := List.forall_mem_cons.mp preserves
    apply ih others
    cases call with
    | respond change => exact first _ held
    | _ => exact held

theorem rewrites_framing (keeps : ∀ call ∈ calls, call.KeepsFraming) (response : Response) :
    (rewrites calls response).framing = response.framing := by
  induction calls generalizing response with
  | nil => rfl
  | cons call calls ih =>
    obtain ⟨first, others⟩ := List.forall_mem_cons.mp keeps
    refine (ih others (call.rewrite response)).trans ?_
    cases call with
    | respond change => exact first response
    | _ => rfl

/-- How the stages end: like the first that does not succeed. -/
def Handle.ending : List Script → Outcome
  | [] => .returned bizOk
  | stage :: rest => if stage.outcome = .returned bizOk then ending rest else stage.outcome

theorem runStages_ending (stages : List Script) (exchange : Exchange) :
    (Handle.runStages sendOk stages exchange).2 = Handle.ending stages := by
  induction stages generalizing exchange with
  | nil => rfl
  | cons stage rest ih =>
    simp only [Handle.runStages, Handle.ending]
    split
    · exact ih _
    · rfl

/-- What a response tells about stages that ended so, after their calls have made this of it. -/
def Tells (bizErrMsg : Int → Bytes) (written response : Response) : Outcome → Prop
  | .returned code =>
      if code = bizOk then bodiless written.status = false → written.SameContent response
      else response.status = 200 ∧ response.body = Exchange.failureText code (bizErrMsg code)
  | .bizException errcode => response.status = 200 ∧
      response.body = Exchange.failureText errcode (Bytes.ascii "biz exception")
  | .exception => response.status = 500 ∧
      response.body = Exchange.failureText bizBaseFailed (Bytes.ascii "internal error")

theorem Tells.keeps {bizErrMsg : Int → Bytes} {written later : Response} {outcome : Outcome}
    (tells : Tells bizErrMsg written response outcome) (same : response.SameContent later) :
    Tells bizErrMsg written later outcome := by
  cases outcome with
  | returned code =>
    simp only [Tells] at tells ⊢
    split
    · rename_i succeeded
      rw [if_pos succeeded] at tells
      exact fun bodied => (tells bodied).trans same
    · rename_i failed
      rw [if_neg failed] at tells
      exact ⟨same.status.trans tells.1, same.body.trans tells.2⟩
  | bizException errcode | exception =>
    exact ⟨same.status.trans tells.1, same.body.trans tells.2⟩

/-- Whatever becomes of a handler that streams nothing, its response can be written. -/
theorem Handle.Decent.invoke {handle : Handle} (decent : handle.Decent)
    (silent : pieces handle.calls = []) (bizErrMsg : Int → Bytes)
    (unchunked : exchange.chunkedTransfer = false) (neat : exchange.context.res.Neat)
    (unframed : exchange.context.res.framing = (none, none)) :
    ∃ response : Response, response.Finished ∧
      handle.invoke bizErrMsg sendOk exchange = (exchange.respond fun _ => response) ∧
      Tells bizErrMsg (rewrites handle.calls exchange.context.res) response
        (Handle.ending handle.stages) := by
  have never : ∀ call ∈ handle.calls, call.enables = false := by
    simpa using decent.silent silent
  have ran : (Handle.runStages sendOk handle.stages exchange).1 =
      exchange.respond (rewrites handle.calls) := by
    rw [runStages_calls, ← Handle.calls, calls_unchunked sendOk never exchange unchunked]
  have ended : (Handle.runStages sendOk handle.stages exchange).2 = Handle.ending handle.stages :=
    runStages_ending handle.stages exchange
  have written : (rewrites handle.calls exchange.context.res).Neat := rewrites_holds decent.neat neat
  have framed : (rewrites handle.calls exchange.context.res).framing = (none, none) :=
    (rewrites_framing decent.keepsFraming _).trans unframed
  have failed (status : Nat) (text : Bytes) (range : 100 ≤ status ∧ status ≤ 999)
      (bodied : bodiless status = false) :=
    written.reports framed text range bodied
      (by decide : PlainValue (Bytes.ascii "application/json; charset=UTF-8"))
  rw [← ended]
  cases staged : Handle.runStages sendOk handle.stages exchange with
  | mk after outcome =>
    rw [staged] at ran
    obtain rfl : after = exchange.respond (rewrites handle.calls) := ran
    have off : (exchange.respond (rewrites handle.calls)).chunkedTransfer = false := unchunked
    simp only [Handle.invoke, staged]
    cases outcome with
    | returned code =>
      simp only [Tells]
      split
      · rw [if_neg (by simp [off])]
        rcases written.prepare framed with ⟨refused, bare, -⟩ | ⟨prepared, done, same, finished⟩
        · have refused : (exchange.respond (rewrites handle.calls)).context.res.preparePayload = none :=
            refused
          rw [refused]
          refine ⟨_, (failed 500 _ (by decide) (by decide)).1, rfl, fun bodied => ?_⟩
          rw [bare] at bodied
          cases bodied
        · have done : (exchange.respond (rewrites handle.calls)).context.res.preparePayload =
            some prepared := done
          rw [done]
          exact ⟨prepared, finished, rfl, fun _ => same⟩
      · obtain ⟨finished, status, body⟩ := failed 200 _ (by decide) (by decide)
        exact ⟨_, finished, rfl, status, body⟩
    | bizException errcode =>
      obtain ⟨finished, status, body⟩ := failed 200 _ (by decide) (by decide)
      exact ⟨_, finished, rfl, status, body⟩
    | exception =>
      obtain ⟨finished, status, body⟩ := failed 500 _ (by decide) (by decide)
      exact ⟨_, finished, rfl, status, body⟩

/-- The connection writes the finished response of this exchange, and nothing else. -/
structure Ready (exchange : Exchange) : Prop where
  silent : exchange.writes = []
  unsent : exchange.context.responseSent = false
  finished : exchange.context.res.Finished

theorem Ready.written (ready : Ready exchange) (ssl : Bool) :
    (writeResponse ssl sendOk exchange).1.writes.map Write.output =
      [.message exchange.context.res] := by
  simp [writeResponse, ready.unsent, Exchange.send, ready.silent]

theorem settle_ready (finished : response.Finished) (silent : exchange.writes = [])
    (unsent : exchange.context.responseSent = false) (version : exchange.context.req.version < 100) :
    Ready (settle (exchange.respond fun _ => response)) ∧
      response.SameContent (settle (exchange.respond fun _ => response)).context.res := by
  have pending : (exchange.respond fun _ => response).context.responseSent = false := unsent
  rw [settle, pending, if_neg Bool.false_ne_true]
  have versioned : response.Keeps { response with version := exchange.context.req.version } :=
    ⟨rfl, rfl, rfl⟩
  refine ⟨⟨silent, unsent, ?_⟩, ?_⟩
  · exact finished.keeps (versioned.trans (.keepAlive _ _))
      ((finished.neat.versioned version).keepAlive _)
  · exact (Response.sameContent_version response _).trans (Response.sameContent_keepAlive _ _)

theorem fixHost_version (server : HttpServer) (request : Request) :
    (server.fixHost request).version = request.version := by
  simp only [HttpServer.fixHost]
  split <;> rfl

/-- The exchange with which a handler starts. -/
def outset (server : HttpServer) (ssl : Bool) (context : BeastContext) : Exchange :=
  { Exchange.start context with
    context := { context with req := server.fixHost context.req } }.respond
      (setResponseHeaders server.corsConfig ssl)

theorem outset_res {context : BeastContext} (fresh : context.res = .empty) (ssl : Bool) :
    (outset server ssl context).context.res = setResponseHeaders server.corsConfig ssl .empty := by
  rw [← fresh]
  rfl

theorem dressed_neat (cors : server.corsConfig.Plain) (ssl : Bool) :
    (setResponseHeaders server.corsConfig ssl .empty).Neat ∧
      (setResponseHeaders server.corsConfig ssl .empty).framing = (none, none) :=
  ⟨Response.neat_empty.dress cors ssl,
    (Response.setResponseHeaders_keeps server.corsConfig ssl .empty).framing⟩

variable {context : BeastContext} {index : Nat}

theorem processHandle_handle (decent : server.Decent context.req) {handler : HandlerFunc} {handle : Handle}
    (routed : server.route context.req = .found handler)
    (made : handler index (server.fixHost context.req) = .handle handle)
    (silent : pieces handle.calls = []) (fresh : context.res = .empty)
    (unsent : context.responseSent = false) (version : context.req.version < 100) (ssl : Bool) :
    Ready (processHandle server ssl sendOk index (.start context)) ∧
      Tells server.bizErrMsg (rewrites handle.calls (setResponseHeaders server.corsConfig ssl .empty))
        (processHandle server ssl sendOk index (.start context)).context.res
        (Handle.ending handle.stages) := by
  have request : (Exchange.start context).context.req = context.req := rfl
  have decentHandle : handle.Decent := by
    have held := decent.handler _ routed index
    rwa [made] at held
  obtain ⟨neat, unframed⟩ := dressed_neat decent.cors ssl
  rw [← outset_res fresh ssl] at neat unframed ⊢
  have kept : (outset server ssl context).context.req.version < 100 :=
    (fixHost_version server context.req).symm ▸ version
  obtain ⟨response, finished, invoked, tells⟩ : ∃ response : Response, response.Finished ∧
      handle.invoke server.bizErrMsg sendOk (outset server ssl context) =
        ((outset server ssl context).respond fun _ => response) ∧
      Tells server.bizErrMsg (rewrites handle.calls (outset server ssl context).context.res) response
        (Handle.ending handle.stages) :=
    decentHandle.invoke silent server.bizErrMsg rfl neat unframed
  obtain ⟨ready, same⟩ : Ready (settle ((outset server ssl context).respond fun _ => response)) ∧
      response.SameContent
        (settle ((outset server ssl context).respond fun _ => response)).context.res :=
    settle_ready finished rfl unsent kept
  have processed : processHandle server ssl sendOk index (.start context) =
      settle ((outset server ssl context).respond fun _ => response) := by
    simp only [processHandle, request, routed, made]
    rw [← invoked]
    rfl
  rw [processed]
  exact ⟨ready, tells.keeps same⟩

theorem processHandle_ready (decent : server.Decent context.req) {admitted : Bool}
    (dispatched : server.action admitted context.req = .dispatch)
    (silent : pieces (server.handlerCalls admitted index context.req) = [])
    (fresh : context.res = .empty) (unsent : context.responseSent = false)
    (version : context.req.version < 100) (ssl : Bool) :
    Ready (processHandle server ssl sendOk index (.start context)) := by
  have request : (Exchange.start context).context.req = context.req := rfl
  have blank : (Exchange.start context).context.res = .empty := fresh
  cases routed : server.route context.req with
  | noRouter =>
    simp only [processHandle, request, routed]
    refine ⟨rfl, unsent, ?_⟩
    have answer := (Response.neat_empty.internalServerError rfl).dress decent.cors ssl
    simpa only [Exchange.respond, blank] using answer
  | preflight =>
    simp only [processHandle, request, routed]
    refine ⟨rfl, unsent, ?_⟩
    have bare := (Response.neat_empty.result (by decide : 100 ≤ 204 ∧ 204 ≤ 999)).dress decent.cors ssl
    have keeps := Response.setResponseHeaders_keeps server.corsConfig ssl (Response.empty.result 204)
    rcases bare.prepare keeps.framing with ⟨-, -, filled⟩ | ⟨prepared, done, -, finished⟩
    · exact absurd keeps.body filled
    · simpa only [Exchange.respond, blank, done, Option.getD_some] using finished
  | missing =>
    simp only [processHandle, request, routed]
    refine ⟨rfl, unsent, ?_⟩
    have answer := (Response.neat_empty.notFound rfl).dress decent.cors ssl
    simpa only [Exchange.respond, blank] using answer
  | found handler =>
    simp only [HttpServer.handlerCalls, dispatched, routed] at silent
    cases made : handler index (server.fixHost context.req) with
    | handle handle =>
      simp only [made] at silent
      exact (processHandle_handle decent routed made silent fresh unsent version ssl).1
    | function change throws =>
      have decentHandler := decent.handler _ routed index
      simp only [made] at decentHandler
      obtain ⟨neat, unframed⟩ := dressed_neat decent.cors ssl
      rw [← outset_res fresh ssl] at neat unframed
      have kept : (outset server ssl context).context.req.version < 100 :=
        (fixHost_version server context.req).symm ▸ version
      have changed := decentHandler (outset server ssl context).context.res neat unframed
      simp only [processHandle, request, routed, made]
      cases throws with
      | true =>
        obtain ⟨neat, plain⟩ := changed
        exact ⟨rfl, unsent, (neat.internalServerError plain).dress decent.cors ssl⟩
      | false =>
        have settled : Ready (settle ((outset server ssl context).respond fun _ =>
            change (outset server ssl context).context.res)) :=
          (settle_ready changed rfl unsent kept).1
        exact settled

variable {Network : Type} {read : Network → Bytes → Option (Request × Bytes × Network)}
  {now : Circumstances} {connection : Connection} {network : Network} {request : Request}

theorem turn_whole (decent : server.Decent request)
    (requested : (turn server read now index connection network).request = some request)
    (stays : server.action now.admitted request ≠ .upgrade) (version : request.version < 100)
    (unsent : connection.session.responseSent = false)
    (silent : pieces (server.handlerCalls now.admitted index request) = []) :
    ∃ response, (turn server read now index connection network).outputs = [.message response] ∧
      response.Finished := by
  obtain ⟨buffer, rest, _, answered⟩ := turn_answer requested
  rw [answered, Turn.outputs]
  have rejected {change : Response → Response} (finished : (change .empty).Finished) : Ready
      ((Exchange.start (connection.received request buffer)).respond change) :=
    ⟨rfl, unsent, finished⟩
  have written {exchange : Exchange} (ready : Ready exchange) : ∃ response,
      (writeResponse connection.ssl now.sendOk exchange).1.writes.map Write.output =
        [.message response] ∧ response.Finished :=
    ⟨_, ready.written connection.ssl, ready.finished⟩
  cases action : server.action now.admitted request with
  | upgrade => exact absurd action stays
  | rejectHttp2 =>
    have ready := rejected (Response.neat_empty.http2Rejection rfl)
    simpa only [answer, action] using written ready
  | rejectRate =>
    have ready := rejected (Response.neat_empty.tooManyRequests rfl)
    simpa only [answer, action] using written ready
  | dispatch =>
    have kept : (connection.received request buffer).req.version < 100 := version
    have pending : (connection.received request buffer).responseSent = false := unsent
    have ready : Ready (processHandle server connection.ssl now.sendOk index
        (.start (connection.received request buffer))) :=
      processHandle_ready decent action silent rfl pending kept connection.ssl
    simpa only [answer, action] using written ready

theorem turn_handled (decent : server.Decent request) {handler : HandlerFunc} {handle : Handle}
    (requested : (turn server read now index connection network).request = some request)
    (dispatched : server.action now.admitted request = .dispatch)
    (routed : server.route request = .found handler)
    (made : handler index (server.fixHost request) = .handle handle)
    (version : request.version < 100) (unsent : connection.session.responseSent = false)
    (silent : pieces handle.calls = []) :
    ∃ response, (turn server read now index connection network).outputs = [.message response] ∧
      response.Finished ∧ Tells server.bizErrMsg
        (rewrites handle.calls (setResponseHeaders server.corsConfig connection.ssl .empty)) response
        (Handle.ending handle.stages) := by
  obtain ⟨buffer, rest, _, answered⟩ := turn_answer requested
  rw [answered, Turn.outputs]
  have kept : (connection.received request buffer).req.version < 100 := version
  have pending : (connection.received request buffer).responseSent = false := unsent
  have known : server.route (connection.received request buffer).req = .found handler := routed
  obtain ⟨ready, tells⟩ : Ready (processHandle server connection.ssl now.sendOk index
      (.start (connection.received request buffer))) ∧ Tells server.bizErrMsg
        (rewrites handle.calls (setResponseHeaders server.corsConfig connection.ssl .empty))
        (processHandle server connection.ssl now.sendOk index
          (.start (connection.received request buffer))).context.res (Handle.ending handle.stages) :=
    processHandle_handle decent known made silent rfl pending kept connection.ssl
  have written : (writeResponse connection.ssl now.sendOk (processHandle server connection.ssl
      now.sendOk index (.start (connection.received request buffer)))).1.writes.map Write.output =
        [.message _] := ready.written connection.ssl
  refine ⟨_, ?_, ready.finished, tells⟩
  simpa only [answer, dispatched] using written

theorem handlerCalls_found {admitted : Bool}
    (some : server.handlerCalls admitted index request ≠ []) :
    ∃ handler handle, server.action admitted request = .dispatch ∧
      server.route request = .found handler ∧
      handler index (server.fixHost request) = .handle handle ∧
      server.handlerCalls admitted index request = handle.calls := by
  cases action : server.action admitted request with
  | dispatch =>
    cases routed : server.route request with
    | found handler =>
      cases made : handler index (server.fixHost request) with
      | handle handle => exact ⟨handler, handle, rfl, rfl, made, by
          simp [HttpServer.handlerCalls, action, routed, made]⟩
      | function change throws =>
        exact absurd (by simp [HttpServer.handlerCalls, action, routed, made]) some
    | _ => exact absurd (by simp [HttpServer.handlerCalls, action, routed]) some
  | _ => exact absurd (by simp [HttpServer.handlerCalls, action]) some

/-- What holds of the response a handler is given, and is kept by its calls, holds of every header
it writes. -/
theorem turn_headers (stable : Stable holds) {handler : HandlerFunc} {handle : Handle}
    (requested : (turn server read now index connection network).request = some request)
    (dispatched : server.action now.admitted request = .dispatch)
    (routed : server.route request = .found handler)
    (handled : handler index (server.fixHost request) = .handle handle)
    (given : holds (setResponseHeaders server.corsConfig connection.ssl .empty))
    (preserves : ∀ call ∈ handle.calls, call.Preserves holds) :
    ∀ response, .header response ∈ (turn server read now index connection network).outputs →
      holds response := by
  obtain ⟨buffer, outputs⟩ := turn_invoked requested dispatched routed handled
  obtain ⟨change, invoked⟩ := invoke_spec server.bizErrMsg now.sendOk handle
    (dressed server connection request buffer)
  have fresh : Upholds holds (dressed server connection request buffer) := ⟨given, by simp⟩
  have settled : (settle (handle.invoke server.bizErrMsg now.sendOk
      (dressed server connection request buffer))).writes =
      (handle.calls.foldl (HandleCall.perform now.sendOk)
        (dressed server connection request buffer)).writes := by
    rw [invoked, settle]
    split <;> rfl
  intro response member
  apply (fresh.calls stable preserves).headers response
  rw [← settled]
  rw [outputs, writeResponse] at member
  split at member
  · exact member
  · simpa [Exchange.send] using member

theorem dressed_version (config : CorsConfig) (isHttps : Bool) (response : Response) :
    (setResponseHeaders config isHttps response).version = response.version := by
  have folded (headers : Fields) (response : Response) : (headers.foldl (fun response field =>
      response.set field.1 field.2) response).version = response.version := by
    induction headers generalizing response with
    | nil => rfl
    | cons field headers ih => exact ih (response.set field.1 field.2)
  have set (name value : Bytes) (response : Response) :
      (response.set name value).version = response.version := rfl
  simp only [setResponseHeaders, setCorsHeaders, apply_ite Response.version, set, folded, ite_self]

theorem dressed_openable (cors : server.corsConfig.Plain) (ssl : Bool) :
    (setResponseHeaders server.corsConfig ssl .empty).Openable := by
  refine ⟨Response.neat_empty.dress cors ssl, dressed_version _ _ _, ?_⟩
  rw [(Response.setResponseHeaders_keeps server.corsConfig ssl .empty).status]
  decide

theorem turn_streamed (ok : ∀ n, now.sendOk n = true) (decent : server.Decent request)
    (requested : (turn server read now index connection network).request = some request)
    (stays : server.action now.admitted request ≠ .upgrade)
    (opened : OpensOnce (pieces (server.handlerCalls now.admitted index request)))
    {payloads : List Bytes} (filled : ∀ data ∈ payloads, data ≠ [])
    (written : (pieces (server.handlerCalls now.admitted index request)).map Piece.data =
      payloads ++ [[]])
    (finished : (connection.session.responseSent ||
      (pieces (server.handlerCalls now.admitted index request)).contains .last) = true) :
    ∃ response, Conveys (turn server read now index connection network).outputs response ∧
      ∀ field ∈ response.fields, Plain field := by
  have some : server.handlerCalls now.admitted index request ≠ [] := by
    intro none
    obtain ⟨data, more, shape, -⟩ := opened
    rw [none] at shape
    cases shape
  obtain ⟨handler, handle, dispatched, routed, handled, calls⟩ := handlerCalls_found some
  have decentHandle : handle.Decent := by
    have held := decent.handler _ routed index
    rwa [handled] at held
  have enabling : handle.calls.any HandleCall.enables = true := by
    by_contra never
    obtain ⟨data, more, shape, -⟩ := opened
    rw [calls, pieces, pieces_unenabled (by simpa using never)] at shape
    cases shape
  obtain ⟨outs, last, emits, outputs⟩ := (turn_answered ok requested stays).wrote
  rw [(turn_answered ok requested stays).marked, finished, if_pos rfl, List.append_nil] at outputs
  obtain ⟨response, shape⟩ := emits.header_iff.mpr ⟨opened, rfl⟩
  have raws : (((pieces (server.handlerCalls now.admitted index request)).map
      fun piece => chunk piece.data).map Output.raw) =
        (payloads ++ [[]]).map fun data => .raw (chunk data) := by
    rw [← written, List.map_map, List.map_map]
    rfl
  rw [raws] at shape
  have member : .header response ∈ (turn server read now index connection network).outputs := by
    rw [outputs, shape]
    exact List.mem_cons_self
  have chunked := turn_announces requested dispatched routed handled decentHandle.keepsFraming
    response member
  have openable := turn_headers stable_openable requested dispatched routed handled
    (dressed_openable decent.cors connection.ssl) (decentHandle.streams enabling).2 response member
  refine ⟨response.setBody payloads.flatten, ?_, openable.neat.plain⟩
  rw [outputs, shape]
  exact .streamed response payloads openable.neat.presentable openable.version chunked
    openable.bodied filled

/-- Each request that is answered gets one response, and that can be read. -/
theorem turn_conveys (ok : ∀ n, now.sendOk n = true) (decent : server.Decent request)
    (requested : (turn server read now index connection network).request = some request)
    (stays : server.action now.admitted request ≠ .upgrade) (version : request.version < 100)
    (served : Served connection.session.responseSent
      (pieces (server.handlerCalls now.admitted index request))) :
    ∃ response, Conveys (turn server read now index connection network).outputs response ∧
      ∀ field ∈ response.fields, Plain field := by
  rcases served with ⟨pending, silent⟩ | ⟨finished, opened, payloads, written, filled⟩
  · have unsent := (Bool.or_eq_false_iff.mp pending).1
    obtain ⟨response, outputs, finished⟩ :=
      turn_whole decent requested stays version unsent silent
    exact ⟨response, outputs ▸ finished.conveyed, finished.neat.plain⟩
  · exact turn_streamed ok decent requested stays opened filled written finished

/-- A turn of the connection: nothing, or a response to the request it has read. -/
def Intelligible (holds : Response → Prop) (turn : Turn Network) : Prop :=
  turn.request = none ∧ turn.outputs = [] ∨ ∃ request response, turn.request = some request ∧
    request.method ≠ headMethod ∧ Conveys turn.outputs response ∧
    (∀ field ∈ response.fields, Plain field) ∧ holds response

def methods (run : List (Turn Network)) : List Bytes :=
  (run.filterMap Turn.request).map Request.method

/-- Turns that have read a request, with their numbers. -/
def requestTurns (run : List (Turn Network)) (start : Nat) : List (Turn Network × Nat) :=
  (run.zipIdx start).filter fun pair => pair.1.request.isSome

theorem readResponses_turns (holds : Nat → Turn Network → Response → Prop)
    {reason : Nat → Bytes} (told : ∀ status, Unbroken (reason status))
    {opening : Response → Bytes} (opens : Opens reason opening) {run : List (Turn Network)}
    (start : Nat)
    (replies : ∀ (i : Nat) turn, run[i]? = some turn → Intelligible (holds (start + i) turn) turn) :
    ∃ responses, List.Forall₂ (fun pair response =>
        Conveys pair.1.outputs response ∧ holds pair.2 pair.1 response)
        (requestTurns run start) responses ∧
      readResponses (methods run) (wire reason opening (run.flatMap Turn.outputs)) =
        some responses := by
  induction run generalizing start with
  | nil => exact ⟨[], .nil, rfl⟩
  | cons turn run ih =>
    have first := replies 0 turn rfl
    have later : ∀ (i : Nat) next, run[i]? = some next →
        Intelligible (holds (start + 1 + i) next) next := by
      intro i next found
      rw [Nat.add_right_comm, Nat.add_assoc]
      exact replies (i + 1) next found
    obtain ⟨responses, each, read⟩ := ih (start + 1) later
    have split : wire reason opening ((turn :: run).flatMap Turn.outputs) =
        wire reason opening turn.outputs ++ wire reason opening (run.flatMap Turn.outputs) := by
      simp [wire]
    rcases first with ⟨idle, silent⟩ | ⟨request, response, requested, other, conveys, plain, held⟩
    · refine ⟨responses, by simpa [requestTurns, idle] using each, ?_⟩
      rw [split, silent]
      simpa [methods, idle, wire] using read
    · refine ⟨response :: responses, ?_, ?_⟩
      · have listed : requestTurns (turn :: run) start = (turn, start) :: requestTurns run (start + 1) := by
          simp [requestTurns, requested]
        rw [listed]
        exact .cons ⟨conveys, held⟩ each
      · have head : readResponse request.method (wire reason opening turn.outputs ++
            wire reason opening (run.flatMap Turn.outputs)) =
              some (response, wire reason opening (run.flatMap Turn.outputs)) :=
          (conveys.reads_back_iff opens (told response.status) other).mpr plain
        have named : methods (turn :: run) = request.method :: methods run := by
          simp [methods, requested]
        rw [split, named, readResponses, head]
        simp [read]

variable {circumstances : Nat → Circumstances} {requests : List Request} {fuel i : Nat}

/-- Where a turn of the run starts: its session knows whether a stream was finished before. -/
theorem readLoop_session (ok : ∀ turn n, (circumstances turn).sendOk n = true)
    {turn : Turn (List Request)}
    (reached : (readLoop server arriving circumstances fuel index connection requests)[i]? = some turn) :
    ∃ earlier remaining, remaining <:+ requests ∧
      turn = Connection.turn server arriving (circumstances (index + i)) (index + i) earlier remaining ∧
      earlier.session.responseSent =
        (connection.session.responseSent || finishedBefore server circumstances index requests i) := by
  induction i generalizing fuel index connection requests with
  | zero => exact ⟨connection, requests, List.suffix_rfl, readLoop_zero reached, by simp [finishedBefore]⟩
  | succ i ih =>
    obtain ⟨stays, left, continued⟩ := readLoop_succ reached
    obtain ⟨request, requested, plain⟩ := turn_continues stays
    have answered := turn_answered (ok index) requested plain
    obtain ⟨buffer, rest, received, answer⟩ := turn_answer requested
    obtain ⟨earlier, remaining, suffix, same, marked⟩ := ih continued
    rw [Nat.add_right_comm, Nat.add_assoc] at same
    cases requests with
    | nil => cases received
    | cons head others =>
      simp only [arriving, Option.some.injEq, Prod.mk.injEq] at received
      obtain ⟨rfl, rfl, rfl⟩ := received
      rw [answer, answer_network] at suffix marked
      refine ⟨earlier, remaining, suffix.trans (List.suffix_cons head others), same, ?_⟩
      rw [marked, ← answer, answered.marked, finishedBefore, Bool.or_assoc]

theorem requested_mem {remaining : List Request}
    (requested : (turn server arriving now index connection remaining).request = some request)
    (suffix : remaining <:+ requests) : request ∈ requests := by
  obtain ⟨buffer, rest, received, -⟩ := turn_answer requested
  cases remaining with
  | nil => cases received
  | cons head others =>
    simp only [arriving, Option.some.injEq, Prod.mk.injEq] at received
    rw [← received.1]
    exact suffix.subset List.mem_cons_self

/-- Requests whose answers a client reads as it does here. -/
structure Request.Answerable (request : Request) : Prop where
  version : request.version < 100
  method : request.method ≠ headMethod

/-- No request goes to a WebSocket, and each handler streams one response to its end, or nothing
while no stream was finished on the connection before. -/
def ServesEach (server : HttpServer) (circumstances : Nat → Circumstances) (ssl : Bool)
    (requests : List Request) (fuel : Nat) : Prop :=
  ∀ (i : Nat) turn request,
    (readLoop server arriving circumstances fuel 0 (.create ssl) requests)[i]? = some turn →
    turn.request = some request → server.action (circumstances i).admitted request ≠ .upgrade ∧
      Served (finishedBefore server circumstances 0 requests i)
        (pieces (server.handlerCalls (circumstances i).admitted i request))

/-- Each turn that has read a request conveys a response, and what is known of the turns of this
server is known of it. -/
theorem readLoop_replies (decent : ∀ request ∈ requests, server.Decent request)
    (ok : ∀ turn n, (circumstances turn).sendOk n = true) (ssl : Bool)
    (answerable : ∀ request ∈ requests, request.Answerable)
    (served : ServesEach server circumstances ssl requests fuel) :
    ∀ (i : Nat) turn,
      (readLoop server arriving circumstances fuel 0 (.create ssl) requests)[i]? = some turn →
      Intelligible (fun _ => True) turn := by
  intro i turn reached
  obtain ⟨earlier, remaining, suffix, same, marked⟩ := readLoop_session ok reached
  rw [Nat.zero_add] at same
  cases requested : turn.request with
  | none =>
    rw [same] at requested ⊢
    refine .inl ⟨requested, ?_⟩
    rw [Turn.outputs, (turn_idle requested).1, List.map_nil]
  | some request =>
    obtain ⟨stays, serves⟩ := served i turn request reached requested
    rw [same] at requested ⊢
    have asked := requested_mem requested suffix
    have serves : Served earlier.session.responseSent
        (pieces (server.handlerCalls (circumstances i).admitted i request)) := by
      rw [marked]
      exact serves
    obtain ⟨version, method⟩ := answerable request asked
    obtain ⟨response, conveys, plain⟩ :=
      turn_conveys (ok i) (decent request asked) requested stays version serves
    exact .inr ⟨request, response, requested, method, conveys, plain, trivial⟩

theorem streaming_calls : streaming.calls =
    [.enableChunkedTransfer, .writeChunk (Bytes.ascii "data"), .finishChunkedTransfer] := rfl

theorem answering_calls : answering.calls = [.respond (·.setBody (Bytes.ascii "data"))] := rfl

theorem streaming_decent : streaming.Decent := by
  refine ⟨?_, ?_, fun _ => ⟨?_, ?_⟩⟩ <;> rw [streaming_calls]
  · simp [HandleCall.KeepsFraming]
  · simp [HandleCall.Preserves]
  · decide
  · simp [HandleCall.Preserves]

theorem answering_decent : answering.Decent := by
  refine ⟨?_, ?_, ?_⟩ <;> rw [answering_calls]
  · intro call member
    obtain rfl := List.mem_singleton.mp member
    exact fun response => rfl
  · intro call member
    obtain rfl := List.mem_singleton.mp member
    exact fun response neat => neat.setBody _
  · exact nofun

theorem default_plain : CorsConfig.default.Plain := by
  constructor <;> decide

theorem demoServer_decent (request : Request) : demoServer.Decent request := by
  refine ⟨default_plain, fun handler routed index => ?_⟩
  obtain ⟨router, ⟨⟩, route, member, rfl⟩ := route_registered routed
  rcases List.mem_cons.mp member with rfl | member
  · exact streaming_decent
  · obtain rfl := List.mem_singleton.mp member
    exact answering_decent

theorem demoServer_serves : ServesEach demoServer (fun _ => .calm) false
    [get "/plain", get "/stream"] 3 := by
  have requests : (readLoop demoServer arriving (fun _ => .calm) 3 0 (.create false)
      [get "/plain", get "/stream"]).map Turn.request =
        [some (get "/plain"), some (get "/stream"), none] := by
    decide +kernel
  intro i turn request reached requested
  have there := congrArg (Option.map Turn.request) reached
  rw [← List.getElem?_map, requests, Option.map_some, requested] at there
  match i, there with
  | 0, there =>
    obtain rfl : get "/plain" = request := by simpa using there
    exact ⟨by decide +kernel, .inl ⟨by decide +kernel, by decide +kernel⟩⟩
  | 1, there =>
    obtain rfl : get "/stream" = request := by simpa using there
    refine ⟨by decide +kernel, .inr ⟨by decide +kernel, ⟨Bytes.ascii "data", [.last], ?_, by decide⟩,
      [Bytes.ascii "data"], ?_, by decide⟩⟩
    · decide +kernel
    · decide +kernel
  | 2, there => cases there

def reasonOk (_ : Nat) : Bytes := Bytes.ascii "OK"

end Hku
