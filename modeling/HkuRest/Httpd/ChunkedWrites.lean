import HkuRest.Httpd.Turns

/-! What the chunk calls of a handler put on the wire. The calls that take effect
are pieces: the first chunk after an enabling, which opens a response with its
header, a further chunk, or a terminator. Handler, error paths and connection add
at most one whole message to them. -/

namespace Hku

open Connection

inductive Piece
  | first (data : Bytes)
  | next (data : Bytes)
  | last
  deriving DecidableEq, Repr

namespace Piece

/-- The payload of the chunk; a terminator is the chunk without one. -/
def data : Piece → Bytes
  | first data | next data => data
  | last => []

def opens : Piece → Bool
  | first _ => true
  | _ => false

end Piece

/-- The effect of a call on the two flags of the handler, and what it sends. -/
def HandleCall.pieces (chunked opened : Bool) : HandleCall → List Piece × Bool × Bool
  | .respond _ => ([], chunked, opened)
  | .enableChunkedTransfer => ([], true, false)
  | .writeChunk data | .writeChunkSync data =>
      if chunked then ([if opened then .next data else .first data], true, true)
      else ([], false, opened)
  | .finishChunkedTransfer | .finishChunkedTransferSync =>
      if chunked then ([.last], false, false) else ([], false, opened)

def piecesFrom : Bool → Bool → List HandleCall → List Piece
  | _, _, [] => []
  | chunked, opened, call :: rest =>
      let (sent, chunked, opened) := call.pieces chunked opened
      sent ++ piecesFrom chunked opened rest

/-- The pieces of a handler that starts afresh. -/
def pieces (calls : List HandleCall) : List Piece := piecesFrom false false calls

/-- The outputs of a list of pieces; the headers say whatever the handler set. -/
inductive Emits : List Piece → List Output → Prop
  | nil : Emits [] []
  | first {ps outs} (response : Response) (data : Bytes) : Emits ps outs →
      Emits (.first data :: ps) (.header response :: .raw (ChunkedCoding.chunk data) :: outs)
  | next {ps outs} (data : Bytes) : Emits ps outs →
      Emits (.next data :: ps) (.raw (ChunkedCoding.chunk data) :: outs)
  | last {ps outs} : Emits ps outs → Emits (.last :: ps) (.raw (ChunkedCoding.chunk []) :: outs)

theorem Emits.append {left right : List Piece} {leftOuts rightOuts : List Output}
    (first : Emits left leftOuts) (second : Emits right rightOuts) :
    Emits (left ++ right) (leftOuts ++ rightOuts) := by
  induction first with
  | nil => exact second
  | first response data _ ih => exact .first response data ih
  | next data _ ih => exact .next data ih
  | last _ ih => exact .last ih

/-- From one exchange to another exactly these pieces were sent. -/
structure Progress (before after : Exchange) (sent : List Piece) : Prop where
  wrote : ∃ outs, after.writes = before.writes ++ outs.map (Write.mk .tcp) ∧ Emits sent outs
  marked : after.context.responseSent = (before.context.responseSent || sent.contains .last)

variable {sendOk : Nat → Bool} {before middle after exchange : Exchange}
  {sent more : List Piece}

theorem Progress.idle (writes : after.writes = before.writes)
    (marked : after.context.responseSent = before.context.responseSent) :
    Progress before after [] :=
  ⟨⟨[], by simpa using writes, .nil⟩, by simpa using marked⟩

theorem Progress.trans (one : Progress before middle sent) (two : Progress middle after more) :
    Progress before after (sent ++ more) := by
  obtain ⟨outs, wrote, emits⟩ := one.wrote
  obtain ⟨later, wroteLater, emitsLater⟩ := two.wrote
  refine ⟨⟨outs ++ later, ?_, emits.append emitsLater⟩, ?_⟩
  · rw [wroteLater, wrote, List.map_append, List.append_assoc]
  · rw [two.marked, one.marked, List.contains_append, Bool.or_assoc]

theorem writeChunkVia_progress (ok : ∀ n, sendOk n = true) (prepare : Response → Response)
    (exchange : Exchange) (data : Bytes) :
    let after := (exchange.writeChunkVia sendOk prepare data).1
    Progress exchange after
        ((HandleCall.writeChunk data).pieces exchange.chunkedTransfer exchange.headersSent).1 ∧
      (after.chunkedTransfer, after.headersSent) =
        ((HandleCall.writeChunk data).pieces exchange.chunkedTransfer exchange.headersSent).2 := by
  obtain ⟨context, chunked, opened, writes⟩ := exchange
  cases chunked with
  | false => exact ⟨.idle rfl rfl, rfl⟩
  | true =>
    cases opened with
    | true =>
      refine ⟨⟨⟨_, rfl, .next data .nil⟩, ?_⟩, rfl⟩
      simp [Exchange.writeChunkVia, Exchange.send, HandleCall.pieces]
    | false =>
      simp only [Exchange.writeChunkVia, Exchange.send, Exchange.respond, ok, if_true,
        Bool.false_eq_true, if_false]
      refine ⟨⟨⟨_, ?_, .first (prepare context.res) data .nil⟩, ?_⟩, rfl⟩
      · rw [List.append_assoc]
        rfl
      · simp [HandleCall.pieces]

theorem finishChunkedTransferVia_progress (ok : ∀ n, sendOk n = true) (throws : Bool)
    (exchange : Exchange) :
    let after := (exchange.finishChunkedTransferVia sendOk throws).1
    Progress exchange after
        (HandleCall.finishChunkedTransfer.pieces exchange.chunkedTransfer exchange.headersSent).1 ∧
      (after.chunkedTransfer, after.headersSent) =
        (HandleCall.finishChunkedTransfer.pieces exchange.chunkedTransfer exchange.headersSent).2 := by
  obtain ⟨context, chunked, opened, writes⟩ := exchange
  cases chunked with
  | false => exact ⟨.idle rfl rfl, rfl⟩
  | true =>
    simp only [Exchange.finishChunkedTransferVia, Exchange.send, Exchange.markSent, ok, if_true,
      Bool.not_true, Bool.and_false, Bool.false_eq_true, if_false]
    refine ⟨⟨⟨[_], rfl, .last .nil⟩, ?_⟩, rfl⟩
    simp [HandleCall.pieces]

theorem perform_progress (ok : ∀ n, sendOk n = true) (exchange : Exchange) (call : HandleCall) :
    let after := call.perform sendOk exchange
    Progress exchange after (call.pieces exchange.chunkedTransfer exchange.headersSent).1 ∧
      (after.chunkedTransfer, after.headersSent) =
        (call.pieces exchange.chunkedTransfer exchange.headersSent).2 := by
  cases call with
  | respond change => exact ⟨.idle rfl rfl, rfl⟩
  | enableChunkedTransfer => exact ⟨.idle rfl rfl, rfl⟩
  | writeChunk data => exact writeChunkVia_progress ok _ exchange data
  | writeChunkSync data => exact writeChunkVia_progress ok _ exchange data
  | finishChunkedTransfer => exact finishChunkedTransferVia_progress ok true exchange
  | finishChunkedTransferSync => exact finishChunkedTransferVia_progress ok false exchange

theorem calls_progress (ok : ∀ n, sendOk n = true) (calls : List HandleCall) (exchange : Exchange) :
    Progress exchange (calls.foldl (HandleCall.perform sendOk) exchange)
      (piecesFrom exchange.chunkedTransfer exchange.headersSent calls) := by
  induction calls generalizing exchange with
  | nil => exact .idle rfl rfl
  | cons call rest ih =>
    obtain ⟨performed, flags⟩ := perform_progress ok exchange call
    have tail := ih (call.perform sendOk exchange)
    simp only [Prod.ext_iff] at flags
    rw [flags.1, flags.2] at tail
    exact performed.trans tail

theorem calls_context (sendOk : Nat → Bool) (calls : List HandleCall) (exchange : Exchange) :
    (calls.foldl (HandleCall.perform sendOk) exchange).context.req = exchange.context.req ∧
      (calls.foldl (HandleCall.perform sendOk) exchange).context.buffer = exchange.context.buffer := by
  have chunk (prepare : Response → Response) (exchange : Exchange) (data : Bytes) :
      (exchange.writeChunkVia sendOk prepare data).1.context.req = exchange.context.req ∧
        (exchange.writeChunkVia sendOk prepare data).1.context.buffer = exchange.context.buffer := by
    obtain ⟨context, chunked, opened, writes⟩ := exchange
    cases chunked <;> cases opened <;> cases delivered : sendOk writes.length <;>
      simp [Exchange.writeChunkVia, Exchange.send, Exchange.respond, delivered]
  have finish (throws : Bool) (exchange : Exchange) :
      (exchange.finishChunkedTransferVia sendOk throws).1.context.req = exchange.context.req ∧
        (exchange.finishChunkedTransferVia sendOk throws).1.context.buffer =
          exchange.context.buffer := by
    obtain ⟨context, chunked, opened, writes⟩ := exchange
    cases chunked <;> cases failed : throws && !sendOk writes.length <;>
      simp [Exchange.finishChunkedTransferVia, Exchange.send, Exchange.markSent, failed]
  induction calls generalizing exchange with
  | nil => exact ⟨rfl, rfl⟩
  | cons call rest ih =>
    obtain ⟨req, buffer⟩ := ih (call.perform sendOk exchange)
    rw [List.foldl_cons, req, buffer]
    cases call with
    | respond change | enableChunkedTransfer => exact ⟨rfl, rfl⟩
    | writeChunk data | writeChunkSync data => exact chunk _ exchange data
    | finishChunkedTransfer => exact finish true exchange
    | finishChunkedTransferSync => exact finish false exchange

theorem runStages_calls (sendOk : Nat → Bool) (stages : List Script) (exchange : Exchange) :
    (Handle.runStages sendOk stages exchange).1 =
      (Handle.executed stages).foldl (HandleCall.perform sendOk) exchange := by
  induction stages generalizing exchange with
  | nil => rfl
  | cons stage rest ih =>
    simp only [Handle.runStages, Handle.executed]
    split
    · rw [ih, List.foldl_append]
    · rfl

theorem invoke_spec (bizErrMsg : Int → Bytes) (sendOk : Nat → Bool) (handle : Handle)
    (exchange : Exchange) :
    ∃ change, handle.invoke bizErrMsg sendOk exchange =
      (handle.calls.foldl (HandleCall.perform sendOk) exchange).respond change := by
  rw [Handle.calls, ← runStages_calls]
  simp only [Handle.invoke]
  split
  · split
    · split
      · exact ⟨id, rfl⟩
      · split
        · exact ⟨_, rfl⟩
        · exact ⟨_, rfl⟩
    · exact ⟨_, rfl⟩
  · exact ⟨_, rfl⟩
  · exact ⟨_, rfl⟩

theorem Progress.respond (progress : Progress before after sent) (change : Response → Response) :
    Progress before (after.respond change) sent :=
  ⟨progress.wrote, progress.marked⟩

namespace HttpServer

/-- The calls that the handler of a request makes; none when no handler class runs. -/
def handlerCalls (server : HttpServer) (admitted : Bool) (index : Nat) (request : Request) :
    List HandleCall :=
  match server.action admitted request, server.route request with
  | .dispatch, .found handler =>
      match handler index (server.fixHost request) with
      | .handle handle => handle.calls
      | .function _ _ => []
  | _, _ => []

end HttpServer

/-- An exchange of this context before its handler has done anything. -/
structure Fresh (context : BeastContext) (exchange : Exchange) : Prop where
  silent : exchange.writes = []
  unchunked : exchange.chunkedTransfer = false
  unopened : exchange.headersSent = false
  marked : exchange.context.responseSent = context.responseSent
  held : exchange.context.buffer = context.buffer
  keeps : exchange.context.req.keepAlive = context.req.keepAlive

theorem fixHost_keepAlive (server : HttpServer) (request : Request) :
    (server.fixHost request).keepAlive = request.keepAlive := by
  simp only [HttpServer.fixHost]
  split
  · simp only [Request.keepAlive]
    rw [Fields.get_set_of_ne request.fields _ (by decide)]
  · rfl

/-- Around the calls of the handler, dispatch and error paths change the response only. -/
theorem processHandle_spec (server : HttpServer) (ssl : Bool) (sendOk : Nat → Bool) (index : Nat)
    (admitted : Bool) (context : BeastContext)
    (dispatched : server.action admitted context.req = .dispatch) :
    ∃ before change, Fresh context before ∧
      processHandle server ssl sendOk index (.start context) =
        ((server.handlerCalls admitted index context.req).foldl (HandleCall.perform sendOk)
          before).respond change := by
  have settled (exchange : Exchange) : ∃ change, settle exchange = exchange.respond change := by
    unfold settle
    split
    · exact ⟨id, rfl⟩
    · exact ⟨_, rfl⟩
  let dressed : Exchange := { Exchange.start context with
    context := { context with req := server.fixHost context.req } }.respond
      (setResponseHeaders server.corsConfig ssl)
  have fresh (change : Response → Response) : Fresh context (dressed.respond change) :=
    ⟨rfl, rfl, rfl, rfl, rfl, fixHost_keepAlive server context.req⟩
  have request : (Exchange.start context).context.req = context.req := rfl
  simp only [processHandle, HttpServer.handlerCalls, request, dispatched]
  cases server.route context.req with
  | noRouter | preflight | missing => exact ⟨_, _, fresh fun _ => context.res, rfl⟩
  | found handler =>
    simp only
    cases handler index (server.fixHost context.req) with
    | handle handle =>
      obtain ⟨change, invoked⟩ := invoke_spec server.bizErrMsg sendOk handle dressed
      obtain ⟨later, finished⟩ := settled (handle.invoke server.bizErrMsg sendOk dressed)
      exact ⟨dressed, later ∘ change, fresh id, finished.trans (by rw [invoked]; rfl)⟩
    | function change throws =>
      obtain ⟨later, finished⟩ := settled (dressed.respond change)
      refine ⟨dressed.respond change, if throws then fun response =>
        setResponseHeaders server.corsConfig ssl (internalServerError response) else later,
        fresh change, ?_⟩
      cases throws with
      | true => rfl
      | false => exact finished

namespace Connection

/-- After the handler the context still has the request, up to its `Host`, and the buffer. -/
theorem processHandle_context (server : HttpServer) (ssl : Bool) (sendOk : Nat → Bool) (index : Nat)
    (admitted : Bool) (context : BeastContext)
    (dispatched : server.action admitted context.req = .dispatch) :
    let after := processHandle server ssl sendOk index (.start context)
    after.context.buffer = context.buffer ∧
      after.context.req.keepAlive = context.req.keepAlive := by
  obtain ⟨before, change, fresh, handled⟩ :=
    processHandle_spec server ssl sendOk index admitted context dispatched
  obtain ⟨req, buffer⟩ := calls_context sendOk (server.handlerCalls admitted index context.req) before
  simp only [handled, Exchange.respond]
  rw [buffer, req]
  exact ⟨fresh.held, fresh.keeps⟩

end Connection

variable {Network : Type} {server : HttpServer}
  {read : Network → Bytes → Option (Request × Bytes × Network)} {now : Circumstances}
  {index : Nat} {connection : Connection} {network rest : Network} {request : Request}
  {buffer : Bytes}

/-- The response of a turn, as `writeResponse` leaves it: that of an exchange which
went through the calls of the handler. -/
structure Response.Written (server : HttpServer) (now : Circumstances) (index : Nat)
    (connection : Connection) (request : Request) (buffer : Bytes) (turn : Turn Network)
    (before : Exchange) (change : Response → Response) : Prop where
  fresh : Fresh (connection.received request buffer) before
  written : turn.writes = (writeResponse connection.ssl now.sendOk
    (((server.handlerCalls now.admitted index request).foldl (HandleCall.perform now.sendOk)
      before).respond change)).1.writes
  marked : turn.connection.session.responseSent = (writeResponse connection.ssl now.sendOk
    (((server.handlerCalls now.admitted index request).foldl (HandleCall.perform now.sendOk)
      before).respond change)).1.context.responseSent

theorem answer_written (index : Nat) (connection : Connection) (buffer : Bytes) (rest : Network)
    (plain : server.action now.admitted request ≠ .upgrade) :
    ∃ before change, Response.Written server now index connection request buffer
      (answer server now index connection request buffer rest) before change := by
  let session := connection.received request buffer
  cases action : server.action now.admitted request with
  | upgrade => exact absurd action plain
  | rejectHttp2 =>
    have none : server.handlerCalls now.admitted index request = [] := by
      simp [HttpServer.handlerCalls, action]
    refine ⟨.start session, http2Rejection, ⟨rfl, rfl, rfl, rfl, rfl, rfl⟩, ?_, ?_⟩ <;>
      simp only [answer, action, none, List.foldl_nil] <;> rfl
  | rejectRate =>
    have none : server.handlerCalls now.admitted index request = [] := by
      simp [HttpServer.handlerCalls, action]
    refine ⟨.start session, tooManyRequests, ⟨rfl, rfl, rfl, rfl, rfl, rfl⟩, ?_, ?_⟩ <;>
      simp only [answer, action, none, List.foldl_nil] <;> rfl
  | dispatch =>
    obtain ⟨before, change, fresh, handled⟩ := processHandle_spec server connection.ssl now.sendOk
      index now.admitted session action
    have handled : processHandle server connection.ssl now.sendOk index (.start session) =
        ((server.handlerCalls now.admitted index request).foldl (HandleCall.perform now.sendOk)
          before).respond change := handled
    refine ⟨before, change, fresh, ?_, ?_⟩ <;> rw [← handled] <;> simp only [answer, action] <;> rfl

/-- What a turn leaves on the wire: the pieces of its handler, and a whole message
unless a terminator was sent in this turn or in an earlier one. -/
structure Answered (earlier : Bool) (sent : List Piece) (outputs : List Output)
    (responseSent : Bool) : Prop where
  marked : responseSent = (earlier || sent.contains .last)
  wrote : ∃ outs response, Emits sent outs ∧
    outputs = outs ++ if responseSent then [] else [.message response]

theorem Progress.answered (sendOk : Nat → Bool) (ssl : Bool) (progress : Progress before after sent)
    (fresh : before.writes = []) :
    Answered before.context.responseSent sent
      ((writeResponse ssl sendOk after).1.writes.map Write.output)
      (writeResponse ssl sendOk after).1.context.responseSent := by
  obtain ⟨outs, wrote, emits⟩ := progress.wrote
  have plain : (outs.map (Write.mk .tcp)).map Write.output = outs := by
    rw [List.map_map]
    exact List.map_id outs
  rw [fresh, List.nil_append] at wrote
  cases marked : after.context.responseSent with
  | true =>
    simp only [writeResponse, marked, if_true]
    exact ⟨progress.marked ▸ marked.symm, outs, .empty, emits, by simp [wrote, plain]⟩
  | false =>
    simp only [writeResponse, marked, Bool.false_eq_true, if_false, Exchange.send]
    exact ⟨progress.marked ▸ marked.symm, outs, after.context.res, emits, by simp [wrote, plain]⟩

theorem turn_answered (ok : ∀ n, now.sendOk n = true)
    (requested : (turn server read now index connection network).request = some request)
    (plain : server.action now.admitted request ≠ .upgrade) :
    Answered connection.session.responseSent
      (pieces (server.handlerCalls now.admitted index request))
      (turn server read now index connection network).outputs
      (turn server read now index connection network).connection.session.responseSent := by
  obtain ⟨buffer, rest, _, answered⟩ := turn_answer requested
  obtain ⟨before, change, fresh, written, marked⟩ :=
    answer_written index connection buffer rest plain
  have progress := (calls_progress ok (server.handlerCalls now.admitted index request) before).respond
    change
  rw [fresh.unchunked, fresh.unopened] at progress
  have complete := progress.answered now.sendOk connection.ssl fresh.silent
  have earlier : before.context.responseSent = connection.session.responseSent := fresh.marked
  rw [answered, Turn.outputs, written, marked, ← earlier]
  exact complete

end Hku
