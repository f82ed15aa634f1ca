import HkuRest.Httpd.ResponseFraming
import HkuRest.Mcp.McpReplies

/-! When a client that accepts event streams gets its answer. The handle streams its
response for one tool only, but sends every event as a chunk: without a stream the
chunk of a result is dropped, and that of an error opens a stream that nobody ends. -/

namespace Hku

open Connection McpHandle

/-- The JSON values that a body carries: a streamed one is an event stream. -/
def carried (codec : JsonCodec) (streamed : Bool) (body : Bytes) : List Json :=
  (if streamed then EventStream.events body else [body]).filterMap codec.parse

/-- One well-formed response was written, and of what it carries just one object is a JSON-RPC
response, with this id. -/
def AnsweredOnce (codec : JsonCodec) (outputs : List Output) (id : Json) : Prop :=
  ∃ streamed body reply, Delivers outputs streamed body ∧
    (carried codec streamed body).filter Json.isResponse = [reply] ∧ reply.find (key "id") = some id

variable {codec : JsonCodec} {outputs outs : List Output} {sent : List Piece} {id : Json}
  {response : Response}

theorem AnsweredOnce.one (answered : AnsweredOnce codec outputs id) : OneResponse outputs := by
  obtain ⟨streamed, body, reply, delivers, _⟩ := answered
  exact delivers.one

theorem not_answeredOnce_nil : ¬ AnsweredOnce codec [] id := by
  intro answered
  cases answered.one

theorem answeredOnce_whole (sized : response.Sized) :
    AnsweredOnce codec [.message response] id ↔ ∃ reply,
      codec.parse response.body = some reply ∧ reply.isResponse = true ∧
        reply.find (key "id") = some id := by
  constructor
  · rintro ⟨streamed, body, reply, delivers, single, named⟩
    cases delivers with
    | whole _ framed =>
      cases parsed : codec.parse response.body with
      | none => simp [carried, parsed] at single
      | some json =>
        simp only [carried, Bool.false_eq_true, if_false, List.filterMap_cons, parsed,
          List.filterMap_nil, List.filter_cons, List.filter_nil] at single
        split at single
        · rename_i responds
          obtain rfl : json = reply := by simpa using single
          exact ⟨json, rfl, responds, named⟩
        · cases single
  · rintro ⟨reply, parsed, responds, named⟩
    refine ⟨false, response.body, reply, .whole response (.inl sized), ?_, named⟩
    simp [carried, parsed, responds]

variable {service : McpService} {request : Request} {method sessionId text : Bytes} {json : Json}
  {headers : List HandleCall} {sessions : SessionManager} {dispatched : Dispatched}
  {useSse : Bool} {code : Int}

theorem opensOnce_chunkPieces (data : Bytes) (more : List Bytes) :
    OpensOnce (chunkPieces (data :: more) ++ [.last]) := by
  refine ⟨data, more.map .next ++ [.last], rfl, ?_⟩
  intro piece member
  rcases List.mem_append.mp member with next | last
  · obtain ⟨_, _, rfl⟩ := List.mem_map.mp next
    rfl
  · rw [List.mem_singleton.mp last]
    rfl

theorem chunkPieces_data (chunks : List Bytes) : (chunkPieces chunks).map Piece.data = chunks := by
  cases chunks with
  | nil => rfl
  | cons data more => simp [chunkPieces, Piece.data, Function.comp_def]

theorem Emits.answered_stream_iff {chunks : List Bytes} (begun : chunks ≠ [])
    (filled : ∀ data ∈ chunks, data ≠ []) (emits : Emits (chunkPieces chunks ++ [.last]) outs)
    (announced : ∀ response, .header response ∈ outs → response.Chunked) :
    AnsweredOnce codec outs id ↔ ∃ reply,
      ((EventStream.events chunks.flatten).filterMap codec.parse).filter Json.isResponse = [reply] ∧
        reply.find (key "id") = some id := by
  have opened : OpensOnce (chunkPieces chunks ++ [.last]) := by
    cases chunks with
    | nil => exact absurd rfl begun
    | cons data more => exact opensOnce_chunkPieces data more
  have decoded : ChunkedCoding.decode
      (((chunkPieces chunks ++ [Piece.last]).map Piece.data).flatMap ChunkedCoding.chunk) =
        .complete chunks.flatten [] := by
    rw [List.map_append, chunkPieces_data]
    simpa [Piece.data] using ChunkedCoding.decode_complete chunks filled []
  constructor
  · rintro ⟨streamed, body, reply, delivers, single, named⟩
    obtain ⟨rfl, _, complete⟩ := emits.of_delivers delivers
    rw [decoded] at complete
    obtain ⟨rfl, _⟩ := ChunkedCoding.Body.complete.inj complete
    exact ⟨reply, single, named⟩
  · rintro ⟨reply, single, named⟩
    exact ⟨true, chunks.flatten, reply, emits.delivers announced opened decoded, single, named⟩

theorem Emits.not_answered (emits : Emits sent outs) (twice : ¬ OpensOnce sent) :
    ¬ AnsweredOnce codec outs id := by
  rintro ⟨streamed, body, reply, delivers, _⟩
  exact twice (emits.of_delivers delivers).2.1

theorem not_opensOnce_last : ¬ OpensOnce [Piece.last] := by
  rintro ⟨data, more, shape, _⟩
  cases shape

theorem not_opensOnce_again {chunks : List Bytes} (begun : chunks ≠ []) (data : Bytes)
    (rest : List Piece) : ¬ OpensOnce (chunkPieces chunks ++ .first data :: rest) := by
  rintro ⟨head, more, shape, closed⟩
  cases chunks with
  | nil => exact begun rfl
  | cons front chunks =>
    have member : Piece.first data ∈ more := by
      rw [← (List.cons.inj shape).2]
      simp
    cases closed _ member

theorem pushed_filled (dispatched : Dispatched) :
    ∀ data ∈ (pushedTexts service dispatched).map EventStream.event, data ≠ [] := by
  intro data member
  obtain ⟨text, _, rfl⟩ := List.mem_map.mp member
  simp [EventStream.event]

theorem Emits.not_answered_pushed
    (emits : Emits (chunkPieces ((pushedTexts service dispatched).map EventStream.event) ++ [.last])
      outs)
    (announced : ∀ response, .header response ∈ outs → response.Chunked) :
    ¬ AnsweredOnce service.codec outs id := by
  by_cases idle : pushedTexts service dispatched = []
  · rw [idle] at emits
    exact emits.not_answered not_opensOnce_last
  · have read := events_pushed service dispatched []
    rw [List.append_nil, EventStream.events_nil, List.append_nil] at read
    rw [emits.answered_stream_iff (by simpa using idle) (pushed_filled dispatched) announced, read,
      pushedTexts_carried]
    rintro ⟨reply, none, _⟩
    cases none

theorem Emits.answered_reply (replied : replyText service id dispatched = some text)
    (emits : Emits (chunkPieces ((pushedTexts service dispatched).map EventStream.event ++
      [sseMessage text]) ++ [.last]) outs)
    (announced : ∀ response, .header response ∈ outs → response.Chunked) :
    AnsweredOnce service.codec outs id := by
  obtain ⟨line, reply, parsed, responds, named⟩ := replyText_reads replied
  have filled : ∀ data ∈ (pushedTexts service dispatched).map EventStream.event ++
      [sseMessage text], data ≠ [] := by
    intro data member
    rcases List.mem_append.mp member with pushed | last
    · exact pushed_filled dispatched data pushed
    · rw [List.mem_singleton.mp last]
      exact sseMessage_ne_nil text
  have read : EventStream.events (((pushedTexts service dispatched).map EventStream.event ++
      [sseMessage text]).flatten) = pushedTexts service dispatched ++ [text] := by
    have ending : EventStream.events (sseMessage text ++ []) = text :: EventStream.events [] :=
      EventStream.events_namedEvent [] (by decide) line
    rw [List.append_nil, EventStream.events_nil] at ending
    rw [List.flatten_append, List.flatten_singleton, events_pushed, ending]
  refine (emits.answered_stream_iff (by simp) filled announced).mpr ⟨reply, ?_, named⟩
  rw [read, List.filterMap_append, List.filter_append, pushedTexts_carried]
  simp [parsed, responds]

/-- A terminator at the end keeps the connection from adding a message. -/
theorem Answered.ended {earlier responseSent : Bool}
    (answered : Answered earlier sent outputs responseSent) (last : .last ∈ sent) :
    Emits sent outputs := by
  obtain ⟨outs, response, emits, rfl⟩ := answered.wrote
  have contained : sent.contains .last = true := by simpa using last
  rw [answered.marked, contained, Bool.or_true, if_pos rfl, List.append_nil]
  exact emits

/-- When a dispatched method answers the client: as an event only within the stream that
the handle opened for the method, and with an error only as the first event of that
stream; as the body of a plain response, unless the connection takes an earlier response
for it. -/
def Replies (service : McpService) (responseSent supportsSse : Bool) (method : Bytes)
    (params id : Json) (dispatched : Dispatched) : Prop :=
  (replyText service id dispatched).isSome = true ∧
    (supportsSse = true ∧ enableStreaming true method params = some true ∧
        (dispatched.failed = true → pushedTexts service dispatched = []) ∨
      supportsSse = false ∧ responseSent = false)

/-- When the client is answered. A refusal reaches it as the body of a plain response
only. -/
def Answers (service : McpService) (visit : Visit) (responseSent : Bool) (request : Request)
    (method : Bytes) (params id : Json) : Prop :=
  match openSession visit method (extractSessionId request) with
  | (.error _, _) => supportsSse request = false ∧ responseSent = false
  | (.ok (sessionId, _), sessions) =>
      Replies service responseSent (supportsSse request) method params id
        (service.dispatchMethod { visit with sessions := sessions } method params sessionId id
          (supportsSse request))

instance (service : McpService) (responseSent supportsSse : Bool) (method : Bytes) (params id : Json)
    (dispatched : Dispatched) :
    Decidable (Replies service responseSent supportsSse method params id dispatched) :=
  inferInstanceAs (Decidable (_ ∧ (_ ∧ _ ∧ (_ → _) ∨ _ ∧ _)))

instance (service : McpService) (visit : Visit) (responseSent : Bool) (request : Request)
    (method : Bytes) (params id : Json) :
    Decidable (Answers service visit responseSent request method params id) :=
  match gate : openSession visit method (extractSessionId request) with
  | (.error _, _) =>
      decidable_of_iff (supportsSse request = false ∧ responseSent = false) (by rw [Answers, gate])
  | (.ok (sessionId, _), sessions) =>
      decidable_of_iff (Replies service responseSent (supportsSse request) method params id
        (service.dispatchMethod { visit with sessions := sessions } method params sessionId id
          (supportsSse request))) (by rw [Answers, gate])

theorem ofRun_calls (calls : List HandleCall) :
    (Handle.ofRun ⟨calls, .returned bizOk⟩).calls = calls := by
  simp [Handle.calls, Handle.ofRun, Handle.stages, Handle.hook, Handle.executed]

section

variable {Network : Type} {server : HttpServer}
  {read : Network → Bytes → Option (Request × Bytes × Network)} {now : Circumstances} {index : Nat}
  {connection : Connection} {network : Network} {visits : Nat → Visit} {calls : List HandleCall}

/-- A turn in which this service handles the request. -/
structure Handles (server : HttpServer)
    (read : Network → Bytes → Option (Request × Bytes × Network)) (now : Circumstances) (index : Nat)
    (connection : Connection) (network : Network) (service : McpService) (visits : Nat → Visit)
    (request : Request) : Prop where
  delivered : ∀ n, now.sendOk n = true
  requested : (turn server read now index connection network).request = some request
  dispatched : server.action now.admitted request = .dispatch
  routed : server.route request = .found (service.handler visits)

variable (handles : Handles server read now index connection network service visits request)

include handles

theorem Handles.answered
    (ran : run service (visits index) [] (server.fixHost request) = ⟨calls, .returned bizOk⟩) :
    Answered connection.session.responseSent (pieces calls)
      (turn server read now index connection network).outputs
      (turn server read now index connection network).connection.session.responseSent := by
  have plain : server.action now.admitted request ≠ .upgrade := by
    rw [handles.dispatched]
    simp
  have answered := turn_answered handles.delivered handles.requested plain
  have called : server.handlerCalls now.admitted index request = calls := by
    simp only [HttpServer.handlerCalls, handles.dispatched, handles.routed, McpService.handler, ran,
      ofRun_calls]
  rwa [called] at answered

theorem Handles.announced
    (ran : run service (visits index) [] (server.fixHost request) = ⟨calls, .returned bizOk⟩)
    (keeps : ∀ call ∈ calls, call.KeepsFraming) :
    ∀ response, .header response ∈ (turn server read now index connection network).outputs →
      response.Chunked := by
  have handled : service.handler visits index (server.fixHost request) =
      .handle (.ofRun ⟨calls, .returned bizOk⟩) := by
    rw [McpService.handler, ran]
  apply turn_announces handles.requested handles.dispatched handles.routed handled
  rw [ofRun_calls]
  exact keeps

/-- The stream that an error opens is never ended: no answer, with or without the
message that the connection adds. -/
theorem Handles.not_answered_opened {opening : List HandleCall}
    (sets : ∀ call ∈ opening, call.SetsHeader)
    (ran : run service (visits index) [] (server.fixHost request) =
      ⟨opening ++ errorCalls true text, .returned bizOk⟩) :
    ¬ AnsweredOnce service.codec (turn server read now index connection network).outputs id := by
  intro once
  have answered := handles.answered ran
  have opened : pieces (opening ++ errorCalls true text) = [.first (sseMessage text)] := by
    have error := pieces_errorCalls false false text []
    rw [List.append_nil] at error
    rw [pieces, piecesFrom_headers sets, error]
    rfl
  rw [opened] at answered
  have served := answered.oneResponse_iff.mp once.one
  rcases served with ⟨_, none⟩ | ⟨_, _, front, ends, _⟩
  · cases none
  · cases front with
    | nil => exact sseMessage_ne_nil text (by simpa [Piece.data] using ends)
    | cons head tail => simp [Piece.data] at ends

theorem Handles.answered_plain_iff {opening more : List HandleCall} (text : Bytes)
    (sets : ∀ call ∈ opening, call.SetsHeader)
    (ran : run service (visits index) [] (server.fixHost request) =
      ⟨opening ++ more, .returned bizOk⟩)
    (never : ∀ call ∈ more, call.enables = false)
    (rewritten : ∀ response : Response, response.body = [] → (rewrites more response).body = text ∧
      (rewrites more response).status = response.status ∧
        (rewrites more response).framing = response.framing) :
    AnsweredOnce service.codec (turn server read now index connection network).outputs id ↔
      connection.session.responseSent = false ∧ ∃ reply, service.codec.parse text = some reply ∧
        reply.isResponse = true ∧ reply.find (key "id") = some id := by
  have kept := (Response.setResponseHeaders_keeps server.corsConfig connection.ssl .empty).trans
    (rewrites_headers sets _)
  obtain ⟨body, status, framing⟩ := rewritten _ kept.body
  have handled : service.handler visits index (server.fixHost request) =
      .handle (.ofRun ⟨opening ++ more, .returned bizOk⟩) := by
    rw [McpService.handler, ran]
  have silent : ∀ call ∈ opening ++ more, call.enables = false := by
    intro call member
    rcases List.mem_append.mp member with header | later
    · exact (sets call header).enables
    · exact never call later
  obtain ⟨response, written, sized, outputs⟩ := turn_plain handles.requested handles.dispatched
    handles.routed handled silent (by rw [rewrites_append, status, kept.status]; rfl)
    (by rw [rewrites_append, framing, kept.framing]; rfl)
  rw [outputs]
  cases connection.session.responseSent with
  | true => simp [not_answeredOnce_nil]
  | false =>
    rw [if_neg Bool.false_ne_true, answeredOnce_whole sized, written, rewrites_append, body]
    simp

theorem Handles.answered_text_iff {opening : List HandleCall}
    (sets : ∀ call ∈ opening, call.SetsHeader)
    (ran : run service (visits index) [] (server.fixHost request) =
      ⟨opening ++ errorCalls false text, .returned bizOk⟩) :
    AnsweredOnce service.codec (turn server read now index connection network).outputs id ↔
      connection.session.responseSent = false ∧ ∃ reply, service.codec.parse text = some reply ∧
        reply.isResponse = true ∧ reply.find (key "id") = some id := by
  apply handles.answered_plain_iff text sets ran
  · simp [errorCalls, HandleCall.enables]
  · intro response _
    exact ⟨rfl, rfl, rfl⟩

theorem Handles.answered_streamed_iff {opening : List HandleCall}
    (sets : ∀ call ∈ opening, call.SetsHeader)
    (ran : run service (visits index) [] (server.fixHost request) =
      ⟨opening ++ (setSseHeaders ++ [.enableChunkedTransfer]) ++
        dispatchCalls service [] true true id dispatched ++ [.finishChunkedTransfer],
        .returned bizOk⟩) :
    AnsweredOnce service.codec (turn server read now index connection network).outputs id ↔
      (replyText service id dispatched).isSome = true ∧
        (dispatched.failed = true → pushedTexts service dispatched = []) := by
  have announced := handles.announced ran (by
    simp only [List.forall_mem_append, List.forall_mem_singleton]
    refine ⟨⟨⟨?_, ?_, trivial⟩, dispatchCalls_keepsFraming _ _ _ _ _⟩, trivial⟩
    · intro call member
      exact (sets call member).keepsFraming
    · intro call member
      exact (setSseHeaders_setsHeader call member).keepsFraming)
  have answered := handles.answered ran
  rw [pieces_streamed sets] at answered
  cases replied : replyText service id dispatched with
  | none =>
    rw [replyCalls, replied] at answered
    have unanswered : ¬ AnsweredOnce service.codec _ id :=
      (answered.ended (by simp [piecesFrom, HandleCall.pieces])).not_answered_pushed announced
    simpa using unanswered
  | some text =>
    cases failed : dispatched.failed with
    | false =>
      simp only [replyCalls, replied, failed, Bool.false_eq_true, if_false, if_true,
        piecesFrom_ended] at answered
      have answering := Emits.answered_reply replied (answered.ended (by simp)) announced
      simpa using answering
    | true =>
      simp only [replyCalls, replied, failed, if_true, pieces_errorCalls] at answered
      have ended := answered.ended (by simp [piecesFrom, HandleCall.pieces])
      by_cases idle : pushedTexts service dispatched = []
      · have answering := Emits.answered_reply replied (by rw [idle] at ended ⊢; exact ended)
          announced
        simpa [idle] using answering
      · -- The error opens the stream anew.
        have twice : ¬ AnsweredOnce service.codec _ id :=
          ended.not_answered (not_opensOnce_again (by simpa using idle) _ _)
        simpa [idle] using twice

theorem Handles.answered_unstreamed_iff {opening : List HandleCall}
    (sets : ∀ call ∈ opening, call.SetsHeader)
    (ran : run service (visits index) [] (server.fixHost request) =
      ⟨opening ++ dispatchCalls service [] false useSse id dispatched, .returned bizOk⟩) :
    AnsweredOnce service.codec (turn server read now index connection network).outputs id ↔
      (replyText service id dispatched).isSome = true ∧ useSse = false ∧
        connection.session.responseSent = false := by
  rw [dispatchCalls_eq, pushProgress_idle, List.nil_append] at ran
  cases replied : replyText service id dispatched with
  | none =>
    rw [replyCalls, replied] at ran
    rw [handles.answered_plain_iff [] sets ran (by simp) fun response empty => ⟨empty, rfl, rfl⟩]
    simp [service.codec.parse_nil]
  | some text =>
    cases useSse with
    | false =>
      rw [replyCalls_plain replied] at ran
      rw [handles.answered_text_iff sets ran]
      simp [(replyText_reads replied).2]
    | true =>
      rw [replyCalls, replied] at ran
      cases failed : dispatched.failed with
      | true =>
        simp only [failed, if_true] at ran
        simpa using handles.not_answered_opened sets ran
      | false =>
        -- The chunk is dropped, and the body stays empty.
        simp only [failed, Bool.false_eq_true, if_false, if_true] at ran
        rw [handles.answered_plain_iff [] sets ran (by simp [HandleCall.enables])
          fun response empty => ⟨empty, rfl, rfl⟩]
        simp [service.codec.parse_nil]

theorem Handles.answered_refused_iff (posts : Posts service (server.fixHost request) json method id)
    (reports : service.ReportsErrors id)
    (gate : openSession (visits index) method (extractSessionId (server.fixHost request)) =
      (.error code, sessions)) :
    AnsweredOnce service.codec (turn server read now index connection network).outputs id ↔
      supportsSse (server.fixHost request) = false ∧ connection.session.responseSent = false := by
  have sets : ∀ call ∈ ([] : List HandleCall), call.SetsHeader := List.forall_mem_nil _
  obtain ⟨text, dumped⟩ := Option.isSome_iff_exists.mp
    (reports.refusal code (openSession_refusal gate))
  have ran := run_refused posts.calls posts.id_eq gate dumped
  cases sse : supportsSse (server.fixHost request) with
  | true =>
    rw [sse] at ran
    simpa using handles.not_answered_opened sets ran
  | false =>
    rw [sse] at ran
    rw [handles.answered_text_iff sets ran]
    simp [service.codec.parse_dump dumped, errorResponse_isResponse]

theorem Handles.answered_opened_iff (posts : Posts service (server.fixHost request) json method id)
    (reports : service.ReportsErrors id)
    (gate : openSession (visits index) method (extractSessionId (server.fixHost request)) =
      (.ok (sessionId, headers), sessions)) :
    AnsweredOnce service.codec (turn server read now index connection network).outputs id ↔
      Replies service connection.session.responseSent (supportsSse (server.fixHost request)) method
        (paramsOf json) id
        (service.dispatchMethod { visits index with sessions := sessions } method (paramsOf json)
          sessionId id (supportsSse (server.fixHost request))) := by
  have sets := openSession_echoed gate
  cases typed : enableStreaming (supportsSse (server.fixHost request)) method (paramsOf json) with
  | none =>
    obtain ⟨text, dumped⟩ := Option.isSome_iff_exists.mp reports.internal
    have ran := run_untyped posts.calls gate typed dumped
    cases sse : supportsSse (server.fixHost request) with
    | false =>
      rw [sse] at typed
      cases typed
    | true =>
      rw [sse] at ran typed
      simpa [Replies, typed] using handles.not_answered_opened sets ran
  | some streaming =>
    have ran := run_dispatched posts gate typed
    cases streaming with
    | false =>
      simp only [Bool.false_eq_true, if_false, List.append_nil] at ran
      rw [handles.answered_unstreamed_iff sets ran]
      cases sse : supportsSse (server.fixHost request) with
      | false => simp [Replies]
      | true =>
        rw [sse] at typed
        simp [Replies, typed]
    | true =>
      cases sse : supportsSse (server.fixHost request) with
      | false =>
        rw [sse] at typed
        cases typed
      | true =>
        rw [sse] at ran typed
        simp only [if_true] at ran
        rw [handles.answered_streamed_iff sets ran]
        simp [Replies, typed]

/-- A request to the service is answered just once, by one response, exactly when it is
answered as above. -/
theorem event_stream_answered_iff (posts : Posts service (server.fixHost request) json method id)
    (reports : service.ReportsErrors id) :
    AnsweredOnce service.codec (turn server read now index connection network).outputs id ↔
      Answers service (visits index) connection.session.responseSent (server.fixHost request)
        method (paramsOf json) id := by
  rcases gate : openSession (visits index) method (extractSessionId (server.fixHost request)) with
    ⟨code | ⟨sessionId, headers⟩, sessions⟩
  · rw [Answers, gate]
    exact handles.answered_refused_iff posts reports gate
  · rw [Answers, gate]
    exact handles.answered_opened_iff posts reports gate

end

namespace McpHandle

def quote (text : String) : Json := .string (Bytes.ascii text)

def jsonrpcCall (method : String) (more : List (Bytes × Json)) : Json :=
  .object ([(key "id", .integer 1), (key "jsonrpc", quote "2.0"), (key "method", quote method)] ++
    more)

def taskCall : Json :=
  jsonrpcCall "tools/call" [(key "params", .object [(key "name", quote "long_running_task")])]

def pingCall : Json := jsonrpcCall "ping" []

def taskStarted : ProgressUpdate := ⟨Bytes.ascii "task", 0, Bytes.ascii "Task started", .null⟩

def taskResult : Json := .object [(key "task_id", quote "task")]

def unknownError (_ : Int) : Bytes := Bytes.ascii "Unknown error"

def demoValues : List Json :=
  [taskCall, pingCall, progressNotification taskStarted, successResponse taskResult (.integer 1),
    successResponse (.object []) (.integer 1)] ++
  [bizJsonrpcInvalidParams, bizJsonrpcInternalError, bizMcpUnauthorized, bizMcpVersionMismatch].map
    (errorResponse unknownError · (.integer 1)) ++
  [errorResponse unknownError bizJsonrpcInternalError .null]

theorem demoValues_legible : Legible demoValues where
  distinct := by decide +kernel
  lines := by decide +kernel
  filled := by decide +kernel

/-- A service whose methods are a tool that pushes progress, and `ping`. -/
def demoService : McpService where
  codec := .ofValues demoValues demoValues_legible
  bizErrMsg := unknownError
  decompress := some
  dispatchMethod _ method _ _ _ _ :=
    if method = Bytes.ascii "tools/call" then ⟨[taskStarted], some ⟨taskResult, bizOk⟩⟩
    else ⟨[], some ⟨.object [], bizOk⟩⟩

def demoVisit : Visit where
  now := 0
  clientIp := Bytes.ascii "127.0.0.1"
  generatedId := Bytes.ascii "b"
  sessions := SessionManager.create.insert (Bytes.ascii "a") (.create 0 (Bytes.ascii "a") [])

def demoServer : HttpServer := .ofRoutes (demoService.regHandle (fun _ => demoVisit) [])

def post (json : Json) : Request :=
  ⟨Bytes.ascii "POST", Bytes.ascii "/mcp", 11,
    [(Bytes.ascii "Host", Bytes.ascii "localhost"),
      (Bytes.ascii "Accept", Bytes.ascii "text/event-stream"),
      (Bytes.ascii "Mcp-Session-Id", Bytes.ascii "a")], json.compact⟩

theorem demoService_reports : demoService.ReportsErrors (.integer 1) where
  refusal := by decide +kernel
  internal := by decide +kernel

theorem demoServer_handles (call : Json) :
    Handles demoServer arriving .calm 0 (.create false) [post call] demoService
      (fun _ => demoVisit) (post call) where
  delivered := fun _ => rfl
  requested := rfl
  dispatched := rfl
  routed := rfl

theorem jsonrpcCall_posts {method : String} {more : List (Bytes × Json)}
    (known : jsonrpcCall method more ∈ demoValues)
    (awaits : Bytes.ascii method ≠ Bytes.ascii "initialized") :
    Posts demoService (demoServer.fixHost (post (jsonrpcCall method more)))
      (jsonrpcCall method more) (Bytes.ascii method) (.integer 1) where
  parsed := demoService.codec.parse_dump (if_pos known)
  version := rfl
  named := rfl
  identified := rfl
  awaits := awaits

theorem event_stream_answered_iff_task :
    AnsweredOnce demoService.codec
      (turn demoServer arriving .calm 0 (.create false) [post taskCall]).outputs (.integer 1) :=
  (event_stream_answered_iff (demoServer_handles taskCall)
    (jsonrpcCall_posts (by decide +kernel) (by decide +kernel)) demoService_reports).mpr
    (by decide +kernel)

/-- A ping gets an empty body, as its event is dropped. -/
theorem ping_event_dropped :
    ¬ ∀ (server : HttpServer) (now : Circumstances) (index : Nat) (connection : Connection)
      (requests : List Request) (service : McpService) (visits : Nat → Visit) (request : Request)
      (json : Json) (method : Bytes) (id : Json),
      Handles server arriving now index connection requests service visits request →
      supportsSse (server.fixHost request) = true →
      Posts service (server.fixHost request) json method id → service.ReportsErrors id →
      AnsweredOnce service.codec (turn server arriving now index connection requests).outputs id := by
  intro answered
  have handles := demoServer_handles pingCall
  have posts : Posts demoService (demoServer.fixHost (post pingCall)) pingCall (Bytes.ascii "ping")
      (.integer 1) := jsonrpcCall_posts (by decide +kernel) (by decide +kernel)
  have sse : supportsSse (demoServer.fixHost (post pingCall)) = true := by decide +kernel
  have once := answered demoServer .calm 0 (.create false) [post pingCall] demoService
    (fun _ => demoVisit) (post pingCall) pingCall _ (.integer 1) handles sse posts demoService_reports
  rcases gate : openSession demoVisit (Bytes.ascii "ping")
      (extractSessionId (demoServer.fixHost (post pingCall))) with
    ⟨code | ⟨sessionId, headers⟩, sessions⟩
  · have refused := (handles.answered_refused_iff posts demoService_reports gate).mp once
    rw [sse] at refused
    cases refused.1
  · have replied := (handles.answered_opened_iff posts demoService_reports gate).mp once
    rw [sse] at replied
    rcases replied with ⟨_, ⟨_, streaming, _⟩ | ⟨plain, _⟩⟩
    · exact absurd streaming (by decide +kernel)
    · cases plain

end McpHandle

end Hku
