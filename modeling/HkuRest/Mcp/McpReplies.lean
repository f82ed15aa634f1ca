import HkuRest.Httpd.PlainResponse
import HkuRest.Mcp.RequestChecks

/-! What the calls of `McpHandle` amount to: for each way that `run` can take with a
JSON-RPC request its calls, and what these calls send. -/

namespace Hku

open McpHandle

/-- A response object of JSON-RPC 2.0. -/
def Json.isResponse (json : Json) : Bool :=
  json.find (key "jsonrpc") = some (.string (Bytes.ascii "2.0")) && (json.find (key "id")).isSome &&
    ((json.find (key "result")).isSome != (json.find (key "error")).isSome)

theorem successResponse_isResponse (result id : Json) :
    (successResponse result id).isResponse = true ∧
      (successResponse result id).find (key "id") = some id := by
  constructor
  · simp [Json.isResponse, successResponse, Json.find, key, Bytes.ascii]
  · simp [successResponse, Json.find, key, Bytes.ascii]

theorem errorResponse_isResponse (bizErrMsg : Int → Bytes) (code : Int) (id : Json) :
    (errorResponse bizErrMsg code id).isResponse = true ∧
      (errorResponse bizErrMsg code id).find (key "id") = some id := by
  constructor
  · simp [Json.isResponse, errorResponse, Json.find, key, Bytes.ascii]
  · simp [errorResponse, Json.find, key, Bytes.ascii]

theorem progressNotification_not_isResponse (progress : ProgressUpdate) :
    (progressNotification progress).isResponse = false := by
  simp [Json.isResponse, progressNotification, Json.find, key, Bytes.ascii]

variable {service : McpService} {visit : Visit} {request : Request} {method sessionId : Bytes}
  {headers : List HandleCall} {sessions : SessionManager} {json id : Json} {dispatched : Dispatched}
  {streaming useSse : Bool} {code : Int} {text : Bytes}

/-- The body of the request is a JSON-RPC request that wants a response. -/
structure Posts (service : McpService) (request : Request) (json : Json) (method : Bytes)
    (id : Json) : Prop where
  parsed : service.codec.parse (request.getReqData service.decompress) = some json
  version : json.find (key "jsonrpc") = some (.string (Bytes.ascii "2.0"))
  named : json.find (key "method") = some (.string method)
  identified : json.find (key "id") = some id
  awaits : method ≠ Bytes.ascii "initialized"

def paramsOf (json : Json) : Json := (json.find (key "params")).getD .null

theorem Json.value_of_find {name content : Bytes} (found : json.find name = some (.string content))
    (default : Bytes) : json.value name default = some content := by
  cases json with
  | object members => simp only [Json.value, found]
  | _ => cases found

/-- The errors that `run` reports itself can be dumped: their texts are plain, and the id
was read from a text. -/
structure McpService.ReportsErrors (service : McpService) (id : Json) : Prop where
  refusal : ∀ code ∈ [bizJsonrpcInvalidParams, bizJsonrpcInternalError, bizMcpUnauthorized,
    bizMcpVersionMismatch],
    (service.codec.dump (errorResponse service.bizErrMsg code id)).isSome = true
  internal : (service.codec.dump
    (errorResponse service.bizErrMsg bizJsonrpcInternalError .null)).isSome = true

/-- The calls that send an error of this text. -/
def errorCalls (useSse : Bool) (text : Bytes) : List HandleCall :=
  if useSse then setSseHeaders ++ [.enableChunkedTransfer] ++ [.writeChunk (sseMessage text)]
  else [.respond (·.setBody text)]

theorem sendMcpErrorResponse_eq
    (dumped : service.codec.dump (errorResponse service.bizErrMsg code id) = some text) :
    sendMcpErrorResponse service [] code id useSse = some (errorCalls useSse text) := by
  simp [sendMcpErrorResponse, dumped, errorCalls]

theorem Posts.calls (posts : Posts service request json method id) :
    CallsMethod service request json method where
  parsed := posts.parsed
  version := posts.version
  named := Json.value_of_find posts.named []

theorem Posts.id_eq (posts : Posts service request json method id) :
    (json.find (key "id")).getD .null = id := by
  rw [posts.identified]
  rfl

theorem run_of_handled
    (parsed : service.codec.parse (request.getReqData service.decompress) = some json)
    {calls : List HandleCall}
    (handled : handleRequest service visit [] (supportsSse request) (extractSessionId request)
      (some json) = (calls, none)) :
    run service visit [] request = ⟨calls, .returned bizOk⟩ := by
  simp only [run, filled_of_parsed parsed, if_false, parsed, handled]

theorem run_of_failed
    (parsed : service.codec.parse (request.getReqData service.decompress) = some json)
    {calls : List HandleCall}
    (handled : handleRequest service visit [] (supportsSse request) (extractSessionId request)
      (some json) = (calls, some code))
    (dumped : service.codec.dump (errorResponse service.bizErrMsg code .null) = some text) :
    run service visit [] request =
      ⟨calls ++ errorCalls (supportsSse request) text, .returned bizOk⟩ := by
  simp only [run, filled_of_parsed parsed, if_false, parsed, handled, sendMcpErrorResponse_eq dumped]

theorem McpHandle.Rejected.run_eq (rejected : Rejected service request code id)
    (dumped : service.codec.dump (errorResponse service.bizErrMsg code id) = some text) :
    run service visit [] request = ⟨errorCalls (supportsSse request) text, .returned bizOk⟩ := by
  have sent : sendMcpErrorResponse service [] code id (supportsSse request) =
      some (errorCalls (supportsSse request) text) := sendMcpErrorResponse_eq dumped
  cases rejected with
  | empty empty => simp only [run, empty, if_true, sent, List.nil_append]
  | unparsed filled parsed =>
    simp only [run, filled, if_false, parsed, handleRequest, sent, List.nil_append]
  | versionless parsed version =>
    apply run_of_handled parsed
    simp only [handleRequest, ne_eq, version, not_false_iff, if_true, refuse, sent]
  | @unnamed json parsed version named =>
    have failed : handleRequest service visit [] (supportsSse request) (extractSessionId request)
        (some json) = ([], some bizJsonrpcInternalError) := by
      simp only [handleRequest, ne_eq, version, not_true, if_false, named]
    rw [run_of_failed parsed failed dumped, List.nil_append]

theorem run_refused (calls : CallsMethod service request json method)
    (identified : (json.find (key "id")).getD .null = id)
    (gate : openSession visit method (extractSessionId request) = (.error code, sessions))
    (dumped : service.codec.dump (errorResponse service.bizErrMsg code id) = some text) :
    run service visit [] request = ⟨errorCalls (supportsSse request) text, .returned bizOk⟩ := by
  apply run_of_handled calls.parsed
  rw [handleRequest_refused calls.version calls.named gate, identified, refuse,
    sendMcpErrorResponse_eq dumped]

theorem run_untyped (calls : CallsMethod service request json method)
    (gate : openSession visit method (extractSessionId request) =
      (.ok (sessionId, headers), sessions))
    (untyped : enableStreaming (supportsSse request) method (paramsOf json) = none)
    (dumped : service.codec.dump (errorResponse service.bizErrMsg bizJsonrpcInternalError .null) =
      some text) :
    run service visit [] request =
      ⟨headers ++ [setSessionId sessionId] ++ errorCalls (supportsSse request) text,
        .returned bizOk⟩ :=
  run_of_failed calls.parsed (handleRequest_untyped calls.version calls.named gate untyped) dumped

theorem run_opened (calls : CallsMethod service request json method)
    (identified : (json.find (key "id")).getD .null = id)
    (gate : openSession visit method (extractSessionId request) =
      (.ok (sessionId, headers), sessions))
    (typed : enableStreaming (supportsSse request) method (paramsOf json) = some streaming) :
    run service visit [] request =
      ⟨headers ++ [setSessionId sessionId] ++
          (if streaming then setSseHeaders ++ [.enableChunkedTransfer] else []) ++
          (if method ≠ Bytes.ascii "initialized" then
            dispatchCalls service [] streaming (supportsSse request) id
              (service.dispatchMethod { visit with sessions := sessions } method (paramsOf json)
                sessionId id (supportsSse request))
          else []) ++
          (if streaming then [.finishChunkedTransfer] else []),
        .returned bizOk⟩ := by
  apply run_of_handled calls.parsed
  rw [handleRequest_opened calls.version calls.named gate typed, identified]
  rfl

theorem run_dispatched (posts : Posts service request json method id)
    (gate : openSession visit method (extractSessionId request) =
      (.ok (sessionId, headers), sessions))
    (typed : enableStreaming (supportsSse request) method (paramsOf json) = some streaming) :
    run service visit [] request =
      ⟨headers ++ [setSessionId sessionId] ++
          (if streaming then setSseHeaders ++ [.enableChunkedTransfer] else []) ++
          dispatchCalls service [] streaming (supportsSse request) id
            (service.dispatchMethod { visit with sessions := sessions } method (paramsOf json)
              sessionId id (supportsSse request)) ++
          (if streaming then [.finishChunkedTransfer] else []),
        .returned bizOk⟩ := by
  rw [run_opened posts.calls posts.id_eq gate typed, if_pos posts.awaits]

/-- The text of the response that the end of the method calls for, if it can be dumped. -/
def replyText (service : McpService) (id : Json) (dispatched : Dispatched) : Option Bytes :=
  match dispatched.outcome with
  | none => none
  | some result =>
      if result.err = 0 then
        if result.value = .null then none else service.codec.dump (successResponse result.value id)
      else service.codec.dump (errorResponse service.bizErrMsg result.err id)

def Dispatched.failed (dispatched : Dispatched) : Bool :=
  match dispatched.outcome with
  | none => false
  | some result => result.err ≠ 0

/-- The texts of the progress that the method pushed. -/
def pushedTexts (service : McpService) (dispatched : Dispatched) : List Bytes :=
  dispatched.pushes.filterMap fun progress => service.codec.dump (progressNotification progress)

theorem pushProgress_idle (pushes : List ProgressUpdate) :
    pushes.flatMap (pushProgress service false) = [] := by
  simp [pushProgress]

theorem pushProgress_chunks (dispatched : Dispatched) :
    dispatched.pushes.flatMap (pushProgress service true) =
      ((pushedTexts service dispatched).map EventStream.event).map .writeChunk := by
  unfold pushedTexts
  induction dispatched.pushes with
  | nil => rfl
  | cons progress pushes ih =>
    cases dumped : service.codec.dump (progressNotification progress) with
    | none => simpa [pushProgress, dumped] using ih
    | some text => simpa [pushProgress, dumped] using ih

/-- The calls at the end of the method. -/
def replyCalls (service : McpService) (useSse : Bool) (id : Json) (dispatched : Dispatched) :
    List HandleCall :=
  match replyText service id dispatched with
  | none => []
  | some text =>
      if dispatched.failed then errorCalls useSse text
      else if useSse then [.writeChunk (sseMessage text)] else [.respond (·.setBody text)]

theorem replyCalls_plain (replied : replyText service id dispatched = some text) :
    replyCalls service false id dispatched = errorCalls false text := by
  rw [replyCalls, replied]
  cases dispatched.failed <;> rfl

theorem dispatchCalls_eq (service : McpService) (streaming useSse : Bool) (id : Json)
    (dispatched : Dispatched) : dispatchCalls service [] streaming useSse id dispatched =
      dispatched.pushes.flatMap (pushProgress service streaming) ++
        replyCalls service useSse id dispatched := by
  unfold dispatchCalls replyCalls replyText Dispatched.failed
  cases dispatched.outcome with
  | none => rfl
  | some result =>
    by_cases succeeded : result.err = 0
    · by_cases empty : result.value = .null
      · simp [succeeded, empty, sendMcpSuccessResponse]
      · cases dumped : service.codec.dump (successResponse result.value id) <;>
          simp [succeeded, empty, sendMcpSuccessResponse, dumped]
    · cases dumped : service.codec.dump (errorResponse service.bizErrMsg result.err id) with
      | none => simp [succeeded, sendMcpErrorResponse, dumped]
      | some text => simp [succeeded, sendMcpErrorResponse_eq dumped, dumped]

theorem replyText_reads (replied : replyText service id dispatched = some text) :
    Bytes.lf ∉ text ∧ ∃ reply, service.codec.parse text = some reply ∧ reply.isResponse = true ∧
      reply.find (key "id") = some id := by
  have reads {json : Json} (dumped : service.codec.dump json = some text)
      (responds : json.isResponse = true ∧ json.find (key "id") = some id) :
      Bytes.lf ∉ text ∧ ∃ reply, service.codec.parse text = some reply ∧ reply.isResponse = true ∧
        reply.find (key "id") = some id :=
    ⟨service.codec.dump_line dumped, json, service.codec.parse_dump dumped, responds⟩
  unfold replyText at replied
  split at replied
  · cases replied
  · split at replied
    · split at replied
      · cases replied
      · exact reads replied (successResponse_isResponse _ id)
    · exact reads replied (errorResponse_isResponse _ _ id)

theorem pushedTexts_carried (dispatched : Dispatched) :
    ((pushedTexts service dispatched).filterMap service.codec.parse).filter Json.isResponse = [] := by
  rw [List.filter_eq_nil_iff]
  intro json member
  obtain ⟨text, pushed, parsed⟩ := List.mem_filterMap.mp member
  obtain ⟨progress, _, dumped⟩ := List.mem_filterMap.mp pushed
  rw [service.codec.parse_dump dumped] at parsed
  obtain rfl := Option.some.inj parsed
  simp [progressNotification_not_isResponse]

theorem events_pushed (service : McpService) (dispatched : Dispatched) (rest : Bytes) :
    EventStream.events (((pushedTexts service dispatched).map EventStream.event).flatten ++ rest) =
      pushedTexts service dispatched ++ EventStream.events rest := by
  have single : ∀ text ∈ pushedTexts service dispatched, Bytes.lf ∉ text := by
    intro text member
    obtain ⟨progress, _, dumped⟩ := List.mem_filterMap.mp member
    exact service.codec.dump_line dumped
  generalize pushedTexts service dispatched = texts at single
  induction texts with
  | nil => rfl
  | cons text texts ih =>
    obtain ⟨first, others⟩ := List.forall_mem_cons.mp single
    rw [List.map_cons, List.flatten_cons, List.append_assoc, EventStream.events_event _ first,
      ih others, List.cons_append]

/-- A header is set, and none that frames the body. -/
def HandleCall.SetsHeader (call : HandleCall) : Prop :=
  ∃ name value, call = .respond (·.set name value) ∧ Field.framesBody name = false

theorem setSessionId_setsHeader (sessionId : Bytes) : (setSessionId sessionId).SetsHeader :=
  ⟨_, _, rfl, by decide⟩

theorem setSseHeaders_setsHeader : ∀ call ∈ setSseHeaders, call.SetsHeader := by
  simp only [setSseHeaders, List.forall_mem_cons]
  refine ⟨⟨_, _, rfl, ?_⟩, ⟨_, _, rfl, ?_⟩, ⟨_, _, rfl, ?_⟩, by simp⟩ <;> decide

theorem openSession_headers
    (gate : openSession visit method sessionId = (.ok (text, headers), sessions)) :
    ∀ call ∈ headers, call.SetsHeader := by
  have decided := openSession_gate visit method sessionId
  rw [gate] at decided
  cases decided with
  | live => exact List.forall_mem_nil _
  | granted =>
    intro call member
    rw [List.mem_singleton.mp member]
    exact setSessionId_setsHeader _

theorem openSession_echoed
    (gate : openSession visit method sessionId = (.ok (text, headers), sessions)) :
    ∀ call ∈ headers ++ [setSessionId text], call.SetsHeader := by
  intro call member
  rcases List.mem_append.mp member with header | echoed
  · exact openSession_headers gate call header
  · rw [List.mem_singleton.mp echoed]
    exact setSessionId_setsHeader text

theorem openSession_refusal (gate : openSession visit method sessionId = (.error code, sessions)) :
    code ∈ [bizJsonrpcInvalidParams, bizJsonrpcInternalError, bizMcpUnauthorized,
      bizMcpVersionMismatch] := by
  have decided := openSession_gate visit method sessionId
  rw [gate] at decided
  cases decided with
  | expired => split <;> simp
  | missing => simp
  | full => simp

theorem HandleCall.SetsHeader.keepsFraming {call : HandleCall} (sets : call.SetsHeader) :
    call.KeepsFraming := by
  obtain ⟨name, value, rfl, other⟩ := sets
  intro response
  exact (Response.Keeps.set response value other).framing

theorem HandleCall.SetsHeader.enables {call : HandleCall} (sets : call.SetsHeader) :
    call.enables = false := by
  obtain ⟨name, value, rfl, _⟩ := sets
  rfl

theorem piecesFrom_headers {calls : List HandleCall} (sets : ∀ call ∈ calls, call.SetsHeader)
    (chunked opened : Bool) (rest : List HandleCall) :
    piecesFrom chunked opened (calls ++ rest) = piecesFrom chunked opened rest := by
  induction calls with
  | nil => rfl
  | cons call calls ih =>
    obtain ⟨⟨name, value, rfl, _⟩, others⟩ := List.forall_mem_cons.mp sets
    exact ih others

theorem rewrites_headers {calls : List HandleCall} (sets : ∀ call ∈ calls, call.SetsHeader)
    (response : Response) : response.Keeps (rewrites calls response) := by
  induction calls generalizing response with
  | nil => exact .refl response
  | cons call calls ih =>
    obtain ⟨⟨name, value, rfl, other⟩, others⟩ := List.forall_mem_cons.mp sets
    exact (Response.Keeps.set response value other).trans (ih others _)

theorem errorCalls_keepsFraming (useSse : Bool) (text : Bytes) :
    ∀ call ∈ errorCalls useSse text, call.KeepsFraming := by
  intro call member
  cases useSse with
  | false =>
    rw [List.mem_singleton.mp member]
    exact fun response => rfl
  | true =>
    simp only [errorCalls, if_true, List.mem_append, List.mem_singleton] at member
    rcases member with (header | rfl) | rfl
    · exact (setSseHeaders_setsHeader call header).keepsFraming
    · trivial
    · trivial

theorem dispatchCalls_keepsFraming (service : McpService) (streaming useSse : Bool) (id : Json)
    (dispatched : Dispatched) :
    ∀ call ∈ dispatchCalls service [] streaming useSse id dispatched, call.KeepsFraming := by
  intro call member
  rw [dispatchCalls_eq] at member
  rcases List.mem_append.mp member with pushed | replied
  · obtain ⟨progress, _, written⟩ := List.mem_flatMap.mp pushed
    unfold pushProgress at written
    split at written
    · split at written
      · rw [List.mem_singleton.mp written]
        trivial
      · cases written
    · cases written
  · unfold replyCalls at replied
    split at replied
    · cases replied
    · split at replied
      · exact errorCalls_keepsFraming _ _ call replied
      · split at replied
        · rw [List.mem_singleton.mp replied]
          trivial
        · rw [List.mem_singleton.mp replied]
          exact fun response => rfl

/-- The pieces of chunks written one after another into a new stream. -/
def chunkPieces : List Bytes → List Piece
  | [] => []
  | data :: more => .first data :: more.map .next

theorem piecesFrom_more (more : List Bytes) (rest : List HandleCall) :
    piecesFrom true true (more.map .writeChunk ++ rest) =
      more.map .next ++ piecesFrom true true rest := by
  induction more with
  | nil => rfl
  | cons data more ih => exact congrArg (Piece.next data :: ·) ih

theorem piecesFrom_chunks (chunks : List Bytes) (rest : List HandleCall) :
    piecesFrom true false (chunks.map .writeChunk ++ rest) =
      chunkPieces chunks ++ piecesFrom true (chunks ≠ []) rest := by
  cases chunks with
  | nil => rfl
  | cons data more => exact congrArg (Piece.first data :: ·) (piecesFrom_more more rest)

theorem piecesFrom_ended (chunks : List Bytes) (data : Bytes) :
    chunkPieces chunks ++
        piecesFrom true (chunks ≠ []) ([.writeChunk data] ++ [.finishChunkedTransfer]) =
      chunkPieces (chunks ++ [data]) ++ [.last] := by
  cases chunks with
  | nil => rfl
  | cons front more =>
    simp [chunkPieces, piecesFrom, HandleCall.pieces]

theorem pieces_errorCalls (chunked opened : Bool) (text : Bytes) (rest : List HandleCall) :
    piecesFrom chunked opened (errorCalls true text ++ rest) =
      .first (sseMessage text) :: piecesFrom true true rest := by
  rw [errorCalls, if_pos rfl, List.append_assoc, List.append_assoc,
    piecesFrom_headers setSseHeaders_setsHeader]
  rfl

theorem sseMessage_ne_nil (text : Bytes) : sseMessage text ≠ [] := by
  simp [sseMessage, EventStream.namedEvent]

/-- Progress goes into the stream that the handle opened, and then come the reply and
the end. -/
theorem pieces_streamed {opening : List HandleCall} (sets : ∀ call ∈ opening, call.SetsHeader)
    (service : McpService) (id : Json) (dispatched : Dispatched) :
    pieces (opening ++ (setSseHeaders ++ [.enableChunkedTransfer]) ++
        dispatchCalls service [] true true id dispatched ++ [.finishChunkedTransfer]) =
      chunkPieces ((pushedTexts service dispatched).map EventStream.event) ++
        piecesFrom true ((pushedTexts service dispatched).map EventStream.event ≠ [])
          (replyCalls service true id dispatched ++ [.finishChunkedTransfer]) := by
  rw [pieces, List.append_assoc, List.append_assoc, piecesFrom_headers sets, List.append_assoc,
    piecesFrom_headers setSseHeaders_setsHeader, dispatchCalls_eq, pushProgress_chunks,
    List.append_assoc, ← piecesFrom_chunks]
  rfl

end Hku
