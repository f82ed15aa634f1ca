import HkuRest.Mcp.McpReplies
import Mathlib.Data.Int.Init

/-! The texts of the error codes. A code is a module and a number in it, and each module gives
the texts of its own; those of `McpError` are listed under the whole code. -/

namespace Hku

open McpHandle

def getBizMod (e : Int) : Int := e.tdiv 10000

def getBizCode (e : Int) : Int := e.tmod 10000

def bizModBase : Int := 1

def bizModAuth : Int := 2

/-- A `switch` over the codes of a module. -/
def textOf (texts : List (Int × String)) (default : String) (label : Int) : Bytes :=
  Bytes.ascii (((texts.find? fun entry => entry.1 = label).map Prod.snd).getD default)

def bizBaseErrMsg (ec : Int) : Bytes :=
  textOf
    [(0, "bissness failed"), (1, "invalid json"), (2, "missing parameter"), (3, "wrong parameter"),
      (4, "wrong parameter type"), (5, "too many query params"), (6, "too long url"),
      (7, "invalid url")]
    "unknown error" (getBizCode ec)

def bizAuthErrMsg (ec : Int) : Bytes :=
  textOf [(0, "failed authorized"), (1, "missing token"), (2, "authorize expired")]
    "auth unknown error" (getBizCode ec)

def bizMcpErr (code : Int) : Int := makeErr bizModMcp code

def bizJsonrpcMethodNotFound : Int := bizMcpErr (-2601)
def bizMcpToolExecutionError : Int := bizMcpErr (-2000)
def bizMcpToolNotFound : Int := bizMcpErr (-2001)
def bizMcpRateLimited : Int := bizMcpErr (-2002)
def bizMcpTimeout : Int := bizMcpErr (-2003)
def bizMcpSourceUnavailable : Int := bizMcpErr (-2005)
def bizMcpInvalidResourceUri : Int := bizMcpErr (-2006)
def bizMcpPermissionDenied : Int := bizMcpErr (-2007)
def bizMcpPromptNotFound : Int := bizMcpErr (-2009)
def bizMcpResourceNotFound : Int := bizMcpErr (-2010)
def bizMcpInvalidPrompt : Int := bizMcpErr (-2011)
def bizMcpInvalidResource : Int := bizMcpErr (-2012)
def bizMcpNotSupported : Int := bizMcpErr (-2013)
def bizMcpSessionExpired : Int := bizMcpErr (-2014)
def bizMcpConnectionClosed : Int := bizMcpErr (-2015)

/-- The labels of the `switch` and their texts. -/
def mcpErrorTexts : List (Int × String) :=
  [(bizJsonrpcParseError, "Parse error"),
    (bizJsonrpcInvalidRequest, "Invalid request"),
    (bizJsonrpcMethodNotFound, "Method not found"),
    (bizJsonrpcInvalidParams, "Invalid params"),
    (bizJsonrpcInternalError, "Internal error"),
    (bizMcpToolExecutionError, "Tool execution failed"),
    (bizMcpToolNotFound, "Tool not found"),
    (bizMcpRateLimited, "Rate limit exceeded"),
    (bizMcpTimeout, "Request timeout"),
    (bizMcpUnauthorized, "Unauthorized"),
    (bizMcpSourceUnavailable, "Source unavailable"),
    (bizMcpInvalidResourceUri, "Invalid resource URI"),
    (bizMcpPermissionDenied, "Permission denied"),
    (bizMcpVersionMismatch, "Not initialized or Protocol version mismatch"),
    (bizMcpPromptNotFound, "Prompt not found"),
    (bizMcpResourceNotFound, "Resource not found"),
    (bizMcpInvalidPrompt, "Invalid prompt"),
    (bizMcpInvalidResource, "Invalid resource"),
    (bizMcpNotSupported, "Not supported"),
    (bizMcpSessionExpired, "Session expired"),
    (bizMcpConnectionClosed, "Connection closed")]

def unknownError : String := "Unknown error"

/-- What is looked up is the number in the module, not the code. -/
def bizMcpErrMsg (ec : Int) : Bytes := textOf mcpErrorTexts unknownError (getBizCode ec)

/-- The modules that are registered. -/
def bizErrMap : List (Int × (Int → Bytes)) :=
  [(bizModBase, bizBaseErrMsg), (bizModAuth, bizAuthErrMsg), (bizModMcp, bizMcpErrMsg)]

def bizErrMsg (e : Int) : Bytes :=
  if e = bizOk then Bytes.ascii "OK"
  else
    match bizErrMap.find? fun entry => entry.1 = getBizMod e with
    | some entry => entry.2 e
    | none => Bytes.ascii "unknown error"

theorem label_ne_getBizCode {entry : Int × String} (listed : entry ∈ mcpErrorTexts) (ec : Int) :
    entry.1 ≠ getBizCode ec := by
  have label : ∀ entry ∈ mcpErrorTexts, entry.1 < -10000 := by decide
  have number : -10000 < getBizCode ec := Int.lt_tmod_of_pos ec (by decide)
  have low := label entry listed
  omega

theorem bizMcpErrMsg_unknown (ec : Int) : bizMcpErrMsg ec = Bytes.ascii unknownError := by
  have none : mcpErrorTexts.find? (fun entry => entry.1 = getBizCode ec) = none := by
    rw [List.find?_eq_none]
    intro entry listed
    simpa using label_ne_getBizCode listed ec
  rw [bizMcpErrMsg, textOf, none]
  rfl

theorem bizErrMsg_declared {code : Int} {listed : String} (declared : (code, listed) ∈ mcpErrorTexts) :
    bizErrMsg code = Bytes.ascii unknownError := by
  have inModule : ∀ entry ∈ mcpErrorTexts, entry.1 ≠ bizOk ∧ getBizMod entry.1 = bizModMcp := by decide
  obtain ⟨fails, sameModule⟩ := inModule _ declared
  have found : bizErrMap.find? (fun entry => entry.1 = bizModMcp) = some (bizModMcp, bizMcpErrMsg) :=
    rfl
  rw [bizErrMsg, if_neg fails, sameModule, found]
  exact bizMcpErrMsg_unknown code

/-- The JSON texts that a call sends to the client: the body of the response, or the events of a
chunk. -/
def sentJson (service : McpService) : HandleCall → List Json
  | .respond change => (service.codec.parse (change ⟨11, 200, [], []⟩).body).toList
  | .writeChunk data | .writeChunkSync data =>
      (EventStream.events data).filterMap service.codec.parse
  | _ => []

/-- `error.code` of a response. -/
def errorCode (response : Json) : Option Int :=
  match (response.find (key "error")).bind (Json.find (key "code")) with
  | some (.integer code) => some code
  | _ => none

def errorMessage (response : Json) : Option Json :=
  (response.find (key "error")).bind (Json.find (key "message"))

variable {service : McpService} {visit : Visit} {request : Request} {call : HandleCall} {json id : Json}
  {text body : Bytes} {code : Int} {useSse : Bool} {calls : List HandleCall}

/-- The errors among what a call sends have their texts from `biz_err_msg`. -/
def Reports (service : McpService) (call : HandleCall) : Prop :=
  ∀ json ∈ sentJson service call, ∀ code, errorCode json = some code →
    ∃ id, json = errorResponse service.bizErrMsg code id

theorem sentJson_message (dumped : service.codec.dump json = some text) :
    sentJson service (.writeChunk (sseMessage text)) = [json] := by
  have read : EventStream.events (sseMessage text) = [text] := by
    have named := EventStream.events_namedEvent [] (by decide : Bytes.lf ∉ Bytes.ascii "message")
      (service.codec.dump_line dumped)
    simpa [sseMessage] using named
  simp [sentJson, read, service.codec.parse_dump dumped]

theorem sentJson_body (dumped : service.codec.dump json = some text) :
    sentJson service (.respond (·.setBody text)) = [json] := by
  simp [sentJson, Response.setBody, service.codec.parse_dump dumped]

theorem HandleCall.SetsHeader.reports (sets : call.SetsHeader) : Reports service call := by
  obtain ⟨name, value, rfl, -⟩ := sets
  intro json sent
  simp [sentJson, Response.set, service.codec.parse_nil] at sent

theorem errorCode_errorResponse (bizErrMsg : Int → Bytes) (code : Int) (id : Json) :
    errorCode (errorResponse bizErrMsg code id) = some code := by
  simp [errorCode, errorResponse, Json.find, key, Bytes.ascii]

theorem reports_error (sends : sentJson service call = [errorResponse service.bizErrMsg code id]) :
    Reports service call := by
  intro json sent other coded
  rw [sends, List.mem_singleton] at sent
  subst sent
  rw [errorCode_errorResponse, Option.some.injEq] at coded
  subst coded
  exact ⟨id, rfl⟩

theorem reports_other (sends : sentJson service call = [json]) (other : errorCode json = none) :
    Reports service call := by
  intro sentValue sent code coded
  rw [sends, List.mem_singleton] at sent
  subst sent
  rw [other] at coded
  cases coded

theorem sendMcpErrorResponse_reports
    (sent : sendMcpErrorResponse service body code id useSse = some calls) :
    ∀ call ∈ calls, Reports service call := by
  obtain ⟨text, dumped, rfl⟩ := Option.map_eq_some_iff.mp sent
  have chunk := reports_error (sentJson_message dumped)
  have whole := reports_error (sentJson_body dumped)
  cases useSse with
  | false => exact List.forall_mem_singleton.mpr whole
  | true =>
    simp only [if_true, List.forall_mem_append, List.forall_mem_singleton]
    refine ⟨?_, chunk⟩
    split
    · rw [List.forall_mem_append]
      refine ⟨fun call member => (setSseHeaders_setsHeader call member).reports, ?_⟩
      intro call member json sent
      rw [List.mem_singleton.mp member] at sent
      cases sent
    · intro call member
      cases member

theorem sendMcpSuccessResponse_reports {result : Json}
    (sent : sendMcpSuccessResponse service result id useSse = some calls) :
    ∀ call ∈ calls, Reports service call := by
  have noError : errorCode (successResponse result id) = none := by
    simp [errorCode, successResponse, Json.find, key, Bytes.ascii]
  unfold sendMcpSuccessResponse at sent
  split at sent
  · cases sent
    simp
  · obtain ⟨text, dumped, rfl⟩ := Option.map_eq_some_iff.mp sent
    split
    · exact List.forall_mem_singleton.mpr (reports_other (sentJson_message dumped) noError)
    · exact List.forall_mem_singleton.mpr (reports_other (sentJson_body dumped) noError)

theorem pushProgress_reports (chunkedTransfer : Bool) (progress : ProgressUpdate) :
    ∀ call ∈ pushProgress service chunkedTransfer progress, Reports service call := by
  have noError : errorCode (progressNotification progress) = none := by
    simp [errorCode, progressNotification, Json.find, key, Bytes.ascii]
  unfold pushProgress
  split
  · cases dumped : service.codec.dump (progressNotification progress) with
    | none => simp
    | some text =>
      have read : EventStream.events (EventStream.event text) = [text] := by
        simpa using EventStream.events_event [] (service.codec.dump_line dumped)
      have sends : sentJson service (.writeChunk (EventStream.event text)) =
          [progressNotification progress] := by
        simp [sentJson, read, service.codec.parse_dump dumped]
      exact List.forall_mem_singleton.mpr (reports_other sends noError)
  · simp

theorem dispatchCalls_reports (service : McpService) (body : Bytes) (streaming useSse : Bool) (id : Json)
    (dispatched : Dispatched) :
    ∀ call ∈ dispatchCalls service body streaming useSse id dispatched, Reports service call := by
  have getD {sent : Option (List HandleCall)}
      (reports : ∀ calls, sent = some calls → ∀ call ∈ calls, Reports service call) :
      ∀ call ∈ sent.getD [], Reports service call := by
    cases sent with
    | none => simp
    | some calls => exact reports calls rfl
  rw [dispatchCalls, List.forall_mem_append]
  constructor
  · intro call member
    obtain ⟨progress, -, pushed⟩ := List.mem_flatMap.mp member
    exact pushProgress_reports streaming progress call pushed
  · split
    · simp
    · split
      · exact getD fun calls sent => sendMcpSuccessResponse_reports sent
      · exact getD fun calls sent => sendMcpErrorResponse_reports sent

theorem refuse_reports (service : McpService) (body : Bytes) (useSse : Bool) (code : Int) (id : Json) :
    ∀ call ∈ (refuse service body useSse code id).1, Reports service call := by
  unfold refuse
  split
  · rename_i calls sent
    exact sendMcpErrorResponse_reports sent
  · simp

theorem handleRequest_reports (service : McpService) (visit : Visit) (body : Bytes) (useSse : Bool)
    (sessionHeader : Bytes) (request : Option Json) :
    ∀ call ∈ (handleRequest service visit body useSse sessionHeader request).1, Reports service call := by
  have silent (call : HandleCall) (sends : sentJson service call = []) : Reports service call := by
    intro json sent
    rw [sends] at sent
    cases sent
  unfold handleRequest
  split
  · simp
  · simp only
    split
    · exact refuse_reports service body useSse _ _
    · split
      · simp
      · rename_i method named
        split
        · exact refuse_reports service body useSse _ _
        · rename_i sessionId headers sessions gate
          have echoed : ∀ call ∈ headers ++ [setSessionId sessionId], Reports service call :=
            fun call member => (openSession_echoed gate call member).reports
          split
          · exact echoed
          · rename_i streaming typed
            simp only [List.forall_mem_append] at echoed ⊢
            refine ⟨⟨⟨echoed, ?_⟩, ?_⟩, ?_⟩
            · split
              · rw [List.forall_mem_append]
                refine ⟨fun call member => (setSseHeaders_setsHeader call member).reports, ?_⟩
                exact List.forall_mem_singleton.mpr (silent _ rfl)
              · simp
            · split
              · exact dispatchCalls_reports service body streaming useSse _ _
              · simp
            · split
              · exact List.forall_mem_singleton.mpr (silent _ rfl)
              · simp

theorem run_reports (service : McpService) (visit : Visit) (body : Bytes) (request : Request) :
    ∀ call ∈ (run service visit body request).calls, Reports service call := by
  simp only [run]
  split
  · split
    · rename_i calls sent
      rw [List.nil_append]
      exact sendMcpErrorResponse_reports sent
    · simp
  · have handled := handleRequest_reports service visit body (supportsSse request)
      (extractSessionId request) (service.codec.parse (request.getReqData service.decompress))
    split
    · rename_i calls result
      rw [result] at handled
      exact handled
    · rename_i calls code result
      rw [result] at handled
      split
      · rename_i more sent
        exact List.forall_mem_append.mpr ⟨handled, sendMcpErrorResponse_reports sent⟩
      · exact handled

/-- No error that is sent with a declared code has the text that is listed for it. -/
theorem run_error_messages (service : McpService) (visit : Visit) (body : Bytes) (request : Request)
    (call : HandleCall) (json : Json) (code : Int) (listed : String)
    (registered : service.bizErrMsg = bizErrMsg)
    (sending : call ∈ (run service visit body request).calls) (sent : json ∈ sentJson service call)
    (coded : errorCode json = some code) (declared : (code, listed) ∈ mcpErrorTexts) :
    errorMessage json = some (.string (Bytes.ascii unknownError)) ∧
      errorMessage json ≠ some (.string (Bytes.ascii listed)) := by
  obtain ⟨id, rfl⟩ := run_reports service visit body request call sending json sent code coded
  have message : errorMessage (errorResponse service.bizErrMsg code id) =
      some (.string (Bytes.ascii unknownError)) := by
    rw [registered, ← bizErrMsg_declared declared]
    simp [errorMessage, errorResponse, Json.find, key, Bytes.ascii]
  have differs : ∀ entry ∈ mcpErrorTexts, Bytes.ascii unknownError ≠ Bytes.ascii entry.2 := by decide
  refine ⟨message, ?_⟩
  rw [message, ne_eq, Option.some.injEq, Json.string.injEq]
  exact differs _ declared

def parseError : Json := errorResponse bizErrMsg bizJsonrpcParseError .null

theorem parseError_legible : Legible [parseError] where
  distinct := List.nodup_singleton _
  lines := by decide +kernel
  filled := by decide +kernel

def refusingService : McpService where
  codec := .ofValues [parseError] parseError_legible
  bizErrMsg := bizErrMsg
  decompress := some
  dispatchMethod _ _ _ _ _ _ := ⟨[], none⟩

def emptyRequest : Request := ⟨Bytes.ascii "POST", Bytes.ascii "/mcp", 11, [], []⟩

def emptyVisit : Visit := ⟨0, [], [1], .create⟩

/-- The body that the refusal sets. -/
def refusing : HandleCall := .respond (·.setBody parseError.compact)

theorem emptyRequest_refused :
    refusing ∈ (run refusingService emptyVisit [] emptyRequest).calls ∧
      parseError ∈ sentJson refusingService refusing := by
  have dumped : refusingService.codec.dump parseError = some parseError.compact := by
    simp [refusingService, JsonCodec.ofValues]
  have plain : supportsSse emptyRequest = false := by decide +kernel
  constructor
  · have sent : sendMcpErrorResponse refusingService [] bizJsonrpcParseError .null false =
        some [refusing] := sendMcpErrorResponse_eq dumped
    have empty : emptyRequest.getReqData refusingService.decompress = [] := by decide +kernel
    simp [run, empty, plain, sent]
  · rw [refusing, sentJson_body dumped]
    exact List.mem_singleton.mpr rfl

theorem run_error_messages_empty :
    errorMessage parseError = some (.string (Bytes.ascii unknownError)) ∧
      errorMessage parseError ≠ some (.string (Bytes.ascii "Parse error")) :=
  run_error_messages refusingService emptyVisit [] emptyRequest refusing parseError
    bizJsonrpcParseError "Parse error" rfl emptyRequest_refused.1 emptyRequest_refused.2
    (errorCode_errorResponse _ _ _) List.mem_cons_self

/-- It is told that the error is unknown, not that its body is no JSON. -/
theorem parse_error_unnamed :
    ¬ ∀ (service : McpService) (visit : Visit) (body : Bytes) (request : Request) (call : HandleCall)
      (json : Json) (code : Int) (listed : String), service.bizErrMsg = bizErrMsg →
      call ∈ (run service visit body request).calls → json ∈ sentJson service call →
      errorCode json = some code → (code, listed) ∈ mcpErrorTexts →
      errorMessage json = some (.string (Bytes.ascii listed)) := by
  intro named
  have message := named refusingService emptyVisit [] emptyRequest refusing parseError
    bizJsonrpcParseError "Parse error" rfl emptyRequest_refused.1 emptyRequest_refused.2
    (errorCode_errorResponse _ _ _) List.mem_cons_self
  have sent : errorMessage parseError = some (.string (Bytes.ascii unknownError)) := by decide +kernel
  rw [sent] at message
  exact absurd message (by decide +kernel)

end Hku
