import HkuRest.Mcp.McpHandle

/-! What `run` makes of a request, by cases. The request is rejected for its text, or it calls a method;
then the session gate refuses the method, or lets it through. -/

namespace Hku

namespace McpHandle

variable {service : McpService} {visit other : Visit} {request : Request} {json id params : Json}
  {method sessionHeader sessionId body : Bytes} {headers : List HandleCall} {sessions : SessionManager}
  {code : Int} {useSse streaming : Bool}

/-- The text is rejected before the session gate, with this code and id in the error. -/
inductive Rejected (service : McpService) (request : Request) : Int → Json → Prop
  | empty (empty : request.getReqData service.decompress = []) :
      Rejected service request bizJsonrpcParseError .null
  | unparsed (filled : request.getReqData service.decompress ≠ [])
      (parsed : service.codec.parse (request.getReqData service.decompress) = none) :
      Rejected service request bizJsonrpcParseError .null
  | versionless {json : Json}
      (parsed : service.codec.parse (request.getReqData service.decompress) = some json)
      (version : json.find (key "jsonrpc") ≠ some (.string (Bytes.ascii "2.0"))) :
      Rejected service request bizJsonrpcInvalidRequest ((json.find (key "id")).getD .null)
  | unnamed {json : Json}
      (parsed : service.codec.parse (request.getReqData service.decompress) = some json)
      (version : json.find (key "jsonrpc") = some (.string (Bytes.ascii "2.0")))
      (named : json.value (key "method") [] = none) :
      Rejected service request bizJsonrpcInternalError .null

/-- The text calls a method; without a member for it that is the method of no name. -/
structure CallsMethod (service : McpService) (request : Request) (json : Json) (method : Bytes) :
    Prop where
  parsed : service.codec.parse (request.getReqData service.decompress) = some json
  version : json.find (key "jsonrpc") = some (.string (Bytes.ascii "2.0"))
  named : json.value (key "method") [] = some method

theorem filled_of_parsed
    (parsed : service.codec.parse (request.getReqData service.decompress) = some json) :
    request.getReqData service.decompress ≠ [] := by
  intro empty
  rw [empty, service.codec.parse_nil] at parsed
  cases parsed

theorem CallsMethod.filled (calls : CallsMethod service request json method) :
    request.getReqData service.decompress ≠ [] :=
  filled_of_parsed calls.parsed

theorem rejected_or_calls (service : McpService) (request : Request) :
    (∃ code id, Rejected service request code id) ∨
      ∃ json method, CallsMethod service request json method := by
  by_cases empty : request.getReqData service.decompress = []
  · exact .inl ⟨_, _, .empty empty⟩
  cases parsed : service.codec.parse (request.getReqData service.decompress) with
  | none => exact .inl ⟨_, _, .unparsed empty parsed⟩
  | some json =>
    by_cases version : json.find (key "jsonrpc") = some (.string (Bytes.ascii "2.0"))
    · cases named : json.value (key "method") [] with
      | none => exact .inl ⟨_, _, .unnamed parsed version named⟩
      | some method => exact .inr ⟨json, method, parsed, version, named⟩
    · exact .inl ⟨_, _, .versionless parsed version⟩

theorem openSession_live (method : Bytes) (named : sessionHeader ≠ [])
    (live : (visit.sessions.getSession visit.now sessionHeader).isSome = true) :
    openSession visit method sessionHeader =
      (.ok (sessionHeader, []), (visit.sessions.touchSession visit.now sessionHeader).2) := by
  simp only [openSession, live, if_true, ne_eq, named, not_false_iff, if_false, ite_self]

theorem openSession_expired (method : Bytes) (named : sessionHeader ≠ [])
    (expired : (visit.sessions.getSession visit.now sessionHeader).isSome = false) :
    openSession visit method sessionHeader =
      (.error (if method = Bytes.ascii "initialize" then bizJsonrpcInvalidParams
        else bizMcpUnauthorized), visit.sessions) := by
  simp only [openSession, expired, Bool.false_eq_true, if_false, ne_eq, named, not_false_iff, if_true]
  split <;> rfl

theorem openSession_missing (visit : Visit) (other : method ≠ Bytes.ascii "initialize") :
    openSession visit method [] = (.error bizMcpVersionMismatch, visit.sessions) := by
  simp only [openSession, if_neg other, if_true]

theorem openSession_granted
    (registered : visit.sessions.registerSession visit.now visit.generatedId visit.clientIp =
      (true, sessions)) : openSession visit (Bytes.ascii "initialize") [] =
      (.ok (visit.generatedId, [setSessionId visit.generatedId]), sessions) := by
  simp only [openSession, if_true, ne_eq, not_true, if_false, registered]

theorem openSession_full
    (registered : visit.sessions.registerSession visit.now visit.generatedId visit.clientIp =
      (false, sessions)) : openSession visit (Bytes.ascii "initialize") [] =
      (.error bizJsonrpcInternalError, sessions) := by
  simp only [openSession, if_true, ne_eq, not_true, if_false, registered, Bool.false_eq_true]

/-- What the session gate can decide, and the sessions that it leaves. -/
inductive Gate (visit : Visit) : Bytes → Bytes →
    Except Int (Bytes × List HandleCall) × SessionManager → Prop
  | live {method sessionHeader : Bytes} (named : sessionHeader ≠ [])
      (live : (visit.sessions.getSession visit.now sessionHeader).isSome = true) :
      Gate visit method sessionHeader
        (.ok (sessionHeader, []), (visit.sessions.touchSession visit.now sessionHeader).2)
  | expired {method sessionHeader : Bytes} (named : sessionHeader ≠ []) :
      Gate visit method sessionHeader
        (.error (if method = Bytes.ascii "initialize" then bizJsonrpcInvalidParams
          else bizMcpUnauthorized), visit.sessions)
  | missing {method : Bytes} (other : method ≠ Bytes.ascii "initialize") :
      Gate visit method [] (.error bizMcpVersionMismatch, visit.sessions)
  | granted {sessions : SessionManager}
      (registered : visit.sessions.registerSession visit.now visit.generatedId visit.clientIp =
        (true, sessions)) :
      Gate visit (Bytes.ascii "initialize") []
        (.ok (visit.generatedId, [setSessionId visit.generatedId]), sessions)
  | full {sessions : SessionManager}
      (registered : visit.sessions.registerSession visit.now visit.generatedId visit.clientIp =
        (false, sessions)) :
      Gate visit (Bytes.ascii "initialize") [] (.error bizJsonrpcInternalError, sessions)

theorem openSession_gate (visit : Visit) (method sessionHeader : Bytes) :
    Gate visit method sessionHeader (openSession visit method sessionHeader) := by
  by_cases absent : sessionHeader = []
  · subst absent
    by_cases initializes : method = Bytes.ascii "initialize"
    · subst initializes
      rcases registered : visit.sessions.registerSession visit.now visit.generatedId visit.clientIp
        with ⟨_ | _, sessions⟩
      · rw [openSession_full registered]
        exact .full registered
      · rw [openSession_granted registered]
        exact .granted registered
    · rw [openSession_missing visit initializes]
      exact .missing initializes
  · cases live : (visit.sessions.getSession visit.now sessionHeader).isSome with
    | false =>
      rw [openSession_expired method absent live]
      exact .expired absent
    | true =>
      rw [openSession_live method absent live]
      exact .live absent live

theorem handleRequest_refused (version : json.find (key "jsonrpc") = some (.string (Bytes.ascii "2.0")))
    (named : json.value (key "method") [] = some method)
    (gate : openSession visit method sessionHeader = (.error code, sessions)) :
    handleRequest service visit body useSse sessionHeader (some json) =
      refuse service body useSse code ((json.find (key "id")).getD .null) := by
  simp only [handleRequest, version, ne_eq, not_true, if_false, named, gate]

theorem handleRequest_untyped (version : json.find (key "jsonrpc") = some (.string (Bytes.ascii "2.0")))
    (named : json.value (key "method") [] = some method)
    (gate : openSession visit method sessionHeader = (.ok (sessionId, headers), sessions))
    (untyped : enableStreaming useSse method ((json.find (key "params")).getD .null) = none) :
    handleRequest service visit body useSse sessionHeader (some json) =
      (headers ++ [setSessionId sessionId], some bizJsonrpcInternalError) := by
  simp only [handleRequest, version, ne_eq, not_true, if_false, named, gate, untyped]

theorem handleRequest_opened (version : json.find (key "jsonrpc") = some (.string (Bytes.ascii "2.0")))
    (named : json.value (key "method") [] = some method)
    (gate : openSession visit method sessionHeader = (.ok (sessionId, headers), sessions))
    (typed : enableStreaming useSse method ((json.find (key "params")).getD .null) = some streaming) :
    handleRequest service visit body useSse sessionHeader (some json) =
      (headers ++ [setSessionId sessionId] ++
          (if streaming then setSseHeaders ++ [.enableChunkedTransfer] else []) ++
          (if method ≠ Bytes.ascii "initialized" then
            dispatchCalls service body streaming useSse ((json.find (key "id")).getD .null)
              (service.dispatchMethod { visit with sessions := sessions } method
                ((json.find (key "params")).getD .null) sessionId
                ((json.find (key "id")).getD .null) useSse)
          else []) ++
          (if streaming then [.finishChunkedTransfer] else []), none) := by
  simp only [handleRequest, version, ne_eq, not_true, if_false, named, gate, typed]

/-- A request that is rejected gets the same answer whatever the sessions are, and whatever the methods
would do. -/
theorem Rejected.run_congr (rejected : Rejected service request code id)
    (dispatch : Visit → Bytes → Json → Bytes → Json → Bool → Dispatched) (visit other : Visit)
    (body : Bytes) :
    run { service with dispatchMethod := dispatch } other body request =
      run service visit body request := by
  cases rejected with
  | empty empty =>
    simp only [run, empty, if_true]
    rfl
  | unparsed filled parsed =>
    simp only [run, filled, if_false, parsed, handleRequest]
    rfl
  | versionless parsed version =>
    simp only [run, filled_of_parsed parsed, if_false, parsed, handleRequest, ne_eq, version,
      not_false_iff, if_true]
    rfl
  | unnamed parsed version named =>
    simp only [run, filled_of_parsed parsed, if_false, parsed, handleRequest, ne_eq, version,
      not_true, named]
    rfl

/-- A method that is called has the same effect on the response where the gate decides alike, and the
method, if it comes to that, answers alike. -/
theorem CallsMethod.run_congr (calls : CallsMethod service request json method)
    {dispatch : Visit → Bytes → Json → Bytes → Json → Bool → Dispatched}
    {gate : Except Int (Bytes × List HandleCall)} {sessions others : SessionManager}
    (opened : openSession visit method (extractSessionId request) = (gate, sessions))
    (openedOther : openSession other method (extractSessionId request) = (gate, others))
    (answered : ∀ sessionId headers, gate = .ok (sessionId, headers) →
      (enableStreaming (supportsSse request) method
        ((json.find (key "params")).getD .null)).isSome ∧ method ≠ Bytes.ascii "initialized" →
      dispatch { other with sessions := others } method ((json.find (key "params")).getD .null)
          sessionId ((json.find (key "id")).getD .null) (supportsSse request) =
        service.dispatchMethod { visit with sessions := sessions } method
          ((json.find (key "params")).getD .null) sessionId ((json.find (key "id")).getD .null)
          (supportsSse request)) (body : Bytes) :
    run { service with dispatchMethod := dispatch } other body request =
      run service visit body request := by
  have handled : handleRequest { service with dispatchMethod := dispatch } other body
        (supportsSse request) (extractSessionId request) (some json) =
      handleRequest service visit body (supportsSse request) (extractSessionId request) (some json) := by
    cases gate with
    | error code =>
      rw [handleRequest_refused calls.version calls.named opened,
        handleRequest_refused calls.version calls.named openedOther]
      rfl
    | ok session =>
      obtain ⟨sessionId, headers⟩ := session
      cases typed : enableStreaming (supportsSse request) method
        ((json.find (key "params")).getD .null) with
      | none =>
        rw [handleRequest_untyped calls.version calls.named opened typed,
          handleRequest_untyped calls.version calls.named openedOther typed]
      | some streaming =>
        rw [handleRequest_opened calls.version calls.named opened typed,
          handleRequest_opened calls.version calls.named openedOther typed]
        by_cases awaits : method ≠ Bytes.ascii "initialized"
        · have same := answered sessionId headers rfl ⟨by rw [typed]; rfl, awaits⟩
          simp only [if_pos awaits, same]
          rfl
        · simp only [if_neg awaits]
  simp only [run, calls.filled, if_false, calls.parsed, handled]
  rfl

end McpHandle

end Hku
