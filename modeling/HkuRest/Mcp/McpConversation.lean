import HkuRest.Httpd.PlainConversation
import HkuRest.Mcp.BodyAnswers
import HkuRest.Mcp.ProgressStreams
import HkuRest.Mcp.SessionLeases

/-! A conversation with the service over one connection, of a client that accepts no event streams.
What it reads is a reply to each request, in order, and the session that the request belongs to. -/

namespace Hku

open Connection HeaderBlock McpHandle
open SessionLeases (methodNamed methodNamed_rejected methodNamed_called)

variable {service : McpService} {visit : Visit} {request : Request} {json id : Json} {code : Int}
  {method sessionId : Bytes} {headers : List HandleCall} {sessions : SessionManager}

namespace McpHandle

/-- The session that the gate opens to a request, with the headers set for it. -/
def sessionOpened (service : McpService) (visit : Visit) (request : Request) :
    Option (Bytes × List HandleCall) :=
  (methodNamed service request).bind fun method =>
    (openSession visit method (extractSessionId request)).1.toOption

/-- The reply that a request calls for. `initialized` has none, nor has a method that ends with null or
with an exception that is no `std::exception`. -/
def replyTo (service : McpService) (visit : Visit) (request : Request) : Option Json :=
  let text := request.getReqData service.decompress
  let failure (code : Int) (id : Json) := some (errorResponse service.bizErrMsg code id)
  if text = [] then failure bizJsonrpcParseError .null
  else
    match service.codec.parse text with
    | none => failure bizJsonrpcParseError .null
    | some json =>
        let id := (json.find (key "id")).getD .null
        if json.find (key "jsonrpc") ≠ some (.string (Bytes.ascii "2.0")) then
          failure bizJsonrpcInvalidRequest id
        else
          match json.value (key "method") [] with
          | none => failure bizJsonrpcInternalError .null
          | some method =>
              match openSession visit method (extractSessionId request) with
              | (.error code, _) => failure code id
              | (.ok (sessionId, _), sessions) =>
                  if method = Bytes.ascii "initialized" then none
                  else answerTo service id (service.dispatchMethod { visit with sessions } method
                    (paramsOf json) sessionId id false)

/-- The headers that tell the session. -/
def echoed (opened : Option (Bytes × List HandleCall)) : List HandleCall :=
  opened.elim [] fun session => session.2 ++ [setSessionId session.1]

/-- What is set in the response: the session, and the reply as its body. -/
def responds (service : McpService) (visit : Visit) (request : Request) : List HandleCall :=
  echoed (sessionOpened service visit request) ++
    ((replyTo service visit request).bind service.codec.dump).toList.map fun text =>
      .respond (·.setBody text)

theorem dispatchCalls_quiet (service : McpService) (id : Json) (dispatched : Dispatched) :
    dispatchCalls service [] false false id dispatched =
      ((answerTo service id dispatched).bind service.codec.dump).toList.map fun text =>
        .respond (·.setBody text) := by
  rw [dispatchCalls_eq, pushProgress_idle, List.nil_append, ← replyText_eq]
  cases replied : replyText service id dispatched with
  | none => rw [replyCalls, replied]; rfl
  | some text => rw [replyCalls_plain replied]; rfl

theorem Rejected.sessionOpened (rejected : Rejected service request code id) :
    sessionOpened service visit request = none := by
  rw [McpHandle.sessionOpened, methodNamed_rejected rejected, Option.bind_none]

theorem Rejected.replyTo (rejected : Rejected service request code id) :
    replyTo service visit request = some (errorResponse service.bizErrMsg code id) := by
  cases rejected with
  | empty empty => simp only [McpHandle.replyTo, empty, if_true]
  | unparsed filled parsed => simp only [McpHandle.replyTo, filled, if_false, parsed]
  | versionless parsed version =>
    simp only [McpHandle.replyTo, filled_of_parsed parsed, if_false, parsed, ne_eq, version,
      not_false_iff, if_true]
  | unnamed parsed version named =>
    simp only [McpHandle.replyTo, filled_of_parsed parsed, if_false, parsed, ne_eq, version, not_true,
      named]

theorem CallsMethod.sessionOpened (calls : CallsMethod service request json method) :
    sessionOpened service visit request =
      (openSession visit method (extractSessionId request)).1.toOption := by
  rw [McpHandle.sessionOpened, methodNamed_called calls, Option.bind_some]

theorem CallsMethod.replyTo_refused (calls : CallsMethod service request json method)
    (opened : openSession visit method (extractSessionId request) = (.error code, sessions)) :
    replyTo service visit request =
      some (errorResponse service.bizErrMsg code ((json.find (key "id")).getD .null)) := by
  simp only [replyTo, calls.filled, if_false, calls.parsed, ne_eq, calls.version, not_true,
    calls.named, opened]

theorem CallsMethod.replyTo_opened (calls : CallsMethod service request json method)
    (opened : openSession visit method (extractSessionId request) =
      (.ok (sessionId, headers), sessions)) :
    replyTo service visit request =
      if method = Bytes.ascii "initialized" then none
      else answerTo service ((json.find (key "id")).getD .null)
        (service.dispatchMethod { visit with sessions } method (paramsOf json) sessionId
          ((json.find (key "id")).getD .null) false) := by
  simp only [replyTo, calls.filled, if_false, calls.parsed, ne_eq, calls.version, not_true,
    calls.named, opened]

theorem responds_error {text : Bytes} (unopened : sessionOpened service visit request = none)
    (replied : replyTo service visit request = some (errorResponse service.bizErrMsg code id))
    (dumped : service.codec.dump (errorResponse service.bizErrMsg code id) = some text) :
    responds service visit request = errorCalls false text := by
  rw [responds, unopened, replied, Option.bind_some, dumped]
  rfl

theorem responds_opened (calls : CallsMethod service request json method)
    (opened : openSession visit method (extractSessionId request) =
      (.ok (sessionId, headers), sessions)) :
    responds service visit request = headers ++ [setSessionId sessionId] ++
      if method = Bytes.ascii "initialized" then []
      else dispatchCalls service [] false false ((json.find (key "id")).getD .null)
        (service.dispatchMethod { visit with sessions } method (paramsOf json) sessionId
          ((json.find (key "id")).getD .null) false) := by
  have session : sessionOpened service visit request = some (sessionId, headers) := by
    rw [calls.sessionOpened, opened]
    rfl
  rw [responds, session, calls.replyTo_opened opened, echoed, Option.elim_some]
  congr 1
  split
  · rfl
  · rw [dispatchCalls_quiet]

/-- `run` for a client that accepts no event streams, if its replies can be dumped. -/
theorem run_quiet (quiet : supportsSse request = false)
    (legible : ∀ reply, replyTo service visit request = some reply →
      (service.codec.dump reply).isSome = true) :
    run service visit [] request = ⟨responds service visit request, .returned bizOk⟩ := by
  rcases rejected_or_calls service request with ⟨code, id, rejected⟩ | ⟨json, method, calls⟩
  · obtain ⟨text, dumped⟩ := Option.isSome_iff_exists.mp (legible _ rejected.replyTo)
    rw [rejected.run_eq dumped, responds_error rejected.sessionOpened rejected.replyTo dumped, quiet]
  rcases opened : openSession visit method (extractSessionId request) with
    ⟨code | ⟨sessionId, headers⟩, sessions⟩
  · have replied := calls.replyTo_refused opened
    have unopened : sessionOpened service visit request = none := by
      rw [calls.sessionOpened, opened]
      rfl
    obtain ⟨text, dumped⟩ := Option.isSome_iff_exists.mp (legible _ replied)
    rw [run_refused calls rfl opened dumped, responds_error unopened replied dumped, quiet]
  · -- without event streams nothing is streamed, whatever the tool
    have still : enableStreaming (supportsSse request) method (paramsOf json) = some false := by
      rw [quiet]
      rfl
    have ran := run_opened calls rfl opened still
    rw [ran, responds_opened calls opened, quiet]
    simp only [Bool.false_eq_true, if_false, List.append_nil, ite_not]

variable {sessionHeader : Bytes} {response : Response}

theorem fixHost_getReqHeader (server : HttpServer) (request : Request) {name : Bytes}
    (other : Field.host.iequals name = false) :
    (server.fixHost request).getReqHeader name = request.getReqHeader name := by
  unfold HttpServer.fixHost
  simp only
  split
  · have apart : Field.host ≠ name := by
      rintro rfl
      simp [Bytes.iequals] at other
    have kept : List.find? (fun field => field.1 = name) (request.fields.erase Field.host) =
        List.find? (fun field => field.1 = name) request.fields := by
      rw [Fields.erase, List.find?_filter]
      congr 1
      funext field
      by_cases named : field.1 = name
      · have same : name.iequals Field.host = false := by
          rw [← other]
          simp [Bytes.iequals, eq_comm]
        simp [named, same]
      · simp [named]
    simp [Request.getReqHeader, Fields.set, List.find?_append, kept, apart]
  · rfl

theorem openSession_names
    (opened : (openSession visit method sessionHeader).1 = .ok (sessionId, headers)) :
    sessionId = sessionHeader ∧ headers = [] ∨
      sessionId = visit.generatedId ∧ headers = [setSessionId visit.generatedId] := by
  have gate := openSession_gate visit method sessionHeader
  generalize openSession visit method sessionHeader = found at gate opened
  cases gate with
  | live =>
    cases opened
    exact .inl ⟨rfl, rfl⟩
  | granted =>
    cases opened
    exact .inr ⟨rfl, rfl⟩
  | _ => cases opened

theorem sessionOpened_names
    (opened : sessionOpened service visit request = some (sessionId, headers)) :
    sessionId = extractSessionId request ∧ headers = [] ∨
      sessionId = visit.generatedId ∧ headers = [setSessionId visit.generatedId] := by
  obtain ⟨method, -, gate⟩ := Option.bind_eq_some_iff.mp opened
  cases verdict : (openSession visit method (extractSessionId request)).1 with
  | error code =>
    rw [verdict] at gate
    cases gate
  | ok session =>
    rw [verdict] at gate
    obtain rfl := Option.some.inj gate
    exact openSession_names verdict

theorem sessionOpened_plain (generated : PlainValue visit.generatedId)
    (named : PlainValue (extractSessionId request)) {session : Bytes × List HandleCall}
    (opened : sessionOpened service visit request = some session) : PlainValue session.1 := by
  rcases sessionOpened_names opened with ⟨same, -⟩ | ⟨same, -⟩
  · rwa [same]
  · rwa [same]

theorem setSessionId_describes (plain : PlainValue sessionId) : (setSessionId sessionId).Describes :=
  HandleCall.describes_field (Response.plain_field (by decide) plain) (by decide)

theorem echoed_mem {call : HandleCall}
    (member : call ∈ echoed (sessionOpened service visit request)) :
    call = setSessionId (extractSessionId request) ∨ call = setSessionId visit.generatedId := by
  cases opened : sessionOpened service visit request with
  | none =>
    rw [opened] at member
    cases member
  | some session =>
    obtain ⟨sessionId, headers⟩ := session
    rw [opened] at member
    rcases sessionOpened_names opened with ⟨rfl, rfl⟩ | ⟨rfl, rfl⟩
    · exact .inl (by simpa [echoed] using member)
    · exact .inr (by simpa [echoed] using member)

theorem responds_describes (generated : PlainValue visit.generatedId)
    (named : PlainValue (extractSessionId request)) :
    ∀ call ∈ responds service visit request, call.Describes := by
  intro call member
  rcases List.mem_append.mp member with header | body
  · rcases echoed_mem header with rfl | rfl
    · exact setSessionId_describes named
    · exact setSessionId_describes generated
  · obtain ⟨text, -, rfl⟩ := List.mem_map.mp body
    exact HandleCall.describes_body text

end McpHandle

/-- What the client learns of a request: the session that it belongs to, and the reply. -/
structure McpAnswer (service : McpService) (visit : Visit) (request : Request) (response : Response) :
    Prop where
  status : response.status = 200
  session : response.fields.find (Bytes.ascii "Mcp-Session-Id") =
    (sessionOpened service visit request).map Prod.fst
  reply : service.codec.parse response.body = replyTo service visit request

theorem unnamed_start (config : CorsConfig) (isHttps : Bool) :
    (setResponseHeaders config isHttps .empty).fields.find (Bytes.ascii "Mcp-Session-Id") = none := by
  rw [setResponseHeaders_eq, setAll_find_of_apart]
  · rfl
  · intro field member
    have apart : ∀ name ∈ headerNames, Apart (Bytes.ascii "Mcp-Session-Id") name := by
      unfold Apart
      decide +kernel
    exact apart field.1 ((requiredHeaders_names config isHttps).subset (List.mem_map_of_mem member))

theorem rewrites_echoed {start : Response} {opened : Option (Bytes × List HandleCall)}
    (plain : ∀ session, opened = some session → PlainValue session.1)
    (unnamed : start.fields.find (Bytes.ascii "Mcp-Session-Id") = none) :
    (rewrites (echoed opened) start).fields.find (Bytes.ascii "Mcp-Session-Id") =
      opened.map Prod.fst := by
  cases opened with
  | none => exact unnamed
  | some session =>
    simp only [echoed, Option.elim_some, rewrites_append]
    exact Fields.find_set_trimmed _ _ (plain session rfl).trimmed

theorem echoed_sets : ∀ call ∈ echoed (sessionOpened service visit request), call.SetsHeader := by
  intro call member
  rcases echoed_mem member with rfl | rfl <;> exact setSessionId_setsHeader _

theorem responds_answer {start : Response} (generated : PlainValue visit.generatedId)
    (session : PlainValue (extractSessionId request)) (status : start.status = 200)
    (empty : start.body = [])
    (unnamed : start.fields.find (Bytes.ascii "Mcp-Session-Id") = none)
    (legible : ∀ reply, replyTo service visit request = some reply →
      (service.codec.dump reply).isSome = true) :
    McpAnswer service visit request (rewrites (responds service visit request) start) := by
  have plain : ∀ opened, sessionOpened service visit request = some opened → PlainValue opened.1 :=
    fun _ opened => sessionOpened_plain generated session opened
  have named := rewrites_echoed plain unnamed
  have keeps := rewrites_headers (@echoed_sets service visit request) start
  rw [responds, rewrites_append]
  generalize rewrites (echoed (sessionOpened service visit request)) start = middle at named keeps ⊢
  cases wanted : replyTo service visit request with
  | none => exact ⟨keeps.status.trans status, named, by
      rw [wanted]
      exact (congrArg service.codec.parse (keeps.body.trans empty)).trans service.codec.parse_nil⟩
  | some reply =>
    obtain ⟨text, dumped⟩ := Option.isSome_iff_exists.mp (legible reply wanted)
    simp only [Option.bind_some, dumped]
    exact ⟨keeps.status.trans status, named, by
      rw [wanted]
      exact service.codec.parse_dump dumped⟩

/-- Clients that accept no event streams, with session ids that can stand in a header, and a service
whose replies to them can be dumped. -/
structure HttpServer.Converses (server : HttpServer) (service : McpService) (visits : Nat → Visit)
    (requests : List Request) : Prop where
  cors : server.corsConfig.Plain
  routes : ∀ router ∈ server.router, ∀ route ∈ router, route.2 = service.handler visits
  generated : ∀ i, PlainValue (visits i).generatedId
  quiet : ∀ request ∈ requests, supportsSse request = false
  named : ∀ request ∈ requests, PlainValue (extractSessionId request)
  legible : ∀ request ∈ requests, ∀ i reply,
    replyTo service (visits i) (server.fixHost request) = some reply →
      (service.codec.dump reply).isSome = true

variable {server : HttpServer} {visits : Nat → Visit} {requests : List Request}
  {circumstances : Nat → Circumstances}

theorem HttpServer.Converses.made (converses : server.Converses service visits requests)
    (asked : request ∈ requests) (i : Nat) :
    service.handler visits i (server.fixHost request) =
      .handle (.ofRun ⟨responds service (visits i) (server.fixHost request), .returned bizOk⟩) := by
  have quiet : supportsSse (server.fixHost request) = false := by
    rw [supportsSse, fixHost_getReqHeader server request (by decide)]
    exact converses.quiet request asked
  rw [McpService.handler, run_quiet quiet (converses.legible request asked i)]

theorem HttpServer.Converses.session (converses : server.Converses service visits requests)
    (asked : request ∈ requests) : PlainValue (extractSessionId (server.fixHost request)) := by
  rw [extractSessionId, fixHost_getReqHeader server request (by decide)]
  exact converses.named request asked

theorem HttpServer.Converses.describes (converses : server.Converses service visits requests)
    (request : Request) (asked : request ∈ requests) : server.Describes request := by
  refine ⟨converses.cors, fun handler routed i => ?_⟩
  obtain ⟨router, some, route, member, rfl⟩ := route_registered routed
  rw [converses.routes router some route member]
  refine ⟨_, converses.made asked i, ?_⟩
  rw [Handle.Describes, ofRun_calls]
  exact responds_describes (converses.generated i) (converses.session asked)

/-- A request that the service answers is answered so. -/
def Replied (server : HttpServer) (service : McpService) (visits : Nat → Visit)
    (circumstances : Nat → Circumstances) (i : Nat) (turn : Turn (List Request))
    (response : Response) : Prop :=
  ∀ request, turn.request = some request →
    server.action (circumstances i).admitted request = .dispatch →
    server.route request = .found (service.handler visits) →
    McpAnswer service (visits i) (server.fixHost request) response

theorem McpAnswer.keeps {written : Response} (answer : McpAnswer service visit request written)
    (same : written.SameContent response) : McpAnswer service visit request response where
  status := same.status.trans answer.status
  session := (same.fields _ (by decide)).trans answer.session
  reply := by rw [same.body, answer.reply]

theorem HttpServer.Converses.replied (converses : server.Converses service visits requests) {i : Nat}
    {turn : Turn (List Request)} (tells : TurnTells server circumstances requests i turn response) :
    Replied server service visits circumstances i turn response := by
  intro request requested dispatched routed
  obtain ⟨asked, tells⟩ := tells request requested
  obtain ⟨ssl, told⟩ := tells _ _ dispatched routed (converses.made asked i)
  have keeps := Response.setResponseHeaders_keeps server.corsConfig ssl .empty
  have answer : McpAnswer service (visits i) (server.fixHost request)
      (rewrites (responds service (visits i) (server.fixHost request))
        (setResponseHeaders server.corsConfig ssl .empty)) :=
    responds_answer (converses.generated i) (converses.session asked) keeps.status keeps.body (unnamed_start server.corsConfig ssl)
      (converses.legible request asked i)
  rw [ofRun_calls] at told
  have bodied : bodiless (rewrites (responds service (visits i) (server.fixHost request))
      (setResponseHeaders server.corsConfig ssl .empty)).status = false := by
    rw [answer.status]
    decide
  exact answer.keeps (told bodied)

namespace McpHandle

theorem demoServer_converses : demoServer.Converses demoService (fun _ => demoVisit)
    [postPlain pingCall, postPlain taskCall] where
  cors := default_plain
  routes := by
    rintro router ⟨⟩ route member
    rw [List.mem_singleton.mp member]
  generated _ := by decide
  quiet := by decide +kernel
  named := by
    simp only [List.forall_mem_cons, List.not_mem_nil, false_imp_iff, implies_true, and_true]
    decide +kernel
  legible := by
    simp only [List.forall_mem_cons, List.not_mem_nil, false_imp_iff, implies_true, and_true]
    refine ⟨fun _ => ?_, fun _ => ?_⟩ <;> decide +kernel

end McpHandle

end Hku
