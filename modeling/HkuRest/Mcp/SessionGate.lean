import HkuRest.Mcp.RequestChecks
import HkuRest.Mcp.SessionCalls

/-! The session gate over a sequence of requests. `passage` is what `run` does with the
sessions, and the one call of `dispatchMethod` that it makes; between requests, tools
and the cleanup timer call the `SessionManager` as they like, except to register. -/

namespace Hku

open McpHandle

namespace McpHandle

/-- A call of `dispatchMethod`. -/
structure DispatchCall where
  visit : Visit
  method : Bytes
  params : Json
  sessionId : Bytes
  id : Json
  useSse : Bool
  deriving DecidableEq, Repr

/-- The sessions that a request leaves, the ids that `generateSessionId` made for it, and
the method that is dispatched. -/
structure Passage where
  sessions : SessionManager
  generated : List Bytes
  dispatched : Option DispatchCall
  deriving DecidableEq, Repr

/-- The ids made for a request that comes as far as the gate. -/
def generatedFor (visit : Visit) (method sessionHeader : Bytes) : List Bytes :=
  if method = Bytes.ascii "initialize" ∧ sessionHeader = [] then [visit.generatedId] else []

/-- `run`, as far as it is concerned with sessions. -/
def passage (service : McpService) (visit : Visit) (request : Request) : Passage :=
  let text := request.getReqData service.decompress
  let refused : Passage := ⟨visit.sessions, [], none⟩
  if text = [] then refused
  else
    match service.codec.parse text with
    | none => refused
    | some json =>
        if json.find (key "jsonrpc") ≠ some (.string (Bytes.ascii "2.0")) then refused
        else
          match json.value (key "method") [] with
          | none => refused
          | some method =>
              let sessionHeader := extractSessionId request
              let params := (json.find (key "params")).getD .null
              let id := (json.find (key "id")).getD .null
              let useSse := supportsSse request
              let generated := generatedFor visit method sessionHeader
              match openSession visit method sessionHeader with
              | (.error _, sessions) => ⟨sessions, generated, none⟩
              | (.ok (sessionId, _), sessions) =>
                  ⟨sessions, generated,
                    if (enableStreaming useSse method params).isSome ∧
                      method ≠ Bytes.ascii "initialized"
                    then some ⟨{ visit with sessions }, method, params, sessionId, id, useSse⟩
                    else none⟩

def DispatchCall.answer (call : DispatchCall) (service : McpService) : Dispatched :=
  service.dispatchMethod call.visit call.method call.params call.sessionId call.id call.useSse

variable {service : McpService} {visit : Visit} {request : Request} {method sessionHeader : Bytes}
  {json id : Json} {code : Int} {sessions : SessionManager} {sessionId : Bytes}
  {headers : List HandleCall}

theorem Rejected.passage (rejected : Rejected service request code id) :
    passage service visit request = ⟨visit.sessions, [], none⟩ := by
  cases rejected with
  | empty empty => simp only [McpHandle.passage, empty, if_true]
  | unparsed filled parsed => simp only [McpHandle.passage, filled, if_false, parsed]
  | versionless parsed version =>
    simp only [McpHandle.passage, filled_of_parsed parsed, if_false, parsed, ne_eq, version,
      not_false_iff, if_true]
  | unnamed parsed version named =>
    simp only [McpHandle.passage, filled_of_parsed parsed, if_false, parsed, ne_eq, version, not_true,
      named]

theorem CallsMethod.passage_refused (calls : CallsMethod service request json method)
    (opened : openSession visit method (extractSessionId request) = (.error code, sessions)) :
    passage service visit request =
      ⟨sessions, generatedFor visit method (extractSessionId request), none⟩ := by
  simp only [passage, calls.filled, if_false, calls.parsed, ne_eq, calls.version, not_true,
    calls.named, opened]

theorem CallsMethod.passage_opened (calls : CallsMethod service request json method)
    (opened : openSession visit method (extractSessionId request) =
      (.ok (sessionId, headers), sessions)) :
    passage service visit request =
      ⟨sessions, generatedFor visit method (extractSessionId request),
        if (enableStreaming (supportsSse request) method
              ((json.find (key "params")).getD .null)).isSome ∧ method ≠ Bytes.ascii "initialized"
        then some ⟨{ visit with sessions }, method, (json.find (key "params")).getD .null, sessionId,
          (json.find (key "id")).getD .null, supportsSse request⟩
        else none⟩ := by
  simp only [passage, calls.filled, if_false, calls.parsed, ne_eq, calls.version, not_true,
    calls.named, opened]

/-- `run` calls `dispatchMethod` where `passage` says so, and nowhere else. -/
theorem run_dispatches_passage (body : Bytes)
    (dispatch : Visit → Bytes → Json → Bytes → Json → Bool → Dispatched)
    (agree : ∀ call, (passage service visit request).dispatched = some call →
      call.answer { service with dispatchMethod := dispatch } = call.answer service) :
    run { service with dispatchMethod := dispatch } visit body request =
      run service visit body request := by
  rcases rejected_or_calls service request with ⟨code, id, rejected⟩ | ⟨json, method, calls⟩
  · exact rejected.run_congr dispatch visit visit body
  rcases opened : openSession visit method (extractSessionId request) with ⟨gate, sessions⟩
  refine calls.run_congr opened opened (fun sessionId headers admitted runs => ?_) body
  subst admitted
  have passed := calls.passage_opened opened
  rw [if_pos runs] at passed
  exact agree _ (congrArg Passage.dispatched passed)

theorem openSession_ids (visit : Visit) (method sessionHeader : Bytes) :
    ∀ id ∈ (openSession visit method sessionHeader).2.ids, id ∈ visit.sessions.ids ∨
      (id = visit.generatedId ∧ method = Bytes.ascii "initialize" ∧ sessionHeader = []) := by
  have gate := openSession_gate visit method sessionHeader
  have registers := SessionManager.ids_registerSession visit.now visit.generatedId visit.clientIp
    visit.sessions
  generalize openSession visit method sessionHeader = opened at gate ⊢
  intro id member
  cases gate with
  | live =>
    have changed : SessionCalls.Change visit.now visit.sessions .sweeping
        (visit.sessions.touchSession visit.now sessionHeader).2 :=
      SessionCalls.touchSession_change sessionHeader
    exact .inl (SessionCalls.change_ids changed rfl member)
  | expired => exact .inl member
  | missing => exact .inl member
  | granted registered | full registered =>
    rw [registered] at registers
    rcases List.mem_cons.mp (registers member) with generated | stored
    · exact .inr ⟨generated, rfl, rfl⟩
    · exact .inl stored

theorem passage_cases (service : McpService) (visit : Visit) (request : Request) :
    passage service visit request = ⟨visit.sessions, [], none⟩ ∨
      ∃ method dispatched,
        passage service visit request =
          ⟨(openSession visit method (extractSessionId request)).2,
            generatedFor visit method (extractSessionId request), dispatched⟩ ∧
        ∀ call, dispatched = some call → call.method = method ∧
          ∃ headers, (openSession visit method (extractSessionId request)).1 =
            .ok (call.sessionId, headers) := by
  rcases rejected_or_calls service request with ⟨code, id, rejected⟩ | ⟨json, method, calls⟩
  · exact .inl rejected.passage
  right
  rcases opened : openSession visit method (extractSessionId request) with
    ⟨code | ⟨sessionId, headers⟩, sessions⟩
  · refine ⟨method, none, by rw [calls.passage_refused opened, opened], ?_⟩
    intro call dispatched
    cases dispatched
  · refine ⟨method, _, by rw [calls.passage_opened opened, opened], ?_⟩
    intro call dispatched
    obtain ⟨_, answered⟩ := Option.ite_none_right_eq_some.mp dispatched
    cases answered
    exact ⟨rfl, headers, by rw [opened]⟩

theorem passage_ids (service : McpService) (visit : Visit) (request : Request) :
    ∀ id ∈ (passage service visit request).sessions.ids,
      id ∈ visit.sessions.ids ∨ id ∈ (passage service visit request).generated := by
  intro id member
  rcases passage_cases service visit request with refused | ⟨method, dispatched, passed, _⟩
  · rw [refused] at member
    exact .inl member
  · rw [passed] at member ⊢
    rcases openSession_ids visit method (extractSessionId request) id member with
      stored | ⟨generated, opens⟩
    · exact .inl stored
    · right
      rw [generatedFor, if_pos opens]
      exact List.mem_singleton.mpr generated

theorem openSession_gated {sessionId : Bytes} {headers : List HandleCall}
    (opened : (openSession visit method sessionHeader).1 = .ok (sessionId, headers))
    (other : method ≠ Bytes.ascii "initialize") :
    sessionId = sessionHeader ∧ (visit.sessions.getSession visit.now sessionHeader).isSome = true := by
  have gate := openSession_gate visit method sessionHeader
  generalize openSession visit method sessionHeader = found at gate opened
  cases gate with
  | live named live =>
    cases opened
    exact ⟨rfl, live⟩
  | granted => exact absurd rfl other
  | _ => cases opened

theorem passage_gated {call : DispatchCall}
    (dispatched : (passage service visit request).dispatched = some call)
    (other : call.method ≠ Bytes.ascii "initialize") :
    call.sessionId = extractSessionId request ∧
      (visit.sessions.getSession visit.now (extractSessionId request)).isSome = true := by
  rcases passage_cases service visit request with refused | ⟨method, _, passed, gated⟩
  · rw [refused] at dispatched
    cases dispatched
  · rw [passed] at dispatched
    obtain ⟨rfl, headers, opened⟩ := gated call dispatched
    exact openSession_gated opened other

end McpHandle

namespace McpService

structure State where
  sessions : SessionManager
  /-- The ids that `generateSessionId` has made so far. -/
  issued : List Bytes
  deriving DecidableEq, Repr

def State.initial : State := ⟨.create, []⟩

inductive Event
  | post (now : Int) (clientIp generatedId : Bytes) (request : Request)
  | uses (now : Int) (call : SessionCalls.Call)

def State.visit (state : State) (now : Int) (clientIp generatedId : Bytes) : Visit :=
  ⟨now, clientIp, generatedId, state.sessions⟩

def next (service : McpService) (state : State) : Event → Option State
  | .post now clientIp generatedId request =>
      let passed := passage service (state.visit now clientIp generatedId) request
      some ⟨passed.sessions, state.issued ++ passed.generated⟩
  | .uses now call =>
      if call.registersSession then none
      else (SessionCalls.enter now state.sessions call).map fun entered => ⟨entered.1, state.issued⟩

theorem next_issued {service : McpService} {before after : State} {event : Event}
    (issued : ∀ id ∈ before.sessions.ids, id ∈ before.issued)
    (stepped : service.next before event = some after) :
    ∀ id ∈ after.sessions.ids, id ∈ after.issued := by
  cases event with
  | post now clientIp generatedId request =>
    cases stepped
    intro id member
    rcases passage_ids service (before.visit now clientIp generatedId) request id member with
      stored | generated
    · exact List.mem_append_left _ (issued id stored)
    · exact List.mem_append_right _ generated
  | uses now call =>
    simp only [next] at stepped
    split at stepped
    · cases stepped
    · rename_i other
      obtain ⟨⟨manager, later⟩, entered, rfl⟩ := Option.map_eq_some_iff.mp stepped
      intro id member
      exact issued id (SessionCalls.change_ids (SessionCalls.enter_change entered)
        (by simpa using other) member)

/-- Only ids that the server made are ever valid, and no method but `initialize` is
dispatched for any other. -/
theorem session_gate (service : McpService) (state : State)
    (reached : Transition.Reaches service.next (fun _ _ => True) .initial state) :
    (∀ id ∈ state.sessions.ids, id ∈ state.issued) ∧
      ∀ now clientIp generatedId request call,
        (passage service (state.visit now clientIp generatedId) request).dispatched = some call →
          call.method ≠ Bytes.ascii "initialize" →
            ∃ session, state.sessions.find (extractSessionId request) = some session ∧
              session.isExpired now state.sessions.timeoutSeconds = false ∧
                extractSessionId request ∈ state.issued ∧
                  call.sessionId = extractSessionId request := by
  have issued : ∀ id ∈ state.sessions.ids, id ∈ state.issued :=
    reached.invariant (fun state => ∀ id ∈ state.sessions.ids, id ∈ state.issued)
      (by intro id member; cases member)
      fun _ _ _ issued _ stepped => next_issued issued stepped
  refine ⟨issued, ?_⟩
  intro now clientIp generatedId request call dispatched other
  obtain ⟨same, live⟩ := passage_gated dispatched other
  obtain ⟨session, answered⟩ := Option.isSome_iff_exists.mp live
  obtain ⟨found, fresh⟩ := SessionManager.find_of_getSession answered
  exact ⟨session, found, fresh, issued _ (SessionManager.mem_ids_of_find found), same⟩

def methodCall (method : String) : Json :=
  .object [(key "id", .integer 1), (key "jsonrpc", .string (Bytes.ascii "2.0")),
    (key "method", .string (Bytes.ascii method))]

def callValues : List Json := [methodCall "initialize", methodCall "ping"]

theorem callValues_legible : Legible callValues where
  distinct := by decide +kernel
  lines := by decide +kernel
  filled := by decide +kernel

def pingService : McpService where
  codec := .ofValues callValues callValues_legible
  bizErrMsg _ := []
  decompress := some
  dispatchMethod _ _ _ _ _ _ := ⟨[], some ⟨.object [], bizOk⟩⟩

def callRequest (fields : Fields) (method : String) : Request :=
  ⟨Bytes.ascii "POST", Bytes.ascii "/mcp", 11, fields, (methodCall method).compact⟩

def pingRequest : Request := callRequest [(Bytes.ascii "Mcp-Session-Id", [1])] "ping"

/-- After `initialize`, for which the id [1] was made. -/
def initialized : State := ⟨⟨3600, 10000, [([1], .create 0 [1] [])]⟩, [[1]]⟩

def pingDispatch : DispatchCall :=
  ⟨⟨5, [], [2], (initialized.sessions.touchSession 5 [1]).2⟩, Bytes.ascii "ping", .null, [1],
    .integer 1, false⟩

theorem session_gate_ping :
    ∃ session, initialized.sessions.find (extractSessionId pingRequest) = some session ∧
      session.isExpired 5 initialized.sessions.timeoutSeconds = false ∧
        extractSessionId pingRequest ∈ initialized.issued ∧
          pingDispatch.sessionId = extractSessionId pingRequest :=
  (session_gate pingService initialized
    (.of_execute [.post 0 [] [1] (callRequest [] "initialize")] (by decide +kernel))).2 5 [] [2]
      pingRequest pingDispatch (by decide +kernel) (by decide +kernel)

end McpService

end Hku
