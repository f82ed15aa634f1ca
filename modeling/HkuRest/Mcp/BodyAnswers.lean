import HkuRest.Mcp.EventStreamAnswers

/-! What `run` leaves in the body for a client that accepts no event streams. The error
that stands for an exception has no id, also where the request has one, and a dispatched
method that ends with null, or with what cannot be dumped, leaves the body empty. -/

namespace Hku

open McpHandle

/-- The body of the request is a JSON-RPC request with an id; its method may be any value. -/
structure Submits (service : McpService) (request : Request) (json method id : Json) : Prop where
  parsed : service.codec.parse (request.getReqData service.decompress) = some json
  version : json.find (key "jsonrpc") = some (.string (Bytes.ascii "2.0"))
  named : json.find (key "method") = some method
  identified : json.find (key "id") = some id
  awaits : method ≠ .string (Bytes.ascii "initialized")

/-- The body of the response is one response object, with this id. -/
def Exchange.HoldsReply (codec : JsonCodec) (id : Json) (exchange : Exchange) : Prop :=
  ∃ reply, codec.parse exchange.context.res.body = some reply ∧ reply.isResponse = true ∧
    reply.find (key "id") = some id

/-- The script returns, and the response of the exchange then holds the reply. -/
def Script.LeavesReply (script : Script) (codec : JsonCodec) (id : Json) (sendOk : Nat → Bool)
    (exchange : Exchange) : Prop :=
  script.outcome = .returned bizOk ∧
    (script.calls.foldl (HandleCall.perform sendOk) exchange).HoldsReply codec id

/-- A method ends with a value other than null or with an error, and its message can be dumped. -/
def Dispatched.Answerable (service : McpService) (id : Json) (dispatched : Dispatched) : Prop :=
  match dispatched.outcome with
  | none => False
  | some result =>
      if result.err = 0 then
        result.value ≠ .null ∧ (service.codec.dump (successResponse result.value id)).isSome = true
      else (service.codec.dump (errorResponse service.bizErrMsg result.err id)).isSome = true

/-- The session gate refuses the method, or the method is answered. -/
def NamedAnswerable (service : McpService) (visit : Visit) (request : Request) (name : Bytes)
    (params id : Json) : Prop :=
  match openSession visit name (extractSessionId request) with
  | (.error _, _) => True
  | (.ok (sessionId, _), sessions) =>
      (service.dispatchMethod { visit with sessions := sessions } name params sessionId id
        false).Answerable service id

/-- Without a text for its method a request is answerable only if its id is null. -/
def Answerable (service : McpService) (visit : Visit) (request : Request) (method params id : Json) :
    Prop :=
  match method with
  | .string name => NamedAnswerable service visit request name params id
  | _ => id = .null

variable {service : McpService} {visit : Visit} {request : Request} {json method id : Json}
  {name sessionId text : Bytes} {headers : List HandleCall} {sessions : SessionManager}
  {code : Int} {sendOk : Nat → Bool} {exchange : Exchange} {dispatched : Dispatched}

theorem replyText_isSome_iff :
    (replyText service id dispatched).isSome = true ↔ dispatched.Answerable service id := by
  unfold replyText Dispatched.Answerable
  cases dispatched.outcome with
  | none => simp
  | some result =>
    by_cases succeeded : result.err = 0
    · by_cases empty : result.value = .null
      · simp [succeeded, empty]
      · simp [succeeded, empty]
    · simp [succeeded]

instance (service : McpService) (id : Json) (dispatched : Dispatched) :
    Decidable (dispatched.Answerable service id) :=
  decidable_of_iff _ replyText_isSome_iff

instance (service : McpService) (visit : Visit) (request : Request) (name : Bytes) (params id : Json) :
    Decidable (NamedAnswerable service visit request name params id) :=
  match gate : openSession visit name (extractSessionId request) with
  | (.error _, _) => .isTrue (by simp only [NamedAnswerable, gate])
  | (.ok (sessionId, _), sessions) =>
      decidable_of_iff ((service.dispatchMethod { visit with sessions := sessions } name params
        sessionId id false).Answerable service id) (by rw [NamedAnswerable, gate])

/-- While nothing is streamed, headers do not touch the body, and the reply replaces it. -/
theorem leavesReply_iff {opening more : List HandleCall} (text : Bytes)
    (sets : ∀ call ∈ opening, call.SetsHeader) (never : ∀ call ∈ more, call.enables = false)
    (unchunked : exchange.chunkedTransfer = false) (fresh : exchange.context.res.body = [])
    (rewritten : ∀ response : Response, response.body = [] → (rewrites more response).body = text) :
    Script.LeavesReply ⟨opening ++ more, .returned bizOk⟩ service.codec id sendOk exchange ↔
      ∃ reply, service.codec.parse text = some reply ∧ reply.isResponse = true ∧
        reply.find (key "id") = some id := by
  have silent : ∀ call ∈ opening ++ more, call.enables = false := by
    intro call member
    rcases List.mem_append.mp member with header | later
    · exact (sets call header).enables
    · exact never call later
  have kept : (rewrites opening exchange.context.res).body = [] :=
    (rewrites_headers sets exchange.context.res).body.trans fresh
  have body : (rewrites (opening ++ more) exchange.context.res).body = text := by
    rw [rewrites_append, rewritten _ kept]
  simp only [Script.LeavesReply, calls_unchunked sendOk silent exchange unchunked,
    Exchange.HoldsReply, true_and]
  rw [show (exchange.respond (rewrites (opening ++ more))).context.res =
    rewrites (opening ++ more) exchange.context.res from rfl, body]

theorem leavesReply_error_iff {opening : List HandleCall} (sets : ∀ call ∈ opening, call.SetsHeader)
    (unchunked : exchange.chunkedTransfer = false) (fresh : exchange.context.res.body = [])
    {named : Json}
    (dumped : service.codec.dump (errorResponse service.bizErrMsg code named) = some text) :
    Script.LeavesReply ⟨opening ++ errorCalls false text, .returned bizOk⟩ service.codec id sendOk
      exchange ↔ named = id := by
  rw [leavesReply_iff text sets (by simp [errorCalls, HandleCall.enables]) unchunked fresh
    fun _ _ => rfl]
  obtain ⟨responds, carries⟩ := errorResponse_isResponse service.bizErrMsg code named
  simp [service.codec.parse_dump dumped, responds, carries]

theorem leavesReply_dispatched_iff {opening : List HandleCall}
    (sets : ∀ call ∈ opening, call.SetsHeader) (unchunked : exchange.chunkedTransfer = false)
    (fresh : exchange.context.res.body = []) :
    Script.LeavesReply ⟨opening ++ dispatchCalls service [] false false id dispatched,
        .returned bizOk⟩ service.codec id sendOk exchange ↔ dispatched.Answerable service id := by
  rw [← replyText_isSome_iff, dispatchCalls_eq, pushProgress_idle, List.nil_append]
  cases replied : replyText service id dispatched with
  | none =>
    rw [replyCalls, replied]
    rw [leavesReply_iff [] sets (List.forall_mem_nil _) unchunked fresh fun response empty => empty]
    simp [service.codec.parse_nil]
  | some text =>
    rw [replyCalls_plain replied, leavesReply_iff text sets (by simp [errorCalls, HandleCall.enables])
      unchunked fresh fun _ _ => rfl]
    simp [(replyText_reads replied).2]

theorem Submits.posts (submits : Submits service request json (.string name) id) :
    Posts service request json name id where
  parsed := submits.parsed
  version := submits.version
  named := submits.named
  identified := submits.identified
  awaits := by
    intro same
    exact submits.awaits (congrArg Json.string same)

theorem Submits.rejected (submits : Submits service request json method id)
    (untyped : ∀ name, method ≠ .string name) :
    Rejected service request bizJsonrpcInternalError .null := by
  have named := submits.named
  refine .unnamed submits.parsed submits.version ?_
  cases json with
  | object members => simp only [Json.value, named]
  | _ => rfl

theorem body_unnamed_iff (submits : Submits service request json method id)
    (untyped : ∀ name, method ≠ .string name) (plain : supportsSse request = false)
    (reports : service.ReportsErrors id) (unchunked : exchange.chunkedTransfer = false)
    (fresh : exchange.context.res.body = []) :
    (run service visit [] request).LeavesReply service.codec id sendOk exchange ↔ id = .null := by
  obtain ⟨text, dumped⟩ := Option.isSome_iff_exists.mp reports.internal
  have none : ∀ call ∈ ([] : List HandleCall), call.SetsHeader := List.forall_mem_nil _
  rw [(submits.rejected untyped).run_eq dumped, plain]
  exact (leavesReply_error_iff none unchunked fresh dumped).trans eq_comm

theorem body_named_iff (posts : Posts service request json name id)
    (plain : supportsSse request = false) (reports : service.ReportsErrors id)
    (unchunked : exchange.chunkedTransfer = false) (fresh : exchange.context.res.body = []) :
    (run service visit [] request).LeavesReply service.codec id sendOk exchange ↔
      NamedAnswerable service visit request name (paramsOf json) id := by
  rcases gate : openSession visit name (extractSessionId request) with
    ⟨code | ⟨sessionId, headers⟩, sessions⟩
  · obtain ⟨text, dumped⟩ := Option.isSome_iff_exists.mp
      (reports.refusal code (openSession_refusal gate))
    have none : ∀ call ∈ ([] : List HandleCall), call.SetsHeader := List.forall_mem_nil _
    rw [run_refused posts.calls posts.id_eq gate dumped, plain]
    refine (leavesReply_error_iff none unchunked fresh dumped).trans ?_
    simp only [NamedAnswerable, gate]
  · have sets := openSession_echoed gate
    have typed : enableStreaming (supportsSse request) name (paramsOf json) = some false := by
      rw [plain]
      rfl
    have ran := run_dispatched posts gate typed
    simp only [plain, Bool.false_eq_true, if_false, List.append_nil] at ran
    simp only [ran, NamedAnswerable, gate]
    exact leavesReply_dispatched_iff sets unchunked fresh

/-- A client that accepts no event streams finds its reply in the body exactly when the
request is answerable. -/
theorem body_answered_iff (submits : Submits service request json method id)
    (plain : supportsSse request = false) (reports : service.ReportsErrors id)
    (unchunked : exchange.chunkedTransfer = false) (fresh : exchange.context.res.body = []) :
    (run service visit exchange.context.res.body request).LeavesReply service.codec id sendOk
        exchange ↔
      Answerable service visit request method (paramsOf json) id := by
  rw [fresh]
  cases method with
  | string name => exact body_named_iff submits.posts plain reports unchunked fresh
  | null | boolean value | integer value | real literal | array items | object members =>
    exact body_unnamed_iff submits (by simp) plain reports unchunked fresh

namespace McpHandle

def numberedCall : Json :=
  .object [(key "id", .integer 1), (key "jsonrpc", quote "2.0"), (key "method", .integer 5)]

theorem numberedValues_legible : Legible (numberedCall :: demoValues) where
  distinct := by decide +kernel
  lines := by decide +kernel
  filled := by decide +kernel

def numberedService : McpService :=
  { demoService with codec := .ofValues (numberedCall :: demoValues) numberedValues_legible }

/-- The request of a client that names no type that it accepts. -/
def postPlain (json : Json) : Request :=
  { post json with fields := [(Bytes.ascii "Mcp-Session-Id", Bytes.ascii "a")] }

theorem numberedService_reports : numberedService.ReportsErrors (.integer 1) where
  refusal := by decide +kernel
  internal := by decide +kernel

theorem numberedService_submits (json method : Json) (known : json ∈ numberedCall :: demoValues)
    (version : json.find (key "jsonrpc") = some (.string (Bytes.ascii "2.0")))
    (named : json.find (key "method") = some method)
    (identified : json.find (key "id") = some (.integer 1))
    (awaits : method ≠ .string (Bytes.ascii "initialized")) :
    Submits numberedService (postPlain json) json method (.integer 1) where
  parsed := numberedService.codec.parse_dump (if_pos known)
  version := version
  named := named
  identified := identified
  awaits := awaits

theorem body_answered_iff_ping :
    (run numberedService demoVisit (Exchange.start .create).context.res.body
      (postPlain pingCall)).LeavesReply numberedService.codec (.integer 1) (fun _ => true)
        (.start .create) :=
  have answerable : NamedAnswerable numberedService demoVisit (postPlain pingCall)
      (Bytes.ascii "ping") (paramsOf pingCall) (.integer 1) := by decide +kernel
  (body_answered_iff (numberedService_submits pingCall (quote "ping") (by decide +kernel) rfl rfl rfl
    (by decide +kernel)) (by decide +kernel) numberedService_reports rfl rfl).mpr answerable

/-- The error of a request with a number for its method has no id. -/
theorem numbered_method_unidentified :
    ¬ ∀ (service : McpService) (visit : Visit) (request : Request) (json method id : Json)
      (sendOk : Nat → Bool) (exchange : Exchange),
      Submits service request json method id → supportsSse request = false →
      service.ReportsErrors id → exchange.chunkedTransfer = false → exchange.context.res.body = [] →
      (run service visit exchange.context.res.body request).LeavesReply service.codec id sendOk
        exchange := by
  intro answered
  have submits := numberedService_submits numberedCall (.integer 5) (by decide +kernel) rfl rfl rfl
    (by simp)
  have plain : supportsSse (postPlain numberedCall) = false := by decide +kernel
  have left := answered numberedService demoVisit _ _ _ _ (fun _ => true) (.start .create)
    submits plain numberedService_reports rfl rfl
  have unnamed := (body_unnamed_iff submits (by simp) plain numberedService_reports rfl rfl).mp left
  cases unnamed

end McpHandle

end Hku
