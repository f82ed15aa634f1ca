import HkuRest.Httpd.ChunkedWrites

/-! The security and CORS headers of the responses. `setResponseHeaders` is called on the
response that a handler is given, and on those that `processHandle` makes itself; the two
exits of `readLoop` that answer without it do not call it. -/

namespace Hku

open Connection

def corsHeaders (config : CorsConfig) : Fields :=
  if config.enabled then
    (Bytes.ascii "Access-Control-Allow-Origin", config.allowOrigin) ::
      (List.filter (fun field => field.2 ≠ []) [(Bytes.ascii "Access-Control-Allow-Methods", config.allowMethods),
        (Bytes.ascii "Access-Control-Allow-Headers", config.allowHeaders),
        (Bytes.ascii "Access-Control-Expose-Headers", config.exposeHeaders),
        (Bytes.ascii "Access-Control-Max-Age", config.maxAge)] ++
      if config.allowCredentials then
        [(Bytes.ascii "Access-Control-Allow-Credentials", Bytes.ascii "true")]
      else [])
  else []

/-- The fields that `setResponseHeaders` sets. -/
def requiredHeaders (config : CorsConfig) (isHttps : Bool) : Fields :=
  (if isHttps then securityHeaders ++ [strictTransportSecurity] else securityHeaders) ++
    corsHeaders config

def Response.setAll (response : Response) (headers : Fields) : Response :=
  headers.foldl (fun response field => response.set field.1 field.2) response

theorem setCorsHeaders_eq (config : CorsConfig) (response : Response) :
    setCorsHeaders config response = response.setAll (corsHeaders config) := by
  unfold setCorsHeaders corsHeaders
  cases config.enabled with
  | false => rfl
  | true =>
    simp only [if_true, Response.setAll, List.foldl_cons, List.foldl_append, List.foldl_filter,
      List.foldl_nil]
    cases config.allowCredentials <;> simp

theorem setResponseHeaders_eq (config : CorsConfig) (isHttps : Bool) (response : Response) :
    setResponseHeaders config isHttps response = response.setAll (requiredHeaders config isHttps) := by
  rw [setResponseHeaders, setCorsHeaders_eq, requiredHeaders, Response.setAll, Response.setAll,
    List.foldl_append]

/-- Two headers with different names. -/
def Apart (one other : Bytes) : Prop := other.iequals one = false

theorem setAll_find_of_apart {headers : Fields} {name : Bytes} (response : Response)
    (apart : ∀ field ∈ headers, Apart name field.1) :
    (response.setAll headers).fields.find name = response.fields.find name := by
  induction headers generalizing response with
  | nil => rfl
  | cons field rest ih =>
    obtain ⟨first, others⟩ := List.forall_mem_cons.mp apart
    exact (ih (response.set field.1 field.2) others).trans
      (response.fields.find_set_of_ne field.2 first)

theorem setAll_find {headers : Fields} (distinct : (headers.map Prod.fst).Pairwise Apart)
    (response : Response) {field : Bytes × Bytes} (member : field ∈ headers) :
    (response.setAll headers).fields.find field.1 = some field.2.trim := by
  induction headers generalizing response with
  | nil => cases member
  | cons head rest ih =>
    obtain ⟨first, others⟩ := List.pairwise_cons.mp distinct
    rcases List.mem_cons.mp member with rfl | later
    · have apart : ∀ other ∈ rest, Apart field.1 other.1 :=
        fun other known => first other.1 (List.mem_map_of_mem known)
      exact (setAll_find_of_apart _ apart).trans (response.fields.find_set field.1 field.2)
    · exact ih others _ later

/-- The names of all headers that may be required. -/
def headerNames : List Bytes :=
  (securityHeaders ++ [strictTransportSecurity]).map Prod.fst ++
    [Bytes.ascii "Access-Control-Allow-Origin", Bytes.ascii "Access-Control-Allow-Methods",
      Bytes.ascii "Access-Control-Allow-Headers", Bytes.ascii "Access-Control-Expose-Headers",
      Bytes.ascii "Access-Control-Max-Age", Bytes.ascii "Access-Control-Allow-Credentials"]

theorem headerNames_apart : headerNames.Pairwise Apart := by
  unfold Apart
  decide +kernel

theorem requiredHeaders_names (config : CorsConfig) (isHttps : Bool) :
    ((requiredHeaders config isHttps).map Prod.fst).Sublist headerNames := by
  rw [requiredHeaders, List.map_append]
  refine List.Sublist.append ?_ ?_
  · cases isHttps with
    | true => exact .refl _
    | false =>
      rw [List.map_append]
      exact List.sublist_append_left _ _
  · unfold corsHeaders
    cases config.enabled with
    | false => exact List.nil_sublist _
    | true =>
      rw [if_pos rfl, List.map_cons, List.map_append]
      have credentials : ((if config.allowCredentials then
          [(Bytes.ascii "Access-Control-Allow-Credentials", Bytes.ascii "true")] else []).map
            Prod.fst).Sublist [Bytes.ascii "Access-Control-Allow-Credentials"] := by
        cases config.allowCredentials with
        | true => exact .refl _
        | false => exact List.nil_sublist _
      exact ((List.filter_sublist.map Prod.fst).append credentials).cons_cons _

theorem setResponseHeaders_find {config : CorsConfig} {isHttps : Bool} {field : Bytes × Bytes}
    (member : field ∈ requiredHeaders config isHttps) (response : Response) :
    (setResponseHeaders config isHttps response).fields.find field.1 = some field.2.trim := by
  rw [setResponseHeaders_eq]
  exact setAll_find (headerNames_apart.sublist (requiredHeaders_names config isHttps)) response member

/-- A header that the framework sets for itself. -/
def Field.isFramework (name : Bytes) : Bool :=
  [Field.connection, Field.contentLength, Field.contentType, Field.transferEncoding].any
    fun own => own.iequals name

theorem required_foreign {config : CorsConfig} {isHttps : Bool} {field : Bytes × Bytes}
    (member : field ∈ requiredHeaders config isHttps) : Field.isFramework field.1 = false := by
  have listed := (requiredHeaders_names config isHttps).subset (List.mem_map_of_mem member)
  have foreign : ∀ name ∈ headerNames, Field.isFramework name = false := by decide +kernel
  exact foreign field.1 listed

namespace Response

variable {name : Bytes} {response : Response}

theorem foreign_apart (foreign : Field.isFramework name = false) {own : Bytes}
    (listed : own ∈ [Field.connection, Field.contentLength, Field.contentType,
      Field.transferEncoding]) : Apart name own := by
  have differs := List.any_eq_false.mp foreign own listed
  exact Bool.eq_false_iff.mpr differs

theorem set_find (foreign : Field.isFramework name = false) {own : Bytes} (value : Bytes)
    (listed : own ∈ [Field.connection, Field.contentLength, Field.contentType,
      Field.transferEncoding]) :
    (response.set own value).fields.find name = response.fields.find name :=
  response.fields.find_set_of_ne value (foreign_apart foreign listed)

theorem dropChunked_find (foreign : Field.isFramework name = false) :
    response.dropChunked.fields.find name = response.fields.find name := by
  simp only [dropChunked]
  split
  · exact response.fields.find_setOrErase_of_ne _ (foreign_apart foreign (by simp))
  · rfl

theorem preparePayload_find (foreign : Field.isFramework name = false) {prepared : Response}
    (prepares : response.preparePayload = some prepared) :
    prepared.fields.find name = response.fields.find name := by
  simp only [preparePayload, Option.ite_none_left_eq_some, Option.some.injEq] at prepares
  obtain ⟨_, rfl⟩ := prepares
  rw [dropChunked_find foreign, set_find foreign _ (by simp)]

theorem preparePayload_getD_find (foreign : Field.isFramework name = false) :
    (response.preparePayload.getD response).fields.find name = response.fields.find name := by
  cases prepares : response.preparePayload with
  | none => rfl
  | some prepared => exact preparePayload_find foreign prepares

theorem failure_find (foreign : Field.isFramework name = false) (status : Nat) (text : Bytes) :
    (Exchange.failure status text response).fields.find name = response.fields.find name := by
  simp only [Exchange.failure]
  rw [preparePayload_getD_find foreign]
  exact set_find foreign _ (by simp)

theorem keepAlive_find (foreign : Field.isFramework name = false) (value : Bool) :
    (response.keepAlive value).fields.find name = response.fields.find name :=
  response.fields.find_setOrErase_of_ne _ (foreign_apart foreign (by simp))

end Response

def Output.response : Output → Option Response
  | .header response | .message response => some response
  | .raw _ | .upgrade | .frame _ => none

/-- The response in the making has the field, and every response written so far. -/
structure Carries (field : Bytes × Bytes) (exchange : Exchange) : Prop where
  current : exchange.context.res.fields.find field.1 = some field.2.trim
  written : ∀ write ∈ exchange.writes, ∀ response, write.output.response = some response →
    response.fields.find field.1 = some field.2.trim

/-- A call that leaves the header of this name as it is. -/
def HandleCall.LeavesAlone (name : Bytes) : HandleCall → Prop
  | .respond change => ∀ response, (change response).fields.find name = response.fields.find name
  | _ => True

variable {sendOk : Nat → Bool} {exchange : Exchange} {field : Bytes × Bytes}

namespace Carries

theorem respond (carries : Carries field exchange) {change : Response → Response}
    (keeps : ∀ response, (change response).fields.find field.1 = response.fields.find field.1) :
    Carries field (exchange.respond change) :=
  ⟨(keeps exchange.context.res).trans carries.current, carries.written⟩

theorem send (carries : Carries field exchange) (sendOk : Nat → Bool) (layer : Layer) {output : Output}
    (held : ∀ response, output.response = some response →
      response.fields.find field.1 = some field.2.trim) :
    Carries field (exchange.send sendOk layer output).1 := by
  refine ⟨carries.current, ?_⟩
  intro write member response sent
  rcases List.mem_append.mp member with earlier | last
  · exact carries.written write earlier response sent
  · rw [List.mem_singleton.mp last] at sent
    exact held response sent

theorem sendRaw (carries : Carries field exchange) (sendOk : Nat → Bool) (bytes : Bytes) :
    Carries field (exchange.send sendOk .tcp (.raw bytes)).1 := by
  refine carries.send sendOk .tcp ?_
  intro response sent
  cases sent

theorem writeChunkVia (carries : Carries field exchange) {prepare : Response → Response}
    (keeps : ∀ response, (prepare response).fields.find field.1 = response.fields.find field.1)
    (data : Bytes) : Carries field (exchange.writeChunkVia sendOk prepare data).1 := by
  unfold Exchange.writeChunkVia
  split
  · split
    · exact carries.sendRaw sendOk _
    · have ready : Carries field ({ exchange with headersSent := true }.respond prepare) :=
        ⟨(keeps exchange.context.res).trans carries.current, carries.written⟩
      have opened : Carries field (({ exchange with headersSent := true }.respond prepare).send sendOk
          .tcp (.header (prepare exchange.context.res))).1 := by
        refine ready.send sendOk .tcp ?_
        rintro response ⟨⟩
        exact ready.current
      dsimp only
      split
      · exact opened.sendRaw sendOk _
      · exact opened
  · exact carries

theorem finishChunkedTransferVia (carries : Carries field exchange) (throws : Bool) :
    Carries field (exchange.finishChunkedTransferVia sendOk throws).1 := by
  have closed := carries.sendRaw sendOk (Bytes.ascii "0\r\n\r\n")
  unfold Exchange.finishChunkedTransferVia
  split
  · dsimp only
    split <;> exact ⟨closed.current, closed.written⟩
  · exact carries

theorem perform (carries : Carries field exchange) (foreign : Field.isFramework field.1 = false)
    {call : HandleCall} (leaves : call.LeavesAlone field.1) :
    Carries field (call.perform sendOk exchange) := by
  cases call with
  | respond change => exact carries.respond leaves
  | enableChunkedTransfer =>
    exact ⟨(Response.set_find foreign _ (by simp)).trans carries.current, carries.written⟩
  | writeChunk data =>
    refine carries.writeChunkVia ?_ data
    intro response
    rfl
  | writeChunkSync data =>
    refine carries.writeChunkVia ?_ data
    intro response
    exact Response.set_find foreign _ (by simp)
  | finishChunkedTransfer => exact carries.finishChunkedTransferVia true
  | finishChunkedTransferSync => exact carries.finishChunkedTransferVia false

theorem calls (carries : Carries field exchange) (foreign : Field.isFramework field.1 = false)
    (sendOk : Nat → Bool) {calls : List HandleCall} (leave : ∀ call ∈ calls, call.LeavesAlone field.1) :
    Carries field (calls.foldl (HandleCall.perform sendOk) exchange) := by
  induction calls generalizing exchange with
  | nil => exact carries
  | cons call rest ih =>
    obtain ⟨first, others⟩ := List.forall_mem_cons.mp leave
    exact ih (carries.perform foreign first) others

theorem invoke (carries : Carries field exchange) (foreign : Field.isFramework field.1 = false)
    (bizErrMsg : Int → Bytes) {handle : Handle} (leave : ∀ call ∈ handle.calls, call.LeavesAlone field.1) :
    Carries field (handle.invoke bizErrMsg sendOk exchange) := by
  have after := carries.calls foreign sendOk leave
  have failed (status : Nat) (text : Bytes) := after.respond
    (fun _ => Response.failure_find foreign status text)
  rw [Handle.calls, ← runStages_calls] at after failed
  simp only [Handle.invoke]
  split
  · split
    · split
      · exact after
      · split
        · rename_i prepares
          exact ⟨(Response.preparePayload_find foreign prepares).trans after.current, after.written⟩
        · exact failed _ _
    · exact failed _ _
  · exact failed _ _
  · exact failed _ _

theorem settle (carries : Carries field exchange) (foreign : Field.isFramework field.1 = false) :
    Carries field (settle exchange) := by
  unfold Connection.settle
  split
  · exact carries
  · exact carries.respond fun response => Response.keepAlive_find foreign _

theorem writeResponse (carries : Carries field exchange) (ssl : Bool) (sendOk : Nat → Bool) :
    Carries field (writeResponse ssl sendOk exchange).1 := by
  unfold Connection.writeResponse
  split
  · exact carries
  · refine carries.send sendOk _ ?_
    rintro response ⟨⟩
    exact carries.current

end Carries

/-- The handler of a request, if one is called, leaves the header of this name as it was
set; what a handler function did before it threw does not count. -/
def HttpServer.LeavesAlone (server : HttpServer) (index : Nat) (request : Request) (name : Bytes) : Prop :=
  match server.route request with
  | .found handler =>
      match handler index (server.fixHost request) with
      | .handle handle => ∀ call ∈ handle.calls, call.LeavesAlone name
      | .function change throws =>
          throws = true ∨ ∀ response, (change response).fields.find name = response.fields.find name
  | .noRouter | .preflight | .missing => True

theorem processHandle_carries (server : HttpServer) (ssl : Bool) (index : Nat) {context : BeastContext}
    (member : field ∈ requiredHeaders server.corsConfig ssl)
    (leaves : server.LeavesAlone index context.req field.1) :
    Carries field (processHandle server ssl sendOk index (.start context)) := by
  have foreign := required_foreign member
  have dresses (exchange : Exchange) (silent : exchange.writes = []) (make : Response → Response) :
      Carries field (exchange.respond fun response =>
        setResponseHeaders server.corsConfig ssl (make response)) := by
    refine ⟨setResponseHeaders_find member _, ?_⟩
    intro write written
    rw [show (exchange.respond _).writes = exchange.writes from rfl, silent] at written
    cases written
  have request : (Exchange.start context).context.req = context.req := rfl
  simp only [HttpServer.LeavesAlone] at leaves
  simp only [processHandle, request]
  cases route : server.route context.req with
  | noRouter | missing => exact dresses _ rfl _
  | preflight =>
    have dressed := dresses { Exchange.start context with
      context := { context with req := server.fixHost context.req } } rfl (·.result 204)
    exact ⟨(Response.preparePayload_getD_find foreign).trans dressed.current, dressed.written⟩
  | found handler =>
    have dressed := dresses { Exchange.start context with
      context := { context with req := server.fixHost context.req } } rfl id
    simp only [route] at leaves
    simp only
    cases handled : handler index (server.fixHost context.req) with
    | handle handle =>
      simp only [handled] at leaves
      exact (dressed.invoke foreign server.bizErrMsg leaves).settle foreign
    | function change throws =>
      simp only [handled] at leaves
      cases throws with
      | true => exact dresses _ rfl _
      | false =>
        have kept := leaves.resolve_left Bool.false_ne_true
        exact (dressed.respond kept).settle foreign

/-- Every response that a turn writes has each of the headers that the handler leaves alone, with the
value that was set, but for blanks around it. -/
def HeadersPresent {Network : Type} (server : HttpServer) (ssl : Bool) (now : Circumstances) (index : Nat)
    (request : Request) (turn : Turn Network) : Prop :=
  ∀ field ∈ requiredHeaders server.corsConfig ssl,
    (server.action now.admitted request = .dispatch → server.LeavesAlone index request field.1) →
    ∀ write ∈ turn.writes, ∀ response, write.output.response = some response →
      response.fields.find field.1 = some field.2.trim

variable {Network : Type} {server : HttpServer}
  {read : Network → Bytes → Option (Request × Bytes × Network)} {now : Circumstances} {index : Nat}
  {connection : Connection} {network : Network} {request : Request} {turn : Turn Network}

theorem upgradeWrites_response {write : Write} (member : write ∈ upgradeWrites now) :
    write.output.response = none := by
  unfold upgradeWrites at member
  split at member
  · rcases List.mem_cons.mp member with rfl | sent
    · rfl
    · obtain ⟨payload, _, rfl⟩ := List.mem_map.mp sent
      rfl
  · cases member

theorem plain_headers_missing : ∀ response ∈ [http2Rejection .empty, tooManyRequests .empty],
    response.fields.find (Bytes.ascii "X-Frame-Options") = none := by
  decide +kernel

theorem frameOptions_required (config : CorsConfig) (isHttps : Bool) :
    (Bytes.ascii "X-Frame-Options", Bytes.ascii "DENY") ∈ requiredHeaders config isHttps := by
  refine List.mem_append_left _ ?_
  cases isHttps <;> decide +kernel

/-- An answer that `readLoop` makes itself has the headers only if it is not written. -/
theorem rejected_headers_iff {buffer : Bytes} {rest : Network} (plain : Response → Response)
    (missing : (plain .empty).fields.find (Bytes.ascii "X-Frame-Options") = none)
    (writes : (answer server now index connection request buffer rest).writes =
      (writeResponse connection.ssl now.sendOk
        ((Exchange.start (connection.received request buffer)).respond plain)).1.writes)
    (undispatched : server.action now.admitted request ≠ .dispatch) :
    HeadersPresent server connection.ssl now index request
        (answer server now index connection request buffer rest) ↔
      connection.session.responseSent = true := by
  have context : ((Exchange.start (connection.received request buffer)).respond
    plain).context.responseSent = connection.session.responseSent := rfl
  constructor
  · intro present
    cases marked : connection.session.responseSent with
    | true => rfl
    | false =>
      have written : ⟨responseLayer connection.ssl, .message (plain .empty)⟩ ∈
          (answer server now index connection request buffer rest).writes := by
        rw [writes, writeResponse, context, marked]
        exact List.mem_singleton_self _
      have found := present _ (frameOptions_required server.corsConfig connection.ssl)
        (fun dispatched => absurd dispatched undispatched) _ written _ rfl
      rw [missing] at found
      cases found
  · intro marked field _ _ write member
    rw [writes, writeResponse, context, if_pos marked] at member
    cases member

/-- The responses of a turn have the security and CORS headers that the handler leaves alone,
exactly when the turn is no rejection of HTTP/2 or by the rate limiter, or writes nothing because
the connection is still marked as answered. -/
theorem headers_present_iff (server : HttpServer)
    (read : Network → Bytes → Option (Request × Bytes × Network)) (now : Circumstances) (index : Nat)
    (connection : Connection) (network : Network) (request : Request)
    (requested : (Connection.turn server read now index connection network).request = some request) :
    HeadersPresent server connection.ssl now index request
        (Connection.turn server read now index connection network) ↔
      connection.session.responseSent = true ∨
        server.action now.admitted request ≠ .rejectHttp2 ∧
          server.action now.admitted request ≠ .rejectRate := by
  obtain ⟨buffer, rest, _, answered⟩ := turn_answer requested
  rw [answered]
  cases action : server.action now.admitted request with
  | rejectHttp2 =>
    have missing := plain_headers_missing (http2Rejection .empty) (by simp)
    refine (rejected_headers_iff http2Rejection missing ?_ ?_).trans ?_
    · simp only [answer, action]
    · simp [action]
    · simp
  | rejectRate =>
    have missing := plain_headers_missing (tooManyRequests .empty) (by simp)
    refine (rejected_headers_iff tooManyRequests missing ?_ ?_).trans ?_
    · simp only [answer, action]
    · simp [action]
    · simp
  | upgrade =>
    refine iff_of_true ?_ (.inr ⟨by simp, by simp⟩)
    intro field _ _ write member response sent
    simp only [answer, action] at member
    rw [upgradeWrites_response member] at sent
    cases sent
  | dispatch =>
    refine iff_of_true ?_ (.inr ⟨by simp, by simp⟩)
    intro field member leaves
    have handled : Carries field (processHandle server connection.ssl now.sendOk index
        (.start (connection.received request buffer))) :=
      processHandle_carries server connection.ssl index member (leaves action)
    have written := (handled.writeResponse connection.ssl now.sendOk).written
    simpa only [answer, action] using written

def getMissing : Request := ⟨Bytes.ascii "GET", Bytes.ascii "/missing", 11, [], []⟩

theorem headers_present_iff_not_found :
    HeadersPresent (HttpServer.ofRoutes []) false .calm 0 getMissing
      (Connection.turn (HttpServer.ofRoutes []) arriving .calm 0 (.create false) [getMissing]) := by
  refine (headers_present_iff (HttpServer.ofRoutes []) arriving .calm 0 (.create false) [getMissing]
    getMissing rfl).mpr (.inr ⟨?_, ?_⟩) <;> decide +kernel

/-- A request over the rate limit gets an answer without the headers. -/
theorem rejection_without_headers :
    ¬ ∀ (server : HttpServer) (now : Circumstances) (index : Nat) (ssl : Bool) (request : Request),
      HeadersPresent server ssl now index request
        (Connection.turn server arriving now index (.create ssl) [request]) := by
  intro complete
  have present := complete { HttpServer.ofRoutes [] with rateLimitEnabled := true }
    { Circumstances.calm with admitted := false } 0 false getMissing
  have found := present _ (frameOptions_required _ false)
    (fun dispatched => absurd dispatched (by decide +kernel)) ⟨.tcp, .message (tooManyRequests .empty)⟩
    (by decide +kernel) _ rfl
  rw [plain_headers_missing _ (by simp)] at found
  cases found

end Hku
