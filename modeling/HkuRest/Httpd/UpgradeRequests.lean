import HkuRest.Httpd.FastPath

/-! Requests for an upgrade to WebSocket. `Connection` is a list of tokens, of which `Upgrade` may
be one among others. `Connection::readLoop` wants it to be the only one; what it hands to a
`WebSocketConnection` is tested again there, for less. -/

namespace Hku

namespace Field

def secWebSocketKey : Bytes := Bytes.ascii "Sec-WebSocket-Key"
def secWebSocketVersion : Bytes := Bytes.ascii "Sec-WebSocket-Version"

end Field

/-- The fields of one name are one list. -/
def Request.connectionTokens (request : Request) : List Bytes :=
  (request.fields.filter fun field => field.1.iequals Field.connection).flatMap
    fun field => Fields.tokens field.2

/-- A handshake as a client may send it. -/
structure AsksUpgrade (request : Request) : Prop where
  method : request.method = Bytes.ascii "GET"
  upgrade : (request.fields.get Field.upgrade).iequals (Bytes.ascii "websocket") = true
  connection : ∃ token ∈ request.connectionTokens, token.iequals (Bytes.ascii "upgrade") = true
  key : request.fields.get Field.secWebSocketKey ≠ []
  version : request.fields.get Field.secWebSocketVersion = Bytes.ascii "13"

/-- `Connection: Upgrade`, and nothing else in it. -/
def OnlyUpgrade (request : Request) : Prop :=
  (request.fields.get Field.connection).iequals (Bytes.ascii "Upgrade") = true

instance (request : Request) : Decidable (OnlyUpgrade request) := inferInstanceAs (Decidable (_ = true))

namespace WebSocketConnection

/-- The methods that are no `http::verb::unknown`. -/
def knownVerbs : List Bytes :=
  ["DELETE", "GET", "HEAD", "POST", "PUT", "CONNECT", "OPTIONS", "TRACE", "COPY", "LOCK", "MKCOL", "MOVE",
    "PROPFIND", "PROPPATCH", "SEARCH", "UNLOCK", "BIND", "REBIND", "UNBIND", "ACL", "REPORT", "MKACTIVITY",
    "CHECKOUT", "MERGE", "M-SEARCH", "NOTIFY", "SUBSCRIBE", "UNSUBSCRIBE", "PATCH", "PURGE", "MKCALENDAR",
    "LINK", "UNLINK"].map Bytes.ascii

/-- The request of the handshake: the existing one, or else what the connection reads. -/
def handshakeRequest (existingReq : Request) (reading : Option Request) : Option Request :=
  if knownVerbs.any (existingReq.method = ·) then some existingReq else reading

/-- The upgrade validation of `readLoop`. -/
def validates (request : Request) : Bool :=
  !(request.method ≠ Bytes.ascii "GET" || (request.fields.find Field.upgrade).isNone ||
    !(request.fields.get Field.upgrade).iequals (Bytes.ascii "websocket"))

/-- Whether `readLoop` gets as far as the handshake. -/
def reachesHandshake (existingReq : Request) (reading : Option Request) : Bool :=
  (handshakeRequest existingReq reading).any validates

end WebSocketConnection

open WebSocketConnection (knownVerbs handshakeRequest validates reachesHandshake)

variable {server : HttpServer} {admitted : Bool} {request : Request} {name value : Bytes}

theorem find_of_iequals (filled : value ≠ []) (same : (request.fields.get name).iequals value = true) :
    (request.fields.find name).isSome = true := by
  cases found : request.fields.find name with
  | some written => rfl
  | none =>
    rw [Fields.get, found, Option.getD_none] at same
    have lowered : value.toLower = [] := (of_decide_eq_true same).symm
    exact absurd (List.map_eq_nil_iff.mp lowered) filled

theorem action_upgrade_iff : server.action admitted request = .upgrade ↔
    server.websocketEnabled = true ∧ request.method = Bytes.ascii "GET" ∧
      (request.fields.get Field.upgrade).iequals (Bytes.ascii "websocket") = true ∧ OnlyUpgrade request ∧
      request.fields.get Field.secWebSocketKey ≠ [] ∧
      request.fields.get Field.secWebSocketVersion = Bytes.ascii "13" := by
  have slow : (server.enableFastPath false).isFastPath request = false := rfl
  have classified : server.action admitted request = .upgrade ↔
      request.method ≠ Bytes.ascii "PRI" ∧ server.isWebSocket request = true := by
    simp only [HttpServer.action, HttpServer.preface_test, decide_eq_true_eq]
    by_cases preface : request.method = Bytes.ascii "PRI"
    · simp [preface]
    · cases server.isWebSocket request with
      | true => simp [preface]
      | false => cases server.rateLimitEnabled <;> cases admitted <;> simp [preface]
  rw [classified, server.isWebSocket_eq, HttpServer.isWebSocket, slow]
  simp only [Bool.not_false, Bool.true_or, Bool.true_and, Bool.and_eq_true, decide_eq_true_eq]
  constructor
  · rintro ⟨-, ⟨⟨⟨⟨⟨⟨enabled, get⟩, -⟩, websocket⟩, -⟩, only⟩, key⟩, version⟩
    exact ⟨enabled, get, websocket, only, key, version⟩
  · rintro ⟨enabled, get, websocket, only, key, version⟩
    have upgrade := find_of_iequals (by decide) websocket
    have connection := find_of_iequals (by decide) only
    refine ⟨?_, ⟨⟨⟨⟨⟨⟨enabled, get⟩, upgrade⟩, websocket⟩, connection⟩, only⟩, key⟩, version⟩
    rw [get]
    decide

theorem reachesHandshake_of_upgrade (upgraded : server.action admitted request = .upgrade)
    (reading : Option Request) : reachesHandshake request reading = true := by
  obtain ⟨-, get, websocket, -⟩ := action_upgrade_iff.mp upgraded
  have known : knownVerbs.any (request.method = ·) = true := by
    rw [get]
    decide
  obtain ⟨written, found⟩ := Option.isSome_iff_exists.mp (find_of_iequals (by decide) websocket)
  rw [reachesHandshake, handshakeRequest, if_pos known, Option.any_some, validates, get, websocket, found]
  rfl

/-- Every request for an upgrade is upgraded, and what is upgraded passes the second test, exactly
when `Upgrade` is all that stands in its `Connection` field. -/
theorem upgrade_requests_iff (server : HttpServer) (request : Request) :
    ((server.websocketEnabled = true → AsksUpgrade request →
        ∀ admitted, server.action admitted request = .upgrade) ∧
      ∀ admitted, server.action admitted request = .upgrade →
        ∀ reading, reachesHandshake request reading = true) ↔
    (server.websocketEnabled = true → AsksUpgrade request → OnlyUpgrade request) := by
  constructor
  · rintro ⟨classified, -⟩ enabled asks
    obtain ⟨-, -, -, only, -⟩ := action_upgrade_iff.mp (classified enabled asks true)
    exact only
  · intro only
    constructor
    · intro enabled asks admitted
      exact action_upgrade_iff.mpr
        ⟨enabled, asks.method, asks.upgrade, only enabled asks, asks.key, asks.version⟩
    · intro admitted upgraded reading
      exact reachesHandshake_of_upgrade upgraded reading

/-- What a browser may send that keeps its connections alive. -/
def keepAliveUpgrade : Request where
  method := Bytes.ascii "GET"
  target := Bytes.ascii "/ws"
  version := 11
  fields :=
    [(Field.host, Bytes.ascii "localhost"), (Field.connection, Bytes.ascii "keep-alive, Upgrade"),
      (Field.upgrade, Bytes.ascii "websocket"),
      (Field.secWebSocketKey, Bytes.ascii "dGhlIHNhbXBsZSBub25jZQ=="),
      (Field.secWebSocketVersion, Bytes.ascii "13")]
  body := []

/-- It is not upgraded. -/
theorem keepAlive_upgrade_dispatched :
    ¬ ∀ (server : HttpServer) (request : Request),
      (server.websocketEnabled = true → AsksUpgrade request →
        ∀ admitted, server.action admitted request = .upgrade) ∧
      ∀ admitted, server.action admitted request = .upgrade →
        ∀ reading, reachesHandshake request reading = true := by
  intro classified
  let server : HttpServer := { HttpServer.ofRoutes [] with websocketEnabled := true }
  have asks : AsksUpgrade keepAliveUpgrade := by
    refine ⟨rfl, by decide +kernel, ?_, by decide +kernel, by decide +kernel⟩
    exact ⟨Bytes.ascii "Upgrade", by decide +kernel, by decide +kernel⟩
  have upgraded := (classified server keepAliveUpgrade).1 rfl asks true
  have dispatched : server.action true keepAliveUpgrade = .dispatch := by decide +kernel
  rw [dispatched] at upgraded
  exact HttpServer.Action.noConfusion upgraded

end Hku
