import HkuRest.Httpd.Router

/-! `Connection`: the loop that reads the requests of one TCP or TLS connection and
answers each. What the outside decides in a turn (the clock, the rate limiter,
whether writes succeed, what an upgraded connection sends) comes in as its
circumstances; what arrives is read through a parameter. -/

namespace Hku

namespace HttpConfig

def maxKeepaliveRequests : Nat := 100000

end HttpConfig

structure CorsConfig where
  enabled : Bool
  allowOrigin : Bytes
  allowMethods : Bytes
  allowHeaders : Bytes
  exposeHeaders : Bytes
  maxAge : Bytes
  allowCredentials : Bool

def CorsConfig.default : CorsConfig where
  enabled := false
  allowOrigin := Bytes.ascii "*"
  allowMethods := Bytes.ascii "GET, POST, PUT, DELETE, OPTIONS"
  allowHeaders := Bytes.ascii "Content-Type, Authorization, X-Requested-With"
  exposeHeaders := []
  maxAge := Bytes.ascii "86400"
  allowCredentials := false

/-- What a connection consults of its server. -/
structure HttpServer where
  port : Nat
  corsConfig : CorsConfig
  fastPath : Bool
  websocketEnabled : Bool
  rateLimitEnabled : Bool
  router : Option Router
  bizErrMsg : Int → Bytes

/-- A server with routes, and every option off. -/
def HttpServer.ofRoutes (router : Router) : HttpServer where
  port := 80
  corsConfig := .default
  fastPath := false
  websocketEnabled := false
  rateLimitEnabled := false
  router := some router
  bizErrMsg := fun _ => Bytes.ascii "unknown error"

def setCorsHeaders (config : CorsConfig) (response : Response) : Response :=
  let optional (name value : Bytes) (response : Response) : Response :=
    if value = [] then response else response.set name value
  if config.enabled then
    let allowed := response.set (Bytes.ascii "Access-Control-Allow-Origin") config.allowOrigin
    let listed := optional (Bytes.ascii "Access-Control-Max-Age") config.maxAge
      (optional (Bytes.ascii "Access-Control-Expose-Headers") config.exposeHeaders
        (optional (Bytes.ascii "Access-Control-Allow-Headers") config.allowHeaders
          (optional (Bytes.ascii "Access-Control-Allow-Methods") config.allowMethods allowed)))
    if config.allowCredentials then
      listed.set (Bytes.ascii "Access-Control-Allow-Credentials") (Bytes.ascii "true")
    else listed
  else response

def securityHeaders : Fields :=
  [(Bytes.ascii "X-Content-Type-Options", Bytes.ascii "nosniff"),
    (Bytes.ascii "X-Frame-Options", Bytes.ascii "DENY"),
    (Bytes.ascii "X-XSS-Protection", Bytes.ascii "1; mode=block"),
    (Bytes.ascii "Referrer-Policy", Bytes.ascii "no-referrer-when-downgrade"),
    (Bytes.ascii "Content-Security-Policy", Bytes.ascii ("default-src 'self'; script-src 'self'; " ++
      "style-src 'self' 'unsafe-inline'; img-src 'self' data:;")),
    (Bytes.ascii "Cache-Control", Bytes.ascii "no-store, no-cache, must-revalidate, max-age=0")]

def strictTransportSecurity : Bytes × Bytes :=
  (Bytes.ascii "Strict-Transport-Security", Bytes.ascii "max-age=31536000; includeSubDomains")

def setResponseHeaders (config : CorsConfig) (isHttps : Bool) (response : Response) : Response :=
  let headers := if isHttps then securityHeaders ++ [strictTransportSecurity] else securityHeaders
  setCorsHeaders config (headers.foldl (fun response field => response.set field.1 field.2) response)

/-- A response made on the spot, without a handler. -/
def plainResponse (status : Nat) (contentType text : Bytes) (response : Response) : Response :=
  let filled := ((response.result status).set Field.contentType contentType).setBody text
  filled.preparePayload.getD filled

def json : Bytes := Bytes.ascii "application/json"

def internalServerError : Response → Response :=
  plainResponse 500 json (Bytes.ascii "\x7b\"ret\":500,\"errmsg\":\"Internal Server Error\"\x7d")

def notFound : Response → Response :=
  plainResponse 404 json (Bytes.ascii "\x7b\"ret\":404, \"errcode\":404, \"errmsg\":\"Not Found\"\x7d")

def http2Rejection : Response → Response :=
  plainResponse 400 (Bytes.ascii "text/plain") (Bytes.ascii "This server only supports HTTP/1.1")

def tooManyRequests (response : Response) : Response :=
  (plainResponse 429 json (Bytes.ascii "\x7b\"error\": \"Rate limit exceeded\", \"code\": 429\x7d")
    response).set Field.retryAfter (Bytes.ascii "1")

namespace HttpServer

def isFastPath (server : HttpServer) (request : Request) : Bool :=
  server.fastPath && request.method = Bytes.ascii "GET" && request.target.length < 256 &&
    request.body = []

def isWebSocket (server : HttpServer) (request : Request) : Bool :=
  (!server.isFastPath request || (request.fields.find Field.upgrade).isSome) &&
    (server.websocketEnabled && request.method = Bytes.ascii "GET" &&
      (request.fields.find Field.upgrade).isSome &&
      (request.fields.get Field.upgrade).iequals (Bytes.ascii "websocket") &&
      (request.fields.find Field.connection).isSome &&
      (request.fields.get Field.connection).iequals (Bytes.ascii "Upgrade") &&
      request.fields.get (Bytes.ascii "Sec-WebSocket-Key") ≠ [] &&
      request.fields.get (Bytes.ascii "Sec-WebSocket-Version") = Bytes.ascii "13")

inductive Action
  | rejectHttp2
  | upgrade
  | rejectRate
  | dispatch
  deriving DecidableEq, Repr

/-- What the loop does with a request, given the verdict of the rate limiter. -/
def action (server : HttpServer) (admitted : Bool) (request : Request) : Action :=
  if !server.isFastPath request && request.method = Bytes.ascii "PRI" then .rejectHttp2
  else if server.isWebSocket request then .upgrade
  else if server.rateLimitEnabled && !admitted then .rejectRate
  else .dispatch

/-- A `Host` without a port gets the port of the server. -/
def fixHost (server : HttpServer) (request : Request) : Request :=
  let host := request.fields.get Field.host
  if host ≠ [] ∧ 0x3a ∉ host then
    { request with
      fields := request.fields.set Field.host (host ++ Bytes.ascii ":" ++ Bytes.decimal server.port) }
  else request

inductive Route
  | noRouter
  | preflight
  | missing
  | found (handler : HandlerFunc)

def route (server : HttpServer) (request : Request) : Route :=
  match server.router with
  | none => .noRouter
  | some router =>
      if request.method = Bytes.ascii "OPTIONS" && server.corsConfig.enabled then .preflight
      else
        match router.findHandler request.method request.target with
        | none => .missing
        | some handler => .found handler

end HttpServer

structure Circumstances where
  aged : Bool
  admitted : Bool
  sendOk : Nat → Bool
  grown : Bool
  upgraded : Bool
  frames : List Bytes

/-- A turn in which nothing goes wrong. -/
def Circumstances.calm : Circumstances := ⟨false, true, fun _ => true, false, false, []⟩

structure Connection where
  ssl : Bool
  requestCount : Nat
  session : BeastContext
  deriving DecidableEq, Repr

namespace Connection

/-- A connection whose session does not exist yet is one with a fresh session. -/
def create (ssl : Bool) : Connection := ⟨ssl, 0, .create⟩

/-- After the handler: a response that is still to be written takes version and
keep-alive from its request. -/
def settle (exchange : Exchange) : Exchange :=
  if exchange.context.responseSent then exchange
  else
    exchange.respond fun response =>
      { response with version := exchange.context.req.version }.keepAlive
        exchange.context.req.keepAlive

def processHandle (server : HttpServer) (ssl : Bool) (sendOk : Nat → Bool) (index : Nat)
    (exchange : Exchange) : Exchange :=
  let dress := setResponseHeaders server.corsConfig ssl
  let request := server.fixHost exchange.context.req
  let received := { exchange with context := { exchange.context with req := request } }
  match server.route exchange.context.req with
  | .noRouter => received.respond fun response => dress (internalServerError response)
  | .preflight =>
      received.respond fun response =>
        let dressed := dress (response.result 204)
        dressed.preparePayload.getD dressed
  | .missing => received.respond fun response => dress (notFound response)
  | .found handler =>
      match handler index request with
      | .handle handle => settle (handle.invoke server.bizErrMsg sendOk (received.respond dress))
      | .function change throws =>
          let changed := (received.respond dress).respond change
          if throws then changed.respond fun response => dress (internalServerError response)
          else settle changed

/-- The stream of a whole response: `*m_ssl_stream` or the socket. -/
def responseLayer (ssl : Bool) : Layer := if ssl then .tls else .tcp

/-- Whether the response went out, or nothing was left to send. -/
def writeResponse (ssl : Bool) (sendOk : Nat → Bool) (exchange : Exchange) : Exchange × Bool :=
  if exchange.context.responseSent then (exchange, true)
  else exchange.send sendOk (responseLayer ssl) (.message exchange.context.res)

/-- An upgraded connection: after a TLS handshake of its own (when there is TLS) it
answers, and then sends its messages, through a `websocket::stream<tcp::socket&>`. -/
def upgradeWrites (circumstances : Circumstances) : List Write :=
  if circumstances.upgraded then
    ⟨.tcp, .upgrade⟩ :: circumstances.frames.map fun payload => ⟨.tcp, .frame payload⟩
  else []

structure Turn (Network : Type) where
  request : Option Request
  discarded : Bytes
  writes : List Write
  connection : Connection
  network : Network
  continues : Bool

/-- The session after the head of a turn has reset it and the read has filled it; that
the response was sent is not reset. -/
def received (connection : Connection) (request : Request) (buffer : Bytes) : BeastContext :=
  { connection.session with req := request, res := .empty, buffer := buffer, keepAlive := true }

variable {Network : Type}

/-- What the loop does with a request it has read: `buffer` is what the read left
behind it, `rest` the state of the network. -/
def answer (server : HttpServer) (circumstances : Circumstances) (index : Nat)
    (connection : Connection) (request : Request) (buffer : Bytes) (rest : Network) : Turn Network :=
  -- the turn began by emptying the buffer, whatever it still held
  let dropped := connection.session.buffer
  let session := connection.received request buffer
  let exchange := Exchange.start session
  match server.action circumstances.admitted request with
  | .rejectHttp2 =>
      let (answered, _) :=
        writeResponse connection.ssl circumstances.sendOk (exchange.respond http2Rejection)
      ⟨some request, dropped, answered.writes, { connection with session := answered.context },
        rest, false⟩
  | .upgrade =>
      ⟨some request, dropped, upgradeWrites circumstances, { connection with session := session },
        rest, false⟩
  | .rejectRate =>
      let (answered, delivered) :=
        writeResponse connection.ssl circumstances.sendOk (exchange.respond tooManyRequests)
      ⟨some request, dropped, answered.writes, { connection with session := answered.context },
        rest, delivered⟩
  | .dispatch =>
      let handled := processHandle server connection.ssl circumstances.sendOk index exchange
      let (answered, delivered) := writeResponse connection.ssl circumstances.sendOk handled
      let count := if delivered then connection.requestCount + 1 else connection.requestCount
      let continues := delivered && count < HttpConfig.maxKeepaliveRequests &&
        answered.context.req.keepAlive
      let kept := if continues && circumstances.grown then [] else answered.context.buffer
      let cleared := if continues && circumstances.grown then answered.context.buffer else []
      ⟨some request, dropped ++ cleared, answered.writes,
        ⟨connection.ssl, count, { answered.context with buffer := kept }⟩, rest, continues⟩

/-- One turn of `readLoop`. -/
def turn (server : HttpServer) (read : Network → Bytes → Option (Request × Bytes × Network))
    (circumstances : Circumstances) (index : Nat) (connection : Connection) (network : Network) :
    Turn Network :=
  if circumstances.aged then ⟨none, [], [], connection, network, false⟩
  else
    match read network [] with
    | none =>
        ⟨none, connection.session.buffer, [],
          { connection with session := { connection.session with buffer := [] } }, network, false⟩
    | some (request, buffer, rest) => answer server circumstances index connection request buffer rest

/-- The turns of `readLoop`, as many as the fuel allows. -/
def readLoop (server : HttpServer) (read : Network → Bytes → Option (Request × Bytes × Network))
    (circumstances : Nat → Circumstances) : Nat → Nat → Connection → Network → List (Turn Network)
  | 0, _, _, _ => []
  | fuel + 1, index, connection, network =>
      let first := turn server read (circumstances index) index connection network
      if first.continues then
        first :: readLoop server read circumstances fuel (index + 1) first.connection first.network
      else [first]

/-- Requests that arrive whole and one at a time. -/
def arriving (requests : List Request) (_ : Bytes) : Option (Request × Bytes × List Request) :=
  match requests with
  | [] => none
  | request :: rest => some (request, [], rest)

/-- The outputs of a turn, whatever stream they went through. -/
def Turn.outputs (turn : Turn Network) : List Output := turn.writes.map Write.output

end Connection

end Hku
