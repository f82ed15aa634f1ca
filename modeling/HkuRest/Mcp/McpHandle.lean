import HkuRest.Core.EventStream
import HkuRest.Httpd.Connection
import HkuRest.Mcp.SessionManager

/-! `McpHandle`: a JSON-RPC request is checked, passed through the session gate and
handed to the service; what comes back is sent as an event when the client accepts
event streams, and as the body of the response otherwise. The handle is the list of
calls it makes on its exchange. -/

namespace Hku

def bizModMcp : Int := -3

def bizJsonrpcParseError : Int := makeErr bizModMcp (-2700)
def bizJsonrpcInvalidRequest : Int := makeErr bizModMcp (-2600)
def bizJsonrpcInvalidParams : Int := makeErr bizModMcp (-2602)
def bizJsonrpcInternalError : Int := makeErr bizModMcp (-2603)
def bizMcpUnauthorized : Int := makeErr bizModMcp (-2004)
def bizMcpVersionMismatch : Int := makeErr bizModMcp (-2008)

/-- `BizResult<json>`: the value counts if the error is zero. -/
structure JsonResult where
  value : Json
  err : Int
  deriving DecidableEq, Repr

structure ProgressUpdate where
  taskId : Bytes
  progress : Int
  message : Bytes
  data : Json
  deriving DecidableEq, Repr

/-- What a dispatched method does: the progress it pushes, and how it ends; `none` is an
exception that is no `std::exception`. -/
structure Dispatched where
  pushes : List ProgressUpdate
  outcome : Option JsonResult
  deriving DecidableEq, Repr

/-- What `run` finds outside of its request. -/
structure Visit where
  now : Int
  clientIp : Bytes
  generatedId : Bytes
  sessions : SessionManager
  deriving DecidableEq, Repr

structure McpService where
  codec : JsonCodec
  bizErrMsg : Int → Bytes
  decompress : Bytes → Option Bytes
  dispatchMethod (visit : Visit) (method : Bytes) (params : Json) (sessionId : Bytes) (id : Json)
    (useSse : Bool) : Dispatched

namespace McpHandle

def key (name : String) : Bytes := Bytes.ascii name

def successResponse (result id : Json) : Json :=
  .object [(key "id", id), (key "jsonrpc", .string (Bytes.ascii "2.0")), (key "result", result)]

def errorResponse (bizErrMsg : Int → Bytes) (code : Int) (id : Json) : Json :=
  .object [(key "error", .object [(key "code", .integer code),
      (key "message", .string (bizErrMsg code))]),
    (key "id", id), (key "jsonrpc", .string (Bytes.ascii "2.0"))]

def progressNotification (progress : ProgressUpdate) : Json :=
  let data := if progress.data = .null then [] else [(key "data", progress.data)]
  .object [(key "jsonrpc", .string (Bytes.ascii "2.0")),
    (key "method", .string (Bytes.ascii "notifications/progress")),
    (key "params", .object (data ++ [(key "message", .string progress.message),
      (key "progress", .integer progress.progress),
      (key "progressToken", .string progress.taskId), (key "total", .integer 100)]))]

def setResHeader (name value : String) : HandleCall :=
  .respond (·.set (Bytes.ascii name) (Bytes.ascii value))

def setSseHeaders : List HandleCall :=
  [setResHeader "Content-Type" "text/event-stream", setResHeader "Cache-Control" "no-cache",
    setResHeader "Connection" "keep-alive"]

def setSessionId (sessionId : Bytes) : HandleCall :=
  .respond (·.set (Bytes.ascii "Mcp-Session-Id") sessionId)

/-- `event: message`, with the text as its data. -/
def sseMessage (text : Bytes) : Bytes := EventStream.namedEvent (Bytes.ascii "message") text

variable (service : McpService)

def sendMcpSuccessResponse (result id : Json) (useSse : Bool) : Option (List HandleCall) :=
  if result = .null then some []
  else
    (service.codec.dump (successResponse result id)).map fun text =>
      if useSse then [.writeChunk (sseMessage text)] else [.respond (·.setBody text)]

/-- `body` is what the body of the response is at this moment. -/
def sendMcpErrorResponse (body : Bytes) (code : Int) (id : Json) (useSse : Bool) :
    Option (List HandleCall) :=
  (service.codec.dump (errorResponse service.bizErrMsg code id)).map fun text =>
    if useSse then
      (if body = [] then setSseHeaders ++ [.enableChunkedTransfer] else []) ++
        [.writeChunk (sseMessage text)]
    else [.respond (·.setBody text)]

/-- `pushProgress`, as far as it writes: only while chunked transfer is enabled. -/
def pushProgress (chunkedTransfer : Bool) (progress : ProgressUpdate) : List HandleCall :=
  if chunkedTransfer then
    match service.codec.dump (progressNotification progress) with
    | some text => [.writeChunk (EventStream.event text)]
    | none => []
  else []

/-- The session gate: the error it sends, or the session with the headers set so far. -/
def openSession (visit : Visit) (method sessionId : Bytes) :
    Except Int (Bytes × List HandleCall) × SessionManager :=
  let live := (visit.sessions.getSession visit.now sessionId).isSome
  let touched := (visit.sessions.touchSession visit.now sessionId).2
  if method = Bytes.ascii "initialize" then
    if sessionId ≠ [] then
      if live then (.ok (sessionId, []), touched)
      else (.error bizJsonrpcInvalidParams, visit.sessions)
    else
      let (registered, sessions) :=
        visit.sessions.registerSession visit.now visit.generatedId visit.clientIp
      if registered then (.ok (visit.generatedId, [setSessionId visit.generatedId]), sessions)
      else (.error bizJsonrpcInternalError, sessions)
  else if sessionId = [] then (.error bizMcpVersionMismatch, visit.sessions)
  else if live then (.ok (sessionId, []), touched)
  else (.error bizMcpUnauthorized, visit.sessions)

/-- Whether the response is streamed: for one tool, and only to a client that accepts
event streams. Without a proper tool name it throws. -/
def enableStreaming (supportsSse : Bool) (method : Bytes) (params : Json) : Option Bool :=
  if supportsSse && method = Bytes.ascii "tools/call" then
    (params.value (key "name") []).map (· = Bytes.ascii "long_running_task")
  else some false

/-- What the dispatched method pushes and what its end sends. An exception on the way,
of the method or of `dump`, is swallowed. -/
def dispatchCalls (body : Bytes) (streaming supportsSse : Bool) (id : Json)
    (dispatched : Dispatched) : List HandleCall :=
  dispatched.pushes.flatMap (pushProgress service streaming) ++
    match dispatched.outcome with
    | none => []
    | some result =>
        if result.err = 0 then (sendMcpSuccessResponse service result.value id supportsSse).getD []
        else (sendMcpErrorResponse service body result.err id supportsSse).getD []

/-- An error that ends the request within the `try` block; `dump` may throw there. -/
def refuse (body : Bytes) (supportsSse : Bool) (code : Int) (id : Json) :
    List HandleCall × Option Int :=
  match sendMcpErrorResponse service body code id supportsSse with
  | some calls => (calls, none)
  | none => ([], some bizJsonrpcInternalError)

/-- The `try` block: its calls, and the error that its exception stands for. -/
def handleRequest (visit : Visit) (body : Bytes) (supportsSse : Bool) (sessionHeader : Bytes)
    (request : Option Json) : List HandleCall × Option Int :=
  match request with
  | none => ([], some bizJsonrpcParseError)
  | some request =>
      let id := (request.find (key "id")).getD .null
      let params := (request.find (key "params")).getD .null
      if request.find (key "jsonrpc") ≠ some (.string (Bytes.ascii "2.0")) then
        refuse service body supportsSse bizJsonrpcInvalidRequest id
      else
        match request.value (key "method") [] with
        | none => ([], some bizJsonrpcInternalError)
        | some method =>
            match openSession visit method sessionHeader with
            | (.error code, _) => refuse service body supportsSse code id
            | (.ok (sessionId, headers), sessions) =>
                let echoed := headers ++ [setSessionId sessionId]
                match enableStreaming supportsSse method params with
                | none => (echoed, some bizJsonrpcInternalError)
                | some streaming =>
                    let opening :=
                      if streaming then setSseHeaders ++ [.enableChunkedTransfer] else []
                    let answer :=
                      if method ≠ Bytes.ascii "initialized" then
                        dispatchCalls service body streaming supportsSse id
                          (service.dispatchMethod { visit with sessions := sessions } method params
                            sessionId id supportsSse)
                      else []
                    let closing := if streaming then [.finishChunkedTransfer] else []
                    (echoed ++ opening ++ answer ++ closing, none)

def supportsSse (request : Request) : Bool :=
  Bytes.contains (Bytes.ascii "text/event-stream") (request.getReqHeader (Bytes.ascii "Accept"))

def extractSessionId (request : Request) : Bytes :=
  request.getReqHeader (Bytes.ascii "Mcp-Session-Id")

/-- `run()`, on a response whose body is `body`. -/
def run (visit : Visit) (body : Bytes) (request : Request) : Script :=
  let supportsSse := supportsSse request
  let text := request.getReqData service.decompress
  let failing (calls : List HandleCall) (code : Int) : Script :=
    match sendMcpErrorResponse service body code .null supportsSse with
    | some more => ⟨calls ++ more, .returned bizOk⟩
    | none => ⟨calls, .exception⟩
  if text = [] then failing [] bizJsonrpcParseError
  else
    match handleRequest service visit body supportsSse (extractSessionId request)
      (service.codec.parse text) with
    | (calls, none) => ⟨calls, .returned bizOk⟩
    | (calls, some code) => failing calls code

end McpHandle

/-- The handler of `/mcp`. When it starts, the framework has set headers only. -/
def McpService.handler (service : McpService) (visits : Nat → Visit) : HandlerFunc :=
  fun index request => .handle (.ofRun (McpHandle.run service (visits index) [] request))

def McpService.regHandle (service : McpService) (visits : Nat → Visit) (router : Router) : Router :=
  router.registerHandler (Bytes.ascii "POST") (Bytes.ascii "/mcp") (service.handler visits)

end Hku
