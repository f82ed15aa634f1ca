import HkuRest.Mcp.SessionEntries
import HkuRest.Mcp.McpHandle

/-! The methods of `McpService` that concern a session, for a request whose session the
gate has let through. An exception within a method becomes an internal error. -/

namespace Hku.McpService

open McpHandle (key)
open SessionManager (Local)

variable {sessionId : Bytes}

inductive BuiltinMethod
  | defaultInitialize
  | ping
  | sessionInfo
  | sessionSetMetadata
  | sessionUnregister
  deriving DecidableEq, Repr

def BuiltinMethod.name : BuiltinMethod → Bytes
  | .defaultInitialize => Bytes.ascii "initialize"
  | .ping => Bytes.ascii "ping"
  | .sessionInfo => Bytes.ascii "session/info"
  | .sessionSetMetadata => Bytes.ascii "session/set_metadata"
  | .sessionUnregister => Bytes.ascii "session/unregister"

def BuiltinMethod.ofName (name : Bytes) : Option BuiltinMethod :=
  [defaultInitialize, ping, sessionInfo, sessionSetMetadata, sessionUnregister].find?
    fun method => method.name = name

theorem BuiltinMethod.ofName_name (method : BuiltinMethod) : ofName method.name = some method := by
  cases method <;> decide

theorem BuiltinMethod.name_eq_initialize (method : BuiltinMethod) :
    method.name = Bytes.ascii "initialize" ↔ method = .defaultInitialize := by
  cases method <;> decide

def text (content : String) : Json := .string (Bytes.ascii content)

def succeed (value : Json) : JsonResult := ⟨value, 0⟩

def fail (err : Int) : JsonResult := ⟨.null, err⟩

def initializeResult : Json :=
  .object
    [(key "capabilities", .object
        [(key "prompts", .object [(key "listChanged", .boolean false)]),
          (key "resources", .object
            [(key "listChanged", .boolean false), (key "subscribe", .boolean false)]),
          (key "session", .object [(key "supported", .boolean true)]),
          (key "tools", .object [(key "listChanged", .boolean false)])]),
      (key "protocolVersion", text "2024-11-05"),
      (key "serverInfo", .object
        [(key "name", text "hku_rest MCP Server"), (key "version", text "1.0.0")])]

/-- What the client says about itself is stored; whether that succeeds does not matter. -/
def defaultInitializeMethod (now : Int) (params : Json) (sessionId : Bytes) (manager : SessionManager) :
    JsonResult × SessionManager :=
  match params.find (key "clientInfo") with
  | none => (succeed initializeResult, manager)
  | some clientInfo =>
      let (stored, after) := manager.setSessionMetadata now sessionId (key "client_info") clientInfo
      (if stored.isSome then succeed initializeResult else fail bizJsonrpcInternalError, after)

def pingMethod (now : Int) (sessionId : Bytes) (manager : SessionManager) :
    JsonResult × SessionManager :=
  (succeed (.object []),
    if sessionId = [] then manager else (manager.touchSession now sessionId).2)

/-- Times are shown in whole seconds. -/
def sessionInfo (session : SessionData) : Json :=
  .object [(key "client_info", .string session.clientInfo),
    (key "created_at", .integer (session.createdAt.tdiv 1000000000)),
    (key "last_active", .integer (session.lastActive.tdiv 1000000000)),
    (key "metadata", session.metadata), (key "session_id", .string session.sessionId)]

def sessionInfoMethod (now : Int) (sessionId : Bytes) (manager : SessionManager) :
    JsonResult × SessionManager :=
  (match manager.getSession now sessionId with
    | none => fail bizJsonrpcInvalidRequest
    | some session => succeed (sessionInfo session),
    manager)

def statusResult (message : Bytes) : Json :=
  .object [(key "message", .string message), (key "status", text "success")]

def sessionMetadataMethod (now : Int) (params : Json) (sessionId : Bytes) (manager : SessionManager) :
    JsonResult × SessionManager :=
  match params.value (key "key") [] with
  | none => (fail bizJsonrpcInternalError, manager)
  | some [] => (fail bizJsonrpcInvalidParams, manager)
  | some name =>
      let value := (params.find (key "value")).getD .null
      let (stored, after) := manager.setSessionMetadata now sessionId name value
      (match stored with
        | none => fail bizJsonrpcInternalError
        | some false => fail bizJsonrpcInvalidRequest
        | some true =>
            succeed (statusResult (Bytes.ascii "Metadata '" ++ name ++ Bytes.ascii "' updated")),
        after)

def unregisterSessionMethod (sessionId : Bytes) (manager : SessionManager) :
    JsonResult × SessionManager :=
  let (removed, after) := manager.unregisterSession sessionId
  (if removed then succeed (statusResult (Bytes.ascii "Session unregistered successfully"))
    else fail bizJsonrpcInvalidRequest, after)

/-- `dispatchMethod`, for these methods. -/
def dispatchBuiltin (now : Int) (method : BuiltinMethod) (params : Json) (sessionId : Bytes)
    (manager : SessionManager) : JsonResult × SessionManager :=
  match method with
  | .defaultInitialize => defaultInitializeMethod now params sessionId manager
  | .ping => pingMethod now sessionId manager
  | .sessionInfo => sessionInfoMethod now sessionId manager
  | .sessionSetMetadata => sessionMetadataMethod now params sessionId manager
  | .sessionUnregister => unregisterSessionMethod sessionId manager

theorem defaultInitializeMethod_local (now : Int) (params : Json) (sessionId : Bytes) :
    Local sessionId (defaultInitializeMethod now params sessionId) := by
  unfold defaultInitializeMethod
  cases params.find (key "clientInfo") with
  | none => exact .reading (fun _ => succeed initializeResult) fun _ _ _ => rfl
  | some clientInfo =>
    exact (SessionManager.setSessionMetadata_local now sessionId _ clientInfo).map fun stored =>
      if stored.isSome then succeed initializeResult else fail bizJsonrpcInternalError

theorem pingMethod_local (now : Int) (sessionId : Bytes) :
    Local sessionId (pingMethod now sessionId) := by
  unfold pingMethod
  by_cases empty : sessionId = []
  · simp only [if_pos empty]
    exact .reading (fun _ => succeed (.object [])) fun _ _ _ => rfl
  · simp only [if_neg empty]
    exact (SessionManager.touchSession_local now sessionId).map fun _ => succeed (.object [])

theorem sessionInfoMethod_local (now : Int) (sessionId : Bytes) :
    Local sessionId (sessionInfoMethod now sessionId) :=
  (SessionManager.getSession_local now sessionId).map fun found =>
    match found with
    | none => fail bizJsonrpcInvalidRequest
    | some session => succeed (sessionInfo session)

theorem sessionMetadataMethod_local (now : Int) (params : Json) (sessionId : Bytes) :
    Local sessionId (sessionMetadataMethod now params sessionId) := by
  unfold sessionMetadataMethod
  rcases params.value (key "key") [] with _ | _ | ⟨first, rest⟩
  · exact .reading (fun _ => fail bizJsonrpcInternalError) fun _ _ _ => rfl
  · exact .reading (fun _ => fail bizJsonrpcInvalidParams) fun _ _ _ => rfl
  · exact (SessionManager.setSessionMetadata_local now sessionId (first :: rest) _).map fun stored =>
      match stored with
      | none => fail bizJsonrpcInternalError
      | some false => fail bizJsonrpcInvalidRequest
      | some true => succeed (statusResult
          (Bytes.ascii "Metadata '" ++ (first :: rest) ++ Bytes.ascii "' updated"))

theorem unregisterSessionMethod_local (sessionId : Bytes) :
    Local sessionId (unregisterSessionMethod sessionId) :=
  (SessionManager.unregisterSession_local sessionId).map fun removed =>
    if removed then succeed (statusResult (Bytes.ascii "Session unregistered successfully"))
    else fail bizJsonrpcInvalidRequest

theorem dispatchBuiltin_local (now : Int) (method : BuiltinMethod) (params : Json)
    (sessionId : Bytes) : Local sessionId (dispatchBuiltin now method params sessionId) := by
  cases method with
  | defaultInitialize => exact defaultInitializeMethod_local now params sessionId
  | ping => exact pingMethod_local now sessionId
  | sessionInfo => exact sessionInfoMethod_local now sessionId
  | sessionSetMetadata => exact sessionMetadataMethod_local now params sessionId
  | sessionUnregister => exact unregisterSessionMethod_local sessionId

end Hku.McpService
