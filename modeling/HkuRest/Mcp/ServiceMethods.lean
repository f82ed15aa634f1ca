import HkuRest.Mcp.BuiltinMethods
import HkuRest.Mcp.McpError

/-! `McpService::dispatchMethod` as a whole: the methods the service has itself, and those the
application registers with it. What the application supplies is code that works under the session
it is called for; it pushes progress, changes the session, and returns or throws. -/

namespace Hku.McpService

open McpHandle (key)

/-- How a method of the application ends. -/
inductive Ending
  | returned (result : JsonResult)
  | standardException
  | otherException
  deriving DecidableEq, Repr

/-- What a method does, with what it leaves of the sessions. -/
structure MethodRun where
  pushes : List ProgressUpdate
  ending : Ending
  sessions : SessionManager
  deriving DecidableEq, Repr

/-- `InitializeMethod`, `ToolMethod`, `PromptReadMethod` and `ResourceMethod`: called at a time,
with parameters, for a session. -/
abbrev UserMethod := Int → Json → Bytes → SessionManager → MethodRun

/-- What is registered with the service. -/
structure Registry where
  initializeMethod : UserMethod
  toolDescriptions : List Json
  tools : List (Bytes × UserMethod)
  promptDescriptions : List Json
  promptReadMethod : Option UserMethod
  resourceDescriptions : List Json
  resourceReadMethod : Option UserMethod

/-- A method that was written for a session only. -/
def ofSession (call : SessionManager → JsonResult × SessionManager) (sessions : SessionManager) :
    MethodRun :=
  ⟨[], .returned (call sessions).1, (call sessions).2⟩

/-- As `McpService` is constructed. -/
def Registry.create : Registry where
  initializeMethod now params sessionId :=
    ofSession (defaultInitializeMethod now params sessionId)
  toolDescriptions := []
  tools := []
  promptDescriptions := []
  promptReadMethod := none
  resourceDescriptions := []
  resourceReadMethod := none

def answer (result : JsonResult) (sessions : SessionManager) : MethodRun :=
  ⟨[], .returned result, sessions⟩

namespace Registry

def findTool (registry : Registry) (name : Bytes) : Option UserMethod :=
  (registry.tools.find? (·.1 = name)).map Prod.snd

/-- `m_tools.emplace`, which leaves a tool that is there already. -/
def addTool (name : Bytes) (method : UserMethod) (registry : Registry) : Registry :=
  if (registry.findTool name).isSome then registry
  else { registry with tools := registry.tools ++ [(name, method)] }

/-- The result of a tool, of which the client learns no error code. -/
def toolEnding : Ending → Ending
  | .returned result =>
      .returned (if result.err = 0 then result else fail bizMcpToolExecutionError)
  | .standardException | .otherException => .returned (fail bizMcpToolExecutionError)

def toolsCallMethod (registry : Registry) (now : Int) (params : Json) (sessionId : Bytes)
    (sessions : SessionManager) : MethodRun :=
  match params.value (key "name") [] with
  | none => answer (fail bizMcpToolExecutionError) sessions
  | some toolName =>
      let arguments := (params.find (key "arguments")).getD (.object [])
      match registry.findTool toolName with
      | none => answer (fail bizMcpToolNotFound) sessions
      | some method =>
          let run := method now arguments sessionId sessions
          { run with ending := toolEnding run.ending }

def listResult (name : String) (descriptions : List Json) : JsonResult :=
  succeed (.object [(key name, .array descriptions)])

def readMethod (method : Option UserMethod) (missing : Int) : UserMethod :=
  method.getD fun _ _ _ => answer (fail missing)

/-- The methods by their names. -/
def methodOf (registry : Registry) (method : Bytes) : UserMethod :=
  if method = Bytes.ascii "initialize" then registry.initializeMethod
  else if method = Bytes.ascii "ping" then fun now _ sessionId => ofSession (pingMethod now sessionId)
  else if method = Bytes.ascii "tools/list" then fun _ _ _ =>
    answer (listResult "tools" registry.toolDescriptions)
  else if method = Bytes.ascii "tools/call" then registry.toolsCallMethod
  else if method = Bytes.ascii "resources/list" then fun _ _ _ =>
    answer (listResult "resources" registry.resourceDescriptions)
  else if method = Bytes.ascii "resources/read" then
    readMethod registry.resourceReadMethod bizMcpResourceNotFound
  else if method = Bytes.ascii "prompts/list" then fun _ _ _ =>
    answer (listResult "prompts" registry.promptDescriptions)
  else if method = Bytes.ascii "prompts/get" then
    readMethod registry.promptReadMethod bizMcpPromptNotFound
  else if method = Bytes.ascii "session/info" then fun now _ sessionId =>
    ofSession (sessionInfoMethod now sessionId)
  else if method = Bytes.ascii "session/set_metadata" then fun now params sessionId =>
    ofSession (sessionMetadataMethod now params sessionId)
  else if method = Bytes.ascii "session/unregister" then fun _ _ sessionId =>
    ofSession (unregisterSessionMethod sessionId)
  else fun _ _ _ => answer (fail bizJsonrpcMethodNotFound)

theorem findTool_registered {registry : Registry} {name : Bytes} {method : UserMethod}
    (found : registry.findTool name = some method) : ∃ entry ∈ registry.tools, entry.2 = method := by
  obtain ⟨entry, first, rfl⟩ := Option.map_eq_some_iff.mp found
  exact ⟨entry, List.mem_of_find?_eq_some first, rfl⟩

theorem methodOf_cases {registry : Registry} {method : Bytes} {property : UserMethod → Prop}
    (answers : ∀ result, property fun _ _ _ => answer result)
    (initializes : property registry.initializeMethod)
    (pings : property fun now _ sessionId => ofSession (pingMethod now sessionId))
    (calls : property registry.toolsCallMethod)
    (resources : property (readMethod registry.resourceReadMethod bizMcpResourceNotFound))
    (prompts : property (readMethod registry.promptReadMethod bizMcpPromptNotFound))
    (informs : property fun now _ sessionId => ofSession (sessionInfoMethod now sessionId))
    (stores : property fun now params sessionId =>
      ofSession (sessionMetadataMethod now params sessionId))
    (ends : method = Bytes.ascii "session/unregister" →
      property fun _ _ sessionId => ofSession (unregisterSessionMethod sessionId)) :
    property (registry.methodOf method) := by
  unfold methodOf
  refine iteInduction (fun _ => initializes) fun _ => ?_
  refine iteInduction (fun _ => pings) fun _ => ?_
  refine iteInduction (fun _ => answers _) fun _ => ?_
  refine iteInduction (fun _ => calls) fun _ => ?_
  refine iteInduction (fun _ => answers _) fun _ => ?_
  refine iteInduction (fun _ => resources) fun _ => ?_
  refine iteInduction (fun _ => answers _) fun _ => ?_
  refine iteInduction (fun _ => prompts) fun _ => ?_
  refine iteInduction (fun _ => informs) fun _ => ?_
  refine iteInduction (fun _ => stores) fun _ => ?_
  exact iteInduction (fun named => ends named) fun _ => answers _

/-- A `std::exception` becomes an internal error here, any other is left to the handle. -/
def caught : Ending → Option JsonResult
  | .returned result => some result
  | .standardException => some (fail bizJsonrpcInternalError)
  | .otherException => none

def dispatchMethod (registry : Registry) (now : Int) (method : Bytes) (params : Json)
    (sessionId : Bytes) (sessions : SessionManager) : Dispatched × SessionManager :=
  let run := registry.methodOf method now params sessionId sessions
  (⟨run.pushes, caught run.ending⟩, run.sessions)

/-- The service of the handle, with these methods. -/
def service (registry : Registry) (codec : JsonCodec) (bizErrMsg : Int → Bytes)
    (decompress : Bytes → Option Bytes) : McpService where
  codec := codec
  bizErrMsg := bizErrMsg
  decompress := decompress
  dispatchMethod visit method params sessionId _ _ :=
    (registry.dispatchMethod visit.now method params sessionId visit.sessions).1

end Registry

end Hku.McpService
