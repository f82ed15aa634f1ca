import HkuRest.Core.Noninterference
import HkuRest.Mcp.BuiltinMethods
import HkuRest.Mcp.SessionGate
import HkuRest.Mcp.SessionRecords
import Mathlib.Logic.Function.Basic

/-! Sessions side by side. Every request runs under one session id and is cut at the
sections that the mutex of the `SessionManager` protects; so are the records that tools
make of their calls and their progress. What happens under one id cannot be noticed under
another. -/

namespace Hku.SessionIsolation

open McpHandle
open McpService (BuiltinMethod dispatchBuiltin)
open SessionCalls (Usage historyKey historyOf pushRecord)
open SessionManager (Local SameAt)

/-- A JSON-RPC request for one of the built-in methods. -/
structure Rpc where
  method : BuiltinMethod
  params : Json
  id : Json
  supportsSse : Bool
  deriving DecidableEq, Repr

inductive Request
  | rpc (rpc : Rpc)
  | recordToolUsage (usage : Usage)
  | pushProgress (chunkedTransfer : Bool) (progress : ProgressUpdate) (timestamp : Int)
  deriving DecidableEq, Repr

/-- How a request ends: with what `run` does to its response, or with what it stored. -/
inductive Reply
  | response (calls : List HandleCall) (error : Option Int)
  | recorded (stored : Option Bool)
  | pushed (written : List HandleCall) (stored : Option Bool)

/-- How far a request has come: the section that is next, or its end. -/
inductive Call
  | validating (rpc : Rpc)
  | admitting (rpc : Rpc)
  | dispatching (rpc : Rpc)
  | recording (record : Json)
  | saving (history : List Json) (record : Json)
  | pushing (written : List HandleCall) (data : Json)
  | savingHistory (written : List HandleCall) (history : List Json) (data : Json)
  | savingUpdate (written : List HandleCall) (data : Json) (stored : Option Bool)
  | returned (reply : Reply)

variable (service : McpService)

/-- What `run` does to the response when the gate refuses. -/
def refusal (rpc : Rpc) : Reply :=
  let code := if rpc.method = .defaultInitialize then bizJsonrpcInvalidParams else bizMcpUnauthorized
  let (calls, error) := refuse service [] rpc.supportsSse code rpc.id
  .response calls error

/-- And what it does when the method is through. -/
def response (sessionId : Bytes) (rpc : Rpc) (result : JsonResult) : Reply :=
  .response (setSessionId sessionId ::
    dispatchCalls service [] false rpc.supportsSse rpc.id ⟨[], some result⟩) none

/-- Up to the first section. A request without an id is under no session; a notification
that cannot be dumped ends `pushProgress` at once. -/
def Request.begin (sessionId : Bytes) : Request → Option Call
  | .rpc request => if sessionId = [] then none else some (.validating request)
  | .recordToolUsage usage =>
      some (if sessionId = [] then .returned (.recorded (some false)) else .recording usage.record)
  | .pushProgress chunkedTransfer progress timestamp =>
      some (if notifies service.codec chunkedTransfer progress then
          .pushing (McpHandle.pushProgress service chunkedTransfer progress)
            (progressData progress timestamp)
        else .returned (.pushed [] none))

/-- The section that is next. -/
def enter (sessionId : Bytes) (now : Int) : Call → Option (SessionManager → Call × SessionManager)
  | .validating rpc => some fun manager =>
      (if (manager.getSession now sessionId).isSome then .admitting rpc
        else .returned (refusal service rpc), manager)
  | .admitting rpc => some fun manager =>
      (.dispatching rpc, (manager.touchSession now sessionId).2)
  | .dispatching rpc => some fun manager =>
      let (result, after) := dispatchBuiltin now rpc.method rpc.params sessionId manager
      (.returned (response service sessionId rpc result), after)
  | .recording record => some fun manager =>
      (.saving (historyOf (manager.getSessionMetadata sessionId historyKey)) record, manager)
  | .saving history record => some fun manager =>
      let (stored, after) :=
        manager.setSessionMetadata now sessionId historyKey (.array (pushRecord history record))
      (.returned (.recorded stored), after)
  | .pushing written data => some fun manager =>
      (.savingHistory written
        (historyOf (manager.getSessionMetadata sessionId progressHistoryKey)) data, manager)
  | .savingHistory written history data => some fun manager =>
      let (stored, after) := manager.setSessionMetadata now sessionId progressHistoryKey
        (.array (pushProgressData history data))
      (.savingUpdate written data stored, after)
  | .savingUpdate written data stored => some fun manager =>
      let (stored, after) := saveUpdate now sessionId data stored manager
      (.returned (.pushed written stored), after)
  | .returned _ => none

inductive Event
  | call (sessionId : Bytes) (request : Request)
  | act (sessionId : Bytes) (i : Nat) (now : Int)
  | cleanup (now : Int)
  deriving DecidableEq, Repr

/-- The event is one of a request under this session. -/
def Event.under (sessionId : Bytes) : Event → Bool
  | .call name _ | .act name _ _ => name = sessionId
  | .cleanup _ => false

/-- The requests are listed under the session of each. -/
structure State where
  manager : SessionManager
  calls : Bytes → List Call

def next (state : State) : Event → Option State
  | .call sessionId request => do
      let call ← request.begin service sessionId
      return ⟨state.manager, Function.update state.calls sessionId (state.calls sessionId ++ [call])⟩
  | .act sessionId i now => do
      let call ← (state.calls sessionId)[i]?
      let entered ← enter service sessionId now call
      let (later, manager) := entered state.manager
      return ⟨manager, Function.update state.calls sessionId ((state.calls sessionId).set i later)⟩
  | .cleanup now => some { state with manager := state.manager.cleanupExpiredSessions now }

variable {service}

theorem enter_local {sessionId : Bytes} {now : Int} {call : Call}
    {entered : SessionManager → Call × SessionManager}
    (next : enter service sessionId now call = some entered) : Local sessionId entered := by
  cases call with
  | validating rpc =>
    cases next
    exact (SessionManager.getSession_local now sessionId).map fun found =>
      if found.isSome then Call.admitting rpc else Call.returned (refusal service rpc)
  | admitting rpc =>
    cases next
    exact (SessionManager.touchSession_local now sessionId).map fun _ => Call.dispatching rpc
  | dispatching rpc =>
    cases next
    exact (McpService.dispatchBuiltin_local now rpc.method rpc.params sessionId).map fun result =>
      Call.returned (response service sessionId rpc result)
  | recording record =>
    cases next
    exact (SessionManager.getSessionMetadata_local sessionId historyKey).map fun stored =>
      Call.saving (historyOf stored) record
  | saving history record =>
    cases next
    exact (SessionManager.setSessionMetadata_local now sessionId historyKey _).map fun stored =>
      Call.returned (.recorded stored)
  | pushing written data =>
    cases next
    exact (SessionManager.getSessionMetadata_local sessionId progressHistoryKey).map fun stored =>
      Call.savingHistory written (historyOf stored) data
  | savingHistory written history data =>
    cases next
    exact (SessionManager.setSessionMetadata_local now sessionId progressHistoryKey _).map
      fun stored => Call.savingUpdate written data stored
  | savingUpdate written data stored =>
    cases next
    exact (saveUpdate_local now sessionId data stored).map fun latest =>
      Call.returned (.pushed written latest)
  | returned reply => cases next

theorem next_act {state after : State} {sessionId : Bytes} {i : Nat} {now : Int}
    (stepped : next service state (.act sessionId i now) = some after) :
    ∃ call entered, (state.calls sessionId)[i]? = some call ∧
      enter service sessionId now call = some entered ∧
        after = ⟨(entered state.manager).2, Function.update state.calls sessionId
          ((state.calls sessionId).set i (entered state.manager).1)⟩ := by
  simp only [next, Option.bind_eq_bind, Option.bind_eq_some_iff, Option.pure_def,
    Option.some.injEq] at stepped
  obtain ⟨call, found, entered, next, rfl⟩ := stepped
  exact ⟨call, entered, found, next, rfl⟩

/-- The service with its built-in methods in place. -/
def withBuiltins (service : McpService) : McpService :=
  { service with
    dispatchMethod := fun visit method params sessionId id useSse =>
      match BuiltinMethod.ofName method with
      | some builtin =>
          ⟨[], some (dispatchBuiltin visit.now builtin params sessionId visit.sessions).1⟩
      | none => service.dispatchMethod visit method params sessionId id useSse }

/-- The only request there is. -/
def alone (sessionId : Bytes) (manager : SessionManager) (call : Call) : State :=
  ⟨manager, Function.update (fun _ => []) sessionId [call]⟩

theorem next_alone (sessionId : Bytes) (now : Int) (manager : SessionManager) (call : Call) :
    next service (alone sessionId manager call) (.act sessionId 0 now) =
      (enter service sessionId now call).map fun entered =>
        alone sessionId (entered manager).2 (entered manager).1 := by
  cases found : enter service sessionId now call with
  | none => simp [next, alone, found]
  | some entered => simp [next, alone, found]

theorem streams_nothing (method : BuiltinMethod) (supportsSse : Bool) (params : Json) :
    enableStreaming supportsSse method.name params = some false := by
  have other : method.name ≠ Bytes.ascii "tools/call" := by
    cases method <;> decide
  simp [enableStreaming, other]

theorem openSession_refuses {visit : Visit} {sessionId : Bytes} (named : sessionId ≠ [])
    (expired : visit.sessions.getSession visit.now sessionId = none) (rpc : Rpc) :
    openSession visit rpc.method.name sessionId =
      (.error (if rpc.method = .defaultInitialize then bizJsonrpcInvalidParams else bizMcpUnauthorized),
        visit.sessions) := by
  rw [openSession_expired _ named (by rw [expired]; rfl)]
  simp only [BuiltinMethod.name_eq_initialize]

theorem rpc_sections (visit : Visit) {sessionId : Bytes} (named : sessionId ≠ []) (rpc : Rpc)
    (json : Json) (version : json.find (key "jsonrpc") = some (.string (Bytes.ascii "2.0")))
    (method : json.value (key "method") [] = some rpc.method.name)
    (params : (json.find (key "params")).getD .null = rpc.params)
    (id : (json.find (key "id")).getD .null = rpc.id) :
    ∃ count manager, Transition.execute (next service)
        (alone sessionId visit.sessions (.validating rpc))
        (List.replicate count (.act sessionId 0 visit.now)) =
      some (alone sessionId manager (.returned (.response
        (handleRequest (withBuiltins service) visit [] rpc.supportsSse sessionId (some json)).1
        (handleRequest (withBuiltins service) visit [] rpc.supportsSse sessionId (some json)).2))) := by
  cases live : visit.sessions.getSession visit.now sessionId with
  | none =>
    have handled : handleRequest (withBuiltins service) visit [] rpc.supportsSse sessionId (some json) =
        refuse service [] rpc.supportsSse (if rpc.method = .defaultInitialize
          then bizJsonrpcInvalidParams else bizMcpUnauthorized) rpc.id := by
      rw [handleRequest_refused version method (openSession_refuses named live rpc), id]
      rfl
    refine ⟨1, visit.sessions, ?_⟩
    simp [Transition.execute, next_alone, enter, live, handled, refusal]
  | some session =>
    have notified : rpc.method.name ≠ Bytes.ascii "initialized" := by
      cases rpc.method <;> decide
    have handled : handleRequest (withBuiltins service) visit [] rpc.supportsSse sessionId (some json) =
        (setSessionId sessionId :: dispatchCalls service [] false rpc.supportsSse rpc.id
          ⟨[], some (dispatchBuiltin visit.now rpc.method rpc.params sessionId
            (visit.sessions.touchSession visit.now sessionId).2).1⟩, none) := by
      have still := streams_nothing rpc.method rpc.supportsSse ((json.find (key "params")).getD .null)
      have opened := openSession_live rpc.method.name named (by rw [live]; rfl)
      rw [handleRequest_opened version method opened still, if_pos notified, id, params]
      simp only [withBuiltins, BuiltinMethod.ofName_name, List.nil_append, List.append_nil,
        List.cons_append, Bool.false_eq_true, if_false]
      rfl
    refine ⟨3, (dispatchBuiltin visit.now rpc.method rpc.params sessionId
      (visit.sessions.touchSession visit.now sessionId).2).2, ?_⟩
    simp [Transition.execute, List.replicate, next_alone, enter, live, handled, response]

/-- Nothing but what happens under this session tells the states apart. -/
def AlikeBut (hidden : Bytes) (state other : State) : Prop :=
  ∀ name, name ≠ hidden → SameAt name state.manager other.manager ∧ state.calls name = other.calls name

theorem AlikeBut.refl (hidden : Bytes) (state : State) : AlikeBut hidden state state :=
  fun _ _ => ⟨⟨rfl, rfl⟩, rfl⟩

theorem next_respects {hidden : Bytes} {before after other : State} {event : Event}
    (secret : event.under hidden = true) (stepped : next service before event = some after)
    (alike : AlikeBut hidden before other) : AlikeBut hidden after other := by
  intro name apart
  obtain ⟨same, calls⟩ := alike name apart
  cases event with
  | call sessionId request =>
    obtain rfl : sessionId = hidden := by simpa [Event.under] using secret
    simp only [next, Option.bind_eq_bind, Option.bind_eq_some_iff, Option.pure_def,
      Option.some.injEq] at stepped
    obtain ⟨call, begun, rfl⟩ := stepped
    exact ⟨same, (Function.update_of_ne apart _ _).trans calls⟩
  | act sessionId i now =>
    obtain rfl : sessionId = hidden := by simpa [Event.under] using secret
    obtain ⟨call, entered, found, next, rfl⟩ := next_act stepped
    have isLocal := enter_local next
    refine ⟨⟨?_, ?_⟩, (Function.update_of_ne apart _ _).trans calls⟩
    · exact (isLocal.timeout before.manager).trans same.timeout
    · exact (isLocal.frame before.manager name apart).trans same.entries
  | cleanup now => cases secret

theorem next_consistent {hidden : Bytes} {before after other : State} {event : Event}
    (shown : event.under hidden = false) (stepped : next service before event = some after)
    (alike : AlikeBut hidden before other) :
    ∃ final, next service other event = some final ∧ AlikeBut hidden after final := by
  cases event with
  | call sessionId request =>
    have apart : sessionId ≠ hidden := by simpa [Event.under] using shown
    simp only [next, Option.bind_eq_bind, Option.bind_eq_some_iff, Option.pure_def,
      Option.some.injEq] at stepped
    obtain ⟨call, begun, rfl⟩ := stepped
    refine ⟨_, by simp only [next, begun]; rfl, fun name visible => ?_⟩
    refine ⟨(alike name visible).1, ?_⟩
    by_cases same : name = sessionId
    · subst same
      simp only [Function.update_self, (alike name apart).2]
    · simp only [Function.update_of_ne same, (alike name visible).2]
  | act sessionId i now =>
    have apart : sessionId ≠ hidden := by simpa [Event.under] using shown
    obtain ⟨call, entered, found, entering, rfl⟩ := next_act stepped
    have isLocal := enter_local entering
    obtain ⟨same, calls⟩ := alike sessionId apart
    have later := isLocal.answer _ _ same
    refine ⟨⟨(entered other.manager).2, Function.update other.calls sessionId
      ((other.calls sessionId).set i (entered other.manager).1)⟩, ?_, fun name visible => ?_⟩
    · simp only [next, ← calls, found, Option.bind_eq_bind, Option.bind_some, entering]
      rfl
    · by_cases named : name = sessionId
      · subst named
        refine ⟨isLocal.same same, ?_⟩
        simp only [Function.update_self, calls, later]
      · refine ⟨isLocal.same_other named (alike name visible).1, ?_⟩
        simp only [Function.update_of_ne named, (alike name visible).2]
  | cleanup now =>
    cases stepped
    exact ⟨_, rfl, fun name visible =>
      ⟨(alike name visible).1.cleanup now, (alike name visible).2⟩⟩

theorem unwinding (service : McpService) (hidden : Bytes) :
    Transition.Unwinding (next service) (Event.under hidden) (AlikeBut hidden) where
  respects := next_respects
  consistent := next_consistent

/-- Without the requests of one session, those of any other end as they did, and so does
what is stored of it. -/
theorem sessions_isolated (service : McpService) {mine theirs : Bytes} (apart : mine ≠ theirs)
    {start state : State} {events : List Event}
    (ran : Transition.execute (next service) start events = some state) :
    ∃ alone, Transition.execute (next service) start
        (events.filter fun event => !event.under theirs) = some alone ∧
      alone.manager.find mine = state.manager.find mine ∧ alone.calls mine = state.calls mine := by
  obtain ⟨alone, executed, alike⟩ :=
    (unwinding service theirs).execute_filter ran (AlikeBut.refl theirs start)
  obtain ⟨same, calls⟩ := alike mine apart
  exact ⟨alone, executed, same.find.symm, calls.symm⟩

def twoSessions : State :=
  ⟨⟨3600, 10000, [([1], .create 0 [1] []), ([2], .create 0 [2] [])]⟩, fun _ => []⟩

/-- A ping under one session, while the other is unregistered and swept. -/
def pingBeside : List Event :=
  [.call [1] (.rpc ⟨.ping, .null, .integer 1, false⟩),
    .call [2] (.rpc ⟨.sessionUnregister, .null, .integer 1, false⟩),
    .act [1] 0 5, .act [2] 0 5, .act [2] 0 6, .act [1] 0 7, .act [2] 0 8, .cleanup 9, .act [1] 0 10]

theorem sessions_isolated_ping :
    ∃ state alone, Transition.execute (next McpService.pingService) twoSessions pingBeside = some state ∧
      Transition.execute (next McpService.pingService) twoSessions
        (pingBeside.filter fun event => !event.under [2]) = some alone ∧
          alone.manager.find [1] = state.manager.find [1] ∧ alone.calls [1] = state.calls [1] := by
  have apart : ([1] : Bytes) ≠ [2] := by decide
  have ran : Transition.execute (next McpService.pingService) twoSessions pingBeside = some _ := rfl
  obtain ⟨alone, executed, same⟩ := sessions_isolated McpService.pingService apart ran
  exact ⟨_, alone, ran, executed, same⟩

end Hku.SessionIsolation
