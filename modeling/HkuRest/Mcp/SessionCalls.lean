import HkuRest.Core.Pool
import HkuRest.Core.Transition
import HkuRest.Mcp.SessionManager

/-! Calls of a `SessionManager` that run side by side, cut at the sections that its
mutex protects. `registerSession` gives the mutex up to make room and reads the size
without it; `recordToolUsage` of `McpHandle` reads and writes back in two calls. -/

namespace Hku.SessionCalls

/-- How far a call has come: the section that is next, or its answer, which is none when
it ended with an exception. -/
inductive Call
  | registering (sessionId clientInfo : Bytes)
  | cleaning (sessionId clientInfo : Bytes)
  | measuring (sessionId clientInfo : Bytes)
  | storing (sessionId clientInfo : Bytes)
  | unregistering (sessionId : Bytes)
  | touching (sessionId : Bytes)
  | settingMetadata (sessionId key : Bytes) (value : Json)
  | sweeping
  | clearing
  | recording (sessionId : Bytes) (record : Json)
  | saving (sessionId : Bytes) (history : List Json) (record : Json)
  | returned (success : Option Bool)
  deriving DecidableEq, Repr

/-- What a tool reports of a call of it. -/
structure Usage where
  timestamp : Int
  toolName : Bytes
  details : Json
  deriving DecidableEq, Repr

def Usage.record (usage : Usage) : Json :=
  .object [(Bytes.ascii "details", usage.details), (Bytes.ascii "timestamp", .integer usage.timestamp),
    (Bytes.ascii "tool", .string usage.toolName)]

/-- What is called. -/
inductive Request
  | registerSession (sessionId clientInfo : Bytes)
  | unregisterSession (sessionId : Bytes)
  | touchSession (sessionId : Bytes)
  | setSessionMetadata (sessionId key : Bytes) (value : Json)
  | cleanupExpiredSessions
  | clearAllSessions
  | recordToolUsage (sessionId : Bytes) (usage : Usage)
  deriving DecidableEq, Repr

def historyKey : Bytes := Bytes.ascii "history"

/-- Up to the first section; no section is entered for an empty id. -/
def Request.begin : Request → Call
  | .registerSession sessionId clientInfo =>
      if sessionId = [] then .returned (some false) else .registering sessionId clientInfo
  | .unregisterSession sessionId => .unregistering sessionId
  | .touchSession sessionId => .touching sessionId
  | .setSessionMetadata sessionId key value => .settingMetadata sessionId key value
  | .cleanupExpiredSessions => .sweeping
  | .clearAllSessions => .clearing
  | .recordToolUsage sessionId usage =>
      if sessionId = [] then .returned (some true) else .recording sessionId usage.record

/-- The stored history as an array; anything else counts as none. -/
def historyOf : Json → List Json
  | .array items => items
  | _ => []

/-- The history with a record more, at most a hundred of them. -/
def pushRecord (history : List Json) (record : Json) : List Json :=
  let grown := history ++ [record]
  if grown.length > 100 then grown.tail else grown

/-- The next section of a call, entered at this time of the system clock. -/
def enter (now : Int) (manager : SessionManager) : Call → Option (SessionManager × Call)
  | .registering sessionId clientInfo =>
      match manager.find sessionId with
      | some session => some (manager.insert sessionId (session.touch now), .returned (some true))
      | none =>
          if manager.sessions.length ≥ manager.maxSessions then
            some (manager, .cleaning sessionId clientInfo)
          else some (manager.insert sessionId (.create now sessionId clientInfo), .returned (some true))
  | .cleaning sessionId clientInfo =>
      some (manager.cleanupExpiredSessions now, .measuring sessionId clientInfo)
  | .measuring sessionId clientInfo =>
      -- `m_sessions.size()` without the mutex
      some (manager,
        if manager.sessions.length ≥ manager.maxSessions then .returned (some false)
        else .storing sessionId clientInfo)
  | .storing sessionId clientInfo =>
      some (manager.insert sessionId (.create now sessionId clientInfo), .returned (some true))
  | .unregistering sessionId =>
      let (success, after) := manager.unregisterSession sessionId
      some (after, .returned (some success))
  | .touching sessionId =>
      let (success, after) := manager.touchSession now sessionId
      some (after, .returned (some success))
  | .settingMetadata sessionId key value =>
      let (success, after) := manager.setSessionMetadata now sessionId key value
      some (after, .returned success)
  | .sweeping => some (manager.cleanupExpiredSessions now, .returned (some true))
  | .clearing => some (manager.clearAllSessions, .returned (some true))
  | .recording sessionId record =>
      some (manager, .saving sessionId (historyOf (manager.getSessionMetadata sessionId historyKey)) record)
  | .saving sessionId history record =>
      let (success, after) :=
        manager.setSessionMetadata now sessionId historyKey (.array (pushRecord history record))
      some (after, .returned (success.map fun _ => true))
  | .returned _ => none

inductive Event
  | call (request : Request)
  | act (call : Nat) (now : Int)
  deriving DecidableEq, Repr

structure State where
  manager : SessionManager
  calls : List Call
  deriving DecidableEq, Repr

namespace State

def initial (timeoutSeconds : Int) (maxSessions : Nat) : State := ⟨⟨timeoutSeconds, maxSessions, []⟩, []⟩

def next (state : State) : Event → Option State
  | .call request => some { state with calls := state.calls ++ [request.begin] }
  | .act i now => do
      let call ← state.calls[i]?
      let (manager, later) ← enter now state.manager call
      return ⟨manager, state.calls.set i later⟩

end State

theorem State.next_act {state after : State} {i : Nat} {now : Int}
    (stepped : state.next (.act i now) = some after) :
    ∃ call manager later, state.calls[i]? = some call ∧
      enter now state.manager call = some (manager, later) ∧
        after = ⟨manager, state.calls.set i later⟩ := by
  simp only [State.next, Option.bind_eq_bind, Option.bind_eq_some_iff, Option.pure_def,
    Option.some.injEq] at stepped
  obtain ⟨call, found, ⟨manager, later⟩, entered, rfl⟩ := stepped
  exact ⟨call, manager, later, found, entered, rfl⟩

theorem State.next_single {now : Int} {manager after : SessionManager} {call later : Call}
    (entered : enter now manager call = some (after, later)) :
    State.next ⟨manager, [call]⟩ (.act 0 now) = some ⟨after, [later]⟩ := by
  simp [State.next, entered]

/-- The sections of a `registerSession` that nobody interrupts make up the whole of it. -/
theorem registerSession_sections (now : Int) (sessionId clientInfo : Bytes) (manager : SessionManager) :
    ∃ count, Transition.execute State.next ⟨manager, [(Request.registerSession sessionId clientInfo).begin]⟩
        (List.replicate count (.act 0 now)) =
      some ⟨(manager.registerSession now sessionId clientInfo).2,
        [.returned (some (manager.registerSession now sessionId clientInfo).1)]⟩ := by
  by_cases empty : sessionId = []
  · refine ⟨0, ?_⟩
    rw [Request.begin, SessionManager.registerSession, if_pos empty, if_pos empty]
    rfl
  rw [Request.begin, SessionManager.registerSession, if_neg empty, if_neg empty]
  cases found : manager.find sessionId with
  | some session =>
    have known : enter now manager (.registering sessionId clientInfo) =
        some (manager.insert sessionId (session.touch now), .returned (some true)) := by
      simp only [enter, found]
    exact ⟨1, Transition.execute_cons (State.next_single known) []⟩
  | none =>
    by_cases room : manager.sessions.length < manager.maxSessions
    · have added : enter now manager (.registering sessionId clientInfo) =
          some (manager.insert sessionId (.create now sessionId clientInfo),
            .returned (some true)) := by
        simp only [enter, found, ge_iff_le, if_neg (not_le.mpr room)]
      simp only [if_pos room]
      exact ⟨1, Transition.execute_cons (State.next_single added) []⟩
    have crowded : enter now manager (.registering sessionId clientInfo) =
        some (manager, .cleaning sessionId clientInfo) := by
      simp only [enter, found, ge_iff_le, if_pos (not_lt.mp room)]
    have cleaned : enter now manager (.cleaning sessionId clientInfo) =
        some (manager.cleanupExpiredSessions now, .measuring sessionId clientInfo) := rfl
    simp only [if_neg room]
    generalize manager.cleanupExpiredSessions now = swept at cleaned ⊢
    by_cases fits : swept.sessions.length < swept.maxSessions
    · have measured : enter now swept (.measuring sessionId clientInfo) =
          some (swept, .storing sessionId clientInfo) := by
        simp only [enter, ge_iff_le, if_neg (not_le.mpr fits)]
      have stored : enter now swept (.storing sessionId clientInfo) =
          some (swept.insert sessionId (.create now sessionId clientInfo),
            .returned (some true)) := rfl
      refine ⟨4, ?_⟩
      rw [if_pos fits, List.replicate_succ, Transition.execute_cons (State.next_single crowded),
        List.replicate_succ, Transition.execute_cons (State.next_single cleaned),
        List.replicate_succ, Transition.execute_cons (State.next_single measured)]
      exact Transition.execute_cons (State.next_single stored) []
    · have measured : enter now swept (.measuring sessionId clientInfo) =
          some (swept, .returned (some false)) := by
        simp only [enter, ge_iff_le, if_pos (not_lt.mp fits)]
      refine ⟨3, ?_⟩
      rw [if_neg fits, List.replicate_succ, Transition.execute_cons (State.next_single crowded),
        List.replicate_succ, Transition.execute_cons (State.next_single cleaned)]
      exact Transition.execute_cons (State.next_single measured) []

variable {now : Int} {manager after : SessionManager} {call later : Call}

inductive Change (now : Int) (manager : SessionManager) (call : Call) : SessionManager → Prop
  | stays : Change now manager call manager
  | removes (keep : Bytes × SessionData → Bool) :
      Change now manager call { manager with sessions := manager.sessions.filter keep }
  | updates (sessionId : Bytes) (old new : SessionData) (found : manager.find sessionId = some old) :
      Change now manager call (manager.insert sessionId new)
  | admits (sessionId clientInfo : Bytes) (calls : call = .registering sessionId clientInfo)
      (room : manager.sessions.length < manager.maxSessions) :
      Change now manager call (manager.insert sessionId (.create now sessionId clientInfo))
  | stores (sessionId clientInfo : Bytes) (calls : call = .storing sessionId clientInfo) :
      Change now manager call (manager.insert sessionId (.create now sessionId clientInfo))

theorem unregisterSession_change (sessionId : Bytes) :
    Change now manager call (manager.unregisterSession sessionId).2 := by
  simp only [SessionManager.unregisterSession]
  split
  · exact .stays
  · exact .removes _

theorem touchSession_change (sessionId : Bytes) :
    Change now manager call (manager.touchSession now sessionId).2 := by
  simp only [SessionManager.touchSession]
  split
  · exact .stays
  · split
    · exact .stays
    · rename_i session found
      exact .updates sessionId session _ found

theorem setSessionMetadata_change (sessionId key : Bytes) (value : Json) :
    Change now manager call (manager.setSessionMetadata now sessionId key value).2 := by
  simp only [SessionManager.setSessionMetadata]
  split
  · exact .stays
  · split
    · exact .stays
    · rename_i session found
      split
      · exact .stays
      · exact .updates sessionId session _ found

theorem enter_change (entered : enter now manager call = some (after, later)) :
    Change now manager call after := by
  cases call with
  | registering sessionId clientInfo =>
    simp only [enter] at entered
    split at entered
    · rename_i session found
      cases entered
      exact .updates sessionId session _ found
    · split at entered
      · cases entered
        exact .stays
      · rename_i room
        cases entered
        exact .admits sessionId clientInfo rfl (not_le.mp room)
  | storing sessionId clientInfo =>
    cases entered
    exact .stores sessionId clientInfo rfl
  | unregistering sessionId =>
    cases entered
    exact unregisterSession_change sessionId
  | touching sessionId =>
    cases entered
    exact touchSession_change sessionId
  | settingMetadata sessionId key value =>
    cases entered
    exact setSessionMetadata_change sessionId key value
  | saving sessionId history record =>
    cases entered
    exact setSessionMetadata_change sessionId historyKey _
  | cleaning sessionId clientInfo | sweeping =>
    cases entered
    exact .removes _
  | clearing =>
    cases entered
    have emptied : Change now manager .clearing
        { manager with sessions := manager.sessions.filter fun _ => false } := .removes _
    rwa [List.filter_false] at emptied
  | measuring sessionId clientInfo | recording sessionId record =>
    cases entered
    exact .stays
  | returned success => cases entered

/-- The call is a `registerSession`. -/
def Call.registersSession : Call → Bool
  | .registering _ _ | .cleaning _ _ | .measuring _ _ | .storing _ _ => true
  | _ => false

theorem change_ids (change : Change now manager call after)
    (other : call.registersSession = false) : after.ids ⊆ manager.ids := by
  cases change with
  | stays => exact List.Subset.refl _
  | removes keep => exact manager.ids_filter keep
  | updates sessionId old new found =>
    exact SessionManager.ids_replace new (SessionManager.mem_ids_of_find found)
  | admits sessionId clientInfo calls room =>
    subst calls
    cases other
  | stores sessionId clientInfo calls =>
    subst calls
    cases other

end Hku.SessionCalls
