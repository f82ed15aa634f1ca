import HkuRest.Mcp.SessionIsolation

/-! The length of the two histories that a session keeps. `recordToolUsage` and `pushProgress`
take out one entry at most, so they rely on what is stored being short; a client can write
under the same keys. -/

namespace Hku.SessionHistory

open McpHandle
open McpService (BuiltinMethod dispatchBuiltin)
open SessionCalls (Usage historyKey historyOf pushRecord)

variable {manager : SessionManager} {metadata changed value : Json} {sessionId key : Bytes} {now : Int}
  {session : SessionData} {history : List Json}

/-- The requests of clients and tools, and the other calls of the same manager. -/
structure State where
  manager : SessionManager
  requests : Bytes → List SessionIsolation.Call
  calls : List SessionCalls.Call

inductive Event
  | request (event : SessionIsolation.Event)
  | call (event : SessionCalls.Event)
  deriving DecidableEq, Repr

def initial (timeoutSeconds : Int) (maxSessions : Nat) : State :=
  ⟨⟨timeoutSeconds, maxSessions, []⟩, fun _ => [], []⟩

def next (service : McpService) (state : State) : Event → Option State
  | .request event =>
      (SessionIsolation.next service ⟨state.manager, state.requests⟩ event).map fun after =>
        { state with manager := after.manager, requests := after.calls }
  | .call event =>
      (SessionCalls.State.next ⟨state.manager, state.calls⟩ event).map fun after =>
        { state with manager := after.manager, calls := after.calls }

/-- What is written under the key is no history with more entries than it may have. -/
def Short (key : Bytes) (value : Json) : Prop :=
  (key = historyKey → (historyOf value).length ≤ 100) ∧
    (key = progressHistoryKey → (historyOf value).length ≤ 50)

instance (key : Bytes) (value : Json) : Decidable (Short key value) :=
  inferInstanceAs (Decidable (_ ∧ _))

/-- `session/set_metadata` writes nothing but what is short. -/
def rpcShort (rpc : SessionIsolation.Rpc) : Bool :=
  match rpc.method, rpc.params.value (McpHandle.key "key") [] with
  | .sessionSetMetadata, some name =>
      decide (Short name ((rpc.params.find (McpHandle.key "value")).getD .null))
  | _, _ => true

/-- No metadata with a longer history is set from outside. -/
def short : Event → Bool
  | .request (.call _ (.rpc rpc)) => rpcShort rpc
  | .call (.call (.setSessionMetadata _ key value)) => decide (Short key value)
  | _ => true

def WritesShort (_ : State) (event : Event) : Prop := short event = true

instance (state : State) (event : Event) : Decidable (WritesShort state event) :=
  inferInstanceAs (Decidable (_ = _))

/-- The metadata can be written to, and its histories are short. -/
structure Bounded (metadata : Json) : Prop where
  writable : ∀ key value, ∃ changed, metadata.set key value = some changed
  short : ∀ key value, metadata.find key = some value → Short key value

theorem Bounded.null : Bounded .null where
  writable key value := ⟨.object [(key, value)], rfl⟩
  short _ _ found := by cases found

theorem Bounded.set (bounded : Bounded metadata) (fits : Short key value)
    (written : metadata.set key value = some changed) : Bounded changed where
  writable name content := Json.set_of_find (Json.find_set written) name content
  short name content found := by
    by_cases same : name = key
    · subst same
      obtain rfl := Option.some.inj ((Json.find_set written).symm.trans found)
      exact fits
    · rw [Json.find_set_other same written] at found
      exact bounded.short name content found

/-- All metadata that the manager holds. -/
def Keeps (manager : SessionManager) : Prop := ∀ entry ∈ manager.sessions, Bounded entry.2.metadata

theorem Keeps.filter (keeps : Keeps manager) (keep : Bytes × SessionData → Bool) :
    Keeps { manager with sessions := manager.sessions.filter keep } :=
  fun entry member => keeps entry (List.mem_of_mem_filter member)

theorem Keeps.insert (keeps : Keeps manager) (bounded : Bounded session.metadata) :
    Keeps (manager.insert sessionId session) := by
  intro entry member
  rcases List.mem_cons.mp member with rfl | kept
  · exact bounded
  · exact keeps entry (List.mem_of_mem_filter kept)

theorem Keeps.touch (keeps : Keeps manager) (bounded : Bounded session.metadata) :
    Keeps (manager.insert sessionId (session.touch now)) := keeps.insert bounded

theorem Keeps.find (keeps : Keeps manager) (found : manager.find sessionId = some session) :
    Bounded session.metadata := by
  obtain ⟨entry, held, rfl⟩ := Option.map_eq_some_iff.mp found
  exact keeps entry (List.mem_of_find?_eq_some held)

theorem touchSession_keeps (keeps : Keeps manager) : Keeps (manager.touchSession now sessionId).2 := by
  simp only [SessionManager.touchSession]
  split
  · exact keeps
  · split
    · exact keeps
    · rename_i session found
      exact keeps.touch (keeps.find found)

theorem unregisterSession_keeps (keeps : Keeps manager) :
    Keeps (manager.unregisterSession sessionId).2 := by
  simp only [SessionManager.unregisterSession]
  split
  · exact keeps
  · exact keeps.filter _

theorem setSessionMetadata_keeps (keeps : Keeps manager) (fits : Short key value) :
    Keeps (manager.setSessionMetadata now sessionId key value).2 := by
  simp only [SessionManager.setSessionMetadata]
  split
  · exact keeps
  · split
    · exact keeps
    · rename_i session found
      split
      · exact keeps
      · rename_i changed written
        exact keeps.insert ((keeps.find found).set fits written)

theorem Keeps.read (keeps : Keeps manager) (sessionId key : Bytes) :
    Short key (manager.getSessionMetadata sessionId key) := by
  have none : Short key .null := ⟨fun _ => Nat.zero_le _, fun _ => Nat.zero_le _⟩
  simp only [SessionManager.getSessionMetadata]
  split
  · exact none
  · split
    · exact none
    · rename_i session found
      cases held : session.metadata.find key with
      | none => exact none
      | some value => exact (keeps.find found).short key value held

/-- What both histories do with an entry. -/
def push (limit : Nat) (history : List Json) (entry : Json) : List Json :=
  let grown := history ++ [entry]
  if grown.length > limit then grown.tail else grown

/-- One entry is taken out, however many are too many. -/
theorem push_length_le_iff {limit : Nat} (entry : Json) :
    (push limit history entry).length ≤ limit ↔ history.length ≤ limit := by
  simp only [push]
  split
  · simp
  · rename_i room
    simp only [List.length_append, List.length_singleton] at room ⊢
    omega

theorem push_getLast? {limit : Nat} (positive : 0 < limit) (history : List Json) (entry : Json) :
    (push limit history entry).getLast? = some entry := by
  simp only [push]
  split
  · cases history with
    | nil =>
      rename_i long
      simp only [List.nil_append, List.length_singleton] at long
      omega
    | cons first rest => simp
  · simp

theorem pushRecord_length (record : Json) (fits : history.length ≤ 100) :
    (pushRecord history record).length ≤ 100 := (push_length_le_iff record).mpr fits

theorem pushProgressData_length (data : Json) (fits : history.length ≤ 50) :
    (pushProgressData history data).length ≤ 50 := (push_length_le_iff data).mpr fits

theorem short_history (fits : history.length ≤ 100) : Short historyKey (.array history) :=
  ⟨fun _ => fits, fun same => absurd same (by decide)⟩

theorem short_progress (fits : history.length ≤ 50) : Short progressHistoryKey (.array history) :=
  ⟨fun same => absurd same (by decide), fun _ => fits⟩

theorem short_of_ne (history : key ≠ historyKey) (progress : key ≠ progressHistoryKey) :
    Short key value :=
  ⟨fun same => absurd same history, fun same => absurd same progress⟩

theorem short_update (data : Json) : Short progressUpdateKey data := short_of_ne (by decide) (by decide)

theorem dispatchBuiltin_keeps (keeps : Keeps manager) (rpc : SessionIsolation.Rpc)
    (fits : rpcShort rpc = true) :
    Keeps (dispatchBuiltin now rpc.method rpc.params sessionId manager).2 := by
  obtain ⟨method, params, id, supportsSse⟩ := rpc
  cases method with
  | defaultInitialize =>
    simp only [dispatchBuiltin, McpService.defaultInitializeMethod]
    split
    · exact keeps
    · exact setSessionMetadata_keeps keeps (short_of_ne (by decide) (by decide))
  | ping =>
    simp only [dispatchBuiltin, McpService.pingMethod]
    split
    · exact keeps
    · exact touchSession_keeps keeps
  | sessionInfo => exact keeps
  | sessionSetMetadata =>
    simp only [rpcShort] at fits
    simp only [dispatchBuiltin, McpService.sessionMetadataMethod]
    split
    · exact keeps
    · exact keeps
    · rename_i name given
      rw [given] at fits
      exact setSessionMetadata_keeps keeps (of_decide_eq_true fits)
  | sessionUnregister => exact unregisterSession_keeps keeps

/-- What a request has still to write is short. -/
def RequestShort : SessionIsolation.Call → Prop
  | .validating rpc | .admitting rpc | .dispatching rpc => rpcShort rpc = true
  | .saving history _ => history.length ≤ 100
  | .savingHistory _ history _ => history.length ≤ 50
  | _ => True

def CallShort : SessionCalls.Call → Prop
  | .settingMetadata _ key value => Short key value
  | .saving _ history _ => history.length ≤ 100
  | _ => True

theorem request_enter {service : McpService} {call : SessionIsolation.Call}
    {entered : SessionManager → SessionIsolation.Call × SessionManager}
    (fits : RequestShort call) (keeps : Keeps manager)
    (entering : SessionIsolation.enter service sessionId now call = some entered) :
    RequestShort (entered manager).1 ∧ Keeps (entered manager).2 := by
  cases call with
  | validating rpc =>
    cases entering
    refine ⟨?_, keeps⟩
    dsimp only
    split
    · exact fits
    · trivial
  | admitting rpc =>
    cases entering
    exact ⟨fits, touchSession_keeps keeps⟩
  | dispatching rpc =>
    cases entering
    exact ⟨trivial, dispatchBuiltin_keeps keeps rpc fits⟩
  | recording record =>
    cases entering
    exact ⟨(keeps.read sessionId historyKey).1 rfl, keeps⟩
  | saving history record =>
    cases entering
    exact ⟨trivial, setSessionMetadata_keeps keeps (short_history (pushRecord_length record fits))⟩
  | pushing written data =>
    cases entering
    exact ⟨(keeps.read sessionId progressHistoryKey).2 rfl, keeps⟩
  | savingHistory written history data =>
    cases entering
    exact ⟨trivial, setSessionMetadata_keeps keeps (short_progress (pushProgressData_length data fits))⟩
  | savingUpdate written data stored =>
    cases entering
    refine ⟨trivial, ?_⟩
    cases stored with
    | none => exact keeps
    | some success => exact setSessionMetadata_keeps keeps (short_update data)
  | returned reply => cases entering

theorem call_enter {call later : SessionCalls.Call} {after : SessionManager} (fits : CallShort call)
    (keeps : Keeps manager) (entered : SessionCalls.enter now manager call = some (after, later)) :
    CallShort later ∧ Keeps after := by
  cases call with
  | registering sessionId clientInfo =>
    simp only [SessionCalls.enter] at entered
    split at entered
    · rename_i session found
      cases entered
      exact ⟨trivial, keeps.touch (keeps.find found)⟩
    · split at entered
      · cases entered
        exact ⟨trivial, keeps⟩
      · cases entered
        exact ⟨trivial, keeps.insert .null⟩
  | cleaning sessionId clientInfo =>
    cases entered
    exact ⟨trivial, keeps.filter _⟩
  | measuring sessionId clientInfo =>
    cases entered
    refine ⟨?_, keeps⟩
    split <;> trivial
  | storing sessionId clientInfo =>
    cases entered
    exact ⟨trivial, keeps.insert .null⟩
  | unregistering sessionId =>
    cases entered
    exact ⟨trivial, unregisterSession_keeps keeps⟩
  | touching sessionId =>
    cases entered
    exact ⟨trivial, touchSession_keeps keeps⟩
  | settingMetadata sessionId key value =>
    cases entered
    exact ⟨trivial, setSessionMetadata_keeps keeps fits⟩
  | sweeping =>
    cases entered
    exact ⟨trivial, keeps.filter _⟩
  | clearing =>
    cases entered
    refine ⟨trivial, fun entry member => ?_⟩
    cases member
  | recording sessionId record =>
    cases entered
    exact ⟨(keeps.read sessionId historyKey).1 rfl, keeps⟩
  | saving sessionId history record =>
    cases entered
    exact ⟨trivial, setSessionMetadata_keeps keeps (short_history (pushRecord_length record fits))⟩
  | returned success => cases entered

/-- Nothing that is stored or on its way is too long. -/
structure Invariant (state : State) : Prop where
  keeps : Keeps state.manager
  requests : ∀ name, ∀ call ∈ state.requests name, RequestShort call
  calls : ∀ call ∈ state.calls, CallShort call

theorem initial_invariant (timeoutSeconds : Int) (maxSessions : Nat) :
    Invariant (initial timeoutSeconds maxSessions) where
  keeps _ member := by cases member
  requests _ _ member := by cases member
  calls _ member := by cases member

theorem begin_short {service : McpService} {request : SessionIsolation.Request}
    {call : SessionIsolation.Call} (fits : short (.request (.call sessionId request)) = true)
    (begun : request.begin service sessionId = some call) : RequestShort call := by
  cases request with
  | rpc rpc =>
    simp only [SessionIsolation.Request.begin] at begun
    split at begun
    · cases begun
    · cases begun
      exact fits
  | recordToolUsage usage =>
    cases begun
    split <;> trivial
  | pushProgress chunkedTransfer progress timestamp =>
    cases begun
    split <;> trivial

theorem request_invariant {service : McpService} {state : State} {event : SessionIsolation.Event}
    {after : SessionIsolation.State} (invariant : Invariant state)
    (fits : short (.request event) = true)
    (stepped : SessionIsolation.next service ⟨state.manager, state.requests⟩ event = some after) :
    Invariant ⟨after.manager, after.calls, state.calls⟩ := by
  cases event with
  | call sessionId request =>
    simp only [SessionIsolation.next, Option.bind_eq_bind, Option.bind_eq_some_iff, Option.pure_def,
      Option.some.injEq] at stepped
    obtain ⟨call, begun, rfl⟩ := stepped
    refine ⟨invariant.keeps, fun name => ?_, invariant.calls⟩
    by_cases same : name = sessionId
    · subst same
      simp only [Function.update_self]
      exact Pool.forall_append (invariant.requests name) (begin_short fits begun)
    · simp only [Function.update_of_ne same]
      exact invariant.requests name
  | act sessionId i now =>
    obtain ⟨call, entered, found, entering, rfl⟩ := SessionIsolation.next_act stepped
    have held := invariant.requests sessionId call (List.mem_of_getElem? found)
    obtain ⟨later, keeps⟩ := request_enter held invariant.keeps entering
    refine ⟨keeps, fun name => ?_, invariant.calls⟩
    by_cases same : name = sessionId
    · subst same
      simp only [Function.update_self]
      exact Pool.forall_set (invariant.requests name) later i
    · simp only [Function.update_of_ne same]
      exact invariant.requests name
  | cleanup now =>
    cases stepped
    exact ⟨invariant.keeps.filter _, invariant.requests, invariant.calls⟩

theorem call_invariant {state : State} {event : SessionCalls.Event} {after : SessionCalls.State}
    (invariant : Invariant state) (fits : short (.call event) = true)
    (stepped : SessionCalls.State.next ⟨state.manager, state.calls⟩ event = some after) :
    Invariant ⟨after.manager, state.requests, after.calls⟩ := by
  cases event with
  | call request =>
    cases stepped
    refine ⟨invariant.keeps, invariant.requests, Pool.forall_append invariant.calls ?_⟩
    cases request with
    | setSessionMetadata sessionId key value =>
      have writes : Short key value := of_decide_eq_true fits
      exact writes
    | registerSession sessionId clientInfo | recordToolUsage sessionId usage =>
      simp only [SessionCalls.Request.begin]
      split <;> trivial
    | _ => trivial
  | act i now =>
    obtain ⟨call, manager, later, found, entered, rfl⟩ := SessionCalls.State.next_act stepped
    have held := invariant.calls call (List.mem_of_getElem? found)
    obtain ⟨fitsLater, keeps⟩ := call_enter held invariant.keeps entered
    exact ⟨keeps, invariant.requests, Pool.forall_set invariant.calls fitsLater i⟩

theorem next_invariant {service : McpService} {state after : State} {event : Event}
    (invariant : Invariant state) (fits : WritesShort state event)
    (stepped : next service state event = some after) : Invariant after := by
  cases event with
  | request event =>
    obtain ⟨final, inner, rfl⟩ := Option.map_eq_some_iff.mp stepped
    exact request_invariant invariant fits inner
  | call event =>
    obtain ⟨final, inner, rfl⟩ := Option.map_eq_some_iff.mp stepped
    exact call_invariant invariant fits inner

/-- What is stored ends with the entry, and has no more entries than that. -/
def EndsWith (limit : Nat) (stored entry : Json) : Prop :=
  ∃ history, stored = .array history ∧ history.length ≤ limit ∧ history.getLast? = some entry

/-- The session is there. -/
structure Live (manager : SessionManager) (sessionId : Bytes) : Prop where
  named : sessionId ≠ []
  found : ∃ session, manager.find sessionId = some session

/-- What is written to a session is read again, and the rest of its metadata with it. -/
theorem Live.set (live : Live manager sessionId) (keeps : Keeps manager) (now : Int) (key : Bytes)
    (value : Json) :
    ∃ after, manager.setSessionMetadata now sessionId key value = (some true, after) ∧
      after.getSessionMetadata sessionId key = value ∧ Live after sessionId ∧
        ∀ name, name ≠ key →
          after.getSessionMetadata sessionId name = manager.getSessionMetadata sessionId name := by
  obtain ⟨named, session, found⟩ := live
  obtain ⟨changed, written⟩ := (keeps.find found).writable key value
  refine ⟨manager.insert sessionId (({ session with metadata := changed } : SessionData).touch now),
    ?_, ?_, ⟨named, _, SessionManager.find_insert _ _ _⟩, fun name apart => ?_⟩
  · simp only [SessionManager.setSessionMetadata, if_neg named, found, written]
  · simp [SessionManager.getSessionMetadata, named, SessionData.touch, Json.find_set written]
  · simp [SessionManager.getSessionMetadata, named, SessionData.touch, found,
      Json.find_set_other apart written]

theorem recordToolUsage_bounded (live : Live manager sessionId) (keeps : Keeps manager) (now : Int)
    (usage : Usage) :
    EndsWith 100 ((recordToolUsage now sessionId usage manager).2.getSessionMetadata sessionId historyKey)
      usage.record := by
  obtain ⟨after, stored, read, -⟩ := live.set keeps now historyKey
    (.array (pushRecord (historyOf (manager.getSessionMetadata sessionId historyKey)) usage.record))
  simp only [recordToolUsage, if_neg live.named, stored, read]
  exact ⟨_, rfl, pushRecord_length usage.record ((keeps.read sessionId historyKey).1 rfl),
    push_getLast? (by decide) _ usage.record⟩

theorem storeProgress_bounded {codec : JsonCodec} {chunkedTransfer : Bool} {progress : ProgressUpdate}
    (live : Live manager sessionId) (keeps : Keeps manager)
    (notifies : notifies codec chunkedTransfer progress = true) (first second timestamp : Int) :
    EndsWith 50
      ((storeProgress codec chunkedTransfer first second sessionId progress timestamp
        manager).2.getSessionMetadata sessionId progressHistoryKey)
      (progressData progress timestamp) := by
  have fits := (keeps.read sessionId progressHistoryKey).2 rfl
  have grown := pushProgressData_length (progressData progress timestamp) fits
  obtain ⟨middle, stored, read, live, -⟩ := live.set keeps first progressHistoryKey
    (.array (pushProgressData (historyOf (manager.getSessionMetadata sessionId progressHistoryKey))
      (progressData progress timestamp)))
  have kept : Keeps middle := by
    have kept : Keeps (manager.setSessionMetadata first sessionId progressHistoryKey _).2 :=
      setSessionMetadata_keeps keeps (short_progress grown)
    rwa [stored] at kept
  obtain ⟨after, updated, -, -, others⟩ := live.set kept second progressUpdateKey
    (progressData progress timestamp)
  simp only [storeProgress, if_pos notifies, saveProgress, stored, saveUpdate, updated]
  rw [others progressHistoryKey (by decide), read]
  exact ⟨_, rfl, grown, push_getLast? (by decide) _ _⟩

/-- In every run in which no longer history is set from outside, a record or an update is the last
entry of its history, which stays within its limit. -/
theorem histories_bounded (service : McpService) (timeoutSeconds : Int) (maxSessions : Nat)
    (state : State) (sessionId : Bytes)
    (reached : Transition.Reaches (next service) WritesShort (initial timeoutSeconds maxSessions) state)
    (live : Live state.manager sessionId) :
    (∀ now usage, EndsWith 100
      ((recordToolUsage now sessionId usage state.manager).2.getSessionMetadata sessionId historyKey)
      usage.record) ∧
    ∀ chunkedTransfer progress first second timestamp,
      notifies service.codec chunkedTransfer progress = true → EndsWith 50
        ((storeProgress service.codec chunkedTransfer first second sessionId progress timestamp
          state.manager).2.getSessionMetadata sessionId progressHistoryKey)
        (progressData progress timestamp) := by
  have invariant : Invariant state := reached.invariant Invariant
    (initial_invariant timeoutSeconds maxSessions) fun _ _ _ invariant fits stepped =>
      next_invariant invariant fits stepped
  exact ⟨recordToolUsage_bounded live invariant.keeps,
    fun _ _ first second timestamp notifies =>
      storeProgress_bounded live invariant.keeps notifies first second timestamp⟩

/-- A session is registered, and its client sets its history. -/
def settingHistory (history : List Json) : List Event :=
  [.call (.call (.registerSession [1] [])), .call (.act 0 0),
    .request (.call [1] (.rpc ⟨.sessionSetMetadata,
      .object [(McpHandle.key "key", .string historyKey), (McpHandle.key "value", .array history)],
      .integer 1, false⟩)),
    .request (.act [1] 0 0), .request (.act [1] 0 0), .request (.act [1] 0 0)]

/-- The manager afterwards. -/
def holding (history : List Json) : SessionManager :=
  ⟨3600, 10000, [([1], ⟨[1], [], 0, 0, .object [(historyKey, .array history)]⟩)]⟩

theorem histories_bounded_empty :
    ∃ state : State, state.manager = holding [] ∧ ∀ now usage, EndsWith 100
      ((recordToolUsage now [1] usage state.manager).2.getSessionMetadata [1] historyKey)
      usage.record := by
  obtain ⟨state, reached, same⟩ : ∃ state,
      Transition.Reaches (next McpService.pingService) WritesShort (initial 3600 10000) state ∧
        state.manager = holding [] :=
    ⟨_, .of_execute (settingHistory []) rfl, rfl⟩
  have live : Live state.manager [1] := by
    rw [same]
    exact ⟨by decide, _, rfl⟩
  exact ⟨state, same, (histories_bounded McpService.pingService 3600 10000 state [1] reached live).1⟩

/-- A history of 101 entries stays as long when a record is added. -/
theorem long_history_kept :
    ¬ ∀ (service : McpService) (timeoutSeconds : Int) (maxSessions : Nat) (state : State)
      (sessionId : Bytes),
      Transition.Reaches (next service) (fun _ _ => True) (initial timeoutSeconds maxSessions) state →
      Live state.manager sessionId →
      ∀ now usage, EndsWith 100
        ((recordToolUsage now sessionId usage state.manager).2.getSessionMetadata sessionId historyKey)
        usage.record := by
  intro bounded
  let long : List Json := List.replicate 101 .null
  have always : ∀ state event, Decidable ((fun _ _ => True : State → Event → Prop) state event) :=
    fun _ _ => .isTrue trivial
  obtain ⟨state, reached, same⟩ : ∃ state,
      Transition.Reaches (next McpService.pingService) (fun _ _ => True) (initial 3600 10000) state ∧
        state.manager = holding long :=
    ⟨_, .of_execute (settingHistory long) rfl, rfl⟩
  have live : Live state.manager [1] := by
    rw [same]
    exact ⟨by decide, _, rfl⟩
  obtain ⟨history, stored, fits, -⟩ :=
    bounded McpService.pingService 3600 10000 state [1] reached live 0 ⟨0, [], .null⟩
  have kept : (historyOf ((recordToolUsage 0 [1] ⟨0, [], .null⟩
      (holding long)).2.getSessionMetadata [1] historyKey)).length = 101 := by
    rfl
  rw [← same, stored] at kept
  exact absurd (kept.symm.trans_le fits) (by decide)

end Hku.SessionHistory
