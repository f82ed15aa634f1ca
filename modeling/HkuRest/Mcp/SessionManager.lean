import HkuRest.Mcp.Json

/-! `SessionManager`: the sessions of an MCP service by their id. Time is counted in
nanoseconds of the system clock. -/

namespace Hku

structure SessionData where
  sessionId : Bytes
  clientInfo : Bytes
  createdAt : Int
  lastActive : Int
  metadata : Json
  deriving DecidableEq, Repr

namespace SessionData

def create (now : Int) (sessionId clientInfo : Bytes) : SessionData :=
  ⟨sessionId, clientInfo, now, now, .null⟩

/-- Whole seconds since the last activity are compared with the timeout. -/
def isExpired (now timeoutSeconds : Int) (session : SessionData) : Bool :=
  timeoutSeconds < (now - session.lastActive).tdiv 1000000000

def touch (now : Int) (session : SessionData) : SessionData := { session with lastActive := now }

end SessionData

structure SessionManager where
  timeoutSeconds : Int
  maxSessions : Nat
  sessions : List (Bytes × SessionData)
  deriving DecidableEq, Repr

namespace SessionManager

/-- The manager as `McpService` makes it. -/
def create : SessionManager := ⟨3600, 10000, []⟩

def find (manager : SessionManager) (sessionId : Bytes) : Option SessionData :=
  (List.find? (fun entry => entry.1 = sessionId) manager.sessions).map Prod.snd

/-- `m_sessions[session_id] = session`. -/
def insert (manager : SessionManager) (sessionId : Bytes) (session : SessionData) : SessionManager :=
  { manager with
    sessions := (sessionId, session) :: manager.sessions.filter fun entry => entry.1 ≠ sessionId }

def getSession (now : Int) (sessionId : Bytes) (manager : SessionManager) : Option SessionData :=
  if sessionId = [] then none
  else
    match manager.find sessionId with
    | none => none
    | some session => if session.isExpired now manager.timeoutSeconds then none else some session

def touchSession (now : Int) (sessionId : Bytes) (manager : SessionManager) :
    Bool × SessionManager :=
  if sessionId = [] then (false, manager)
  else
    match manager.find sessionId with
    | none => (false, manager)
    | some session => (true, manager.insert sessionId (session.touch now))

def cleanupExpiredSessions (now : Int) (manager : SessionManager) : SessionManager :=
  { manager with
    sessions := manager.sessions.filter fun entry =>
      !SessionData.isExpired now manager.timeoutSeconds entry.2 }

def registerSession (now : Int) (sessionId clientInfo : Bytes) (manager : SessionManager) :
    Bool × SessionManager :=
  if sessionId = [] then (false, manager)
  else
    match manager.find sessionId with
    | some session => (true, manager.insert sessionId (session.touch now))
    | none =>
        let room :=
          if manager.sessions.length < manager.maxSessions then manager
          else manager.cleanupExpiredSessions now
        if room.sessions.length < room.maxSessions then
          (true, room.insert sessionId (.create now sessionId clientInfo))
        else (false, room)

def unregisterSession (sessionId : Bytes) (manager : SessionManager) : Bool × SessionManager :=
  match manager.find sessionId with
  | none => (false, manager)
  | some _ =>
      (true, { manager with sessions := manager.sessions.filter fun entry => entry.1 ≠ sessionId })

/-- No answer stands for the exception of `metadata[key]` on metadata that are no object. -/
def setSessionMetadata (now : Int) (sessionId key : Bytes) (value : Json) (manager : SessionManager) :
    Option Bool × SessionManager :=
  if sessionId = [] then (some false, manager)
  else
    match manager.find sessionId with
    | none => (some false, manager)
    | some session =>
        match session.metadata.set key value with
        | none => (none, manager)
        | some metadata =>
            (some true, manager.insert sessionId ({ session with metadata }.touch now))

def getSessionMetadata (sessionId key : Bytes) (manager : SessionManager) : Json :=
  if sessionId = [] then .null
  else
    match manager.find sessionId with
    | none => .null
    | some session => (session.metadata.find key).getD .null

def clearAllSessions (manager : SessionManager) : SessionManager := { manager with sessions := [] }

variable {manager : SessionManager} {sessionId : Bytes} {session : SessionData}

@[simp] theorem find_insert (manager : SessionManager) (sessionId : Bytes) (session : SessionData) :
    (manager.insert sessionId session).find sessionId = some session := by
  simp [find, insert]

/-- The ids in use. -/
def ids (manager : SessionManager) : List Bytes := manager.sessions.map Prod.fst

theorem mem_ids_of_find (found : manager.find sessionId = some session) :
    sessionId ∈ manager.ids := by
  obtain ⟨entry, stored, _⟩ := Option.map_eq_some_iff.mp found
  have named : entry.1 = sessionId := by simpa using List.find?_some stored
  exact List.mem_map.mpr ⟨entry, List.mem_of_find?_eq_some stored, named⟩

theorem ids_filter (manager : SessionManager) (keep : Bytes × SessionData → Bool) :
    ({ manager with sessions := manager.sessions.filter keep } : SessionManager).ids ⊆ manager.ids :=
  (List.filter_sublist.map _).subset

theorem ids_insert (manager : SessionManager) (sessionId : Bytes) (session : SessionData) :
    (manager.insert sessionId session).ids ⊆ sessionId :: manager.ids := by
  intro name member
  rcases List.mem_cons.mp member with rfl | kept
  · exact List.mem_cons_self
  · exact List.mem_cons_of_mem _ ((List.filter_sublist.map _).subset kept)

theorem ids_replace (session : SessionData) (known : sessionId ∈ manager.ids) :
    (manager.insert sessionId session).ids ⊆ manager.ids := by
  intro name member
  rcases List.mem_cons.mp (ids_insert manager sessionId session member) with rfl | kept
  · exact known
  · exact kept

theorem ids_registerSession (now : Int) (sessionId clientInfo : Bytes) (manager : SessionManager) :
    (manager.registerSession now sessionId clientInfo).2.ids ⊆ sessionId :: manager.ids := by
  have swept : (manager.cleanupExpiredSessions now).ids ⊆ manager.ids := manager.ids_filter _
  simp only [registerSession]
  split
  · exact List.subset_cons_self _ _
  · split
    · exact ids_insert _ _ _
    · split
      · exact ids_insert _ _ _
      · split
        · exact List.Subset.trans (ids_insert _ _ _) (List.cons_subset_cons _ swept)
        · exact List.subset_cons_of_subset _ swept

theorem find_of_getSession {now : Int} (answered : manager.getSession now sessionId = some session) :
    manager.find sessionId = some session ∧ session.isExpired now manager.timeoutSeconds = false := by
  simp only [getSession] at answered
  split at answered
  · cases answered
  · split at answered
    · cases answered
    · rename_i stored found
      split at answered
      · cases answered
      · rename_i live
        cases answered
        exact ⟨found, by simpa using live⟩

end SessionManager

end Hku
