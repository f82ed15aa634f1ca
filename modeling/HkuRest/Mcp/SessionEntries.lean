import HkuRest.Mcp.SessionManager

/-! What a session manager holds under one id, and which calls reach no other id. -/

namespace Hku.SessionManager

variable {manager other : SessionManager} {sessionId name key : Bytes} {session : SessionData}
  {now : Int} {α β : Type}

/-- The sessions under an id, of which `std::map` has one at most. -/
def entries (manager : SessionManager) (sessionId : Bytes) : List SessionData :=
  (manager.sessions.filter fun entry => entry.1 = sessionId).map Prod.snd

theorem find_eq_head (manager : SessionManager) (sessionId : Bytes) :
    manager.find sessionId = (manager.entries sessionId).head? := by
  simp only [find, entries, List.head?_map, List.head?_filter]

theorem mem_entries_of_find (found : manager.find sessionId = some session) :
    session ∈ manager.entries sessionId := by
  rw [find_eq_head] at found
  exact List.mem_of_head? found

theorem entries_removed (manager : SessionManager) (sessionId : Bytes) :
    ({ manager with sessions := manager.sessions.filter fun entry => entry.1 ≠ sessionId } :
      SessionManager).entries sessionId = [] := by
  simp [entries, List.filter_filter]

theorem entries_removed_other (manager : SessionManager) (apart : name ≠ sessionId) :
    ({ manager with sessions := manager.sessions.filter fun entry => entry.1 ≠ sessionId } :
      SessionManager).entries name = manager.entries name := by
  simp only [entries, List.filter_filter]
  refine congrArg (List.map Prod.snd) (List.filter_congr fun entry _ => ?_)
  by_cases named : entry.1 = name
  · simp [named, apart]
  · simp [named]

@[simp] theorem entries_insert (manager : SessionManager) (sessionId : Bytes) (session : SessionData) :
    (manager.insert sessionId session).entries sessionId = [session] := by
  simp [entries, insert, List.filter_filter]

theorem entries_insert_other (manager : SessionManager) (session : SessionData)
    (apart : name ≠ sessionId) :
    (manager.insert sessionId session).entries name = manager.entries name := by
  rw [← entries_removed_other manager apart]
  simp [entries, insert, apart.symm]

theorem entries_cleanup (now : Int) (manager : SessionManager) (sessionId : Bytes) :
    (manager.cleanupExpiredSessions now).entries sessionId =
      (manager.entries sessionId).filter fun session =>
        !session.isExpired now manager.timeoutSeconds := by
  simp only [entries, cleanupExpiredSessions, List.filter_map, List.filter_filter]
  refine congrArg (List.map Prod.snd) (List.filter_congr fun entry _ => ?_)
  exact Bool.and_comm _ _

/-- `registerSession` refuses, or stores a session: the old one or a new one. Before, it
may have removed what had expired. -/
theorem registerSession_cases (now : Int) (sessionId clientInfo : Bytes) (manager : SessionManager) :
    ∃ room, (room = manager ∨ room = manager.cleanupExpiredSessions now) ∧
      (manager.registerSession now sessionId clientInfo = (false, room) ∨
        ∃ session, manager.registerSession now sessionId clientInfo =
            (true, room.insert sessionId session) ∧
          (session = .create now sessionId clientInfo ∨
            ∃ old, manager.find sessionId = some old ∧ session = old.touch now)) := by
  by_cases empty : sessionId = []
  · exact ⟨manager, .inl rfl, .inl (by simp only [registerSession, if_pos empty])⟩
  cases found : manager.find sessionId with
  | some old =>
    refine ⟨manager, .inl rfl, .inr ⟨old.touch now, ?_, .inr ⟨old, rfl, rfl⟩⟩⟩
    simp only [registerSession, if_neg empty, found]
  | none =>
    refine ⟨if manager.sessions.length < manager.maxSessions then manager
      else manager.cleanupExpiredSessions now, ite_eq_or_eq _ _ _, ?_⟩
    simp only [registerSession, if_neg empty, found]
    generalize (if manager.sessions.length < manager.maxSessions then manager
      else manager.cleanupExpiredSessions now) = room
    split
    · exact .inr ⟨_, rfl, .inl rfl⟩
    · exact .inl rfl

/-- The two managers cannot be told apart under this id. -/
structure SameAt (sessionId : Bytes) (manager other : SessionManager) : Prop where
  timeout : manager.timeoutSeconds = other.timeoutSeconds
  entries : manager.entries sessionId = other.entries sessionId

theorem SameAt.find (same : SameAt sessionId manager other) :
    manager.find sessionId = other.find sessionId := by
  rw [find_eq_head, find_eq_head, same.entries]

/-- The call reads and writes under this id only. -/
structure Local (sessionId : Bytes) (call : SessionManager → α × SessionManager) : Prop where
  timeout : ∀ manager, (call manager).2.timeoutSeconds = manager.timeoutSeconds
  frame : ∀ manager name, name ≠ sessionId → (call manager).2.entries name = manager.entries name
  answer : ∀ manager other, SameAt sessionId manager other → (call manager).1 = (call other).1
  entries : ∀ manager other, SameAt sessionId manager other →
    (call manager).2.entries sessionId = (call other).2.entries sessionId

namespace Local

variable {call : SessionManager → α × SessionManager}

theorem same (isLocal : Local sessionId call) (same : SameAt sessionId manager other) :
    SameAt sessionId (call manager).2 (call other).2 where
  timeout := by rw [isLocal.timeout, isLocal.timeout, same.timeout]
  entries := isLocal.entries manager other same

theorem same_other (isLocal : Local sessionId call) (apart : name ≠ sessionId)
    (same : SameAt name manager other) : SameAt name (call manager).2 (call other).2 where
  timeout := by rw [isLocal.timeout, isLocal.timeout, same.timeout]
  entries := by rw [isLocal.frame _ _ apart, isLocal.frame _ _ apart, same.entries]

theorem reading (read : SessionManager → α)
    (answer : ∀ manager other, SameAt sessionId manager other → read manager = read other) :
    Local sessionId fun manager => (read manager, manager) where
  timeout _ := rfl
  frame _ _ _ := rfl
  answer := answer
  entries _ _ same := same.entries

theorem map (isLocal : Local sessionId call) (f : α → β) :
    Local sessionId fun manager => (f (call manager).1, (call manager).2) where
  timeout := isLocal.timeout
  frame := isLocal.frame
  answer manager other same := congrArg f (isLocal.answer manager other same)
  entries := isLocal.entries

theorem andThen {next : α → SessionManager → β × SessionManager} (first : Local sessionId call)
    (second : ∀ answer, Local sessionId (next answer)) :
    Local sessionId fun manager => next (call manager).1 (call manager).2 where
  timeout manager := by rw [(second _).timeout, first.timeout]
  frame manager name apart := by rw [(second _).frame _ _ apart, first.frame _ _ apart]
  answer manager other same := by
    rw [first.answer manager other same]
    exact (second _).answer _ _ (first.same same)
  entries manager other same := by
    rw [first.answer manager other same]
    exact (second _).entries _ _ (first.same same)

end Local

theorem getSession_local (now : Int) (sessionId : Bytes) :
    Local sessionId fun manager => (manager.getSession now sessionId, manager) := by
  refine .reading _ fun manager other same => ?_
  simp only [getSession, same.find, same.timeout]

theorem getSessionMetadata_local (sessionId key : Bytes) :
    Local sessionId fun manager => (manager.getSessionMetadata sessionId key, manager) := by
  refine .reading _ fun manager other same => ?_
  simp only [getSessionMetadata, same.find]

theorem touchSession_local (now : Int) (sessionId : Bytes) :
    Local sessionId (touchSession now sessionId) where
  timeout manager := by
    unfold touchSession
    split
    · rfl
    · split <;> rfl
  frame manager name apart := by
    unfold touchSession
    split
    · rfl
    · split
      · rfl
      · exact entries_insert_other _ _ apart
  answer manager other same := by
    simp only [touchSession, same.find]
    split
    · rfl
    · split <;> rfl
  entries manager other same := by
    simp only [touchSession, same.find]
    split
    · exact same.entries
    · split
      · exact same.entries
      · simp only [entries_insert]

theorem setSessionMetadata_local (now : Int) (sessionId key : Bytes) (value : Json) :
    Local sessionId (setSessionMetadata now sessionId key value) where
  timeout manager := by
    unfold setSessionMetadata
    split
    · rfl
    · split
      · rfl
      · split <;> rfl
  frame manager name apart := by
    unfold setSessionMetadata
    split
    · rfl
    · split
      · rfl
      · split
        · rfl
        · exact entries_insert_other _ _ apart
  answer manager other same := by
    simp only [setSessionMetadata, same.find]
    split
    · rfl
    · split
      · rfl
      · split <;> rfl
  entries manager other same := by
    simp only [setSessionMetadata, same.find]
    split
    · exact same.entries
    · split
      · exact same.entries
      · split
        · exact same.entries
        · simp only [entries_insert]

theorem unregisterSession_local (sessionId : Bytes) : Local sessionId (unregisterSession sessionId) where
  timeout manager := by
    unfold unregisterSession
    split <;> rfl
  frame manager name apart := by
    unfold unregisterSession
    split
    · rfl
    · exact entries_removed_other _ apart
  answer manager other same := by
    simp only [unregisterSession, same.find]
    split <;> rfl
  entries manager other same := by
    simp only [unregisterSession, same.find]
    split
    · exact same.entries
    · rw [entries_removed, entries_removed]

theorem SameAt.cleanup (same : SameAt sessionId manager other) (now : Int) :
    SameAt sessionId (manager.cleanupExpiredSessions now) (other.cleanupExpiredSessions now) where
  timeout := same.timeout
  entries := by rw [entries_cleanup, entries_cleanup, same.entries, same.timeout]

end Hku.SessionManager
