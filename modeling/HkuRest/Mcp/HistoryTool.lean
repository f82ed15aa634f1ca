import HkuRest.Mcp.SessionEntries
import HkuRest.Mcp.ToolHistory
import HkuRest.Mcp.ToolMethods
import Mathlib.Data.List.DropRight

/-! What the history tool shows of a session: the latest of the records that its tools made, in the
order in which they were called, whatever else happens to the sessions in between. -/

namespace Hku.McpMethod

open McpHandle (recordToolUsage)
open SessionCalls (Usage historyKey historyOf pushRecord)
open SessionManager (Local)

variable {manager after : SessionManager} {sessionId name : Bytes} {history old records : List Json}
  {now : Int} {session : SessionData}

theorem rtake_rtake {α : Type} (entries : List α) (few many : Nat) :
    (entries.rtake many).rtake few = entries.rtake (min few many) := by
  simp only [List.rtake_eq_reverse_take_reverse, List.reverse_reverse, List.take_take]

theorem rtake_of_length_le {α : Type} {entries : List α} {count : Nat}
    (short : entries.length ≤ count) : entries.rtake count = entries := by
  rw [List.rtake, Nat.sub_eq_zero_of_le short, List.drop_zero]

theorem length_rtake_le {α : Type} (entries : List α) (count : Nat) :
    (entries.rtake count).length ≤ count := by
  rw [List.rtake, List.length_drop]
  omega

theorem rtake_push {α : Type} (entries : List α) (entry : α) (count : Nat) :
    (entries.rtake count ++ [entry]).rtake count = (entries ++ [entry]).rtake count := by
  simp only [List.rtake_eq_reverse_take_reverse, List.reverse_append, List.reverse_reverse,
    List.reverse_singleton, List.singleton_append]
  cases count with
  | zero => rfl
  | succ count => simp [List.take_take]

theorem pushRecord_eq (record : Json) (short : history.length ≤ 100) :
    pushRecord history record = (history ++ [record]).rtake 100 := by
  simp only [pushRecord]
  split
  · rename_i long
    have full : (history ++ [record]).length - 100 = 1 := by
      simp only [List.length_append, List.length_singleton] at long ⊢
      omega
    rw [List.rtake, full, List.drop_one]
  · rename_i fits
    exact (rtake_of_length_le (not_lt.mp fits)).symm

/-- The session is there, its metadata can be written to, and this is its history. -/
def Remembers (manager : SessionManager) (sessionId : Bytes) (history : List Json) : Prop :=
  ∃ session, manager.find sessionId = some session ∧
    (∀ key value, ∃ changed, session.metadata.set key value = some changed) ∧
      (session.metadata.find historyKey = none ∧ history = [] ∨
        session.metadata.find historyKey = some (.array history))

namespace Remembers

theorem named (remembers : Remembers manager sessionId history) (id : Bytes)
    (found : after.find id = manager.find sessionId) : Remembers after id history := by
  obtain ⟨session, stored, kept⟩ := remembers
  exact ⟨session, found.trans stored, kept⟩

theorem read (remembers : Remembers manager sessionId history) (filled : sessionId ≠ []) :
    manager.getSessionMetadata sessionId historyKey = .null ∧ history = [] ∨
      manager.getSessionMetadata sessionId historyKey = .array history := by
  obtain ⟨session, found, _, stored⟩ := remembers
  simp only [SessionManager.getSessionMetadata, if_neg filled, found]
  rcases stored with ⟨absent, empty⟩ | stored
  · exact .inl ⟨by rw [absent]; rfl, empty⟩
  · exact .inr (by rw [stored]; rfl)

theorem historyOf_read (remembers : Remembers manager sessionId history) (filled : sessionId ≠ []) :
    historyOf (manager.getSessionMetadata sessionId historyKey) = history := by
  rcases remembers.read filled with ⟨absent, rfl⟩ | stored
  · rw [absent]
    rfl
  · rw [stored]
    rfl

theorem write (remembers : Remembers manager sessionId history) (filled : sessionId ≠ [])
    (now : Int) (key : Bytes) (value : Json) :
    ∃ session changed, session.metadata.set key value = some changed ∧
      manager.find sessionId = some session ∧
      (manager.setSessionMetadata now sessionId key value).2 =
        manager.insert sessionId ({ session with metadata := changed }.touch now) := by
  obtain ⟨session, found, writable, _⟩ := remembers
  obtain ⟨changed, written⟩ := writable key value
  refine ⟨session, changed, written, found, ?_⟩
  simp only [SessionManager.setSessionMetadata, if_neg filled, found, written]

theorem record (remembers : Remembers manager sessionId history) (filled : sessionId ≠ []) (now : Int)
    (usage : Usage) : Remembers (recordToolUsage now sessionId usage manager).2 sessionId
      (pushRecord history usage.record) := by
  obtain ⟨session, changed, written, _, stored⟩ := remembers.write filled now historyKey
    (.array (pushRecord history usage.record))
  simp only [recordToolUsage, if_neg filled, remembers.historyOf_read filled, stored]
  refine ⟨_, SessionManager.find_insert _ _ _, fun key value => ?_, .inr (Json.find_set written)⟩
  exact Json.set_of_find (Json.find_set written) key value

theorem writeOther (remembers : Remembers manager sessionId history) (filled : sessionId ≠ [])
    (now : Int) {key : Bytes} (apart : historyKey ≠ key) (value : Json) :
    Remembers (manager.setSessionMetadata now sessionId key value).2 sessionId history := by
  obtain ⟨session, changed, written, found, stored⟩ := remembers.write filled now key value
  obtain ⟨same, again, _, kept⟩ := remembers
  obtain rfl := Option.some.inj (found.symm.trans again)
  rw [stored]
  refine ⟨_, SessionManager.find_insert _ _ _, fun name content => ?_, ?_⟩
  · exact Json.set_of_find (Json.find_set written) name content
  · rwa [SessionData.touch, Json.find_set_other apart written]

theorem touch (remembers : Remembers manager sessionId history) (now : Int) :
    Remembers (manager.touchSession now sessionId).2 sessionId history := by
  unfold SessionManager.touchSession
  split
  · exact remembers
  · obtain ⟨session, found, kept⟩ := remembers
    rw [found]
    exact ⟨_, SessionManager.find_insert _ _ _, kept⟩

theorem elsewhere {α : Type} {call : SessionManager → α × SessionManager}
    (remembers : Remembers manager sessionId history) (isLocal : Local name call)
    (apart : sessionId ≠ name) : Remembers (call manager).2 sessionId history := by
  refine remembers.named sessionId ?_
  rw [SessionManager.find_eq_head, SessionManager.find_eq_head, isLocal.frame manager _ apart]

theorem sweep (remembers : Remembers manager sessionId history)
    (live : (manager.getSession now sessionId).isSome = true) :
    Remembers (manager.cleanupExpiredSessions now) sessionId history := by
  obtain ⟨session, answered⟩ := Option.isSome_iff_exists.mp live
  obtain ⟨found, current⟩ := SessionManager.find_of_getSession answered
  refine remembers.named sessionId ?_
  rw [found]
  rw [SessionManager.find_eq_head] at found ⊢
  obtain ⟨rest, stored⟩ := List.head?_eq_some_iff.mp found
  rw [SessionManager.entries_cleanup, stored, List.filter_cons_of_pos (by simp [current])]
  rfl

end Remembers

/-- What may happen to the sessions while one of them is in use, with the records that its tools
make: other sessions are used, what has expired is swept out, and the client stores metadata of its
own. -/
inductive Uses (sessionId : Bytes) (start : SessionManager) : List Json → SessionManager → Prop
  | start : Uses sessionId start [] start
  | record {records : List Json} {manager : SessionManager} (now : Int) (usage : Usage) :
      Uses sessionId start records manager →
      Uses sessionId start (records ++ [usage.record]) (recordToolUsage now sessionId usage manager).2
  | write {records : List Json} {manager : SessionManager} (now : Int) (key : Bytes) (value : Json) :
      Uses sessionId start records manager → historyKey ≠ key →
      Uses sessionId start records (manager.setSessionMetadata now sessionId key value).2
  | touch {records : List Json} {manager : SessionManager} (now : Int) :
      Uses sessionId start records manager →
      Uses sessionId start records (manager.touchSession now sessionId).2
  | elsewhere {records : List Json} {manager : SessionManager} {α : Type} {name : Bytes}
      {call : SessionManager → α × SessionManager} :
      Uses sessionId start records manager → Local name call → sessionId ≠ name →
      Uses sessionId start records (call manager).2
  | sweep {records : List Json} {manager : SessionManager} (now : Int) :
      Uses sessionId start records manager → (manager.getSession now sessionId).isSome = true →
      Uses sessionId start records (manager.cleanupExpiredSessions now)

theorem Uses.remembers {start : SessionManager} (uses : Uses sessionId start records after)
    (filled : sessionId ≠ []) (short : old.length ≤ 100) (before : Remembers start sessionId old) :
    Remembers after sessionId ((old ++ records).rtake 100) := by
  induction uses with
  | start => rwa [List.append_nil, rtake_of_length_le short]
  | record now usage _ ih =>
    have recorded := ih.record filled now usage
    rwa [pushRecord_eq usage.record (length_rtake_le _ _), rtake_push,
      List.append_assoc] at recorded
  | write now key value _ apart ih => exact ih.writeOther filled now apart value
  | touch now _ ih => exact ih.touch now
  | elsewhere _ isLocal apart ih => exact ih.elsewhere isLocal apart
  | sweep now _ live ih => exact ih.sweep live

/-- After any such run the tool answers with the latest of all records, as many of the hundred that
are kept as were asked for; a negative number asks for all of them. -/
theorem history_latest (cutOff : Bytes → Int) {start : SessionManager} (filled : sessionId ≠ [])
    (before : Remembers start sessionId old) (short : old.length ≤ 100)
    (uses : Uses sessionId start records after) (now : Int) (arguments : Json) (limit : Int)
    (limits : arguments.valueInt cutOff (McpHandle.key "limit") 10 = some limit) :
    (executeGetSessionHistory cutOff now arguments sessionId after).ending =
      .returned (McpService.succeed (.array ((old ++ records).rtake
        (if 0 ≤ limit then min limit.toNat 100 else 100)))) := by
  have remembers := uses.remembers filled short before
  have read := remembers.read filled
  have place : McpHandle.key "history" = historyKey := rfl
  simp only [executeGetSessionHistory, limits, place]
  rcases read with ⟨absent, none⟩ | stored
  · have empty : ∀ count, (old ++ records).rtake (min count 100) = [] := by
      intro count
      rw [← rtake_rtake, none, List.rtake_nil]
    rw [absent, if_pos rfl]
    split
    · rw [empty]
      rfl
    · rw [none]
      rfl
  · rw [stored, if_neg (by simp)]
    by_cases counts : 0 ≤ limit
    · rw [if_pos counts, ← rtake_rtake]
      simp only [limited, if_pos counts]
      rfl
    · simp only [limited, if_neg counts]
      rfl

/-- What the weather tool records. -/
def weatherUsage (location : Bytes) : Usage :=
  ⟨0, Bytes.ascii "get_weather", .object [(McpHandle.key "location", .string location)]⟩

/-- A session that was just registered. -/
def registered : SessionManager := ⟨3600, 10000, [([1], .create 0 [1] [])]⟩

theorem history_latest_weather :
    ∃ after, (executeGetSessionHistory (fun _ => 0) 7
        (.object [(McpHandle.key "limit", .integer 1)]) [1] after).ending =
      .returned (McpService.succeed (.array [(weatherUsage [2]).record])) := by
  have before : Remembers registered [1] [] := ⟨_, rfl, fun _ _ => ⟨_, rfl⟩, .inl ⟨rfl, rfl⟩⟩
  have uses : Uses [1] registered ([(weatherUsage [3]).record] ++ [(weatherUsage [2]).record]) _ :=
    .record 6 (weatherUsage [2]) (.sweep 5 (.record 4 (weatherUsage [3]) .start) (by decide +kernel))
  exact ⟨_, history_latest (fun _ => 0) (by decide) before (by decide) uses 7
    (.object [(McpHandle.key "limit", .integer 1)]) 1 (by decide +kernel)⟩

end Hku.McpMethod
