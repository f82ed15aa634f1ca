import HkuRest.Mcp.McpHandle
import HkuRest.Mcp.SessionCalls
import HkuRest.Mcp.SessionEntries

/-! What `McpHandle` stores in a session while a tool runs: a record of the call, and the
progress of its task. Neither function returns anything; the answer given here is the one
that their last `setSessionMetadata` gave them. -/

namespace Hku.McpHandle

open SessionCalls (Usage historyKey historyOf pushRecord)
open SessionManager (Local)

def progressHistoryKey : Bytes := Bytes.ascii "progress_history"

def progressUpdateKey : Bytes := Bytes.ascii "progress_update"

/-- What is stored of an update; the time of day is one of `Datetime`. -/
def progressData (progress : ProgressUpdate) (timestamp : Int) : Json :=
  let data := if progress.data = .null then [] else [(key "data", progress.data)]
  .object (data ++ [(key "message", .string progress.message),
    (key "progress", .integer progress.progress), (key "task_id", .string progress.taskId),
    (key "timestamp", .integer timestamp)])

/-- The history with an update more, at most fifty of them. -/
def pushProgressData (history : List Json) (data : Json) : List Json :=
  let grown := history ++ [data]
  if grown.length > 50 then grown.tail else grown

def recordToolUsage (now : Int) (sessionId : Bytes) (usage : Usage) (manager : SessionManager) :
    Option Bool × SessionManager :=
  if sessionId = [] then (some false, manager)
  else
    let history := historyOf (manager.getSessionMetadata sessionId historyKey)
    manager.setSessionMetadata now sessionId historyKey (.array (pushRecord history usage.record))

/-- The notification is dumped when it is to be written at once, and that may throw. -/
def notifies (codec : JsonCodec) (chunkedTransfer : Bool) (progress : ProgressUpdate) : Bool :=
  !chunkedTransfer || (codec.dump (progressNotification progress)).isSome

/-- The latest update, unless storing the history threw. -/
def saveUpdate (now : Int) (sessionId : Bytes) (data : Json) :
    Option Bool → SessionManager → Option Bool × SessionManager
  | none, manager => (none, manager)
  | some _, manager => manager.setSessionMetadata now sessionId progressUpdateKey data

/-- The history with the update, and then the update on its own. -/
def saveProgress (first second : Int) (sessionId : Bytes) (data : Json) (history : List Json)
    (manager : SessionManager) : Option Bool × SessionManager :=
  let (stored, after) := manager.setSessionMetadata first sessionId progressHistoryKey
    (.array (pushProgressData history data))
  saveUpdate second sessionId data stored after

/-- `pushProgress`, as far as it stores; its two calls come one after another. -/
def storeProgress (codec : JsonCodec) (chunkedTransfer : Bool) (first second : Int)
    (sessionId : Bytes) (progress : ProgressUpdate) (timestamp : Int) (manager : SessionManager) :
    Option Bool × SessionManager :=
  if notifies codec chunkedTransfer progress then
    saveProgress first second sessionId (progressData progress timestamp)
      (historyOf (manager.getSessionMetadata sessionId progressHistoryKey)) manager
  else (none, manager)

theorem recordToolUsage_local (now : Int) (sessionId : Bytes) (usage : Usage) :
    Local sessionId (recordToolUsage now sessionId usage) := by
  unfold recordToolUsage
  split
  · exact .reading _ fun _ _ _ => rfl
  · exact (SessionManager.getSessionMetadata_local sessionId historyKey).andThen fun stored =>
      SessionManager.setSessionMetadata_local now sessionId historyKey
        (.array (pushRecord (historyOf stored) usage.record))

theorem saveUpdate_local (now : Int) (sessionId : Bytes) (data : Json) (stored : Option Bool) :
    Local sessionId (saveUpdate now sessionId data stored) := by
  cases stored with
  | none => exact .reading _ fun _ _ _ => rfl
  | some success => exact SessionManager.setSessionMetadata_local now sessionId _ data

theorem saveProgress_local (first second : Int) (sessionId : Bytes) (data : Json)
    (history : List Json) : Local sessionId (saveProgress first second sessionId data history) :=
  (SessionManager.setSessionMetadata_local first sessionId _ _).andThen
    (saveUpdate_local second sessionId data)

theorem storeProgress_local (codec : JsonCodec) (chunkedTransfer : Bool) (first second : Int)
    (sessionId : Bytes) (progress : ProgressUpdate) (timestamp : Int) :
    Local sessionId
      (storeProgress codec chunkedTransfer first second sessionId progress timestamp) := by
  unfold storeProgress
  split
  · exact (SessionManager.getSessionMetadata_local sessionId progressHistoryKey).andThen
      fun stored => saveProgress_local first second sessionId (progressData progress timestamp)
        (historyOf stored)
  · exact .reading _ fun _ _ _ => rfl

end Hku.McpHandle
