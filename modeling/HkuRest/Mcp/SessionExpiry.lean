import HkuRest.Core.Transition
import HkuRest.Mcp.SessionRecords

/-! How final it is when `getSession` finds a session too old. The calls that refresh a
session do not look at its age: they bring it back unless its entry was removed before. -/

namespace Hku.SessionExpiry

open McpHandle
open SessionCalls (Usage)

variable {manager : SessionManager} {sessionId name key : Bytes} {session : SessionData}
  {now clock : Int} {codec : JsonCodec}

inductive Operation
  | getSession (sessionId : Bytes)
  | touchSession (sessionId : Bytes)
  | setSessionMetadata (sessionId key : Bytes) (value : Json)
  | getSessionMetadata (sessionId key : Bytes)
  | registerSession (sessionId clientInfo : Bytes)
  | unregisterSession (sessionId : Bytes)
  | cleanupExpiredSessions
  | clearAllSessions
  | recordToolUsage (sessionId : Bytes) (usage : Usage)
  | pushProgress (sessionId : Bytes) (progress : ProgressUpdate) (chunkedTransfer : Bool)
      (timestamp : Int) (delay : Nat)
  deriving DecidableEq, Repr

namespace Operation

/-- The clock moves on between the two calls of `pushProgress`. -/
def duration : Operation → Nat
  | .pushProgress _ _ _ _ delay => delay
  | _ => 0

/-- Whether the operation succeeds, with the sessions after it; no answer stands for an
exception. -/
def perform (codec : JsonCodec) (now : Int) (manager : SessionManager) :
    Operation → Option Bool × SessionManager
  | .getSession sessionId => (some (manager.getSession now sessionId).isSome, manager)
  | .touchSession sessionId => (manager.touchSession now sessionId).map some id
  | .setSessionMetadata sessionId key value => manager.setSessionMetadata now sessionId key value
  | .getSessionMetadata sessionId key =>
      (some (manager.getSessionMetadata sessionId key ≠ .null), manager)
  | .registerSession sessionId clientInfo =>
      (manager.registerSession now sessionId clientInfo).map some id
  | .unregisterSession sessionId => (manager.unregisterSession sessionId).map some id
  | .cleanupExpiredSessions => (some true, manager.cleanupExpiredSessions now)
  | .clearAllSessions => (some true, manager.clearAllSessions)
  | .recordToolUsage sessionId usage => McpHandle.recordToolUsage now sessionId usage manager
  | .pushProgress sessionId progress chunkedTransfer timestamp delay =>
      storeProgress codec chunkedTransfer now (now + delay) sessionId progress timestamp manager

/-- The operation is one that refreshes this session. -/
def refreshes (sessionId : Bytes) : Operation → Bool
  | .touchSession name | .setSessionMetadata name _ _ | .recordToolUsage name _
  | .pushProgress name _ _ _ _ => name = sessionId
  | _ => false

/-- It gets as far as the session. -/
def proceeds (codec : JsonCodec) : Operation → Bool
  | .pushProgress _ progress chunkedTransfer _ _ => notifies codec chunkedTransfer progress
  | _ => true

def registers (sessionId : Bytes) : Operation → Bool
  | .registerSession name _ => name = sessionId
  | _ => false

/-- A `getSession` that answers null because the session is too old. -/
def findsExpired (sessionId : Bytes) (now : Int) (manager : SessionManager) : Operation → Bool
  | .getSession name =>
      name = sessionId && name ≠ [] &&
        (manager.find name).any (·.isExpired now manager.timeoutSeconds)
  | _ => false

end Operation

structure Event where
  now : Int
  operation : Operation
  deriving DecidableEq, Repr

/-- `expired`: a `getSession` found the session too old, and it was not registered since. -/
structure Watch where
  manager : SessionManager
  clock : Int
  expired : Bool
  deriving DecidableEq, Repr

namespace Watch

def initial (timeoutSeconds : Int) (maxSessions : Nat) (clock : Int) : Watch :=
  ⟨⟨timeoutSeconds, maxSessions, []⟩, clock, false⟩

def next (codec : JsonCodec) (sessionId : Bytes) (watch : Watch) (event : Event) : Option Watch :=
  if event.now < watch.clock then none
  else
    let (answer, manager) := event.operation.perform codec event.now watch.manager
    some
      { manager
        clock := event.now + event.operation.duration
        expired := event.operation.findsExpired sessionId event.now watch.manager ||
          (watch.expired && !(event.operation.registers sessionId && answer = some true)) }

/-- Nothing refreshes the expired session, and nobody finds it again at any later time. -/
structure StaysExpired (codec : JsonCodec) (sessionId : Bytes) (before : Watch) (event : Event)
    (after : Watch) : Prop where
  refused : before.expired = true → event.operation.refreshes sessionId = true →
    (event.operation.perform codec event.now before.manager).1 ≠ some true
  absent : after.expired = true → ∀ later, after.clock ≤ later →
    after.manager.getSession later sessionId = none

/-- An operation that would refresh the expired session comes after its entry was removed. -/
def Removed (codec : JsonCodec) (sessionId : Bytes) (before : Watch) (event : Event)
    (_ : Watch) : Prop :=
  before.expired = true → event.operation.refreshes sessionId = true →
    event.operation.proceeds codec = true → before.manager.find sessionId = none

end Watch

theorem isExpired_mono {later timeoutSeconds : Int} (expired : session.isExpired now timeoutSeconds = true)
    (passed : now ≤ later) : session.isExpired later timeoutSeconds = true := by
  simp only [SessionData.isExpired, decide_eq_true_eq] at expired ⊢
  have older : (now - session.lastActive).tdiv 1000000000 ≤
      (later - session.lastActive).tdiv 1000000000 :=
    Int.tdiv_le_tdiv (by decide) (by omega)
  omega

def Settable (json : Json) : Prop := ∀ key value, ∃ changed, json.set key value = some changed

theorem settable_null : Settable .null := fun _ _ => ⟨_, rfl⟩

theorem settable_set {json changed value : Json} (written : json.set key value = some changed) :
    Settable changed := fun name content => Json.set_of_find (Json.find_set written) name content

/-- One session at most under each id, with metadata that can be set. -/
def Sound (manager : SessionManager) : Prop :=
  ∀ name, (manager.entries name).length ≤ 1 ∧
    ∀ session ∈ manager.entries name, Settable session.metadata

theorem Sound.find (sound : Sound manager) (found : manager.find sessionId = some session) :
    manager.entries sessionId = [session] := by
  have member := SessionManager.mem_entries_of_find found
  obtain ⟨only, one⟩ := List.length_eq_one_iff.mp
    (le_antisymm (sound sessionId).1 (List.length_pos_of_mem member))
  rw [one] at member ⊢
  rw [List.mem_singleton.mp member]

theorem Sound.settable (sound : Sound manager) (found : manager.find sessionId = some session) :
    Settable session.metadata :=
  (sound sessionId).2 session (SessionManager.mem_entries_of_find found)

theorem Sound.insert (sound : Sound manager) (settable : Settable session.metadata) :
    Sound (manager.insert sessionId session) := by
  intro name
  by_cases same : name = sessionId
  · subst same
    rw [SessionManager.entries_insert]
    refine ⟨Nat.le_refl 1, fun other member => ?_⟩
    rw [List.mem_singleton.mp member]
    exact settable
  · rw [SessionManager.entries_insert_other _ _ same]
    exact sound name

theorem Sound.filter (sound : Sound manager) (keep : Bytes × SessionData → Bool) :
    Sound { manager with sessions := manager.sessions.filter keep } := by
  intro name
  have kept : (({ manager with sessions := manager.sessions.filter keep } :
      SessionManager).entries name).Sublist (manager.entries name) :=
    (List.filter_sublist.filter _).map _
  exact ⟨kept.length_le.trans (sound name).1,
    fun session member => (sound name).2 session (kept.subset member)⟩

theorem Sound.touchSession (sound : Sound manager) (now : Int) (sessionId : Bytes) :
    Sound (manager.touchSession now sessionId).2 := by
  unfold SessionManager.touchSession
  split
  · exact sound
  · split
    · exact sound
    · rename_i session found
      have settable := sound.settable found
      exact sound.insert settable

theorem Sound.setSessionMetadata (sound : Sound manager) (now : Int) (sessionId key : Bytes)
    (value : Json) : Sound (manager.setSessionMetadata now sessionId key value).2 := by
  unfold SessionManager.setSessionMetadata
  split
  · exact sound
  · split
    · exact sound
    · split
      · exact sound
      · rename_i metadata written
        exact sound.insert (settable_set written)

theorem Sound.registerSession (sound : Sound manager) (now : Int) (sessionId clientInfo : Bytes) :
    Sound (manager.registerSession now sessionId clientInfo).2 := by
  obtain ⟨room, swept, result⟩ := manager.registerSession_cases now sessionId clientInfo
  have kept : Sound room := by
    obtain rfl | rfl := swept
    · exact sound
    · exact sound.filter _
  obtain refused | ⟨session, stored, made⟩ := result
  · rw [refused]
    exact kept
  · rw [stored]
    obtain rfl | ⟨old, found, rfl⟩ := made
    · exact kept.insert settable_null
    · have settable := sound.settable found
      exact kept.insert settable

theorem Sound.unregisterSession (sound : Sound manager) (sessionId : Bytes) :
    Sound (manager.unregisterSession sessionId).2 := by
  unfold SessionManager.unregisterSession
  split
  · exact sound
  · exact sound.filter _

theorem Sound.saveUpdate (sound : Sound manager) (now : Int) (sessionId : Bytes) (data : Json)
    (stored : Option Bool) : Sound (saveUpdate now sessionId data stored manager).2 := by
  cases stored with
  | none => exact sound
  | some success => exact sound.setSessionMetadata now sessionId _ data

theorem Sound.storeProgress (sound : Sound manager) (codec : JsonCodec) (chunkedTransfer : Bool)
    (first second : Int) (sessionId : Bytes) (progress : ProgressUpdate) (timestamp : Int) :
    Sound (storeProgress codec chunkedTransfer first second sessionId progress timestamp manager).2 := by
  unfold McpHandle.storeProgress
  split
  · exact (sound.setSessionMetadata first sessionId _ _).saveUpdate second sessionId _ _
  · exact sound

theorem Sound.perform (sound : Sound manager) (codec : JsonCodec) (now : Int)
    (operation : Operation) : Sound (operation.perform codec now manager).2 := by
  cases operation with
  | getSession sessionId | getSessionMetadata sessionId key => exact sound
  | touchSession sessionId => exact sound.touchSession now sessionId
  | setSessionMetadata sessionId key value => exact sound.setSessionMetadata now sessionId key value
  | registerSession sessionId clientInfo => exact sound.registerSession now sessionId clientInfo
  | unregisterSession sessionId => exact sound.unregisterSession sessionId
  | cleanupExpiredSessions => exact sound.filter _
  | clearAllSessions => exact fun name => ⟨Nat.zero_le _, fun session member => nomatch member⟩
  | recordToolUsage sessionId usage =>
    simp only [Operation.perform, McpHandle.recordToolUsage]
    split
    · exact sound
    · exact sound.setSessionMetadata now sessionId _ _
  | pushProgress sessionId progress chunkedTransfer timestamp delay =>
    exact sound.storeProgress codec chunkedTransfer now (now + delay) sessionId progress timestamp

/-- The operation is about this session alone. -/
def Operation.concerns (sessionId : Bytes) : Operation → Prop
  | .getSession name | .touchSession name | .setSessionMetadata name _ _
  | .getSessionMetadata name _ | .unregisterSession name | .recordToolUsage name _
  | .pushProgress name _ _ _ _ => name = sessionId
  | _ => False

theorem perform_local {operation : Operation} (sessionId : Bytes)
    (concerns : operation.concerns sessionId) (codec : JsonCodec) (now : Int) :
    SessionManager.Local sessionId fun manager => operation.perform codec now manager := by
  cases operation with
  | getSession name =>
    obtain rfl : name = sessionId := concerns
    exact (SessionManager.getSession_local now name).map fun found => some found.isSome
  | touchSession name =>
    obtain rfl : name = sessionId := concerns
    exact (SessionManager.touchSession_local now name).map some
  | setSessionMetadata name key value =>
    obtain rfl : name = sessionId := concerns
    exact SessionManager.setSessionMetadata_local now name key value
  | getSessionMetadata name key =>
    obtain rfl : name = sessionId := concerns
    exact (SessionManager.getSessionMetadata_local name key).map fun value =>
      some (decide (value ≠ .null))
  | unregisterSession name =>
    obtain rfl : name = sessionId := concerns
    exact (SessionManager.unregisterSession_local name).map some
  | recordToolUsage name usage =>
    obtain rfl : name = sessionId := concerns
    exact recordToolUsage_local now name usage
  | pushProgress name progress chunkedTransfer timestamp delay =>
    obtain rfl : name = sessionId := concerns
    exact storeProgress_local codec chunkedTransfer now (now + delay) name progress timestamp
  | registerSession | cleanupExpiredSessions | clearAllSessions => exact concerns.elim

/-- The operations that refresh this session. -/
inductive Refresh (sessionId : Bytes) : Operation → Prop
  | touchSession : Refresh sessionId (.touchSession sessionId)
  | setSessionMetadata (key : Bytes) (value : Json) :
      Refresh sessionId (.setSessionMetadata sessionId key value)
  | recordToolUsage (usage : Usage) : Refresh sessionId (.recordToolUsage sessionId usage)
  | pushProgress (progress : ProgressUpdate) (chunkedTransfer : Bool) (timestamp : Int) (delay : Nat) :
      Refresh sessionId (.pushProgress sessionId progress chunkedTransfer timestamp delay)

theorem refresh_of_refreshes {operation : Operation} (refreshes : operation.refreshes sessionId = true) :
    Refresh sessionId operation := by
  cases operation with
  | touchSession name | setSessionMetadata name | recordToolUsage name | pushProgress name =>
    obtain rfl : name = sessionId := by simpa [Operation.refreshes] using refreshes
    constructor
  | _ => cases refreshes

theorem setSessionMetadata_found (named : sessionId ≠ []) (found : manager.find sessionId = some session)
    (settable : Settable session.metadata) (now : Int) (key : Bytes) (value : Json) :
    ∃ changed, Settable changed.metadata ∧ manager.setSessionMetadata now sessionId key value =
      (some true, manager.insert sessionId changed) := by
  obtain ⟨metadata, written⟩ := settable key value
  refine ⟨{ session with metadata }.touch now, settable_set written, ?_⟩
  simp only [SessionManager.setSessionMetadata, if_neg named, found, written]

theorem setSessionMetadata_absent (absent : manager.find sessionId = none) (now : Int) (key : Bytes)
    (value : Json) : manager.setSessionMetadata now sessionId key value = (some false, manager) := by
  simp only [SessionManager.setSessionMetadata, absent, ite_self]

theorem perform_found {operation : Operation} (sound : Sound manager) (named : sessionId ≠ [])
    (found : manager.find sessionId = some session)
    (refreshes : operation.refreshes sessionId = true) (proceeds : operation.proceeds codec = true)
    (now : Int) : (operation.perform codec now manager).1 = some true := by
  have settable := sound.settable found
  cases refresh_of_refreshes refreshes with
  | touchSession => simp [Operation.perform, SessionManager.touchSession, named, found]
  | setSessionMetadata key value =>
    obtain ⟨changed, -, stored⟩ := setSessionMetadata_found named found settable now key value
    simp only [Operation.perform, stored]
  | recordToolUsage usage =>
    simp only [Operation.perform, McpHandle.recordToolUsage, if_neg named]
    obtain ⟨changed, -, stored⟩ := setSessionMetadata_found named found settable now
      SessionCalls.historyKey (.array (SessionCalls.pushRecord (SessionCalls.historyOf
        (manager.getSessionMetadata sessionId SessionCalls.historyKey)) usage.record))
    rw [stored]
  | pushProgress progress chunkedTransfer timestamp delay =>
    simp only [Operation.proceeds] at proceeds
    obtain ⟨changed, kept, stored⟩ := setSessionMetadata_found named found settable now
      progressHistoryKey (.array (pushProgressData (SessionCalls.historyOf
        (manager.getSessionMetadata sessionId progressHistoryKey)) (progressData progress timestamp)))
    obtain ⟨again, -, latest⟩ := setSessionMetadata_found named
      (SessionManager.find_insert manager sessionId changed) kept (now + delay) progressUpdateKey
      (progressData progress timestamp)
    simp only [Operation.perform, storeProgress, proceeds, if_true, saveProgress, stored, saveUpdate,
      latest]

theorem perform_absent {operation : Operation} (absent : manager.find sessionId = none)
    (refreshes : operation.refreshes sessionId = true) (codec : JsonCodec) (now : Int) :
    (operation.perform codec now manager).1 ≠ some true ∧
      (operation.perform codec now manager).2 = manager := by
  cases refresh_of_refreshes refreshes with
  | touchSession => simp [Operation.perform, SessionManager.touchSession, absent]
  | setSessionMetadata key value => simp [Operation.perform, setSessionMetadata_absent absent]
  | recordToolUsage usage =>
    simp [Operation.perform, McpHandle.recordToolUsage, setSessionMetadata_absent absent]
  | pushProgress progress chunkedTransfer timestamp delay =>
    simp only [Operation.perform, storeProgress]
    split
    · simp [saveProgress, saveUpdate, setSessionMetadata_absent absent]
    · simp

theorem perform_stopped {operation : Operation} (stopped : operation.proceeds codec = false)
    (now : Int) : operation.perform codec now manager = (none, manager) := by
  cases operation with
  | pushProgress name progress chunkedTransfer timestamp delay =>
    simp only [Operation.proceeds] at stopped
    simp [Operation.perform, storeProgress, stopped]
  | _ => cases stopped

theorem perform_sublist {operation : Operation} (refreshes : operation.refreshes sessionId = false)
    (unregistered : operation.registers sessionId = true →
      (operation.perform codec now manager).1 ≠ some true) :
    ((operation.perform codec now manager).2.entries sessionId).Sublist (manager.entries sessionId) := by
  have swept : ((manager.cleanupExpiredSessions now).entries sessionId).Sublist
      (manager.entries sessionId) := by
    rw [SessionManager.entries_cleanup]
    exact List.filter_sublist
  have of_frame {one two : List SessionData} (same : one = two) : one.Sublist two :=
    same ▸ List.Sublist.refl one
  cases operation with
  | getSession | getSessionMetadata => exact List.Sublist.refl _
  | touchSession name | setSessionMetadata name | recordToolUsage name | pushProgress name =>
    have apart : sessionId ≠ name := by simpa [Operation.refreshes, eq_comm] using refreshes
    refine of_frame ((perform_local name ?_ codec now).frame manager sessionId apart)
    rfl
  | unregisterSession name =>
    simp only [Operation.perform, SessionManager.unregisterSession]
    split
    · exact List.Sublist.refl _
    · exact (List.filter_sublist.filter _).map _
  | cleanupExpiredSessions => exact swept
  | clearAllSessions => exact List.nil_sublist _
  | registerSession name clientInfo =>
    obtain ⟨room, made, result⟩ := manager.registerSession_cases now name clientInfo
    have kept : (room.entries sessionId).Sublist (manager.entries sessionId) := by
      obtain rfl | rfl := made
      · exact List.Sublist.refl _
      · exact swept
    obtain refused | ⟨session, stored, -⟩ := result
    · rw [Operation.perform, refused]
      exact kept
    · have apart : sessionId ≠ name := by
        rintro rfl
        exact unregistered (by simp [Operation.registers]) (by simp [Operation.perform, stored])
      simp only [Operation.perform, stored]
      exact (of_frame (SessionManager.entries_insert_other room session apart)).trans kept

/-- What a run keeps: an expired session, where it still is stored, is too old for good. -/
structure Aged (sessionId : Bytes) (watch : Watch) : Prop where
  sound : Sound watch.manager
  named : watch.expired = true → sessionId ≠ []
  aged : watch.expired = true → ∀ session ∈ watch.manager.entries sessionId,
    session.isExpired watch.clock watch.manager.timeoutSeconds = true

theorem Aged.absent {watch : Watch} (aged : Aged sessionId watch) (expired : watch.expired = true)
    {later : Int} (passed : watch.clock ≤ later) : watch.manager.getSession later sessionId = none := by
  simp only [SessionManager.getSession, if_neg (aged.named expired)]
  cases found : watch.manager.find sessionId with
  | none => rfl
  | some session =>
    have old := aged.aged expired session (SessionManager.mem_entries_of_find found)
    simp only [isExpired_mono old passed, if_true]

theorem perform_timeout (codec : JsonCodec) (now : Int) (manager : SessionManager)
    (operation : Operation) :
    (operation.perform codec now manager).2.timeoutSeconds = manager.timeoutSeconds := by
  cases operation with
  | getSession name | touchSession name | setSessionMetadata name | getSessionMetadata name
  | unregisterSession name | recordToolUsage name | pushProgress name =>
    refine (perform_local name ?_ codec now).timeout manager
    rfl
  | cleanupExpiredSessions | clearAllSessions => rfl
  | registerSession name clientInfo =>
    obtain ⟨room, made, result⟩ := manager.registerSession_cases now name clientInfo
    have kept : room.timeoutSeconds = manager.timeoutSeconds := by
      obtain rfl | rfl := made
      · rfl
      · rfl
    obtain refused | ⟨session, stored, -⟩ := result
    · rw [Operation.perform, refused]
      exact kept
    · rw [Operation.perform, stored]
      exact kept

variable {before after : Watch} {event : Event}

theorem Watch.next_shape (stepped : before.next codec sessionId event = some after) :
    before.clock ≤ event.now ∧
      after.manager = (event.operation.perform codec event.now before.manager).2 ∧
      after.clock = event.now + event.operation.duration ∧
      after.expired = (event.operation.findsExpired sessionId event.now before.manager ||
        (before.expired && !(event.operation.registers sessionId &&
          (event.operation.perform codec event.now before.manager).1 = some true))) := by
  unfold Watch.next at stepped
  split at stepped
  · cases stepped
  · rename_i ordered
    cases stepped
    exact ⟨not_lt.mp ordered, rfl, rfl, rfl⟩

/-- The `getSession` that finds the session too old leaves it as it is. -/
theorem findsExpired_aged {operation : Operation} (codec : JsonCodec) (sound : Sound manager)
    (found : operation.findsExpired sessionId now manager = true) :
    sessionId ≠ [] ∧ (operation.perform codec now manager).2 = manager ∧
      ∀ session ∈ manager.entries sessionId,
        session.isExpired now manager.timeoutSeconds = true := by
  cases operation with
  | getSession name =>
    simp only [Operation.findsExpired, Bool.and_eq_true, decide_eq_true_eq, Option.any_eq_true] at found
    obtain ⟨⟨rfl, named⟩, session, stored, old⟩ := found
    refine ⟨named, rfl, fun other member => ?_⟩
    rw [sound.find stored, List.mem_singleton] at member
    rw [member]
    exact old
  | _ => cases found

theorem Aged.next (aged : Aged sessionId before)
    (stepped : before.next codec sessionId event = some after)
    (removed : before.Removed codec sessionId event after) : Aged sessionId after := by
  obtain ⟨ordered, manager, clock, expired⟩ := Watch.next_shape stepped
  have ends : event.now ≤ after.clock := by omega
  have timeout := perform_timeout codec event.now before.manager event.operation
  have sound : Sound after.manager := manager ▸ aged.sound.perform codec event.now event.operation
  cases found : event.operation.findsExpired sessionId event.now before.manager with
  | true =>
    obtain ⟨named, unchanged, old⟩ := findsExpired_aged codec aged.sound found
    refine ⟨sound, fun _ => named, fun _ session member => ?_⟩
    rw [manager, unchanged] at member ⊢
    exact isExpired_mono (old session member) ends
  | false =>
    rw [found, Bool.false_or] at expired
    refine ⟨sound, fun still => aged.named ?_, fun still session member => ?_⟩
    · rw [expired, Bool.and_eq_true] at still
      exact still.1
    rw [expired, Bool.and_eq_true] at still
    obtain ⟨was, unregistered⟩ := still
    -- no entry under the id is new, so the session is one that was too old already
    have kept : session ∈ before.manager.entries sessionId := by
      rw [manager] at member
      cases refreshing : event.operation.refreshes sessionId with
      | false =>
        refine (perform_sublist refreshing fun registers succeeded => ?_).subset member
        simp [registers, succeeded] at unregistered
      | true =>
        cases proceeding : event.operation.proceeds codec with
        | false => rwa [perform_stopped proceeding] at member
        | true =>
          have absent := removed was refreshing proceeding
          rwa [(perform_absent absent refreshing codec event.now).2] at member
    rw [manager, timeout]
    exact isExpired_mono (aged.aged was session kept) (ordered.trans ends)

theorem removed_iff_staysExpired (aged : Aged sessionId before)
    (stepped : before.next codec sessionId event = some after) :
    before.Removed codec sessionId event after ↔ before.StaysExpired codec sessionId event after := by
  constructor
  · intro removed
    refine ⟨fun was refreshing => ?_, fun expired later passed => ?_⟩
    · cases proceeding : event.operation.proceeds codec with
      | false =>
        simp [perform_stopped proceeding]
      | true => exact (perform_absent (removed was refreshing proceeding) refreshing codec event.now).1
    · exact (aged.next stepped removed).absent expired passed
  · intro stays was refreshing proceeding
    by_contra present
    obtain ⟨session, found⟩ := Option.ne_none_iff_exists'.mp present
    exact stays.refused was refreshing
      (perform_found aged.sound (aged.named was) found refreshing proceeding event.now)

theorem aged_initial (sessionId : Bytes) (timeoutSeconds : Int) (maxSessions : Nat) (clock : Int) :
    Aged sessionId (.initial timeoutSeconds maxSessions clock) where
  sound _ := ⟨Nat.zero_le _, fun _ member => nomatch member⟩
  named expired := nomatch expired
  aged expired := nomatch expired

/-- The operations leave an expired session expired exactly if those that would refresh it
come after its removal. -/
theorem staysExpired_iff (codec : JsonCodec) (sessionId : Bytes) (timeoutSeconds : Int)
    (maxSessions : Nat) (clock : Int) (events : List Event) :
    Transition.Along (Watch.next codec sessionId) (Watch.StaysExpired codec sessionId)
        (.initial timeoutSeconds maxSessions clock) events ↔
      Transition.Along (Watch.next codec sessionId) (Watch.Removed codec sessionId)
        (.initial timeoutSeconds maxSessions clock) events := by
  refine (Transition.along_iff (Aged sessionId) (aged_initial sessionId timeoutSeconds maxSessions clock)
    ?_ ?_ events).symm
  · exact fun before event after aged stepped removed => aged.next stepped removed
  · exact fun before event after aged stepped => removed_iff_staysExpired aged stepped

/-- Registered, found too old an hour later, and touched before any cleanup. -/
def touchedTooLate : List Event :=
  [⟨0, .registerSession [1] []⟩, ⟨3601000000000, .getSession [1]⟩, ⟨3601000000000, .touchSession [1]⟩]

theorem expired_session_touched :
    ¬ ∀ (codec : JsonCodec) (sessionId : Bytes) (timeoutSeconds : Int) (maxSessions : Nat)
      (clock : Int) (events : List Event),
        Transition.Along (Watch.next codec sessionId) (Watch.StaysExpired codec sessionId)
          (.initial timeoutSeconds maxSessions clock) events := by
  intro expires
  have run := expires (.ofValues [] ⟨List.nodup_nil, by decide, by decide⟩) [1] 3600 10000 0 touchedTooLate
  obtain ⟨-, run⟩ := run _ rfl
  obtain ⟨-, run⟩ := run _ rfl
  obtain ⟨stays, -⟩ := run _ rfl
  exact stays.refused (by decide) (by decide) (by decide)

theorem cleanup_removes {watch : Watch} (aged : Aged sessionId watch) (expired : watch.expired = true)
    (passed : watch.clock ≤ now) :
    (watch.manager.cleanupExpiredSessions now).find sessionId = none := by
  rw [SessionManager.find_eq_head, SessionManager.entries_cleanup, List.head?_eq_none_iff,
    List.filter_eq_nil_iff]
  intro session member
  simpa using isExpired_mono (aged.aged expired session member) passed

end Hku.SessionExpiry
