import HkuRest.Core.Noninterference
import HkuRest.Mcp.SessionGate
import HkuRest.Mcp.ToolMethods

/-! When expired sessions are swept out does not matter. The cleanup timer, and the cleanup of a
`registerSession` that finds the table full, remove only what the gate refuses anyway: the replies
of a service are the same whenever sweeps happen, and the same as if none did. -/

namespace Hku.SessionSweeps

open McpHandle
open McpService (Registry UserMethod MethodRun)
open SessionManager (SameAt)

variable {manager other : SessionManager} {sessionId name : Bytes} {session : SessionData}
  {now later : Int}

/-- `std::map` has one session at most under an id. -/
def Single (manager : SessionManager) : Prop := ∀ name, (manager.entries name).length ≤ 1

/-- The sessions under an id that are not expired. -/
def fresh (now : Int) (manager : SessionManager) (name : Bytes) : List SessionData :=
  (manager.entries name).filter fun session => !session.isExpired now manager.timeoutSeconds

/-- The managers hold the same sessions that are not expired, whatever else they still hold. -/
structure Alike (now : Int) (manager other : SessionManager) : Prop where
  timeout : manager.timeoutSeconds = other.timeoutSeconds
  limit : manager.maxSessions = other.maxSessions
  fresh : ∀ name, fresh now manager name = fresh now other name
  left : Single manager
  right : Single other

theorem isExpired_mono {timeout : Int} (ordered : now ≤ later)
    (expired : session.isExpired now timeout = true) : session.isExpired later timeout = true := by
  simp only [SessionData.isExpired, decide_eq_true_eq] at expired ⊢
  exact expired.trans_le (Int.tdiv_le_tdiv (by decide) (by omega))

theorem fresh_later (ordered : now ≤ later) (manager : SessionManager) (name : Bytes) :
    fresh later manager name =
      (fresh now manager name).filter fun session => !session.isExpired later manager.timeoutSeconds := by
  simp only [fresh, List.filter_filter]
  refine List.filter_congr fun session _ => ?_
  cases expired : session.isExpired now manager.timeoutSeconds with
  | false => simp
  | true => simp [isExpired_mono ordered expired]

namespace Alike

theorem refl (single : Single manager) : Alike now manager manager :=
  ⟨rfl, rfl, fun _ => rfl, single, single⟩

theorem symm (alike : Alike now manager other) : Alike now other manager :=
  ⟨alike.timeout.symm, alike.limit.symm, fun name => (alike.fresh name).symm, alike.right, alike.left⟩

theorem mono (alike : Alike now manager other) (ordered : now ≤ later) : Alike later manager other where
  timeout := alike.timeout
  limit := alike.limit
  fresh name := by
    rw [fresh_later ordered, fresh_later ordered, alike.fresh, alike.timeout]
  left := alike.left
  right := alike.right

theorem cleanup (alike : Alike now manager other) :
    Alike now (manager.cleanupExpiredSessions now) other where
  timeout := alike.timeout
  limit := alike.limit
  fresh name := by
    rw [← alike.fresh name, SessionSweeps.fresh, SessionManager.entries_cleanup, List.filter_filter]
    exact List.filter_congr fun _ _ => Bool.and_self _
  left name := by
    rw [SessionManager.entries_cleanup]
    exact (List.length_filter_le _ _).trans (alike.left name)
  right := alike.right

end Alike

theorem getSession_eq (single : Single manager) :
    manager.getSession now sessionId = if sessionId = [] then none else (fresh now manager sessionId).head? := by
  simp only [SessionManager.getSession, SessionManager.find_eq_head, fresh]
  split
  · rfl
  · rcases held : manager.entries sessionId with _ | ⟨session, _ | ⟨another, rest⟩⟩
    · rfl
    · cases expired : session.isExpired now manager.timeoutSeconds <;> simp [expired]
    · have bound := single sessionId
      rw [held] at bound
      simp at bound

theorem Alike.getSession (alike : Alike now manager other) (sessionId : Bytes) :
    manager.getSession now sessionId = other.getSession now sessionId := by
  rw [getSession_eq alike.left, getSession_eq alike.right, alike.fresh]

/-- What a call changes under its id is the same, and it changes nothing under another one. -/
theorem Alike.changed {first second : SessionManager} (alike : Alike now manager other)
    (one : first.timeoutSeconds = manager.timeoutSeconds ∧ first.maxSessions = manager.maxSessions)
    (two : second.timeoutSeconds = other.timeoutSeconds ∧ second.maxSessions = other.maxSessions)
    (here : first.entries sessionId = second.entries sessionId)
    (few : (first.entries sessionId).length ≤ 1)
    (elsewhere : ∀ name, name ≠ sessionId → first.entries name = manager.entries name ∧
      second.entries name = other.entries name) : Alike now first second where
  timeout := by rw [one.1, two.1, alike.timeout]
  limit := by rw [one.2, two.2, alike.limit]
  fresh name := by
    by_cases same : name = sessionId
    · subst same
      simp only [SessionSweeps.fresh, here, one.1, two.1, alike.timeout]
    · have unchanged := alike.fresh name
      simp only [SessionSweeps.fresh, (elsewhere name same).1, (elsewhere name same).2, one.1, two.1]
        at unchanged ⊢
      exact unchanged
  left name := by
    by_cases same : name = sessionId
    · exact same ▸ few
    · rw [(elsewhere name same).1]
      exact alike.left name
  right name := by
    by_cases same : name = sessionId
    · rw [same, ← here]
      exact few
    · rw [(elsewhere name same).2]
      exact alike.right name

theorem Alike.insert (alike : Alike now manager other) (sessionId : Bytes) (session : SessionData) :
    Alike now (manager.insert sessionId session) (other.insert sessionId session) :=
  alike.changed ⟨rfl, rfl⟩ ⟨rfl, rfl⟩ (by simp) (by simp) fun _ apart =>
    ⟨SessionManager.entries_insert_other _ _ apart, SessionManager.entries_insert_other _ _ apart⟩

theorem count_entry (sessions : List (Bytes × SessionData)) (name : Bytes) (session : SessionData) :
    sessions.count (name, session) =
      ((sessions.filter fun entry => entry.1 = name).map Prod.snd).count session := by
  induction sessions with
  | nil => rfl
  | cons entry rest ih =>
    obtain ⟨held, data⟩ := entry
    by_cases same : held = name
    · subst same
      simp [List.count_cons, ih]
    · simp [ih, same]

theorem Alike.length_swept (alike : Alike now manager other) :
    (manager.cleanupExpiredSessions now).sessions.length =
      (other.cleanupExpiredSessions now).sessions.length := by
  refine (List.perm_iff_count.mpr fun entry => ?_).length_eq
  obtain ⟨name, session⟩ := entry
  have swept := alike.fresh name
  rw [SessionSweeps.fresh, SessionSweeps.fresh, ← SessionManager.entries_cleanup, ← SessionManager.entries_cleanup] at swept
  rw [count_entry, count_entry]
  exact congrArg (List.count session) swept

/-- A new session is registered exactly if there is room for it without the expired ones. -/
theorem registerSession_new (now : Int) (named : sessionId ≠ []) (absent : manager.entries sessionId = [])
    (clientInfo : Bytes) :
    ∃ room, (room = manager ∨ room = manager.cleanupExpiredSessions now) ∧
      manager.registerSession now sessionId clientInfo =
        if (manager.cleanupExpiredSessions now).sessions.length < manager.maxSessions
        then (true, room.insert sessionId (.create now sessionId clientInfo)) else (false, room) := by
  have missing : manager.find sessionId = none := by
    rw [SessionManager.find_eq_head, absent]
    rfl
  have fewer : (manager.cleanupExpiredSessions now).sessions.length ≤ manager.sessions.length :=
    List.length_filter_le _ _
  have limit : (manager.cleanupExpiredSessions now).maxSessions = manager.maxSessions := rfl
  by_cases room : manager.sessions.length < manager.maxSessions
  · refine ⟨manager, .inl rfl, ?_⟩
    simp only [SessionManager.registerSession, if_neg named, missing, if_pos room,
      if_pos (fewer.trans_lt room)]
  · refine ⟨_, .inr rfl, ?_⟩
    simp only [SessionManager.registerSession, if_neg named, missing, if_neg room, limit]

theorem Alike.registerSession (alike : Alike now manager other)
    (absent : manager.entries sessionId = []) (missing : other.entries sessionId = [])
    (clientInfo : Bytes) :
    (manager.registerSession now sessionId clientInfo).1 =
        (other.registerSession now sessionId clientInfo).1 ∧
      Alike now (manager.registerSession now sessionId clientInfo).2
        (other.registerSession now sessionId clientInfo).2 ∧
      ((manager.registerSession now sessionId clientInfo).1 = true →
        SameAt sessionId (manager.registerSession now sessionId clientInfo).2
          (other.registerSession now sessionId clientInfo).2) := by
  by_cases named : sessionId = []
  · simp only [SessionManager.registerSession, if_pos named, true_and]
    exact ⟨alike, by simp⟩
  obtain ⟨first, oneOf, one⟩ := registerSession_new now named absent clientInfo
  obtain ⟨second, twoOf, two⟩ := registerSession_new now named missing clientInfo
  have rooms : Alike now first second := by
    have left : Alike now first other := by
      rcases oneOf with rfl | rfl
      · exact alike
      · exact alike.cleanup
    rcases twoOf with rfl | rfl
    · exact left
    · exact left.symm.cleanup.symm
  rw [one, two, alike.length_swept, alike.limit]
  split
  · exact ⟨rfl, rooms.insert _ _, fun _ => ⟨rooms.timeout, by simp⟩⟩
  · exact ⟨rfl, rooms, by simp⟩

theorem touchSession_live (live : manager.getSession now sessionId = some session) :
    (manager.touchSession now sessionId).2 = manager.insert sessionId (session.touch now) := by
  have named : sessionId ≠ [] := by
    rintro rfl
    simp [SessionManager.getSession] at live
  simp only [SessionManager.touchSession, if_neg named, (SessionManager.find_of_getSession live).1]

/-- The gate decides alike, and what it lets through is then the same session. -/
structure Opens (visit : Visit) (other : SessionManager) (method sessionHeader : Bytes) : Prop where
  verdict : (openSession visit method sessionHeader).1 =
    (openSession { visit with sessions := other } method sessionHeader).1
  alike : Alike visit.now (openSession visit method sessionHeader).2
    (openSession { visit with sessions := other } method sessionHeader).2
  same : ∀ sessionId headers, (openSession visit method sessionHeader).1 = .ok (sessionId, headers) →
    SameAt sessionId (openSession visit method sessionHeader).2
      (openSession { visit with sessions := other } method sessionHeader).2

theorem Opens.of_eq {visit : Visit} {method sessionHeader : Bytes}
    {verdict : Except Int (Bytes × List HandleCall)} {sessions others : SessionManager}
    (opened : openSession visit method sessionHeader = (verdict, sessions))
    (openedOther : openSession { visit with sessions := other } method sessionHeader =
      (verdict, others)) (alike : Alike visit.now sessions others)
    (same : ∀ sessionId headers, verdict = .ok (sessionId, headers) →
      SameAt sessionId sessions others) : Opens visit other method sessionHeader where
  verdict := by rw [opened, openedOther]
  alike := by rwa [opened, openedOther]
  same := by rwa [opened, openedOther]

theorem Alike.touch (alike : Alike now manager other)
    (live : (manager.getSession now sessionId).isSome = true) :
    Alike now (manager.touchSession now sessionId).2 (other.touchSession now sessionId).2 ∧
      SameAt sessionId (manager.touchSession now sessionId).2 (other.touchSession now sessionId).2 := by
  obtain ⟨session, found⟩ := Option.isSome_iff_exists.mp live
  rw [touchSession_live found, touchSession_live (alike.getSession sessionId ▸ found)]
  exact ⟨alike.insert _ _, ⟨alike.timeout, by simp⟩⟩

theorem openSession_opens {visit : Visit} (alike : Alike visit.now visit.sessions other)
    (method sessionHeader : Bytes)
    (unused : method = Bytes.ascii "initialize" → sessionHeader = [] →
      visit.sessions.entries visit.generatedId = [] ∧ other.entries visit.generatedId = []) :
    Opens visit other method sessionHeader := by
  by_cases absent : sessionHeader = []
  · subst absent
    by_cases initializes : method = Bytes.ascii "initialize"
    · subst initializes
      obtain ⟨one, two⟩ := unused rfl rfl
      obtain ⟨alikeVerdict, later, stored⟩ := alike.registerSession one two visit.clientIp
      rcases registered : visit.sessions.registerSession visit.now visit.generatedId visit.clientIp
        with ⟨verdict, sessions⟩
      rcases registeredOther : other.registerSession visit.now visit.generatedId visit.clientIp
        with ⟨verdictOther, others⟩
      rw [registered, registeredOther] at alikeVerdict later stored
      obtain rfl : verdict = verdictOther := alikeVerdict
      cases verdict with
      | false => exact .of_eq (openSession_full registered) (openSession_full registeredOther) later nofun
      | true =>
        refine .of_eq (openSession_granted registered) (openSession_granted registeredOther) later ?_
        intro sessionId headers granted
        cases granted
        exact stored rfl
    · exact .of_eq (openSession_missing visit initializes) (openSession_missing _ initializes) alike nofun
  · have seen := alike.getSession sessionHeader
    cases live : (visit.sessions.getSession visit.now sessionHeader).isSome with
    | false =>
      exact .of_eq (openSession_expired method absent live)
        (openSession_expired method absent (seen ▸ live)) alike nofun
    | true =>
      obtain ⟨later, same⟩ := alike.touch live
      refine .of_eq (openSession_live method absent live)
        (openSession_live method absent (seen ▸ live)) later ?_
      intro sessionId headers granted
      cases granted
      exact same

/-- A call that works under one id, and adds no session there. -/
structure Keeping {α : Type} (sessionId : Bytes) (call : SessionManager → α × SessionManager) : Prop
    extends SessionManager.Local sessionId call where
  limit : ∀ manager, (call manager).2.maxSessions = manager.maxSessions
  fewer : ∀ manager, ((call manager).2.entries sessionId).length ≤ (manager.entries sessionId).length

theorem insert_fewer (found : manager.find sessionId = some session) (changed : SessionData) :
    ((manager.insert sessionId changed).entries sessionId).length ≤
      (manager.entries sessionId).length := by
  rw [SessionManager.entries_insert]
  exact List.length_pos_of_mem (SessionManager.mem_entries_of_find found)

namespace Keeping

variable {α β : Type} {call : SessionManager → α × SessionManager}

theorem reading (read : SessionManager → α)
    (answer : ∀ manager other, SameAt sessionId manager other → read manager = read other) :
    Keeping sessionId fun manager => (read manager, manager) where
  toLocal := .reading read answer
  limit _ := rfl
  fewer _ := le_rfl

theorem map (keeping : Keeping sessionId call) (f : α → β) :
    Keeping sessionId fun manager => (f (call manager).1, (call manager).2) where
  toLocal := keeping.toLocal.map f
  limit := keeping.limit
  fewer := keeping.fewer

theorem andThen {next : α → SessionManager → β × SessionManager} (first : Keeping sessionId call)
    (second : ∀ answer, Keeping sessionId (next answer)) :
    Keeping sessionId fun manager => next (call manager).1 (call manager).2 where
  toLocal := first.toLocal.andThen fun answer => (second answer).toLocal
  limit manager := by rw [(second _).limit, first.limit]
  fewer manager := ((second _).fewer _).trans (first.fewer manager)

theorem alike (keeping : Keeping sessionId call) (alike : Alike now manager other)
    (same : SameAt sessionId manager other) : Alike now (call manager).2 (call other).2 :=
  alike.changed ⟨keeping.timeout _, keeping.limit _⟩ ⟨keeping.timeout _, keeping.limit _⟩
    (keeping.entries _ _ same) ((keeping.fewer _).trans (alike.left sessionId))
    fun name apart => ⟨keeping.frame _ name apart, keeping.frame _ name apart⟩

end Keeping

theorem touchSession_keeping (now : Int) (sessionId : Bytes) :
    Keeping sessionId (SessionManager.touchSession now sessionId) where
  toLocal := SessionManager.touchSession_local now sessionId
  limit manager := by
    unfold SessionManager.touchSession
    split
    · rfl
    · split <;> rfl
  fewer manager := by
    unfold SessionManager.touchSession
    split
    · exact le_rfl
    · split
      · exact le_rfl
      · rename_i found
        exact insert_fewer found _

theorem setSessionMetadata_keeping (now : Int) (sessionId name : Bytes) (value : Json) :
    Keeping sessionId (SessionManager.setSessionMetadata now sessionId name value) where
  toLocal := SessionManager.setSessionMetadata_local now sessionId name value
  limit manager := by
    unfold SessionManager.setSessionMetadata
    split
    · rfl
    · split
      · rfl
      · split <;> rfl
  fewer manager := by
    unfold SessionManager.setSessionMetadata
    split
    · exact le_rfl
    · split
      · exact le_rfl
      · rename_i found
        split
        · exact le_rfl
        · exact insert_fewer found _

theorem unregisterSession_keeping (sessionId : Bytes) :
    Keeping sessionId (SessionManager.unregisterSession sessionId) where
  toLocal := SessionManager.unregisterSession_local sessionId
  limit manager := by
    unfold SessionManager.unregisterSession
    split <;> rfl
  fewer manager := by
    unfold SessionManager.unregisterSession
    split
    · exact le_rfl
    · rw [SessionManager.entries_removed]
      exact Nat.zero_le _

theorem getSessionMetadata_keeping (sessionId name : Bytes) :
    Keeping sessionId fun manager => (manager.getSessionMetadata sessionId name, manager) :=
  .reading _ (SessionManager.getSessionMetadata_local sessionId name).answer

theorem recordToolUsage_keeping (now : Int) (sessionId : Bytes) (usage : SessionCalls.Usage) :
    Keeping sessionId (recordToolUsage now sessionId usage) := by
  unfold recordToolUsage
  split
  · exact .reading _ fun _ _ _ => rfl
  · exact (getSessionMetadata_keeping sessionId SessionCalls.historyKey).andThen fun stored =>
      setSessionMetadata_keeping now sessionId SessionCalls.historyKey
        (.array (SessionCalls.pushRecord (SessionCalls.historyOf stored) usage.record))

/-- A method keeps to the session that it is called for. -/
def Keeps (method : UserMethod) : Prop := ∀ now params sessionId,
  Keeping sessionId fun manager =>
    (((method now params sessionId manager).pushes, (method now params sessionId manager).ending),
      (method now params sessionId manager).sessions)

namespace Keeps

theorem ofSession {call : Int → Json → Bytes → SessionManager → JsonResult × SessionManager}
    (keeping : ∀ now params sessionId, Keeping sessionId (call now params sessionId)) :
    Keeps fun now params sessionId => McpService.ofSession (call now params sessionId) :=
  fun now params sessionId => (keeping now params sessionId).map fun result =>
    (([] : List ProgressUpdate), McpService.Ending.returned result)

theorem answer (result : JsonResult) : Keeps fun _ _ _ => McpService.answer result :=
  fun _ _ _ => .reading _ fun _ _ _ => rfl

theorem ending {method : UserMethod} (keeps : Keeps method)
    (change : McpService.Ending → McpService.Ending) :
    Keeps fun now params sessionId manager =>
      { method now params sessionId manager with
        ending := change (method now params sessionId manager).ending } :=
  fun now params sessionId =>
    (keeps now params sessionId).map fun run => (run.1, change run.2)

end Keeps

/-- All that is registered keeps to its session. -/
structure RegistryKeeps (registry : Registry) : Prop where
  initializeMethod : Keeps registry.initializeMethod
  tools : ∀ entry ∈ registry.tools, Keeps entry.2
  promptReadMethod : ∀ method, registry.promptReadMethod = some method → Keeps method
  resourceReadMethod : ∀ method, registry.resourceReadMethod = some method → Keeps method

theorem defaultInitialize_keeps : Keeps Registry.create.initializeMethod := by
  refine .ofSession fun now params sessionId => ?_
  unfold McpService.defaultInitializeMethod
  cases params.find (key "clientInfo") with
  | none => exact .reading _ fun _ _ _ => rfl
  | some clientInfo =>
    exact (setSessionMetadata_keeping now sessionId _ clientInfo).map fun stored =>
      if stored.isSome then McpService.succeed McpService.initializeResult
      else McpService.fail bizJsonrpcInternalError

theorem pingMethod_keeping (now : Int) (sessionId : Bytes) :
    Keeping sessionId (McpService.pingMethod now sessionId) := by
  unfold McpService.pingMethod
  by_cases empty : sessionId = []
  · simp only [if_pos empty]
    exact .reading _ fun _ _ _ => rfl
  · simp only [if_neg empty]
    exact (touchSession_keeping now sessionId).map fun _ => McpService.succeed (.object [])

theorem sessionInfoMethod_keeping (now : Int) (sessionId : Bytes) :
    Keeping sessionId (McpService.sessionInfoMethod now sessionId) :=
  .reading _ (McpService.sessionInfoMethod_local now sessionId).answer

theorem sessionMetadataMethod_keeping (now : Int) (params : Json) (sessionId : Bytes) :
    Keeping sessionId (McpService.sessionMetadataMethod now params sessionId) where
  toLocal := McpService.sessionMetadataMethod_local now params sessionId
  limit manager := by
    unfold McpService.sessionMetadataMethod
    split
    · rfl
    · rfl
    · exact (setSessionMetadata_keeping now sessionId _ _).limit manager
  fewer manager := by
    unfold McpService.sessionMetadataMethod
    split
    · exact le_rfl
    · exact le_rfl
    · exact (setSessionMetadata_keeping now sessionId _ _).fewer manager

theorem unregisterSessionMethod_keeping (sessionId : Bytes) :
    Keeping sessionId (McpService.unregisterSessionMethod sessionId) :=
  (unregisterSession_keeping sessionId).map fun removed =>
    if removed then McpService.succeed (McpService.statusResult
      (Bytes.ascii "Session unregistered successfully"))
    else McpService.fail bizJsonrpcInvalidRequest

theorem readMethod_keeps {method : Option UserMethod} (missing : Int)
    (keeps : ∀ registered, method = some registered → Keeps registered) :
    Keeps (Registry.readMethod method missing) := by
  cases method with
  | none => exact .answer _
  | some registered => exact keeps registered rfl

namespace RegistryKeeps

variable {registry : Registry}

theorem create : RegistryKeeps Registry.create where
  initializeMethod := defaultInitialize_keeps
  tools := by simp [Registry.create]
  promptReadMethod := by simp [Registry.create]
  resourceReadMethod := by simp [Registry.create]

theorem addTool (keeps : RegistryKeeps registry) (name : Bytes) {method : UserMethod}
    (tool : Keeps method) : RegistryKeeps (registry.addTool name method) := by
  unfold Registry.addTool
  split
  · exact keeps
  · refine { keeps with tools := fun entry registered => ?_ }
    rcases List.mem_append.mp registered with before | added
    · exact keeps.tools entry before
    · obtain rfl := List.mem_singleton.mp added
      exact tool

theorem toolsCallMethod (keeps : RegistryKeeps registry) : Keeps registry.toolsCallMethod := by
  intro now params sessionId
  unfold Registry.toolsCallMethod
  cases params.value (key "name") [] with
  | none => exact Keeps.answer _ now params sessionId
  | some toolName =>
    cases found : registry.findTool toolName with
    | none =>
      simp only [found]
      exact Keeps.answer _ now params sessionId
    | some method =>
      simp only [found]
      obtain ⟨entry, registered, rfl⟩ := Registry.findTool_registered found
      exact (keeps.tools entry registered).ending Registry.toolEnding now _ sessionId

theorem methodOf (keeps : RegistryKeeps registry) (method : Bytes) :
    Keeps (registry.methodOf method) := by
  apply Registry.methodOf_cases
  case answers => exact .answer
  case initializes => exact keeps.initializeMethod
  case pings => exact .ofSession fun now _ => pingMethod_keeping now
  case calls => exact keeps.toolsCallMethod
  case resources => exact readMethod_keeps _ keeps.resourceReadMethod
  case prompts => exact readMethod_keeps _ keeps.promptReadMethod
  case informs => exact .ofSession fun now _ => sessionInfoMethod_keeping now
  case stores => exact .ofSession fun now => sessionMetadataMethod_keeping now
  case ends => exact fun _ => .ofSession fun _ _ => unregisterSessionMethod_keeping

theorem dispatchMethod (keeps : RegistryKeeps registry) (alike : Alike now manager other)
    (same : SameAt sessionId manager other) (method : Bytes) (params : Json) :
    (registry.dispatchMethod now method params sessionId manager).1 =
        (registry.dispatchMethod now method params sessionId other).1 ∧
      Alike now (registry.dispatchMethod now method params sessionId manager).2
        (registry.dispatchMethod now method params sessionId other).2 := by
  have keeping := keeps.methodOf method now params sessionId
  refine ⟨?_, keeping.alike alike same⟩
  obtain ⟨pushes, ending⟩ := Prod.mk.inj (keeping.answer _ _ same)
  simp only [Registry.dispatchMethod, pushes, ending]

end RegistryKeeps

/-- The service that a registry makes, with what is outside of the repository. -/
structure Setting where
  registry : Registry
  codec : JsonCodec
  bizErrMsg : Int → Bytes
  decompress : Bytes → Option Bytes

namespace Setting

def service (setting : Setting) : McpService :=
  setting.registry.service setting.codec setting.bizErrMsg setting.decompress

/-- The sessions that a request leaves, with what its method does to them. -/
def serve (setting : Setting) (visit : Visit) (request : Request) : SessionManager :=
  let passed := passage setting.service visit request
  match passed.dispatched with
  | none => passed.sessions
  | some call => (setting.registry.dispatchMethod call.visit.now call.method call.params
      call.sessionId call.visit.sessions).2

end Setting

/-- No session is stored under an id that was not issued. -/
def Known (manager : SessionManager) (issued : List Bytes) : Prop :=
  ∀ name, name ∉ issued → manager.entries name = []

theorem known_iff {issued : List Bytes} : Known manager issued ↔ ∀ id ∈ manager.ids, id ∈ issued := by
  have absent : ∀ name, manager.entries name = [] ↔ name ∉ manager.ids := by
    intro name
    simp only [SessionManager.entries, List.map_eq_nil_iff, List.filter_eq_nil_iff,
      decide_eq_true_eq, SessionManager.ids, List.mem_map, not_exists, not_and]
  simp only [Known, absent, not_imp_not]

theorem Known.keeping {α : Type} {call : SessionManager → α × SessionManager} {issued : List Bytes}
    (known : Known manager issued) (keeping : Keeping sessionId call) : Known (call manager).2 issued := by
  intro name unissued
  by_cases same : name = sessionId
  · have none := keeping.fewer manager
    rw [← same, known name unissued] at none
    exact List.eq_nil_of_length_eq_zero (Nat.le_zero.mp none)
  · rw [keeping.frame _ name same, known name unissued]

theorem Known.cleanup {issued : List Bytes} (known : Known manager issued) (now : Int) :
    Known (manager.cleanupExpiredSessions now) issued := by
  intro name unissued
  rw [SessionManager.entries_cleanup, known name unissued]
  rfl

variable {setting : Setting} {visit : Visit} {request : Request}

/-- What the gate lets through is the same call on both sides, but for the sessions. -/
inductive PassedAlike (visit : Visit) : Passage → Passage → Prop
  | ends {sessions others : SessionManager} {generated : List Bytes}
      (alike : Alike visit.now sessions others) :
      PassedAlike visit ⟨sessions, generated, none⟩ ⟨others, generated, none⟩
  | dispatches {sessions others : SessionManager} {generated : List Bytes} {sessionId : Bytes}
      (alike : Alike visit.now sessions others) (same : SameAt sessionId sessions others)
      (method : Bytes) (params id : Json) (useSse : Bool) :
      PassedAlike visit
        ⟨sessions, generated, some ⟨{ visit with sessions := sessions }, method, params, sessionId, id, useSse⟩⟩
        ⟨others, generated, some ⟨{ visit with sessions := others }, method, params, sessionId, id, useSse⟩⟩

theorem PassedAlike.generated {first second : Passage} (passed : PassedAlike visit first second) :
    first.generated = second.generated := by
  cases passed <;> rfl

theorem passage_alike (alike : Alike visit.now visit.sessions other)
    (unused : visit.sessions.entries visit.generatedId = [] ∧ other.entries visit.generatedId = [])
    (service : McpService) (request : Request) :
    PassedAlike visit (passage service visit request)
      (passage service { visit with sessions := other } request) := by
  rcases rejected_or_calls service request with ⟨code, id, rejected⟩ | ⟨json, method, calls⟩
  · rw [rejected.passage, rejected.passage]
    exact .ends alike
  obtain ⟨verdict, later, same⟩ :=
    openSession_opens alike method (extractSessionId request) fun _ _ => unused
  rcases opened : openSession visit method (extractSessionId request) with ⟨gate, sessions⟩
  rcases openedOther : openSession { visit with sessions := other } method
    (extractSessionId request) with ⟨gateOther, others⟩
  rw [opened, openedOther] at verdict later
  rw [opened, openedOther] at same
  obtain rfl : gate = gateOther := verdict
  cases gate with
  | error code =>
    rw [calls.passage_refused opened, calls.passage_refused openedOther]
    exact .ends later
  | ok session =>
    obtain ⟨sessionId, headers⟩ := session
    rw [calls.passage_opened opened, calls.passage_opened openedOther]
    by_cases runs : (enableStreaming (supportsSse request) method
      ((json.find (key "params")).getD .null)).isSome ∧ method ≠ Bytes.ascii "initialized"
    · simp only [if_pos runs]
      exact .dispatches later (same _ _ rfl) _ _ _ _
    · simp only [if_neg runs]
      exact .ends later

/-- The script of a request is the same on both sides if its method answers alike. -/
theorem run_alike (alike : Alike visit.now visit.sessions other)
    (unused : visit.sessions.entries visit.generatedId = [] ∧ other.entries visit.generatedId = [])
    (keeps : RegistryKeeps setting.registry) (body : Bytes) (request : Request) :
    run setting.service visit body request =
      run setting.service { visit with sessions := other } body request := by
  rcases rejected_or_calls setting.service request with ⟨code, id, rejected⟩ | ⟨json, method, calls⟩
  · exact (rejected.run_congr setting.service.dispatchMethod visit _ body).symm
  obtain ⟨verdict, later, same⟩ :=
    openSession_opens alike method (extractSessionId request) fun _ _ => unused
  rcases opened : openSession visit method (extractSessionId request) with ⟨gate, sessions⟩
  rcases openedOther : openSession { visit with sessions := other } method
    (extractSessionId request) with ⟨gateOther, others⟩
  rw [opened, openedOther] at verdict later
  rw [opened, openedOther] at same
  obtain rfl : gate = gateOther := verdict
  refine (calls.run_congr opened openedOther (fun sessionId headers admitted _ => ?_) body).symm
  subst admitted
  exact (keeps.dispatchMethod later (same _ _ rfl) method _).1.symm

theorem serve_alike (alike : Alike visit.now visit.sessions other)
    (unused : visit.sessions.entries visit.generatedId = [] ∧ other.entries visit.generatedId = [])
    (keeps : RegistryKeeps setting.registry) (request : Request) :
    Alike visit.now (setting.serve visit request)
      (setting.serve { visit with sessions := other } request) := by
  have passed := passage_alike alike unused setting.service request
  simp only [Setting.serve]
  generalize passage setting.service visit request = first at passed
  generalize passage setting.service { visit with sessions := other } request = second at passed
  cases passed with
  | ends later => exact later
  | dispatches later same method params => exact (keeps.dispatchMethod later same method params).2

theorem serve_known {issued : List Bytes} (known : Known visit.sessions issued)
    (single : Single visit.sessions) (unissued : visit.generatedId ∉ issued)
    (keeps : RegistryKeeps setting.registry) (request : Request) :
    Known (setting.serve visit request)
      (issued ++ (passage setting.service visit request).generated) := by
  have opened : Known (passage setting.service visit request).sessions
      (issued ++ (passage setting.service visit request).generated) := by
    refine known_iff.mpr fun id member => List.mem_append.mpr ?_
    exact (passage_ids setting.service visit request id member).imp_left (known_iff.mp known id)
  have unused := known _ unissued
  have passed := passage_alike (.refl single) ⟨unused, unused⟩ setting.service request
  simp only [Setting.serve]
  generalize passage setting.service visit request = first at opened passed ⊢
  generalize passage setting.service { visit with sessions := visit.sessions } request = second at passed
  cases passed with
  | ends => exact opened
  | @dispatches sessions others generated sessionId _ _ method params =>
    have keeping := keeps.methodOf method visit.now params sessionId
    have kept := opened.keeping keeping
    exact kept

structure State where
  sessions : SessionManager
  clock : Int
  /-- The ids that `generateSessionId` has made so far. -/
  issued : List Bytes
  replies : List Script

def State.initial (timeoutSeconds : Int) (maxSessions : Nat) (clock : Int) : State :=
  ⟨⟨timeoutSeconds, maxSessions, []⟩, clock, [], []⟩

inductive Event
  | post (now : Int) (clientIp generatedId : Bytes) (request : Request)
  | sweep (now : Int)

def Event.sweeps : Event → Bool
  | .post .. => false
  | .sweep _ => true

def State.visitAt (state : State) (now : Int) (clientIp generatedId : Bytes) : Visit :=
  ⟨now, clientIp, generatedId, state.sessions⟩

/-- The clock is not set back, and no id is made twice. -/
def Setting.next (setting : Setting) (state : State) : Event → Option State
  | .post now clientIp generatedId request =>
      if state.clock ≤ now ∧ ¬ state.issued.contains generatedId then
        let visit := state.visitAt now clientIp generatedId
        some ⟨setting.serve visit request, now,
          state.issued ++ (passage setting.service visit request).generated,
          state.replies ++ [run setting.service visit [] request]⟩
      else none
  | .sweep now =>
      if state.clock ≤ now then
        some { state with sessions := state.sessions.cleanupExpiredSessions now, clock := now }
      else none

/-- The first has swept more, so its clock may be later. -/
structure SweptAlike (state other : State) : Prop where
  clock : other.clock ≤ state.clock
  sessions : Alike state.clock state.sessions other.sessions
  issued : state.issued = other.issued
  replies : state.replies = other.replies
  left : Known state.sessions state.issued
  right : Known other.sessions other.issued

theorem next_respects {before after other : State} {event : Event} (hidden : event.sweeps = true)
    (stepped : setting.next before event = some after) (alike : SweptAlike before other) :
    SweptAlike after other := by
  cases event with
  | post now clientIp generatedId request => cases hidden
  | sweep now =>
    obtain ⟨ordered, rfl⟩ : before.clock ≤ now ∧ _ = after := by simpa [Setting.next] using stepped
    exact { clock := alike.clock.trans ordered
            sessions := (alike.sessions.mono ordered).cleanup
            issued := alike.issued
            replies := alike.replies
            left := alike.left.cleanup now
            right := alike.right }

theorem next_consistent (keeps : RegistryKeeps setting.registry) {before after other : State}
    {event : Event} (shown : event.sweeps = false)
    (stepped : setting.next before event = some after) (alike : SweptAlike before other) :
    ∃ final, setting.next other event = some final ∧ SweptAlike after final := by
  cases event with
  | sweep now => cases shown
  | post now clientIp generatedId request =>
    simp only [Setting.next, Option.ite_none_right_eq_some, Option.some.injEq] at stepped
    obtain ⟨⟨ordered, fresh⟩, rfl⟩ := stepped
    have present := alike.sessions.mono ordered
    have stillFresh : ¬ other.issued.contains generatedId := alike.issued ▸ fresh
    have unissued : generatedId ∉ before.issued := by simpa using fresh
    have stillUnissued : generatedId ∉ other.issued := by simpa using stillFresh
    have unused := And.intro (alike.left _ unissued) (alike.right _ stillUnissued)
    have passed := @passage_alike other.sessions (before.visitAt now clientIp generatedId) present
      unused setting.service request
    have served := @serve_alike other.sessions setting (before.visitAt now clientIp generatedId)
      present unused keeps request
    have replied := @run_alike other.sessions setting (before.visitAt now clientIp generatedId)
      present unused keeps [] request
    refine ⟨_, if_pos ⟨alike.clock.trans ordered, stillFresh⟩, ?_⟩
    exact { clock := le_rfl
            sessions := served
            issued := congrArg₂ (· ++ ·) alike.issued passed.generated
            replies := congrArg₂ (· ++ [·]) alike.replies replied
            left := serve_known alike.left present.left unissued keeps request
            right := serve_known alike.right present.right stillUnissued keeps request }

theorem unwinding (keeps : RegistryKeeps setting.registry) :
    Transition.Unwinding setting.next Event.sweeps SweptAlike where
  respects := next_respects
  consistent := next_consistent keeps

theorem SweptAlike.initial (timeoutSeconds : Int) (maxSessions : Nat) (clock : Int) :
    SweptAlike (.initial timeoutSeconds maxSessions clock)
      (.initial timeoutSeconds maxSessions clock) where
  clock := le_rfl
  sessions := .refl fun _ => Nat.zero_le _
  issued := rfl
  replies := rfl
  left _ _ := rfl
  right _ _ := rfl

theorem SweptAlike.getSession {state other : State} (alike : SweptAlike state other)
    (ordered : state.clock ≤ later) (sessionId : Bytes) :
    state.sessions.getSession later sessionId = other.sessions.getSession later sessionId :=
  (alike.sessions.mono ordered).getSession sessionId

theorem executeGetWeather_keeps : Keeps McpMethod.executeGetWeather := by
  intro now arguments sessionId
  unfold McpMethod.executeGetWeather
  cases arguments.value (key "location") (Bytes.ascii "Unknown") with
  | none => exact .reading _ fun _ _ _ => rfl
  | some location =>
    exact (recordToolUsage_keeping now sessionId _).map fun _ => ([], McpService.Ending.returned
      (McpService.succeed
        (.object [(key "content", McpMethod.textContent (McpMethod.weatherText location))])))

def demoCodec : JsonCodec := .ofValues McpService.callValues McpService.callValues_legible

def demoSetting : Setting :=
  ⟨Registry.create.addTool (Bytes.ascii "get_weather") McpMethod.executeGetWeather, demoCodec,
    fun _ => [], some⟩

theorem demoSetting_keeps : RegistryKeeps demoSetting.registry :=
  RegistryKeeps.create.addTool _ executeGetWeather_keeps

/-- One client stays away for an hour and more, and finds its session gone when another one has
taken the only place. -/
def demoEvents : List Event :=
  [.post 0 [] [1] (McpService.callRequest [] "initialize"),
    .post 4000000000000 [] [2] (McpService.callRequest [] "initialize"),
    .post 4000000000000 [] [3] McpService.pingRequest]

def demoSwept : List Event :=
  [.post 0 [] [1] (McpService.callRequest [] "initialize"), .sweep 60000000000,
    .sweep 3900000000000, .post 4000000000000 [] [2] (McpService.callRequest [] "initialize"),
    .post 4000000000000 [] [3] McpService.pingRequest, .sweep 8000000000000]

end Hku.SessionSweeps
