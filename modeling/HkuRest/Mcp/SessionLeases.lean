import HkuRest.Core.Leases
import HkuRest.Mcp.SessionSweeps

/-! The sessions of a service are leases. A session is granted by `initialize`, renewed by every request
that the gate lets through with its id, and given back by `session/unregister`; what other clients do,
and what is swept out when, has no part in it but for the limit on new sessions. -/

namespace Hku.SessionLeases

open McpHandle
open McpService (Registry UserMethod)
open SessionSweeps (Keeping Keeps RegistryKeeps Setting State Event Single)
open Leases

variable {manager after : SessionManager} {sessionId name method header generatedId : Bytes}
  {session : SessionData} {timeoutSeconds now later : Int} {maxSessions : Nat}
  {book : Book Bytes Int}

/-- A session lapses when it has not been used for more than so many whole seconds. -/
def idle (timeoutSeconds : Int) : Lapsing Int where
  lapsed used now := timeoutSeconds < (now - used).tdiv 1000000000
  stays := by
    intro used now later ordered lapsed
    simp only [decide_eq_true_eq] at lapsed ⊢
    exact lapsed.trans_le (Int.tdiv_le_tdiv (by decide) (by omega))

/-- When the session that is stored under an id was last active. -/
def held (manager : SessionManager) (sessionId : Bytes) : Option Int :=
  (manager.find sessionId).map SessionData.lastActive

theorem held_congr (same : after.entries name = manager.entries name) :
    held after name = held manager name := by
  rw [held, held, SessionManager.find_eq_head, SessionManager.find_eq_head, same]

theorem held_insert (manager : SessionManager) (sessionId : Bytes) (session : SessionData) :
    held (manager.insert sessionId session) =
      Function.update (held manager) sessionId (some session.lastActive) := by
  funext name
  by_cases same : name = sessionId
  · subst same
    simp [held]
  · rw [Function.update_of_ne same]
    exact held_congr (SessionManager.entries_insert_other _ _ same)

theorem held_unregister (manager : SessionManager) (sessionId : Bytes) :
    held (manager.unregisterSession sessionId).2 = Function.update (held manager) sessionId none := by
  funext name
  cases found : manager.find sessionId with
  | none =>
    simp only [SessionManager.unregisterSession, found]
    by_cases same : name = sessionId
    · subst same
      simp [held, found]
    · rw [Function.update_of_ne same]
  | some session =>
    simp only [SessionManager.unregisterSession, found]
    by_cases same : name = sessionId
    · subst same
      rw [Function.update_self, held, SessionManager.find_eq_head, SessionManager.entries_removed]
      rfl
    · rw [Function.update_of_ne same]
      exact held_congr (SessionManager.entries_removed_other _ same)

theorem held_cleanup (single : Single manager) (name : Bytes) :
    held (manager.cleanupExpiredSessions now) name = held manager name ∨
      held (manager.cleanupExpiredSessions now) name = none ∧ ∀ used, held manager name = some used →
        (idle manager.timeoutSeconds).lapsed used now = true := by
  have swept := SessionManager.entries_cleanup now manager name
  simp only [held, SessionManager.find_eq_head, swept]
  rcases stored : manager.entries name with _ | ⟨session, _ | ⟨another, rest⟩⟩
  · exact .inl rfl
  · cases expired : session.isExpired now manager.timeoutSeconds with
    | false => simp [expired]
    | true =>
      right
      have lapsed : (idle manager.timeoutSeconds).lapsed session.lastActive now = true := expired
      simp [expired, lapsed]
  · have bound := single name
    rw [stored] at bound
    simp at bound

theorem getSession_held (named : sessionId ≠ []) (now : Int) (manager : SessionManager) :
    (manager.getSession now sessionId).isSome =
      (held manager sessionId).any fun used => !(idle manager.timeoutSeconds).lapsed used now := by
  simp only [SessionManager.getSession, if_neg named, held]
  cases manager.find sessionId with
  | none => rfl
  | some session =>
    have same : (idle manager.timeoutSeconds).lapsed session.lastActive now =
      session.isExpired now manager.timeoutSeconds := rfl
    cases expired : session.isExpired now manager.timeoutSeconds <;> simp [same, expired]

theorem mem_ids (manager : SessionManager) (name : Bytes) :
    name ∈ manager.ids ↔ (held manager name).isSome = true := by
  simp [SessionManager.ids, held, SessionManager.find]

theorem ids_nodup (single : Single manager) : manager.ids.Nodup := by
  refine List.nodup_iff_count_le_one.mpr fun name => ?_
  have listed : manager.ids.count name = (manager.entries name).length := by
    rw [SessionManager.ids, List.count_eq_length_filter, List.filter_map, List.length_map,
      SessionManager.entries, List.length_map]
    exact congrArg List.length (List.filter_congr fun entry _ => beq_eq_decide entry.1 name)
  rw [listed]
  exact single name

/-- The sessions are those in the book, but for lapsed ones. -/
structure Holds (timeoutSeconds : Int) (maxSessions : Nat) (now : Int) (manager : SessionManager)
    (book : Book Bytes Int) : Prop where
  follows : Follows (idle timeoutSeconds) now (held manager) book
  timeout : manager.timeoutSeconds = timeoutSeconds
  limit : manager.maxSessions = maxSessions
  single : Single manager
  named : ∀ name ∈ book.granted, name ≠ []

namespace Holds

theorem mono (holds : Holds timeoutSeconds maxSessions now manager book) (ordered : now ≤ later) :
    Holds timeoutSeconds maxSessions later manager book :=
  { holds with follows := holds.follows.mono ordered }

theorem renewed_nil (holds : Holds timeoutSeconds maxSessions now manager book) :
    book.renewed [] = none := by
  cases renewed : book.renewed [] with
  | none => rfl
  | some used => exact absurd rfl (holds.named [] (holds.follows.granted [] used renewed))

theorem getSession (holds : Holds timeoutSeconds maxSessions now manager book) (ordered : now ≤ later)
    (sessionId : Bytes) :
    (manager.getSession later sessionId).isSome =
      book.inForce (idle timeoutSeconds) later sessionId := by
  by_cases empty : sessionId = []
  · subst empty
    simp [Book.inForce, holds.renewed_nil, SessionManager.getSession]
  · rw [getSession_held empty, holds.follows.inForce_eq ordered, holds.timeout]

theorem cleanup (holds : Holds timeoutSeconds maxSessions now manager book) :
    Holds timeoutSeconds maxSessions now (manager.cleanupExpiredSessions now) book where
  follows := holds.follows.drop fun name => holds.timeout ▸ held_cleanup holds.single name
  timeout := holds.timeout
  limit := holds.limit
  single name := by
    rw [SessionManager.entries_cleanup]
    exact (List.length_filter_le _ _).trans (holds.single name)
  named := holds.named

theorem length_swept (holds : Holds timeoutSeconds maxSessions now manager book) :
    (manager.cleanupExpiredSessions now).sessions.length =
      (book.holders (idle timeoutSeconds) now).length := by
  have swept := holds.cleanup
  rw [swept.follows.length_holders (ids_nodup swept.single) fun name => ?_, SessionManager.ids,
    List.length_map]
  rw [mem_ids]
  constructor
  · intro stored
    obtain ⟨used, kept⟩ := Option.isSome_iff_exists.mp stored
    simp only [held, SessionManager.find_eq_head, SessionManager.entries_cleanup] at kept
    obtain ⟨session, first, rfl⟩ := Option.map_eq_some_iff.mp kept
    have live := (List.mem_filter.mp (List.mem_of_head? first)).2
    have same : (idle timeoutSeconds).lapsed session.lastActive now =
      session.isExpired now manager.timeoutSeconds := by
        rw [holds.timeout]
        rfl
    rw [held, SessionManager.find_eq_head, SessionManager.entries_cleanup, first]
    simpa [same] using live
  · intro force
    obtain ⟨used, stored, -⟩ := (Option.any_eq_true _ _).mp force
    rw [stored]
    rfl

theorem changed {latest : Option Int} {later : Book Bytes Int}
    (holds : Holds timeoutSeconds maxSessions now manager book)
    (follows : Follows (idle timeoutSeconds) now (Function.update (held manager) sessionId latest) later)
    (same : held after = Function.update (held manager) sessionId latest)
    (kept : after.timeoutSeconds = manager.timeoutSeconds ∧ after.maxSessions = manager.maxSessions)
    (few : (after.entries sessionId).length ≤ 1)
    (elsewhere : ∀ name, name ≠ sessionId → after.entries name = manager.entries name)
    (named : ∀ name ∈ later.granted, name ≠ []) :
    Holds timeoutSeconds maxSessions now after later where
  follows := same ▸ follows
  timeout := kept.1.trans holds.timeout
  limit := kept.2.trans holds.limit
  single name := by
    by_cases here : name = sessionId
    · exact here ▸ few
    · rw [elsewhere name here]
      exact holds.single name
  named := named

theorem insert {later : Book Bytes Int} (holds : Holds timeoutSeconds maxSessions now manager book)
    (active : session.lastActive = now)
    (follows : Follows (idle timeoutSeconds) now
      (Function.update (held manager) sessionId (some now)) later)
    (named : ∀ name ∈ later.granted, name ≠ []) :
    Holds timeoutSeconds maxSessions now (manager.insert sessionId session) later :=
  holds.changed follows (active ▸ held_insert manager sessionId session) ⟨rfl, rfl⟩ (by simp)
    (fun _ apart => SessionManager.entries_insert_other _ _ apart) named

theorem unregister (holds : Holds timeoutSeconds maxSessions now manager book) (sessionId : Bytes) :
    Holds timeoutSeconds maxSessions now (manager.unregisterSession sessionId).2
      (book.release sessionId) := by
  have keeping := SessionSweeps.unregisterSession_keeping sessionId
  exact holds.changed (holds.follows.release sessionId) (held_unregister manager sessionId)
    ⟨keeping.timeout manager, keeping.limit manager⟩
    ((keeping.fewer manager).trans (holds.single sessionId)) (keeping.frame manager) holds.named

theorem kept {α : Type} {call : SessionManager → α × SessionManager}
    (holds : Holds timeoutSeconds maxSessions now manager book) (keeping : Keeping sessionId call)
    (same : held (call manager).2 sessionId = held manager sessionId) :
    Holds timeoutSeconds maxSessions now (call manager).2 book := by
  have unchanged : Function.update (held manager) sessionId (held manager sessionId) = held manager :=
    Function.update_eq_self _ _
  refine holds.changed (unchanged.symm ▸ holds.follows) ?_
    ⟨keeping.timeout manager, keeping.limit manager⟩
    ((keeping.fewer manager).trans (holds.single sessionId)) (keeping.frame manager) holds.named
  rw [unchanged]
  funext name
  by_cases here : name = sessionId
  · exact here ▸ same
  · exact held_congr (keeping.frame manager name here)

end Holds

/-- A request with a session needs that one in force, and `initialize` without one needs room. -/
def admits (timeoutSeconds : Int) (maxSessions : Nat) (now : Int) (book : Book Bytes Int)
    (method header generatedId : Bytes) : Bool :=
  if header = [] then
    method = Bytes.ascii "initialize" && generatedId ≠ [] &&
      (book.holders (idle timeoutSeconds) now).length < maxSessions
  else book.inForce (idle timeoutSeconds) now header

/-- The session of a request that is let through. -/
def entered (header generatedId : Bytes) : Bytes := if header = [] then generatedId else header

def enter (now : Int) (header generatedId : Bytes) (book : Book Bytes Int) : Book Bytes Int :=
  if header = [] then book.grant generatedId now else book.renew header now

variable {visit : Visit}

theorem absent_of_new (holds : Holds timeoutSeconds maxSessions now manager book)
    (new : sessionId ∉ book.granted) : manager.entries sessionId = [] := by
  cases stored : held manager sessionId with
  | some used =>
    exact absurd (holds.follows.granted _ _ (holds.follows.kept _ _ stored)) new
  | none =>
    rw [held, SessionManager.find_eq_head] at stored
    simpa using stored

theorem gate_renews (holds : Holds timeoutSeconds maxSessions visit.now visit.sessions book)
    (force : book.inForce (idle timeoutSeconds) visit.now sessionId = true) :
    Holds timeoutSeconds maxSessions visit.now (visit.sessions.touchSession visit.now sessionId).2
        (book.renew sessionId visit.now) ∧
      held (visit.sessions.touchSession visit.now sessionId).2 sessionId = some visit.now := by
  obtain ⟨session, live⟩ := Option.isSome_iff_exists.mp ((holds.getSession le_rfl sessionId).trans force)
  obtain ⟨used, renewed, -⟩ := (Option.any_eq_true _ _).mp force
  have known := holds.follows.granted _ _ renewed
  rw [SessionSweeps.touchSession_live live]
  refine ⟨holds.insert rfl (holds.follows.renew known) holds.named, ?_⟩
  rw [held_insert, Function.update_self]
  rfl

/-- How the gate decides about a request, and what it leaves of the sessions. -/
inductive Decides (timeoutSeconds : Int) (maxSessions : Nat) (visit : Visit) (method header : Bytes)
    (book : Book Bytes Int) : Bool → Prop
  | admitted {headers : List HandleCall} {sessions : SessionManager}
      (opened : openSession visit method header =
        (.ok (entered header visit.generatedId, headers), sessions))
      (holds : Holds timeoutSeconds maxSessions visit.now sessions
        (enter visit.now header visit.generatedId book))
      (active : held sessions (entered header visit.generatedId) = some visit.now) :
      Decides timeoutSeconds maxSessions visit method header book true
  | refused (code : Int) {sessions : SessionManager}
      (opened : openSession visit method header = (.error code, sessions))
      (holds : Holds timeoutSeconds maxSessions visit.now sessions book) :
      Decides timeoutSeconds maxSessions visit method header book false

theorem gate_of_header (holds : Holds timeoutSeconds maxSessions visit.now visit.sessions book)
    (present : header ≠ []) (method : Bytes) :
    Decides timeoutSeconds maxSessions visit method header book
      (book.inForce (idle timeoutSeconds) visit.now header) := by
  have live := holds.getSession le_rfl header
  cases force : book.inForce (idle timeoutSeconds) visit.now header with
  | true =>
    rw [force] at live
    obtain ⟨renewed, active⟩ := gate_renews holds force
    have same : entered header visit.generatedId = header := if_neg present
    have opened : openSession visit method header = (.ok (entered header visit.generatedId, []),
        (visit.sessions.touchSession visit.now header).2) := by
      rw [same]
      exact openSession_live method present live
    refine .admitted opened ?_ ?_
    · rw [enter, if_neg present]
      exact renewed
    · rw [same]
      exact active
  | false =>
    rw [force] at live
    exact .refused _ (openSession_expired method present live) holds

theorem gate_of_initialize (holds : Holds timeoutSeconds maxSessions visit.now visit.sessions book)
    (new : visit.generatedId ∉ book.granted) (named : visit.generatedId ≠ []) :
    Decides timeoutSeconds maxSessions visit (Bytes.ascii "initialize") [] book
      (decide ((book.holders (idle timeoutSeconds) visit.now).length < maxSessions)) := by
  obtain ⟨room, among, registered⟩ := SessionSweeps.registerSession_new visit.now named
    (absent_of_new holds new) visit.clientIp
  rw [holds.length_swept, holds.limit] at registered
  have kept : Holds timeoutSeconds maxSessions visit.now room book := by
    rcases among with rfl | rfl
    · exact holds
    · exact holds.cleanup
  by_cases fits : (book.holders (idle timeoutSeconds) visit.now).length < maxSessions
  · rw [if_pos fits] at registered
    rw [decide_eq_true fits]
    refine .admitted (openSession_granted registered) (kept.insert rfl (kept.follows.grant new) ?_) ?_
    · intro name member
      rcases List.mem_append.mp member with before | added
      · exact holds.named name before
      · exact List.mem_singleton.mp added ▸ named
    · rw [held_insert]
      exact Function.update_self _ _ _
  · rw [if_neg fits] at registered
    rw [decide_eq_false fits]
    exact .refused bizJsonrpcInternalError (openSession_full registered) kept

theorem gate_decides (holds : Holds timeoutSeconds maxSessions visit.now visit.sessions book)
    (new : visit.generatedId ∉ book.granted) (method header : Bytes) :
    Decides timeoutSeconds maxSessions visit method header book
      (admits timeoutSeconds maxSessions visit.now book method header visit.generatedId) := by
  by_cases absent : header = []
  · subst absent
    by_cases initializes : method = Bytes.ascii "initialize"
    · subst initializes
      by_cases named : visit.generatedId = []
      · have refused : visit.sessions.registerSession visit.now visit.generatedId visit.clientIp =
            (false, visit.sessions) := by
          simp only [SessionManager.registerSession, if_pos named]
        simp only [admits, named, ne_eq, not_true_eq_false, decide_false, Bool.and_false,
          Bool.false_and, if_true]
        exact .refused bizJsonrpcInternalError (openSession_full refused) holds
      · simpa [admits, named] using gate_of_initialize holds new named
    · simp only [admits, initializes, decide_false, Bool.false_and, if_true]
      exact .refused bizMcpVersionMismatch (openSession_missing visit initializes) holds
  · rw [admits, if_neg absent]
    exact gate_of_header holds absent method

/-- A method leaves the session that it is called for in place, and as active as it was. -/
def Lasts (method : UserMethod) : Prop := ∀ now params sessionId manager,
  held manager sessionId = some now →
    held (method now params sessionId manager).sessions sessionId = some now

/-- So do all methods that are registered. -/
structure RegistryLasts (registry : Registry) : Prop where
  initializeMethod : Lasts registry.initializeMethod
  tools : ∀ entry ∈ registry.tools, Lasts entry.2
  promptReadMethod : ∀ method, registry.promptReadMethod = some method → Lasts method
  resourceReadMethod : ∀ method, registry.resourceReadMethod = some method → Lasts method

theorem held_insert_self (manager : SessionManager) (sessionId : Bytes) (session : SessionData) :
    held (manager.insert sessionId session) sessionId = some session.lastActive := by
  rw [held_insert, Function.update_self]

theorem held_touch (active : held manager sessionId = some now) :
    held (manager.touchSession now sessionId).2 sessionId = some now := by
  unfold SessionManager.touchSession
  split
  · exact active
  · split
    · exact active
    · exact held_insert_self _ _ _

theorem held_setMetadata (active : held manager sessionId = some now) (name : Bytes) (value : Json) :
    held (manager.setSessionMetadata now sessionId name value).2 sessionId = some now := by
  unfold SessionManager.setSessionMetadata
  split
  · exact active
  · split
    · exact active
    · split
      · exact active
      · exact held_insert_self _ _ _

theorem Lasts.answer (result : JsonResult) : Lasts fun _ _ _ => McpService.answer result :=
  fun _ _ _ _ active => active

theorem defaultInitialize_lasts : Lasts Registry.create.initializeMethod := by
  intro now params sessionId manager active
  simp only [Registry.create, McpService.ofSession, McpService.defaultInitializeMethod]
  cases params.find (key "clientInfo") with
  | none => exact active
  | some clientInfo => exact held_setMetadata active _ clientInfo

theorem readMethod_lasts {registered : Option UserMethod} (missing : Int)
    (lasts : ∀ method, registered = some method → Lasts method) :
    Lasts (Registry.readMethod registered missing) := by
  cases registered with
  | none => exact .answer _
  | some method => exact lasts method rfl

namespace RegistryLasts

variable {registry : Registry}

theorem create : RegistryLasts Registry.create where
  initializeMethod := defaultInitialize_lasts
  tools := by simp [Registry.create]
  promptReadMethod := by simp [Registry.create]
  resourceReadMethod := by simp [Registry.create]

theorem addTool (lasts : RegistryLasts registry) (name : Bytes) {method : UserMethod}
    (tool : Lasts method) : RegistryLasts (registry.addTool name method) := by
  unfold Registry.addTool
  split
  · exact lasts
  · refine { lasts with tools := fun entry registered => ?_ }
    rcases List.mem_append.mp registered with before | added
    · exact lasts.tools entry before
    · obtain rfl := List.mem_singleton.mp added
      exact tool

theorem toolsCallMethod (lasts : RegistryLasts registry) : Lasts registry.toolsCallMethod := by
  intro now params sessionId manager active
  unfold Registry.toolsCallMethod
  cases params.value (key "name") [] with
  | none => exact active
  | some toolName =>
    cases found : registry.findTool toolName with
    | none =>
      simp only [found]
      exact active
    | some method =>
      simp only [found]
      obtain ⟨entry, registered, rfl⟩ := Registry.findTool_registered found
      exact lasts.tools entry registered now _ sessionId manager active

/-- Of the methods of the service one alone ends the session. -/
theorem methodOf (lasts : RegistryLasts registry)
    (other : method ≠ Bytes.ascii "session/unregister") : Lasts (registry.methodOf method) := by
  apply Registry.methodOf_cases
  case answers => exact .answer
  case initializes => exact lasts.initializeMethod
  case pings =>
    intro now params sessionId manager active
    simp only [McpService.ofSession, McpService.pingMethod]
    split
    · exact active
    · exact held_touch active
  case calls => exact lasts.toolsCallMethod
  case resources => exact readMethod_lasts _ lasts.resourceReadMethod
  case prompts => exact readMethod_lasts _ lasts.promptReadMethod
  case informs => exact fun now params sessionId manager active => active
  case stores =>
    intro now params sessionId manager active
    simp only [McpService.ofSession, McpService.sessionMetadataMethod]
    split
    · exact active
    · exact active
    · exact held_setMetadata active _ _
  case ends => exact fun ends => absurd ends other

theorem dispatchMethod (lasts : RegistryLasts registry) (keeps : RegistryKeeps registry)
    (holds : Holds timeoutSeconds maxSessions now manager book)
    (active : held manager sessionId = some now) (params : Json) :
    Holds timeoutSeconds maxSessions now (registry.dispatchMethod now method params sessionId manager).2
      (if method = Bytes.ascii "session/unregister" then book.release sessionId else book) := by
  split
  · rename_i ends
    subst ends
    exact holds.unregister sessionId
  · rename_i other
    have stays := lasts.methodOf other now params sessionId manager active
    have kept := holds.kept (keeps.methodOf method now params sessionId) (stays.trans active.symm)
    exact kept

end RegistryLasts

/-- The method of a request that comes as far as the gate. -/
def methodNamed (service : McpService) (request : Request) : Option Bytes :=
  let text := request.getReqData service.decompress
  if text = [] then none
  else
    match service.codec.parse text with
    | none => none
    | some json =>
        if json.find (key "jsonrpc") ≠ some (.string (Bytes.ascii "2.0")) then none
        else json.value (key "method") []

/-- What becomes of the leases. -/
def record (setting : Setting) (timeoutSeconds : Int) (maxSessions : Nat) (book : Book Bytes Int) :
    Event → Book Bytes Int
  | .sweep _ => book
  | .post now _ generatedId request =>
      match methodNamed setting.service request with
      | none => book
      | some method =>
          let header := extractSessionId request
          if admits timeoutSeconds maxSessions now book method header generatedId then
            let renewed := enter now header generatedId book
            if method = Bytes.ascii "session/unregister" then
              renewed.release (entered header generatedId)
            else renewed
          else book

variable {service : McpService} {setting : Setting} {request : Request} {sessions : SessionManager}
  {json id : Json} {headers : List HandleCall} {code : Int}

theorem methodNamed_rejected (rejected : Rejected service request code id) :
    methodNamed service request = none := by
  cases rejected with
  | empty empty => simp only [methodNamed, empty, if_true]
  | unparsed filled parsed => simp only [methodNamed, filled, if_false, parsed]
  | versionless parsed version =>
    simp only [methodNamed, filled_of_parsed parsed, if_false, parsed, ne_eq, version, not_false_iff,
      if_true]
  | unnamed parsed version named =>
    simp only [methodNamed, filled_of_parsed parsed, if_false, parsed, ne_eq, version, not_true, named]

theorem methodNamed_called (calls : CallsMethod service request json method) :
    methodNamed service request = some method := by
  simp only [methodNamed, calls.filled, if_false, calls.parsed, ne_eq, calls.version, not_true,
    calls.named]

/-- A request that is let through leaves its session in force, unless it gives it back. -/
theorem serve_admitted (keeps : RegistryKeeps setting.registry) (lasts : RegistryLasts setting.registry)
    (calls : CallsMethod setting.service request json method)
    (opened : openSession visit method (extractSessionId request) =
      (.ok (sessionId, headers), sessions))
    (holds : Holds timeoutSeconds maxSessions visit.now sessions book)
    (active : held sessions sessionId = some visit.now) :
    Holds timeoutSeconds maxSessions visit.now (setting.serve visit request)
      (if method = Bytes.ascii "session/unregister" then book.release sessionId else book) := by
  simp only [Setting.serve, calls.passage_opened opened]
  by_cases runs : (enableStreaming (supportsSse request) method
      ((json.find (key "params")).getD .null)).isSome ∧ method ≠ Bytes.ascii "initialized"
  · simp only [if_pos runs]
    exact lasts.dispatchMethod keeps holds active _
  · simp only [if_neg runs]
    rw [if_neg]
    · exact holds
    · rintro rfl
      refine runs ⟨?_, by decide⟩
      unfold enableStreaming
      rw [if_neg]
      · rfl
      · simp only [Bool.and_eq_true, decide_eq_true_eq, not_and]
        exact fun _ => by decide

structure Represents (timeoutSeconds : Int) (maxSessions : Nat) (state : State)
    (book : Book Bytes Int) : Prop where
  holds : Holds timeoutSeconds maxSessions state.clock state.sessions book
  issued : ∀ name ∈ book.granted, name ∈ state.issued

variable {state final : State} {event : Event}

theorem represents_initial (timeoutSeconds : Int) (maxSessions : Nat) (clock : Int) :
    Represents timeoutSeconds maxSessions (.initial timeoutSeconds maxSessions clock) .empty where
  holds :=
    { follows := .empty _ _
      timeout := rfl
      limit := rfl
      single := fun _ => Nat.zero_le _
      named := nofun }
  issued := nofun

theorem granted_generated
    (admitted : admits timeoutSeconds maxSessions visit.now book method header visit.generatedId = true)
    (entry : name ∈ (enter visit.now header visit.generatedId book).granted) :
    name ∈ book.granted ∨ name ∈ generatedFor visit method header := by
  by_cases absent : header = []
  · subst absent
    have initializes : method = Bytes.ascii "initialize" := by
      simp only [admits, if_true, Bool.and_eq_true, decide_eq_true_eq] at admitted
      exact admitted.1.1
    have added : name ∈ book.granted ++ [visit.generatedId] := entry
    rw [generatedFor, if_pos ⟨initializes, rfl⟩]
    exact List.mem_append.mp added
  · rw [enter, if_neg absent] at entry
    exact .inl entry

theorem serve_represents (keeps : RegistryKeeps setting.registry)
    (lasts : RegistryLasts setting.registry)
    (holds : Holds timeoutSeconds maxSessions visit.now visit.sessions book)
    (new : visit.generatedId ∉ book.granted) (request : Request) :
    let later := record setting timeoutSeconds maxSessions book
      (.post visit.now visit.clientIp visit.generatedId request)
    Holds timeoutSeconds maxSessions visit.now (setting.serve visit request) later ∧
      ∀ name ∈ later.granted,
        name ∈ book.granted ∨ name ∈ (passage setting.service visit request).generated := by
  rcases rejected_or_calls setting.service request with ⟨code, id, rejected⟩ | ⟨json, method, calls⟩
  · simp only [record, methodNamed_rejected rejected, Setting.serve, rejected.passage]
    exact ⟨holds, fun name granted => .inl granted⟩
  have decides := gate_decides holds new method (extractSessionId request)
  simp only [record, methodNamed_called calls]
  generalize decision : admits timeoutSeconds maxSessions visit.now book method
    (extractSessionId request) visit.generatedId = verdict at decides ⊢
  cases decides with
  | refused code opened kept =>
    simp only [Bool.false_eq_true, if_false, Setting.serve, calls.passage_refused opened]
    exact ⟨kept, fun name granted => .inl granted⟩
  | admitted opened kept active =>
    simp only [if_true]
    refine ⟨serve_admitted keeps lasts calls opened kept active, fun name granted => ?_⟩
    rw [calls.passage_opened opened]
    refine granted_generated decision ?_
    split at granted <;> exact granted

theorem next_represents (keeps : RegistryKeeps setting.registry)
    (lasts : RegistryLasts setting.registry)
    (represents : Represents timeoutSeconds maxSessions state book)
    (stepped : setting.next state event = some final) :
    Represents timeoutSeconds maxSessions final
      (record setting timeoutSeconds maxSessions book event) := by
  cases event with
  | sweep now =>
    obtain ⟨ordered, rfl⟩ : state.clock ≤ now ∧ _ = final := by simpa [Setting.next] using stepped
    exact ⟨(represents.holds.mono ordered).cleanup, represents.issued⟩
  | post now clientIp generatedId request =>
    simp only [Setting.next, Option.ite_none_right_eq_some, Option.some.injEq] at stepped
    obtain ⟨⟨ordered, fresh⟩, rfl⟩ := stepped
    have new : generatedId ∉ book.granted := by
      intro granted
      exact fresh (by simpa using represents.issued _ granted)
    let visit := state.visitAt now clientIp generatedId
    have holds : Holds timeoutSeconds maxSessions visit.now visit.sessions book :=
      represents.holds.mono ordered
    obtain ⟨kept, issued⟩ := serve_represents keeps lasts holds new request
    refine ⟨kept, fun name granted => List.mem_append.mpr ?_⟩
    exact (issued name granted).imp_left (represents.issued name)

theorem executeGetWeather_lasts : Lasts McpMethod.executeGetWeather := by
  intro now arguments sessionId manager active
  unfold McpMethod.executeGetWeather
  cases arguments.value (key "location") (Bytes.ascii "Unknown") with
  | none => exact active
  | some location =>
    simp only [recordToolUsage]
    split
    · exact active
    · exact held_setMetadata active _ _

/-- A client that returns before an hour is over keeps its session for one more hour. -/
def returningEvents : List Event :=
  [.post 0 [] [1] (McpService.callRequest [] "initialize"),
    .post 3000000000000 [] [2] McpService.pingRequest, .sweep 6000000000000]

end Hku.SessionLeases
