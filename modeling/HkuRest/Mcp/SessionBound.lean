import HkuRest.Mcp.SessionCalls

/-! The limit on the sessions of a manager, and what `registerSession` does to an entry
that is there already. Both depend on the window between its size test and its store,
in which other calls may store as well. -/

namespace Hku.SessionCalls

variable {now : Int} {manager after : SessionManager} {call later : Call} {sessionId : Bytes}
  {old : SessionData} {state final : State} {event : Event}

namespace State

/-- The id under which the event has a `registerSession` look for an entry or store one. -/
def registers (state : State) : Event → Option Bytes
  | .act i _ =>
      match state.calls[i]? with
      | some (.registering sessionId _) | some (.storing sessionId _) => some sessionId
      | _ => none
  | .call _ => none

/-- A `registerSession` that has made room stores where there still is room, and no
entry under its id. -/
def unraced (state : State) : Event → Bool
  | .act i _ =>
      match state.calls[i]? with
      | some (.storing sessionId _) =>
          state.manager.sessions.length < state.manager.maxSessions &&
            (state.manager.find sessionId).isNone
      | _ => true
  | .call _ => true

def Unraced (state : State) (event : Event) : Prop := state.unraced event = true

instance (state : State) (event : Event) : Decidable (state.Unraced event) :=
  inferInstanceAs (Decidable (_ = _))

end State

theorem length_filter_lt {entries : List (Bytes × SessionData)} (known : sessionId ∈ entries.map Prod.fst) :
    (entries.filter fun entry => entry.1 ≠ sessionId).length < entries.length := by
  obtain ⟨entry, member, named⟩ := List.mem_map.mp known
  rw [List.length_filter_lt_length_iff_exists]
  exact ⟨entry, member, by simpa using named⟩

theorem length_insert_known (session : SessionData) (found : manager.find sessionId = some old) :
    (manager.insert sessionId session).sessions.length ≤ manager.sessions.length :=
  length_filter_lt (SessionManager.mem_ids_of_find found)

theorem length_insert (manager : SessionManager) (sessionId : Bytes) (session : SessionData) :
    (manager.insert sessionId session).sessions.length ≤ manager.sessions.length + 1 :=
  Nat.succ_le_succ (List.length_filter_le _ _)

theorem change_maxSessions (change : Change now manager call after) :
    after.maxSessions = manager.maxSessions := by
  cases change <;> rfl

/-- Only a store in the window can pass the limit. -/
theorem change_bounded (change : Change now manager call after)
    (bounded : manager.sessions.length ≤ manager.maxSessions)
    (unraced : ∀ sessionId clientInfo, call = .storing sessionId clientInfo →
      manager.sessions.length < manager.maxSessions) :
    after.sessions.length ≤ manager.maxSessions := by
  cases change with
  | stays => exact bounded
  | removes keep => exact (List.length_filter_le _ _).trans bounded
  | updates sessionId old new found => exact (length_insert_known new found).trans bounded
  | admits sessionId clientInfo calls room => exact (length_insert _ _ _).trans room
  | stores sessionId clientInfo calls => exact (length_insert _ _ _).trans (unraced _ _ calls)

theorem next_bounded (bounded : state.manager.sessions.length ≤ state.manager.maxSessions)
    (unraced : state.Unraced event) (stepped : state.next event = some final) :
    final.manager.sessions.length ≤ final.manager.maxSessions ∧
      final.manager.maxSessions = state.manager.maxSessions := by
  cases event with
  | call request =>
    cases stepped
    exact ⟨bounded, rfl⟩
  | act i now =>
    obtain ⟨call, manager, later, found, entered, rfl⟩ := State.next_act stepped
    have change := enter_change entered
    have limit := change_maxSessions change
    refine ⟨?_, limit⟩
    dsimp only at limit ⊢
    rw [limit]
    apply change_bounded change bounded
    rintro sessionId clientInfo rfl
    simp only [State.Unraced, State.unraced, found, Bool.and_eq_true, decide_eq_true_eq] at unraced
    exact unraced.1

theorem registers_keeps (unraced : state.Unraced event) (stepped : state.next event = some final)
    (registers : state.registers event = some sessionId)
    (stored : state.manager.find sessionId = some old) :
    ∃ now, final.manager.find sessionId = some (old.touch now) := by
  cases event with
  | call request => cases registers
  | act i now =>
    obtain ⟨call, manager, later, found, entered, rfl⟩ := State.next_act stepped
    simp only [State.registers, found] at registers
    split at registers
    · rename_i name clientInfo known
      cases registers
      cases known
      simp only [enter, stored] at entered
      cases entered
      exact ⟨now, SessionManager.find_insert _ _ _⟩
    · rename_i name clientInfo known
      cases registers
      cases known
      simp [State.Unraced, State.unraced, found, stored] at unraced
    · cases registers

/-- In every run without such a race, the sessions stay within their limit and an entry
outlives every `registerSession` for its id. -/
theorem sessions_bounded_and_kept (timeoutSeconds : Int) (maxSessions : Nat) (state : State)
    (reached : Transition.Reaches State.next State.Unraced (.initial timeoutSeconds maxSessions) state) :
    state.manager.sessions.length ≤ maxSessions ∧
      ∀ event after sessionId old, state.Unraced event → state.next event = some after →
        state.registers event = some sessionId → state.manager.find sessionId = some old →
          ∃ kept, after.manager.find sessionId = some kept ∧ kept.createdAt = old.createdAt ∧
            kept.metadata = old.metadata := by
  constructor
  · have within : state.manager.sessions.length ≤ state.manager.maxSessions ∧
        state.manager.maxSessions = maxSessions := by
      refine reached.invariant (fun state =>
        state.manager.sessions.length ≤ state.manager.maxSessions ∧
          state.manager.maxSessions = maxSessions) ⟨Nat.zero_le _, rfl⟩ ?_
      rintro before event after ⟨bounded, limit⟩ unraced stepped
      obtain ⟨kept, same⟩ := next_bounded bounded unraced stepped
      exact ⟨kept, same.trans limit⟩
    exact within.2 ▸ within.1
  · intro event after sessionId old unraced stepped registers stored
    obtain ⟨now, kept⟩ := registers_keeps unraced stepped registers stored
    exact ⟨_, kept, rfl, rfl⟩

def anHour : Int := 3601000000000

def registerAt (call : Nat) (sessionId : Bytes) (now : Int) (sections : Nat) : List Event :=
  .call (.registerSession sessionId []) :: List.replicate sections (.act call now)

/-- The only session expires, and another one takes its place. -/
def refilled : State :=
  ⟨⟨3600, 1, [([2], .create anHour [2] [])]⟩, [.returned (some true), .returned (some true)]⟩

theorem sessions_bounded_and_kept_refilled :
    refilled.manager.sessions.length ≤ 1 ∧
      ∀ event after sessionId old, refilled.Unraced event → refilled.next event = some after →
        refilled.registers event = some sessionId → refilled.manager.find sessionId = some old →
          ∃ kept, after.manager.find sessionId = some kept ∧ kept.createdAt = old.createdAt ∧
            kept.metadata = old.metadata :=
  sessions_bounded_and_kept 3600 1 refilled
    (.of_execute (registerAt 0 [1] 0 1 ++ registerAt 1 [2] anHour 4) (by decide +kernel))

/-- A call sweeps the full manager and finds room, which another call takes at once. -/
def racing (first second : Bytes) : List Event :=
  registerAt 0 [1] 0 1 ++ registerAt 1 first anHour 3 ++ registerAt 2 second anHour 1

theorem sessions_raced :
    (¬ ∀ (timeoutSeconds : Int) (maxSessions : Nat) (state : State), 1 ≤ maxSessions →
        Transition.Reaches State.next (fun _ _ => True) (.initial timeoutSeconds maxSessions) state →
          state.manager.sessions.length ≤ maxSessions) ∧
      ¬ ∀ (timeoutSeconds : Int) (maxSessions : Nat) (state : State), 1 ≤ maxSessions →
        Transition.Reaches State.next (fun _ _ => True) (.initial timeoutSeconds maxSessions) state →
          ∀ event after sessionId old, state.next event = some after →
            state.registers event = some sessionId → state.manager.find sessionId = some old →
              ∃ kept, after.manager.find sessionId = some kept ∧ kept.createdAt = old.createdAt ∧
                kept.metadata = old.metadata := by
  constructor
  · intro bounded
    have within := bounded 3600 1
      ⟨⟨3600, 1, [([3], .create anHour [3] []), ([2], .create anHour [2] [])]⟩,
        [.returned (some true), .returned (some true), .returned (some true)]⟩ (by decide)
      (.of_execute (racing [3] [2] ++ [.act 1 anHour]) (by decide +kernel))
    exact absurd within (by decide)
  · intro kept
    obtain ⟨session, found, created, _⟩ := kept 3600 1
      ⟨⟨3600, 1, [([2], .create anHour [2] [])]⟩,
        [.returned (some true), .storing [2] [], .returned (some true)]⟩ (by decide)
      (.of_execute (racing [2] [2]) (by decide +kernel)) (.act 1 (anHour + 1)) _ [2] _ rfl rfl rfl
    cases found
    exact absurd created (by decide)

end Hku.SessionCalls
