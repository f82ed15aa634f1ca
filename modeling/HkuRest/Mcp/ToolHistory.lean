import HkuRest.Mcp.SessionCalls

/-! The history of tool calls that a session keeps. A record is appended to the history
that was read before it, so it arrives beside all others exactly when nothing was
written in between. -/

namespace Hku.SessionCalls

open scoped List

variable {now : Int} {manager after : SessionManager} {sessionId : Bytes} {session : SessionData}
  {history old : List Json} {state final : State} {event : Event}

/-- The record that a call has still to store. -/
def Call.pending : Call → List Json
  | .recording _ record | .saving _ _ record => [record]
  | _ => []

/-- A `recordToolUsage` for this session. -/
def Call.records (sessionId : Bytes) : Call → Bool
  | .recording id _ => id = sessionId
  | .saving id _ _ => id = sessionId
  | .returned _ => true
  | _ => false

namespace State

/-- The history is written over by a call only if it still is the one that the call
read; and no call joins. -/
def undisturbed (state : State) : Event → Bool
  | .act i _ =>
      match state.calls[i]? with
      | some (.saving sessionId history _) =>
          historyOf (state.manager.getSessionMetadata sessionId historyKey) = history
      | _ => true
  | .call _ => false

def Undisturbed (state : State) (event : Event) : Prop := state.undisturbed event = true

instance (state : State) (event : Event) : Decidable (state.Undisturbed event) :=
  inferInstanceAs (Decidable (_ = _))

/-- No call joins. -/
def Acts (_ : State) : Event → Prop
  | .act _ _ => True
  | .call _ => False

instance (state : State) : (event : Event) → Decidable (state.Acts event)
  | .act _ _ => .isTrue trivial
  | .call _ => .isFalse id

end State

/-- The session is there, and this is its history. -/
def HasHistory (manager : SessionManager) (sessionId : Bytes) (history : List Json) : Prop :=
  ∃ session, manager.find sessionId = some session ∧
    session.metadata.find historyKey = some (.array history)

theorem HasHistory.unique (first : HasHistory manager sessionId old)
    (second : HasHistory manager sessionId history) : old = history := by
  obtain ⟨session, found, stored⟩ := first
  obtain ⟨other, again, kept⟩ := second
  cases found.symm.trans again
  cases stored.symm.trans kept
  rfl

theorem HasHistory.read (has : HasHistory manager sessionId history) (named : sessionId ≠ []) :
    historyOf (manager.getSessionMetadata sessionId historyKey) = history := by
  obtain ⟨session, found, stored⟩ := has
  simp only [SessionManager.getSessionMetadata, if_neg named, found, stored, Option.getD_some,
    historyOf]

theorem HasHistory.write (has : HasHistory manager sessionId old) (named : sessionId ≠ []) (now : Int)
    (history : List Json) :
    HasHistory (manager.setSessionMetadata now sessionId historyKey (.array history)).2 sessionId
      history := by
  obtain ⟨session, found, stored⟩ := has
  obtain ⟨metadata, written⟩ := Json.set_of_find stored historyKey (.array history)
  simp only [SessionManager.setSessionMetadata, if_neg named, found, written]
  exact ⟨_, SessionManager.find_insert _ _ _, Json.find_set written⟩

theorem pushRecord_short (record : Json) (short : (history ++ [record]).length ≤ 100) :
    pushRecord history record = history ++ [record] := by
  simp only [pushRecord, if_neg (not_lt.mpr short)]

/-- What is stored and what is still to be stored make up the whole. -/
structure Tracks (sessionId : Bytes) (whole : List Json) (state : State) : Prop where
  recorded : ∃ history, HasHistory state.manager sessionId history ∧
    history ++ Pool.gather Call.pending state.calls ~ whole
  usages : ∀ call ∈ state.calls, call.records sessionId = true

theorem Tracks.set {whole : List Json} {i : Nat} {call later : Call}
    (tracks : Tracks sessionId whole state) (found : state.calls[i]? = some call)
    (usage : later.records sessionId = true)
    (has : HasHistory state.manager sessionId old) (kept : HasHistory after sessionId history)
    (moved : history ++ later.pending ~ old ++ call.pending) :
    Tracks sessionId whole ⟨after, state.calls.set i later⟩ := by
  obtain ⟨⟨stored, same, complete⟩, usages⟩ := tracks
  obtain rfl := same.unique has
  refine ⟨⟨history, kept, ?_⟩, ?_⟩
  · have gathered := Pool.gather_set Call.pending found later
    apply (List.perm_append_right_iff call.pending).mp
    calc history ++ Pool.gather Call.pending (state.calls.set i later) ++ call.pending
      _ ~ history ++ (Pool.gather Call.pending state.calls ++ later.pending) := by
        rw [List.append_assoc]
        exact gathered.append_left history
      _ ~ history ++ (later.pending ++ Pool.gather Call.pending state.calls) :=
        List.perm_append_comm.append_left history
      _ ~ stored ++ call.pending ++ Pool.gather Call.pending state.calls := by
        rw [← List.append_assoc]
        exact moved.append_right _
      _ ~ stored ++ (Pool.gather Call.pending state.calls ++ call.pending) := by
        rw [List.append_assoc]
        exact List.perm_append_comm.append_left stored
      _ ~ whole ++ call.pending := by
        rw [← List.append_assoc]
        exact complete.append_right _
  · exact Pool.forall_set usages usage i

theorem next_tracks {whole : List Json} (named : sessionId ≠ []) (room : whole.length ≤ 100)
    (tracks : Tracks sessionId whole state) (undisturbed : state.Undisturbed event)
    (stepped : state.next event = some final) : Tracks sessionId whole final := by
  cases event with
  | call request => cases undisturbed
  | act i now =>
    obtain ⟨call, manager, later, found, entered, rfl⟩ := State.next_act stepped
    have usage := tracks.usages call (List.mem_of_getElem? found)
    obtain ⟨history, has, complete⟩ := tracks.recorded
    cases call with
    | recording id record =>
      obtain rfl : id = sessionId := by simpa [Call.records] using usage
      cases entered
      exact tracks.set found (by simp [Call.records]) has has (.refl _)
    | saving id read record =>
      obtain rfl : id = sessionId := by simpa [Call.records] using usage
      obtain rfl : history = read := by
        simpa [State.Undisturbed, State.undisturbed, found, has.read named] using undisturbed
      cases entered
      have short : (history ++ [record]).length ≤ 100 := by
        have carried : 0 < (Pool.gather Call.pending state.calls).length :=
          List.length_pos_of_mem
            (List.mem_flatMap.mpr ⟨_, List.mem_of_getElem? found, List.mem_singleton.mpr rfl⟩)
        have total := complete.length_eq
        simp only [List.length_append, List.length_singleton] at total ⊢
        omega
      apply tracks.set found rfl has (has.write named now _)
      rw [pushRecord_short record short]
      simp [Call.pending]
    | returned success => cases entered
    | _ => cases usage

theorem gather_returned {calls : List Call} (returned : ∀ call ∈ calls, ∃ success, call = .returned success) :
    Pool.gather Call.pending calls = [] := by
  apply List.flatMap_eq_nil_iff.mpr
  intro call member
  obtain ⟨success, rfl⟩ := returned call member
  rfl

/-- The calls before any of their sections. -/
def concurrently (sessionId : Bytes) (usages : List Usage) : List Call :=
  usages.map fun usage => (Request.recordToolUsage sessionId usage).begin

theorem concurrently_tracks (named : sessionId ≠ []) (has : HasHistory manager sessionId old)
    (usages : List Usage) :
    Tracks sessionId (old ++ usages.map Usage.record) ⟨manager, concurrently sessionId usages⟩ := by
  refine ⟨⟨old, has, ?_⟩, ?_⟩
  · have gathered : Pool.gather Call.pending (concurrently sessionId usages) =
        usages.map Usage.record := by
      rw [List.map_eq_flatMap]
      simp [Pool.gather, concurrently, Request.begin, named, List.flatMap_map, Call.pending]
    rw [gathered]
  · intro call member
    obtain ⟨usage, _, rfl⟩ := List.mem_map.mp member
    simp [Request.begin, named, Call.records]

/-- When all calls of an undisturbed run have returned, the history holds the old records
and each of the new ones. -/
theorem history_complete (manager : SessionManager) (sessionId : Bytes) (old : List Json)
    (usages : List Usage) (state : State) (named : sessionId ≠ [])
    (has : HasHistory manager sessionId old) (room : old.length + usages.length ≤ 100)
    (reached : Transition.Reaches State.next State.Undisturbed
      ⟨manager, concurrently sessionId usages⟩ state)
    (returned : ∀ call ∈ state.calls, ∃ success, call = .returned success) :
    ∃ history, HasHistory state.manager sessionId history ∧
      history ~ old ++ usages.map Usage.record := by
  have short : (old ++ usages.map Usage.record).length ≤ 100 := by simpa using room
  have tracks : Tracks sessionId (old ++ usages.map Usage.record) state :=
    reached.invariant _ (concurrently_tracks named has usages)
      fun _ _ _ tracks undisturbed stepped => next_tracks named short tracks undisturbed stepped
  obtain ⟨history, kept, complete⟩ := tracks.recorded
  rw [gather_returned returned, List.append_nil] at complete
  exact ⟨history, kept, complete⟩

/-- A manager whose one session, used at time zero, has this history. -/
def keeping (history : List Json) : SessionManager :=
  ⟨3600, 10000, [([1], ⟨[1], [], 0, 0, .object [(historyKey, .array history)]⟩)]⟩

theorem keeping_history (history : List Json) : HasHistory (keeping history) [1] history :=
  ⟨_, rfl, rfl⟩

def calculator : Usage := ⟨1, Bytes.ascii "calculator", .null⟩

def getWeather : Usage := ⟨2, Bytes.ascii "get_weather", .null⟩

def finished : List Call := [.returned (some true), .returned (some true)]

theorem history_complete_in_turn :
    ∃ history, HasHistory (keeping [calculator.record, getWeather.record]) [1] history ∧
      history ~ [] ++ [calculator, getWeather].map Usage.record :=
  history_complete (keeping []) [1] [] [calculator, getWeather]
    ⟨keeping [calculator.record, getWeather.record], finished⟩ (by decide) (keeping_history [])
    (by decide)
    (.of_execute [.act 0 0, .act 0 0, .act 1 0, .act 1 0] (by decide +kernel))
    (by simp [finished])

/-- Both tools read the history before either of them writes it. -/
theorem history_lost :
    ¬ ∀ (manager : SessionManager) (sessionId : Bytes) (old : List Json) (usages : List Usage)
      (state : State), sessionId ≠ [] → HasHistory manager sessionId old →
      old.length + usages.length ≤ 100 →
      Transition.Reaches State.next State.Acts
        ⟨manager, concurrently sessionId usages⟩ state →
      (∀ call ∈ state.calls, ∃ success, call = .returned success) →
      ∃ history, HasHistory state.manager sessionId history ∧
        history ~ old ++ usages.map Usage.record := by
  intro complete
  have reached : Transition.Reaches State.next State.Acts
      ⟨keeping [], concurrently [1] [calculator, getWeather]⟩ ⟨keeping [getWeather.record], finished⟩ :=
    .of_execute [.act 0 0, .act 1 0, .act 0 0, .act 1 0] (by decide +kernel)
  obtain ⟨history, has, whole⟩ := complete (keeping []) [1] [] [calculator, getWeather]
    ⟨keeping [getWeather.record], finished⟩ (by decide) (keeping_history []) (by decide) reached
    (by simp [finished])
  obtain rfl := has.unique (keeping_history _)
  exact absurd whole.length_eq (by decide)

end Hku.SessionCalls
