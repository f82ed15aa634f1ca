import HkuRest.Httpd.PermitAccounting
import HkuRest.Httpd.PingLifetime

/-! Who holds a WebSocket permit. `Connection::readLoop` hands its socket over to a
`WebSocketConnection` and gives its own permit back; the destructor of the new object
releases `m_ws_permit` if it is valid. What runs in between never assigns it. -/

namespace Hku

namespace WebSocketConnection

/-- Past the handshake and `onOpen`, before `onClose`. -/
def Reader.inMessageLoop : Reader → Bool
  | .reading | .handling => true
  | _ => false

/-- `onOpen` returns, and the message loop begins. -/
def Event.startsLoop : Event → Bool
  | .readLoop (.onOpen returns) => returns
  | _ => false

variable {before after : State} {event : Event}

theorem release_reader (state : State) : state.release.reader = state.reader := by
  unfold State.release
  split <;> rfl

theorem readLoop_inMessageLoop {step : ReadStep} (stepped : before.readLoop step = some after)
    (inside : after.reader.inMessageLoop = true) :
    before.reader.inMessageLoop = true ∨ (Event.readLoop step).startsLoop = true := by
  cases readMove_of_readLoop stepped with
  | start =>
    cases secure : before.ssl <;> simp [secure, Reader.inMessageLoop] at inside
  | opened => exact .inr rfl
  | message there | rejected there | error there | handled there | unhandled there =>
    exact .inl (by rw [there]; rfl)
  | frameDestroyed =>
    rw [release_reader] at inside
    cases inside
  | _ => cases inside

theorem sendPing_reader {step : PingStep} (stepped : before.sendPing step = some after) :
    after.reader = before.reader := by
  cases step with
  | checks isOpen =>
    simp only [State.sendPing] at stepped
    split at stepped <;> cases stepped <;> rfl
  | _ =>
    simp only [State.sendPing, Option.ite_none_right_eq_some, Option.some.injEq] at stepped
    obtain ⟨_, rfl⟩ := stepped
    rfl

theorem next_inMessageLoop (stepped : before.next event = some after)
    (inside : after.reader.inMessageLoop = true) :
    before.reader.inMessageLoop = true ∨ event.startsLoop = true := by
  cases event with
  | readLoop step => exact readLoop_inMessageLoop stepped inside
  | sendPing step =>
    rw [sendPing_reader stepped] at inside
    exact .inl inside
  | leaveScope | unlock =>
    simp only [State.next, Option.ite_none_right_eq_some, Option.some.injEq] at stepped
    obtain ⟨_, rfl⟩ := stepped
    rw [release_reader] at inside
    exact .inl inside
  | lock =>
    simp only [State.next, Option.ite_none_right_eq_some, Option.some.injEq] at stepped
    obtain ⟨_, rfl⟩ := stepped
    split at inside <;> exact .inl inside
  | ioContextDestroyed =>
    cases stepped
    cases inside

theorem startsLoop_next (starts : event.startsLoop = true) (stepped : before.next event = some after) :
    after.reader.inMessageLoop = true := by
  cases event with
  | readLoop step =>
    cases step with
    | onOpen returns =>
      obtain rfl : returns = true := starts
      have moved : before.readLoop (.onOpen true) = some after := stepped
      cases readMove_of_readLoop moved
      rfl
    | _ => cases starts
  | _ => cases starts

end WebSocketConnection

namespace WebSocketServer

/-- A `WebSocketConnection`, beside the acquire call whose permit the upgraded `Connection`
held. `looped` and `released` record that it has been in its message loop and how often its
permit was released. -/
structure Upgraded where
  call : Nat
  connection : WebSocketConnection.State
  wsPermit : Int
  looped : Bool
  released : Nat
  deriving DecidableEq, Repr

namespace Upgraded

/-- `create` leaves `m_ws_permit` as its default constructor made it. -/
def create (call : Nat) (ssl : Bool) : Upgraded := ⟨call, .started ssl, -1, false, 0⟩

/-- What `~WebSocketConnection` does about the permit. -/
def destroy (upgraded : Upgraded) (manager : ConnectionManager.State) :
    Upgraded × ConnectionManager.State :=
  match manager.manager.release (.holding upgraded.wsPermit) with
  | some effect =>
      -- the destructor has `notifyOne` still to run
      ({ upgraded with released := upgraded.released + 1 },
        ⟨effect.manager, manager.calls ++ [effect.call]⟩)
  | none => (upgraded, manager)

/-- The connection has taken a step, which may have been its last. -/
def moved (upgraded : Upgraded) (manager : ConnectionManager.State)
    (later : WebSocketConnection.State) : Upgraded × ConnectionManager.State :=
  let after := { upgraded with
    connection := later, looped := upgraded.looped || later.reader.inMessageLoop }
  if later.destroyed && !upgraded.connection.destroyed then after.destroy manager
  else (after, manager)

end Upgraded

/-- The two managers of a running `HttpServer` whose WebSocket support is enabled, and every
connection it has upgraded. -/
structure State where
  ssl : Bool
  connectionManager : ConnectionManager.State
  wsConnectionManager : ConnectionManager.State
  connections : List Upgraded
  deriving DecidableEq, Repr

inductive Event
  | http (event : ConnectionManager.Event)
  | webSocket (event : ConnectionManager.Event)
  | upgrade (call : Nat)
  | connection (i : Nat) (event : WebSocketConnection.Event)
  deriving DecidableEq, Repr

namespace State

/-- After `start()`. -/
def initial (ssl : Bool) (maxConcurrent waitTimeout wsMaxConcurrent wsWaitTimeout : Nat) : State :=
  ⟨ssl, .initial maxConcurrent waitTimeout, .initial wsMaxConcurrent wsWaitTimeout, []⟩

/-- `~Connection` gives the HTTP permit back, after `ws_connection` has left the scope of
`readLoop`. -/
def tooEarly (state : State) : ConnectionManager.Event → Bool
  | .act call .release => state.connections.any fun upgraded =>
      upgraded.call = call && upgraded.connection.wsConnection
  | _ => false

def next (state : State) : Event → Option State
  | .http event =>
      if state.tooEarly event then none
      else do
        let manager ← state.connectionManager.next event
        return { state with connectionManager := manager }
  | .webSocket event => do
      -- `get_websocket_connection_manager` hands the manager out, and `stop` shuts it down
      let manager ← state.wsConnectionManager.next event
      return { state with wsConnectionManager := manager }
  | .upgrade call =>
      match state.connectionManager.calls[call]? with
      | some (.holding permitId) =>
          -- the HTTP loop ends with its upgrade
          if 0 ≤ permitId && state.connections.all (·.call ≠ call) then
            some { state with connections := state.connections ++ [.create call state.ssl] }
          else none
      | _ => none
  | .connection i event => do
      let upgraded ← state.connections[i]?
      let later ← upgraded.connection.next event
      let after := upgraded.moved state.wsConnectionManager later
      return { state with
        wsConnectionManager := after.2, connections := state.connections.set i after.1 }

def inMessageLoop (state : State) : Nat :=
  Pool.tally (·.connection.reader.inMessageLoop) state.connections

/-- What `set_max_concurrent_websocket_connections` is for. -/
structure Limited (state : State) (wsMaxConcurrent : Nat) : Prop where
  bounded : state.inMessageLoop ≤ wsMaxConcurrent
  permitted : ∀ upgraded ∈ state.connections, upgraded.looped = true →
    0 ≤ upgraded.wsPermit ∧ upgraded.released = upgraded.connection.destroyed.toNat

end State

def Event.startsLoop : Event → Bool
  | .connection _ step => step.startsLoop
  | _ => false

variable {state before after : State} {event : Event} {upgraded : Upgraded}
  {manager : ConnectionManager.State} {later : WebSocketConnection.State}

inductive Moves (event : Event) (before after : State) : Prop
  | same (quiet : event.startsLoop = false) (connections : after.connections = before.connections)
  | joins (call : Nat) (quiet : event.startsLoop = false)
      (connections : after.connections = before.connections ++ [.create call before.ssl])
  | steps (i : Nat) (step : WebSocketConnection.Event) (upgraded : Upgraded)
      (later : WebSocketConnection.State) (named : event = .connection i step)
      (found : before.connections[i]? = some upgraded)
      (stepped : upgraded.connection.next step = some later)
      (connections : after.connections =
        before.connections.set i (upgraded.moved before.wsConnectionManager later).1)

theorem next_moves (stepped : before.next event = some after) : Moves event before after := by
  cases event with
  | http event =>
    simp only [State.next, Option.ite_none_left_eq_some, Option.bind_eq_bind,
      Option.bind_eq_some_iff, Option.pure_def, Option.some.injEq] at stepped
    obtain ⟨_, manager, _, rfl⟩ := stepped
    exact .same rfl rfl
  | webSocket event =>
    simp only [State.next, Option.bind_eq_bind, Option.bind_eq_some_iff, Option.pure_def,
      Option.some.injEq] at stepped
    obtain ⟨manager, _, rfl⟩ := stepped
    exact .same rfl rfl
  | upgrade call =>
    simp only [State.next] at stepped
    split at stepped
    · split at stepped
      · cases stepped
        exact .joins call rfl rfl
      · cases stepped
    · cases stepped
  | connection i step =>
    simp only [State.next, Option.bind_eq_bind, Option.bind_eq_some_iff, Option.pure_def,
      Option.some.injEq] at stepped
    obtain ⟨upgraded, found, later, moved, rfl⟩ := stepped
    exact .steps i step upgraded later rfl found moved rfl

/-- The connection has the permit it was created with. -/
structure Upgraded.Unpermitted (upgraded : Upgraded) : Prop where
  wsPermit : upgraded.wsPermit = -1
  released : upgraded.released = 0
  looped : upgraded.connection.reader.inMessageLoop = true → upgraded.looped = true

theorem moved_of_unpermitted (unpermitted : upgraded.Unpermitted) :
    upgraded.moved manager later =
      ({ upgraded with
        connection := later, looped := upgraded.looped || later.reader.inMessageLoop }, manager) := by
  have refused : manager.manager.release (.holding upgraded.wsPermit) = none := by
    rw [unpermitted.wsPermit]
    rfl
  simp only [Upgraded.moved, Upgraded.destroy]
  split
  · rw [refused]
  · rfl

theorem Upgraded.Unpermitted.moved (unpermitted : upgraded.Unpermitted) :
    (upgraded.moved manager later).1.Unpermitted := by
  rw [moved_of_unpermitted unpermitted]
  refine ⟨unpermitted.wsPermit, unpermitted.released, ?_⟩
  intro inside
  exact Bool.or_eq_true_iff.mpr (.inr inside)

namespace State

def Unpermitted (state : State) : Prop := ∀ upgraded ∈ state.connections, upgraded.Unpermitted

def Unlooped (state : State) : Prop := ∀ upgraded ∈ state.connections, upgraded.looped = false

end State

theorem next_unpermitted (unpermitted : before.Unpermitted) (stepped : before.next event = some after) :
    after.Unpermitted := by
  unfold State.Unpermitted
  cases next_moves stepped with
  | same _ connections =>
    rw [connections]
    exact unpermitted
  | joins call _ connections =>
    rw [connections]
    exact Pool.forall_append unpermitted ⟨rfl, rfl, nofun⟩
  | steps i step old later _ found _ connections =>
    rw [connections]
    exact Pool.forall_set unpermitted (unpermitted old (List.mem_of_getElem? found)).moved i

/-- While no connection has been in its loop, only the step that starts one changes that. -/
theorem next_unlooped_iff (unpermitted : before.Unpermitted) (unlooped : before.Unlooped)
    (stepped : before.next event = some after) : after.Unlooped ↔ event.startsLoop = false := by
  cases next_moves stepped with
  | same quiet connections =>
    refine iff_of_true ?_ quiet
    rw [State.Unlooped, connections]
    exact unlooped
  | joins call quiet connections =>
    refine iff_of_true ?_ quiet
    rw [State.Unlooped, connections]
    exact Pool.forall_append unlooped rfl
  | steps i step old later named found moved connections =>
    subst named
    have oldMember := List.mem_of_getElem? found
    have outside : old.looped = false := unlooped old oldMember
    rw [moved_of_unpermitted (unpermitted old oldMember), outside, Bool.false_or] at connections
    constructor
    · intro still
      have placed := still _ (connections ▸ List.mem_set (List.getElem?_eq_some_iff.mp found).1 _)
      cases starts : step.startsLoop with
      | false => exact starts
      | true =>
        have inside := WebSocketConnection.startsLoop_next starts moved
        exact absurd inside (by simpa using placed)
    · intro quiet
      rw [State.Unlooped, connections]
      refine Pool.forall_set unlooped ?_ i
      change later.reader.inMessageLoop = false
      cases inside : later.reader.inMessageLoop with
      | false => rfl
      | true =>
        obtain before | starts := WebSocketConnection.next_inMessageLoop moved inside
        · have looped := (unpermitted old oldMember).looped before
          rw [outside] at looped
          cases looped
        · have never : step.startsLoop = false := quiet
          rw [never] at starts
          cases starts

/-- The limit is kept only as long as it has nothing to limit. -/
theorem limited_iff_unlooped (unpermitted : before.Unpermitted) (wsMaxConcurrent : Nat) :
    before.Limited wsMaxConcurrent ↔ before.Unlooped := by
  constructor
  · intro limited upgraded member
    cases looped : upgraded.looped with
    | false => rfl
    | true =>
      have valid := (limited.permitted upgraded member looped).1
      rw [(unpermitted upgraded member).wsPermit] at valid
      exact absurd valid (by decide)
  · intro unlooped
    constructor
    · have nobody : before.inMessageLoop = 0 := by
        refine List.countP_eq_zero.mpr ?_
        intro upgraded member inside
        have looped := (unpermitted upgraded member).looped inside
        rw [unlooped upgraded member] at looped
        cases looped
      rw [nobody]
      exact Nat.zero_le _
    · intro upgraded member looped
      rw [unlooped upgraded member] at looped
      cases looped

/-- A run obeys the limit exactly when none of its connections reaches its message loop. -/
theorem websocket_limited_iff (ssl : Bool)
    (maxConcurrent waitTimeout wsMaxConcurrent wsWaitTimeout : Nat) (events : List Event) :
    Transition.Along State.next (fun _ _ after => after.Limited wsMaxConcurrent)
        (.initial ssl maxConcurrent waitTimeout wsMaxConcurrent wsWaitTimeout) events ↔
      Transition.Along State.next (fun _ event _ => event.startsLoop = false)
        (.initial ssl maxConcurrent waitTimeout wsMaxConcurrent wsWaitTimeout) events := by
  apply Transition.along_iff fun state => state.Unpermitted ∧ state.Unlooped
  · constructor
    · intro upgraded member
      cases member
    · intro upgraded member
      cases member
  · rintro before event after ⟨unpermitted, _⟩ stepped limited
    have kept := next_unpermitted unpermitted stepped
    exact ⟨kept, (limited_iff_unlooped kept _).mp limited⟩
  · rintro before event after ⟨unpermitted, unlooped⟩ stepped
    rw [limited_iff_unlooped (next_unpermitted unpermitted stepped)]
    exact next_unlooped_iff unpermitted unlooped stepped

/-- A client gets its HTTP permit, is upgraded, gives the permit back and comes to its message
loop. -/
def join (i : Nat) : List Event :=
  .http .acquire :: List.replicate 4 (.http (.act i .advance)) ++
    [.upgrade i, .connection i .leaveScope, .http (.act i .release), .http (.act i .advance)] ++
    [.start, .websocketHandshake true, .createHandle true, .onOpen true].map fun step =>
      .connection i (.readLoop step)

def leave (i : Nat) : List Event :=
  [.read .error, .onClose, .frameDestroyed].map fun step => .connection i (.readLoop step)

/-- Where that leaves three clients, the first of which has left again. -/
def crowded : State :=
  let gone := ⟨false, false, .finished, 0, .spawned, true, true, true⟩
  let looping := ⟨false, false, .reading, 0, .spawned, true, false, false⟩
  ⟨false, ⟨⟨1, 5000, 0, 0, 3, false, []⟩, List.replicate 3 .released⟩, .initial 1 5000,
    [⟨0, gone, -1, true, 0⟩, ⟨1, looping, -1, true, 0⟩, ⟨2, looping, -1, true, 0⟩]⟩

/-- With room for one WebSocket connection, one has gone without a release and two are in. -/
theorem websocket_limit_ignored :
    ∃ state, Transition.execute State.next (.initial false 1 5000 1 5000)
        (join 0 ++ leave 0 ++ join 1 ++ join 2) = some state ∧
      state.inMessageLoop = 2 ∧ (∀ upgraded ∈ state.connections, upgraded.wsPermit = -1) ∧
      (∃ upgraded ∈ state.connections, upgraded.looped = true ∧
        upgraded.connection.destroyed = true ∧ upgraded.released = 0) ∧
      ¬ state.Limited 1 := by
  refine ⟨crowded, by decide +kernel, by decide, by decide, by decide, ?_⟩
  intro limited
  exact absurd limited.bounded (by decide)

end WebSocketServer

end Hku
