import HkuRest.Core.DeadlineTimer
import HkuRest.Core.Transition
import HkuRest.Httpd.WebSocketConnection

/-! The reads, writes and pings of a `WebSocketConnection`, and the one timer in its
`WebSocketContext` that bounds them all. A step is what one handler of the io_context runs
until it suspends. The steps of `readLoop` and `sendPing` are those of the connection, here
with what they do to the timer and to the stream. Times are in milliseconds. -/

namespace Hku

namespace WebSocketConfig

def MAX_WRITE_QUEUE_SIZE : Nat := 3000

def READ_TIMEOUT : Nat := 60 * 1000

def WRITE_TIMEOUT : Nat := 30 * 1000

def PING_TIMEOUT : Nat := 15 * 1000

end WebSocketConfig

namespace WebSocketIo

inductive Kind
  | read
  | write
  deriving DecidableEq, Repr

def Kind.timeout : Kind → Nat
  | .read => WebSocketConfig.READ_TIMEOUT
  | .write => WebSocketConfig.WRITE_TIMEOUT

inductive Status
  | pending
  | completed
  | aborted
  deriving DecidableEq, Repr

/-- An `async_read` or `async_write`; the timer was set for it at `armed`. -/
structure Operation where
  kind : Kind
  armed : Nat
  status : Status
  deriving DecidableEq, Repr

namespace Operation

def deadline (operation : Operation) : Nat := operation.armed + operation.kind.timeout

def isPending (operation : Operation) : Bool := operation.status = .pending

def isWriting (operation : Operation) : Bool := operation.isPending && operation.kind = .write

/-- What `m_socket.cancel()` does to it. -/
def abort (operation : Operation) : Operation :=
  if operation.isPending then { operation with status := .aborted } else operation

end Operation

/-- Who waits on the timer: the lambda that `readLoop` or `send` gave it for an operation, or
`sendPing` itself. -/
inductive Wait
  | operation (id : Nat)
  | ping
  deriving DecidableEq, Repr

structure State where
  connection : WebSocketConnection.State
  timer : DeadlineTimer Wait
  /-- Every operation begun on `m_ws_stream`; its place is its number. -/
  operations : List Operation
  /-- What `readLoop` is suspended on. -/
  read : Option Nat
  /-- The `send` calls that are suspended, each by its `async_write`. -/
  sends : List Nat
  writeQueueSize : Nat
  /-- An `async_ping` whose handler has not run. -/
  pinging : Bool
  pingSent : Bool
  /-- What the stream has taken so far: for each piece, the `async_write` it is of. -/
  stream : List Nat
  deriving DecidableEq, Repr

namespace State

def started (ssl : Bool) : State :=
  ⟨.started ssl, .idle 0, [], none, [], 0, false, false, []⟩

def cancelTimer (state : State) : State := { state with timer := state.timer.cancel }

/-- `m_socket.cancel()`. -/
def cancelSocket (state : State) : State :=
  { state with operations := state.operations.map Operation.abort }

/-- `expires_after`, `async_wait` and the operation, as `readLoop` and `send` have them. -/
def begin (state : State) (kind : Kind) : State :=
  { state with
    timer := (state.timer.expiresAfter kind.timeout).asyncWait (.operation state.operations.length)
    operations := state.operations ++ [⟨kind, state.timer.now, .pending⟩] }

def beginRead (state : State) : State :=
  { state.begin .read with read := some state.operations.length }

def isPending (state : State) (id : Nat) : Bool := state.operations[id]?.any Operation.isPending

def isWriting (state : State) (id : Nat) : Bool := state.operations[id]?.any Operation.isWriting

/-- How the read that `readLoop` waits for ended, if it did: an aborted one with an error. -/
def hasRead (state : State) (received : WebSocketConnection.Received) : Bool :=
  match state.read.bind (state.operations[·]?) with
  | some operation =>
      match operation.status with
      | .pending => false
      | .completed => true
      | .aborted => received = .error
  | none => false

/-- The rest of a pass of `sendPing`, once the interval is over: up to the wait for the pong. -/
def ping (state : State) (throws : Bool) : State :=
  let cancelled := if state.timer.expiry.isSome then state.timer.cancel else state.timer
  let timer := cancelled.expiresAfter WebSocketConfig.PING_TIMEOUT
  if throws then { state with timer := timer }
  else { state with timer := timer.asyncWait .ping, pinging := true, pingSent := false }

end State

def timerResult : DeadlineTimer.Outcome → WebSocketConnection.TimerResult
  | .expired => .expired
  | .aborted => .aborted

/-- `~WebSocketConnection` cancels the timer and puts a new one in its place. -/
def State.destroy (state : State) : State :=
  if state.connection.destroyed then { state with timer := { state.timer.cancel with expiry := none } }
  else state

/-- What a step of the connection's loop does here; `state` has taken it already. -/
def State.readLoop (state : State) : WebSocketConnection.ReadStep → Option State
  | .createHandle created => some (if created then state else state.cancelTimer)
  | .onOpen returns => some (if returns then state.beginRead else state.cancelTimer)
  | .read received =>
      if state.hasRead received then
        match received with
        | .rejected => some state.cancelTimer.beginRead
        | .message | .error => some { state.cancelTimer with read := none }
      else none
  | .onMessage returns => some (if returns then state.beginRead else state)
  | .onClose => some state.cancelTimer
  | .throws =>
      -- the read itself was told to redirect its errors; what follows it may throw
      match state.read with
      | some id => if state.isPending id then none else some { state.cancelTimer with read := none }
      | none => some state
  | .frameDestroyed => some state.destroy
  | .start | .sslHandshake _ | .websocketHandshake _ => some state

def State.sendPing (state : State) : WebSocketConnection.PingStep → Option State
  | .asyncPing throws => some (state.ping throws)
  | .pingTimer result pingSent =>
      match state.timer.ready.findIdx? (·.owner = .ping) with
      | some index =>
          if state.timer.ready[index]?.any (timerResult ·.outcome = result) && pingSent = state.pingSent then
            some { state with timer := state.timer.take index }
          else none
      | none => none
  | .close => some state.cancelTimer
  | .checks _ | .intervalTimer _ => some state

def State.moved (state : State) : WebSocketConnection.Event → Option State
  | .readLoop step => state.readLoop step
  | .sendPing step =>
      -- what it does on a destroyed object is left open
      if state.connection.destroyed then none else state.sendPing step
  | .leaveScope => some state.destroy
  | .lock => some state
  | .unlock =>
      -- a suspended `send` keeps its own pointer
      if state.sends.length ≤ state.connection.locked then some state.destroy else none
  | .ioContextDestroyed => none

inductive Event
  | connection (event : WebSocketConnection.Event)
  /-- `send_callback` is called; `isOpen` is what the stream answers. -/
  | send (isOpen : Bool)
  | resumeSend (id : Nat)
  /-- The stream takes a piece of a message. -/
  | transmit (id : Nat)
  | complete (id : Nat)
  /-- The handler of `async_ping`. -/
  | pong (success : Bool)
  | elapse (duration : Nat)
  | expire
  /-- The lambda in the queue of the timer at this place runs. -/
  | callback (index : Nat)
  deriving DecidableEq, Repr

/-- Both outcomes are answered alike, `!ec || ec == operation_aborted`, if `weak_self` can
be locked. -/
def State.callsCancel (state : State) : DeadlineTimer.Outcome → Bool
  | .expired | .aborted => state.connection.owners ≠ 0

/-- The write of `send`, which is not refused; its caller holds the connection. -/
def State.accepts (state : State) (isOpen : Bool) : Bool :=
  state.connection.contextCreated && state.connection.owners ≠ 0 && isOpen &&
    state.writeQueueSize < WebSocketConfig.MAX_WRITE_QUEUE_SIZE

def State.next (state : State) : Event → Option State
  | .connection event =>
      (state.connection.next event).bind fun connection =>
        { state with connection := connection }.moved event
  | .send isOpen =>
      if state.accepts isOpen then
        some { state.begin .write with
          connection := { state.connection with locked := state.connection.locked + 1 }
          sends := state.sends ++ [state.operations.length]
          writeQueueSize := state.writeQueueSize + 1 }
      else some state
  | .resumeSend id =>
      if id ∈ state.sends ∧ state.isPending id = false then
        (state.connection.next .unlock).map fun connection =>
          ({ state.cancelTimer with
            connection := connection
            sends := state.sends.erase id
            writeQueueSize := state.writeQueueSize - 1 } : State).destroy
      else none
  | .transmit id =>
      if state.isWriting id then some { state with stream := state.stream ++ [id] } else none
  | .complete id =>
      if state.isPending id then
        some { state with
          operations := state.operations.modify id ({ · with status := .completed }) }
      else none
  | .pong success =>
      if state.pinging && !state.connection.destroyed then
        let ponged := { state with pinging := false, pingSent := success }
        some (if success then ponged.cancelTimer else ponged)
      else none
  | .elapse duration => some { state with timer := state.timer.elapse duration }
  | .expire => state.timer.expire.map fun timer => { state with timer := timer }
  | .callback index =>
      match state.timer.ready[index]? with
      | some ⟨.operation _, outcome⟩ =>
          let taken := { state with timer := state.timer.take index }
          some (if state.callsCancel outcome then taken.cancelSocket else taken)
      | _ => none

/-- The steps of the connection, with what was the case there and with all that they do. -/
inductive Steps (state : State) : Event → State → Prop
  | connection {event : WebSocketConnection.Event} {connection : WebSocketConnection.State}
      {after : State} (moves : state.connection.next event = some connection)
      (stepped : { state with connection := connection }.moved event = some after) :
      Steps state (.connection event) after
  | sends {isOpen : Bool} (accepted : state.accepts isOpen = true) :
      Steps state (.send isOpen) { state.begin .write with
        connection := { state.connection with locked := state.connection.locked + 1 }
        sends := state.sends ++ [state.operations.length]
        writeQueueSize := state.writeQueueSize + 1 }
  | refuses {isOpen : Bool} (refused : state.accepts isOpen = false) : Steps state (.send isOpen) state
  | resumes {id : Nat} {connection : WebSocketConnection.State} (present : id ∈ state.sends)
      (ended : state.isPending id = false)
      (moves : state.connection.next .unlock = some connection) :
      Steps state (.resumeSend id) ({ state.cancelTimer with
        connection := connection
        sends := state.sends.erase id
        writeQueueSize := state.writeQueueSize - 1 } : State).destroy
  | transmits {id : Nat} (writing : state.isWriting id = true) :
      Steps state (.transmit id) { state with stream := state.stream ++ [id] }
  | completes {id : Nat} (pending : state.isPending id = true) :
      Steps state (.complete id) { state with
        operations := state.operations.modify id ({ · with status := .completed }) }
  | ponged (waiting : state.pinging = true) (intact : state.connection.destroyed = false) :
      Steps state (.pong true) { state with pinging := false, pingSent := true }.cancelTimer
  | unponged (waiting : state.pinging = true) (intact : state.connection.destroyed = false) :
      Steps state (.pong false) { state with pinging := false, pingSent := false }
  | elapses (duration : Nat) :
      Steps state (.elapse duration) { state with timer := state.timer.elapse duration }
  | expires {timer : DeadlineTimer Wait} (fires : state.timer.expire = some timer) :
      Steps state .expire { state with timer := timer }
  | cancels {index id : Nat} {outcome : DeadlineTimer.Outcome}
      (queued : state.timer.ready[index]? = some ⟨.operation id, outcome⟩)
      (calls : state.callsCancel outcome = true) :
      Steps state (.callback index) ({ state with timer := state.timer.take index } : State).cancelSocket
  | passes {index id : Nat} {outcome : DeadlineTimer.Outcome}
      (queued : state.timer.ready[index]? = some ⟨.operation id, outcome⟩)
      (silent : state.callsCancel outcome = false) :
      Steps state (.callback index) { state with timer := state.timer.take index }

theorem next_steps {before after : State} {event : Event} (stepped : before.next event = some after) :
    Steps before event after := by
  cases event with
  | connection event =>
    simp only [State.next, Option.bind_eq_some_iff] at stepped
    obtain ⟨connection, moves, stepped⟩ := stepped
    exact .connection moves stepped
  | send isOpen =>
    cases accepted : before.accepts isOpen with
    | false =>
      simp only [State.next, accepted, Bool.false_eq_true, if_false, Option.some.injEq] at stepped
      subst stepped
      exact .refuses accepted
    | true =>
      simp only [State.next, accepted, if_true, Option.some.injEq] at stepped
      subst stepped
      exact .sends accepted
  | resumeSend id =>
    simp only [State.next, Option.ite_none_right_eq_some, Option.map_eq_some_iff] at stepped
    obtain ⟨⟨present, ended⟩, connection, moves, rfl⟩ := stepped
    exact .resumes present ended moves
  | transmit id =>
    simp only [State.next, Option.ite_none_right_eq_some, Option.some.injEq] at stepped
    obtain ⟨writing, rfl⟩ := stepped
    exact .transmits writing
  | complete id =>
    simp only [State.next, Option.ite_none_right_eq_some, Option.some.injEq] at stepped
    obtain ⟨pending, rfl⟩ := stepped
    exact .completes pending
  | pong success =>
    simp only [State.next, Option.ite_none_right_eq_some, Option.some.injEq, Bool.and_eq_true,
      Bool.not_eq_eq_eq_not, Bool.not_true] at stepped
    obtain ⟨⟨waiting, intact⟩, rfl⟩ := stepped
    cases success with
    | true => exact .ponged waiting intact
    | false => exact .unponged waiting intact
  | elapse duration =>
    cases stepped
    exact .elapses duration
  | expire =>
    simp only [State.next, Option.map_eq_some_iff] at stepped
    obtain ⟨timer, fires, rfl⟩ := stepped
    exact .expires fires
  | callback index =>
    simp only [State.next] at stepped
    split at stepped
    · rename_i id outcome queued
      cases stepped
      split
      · rename_i calls
        exact .cancels queued calls
      · rename_i silent
        exact .passes queued (Bool.eq_false_iff.mpr silent)
    · cases stepped

/-- The steps that cancel the timer or set it anew, and leave the connection alive. -/
def readMoves (reading : Bool) : WebSocketConnection.ReadStep → Bool
  | .createHandle created => !created
  | .onOpen _ | .read _ | .onClose => true
  | .onMessage returns => returns
  | .throws => reading
  | .start | .sslHandshake _ | .websocketHandshake _ | .frameDestroyed => false

def pingMoves : WebSocketConnection.PingStep → Bool
  | .asyncPing _ | .close => true
  | .checks _ | .intervalTimer _ | .pingTimer _ _ => false

variable {state before after : State} {event : Event}

/-- What a step of `readLoop` comes to, and whether it moves the timer. -/
inductive ReadOutcome (before after : State) (moves : Bool) : Prop
  | still (idle : moves = false) (same : after = before)
  | destroy (idle : moves = false) (same : after = before.destroy)
  | cancel (active : moves = true) (read : Option Nat)
      (same : after = { before.cancelTimer with read := read })
  | begin (active : moves = true) (same : after = before.beginRead)
  | beginAgain (active : moves = true) (same : after = before.cancelTimer.beginRead)

theorem readLoop_outcome {step : WebSocketConnection.ReadStep} (stepped : before.readLoop step = some after) :
    ReadOutcome before after (readMoves before.read.isSome step) := by
  cases step with
  | start | sslHandshake | websocketHandshake =>
    cases stepped
    exact .still rfl rfl
  | frameDestroyed =>
    cases stepped
    exact .destroy rfl rfl
  | createHandle created =>
    cases stepped
    cases created with
    | true => exact .still rfl rfl
    | false => exact .cancel rfl before.read rfl
  | onOpen returns =>
    cases stepped
    cases returns with
    | true => exact .begin rfl rfl
    | false => exact .cancel rfl before.read rfl
  | read received =>
    simp only [State.readLoop, Option.ite_none_right_eq_some] at stepped
    obtain ⟨_, stepped⟩ := stepped
    cases received with
    | message | error =>
      cases stepped
      exact .cancel rfl none rfl
    | rejected =>
      cases stepped
      exact .beginAgain rfl rfl
  | onMessage returns =>
    cases stepped
    cases returns with
    | true => exact .begin rfl rfl
    | false => exact .still rfl rfl
  | onClose =>
    cases stepped
    exact .cancel rfl before.read rfl
  | throws =>
    simp only [State.readLoop] at stepped
    cases reading : before.read with
    | none =>
      simp only [reading, Option.some.injEq] at stepped
      exact .still rfl stepped.symm
    | some id =>
      simp only [reading, Option.ite_none_left_eq_some, Option.some.injEq] at stepped
      exact .cancel rfl none stepped.2.symm

/-- The same for `sendPing`. -/
inductive PingOutcome (before after : State) (moves : Bool) : Prop
  | still (idle : moves = false) (same : after = before)
  | resume (idle : moves = false) (index : Nat)
      (same : after = { before with timer := before.timer.take index })
  | ping (active : moves = true) (throws : Bool) (same : after = before.ping throws)
  | cancel (active : moves = true) (same : after = before.cancelTimer)

theorem sendPing_outcome {step : WebSocketConnection.PingStep} (stepped : before.sendPing step = some after) :
    PingOutcome before after (pingMoves step) := by
  cases step with
  | checks | intervalTimer =>
    cases stepped
    exact .still rfl rfl
  | asyncPing throws =>
    cases stepped
    exact .ping rfl throws rfl
  | pingTimer result pingSent =>
    simp only [State.sendPing] at stepped
    split at stepped
    · simp only [Option.ite_none_right_eq_some, Option.some.injEq] at stepped
      obtain ⟨_, rfl⟩ := stepped
      exact .resume rfl _ rfl
    · cases stepped
  | close =>
    cases stepped
    exact .cancel rfl rfl

theorem destroy_connection : state.destroy.connection = state.connection := by
  unfold State.destroy
  split <;> rfl

theorem ping_connection (throws : Bool) : (state.ping throws).connection = state.connection := by
  cases throws <;> rfl

theorem readLoop_connection {step : WebSocketConnection.ReadStep}
    (stepped : before.readLoop step = some after) : after.connection = before.connection := by
  cases readLoop_outcome stepped with
  | still _ same | cancel _ _ same | begin _ same | beginAgain _ same =>
    subst same
    rfl
  | destroy _ same => rw [same, destroy_connection]

theorem sendPing_connection {step : WebSocketConnection.PingStep}
    (stepped : before.sendPing step = some after) : after.connection = before.connection := by
  cases sendPing_outcome stepped with
  | still _ same | resume _ _ same | cancel _ same =>
    subst same
    rfl
  | ping _ throws same => rw [same, ping_connection]

theorem moved_connection {step : WebSocketConnection.Event} (stepped : before.moved step = some after) :
    after.connection = before.connection := by
  cases step with
  | readLoop step => exact readLoop_connection stepped
  | sendPing step =>
    simp only [State.moved, Option.ite_none_left_eq_some] at stepped
    exact sendPing_connection stepped.2
  | leaveScope =>
    cases stepped
    exact destroy_connection
  | lock =>
    cases stepped
    rfl
  | unlock =>
    simp only [State.moved, Option.ite_none_right_eq_some, Option.some.injEq] at stepped
    obtain ⟨_, rfl⟩ := stepped
    exact destroy_connection
  | ioContextDestroyed => cases stepped

theorem next_connection (stepped : before.next event = some after) :
    after.connection = before.connection ∨
      ∃ step, before.connection.next step = some after.connection := by
  cases next_steps stepped with
  | connection moves stepped =>
    exact .inr ⟨_, moves.trans (congrArg some (moved_connection stepped).symm)⟩
  | sends accepted =>
    refine .inr ⟨.lock, ?_⟩
    simp only [State.accepts, Bool.and_eq_true, decide_eq_true_eq] at accepted
    simp [WebSocketConnection.State.next, accepted]
  | resumes _ _ moves =>
    refine .inr ⟨.unlock, ?_⟩
    rw [destroy_connection]
    exact moves
  | _ => exact .inl rfl

theorem reaches_connection {allowed : State → Event → Prop} {ssl : Bool}
    (reached : Transition.Reaches State.next allowed (.started ssl) state) :
    Transition.Reaches WebSocketConnection.State.next (fun _ _ => True) (.started ssl)
      state.connection := by
  induction reached with
  | refl => exact .refl
  | step _ _ stepped ih =>
    rcases next_connection stepped with same | ⟨step, moves⟩
    · rwa [same]
    · exact .step ih trivial moves

inductive Effect (event : Event) (before after : State) : Prop
  | keep (operations : after.operations = before.operations) (stream : after.stream = before.stream)
  | beginRead
      (operations : after.operations = before.operations ++ [⟨.read, before.timer.now, .pending⟩])
      (stream : after.stream = before.stream)
  | beginWrite (isOpen : Bool) (sends : event = .send isOpen) (accepted : before.accepts isOpen = true)
      (operations : after.operations = before.operations ++ [⟨.write, before.timer.now, .pending⟩])
      (stream : after.stream = before.stream)
  | transmit (id : Nat) (writing : before.isWriting id = true)
      (operations : after.operations = before.operations) (stream : after.stream = before.stream ++ [id])
  | complete (id : Nat) (completes : event = .complete id)
      (operations : after.operations = before.operations.modify id ({ · with status := .completed }))
      (stream : after.stream = before.stream)
  | cancel (index id : Nat) (outcome : DeadlineTimer.Outcome) (runs : event = .callback index)
      (queued : before.timer.ready[index]? = some ⟨.operation id, outcome⟩)
      (calls : before.callsCancel outcome = true)
      (operations : after.operations = before.operations.map Operation.abort)
      (stream : after.stream = before.stream)

theorem destroy_operations : state.destroy.operations = state.operations := by
  unfold State.destroy
  split <;> rfl

theorem destroy_stream : state.destroy.stream = state.stream := by
  unfold State.destroy
  split <;> rfl

variable {connection : WebSocketConnection.State}

theorem readLoop_effect {step : WebSocketConnection.ReadStep}
    (stepped : { before with connection := connection }.readLoop step = some after) :
    Effect event before after := by
  cases readLoop_outcome stepped with
  | still _ same | cancel _ _ same =>
    subst same
    exact .keep rfl rfl
  | begin _ same | beginAgain _ same =>
    subst same
    exact .beginRead rfl rfl
  | destroy _ same =>
    subst same
    exact .keep destroy_operations destroy_stream

theorem sendPing_effect {step : WebSocketConnection.PingStep}
    (stepped : { before with connection := connection }.sendPing step = some after) :
    Effect event before after := by
  cases sendPing_outcome stepped with
  | still _ same | resume _ _ same | cancel _ same =>
    subst same
    exact .keep rfl rfl
  | ping _ throws same =>
    subst same
    cases throws <;> exact .keep rfl rfl

theorem moved_effect {step : WebSocketConnection.Event}
    (stepped : { before with connection := connection }.moved step = some after) :
    Effect event before after := by
  cases step with
  | readLoop step => exact readLoop_effect stepped
  | sendPing step =>
    simp only [State.moved, Option.ite_none_left_eq_some] at stepped
    exact sendPing_effect stepped.2
  | leaveScope =>
    cases stepped
    exact .keep destroy_operations destroy_stream
  | lock =>
    cases stepped
    exact .keep rfl rfl
  | unlock =>
    simp only [State.moved, Option.ite_none_right_eq_some, Option.some.injEq] at stepped
    obtain ⟨_, rfl⟩ := stepped
    exact .keep destroy_operations destroy_stream
  | ioContextDestroyed => cases stepped

theorem next_effect (stepped : before.next event = some after) : Effect event before after := by
  cases next_steps stepped with
  | connection _ stepped => exact moved_effect stepped
  | @sends isOpen accepted => exact .beginWrite isOpen rfl accepted rfl rfl
  | resumes => exact .keep destroy_operations destroy_stream
  | @transmits id writing => exact .transmit id writing rfl rfl
  | @completes id _ => exact .complete id rfl rfl rfl
  | @cancels index id outcome queued calls => exact .cancel index id outcome rfl queued calls rfl rfl
  | refuses | ponged | unponged | elapses | expires | passes => exact .keep rfl rfl

end WebSocketIo

end Hku
