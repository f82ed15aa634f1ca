import HkuRest.Core.Transition

/-! `WebSocketConnection`: the object, the two coroutines that work on it and the
pointers that keep it alive. `readLoop` owns its connection through its argument,
callbacks own it while a `weak_ptr` of theirs is locked, and `sendPing` has only its
`this`. Each coroutine is cut where it suspends and where it uses the object. -/

namespace Hku.WebSocketConnection

/-- Where `readLoop` is; once it has returned, its frame is still to be destroyed. -/
inductive Reader
  | starting
  | sslHandshake
  | websocketHandshake
  | routing
  | opening
  | reading
  | handling
  | closing
  | returning
  | finished
  deriving DecidableEq, Repr

def Reader.isRunning : Reader → Bool
  | .starting | .returning | .finished => false
  | _ => true

/-- Where `sendPing` is. -/
inductive Ping
  | unspawned
  | spawned
  | looping
  | sleeping
  | woken
  | pinging
  | waiting
  | closing
  | ended
  deriving DecidableEq, Repr

/-- The coroutine exists and has steps to take. -/
def Ping.isPending : Ping → Bool
  | .unspawned | .ended => false
  | _ => true

structure State where
  ssl : Bool
  /-- `ws_connection` in the loop of the HTTP connection that was upgraded. -/
  wsConnection : Bool
  reader : Reader
  /-- Callbacks that hold a locked `weak_ptr`. -/
  locked : Nat
  ping : Ping
  contextCreated : Bool
  pingStopped : Bool
  destroyed : Bool
  deriving DecidableEq, Repr

namespace State

/-- After `create` and `start()`. -/
def started (ssl : Bool) : State := ⟨ssl, true, .starting, 0, .unspawned, false, false, false⟩

/-- The `shared_ptr`s to the connection. -/
def owners (state : State) : Nat :=
  state.wsConnection.toNat + (state.reader ≠ .finished : Bool).toNat + state.locked

/-- `~WebSocketConnection`, with the last owner. -/
def release (state : State) : State :=
  if state.owners = 0 then { state with pingStopped := true, destroyed := true } else state

def close (state : State) : State := { state with pingStopped := true }

end State

inductive Received
  | message
  | rejected
  | error
  deriving DecidableEq, Repr

inductive ReadStep
  | start
  | sslHandshake (success : Bool)
  | websocketHandshake (success : Bool)
  | createHandle (created : Bool)
  | onOpen (returns : Bool)
  | read (received : Received)
  | onMessage (returns : Bool)
  | onClose
  | throws
  | frameDestroyed
  deriving DecidableEq, Repr

/-- The result, if this is where `readLoop` is. -/
def State.whenReader (state : State) (reader : Reader) (result : State) : Option State :=
  if state.reader = reader then some result else none

/-- `readLoop(self)`. -/
def State.readLoop (state : State) : ReadStep → Option State
  | .start =>
      state.whenReader .starting
        { state with reader := if state.ssl then .sslHandshake else .websocketHandshake }
  | .sslHandshake success =>
      state.whenReader .sslHandshake
        (if success then { state with reader := .websocketHandshake }
        else { state.close with reader := .returning })
  | .websocketHandshake success =>
      state.whenReader .websocketHandshake
        (if success then { state with reader := .routing, contextCreated := true }
        else { state.close with reader := .returning })
  | .createHandle created =>
      state.whenReader .routing
        (if created then { state with reader := .opening }
        else { state.close with reader := .returning })
  | .onOpen returns =>
      -- `co_spawn(m_io_ctx, sendPing(), detached)` when the handle is open
      state.whenReader .opening
        (if returns then { state with reader := .reading, ping := .spawned }
        else { state.close with reader := .returning })
  | .read received =>
      state.whenReader .reading
        (match received with
        | .message => { state with reader := .handling }
        | .rejected => state
        | .error => { state with reader := .closing })
  | .onMessage returns =>
      state.whenReader .handling { state with reader := if returns then .reading else .closing }
  | .onClose => state.whenReader .closing { state.close with reader := .returning }
  | .throws =>
      -- an exception that `readLoop` does not catch
      if state.reader.isRunning then some { state with reader := .returning } else none
  | .frameDestroyed =>
      state.whenReader .returning { state with reader := .finished }.release

inductive TimerResult
  | expired
  | aborted
  | failed
  deriving DecidableEq, Repr

inductive PingStep
  | checks (isOpen : Bool)
  | intervalTimer (result : TimerResult)
  | asyncPing (throws : Bool)
  | pingTimer (result : TimerResult) (pingSent : Bool)
  | close
  deriving DecidableEq, Repr

/-- `sendPing()`; `isOpen` is what the stream answers when it is asked. -/
def State.sendPing (state : State) : PingStep → Option State
  | .checks isOpen =>
      match state.ping with
      | .spawned => some { state with ping := if isOpen then .looping else .ended }
      | .looping => some { state with ping := if isOpen && !state.pingStopped then .sleeping else .ended }
      | .woken => some { state with ping := if isOpen && !state.pingStopped then .pinging else .ended }
      | _ => none
  | .intervalTimer result =>
      if state.ping = .sleeping then
        some { state with ping := if result = .expired then .woken else .ended }
      else none
  | .asyncPing throws =>
      if state.ping = .pinging then some { state with ping := if throws then .ended else .waiting }
      else none
  | .pingTimer result pingSent =>
      -- a cancelled timer means that the ping was completed in time
      if state.ping = .waiting then
        some { state with ping := if result = .aborted && pingSent then .looping else .closing }
      else none
  | .close => if state.ping = .closing then some { state.close with ping := .ended } else none

inductive Event
  | readLoop (step : ReadStep)
  | sendPing (step : PingStep)
  | leaveScope
  | lock
  | unlock
  | ioContextDestroyed
  deriving DecidableEq, Repr

def State.next (state : State) : Event → Option State
  | .readLoop step => state.readLoop step
  | .sendPing step => state.sendPing step
  | .leaveScope =>
      if state.wsConnection then some { state with wsConnection := false }.release else none
  | .lock =>
      -- `weak_from_this()` was handed out with the context; `lock()` of an expired one is null
      if state.contextCreated then
        some (if state.owners = 0 then state else { state with locked := state.locked + 1 })
      else none
  | .unlock =>
      if state.locked ≠ 0 then some { state with locked := state.locked - 1 }.release else none
  | .ioContextDestroyed =>
      -- the frames of all coroutines go, and none of them runs again
      some { state with
        wsConnection := false, reader := .finished, locked := 0, ping := .ended,
        pingStopped := true, destroyed := true }

end Hku.WebSocketConnection
