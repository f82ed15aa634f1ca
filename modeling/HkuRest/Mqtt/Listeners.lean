import HkuRest.Core.Transition

/-! The listener coroutines of `MqttBroker`. Errors of `async_accept` come as a value; the
socket options and the TLS handshake report theirs by throwing, and a listener catches
nothing. Nor does it limit the time of a handshake, which it awaits within its loop. -/

namespace Hku.MqttListener

/-- What a listener reads of `m_config`. -/
structure MqttConfig where
  tcpNoDelay : Bool
  recvBufSize : Int
  sendBufSize : Int
  deriving DecidableEq, Repr

inductive SocketOption
  | noDelay (value : Bool)
  | receiveBufferSize (size : Int)
  | sendBufferSize (size : Int)
  deriving DecidableEq, Repr

/-- The options that are set, in this order. -/
def applySocketOpts (config : MqttConfig) : List SocketOption :=
  .noDelay config.tcpNoDelay ::
    ((if config.recvBufSize ≠ 0 then [.receiveBufferSize config.recvBufSize] else []) ++
      (if config.sendBufSize ≠ 0 then [.sendBufferSize config.sendBufSize] else []))

/-- The four listeners differ in whether they do a handshake. -/
structure Listener where
  handshakes : Bool
  deriving DecidableEq, Repr

def startMqttListener : Listener := ⟨false⟩

def startWsListener : Listener := ⟨false⟩

def startTlsListener : Listener := ⟨true⟩

def startWssListener : Listener := ⟨true⟩

inductive AcceptError
  | tooManyFilesOpen
  | noBufferSpace
  | notEnoughMemory
  | other (code : Int)
  deriving DecidableEq, Repr

def AcceptError.exhausted : AcceptError → Bool
  | .other _ => false
  | _ => true

/-- What comes of `async_handshake`: for a client that stays silent, nothing. -/
inductive Handshake
  | succeeds
  | fails
  | hangs
  deriving DecidableEq, Repr

/-- Where a coroutine is; `testing` is the condition of its loop, `waiting` the timer of a
second, `hanging` a handshake that is never completed, and `handling` hands the connection over
to the broker. -/
inductive Phase
  | testing
  | accepting
  | waiting
  | settingOptions (option : SocketOption) (rest : List SocketOption)
  | handshaking
  | hanging
  | handling
  | ended
  deriving DecidableEq, Repr

/-- The coroutine takes no further step. -/
def Phase.lost : Phase → Bool
  | .hanging | .ended => true
  | _ => false

/-- What a handshake leads to. -/
def Handshake.phase : Handshake → Phase
  | .succeeds => .handling
  | .fails => .ended
  | .hangs => .hanging

/-- A coroutine beside `m_stop_requested`. -/
structure State where
  phase : Phase
  stopRequested : Bool
  handled : Nat
  deriving DecidableEq, Repr

inductive Event
  | test
  | accepted (error : Option AcceptError)
  | waited
  | optionSet (success : Bool)
  | handshaken (result : Handshake)
  | handle
  | stop
  deriving DecidableEq, Repr

/-- A step of the coroutine other than `async_accept`. -/
def Event.own : Event → Bool
  | .accepted _ | .stop => false
  | _ => true

/-- An operation that throws, or is never completed. -/
def Event.fails : Event → Bool
  | .optionSet success => !success
  | .handshaken result => result ≠ .succeeds
  | _ => false

namespace State

def initial : State := ⟨.testing, false, 0⟩

def next (listener : Listener) (config : MqttConfig) (state : State) : Event → Option State
  | .test =>
      if state.phase = .testing then
        some { state with phase := if state.stopRequested then .ended else .accepting }
      else none
  | .accepted error =>
      if state.phase = .accepting then
        match error, applySocketOpts config with
        | some error, _ =>
            some { state with phase :=
              if !state.stopRequested && error.exhausted then .waiting else .testing }
        | none, option :: rest => some { state with phase := .settingOptions option rest }
        | none, [] => none
      else none
  | .waited => if state.phase = .waiting then some { state with phase := .testing } else none
  | .optionSet success =>
      match state.phase with
      | .settingOptions _ rest =>
          if success then
            some { state with phase :=
              match rest with
              | option :: more => .settingOptions option more
              | [] => if listener.handshakes then .handshaking else .handling }
          else some { state with phase := .ended }
      | _ => none
  | .handshaken result =>
      if state.phase = .handshaking then some { state with phase := result.phase } else none
  | .handle =>
      if state.phase = .handling then some { state with phase := .testing, handled := state.handled + 1 }
      else none
  | .stop => some { state with stopRequested := true }

/-- How many steps of its own the coroutine is away from `async_accept`, at most. -/
def distance (state : State) : Nat :=
  match state.phase with
  | .accepting | .hanging | .ended => 0
  | .testing => 1
  | .waiting | .handling => 2
  | .handshaking => 3
  | .settingOptions _ rest => 4 + rest.length

/-- The coroutine ends, or is suspended for good, only when the end was requested, and otherwise
gets back to `async_accept`. -/
structure Perseveres (before : State) (event : Event) (after : State) : Prop where
  lives : before.phase.lost = false → after.phase.lost = true → before.stopRequested = true
  nears : event.own = true → after.phase.lost = true ∨ after.distance < before.distance

/-- Nothing throws or is left without a result before the end was requested. -/
def Unfailing (before : State) (event : Event) (_ : State) : Prop :=
  event.fails = true → before.stopRequested = true

end State

variable {listener : Listener} {config : MqttConfig} {before after start last : State} {event : Event}

theorem next_nears (stepped : before.next listener config event = some after)
    (own : event.own = true) : after.phase.lost = true ∨ after.distance < before.distance := by
  obtain ⟨phase, stopRequested, handled⟩ := before
  cases event with
  | accepted error | stop => cases own
  | test =>
    simp only [State.next, Option.ite_none_right_eq_some, Option.some.injEq] at stepped
    obtain ⟨rfl, rfl⟩ := stepped
    cases stopRequested with
    | true => exact .inl rfl
    | false => exact .inr (by simp [State.distance])
  | waited | handle =>
    simp only [State.next, Option.ite_none_right_eq_some, Option.some.injEq] at stepped
    obtain ⟨rfl, rfl⟩ := stepped
    exact .inr (by simp [State.distance])
  | handshaken result =>
    simp only [State.next, Option.ite_none_right_eq_some, Option.some.injEq] at stepped
    obtain ⟨rfl, rfl⟩ := stepped
    cases result with
    | succeeds => exact .inr (by simp [State.distance, Handshake.phase])
    | fails | hangs => exact .inl rfl
  | optionSet success =>
    cases phase with
    | settingOptions option rest =>
      cases success with
      | false =>
        cases stepped
        exact .inl rfl
      | true =>
        cases stepped
        right
        cases rest with
        | cons next more => simp [State.distance]
        | nil =>
          cases listener.handshakes with
          | true => simp [State.distance]
          | false => simp [State.distance]
    | _ => cases stepped

/-- The ways to get lost: the condition of the loop, an exception, and a handshake without end. -/
theorem next_lost (stepped : before.next listener config event = some after)
    (running : before.phase.lost = false) :
    after.phase.lost = true ↔ event.fails = true ∨ event = .test ∧ before.stopRequested = true := by
  obtain ⟨phase, stopRequested, handled⟩ := before
  cases event with
  | stop =>
    cases stepped
    simpa [Event.fails] using running
  | accepted error =>
    simp only [State.next, Option.ite_none_right_eq_some] at stepped
    obtain ⟨rfl, stepped⟩ := stepped
    cases error with
    | none =>
      cases stepped
      simp [Event.fails, Phase.lost]
    | some error =>
      cases stepped
      cases stopRequested <;> cases error.exhausted <;> simp [Event.fails, Phase.lost]
  | test =>
    simp only [State.next, Option.ite_none_right_eq_some, Option.some.injEq] at stepped
    obtain ⟨rfl, rfl⟩ := stepped
    cases stopRequested <;> simp [Event.fails, Phase.lost]
  | waited | handle =>
    simp only [State.next, Option.ite_none_right_eq_some, Option.some.injEq] at stepped
    obtain ⟨rfl, rfl⟩ := stepped
    simp [Event.fails, Phase.lost]
  | handshaken result =>
    simp only [State.next, Option.ite_none_right_eq_some, Option.some.injEq] at stepped
    obtain ⟨rfl, rfl⟩ := stepped
    cases result <;> simp [Event.fails, Handshake.phase, Phase.lost]
  | optionSet success =>
    cases phase with
    | settingOptions option rest =>
      cases success with
      | false =>
        cases stepped
        simp [Event.fails, Phase.lost]
      | true =>
        cases stepped
        cases rest with
        | cons next more => simp [Event.fails, Phase.lost]
        | nil => cases listener.handshakes <;> simp [Event.fails, Phase.lost]
    | _ => cases stepped

theorem next_fails_running (stepped : before.next listener config event = some after)
    (fails : event.fails = true) : before.phase.lost = false := by
  obtain ⟨phase, stopRequested, handled⟩ := before
  cases event with
  | optionSet success =>
    cases phase with
    | settingOptions option rest => rfl
    | _ => cases stepped
  | handshaken result =>
    simp only [State.next, Option.ite_none_right_eq_some] at stepped
    obtain ⟨rfl, _⟩ := stepped
    rfl
  | _ => cases fails

theorem unfailing_iff_perseveres (stepped : before.next listener config event = some after) :
    before.Unfailing event after ↔ before.Perseveres event after := by
  constructor
  · refine fun unfailing => ⟨fun running lost => ?_, next_nears stepped⟩
    obtain fails | ⟨-, requested⟩ := (next_lost stepped running).mp lost
    · exact unfailing fails
    · exact requested
  · intro perseveres fails
    have running := next_fails_running stepped fails
    exact perseveres.lives running ((next_lost stepped running).mpr (.inl fails))

/-- A listener perseveres exactly in the runs in which nothing throws or is left without a result
before the end was requested. -/
theorem listener_perseveres_iff (listener : Listener) (config : MqttConfig) (events : List Event) :
    Transition.Along (State.next listener config) State.Perseveres .initial events ↔
      Transition.Along (State.next listener config) State.Unfailing .initial events :=
  Transition.along_iff (fun _ => True) trivial (fun _ _ _ _ _ _ => trivial)
    (fun _ _ _ _ stepped => (unfailing_iff_perseveres stepped).symm) events

/-- One client connects to the TLS listener and sends no proper handshake. -/
theorem listener_ended_by_client :
    ¬ ∀ (listener : Listener) (config : MqttConfig) (events : List Event),
      Transition.Along (State.next listener config) State.Perseveres .initial events := by
  intro perseveres
  have run := perseveres startTlsListener ⟨true, 0, 0⟩
    [.test, .accepted none, .optionSet true, .handshaken .fails]
  obtain ⟨-, run⟩ := run _ rfl
  obtain ⟨-, run⟩ := run _ rfl
  obtain ⟨-, run⟩ := run _ rfl
  obtain ⟨step, -⟩ := run _ rfl
  exact absurd (step.lives (by decide) rfl) (by decide)

/-- After an attempt, so many steps of its own bring the coroutine back, if it lives. -/
theorem own_steps_return {events : List Event}
    (ran : Transition.execute (State.next listener config) start events = some last)
    (own : ∀ event ∈ events, event.own = true) :
    last.phase.lost = true ∨ events.length + last.distance ≤ start.distance := by
  induction events generalizing start with
  | nil =>
    cases ran
    exact .inr (by simp)
  | cons event rest ih =>
    obtain ⟨middle, stepped, ran⟩ := Option.bind_eq_some_iff.mp ran
    obtain ⟨first, others⟩ := List.forall_mem_cons.mp own
    obtain lost | within := ih ran others
    · exact .inl lost
    · obtain lost | nearer := next_nears stepped first
      · cases rest with
        | nil =>
          cases ran
          exact .inl lost
        | cons event more =>
          -- a coroutine that is lost takes no further step of its own
          have none_left : middle.distance = 0 := by
            obtain ⟨phase, stopRequested, handled⟩ := middle
            cases phase with
            | hanging | ended => rfl
            | _ => cases lost
          simp only [List.length_cons] at within
          omega
      · simp only [List.length_cons]
        exact .inr (by omega)

end Hku.MqttListener
