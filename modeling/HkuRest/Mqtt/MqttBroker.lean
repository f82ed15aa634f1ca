import HkuRest.Core.Transition

/-! `MqttBroker::Impl::start` and `stop`, cut at what other threads can notice. `stop`
stops the io_contexts for good and `start` does not restart them, nor does it reset
`m_running` when it returns. -/

namespace Hku.MqttBroker

/-- What `start` reads of the configuration. -/
structure Config where
  mqttPort : UInt16
  wsPort : UInt16
  numIocs : Nat
  threadsPerIoc : Nat
  deriving DecidableEq, Repr

/-- Why a `run()` ended. -/
inductive RunEnd
  | stopped
  | outOfWork
  | exception
  deriving DecidableEq, Repr

/-- How far a `start()` has come; it is `refused` when the broker runs already. -/
inductive StartPhase
  | entering
  | clearing
  | listening
  | spawning
  | accepting
  | joining
  | refused
  | returned
  | thrown
  deriving DecidableEq, Repr

/-- `overtaken`: since this call set `m_running`, a `stop()` has reset it. -/
structure Start where
  phase : StartPhase
  overtaken : Bool
  deriving DecidableEq, Repr

def Start.inProgress (start : Start) : Bool :=
  match start.phase with
  | .refused | .returned | .thrown => false
  | _ => true

/-- The call has set `m_running`, and has not ended. -/
def Start.winning (start : Start) : Bool :=
  match start.phase with
  | .clearing | .listening | .spawning | .accepting | .joining => true
  | _ => false

inductive StopPhase
  | entering
  | requesting
  | releasingAccept
  | releasingConnections
  | stoppingAccept
  | stoppingConnections
  | joining
  | returned
  deriving DecidableEq, Repr

/-- An io_context: whether its work guard is there, and whether it was stopped. -/
structure Context where
  guarded : Bool
  stopped : Bool
  deriving DecidableEq, Repr

/-- `run()` returns when the context was stopped, or has no work left, which a guard
prevents; or an exception leaves it. -/
def Context.mayEnd (context : Context) : RunEnd → Bool
  | .stopped => context.stopped
  | .outOfWork => !context.guarded
  | .exception => true

/-- The broker with the calls of its `start` and `stop`; all contexts for connections are
one here, and `threads` says of each connection thread why its `run()` ended, if it did. -/
structure State where
  running : Bool
  stopRequested : Bool
  accept : Context
  connections : Context
  threads : List (Option RunEnd)
  starts : List Start
  stops : List StopPhase
  deriving DecidableEq, Repr

inductive Event
  | start
  | stop
  | startStep (i : Nat)
  | listenThrows (i : Nat)
  | spawnThrows (i spawned : Nat)
  | acceptEnds (i : Nat) (why : RunEnd)
  | threadEnds (i : Nat) (why : RunEnd)
  | stopStep (i : Nat)
  deriving DecidableEq, Repr

namespace State

def initial : State := ⟨false, false, ⟨true, false⟩, ⟨true, false⟩, [], [], []⟩

/-- All connection threads have ended, so that joining them does not block. -/
def joinable (state : State) : Bool := state.threads.all Option.isSome

def setPhase (state : State) (i : Nat) (start : Start) (phase : StartPhase) : State :=
  { state with starts := state.starts.set i { start with phase } }

/-- The steps of `start()` that do not throw. -/
def startNext (config : Config) (state : State) (i : Nat) (start : Start) : Option State :=
  match start.phase with
  | .entering =>
      if state.running then some (state.setPhase i start .refused)
      else
        some { state.setPhase i { start with overtaken := false } .clearing with running := true }
  | .clearing => some { state.setPhase i start .listening with stopRequested := false }
  | .listening => some (state.setPhase i start .spawning)
  | .spawning =>
      some { state.setPhase i start .accepting with
        threads := state.threads ++ List.replicate (config.numIocs * config.threadsPerIoc) none }
  | .joining => if state.joinable then some (state.setPhase i start .returned) else none
  | _ => none

/-- The handler of `start()`, which resets `m_running` and throws again. -/
def rethrow (state : State) (i : Nat) (start : Start) : State :=
  { state.setPhase i start .thrown with running := false }

def stopNext (state : State) (i : Nat) : StopPhase → Option State
  | .entering =>
      if state.running then
        some { state with
          running := false
          starts := state.starts.map fun start => { start with overtaken := true }
          stops := state.stops.set i .requesting }
      else some { state with stops := state.stops.set i .returned }
  | .requesting =>
      some { state with stopRequested := true, stops := state.stops.set i .releasingAccept }
  | .releasingAccept =>
      some { state with
        accept := { state.accept with guarded := false }
        stops := state.stops.set i .releasingConnections }
  | .releasingConnections =>
      some { state with
        connections := { state.connections with guarded := false }
        stops := state.stops.set i .stoppingAccept }
  | .stoppingAccept =>
      some { state with
        accept := { state.accept with stopped := true }
        stops := state.stops.set i .stoppingConnections }
  | .stoppingConnections =>
      some { state with
        connections := { state.connections with stopped := true }
        stops := state.stops.set i .joining }
  | .joining =>
      if state.joinable then some { state with threads := [], stops := state.stops.set i .returned }
      else none
  | .returned => none

/-- The TLS and WSS listeners catch what their setup throws, the other two do not. -/
def next (config : Config) (state : State) : Event → Option State
  | .start => some { state with starts := state.starts ++ [⟨.entering, false⟩] }
  | .stop => some { state with stops := state.stops ++ [.entering] }
  | .startStep i => do
      let start ← state.starts[i]?
      state.startNext config i start
  | .listenThrows i => do
      let start ← state.starts[i]?
      if start.phase = .listening ∧ (config.mqttPort ≠ 0 ∨ config.wsPort ≠ 0) then
        some (state.rethrow i start)
      else none
  | .spawnThrows i spawned => do
      let start ← state.starts[i]?
      if start.phase = .spawning ∧ spawned < config.numIocs * config.threadsPerIoc then
        some { state.rethrow i start with threads := state.threads ++ List.replicate spawned none }
      else none
  | .acceptEnds i why => do
      let start ← state.starts[i]?
      if start.phase = .accepting ∧ state.accept.mayEnd why then some (state.setPhase i start .joining)
      else none
  | .threadEnds i why => do
      let thread ← state.threads[i]?
      if thread = none ∧ state.connections.mayEnd why then
        some { state with threads := state.threads.set i (some why) }
      else none
  | .stopStep i => do
      let phase ← state.stops[i]?
      state.stopNext i phase

/-- A `start()` that ran returns only after a `stop()` has reset `m_running` behind it. -/
def returnsOvertaken (state : State) : Event → Bool
  | .startStep i =>
      match state.starts[i]? with
      | some ⟨.joining, overtaken⟩ => overtaken
      | _ => true
  | _ => true

def ReturnsOvertaken (state : State) (event : Event) : Prop := state.returnsOvertaken event = true

instance (state : State) (event : Event) : Decidable (state.ReturnsOvertaken event) :=
  inferInstanceAs (Decidable (_ = _))

/-- After a `start()` has ended, and while no other is in progress, the broker does not
say that it is running. -/
def Settled (state : State) : Prop :=
  (∃ start ∈ state.starts, start.inProgress = false) →
    (∀ start ∈ state.starts, start.inProgress = false) → state.running = false

/-- The flag belongs to a `start()` that has not ended. -/
def Owned (state : State) : Prop :=
  state.running = true →
    ∃ (i : Nat) (start : Start), state.starts[i]? = some start ∧ start.winning = true ∧
      start.overtaken = false

end State

variable {config : Config} {state after : State} {i : Nat} {start : Start} {event : Event}

/-- What happens to one call leaves the flag with its owner, if that is another call or
does not end. -/
theorem owned_set {phase : StartPhase} (owned : state.Owned) (found : state.starts[i]? = some start)
    (running : after.running = state.running)
    (starts : after.starts = state.starts.set i { start with phase })
    (kept : start.winning = true → start.overtaken = false →
      ({ start with phase } : Start).winning = true) : after.Owned := by
  intro flag
  obtain ⟨j, owner, there, winning, alone⟩ := owned (running ▸ flag)
  have bound := (List.getElem?_eq_some_iff.mp found).1
  by_cases same : j = i
  · subst same
    obtain rfl : start = owner := Option.some.inj (found.symm.trans there)
    exact ⟨j, _, by rw [starts, List.getElem?_set_self bound], kept winning alone, alone⟩
  · exact ⟨j, owner, by rw [starts, List.getElem?_set_ne (Ne.symm same), there], winning, alone⟩

theorem startNext_owned (owned : state.Owned) (found : state.starts[i]? = some start)
    (overtaken : state.ReturnsOvertaken (.startStep i))
    (stepped : state.startNext config i start = some after) : after.Owned := by
  have bound := (List.getElem?_eq_some_iff.mp found).1
  obtain ⟨phase, behind⟩ := start
  cases phase with
  | entering =>
    simp only [State.startNext] at stepped
    split at stepped
    · cases stepped
      exact owned_set owned found rfl rfl fun winning => nomatch winning
    · cases stepped
      exact fun _ => ⟨i, _, List.getElem?_set_self bound, rfl, rfl⟩
  | clearing | listening | spawning =>
    cases stepped
    exact owned_set owned found rfl rfl fun _ _ => rfl
  | joining =>
    simp only [State.startNext, Option.ite_none_right_eq_some, Option.some.injEq] at stepped
    obtain ⟨-, rfl⟩ := stepped
    refine owned_set owned found rfl rfl fun _ alone => ?_
    -- the owner would be overtaken, and then no longer the owner
    simp only [State.ReturnsOvertaken, State.returnsOvertaken, found] at overtaken
    exact absurd (overtaken.symm.trans alone) (by decide)
  | accepting | refused | returned | thrown => cases stepped

theorem stopNext_owned {phase : StopPhase} (owned : state.Owned)
    (stepped : state.stopNext i phase = some after) : after.Owned := by
  cases phase with
  | entering =>
    simp only [State.stopNext] at stepped
    split at stepped
    · cases stepped
      exact fun flag => nomatch flag
    · cases stepped
      exact owned
  | joining =>
    simp only [State.stopNext, Option.ite_none_right_eq_some, Option.some.injEq] at stepped
    obtain ⟨-, rfl⟩ := stepped
    exact owned
  | returned => cases stepped
  | _ =>
    cases stepped
    exact owned

theorem next_owned (owned : state.Owned) (overtaken : state.ReturnsOvertaken event)
    (stepped : state.next config event = some after) : after.Owned := by
  cases event with
  | start =>
    cases stepped
    intro flag
    obtain ⟨j, owner, there, held⟩ := owned flag
    exact ⟨j, owner, (List.getElem?_append_left (List.getElem?_eq_some_iff.mp there).1).trans there, held⟩
  | stop =>
    cases stepped
    exact owned
  | startStep i =>
    simp only [State.next, Option.bind_eq_bind, Option.bind_eq_some_iff] at stepped
    obtain ⟨start, found, stepped⟩ := stepped
    exact startNext_owned owned found overtaken stepped
  | listenThrows i | spawnThrows i spawned =>
    simp only [State.next, Option.bind_eq_bind, Option.bind_eq_some_iff,
      Option.ite_none_right_eq_some, Option.some.injEq] at stepped
    obtain ⟨start, found, -, rfl⟩ := stepped
    exact fun flag => nomatch flag
  | acceptEnds i why =>
    simp only [State.next, Option.bind_eq_bind, Option.bind_eq_some_iff,
      Option.ite_none_right_eq_some, Option.some.injEq] at stepped
    obtain ⟨start, found, -, rfl⟩ := stepped
    exact owned_set owned found rfl rfl fun _ _ => rfl
  | threadEnds i why =>
    simp only [State.next, Option.bind_eq_bind, Option.bind_eq_some_iff,
      Option.ite_none_right_eq_some, Option.some.injEq] at stepped
    obtain ⟨thread, found, -, rfl⟩ := stepped
    exact owned
  | stopStep i =>
    simp only [State.next, Option.bind_eq_bind, Option.bind_eq_some_iff] at stepped
    obtain ⟨phase, found, stepped⟩ := stepped
    exact stopNext_owned owned stepped

theorem Start.inProgress_of_winning (winning : start.winning = true) : start.inProgress = true := by
  obtain ⟨phase, overtaken⟩ := start
  cases phase <;> first | rfl | cases winning

theorem State.Owned.settled (owned : state.Owned) : state.Settled := by
  intro _ idle
  cases running : state.running with
  | false => rfl
  | true =>
    obtain ⟨j, owner, there, winning, -⟩ := owned running
    have busy := Start.inProgress_of_winning winning
    rw [idle owner (List.mem_of_getElem? there)] at busy
    cases busy

/-- If every `start()` that ran returns only after a `stop()` behind it, the broker never
says that it is running when nobody runs it. -/
theorem broker_settled (config : Config) (state : State)
    (reached : Transition.Reaches (State.next config) State.ReturnsOvertaken .initial state) :
    state.Settled := by
  have initial : State.initial.Owned := by
    intro flag
    cases flag
  have owned : state.Owned := reached.invariant State.Owned initial
    fun _ _ _ owned overtaken stepped => next_owned owned overtaken stepped
  exact owned.settled

/-- Only the TLS listener, one context with one thread. -/
def tlsOnly : Config := ⟨0, 0, 1, 1⟩

/-- A `start()` that comes to run, a `stop()` beside it, and both to their ends. -/
def startAndStop : List Event :=
  [.start, .startStep 0, .startStep 0, .startStep 0, .startStep 0, .stop, .stopStep 0, .stopStep 0,
    .stopStep 0, .stopStep 0, .stopStep 0, .stopStep 0, .acceptEnds 0 .stopped, .threadEnds 0 .stopped,
    .stopStep 0, .startStep 0]

theorem broker_settled_once :
    (⟨false, true, ⟨false, true⟩, ⟨false, true⟩, [], [⟨.returned, true⟩], [.returned]⟩ : State).Settled :=
  broker_settled tlsOnly _ (.of_execute startAndStop (by decide))

/-- The contexts are stopped already when the second `start()` runs them. -/
def startAgain : List Event :=
  [.start, .startStep 1, .startStep 1, .startStep 1, .startStep 1, .acceptEnds 1 .stopped,
    .threadEnds 0 .stopped, .startStep 1]

theorem broker_running_after_restart :
    ¬ ∀ (config : Config) (state : State),
      Transition.Reaches (State.next config) (fun _ _ => True) .initial state → state.Settled := by
  intro settles
  have settled := settles tlsOnly ⟨true, false, ⟨false, true⟩, ⟨false, true⟩, [some .stopped],
    [⟨.returned, true⟩, ⟨.returned, false⟩], [.returned]⟩
    (.of_execute (startAndStop ++ startAgain) (by decide))
  exact absurd (settled ⟨⟨.returned, true⟩, by decide, rfl⟩ (by decide)) (by decide)

/-- No `stop()` is called or goes on. -/
def Event.stops : Event → Bool
  | .stop | .stopStep _ => true
  | _ => false

def State.Unstopped (_ : State) (event : Event) : Prop := event.stops = false

theorem reaches_step (quiet : event.stops = false) (stepped : state.next config event = some after) :
    Transition.Reaches (State.next config) State.Unstopped state after :=
  .step .refl quiet stepped

theorem threads_end (config : Config) (state : State) (stopped : state.connections.stopped = true)
    (count : Nat) (ended : List (Option RunEnd)) :
    Transition.Reaches (State.next config) State.Unstopped
      { state with threads := ended ++ List.replicate count none }
      { state with threads := ended ++ List.replicate count (some .stopped) } := by
  induction count generalizing ended with
  | zero => exact .refl
  | succ count ih =>
    have first : State.next config { state with threads := ended ++ List.replicate (count + 1) none }
        (.threadEnds ended.length .stopped) =
          some { state with threads := (ended ++ [some .stopped]) ++ List.replicate count none } := by
      simp [State.next, List.replicate_succ, Context.mayEnd, stopped]
    have rest := ih (ended ++ [some .stopped])
    have whole : ended ++ [some .stopped] ++ List.replicate count (some RunEnd.stopped) =
        ended ++ List.replicate (count + 1) (some .stopped) := by simp [List.replicate_succ]
    rw [whole] at rest
    exact (reaches_step rfl first).trans rest

/-- Once a `stop()` is through, the next `start()` that gets past its listeners ends at
once and leaves the flag set. -/
theorem restart_unsettled (config : Config) (off : state.running = false)
    (accept : state.accept.stopped = true) (connections : state.connections.stopped = true)
    (idle : ∀ start ∈ state.starts, start.inProgress = false) (joined : state.joinable = true) :
    ∃ final, Transition.Reaches (State.next config) State.Unstopped state final ∧ ¬ final.Settled := by
  -- the broker while the new call is at this phase
  let called (phase : StartPhase) (running requested : Bool) (threads : List (Option RunEnd)) : State :=
    { state with
      running
      stopRequested := requested
      threads
      starts := state.starts ++ [⟨phase, false⟩] }
  let i := state.starts.length
  let fresh := state.threads ++ List.replicate (config.numIocs * config.threadsPerIoc) none
  let ended := state.threads ++ List.replicate (config.numIocs * config.threadsPerIoc) (some .stopped)
  have call : state.next config .start = some (called .entering false state.stopRequested state.threads) := by
    simp [State.next, called, off]
  have enter : (called .entering false state.stopRequested state.threads).next config (.startStep i) =
      some (called .clearing true state.stopRequested state.threads) := by
    simp [State.next, State.startNext, State.setPhase, called, i]
  have clear : (called .clearing true state.stopRequested state.threads).next config (.startStep i) =
      some (called .listening true false state.threads) := by
    simp [State.next, State.startNext, State.setPhase, called, i]
  have listen : (called .listening true false state.threads).next config (.startStep i) =
      some (called .spawning true false state.threads) := by
    simp [State.next, State.startNext, State.setPhase, called, i]
  have spawn : (called .spawning true false state.threads).next config (.startStep i) =
      some (called .accepting true false fresh) := by
    simp [State.next, State.startNext, State.setPhase, called, i, fresh]
  have run : (called .accepting true false fresh).next config (.acceptEnds i .stopped) =
      some (called .joining true false fresh) := by
    simp [State.next, State.setPhase, called, i, Context.mayEnd, accept]
  have threads : Transition.Reaches (State.next config) State.Unstopped
      (called .joining true false fresh) (called .joining true false ended) :=
    threads_end config (called .joining true false fresh) connections
      (config.numIocs * config.threadsPerIoc) state.threads
  have join : (called .joining true false ended).next config (.startStep i) =
      some (called .returned true false ended) := by
    have all : (called .joining true false ended).joinable = true := by
      simp only [State.joinable] at joined
      simp [State.joinable, called, ended, joined]
    simp [State.next, State.startNext, State.setPhase, called, i, all]
  refine ⟨called .returned true false ended, ?_, fun settled => ?_⟩
  · have started : Transition.Reaches (State.next config) State.Unstopped state
        (called .joining true false fresh) :=
      ((((reaches_step rfl call).trans (reaches_step rfl enter)).trans (reaches_step rfl clear)).trans
        (reaches_step rfl listen)).trans ((reaches_step rfl spawn).trans (reaches_step rfl run))
    exact (started.trans threads).trans (reaches_step rfl join)
  · have resting : ∀ start ∈ (called .returned true false ended).starts, start.inProgress = false := by
      intro start member
      rcases List.mem_append.mp member with before | new
      · exact idle start before
      · rw [List.mem_singleton.mp new]
        rfl
    have present : (⟨.returned, false⟩ : Start) ∈ (called .returned true false ended).starts :=
      List.mem_append_right _ (List.mem_singleton.mpr rfl)
    exact absurd (settled ⟨_, present, rfl⟩ resting) (by simp [called])

end Hku.MqttBroker
