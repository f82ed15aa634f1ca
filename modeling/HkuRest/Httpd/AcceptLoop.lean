import HkuRest.Core.Transition

/-! `HttpServer::start`, `stop` and the accept loops. `start` spawns `doAccept` or
`doAcceptSsl` on the io_context and sets `m_running` only after that; the loop tests
`m_running` on every pass, and nothing in it catches what is thrown. -/

namespace Hku.AcceptLoop

/-- How the server is configured when `start` is called. -/
structure Server where
  ssl : Bool
  useExternalIo : Bool
  probeCloseEnabled : Bool
  deriving DecidableEq, Repr

/-- Where an accept loop is; `testing` also before its first step. -/
inductive Phase
  | testing
  | accepting
  | probing
  | creating
  | ended
  deriving DecidableEq, Repr

/-- A spawned loop. `accepts` counts its calls of `async_accept`; `stopped` records that a
`stop()` has set `m_running` to false since it was spawned. -/
structure Loop where
  phase : Phase
  accepts : Nat
  stopped : Bool
  deriving DecidableEq, Repr

/-- How `async_accept` completes; `use_awaitable` throws its error. -/
inductive Accepted
  | error
  | invalid
  | socket
  deriving DecidableEq, Repr

inductive LoopStep
  | test
  | accept (accepted : Accepted)
  | probe (hasData : Bool)
  | create (throws : Bool)
  deriving DecidableEq, Repr

namespace Loop

def spawned : Loop := ⟨.testing, 0, false⟩

/-- `doAcceptSsl()`, and `doAccept()`, which may probe the connection first. -/
def doAccept (server : Server) (running : Bool) (loop : Loop) : LoopStep → Option Loop
  | .test =>
      if loop.phase = .testing then
        some (if running then { loop with phase := .accepting, accepts := loop.accepts + 1 }
          else { loop with phase := .ended })
      else none
  | .accept accepted =>
      if loop.phase = .accepting then
        some { loop with phase :=
          match accepted with
          | .error => .ended
          | .invalid => .testing
          | .socket => if !server.ssl && server.probeCloseEnabled then .probing else .creating }
      else none
  | .probe hasData =>
      if loop.phase = .probing then
        some { loop with phase := if hasData then .creating else .testing }
      else none
  | .create throws =>
      -- `Connection::create` and its `start()`
      if loop.phase = .creating then
        some { loop with phase := if throws then .ended else .testing }
      else none

end Loop

/-- Where `start` is: past its first test, or past `co_spawn`. -/
inductive Starter
  | idle
  | starting
  | spawned
  deriving DecidableEq, Repr

structure State where
  running : Bool
  starter : Starter
  /-- Whether `loop()` runs the server's own io_context. -/
  looping : Bool
  loops : List Loop
  deriving DecidableEq, Repr

def State.initial : State := ⟨false, .idle, false, []⟩

inductive Event
  | start
  | spawn (throws : Bool)
  | setRunning
  | enterLoop
  | stop
  | loop (index : Nat) (step : LoopStep)
  deriving DecidableEq, Repr

/-- `stop()`, which does nothing unless the server is running. -/
def State.stop (state : State) : State :=
  if state.running then
    { state with
      running := false, looping := false
      loops := state.loops.map fun loop => { loop with stopped := true } }
  else state

/-- Whether a thread may resume this loop: the threads of an external io_context run all the
time, those of the server's own one within `loop()`, and with it its earlier loops are gone. -/
def State.resumes (server : Server) (state : State) (index : Nat) : Bool :=
  server.useExternalIo || state.looping && index + 1 = state.loops.length

def State.next (server : Server) (state : State) : Event → Option State
  | .start =>
      if state.starter = .idle then
        some (if state.running then state else { state with starter := .starting })
      else none
  | .spawn throws =>
      if state.starter = .starting then
        some (if throws then { state with starter := .idle }.stop
          else { state with starter := .spawned, loops := state.loops ++ [.spawned] })
      else none
  | .setRunning =>
      if state.starter = .spawned then some { state with starter := .idle, running := true }
      else none
  | .enterLoop => some (if state.running then { state with looping := true } else state)
  | .stop => some state.stop
  | .loop index step =>
      if state.resumes server index then
        (state.loops[index]?.bind (·.doAccept server state.running step)).map fun loop =>
          { state with loops := state.loops.set index loop }
      else none

variable {server : Server} {running : Bool} {loop next : Loop} {step : LoopStep}
  {state before after : State} {event : Event}

/-- The steps with which a loop ends: the test that fails, and what throws. -/
def LoopStep.ends (running : Bool) : LoopStep → Bool
  | .test => !running
  | .accept accepted => accepted = .error
  | .probe _ => false
  | .create throws => throws

theorem doAccept_ended (stepped : loop.doAccept server running step = some next) :
    (next.phase = .ended ↔ step.ends running = true) ∧ next.stopped = loop.stopped := by
  cases step with
  | test =>
    simp only [Loop.doAccept, Option.ite_none_right_eq_some, Option.some.injEq] at stepped
    obtain ⟨_, rfl⟩ := stepped
    cases running <;> simp [LoopStep.ends]
  | accept accepted =>
    simp only [Loop.doAccept, Option.ite_none_right_eq_some, Option.some.injEq] at stepped
    obtain ⟨_, rfl⟩ := stepped
    cases accepted with
    | error | invalid => simp [LoopStep.ends]
    | socket =>
      simp only [LoopStep.ends]
      split <;> simp
  | probe hasData =>
    simp only [Loop.doAccept, Option.ite_none_right_eq_some, Option.some.injEq] at stepped
    obtain ⟨_, rfl⟩ := stepped
    cases hasData <;> simp [LoopStep.ends]
  | create throws =>
    simp only [Loop.doAccept, Option.ite_none_right_eq_some, Option.some.injEq] at stepped
    obtain ⟨_, rfl⟩ := stepped
    cases throws <;> simp [LoopStep.ends]

/-- How many steps of its own separate a loop from its next call of `async_accept`. -/
def Phase.distance : Phase → Nat
  | .accepting | .ended => 0
  | .testing => 1
  | .creating => 2
  | .probing => 3

/-- A loop that neither waits for a connection nor ends gets nearer to its next accept with
every step, whatever the client does; the last of these steps calls `async_accept`. -/
theorem doAccept_nearer (stepped : loop.doAccept server running step = some next)
    (waiting : loop.phase ≠ .accepting) (alive : next.phase ≠ .ended) :
    next.phase.distance + 1 ≤ loop.phase.distance ∧
      (next.phase = .accepting → next.accepts = loop.accepts + 1) := by
  cases step with
  | test =>
    simp only [Loop.doAccept, Option.ite_none_right_eq_some, Option.some.injEq] at stepped
    obtain ⟨phase, rfl⟩ := stepped
    cases running with
    | false => exact absurd rfl alive
    | true => simp [phase, Phase.distance]
  | accept accepted =>
    simp only [Loop.doAccept, Option.ite_none_right_eq_some] at stepped
    exact absurd stepped.1 waiting
  | probe hasData =>
    simp only [Loop.doAccept, Option.ite_none_right_eq_some, Option.some.injEq] at stepped
    obtain ⟨phase, rfl⟩ := stepped
    cases hasData <;> simp [phase, Phase.distance]
  | create throws =>
    simp only [Loop.doAccept, Option.ite_none_right_eq_some, Option.some.injEq] at stepped
    obtain ⟨phase, rfl⟩ := stepped
    cases throws with
    | false => simp [phase, Phase.distance]
    | true => exact absurd rfl alive

/-- A loop has ended only if `stop()` has set `m_running` to false. -/
def State.Persistent (state : State) : Prop :=
  ∀ loop ∈ state.loops, loop.phase = .ended → loop.stopped = true

/-- A step with which a loop ends comes after a `stop()`. -/
def State.Survives (state : State) : Event → Prop
  | .loop index step =>
      step.ends state.running = true → ∀ loop, state.loops[index]? = some loop → loop.stopped = true
  | _ => True

theorem initial_persistent : State.initial.Persistent := by
  intro loop member
  cases member

theorem stop_persistent (persistent : state.Persistent) : state.stop.Persistent := by
  unfold State.stop
  split
  · intro loop member ended
    obtain ⟨earlier, _, rfl⟩ := List.mem_map.mp member
    rfl
  · exact persistent

theorem loop_eq_some {index : Nat} : state.next server (.loop index step) = some after ↔
    state.resumes server index = true ∧ ∃ loop next, state.loops[index]? = some loop ∧
      loop.doAccept server state.running step = some next ∧
      { state with loops := state.loops.set index next } = after := by
  simp only [State.next, Option.ite_none_right_eq_some, Option.map_eq_some_iff,
    Option.bind_eq_some_iff]
  refine and_congr_right fun _ => ?_
  constructor
  · rintro ⟨next, ⟨loop, found, stepped⟩, result⟩
    exact ⟨loop, next, found, stepped, result⟩
  · rintro ⟨loop, next, found, stepped, result⟩
    exact ⟨next, ⟨loop, found, stepped⟩, result⟩

theorem next_persistent (persistent : before.Persistent) (survives : before.Survives event)
    (stepped : before.next server event = some after) : after.Persistent := by
  cases event with
  | start =>
    simp only [State.next, Option.ite_none_right_eq_some, Option.some.injEq] at stepped
    obtain ⟨_, rfl⟩ := stepped
    split <;> exact persistent
  | spawn throws =>
    simp only [State.next, Option.ite_none_right_eq_some, Option.some.injEq] at stepped
    obtain ⟨_, rfl⟩ := stepped
    cases throws with
    | true => exact stop_persistent persistent
    | false =>
      intro loop member ended
      rcases List.mem_append.mp member with earlier | last
      · exact persistent loop earlier ended
      · rw [List.mem_singleton.mp last] at ended
        cases ended
  | setRunning =>
    simp only [State.next, Option.ite_none_right_eq_some, Option.some.injEq] at stepped
    obtain ⟨_, rfl⟩ := stepped
    exact persistent
  | enterLoop =>
    cases stepped
    split <;> exact persistent
  | stop =>
    cases stepped
    exact stop_persistent persistent
  | loop index step =>
    obtain ⟨_, loop, next, found, moved, rfl⟩ := loop_eq_some.mp stepped
    obtain ⟨ends, stopped⟩ := doAccept_ended moved
    intro other member ended
    rcases List.mem_or_eq_of_mem_set member with earlier | rfl
    · exact persistent other earlier ended
    · rw [stopped]
      exact survives (ends.mp ended) loop found

theorem persistent_survives (persistent : after.Persistent)
    (stepped : before.next server event = some after) : before.Survives event := by
  cases event with
  | loop index step =>
    intro ending loop found
    obtain ⟨_, same, next, known, moved, rfl⟩ := loop_eq_some.mp stepped
    obtain rfl := Option.some.inj (known.symm.trans found)
    obtain ⟨ends, stopped⟩ := doAccept_ended moved
    rw [← stopped]
    refine persistent next ?_ (ends.mpr ending)
    exact List.mem_set (List.getElem?_eq_some_iff.mp known).1 next
  | start | spawn | setRunning | enterLoop | stop => trivial

/-- Along every run, whatever connections come: no loop has ended but after a `stop()`,
exactly when no loop throws, or finds `m_running` still false, before a `stop()`. -/
theorem loops_persist_iff (server : Server) (events : List Event) :
    Transition.Along (State.next server) (fun _ _ after => after.Persistent) .initial events ↔
      Transition.Along (State.next server) (fun before event _ => before.Survives event) .initial
        events := by
  refine Transition.along_iff State.Persistent initial_persistent ?_ ?_ events
  · intro before event after _ _ persistent
    exact persistent
  · intro before event after persistent stepped
    constructor
    · intro kept
      exact persistent_survives kept stepped
    · intro survives
      exact next_persistent persistent survives stepped

/-- The server runs its own io_context, and the first `async_accept` fails, as when the
process is out of file descriptors. -/
theorem failed_accept_ends_loop :
    ¬ ∀ (server : Server) (state : State),
      Transition.Reaches (State.next server) (fun _ _ => True) .initial state → state.Persistent := by
  intro persistent
  have survives := persistent ⟨false, false, false⟩ ⟨true, .idle, true, [⟨.ended, 1, false⟩]⟩
    (.of_execute [.start, .spawn false, .setRunning, .enterLoop, .loop 0 .test,
      .loop 0 (.accept .error)] (by decide +kernel))
  exact absurd (survives ⟨.ended, 1, false⟩ (by simp) rfl) (by decide)

/-- Between `co_spawn` and `m_running.store(true)` the new loop is not resumed. -/
def State.HoldsBack (state : State) : Event → Prop
  | .loop index _ => state.starter = .spawned → index + 1 ≠ state.loops.length
  | _ => True

instance (state : State) : DecidablePred state.HoldsBack
  | .loop _ _ => inferInstanceAs (Decidable (_ → _))
  | .start | .spawn _ | .setRunning | .enterLoop | .stop => inferInstanceAs (Decidable True)

/-- The invariant: until `start` has set `m_running`, its loop waits for its first step. -/
structure State.Fresh (state : State) : Prop where
  looping : state.looping = true → state.running = true
  starting : state.starter ≠ .idle → state.running = false
  spawned : state.starter = .spawned → state.loops.getLast? = some .spawned

theorem initial_fresh : State.initial.Fresh := by
  constructor
  · intro looping
    cases looping
  · intro started
    exact absurd rfl started
  · intro spawned
    cases spawned

theorem stop_fresh (fresh : state.Fresh) : state.stop.Fresh := by
  unfold State.stop
  split
  · rename_i running
    constructor
    · intro looping
      cases looping
    · intro _
      rfl
    · intro spawned
      have stopped := fresh.starting (by simp [show state.starter = .spawned from spawned])
      rw [running] at stopped
      cases stopped
  · exact fresh

theorem next_fresh (fresh : before.Fresh) (holds : before.HoldsBack event)
    (stepped : before.next server event = some after) : after.Fresh := by
  cases event with
  | start =>
    simp only [State.next, Option.ite_none_right_eq_some, Option.some.injEq] at stepped
    obtain ⟨_, rfl⟩ := stepped
    split
    · exact fresh
    · rename_i halted
      constructor
      · exact fresh.looping
      · intro _
        simpa using halted
      · intro spawned
        cases spawned
  | spawn throws =>
    simp only [State.next, Option.ite_none_right_eq_some, Option.some.injEq] at stepped
    obtain ⟨starter, rfl⟩ := stepped
    have halted := fresh.starting (by simp [starter])
    cases throws with
    | true =>
      refine stop_fresh ⟨fresh.looping, fun started => absurd rfl started, ?_⟩
      intro spawned
      cases spawned
    | false => exact ⟨fresh.looping, fun _ => halted, fun _ => List.getLast?_concat⟩
  | setRunning =>
    simp only [State.next, Option.ite_none_right_eq_some, Option.some.injEq] at stepped
    obtain ⟨_, rfl⟩ := stepped
    refine ⟨fun _ => rfl, fun started => absurd rfl started, ?_⟩
    intro spawned
    cases spawned
  | enterLoop =>
    cases stepped
    split
    · rename_i running
      exact ⟨fun _ => running, fresh.starting, fresh.spawned⟩
    · exact fresh
  | stop =>
    cases stepped
    exact stop_fresh fresh
  | loop index step =>
    obtain ⟨_, loop, next, found, moved, rfl⟩ := loop_eq_some.mp stepped
    refine ⟨fresh.looping, fresh.starting, fun spawned => ?_⟩
    have other : index + 1 ≠ before.loops.length := holds spawned
    have bound := (List.getElem?_eq_some_iff.mp found).1
    have apart : index ≠ before.loops.length - 1 := by omega
    have last := fresh.spawned spawned
    rw [List.getLast?_eq_getElem?] at last ⊢
    rw [List.length_set, List.getElem?_set_ne apart]
    exact last

theorem reaches_fresh (reached : Transition.Reaches (State.next server) State.HoldsBack .initial state) :
    state.Fresh := by
  refine Transition.Reaches.invariant State.Fresh initial_fresh ?_ reached
  intro before event after fresh holds stepped
  exact next_fresh fresh holds stepped

theorem started_loop_alive_of_fresh (fresh : state.Fresh)
    (completes : state.next server .setRunning = some after) :
    ∃ loop, after.loops.getLast? = some loop ∧ loop.phase ≠ .ended := by
  simp only [State.next, Option.ite_none_right_eq_some, Option.some.injEq] at completes
  obtain ⟨spawned, rfl⟩ := completes
  refine ⟨.spawned, fresh.spawned spawned, ?_⟩
  intro ended
  cases ended

/-- In every run in which no loop is resumed between its `co_spawn` and the store to
`m_running`, whenever `start` completes its loop is alive. -/
theorem started_loop_alive (server : Server) (state after : State)
    (reached : Transition.Reaches (State.next server) State.HoldsBack .initial state)
    (completes : state.next server .setRunning = some after) :
    ∃ loop, after.loops.getLast? = some loop ∧ loop.phase ≠ .ended :=
  started_loop_alive_of_fresh (reaches_fresh reached) completes

def bound : Server := ⟨false, true, false⟩

theorem started_loop_alive_bound :
    ∃ loop, (⟨true, .idle, false, [.spawned]⟩ : State).loops.getLast? = some loop ∧
      loop.phase ≠ .ended :=
  started_loop_alive bound ⟨false, .spawned, false, [.spawned]⟩ ⟨true, .idle, false, [.spawned]⟩
    (.of_execute [.start, .spawn false] (by decide +kernel)) (by decide)

/-- A thread of the external io_context resumes the loop before `start` sets `m_running`. -/
theorem start_completes_without_loop :
    ¬ ∀ (server : Server) (state after : State),
      Transition.Reaches (State.next server) (fun _ _ => True) .initial state →
      state.next server .setRunning = some after →
      ∃ loop, after.loops.getLast? = some loop ∧ loop.phase ≠ .ended := by
  intro alive
  obtain ⟨loop, last, running⟩ := alive bound ⟨false, .spawned, false, [⟨.ended, 0, false⟩]⟩
    ⟨true, .idle, false, [⟨.ended, 0, false⟩]⟩
    (.of_execute [.start, .spawn false, .loop 0 .test] (by decide +kernel)) (by decide)
  cases last
  exact running rfl

/-- Resumed before the store, the loop ends, and `start` completes all the same. -/
theorem resumed_early_ends {index : Nat} (fresh : before.Fresh) (early : ¬ before.HoldsBack (.loop index step))
    (stepped : before.next server (.loop index step) = some after) :
    ∃ loop, after.loops.getLast? = some loop ∧ loop.phase = .ended ∧
      ∃ later, after.next server .setRunning = some later ∧ later.loops.getLast? = some loop := by
  obtain ⟨spawned, last⟩ : before.starter = .spawned ∧ index + 1 = before.loops.length := by
    simpa [State.HoldsBack] using early
  obtain ⟨_, loop, next, found, moved, rfl⟩ := loop_eq_some.mp stepped
  have halted := fresh.starting (by simp [spawned])
  have latest := fresh.spawned spawned
  rw [List.getLast?_eq_getElem?, show before.loops.length - 1 = index by omega, found] at latest
  cases latest
  have replaced : (before.loops.set index next).getLast? = some next := by
    rw [List.getLast?_eq_getElem?, List.length_set, show before.loops.length - 1 = index by omega]
    exact List.getElem?_set_self (by omega)
  refine ⟨next, replaced, ?_, { before with
    loops := before.loops.set index next, starter := .idle, running := true }, ?_, replaced⟩
  · cases step with
    | test =>
      rw [halted] at moved
      cases moved
      rfl
    | accept | probe | create => cases moved
  · simp only [State.next, spawned, if_true]

/-- No thread runs the server's own io_context before `loop()`, which waits for `m_running`. -/
theorem own_holds_back (own : server.useExternalIo = false) (fresh : before.Fresh)
    (stepped : before.next server event = some after) : before.HoldsBack event := by
  cases event with
  | loop index step =>
    intro spawned _
    obtain ⟨resumes, _⟩ := loop_eq_some.mp stepped
    simp only [State.resumes, own, Bool.false_or, Bool.and_eq_true] at resumes
    have halted := fresh.starting (by simp [spawned])
    rw [fresh.looping resumes.1] at halted
    cases halted
  | start | spawn | setRunning | enterLoop | stop => trivial

/-- With its own io_context a server needs no condition. -/
theorem own_started_loop_alive (own : server.useExternalIo = false)
    (reached : Transition.Reaches (State.next server) (fun _ _ => True) .initial state)
    (completes : state.next server .setRunning = some after) :
    ∃ loop, after.loops.getLast? = some loop ∧ loop.phase ≠ .ended := by
  refine started_loop_alive_of_fresh ?_ completes
  refine Transition.Reaches.invariant State.Fresh initial_fresh ?_ reached
  intro before event after fresh _ stepped
  exact next_fresh fresh (own_holds_back own fresh stepped) stepped

end Hku.AcceptLoop
