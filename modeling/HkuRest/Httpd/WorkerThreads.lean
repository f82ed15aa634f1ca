import HkuRest.Core.Transition

/-! The worker threads of `HttpServer::loop` and a `stop()` that deletes the server's own
io_context. They synchronise by `io_context::stop()` and a fixed delay alone. Times are in
milliseconds. -/

namespace Hku.WorkerThreads

/-- Where a thread is: about to call `run()`, within it, or past it. -/
inductive Worker
  | entering
  | idle
  /-- Within a handler, or on its way out of `run()`, for so much longer. -/
  | handling (remaining : Nat)
  /-- Within a handler that has called `stop()`. -/
  | stopping
  | returned
  deriving DecidableEq, Repr

namespace Worker

def isInside : Worker → Bool
  | .idle | .handling _ | .stopping => true
  | .entering | .returned => false

/-- How long a worker is still busy. -/
def rest : Worker → Option Nat
  | .handling remaining => some remaining
  | .entering | .idle | .stopping | .returned => none

def elapse (duration : Nat) : Worker → Worker
  | .handling remaining => .handling (remaining - duration)
  | worker => worker

/-- `io_context::stop()` wakes a thread that waits, which takes it a moment. -/
def wake (latency : Nat) : Worker → Worker
  | .idle => .handling latency
  | worker => worker

end Worker

inductive WorkerStep
  /-- `latency` is what `run()` takes to return if the io_context was stopped before. -/
  | enter (latency : Nat)
  | take (duration : Nat)
  | finish (throws : Bool)
  | leave
  deriving DecidableEq, Repr

/-- What a thread of `loop()` does in `m_io_context->run()`. -/
def Worker.run (contextStopped : Bool) : Worker → WorkerStep → Option Worker
  | .entering, .enter latency => some (if contextStopped then .handling latency else .idle)
  | .idle, .take duration => if contextStopped then none else some (.handling duration)
  | .idle, .leave =>
      -- stopped, or out of work
      some .returned
  | .handling remaining, .finish throws =>
      if remaining = 0 then some (if throws || contextStopped then .returned else .idle) else none
  | _, _ => none

/-- Where `stop()` is. -/
inductive Stopper
  | idle
  | closing
  | sleeping (remaining : Nat)
  | done
  deriving DecidableEq, Repr

def Stopper.elapse (duration : Nat) : Stopper → Stopper
  | .sleeping remaining => .sleeping (remaining - duration)
  | stopper => stopper

structure State where
  running : Bool
  contextStopped : Bool
  stopper : Stopper
  workers : List Worker
  deriving DecidableEq, Repr

/-- `loop()` has started its threads; a single one is the caller of `loop()` itself. -/
def State.looping (threads : Nat) : State := ⟨true, false, .idle, .replicate threads .entering⟩

inductive Event
  | worker (index : Nat) (step : WorkerStep)
  /-- `stop()` is called, by the handler of a worker or by another thread. -/
  | stop (caller : Option Nat)
  /-- `latencies` says how long each thread that waits takes to leave. -/
  | stopContext (latencies : List Nat)
  | elapse (duration : Nat)
  | delete
  deriving DecidableEq, Repr

def stopDelay : Nat := 100

/-- The workers once `io_context::stop()` has been called. -/
def State.woken (state : State) (latencies : List Nat) : List Worker :=
  state.workers.mapIdx fun index worker => worker.wake (latencies.getD index 0)

def State.next (state : State) : Event → Option State
  | .worker index step =>
      -- a thread that comes too late finds no io_context
      if state.stopper = .done then none
      else (state.workers[index]?.bind (·.run state.contextStopped step)).map fun worker =>
        { state with workers := state.workers.set index worker }
  | .stop caller =>
      if state.running then
        match caller with
        | none => some { state with running := false, stopper := .closing }
        | some index =>
            match state.workers[index]? with
            | some (.handling _) =>
                some { state with
                  running := false, stopper := .closing
                  workers := state.workers.set index .stopping }
            | _ => none
      else some state
  | .stopContext latencies =>
      if state.stopper = .closing then
        some { state with
          contextStopped := true, stopper := .sleeping stopDelay, workers := state.woken latencies }
      else none
  | .elapse duration =>
      -- up to the next moment at which a worker is done
      if state.workers.all (·.rest.all (duration ≤ ·)) then
        some { state with
          workers := state.workers.map (·.elapse duration), stopper := state.stopper.elapse duration }
      else none
  | .delete => if state.stopper = .sleeping 0 then some { state with stopper := .done } else none

/-- So long takes less than what is left of the delay. -/
def Stopper.outlasts (duration : Nat) : Stopper → Bool
  | .sleeping remaining => duration < remaining
  | .idle | .closing | .done => true

/-- No worker stops the server itself, and every worker is out of the stopped io_context before
the delay is over, those that come to it only then as well. -/
def State.Clears (state : State) : Event → Prop
  | .stop caller => state.running = true → caller = none
  | .stopContext latencies => ∀ worker ∈ state.woken latencies, worker.rest.all (· < stopDelay) = true
  | .worker _ (.enter latency) => state.stopper.outlasts latency = true
  | .worker _ _ | .elapse _ | .delete => True

instance (state : State) : DecidablePred state.Clears
  | .stop _ => inferInstanceAs (Decidable (_ → _))
  | .stopContext _ => inferInstanceAs (Decidable (∀ _ ∈ _, _))
  | .worker _ (.enter _) => inferInstanceAs (Decidable (_ = _))
  | .worker _ (.take _) | .worker _ (.finish _) | .worker _ .leave => inferInstanceAs (Decidable True)
  | .elapse _ | .delete => inferInstanceAs (Decidable True)

variable {state before after : State} {event : Event} {worker : Worker}

/-- The invariant: while `stop()` sleeps, each worker will have left `run()` before it wakes. -/
structure State.Clearing (state : State) : Prop where
  callers : .stopping ∉ state.workers
  stopped : ∀ remaining, state.stopper = .sleeping remaining → state.contextStopped = true
  awake : ∀ remaining, state.stopper = .sleeping remaining → .idle ∉ state.workers
  exits : ∀ remaining, state.stopper = .sleeping remaining →
    ∀ worker ∈ state.workers, ∀ stays, worker.rest = some stays → stays < remaining

/-- As long as `stop()` does not sleep, the invariant is about its callers only. -/
theorem clearing_of_unslept (callers : .stopping ∉ state.workers)
    (unslept : ∀ remaining, state.stopper ≠ .sleeping remaining) : state.Clearing := by
  refine ⟨callers, ?_, ?_, ?_⟩
  · intro remaining sleeping
    exact absurd sleeping (unslept remaining)
  · intro remaining sleeping
    exact absurd sleeping (unslept remaining)
  · intro remaining sleeping
    exact absurd sleeping (unslept remaining)

theorem looping_clearing (threads : Nat) : (State.looping threads).Clearing := by
  refine clearing_of_unslept ?_ (by simp [State.looping])
  intro member
  cases (List.mem_replicate.mp member).2

/-- No step of a worker brings it into `stop()`; in a stopped io_context it is on its way out. -/
theorem run_outcome {contextStopped : Bool} {next : Worker} {step : WorkerStep}
    (moved : worker.run contextStopped step = some next) :
    next ≠ .stopping ∧ (contextStopped = true →
      next = .returned ∨ ∃ latency, step = .enter latency ∧ next = .handling latency) := by
  cases step with
  | enter latency =>
    cases worker with
    | entering =>
      cases moved
      cases contextStopped <;> simp
    | idle | handling | stopping | returned => cases moved
  | take duration =>
    cases worker with
    | idle =>
      cases contextStopped with
      | true => cases moved
      | false =>
        cases moved
        simp
    | entering | handling | stopping | returned => cases moved
  | finish throws =>
    cases worker with
    | handling remaining =>
      simp only [Worker.run, Option.ite_none_right_eq_some, Option.some.injEq] at moved
      obtain ⟨_, rfl⟩ := moved
      cases contextStopped <;> cases throws <;> simp
    | entering | idle | stopping | returned => cases moved
  | leave =>
    cases worker with
    | idle =>
      cases moved
      simp
    | entering | handling | stopping | returned => cases moved

theorem elapse_rest {duration : Nat} :
    (worker.elapse duration).rest = worker.rest.map (· - duration) := by
  cases worker <;> simp [Worker.elapse, Worker.rest]

theorem mem_woken {latencies : List Nat} (member : worker ∈ state.woken latencies) :
    ∃ earlier ∈ state.workers, ∃ latency, earlier.wake latency = worker := by
  obtain ⟨index, bound, rfl⟩ := List.mem_mapIdx.mp member
  exact ⟨_, List.getElem_mem bound, _, rfl⟩

theorem worker_clearing {index : Nat} {step : WorkerStep} {next : Worker} (clearing : state.Clearing)
    (clears : state.Clears (.worker index step))
    (moved : worker.run state.contextStopped step = some next) :
    { state with workers := state.workers.set index next }.Clearing := by
  obtain ⟨apart, leaves⟩ := run_outcome moved
  refine ⟨?_, clearing.stopped, ?_, ?_⟩
  · intro member
    rcases List.mem_or_eq_of_mem_set member with earlier | same
    · exact clearing.callers earlier
    · exact apart same.symm
  · intro remaining sleeping member
    rcases List.mem_or_eq_of_mem_set member with earlier | same
    · exact clearing.awake remaining sleeping earlier
    · subst same
      rcases leaves (clearing.stopped remaining sleeping) with out | ⟨latency, -, entered⟩
      · cases out
      · cases entered
  · intro remaining sleeping other member stays exits
    rcases List.mem_or_eq_of_mem_set member with earlier | rfl
    · exact clearing.exits remaining sleeping other earlier stays exits
    · rcases leaves (clearing.stopped remaining sleeping) with rfl | ⟨latency, rfl, rfl⟩
      · cases exits
      · have soon : state.stopper.outlasts latency = true := clears
        cases exits
        rw [sleeping] at soon
        exact of_decide_eq_true soon

theorem stopContext_clearing {latencies : List Nat} (clearing : state.Clearing)
    (short : ∀ worker ∈ state.woken latencies, worker.rest.all (· < stopDelay) = true) :
    { state with
      contextStopped := true, stopper := .sleeping stopDelay,
      workers := state.woken latencies }.Clearing := by
  refine ⟨?_, fun _ _ => rfl, ?_, ?_⟩
  · intro member
    obtain ⟨worker, earlier, latency, woken⟩ := mem_woken member
    cases worker with
    | stopping => exact clearing.callers earlier
    | entering | idle | handling | returned => cases woken
  · intro _ _ member
    obtain ⟨worker, _, latency, woken⟩ := mem_woken member
    cases worker <;> cases woken
  · intro remaining sleeping worker member stays exits
    cases sleeping
    have soon := short worker member
    rw [exits] at soon
    exact of_decide_eq_true soon

theorem elapse_sleeping {stopper : Stopper} {duration remaining : Nat}
    (sleeping : stopper.elapse duration = .sleeping remaining) :
    ∃ left, stopper = .sleeping left ∧ remaining = left - duration := by
  cases stopper with
  | sleeping left =>
    cases sleeping
    exact ⟨left, rfl, rfl⟩
  | idle | closing | done => cases sleeping

theorem elapse_clearing {duration : Nat} (clearing : state.Clearing)
    (enough : state.workers.all (·.rest.all (duration ≤ ·)) = true) :
    { state with
      workers := state.workers.map (Worker.elapse duration),
      stopper := state.stopper.elapse duration }.Clearing := by
  refine ⟨?_, ?_, ?_, ?_⟩
  · intro member
    obtain ⟨worker, earlier, elapsed⟩ := List.mem_map.mp member
    cases worker with
    | stopping => exact clearing.callers earlier
    | entering | idle | handling | returned => cases elapsed
  · intro remaining sleeping
    obtain ⟨left, stopper, _⟩ := elapse_sleeping sleeping
    exact clearing.stopped left stopper
  · intro remaining sleeping member
    obtain ⟨left, stopper, _⟩ := elapse_sleeping sleeping
    obtain ⟨worker, earlier, elapsed⟩ := List.mem_map.mp member
    cases worker with
    | idle => exact clearing.awake left stopper earlier
    | entering | stopping | handling | returned => cases elapsed
  · intro remaining sleeping worker member stays exits
    obtain ⟨left, stopper, rfl⟩ := elapse_sleeping sleeping
    obtain ⟨earlier, known, rfl⟩ := List.mem_map.mp member
    rw [elapse_rest, Option.map_eq_some_iff] at exits
    obtain ⟨stayed, exit, rfl⟩ := exits
    have longer := List.all_eq_true.mp enough earlier known
    rw [exit] at longer
    have passes : duration ≤ stayed := of_decide_eq_true longer
    have sooner := clearing.exits left stopper earlier known stayed exit
    omega

theorem next_clearing (clearing : before.Clearing) (clears : before.Clears event)
    (stepped : before.next event = some after) : after.Clearing := by
  cases event with
  | worker index step =>
    simp only [State.next, Option.ite_none_left_eq_some, Option.map_eq_some_iff,
      Option.bind_eq_some_iff] at stepped
    obtain ⟨_, next, ⟨worker, found, moved⟩, rfl⟩ := stepped
    exact worker_clearing clearing clears moved
  | stop caller =>
    simp only [State.next] at stepped
    split at stepped
    · rename_i running
      obtain rfl : caller = none := clears running
      cases stepped
      exact clearing_of_unslept clearing.callers (by simp)
    · cases stepped
      exact clearing
  | stopContext latencies =>
    simp only [State.next, Option.ite_none_right_eq_some, Option.some.injEq] at stepped
    obtain ⟨_, rfl⟩ := stepped
    exact stopContext_clearing clearing clears
  | elapse duration =>
    simp only [State.next, Option.ite_none_right_eq_some, Option.some.injEq] at stepped
    obtain ⟨enough, rfl⟩ := stepped
    exact elapse_clearing clearing enough
  | delete =>
    simp only [State.next, Option.ite_none_right_eq_some, Option.some.injEq] at stepped
    obtain ⟨_, rfl⟩ := stepped
    exact clearing_of_unslept clearing.callers (by simp)

/-- In every run in which no worker calls `stop()`, and every worker gets out of the stopped
io_context before the delay is over, the io_context is deleted when no worker is within
`run()`. -/
theorem context_deleted_unused (threads : Nat) (state after : State)
    (reached : Transition.Reaches State.next State.Clears (.looping threads) state)
    (deletes : state.next .delete = some after) :
    ∀ worker ∈ state.workers, worker.isInside = false := by
  have clearing : state.Clearing := by
    refine Transition.Reaches.invariant State.Clearing (looping_clearing threads) ?_ reached
    intro before event after clearing clears stepped
    exact next_clearing clearing clears stepped
  simp only [State.next, Option.ite_none_right_eq_some] at deletes
  obtain ⟨sleeping, _⟩ := deletes
  intro worker member
  cases worker with
  | entering | returned => rfl
  | stopping => exact absurd member clearing.callers
  | idle => exact absurd member (clearing.awake 0 sleeping)
  | handling remaining =>
    have exits := clearing.exits 0 sleeping _ member remaining rfl
    exact absurd exits (Nat.not_lt_zero _)

/-- One worker has half of the delay to go in its handler, another one waits, and a third one calls
`run()` during the delay only. -/
theorem context_deleted_unused_in_time :
    (.replicate 3 .returned : List Worker).any Worker.isInside = false := by
  have unused := context_deleted_unused 3 ⟨false, true, .sleeping 0, .replicate 3 .returned⟩
    ⟨false, true, .done, .replicate 3 .returned⟩
    (.of_execute [.worker 0 (.enter 0), .worker 1 (.enter 0), .worker 0 (.take 50), .stop none,
      .stopContext [0, 1], .elapse 1, .worker 1 (.finish false), .elapse 49, .worker 0 (.finish false),
      .worker 2 (.enter 20), .elapse 20, .worker 2 (.finish false), .elapse 30] (by decide +kernel))
    (by decide)
  refine List.any_eq_false.mpr ?_
  intro worker member
  exact Bool.eq_false_iff.mp (unused worker member)

/-- A handler takes longer than the delay. -/
theorem context_deleted_in_handler :
    ¬ ∀ (threads : Nat) (state after : State),
      Transition.Reaches State.next (fun _ _ => True) (.looping threads) state →
      state.next .delete = some after → ∀ worker ∈ state.workers, worker.isInside = false := by
  intro unused
  have outside := unused 1 ⟨false, true, .sleeping 0, [.handling 100]⟩
    ⟨false, true, .done, [.handling 100]⟩
    (.of_execute [.worker 0 (.enter 0), .worker 0 (.take 200), .stop none, .stopContext [], .elapse 100]
      (by decide +kernel)) (by decide) (.handling 100) (by simp)
  cases outside

theorem stopping_stays (stopping : .stopping ∈ before.workers)
    (stepped : before.next event = some after) : .stopping ∈ after.workers := by
  obtain ⟨place, found⟩ := List.mem_iff_getElem?.mp stopping
  refine List.mem_of_getElem? (i := place) ?_
  cases event with
  | worker index step =>
    simp only [State.next, Option.ite_none_left_eq_some, Option.map_eq_some_iff,
      Option.bind_eq_some_iff] at stepped
    obtain ⟨_, next, ⟨worker, known, moved⟩, rfl⟩ := stepped
    have apart : index ≠ place := by
      rintro rfl
      cases known.symm.trans found
      cases step <;> cases moved
    exact (List.getElem?_set_ne apart).trans found
  | stop caller =>
    simp only [State.next] at stepped
    split at stepped
    · cases caller with
      | none =>
        cases stepped
        exact found
      | some index =>
        simp only at stepped
        split at stepped
        · rename_i known
          cases stepped
          have apart : index ≠ place := by
            rintro rfl
            cases known.symm.trans found
          exact (List.getElem?_set_ne apart).trans found
        · cases stepped
    · cases stepped
      exact found
  | stopContext latencies =>
    simp only [State.next, Option.ite_none_right_eq_some, Option.some.injEq] at stepped
    obtain ⟨_, rfl⟩ := stepped
    simp [State.woken, found, Worker.wake]
  | elapse duration =>
    simp only [State.next, Option.ite_none_right_eq_some, Option.some.injEq] at stepped
    obtain ⟨_, rfl⟩ := stepped
    simp [found, Worker.elapse]
  | delete =>
    simp only [State.next, Option.ite_none_right_eq_some, Option.some.injEq] at stepped
    obtain ⟨_, rfl⟩ := stepped
    exact found

/-- Whatever happens after a worker has called `stop()`, that worker is within `run()` when the
io_context is deleted. -/
theorem stopped_by_worker_used {caller : Nat} {last : State} (running : before.running = true)
    (calls : before.next (.stop (some caller)) = some after)
    (reached : Transition.Reaches State.next (fun _ _ => True) after last) :
    ∃ worker ∈ last.workers, worker.isInside = true := by
  refine ⟨.stopping, ?_, rfl⟩
  refine Transition.Reaches.invariant (fun state => .stopping ∈ state.workers) ?_ ?_ reached
  · simp only [State.next, running, if_true] at calls
    split at calls
    · rename_i found
      cases calls
      exact List.mem_set (List.getElem?_eq_some_iff.mp found).1 _
    · cases calls
  · intro _ _ _ stopping _ stepped
    exact stopping_stays stopping stepped

end Hku.WorkerThreads
