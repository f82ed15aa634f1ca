import HkuRest.Core.Transition

/-! `Connection::close` on a TLS connection. The completion handler of `async_shutdown` has
references to two locals of `close`, which waits for it at most two seconds, and on a thread
of the very io_context that has to run it. The sockets are on no strand, so that any thread
of `HttpServer::loop` may run it. -/

namespace Hku.TlsShutdown

/-- The number of threads that are in `m_io_context->run()`. -/
def loopThreads (ioThreadCount hardwareConcurrency : Nat) : Nat :=
  let threadCount := if ioThreadCount = 0 then hardwareConcurrency else ioThreadCount
  if threadCount ≤ 1 then 1 else threadCount

/-- Where the thread is that has called `close`; whether it gave up waiting is kept. -/
inductive Closer
  | starting
  /-- At `while (!shutdown_complete)`. -/
  | testing
  | timing
  | leaving (gaveUp : Bool)
  | returned (gaveUp : Bool)
  deriving DecidableEq, Repr

/-- The operation `async_shutdown`; it may take the io_context several turns. -/
inductive Operation
  | unstarted
  | waiting
  /-- The io_context has something to run for it. -/
  | ready
  /-- Its handler has run. -/
  | done
  deriving DecidableEq, Repr

/-- The threads are numbered; the one that has called `close` is number 0. -/
structure State where
  threads : Nat
  closer : Closer
  operation : Operation
  shutdownComplete : Bool
  contextStopped : Bool
  deriving DecidableEq, Repr

inductive Event
  /-- `async_shutdown`; where it throws, the exception is caught and the socket shut down. -/
  | start (throws : Bool)
  | test
  /-- The clock is read so many nanoseconds after the start. -/
  | time (elapsed : Int)
  | shutdownTcp
  /-- The peer has answered, or the socket has failed or been destroyed. -/
  | ready
  /-- A thread of the io_context goes on with the operation, and runs its handler if it is over. -/
  | run (thread : Nat) (ends : Bool)
  /-- `HttpServer::stop` stops the io_context. -/
  | stop
  deriving DecidableEq, Repr

def closeTimeout : Int := 2000000000

def Closer.hasReturned : Closer → Bool
  | .returned _ => true
  | _ => false

namespace State

def initial (threads : Nat) : State := ⟨threads, .starting, .unstarted, false, false⟩

/-- The thread is not the one that is still in `close`. -/
def free (state : State) (thread : Nat) : Bool :=
  thread < state.threads && (thread ≠ 0 || state.closer.hasReturned)

end State

def next (state : State) : Event → Option State
  | .start throws =>
      if state.closer = .starting then
        if throws then some { state with closer := .leaving false }
        else some { state with closer := .testing, operation := .waiting }
      else none
  | .test =>
      if state.closer = .testing then
        some { state with closer := if state.shutdownComplete then .leaving false else .timing }
      else none
  | .time elapsed =>
      if state.closer = .timing then
        some { state with closer := if elapsed > closeTimeout then .leaving true else .testing }
      else none
  | .shutdownTcp =>
      match state.closer with
      | .leaving gaveUp => some { state with closer := .returned gaveUp }
      | _ => none
  | .ready => if state.operation = .waiting then some { state with operation := .ready } else none
  | .run thread ends =>
      if state.free thread && !state.contextStopped && state.operation = .ready then
        if ends then some { state with operation := .done, shutdownComplete := true }
        else some { state with operation := .waiting }
      else none
  | .stop => some { state with contextStopped := true }

/-- Whatever happens later, the handler does not run. -/
def NeverRuns (state : State) : Prop :=
  ∀ last, Transition.Reaches next (fun _ _ => True) state last → last.operation ≠ .done

/-- When `close` has returned, the handler has run or will never run. -/
def Settled (state : State) : Prop :=
  state.closer.hasReturned = true → state.operation = .done ∨ NeverRuns state

/-- `close` does not come back from giving up, unless the handler has run in the meantime or
the io_context is stopped. -/
def LeavesNoHandler (before : State) (event : Event) (_ : State) : Prop :=
  event = .shutdownTcp → before.closer = .leaving true →
    before.operation = .done ∨ before.contextStopped = true

variable {before after state last : State} {event : Event} {threads : Nat}

/-- What a step can do. -/
inductive Step (state : State) : Event → State → Prop
  | fail (starting : state.closer = .starting) :
      Step state (.start true) { state with closer := .leaving false }
  | start (starting : state.closer = .starting) :
      Step state (.start false) { state with closer := .testing, operation := .waiting }
  | complete (testing : state.closer = .testing) (complete : state.shutdownComplete = true) :
      Step state .test { state with closer := .leaving false }
  | incomplete (testing : state.closer = .testing) (incomplete : state.shutdownComplete = false) :
      Step state .test { state with closer := .timing }
  | giveUp {elapsed : Int} (timing : state.closer = .timing) (late : elapsed > closeTimeout) :
      Step state (.time elapsed) { state with closer := .leaving true }
  | again {elapsed : Int} (timing : state.closer = .timing) (early : ¬ elapsed > closeTimeout) :
      Step state (.time elapsed) { state with closer := .testing }
  | shutdownTcp {gaveUp : Bool} (leaving : state.closer = .leaving gaveUp) :
      Step state .shutdownTcp { state with closer := .returned gaveUp }
  | ready (waiting : state.operation = .waiting) : Step state .ready { state with operation := .ready }
  | finish {thread : Nat} (free : state.free thread = true) (running : state.contextStopped = false)
      (ready : state.operation = .ready) :
      Step state (.run thread true) { state with operation := .done, shutdownComplete := true }
  | goOn {thread : Nat} (free : state.free thread = true) (running : state.contextStopped = false)
      (ready : state.operation = .ready) :
      Step state (.run thread false) { state with operation := .waiting }
  | stop : Step state .stop { state with contextStopped := true }

theorem step_of_next (stepped : next before event = some after) : Step before event after := by
  cases event with
  | start throws =>
    simp only [next, Option.ite_none_right_eq_some] at stepped
    obtain ⟨starting, taken⟩ := stepped
    cases throws with
    | true => exact Option.some.inj taken ▸ .fail starting
    | false => exact Option.some.inj taken ▸ .start starting
  | test =>
    simp only [next, Option.ite_none_right_eq_some] at stepped
    obtain ⟨testing, taken⟩ := stepped
    split at taken
    · rename_i complete
      exact Option.some.inj taken ▸ .complete testing complete
    · rename_i incomplete
      exact Option.some.inj taken ▸ .incomplete testing (Bool.eq_false_iff.mpr incomplete)
  | time elapsed =>
    simp only [next, Option.ite_none_right_eq_some] at stepped
    obtain ⟨timing, taken⟩ := stepped
    split at taken
    · rename_i late
      exact Option.some.inj taken ▸ .giveUp timing late
    · rename_i early
      exact Option.some.inj taken ▸ .again timing early
  | shutdownTcp =>
    simp only [next] at stepped
    split at stepped
    · rename_i gaveUp leaving
      exact Option.some.inj stepped ▸ .shutdownTcp leaving
    · cases stepped
  | ready =>
    simp only [next, Option.ite_none_right_eq_some] at stepped
    exact Option.some.inj stepped.2 ▸ .ready stepped.1
  | run thread ends =>
    simp only [next, Option.ite_none_right_eq_some, Bool.and_eq_true, Bool.not_eq_true',
      decide_eq_true_eq] at stepped
    obtain ⟨⟨⟨free, running⟩, ready⟩, taken⟩ := stepped
    cases ends with
    | true => exact Option.some.inj taken ▸ .finish free running ready
    | false => exact Option.some.inj taken ▸ .goOn free running ready
  | stop => exact Option.some.inj stepped ▸ .stop

/-- `close` is over and the operation not, which has no turn any more. -/
structure Quiet (state : State) : Prop where
  returned : state.closer.hasReturned = true
  unfinished : state.operation ≠ .done
  idle : state.operation = .unstarted ∨ state.contextStopped = true

theorem next_quiet (quiet : Quiet before) (stepped : next before event = some after) : Quiet after := by
  obtain ⟨returned, unfinished, idle⟩ := quiet
  cases step_of_next stepped with
  | fail phase | start phase | complete phase _ | incomplete phase _ | giveUp phase _ | again phase _
  | shutdownTcp phase =>
    rw [phase] at returned
    cases returned
  | ready waiting =>
    rw [waiting] at idle
    exact ⟨returned, by simp, .inr (idle.resolve_left (by simp))⟩
  | finish _ running ready | goOn _ running ready =>
    rw [running, ready] at idle
    rcases idle with other | stopped
    · cases other
    · cases stopped
  | stop => exact ⟨returned, unfinished, .inr rfl⟩

theorem Quiet.neverRuns (quiet : Quiet state) : NeverRuns state := by
  intro last reached
  exact (reached.invariant Quiet quiet fun _ _ _ still _ stepped => next_quiet still stepped).unfinished

/-- An operation that is under way can still come to its end, on the thread that was in `close`
if on no other. -/
theorem neverRuns_iff (positive : 0 < state.threads) (returned : state.closer.hasReturned = true)
    (unfinished : state.operation ≠ .done) :
    NeverRuns state ↔ state.operation = .unstarted ∨ state.contextStopped = true := by
  constructor
  · intro never
    by_cases stopped : state.contextStopped = true
    · exact .inr stopped
    have running : state.contextStopped = false := Bool.eq_false_iff.mpr stopped
    have never_ready (between : Transition.Reaches next (fun _ _ => True) state { state with operation := .ready }) :
        False := by
      have turn : next { state with operation := .ready } (.run 0 true) =
          some { state with operation := .done, shutdownComplete := true } := by
        simp [next, State.free, positive, returned, running]
      exact never _ (.step between trivial turn) rfl
    cases under : state.operation with
    | unstarted => exact .inl rfl
    | waiting =>
      have answered : next state .ready = some { state with operation := .ready } := by
        simp [next, under]
      exact (never_ready (.step .refl trivial answered)).elim
    | ready =>
      have same : { state with operation := .ready } = state := by rw [← under]
      exact (never_ready (same ▸ .refl)).elim
    | done => exact absurd under unfinished
  · intro idle
    exact Quiet.neverRuns ⟨returned, unfinished, idle⟩

/-- The operation was started, and its thread has not seen the end of it. -/
def Closer.awaits : Closer → Bool
  | .testing | .timing | .leaving true | .returned true => true
  | _ => false

/-- The thread has seen the end of the operation, or could not start it. -/
def Closer.content : Closer → Bool
  | .leaving false | .returned false => true
  | _ => false

structure Consistent (state : State) : Prop where
  fresh : state.closer = .starting → state.operation = .unstarted
  started : state.closer.awaits = true → state.operation ≠ .unstarted
  complete : state.shutdownComplete = true → state.operation = .done
  ends : state.closer.content = true → state.operation = .done ∨ state.operation = .unstarted

theorem initial_consistent (threads : Nat) : Consistent (.initial threads) := by
  constructor <;> simp [State.initial, Closer.awaits, Closer.content]

theorem next_consistent (consistent : Consistent before) (stepped : next before event = some after) :
    Consistent after := by
  obtain ⟨fresh, started, complete, ends⟩ := consistent
  cases step_of_next stepped with
  | fail starting => exact ⟨nofun, nofun, complete, fun _ => .inr (fresh starting)⟩
  | start starting =>
    have unset : before.shutdownComplete ≠ true := fun set => by
      rw [fresh starting] at complete
      cases complete set
    exact ⟨nofun, fun _ => nofun, fun set => absurd set unset, nofun⟩
  | complete testing set => exact ⟨nofun, nofun, complete, fun _ => .inl (complete set)⟩
  | incomplete phase _ | giveUp phase _ | again phase _ =>
    rw [phase] at started
    exact ⟨nofun, fun _ => started rfl, complete, nofun⟩
  | @shutdownTcp gaveUp leaving =>
    rw [leaving] at started ends
    cases gaveUp with
    | true => exact ⟨nofun, started, complete, nofun⟩
    | false => exact ⟨nofun, nofun, complete, ends⟩
  | ready waiting | goOn _ _ waiting =>
    rw [waiting] at fresh complete ends
    exact ⟨fun starting => (nomatch fresh starting), fun _ => nofun,
      fun set => (nomatch complete set), fun ended => (nomatch ends ended)⟩
  | finish _ _ ready =>
    rw [ready] at fresh
    exact ⟨fun starting => (nomatch fresh starting), fun _ => nofun, fun _ => rfl, fun _ => .inl rfl⟩
  | stop => exact ⟨fresh, started, complete, ends⟩

theorem next_threads (stepped : next before event = some after) : after.threads = before.threads := by
  cases step_of_next stepped <;> rfl

theorem settled_next (settled : Settled before) (returned : before.closer.hasReturned = true)
    (stepped : next before event = some after) : Settled after := by
  intro _
  rcases settled returned with finished | never
  · left
    cases step_of_next stepped with
    | fail phase | start phase | complete phase _ | incomplete phase _ | giveUp phase _ | again phase _
    | shutdownTcp phase =>
      rw [phase] at returned
      cases returned
    | ready waiting | goOn _ _ waiting =>
      rw [waiting] at finished
      cases finished
    | finish => rfl
    | stop => exact finished
  · right
    intro last reached
    exact never last ((Transition.Reaches.step .refl trivial stepped).trans reached)

/-- At its return `close` has seen the end of the operation, or has given up on it. -/
theorem settled_return_iff (positive : 0 < before.threads) (consistent : Consistent before) {gaveUp : Bool}
    (leaving : before.closer = .leaving gaveUp) :
    Settled { before with closer := .returned gaveUp } ↔
      (gaveUp = true → before.operation = .done ∨ before.contextStopped = true) := by
  by_cases finished : before.operation = .done
  · exact iff_of_true (fun _ => .inl finished) fun _ => .inl finished
  have never := @neverRuns_iff { before with closer := .returned gaveUp } positive rfl finished
  have settled : Settled { before with closer := .returned gaveUp } ↔
      NeverRuns { before with closer := .returned gaveUp } :=
    ⟨fun settled => (settled rfl).resolve_left finished, fun never _ => .inr never⟩
  rw [settled, never]
  cases gaveUp with
  | true =>
    have started : before.operation ≠ .unstarted := consistent.started (by rw [leaving]; rfl)
    simp [started, finished]
  | false =>
    have unstarted := (consistent.ends (by rw [leaving]; rfl)).resolve_left finished
    simp [unstarted]

theorem settled_iff (positive : 0 < before.threads) (consistent : Consistent before)
    (settled : Settled before) (stepped : next before event = some after) :
    Settled after ↔ LeavesNoHandler before event after := by
  by_cases returned : before.closer.hasReturned = true
  · refine iff_of_true (settled_next settled returned stepped) ?_
    rintro - leaving
    rw [leaving] at returned
    cases returned
  by_cases returns : event = .shutdownTcp
  · subst returns
    cases step_of_next stepped with
    | @shutdownTcp gaveUp leaving =>
      rw [settled_return_iff positive consistent leaving, LeavesNoHandler, leaving]
      simp
  · refine iff_of_true (fun ended => ?_) fun same => absurd same returns
    exfalso
    cases step_of_next stepped with
    | shutdownTcp => exact returns rfl
    | ready | finish | goOn | stop => exact returned ended
    | _ => cases ended

/-- Under any scheduling, the handler of `async_shutdown` has run or will never run whenever
`close` has returned, exactly in the runs in which `close` does not give up on an operation
that the io_context goes on with. -/
theorem close_settled_iff (ioThreadCount hardwareConcurrency : Nat) (events : List Event) :
    Transition.Along next (fun _ _ after => Settled after)
        (.initial (loopThreads ioThreadCount hardwareConcurrency)) events ↔
      Transition.Along next LeavesNoHandler
        (.initial (loopThreads ioThreadCount hardwareConcurrency)) events := by
  have positive : 0 < loopThreads ioThreadCount hardwareConcurrency := by
    simp only [loopThreads]
    split <;> split <;> omega
  refine Transition.along_iff
    (fun state => 0 < state.threads ∧ Consistent state ∧ Settled state) ?_ ?_ ?_ events
  · exact ⟨positive, initial_consistent _, nofun⟩
  · rintro before event after ⟨threads, consistent, -⟩ stepped settled
    exact ⟨(next_threads stepped).symm ▸ threads, next_consistent consistent stepped, settled⟩
  · rintro before event after ⟨threads, consistent, settled⟩ stepped
    exact settled_iff threads consistent settled stepped

/-- With a single thread, and a peer that answers at once. -/
theorem single_thread_dangles :
    ¬ ∀ (ioThreadCount hardwareConcurrency : Nat) (events : List Event),
      Transition.Along next (fun _ _ after => Settled after)
        (.initial (loopThreads ioThreadCount hardwareConcurrency)) events := by
  intro settles
  have settled := (settles 1 8 [.start false, .ready, .test, .time 2000000001, .shutdownTcp]
    _ rfl).2 _ rfl |>.2 _ rfl |>.2 _ rfl |>.2 _ rfl |>.1
  rcases settled rfl with finished | never
  · cases finished
  · exact never _ (.step .refl trivial (rfl : next _ (.run 0 true) = some _)) rfl

theorem single_thread_kept (alone : before.threads = 1)
    (pending : before.closer.hasReturned = false → before.operation ≠ .done)
    (stepped : next before event = some after) :
    after.closer.hasReturned = false → after.operation ≠ .done := by
  cases step_of_next stepped with
  | start => exact fun _ => nofun
  | fail phase | complete phase _ | incomplete phase _ | giveUp phase _ | again phase _ =>
    rw [phase] at pending
    exact fun _ => pending rfl
  | shutdownTcp => exact nofun
  | ready | goOn => exact fun _ => nofun
  | @finish thread free =>
    intro inside
    simp only [State.free, alone, Bool.and_eq_true, Bool.or_eq_true, decide_eq_true_eq] at free
    have other : thread ≠ 0 := free.2.resolve_right (by rw [inside]; exact Bool.false_ne_true)
    omega
  | stop => exact pending

/-- On its only thread `close` waits in vain: whenever it leaves its loop, the handler has not
run, and it has given up on it unless it could not start the operation. -/
theorem single_thread_gives_up {gaveUp : Bool}
    (reached : Transition.Reaches next (fun _ _ => True) (.initial 1) state)
    (leaving : state.closer = .leaving gaveUp) :
    state.operation ≠ .done ∧ (gaveUp = true ∨ state.operation = .unstarted) := by
  obtain ⟨-, pending, consistent⟩ : state.threads = 1 ∧
      (state.closer.hasReturned = false → state.operation ≠ .done) ∧ Consistent state := by
    refine reached.invariant (fun state => state.threads = 1 ∧
      (state.closer.hasReturned = false → state.operation ≠ .done) ∧ Consistent state) ?_ ?_
    · exact ⟨rfl, fun _ => nofun, initial_consistent 1⟩
    · rintro before event after ⟨alone, pending, consistent⟩ - stepped
      exact ⟨(next_threads stepped).trans alone, single_thread_kept alone pending stepped,
        next_consistent consistent stepped⟩
  rw [leaving] at pending
  refine ⟨pending rfl, ?_⟩
  cases gaveUp with
  | true => exact .inl rfl
  | false => exact .inr ((consistent.ends (by rw [leaving]; rfl)).resolve_left (pending rfl))

end Hku.TlsShutdown
