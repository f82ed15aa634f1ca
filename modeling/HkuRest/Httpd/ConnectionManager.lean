import HkuRest.Core.Transition
import HkuRest.Core.Pool

/-! The permit manager of `ConnectionManager.h` (and, line for line the same,
`WebSocketConnectionManager.h`): its members, and its operations cut at each
atomic access, each section under `m_wait_mutex` and the suspension of the timer
wait. A timer is named by the index of the acquire call that made it. -/

namespace Hku

/-- The value an `std::atomic<int>` holds after modular arithmetic. -/
def wrap32 (value : Int) : Int := value.bmod 0x100000000

def intMax : Int := 0x7fffffff

structure ConnectionManager where
  maxConcurrent : Nat
  waitTimeout : Nat
  currentCount : Int
  waitingCount : Int
  nextPermitId : Int
  isShutdown : Bool
  waitQueue : List Nat
  deriving DecidableEq, Repr

namespace ConnectionManager

def create (maxConcurrent waitTimeout : Nat) : ConnectionManager where
  maxConcurrent := maxConcurrent
  waitTimeout := waitTimeout
  currentCount := 0
  waitingCount := 0
  nextPermitId := 0
  isShutdown := false
  waitQueue := []

/-- `static_cast<int>(m_max_concurrent)`. -/
def limit (manager : ConnectionManager) : Int := wrap32 manager.maxConcurrent

/-- An acquire takes its own timer out of the queue: from the front, or by
rebuilding the queue without it. -/
def removeTimer (timer : Nat) (queue : List Nat) : List Nat :=
  match queue with
  | [] => []
  | front :: rest => if front = timer then rest else queue.filter (· ≠ timer)

/-- How far one call of `acquire`, with the permit it returned, or of `shutdown`
has come. Each state names what has just happened. -/
inductive Call
  | entered
  | opened
  | trying (expected : Int)
  | granted
  | enqueueing
  | queued
  | waiting
  | resuming (aborted : Bool)
  | dequeued (aborted : Bool)
  | woken
  | retrying (expected : Int)
  | holding (permitId : Int)
  | refused
  | notifying
  | released
  | shutting
  | draining
  | cancelling (timers : List Nat)
  | shut
  deriving DecidableEq, Repr

inductive Action
  | advance
  | spurious
  | expire
  | release
  deriving DecidableEq, Repr

/-- The effect of one step of a call: the members, the call, and the timer whose
pending wait it cancels. -/
structure Effect where
  manager : ConnectionManager
  call : Call
  cancelled : Option Nat
  deriving DecidableEq, Repr

/-- The next step of a call that is neither suspended nor at its end; `timer` is
its own timer. -/
def advance (manager : ConnectionManager) (timer : Nat) : Call → Option Effect
  | .entered =>
      some ⟨manager, if manager.isShutdown then .refused else .opened, none⟩
  | .opened => some ⟨manager, .trying manager.currentCount, none⟩
  | .trying expected =>
      if expected < manager.limit then
        if manager.currentCount = expected then
          some ⟨{ manager with currentCount := wrap32 (expected + 1) }, .granted, none⟩
        else some ⟨manager, .trying manager.currentCount, none⟩
      else
        some ⟨{ manager with waitingCount := wrap32 (manager.waitingCount + 1) }, .enqueueing, none⟩
  | .granted =>
      some ⟨{ manager with nextPermitId := wrap32 (manager.nextPermitId + 1) },
        .holding manager.nextPermitId, none⟩
  | .enqueueing =>
      some ⟨{ manager with waitQueue := manager.waitQueue ++ [timer] }, .queued, none⟩
  | .queued => some ⟨manager, if manager.waitTimeout = 0 then .resuming false else .waiting, none⟩
  | .waiting => none
  | .resuming aborted =>
      some ⟨{ manager with waitQueue := removeTimer timer manager.waitQueue }, .dequeued aborted, none⟩
  | .dequeued aborted =>
      some ⟨{ manager with waitingCount := wrap32 (manager.waitingCount - 1) },
        if aborted then .woken else .refused, none⟩
  | .woken => some ⟨manager, .retrying manager.currentCount, none⟩
  | .retrying expected =>
      if manager.currentCount = expected then
        some ⟨{ manager with currentCount := wrap32 (expected + 1) }, .granted, none⟩
      else some ⟨manager, .retrying manager.currentCount, none⟩
  | .holding _ => none
  | .refused => none
  | .notifying =>
      match manager.waitQueue with
      | [] => some ⟨manager, .released, none⟩
      | front :: rest => some ⟨{ manager with waitQueue := rest }, .released, some front⟩
  | .released => none
  | .shutting => some ⟨{ manager with isShutdown := true }, .draining, none⟩
  | .draining => some ⟨{ manager with waitQueue := [] }, .cancelling manager.waitQueue, none⟩
  | .cancelling (timer :: rest) => some ⟨manager, .cancelling rest, some timer⟩
  | .cancelling [] => some ⟨{ manager with waitingCount := 0 }, .shut, none⟩
  | .shut => none

/-- `compare_exchange_weak` may fail although the values agree. -/
def spurious (manager : ConnectionManager) : Call → Option Effect
  | .trying expected =>
      if expected < manager.limit then some ⟨manager, .trying manager.currentCount, none⟩ else none
  | .retrying _ => some ⟨manager, .retrying manager.currentCount, none⟩
  | _ => none

def expire (manager : ConnectionManager) : Call → Option Effect
  | .waiting => some ⟨manager, .resuming false, none⟩
  | _ => none

/-- The owner of a permit that tests valid gives it back. -/
def release (manager : ConnectionManager) : Call → Option Effect
  | .holding permitId =>
      if 0 ≤ permitId then
        some ⟨{ manager with currentCount := wrap32 (manager.currentCount - 1) }, .notifying, none⟩
      else none
  | _ => none

def act (manager : ConnectionManager) (timer : Nat) (call : Call) : Action → Option Effect
  | .advance => manager.advance timer call
  | .spurious => manager.spurious call
  | .expire => manager.expire call
  | .release => manager.release call

/-- `timer->cancel()` completes a pending wait; a wait that has not begun or has
already completed does not notice it. -/
def cancel (calls : List Call) : Option Nat → List Call
  | none => calls
  | some timer => if calls[timer]? = some .waiting then calls.set timer (.resuming true) else calls

inductive Event
  | acquire
  | shutdown
  | act (call : Nat) (action : Action)
  deriving DecidableEq, Repr

/-- A manager and every call made of it so far. -/
structure State where
  manager : ConnectionManager
  calls : List Call
  deriving DecidableEq, Repr

namespace State

def initial (maxConcurrent waitTimeout : Nat) : State := ⟨create maxConcurrent waitTimeout, []⟩

def commit (state : State) (i : Nat) (effect : Effect) : State :=
  ⟨effect.manager, cancel (state.calls.set i effect.call) effect.cancelled⟩

def next (state : State) : Event → Option State
  | .acquire => some { state with calls := state.calls ++ [.entered] }
  | .shutdown => some { state with calls := state.calls ++ [.shutting] }
  | .act i action => do
      let call ← state.calls[i]?
      let effect ← state.manager.act i call action
      return state.commit i effect

end State

/-- The call has taken a slot of `m_current_count` and not given it back. -/
def Call.counted : Call → Bool
  | .granted | .holding _ => true
  | _ => false

/-- The call was woken and has its slot of `m_current_count` still to take. -/
def Call.promised : Call → Bool
  | .resuming true | .dequeued true | .woken | .retrying _ => true
  | _ => false

/-- The call has given its slot back and has its `notifyOne` still to run. -/
def Call.notifies : Call → Bool
  | .notifying => true
  | _ => false

/-- Suspended, or at an end: not between two steps and with nothing undelivered. -/
def Call.settled : Call → Bool
  | .waiting | .holding _ | .refused | .released | .shut => true
  | _ => false

namespace State

def counted (state : State) : Nat := Pool.tally Call.counted state.calls

def promised (state : State) : Nat := Pool.tally Call.promised state.calls

def notifying (state : State) : Nat := Pool.tally Call.notifies state.calls

end State

/-- The one shape of a step of an existing call. -/
theorem State.next_act {state after : State} {i : Nat} {action : Action}
    (stepped : state.next (.act i action) = some after) :
    ∃ call effect, state.calls[i]? = some call ∧ state.manager.act i call action = some effect ∧
      after = state.commit i effect := by
  simp only [State.next, Option.bind_eq_bind, Option.bind_eq_some_iff, Option.pure_def,
    Option.some.injEq] at stepped
  obtain ⟨call, found, effect, acted, rfl⟩ := stepped
  exact ⟨call, effect, found, acted, rfl⟩

end ConnectionManager

end Hku
