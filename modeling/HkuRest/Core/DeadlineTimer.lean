import Mathlib.Data.List.Basic

/-! A timer that several waits share, as asynchronous frameworks have it: it has one
expiry. Cancelling it or setting the expiry anew completes every pending wait as aborted,
and the handler of a completed wait runs later, from a queue. -/

inductive DeadlineTimer.Outcome
  | expired
  | aborted
  deriving DecidableEq, Repr

structure DeadlineTimer.Handler (Owner : Type) where
  owner : Owner
  outcome : DeadlineTimer.Outcome
  deriving DecidableEq, Repr

structure DeadlineTimer (Owner : Type) where
  now : Nat
  expiry : Option Nat
  waits : List Owner
  ready : List (DeadlineTimer.Handler Owner)
  deriving DecidableEq, Repr

namespace DeadlineTimer

variable {Owner : Type} {timer later : DeadlineTimer Owner} {owner : Owner} {outcome : Outcome}
  {handler : Handler Owner}

def idle (now : Nat) : DeadlineTimer Owner := ⟨now, none, [], []⟩

/-- Every pending wait is over; its handler is queued. -/
def finish (timer : DeadlineTimer Owner) (outcome : Outcome) : DeadlineTimer Owner :=
  { timer with waits := [], ready := timer.ready ++ timer.waits.map (⟨·, outcome⟩) }

def cancel (timer : DeadlineTimer Owner) : DeadlineTimer Owner := timer.finish .aborted

def expiresAfter (timer : DeadlineTimer Owner) (delay : Nat) : DeadlineTimer Owner :=
  { timer.cancel with expiry := some (timer.now + delay) }

def asyncWait (timer : DeadlineTimer Owner) (owner : Owner) : DeadlineTimer Owner :=
  { timer with waits := timer.waits ++ [owner] }

def elapse (timer : DeadlineTimer Owner) (duration : Nat) : DeadlineTimer Owner :=
  { timer with now := timer.now + duration }

/-- The expiry has passed; one that was never set has always passed. -/
def isDue (timer : DeadlineTimer Owner) : Bool := timer.expiry.all (· ≤ timer.now)

def expire (timer : DeadlineTimer Owner) : Option (DeadlineTimer Owner) :=
  if timer.isDue then some (timer.finish .expired) else none

/-- The timer once the handler at this place of the queue has been taken to run. -/
def take (timer : DeadlineTimer Owner) (index : Nat) : DeadlineTimer Owner :=
  { timer with ready := timer.ready.eraseIdx index }

theorem mem_ready_finish : handler ∈ (timer.finish outcome).ready ↔
    handler ∈ timer.ready ∨ handler.owner ∈ timer.waits ∧ handler.outcome = outcome := by
  obtain ⟨owner, result⟩ := handler
  simp only [finish, List.mem_append, List.mem_map, Handler.mk.injEq]
  refine or_congr_right ⟨?_, ?_⟩
  · rintro ⟨waiting, member, rfl, rfl⟩
    exact ⟨member, rfl⟩
  · rintro ⟨member, rfl⟩
    exact ⟨owner, member, rfl, rfl⟩

theorem expired_mem_cancel :
    ⟨owner, .expired⟩ ∈ timer.cancel.ready ↔ ⟨owner, .expired⟩ ∈ timer.ready := by
  rw [cancel, mem_ready_finish]
  simp

theorem mem_ready_take {index : Nat} {taken : Handler Owner} (found : timer.ready[index]? = some taken)
    (other : taken ≠ handler) (queued : handler ∈ timer.ready) : handler ∈ (timer.take index).ready := by
  obtain ⟨place, known⟩ := List.mem_iff_getElem?.mp queued
  refine List.mem_eraseIdx_iff_getElem?.mpr ⟨place, ?_, known⟩
  rintro rfl
  exact other (Option.some.inj (found.symm.trans known))

/-- The supervised waits stand for tasks: each has a deadline once it exists, and is
active until it is over. -/
structure Tasks (Owner : Type) where
  supervised : Owner → Prop
  deadline : Owner → Option Nat
  active : Owner → Prop

variable {tasks others : Tasks Owner}

/-- The task is still active although its deadline has passed. -/
def Tasks.Overdue (tasks : Tasks Owner) (now : Nat) (owner : Owner) : Prop :=
  tasks.active owner ∧ ∃ deadline, tasks.deadline owner = some deadline ∧ deadline ≤ now

/-- Every wait is for its own task's deadline, and every queued handler for an overdue task. -/
structure Sound (tasks : Tasks Owner) (timer : DeadlineTimer Owner) : Prop where
  armed : ∀ owner ∈ timer.waits, tasks.supervised owner →
    ∃ deadline, tasks.deadline owner = some deadline ∧ timer.expiry = some deadline
  overdue : ∀ handler ∈ timer.ready, tasks.supervised handler.owner →
    tasks.Overdue timer.now handler.owner

namespace Sound

theorem of_idle (now : Nat) : Sound tasks (idle now) := by
  constructor
  · intro owner member
    cases member
  · intro handler member
    cases member

/-- The one obligation of completing the waits, whichever way. -/
theorem finish (sound : Sound tasks timer)
    (overdue : ∀ owner ∈ timer.waits, tasks.supervised owner → tasks.Overdue timer.now owner) :
    Sound tasks (timer.finish outcome) := by
  constructor
  · intro owner member
    cases member
  · intro handler member supervised
    rcases mem_ready_finish.mp member with queued | ⟨waiting, _⟩
    · exact sound.overdue handler queued supervised
    · exact overdue handler.owner waiting supervised

theorem expiresAfter {delay : Nat} (sound : Sound tasks timer)
    (overdue : ∀ owner ∈ timer.waits, tasks.supervised owner → tasks.Overdue timer.now owner) :
    Sound tasks (timer.expiresAfter delay) := by
  constructor
  · intro owner member
    cases member
  · exact (sound.finish overdue).overdue

theorem asyncWait (sound : Sound tasks timer)
    (armed : tasks.supervised owner →
      ∃ deadline, tasks.deadline owner = some deadline ∧ timer.expiry = some deadline) :
    Sound tasks (timer.asyncWait owner) := by
  constructor
  · intro waiting member supervised
    rcases List.mem_append.mp member with earlier | last
    · exact sound.armed waiting earlier supervised
    · rw [List.mem_singleton.mp last] at supervised ⊢
      exact armed supervised
  · exact sound.overdue

theorem elapse {duration : Nat} (sound : Sound tasks timer) : Sound tasks (timer.elapse duration) := by
  constructor
  · exact sound.armed
  · intro handler member supervised
    obtain ⟨active, deadline, known, passed⟩ := sound.overdue handler member supervised
    exact ⟨active, deadline, known, Nat.le_trans passed (Nat.le_add_right _ _)⟩

/-- A timer that fires does so at the deadline of each wait, so only the task can be amiss. -/
theorem expire (sound : Sound tasks timer)
    (active : ∀ owner ∈ timer.waits, tasks.supervised owner → tasks.active owner)
    (fires : timer.expire = some later) : Sound tasks later := by
  simp only [DeadlineTimer.expire, Option.ite_none_right_eq_some, Option.some.injEq] at fires
  obtain ⟨due, rfl⟩ := fires
  refine sound.finish fun owner member supervised => ?_
  obtain ⟨deadline, known, expiry⟩ := sound.armed owner member supervised
  refine ⟨active owner member supervised, deadline, known, ?_⟩
  simpa [isDue, expiry] using due

theorem take (sound : Sound tasks timer) (index : Nat) : Sound tasks (timer.take index) := by
  constructor
  · exact sound.armed
  · intro handler member
    exact sound.overdue handler (List.mem_of_mem_eraseIdx member)

theorem change (sound : Sound tasks timer)
    (supervised : ∀ owner, others.supervised owner → tasks.supervised owner)
    (deadline : ∀ owner deadline, tasks.deadline owner = some deadline →
      others.deadline owner = some deadline)
    (active : ∀ handler ∈ timer.ready, others.supervised handler.owner →
      tasks.active handler.owner → others.active handler.owner) : Sound others timer := by
  constructor
  · intro owner member watched
    obtain ⟨moment, known, expiry⟩ := sound.armed owner member (supervised owner watched)
    exact ⟨moment, deadline owner moment known, expiry⟩
  · intro handler member watched
    obtain ⟨still, moment, known, passed⟩ :=
      sound.overdue handler member (supervised handler.owner watched)
    exact ⟨active handler member watched still, moment, deadline handler.owner moment known, passed⟩

end Sound

end DeadlineTimer
