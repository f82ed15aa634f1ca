import Mathlib.Data.Int.Basic
import Mathlib.Tactic.Simps.Basic

/-! A counting semaphore whose slots may be promised before they are taken: a
release can reserve the slot it frees for a waiter that collects it later. The
bound is part of the value, so every sequence of operations respects it. -/

structure Semaphore (capacity : Int) where
  held : Nat
  promised : Nat
  within : held + promised ≤ capacity

namespace Semaphore

variable {capacity : Int}

@[simps]
def idle (room : 0 ≤ capacity) : Semaphore capacity := ⟨0, 0, by simpa using room⟩

@[simps]
def take (semaphore : Semaphore capacity)
    (room : semaphore.held + semaphore.promised < capacity) : Semaphore capacity :=
  ⟨semaphore.held + 1, semaphore.promised, by push_cast; omega⟩

@[simps]
def promise (semaphore : Semaphore capacity)
    (room : semaphore.held + semaphore.promised < capacity) : Semaphore capacity :=
  ⟨semaphore.held, semaphore.promised + 1, by push_cast; omega⟩

/-- A waiter collects the slot that was promised to it. -/
@[simps]
def redeem (semaphore : Semaphore capacity) (owed : 0 < semaphore.promised) : Semaphore capacity :=
  ⟨semaphore.held + 1, semaphore.promised - 1, by have bound := semaphore.within; omega⟩

@[simps]
def release (semaphore : Semaphore capacity) (taken : 0 < semaphore.held) : Semaphore capacity :=
  ⟨semaphore.held - 1, semaphore.promised, by have bound := semaphore.within; omega⟩

/-- One operation, or none. -/
inductive Moves : Semaphore capacity → Semaphore capacity → Prop
  | stay (semaphore) : Moves semaphore semaphore
  | take (semaphore room) : Moves semaphore (semaphore.take room)
  | promise (semaphore room) : Moves semaphore (semaphore.promise room)
  | redeem (semaphore owed) : Moves semaphore (semaphore.redeem owed)
  | release (semaphore taken) : Moves semaphore (semaphore.release taken)

end Semaphore
