import Mathlib.Tactic.Simps.Basic

/-! An object that lives as long as it has owners, and a borrower that owns no share
of it. That a borrower finds an owner is part of the value; the price is paid when an
owner goes. -/

structure Lease where
  owners : Nat
  borrowed : Bool
  covered : borrowed = true → 0 < owners

namespace Lease

@[simps]
def own (lease : Lease) : Lease := ⟨lease.owners + 1, lease.borrowed, fun _ => Nat.succ_pos _⟩

/-- An owner may go when another stays or nothing is borrowed. -/
@[simps]
def disown (lease : Lease) (spare : lease.owners = 1 → lease.borrowed = false)
    (owned : 0 < lease.owners) : Lease where
  owners := lease.owners - 1
  borrowed := lease.borrowed
  covered := by
    intro borrowed
    have other : lease.owners ≠ 1 := fun last => by simp [spare last] at borrowed
    omega

@[simps]
def borrow (lease : Lease) (owned : 0 < lease.owners) : Lease := ⟨lease.owners, true, fun _ => owned⟩

@[simps]
def giveBack (lease : Lease) : Lease := ⟨lease.owners, false, Bool.noConfusion⟩

/-- The end of everything, the borrower included. -/
@[simps]
def vanish (_ : Lease) : Lease := ⟨0, false, Bool.noConfusion⟩

/-- One operation, or none. -/
inductive Moves : Lease → Lease → Prop
  | stay (lease) : Moves lease lease
  | own (lease) : Moves lease lease.own
  | disown (lease spare owned) : Moves lease (lease.disown spare owned)
  | borrow (lease owned) : Moves lease (lease.borrow owned)
  | giveBack (lease) : Moves lease lease.giveBack
  | vanish (lease) : Moves lease lease.vanish

end Lease
