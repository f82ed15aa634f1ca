import Mathlib.Algebra.Group.Nat.Defs

/-! Words that agree on their leading bits, and the masks that leave these bits. -/

namespace BitPrefix

variable {w k : Nat} {x y : BitVec w}

/-- The bits from `k` on. -/
def mask (w k : Nat) : BitVec w := BitVec.allOnes w <<< k

/-- The words agree on all bits but the lowest `k`. -/
def Agree (k : Nat) (x y : BitVec w) : Prop := x.toNat / 2 ^ k = y.toNat / 2 ^ k

instance : Decidable (Agree k x y) := inferInstanceAs (Decidable (_ = _))

theorem and_mask (x : BitVec w) (k : Nat) : x &&& mask w k = x >>> k <<< k := by
  apply BitVec.eq_of_getLsbD_eq
  intro i inside
  rw [mask, BitVec.getLsbD_and, BitVec.getLsbD_shiftLeft, BitVec.getLsbD_shiftLeft,
    BitVec.getLsbD_ushiftRight, BitVec.getLsbD_allOnes]
  by_cases low : i < k
  · simp [low]
  · have place : k + (i - k) = i := by omega
    have within : i - k < w := by omega
    simp [low, place, inside, within]

theorem toNat_and_mask (x : BitVec w) (k : Nat) : (x &&& mask w k).toNat = x.toNat / 2 ^ k * 2 ^ k := by
  have small : x.toNat / 2 ^ k * 2 ^ k < 2 ^ w :=
    Nat.lt_of_le_of_lt (Nat.div_mul_le_self _ _) x.isLt
  rw [and_mask, BitVec.toNat_shiftLeft, BitVec.toNat_ushiftRight, Nat.shiftRight_eq_div_pow,
    Nat.shiftLeft_eq, Nat.mod_eq_of_lt small]

theorem and_mask_eq_iff : x &&& mask w k = y &&& mask w k ↔ Agree k x y := by
  rw [← BitVec.toNat_inj, toNat_and_mask, toNat_and_mask, Agree,
    Nat.mul_right_cancel_iff (Nat.two_pow_pos k)]

theorem and_mask_eq_self_iff : x &&& mask w k = x ↔ 2 ^ k ∣ x.toNat := by
  rw [← BitVec.toNat_inj, toNat_and_mask]
  exact (Nat.dvd_iff_div_mul_eq _ _).symm

theorem and_eq_self_of_and_not (m : BitVec w) (inside : x &&& ~~~m = 0) : x &&& m = x := by
  apply BitVec.eq_of_getLsbD_eq
  intro i bound
  have bit := congrArg (BitVec.getLsbD · i) inside
  simp only [BitVec.getLsbD_and, BitVec.getLsbD_not, bound, decide_true, Bool.true_and] at bit
  rw [BitVec.getLsbD_and]
  cases high : x.getLsbD i with
  | false => rfl
  | true => simpa [high] using bit

end BitPrefix
