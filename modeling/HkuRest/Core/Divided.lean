import Mathlib.Algebra.Order.Field.Rat
import Mathlib.Data.Rat.Cast.Order

/-! Arithmetic with its divisors. A computation over some numbers records what it divides by, so
that a division by zero can be told from the value that the arithmetic makes of it. Nothing is
asked of the numbers: those of `Float` are rounded, and not all of them can be compared. -/

/-- The operations of a type of numbers, its comparisons, and the conversion of integers to it. -/
class Arithmetic (Number : Type) extends Add Number, Sub Number, Mul Number, Div Number where
  ofInt : Int → Number
  lt : Number → Number → Bool
  le : Number → Number → Bool

namespace Arithmetic

variable {Number : Type} [Arithmetic Number]

instance : Arithmetic ℚ where
  ofInt value := value
  lt one other := one < other
  le one other := one ≤ other

instance : Arithmetic Float where
  ofInt := Float.ofInt
  lt := Float.lt
  le := Float.le

/-- `std::min`: the second one only if it is less. -/
def least (one other : Number) : Number := if lt other one then other else one

theorem least_rat (one other : ℚ) : least one other = min one other := by
  simp only [least, lt, decide_eq_true_eq]
  split
  · rename_i less
    exact (min_eq_right (le_of_lt less)).symm
  · rename_i other_le
    exact (min_eq_left (le_of_not_gt other_le)).symm

theorem float_zero : (Float.ofInt 0).toModel.unpack = .zero .positive := by rfl

theorem not_le_zero_of_pos {value : Float} (positive : lt (ofInt 0) value = true) :
    le value (ofInt 0) = false := by
  have above : (Float.ofInt 0).toModel.unpack.lt value.toModel.unpack = true := of_decide_eq_true positive
  have below : le value (ofInt 0) = value.toModel.unpack.le (Float.ofInt 0).toModel.unpack :=
    Bool.decide_eq_true
  rw [float_zero] at above
  rw [below, float_zero]
  cases unpacked : value.toModel.unpack with
  | notANumber => rfl
  | zero sign =>
    rw [unpacked] at above
    cases above
  | infinity sign =>
    cases sign with
    | positive => rfl
    | negative =>
      rw [unpacked] at above
      cases above
  | finite sign mantissa exponent filled =>
    cases sign with
    | positive => rfl
    | negative =>
      rw [unpacked] at above
      cases above

end Arithmetic

/-- A divisor as it is written: a number, or an integer that is converted for the division. -/
inductive Divisor (Number : Type)
  | integer (value : Int)
  | number (value : Number)

/-- For numbers that is equality with zero as the comparisons tell it. -/
def Divisor.isZero {Number : Type} [Arithmetic Number] : Divisor Number → Bool
  | .integer value => value = 0
  | .number value => Arithmetic.le value (Arithmetic.ofInt 0) && Arithmetic.le (Arithmetic.ofInt 0) value

/-- A value, with the divisors of the divisions that were performed for it. -/
structure Divided (Number Value : Type) where
  value : Value
  divisors : List (Divisor Number)

namespace Divided

open Arithmetic (ofInt)

variable {Number Value Result : Type}

instance : Monad (Divided Number) where
  pure value := ⟨value, []⟩
  bind first next := ⟨(next first.value).value, first.divisors ++ (next first.value).divisors⟩

@[simp] theorem value_pure (value : Value) : (pure value : Divided Number Value).value = value := rfl

@[simp] theorem value_bind (first : Divided Number Value) (next : Value → Divided Number Result) :
    (first >>= next).value = (next first.value).value := rfl

variable [Arithmetic Number]

def divide (dividend divisor : Number) : Divided Number Number := ⟨dividend / divisor, [.number divisor]⟩

def divideBy (dividend : Number) (divisor : Int) : Divided Number Number :=
  ⟨dividend / ofInt divisor, [.integer divisor]⟩

/-- The division of two values of type `uint32_t`. -/
def divideUInt32 (dividend divisor : UInt32) : Divided Number UInt32 :=
  ⟨dividend / divisor, [.integer divisor.toNat]⟩

/-- No division by zero is performed. -/
def Defined (computation : Divided Number Value) : Prop :=
  ∀ divisor ∈ computation.divisors, divisor.isZero = false

theorem defined_pure (value : Value) : Defined (pure value : Divided Number Value) := by
  intro divisor member
  cases member

theorem defined_bind {first : Divided Number Value} {next : Value → Divided Number Result} :
    Defined (first >>= next) ↔ Defined first ∧ Defined (next first.value) := List.forall_mem_append

theorem defined_divide {dividend divisor : Number} :
    Defined (divide dividend divisor) ↔ (Divisor.number divisor).isZero = false :=
  List.forall_mem_singleton

theorem defined_divideBy {dividend : Number} {divisor : Int} :
    Defined (divideBy dividend divisor) ↔ divisor ≠ 0 :=
  List.forall_mem_singleton.trans decide_eq_false_iff_not

theorem defined_divideUInt32 {dividend divisor : UInt32} :
    Defined (divideUInt32 dividend divisor : Divided Number UInt32) ↔ (divisor.toNat : Int) ≠ 0 :=
  List.forall_mem_singleton.trans decide_eq_false_iff_not

end Divided
