import Mathlib.Data.Nat.Digits.Defs

/-! Byte strings. Text is kept as its bytes, so every statement about a string
ranges over arbitrary octets and not only over valid encodings. -/

abbrev Bytes := List UInt8

namespace Bytes

/-- The bytes of an ASCII literal. -/
def ascii (text : String) : Bytes := text.toList.map fun c => UInt8.ofNat c.toNat

/-- `find(prefix) == 0`. -/
def hasPrefix (pre bytes : Bytes) : Bool := pre.isPrefixOf bytes

/-- `find(needle) != npos`. -/
def contains (needle : Bytes) : Bytes → Bool
  | [] => needle.isEmpty
  | byte :: rest => needle.isPrefixOf (byte :: rest) || contains needle rest

def lowerByte (byte : UInt8) : UInt8 :=
  if 0x41 ≤ byte ∧ byte ≤ 0x5a then byte + 0x20 else byte

def toLower (bytes : Bytes) : Bytes := bytes.map lowerByte

/-- Equality up to the case of ASCII letters. -/
def iequals (left right : Bytes) : Bool := left.toLower = right.toLower

/-- Blanks and tabs are taken off at both ends. -/
def trim (bytes : Bytes) : Bytes :=
  let blank (byte : UInt8) : Bool := byte = 0x20 || byte = 0x09
  ((bytes.dropWhile blank).reverse.dropWhile blank).reverse

theorem forall_byte {holds : UInt8 → Prop} (checked : ∀ value < 256, holds (UInt8.ofNat value))
    (byte : UInt8) : holds byte := by
  have here := checked byte.toNat byte.toNat_lt
  rwa [UInt8.ofNat_toNat] at here

def cr : UInt8 := 0x0d

def lf : UInt8 := 0x0a

def digit (value : Nat) : UInt8 :=
  if value < 10 then UInt8.ofNat (0x30 + value) else UInt8.ofNat (0x57 + value)

/-- The value of a hexadecimal digit of either case. -/
def digitValue (byte : UInt8) : Option Nat :=
  if 0x30 ≤ byte ∧ byte ≤ 0x39 then some (byte.toNat - 0x30)
  else if 0x61 ≤ byte ∧ byte ≤ 0x66 then some (byte.toNat - 0x57)
  else if 0x41 ≤ byte ∧ byte ≤ 0x46 then some (byte.toNat - 0x37)
  else none

/-- The shortest numeral of a number, the most significant digit first. -/
def numeral (base value : Nat) : Bytes :=
  if value = 0 then [digit 0] else (base.digits value).reverse.map digit

def hex (value : Nat) : Bytes := numeral 16 value

def decimal (value : Nat) : Bytes := numeral 10 value

theorem digitValue_digit : ∀ value < 16, digitValue (digit value) = some value := by
  decide

theorem numeral_ne_nil (base value : Nat) : numeral base value ≠ [] := by
  unfold numeral
  split
  · exact List.cons_ne_nil _ _
  · rename_i positive
    simpa only [ne_eq, List.map_eq_nil_iff, List.reverse_eq_nil_iff,
      Nat.digits_eq_nil_iff_eq_zero] using positive

theorem numeral_digits {base : Nat} (radix : 1 < base) (value : Nat) :
    ∃ digits : List Nat, numeral base value = digits.map digit ∧ (∀ d ∈ digits, d < base) ∧
      digits.foldl (fun read d => base * read + d) 0 = value := by
  unfold numeral
  split
  · rename_i zero
    refine ⟨[0], rfl, ?_, by simp [zero]⟩
    simp
    omega
  · refine ⟨(base.digits value).reverse, rfl, ?_, ?_⟩
    · intro d member
      exact Nat.digits_lt_base radix (List.mem_reverse.mp member)
    · have folded := Nat.ofDigits_digits base value
      rw [Nat.ofDigits_eq_foldr] at folded
      rw [List.foldl_reverse]
      simpa [add_comm] using folded

theorem mem_numeral {base value : Nat} {byte : UInt8} (radix : 1 < base)
    (member : byte ∈ numeral base value) : ∃ d < base, byte = digit d := by
  obtain ⟨digits, written, bounded, -⟩ := numeral_digits radix value
  rw [written, List.mem_map] at member
  obtain ⟨d, held, rfl⟩ := member
  exact ⟨d, bounded d held, rfl⟩

end Bytes
