import HkuRest.Core.Bytes

/-! Base64: three bytes at a time in four symbols of six bits each, a rest with padding. What was
encoded is decoded back. -/

namespace Base64

def padding : UInt8 := 0x3d

def symbol (value : Nat) : UInt8 :=
  if value < 26 then UInt8.ofNat (0x41 + value)
  else if value < 52 then UInt8.ofNat (0x61 + (value - 26))
  else if value < 62 then UInt8.ofNat (0x30 + (value - 52))
  else if value = 62 then 0x2b
  else 0x2f

def symbolValue (byte : UInt8) : Option Nat :=
  if 0x41 ≤ byte ∧ byte ≤ 0x5a then some (byte.toNat - 0x41)
  else if 0x61 ≤ byte ∧ byte ≤ 0x7a then some (byte.toNat - 0x61 + 26)
  else if 0x30 ≤ byte ∧ byte ≤ 0x39 then some (byte.toNat - 0x30 + 52)
  else if byte = 0x2b then some 62
  else if byte = 0x2f then some 63
  else none

theorem symbolValue_symbol : ∀ value < 64, symbolValue (symbol value) = some value := by
  decide +kernel

theorem symbol_ne_padding : ∀ value < 64, symbol value ≠ padding := by
  decide +kernel

/-- The four symbols of 24 bits. -/
def quartet (bits : Nat) : Bytes :=
  [symbol (bits / 2 ^ 18 % 64), symbol (bits / 2 ^ 12 % 64), symbol (bits / 2 ^ 6 % 64),
    symbol (bits % 64)]

/-- Three bytes as one number, of which the first has the greatest weight. -/
def bits (a b c : UInt8) : Nat := a.toNat * 2 ^ 16 + b.toNat * 2 ^ 8 + c.toNat

def triple (bits : Nat) : Bytes :=
  [UInt8.ofNat (bits / 2 ^ 16), UInt8.ofNat (bits / 2 ^ 8), UInt8.ofNat bits]

def encode : Bytes → Bytes
  | [] => []
  | [a] => (quartet (bits a 0 0)).take 2 ++ [padding, padding]
  | [a, b] => (quartet (bits a b 0)).take 3 ++ [padding]
  | a :: b :: c :: rest => quartet (bits a b c) ++ encode rest

/-- The 24 bits of four symbols. -/
def weigh (p q r s : UInt8) : Option Nat :=
  (symbolValue p).bind fun first => (symbolValue q).bind fun second =>
    (symbolValue r).bind fun third => (symbolValue s).map fun fourth =>
      first * 2 ^ 18 + second * 2 ^ 12 + third * 2 ^ 6 + fourth

def decode : Bytes → Option Bytes
  | [] => some []
  | p :: q :: r :: s :: rest =>
      if rest = [] ∧ s = padding then
        if r = padding then (weigh p q (symbol 0) (symbol 0)).map fun bits => (triple bits).take 1
        else (weigh p q r (symbol 0)).map fun bits => (triple bits).take 2
      else
        (weigh p q r s).bind fun bits => (decode rest).map (triple bits ++ ·)
  | _ => none

theorem triple_bits (a b c : UInt8) : triple (bits a b c) = [a, b, c] := by
  have first := a.toNat_lt
  have second := b.toNat_lt
  have third := c.toNat_lt
  simp only [triple, bits, List.cons.injEq, and_true, ← UInt8.toNat_inj, UInt8.toNat_ofNat']
  omega

theorem weigh_symbols {p q r s : Nat} (first : p < 64) (second : q < 64) (third : r < 64)
    (fourth : s < 64) : weigh (symbol p) (symbol q) (symbol r) (symbol s) =
      some (p * 2 ^ 18 + q * 2 ^ 12 + r * 2 ^ 6 + s) := by
  simp only [weigh, symbolValue_symbol _ first, symbolValue_symbol _ second,
    symbolValue_symbol _ third, symbolValue_symbol _ fourth, Option.bind_some, Option.map_some]

theorem bits_lt (a b c : UInt8) : bits a b c < 2 ^ 24 := by
  have first := a.toNat_lt
  have second := b.toNat_lt
  have third := c.toNat_lt
  simp only [bits]
  omega

theorem sextets {number : Nat} (bound : number < 2 ^ 24) :
    number / 2 ^ 18 % 64 * 2 ^ 18 + number / 2 ^ 12 % 64 * 2 ^ 12 + number / 2 ^ 6 % 64 * 2 ^ 6 +
      number % 64 = number := by
  omega

theorem decode_encode (bytes : Bytes) : decode (encode bytes) = some bytes := by
  have small (n : Nat) : n % 64 < 64 := Nat.mod_lt n (by decide)
  fun_induction encode bytes with
  | case1 => rfl
  | case2 a =>
    have whole := sextets (bits_lt a 0 0)
    have low : bits a 0 0 / 2 ^ 6 % 64 = 0 ∧ bits a 0 0 % 64 = 0 := by
      simp only [bits, UInt8.toNat_zero]
      omega
    simp only [low.1, low.2] at whole
    simp only [quartet, List.take, List.cons_append, List.nil_append, decode, and_self, if_true,
      weigh_symbols (small _) (small _) (by decide : 0 < 64) (by decide : 0 < 64), whole,
      Option.map_some, triple_bits]
  | case3 a b =>
    have whole := sextets (bits_lt a b 0)
    have low : bits a b 0 % 64 = 0 := by
      simp only [bits, UInt8.toNat_zero]
      omega
    simp only [low] at whole
    simp only [quartet, List.take, List.cons_append, List.nil_append, decode, and_self, if_true,
      if_neg (symbol_ne_padding _ (small _)), weigh_symbols (small _) (small _) (small _)
        (by decide : 0 < 64), whole, Option.map_some, triple_bits]
  | case4 a b c rest ih =>
    simp only [quartet, List.cons_append, List.nil_append, decode,
      symbol_ne_padding _ (small _), and_false, if_false,
      weigh_symbols (small _) (small _) (small _) (small _), sextets (bits_lt a b c),
      Option.bind_some, ih, Option.map_some, triple_bits]

theorem encode_ne_nil {bytes : Bytes} (filled : bytes ≠ []) : encode bytes ≠ [] := by
  fun_cases encode bytes with
  | case1 => exact absurd rfl filled
  | case2 | case3 | case4 => simp [quartet]

end Base64
