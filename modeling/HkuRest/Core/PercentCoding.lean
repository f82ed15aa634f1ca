import HkuRest.Core.Bytes

/-! Percent-encoding: a byte that may mean something else stands as its two hexadecimal digits behind
a percent sign. What was encoded is decoded back. -/

namespace PercentCoding

def percent : UInt8 := 0x25

/-- Letters, digits and four marks stand for themselves. -/
def unreserved (byte : UInt8) : Bool :=
  0x30 ≤ byte && byte ≤ 0x39 || 0x41 ≤ byte && byte ≤ 0x5a || 0x61 ≤ byte && byte ≤ 0x7a ||
    byte = 0x2d || byte = 0x2e || byte = 0x5f || byte = 0x7e

def escapeByte (byte : UInt8) : Bytes :=
  if unreserved byte then [byte]
  else [percent, Bytes.digit (byte.toNat / 16), Bytes.digit (byte.toNat % 16)]

def escape (text : Bytes) : Bytes := text.flatMap escapeByte

/-- A percent sign without two digits behind it stands for itself. -/
def unescape : Bytes → Bytes
  | first :: high :: low :: rest =>
      if first = percent then
        match Bytes.digitValue high, Bytes.digitValue low with
        | some upper, some lower => UInt8.ofNat (upper * 16 + lower) :: unescape rest
        | _, _ => first :: unescape (high :: low :: rest)
      else first :: unescape (high :: low :: rest)
  | short => short

theorem unescape_cons {byte : UInt8} (plain : byte ≠ percent) (rest : Bytes) :
    unescape (byte :: rest) = byte :: unescape rest := by
  rcases rest with _ | ⟨_, _ | ⟨_, _⟩⟩
  · rfl
  · rfl
  · rw [unescape, if_neg plain]

theorem unescape_escapeByte (byte : UInt8) (rest : Bytes) :
    unescape (escapeByte byte ++ rest) = byte :: unescape rest := by
  have bound := byte.toNat_lt
  have high : byte.toNat / 16 < 16 := by omega
  have low : byte.toNat % 16 < 16 := by omega
  unfold escapeByte
  split
  · rename_i plain
    refine unescape_cons ?_ rest
    rintro rfl
    exact absurd plain (by decide)
  · have whole : byte.toNat / 16 * 16 + byte.toNat % 16 = byte.toNat := by omega
    simp only [List.cons_append, List.nil_append, unescape, if_true,
      Bytes.digitValue_digit _ high, Bytes.digitValue_digit _ low, whole, UInt8.ofNat_toNat]

theorem unescape_escape (text : Bytes) : unescape (escape text) = text := by
  induction text with
  | nil => rfl
  | cons byte rest ih =>
    have front := unescape_escapeByte byte (escape rest)
    rwa [ih] at front

theorem mem_escape {text : Bytes} {byte : UInt8} (member : byte ∈ escape text) :
    byte = percent ∨ unreserved byte = true := by
  have digits : ∀ value < 16, unreserved (Bytes.digit value) = true := by decide
  obtain ⟨source, _, written⟩ := List.mem_flatMap.mp member
  have bound := source.toNat_lt
  unfold escapeByte at written
  split at written
  · rename_i plain
    obtain rfl := List.mem_singleton.mp written
    exact .inr plain
  · simp only [List.mem_cons, List.not_mem_nil, or_false] at written
    rcases written with rfl | rfl | rfl
    · exact .inl rfl
    · exact .inr (digits _ (by omega))
    · exact .inr (digits _ (by omega))

theorem not_mem_escape {byte : UInt8} (other : byte ≠ percent) (reserved : unreserved byte = false)
    (text : Bytes) : byte ∉ escape text := by
  intro member
  rcases mem_escape member with same | plain
  · exact other same
  · rw [reserved] at plain
    cases plain

theorem escape_eq_nil_iff {text : Bytes} : escape text = [] ↔ text = [] := by
  constructor
  · intro empty
    have back := unescape_escape text
    rw [empty] at back
    exact back.symm
  · rintro rfl
    rfl

end PercentCoding
