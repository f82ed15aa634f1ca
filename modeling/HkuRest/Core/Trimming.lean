import HkuRest.Core.Recasing
import HkuRest.Core.Delimited

/-! Blanks at the ends of a text, and the parts of a list that is written with commas, in
both cases together with the case of letters. -/

namespace Bytes

variable {bytes : Bytes} {byte sep : UInt8}

def blank (byte : UInt8) : Bool := byte = 0x20 || byte = 0x09

theorem trim_eq (bytes : Bytes) : bytes.trim = (bytes.dropWhile blank).rdropWhile blank := rfl

theorem trim_sublist (bytes : Bytes) : bytes.trim.Sublist bytes :=
  (List.rdropWhile_prefix blank _).sublist.trans (List.dropWhile_sublist blank)

theorem trim_eq_self (full : bytes.length ≤ bytes.trim.length) : bytes.trim = bytes :=
  (trim_sublist bytes).eq_of_length_le full

theorem trim_solid (solid : ∀ byte ∈ bytes, blank byte = false) : bytes.trim = bytes := by
  have front : bytes.dropWhile blank = bytes := by
    rw [List.dropWhile_eq_self_iff]
    intro filled
    simp [solid]
  rw [trim_eq, front, List.rdropWhile_eq_self_iff]
  intro filled
  simp [solid]

theorem dropWhile_trimmed (trimmed : bytes.trim = bytes) : bytes.dropWhile blank = bytes := by
  refine (List.dropWhile_sublist blank).eq_of_length_le ?_
  conv_lhs => rw [← trimmed, trim_eq]
  exact (List.rdropWhile_prefix blank _).length_le

theorem rdropWhile_trimmed (trimmed : bytes.trim = bytes) : bytes.rdropWhile blank = bytes := by
  rw [trim_eq, dropWhile_trimmed trimmed] at trimmed
  exact trimmed

/-- What stands between two texts without blanks at their ends is not looked at. -/
theorem trim_append {left right : Bytes} (middle : Bytes) (first : left.trim = left) (begun : left ≠ [])
    (last : right.trim = right) (ended : right ≠ []) :
    (left ++ (middle ++ right)).trim = left ++ (middle ++ right) := by
  obtain ⟨head, tail, rfl⟩ := List.exists_cons_of_ne_nil begun
  have front := dropWhile_trimmed first
  have filled : blank head = false := by
    by_contra blanks
    rw [List.dropWhile_cons_of_pos (by simpa using blanks)] at front
    have shorter := (List.dropWhile_sublist (l := tail) blank).length_le
    rw [front, List.length_cons] at shorter
    omega
  obtain ⟨init, final, rfl⟩ := (List.eq_nil_or_concat right).resolve_left ended
  have back := rdropWhile_trimmed last
  rw [List.concat_eq_append] at back ⊢
  have closed : blank final = false := by
    by_contra blanks
    rw [List.rdropWhile_concat_pos _ _ _ (by simpa using blanks)] at back
    have shorter := (List.rdropWhile_prefix blank init).length_le
    rw [back, List.length_append, List.length_singleton] at shorter
    omega
  rw [trim_eq, List.cons_append, List.dropWhile_cons_of_neg (by simp [filled])]
  have shape : head :: (tail ++ (middle ++ (init ++ [final]))) =
      (head :: (tail ++ (middle ++ init))) ++ [final] := by simp
  rw [shape, List.rdropWhile_concat_neg _ _ _ (by simp [closed])]

theorem trim_decimal (value : Nat) : (Bytes.decimal value).trim = Bytes.decimal value := by
  refine trim_solid fun byte member => ?_
  obtain ⟨d, small, rfl⟩ := mem_numeral (by decide) member
  have digits : ∀ d < 10, blank (digit d) = false := by decide
  exact digits d small

theorem trim_trim (bytes : Bytes) : bytes.trim.trim = bytes.trim := by
  have front : bytes.trim.dropWhile blank = bytes.trim := by
    rw [List.dropWhile_eq_self_iff]
    intro filled
    -- what is left of a text begins like the text without its first blanks
    obtain ⟨rest, joined⟩ := List.rdropWhile_prefix blank (bytes.dropWhile blank)
    rw [← trim_eq] at joined
    have begun : 0 < (bytes.dropWhile blank).length := by
      rw [← joined, List.length_append]
      omega
    have first := List.dropWhile_eq_self_iff.mp (List.dropWhile_idempotent blank bytes) begun
    simpa only [← joined, List.getElem_append_left filled] using first
  rw [trim_eq bytes.trim, front, trim_eq, List.rdropWhile_idempotent]

theorem blank_lowerByte (byte : UInt8) : blank (lowerByte byte) = blank byte := by
  by_cases capital : 0x41 ≤ byte ∧ byte ≤ 0x5a
  · have letter : byte ≠ 0x20 ∧ byte ≠ 0x09 := by
      refine ⟨?_, ?_⟩ <;> rintro rfl <;> exact absurd capital.1 (by decide)
    have lower : byte + 0x20 ≠ 0x20 ∧ byte + 0x20 ≠ 0x09 := by
      simp only [ne_eq, UInt8.le_iff_toNat_le, ← UInt8.toNat_inj, UInt8.toNat_add, UInt8.reduceToNat]
        at capital ⊢
      omega
    simp [blank, lowerByte, capital, letter, lower]
  · rw [lowerByte, if_neg capital]

theorem trim_toLower (bytes : Bytes) : bytes.toLower.trim = bytes.trim.toLower := by
  have same : blank ∘ lowerByte = blank := funext blank_lowerByte
  simp only [trim_eq, List.rdropWhile, toLower, List.dropWhile_map, ← List.map_reverse, same]

theorem toLower_eq_nil : bytes.toLower = [] ↔ bytes = [] := List.map_eq_nil_iff

theorem length_toLower (bytes : Bytes) : bytes.toLower.length = bytes.length := List.length_map _

theorem lowerByte_comma : lowerByte byte = 0x2c ↔ byte = 0x2c := by
  by_cases capital : 0x41 ≤ byte ∧ byte ≤ 0x5a
  · simp only [lowerByte, if_pos capital, ← UInt8.toNat_inj, UInt8.toNat_add, UInt8.reduceToNat]
    simp only [UInt8.le_iff_toNat_le, UInt8.reduceToNat] at capital
    omega
  · rw [lowerByte, if_neg capital]

theorem splitOn_toLower (bytes : Bytes) :
    bytes.toLower.splitOn 0x2c = (bytes.splitOn 0x2c).map toLower := by
  induction bytes with
  | nil => rfl
  | cons byte rest ih =>
    have lowered : toLower (byte :: rest) = lowerByte byte :: toLower rest := rfl
    rw [lowered, List.splitOn_cons_eq_if_modifyHead, List.splitOn_cons_eq_if_modifyHead, ih]
    obtain ⟨front, parts, split⟩ := List.exists_cons_of_ne_nil (List.splitOn_ne_nil 0x2c rest)
    by_cases comma : byte = 0x2c
    · have kept : lowerByte byte = 0x2c := lowerByte_comma.mpr comma
      simp [comma, lowerByte, toLower]
    · have kept : lowerByte byte ≠ 0x2c := mt lowerByte_comma.mp comma
      simp [comma, kept, split, toLower]

end Bytes
