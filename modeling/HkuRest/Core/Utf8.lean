import HkuRest.Core.Bytes

/-! UTF-8 as the encoding of Unicode scalar values, and its grammar: which byte sequences
encode one character. -/

namespace Utf8

/-- The encoding of some text. -/
def WellFormed (bytes : Bytes) : Prop :=
  ∃ text : List Char, bytes = text.flatMap String.utf8EncodeChar

def Tail (byte : UInt8) : Prop := 0x80 ≤ byte ∧ byte ≤ 0xbf

instance (byte : UInt8) : Decidable (Tail byte) := inferInstanceAs (Decidable (_ ∧ _))

/-- The sequences of one character. The second byte is restricted where a sequence would
otherwise be longer than needed, or its code point a surrogate or out of range. -/
inductive Sequence : Bytes → Prop
  | one {c : UInt8} (ascii : c < 0x80) : Sequence [c]
  | two {c c1 : UInt8} (lead : 0xc2 ≤ c ∧ c ≤ 0xdf) (tail : Tail c1) : Sequence [c, c1]
  | three {c c1 c2 : UInt8} (lead : 0xe0 ≤ c ∧ c ≤ 0xef) (tail : Tail c1) (last : Tail c2)
      (shortest : c = 0xe0 → 0xa0 ≤ c1) (scalar : c = 0xed → c1 < 0xa0) : Sequence [c, c1, c2]
  | four {c c1 c2 c3 : UInt8} (lead : 0xf0 ≤ c ∧ c ≤ 0xf4) (tail : Tail c1) (next : Tail c2)
      (last : Tail c3) (shortest : c = 0xf0 → 0x90 ≤ c1) (range : c = 0xf4 → c1 < 0x90) :
      Sequence [c, c1, c2, c3]

variable {c c1 c2 c3 : UInt8} {bytes : Bytes}

theorem sequence_encode (char : Char) : Sequence (String.utf8EncodeChar char) := by
  have valid := char.valid
  simp only [UInt32.isValidChar, Nat.isValidChar] at valid
  unfold String.utf8EncodeChar
  simp only
  generalize char.val.toNat = v at valid
  split
  · refine .one ?_
    simp only [UInt8.lt_iff_toNat_lt, UInt8.toNat_ofNat', UInt8.reduceToNat]
    omega
  · split
    · constructor <;> simp only [Tail, UInt8.le_iff_toNat_le, UInt8.toNat_ofNat', UInt8.reduceToNat] <;>
        omega
    · split
      · constructor <;> simp only [Tail, UInt8.le_iff_toNat_le, UInt8.lt_iff_toNat_lt,
          ← UInt8.toNat_inj, UInt8.toNat_ofNat', UInt8.reduceToNat] <;> omega
      · constructor <;> simp only [Tail, UInt8.le_iff_toNat_le, UInt8.lt_iff_toNat_lt,
          ← UInt8.toNat_inj, UInt8.toNat_ofNat', UInt8.reduceToNat] <;> omega

theorem exists_char {v : Nat} (valid : v.isValidChar) : ∃ char : Char, char.val.toNat = v := by
  refine ⟨⟨UInt32.ofNat v, ?_⟩, ?_⟩ <;> simp only [Nat.isValidChar] at valid
  · simp only [UInt32.isValidChar, Nat.isValidChar, UInt32.toNat_ofNat']
    omega
  · rw [UInt32.toNat_ofNat']
    omega

theorem encode_of_sequence (sequence : Sequence bytes) :
    ∃ char : Char, bytes = String.utf8EncodeChar char := by
  cases sequence with
  | @one c ascii =>
    simp only [UInt8.lt_iff_toNat_lt, UInt8.reduceToNat] at ascii
    obtain ⟨char, value⟩ := exists_char (v := c.toNat) (by simp only [Nat.isValidChar]; omega)
    refine ⟨char, ?_⟩
    simp only [String.utf8EncodeChar, value]
    rw [if_pos (by omega), UInt8.ofNat_toNat]
  | @two c c1 lead tail =>
    simp only [Tail, UInt8.le_iff_toNat_le, UInt8.reduceToNat] at lead tail
    obtain ⟨char, value⟩ := exists_char (v := (c.toNat - 0xc0) * 64 + (c1.toNat - 0x80))
      (by simp only [Nat.isValidChar]; omega)
    refine ⟨char, ?_⟩
    simp only [String.utf8EncodeChar, value]
    rw [if_neg (by omega), if_pos (by omega)]
    simp only [List.cons.injEq, ← UInt8.toNat_inj, UInt8.toNat_ofNat', and_true]
    omega
  | @three c c1 c2 lead tail last shortest scalar =>
    simp only [Tail, UInt8.le_iff_toNat_le, UInt8.lt_iff_toNat_lt, ← UInt8.toNat_inj,
      UInt8.reduceToNat] at lead tail last shortest scalar
    obtain ⟨char, value⟩ := exists_char
      (v := (c.toNat - 0xe0) * 4096 + (c1.toNat - 0x80) * 64 + (c2.toNat - 0x80))
      (by simp only [Nat.isValidChar]; omega)
    refine ⟨char, ?_⟩
    simp only [String.utf8EncodeChar, value]
    rw [if_neg (by omega), if_neg (by omega), if_pos (by omega)]
    simp only [List.cons.injEq, ← UInt8.toNat_inj, UInt8.toNat_ofNat', and_true]
    omega
  | @four c c1 c2 c3 lead tail next last shortest range =>
    simp only [Tail, UInt8.le_iff_toNat_le, UInt8.lt_iff_toNat_lt, ← UInt8.toNat_inj,
      UInt8.reduceToNat] at lead tail next last shortest range
    obtain ⟨char, value⟩ := exists_char
      (v := (c.toNat - 0xf0) * 262144 + (c1.toNat - 0x80) * 4096 + (c2.toNat - 0x80) * 64 +
        (c3.toNat - 0x80)) (by simp only [Nat.isValidChar]; omega)
    refine ⟨char, ?_⟩
    simp only [String.utf8EncodeChar, value]
    rw [if_neg (by omega), if_neg (by omega), if_neg (by omega)]
    simp only [List.cons.injEq, ← UInt8.toNat_inj, UInt8.toNat_ofNat', and_true]
    omega

/-- The grammar derives the encodings of the characters, and nothing else. -/
theorem sequence_iff : Sequence bytes ↔ ∃ char : Char, bytes = String.utf8EncodeChar char := by
  constructor
  · exact encode_of_sequence
  · rintro ⟨char, rfl⟩
    exact sequence_encode char

theorem wellFormed_iff : WellFormed bytes ↔
    ∃ sequences : List Bytes, bytes = sequences.flatten ∧ ∀ sequence ∈ sequences, Sequence sequence := by
  constructor
  · rintro ⟨text, rfl⟩
    refine ⟨text.map String.utf8EncodeChar, List.flatMap_def, ?_⟩
    intro sequence member
    obtain ⟨char, _, rfl⟩ := List.mem_map.mp member
    exact sequence_iff.mpr ⟨char, rfl⟩
  · rintro ⟨sequences, rfl, derived⟩
    induction sequences with
    | nil => exact ⟨[], rfl⟩
    | cons first rest ih =>
      obtain ⟨head, tail⟩ := List.forall_mem_cons.mp derived
      obtain ⟨char, rfl⟩ := sequence_iff.mp head
      obtain ⟨text, encoded⟩ := ih tail
      exact ⟨char :: text, by rw [List.flatten_cons, encoded, List.flatMap_cons]⟩

/-- The length that a leading byte announces. -/
def announced (c : UInt8) : Nat :=
  if c < 0x80 then 1 else if c < 0xe0 then 2 else if c < 0xf0 then 3 else 4

/-- A sequence is as long as its leading byte says. -/
def Delimited : Bytes → Prop
  | [] => False
  | c :: rest => announced c = rest.length + 1

theorem Sequence.delimited (sequence : Sequence bytes) : Delimited bytes := by
  cases sequence with
  | one ascii => simp [Delimited, announced, ascii]
  | two lead tail | three lead tail | four lead tail =>
    simp only [UInt8.le_iff_toNat_le, UInt8.reduceToNat] at lead
    simp only [Delimited, announced, UInt8.lt_iff_toNat_lt, UInt8.reduceToNat, List.length_cons,
      List.length_nil]
    split_ifs <;> omega

theorem flatten_injective {left right : List Bytes} (lefts : ∀ sequence ∈ left, Delimited sequence)
    (rights : ∀ sequence ∈ right, Delimited sequence) (same : left.flatten = right.flatten) :
    left = right := by
  induction left generalizing right with
  | nil =>
    cases right with
    | nil => rfl
    | cons first rest =>
      cases first with
      | nil => exact (rights [] List.mem_cons_self).elim
      | cons c more => cases same
  | cons first rest ih =>
    obtain ⟨head, tail⟩ := List.forall_mem_cons.mp lefts
    cases right with
    | nil =>
      cases first with
      | nil => exact head.elim
      | cons c more => cases same
    | cons other others =>
      obtain ⟨otherHead, otherTail⟩ := List.forall_mem_cons.mp rights
      cases first with
      | nil => exact head.elim
      | cons c more =>
        cases other with
        | nil => exact otherHead.elim
        | cons d further =>
          simp only [List.flatten_cons, List.cons_append, List.cons.injEq] at same
          obtain ⟨rfl, same⟩ := same
          have lengths : more.length = further.length := by
            have announces : more.length + 1 = further.length + 1 := head.symm.trans otherHead
            omega
          obtain ⟨rfl, remaining⟩ := List.append_inj same lengths
          rw [ih tail otherTail remaining]

end Utf8
