import Mathlib.Data.List.Basic

/-! Values read from a stream that arrives in segments. A parser sees all that was
gathered so far; a value is read as soon as its encoding is complete, and what the
last segment held beyond it is left over. -/

namespace Segments

inductive Parsed (α : Type)
  | needMore
  | done (value : α) (length : Nat)
  | failed
  deriving DecidableEq, Repr

variable {α β : Type} {parse : List β → Parsed α} {value : α} {bytes gathered more tail : List β}
  {segments taken rest : List (List β)}

/-- Gathers segments until they parse: the value, what is left over, and the segments
still to come. -/
def read (parse : List β → Parsed α) : List (List β) → List β →
    Option (α × List β × List (List β))
  | [], gathered =>
      match parse gathered with
      | .done value length => some (value, gathered.drop length, [])
      | .needMore | .failed => none
  | segment :: rest, gathered =>
      match parse gathered with
      | .done value length => some (value, gathered.drop length, segment :: rest)
      | .needMore => read parse rest (gathered ++ segment)
      | .failed => none

/-- The parser asks for more until it has all these bytes, and then leaves alone what
follows them. -/
structure Encodes (parse : List β → Parsed α) (bytes : List β) (value : α) : Prop where
  filled : bytes ≠ []
  incomplete : ∀ length, length < bytes.length → parse (bytes.take length) = .needMore
  complete : ∀ tail, parse (bytes ++ tail) = .done value bytes.length

/-- Some segment ends where these bytes of the stream end. -/
def Cut (segments : List (List β)) (bytes : List β) : Prop :=
  ∃ k, (segments.take k).flatten = bytes

theorem Encodes.read_complete (encodes : Encodes parse bytes value) (segments : List (List β))
    (left : List β) : read parse segments (bytes ++ left) = some (value, left, segments) := by
  cases segments with
  | nil => simp [read, encodes.complete]
  | cons next others => simp [read, encodes.complete]

theorem Encodes.waits (encodes : Encodes parse bytes value)
    (short : gathered.length < bytes.length) (begun : gathered ++ more = bytes ++ tail) :
    parse gathered = .needMore := by
  have same := congrArg (List.take gathered.length) begun
  rw [List.take_left, List.take_append_of_le_length (Nat.le_of_lt short)] at same
  rw [same]
  exact encodes.incomplete _ short

/-- The next segment completes a message exactly, or not, whatever comes after it. -/
theorem Encodes.read_segments (encodes : Encodes parse bytes value)
    (short : gathered.length < bytes.length)
    (stream : gathered ++ segments.flatten = bytes ++ tail) :
    ∃ taken left rest, segments = taken ++ rest ∧ gathered ++ taken.flatten = bytes ++ left ∧
      read parse segments gathered = some (value, left, rest) ∧
      (left = [] ↔ ∃ k, gathered ++ (segments.take k).flatten = bytes) := by
  induction segments generalizing gathered with
  | nil =>
    have lengths := congrArg List.length stream
    simp only [List.flatten_nil, List.append_nil, List.length_append] at lengths
    omega
  | cons segment later ih =>
    have waits := encodes.waits short stream
    have reads : read parse (segment :: later) gathered = read parse later (gathered ++ segment) := by
      rw [read, waits]
    have shifted (k : Nat) : gathered ++ ((segment :: later).take (k + 1)).flatten =
        gathered ++ segment ++ (later.take k).flatten := by simp
    rw [List.flatten_cons, ← List.append_assoc] at stream
    by_cases enough : (gathered ++ segment).length < bytes.length
    · obtain ⟨taken, left, rest, split, complete, result, exactly⟩ := ih enough stream
      refine ⟨segment :: taken, left, rest, by rw [split, List.cons_append], ?_, ?_, ?_⟩
      · rw [List.flatten_cons, ← List.append_assoc, complete]
      · rw [reads, result]
      · rw [exactly]
        constructor
        · rintro ⟨k, reached⟩
          exact ⟨k + 1, by rw [shifted, reached]⟩
        · rintro ⟨k, reached⟩
          cases k with
          | zero =>
            rw [List.take_zero, List.flatten_nil, List.append_nil] at reached
            exact absurd short (by rw [reached]; exact Nat.lt_irrefl _)
          | succ k => exact ⟨k, by rw [← shifted, reached]⟩
    · obtain ⟨left, complete⟩ : ∃ left, gathered ++ segment = bytes ++ left := by
        have same := congrArg (List.take bytes.length) stream
        rw [List.take_left, List.take_append_of_le_length (Nat.le_of_not_lt enough)] at same
        exact ⟨(gathered ++ segment).drop bytes.length, by
          conv_lhs => rw [← List.take_append_drop bytes.length (gathered ++ segment), same]⟩
      refine ⟨[segment], left, later, rfl, by simpa using complete, ?_, ?_⟩
      · rw [reads, complete, encodes.read_complete]
      · constructor
        · rintro rfl
          exact ⟨1, by simpa using complete⟩
        · rintro ⟨k, reached⟩
          cases k with
          | zero =>
            rw [List.take_zero, List.flatten_nil, List.append_nil] at reached
            exact absurd short (by rw [reached]; exact Nat.lt_irrefl _)
          | succ k =>
            rw [shifted, complete] at reached
            have lengths := congrArg List.length reached
            simp only [List.length_append] at lengths
            exact List.eq_nil_of_length_eq_zero (by omega)

theorem read_empty (starts : parse [] = .needMore) (empty : segments.flatten = []) :
    read parse segments [] = none := by
  induction segments with
  | nil => simp [read, starts]
  | cons segment later ih =>
    rw [List.flatten_cons, List.append_eq_nil_iff] at empty
    simpa [read, starts, empty.1] using ih empty.2

theorem cut_append (exactly : taken.flatten = bytes) :
    Cut (taken ++ rest) (bytes ++ more) ↔ Cut rest more := by
  subst exactly
  constructor
  · rintro ⟨k, reached⟩
    rw [List.take_append, List.flatten_append] at reached
    by_cases inside : k ≤ taken.length
    · have beyond : k - taken.length = 0 := Nat.sub_eq_zero_of_le inside
      rw [beyond, List.take_zero, List.flatten_nil, List.append_nil] at reached
      have lengths := congrArg List.length reached
      have bounded : taken.flatten.length =
          (taken.take k).flatten.length + (taken.drop k).flatten.length := by
        rw [← List.length_append, ← List.flatten_append, List.take_append_drop]
      rw [List.length_append] at lengths
      exact ⟨0, (List.eq_nil_of_length_eq_zero (by omega)).symm⟩
    · rw [List.take_of_length_le (Nat.le_of_not_le inside)] at reached
      exact ⟨k - taken.length, List.append_cancel_left reached⟩
  · rintro ⟨k, reached⟩
    refine ⟨taken.length + k, ?_⟩
    rw [List.take_append, List.take_of_length_le (Nat.le_add_right _ _), Nat.add_sub_cancel_left,
      List.flatten_append, reached]

end Segments
