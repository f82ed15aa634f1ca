import Mathlib.Data.List.DropRight

/-! Text of the form name, separator, value. A separator may be repeated, and may stand
in the value again: then what follows the first separator, other than separators, is more
than what follows the last one. -/

namespace Delimited

variable {α : Type} [DecidableEq α] {sep item : α} {text front rest : List α}

/-- What stands before the first separator. -/
def name (sep : α) (text : List α) : List α := text.takeWhile (· ≠ sep)

/-- All items after the first separator that are no separators. -/
def payload (sep : α) (text : List α) : List α := (text.dropWhile (· ≠ sep)).filter (· ≠ sep)

/-- What stands after the last separator. -/
def value (sep : α) (text : List α) : List α := text.rtakeWhile (· ≠ sep)

/-- Nothing but separators stands between two separators. -/
def Single (sep : α) (text : List α) : Prop :=
  sep ∉ (text.dropWhile (· ≠ sep)).dropWhile (· = sep)

instance (sep : α) (text : List α) : Decidable (Single sep text) :=
  inferInstanceAs (Decidable (¬ _))

theorem name_of_not_mem (absent : sep ∉ text) : name sep text = text := by
  rw [name, List.takeWhile_eq_self_iff]
  intro item member
  exact decide_eq_true (ne_of_mem_of_not_mem member absent)

theorem dropWhile_of_not_mem (absent : sep ∉ text) : text.dropWhile (· ≠ sep) = [] := by
  rw [List.dropWhile_eq_nil_iff]
  intro item member
  exact decide_eq_true (ne_of_mem_of_not_mem member absent)

theorem payload_of_not_mem (absent : sep ∉ text) : payload sep text = [] := by
  rw [payload, dropWhile_of_not_mem absent, List.filter_nil]

theorem dropWhile_split (absent : sep ∉ front) :
    (front ++ sep :: rest).dropWhile (· ≠ sep) = sep :: rest := by
  rw [List.dropWhile_append_of_pos]
  · simp
  · intro item member
    exact decide_eq_true (ne_of_mem_of_not_mem member absent)

theorem name_split (absent : sep ∉ front) : name sep (front ++ sep :: rest) = front := by
  rw [name, List.takeWhile_append_of_pos]
  · simp
  · intro item member
    exact decide_eq_true (ne_of_mem_of_not_mem member absent)

theorem payload_split (absent : sep ∉ front) :
    payload sep (front ++ sep :: rest) = rest.filter (· ≠ sep) := by
  rw [payload, dropWhile_split absent]
  simp

theorem single_split (absent : sep ∉ front) :
    Single sep (front ++ sep :: rest) ↔ sep ∉ rest.dropWhile (· = sep) := by
  rw [Single, dropWhile_split absent]
  simp

theorem name_concat (present : sep ∈ text) (item : α) : name sep (text ++ [item]) = name sep text := by
  obtain ⟨front, rest, rfl, absent⟩ := List.eq_append_cons_of_mem present
  rw [List.append_assoc, List.cons_append, name_split absent, name_split absent]

theorem payload_concat (present : sep ∈ text) (other : item ≠ sep) :
    payload sep (text ++ [item]) = payload sep text ++ [item] := by
  obtain ⟨front, rest, rfl, absent⟩ := List.eq_append_cons_of_mem present
  rw [List.append_assoc, List.cons_append, payload_split absent, payload_split absent,
    List.filter_append]
  simp [other]

theorem name_concat_sep (sep : α) (text : List α) : name sep (text ++ [sep]) = name sep text := by
  by_cases present : sep ∈ text
  · exact name_concat present sep
  · rw [name_split present, name_of_not_mem present]

theorem payload_concat_sep (sep : α) (text : List α) : payload sep (text ++ [sep]) = payload sep text := by
  by_cases present : sep ∈ text
  · obtain ⟨front, rest, rfl, absent⟩ := List.eq_append_cons_of_mem present
    rw [List.append_assoc, List.cons_append, payload_split absent, payload_split absent,
      List.filter_append]
    simp
  · rw [payload_split present, payload_of_not_mem present, List.filter_nil]

theorem value_concat (other : item ≠ sep) (text : List α) :
    value sep (text ++ [item]) = value sep text ++ [item] :=
  List.rtakeWhile_concat_pos _ _ _ (decide_eq_true other)

theorem value_concat_sep (sep : α) (text : List α) : value sep (text ++ [sep]) = [] :=
  List.rtakeWhile_concat_neg _ _ _ (by simp)

theorem value_split (absent : sep ∉ rest) : value sep (front ++ sep :: rest) = rest := by
  have inside : ∀ item ∈ rest.reverse, decide (item ≠ sep) = true := by
    intro item member
    exact decide_eq_true (ne_of_mem_of_not_mem (List.mem_reverse.mp member) absent)
  rw [value, List.rtakeWhile, List.reverse_append, List.reverse_cons, List.append_assoc,
    List.takeWhile_append_of_pos inside]
  simp

omit [DecidableEq α] in
theorem exists_last (present : sep ∈ rest) :
    ∃ middle last, rest = middle ++ sep :: last ∧ sep ∉ last := by
  obtain ⟨last, middle, split, absent⟩ :=
    List.eq_append_cons_of_mem (List.mem_reverse.mpr present)
  refine ⟨middle.reverse, last.reverse, ?_, by simpa using absent⟩
  rw [← List.reverse_reverse rest, split]
  simp

theorem filter_of_not_mem (absent : sep ∉ rest) : rest.filter (· ≠ sep) = rest := by
  rw [List.filter_eq_self]
  intro item member
  exact decide_eq_true (ne_of_mem_of_not_mem member absent)

/-- What follows the last separator is the end of what follows the first one, and all of it
exactly when nothing else stands between the two. -/
theorem payload_value (present : sep ∈ text) :
    ∃ middle, payload sep text = middle ++ value sep text ∧ (middle = [] ↔ Single sep text) := by
  obtain ⟨front, rest, rfl, absent⟩ := List.eq_append_cons_of_mem present
  rw [payload_split absent, single_split absent]
  by_cases again : sep ∈ rest
  · obtain ⟨middle, last, rfl, noneLeft⟩ := exists_last again
    have split : front ++ sep :: (middle ++ sep :: last) = (front ++ sep :: middle) ++ sep :: last := by
      simp
    have none : middle.filter (· ≠ sep) = [] ↔ middle.dropWhile (· = sep) = [] := by
      simp [List.dropWhile_eq_nil_iff, List.filter_eq_nil_iff]
    refine ⟨middle.filter (· ≠ sep), ?_, ?_⟩
    · rw [split, value_split noneLeft, List.filter_append, List.filter_cons_of_neg (by simp),
        filter_of_not_mem noneLeft]
    · rw [none]
      constructor
      · intro separators
        rw [List.dropWhile_append, separators]
        exact fun member => noneLeft ((List.dropWhile_sublist _).mem (by simpa using member))
      · intro single
        cases remains : middle.dropWhile (· = sep) with
        | nil => rfl
        | cons item more =>
          refine absurd ?_ single
          rw [List.dropWhile_append, remains]
          simp
  · refine ⟨[], by rw [value_split again, filter_of_not_mem again, List.nil_append], ?_⟩
    refine iff_of_true rfl ?_
    exact fun member => again ((List.dropWhile_sublist _).mem member)

theorem payload_length_le (present : sep ∈ text) :
    (payload sep text).length ≤ (value sep text).length ↔ Single sep text := by
  obtain ⟨middle, split, single⟩ := payload_value present
  rw [← single, split, List.length_append, ← List.length_eq_zero_iff]
  omega

theorem Single.payload_eq (single : Single sep text) (present : sep ∈ text) :
    payload sep text = value sep text := by
  obtain ⟨middle, split, none⟩ := payload_value present
  rw [split, none.mpr single, List.nil_append]

section

omit [DecidableEq α]

variable {keep : α → Bool}

theorem takeWhile_run (all : front.all keep = true) (stop : rest.head?.all (!keep ·) = true) :
    (front ++ rest).takeWhile keep = front := by
  rw [List.takeWhile_append_of_pos (List.all_eq_true.mp all)]
  cases rest with
  | nil => exact List.append_nil front
  | cons item rest => rw [List.takeWhile_cons_of_neg (by simpa using stop), List.append_nil]

theorem dropWhile_run (all : front.all keep = true) (stop : rest.head?.all (!keep ·) = true) :
    (front ++ rest).dropWhile keep = rest := by
  rw [List.dropWhile_append_of_pos (List.all_eq_true.mp all)]
  cases rest with
  | nil => rfl
  | cons item rest => exact List.dropWhile_cons_of_neg (by simpa using stop)

theorem head?_dropWhile (keep : α → Bool) (text : List α) :
    (text.dropWhile keep).head?.all (!keep ·) = true := by
  have stopped := List.head?_dropWhile_not keep text
  cases rest : text.dropWhile keep with
  | nil => rfl
  | cons item more => simpa [rest] using stopped

end

theorem tail_split (absent : sep ∉ front) :
    ((front ++ sep :: rest).dropWhile (· ≠ sep)).tail = rest := by
  rw [dropWhile_split absent, List.tail_cons]

theorem tail_of_not_mem (absent : sep ∉ text) : (text.dropWhile (· ≠ sep)).tail = [] := by
  rw [dropWhile_of_not_mem absent, List.tail_nil]

theorem not_mem_of_count (once : (front ++ sep :: rest).count sep ≤ 1) : sep ∉ rest := by
  rw [List.count_append, List.count_cons_self] at once
  exact List.count_eq_zero.mp (by omega)

theorem single_of_count (once : text.count sep ≤ 1) : Single sep text := by
  by_cases present : sep ∈ text
  · obtain ⟨front, rest, rfl, absent⟩ := List.eq_append_cons_of_mem present
    rw [single_split absent]
    exact fun member => not_mem_of_count once ((List.dropWhile_sublist _).mem member)
  · exact fun member => present ((List.dropWhile_sublist _).mem ((List.dropWhile_sublist _).mem member))

theorem payload_of_count (once : text.count sep ≤ 1) :
    payload sep text = (text.dropWhile (· ≠ sep)).tail := by
  by_cases present : sep ∈ text
  · obtain ⟨front, rest, rfl, absent⟩ := List.eq_append_cons_of_mem present
    rw [payload_split absent, tail_split absent, filter_of_not_mem (not_mem_of_count once)]
  · rw [payload_of_not_mem present, tail_of_not_mem present]

theorem splitOn_cases {parts : List (List α)} (split : text.splitOn sep = front :: parts) :
    sep ∉ front ∧ (text = front ∧ parts = [] ∨
      ∃ more, text = front ++ sep :: more ∧ parts = more.splitOn sep) := by
  by_cases present : sep ∈ text
  · obtain ⟨first, more, rfl, absent⟩ := List.eq_append_cons_of_mem present
    rw [List.splitOn_append_cons_self_of_not_mem absent, List.cons.injEq] at split
    obtain ⟨rfl, rfl⟩ := split
    exact ⟨absent, .inr ⟨more, rfl, rfl⟩⟩
  · rw [List.splitOn_eq_singleton present, List.cons.injEq] at split
    obtain ⟨rfl, rfl⟩ := split
    exact ⟨present, .inl ⟨rfl, rfl⟩⟩

end Delimited
