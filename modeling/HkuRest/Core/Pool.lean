import Mathlib.Data.List.Basic

/-! Counting the members of a pool of processes that have a property, gathering what they
carry, and what all of them have in common, across the two things that happen to a pool:
one member changes, or one member joins. -/

namespace Pool

open scoped List

variable {Process : Type} {processes : List Process} {i : Nat} {old : Process}

def tally (property : Process → Bool) (processes : List Process) : Nat :=
  processes.countP property

@[simp] theorem tally_append (property : Process → Bool) (processes : List Process) (new : Process) :
    tally property (processes ++ [new]) = tally property processes + (property new).toNat := by
  cases held : property new <;> simp [tally, held]

theorem forall_append {common : Process → Prop} {new : Process}
    (all : ∀ member ∈ processes, common member) (joins : common new) :
    ∀ member ∈ processes ++ [new], common member :=
  List.forall_mem_append.mpr ⟨all, List.forall_mem_singleton.mpr joins⟩

theorem forall_set {common : Process → Prop} {new : Process}
    (all : ∀ member ∈ processes, common member) (changed : common new) (i : Nat) :
    ∀ member ∈ processes.set i new, common member := by
  intro member found
  rcases List.mem_or_eq_of_mem_set found with earlier | rfl
  · exact all member earlier
  · exact changed

theorem found_append {new member : Process} (found : (processes ++ [new])[i]? = some member) :
    processes[i]? = some member ∨ (i = processes.length ∧ member = new) := by
  rcases Nat.lt_or_ge i processes.length with earlier | last
  · rw [List.getElem?_append_left earlier] at found
    exact .inl found
  · rw [List.getElem?_append_right last, List.getElem?_singleton] at found
    split at found
    · cases found
      exact .inr ⟨by omega, rfl⟩
    · cases found

theorem tally_set (property : Process → Bool) (found : processes[i]? = some old) (new : Process) :
    tally property (processes.set i new) + (property old).toNat =
      tally property processes + (property new).toNat := by
  induction processes generalizing i with
  | nil => simp at found
  | cons head rest ih =>
    cases i with
    | zero =>
      obtain rfl : head = old := by simpa using found
      cases before : property head <;> cases after : property new <;>
        simp [tally, before, after]
    | succ i =>
      have moved := ih (by simpa using found)
      simp only [tally] at moved
      cases held : property head <;> simp [tally, held] <;> omega

theorem tally_pos {property : Process → Bool} (found : processes[i]? = some old)
    (held : property old = true) : 0 < tally property processes :=
  List.countP_pos_iff.mpr ⟨old, List.mem_of_getElem? found, held⟩

/-- What the processes carry, taken together. -/
def gather {α : Type} (carried : Process → List α) (processes : List Process) : List α :=
  processes.flatMap carried

theorem gather_set {α : Type} (carried : Process → List α) (found : processes[i]? = some old)
    (new : Process) :
    gather carried (processes.set i new) ++ carried old ~ gather carried processes ++ carried new := by
  induction processes generalizing i with
  | nil => simp at found
  | cons head rest ih =>
    cases i with
    | zero =>
      obtain rfl : head = old := by simpa using found
      simp only [gather, List.set_cons_zero, List.flatMap_cons]
      calc carried new ++ rest.flatMap carried ++ carried head
        _ ~ carried head ++ (carried new ++ rest.flatMap carried) := List.perm_append_comm
        _ ~ carried head ++ (rest.flatMap carried ++ carried new) :=
          List.perm_append_comm.append_left _
        _ = carried head ++ rest.flatMap carried ++ carried new := (List.append_assoc _ _ _).symm
    | succ i =>
      have moved := ih (by simpa using found)
      simp only [gather, List.set_cons_succ, List.flatMap_cons, List.append_assoc] at moved ⊢
      exact moved.append_left _

end Pool
