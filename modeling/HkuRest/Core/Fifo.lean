import Mathlib.Data.List.Nodup

/-! What a queue should hold: of the items that were pushed, in that order, those that
have not left. Items are pushed once; they may leave from anywhere. -/

namespace Fifo

variable {Item : Type} [DecidableEq Item] {pushed left rest : List Item} {item : Item}

def remaining (pushed left : List Item) : List Item := pushed.filter (· ∉ left)

theorem mem_remaining : item ∈ remaining pushed left ↔ item ∈ pushed ∧ item ∉ left := by
  simp [remaining]

theorem remaining_nodup (once : pushed.Nodup) (left : List Item) : (remaining pushed left).Nodup :=
  once.filter _

theorem remaining_push (pushed : List Item) (fresh : item ∉ left) :
    remaining (pushed ++ [item]) left = remaining pushed left ++ [item] := by
  simp [remaining, List.filter_append, fresh]

theorem remaining_leave (pushed left : List Item) (item : Item) :
    remaining pushed (left ++ [item]) = (remaining pushed left).filter (· ≠ item) := by
  simp only [remaining, List.filter_filter]
  congr 1
  funext other
  by_cases same : other = item <;> simp [same]

theorem filter_ne_head (once : (item :: rest).Nodup) :
    (item :: rest).filter (· ≠ item) = rest := by
  rw [List.filter_cons_of_neg (by simp)]
  apply List.filter_eq_self.mpr
  intro other member
  simp only [decide_eq_true_eq]
  rintro rfl
  exact (List.nodup_cons.mp once).1 member

theorem remaining_pop (once : pushed.Nodup) (held : remaining pushed left = item :: rest) :
    remaining pushed (left ++ [item]) = rest := by
  rw [remaining_leave, held]
  exact filter_ne_head (held ▸ remaining_nodup once left)

theorem remaining_drain (pushed left : List Item) :
    remaining pushed (left ++ remaining pushed left) = [] := by
  apply List.filter_eq_nil_iff.mpr
  intro item member
  by_cases gone : item ∈ left
  · simp [gone]
  · simp [gone, mem_remaining, member]

theorem remaining_head (held : remaining pushed left = item :: rest) :
    ∃ earlier later, pushed = earlier ++ item :: later ∧ (∀ other ∈ earlier, other ∈ left) ∧
      item ∉ left := by
  induction pushed with
  | nil => cases held
  | cons head tail ih =>
    by_cases gone : head ∈ left
    · have skipped : remaining tail left = item :: rest := by
        simpa [remaining, gone] using held
      obtain ⟨earlier, later, rfl, left, stays⟩ := ih skipped
      refine ⟨head :: earlier, later, rfl, ?_, stays⟩
      exact List.forall_mem_cons.mpr ⟨gone, left⟩
    · have first : head = item := by
        have split : head :: remaining tail left = item :: rest := by
          simpa [remaining, gone] using held
        exact (List.cons.inj split).1
      subst first
      exact ⟨[], tail, rfl, by simp, gone⟩

theorem head_remaining {earlier later : List Item} {first : Item}
    (gone : ∀ other ∈ earlier, other ∈ left) (stays : item ∉ left)
    (held : remaining (earlier ++ item :: later) left = first :: rest) : first = item := by
  have skipped : remaining earlier left = [] := by
    apply List.filter_eq_nil_iff.mpr
    intro other member
    simp [gone other member]
  have split : remaining (earlier ++ item :: later) left =
      remaining earlier left ++ item :: remaining later left := by
    simp [remaining, List.filter_append, stays]
  rw [split, skipped] at held
  exact (List.cons.inj held).1.symm

end Fifo
