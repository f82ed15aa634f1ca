import HkuRest.Core.Pool
import Mathlib.Data.List.Range
import Mathlib.Data.List.Nodup

/-! Owners in one pool that claim processes of another by their places. No place is claimed twice,
and no process that matters goes unclaimed; where every claim is to one that matters, there are as
many claims as such processes. -/

namespace Pool

open scoped List

variable {Process Owner : Type} {processes moved : List Process} {claims later : List Nat}
  {matters : Process → Bool} {k : Nat}

/-- The places of the processes that matter. -/
def places (matters : Process → Bool) (processes : List Process) : List Nat :=
  (List.range processes.length).filter fun k => processes[k]?.any matters

theorem mem_places : k ∈ places matters processes ↔ processes[k]?.any matters = true := by
  simp only [places, List.mem_filter, List.mem_range, and_iff_right_iff_imp]
  intro found
  by_contra outside
  rw [List.getElem?_eq_none (not_lt.mp outside)] at found
  cases found

theorem nodup_places (matters : Process → Bool) (processes : List Process) :
    (places matters processes).Nodup :=
  List.nodup_range.filter _

theorem length_places (matters : Process → Bool) (processes : List Process) :
    (places matters processes).length = tally matters processes := by
  induction processes using List.reverseRecOn with
  | nil => rfl
  | append_singleton processes last ih =>
    have earlier : (List.range processes.length).filter
        (fun k => (processes ++ [last])[k]?.any matters) = places matters processes := by
      refine List.filter_congr fun k within => ?_
      rw [List.getElem?_append_left (List.mem_range.mp within)]
    rw [tally_append, ← ih, places, List.length_append, List.length_singleton, List.range_succ,
      List.filter_append, earlier, List.length_append]
    cases held : matters last <;> simp [held]

structure Covers (matters : Process → Bool) (processes : List Process) (claims : List Nat) :
    Prop where
  nodup : claims.Nodup
  covers : ∀ k : Nat, processes[k]?.any matters = true → k ∈ claims

namespace Covers

theorem nil (matters : Process → Bool) : Covers matters [] [] := ⟨List.nodup_nil, by simp⟩

theorem move (held : Covers matters processes claims)
    (earlier : ∀ k : Nat, moved[k]?.any matters = true → processes[k]?.any matters = true) :
    Covers matters moved claims :=
  ⟨held.nodup, fun k stands => held.covers k (earlier k stands)⟩

theorem perm (held : Covers matters processes claims) (same : later ~ claims) :
    Covers matters processes later :=
  ⟨same.nodup_iff.mpr held.nodup, fun k stands => same.mem_iff.mpr (held.covers k stands)⟩

theorem join (held : Covers matters processes claims)
    (within : ∀ k ∈ claims, k < processes.length) (new : Process) :
    Covers matters (processes ++ [new]) (claims ++ [processes.length]) := by
  constructor
  · refine List.nodup_append.mpr ⟨held.nodup, List.nodup_singleton _, ?_⟩
    rintro k claimed last fresh rfl
    exact absurd (within k claimed) (by rw [List.mem_singleton.mp fresh]; omega)
  · intro k stands
    rcases Nat.lt_or_ge k processes.length with earlier | last
    · rw [List.getElem?_append_left earlier] at stands
      exact List.mem_append_left _ (held.covers k stands)
    · rw [List.getElem?_append_right last] at stands
      cases place : k - processes.length with
      | zero => exact List.mem_append_right _ (List.mem_singleton.mpr (by omega))
      | succ _ =>
        rw [place] at stands
        cases stands

theorem yield (held : Covers matters processes claims) (claimed : claims ~ later ++ [k])
    (idle : processes[k]?.any matters = false) : Covers matters processes later := by
  have both := held.perm claimed.symm
  refine ⟨(List.nodup_append.mp both.nodup).1, fun j stands => ?_⟩
  rcases List.mem_append.mp (both.covers j stands) with other | same
  · exact other
  · rw [List.mem_singleton.mp same, idle] at stands
    cases stands

theorem tally_eq (held : Covers matters processes claims)
    (exact : ∀ k ∈ claims, processes[k]?.any matters = true) :
    tally matters processes = claims.length := by
  rw [← length_places]
  refine ((List.perm_ext_iff_of_nodup (nodup_places _ _) held.nodup).mpr fun k => ?_).length_eq
  rw [mem_places]
  exact ⟨held.covers k, exact k⟩

/-- Two owners never claim one place. -/
theorem disjoint {claim : Owner → List Nat} {owners : List Owner} {one other : Owner} {i j : Nat}
    (held : Covers matters processes (gather claim owners)) (apart : i ≠ j)
    (first : owners[i]? = some one) (second : owners[j]? = some other) (claimed : k ∈ claim one) :
    k ∉ claim other := by
  obtain ⟨_, pairwise⟩ := List.nodup_flatMap.mp held.nodup
  obtain ⟨small, rfl⟩ := List.getElem?_eq_some_iff.mp first
  obtain ⟨large, rfl⟩ := List.getElem?_eq_some_iff.mp second
  rcases Nat.lt_or_gt_of_ne apart with before | after
  · exact fun again => List.pairwise_iff_getElem.mp pairwise i j small large before claimed again
  · exact fun again => List.pairwise_iff_getElem.mp pairwise j i large small after again claimed

end Covers

theorem length_gather {claim : Owner → List Nat} {owners : List Owner} {claims : Owner → Bool}
    (each : ∀ owner ∈ owners, (claim owner).length = (claims owner).toNat) :
    (gather claim owners).length = tally claims owners := by
  induction owners with
  | nil => rfl
  | cons owner rest ih =>
    obtain ⟨here, others⟩ := List.forall_mem_cons.mp each
    have counted := ih others
    simp only [gather, tally] at counted ⊢
    rw [List.flatMap_cons, List.length_append, here, counted, List.countP_cons]
    cases claims owner <;> simp [Nat.add_comm]

end Pool
