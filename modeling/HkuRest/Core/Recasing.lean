import HkuRest.Core.Bytes
import Mathlib.Data.List.Forall2

/-! Entries with names whose letters may change their case on the way, looked up by the
exact spelling of a name. What such a lookup finds after a change of case is the value of
any entry that has the name in some spelling, or nothing. -/

namespace Recasing

variable {α : Type} {name other : Bytes} {entries changed : List (Bytes × α)} {entry : Bytes × α}
  {value : α}

/-- The same values in the same order, under names that differ in the case of letters. -/
def Recased (entries changed : List (Bytes × α)) : Prop :=
  List.Forall₂ (fun one two => one.1.iequals two.1 = true ∧ one.2 = two.2) entries changed

/-- The first entry with exactly this name. -/
def lookup (name : Bytes) (entries : List (Bytes × α)) : Option α :=
  (List.find? (fun entry => entry.1 = name) entries).map Prod.snd

theorem iequals_refl (name : Bytes) : name.iequals name = true := decide_eq_true rfl

theorem Recased.refl (entries : List (Bytes × α)) : Recased entries entries :=
  List.forall₂_same.mpr fun entry _ => ⟨iequals_refl entry.1, rfl⟩

theorem lowerByte_lowerByte (byte : UInt8) :
    Bytes.lowerByte (Bytes.lowerByte byte) = Bytes.lowerByte byte := by
  by_cases capital : 0x41 ≤ byte ∧ byte ≤ 0x5a
  · have lower : ¬ (0x41 ≤ byte + 0x20 ∧ byte + 0x20 ≤ 0x5a) := by
      simp only [UInt8.le_iff_toNat_le, UInt8.toNat_add, UInt8.reduceToNat] at capital ⊢
      omega
    simp only [Bytes.lowerByte, if_pos capital, if_neg lower]
  · simp only [Bytes.lowerByte, if_neg capital]

theorem toLower_toLower (name : Bytes) : name.toLower.toLower = name.toLower := by
  simp only [Bytes.toLower, List.map_map]
  exact List.map_congr_left fun byte _ => lowerByte_lowerByte byte

theorem lookup_recased (recased : Recased entries changed) (found : lookup name changed = some value) :
    ∃ entry ∈ entries, entry.1.iequals name = true ∧ entry.2 = value := by
  induction recased with
  | nil => cases found
  | @cons one two rest others same _ ih =>
    by_cases named : two.1 = name
    · have here : two.2 = value := by simpa [lookup, named] using found
      exact ⟨one, List.mem_cons_self, named ▸ same.1, same.2.trans here⟩
    · have further : lookup name others = some value := by simpa [lookup, named] using found
      obtain ⟨entry, member, spelled, held⟩ := ih further
      exact ⟨entry, List.mem_cons_of_mem _ member, spelled, held⟩

/-- Every name in lower case. -/
def hide (entries : List (Bytes × α)) : List (Bytes × α) :=
  entries.map fun entry => (entry.1.toLower, entry.2)

theorem hide_recased (entries : List (Bytes × α)) : Recased entries (hide entries) :=
  List.forall₂_map_right_iff.mpr <| List.forall₂_same.mpr fun entry _ =>
    ⟨decide_eq_true (toLower_toLower entry.1).symm, rfl⟩

theorem find_hide (mixed : name.toLower ≠ name) (entries : List (Bytes × α)) :
    List.find? (fun entry => entry.1 = name) (hide entries) = none := by
  rw [List.find?_eq_none]
  intro entry member
  obtain ⟨original, _, rfl⟩ := List.mem_map.mp member
  simp only [decide_eq_true_eq]
  rintro rfl
  exact mixed (toLower_toLower original.1)

theorem lookup_hide (mixed : name.toLower ≠ name) (entries : List (Bytes × α)) :
    lookup name (hide entries) = none := by
  rw [lookup, find_hide mixed, Option.map_none]

/-- An entry can be the only one that is found under its name, and under all other names
with capital letters nothing. -/
theorem exists_exposed (member : entry ∈ entries) (spelled : entry.1.iequals name = true)
    (mixed : name.toLower ≠ name) :
    ∃ changed, Recased entries changed ∧ lookup name changed = some entry.2 ∧
      ∀ other, other.toLower ≠ other → other ≠ name → lookup other changed = none := by
  obtain ⟨before, after, rfl⟩ := List.append_of_mem member
  refine ⟨hide before ++ (name, entry.2) :: hide after, ?_, ?_, ?_⟩
  · exact List.rel_append (hide_recased before) (.cons ⟨spelled, rfl⟩ (hide_recased after))
  · simp [lookup, List.find?_append, find_hide mixed]
  · intro other capital apart
    simp [lookup, List.find?_append, find_hide capital, apart.symm]

end Recasing
