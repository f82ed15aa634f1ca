import HkuRest.Mcp.McpError
import Mathlib.Data.List.Nodup

/-! Error modules that are registered one after another. An error code is taken apart again
into its module and the number in it, both of one sign, by a division that truncates. -/

namespace Hku

variable {m c : Int} {func : Int → Bytes}

/-- Values of type `int32_t`. -/
def FitsInt32 (value : Int) : Prop := -2 ^ 31 ≤ value ∧ value < 2 ^ 31

instance (value : Int) : Decidable (FitsInt32 value) := inferInstanceAs (Decidable (_ ∧ _))

/-- The modules that are there from the beginning. -/
def getBizErrMap : List (Int × (Int → Bytes)) :=
  [(bizModBase, bizBaseErrMsg), (bizModAuth, bizAuthErrMsg)]

/-- `biz_err_map[biz_mod] = func`; that the module was there before is only logged. -/
def registerBizErrorModule (map : List (Int × (Int → Bytes))) (module : Int × (Int → Bytes)) :
    List (Int × (Int → Bytes)) :=
  module :: map.filter fun entry => entry.1 ≠ module.1

/-- `biz_err_msg` with this map. -/
def bizErrMsgOf (map : List (Int × (Int → Bytes))) (e : Int) : Bytes :=
  if e = bizOk then Bytes.ascii "OK"
  else
    match map.find? fun entry => entry.1 = getBizMod e with
    | some entry => entry.2 e
    | none => Bytes.ascii "unknown error"

theorem bizErrMsg_eq (e : Int) : bizErrMsg e = bizErrMsgOf bizErrMap e := rfl

/-- Modules with their message functions, in the order in which they are registered. -/
structure ErrorModules where
  entries : List (Int × (Int → Bytes))
  distinct : (entries.map Prod.fst).Nodup
  nonzero : ∀ entry ∈ entries, entry.1 ≠ 0

namespace ErrorModules

def registered (modules : ErrorModules) : List (Int × (Int → Bytes)) :=
  modules.entries.foldl registerBizErrorModule getBizErrMap

/-- The function is the module's own: it was registered under its id, or was there from the
beginning and none was. -/
def Owns (modules : ErrorModules) (m : Int) (func : Int → Bytes) : Prop :=
  (m, func) ∈ modules.entries ∨ (m, func) ∈ getBizErrMap ∧ m ∉ modules.entries.map Prod.fst

end ErrorModules

/-- The sign of a number in a module is that of the module. -/
def SameSign (m c : Int) : Prop := c = 0 ∨ 0 < m ∧ 0 < c ∨ m < 0 ∧ c < 0

theorem getBizMod_makeErr (nonzero : m ≠ 0) (small : |c| < 10000) (sign : SameSign m c) :
    getBizMod (makeErr m c) = m := by
  obtain ⟨low, high⟩ := abs_lt.mp small
  rw [getBizMod, makeErr]
  rcases Int.lt_or_gt_of_ne nonzero with negative | positive
  · have mirrored : m * 10000 + c = -(-m * 10000 - c) := by ring
    rw [mirrored, Int.neg_tdiv, Int.tdiv_eq_ediv_of_nonneg (by unfold SameSign at sign; omega)]
    unfold SameSign at sign
    omega
  · rw [Int.tdiv_eq_ediv_of_nonneg (by unfold SameSign at sign; omega)]
    unfold SameSign at sign
    omega

theorem getBizCode_makeErr (nonzero : m ≠ 0) (small : |c| < 10000) (sign : SameSign m c) :
    getBizCode (makeErr m c) = c := by
  have divided := Int.mul_tdiv_add_tmod (makeErr m c) 10000
  have module := getBizMod_makeErr nonzero small sign
  rw [getBizMod] at module
  rw [module] at divided
  rw [getBizCode]
  simp only [makeErr] at divided ⊢
  omega

/-- The product does not overflow where the code does not. -/
theorem fitsInt32_product (sign : SameSign m c) (fits : FitsInt32 (makeErr m c)) :
    FitsInt32 (m * 10000) := by
  unfold SameSign at sign
  unfold FitsInt32 makeErr at *
  omega

theorem makeErr_ne_bizOk (nonzero : m ≠ 0) (sign : SameSign m c) : makeErr m c ≠ bizOk := by
  unfold SameSign at sign
  unfold makeErr bizOk
  omega

theorem find?_register_self (map : List (Int × (Int → Bytes))) (module : Int × (Int → Bytes)) :
    (registerBizErrorModule map module).find? (fun entry => entry.1 = module.1) = some module := by
  simp [registerBizErrorModule]

theorem find?_register_other (map : List (Int × (Int → Bytes))) {module : Int × (Int → Bytes)}
    (other : m ≠ module.1) :
    (registerBizErrorModule map module).find? (fun entry => entry.1 = m) =
      map.find? fun entry => entry.1 = m := by
  rw [registerBizErrorModule, List.find?_cons_of_neg (by simpa using other.symm), List.find?_filter]
  congr 1
  funext entry
  by_cases same : entry.1 = m
  · simp [same, other]
  · simp [same]

theorem find?_registered_other (entries : List (Int × (Int → Bytes))) (absent : m ∉ entries.map Prod.fst)
    (map : List (Int × (Int → Bytes))) :
    (entries.foldl registerBizErrorModule map).find? (fun entry => entry.1 = m) =
      map.find? fun entry => entry.1 = m := by
  induction entries generalizing map with
  | nil => rfl
  | cons module rest ih =>
    rw [List.map_cons, List.mem_cons, not_or] at absent
    rw [List.foldl_cons, ih absent.2, find?_register_other map absent.1]

/-- Ids that differ do not replace each other, in whatever order they are registered. -/
theorem find?_registered (entries : List (Int × (Int → Bytes))) (distinct : (entries.map Prod.fst).Nodup)
    (member : (m, func) ∈ entries) (map : List (Int × (Int → Bytes))) :
    (entries.foldl registerBizErrorModule map).find? (fun entry => entry.1 = m) = some (m, func) := by
  induction entries generalizing map with
  | nil => cases member
  | cons module rest ih =>
    obtain ⟨absent, distinct⟩ := List.nodup_cons.mp distinct
    rw [List.foldl_cons]
    rcases List.mem_cons.mp member with rfl | later
    · rw [find?_registered_other rest absent]
      exact find?_register_self map (m, func)
    · exact ih distinct later _

theorem find?_owned {modules : ErrorModules} (owns : modules.Owns m func) :
    modules.registered.find? (fun entry => entry.1 = m) = some (m, func) := by
  rcases owns with listed | ⟨builtin, absent⟩
  · exact find?_registered modules.entries modules.distinct listed getBizErrMap
  · rw [ErrorModules.registered, find?_registered_other modules.entries absent]
    simp only [getBizErrMap, List.mem_cons, Prod.mk.injEq, List.not_mem_nil, or_false] at builtin
    rcases builtin with ⟨rfl, rfl⟩ | ⟨rfl, rfl⟩ <;> rfl

/-- An error code is taken apart into its module and its number and is an error, and its text
comes from the function that is found under the id of its module, which is the module's own. -/
theorem makeErr_round_trip (modules : ErrorModules) (nonzero : m ≠ 0) (small : |c| < 10000)
    (sign : SameSign m c) (fits : FitsInt32 (makeErr m c)) :
    FitsInt32 (m * 10000) ∧ getBizMod (makeErr m c) = m ∧ getBizCode (makeErr m c) = c ∧
      makeErr m c ≠ bizOk ∧
      ∀ func, modules.Owns m func →
        modules.registered.find? (fun entry => entry.1 = getBizMod (makeErr m c)) = some (m, func) ∧
        bizErrMsgOf modules.registered (makeErr m c) = func (makeErr m c) := by
  have module := getBizMod_makeErr nonzero small sign
  have fails := makeErr_ne_bizOk nonzero sign
  refine ⟨fitsInt32_product sign fits, module, getBizCode_makeErr nonzero small sign, fails, ?_⟩
  intro func owns
  have found := find?_owned owns
  constructor
  · rw [module, found]
  · rw [bizErrMsgOf, if_neg fails, module, found]

/-- The modules of the repository itself. -/
def mcpModules : ErrorModules := ⟨[(bizModMcp, bizMcpErrMsg)], by decide, by decide⟩

theorem makeErr_round_trip_mcp :
    getBizMod bizJsonrpcParseError = -3 ∧ getBizCode bizJsonrpcParseError = -2700 ∧
      bizErrMsgOf mcpModules.registered bizJsonrpcParseError = bizMcpErrMsg bizJsonrpcParseError := by
  obtain ⟨-, module, number, -, text⟩ := @makeErr_round_trip bizModMcp (-2700) mcpModules
    (by decide) (by decide) (.inr (.inr (by decide))) (by decide)
  exact ⟨module, number, (text bizMcpErrMsg (.inl (List.mem_singleton_self _))).2⟩

/-- Up to the order of the entries, the map is the one in which the texts are looked up. -/
theorem bizErrMsg_registered (e : Int) : bizErrMsg e = bizErrMsgOf mcpModules.registered e := by
  have found : bizErrMap.find? (fun entry => entry.1 = getBizMod e) =
      mcpModules.registered.find? fun entry => entry.1 = getBizMod e := by
    generalize getBizMod e = m
    by_cases base : m = bizModBase
    · rw [base]
      rfl
    by_cases auth : m = bizModAuth
    · rw [auth]
      rfl
    have registered : mcpModules.registered =
        [(bizModMcp, bizMcpErrMsg), (bizModBase, bizBaseErrMsg), (bizModAuth, bizAuthErrMsg)] := rfl
    rw [registered, bizErrMap]
    simp [List.find?_cons, eq_comm, base, auth]
  rw [bizErrMsg_eq, bizErrMsgOf, bizErrMsgOf, found]

end Hku
