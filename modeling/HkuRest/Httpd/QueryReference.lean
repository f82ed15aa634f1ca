import HkuRest.Httpd.QueryParams
import Mathlib.Logic.Function.Basic

/-! The query parameters, told by the pieces between the `&`s. A piece has what stands before its
`=` as its key and what stands after it as its value. The scanner, which never cuts the query,
answers the same for every target none of whose pieces has a second `=`. -/

namespace Hku

namespace QueryParams

open Delimited

def keyOf (piece : Bytes) : Bytes := piece.takeWhile (· ≠ equals)

def valueOf (piece : Bytes) : Bytes := (piece.dropWhile (· ≠ equals)).tail

/-- A `std::string` is handed to `url_unescape` as a C string. -/
def unescape (urlUnescape : Bytes → Bytes) (text : Bytes) : Bytes := urlUnescape (text.takeWhile (· ≠ 0))

/-- The value of a key, if it has one. -/
abbrev Meaning := Bytes → Option Bytes

/-- The pieces in order, after this many parameters. -/
def referencePieces (urlUnescape : Bytes → Bytes) : List Bytes → Nat → Meaning → Except Int Meaning
  | [], _, meaning => .ok meaning
  | piece :: rest, count, meaning =>
      if keyOf piece = [] then referencePieces urlUnescape rest count meaning
      else if valueOf piece = [] then .error bizBaseInvalidUrl
      else if count = MAX_QUERY_PARAMS then .error bizBaseTooManyQueryParams
      else
        referencePieces urlUnescape rest (count + 1)
          (Function.update meaning (unescape urlUnescape (keyOf piece))
            (some (unescape urlUnescape (valueOf piece))))

def reference (urlUnescape : Bytes → Bytes) (target : Bytes) : Except Int Meaning :=
  if MAX_URL_LENGTH < target.length then .error bizBaseTooLongUrl
  else referencePieces urlUnescape ((queryOf target).splitOn ampersand) 0 fun _ => none

/-- What a list of parameters says of each key. -/
def meaningOf (params : List (Bytes × Bytes)) : Meaning := fun key => params.lookup key

/-- No piece of the query has a second `=`. -/
def AtMostOneEquals (target : Bytes) : Prop :=
  ∀ piece ∈ (queryOf target).splitOn ampersand, piece.count equals ≤ 1

instance (target : Bytes) : Decidable (AtMostOneEquals target) :=
  inferInstanceAs (Decidable (∀ piece ∈ _, _))

variable {piece query : Bytes} {pieces : List Bytes}

theorem payload_eq_valueOf (once : piece.count equals ≤ 1) : payload equals piece = valueOf piece :=
  payload_of_count once

theorem lookup_filter (params : List (Bytes × Bytes)) (key asked : Bytes) :
    (params.filter (·.1 ≠ key)).lookup asked = if asked = key then none else params.lookup asked := by
  induction params with
  | nil => simp
  | cons param rest ih =>
    obtain ⟨name, value⟩ := param
    by_cases same : name = key
    · subst same
      rw [List.filter_cons_of_neg (by simp), ih, List.lookup_cons]
      split
      · rfl
      · rename_i other
        rw [beq_false_of_ne other]
    · rw [List.filter_cons_of_pos (by simpa using same), List.lookup_cons, List.lookup_cons, ih]
      by_cases here : asked = name
      · subst here
        simp [same]
      · rw [beq_false_of_ne here]

theorem meaningOf_assign (key value : Bytes) (params : List (Bytes × Bytes)) :
    meaningOf (assign key value params) = Function.update (meaningOf params) key (some value) := by
  funext asked
  rw [meaningOf, assign, List.lookup_append, lookup_filter, Function.update_apply]
  by_cases here : asked = key
  · subst here
    simp
  · simp [here, meaningOf, List.lookup_cons, beq_false_of_ne here]

theorem meaningOf_assignPair (urlUnescape : Bytes → Bytes) (once : piece.count equals ≤ 1)
    (params : List (Bytes × Bytes)) :
    meaningOf (assignPair urlUnescape params piece) =
      Function.update (meaningOf params) (unescape urlUnescape (keyOf piece))
        (some (unescape urlUnescape (valueOf piece))) := by
  rw [assignPair, meaningOf_assign, payload_eq_valueOf once]
  rfl

/-- What the loop does with these pieces is what the reference does with them. -/
theorem describe_reference (urlUnescape : Bytes → Bytes) (start count : Nat) (room : count ≤ MAX_QUERY_PARAMS)
    (params : List (Bytes × Bytes)) (once : ∀ piece ∈ pieces, piece.count equals ≤ 1) :
    (match (describe start count pieces).2 with
      | some error => .error error
      | none => .ok (meaningOf
          ((parametersOf (MAX_QUERY_PARAMS - count) pieces).foldl (assignPair urlUnescape) params))) =
      referencePieces urlUnescape pieces count (meaningOf params) := by
  induction pieces generalizing start count params with
  | nil => simp [describe, parametersOf, referencePieces]
  | cons piece rest ih =>
    obtain ⟨here, others⟩ := List.forall_mem_cons.mp once
    have named : name equals piece = keyOf piece := rfl
    rw [referencePieces]
    by_cases keyless : keyOf piece = []
    · have incomplete : complete piece = false := by simp [complete, named, keyless]
      have nameless : valueMissing piece = false := by simp [valueMissing, named, keyless]
      rw [if_pos keyless, parametersOf_nameless incomplete nameless]
      simp only [describe, incomplete, nameless, Bool.false_eq_true, if_false]
      exact ih _ count room params others
    · rw [if_neg keyless]
      by_cases valueless : valueOf piece = []
      · have incomplete : complete piece = false := by simp [complete, payload_eq_valueOf here, valueless]
        have missing : valueMissing piece = true := by
          simp [valueMissing, named, keyless, payload_eq_valueOf here, valueless]
        rw [if_pos valueless]
        simp [describe, incomplete, missing]
      · have whole : complete piece = true := by
          simp [complete, named, keyless, payload_eq_valueOf here, valueless]
        rw [if_neg valueless]
        by_cases full : count = MAX_QUERY_PARAMS
        · rw [if_pos full]
          simp [describe, whole, full]
        · have free : count < MAX_QUERY_PARAMS := Nat.lt_of_le_of_ne room full
          have further := ih (start + piece.length + 1) (count + 1) free (assignPair urlUnescape params piece)
            others
          rw [if_neg full, parametersOf_complete whole free, List.foldl_cons,
            ← meaningOf_assignPair urlUnescape here, ← further]
          simp only [describe, whole, if_true, if_neg (Nat.not_le_of_lt free)]

theorem plainValues_of_count {target : Bytes} (once : AtMostOneEquals target) : PlainValues target := by
  intro _ pair member
  have inside : pair ∈ (queryOf target).splitOn ampersand := by
    refine (List.takeWhile_sublist _).mem (List.mem_of_mem_filter (List.mem_of_mem_take member))
  exact single_of_count (once pair inside)

/-- If no piece of the query has a second `=`, the answer is that of the reference: the error,
or the value of every key. -/
theorem getQueryParams_reference (urlUnescape : Bytes → Bytes) (beyond : Nat → UInt8) (request : Request)
    (once : AtMostOneEquals request.target) :
    (request.getQueryParams urlUnescape beyond).map meaningOf = reference urlUnescape request.target := by
  rw [getQueryParams_plain urlUnescape beyond request (plainValues_of_count once), reference]
  rcases Nat.lt_or_ge MAX_URL_LENGTH request.target.length with long | short
  · rw [if_pos long, scanTarget_long long]
    rfl
  · have same := describe_reference urlUnescape 0 0 (Nat.zero_le _) [] once
    rw [if_neg (Nat.not_lt_of_le short), (scanTarget_describe short).2]
    refine Eq.trans ?_ same
    cases (describe 0 0 ((queryOf request.target).splitOn ampersand)).2 with
    | none => rfl
    | some error => rfl

/-- A key that is given twice, between a piece without a key and an empty one. There is nothing
to unescape. -/
def repeatedKey : Request := ⟨Bytes.ascii "GET", Bytes.ascii "/p?a=1&=x&&a=2", 11, [], []⟩

theorem getQueryParams_reference_repeated :
    (repeatedKey.getQueryParams id (fun _ => 0)).map meaningOf = reference id repeatedKey.target :=
  getQueryParams_reference id (fun _ => 0) repeatedKey (by decide +kernel)

/-- Its last value is its value. -/
example : (reference id repeatedKey.target).map (· (Bytes.ascii "a")) = .ok (some (Bytes.ascii "2")) := by
  rfl

end QueryParams

end Hku
