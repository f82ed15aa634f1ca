import HkuRest.Core.PercentCoding
import HkuRest.Httpd.QueryReference

/-! A query that a client makes of parameters, and what `getQueryParams` reads of it. Names and values
may hold any bytes but NUL, separators among them, as they are percent-encoded. -/

namespace Hku.QueryParams

open PercentCoding

variable {pairs : List (Bytes × Bytes)} {path : Bytes} {count : Nat} {meaning : Meaning}
  {urlUnescape : Bytes → Bytes}

def pairText (pair : Bytes × Bytes) : Bytes := escape pair.1 ++ equals :: escape pair.2

def queryText (pairs : List (Bytes × Bytes)) : Bytes :=
  [ampersand].intercalate (pairs.map pairText)

/-- The parameters one after another, of which a later one overrides. -/
def assignAll (meaning : Meaning) (pairs : List (Bytes × Bytes)) : Meaning :=
  pairs.foldl (fun meaning pair => Function.update meaning pair.1 (some pair.2)) meaning

theorem equals_not_mem (text : Bytes) : equals ∉ escape text :=
  not_mem_escape (by decide) (by decide) text

theorem ampersand_not_mem (pair : Bytes × Bytes) : ampersand ∉ pairText pair := by
  simp only [pairText, List.mem_append, List.mem_cons, not_or]
  exact ⟨not_mem_escape (by decide) (by decide) _, by decide,
    not_mem_escape (by decide) (by decide) _⟩

theorem keyOf_pairText (pair : Bytes × Bytes) : keyOf (pairText pair) = escape pair.1 :=
  Delimited.name_split (equals_not_mem pair.1)

theorem valueOf_pairText (pair : Bytes × Bytes) : valueOf (pairText pair) = escape pair.2 := by
  rw [valueOf, pairText, Delimited.dropWhile_split (equals_not_mem pair.1), List.tail_cons]

theorem count_pairText (pair : Bytes × Bytes) : (pairText pair).count equals ≤ 1 := by
  rw [pairText, List.count_append, List.count_cons_self,
    List.count_eq_zero.mpr (equals_not_mem pair.1), List.count_eq_zero.mpr (equals_not_mem pair.2)]

theorem splitOn_queryText (some : pairs ≠ []) :
    (queryText pairs).splitOn ampersand = pairs.map pairText := by
  refine List.splitOn_intercalate ampersand ?_ (by simpa using some)
  intro piece member
  obtain ⟨pair, _, rfl⟩ := List.mem_map.mp member
  exact ampersand_not_mem pair

theorem unescape_escaped (decodes : ∀ text, 0 ∉ text → urlUnescape (escape text) = text) {text : Bytes}
    (whole : 0 ∉ text) : unescape urlUnescape (escape text) = text := by
  have uncut : (escape text).takeWhile (· ≠ 0) = escape text :=
    Delimited.name_of_not_mem (not_mem_escape (by decide) (by decide) text)
  rw [unescape, uncut, decodes text whole]

theorem referencePieces_pairs (decodes : ∀ text, 0 ∉ text → urlUnescape (escape text) = text)
    (named : ∀ pair ∈ pairs, pair.1 ≠ [])
    (whole : ∀ pair ∈ pairs, (0 : UInt8) ∉ pair.1 ∧ (0 : UInt8) ∉ pair.2)
    (room : count ≤ MAX_QUERY_PARAMS) (read : Meaning) :
    referencePieces urlUnescape (pairs.map pairText) count meaning = .ok read ↔
      read = assignAll meaning pairs ∧ count + pairs.length ≤ MAX_QUERY_PARAMS ∧
        ∀ pair ∈ pairs, pair.2 ≠ [] := by
  induction pairs generalizing count meaning with
  | nil => simp [referencePieces, assignAll, room, eq_comm]
  | cons pair rest ih =>
    obtain ⟨named, names⟩ := List.forall_mem_cons.mp named
    obtain ⟨⟨key, value⟩, texts⟩ := List.forall_mem_cons.mp whole
    have keyed : keyOf (pairText pair) ≠ [] := by
      rwa [keyOf_pairText, Ne, escape_eq_nil_iff]
    rw [List.map_cons, referencePieces, if_neg keyed, valueOf_pairText, keyOf_pairText]
    by_cases empty : pair.2 = []
    · rw [if_pos (escape_eq_nil_iff.mpr empty)]
      refine iff_of_false (by simp) ?_
      rintro ⟨_, _, filled⟩
      exact filled pair List.mem_cons_self empty
    · rw [if_neg (mt escape_eq_nil_iff.mp empty)]
      by_cases full : count = MAX_QUERY_PARAMS
      · rw [if_pos full]
        refine iff_of_false (by simp) ?_
        rintro ⟨_, fits, _⟩
        rw [List.length_cons] at fits
        omega
      · rw [if_neg full, ih names texts (by omega), unescape_escaped decodes key,
          unescape_escaped decodes value, List.length_cons, List.forall_mem_cons]
        simp only [assignAll, List.foldl_cons, ne_eq, empty, not_false_iff, true_and,
          Nat.add_assoc, Nat.add_comm 1]

theorem queryOf_made (plain : question ∉ path) (query : Bytes) :
    queryOf (path ++ question :: query) = query := by
  rw [queryOf, Delimited.dropWhile_split plain, List.drop_one, List.tail_cons]

theorem atMostOneEquals_made (plain : question ∉ path) (pairs : List (Bytes × Bytes)) :
    AtMostOneEquals (path ++ question :: queryText pairs) := by
  intro piece member
  rw [queryOf_made plain] at member
  by_cases none : pairs = []
  · subst none
    obtain rfl : piece = [] := by simpa [queryText] using member
    exact Nat.zero_le _
  · rw [splitOn_queryText none] at member
    obtain ⟨pair, _, rfl⟩ := List.mem_map.mp member
    exact count_pairText pair

/-- The parameters are read back, whatever bytes they are made of, exactly when each of them has a
value, they are not too many, and the target is not too long. -/
theorem query_reads_back_iff (urlUnescape : Bytes → Bytes) (beyond : Nat → UInt8)
    (decodes : ∀ text, 0 ∉ text → urlUnescape (escape text) = text) (pairs : List (Bytes × Bytes))
    (named : ∀ pair ∈ pairs, pair.1 ≠ [])
    (whole : ∀ pair ∈ pairs, (0 : UInt8) ∉ pair.1 ∧ (0 : UInt8) ∉ pair.2) (path : Bytes)
    (plain : question ∉ path) (request : Request)
    (made : request.target = path ++ question :: queryText pairs) :
    (request.getQueryParams urlUnescape beyond).map meaningOf =
        .ok (assignAll (fun _ => none) pairs) ↔
      request.target.length ≤ MAX_URL_LENGTH ∧ pairs.length ≤ MAX_QUERY_PARAMS ∧
        ∀ pair ∈ pairs, pair.2 ≠ [] := by
  have once : AtMostOneEquals request.target := made ▸ atMostOneEquals_made plain pairs
  rw [getQueryParams_reference urlUnescape beyond request once, reference]
  rcases Nat.lt_or_ge MAX_URL_LENGTH request.target.length with long | short
  · rw [if_pos long]
    exact iff_of_false (by simp) fun fits => absurd long (Nat.not_lt_of_le fits.1)
  rw [if_neg (Nat.not_lt_of_le short), made, queryOf_made plain]
  by_cases none : pairs = []
  · subst none
    refine iff_of_true rfl ⟨made ▸ short, Nat.zero_le _, ?_⟩
    simp
  · rw [splitOn_queryText none, referencePieces_pairs decodes named whole (Nat.zero_le _)]
    rw [made] at short
    simp only [true_and, Nat.zero_add, short]

/-- A form with an `=` and an `&` in its values, and a name that is given twice. -/
def formPairs : List (Bytes × Bytes) :=
  [(Bytes.ascii "q", Bytes.ascii "a=b&c"), (Bytes.ascii "lang", [0xe4, 0xb8, 0xad]),
    (Bytes.ascii "q", Bytes.ascii "100%")]

def formRequest : Request :=
  ⟨Bytes.ascii "GET", Bytes.ascii "/search" ++ question :: queryText formPairs, 11, [], []⟩

theorem query_reads_back_iff_form :
    (formRequest.getQueryParams PercentCoding.unescape fun _ => 0).map meaningOf =
      .ok (assignAll (fun _ => none) formPairs) :=
  (query_reads_back_iff PercentCoding.unescape (fun _ => 0) (fun text _ => unescape_escape text)
    formPairs (by decide) (by decide) (Bytes.ascii "/search") (by decide) formRequest rfl).mpr
      (by decide +kernel)

end Hku.QueryParams
