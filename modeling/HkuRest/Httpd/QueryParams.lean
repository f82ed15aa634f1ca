import HkuRest.Core.Delimited
import HkuRest.Httpd.HttpHandle

/-! `HttpHandle::getQueryParams`. The scanner keeps a pointer and a length for the key and
for the value of a pair. The pointer of the value is set anew at each `=`, its length only
at each `&`, so the two fit only if the value has no `=` in it. -/

namespace Hku

def bizBaseTooManyQueryParams : Int := makeErr 1 5

def bizBaseTooLongUrl : Int := makeErr 1 6

def bizBaseInvalidUrl : Int := makeErr 1 7

namespace QueryParams

def MAX_URL_LENGTH : Nat := 8192

def MAX_QUERY_PARAMS : Nat := 100

def question : UInt8 := 0x3f

def ampersand : UInt8 := 0x26

def equals : UInt8 := 0x3d

/-- A pointer, as its distance from `query.data()`, and a length. -/
structure Slice where
  start : Nat
  length : Nat
  deriving DecidableEq, Repr

def Slice.stop (slice : Slice) : Nat := slice.start + slice.length

/-- The strings built where a pair is closed: those of a parameter, or the one key that the
log names when its value is missing. `closes` is where the `&` is, or the end. -/
inductive Built
  | parameter (key value : Slice) (closes : Nat)
  | rejected (key : Slice) (closes : Nat)
  deriving DecidableEq, Repr

inductive Expecting
  | key
  | value
  deriving DecidableEq, Repr

/-- The variables of the loop; `value` is `NULL` at first, for which 0 stands. -/
structure Scanner where
  state : Expecting
  key : Nat
  value : Nat
  keyLen : Nat
  valueLen : Nat
  paramCount : Nat
  built : List Built
  deriving DecidableEq, Repr

namespace Scanner

def initial : Scanner := ⟨.key, 0, 0, 0, 0, 0, []⟩

/-- The end of a pair at an `&` or at the end of the query, and the error it is answered with. -/
def close (scanner : Scanner) (idx : Nat) : Scanner × Option Int :=
  let key : Slice := ⟨scanner.key, scanner.keyLen⟩
  if scanner.keyLen ≠ 0 ∧ scanner.valueLen ≠ 0 then
    let counted := { scanner with paramCount := scanner.paramCount + 1 }
    if MAX_QUERY_PARAMS < counted.paramCount then (counted, some bizBaseTooManyQueryParams)
    else
      let value : Slice := ⟨scanner.value, scanner.valueLen⟩
      ({ counted with built := scanner.built ++ [.parameter key value idx] }, none)
  else if scanner.keyLen ≠ 0 ∧ scanner.valueLen = 0 then
    ({ scanner with built := scanner.built ++ [.rejected key idx] }, some bizBaseInvalidUrl)
  else (scanner, none)

/-- After an `&`. -/
def restart (scanner : Scanner) (idx : Nat) : Scanner :=
  { scanner with keyLen := 0, valueLen := 0, state := .key, key := idx + 1 }

/-- Any other character. -/
def read (scanner : Scanner) (idx : Nat) (c : UInt8) : Scanner :=
  if c = equals then { scanner with state := .value, value := idx + 1 }
  else if scanner.state = .key then { scanner with keyLen := scanner.keyLen + 1 }
  else { scanner with valueLen := scanner.valueLen + 1 }

end Scanner

/-- The loop over the rest of the query, and the last pair. -/
def scan : Bytes → Nat → Scanner → Scanner × Option Int
  | [], idx, scanner => scanner.close idx
  | c :: rest, idx, scanner =>
      if c = ampersand then
        match scanner.close idx with
        | (closed, some error) => (closed, some error)
        | (closed, none) => scan rest (idx + 1) (closed.restart idx)
      else scan rest (idx + 1) (scanner.read idx c)

/-- `target.substr(qpos + 1)`, which is empty where there is no `?`. -/
def queryOf (target : Bytes) : Bytes := (target.dropWhile (· ≠ question)).drop 1

def scanTarget (target : Bytes) : Scanner × Option Int :=
  if MAX_URL_LENGTH < target.length then (.initial, some bizBaseTooLongUrl)
  else if queryOf target = [] then (.initial, none)
  else scan (queryOf target) 0 .initial

/-- `std::string(pointer, length)`; `beyond` is what memory holds behind the target. -/
def Slice.read (query : Bytes) (beyond : Nat → UInt8) (slice : Slice) : Bytes :=
  (List.range' slice.start slice.length).map fun i => query.getD i (beyond (i - query.length))

/-- `query_params[key] = value`. -/
def assign (key value : Bytes) (params : List (Bytes × Bytes)) : List (Bytes × Bytes) :=
  params.filter (·.1 ≠ key) ++ [(key, value)]

/-- The parameters, given `url_unescape`, which reads up to the first NUL. -/
def insert (urlUnescape : Bytes → Bytes) (string : Slice → Bytes) (params : List (Bytes × Bytes)) :
    Built → List (Bytes × Bytes)
  | .parameter key value _ =>
      assign (urlUnescape ((string key).takeWhile (· ≠ 0))) (urlUnescape ((string value).takeWhile (· ≠ 0)))
        params
  | .rejected _ _ => params

end QueryParams

open QueryParams

def Request.getQueryParams (urlUnescape : Bytes → Bytes) (beyond : Nat → UInt8) (request : Request) :
    Except Int (List (Bytes × Bytes)) :=
  let scanned := scanTarget request.target
  match scanned.2 with
  | some error => .error error
  | none => .ok (scanned.1.built.foldl (insert urlUnescape (·.read (queryOf request.target) beyond)) [])

namespace QueryParams

open Delimited

variable {scanner : Scanner} {seen rest query : Bytes} {idx start count : Nat} {c : UInt8}

/-- A parameter has both strings. -/
def complete (pair : Bytes) : Bool := name equals pair ≠ [] ∧ payload equals pair ≠ []

def valueMissing (pair : Bytes) : Bool := name equals pair ≠ [] ∧ payload equals pair = []

/-- What the loop does with these pairs, the first of which starts here: the value starts
behind the last `=`, and is as long as all that follows the first one. -/
def describe : Nat → Nat → List Bytes → List Built × Option Int
  | _, _, [] => ([], none)
  | start, count, pair :: rest =>
      let stop := start + pair.length
      let key : Slice := ⟨start, (name equals pair).length⟩
      if complete pair then
        if MAX_QUERY_PARAMS ≤ count then ([], some bizBaseTooManyQueryParams)
        else
          let value : Slice := ⟨stop - (value equals pair).length, (payload equals pair).length⟩
          let (later, error) := describe (stop + 1) (count + 1) rest
          (.parameter key value stop :: later, error)
      else if valueMissing pair then ([.rejected key stop], some bizBaseInvalidUrl)
      else describe (stop + 1) count rest

/-- The scanner after this much of a pair. -/
structure Tracks (scanner : Scanner) (seen : Bytes) (idx : Nat) : Prop where
  place : scanner.key + seen.length = idx
  state : scanner.state = if equals ∈ seen then .value else .key
  keyLen : scanner.keyLen = (name equals seen).length
  valueLen : scanner.valueLen = (payload equals seen).length
  value : equals ∈ seen → scanner.value + (value equals seen).length = idx

theorem restart_tracks (scanner : Scanner) (idx : Nat) :
    Tracks (scanner.restart idx) [] (idx + 1) := by
  constructor <;> simp [Scanner.restart, name, payload]

theorem read_tracks (tracks : Tracks scanner seen idx) (c : UInt8) :
    Tracks (scanner.read idx c) (seen ++ [c]) (idx + 1) := by
  obtain ⟨place, state, keyLen, valueLen, pointer⟩ := tracks
  unfold Scanner.read
  by_cases separator : c = equals
  · subst separator
    rw [if_pos rfl]
    refine ⟨?_, by simp, ?_, ?_, ?_⟩
    · simp [← place, Nat.add_assoc]
    · rw [name_concat_sep, keyLen]
    · rw [payload_concat_sep, valueLen]
    · intro _
      rw [value_concat_sep]
      rfl
  · rw [if_neg separator, state]
    by_cases present : equals ∈ seen
    · simp only [if_pos present, reduceCtorEq, if_false]
      refine ⟨?_, by simp [present], ?_, ?_, ?_⟩
      · simp [← place, Nat.add_assoc]
      · rw [name_concat present, keyLen]
      · simp [payload_concat present separator, valueLen]
      · intro _
        simp [value_concat separator, ← pointer present, Nat.add_assoc]
    · have absent : equals ∉ seen ++ [c] := by simp [present, Ne.symm separator]
      simp only [if_neg present, if_true]
      refine ⟨?_, by simp [absent], ?_, ?_, ?_⟩
      · simp [← place, Nat.add_assoc]
      · rw [name_of_not_mem present] at keyLen
        simp [name_of_not_mem absent, keyLen]
      · rw [payload_of_not_mem absent, valueLen, payload_of_not_mem present]
      · intro member
        exact absurd member absent

/-- How a pair is closed. -/
inductive Closes (scanner : Scanner) (seen : Bytes) (idx : Nat) : Scanner × Option Int → Prop
  | parameter (whole : complete seen = true) (room : scanner.paramCount < MAX_QUERY_PARAMS) :
      Closes scanner seen idx
        ({ scanner with
            paramCount := scanner.paramCount + 1
            built := scanner.built ++ [.parameter ⟨scanner.key, (name equals seen).length⟩
              ⟨idx - (value equals seen).length, (payload equals seen).length⟩ idx] }, none)
  | tooMany (whole : complete seen = true) (full : MAX_QUERY_PARAMS ≤ scanner.paramCount) :
      Closes scanner seen idx
        ({ scanner with paramCount := scanner.paramCount + 1 }, some bizBaseTooManyQueryParams)
  | missing (incomplete : complete seen = false) (missing : valueMissing seen = true) :
      Closes scanner seen idx
        ({ scanner with
            built := scanner.built ++ [.rejected ⟨scanner.key, (name equals seen).length⟩ idx] },
          some bizBaseInvalidUrl)
  | nameless (incomplete : complete seen = false) (nameless : valueMissing seen = false) :
      Closes scanner seen idx (scanner, none)

theorem close_closes (tracks : Tracks scanner seen idx) :
    Closes scanner seen idx (scanner.close idx) := by
  obtain ⟨_, _, keyLen, valueLen, pointer⟩ := tracks
  have keyed : scanner.keyLen ≠ 0 ↔ name equals seen ≠ [] := by
    rw [keyLen, Ne, List.length_eq_zero_iff]
  have valueless : scanner.valueLen = 0 ↔ payload equals seen = [] := by
    rw [valueLen, List.length_eq_zero_iff]
  have valued := not_congr valueless
  unfold Scanner.close
  by_cases whole : scanner.keyLen ≠ 0 ∧ scanner.valueLen ≠ 0
  · have both : complete seen = true := decide_eq_true ⟨keyed.mp whole.1, valued.mp whole.2⟩
    have present : equals ∈ seen := by
      by_contra absent
      exact valued.mp whole.2 (payload_of_not_mem absent)
    have place : scanner.value = idx - (value equals seen).length := by
      have sum := pointer present
      omega
    simp only [if_pos whole]
    split
    · rename_i full
      exact .tooMany both (Nat.le_of_lt_succ full)
    · rename_i room
      have closes : Closes scanner seen idx _ :=
        .parameter both (Nat.lt_of_succ_le (Nat.le_of_not_lt room))
      rwa [← keyLen, ← valueLen, ← place] at closes
  · have incomplete : complete seen = false :=
      decide_eq_false fun both => whole ⟨keyed.mpr both.1, valued.mpr both.2⟩
    simp only [if_neg whole]
    split
    · rename_i missing
      have empty : valueMissing seen = true :=
        decide_eq_true ⟨keyed.mp missing.1, valueless.mp missing.2⟩
      have closes : Closes scanner seen idx _ := .missing incomplete empty
      rwa [← keyLen] at closes
    · rename_i other
      refine .nameless incomplete (decide_eq_false ?_)
      exact fun missing => other ⟨keyed.mpr missing.1, valueless.mpr missing.2⟩

theorem read_keeps (scanner : Scanner) (idx : Nat) (c : UInt8) :
    (scanner.read idx c).key = scanner.key ∧
      (scanner.read idx c).paramCount = scanner.paramCount ∧
      (scanner.read idx c).built = scanner.built := by
  unfold Scanner.read
  split
  · exact ⟨rfl, rfl, rfl⟩
  · split <;> exact ⟨rfl, rfl, rfl⟩

/-- From a scanner that is inside a pair the loop builds what is said of this pair and the
pairs after it. -/
theorem scan_describe (rest : Bytes) (tracks : Tracks scanner seen idx) (inside : ampersand ∉ seen) :
    (scan rest idx scanner).1.built = scanner.built ++
        (describe scanner.key scanner.paramCount ((seen ++ rest).splitOn ampersand)).1 ∧
      (scan rest idx scanner).2 =
        (describe scanner.key scanner.paramCount ((seen ++ rest).splitOn ampersand)).2 := by
  induction rest generalizing scanner seen idx with
  | nil =>
    have stop : scanner.key + seen.length = idx := tracks.place
    have closes := close_closes tracks
    rw [List.append_nil, List.splitOn_eq_singleton inside]
    simp only [scan, describe, stop]
    cases closed : scanner.close idx with
    | mk later error =>
      rw [closed] at closes
      cases closes with
      | parameter whole room => simp [whole, Nat.not_le_of_lt room]
      | tooMany whole full => simp [whole, full]
      | missing incomplete missing => simp [incomplete, missing]
      | nameless incomplete nameless => simp [incomplete, nameless]
  | cons c rest ih =>
    by_cases separator : c = ampersand
    · subst separator
      have stop : scanner.key + seen.length = idx := tracks.place
      have closes := close_closes tracks
      have further (closed : Scanner) := ih (restart_tracks closed idx) List.not_mem_nil
      rw [List.splitOn_append_cons_self_of_not_mem inside]
      simp only [scan, if_true, describe, stop]
      cases closed : scanner.close idx with
      | mk later error =>
        rw [closed] at closes
        cases closes with
        | parameter whole room =>
          simp only [whole, if_true, if_neg (Nat.not_le_of_lt room)]
          refine (further _).imp (fun built => built.trans ?_) id
          simp [Scanner.restart]
        | tooMany whole full => simp [whole, full]
        | missing incomplete missing => simp [incomplete, missing]
        | nameless incomplete nameless =>
          simp only [incomplete, nameless, Bool.false_eq_true, if_false]
          exact further scanner
    · obtain ⟨key, paramCount, built⟩ := read_keeps scanner idx c
      have further := ih (read_tracks tracks c) (by simp [inside, Ne.symm separator])
      rw [key, paramCount, built, List.append_assoc, List.singleton_append] at further
      rw [scan, if_neg separator]
      exact further

/-- The slices lie in the query, and the value ends where its pair does. -/
def Built.Inside (query : Bytes) : Built → Prop
  | .parameter key value closes =>
      key.stop ≤ query.length ∧ value.stop ≤ query.length ∧ value.stop ≤ closes
  | .rejected key _ => key.stop ≤ query.length

def SlicesInside (target : Bytes) : Prop :=
  ∀ built ∈ (scanTarget target).1.built, built.Inside (queryOf target)

/-- The pairs of which a value is built: those with a key and a value, as far as the first
pair whose value is missing, and no more than are allowed. -/
def parametersOf (room : Nat) (pairs : List Bytes) : List Bytes :=
  ((pairs.takeWhile (!valueMissing ·)).filter complete).take room

def parameters (query : Bytes) : List Bytes :=
  parametersOf MAX_QUERY_PARAMS (query.splitOn ampersand)

/-- No value that is built has an `=` in it, unless it is at its beginning. -/
def PlainValues (target : Bytes) : Prop :=
  target.length ≤ MAX_URL_LENGTH → ∀ pair ∈ parameters (queryOf target), Single equals pair

instance (target : Bytes) : Decidable (PlainValues target) :=
  inferInstanceAs (Decidable (_ → _))

variable {pair before : Bytes} {pairs : List Bytes}

theorem valueMissing_of_complete (whole : complete pair = true) : valueMissing pair = false := by
  simp only [complete, decide_eq_true_eq] at whole
  exact decide_eq_false fun missing => whole.2 missing.2

theorem parametersOf_full (full : MAX_QUERY_PARAMS ≤ count) (pairs : List Bytes) :
    parametersOf (MAX_QUERY_PARAMS - count) pairs = [] := by
  rw [parametersOf, Nat.sub_eq_zero_of_le full, List.take_zero]

theorem parametersOf_complete (whole : complete pair = true) (room : count < MAX_QUERY_PARAMS) :
    parametersOf (MAX_QUERY_PARAMS - count) (pair :: pairs) =
      pair :: parametersOf (MAX_QUERY_PARAMS - (count + 1)) pairs := by
  have slots : MAX_QUERY_PARAMS - count = MAX_QUERY_PARAMS - (count + 1) + 1 := by omega
  simp [parametersOf, slots, whole, valueMissing_of_complete whole]

theorem parametersOf_nameless (incomplete : complete pair = false) (nameless : valueMissing pair = false)
    (room : Nat) : parametersOf room (pair :: pairs) = parametersOf room pairs := by
  simp [parametersOf, incomplete, nameless]

theorem complete_present (whole : complete pair = true) : equals ∈ pair := by
  by_contra absent
  simp only [complete, decide_eq_true_eq] at whole
  exact whole.2 (payload_of_not_mem absent)

theorem pair_inside (whole : complete pair = true) {more : Bytes}
    (cut : query = before ++ pair ++ more) :
    Built.Inside query (.parameter ⟨before.length, (name equals pair).length⟩
      ⟨before.length + pair.length - (value equals pair).length, (payload equals pair).length⟩
      (before.length + pair.length)) ↔ Single equals pair := by
  have named : (name equals pair).length ≤ pair.length := (List.takeWhile_prefix _).length_le
  have valued : (value equals pair).length ≤ pair.length := (List.rtakeWhile_suffix _ _).length_le
  rw [← payload_length_le (complete_present whole)]
  subst query
  simp only [Built.Inside, Slice.stop, List.length_append]
  omega

/-- What follows a pair in the query: nothing, or an `&` first. -/
def AtEnd (more : Bytes) : Prop := more = [] ∨ more.head? = some ampersand

/-- The induction over the pairs of a query, each where it stands. -/
theorem pairs_induction {motive : Nat → List Bytes → Prop} (nil : ∀ start, motive start [])
    (cons : ∀ before pair more pairs, query = before ++ pair ++ more → ampersand ∉ pair → AtEnd more →
      motive (before.length + pair.length + 1) pairs → motive before.length (pair :: pairs)) :
    motive 0 (query.splitOn ampersand) := by
  suffices from_there : ∀ pairs before text, query = before ++ text → text.splitOn ampersand = pairs →
      motive before.length pairs from from_there _ [] query rfl rfl
  intro pairs
  induction pairs with
  | nil =>
    intro before text _ _
    exact nil _
  | cons pair pairs ih =>
    intro before text cut split
    obtain ⟨single, ⟨rfl, rfl⟩ | ⟨more, rfl, rfl⟩⟩ := splitOn_cases split
    · exact cons before text [] [] (by simp [cut]) single (.inl rfl) (nil _)
    · have later := ih (before ++ pair ++ [ampersand]) more (by simp [cut]) rfl
      refine cons before pair (ampersand :: more) _ (by simp [cut]) single (.inr rfl) ?_
      simpa [Nat.add_assoc] using later

/-- The strings belong to a pair of the query: it begins with its key, and is closed by the
next `&` or the end of the query. -/
def Built.Closed (query : Bytes) : Built → Prop
  | .parameter key _ closes | .rejected key closes =>
      ∃ before pair more, query = before ++ pair ++ more ∧ key.start = before.length ∧
        closes = before.length + pair.length ∧ ampersand ∉ pair ∧ AtEnd more

theorem describe_closed (query : Bytes) (count : Nat) :
    ∀ built ∈ (describe 0 count (query.splitOn ampersand)).1, built.Closed query := by
  revert count
  refine pairs_induction (motive := fun start pairs => ∀ count,
    ∀ built ∈ (describe start count pairs).1, built.Closed query) ?_ ?_
  · intro start count built member
    cases member
  · intro before pair more pairs cut single ends later count
    have closed : ∃ earlier text behind, query = earlier ++ text ++ behind ∧
        before.length = earlier.length ∧ before.length + pair.length = earlier.length + text.length ∧
        ampersand ∉ text ∧ AtEnd behind := ⟨before, pair, more, cut, rfl, rfl, single, ends⟩
    simp only [describe]
    split
    · split
      · simp
      · exact List.forall_mem_cons.mpr ⟨closed, later _⟩
    · split
      · exact List.forall_mem_cons.mpr ⟨closed, by simp⟩
      · exact later count

theorem describe_inside (query : Bytes) (count : Nat) :
    (∀ built ∈ (describe 0 count (query.splitOn ampersand)).1, built.Inside query) ↔
      ∀ pair ∈ parametersOf (MAX_QUERY_PARAMS - count) (query.splitOn ampersand), Single equals pair := by
  revert count
  refine pairs_induction (motive := fun start pairs => ∀ count,
    (∀ built ∈ (describe start count pairs).1, built.Inside query) ↔
      ∀ pair ∈ parametersOf (MAX_QUERY_PARAMS - count) pairs, Single equals pair) ?_ ?_
  · simp [describe, parametersOf]
  · intro before pair more pairs here _ _ later count
    cases whole : complete pair with
    | true =>
      by_cases full : MAX_QUERY_PARAMS ≤ count
      · rw [parametersOf_full full]
        simp [describe, whole, full]
      · simp only [describe, whole, if_true, if_neg full,
          parametersOf_complete whole (Nat.lt_of_not_le full), List.forall_mem_cons, later (count + 1),
          pair_inside whole here]
    | false =>
      cases missing : valueMissing pair with
      | true =>
        have named : (name equals pair).length ≤ pair.length := (List.takeWhile_prefix _).length_le
        have inside : Built.Inside query (.rejected ⟨before.length, (name equals pair).length⟩
            (before.length + pair.length)) := by
          simp only [Built.Inside, Slice.stop, here, List.length_append]
          omega
        simp [describe, whole, missing, parametersOf, inside]
      | false =>
        simp only [describe, whole, missing, Bool.false_eq_true, if_false,
          parametersOf_nameless whole missing]
        exact later count

theorem initial_tracks : Tracks .initial [] 0 := by
  constructor <;> simp [Scanner.initial, name, payload]

theorem scanTarget_describe {target : Bytes} (short : target.length ≤ MAX_URL_LENGTH) :
    (scanTarget target).1.built = (describe 0 0 ((queryOf target).splitOn ampersand)).1 ∧
      (scanTarget target).2 = (describe 0 0 ((queryOf target).splitOn ampersand)).2 := by
  unfold scanTarget
  rw [if_neg (Nat.not_lt_of_le short)]
  split
  · rename_i empty
    rw [empty]
    exact ⟨by decide, by decide⟩
  · exact scan_describe (queryOf target) initial_tracks List.not_mem_nil

theorem scanTarget_long {target : Bytes} (long : MAX_URL_LENGTH < target.length) :
    scanTarget target = (.initial, some bizBaseTooLongUrl) := if_pos long

theorem scanTarget_closed (target : Bytes) :
    ∀ built ∈ (scanTarget target).1.built, built.Closed (queryOf target) := by
  rcases Nat.lt_or_ge MAX_URL_LENGTH target.length with long | short
  · rw [scanTarget_long long]
    intro built member
    cases member
  · rw [(scanTarget_describe short).1]
    exact describe_closed (queryOf target) 0

/-- For every request target, whatever separators are in it: all strings are built of bytes
of the query, and each value ends where its pair does, exactly when no value that is built
has an `=` behind its first byte. -/
theorem slices_inside_iff (target : Bytes) : SlicesInside target ↔ PlainValues target := by
  unfold SlicesInside PlainValues
  rcases Nat.lt_or_ge MAX_URL_LENGTH target.length with long | short
  · rw [scanTarget_long long]
    simp [Scanner.initial, Nat.not_le_of_lt long]
  · rw [(scanTarget_describe short).1, describe_inside (queryOf target) 0]
    exact ⟨fun plain _ => plain, fun plain => plain short⟩

/-- A value in base64: its last `=` is the last byte of the target, and as many bytes as it
has before are read behind it. -/
theorem base64_value_overruns : ¬ ∀ target : Bytes, SlicesInside target := by
  intro inside
  have ends := inside (Bytes.ascii "/?t=YWI=") (.parameter ⟨0, 1⟩ ⟨6, 3⟩ 6) (by decide +kernel)
  exact absurd ends.2.1 (by decide)

/-- Within the query a slice reads what stands there, whatever memory holds behind it. -/
theorem read_within {beyond : Nat → UInt8} {text more : Bytes} (cut : query = before ++ text ++ more) :
    Slice.read query beyond ⟨before.length, text.length⟩ = text := by
  apply List.ext_getElem
  · simp [Slice.read]
  · intro i _ inside
    have place : query[before.length + i]? = some text[i] := by
      rw [cut, List.append_assoc, List.getElem?_append_right (Nat.le_add_right _ _),
        Nat.add_sub_cancel_left, List.getElem?_append_left inside, List.getElem?_eq_getElem inside]
    simp [Slice.read, List.getD_eq_getElem?_getD, place]

/-- What a pair contributes if its value is plain. -/
def assignPair (urlUnescape : Bytes → Bytes) (params : List (Bytes × Bytes)) (pair : Bytes) :
    List (Bytes × Bytes) :=
  assign (urlUnescape ((name equals pair).takeWhile (· ≠ 0)))
    (urlUnescape ((payload equals pair).takeWhile (· ≠ 0))) params

theorem insert_plain {urlUnescape : Bytes → Bytes} {beyond : Nat → UInt8} {more : Bytes}
    (whole : complete pair = true) (single : Single equals pair) (cut : query = before ++ pair ++ more)
    (params : List (Bytes × Bytes)) :
    insert urlUnescape (·.read query beyond) params (.parameter ⟨before.length, (name equals pair).length⟩
      ⟨before.length + pair.length - (value equals pair).length, (payload equals pair).length⟩
      (before.length + pair.length)) = assignPair urlUnescape params pair := by
  obtain ⟨behind, named⟩ : name equals pair <+: pair := List.takeWhile_prefix _
  obtain ⟨front, valued⟩ : value equals pair <:+ pair := List.rtakeWhile_suffix _ _
  have keyed : query = before ++ name equals pair ++ (behind ++ more) := by
    rw [cut, List.append_assoc before (name equals pair), ← List.append_assoc (name equals pair), named,
      List.append_assoc]
  have placed : query = before ++ front ++ value equals pair ++ more := by
    rw [cut, List.append_assoc before front, valued]
  have key : Slice.read query beyond ⟨before.length, (name equals pair).length⟩ = name equals pair :=
    read_within keyed
  have start : before.length + pair.length - (value equals pair).length = (before ++ front).length := by
    have lengths := congrArg List.length valued
    simp only [List.length_append] at lengths ⊢
    omega
  have string : Slice.read query beyond ⟨(before ++ front).length, (value equals pair).length⟩ =
      value equals pair := read_within placed
  simp only [insert, assignPair, key, start, single.payload_eq (complete_present whole), string]

theorem describe_plain (urlUnescape : Bytes → Bytes) (beyond : Nat → UInt8) (query : Bytes) (count : Nat)
    (params : List (Bytes × Bytes))
    (plain : ∀ pair ∈ parametersOf (MAX_QUERY_PARAMS - count) (query.splitOn ampersand),
      Single equals pair) :
    (describe 0 count (query.splitOn ampersand)).1.foldl (insert urlUnescape (·.read query beyond)) params =
      (parametersOf (MAX_QUERY_PARAMS - count) (query.splitOn ampersand)).foldl (assignPair urlUnescape)
        params := by
  revert count params
  refine pairs_induction (motive := fun start pairs => ∀ count params,
    (∀ pair ∈ parametersOf (MAX_QUERY_PARAMS - count) pairs, Single equals pair) →
      (describe start count pairs).1.foldl (insert urlUnescape (·.read query beyond)) params =
        (parametersOf (MAX_QUERY_PARAMS - count) pairs).foldl (assignPair urlUnescape) params) ?_ ?_
  · simp [describe, parametersOf]
  · intro before pair more pairs here _ _ later count params plain
    cases whole : complete pair with
    | true =>
      by_cases full : MAX_QUERY_PARAMS ≤ count
      · rw [parametersOf_full full]
        simp [describe, whole, full]
      · rw [parametersOf_complete whole (Nat.lt_of_not_le full)] at plain ⊢
        obtain ⟨single, others⟩ := List.forall_mem_cons.mp plain
        have further := later (count + 1) (assignPair urlUnescape params pair) others
        simp only [describe, whole, if_true, if_neg full, List.foldl_cons,
          insert_plain whole single here, further]
    | false =>
      cases missing : valueMissing pair with
      | true => simp [describe, whole, missing, parametersOf, insert]
      | false =>
        simp only [describe, whole, missing, Bool.false_eq_true, if_false,
          parametersOf_nameless whole missing] at plain ⊢
        exact later count params plain

/-- With plain values the answer is made of the names and values in the query, and does not
depend on what memory holds behind it. -/
theorem getQueryParams_plain (urlUnescape : Bytes → Bytes) (beyond : Nat → UInt8) (request : Request)
    (plain : PlainValues request.target) :
    request.getQueryParams urlUnescape beyond =
      match (scanTarget request.target).2 with
      | some error => .error error
      | none => .ok ((parameters (queryOf request.target)).foldl (assignPair urlUnescape) []) := by
  unfold Request.getQueryParams
  rcases Nat.lt_or_ge MAX_URL_LENGTH request.target.length with long | short
  · simp only [scanTarget_long long]
  · have read := describe_plain urlUnescape beyond (queryOf request.target) 0 [] (plain short)
    simp only [(scanTarget_describe short).1, read]
    rfl

end QueryParams

end Hku
