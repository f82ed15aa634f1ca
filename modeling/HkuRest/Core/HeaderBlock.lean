import HkuRest.Core.ChunkedCoding
import HkuRest.Core.Trimming

/-! The header of an HTTP/1.1 message: a start line, a line for each field, and an empty line.
The recipient is strict: a carriage return or line feed is part of a line break or an error. What
was written reads back exactly if no name or value could be taken for something else. -/

namespace HeaderBlock

open ChunkedCoding

def colon : UInt8 := 0x3a

def breaks (byte : UInt8) : Bool := byte = Bytes.cr || byte = Bytes.lf

/-- A character of a token, such as a field name. -/
def tokenByte (byte : UInt8) : Bool :=
  (0x30 ≤ byte && byte ≤ 0x39) || (0x41 ≤ byte && byte ≤ 0x5a) || (0x61 ≤ byte && byte ≤ 0x7a) ||
    byte ∈ Bytes.ascii "!#$%&'*+-.^_`|~"

/-- The line in front of the input, and what follows it. -/
def readLine (input : Bytes) : Option (Bytes × Bytes) :=
  (readBreak (input.dropWhile (!breaks ·))).map (input.takeWhile (!breaks ·), ·)

def Unbroken (line : Bytes) : Prop := ∀ byte ∈ line, breaks byte = false

instance (line : Bytes) : Decidable (Unbroken line) :=
  decidable_of_iff (line.all (!breaks ·) = true) (by simp [Unbroken])

theorem Unbroken.append {left right : Bytes} (one : Unbroken left) (two : Unbroken right) :
    Unbroken (left ++ right) :=
  List.forall_mem_append.mpr ⟨one, two⟩

theorem readBreak_iff {input rest : Bytes} : readBreak input = some rest ↔ input = crlf ++ rest := by
  constructor
  · intro read
    unfold readBreak at read
    split at read
    · rename_i broken
      rw [← Option.some.inj read, ← broken, List.take_append_drop]
    · cases read
  · rintro rfl
    exact readBreak_crlf rest

theorem readLine_iff {input line rest : Bytes} :
    readLine input = some (line, rest) ↔ input = line ++ (crlf ++ rest) ∧ Unbroken line := by
  constructor
  · intro read
    obtain ⟨after, broken, same⟩ := Option.map_eq_some_iff.mp read
    obtain ⟨rfl, rfl⟩ := Prod.mk.inj same
    refine ⟨?_, ?_⟩
    · rw [← readBreak_iff.mp broken, List.takeWhile_append_dropWhile]
    · intro byte member
      simpa using List.mem_takeWhile_imp member
  · rintro ⟨rfl, unbroken⟩
    have free : ∀ byte ∈ line, (!breaks byte) = true := fun byte member => by simp [unbroken byte member]
    have stops : (crlf ++ rest).takeWhile (!breaks ·) = [] := rfl
    have kept : (crlf ++ rest).dropWhile (!breaks ·) = crlf ++ rest := rfl
    rw [readLine, List.takeWhile_append_of_pos free, List.dropWhile_append_of_pos free, stops, kept,
      readBreak_crlf, List.append_nil]
    rfl

/-- A value without blanks around it, that breaks no line. -/
structure PlainValue (value : Bytes) : Prop where
  trimmed : value.trim = value
  unbroken : Unbroken value
  printable : 0 ∉ value

/-- A name of token characters, and such a value. -/
structure Plain (field : Bytes × Bytes) : Prop where
  named : field.1 ≠ []
  token : ∀ byte ∈ field.1, tokenByte byte = true
  value : PlainValue field.2

instance (value : Bytes) : Decidable (PlainValue value) :=
  decidable_of_iff
    (value.trim = value ∧ Unbroken value ∧ value.all (· ≠ 0) = true)
    ⟨fun ⟨trimmed, unbroken, printable⟩ => ⟨trimmed, unbroken,
        fun member => by simpa using List.all_eq_true.mp printable 0 member⟩,
      fun plain => ⟨plain.trimmed, plain.unbroken, List.all_eq_true.mpr fun byte member => by
        simpa using ne_of_mem_of_not_mem member plain.printable⟩⟩

instance (field : Bytes × Bytes) : Decidable (Plain field) :=
  decidable_of_iff (field.1 ≠ [] ∧ field.1.all tokenByte = true ∧ PlainValue field.2)
    ⟨fun ⟨named, token, value⟩ => ⟨named, List.all_eq_true.mp token, value⟩,
      fun plain => ⟨plain.named, List.all_eq_true.mpr plain.token, plain.value⟩⟩

def fieldLine (field : Bytes × Bytes) : Bytes := field.1 ++ Bytes.ascii ": " ++ field.2

def readField (line : Bytes) : Option (Bytes × Bytes) :=
  let name := line.takeWhile (· ≠ colon)
  match line.dropWhile (· ≠ colon) with
  | [] => none
  | _ :: value =>
      if name ≠ [] ∧ name.all tokenByte ∧ 0 ∉ value then some (name, Bytes.trim value) else none

variable {field : Bytes × Bytes} {fields : List (Bytes × Bytes)} {line rest input : Bytes}

theorem tokenByte_spec {byte : UInt8} (token : tokenByte byte = true) :
    byte ≠ colon ∧ breaks byte = false := by
  refine ⟨?_, ?_⟩
  · rintro rfl
    exact absurd token (by decide)
  · by_contra broken
    simp only [breaks, Bool.or_eq_false_iff, not_and_or, decide_eq_false_iff_not, not_not] at broken
    obtain rfl | rfl := broken
    · exact absurd token (by decide)
    · exact absurd token (by decide)

theorem trim_unbroken {value : Bytes} (unbroken : Unbroken value) : Unbroken value.trim :=
  fun byte member => unbroken byte ((Bytes.trim_sublist value).subset member)

theorem trim_blank (value : Bytes) : Bytes.trim (0x20 :: value) = Bytes.trim value := by
  rw [Bytes.trim_eq, Bytes.trim_eq, List.dropWhile_cons_of_pos (by decide)]

theorem readField_fieldLine (plain : Plain field) : readField (fieldLine field) = some field := by
  have before : ∀ byte ∈ field.1, decide (byte ≠ colon) = true := by
    intro byte member
    simpa using (tokenByte_spec (plain.token byte member)).1
  have shape : fieldLine field = field.1 ++ colon :: 0x20 :: field.2 := by
    rw [fieldLine, List.append_assoc]
    rfl
  have stops : (colon :: 0x20 :: field.2).takeWhile (· ≠ colon) = [] := rfl
  have kept : (colon :: 0x20 :: field.2).dropWhile (· ≠ colon) = colon :: 0x20 :: field.2 := rfl
  have printable : (0 : UInt8) ∉ 0x20 :: field.2 := by
    simpa using plain.value.printable
  have accepted : field.1 ≠ [] ∧ field.1.all tokenByte = true ∧ (0 : UInt8) ∉ 0x20 :: field.2 :=
    ⟨plain.named, List.all_eq_true.mpr plain.token, printable⟩
  rw [readField, shape, List.takeWhile_append_of_pos before, List.dropWhile_append_of_pos before,
    stops, kept, List.append_nil]
  simp only
  rw [if_pos accepted, trim_blank, plain.value.trimmed]

theorem readField_plain (unbroken : Unbroken line) (read : readField line = some field) :
    Plain field := by
  have joined := List.takeWhile_append_dropWhile (p := (· ≠ colon)) (l := line)
  unfold readField at read
  simp only at read
  split at read
  · cases read
  · rename_i first value parted
    split at read
    · rename_i accepted
      obtain ⟨named, token, printable⟩ := accepted
      obtain rfl := Option.some.inj read
      have valued : Unbroken value := by
        intro byte member
        apply unbroken byte
        rw [← joined, parted]
        exact List.mem_append_right _ (List.mem_cons_of_mem _ member)
      refine ⟨named, List.all_eq_true.mp token, Bytes.trim_trim value, trim_unbroken valued, ?_⟩
      exact fun member => printable ((Bytes.trim_sublist value).subset member)
    · cases read

theorem fieldLine_unbroken (plain : Plain field) : Unbroken (fieldLine field) := by
  have named : Unbroken field.1 :=
    fun byte member => (tokenByte_spec (plain.token byte member)).2
  have between : Unbroken (Bytes.ascii ": ") := by decide
  exact (named.append between).append plain.value.unbroken

theorem PlainValue.trim {value : Bytes} (plain : PlainValue value) : PlainValue value.trim := by
  rwa [plain.trimmed]

theorem PlainValue.append {left middle right : Bytes} (first : PlainValue left) (begun : left ≠ [])
    (last : PlainValue right) (ended : right ≠ []) (between : Unbroken middle) (printable : 0 ∉ middle) :
    PlainValue (left ++ (middle ++ right)) := by
  refine ⟨Bytes.trim_append middle first.trimmed begun last.trimmed ended,
    first.unbroken.append (between.append last.unbroken), ?_⟩
  simp only [List.mem_append, not_or]
  exact ⟨first.printable, printable, last.printable⟩

theorem PlainValue.intercalate {separator : Bytes} {values : List Bytes}
    (plain : ∀ value ∈ values, PlainValue value ∧ value ≠ []) (between : Unbroken separator)
    (printable : 0 ∉ separator) : PlainValue (separator.intercalate values) := by
  have whole : values ≠ [] → PlainValue (separator.intercalate values) ∧
      separator.intercalate values ≠ [] := by
    induction values with
    | nil => exact fun empty => absurd rfl empty
    | cons value values ih =>
      intro _
      obtain ⟨⟨first, begun⟩, others⟩ := List.forall_mem_cons.mp plain
      cases values with
      | nil => simpa using ⟨first, begun⟩
      | cons next values =>
        obtain ⟨last, ended⟩ := ih others (List.cons_ne_nil _ _)
        rw [List.intercalate_cons_cons]
        have joined := first.append begun last ended between printable
        refine ⟨by simpa using joined, ?_⟩
        simp [begun]
  cases values with
  | nil => exact ⟨rfl, by simp [Unbroken], by simp⟩
  | cons value values => exact (whole (List.cons_ne_nil _ _)).1

/-- The fuel bounds the number of lines. -/
def readFields : Nat → Bytes → Option (List (Bytes × Bytes) × Bytes)
  | 0, _ => none
  | fuel + 1, input => do
      let (line, rest) ← readLine input
      if line = [] then return ([], rest)
      else
        let field ← readField line
        let (fields, rest) ← readFields fuel rest
        return (field :: fields, rest)

/-- The start line, the fields, and what follows the header. -/
def readHeader (input : Bytes) : Option (Bytes × List (Bytes × Bytes) × Bytes) := do
  let (start, block) ← readLine input
  let (fields, rest) ← readFields (block.length + 1) block
  return (start, fields, rest)

def writeFields (fields : List (Bytes × Bytes)) : Bytes :=
  fields.flatMap (fun field => fieldLine field ++ crlf) ++ crlf

def writeHeader (start : Bytes) (fields : List (Bytes × Bytes)) : Bytes :=
  start ++ crlf ++ writeFields fields

theorem readFields_writeFields (plain : ∀ field ∈ fields, Plain field) (spare : Nat) (rest : Bytes) :
    readFields (fields.length + spare + 1) (writeFields fields ++ rest) = some (fields, rest) := by
  induction fields with
  | nil =>
    have line : readLine (writeFields [] ++ rest) = some ([], rest) :=
      readLine_iff.mpr ⟨rfl, by simp [Unbroken]⟩
    simp [readFields, line]
  | cons field fields ih =>
    obtain ⟨plainHead, plainTail⟩ := List.forall_mem_cons.mp plain
    have line : readLine (writeFields (field :: fields) ++ rest) =
        some (fieldLine field, writeFields fields ++ rest) := by
      refine readLine_iff.mpr ⟨?_, fieldLine_unbroken plainHead⟩
      simp [writeFields]
    have filled : fieldLine field ≠ [] := by simp [fieldLine, plainHead.named]
    have fuel : (field :: fields).length + spare + 1 = (fields.length + spare + 1) + 1 := by
      rw [List.length_cons]
      omega
    rw [fuel, readFields, line]
    simp [filled, readField_fieldLine plainHead, ih plainTail]

theorem readFields_plain {fuel : Nat} (read : readFields fuel input = some (fields, rest)) :
    ∀ field ∈ fields, Plain field := by
  induction fuel generalizing input fields rest with
  | zero => cases read
  | succ fuel ih =>
    cases lined : readLine input with
    | none => simp [readFields, lined] at read
    | some split =>
      obtain ⟨line, after⟩ := split
      simp only [readFields, lined, Option.bind_eq_bind, Option.bind_some] at read
      split at read
      · cases read
        simp
      · obtain ⟨first, parsed, read⟩ := Option.bind_eq_some_iff.mp read
        obtain ⟨⟨others, left⟩, tail, read⟩ := Option.bind_eq_some_iff.mp read
        cases read
        exact List.forall_mem_cons.mpr
          ⟨readField_plain (readLine_iff.mp lined).2 parsed, ih tail⟩

theorem length_le_writeFields (fields : List (Bytes × Bytes)) :
    fields.length ≤ (writeFields fields).length := by
  have lines : fields.length ≤
      (fields.flatMap fun field => fieldLine field ++ crlf).length := by
    induction fields with
    | nil => exact le_refl 0
    | cons field fields ih =>
      have ended : crlf.length = 2 := rfl
      simp only [List.flatMap_cons, List.length_append, List.length_cons, ended] at ih ⊢
      omega
  rw [writeFields, List.length_append]
  omega

theorem readHeader_plain {start : Bytes} (read : readHeader input = some (start, fields, rest)) :
    ∀ field ∈ fields, Plain field := by
  obtain ⟨⟨first, block⟩, lined, read⟩ := Option.bind_eq_some_iff.mp read
  obtain ⟨⟨others, left⟩, tail, read⟩ := Option.bind_eq_some_iff.mp read
  cases read
  exact readFields_plain tail

/-- A header reads back exactly if its start line is one line and its fields are plain. -/
theorem readHeader_writeHeader_iff {start : Bytes} :
    readHeader (writeHeader start fields ++ rest) = some (start, fields, rest) ↔
      Unbroken start ∧ ∀ field ∈ fields, Plain field := by
  constructor
  · intro read
    refine ⟨?_, readHeader_plain read⟩
    obtain ⟨⟨first, block⟩, lined, read⟩ := Option.bind_eq_some_iff.mp read
    obtain ⟨⟨others, left⟩, -, read⟩ := Option.bind_eq_some_iff.mp read
    cases read
    exact (readLine_iff.mp lined).2
  · rintro ⟨unbroken, plain⟩
    have lined : readLine (writeHeader start fields ++ rest) =
        some (start, writeFields fields ++ rest) :=
      readLine_iff.mpr ⟨by simp [writeHeader], unbroken⟩
    obtain ⟨spare, room⟩ := Nat.exists_eq_add_of_le (length_le_writeFields fields)
    have fuel : (writeFields fields ++ rest).length + 1 =
        fields.length + (spare + rest.length) + 1 := by
      rw [List.length_append, room]
      omega
    rw [readHeader, lined]
    simp only [Option.bind_eq_bind, Option.bind_some, fuel,
      readFields_writeFields plain (spare + rest.length) rest]
    rfl

end HeaderBlock
