import HkuRest.Core.Bytes

/-! The chunked transfer coding of HTTP/1.1: a body is a sequence of chunks, each
its size in hexadecimal, a line break, the data and a line break; a chunk of size
zero ends it. Decoding inverts encoding, chunk by chunk. -/

namespace ChunkedCoding

def crlf : Bytes := [Bytes.cr, Bytes.lf]

def chunk (data : Bytes) : Bytes := Bytes.hex data.length ++ crlf ++ data ++ crlf

/-- The hexadecimal number in front of the input, and what follows it. -/
def readSize (read : Nat) : Bytes → Nat × Bytes
  | [] => (read, [])
  | byte :: rest =>
      match Bytes.digitValue byte with
      | some value => readSize (16 * read + value) rest
      | none => (read, byte :: rest)

/-- A line break in front of the input is taken off. -/
def readBreak (input : Bytes) : Option Bytes :=
  if input.take 2 = crlf then some (input.drop 2) else none

/-- One chunk in front of the input, and what follows it. -/
def readChunk (input : Bytes) : Option (Bytes × Bytes) := do
  let first ← input.head?
  let _ ← Bytes.digitValue first
  let (size, sized) := readSize 0 input
  let body ← readBreak sized
  if body.length < size then none
  else do
    let rest ← readBreak (body.drop size)
    return (body.take size, rest)

/-- What a body reads as: ended by its last chunk, with the input left over; cut
off after whole chunks; or no body. -/
inductive Body
  | complete (data rest : Bytes)
  | unfinished (data : Bytes)
  | malformed
  deriving DecidableEq, Repr

/-- The fuel bounds the number of chunks. -/
def decodeFrom : Nat → Bytes → Bytes → Body
  | 0, _, _ => .malformed
  | _ + 1, read, [] => .unfinished read
  | fuel + 1, read, byte :: input =>
      match readChunk (byte :: input) with
      | none => .malformed
      | some ([], rest) => .complete read rest
      | some (first :: data, rest) => decodeFrom fuel (read ++ first :: data) rest

def decode (input : Bytes) : Body := decodeFrom (input.length + 1) [] input

theorem digit_ne_cr : Bytes.digitValue Bytes.cr = none := by decide

theorem readSize_digits (digits : List Nat) (small : ∀ d ∈ digits, d < 16) (read : Nat)
    (rest : Bytes) :
    readSize read (digits.map Bytes.digit ++ Bytes.cr :: rest) =
      (digits.foldl (fun read d => 16 * read + d) read, Bytes.cr :: rest) := by
  induction digits generalizing read with
  | nil => simp [readSize, digit_ne_cr]
  | cons d digits ih =>
    obtain ⟨smallHead, smallTail⟩ := List.forall_mem_cons.mp small
    have value := Bytes.digitValue_digit d smallHead
    have tail := ih smallTail (16 * read + d)
    simpa [readSize, value] using tail

theorem readSize_hex (size : Nat) (rest : Bytes) :
    readSize 0 (Bytes.hex size ++ Bytes.cr :: rest) = (size, Bytes.cr :: rest) := by
  obtain ⟨digits, image, small, folded⟩ := Bytes.numeral_digits (by decide : 1 < 16) size
  rw [Bytes.hex, image, readSize_digits digits small, folded]

theorem hex_head (size : Nat) :
    ∃ first rest value, Bytes.hex size = first :: rest ∧ Bytes.digitValue first = some value := by
  obtain ⟨digits, image, small, _⟩ := Bytes.numeral_digits (by decide : 1 < 16) size
  have filled := Bytes.numeral_ne_nil 16 size
  cases digits with
  | nil => exact absurd image filled
  | cons d digits =>
    exact ⟨_, _, d, image, Bytes.digitValue_digit d (small d List.mem_cons_self)⟩

@[simp] theorem readBreak_crlf (rest : Bytes) : readBreak (crlf ++ rest) = some rest := rfl

theorem readChunk_chunk (data rest : Bytes) : readChunk (chunk data ++ rest) = some (data, rest) := by
  obtain ⟨first, tail, value, hex, digit⟩ := hex_head data.length
  have front : (chunk data ++ rest).head? = some first := by simp [chunk, hex]
  have shape : chunk data ++ rest =
      Bytes.hex data.length ++ Bytes.cr :: (Bytes.lf :: (data ++ (crlf ++ rest))) := by
    simp [chunk, crlf]
  have sized : readSize 0 (chunk data ++ rest) =
      (data.length, crlf ++ (data ++ (crlf ++ rest))) := by
    rw [shape, readSize_hex]
    rfl
  simp [readChunk, front, digit, sized]

theorem chunk_ne_nil (data : Bytes) : chunk data ≠ [] := by
  simp [chunk, crlf]

theorem decodeFrom_chunk (fuel : Nat) (read data rest : Bytes) :
    decodeFrom (fuel + 1) read (chunk data ++ rest) =
      if data = [] then .complete read rest else decodeFrom fuel (read ++ data) rest := by
  have parsed := readChunk_chunk data rest
  cases shape : chunk data ++ rest with
  | nil => exact absurd (List.append_eq_nil_iff.mp shape).1 (chunk_ne_nil data)
  | cons byte input =>
    rw [shape] at parsed
    cases data with
    | nil => simp [decodeFrom, parsed]
    | cons first data => simp [decodeFrom, parsed]

theorem decodeFrom_chunks (fuel : Nat) (read rest : Bytes) (payloads : List Bytes)
    (filled : ∀ data ∈ payloads, data ≠ []) :
    decodeFrom (payloads.length + fuel) read (payloads.flatMap chunk ++ rest) =
      decodeFrom fuel (read ++ payloads.flatten) rest := by
  induction payloads generalizing read with
  | nil => simp
  | cons data payloads ih =>
    obtain ⟨filledHead, filledTail⟩ := List.forall_mem_cons.mp filled
    have tail := ih (read ++ data) filledTail
    have length : (data :: payloads).length + fuel = payloads.length + fuel + 1 := by
      simp
      omega
    rw [length, List.flatMap_cons, List.append_assoc, decodeFrom_chunk,
      if_neg filledHead, tail]
    simp

theorem length_le_flatMap (payloads : List Bytes) :
    payloads.length ≤ (payloads.flatMap chunk).length := by
  induction payloads with
  | nil => exact le_refl 0
  | cons data payloads ih =>
    have some := List.length_pos_iff.mpr (chunk_ne_nil data)
    simp only [List.flatMap_cons, List.length_append, List.length_cons]
    omega

theorem decode_unfinished (payloads : List Bytes) (filled : ∀ data ∈ payloads, data ≠ []) :
    decode (payloads.flatMap chunk) = .unfinished payloads.flatten := by
  have room := length_le_flatMap payloads
  obtain ⟨spare, fuel⟩ := Nat.exists_eq_add_of_le room
  have decoded := decodeFrom_chunks (spare + 1) [] [] payloads filled
  rw [List.append_nil] at decoded
  rw [decode, fuel, Nat.add_assoc, decoded]
  rfl

/-- The body ends at its first empty chunk, whatever follows. -/
theorem decode_complete (payloads : List Bytes) (filled : ∀ data ∈ payloads, data ≠ [])
    (rest : Bytes) :
    decode (payloads.flatMap chunk ++ (chunk [] ++ rest)) = .complete payloads.flatten rest := by
  have room := length_le_flatMap payloads
  have length : (payloads.flatMap chunk ++ (chunk [] ++ rest)).length + 1 =
      payloads.length + (((payloads.flatMap chunk).length - payloads.length +
        (chunk [] ++ rest).length) + 1) := by
    simp only [List.length_append]
    omega
  rw [decode, length, decodeFrom_chunks _ _ _ _ filled, decodeFrom_chunk, if_pos rfl]
  rfl

/-- A sequence of chunks is one whole body exactly if its last chunk, and no other,
is empty. -/
theorem decode_chunks_complete_iff (payloads : List Bytes) :
    (∃ data, decode (payloads.flatMap chunk) = .complete data []) ↔
      ∃ filled, payloads = filled ++ [[]] ∧ ∀ data ∈ filled, data ≠ [] := by
  constructor
  · rintro ⟨data, decoded⟩
    by_cases filled : ∀ data ∈ payloads, data ≠ []
    · rw [decode_unfinished payloads filled] at decoded
      cases decoded
    · simp only [ne_eq, not_forall, not_not] at filled
      obtain ⟨empty, member, rfl⟩ := filled
      obtain ⟨front, back, rfl, nonempty⟩ := List.eq_append_cons_of_mem member
      have nonempty : ∀ data ∈ front, data ≠ [] :=
        fun data member same => nonempty (same ▸ member)
      rw [List.flatMap_append, List.flatMap_cons, decode_complete front nonempty] at decoded
      obtain ⟨-, left⟩ := Body.complete.inj decoded
      cases back with
      | nil => exact ⟨front, rfl, nonempty⟩
      | cons data back =>
        exact absurd (List.append_eq_nil_iff.mp left).1 (chunk_ne_nil data)
  · rintro ⟨filled, rfl, nonempty⟩
    refine ⟨filled.flatten, ?_⟩
    have decoded := decode_complete filled nonempty []
    simpa using decoded

end ChunkedCoding
