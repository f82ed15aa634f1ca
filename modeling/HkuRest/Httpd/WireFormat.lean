import HkuRest.Core.HeaderBlock
import HkuRest.Httpd.ResponseFraming

/-! Responses as bytes. The head of a response is written by Beast, or by `writeChunkSync` on its
own; a client reads status line, header fields and body, and finds the end of the body as the
fields tell it. -/

namespace Hku

open ChunkedCoding HeaderBlock

namespace Response

variable (reason : Nat → Bytes)

def statusLine (response : Response) : Bytes :=
  Bytes.ascii "HTTP/" ++ [Bytes.digit (response.version / 10)] ++ Bytes.ascii "." ++
    [Bytes.digit (response.version % 10)] ++ Bytes.ascii " " ++ Bytes.decimal response.status ++
    Bytes.ascii " " ++ reason response.status

/-- The head that Beast's serializer writes. -/
def head (response : Response) : Bytes := writeHeader (response.statusLine reason) response.fields

/-- The head that `writeChunkSync` puts together. -/
def headSync (response : Response) : Bytes :=
  Bytes.ascii "HTTP/1.1 " ++ Bytes.decimal response.status ++ Bytes.ascii " " ++
    reason response.status ++ crlf ++
    response.fields.flatMap (fun field => field.1 ++ Bytes.ascii ": " ++ field.2 ++ crlf) ++ crlf

theorem headSync_eq {response : Response} (version : response.version = 11) :
    response.headSync reason = response.head reason := by
  simp [headSync, head, statusLine, version, writeHeader, writeFields, fieldLine, Bytes.ascii,
    Bytes.digit]

end Response

/-- The bytes of an output. The head of a stream is written by one of two functions; a message is
one that gives the length of its body. -/
def Output.wire (reason : Nat → Bytes) (opening : Response → Bytes) : Output → Bytes
  | .header response => opening response
  | .raw bytes => bytes
  | .message response => response.head reason ++ response.body
  | .upgrade | .frame _ => []

def wire (reason : Nat → Bytes) (opening : Response → Bytes) (outputs : List Output) : Bytes :=
  outputs.flatMap (Output.wire reason opening)

/-- `writeChunk` or `writeChunkSync`, whichever comes first in a stream. -/
def Opens (reason : Nat → Bytes) (opening : Response → Bytes) : Prop :=
  ∀ response, opening response = response.head reason ∨ opening response = response.headSync reason

def decimalDigit (byte : UInt8) : Option Nat := (Bytes.digitValue byte).filter (· < 10)

def readDigits : Nat → Bytes → Option Nat
  | read, [] => some read
  | read, byte :: rest =>
      match decimalDigit byte with
      | some value => readDigits (10 * read + value) rest
      | none => none

def readNumber (text : Bytes) : Option Nat := if text = [] then none else readDigits 0 text

/-- The version and the status; any reason is good. -/
def readStatusLine (line : Bytes) : Option (Nat × Nat) :=
  match line with
  | 0x48 :: 0x54 :: 0x54 :: 0x50 :: 0x2f :: major :: 0x2e :: minor :: 0x20 :: rest => do
      let major ← decimalDigit major
      let minor ← decimalDigit minor
      let status ← readNumber (rest.takeWhile (· ≠ 0x20))
      if 0x20 ∈ rest ∧ 100 ≤ status ∧ status ≤ 999 then return (10 * major + minor, status)
      else none
  | _ => none

/-- Responses with these statuses have no body. -/
def bodiless (status : Nat) : Bool := status / 100 = 1 || status = 204 || status = 304

/-- The body in front of the input, and what follows it. A response that gives both a length and a
coding is refused, and so is one that gives neither: it would end with the connection. -/
def readBody (fields : Fields) (input : Bytes) : Option (Bytes × Bytes) :=
  match fields.find Field.transferEncoding, fields.find Field.contentLength with
  | some coding, none =>
      if coding.iequals (Bytes.ascii "chunked") then
        match decode input with
        | .complete data rest => some (data, rest)
        | _ => none
      else none
  | none, some length => do
      let size ← readNumber length
      if input.length < size then none else return (input.take size, input.drop size)
  | _, _ => none

def headMethod : Bytes := Bytes.ascii "HEAD"

/-- The response to a request with this method, and what follows it. -/
def readResponse (method input : Bytes) : Option (Response × Bytes) := do
  let (start, fields, rest) ← readHeader input
  let (version, status) ← readStatusLine start
  if method = headMethod ∨ bodiless status then return (⟨version, status, fields, []⟩, rest)
  else
    let (body, rest) ← readBody fields rest
    return (⟨version, status, fields, body⟩, rest)

/-- The responses to requests with these methods, and nothing else. -/
def readResponses : List Bytes → Bytes → Option (List Response)
  | [], input => if input = [] then some [] else none
  | method :: methods, input => do
      let (response, rest) ← readResponse method input
      let others ← readResponses methods rest
      return response :: others

theorem decimalDigit_digit : ∀ value < 10, decimalDigit (Bytes.digit value) = some value := by
  decide

theorem readDigits_digits {digits : List Nat} (small : ∀ d ∈ digits, d < 10) (read : Nat) :
    readDigits read (digits.map Bytes.digit) =
      some (digits.foldl (fun read d => 10 * read + d) read) := by
  induction digits generalizing read with
  | nil => rfl
  | cons d digits ih =>
    obtain ⟨smallHead, smallTail⟩ := List.forall_mem_cons.mp small
    have value := decimalDigit_digit d smallHead
    simpa [readDigits, value] using ih smallTail (10 * read + d)

theorem readNumber_decimal (value : Nat) : readNumber (Bytes.decimal value) = some value := by
  obtain ⟨digits, written, small, folded⟩ := Bytes.numeral_digits (by decide : 1 < 10) value
  have filled : Bytes.decimal value ≠ [] := Bytes.numeral_ne_nil 10 value
  rw [readNumber, if_neg filled, Bytes.decimal, written, readDigits_digits small, folded]

theorem digit_plain : ∀ value < 10,
    breaks (Bytes.digit value) = false ∧ Bytes.digit value ≠ 0 ∧ Bytes.digit value ≠ 0x20 ∧
      Bytes.blank (Bytes.digit value) = false := by
  decide

theorem mem_decimal {value : Nat} {byte : UInt8} (member : byte ∈ Bytes.decimal value) :
    breaks byte = false ∧ byte ≠ 0 ∧ byte ≠ 0x20 ∧ Bytes.blank byte = false := by
  obtain ⟨d, small, rfl⟩ := Bytes.mem_numeral (by decide) member
  exact digit_plain d small

/-- Version and status can be written in a status line. -/
structure Response.Presentable (response : Response) : Prop where
  version : response.version < 100
  status : 100 ≤ response.status ∧ response.status ≤ 999

/-- The response that the outputs convey, if its header is understood. -/
inductive Conveys : List Output → Response → Prop
  | whole (response : Response) : response.Presentable → response.Sized →
      (bodiless response.status = true → response.body = []) → Conveys [.message response] response
  | streamed (response : Response) (payloads : List Bytes) : response.Presentable →
      response.version = 11 → response.Chunked → bodiless response.status = false →
      (∀ data ∈ payloads, data ≠ []) →
      Conveys (.header response :: (payloads ++ [[]]).map fun data => .raw (chunk data))
        (response.setBody payloads.flatten)

variable {reason : Nat → Bytes} {opening : Response → Bytes} {response : Response}
  {method input rest : Bytes} {outputs : List Output}

theorem readStatusLine_statusLine (presentable : response.Presentable) :
    readStatusLine (response.statusLine reason) = some (response.version, response.status) := by
  have major := decimalDigit_digit (response.version / 10) (by have := presentable.version; omega)
  have minor := decimalDigit_digit (response.version % 10) (by omega)
  have shape : response.statusLine reason = 0x48 :: 0x54 :: 0x54 :: 0x50 :: 0x2f ::
      Bytes.digit (response.version / 10) :: 0x2e :: Bytes.digit (response.version % 10) :: 0x20 ::
      (Bytes.decimal response.status ++ 0x20 :: reason response.status) := by
    simp [Response.statusLine, Bytes.ascii]
  have digits : (Bytes.decimal response.status).all (· ≠ 0x20) = true := by
    rw [List.all_eq_true]
    intro byte member
    simpa using (mem_decimal member).2.2.1
  have code : (Bytes.decimal response.status ++ 0x20 :: reason response.status).takeWhile (· ≠ 0x20) =
      Bytes.decimal response.status :=
    Delimited.takeWhile_run digits rfl
  have spaced : 0x20 ∈ Bytes.decimal response.status ++ 0x20 :: reason response.status ∧
      100 ≤ response.status ∧ response.status ≤ 999 := by
    refine ⟨?_, presentable.status⟩
    simp
  rw [shape, readStatusLine]
  simp only [major, minor, code, readNumber_decimal, Option.bind_eq_bind, Option.bind_some,
    if_pos spaced]
  rw [Nat.div_add_mod]
  rfl

theorem statusLine_unbroken (unbroken : Unbroken (reason response.status))
    (version : response.version < 100) : Unbroken (response.statusLine reason) := by
  have digit {value : Nat} (small : value < 10) : Unbroken [Bytes.digit value] := by
    intro byte member
    rw [List.mem_singleton.mp member]
    exact (digit_plain value small).1
  have text {literal : String} (checked : (Bytes.ascii literal).all (!breaks ·) = true) :
      Unbroken (Bytes.ascii literal) := by
    intro byte member
    simpa using List.all_eq_true.mp checked byte member
  have code : Unbroken (Bytes.decimal response.status) := fun byte member => (mem_decimal member).1
  refine .append (.append (.append (.append (.append (.append (.append ?_ ?_) ?_) ?_) ?_) code) ?_)
    unbroken
  · exact text (by decide)
  · exact digit (by omega)
  · exact text (by decide)
  · exact digit (by omega)
  · exact text (by decide)
  · exact text (by decide)

theorem readHeader_head_iff (unbroken : Unbroken (reason response.status))
    (version : response.version < 100) :
    readHeader (response.head reason ++ rest) =
        some (response.statusLine reason, response.fields, rest) ↔
      ∀ field ∈ response.fields, Plain field := by
  rw [Response.head, readHeader_writeHeader_iff]
  exact and_iff_right (statusLine_unbroken unbroken version)

theorem readBody_sized (sized : response.Sized) :
    readBody response.fields (response.body ++ rest) = some (response.body, rest) := by
  obtain ⟨length, encoding⟩ := Prod.mk.inj sized
  have filled : ¬ (response.body ++ rest).length < response.body.length := by simp
  simp only [readBody, length, encoding, readNumber_decimal, Option.bind_eq_bind, Option.bind_some,
    if_neg filled]
  simp

theorem readBody_chunked (chunked : response.Chunked) {payloads : List Bytes}
    (filled : ∀ data ∈ payloads, data ≠ []) :
    readBody response.fields (payloads.flatMap chunk ++ (chunk [] ++ rest)) =
      some (payloads.flatten, rest) := by
  obtain ⟨length, encoding⟩ := Prod.mk.inj chunked
  have named : Bytes.iequals (Bytes.ascii "chunked") (Bytes.ascii "chunked") = true := by decide
  simp only [readBody, length, encoding, named, if_true, decode_complete payloads filled rest]

theorem readResponse_plain (read : readResponse method input = some (response, rest)) :
    ∀ field ∈ response.fields, Plain field := by
  obtain ⟨⟨start, fields, after⟩, headed, read⟩ := Option.bind_eq_some_iff.mp read
  obtain ⟨⟨version, status⟩, -, read⟩ := Option.bind_eq_some_iff.mp read
  have plain := readHeader_plain headed
  simp only at read
  split at read
  · cases read
    exact plain
  · obtain ⟨⟨body, left⟩, -, read⟩ := Option.bind_eq_some_iff.mp read
    cases read
    exact plain

theorem readResponse_head (unbroken : Unbroken (reason response.status))
    (presentable : response.Presentable) (plain : ∀ field ∈ response.fields, Plain field)
    (other : method ≠ headMethod) (bodied : bodiless response.status = false) {body : Bytes}
    (framed : readBody response.fields input = some (body, rest)) :
    readResponse method (response.head reason ++ input) = some (response.setBody body, rest) := by
  have headed : readHeader (response.head reason ++ input) =
      some (response.statusLine reason, response.fields, input) :=
    (readHeader_head_iff unbroken presentable.version).mpr plain
  have started := @readStatusLine_statusLine reason response presentable
  have expects : ¬ (method = headMethod ∨ bodiless response.status = true) := by simp [other, bodied]
  simp only [readResponse, headed, started, framed, Option.bind_eq_bind, Option.bind_some, expects,
    if_false]
  rfl

theorem readResponse_bodiless (unbroken : Unbroken (reason response.status))
    (presentable : response.Presentable) (plain : ∀ field ∈ response.fields, Plain field)
    (bare : bodiless response.status = true) :
    readResponse method (response.head reason ++ rest) = some (response.setBody [], rest) := by
  have headed : readHeader (response.head reason ++ rest) =
      some (response.statusLine reason, response.fields, rest) :=
    (readHeader_head_iff unbroken presentable.version).mpr plain
  have started := @readStatusLine_statusLine reason response presentable
  have ends : method = headMethod ∨ bodiless response.status = true := .inr bare
  simp only [readResponse, headed, started, Option.bind_eq_bind, Option.bind_some, ends, if_true]
  rfl

/-- What outputs convey is what a client reads, exactly if no header field could be taken for
something else. -/
theorem Conveys.reads_back_iff (conveys : Conveys outputs response) (opens : Opens reason opening)
    (unbroken : Unbroken (reason response.status)) (other : method ≠ headMethod) :
    readResponse method (wire reason opening outputs ++ rest) = some (response, rest) ↔
      ∀ field ∈ response.fields, Plain field := by
  refine ⟨readResponse_plain, fun plain => ?_⟩
  cases conveys with
  | whole response presentable sized bare =>
    have written : wire reason opening [.message response] ++ rest =
        response.head reason ++ (response.body ++ rest) := by
      simp [wire, Output.wire]
    rw [written]
    cases bodied : bodiless response.status with
    | true =>
      have empty := bare bodied
      have same : response.setBody [] = response := by rw [← empty]; rfl
      rw [empty, List.nil_append, readResponse_bodiless unbroken presentable plain bodied, same]
    | false => exact readResponse_head unbroken presentable plain other bodied (readBody_sized sized)
  | streamed response payloads presentable version chunked bodied filled =>
    have opened : opening response = response.head reason := by
      rcases opens response with same | sync
      · exact same
      · rw [sync, Response.headSync_eq reason version]
    have written : wire reason opening
          (.header response :: (payloads ++ [[]]).map fun data => .raw (chunk data)) ++ rest =
        response.head reason ++ (payloads.flatMap chunk ++ (chunk [] ++ rest)) := by
      simp [wire, Output.wire, opened, List.flatMap_map]
    have told : Unbroken (reason response.status) := unbroken
    rw [written]
    exact readResponse_head told presentable plain other bodied (readBody_chunked chunked filled)

/-- A response is read as it was written, and what follows it is left, exactly if no header field
could be taken for something else. It does not matter which function wrote the head. -/
theorem response_reads_back_iff (conveys : Conveys outputs response) (opens : Opens reason opening)
    (unbroken : Unbroken (reason response.status)) (other : method ≠ headMethod) (rest : Bytes) :
    readResponse method (wire reason opening outputs ++ rest) = some (response, rest) ↔
      ∀ field ∈ response.fields, Plain field :=
  conveys.reads_back_iff opens unbroken other

/-- A streamed response whose handler has set this field. -/
def announced (name value : Bytes) : Response :=
  ⟨11, 200, [(Field.transferEncoding, Bytes.ascii "chunked"), (name, value)], []⟩

theorem response_reads_back_iff_split :
    readResponse (Bytes.ascii "GET") (wire (fun _ => Bytes.ascii "OK")
        (Response.headSync fun _ => Bytes.ascii "OK")
        (.header (announced (Bytes.ascii "X") (Bytes.ascii "1\r\nY: 2")) ::
          ([Bytes.ascii "data"] ++ [[]]).map fun data => .raw (chunk data)) ++ []) =
        some ((announced (Bytes.ascii "X") (Bytes.ascii "1\r\nY: 2")).setBody
          [Bytes.ascii "data"].flatten, []) ↔
      ∀ field ∈ (announced (Bytes.ascii "X") (Bytes.ascii "1\r\nY: 2")).fields, Plain field :=
  response_reads_back_iff
    (.streamed (announced (Bytes.ascii "X") (Bytes.ascii "1\r\nY: 2")) [Bytes.ascii "data"]
      ⟨by decide, by decide⟩ rfl rfl (by decide) (by decide))
    (fun _ => .inr rfl) (by decide) (by decide) []

end Hku
