import HkuRest.Core.Trimming

/-! The parts of Boost.Beast's HTTP messages that the server uses: header fields
with case-insensitive names, requests and responses with string bodies, and the
documented behaviour of `set`, `keep_alive` and `prepare_payload`. -/

namespace Hku

abbrev Fields := List (Bytes × Bytes)

namespace Fields

def find (fields : Fields) (name : Bytes) : Option Bytes :=
  (List.find? (fun field => field.1.iequals name) fields).map Prod.snd

/-- `fields[name]`: empty when the field is absent. -/
def get (fields : Fields) (name : Bytes) : Bytes := (fields.find name).getD []

def erase (fields : Fields) (name : Bytes) : Fields :=
  List.filter (fun field => !field.1.iequals name) fields

/-- The field replaces every other instance of its name; blanks around its value are taken off. -/
def set (fields : Fields) (name value : Bytes) : Fields := fields.erase name ++ [(name, value.trim)]

/-- A value that came out empty erases the field. -/
def setOrErase (fields : Fields) (name value : Bytes) : Fields :=
  if value = [] then fields.erase name else fields.set name value

/-- The tokens of a comma-separated list, without blanks around them. -/
def tokens (value : Bytes) : List Bytes :=
  ((List.splitOn 0x2c value).map Bytes.trim).filter (· ≠ [])

def hasToken (value token : Bytes) : Bool := (tokens value).any fun t => t.iequals token

def joinTokens (list : List Bytes) : Bytes := (Bytes.ascii ", ").intercalate list

theorem find_erase_of_ne (fields : Fields) {name other : Bytes}
    (differs : name.iequals other = false) : (fields.erase name).find other = fields.find other := by
  have distinct : name.toLower ≠ other.toLower := by simpa [Bytes.iequals] using differs
  rw [find, erase, List.find?_filter, find]
  congr 2
  funext field
  by_cases wanted : field.1.toLower = other.toLower
  · simp [Bytes.iequals, wanted, Ne.symm distinct]
  · simp [Bytes.iequals, wanted]

theorem find_set_of_ne (fields : Fields) {name other : Bytes} (value : Bytes)
    (differs : name.iequals other = false) : (fields.set name value).find other = fields.find other := by
  rw [← fields.find_erase_of_ne differs, find, set, List.find?_append, find]
  simp [differs]

theorem find_set (fields : Fields) (name value : Bytes) :
    (fields.set name value).find name = some value.trim := by
  have erased : List.find? (fun field => field.1.iequals name) (fields.erase name) = none := by
    rw [List.find?_eq_none]
    intro field member
    simpa [erase] using (List.mem_filter.mp member).2
  rw [find, set, List.find?_append, erased]
  simp [Bytes.iequals]

theorem find_set_trimmed (fields : Fields) (name : Bytes) {value : Bytes} (trimmed : value.trim = value) :
    (fields.set name value).find name = some value := by
  rw [find_set, trimmed]

theorem find_setOrErase_of_ne (fields : Fields) {name other : Bytes} (value : Bytes)
    (differs : name.iequals other = false) :
    (fields.setOrErase name value).find other = fields.find other := by
  unfold setOrErase
  split
  · exact fields.find_erase_of_ne differs
  · exact fields.find_set_of_ne value differs

theorem get_set_of_ne (fields : Fields) {name other : Bytes} (value : Bytes)
    (differs : name.iequals other = false) : (fields.set name value).get other = fields.get other := by
  rw [get, find_set_of_ne fields value differs, get]

end Fields

namespace Field

def connection : Bytes := Bytes.ascii "Connection"
def contentLength : Bytes := Bytes.ascii "Content-Length"
def contentType : Bytes := Bytes.ascii "Content-Type"
def host : Bytes := Bytes.ascii "Host"
def retryAfter : Bytes := Bytes.ascii "Retry-After"
def transferEncoding : Bytes := Bytes.ascii "Transfer-Encoding"
def upgrade : Bytes := Bytes.ascii "Upgrade"

end Field

structure Request where
  method : Bytes
  target : Bytes
  version : Nat
  fields : Fields
  body : Bytes
  deriving DecidableEq, Repr

structure Response where
  version : Nat
  status : Nat
  fields : Fields
  body : Bytes
  deriving DecidableEq, Repr

namespace Request

/-- HTTP/1.1 keeps the connection unless told to close it, older versions only
when asked to. -/
def keepAlive (request : Request) : Bool :=
  if request.version < 11 then Fields.hasToken (request.fields.get Field.connection) (Bytes.ascii "keep-alive")
  else !Fields.hasToken (request.fields.get Field.connection) (Bytes.ascii "close")

end Request

namespace Response

/-- A default-constructed response. -/
def empty : Response := ⟨11, 200, [], []⟩

def result (response : Response) (status : Nat) : Response := { response with status := status }

def set (response : Response) (name value : Bytes) : Response :=
  { response with fields := response.fields.set name value }

def setBody (response : Response) (body : Bytes) : Response := { response with body := body }

/-- `keep_alive(value)`: the `Connection` tokens that say so under this version. -/
def keepAlive (response : Response) (value : Bool) : Response :=
  let close := Bytes.ascii "close"
  let keep := Bytes.ascii "keep-alive"
  let listed := Fields.tokens (response.fields.get Field.connection)
  let others := listed.filter fun token => !token.iequals close && !token.iequals keep
  let wanted :=
    if response.version < 11 then if value then [keep] else []
    else if value then [] else [close]
  { response with
    fields := response.fields.setOrErase Field.connection (Fields.joinTokens (others ++ wanted)) }

/-- A final `chunked` coding is taken off. -/
def dropChunked (response : Response) : Response :=
  let listed := Fields.tokens (response.fields.get Field.transferEncoding)
  if listed.getLast?.any (·.iequals (Bytes.ascii "chunked")) then
    { response with
      fields := response.fields.setOrErase Field.transferEncoding (Fields.joinTokens listed.dropLast) }
  else response

/-- `prepare_payload()`: throws for a status that allows no body. -/
def preparePayload (response : Response) : Option Response :=
  if response.body ≠ [] ∧ (response.status / 100 = 1 ∨ response.status = 204 ∨ response.status = 304)
  then none
  else some (response.set Field.contentLength (Bytes.decimal response.body.length)).dropChunked

end Response

end Hku
