import HkuRest.Httpd.HttpHandle
import HkuRest.Mcp.Json

/-! What handlers read from the headers of a request: `getLanguage` and `getClientIp` of
`HttpHandle`, and the hooks of `RestHandle` and `BizHandle`, which decode the body of the
request and encode the result. -/

namespace Hku

def bizBaseInvalidJson : Int := makeErr 1 1

/-- The first language of a list, in lower case. -/
def languageOf (value : Bytes) : Bytes := Bytes.toLower (value.takeWhile (· ≠ 0x2c))

def Request.getLanguage (request : Request) : Bytes :=
  languageOf (request.getReqHeader (Bytes.ascii "Accept-Language"))

def unknownIp : Bytes := Bytes.ascii "unknown"

/-- The first address of a list that is one, or else this one. -/
def firstIp (own ips : Bytes) : Bytes :=
  ((List.splitOn 0x2c ips).find? fun part => part ≠ [] ∧ part ≠ unknownIp).getD own

/-- The next header is looked at when the ones before it are empty or unknown. -/
def Request.orHeader (request : Request) (ip : Bytes) (name : String) : Bytes :=
  if ip = [] ∨ ip = unknownIp then Bytes.toLower (request.getReqHeader (Bytes.ascii name)) else ip

/-- `own` is the address that the connection comes from. -/
def Request.getClientIp (own : Bytes) (tryFromHeader : Bool) (request : Request) : Bytes :=
  if tryFromHeader then
    let real := Bytes.toLower (request.getReqHeader (Bytes.ascii "X-Real-IP"))
    let forwarded := request.orHeader real "X-Forwarded-For"
    let proxy := request.orHeader forwarded "Proxy-Client-IP"
    let ips := request.orHeader proxy "WL-Proxy-Client-IP"
    if ips ≠ [] then firstIp own ips else own
  else own

inductive Format
  | json
  | msgpack
  | cbor
  deriving DecidableEq, Repr

/-- How a body of this content type is decoded. -/
def Format.ofContentType (contentType : Bytes) : Format :=
  if contentType = [] then .json
  else if Bytes.contains (Bytes.ascii "application/json") contentType then .json
  else if Bytes.contains (Bytes.ascii "application/msgpack") contentType then .msgpack
  else if Bytes.contains (Bytes.ascii "application/cbor") contentType then .cbor
  else .json

/-- How the result is encoded for a client that accepts this. -/
def Format.ofAccept (accept : Bytes) : Format :=
  if accept ≠ [] then
    if Bytes.contains (Bytes.ascii "application/msgpack") accept then .msgpack
    else if Bytes.contains (Bytes.ascii "application/cbor") accept then .cbor
    else .json
  else .json

/-- The functions of other libraries; where they answer nothing, they throw. -/
structure Serializers where
  decode : Format → Bytes → Option Json
  encode : Format → Json → Option Bytes
  compress : Bytes → Option Bytes
  decompress : Bytes → Option Bytes

namespace RestHandle

variable (serializers : Serializers)

/-- `req` and the result of the hook. -/
def beforeRun (request : Request) : Json × Int :=
  let data := request.getReqData serializers.decompress
  if data = [] then (.null, bizOk)
  else
    let contentType := request.getReqHeader (Bytes.ascii "Content-Type")
    match serializers.decode (.ofContentType contentType) data with
    | some json => (json, bizOk)
    | none => (.null, bizBaseInvalidJson)

def setResHeader (name value : String) : HandleCall :=
  .respond (·.set (Bytes.ascii name) (Bytes.ascii value))

/-- A long text is compressed for a client that accepts it. -/
def writeJson (request : Request) (content : Bytes) : List HandleCall × Int :=
  let closing := setResHeader "Content-Type" "application/json; charset=UTF-8"
  let encodings := request.getReqHeader (Bytes.ascii "Accept-Encoding")
  if content.length ≥ 10240 ∧ Bytes.contains (Bytes.ascii "gzip") encodings = true then
    let opening := setResHeader "Content-Encoding" "gzip"
    match serializers.compress content with
    | some compressed => ([opening, .respond (·.setBody compressed), closing], bizOk)
    | none => ([opening], bizBaseFailed)
  else ([.respond (·.setBody content), closing], bizOk)

def writeBinary (contentType : String) (content : Bytes) : List HandleCall × Int :=
  ([.respond (·.setBody content), setResHeader "Content-Type" contentType], bizOk)

/-- What the hook does with `res`, and its result. -/
def afterRun (request : Request) (res : Json) : List HandleCall × Int :=
  let format := Format.ofAccept (request.getReqHeader (Bytes.ascii "Accept"))
  match serializers.encode format
    (.object [(Bytes.ascii "data", res), (Bytes.ascii "ret", .integer 0)]) with
  | none => ([], bizBaseFailed)
  | some content =>
      match format with
      | .json => writeJson serializers request content
      | .msgpack => writeBinary "application/msgpack" content
      | .cbor => writeBinary "application/cbor" content

end RestHandle

namespace BizHandle

-- The hooks of `BizHandle` are the same code.
def beforeRun : Serializers → Request → Json × Int := RestHandle.beforeRun

def afterRun : Serializers → Request → Json → List HandleCall × Int := RestHandle.afterRun

end BizHandle

end Hku
