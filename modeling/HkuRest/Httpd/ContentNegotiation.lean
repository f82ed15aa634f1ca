import HkuRest.Httpd.ErrorResponses
import HkuRest.Httpd.PlainResponse

/-! The answers of `after_run`, as a client reads them by their own header, and the coding
that they are sent in against what the client accepts. The code looks for `gzip` anywhere in
the text of `Accept-Encoding`; that text is a list of codings with weights. -/

namespace Hku

namespace AcceptEncoding

/-- A weight in thousandths: a zero or a one with up to three digits after a point, which for a
one are zeros. -/
def qvalue : Bytes → Option Nat
  | [whole] | [whole, 0x2e] =>
      if whole = 0x30 then some 0 else if whole = 0x31 then some 1000 else none
  | whole :: 0x2e :: digits =>
      if 3 < digits.length ∨ digits.any fun d => d < 0x30 || 0x39 < d then none
      else
        let thousandths := (digits.zip [100, 10, 1]).foldl
          (fun total (d, place) => total + (d.toNat - 0x30) * place) 0
        if whole = 0x30 then some thousandths
        else if whole = 0x31 ∧ thousandths = 0 then some 1000
        else none
  | _ => none

/-- A coding with its weight, as one member of the list has it. -/
def member (text : Bytes) : Option (Bytes × Nat) :=
  match List.splitOn 0x3b text with
  | [coding] => some (Bytes.toLower (Bytes.trim coding), 1000)
  | [coding, parameter] =>
      match Bytes.toLower (Bytes.trim parameter) with
      | 0x71 :: 0x3d :: value => (qvalue value).map (Bytes.toLower (Bytes.trim coding), ·)
      | _ => none
  | _ => none

/-- The coding is listed with a weight that is not zero, or everything is that is not listed. -/
def accepts (coding header : Bytes) : Bool :=
  let members := (List.splitOn 0x2c header).filterMap member
  match members.find? fun listed => listed.1 = coding with
  | some listed => 0 < listed.2
  | none => (members.find? fun listed => listed.1 = Bytes.ascii "*").any fun listed => 0 < listed.2

end AcceptEncoding

/-- The libraries are codecs: what they encode they decode to the same again. -/
structure Codecs extends Serializers where
  decode_encode : ∀ format json text, encode format json = some text → decode format text = some json
  decompress_compress : ∀ text compressed, compress text = some compressed →
    decompress compressed = some text

/-- The format of this media type, its parameters left aside. -/
def Format.ofMediaType (contentType : Bytes) : Option Format :=
  let mediaType := Bytes.toLower (Bytes.trim (contentType.takeWhile (· ≠ 0x3b)))
  if mediaType = Bytes.ascii "application/json" then some .json
  else if mediaType = Bytes.ascii "application/msgpack" then some .msgpack
  else if mediaType = Bytes.ascii "application/cbor" then some .cbor
  else none

namespace Response

/-- The format that `Content-Type` names. -/
def format (response : Response) : Option Format :=
  (response.fields.find Field.contentType).bind Format.ofMediaType

/-- The body without the coding that `Content-Encoding` names. -/
def content (codecs : Codecs) (response : Response) : Option Bytes :=
  match response.fields.find Field.contentEncoding with
  | none => some response.body
  | some coding => if coding.iequals (Bytes.ascii "gzip") then codecs.decompress response.body else none

/-- What a client reads. -/
def json (codecs : Codecs) (response : Response) : Option Json :=
  response.format.bind fun format => (response.content codecs).bind (codecs.decode format)

end Response

/-- `{"ret": 0, "data": res}` -/
def wrapped (res : Json) : Json :=
  .object [(Bytes.ascii "data", res), (Bytes.ascii "ret", .integer 0)]

/-- Where the hook succeeds, its answer is read as the result, and it is compressed only for a
client that accepts it. -/
def Negotiates (codecs : Codecs) (request : Request) (res : Json) (start : Response)
    (hook : List HandleCall × Int) : Prop :=
  hook.2 = bizOk →
    (rewrites hook.1 start).json codecs = some (wrapped res) ∧
      ((rewrites hook.1 start).fields.find Field.contentEncoding = some (Bytes.ascii "gzip") →
        AcceptEncoding.accepts (Bytes.ascii "gzip")
          (request.getReqHeader (Bytes.ascii "Accept-Encoding")) = true)

/-- A JSON text of 10240 bytes or more, for a client whose `Accept-Encoding` has `gzip` in it
somewhere, is for one that accepts it. -/
def AskedFor (codecs : Codecs) (request : Request) (res : Json) : Prop :=
  Format.ofAccept (request.getReqHeader (Bytes.ascii "Accept")) = .json →
    ∀ text, codecs.encode .json (wrapped res) = some text → text.length ≥ 10240 →
      (codecs.compress text).isSome →
        Bytes.contains (Bytes.ascii "gzip")
            (request.getReqHeader (Bytes.ascii "Accept-Encoding")) = true →
          AcceptEncoding.accepts (Bytes.ascii "gzip")
            (request.getReqHeader (Bytes.ascii "Accept-Encoding")) = true

variable {codecs : Codecs} {request : Request} {res : Json} {start : Response} {text compressed : Bytes}

theorem unencoded_start (config : CorsConfig) (isHttps : Bool) :
    (setResponseHeaders config isHttps .empty).fields.find Field.contentEncoding = none := by
  rw [setResponseHeaders_eq, setAll_find_of_apart]
  · rfl
  · intro field member
    have apart : ∀ name ∈ headerNames, Apart Field.contentEncoding name := by
      unfold Apart
      decide +kernel
    exact apart field.1 ((requiredHeaders_names config isHttps).subset (List.mem_map_of_mem member))

theorem read_json {response : Response} {name : Bytes} {format : Format}
    (typed : response.fields.find Field.contentType = some name)
    (named : Format.ofMediaType name = some format) (carried : response.content codecs = some text)
    (encoded : codecs.encode format (wrapped res) = some text) :
    response.json codecs = some (wrapped res) := by
  rw [Response.json, Response.format, typed, Option.bind_some, named, Option.bind_some, carried,
    Option.bind_some]
  exact codecs.decode_encode format (wrapped res) text encoded

theorem read_plain (unencoded : start.fields.find Field.contentEncoding = none) {name : String}
    {format : Format} (named : Format.ofMediaType (Bytes.ascii name) = some format)
    (trimmed : (Bytes.ascii name).trim = Bytes.ascii name)
    (encoded : codecs.encode format (wrapped res) = some text) :
    (rewrites [.respond (·.setBody text), RestHandle.setResHeader "Content-Type" name] start).json codecs =
        some (wrapped res) ∧
      (rewrites [.respond (·.setBody text), RestHandle.setResHeader "Content-Type" name] start).fields.find
        Field.contentEncoding = none := by
  have kept : (rewrites [.respond (·.setBody text), RestHandle.setResHeader "Content-Type" name]
      start).fields.find Field.contentEncoding = none :=
    (Fields.find_set_of_ne start.fields (Bytes.ascii name) (by decide)).trans unencoded
  refine ⟨read_json (Fields.find_set_trimmed start.fields _ trimmed) named ?_ encoded, kept⟩
  rw [Response.content, kept]
  rfl

theorem read_compressed {name : String} {format : Format}
    (named : Format.ofMediaType (Bytes.ascii name) = some format)
    (trimmed : (Bytes.ascii name).trim = Bytes.ascii name)
    (encoded : codecs.encode format (wrapped res) = some text)
    (shrunk : codecs.compress text = some compressed) :
    (rewrites [RestHandle.setResHeader "Content-Encoding" "gzip", .respond (·.setBody compressed),
        RestHandle.setResHeader "Content-Type" name] start).json codecs = some (wrapped res) ∧
      (rewrites [RestHandle.setResHeader "Content-Encoding" "gzip", .respond (·.setBody compressed),
        RestHandle.setResHeader "Content-Type" name] start).fields.find Field.contentEncoding =
          some (Bytes.ascii "gzip") := by
  have announced : (rewrites [RestHandle.setResHeader "Content-Encoding" "gzip",
      .respond (·.setBody compressed), RestHandle.setResHeader "Content-Type" name]
        start).fields.find Field.contentEncoding = some (Bytes.ascii "gzip") :=
    (Fields.find_set_of_ne _ (Bytes.ascii name) (by decide)).trans
      (Fields.find_set_trimmed start.fields _ (by decide))
  refine ⟨read_json (Fields.find_set_trimmed _ _ trimmed) named ?_ encoded, announced⟩
  rw [Response.content, announced]
  exact (if_pos (by decide)).trans (codecs.decompress_compress text compressed shrunk)

theorem negotiates_plain (unencoded : start.fields.find Field.contentEncoding = none) {name : String}
    {format : Format} (named : Format.ofMediaType (Bytes.ascii name) = some format)
    (trimmed : (Bytes.ascii name).trim = Bytes.ascii name)
    (encoded : codecs.encode format (wrapped res) = some text) :
    Negotiates codecs request res start
      ([.respond (·.setBody text), RestHandle.setResHeader "Content-Type" name], bizOk) := by
  obtain ⟨read, plain⟩ := read_plain unencoded named trimmed encoded
  intro _
  refine ⟨read, fun coded => ?_⟩
  rw [plain] at coded
  cases coded

theorem negotiates_failed (calls : List HandleCall) :
    Negotiates codecs request res start (calls, bizBaseFailed) := by
  intro succeeded
  have differ : bizBaseFailed ≠ bizOk := by decide
  exact absurd succeeded differ

theorem writeJson_negotiates_iff (unencoded : start.fields.find Field.contentEncoding = none)
    (encoded : codecs.encode .json (wrapped res) = some text) :
    Negotiates codecs request res start (RestHandle.writeJson codecs.toSerializers request text) ↔
      (text.length ≥ 10240 → (codecs.compress text).isSome →
        Bytes.contains (Bytes.ascii "gzip")
            (request.getReqHeader (Bytes.ascii "Accept-Encoding")) = true →
          AcceptEncoding.accepts (Bytes.ascii "gzip")
            (request.getReqHeader (Bytes.ascii "Accept-Encoding")) = true) := by
  simp only [RestHandle.writeJson]
  have json : Format.ofMediaType (Bytes.ascii "application/json; charset=UTF-8") = some .json := by
    decide
  split
  · rename_i compresses
    cases shrunk : codecs.compress text with
    | none => exact iff_of_true (negotiates_failed _) (by simp)
    | some compressed =>
      obtain ⟨read, announced⟩ := @read_compressed codecs res start text compressed
        "application/json; charset=UTF-8" .json json (by decide) encoded shrunk
      constructor
      · intro negotiates _ _ _
        exact (negotiates rfl).2 announced
      · intro asked _
        exact ⟨read, fun _ => asked compresses.1 rfl compresses.2⟩
  · rename_i whole
    refine iff_of_true (negotiates_plain unencoded json (by decide) encoded) fun long _ listed => ?_
    exact absurd ⟨long, listed⟩ whole

theorem afterRun_negotiates_iff (unencoded : start.fields.find Field.contentEncoding = none) :
    Negotiates codecs request res start (RestHandle.afterRun codecs.toSerializers request res) ↔
      AskedFor codecs request res := by
  rw [RestHandle.afterRun, ← wrapped, AskedFor]
  generalize Format.ofAccept (request.getReqHeader (Bytes.ascii "Accept")) = format
  cases encoded : codecs.encode format (wrapped res) with
  | none =>
    refine iff_of_true (negotiates_failed []) ?_
    rintro rfl text other
    rw [encoded] at other
    cases other
  | some text =>
    cases format with
    | json =>
      rw [forall_prop_of_true rfl]
      simp only [encoded, Option.some.injEq, forall_eq']
      exact writeJson_negotiates_iff unencoded encoded
    | msgpack =>
      have read := @negotiates_plain codecs request res start text unencoded "application/msgpack"
        .msgpack (by decide) (by decide) encoded
      exact iff_of_true read fun json => by cases json
    | cbor =>
      have read := @negotiates_plain codecs request res start text unencoded "application/cbor"
        .cbor (by decide) (by decide) encoded
      exact iff_of_true read fun json => by cases json

/-- Over a response without a `Content-Encoding`, such as the one that the connection prepares, both
hooks answer what a client reads as the result, and in a coding that it accepts, exactly if it
accepts `gzip` where it is asked for by name only. -/
theorem answers_negotiated_iff (codecs : Codecs) (request : Request) (res : Json) {start : Response}
    (unencoded : start.fields.find Field.contentEncoding = none) :
    (Negotiates codecs request res start (RestHandle.afterRun codecs.toSerializers request res) ∧
      Negotiates codecs request res start (BizHandle.afterRun codecs.toSerializers request res)) ↔
        AskedFor codecs request res := by
  have each := @afterRun_negotiates_iff codecs request res start unencoded
  exact ⟨fun both => each.mp both.1, fun asked => ⟨each.mpr asked, each.mpr asked⟩⟩

/-- A long text. -/
def longText : Bytes := List.replicate 10240 0x61

/-- The JSON text of a result that is a long text. -/
def longJson : Bytes := Bytes.ascii "\x7b\"data\":\"" ++ longText ++ Bytes.ascii "\",\"ret\":0\x7d"

/-- Codecs of which only the JSON text of this result is used. -/
def longCodecs : Codecs where
  decode format text := if text = longJson then some (wrapped (.string longText)) else none
  encode format json := if json = wrapped (.string longText) then some longJson else none
  compress text := some (0x1f :: 0x8b :: text)
  decompress bytes := some (bytes.drop 2)
  decode_encode format json text encoded := by
    obtain ⟨rfl, rfl⟩ := Option.ite_none_right_eq_some.mp encoded |>.imp_right Option.some.inj
    exact if_pos rfl
  decompress_compress text compressed shrunk := by
    obtain rfl := Option.some.inj shrunk
    rfl

theorem answers_negotiated_iff_prepared :
    (Negotiates longCodecs .empty (.string longText) (setResponseHeaders .default true .empty)
        (RestHandle.afterRun longCodecs.toSerializers .empty (.string longText)) ∧
      Negotiates longCodecs .empty (.string longText) (setResponseHeaders .default true .empty)
        (BizHandle.afterRun longCodecs.toSerializers .empty (.string longText))) ↔
      AskedFor longCodecs .empty (.string longText) :=
  answers_negotiated_iff longCodecs .empty (.string longText) (unencoded_start .default true)

theorem refused_coding_applied :
    ¬ ∀ (codecs : Codecs) (config : CorsConfig) (isHttps : Bool) (request : Request) (res : Json),
      Negotiates codecs request res (setResponseHeaders config isHttps .empty)
          (RestHandle.afterRun codecs.toSerializers request res) ∧
        Negotiates codecs request res (setResponseHeaders config isHttps .empty)
          (BizHandle.afterRun codecs.toSerializers request res) := by
  intro negotiated
  let refusal : Request := ⟨[], [], 11, [(Bytes.ascii "Accept-Encoding", Bytes.ascii "gzip;q=0")], []⟩
  have negotiates := (negotiated longCodecs .default false refusal (.string longText)).1
  have asked := (afterRun_negotiates_iff (unencoded_start .default false)).mp negotiates
  have encoded : longCodecs.encode .json (wrapped (.string longText)) = some longJson := by
    simp only [longCodecs, if_true]
  have long : longJson.length ≥ 10240 := by
    rw [longJson, List.length_append, List.length_append, longText, List.length_replicate]
    omega
  have accepted := asked rfl longJson encoded long rfl (by decide)
  exact absurd accepted (by decide)

end Hku
