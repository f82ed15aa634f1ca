import HkuRest.Core.Recasing
import HkuRest.Httpd.RestHandle
import HkuRest.Mcp.McpHandle

/-! Header names in other spellings. `getReqHeader` compares a name as it was sent, so a
client that writes it in lower case is treated as if it had not sent the header. -/

namespace Hku

open Recasing

variable {own : Bytes} {request other : Request} {field : Bytes × Bytes} {value : Bytes}

def gzipName : Bytes := Bytes.ascii "gzip"

/-- All that is decided from headers that `getReqHeader` looks up. -/
structure HeaderDecisions where
  sessionId : Bytes
  supportsSse : Bool
  inflates : Bool
  bodyFormat : Format
  responseFormat : Format
  compresses : Bool
  clientIp : Bytes
  language : Bytes
  deriving DecidableEq, Repr

namespace Request

/-- `own` is the address that the connection comes from. -/
def headerDecisions (own : Bytes) (request : Request) : HeaderDecisions where
  sessionId := McpHandle.extractSessionId request
  supportsSse := McpHandle.supportsSse request
  inflates := request.getReqHeader (Bytes.ascii "Content-Encoding") = gzipName
  bodyFormat := Format.ofContentType (request.getReqHeader (Bytes.ascii "Content-Type"))
  responseFormat := Format.ofAccept (request.getReqHeader (Bytes.ascii "Accept"))
  compresses := Bytes.contains gzipName (request.getReqHeader (Bytes.ascii "Accept-Encoding"))
  clientIp := request.getClientIp own true
  language := request.getLanguage

/-- The requests differ in the case of header names at most. -/
structure Recased (request other : Request) : Prop where
  method : request.method = other.method
  target : request.target = other.target
  version : request.version = other.version
  fields : Recasing.Recased request.fields other.fields
  body : request.body = other.body

/-- Hooks and handlers do the same for both requests. -/
structure SameResponses (own : Bytes) (request other : Request) : Prop where
  beforeRun : ∀ serializers : Serializers,
    RestHandle.beforeRun serializers request = RestHandle.beforeRun serializers other ∧
      BizHandle.beforeRun serializers request = BizHandle.beforeRun serializers other
  afterRun : ∀ (serializers : Serializers) (res : Json),
    RestHandle.afterRun serializers request res = RestHandle.afterRun serializers other res ∧
      BizHandle.afterRun serializers request res = BizHandle.afterRun serializers other res
  mcp : ∀ (service : McpService) (visit : Visit) (body : Bytes),
    McpHandle.run service { visit with clientIp := request.getClientIp own true } body request =
      McpHandle.run service { visit with clientIp := other.getClientIp own true } body other

end Request

def ipHeaders : List Bytes :=
  ["X-Real-IP", "X-Forwarded-For", "Proxy-Client-IP", "WL-Proxy-Client-IP"].map Bytes.ascii

theorem capital_of_ipHeader : ∀ name ∈ ipHeaders, name.toLower ≠ name := by decide

/-- In no spelling of its name does the field decide anything: its value is one that is
treated like an absent header. -/
structure NeutralField (own : Bytes) (field : Bytes × Bytes) : Prop where
  session : field.1.iequals (Bytes.ascii "Mcp-Session-Id") = true → field.2 = []
  sse : field.1.iequals (Bytes.ascii "Accept") = true →
    Bytes.contains (Bytes.ascii "text/event-stream") field.2 = false
  accept : field.1.iequals (Bytes.ascii "Accept") = true → Format.ofAccept field.2 = .json
  encoding : field.1.iequals (Bytes.ascii "Content-Encoding") = true → field.2 ≠ gzipName
  contentType : field.1.iequals (Bytes.ascii "Content-Type") = true →
    Format.ofContentType field.2 = .json
  compression : field.1.iequals (Bytes.ascii "Accept-Encoding") = true →
    Bytes.contains gzipName field.2 = false
  ip : ∀ name ∈ ipHeaders, field.1.iequals name = true → firstIp own field.2.toLower = own
  language : field.1.iequals (Bytes.ascii "Accept-Language") = true → languageOf field.2 = []

theorem getReqHeader_eq (request : Request) (name : Bytes) :
    request.getReqHeader name = (lookup name request.fields).getD [] := rfl

theorem getReqHeader_recased (recased : request.Recased other) (name : Bytes) :
    other.getReqHeader name = [] ∨ ∃ field ∈ request.fields, field.1.iequals name = true ∧
      other.getReqHeader name = field.2 := by
  rw [getReqHeader_eq]
  cases found : lookup name other.fields with
  | none => exact .inl rfl
  | some value =>
    obtain ⟨field, member, spelled, held⟩ := lookup_recased recased.fields found
    exact .inr ⟨field, member, spelled, held.symm⟩

theorem decided_recased (recased : request.Recased other) (name : Bytes) {α : Type} (decision : Bytes → α)
    (neutral : ∀ field ∈ request.fields, field.1.iequals name = true →
      decision field.2 = decision []) :
    decision (other.getReqHeader name) = decision [] := by
  obtain absent | ⟨field, member, spelled, held⟩ := getReqHeader_recased recased name
  · rw [absent]
  · rw [held]
    exact neutral field member spelled

/-- The request with all its names in lower case. -/
def Request.hidden (request : Request) : Request := { request with fields := hide request.fields }

theorem Request.hidden_recased (request : Request) : request.Recased request.hidden :=
  ⟨rfl, rfl, rfl, hide_recased request.fields, rfl⟩

theorem getReqHeader_hidden (request : Request) {name : Bytes} (mixed : name.toLower ≠ name) :
    request.hidden.getReqHeader name = [] := by
  rw [getReqHeader_eq, Request.hidden, lookup_hide mixed]
  rfl

theorem exists_exposed_request (member : field ∈ request.fields) {name : Bytes}
    (spelled : field.1.iequals name = true) (mixed : name.toLower ≠ name) :
    ∃ other, request.Recased other ∧ other.getReqHeader name = field.2 ∧
      ∀ absent, absent.toLower ≠ absent → absent ≠ name → other.getReqHeader absent = [] := by
  obtain ⟨fields, recased, found, hidden⟩ := exists_exposed member spelled mixed
  refine ⟨{ request with fields }, ⟨rfl, rfl, rfl, recased, rfl⟩, ?_, fun absent capital apart => ?_⟩
  · rw [getReqHeader_eq, found]
    rfl
  · rw [getReqHeader_eq, hidden absent capital apart]
    rfl

theorem firstIp_nil (own : Bytes) : firstIp own [] = own := by
  have parts : List.splitOn (0x2c : UInt8) [] = [[]] := by decide
  simp [firstIp, parts]

theorem firstIp_unknown (own : Bytes) : firstIp own unknownIp = own := by
  have parts : List.splitOn (0x2c : UInt8) unknownIp = [unknownIp] := by decide
  simp [firstIp, parts]

/-- The header says more than that the address is unknown. -/
def tells (ips : Bytes) : Bool := decide (¬(ips = [] ∨ ips = unknownIp))

theorem firstIp_untold {ips : Bytes} (untold : tells ips = false) (own : Bytes) :
    firstIp own ips = own := by
  obtain rfl | rfl : ips = [] ∨ ips = unknownIp := not_not.mp (of_decide_eq_false untold)
  · exact firstIp_nil own
  · exact firstIp_unknown own

theorem orHeader_eq (request : Request) (ips : Bytes) (name : String) :
    request.orHeader ips name =
      if tells ips then ips else (request.getReqHeader (Bytes.ascii name)).toLower := by
  by_cases untold : ips = [] ∨ ips = unknownIp
  · simp only [Request.orHeader, tells, untold, not_true, decide_false, Bool.false_eq_true, if_true,
      if_false]
  · simp only [Request.orHeader, tells, untold, not_false_iff, decide_true, if_true, if_false]

theorem getClientIp_eq (own : Bytes) (request : Request) :
    request.getClientIp own true =
      (((ipHeaders.map fun name => (request.getReqHeader name).toLower).find? tells).map
        (firstIp own)).getD own := by
  have whole (ips : Bytes) : (if ips ≠ [] then firstIp own ips else own) = firstIp own ips := by
    split
    · rfl
    · rename_i empty
      rw [not_not.mp empty, firstIp_nil]
  simp only [Request.getClientIp, if_true, whole, orHeader_eq, ipHeaders, List.map_cons, List.map_nil]
  generalize (request.getReqHeader (Bytes.ascii "X-Real-IP")).toLower = real
  generalize (request.getReqHeader (Bytes.ascii "X-Forwarded-For")).toLower = forwarded
  generalize (request.getReqHeader (Bytes.ascii "Proxy-Client-IP")).toLower = proxy
  generalize (request.getReqHeader (Bytes.ascii "WL-Proxy-Client-IP")).toLower = last
  cases told : tells real with
  | true => simp [told]
  | false =>
    cases forwards : tells forwarded with
    | true => simp [told, forwards]
    | false =>
      cases proxied : tells proxy with
      | true => simp [told, forwards, proxied]
      | false =>
        cases ends : tells last with
        | true => simp [told, forwards, proxied, ends]
        | false => simp [told, forwards, proxied, ends, firstIp_untold ends]

theorem getClientIp_only {name : Bytes} (listed : name ∈ ipHeaders)
    (alone : ∀ absent ∈ ipHeaders, absent ≠ name → request.getReqHeader absent = []) :
    request.getClientIp own true = firstIp own (request.getReqHeader name).toLower := by
  rw [getClientIp_eq]
  cases told : tells (request.getReqHeader name).toLower with
  | true =>
    have member : (request.getReqHeader name).toLower ∈
        ipHeaders.map fun name => (request.getReqHeader name).toLower :=
      List.mem_map.mpr ⟨name, listed, rfl⟩
    obtain ⟨ips, found⟩ := Option.isSome_iff_exists.mp (List.find?_isSome.mpr ⟨_, member, told⟩)
    rw [found]
    obtain ⟨other, known, rfl⟩ := List.mem_map.mp (List.mem_of_find?_eq_some found)
    by_cases same : other = name
    · rw [same]
      rfl
    · have empty := List.find?_some found
      rw [alone other known same] at empty
      cases empty
  | false =>
    have found : (ipHeaders.map fun name => (request.getReqHeader name).toLower).find? tells = none := by
      rw [List.find?_eq_none]
      intro ips member
      obtain ⟨other, known, rfl⟩ := List.mem_map.mp member
      by_cases same : other = name
      · simp [same, told]
      · simp [alone other known same, tells, Bytes.toLower]
    rw [found, firstIp_untold told]
    rfl

/-- What is decided without any header. -/
def undecided (own : Bytes) : HeaderDecisions := ⟨[], false, false, .json, .json, false, own, []⟩

theorem headerDecisions_neutral (neutral : ∀ field ∈ request.fields, NeutralField own field)
    (recased : request.Recased other) : other.headerDecisions own = undecided own := by
  have address : other.getClientIp own true = own := by
    rw [getClientIp_eq]
    cases found : (ipHeaders.map fun name => (other.getReqHeader name).toLower).find? tells with
    | none => rfl
    | some ips =>
      obtain ⟨name, listed, rfl⟩ := List.mem_map.mp (List.mem_of_find?_eq_some found)
      exact (decided_recased recased name (fun value => firstIp own value.toLower)
        fun field member spelled =>
          ((neutral field member).ip name listed spelled).trans (firstIp_nil own).symm).trans
            (firstIp_nil own)
  have session := decided_recased recased (Bytes.ascii "Mcp-Session-Id") id
    fun field member => (neutral field member).session
  have sse := decided_recased recased (Bytes.ascii "Accept")
    (Bytes.contains (Bytes.ascii "text/event-stream")) fun field member => (neutral field member).sse
  have encoding := decided_recased recased (Bytes.ascii "Content-Encoding")
    (fun value => decide (value = gzipName))
    fun field member spelled => decide_eq_false ((neutral field member).encoding spelled)
  have contentType := decided_recased recased (Bytes.ascii "Content-Type") Format.ofContentType
    fun field member => (neutral field member).contentType
  have accept := decided_recased recased (Bytes.ascii "Accept") Format.ofAccept
    fun field member => (neutral field member).accept
  have compression := decided_recased recased (Bytes.ascii "Accept-Encoding") (Bytes.contains gzipName)
    fun field member => (neutral field member).compression
  have language := decided_recased recased (Bytes.ascii "Accept-Language") languageOf
    fun field member => (neutral field member).language
  simp only [id] at session
  simp only [Request.headerDecisions, McpHandle.extractSessionId, McpHandle.supportsSse,
    Request.getLanguage, address, session, sse, encoding, contentType, accept, compression, language]
  exact rfl

theorem headerDecisions_hidden (own : Bytes) (request : Request) :
    request.hidden.headerDecisions own = undecided own := by
  have absent (title : String) (mixed : (Bytes.ascii title).toLower ≠ Bytes.ascii title) :
      request.hidden.getReqHeader (Bytes.ascii title) = [] := getReqHeader_hidden request mixed
  have address : request.hidden.getClientIp own true = own := by
    have listed : Bytes.ascii "X-Real-IP" ∈ ipHeaders := by decide
    rw [getClientIp_only listed fun name known _ =>
      getReqHeader_hidden request (capital_of_ipHeader name known), absent "X-Real-IP" (by decide)]
    exact firstIp_nil own
  simp only [Request.headerDecisions, McpHandle.extractSessionId, McpHandle.supportsSse,
    Request.getLanguage, address, absent "Mcp-Session-Id" (by decide), absent "Accept" (by decide),
    absent "Content-Encoding" (by decide), absent "Content-Type" (by decide),
    absent "Accept-Encoding" (by decide), absent "Accept-Language" (by decide)]
  exact rfl

/-- What leaves the decisions alone in every spelling is not decided upon. -/
theorem neutral_of_invariant (invariant : ∀ other, request.Recased other →
      other.headerDecisions own = request.headerDecisions own) (member : field ∈ request.fields) :
    NeutralField own field := by
  have exposed {name : Bytes} (spelled : field.1.iequals name = true) (mixed : name.toLower ≠ name) :
      ∃ other : Request, other.getReqHeader name = field.2 ∧
        (∀ absent, absent.toLower ≠ absent → absent ≠ name → other.getReqHeader absent = []) ∧
          other.headerDecisions own = undecided own := by
    obtain ⟨other, recased, found, alone⟩ := exists_exposed_request member spelled mixed
    refine ⟨other, found, alone, ?_⟩
    rw [invariant other recased, ← invariant request.hidden request.hidden_recased,
      headerDecisions_hidden]
  constructor
  · intro spelled
    obtain ⟨other, found, -, same⟩ := exposed spelled (by decide)
    exact found.symm.trans (congrArg HeaderDecisions.sessionId same)
  · intro spelled
    obtain ⟨other, found, -, same⟩ := exposed spelled (by decide)
    exact found ▸ congrArg HeaderDecisions.supportsSse same
  · intro spelled
    obtain ⟨other, found, -, same⟩ := exposed spelled (by decide)
    exact found ▸ congrArg HeaderDecisions.responseFormat same
  · intro spelled
    obtain ⟨other, found, -, same⟩ := exposed spelled (by decide)
    exact found ▸ of_decide_eq_false (congrArg HeaderDecisions.inflates same)
  · intro spelled
    obtain ⟨other, found, -, same⟩ := exposed spelled (by decide)
    exact found ▸ congrArg HeaderDecisions.bodyFormat same
  · intro spelled
    obtain ⟨other, found, -, same⟩ := exposed spelled (by decide)
    exact found ▸ congrArg HeaderDecisions.compresses same
  · intro name listed spelled
    obtain ⟨other, found, alone, same⟩ := exposed spelled (capital_of_ipHeader name listed)
    have address : other.getClientIp own true = firstIp own (other.getReqHeader name).toLower :=
      getClientIp_only listed fun absent known => alone absent (capital_of_ipHeader absent known)
    rw [← found, ← address]
    exact congrArg HeaderDecisions.clientIp same
  · intro spelled
    obtain ⟨other, found, -, same⟩ := exposed spelled (by decide)
    exact found ▸ congrArg HeaderDecisions.language same

/-- Hooks and handlers look at headers for these decisions only. -/
theorem sameResponses_of_decisions (recased : request.Recased other)
    (same : other.headerDecisions own = request.headerDecisions own) :
    request.SameResponses own other := by
  have sessions : McpHandle.extractSessionId other = McpHandle.extractSessionId request :=
    congrArg HeaderDecisions.sessionId same
  have events : McpHandle.supportsSse other = McpHandle.supportsSse request :=
    congrArg HeaderDecisions.supportsSse same
  have bodyFormat := congrArg HeaderDecisions.bodyFormat same
  have responseFormat := congrArg HeaderDecisions.responseFormat same
  have compresses := congrArg HeaderDecisions.compresses same
  have address : other.getClientIp own true = request.getClientIp own true :=
    congrArg HeaderDecisions.clientIp same
  have inflates : (other.getReqHeader (Bytes.ascii "Content-Encoding") = gzipName) ↔
      request.getReqHeader (Bytes.ascii "Content-Encoding") = gzipName :=
    decide_eq_decide.mp (congrArg HeaderDecisions.inflates same)
  have data (decompress : Bytes → Option Bytes) :
      other.getReqData decompress = request.getReqData decompress := by
    simp only [gzipName] at inflates
    simp only [Request.getReqData, inflates, recased.body]
  simp only [Request.headerDecisions] at bodyFormat responseFormat compresses
  have before (serializers : Serializers) :
      RestHandle.beforeRun serializers request = RestHandle.beforeRun serializers other := by
    simp only [RestHandle.beforeRun, data, bodyFormat]
  have after (serializers : Serializers) (res : Json) :
      RestHandle.afterRun serializers request res = RestHandle.afterRun serializers other res := by
    simp only [gzipName] at compresses
    simp only [RestHandle.afterRun, RestHandle.writeJson, responseFormat, compresses]
  refine ⟨fun serializers => ⟨before serializers, before serializers⟩,
    fun serializers res => ⟨after serializers res, after serializers res⟩, fun service visit body => ?_⟩
  simp only [McpHandle.run, events, data, sessions, address]

/-- The case of header names does not matter exactly if no field, in any spelling of its
name, would decide anything. -/
theorem headers_recased_iff (own : Bytes) (request : Request) :
    (∀ other, request.Recased other →
        other.headerDecisions own = request.headerDecisions own ∧ request.SameResponses own other) ↔
      ∀ field ∈ request.fields, NeutralField own field := by
  constructor
  · exact fun invariant field member =>
      neutral_of_invariant (fun other recased => (invariant other recased).1) member
  · intro neutral other recased
    have itself : request.Recased request := ⟨rfl, rfl, rfl, Recased.refl request.fields, rfl⟩
    have same : other.headerDecisions own = request.headerDecisions own :=
      (headerDecisions_neutral neutral recased).trans (headerDecisions_neutral neutral itself).symm
    exact ⟨same, sameResponses_of_decisions recased same⟩

/-- A call as a proxy passes it on that writes names in lower case. -/
theorem session_lost_in_lower_case :
    ¬ ∀ (own : Bytes) (request other : Request), request.Recased other →
      other.headerDecisions own = request.headerDecisions own ∧ request.SameResponses own other := by
  intro invariant
  have same := (invariant [] ⟨Bytes.ascii "POST", Bytes.ascii "/mcp", 11,
    [(Bytes.ascii "Mcp-Session-Id", [1])], []⟩ ⟨Bytes.ascii "POST", Bytes.ascii "/mcp", 11,
    [(Bytes.ascii "mcp-session-id", [1])], []⟩ ⟨rfl, rfl, rfl, .cons ⟨by decide, rfl⟩ .nil, rfl⟩).1
  exact absurd (congrArg HeaderDecisions.sessionId same) (by decide)

end Hku
