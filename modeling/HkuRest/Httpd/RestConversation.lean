import HkuRest.Httpd.PlainConversation
import HkuRest.Httpd.ContentNegotiation

/-! A conversation with `RestHandle` and `BizHandle` classes over one connection: request bodies are
decoded, results are encoded, perhaps compressed, framed and sent, and the client takes all that
apart again. What it gets are the results, one for each request and in their order. -/

namespace Hku

open Connection HeaderBlock

/-- What the code of a subclass does with the request it is made for: its filters, and what its
`run()` makes of `req`, which is `res`, the calls on the way and the end. It may depend on when it
runs. -/
structure RestLogic where
  filters : Nat → Request → List Script
  run : Nat → Request → Json → Json × Script

def RestHandle.handle (serializers : Serializers) (logic : RestLogic) : HandlerFunc :=
  fun index request =>
    let (req, decoded) := RestHandle.beforeRun serializers request
    let (res, run) := logic.run index request req
    .handle ⟨logic.filters index request, ([], decoded), run,
      RestHandle.afterRun serializers request res⟩

/-- The filters of a subclass, its `before_biz_run()` and its `biz_run()`. -/
structure BizLogic where
  filters : Nat → Request → List Script
  before : Nat → Request → Json → List HandleCall × Int
  bizRun : Nat → Request → Json → Json × Script

/-- What `biz_run()` throws becomes its result. -/
def BizLogic.caught : Outcome → Outcome
  | .returned code => .returned code
  | .bizException errcode => .returned errcode
  | .exception => .returned bizBaseFailed

/-- `BizHandle::run()`. -/
def BizLogic.run (logic : BizLogic) (index : Nat) (request : Request) (req : Json) : Json × Script :=
  let (calls, before) := logic.before index request req
  if before ≠ bizOk then (.null, ⟨calls, .returned before⟩)
  else
    let (res, script) := logic.bizRun index request req
    (res, ⟨calls ++ script.calls, BizLogic.caught script.outcome⟩)

def BizHandle.handle (serializers : Serializers) (logic : BizLogic) : HandlerFunc :=
  fun index request =>
    let (req, decoded) := BizHandle.beforeRun serializers request
    let (res, run) := logic.run index request req
    .handle ⟨logic.filters index request, ([], decoded), run,
      BizHandle.afterRun serializers request res⟩

/-- The two classes differ in how their `run()` comes about. -/
theorem bizHandle_eq (serializers : Serializers) (logic : BizLogic) :
    BizHandle.handle serializers logic =
      RestHandle.handle serializers ⟨logic.filters, logic.run⟩ := rfl

def Response.Unencoded (response : Response) : Prop :=
  response.fields.find Field.contentEncoding = none

/-- The stage neither frames a response nor announces a coding of its body. -/
def Script.Describes (script : Script) : Prop :=
  ∀ call ∈ script.calls, call.Describes ∧ call.Preserves Response.Unencoded

structure RestLogic.Describes (logic : RestLogic) : Prop where
  filters : ∀ index request, ∀ filter ∈ logic.filters index request, filter.Describes
  run : ∀ index request req, (logic.run index request req).2.Describes

namespace Handle

theorem executed_mem {stages : List Script} {call : HandleCall} (member : call ∈ executed stages) :
    ∃ stage ∈ stages, call ∈ stage.calls := by
  induction stages with
  | nil => cases member
  | cons stage rest ih =>
    unfold executed at member
    split at member
    · rcases List.mem_append.mp member with here | later
      · exact ⟨stage, List.mem_cons_self, here⟩
      · obtain ⟨found, among, calls⟩ := ih later
        exact ⟨found, List.mem_cons_of_mem _ among, calls⟩
    · exact ⟨stage, List.mem_cons_self, member⟩

theorem ending_succeeded {stages : List Script} (succeeded : ending stages = .returned bizOk) :
    (∀ stage ∈ stages, stage.outcome = .returned bizOk) ∧
      executed stages = stages.flatMap Script.calls := by
  induction stages with
  | nil => exact ⟨by simp, rfl⟩
  | cons stage rest ih =>
    unfold ending at succeeded
    split at succeeded
    · rename_i ended
      obtain ⟨others, calls⟩ := ih succeeded
      exact ⟨List.forall_mem_cons.mpr ⟨ended, others⟩, by simp [executed, ended, calls]⟩
    · rename_i failed
      exact absurd succeeded failed

end Handle

namespace RestHandle

variable {serializers : Serializers} {logic : RestLogic} {index : Nat} {request : Request}

/-- `res`, and what `run()` did. -/
def work (serializers : Serializers) (logic : RestLogic) (index : Nat) (request : Request) :
    Json × Script :=
  logic.run index request (beforeRun serializers request).1

/-- The handle object made for the request. -/
def made (serializers : Serializers) (logic : RestLogic) (index : Nat) (request : Request) : Handle :=
  ⟨logic.filters index request, ([], (beforeRun serializers request).2),
    (work serializers logic index request).2,
    afterRun serializers request (work serializers logic index request).1⟩

/-- How it ends: with the first stage that fails. -/
def ending (serializers : Serializers) (logic : RestLogic) (index : Nat) (request : Request) :
    Outcome :=
  Handle.ending (made serializers logic index request).stages

theorem handle_eq :
    handle serializers logic index request = .handle (made serializers logic index request) := rfl

theorem made_calls (succeeded : ending serializers logic index request = .returned bizOk) :
    (afterRun serializers request (work serializers logic index request).1).2 = bizOk ∧
      (made serializers logic index request).calls =
        (logic.filters index request).flatMap Script.calls ++
          (work serializers logic index request).2.calls ++
          (afterRun serializers request (work serializers logic index request).1).1 := by
  obtain ⟨each, calls⟩ := Handle.ending_succeeded succeeded
  constructor
  · have last := each (Handle.hook (made serializers logic index request).afterRun)
      (by simp [Handle.stages])
    exact Outcome.returned.inj last
  · rw [Handle.calls, calls]
    simp [Handle.stages, made, Handle.hook]

theorem describes_header {name value : String} (plain : Plain (Bytes.ascii name, Bytes.ascii value))
    (other : Field.framesBody (Bytes.ascii name) = false) : (setResHeader name value).Describes :=
  HandleCall.describes_field plain other

theorem afterRun_describes (serializers : Serializers) (request : Request) (res : Json) :
    ∀ call ∈ (afterRun serializers request res).1, call.Describes := by
  have coding : (setResHeader "Content-Encoding" "gzip").Describes :=
    describes_header (by decide) (by decide)
  have json : (setResHeader "Content-Type" "application/json; charset=UTF-8").Describes :=
    describes_header (by decide) (by decide)
  have msgpack : (setResHeader "Content-Type" "application/msgpack").Describes :=
    describes_header (by decide) (by decide)
  have cbor : (setResHeader "Content-Type" "application/cbor").Describes :=
    describes_header (by decide) (by decide)
  unfold afterRun
  simp only
  split
  · simp
  · rename_i content _
    split
    · unfold writeJson
      simp only
      split
      · split
        · simp [coding, json, HandleCall.describes_body]
        · simp [coding]
      · simp [json, HandleCall.describes_body]
    · simp [writeBinary, msgpack, HandleCall.describes_body]
    · simp [writeBinary, cbor, HandleCall.describes_body]

theorem writeJson_reads {codecs : Codecs} {res : Json} {start : Response} {text : Bytes}
    (unencoded : start.fields.find Field.contentEncoding = none)
    (encoded : codecs.encode .json (wrapped res) = some text)
    (succeeded : (writeJson codecs.toSerializers request text).2 = bizOk) :
    (rewrites (writeJson codecs.toSerializers request text).1 start).json codecs =
      some (wrapped res) := by
  have json : Format.ofMediaType (Bytes.ascii "application/json; charset=UTF-8") = some .json := by
    decide
  unfold writeJson at succeeded ⊢
  simp only at succeeded ⊢
  split at succeeded
  · rename_i compresses
    rw [if_pos compresses]
    cases shrunk : codecs.compress text with
    | none =>
      rw [shrunk] at succeeded
      exact absurd succeeded (by decide)
    | some compressed => exact (read_compressed json (by decide) encoded shrunk).1
  · rename_i whole
    rw [if_neg whole]
    exact (read_plain unencoded json (by decide) encoded).1

theorem afterRun_reads {codecs : Codecs} {res : Json} {start : Response}
    (unencoded : start.fields.find Field.contentEncoding = none)
    (succeeded : (afterRun codecs.toSerializers request res).2 = bizOk) :
    (rewrites (afterRun codecs.toSerializers request res).1 start).json codecs = some (wrapped res) := by
  unfold afterRun at succeeded ⊢
  rw [← wrapped] at succeeded ⊢
  generalize Format.ofAccept (request.getReqHeader (Bytes.ascii "Accept")) = format at succeeded ⊢
  cases encoded : codecs.encode format (wrapped res) with
  | none =>
    simp only [encoded] at succeeded
    exact absurd succeeded (by decide)
  | some text =>
    simp only [encoded] at succeeded ⊢
    cases format with
    | json => exact writeJson_reads unencoded encoded succeeded
    | msgpack => exact (read_plain unencoded (by decide) (by decide) encoded).1
    | cbor => exact (read_plain unencoded (by decide) (by decide) encoded).1

theorem made_describes (serializers : Serializers) (describes : logic.Describes) (index : Nat)
    (request : Request) : (made serializers logic index request).Describes := by
  intro call member
  obtain ⟨stage, among, within⟩ := Handle.executed_mem member
  simp only [Handle.stages, made, List.mem_append, List.mem_cons, List.not_mem_nil, or_false] at among
  rcases among with filter | rfl | rfl | rfl
  · exact (describes.filters index request stage filter call within).1
  · cases within
  · exact (describes.run index request _ call within).1
  · exact afterRun_describes serializers request _ call within

theorem work_unencoded (serializers : Serializers) (describes : logic.Describes) (index : Nat)
    (request : Request) {start : Response} (unencoded : start.Unencoded) :
    (rewrites ((logic.filters index request).flatMap Script.calls ++
      (work serializers logic index request).2.calls) start).Unencoded := by
  refine rewrites_holds (fun call member => ?_) unencoded
  rcases List.mem_append.mp member with filtering | running
  · obtain ⟨filter, among, within⟩ := List.mem_flatMap.mp filtering
    exact (describes.filters index request filter among call within).2
  · exact (describes.run index request _ call running).2

end RestHandle

/-- What the client is told: the result, read as the header of the response asks for it, or the
failure, as JSON in the body as it stands. -/
def RestAnswer (codecs : Codecs) (bizErrMsg : Int → Bytes) (logic : RestLogic) (index : Nat)
    (request : Request) (response : Response) : Prop :=
  match RestHandle.ending codecs.toSerializers logic index request with
  | .returned code =>
      response.status = 200 ∧
        if code = bizOk then response.json codecs =
          some (wrapped (RestHandle.work codecs.toSerializers logic index request).1)
        else response.body = Exchange.failureText code (bizErrMsg code)
  | .bizException errcode => response.status = 200 ∧
      response.body = Exchange.failureText errcode (Bytes.ascii "biz exception")
  | .exception => response.status = 500 ∧
      response.body = Exchange.failureText bizBaseFailed (Bytes.ascii "internal error")

theorem Response.SameContent.json_eq {before after : Response} (same : before.SameContent after)
    (codecs : Codecs) : after.json codecs = before.json codecs := by
  have contentType := same.fields Field.contentType (by decide)
  have contentEncoding := same.fields Field.contentEncoding (by decide)
  simp only [Response.json, Response.format, Response.content, contentType, contentEncoding, same.body]

theorem Tells.answers {codecs : Codecs} {bizErrMsg : Int → Bytes} {logic : RestLogic} {index : Nat}
    {request : Request} {response : Response} {config : CorsConfig} {ssl : Bool}
    (describes : logic.Describes)
    (tells : Tells bizErrMsg (rewrites (RestHandle.made codecs.toSerializers logic index request).calls
        (setResponseHeaders config ssl .empty)) response
      (RestHandle.ending codecs.toSerializers logic index request)) :
    RestAnswer codecs bizErrMsg logic index request response := by
  unfold RestAnswer
  cases ended : RestHandle.ending codecs.toSerializers logic index request with
  | returned code =>
    simp only [ended, Tells] at tells ⊢
    by_cases succeeded : code = bizOk
    · subst succeeded
      simp only [if_true] at tells ⊢
      obtain ⟨delivered, calls⟩ := RestHandle.made_calls ended
      have status := rewrites_status
        (RestHandle.made_describes codecs.toSerializers describes index request)
        (setResponseHeaders config ssl .empty)
      rw [(Response.setResponseHeaders_keeps config ssl .empty).status] at status
      have same := tells (by rw [status]; decide)
      have unencoded := RestHandle.work_unencoded codecs.toSerializers describes index request
        (unencoded_start config ssl)
      refine ⟨same.status.trans status, ?_⟩
      rw [same.json_eq, calls, rewrites_append]
      exact RestHandle.afterRun_reads unencoded delivered
    · simpa [succeeded] using tells
  | bizException errcode | exception => simpa [ended, Tells] using tells

/-- A server whose routes all lead to such handler classes. -/
structure HttpServer.IsRest (server : HttpServer) (codecs : Codecs) : Prop where
  cors : server.corsConfig.Plain
  routes : ∀ router ∈ server.router, ∀ route ∈ router, ∃ logic : RestLogic,
    logic.Describes ∧ route.2 = RestHandle.handle codecs.toSerializers logic

variable {server : HttpServer} {codecs : Codecs} {circumstances : Nat → Circumstances}
  {requests : List Request} {request : Request}

theorem HttpServer.IsRest.describes (rest : server.IsRest codecs) (request : Request) :
    server.Describes request := by
  refine ⟨rest.cors, fun handler routed index => ?_⟩
  obtain ⟨router, some, route, member, rfl⟩ := route_registered routed
  obtain ⟨logic, describes, same⟩ := rest.routes router some route member
  exact ⟨_, by rw [same, RestHandle.handle_eq], RestHandle.made_describes _ describes _ _⟩

/-- A request that a handler class answers is answered with what its logic tells. -/
def Told (server : HttpServer) (codecs : Codecs) (circumstances : Nat → Circumstances) (i : Nat)
    (turn : Turn (List Request)) (response : Response) : Prop :=
  ∀ (request : Request) (logic : RestLogic), logic.Describes → turn.request = some request →
    server.action (circumstances i).admitted request = .dispatch →
    server.route request = .found (RestHandle.handle codecs.toSerializers logic) →
    RestAnswer codecs server.bizErrMsg logic i (server.fixHost request) response

theorem TurnTells.told {i : Nat} {turn : Turn (List Request)} {response : Response}
    (tells : TurnTells server circumstances requests i turn response) :
    Told server codecs circumstances i turn response := by
  intro request logic describes requested dispatched routed
  obtain ⟨ssl, told⟩ := (tells request requested).2 _ _ dispatched routed RestHandle.handle_eq
  exact told.answers describes

/-- The result grows with each call, and is not to be kept. -/
def counting : RestLogic where
  filters _ _ := [⟨[.respond (·.set (Bytes.ascii "Cache-Control") (Bytes.ascii "no-store"))],
    .returned bizOk⟩]
  run index _ _ := (.integer index, ⟨[], .returned bizOk⟩)

theorem counting_describes : counting.Describes where
  filters index request filter member call within := by
    obtain rfl := List.mem_singleton.mp member
    obtain rfl := List.mem_singleton.mp within
    have described : (HandleCall.respond
        (·.set (Bytes.ascii "Cache-Control") (Bytes.ascii "no-store"))).Describes :=
      HandleCall.describes_field (by decide) (by decide)
    exact ⟨described, fun response unencoded =>
      (Fields.find_set_of_ne response.fields _ (by decide)).trans unencoded⟩
  run index request req call within := by cases within

def countingServer : HttpServer :=
  .ofRoutes [(⟨Bytes.ascii "GET", Bytes.ascii "/count"⟩,
    RestHandle.handle longCodecs.toSerializers counting)]

theorem countingServer_rest : countingServer.IsRest longCodecs := by
  refine ⟨default_plain, ?_⟩
  rintro router ⟨⟩ route member
  rw [List.mem_singleton.mp member]
  exact ⟨counting, counting_describes, rfl⟩

end Hku
