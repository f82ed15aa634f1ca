import HkuRest.Httpd.WireFormat
import HkuRest.Httpd.ErrorResponses
import HkuRest.Httpd.PlainResponse

/-! Responses that can be written so that they read back. What the framework does to a response
(its own headers and those of the CORS configuration, `keep_alive`, `prepare_payload`, error
responses) keeps it so. -/

namespace Hku

open Connection HeaderBlock

namespace Fields

variable {value token : Bytes}

theorem subset_intercalate {separator : Bytes} {parts : List Bytes} (member : token ∈ parts) :
    token ⊆ separator.intercalate parts := by
  induction parts with
  | nil => cases member
  | cons part parts ih =>
    cases parts with
    | nil => simp_all
    | cons next parts =>
      rw [List.intercalate_cons_cons]
      rcases List.mem_cons.mp member with rfl | later
      · exact fun byte inside => by simp [inside]
      · exact fun byte inside => List.mem_append_right _ (ih later inside)

theorem tokens_plain (plain : PlainValue value) (member : token ∈ tokens value) :
    PlainValue token ∧ token ≠ [] := by
  obtain ⟨trimmed, filled⟩ := List.mem_filter.mp member
  obtain ⟨part, among, rfl⟩ := List.mem_map.mp trimmed
  have inside : part ⊆ value := by
    have held : part ⊆ [0x2c].intercalate (value.splitOn 0x2c) := subset_intercalate among
    rwa [List.intercalate_splitOn] at held
  have kept : part.trim ⊆ value := fun byte held => inside ((Bytes.trim_sublist part).subset held)
  exact ⟨⟨Bytes.trim_trim part, fun byte held => plain.unbroken byte (kept held),
    fun held => plain.printable (kept held)⟩, by simpa using filled⟩

theorem joinTokens_plain {list : List Bytes} (plain : ∀ token ∈ list, PlainValue token ∧ token ≠ []) :
    PlainValue (joinTokens list) :=
  .intercalate plain (by decide) (by decide)

theorem mem_set {fields : Fields} {name value : Bytes} {field : Bytes × Bytes}
    (member : field ∈ fields.set name value) : field ∈ fields ∨ field = (name, value.trim) := by
  rcases List.mem_append.mp member with kept | new
  · exact .inl (List.mem_filter.mp kept).1
  · exact .inr (List.mem_singleton.mp new)

theorem mem_setOrErase {fields : Fields} {name value : Bytes} {field : Bytes × Bytes}
    (member : field ∈ fields.setOrErase name value) : field ∈ fields ∨ field = (name, value.trim) := by
  unfold setOrErase at member
  split at member
  · exact .inl (List.mem_filter.mp member).1
  · exact mem_set member

theorem find_mem {fields : Fields} {name : Bytes} (found : fields.find name = some value) :
    ∃ field ∈ fields, field.2 = value := by
  obtain ⟨field, among, rfl⟩ := Option.map_eq_some_iff.mp found
  exact ⟨field, List.mem_of_find?_eq_some among, rfl⟩

theorem get_plain {fields : Fields} (plain : ∀ field ∈ fields, Plain field) (name : Bytes) :
    PlainValue (fields.get name) := by
  unfold get
  cases found : fields.find name with
  | none => exact ⟨rfl, by simp [Unbroken], by simp⟩
  | some value =>
    obtain ⟨field, member, rfl⟩ := find_mem found
    exact (plain field member).value

end Fields

/-- A field that only serves the delivery. -/
def Field.delivers (name : Bytes) : Bool :=
  Field.connection.iequals name || Field.contentLength.iequals name

namespace Response

/-- A status line can be written, and the fields read back. -/
structure Neat (response : Response) : Prop where
  presentable : response.Presentable
  plain : ∀ field ∈ response.fields, Plain field

variable {response : Response} {name value : Bytes}

theorem neat_empty : Neat .empty := ⟨⟨by decide, by decide⟩, by simp [Response.empty]⟩

theorem Neat.set (neat : response.Neat) (plain : Plain (name, value)) :
    (response.set name value).Neat := by
  refine ⟨⟨neat.presentable.version, neat.presentable.status⟩, fun field member => ?_⟩
  rcases Fields.mem_set member with kept | rfl
  · exact neat.plain field kept
  · rwa [plain.value.trimmed]

theorem Neat.setBody (neat : response.Neat) (body : Bytes) : (response.setBody body).Neat :=
  ⟨⟨neat.presentable.version, neat.presentable.status⟩, neat.plain⟩

theorem Neat.result (neat : response.Neat) {status : Nat} (range : 100 ≤ status ∧ status ≤ 999) :
    (response.result status).Neat :=
  ⟨⟨neat.presentable.version, range⟩, neat.plain⟩

theorem Neat.versioned (neat : response.Neat) {version : Nat} (small : version < 100) :
    Neat { response with version := version } :=
  ⟨⟨small, neat.presentable.status⟩, neat.plain⟩

theorem plain_field (named : name ≠ [] ∧ name.all tokenByte = true) (held : PlainValue value) :
    Plain (name, value) :=
  ⟨named.1, List.all_eq_true.mp named.2, held⟩

theorem Neat.keepAlive (neat : response.Neat) (keep : Bool) : (response.keepAlive keep).Neat := by
  refine ⟨⟨neat.presentable.version, neat.presentable.status⟩, fun field member => ?_⟩
  rcases Fields.mem_setOrErase member with kept | rfl
  · exact neat.plain field kept
  · refine plain_field (by decide) (PlainValue.trim ?_)
    refine Fields.joinTokens_plain fun token among => ?_
    rcases List.mem_append.mp among with other | wanted
    · exact Fields.tokens_plain (Fields.get_plain neat.plain _) (List.mem_filter.mp other).1
    · have one : token = Bytes.ascii "keep-alive" ∨ token = Bytes.ascii "close" := by
        split at wanted <;> split at wanted <;> simp_all
      rcases one with rfl | rfl
      · exact ⟨by decide, by decide⟩
      · exact ⟨by decide, by decide⟩

end Response

/-- A configuration whose values can stand in a header. -/
structure CorsConfig.Plain (config : CorsConfig) : Prop where
  allowOrigin : PlainValue config.allowOrigin
  allowMethods : PlainValue config.allowMethods
  allowHeaders : PlainValue config.allowHeaders
  exposeHeaders : PlainValue config.exposeHeaders
  maxAge : PlainValue config.maxAge

namespace Response

variable {response : Response} {config : CorsConfig}

theorem Neat.optional (neat : response.Neat) {name value : Bytes} (plain : Plain (name, value)) :
    Neat (if value = [] then response else response.set name value) := by
  split
  · exact neat
  · exact neat.set plain

theorem Neat.cors (neat : response.Neat) (plain : config.Plain) :
    (setCorsHeaders config response).Neat := by
  have credentials {listed : Response} (neat : listed.Neat) : Neat (if config.allowCredentials then
      listed.set (Bytes.ascii "Access-Control-Allow-Credentials") (Bytes.ascii "true")
      else listed) := by
    split
    · exact neat.set (by decide)
    · exact neat
  simp only [setCorsHeaders]
  split
  · apply credentials
    refine Neat.optional ?_ (plain_field (by decide) plain.maxAge)
    refine Neat.optional ?_ (plain_field (by decide) plain.exposeHeaders)
    refine Neat.optional ?_ (plain_field (by decide) plain.allowHeaders)
    refine Neat.optional ?_ (plain_field (by decide) plain.allowMethods)
    exact neat.set (plain_field (by decide) plain.allowOrigin)
  · exact neat

theorem Neat.fold {headers : Fields} (neat : response.Neat) (plain : ∀ field ∈ headers, Plain field) :
    Neat (headers.foldl (fun response field => response.set field.1 field.2) response) := by
  induction headers generalizing response with
  | nil => exact neat
  | cons field headers ih =>
    obtain ⟨first, others⟩ := List.forall_mem_cons.mp plain
    exact ih (neat.set first) others

theorem Neat.dress (neat : response.Neat) (plain : config.Plain) (isHttps : Bool) :
    (setResponseHeaders config isHttps response).Neat := by
  refine Neat.cors (neat.fold ?_) plain
  cases isHttps <;> decide

/-- It gives the length of its body, and has none where its status allows none. -/
structure Finished (response : Response) : Prop where
  neat : response.Neat
  sized : response.Sized
  bare : bodiless response.status = true → response.body = []

theorem Finished.conveyed (finished : response.Finished) : Conveys [.message response] response :=
  .whole response finished.neat.presentable finished.sized finished.bare

theorem Finished.keeps {later : Response} (finished : response.Finished)
    (keeps : response.Keeps later) (neat : later.Neat) : later.Finished := by
  refine ⟨neat, ?_, ?_⟩
  · rw [Sized, keeps.framing, keeps.body]
    exact finished.sized
  · rw [keeps.status, keeps.body]
    exact finished.bare

theorem Finished.dress (finished : response.Finished) (plain : config.Plain) (isHttps : Bool) :
    (setResponseHeaders config isHttps response).Finished :=
  finished.keeps (setResponseHeaders_keeps config isHttps response) (finished.neat.dress plain isHttps)

/-- The later one tells the client the same, but for how it is delivered. -/
structure SameContent (before after : Response) : Prop where
  status : after.status = before.status
  body : after.body = before.body
  fields : ∀ name, Field.delivers name = false → after.fields.find name = before.fields.find name

theorem SameContent.trans {middle after : Response} (one : response.SameContent middle)
    (two : middle.SameContent after) : response.SameContent after :=
  ⟨two.status.trans one.status, two.body.trans one.body,
    fun name other => (two.fields name other).trans (one.fields name other)⟩

theorem sameContent_version (response : Response) (version : Nat) :
    response.SameContent { response with version := version } := ⟨rfl, rfl, fun _ _ => rfl⟩

theorem sameContent_keepAlive (response : Response) (keep : Bool) :
    response.SameContent (response.keepAlive keep) := by
  refine ⟨rfl, rfl, fun name other => ?_⟩
  exact Fields.find_setOrErase_of_ne _ _ (Bool.or_eq_false_iff.mp other).1

theorem Neat.prepare (neat : response.Neat) (unframed : response.framing = (none, none)) :
    response.preparePayload = none ∧ bodiless response.status = true ∧ response.body ≠ [] ∨
      ∃ prepared, response.preparePayload = some prepared ∧ response.SameContent prepared ∧
        prepared.Finished := by
  by_cases refused : response.body ≠ [] ∧
      (response.status / 100 = 1 ∨ response.status = 204 ∨ response.status = 304)
  · refine .inl ⟨if_pos refused, ?_, refused.1⟩
    simpa [bodiless, or_assoc] using refused.2
  · have plain : response.fields.find Field.transferEncoding = none := congrArg Prod.snd unframed
    let measured := response.set Field.contentLength (Bytes.decimal response.body.length)
    have encoding : measured.fields.find Field.transferEncoding = none := by
      rw [← plain]
      exact Fields.find_set_of_ne _ _ (by decide)
    have unchanged : measured.dropChunked = measured := by
      have absent : Fields.tokens (measured.fields.get Field.transferEncoding) = [] := by
        rw [Fields.get, encoding]
        rfl
      simp only [dropChunked, absent, List.getLast?_nil, Option.any_none, Bool.false_eq_true, if_false]
    have length : PlainValue (Bytes.decimal response.body.length) := by
      exact ⟨Bytes.trim_decimal _, fun byte member => (mem_decimal member).1,
        fun member => (mem_decimal member).2.1 rfl⟩
    have same : response.SameContent measured :=
      ⟨rfl, rfl, fun name other => Fields.find_set_of_ne _ _ (Bool.or_eq_false_iff.mp other).2⟩
    refine .inr ⟨measured, ?_, same, ⟨neat.set (plain_field (by decide) length), ?_, ?_⟩⟩
    · rw [preparePayload, if_neg refused]
      exact congrArg some unchanged
    · rw [Sized, Response.framing, encoding]
      exact congrArg (·, none) (Fields.find_set_trimmed _ _ (Bytes.trim_decimal _))
    · intro bare
      have bare : bodiless response.status = true := bare
      by_contra filled
      exact refused ⟨filled, by simpa [bodiless, or_assoc] using bare⟩

theorem Neat.reports (neat : response.Neat) (unframed : response.framing = (none, none))
    {status : Nat} {contentType : Bytes} (text : Bytes) (range : 100 ≤ status ∧ status ≤ 999)
    (bodied : bodiless status = false) (plain : PlainValue contentType) :
    (plainResponse status contentType text response).Finished ∧
      (plainResponse status contentType text response).status = status ∧
      (plainResponse status contentType text response).body = text := by
  have filled : (((response.result status).set Field.contentType contentType).setBody text).Neat :=
    ((neat.result range).set (plain_field (by decide) plain)).setBody text
  have same := Keeps.set (response.result status) contentType
    (by decide : Field.framesBody Field.contentType = false)
  rcases filled.prepare (same.framing.trans unframed) with ⟨-, bare, -⟩ | ⟨prepared, done, kept, finished⟩
  · have bare : bodiless status = true := bare
    rw [bodied] at bare
    cases bare
  · rw [plainResponse, done]
    exact ⟨finished, kept.status, kept.body⟩

theorem Neat.answered (neat : response.Neat) (unframed : response.framing = (none, none))
    {status : Nat} {contentType : Bytes} (text : Bytes) (range : 100 ≤ status ∧ status ≤ 999)
    (bodied : bodiless status = false) (plain : PlainValue contentType) :
    (plainResponse status contentType text response).Finished :=
  (neat.reports unframed text range bodied plain).1

theorem Neat.internalServerError (neat : response.Neat)
    (unframed : response.framing = (none, none)) : (internalServerError response).Finished := by
  rw [Hku.internalServerError]
  exact neat.answered unframed _ (by decide) (by decide) (by decide)

theorem Neat.notFound (neat : response.Neat) (unframed : response.framing = (none, none)) :
    (notFound response).Finished := by
  rw [Hku.notFound]
  exact neat.answered unframed _ (by decide) (by decide) (by decide)

theorem Neat.http2Rejection (neat : response.Neat) (unframed : response.framing = (none, none)) :
    (http2Rejection response).Finished := by
  rw [Hku.http2Rejection]
  exact neat.answered unframed _ (by decide) (by decide) (by decide)

theorem Neat.tooManyRequests (neat : response.Neat) (unframed : response.framing = (none, none)) :
    (tooManyRequests response).Finished := by
  rw [Hku.tooManyRequests]
  have answered := neat.answered unframed
    (Bytes.ascii "\x7b\"error\": \"Rate limit exceeded\", \"code\": 429\x7d")
    (by decide : 100 ≤ 429 ∧ 429 ≤ 999) (by decide) (by decide : PlainValue Hku.json)
  exact answered.keeps (.set _ _ (by decide)) (answered.neat.set (by decide))

end Response

end Hku
