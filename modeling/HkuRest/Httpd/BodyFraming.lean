import HkuRest.Httpd.ChunkedWrites

/-! What the header of a response says about its body: how long it is, or that it comes
in chunks. Framework and handlers leave these two fields to `prepare_payload()` and
`enableChunkedTransfer()`. -/

namespace Hku

open Connection

/-- The name of one of these fields. -/
def Field.framesBody (name : Bytes) : Bool :=
  name.iequals Field.contentLength || name.iequals Field.transferEncoding

namespace Response

/-- The fields `Content-Length` and `Transfer-Encoding`. -/
def framing (response : Response) : Option Bytes × Option Bytes :=
  (response.fields.find Field.contentLength, response.fields.find Field.transferEncoding)

/-- It gives the length of its body. -/
def Sized (response : Response) : Prop :=
  response.framing = (some (Bytes.decimal response.body.length), none)

/-- It says that its body comes in chunks. -/
def Chunked (response : Response) : Prop :=
  response.framing = (none, some (Bytes.ascii "chunked"))

/-- Only other header fields differ. -/
structure Keeps (before after : Response) : Prop where
  body : after.body = before.body
  status : after.status = before.status
  framing : after.framing = before.framing

variable {before middle after response : Response} {name : Bytes}

theorem Keeps.refl (response : Response) : Keeps response response := ⟨rfl, rfl, rfl⟩

theorem Keeps.trans (one : Keeps before middle) (two : Keeps middle after) : Keeps before after :=
  ⟨two.body.trans one.body, two.status.trans one.status, two.framing.trans one.framing⟩

theorem Keeps.set (response : Response) (value : Bytes)
    (other : Field.framesBody name = false) : Keeps response (response.set name value) := by
  obtain ⟨length, encoding⟩ := Bool.or_eq_false_iff.mp other
  refine ⟨rfl, rfl, ?_⟩
  simp only [Response.framing, Response.set]
  rw [Fields.find_set_of_ne _ value length, Fields.find_set_of_ne _ value encoding]

theorem Keeps.optional (response : Response) (value : Bytes)
    (other : Field.framesBody name = false) :
    Keeps response (if value = [] then response else response.set name value) := by
  split
  · exact .refl response
  · exact .set response value other

theorem Keeps.fold (headers : Fields) (response : Response)
    (other : ∀ field ∈ headers, Field.framesBody field.1 = false) :
    Keeps response (headers.foldl (fun response field => response.set field.1 field.2) response) := by
  induction headers generalizing response with
  | nil => exact .refl response
  | cons field rest ih =>
    obtain ⟨first, others⟩ := List.forall_mem_cons.mp other
    exact (Keeps.set response field.2 first).trans (ih _ others)

theorem Keeps.keepAlive (response : Response) (value : Bool) :
    Keeps response (response.keepAlive value) := by
  refine ⟨rfl, rfl, ?_⟩
  simp only [Response.framing, Response.keepAlive]
  rw [Fields.find_setOrErase_of_ne _ _ (by decide), Fields.find_setOrErase_of_ne _ _ (by decide)]

theorem setCorsHeaders_keeps (config : CorsConfig) (response : Response) :
    Keeps response (setCorsHeaders config response) := by
  have credentials (listed : Response) : Keeps listed (if config.allowCredentials then
      listed.set (Bytes.ascii "Access-Control-Allow-Credentials") (Bytes.ascii "true")
      else listed) := by
    split
    · exact .set _ _ (by decide)
    · exact .refl listed
  simp only [setCorsHeaders]
  split
  · apply Keeps.trans _ (credentials _)
    apply Keeps.trans _ (.optional _ _ (by decide))
    apply Keeps.trans _ (.optional _ _ (by decide))
    apply Keeps.trans _ (.optional _ _ (by decide))
    apply Keeps.trans _ (.optional _ _ (by decide))
    exact .set _ _ (by decide)
  · exact .refl response

theorem setResponseHeaders_keeps (config : CorsConfig) (isHttps : Bool) (response : Response) :
    Keeps response (setResponseHeaders config isHttps response) := by
  simp only [setResponseHeaders]
  apply Keeps.trans _ (setCorsHeaders_keeps config _)
  apply Keeps.fold
  cases isHttps <;> decide

theorem preparePayload_sized (allowed : response.status = 200)
    (unframed : response.framing = (none, none)) :
    ∃ prepared, response.preparePayload = some prepared ∧ prepared.body = response.body ∧
      prepared.Sized := by
  have permitted : ¬ (response.body ≠ [] ∧
      (response.status / 100 = 1 ∨ response.status = 204 ∨ response.status = 304)) := by
    rw [allowed]
    simp
  have plain : response.fields.find Field.transferEncoding = none := congrArg Prod.snd unframed
  let measured := response.set Field.contentLength (Bytes.decimal response.body.length)
  have encoding : measured.fields.find Field.transferEncoding = none := by
    rw [← plain]
    exact Fields.find_set_of_ne _ _ (by decide)
  have unchanged : measured.dropChunked = measured := by
    have absent : Fields.tokens (measured.fields.get Field.transferEncoding) = [] := by
      rw [Fields.get, encoding]
      rfl
    simp only [dropChunked, absent, List.getLast?_nil, Option.any_none, Bool.false_eq_true, if_false]
  refine ⟨measured, ?_, rfl, ?_⟩
  · rw [preparePayload, if_neg permitted]
    exact congrArg some unchanged
  · rw [Sized, Response.framing, encoding]
    exact congrArg (·, none) (Fields.find_set_trimmed _ _ (Bytes.trim_decimal _))

end Response

/-- A call that leaves the two fields to the framework. -/
def HandleCall.KeepsFraming : HandleCall → Prop
  | .respond change => ∀ response, (change response).framing = response.framing
  | _ => True

/-- Whatever is streamed is announced in its header. -/
structure Announces (exchange : Exchange) : Prop where
  unsized : exchange.context.res.fields.find Field.contentLength = none
  announced : exchange.chunkedTransfer = true → exchange.context.res.Chunked
  headers : ∀ response, .header response ∈ exchange.writes.map Write.output → response.Chunked

variable {sendOk : Nat → Bool} {exchange : Exchange}

theorem Announces.send (announces : Announces exchange) (layer : Layer) {output : Output}
    (headed : ∀ response, output = .header response → response.Chunked) :
    Announces (exchange.send sendOk layer output).1 := by
  refine ⟨announces.unsized, announces.announced, ?_⟩
  intro response member
  simp only [Exchange.send, List.map_append, List.mem_append, List.map_cons, List.map_nil,
    List.mem_singleton] at member
  rcases member with before | last
  · exact announces.headers response before
  · exact headed response last.symm

theorem Response.set_chunked {response : Response}
    (unsized : response.fields.find Field.contentLength = none) :
    (response.set Field.transferEncoding (Bytes.ascii "chunked")).Chunked := by
  have length := Fields.find_set_of_ne response.fields (Bytes.ascii "chunked")
    (by decide : Field.transferEncoding.iequals Field.contentLength = false)
  have encoding := Fields.find_set_trimmed response.fields Field.transferEncoding
    (by decide : (Bytes.ascii "chunked").trim = Bytes.ascii "chunked")
  exact Prod.ext (length.trans unsized) encoding

theorem Announces.writeChunkVia (announces : Announces exchange) {prepare : Response → Response}
    (prepared : ∀ response, response.Chunked → (prepare response).Chunked) (data : Bytes) :
    Announces (exchange.writeChunkVia sendOk prepare data).1 := by
  have raw {exchange : Exchange} (announces : Announces exchange) :
      Announces (exchange.send sendOk .tcp (.raw (ChunkedCoding.chunk data))).1 :=
    announces.send .tcp (by simp)
  unfold Exchange.writeChunkVia
  split
  · rename_i enabled
    split
    · exact raw announces
    · have chunked := prepared _ (announces.announced enabled)
      have ready : Announces ({ exchange with headersSent := true }.respond prepare) :=
        ⟨congrArg Prod.fst chunked, fun _ => chunked, announces.headers⟩
      have opened : Announces (({ exchange with headersSent := true }.respond prepare).send sendOk
          .tcp (.header (prepare exchange.context.res))).1 := by
        apply ready.send .tcp
        rintro response ⟨⟩
        exact chunked
      dsimp only
      split
      · exact raw opened
      · exact opened
  · exact announces

theorem Announces.finishChunkedTransferVia (announces : Announces exchange) (throws : Bool) :
    Announces (exchange.finishChunkedTransferVia sendOk throws).1 := by
  have closed : Announces (exchange.send sendOk .tcp (.raw (Bytes.ascii "0\r\n\r\n"))).1 :=
    announces.send .tcp (by simp)
  unfold Exchange.finishChunkedTransferVia
  split
  · dsimp only
    split
    · exact ⟨closed.unsized, closed.announced, closed.headers⟩
    · exact ⟨closed.unsized, nofun, closed.headers⟩
  · exact announces

theorem Announces.perform (announces : Announces exchange) {call : HandleCall}
    (keeps : call.KeepsFraming) : Announces (call.perform sendOk exchange) := by
  cases call with
  | respond change =>
    have same := keeps exchange.context.res
    refine ⟨(congrArg Prod.fst same).trans announces.unsized, ?_, announces.headers⟩
    intro enabled
    exact same.trans (announces.announced enabled)
  | enableChunkedTransfer =>
    have chunked := Response.set_chunked announces.unsized
    exact ⟨congrArg Prod.fst chunked, fun _ => chunked, announces.headers⟩
  | writeChunk data =>
    apply announces.writeChunkVia _ data
    intro response chunked
    exact chunked
  | writeChunkSync data =>
    apply announces.writeChunkVia _ data
    intro response chunked
    exact Response.set_chunked (congrArg Prod.fst chunked)
  | finishChunkedTransfer => exact announces.finishChunkedTransferVia true
  | finishChunkedTransferSync => exact announces.finishChunkedTransferVia false

theorem Announces.calls (announces : Announces exchange) {calls : List HandleCall}
    (keeps : ∀ call ∈ calls, call.KeepsFraming) :
    Announces (calls.foldl (HandleCall.perform sendOk) exchange) := by
  induction calls generalizing exchange with
  | nil => exact announces
  | cons call rest ih =>
    obtain ⟨first, others⟩ := List.forall_mem_cons.mp keeps
    exact ih (announces.perform first) others

variable {Network : Type} {server : HttpServer}
  {read : Network → Bytes → Option (Request × Bytes × Network)} {now : Circumstances} {index : Nat}
  {connection : Connection} {network : Network} {request : Request} {handler : HandlerFunc}
  {handle : Handle}

theorem dressed_framing (server : HttpServer) (connection : Connection) (request : Request)
    (buffer : Bytes) :
    (dressed server connection request buffer).context.res.framing = (none, none) :=
  (Response.setResponseHeaders_keeps server.corsConfig connection.ssl .empty).framing

theorem turn_announces
    (requested : (turn server read now index connection network).request = some request)
    (dispatched : server.action now.admitted request = .dispatch)
    (routed : server.route request = .found handler)
    (handled : handler index (server.fixHost request) = .handle handle)
    (keeps : ∀ call ∈ handle.calls, call.KeepsFraming) :
    ∀ response, .header response ∈ (turn server read now index connection network).outputs →
      response.Chunked := by
  obtain ⟨buffer, outputs⟩ := turn_invoked requested dispatched routed handled
  obtain ⟨change, invoked⟩ := invoke_spec server.bizErrMsg now.sendOk handle
    (dressed server connection request buffer)
  have fresh : Announces (dressed server connection request buffer) :=
    ⟨congrArg Prod.fst (dressed_framing server connection request buffer), nofun, by simp⟩
  have settled : (settle (handle.invoke server.bizErrMsg now.sendOk
      (dressed server connection request buffer))).writes =
      (handle.calls.foldl (HandleCall.perform now.sendOk)
        (dressed server connection request buffer)).writes := by
    rw [invoked, settle]
    split <;> rfl
  intro response member
  apply (fresh.calls keeps).headers response
  rw [← settled]
  rw [outputs, writeResponse] at member
  split at member
  · exact member
  · simpa [Exchange.send] using member

end Hku
