import HkuRest.Httpd.TlsWrites
import HkuRest.Mcp.EventStreamAnswers
import HkuRest.Mcp.ServiceMethods

/-! What a client reads of a tool that reports its progress: the notifications, each of them and
in the order in which the tool made them, and then the answer; it follows from the bytes of the
response alone. -/

namespace Hku

open Connection McpHandle

variable {service : McpService} {dispatched : Dispatched} {id : Json} {outs : List Output}
  {codec : JsonCodec}

namespace McpHandle

/-- The notifications of the progress, without those that `dump` threw on. -/
def notices (service : McpService) (dispatched : Dispatched) : List Json :=
  (dispatched.pushes.map progressNotification).filter fun notice => (service.codec.dump notice).isSome

/-- The response that the end of the method calls for; there is none to an exception or to no
value. -/
def answerTo (service : McpService) (id : Json) (dispatched : Dispatched) : Option Json :=
  match dispatched.outcome with
  | none => none
  | some result =>
      if result.err ≠ 0 then some (errorResponse service.bizErrMsg result.err id)
      else if result.value = .null then none
      else some (successResponse result.value id)

/-- All that is reported, in its order. -/
def reported (service : McpService) (id : Json) (dispatched : Dispatched) : List Json :=
  notices service dispatched ++
    (answerTo service id dispatched).toList.filter fun answer => (service.codec.dump answer).isSome

/-- The chunks of the stream. -/
def streamChunks (service : McpService) (id : Json) (dispatched : Dispatched) : List Bytes :=
  (pushedTexts service dispatched).map EventStream.event ++
    (replyText service id dispatched).toList.map sseMessage

theorem replyText_eq (service : McpService) (id : Json) (dispatched : Dispatched) :
    replyText service id dispatched =
      (answerTo service id dispatched).bind service.codec.dump := by
  unfold replyText answerTo
  cases dispatched.outcome with
  | none => rfl
  | some result =>
    by_cases succeeded : result.err = 0
    · by_cases empty : result.value = .null <;> simp [succeeded, empty]
    · simp [succeeded]

theorem streamChunks_filled (service : McpService) (id : Json) (dispatched : Dispatched) :
    ∀ data ∈ streamChunks service id dispatched, data ≠ [] := by
  intro data member
  rcases List.mem_append.mp member with pushed | replied
  · exact pushed_filled dispatched data pushed
  · obtain ⟨text, _, rfl⟩ := List.mem_map.mp replied
    exact sseMessage_ne_nil text

end McpHandle

theorem JsonCodec.parse_dumps (codec : JsonCodec) (values : List Json) :
    (values.filterMap codec.dump).filterMap codec.parse =
      values.filter fun value => (codec.dump value).isSome := by
  induction values with
  | nil => rfl
  | cons value values ih =>
    cases dumped : codec.dump value with
    | none => simp [dumped, ih]
    | some text => simp [dumped, ih, codec.parse_dump dumped]

theorem carried_streamChunks (service : McpService) (id : Json) (dispatched : Dispatched) :
    carried service.codec true (streamChunks service id dispatched).flatten =
      reported service id dispatched := by
  have pushed : pushedTexts service dispatched =
      (dispatched.pushes.map progressNotification).filterMap service.codec.dump := by
    simp [pushedTexts, List.filterMap_map]
  have ending : EventStream.events ((replyText service id dispatched).toList.map sseMessage).flatten =
      (replyText service id dispatched).toList := by
    cases replied : replyText service id dispatched with
    | none => rfl
    | some text =>
      have read : EventStream.events (sseMessage text ++ []) = text :: EventStream.events [] :=
        EventStream.events_namedEvent [] (by decide) (replyText_reads replied).1
      simpa using read
  have answered : (replyText service id dispatched).toList =
      (answerTo service id dispatched).toList.filterMap service.codec.dump := by
    rw [replyText_eq]
    cases answerTo service id dispatched with
    | none => rfl
    | some answer => cases dumped : service.codec.dump answer <;> simp [dumped]
  rw [carried, if_pos rfl, streamChunks, List.flatten_append, events_pushed, ending,
    List.filterMap_append, pushed, answered, service.codec.parse_dumps, service.codec.parse_dumps]
  rfl

/-- A stream of chunks with its end delivers them one after another, if there are any. -/
theorem Emits.delivers_stream_iff {chunks : List Bytes} (filled : ∀ data ∈ chunks, data ≠ [])
    (emits : Emits (chunkPieces chunks ++ [.last]) outs)
    (announced : ∀ response, .header response ∈ outs → response.Chunked) (streamed : Bool)
    (body : Bytes) :
    Delivers outs streamed body ↔ chunks ≠ [] ∧ streamed = true ∧ body = chunks.flatten := by
  have decoded : ChunkedCoding.decode
      (((chunkPieces chunks ++ [Piece.last]).map Piece.data).flatMap ChunkedCoding.chunk) =
        .complete chunks.flatten [] := by
    rw [List.map_append, chunkPieces_data]
    simpa [Piece.data] using ChunkedCoding.decode_complete chunks filled []
  constructor
  · intro delivers
    obtain ⟨isStreamed, opened, complete⟩ := emits.of_delivers delivers
    rw [decoded] at complete
    refine ⟨?_, isStreamed, (ChunkedCoding.Body.complete.inj complete).1.symm⟩
    rintro rfl
    exact not_opensOnce_last opened
  · rintro ⟨begun, rfl, rfl⟩
    have opened : OpensOnce (chunkPieces chunks ++ [.last]) := by
      cases chunks with
      | nil => exact absurd rfl begun
      | cons data more => exact opensOnce_chunkPieces data more
    exact emits.delivers announced opened decoded

/-- The pieces of a method that is streamed, unless an error opens the stream anew. -/
theorem pieces_reported {opening : List HandleCall} (sets : ∀ call ∈ opening, call.SetsHeader)
    (service : McpService) (id : Json) (dispatched : Dispatched)
    (calm : dispatched.failed = true → pushedTexts service dispatched = []) :
    pieces (opening ++ (setSseHeaders ++ [.enableChunkedTransfer]) ++
        dispatchCalls service [] true true id dispatched ++ [.finishChunkedTransfer]) =
      chunkPieces (streamChunks service id dispatched) ++ [.last] := by
  rw [pieces_streamed sets, streamChunks]
  cases replied : replyText service id dispatched with
  | none => simp [replyCalls, replied, piecesFrom, HandleCall.pieces]
  | some text =>
    cases failed : dispatched.failed with
    | false =>
      simp only [replyCalls, replied, failed, Bool.false_eq_true, if_false, if_true,
        piecesFrom_ended, Option.toList_some, List.map_cons, List.map_nil]
    | true =>
      simp only [replyCalls, replied, failed, if_true, pieces_errorCalls, calm failed]
      simp [chunkPieces, piecesFrom, HandleCall.pieces]

section

variable {Network : Type} {server : HttpServer}
  {read : Network → Bytes → Option (Request × Bytes × Network)} {now : Circumstances} {index : Nat}
  {connection : Connection} {network : Network} {visits : Nat → Visit} {request : Request}
  {json : Json} {method sessionId : Bytes} {headers : List HandleCall} {sessions : SessionManager}

theorem Handles.delivers_iff {opening : List HandleCall}
    (handles : Handles server read now index connection network service visits request)
    (sets : ∀ call ∈ opening, call.SetsHeader)
    (ran : run service (visits index) [] (server.fixHost request) =
      ⟨opening ++ (setSseHeaders ++ [.enableChunkedTransfer]) ++
        dispatchCalls service [] true true id dispatched ++ [.finishChunkedTransfer],
        .returned bizOk⟩)
    (calm : dispatched.failed = true → pushedTexts service dispatched = []) (streamed : Bool)
    (body : Bytes) :
    Delivers (turn server read now index connection network).outputs streamed body ↔
      streamChunks service id dispatched ≠ [] ∧ streamed = true ∧
        body = (streamChunks service id dispatched).flatten := by
  have announced := handles.announced ran (by
    simp only [List.forall_mem_append, List.forall_mem_singleton]
    refine ⟨⟨⟨?_, ?_, trivial⟩, dispatchCalls_keepsFraming _ _ _ _ _⟩, trivial⟩
    · intro call member
      exact (sets call member).keepsFraming
    · intro call member
      exact (setSseHeaders_setsHeader call member).keepsFraming)
  have answered := handles.answered ran
  rw [pieces_reported sets service id dispatched calm] at answered
  exact (answered.ended (by simp)).delivers_stream_iff
    (streamChunks_filled service id dispatched) announced streamed body

/-- A client that accepts event streams and calls the tool that is streamed, on a connection without
TLS, gets one response, all of it through the socket. It carries the progress, all of it that can be
dumped and in order, and then the answer, and nothing else; if nothing was reported there is none.
Only an error after progress is left out. -/
theorem progress_streamed
    (handles : Handles server read now index connection network service visits request)
    (plain : connection.ssl = false)
    (posts : Posts service (server.fixHost request) json method id)
    (gate : openSession (visits index) method (extractSessionId (server.fixHost request)) =
      (.ok (sessionId, headers), sessions))
    (sse : supportsSse (server.fixHost request) = true)
    (streams : enableStreaming true method (paramsOf json) = some true)
    (dispatches : service.dispatchMethod { visits index with sessions := sessions } method
      (paramsOf json) sessionId id true = dispatched)
    (calm : dispatched.failed = true → pushedTexts service dispatched = []) :
    (∀ write ∈ (turn server read now index connection network).writes, write.layer = .tcp) ∧
      (reported service id dispatched ≠ [] → ∃ body,
        Delivers (turn server read now index connection network).outputs true body) ∧
      ∀ streamed body, Delivers (turn server read now index connection network).outputs streamed body →
        carried service.codec streamed body = reported service id dispatched := by
  refine ⟨turn_writes_tcp plain, ?_⟩
  have ran := run_dispatched posts gate (sse ▸ streams)
  simp only [sse, if_true, dispatches] at ran
  have delivers := handles.delivers_iff (openSession_echoed gate) ran calm
  constructor
  · intro some
    refine ⟨_, (delivers true _).mpr ⟨?_, rfl, rfl⟩⟩
    intro none
    rw [← carried_streamChunks, none] at some
    exact some rfl
  · intro streamed body delivered
    obtain ⟨_, rfl, rfl⟩ := (delivers streamed body).mp delivered
    exact carried_streamChunks service id dispatched

end

namespace McpHandle

/-- The progress of the task, and its result. -/
theorem progress_streamed_task :
    (∃ body, Delivers (turn demoServer arriving .calm 0 (.create false) [post taskCall]).outputs true
        body) ∧
      ∀ streamed body,
        Delivers (turn demoServer arriving .calm 0 (.create false) [post taskCall]).outputs streamed
          body →
        carried demoService.codec streamed body =
          [progressNotification taskStarted, successResponse taskResult (.integer 1)] := by
  have posts : Posts demoService (demoServer.fixHost (post taskCall)) taskCall
      (Bytes.ascii "tools/call") (.integer 1) := jsonrpcCall_posts (by decide +kernel) (by decide +kernel)
  obtain ⟨-, streamed⟩ := progress_streamed (demoServer_handles taskCall) rfl posts rfl
    (by decide +kernel) (by decide +kernel) rfl (by decide +kernel)
  have reports : reported demoService (.integer 1) ⟨[taskStarted], some ⟨taskResult, bizOk⟩⟩ =
      [progressNotification taskStarted, successResponse taskResult (.integer 1)] := by
    decide +kernel
  rw [← reports]
  exact ⟨streamed.1 (by decide +kernel), streamed.2⟩

end McpHandle

end Hku
