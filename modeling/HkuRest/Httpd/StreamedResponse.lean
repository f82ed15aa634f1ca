import HkuRest.Httpd.ResponseFraming

/-! A handler that enables chunked transfer, writes chunks and then ends in any
way. Its chunks open a response each time a chunk follows an enabling; the
connection adds a message of its own unless a terminator was sent. -/

namespace Hku

open ChunkedCoding Connection

/-- The calls of a streaming handler between its first enabling and its end: chunks
with data, further enablings, and changes of the response. -/
def HandleCall.streams : HandleCall → Bool
  | .respond _ | .enableChunkedTransfer => true
  | .writeChunk data | .writeChunkSync data => data ≠ []
  | .finishChunkedTransfer | .finishChunkedTransferSync => false

inductive Finish
  | missing
  | async
  | sync
  deriving DecidableEq, Repr

def Finish.calls : Finish → List HandleCall
  | .missing => []
  | .async => [.finishChunkedTransfer]
  | .sync => [.finishChunkedTransferSync]

/-- A streaming handler, with the changes of the response around its stream. -/
def streamingCalls (prepare : List (Response → Response)) (writes : List HandleCall)
    (finish : Finish) (conclude : List (Response → Response)) : List HandleCall :=
  prepare.map .respond ++
    .enableChunkedTransfer :: (writes ++ (finish.calls ++ conclude.map .respond))

/-- How often a chunk comes first after an enabling; `opened` says whether the
enabling in force has had its first chunk. -/
def openings (opened : Bool) : List HandleCall → Nat
  | [] => 0
  | .enableChunkedTransfer :: rest => openings false rest
  | .writeChunk _ :: rest | .writeChunkSync _ :: rest =>
      (if opened then 0 else 1) + openings true rest
  | _ :: rest => openings opened rest

theorem piecesFrom_responds (chunked opened : Bool) (changes : List (Response → Response))
    (rest : List HandleCall) :
    piecesFrom chunked opened (changes.map .respond ++ rest) = piecesFrom chunked opened rest := by
  induction changes with
  | nil => rfl
  | cons change changes ih => exact ih

theorem piecesFrom_responds_nil (chunked opened : Bool) (changes : List (Response → Response)) :
    piecesFrom chunked opened (changes.map .respond) = [] := by
  have alone := piecesFrom_responds chunked opened changes []
  simpa [piecesFrom] using alone

/-- The pieces of streaming calls: chunks with data, opened as often as counted, and
the first of them opening unless the stream was open before. -/
structure StreamPieces (opened : Bool) (count : Nat) (sent : List Piece) : Prop where
  filled : ∀ data ∈ sent.map Piece.data, data ≠ []
  unterminated : .last ∉ sent
  counted : sent.countP Piece.opens = count
  opening : opened = false → sent = [] ∨ ∃ data more, sent = .first data :: more

theorem streaming_pieces (writes : List HandleCall) (streams : ∀ call ∈ writes, call.streams = true)
    (opened : Bool) (rest : List HandleCall) :
    ∃ sent after, piecesFrom true opened (writes ++ rest) = sent ++ piecesFrom true after rest ∧
      StreamPieces opened (openings opened writes) sent := by
  induction writes generalizing opened with
  | nil => exact ⟨[], opened, rfl, by simp, by simp, rfl, fun _ => .inl rfl⟩
  | cons call writes ih =>
    obtain ⟨allowed, others⟩ := List.forall_mem_cons.mp streams
    have tail := ih others
    cases call with
    | respond change => exact tail opened
    | enableChunkedTransfer =>
      obtain ⟨sent, after, split, piece⟩ := tail false
      exact ⟨sent, after, split, piece.filled, piece.unterminated, piece.counted,
        fun _ => piece.opening rfl⟩
    | writeChunk data | writeChunkSync data =>
      obtain ⟨sent, after, split, piece⟩ := tail true
      have nonempty : data ≠ [] := by simpa [HandleCall.streams] using allowed
      cases opened with
      | true =>
        refine ⟨.next data :: sent, after, congrArg (Piece.next data :: ·) split, ?_, ?_, ?_, ?_⟩
        · simpa [Piece.data, nonempty] using piece.filled
        · simpa using piece.unterminated
        · simpa [openings, Piece.opens] using piece.counted
        · intro closed
          cases closed
      | false =>
        refine ⟨.first data :: sent, after, congrArg (Piece.first data :: ·) split, ?_, ?_, ?_, ?_⟩
        · simpa [Piece.data, nonempty] using piece.filled
        · simpa using piece.unterminated
        · simp [openings, Piece.opens, List.countP_cons, piece.counted, Nat.add_comm]
        · intro _
          exact .inr ⟨data, sent, rfl⟩
    | finishChunkedTransfer | finishChunkedTransferSync => cases allowed

theorem streamingCalls_pieces (prepare : List (Response → Response)) (writes : List HandleCall)
    (streams : ∀ call ∈ writes, call.streams = true) (finish : Finish)
    (conclude : List (Response → Response)) :
    ∃ sent, pieces (streamingCalls prepare writes finish conclude) =
        sent ++ (if finish = .missing then [] else [.last]) ∧
      StreamPieces false (openings false writes) sent := by
  obtain ⟨sent, after, split, piece⟩ :=
    streaming_pieces writes streams false (finish.calls ++ conclude.map .respond)
  refine ⟨sent, ?_, piece⟩
  have ending : piecesFrom true after (finish.calls ++ conclude.map .respond) =
      if finish = .missing then [] else [.last] := by
    cases finish with
    | missing => exact piecesFrom_responds_nil true after conclude
    | async | sync => exact congrArg (Piece.last :: ·) (piecesFrom_responds_nil false false conclude)
  rw [← ending, ← split, pieces, streamingCalls, piecesFrom_responds]
  rfl

theorem countP_opens_eq_zero_iff {sent : List Piece} :
    sent.countP Piece.opens = 0 ↔ ∀ piece ∈ sent, piece.opens = false := by
  simp [List.countP_eq_zero]

theorem StreamPieces.opensOnce_iff {count : Nat} {sent tail : List Piece}
    (piece : StreamPieces false count sent) (closed : ∀ piece ∈ tail, piece.opens = false) :
    OpensOnce (sent ++ tail) ↔ count = 1 := by
  rw [← piece.counted]
  constructor
  · rintro ⟨data, more, shape, unopened⟩
    have counted : (sent ++ tail).countP Piece.opens = 1 := by
      rw [shape, List.countP_cons, countP_opens_eq_zero_iff.mpr unopened]
      rfl
    rwa [List.countP_append, countP_opens_eq_zero_iff.mpr closed, Nat.add_zero] at counted
  · intro once
    obtain rfl | ⟨data, more, rfl⟩ := piece.opening rfl
    · cases once
    · have none : more.countP Piece.opens = 0 := by
        simpa [List.countP_cons, Piece.opens] using once
      refine ⟨data, more ++ tail, rfl, ?_⟩
      intro p member
      rcases List.mem_append.mp member with inside | after
      · exact countP_opens_eq_zero_iff.mp none p inside
      · exact closed p after

theorem StreamPieces.empty_iff {count : Nat} {sent : List Piece}
    (piece : StreamPieces false count sent) : sent = [] ↔ count = 0 := by
  rw [← piece.counted]
  constructor
  · rintro rfl
    rfl
  · intro none
    obtain empty | ⟨data, more, rfl⟩ := piece.opening rfl
    · exact empty
    · have unopened := countP_opens_eq_zero_iff.mp none _ List.mem_cons_self
      cases unopened

/-- One header block, at most one body and nothing after it: a streaming handler
achieves this if and only if its openings and the message that the connection adds
(unless a terminator was sent, now or on an earlier request) are one together. -/
theorem streamed_single_message_iff {Network : Type} (server : HttpServer)
    (read : Network → Bytes → Option (Request × Bytes × Network)) (circumstances : Circumstances)
    (ok : ∀ n, circumstances.sendOk n = true) (index : Nat) (connection : Connection)
    (network : Network) (request : Request)
    (requested : (turn server read circumstances index connection network).request = some request)
    (prepare : List (Response → Response)) (writes : List HandleCall)
    (streams : ∀ call ∈ writes, call.streams = true) (finish : Finish)
    (conclude : List (Response → Response))
    (handled : server.handlerCalls circumstances.admitted index request =
      streamingCalls prepare writes finish conclude) :
    SingleMessage (turn server read circumstances index connection network).outputs ↔
      openings false writes +
        (if finish ≠ .missing ∨ connection.session.responseSent = true then 0 else 1) = 1 := by
  obtain ⟨sent, shape, piece⟩ := streamingCalls_pieces prepare writes streams finish conclude
  have plain : server.action circumstances.admitted request ≠ .upgrade := by
    intro upgrade
    have made := congrArg List.length handled
    simp [HttpServer.handlerCalls, upgrade, streamingCalls] at made
  have answered := turn_answered ok requested plain
  rw [handled, shape] at answered
  obtain ⟨outs, response, emits, written⟩ := answered.wrote
  rw [written, answered.marked]
  cases finish with
  | missing =>
    rw [if_pos rfl, List.append_nil] at emits ⊢
    have unterminated : sent.contains .last = false := by simpa using piece.unterminated
    rw [unterminated, Bool.or_false]
    cases earlier : connection.session.responseSent with
    | true =>
      have unfinished := decode_unfinished (sent.map Piece.data) piece.filled
      have opens := piece.opensOnce_iff (fun p (member : p ∈ []) => absurd member List.not_mem_nil)
      rw [List.append_nil] at opens
      rw [if_pos rfl, List.append_nil, emits.singleMessage_iff, opens, if_pos (.inr rfl)]
      exact ⟨And.left, fun once => ⟨once, _, .inr unfinished⟩⟩
    | false =>
      rw [if_neg Bool.false_ne_true, emits.singleMessage_message_iff, piece.empty_iff,
        if_neg (by simp)]
      omega
  | async | sync =>
    simp only [reduceCtorEq, if_false, ne_eq, not_false_iff, true_or, if_true, Nat.add_zero]
      at emits ⊢
    have terminated : (sent ++ [Piece.last]).contains .last = true := by simp
    obtain ⟨data, decoded⟩ := (decode_chunks_complete_iff ((sent ++ [Piece.last]).map Piece.data)).mpr
      ⟨sent.map Piece.data, by simp [Piece.data], piece.filled⟩
    rw [terminated, Bool.or_true, if_pos rfl, List.append_nil, emits.singleMessage_iff,
      piece.opensOnce_iff (by simp [Piece.opens])]
    exact ⟨And.left, fun once => ⟨once, data, .inl decoded⟩⟩

def oneRoute (handle : Handle) : HttpServer :=
  .ofRoutes [(⟨Bytes.ascii "GET", Bytes.ascii "/stream"⟩, fun _ _ => .handle handle)]

def getStream : Request := ⟨Bytes.ascii "GET", Bytes.ascii "/stream", 11, [], []⟩

def oneChunk (finish : Finish) : Handle :=
  .ofRun ⟨streamingCalls [] [.writeChunk (Bytes.ascii "data")] finish [], .returned bizOk⟩

theorem streamed_single_message_iff_finished :
    SingleMessage (turn (oneRoute (oneChunk .async)) arriving .calm 0 (.create false)
      [getStream]).outputs ↔
      openings false [.writeChunk (Bytes.ascii "data")] +
        (if Finish.async ≠ .missing ∨ (Connection.create false).session.responseSent = true then 0
          else 1) = 1 :=
  streamed_single_message_iff (oneRoute (oneChunk .async)) arriving .calm (fun _ => rfl) 0
    (.create false) [getStream] getStream (by decide +kernel) [] [.writeChunk (Bytes.ascii "data")]
    (by decide) .async [] rfl

/-- The handler returns success without finishing: a second response follows its chunk. -/
theorem unfinished_stream_followed_by_message :
    ¬ ∀ (server : HttpServer) (circumstances : Circumstances) (index : Nat) (connection : Connection)
      (requests : List Request) (request : Request) (prepare : List (Response → Response))
      (writes : List HandleCall) (finish : Finish) (conclude : List (Response → Response)),
      (∀ n, circumstances.sendOk n = true) →
      (turn server arriving circumstances index connection requests).request = some request →
      (∀ call ∈ writes, call.streams = true) →
      server.handlerCalls circumstances.admitted index request =
        streamingCalls prepare writes finish conclude →
      SingleMessage (turn server arriving circumstances index connection requests).outputs := by
  intro singles
  have single := singles (oneRoute (oneChunk .missing)) .calm 0 (.create false) [getStream] getStream
    [] [.writeChunk (Bytes.ascii "data")] .missing [] (fun _ => rfl) (by decide +kernel) (by decide) rfl
  have shape : ∃ first second, (turn (oneRoute (oneChunk .missing)) arriving .calm 0 (.create false)
      [getStream]).outputs =
        [.header first, .raw (chunk (Bytes.ascii "data")), .message second] :=
    ⟨_, _, rfl⟩
  obtain ⟨first, second, shape⟩ := shape
  rw [shape] at single
  generalize outputs : [Output.header first, .raw (chunk (Bytes.ascii "data")), .message second] =
    all at single
  cases single with
  | whole response => cases outputs
  | chunked response raws data decoded =>
    have member : Output.message second ∈ raws.map Output.raw := by
      rw [← (List.cons.inj outputs).2]
      simp
    simp at member

end Hku
