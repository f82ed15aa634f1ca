import HkuRest.Httpd.ChunkedWrites

/-! A body sent in chunks, as its recipient decodes it. The terminator of the chunked coding
is the chunk without data, and so is what `writeChunk` writes for an empty string. -/

namespace Hku

/-- A call of `writeChunk`, or of `writeChunkSync`. -/
structure ChunkWrite where
  data : Bytes
  sync : Bool
  deriving DecidableEq, Repr

namespace ChunkWrite

def perform (sendOk : Nat → Bool) (exchange : Exchange) (write : ChunkWrite) : Exchange × Bool :=
  if write.sync then exchange.writeChunkSync sendOk write.data
  else exchange.writeChunk sendOk write.data

end ChunkWrite

namespace Exchange

/-- The calls one after another, and whether each of them answers true. -/
def writeChunks (sendOk : Nat → Bool) : Exchange → List ChunkWrite → Exchange × Bool
  | exchange, [] => (exchange, true)
  | exchange, write :: rest =>
      let (wrote, delivered) := write.perform sendOk exchange
      let (after, others) := writeChunks sendOk wrote rest
      (after, delivered && others)

/-- `finishChunkedTransfer`, or `finishChunkedTransferSync`. -/
def finish (sendOk : Nat → Bool) (exchange : Exchange) (sync : Bool) : Exchange × Bool :=
  if sync then exchange.finishChunkedTransferSync sendOk else exchange.finishChunkedTransfer sendOk

/-- A whole body: the enabling, the chunks and the end. -/
def stream (sendOk : Nat → Bool) (exchange : Exchange) (writes : List ChunkWrite) (sync : Bool) :
    Exchange × Bool :=
  let (wrote, delivered) := exchange.enableChunkedTransfer.writeChunks sendOk writes
  let (after, finished) := wrote.finish sendOk sync
  (after, delivered && finished)

end Exchange

def Output.body : Output → Bytes
  | .raw bytes => bytes
  | _ => []

def bodyBytes (writes : List Write) : Bytes := writes.flatMap fun write => write.output.body

/-- What was written since, without the header. -/
def Exchange.emitted (before after : Exchange) : Bytes :=
  bodyBytes (after.writes.drop before.writes.length)

variable {sendOk : Nat → Bool} {exchange : Exchange} {write : ChunkWrite}

theorem perform_writes (enabled : exchange.chunkedTransfer = true)
    (delivered : (write.perform sendOk exchange).2 = true) :
    (write.perform sendOk exchange).1.chunkedTransfer = true ∧
      ∃ added, (write.perform sendOk exchange).1.writes = exchange.writes ++ added ∧
        bodyBytes added = ChunkedCoding.chunk write.data := by
  have via (prepare : Response → Response)
      (delivered : (exchange.writeChunkVia sendOk prepare write.data).2 = true) :
      (exchange.writeChunkVia sendOk prepare write.data).1.chunkedTransfer = true ∧
        ∃ added, (exchange.writeChunkVia sendOk prepare write.data).1.writes =
          exchange.writes ++ added ∧ bodyBytes added = ChunkedCoding.chunk write.data := by
    simp only [Exchange.writeChunkVia, enabled, if_true, Exchange.send, Exchange.respond] at delivered ⊢
    cases opened : exchange.headersSent with
    | true =>
      rw [if_pos rfl]
      exact ⟨rfl, _, rfl, by simp [bodyBytes, Output.body]⟩
    | false =>
      simp only [opened, Bool.false_eq_true, if_false] at delivered ⊢
      split at delivered
      · rename_i header
        rw [if_pos header]
        exact ⟨rfl, _, List.append_assoc _ _ _, by simp [bodyBytes, Output.body]⟩
      · cases delivered
  unfold ChunkWrite.perform at delivered ⊢
  split at delivered
  · rename_i sync
    rw [if_pos sync]
    exact via _ delivered
  · rename_i async
    rw [if_neg async]
    exact via _ delivered

theorem writeChunks_writes (enabled : exchange.chunkedTransfer = true) (writes : List ChunkWrite)
    (delivered : (exchange.writeChunks sendOk writes).2 = true) :
    (exchange.writeChunks sendOk writes).1.chunkedTransfer = true ∧
      ∃ added, (exchange.writeChunks sendOk writes).1.writes = exchange.writes ++ added ∧
        bodyBytes added = (writes.map ChunkWrite.data).flatMap ChunkedCoding.chunk := by
  induction writes generalizing exchange with
  | nil => exact ⟨enabled, [], (List.append_nil _).symm, rfl⟩
  | cons write rest ih =>
    simp only [Exchange.writeChunks, Bool.and_eq_true] at delivered ⊢
    obtain ⟨first, others⟩ := delivered
    obtain ⟨still, added, wrote, body⟩ := perform_writes enabled first
    obtain ⟨last, more, wroteMore, bodyMore⟩ := ih still others
    refine ⟨last, added ++ more, ?_, ?_⟩
    · rw [wroteMore, wrote, List.append_assoc]
    · rw [bodyBytes, List.flatMap_append, ← bodyBytes, ← bodyBytes, body, bodyMore]
      rfl

theorem finish_writes (enabled : exchange.chunkedTransfer = true) (sync : Bool) :
    (exchange.finish sendOk sync).1.writes =
      exchange.writes ++ [⟨.tcp, .raw (ChunkedCoding.chunk [])⟩] := by
  have via (throws : Bool) : (exchange.finishChunkedTransferVia sendOk throws).1.writes =
      exchange.writes ++ [⟨.tcp, .raw (ChunkedCoding.chunk [])⟩] := by
    simp only [Exchange.finishChunkedTransferVia, enabled, if_true, Exchange.send]
    split <;> rfl
  unfold Exchange.finish
  split
  · exact via false
  · exact via true

theorem stream_emitted (writes : List ChunkWrite) (sync : Bool)
    (delivered : (exchange.stream sendOk writes sync).2 = true) :
    exchange.emitted (exchange.stream sendOk writes sync).1 =
      (writes.map ChunkWrite.data ++ [[]]).flatMap ChunkedCoding.chunk := by
  simp only [Exchange.stream, Bool.and_eq_true] at delivered
  have enabled : exchange.enableChunkedTransfer.chunkedTransfer = true := rfl
  obtain ⟨still, added, wrote, body⟩ := writeChunks_writes enabled writes delivered.1
  have kept : exchange.enableChunkedTransfer.writes = exchange.writes := rfl
  have written : (exchange.stream sendOk writes sync).1.writes =
      exchange.writes ++ (added ++ [⟨.tcp, .raw (ChunkedCoding.chunk [])⟩]) := by
    simp only [Exchange.stream, finish_writes still, wrote, kept, List.append_assoc]
  rw [Exchange.emitted, written, List.drop_left, bodyBytes, List.flatMap_append, ← bodyBytes, body,
    List.flatMap_append]
  rfl

/-- When every call answers true, what was written decodes to the data of the calls, and no byte
is left, exactly when none of them was empty. -/
theorem stream_decoded_iff (sendOk : Nat → Bool) (exchange : Exchange) (writes : List ChunkWrite)
    (sync : Bool) (delivered : (exchange.stream sendOk writes sync).2 = true) :
    ChunkedCoding.decode (exchange.emitted (exchange.stream sendOk writes sync).1) =
        .complete (writes.map ChunkWrite.data).flatten [] ↔
      ∀ write ∈ writes, write.data ≠ [] := by
  rw [stream_emitted writes sync delivered]
  have filled : (∀ write ∈ writes, write.data ≠ []) ↔
      ∀ data ∈ writes.map ChunkWrite.data, data ≠ [] := by simp
  rw [filled]
  constructor
  · intro decoded
    obtain ⟨front, split, nonempty⟩ :=
      (ChunkedCoding.decode_chunks_complete_iff _).mp ⟨_, decoded⟩
    rwa [List.append_cancel_right split]
  · intro nonempty
    have decoded := ChunkedCoding.decode_complete _ nonempty []
    simpa using decoded

/-- Before any call, every write goes through. -/
theorem stream_decoded_iff_greeting :
    ChunkedCoding.decode ((Exchange.start .create).emitted ((Exchange.start .create).stream (fun _ => true)
        [⟨Bytes.ascii "hi", false⟩, ⟨Bytes.ascii "\r\n0", true⟩] false).1) =
        .complete (Bytes.ascii "hi\r\n0") [] ↔
      ∀ write ∈ [(⟨Bytes.ascii "hi", false⟩ : ChunkWrite), ⟨Bytes.ascii "\r\n0", true⟩], write.data ≠ [] :=
  stream_decoded_iff (fun _ => true) (.start .create) _ false (by decide +kernel)

/-- The chunk of an empty string ends the body, and the terminator is left on the wire. -/
theorem empty_chunk_terminates :
    ¬ ∀ (sendOk : Nat → Bool) (exchange : Exchange) (writes : List ChunkWrite) (sync : Bool),
      (exchange.stream sendOk writes sync).2 = true →
      ChunkedCoding.decode (exchange.emitted (exchange.stream sendOk writes sync).1) =
        .complete (writes.map ChunkWrite.data).flatten [] := by
  intro decoded
  exact absurd (decoded (fun _ => true) (.start .create) [⟨[], false⟩] false (by decide +kernel))
    (by decide +kernel)

end Hku
