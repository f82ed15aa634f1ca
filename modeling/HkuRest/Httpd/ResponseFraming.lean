import HkuRest.Httpd.BodyFraming

/-! When the outputs of a turn are one response. A response is a message written
whole, or a header followed by bytes that the chunked coding reads as one body. -/

namespace Hku

open ChunkedCoding

inductive OneResponse : List Output → Prop
  | whole (response : Response) : OneResponse [.message response]
  | chunked (response : Response) (raws : List Bytes) (data : Bytes) :
      decode raws.flatten = .complete data [] →
      OneResponse (.header response :: raws.map .raw)

/-- The body that one response delivers, and whether it was streamed; the header says how
the body is framed. A whole message is written in chunks where its header says so. -/
inductive Delivers : List Output → Bool → Bytes → Prop
  | whole (response : Response) : response.Sized ∨ response.Chunked →
      Delivers [.message response] false response.body
  | chunked (response : Response) (raws : List Bytes) (data : Bytes) : response.Chunked →
      decode raws.flatten = .complete data [] →
      Delivers (.header response :: raws.map .raw) true data

theorem Delivers.one {outputs : List Output} {streamed : Bool} {body : Bytes}
    (delivers : Delivers outputs streamed body) : OneResponse outputs := by
  cases delivers with
  | whole response _ => exact .whole response
  | chunked response raws data _ decoded => exact .chunked response raws _ decoded

/-- One header block and at most one body, which may still lack its end. -/
inductive SingleMessage : List Output → Prop
  | whole (response : Response) : SingleMessage [.message response]
  | chunked (response : Response) (raws : List Bytes) (data : Bytes) :
      decode raws.flatten = .complete data [] ∨ decode raws.flatten = .unfinished data →
      SingleMessage (.header response :: raws.map .raw)

theorem OneResponse.single {outputs : List Output} (one : OneResponse outputs) :
    SingleMessage outputs := by
  cases one with
  | whole response => exact .whole response
  | chunked response raws data decoded => exact .chunked response raws data (.inl decoded)

/-- The pieces open one response, with the first of them. -/
def OpensOnce (sent : List Piece) : Prop :=
  ∃ data more, sent = .first data :: more ∧ ∀ piece ∈ more, piece.opens = false

variable {sent : List Piece} {outs : List Output} {raws : List Bytes} {response : Response}
  {responseSent earlier : Bool}

theorem Emits.of_closed (emits : Emits sent outs) (closed : ∀ piece ∈ sent, piece.opens = false) :
    outs = (sent.map fun piece => chunk piece.data).map .raw := by
  induction emits with
  | nil => rfl
  | first response data _ _ =>
    have opening := closed _ List.mem_cons_self
    cases opening
  | next data _ ih | last _ ih =>
    obtain ⟨_, others⟩ := List.forall_mem_cons.mp closed
    rw [ih others]
    rfl

theorem Emits.closed_of_raw (emits : Emits sent outs) (raw : outs = raws.map .raw) :
    ∀ piece ∈ sent, piece.opens = false := by
  induction emits generalizing raws with
  | nil => simp
  | first response data _ _ => cases raws <;> cases raw
  | next data _ ih | last _ ih =>
    cases raws with
    | nil => cases raw
    | cons bytes raws =>
      have tail := ih (List.cons.inj raw).2
      simpa [Piece.opens] using tail

theorem Emits.header_iff (emits : Emits sent outs) :
    (∃ response, outs = .header response :: raws.map .raw) ↔
      OpensOnce sent ∧ raws = sent.map fun piece => chunk piece.data := by
  constructor
  · rintro ⟨response, shape⟩
    cases emits with
    | nil => cases shape
    | first _ data tail =>
      cases raws with
      | nil => cases shape
      | cons bytes raws =>
        obtain ⟨same, rest⟩ := List.cons.inj (List.cons.inj shape).2
        obtain rfl := Output.raw.inj same
        have closed := tail.closed_of_raw rest
        have written := tail.of_closed closed
        refine ⟨⟨data, _, rfl, closed⟩, ?_⟩
        rw [rest] at written
        have same := (List.map_inj_right fun _ _ => Output.raw.inj).mp written
        rw [same]
        rfl
    | next data tail => cases shape
    | last tail => cases shape
  · rintro ⟨⟨data, more, rfl, closed⟩, rfl⟩
    cases emits with
    | first response _ tail => exact ⟨response, by rw [tail.of_closed closed]; rfl⟩

theorem Emits.no_message (emits : Emits sent outs) : .message response ∉ outs := by
  induction emits with
  | nil => simp
  | first _ _ _ ih | next _ _ ih | last _ ih => simpa using ih

theorem Emits.nil_iff (emits : Emits sent outs) : outs = [] ↔ sent = [] := by
  cases emits <;> simp

theorem sent_chunks (sent : List Piece) : (sent.map fun piece => chunk piece.data).flatten =
    (sent.map Piece.data).flatMap chunk := by
  rw [List.flatMap_def, List.map_map]
  rfl

/-- Without a whole message, one response is one opened stream with a single
terminator, at its end. -/
theorem Emits.oneResponse_iff (emits : Emits sent outs) :
    OneResponse outs ↔ OpensOnce sent ∧
      ∃ filled, sent.map Piece.data = filled ++ [[]] ∧ ∀ data ∈ filled, data ≠ [] := by
  rw [← decode_chunks_complete_iff, ← sent_chunks]
  constructor
  · intro one
    cases one with
    | whole response => exact absurd List.mem_cons_self emits.no_message
    | chunked response raws data decoded =>
      obtain ⟨opened, rfl⟩ := emits.header_iff.mp ⟨response, rfl⟩
      exact ⟨opened, data, decoded⟩
  · rintro ⟨opened, data, decoded⟩
    obtain ⟨response, rfl⟩ := emits.header_iff.mpr ⟨opened, rfl⟩
    exact .chunked response _ data decoded

theorem Emits.of_delivers {streamed : Bool} {body : Bytes} (emits : Emits sent outs)
    (delivers : Delivers outs streamed body) : streamed = true ∧ OpensOnce sent ∧
      decode ((sent.map Piece.data).flatMap chunk) = .complete body [] := by
  rw [← sent_chunks]
  cases delivers with
  | whole response _ => exact absurd List.mem_cons_self emits.no_message
  | chunked response raws data _ decoded =>
    obtain ⟨opened, rfl⟩ := emits.header_iff.mp ⟨response, rfl⟩
    exact ⟨rfl, opened, decoded⟩

theorem Emits.delivers {body : Bytes} (emits : Emits sent outs)
    (announced : ∀ response, .header response ∈ outs → response.Chunked) (opened : OpensOnce sent)
    (decoded : decode ((sent.map Piece.data).flatMap chunk) = .complete body []) :
    Delivers outs true body := by
  rw [← sent_chunks] at decoded
  obtain ⟨response, rfl⟩ := emits.header_iff.mpr ⟨opened, rfl⟩
  exact .chunked response _ body (announced response List.mem_cons_self) decoded

theorem Emits.singleMessage_iff (emits : Emits sent outs) :
    SingleMessage outs ↔ OpensOnce sent ∧
      ∃ data, decode ((sent.map Piece.data).flatMap chunk) = .complete data [] ∨
        decode ((sent.map Piece.data).flatMap chunk) = .unfinished data := by
  rw [← sent_chunks]
  constructor
  · intro single
    cases single with
    | whole response => exact absurd List.mem_cons_self emits.no_message
    | chunked response raws data decoded =>
      obtain ⟨opened, rfl⟩ := emits.header_iff.mp ⟨response, rfl⟩
      exact ⟨opened, data, decoded⟩
  · rintro ⟨opened, data, decoded⟩
    obtain ⟨response, rfl⟩ := emits.header_iff.mpr ⟨opened, rfl⟩
    exact .chunked response _ data decoded

/-- With a whole message after the pieces, one message means that there are no pieces. -/
theorem Emits.singleMessage_message_iff (emits : Emits sent outs) :
    SingleMessage (outs ++ [.message response]) ↔ sent = [] := by
  rw [← emits.nil_iff]
  constructor
  · intro single
    generalize shape : outs ++ [Output.message response] = all at single
    cases single with
    | whole other => exact (List.append_eq_singleton_iff.mp shape).elim And.left (by simp)
    | chunked other raws data decoded =>
      have member : Output.message response ∈ outs ++ [.message response] := by simp
      rw [shape] at member
      simp at member
  · rintro rfl
    exact .whole response

theorem Emits.oneResponse_message_iff (emits : Emits sent outs) :
    OneResponse (outs ++ [.message response]) ↔ sent = [] := by
  constructor
  · intro one
    exact emits.singleMessage_message_iff.mp one.single
  · rintro rfl
    cases emits
    exact .whole response

/-- One request answered: by a whole message if its handler streamed nothing and no
terminator was sent before, or by one stream that the handler ended. -/
def Served (earlier : Bool) (sent : List Piece) : Prop :=
  (earlier || sent.contains .last) = false ∧ sent = [] ∨
    (earlier || sent.contains .last) = true ∧ OpensOnce sent ∧
      ∃ filled, sent.map Piece.data = filled ++ [[]] ∧ ∀ data ∈ filled, data ≠ []

theorem Answered.oneResponse_iff {outputs : List Output}
    (answered : Answered earlier sent outputs responseSent) :
    OneResponse outputs ↔ Served earlier sent := by
  obtain ⟨outs, response, emits, rfl⟩ := answered.wrote
  rw [answered.marked, Served]
  cases earlier || sent.contains .last with
  | true =>
    rw [if_pos rfl, List.append_nil, emits.oneResponse_iff]
    simp
  | false =>
    rw [if_neg Bool.false_ne_true, emits.oneResponse_message_iff]
    simp

end Hku
