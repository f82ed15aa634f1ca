import HkuRest.Core.Segments
import HkuRest.Httpd.ChunkedWrites

/-! Requests that follow one another on a connection, cut into reads in any way. The
head of a turn empties the buffer, so what the last read holds beyond a request is
lost, whether or not it is the beginning of the next. -/

namespace Hku.Connection

open Segments

/-- `http::request_parser`, as far as it is needed: what it makes of the bytes fed to
it since its construction. Without any it asks for more. -/
structure Parser where
  parse : Bytes → Parsed Request
  starts : parse [] = .needMore

/-- `http::async_read`: reads of the socket are appended to the buffer until the parser
is done, and what follows the request stays there. -/
def asyncRead (parser : Parser) : List Bytes → Bytes → Option (Request × Bytes × List Bytes) :=
  Segments.read parser.parse

structure Message where
  bytes : Bytes
  request : Request
  deriving DecidableEq, Repr

def stream (messages : List Message) : Bytes := messages.flatMap Message.bytes

/-- The loop handles these requests in order, and drops no byte it received. -/
structure Intact (run : List (Turn (List Bytes))) (messages : List Message) : Prop where
  handled : run.filterMap Turn.request = messages.map Message.request
  kept : ∀ turn ∈ run, turn.discarded = []

variable {server : HttpServer} {parser : Parser} {circumstances : Nat → Circumstances}
  {now : Circumstances} {index count fuel : Nat} {connection : Connection} {message : Message}
  {messages : List Message} {segments rest : List Bytes} {request : Request} {buffer : Bytes}

theorem answer_buffer (server : HttpServer) (now : Circumstances) (index : Nat)
    (connection : Connection) (request : Request) (buffer : Bytes) (rest : List Bytes) :
    (answer server now index connection request buffer rest).discarded ++
        (answer server now index connection request buffer rest).connection.session.buffer =
      connection.session.buffer ++ buffer := by
  cases action : server.action now.admitted request with
  | upgrade => simp [answer, action, received]
  | rejectHttp2 | rejectRate =>
    simp [answer, action, writeResponse_context, Exchange.respond, Exchange.start, received]
  | dispatch =>
    obtain ⟨held, _⟩ := processHandle_context server connection.ssl now.sendOk index now.admitted
      (connection.received request buffer) action
    have shared (cleared : Bool) : (connection.session.buffer ++ if cleared then buffer else []) ++
        (if cleared then [] else buffer) = connection.session.buffer ++ buffer := by
      cases cleared <;> simp
    simp only [answer, action, writeResponse_context, held]
    exact shared _

/-- The loop reads on after this request, when writes succeed. -/
def readsOn (server : HttpServer) (now : Circumstances) (count : Nat) (request : Request) : Bool :=
  match server.action now.admitted request with
  | .rejectHttp2 | .upgrade => false
  | .rejectRate => true
  | .dispatch => count + 1 < HttpConfig.maxKeepaliveRequests

/-- Requests turned away by the rate limiter are not counted. -/
def countAfter (server : HttpServer) (now : Circumstances) (count : Nat) (request : Request) : Nat :=
  if server.action now.admitted request = .dispatch then count + 1 else count

theorem answer_continues_eq (ok : ∀ n, now.sendOk n = true) (kept : request.keepAlive = true) :
    (answer server now index connection request buffer rest).continues =
      readsOn server now connection.requestCount request := by
  cases action : server.action now.admitted request with
  | rejectHttp2 | upgrade => simp [answer, readsOn, action]
  | rejectRate => simp [answer, readsOn, action, writeResponse_delivered ok]
  | dispatch =>
    obtain ⟨_, keeps⟩ := processHandle_context server connection.ssl now.sendOk index now.admitted
      (connection.received request buffer) action
    have alive : (connection.received request buffer).req.keepAlive = true := kept
    simp [answer, readsOn, action, writeResponse_context, writeResponse_delivered ok, keeps, alive]

theorem answer_count (ok : ∀ n, now.sendOk n = true) :
    (answer server now index connection request buffer rest).connection.requestCount =
      countAfter server now connection.requestCount request := by
  cases action : server.action now.admitted request with
  | rejectHttp2 | upgrade | rejectRate => simp [answer, countAfter, action]
  | dispatch => simp [answer, countAfter, action, writeResponse_delivered ok]

/-- The number of counted requests after these messages. -/
def counted (server : HttpServer) (circumstances : Nat → Circumstances) :
    Nat → Nat → List Message → Nat
  | _, count, [] => count
  | index, count, message :: more =>
      counted server circumstances (index + 1)
        (countAfter server (circumstances index) count message.request) more

/-- The connection is young enough for each message, and for each but the last one a
read ends with it and the loop reads on after it. -/
structure Unhindered (server : HttpServer) (circumstances : Nat → Circumstances)
    (segments : List Bytes) (index count : Nat) (messages : List Message) : Prop where
  young : ∀ i < messages.length, (circumstances (index + i)).aged = false
  aligned : ∀ i, i + 1 < messages.length → Cut segments (stream (messages.take (i + 1)))
  onward : ∀ i message, i + 1 < messages.length → messages[i]? = some message →
    readsOn server (circumstances (index + i))
      (counted server circumstances index count (messages.take i)) message.request = true

theorem unhindered_nil : Unhindered server circumstances segments index count [] := by
  constructor <;> simp

theorem unhindered_single :
    Unhindered server circumstances segments index count [message] ↔
      (circumstances index).aged = false := by
  constructor
  · intro unhindered
    exact unhindered.young 0 (by simp)
  · intro young
    constructor <;> simp [young]

/-- Once a message was read to its end, the others need what they need by themselves. -/
theorem unhindered_cons {taken : List Bytes} {next : Message} {more : List Message}
    (split : segments = taken ++ rest) (exactly : taken.flatten = message.bytes) :
    Unhindered server circumstances segments index count (message :: next :: more) ↔
      (circumstances index).aged = false ∧
        readsOn server (circumstances index) count message.request = true ∧
        Unhindered server circumstances rest (index + 1)
          (countAfter server (circumstances index) count message.request) (next :: more) := by
  have later (i : Nat) : Cut segments (stream ((message :: next :: more).take (i + 1 + 1))) ↔
      Cut rest (stream ((next :: more).take (i + 1))) := by
    rw [split, List.take_succ_cons, stream, List.flatMap_cons]
    exact cut_append exactly
  have shift (i : Nat) : index + (i + 1) = index + 1 + i := by omega
  constructor
  · intro unhindered
    refine ⟨unhindered.young 0 (by simp), unhindered.onward 0 message (by simp) rfl, ?_, ?_, ?_⟩
    · intro i bound
      rw [← shift]
      exact unhindered.young (i + 1) (Nat.succ_lt_succ bound)
    · intro i bound
      exact (later i).mp (unhindered.aligned (i + 1) (Nat.succ_lt_succ bound))
    · intro i other bound found
      rw [← shift]
      exact unhindered.onward (i + 1) other (Nat.succ_lt_succ bound) found
  · rintro ⟨young, onward, unhindered⟩
    constructor
    · intro i bound
      cases i with
      | zero => exact young
      | succ i =>
        rw [shift]
        exact unhindered.young i (Nat.lt_of_succ_lt_succ bound)
    · intro i bound
      cases i with
      | zero => exact ⟨taken.length, by simp [split, exactly, stream]⟩
      | succ i => exact (later i).mpr (unhindered.aligned i (Nat.lt_of_succ_lt_succ bound))
    · intro i other bound found
      cases i with
      | zero =>
        obtain rfl : message = other := by simpa using found
        exact onward
      | succ i =>
        rw [shift]
        exact unhindered.onward i other (Nat.lt_of_succ_lt_succ bound) found

theorem intact_cons {first : Turn (List Bytes)} {run : List (Turn (List Bytes))}
    (requested : first.request = some message.request) :
    Intact (first :: run) (message :: messages) ↔ first.discarded = [] ∧ Intact run messages := by
  constructor
  · intro intact
    refine ⟨intact.kept first (by simp), ?_, ?_⟩
    · simpa [requested] using intact.handled
    · intro turn member
      exact intact.kept turn (by simp [member])
  · rintro ⟨dropped, intact⟩
    constructor
    · simpa [requested] using intact.handled
    · intro turn member
      rcases List.mem_cons.mp member with rfl | member
      · exact dropped
      · exact intact.kept turn member

/-- Bytes that a read left behind are lost, unless nothing is read any more. -/
theorem leftover_lost (left : connection.session.buffer ≠ [])
    (intact : Intact (readLoop server (asyncRead parser) circumstances (fuel + 1) index connection
      segments) messages) : messages = [] := by
  rw [readLoop_cons] at intact
  cases aged : (circumstances index).aged with
  | true =>
    have handled := intact.handled
    simpa [turn_aged aged] using handled.symm
  | false =>
    have dropped := intact.kept _ List.mem_cons_self
    have lost := turn_drops server (asyncRead parser) index connection segments aged
    rw [dropped, List.prefix_nil] at lost
    exact absurd lost left

theorem intact_end (empty : segments.flatten = []) (clear : connection.session.buffer = []) :
    Intact (readLoop server (asyncRead parser) circumstances fuel index connection segments) [] := by
  have none : asyncRead parser segments [] = none := read_empty parser.starts empty
  cases fuel with
  | zero => constructor <;> simp [readLoop]
  | succ fuel =>
    cases aged : (circumstances index).aged with
    | true => constructor <;> simp [readLoop_cons, turn_aged aged]
    | false => constructor <;> simp [readLoop_cons, turn, aged, none, clear]

/-- The loop serves the messages exactly if nothing is in its way, by induction on the
messages: each turn starts with an empty buffer as long as reads end with messages. -/
theorem readLoop_intact (ok : ∀ turn n, (circumstances turn).sendOk n = true)
    (encoded : ∀ message ∈ messages, Encodes parser.parse message.bytes message.request)
    (alive : ∀ message ∈ messages, message.request.keepAlive = true)
    (arrives : segments.flatten = stream messages) (enough : messages.length < fuel)
    (clear : connection.session.buffer = []) :
    Intact (readLoop server (asyncRead parser) circumstances fuel index connection segments)
        messages ↔
      Unhindered server circumstances segments index connection.requestCount messages := by
  induction messages generalizing segments index connection fuel with
  | nil =>
    exact iff_of_true (intact_end arrives clear) unhindered_nil
  | cons message more ih =>
    obtain ⟨fuel, rfl⟩ := Nat.exists_eq_add_one_of_ne_zero (Nat.ne_zero_of_lt enough)
    have enough : more.length < fuel := Nat.lt_of_succ_lt_succ enough
    simp only [List.forall_mem_cons] at encoded alive
    rw [stream, List.flatMap_cons] at arrives
    rw [readLoop_cons]
    cases aged : (circumstances index).aged with
    | true =>
      apply iff_of_false
      · intro intact
        simpa [turn_aged aged] using intact.handled
      · intro unhindered
        have young := unhindered.young 0 (by simp)
        rw [Nat.add_zero, aged] at young
        cases young
    | false =>
      have nothing : ([] : Bytes).length < message.bytes.length :=
        List.length_pos_of_ne_nil encoded.1.filled
      obtain ⟨taken, left, rest, split, gathered, received, exactly⟩ :=
        encoded.1.read_segments nothing arrives
      have received : asyncRead parser segments [] = some (message.request, left, rest) := received
      have onwards : left ++ rest.flatten = stream more := by
        rw [split, List.flatten_append, ← List.nil_append taken.flatten, gathered,
          List.append_assoc] at arrives
        exact List.append_cancel_left arrives
      have buffers := answer_buffer server (circumstances index) index connection message.request
        left rest
      rw [clear, List.nil_append] at buffers
      simp only [turn_reads aged received]
      rw [intact_cons answer_request, answer_continues_eq (ok index) alive.1, answer_network]
      cases more with
      | nil =>
        obtain ⟨rfl, empty⟩ := List.append_eq_nil_iff.mp onwards
        obtain ⟨dropped, clear⟩ := List.append_eq_nil_iff.mp buffers
        refine iff_of_true ⟨dropped, ?_⟩ (unhindered_single.mpr aged)
        split
        · exact intact_end empty clear
        · constructor <;> simp
      | cons next others =>
        cases onward : readsOn server (circumstances index) connection.requestCount
          message.request with
        | false =>
          apply iff_of_false
          · rintro ⟨_, intact⟩
            simpa using intact.handled
          · intro unhindered
            have reads := unhindered.onward 0 message (by simp) rfl
            rw [Nat.add_zero, List.take_zero, counted, onward] at reads
            cases reads
        | true =>
          rw [if_pos rfl]
          by_cases ends : left = []
          · subst ends
            rw [List.append_nil] at gathered
            obtain ⟨dropped, clear⟩ := List.append_eq_nil_iff.mp buffers
            rw [unhindered_cons split gathered, ih encoded.2 alive.2 onwards enough clear,
              answer_count (ok index)]
            simp [dropped, aged, onward]
          · apply iff_of_false
            · rintro ⟨dropped, intact⟩
              rw [dropped, List.nil_append] at buffers
              obtain ⟨fuel, rfl⟩ := Nat.exists_eq_add_one_of_ne_zero (Nat.ne_zero_of_lt enough)
              cases leftover_lost (by rwa [buffers]) intact
            · intro unhindered
              have cut := unhindered.aligned 0 (by simp)
              rw [List.take_succ_cons, List.take_zero, stream, List.flatMap_singleton] at cut
              exact ends (exactly.mpr cut)

/-- Keep-alive requests that fill a connection, however the network cuts their bytes,
are all handled and no byte of them is dropped, if and only if a read ends with each but
the last, and neither age, nor a request that ends the loop, nor the request limit comes
in between. -/
theorem pipelined_intact_iff (server : HttpServer) (parser : Parser)
    (circumstances : Nat → Circumstances) (ok : ∀ turn n, (circumstances turn).sendOk n = true)
    (messages : List Message)
    (encoded : ∀ message ∈ messages, Encodes parser.parse message.bytes message.request)
    (alive : ∀ message ∈ messages, message.request.keepAlive = true) (segments : List Bytes)
    (arrives : segments.flatten = stream messages) (fuel : Nat) (enough : messages.length < fuel) :
    Intact (readLoop server (asyncRead parser) circumstances fuel 0 (.create false) segments)
        messages ↔
      Unhindered server circumstances segments 0 0 messages :=
  readLoop_intact ok encoded alive arrives enough rfl

/-- A parser that knows a single message. -/
def knows (message : Message) (bytes : Bytes) : Parsed Request :=
  if message.bytes.isPrefixOf bytes then .done message.request message.bytes.length
  else if bytes.isPrefixOf message.bytes then .needMore
  else .failed

theorem knows_encodes (filled : message.bytes ≠ []) :
    Encodes (knows message) message.bytes message.request := by
  refine ⟨filled, ?_, ?_⟩
  · intro length short
    have incomplete : ¬ message.bytes <+: message.bytes.take length := by
      intro pre
      have bound := pre.length_le
      rw [List.length_take] at bound
      omega
    simp [knows, incomplete, List.take_prefix]
  · intro tail
    simp [knows]

def hello : Message where
  bytes := Bytes.ascii "GET /hello HTTP/1.1\r\nHost: a:80\r\n\r\n"
  request := ⟨Bytes.ascii "GET", Bytes.ascii "/hello", 11, [(Field.host, Bytes.ascii "a:80")], []⟩

def helloParser : Parser := ⟨knows hello, by decide +kernel⟩

def helloServer : HttpServer :=
  .ofRoutes [(⟨Bytes.ascii "GET", Bytes.ascii "/hello"⟩,
    fun _ _ => .function (·.setBody (Bytes.ascii "hello")) false)]

theorem hello_encodes : ∀ message ∈ [hello, hello],
    Encodes helloParser.parse message.bytes message.request := by
  have known : Encodes helloParser.parse hello.bytes hello.request :=
    knows_encodes (by decide +kernel)
  simp [known]

theorem pipelined_intact_iff_hello :
    Intact (readLoop helloServer (asyncRead helloParser) (fun _ => .calm) 3 0 (.create false)
      [hello.bytes, hello.bytes]) [hello, hello] ↔
      Unhindered helloServer (fun _ => .calm) [hello.bytes, hello.bytes] 0 0 [hello, hello] :=
  pipelined_intact_iff helloServer helloParser (fun _ => .calm) (fun _ _ => rfl) [hello, hello]
    hello_encodes (by decide +kernel) [hello.bytes, hello.bytes] rfl 3 (by decide)

/-- The second of two requests that arrive together is never handled. -/
theorem second_of_one_read_unhandled :
    ¬ ∀ (server : HttpServer) (parser : Parser) (circumstances : Nat → Circumstances)
      (messages : List Message) (segments : List Bytes) (fuel : Nat),
      (∀ turn n, (circumstances turn).sendOk n = true) →
      (∀ message ∈ messages, Encodes parser.parse message.bytes message.request) →
      (∀ message ∈ messages, message.request.keepAlive = true) →
      segments.flatten = stream messages → messages.length < fuel →
      Intact (readLoop server (asyncRead parser) circumstances fuel 0 (.create false) segments)
        messages := by
  intro keeps
  have intact := keeps helloServer helloParser (fun _ => .calm) [hello, hello]
    [hello.bytes ++ hello.bytes] 3 (fun _ _ => rfl) hello_encodes (by decide +kernel) rfl (by decide)
  have single : (readLoop helloServer (asyncRead helloParser) (fun _ => .calm) 3 0 (.create false)
      [hello.bytes ++ hello.bytes]).filterMap Turn.request = [hello.request] := by
    decide +kernel
  have handled := single.symm.trans intact.handled
  simp at handled

end Hku.Connection
