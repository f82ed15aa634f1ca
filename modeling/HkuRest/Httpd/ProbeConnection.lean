import HkuRest.Httpd.AcceptLoop
import HkuRest.Httpd.Pipelining

/-! `enableProbeConnectionClose`: before `doAccept` creates a connection it waits for data
on the socket, and closes the socket when none comes. When some comes it reads one byte
and drops it, so the `readLoop` of the connection gets the stream without its first byte. -/

namespace Hku.ProbeConnection

open Connection Segments

/-- Bytes that arrive together, `delay` milliseconds after what arrived before them. -/
structure Arrival where
  delay : Nat
  bytes : Bytes
  filled : bytes ≠ []

/-- What a client sends from the moment it is accepted on, and how long after it the client
closes its side, if it does. -/
structure Client where
  arrivals : List Arrival
  closes : Option Nat

namespace Client

def segments (client : Client) : List Bytes := client.arrivals.map Arrival.bytes

def stream (client : Client) : Bytes := client.segments.flatten

/-- `poll(&pfd, 1, timeout)` with `POLLIN`, which the end of the stream sets as well. -/
def poll (client : Client) (timeout : Nat) : Bool :=
  match client.arrivals with
  | [] => client.closes.any (· ≤ timeout)
  | first :: _ => first.delay ≤ timeout

end Client

/-- `socket.read_some`: the bytes read, and what later reads of the socket find. At the end
of the stream it reads none and sets an error code, which `doAccept` does not look at. -/
def readSome (size : Nat) : List Bytes → Bytes × List Bytes
  | [] => ([], [])
  | segment :: rest =>
      (segment.take size, if size < segment.length then segment.drop size :: rest else rest)

/-- `doAccept` after `async_accept`: what the reads of the connection it creates will find,
unless it closes the socket instead. -/
def doAccept (probeCloseEnabled : Bool) (client : Client) : Option (List Bytes) :=
  if probeCloseEnabled then
    if client.poll 100 then some (readSome 1 client.segments).2 else none
  else some client.segments

/-- The bytes that reach the parser of the connection, in this order. -/
def presented (probeCloseEnabled : Bool) (client : Client) : Option Bytes :=
  (doAccept probeCloseEnabled client).map List.flatten

/-- The turns of the connection's `readLoop`. -/
def serve (server : HttpServer) (parser : Parser) (circumstances : Nat → Circumstances) (fuel : Nat)
    (probeCloseEnabled : Bool) (client : Client) : Option (List (Turn (List Bytes))) :=
  (doAccept probeCloseEnabled client).map
    (readLoop server (asyncRead parser) circumstances fuel 0 (.create false))

/-- The first bytes of the client arrive within the probe window. -/
def Client.Prompt (client : Client) : Prop :=
  ∃ first rest, client.arrivals = first :: rest ∧ first.delay ≤ 100

variable {server : HttpServer} {circumstances : Nat → Circumstances} {client : Client} {size : Nat}
  {sent : List Bytes}

theorem readSome_flatten (size : Nat) (sent : List Bytes) :
    (readSome size sent).1 ++ (readSome size sent).2.flatten = sent.flatten := by
  cases sent with
  | nil => rfl
  | cons segment rest =>
    by_cases part : size < segment.length
    · simp [readSome, part, ← List.append_assoc]
    · have whole : segment.take size = segment := List.take_of_length_le (Nat.le_of_not_lt part)
      simp [readSome, part, whole]

theorem Client.Prompt.poll (prompt : client.Prompt) : client.poll 100 = true := by
  obtain ⟨first, rest, arrivals, early⟩ := prompt
  simp [Client.poll, arrivals, early]

theorem Client.Prompt.read (prompt : client.Prompt) : (readSome 1 client.segments).1.length = 1 := by
  obtain ⟨first, rest, arrivals, _⟩ := prompt
  have filled : 1 ≤ first.bytes.length := List.length_pos_iff.mpr first.filled
  simp [Client.segments, arrivals, readSome, filled]

theorem presented_off (client : Client) : presented false client = some client.stream := rfl

theorem presented_on (prompt : client.Prompt) : presented true client = some client.stream.tail := by
  have split := readSome_flatten 1 client.segments
  obtain ⟨byte, read⟩ := List.length_eq_one_iff.mp prompt.read
  rw [read, List.singleton_append] at split
  simp [presented, doAccept, prompt.poll, Client.stream, ← split]

theorem stream_length (prompt : client.Prompt) : 0 < client.stream.length := by
  have split := congrArg List.length (readSome_flatten 1 client.segments)
  rw [List.length_append, prompt.read] at split
  rw [Client.stream, ← split]
  exact Nat.lt_of_lt_of_le Nat.zero_lt_one (Nat.le_add_right _ _)

/-- The probe is the step of the accept loop that goes on to create a connection exactly
when this one creates one. -/
theorem probe_creates {loop : AcceptLoop.Loop} {configured : AcceptLoop.Server} {running : Bool}
    (probing : loop.phase = .probing) (client : Client) :
    loop.doAccept configured running (.probe (client.poll 100)) =
      some { loop with phase := if (doAccept true client).isSome then .creating else .testing } := by
  cases polled : client.poll 100 <;> simp [AcceptLoop.Loop.doAccept, probing, doAccept, polled]

/-- Whatever a client sends within the window, the stream that the connection parses lacks
its first byte when the probe is enabled, and is never the one it parses otherwise. -/
theorem presented_never (client : Client) (prompt : client.Prompt) :
    presented true client = (presented false client).map List.tail ∧
      presented true client ≠ presented false client := by
  rw [presented_on prompt, presented_off]
  refine ⟨rfl, ?_⟩
  intro same
  have lengths := congrArg List.length (Option.some.inj same)
  have filled := stream_length prompt
  rw [List.length_tail] at lengths
  omega

theorem presented_never_get :
    presented true ⟨[⟨3, Bytes.ascii "GET /", by decide⟩], none⟩ = some (Bytes.ascii "ET /") ∧
      presented true ⟨[⟨3, Bytes.ascii "GET /", by decide⟩], none⟩ ≠
        presented false ⟨[⟨3, Bytes.ascii "GET /", by decide⟩], none⟩ := by
  have never := presented_never ⟨[⟨3, Bytes.ascii "GET /", by decide⟩], none⟩ ⟨_, [], rfl, by decide⟩
  exact ⟨never.1.trans (by decide), never.2⟩

/-- A request line that arrives three milliseconds after the connection. -/
theorem first_byte_dropped :
    ¬ ∀ client : Client, client.Prompt → presented true client = presented false client := by
  intro same
  exact absurd (same ⟨[⟨3, Bytes.ascii "GET / HTTP/1.1", by decide⟩], none⟩ ⟨_, [], rfl, by decide⟩)
    (by decide)

/-- A parser that is done at a fixed length. -/
def lengthParser (request : Request) (length : Nat) (positive : 0 < length) : Parser where
  parse gathered := if gathered.length < length then .needMore else .done request length
  starts := if_pos positive

theorem read_short {request : Request} {length : Nat} {positive : 0 < length} {gathered : Bytes}
    (short : (gathered ++ sent.flatten).length < length) :
    asyncRead (lengthParser request length positive) sent gathered = none := by
  induction sent generalizing gathered with
  | nil => simp_all [asyncRead, Segments.read, lengthParser]
  | cons segment rest ih =>
    have waits : gathered.length < length := by
      rw [List.length_append] at short
      omega
    rw [List.flatten_cons, ← List.append_assoc] at short
    simpa [asyncRead, Segments.read, lengthParser, waits] using ih short

theorem lengthParser_encodes (request : Request) (bytes : Bytes) (positive : 0 < bytes.length) :
    Encodes (lengthParser request bytes.length positive).parse bytes request where
  filled := List.length_pos_iff.mp positive
  incomplete length short := if_pos (by simp [Nat.min_eq_left (Nat.le_of_lt short), short])
  complete tail := if_neg (by simp)

/-- Enabling the probe can lose a request: some parser reads it from the connection
without the probe, and reads none from the connection with it. -/
theorem request_lost (server : HttpServer) (young : (circumstances 0).aged = false) (fuel : Nat)
    (request : Request) (prompt : client.Prompt) :
    ∃ parser on off,
      serve server parser circumstances (fuel + 1) true client = some on ∧
      serve server parser circumstances (fuel + 1) false client = some off ∧
      on.filterMap Turn.request = [] ∧ request ∈ off.filterMap Turn.request := by
  have positive := stream_length prompt
  obtain ⟨kept, created, flattened⟩ := Option.map_eq_some_iff.mp (presented_on prompt)
  have missed : asyncRead (lengthParser request client.stream.length positive) kept [] = none := by
    apply read_short
    rw [List.nil_append, flattened, List.length_tail]
    exact Nat.sub_lt positive Nat.zero_lt_one
  have whole : [] ++ client.segments.flatten = client.stream ++ [] := (List.append_nil _).symm
  have begun : ([] : Bytes).length < client.stream.length := positive
  obtain ⟨_, left, later, _, _, received, _⟩ :=
    (lengthParser_encodes request client.stream positive).read_segments begun whole
  have reads : asyncRead (lengthParser request client.stream.length positive) client.segments [] =
      some (request, left, later) := received
  refine ⟨lengthParser request client.stream.length positive, _, _,
    by rw [serve, created, Option.map_some], rfl, ?_, ?_⟩
  · simp [readLoop_cons, turn, young, missed]
  · rw [readLoop_cons, turn_reads young reads]
    simp

end Hku.ProbeConnection
