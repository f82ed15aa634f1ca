import HkuRest.Httpd.ResponseFraming

/-! How many responses the requests of one keep-alive connection get. The session
outlives its requests, and with it the mark that a handler has sent its response
itself: once a chunked transfer was finished, no whole message is written again. -/

namespace Hku.Connection

variable {Network : Type} {server : HttpServer} {circumstances : Nat → Circumstances}
  {index fuel i : Nat} {connection : Connection} {requests : List Request} {request : Request}

/-- Among the first requests there is one whose handler finished a chunked transfer. -/
def finishedBefore (server : HttpServer) (circumstances : Nat → Circumstances) :
    Nat → List Request → Nat → Bool
  | _, _, 0 => false
  | _, [], _ => false
  | index, request :: rest, i + 1 =>
      (pieces (server.handlerCalls (circumstances index).admitted index request)).contains .last ||
        finishedBefore server circumstances (index + 1) rest i

/-- A turn answers its request with the pieces of its handler and, unless a chunked
transfer was finished on the connection before, a whole message. -/
theorem readLoop_answered (ok : ∀ turn n, (circumstances turn).sendOk n = true)
    {turn : Turn (List Request)}
    (reached : (readLoop server arriving circumstances fuel index connection requests)[i]? = some turn)
    (requested : turn.request = some request)
    (plain : server.action (circumstances (index + i)).admitted request ≠ .upgrade) :
    Answered (connection.session.responseSent || finishedBefore server circumstances index requests i)
      (pieces (server.handlerCalls (circumstances (index + i)).admitted (index + i) request))
      turn.outputs turn.connection.session.responseSent := by
  induction i generalizing fuel index connection requests with
  | zero =>
    have first := readLoop_zero reached
    subst first
    simpa [finishedBefore] using turn_answered (ok index) requested plain
  | succ i ih =>
    obtain ⟨stays, left, continued⟩ := readLoop_succ reached
    obtain ⟨earlier, earlierRequested, earlierPlain⟩ := turn_continues stays
    have answered := turn_answered (ok index) earlierRequested earlierPlain
    obtain ⟨buffer, rest, received, answer⟩ := turn_answer earlierRequested
    have shifted : index + (i + 1) = index + 1 + i := by omega
    rw [shifted] at plain ⊢
    have later := ih continued plain
    cases requests with
    | nil => cases received
    | cons head others =>
      simp only [arriving, Option.some.injEq, Prod.mk.injEq] at received
      obtain ⟨rfl, rfl, rfl⟩ := received
      rw [answered.marked, answer, answer_network, Bool.or_assoc] at later
      exact later

/-- The turn with this number reads the request, and does not hand the connection
over to a WebSocket. -/
structure Reads (server : HttpServer) (circumstances : Nat → Circumstances) (ssl : Bool)
    (requests : List Request) (fuel i : Nat) (turn : Turn (List Request)) (request : Request) :
    Prop where
  reached : (readLoop server arriving circumstances fuel 0 (.create ssl) requests)[i]? = some turn
  requested : turn.request = some request
  plain : server.action (circumstances i).admitted request ≠ .upgrade

/-- Each request the loop reads is answered by exactly one response if and only if
each handler either streams nothing while no earlier handler finished a chunked
transfer, or streams exactly one response to its end. -/
theorem one_response_each_iff (server : HttpServer) (circumstances : Nat → Circumstances)
    (ok : ∀ turn n, (circumstances turn).sendOk n = true) (ssl : Bool) (requests : List Request)
    (fuel : Nat) :
    (∀ i turn request, Reads server circumstances ssl requests fuel i turn request →
      OneResponse turn.outputs) ↔
    ∀ i turn request, Reads server circumstances ssl requests fuel i turn request →
      Served (finishedBefore server circumstances 0 requests i)
        (pieces (server.handlerCalls (circumstances i).admitted i request)) := by
  have each (i turn request) (reads : Reads server circumstances ssl requests fuel i turn request) :
      OneResponse turn.outputs ↔ Served (finishedBefore server circumstances 0 requests i)
        (pieces (server.handlerCalls (circumstances i).admitted i request)) := by
    have answered := readLoop_answered ok reads.reached reads.requested
      (by rw [Nat.zero_add]; exact reads.plain)
    rw [Nat.zero_add] at answered
    exact answered.oneResponse_iff
  constructor
  · intro once i turn request reads
    exact (each i turn request reads).mp (once i turn request reads)
  · intro served i turn request reads
    exact (each i turn request reads).mpr (served i turn request reads)

def streaming : Handle :=
  .ofRun ⟨[.enableChunkedTransfer, .writeChunk (Bytes.ascii "data"), .finishChunkedTransfer],
    .returned bizOk⟩

def answering : Handle := .ofRun ⟨[.respond (·.setBody (Bytes.ascii "data"))], .returned bizOk⟩

def demoServer : HttpServer :=
  .ofRoutes [(⟨Bytes.ascii "GET", Bytes.ascii "/stream"⟩, fun _ _ => .handle streaming),
    (⟨Bytes.ascii "GET", Bytes.ascii "/plain"⟩, fun _ _ => .handle answering)]

def get (path : String) : Request := ⟨Bytes.ascii "GET", Bytes.ascii path, 11, [], []⟩

theorem one_response_each_iff_plain_first :
    (∀ i turn request, Reads demoServer (fun _ => .calm) false [get "/plain", get "/stream"] 3 i turn
      request → OneResponse turn.outputs) ↔
    ∀ i turn request, Reads demoServer (fun _ => .calm) false [get "/plain", get "/stream"] 3 i turn
      request → Served (finishedBefore demoServer (fun _ => .calm) 0 [get "/plain", get "/stream"] i)
        (pieces (demoServer.handlerCalls true i request)) :=
  one_response_each_iff demoServer (fun _ => .calm) (fun _ _ => rfl) false
    [get "/plain", get "/stream"] 3

/-- The plain request after the streamed one gets no response at all. -/
theorem plain_request_unanswered :
    ¬ ∀ (server : HttpServer) (circumstances : Nat → Circumstances) (ssl : Bool)
      (requests : List Request) (fuel i : Nat) (turn : Turn (List Request)) (request : Request),
      (∀ turn n, (circumstances turn).sendOk n = true) →
      Reads server circumstances ssl requests fuel i turn request → OneResponse turn.outputs := by
  intro answered
  have second : ∃ turn, (readLoop demoServer arriving (fun _ => .calm) 3 0 (.create false)
      [get "/stream", get "/plain"])[1]? = some turn ∧ turn.request = some (get "/plain") ∧
      turn.outputs = [] := by
    refine ⟨_, rfl, ?_, ?_⟩ <;> decide +kernel
  obtain ⟨turn, reached, requested, silent⟩ := second
  have one := answered demoServer (fun _ => .calm) false [get "/stream", get "/plain"] 3 1 turn
    (get "/plain") (fun _ _ => rfl) ⟨reached, requested, by decide +kernel⟩
  rw [silent] at one
  cases one

end Hku.Connection
