import HkuRest.Httpd.Connection
import HkuRest.Httpd.RateLimitWhitelist

/-! The fast path of `readLoop`. What it leaves out cannot apply to the requests it is taken for:
a GET is no HTTP/2 preface, and without an `Upgrade` field none is an upgrade. So no run of the
loop depends on it. -/

namespace Hku

namespace HttpServer

def enableFastPath (server : HttpServer) (enable : Bool) : HttpServer := { server with fastPath := enable }

/-- A request of a client, and when it is checked. -/
structure Arrival where
  time : Int
  clientIp : Bytes
  request : Request

/-- What the loop does with a request, and what is left of the tokens. The limiter is asked for
the requests that come as far as that. -/
def limitedAction (server : HttpServer) (limiter : RateLimiter) (arrival : Arrival) :
    RateLimiter × Action :=
  let request := arrival.request
  if !server.isFastPath request && request.method = Bytes.ascii "PRI" then (limiter, .rejectHttp2)
  else if server.isWebSocket request then (limiter, .upgrade)
  else if limiter.config.enabled then
    let (spent, admitted) :=
      checkRateLimit ⟨arrival.time, arrival.clientIp, request.target, request.method⟩ limiter
    (spent, if admitted then .dispatch else .rejectRate)
  else (limiter, .dispatch)

/-- The same for the requests of all connections, in the order in which they are checked. -/
def limitedActions (server : HttpServer) : RateLimiter → List Arrival → RateLimiter × List Action
  | limiter, [] => (limiter, [])
  | limiter, arrival :: rest =>
      let (spent, action) := server.limitedAction limiter arrival
      let (left, actions) := server.limitedActions spent rest
      (left, action :: actions)

variable {server : HttpServer} {request : Request}

theorem isFastPath_not_preface (fast : server.isFastPath request = true) :
    request.method ≠ Bytes.ascii "PRI" := by
  simp only [isFastPath, Bool.and_eq_true, decide_eq_true_eq] at fast
  rw [fast.1.1.2]
  decide

theorem preface_test (server : HttpServer) (request : Request) :
    (!server.isFastPath request && request.method = Bytes.ascii "PRI") =
      decide (request.method = Bytes.ascii "PRI") := by
  cases fast : server.isFastPath request with
  | false => rfl
  | true => simp [isFastPath_not_preface fast]

theorem isWebSocket_eq (server : HttpServer) (request : Request) :
    server.isWebSocket request = (server.enableFastPath false).isWebSocket request := by
  have slow : (server.enableFastPath false).isFastPath request = false := rfl
  cases present : (request.fields.find Field.upgrade).isSome with
  | false => simp [isWebSocket, present]
  | true => simp [isWebSocket, present, enableFastPath]

theorem action_enableFastPath (server : HttpServer) (enable admitted : Bool) (request : Request) :
    (server.enableFastPath enable).action admitted request = server.action admitted request := by
  simp only [action, preface_test, isWebSocket_eq (server.enableFastPath enable) request,
    isWebSocket_eq server request]
  rfl

theorem limitedAction_enableFastPath (server : HttpServer) (enable : Bool) (limiter : RateLimiter)
    (arrival : Arrival) :
    (server.enableFastPath enable).limitedAction limiter arrival = server.limitedAction limiter arrival := by
  simp only [limitedAction, preface_test, isWebSocket_eq (server.enableFastPath enable) arrival.request,
    isWebSocket_eq server arrival.request]
  rfl

/-- It is the action of the loop under the verdict of the limiter. -/
theorem limitedAction_action (server : HttpServer) (limiter : RateLimiter) (arrival : Arrival) :
    (server.limitedAction limiter arrival).2 =
      { server with rateLimitEnabled := limiter.config.enabled }.action
        (checkRateLimit ⟨arrival.time, arrival.clientIp, arrival.request.target, arrival.request.method⟩
          limiter).2 arrival.request := by
  simp only [limitedAction, action, preface_test]
  split
  · rfl
  · change _ = if server.isWebSocket arrival.request then _ else _
    split
    · rfl
    · cases limiter.config.enabled with
      | false => rfl
      | true =>
        cases (checkRateLimit ⟨arrival.time, arrival.clientIp, arrival.request.target,
          arrival.request.method⟩ limiter).2 <;> rfl

theorem limitedActions_enableFastPath (server : HttpServer) (enable : Bool) (limiter : RateLimiter)
    (arrivals : List Arrival) :
    (server.enableFastPath enable).limitedActions limiter arrivals =
      server.limitedActions limiter arrivals := by
  induction arrivals generalizing limiter with
  | nil => rfl
  | cons arrival rest ih => simp only [limitedActions, limitedAction_enableFastPath, ih]

end HttpServer

namespace Connection

open HttpServer (Arrival action_enableFastPath)

variable {Network : Type}

theorem answer_enableFastPath (server : HttpServer) (enable : Bool) (now : Circumstances) (index : Nat)
    (connection : Connection) (request : Request) (buffer : Bytes) (rest : Network) :
    answer (server.enableFastPath enable) now index connection request buffer rest =
      answer server now index connection request buffer rest := by
  rw [answer, action_enableFastPath]
  rfl

theorem turn_enableFastPath (server : HttpServer) (enable : Bool)
    (read : Network → Bytes → Option (Request × Bytes × Network)) (now : Circumstances) (index : Nat)
    (connection : Connection) (network : Network) :
    turn (server.enableFastPath enable) read now index connection network =
      turn server read now index connection network := by
  simp only [turn, answer_enableFastPath]

theorem readLoop_enableFastPath (server : HttpServer) (enable : Bool)
    (read : Network → Bytes → Option (Request × Bytes × Network)) (circumstances : Nat → Circumstances)
    (fuel index : Nat) (connection : Connection) (network : Network) :
    readLoop (server.enableFastPath enable) read circumstances fuel index connection network =
      readLoop server read circumstances fuel index connection network := by
  induction fuel generalizing index connection network with
  | zero => rfl
  | succ fuel ih => simp only [readLoop, turn_enableFastPath, ih]

/-- The fast path changes no action, whatever the limiter has left, no token that an action
costs, and no turn of a connection in any state. -/
theorem fastPath_eq_slowPath (server : HttpServer) :
    (∀ (limiter : RateLimiter) (arrivals : List Arrival),
      (server.enableFastPath true).limitedActions limiter arrivals =
        (server.enableFastPath false).limitedActions limiter arrivals) ∧
    ∀ (Network : Type) (read : Network → Bytes → Option (Request × Bytes × Network))
      (circumstances : Nat → Circumstances) (fuel index : Nat) (connection : Connection) (network : Network),
      readLoop (server.enableFastPath true) read circumstances fuel index connection network =
        readLoop (server.enableFastPath false) read circumstances fuel index connection network := by
  constructor
  · intro limiter arrivals
    rw [server.limitedActions_enableFastPath, server.limitedActions_enableFastPath]
  · intro Network read circumstances fuel index connection network
    rw [readLoop_enableFastPath, readLoop_enableFastPath]

end Connection

end Hku
