import HkuRest.Httpd.AccessControl
import HkuRest.Httpd.Turns

/-! The access check of a connection. The constructor of `Connection` makes it, as far as it
can determine the remote endpoint, and closes the socket of a client that is not allowed;
`start()` follows in any case. An upgrade moves the socket into a `WebSocketConnection`, whose
constructor looks up the endpoint once more and does the same. -/

namespace Hku

namespace HttpServer

/-- The request goes to a handler that is registered with the router. -/
def Invokes (server : HttpServer) (admitted : Bool) (request : Request) : Prop :=
  server.action admitted request = .dispatch ∧ ∃ handler, server.route request = .found handler

/-- The request upgrades the connection, to a handler that is registered for its path; `accepts` is
what the handshake of Beast wants of a request. -/
def InvokesWebSocket {HandleFactory : Type} (server : HttpServer) (wsRouter : WebSocketRouter HandleFactory)
    (accepts : Request → Bool) (admitted : Bool) (request : Request) : Prop :=
  server.action admitted request = .upgrade ∧ accepts request = true ∧
    (wsRouter.findHandler (Router.pathOnly request.target)).isSome = true

end HttpServer

namespace Connection

/-- What the constructor leaves behind. -/
structure Client where
  clientIp : Bytes
  isOpen : Bool
  deriving DecidableEq, Repr

def unknownClient : Bytes := Bytes.ascii "unknown"

/-- The constructor, of `Connection` and of `WebSocketConnection` alike; an endpoint is `none` when
what determines it throws. -/
def accept (shifted : UInt32) (config : AccessControlConfig) (endpoint : Option Bytes) : Client :=
  match endpoint with
  | some ip => ⟨ip, config.isIpAllowed shifted ip⟩
  | none => ⟨unknownClient, true⟩

/-- The coroutine that `start()` spawns. It is prepared when TLS handshake and permit are
dealt with; the reads of a closed socket fail. -/
def Client.serve {Network : Type} (client : Client) (server : HttpServer) (ssl prepared : Bool)
    (read : Network → Bytes → Option (Request × Bytes × Network))
    (circumstances : Nat → Circumstances) (fuel : Nat) (network : Network) : List (Turn Network) :=
  if prepared then
    readLoop server (if client.isOpen then read else fun _ _ => none) circumstances fuel 0
      (.create ssl) network
  else []

variable {Network : Type} {server : HttpServer} {client : Client} {ssl prepared : Bool}
  {read : Network → Bytes → Option (Request × Bytes × Network)} {circumstances : Nat → Circumstances}
  {fuel i : Nat} {network : Network} {turn : Turn Network}

theorem closed_reads_nothing (closed : client.isOpen = false)
    (reached : (client.serve server ssl prepared read circumstances fuel network)[i]? = some turn) :
    turn.request = none := by
  cases prepared with
  | false => simp [Client.serve] at reached
  | true =>
    simp only [Client.serve, closed, if_true, Bool.false_eq_true, if_false] at reached
    obtain ⟨earlier, remaining, _, rfl⟩ := readLoop_turn reached
    cases requested : (Connection.turn server (fun _ _ => none) (circumstances (0 + i)) (0 + i) earlier
        remaining).request with
    | none => rfl
    | some request =>
      obtain ⟨_, _, received, _⟩ := turn_answer requested
      cases received

theorem open_reads_first (server : HttpServer) (ssl : Bool) (opened : client.isOpen = true)
    (now : Circumstances) (young : now.aged = false) (request : Request) :
    ∃ turn, (client.serve server ssl true arriving (fun _ => now) 1 [request])[0]? = some turn ∧
      turn.request = some request := by
  refine ⟨Connection.turn server arriving now 0 (.create ssl) [request], ?_, ?_⟩
  · simp only [Client.serve, opened, if_true, readLoop_cons]
    rfl
  · rw [turn_reads young rfl, answer_request]

theorem reached_young
    (reached : (client.serve server ssl prepared read circumstances fuel network)[i]? = some turn)
    (requested : turn.request = some request) : (circumstances i).aged = false := by
  cases prepared with
  | false => simp [Client.serve] at reached
  | true =>
    simp only [Client.serve, if_true] at reached
    obtain ⟨earlier, remaining, _, rfl⟩ := readLoop_turn reached
    cases aged : (circumstances i).aged with
    | false => rfl
    | true =>
      rw [Nat.zero_add, turn_aged aged] at requested
      cases requested

/-- What is said of every request that some run of the connection reads and that does something:
either nothing is read, or no request does it. -/
theorem reads_imply_iff (client : Client) (server : HttpServer) (ssl : Bool)
    (invoked : Circumstances → Request → Prop) (allowed : Prop) :
    (∀ (Network : Type) (read : Network → Bytes → Option (Request × Bytes × Network))
      (circumstances : Nat → Circumstances) (prepared : Bool) (fuel i : Nat) (network : Network)
      (turn : Turn Network) (request : Request),
      (client.serve server ssl prepared read circumstances fuel network)[i]? = some turn →
      turn.request = some request → invoked (circumstances i) request → allowed) ↔
    client.isOpen = false ∨ allowed ∨
      ∀ now request, now.aged = false → ¬ invoked now request := by
  constructor
  · intro checked
    cases opened : client.isOpen with
    | false => exact .inl rfl
    | true =>
      refine .inr (or_iff_not_imp_left.mpr fun forbidden now request young invokes => ?_)
      obtain ⟨turn, reached, requested⟩ := open_reads_first server ssl opened now young request
      exact forbidden (checked _ _ _ _ _ _ _ turn request reached requested invokes)
  · rintro condition Network read circumstances prepared fuel i network turn request reached requested invokes
    rcases condition with closed | allows | silent
    · rw [closed_reads_nothing closed reached] at requested
      cases requested
    · exact allows
    · exact absurd invokes (silent _ request (reached_young reached requested))

/-- The `readLoop` of the `WebSocketConnection` that a request is handed to makes a handler: the
socket is open, and the handshakes succeed. -/
def Client.Upgrades {HandleFactory : Type} (client : Client) (server : HttpServer)
    (wsRouter : WebSocketRouter HandleFactory) (accepts : Request → Bool) (now : Circumstances)
    (request : Request) : Prop :=
  client.isOpen = true ∧ now.upgraded = true ∧
    server.InvokesWebSocket wsRouter accepts now.admitted request

/-- Whatever a connection reads, a handler runs only for a client whose address, as the objects
that brought it about have it, is allowed: the `Connection`, and after an upgrade the
`WebSocketConnection` too. -/
structure Checked {HandleFactory : Type} (shifted : UInt32) (config : AccessControlConfig)
    (endpoint again : Option Bytes) (server : HttpServer) (wsRouter : WebSocketRouter HandleFactory)
    (accepts : Request → Bool) (ssl : Bool) : Prop where
  http : ∀ (Network : Type) (read : Network → Bytes → Option (Request × Bytes × Network))
    (circumstances : Nat → Circumstances) (prepared : Bool) (fuel i : Nat) (network : Network)
    (turn : Turn Network) (request : Request),
    ((accept shifted config endpoint).serve server ssl prepared read circumstances fuel
      network)[i]? = some turn →
    turn.request = some request → server.Invokes (circumstances i).admitted request →
    config.isIpAllowed shifted (accept shifted config endpoint).clientIp = true
  webSocket : ∀ (Network : Type) (read : Network → Bytes → Option (Request × Bytes × Network))
    (circumstances : Nat → Circumstances) (prepared : Bool) (fuel i : Nat) (network : Network)
    (turn : Turn Network) (request : Request),
    ((accept shifted config endpoint).serve server ssl prepared read circumstances fuel
      network)[i]? = some turn →
    turn.request = some request →
    (accept shifted config again).Upgrades server wsRouter accepts (circumstances i) request →
    config.isIpAllowed shifted (accept shifted config endpoint).clientIp = true ∧
      config.isIpAllowed shifted (accept shifted config again).clientIp = true

/-- The endpoint was determined, and is not allowed. -/
def Refused (shifted : UInt32) (config : AccessControlConfig) (endpoint : Option Bytes) : Prop :=
  ∃ ip, endpoint = some ip ∧ config.isIpAllowed shifted ip = false

/-- No handler can be brought about by an object that has not determined its endpoint. -/
structure Determined {HandleFactory : Type} (shifted : UInt32) (config : AccessControlConfig)
    (endpoint again : Option Bytes) (server : HttpServer) (wsRouter : WebSocketRouter HandleFactory)
    (accepts : Request → Bool) : Prop where
  connection : endpoint.isSome = true ∨
    (∀ admitted request, ¬ server.Invokes admitted request) ∧
      (Refused shifted config again ∨
        ∀ admitted request, ¬ server.InvokesWebSocket wsRouter accepts admitted request)
  webSocket : again.isSome = true ∨ Refused shifted config endpoint ∨
    ∀ admitted request, ¬ server.InvokesWebSocket wsRouter accepts admitted request

section

variable {HandleFactory : Type} {shifted : UInt32} {config : AccessControlConfig}
  {endpoint again : Option Bytes} {wsRouter : WebSocketRouter HandleFactory} {accepts : Request → Bool}

theorem accept_closed_iff : (accept shifted config endpoint).isOpen = false ↔
    Refused shifted config endpoint := by
  cases endpoint <;> simp [accept, Refused]

theorem accept_allowed_iff (admitted : ¬ Refused shifted config endpoint) :
    config.isIpAllowed shifted (accept shifted config endpoint).clientIp = true ↔
      endpoint.isSome = true ∨ config.isIpAllowed shifted unknownClient = true := by
  cases endpoint with
  | none => simp [accept]
  | some ip => simpa [accept, Refused] using admitted

theorem http_checked_iff (server : HttpServer) (ssl : Bool) :
    (∀ (Network : Type) (read : Network → Bytes → Option (Request × Bytes × Network))
      (circumstances : Nat → Circumstances) (prepared : Bool) (fuel i : Nat) (network : Network)
      (turn : Turn Network) (request : Request),
      ((accept shifted config endpoint).serve server ssl prepared read circumstances fuel
        network)[i]? = some turn →
      turn.request = some request → server.Invokes (circumstances i).admitted request →
      config.isIpAllowed shifted (accept shifted config endpoint).clientIp = true) ↔
    endpoint.isSome = true ∨ config.isIpAllowed shifted unknownClient = true ∨
      ∀ admitted request, ¬ server.Invokes admitted request := by
  rw [reads_imply_iff (accept shifted config endpoint) server ssl
    fun now request => server.Invokes now.admitted request]
  have silent : (∀ (now : Circumstances) request, now.aged = false → ¬ server.Invokes now.admitted request) ↔
      ∀ admitted request, ¬ server.Invokes admitted request := by
    constructor
    · intro silent admitted request
      exact silent { Circumstances.calm with admitted := admitted } request rfl
    · intro silent now request _
      exact silent now.admitted request
  rw [silent, accept_closed_iff]
  by_cases refused : Refused shifted config endpoint
  · obtain ⟨ip, rfl, forbidden⟩ := refused
    simp [Refused, forbidden]
  · rw [accept_allowed_iff refused]
    simp [refused, or_assoc]

theorem webSocket_checked_iff (server : HttpServer) (ssl : Bool) :
    (∀ (Network : Type) (read : Network → Bytes → Option (Request × Bytes × Network))
      (circumstances : Nat → Circumstances) (prepared : Bool) (fuel i : Nat) (network : Network)
      (turn : Turn Network) (request : Request),
      ((accept shifted config endpoint).serve server ssl prepared read circumstances fuel
        network)[i]? = some turn →
      turn.request = some request →
      (accept shifted config again).Upgrades server wsRouter accepts (circumstances i) request →
      config.isIpAllowed shifted (accept shifted config endpoint).clientIp = true ∧
        config.isIpAllowed shifted (accept shifted config again).clientIp = true) ↔
    Refused shifted config endpoint ∨ Refused shifted config again ∨
      (endpoint.isSome = true ∧ again.isSome = true ∨
        config.isIpAllowed shifted unknownClient = true) ∨
      ∀ admitted request, ¬ server.InvokesWebSocket wsRouter accepts admitted request := by
  rw [reads_imply_iff (accept shifted config endpoint) server ssl fun now request =>
    (accept shifted config again).Upgrades server wsRouter accepts now request, accept_closed_iff]
  have silent : (∀ (now : Circumstances) request, now.aged = false →
      ¬ (accept shifted config again).Upgrades server wsRouter accepts now request) ↔
      Refused shifted config again ∨
        ∀ admitted request, ¬ server.InvokesWebSocket wsRouter accepts admitted request := by
    rw [← accept_closed_iff]
    constructor
    · intro silent
      refine or_iff_not_imp_left.mpr fun opened admitted request invokes => ?_
      rw [Bool.not_eq_false] at opened
      exact silent { Circumstances.calm with admitted := admitted, upgraded := true } request rfl
        ⟨opened, rfl, invokes⟩
    · rintro (closed | silent) now request _ ⟨opened, _, invokes⟩
      · rw [closed] at opened
        cases opened
      · exact silent now.admitted request invokes
  rw [silent]
  by_cases refused : Refused shifted config endpoint
  · simp [refused]
  · by_cases refusedAgain : Refused shifted config again
    · simp [refusedAgain]
    · rw [accept_allowed_iff refused, accept_allowed_iff refusedAgain, ← and_or_right]
      simp [refused, refusedAgain]

end

/-- Exactly when the stand-in for an unknown address is allowed, or no handler can be brought about
by an object that has not determined its endpoint. -/
theorem handler_access_iff {HandleFactory : Type} (shifted : UInt32) (config : AccessControlConfig)
    (endpoint again : Option Bytes) (server : HttpServer) (wsRouter : WebSocketRouter HandleFactory)
    (accepts : Request → Bool) (ssl : Bool) :
    Checked shifted config endpoint again server wsRouter accepts ssl ↔
      config.isIpAllowed shifted unknownClient = true ∨
        Determined shifted config endpoint again server wsRouter accepts := by
  have parts : Checked shifted config endpoint again server wsRouter accepts ssl ↔ _ ∧ _ :=
    ⟨fun checked => ⟨checked.http, checked.webSocket⟩, fun both => ⟨both.1, both.2⟩⟩
  have conditions : Determined shifted config endpoint again server wsRouter accepts ↔ _ ∧ _ :=
    ⟨fun determined => ⟨determined.connection, determined.webSocket⟩, fun both => ⟨both.1, both.2⟩⟩
  rw [parts, conditions, http_checked_iff server ssl, webSocket_checked_iff server ssl]
  by_cases stands : config.isIpAllowed shifted unknownClient = true
  · simp only [stands, or_true, true_or, and_true]
  · cases endpoint <;> cases again <;> simp [stands, Refused]

def greeting : Handle := .ofRun ⟨[.respond (·.setBody (Bytes.ascii "hello"))], .returned bizOk⟩

def greetingServer : HttpServer :=
  .ofRoutes [(⟨Bytes.ascii "GET", Bytes.ascii "/greeting"⟩, fun _ _ => .handle greeting)]

def getGreeting : Request := ⟨Bytes.ascii "GET", Bytes.ascii "/greeting", 11, [], []⟩

theorem greetingServer_invokes : greetingServer.Invokes true getGreeting :=
  ⟨by decide +kernel, fun _ _ => .handle greeting, rfl⟩

/-- With a white list, a client whose endpoint cannot be determined gets to the handler. -/
theorem unknown_client_served :
    ¬ ∀ (HandleFactory : Type) (shifted : UInt32) (config : AccessControlConfig)
      (endpoint again : Option Bytes) (server : HttpServer) (wsRouter : WebSocketRouter HandleFactory)
      (accepts : Request → Bool) (ssl : Bool),
      Checked shifted config endpoint again server wsRouter accepts ssl := by
  intro all
  have checked := all Unit 0 (.allowIPs [dotted 127 0 0 1]) none none greetingServer [] (fun _ => true) false
  have opened : (accept 0 (.allowIPs [dotted 127 0 0 1]) none).isOpen = true := rfl
  obtain ⟨turn, reached, requested⟩ := open_reads_first greetingServer false opened .calm rfl getGreeting
  have allowed := checked.http _ _ _ _ _ _ _ turn getGreeting reached requested greetingServer_invokes
  exact absurd allowed (by decide +kernel)

end Connection

end Hku
