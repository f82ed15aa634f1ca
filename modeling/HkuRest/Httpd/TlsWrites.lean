import HkuRest.Httpd.ChunkedWrites

/-! Through which stream a TLS connection sends. Whole messages go through the TLS
stream; the chunk functions and the WebSocket stream were given the socket beneath
it. Nothing is assumed about the success of the writes. -/

namespace Hku

open Connection

variable {sendOk : Nat → Bool} {before middle after exchange : Exchange} {none more : Prop}

/-- The writes from one exchange to another go to the socket, and there are none
exactly under the condition. -/
def RawWrites (before after : Exchange) (none : Prop) : Prop :=
  ∃ new, after.writes = before.writes ++ new ∧ (∀ write ∈ new, write.layer = .tcp) ∧
    (new = [] ↔ none)

theorem RawWrites.silent (same : after.writes = before.writes) (holds : none) :
    RawWrites before after none :=
  ⟨[], by simpa using same, by simp, by simpa using holds⟩

theorem RawWrites.trans (first : RawWrites before middle none)
    (second : RawWrites middle after more) : RawWrites before after (none ∧ more) := by
  obtain ⟨new, wrote, raw, empty⟩ := first
  obtain ⟨later, wroteLater, rawLater, emptyLater⟩ := second
  refine ⟨new ++ later, ?_, ?_, ?_⟩
  · rw [wroteLater, wrote, List.append_assoc]
  · intro write member
    exact (List.mem_append.mp member).elim (raw write) (rawLater write)
  · rw [List.append_eq_nil_iff, empty, emptyLater]

theorem RawWrites.cons {write : Write} {new : List Write}
    (wrote : after.writes = before.writes ++ write :: new) (layer : write.layer = .tcp)
    (raw : ∀ write ∈ new, write.layer = .tcp) (fails : ¬ none) : RawWrites before after none := by
  refine ⟨write :: new, wrote, ?_, by simpa using fails⟩
  intro other member
  rcases List.mem_cons.mp member with rfl | inside
  · exact layer
  · exact raw other inside

theorem RawWrites.single {write : Write} (wrote : after.writes = before.writes ++ [write])
    (layer : write.layer = .tcp) (fails : ¬ none) : RawWrites before after none :=
  .cons wrote layer (fun _ member => absurd member List.not_mem_nil) fails

theorem writeChunkVia_raw (prepare : Response → Response) (exchange : Exchange) (data : Bytes) :
    RawWrites exchange (exchange.writeChunkVia sendOk prepare data).1
      (exchange.chunkedTransfer = false) := by
  obtain ⟨context, chunked, opened, writes⟩ := exchange
  cases chunked with
  | false => exact .silent rfl rfl
  | true =>
    cases opened with
    | true => exact .single rfl rfl Bool.true_eq_false.mp
    | false =>
      cases delivered : sendOk writes.length with
      | true =>
        simp only [Exchange.writeChunkVia, Exchange.send, Exchange.respond, delivered, if_true,
          Bool.false_eq_true, if_false]
        refine .cons (List.append_assoc _ _ _) rfl ?_ Bool.true_eq_false.mp
        simp
      | false =>
        simp only [Exchange.writeChunkVia, Exchange.send, Exchange.respond, delivered, if_true,
          Bool.false_eq_true, if_false]
        exact .single rfl rfl Bool.true_eq_false.mp

theorem finishChunkedTransferVia_raw (throws : Bool) (exchange : Exchange) :
    RawWrites exchange (exchange.finishChunkedTransferVia sendOk throws).1
      (exchange.chunkedTransfer = false) := by
  obtain ⟨context, chunked, opened, writes⟩ := exchange
  cases chunked with
  | false => exact .silent rfl rfl
  | true =>
    cases thrown : throws && !sendOk writes.length with
    | true =>
      simp only [Exchange.finishChunkedTransferVia, Exchange.send, Exchange.markSent, thrown, if_true]
      exact .single rfl rfl Bool.true_eq_false.mp
    | false =>
      simp only [Exchange.finishChunkedTransferVia, Exchange.send, Exchange.markSent, thrown, if_true,
        Bool.false_eq_true, if_false]
      exact .single rfl rfl Bool.true_eq_false.mp

/-- A call writes exactly if it has pieces; if it has none, its flags are as counted. -/
theorem perform_raw (sendOk : Nat → Bool) (exchange : Exchange) (call : HandleCall) :
    RawWrites exchange (call.perform sendOk exchange)
        ((call.pieces exchange.chunkedTransfer exchange.headersSent).1 = []) ∧
      ((call.pieces exchange.chunkedTransfer exchange.headersSent).1 = [] →
        ((call.perform sendOk exchange).chunkedTransfer, (call.perform sendOk exchange).headersSent) =
          (call.pieces exchange.chunkedTransfer exchange.headersSent).2) := by
  have empty (chunked : Bool) (piece : Piece) (rest : Bool × Bool) (other : List Piece × Bool × Bool)
      (idle : other.1 = []) :
      (if chunked = true then ([piece], rest) else other).1 = [] ↔ chunked = false := by
    cases chunked <;> simp [idle]
  cases call with
  | respond change => exact ⟨.silent rfl rfl, fun _ => rfl⟩
  | enableChunkedTransfer => exact ⟨.silent rfl rfl, fun _ => rfl⟩
  | writeChunk data | writeChunkSync data =>
    simp only [HandleCall.pieces, empty]
    refine ⟨writeChunkVia_raw _ exchange data, ?_⟩
    intro disabled
    simp [HandleCall.perform, Exchange.writeChunk, Exchange.writeChunkSync, Exchange.writeChunkVia,
      disabled]
  | finishChunkedTransfer | finishChunkedTransferSync =>
    simp only [HandleCall.pieces, empty]
    refine ⟨finishChunkedTransferVia_raw _ exchange, ?_⟩
    intro disabled
    simp [HandleCall.perform, Exchange.finishChunkedTransfer, Exchange.finishChunkedTransferSync,
      Exchange.finishChunkedTransferVia, disabled]

theorem calls_raw (sendOk : Nat → Bool) (calls : List HandleCall) (exchange : Exchange) :
    RawWrites exchange (calls.foldl (HandleCall.perform sendOk) exchange)
      (piecesFrom exchange.chunkedTransfer exchange.headersSent calls = []) := by
  induction calls generalizing exchange with
  | nil => exact .silent rfl rfl
  | cons call rest ih =>
    obtain ⟨performed, flags⟩ := perform_raw sendOk exchange call
    obtain ⟨new, wrote, raw, empty⟩ := performed.trans (ih (call.perform sendOk exchange))
    refine ⟨new, wrote, raw, ?_⟩
    rw [empty, piecesFrom, List.append_eq_nil_iff]
    apply and_congr_right
    intro idle
    have counted := flags idle
    simp only [Prod.ext_iff] at counted
    rw [counted.1, counted.2]

theorem RawWrites.respond (raw : RawWrites before after none) (change : Response → Response) :
    RawWrites before (after.respond change) none :=
  raw

/-- After handler and connection, everything went through TLS exactly if the handler
wrote nothing itself. -/
theorem RawWrites.tls_iff (raw : RawWrites before after none) (fresh : before.writes = []) :
    (∀ write ∈ (writeResponse true sendOk after).1.writes, write.layer = .tls) ↔ none := by
  obtain ⟨new, wrote, rawNew, empty⟩ := raw
  rw [fresh, List.nil_append] at wrote
  have inside : ∀ write ∈ new, write ∈ (writeResponse true sendOk after).1.writes := by
    intro write member
    unfold writeResponse
    split
    · rwa [wrote]
    · exact List.mem_append_left _ (by rwa [wrote])
  rw [← empty]
  constructor
  · intro encrypted
    apply List.eq_nil_iff_forall_not_mem.mpr
    intro write member
    have layer := rawNew write member
    rw [encrypted write (inside write member)] at layer
    cases layer
  · rintro rfl write member
    unfold writeResponse at member
    split at member
    · simp [wrote] at member
    · simp only [Exchange.send, wrote, List.nil_append, List.mem_singleton] at member
      rw [member]
      rfl

theorem RawWrites.tcp (raw : RawWrites before after none) (fresh : before.writes = []) :
    ∀ write ∈ (writeResponse false sendOk after).1.writes, write.layer = .tcp := by
  obtain ⟨new, wrote, rawNew, -⟩ := raw
  rw [fresh, List.nil_append] at wrote
  intro write member
  unfold writeResponse at member
  split at member
  · exact rawNew write (wrote ▸ member)
  · rcases List.mem_append.mp member with earlier | last
    · exact rawNew write (wrote ▸ earlier)
    · rw [List.mem_singleton.mp last]
      rfl

/-- The request does not make the server write beneath TLS: its handler's chunk calls
send nothing, and it is no upgrade that completes its handshakes. -/
def Encrypted (server : HttpServer) (circumstances : Circumstances) (index : Nat)
    (request : Request) : Prop :=
  pieces (server.handlerCalls circumstances.admitted index request) = [] ∧
    ¬ (server.action circumstances.admitted request = .upgrade ∧ circumstances.upgraded = true)

theorem upgradeWrites_tls_iff (circumstances : Circumstances) :
    (∀ write ∈ upgradeWrites circumstances, write.layer = .tls) ↔ circumstances.upgraded = false := by
  unfold upgradeWrites
  cases circumstances.upgraded <;> simp

variable {Network : Type} {server : HttpServer}
  {read : Network → Bytes → Option (Request × Bytes × Network)} {circumstances : Nat → Circumstances}
  {now : Circumstances} {index fuel i : Nat} {connection : Connection} {network : Network}
  {request : Request}

theorem answer_tls_iff {buffer : Bytes} {rest : Network} (ssl : connection.ssl = true) :
    (∀ write ∈ (answer server now index connection request buffer rest).writes,
      write.layer = .tls) ↔ Encrypted server now index request := by
  cases action : server.action now.admitted request with
  | upgrade =>
    have none : server.handlerCalls now.admitted index request = [] := by
      simp [HttpServer.handlerCalls, action]
    have writes : (answer server now index connection request buffer rest).writes =
        upgradeWrites now := by
      simp only [answer, action]
    rw [writes, upgradeWrites_tls_iff, Encrypted, none, action]
    simp [pieces, piecesFrom]
  | rejectHttp2 | rejectRate | dispatch =>
    have plain : server.action now.admitted request ≠ .upgrade := by
      rw [action]
      simp
    obtain ⟨before, change, fresh, written, _⟩ :=
      answer_written index connection buffer rest plain
    have raw := calls_raw now.sendOk (server.handlerCalls now.admitted index request) before
    rw [fresh.unchunked, fresh.unopened] at raw
    rw [written, ssl, (RawWrites.respond raw change).tls_iff fresh.silent, Encrypted, action]
    simp [pieces]

theorem answer_writes_tcp {buffer : Bytes} {rest : Network} (plain : connection.ssl = false) :
    ∀ write ∈ (answer server now index connection request buffer rest).writes, write.layer = .tcp := by
  cases action : server.action now.admitted request with
  | upgrade =>
    have writes : (answer server now index connection request buffer rest).writes =
        upgradeWrites now := by
      simp only [answer, action]
    rw [writes, upgradeWrites]
    split <;> simp
  | rejectHttp2 | rejectRate | dispatch =>
    have stays : server.action now.admitted request ≠ .upgrade := by
      rw [action]
      simp
    obtain ⟨before, change, fresh, written, _⟩ :=
      answer_written index connection buffer rest stays
    have raw := calls_raw now.sendOk (server.handlerCalls now.admitted index request) before
    rw [written, plain]
    exact (RawWrites.respond raw change).tcp fresh.silent

theorem turn_writes_tcp (plain : connection.ssl = false) :
    ∀ write ∈ (turn server read now index connection network).writes, write.layer = .tcp := by
  cases requested : (turn server read now index connection network).request with
  | none => simp [(turn_idle requested).1]
  | some request =>
    obtain ⟨buffer, rest, _, answered⟩ := turn_answer requested
    rw [answered]
    exact answer_writes_tcp plain

theorem readLoop_writes_tcp {run : List (Turn Network)}
    (ran : readLoop server read circumstances fuel 0 (.create false) network = run) :
    ∀ turn ∈ run, ∀ write ∈ turn.writes, write.layer = .tcp := by
  subst ran
  intro turn member
  obtain ⟨i, reached⟩ := List.mem_iff_getElem?.mp member
  obtain ⟨earlier, remaining, plain, rfl⟩ := readLoop_turn reached
  exact turn_writes_tcp plain

theorem tls_turn_iff {turn : Turn Network} (reached :
    (readLoop server read circumstances fuel 0 (.create true) network)[i]? = some turn) :
    (∀ write ∈ turn.writes, write.layer = .tls) ↔
      ∀ request, turn.request = some request → Encrypted server (circumstances i) i request := by
  obtain ⟨earlier, remaining, ssl, started⟩ := readLoop_turn reached
  rw [Nat.zero_add] at started
  subst started
  cases requested : (Connection.turn server read (circumstances i) i earlier remaining).request with
  | none => simp [(turn_idle requested).1]
  | some request =>
    obtain ⟨buffer, rest, _, answered⟩ := turn_answer requested
    rw [answered, answer_tls_iff ssl]
    simp

/-- Whatever arrives and whatever fails, a TLS connection writes through TLS only, if
and only if every request it reads is one that does not make it write beneath. -/
theorem tls_only_iff (server : HttpServer)
    (read : Network → Bytes → Option (Request × Bytes × Network))
    (circumstances : Nat → Circumstances) (fuel : Nat) (network : Network) :
    (∀ (i : Nat) (turn : Turn Network),
      (readLoop server read circumstances fuel 0 (.create true) network)[i]? = some turn →
      ∀ write ∈ turn.writes, write.layer = .tls) ↔
    ∀ (i : Nat) (turn : Turn Network) (request : Request),
      (readLoop server read circumstances fuel 0 (.create true) network)[i]? = some turn →
      turn.request = some request → Encrypted server (circumstances i) i request := by
  constructor
  · intro encrypted i turn request reached requested
    exact (tls_turn_iff reached).mp (encrypted i turn reached) request requested
  · intro encrypted i turn reached
    exact (tls_turn_iff reached).mpr fun request => encrypted i turn request reached

def chunkedSecret : Handle :=
  .ofRun ⟨[.enableChunkedTransfer, .writeChunk (Bytes.ascii "secret"), .finishChunkedTransfer],
    .returned bizOk⟩

def secretServer : HttpServer :=
  .ofRoutes [(⟨Bytes.ascii "GET", Bytes.ascii "/secret"⟩, fun _ _ => .handle chunkedSecret)]

def getSecret : Request := ⟨Bytes.ascii "GET", Bytes.ascii "/secret", 11, [], []⟩

/-- The header and the chunk leave the server in the clear. -/
theorem chunk_written_beneath_tls :
    ¬ ∀ (server : HttpServer) (circumstances : Nat → Circumstances) (requests : List Request)
      (fuel i : Nat) (turn : Turn (List Request)),
      (readLoop server arriving circumstances fuel 0 (.create true) requests)[i]? = some turn →
      ∀ write ∈ turn.writes, write.layer = .tls := by
  intro encrypted
  have layers : ∃ turn, (readLoop secretServer arriving (fun _ => .calm) 1 0 (.create true)
      [getSecret])[0]? = some turn ∧ turn.writes.map Write.layer = [.tcp, .tcp, .tcp] := by
    refine ⟨_, rfl, ?_⟩
    decide +kernel
  obtain ⟨turn, reached, layers⟩ := layers
  have all := encrypted secretServer (fun _ => .calm) [getSecret] 1 0 turn reached
  have member : Layer.tcp ∈ turn.writes.map Write.layer := by simp [layers]
  obtain ⟨write, written, layer⟩ := List.mem_map.mp member
  rw [all write written] at layer
  cases layer

end Hku
