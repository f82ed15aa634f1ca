import HkuRest.Core.Claims
import HkuRest.Httpd.Connection
import HkuRest.Httpd.PermitIds

/-! Who holds the permits of an `HttpServer`. `Connection::readLoop` takes one after the TLS
handshake, answers requests while it has it, and leaves the loop in one of many ways; the
destructor gives back whatever `m_permit` then is. `start()` makes a new manager, to which the
connections of an earlier run give their permits back. -/

namespace Hku

/-- How far `Connection::readLoop` has come. `call` is the `acquire` that it made. -/
inductive ServedPhase
  | handshaking
  | connected
  | acquiring (call : Nat)
  | serving (call : Nat)
  | closing (call : Nat)
  | rejected
  | destroyed
  deriving DecidableEq, Repr

/-- A `Connection` object with its `m_permit`, the manager that issued it, and what it still has
to read. -/
structure ServedConnection (Network : Type) where
  phase : ServedPhase
  permit : Int
  era : Nat
  released : Nat
  connection : Connection
  network : Network
  deriving DecidableEq

namespace ServedConnection
variable {Network : Type}

/-- The acquire call whose outcome is for this connection to use or to give back. -/
def claim (served : ServedConnection Network) : List Nat :=
  match served.phase with
  | .acquiring call | .serving call | .closing call => [call]
  | _ => []

/-- The connection has a permit that it has not given back. -/
def inside (served : ServedConnection Network) : Bool :=
  match served.phase with
  | .serving _ | .closing _ => true
  | _ => false

def isAcquiring (served : ServedConnection Network) : Bool :=
  match served.phase with
  | .acquiring _ => true
  | _ => false

/-- What `readLoop` makes of the permit that `acquire` returned. -/
def assign (served : ServedConnection Network) (call : Nat) (permit : Int) :
    ServedConnection Network :=
  { served with permit, phase := if 0 ≤ permit then .serving call else .rejected }

end ServedConnection

/-- An `HttpServer` with the connections it has accepted. -/
structure ServerState (Network : Type) where
  era : Nat
  connectionManager : ConnectionManager.State
  connections : List (ServedConnection Network)
  deriving DecidableEq

namespace ServerState
variable {Network : Type}

inductive Event (Network : Type)
  | accept (ssl : Bool) (network : Network)
  | sslHandshake (i : Nat) (success : Bool)
  | acquire (i : Nat)
  | manager (call : Nat) (action : ConnectionManager.Action)
  | assign (i : Nat)
  | turn (i : Nat) (circumstances : Circumstances) (index : Nat)
  | thrown (i : Nat)
  | destroy (i : Nat)
  | stop
  | start (maxConcurrent waitTimeout : Nat)

def initial (maxConcurrent waitTimeout : Nat) : ServerState Network :=
  ⟨0, .initial maxConcurrent waitTimeout, []⟩

def replace (state : ServerState Network) (i : Nat) (served : ServedConnection Network) :
    ServerState Network :=
  { state with connections := state.connections.set i served }

/-- `m_server->m_connection_manager->release` in the destructor: the manager is the present one,
whichever has issued the permit. -/
def giveBack (state : ServerState Network) (served : ServedConnection Network) (call : Nat) :
    Option ConnectionManager.State :=
  if served.era = state.era then state.connectionManager.next (.act call .release)
  else do
    let effect ← state.connectionManager.manager.release (.holding served.permit)
    return ⟨effect.manager, state.connectionManager.calls ++ [effect.call]⟩

variable (server : HttpServer) (read : Network → Bytes → Option (Request × Bytes × Network))

def next (state : ServerState Network) : Event Network → Option (ServerState Network)
  | .accept ssl network =>
      some { state with connections := state.connections ++
        [⟨if ssl then .handshaking else .connected, -1, state.era, 0, .create ssl, network⟩] }
  | .sslHandshake i success => do
      let served ← state.connections[i]?
      if served.phase = .handshaking then
        some (state.replace i { served with phase := if success then .connected else .rejected })
      else none
  | .acquire i => do
      let served ← state.connections[i]?
      if served.phase = .connected then do
        let manager ← state.connectionManager.next .acquire
        some { state with
          connectionManager := manager
          connections := state.connections.set i { served with
            phase := .acquiring state.connectionManager.calls.length, era := state.era } }
      else none
  | .manager call action =>
      -- a permit is given back by the destructor alone
      if action = .release then none
      else do
        let manager ← state.connectionManager.next (.act call action)
        some { state with connectionManager := manager }
  | .assign i => do
      let served ← state.connections[i]?
      match served.phase with
      | .acquiring call =>
          match state.connectionManager.calls[call]? with
          | some (.holding permitId) => some (state.replace i (served.assign call permitId))
          | some .refused => some (state.replace i (served.assign call (-1)))
          | _ => none
      | _ => none
  | .turn i circumstances index => do
      let served ← state.connections[i]?
      match served.phase with
      | .serving call =>
          let turn := served.connection.turn server read circumstances index served.network
          some (state.replace i { served with
            phase := if turn.continues then .serving call else .closing call
            connection := turn.connection
            network := turn.network })
      | _ => none
  | .thrown i => do
      let served ← state.connections[i]?
      match served.phase with
      | .serving call => some (state.replace i { served with phase := .closing call })
      | _ => none
  | .destroy i => do
      let served ← state.connections[i]?
      match served.phase with
      | .rejected => some (state.replace i { served with phase := .destroyed })
      | .closing call =>
          if 0 ≤ served.permit then do
            let manager ← state.giveBack served call
            some { state with
              connectionManager := manager
              connections := state.connections.set i
                { served with phase := .destroyed, released := served.released + 1 } }
          else some (state.replace i { served with phase := .destroyed })
      | _ => none
  | .stop => do
      let manager ← state.connectionManager.next .shutdown
      some { state with connectionManager := manager }
  | .start maxConcurrent waitTimeout =>
      -- an acquire that is suspended would be left without its manager
      if state.connections.any (·.isAcquiring) then none
      else some ⟨state.era + 1, .initial maxConcurrent waitTimeout, state.connections⟩

def inside (state : ServerState Network) : Nat := Pool.tally (·.inside) state.connections

/-- The ids drawn test valid, and the server is started again only after every permit was given
back. -/
def lawful (state : ServerState Network) : Event Network → Bool
  | .manager call action => state.connectionManager.lawful (.act call action)
  | .start _ _ => state.connections.all (·.claim.isEmpty)
  | _ => true

def Lawful (state : ServerState Network) (event : Event Network) : Prop := state.lawful event = true

instance (state : ServerState Network) (event : Event Network) : Decidable (state.Lawful event) :=
  inferInstanceAs (Decidable (_ = _))

/-- The steps of the server, with what was the case there and with all that they do. -/
inductive Steps (state : ServerState Network) : Event Network → ServerState Network → Prop
  | accept (ssl : Bool) (network : Network) :
      Steps state (.accept ssl network) { state with connections := state.connections ++
        [⟨if ssl then .handshaking else .connected, -1, state.era, 0, .create ssl, network⟩] }
  | sslHandshake {i : Nat} {served : ServedConnection Network} (success : Bool)
      (found : state.connections[i]? = some served) (handshaking : served.phase = .handshaking) :
      Steps state (.sslHandshake i success)
        (state.replace i { served with phase := if success then .connected else .rejected })
  | acquire {i : Nat} {served : ServedConnection Network} {manager : ConnectionManager.State}
      (found : state.connections[i]? = some served) (connected : served.phase = .connected)
      (started : state.connectionManager.next .acquire = some manager) :
      Steps state (.acquire i) { state with
        connectionManager := manager
        connections := state.connections.set i { served with
          phase := .acquiring state.connectionManager.calls.length, era := state.era } }
  | manager {call : Nat} {action : ConnectionManager.Action} {manager : ConnectionManager.State}
      (kept : action ≠ .release)
      (moved : state.connectionManager.next (.act call action) = some manager) :
      Steps state (.manager call action) { state with connectionManager := manager }
  | assign {i call : Nat} {served : ServedConnection Network} {permit : Int}
      (found : state.connections[i]? = some served) (acquiring : served.phase = .acquiring call)
      (outcome : state.connectionManager.calls[call]? = some (.holding permit) ∨
        state.connectionManager.calls[call]? = some .refused ∧ permit = -1) :
      Steps state (.assign i) (state.replace i (served.assign call permit))
  | turn {i index call : Nat} {served : ServedConnection Network} {circumstances : Circumstances}
      (continues : Bool) (connection : Connection) (network : Network)
      (found : state.connections[i]? = some served) (serving : served.phase = .serving call) :
      Steps state (.turn i circumstances index) (state.replace i { served with
        phase := if continues then .serving call else .closing call
        connection
        network })
  | thrown {i call : Nat} {served : ServedConnection Network}
      (found : state.connections[i]? = some served) (serving : served.phase = .serving call) :
      Steps state (.thrown i) (state.replace i { served with phase := .closing call })
  | destroy {i : Nat} {served : ServedConnection Network}
      (found : state.connections[i]? = some served)
      (unserved : served.phase = .rejected ∨
        ∃ call, served.phase = .closing call ∧ ¬ 0 ≤ served.permit) :
      Steps state (.destroy i) (state.replace i { served with phase := .destroyed })
  | release {i call : Nat} {served : ServedConnection Network} {manager : ConnectionManager.State}
      (found : state.connections[i]? = some served) (closing : served.phase = .closing call)
      (valid : 0 ≤ served.permit) (given : state.giveBack served call = some manager) :
      Steps state (.destroy i) { state with
        connectionManager := manager
        connections := state.connections.set i
          { served with phase := .destroyed, released := served.released + 1 } }
  | stop {manager : ConnectionManager.State}
      (moved : state.connectionManager.next .shutdown = some manager) :
      Steps state .stop { state with connectionManager := manager }
  | start (maxConcurrent waitTimeout : Nat) :
      Steps state (.start maxConcurrent waitTimeout)
        ⟨state.era + 1, .initial maxConcurrent waitTimeout, state.connections⟩

theorem next_steps {server : HttpServer} {read : Network → Bytes → Option (Request × Bytes × Network)}
    {before after : ServerState Network} {event : Event Network}
    (stepped : before.next server read event = some after) : before.Steps event after := by
  cases event with
  | accept ssl network =>
    cases stepped
    exact .accept ssl network
  | sslHandshake i success =>
    simp only [next, Option.bind_eq_bind, Option.bind_eq_some_iff, Option.ite_none_right_eq_some,
      Option.some.injEq] at stepped
    obtain ⟨served, found, handshaking, rfl⟩ := stepped
    exact .sslHandshake success found handshaking
  | acquire i =>
    simp only [next, Option.bind_eq_bind, Option.bind_eq_some_iff, Option.ite_none_right_eq_some,
      Option.some.injEq] at stepped
    obtain ⟨served, found, connected, manager, started, rfl⟩ := stepped
    exact .acquire found connected started
  | manager call action =>
    simp only [next, Option.ite_none_left_eq_some, Option.bind_eq_bind, Option.bind_eq_some_iff,
      Option.some.injEq] at stepped
    obtain ⟨kept, manager, moved, rfl⟩ := stepped
    exact .manager kept moved
  | assign i =>
    simp only [next, Option.bind_eq_bind, Option.bind_eq_some_iff] at stepped
    obtain ⟨served, found, stepped⟩ := stepped
    split at stepped
    · rename_i call acquiring
      split at stepped
      · rename_i permit holds
        cases stepped
        exact .assign found acquiring (.inl holds)
      · rename_i refused
        cases stepped
        exact .assign found acquiring (.inr ⟨refused, rfl⟩)
      · cases stepped
    · cases stepped
  | turn i circumstances index =>
    simp only [next, Option.bind_eq_bind, Option.bind_eq_some_iff] at stepped
    obtain ⟨served, found, stepped⟩ := stepped
    split at stepped
    · rename_i call serving
      cases stepped
      exact .turn _ _ _ found serving
    · cases stepped
  | thrown i =>
    simp only [next, Option.bind_eq_bind, Option.bind_eq_some_iff] at stepped
    obtain ⟨served, found, stepped⟩ := stepped
    split at stepped
    · rename_i call serving
      cases stepped
      exact .thrown found serving
    · cases stepped
  | destroy i =>
    simp only [next, Option.bind_eq_bind, Option.bind_eq_some_iff] at stepped
    obtain ⟨served, found, stepped⟩ := stepped
    split at stepped
    · rename_i rejected
      cases stepped
      exact .destroy found (.inl rejected)
    · rename_i call closing
      split at stepped
      · rename_i valid
        obtain ⟨manager, given, stepped⟩ := Option.bind_eq_some_iff.mp stepped
        cases stepped
        exact .release found closing valid given
      · rename_i invalid
        cases stepped
        exact .destroy found (.inr ⟨call, closing, invalid⟩)
    · cases stepped
  | stop =>
    simp only [next, Option.bind_eq_bind, Option.bind_eq_some_iff, Option.some.injEq] at stepped
    obtain ⟨manager, moved, rfl⟩ := stepped
    exact .stop moved
  | start maxConcurrent waitTimeout =>
    simp only [next, Option.ite_none_left_eq_some, Option.some.injEq] at stepped
    obtain ⟨-, rfl⟩ := stepped
    exact .start maxConcurrent waitTimeout

end ServerState

namespace ConnectionManager

/-- A call of `acquire`, at whatever point. -/
def Call.acquires : Call → Bool
  | .notifying | .released | .shutting | .draining | .cancelling _ | .shut => false
  | _ => true

/-- A call of `acquire` that has a valid permit or may still get one. -/
def Call.live : Call → Bool
  | .holding permitId => 0 ≤ permitId
  | .refused => false
  | call => call.acquires

variable {manager : ConnectionManager} {call old new : Call} {action : Action} {effect : Effect}
  {state after : State} {calls : List Call} {i j timer : Nat}

theorem any_cancel (property : Call → Bool) (blind : property (.resuming true) = property .waiting)
    (calls : List Call) (cancelled : Option Nat) (j : Nat) :
    (cancel calls cancelled)[j]?.any property = calls[j]?.any property := by
  cases cancelled with
  | none => rfl
  | some timer =>
    simp only [cancel]
    split
    · rename_i pending
      by_cases same : timer = j
      · subst same
        rw [pending, List.getElem?_set_self (List.getElem?_eq_some_iff.mp pending).1]
        exact blind
      · rw [List.getElem?_set_ne same]
    · rfl

theorem any_commit (property : Call → Bool) (blind : property (.resuming true) = property .waiting)
    (found : state.calls[i]? = some old) (effect : Effect) (j : Nat) :
    (state.commit i effect).calls[j]?.any property =
      if j = i then property effect.call else state.calls[j]?.any property := by
  rw [State.commit, any_cancel property blind]
  split
  · rename_i same
    subst same
    rw [List.getElem?_set_self (List.getElem?_eq_some_iff.mp found).1]
    rfl
  · rename_i other
    rw [List.getElem?_set_ne (Ne.symm other)]

theorem any_append (property : Call → Bool) (calls : List Call) (new : Call) (k : Nat) :
    (calls ++ [new])[k]?.any property =
      (calls[k]?.any property || (k == calls.length && property new)) := by
  rcases Nat.lt_trichotomy k calls.length with before | rfl | beyond
  · simp [List.getElem?_append_left before, before.ne]
  · simp
  · rw [List.getElem?_eq_none (by simp; omega), List.getElem?_eq_none beyond.le]
    simp [beyond.ne']

/-- A call that does not give a permit back matters no more than before, and stays what it is. -/
theorem act_live (acted : manager.act timer old action = some effect) (kept : action ≠ .release) :
    (effect.call.live = true → old.live = true) ∧ (old.acquires = true → effect.call.acquires = true) := by
  have leads := act_leads acted
  generalize effect.call = new at leads
  cases leads <;> simp_all [Call.live, Call.acquires]

theorem act_not_holding (acted : manager.act timer old action = some effect)
    (kept : action ≠ .release) (permit : Int) : old ≠ .holding permit := by
  rintro rfl
  have leads := act_leads acted
  generalize effect.call = new at leads
  cases leads
  exact kept rfl

theorem release_notifies (acted : manager.act timer old .release = some effect) :
    effect.call = .notifying := by
  cases old with
  | holding permitId =>
    simp only [act, release, Option.ite_none_right_eq_some, Option.some.injEq] at acted
    obtain ⟨_, rfl⟩ := acted
    rfl
  | _ => cases acted

end ConnectionManager

open ConnectionManager (Call)

namespace ServedConnection
variable {Network : Type} {served : ServedConnection Network} {calls later : List Call}

/-- What the phase says of the call that the connection claims, and of its permit. -/
def Stands (calls : List Call) (served : ServedConnection Network) : Prop :=
  match served.phase with
  | .acquiring call => calls[call]?.any Call.acquires = true ∧ served.permit < 0
  | .serving call | .closing call =>
      calls[call]?.any (· == .holding served.permit) = true ∧ 0 ≤ served.permit
  | .destroyed => True
  | _ => served.permit < 0

/-- How often the permit should have been given back by now. -/
def owed (served : ServedConnection Network) : Nat :=
  if served.phase = .destroyed ∧ 0 ≤ served.permit then 1 else 0

structure Sound (era : Nat) (calls : List Call) (served : ServedConnection Network) : Prop where
  stands : served.Stands calls
  era : served.claim ≠ [] → served.era = era

theorem Stands.mono (stands : served.Stands calls)
    (kept : ∀ k ∈ served.claim, ∀ property : Call → Bool,
      property = Call.acquires ∨ property = (· == .holding served.permit) →
      calls[k]?.any property = true → later[k]?.any property = true) : served.Stands later := by
  cases phase : served.phase with
  | acquiring call =>
    simp only [Stands, phase, claim] at stands kept ⊢
    exact ⟨kept call List.mem_cons_self _ (.inl rfl) stands.1, stands.2⟩
  | serving call | closing call =>
    simp only [Stands, phase, claim] at stands kept ⊢
    exact ⟨kept call List.mem_cons_self _ (.inr rfl) stands.1, stands.2⟩
  | _ => simp_all only [Stands]

theorem Stands.claim_lt (stands : served.Stands calls) (claimed : k ∈ served.claim) :
    k < calls.length := by
  by_contra outside
  have missing : calls[k]? = none := List.getElem?_eq_none (not_lt.mp outside)
  cases phase : served.phase with
  | acquiring call | serving call | closing call =>
    simp only [claim, phase, List.mem_singleton] at claimed
    subst claimed
    simp [Stands, phase, missing] at stands
  | _ => simp [claim, phase] at claimed

end ServedConnection

namespace ServerState
variable {Network : Type} {server : HttpServer}
  {read : Network → Bytes → Option (Request × Bytes × Network)}
  {state before after : ServerState Network} {event : Event Network}
  {served moved : ServedConnection Network} {i k : Nat}

def claims (state : ServerState Network) : List Nat :=
  Pool.gather ServedConnection.claim state.connections

/-- The books of the server: the counter is the number of slots taken, the valid ids are those
drawn, and every call that matters is claimed by one connection. -/
structure Accounted (state : ServerState Network) : Prop where
  counts : state.connectionManager.Counts
  valid : state.connectionManager.AllValid
  sound : ∀ (i : Nat) (served : ServedConnection Network), state.connections[i]? = some served →
    served.Sound state.era state.connectionManager.calls
  covers : Pool.Covers Call.live state.connectionManager.calls state.claims

namespace Accounted

theorem initial (maxConcurrent waitTimeout : Nat) :
    (ServerState.initial maxConcurrent waitTimeout : ServerState Network).Accounted := by
  refine ⟨⟨rfl, (by decide : (0 : Int) ≤ intMax)⟩, ?_, ?_, .nil _⟩
  · intro permitId member
    cases member
  · intro i served found
    simp [ServerState.initial] at found

theorem claim_lt (accounted : state.Accounted) (claimed : k ∈ state.claims) :
    k < state.connectionManager.calls.length := by
  obtain ⟨served, member, claimed⟩ := List.mem_flatMap.mp claimed
  obtain ⟨i, found⟩ := List.mem_iff_getElem?.mp member
  exact (accounted.sound i served found).stands.claim_lt claimed

theorem replace (accounted : state.Accounted) (found : state.connections[i]? = some served)
    (same : moved.claim = served.claim)
    (sound : moved.Sound state.era state.connectionManager.calls) :
    (state.replace i moved).Accounted := by
  refine ⟨accounted.counts, accounted.valid, ?_, ?_⟩
  · intro j other there
    rcases eq_or_ne i j with rfl | apart
    · simp only [ServerState.replace, List.getElem?_set_self (List.getElem?_eq_some_iff.mp found).1] at there
      cases there
      exact sound
    · simp only [ServerState.replace, List.getElem?_set_ne apart] at there
      exact accounted.sound j other there
  · have gathered := Pool.gather_set ServedConnection.claim found moved
    rw [same] at gathered
    exact accounted.covers.perm ((List.perm_append_right_iff _).mp gathered)

theorem managed (accounted : state.Accounted) {later : ConnectionManager.State}
    (counts : later.Counts) (valid : later.AllValid)
    (live : ∀ k : Nat, later.calls[k]?.any Call.live = true →
      state.connectionManager.calls[k]?.any Call.live = true)
    (kept : ∀ k : Nat, ∀ property : Call → Bool,
      property = Call.acquires ∨ (∃ permit, property = (· == .holding permit)) →
      state.connectionManager.calls[k]?.any property = true → later.calls[k]?.any property = true) :
    { state with connectionManager := later }.Accounted := by
  refine ⟨counts, valid, fun i served found => ?_, accounted.covers.move live⟩
  obtain ⟨stands, era⟩ := accounted.sound i served found
  refine ⟨stands.mono fun k _ property shape => kept k property ?_, era⟩
  exact shape.imp_right fun same => ⟨_, same⟩

theorem act (accounted : state.Accounted) {call : Nat} {action : ConnectionManager.Action}
    {later : ConnectionManager.State} (kept : action ≠ .release)
    (lawful : state.connectionManager.Lawful (.act call action))
    (stepped : state.connectionManager.next (.act call action) = some later) :
    { state with connectionManager := later }.Accounted := by
  have counts := ConnectionManager.next_counts accounted.counts lawful stepped
  have valid := ConnectionManager.next_allValid accounted.valid lawful stepped
  obtain ⟨old, effect, found, acted, rfl⟩ := ConnectionManager.State.next_act stepped
  have moved := ConnectionManager.act_live acted kept
  refine accounted.managed counts valid ?_ ?_
  · intro k live
    rw [ConnectionManager.any_commit _ rfl found] at live
    split at live
    · rename_i same
      rw [same, found]
      exact moved.1 live
    · exact live
  · rintro k property (rfl | ⟨permit, rfl⟩) stands
    · rw [ConnectionManager.any_commit _ rfl found]
      split
      · rename_i same
        rw [same, found] at stands
        exact moved.2 stands
      · exact stands
    · rw [ConnectionManager.any_commit _ rfl found]
      split
      · rename_i same
        rw [same, found] at stands
        exact absurd (eq_of_beq stands) (ConnectionManager.act_not_holding acted kept permit)
      · exact stands

theorem stop (accounted : state.Accounted) {later : ConnectionManager.State}
    (stepped : state.connectionManager.next .shutdown = some later) :
    { state with connectionManager := later }.Accounted := by
  have lawful : state.connectionManager.Lawful .shutdown := rfl
  have counts := ConnectionManager.next_counts accounted.counts lawful stepped
  have valid := ConnectionManager.next_allValid accounted.valid lawful stepped
  cases stepped
  refine accounted.managed counts valid ?_ ?_
  · intro k live
    simpa [ConnectionManager.any_append, Call.live, Call.acquires] using live
  · intro k property _ stands
    simp only [ConnectionManager.any_append, stands, Bool.true_or]

theorem accept (accounted : state.Accounted) (new : ServedConnection Network)
    (idle : new.claim = []) (sound : new.Sound state.era state.connectionManager.calls) :
    { state with connections := state.connections ++ [new] }.Accounted := by
  refine ⟨accounted.counts, accounted.valid, ?_, ?_⟩
  · intro i served found
    rcases Pool.found_append found with earlier | ⟨_, rfl⟩
    · exact accounted.sound i served earlier
    · exact sound
  · refine accounted.covers.perm (List.Perm.of_eq ?_)
    simp [claims, Pool.gather, idle]

theorem acquire (accounted : state.Accounted) (found : state.connections[i]? = some served)
    (connected : served.phase = .connected) {later : ConnectionManager.State}
    (stepped : state.connectionManager.next .acquire = some later) :
    { state with
      connectionManager := later
      connections := state.connections.set i { served with
        phase := .acquiring state.connectionManager.calls.length, era := state.era } }.Accounted := by
  have lawful : state.connectionManager.Lawful .acquire := rfl
  have counts := ConnectionManager.next_counts accounted.counts lawful stepped
  have valid := ConnectionManager.next_allValid accounted.valid lawful stepped
  cases stepped
  have unclaimed : served.claim = [] := by simp [ServedConnection.claim, connected]
  have gathered := Pool.gather_set ServedConnection.claim found { served with
    phase := .acquiring state.connectionManager.calls.length, era := state.era }
  rw [unclaimed, List.append_nil] at gathered
  refine ⟨counts, valid, ?_, ?_⟩
  · intro j other there
    rcases eq_or_ne i j with rfl | apart
    · rw [List.getElem?_set_self (List.getElem?_eq_some_iff.mp found).1] at there
      cases there
      have stands := (accounted.sound i served found).stands
      simp only [ServedConnection.Stands, connected] at stands
      exact ⟨⟨by simp [Call.acquires], stands⟩, fun _ => rfl⟩
    · rw [List.getElem?_set_ne apart] at there
      obtain ⟨stands, era⟩ := accounted.sound j other there
      refine ⟨stands.mono fun k _ property _ held => ?_, era⟩
      simp only [ConnectionManager.any_append, held, Bool.true_or]
  · exact (accounted.covers.join (fun k => accounted.claim_lt) .entered).perm gathered

theorem reject (accounted : state.Accounted) (found : state.connections[i]? = some served)
    (claimed : served.claim = [k]) (unclaimed : moved.claim = [])
    (dead : state.connectionManager.calls[k]?.any Call.live = false)
    (sound : moved.Sound state.era state.connectionManager.calls) :
    (state.replace i moved).Accounted := by
  have gathered := Pool.gather_set ServedConnection.claim found moved
  rw [claimed, unclaimed, List.append_nil] at gathered
  refine ⟨accounted.counts, accounted.valid, ?_, accounted.covers.yield gathered.symm dead⟩
  intro j other there
  rcases eq_or_ne i j with rfl | apart
  · simp only [ServerState.replace, List.getElem?_set_self (List.getElem?_eq_some_iff.mp found).1] at there
    cases there
    exact sound
  · simp only [ServerState.replace, List.getElem?_set_ne apart] at there
    exact accounted.sound j other there

/-- The destructor gives the permit back to the manager that issued it. -/
theorem release (accounted : state.Accounted) (found : state.connections[i]? = some served)
    (closing : served.phase = .closing k) {later : ConnectionManager.State}
    (stepped : state.connectionManager.next (.act k .release) = some later) :
    { state with
      connectionManager := later
      connections := state.connections.set i
        { served with phase := .destroyed, released := served.released + 1 } }.Accounted := by
  have lawful : state.connectionManager.Lawful (.act k .release) := rfl
  have counts := ConnectionManager.next_counts accounted.counts lawful stepped
  have valid := ConnectionManager.next_allValid accounted.valid lawful stepped
  obtain ⟨old, effect, there, acted, rfl⟩ := ConnectionManager.State.next_act stepped
  have notifies := ConnectionManager.release_notifies acted
  have claimed : served.claim = [k] := by simp [ServedConnection.claim, closing]
  have gathered := Pool.gather_set ServedConnection.claim found
    { served with phase := .destroyed, released := served.released + 1 }
  rw [claimed, show ({ served with phase := .destroyed, released := served.released + 1 } :
    ServedConnection Network).claim = [] from rfl, List.append_nil] at gathered
  refine ⟨counts, valid, ?_, ?_⟩
  · intro j other member
    rcases eq_or_ne i j with rfl | apart
    · rw [List.getElem?_set_self (List.getElem?_eq_some_iff.mp found).1] at member
      cases member
      exact ⟨trivial, fun claims => absurd rfl claims⟩
    · rw [List.getElem?_set_ne apart] at member
      obtain ⟨stands, era⟩ := accounted.sound j other member
      refine ⟨stands.mono fun k' claims property shape held => ?_, era⟩
      have elsewhere : k' ≠ k := by
        rintro rfl
        exact accounted.covers.disjoint apart found member (by simp [claimed]) claims
      rcases shape with rfl | rfl <;>
      · rw [ConnectionManager.any_commit _ rfl there, if_neg elsewhere]
        exact held
  · refine Pool.Covers.yield (k := k) ?_ gathered.symm ?_
    · refine accounted.covers.move fun k' live => ?_
      rw [ConnectionManager.any_commit _ rfl there] at live
      split at live
      · rw [notifies] at live
        cases live
      · exact live
    · rw [ConnectionManager.any_commit _ rfl there, if_pos rfl, notifies]
      rfl

theorem start (accounted : state.Accounted) (idle : ∀ served ∈ state.connections, served.claim = [])
    (maxConcurrent waitTimeout : Nat) :
    (ServerState.mk (state.era + 1) (.initial maxConcurrent waitTimeout) state.connections).Accounted := by
  have none : state.claims = [] := List.flatMap_eq_nil_iff.mpr idle
  refine ⟨⟨rfl, (by decide : (0 : Int) ≤ intMax)⟩, ?_, ?_, none ▸ .nil _⟩
  · intro permitId member
    cases member
  · intro i served found
    have unclaimed := idle served (List.mem_of_getElem? found)
    have stands := (accounted.sound i served found).stands
    refine ⟨stands.mono fun k claimed => ?_, fun claims => absurd unclaimed claims⟩
    rw [unclaimed] at claimed
    cases claimed

theorem assign (accounted : state.Accounted) (found : state.connections[i]? = some served)
    (acquiring : served.phase = .acquiring k) {permit : Int}
    (outcome : state.connectionManager.calls[k]? = some (.holding permit) ∨
      state.connectionManager.calls[k]? = some .refused ∧ permit = -1) :
    (state.replace i (served.assign k permit)).Accounted := by
  have era := (accounted.sound i served found).era
  have claimed : served.claim = [k] := by simp [ServedConnection.claim, acquiring]
  have issued : served.era = state.era := era (by simp [claimed])
  by_cases usable : 0 ≤ permit
  · obtain holds | ⟨_, rfl⟩ := outcome
    · refine accounted.replace found ?_ ⟨?_, fun _ => issued⟩
      · simp [ServedConnection.claim, ServedConnection.assign, usable, acquiring]
      · simp [ServedConnection.Stands, ServedConnection.assign, usable, holds]
    · exact absurd usable (by decide)
  · have turned : (served.assign k permit).phase = .rejected := by
      simp [ServedConnection.assign, usable]
    refine accounted.reject found claimed (by simp [ServedConnection.claim, turned]) ?_ ⟨?_, ?_⟩
    · obtain holds | ⟨refused, _⟩ := outcome
      · simp [holds, Call.live, usable]
      · simp [refused, Call.live]
    · simp only [ServedConnection.Stands, turned]
      exact not_le.mp usable
    · simp [ServedConnection.claim, turned]

/-- Every step keeps the books. -/
theorem next (accounted : before.Accounted) (lawful : before.Lawful event)
    (stepped : before.next server read event = some after) : after.Accounted := by
  cases next_steps stepped with
  | accept ssl network =>
    cases ssl <;>
      exact accounted.accept _ rfl ⟨by simp [ServedConnection.Stands], fun claims => absurd rfl claims⟩
  | sslHandshake success found handshaking =>
    have stands := (accounted.sound _ _ found).stands
    simp only [ServedConnection.Stands, handshaking] at stands
    refine accounted.replace found ?_ ⟨?_, ?_⟩ <;> cases success <;>
      simp_all [ServedConnection.claim, ServedConnection.Stands]
  | acquire found connected started => exact accounted.acquire found connected started
  | manager kept moved => exact accounted.act kept lawful moved
  | assign found acquiring outcome => exact accounted.assign found acquiring outcome
  | turn continues connection network found serving =>
    obtain ⟨stands, era⟩ := accounted.sound _ _ found
    simp only [ServedConnection.Stands, ServedConnection.claim, serving] at stands era
    refine accounted.replace found ?_ ⟨?_, fun _ => era (by simp)⟩ <;> split <;>
      simp_all [ServedConnection.claim, ServedConnection.Stands]
  | thrown found serving =>
    obtain ⟨stands, era⟩ := accounted.sound _ _ found
    simp only [ServedConnection.Stands, ServedConnection.claim, serving] at stands era
    refine accounted.replace found ?_ ⟨?_, fun _ => era (by simp)⟩ <;>
      simp_all [ServedConnection.claim, ServedConnection.Stands]
  | destroy found unserved =>
    obtain ⟨stands, era⟩ := accounted.sound _ _ found
    rcases unserved with rejected | ⟨call, closing, invalid⟩
    · refine accounted.replace found ?_ ⟨trivial, fun claims => absurd rfl claims⟩
      simp [ServedConnection.claim, rejected]
    · simp only [ServedConnection.Stands, closing] at stands
      exact absurd stands.2 invalid
  | release found closing valid given =>
    obtain ⟨stands, era⟩ := accounted.sound _ _ found
    simp only [ServedConnection.claim, closing] at era
    rw [giveBack, if_pos (era (by simp))] at given
    exact accounted.release found closing given
  | stop moved => exact accounted.stop moved
  | start maxConcurrent waitTimeout =>
    refine accounted.start (fun served member => ?_) maxConcurrent waitTimeout
    simpa using List.all_eq_true.mp lawful served member

end Accounted

theorem accounted_reached {maxConcurrent waitTimeout : Nat}
    (reached : Transition.Reaches (ServerState.next server read) ServerState.Lawful
      (.initial maxConcurrent waitTimeout) state) : state.Accounted :=
  reached.invariant Accounted (.initial _ _) fun _ _ _ accounted lawful stepped =>
    accounted.next lawful stepped

/-- While no connection waits for its permit, what is claimed is held. -/
theorem Accounted.holds (accounted : state.Accounted)
    (assigned : ∀ served ∈ state.connections, served.isAcquiring = false) (claimed : k ∈ state.claims) :
    ∃ permit, state.connectionManager.calls[k]? = some (.holding permit) := by
  obtain ⟨served, member, claimed⟩ := List.mem_flatMap.mp claimed
  obtain ⟨i, found⟩ := List.mem_iff_getElem?.mp member
  have stands := (accounted.sound i served found).stands
  have waits := assigned served member
  cases phase : served.phase with
  | acquiring call => simp [ServedConnection.isAcquiring, phase] at waits
  | serving call | closing call =>
    simp only [ServedConnection.claim, phase, List.mem_singleton] at claimed
    subst claimed
    simp only [ServedConnection.Stands, phase, Option.any_eq_true, beq_iff_eq] at stands
    obtain ⟨⟨_, there, rfl⟩, _⟩ := stands
    exact ⟨_, there⟩
  | _ => simp [ServedConnection.claim, phase] at claimed

theorem Accounted.inside_eq (accounted : state.Accounted)
    (settled : ∀ call ∈ state.connectionManager.calls, call.settled = true)
    (assigned : ∀ served ∈ state.connections, served.isAcquiring = false) :
    state.connectionManager.counted = state.inside := by
  have live : state.connectionManager.counted =
      Pool.tally Call.live state.connectionManager.calls := by
    refine List.countP_congr fun call member => ?_
    obtain ⟨k, there⟩ := List.mem_iff_getElem?.mp member
    have rests := settled call member
    cases call with
    | holding permitId =>
      simpa [Call.counted, Call.live] using accounted.valid permitId member
    | waiting =>
      -- it would be claimed by a connection that has a permit
      obtain ⟨permit, held⟩ := accounted.holds assigned
        (accounted.covers.covers k (by rw [there]; rfl))
      rw [there] at held
      cases held
    | refused | released | shut => simp [Call.counted, Call.live, Call.acquires]
    | _ => cases rests
  rw [live, accounted.covers.tally_eq fun k claimed => ?_]
  · refine Pool.length_gather fun served member => ?_
    have waits := assigned served member
    cases phase : served.phase <;>
      simp_all [ServedConnection.claim, ServedConnection.inside, ServedConnection.isAcquiring]
  · obtain ⟨permit, held⟩ := accounted.holds assigned claimed
    simpa [held, Call.live] using accounted.valid permit (List.mem_of_getElem? held)

end ServerState

namespace ServedConnection
variable {Network : Type} {served moved : ServedConnection Network}

/-- A connection is served with a valid permit only, and has none before. -/
def Permitted (served : ServedConnection Network) : Prop :=
  match served.phase with
  | .serving _ | .closing _ => 0 ≤ served.permit
  | .destroyed => True
  | _ => served.permit < 0

structure Balanced (served : ServedConnection Network) : Prop where
  permitted : served.Permitted
  released : served.released = served.owed

/-- How a connection goes on, whatever its manager answers. -/
inductive Moves (served : ServedConnection Network) : ServedConnection Network → Prop
  | sslHandshake (success : Bool) (handshaking : served.phase = .handshaking) :
      Moves served { served with phase := if success then .connected else .rejected }
  | acquire (call era : Nat) (connected : served.phase = .connected) :
      Moves served { served with phase := .acquiring call, era }
  | assign {call : Nat} (permit : Int) (acquiring : served.phase = .acquiring call) :
      Moves served (served.assign call permit)
  | turn {call : Nat} (continues : Bool) (connection : Connection) (network : Network)
      (serving : served.phase = .serving call) :
      Moves served { served with
        phase := if continues then .serving call else .closing call
        connection
        network }
  | thrown {call : Nat} (serving : served.phase = .serving call) :
      Moves served { served with phase := .closing call }
  | destroy (unserved : served.phase = .rejected ∨ ¬ 0 ≤ served.permit) :
      Moves served { served with phase := .destroyed }
  | release {call : Nat} (closing : served.phase = .closing call) (valid : 0 ≤ served.permit) :
      Moves served { served with phase := .destroyed, released := served.released + 1 }

theorem Balanced.moves (balanced : served.Balanced) (moves : served.Moves moved) : moved.Balanced := by
  obtain ⟨permitted, released⟩ := balanced
  cases moves with
  | sslHandshake success handshaking =>
    simp only [Permitted, owed, handshaking] at permitted released
    cases success <;> exact ⟨permitted, by simpa [owed] using released⟩
  | acquire call era connected =>
    simp only [Permitted, owed, connected] at permitted released
    exact ⟨permitted, by simpa [owed] using released⟩
  | @assign call permit acquiring =>
    have none : served.released = 0 := by simpa [owed, acquiring] using released
    by_cases usable : 0 ≤ permit
    · have serving : served.assign call permit = { served with permit, phase := .serving call } := by
        simp [ServedConnection.assign, usable]
      rw [serving]
      exact ⟨usable, by simpa [owed] using none⟩
    · have turned : served.assign call permit = { served with permit, phase := .rejected } := by
        simp [ServedConnection.assign, usable]
      rw [turned]
      exact ⟨not_le.mp usable, by simpa [owed] using none⟩
  | turn continues connection network serving =>
    simp only [Permitted, owed, serving] at permitted released
    cases continues <;> exact ⟨permitted, by simpa [owed] using released⟩
  | thrown serving =>
    simp only [Permitted, owed, serving] at permitted released
    exact ⟨permitted, by simpa [owed] using released⟩
  | destroy unserved =>
    have invalid : ¬ 0 ≤ served.permit := by
      rcases unserved with rejected | invalid
      · simp only [Permitted, rejected] at permitted
        exact not_le.mpr permitted
      · exact invalid
    have none : served.released = 0 := by simpa [owed, invalid] using released
    exact ⟨trivial, by simpa [owed, invalid] using none⟩
  | release closing valid =>
    have none : served.released = 0 := by simpa [owed, closing] using released
    exact ⟨trivial, by simp [owed, valid, none]⟩

end ServedConnection

namespace ServerState
variable {Network : Type} {server : HttpServer}
  {read : Network → Bytes → Option (Request × Bytes × Network)} {before after : ServerState Network}
  {event : Event Network}

/-- A step leaves the connections alone, moves one of them, or accepts another one. -/
theorem next_connections (stepped : before.next server read event = some after) :
    after.connections = before.connections ∨
      (∃ i served moved, before.connections[i]? = some served ∧ served.Moves moved ∧
        after.connections = before.connections.set i moved) ∨
      ∃ ssl network, after.connections = before.connections ++
        [⟨if ssl then .handshaking else .connected, -1, before.era, 0, .create ssl, network⟩] := by
  cases next_steps stepped with
  | accept ssl network => exact .inr (.inr ⟨ssl, network, rfl⟩)
  | sslHandshake success found handshaking =>
    exact .inr (.inl ⟨_, _, _, found, .sslHandshake success handshaking, rfl⟩)
  | acquire found connected => exact .inr (.inl ⟨_, _, _, found, .acquire _ _ connected, rfl⟩)
  | assign found acquiring => exact .inr (.inl ⟨_, _, _, found, .assign _ acquiring, rfl⟩)
  | turn _ _ _ found serving => exact .inr (.inl ⟨_, _, _, found, .turn _ _ _ serving, rfl⟩)
  | thrown found serving => exact .inr (.inl ⟨_, _, _, found, .thrown serving, rfl⟩)
  | destroy found unserved =>
    have unusable := unserved.imp_right fun ⟨_, _, invalid⟩ => invalid
    exact .inr (.inl ⟨_, _, _, found, .destroy unusable, rfl⟩)
  | release found closing valid => exact .inr (.inl ⟨_, _, _, found, .release closing valid, rfl⟩)
  | manager | stop | start => exact .inl rfl

theorem next_balanced (balanced : ∀ served ∈ before.connections, served.Balanced)
    (stepped : before.next server read event = some after) :
    ∀ served ∈ after.connections, served.Balanced := by
  rcases next_connections stepped with
    same | ⟨i, served, moved, found, moves, set⟩ | ⟨ssl, network, joined⟩
  · rwa [same]
  · rw [set]
    have old := balanced served (List.mem_of_getElem? found)
    exact Pool.forall_set balanced (old.moves moves) i
  · rw [joined]
    refine Pool.forall_append balanced ?_
    cases ssl <;> exact ⟨by simp [ServedConnection.Permitted], by simp [ServedConnection.owed]⟩

/-- One client was served and has gone, a second one is being served. -/
def oneServed : ServerState Unit :=
  ⟨0, ⟨⟨1, 30000, 1, 0, 2, false, []⟩, [.released, .holding 1]⟩,
    [⟨.destroyed, 0, 0, 1, .create false, ()⟩, ⟨.serving 1, 1, 0, 0, .create true, ()⟩]⟩

/-- The client comes, is admitted at once, and is served. -/
def enter (i : Nat) (ssl : Bool) : List (Event Unit) :=
  .accept ssl () :: (if ssl then [.sslHandshake i true] else []) ++
    .acquire i :: List.replicate 4 (.manager i .advance) ++ [.assign i]

def leave (i : Nat) : List (Event Unit) := [.thrown i, .destroy i, .manager i .advance]

/-- The server is started again while a client is being served. The permit that this client gives back
takes the counter of the new manager below zero. -/
def restarted : ServerState Unit :=
  ⟨1, ⟨⟨1, 30000, -1, 0, 0, false, []⟩, [.notifying]⟩, [⟨.destroyed, 0, 0, 1, .create false, ()⟩]⟩

def restarting : List (Event Unit) := enter 0 false ++ [.stop, .start 1 30000, .thrown 0, .destroy 0]

end ServerState

end Hku
