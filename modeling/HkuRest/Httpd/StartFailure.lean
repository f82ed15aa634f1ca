import HkuRest.Core.Transition

/-! What a `HttpServer::start` that throws leaves behind. It makes one object after the other and
sets `m_running` last; what catches the exception calls `stop`, which does nothing unless
`m_running` is set. Objects are told apart by serial numbers. -/

namespace Hku.StartFailure

structure Acceptor where
  serial : Nat
  isOpen : Bool
  deriving DecidableEq, Repr

structure Manager where
  serial : Nat
  shut : Bool
  deriving DecidableEq, Repr

structure Members where
  ioContext : Option Nat
  acceptor : Option Acceptor
  sslContext : Option Nat
  connectionManager : Option Manager
  wsConnectionManager : Option Manager
  running : Bool
  deriving DecidableEq, Repr

structure State where
  members : Members
  useExternalIo : Bool
  /-- How many objects were made, which is the serial number of the next one. -/
  made : Nat
  /-- The io_contexts that were made by the server and not deleted. -/
  contexts : List Nat
  deriving DecidableEq, Repr

def State.initial : State := ⟨⟨none, none, none, none, none, false⟩, false, 0, []⟩

/-- The statements of `start` that can throw; those with `ssl` are in `configureSsl`. -/
inductive Stage
  | connectionManager
  | wsConnectionManager
  | ioContext
  | address
  | acceptor
  | sslFile
  | sslContext
  | sslSettings
  | spawn
  deriving DecidableEq, Repr

namespace State

def make (state : State) (assign : Nat → Members → Members) : State :=
  { state with members := assign state.made state.members, made := state.made + 1 }

def perform (state : State) : Stage → State
  | .connectionManager =>
      state.make fun serial members => { members with connectionManager := some ⟨serial, false⟩ }
  | .wsConnectionManager =>
      state.make fun serial members => { members with wsConnectionManager := some ⟨serial, false⟩ }
  | .ioContext =>
      { state.make fun serial members => { members with ioContext := some serial } with
        contexts := state.contexts ++ [state.made] }
  | .acceptor => state.make fun serial members => { members with acceptor := some ⟨serial, true⟩ }
  | .sslContext => state.make fun serial members => { members with sslContext := some serial }
  | .address | .sslFile | .sslSettings | .spawn => state

/-- The `try` block, and whether it was left by an exception. -/
def attempt (throws : Stage → Bool) : List Stage → State → State × Bool
  | [], state => (state, false)
  | stage :: rest, state =>
      if throws stage then (state, true) else attempt throws rest (state.perform stage)

def stages (ssl : Bool) (state : State) : List Stage :=
  [.connectionManager, .wsConnectionManager] ++ (if state.useExternalIo then [] else [.ioContext]) ++
    [.address, .acceptor] ++ (if ssl then [.sslFile, .sslContext, .sslSettings] else []) ++ [.spawn]

def stop (state : State) : State :=
  if state.members.running then
    let members := { state.members with
      running := false
      acceptor := state.members.acceptor.map fun acceptor => { acceptor with isOpen := false }
      connectionManager := state.members.connectionManager.map fun manager => { manager with shut := true }
      wsConnectionManager :=
        state.members.wsConnectionManager.map fun manager => { manager with shut := true } }
    if state.useExternalIo then { state with members }
    else { state with
      members := { members with ioContext := none }
      contexts := state.contexts.filter fun context => some context ≠ members.ioContext }
  else state

def start (ssl : Bool) (throws : Stage → Bool) (state : State) : State :=
  if state.members.running then state
  else
    match state.attempt throws (state.stages ssl) with
    | (reached, true) => reached.stop
    | (reached, false) => { reached with members := { reached.members with running := true } }

/-- `bind_io_context`, which is refused once there is one. -/
def bindIoContext (state : State) : State :=
  if state.members.ioContext.isSome then state
  else
    { state.make fun serial members => { members with ioContext := some serial } with
      useExternalIo := true }

end State

inductive Event
  | start (throws : Stage → Bool)
  | stop
  | bindIoContext

def State.next (ssl : Bool) (state : State) : Event → Option State
  | .start throws => some (state.start ssl throws)
  | .stop => some state.stop
  | .bindIoContext => some state.bindIoContext

/-- The call gets into its `try` block and is left by an exception. -/
structure State.Fails (ssl : Bool) (throws : Stage → Bool) (state : State) : Prop where
  stopped : state.members.running = false
  threw : (state.attempt throws (state.stages ssl)).2 = true

/-- All members are as they were, and no io_context is left over. -/
structure Restored (before after : State) : Prop where
  members : after.members = before.members
  contexts : after.contexts = before.contexts

variable {state before after : State} {ssl : Bool} {throws : Stage → Bool} {stage : Stage}
  {rest : List Stage}

@[simp] theorem perform_running (state : State) (stage : Stage) :
    (state.perform stage).members.running = state.members.running := by
  cases stage <;> rfl

theorem perform_connectionManager (other : stage ≠ .connectionManager) :
    (state.perform stage).members.connectionManager = state.members.connectionManager := by
  cases stage with
  | connectionManager => exact absurd rfl other
  | _ => rfl

theorem attempt_invariant (holds : State → Prop)
    (kept : ∀ stage ∈ rest, ∀ state, holds state → holds (state.perform stage)) (held : holds state) :
    holds (state.attempt throws rest).1 := by
  induction rest generalizing state with
  | nil => exact held
  | cons stage rest ih =>
    obtain ⟨here, later⟩ := List.forall_mem_cons.mp kept
    rw [State.attempt]
    split
    · exact held
    · exact ih later (here state held)

@[simp] theorem attempt_running (throws : Stage → Bool) (rest : List Stage) (state : State) :
    (state.attempt throws rest).1.members.running = state.members.running := by
  apply attempt_invariant (fun reached => reached.members.running = state.members.running)
  · intro stage _ reached same
    rw [perform_running, same]
  · rfl

theorem attempt_connectionManager (made : .connectionManager ∉ rest) :
    (state.attempt throws rest).1.members.connectionManager = state.members.connectionManager := by
  apply attempt_invariant
    (fun reached => reached.members.connectionManager = state.members.connectionManager)
  · intro stage member reached same
    rw [perform_connectionManager (ne_of_mem_of_not_mem member made), same]
  · rfl

/-- `stop` leaves the server as the exception did. -/
theorem start_failed (fails : state.Fails ssl throws) :
    state.start ssl throws = (state.attempt throws (state.stages ssl)).1 := by
  have running := attempt_running throws (state.stages ssl) state
  have threw := fails.threw
  rw [fails.stopped] at running
  rw [State.start, fails.stopped]
  generalize state.attempt throws (state.stages ssl) = outcome at running threw
  obtain ⟨reached, left⟩ := outcome
  cases threw
  have running : reached.members.running = false := running
  simp only [Bool.false_eq_true, if_false, State.stop, running]

/-- The connection manager was made before. -/
def State.Known (state : State) : Prop :=
  ∀ manager, state.members.connectionManager = some manager → manager.serial < state.made

theorem perform_known (known : state.Known) (stage : Stage) : (state.perform stage).Known := by
  intro manager held
  cases stage with
  | connectionManager =>
    cases held
    exact Nat.lt_succ_self _
  | address | sslFile | sslSettings | spawn => exact known manager held
  | _ => exact Nat.lt_succ_of_lt (known manager held)

theorem attempt_known (throws : Stage → Bool) (known : state.Known) (rest : List Stage) :
    (state.attempt throws rest).1.Known :=
  attempt_invariant State.Known (fun stage _ _ known => perform_known known stage) known

theorem stop_known (known : state.Known) : state.stop.Known := by
  intro manager held
  unfold State.stop at held ⊢
  split at held
  · rename_i running
    rw [if_pos running]
    obtain ⟨earlier, kept, rfl⟩ : ∃ earlier, state.members.connectionManager = some earlier ∧
        { earlier with shut := true } = manager := by
      split at held <;> exact Option.map_eq_some_iff.mp held
    have bound := known earlier kept
    split <;> exact bound
  · rename_i idle
    rw [if_neg idle]
    exact known manager held

theorem start_known (known : state.Known) : (state.start ssl throws).Known := by
  have reached := attempt_known throws known (state.stages ssl)
  unfold State.start
  split
  · exact known
  · split
    · rename_i attempted
      rw [attempted] at reached
      exact stop_known reached
    · rename_i attempted
      rw [attempted] at reached
      exact reached

theorem bindIoContext_known (known : state.Known) : state.bindIoContext.Known := by
  unfold State.bindIoContext
  split
  · exact known
  · exact fun manager held => Nat.lt_succ_of_lt (known manager held)

theorem reaches_known (reached : Transition.Reaches (State.next ssl) (fun _ _ => True) .initial state) :
    state.Known := by
  refine reached.invariant State.Known (fun _ held => by cases held) fun before event after known _ stepped => ?_
  cases event with
  | start throws =>
    cases stepped
    exact start_known known
  | stop =>
    cases stepped
    exact stop_known known
  | bindIoContext =>
    cases stepped
    exact bindIoContext_known known

theorem attempt_first (throws : Stage → Bool) (rest : List Stage) (state : State) :
    state.attempt throws (.connectionManager :: rest) =
      if throws .connectionManager then (state, true)
      else (state.perform .connectionManager).attempt throws rest := rfl

theorem stages_eq (ssl : Bool) (state : State) :
    ∃ rest, state.stages ssl = .connectionManager :: rest ∧ .connectionManager ∉ rest := by
  refine ⟨(state.stages ssl).tail, rfl, ?_⟩
  unfold State.stages
  cases ssl <;> cases state.useExternalIo <;> simp

/-- A failed call restores the server only if it fails with the very first object. -/
theorem start_atomic_iff
    (reached : Transition.Reaches (State.next ssl) (fun _ _ => True) .initial before)
    (fails : before.Fails ssl throws) :
    Restored before (before.start ssl throws) ↔ throws .connectionManager = true := by
  rw [start_failed fails]
  obtain ⟨rest, order, once⟩ := stages_eq ssl before
  rw [order, attempt_first]
  constructor
  · intro restored
    cases made : throws .connectionManager with
    | true => rfl
    | false =>
      simp only [made, Bool.false_eq_true, if_false] at restored
      have replaced : before.members.connectionManager = some ⟨before.made, false⟩ := by
        rw [← restored.members, attempt_connectionManager once]
        rfl
      exact absurd (reaches_known reached _ replaced) (Nat.lt_irrefl _)
  · intro first
    rw [if_pos first]
    exact ⟨rfl, rfl⟩

/-- The first object cannot be made. -/
theorem start_atomic_iff_first :
    Restored .initial (State.initial.start true (· = .connectionManager)) ↔
      decide (Stage.connectionManager = .connectionManager) = true :=
  start_atomic_iff .refl ⟨rfl, rfl⟩

/-- After an address that cannot be parsed there are two managers and an io_context more. -/
theorem unparsed_address_kept :
    ¬ ∀ (ssl : Bool) (throws : Stage → Bool) (before : State),
      Transition.Reaches (State.next ssl) (fun _ _ => True) .initial before →
      before.Fails ssl throws → Restored before (before.start ssl throws) := by
  intro atomic
  have restored := atomic false (· = .address) .initial .refl ⟨rfl, rfl⟩
  cases restored.contexts

@[simp] theorem perform_useExternalIo (state : State) (stage : Stage) :
    (state.perform stage).useExternalIo = state.useExternalIo := by
  cases stage <;> rfl

@[simp] theorem attempt_useExternalIo (throws : Stage → Bool) (rest : List Stage) (state : State) :
    (state.attempt throws rest).1.useExternalIo = state.useExternalIo := by
  apply attempt_invariant (fun reached => reached.useExternalIo = state.useExternalIo)
  · intro stage _ reached same
    rw [perform_useExternalIo, same]
  · rfl

theorem perform_contexts (other : stage ≠ .ioContext) :
    (state.perform stage).contexts = state.contexts := by
  cases stage with
  | ioContext => exact absurd rfl other
  | _ => rfl

theorem attempt_contexts (made : .ioContext ∉ rest) :
    (state.attempt throws rest).1.contexts = state.contexts := by
  apply attempt_invariant (fun reached => reached.contexts = state.contexts)
  · intro stage member reached same
    rw [perform_contexts (ne_of_mem_of_not_mem member made), same]
  · rfl

/-- The call fails once the server has its own io_context. -/
structure State.FailsLate (ssl : Bool) (throws : Stage → Bool) (state : State) : Prop
    extends state.Fails ssl throws where
  own : state.useExternalIo = false
  connectionManager : throws .connectionManager = false
  wsConnectionManager : throws .wsConnectionManager = false
  ioContext : throws .ioContext = false

theorem start_contexts (fails : state.FailsLate ssl throws) :
    (state.start ssl throws).contexts = state.contexts ++ [state.made + 2] := by
  rw [start_failed fails.toFails]
  obtain ⟨rest, order, once⟩ : ∃ rest,
      state.stages ssl = .connectionManager :: .wsConnectionManager :: .ioContext :: rest ∧
        .ioContext ∉ rest := by
    refine ⟨(state.stages ssl).drop 3, ?_, ?_⟩ <;> unfold State.stages <;> rw [fails.own] <;>
      cases ssl <;> simp
  rw [order]
  simp only [State.attempt, fails.connectionManager, fails.wsConnectionManager, fails.ioContext,
    Bool.false_eq_true, if_false]
  rw [attempt_contexts once]
  rfl

/-- Every call that fails so leaves one io_context more, whatever the calls before it left. -/
theorem failures_accumulate (attempts : List (Stage → Bool)) (state : State)
    (fail : ∀ throws ∈ attempts, ∀ state : State, state.members.running = false →
      state.useExternalIo = false → state.FailsLate ssl throws)
    (idle : state.members.running = false) (own : state.useExternalIo = false) :
    (attempts.foldl (fun state throws => state.start ssl throws) state).contexts.length =
      state.contexts.length + attempts.length := by
  induction attempts generalizing state with
  | nil => rfl
  | cons throws attempts ih =>
    have fails := fail throws List.mem_cons_self state idle own
    have later := ih (state.start ssl throws) (fun throws member => fail throws (.tail _ member)) ?_ ?_
    · rw [List.foldl_cons, later, start_contexts fails]
      simp only [List.length_append, List.length_cons, List.length_nil]
      omega
    · rw [start_failed fails.toFails, attempt_running, idle]
    · rw [start_failed fails.toFails, attempt_useExternalIo, own]

end Hku.StartFailure
