import HkuRest.Httpd.PingLifetime
import HkuRest.Httpd.WebSocketIo

/-! When a timer callback cancels the socket. The callback does not ask why its wait is
over, nor whether its operation is: so it is right only as long as every wait that is
completed, and every operation whose callback is queued, is of an overdue operation. -/

namespace Hku.WebSocketIo

open DeadlineTimer

variable {state before after : State} {event : Event} {id : Nat} {kind : Kind}

/-- The operation is still pending although its timeout has elapsed. -/
def State.overdue (state : State) (id : Nat) : Bool :=
  state.operations[id]?.any fun operation =>
    operation.isPending && operation.armed + operation.kind.timeout ≤ state.timer.now

structure State.Punctual (state : State) : Prop where
  /-- A callback cancels the socket only if its own operation is overdue. -/
  callback : ∀ (index id : Nat) (outcome : DeadlineTimer.Outcome),
    state.timer.ready[index]? = some ⟨.operation id, outcome⟩ → state.callsCancel outcome = true →
      state.overdue id = true
  /-- An operation that is not completed ends only by the callback of an overdue one. -/
  ended : ∀ (event : Event) (after : State) (id : Nat), state.next event = some after →
    state.isPending id = true → after.isPending id = false → event = .complete id ∨
      ∃ (index other : Nat) (outcome : DeadlineTimer.Outcome), event = .callback index ∧
        state.timer.ready[index]? = some ⟨.operation other, outcome⟩ ∧ state.overdue other = true

def connectionMoves (reading : Bool) : WebSocketConnection.Event → Bool
  | .readLoop step => readMoves reading step
  | .sendPing step => pingMoves step
  | .leaveScope | .lock | .unlock | .ioContextDestroyed => false

def State.movesTimer (state : State) : Event → Bool
  | .connection event => connectionMoves state.read.isSome event
  | .send isOpen => state.accepts isOpen
  | .resumeSend _ => state.connection.owners ≠ 1
  | .pong success => success
  | .transmit _ | .complete _ | .elapse _ | .expire | .callback _ => false

def Wait.forOperation (holds : Nat → Bool) : Wait → Bool
  | .operation id => holds id
  | .ping => true

/-- Waits are taken off the timer only when their operations are overdue, and until its
callback has run an operation stays as it is. -/
def State.Undisturbed (state : State) : Event → Prop
  | .expire => ∀ wait ∈ state.timer.waits, wait.forOperation state.isPending = true
  | .complete id => ∀ handler ∈ state.timer.ready, handler.owner ≠ .operation id
  | .callback index =>
      state.connection.owners ≠ 0 → ∀ handler ∈ (state.timer.take index).ready, handler.owner = .ping
  | event =>
      state.movesTimer event = true →
        ∀ wait ∈ state.timer.waits, wait.forOperation state.overdue = true

instance (state : State) : DecidablePred state.Undisturbed
  | .expire | .complete _ => inferInstanceAs (Decidable (∀ _ ∈ _, _))
  | .callback _ | .connection _ | .send _ | .resumeSend _ | .transmit _ | .pong _ | .elapse _ =>
      inferInstanceAs (Decidable (_ → _))

def tasks (operations : List Operation) : Tasks Wait where
  supervised wait := wait ≠ .ping
  deadline
    | .operation id => operations[id]?.map Operation.deadline
    | .ping => none
  active
    | .operation id => operations[id]?.any Operation.isPending = true
    | .ping => False

abbrev State.Sound (state : State) : Prop := DeadlineTimer.Sound (tasks state.operations) state.timer

theorem overdue_iff :
    (tasks state.operations).Overdue state.timer.now (.operation id) ↔ state.overdue id = true := by
  simp only [Tasks.Overdue, tasks, State.overdue]
  cases state.operations[id]? <;> simp [Operation.deadline]

theorem overdue_pending (overdue : state.overdue id = true) : state.isPending id = true :=
  (overdue_iff.mpr overdue).1

theorem waits_overdue (overdue : ∀ wait ∈ state.timer.waits, wait.forOperation state.overdue = true) :
    ∀ wait ∈ state.timer.waits, (tasks state.operations).supervised wait →
      (tasks state.operations).Overdue state.timer.now wait := by
  intro wait member supervised
  cases wait with
  | operation id => exact overdue_iff.mpr (overdue _ member)
  | ping => exact absurd rfl supervised

theorem sound_cancelTimer (sound : state.Sound)
    (overdue : ∀ wait ∈ state.timer.waits, wait.forOperation state.overdue = true) :
    state.cancelTimer.Sound :=
  sound.finish (waits_overdue overdue)

/-- An operation that begins has its own wait, and leaves every earlier one as it was. -/
theorem sound_begin (sound : state.Sound)
    (overdue : ∀ wait ∈ state.timer.waits, wait.forOperation state.overdue = true) :
    (state.begin kind).Sound := by
  have earlier {id : Nat} {operation : Operation} (found : state.operations[id]? = some operation) :
      (state.begin kind).operations[id]? = some operation :=
    (List.getElem?_append_left (List.getElem?_eq_some_iff.mp found).1).trans found
  have rearmed : DeadlineTimer.Sound (tasks state.operations)
      (state.timer.expiresAfter kind.timeout) := sound.expiresAfter (waits_overdue overdue)
  have extended : DeadlineTimer.Sound (tasks (state.begin kind).operations)
      (state.timer.expiresAfter kind.timeout) := by
    refine rearmed.change (fun _ supervised => supervised) ?_ ?_
    · intro wait deadline known
      cases wait with
      | ping => cases known
      | operation id =>
        simp only [tasks, Option.map_eq_some_iff] at known ⊢
        obtain ⟨operation, found, rfl⟩ := known
        exact ⟨operation, earlier found, rfl⟩
    · rintro ⟨wait, outcome⟩ _ _ active
      cases wait with
      | ping => exact active
      | operation id =>
        simp only [tasks, Option.any_eq_true] at active ⊢
        obtain ⟨operation, found, pending⟩ := active
        exact ⟨operation, earlier found, pending⟩
  refine extended.asyncWait ?_
  intro _
  refine ⟨state.timer.now + kind.timeout, ?_, rfl⟩
  simp [tasks, State.begin, Operation.deadline]

theorem sound_ping {throws : Bool} (sound : state.Sound)
    (overdue : ∀ wait ∈ state.timer.waits, wait.forOperation state.overdue = true) :
    (state.ping throws).Sound := by
  have rearmed : DeadlineTimer.Sound (tasks state.operations)
      ((if state.timer.expiry.isSome then state.timer.cancel else state.timer).expiresAfter
        WebSocketConfig.PING_TIMEOUT) := by
    split
    · refine (sound.finish (waits_overdue overdue)).expiresAfter ?_
      intro wait member
      cases member
    · exact sound.expiresAfter (waits_overdue overdue)
  cases throws with
  | true => exact rearmed
  | false => exact rearmed.asyncWait fun supervised => absurd rfl supervised

theorem sound_operations {operations : List Operation} (sound : state.Sound)
    (deadline : ∀ id : Nat, operations[id]?.map Operation.deadline = state.operations[id]?.map Operation.deadline)
    (active : ∀ handler ∈ state.timer.ready, ∀ id : Nat, handler.owner = .operation id →
      operations[id]? = state.operations[id]?) :
    DeadlineTimer.Sound (tasks operations) state.timer := by
  refine sound.change (fun _ supervised => supervised) ?_ ?_
  · intro wait moment known
    cases wait with
    | ping => cases known
    | operation id => exact (deadline id).trans known
  · rintro ⟨wait, outcome⟩ queued _ pending
    cases wait with
    | ping => exact pending
    | operation id =>
      simp only [tasks] at pending ⊢
      rwa [active _ queued id rfl]

theorem sound_complete (sound : state.Sound)
    (unqueued : ∀ handler ∈ state.timer.ready, handler.owner ≠ .operation id) :
    DeadlineTimer.Sound
      (tasks (state.operations.modify id ({ · with status := .completed }))) state.timer := by
  refine sound_operations sound ?_ ?_
  · intro other
    rw [List.getElem?_modify]
    cases state.operations[other]? <;> split <;> rfl
  · intro handler queued other owner
    have distinct : id ≠ other := by
      rintro rfl
      exact unqueued handler queued owner
    simp [distinct]

theorem abort_isPending (operation : Operation) : operation.abort.isPending = false := by
  unfold Operation.abort
  split
  · rfl
  · rename_i ended
    exact Bool.eq_false_iff.mpr ended

theorem sound_cancelSocket (sound : state.Sound)
    (pings : ∀ handler ∈ state.timer.ready, handler.owner = .ping) : state.cancelSocket.Sound := by
  change DeadlineTimer.Sound (tasks (state.operations.map Operation.abort)) state.timer
  refine sound_operations sound ?_ ?_
  · intro id
    rw [List.getElem?_map]
    cases state.operations[id]? with
    | none => rfl
    | some operation =>
      simp only [Option.map_some, Operation.abort]
      split <;> rfl
  · intro handler queued id owner
    rw [pings handler queued] at owner
    cases owner

theorem destroy_sound (sound : state.Sound) (intact : state.connection.destroyed = false) :
    state.destroy.Sound := by
  rw [State.destroy, intact]
  exact sound

theorem readLoop_sound {step : WebSocketConnection.ReadStep} (sound : before.Sound)
    (overdue : readMoves before.read.isSome step = true →
      ∀ wait ∈ before.timer.waits, wait.forOperation before.overdue = true)
    (intact : after.connection.destroyed = false) (stepped : before.readLoop step = some after) :
    after.Sound := by
  cases readLoop_outcome stepped with
  | still _ same => rwa [same]
  | destroy _ same =>
    rw [same, destroy_connection] at intact
    rw [same]
    exact destroy_sound sound intact
  | cancel active _ same =>
    rw [same]
    exact sound_cancelTimer sound (overdue active)
  | begin active same =>
    rw [same]
    exact sound_begin sound (overdue active)
  | beginAgain active same =>
    rw [same]
    refine sound_begin (sound_cancelTimer sound (overdue active)) ?_
    intro wait member
    cases member

theorem sendPing_sound {step : WebSocketConnection.PingStep} (sound : before.Sound)
    (overdue : pingMoves step = true →
      ∀ wait ∈ before.timer.waits, wait.forOperation before.overdue = true)
    (stepped : before.sendPing step = some after) : after.Sound := by
  cases sendPing_outcome stepped with
  | still _ same => rwa [same]
  | resume _ index same =>
    rw [same]
    exact sound.take index
  | ping active throws same =>
    rw [same]
    exact sound_ping sound (overdue active)
  | cancel active same =>
    rw [same]
    exact sound_cancelTimer sound (overdue active)

theorem intact_of_owned {allowed : State → Event → Prop} {ssl : Bool}
    (reached : Transition.Reaches State.next allowed (.started ssl) state)
    (owned : state.connection.owners ≠ 0) : state.connection.destroyed = false := by
  have gone := WebSocketConnection.destroyed_iff (reaches_connection reached)
  cases destroyed : state.connection.destroyed with
  | false => rfl
  | true => exact absurd (gone.mp destroyed) owned

theorem owned_before (stepped : before.next event = some after)
    (owned : after.connection.owners ≠ 0) : before.connection.owners ≠ 0 := by
  rcases next_connection stepped with same | ⟨step, moves⟩
  · rwa [← same]
  · intro none
    cases WebSocketConnection.next_effect moves with
    | idle owners _ _ | finish owners _ _ => exact owned (owners.trans none)
    | spawn alive owners _ _ | lock alive owners _ _ => omega
    | release released _ owners _ _ _ => omega
    | vanish owners _ _ => exact owned owners

theorem moved_sound {step : WebSocketConnection.Event} (sound : before.Sound)
    (overdue : connectionMoves before.read.isSome step = true →
      ∀ wait ∈ before.timer.waits, wait.forOperation before.overdue = true)
    (intact : after.connection.destroyed = false) (stepped : before.moved step = some after) :
    after.Sound := by
  cases step with
  | readLoop step => exact readLoop_sound sound overdue intact stepped
  | sendPing step =>
    simp only [State.moved, Option.ite_none_left_eq_some] at stepped
    exact sendPing_sound sound overdue stepped.2
  | leaveScope =>
    cases stepped
    rw [destroy_connection] at intact
    exact destroy_sound sound intact
  | lock =>
    cases stepped
    exact sound
  | unlock =>
    simp only [State.moved, Option.ite_none_right_eq_some, Option.some.injEq] at stepped
    obtain ⟨_, rfl⟩ := stepped
    rw [destroy_connection] at intact
    exact destroy_sound sound intact
  | ioContextDestroyed => cases stepped

theorem callsCancel_owned {outcome : DeadlineTimer.Outcome} (calls : state.callsCancel outcome = true) :
    state.connection.owners ≠ 0 := by
  cases outcome <;> simpa [State.callsCancel] using calls

/-- An undisturbed step keeps the timer sound, as long as the connection stays alive. -/
theorem next_sound (sound : before.Sound) (undisturbed : before.Undisturbed event)
    (intact : after.connection.destroyed = false) (owned : after.connection.owners ≠ 0)
    (stepped : before.next event = some after) : after.Sound := by
  cases next_steps stepped with
  | @connection event connection _ _ stepped =>
    refine moved_sound ?_ ?_ intact stepped
    · exact sound
    · exact undisturbed
  | sends accepted => exact sound_begin sound (undisturbed accepted)
  | resumes _ _ moves =>
    rw [destroy_connection] at intact owned
    refine destroy_sound (sound_cancelTimer sound (undisturbed ?_)) intact
    -- the pointer of this `send` was not the last one
    obtain ⟨released, owners, _, _, rfl⟩ := WebSocketConnection.next_released rfl moves
    rw [WebSocketConnection.release_owners] at owned
    exact decide_eq_true (by omega)
  | completes => exact sound_complete sound undisturbed
  | ponged => exact sound_cancelTimer sound (undisturbed rfl)
  | elapses duration => exact sound.elapse
  | expires fires =>
    refine sound.expire ?_ fires
    intro wait member supervised
    cases wait with
    | operation id => exact undisturbed _ member
    | ping => exact absurd rfl supervised
  | @cancels index _ _ _ calls =>
    exact sound_cancelSocket (sound.take index) (undisturbed (callsCancel_owned calls))
  | @passes index => exact sound.take index
  | refuses | transmits | unponged => exact sound

/-- Only the stream and `m_socket.cancel()` end an operation. -/
theorem next_ends (stepped : before.next event = some after) (pending : before.isPending id = true)
    (finished : after.isPending id = false) : event = .complete id ∨
      ∃ (index other : Nat) (outcome : DeadlineTimer.Outcome), event = .callback index ∧
        before.timer.ready[index]? = some ⟨.operation other, outcome⟩ ∧
        before.callsCancel outcome = true := by
  have appended {operation : Operation} (operations : after.operations = before.operations ++ [operation]) :
      after.isPending id = true := by
    obtain ⟨found, known, holds⟩ := (Option.any_eq_true _ _).mp pending
    have bound := (List.getElem?_eq_some_iff.mp known).1
    rw [State.isPending, operations, List.getElem?_append_left bound, known]
    exact holds
  cases next_effect stepped with
  | keep operations _ | transmit _ _ operations _ =>
    rw [State.isPending, operations] at finished
    exact absurd pending (by simp [State.isPending, finished])
  | beginRead operations _ | beginWrite _ _ _ operations _ =>
    rw [appended operations] at finished
    cases finished
  | complete ended completes operations _ =>
    by_cases same : ended = id
    · exact .inl (same ▸ completes)
    · rw [State.isPending, operations, List.getElem?_modify_ne _ _ same] at finished
      exact absurd pending (by simp [State.isPending, finished])
  | cancel index other outcome runs queued calls _ _ =>
    exact .inr ⟨index, other, outcome, runs, queued, calls⟩

theorem reaches_sound {ssl : Bool}
    (reached : Transition.Reaches State.next State.Undisturbed (.started ssl) state)
    (owned : state.connection.owners ≠ 0) : state.Sound := by
  induction reached with
  | refl => exact .of_idle 0
  | step earlier undisturbed stepped ih =>
    have intact := intact_of_owned (.step earlier undisturbed stepped) owned
    exact next_sound (ih (owned_before stepped owned)) undisturbed intact owned stepped

/-- In an undisturbed run a timer callback cancels the socket only for an operation that is
overdue, and no operation is cancelled but by such a callback. -/
theorem undisturbed_punctual (ssl : Bool) (state : State)
    (reached : Transition.Reaches State.next State.Undisturbed (.started ssl) state) :
    state.Punctual := by
  have justified {index id : Nat} {outcome : DeadlineTimer.Outcome}
      (queued : state.timer.ready[index]? = some ⟨.operation id, outcome⟩)
      (calls : state.callsCancel outcome = true) : state.overdue id = true := by
    have sound := reaches_sound reached (callsCancel_owned calls)
    exact overdue_iff.mp (sound.overdue _ (List.mem_of_getElem? queued) (by simp [tasks]))
  constructor
  · intro index id outcome queued calls
    exact justified queued calls
  · intro event after id stepped pending finished
    refine (next_ends stepped pending finished).imp_right ?_
    rintro ⟨index, other, outcome, runs, queued, calls⟩
    exact ⟨index, other, outcome, runs, queued, justified queued calls⟩

variable {connection : WebSocketConnection.State}

theorem aborted_mem {wait : Wait} (waiting : wait ∈ state.timer.waits) :
    ⟨wait, .aborted⟩ ∈ state.timer.cancel.ready :=
  mem_ready_finish.mpr (.inr ⟨waiting, rfl⟩)

theorem destroy_ready {handler : DeadlineTimer.Handler Wait} (queued : handler ∈ state.timer.ready) :
    handler ∈ state.destroy.timer.ready := by
  unfold State.destroy
  split
  · exact mem_ready_finish.mpr (.inl queued)
  · exact queued

theorem readLoop_aborts {step : WebSocketConnection.ReadStep} {wait : Wait}
    (moves : readMoves before.read.isSome step = true) (waiting : wait ∈ before.timer.waits)
    (stepped : { before with connection := connection }.readLoop step = some after) :
    ⟨wait, .aborted⟩ ∈ after.timer.ready ∧ after.timer.now = before.timer.now := by
  have aborted := aborted_mem waiting
  cases readLoop_outcome stepped with
  | still idle | destroy idle =>
    rw [moves] at idle
    cases idle
  | cancel _ _ same | begin _ same =>
    rw [same]
    exact ⟨aborted, rfl⟩
  | beginAgain _ same =>
    rw [same]
    exact ⟨mem_ready_finish.mpr (.inl aborted), rfl⟩

theorem ping_aborts {wait : Wait} (throws : Bool) (waiting : wait ∈ state.timer.waits) :
    ⟨wait, .aborted⟩ ∈ (state.ping throws).timer.ready ∧
      (state.ping throws).timer.now = state.timer.now := by
  have aborted := aborted_mem waiting
  have rearmed : ⟨wait, .aborted⟩ ∈
      ((if state.timer.expiry.isSome then state.timer.cancel else state.timer).expiresAfter
        WebSocketConfig.PING_TIMEOUT).ready := by
    split
    · exact mem_ready_finish.mpr (.inl aborted)
    · exact aborted
  refine ⟨?_, ?_⟩
  · cases throws <;> exact rearmed
  · unfold State.ping
    split <;> split <;> rfl

theorem sendPing_aborts {step : WebSocketConnection.PingStep} {wait : Wait}
    (moves : pingMoves step = true) (waiting : wait ∈ before.timer.waits)
    (stepped : { before with connection := connection }.sendPing step = some after) :
    ⟨wait, .aborted⟩ ∈ after.timer.ready ∧ after.timer.now = before.timer.now := by
  cases sendPing_outcome stepped with
  | still idle | resume idle =>
    rw [moves] at idle
    cases idle
  | ping _ throws same =>
    rw [same]
    exact ping_aborts throws waiting
  | cancel _ same =>
    rw [same]
    exact ⟨aborted_mem waiting, rfl⟩

theorem next_aborts {wait : Wait} (moves : before.movesTimer event = true)
    (waiting : wait ∈ before.timer.waits) (stepped : before.next event = some after) :
    ⟨wait, .aborted⟩ ∈ after.timer.ready ∧ after.timer.now = before.timer.now := by
  have aborted := aborted_mem waiting
  cases next_steps stepped with
  | @connection event _ _ _ stepped =>
    cases event with
    | readLoop step => exact readLoop_aborts moves waiting stepped
    | sendPing step =>
      simp only [State.moved, Option.ite_none_left_eq_some] at stepped
      exact sendPing_aborts moves waiting stepped.2
    | leaveScope | lock | unlock | ioContextDestroyed => cases moves
  | sends => exact ⟨aborted, rfl⟩
  | refuses refused =>
    rw [State.movesTimer, refused] at moves
    cases moves
  | resumes =>
    refine ⟨destroy_ready aborted, ?_⟩
    unfold State.destroy
    split <;> rfl
  | ponged => exact ⟨aborted, rfl⟩
  | unponged | transmits | completes | elapses | expires | cancels | passes => cases moves

theorem overdue_of_moves (moves : before.movesTimer event = true)
    (stepped : before.next event = some after) (now : after.timer.now = before.timer.now)
    (begun : ∃ operation, before.operations[id]? = some operation) (early : before.overdue id = false) :
    after.overdue id = false := by
  obtain ⟨operation, known⟩ := begun
  have bound := (List.getElem?_eq_some_iff.mp known).1
  have appended {later : Operation} (operations : after.operations = before.operations ++ [later]) :
      after.overdue id = false := by
    rw [State.overdue, operations, List.getElem?_append_left bound, now]
    exact early
  cases next_effect stepped with
  | keep operations _ | transmit _ _ operations _ =>
    rw [State.overdue, operations, now]
    exact early
  | beginRead operations _ | beginWrite _ _ _ operations _ => exact appended operations
  | complete _ completes _ _ =>
    subst completes
    cases moves
  | cancel _ _ _ runs _ _ _ _ =>
    subst runs
    cases moves

/-- A queued callback of a live connection that will cancel the socket although its
operation is not overdue. -/
def State.Stranded (state : State) : Prop :=
  ∃ handler ∈ state.timer.ready, ∃ id, handler.owner = .operation id ∧
    state.callsCancel handler.outcome = true ∧ state.overdue id = false

theorem stranded_of_over {handler : DeadlineTimer.Handler Wait} (queued : handler ∈ state.timer.ready)
    (owner : handler.owner = .operation id) (owned : state.connection.owners ≠ 0)
    (finished : state.isPending id = false) : state.Stranded := by
  refine ⟨handler, queued, id, owner, ?_, ?_⟩
  · cases outcome : handler.outcome <;> simpa [State.callsCancel] using owned
  · cases overdue : state.overdue id with
    | false => rfl
    | true =>
      rw [overdue_pending overdue] at finished
      cases finished

theorem moved_strands (sound : before.Sound) (moves : before.movesTimer event = true)
    (early : ¬ ∀ wait ∈ before.timer.waits, wait.forOperation before.overdue = true)
    (stepped : before.next event = some after) (owned : after.connection.owners ≠ 0) :
    after.Stranded := by
  simp only [not_forall] at early
  obtain ⟨wait, waiting, early⟩ := early
  cases wait with
  | ping => exact absurd rfl early
  | operation id =>
    obtain ⟨queued, now⟩ := next_aborts moves waiting stepped
    obtain ⟨deadline, known, _⟩ := sound.armed _ waiting (by simp [tasks])
    obtain ⟨operation, found, _⟩ := Option.map_eq_some_iff.mp known
    refine ⟨_, queued, id, rfl, ?_, ?_⟩
    · simpa [State.callsCancel] using owned
    · exact overdue_of_moves moves stepped now ⟨operation, found⟩ (Bool.eq_false_iff.mpr early)

/-- Whatever step disturbs a live connection, a callback is stranded after it. -/
theorem disturbed_strands (sound : before.Sound) (broken : ¬ before.Undisturbed event)
    (stepped : before.next event = some after) (owned : after.connection.owners ≠ 0) :
    after.Stranded := by
  cases event with
  | connection | send | resumeSend | pong =>
    obtain ⟨moves, early⟩ := Classical.not_imp.mp broken
    exact moved_strands sound moves early stepped owned
  | transmit | elapse => simp [State.Undisturbed, State.movesTimer] at broken
  | expire =>
    simp only [State.Undisturbed, not_forall] at broken
    obtain ⟨wait, waiting, ended⟩ := broken
    simp only [State.next, Option.map_eq_some_iff, expire, Option.ite_none_right_eq_some,
      Option.some.injEq] at stepped
    obtain ⟨timer, ⟨_, rfl⟩, rfl⟩ := stepped
    cases wait with
    | ping => exact absurd rfl ended
    | operation id =>
      have queued : ⟨.operation id, .expired⟩ ∈ (before.timer.finish .expired).ready :=
        mem_ready_finish.mpr (.inr ⟨waiting, rfl⟩)
      exact stranded_of_over queued rfl owned (Bool.eq_false_iff.mpr ended)
  | complete id =>
    simp only [State.Undisturbed, not_forall, not_not] at broken
    obtain ⟨handler, queued, owner⟩ := broken
    simp only [State.next, Option.ite_none_right_eq_some, Option.some.injEq] at stepped
    obtain ⟨_, rfl⟩ := stepped
    refine stranded_of_over queued owner owned ?_
    simp only [State.isPending, List.getElem?_modify_eq]
    cases before.operations[id]? <;> rfl
  | callback index =>
    obtain ⟨alive, others⟩ := Classical.not_imp.mp broken
    simp only [not_forall] at others
    obtain ⟨handler, queued, other⟩ := others
    cases owner : handler.owner with
    | ping => exact absurd owner other
    | operation id =>
      simp only [State.next] at stepped
      split at stepped
      · rename_i outcome _
        have calls : before.callsCancel outcome = true := by
          cases outcome <;> simpa [State.callsCancel] using alive
        rw [if_pos calls, Option.some.injEq] at stepped
        subst stepped
        refine stranded_of_over queued owner owned ?_
        simp only [State.isPending, State.cancelSocket, List.getElem?_map, Option.any_map]
        cases before.operations[id]? with
        | none => rfl
        | some operation => exact abort_isPending operation
      · cases stepped

/-- The client connects, its handle opens, and `readLoop` waits for a message. -/
def opened : List Event :=
  [.connection .leaveScope, .connection (.readLoop .start),
    .connection (.readLoop (.websocketHandshake true)), .connection (.readLoop (.createHandle true)),
    .connection (.readLoop (.onOpen true))]

def reading : WebSocketConnection.State := ⟨false, false, .reading, 0, .spawned, true, false, false⟩

/-- No message came in time. -/
def timedOut : State :=
  ⟨reading, ⟨60000, some 60000, [], [⟨.operation 0, .expired⟩]⟩, [⟨.read, 0, .pending⟩], some 0, [], 0,
    false, false, []⟩

theorem timedOut_punctual : timedOut.Punctual :=
  undisturbed_punctual false timedOut
    (.of_execute (opened ++ [.elapse 60000, .expire]) (by decide +kernel))

/-- The first message came after ten seconds, and the second read has just begun. -/
def secondRead : State :=
  ⟨reading, ⟨10000, some 70000, [.operation 1], [⟨.operation 0, .aborted⟩]⟩,
    [⟨.read, 0, .completed⟩, ⟨.read, 10000, .pending⟩], some 1, [], 0, false, false, []⟩

/-- The callback of the read that ended in time cancels the one after it. -/
theorem finished_read_cancels_next :
    ¬ ∀ (ssl : Bool) (state : State),
      Transition.Reaches State.next (fun _ _ => True) (.started ssl) state → state.Punctual := by
  intro punctual
  have prompt := punctual false secondRead
    (.of_execute (opened ++ [.elapse 10000, .complete 0, .connection (.readLoop (.read .message)),
      .connection (.readLoop (.onMessage true))]) (by decide +kernel))
  exact absurd (prompt.callback 0 0 .aborted rfl rfl) (by decide)

end Hku.WebSocketIo
