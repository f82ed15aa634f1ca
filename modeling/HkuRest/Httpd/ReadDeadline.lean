import HkuRest.Httpd.WebSocketTimeouts

/-! The deadline of a pending read. `readLoop`, `send` and `sendPing` set and cancel the one
timer of their connection, each for itself, so a read keeps its deadline only as long as
the others leave the timer alone. -/

namespace Hku.WebSocketIo

open DeadlineTimer

/-- `readLoop` is suspended in this `async_read`, which is not over. -/
def State.Awaits (state : State) (read : Operation) : Prop :=
  ∃ id, state.read = some id ∧ state.operations[id]? = some read ∧ read.isPending = true

/-- A wait on the timer expires by this time, and its callback then cancels the socket. -/
def State.Waits (state : State) (time : Nat) : Prop :=
  ∃ id operation, state.operations[id]? = some operation ∧ operation.deadline ≤ time ∧
    .operation id ∈ state.timer.waits ∧ state.timer.expiry = some operation.deadline

/-- Such a wait has expired, and its callback is in the queue. -/
def State.Expired (state : State) (time : Nat) : Prop :=
  ∃ id operation, state.operations[id]? = some operation ∧ operation.deadline ≤ time ∧
    ⟨.operation id, .expired⟩ ∈ state.timer.ready

def Operation.lastMoment (read : Operation) : Nat := read.armed + WebSocketConfig.READ_TIMEOUT

/-- A read that `readLoop` is suspended in has a deadline, which is in time for it. -/
def State.Timed (state : State) : Prop :=
  ∀ read, state.Awaits read → state.Waits read.lastMoment ∨ state.Expired read.lastMoment

/-- While a read is pending the timer is not moved, unless the deadline has passed, or a
write that begins sets it to a time that is early enough for the read as well. -/
def State.KeepsDeadline (state : State) (event : Event) : Prop :=
  state.movesTimer event = true → ∀ read, state.Awaits read → state.Expired read.lastMoment ∨
    (∃ isOpen, event = .send isOpen) ∧
      state.timer.now + WebSocketConfig.WRITE_TIMEOUT ≤ read.lastMoment

/-- `readLoop` is suspended only where it reads. -/
def State.Suspended (state : State) : Prop :=
  ∀ id, state.read = some id →
    state.connection.reader = .reading ∧ id < state.operations.length

variable {state before after : State} {event : Event} {read : Operation} {time : Nat}
  {connection : WebSocketConnection.State}

theorem suspended_elsewhere (suspended : state.Suspended) (elsewhere : state.connection.reader ≠ .reading) :
    state.read = none := by
  cases reads : state.read with
  | none => rfl
  | some id => exact absurd (suspended id reads).1 elsewhere

/-- The steps of `readLoop` end a read or begin one, those of the others leave it alone. -/
inductive ReadEffect (event : Event) (before after : State) : Prop
  | ended (step : WebSocketConnection.ReadStep) (own : event = .connection (.readLoop step))
      (none : after.read = none)
  | begun (step : WebSocketConnection.ReadStep) (own : event = .connection (.readLoop step))
      (idle : State) (reading : after.connection.reader = .reading) (same : after = idle.beginRead)
  | kept (foreign : ∀ step, event ≠ .connection (.readLoop step)) (read : after.read = before.read)
      (reader : after.connection.reader = before.connection.reader)

theorem destroy_read : state.destroy.read = state.read := by
  unfold State.destroy
  split <;> rfl

theorem readLoop_read {step : WebSocketConnection.ReadStep} (suspended : before.Suspended)
    (moves : before.connection.readLoop step = some connection)
    (stepped : { before with connection := connection }.readLoop step = some after) :
    ReadEffect (.connection (.readLoop step)) before after := by
  have elsewhere {reader : WebSocketConnection.Reader} (there : before.connection.reader = reader)
      (other : reader ≠ .reading) : before.read = none :=
    suspended_elsewhere suspended (by rwa [there])
  cases WebSocketConnection.readMove_of_readLoop moves with
  | start there | encrypted there | unencrypted there | accepted there | refused there | routed there
  | unrouted there | unopened there | unhandled there | closed there =>
    cases stepped
    exact .ended _ rfl (elsewhere there (by simp))
  | opened | handled =>
    cases stepped
    exact .begun _ rfl _ rfl rfl
  | message | error =>
    simp only [State.readLoop, Option.ite_none_right_eq_some] at stepped
    obtain ⟨_, stepped⟩ := stepped
    cases stepped
    exact .ended _ rfl rfl
  | rejected there =>
    simp only [State.readLoop, Option.ite_none_right_eq_some] at stepped
    obtain ⟨_, stepped⟩ := stepped
    cases stepped
    exact .begun _ rfl _ there rfl
  | throws =>
    simp only [State.readLoop] at stepped
    cases reading : before.read with
    | none =>
      simp only [reading, Option.some.injEq] at stepped
      exact .ended _ rfl (by rw [← stepped])
    | some id =>
      simp only [reading, Option.ite_none_left_eq_some, Option.some.injEq] at stepped
      exact .ended _ rfl (congrArg State.read stepped.2.symm)
  | frameDestroyed there =>
    cases stepped
    refine .ended _ rfl ?_
    rw [destroy_read]
    exact elsewhere there (by simp)

theorem release_reader {held : WebSocketConnection.State} : held.release.reader = held.reader := by
  unfold WebSocketConnection.State.release
  split <;> rfl

theorem next_reader {held later : WebSocketConnection.State} {step : WebSocketConnection.Event}
    (foreign : ∀ own, step ≠ .readLoop own) (alive : step ≠ .ioContextDestroyed)
    (moves : held.next step = some later) : later.reader = held.reader := by
  cases step with
  | readLoop own => exact absurd rfl (foreign own)
  | ioContextDestroyed => exact absurd rfl alive
  | sendPing own =>
    cases own with
    | checks isOpen =>
      simp only [WebSocketConnection.State.next, WebSocketConnection.State.sendPing] at moves
      split at moves <;> cases moves <;> rfl
    | intervalTimer | asyncPing | pingTimer | close =>
      simp only [WebSocketConnection.State.next, WebSocketConnection.State.sendPing,
        Option.ite_none_right_eq_some, Option.some.injEq] at moves
      obtain ⟨_, rfl⟩ := moves
      rfl
  | lock =>
    simp only [WebSocketConnection.State.next, Option.ite_none_right_eq_some, Option.some.injEq] at moves
    obtain ⟨_, rfl⟩ := moves
    split <;> rfl
  | leaveScope | unlock =>
    simp only [WebSocketConnection.State.next, Option.ite_none_right_eq_some, Option.some.injEq] at moves
    obtain ⟨_, rfl⟩ := moves
    exact release_reader

theorem sendPing_read {step : WebSocketConnection.PingStep} (stepped : before.sendPing step = some after) :
    after.read = before.read := by
  cases sendPing_outcome stepped with
  | still _ same | resume _ _ same | cancel _ same =>
    subst same
    rfl
  | ping _ throws same =>
    subst same
    cases throws <;> rfl

theorem moved_read {step : WebSocketConnection.Event} (foreign : ∀ own, step ≠ .readLoop own)
    (stepped : before.moved step = some after) : after.read = before.read := by
  cases step with
  | readLoop own => exact absurd rfl (foreign own)
  | sendPing step =>
    simp only [State.moved, Option.ite_none_left_eq_some] at stepped
    exact sendPing_read stepped.2
  | leaveScope =>
    cases stepped
    exact destroy_read
  | lock =>
    cases stepped
    rfl
  | unlock =>
    simp only [State.moved, Option.ite_none_right_eq_some, Option.some.injEq] at stepped
    obtain ⟨_, rfl⟩ := stepped
    exact destroy_read
  | ioContextDestroyed => cases stepped

theorem next_read (suspended : before.Suspended) (stepped : before.next event = some after) :
    ReadEffect event before after := by
  cases next_steps stepped with
  | @connection event connection _ moves stepped =>
    by_cases own : ∃ step, event = .readLoop step
    · obtain ⟨step, rfl⟩ := own
      exact readLoop_read suspended moves stepped
    · have foreign : ∀ step, event ≠ .readLoop step := fun step same => own ⟨step, same⟩
      have read := moved_read foreign stepped
      refine .kept (fun step same => foreign step (Event.connection.inj same)) read ?_
      rw [moved_connection stepped]
      refine next_reader foreign ?_ moves
      rintro rfl
      cases stepped
  | resumes _ _ moves =>
    refine .kept (fun _ => Event.noConfusion) destroy_read ?_
    rw [destroy_connection]
    refine next_reader ?_ ?_ moves <;> simp
  | _ => exact .kept (fun _ => Event.noConfusion) rfl rfl

theorem next_operations (stepped : before.next event = some after) :
    before.operations.length ≤ after.operations.length := by
  cases next_effect stepped with
  | keep operations | beginRead operations | beginWrite _ _ _ operations | transmit _ _ operations
  | complete _ _ operations | cancel _ _ _ _ _ _ operations => simp [operations]

theorem next_suspended (suspended : before.Suspended) (stepped : before.next event = some after) :
    after.Suspended := by
  cases next_read suspended stepped with
  | ended _ _ none =>
    intro id reads
    rw [none] at reads
    cases reads
  | begun _ _ idle reading same =>
    intro id reads
    refine ⟨reading, ?_⟩
    subst same
    cases reads
    simp [State.beginRead, State.begin]
  | kept _ read reader =>
    intro id reads
    obtain ⟨reading, bound⟩ := suspended id (read.symm.trans reads)
    exact ⟨reader.trans reading, Nat.lt_of_lt_of_le bound (next_operations stepped)⟩

theorem reaches_suspended {allowed : State → Event → Prop} {ssl : Bool}
    (reached : Transition.Reaches State.next allowed (.started ssl) state) : state.Suspended := by
  refine reached.invariant State.Suspended ?_ fun _ _ _ suspended _ => next_suspended suspended
  intro id reads
  cases reads

theorem readLoop_blocked {step : WebSocketConnection.ReadStep} (suspended : before.Suspended)
    (awaits : before.Awaits read) : before.next (.connection (.readLoop step)) = none := by
  obtain ⟨id, reads, found, pending⟩ := awaits
  have reading := (suspended id reads).1
  simp only [State.next, Option.bind_eq_none_iff]
  intro connection moves
  simp only [WebSocketConnection.State.next] at moves
  cases step with
  | read received =>
    have unread : { before with connection := connection }.hasRead received = false := by
      simp only [Operation.isPending, decide_eq_true_eq] at pending
      simp [State.hasRead, reads, found, pending]
    simp [State.moved, State.readLoop, unread]
  | throws => simp [State.moved, State.readLoop, State.isPending, reads, found, pending]
  | _ => simp [WebSocketConnection.State.readLoop, reading] at moves

/-- The timer is left as it is, fires, is moved, or is set for a write. -/
inductive TimerEffect (event : Event) (before after : State) : Prop
  | still (idle : before.movesTimer event = false)
      (waits : ∀ wait ∈ before.timer.waits, wait ∈ after.timer.waits)
      (expiry : after.timer.expiry = before.timer.expiry)
      (ready : ∀ id, ⟨.operation id, .expired⟩ ∈ before.timer.ready →
        ⟨.operation id, .expired⟩ ∈ after.timer.ready)
  | fires (idle : before.movesTimer event = false)
      (ready : ∀ wait ∈ before.timer.waits, ⟨wait, .expired⟩ ∈ after.timer.ready)
      (kept : ∀ handler ∈ before.timer.ready, handler ∈ after.timer.ready)
  | cancelsSocket (idle : before.movesTimer event = false) (idles : ∀ id, after.isPending id = false)
  | moved (moves : before.movesTimer event = true) (other : ∀ isOpen, event ≠ .send isOpen)
      (operations : after.operations = before.operations)
      (waits : ∀ id, .operation id ∉ after.timer.waits)
      (ready : ∀ id, ⟨.operation id, .expired⟩ ∈ after.timer.ready ↔
        ⟨.operation id, .expired⟩ ∈ before.timer.ready)
  | written (moves : before.movesTimer event = true) (isOpen : Bool) (sends : event = .send isOpen)
      (operations : after.operations = before.operations ++ [⟨.write, before.timer.now, .pending⟩])
      (waits : after.timer.waits = [.operation before.operations.length])
      (expiry : after.timer.expiry = some (before.timer.now + WebSocketConfig.WRITE_TIMEOUT))
      (ready : ∀ id, ⟨.operation id, .expired⟩ ∈ after.timer.ready ↔
        ⟨.operation id, .expired⟩ ∈ before.timer.ready)

theorem TimerEffect.of_same (idle : before.movesTimer event = false) (same : after.timer = before.timer) :
    TimerEffect event before after := by
  refine .still idle ?_ ?_ ?_ <;> simp [same]

theorem destroy_timer (intact : state.connection.destroyed = false) :
    state.destroy.timer = state.timer := by
  rw [State.destroy, intact]
  rfl

theorem ping_timer (state : State) (throws : Bool) : (∀ id, .operation id ∉ (state.ping throws).timer.waits) ∧
    ∀ id, ⟨.operation id, .expired⟩ ∈ (state.ping throws).timer.ready ↔
      ⟨.operation id, .expired⟩ ∈ state.timer.ready := by
  have rearmed (id : Nat) : ⟨.operation id, .expired⟩ ∈
      ((if state.timer.expiry.isSome then state.timer.cancel else state.timer).expiresAfter
        WebSocketConfig.PING_TIMEOUT).ready ↔ ⟨.operation id, .expired⟩ ∈ state.timer.ready := by
    split
    · exact expired_mem_cancel.trans expired_mem_cancel
    · exact expired_mem_cancel
  cases throws with
  | true => exact ⟨by simp [State.ping, expiresAfter, cancel, finish], rearmed⟩
  | false => exact ⟨by simp [State.ping, asyncWait, expiresAfter, cancel, finish], rearmed⟩

theorem sendPing_timer {step : WebSocketConnection.PingStep}
    (stepped : { before with connection := connection }.sendPing step = some after) :
    TimerEffect (.connection (.sendPing step)) before after := by
  cases step with
  | checks | intervalTimer =>
    cases stepped
    exact .of_same rfl rfl
  | asyncPing throws =>
    cases stepped
    obtain ⟨waits, ready⟩ := ping_timer { before with connection := connection } throws
    refine .moved rfl (fun _ => Event.noConfusion) ?_ waits ready
    cases throws <;> rfl
  | pingTimer result pingSent =>
    simp only [State.sendPing] at stepped
    split at stepped
    · rename_i index first
      simp only [Option.ite_none_right_eq_some, Option.some.injEq] at stepped
      obtain ⟨_, rfl⟩ := stepped
      obtain ⟨bound, pinged, _⟩ := List.findIdx?_eq_some_iff_getElem.mp first
      refine .still rfl (fun _ => id) rfl ?_
      intro id queued
      refine mem_ready_take (List.getElem?_eq_getElem bound) ?_ queued
      intro same
      simp [same] at pinged
    · cases stepped
  | close =>
    cases stepped
    refine .moved rfl (fun _ => Event.noConfusion) rfl (fun _ => List.not_mem_nil) ?_
    exact fun _ => expired_mem_cancel

theorem moved_timer {step : WebSocketConnection.Event} (foreign : ∀ own, step ≠ .readLoop own)
    (intact : after.connection.destroyed = false)
    (stepped : { before with connection := connection }.moved step = some after) :
    TimerEffect (.connection step) before after := by
  cases step with
  | readLoop own => exact absurd rfl (foreign own)
  | sendPing step =>
    simp only [State.moved, Option.ite_none_left_eq_some] at stepped
    exact sendPing_timer stepped.2
  | leaveScope =>
    cases stepped
    rw [destroy_connection] at intact
    exact .of_same rfl (destroy_timer intact)
  | lock =>
    cases stepped
    exact .of_same rfl rfl
  | unlock =>
    simp only [State.moved, Option.ite_none_right_eq_some, Option.some.injEq] at stepped
    obtain ⟨_, rfl⟩ := stepped
    rw [destroy_connection] at intact
    exact .of_same rfl (destroy_timer intact)
  | ioContextDestroyed => cases stepped

/-- As long as `readLoop` is suspended the connection is owned, so `send` is not its last
owner and callbacks cancel the socket. -/
theorem next_timer (foreign : ∀ step, event ≠ .connection (.readLoop step))
    (reading : before.connection.reader = .reading) (intact : after.connection.destroyed = false)
    (stepped : before.next event = some after) : TimerEffect event before after := by
  cases next_steps stepped with
  | @connection event connection _ _ stepped =>
    refine moved_timer ?_ intact stepped
    rintro own rfl
    exact foreign own rfl
  | @sends isOpen accepted =>
    exact .written accepted isOpen rfl rfl rfl rfl fun _ => expired_mem_cancel
  | refuses refused => exact .of_same refused rfl
  | resumes _ _ moves =>
    rw [destroy_connection] at intact
    have timer := destroy_timer intact
    refine .moved ?_ (fun _ => Event.noConfusion) destroy_operations ?_ ?_
    · simp only [WebSocketConnection.State.next, Option.ite_none_right_eq_some] at moves
      have held := moves.1
      simp only [State.movesTimer, WebSocketConnection.State.owners, reading]
      simp
      omega
    · intro id
      rw [timer]
      exact List.not_mem_nil
    · intro id
      rw [timer]
      exact expired_mem_cancel
  | ponged =>
    refine .moved rfl (fun _ => Event.noConfusion) rfl (fun _ => List.not_mem_nil) ?_
    exact fun _ => expired_mem_cancel
  | elapses duration => exact .still rfl (fun _ => id) rfl fun _ => id
  | expires fires =>
    simp only [expire, Option.ite_none_right_eq_some, Option.some.injEq] at fires
    obtain ⟨_, rfl⟩ := fires
    refine .fires rfl ?_ ?_
    · intro wait waiting
      exact mem_ready_finish.mpr (.inr ⟨waiting, rfl⟩)
    · intro handler queued
      exact mem_ready_finish.mpr (.inl queued)
  | cancels =>
    refine .cancelsSocket rfl ?_
    intro other
    simp only [State.isPending, State.cancelSocket, List.getElem?_map]
    cases before.operations[other]? with
    | none => rfl
    | some operation => exact abort_isPending operation
  | @passes _ _ outcome _ silent =>
    have owned : before.connection.owners ≠ 0 :=
      Nat.ne_of_gt (WebSocketConnection.owners_pos (by simp [reading]))
    have calls : before.callsCancel outcome = true := by
      cases outcome <;> simpa [State.callsCancel] using owned
    rw [calls] at silent
    cases silent
  | transmits | completes | unponged => exact .of_same rfl rfl

theorem abort_deadline (operation : Operation) : operation.abort.deadline = operation.deadline := by
  unfold Operation.abort
  split <;> rfl

theorem next_deadline {id : Nat} {operation : Operation} (stepped : before.next event = some after)
    (found : before.operations[id]? = some operation) :
    ∃ later, after.operations[id]? = some later ∧ later.deadline = operation.deadline := by
  have bound := (List.getElem?_eq_some_iff.mp found).1
  cases next_effect stepped with
  | keep operations | transmit _ _ operations => exact ⟨operation, by rw [operations, found], rfl⟩
  | beginRead operations | beginWrite _ _ _ operations =>
    exact ⟨operation, by rw [operations, List.getElem?_append_left bound, found], rfl⟩
  | complete ended _ operations =>
    rw [operations, List.getElem?_modify, found]
    split
    · exact ⟨_, rfl, rfl⟩
    · exact ⟨_, rfl, rfl⟩
  | cancel _ _ _ _ _ _ operations =>
    rw [operations, List.getElem?_map, found]
    exact ⟨_, rfl, abort_deadline operation⟩

theorem awaits_before (suspended : before.Suspended) (kept : after.read = before.read)
    (stepped : before.next event = some after) (awaits : after.Awaits read) : before.Awaits read := by
  obtain ⟨id, reads, found, pending⟩ := awaits
  rw [kept] at reads
  have bound := (suspended id reads).2
  refine ⟨id, reads, ?_, pending⟩
  cases next_effect stepped with
  | keep operations | transmit _ _ operations => rwa [operations] at found
  | beginRead operations | beginWrite _ _ _ operations =>
    rwa [operations, List.getElem?_append_left bound] at found
  | complete ended _ operations =>
    rw [operations, List.getElem?_modify, Option.map_eq_map, Option.map_eq_some_iff] at found
    obtain ⟨earlier, known, same⟩ := found
    split at same
    · subst same
      cases pending
    · exact known.trans (congrArg some same)
  | cancel _ _ _ _ _ _ operations =>
    rw [operations, List.getElem?_map, Option.map_eq_some_iff] at found
    obtain ⟨earlier, _, rfl⟩ := found
    rw [abort_isPending] at pending
    cases pending

theorem beginRead_timed (idle : State) : idle.beginRead.Timed := by
  rintro read ⟨id, reads, found, _⟩
  cases reads
  obtain rfl : ⟨.read, idle.timer.now, .pending⟩ = read := by
    simpa [State.beginRead, State.begin] using found
  exact .inl ⟨idle.operations.length, _, found, Nat.le_refl _, List.mem_append_right _ List.mem_cons_self,
    rfl⟩

theorem expired_kept (stepped : before.next event = some after)
    (ready : ∀ id, ⟨.operation id, .expired⟩ ∈ before.timer.ready →
      ⟨.operation id, .expired⟩ ∈ after.timer.ready)
    (expired : before.Expired time) : after.Expired time := by
  obtain ⟨id, operation, found, early, queued⟩ := expired
  obtain ⟨later, stands, deadline⟩ := next_deadline stepped found
  exact ⟨id, later, stands, by rwa [deadline], ready id queued⟩

theorem next_timed (suspended : before.Suspended) (timed : before.Timed) (keeps : before.KeepsDeadline event)
    (intact : after.connection.owners ≠ 0 → after.connection.destroyed = false)
    (stepped : before.next event = some after) : after.Timed := by
  intro read awaits
  cases next_read suspended stepped with
  | ended _ _ none =>
    obtain ⟨id, reads, _⟩ := awaits
    rw [none] at reads
    cases reads
  | begun _ _ idle _ same =>
    subst same
    exact beginRead_timed idle read awaits
  | kept foreign reads reader =>
    have awaited := awaits_before suspended reads stepped awaits
    obtain ⟨id, known, found, pending⟩ := awaits
    have reading := (suspended id (reads.symm.trans known)).1
    have owned : after.connection.owners ≠ 0 :=
      Nat.ne_of_gt (WebSocketConnection.owners_pos (by simp [reader, reading]))
    cases next_timer foreign reading (intact owned) stepped with
    | still _ waits expiry ready =>
      refine (timed read awaited).imp ?_ (expired_kept stepped ready)
      rintro ⟨id, operation, found, early, waiting, set⟩
      obtain ⟨later, stands, deadline⟩ := next_deadline stepped found
      exact ⟨id, later, stands, by rwa [deadline], waits _ waiting, by rw [expiry, set, deadline]⟩
    | fires _ ready kept =>
      refine .inr ?_
      rcases timed read awaited with ⟨id, operation, found, early, waiting, _⟩ | expired
      · obtain ⟨later, stands, deadline⟩ := next_deadline stepped found
        exact ⟨id, later, stands, by rwa [deadline], ready _ waiting⟩
      · exact expired_kept stepped (fun id => kept _) expired
    | cancelsSocket _ idles =>
      have unfinished : after.isPending id = true := by simp [State.isPending, found, pending]
      rw [idles id] at unfinished
      cases unfinished
    | moved moves other _ _ ready =>
      rcases keeps moves read awaited with expired | ⟨⟨isOpen, sends⟩, _⟩
      · exact .inr (expired_kept stepped (fun id => (ready id).mpr) expired)
      · exact absurd sends (other isOpen)
    | written moves _ _ operations waits expiry ready =>
      rcases keeps moves read awaited with expired | ⟨_, early⟩
      · exact .inr (expired_kept stepped (fun id => (ready id).mpr) expired)
      · have wrote : after.operations[before.operations.length]? =
            some ⟨.write, before.timer.now, .pending⟩ := by simp [operations]
        exact .inl ⟨_, _, wrote, early, by rw [waits]; exact List.mem_cons_self, expiry⟩

/-- A step that takes the deadline away from a pending read leaves it without one. -/
theorem timed_keeps (suspended : before.Suspended) (timed : after.Timed)
    (intact : after.connection.owners ≠ 0 → after.connection.destroyed = false)
    (stepped : before.next event = some after) : before.KeepsDeadline event := by
  intro moves read awaited
  cases next_read suspended stepped with
  | ended step own | begun step own =>
    subst own
    rw [readLoop_blocked suspended awaited] at stepped
    cases stepped
  | kept foreign reads reader =>
    obtain ⟨id, known, found, pending⟩ := awaited
    obtain ⟨reading, bound⟩ := suspended id known
    have owned : after.connection.owners ≠ 0 :=
      Nat.ne_of_gt (WebSocketConnection.owners_pos (by simp [reader, reading]))
    cases next_timer foreign reading (intact owned) stepped with
    | still idle | fires idle | cancelsSocket idle =>
      rw [moves] at idle
      cases idle
    | moved _ _ operations waits ready =>
      rcases timed read ⟨id, reads.trans known, by rwa [operations], pending⟩ with
        ⟨other, _, _, _, waiting, _⟩ | ⟨other, operation, stands, early, queued⟩
      · exact absurd waiting (waits other)
      · exact .inl ⟨other, operation, by rwa [← operations], early, (ready other).mp queued⟩
    | written _ isOpen sends operations waits expiry ready =>
      have still : after.operations[id]? = some read := by
        rwa [operations, List.getElem?_append_left bound]
      rcases timed read ⟨id, reads.trans known, still, pending⟩ with
        ⟨other, operation, _, early, _, set⟩ | ⟨other, operation, stands, early, queued⟩
      · rw [expiry, Option.some.injEq] at set
        exact .inr ⟨⟨isOpen, sends⟩, by rwa [set]⟩
      · by_cases earlier : other < before.operations.length
        · rw [operations, List.getElem?_append_left earlier] at stands
          exact .inl ⟨other, operation, stands, early, (ready other).mp queued⟩
        · rw [operations, List.getElem?_append_right (Nat.le_of_not_lt earlier),
            List.getElem?_singleton] at stands
          split at stands
          · cases stands
            exact .inr ⟨⟨isOpen, sends⟩, early⟩
          · cases stands

/-- Along every run of one connection, in whatever order its handlers run: every read that
`readLoop` is suspended in has a deadline in time for it, exactly when nobody else moves the
timer while a read is pending, but for writes that set it early enough. -/
theorem read_deadline_iff (ssl : Bool) (events : List Event) :
    Transition.Along State.next (fun _ _ after => after.Timed) (.started ssl) events ↔
      Transition.Along State.next (fun before event _ => before.KeepsDeadline event) (.started ssl)
        events := by
  refine Transition.along_iff
    (fun state => Transition.Reaches State.next (fun _ _ => True) (.started ssl) state ∧ state.Timed)
    ⟨.refl, ?_⟩ ?_ ?_ events
  · rintro read ⟨id, reads, _⟩
    cases reads
  · rintro before event after ⟨reached, _⟩ stepped timed
    exact ⟨.step reached trivial stepped, timed⟩
  · rintro before event after ⟨reached, timed⟩ stepped
    have suspended := reaches_suspended reached
    have intact := intact_of_owned (.step reached trivial stepped)
    constructor
    · intro timed
      exact timed_keeps suspended timed intact stepped
    · intro keeps
      exact next_timed suspended timed keeps intact stepped

theorem expired_ends (owned : state.connection.owners ≠ 0) (expired : state.Expired time) :
    ∃ index after, state.next (.callback index) = some after ∧ ∀ read, ¬ after.Awaits read := by
  obtain ⟨id, _, _, _, queued⟩ := expired
  obtain ⟨index, found⟩ := List.mem_iff_getElem?.mp queued
  have calls : state.callsCancel .expired = true := by simpa [State.callsCancel] using owned
  refine ⟨index, _, by simp only [State.next, found, if_pos calls]; rfl, ?_⟩
  rintro read ⟨other, _, stands, pending⟩
  simp only [State.cancelSocket, List.getElem?_map, Option.map_eq_some_iff] at stands
  obtain ⟨operation, _, rfl⟩ := stands
  rw [abort_isPending] at pending
  cases pending

/-- A read that has its deadline is over, with two steps of the io_context at most, once
`READ_TIMEOUT` has elapsed. -/
theorem deadline_enforced (suspended : state.Suspended) (timed : state.Timed) (awaits : state.Awaits read)
    (late : read.lastMoment ≤ state.timer.now) :
    ∃ events final, events.length ≤ 2 ∧ Transition.execute State.next state events = some final ∧
      ∀ other, ¬ final.Awaits other := by
  have ⟨id, reads, _⟩ := awaits
  have owned : state.connection.owners ≠ 0 :=
    Nat.ne_of_gt (WebSocketConnection.owners_pos (by simp [(suspended id reads).1]))
  rcases timed read awaits with ⟨id, operation, found, early, waiting, expiry⟩ | expired
  · have due : state.timer.isDue = true := by
      simpa [isDue, expiry] using Nat.le_trans early late
    obtain ⟨later, fires, held, passed⟩ : ∃ later, state.next .expire = some later ∧
        later.connection.owners ≠ 0 ∧ later.Expired read.lastMoment :=
      ⟨{ state with timer := state.timer.finish .expired }, by simp [State.next, expire, due], owned,
        id, operation, found, early, mem_ready_finish.mpr (.inr ⟨waiting, rfl⟩)⟩
    obtain ⟨index, after, stepped, idles⟩ := expired_ends held passed
    refine ⟨[.expire, .callback index], after, Nat.le_refl _, ?_, idles⟩
    simp [Transition.execute, fires, stepped]
  · obtain ⟨index, after, stepped, idles⟩ := expired_ends owned expired
    refine ⟨[.callback index], after, by simp, ?_, idles⟩
    simp [Transition.execute, stepped]

/-- The handle sends a message while `readLoop` waits for one, and the write is over at once. -/
def sentAtOnce : State :=
  ⟨reading, ⟨0, some 30000, [], [⟨.operation 0, .aborted⟩, ⟨.operation 1, .aborted⟩]⟩,
    [⟨.read, 0, .pending⟩, ⟨.write, 0, .completed⟩], some 0, [], 0, false, false, []⟩

/-- The `send` has cancelled the timer, and the read is pending without any wait. -/
theorem read_without_deadline :
    ¬ ∀ (ssl : Bool) (state : State),
      Transition.Reaches State.next (fun _ _ => True) (.started ssl) state → state.Timed := by
  intro timed
  have deadline := timed false sentAtOnce
    (.of_execute (opened ++ [.send true, .complete 1, .resumeSend 1]) (by decide +kernel))
    ⟨.read, 0, .pending⟩ ⟨0, rfl, rfl, rfl⟩
  rcases deadline with ⟨id, _, _, _, waiting, _⟩ | ⟨id, _, _, _, queued⟩
  · cases waiting
  · simp [sentAtOnce] at queued

end Hku.WebSocketIo
