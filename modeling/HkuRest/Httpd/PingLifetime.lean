import HkuRest.Core.Lease
import HkuRest.Httpd.WebSocketConnection

/-! Who is alive when `sendPing` runs. The connection is a lease: its `shared_ptr`s are
the owners, `sendPing` is a borrower. Every step but one moves the lease as it may; the
release of the last owner does so only if `sendPing` has nothing left to do. -/

namespace Hku.WebSocketConnection

variable {state before after : State} {event : Event}

/-- The steps that let go of a `shared_ptr`. -/
def Event.releases : Event → Bool
  | .leaveScope | .unlock | .readLoop .frameDestroyed => true
  | _ => false

inductive Effect (event : Event) (before after : State) : Prop
  | idle (owners : after.owners = before.owners)
      (pending : after.ping.isPending = before.ping.isPending)
      (destroyed : after.destroyed = before.destroyed)
  | finish (owners : after.owners = before.owners) (pending : after.ping.isPending = false)
      (destroyed : after.destroyed = before.destroyed)
  | spawn (owned : 0 < before.owners) (owners : after.owners = before.owners)
      (pending : after.ping.isPending = true) (destroyed : after.destroyed = before.destroyed)
  | lock (owned : 0 < before.owners) (owners : after.owners = before.owners + 1)
      (ping : after.ping = before.ping) (destroyed : after.destroyed = before.destroyed)
  | release (released : State) (releases : event.releases = true) (owners : released.owners + 1 = before.owners)
      (ping : released.ping = before.ping) (destroyed : released.destroyed = before.destroyed)
      (result : after = released.release)
  | vanish (owners : after.owners = 0) (pending : after.ping.isPending = false)
      (destroyed : after.destroyed = true)

@[simp] theorem whenReader_eq_some {reader : Reader} {result : State} :
    state.whenReader reader result = some after ↔ state.reader = reader ∧ result = after := by
  simp [State.whenReader]

/-- What a step of `readLoop` can do. -/
inductive ReadMove (state : State) : ReadStep → State → Prop
  | start (there : state.reader = .starting) :
      ReadMove state .start
        { state with reader := if state.ssl then .sslHandshake else .websocketHandshake }
  | encrypted (there : state.reader = .sslHandshake) :
      ReadMove state (.sslHandshake true) { state with reader := .websocketHandshake }
  | unencrypted (there : state.reader = .sslHandshake) :
      ReadMove state (.sslHandshake false) { state.close with reader := .returning }
  | accepted (there : state.reader = .websocketHandshake) :
      ReadMove state (.websocketHandshake true) { state with reader := .routing, contextCreated := true }
  | refused (there : state.reader = .websocketHandshake) :
      ReadMove state (.websocketHandshake false) { state.close with reader := .returning }
  | routed (there : state.reader = .routing) :
      ReadMove state (.createHandle true) { state with reader := .opening }
  | unrouted (there : state.reader = .routing) :
      ReadMove state (.createHandle false) { state.close with reader := .returning }
  | opened (there : state.reader = .opening) :
      ReadMove state (.onOpen true) { state with reader := .reading, ping := .spawned }
  | unopened (there : state.reader = .opening) :
      ReadMove state (.onOpen false) { state.close with reader := .returning }
  | message (there : state.reader = .reading) :
      ReadMove state (.read .message) { state with reader := .handling }
  | rejected (there : state.reader = .reading) : ReadMove state (.read .rejected) state
  | error (there : state.reader = .reading) :
      ReadMove state (.read .error) { state with reader := .closing }
  | handled (there : state.reader = .handling) :
      ReadMove state (.onMessage true) { state with reader := .reading }
  | unhandled (there : state.reader = .handling) :
      ReadMove state (.onMessage false) { state with reader := .closing }
  | closed (there : state.reader = .closing) :
      ReadMove state .onClose { state.close with reader := .returning }
  | throws (running : state.reader.isRunning = true) :
      ReadMove state .throws { state with reader := .returning }
  | frameDestroyed (there : state.reader = .returning) :
      ReadMove state .frameDestroyed { state with reader := .finished }.release

theorem readMove_of_readLoop {step : ReadStep} (stepped : before.readLoop step = some after) :
    ReadMove before step after := by
  cases step with
  | throws =>
    simp only [State.readLoop, Option.ite_none_right_eq_some, Option.some.injEq] at stepped
    obtain ⟨running, rfl⟩ := stepped
    exact .throws running
  | start | onClose | frameDestroyed =>
    simp only [State.readLoop, whenReader_eq_some] at stepped
    obtain ⟨there, rfl⟩ := stepped
    constructor
    exact there
  | sslHandshake result | websocketHandshake result | createHandle result | onOpen result
  | onMessage result | read result =>
    simp only [State.readLoop, whenReader_eq_some] at stepped
    obtain ⟨there, rfl⟩ := stepped
    cases result <;> constructor <;> exact there

theorem owners_congr (reader : after.reader = .finished ↔ before.reader = .finished)
    (wsConnection : after.wsConnection = before.wsConnection) (locked : after.locked = before.locked) :
    after.owners = before.owners := by
  simp [State.owners, reader, wsConnection, locked]

theorem owners_pos (running : before.reader ≠ .finished) : 0 < before.owners := by
  have held : (before.reader ≠ .finished : Bool) = true := decide_eq_true running
  rw [State.owners, held, Bool.toNat_true]
  omega

theorem next_released (releases : event.releases = true) (stepped : before.next event = some after) :
    ∃ released : State, released.owners + 1 = before.owners ∧ released.ping = before.ping ∧
      released.destroyed = before.destroyed ∧ after = released.release := by
  cases event with
  | sendPing | lock | ioContextDestroyed => cases releases
  | readLoop step =>
    cases readMove_of_readLoop stepped with
    | frameDestroyed there =>
      refine ⟨{ before with reader := .finished }, ?_, rfl, rfl, rfl⟩
      simp [State.owners, there]
      omega
    | _ => cases releases
  | leaveScope =>
    simp only [State.next, Option.ite_none_right_eq_some, Option.some.injEq] at stepped
    obtain ⟨held, rfl⟩ := stepped
    refine ⟨{ before with wsConnection := false }, ?_, rfl, rfl, rfl⟩
    simp [State.owners, held]
    omega
  | unlock =>
    simp only [State.next, Option.ite_none_right_eq_some, Option.some.injEq] at stepped
    obtain ⟨held, rfl⟩ := stepped
    refine ⟨{ before with locked := before.locked - 1 }, ?_, rfl, rfl, rfl⟩
    simp only [State.owners]
    omega

/-- A step within `readLoop` changes neither the owners nor `sendPing`, unless it spawns it. -/
theorem readLoop_effect {step : ReadStep} (inside : step ≠ .frameDestroyed)
    (stepped : before.readLoop step = some after) : Effect (.readLoop step) before after := by
  cases readMove_of_readLoop stepped with
  | start there =>
    refine .idle (owners_congr ?_ rfl rfl) rfl rfl
    split <;> simp [there]
  | opened there =>
    have running : before.reader ≠ .finished := by simp [there]
    exact .spawn (owners_pos running) (owners_congr (by simp [there]) rfl rfl) rfl rfl
  | throws running =>
    refine .idle (owners_congr ?_ rfl rfl) rfl rfl
    cases reader : before.reader <;> simp [Reader.isRunning, reader] at running ⊢
  | frameDestroyed => exact absurd rfl inside
  | rejected there => exact .idle rfl rfl rfl
  | encrypted there | unencrypted there | accepted there | refused there | routed there
  | unrouted there | unopened there | message there | error there | handled there | unhandled there
  | closed there => exact .idle (owners_congr (by simp [there]) rfl rfl) rfl rfl

theorem sendPing_pending {step : PingStep} (stepped : before.sendPing step = some after) :
    before.ping.isPending = true := by
  cases step with
  | checks isOpen =>
    cases ping : before.ping with
    | spawned | looping | woken => rfl
    | _ =>
      simp only [State.sendPing, ping] at stepped
      cases stepped
  | intervalTimer result | asyncPing throws | pingTimer result sent | close =>
    simp only [State.sendPing, Option.ite_none_right_eq_some] at stepped
    rw [stepped.1]
    rfl

theorem sendPing_effect {step : PingStep} (stepped : before.sendPing step = some after) :
    Effect (.sendPing step) before after := by
  have pending : before.ping.isPending = true := sendPing_pending stepped
  have moves {ping : Ping} : Effect (.sendPing step) before { before with ping := ping } := by
    cases later : ping.isPending with
    | true => exact .idle rfl (later.trans pending.symm) rfl
    | false => exact .finish rfl later rfl
  cases step with
  | checks isOpen =>
    simp only [State.sendPing] at stepped
    split at stepped <;> cases stepped <;> exact moves
  | intervalTimer result | asyncPing throws | pingTimer result sent =>
    simp only [State.sendPing, Option.ite_none_right_eq_some, Option.some.injEq] at stepped
    obtain ⟨-, rfl⟩ := stepped
    exact moves
  | close =>
    simp only [State.sendPing, Option.ite_none_right_eq_some, Option.some.injEq] at stepped
    obtain ⟨_, rfl⟩ := stepped
    exact .finish rfl rfl rfl

theorem next_effect (stepped : before.next event = some after) : Effect event before after := by
  cases releases : event.releases with
  | true =>
    obtain ⟨released, owners, ping, destroyed, result⟩ := next_released releases stepped
    exact .release released releases owners ping destroyed result
  | false =>
    cases event with
    | leaveScope | unlock => cases releases
    | readLoop step =>
      refine readLoop_effect ?_ stepped
      rintro rfl
      cases releases
    | sendPing step => exact sendPing_effect stepped
    | lock =>
      simp only [State.next, Option.ite_none_right_eq_some, Option.some.injEq] at stepped
      obtain ⟨_, rfl⟩ := stepped
      split
      · exact .idle rfl rfl rfl
      · rename_i owned
        exact .lock (Nat.pos_of_ne_zero owned) rfl rfl rfl
    | ioContextDestroyed =>
      cases stepped
      exact .vanish rfl rfl rfl

theorem release_owners : before.release.owners = before.owners := by
  unfold State.release
  split <;> rfl

theorem release_ping : before.release.ping = before.ping := by
  unfold State.release
  split <;> rfl

/-- In every run, whatever its order, the destructor has run exactly when no owner is left. -/
theorem destroyed_iff {ssl : Bool} (reached :
    Transition.Reaches State.next (fun _ _ => True) (.started ssl) state) :
    state.destroyed = true ↔ state.owners = 0 := by
  refine Transition.Reaches.invariant (fun state => state.destroyed = true ↔ state.owners = 0) ?_ ?_
    reached
  · simp [State.started, State.owners]
  · intro before event after gone _ stepped
    cases next_effect stepped with
    | idle owners _ destroyed | finish owners _ destroyed => rw [owners, destroyed, gone]
    | spawn owned owners _ destroyed => rw [owners, destroyed, gone]
    | lock owned owners _ destroyed =>
      rw [owners, destroyed, gone]
      omega
    | release released _ owners _ destroyed result =>
      rw [result, release_owners]
      unfold State.release
      split
      · simp [*]
      · rw [destroyed, gone]
        omega
    | vanish owners _ destroyed => simp [owners, destroyed]

structure State.Represents (state : State) (lease : Lease) : Prop where
  owners : lease.owners = state.owners
  borrowed : lease.borrowed = state.ping.isPending

/-- The last owner does not go while `sendPing` has steps to take. -/
def State.Outlives (state : State) (event : Event) : Prop :=
  event.releases = true → state.owners = 1 → state.ping.isPending = false

instance (state : State) (event : Event) : Decidable (state.Outlives event) :=
  inferInstanceAs (Decidable (_ → _ → _))

theorem next_refines {lease : Lease} (represents : before.Represents lease)
    (outlives : before.Outlives event) (stepped : before.next event = some after) :
    ∃ moved : Lease, lease.Moves moved ∧ after.Represents moved := by
  obtain ⟨owned, borrowed⟩ := represents
  cases next_effect stepped with
  | idle owners pending _ =>
    exact ⟨lease, .stay _, owned.trans owners.symm, borrowed.trans pending.symm⟩
  | finish owners pending _ =>
    exact ⟨lease.giveBack, .giveBack _, owned.trans owners.symm, pending.symm⟩
  | spawn alive owners pending _ =>
    have alive : 0 < lease.owners := by rwa [owned]
    exact ⟨lease.borrow alive, .borrow _ _, owned.trans owners.symm, pending.symm⟩
  | lock _ owners ping _ =>
    refine ⟨lease.own, .own _, ?_, ?_⟩
    · rw [Lease.own_owners, owned, owners]
    · rw [Lease.own_borrowed, borrowed, ping]
  | release released releases owners ping _ result =>
    have spare : lease.owners = 1 → lease.borrowed = false := by
      rw [owned, borrowed]
      exact outlives releases
    have alive : 0 < lease.owners := by omega
    refine ⟨lease.disown spare alive, .disown _ _ _, ?_, ?_⟩
    · rw [Lease.disown_owners, result, release_owners]
      omega
    · rw [Lease.disown_borrowed, borrowed, result, release_ping, ping]
  | vanish owners pending _ => exact ⟨lease.vanish, .vanish _, owners.symm, pending.symm⟩

theorem reaches_represents {ssl : Bool}
    (reached : Transition.Reaches State.next State.Outlives (.started ssl) state) :
    ∃ lease : Lease, state.Represents lease := by
  refine Transition.Reaches.invariant (fun state => ∃ lease : Lease, state.Represents lease) ?_ ?_
    reached
  · exact ⟨⟨2, false, Bool.noConfusion⟩, rfl, rfl⟩
  · rintro before event after ⟨lease, represents⟩ outlives stepped
    obtain ⟨moved, _, represented⟩ := next_refines represents outlives stepped
    exact ⟨moved, represented⟩

/-- In every run in which the connection outlives its `sendPing`, each step of `sendPing`
finds an owner, and the destructor has not run. -/
theorem ping_finds_owner (ssl : Bool) (state : State)
    (reached : Transition.Reaches State.next State.Outlives (.started ssl) state) (step : PingStep)
    (after : State) (stepped : state.next (.sendPing step) = some after) :
    0 < state.owners ∧ state.destroyed = false := by
  obtain ⟨lease, represents⟩ := reaches_represents reached
  have owned := lease.covered (represents.borrowed.trans (sendPing_pending stepped))
  rw [represents.owners] at owned
  have gone := destroyed_iff (reached.weaken fun _ _ _ => trivial)
  refine ⟨owned, ?_⟩
  cases destroyed : state.destroyed with
  | false => rfl
  | true =>
    have none := gone.mp destroyed
    omega

theorem pending_steps (pending : state.ping.isPending = true) :
    ∃ step after, state.sendPing step = some after := by
  cases ping : state.ping with
  | unspawned | ended => simp [ping, Ping.isPending] at pending
  | spawned | looping | woken => exact ⟨.checks true, by simp [State.sendPing, ping]⟩
  | sleeping => exact ⟨.intervalTimer .expired, by simp [State.sendPing, ping]⟩
  | pinging => exact ⟨.asyncPing false, by simp [State.sendPing, ping]⟩
  | waiting => exact ⟨.pingTimer .aborted true, by simp [State.sendPing, ping]⟩
  | closing => exact ⟨.close, by simp [State.sendPing, ping]⟩

/-- The condition cannot be relaxed: a step that breaks it leaves a `sendPing` that goes
on without any owner. -/
theorem not_outlives_strands (broken : ¬ before.Outlives event)
    (stepped : before.next event = some after) :
    after.owners = 0 ∧ ∃ step later, after.next (.sendPing step) = some later := by
  obtain ⟨releases, last, pending⟩ : event.releases = true ∧ before.owners = 1 ∧
      before.ping.isPending = true := by
    simpa [State.Outlives] using broken
  obtain ⟨released, owners, ping, _, rfl⟩ := next_released releases stepped
  rw [release_owners]
  refine ⟨by omega, pending_steps ?_⟩
  rw [release_ping, ping]
  exact pending

/-- The client connects and its handle opens; `sendPing` sleeps through its interval. -/
def opened : List Event :=
  [.leaveScope, .readLoop .start, .readLoop (.websocketHandshake true),
    .readLoop (.createHandle true), .readLoop (.onOpen true), .sendPing (.checks true),
    .sendPing (.checks true)]

def asleep : State := ⟨false, false, .reading, 0, .sleeping, true, false, false⟩

theorem ping_finds_owner_asleep : 0 < asleep.owners ∧ asleep.destroyed = false :=
  ping_finds_owner false asleep (.of_execute opened (by decide +kernel)) (.intervalTimer .expired)
    { asleep with ping := .woken } (by decide)

/-- The client disconnects, and `readLoop` returns, while `sendPing` sleeps. -/
def disconnected : List Event :=
  opened ++ [.readLoop (.read .error), .readLoop .onClose, .readLoop .frameDestroyed]

/-- The interval timer wakes `sendPing` after the destructor has run. -/
theorem ping_resumes_after_destructor :
    ¬ ∀ (ssl : Bool) (state : State) (step : PingStep) (after : State),
      Transition.Reaches State.next (fun _ event => event ≠ .ioContextDestroyed) (.started ssl) state →
      state.next (.sendPing step) = some after →
      0 < state.owners ∧ state.destroyed = false := by
  intro owned
  have alive := owned false ⟨false, false, .finished, 0, .sleeping, true, true, true⟩
    (.intervalTimer .expired) ⟨false, false, .finished, 0, .woken, true, true, true⟩
    (.of_execute disconnected (by decide +kernel)) (by decide)
  exact absurd alive.1 (by decide)

end Hku.WebSocketConnection
