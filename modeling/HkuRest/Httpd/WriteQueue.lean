import HkuRest.Core.Pool
import HkuRest.Httpd.WebSocketIo
import Mathlib.Algebra.Group.Nat.Defs

/-! `WebSocketConnection::send`, called by several threads at once. A step is one atomic
operation on `m_write_queue_size`, or runs up to the next suspension. The size is tested
and incremented by two operations, so the limit holds only if nobody comes in between. -/

namespace Hku.WriteQueue

/-- A call of `send`: which step comes next, and once the write is over whether it failed. -/
inductive Send
  | called
  | opened
  | refusing
  | admitted
  | counted
  | writing
  | written (failed : Bool)
  | uncounted (failed : Bool)
  | returned (sent : Bool)
  deriving DecidableEq, Repr

/-- Between the increment and the decrement. -/
def Send.queued : Send → Bool
  | .counted | .writing | .written _ => true
  | _ => false

inductive Action
  | isOpen (answer : Bool)
  | advance
  /-- `async_write` completes. -/
  | complete (failed : Bool)
  deriving DecidableEq, Repr

/-- One step of a call, given `m_write_queue_size`, a `std::atomic<std::size_t>`. -/
def Send.act (size : Nat) : Send → Action → Option (Send × Nat)
  | .called, .isOpen answer => some (if answer then .opened else .returned false, size)
  | .opened, .advance =>
      some (if WebSocketConfig.MAX_WRITE_QUEUE_SIZE ≤ size then .refusing else .admitted, size)
  -- the size is loaded once more for the log
  | .refusing, .advance => some (.returned false, size)
  | .admitted, .advance => some (.counted, (size + 1) % 2 ^ 64)
  | .counted, .advance => some (.writing, size)
  | .writing, .complete failed => some (.written failed, size)
  | .written failed, .advance => some (.uncounted failed, (size + (2 ^ 64 - 1)) % 2 ^ 64)
  | .uncounted failed, .advance => some (.returned (!failed), size)
  | _, _ => none

structure State where
  writeQueueSize : Nat
  sends : List Send
  deriving DecidableEq, Repr

def State.initial : State := ⟨0, []⟩

inductive Event
  | send
  | act (i : Nat) (action : Action)
  deriving DecidableEq, Repr

namespace State

def next (state : State) : Event → Option State
  | .send => some { state with sends := state.sends ++ [.called] }
  | .act i action =>
      (state.sends[i]?.bind fun send => send.act state.writeQueueSize action).map fun (send, size) =>
        ⟨size, state.sends.set i send⟩

def queued (state : State) : Nat := Pool.tally Send.queued state.sends

/-- The calls that have been let in by their test and have not counted themselves yet. -/
def admitted (state : State) : Nat := Pool.tally (· = .admitted) state.sends

/-- The size is the number of queued messages, and within the limit. -/
structure Accounted (state : State) : Prop where
  size : state.writeQueueSize = state.queued
  bounded : state.writeQueueSize ≤ WebSocketConfig.MAX_WRITE_QUEUE_SIZE

/-- A call that increments the size finds it as its test found it: below the limit. -/
def FindsRoom (state : State) : Event → Prop
  | .send => True
  | .act i _ =>
      state.sends[i]? = some .admitted → state.writeQueueSize < WebSocketConfig.MAX_WRITE_QUEUE_SIZE

/-- No call tests the size while another is between its test and its increment. -/
def Undivided (state : State) : Event → Prop
  | .send => True
  | .act i _ => state.sends[i]? = some .opened → state.admitted = 0

end State

variable {state before after : State} {event : Event} {send later : Send} {action : Action}
  {size result i : Nat}

/-- Two steps change the size, and one decides on it. -/
inductive Moves (size : Nat) (send : Send) (action : Action) : Send → Nat → Prop
  | keep (later : Send) (queued : later.queued = send.queued) (before : send ≠ .admitted)
      (after : later ≠ .admitted) : Moves size send action later size
  | admits (advances : action = .advance) (opened : send = .opened)
      (room : size < WebSocketConfig.MAX_WRITE_QUEUE_SIZE) : Moves size send action .admitted size
  | count (advances : action = .advance) (admitted : send = .admitted) :
      Moves size send action .counted ((size + 1) % 2 ^ 64)
  | uncount (failed : Bool) (written : send = .written failed) :
      Moves size send action (.uncounted failed) ((size + (2 ^ 64 - 1)) % 2 ^ 64)

theorem act_moves (acted : send.act size action = some (later, result)) :
    Moves size send action later result := by
  cases action with
  | isOpen answer =>
    cases send with
    | called =>
      cases acted
      cases answer <;> exact .keep _ rfl nofun nofun
    | _ => cases acted
  | complete failed =>
    cases send with
    | writing =>
      cases acted
      exact .keep _ rfl nofun nofun
    | _ => cases acted
  | advance =>
    cases send with
    | opened =>
      simp only [Send.act, Option.some.injEq, Prod.mk.injEq] at acted
      obtain ⟨rfl, rfl⟩ := acted
      split
      · exact .keep _ rfl nofun nofun
      · rename_i room
        exact .admits rfl rfl (Nat.lt_of_not_le room)
    | admitted =>
      cases acted
      exact .count rfl rfl
    | written failed =>
      cases acted
      exact .uncount failed rfl
    | refusing | counted | uncounted =>
      cases acted
      exact .keep _ rfl nofun nofun
    | called | writing | returned => cases acted

theorem next_act (stepped : before.next (.act i action) = some after) :
    ∃ send later size, before.sends[i]? = some send ∧
      Moves before.writeQueueSize send action later size ∧ after = ⟨size, before.sends.set i later⟩ := by
  simp only [State.next, Option.map_eq_some_iff, Option.bind_eq_some_iff] at stepped
  obtain ⟨⟨later, size⟩, ⟨send, found, acted⟩, rfl⟩ := stepped
  exact ⟨send, later, size, found, act_moves acted, rfl⟩

/-- In whatever order the steps of the calls come, and whichever way they leave `send`: the
size is the number of queued messages, up to the width of the counter. -/
theorem next_size (size : before.writeQueueSize = before.queued % 2 ^ 64)
    (stepped : before.next event = some after) : after.writeQueueSize = after.queued % 2 ^ 64 := by
  cases event with
  | send =>
    cases stepped
    simpa [State.queued, Send.queued] using size
  | act i action =>
    obtain ⟨send, later, result, found, moves, rfl⟩ := next_act stepped
    have tally := Pool.tally_set Send.queued found later
    simp only [State.queued] at size ⊢
    cases moves with
    | keep _ queued =>
      rw [queued] at tally
      omega
    | admits _ opened =>
      subst opened
      simp only [Send.queued, Bool.toNat_false] at tally
      omega
    | count _ admitted =>
      subst admitted
      simp only [Send.queued, Bool.toNat_false, Bool.toNat_true] at tally
      omega
    | uncount failed written =>
      subst written
      simp only [Send.queued, Bool.toNat_false, Bool.toNat_true] at tally
      omega

theorem queue_counted (state : State)
    (reached : Transition.Reaches State.next (fun _ _ => True) .initial state) :
    state.writeQueueSize = state.queued % 2 ^ 64 :=
  reached.invariant (fun state => state.writeQueueSize = state.queued % 2 ^ 64) rfl
    fun _ _ _ size _ => next_size size

theorem next_queued (stepped : before.next event = some after) : after.queued ≤ before.queued + 1 := by
  cases event with
  | send =>
    cases stepped
    simp [State.queued, Send.queued]
  | act i action =>
    obtain ⟨send, later, result, found, _, rfl⟩ := next_act stepped
    have tally := Pool.tally_set Send.queued found later
    have joins := Bool.toNat_le later.queued
    simp only [State.queued]
    omega

theorem accounted_of_bounded (accounted : before.Accounted) (stepped : before.next event = some after)
    (bounded : after.writeQueueSize ≤ WebSocketConfig.MAX_WRITE_QUEUE_SIZE) : after.Accounted := by
  obtain ⟨exactly, within⟩ := accounted
  have grown := next_queued stepped
  have size := next_size (by simp only [WebSocketConfig.MAX_WRITE_QUEUE_SIZE] at within; omega) stepped
  simp only [WebSocketConfig.MAX_WRITE_QUEUE_SIZE] at within
  exact ⟨by omega, bounded⟩

/-- The one step that can exceed the limit is an increment. -/
theorem next_bounded (accounted : before.Accounted) (stepped : before.next event = some after) :
    after.writeQueueSize ≤ WebSocketConfig.MAX_WRITE_QUEUE_SIZE ↔ before.FindsRoom event := by
  obtain ⟨size, bounded⟩ := accounted
  cases event with
  | send =>
    cases stepped
    exact iff_of_true bounded trivial
  | act i action =>
    obtain ⟨send, later, result, found, moves, rfl⟩ := next_act stepped
    have same : before.FindsRoom (.act i action) ↔
        (send = .admitted → before.writeQueueSize < WebSocketConfig.MAX_WRITE_QUEUE_SIZE) := by
      simp [State.FindsRoom, found]
    rw [same]
    cases moves with
    | keep _ _ other => exact iff_of_true bounded fun admitted => absurd admitted other
    | admits _ opened => exact iff_of_true bounded fun admitted => by cases opened.symm.trans admitted
    | count _ admitted =>
      simp only [WebSocketConfig.MAX_WRITE_QUEUE_SIZE] at bounded ⊢
      have unwrapped : (before.writeQueueSize + 1) % 2 ^ 64 = before.writeQueueSize + 1 :=
        Nat.mod_eq_of_lt (by omega)
      rw [unwrapped]
      exact ⟨fun within _ => within, fun room => room admitted⟩
    | uncount failed written =>
      refine iff_of_true ?_ fun admitted => by cases written.symm.trans admitted
      have queued : 0 < Pool.tally Send.queued before.sends := Pool.tally_pos found (by rw [written]; rfl)
      simp only [State.queued] at size
      simp only [WebSocketConfig.MAX_WRITE_QUEUE_SIZE] at bounded ⊢
      omega

/-- Along every run of any number of calls: the size is the number of queued messages and
within the limit, exactly when each call that increments it finds it below the limit. -/
theorem queue_bounded_iff (events : List Event) :
    Transition.Along State.next (fun _ _ after => after.Accounted) .initial events ↔
      Transition.Along State.next (fun before event _ => before.FindsRoom event) .initial events := by
  refine Transition.along_iff State.Accounted ⟨rfl, Nat.zero_le _⟩ ?_ ?_ events
  · intro before event after _ _ accounted
    exact accounted
  · intro before event after accounted stepped
    rw [← next_bounded accounted stepped]
    constructor
    · intro kept
      exact kept.bounded
    · intro bounded
      exact accounted_of_bounded accounted stepped bounded

abbrev Reached : State → Prop := Transition.Reaches State.next (fun _ _ => True) .initial

variable {front back sends : List Send}

theorem Reached.call (reached : Reached ⟨size, sends⟩) : Reached ⟨size, sends ++ [.called]⟩ :=
  have joins : State.next ⟨size, sends⟩ .send = some ⟨size, sends ++ [.called]⟩ := rfl
  Transition.Reaches.step reached trivial joins

theorem Reached.act (reached : Reached ⟨size, front ++ send :: back⟩)
    (acted : send.act size action = some (later, result)) :
    Reached ⟨result, front ++ later :: back⟩ := by
  have stepped : State.next ⟨size, front ++ send :: back⟩ (.act front.length action) =
      some ⟨result, front ++ later :: back⟩ := by
    simp [State.next, acted]
  exact Transition.Reaches.step reached trivial stepped

theorem Reached.admits (reached : Reached ⟨size, front ++ .called :: back⟩)
    (room : size < WebSocketConfig.MAX_WRITE_QUEUE_SIZE) :
    Reached ⟨size, front ++ .admitted :: back⟩ := by
  have opens : Send.act size .called (.isOpen true) = some (.opened, size) := rfl
  have admits : Send.act size .opened .advance = some (.admitted, size) := by
    simp [Send.act, Nat.not_le_of_lt room]
  exact (reached.act opens).act admits

theorem Reached.count (reached : Reached ⟨size, front ++ .admitted :: back⟩)
    (room : size ≤ WebSocketConfig.MAX_WRITE_QUEUE_SIZE) :
    Reached ⟨size + 1, front ++ .counted :: back⟩ := by
  have fits : (size + 1) % 2 ^ 64 = size + 1 := by
    simp only [WebSocketConfig.MAX_WRITE_QUEUE_SIZE] at room
    omega
  have counts : Send.act size .admitted .advance = some (.counted, size + 1) :=
    congrArg (fun result => some (Send.counted, result)) fits
  exact reached.act counts

theorem reached_writing (n : Nat) (room : n ≤ WebSocketConfig.MAX_WRITE_QUEUE_SIZE) :
    Reached ⟨n, List.replicate n .writing⟩ := by
  induction n with
  | zero => exact .refl
  | succ n ih =>
    have writes : Send.act (n + 1) .counted .advance = some (.writing, n + 1) := rfl
    have counted := ((ih (Nat.le_of_lt room)).call.admits room).count (Nat.le_of_lt room)
    rw [List.replicate_succ']
    exact counted.act writes

/-- Two more calls test the size when one slot is left, and both take it. -/
theorem reached_beyond : Reached ⟨3001, List.replicate 2999 .writing ++ [.counted, .counted]⟩ := by
  have first := (reached_writing 2999 (by decide)).call.admits (by decide)
  have both := first.call.admits (by decide)
  rw [List.append_assoc, List.singleton_append] at both
  have counted := both.count (by decide)
  rw [← List.singleton_append, ← List.append_assoc] at counted
  have twice := counted.count (by decide)
  rwa [List.append_assoc] at twice

/-- The size is one above the limit. -/
theorem write_queue_exceeded : ¬ ∀ state : State, Reached state → state.Accounted := by
  intro accounted
  exact absurd (accounted _ reached_beyond).bounded (by decide)

/-- At most one call has been let in, and there is room for it. -/
structure State.Orderly (state : State) : Prop where
  accounted : state.Accounted
  alone : state.admitted ≤ 1
  room : 0 < state.admitted → state.writeQueueSize < WebSocketConfig.MAX_WRITE_QUEUE_SIZE

theorem orderly_finds_room (orderly : state.Orderly) (event : Event) : state.FindsRoom event := by
  cases event with
  | send => trivial
  | act i action =>
    intro admitted
    exact orderly.room (Pool.tally_pos admitted (by simp))

theorem next_orderly (orderly : before.Orderly) (undivided : before.Undivided event)
    (stepped : before.next event = some after) : after.Orderly := by
  have finds := orderly_finds_room orderly event
  have bounded := (next_bounded orderly.accounted stepped).mpr finds
  have accounted := accounted_of_bounded orderly.accounted stepped bounded
  obtain ⟨⟨size, limited⟩, alone, room⟩ := orderly
  suffices orderly : after.admitted ≤ 1 ∧
      (0 < after.admitted → after.writeQueueSize < WebSocketConfig.MAX_WRITE_QUEUE_SIZE) from
    ⟨accounted, orderly.1, orderly.2⟩
  cases event with
  | send =>
    cases stepped
    simpa [State.admitted] using ⟨alone, room⟩
  | act i action =>
    obtain ⟨send, later, result, found, moves, rfl⟩ := next_act stepped
    have tally := Pool.tally_set (· = .admitted) found later
    simp only [State.admitted] at alone room ⊢
    cases moves with
    | keep _ _ before after =>
      simp only [before, after, decide_false, Bool.toNat_false, Nat.add_zero] at tally
      rw [tally]
      exact ⟨alone, room⟩
    | admits _ opened free =>
      subst opened
      have nobody : Pool.tally (· = .admitted) before.sends = 0 := undivided found
      simp [nobody] at tally
      exact ⟨Nat.le_of_eq tally, fun _ => free⟩
    | count _ admitted =>
      subst admitted
      simp at tally
      exact ⟨by omega, fun another => by omega⟩
    | uncount failed written =>
      have queued : 0 < Pool.tally Send.queued before.sends := Pool.tally_pos found (by rw [written]; rfl)
      subst written
      simp at tally
      rw [tally]
      refine ⟨alone, fun _ => ?_⟩
      simp only [State.queued] at size
      simp only [WebSocketConfig.MAX_WRITE_QUEUE_SIZE] at limited ⊢
      omega

/-- When the test and the increment of one call are not divided by the test of another, as on
a single thread, the limit holds. -/
theorem queue_bounded (state : State)
    (reached : Transition.Reaches State.next State.Undivided .initial state) : state.Accounted := by
  have orderly : state.Orderly := by
    refine reached.invariant State.Orderly ⟨⟨rfl, Nat.zero_le _⟩, Nat.zero_le _, ?_⟩ ?_
    · intro another
      cases another
    · intro before event after orderly undivided stepped
      exact next_orderly orderly undivided stepped
  exact orderly.accounted

end Hku.WriteQueue
