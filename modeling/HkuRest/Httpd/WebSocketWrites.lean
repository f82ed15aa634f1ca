import HkuRest.Httpd.WebSocketIo

/-! The writes of `send`. The counter bounds how many there are at a time, but nothing
makes one wait for another. Operations are numbered as they begin, so as long as every
write begins alone the stream takes its pieces in the order of their numbers. -/

namespace Hku.WebSocketIo

variable {state before after : State} {event : Event} {id : Nat}

/-- Between two pieces of one message there is none of another. -/
def Contiguous (stream : List Nat) : Prop :=
  ∀ (id : Nat) (first between last : List Nat), stream = first ++ id :: (between ++ id :: last) →
    ∀ other ∈ between, other = id

structure State.Exclusive (state : State) : Prop where
  single : ∀ one other, state.isWriting one = true → state.isWriting other = true → one = other
  contiguous : Contiguous state.stream

/-- A write begins only when none is outstanding. -/
def State.WritesAlone (state : State) (event : Event) : Prop :=
  ∀ isOpen, event = .send isOpen → state.accepts isOpen = true → ∀ id, state.isWriting id = false

theorem contiguous_of_sorted {stream : List Nat} (sorted : stream.Pairwise (· ≤ ·)) :
    Contiguous stream := by
  rintro id first between last rfl other member
  obtain ⟨_, tail, _⟩ := List.pairwise_append.mp sorted
  obtain ⟨above, rest⟩ := List.pairwise_cons.mp tail
  obtain ⟨_, _, below⟩ := List.pairwise_append.mp rest
  have lower := above other (by simp [member])
  have upper := below other member id (by simp)
  omega

/-- The invariant: what the stream holds is of the outstanding write or of earlier ones. -/
structure State.Ordered (state : State) : Prop where
  single : ∀ one other, state.isWriting one = true → state.isWriting other = true → one = other
  latest : ∀ id, state.isWriting id = true → ∀ piece ∈ state.stream, piece ≤ id
  begun : ∀ piece ∈ state.stream, piece < state.operations.length
  sorted : state.stream.Pairwise (· ≤ ·)

theorem started_ordered (ssl : Bool) : (State.started ssl).Ordered := by
  constructor
  · intro one other writing
    cases writing
  · intro id writing
    cases writing
  · intro piece member
    cases member
  · exact .nil

theorem State.Ordered.exclusive (ordered : state.Ordered) : state.Exclusive :=
  ⟨ordered.single, contiguous_of_sorted ordered.sorted⟩

theorem isWriting_iff : state.isWriting id = true ↔
    ∃ operation, state.operations[id]? = some operation ∧ operation.isWriting = true :=
  Option.any_eq_true _ _

theorem isWriting_bound (writing : state.isWriting id = true) : id < state.operations.length := by
  obtain ⟨operation, known, _⟩ := isWriting_iff.mp writing
  exact (List.getElem?_eq_some_iff.mp known).1

theorem isWriting_congr (operations : after.operations = before.operations) :
    after.isWriting id = before.isWriting id := by
  rw [State.isWriting, operations, State.isWriting]

theorem isWriting_append {operation : Operation}
    (operations : after.operations = before.operations ++ [operation]) (writing : after.isWriting id = true) :
    before.isWriting id = true ∨ id = before.operations.length ∧ operation.isWriting = true := by
  obtain ⟨found, known, holds⟩ := isWriting_iff.mp writing
  rw [operations, List.getElem?_append] at known
  split at known
  · exact .inl (isWriting_iff.mpr ⟨found, known, holds⟩)
  · rename_i beyond
    obtain ⟨last, same⟩ := List.getElem?_eq_some_iff.mp known
    rw [List.length_singleton] at last
    rw [List.getElem_singleton] at same
    exact .inr ⟨by omega, same ▸ holds⟩

theorem isWriting_of_complete {ended : Nat}
    (operations : after.operations = before.operations.modify ended ({ · with status := .completed }))
    (writing : after.isWriting id = true) : before.isWriting id = true := by
  by_cases same : ended = id
  · subst same
    rw [State.isWriting, operations, List.getElem?_modify_eq] at writing
    cases known : before.operations[ended]? <;> rw [known] at writing <;> cases writing
  · rwa [State.isWriting, operations, List.getElem?_modify_ne _ _ same] at writing

theorem isWriting_of_abort (operations : after.operations = before.operations.map Operation.abort) :
    after.isWriting id = false := by
  rw [State.isWriting, operations, List.getElem?_map]
  cases before.operations[id]? with
  | none => rfl
  | some operation =>
    simp only [Option.map_some, Option.any_some, Operation.isWriting, Operation.abort]
    split
    · rfl
    · rename_i ended
      rw [Bool.eq_false_iff.mpr ended, Bool.false_and]

theorem State.Ordered.of_fewer (ordered : before.Ordered)
    (fewer : ∀ id, after.isWriting id = true → before.isWriting id = true)
    (longer : before.operations.length ≤ after.operations.length)
    (stream : after.stream = before.stream) : after.Ordered := by
  constructor
  · intro one other first second
    exact ordered.single one other (fewer one first) (fewer other second)
  · intro id writing
    rw [stream]
    exact ordered.latest id (fewer id writing)
  · intro piece member
    rw [stream] at member
    exact Nat.lt_of_lt_of_le (ordered.begun piece member) longer
  · rw [stream]
    exact ordered.sorted

theorem State.Ordered.of_write (ordered : before.Ordered) (lone : ∀ id, before.isWriting id = false)
    {operation : Operation} (operations : after.operations = before.operations ++ [operation])
    (stream : after.stream = before.stream) : after.Ordered := by
  have last {id : Nat} (writing : after.isWriting id = true) : id = before.operations.length := by
    rcases isWriting_append operations writing with earlier | ⟨new, _⟩
    · rw [lone id] at earlier
      cases earlier
    · exact new
  constructor
  · intro one other first second
    rw [last first, last second]
  · intro id writing piece member
    rw [stream] at member
    rw [last writing]
    exact Nat.le_of_lt (ordered.begun piece member)
  · intro piece member
    rw [stream] at member
    rw [operations, List.length_append]
    exact Nat.lt_add_right _ (ordered.begun piece member)
  · rw [stream]
    exact ordered.sorted

theorem State.Ordered.of_piece (ordered : before.Ordered) (writing : before.isWriting id = true)
    (operations : after.operations = before.operations) (stream : after.stream = before.stream ++ [id]) :
    after.Ordered := by
  constructor
  · intro one other first second
    rw [isWriting_congr operations] at first second
    exact ordered.single one other first second
  · intro other continues piece member
    rw [isWriting_congr operations] at continues
    rw [stream] at member
    rcases List.mem_append.mp member with earlier | last
    · exact ordered.latest other continues piece earlier
    · have same := ordered.single id other writing continues
      exact Nat.le_of_eq ((List.mem_singleton.mp last).trans same)
  · intro piece member
    rw [stream] at member
    rw [operations]
    rcases List.mem_append.mp member with earlier | last
    · exact ordered.begun piece earlier
    · rw [List.mem_singleton.mp last]
      exact isWriting_bound writing
  · rw [stream]
    refine List.pairwise_append.mpr ⟨ordered.sorted, List.pairwise_singleton _ _, ?_⟩
    intro piece member last same
    rw [List.mem_singleton.mp same]
    exact ordered.latest id writing piece member

theorem next_ordered (ordered : before.Ordered) (alone : before.WritesAlone event)
    (stepped : before.next event = some after) : after.Ordered := by
  cases next_effect stepped with
  | keep operations stream =>
    refine ordered.of_fewer ?_ (Nat.le_of_eq (by rw [operations])) stream
    intro id writing
    rwa [isWriting_congr operations] at writing
  | beginRead operations stream =>
    refine ordered.of_fewer ?_ (by simp [operations]) stream
    intro id writing
    rcases isWriting_append operations writing with earlier | ⟨_, read⟩
    · exact earlier
    · cases read
  | beginWrite isOpen sends accepted operations stream =>
    exact ordered.of_write (alone isOpen sends accepted) operations stream
  | transmit id writing operations stream => exact ordered.of_piece writing operations stream
  | complete id _ operations stream =>
    exact ordered.of_fewer (fun _ => isWriting_of_complete operations)
      (Nat.le_of_eq (by rw [operations, List.length_modify])) stream
  | cancel _ _ _ _ _ _ operations stream =>
    refine ordered.of_fewer ?_ (Nat.le_of_eq (by rw [operations, List.length_map])) stream
    intro id writing
    rw [isWriting_of_abort operations] at writing
    cases writing

theorem exclusive_alone (exclusive : after.Exclusive) (stepped : before.next event = some after) :
    before.WritesAlone event := by
  rintro isOpen rfl accepted id
  simp only [State.next, accepted, if_true, Option.some.injEq] at stepped
  subst stepped
  cases writing : before.isWriting id with
  | false => rfl
  | true =>
    have bound := isWriting_bound writing
    have same := exclusive.single id before.operations.length ?_ ?_
    · omega
    · obtain ⟨operation, known, holds⟩ := isWriting_iff.mp writing
      exact isWriting_iff.mpr ⟨operation, (List.getElem?_append_left bound).trans known, holds⟩
    · exact isWriting_iff.mpr ⟨_, List.getElem?_concat_length, rfl⟩

/-- Along every run, whatever sends there are and however their steps interleave: at most one
write is outstanding after each step, and the messages do not overlap, exactly when each
`send` that begins a write finds none outstanding. -/
theorem writes_exclusive_iff (ssl : Bool) (events : List Event) :
    Transition.Along State.next (fun _ _ after => after.Exclusive) (.started ssl) events ↔
      Transition.Along State.next (fun before event _ => before.WritesAlone event) (.started ssl)
        events := by
  refine Transition.along_iff State.Ordered (started_ordered ssl) ?_ ?_ events
  · intro before event after ordered stepped exclusive
    exact next_ordered ordered (exclusive_alone exclusive stepped) stepped
  · intro before event after ordered stepped
    constructor
    · intro exclusive
      exact exclusive_alone exclusive stepped
    · intro alone
      exact (next_ordered ordered alone stepped).exclusive

/-- Two coroutines push a message each. -/
def pushed : State :=
  ⟨⟨false, false, .reading, 2, .spawned, true, false, false⟩,
    ⟨0, some 30000, [.operation 2], [⟨.operation 0, .aborted⟩, ⟨.operation 1, .aborted⟩]⟩,
    [⟨.read, 0, .pending⟩, ⟨.write, 0, .pending⟩, ⟨.write, 0, .pending⟩], some 0, [1, 2], 2, false, false,
    [1, 2, 1]⟩

theorem pushes_overlap :
    ¬ ∀ (ssl : Bool) (state : State),
      Transition.Reaches State.next (fun _ _ => True) (.started ssl) state → state.Exclusive := by
  intro exclusive
  have alone := exclusive false pushed
    (.of_execute [.connection .leaveScope, .connection (.readLoop .start),
      .connection (.readLoop (.websocketHandshake true)), .connection (.readLoop (.createHandle true)),
      .connection (.readLoop (.onOpen true)), .send true, .send true, .transmit 1, .transmit 2,
      .transmit 1] (by decide +kernel))
  have same := alone.single 1 2 rfl rfl
  cases same

end Hku.WebSocketIo
