/-! Runs of a machine that answers each event with its next state, or refuses
it. `Reaches` is restricted to steps that a guard allows in the state they are
taken from, and carries the one induction every safety result needs; `Along`
looks at every step of one list of events. -/

namespace Transition

variable {State Event : Type}

/-- The state after the events, when the machine accepts each in its turn. -/
def execute (next : State → Event → Option State) : State → List Event → Option State
  | state, [] => some state
  | state, event :: rest => (next state event).bind fun middle => execute next middle rest

inductive Reaches (next : State → Event → Option State) (allowed : State → Event → Prop)
    (start : State) : State → Prop
  | refl : Reaches next allowed start start
  | step {middle last : State} {event : Event} : Reaches next allowed start middle →
      allowed middle event → next middle event = some last → Reaches next allowed start last

variable {next : State → Event → Option State} {allowed weaker : State → Event → Prop}
  {start middle last : State}

/-- What holds initially and survives every allowed step holds of every state reached. -/
theorem Reaches.invariant (inv : State → Prop) (initial : inv start)
    (preserved : ∀ before event after, inv before → allowed before event →
      next before event = some after → inv after)
    (reached : Reaches next allowed start last) : inv last := by
  induction reached with
  | refl => exact initial
  | step _ permitted stepped ih => exact preserved _ _ _ ih permitted stepped

theorem Reaches.weaken (implies : ∀ state event, allowed state event → weaker state event)
    (reached : Reaches next allowed start last) : Reaches next weaker start last := by
  induction reached with
  | refl => exact .refl
  | step _ permitted stepped ih => exact .step ih (implies _ _ permitted) stepped

theorem Reaches.trans (first : Reaches next allowed start middle)
    (second : Reaches next allowed middle last) : Reaches next allowed start last := by
  induction second with
  | refl => exact first
  | step _ permitted stepped ih => exact .step ih permitted stepped

theorem Reaches.of_execute [∀ state event, Decidable (allowed state event)] (events : List Event)
    (executed : execute (fun state event => if allowed state event then next state event else none)
      start events = some last) : Reaches next allowed start last := by
  induction events generalizing start with
  | nil =>
    cases executed
    exact .refl
  | cons event rest ih =>
    simp only [execute, Option.bind_eq_some_iff] at executed
    obtain ⟨middle, stepped, tail⟩ := executed
    split at stepped
    · rename_i permitted
      exact (Reaches.step .refl permitted stepped).trans (ih tail)
    · cases stepped

theorem execute_cons {event : Event} (stepped : next start event = some middle)
    (rest : List Event) : execute next start (event :: rest) = execute next middle rest := by
  rw [execute, stepped, Option.bind_some]

/-- What follows the machine from step to step follows it over a whole run. -/
theorem execute_foldl {Track : Type} {follows : State → Track → Prop} {track : Track → Event → Track}
    (kept : ∀ before event after tracked, follows before tracked →
      next before event = some after → follows after (track tracked event)) {events : List Event}
    {tracked : Track} (initial : follows start tracked)
    (ran : execute next start events = some last) : follows last (events.foldl track tracked) := by
  induction events generalizing start tracked with
  | nil =>
    cases ran
    exact initial
  | cons event rest ih =>
    obtain ⟨middle, stepped, ran⟩ := Option.bind_eq_some_iff.mp ran
    exact ih (kept start event middle tracked initial stepped) ran

/-- Every step that the events take, as long as the machine accepts them, has the property. -/
def Along (next : State → Event → Option State) (property : State → Event → State → Prop) :
    State → List Event → Prop
  | _, [] => True
  | state, event :: rest =>
      ∀ after, next state event = some after → property state event after ∧
        Along next property after rest

theorem Along.step {property : State → Event → State → Prop} {earlier later : List Event} {event : Event}
    (along : Along next property start (earlier ++ event :: later))
    (ran : execute next start earlier = some middle) (stepped : next middle event = some last) :
    property middle event last := by
  induction earlier generalizing start with
  | nil =>
    cases ran
    exact (along last stepped).1
  | cons first rest ih =>
    obtain ⟨second, began, ran⟩ := Option.bind_eq_some_iff.mp ran
    exact ih (along second began).2 ran

/-- Two properties that agree on every step from a state with the invariant, which both
keep, hold along the same runs. -/
theorem along_iff (inv : State → Prop) {one other : State → Event → State → Prop} (initial : inv start)
    (kept : ∀ before event after, inv before → next before event = some after →
      one before event after → inv after)
    (agree : ∀ before event after, inv before → next before event = some after →
      (one before event after ↔ other before event after)) (events : List Event) :
    Along next one start events ↔ Along next other start events := by
  induction events generalizing start with
  | nil => exact Iff.rfl
  | cons event rest ih =>
    simp only [Along]
    refine forall₂_congr fun after stepped => ?_
    rw [agree start event after initial stepped]
    refine and_congr_right fun held => ?_
    exact ih (kept start event after initial stepped ((agree start event after initial stepped).mpr held))

end Transition
