import HkuRest.Core.Transition

/-! Two runs of one machine, of which the second lacks the events that an observer must not
notice. `alike` is what he can see of a state. If hidden events change nothing of it, and
every other event does the same to alike states, he cannot tell the runs apart. -/

namespace Transition

variable {State Event : Type}

/-- The two conditions, each about one step. -/
structure Unwinding (next : State → Event → Option State) (hidden : Event → Bool)
    (alike : State → State → Prop) : Prop where
  respects : ∀ {before after other : State} {event : Event}, hidden event = true →
    next before event = some after → alike before other → alike after other
  consistent : ∀ {before after other : State} {event : Event}, hidden event = false →
    next before event = some after → alike before other →
      ∃ final, next other event = some final ∧ alike after final

namespace Unwinding

variable {next : State → Event → Option State} {hidden : Event → Bool}
  {alike : State → State → Prop} {start other last : State}

/-- The events that are not hidden run by themselves, to a state that looks the same. -/
theorem execute_filter (unwinding : Unwinding next hidden alike) {events : List Event}
    (ran : execute next start events = some last) (same : alike start other) :
    ∃ final, execute next other (events.filter fun event => !hidden event) = some final ∧
      alike last final := by
  induction events generalizing start other with
  | nil =>
    cases ran
    exact ⟨other, rfl, same⟩
  | cons event rest ih =>
    obtain ⟨middle, stepped, ran⟩ := Option.bind_eq_some_iff.mp ran
    cases secret : hidden event with
    | true =>
      rw [List.filter_cons_of_neg (by simp [secret])]
      exact ih ran (unwinding.respects secret stepped same)
    | false =>
      rw [List.filter_cons_of_pos (by simp [secret])]
      obtain ⟨between, taken, still⟩ := unwinding.consistent secret stepped same
      obtain ⟨final, rest_ran, alike_end⟩ := ih ran still
      refine ⟨final, ?_, alike_end⟩
      simp only [execute, taken, Option.bind_some, rest_ran]

end Unwinding

end Transition
