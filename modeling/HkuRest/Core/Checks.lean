import Mathlib.Order.Basic

/-! Checks that are made one after the other until one of them fails, by functions that recur as
often as their fuel allows. Checks that have ended stay as they ended with more fuel. -/

/-- How the checks end: not within the fuel, with a message, or without one. -/
abbrev Checks (ε : Type) := Option (Except ε Unit)

namespace Checks

variable {ε ι : Type} {first next other further : Checks ε} {list : List ι} {step longer : ι → Checks ε}

def accepted : Checks ε := some (.ok ())

def rejected (message : ε) : Checks ε := some (.error message)

def andThen (first next : Checks ε) : Checks ε :=
  match first with
  | some (.ok ()) => next
  | stopped => stopped

/-- The checks of a loop. -/
def each (list : List ι) (step : ι → Checks ε) : Checks ε :=
  list.foldr (fun item rest => (step item).andThen rest) accepted

@[simp] theorem rejected_ne_accepted (message : ε) : rejected message ≠ accepted := by
  simp [rejected, accepted]

@[simp] theorem accepted_andThen (next : Checks ε) : andThen accepted next = next := rfl

@[simp] theorem rejected_andThen (message : ε) (next : Checks ε) :
    andThen (rejected message) next = rejected message := rfl

@[simp] theorem each_nil (step : ι → Checks ε) : each [] step = accepted := rfl

@[simp] theorem each_cons (item : ι) (list : List ι) (step : ι → Checks ε) :
    each (item :: list) step = (step item).andThen (each list step) := rfl

@[simp] theorem andThen_accepted_iff : first.andThen next = accepted ↔ first = accepted ∧ next = accepted := by
  rcases first with _ | (_ | _) <;> simp [andThen, accepted]

@[simp] theorem each_accepted_iff : each list step = accepted ↔ ∀ item ∈ list, step item = accepted := by
  induction list with
  | nil => simp
  | cons item list ih => simp [ih]

theorem andThen_isSome (ended : first.isSome = true) (later : next.isSome = true) :
    (first.andThen next).isSome = true := by
  rcases first with _ | (_ | _)
  · cases ended
  · rfl
  · exact later

theorem each_isSome (ended : ∀ item ∈ list, (step item).isSome = true) : (each list step).isSome = true := by
  induction list with
  | nil => rfl
  | cons item list ih =>
    obtain ⟨here, others⟩ := List.forall_mem_cons.mp ended
    exact andThen_isSome here (ih others)

theorem ite_isSome {condition : Prop} [Decidable condition] (ended : first.isSome = true)
    (later : next.isSome = true) : (if condition then first else next).isSome = true := by
  split
  · exact ended
  · exact later

/-- If the one has ended, so has the other, in the same way. -/
def Settles (first other : Checks ε) : Prop := first.isSome = true → other = first

theorem Settles.refl (first : Checks ε) : Settles first first := fun _ => rfl

theorem Settles.none (other : Checks ε) : Settles none other := fun ended => Bool.noConfusion ended

theorem Settles.andThen (one : Settles first other) (two : Settles next further) :
    Settles (first.andThen next) (other.andThen further) := by
  intro ended
  rcases first with _ | (_ | _)
  · cases ended
  · rw [one rfl]
    rfl
  · rw [one rfl]
    exact two ended

theorem Settles.each (steps : ∀ item ∈ list, Settles (step item) (longer item)) :
    Settles (each list step) (each list longer) := by
  induction list with
  | nil => exact .refl _
  | cons item list ih =>
    obtain ⟨here, others⟩ := List.forall_mem_cons.mp steps
    exact here.andThen (ih others)

theorem Settles.ite {condition : Prop} [Decidable condition] (one : Settles first other)
    (two : Settles next further) :
    Settles (if condition then first else next) (if condition then other else further) := by
  split
  · exact one
  · exact two

end Checks
