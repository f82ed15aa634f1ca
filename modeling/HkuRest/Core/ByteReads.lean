import HkuRest.Core.Bytes

/-! Computations that see an array of bytes only by reading it at an index, together with all
indices that they read. What a loop over an index reads stays inside of the array if every
round does, and it comes to an end if every round goes on further behind. -/

/-- An answer, and the indices that were read for it. -/
def ByteReads (α : Type) : Type := Bytes → α × List Nat

namespace ByteReads

variable {α β : Type} {array : Bytes}

def value (computation : ByteReads α) (array : Bytes) : α := (computation array).1

def indices (computation : ByteReads α) (array : Bytes) : List Nat := (computation array).2

instance : Monad ByteReads where
  pure answer := fun _ => (answer, [])
  bind first next := fun array =>
    let later := next (first array).1 array
    (later.1, (first array).2 ++ later.2)

/-- Behind the end some byte is read, and what it is does not matter. -/
def read (index : Nat) : ByteReads UInt8 := fun array => (array.getD index 0, [index])

/-- Whether this text stands at an index. All of it is read. -/
def spells (start : Nat) (text : Bytes) : ByteReads Bool :=
  fun array => ((array.drop start).take text.length = text, List.range' start text.length)

/-- `condition && later`. -/
def also (condition : Bool) (later : ByteReads Bool) : ByteReads Bool :=
  if condition then later else pure false

@[simp] theorem value_pure (answer : α) (array : Bytes) : (pure answer : ByteReads α).value array = answer := rfl

@[simp] theorem value_bind (first : ByteReads α) (next : α → ByteReads β) (array : Bytes) :
    (first >>= next).value array = (next (first.value array)).value array := rfl

theorem value_ite (condition : Prop) [Decidable condition] (first second : ByteReads α) (array : Bytes) :
    (if condition then first else second).value array =
      if condition then first.value array else second.value array := by
  split <;> rfl

@[simp] theorem value_read (index : Nat) (array : Bytes) :
    (read index).value array = array.getD index 0 := rfl

theorem value_read_of_lt {index : Nat} (held : index < array.length) :
    (read index).value array = array[index] := by
  rw [value_read, List.getD_eq_getElem?_getD, List.getElem?_eq_getElem held, Option.getD_some]

@[simp] theorem value_spells (start : Nat) (text array : Bytes) :
    (spells start text).value array = decide ((array.drop start).take text.length = text) := rfl

@[simp] theorem value_also (condition : Bool) (later : ByteReads Bool) (array : Bytes) :
    (also condition later).value array = (condition && later.value array) := by
  cases condition <;> rfl

/-- All indices that are read are those of the array. -/
def Inside (computation : ByteReads α) (array : Bytes) : Prop :=
  ∀ index ∈ computation.indices array, index < array.length

theorem inside_pure (answer : α) (array : Bytes) : Inside (pure answer) array := by
  intro index member
  cases member

theorem inside_bind {first : ByteReads α} {next : α → ByteReads β} (before : Inside first array)
    (after : Inside (next (first.value array)) array) : Inside (first >>= next) array := by
  intro index member
  rcases List.mem_append.mp member with early | late
  · exact before index early
  · exact after index late

theorem inside_read {index : Nat} (held : index < array.length) : Inside (read index) array := by
  intro other member
  rwa [List.mem_singleton.mp member]

theorem inside_spells {start : Nat} {text : Bytes} (held : start + text.length ≤ array.length) :
    Inside (spells start text) array := by
  intro index member
  have bound := (List.mem_range'_1.mp member).2
  omega

theorem inside_also {condition : Bool} {later : ByteReads Bool}
    (held : condition = true → Inside later array) : Inside (also condition later) array := by
  cases condition with
  | true => exact held rfl
  | false => exact inside_pure false array

/-- A round of a loop leaves it with an answer, or goes on at an index. -/
inductive Round (α : Type)
  | leave (answer : α)
  | goOn (index : Nat)

/-- `while (i < length)`; the loop has no answer where the fuel runs out. -/
def whileBelow (length : Nat) (round : Nat → ByteReads (Round α)) (finish : α) :
    Nat → Nat → ByteReads (Option α)
  | 0, _ => pure none
  | fuel + 1, i =>
      if i < length then do
        match ← round i with
        | .leave answer => pure (some answer)
        | .goOn next => whileBelow length round finish fuel next
      else pure (some finish)

variable {length fuel i : Nat} {round : Nat → ByteReads (Round α)} {finish answer : α}

/-- Rounds that read inside and go on further behind make a loop that reads inside and ends. -/
theorem whileBelow_total (finish : α) (inside : ∀ i < length, Inside (round i) array)
    (onward : ∀ i < length, ∀ next, (round i).value array = .goOn next → i < next)
    (enough : length - i < fuel) :
    Inside (whileBelow length round finish fuel i) array ∧
      ∃ answer, (whileBelow length round finish fuel i).value array = some answer := by
  induction fuel generalizing i with
  | zero => exact absurd enough (Nat.not_lt_zero _)
  | succ fuel ih =>
    rw [whileBelow]
    by_cases below : i < length
    · rw [if_pos below]
      cases turn : (round i).value array with
      | leave answer =>
        refine ⟨inside_bind (inside i below) ?_, answer, ?_⟩
        · rw [turn]
          exact inside_pure _ _
        · rw [value_bind, turn, value_pure]
      | goOn next =>
        have further := onward i below next turn
        obtain ⟨reads, answer, answered⟩ := ih (i := next) (by omega)
        refine ⟨inside_bind (inside i below) ?_, answer, ?_⟩
        · rwa [turn]
        · rwa [value_bind, turn]
    · rw [if_neg below]
      exact ⟨inside_pure _ _, finish, rfl⟩

/-- What holds of every way to leave the loop holds of its answer. -/
theorem whileBelow_rule (holds : Nat → α → Prop) (ended : ∀ i, length ≤ i → holds i finish)
    (leaves : ∀ i < length, ∀ answer, (round i).value array = .leave answer → holds i answer)
    (back : ∀ i < length, ∀ next, (round i).value array = .goOn next →
      ∀ answer, holds next answer → holds i answer)
    (answered : (whileBelow length round finish fuel i).value array = some answer) :
    holds i answer := by
  induction fuel generalizing i with
  | zero => cases answered
  | succ fuel ih =>
    rw [whileBelow] at answered
    by_cases below : i < length
    · rw [if_pos below, value_bind] at answered
      cases turn : (round i).value array with
      | leave result =>
        rw [turn] at answered
        obtain rfl := Option.some.inj answered
        exact leaves i below result turn
      | goOn next =>
        rw [turn] at answered
        exact back i below next turn answer (ih answered)
    · rw [if_neg below] at answered
      obtain rfl := Option.some.inj answered
      exact ended i (Nat.le_of_not_lt below)

end ByteReads
