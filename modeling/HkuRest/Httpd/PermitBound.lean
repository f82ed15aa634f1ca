import HkuRest.Core.Semaphore
import HkuRest.Httpd.PermitAccounting

/-! The manager as a semaphore with promised slots. A released slot is promised
to the acquire that `notifyOne` wakes, which takes it later and without a test;
the manager stays within its limit exactly as long as no step commits a slot that
is promised already. -/

namespace Hku.ConnectionManager

variable {capacity : Int} {i : Nat} {call : Call} {effect : Effect} {state after : State}
  {event : Event} {action : Action}

namespace State

/-- The event takes a slot by the fast path, or wakes an acquire that will take one. -/
def commits (state : State) : Event → Bool
  | .act i .advance =>
      match state.calls[i]? with
      | some (.trying expected) =>
          expected < state.manager.limit && state.manager.currentCount = expected
      | some .notifying => wakes state.calls state.manager.waitQueue.head?
      | some (.cancelling timers) => wakes state.calls timers.head?
      | _ => false
  | _ => false

/-- A step commits a slot only while one is neither taken nor promised. -/
def Unclaimed (state : State) (event : Event) : Prop :=
  state.commits event = true →
    state.manager.currentCount + state.promised < state.manager.limit

instance (state : State) (event : Event) : Decidable (state.Unclaimed event) :=
  inferInstanceAs (Decidable (_ → _))

/-- The semaphore that the members and the calls stand for. -/
structure Represents (state : State) (semaphore : Semaphore capacity) : Prop where
  limit : state.manager.limit = capacity
  count : state.manager.currentCount = semaphore.held
  held : state.counted = semaphore.held
  promised : state.promised = semaphore.promised

theorem Represents.bounded {semaphore : Semaphore capacity} (represents : state.Represents semaphore) :
    capacity ≤ intMax := by
  rw [← represents.limit]
  exact state.manager.limit_le

theorem Represents.counts {semaphore : Semaphore capacity} (represents : state.Represents semaphore) :
    state.Counts := by
  have within := semaphore.within
  have bounded := represents.bounded
  constructor
  · rw [represents.count, represents.held]
  · rw [represents.count]
    omega

theorem Counts.represents {semaphore : Semaphore capacity} (counts : state.Counts)
    (limit : state.manager.limit = capacity) (held : state.counted = semaphore.held)
    (promised : state.promised = semaphore.promised) : state.Represents semaphore :=
  ⟨limit, by rw [counts.count, held], held, promised⟩

end State

/-- Every wake-up that reaches a waiter promises it a slot. -/
theorem wakeup_refines {semaphore : Semaphore capacity} (represents : state.Represents semaphore)
    (later : (state.commit i effect).Counts)
    (limit : (state.commit i effect).manager.limit = capacity)
    (held : (state.commit i effect).counted = state.counted)
    (promised : (state.commit i effect).promised =
      state.promised + (wakes state.calls effect.cancelled).toNat)
    (unclaimed : wakes state.calls effect.cancelled = true →
      state.manager.currentCount + state.promised < state.manager.limit) :
    ∃ moved : Semaphore capacity, semaphore.Moves moved ∧
      (state.commit i effect).Represents moved := by
  rw [represents.held] at held
  rw [represents.promised] at promised
  cases reached : wakes state.calls effect.cancelled with
  | false =>
    rw [reached, Bool.toNat_false] at promised
    exact ⟨semaphore, .stay _, later.represents limit held promised⟩
  | true =>
    have room := unclaimed reached
    rw [represents.count, represents.promised, represents.limit] at room
    rw [reached, Bool.toNat_true] at promised
    exact ⟨semaphore.promise room, .promise _ _, later.represents limit held promised⟩

/-- Every step that commits only an unclaimed slot is an operation of the semaphore. -/
theorem act_refines {semaphore : Semaphore capacity} (represents : state.Represents semaphore)
    (found : state.calls[i]? = some call)
    (acted : state.manager.act i call action = some effect)
    (unclaimed : state.Unclaimed (.act i action)) :
    ∃ moved : Semaphore capacity, semaphore.Moves moved ∧
      (state.commit i effect).Represents moved := by
  have owes (before : call = .retrying state.manager.currentCount) : 0 < semaphore.promised := by
    subst before
    rw [← represents.promised]
    exact Pool.tally_pos found rfl
  have later : (state.commit i effect).Counts := by
    apply act_counts represents.counts found acted
    intro _ before
    have owed := owes before
    have within := semaphore.within
    have bounded := represents.bounded
    rw [represents.count]
    omega
  have limit : (state.commit i effect).manager.limit = capacity :=
    (act_limit acted).trans represents.limit
  have heldTally := State.counted_commit found effect
  have promisedTally := State.promised_commit found effect
  cases act_slots acted with
  | idle _ counted promised _ silent _ =>
    rw [counted, represents.held] at heldTally
    rw [promised, silent, wakes_none, represents.promised] at promisedTally
    refine ⟨semaphore, .stay _, later.represents limit ?_ ?_⟩
    · omega
    · simpa using promisedTally
  | enqueue _ before _ called silent =>
    subst before
    rw [called, represents.held] at heldTally
    rw [called, silent, represents.promised] at promisedTally
    exact ⟨semaphore, .stay _,
      later.represents limit (by simpa using heldTally) (by simpa using promisedTally)⟩
  | take advanced before room _ called silent _ =>
    subst before advanced
    have free : (semaphore.held : Int) + semaphore.promised < capacity := by
      have committed := unclaimed (by simp [State.commits, found, room])
      rwa [represents.count, represents.promised, represents.limit] at committed
    rw [called, represents.held] at heldTally
    rw [called, silent, represents.promised] at promisedTally
    exact ⟨semaphore.take free, .take _ _,
      later.represents limit (by simpa using heldTally) (by simpa using promisedTally)⟩
  | redeem _ before _ called silent _ =>
    have owed := owes before
    subst before
    rw [called, represents.held] at heldTally
    rw [called, silent, represents.promised] at promisedTally
    have collected : (state.commit i effect).promised + 1 = semaphore.promised := by
      simpa using promisedTally
    exact ⟨semaphore.redeem owed, .redeem _ _,
      later.represents limit (by simpa using heldTally) (Nat.eq_sub_of_add_eq collected)⟩
  | drop permitId before _ called silent _ =>
    subst before
    have taken : 0 < semaphore.held := by
      rw [← represents.held]
      exact Pool.tally_pos found rfl
    rw [called, represents.held] at heldTally
    rw [called, silent, represents.promised] at promisedTally
    have returned : (state.commit i effect).counted + 1 = semaphore.held := by
      simpa using heldTally
    exact ⟨semaphore.release taken, .release _ _,
      later.represents limit (Nat.eq_sub_of_add_eq returned) (by simpa using promisedTally)⟩
  | notify advanced before _ called woken _ =>
    subst before advanced
    rw [wakes_set found (by simp) (by simp [called]), called] at promisedTally
    rw [called] at heldTally
    refine wakeup_refines represents later limit (by simpa using heldTally)
      (by simpa using promisedTally) fun reached => unclaimed ?_
    rw [woken] at reached
    simpa only [State.commits, found] using reached
  | dismiss timer rest advanced before _ called woken _ =>
    subst before advanced
    rw [wakes_set found (by simp) (by simp [called]), called] at promisedTally
    rw [called] at heldTally
    refine wakeup_refines represents later limit (by simpa using heldTally)
      (by simpa using promisedTally) fun reached => unclaimed ?_
    rw [woken] at reached
    simpa only [State.commits, found, List.head?_cons] using reached

theorem next_refines {semaphore : Semaphore capacity} (represents : state.Represents semaphore)
    (unclaimed : state.Unclaimed event) (stepped : state.next event = some after) :
    ∃ moved : Semaphore capacity, semaphore.Moves moved ∧ after.Represents moved := by
  cases event with
  | acquire | shutdown =>
    cases stepped
    refine ⟨semaphore, .stay _, represents.limit, represents.count, ?_, ?_⟩
    · simpa [State.counted, Call.counted] using represents.held
    · simpa [State.promised, Call.promised] using represents.promised
  | act i action =>
    obtain ⟨call, effect, found, acted, rfl⟩ := State.next_act stepped
    exact act_refines represents found acted unclaimed

theorem reaches_represents {maxConcurrent waitTimeout : Nat} (positive : 1 ≤ maxConcurrent)
    (bounded : maxConcurrent ≤ intMax)
    (reached : Transition.Reaches State.next State.Unclaimed
      (.initial maxConcurrent waitTimeout) state) :
    ∃ semaphore : Semaphore maxConcurrent, state.Represents semaphore := by
  refine Transition.Reaches.invariant
    (fun state => ∃ semaphore : Semaphore maxConcurrent, state.Represents semaphore) ?_ ?_ reached
  · exact ⟨.idle (by omega), wrap32_of_range (by omega) bounded, rfl, rfl, rfl⟩
  · rintro before event after ⟨semaphore, represents⟩ unclaimed stepped
    obtain ⟨moved, _, represented⟩ := next_refines represents unclaimed stepped
    exact ⟨moved, represented⟩

/-- In every run in which no slot is committed twice, the outstanding permits
stay within `max_concurrent`. -/
theorem current_count_within_limit (maxConcurrent waitTimeout : Nat) (positive : 1 ≤ maxConcurrent)
    (bounded : maxConcurrent ≤ intMax) (state : State)
    (reached : Transition.Reaches State.next State.Unclaimed
      (.initial maxConcurrent waitTimeout) state) :
    state.manager.currentCount ≤ maxConcurrent ∧
      state.manager.currentCount = state.counted := by
  obtain ⟨semaphore, represents⟩ := reaches_represents positive bounded reached
  have within := semaphore.within
  refine ⟨?_, by rw [represents.count, represents.held]⟩
  rw [represents.count]
  omega

/-- With one slot, the second acquire waits for the first one's release. -/
def handover : List Event :=
  .acquire :: List.replicate 4 (.act 0 .advance) ++
    .acquire :: List.replicate 5 (.act 1 .advance) ++
    .act 0 .release :: .act 0 .advance :: List.replicate 5 (.act 1 .advance)

def handedOver : State :=
  ⟨⟨1, 30000, 1, 0, 2, false, []⟩, [.released, .holding 1]⟩

theorem current_count_within_limit_handover :
    handedOver.manager.currentCount ≤ (1 : Nat) ∧
      handedOver.manager.currentCount = handedOver.counted :=
  current_count_within_limit 1 30000 (by decide) (by decide) handedOver
    (.of_execute handover (by decide +kernel))

/-- The third acquire takes the freed slot between the notification of the
second and its resumption. -/
def overtaking : List Event :=
  .acquire :: List.replicate 4 (.act 0 .advance) ++
    .acquire :: List.replicate 5 (.act 1 .advance) ++
    .act 0 .release :: .act 0 .advance ::
    .acquire :: List.replicate 4 (.act 2 .advance) ++ List.replicate 5 (.act 1 .advance)

theorem current_count_exceeds_limit :
    ¬ ∀ (maxConcurrent waitTimeout : Nat) (state : State), 1 ≤ maxConcurrent →
      maxConcurrent ≤ intMax →
      Transition.Reaches State.next (fun _ event => event ≠ .shutdown)
        (.initial maxConcurrent waitTimeout) state →
      state.manager.currentCount ≤ maxConcurrent := by
  intro bounded
  have within := bounded 1 30000
    ⟨⟨1, 30000, 2, 0, 3, false, []⟩, [.released, .holding 2, .holding 1]⟩ (by decide) (by decide)
    (.of_execute overtaking (by decide +kernel))
  exact absurd within (by decide)

end Hku.ConnectionManager
