import HkuRest.Httpd.PermitAccounting

/-! When a queued acquire is left behind by a free slot. The queue is attended
while every slot that is not taken is promised to a woken acquire or about to be
passed on by a release; three kinds of step can end that. -/

namespace Hku.ConnectionManager

variable {i : Nat} {call : Call} {effect : Effect} {state after : State}
  {event : Event} {action : Action}

namespace State

/-- Slots taken, promised, or about to be passed on. -/
def accounted (state : State) : Int :=
  state.manager.currentCount + state.promised + state.notifying

/-- An acquire enqueues itself only while no slot is free, a release does not spend
its wake-up on a timer that cannot notice it while others wait, and no wake-up
overflows the counter. -/
def prompt (state : State) : Event → Bool
  | .act i .advance =>
      match state.calls[i]? with
      | some .enqueueing => state.manager.limit ≤ state.accounted
      | some .notifying =>
          wakes state.calls state.manager.waitQueue.head? || state.manager.waitQueue.tail = [] ||
            state.manager.limit < state.accounted
      | some (.retrying _) => state.manager.currentCount < intMax
      | _ => true
  | _ => true

def Prompt (state : State) (event : Event) : Prop := state.prompt event = true

instance (state : State) (event : Event) : Decidable (state.Prompt event) :=
  inferInstanceAs (Decidable (_ = _))

structure Attended (state : State) : Prop where
  count : state.manager.currentCount = state.counted
  fits : state.manager.currentCount ≤ intMax
  covered : state.manager.waitQueue ≠ [] → state.manager.limit ≤ state.accounted

end State

/-- What a step adds to the slots that are accounted for: what its call comes to account for,
and a waiter it wakes. -/
theorem accounted_commit (counts : state.Counts) (later : (state.commit i effect).Counts)
    (found : state.calls[i]? = some call) :
    (state.commit i effect).accounted +
        (call.counted.toNat + call.promised.toNat + call.notifies.toNat) =
      state.accounted +
        (effect.call.counted.toNat + effect.call.promised.toNat + effect.call.notifies.toNat) +
        (wakes (state.calls.set i effect.call) effect.cancelled).toNat := by
  have heldTally := State.counted_commit found effect
  have promisedTally := State.promised_commit found effect
  have notifyingTally := State.notifying_commit found effect
  rw [State.accounted, State.accounted, later.count, counts.count]
  omega

/-- A prompt step leaves no slot behind that a queued acquire could have had. -/
theorem act_attended (attended : state.Attended) (found : state.calls[i]? = some call)
    (acted : state.manager.act i call action = some effect)
    (prompt : state.Prompt (.act i action)) : (state.commit i effect).Attended := by
  obtain ⟨accurate, fits, covered⟩ := attended
  have counts : (state.commit i effect).Counts := by
    apply act_counts ⟨accurate, fits⟩ found acted
    rintro rfl rfl
    simpa only [State.Prompt, State.prompt, found, decide_eq_true_eq] using prompt
  refine ⟨counts.count, counts.fits, ?_⟩
  intro filled
  have tally := accounted_commit ⟨accurate, fits⟩ counts found
  rw [State.commit_manager, act_limit acted]
  cases act_slots acted with
  | idle _ counted promised notifies silent queue =>
    have full := covered fun empty => filled (queue empty)
    rw [counted, promised, notifies, silent, wakes_none, Bool.toNat_false] at tally
    omega
  | enqueue advanced before _ called silent =>
    subst before advanced
    have full : state.manager.limit ≤ state.accounted := by
      simpa only [State.Prompt, State.prompt, found, decide_eq_true_eq] using prompt
    rw [called, silent, wakes_none] at tally
    simp only [Call.counted, Call.promised, Call.notifies, Bool.toNat_false] at tally
    omega
  | take _ before _ _ called silent queue | redeem _ before _ called silent queue
  | drop _ before _ called silent queue =>
    subst before
    have full := covered (queue ▸ filled)
    rw [called, silent, wakes_none] at tally
    simp only [Call.counted, Call.promised, Call.notifies, Bool.toNat_false, Bool.toNat_true] at tally
    omega
  | notify advanced before _ called woken queue =>
    subst before advanced
    have full := covered fun empty => filled (by rw [State.commit_manager, queue, empty]; rfl)
    rw [wakes_set found (by simp) (by simp [called]), called, woken] at tally
    simp only [Call.counted, Call.promised, Call.notifies, Bool.toNat_false, Bool.toNat_true] at tally
    simp only [State.Prompt, State.prompt, found, Bool.or_eq_true, decide_eq_true_eq] at prompt
    rcases prompt with (reached | last) | several
    · rw [reached, Bool.toNat_true] at tally
      omega
    · exact absurd (queue.trans last) filled
    · omega
  | dismiss timer rest _ before _ called _ queue =>
    subst before
    have full := covered (queue ▸ filled)
    rw [called] at tally
    simp only [Call.counted, Call.promised, Call.notifies, Bool.toNat_false] at tally
    omega

theorem next_attended (attended : state.Attended) (prompt : state.Prompt event)
    (stepped : state.next event = some after) : after.Attended := by
  cases event with
  | acquire | shutdown =>
    cases stepped
    obtain ⟨accurate, fits, covered⟩ := attended
    refine ⟨?_, fits, ?_⟩
    · simpa [State.counted] using accurate
    · intro filled
      simpa [State.accounted, State.promised, State.notifying] using covered filled
  | act i action =>
    obtain ⟨call, effect, found, acted, rfl⟩ := State.next_act stepped
    exact act_attended attended found acted prompt

theorem next_limit (stepped : state.next event = some after) :
    after.manager.limit = state.manager.limit := by
  cases event with
  | acquire | shutdown =>
    cases stepped
    rfl
  | act i action =>
    obtain ⟨call, effect, found, acted, rfl⟩ := State.next_act stepped
    exact act_limit acted

theorem reaches_attended {maxConcurrent waitTimeout : Nat} (bounded : maxConcurrent ≤ intMax)
    (reached : Transition.Reaches State.next State.Prompt
      (.initial maxConcurrent waitTimeout) state) :
    state.Attended ∧ state.manager.limit = maxConcurrent := by
  refine Transition.Reaches.invariant
    (fun state => state.Attended ∧ state.manager.limit = (maxConcurrent : Int)) ⟨?_, ?_⟩ ?_ reached
  · exact ⟨rfl, (by decide : (0 : Int) ≤ intMax), fun filled => absurd rfl filled⟩
  · exact wrap32_of_range (by omega) bounded
  · rintro before event after ⟨attended, limit⟩ prompt stepped
    exact ⟨next_attended attended prompt stepped, (next_limit stepped).trans limit⟩

theorem tally_settled {property : Call → Bool} {calls : List Call}
    (active : ∀ call, property call = true → call.settled = false)
    (settled : ∀ call ∈ calls, call.settled = true) : Pool.tally property calls = 0 := by
  apply List.countP_eq_zero.mpr
  intro call member held
  have unsettled := active call held
  rw [settled call member] at unsettled
  cases unsettled

/-- In every run of prompt steps, nobody stays queued beside a free slot. -/
theorem nobody_queued_beside_free_slot (maxConcurrent waitTimeout : Nat)
    (bounded : maxConcurrent ≤ intMax) (state : State)
    (reached : Transition.Reaches State.next State.Prompt
      (.initial maxConcurrent waitTimeout) state)
    (settled : ∀ call ∈ state.calls, call.settled = true)
    (queued : state.manager.waitQueue ≠ []) : maxConcurrent ≤ state.manager.currentCount := by
  obtain ⟨attended, limit⟩ := reaches_attended bounded reached
  have covered := attended.covered queued
  have unpromised : state.promised = 0 := by
    refine tally_settled (fun call promised => ?_) settled
    cases call with
    | waiting | holding | refused | released | shut => cases promised
    | _ => rfl
  have unannounced : state.notifying = 0 := by
    refine tally_settled (fun call notifies => ?_) settled
    cases call with
    | notifying => rfl
    | _ => cases notifies
  simp only [State.accounted, unpromised, unannounced, limit] at covered
  omega

/-- Two acquires for one slot: the second one waits in the queue. -/
def queueing : List Event :=
  .acquire :: List.replicate 4 (.act 0 .advance) ++
    .acquire :: List.replicate 5 (.act 1 .advance)

theorem nobody_queued_beside_free_slot_waiting :
    (1 : Nat) ≤ (⟨1, 30000, 1, 1, 1, false, [1]⟩ : ConnectionManager).currentCount :=
  nobody_queued_beside_free_slot 1 30000 (by decide)
    ⟨⟨1, 30000, 1, 1, 1, false, [1]⟩, [.holding 0, .waiting]⟩
    (.of_execute queueing (by decide +kernel)) (by decide) (by decide)

/-- The slot is released between the capacity test of the second acquire and its
enqueueing: the wake-up finds an empty queue. -/
def stranding : List Event :=
  .acquire :: List.replicate 4 (.act 0 .advance) ++
    .acquire :: List.replicate 3 (.act 1 .advance) ++
    .act 0 .release :: .act 0 .advance :: List.replicate 2 (.act 1 .advance)

theorem acquire_queued_beside_free_slot :
    ¬ ∀ (maxConcurrent waitTimeout : Nat) (state : State), 1 ≤ maxConcurrent →
      maxConcurrent ≤ intMax → 0 < waitTimeout →
      Transition.Reaches State.next (fun _ event => event ≠ .shutdown)
        (.initial maxConcurrent waitTimeout) state →
      (∀ call ∈ state.calls, call.settled = true) → state.manager.waitQueue ≠ [] →
      maxConcurrent ≤ state.manager.currentCount := by
  intro attended
  have full := attended 1 30000
    ⟨⟨1, 30000, 0, 1, 1, false, [1]⟩, [.released, .waiting]⟩ (by decide) (by decide) (by decide)
    (.of_execute stranding (by decide +kernel)) (by decide) (by decide)
  exact absurd full (by decide)

end Hku.ConnectionManager
