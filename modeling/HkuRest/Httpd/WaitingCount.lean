import HkuRest.Httpd.PermitAccounting

/-! `m_waiting_count` and the acquires it counts. Every acquire moves it by one on its
way in and on its way out; `shutdown` sets it to zero while some may still be on their
way out. -/

namespace Hku.ConnectionManager

variable {manager : ConnectionManager} {timer i : Nat} {call : Call} {action : Action}
  {effect : Effect} {state after : State} {event : Event}

def getWaitingCount (manager : ConnectionManager) : Int := manager.waitingCount

/-- The acquire has passed its increment and not yet its decrement. -/
def Call.waits : Call → Bool
  | .enqueueing | .queued | .waiting | .resuming _ | .dequeued _ => true
  | _ => false

namespace State

def waiters (state : State) : Nat := Pool.tally Call.waits state.calls

/-- What `getWaitingCount` is for. -/
structure CountsWaiters (state : State) : Prop where
  count : state.manager.getWaitingCount = state.waiters
  nonneg : 0 ≤ state.manager.getWaitingCount
  idle : state.waiters = 0 → state.manager.getWaitingCount = 0

/-- No increment overflows, and `shutdown` resets the count when it is zero anyway. -/
def steady (state : State) : Event → Bool
  | .act i .advance =>
      match state.calls[i]? with
      | some (.trying expected) =>
          expected < state.manager.limit || state.manager.waitingCount < intMax
      | some (.cancelling []) => state.waiters = 0
      | _ => true
  | _ => true

def Steady (state : State) (event : Event) : Prop := state.steady event = true

instance (state : State) (event : Event) : Decidable (state.Steady event) :=
  inferInstanceAs (Decidable (_ = _))

theorem countsWaiters_iff : state.CountsWaiters ↔ state.manager.waitingCount = state.waiters := by
  constructor
  · exact CountsWaiters.count
  · intro count
    refine ⟨count, ?_, ?_⟩
    · rw [getWaitingCount, count]
      exact Int.natCast_nonneg _
    · intro idle
      rw [getWaitingCount, count, idle]
      rfl

end State

/-- What a step can do to the count. -/
inductive Waiting (manager : ConnectionManager) (call : Call) (action : Action) (effect : Effect) : Prop
  | same (count : effect.manager.waitingCount = manager.waitingCount)
      (waits : effect.call.waits = call.waits)
      (other : action = .advance → call ≠ .cancelling [] ∧
        ∀ expected, call = .trying expected → expected < manager.limit)
  | starts (expected : Int) (advanced : action = .advance) (before : call = .trying expected)
      (full : ¬ expected < manager.limit)
      (count : effect.manager.waitingCount = wrap32 (manager.waitingCount + 1))
      (called : effect.call = .enqueueing)
  | ends (aborted : Bool) (before : call = .dequeued aborted)
      (count : effect.manager.waitingCount = wrap32 (manager.waitingCount - 1))
      (called : effect.call.waits = false)
  | resets (advanced : action = .advance) (before : call = .cancelling [])
      (count : effect.manager.waitingCount = 0) (called : effect.call = .shut)

theorem act_waiting (acted : manager.act timer call action = some effect) :
    Waiting manager call action effect := by
  cases act_acts acted with
  | waits expected full => exact .starts expected rfl rfl full rfl rfl
  | wakes => exact .ends true rfl rfl rfl
  | timesOut => exact .ends false rfl rfl rfl
  | returns => exact .resets rfl rfl rfl rfl
  | takes room => exact .same rfl rfl fun _ => ⟨nofun, fun expected same => by cases same; exact room⟩
  | misses _ expected room =>
    exact .same rfl rfl fun _ => ⟨nofun, fun expected same => by cases same; exact room⟩
  | _ => exact .same rfl rfl fun _ => ⟨nofun, nofun⟩

theorem wrap32_succ (count : Nat) :
    wrap32 (count + 1) = count + 1 ↔ (count : Int) < intMax := by
  constructor
  · intro exact
    have bounded := wrap32_le (count + 1)
    omega
  · intro room
    exact wrap32_of_range (by omega) (by omega)

theorem State.waiters_commit (found : state.calls[i]? = some call) (effect : Effect) :
    (state.commit i effect).waiters + call.waits.toNat = state.waiters + effect.call.waits.toNat :=
  State.tally_commit Call.waits rfl found effect

theorem act_countsWaiters_iff (counts : state.CountsWaiters)
    (fits : state.manager.waitingCount ≤ intMax) (found : state.calls[i]? = some call)
    (acted : state.manager.act i call action = some effect) :
    (state.commit i effect).CountsWaiters ↔ state.Steady (.act i action) := by
  have tally := State.waiters_commit found effect
  have count : state.manager.waitingCount = state.waiters := counts.count
  rw [State.countsWaiters_iff, State.commit_manager]
  cases act_waiting acted with
  | same kept waits other =>
    rw [waits] at tally
    constructor
    · intro _
      cases action with
      | advance =>
        obtain ⟨waiting, room⟩ := other rfl
        cases call with
        | trying expected => simp [State.Steady, State.steady, found, room expected rfl]
        | cancelling timers =>
          cases timers with
          | nil => exact absurd rfl waiting
          | cons timer rest => simp [State.Steady, State.steady, found]
        | _ => simp [State.Steady, State.steady, found]
      | _ => rfl
    · intro _
      omega
  | starts expected advanced before full moved called =>
    subst before advanced
    rw [called] at tally
    simp only [Call.waits, Bool.toNat_false, Bool.toNat_true] at tally
    rw [moved, count]
    have fitting := wrap32_succ state.waiters
    simp only [State.Steady, State.steady, found, full, decide_false, Bool.false_or, decide_eq_true_eq,
      count, ← fitting]
    omega
  | ends aborted before moved called =>
    subst before
    have present : 0 < state.waiters := Pool.tally_pos found rfl
    rw [called] at tally
    simp only [Call.waits, Bool.toNat_false, Bool.toNat_true] at tally
    rw [wrap32_of_range (by omega) (by omega)] at moved
    constructor
    · intro _
      cases action <;> simp [State.Steady, State.steady, found]
    · intro _
      omega
  | resets advanced before moved called =>
    subst before advanced
    rw [called] at tally
    simp only [Call.waits, Bool.toNat_false] at tally
    simp only [State.Steady, State.steady, found, decide_eq_true_eq]
    omega

theorem act_waitingCount_le (fits : manager.waitingCount ≤ intMax)
    (acted : manager.act timer call action = some effect) : effect.manager.waitingCount ≤ intMax := by
  cases act_waiting acted with
  | same count => exact count ▸ fits
  | starts _ _ _ _ count => exact count ▸ wrap32_le _
  | ends _ _ count => exact count ▸ wrap32_le _
  | resets _ _ count => exact count ▸ by decide

/-- The count is right all along a run exactly when every step of the run is steady. -/
theorem waiting_count_accurate_iff (maxConcurrent waitTimeout : Nat) (events : List Event) :
    Transition.Along State.next (fun _ _ after => after.CountsWaiters)
        (.initial maxConcurrent waitTimeout) events ↔
      Transition.Along State.next (fun state event _ => state.Steady event)
        (.initial maxConcurrent waitTimeout) events := by
  apply Transition.along_iff fun state => state.CountsWaiters ∧ state.manager.waitingCount ≤ intMax
  · exact ⟨State.countsWaiters_iff.mpr rfl, (by decide : (0 : Int) ≤ intMax)⟩
  · rintro before event after ⟨_, fits⟩ stepped counts
    refine ⟨counts, ?_⟩
    cases event with
    | acquire | shutdown =>
      cases stepped
      exact fits
    | act i action =>
      obtain ⟨call, effect, found, acted, rfl⟩ := State.next_act stepped
      exact act_waitingCount_le fits acted
  · rintro before event after ⟨counts, fits⟩ stepped
    cases event with
    | acquire | shutdown =>
      cases stepped
      refine iff_of_true ?_ rfl
      rw [State.countsWaiters_iff] at counts ⊢
      simpa [State.waiters, Call.waits] using counts
    | act i action =>
      obtain ⟨call, effect, found, acted, rfl⟩ := State.next_act stepped
      exact act_countsWaiters_iff counts fits found acted

/-- The second of two acquires is in the queue at the shutdown, and decrements after it. -/
def lateDecrement : List Event :=
  .acquire :: List.replicate 4 (.act 0 .advance) ++
    .acquire :: List.replicate 5 (.act 1 .advance) ++
    .shutdown :: List.replicate 4 (.act 2 .advance) ++ List.replicate 2 (.act 1 .advance)

theorem waiting_count_negative :
    ¬ ∀ (maxConcurrent waitTimeout : Nat) (state : State), 1 ≤ maxConcurrent →
      maxConcurrent ≤ intMax →
      Transition.Reaches State.next (fun _ _ => True) (.initial maxConcurrent waitTimeout) state →
      state.CountsWaiters := by
  intro counts
  have waiters := counts 1 30000
    ⟨⟨1, 30000, 1, -1, 1, true, []⟩, [.holding 0, .woken, .shut]⟩ (by decide) (by decide)
    (.of_execute lateDecrement (by decide +kernel))
  exact absurd waiters.nonneg (by decide)

end Hku.ConnectionManager
