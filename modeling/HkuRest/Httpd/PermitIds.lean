import HkuRest.Httpd.PermitAccounting

/-! Permits and their ids. A permit is given back only if its id tests valid, and the
ids are drawn from a counter that wraps: the members agree with the permits that are
outstanding as long as the counter has not wrapped. -/

namespace Hku.ConnectionManager

variable {manager : ConnectionManager} {timer i : Nat} {call : Call} {action : Action}
  {effect : Effect} {state after : State} {event : Event}

/-- The call has returned a permit that tests valid and was not released. -/
def Call.valid : Call → Bool
  | .holding permitId => 0 ≤ permitId
  | _ => false

namespace State

def valid (state : State) : Nat := Pool.tally Call.valid state.calls

/-- The step that draws an id draws one that tests valid, and no wake-up overflows the
counter. -/
def lawful (state : State) : Event → Bool
  | .act i .advance =>
      match state.calls[i]? with
      | some .granted => 0 ≤ state.manager.nextPermitId
      | some (.retrying expected) =>
          state.manager.currentCount ≠ expected || state.manager.currentCount < intMax
      | _ => true
  | _ => true

def Lawful (state : State) (event : Event) : Prop := state.lawful event = true

instance (state : State) (event : Event) : Decidable (state.Lawful event) :=
  inferInstanceAs (Decidable (_ = _))

end State

theorem act_holding {permitId : Int} (acted : manager.act timer call action = some effect)
    (holds : effect.call = .holding permitId) :
    action = .advance ∧ call = .granted ∧ permitId = manager.nextPermitId := by
  have leads := act_leads acted
  rw [holds] at leads
  cases leads
  exact ⟨rfl, rfl, rfl⟩

/-- Every permit that was returned tests valid. -/
def State.AllValid (state : State) : Prop :=
  ∀ permitId, .holding permitId ∈ state.calls → 0 ≤ permitId

theorem next_allValid (valid : state.AllValid) (lawful : state.Lawful event)
    (stepped : state.next event = some after) : after.AllValid := by
  intro permitId member
  cases event with
  | acquire | shutdown =>
    cases stepped
    rcases List.mem_append.mp member with earlier | new
    · exact valid permitId earlier
    · cases List.mem_singleton.mp new
  | act i action =>
    obtain ⟨call, effect, found, acted, rfl⟩ := State.next_act stepped
    rcases State.mem_commit member with earlier | moved | woken
    · exact valid permitId earlier
    · obtain ⟨rfl, rfl, rfl⟩ := act_holding acted moved.symm
      simpa only [State.Lawful, State.lawful, found, decide_eq_true_eq] using lawful
    · cases woken

theorem next_counts (counts : state.Counts) (lawful : state.Lawful event)
    (stepped : state.next event = some after) : after.Counts := by
  cases event with
  | acquire | shutdown =>
    cases stepped
    obtain ⟨accurate, fits⟩ := counts
    exact ⟨by simpa [State.counted] using accurate, fits⟩
  | act i action =>
    obtain ⟨call, effect, found, acted, rfl⟩ := State.next_act stepped
    apply act_counts counts found acted
    rintro rfl rfl
    simpa [State.Lawful, State.lawful, found] using lawful

/-- Between the steps of all calls, a slot is taken by a returned permit. -/
theorem counted_settled (valid : state.AllValid)
    (settled : ∀ call ∈ state.calls, call.settled = true) : state.counted = state.valid := by
  apply List.countP_congr
  intro call member
  have rests := settled call member
  cases call with
  | holding permitId => simpa [Call.valid] using valid permitId member
  | waiting | refused | released | shut => simp [Call.valid]
  | _ => cases rests

/-- In every run that draws valid ids only, the counter is the number of valid permits
that were not released. -/
theorem current_count_eq_valid (maxConcurrent waitTimeout : Nat) (state : State)
    (reached : Transition.Reaches State.next State.Lawful (.initial maxConcurrent waitTimeout) state)
    (settled : ∀ call ∈ state.calls, call.settled = true) :
    state.manager.currentCount = state.valid := by
  have lawful : state.AllValid ∧ state.Counts := by
    refine reached.invariant (fun state => state.AllValid ∧ state.Counts)
      ⟨?_, rfl, (by decide : (0 : Int) ≤ intMax)⟩ ?_
    · intro permitId member
      cases member
    · rintro before event after ⟨valid, counts⟩ lawful stepped
      exact ⟨next_allValid valid lawful stepped, next_counts counts lawful stepped⟩
  rw [lawful.2.count, counted_settled lawful.1 settled]

/-- Of two permits one was released. -/
def oneReleased : State := ⟨⟨2, 30000, 1, 0, 2, false, []⟩, [.released, .holding 1]⟩

theorem current_count_eq_valid_released : oneReleased.manager.currentCount = oneReleased.valid :=
  current_count_eq_valid 2 30000 oneReleased
    (.of_execute
      ([.acquire, .acquire] ++ List.replicate 4 (.act 0 .advance) ++
        List.replicate 4 (.act 1 .advance) ++ [.act 0 .release, .act 0 .advance])
      (by decide +kernel))
    (by decide)

/-- A manager with one slot, which is free, after all calls so far were released. -/
def vacant (waitTimeout : Nat) (permitId : Int) (calls : List Call) : State :=
  ⟨⟨1, waitTimeout, 0, 0, permitId, false, []⟩, calls⟩

/-- The same with one more call, which has the slot. -/
def occupied (waitTimeout : Nat) (permitId nextPermitId : Int) (calls : List Call) : State :=
  ⟨⟨1, waitTimeout, 1, 0, nextPermitId, false, []⟩, calls ++ [.holding permitId]⟩

def NoShutdown (_ : State) (event : Event) : Prop := event ≠ .shutdown

theorem noShutdown_act (state : State) (i : Nat) (action : Action) :
    NoShutdown state (.act i action) := nofun

theorem next_last {calls : List Call} {later : Call} {changed : ConnectionManager}
    (acted : manager.act calls.length call action = some ⟨changed, later, none⟩) :
    State.next ⟨manager, calls ++ [call]⟩ (.act calls.length action) =
      some ⟨changed, calls ++ [later]⟩ := by
  simp [State.next, acted, State.commit, cancel]

theorem vacant_acquired (waitTimeout : Nat) (permitId : Int) (calls : List Call) :
    Transition.Reaches State.next NoShutdown (vacant waitTimeout permitId calls)
      (occupied waitTimeout permitId (wrap32 (permitId + 1)) calls) := by
  have entered : Transition.Reaches State.next NoShutdown (vacant waitTimeout permitId calls)
      ⟨⟨1, waitTimeout, 0, 0, permitId, false, []⟩, calls ++ [.entered]⟩ := by
    refine Transition.Reaches.step .refl ?_ (rfl : (vacant waitTimeout permitId calls).next .acquire = _)
    nofun
  have opened := entered.step (noShutdown_act _ calls.length .advance) (next_last rfl)
  have trying := opened.step (noShutdown_act _ calls.length .advance) (next_last rfl)
  have one : wrap32 1 = 1 := wrap32_of_range (by decide) (by decide)
  have granted : Transition.Reaches State.next NoShutdown (vacant waitTimeout permitId calls)
      ⟨⟨1, waitTimeout, 1, 0, permitId, false, []⟩, calls ++ [.granted]⟩ := by
    apply trying.step (noShutdown_act _ calls.length .advance)
    apply next_last
    simp [act, advance, limit, one]
  exact granted.step (noShutdown_act _ calls.length .advance) (next_last rfl)

theorem occupied_released (waitTimeout : Nat) (nextPermitId : Int) (calls : List Call) {permitId : Int}
    (valid : 0 ≤ permitId) :
    Transition.Reaches State.next NoShutdown (occupied waitTimeout permitId nextPermitId calls)
      (vacant waitTimeout nextPermitId (calls ++ [.released])) := by
  have notifying : Transition.Reaches State.next NoShutdown
      (occupied waitTimeout permitId nextPermitId calls)
      ⟨⟨1, waitTimeout, 0, 0, nextPermitId, false, []⟩, calls ++ [.notifying]⟩ := by
    apply Transition.Reaches.refl.step (noShutdown_act _ calls.length .release)
    apply next_last
    have zero : wrap32 0 = 0 := wrap32_of_range (by decide) (by decide)
    simp [act, release, valid, zero]
  exact notifying.step (noShutdown_act _ calls.length .advance) (next_last rfl)

theorem initial_reaches_vacant (waitTimeout count : Nat) (small : count ≤ intMax + 1) :
    ∃ calls : List Call, (∀ call ∈ calls, call = .released) ∧
      Transition.Reaches State.next NoShutdown (.initial 1 waitTimeout)
        (vacant waitTimeout (wrap32 count) calls) := by
  induction count with
  | zero => exact ⟨[], by simp, .refl⟩
  | succ count ih =>
    obtain ⟨calls, released, reached⟩ := ih (by omega)
    refine ⟨calls ++ [.released], ?_, ?_⟩
    · intro call member
      rcases List.mem_append.mp member with earlier | last
      · exact released call earlier
      · exact List.mem_singleton.mp last
    · have same : wrap32 (count : Int) = count := wrap32_of_range (by omega) (by omega)
      rw [same] at reached
      have acquired := vacant_acquired waitTimeout count calls
      exact (reached.trans acquired).trans
        (occupied_released waitTimeout _ calls (Int.natCast_nonneg count))

/-- After 2147483648 permits the next one tests invalid, and nobody gives its slot back. -/
theorem negative_id_leaks_slot :
    ¬ ∀ (maxConcurrent waitTimeout : Nat) (state : State), 1 ≤ maxConcurrent →
      maxConcurrent ≤ intMax →
      Transition.Reaches State.next NoShutdown (.initial maxConcurrent waitTimeout) state →
      (∀ call ∈ state.calls, call.settled = true) →
      state.manager.currentCount = state.valid := by
  intro counts
  obtain ⟨calls, released, reached⟩ := initial_reaches_vacant 30000 2147483648 (by decide)
  have wrapped : wrap32 (2147483648 : Nat) = -2147483648 := by decide
  rw [wrapped] at reached
  have leaked := counts 1 30000 _ (by decide) (by decide)
    (reached.trans (vacant_acquired 30000 (-2147483648) calls)) ?_
  · have unowned : (occupied 30000 (-2147483648) (wrap32 (-2147483648 + 1)) calls).valid = 0 := by
      apply List.countP_eq_zero.mpr
      intro call member
      rcases List.mem_append.mp member with earlier | last
      · rw [released call earlier]
        decide
      · rw [List.mem_singleton.mp last]
        decide
    rw [unowned] at leaked
    cases leaked
  · intro call member
    rcases List.mem_append.mp member with earlier | last
    · rw [released call earlier]
      rfl
    · rw [List.mem_singleton.mp last]
      rfl

end Hku.ConnectionManager
