import HkuRest.Httpd.PermitIds
import HkuRest.Httpd.WaitQueue

/-! What a shutdown leaves behind. It refuses the acquires that come later and cancels
the timers of those that wait; but a cancelled timer is what tells an acquire to take its
permit, and an acquire that has passed the first test makes no other. -/

namespace Hku.ConnectionManager

variable {manager : ConnectionManager} {timer i : Nat} {call later : Call} {action : Action}
  {effect : Effect} {state after : State} {event : Event} {waitTimeout : Nat}

/-- The acquire was admitted and may still come to a permit: it is not on its way out
after a timeout. -/
def Call.admitted (waitTimeout : Nat) : Call → Bool
  | .opened | .trying _ | .granted | .waiting | .woken | .retrying _ => true
  | .enqueueing | .queued => waitTimeout ≠ 0
  | .resuming aborted | .dequeued aborted => aborted
  | _ => false

/-- The call belongs to a `shutdown` that has set its flag. -/
def Call.shutsDown : Call → Bool
  | .draining | .cancelling _ | .shut => true
  | _ => false

namespace State

def admitted (state : State) : Nat :=
  Pool.tally (Call.admitted state.manager.waitTimeout) state.calls

/-- `shutdown` cancels no pending wait, and returns when no acquire can come to a permit any
more. -/
def quiet (state : State) : Event → Bool
  | .act i .advance =>
      match state.calls[i]? with
      | some (.cancelling (timer :: _)) => state.calls[timer]? ≠ some .waiting
      | some (.cancelling []) => state.admitted = 0
      | _ => true
  | _ => true

end State

namespace Traced

def Quiet (traced : Traced) (event : Event) : Prop := traced.state.quiet event = true

instance (traced : Traced) (event : Event) : Decidable (traced.Quiet event) :=
  inferInstanceAs (Decidable (_ = _))

/-- No acquire completes with a valid permit, those that a shutdown found in the queue complete
with an invalid one, a new one is refused, and none is left suspended. -/
structure Refuses (traced : Traced) : Prop where
  unserved : ∀ (event : Event) (after : Traced) (i : Nat) (permitId : Int),
    traced.next event = some after → after.state.calls[i]? = some (.holding permitId) → 0 ≤ permitId →
      traced.state.calls[i]? = some (.holding permitId)
  drained : ∀ (timer : Nat) (call : Call), .drained timer ∈ traced.log →
    traced.state.calls[timer]? = some call → call.settled = true → call = .refused
  refused : ∀ i : Nat, traced.state.calls[i]? = some .entered →
    traced.state.next (.act i .advance) =
      some { traced.state with calls := traced.state.calls.set i .refused }
  dismissed : .waiting ∉ traced.state.calls

end Traced

/-- An acquire is admitted only while the flag is not set. -/
theorem Leads.admitted (leads : Leads manager call action later)
    (admitted : later.admitted manager.waitTimeout = true) :
    call.admitted manager.waitTimeout = true ∨ manager.isShutdown = false := by
  cases leads with
  | admits opened => exact .inr opened
  | suspends timed => exact .inl (by simpa [Call.admitted] using timed)
  | pushes | dequeues => exact .inl admitted
  | loads | waits | takes | misses | wakes | reloads | redeems | retries => exact .inl rfl
  | _ => cases admitted

/-- A shutdown works on after it has set the flag. -/
theorem Leads.shutsDown (leads : Leads manager call action later) (works : later.shutsDown = true) :
    call.shutsDown = true ∨ call = .shutting := by
  cases leads with
  | flags => exact .inr rfl
  | drains | cancels | returns => exact .inl rfl
  | _ => cases works

theorem Leads.shut (leads : Leads manager call action .shut) :
    action = .advance ∧ call = .cancelling [] := by
  cases leads
  exact ⟨rfl, rfl⟩

namespace State

/-- A shutdown that has returned has set its flag and left nobody that may be served. -/
structure Closed (state : State) : Prop where
  flag : ∀ call ∈ state.calls, call.shutsDown = true → state.manager.isShutdown = true
  empty : .shut ∈ state.calls → state.admitted = 0

theorem admitted_commit (found : state.calls[i]? = some call)
    (acted : state.manager.act i call action = some effect) :
    (state.commit i effect).admitted + (call.admitted state.manager.waitTimeout).toNat =
      state.admitted + (effect.call.admitted state.manager.waitTimeout).toNat := by
  simp only [admitted, commit_manager, (act_members acted).2]
  exact tally_commit (Call.admitted state.manager.waitTimeout) rfl found effect

theorem not_admitted_of_empty (empty : state.admitted = 0) (member : call ∈ state.calls) :
    call.admitted state.manager.waitTimeout = false := by
  have none := List.countP_eq_zero.mp empty call member
  simpa using none

end State

theorem act_closed (closed : state.Closed) (quiet : state.quiet (.act i action) = true)
    (found : state.calls[i]? = some call)
    (acted : state.manager.act i call action = some effect) : (state.commit i effect).Closed := by
  have leads := act_leads acted
  have flag : effect.manager.isShutdown = (state.manager.isShutdown || decide (call = .shutting)) :=
    (act_members acted).1
  have member := List.mem_of_getElem? found
  refine ⟨?_, ?_⟩
  · intro other later flagged
    rcases State.mem_commit later with earlier | rfl | rfl
    · rw [State.commit_manager, flag, closed.flag other earlier flagged]
      rfl
    · rcases leads.shutsDown flagged with before | rfl
      · rw [State.commit_manager, flag, closed.flag call member before]
        rfl
      · rw [State.commit_manager, flag]
        simp
    · cases flagged
  · intro later
    have tally := State.admitted_commit found acted
    rcases State.mem_commit later with earlier | now | woken
    · -- returned before: nobody was admitted, and the flag admits nobody new
      have empty := closed.empty earlier
      have out := State.not_admitted_of_empty empty member
      have stillOut : effect.call.admitted state.manager.waitTimeout = false := by
        cases served : effect.call.admitted state.manager.waitTimeout with
        | false => rfl
        | true =>
          rcases leads.admitted served with before | opened
          · rw [out] at before
            cases before
          · rw [closed.flag _ earlier rfl] at opened
            cases opened
      rw [out, stillOut, empty] at tally
      exact tally
    · -- returns now
      rw [← now] at leads
      obtain ⟨rfl, rfl⟩ := leads.shut
      have empty : state.admitted = 0 := by
        simpa [State.quiet, found] using quiet
      rw [← now, empty] at tally
      exact tally
    · cases woken

theorem next_closed (closed : state.Closed) (quiet : state.quiet event = true)
    (stepped : state.next event = some after) : after.Closed := by
  cases event with
  | acquire | shutdown =>
    cases stepped
    obtain ⟨flag, empty⟩ := closed
    refine ⟨?_, ?_⟩
    · intro call member flagged
      rcases List.mem_append.mp member with earlier | new
      · exact flag call earlier flagged
      · rw [List.mem_singleton.mp new] at flagged
        cases flagged
    · intro member
      rcases List.mem_append.mp member with earlier | new
      · simpa [State.admitted, Call.admitted] using empty earlier
      · cases List.mem_singleton.mp new
  | act i action =>
    obtain ⟨call, effect, found, acted, rfl⟩ := State.next_act stepped
    exact act_closed closed quiet found acted

/-- Whom a shutdown has found in the queue, nobody has woken. -/
structure Traced.Dismissing (traced : Traced) : Prop where
  attending : traced.Attending
  closed : traced.state.Closed
  drained : ∀ timer, .drained timer ∈ traced.log →
    ∃ call, traced.state.calls[timer]? = some call ∧ call.unwoken = true

theorem Traced.left_of_drained {traced : Traced} (drained : .drained timer ∈ traced.log) :
    timer ∈ traced.left :=
  List.mem_filterMap.mpr ⟨.drained timer, drained, rfl⟩

theorem record_drained (drained : .drained timer ∈ record manager i call action) :
    timer ∈ manager.waitQueue := by
  cases action with
  | advance =>
    cases call with
    | draining =>
      obtain ⟨other, queued, same⟩ := List.mem_map.mp drained
      cases same
      exact queued
    | notifying =>
      obtain ⟨other, -, same⟩ := List.mem_map.mp drained
      cases same
    | queued =>
      simp only [record] at drained
      split at drained <;> simp at drained
    | _ => simp [record] at drained
  | expire => cases call <;> simp [record] at drained
  | _ => cases call <;> cases drained

/-- A step that keeps quiet wakes nobody whom a shutdown has found in the queue. -/
theorem quiet_spares {traced : Traced} (dismissing : traced.Dismissing)
    (quiet : traced.Quiet (.act i action)) (found : traced.state.calls[i]? = some call)
    (acted : traced.state.manager.act i call action = some effect) {there : Call}
    (stood : traced.state.calls[timer]? = some there) (drained : .drained timer ∈ traced.log)
    (cancelled : effect.cancelled = some timer) : there ≠ .waiting := by
  obtain ⟨rfl, -, ⟨-, popped⟩ | ⟨-, rest, rfl⟩⟩ := act_cancelled acted cancelled
  · -- a release pops what is in the queue, and what was drained has left it
    have queued : timer ∈ traced.state.manager.waitQueue := by
      rw [popped]
      exact List.mem_cons_self
    rw [dismissing.attending.faithful.queue] at queued
    exact absurd (Traced.left_of_drained drained) (Fifo.mem_remaining.mp queued).2
  · have pending : traced.state.calls[timer]? ≠ some .waiting := by
      simpa [Traced.Quiet, State.quiet, found] using quiet
    rintro rfl
    exact pending stood

theorem next_dismissing {traced later : Traced} (dismissing : traced.Dismissing)
    (quiet : traced.Quiet event) (stepped : traced.next event = some later) : later.Dismissing := by
  have attending : later.Attending := next_attending dismissing.attending stepped
  have closed : later.state.Closed := by
    obtain ⟨state, moved, rfl⟩ := Option.map_eq_some_iff.mp stepped
    exact next_closed dismissing.closed quiet moved
  refine ⟨attending, closed, ?_⟩
  intro timer drained
  cases event with
  | acquire | shutdown =>
    obtain ⟨state, joined, rfl⟩ := Option.map_eq_some_iff.mp stepped
    cases joined
    simp only [Traced.records, List.append_nil] at drained
    obtain ⟨call, stood, unwoken⟩ := dismissing.drained timer drained
    have bound : timer < traced.state.calls.length := (List.getElem?_eq_some_iff.mp stood).1
    exact ⟨call, (List.getElem?_append_left bound).trans stood, unwoken⟩
  | act i action =>
    obtain ⟨call, effect, found, acted, rfl⟩ := Traced.next_act stepped
    rcases List.mem_append.mp drained with earlier | now
    · obtain ⟨there, stood, unwoken⟩ := dismissing.drained timer earlier
      exact commit_unwoken found acted stood unwoken
        (quiet_spares dismissing quiet found acted stood earlier)
    · -- the step that drains a timer cancels none
      have queued : timer ∈ traced.state.manager.waitQueue := record_drained now
      obtain ⟨there, stood, unwoken⟩ := dismissing.attending.unwoken timer queued
      refine commit_unwoken found acted stood unwoken fun cancelled => ?_
      obtain ⟨rfl, -, ⟨rfl, -⟩ | ⟨-, rest, rfl⟩⟩ := act_cancelled acted cancelled
      · obtain ⟨other, -, same⟩ := List.mem_map.mp now
        cases same
      · cases now

theorem initial_dismissing (maxConcurrent waitTimeout : Nat) :
    (Traced.initial maxConcurrent waitTimeout).Dismissing := by
  refine ⟨initial_attending maxConcurrent waitTimeout, ⟨?_, ?_⟩, ?_⟩
  · intro call member
    cases member
  · intro member
    cases member
  · intro timer drained
    cases drained

theorem Call.refused_of_unwoken (unwoken : call.unwoken = true) (settled : call.settled = true)
    (awake : call ≠ .waiting) : call = .refused := by
  cases call with
  | refused => rfl
  | waiting => exact absurd rfl awake
  | holding | released | shut => cases unwoken
  | _ => cases settled

/-- In every run whose shutdowns cancel no pending wait and return when nobody is admitted,
nothing is granted after a shutdown has returned, and to nobody whom it found in the queue. -/
theorem shutdown_refuses (maxConcurrent waitTimeout : Nat) (traced : Traced)
    (reached : Transition.Reaches Traced.next Traced.Quiet (.initial maxConcurrent waitTimeout) traced)
    (shut : .shut ∈ traced.state.calls) : traced.Refuses := by
  have dismissing : traced.Dismissing :=
    reached.invariant Traced.Dismissing (initial_dismissing maxConcurrent waitTimeout)
      fun _ _ _ dismissing quiet stepped => next_dismissing dismissing quiet stepped
  have empty : traced.state.admitted = 0 := dismissing.closed.empty shut
  have awake : .waiting ∉ traced.state.calls := by
    intro waiting
    cases State.not_admitted_of_empty empty waiting
  refine ⟨?_, ?_, ?_, awake⟩
  · intro event after i permitId stepped holds _
    obtain ⟨state, moved, rfl⟩ := Option.map_eq_some_iff.mp stepped
    cases event with
    | acquire | shutdown =>
      cases moved
      rcases Pool.found_append holds with earlier | ⟨_, new⟩
      · exact earlier
      · cases new
    | act j action =>
      obtain ⟨call, effect, found, acted, rfl⟩ := State.next_act moved
      rcases State.found_commit holds with earlier | ⟨_, moved⟩ | woken
      · exact earlier
      · obtain ⟨_, rfl, _⟩ := act_holding acted moved.symm
        cases State.not_admitted_of_empty empty (List.mem_of_getElem? found)
      · cases woken
  · intro timer call drained stood settled
    obtain ⟨there, found, unwoken⟩ := dismissing.drained timer drained
    cases stood.symm.trans found
    have listed : call ∈ traced.state.calls := List.mem_of_getElem? stood
    exact call.refused_of_unwoken unwoken settled (ne_of_mem_of_not_mem listed awake)
  · intro i entered
    have flag := dismissing.closed.flag _ shut rfl
    simp [State.next, entered, act, advance, flag, State.commit, cancel]

/-- A shutdown drains the timer of an acquire that has timed out and not yet taken it out itself;
another one comes later. -/
def timedOutFirst : Traced where
  state := ⟨⟨1, 30000, 1, 0, 1, true, []⟩, [.holding 0, .refused, .shut, .entered]⟩
  log := [.pushed 1, .expired 1, .drained 1, .removed 1]

theorem shutdown_refuses_timedOut : timedOutFirst.Refuses :=
  shutdown_refuses 1 30000 timedOutFirst
    (.of_execute
      (.acquire :: List.replicate 4 (.act 0 .advance) ++
        .acquire :: List.replicate 5 (.act 1 .advance) ++ [.act 1 .expire, .shutdown] ++
        List.replicate 3 (.act 2 .advance) ++ List.replicate 2 (.act 1 .advance) ++
        [.act 2 .advance, .acquire])
      (by decide +kernel))
    (by decide)

/-- The second of two acquires waits for the slot when the manager is shut down; it takes
its cancelled timer for a wake-up. -/
def cancelledWaiter : List Event :=
  .acquire :: List.replicate 4 (.act 0 .advance) ++
    .acquire :: List.replicate 5 (.act 1 .advance) ++
    .shutdown :: List.replicate 4 (.act 2 .advance) ++ List.replicate 5 (.act 1 .advance)

theorem granted_after_shutdown :
    ¬ ∀ (maxConcurrent waitTimeout : Nat) (traced : Traced), 1 ≤ maxConcurrent →
      maxConcurrent ≤ intMax →
      Transition.Reaches Traced.next (fun _ _ => True) (.initial maxConcurrent waitTimeout) traced →
      .shut ∈ traced.state.calls → traced.Refuses := by
  intro refuses
  have served : Traced.Refuses
      ⟨⟨⟨1, 30000, 2, -1, 2, true, []⟩, [.holding 0, .holding 1, .shut]⟩,
        [.pushed 1, .drained 1, .removed 1]⟩ :=
    refuses 1 30000 _ (by decide) (by decide) (.of_execute cancelledWaiter (by decide +kernel))
      (by decide)
  cases served.drained 1 (.holding 1) (by decide) rfl rfl

end Hku.ConnectionManager
