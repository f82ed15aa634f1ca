import HkuRest.Httpd.PermitIds
import HkuRest.Httpd.WaitQueue

/-! How the wait of an acquire ends. A timeout of zero stands for no timeout in the
documentation, and for one that has passed already in the code; and a release can spend
its wake-up on a timer whose wait has not begun. -/

namespace Hku.ConnectionManager

variable {manager : ConnectionManager} {timer i : Nat} {call later : Call} {action : Action}
  {effect : Effect} {state final : State} {event : Event} {traced after : Traced}

/-- The acquire has returned a permit that does not test valid. -/
def Call.invalid : Call → Bool
  | .refused => true
  | .holding permitId => permitId < 0
  | _ => false

/-- The acquire has not suspended yet, or is suspended: a wake-up is still of use to it. -/
def Call.untold : Call → Bool
  | .entered | .opened | .trying _ | .enqueueing | .queued | .waiting => true
  | _ => false

/-- The wait ended without a wake-up. -/
def Call.timedOut : Call → Bool
  | .resuming aborted | .dequeued aborted => !aborted
  | .refused => true
  | _ => false

/-- The acquire found no free slot and was not woken. -/
def Call.delayed : Call → Bool
  | .enqueueing | .queued | .waiting | .refused => true
  | .resuming aborted | .dequeued aborted => !aborted
  | _ => false

def Call.ofShutdown : Call → Bool
  | .shutting | .draining | .cancelling _ | .shut => true
  | _ => false

namespace Traced

/-- The timer expired, and no release had dequeued it before. -/
def Timely (traced : Traced) (timer : Nat) : Prop :=
  ∃ before after, traced.log = before ++ .expired timer :: after ∧ .notified timer ∉ before

/-- With no timeout an acquire finds a free slot at once, a release does not dequeue a timer
before its wait, and ids test valid. -/
def obliging (traced : Traced) : Event → Bool
  | .shutdown => false
  | .act i .advance =>
      match traced.state.calls[i]? with
      | some (.trying expected) =>
          traced.state.manager.waitTimeout ≠ 0 || expected < traced.state.manager.limit
      | some .granted => 0 ≤ traced.state.manager.nextPermitId
      | some .notifying =>
          traced.state.manager.waitQueue.head?.all fun front =>
            traced.state.calls[front]? ≠ some .queued
      | _ => true
  | _ => true

def Obliging (traced : Traced) (event : Event) : Prop := traced.obliging event = true

instance (traced : Traced) (event : Event) : Decidable (traced.Obliging event) :=
  inferInstanceAs (Decidable (_ = _))

end Traced

theorem Leads.untold (leads : Leads manager call action later) (told : call.untold = false) :
    later.untold = false := by
  cases leads with
  | admits | refuses | loads | takes | misses | waits | pushes | suspends | lapses | expires => cases told
  | _ => rfl

theorem Leads.delayed (leads : Leads manager call action later) (opened : manager.isShutdown = false)
    (free : ∀ expected, action = .advance → call = .trying expected → expected < manager.limit)
    (prompt : call.delayed = false) : later.delayed = false := by
  cases leads with
  | refuses closed =>
    rw [opened] at closed
    cases closed
  | waits expected full => exact absurd (free expected rfl rfl) full
  | dequeues aborted => exact prompt
  | pushes | suspends | lapses | expires | timesOut => cases prompt
  | _ => rfl

theorem Leads.ofShutdown (leads : Leads manager call action later) (other : call.ofShutdown = false) :
    later.ofShutdown = false := by
  cases leads with
  | flags | drains | cancels | returns => cases other
  | _ => rfl

theorem Leads.timedOut (leads : Leads manager call action later) (opened : manager.isShutdown = false)
    (ended : later.timedOut = true) :
    call.timedOut = true ∨
      (call.untold = true ∧ record manager timer call action = [.expired timer]) := by
  cases leads with
  | refuses closed =>
    rw [opened] at closed
    cases closed
  | lapses timeless => exact .inr ⟨rfl, if_pos timeless⟩
  | expires => exact .inr ⟨rfl, rfl⟩
  | dequeues | timesOut => exact .inl ended
  | _ => cases ended

theorem act_notified (acted : manager.act timer call action = some effect) {front : Nat}
    (notified : .notified front ∈ record manager timer call action) :
    action = .advance ∧ call = .notifying ∧ manager.waitQueue.head? = some front ∧
      effect.call = .released ∧ effect.cancelled = some front := by
  cases act_acts acted with
  | notifiesNobody empty => simp [record, empty] at notified
  | notifies head rest filled =>
    have same : front = head := by simpa [record, filled, eq_comm] using notified
    subst same
    exact ⟨rfl, rfl, by rw [filled]; rfl, rfl, rfl⟩
  | suspends timed => simp [record, timed] at notified
  | lapses timeless => simp [record, timeless] at notified
  | _ => simp [record] at notified

/-- What holds of the waits while every step is obliging. -/
structure Traced.Obliged (traced : Traced) : Prop where
  faithful : traced.Faithful
  opened : traced.state.manager.isShutdown = false
  unshut : ∀ call ∈ traced.state.calls, call.ofShutdown = false
  valid : traced.state.AllValid
  told : ∀ timer, .notified timer ∈ traced.log →
    ∃ call, traced.state.calls[timer]? = some call ∧ call.untold = false
  timely : ∀ (timer : Nat) call, traced.state.calls[timer]? = some call → call.timedOut = true →
    traced.Timely timer
  prompt : traced.state.manager.waitTimeout = 0 → ∀ call ∈ traced.state.calls, call.delayed = false

theorem Traced.Timely.append (timely : traced.Timely timer) (state : State) (log : List QueueEvent) :
    Traced.Timely ⟨state, traced.log ++ log⟩ timer := by
  obtain ⟨before, rest, logged, unnotified⟩ := timely
  refine ⟨before, rest ++ log, ?_, unnotified⟩
  simp only [logged, List.append_assoc, List.cons_append]

/-- A timer that expires before anybody has dequeued it. -/
theorem Traced.timely_expired (state : State) (unnotified : .notified timer ∉ traced.log) :
    Traced.Timely ⟨state, traced.log ++ [.expired timer]⟩ timer :=
  ⟨traced.log, [], rfl, unnotified⟩

theorem commit_wakes (found : state.calls[i]? = some call) (before : call ≠ .waiting)
    (woken : effect.cancelled = some timer) (suspended : state.calls[timer]? = some .waiting) :
    (state.commit i effect).calls[timer]? = some (.resuming true) := by
  have other : i ≠ timer := by
    rintro rfl
    cases found.symm.trans suspended
    exact before rfl
  have kept : (state.calls.set i effect.call)[timer]? = some .waiting := by
    rw [List.getElem?_set_ne other]
    exact suspended
  simp only [State.commit, woken, cancel, if_pos kept]
  exact List.getElem?_set_self (List.getElem?_eq_some_iff.mp kept).1

theorem act_told (obliged : traced.Obliged) (obliging : traced.Obliging (.act i action))
    (found : traced.state.calls[i]? = some call)
    (acted : traced.state.manager.act i call action = some effect)
    (notified : .notified timer ∈ traced.log ++ record traced.state.manager i call action) :
    ∃ later, (traced.state.commit i effect).calls[timer]? = some later ∧ later.untold = false := by
  have leads := act_leads acted
  rcases List.mem_append.mp notified with earlier | now
  · obtain ⟨there, stood, told⟩ := obliged.told timer earlier
    refine State.commit_keeps stood ?_ (fun _ => told) rfl
    rintro rfl
    cases stood.symm.trans found
    exact leads.untold told
  · obtain ⟨rfl, rfl, first, called, woken⟩ := act_notified acted now
    obtain ⟨rest, filled⟩ := List.head?_eq_some_iff.mp first
    have queued : timer ∈ traced.pushed := by
      have member : timer ∈ traced.state.manager.waitQueue := by
        rw [filled]
        exact List.mem_cons_self
      rw [obliged.faithful.queue] at member
      exact (Fifo.mem_remaining.mp member).1
    obtain ⟨there, stood, beyond⟩ := obliged.faithful.past timer (.inl queued)
    have begun : there ≠ .queued := by
      rintro rfl
      simp [Traced.Obliging, Traced.obliging, found, first, stood] at obliging
    by_cases suspended : there = .waiting
    · subst suspended
      exact ⟨_, commit_wakes found nofun woken stood, rfl⟩
    · have resumed : there.untold = false := by
        cases there with
        | entered | opened | trying | enqueueing => cases beyond
        | queued => exact absurd rfl begun
        | waiting => exact absurd rfl suspended
        | _ => rfl
      exact State.commit_keeps stood (fun _ => by rw [called]; rfl) (fun _ => resumed) rfl

theorem act_timely (obliged : traced.Obliged) (found : traced.state.calls[i]? = some call)
    (acted : traced.state.manager.act i call action = some effect)
    (stands : (traced.state.commit i effect).calls[timer]? = some later)
    (ended : later.timedOut = true) :
    Traced.Timely ⟨traced.state.commit i effect,
      traced.log ++ record traced.state.manager i call action⟩ timer := by
  rcases State.found_commit stands with earlier | ⟨rfl, rfl⟩ | rfl
  · exact (obliged.timely timer later earlier ended).append _ _
  · rcases (act_leads acted).timedOut obliged.opened ended with before | ⟨untold, expired⟩
    · exact (obliged.timely timer call found before).append _ _
    · rw [expired]
      apply Traced.timely_expired
      intro notified
      obtain ⟨there, stood, told⟩ := obliged.told timer notified
      cases found.symm.trans stood
      rw [untold] at told
      cases told
  · cases ended

theorem act_obliged (obliged : traced.Obliged) (obliging : traced.Obliging (.act i action))
    (found : traced.state.calls[i]? = some call)
    (acted : traced.state.manager.act i call action = some effect) :
    Traced.Obliged ⟨traced.state.commit i effect,
      traced.log ++ record traced.state.manager i call action⟩ := by
  have leads := act_leads acted
  have member := List.mem_of_getElem? found
  have other := obliged.unshut call member
  refine ⟨act_faithful obliged.faithful found acted, ?_, ?_, ?_, ?_, ?_, ?_⟩
  · have unflagged : call ≠ .shutting := by
      rintro rfl
      cases other
    rw [State.commit_manager, (act_members acted).1, obliged.opened, decide_eq_false unflagged]
    rfl
  · intro there stands
    rcases State.mem_commit stands with earlier | rfl | rfl
    · exact obliged.unshut there earlier
    · exact leads.ofShutdown other
    · rfl
  · intro permitId stands
    rcases State.mem_commit stands with earlier | moved | woken
    · exact obliged.valid permitId earlier
    · obtain ⟨rfl, rfl, rfl⟩ := act_holding acted moved.symm
      simpa [Traced.Obliging, Traced.obliging, found] using obliging
    · cases woken
  · intro timer notified
    exact act_told obliged obliging found acted notified
  · intro timer later stands ended
    exact act_timely obliged found acted stands ended
  · intro timeless there stands
    rw [State.commit_manager, (act_members acted).2] at timeless
    rcases State.mem_commit stands with earlier | rfl | rfl
    · exact obliged.prompt timeless there earlier
    · apply leads.delayed obliged.opened ?_ (obliged.prompt timeless call member)
      rintro expected rfl rfl
      simpa [Traced.Obliging, Traced.obliging, found, timeless] using obliging
    · rfl

theorem next_obliged (obliged : traced.Obliged) (obliging : traced.Obliging event)
    (stepped : traced.next event = some after) : after.Obliged := by
  cases event with
  | shutdown => cases obliging
  | acquire =>
    have faithful := next_faithful obliged.faithful stepped
    obtain ⟨state, joined, rfl⟩ := Option.map_eq_some_iff.mp stepped
    cases joined
    obtain ⟨_, opened, unshut, valid, told, timely, prompt⟩ := obliged
    simp only [Traced.records, List.append_nil] at faithful ⊢
    refine ⟨faithful, opened, ?_, ?_, ?_, ?_, ?_⟩
    · exact List.forall_mem_append.mpr ⟨unshut, by simp [Call.ofShutdown]⟩
    · intro permitId member
      rcases List.mem_append.mp member with earlier | new
      · exact valid permitId earlier
      · cases List.mem_singleton.mp new
    · intro timer notified
      obtain ⟨there, stood, known⟩ := told timer notified
      exact ⟨there, by rw [List.getElem?_append_left (List.getElem?_eq_some_iff.mp stood).1]; exact stood,
        known⟩
    · intro timer call stands ended
      rcases Pool.found_append stands with earlier | ⟨_, rfl⟩
      · exact timely timer call earlier ended
      · cases ended
    · intro timeless
      exact List.forall_mem_append.mpr ⟨prompt timeless, by simp [Call.delayed]⟩
  | act i action =>
    obtain ⟨call, effect, found, acted, rfl⟩ := Traced.next_act stepped
    exact act_obliged obliged obliging found acted

theorem initial_obliged (maxConcurrent waitTimeout : Nat) :
    (Traced.initial maxConcurrent waitTimeout).Obliged := by
  refine ⟨⟨rfl, List.nodup_nil, ?_⟩, rfl, ?_, ?_, ?_, ?_, ?_⟩
  · rintro timer (member | member) <;> cases member
  · intro call member
    cases member
  · intro permitId member
    cases member
  · intro timer notified
    cases notified
  · intro timer call stands
    cases stands
  · intro _ call member
    cases member

theorem next_timeout (stepped : traced.next event = some after) :
    after.state.manager.waitTimeout = traced.state.manager.waitTimeout := by
  cases event with
  | acquire | shutdown =>
    cases stepped
    rfl
  | act i action =>
    obtain ⟨call, effect, found, acted, rfl⟩ := Traced.next_act stepped
    exact (act_members acted).2

/-- In every run of obliging steps an invalid permit is returned only after a timeout that
came before any release, and never where there is no timeout. -/
theorem invalid_permit_timed_out (maxConcurrent waitTimeout : Nat) (traced : Traced)
    (reached : Transition.Reaches Traced.next Traced.Obliging (.initial maxConcurrent waitTimeout)
      traced) (i : Nat) (call : Call) (found : traced.state.calls[i]? = some call)
    (invalid : call.invalid = true) : 0 < waitTimeout ∧ traced.Timely i := by
  have kept : traced.Obliged ∧ traced.state.manager.waitTimeout = waitTimeout := by
    refine reached.invariant
      (fun traced => traced.Obliged ∧ traced.state.manager.waitTimeout = waitTimeout)
      ⟨initial_obliged maxConcurrent waitTimeout, rfl⟩ ?_
    rintro before event after ⟨obliged, timeout⟩ obliging stepped
    exact ⟨next_obliged obliged obliging stepped, (next_timeout stepped).trans timeout⟩
  obtain ⟨obliged, timeout⟩ := kept
  cases call with
  | refused =>
    refine ⟨Nat.pos_of_ne_zero ?_, obliged.timely i _ found rfl⟩
    intro timeless
    cases obliged.prompt (timeout.trans timeless) _ (List.mem_of_getElem? found)
  | holding permitId =>
    have valid := obliged.valid permitId (List.mem_of_getElem? found)
    simp only [Call.invalid, decide_eq_true_eq] at invalid
    omega
  | _ => cases invalid

/-- Two acquires for one slot, the second one after this many of its steps. -/
def contending (steps : Nat) : List Event :=
  .acquire :: List.replicate 4 (.act 0 .advance) ++ .acquire :: List.replicate steps (.act 1 .advance)

def timedOutOnce : Traced where
  state := ⟨⟨1, 30000, 1, 0, 1, false, []⟩, [.holding 0, .refused]⟩
  log := [.pushed 1, .expired 1, .removed 1]

theorem invalid_permit_timed_out_once : 0 < 30000 ∧ timedOutOnce.Timely 1 :=
  invalid_permit_timed_out 1 30000 timedOutOnce
    (.of_execute (contending 5 ++ .act 1 .expire :: List.replicate 2 (.act 1 .advance))
      (by decide +kernel))
    1 .refused rfl rfl

def Traced.NoShutdown (_ : Traced) (event : Event) : Prop := event ≠ .shutdown

instance (traced : Traced) (event : Event) : Decidable (traced.NoShutdown event) :=
  inferInstanceAs (Decidable (_ ≠ _))

/-- A timeout of zero has passed at once; and a release between the push of a timer and its
wait is lost on the acquire, which waits until it times out. -/
theorem invalid_permit_without_timeout :
    (¬ ∀ (maxConcurrent : Nat) (traced : Traced) (i : Nat) (call : Call), 1 ≤ maxConcurrent →
        Transition.Reaches Traced.next Traced.NoShutdown (.initial maxConcurrent 0) traced →
        traced.state.calls[i]? = some call → call.invalid = false) ∧
      ¬ ∀ (maxConcurrent waitTimeout : Nat) (traced : Traced) (i : Nat) (call : Call),
        1 ≤ maxConcurrent → 0 < waitTimeout →
        Transition.Reaches Traced.next Traced.NoShutdown (.initial maxConcurrent waitTimeout) traced →
        traced.state.calls[i]? = some call → call.invalid = true → traced.Timely i := by
  constructor
  · intro served
    have valid := served 1
      ⟨⟨⟨1, 0, 1, 0, 1, false, []⟩, [.holding 0, .refused]⟩, [.pushed 1, .expired 1, .removed 1]⟩
      1 .refused (by decide) (.of_execute (contending 7) (by decide +kernel)) rfl
    cases valid
  · intro timely
    obtain ⟨before, rest, logged, unnotified⟩ := timely 1 30000
      ⟨⟨⟨1, 30000, 0, 0, 1, false, []⟩, [.released, .refused]⟩,
        [.pushed 1, .notified 1, .expired 1, .removed 1]⟩
      1 .refused (by decide) (by decide)
      (.of_execute
        (contending 4 ++ [.act 0 .release, .act 0 .advance, .act 1 .advance, .act 1 .expire,
          .act 1 .advance, .act 1 .advance])
        (by decide +kernel)) rfl rfl
    rcases before with _ | ⟨first, _ | ⟨second, _ | ⟨third, _ | ⟨fourth, more⟩⟩⟩⟩
    · cases logged
    · cases logged
    · cases logged
      simp at unnotified
    · cases logged
    · simp at logged

end Hku.ConnectionManager
