import HkuRest.Httpd.ManagerSteps

/-! What one step of a connection manager does to the slots: who takes one, who
is promised one, who gives one back. Every result about permits is derived from
this inversion, with no second look at the transition function. -/

namespace Hku

theorem wrap32_le (value : Int) : wrap32 value ≤ intMax := by
  have below : value.bmod 0x100000000 < _ := Int.bmod_lt (by decide)
  simp only [wrap32, intMax]
  omega

theorem wrap32_of_range {value : Int} (low : -1 ≤ value) (high : value ≤ intMax) :
    wrap32 value = value := by
  simp only [intMax] at high
  refine Int.bmod_eq_of_le ?_ ?_ <;> omega

namespace ConnectionManager

variable {manager : ConnectionManager} {timer i : Nat} {call old new : Call} {action : Action}
  {effect : Effect} {state after : State} {calls : List Call} {cancelled : Option Nat}

theorem limit_le (manager : ConnectionManager) : manager.limit ≤ intMax :=
  wrap32_le manager.maxConcurrent

/-- The effects a step can have on slots and queue. -/
inductive Slots (manager : ConnectionManager) (call : Call) (action : Action) (effect : Effect) : Prop
  | idle (count : effect.manager.currentCount = manager.currentCount)
      (counted : effect.call.counted = call.counted)
      (promised : effect.call.promised = call.promised)
      (notifies : effect.call.notifies = call.notifies) (silent : effect.cancelled = none)
      (queue : manager.waitQueue = [] → effect.manager.waitQueue = [])
  | enqueue (advanced : action = .advance) (before : call = .enqueueing)
      (count : effect.manager.currentCount = manager.currentCount)
      (called : effect.call = .queued) (silent : effect.cancelled = none)
  | take (advanced : action = .advance) (before : call = .trying manager.currentCount)
      (room : manager.currentCount < manager.limit)
      (count : effect.manager.currentCount = wrap32 (manager.currentCount + 1))
      (called : effect.call = .granted) (silent : effect.cancelled = none)
      (queue : effect.manager.waitQueue = manager.waitQueue)
  | redeem (advanced : action = .advance) (before : call = .retrying manager.currentCount)
      (count : effect.manager.currentCount = wrap32 (manager.currentCount + 1))
      (called : effect.call = .granted) (silent : effect.cancelled = none)
      (queue : effect.manager.waitQueue = manager.waitQueue)
  | drop (permitId : Int) (before : call = .holding permitId)
      (count : effect.manager.currentCount = wrap32 (manager.currentCount - 1))
      (called : effect.call = .notifying) (silent : effect.cancelled = none)
      (queue : effect.manager.waitQueue = manager.waitQueue)
  | notify (advanced : action = .advance) (before : call = .notifying)
      (count : effect.manager.currentCount = manager.currentCount)
      (called : effect.call = .released) (woken : effect.cancelled = manager.waitQueue.head?)
      (queue : effect.manager.waitQueue = manager.waitQueue.tail)
  | dismiss (timer : Nat) (rest : List Nat) (advanced : action = .advance)
      (before : call = .cancelling (timer :: rest))
      (count : effect.manager.currentCount = manager.currentCount)
      (called : effect.call = .cancelling rest) (woken : effect.cancelled = some timer)
      (queue : effect.manager.waitQueue = manager.waitQueue)

theorem act_slots (acted : manager.act timer call action = some effect) :
    Slots manager call action effect := by
  cases act_acts acted with
  | takes room => exact .take rfl rfl room rfl rfl rfl rfl
  | redeems => exact .redeem rfl rfl rfl rfl rfl rfl
  | releases permitId => exact .drop permitId rfl rfl rfl rfl rfl
  | pushes => exact .enqueue rfl rfl rfl rfl rfl
  | notifiesNobody empty => exact .notify rfl rfl rfl rfl (by rw [empty]; rfl) (by rw [empty]; rfl)
  | notifies front rest filled =>
    exact .notify rfl rfl rfl rfl (by rw [filled]; rfl) (by rw [filled]; rfl)
  | cancels first rest => exact .dismiss first rest rfl rfl rfl rfl rfl rfl
  | dequeues aborted =>
    refine .idle rfl ?_ ?_ rfl rfl fun empty => by simp only [empty, removeTimer]
    · cases aborted <;> rfl
    · cases aborted <;> rfl
  | drains => exact .idle rfl rfl rfl rfl rfl fun _ => rfl
  | _ => exact .idle rfl rfl rfl rfl rfl id

/-- Where the next step of a call leads, and what was the case there. -/
inductive Leads (manager : ConnectionManager) : Call → Action → Call → Prop
  | admits (opened : manager.isShutdown = false) : Leads manager .entered .advance .opened
  | refuses (closed : manager.isShutdown = true) : Leads manager .entered .advance .refused
  | loads : Leads manager .opened .advance (.trying manager.currentCount)
  | takes (room : manager.currentCount < manager.limit) :
      Leads manager (.trying manager.currentCount) .advance .granted
  | misses (action : Action) (expected : Int) (room : expected < manager.limit) :
      Leads manager (.trying expected) action (.trying manager.currentCount)
  | waits (expected : Int) (full : ¬ expected < manager.limit) :
      Leads manager (.trying expected) .advance .enqueueing
  | draws : Leads manager .granted .advance (.holding manager.nextPermitId)
  | pushes : Leads manager .enqueueing .advance .queued
  | suspends (timed : manager.waitTimeout ≠ 0) : Leads manager .queued .advance .waiting
  | lapses (timeless : manager.waitTimeout = 0) : Leads manager .queued .advance (.resuming false)
  | expires : Leads manager .waiting .expire (.resuming false)
  | dequeues (aborted : Bool) : Leads manager (.resuming aborted) .advance (.dequeued aborted)
  | wakes : Leads manager (.dequeued true) .advance .woken
  | timesOut : Leads manager (.dequeued false) .advance .refused
  | reloads : Leads manager .woken .advance (.retrying manager.currentCount)
  | redeems : Leads manager (.retrying manager.currentCount) .advance .granted
  | retries (action : Action) (expected : Int) :
      Leads manager (.retrying expected) action (.retrying manager.currentCount)
  | releases (permitId : Int) (valid : 0 ≤ permitId) :
      Leads manager (.holding permitId) .release .notifying
  | notifies : Leads manager .notifying .advance .released
  | flags : Leads manager .shutting .advance .draining
  | drains : Leads manager .draining .advance (.cancelling manager.waitQueue)
  | cancels (timer : Nat) (rest : List Nat) :
      Leads manager (.cancelling (timer :: rest)) .advance (.cancelling rest)
  | returns : Leads manager (.cancelling []) .advance .shut

theorem act_leads (acted : manager.act timer call action = some effect) :
    Leads manager call action effect.call := by
  cases act_acts acted with
  | notifiesNobody | notifies => exact .notifies
  | _ =>
    constructor
    all_goals assumption

attribute [simp] Call.counted Call.promised Call.notifies

/-- Cancelling this timer reaches a suspended acquire. -/
def wakes (calls : List Call) : Option Nat → Bool
  | none => false
  | some timer => calls[timer]? = some .waiting

@[simp] theorem wakes_none (calls : List Call) : wakes calls none = false := rfl

theorem tally_cancel (property : Call → Bool) (blind : property (.resuming true) = property .waiting) :
    Pool.tally property (cancel calls cancelled) = Pool.tally property calls := by
  cases cancelled with
  | none => rfl
  | some timer =>
    simp only [cancel]
    split
    · rename_i suspended
      have moved := Pool.tally_set property suspended (.resuming true)
      rw [blind] at moved
      omega
    · rfl

theorem promised_cancel : Pool.tally Call.promised (cancel calls cancelled) =
    Pool.tally Call.promised calls + (wakes calls cancelled).toNat := by
  cases cancelled with
  | none => rfl
  | some timer =>
    simp only [cancel, wakes]
    split
    · rename_i suspended
      have moved := Pool.tally_set Call.promised suspended (.resuming true)
      simpa [suspended, Call.promised] using moved
    · rename_i elsewhere
      simp [elsewhere]

theorem wakes_set (found : calls[i]? = some old) (before : old ≠ .waiting) (later : new ≠ .waiting) :
    wakes (calls.set i new) cancelled = wakes calls cancelled := by
  cases cancelled with
  | none => rfl
  | some timer =>
    simp only [wakes, List.getElem?_set]
    by_cases same : i = timer
    · subst same
      obtain ⟨bound, rfl⟩ := List.getElem?_eq_some_iff.mp found
      simp [before, later, bound]
    · simp [same]

namespace State

@[simp] theorem commit_manager (state : State) (i : Nat) (effect : Effect) :
    (state.commit i effect).manager = effect.manager := rfl

/-- The calls after a step: the old ones, the one that moved, and one that was woken. -/
theorem found_commit {j : Nat} (later : (state.commit i effect).calls[j]? = some call) :
    state.calls[j]? = some call ∨ (j = i ∧ call = effect.call) ∨ call = .resuming true := by
  have moved : (state.calls.set i effect.call)[j]? = some call →
      state.calls[j]? = some call ∨ j = i ∧ call = effect.call := by
    intro placed
    by_cases same : i = j
    · subst same
      rw [List.getElem?_set_self'] at placed
      obtain ⟨_, _, rfl⟩ := Option.map_eq_some_iff.mp placed
      exact .inr ⟨rfl, rfl⟩
    · rw [List.getElem?_set_ne same] at placed
      exact .inl placed
  simp only [commit, cancel] at later
  split at later
  · exact (moved later).imp_right .inl
  · rename_i timer _
    split at later
    · by_cases woken : timer = j
      · subst woken
        rw [List.getElem?_set_self'] at later
        obtain ⟨_, _, rfl⟩ := Option.map_eq_some_iff.mp later
        exact .inr (.inr rfl)
      · rw [List.getElem?_set_ne woken] at later
        exact (moved later).imp_right .inl
    · exact (moved later).imp_right .inl

theorem commit_found (i : Nat) (effect : Effect) {j : Nat} (found : state.calls[j]? = some call) :
    ∃ later, (state.commit i effect).calls[j]? = some later ∧
      (later = (if j = i then effect.call else call) ∨ later = .resuming true) := by
  have placed : (state.calls.set i effect.call)[j]? = some (if j = i then effect.call else call) := by
    split
    · rename_i same
      subst same
      exact List.getElem?_set_self (List.getElem?_eq_some_iff.mp found).1
    · rename_i other
      rw [List.getElem?_set_ne (Ne.symm other)]
      exact found
  simp only [commit, cancel]
  split
  · exact ⟨_, placed, .inl rfl⟩
  · rename_i timer _
    split
    · by_cases woken : timer = j
      · subst woken
        exact ⟨_, List.getElem?_set_self (List.getElem?_eq_some_iff.mp placed).1, .inr rfl⟩
      · rw [List.getElem?_set_ne woken]
        exact ⟨_, placed, .inl rfl⟩
    · exact ⟨_, placed, .inl rfl⟩

/-- What holds of the call that moved or of one that stayed, and of a woken one, holds after
the step. -/
theorem commit_keeps {property : Call → Prop} {j : Nat} (found : state.calls[j]? = some old)
    (moved : j = i → property effect.call) (stayed : j ≠ i → property old)
    (woken : property (.resuming true)) :
    ∃ later, (state.commit i effect).calls[j]? = some later ∧ property later := by
  obtain ⟨later, stands, rfl | rfl⟩ := commit_found i effect found
  · refine ⟨_, stands, ?_⟩
    split
    · rename_i same
      exact moved same
    · rename_i other
      exact stayed other
  · exact ⟨_, stands, woken⟩

theorem mem_commit (member : call ∈ (state.commit i effect).calls) :
    call ∈ state.calls ∨ call = effect.call ∨ call = .resuming true := by
  obtain ⟨j, later⟩ := List.mem_iff_getElem?.mp member
  rcases found_commit later with earlier | ⟨_, moved⟩ | woken
  · exact .inl (List.mem_of_getElem? earlier)
  · exact .inr (.inl moved)
  · exact .inr (.inr woken)

/-- A step moves a tally with its own call, if a cancelled timer makes no difference to it. -/
theorem tally_commit (property : Call → Bool) (blind : property (.resuming true) = property .waiting)
    (found : state.calls[i]? = some old) (effect : Effect) :
    Pool.tally property (state.commit i effect).calls + (property old).toNat =
      Pool.tally property state.calls + (property effect.call).toNat := by
  rw [commit, tally_cancel property blind]
  exact Pool.tally_set property found effect.call

theorem counted_commit (found : state.calls[i]? = some old) (effect : Effect) :
    (state.commit i effect).counted + old.counted.toNat =
      state.counted + effect.call.counted.toNat :=
  tally_commit Call.counted rfl found effect

theorem notifying_commit (found : state.calls[i]? = some old) (effect : Effect) :
    (state.commit i effect).notifying + old.notifies.toNat =
      state.notifying + effect.call.notifies.toNat :=
  tally_commit Call.notifies rfl found effect

theorem promised_commit (found : state.calls[i]? = some old) (effect : Effect) :
    (state.commit i effect).promised + old.promised.toNat =
      state.promised + effect.call.promised.toNat +
        (wakes (state.calls.set i effect.call) effect.cancelled).toNat := by
  have moved := Pool.tally_set Call.promised found effect.call
  simp only [promised, commit, promised_cancel]
  omega

end State

structure State.Counts (state : State) : Prop where
  count : state.manager.currentCount = state.counted
  fits : state.manager.currentCount ≤ intMax

/-- A step keeps the counter right, unless a wake-up overflows it. -/
theorem act_counts (counts : state.Counts) (found : state.calls[i]? = some call)
    (acted : state.manager.act i call action = some effect)
    (fitting : action = .advance → call = .retrying state.manager.currentCount →
      state.manager.currentCount < intMax) : (state.commit i effect).Counts := by
  obtain ⟨accurate, fits⟩ := counts
  have tally := State.counted_commit found effect
  have bounded := state.manager.limit_le
  suffices moved : effect.manager.currentCount = (state.commit i effect).counted ∧
      effect.manager.currentCount ≤ intMax from ⟨moved.1, moved.2⟩
  cases act_slots acted with
  | idle count counted =>
    rw [counted] at tally
    omega
  | enqueue _ before count called | notify _ before count called | dismiss _ _ _ before count called =>
    subst before
    rw [called] at tally
    simp only [Call.counted, Bool.toNat_false] at tally
    omega
  | take _ before room count called =>
    subst before
    rw [wrap32_of_range (by omega) (by omega)] at count
    rw [called] at tally
    simp only [Call.counted, Bool.toNat_false, Bool.toNat_true] at tally
    omega
  | redeem advanced before count called =>
    have room := fitting advanced before
    subst before
    rw [wrap32_of_range (by omega) (by omega)] at count
    rw [called] at tally
    simp only [Call.counted, Bool.toNat_false, Bool.toNat_true] at tally
    omega
  | drop permitId before count called =>
    subst before
    have taken : 0 < state.counted := Pool.tally_pos found rfl
    rw [wrap32_of_range (by omega) (by omega)] at count
    rw [called] at tally
    simp only [Call.counted, Bool.toNat_false, Bool.toNat_true] at tally
    omega

end ConnectionManager

end Hku
