import HkuRest.Core.Fifo
import HkuRest.Httpd.PermitAccounting

/-! `m_wait_queue` over whole runs, against a record of what was pushed and of who left.
Timers leave at three places: `notifyOne` and `shutdown` pop them, and every acquire takes
its own out after its wait, which by then may be gone. -/

namespace Hku.ConnectionManager

variable {manager : ConnectionManager} {timer i : Nat} {call later : Call} {action : Action}
  {effect : Effect} {state final : State} {event : Event} {queue : List Nat}

inductive QueueEvent
  | pushed (timer : Nat)
  | notified (timer : Nat)
  | drained (timer : Nat)
  | removed (timer : Nat)
  | expired (timer : Nat)
  deriving DecidableEq, Repr

namespace QueueEvent

def pushes : QueueEvent → Option Nat
  | .pushed timer => some timer
  | _ => none

/-- Popped by `notifyOne` or `shutdown`, or removed by its own acquire. -/
def leaves : QueueEvent → Option Nat
  | .notified timer | .drained timer | .removed timer => some timer
  | _ => none

end QueueEvent

/-- What the next step of a call does to the queue, and whether its own timer expires. -/
def record (manager : ConnectionManager) (timer : Nat) : Call → Action → List QueueEvent
  | .enqueueing, .advance => [.pushed timer]
  | .queued, .advance => if manager.waitTimeout = 0 then [.expired timer] else []
  | .waiting, .expire => [.expired timer]
  | .resuming _, .advance => [.removed timer]
  | .notifying, .advance => manager.waitQueue.head?.toList.map .notified
  | .draining, .advance => manager.waitQueue.map .drained
  | _, _ => []

/-- A state, with the record of the run that led to it. -/
structure Traced where
  state : State
  log : List QueueEvent
  deriving DecidableEq, Repr

namespace Traced

def initial (maxConcurrent waitTimeout : Nat) : Traced := ⟨.initial maxConcurrent waitTimeout, []⟩

def records (traced : Traced) : Event → List QueueEvent
  | .act i action =>
      match traced.state.calls[i]? with
      | some call => record traced.state.manager i call action
      | none => []
  | _ => []

def next (traced : Traced) (event : Event) : Option Traced :=
  (traced.state.next event).map fun state => ⟨state, traced.log ++ traced.records event⟩

/-- The timers that were pushed, in this order. -/
def pushed (traced : Traced) : List Nat := traced.log.filterMap QueueEvent.pushes

def left (traced : Traced) : List Nat := traced.log.filterMap QueueEvent.leaves

end Traced

theorem Traced.next_act {traced after : Traced} (stepped : traced.next (.act i action) = some after) :
    ∃ call effect, traced.state.calls[i]? = some call ∧
      traced.state.manager.act i call action = some effect ∧
        after = ⟨traced.state.commit i effect,
          traced.log ++ record traced.state.manager i call action⟩ := by
  obtain ⟨state, moved, rfl⟩ := Option.map_eq_some_iff.mp stepped
  obtain ⟨call, effect, found, acted, rfl⟩ := State.next_act moved
  exact ⟨call, effect, found, acted, by simp only [records, found]⟩

/-- Whichever way an acquire takes its timer out, it takes nothing else. -/
theorem removeTimer_eq (once : queue.Nodup) : removeTimer timer queue = queue.filter (· ≠ timer) := by
  cases queue with
  | nil => rfl
  | cons front rest =>
    simp only [removeTimer]
    split
    · rename_i same
      subst same
      rw [List.filter_cons_of_neg (by simp)]
      symm
      apply List.filter_eq_self.mpr
      intro other member
      simp only [decide_eq_true_eq]
      rintro rfl
      exact (List.nodup_cons.mp once).1 member
    · rfl

def recordPushes (manager : ConnectionManager) (timer : Nat) (call : Call) (action : Action) : List Nat :=
  (record manager timer call action).filterMap QueueEvent.pushes

def recordLeaves (manager : ConnectionManager) (timer : Nat) (call : Call) (action : Action) : List Nat :=
  (record manager timer call action).filterMap QueueEvent.leaves

/-- The queue and the record of a step. -/
inductive Queued (manager : ConnectionManager) (timer : Nat) (call : Call) (action : Action)
    (effect : Effect) : Prop
  | keeps (queue : effect.manager.waitQueue = manager.waitQueue)
      (pushed : recordPushes manager timer call action = [])
      (left : recordLeaves manager timer call action = [])
  | pushes (before : call = .enqueueing) (called : effect.call = .queued)
      (queue : effect.manager.waitQueue = manager.waitQueue ++ [timer])
      (pushed : recordPushes manager timer call action = [timer])
      (left : recordLeaves manager timer call action = [])
  | removes (aborted : Bool) (before : call = .resuming aborted)
      (queue : effect.manager.waitQueue = removeTimer timer manager.waitQueue)
      (pushed : recordPushes manager timer call action = [])
      (left : recordLeaves manager timer call action = [timer])
  | pops (front : Nat) (rest : List Nat) (before : call = .notifying)
      (filled : manager.waitQueue = front :: rest) (queue : effect.manager.waitQueue = rest)
      (called : effect.call = .released) (woken : effect.cancelled = some front)
      (pushed : recordPushes manager timer call action = [])
      (left : recordLeaves manager timer call action = [front])
  | drains (before : call = .draining) (queue : effect.manager.waitQueue = [])
      (pushed : recordPushes manager timer call action = [])
      (left : recordLeaves manager timer call action = manager.waitQueue)

theorem act_queued (acted : manager.act timer call action = some effect) :
    Queued manager timer call action effect := by
  cases act_acts acted with
  | pushes => exact .pushes rfl rfl rfl rfl rfl
  | dequeues aborted => exact .removes aborted rfl rfl rfl rfl
  | drains =>
    refine .drains rfl rfl ?_ ?_
    · simp [recordPushes, record, QueueEvent.pushes, List.filterMap_map]
    · exact List.filterMap_map.trans List.filterMap_some
  | notifiesNobody empty =>
    exact .keeps rfl (by simp [recordPushes, record, empty]) (by simp [recordLeaves, record, empty])
  | notifies front rest filled =>
    exact .pops front rest rfl filled rfl rfl rfl
      (by simp [recordPushes, record, filled, QueueEvent.pushes])
      (by simp [recordLeaves, record, filled, QueueEvent.leaves])
  | suspends timed =>
    refine .keeps rfl ?_ ?_
    · simp [recordPushes, record, timed]
    · simp [recordLeaves, record, timed]
  | lapses timeless =>
    refine .keeps rfl ?_ ?_
    · simp [recordPushes, record, timeless, QueueEvent.pushes]
    · simp [recordLeaves, record, timeless, QueueEvent.leaves]
  | _ => exact .keeps rfl rfl rfl

/-- The acquire has not pushed its timer. -/
def Call.early : Call → Bool
  | .entered | .opened | .trying _ | .enqueueing => true
  | _ => false

/-- An acquire that is past the queue does not come back to it. -/
theorem Leads.early (leads : Leads manager call action later) (past : call.early = false) :
    later.early = false := by
  cases leads with
  | admits | loads | misses | waits => cases past
  | _ => rfl

/-- The queue is what the record says it should be. -/
structure Traced.Faithful (traced : Traced) : Prop where
  queue : traced.state.manager.waitQueue = Fifo.remaining traced.pushed traced.left
  once : traced.pushed.Nodup
  past : ∀ timer, timer ∈ traced.pushed ∨ timer ∈ traced.left →
    ∃ call, traced.state.calls[timer]? = some call ∧ call.early = false

theorem commit_past {there : Call} (found : state.calls[i]? = some call)
    (acted : state.manager.act i call action = some effect) (stood : state.calls[timer]? = some there)
    (past : there.early = false) :
    ∃ later, (state.commit i effect).calls[timer]? = some later ∧ later.early = false := by
  refine State.commit_keeps stood ?_ (fun _ => past) rfl
  rintro rfl
  cases stood.symm.trans found
  exact (act_leads acted).early past

theorem moved_timer (acted : manager.act timer call action = some effect) {moved : Nat}
    (member : moved ∈ recordPushes manager timer call action ∨
      moved ∈ recordLeaves manager timer call action) :
    moved ∈ manager.waitQueue ∨ (moved = timer ∧ effect.call.early = false) := by
  cases act_queued acted with
  | keeps _ nothing nobody =>
    rw [nothing, nobody] at member
    rcases member with member | member <;> cases member
  | pushes before called grown own nobody =>
    rw [own, nobody] at member
    rcases member with member | member
    · exact .inr ⟨List.mem_singleton.mp member, by rw [called]; rfl⟩
    · cases member
  | removes aborted before taken nothing own =>
    rw [nothing, own] at member
    rcases member with member | member
    · cases member
    · exact .inr ⟨List.mem_singleton.mp member, (act_leads acted).early (by rw [before]; rfl)⟩
  | pops front rest before filled popped called woken nothing first =>
    rw [nothing, first] at member
    rcases member with member | member
    · cases member
    · left
      rw [filled, List.mem_singleton.mp member]
      exact List.mem_cons_self
  | drains before emptied nothing everyone =>
    rw [nothing, everyone] at member
    rcases member with member | member
    · cases member
    · exact .inl member

theorem commit_itself (found : state.calls[i]? = some call) (past : effect.call.early = false) :
    ∃ later, (state.commit i effect).calls[i]? = some later ∧ later.early = false :=
  State.commit_keeps found (fun _ => past) (absurd rfl) rfl

theorem act_faithful {traced : Traced} (faithful : traced.Faithful)
    (found : traced.state.calls[i]? = some call)
    (acted : traced.state.manager.act i call action = some effect) :
    Traced.Faithful ⟨traced.state.commit i effect,
      traced.log ++ record traced.state.manager i call action⟩ := by
  obtain ⟨queue, once, past⟩ := faithful
  have still : ∀ timer, timer ∈ traced.pushed ∨ timer ∈ traced.left →
      ∃ later, (traced.state.commit i effect).calls[timer]? = some later ∧ later.early = false := by
    intro timer member
    obtain ⟨there, stood, beyond⟩ := past timer member
    exact commit_past found acted stood beyond
  have early : call.early = true → i ∉ traced.pushed ∧ i ∉ traced.left := by
    intro before
    rw [← not_or]
    intro member
    obtain ⟨there, stood, beyond⟩ := past i member
    cases found.symm.trans stood
    rw [before] at beyond
    cases beyond
  have pushed : Traced.pushed ⟨traced.state.commit i effect,
      traced.log ++ record traced.state.manager i call action⟩ =
        traced.pushed ++ recordPushes traced.state.manager i call action := List.filterMap_append
  have left : Traced.left ⟨traced.state.commit i effect,
      traced.log ++ record traced.state.manager i call action⟩ =
        traced.left ++ recordLeaves traced.state.manager i call action := List.filterMap_append
  refine ⟨?_, ?_, ?_⟩
  · rw [pushed, left]
    cases act_queued acted with
    | keeps kept nothing nobody =>
      rw [nothing, nobody, List.append_nil, List.append_nil, ← queue]
      exact kept
    | pushes before called grown own nobody =>
      subst before
      rw [own, nobody, List.append_nil, Fifo.remaining_push _ (early rfl).2, ← queue]
      exact grown
    | removes aborted before taken nothing own =>
      have nodup := Fifo.remaining_nodup once traced.left
      rw [nothing, own, List.append_nil, Fifo.remaining_leave, ← queue]
      exact taken.trans (removeTimer_eq (queue ▸ nodup))
    | pops front rest before filled popped called woken nothing first =>
      rw [nothing, first, List.append_nil, Fifo.remaining_pop once (queue ▸ filled)]
      exact popped
    | drains before emptied nothing everyone =>
      rw [nothing, everyone, List.append_nil, queue, Fifo.remaining_drain]
      exact emptied
  · rw [pushed]
    cases act_queued acted with
    | pushes before called grown own nobody =>
      subst before
      rw [own]
      exact once.append (List.nodup_singleton i) (by simpa using (early rfl).1)
    | keeps _ nothing | removes _ _ _ nothing | pops _ _ _ _ _ _ _ nothing | drains _ _ nothing =>
      rw [nothing, List.append_nil]
      exact once
  · intro timer member
    rw [pushed, left, List.mem_append, List.mem_append, or_or_or_comm] at member
    rcases member with earlier | moved
    · exact still timer earlier
    · rcases moved_timer acted moved with queued | ⟨rfl, beyond⟩
      · rw [queue] at queued
        exact still timer (.inl (Fifo.mem_remaining.mp queued).1)
      · exact commit_itself found beyond

theorem next_faithful {traced after : Traced} (faithful : traced.Faithful)
    (stepped : traced.next event = some after) : after.Faithful := by
  cases event with
  | acquire | shutdown =>
    obtain ⟨state, joined, rfl⟩ := Option.map_eq_some_iff.mp stepped
    cases joined
    obtain ⟨queue, once, past⟩ := faithful
    simp only [Traced.records, List.append_nil]
    refine ⟨queue, once, ?_⟩
    intro timer member
    obtain ⟨there, stood, beyond⟩ := past timer member
    exact ⟨there, by rw [List.getElem?_append_left (List.getElem?_eq_some_iff.mp stood).1]; exact stood,
      beyond⟩
  | act i action =>
    obtain ⟨call, effect, found, acted, rfl⟩ := Traced.next_act stepped
    exact act_faithful faithful found acted

theorem initial_faithful (maxConcurrent waitTimeout : Nat) :
    (Traced.initial maxConcurrent waitTimeout).Faithful := by
  refine ⟨rfl, List.nodup_nil, ?_⟩
  rintro timer (member | member) <;> cases member

/-- The acquire has pushed its timer, and its wait was not cancelled. -/
def Call.unwoken : Call → Bool
  | .queued | .waiting | .resuming false | .dequeued false | .refused => true
  | _ => false

theorem Leads.unwoken (leads : Leads manager call action later) (before : call.unwoken = true) :
    later.unwoken = true := by
  cases leads with
  | suspends | lapses | expires | timesOut => rfl
  | dequeues aborted =>
    cases aborted with
    | false => rfl
    | true => cases before
  | _ => cases before

/-- A wait is cancelled by a release that pops its timer, or by a shutdown that has drained it. -/
theorem act_cancelled (acted : manager.act timer call action = some effect) {woken : Nat}
    (cancelled : effect.cancelled = some woken) :
    action = .advance ∧ effect.call.unwoken = false ∧
      (call = .notifying ∧ manager.waitQueue = woken :: effect.manager.waitQueue ∨
        effect.manager.waitQueue = manager.waitQueue ∧ ∃ rest, call = .cancelling (woken :: rest)) := by
  cases act_slots acted with
  | idle _ _ _ _ silent | enqueue _ _ _ _ silent | take _ _ _ _ _ silent
  | redeem _ _ _ _ silent | drop _ _ _ _ silent =>
    rw [silent] at cancelled
    cases cancelled
  | notify advanced before _ called front queue =>
    have first : manager.waitQueue.head? = some woken := front.symm.trans cancelled
    have popped : manager.waitQueue = woken :: effect.manager.waitQueue := by
      rw [queue]
      exact (List.cons_head?_tail first).symm
    exact ⟨advanced, by rw [called]; rfl, .inl ⟨before, popped⟩⟩
  | dismiss dismissed rest advanced before _ called dismisses queue =>
    cases dismisses.symm.trans cancelled
    exact ⟨advanced, by rw [called]; rfl, .inr ⟨queue, rest, before⟩⟩

/-- An acquire stays unwoken through a step that does not cancel its pending wait. -/
theorem commit_unwoken {there : Call} (found : state.calls[i]? = some call)
    (acted : state.manager.act i call action = some effect) (stood : state.calls[timer]? = some there)
    (before : there.unwoken = true) (spared : effect.cancelled = some timer → there ≠ .waiting) :
    ∃ later, (state.commit i effect).calls[timer]? = some later ∧ later.unwoken = true := by
  have moved : ∃ later, (state.calls.set i effect.call)[timer]? = some later ∧
      later.unwoken = true ∧ (effect.cancelled = some timer → later ≠ .waiting) := by
    by_cases own : timer = i
    · subst own
      cases found.symm.trans stood
      have advances : effect.call.unwoken = true := (act_leads acted).unwoken before
      refine ⟨_, List.getElem?_set_self (List.getElem?_eq_some_iff.mp found).1, advances, ?_⟩
      intro cancelled
      have woken : effect.call.unwoken = false := (act_cancelled acted cancelled).2.1
      rw [advances] at woken
      cases woken
    · exact ⟨there, (List.getElem?_set_ne (Ne.symm own)).trans stood, before, spared⟩
  obtain ⟨later, placed, unwoken, apart⟩ := moved
  refine ⟨later, ?_, unwoken⟩
  simp only [State.commit, cancel]
  split
  · exact placed
  · rename_i cancelled silent
    split
    · rename_i suspended
      have other : cancelled ≠ timer := by
        rintro rfl
        exact apart silent (Option.some.inj (placed.symm.trans suspended))
      exact (List.getElem?_set_ne other).trans placed
    · exact placed

/-- Nobody in the queue was told to stop waiting, and a shutdown cancels only what has left it. -/
structure Traced.Attending (traced : Traced) : Prop where
  faithful : traced.Faithful
  unwoken : ∀ timer ∈ traced.state.manager.waitQueue,
    ∃ call, traced.state.calls[timer]? = some call ∧ call.unwoken = true
  drained : ∀ timers, .cancelling timers ∈ traced.state.calls → ∀ timer ∈ timers, timer ∈ traced.left

/-- Who is in the queue after a step was in it, and the step has not cancelled his timer; or he has
just come. -/
theorem queued_after {traced : Traced} (attending : traced.Attending)
    (found : traced.state.calls[i]? = some call)
    (acted : traced.state.manager.act i call action = some effect)
    (member : timer ∈ effect.manager.waitQueue) :
    timer ∈ traced.state.manager.waitQueue ∧ effect.cancelled ≠ some timer ∨
      timer = i ∧ effect.call = .queued := by
  have nodup : traced.state.manager.waitQueue.Nodup :=
    attending.faithful.queue ▸ Fifo.remaining_nodup attending.faithful.once traced.left
  by_cases cancelled : effect.cancelled = some timer
  · obtain ⟨-, -, ⟨-, popped⟩ | ⟨kept, rest, rfl⟩⟩ := act_cancelled acted cancelled
    · rw [popped] at nodup
      exact absurd member (List.nodup_cons.mp nodup).1
    · have gone := attending.drained _ (List.mem_of_getElem? found) timer List.mem_cons_self
      rw [kept, attending.faithful.queue] at member
      exact absurd gone (Fifo.mem_remaining.mp member).2
  · refine (?_ : timer ∈ traced.state.manager.waitQueue ∨ _).imp_left fun queued => ⟨queued, cancelled⟩
    cases act_queued acted with
    | keeps kept => exact .inl (kept ▸ member)
    | pushes before called grown =>
      rw [grown] at member
      rcases List.mem_append.mp member with earlier | own
      · exact .inl earlier
      · exact .inr ⟨List.mem_singleton.mp own, called⟩
    | removes aborted before taken =>
      rw [taken, removeTimer_eq nodup] at member
      exact .inl (List.mem_of_mem_filter member)
    | pops front rest before filled popped =>
      rw [popped] at member
      exact .inl (filled ▸ List.mem_cons_of_mem front member)
    | drains before emptied =>
      rw [emptied] at member
      cases member

theorem cancelling_after (acted : manager.act timer call action = some effect) {timers : List Nat}
    (cancelling : effect.call = .cancelling timers) :
    recordLeaves manager timer call action = timers ∨
      ∃ first, call = .cancelling (first :: timers) := by
  have leads := act_leads acted
  rw [cancelling] at leads
  cases leads with
  | drains => exact .inl (List.filterMap_map.trans List.filterMap_some)
  | cancels first => exact .inr ⟨first, rfl⟩

theorem act_attending {traced : Traced} (attending : traced.Attending)
    (found : traced.state.calls[i]? = some call)
    (acted : traced.state.manager.act i call action = some effect) :
    Traced.Attending ⟨traced.state.commit i effect,
      traced.log ++ record traced.state.manager i call action⟩ := by
  have left : Traced.left ⟨traced.state.commit i effect,
      traced.log ++ record traced.state.manager i call action⟩ =
        traced.left ++ recordLeaves traced.state.manager i call action := List.filterMap_append
  refine ⟨act_faithful attending.faithful found acted, ?_, ?_⟩
  · intro timer member
    rcases queued_after attending found acted member with ⟨queued, spared⟩ | ⟨rfl, pushed⟩
    · obtain ⟨there, stood, unwoken⟩ := attending.unwoken timer queued
      exact commit_unwoken found acted stood unwoken fun cancelled => absurd cancelled spared
    · have silent : effect.cancelled = none := by
        cases cancelled : effect.cancelled with
        | none => rfl
        | some woken =>
          have told : effect.call.unwoken = false := (act_cancelled acted cancelled).2.1
          rw [pushed] at told
          cases told
      refine ⟨.queued, ?_, rfl⟩
      simp only [State.commit, silent, cancel, pushed]
      exact List.getElem?_set_self (List.getElem?_eq_some_iff.mp found).1
  · intro timers member timer listed
    rw [left]
    rcases State.mem_commit member with earlier | own | woken
    · exact List.mem_append_left _ (attending.drained timers earlier timer listed)
    · rcases cancelling_after acted own.symm with drains | ⟨first, rfl⟩
      · exact List.mem_append_right _ (drains ▸ listed)
      · exact List.mem_append_left _ (attending.drained _ (List.mem_of_getElem? found) timer
          (List.mem_cons_of_mem first listed))
    · cases woken

theorem next_attending {traced after : Traced} (attending : traced.Attending)
    (stepped : traced.next event = some after) : after.Attending := by
  have faithful : after.Faithful := next_faithful attending.faithful stepped
  cases event with
  | acquire | shutdown =>
    obtain ⟨state, joined, rfl⟩ := Option.map_eq_some_iff.mp stepped
    cases joined
    refine ⟨faithful, ?_, ?_⟩
    · intro timer queued
      obtain ⟨call, stood, unwoken⟩ := attending.unwoken timer queued
      have bound : timer < traced.state.calls.length := (List.getElem?_eq_some_iff.mp stood).1
      exact ⟨call, (List.getElem?_append_left bound).trans stood, unwoken⟩
    · intro timers member timer listed
      simp only [Traced.records, List.append_nil]
      rcases List.mem_append.mp member with earlier | new
      · exact attending.drained timers earlier timer listed
      · cases List.mem_singleton.mp new
  | act i action =>
    obtain ⟨call, effect, found, acted, rfl⟩ := Traced.next_act stepped
    exact act_attending attending found acted

theorem initial_attending (maxConcurrent waitTimeout : Nat) :
    (Traced.initial maxConcurrent waitTimeout).Attending := by
  refine ⟨initial_faithful maxConcurrent waitTimeout, ?_, ?_⟩
  · intro timer queued
    cases queued
  · intro timers member
    cases member

/-- The queue is in order after the step, a notification has resumed the acquire that has waited
longest, and an acquire that has taken its timer out has left the others in place. -/
structure Traced.InOrder (before : Traced) (event : Event) (after : Traced) : Prop where
  queue : after.state.manager.waitQueue = Fifo.remaining after.pushed after.left
  once : after.pushed.Nodup
  wakes : ∀ i, event = .act i .advance → before.state.calls[i]? = some .notifying →
    before.state.manager.waitQueue ≠ [] → ∃ earlier timer later,
      before.pushed = earlier ++ timer :: later ∧ (∀ other ∈ earlier, other ∈ before.left) ∧
        timer ∉ before.left ∧ after.state.calls[timer]? = some (.resuming true) ∧
          after.state.manager.waitQueue = before.state.manager.waitQueue.tail
  removes : ∀ i aborted, event = .act i .advance →
    before.state.calls[i]? = some (.resuming aborted) →
      after.state.manager.waitQueue = before.state.manager.waitQueue.filter (· ≠ i)

/-- A notification finds the acquire at the head of the queue suspended. -/
def Traced.FindsWaiting (before : Traced) (event : Event) (_ : Traced) : Prop :=
  ∀ i, event = .act i .advance → before.state.calls[i]? = some .notifying →
    ∀ timer, before.state.manager.waitQueue.head? = some timer →
      before.state.calls[timer]? = some .waiting

theorem notify_next {before after : Traced} (notifying : before.state.calls[i]? = some .notifying)
    (stepped : before.next (.act i .advance) = some after) (front : Nat) (rest : List Nat)
    (filled : before.state.manager.waitQueue = front :: rest) :
    after.state.manager.waitQueue = rest ∧
      after.state.calls = cancel (before.state.calls.set i .released) (some front) := by
  obtain ⟨call, effect, found, acted, rfl⟩ := Traced.next_act stepped
  cases notifying.symm.trans found
  simp only [act, advance, filled, Option.some.injEq] at acted
  subst acted
  exact ⟨rfl, rfl⟩

/-- The acquire at the head resumes exactly if it was suspended. -/
theorem notify_wakes_iff {before after : Traced} (attending : before.Attending)
    (notifying : before.state.calls[i]? = some .notifying)
    (stepped : before.next (.act i .advance) = some after) (front : Nat) (rest : List Nat)
    (filled : before.state.manager.waitQueue = front :: rest) :
    after.state.calls[front]? = some (.resuming true) ↔ before.state.calls[front]? = some .waiting := by
  obtain ⟨-, calls⟩ := notify_next notifying stepped front rest filled
  obtain ⟨there, stood, unwoken⟩ := attending.unwoken front (by rw [filled]; exact List.mem_cons_self)
  have other : i ≠ front := by
    rintro rfl
    cases notifying.symm.trans stood
    cases unwoken
  have kept : (before.state.calls.set i .released)[front]? = some there :=
    (List.getElem?_set_ne other).trans stood
  rw [calls, cancel, kept, stood]
  by_cases suspended : there = .waiting
  · have bound : front < (before.state.calls.set i .released).length :=
      (List.getElem?_eq_some_iff.mp kept).1
    simp [suspended, List.getElem?_set_self bound]
  · have told : there ≠ .resuming true := by
      rintro rfl
      cases unwoken
    simp [suspended, kept, told]

theorem inOrder_iff_findsWaiting {before after : Traced} (attending : before.Attending)
    (stepped : before.next event = some after) :
    before.InOrder event after ↔ before.FindsWaiting event after := by
  have faithful : after.Faithful := next_faithful attending.faithful stepped
  constructor
  · intro ordered i advances notifying timer first
    subst advances
    have filled := (List.cons_head?_tail first).symm
    obtain ⟨earlier, woken, later, pushed, gone, stays, resumes, -⟩ := ordered.wakes i rfl notifying
      (by rw [filled]; exact List.cons_ne_nil _ _)
    have same : timer = woken :=
      Fifo.head_remaining gone stays (by rw [← pushed, ← attending.faithful.queue, filled])
    subst same
    exact (notify_wakes_iff attending notifying stepped timer _ filled).mp resumes
  · intro finds
    refine ⟨faithful.queue, faithful.once, ?_, ?_⟩
    · rintro i rfl notifying filled
      obtain ⟨front, rest, queue⟩ := List.exists_cons_of_ne_nil filled
      obtain ⟨earlier, later, pushed, gone, stays⟩ :=
        Fifo.remaining_head (attending.faithful.queue.symm.trans queue)
      have waiting := finds i rfl notifying front (by rw [queue]; rfl)
      have resumes := (notify_wakes_iff attending notifying stepped front rest queue).mpr waiting
      obtain ⟨popped, -⟩ := notify_next notifying stepped front rest queue
      exact ⟨earlier, front, later, pushed, gone, stays, resumes, by rw [popped, queue]; rfl⟩
    · rintro i aborted rfl resuming
      obtain ⟨call, effect, found, acted, rfl⟩ := Traced.next_act stepped
      cases resuming.symm.trans found
      cases acted
      have nodup := Fifo.remaining_nodup attending.faithful.once before.left
      exact removeTimer_eq (attending.faithful.queue ▸ nodup)

/-- Along every run: the queue is in order after every step and every notification resumes the
acquire that has waited longest, exactly if every notification finds it suspended. -/
theorem wait_queue_in_order_iff (maxConcurrent waitTimeout : Nat) (events : List Event) :
    Transition.Along Traced.next Traced.InOrder (.initial maxConcurrent waitTimeout) events ↔
      Transition.Along Traced.next Traced.FindsWaiting (.initial maxConcurrent waitTimeout) events :=
  Transition.along_iff Traced.Attending (initial_attending maxConcurrent waitTimeout)
    (fun _ _ _ attending stepped _ => next_attending attending stepped)
    (fun _ _ _ attending stepped => inOrder_iff_findsWaiting attending stepped) events

/-- Two acquires wait for the slot of a third; the timer of the first one expires, and the slot is
given back before that acquire has taken its timer out. -/
def expiredWaiter : List Event :=
  [.acquire, .acquire, .acquire] ++ List.replicate 4 (.act 0 .advance) ++
    List.replicate 5 (.act 1 .advance) ++ List.replicate 5 (.act 2 .advance) ++
    [.act 1 .expire, .act 0 .release]

def notifyingPast : Traced where
  state := ⟨⟨1, 30000, 0, 2, 1, false, [1, 2]⟩, [.notifying, .resuming false, .waiting]⟩
  log := [.pushed 1, .pushed 2, .expired 1]

/-- The notification pops the timer that has expired, and the acquire behind it sleeps on. -/
theorem waiter_not_woken :
    ¬ ∀ (maxConcurrent waitTimeout : Nat) (events : List Event), 1 ≤ maxConcurrent →
      maxConcurrent ≤ intMax → 1 ≤ waitTimeout →
      Transition.Along Traced.next Traced.InOrder (.initial maxConcurrent waitTimeout) events := by
  intro ordered
  have along := ordered 1 30000 (expiredWaiter ++ [.act 0 .advance]) (by decide) (by decide) (by decide)
  have step : notifyingPast.InOrder (.act 0 .advance)
      ⟨⟨⟨1, 30000, 0, 2, 1, false, [2]⟩, [.released, .resuming false, .waiting]⟩,
        notifyingPast.log ++ [.notified 1]⟩ :=
    along.step (by decide +kernel) (by decide +kernel)
  obtain ⟨_, timer, _, _, _, _, resumes, _⟩ := step.wakes 0 rfl rfl (by decide)
  have listed := List.mem_of_getElem? resumes
  revert listed
  decide

end Hku.ConnectionManager
