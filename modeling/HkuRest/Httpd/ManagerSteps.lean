import HkuRest.Httpd.ConnectionManager

/-! What one step of a call of a connection manager can do. Every invariant of permits, of the queue
and of the waits is derived from this inversion, with no second look at the transition function. -/

namespace Hku.ConnectionManager

variable {manager : ConnectionManager} {timer : Nat} {call : Call} {action : Action} {effect : Effect}

/-- The steps of a call, with what was the case there and with all that they do. -/
inductive Acts (manager : ConnectionManager) (timer : Nat) : Call → Action → Effect → Prop
  | admits (opened : manager.isShutdown = false) :
      Acts manager timer .entered .advance ⟨manager, .opened, none⟩
  | refuses (closed : manager.isShutdown = true) :
      Acts manager timer .entered .advance ⟨manager, .refused, none⟩
  | loads : Acts manager timer .opened .advance ⟨manager, .trying manager.currentCount, none⟩
  | takes (room : manager.currentCount < manager.limit) :
      Acts manager timer (.trying manager.currentCount) .advance
        ⟨{ manager with currentCount := wrap32 (manager.currentCount + 1) }, .granted, none⟩
  | misses (action : Action) (expected : Int) (room : expected < manager.limit) :
      Acts manager timer (.trying expected) action ⟨manager, .trying manager.currentCount, none⟩
  | waits (expected : Int) (full : ¬ expected < manager.limit) :
      Acts manager timer (.trying expected) .advance
        ⟨{ manager with waitingCount := wrap32 (manager.waitingCount + 1) }, .enqueueing, none⟩
  | draws :
      Acts manager timer .granted .advance
        ⟨{ manager with nextPermitId := wrap32 (manager.nextPermitId + 1) },
          .holding manager.nextPermitId, none⟩
  | pushes :
      Acts manager timer .enqueueing .advance
        ⟨{ manager with waitQueue := manager.waitQueue ++ [timer] }, .queued, none⟩
  | suspends (timed : manager.waitTimeout ≠ 0) :
      Acts manager timer .queued .advance ⟨manager, .waiting, none⟩
  | lapses (timeless : manager.waitTimeout = 0) :
      Acts manager timer .queued .advance ⟨manager, .resuming false, none⟩
  | expires : Acts manager timer .waiting .expire ⟨manager, .resuming false, none⟩
  | dequeues (aborted : Bool) :
      Acts manager timer (.resuming aborted) .advance
        ⟨{ manager with waitQueue := removeTimer timer manager.waitQueue }, .dequeued aborted, none⟩
  | wakes :
      Acts manager timer (.dequeued true) .advance
        ⟨{ manager with waitingCount := wrap32 (manager.waitingCount - 1) }, .woken, none⟩
  | timesOut :
      Acts manager timer (.dequeued false) .advance
        ⟨{ manager with waitingCount := wrap32 (manager.waitingCount - 1) }, .refused, none⟩
  | reloads : Acts manager timer .woken .advance ⟨manager, .retrying manager.currentCount, none⟩
  | redeems :
      Acts manager timer (.retrying manager.currentCount) .advance
        ⟨{ manager with currentCount := wrap32 (manager.currentCount + 1) }, .granted, none⟩
  | retries (action : Action) (expected : Int) :
      Acts manager timer (.retrying expected) action ⟨manager, .retrying manager.currentCount, none⟩
  | releases (permitId : Int) (valid : 0 ≤ permitId) :
      Acts manager timer (.holding permitId) .release
        ⟨{ manager with currentCount := wrap32 (manager.currentCount - 1) }, .notifying, none⟩
  | notifiesNobody (empty : manager.waitQueue = []) :
      Acts manager timer .notifying .advance ⟨manager, .released, none⟩
  | notifies (front : Nat) (rest : List Nat) (filled : manager.waitQueue = front :: rest) :
      Acts manager timer .notifying .advance
        ⟨{ manager with waitQueue := rest }, .released, some front⟩
  | flags : Acts manager timer .shutting .advance ⟨{ manager with isShutdown := true }, .draining, none⟩
  | drains :
      Acts manager timer .draining .advance
        ⟨{ manager with waitQueue := [] }, .cancelling manager.waitQueue, none⟩
  | cancels (first : Nat) (rest : List Nat) :
      Acts manager timer (.cancelling (first :: rest)) .advance ⟨manager, .cancelling rest, some first⟩
  | returns :
      Acts manager timer (.cancelling []) .advance ⟨{ manager with waitingCount := 0 }, .shut, none⟩

theorem advance_acts (acted : manager.advance timer call = some effect) :
    Acts manager timer call .advance effect := by
  cases call with
  | entered =>
    cases acted
    cases flag : manager.isShutdown with
    | false => exact .admits flag
    | true => exact .refuses flag
  | trying expected =>
    simp only [advance] at acted
    split at acted
    · rename_i room
      split at acted
      · rename_i same
        cases acted
        subst same
        exact .takes room
      · cases acted
        exact .misses _ expected room
    · rename_i full
      cases acted
      exact .waits expected full
  | queued =>
    cases acted
    by_cases timeless : manager.waitTimeout = 0
    · rw [if_pos timeless]
      exact .lapses timeless
    · rw [if_neg timeless]
      exact .suspends timeless
  | dequeued aborted =>
    cases acted
    cases aborted with
    | false => exact .timesOut
    | true => exact .wakes
  | retrying expected =>
    simp only [advance] at acted
    split at acted
    · rename_i same
      cases acted
      subst same
      exact .redeems
    · cases acted
      exact .retries _ expected
  | notifying =>
    simp only [advance] at acted
    split at acted
    · rename_i empty
      cases acted
      exact .notifiesNobody empty
    · rename_i front rest filled
      cases acted
      exact .notifies front rest filled
  | cancelling timers =>
    cases timers with
    | nil =>
      cases acted
      exact .returns
    | cons first rest =>
      cases acted
      exact .cancels first rest
  | opened | granted | enqueueing | resuming | woken | shutting | draining =>
    cases acted
    constructor
  | waiting | holding | refused | released | shut => cases acted

theorem act_acts (acted : manager.act timer call action = some effect) :
    Acts manager timer call action effect := by
  cases action with
  | advance => exact advance_acts acted
  | spurious =>
    cases call with
    | trying expected =>
      simp only [act, spurious] at acted
      split at acted
      · rename_i room
        cases acted
        exact .misses _ expected room
      · cases acted
    | retrying expected =>
      cases acted
      exact .retries _ expected
    | _ => cases acted
  | expire =>
    cases call with
    | waiting =>
      cases acted
      exact .expires
    | _ => cases acted
  | release =>
    cases call with
    | holding permitId =>
      simp only [act, release] at acted
      split at acted
      · rename_i valid
        cases acted
        exact .releases permitId valid
      · cases acted
    | _ => cases acted

theorem act_limit (acted : manager.act timer call action = some effect) :
    effect.manager.limit = manager.limit := by
  cases act_acts acted <;> rfl

/-- The flag is set by the first step of `shutdown`, and the timeout never changes. -/
theorem act_members (acted : manager.act timer call action = some effect) :
    effect.manager.isShutdown = (manager.isShutdown || decide (call = .shutting)) ∧
      effect.manager.waitTimeout = manager.waitTimeout := by
  cases act_acts acted <;> simp

end Hku.ConnectionManager
