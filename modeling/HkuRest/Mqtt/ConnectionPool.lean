import HkuRest.Core.Transition
import Mathlib.Data.Int.CardIntervalMod

/-! The pool of io contexts that `MqttBroker` runs its connections on. All listeners take
their contexts from one iterator; the mutex is held from its dereference to its wrap, so that
the calls come one after another. -/

namespace Hku.ConnectionPool

/-- The coroutines that call `con_ioc_getter`. -/
inductive Listener
  | mqtt
  | ws
  | tls
  | wss
  deriving DecidableEq, Repr

/-- The contexts are numbered as they are made; the iterator is its distance from `begin()`. -/
structure Pool where
  conIocs : List Nat
  conIocsIt : Nat
  deriving DecidableEq, Repr

/-- The pool with all that it has returned so far, and to whom. -/
structure Distribution where
  pool : Pool
  returned : List (Listener × Nat)
  deriving DecidableEq, Repr

/-- The loop of the constructor makes each context anew. -/
def makeConIocs : Nat → List Nat
  | 0 => []
  | made + 1 => makeConIocs made ++ [made]

def initial (numIocs : Nat) : Distribution := ⟨⟨makeConIocs numIocs, 0⟩, []⟩

/-- The context and the pool after it; none where the iterator does not refer to an element. -/
def conIocGetter (pool : Pool) : Option (Nat × Pool) :=
  pool.conIocs[pool.conIocsIt]?.map fun ret =>
    let it := pool.conIocsIt + 1
    (ret, { pool with conIocsIt := if it = pool.conIocs.length then 0 else it })

def next (distribution : Distribution) (listener : Listener) : Option Distribution :=
  (conIocGetter distribution.pool).map fun (ret, pool) =>
    ⟨pool, distribution.returned ++ [(listener, ret)]⟩

def Distribution.timesReturned (distribution : Distribution) (ioc : Nat) : Nat :=
  (distribution.returned.map Prod.snd).count ioc

variable {n k ioc : Nat} {distribution after : Distribution}

theorem makeConIocs_eq (n : Nat) : makeConIocs n = List.range n := by
  induction n with
  | zero => rfl
  | succ n ih => rw [makeConIocs, ih, List.range_succ]

/-- After that many calls, the iterator has gone round, and each context was returned by the
calls whose number leaves the number of the context. -/
structure Fair (n k : Nat) (distribution : Distribution) : Prop where
  size : distribution.pool.conIocs = List.range n
  position : distribution.pool.conIocsIt = k % n
  times : ∀ ioc < n, distribution.timesReturned ioc = k.count (· ≡ ioc [MOD n])

theorem initial_fair (n : Nat) : Fair n 0 (initial n) where
  size := makeConIocs_eq n
  position := (Nat.zero_mod n).symm
  times ioc _ := by simp [Distribution.timesReturned, initial]

theorem wrap_eq (positive : 0 < n) (k : Nat) :
    (if k % n + 1 = n then 0 else k % n + 1) = (k + 1) % n := by
  have below := Nat.mod_lt k positive
  rw [← Nat.mod_add_mod k n 1]
  split
  · rename_i last
    rw [last, Nat.mod_self]
  · exact (Nat.mod_eq_of_lt (by omega)).symm

theorem conIocGetter_fair (positive : 0 < n) (fair : Fair n k distribution) :
    conIocGetter distribution.pool = some (k % n, ⟨List.range n, (k + 1) % n⟩) := by
  have held : (List.range n)[k % n]? = some (k % n) := by
    rw [List.getElem?_range (Nat.mod_lt k positive)]
  rw [conIocGetter, fair.size, fair.position, held, Option.map_some, List.length_range]
  exact congrArg (fun it => some (k % n, Pool.mk (List.range n) it)) (wrap_eq positive k)

theorem next_fair (positive : 0 < n) (fair : Fair n k distribution) (listener : Listener) :
    ∃ after, next distribution listener = some after ∧ Fair n (k + 1) after := by
  rw [next, conIocGetter_fair positive fair, Option.map_some]
  refine ⟨_, rfl, rfl, rfl, fun ioc listed => ?_⟩
  have turn : k % n = ioc ↔ k ≡ ioc [MOD n] := by
    rw [Nat.ModEq, Nat.mod_eq_of_lt listed]
  have before := fair.times ioc listed
  rw [Distribution.timesReturned] at before
  rw [Distribution.timesReturned, List.map_append, List.count_append, before, Nat.count_succ]
  simp [List.count_singleton, turn]

theorem execute_fair (positive : 0 < n) (fair : Fair n k distribution) (callers : List Listener) :
    ∃ last, Transition.execute next distribution callers = some last ∧
      Fair n (k + callers.length) last := by
  induction callers generalizing k distribution with
  | nil => exact ⟨distribution, rfl, fair⟩
  | cons caller rest ih =>
    obtain ⟨after, stepped, still⟩ := next_fair positive fair caller
    obtain ⟨last, executed, ended⟩ := ih still
    refine ⟨last, ?_, ?_⟩
    · rw [Transition.execute, stepped, Option.bind_some, executed]
    · rwa [Nat.add_right_comm, Nat.add_assoc] at ended

theorem Fair.it_valid (positive : 0 < n) (fair : Fair n k distribution) :
    distribution.pool.conIocsIt < distribution.pool.conIocs.length := by
  rw [fair.size, fair.position, List.length_range]
  exact Nat.mod_lt k positive

/-- The turns of a context are the calls in full rounds, and at most one of the round that is
not yet full. -/
theorem turns_eq (positive : 0 < n) (k ioc : Nat) :
    k.count (· ≡ ioc [MOD n]) = k / n ∨ k.count (· ≡ ioc [MOD n]) = (k + n - 1) / n := by
  rw [Nat.count_modEq_card k positive]
  split
  · rename_i started
    have rest : 0 < k % n := Nat.zero_lt_of_lt started
    have parts := Nat.div_add_mod k n
    have below := Nat.mod_lt k positive
    right
    have grouped : k + n - 1 = k % n - 1 + n * (k / n + 1) := by
      rw [Nat.mul_add, Nat.mul_one]
      omega
    have none : (k % n - 1) / n = 0 := Nat.div_eq_of_lt (by omega)
    rw [grouped, Nat.add_mul_div_left _ _ positive, none, Nat.zero_add]
  · exact .inl (Nat.add_zero _)

/-- Whichever listeners call, and in whatever order: no call dereferences `end()`, the iterator
refers to a context after every call, and the contexts have been returned equally often. -/
theorem conIocGetter_roundRobin (positive : 0 < n) (callers : List Listener) :
    ∃ last, Transition.execute next (initial n) callers = some last ∧
      last.pool.conIocs = (initial n).pool.conIocs ∧ last.pool.conIocs.length = n ∧
      last.pool.conIocsIt < last.pool.conIocs.length ∧
      ∀ ioc ∈ last.pool.conIocs, last.timesReturned ioc = callers.length / n ∨
        last.timesReturned ioc = (callers.length + n - 1) / n := by
  obtain ⟨last, executed, fair⟩ := execute_fair positive (initial_fair n) callers
  rw [Nat.zero_add] at fair
  refine ⟨last, executed, fair.size.trans (initial_fair n).size.symm, ?_, fair.it_valid positive, ?_⟩
  · rw [fair.size, List.length_range]
  · intro ioc member
    rw [fair.size, List.mem_range] at member
    rw [fair.times ioc member]
    exact turns_eq positive callers.length ioc

theorem conIocGetter_roundRobin_two :
    ∃ last, Transition.execute next (initial 2) [.mqtt, .wss, .mqtt] = some last ∧
      last.pool.conIocsIt < last.pool.conIocs.length ∧
      (last.timesReturned 0 = 3 / 2 ∨ last.timesReturned 0 = (3 + 2 - 1) / 2) := by
  obtain ⟨last, executed, same, -, valid, times⟩ :=
    @conIocGetter_roundRobin 2 (by decide) [.mqtt, .wss, .mqtt]
  exact ⟨last, executed, valid, times 0 (same ▸ by decide)⟩

end Hku.ConnectionPool
