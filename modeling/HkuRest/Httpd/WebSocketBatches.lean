import HkuRest.Core.Bytes
import Mathlib.Algebra.Group.Nat.Defs

/-! `WebSocketHandle::sendBatch`, for a list of messages and for a generator. The one walks over
the list by indices, the other fills a buffer; both stop at the first message that is not sent. -/

namespace Hku.WebSocketHandle

/-- What a call does, in its order. -/
inductive Effect
  | send (message : Bytes) (isText : Bool)
  | wait (milliseconds : Int)
  deriving DecidableEq, Repr

inductive Ending
  | returned (success : Bool)
  | thrown
  | dividedByZero
  deriving DecidableEq, Repr

structure Outcome where
  effects : List Effect
  ending : Ending
  deriving DecidableEq, Repr

/-- A vector of messages; no vector has as many as half the range of `size_t`. -/
structure Messages where
  items : List Bytes
  fits : items.length < 2 ^ 63

/-- What a call is given, and how its sends turn out. -/
structure Batching where
  isText : Bool
  batchSize : UInt64
  batchInterval : Int
  sendOk : Nat → Bool

/-- Addition of `size_t`. -/
def sizeAdd (left right : Nat) : Nat := (left + right) % 2 ^ 64

namespace Batching

variable (call : Batching)

/-- The loop over messages of which none was sent yet, after so many that were. -/
def sendAll : Nat → List Bytes → List Effect × Bool
  | _, [] => ([], true)
  | sent, message :: rest =>
      if call.sendOk sent then
        let (effects, success) := sendAll (sent + 1) rest
        (.send message call.isText :: effects, success)
      else ([.send message call.isText], false)

/-- The loop over the batches, from index `i` on. -/
def sendBatches (messages : List Bytes) (totalBatches : Nat) : Nat → Nat → Nat → Nat → Option Outcome
  | 0, _, _, _ => none
  | fuel + 1, i, currentBatch, sent =>
      if i < messages.length then
        let next := sizeAdd i call.batchSize.toNat
        let batch := (messages.take (min next messages.length)).drop i
        match call.sendAll sent batch with
        | (effects, false) => some ⟨effects, .returned false⟩
        | (effects, true) =>
            let pause := if currentBatch + 1 < totalBatches then [.wait call.batchInterval] else []
            (sendBatches messages totalBatches fuel next (currentBatch + 1) (sent + batch.length)).map
              fun later => ⟨effects ++ pause ++ later.effects, later.ending⟩
      else some ⟨[], .returned true⟩

def sendBatch (connected : Bool) (messages : Messages) (fuel : Nat) : Option Outcome :=
  let size := messages.items.length
  if messages.items = [] then some ⟨[], .returned true⟩
  else if !connected then some ⟨[], .returned false⟩
  else if size ≤ call.batchSize.toNat then
    let (effects, success) := call.sendAll 0 messages.items
    some ⟨effects, .returned success⟩
  else if call.batchSize = 0 then some ⟨[], .dividedByZero⟩
  else
    let totalBatches := sizeAdd (size + call.batchSize.toNat) (2 ^ 64 - 1) / call.batchSize.toNat
    call.sendBatches messages.items totalBatches fuel 0 0 0

/-- So many calls of the generator, unless it ends before: the batch, whether it is whole, and how
often the generator was called by then. -/
def collect (generator : Nat → Option Bytes) : Nat → Nat → List Bytes × Bool × Nat
  | 0, called => ([], true, called)
  | missing + 1, called =>
      match generator called with
      | none => ([], false, called + 1)
      | some message =>
          let (batch, whole, called) := collect generator missing (called + 1)
          (message :: batch, whole, called)

/-- The loop over the batches; `send_remaining` is where the generator ends. -/
def streamBatches (generator : Nat → Option Bytes) : Nat → Nat → Nat → Option Outcome
  | 0, _, _ => none
  | fuel + 1, called, sent =>
      let (batch, whole, called) := collect generator call.batchSize.toNat called
      match call.sendAll sent batch with
      | (effects, false) => some ⟨effects, .returned false⟩
      | (effects, true) =>
          if whole then
            (streamBatches generator fuel called (sent + batch.length)).map fun later =>
              ⟨effects ++ [.wait call.batchInterval] ++ later.effects, later.ending⟩
          else some ⟨effects, .returned true⟩

/-- For a generator that may be null. `reserve` throws for more than `reservable` messages. -/
def sendBatchFrom (reservable : Nat) (connected : Bool) (generator : Option (Nat → Option Bytes))
    (fuel : Nat) : Option Outcome :=
  match generator with
  | none => some ⟨[], .returned false⟩
  | some generator =>
      if !connected then some ⟨[], .returned false⟩
      else if reservable < call.batchSize.toNat then some ⟨[], .thrown⟩
      else call.streamBatches generator fuel 0 0

def Effect.sends : Effect → Option (Bytes × Bool)
  | .send message isText => some (message, isText)
  | .wait _ => none

/-- The calls of `send`, in their order. -/
def sends (effects : List Effect) : List (Bytes × Bool) := effects.filterMap Effect.sends

@[simp] theorem sends_nil : sends [] = [] := rfl

@[simp] theorem sends_append (left right : List Effect) :
    sends (left ++ right) = sends left ++ sends right :=
  List.filterMap_append

@[simp] theorem sends_send (message : Bytes) (isText : Bool) (effects : List Effect) :
    sends (.send message isText :: effects) = (message, isText) :: sends effects := rfl

/-- No send failed and all messages were sent in order, or the sends stop right after the first
that failed. -/
def InOrder (sendOk : Nat → Bool) (isText : Bool) (messages : List Bytes)
    (sent : List (Bytes × Bool)) (success : Bool) : Prop :=
  (success = true ∧ (∀ n < messages.length, sendOk n = true) ∧ sent = messages.map (·, isText)) ∨
  (success = false ∧ ∃ n < messages.length, (∀ earlier < n, sendOk earlier = true) ∧
    sendOk n = false ∧ sent = (messages.take (n + 1)).map (·, isText))

theorem sendAll_inOrder (sent : Nat) (messages : List Bytes) :
    InOrder (fun n => call.sendOk (sent + n)) call.isText messages
      (sends (call.sendAll sent messages).1) (call.sendAll sent messages).2 := by
  induction messages generalizing sent with
  | nil => exact .inl ⟨rfl, by simp, rfl⟩
  | cons message rest ih =>
    cases ok : call.sendOk sent with
    | false =>
      refine .inr ⟨by simp [sendAll, ok], 0, by simp, by simp, by simpa using ok, ?_⟩
      simp [sendAll, ok]
    | true =>
      have shift (n : Nat) : sent + 1 + n = sent + (n + 1) := by omega
      simp only [sendAll, ok, if_true, sends_send]
      rcases ih (sent + 1) with ⟨success, all, sendsEq⟩ | ⟨failure, n, bound, before, failed, sendsEq⟩
      · refine .inl ⟨success, fun n bound => ?_, by rw [sendsEq, List.map_cons]⟩
        cases n with
        | zero => exact ok
        | succ n => simpa only [shift] using all n (by simpa using bound)
      · refine .inr ⟨failure, n + 1, by simpa using bound, fun earlier less => ?_, ?_, ?_⟩
        · cases earlier with
          | zero => exact ok
          | succ earlier => simpa only [shift] using before earlier (by omega)
        · simpa only [shift] using failed
        · rw [sendsEq, List.take_succ_cons, List.map_cons]

theorem sendAll_append_failed {sent : Nat} {left : List Bytes} {effects : List Effect}
    (sending : call.sendAll sent left = (effects, false)) (right : List Bytes) :
    call.sendAll sent (left ++ right) = (effects, false) := by
  induction left generalizing sent effects with
  | nil => cases sending
  | cons message rest ih =>
    cases ok : call.sendOk sent with
    | false => simpa [sendAll, ok] using sending
    | true =>
      simp only [sendAll, ok, if_true, Prod.mk.injEq] at sending
      obtain ⟨rfl, failed⟩ := sending
      simp [sendAll, ok, ih (Prod.ext rfl failed)]

theorem sendAll_append_sent {sent : Nat} {left : List Bytes} {effects : List Effect}
    (sending : call.sendAll sent left = (effects, true)) (right : List Bytes) :
    call.sendAll sent (left ++ right) =
      (effects ++ (call.sendAll (sent + left.length) right).1,
        (call.sendAll (sent + left.length) right).2) := by
  induction left generalizing sent effects with
  | nil =>
    cases sending
    rfl
  | cons message rest ih =>
    cases ok : call.sendOk sent with
    | false => simp [sendAll, ok] at sending
    | true =>
      simp only [sendAll, ok, if_true, Prod.mk.injEq] at sending
      obtain ⟨rfl, done⟩ := sending
      have shift : sent + 1 + rest.length = sent + (rest.length + 1) := by omega
      simp [sendAll, ok, ih (Prod.ext rfl done), shift]

/-- With enough fuel the call ends so. -/
def Ends (run : Nat → Option Outcome) (outcome : Outcome) : Prop :=
  ∃ enough, ∀ fuel, enough ≤ fuel → run fuel = some outcome

theorem Ends.unique {run : Nat → Option Outcome} {one other : Outcome} (first : Ends run one)
    (second : Ends run other) : one = other := by
  obtain ⟨enough, one⟩ := first
  obtain ⟨sufficient, other⟩ := second
  have agree := (one (max enough sufficient) (Nat.le_max_left _ _)).symm.trans
    (other _ (Nat.le_max_right _ _))
  exact Option.some.inj agree

theorem Ends.const (outcome : Outcome) : Ends (fun _ => some outcome) outcome := ⟨0, fun _ _ => rfl⟩

/-- The outcome sends what a loop over all messages would, and returns the same. -/
def Agrees (outcome : Outcome) (sending : List Effect × Bool) : Prop :=
  sends outcome.effects = sends sending.1 ∧ outcome.ending = .returned sending.2

/-- What is left of a loop after a batch: it returns, or pauses and goes on. -/
def afterBatch (pause : List Effect) (next : Option Outcome) : List Effect × Bool → Option Outcome
  | (effects, false) => some ⟨effects, .returned false⟩
  | (effects, true) => next.map fun later => ⟨effects ++ pause ++ later.effects, later.ending⟩

/-- With so much fuel the loop ends as one over these messages would. -/
def EndsAs (run : Nat → Option Outcome) (bound : Nat) (sending : List Effect × Bool) : Prop :=
  ∃ outcome, Agrees outcome sending ∧ ∀ fuel, bound < fuel → run fuel = some outcome

/-- One batch and what comes after it end as a loop over the messages of both. -/
theorem EndsAs.round {run next : Nat → Option Outcome} {less bound sent : Nat}
    {batch rest : List Bytes} {pause : List Effect} (silent : sends pause = []) (nearer : less < bound)
    (round : ∀ fuel, run (fuel + 1) = afterBatch pause (next fuel) (call.sendAll sent batch))
    (ends : EndsAs next less (call.sendAll (sent + batch.length) rest)) :
    EndsAs run bound (call.sendAll sent (batch ++ rest)) := by
  obtain ⟨effects, success, sending⟩ :
      ∃ effects success, call.sendAll sent batch = (effects, success) := ⟨_, _, rfl⟩
  cases success with
  | false =>
    refine ⟨⟨effects, .returned false⟩, ?_, fun fuel enough => ?_⟩
    · rw [sendAll_append_failed call sending rest]
      exact ⟨rfl, rfl⟩
    · obtain ⟨fuel, rfl⟩ := Nat.exists_eq_succ_of_ne_zero (Nat.ne_zero_of_lt enough)
      rw [round, sending]
      rfl
  | true =>
    obtain ⟨later, agrees, ends⟩ := ends
    refine ⟨⟨effects ++ pause ++ later.effects, later.ending⟩, ?_, fun fuel enough => ?_⟩
    · rw [sendAll_append_sent call sending rest]
      exact ⟨by simp [silent, agrees.1], agrees.2⟩
    · obtain ⟨fuel, rfl⟩ := Nat.exists_eq_succ_of_ne_zero (Nat.ne_zero_of_lt enough)
      rw [round, sending, ends fuel (by omega)]
      rfl

theorem EndsAs.last {run : Nat → Option Outcome} {sending : List Effect × Bool}
    (round : ∀ fuel, run (fuel + 1) = some ⟨sending.1, .returned sending.2⟩) (bound : Nat) :
    EndsAs run bound sending := by
  refine ⟨⟨sending.1, .returned sending.2⟩, ⟨rfl, rfl⟩, fun fuel enough => ?_⟩
  obtain ⟨fuel, rfl⟩ := Nat.exists_eq_succ_of_ne_zero (Nat.ne_zero_of_lt enough)
  exact round fuel

theorem sizeAdd_of_lt {left right : Nat} (fits : left + right < 2 ^ 64) :
    sizeAdd left right = left + right :=
  Nat.mod_eq_of_lt fits

theorem batch_eq (messages : List Bytes) (i size : Nat) :
    (messages.take (min (i + size) messages.length)).drop i = (messages.drop i).take size := by
  rw [← List.take_eq_take_min, List.drop_take, Nat.add_sub_cancel_left]

/-- By induction on the messages left: every batch takes at least one of them, and the index does
not wrap, since neither it nor the batch size reaches half the range. -/
theorem sendBatches_ends (positive : 0 < call.batchSize.toNat) {messages : List Bytes}
    (fits : messages.length < 2 ^ 63) (short : call.batchSize.toNat < messages.length)
    (totalBatches i currentBatch sent : Nat) :
    EndsAs (call.sendBatches messages totalBatches · i currentBatch sent) (messages.length - i)
      (call.sendAll sent (messages.drop i)) := by
  induction remaining : messages.length - i using Nat.strong_induction_on
    generalizing i currentBatch sent with
  | h left ih =>
    by_cases inside : i < messages.length
    · let size := call.batchSize.toNat
      let batch := (messages.drop i).take size
      let pause : List Effect :=
        if currentBatch + 1 < totalBatches then [.wait call.batchInterval] else []
      have silent : sends pause = [] := by
        dsimp only [pause]
        split <;> rfl
      have next : sizeAdd i call.batchSize.toNat = i + size := sizeAdd_of_lt (by omega)
      have split : messages.drop i = batch ++ messages.drop (i + size) := by
        rw [← List.drop_drop, List.take_append_drop]
      have round (fuel : Nat) : call.sendBatches messages totalBatches (fuel + 1) i currentBatch sent =
          afterBatch pause (call.sendBatches messages totalBatches fuel (i + size) (currentBatch + 1)
            (sent + batch.length)) (call.sendAll sent batch) := by
        simp only [sendBatches, inside, if_true, next, batch_eq]
        rfl
      have later := ih (messages.length - (i + size)) (by omega) (i + size) (currentBatch + 1)
        (sent + batch.length) rfl
      rw [split]
      exact later.round call silent (by omega) round
    · rw [List.drop_eq_nil_of_le (by omega)]
      exact .last (fun fuel => by simp [sendBatches, inside, sendAll]) left

/-- The list ends as one loop over it would, whether it is shorter than a batch or not. -/
theorem sendBatch_ends (positive : 0 < call.batchSize.toNat) (messages : Messages) :
    ∃ outcome, Ends (call.sendBatch true messages) outcome ∧
      Agrees outcome (call.sendAll 0 messages.items) := by
  by_cases empty : messages.items = []
  · refine ⟨⟨[], .returned true⟩, ⟨0, fun fuel _ => by simp [sendBatch, empty]⟩, ?_⟩
    rw [empty]
    exact ⟨rfl, rfl⟩
  by_cases short : messages.items.length ≤ call.batchSize.toNat
  · exact ⟨⟨(call.sendAll 0 messages.items).1, .returned (call.sendAll 0 messages.items).2⟩,
      ⟨0, fun fuel _ => by simp [sendBatch, empty, short]⟩, rfl, rfl⟩
  · have nonzero : call.batchSize ≠ 0 := fun zero => by simp [zero] at positive
    obtain ⟨outcome, agrees, ends⟩ := call.sendBatches_ends positive messages.fits (by omega)
      (sizeAdd (messages.items.length + call.batchSize.toNat) (2 ^ 64 - 1) / call.batchSize.toNat) 0 0 0
    refine ⟨outcome, ⟨messages.items.length + 1, fun fuel enough => ?_⟩, agrees⟩
    simp only [sendBatch, empty, short, nonzero, if_false, Bool.not_true, Bool.false_eq_true]
    exact ends fuel (by omega)

theorem toNat_pos (nonzero : call.batchSize ≠ 0) : 0 < call.batchSize.toNat :=
  Nat.pos_of_ne_zero fun zero => nonzero (UInt64.toNat_inj.mp zero)

theorem sendBatch_of_zero (zero : call.batchSize = 0) {messages : Messages}
    (nonempty : messages.items ≠ []) (fuel : Nat) :
    call.sendBatch true messages fuel = some ⟨[], .dividedByZero⟩ := by
  simp [sendBatch, nonempty, zero]

/-- The generator gives these messages, one by one, and then ends. -/
def Feeds (generator : Nat → Option Bytes) (messages : List Bytes) : Prop :=
  ∀ n ≤ messages.length, generator n = messages[n]?

theorem feeds_getElem? (messages : List Bytes) : Feeds (fun n => messages[n]?) messages :=
  fun _ _ => rfl

theorem feeds_nil {generator : Nat → Option Bytes} (ends : generator 0 = none) :
    Feeds generator [] := by
  intro n bound
  rw [Nat.le_zero.mp bound]
  exact ends

theorem Feeds.cons {generator : Nat → Option Bytes} {message : Bytes} {rest : List Bytes}
    (first : generator 0 = some message) (feeds : Feeds (fun n => generator (n + 1)) rest) :
    Feeds generator (message :: rest) := by
  intro n bound
  cases n with
  | zero => exact first
  | succ n => exact feeds n (Nat.le_of_succ_le_succ bound)

theorem feeds_of_ends {generator : Nat → Option Bytes} {n : Nat} (ends : generator n = none) :
    ∃ messages, Feeds generator messages := by
  induction n generalizing generator with
  | zero => exact ⟨[], feeds_nil ends⟩
  | succ n ih =>
    cases first : generator 0 with
    | none => exact ⟨[], feeds_nil first⟩
    | some message =>
      obtain ⟨rest, feeds⟩ := @ih (fun k => generator (k + 1)) ends
      exact ⟨message :: rest, feeds.cons first⟩

theorem Feeds.collect {generator : Nat → Option Bytes} {messages : List Bytes}
    (feeds : Feeds generator messages) (missing called : Nat) (bound : called ≤ messages.length) :
    collect generator missing called =
      if called + missing ≤ messages.length then
        ((messages.drop called).take missing, true, called + missing)
      else (messages.drop called, false, messages.length + 1) := by
  induction missing generalizing called with
  | zero => simp [Batching.collect, bound]
  | succ missing ih =>
    rw [Batching.collect, feeds called bound]
    rcases Nat.lt_or_eq_of_le bound with less | rfl
    · rw [List.getElem?_eq_getElem less, ih (called + 1) less]
      have shift : called + 1 + missing = called + (missing + 1) := by omega
      rw [List.drop_eq_getElem_cons less, shift]
      by_cases whole : called + (missing + 1) ≤ messages.length
      · simp only [whole, if_true, List.take_succ_cons]
      · simp only [whole, if_false]
    · simp

/-- By induction on the messages left: a whole batch takes at least one of them. -/
theorem streamBatches_ends (positive : 0 < call.batchSize.toNat) {generator : Nat → Option Bytes}
    {messages : List Bytes} (feeds : Feeds generator messages) (called sent : Nat)
    (bound : called ≤ messages.length) :
    EndsAs (call.streamBatches generator · called sent) (messages.length - called)
      (call.sendAll sent (messages.drop called)) := by
  induction remaining : messages.length - called using Nat.strong_induction_on
    generalizing called sent with
  | h left ih =>
    let size := call.batchSize.toNat
    by_cases whole : called + size ≤ messages.length
    · let batch := (messages.drop called).take size
      have split : messages.drop called = batch ++ messages.drop (called + size) := by
        rw [← List.drop_drop, List.take_append_drop]
      have collected : collect generator call.batchSize.toNat called = (batch, true, called + size) := by
        rw [feeds.collect _ _ bound, if_pos whole]
      have round (fuel : Nat) : call.streamBatches generator (fuel + 1) called sent =
          afterBatch [.wait call.batchInterval]
            (call.streamBatches generator fuel (called + size) (sent + batch.length))
            (call.sendAll sent batch) := by
        simp only [streamBatches, collected, if_true]
        rfl
      have later := ih (messages.length - (called + size)) (by omega) (called + size)
        (sent + batch.length) whole rfl
      rw [split]
      exact later.round call rfl (by omega) round
    · have collected : collect generator call.batchSize.toNat called =
          (messages.drop called, false, messages.length + 1) := by
        rw [feeds.collect _ _ bound, if_neg whole]
      refine .last (fun fuel => ?_) left
      obtain ⟨effects, success, sending⟩ :
          ∃ effects success, call.sendAll sent (messages.drop called) = (effects, success) := ⟨_, _, rfl⟩
      cases success <;> simp [streamBatches, collected, sending]

/-- Batches of no messages are whole without the generator being asked for any. -/
theorem streamBatches_of_zero (zero : call.batchSize = 0) (generator : Nat → Option Bytes)
    (fuel called sent : Nat) : call.streamBatches generator fuel called sent = none := by
  induction fuel generalizing called sent with
  | zero => rfl
  | succ fuel ih => simp [streamBatches, zero, collect, sendAll, ih]

/-- A list and a generator of its messages: both calls make the same sends, the messages in order
up to the first that fails, and return the same. -/
def Same (reservable : Nat) (messages : Messages) (generator : Nat → Option Bytes) : Prop :=
  ∃ listed streamed success, Ends (call.sendBatch true messages) listed ∧
    Ends (call.sendBatchFrom reservable true (some generator)) streamed ∧
    listed.ending = .returned success ∧ streamed.ending = .returned success ∧
    sends listed.effects = sends streamed.effects ∧
    InOrder call.sendOk call.isText messages.items (sends listed.effects) success

theorem sendBatchFrom_ends {reservable : Nat} (positive : 0 < call.batchSize.toNat)
    (room : call.batchSize.toNat ≤ reservable) {generator : Nat → Option Bytes} {messages : List Bytes}
    (feeds : Feeds generator messages) :
    ∃ outcome, Ends (call.sendBatchFrom reservable true (some generator)) outcome ∧
      Agrees outcome (call.sendAll 0 messages) := by
  obtain ⟨outcome, agrees, ends⟩ := call.streamBatches_ends positive feeds 0 0 (Nat.zero_le _)
  refine ⟨outcome, ⟨messages.length + 1, fun fuel enough => ?_⟩, agrees⟩
  simp only [sendBatchFrom, Bool.not_true, Bool.false_eq_true, if_false, Nat.not_lt.mpr room]
  exact ends fuel (by omega)

theorem sendBatchFrom_of_full {reservable : Nat} (full : reservable < call.batchSize.toNat)
    (generator : Nat → Option Bytes) (fuel : Nat) :
    call.sendBatchFrom reservable true (some generator) fuel = some ⟨[], .thrown⟩ := by
  simp [sendBatchFrom, full]

/-- Without a batch size the generator's loop never ends. -/
theorem sendBatchFrom_of_zero (zero : call.batchSize = 0) (reservable : Nat)
    (generator : Nat → Option Bytes) (fuel : Nat) :
    call.sendBatchFrom reservable true (some generator) fuel = none := by
  simp only [sendBatchFrom, zero, UInt64.toNat_zero, Nat.not_lt_zero, if_false, Bool.not_true,
    Bool.false_eq_true]
  exact call.streamBatches_of_zero zero generator fuel 0 0

/-- The calls are the same exactly for the batch sizes that are not zero and that `reserve` makes
room for. -/
theorem sendBatch_same_iff (reservable : Nat) (messages : Messages) (generator : Nat → Option Bytes)
    (feeds : Feeds generator messages.items) :
    call.Same reservable messages generator ↔
      0 < call.batchSize ∧ call.batchSize.toNat ≤ reservable := by
  constructor
  · rintro ⟨listed, streamed, success, -, streams, -, returned, -⟩
    constructor
    · by_contra stalls
      have zero : call.batchSize = 0 := UInt64.le_zero_iff.mp (UInt64.not_lt.mp stalls)
      obtain ⟨enough, streams⟩ := streams
      have never := call.sendBatchFrom_of_zero zero reservable generator enough
      rw [streams enough le_rfl] at never
      cases never
    · by_contra full
      have throws := call.sendBatchFrom_of_full (Nat.lt_of_not_le full) generator
      rw [streams.unique ⟨0, fun fuel _ => throws fuel⟩] at returned
      cases returned
  · rintro ⟨positive, room⟩
    have positive : 0 < call.batchSize.toNat := UInt64.lt_iff_toNat_lt.mp positive
    obtain ⟨listed, lists, listedSends, listedReturns⟩ := call.sendBatch_ends positive messages
    obtain ⟨streamed, streams, streamedSends, streamedReturns⟩ :=
      call.sendBatchFrom_ends positive room feeds
    refine ⟨listed, streamed, _, lists, streams, listedReturns, streamedReturns,
      listedSends.trans streamedSends.symm, ?_⟩
    simpa only [listedSends, Nat.zero_add] using call.sendAll_inOrder 0 messages.items

theorem sendBatch_same_iff_pairs :
    Same ⟨true, 2, 10, fun _ => true⟩ 8 ⟨[[97], [98], [99]], by decide⟩
        (fun n => [[97], [98], [99]][n]?) ↔
      (0 : UInt64) < 2 ∧ (2 : UInt64).toNat ≤ 8 :=
  sendBatch_same_iff ⟨true, 2, 10, fun _ => true⟩ 8 ⟨[[97], [98], [99]], by decide⟩ _
    (feeds_getElem? [[97], [98], [99]])

/-- For the largest batch size the list is sent at once, and the generator's call throws before
it asks for a message: no vector of strings holds so many. -/
theorem largest_batch_throws :
    ¬ ∀ (call : Batching) (messages : Messages), 0 < call.batchSize →
      call.Same (2 ^ 58 - 1) messages (fun n => messages.items[n]?) := by
  intro same
  let call : Batching := ⟨true, 0xffffffffffffffff, 10, fun _ => true⟩
  obtain ⟨_, streamed, _, -, streams, -, returned, -⟩ := same call ⟨[[97]], by decide⟩ (by decide)
  have full : 2 ^ 58 - 1 < call.batchSize.toNat := by decide
  have throws := call.sendBatchFrom_of_full full
  rw [streams.unique ⟨0, fun fuel _ => throws _ fuel⟩] at returned
  cases returned

/-- The call returns or throws, and does not divide by zero. -/
def Terminates (run : Nat → Option Outcome) : Prop :=
  ∃ outcome, Ends run outcome ∧ outcome.ending ≠ .dividedByZero

theorem Terminates.of_agrees {run : Nat → Option Outcome} {outcome : Outcome}
    {sending : List Effect × Bool} (ends : Ends run outcome) (agrees : Agrees outcome sending) :
    Terminates run := by
  refine ⟨outcome, ends, ?_⟩
  rw [agrees.2]
  exact Ending.noConfusion

theorem not_terminates_of_none {run : Nat → Option Outcome} (never : ∀ fuel, run fuel = none) :
    ¬ Terminates run := by
  rintro ⟨outcome, ⟨enough, ends⟩, -⟩
  cases (never enough).symm.trans (ends enough le_rfl)

theorem not_terminates_of_division {run : Nat → Option Outcome} {effects : List Effect}
    (divides : ∀ fuel, run fuel = some ⟨effects, .dividedByZero⟩) : ¬ Terminates run := by
  rintro ⟨outcome, ends, returns⟩
  rw [ends.unique ⟨0, fun fuel _ => divides fuel⟩] at returns
  exact returns rfl

theorem list_terminates_iff (connected : Bool) (messages : Messages) :
    Terminates (call.sendBatch connected messages) ↔
      call.batchSize ≠ 0 ∨ messages.items = [] ∨ connected = false := by
  cases connected with
  | false =>
    refine iff_of_true ?_ (.inr (.inr rfl))
    by_cases empty : messages.items = []
    · exact ⟨⟨[], .returned true⟩, ⟨0, fun _ _ => by simp [sendBatch, empty]⟩, Ending.noConfusion⟩
    · exact ⟨⟨[], .returned false⟩, ⟨0, fun _ _ => by simp [sendBatch, empty]⟩, Ending.noConfusion⟩
  | true =>
    by_cases empty : messages.items = []
    · refine iff_of_true ?_ (.inr (.inl empty))
      exact ⟨⟨[], .returned true⟩, ⟨0, fun _ _ => by simp [sendBatch, empty]⟩, Ending.noConfusion⟩
    by_cases zero : call.batchSize = 0
    · refine iff_of_false (not_terminates_of_division (call.sendBatch_of_zero zero empty)) ?_
      simp [zero, empty]
    · obtain ⟨outcome, ends, agrees⟩ := call.sendBatch_ends (call.toNat_pos zero) messages
      exact iff_of_true (.of_agrees ends agrees) (.inl zero)

theorem generator_terminates_iff (reservable : Nat) (connected : Bool)
    (generator : Option (Nat → Option Bytes))
    (ends : ∀ next, generator = some next → ∃ n, next n = none) :
    Terminates (call.sendBatchFrom reservable connected generator) ↔
      call.batchSize ≠ 0 ∨ generator = none ∨ connected = false := by
  rcases generator with - | next
  · exact iff_of_true ⟨⟨[], .returned false⟩, Ends.const _, Ending.noConfusion⟩ (.inr (.inl rfl))
  cases connected with
  | false =>
    exact iff_of_true ⟨⟨[], .returned false⟩, Ends.const _, Ending.noConfusion⟩ (.inr (.inr rfl))
  | true =>
    by_cases zero : call.batchSize = 0
    · refine iff_of_false (not_terminates_of_none
        (call.sendBatchFrom_of_zero zero reservable next)) ?_
      simp [zero]
    refine iff_of_true ?_ (.inl zero)
    by_cases room : call.batchSize.toNat ≤ reservable
    · obtain ⟨n, last⟩ := ends next rfl
      obtain ⟨messages, feeds⟩ := feeds_of_ends last
      obtain ⟨outcome, finishes, agrees⟩ := call.sendBatchFrom_ends (call.toNat_pos zero) room feeds
      exact .of_agrees finishes agrees
    · have throws := call.sendBatchFrom_of_full (Nat.lt_of_not_le room) next
      exact ⟨⟨[], .thrown⟩, ⟨0, fun fuel _ => throws fuel⟩, Ending.noConfusion⟩

/-- Both calls terminate for every batch size other than zero. With zero only those do that return
before they look at it. -/
theorem sendBatch_terminates_iff (reservable : Nat) (connected : Bool) (messages : Messages)
    (generator : Option (Nat → Option Bytes))
    (ends : ∀ next, generator = some next → ∃ n, next n = none) :
    (Terminates (call.sendBatch connected messages) ↔
      call.batchSize ≠ 0 ∨ messages.items = [] ∨ connected = false) ∧
    (Terminates (call.sendBatchFrom reservable connected generator) ↔
      call.batchSize ≠ 0 ∨ generator = none ∨ connected = false) :=
  ⟨call.list_terminates_iff connected messages,
    call.generator_terminates_iff reservable connected generator ends⟩

theorem sendBatch_terminates_iff_endless :
    (Terminates (sendBatch ⟨true, 0, 10, fun _ => true⟩ true ⟨[[97]], by decide⟩) ↔
      (0 : UInt64) ≠ 0 ∨ [[97]] = ([] : List Bytes) ∨ true = false) ∧
    (Terminates (sendBatchFrom ⟨true, 0, 10, fun _ => true⟩ 8 true (some fun n => [[97]][n]?)) ↔
      (0 : UInt64) ≠ 0 ∨ (some fun n : Nat => ([[97]] : List Bytes)[n]?) = none ∨ true = false) :=
  sendBatch_terminates_iff ⟨true, 0, 10, fun _ => true⟩ 8 true ⟨[[97]], by decide⟩
    (some fun n => [[97]][n]?) (fun next is => ⟨1, by cases is; rfl⟩)

/-- With a batch size of zero the list divides by it, and the generator is never asked for a
message while its loop goes on. -/
theorem zero_batch_never_ends :
    ¬ Terminates (sendBatch ⟨true, 0, 10, fun _ => true⟩ true ⟨[[97]], by decide⟩) ∧
    ¬ Terminates (sendBatchFrom ⟨true, 0, 10, fun _ => true⟩ 8 true (some fun n => [[97]][n]?)) :=
  ⟨not_terminates_of_division (sendBatch_of_zero _ rfl (List.cons_ne_nil _ _)),
    not_terminates_of_none (sendBatchFrom_of_zero _ rfl 8 _)⟩

end Batching

end Hku.WebSocketHandle
