import HkuRest.Core.ByteReads
import HkuRest.Httpd.MessageValidation

/-! `validateWebSocketMessage` as it goes over the message by index, with every byte that
it reads. It has the result of the function over lists, and reads inside of the message. -/

namespace Hku.MessageValidation

open ByteReads

/-- Sums of type `size_t`. -/
def sizeT (value : Nat) : Nat := value % 2 ^ 64

/-- The loop over `j`, for that many bytes. -/
def readContinuation (i : Nat) : Nat → Nat → ByteReads Bool
  | _, 0 => pure true
  | j, count + 1 => do
      let cont ← read (sizeT (i + j))
      if cont &&& 0xc0 ≠ 0x80 then return false
      readContinuation i (j + 1) count

def readCodepoint (c : UInt8) (i : Nat) : ByteReads Nat := do
  let c1 ← read (sizeT (i + 1))
  let c2 ← read (sizeT (i + 2))
  let c3 ← read (sizeT (i + 3))
  return (c &&& 0x07).toNat <<< 18 ||| (c1 &&& 0x3f).toNat <<< 12 ||| (c2 &&& 0x3f).toNat <<< 6 |||
    (c3 &&& 0x3f).toNat

/-- What is looked at in a sequence of this length. -/
def readSequence (size i : Nat) (c : UInt8) (seqLen : Nat) : ByteReads (Round Bool) := do
  if size < sizeT (i + seqLen) then return .leave false
  if !(← readContinuation i 1 (seqLen - 1)) then return .leave false
  if seqLen = 2 ∧ c < 0xc2 then return .leave false
  if seqLen = 4 then
    let codepoint ← readCodepoint c i
    if 0x10ffff < codepoint then return .leave false
    if 0xd800 ≤ codepoint ∧ codepoint ≤ 0xdfff then return .leave false
  return .goOn (sizeT (i + seqLen))

def readRound (size i : Nat) : ByteReads (Round Bool) := do
  let c ← read i
  match seqLen c with
  | none => return .leave false
  | some seqLen => readSequence size i c seqLen

/-- `for (char c : message)` -/
def filterRound (i : Nat) : ByteReads (Round Bool) := do
  let uc ← read i
  if filtered uc then return .leave false
  return .goOn (i + 1)

/-- The whole function; each loop may take this many rounds. -/
def readMessage (size : Nat) (isText : Bool) (fuel : Nat) : ByteReads (Option Bool) := do
  if size = 0 then return some false
  if WebSocketConfig.MAX_FRAME_SIZE < size then return some false
  if WebSocketConfig.MAX_MESSAGE_SIZE < size then return some false
  if isText then
    match ← whileBelow size (readRound size) true fuel 0 with
    | some true => whileBelow size filterRound true fuel 0
    | stopped => return stopped
  else return some true

variable {message : Bytes} {c : UInt8} {i j count size : Nat}

theorem sizeT_of_le {value : Nat} (short : message.length ≤ WebSocketConfig.MAX_FRAME_SIZE)
    (held : value ≤ message.length + 4) : sizeT value = value := by
  apply Nat.mod_eq_of_lt
  simp only [WebSocketConfig.MAX_FRAME_SIZE] at short
  omega

theorem readContinuation_spec (i j count : Nat)
    (short : message.length ≤ WebSocketConfig.MAX_FRAME_SIZE) (held : i + j + count ≤ message.length) :
    Inside (readContinuation i j count) message ∧
      (readContinuation i j count).value message =
        !((message.drop (i + j)).take count).any fun cont => cont &&& 0xc0 ≠ 0x80 := by
  induction count generalizing j with
  | zero => exact ⟨inside_pure _ _, by simp [readContinuation]⟩
  | succ count ih =>
    have below : i + j < message.length := by omega
    obtain ⟨inside, answer⟩ := ih (j + 1) (by omega)
    rw [readContinuation, sizeT_of_le short (by omega), List.drop_eq_getElem_cons below]
    constructor
    · apply inside_bind (inside_read below)
      split
      · exact inside_pure _ _
      · exact inside
    · rw [value_bind, value_read_of_lt below, List.take_succ_cons, List.any_cons]
      split
      · rename_i bad
        simp [bad]
      · rename_i good
        rw [answer]
        simp [good, Nat.add_assoc]

theorem readCodepoint_spec (c : UInt8) (i : Nat) (short : message.length ≤ WebSocketConfig.MAX_FRAME_SIZE)
    (held : i + 4 ≤ message.length) :
    Inside (readCodepoint c i) message ∧
      (readCodepoint c i).value message = codepoint (c :: (message.drop (i + 1)).take 3) := by
  have first : i + 1 < message.length := by omega
  have second : i + 2 < message.length := by omega
  have third : i + 3 < message.length := by omega
  rw [readCodepoint, sizeT_of_le short (by omega), sizeT_of_le short (by omega),
    sizeT_of_le short (by omega)]
  constructor
  · exact inside_bind (inside_read first) (inside_bind (inside_read second)
      (inside_bind (inside_read third) (inside_pure _ _)))
  · have following : (message.drop (i + 1)).take 3 = [message[i + 1], message[i + 2], message[i + 3]] := by
      rw [List.drop_eq_getElem_cons first, List.drop_eq_getElem_cons second,
        List.drop_eq_getElem_cons third]
      rfl
    rw [following, value_bind, value_bind, value_bind, value_read_of_lt first, value_read_of_lt second,
      value_read_of_lt third]
    rfl

/-- What a round comes to, as it is decided on the rest of the message. -/
def roundOf (i : Nat) (checked : Option Nat) : Round Bool :=
  match checked with
  | none => .leave false
  | some seqLen => .goOn (i + seqLen)

theorem roundOf_eq_leave {checked : Option Nat} {answer : Bool} :
    roundOf i checked = .leave answer ↔ checked = none ∧ answer = false := by
  cases checked <;> simp [roundOf, eq_comm]

theorem roundOf_eq_goOn {checked : Option Nat} {next : Nat} :
    roundOf i checked = .goOn next ↔ ∃ length, checked = some length ∧ next = i + length := by
  cases checked <;> simp [roundOf, eq_comm]

theorem readSequence_spec (short : message.length ≤ WebSocketConfig.MAX_FRAME_SIZE)
    (below : i < message.length) {length : Nat} (announced : seqLen c = some length)
    (positive : 0 < length) (few : length ≤ 4) :
    Inside (readSequence message.length i c length) message ∧
      (readSequence message.length i c length).value message =
        roundOf i (checkSequence c (message.drop (i + 1))) := by
  have rest : (message.drop (i + 1)).length + 1 < length ↔ message.length < i + length := by
    rw [List.length_drop]
    omega
  rw [readSequence, sizeT_of_le short (by omega), checkSequence, announced, Option.bind_some]
  simp only [rest]
  by_cases truncated : message.length < i + length
  · rw [if_pos truncated, if_pos truncated]
    exact ⟨inside_pure _ _, rfl⟩
  rw [if_neg truncated, if_neg truncated]
  obtain ⟨inside, continued⟩ := readContinuation_spec i 1 (length - 1) short (by omega)
  generalize bad : ((message.drop (i + 1)).take (length - 1)).any (fun cont => decide (cont &&& 0xc0 ≠ 0x80)) = broken
    at continued ⊢
  cases broken with
  | true =>
    constructor
    · apply inside_bind inside
      rw [continued]
      exact inside_pure _ _
    · rw [value_bind, continued]
      rfl
  | false =>
    by_cases four : length = 4
    · obtain rfl := four
      obtain ⟨looked, value⟩ := readCodepoint_spec c i short (by omega)
      constructor
      · apply inside_bind inside
        rw [continued]
        apply inside_bind looked
        split
        · exact inside_pure _ _
        · split <;> exact inside_pure _ _
      · rw [value_bind, continued]
        simp only [Bool.not_false, Bool.not_true, Bool.false_eq_true, if_false, if_true, true_and,
          Nat.reduceEqDiff, false_and, value_ite, value_bind, value, value_pure, Nat.add_one_sub_one]
        split
        · rfl
        · split <;> rfl
    · constructor
      · apply inside_bind inside
        rw [continued, if_neg four]
        simp only [Bool.not_false, Bool.not_true, Bool.false_eq_true, if_false]
        split <;> exact inside_pure _ _
      · rw [value_bind, continued]
        simp only [Bool.not_false, Bool.not_true, Bool.false_eq_true, if_false, four, false_and,
          value_ite, value_pure]
        split <;> rfl

theorem readRound_spec (short : message.length ≤ WebSocketConfig.MAX_FRAME_SIZE)
    (below : i < message.length) :
    Inside (readRound message.length i) message ∧
      (readRound message.length i).value message =
        roundOf i (checkSequence message[i] (message.drop (i + 1))) := by
  have lengths := seqLen_cases message[i]
  rw [readRound]
  cases announced : seqLen message[i] with
  | none =>
    refine ⟨inside_bind (inside_read below) ?_, ?_⟩
    · rw [value_read_of_lt below, announced]
      exact inside_pure _ _
    · rw [value_bind, value_read_of_lt below, announced, checkSequence, announced]
      rfl
  | some length =>
    have bounds : 0 < length ∧ length ≤ 4 := by
      simp only [announced, Option.some.injEq, reduceCtorEq, or_false] at lengths
      omega
    obtain ⟨inside, value⟩ := readSequence_spec short below announced bounds.1 bounds.2
    refine ⟨inside_bind (inside_read below) ?_, ?_⟩
    · rwa [value_read_of_lt below, announced]
    · rw [value_bind, value_read_of_lt below, announced]
      exact value

theorem checkUtf8_cons (rest : Bytes) : checkUtf8 (c :: rest) =
    (checkSequence c rest).elim false fun seqLen => checkUtf8 (rest.drop (seqLen - 1)) := by
  rw [checkUtf8]
  cases checkSequence c rest <;> rfl

theorem checkSequence_positive {rest : Bytes} {length : Nat}
    (checked : checkSequence c rest = some length) : 0 < length := by
  obtain ⟨following, -, -, rfl, -⟩ := checkSequence_checked checked
  exact Nat.succ_pos _

theorem readRounds_spec (short : message.length ≤ WebSocketConfig.MAX_FRAME_SIZE) {fuel : Nat}
    (enough : message.length < fuel) :
    Inside (whileBelow message.length (readRound message.length) true fuel 0) message ∧
      (whileBelow message.length (readRound message.length) true fuel 0).value message =
        some (checkUtf8 message) := by
  have further (i : Nat) (below : i < message.length) (next : Nat)
      (turn : (readRound message.length i).value message = .goOn next) : i < next := by
    obtain ⟨length, checked, rfl⟩ := roundOf_eq_goOn.mp ((readRound_spec short below).2.symm.trans turn)
    have positive := checkSequence_positive checked
    omega
  have rounds : message.length - 0 < fuel := enough
  obtain ⟨inside, answer, answered⟩ := whileBelow_total true
    (fun i below => (readRound_spec short below).1) further rounds
  refine ⟨inside, ?_⟩
  rw [answered, ← List.drop_zero (l := message)]
  congr 1
  refine whileBelow_rule (fun i answer => answer = checkUtf8 (message.drop i)) ?_ ?_ ?_ answered
  · intro i ended
    rw [List.drop_eq_nil_of_le ended, checkUtf8]
  · intro i below answer turn
    obtain ⟨refused, rfl⟩ := roundOf_eq_leave.mp ((readRound_spec short below).2.symm.trans turn)
    rw [List.drop_eq_getElem_cons below, checkUtf8_cons, refused, Option.elim_none]
  · intro i below next turn answer onward
    obtain ⟨length, checked, rfl⟩ := roundOf_eq_goOn.mp ((readRound_spec short below).2.symm.trans turn)
    have positive := checkSequence_positive checked
    have behind : i + 1 + (length - 1) = i + length := by omega
    rw [List.drop_eq_getElem_cons below, checkUtf8_cons, checked, Option.elim_some, List.drop_drop,
      behind, onward]

theorem filterRounds_spec {fuel : Nat} (enough : message.length < fuel) :
    Inside (whileBelow message.length filterRound true fuel 0) message ∧
      (whileBelow message.length filterRound true fuel 0).value message =
        some (!message.any filtered) := by
  have inside (i : Nat) (below : i < message.length) : Inside (filterRound i) message := by
    apply inside_bind (inside_read below)
    split <;> exact inside_pure _ _
  have value (i : Nat) (below : i < message.length) : (filterRound i).value message =
      if filtered message[i] then .leave false else .goOn (i + 1) := by
    rw [filterRound, value_bind, value_read_of_lt below, value_ite]
    rfl
  have further (i : Nat) (below : i < message.length) (next : Nat)
      (turn : (filterRound i).value message = .goOn next) : i < next := by
    rw [value i below] at turn
    split at turn
    · cases turn
    · obtain rfl := Round.goOn.inj turn
      exact Nat.lt_succ_self i
  have rounds : message.length - 0 < fuel := enough
  obtain ⟨reads, answer, answered⟩ := whileBelow_total true inside further rounds
  refine ⟨reads, ?_⟩
  rw [answered, ← List.drop_zero (l := message)]
  congr 1
  refine whileBelow_rule (fun i answer => answer = !(message.drop i).any filtered) ?_ ?_ ?_ answered
  · intro i ended
    rw [List.drop_eq_nil_of_le ended]
    rfl
  · intro i below answer turn
    rw [value i below] at turn
    rw [List.drop_eq_getElem_cons below, List.any_cons]
    split at turn
    · rename_i control
      obtain rfl := Round.leave.inj turn
      rw [control]
      rfl
    · cases turn
  · intro i below next turn answer onward
    rw [value i below] at turn
    rw [List.drop_eq_getElem_cons below, List.any_cons]
    split at turn
    · cases turn
    · rename_i plain
      obtain rfl := Round.goOn.inj turn
      rw [onward, Bool.eq_false_iff.mpr plain, Bool.false_or]

/-- The check of a text message reads inside of it and comes to an end, with the result
that it has on the list of its bytes. -/
theorem readMessage_inside (message : Bytes) :
    ∃ enough, ∀ fuel ≥ enough,
      Inside (readMessage message.length true fuel) message ∧
        (readMessage message.length true fuel).value message =
          some (validateWebSocketMessage message true) := by
  refine ⟨message.length + 1, fun fuel enough => ?_⟩
  rw [readMessage, validateWebSocketMessage]
  simp only [List.length_eq_zero_iff]
  split
  · exact ⟨inside_pure _ _, rfl⟩
  split
  · exact ⟨inside_pure _ _, rfl⟩
  rename_i short
  split
  · exact ⟨inside_pure _ _, rfl⟩
  obtain ⟨inside, checked⟩ := readRounds_spec (Nat.le_of_not_lt short) enough
  obtain ⟨reads, plain⟩ := filterRounds_spec enough
  simp only [if_true]
  constructor
  · apply inside_bind inside
    rw [checked]
    cases checkUtf8 message with
    | true => exact reads
    | false => exact inside_pure _ _
  · rw [value_bind, checked]
    cases checkUtf8 message with
    | true => exact plain
    | false => rfl

end Hku.MessageValidation
