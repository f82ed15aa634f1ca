import HkuRest.Core.ByteReads

/-! The callback that `configureSsl` installs for the protocol list of a client. -/

namespace Hku.Alpn

open ByteReads

/-- The list that a client offers. Its length is a number of 16 bits in the handshake, so
that no index that is computed from it wraps around. -/
structure Offer where
  bytes : Bytes
  short : bytes.length + 256 ≤ 2 ^ 32

def http11 : Bytes := Bytes.ascii "http/1.1"

/-- A protocol name as it is written into the list. -/
def entry (name : Bytes) : Bytes := UInt8.ofNat name.length :: name

/-- From the start there is a list of proper entries, none of them `http/1.1`, and then an
empty or a truncated entry. -/
def MalformedFirst (bytes : Bytes) : Prop :=
  ∃ (names : List Bytes) (length : UInt8) (rest : Bytes),
    bytes = names.flatMap entry ++ length :: rest ∧
      (∀ name ∈ names, name ≠ [] ∧ name.length < 256 ∧ name ≠ http11) ∧
      (length = 0 ∨ rest.length < length.toNat)

/-- Results of the callback that it uses. -/
inductive TlsextErr
  | ok
  | alertFatal
  deriving DecidableEq, Repr

/-- What `*out` points into: the list, or `default_http11`. -/
inductive Pointer
  | offered (index : Nat)
  | default (index : Nat)
  | elsewhere
  deriving DecidableEq, Repr

structure Output where
  out : Pointer
  outlen : UInt8
  deriving DecidableEq, Repr

def defaultHttp11 : Bytes := 0x08 :: http11

/-- The bytes that are denoted. -/
def Output.protocol (bytes : Bytes) (output : Output) : Option Bytes :=
  match output.out with
  | .offered index => some ((bytes.drop index).take output.outlen.toNat)
  | .default index => some ((defaultHttp11.drop index).take output.outlen.toNat)
  | .elsewhere => none

/-- Sums of type `unsigned int`. -/
def wrap (value : Nat) : Nat := value % 2 ^ 32

/-- The ways out of the loop. -/
inductive Exit
  | malformed
  | found (output : Output)
  | exhausted

/-- One entry of the list. That `h2` or `h2c` is offered is only logged. -/
def round (inlen i : Nat) : ByteReads (Round Exit) := do
  let protocolLen ← read i
  if protocolLen = 0 ∨ inlen < wrap (wrap (i + 1) + protocolLen.toNat) then
    return .leave .malformed
  if ← also (protocolLen = 8) (spells (wrap (i + 1)) http11) then
    return .leave (.found ⟨.offered (wrap (i + 1)), protocolLen⟩)
  let h2 ← also (protocolLen = 2) (spells (wrap (i + 1)) (Bytes.ascii "h2"))
  let _rejected ← also (!h2 && protocolLen = 3) (spells (wrap (i + 1)) (Bytes.ascii "h2c"))
  return .goOn (wrap (i + (protocolLen.toNat + 1)))

/-- `*out` is set in any case, also where the loop has set it to what it found. -/
def alpnSelect (inlen fuel : Nat) (output : Output) : ByteReads (Option (TlsextErr × Output)) := do
  match ← whileBelow inlen (round inlen) .exhausted fuel 0 with
  | none => return none
  | some .malformed => return some (.alertFatal, output)
  | some (.found _) | some .exhausted =>
      return some (.ok, ⟨.default 1, UInt8.ofNat (defaultHttp11.length - 1)⟩)

variable {bytes rest : Bytes} {length : UInt8} {inlen i : Nat}

theorem not_malformedFirst_nil : ¬ MalformedFirst [] := by
  rintro ⟨names, length, rest, shape, -⟩
  exact absurd shape.symm (List.append_ne_nil_of_right_ne_nil _ (List.cons_ne_nil _ _))

theorem malformedFirst_here (malformed : length = 0 ∨ rest.length < length.toNat) :
    MalformedFirst (length :: rest) :=
  ⟨[], length, rest, rfl, by simp, malformed⟩

theorem malformedFirst_cons_iff (filled : length ≠ 0) (complete : length.toNat ≤ rest.length) :
    MalformedFirst (length :: rest) ↔
      rest.take length.toNat ≠ http11 ∧ MalformedFirst (rest.drop length.toNat) := by
  have positive : 0 < length.toNat := by
    rw [Nat.pos_iff_ne_zero]
    exact fun zero => filled (UInt8.toNat_inj.mp zero)
  constructor
  · rintro ⟨names, bad, more, shape, proper, malformed⟩
    cases names with
    | nil =>
      obtain ⟨rfl, rfl⟩ : length = bad ∧ rest = more := by simpa using shape
      rcases malformed with zero | truncated
      · exact absurd zero filled
      · omega
    | cons name names =>
      obtain ⟨⟨-, short, other⟩, others⟩ := List.forall_mem_cons.mp proper
      obtain ⟨rfl, rfl⟩ : length = UInt8.ofNat name.length ∧
          rest = name ++ (names.flatMap entry ++ bad :: more) := by
        simpa [entry] using shape
      rw [UInt8.toNat_ofNat_of_lt' short, List.take_left, List.drop_left]
      exact ⟨other, names, bad, more, rfl, others, malformed⟩
  · rintro ⟨other, names, bad, more, shape, proper, malformed⟩
    have size : (rest.take length.toNat).length = length.toNat := List.length_take_of_le complete
    refine ⟨rest.take length.toNat :: names, bad, more, ?_, ?_, malformed⟩
    · rw [List.flatMap_cons, entry, size, UInt8.ofNat_toNat, List.cons_append, List.cons_append,
        List.append_assoc, ← shape, List.take_append_drop]
    · refine List.forall_mem_cons.mpr ⟨⟨?_, ?_, other⟩, proper⟩
      · exact List.ne_nil_of_length_pos (by omega)
      · rw [size]
        exact length.toNat_lt

/-- No index of a round wraps around: not that of the name, nor that behind it. -/
theorem wrap_entry (offer : Offer) (below : i < offer.bytes.length) (length : UInt8) :
    wrap (i + 1) = i + 1 ∧ wrap (i + 1 + length.toNat) = i + 1 + length.toNat ∧
      wrap (i + (length.toNat + 1)) = i + (length.toNat + 1) := by
  have short := offer.short
  have small := length.toNat_lt
  refine ⟨?_, ?_, ?_⟩ <;> apply Nat.mod_eq_of_lt <;> omega

theorem value_round (offer : Offer) (below : i < offer.bytes.length) :
    (round offer.bytes.length i).value offer.bytes =
      if offer.bytes[i] = 0 ∨ (offer.bytes.drop (i + 1)).length < offer.bytes[i].toNat then
        .leave .malformed
      else if offer.bytes[i] = 8 ∧ (offer.bytes.drop (i + 1)).take 8 = http11 then
        .leave (.found ⟨.offered (i + 1), offer.bytes[i]⟩)
      else .goOn (i + (offer.bytes[i].toNat + 1)) := by
  obtain ⟨next, behind, onward⟩ := wrap_entry offer below offer.bytes[i]
  have left : offer.bytes.length < i + 1 + offer.bytes[i].toNat ↔
      (offer.bytes.drop (i + 1)).length < offer.bytes[i].toNat := by
    rw [List.length_drop]
    omega
  have eight : http11.length = 8 := rfl
  simp only [round, value_bind, value_read_of_lt below, next, behind, onward, left]
  split
  · rfl
  · simp only [value_bind, value_also, value_spells, eight, Bool.and_eq_true, decide_eq_true_eq]
    split <;> rfl

theorem inside_round (offer : Offer) (below : i < offer.bytes.length) :
    Inside (round offer.bytes.length i) offer.bytes := by
  obtain ⟨next, behind, -⟩ := wrap_entry offer below offer.bytes[i]
  apply inside_bind (inside_read below)
  rw [value_read_of_lt below, next, behind]
  by_cases malformed : offer.bytes[i] = 0 ∨ offer.bytes.length < i + 1 + offer.bytes[i].toNat
  · rw [if_pos malformed]
    exact inside_pure _ _
  rw [if_neg malformed]
  -- a name is compared only where it has the length of an entry that ends inside
  have named {text : Bytes} (size : UInt8) (same : offer.bytes[i] = size)
      (length : text.length = size.toNat) : Inside (spells (i + 1) text) offer.bytes := by
    apply inside_spells
    rw [same] at malformed
    omega
  apply inside_bind (inside_also fun eight => named 8 (of_decide_eq_true eight) rfl)
  split
  · exact inside_pure _ _
  apply inside_bind (inside_also fun two => named 2 (of_decide_eq_true two) rfl)
  apply inside_bind (inside_also fun three => ?_) (inside_pure _ _)
  exact named 3 (of_decide_eq_true (Bool.and_eq_true_iff.mp three).2) rfl

/-- From every index, the loop finds the list malformed where it is. -/
theorem exit_malformed_iff (offer : Offer) {fuel : Nat} {exit : Exit}
    (left : (whileBelow offer.bytes.length (round offer.bytes.length) .exhausted fuel i).value
      offer.bytes = some exit) :
    exit = .malformed ↔ MalformedFirst (offer.bytes.drop i) := by
  refine whileBelow_rule (fun i exit => exit = .malformed ↔ MalformedFirst (offer.bytes.drop i))
    ?_ ?_ ?_ left
  · intro i ended
    rw [List.drop_eq_nil_of_le ended]
    simp [not_malformedFirst_nil]
  · intro i below exit turn
    rw [value_round offer below] at turn
    rw [List.drop_eq_getElem_cons below]
    split at turn
    · rename_i malformed
      obtain rfl := Round.leave.inj turn
      exact ⟨fun _ => malformedFirst_here malformed, fun _ => rfl⟩
    · rename_i proper
      obtain ⟨filled, complete⟩ := not_or.mp proper
      split at turn
      · rename_i found
        obtain rfl := Round.leave.inj turn
        rw [malformedFirst_cons_iff filled (Nat.le_of_not_lt complete), found.1]
        simp [found.2]
      · cases turn
  · intro i below next turn exit
    rw [value_round offer below] at turn
    rw [List.drop_eq_getElem_cons below]
    split at turn
    · cases turn
    · rename_i proper
      obtain ⟨filled, complete⟩ := not_or.mp proper
      split at turn
      · cases turn
      · rename_i unfound
        obtain rfl := Round.goOn.inj turn
        have other : (offer.bytes.drop (i + 1)).take offer.bytes[i].toNat ≠ http11 := by
          intro same
          have size := congrArg List.length same
          rw [List.length_take_of_le (Nat.le_of_not_lt complete)] at size
          exact unfound ⟨UInt8.toNat_inj.mp size, by rwa [size] at same⟩
        rw [malformedFirst_cons_iff filled (Nat.le_of_not_lt complete), List.drop_drop]
        have behind : i + 1 + offer.bytes[i].toNat = i + (offer.bytes[i].toNat + 1) := by omega
        simp [other, behind]

/-- The callback reads inside of the list and comes to an end, refuses exactly the lists
that are malformed before they name `http/1.1`, and selects `http/1.1` for all others. -/
theorem alpnSelect_verdict (offer : Offer) (output : Output) :
    ∃ enough, ∀ fuel ≥ enough,
      Inside (alpnSelect offer.bytes.length fuel output) offer.bytes ∧
      ∃ result after,
        (alpnSelect offer.bytes.length fuel output).value offer.bytes = some (result, after) ∧
        (result = .alertFatal ↔ MalformedFirst offer.bytes) ∧
        (¬ MalformedFirst offer.bytes →
          result = .ok ∧ after.outlen = 8 ∧ after.protocol offer.bytes = some http11) := by
  refine ⟨offer.bytes.length + 1, fun fuel enough => ?_⟩
  have further (i : Nat) (below : i < offer.bytes.length) (next : Nat)
      (turn : (round offer.bytes.length i).value offer.bytes = .goOn next) : i < next := by
    rw [value_round offer below] at turn
    split at turn
    · cases turn
    · split at turn
      · cases turn
      · obtain rfl := Round.goOn.inj turn
        omega
  have enough : offer.bytes.length - 0 < fuel := by omega
  obtain ⟨inside, exit, left⟩ := whileBelow_total Exit.exhausted
    (fun i below => inside_round offer below) further enough
  have malformed := exit_malformed_iff offer left
  rw [List.drop_zero] at malformed
  refine ⟨inside_bind inside ?_, ?_⟩
  · rw [left]
    cases exit <;> exact inside_pure _ _
  · rw [alpnSelect, value_bind, left]
    cases exit with
    | malformed =>
      refine ⟨.alertFatal, output, rfl, by simp [← malformed], fun fine => ?_⟩
      exact absurd (malformed.mp rfl) fine
    | found output =>
      have fine : ¬ MalformedFirst offer.bytes := fun bad => nomatch malformed.mpr bad
      exact ⟨.ok, _, rfl, by simp [fine], fun _ => ⟨rfl, rfl, rfl⟩⟩
    | exhausted =>
      have fine : ¬ MalformedFirst offer.bytes := fun bad => nomatch malformed.mpr bad
      exact ⟨.ok, _, rfl, by simp [fine], fun _ => ⟨rfl, rfl, rfl⟩⟩

end Hku.Alpn
