import HkuRest.Core.Utf8

/-! `WebSocketConnection::validateWebSocketMessage`. The loop over a text message takes one
encoded character after another, by the length that its leading byte announces. What is
looked for in each character depends on that length. -/

namespace Hku

open Utf8 (Sequence Tail WellFormed)

namespace WebSocketConfig

def MAX_MESSAGE_SIZE : Nat := 15 * 1024 * 1024

def MAX_FRAME_SIZE : Nat := 15 * 1024 * 1024

end WebSocketConfig

namespace MessageValidation

/-- `seq_len`; none for a byte that starts no sequence. -/
def seqLen (c : UInt8) : Option Nat :=
  if c < 0x80 then some 1
  else if c &&& 0xe0 = 0xc0 then some 2
  else if c &&& 0xf0 = 0xe0 then some 3
  else if c &&& 0xf8 = 0xf0 then some 4
  else none

/-- `codepoint`, which only four bytes have. -/
def codepoint : Bytes → Nat
  | [c, c1, c2, c3] =>
      (c &&& 0x07).toNat <<< 18 ||| (c1 &&& 0x3f).toNat <<< 12 ||| (c2 &&& 0x3f).toNat <<< 6 |||
        (c3 &&& 0x3f).toNat
  | _ => 0

/-- One round of the loop: the length of the sequence that starts with `c`, if its checks hold. -/
def checkSequence (c : UInt8) (rest : Bytes) : Option Nat :=
  (seqLen c).bind fun seqLen =>
    let following := rest.take (seqLen - 1)
    if rest.length + 1 < seqLen then none
    else if following.any fun cont => cont &&& 0xc0 ≠ 0x80 then none
    else if seqLen = 2 ∧ c < 0xc2 then none
    else if seqLen = 4 ∧ 0x10ffff < codepoint (c :: following) then none
    else if seqLen = 4 ∧ 0xd800 ≤ codepoint (c :: following) ∧ codepoint (c :: following) ≤ 0xdfff then none
    else some seqLen

/-- The loop, on what follows the position `i`. -/
def checkUtf8 : Bytes → Bool
  | [] => true
  | c :: rest =>
      match checkSequence c rest with
      | none => false
      | some seqLen => checkUtf8 (rest.drop (seqLen - 1))
termination_by message => message.length
decreasing_by
  simp only [List.length_drop, List.length_cons]
  omega

/-- A control character other than TAB, LF and CR. -/
def filtered (uc : UInt8) : Bool :=
  uc < 0x20 && uc ≠ 0x09 && uc ≠ 0x0a && uc ≠ 0x0d || uc = 0x7f

end MessageValidation

open MessageValidation

def validateWebSocketMessage (message : Bytes) (isText : Bool) : Bool :=
  if message = [] then false
  else if WebSocketConfig.MAX_FRAME_SIZE < message.length then false
  else if WebSocketConfig.MAX_MESSAGE_SIZE < message.length then false
  else if isText then checkUtf8 message && !message.any filtered
  else true

namespace MessageValidation

/-- The sequences that are no character but pass: three bytes for a code point that needs fewer
or for a surrogate, and four for one that needs fewer and is no surrogate. -/
inductive Slips : Bytes → Prop
  | overlong {c1 c2 : UInt8} (tail : Tail c1) (last : Tail c2) (early : c1 < 0xa0) : Slips [0xe0, c1, c2]
  | surrogate {c1 c2 : UInt8} (tail : Tail c1) (last : Tail c2) (late : 0xa0 ≤ c1) : Slips [0xed, c1, c2]
  | longer {c1 c2 c3 : UInt8} (tail : Tail c1) (next : Tail c2) (last : Tail c3) (early : c1 < 0x90)
      (other : c1 = 0x8d → c2 < 0xa0) : Slips [0xf0, c1, c2, c3]

variable {c c1 c2 c3 : UInt8} {message rest following : Bytes} {sequence : Bytes}

theorem continues_iff : ∀ cont : UInt8, cont &&& 0xc0 = 0x80 ↔ Tail cont :=
  Bytes.forall_byte (by decide +kernel)

theorem seqLen_cases : ∀ c : UInt8, c < 0x80 ∧ seqLen c = some 1 ∨ (0xc0 ≤ c ∧ c < 0xe0) ∧ seqLen c = some 2 ∨
    (0xe0 ≤ c ∧ c < 0xf0) ∧ seqLen c = some 3 ∨ (0xf0 ≤ c ∧ c < 0xf8) ∧ seqLen c = some 4 ∨
      seqLen c = none :=
  Bytes.forall_byte (by decide +kernel)

theorem seqLen_two : ∀ c : UInt8, 0xc0 ≤ c → c < 0xe0 → seqLen c = some 2 :=
  Bytes.forall_byte (by decide +kernel)

theorem seqLen_three : ∀ c : UInt8, 0xe0 ≤ c → c < 0xf0 → seqLen c = some 3 :=
  Bytes.forall_byte (by decide +kernel)

theorem seqLen_four : ∀ c : UInt8, 0xf0 ≤ c → c < 0xf8 → seqLen c = some 4 :=
  Bytes.forall_byte (by decide +kernel)

theorem payload_tail : ∀ byte : UInt8, Tail byte → (byte &&& 0x3f).toNat = byte.toNat - 0x80 :=
  Bytes.forall_byte (by decide +kernel)

theorem payload_lead : ∀ byte : UInt8, 0xf0 ≤ byte → byte < 0xf8 → (byte &&& 0x07).toNat = byte.toNat - 0xf0 :=
  Bytes.forall_byte (by decide +kernel)

theorem codepoint_eq (lead : 0xf0 ≤ c) (four : c < 0xf8) (tail : Tail c1) (next : Tail c2) (last : Tail c3) :
    codepoint [c, c1, c2, c3] = (c.toNat - 0xf0) * 262144 + (c1.toNat - 0x80) * 4096 +
      (c2.toNat - 0x80) * 64 + (c3.toNat - 0x80) := by
  rw [codepoint, payload_lead c lead four, payload_tail c1 tail, payload_tail c2 next, payload_tail c3 last]
  simp only [Tail, UInt8.le_iff_toNat_le, UInt8.reduceToNat] at tail next last
  have shifted (width : Nat) {high low : Nat} (fits : low < 2 ^ width) :
      high <<< width ||| low = high * 2 ^ width + low := by
    rw [← Nat.shiftLeft_add_eq_or_of_lt fits, Nat.shiftLeft_eq]
  rw [Nat.or_assoc, Nat.or_assoc, shifted 6 (by omega), shifted 12 (by omega), shifted 18 (by omega)]
  omega

/-- The checks of a whole sequence, by its length. -/
def Checked : Bytes → Prop
  | [c] => c < 0x80
  | [c, c1] => (0xc2 ≤ c ∧ c < 0xe0) ∧ Tail c1
  | [c, c1, c2] => (0xe0 ≤ c ∧ c < 0xf0) ∧ Tail c1 ∧ Tail c2
  | [c, c1, c2, c3] =>
      (0xf0 ≤ c ∧ c < 0xf8) ∧ Tail c1 ∧ Tail c2 ∧ Tail c3 ∧ codepoint [c, c1, c2, c3] ≤ 0x10ffff ∧
        ¬ (0xd800 ≤ codepoint [c, c1, c2, c3] ∧ codepoint [c, c1, c2, c3] ≤ 0xdfff)
  | _ => False

theorem checkSequence_checked {length : Nat} (checked : checkSequence c rest = some length) :
    ∃ following more, rest = following ++ more ∧ length = following.length + 1 ∧
      Checked (c :: following) := by
  rcases seqLen_cases c with ⟨lead, announced⟩ | ⟨lead, announced⟩ | ⟨lead, announced⟩ |
    ⟨lead, announced⟩ | announced
  · have one : 1 = length := by simpa [checkSequence, announced] using checked
    exact ⟨[], rest, rfl, one.symm, lead⟩
  · match rest with
    | [] => simp [checkSequence, announced] at checked
    | c1 :: more =>
      obtain ⟨tail, shortest, rfl⟩ : Tail c1 ∧ 0xc2 ≤ c ∧ 2 = length := by
        simpa [checkSequence, announced, continues_iff] using checked
      exact ⟨[c1], more, rfl, rfl, ⟨shortest, lead.2⟩, tail⟩
  · match rest with
    | [] | [c1] => simp [checkSequence, announced] at checked
    | c1 :: c2 :: more =>
      obtain ⟨⟨tail, last⟩, rfl⟩ : (Tail c1 ∧ Tail c2) ∧ 3 = length := by
        simpa [checkSequence, announced, continues_iff] using checked
      exact ⟨[c1, c2], more, rfl, rfl, lead, tail, last⟩
  · match rest with
    | [] | [c1] | [c1, c2] => simp [checkSequence, announced] at checked
    | c1 :: c2 :: c3 :: more =>
      obtain ⟨⟨tail, next, last⟩, range, scalar, rfl⟩ : (Tail c1 ∧ Tail c2 ∧ Tail c3) ∧
          codepoint [c, c1, c2, c3] ≤ 0x10ffff ∧ (0xd800 ≤ codepoint [c, c1, c2, c3] →
            0xdfff < codepoint [c, c1, c2, c3]) ∧ 4 = length := by
        simpa [checkSequence, announced, continues_iff] using checked
      refine ⟨[c1, c2, c3], more, rfl, rfl, lead, tail, next, last, range, ?_⟩
      intro surrogate
      exact absurd (scalar surrogate.1) (Nat.not_lt_of_le surrogate.2)
  · simp [checkSequence, announced] at checked

theorem checkSequence_of_checked (checked : Checked (c :: following)) (more : Bytes) :
    checkSequence c (following ++ more) = some (following.length + 1) := by
  match following with
  | [] =>
    have one : seqLen c = some 1 := if_pos checked
    simp [checkSequence, one]
  | [c1] =>
    obtain ⟨⟨shortest, lead⟩, tail⟩ := checked
    have two := seqLen_two c (UInt8.le_trans (by decide) shortest) lead
    simp [checkSequence, two, continues_iff, tail, shortest]
  | [c1, c2] =>
    obtain ⟨⟨low, high⟩, tail, last⟩ := checked
    simp [checkSequence, seqLen_three c low high, continues_iff, tail, last]
  | [c1, c2, c3] =>
    obtain ⟨⟨low, high⟩, tail, next, last, range, scalar⟩ := checked
    have surrogates : 0xd800 ≤ codepoint [c, c1, c2, c3] → 0xdfff < codepoint [c, c1, c2, c3] :=
      fun late => Nat.lt_of_not_le fun early => scalar ⟨late, early⟩
    simpa [checkSequence, seqLen_four c low high, continues_iff, tail, next, last, range] using surrogates
  | _ :: _ :: _ :: _ :: _ => exact checked.elim

/-- Three bytes pass without a look at their code point. -/
theorem three_cases (lead : 0xe0 ≤ c ∧ c < 0xf0) (tail : Tail c1) (last : Tail c2) :
    Sequence [c, c1, c2] ∨ Slips [c, c1, c2] := by
  by_cases overlong : c = 0xe0 ∧ c1 < 0xa0
  · obtain ⟨rfl, early⟩ := overlong
    exact .inr (.overlong tail last early)
  by_cases surrogate : c = 0xed ∧ 0xa0 ≤ c1
  · obtain ⟨rfl, late⟩ := surrogate
    exact .inr (.surrogate tail last late)
  refine .inl (.three ⟨lead.1, ?_⟩ tail last ?_ ?_)
  · simp only [UInt8.lt_iff_toNat_lt, UInt8.le_iff_toNat_le, UInt8.reduceToNat] at lead ⊢
    omega
  · intro first
    exact UInt8.not_lt.mp fun early => overlong ⟨first, early⟩
  · intro first
    exact UInt8.not_le.mp fun late => surrogate ⟨first, late⟩

/-- For four bytes the upper bound of the code point is looked at, and not the lower one. -/
theorem four_cases (lead : 0xf0 ≤ c ∧ c < 0xf8) (tail : Tail c1) (next : Tail c2) (last : Tail c3)
    (range : codepoint [c, c1, c2, c3] ≤ 0x10ffff)
    (scalar : ¬ (0xd800 ≤ codepoint [c, c1, c2, c3] ∧ codepoint [c, c1, c2, c3] ≤ 0xdfff)) :
    Sequence [c, c1, c2, c3] ∨ Slips [c, c1, c2, c3] := by
  have value := codepoint_eq lead.1 lead.2 tail next last
  rw [value] at range scalar
  have bounds := And.intro tail (And.intro next last)
  simp only [Tail, UInt8.le_iff_toNat_le, UInt8.lt_iff_toNat_lt, UInt8.reduceToNat] at lead bounds
  by_cases overlong : c = 0xf0 ∧ c1 < 0x90
  · obtain ⟨rfl, early⟩ := overlong
    refine .inr (.longer tail next last early ?_)
    rintro rfl
    simp only [UInt8.lt_iff_toNat_lt, UInt8.reduceToNat] at scalar ⊢
    omega
  · refine .inl (.four ?_ tail next last ?_ ?_)
    · simp only [UInt8.le_iff_toNat_le, UInt8.reduceToNat]
      omega
    · intro first
      exact UInt8.not_lt.mp fun early => overlong ⟨first, early⟩
    · rintro rfl
      simp only [UInt8.lt_iff_toNat_lt, UInt8.reduceToNat] at range ⊢
      omega

/-- The checks leave the characters, and some sequences that are none. -/
theorem checked_iff : Checked sequence ↔ Sequence sequence ∨ Slips sequence := by
  constructor
  · intro checked
    match sequence with
    | [] => exact checked.elim
    | [c] => exact .inl (.one checked)
    | [c, c1] =>
      obtain ⟨⟨shortest, lead⟩, tail⟩ := checked
      refine .inl (.two ⟨shortest, ?_⟩ tail)
      simp only [UInt8.lt_iff_toNat_lt, UInt8.le_iff_toNat_le, UInt8.reduceToNat] at lead ⊢
      omega
    | [c, c1, c2] =>
      obtain ⟨lead, tail, last⟩ := checked
      exact three_cases lead tail last
    | [c, c1, c2, c3] =>
      obtain ⟨lead, tail, next, last, range, scalar⟩ := checked
      exact four_cases lead tail next last range scalar
    | _ :: _ :: _ :: _ :: _ :: _ => exact checked.elim
  · rintro (derived | slips)
    · cases derived with
      | one ascii => exact ascii
      | two lead tail => exact ⟨⟨lead.1, UInt8.lt_of_le_of_lt lead.2 (by decide)⟩, tail⟩
      | three lead tail last => exact ⟨⟨lead.1, UInt8.lt_of_le_of_lt lead.2 (by decide)⟩, tail, last⟩
      | four lead tail next last shortest range =>
        have short := UInt8.lt_of_le_of_lt lead.2 (by decide : (0xf4 : UInt8) < 0xf8)
        refine ⟨⟨lead.1, short⟩, tail, next, last, ?_⟩
        rw [codepoint_eq lead.1 short tail next last]
        simp only [Tail, UInt8.le_iff_toNat_le, UInt8.lt_iff_toNat_lt, ← UInt8.toNat_inj,
          UInt8.reduceToNat] at lead tail next last shortest range
        omega
    · cases slips with
      | overlong tail last => exact ⟨by decide, tail, last⟩
      | surrogate tail last => exact ⟨by decide, tail, last⟩
      | longer tail next last early other =>
        refine ⟨by decide, tail, next, last, ?_⟩
        rw [codepoint_eq (by decide) (by decide) tail next last]
        simp only [Tail, UInt8.le_iff_toNat_le, UInt8.lt_iff_toNat_lt, ← UInt8.toNat_inj,
          UInt8.reduceToNat] at tail next last early other ⊢
        omega

theorem Slips.delimited (slips : Slips sequence) : Utf8.Delimited sequence := by
  cases slips <;> simp [Utf8.Delimited, Utf8.announced]

theorem Slips.not_sequence (slips : Slips sequence) : ¬ Sequence sequence := by
  intro derived
  cases slips with
  | overlong tail last early =>
    cases derived with
    | three _ _ _ shortest => exact absurd (shortest rfl) (UInt8.not_le.mpr early)
  | surrogate tail last late =>
    cases derived with
    | three _ _ _ _ scalar => exact absurd (scalar rfl) (UInt8.not_lt.mpr late)
  | longer tail next last early other =>
    cases derived with
    | four _ _ _ _ shortest => exact absurd (shortest rfl) (UInt8.not_le.mpr early)

theorem passes_delimited (passes : Sequence sequence ∨ Slips sequence) : Utf8.Delimited sequence := by
  rcases passes with derived | slips
  · exact derived.delimited
  · exact slips.delimited

theorem checkUtf8_splits (checked : checkUtf8 message = true) :
    ∃ sequences : List Bytes, message = sequences.flatten ∧
      ∀ sequence ∈ sequences, Sequence sequence ∨ Slips sequence := by
  fun_induction checkUtf8 message with
  | case1 => exact ⟨[], rfl, by simp⟩
  | case2 c rest refused => cases checked
  | case3 c rest length taken ih =>
    obtain ⟨following, more, rfl, rfl, first⟩ := checkSequence_checked taken
    rw [Nat.add_sub_cancel, List.drop_left] at ih checked
    obtain ⟨sequences, rfl, others⟩ := ih checked
    exact ⟨(c :: following) :: sequences, rfl, List.forall_mem_cons.mpr ⟨checked_iff.mp first, others⟩⟩

theorem checkUtf8_flatten (sequences : List Bytes)
    (passes : ∀ sequence ∈ sequences, Sequence sequence ∨ Slips sequence) :
    checkUtf8 sequences.flatten = true := by
  induction sequences with
  | nil => simp [checkUtf8]
  | cons first rest ih =>
    obtain ⟨head, others⟩ := List.forall_mem_cons.mp passes
    cases first with
    | nil => exact (passes_delimited head).elim
    | cons c following =>
      have taken := checkSequence_of_checked (checked_iff.mpr head) rest.flatten
      rw [List.flatten_cons, List.cons_append, checkUtf8, taken]
      simpa using ih others

def Control (byte : UInt8) : Prop := byte < 0x20 ∨ byte = 0x7f

theorem filtered_iff : ∀ byte : UInt8, filtered byte = false ↔
    (Control byte → byte = 0x09 ∨ byte = 0x0a ∨ byte = 0x0d) := by
  intro byte
  simp only [filtered, Control, Bool.or_eq_false_iff, decide_eq_false_iff_not]
  by_cases tab : byte = 0x09
  · simp [tab]
  by_cases lf : byte = 0x0a
  · simp [lf]
  by_cases cr : byte = 0x0d
  · simp [cr]
  simp [tab, lf, cr]

/-- A text message that may be delivered. -/
structure Valid (message : Bytes) : Prop where
  filled : message ≠ []
  frame : message.length ≤ WebSocketConfig.MAX_FRAME_SIZE
  short : message.length ≤ WebSocketConfig.MAX_MESSAGE_SIZE
  wellFormed : WellFormed message
  printable : ∀ byte ∈ message, Control byte → byte = 0x09 ∨ byte = 0x0a ∨ byte = 0x0d

/-- One that only has sequences in it which pass, one of them no character. -/
structure Slipping (message : Bytes) : Prop where
  filled : message ≠ []
  frame : message.length ≤ WebSocketConfig.MAX_FRAME_SIZE
  short : message.length ≤ WebSocketConfig.MAX_MESSAGE_SIZE
  printable : ∀ byte ∈ message, Control byte → byte = 0x09 ∨ byte = 0x0a ∨ byte = 0x0d
  slips : ∃ sequences : List Bytes, message = sequences.flatten ∧
    (∀ sequence ∈ sequences, Sequence sequence ∨ Slips sequence) ∧ ∃ sequence ∈ sequences, Slips sequence

theorem validate_text : validateWebSocketMessage message true = true ↔
    message ≠ [] ∧ message.length ≤ WebSocketConfig.MAX_FRAME_SIZE ∧
      message.length ≤ WebSocketConfig.MAX_MESSAGE_SIZE ∧ checkUtf8 message = true ∧
        ∀ byte ∈ message, Control byte → byte = 0x09 ∨ byte = 0x0a ∨ byte = 0x0d := by
  have printable : (!message.any filtered) = true ↔
      ∀ byte ∈ message, Control byte → byte = 0x09 ∨ byte = 0x0a ∨ byte = 0x0d := by
    rw [Bool.not_eq_true', List.any_eq_false]
    exact forall₂_congr fun byte _ => Bool.not_eq_true _ ▸ filtered_iff byte
  simp only [validateWebSocketMessage, if_true, Bool.if_false_left, Bool.and_eq_true, printable,
    Bool.not_eq_true', decide_eq_false_iff_not, Nat.not_lt, ne_eq]

/-- Bytes fall into sequences in one way, so one that is no character spoils the text. -/
theorem not_wellFormed {sequences : List Bytes}
    (passes : ∀ sequence ∈ sequences, Sequence sequence ∨ Slips sequence)
    (slips : ∃ sequence ∈ sequences, Slips sequence) : ¬ WellFormed sequences.flatten := by
  intro wellFormed
  obtain ⟨characters, same, derived⟩ := Utf8.wellFormed_iff.mp wellFormed
  obtain rfl := Utf8.flatten_injective (fun sequence member => passes_delimited (passes sequence member))
    (fun sequence member => (derived sequence member).delimited) same
  obtain ⟨sequence, member, slip⟩ := slips
  exact slip.not_sequence (derived sequence member)

/-- A text message is accepted exactly when it is valid, unless one of its sequences is an
overlong form of three or four bytes or a surrogate, and nothing else is wrong with it. -/
theorem validate_text_iff (message : Bytes) :
    (validateWebSocketMessage message true = true ↔ Valid message) ↔ ¬ Slipping message := by
  rw [validate_text]
  constructor
  · rintro accepted ⟨filled, frame, short, printable, sequences, rfl, passes, slips⟩
    have valid := accepted.mp ⟨filled, frame, short, checkUtf8_flatten sequences passes, printable⟩
    exact not_wellFormed passes slips valid.wellFormed
  · intro steady
    constructor
    · rintro ⟨filled, frame, short, checked, printable⟩
      refine ⟨filled, frame, short, Utf8.wellFormed_iff.mpr ?_, printable⟩
      obtain ⟨sequences, same, passes⟩ := checkUtf8_splits checked
      refine ⟨sequences, same, fun sequence member => (passes sequence member).resolve_right ?_⟩
      exact fun slip => steady ⟨filled, frame, short, printable, sequences, same, passes, sequence, member, slip⟩
    · rintro ⟨filled, frame, short, wellFormed, printable⟩
      obtain ⟨sequences, rfl, derived⟩ := Utf8.wellFormed_iff.mp wellFormed
      exact ⟨filled, frame, short,
        checkUtf8_flatten sequences fun sequence member => .inl (derived sequence member), printable⟩

/-- The surrogate U+D800 in three bytes. -/
theorem surrogate_accepted :
    ¬ ∀ message : Bytes, validateWebSocketMessage message true = true ↔ Valid message := by
  intro validates
  have slip : Slips [0xed, 0xa0, 0x80] := .surrogate (by decide) (by decide) (by decide)
  have passes : ∀ sequence ∈ [([0xed, 0xa0, 0x80] : Bytes)], Sequence sequence ∨ Slips sequence :=
    List.forall_mem_singleton.mpr (.inr slip)
  have accepted : validateWebSocketMessage [0xed, 0xa0, 0x80] true = true :=
    validate_text.mpr ⟨by decide, by decide, by decide, checkUtf8_flatten _ passes,
      by simp [Control]⟩
  exact not_wellFormed passes ⟨_, List.mem_singleton_self _, slip⟩ ((validates _).mp accepted).wellFormed

end MessageValidation

end Hku
