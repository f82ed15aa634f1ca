import HkuRest.Httpd.CidrSubnets

/-! The texts that `parseCidr` takes for a subnet. The address is read as a C string, so it may
be followed by a NUL and anything; the prefix length by `std::stoi`, which skips blanks, takes a
sign, and stops at the first byte that is no digit. -/

namespace Hku

open Delimited (takeWhile_run dropWhile_run head?_dropWhile tail_split)

def isDigit (byte : UInt8) : Bool := (decimalValue byte).isSome

/-- `isspace` of the C locale. -/
def isSpace (byte : UInt8) : Bool := byte = 0x20 || 0x09 ≤ byte && byte ≤ 0x0d

/-- The number that digits stand for. -/
def digitsValue (digits : Bytes) : Nat :=
  (digits.filterMap decimalValue).foldl (fun value digit => value * 10 + digit) 0

/-- A dotted address other than 0.0.0.0, a slash, and a number of at most 32. -/
def CidrText (cidr : Bytes) : Prop :=
  ∃ a b c d digits, cidr = dotted a b c d ++ 0x2f :: digits ∧
    [a, b, c, d] ≠ [0, 0, 0, 0] ∧ digits ≠ [] ∧ digits.all isDigit = true ∧ digitsValue digits ≤ 32

/-- What `std::stoi` reads a number of: blanks, a sign, digits, and anything that does not go
on with a digit. -/
structure Numeral where
  blanks : Bytes
  sign : Bytes
  digits : Bytes
  junk : Bytes
  blanks_space : blanks.all isSpace = true
  sign_mem : sign ∈ [[], [0x2b], [0x2d]]
  digits_ne_nil : digits ≠ []
  digits_all : digits.all isDigit = true
  junk_head : junk.head?.all (!isDigit ·) = true

namespace Numeral

def text (numeral : Numeral) : Bytes :=
  numeral.blanks ++ (numeral.sign ++ (numeral.digits ++ numeral.junk))

def value (numeral : Numeral) : Int :=
  if numeral.sign = [0x2d] then -(digitsValue numeral.digits : Int) else digitsValue numeral.digits

/-- Nothing but digits. -/
def Bare (numeral : Numeral) : Prop := numeral.blanks = [] ∧ numeral.sign = [] ∧ numeral.junk = []

end Numeral

/-- What `parseCidr` accepts: an address, whatever stands between its terminator and the slash,
and what is read as a prefix length. -/
structure CidrParts where
  a : UInt8
  b : UInt8
  c : UInt8
  d : UInt8
  hidden : Bytes
  length : Numeral
  address_ne_zero : [a, b, c, d] ≠ [0, 0, 0, 0]
  hidden_head : hidden.head?.all (· = 0) = true
  hidden_no_slash : 0x2f ∉ hidden
  within : 0 ≤ length.value ∧ length.value ≤ 32

namespace CidrParts

def text (parts : CidrParts) : Bytes :=
  dotted parts.a parts.b parts.c parts.d ++ parts.hidden ++ 0x2f :: parts.length.text

/-- Nothing before, between or after the address and the number. -/
def Plain (parts : CidrParts) : Prop := parts.hidden = [] ∧ parts.length.Bare

end CidrParts

/-- The text of an acceptable notation and more. -/
def Decorated (cidr : Bytes) : Prop := ∃ parts : CidrParts, parts.text = cidr ∧ ¬ parts.Plain

variable {shifted : UInt32} {cidr text blanks sign digits junk : Bytes} {octets more : List Nat}
  {byte : UInt8} {value : Int}

theorem decimalValue_inverse : ∀ byte : UInt8, ∀ value ∈ decimalValue byte,
    value < 10 ∧ byte = Bytes.digit value :=
  Bytes.forall_byte (by decide +kernel)

theorem decimal_digit : ∀ value < 10, Bytes.decimal value = [Bytes.digit value] := by
  decide +kernel

theorem decimal_concat : ∀ high < 26, high ≠ 0 → ∀ low < 10,
    Bytes.decimal (high * 10 + low) = Bytes.decimal high ++ [Bytes.digit low] := by
  decide +kernel

theorem space_apart : ∀ byte : UInt8, isSpace byte = true →
    isDigit byte = false ∧ byte ≠ 0x2b ∧ byte ≠ 0x2d :=
  Bytes.forall_byte (by decide +kernel)

theorem digit_apart : ∀ byte : UInt8, isDigit byte = true →
    isSpace byte = false ∧ byte ≠ 0 ∧ byte ≠ 0x2b ∧ byte ≠ 0x2d ∧ byte ≠ 0x2f :=
  Bytes.forall_byte (by decide +kernel)

/-- Octets with a dot between them. -/
def joined : List Nat → Bytes
  | [] => []
  | [octet] => Bytes.decimal octet
  | octet :: more => Bytes.decimal octet ++ 0x2e :: joined more

theorem joined_cons {octet : Nat} (filled : more ≠ []) :
    joined (octet :: more) = Bytes.decimal octet ++ 0x2e :: joined more := by
  cases more with
  | nil => exact absurd rfl filled
  | cons next more => rfl

/-- What has been read of the octet at hand and what is left are the octets that are added. -/
def Completes (octets : List Nat) (current : Option Nat) (text : Bytes) (result : List Nat) : Prop :=
  ∃ more, result = octets ++ more ∧ (∀ octet ∈ more, octet < 256) ∧ result.length = 4 ∧
    current.elim [] Bytes.decimal ++ text = joined more

namespace Completes

variable {rest : Bytes} {result : List Nat} {digit octet : Nat}

theorem last (three : octets.length = 3) (small : octet < 256) :
    Completes octets (some octet) [] (octets ++ [octet]) := by
  refine ⟨[octet], rfl, ?_, by simp [three], by simp [joined]⟩
  simpa using small

theorem first (low : digit < 10) (later : Completes octets (some digit) rest result) :
    Completes octets none (Bytes.digit digit :: rest) result := by
  obtain ⟨more, added, bounds, complete, written⟩ := later
  refine ⟨more, added, bounds, complete, ?_⟩
  rw [← written, Option.elim_some, decimal_digit digit low]
  rfl

theorem further (nonzero : octet ≠ 0) (low : digit < 10) (small : octet * 10 + digit < 256)
    (later : Completes octets (some (octet * 10 + digit)) rest result) :
    Completes octets (some octet) (Bytes.digit digit :: rest) result := by
  obtain ⟨more, added, bounds, complete, written⟩ := later
  refine ⟨more, added, bounds, complete, ?_⟩
  rw [← written, Option.elim_some, Option.elim_some, decimal_concat octet (by omega) nonzero digit low,
    List.append_assoc]
  rfl

theorem dot (few : octets.length < 3) (small : octet < 256)
    (later : Completes (octets ++ [octet]) none rest result) :
    Completes octets (some octet) (0x2e :: rest) result := by
  obtain ⟨more, rfl, bounds, complete, written⟩ := later
  have filled : more ≠ [] := by
    rintro rfl
    simp only [List.append_nil, List.length_append, List.length_singleton] at complete
    omega
  refine ⟨octet :: more, by simp, List.forall_mem_cons.mpr ⟨small, bounds⟩, complete, ?_⟩
  rw [joined_cons filled, ← written]
  rfl

end Completes

theorem scanOctets_completes {current : Option Nat} {result : List Nat}
    (read : scanOctets octets current text = some result) (small : ∀ value ∈ current, value < 256) :
    Completes octets current text result := by
  induction text generalizing octets current with
  | nil =>
    cases current with
    | none => cases read
    | some octet =>
      obtain ⟨three, added⟩ := Option.ite_none_right_eq_some.mp read
      obtain rfl := Option.some.inj added
      exact .last three (small octet rfl)
  | cons byte rest ih =>
    cases current with
    | none =>
      obtain ⟨digit, here, onward⟩ := Option.bind_eq_some_iff.mp read
      obtain ⟨low, rfl⟩ := decimalValue_inverse byte digit here
      have bounded : ∀ value ∈ some digit, value < 256 := by simp; omega
      exact .first low (ih onward bounded)
    | some octet =>
      rw [scanOctets] at read
      split at read
      · rename_i digit here
        obtain ⟨low, rfl⟩ := decimalValue_inverse byte digit here
        obtain ⟨room, onward⟩ := Option.ite_none_left_eq_some.mp read
        rw [not_or, Nat.not_lt] at room
        have bounded : ∀ longer ∈ some (octet * 10 + digit), longer < 256 := by simp; omega
        exact .further room.1 low (Nat.lt_succ_of_le room.2) (ih onward bounded)
      · obtain ⟨⟨rfl, few⟩, onward⟩ := Option.ite_none_right_eq_some.mp read
        exact .dot few (small octet rfl) (ih onward (by simp))

theorem inetPton_eq_some_iff {ip : Bytes} : inetPton ip = some octets ↔
    ∃ a b c d : UInt8, cString ip = dotted a b c d ∧ octets = [a.toNat, b.toNat, c.toNat, d.toNat] := by
  constructor
  · intro read
    obtain ⟨more, rfl, bounds, complete, written⟩ := scanOctets_completes read (by simp)
    obtain ⟨a, b, c, d, rfl⟩ := List.length_eq_four.mp complete
    simp only [List.forall_mem_cons] at bounds
    obtain ⟨first, second, third, fourth, -⟩ := bounds
    have octet {value : Nat} (small : value < 256) : (UInt8.ofNat value).toNat = value :=
      UInt8.toNat_ofNat_of_lt small
    refine ⟨UInt8.ofNat a, UInt8.ofNat b, UInt8.ofNat c, UInt8.ofNat d, ?_, ?_⟩
    · simp only [dotted, octet first, octet second, octet third, octet fourth]
      simpa [joined] using written
    · simp only [octet first, octet second, octet third, octet fourth]
  · rintro ⟨a, b, c, d, written, rfl⟩
    have read := inetPton_dotted (a := a) (b := b) (c := c) (d := d)
    rw [inetPton, cString_dotted] at read
    rw [inetPton, written, read]

theorem cString_written {hidden : Bytes} (terminated : hidden.head?.all (· = 0) = true) (a b c d : UInt8) :
    cString (dotted a b c d ++ hidden) = dotted a b c d := by
  have whole := List.takeWhile_eq_self_iff.mp (cString_dotted (a := a) (b := b) (c := c) (d := d))
  exact takeWhile_run (List.all_eq_true.mpr whole) (by simpa using terminated)

theorem cString_split (ip : Bytes) :
    ∃ hidden, ip = cString ip ++ hidden ∧ hidden.head?.all (· = 0) = true := by
  refine ⟨ip.dropWhile (· ≠ 0), List.takeWhile_append_dropWhile.symm, ?_⟩
  simpa using head?_dropWhile (· ≠ 0) ip

theorem ipToUint32_dotted {ip : Bytes} {a b c d : UInt8} (written : cString ip = dotted a b c d) :
    ipToUint32 ip = 0 ↔ [a, b, c, d] = [0, 0, 0, 0] := by
  have read := inetPton_eq_some_iff.mpr ⟨a, b, c, d, written, rfl⟩
  have octets := And.intro (And.intro a.toNat_lt b.toNat_lt) (And.intro c.toNat_lt d.toNat_lt)
  rw [ipToUint32, read]
  simp only [List.foldl_cons, List.foldl_nil, ← UInt32.toNat_inj, UInt32.toNat_ofNat', List.cons.injEq,
    ← UInt8.toNat_inj, UInt32.toNat_zero, UInt8.toNat_zero, and_true]
  omega

theorem written_of_ipToUint32 {ip : Bytes} (valid : ipToUint32 ip ≠ 0) :
    ∃ a b c d : UInt8, cString ip = dotted a b c d := by
  unfold ipToUint32 at valid
  split at valid
  · rename_i octets read
    obtain ⟨a, b, c, d, written, -⟩ := inetPton_eq_some_iff.mp read
    exact ⟨a, b, c, d, written⟩
  · exact absurd rfl valid

/-- What `std::stoi` makes of what follows the blanks and the sign. -/
def magnitude (negative : Prop) [Decidable negative] (unsigned : Bytes) : Option Int :=
  let digits := unsigned.takeWhile isDigit
  let value : Int := if negative then -(digitsValue digits : Int) else digitsValue digits
  if digits.filterMap decimalValue = [] then none
  else if -2 ^ 31 ≤ value ∧ value < 2 ^ 31 then some value
  else none

theorem stoi_trimmed {trimmed : Bytes} (skipped : text.dropWhile isSpace = trimmed) :
    stoi text = magnitude (trimmed.head? = some 0x2d)
      (if trimmed.head? = some 0x2d || trimmed.head? = some 0x2b then trimmed.tail else trimmed) := by
  subst skipped
  rfl

theorem filterMap_eq_nil (all : digits.all isDigit = true) :
    digits.filterMap decimalValue = [] ↔ digits = [] := by
  constructor
  · intro none
    cases digits with
    | nil => rfl
    | cons digit rest =>
      rw [List.all_cons, Bool.and_eq_true] at all
      have absent := List.filterMap_eq_nil_iff.mp none digit List.mem_cons_self
      simp [isDigit, absent] at all
  · rintro rfl
    rfl

theorem magnitude_digits (negative : Prop) [Decidable negative] (filled : digits ≠ [])
    (all : digits.all isDigit = true) (stop : junk.head?.all (!isDigit ·) = true) :
    magnitude negative (digits ++ junk) =
      let value : Int := if negative then -(digitsValue digits : Int) else digitsValue digits
      if -2 ^ 31 ≤ value ∧ value < 2 ^ 31 then some value else none := by
  rw [magnitude, takeWhile_run all stop]
  simp only [filterMap_eq_nil all, if_neg filled]

theorem magnitude_inverse {negative : Prop} [Decidable negative] {unsigned : Bytes}
    (read : magnitude negative unsigned = some value) :
    ∃ digits junk, unsigned = digits ++ junk ∧ digits ≠ [] ∧ digits.all isDigit = true ∧
      junk.head?.all (!isDigit ·) = true ∧
      value = if negative then -(digitsValue digits : Int) else digitsValue digits := by
  obtain ⟨filled, rest⟩ := Option.ite_none_left_eq_some.mp read
  obtain ⟨-, stored⟩ := Option.ite_none_right_eq_some.mp rest
  refine ⟨unsigned.takeWhile isDigit, unsigned.dropWhile isDigit, List.takeWhile_append_dropWhile.symm,
    ?_, List.all_takeWhile, head?_dropWhile isDigit unsigned, (Option.some.inj stored).symm⟩
  intro empty
  exact filled (by rw [empty, List.filterMap_nil])

namespace Numeral

variable (numeral : Numeral)

theorem sign_cases : numeral.sign = [] ∨ numeral.sign = [0x2b] ∨ numeral.sign = [0x2d] := by
  simpa using numeral.sign_mem

theorem exists_digit : ∃ digit rest, numeral.digits = digit :: rest ∧ isDigit digit = true := by
  obtain ⟨digit, rest, written⟩ := List.exists_cons_of_ne_nil numeral.digits_ne_nil
  have all := numeral.digits_all
  rw [written, List.all_cons, Bool.and_eq_true] at all
  exact ⟨digit, rest, written, all.1⟩

theorem trimmed : numeral.text.dropWhile isSpace = numeral.sign ++ (numeral.digits ++ numeral.junk) := by
  refine dropWhile_run numeral.blanks_space ?_
  obtain ⟨digit, rest, written, isDigit⟩ := numeral.exists_digit
  rcases numeral.sign_cases with none | plus | minus
  · simp [none, written, (digit_apart digit isDigit).1]
  · rw [plus]
    rfl
  · rw [minus]
    rfl

theorem stoi_text : stoi numeral.text =
    if -2 ^ 31 ≤ numeral.value ∧ numeral.value < 2 ^ 31 then some numeral.value else none := by
  have read (negative : Prop) [Decidable negative] :=
    magnitude_digits negative numeral.digits_ne_nil numeral.digits_all numeral.junk_head
  rw [stoi_trimmed numeral.trimmed]
  rcases numeral.sign_cases with none | plus | minus
  · obtain ⟨digit, rest, written, isDigit⟩ := numeral.exists_digit
    have unsigned := read False
    rw [written, List.cons_append] at unsigned
    simp [none, value, written, digit_apart digit isDigit, unsigned]
  · simp [plus, value, read]
  · simp [minus, value, read]

end Numeral

theorem stoi_inverse (read : stoi text = some value) :
    ∃ numeral : Numeral, numeral.text = text ∧ numeral.value = value := by
  have blanks : (text.takeWhile isSpace).all isSpace = true := List.all_takeWhile
  have split : text.takeWhile isSpace ++ text.dropWhile isSpace = text := List.takeWhile_append_dropWhile
  rw [stoi_trimmed rfl] at read
  generalize text.dropWhile isSpace = trimmed at read split
  obtain ⟨digits, junk, unsigned, filled, all, stop, rfl⟩ := magnitude_inverse read
  by_cases minus : trimmed.head? = some 0x2d
  · obtain ⟨rest, rfl⟩ := List.head?_eq_some_iff.mp minus
    have written : rest = digits ++ junk := by simpa using unsigned
    refine ⟨⟨_, [0x2d], digits, junk, blanks, by simp, filled, all, stop⟩, ?_, by simp [Numeral.value]⟩
    exact (congrArg (_ ++ 0x2d :: ·) written.symm).trans split
  by_cases plus : trimmed.head? = some 0x2b
  · obtain ⟨rest, rfl⟩ := List.head?_eq_some_iff.mp plus
    have written : rest = digits ++ junk := by simpa using unsigned
    refine ⟨⟨_, [0x2b], digits, junk, blanks, by simp, filled, all, stop⟩, ?_, by simp [Numeral.value]⟩
    exact (congrArg (_ ++ 0x2b :: ·) written.symm).trans split
  · have written : trimmed = digits ++ junk := by simpa [minus, plus] using unsigned
    refine ⟨⟨_, [], digits, junk, blanks, by simp, filled, all, stop⟩, ?_, by simp [Numeral.value, minus]⟩
    exact (congrArg (_ ++ ·) written.symm).trans split

theorem CidrParts.front_no_slash (parts : CidrParts) :
    0x2f ∉ dotted parts.a parts.b parts.c parts.d ++ parts.hidden := by
  rw [List.mem_append, not_or]
  exact ⟨dotted_no_slash, parts.hidden_no_slash⟩

/-- `parseCidr` accepts nothing else, whatever the shift gives. -/
theorem parseCidr_isSome_iff : (parseCidr shifted cidr).isSome = true ↔
    ∃ parts : CidrParts, parts.text = cidr := by
  constructor
  · intro accepted
    by_cases slash : 0x2f ∈ cidr
    · obtain ⟨ip, prefixText, rfl, absent⟩ := List.eq_append_cons_of_mem slash
      rw [parseCidr_split absent] at accepted
      obtain ⟨result, found⟩ := Option.isSome_iff_exists.mp accepted
      obtain ⟨valid, parsed⟩ := Option.ite_none_left_eq_some.mp found
      obtain ⟨prefixLen, read, bounded⟩ := Option.bind_eq_some_iff.mp parsed
      obtain ⟨within, -⟩ := Option.ite_none_left_eq_some.mp bounded
      obtain ⟨numeral, rfl, rfl⟩ := stoi_inverse read
      obtain ⟨a, b, c, d, written⟩ := written_of_ipToUint32 valid
      obtain ⟨hidden, split, terminated⟩ := cString_split ip
      have silent : 0x2f ∉ hidden := by
        rw [split] at absent
        exact fun member => absent (List.mem_append_right _ member)
      refine ⟨⟨a, b, c, d, hidden, numeral, (ipToUint32_dotted written).not.mp valid, terminated, silent,
        by omega⟩, ?_⟩
      rw [CidrParts.text, ← written, ← split]
    · simp [parseCidr, slash] at accepted
  · rintro ⟨parts, rfl⟩
    have address := ipToUint32_dotted (cString_written parts.hidden_head parts.a parts.b parts.c parts.d)
    have within := parts.within
    rw [CidrParts.text, parseCidr_split parts.front_no_slash, Numeral.stoi_text]
    rw [if_neg (address.not.mpr parts.address_ne_zero), if_pos (by omega), Option.bind_some,
      if_neg (by omega)]
    rfl

theorem Numeral.bare_text {numeral : Numeral} (bare : numeral.Bare) : numeral.text = numeral.digits := by
  obtain ⟨blanks, sign, junk⟩ := bare
  simp [text, blanks, sign, junk]

theorem Numeral.bare_iff {numeral : Numeral} : numeral.Bare ↔ numeral.text.all isDigit = true := by
  constructor
  · intro bare
    rw [bare_text bare]
    exact numeral.digits_all
  · intro all
    simp only [text, List.all_append, Bool.and_eq_true] at all
    obtain ⟨blanks, sign, -, junk⟩ := all
    refine ⟨?_, ?_, ?_⟩
    · cases found : numeral.blanks with
      | nil => rfl
      | cons byte rest =>
        have space := numeral.blanks_space
        rw [found, List.all_cons, Bool.and_eq_true] at space blanks
        exact absurd blanks.1 (by simp [(space_apart byte space.1).1])
    · rcases numeral.sign_cases with none | plus | minus
      · exact none
      · exact absurd sign (by rw [plus]; decide)
      · exact absurd sign (by rw [minus]; decide)
    · cases found : numeral.junk with
      | nil => rfl
      | cons byte rest =>
        have stop := numeral.junk_head
        rw [found, List.all_cons, Bool.and_eq_true] at junk
        rw [found] at stop
        exact absurd junk.1 (by simpa using stop)

theorem cidrText_iff : CidrText cidr ↔ ∃ parts : CidrParts, parts.text = cidr ∧ parts.Plain := by
  constructor
  · rintro ⟨a, b, c, d, digits, rfl, address, filled, all, within⟩
    have bounds : (0 : Int) ≤ digitsValue digits ∧ (digitsValue digits : Int) ≤ 32 := by omega
    refine ⟨⟨a, b, c, d, [], ⟨[], [], digits, [], rfl, by simp, filled, all, rfl⟩, address, rfl, by simp, ?_⟩,
      ?_, rfl, rfl, rfl, rfl⟩
    · simpa [Numeral.value] using bounds
    · simp [CidrParts.text, Numeral.text]
  · rintro ⟨parts, rfl, hidden, bare⟩
    have within := parts.within
    rw [Numeral.value, bare.2.1, if_neg (by decide)] at within
    refine ⟨parts.a, parts.b, parts.c, parts.d, parts.length.digits, ?_, parts.address_ne_zero,
      parts.length.digits_ne_nil, parts.length.digits_all, by omega⟩
    rw [CidrParts.text, hidden, List.append_nil, Numeral.bare_text bare]

theorem CidrParts.plain_unique {parts others : CidrParts} (same : parts.text = others.text)
    (plain : others.Plain) : parts.Plain := by
  have front := congrArg (Delimited.name 0x2f) same
  have rest := congrArg (fun text => (text.dropWhile (· ≠ (0x2f : UInt8))).tail) same
  simp only [text, Delimited.name_split parts.front_no_slash, Delimited.name_split others.front_no_slash]
    at front
  simp only [text, tail_split parts.front_no_slash, tail_split others.front_no_slash] at rest
  obtain ⟨hidden, bare⟩ := plain
  refine ⟨?_, ?_⟩
  · cases found : parts.hidden with
    | nil => rfl
    | cons byte more =>
      have nul := parts.hidden_head
      rw [found] at nul
      obtain rfl : byte = 0 := by simpa using nul
      have member : (0 : UInt8) ∈ dotted others.a others.b others.c others.d := by
        rw [hidden, List.append_nil] at front
        rw [← front, found]
        simp
      rcases dotted_bytes member with dot | digit
      · cases dot
      · cases digit
  · rw [Numeral.bare_iff, rest, ← Numeral.bare_iff]
    exact bare

/-- The accepted texts are a dotted address other than 0.0.0.0, a slash and a number of at most
32, unless one of these is decorated. -/
theorem parseCidr_grammar_iff (shifted : UInt32) (cidr : Bytes) :
    ((parseCidr shifted cidr).isSome = true ↔ CidrText cidr) ↔ ¬ Decorated cidr := by
  rw [parseCidr_isSome_iff, cidrText_iff]
  constructor
  · rintro strict ⟨parts, written, decorated⟩
    obtain ⟨others, same, plain⟩ := strict.mp ⟨parts, written⟩
    exact decorated (CidrParts.plain_unique (written.trans same.symm) plain)
  · intro undecorated
    constructor
    · rintro ⟨parts, written⟩
      refine ⟨parts, written, ?_⟩
      by_contra decorated
      exact undecorated ⟨parts, written, decorated⟩
    · rintro ⟨parts, written, -⟩
      exact ⟨parts, written⟩

/-- `10.0.0.0/8x` is accepted as `10.0.0.0/8`. -/
theorem trailing_byte_accepted :
    ¬ ∀ shifted cidr, (parseCidr shifted cidr).isSome = true ↔ CidrText cidr := by
  intro strict
  obtain ⟨a, b, c, d, digits, written, -, -, all, -⟩ :=
    (strict 0 (Bytes.ascii "10.0.0.0/8x")).mp (by decide +kernel)
  have rest := congrArg (fun text => (text.dropWhile (· ≠ (0x2f : UInt8))).tail) written
  simp only [tail_split dotted_no_slash] at rest
  rw [← rest] at all
  exact absurd all (by decide +kernel)

end Hku
