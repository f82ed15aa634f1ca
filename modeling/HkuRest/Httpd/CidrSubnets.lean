import HkuRest.Core.BitPrefix
import HkuRest.Core.Delimited
import HkuRest.Httpd.AccessControl

/-! The verdict of a subnet on an IPv4 address, in either notation. 0 stands for an address
that cannot be read, and a prefix of no bits shifts the mask by its whole width. A network with
a mask is compared as it is written, one with a prefix without its host bits. -/

namespace Hku

open BitPrefix (Agree)

/-- The text of an address. -/
def addressText (address : UInt32) : Bytes :=
  dotted (UInt8.ofNat (address.toNat / 2 ^ 24)) (UInt8.ofNat (address.toNat / 2 ^ 16))
    (UInt8.ofNat (address.toNat / 2 ^ 8)) (UInt8.ofNat address.toNat)

def cidrText (network : UInt32) (prefixLen : Nat) : Bytes :=
  addressText network ++ 0x2f :: Bytes.decimal prefixLen

/-- How far `parseCidr` shifts `0xFFFFFFFF`, if it gets to shift it. -/
def parseCidrShift (cidr : Bytes) : Option Nat :=
  if 0x2f ∈ cidr ∧ ipToUint32 (cidr.takeWhile (· ≠ 0x2f)) ≠ 0 then
    (stoi (cidr.dropWhile (· ≠ 0x2f)).tail).bind fun prefixLen =>
      if prefixLen < 0 ∨ 32 ≤ prefixLen then none else some (32 - prefixLen.toNat)
  else none

/-- The same on the way through `isIpInCidr`. -/
def isIpInCidrShift (ip cidr : Bytes) : Option Nat :=
  if ipToUint32 ip = 0 then none else parseCidrShift cidr

/-- The mask of a prefix; `shifted` is what `0xFFFFFFFF << 32` gives. -/
def prefixMask (shifted : UInt32) (prefixLen : Nat) : UInt32 :=
  if prefixLen = 32 then 0xFFFFFFFF
  else if prefixLen = 0 then shifted
  else (0xFFFFFFFF : UInt32) <<< (32 - UInt32.ofNat prefixLen)

/-- The mask of a prefix as it is written. -/
def netmask (prefixLen : Nat) : UInt32 := ⟨BitPrefix.mask 32 (32 - prefixLen)⟩

/-- `SubnetConfig(network, mask)`. -/
def SubnetConfig.ofMask (network mask : Bytes) : SubnetConfig := ⟨network, mask, []⟩

variable {shifted : UInt32} {address network : UInt32} {prefixLen : Nat} {ip prefixText cidr : Bytes}
  {a b c d : UInt8}

theorem dotted_bytes {byte : UInt8} (member : byte ∈ dotted a b c d) :
    byte = 0x2e ∨ (decimalValue byte).isSome = true := by
  have digit (octet : UInt8) (inside : byte ∈ Bytes.decimal octet.toNat) :
      byte = 0x2e ∨ (decimalValue byte).isSome = true :=
    .inr (decimalValue_decimal inside)
  simp only [dotted, List.mem_append, List.mem_cons] at member
  rcases member with (((first | dot | second) | dot | third) | dot | fourth)
  · exact digit a first
  · exact .inl dot
  · exact digit b second
  · exact .inl dot
  · exact digit c third
  · exact .inl dot
  · exact digit d fourth

theorem dotted_no_slash : 0x2f ∉ dotted a b c d := by
  intro member
  rcases dotted_bytes member with dot | digit
  · cases dot
  · cases digit

theorem addressText_no_slash : 0x2f ∉ addressText address := dotted_no_slash

theorem ipToUint32_addressText (address : UInt32) : ipToUint32 (addressText address) = address := by
  rw [addressText, ipToUint32, inetPton_dotted]
  apply UInt32.toNat_inj.mp
  have bound := address.toNat_lt
  simp only [List.foldl_cons, List.foldl_nil, UInt8.toNat_ofNat', UInt32.toNat_ofNat']
  omega

theorem stoi_decimal : ∀ value < 33, stoi (Bytes.decimal value) = some (value : Int) := by
  decide +kernel

/-- The correction of the network leaves its bits under the mask, whether it is made or not. -/
theorem network_corrected (network mask : UInt32) :
    (if network &&& ~~~mask ≠ 0 then network &&& mask else network) = network &&& mask := by
  split
  · rfl
  · rename_i aligned
    have inside := congrArg UInt32.toBitVec (not_not.mp aligned)
    exact (UInt32.toBitVec_inj.mp (BitPrefix.and_eq_self_of_and_not _ inside)).symm

theorem parseCidr_split (absent : 0x2f ∉ ip) :
    parseCidr shifted (ip ++ 0x2f :: prefixText) =
      if ipToUint32 ip = 0 then none
      else (stoi prefixText).bind fun prefixLen =>
        if prefixLen < 0 ∨ 32 < prefixLen then none
        else some (ipToUint32 ip &&& prefixMask shifted prefixLen.toNat, prefixMask shifted prefixLen.toNat) := by
  have slash : 0x2f ∈ ip ++ 0x2f :: prefixText := by simp
  have front : (ip ++ 0x2f :: prefixText).takeWhile (· ≠ 0x2f) = ip := Delimited.name_split absent
  simp only [parseCidr, if_pos slash, front, Delimited.dropWhile_split absent, List.tail_cons]
  split
  · rfl
  · congr 1
    funext prefixLen
    split
    · rfl
    · rename_i within
      have whole : prefixLen.toNat = 32 ↔ prefixLen = 32 := by omega
      have empty : prefixLen.toNat = 0 ↔ prefixLen = 0 := by omega
      simp only [network_corrected, prefixMask, whole, empty]

theorem parseCidrShift_split (absent : 0x2f ∉ ip) :
    parseCidrShift (ip ++ 0x2f :: prefixText) =
      if ipToUint32 ip = 0 then none
      else (stoi prefixText).bind fun prefixLen =>
        if prefixLen < 0 ∨ 32 ≤ prefixLen then none else some (32 - prefixLen.toNat) := by
  have slash : 0x2f ∈ ip ++ 0x2f :: prefixText := by simp
  have front : (ip ++ 0x2f :: prefixText).takeWhile (· ≠ 0x2f) = ip := Delimited.name_split absent
  simp only [parseCidrShift, slash, front, Delimited.dropWhile_split absent, List.tail_cons, true_and,
    ne_eq, ite_not]

/-- What a notation is parsed to is defined unless the mask is shifted by its width. -/
theorem parseCidr_defined_iff (cidr : Bytes) :
    (∀ one other, parseCidr one cidr = parseCidr other cidr) ↔ parseCidrShift cidr ≠ some 32 := by
  by_cases slash : 0x2f ∈ cidr
  · obtain ⟨ip, prefixText, rfl, absent⟩ := List.eq_append_cons_of_mem slash
    simp only [parseCidr_split absent, parseCidrShift_split absent]
    by_cases error : ipToUint32 ip = 0
    · simp [error]
    · cases stoi prefixText with
      | none => simp [error]
      | some prefixLen =>
        by_cases empty : prefixLen = 0
        · subst empty
          refine iff_of_false ?_ (by simp [error])
          intro same
          have masks := congrArg (Option.map Prod.snd) (same 0 1)
          simp [error, prefixMask] at masks
        · refine iff_of_true ?_ ?_
          · intro one other
            simp only [prefixMask]
            split
            · rfl
            · simp only [Option.bind_some]
              split
              · rfl
              · have filled : prefixLen.toNat ≠ 0 := by omega
                simp only [filled, if_false]
          · simp only [error, if_false, Option.bind_some]
            split
            · simp
            · simp only [ne_eq, Option.some.injEq]
              omega
  · simp [parseCidr, parseCidrShift, slash]

theorem parseCidr_cidrText (shifted network : UInt32) (within : prefixLen ≤ 32) :
    parseCidr shifted (cidrText network prefixLen) =
      if network = 0 then none
      else some (network &&& prefixMask shifted prefixLen, prefixMask shifted prefixLen) := by
  have range : ¬ ((prefixLen : Int) < 0 ∨ 32 < (prefixLen : Int)) := by omega
  rw [cidrText, parseCidr_split addressText_no_slash, ipToUint32_addressText,
    stoi_decimal prefixLen (Nat.lt_succ_of_le within), Option.bind_some, if_neg range, Int.toNat_natCast]

theorem isIpInCidr_text (shifted address network : UInt32) (within : prefixLen ≤ 32) :
    isIpInCidr shifted (addressText address) (cidrText network prefixLen) = true ↔
      address ≠ 0 ∧ network ≠ 0 ∧
        address &&& prefixMask shifted prefixLen = network &&& prefixMask shifted prefixLen := by
  rw [isIpInCidr, ipToUint32_addressText, parseCidr_cidrText shifted network within]
  by_cases error : network = 0
  · simp [error]
  · simp [error, isIpInNetwork]

theorem isIpInCidrShift_text (address network : UInt32) (within : prefixLen ≤ 32) :
    isIpInCidrShift (addressText address) (cidrText network prefixLen) =
      if address = 0 ∨ network = 0 ∨ prefixLen = 32 then none else some (32 - prefixLen) := by
  rw [isIpInCidrShift, ipToUint32_addressText, cidrText, parseCidrShift_split addressText_no_slash,
    ipToUint32_addressText, stoi_decimal prefixLen (Nat.lt_succ_of_le within), Option.bind_some]
  by_cases unread : address = 0
  · simp [unread]
  by_cases error : network = 0
  · simp [error]
  by_cases whole : prefixLen = 32
  · simp [whole]
  · have range : ¬ ((prefixLen : Int) < 0 ∨ 32 ≤ (prefixLen : Int)) := by omega
    simpa [unread, error, whole, range] using Nat.lt_of_le_of_ne within whole

theorem prefixMask_zero : ∀ prefixLen < 33, prefixLen ≠ 0 → prefixMask 0 prefixLen = netmask prefixLen := by
  decide +kernel

theorem prefixMask_eq (shifted : UInt32) (positive : prefixLen ≠ 0) (within : prefixLen ≤ 32) :
    prefixMask shifted prefixLen = netmask prefixLen := by
  rw [← prefixMask_zero prefixLen (Nat.lt_succ_of_le within) positive]
  simp only [prefixMask, positive, if_false]

theorem and_netmask_eq_iff : address &&& netmask prefixLen = network &&& netmask prefixLen ↔
    Agree (32 - prefixLen) address.toBitVec network.toBitVec := by
  rw [← UInt32.toBitVec_inj, UInt32.toBitVec_and, UInt32.toBitVec_and]
  exact BitPrefix.and_mask_eq_iff

theorem and_netmask_eq_self_iff : network &&& netmask prefixLen = network ↔
    2 ^ (32 - prefixLen) ∣ network.toNat := by
  rw [← UInt32.toBitVec_inj, UInt32.toBitVec_and]
  exact BitPrefix.and_mask_eq_self_iff

theorem netmask_ne_zero : ∀ prefixLen < 33, prefixLen ≠ 0 → netmask prefixLen ≠ 0 := by
  decide +kernel

theorem agree_all (address network : UInt32) : Agree 32 address.toBitVec network.toBitVec := by
  have small (word : UInt32) : word.toBitVec.toNat / 2 ^ 32 = 0 := Nat.div_eq_of_lt word.toNat_lt
  rw [Agree, small, small]

theorem agree_zero_left {k : Nat} : Agree k (0 : UInt32).toBitVec network.toBitVec ↔ network.toNat < 2 ^ k := by
  have zero : (0 : UInt32).toBitVec.toNat / 2 ^ k = 0 := Nat.zero_div _
  rw [Agree, zero, eq_comm]
  exact Nat.div_eq_zero_iff_lt (Nat.two_pow_pos k)

theorem agree_zero_right {k : Nat} : Agree k address.toBitVec (0 : UInt32).toBitVec ↔ address.toNat < 2 ^ k := by
  rw [← agree_zero_left]
  exact eq_comm

/-- The verdict is whether the leading bits agree, and no shift is out of range, exactly when
the prefix has a bit and 0.0.0.0 is not compared with an address that has the same prefix. -/
theorem cidr_verdict_iff (address network : UInt32) (prefixLen : Nat) (within : prefixLen ≤ 32) :
    ((∀ shifted, isIpInCidr shifted (addressText address) (cidrText network prefixLen) = true ↔
        Agree (32 - prefixLen) address.toBitVec network.toBitVec) ∧
      ∀ shift ∈ isIpInCidrShift (addressText address) (cidrText network prefixLen), shift < 32) ↔
    prefixLen ≠ 0 ∧ (address = 0 → 2 ^ (32 - prefixLen) ≤ network.toNat) ∧
      (network = 0 → 2 ^ (32 - prefixLen) ≤ address.toNat) := by
  rw [isIpInCidrShift_text address network within]
  by_cases empty : prefixLen = 0
  · subst empty
    refine iff_of_false ?_ fun condition => condition.1 rfl
    rintro ⟨verdict, shifts⟩
    have inside := (isIpInCidr_text 0 address network within).mp ((verdict 0).mpr (agree_all address network))
    exact absurd (shifts 32 (by simp [inside.1, inside.2.1])) (Nat.lt_irrefl 32)
  · have shifts : ∀ shift ∈ (if address = 0 ∨ network = 0 ∨ prefixLen = 32 then none
        else some (32 - prefixLen)), shift < 32 := by
      intro shift performed
      obtain ⟨_, same⟩ := Option.ite_none_left_eq_some.mp performed
      rw [Option.some.injEq] at same
      omega
    rw [and_iff_left shifts, and_iff_right empty, ← Nat.not_lt, ← Nat.not_lt]
    simp only [isIpInCidr_text _ address network within, prefixMask_eq _ empty within, and_netmask_eq_iff,
      forall_const]
    constructor
    · intro verdict
      constructor
      · rintro rfl small
        exact (verdict.mpr (agree_zero_left.mpr small)).1 rfl
      · rintro rfl small
        exact (verdict.mpr (agree_zero_right.mpr small)).2.1 rfl
    · rintro ⟨left, right⟩
      refine ⟨fun inside => inside.2.2, fun agree => ⟨?_, ?_, agree⟩⟩
      · rintro rfl
        exact left rfl (agree_zero_left.mp agree)
      · rintro rfl
        exact right rfl (agree_zero_right.mp agree)

theorem cidr_verdict_iff_private :
    ((∀ shifted, isIpInCidr shifted (addressText 0x0a000001) (cidrText 0x0a0000ff 24) = true ↔
        Agree 8 (0x0a000001 : UInt32).toBitVec (0x0a0000ff : UInt32).toBitVec) ∧
      ∀ shift ∈ isIpInCidrShift (addressText 0x0a000001) (cidrText 0x0a0000ff 24), shift < 32) ↔
    24 ≠ 0 ∧ ((0x0a000001 : UInt32) = 0 → 2 ^ 8 ≤ (0x0a0000ff : UInt32).toNat) ∧
      ((0x0a0000ff : UInt32) = 0 → 2 ^ 8 ≤ (0x0a000001 : UInt32).toNat) :=
  cidr_verdict_iff 0x0a000001 0x0a0000ff 24 (by decide)

/-- `0.0.0.0/0` is not even a subnet, and `10.0.0.0/0` shifts the mask by 32 bits. -/
theorem empty_prefix_shifts : ¬ ∀ (address network : UInt32) (prefixLen : Nat), prefixLen ≤ 32 →
    (∀ shifted, isIpInCidr shifted (addressText address) (cidrText network prefixLen) = true ↔
        Agree (32 - prefixLen) address.toBitVec network.toBitVec) ∧
      ∀ shift ∈ isIpInCidrShift (addressText address) (cidrText network prefixLen), shift < 32 := by
  intro decides
  have shifts := (decides 0x0a000001 0x0a000000 0 (by decide)).2 32
  exact absurd (shifts (by rw [isIpInCidrShift_text _ _ (by decide)]; decide)) (by decide)

/-- Both notations of a subnet give the same verdict exactly when the network has no host bits, or
the address is not in it. -/
theorem notations_agree_iff (shifted address network : UInt32) (prefixLen : Nat) (read : address ≠ 0)
    (configured : network ≠ 0) (positive : 1 ≤ prefixLen) (within : prefixLen ≤ 32) :
    (SubnetConfig.ofMask (addressText network) (addressText (netmask prefixLen))).isIpInSubnet shifted
        (addressText address) =
      (SubnetConfig.ofCidr (cidrText network prefixLen)).isIpInSubnet shifted (addressText address) ↔
    2 ^ (32 - prefixLen) ∣ network.toNat ∨ ¬ Agree (32 - prefixLen) address.toBitVec network.toBitVec := by
  have filled : prefixLen ≠ 0 := Nat.ne_of_gt positive
  have mask := netmask_ne_zero prefixLen (Nat.lt_succ_of_le within) filled
  have written : (SubnetConfig.ofMask (addressText network) (addressText (netmask prefixLen))).isIpInSubnet
      shifted (addressText address) = true ↔ address &&& netmask prefixLen = network := by
    simp [SubnetConfig.isIpInSubnet, SubnetConfig.ofMask, ipToUint32_addressText, read, configured, mask,
      isIpInNetwork]
  have text : cidrText network prefixLen ≠ [] := by simp [cidrText]
  have noted : (SubnetConfig.ofCidr (cidrText network prefixLen)).isIpInSubnet shifted
      (addressText address) = true ↔ address &&& netmask prefixLen = network &&& netmask prefixLen := by
    rw [SubnetConfig.isIpInSubnet, SubnetConfig.ofCidr, if_pos text, isIpInCidr_text _ _ _ within,
      prefixMask_eq _ filled within]
    simp [read, configured]
  rw [Bool.eq_iff_iff, written, noted, ← and_netmask_eq_iff, ← and_netmask_eq_self_iff]
  constructor
  · intro same
    by_cases agree : address &&& netmask prefixLen = network &&& netmask prefixLen
    · exact .inl (agree.symm.trans (same.mpr agree))
    · exact .inr agree
  · rintro (aligned | apart)
    · rw [aligned]
    · refine iff_of_false ?_ apart
      rintro rfl
      exact apart (by rw [UInt32.and_assoc, UInt32.and_self])

theorem notations_agree_iff_aligned :
    (SubnetConfig.ofMask (addressText 0x0a000000) (addressText (netmask 8))).isIpInSubnet 0
        (addressText 0x0a010203) =
      (SubnetConfig.ofCidr (cidrText 0x0a000000 8)).isIpInSubnet 0 (addressText 0x0a010203) ↔
    2 ^ 24 ∣ (0x0a000000 : UInt32).toNat ∨
      ¬ Agree 24 (0x0a010203 : UInt32).toBitVec (0x0a000000 : UInt32).toBitVec :=
  notations_agree_iff 0 0x0a010203 0x0a000000 8 (by decide) (by decide) (by decide) (by decide)

/-- `10.0.0.1` with the mask `255.255.255.0` holds not even `10.0.0.1`. -/
theorem host_bits_exclude : ¬ ∀ (shifted address network : UInt32) (prefixLen : Nat), address ≠ 0 →
    network ≠ 0 → 1 ≤ prefixLen → prefixLen ≤ 32 →
    (SubnetConfig.ofMask (addressText network) (addressText (netmask prefixLen))).isIpInSubnet shifted
        (addressText address) =
      (SubnetConfig.ofCidr (cidrText network prefixLen)).isIpInSubnet shifted (addressText address) := by
  intro same
  exact absurd (same 0 0x0a000001 0x0a000001 24 (by decide) (by decide) (by decide) (by decide))
    (by decide +kernel)

end Hku
