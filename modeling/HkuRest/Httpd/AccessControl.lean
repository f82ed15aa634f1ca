import HkuRest.Core.Bytes
import Mathlib.Data.List.TakeWhile

/-! Access control by client address. The address comes as text: it is compared as text
with the single addresses of the configuration, and read by `inet_pton(AF_INET, …)` for its
subnets. A dual-stack listener writes an IPv4 client as `::ffff:a.b.c.d`. -/

namespace Hku

def decimalValue (byte : UInt8) : Option Nat :=
  if 0x30 ≤ byte ∧ byte ≤ 0x39 then some (byte.toNat - 0x30) else none

/-- What a C function reads of a string. -/
def cString (text : Bytes) : Bytes := text.takeWhile (· ≠ 0)

/-- The scan of `inet_pton`: the octets that are complete, and the one that is being read once
it has a digit. An octet has no leading zero. -/
def scanOctets (octets : List Nat) : Option Nat → Bytes → Option (List Nat)
  | current, [] =>
      current.bind fun value => if octets.length = 3 then some (octets ++ [value]) else none
  | none, byte :: rest => (decimalValue byte).bind fun digit => scanOctets octets (some digit) rest
  | some value, byte :: rest =>
      match decimalValue byte with
      | some digit =>
          if value = 0 ∨ 255 < value * 10 + digit then none
          else scanOctets octets (some (value * 10 + digit)) rest
      | none =>
          if byte = 0x2e ∧ octets.length < 3 then scanOctets (octets ++ [value]) none rest else none

/-- `inet_pton(AF_INET, …)`. -/
def inetPton (ip : Bytes) : Option (List Nat) := scanOctets [] none (cString ip)

def ipToUint32 (ip : Bytes) : UInt32 :=
  match inetPton ip with
  | some octets => UInt32.ofNat (octets.foldl (fun address octet => address * 256 + octet) 0)
  | none => 0

/-- `std::stoi`, which throws what is here `none`. -/
def stoi (text : Bytes) : Option Int :=
  let isSpace (byte : UInt8) : Bool := byte = 0x20 || 0x09 ≤ byte && byte ≤ 0x0d
  let trimmed := text.dropWhile isSpace
  let negative := trimmed.head? = some 0x2d
  let unsigned := if negative || trimmed.head? = some 0x2b then trimmed.tail else trimmed
  let digits := (unsigned.takeWhile fun byte => (decimalValue byte).isSome).filterMap decimalValue
  let magnitude : Nat := digits.foldl (fun value digit => value * 10 + digit) 0
  let value : Int := if negative then -magnitude else magnitude
  if digits = [] then none
  else if -2 ^ 31 ≤ value ∧ value < 2 ^ 31 then some value
  else none

/-- The network and the mask of a CIDR notation. `shifted` is what `0xFFFFFFFF << 32` gives,
which the language does not define. -/
def parseCidr (shifted : UInt32) (cidr : Bytes) : Option (UInt32 × UInt32) :=
  if 0x2f ∈ cidr then
    let network := ipToUint32 (cidr.takeWhile (· ≠ 0x2f))
    if network = 0 then none
    else
      (stoi (cidr.dropWhile (· ≠ 0x2f)).tail).bind fun prefixLen =>
        if prefixLen < 0 ∨ 32 < prefixLen then none
        else
          let mask :=
            if prefixLen = 32 then 0xFFFFFFFF
            else if prefixLen = 0 then shifted
            else (0xFFFFFFFF : UInt32) <<< (32 - UInt32.ofNat prefixLen.toNat)
          some (if network &&& ~~~mask ≠ 0 then network &&& mask else network, mask)
  else none

def isIpInNetwork (ip network mask : UInt32) : Bool := ip &&& mask = network

def isIpInCidr (shifted : UInt32) (ip cidr : Bytes) : Bool :=
  ipToUint32 ip ≠ 0 &&
    (parseCidr shifted cidr).any fun (network, mask) => isIpInNetwork (ipToUint32 ip) network mask

structure SubnetConfig where
  networkAddress : Bytes
  subnetMask : Bytes
  cidrNotation : Bytes
  deriving DecidableEq, Repr

def SubnetConfig.ofCidr (cidr : Bytes) : SubnetConfig := ⟨[], [], cidr⟩

def SubnetConfig.isIpInSubnet (shifted : UInt32) (subnet : SubnetConfig) (ip : Bytes) : Bool :=
  if subnet.cidrNotation ≠ [] then isIpInCidr shifted ip subnet.cidrNotation
  else
    let address := ipToUint32 ip
    let network := ipToUint32 subnet.networkAddress
    let mask := ipToUint32 subnet.subnetMask
    if address = 0 ∨ network = 0 ∨ mask = 0 then false else isIpInNetwork address network mask

structure AccessControlConfig where
  enabled : Bool
  allowedSubnets : List SubnetConfig
  allowedIps : List Bytes
  defaultAllow : Bool
  strictMode : Bool
  deriving DecidableEq, Repr

namespace AccessControlConfig

def allowAll : AccessControlConfig := ⟨false, [], [], true, true⟩

def allowSubnets (subnets : List Bytes) : AccessControlConfig :=
  ⟨true, subnets.map .ofCidr, [], false, true⟩

def allowIPs (ips : List Bytes) : AccessControlConfig := ⟨true, [], ips, false, true⟩

def denySubnets (subnets : List Bytes) : AccessControlConfig :=
  ⟨true, subnets.map .ofCidr, [], true, false⟩

def denyIPs (ips : List Bytes) : AccessControlConfig := ⟨true, [], ips, true, false⟩

/-- Whether the address is in one of the two lists. -/
def lists (shifted : UInt32) (config : AccessControlConfig) (ip : Bytes) : Bool :=
  config.allowedIps.any (ip = ·) || config.allowedSubnets.any (·.isIpInSubnet shifted ip)

def isIpAllowed (shifted : UInt32) (config : AccessControlConfig) (ip : Bytes) : Bool :=
  if !config.enabled then true
  else if config.lists shifted ip then config.strictMode
  else !config.strictMode

end AccessControlConfig

def dotted (a b c d : UInt8) : Bytes :=
  Bytes.decimal a.toNat ++ 0x2e :: Bytes.decimal b.toNat ++ 0x2e :: Bytes.decimal c.toNat ++
    0x2e :: Bytes.decimal d.toNat

def mapped (a b c d : UInt8) : Bytes := Bytes.ascii "::ffff:" ++ dotted a b c d

variable {shifted : UInt32} {config : AccessControlConfig} {a b c d : UInt8}

theorem decimalValue_digit : ∀ value < 10, decimalValue (Bytes.digit value) = some value := by
  decide

theorem decimal_octet : ∀ octet < 256, Bytes.decimal octet =
    if octet < 10 then [Bytes.digit octet]
    else if octet < 100 then [Bytes.digit (octet / 10), Bytes.digit (octet % 10)]
    else [Bytes.digit (octet / 100), Bytes.digit (octet / 10 % 10), Bytes.digit (octet % 10)] := by
  decide +kernel

theorem scanOctets_decimal (octets : List Nat) (octet : UInt8) (rest : Bytes) :
    scanOctets octets none (Bytes.decimal octet.toNat ++ rest) =
      scanOctets octets (some octet.toNat) rest := by
  have bound := octet.toNat_lt
  rw [decimal_octet octet.toNat bound]
  generalize octet.toNat = value at bound
  split
  · rename_i small
    simp [scanOctets, decimalValue_digit _ small]
  · split
    · have high := decimalValue_digit (value / 10) (by omega)
      have low := decimalValue_digit (value % 10) (by omega)
      simp only [List.cons_append, List.nil_append, scanOctets, high, low, Option.bind_some]
      rw [if_neg (by omega), show value / 10 * 10 + value % 10 = value by omega]
    · have first := decimalValue_digit (value / 100) (by omega)
      have second := decimalValue_digit (value / 10 % 10) (by omega)
      have third := decimalValue_digit (value % 10) (by omega)
      simp only [List.cons_append, List.nil_append, scanOctets, first, second, third, Option.bind_some]
      rw [if_neg (by omega), if_neg (by omega),
        show (value / 100 * 10 + value / 10 % 10) * 10 + value % 10 = value by omega]

theorem decimalValue_decimal {value : Nat} {byte : UInt8} (member : byte ∈ Bytes.decimal value) :
    (decimalValue byte).isSome = true := by
  obtain ⟨d, low, rfl⟩ := Bytes.mem_numeral (by decide) member
  rw [decimalValue_digit d low]
  rfl

theorem cString_dotted : cString (dotted a b c d) = dotted a b c d := by
  refine List.takeWhile_eq_self_iff.mpr ?_
  intro byte member
  have printable (octet : UInt8) (digit : byte ∈ Bytes.decimal octet.toNat) : byte ≠ 0 := by
    rintro rfl
    cases decimalValue_decimal digit
  refine decide_eq_true ?_
  simp only [dotted, List.mem_append, List.mem_cons] at member
  rcases member with (((first | rfl | second) | rfl | third) | rfl | fourth)
  · exact printable a first
  · decide
  · exact printable b second
  · decide
  · exact printable c third
  · decide
  · exact printable d fourth

theorem scanOctets_dot {octets : List Nat} {value : Nat} {rest : Bytes} (few : octets.length < 3) :
    scanOctets octets (some value) (0x2e :: rest) = scanOctets (octets ++ [value]) none rest := by
  have dot : decimalValue 0x2e = none := by decide
  simp [scanOctets, dot, few]

theorem inetPton_dotted : inetPton (dotted a b c d) = some [a.toNat, b.toNat, c.toNat, d.toNat] := by
  have last := scanOctets_decimal [a.toNat, b.toNat, c.toNat] d []
  rw [List.append_nil] at last
  rw [inetPton, cString_dotted, dotted]
  simp only [List.append_assoc, List.cons_append]
  rw [scanOctets_decimal, scanOctets_dot (by simp), List.nil_append, scanOctets_decimal,
    scanOctets_dot (by simp), List.cons_append, List.nil_append, scanOctets_decimal,
    scanOctets_dot (by simp), List.cons_append, List.cons_append, List.nil_append, last]
  rfl

theorem inetPton_mapped : inetPton (mapped a b c d) = none := by
  rfl

theorem ipToUint32_mapped : ipToUint32 (mapped a b c d) = 0 := by
  rw [ipToUint32, inetPton_mapped]

theorem isIpInSubnet_mapped (subnet : SubnetConfig) :
    subnet.isIpInSubnet shifted (mapped a b c d) = false := by
  simp [SubnetConfig.isIpInSubnet, isIpInCidr, ipToUint32_mapped]

theorem lists_mapped (ipv4 : ∀ ip ∈ config.allowedIps, (inetPton ip).isSome = true) :
    config.lists shifted (mapped a b c d) = false := by
  have apart : ∀ ip ∈ config.allowedIps, mapped a b c d ≠ ip := by
    rintro ip member rfl
    have written := ipv4 _ member
    rw [inetPton_mapped] at written
    cases written
  simpa [AccessControlConfig.lists, isIpInSubnet_mapped] using apart

/-- With lists of IPv4 addresses, the verdict on a client is the same for both of its texts
exactly when access control is off or the client is in no list. -/
theorem mapped_verdict_iff (shifted : UInt32) (config : AccessControlConfig) (a b c d : UInt8)
    (ipv4 : ∀ ip ∈ config.allowedIps, (inetPton ip).isSome = true) :
    config.isIpAllowed shifted (mapped a b c d) = config.isIpAllowed shifted (dotted a b c d) ↔
      config.enabled = false ∨ config.lists shifted (dotted a b c d) = false := by
  simp only [AccessControlConfig.isIpAllowed, lists_mapped ipv4]
  cases config.enabled with
  | false => simp
  | true => cases config.lists shifted (dotted a b c d) <;> cases config.strictMode <;> simp

/-- A white list of one client. -/
def onlyLocalhost : AccessControlConfig := .allowIPs [dotted 127 0 0 1]

/-- Nobody else is in it, so neither of the texts of another client is let in. -/
theorem mapped_verdict_iff_stranger :
    onlyLocalhost.isIpAllowed 0 (mapped 10 0 0 1) = onlyLocalhost.isIpAllowed 0 (dotted 10 0 0 1) ↔
      onlyLocalhost.enabled = false ∨ onlyLocalhost.lists 0 (dotted 10 0 0 1) = false := by
  refine mapped_verdict_iff 0 onlyLocalhost 10 0 0 1 ?_
  intro ip member
  rw [List.mem_singleton.mp member, inetPton_dotted]
  rfl

/-- A client that is denied as `10.0.0.1` is let in as `::ffff:10.0.0.1`. -/
theorem denied_client_admitted :
    ¬ ∀ (shifted : UInt32) (config : AccessControlConfig) (a b c d : UInt8),
      (∀ ip ∈ config.allowedIps, (inetPton ip).isSome = true) →
      config.isIpAllowed shifted (mapped a b c d) = config.isIpAllowed shifted (dotted a b c d) := by
  intro same
  have verdict := same 0 (.denyIPs [dotted 10 0 0 1]) 10 0 0 1 (by decide +kernel)
  exact absurd verdict (by decide +kernel)

end Hku
