import HkuRest.Httpd.AccessControl

/-! What `AccessControlConfig` documents of its verdict, and the verdict of `isIpAllowed`. The
two lists are scanned in their order, but the first hit decides like any other. The default for
empty lists is documented and stored, and never read. -/

namespace Hku

namespace AccessControlConfig

variable {shifted : UInt32} {config other : AccessControlConfig} {ip : Bytes}

/-- The address equals a listed one, or lies in a listed subnet. -/
def Listed (shifted : UInt32) (config : AccessControlConfig) (ip : Bytes) : Prop :=
  ip ∈ config.allowedIps ∨ ∃ subnet ∈ config.allowedSubnets, subnet.isIpInSubnet shifted ip = true

def Empty (config : AccessControlConfig) : Prop := config.allowedIps = [] ∧ config.allowedSubnets = []

instance (config : AccessControlConfig) : Decidable config.Empty := inferInstanceAs (Decidable (_ ∧ _))

/-- The documented verdict: allowed without access control, else by the default if there is
nothing in the lists, else by the mode. -/
def Allows (shifted : UInt32) (config : AccessControlConfig) (ip : Bytes) : Prop :=
  config.enabled = true →
    (config.Empty → config.defaultAllow = true) ∧
    (¬ config.Empty → config.strictMode = true → config.Listed shifted ip) ∧
    (¬ config.Empty → config.strictMode = false → ¬ config.Listed shifted ip)

/-- The same settings, and the same entries in any order and any number. -/
structure SameEntries (config other : AccessControlConfig) : Prop where
  enabled : other.enabled = config.enabled
  defaultAllow : other.defaultAllow = config.defaultAllow
  strictMode : other.strictMode = config.strictMode
  allowedIps : ∀ ip, ip ∈ other.allowedIps ↔ ip ∈ config.allowedIps
  allowedSubnets : ∀ subnet, subnet ∈ other.allowedSubnets ↔ subnet ∈ config.allowedSubnets

theorem lists_iff : config.lists shifted ip = true ↔ config.Listed shifted ip := by
  simp [lists, Listed]

theorem isIpAllowed_iff : config.isIpAllowed shifted ip = true ↔
    (config.enabled = true → (config.strictMode = true ↔ config.Listed shifted ip)) := by
  rw [← lists_iff, isIpAllowed]
  cases config.enabled <;> cases config.lists shifted ip <;> cases config.strictMode <;> simp

theorem SameEntries.listed (same : SameEntries config other) :
    other.Listed shifted ip ↔ config.Listed shifted ip := by
  simp only [Listed, same.allowedIps, same.allowedSubnets]

/-- The order and the repetition of entries do not matter. -/
theorem SameEntries.isIpAllowed (same : SameEntries config other) :
    other.isIpAllowed shifted ip = config.isIpAllowed shifted ip := by
  rw [Bool.eq_iff_iff, isIpAllowed_iff, isIpAllowed_iff, same.listed, same.enabled, same.strictMode]

theorem Empty.not_listed (empty : config.Empty) : ¬ config.Listed shifted ip := by
  simp [Listed, empty.1, empty.2]

/-- The verdict is the documented one, whatever the order of the entries, exactly when access
control is off, or something is listed, or the default is what the mode makes of empty lists. -/
theorem isIpAllowed_documented_iff (shifted : UInt32) (config : AccessControlConfig) (ip : Bytes) :
    ((config.isIpAllowed shifted ip = true ↔ config.Allows shifted ip) ∧
      ∀ other, SameEntries config other →
        other.isIpAllowed shifted ip = config.isIpAllowed shifted ip) ↔
    config.enabled = false ∨ ¬ config.Empty ∨ config.defaultAllow = !config.strictMode := by
  rw [and_iff_left fun other same => same.isIpAllowed, isIpAllowed_iff, Allows]
  cases enabled : config.enabled with
  | false => simp
  | true =>
    by_cases empty : config.Empty
    · have absent : ¬ config.Listed shifted ip := empty.not_listed
      cases config.defaultAllow <;> cases config.strictMode <;> simp [empty, absent]
    · cases config.strictMode <;> simp [empty]

/-- Nobody is listed, and the default is to allow. -/
theorem default_ignored : ¬ ∀ (shifted : UInt32) (config : AccessControlConfig) (ip : Bytes),
    (config.isIpAllowed shifted ip = true ↔ config.Allows shifted ip) ∧
      ∀ other, SameEntries config other →
        other.isIpAllowed shifted ip = config.isIpAllowed shifted ip := by
  intro verdicts
  have allowed := (verdicts 0 ⟨true, [], [], true, true⟩ (dotted 10 0 0 1)).1.mpr
    fun _ => ⟨fun _ => rfl, fun filled => absurd ⟨rfl, rfl⟩ filled, fun _ strict => by cases strict⟩
  exact absurd allowed (by decide)

end AccessControlConfig

end Hku
