import DiskGauge.Gauge.Picture
import DiskGauge.Proofs.Number.Order

namespace DiskGauge
open Double

namespace Size

variable {lower higher : Double}

theorem ofGigabytes_positive {rank : Fin finiteRanks} (positive : 0 < rank.val) {factor : Fin finiteRanks}
    (value : ofNat 1000000000 = .finite false factor) : ofGigabytes (.finite false rank) =
      (ofRank false (nearestRank (units rank * units factor) unitsPerOne)).round.toNatClamped maxBytes := by
  have guard : ((Double.finite false rank).isFinite && lt .zero (.finite false rank)) = true :=
    (lt_zero_finite rank).mpr positive
  unfold ofGigabytes
  rw [if_pos guard, value, mul_finite]
  rfl

-- More gigabytes have no fewer bytes, also where the product leaves the range of doubles.
theorem ofGigabytes_mono (finite : higher.isFinite = true) (less : le lower higher = true) :
    ofGigabytes lower ≤ ofGigabytes higher := by
  by_cases guard : (lower.isFinite && lt .zero lower) = true
  · obtain ⟨rank, rfl, positive⟩ := positive_cases guard
    cases higher with
    | nan => cases finite
    | infinite negative => cases finite
    | finite negative other =>
      have ordered : (units rank : Int) ≤ signedUnits negative other := of_decide_eq_true less
      have magnitude := units_pos positive
      cases negative with
      | true =>
        change (units rank : Int) ≤ -(units other : Int) at ordered
        omega
      | false =>
        have more : units rank ≤ units other := Int.ofNat_le.mp ordered
        have above : 0 < other.val := lt_of_units_lt (Nat.lt_of_lt_of_le magnitude more)
        obtain ⟨factor, value, _⟩ := ofNat_exact (n := 1000000000) (by decide)
        rw [ofGigabytes_positive positive value, ofGigabytes_positive above value]
        apply toNatClamped_mono
        apply round_ofRank_mono
        apply nearestRank_le unitsPerOne_pos unitsPerOne_pos
        exact Nat.mul_le_mul_right _ (Nat.mul_le_mul_right _ more)
  · unfold ofGigabytes
    rw [if_neg guard]
    exact Nat.zero_le _

end Size

namespace Tier

def severity : Tier → Nat
  | .normal => 0
  | .warning => 1
  | .critical => 2

instance : LE Tier := ⟨fun a b => a.severity ≤ b.severity⟩

instance (a b : Tier) : Decidable (a ≤ b) := inferInstanceAs (Decidable (a.severity ≤ b.severity))

theorem normal_le (tier : Tier) : normal ≤ tier := Nat.zero_le _

theorem le_critical (tier : Tier) : tier ≤ critical := by
  cases tier <;> decide

end Tier

namespace Thresholds

variable {t u : Thresholds} {free less : Nat}

theorem tier_critical (t : Thresholds) (free : Nat) : t.tier free = .critical ↔ free ≤ t.critical := by
  unfold tier
  split
  · simp_all
  · split <;> simp_all

-- Less free space under higher thresholds is no less severe.
theorem tier_mono (critical : t.critical ≤ u.critical) (warning : t.warning ≤ u.warning) (lost : less ≤ free) :
    t.tier free ≤ u.tier less := by
  unfold tier
  by_cases critically : less ≤ u.critical
  · rw [if_pos critically]
    exact Tier.le_critical _
  have notCritical : ¬free ≤ t.critical := by omega
  rw [if_neg critically, if_neg notCritical]
  by_cases warned : free ≤ t.warning
  · have still : less ≤ u.warning := by omega
    rw [if_pos warned, if_pos still]
    exact Nat.le_refl _
  · rw [if_neg warned]
    exact Tier.normal_le _

theorem criticalGigabytes_bytes : Size.ofGigabytes criticalGigabytes = 10000000 := by decide +kernel

theorem ofGigabytes_critical (gigabytes : Double) : (ofGigabytes gigabytes).critical = 10000000 := by
  simp only [ofGigabytes, criticalGigabytes_bytes]

end Thresholds

namespace Reading

theorem ofSnapshot_severity :
    (∀ (lower higher : Double) (more less : Snapshot), lower.isFinite = true → higher.isFinite = true →
      Double.le lower higher = true → less.free ≤ more.free →
      (ofSnapshot more (.ofGigabytes lower)).tier ≤ (ofSnapshot less (.ofGigabytes higher)).tier) ∧
    ∀ (gigabytes : Double) (s : Snapshot), gigabytes.isFinite = true →
      ((ofSnapshot s (.ofGigabytes gigabytes)).tier = .critical ↔ max s.free 0 ≤ 10000000) := by
  constructor
  · intro lower higher more less _ finite raised lost
    apply Thresholds.tier_mono
    · rw [Thresholds.ofGigabytes_critical, Thresholds.ofGigabytes_critical]
    · exact Size.ofGigabytes_mono finite raised
    · exact Int.toNat_le_toNat lost
  · intro gigabytes s _
    change (Thresholds.ofGigabytes gigabytes).tier s.freeBytes = .critical ↔ _
    rw [Thresholds.tier_critical, Thresholds.ofGigabytes_critical]
    unfold Snapshot.freeBytes
    omega

-- A threshold of 10^300 gigabytes, whose bytes leave the range of doubles, warns of all free space there can be; one
-- of a thousandth of a gigabyte lies below the critical free space.
theorem severity_of_extremes :
    (ofSnapshot ⟨"n1", .zero, 9223372036854775807⟩ (.ofGigabytes (.ofDecimal false 1 (-3)))).tier ≤
      (ofSnapshot ⟨"n1", .zero, 9223372036854775806⟩ (.ofGigabytes (.ofDecimal false 1 300))).tier ∧
    (ofSnapshot ⟨"n1", .zero, 9223372036854775806⟩ (.ofGigabytes (.ofDecimal false 1 300))).tier = .warning ∧
    (ofSnapshot ⟨"n1", .zero, -5⟩ (.ofGigabytes (.ofDecimal false 1 (-3)))).tier = .critical := by
  obtain ⟨ordered, critical⟩ := ofSnapshot_severity
  refine ⟨?_, by decide +kernel, ?_⟩
  · exact ordered _ _ _ _ (by decide +kernel) (by decide +kernel) (by decide +kernel) (by decide)
  · exact (critical _ _ (by decide +kernel)).mpr (by decide)

end Reading

end DiskGauge
