import DiskGauge.Proofs.Number.Value
import DiskGauge.Proofs.Usage.Percent

namespace DiskGauge.Sample
open Double

variable {used total available less more tenths : Nat}

-- A whole number is rounded to less than twice what it is.
theorem whole_le (positive : 0 < total) : units (whole total) ≤ 2 * (total * unitsPerOne) := by
  have within := (whole_within positive).1
  have wide : twoTo 53 + 1 ≤ twoTo 53 * 2 := by decide
  rw [Nat.pow_one, Nat.pow_one] at within
  apply Nat.le_of_mul_le_mul_left _ (twoTo_pos 53)
  calc twoTo 53 * units (whole total) ≤ (twoTo 53 + 1) * (total * unitsPerOne) := within
    _ ≤ twoTo 53 * 2 * (total * unitsPerOne) := Nat.mul_le_mul_right _ wide
    _ = twoTo 53 * (2 * (total * unitsPerOne)) := Nat.mul_assoc ..

-- One byte of the largest disk is still a share that is rounded like any other.
theorem shareRank_normal (positive : 0 < used) (part : used ≤ total) (fits : total < twoTo 64) :
    twoTo 52 < shareRank used total := by
  have all := Nat.lt_of_lt_of_le positive part
  have room : twoTo 53 * (2 * twoTo 64) ≤ unitsPerOne := by
    rw [← twoTo_succ, ← twoTo_add]
    exact twoTo_le (by decide)
  have large : twoTo 53 * units (whole total) ≤ units (whole used) * unitsPerOne :=
    calc twoTo 53 * units (whole total) ≤ twoTo 53 * (2 * (total * unitsPerOne)) := Nat.mul_le_mul_left _ (whole_le all)
      _ ≤ twoTo 53 * (2 * (twoTo 64 * unitsPerOne)) := by gcongr
      _ = twoTo 53 * (2 * twoTo 64) * unitsPerOne := by ring
      _ ≤ unitsPerOne * unitsPerOne := Nat.mul_le_mul_right _ room
      _ ≤ units (whole used) * unitsPerOne := Nat.mul_le_mul_right _ (one_le_whole positive)
  exact (nearest_nearestRank _ _ (whole_pos all)).normal (whole_pos all) large

-- A thousand times a share is no less than the share.
theorem shareRank_le_permilleRank : shareRank used total ≤ permilleRank used total := by
  have within : units (shareRank used total) * unitsPerOne ≤ units (shareRank used total) * units (whole 1000) * 1 := by
    rw [Nat.mul_one]
    exact Nat.mul_le_mul_left _ (one_le_whole (by decide))
  have below := nearestRank_le Nat.one_pos unitsPerOne_pos within
  rwa [nearestRank_units] at below

-- The two whole numbers, their quotient and the product are each rounded once.
theorem permilleRank_within (positive : 0 < used) (part : used ≤ total) (fits : total < twoTo 64) :
    Within 4 (units (permilleRank used total) * total) (used * 1000 * unitsPerOne) := by
  have all := Nat.lt_of_lt_of_le positive part
  have normal := shareRank_normal positive part fits
  have share : Within 1 (units (shareRank used total) * units (whole total)) (units (whole used) * unitsPerOne) :=
    nearestRank_within (whole_pos all) normal
  have permille : Within 1 (units (permilleRank used total) * unitsPerOne)
      (units (shareRank used total) * units (whole 1000)) :=
    nearestRank_within unitsPerOne_pos (Nat.lt_of_lt_of_le normal shareRank_le_permilleRank)
  have usedOnce := whole_within positive
  have totalOnce := (whole_within all).symm
  rw [units_thousand] at permille
  generalize units (permilleRank used total) = result at *
  generalize units (shareRank used total) = quotient at *
  generalize units (whole total) = divisor at *
  generalize units (whole used) = dividend at *
  have squared := Nat.mul_pos unitsPerOne_pos unitsPerOne_pos
  generalize unitsPerOne = one at *
  apply Within.cancel squared
  have first : Within 1 (result * total * (one * one)) (result * one * divisor) := by
    convert totalOnce.scale (result * one) using 1 <;> ring
  have second : Within 1 (result * one * divisor) (quotient * divisor * (1000 * one)) := by
    convert permille.scale divisor using 1
    ring
  have third : Within 1 (quotient * divisor * (1000 * one)) (dividend * (one * (1000 * one))) := by
    convert share.scale (1000 * one) using 1
    ring
  have fourth : Within 1 (dividend * (one * (1000 * one))) (used * 1000 * one * (one * one)) := by
    convert usedOnce.scale (one * (1000 * one)) using 1
    ring
  exact ((first.trans second).trans third).trans fourth

theorem share_le_one (part : used ≤ total) (positive : 0 < total) : (used : ℚ) / total ≤ 1 := by
  rw [div_le_one (Nat.cast_pos.mpr positive)]
  exact Nat.cast_le.mpr part

-- Half of one is lost in rounding to whole tenths, and less than one part in 2^50 before.
theorem tenthsOf_close (positive : 0 < used) (part : used ≤ total) (fits : total < twoTo 64) :
    |(tenthsOf used total : ℚ) - 1000 * (used / total)| ≤ 1 / 2 + 1000 / 2 ^ 50 := by
  have all := Nat.lt_of_lt_of_le positive part
  have share := share_le_one part all
  have rounded := roundQuotientUp_half (units (permilleRank used total)) unitsPerOne_pos
  have most : ((used * 1000 : Nat) / total : ℚ) ≤ 1000 := by
    push_cast
    rw [mul_div_right_comm]
    linarith
  have near := (permilleRank_within positive part fits).near (by decide) all unitsPerOne_pos most
  push_cast at near
  rw [mul_div_right_comm, mul_comm _ 1000] at near
  change |(tenthsOf used total : ℚ) - _| ≤ _ at rounded
  calc _ ≤ _ := abs_sub_le _ (units (permilleRank used total) / unitsPerOne : ℚ) _
    _ ≤ 1 / 2 + 1000 / 2 ^ 50 := add_le_add rounded near

-- What tenths of a percent are rounded to.
theorem ofTenths_value (bounded : tenths ≤ 1000) : NearestTo (ofTenths tenths) (tenths / 10) ∧
    |(ofTenths tenths).value - tenths / 10| ≤ 100 / 2 ^ 50 := by
  obtain ⟨rank, value, reads, most⟩ := ofTenths_finite bounded
  have nearest : Nearest (tenths * unitsPerOne) 10 rank := (Decimal.readsAs_neg tenths 1).mp reads
  have one := unitsPerOne_rat
  rw [value]
  constructor
  · have near := nearest.nearestTo (by decide)
    push_cast at near
    rwa [mul_div_mul_right _ _ one.ne'] at near
  · rcases Nat.eq_zero_or_pos tenths with rfl | positive
    · rw [← value, ofTenths_zero]
      norm_num
    · have large : twoTo 53 * 10 ≤ tenths * unitsPerOne := by
        have room : twoTo 57 ≤ unitsPerOne := twoTo_le (by decide)
        calc twoTo 53 * 10 ≤ twoTo 57 := by decide
          _ ≤ unitsPerOne := room
          _ ≤ tenths * unitsPerOne := Nat.le_mul_of_pos_left _ positive
      have within := nearest_within nearest (nearest.normal (by decide) large)
      have atMost : (tenths / (10 : Nat) : ℚ) ≤ 100 := by
        rw [div_le_iff₀ (by norm_num)]
        exact_mod_cast bounded
      have near := within.near (by decide) (by decide) unitsPerOne_pos atMost
      rwa [value_finite]

theorem nearestRank_zero {den : Nat} (positive : 0 < den) : nearestRank 0 den = 0 := by
  have same : nearestRank 0 den = nearestRank (units 0) 1 := nearestRank_congr positive Nat.one_pos (by simp)
  rwa [nearestRank_units] at same

theorem tenthsOf_zero (positive : 0 < total) : tenthsOf 0 total = 0 := by
  have unused : whole 0 = 0 := by
    unfold whole
    rw [Nat.zero_mul, nearestRank_zero Nat.one_pos]
  have share : shareRank 0 total = 0 := by
    unfold shareRank
    rw [unused, units_zero, Nat.zero_mul, nearestRank_zero (whole_pos positive)]
  unfold tenthsOf permilleRank
  rw [share, units_zero, Nat.zero_mul, nearestRank_zero unitsPerOne_pos]
  have one := unitsPerOne_pos
  exact Nat.div_eq_of_lt (by rw [units_zero]; omega)

theorem tenthsOf_total (positive : 0 < total) : tenthsOf total total = 1000 := by
  obtain ⟨one, exact⟩ := one_rank
  have share : shareRank total total = one := by
    unfold shareRank
    rw [← nearestRank_units one]
    refine nearestRank_congr (whole_pos positive) Nat.one_pos ?_
    rw [exact, Nat.mul_one, Nat.mul_comm]
  have permille : permilleRank total total = whole 1000 := by
    unfold permilleRank
    rw [share, ← nearestRank_units (whole 1000)]
    refine nearestRank_congr unitsPerOne_pos Nat.one_pos ?_
    rw [exact, Nat.mul_one, Nat.mul_comm, nearestRank_units]
  unfold tenthsOf roundQuotientUp
  rw [permille, units_thousand]
  have unit := unitsPerOne_pos
  generalize unitsPerOne = one at unit
  exact Nat.div_eq_of_lt_le (by omega) (by omega)

-- A hundred times the share that is used, up to half a tenth and a trifle.
theorem percentOf_close (part : used ≤ total) (positive : 0 < total) (fits : total < twoTo 64) :
    |(percentOf used total).value - 100 * (used / total)| ≤ 0.05 + 1 / 10 ^ 12 := by
  rw [percentOf_some part positive fits]
  rcases Nat.eq_zero_or_pos used with rfl | someUsed
  · rw [tenthsOf_zero positive, ofTenths_zero]
    norm_num
  · obtain ⟨_, written⟩ := ofTenths_value (tenthsOf_le part positive)
    have counted := tenthsOf_close someUsed part fits
    rw [abs_le] at written counted ⊢
    constructor <;> linarith

theorem ofTenths_thousand : ofTenths 1000 = Snapshot.hundred := by
  have same : nearestRank (1000 * unitsPerOne) 10 = nearestRank (100 * unitsPerOne) 1 :=
    nearestRank_congr (by decide) Nat.one_pos (by omega)
  unfold ofTenths ofQuotient ofUnits Snapshot.hundred Double.ofNat ofQuotient ofUnits
  rw [same]

theorem ofTenths_mono (ordered : less ≤ more) : le (ofTenths less) (ofTenths more) = true :=
  ofUnits_mono (by decide) (by decide) (Nat.mul_le_mul_right _ (Nat.mul_le_mul_right _ ordered))

structure Accurate (total available : Nat) (s : Sample) : Prop where
  free : s.free = min available total
  all : s.total = total
  -- The free bytes are no more than all of them, so the used ones are what is left.
  conserved : s.free ≤ total ∧ s.used + s.free = total
  tenths : ∃ k : Nat, k ≤ 1000 ∧ s.percent = ofTenths k ∧ NearestTo s.percent (k / 10)
  unused : total = 0 ∨ total ≤ available → s.percent = .zero
  full : available = 0 → 0 < total → s.percent = Double.ofNat 100
  close : 0 < total → |s.percent.value - 100 * s.used / total| ≤ 0.05 + 1 / 10 ^ 12

theorem accurate (fits : total < twoTo 64) (available : Nat) : Accurate total available (ofSpace total available) := by
  constructor
  case free => rfl
  case all => rfl
  case conserved => exact ⟨Nat.min_le_right .., Nat.sub_add_cancel (Nat.min_le_right ..)⟩
  case tenths =>
    obtain ⟨k, bounded, same⟩ := percentOf_tenths (Nat.sub_le total (min available total)) fits
    change (ofSpace total available).percent = ofTenths k at same
    exact ⟨k, bounded, same, same ▸ (ofTenths_value bounded).1⟩
  case unused =>
    intro nothing
    change percentOf (total - min available total) total = _
    rcases Nat.eq_zero_or_pos total with rfl | positive
    · rfl
    · have all : total - min available total = 0 := by omega
      rw [all, percentOf_some (Nat.zero_le _) positive fits, tenthsOf_zero positive, ofTenths_zero]
  case full =>
    intro unavailable positive
    change percentOf (total - min available total) total = _
    have all : total - min available total = total := by omega
    rw [all, percentOf_some (Nat.le_refl _) positive fits, tenthsOf_total positive, ofTenths_thousand]
    rfl
  case close =>
    intro positive
    have near := percentOf_close (Nat.sub_le total (min available total)) positive fits
    rwa [mul_div_assoc]

-- A disk on which more becomes available is never shown as fuller.
theorem ofSpace_mono (fits : total < twoTo 64) (ordered : less ≤ more) :
    le (ofSpace total more).percent (ofSpace total less).percent = true := by
  change le (percentOf (total - min more total) total) (percentOf (total - min less total) total) = true
  rcases Nat.eq_zero_or_pos total with rfl | positive
  · rfl
  · have fewer : total - min more total ≤ total - min less total := by omega
    rw [percentOf_some (Nat.sub_le ..) positive fits, percentOf_some (Nat.sub_le ..) positive fits]
    exact ofTenths_mono (tenthsOf_mono fewer positive)

theorem ofSpace_faithful :
    (∀ total available : UInt64, Accurate total.toNat available.toNat (ofSpace total.toNat available.toNat)) ∧
    ∀ total less more : UInt64, less ≤ more →
      le (ofSpace total.toNat more.toNat).percent (ofSpace total.toNat less.toNat).percent = true := by
  constructor
  · intro total available
    exact accurate total.toNat_lt available.toNat
  · intro total less more ordered
    exact ofSpace_mono total.toNat_lt (UInt64.le_iff_toNat_le.mp ordered)

-- The largest disk, full; a disk that has more available than it holds; and a third of a disk.
theorem faithful_extremes : (ofSpace 18446744073709551615 0).percent = Double.ofNat 100 ∧
    100 ≤ 150 ∧ (ofSpace 100 150).percent = .zero ∧
    0 < 3 ∧ |(ofSpace 3 2).percent.value - 100 * (1 : Nat) / (3 : Nat)| ≤ 0.05 + 1 / 10 ^ 12 ∧
    2 ≤ 3 ∧ le (ofSpace 3 3).percent (ofSpace 3 2).percent = true := by
  obtain ⟨each, ordered⟩ := ofSpace_faithful
  exact ⟨(each 18446744073709551615 0).full rfl (by decide), by decide, (each 100 150).unused (.inr (by decide)),
    by decide, (each 3 2).close (by decide), by decide, ordered 3 2 3 (by decide)⟩

end DiskGauge.Sample
