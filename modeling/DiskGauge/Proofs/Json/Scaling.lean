import DiskGauge.Json.Scan
import DiskGauge.Proofs.Number.Exact
import DiskGauge.Proofs.Number.Shortest

namespace DiskGauge.Json
open Double Decimal

variable {significand rank : Nat} {exponent : Int}

-- The powers of ten that are multiplied with or divided by are doubles of at least one.
theorem power_finite {places : Nat} (near : places ≤ 308) :
    ∃ power : Fin finiteRanks, ofDecimal false 1 places = .finite false power ∧
      unitsPerOne ≤ units power ∧ Nearest (tenTo places * unitsPerOne) 1 power := by
  have quarters (e : Nat) : 3 * twoTo e < twoTo (e + 2) := by
    rw [twoTo_succ, twoTo_succ]
    have spaced := twoTo_pos e
    omega
  have within := lt_units_finiteRanks (quarters 1022)
  rw [unitsPerOne, Nat.mul_assoc, ← twoTo_add] at within
  obtain ⟨bound, exact⟩ := exists_finite 3 (1022 + 1074) (by decide) within
  have less : tenTo places * unitsPerOne ≤ units bound * 1 := by
    have largest : tenTo 308 ≤ 3 * twoTo 1022 := by decide +kernel
    rw [exact, twoTo_add, ← Nat.mul_assoc, Nat.mul_one, ← unitsPerOne]
    exact Nat.mul_le_mul_right _ (Nat.le_trans (tenTo_le near) largest)
  obtain ⟨power, known, _, nearest⟩ := ofUnits_le false bound Nat.one_pos less
  refine ⟨power, (ofDecimal_power (Nat.le_trans near (by decide))).trans known, ?_, nearest⟩
  refine nearest.one_le Nat.one_pos ?_
  rw [Nat.mul_one]
  exact Nat.le_mul_of_pos_left _ (tenTo_pos places)

theorem scaled?_up (steps places : Nat) (near : places ≤ 308) {x power product : Fin finiteRanks}
    (known : ofDecimal false 1 places = .finite false power)
    (finite : ofUnits false (units x * units power) unitsPerOne = .finite false product) :
    scaled? steps (.finite false x) places = some (.finite false product) := by
  unfold scaled?
  rw [Int.natAbs_natCast, if_pos near, known, if_pos (Int.natCast_nonneg _), mul_finite, finite]
  rfl

theorem scaled?_down (steps places : Nat) (fractional : 0 < places) (near : places ≤ 308)
    {x power : Fin finiteRanks} (known : ofDecimal false 1 places = .finite false power)
    (positive : 0 < units power) :
    scaled? steps (.finite false x) (-places) = some (ofQuotient false (units x) (units power)) := by
  have down : ¬(0 ≤ -(places : Int)) := by omega
  unfold scaled?
  rw [Int.natAbs_neg, Int.natAbs_natCast, if_pos near, known, if_neg down, div_finite x power positive]

-- Digits and power are doubles: the decimal is rounded once.
theorem scaled?_exact (steps : Nat) (fits : significand ≤ twoTo 53) (near : exponent.natAbs ≤ 22)
    (reads : (⟨significand, exponent⟩ : Decimal).ReadsAs rank) (finite : rank < finiteRanks) :
    scaled? steps (ofNat significand) exponent = some (.finite false ⟨rank, finite⟩) := by
  obtain ⟨x, number, exact⟩ := ofNat_exact fits
  obtain ⟨power, known, powerExact⟩ := ofDecimal_power_exact near
  have close : exponent.natAbs ≤ 308 := Nat.le_trans near (by decide)
  rw [number]
  by_cases up : 0 ≤ exponent
  · obtain ⟨places, rfl⟩ := Int.eq_ofNat_of_zero_le up
    rw [Int.natAbs_natCast] at known powerExact close
    have nearest := (readsAs_natCast significand places).mp reads
    have rounded : nearestRank (units x * units power) unitsPerOne = rank := by
      rw [← (nearestRank_eq_iff Nat.one_pos).mpr nearest]
      refine nearestRank_congr unitsPerOne_pos Nat.one_pos ?_
      rw [exact, powerExact]
      ring
    refine scaled?_up steps places close known ?_
    unfold ofUnits
    rw [rounded, ofRank_finite false finite]
  · obtain ⟨places, rfl⟩ : ∃ places : Nat, exponent = -places := ⟨exponent.natAbs, by omega⟩
    rw [Int.natAbs_neg, Int.natAbs_natCast] at known powerExact close
    have fractional : 0 < places := by omega
    have nearest := (readsAs_neg significand places).mp reads
    have positive : 0 < units power := by
      rw [powerExact]
      exact Nat.mul_pos (tenTo_pos _) unitsPerOne_pos
    have rounded : nearestRank (units x * unitsPerOne) (units power) = rank := by
      rw [← (nearestRank_eq_iff (tenTo_pos _)).mpr nearest]
      refine nearestRank_congr positive (tenTo_pos _) ?_
      rw [exact, powerExact]
      ring
    rw [scaled?_down steps places fractional close known positive]
    unfold ofQuotient ofUnits
    rw [rounded, ofRank_finite false finite]

theorem quotient_le {x power : Fin finiteRanks} (atLeast : unitsPerOne ≤ units power) :
    ∃ y : Fin finiteRanks, ofQuotient false (units x) (units power) = .finite false y ∧ y ≤ x := by
  have positive : 0 < units power := Nat.lt_of_lt_of_le unitsPerOne_pos atLeast
  obtain ⟨y, found, below, _⟩ := ofUnits_le false x positive (Nat.mul_le_mul_left (units x) atLeast)
  exact ⟨y, found, below⟩

theorem scaled?_near_finite (steps : Nat) (x : Fin finiteRanks) (down : exponent < 0)
    (near : exponent.natAbs ≤ 308) :
    ∃ y : Fin finiteRanks, scaled? steps (.finite false x) exponent = some (.finite false y) := by
  obtain ⟨places, rfl⟩ : ∃ places : Nat, exponent = -places := ⟨exponent.natAbs, by omega⟩
  rw [Int.natAbs_neg, Int.natAbs_natCast] at near
  obtain ⟨power, known, atLeast, _⟩ := power_finite near
  obtain ⟨y, found, _⟩ := quotient_le (x := x) atLeast
  have positive := Nat.lt_of_lt_of_le unitsPerOne_pos atLeast
  exact ⟨y, by rw [scaled?_down steps places (by omega) near known positive, found]⟩

-- Below the point every step is a division, so nothing gets out of range.
theorem scaled?_down_finite (steps : Nat) (x : Fin finiteRanks) (down : exponent < 0) :
    ∃ y : Fin finiteRanks, scaled? steps (.finite false x) exponent = some (.finite false y) := by
  induction steps generalizing x exponent with
  | zero =>
    by_cases near : exponent.natAbs ≤ 308
    · exact scaled?_near_finite 0 x down near
    · unfold scaled?
      rw [if_neg near, if_neg (Int.not_le.mpr down)]
      exact ⟨x, ite_self _⟩
  | succ steps ih =>
    by_cases near : exponent.natAbs ≤ 308
    · exact scaled?_near_finite (steps + 1) x down near
    · obtain ⟨power, known, atLeast, _⟩ := power_finite (Nat.le_refl 308)
      obtain ⟨y, found, _⟩ := quotient_le (x := x) atLeast
      have positive := Nat.lt_of_lt_of_le unitsPerOne_pos atLeast
      unfold scaled?
      rw [if_neg near, if_neg (Int.not_le.mpr down)]
      by_cases zero : (Double.finite false x).isZero
      · exact ⟨x, if_pos zero⟩
      · have still : exponent + 308 < 0 := by omega
        obtain ⟨z, rest⟩ := ih y still
        refine ⟨z, ?_⟩
        rw [if_neg zero]
        dsimp only
        rw [show ofDecimal false 1 308 = .finite false power from known, div_finite x power positive, found,
          rest]

-- Three roundings drift by less than the room of three ranks.
theorem drift_fits {x y top unit product : Nat}
    (first : twoTo 53 * x ≤ (twoTo 53 + 1) * (significand * unit))
    (second : twoTo 53 * y ≤ (twoTo 53 + 1) * (product * unit))
    (room : 2 * (significand * product * unit) ≤ (twoTo 54 - 7) * top) (positive : 0 < top * unit) :
    2 * (x * y) < (twoTo 54 - 1) * top * unit := by
  have both := Nat.mul_le_mul first second
  have scaled := Nat.mul_le_mul_left ((twoTo 53 + 1) * (twoTo 53 + 1)) (Nat.mul_le_mul_right unit room)
  have size : twoTo 53 = 9007199254740992 := rfl
  have double : twoTo 54 = 18014398509481984 := rfl
  rw [size] at both scaled
  rw [double] at scaled ⊢
  linarith

theorem scaled?_up_finite (steps places : Nat) (positive : 0 < significand)
    (room : 2 * (significand * tenTo places * unitsPerOne) ≤ (twoTo 54 - 7) * twoTo 2045) :
    ∃ y : Fin finiteRanks, scaled? steps (ofNat significand) places = some (.finite false y) := by
  have past : twoTo 1024 * unitsPerOne = twoTo 53 * twoTo 2045 := by
    rw [unitsPerOne, ← twoTo_add, ← twoTo_add]
  have one := unitsPerOne_pos
  have double : twoTo 54 = 18014398509481984 := rfl
  have half : twoTo 53 = 9007199254740992 := rfl
  have top := twoTo_pos 2045
  have near : places ≤ 308 := by
    by_contra far
    have wide : twoTo 1024 < tenTo 309 := by decide +kernel
    have power : tenTo 309 ≤ significand * tenTo places :=
      Nat.le_trans (tenTo_le (Nat.lt_of_not_le far)) (Nat.le_mul_of_pos_left _ positive)
    have scaled := Nat.mul_le_mul_right unitsPerOne (Nat.le_trans wide power)
    rw [double] at room
    rw [half] at past
    generalize twoTo 2045 = spacing at room past top
    generalize twoTo 1024 = range at past scaled
    linarith
  obtain ⟨power, known, atLeast, rounded⟩ := power_finite near
  have small : 2 * (significand * unitsPerOne) < (units (finiteRanks - 1) + units finiteRanks) * 1 := by
    have part := Nat.le_mul_of_pos_right significand (tenTo_pos places)
    have scaled := Nat.mul_le_mul_right unitsPerOne part
    rw [last_midpoint, double]
    rw [double] at room
    generalize twoTo 2045 = spacing at room top ⊢
    linarith
  obtain ⟨x, number, nearest⟩ := ofUnits_finite false Nat.one_pos small
  have normal := nearest.one_le Nat.one_pos (by rw [Nat.mul_one]; exact Nat.le_mul_of_pos_left _ positive)
  have first := nearest.drift (normal_of_one_le normal)
  have second := rounded.drift (normal_of_one_le atLeast)
  rw [Nat.mul_one] at first second
  have less : 2 * (units x * units power) < (units (finiteRanks - 1) + units finiteRanks) * unitsPerOne := by
    rw [last_midpoint]
    exact drift_fits first second room (Nat.mul_pos top one)
  obtain ⟨y, product, _⟩ := ofUnits_finite false unitsPerOne_pos less
  refine ⟨y, ?_⟩
  rw [show ofNat significand = .finite false x from number]
  exact scaled?_up steps places near known product

end DiskGauge.Json
