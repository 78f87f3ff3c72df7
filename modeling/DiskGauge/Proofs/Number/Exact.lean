import DiskGauge.Number.Decimal
import DiskGauge.Proofs.Number.Nearest

namespace DiskGauge.Double

variable {num den rank : Nat}

theorem units_finiteRanks : units finiteRanks = twoTo 1024 * unitsPerOne := by
  have split : finiteRanks = 2046 * twoTo 52 + twoTo 52 := by
    unfold finiteRanks
    ring
  rw [split, units_block 2046 (twoTo 52) (twoTo_le (by decide)) (.inr (Nat.le_refl _)), unitsPerOne,
    ← twoTo_add, ← twoTo_add]

theorem mul_finite (x y : Fin finiteRanks) :
    Double.finite false x * Double.finite false y = ofUnits false (units x * units y) unitsPerOne := by
  change Double.mul _ _ = _
  rw [Double.mul, bne_self_eq_false]

theorem div_finite (x y : Fin finiteRanks) (positive : 0 < units y) :
    Double.finite false x / Double.finite false y = ofQuotient false (units x) (units y) := by
  have divisor : y.val ≠ 0 := by
    intro zero
    rw [zero] at positive
    exact Nat.lt_irrefl 0 positive
  exact if_neg divisor

theorem le_finite (x y : Fin finiteRanks) :
    Double.le (.finite false x) (.finite false y) = true ↔ units x ≤ units y := by
  rw [Double.le, decide_eq_true_eq, signedUnits, signedUnits, if_neg Bool.false_ne_true,
    if_neg Bool.false_ne_true, Int.ofNat_le]

theorem ofRank_finite (negative : Bool) (inside : rank < finiteRanks) :
    ofRank negative rank = .finite negative ⟨rank, inside⟩ := dif_pos inside

theorem lt_units_finiteRanks {n : Nat} (less : n < twoTo 1024) : n * unitsPerOne < units finiteRanks := by
  rw [units_finiteRanks]
  exact Nat.mul_lt_mul_of_pos_right less unitsPerOne_pos

theorem ofUnits_exact (negative : Bool) (rank : Fin finiteRanks) (positive : 0 < den)
    (exact : units rank * den = num) : ofUnits negative num den = .finite negative rank := by
  have kept : nearestRank num den = rank := (nearestRank_eq_iff positive).mpr (exact ▸ nearest_self _ positive)
  unfold ofUnits
  rw [kept, ofRank_finite negative rank.isLt]

theorem exists_finite (significand exponent : Nat) (fits : significand ≤ twoTo 53)
    (small : significand * twoTo exponent < units finiteRanks) :
    ∃ rank : Fin finiteRanks, units rank = significand * twoTo exponent := by
  obtain ⟨rank, exact⟩ := exists_units significand exponent fits
  rw [← exact] at small
  exact ⟨⟨rank, lt_of_units_lt small⟩, exact⟩

theorem ofNat_exact {n : Nat} (fits : n ≤ twoTo 53) :
    ∃ rank : Fin finiteRanks, ofNat n = .finite false rank ∧ units rank = n * unitsPerOne := by
  have less : n < twoTo 1024 := Nat.lt_of_le_of_lt fits (twoTo_lt (by decide))
  obtain ⟨rank, exact⟩ := exists_finite n 1074 fits (lt_units_finiteRanks less)
  exact ⟨rank, ofUnits_exact false rank Nat.one_pos (by rw [Nat.mul_one, exact]; rfl), exact⟩

theorem ofDecimal_power {exponent : Nat} (near : exponent ≤ 400) :
    ofDecimal false 1 exponent = ofUnits false (tenTo exponent * unitsPerOne) 1 := by
  have inside : ¬(400 < (exponent : Int)) := by omega
  have above : ¬((exponent : Int) < -(400 + (Nat.log2 1 : Int))) := by omega
  unfold ofDecimal
  rw [if_neg Nat.one_ne_zero, if_neg inside, if_neg above, if_pos (Int.natCast_nonneg _), Nat.one_mul]
  rfl

-- A power of ten has the odd part 5^exponent.
theorem ofDecimal_power_exact {exponent : Nat} (near : exponent ≤ 22) :
    ∃ rank : Fin finiteRanks, ofDecimal false 1 exponent = .finite false rank ∧
      units rank = tenTo exponent * unitsPerOne := by
  have odd : 5 ^ exponent ≤ twoTo 53 :=
    Nat.le_trans (Nat.pow_le_pow_right (by decide) near) (by decide)
  have split : tenTo exponent * unitsPerOne = 5 ^ exponent * twoTo (exponent + 1074) := by
    have factors : tenTo exponent = 5 ^ exponent * twoTo exponent := Nat.mul_pow 5 2 exponent
    rw [factors, twoTo_add, Nat.mul_assoc]
    rfl
  have small : tenTo 22 < twoTo 80 := by decide
  have less : tenTo exponent < twoTo 1024 :=
    Nat.lt_of_le_of_lt (tenTo_le near) (Nat.lt_trans small (twoTo_lt (by decide)))
  have within := lt_units_finiteRanks less
  rw [split] at within
  obtain ⟨rank, exact⟩ := exists_finite (5 ^ exponent) (exponent + 1074) odd within
  refine ⟨rank, ?_, exact.trans split.symm⟩
  rw [ofDecimal_power (Nat.le_trans near (by decide))]
  exact ofUnits_exact false rank Nat.one_pos (by rw [Nat.mul_one, exact, split])

theorem ofUnits_le (negative : Bool) (bound : Fin finiteRanks) (positive : 0 < den)
    (less : num ≤ units bound * den) :
    ∃ rank : Fin finiteRanks, ofUnits negative num den = .finite negative rank ∧ rank ≤ bound ∧
      Nearest num den rank := by
  have below : nearestRank num den ≤ bound := by
    rw [← nearestRank_units bound]
    exact nearestRank_le positive Nat.one_pos (by rw [Nat.mul_one]; exact less)
  have inside := Nat.lt_of_le_of_lt below bound.isLt
  exact ⟨⟨_, inside⟩, ofRank_finite negative inside, below, nearest_nearestRank num den positive⟩

-- What lies below the midpoint past the last magnitude is finite.
theorem ofUnits_finite (negative : Bool) (positive : 0 < den)
    (less : 2 * num < (units (finiteRanks - 1) + units finiteRanks) * den) :
    ∃ rank : Fin finiteRanks, ofUnits negative num den = .finite negative rank ∧ Nearest num den rank := by
  have nearest := nearest_nearestRank num den positive
  have inside : nearestRank num den < finiteRanks := by
    by_contra past
    have beyond := Nat.le_of_not_lt past
    have gap := Nat.add_le_add (units_le (Nat.sub_le_sub_right beyond 1)) (units_le beyond)
    have lower := Nat.le_trans (Nat.mul_le_mul_right den gap) nearest.lower
    exact Nat.not_lt_of_le lower less
  exact ⟨⟨_, inside⟩, ofRank_finite negative inside, nearest⟩

-- The last ranks are evenly spaced.
theorem units_top (places : Nat) (near : places ≤ twoTo 52) :
    units (finiteRanks - places) = (twoTo 53 - places) * twoTo 2045 := by
  have double : twoTo 53 = 2 * twoTo 52 := twoTo_succ 52
  have split : finiteRanks - places = 2045 * twoTo 52 + (twoTo 53 - places) := by
    unfold finiteRanks
    omega
  rw [split, units_block 2045 _ (Nat.sub_le ..) (.inr (by omega))]

theorem last_midpoint : units (finiteRanks - 1) + units finiteRanks = (twoTo 54 - 1) * twoTo 2045 := by
  have last := units_top 1 (by decide)
  have first := units_top 0 (Nat.zero_le _)
  have sum : twoTo 53 - 1 + (twoTo 53 - 0) = twoTo 54 - 1 := by decide
  rw [Nat.sub_zero finiteRanks] at first
  rw [last, first, ← Nat.add_mul, sum]

-- Above the subnormal ranks, rounding adds at most one part in 2^53.
theorem Nearest.drift (nearest : Nearest num den rank) (normal : twoTo 52 < rank) :
    twoTo 53 * (units rank * den) ≤ (twoTo 53 + 1) * num := by
  obtain ⟨prior, rfl⟩ : ∃ prior, rank = prior + 1 := Nat.exists_eq_add_one.mpr (by omega)
  have wide : twoTo 52 * twoTo (scale prior) ≤ units prior := by
    unfold units significand
    rw [if_neg (by omega)]
    exact Nat.mul_le_mul_right _ (Nat.le_add_right ..)
  have lower := nearest.lower
  have double : twoTo 53 = 2 * twoTo 52 := twoTo_succ 52
  rw [Nat.add_sub_cancel, units_succ] at lower
  rw [units_succ, double]
  have spacing := Nat.mul_le_mul_right den wide
  have scaled := Nat.mul_le_mul_left (twoTo 52) lower
  have nonneg := Nat.zero_le (twoTo (scale prior) * den)
  linarith

theorem ofNat_finite {n : Nat} (less : n < twoTo 1023) :
    ∃ x : Fin finiteRanks, ofNat n = .finite false x ∧ Nearest (n * unitsPerOne) 1 x := by
  have double : 2 * n < twoTo 1024 := by
    rw [show twoTo 1024 = 2 * twoTo 1023 from twoTo_succ 1023]
    exact Nat.mul_lt_mul_of_pos_left less (by decide)
  have small : 2 * (n * unitsPerOne) < (units (finiteRanks - 1) + units finiteRanks) * 1 := by
    rw [Nat.mul_one, ← Nat.mul_assoc]
    exact Nat.lt_of_lt_of_le (lt_units_finiteRanks double) (Nat.le_add_left ..)
  exact ofUnits_finite false Nat.one_pos small

theorem normal_of_one_le (atLeast : unitsPerOne ≤ units rank) : twoTo 52 < rank := by
  refine lt_of_units_lt (Nat.lt_of_lt_of_le ?_ atLeast)
  have first := units_block 0 (twoTo 52) (twoTo_le (by decide)) (.inl rfl)
  rw [Nat.zero_mul, Nat.zero_add] at first
  rw [first, ← twoTo_add]
  exact twoTo_lt (by decide)

theorem Nearest.one_le (nearest : Nearest num den rank) (positive : 0 < den)
    (atLeast : unitsPerOne * den ≤ num) : unitsPerOne ≤ units rank := by
  obtain ⟨one, exact⟩ : ∃ one, units one = unitsPerOne := by
    simpa [unitsPerOne] using exists_units 1 1074 (by decide)
  have less : one ≤ rank := by
    refine nearest_le Nat.one_pos positive ?_ (nearest_self one Nat.one_pos) nearest
    rw [exact, Nat.mul_one, Nat.mul_one]
    exact atLeast
  rw [← exact]
  exact units_le less

end DiskGauge.Double
