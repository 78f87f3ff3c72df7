import DiskGauge.Proofs.Number.Drift
import Mathlib.Algebra.Order.Field.Rat
import Mathlib.Algebra.Order.Field.Basic
import Mathlib.Tactic.FieldSimp

namespace DiskGauge

namespace Double

variable {x y : Double} {num den : Nat} {q : ℚ}

def value : Double → ℚ
  | .finite negative rank => signedUnits negative rank / unitsPerOne
  | _ => 0

theorem unitsPerOne_rat : (0 : ℚ) < unitsPerOne := Nat.cast_pos.mpr unitsPerOne_pos

theorem value_finite (rank : Fin finiteRanks) : value (.finite false rank) = units rank / unitsPerOne := by
  have magnitude : signedUnits false rank = units rank := rfl
  unfold value
  dsimp only
  rw [magnitude, Int.cast_natCast]

@[simp] theorem value_zero : value .zero = 0 := by
  unfold zero signedZero
  rw [value_finite, units_zero, Nat.cast_zero, zero_div]

theorem le_iff_value (finite : x.isFinite = true) (finite' : y.isFinite = true) :
    le x y = true ↔ x.value ≤ y.value := by
  cases x with
  | finite s a =>
    cases y with
    | finite t b =>
      unfold value
      rw [div_le_div_iff_of_pos_right unitsPerOne_rat, Int.cast_le]
      exact decide_eq_true_iff
    | _ => cases finite'
  | _ => cases finite

-- No finite double is nearer to the number.
structure NearestTo (x : Double) (q : ℚ) : Prop where
  finite : x.isFinite = true
  nearest : ∀ y : Double, y.isFinite = true → |x.value - q| ≤ |y.value - q|

-- What stands beyond a midpoint on either side is further away.
theorem abs_le_of_beyond {a b : ℚ} (beyond : a = b ∨ b ≤ a ∧ a + b ≤ 2 * q ∨ a ≤ b ∧ 2 * q ≤ a + b) :
    |a - q| ≤ |b - q| := by
  rcases beyond with same | ⟨below, middle⟩ | ⟨above, middle⟩
  · rw [same]
  · have far : |b - q| = q - b := by
      rw [abs_sub_comm, abs_of_nonneg]
      linarith
    rw [far, abs_le]
    constructor <;> linarith
  · have far : |b - q| = b - q := by
      rw [abs_of_nonneg]
      linarith
    rw [far, abs_le]
    constructor <;> linarith

theorem Nearest.nearestTo {rank : Fin finiteRanks} (positive : 0 < den) (nearest : Nearest num den rank) :
    NearestTo (.finite false rank) (num / (den * unitsPerOne)) := by
  refine ⟨rfl, fun y finite => ?_⟩
  have one := unitsPerOne_rat
  have divisor : (0 : ℚ) < den := Nat.cast_pos.mpr positive
  have lower : ((units (rank - 1) + units rank : ℚ)) * den ≤ 2 * num := by exact_mod_cast nearest.lower
  have upper : (2 * num : ℚ) ≤ (units rank + units (rank + 1)) * den := by exact_mod_cast nearest.upper
  rw [← le_div_iff₀ divisor, mul_div_assoc] at lower
  rw [← div_le_iff₀ divisor, mul_div_assoc] at upper
  have scaled (v : ℚ) : v / unitsPerOne - num / (den * unitsPerOne) = (v - num / den) / unitsPerOne := by
    field_simp
  cases y with
  | nan => cases finite
  | infinite negative => cases finite
  | finite negative other =>
    rw [value_finite, value, scaled, scaled, abs_div, abs_div, div_le_div_iff_of_pos_right (abs_pos.mpr one.ne')]
    apply abs_le_of_beyond
    have self : (units (rank - 1) : ℚ) ≤ units rank := Nat.cast_le.mpr (units_le (Nat.sub_le ..))
    cases negative with
    | true =>
      have under : ((signedUnits true other : Int) : ℚ) ≤ units (rank - 1) := by
        have below : signedUnits true other ≤ units (rank - 1) := by
          unfold signedUnits
          rw [if_pos rfl]
          omega
        exact_mod_cast below
      exact .inr (.inl ⟨by linarith, by linarith⟩)
    | false =>
      have magnitude : ((signedUnits false other : Int) : ℚ) = units other := rfl
      rw [magnitude]
      rcases Nat.lt_trichotomy other rank with less | same | more
      · have below : (units other : ℚ) ≤ units (rank - 1) := Nat.cast_le.mpr (units_le (Nat.le_sub_one_of_lt less))
        exact .inr (.inl ⟨by linarith, by linarith⟩)
      · exact .inl (by rw [same])
      · have above : (units (rank + 1) : ℚ) ≤ units other := Nat.cast_le.mpr (units_le more)
        have next : (units rank : ℚ) ≤ units (rank + 1) := Nat.cast_le.mpr (units_le (Nat.le_succ _))
        exact .inr (.inr ⟨by linarith, by linarith⟩)

-- Numbers that are the same up to a few roundings are close to each other.
theorem Within.near {roundings x y d e : Nat} {bound : ℚ} (within : Within roundings (x * d) (y * e))
    (few : roundings ≤ 6) (somePart : 0 < d) (someUnit : 0 < e) (most : (y / d : ℚ) ≤ bound) :
    |(x / e : ℚ) - y / d| ≤ bound / 2 ^ 50 := by
  obtain ⟨above, below⟩ := within.close few
  have part : (0 : ℚ) < d := Nat.cast_pos.mpr somePart
  have unit : (0 : ℚ) < e := Nat.cast_pos.mpr someUnit
  have aboveRat : (2 ^ 50 * (x * d) : ℚ) ≤ (2 ^ 50 + 1) * (y * e) := by exact_mod_cast above
  have belowRat : (2 ^ 50 * (y * e) : ℚ) ≤ (2 ^ 50 + 1) * (x * d) := by exact_mod_cast below
  have aboveQuotient : 2 ^ 50 * (x / e : ℚ) ≤ (2 ^ 50 + 1) * (y / d) := by
    rw [mul_div_assoc', mul_div_assoc', div_le_div_iff₀ unit part]
    linarith
  have belowQuotient : 2 ^ 50 * (y / d : ℚ) ≤ (2 ^ 50 + 1) * (x / e) := by
    rw [mul_div_assoc', mul_div_assoc', div_le_div_iff₀ part unit]
    linarith
  rw [abs_le]
  constructor <;> linarith

end Double

theorem roundQuotientUp_half (num : Nat) {den : Nat} (positive : 0 < den) :
    |(roundQuotientUp num den : ℚ) - num / den| ≤ 1 / 2 := by
  obtain ⟨up, down⟩ := roundQuotientUp_near num positive
  have divisor : (0 : ℚ) < den := Nat.cast_pos.mpr positive
  have upRat : (2 * num : ℚ) ≤ (2 * roundQuotientUp num den + 1) * den := by exact_mod_cast up
  have downRat : (2 * roundQuotientUp num den * den : ℚ) ≤ 2 * num + den := by exact_mod_cast down
  rw [← div_le_iff₀ divisor, mul_div_assoc] at upRat
  rw [← le_div_iff₀ divisor, add_div, div_self divisor.ne', mul_div_assoc] at downRat
  rw [abs_le]
  constructor <;> linarith

end DiskGauge
