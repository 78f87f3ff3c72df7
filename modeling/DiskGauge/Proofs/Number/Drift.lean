import DiskGauge.Proofs.Number.Order

namespace DiskGauge.Double

def Within (roundings x y : Nat) : Prop :=
  twoTo 53 ^ roundings * x ≤ (twoTo 53 + 1) ^ roundings * y ∧
    twoTo 53 ^ roundings * y ≤ (twoTo 53 + 1) ^ roundings * x

namespace Within

variable {m n x y z : Nat}

theorem chain {p q : Nat} (first : p ^ m * x ≤ q ^ m * y) (second : p ^ n * y ≤ q ^ n * z) :
    p ^ (m + n) * x ≤ q ^ (m + n) * z :=
  calc p ^ (m + n) * x = p ^ n * (p ^ m * x) := by ring
    _ ≤ p ^ n * (q ^ m * y) := Nat.mul_le_mul_left _ first
    _ = q ^ m * (p ^ n * y) := by ring
    _ ≤ q ^ m * (q ^ n * z) := Nat.mul_le_mul_left _ second
    _ = q ^ (m + n) * z := by ring

theorem trans (first : Within m x y) (second : Within n y z) : Within (m + n) x z := by
  refine ⟨chain first.1 second.1, ?_⟩
  rw [Nat.add_comm]
  exact chain second.2 first.2

theorem symm (within : Within n x y) : Within n y x := ⟨within.2, within.1⟩

theorem scale (within : Within n x y) (factor : Nat) : Within n (x * factor) (y * factor) := by
  unfold Within
  simp only [← Nat.mul_assoc]
  exact ⟨Nat.mul_le_mul_right _ within.1, Nat.mul_le_mul_right _ within.2⟩

theorem cancel {factor : Nat} (positive : 0 < factor) (within : Within n (x * factor) (y * factor)) : Within n x y := by
  unfold Within at within
  simp only [← Nat.mul_assoc] at within
  exact ⟨Nat.le_of_mul_le_mul_right within.1 positive, Nat.le_of_mul_le_mul_right within.2 positive⟩

-- Six roundings make less than one part in 2^50.
theorem close (within : Within n x y) (few : n ≤ 6) :
    2 ^ 50 * x ≤ (2 ^ 50 + 1) * y ∧ 2 ^ 50 * y ≤ (2 ^ 50 + 1) * x := by
  have bound : ∀ n ≤ 6, 2 ^ 50 * (twoTo 53 + 1) ^ n ≤ (2 ^ 50 + 1) * twoTo 53 ^ n := by decide
  have cancel {x y : Nat} (less : twoTo 53 ^ n * x ≤ (twoTo 53 + 1) ^ n * y) : 2 ^ 50 * x ≤ (2 ^ 50 + 1) * y := by
    apply Nat.le_of_mul_le_mul_left _ (Nat.pow_pos (n := n) (twoTo_pos 53))
    calc twoTo 53 ^ n * (2 ^ 50 * x) = 2 ^ 50 * (twoTo 53 ^ n * x) := by ring
      _ ≤ 2 ^ 50 * ((twoTo 53 + 1) ^ n * y) := Nat.mul_le_mul_left _ less
      _ = 2 ^ 50 * (twoTo 53 + 1) ^ n * y := by ring
      _ ≤ (2 ^ 50 + 1) * twoTo 53 ^ n * y := Nat.mul_le_mul_right _ (bound n few)
      _ = twoTo 53 ^ n * ((2 ^ 50 + 1) * y) := by ring
  exact ⟨cancel within.1, cancel within.2⟩

end Within

variable {a b num den rank : Nat}

theorem nearest_within (nearest : Nearest num den rank) (normal : twoTo 52 < rank) :
    Within 1 (units rank * den) num := by
  unfold Within
  rw [Nat.pow_one, Nat.pow_one]
  exact ⟨nearest.drift normal, nearest.drop (Nat.le_of_lt normal)⟩

-- A quotient that is large enough is rounded above the subnormal ranks.
theorem Nearest.normal (nearest : Nearest num den rank) (positive : 0 < den) (large : twoTo 53 * den ≤ num) :
    twoTo 52 < rank := by
  obtain ⟨least, exact⟩ := exists_units 1 53 (by decide)
  rw [Nat.one_mul] at exact
  have above : least ≤ rank := by
    refine nearest_le Nat.one_pos positive ?_ (nearest_self least Nat.one_pos) nearest
    rw [exact, Nat.mul_one, Nat.mul_one]
    exact large
  have more := units_le above
  rw [exact] at more
  exact normal_of_lt (Nat.lt_of_lt_of_le (twoTo_lt (by decide)) more)

theorem nearestRank_within (positive : 0 < den) (normal : twoTo 52 < nearestRank num den) :
    Within 1 (units (nearestRank num den) * den) num := nearest_within (nearest_nearestRank num den positive) normal

def whole (n : Nat) : Nat := nearestRank (n * unitsPerOne) 1

theorem nearest_whole (n : Nat) : Nearest (n * unitsPerOne) 1 (whole n) := nearest_nearestRank _ _ Nat.one_pos

theorem whole_mono (less : a ≤ b) : whole a ≤ whole b :=
  nearestRank_le Nat.one_pos Nat.one_pos (Nat.mul_le_mul_right _ (Nat.mul_le_mul_right _ less))

theorem whole_inside (fits : b < twoTo 64) : whole b < finiteRanks := by
  obtain ⟨rank, _, nearest⟩ := ofNat_finite (Nat.lt_trans fits (twoTo_lt (by decide)))
  have same : whole b = rank := (nearestRank_eq_iff Nat.one_pos).mpr nearest
  exact same ▸ rank.isLt

-- A whole number above zero is not rounded to less than one.
theorem one_le_whole (positive : 0 < b) : unitsPerOne ≤ units (whole b) :=
  (nearest_whole b).one_le Nat.one_pos (by rw [Nat.mul_one]; exact Nat.le_mul_of_pos_left _ positive)

theorem whole_pos (positive : 0 < b) : 0 < units (whole b) := Nat.lt_of_lt_of_le unitsPerOne_pos (one_le_whole positive)

theorem whole_within (positive : 0 < b) : Within 1 (units (whole b)) (b * unitsPerOne) := by
  have within := nearestRank_within Nat.one_pos (normal_of_one_le (one_le_whole positive))
  rw [Nat.mul_one] at within
  exact within

theorem units_whole (fits : b ≤ twoTo 53) : units (whole b) = b * unitsPerOne := by
  obtain ⟨rank, _, exact⟩ := ofNat_exact fits
  unfold whole
  rw [← exact, nearestRank_units]

end DiskGauge.Double
