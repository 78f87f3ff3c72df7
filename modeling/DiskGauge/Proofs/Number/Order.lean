import DiskGauge.Proofs.Number.Exact

namespace DiskGauge

theorem roundQuotientUp_mono {a b : Nat} (less : a ≤ b) (den : Nat) : roundQuotientUp a den ≤ roundQuotientUp b den :=
  Nat.div_le_div_right (Nat.add_le_add_right (Nat.mul_le_mul_left 2 less) den)

theorem roundQuotientUp_near (num : Nat) {den : Nat} (positive : 0 < den) :
    2 * num ≤ (2 * roundQuotientUp num den + 1) * den ∧ 2 * roundQuotientUp num den * den ≤ 2 * num + den := by
  have low := Nat.div_mul_le_self (2 * num + den) (2 * den)
  have high := Nat.lt_div_mul_add (a := 2 * num + den) (b := 2 * den) (by omega)
  change roundQuotientUp num den * (2 * den) ≤ _ at low
  change _ < roundQuotientUp num den * (2 * den) + _ at high
  constructor <;> linarith

-- Results that are out of order would have to come from one quotient.
theorem roundQuotient_mono {a b den : Nat} (positive : 0 < den) (less : a ≤ b) :
    roundQuotient a den ≤ roundQuotient b den := by
  by_contra more
  have apart := Nat.mul_le_mul_right den (Nat.lt_of_not_le more)
  have low := (roundQuotient_near a den positive).2
  have high := (roundQuotient_near b den positive).1
  have same : a = b := by
    simp only [Nat.succ_mul, Nat.add_mul, Nat.mul_assoc] at apart low high
    omega
  exact more (same ▸ Nat.le_refl _)

namespace Double

variable {x y : Double} {a b num den num' den' : Nat}

theorem normal_of_lt {rank : Nat} (above : twoTo 52 < units rank) : twoTo 52 < rank := by
  have first := units_block 0 (twoTo 52) (twoTo_le (by decide)) (.inl rfl)
  rw [Nat.zero_mul, Nat.zero_add, show twoTo 0 = 1 from rfl, Nat.mul_one] at first
  exact lt_of_units_lt (first ▸ above)

-- Above the subnormal ranks, rounding takes away at most one part in 2^53 of the result.
theorem Nearest.drop {rank : Nat} (nearest : Nearest num den rank) (normal : twoTo 52 ≤ rank) :
    twoTo 53 * num ≤ (twoTo 53 + 1) * (units rank * den) := by
  have wide : twoTo 52 * twoTo (scale rank) ≤ units rank := by
    unfold units significand
    rw [if_neg (Nat.not_lt_of_le normal)]
    exact Nat.mul_le_mul_right _ (Nat.le_add_right ..)
  have upper := Nat.mul_le_mul_left (twoTo 52) nearest.upper
  have spacing := Nat.mul_le_mul_right den wide
  have double : twoTo 53 = 2 * twoTo 52 := twoTo_succ 52
  rw [units_succ] at upper
  rw [double]
  linarith

theorem ofRank_le_infinite (rank : Nat) : le (ofRank false rank) (.infinite false) = true := by
  unfold ofRank
  split <;> rfl

theorem ofRank_mono (less : a ≤ b) : le (ofRank false a) (ofRank false b) = true := by
  by_cases inside : b < finiteRanks
  · rw [ofRank_finite false inside, ofRank_finite false (Nat.lt_of_le_of_lt less inside), le_finite]
    exact units_le less
  · rw [show ofRank false b = .infinite false from dif_neg inside]
    exact ofRank_le_infinite a

theorem ofUnits_mono (positive : 0 < den) (positive' : 0 < den') (less : num * den' ≤ num' * den) :
    le (ofUnits false num den) (ofUnits false num' den') = true :=
  ofRank_mono (nearestRank_le positive positive' less)

theorem round_ofRank_mono (less : a ≤ b) : le (ofRank false a).round (ofRank false b).round = true := by
  by_cases inside : b < finiteRanks
  · rw [ofRank_finite false inside, ofRank_finite false (Nat.lt_of_le_of_lt less inside)]
    apply ofUnits_mono Nat.one_pos Nat.one_pos
    apply Nat.mul_le_mul_right
    exact Nat.mul_le_mul_right _ (roundQuotientUp_mono (units_le less) unitsPerOne)
  · rw [show ofRank false b = .infinite false from dif_neg inside]
    unfold ofRank
    split
    · exact ofRank_le_infinite _
    · rfl

theorem toNatClamped_le (limit : Nat) (x : Double) : x.toNatClamped limit ≤ limit := by
  unfold toNatClamped
  split <;> simp

theorem toNatClamped_mono (limit : Nat) (less : le x y = true) : x.toNatClamped limit ≤ y.toNatClamped limit := by
  cases x with
  | nan => exact Nat.zero_le _
  | infinite negative =>
    cases negative with
    | true => exact Nat.zero_le _
    | false =>
      cases y with
      | infinite negative => cases negative <;> simp_all [le, toNatClamped]
      | _ => cases less
  | finite negative rank =>
    cases negative with
    | true => exact Nat.zero_le _
    | false =>
      cases y with
      | nan => cases less
      | infinite negative =>
        cases negative with
        | true => cases less
        | false => exact toNatClamped_le limit _
      | finite negative other =>
        have ordered : (units rank : Int) ≤ signedUnits negative other := of_decide_eq_true less
        cases negative with
        | false =>
          have more : units rank ≤ units other := Int.ofNat_le.mp ordered
          have whole := Nat.div_le_div_right (c := unitsPerOne) more
          change min limit _ ≤ min limit _
          omega
        | true =>
          have zero : units rank = 0 := by
            change (units rank : Int) ≤ -(units other : Int) at ordered
            omega
          simp [toNatClamped, zero]

theorem lt_zero_finite (rank : Fin finiteRanks) : lt .zero (.finite false rank) = true ↔ 0 < rank.val := by
  have zero : le .zero (.finite false rank) = true := (le_finite ⟨0, by decide⟩ rank).mpr (Nat.zero_le _)
  have nothing : le (.finite false rank) .zero = true ↔ units rank ≤ 0 := le_finite rank ⟨0, by decide⟩
  unfold lt
  rw [zero, Bool.true_and, Bool.not_eq_true', ← Bool.not_eq_true, nothing, Nat.not_le]
  exact ⟨fun above => lt_of_units_lt above, units_pos⟩

-- What is finite and above zero is a magnitude.
theorem positive_cases (positive : (x.isFinite && lt .zero x) = true) :
    ∃ rank : Fin finiteRanks, x = .finite false rank ∧ 0 < rank.val := by
  cases x with
  | nan => cases positive
  | infinite negative => cases positive
  | finite negative rank =>
    cases negative with
    | false => exact ⟨rank, rfl, (lt_zero_finite rank).mp positive⟩
    | true =>
      have below : le (.finite true rank) .zero = true :=
        decide_eq_true (Int.neg_nonpos_of_nonneg (Int.natCast_nonneg _))
      simp [lt, below] at positive

end Double

end DiskGauge
