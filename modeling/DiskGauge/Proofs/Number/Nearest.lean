import DiskGauge.Proofs.Number.Ranks
import Mathlib.Tactic.Linarith
import Mathlib.Tactic.Ring

namespace DiskGauge.Double

-- All quantities are doubled and multiplied by the denominator, so that they are whole.
def Nearest (num den rank : Nat) : Prop :=
  let lower := (units (rank - 1) + units rank) * den
  let upper := (units rank + units (rank + 1)) * den
  if rank % 2 = 0 then lower ≤ 2 * num ∧ 2 * num ≤ upper else lower < 2 * num ∧ 2 * num < upper

variable {num den rank other : Nat}

theorem Nearest.lower (nearest : Nearest num den rank) :
    (units (rank - 1) + units rank) * den ≤ 2 * num := by
  unfold Nearest at nearest
  dsimp only at nearest
  split at nearest
  · exact nearest.1
  · exact Nat.le_of_lt nearest.1

theorem Nearest.upper (nearest : Nearest num den rank) :
    2 * num ≤ (units rank + units (rank + 1)) * den := by
  unfold Nearest at nearest
  dsimp only at nearest
  split at nearest
  · exact nearest.2
  · exact Nat.le_of_lt nearest.2

theorem Nearest.even_of_upper (nearest : Nearest num den rank)
    (tie : (units rank + units (rank + 1)) * den ≤ 2 * num) : rank % 2 = 0 := by
  by_contra odd
  simp only [Nearest, if_neg odd] at nearest
  exact Nat.not_lt_of_le tie nearest.2

theorem Nearest.even_of_lower (nearest : Nearest num den rank)
    (tie : 2 * num ≤ (units (rank - 1) + units rank) * den) : rank % 2 = 0 := by
  by_contra odd
  simp only [Nearest, if_neg odd] at nearest
  exact Nat.not_lt_of_le tie nearest.1

-- Ties go to even results, so the bounds of an odd one are strict.
theorem roundQuotient_lt_of_odd (num den : Nat) (positive : 0 < den)
    (odd : roundQuotient num den % 2 = 1) :
    2 * num < (2 * roundQuotient num den + 1) * den ∧ 2 * (roundQuotient num den) * den < 2 * num + den := by
  obtain ⟨above, below⟩ := roundQuotient_near num den positive
  have split := Nat.div_add_mod num den
  have small := Nat.mod_lt num positive
  have apart : 2 * (num % den) ≠ den := by
    intro tie
    rw [roundQuotient_tie num den tie] at odd
    cases odd
  rw [Nat.mul_comm] at split
  revert above below odd
  unfold roundQuotient
  dsimp only
  split
  · intros
    constructor <;> grind
  · split
    · intros
      constructor <;> grind
    · omega

theorem roundQuotient_bounds (num den : Nat) :
    num / den ≤ roundQuotient num den ∧ roundQuotient num den ≤ num / den + 1 := by
  unfold roundQuotient
  dsimp only
  split
  · omega
  · split <;> omega

-- The block of the quotient is chosen so that its place is one of the block, or the first past it.
theorem place_bounds (num den : Nat) :
    let block := (num / den).log2 - 52
    let place := roundQuotient num (den * twoTo block)
    place ≤ twoTo 53 ∧ (block = 0 ∨ twoTo 52 ≤ num / (den * twoTo block)) := by
  intro block place
  obtain ⟨_, above⟩ := roundQuotient_bounds num (den * twoTo block)
  have below : num / den < twoTo 53 * twoTo block := by
    rw [← twoTo_add]
    exact Nat.lt_of_lt_of_le Nat.lt_log2_self (twoTo_le (by omega))
  rw [← Nat.div_div_eq_div_mul] at above ⊢
  have room : num / den / twoTo block < twoTo 53 := (Nat.div_lt_iff_lt_mul (twoTo_pos block)).mpr below
  refine ⟨by omega, ?_⟩
  by_cases first : block = 0
  · exact .inl first
  · have nonzero : num / den ≠ 0 := by
      intro zero
      exact first (by simp [block, zero])
    have least : twoTo 52 * twoTo block ≤ num / den := by
      rw [← twoTo_add]
      exact Nat.le_trans (twoTo_le (by omega)) (Nat.log2_self_le nonzero)
    exact .inr ((Nat.le_div_iff_mul_le (twoTo_pos block)).mpr least)

-- Rounding to a place of a block is rounding to its rank. Below the first place of a block the spacing
-- is narrower, but no quotient of the block is rounded down to there.
theorem nearest_place (block place : Nat) (fits : place ≤ twoTo 53)
    (normal : block = 0 ∨ twoTo 52 ≤ place)
    (inside : block = 0 ∨ twoTo 52 * (den * twoTo block) ≤ num)
    (above : 2 * num ≤ (2 * place + 1) * (den * twoTo block))
    (below : 2 * place * (den * twoTo block) ≤ 2 * num + den * twoTo block)
    (strict : place % 2 = 1 → 2 * num < (2 * place + 1) * (den * twoTo block) ∧
      2 * place * (den * twoTo block) < 2 * num + den * twoTo block) :
    Nearest num den (block * twoTo 52 + place) := by
  have value := units_block block place fits normal
  have upper : (2 * place + 1) * (den * twoTo block) ≤
      (units (block * twoTo 52 + place) + units (block * twoTo 52 + place + 1)) * den := by
    have step := Nat.mul_le_mul_right den (units_block_succ block place fits normal)
    rw [value]
    linarith
  have lower : (units (block * twoTo 52 + place - 1) + units (block * twoTo 52 + place)) * den ≤ 2 * num ∧
      (place % 2 = 1 →
        (units (block * twoTo 52 + place - 1) + units (block * twoTo 52 + place)) * den < 2 * num) := by
    rw [value]
    by_cases within : twoTo 52 < place ∨ block = 0 ∧ 0 < place
    · rw [units_block_pred block place fits within]
      obtain ⟨less, rfl⟩ : ∃ less, place = less + 1 := Nat.exists_eq_add_one.mpr (by omega)
      rw [Nat.add_sub_cancel]
      constructor
      · linarith
      · intro odd
        linarith [(strict odd).2]
    · by_cases first : block = 0
      · have front : place = 0 := by omega
        subst first front
        simp
      · have start : place = twoTo 52 := by omega
        have full : twoTo 52 * (den * twoTo block) ≤ num := inside.resolve_left first
        have before := Nat.mul_le_mul_right den (units_le (Nat.sub_le (block * twoTo 52 + place) 1))
        rw [value] at before
        subst start
        constructor
        · linarith
        · intro odd
          cases odd
  have parity : (block * twoTo 52 + place) % 2 = place % 2 := by
    have even : block * twoTo 52 + place = place + 2 * (block * twoTo 51) := by
      rw [show twoTo 52 = 2 * twoTo 51 from twoTo_succ 51]
      ring
    rw [even, Nat.add_mul_mod_self_left]
  unfold Nearest
  dsimp only
  split
  · exact ⟨lower.1, Nat.le_trans above upper⟩
  · have odd : place % 2 = 1 := by omega
    exact ⟨lower.2 odd, Nat.lt_of_lt_of_le (strict odd).1 upper⟩

theorem nearest_nearestRank (num den : Nat) (positive : 0 < den) :
    Nearest num den (nearestRank num den) := by
  obtain ⟨fits, filled⟩ := place_bounds num den
  unfold nearestRank
  dsimp only
  generalize (num / den).log2 - 52 = block at fits filled ⊢
  have wide : 0 < den * twoTo block := Nat.mul_pos positive (twoTo_pos block)
  obtain ⟨above, below⟩ := roundQuotient_near num (den * twoTo block) wide
  have least := (roundQuotient_bounds num (den * twoTo block)).1
  exact nearest_place block _ fits (filled.imp_right fun full => Nat.le_trans full least)
    (filled.imp_right (Nat.le_div_iff_mul_le wide).mp) above below
    (roundQuotient_lt_of_odd num (den * twoTo block) wide)

theorem nearest_le {num' den' : Nat} (positive : 0 < den) (positive' : 0 < den')
    (less : num * den' ≤ num' * den) (first : Nearest num den rank) (second : Nearest num' den' other) :
    rank ≤ other := by
  by_contra more
  have gap : units other + units (other + 1) ≤ units (rank - 1) + units rank :=
    Nat.add_le_add (units_le (by omega)) (units_le (by omega))
  have low := Nat.mul_le_mul_right den' first.lower
  have high := Nat.mul_le_mul_right den second.upper
  have apart := Nat.mul_le_mul_right (den * den') gap
  -- Both roundings would have to meet at one midpoint, and both ranks beside it to be even.
  have meet : (units other + units (other + 1)) * den' ≤ 2 * num' := by
    refine Nat.le_of_mul_le_mul_right (c := den) ?_ positive
    linarith
  have touch : 2 * num ≤ (units (rank - 1) + units rank) * den := by
    refine Nat.le_of_mul_le_mul_right (c := den') ?_ positive'
    linarith
  have same : (units other + units (other + 1)) * (den * den') =
      (units (rank - 1) + units rank) * (den * den') := by
    refine Nat.le_antisymm apart ?_
    linarith
  have neighbours : rank = other + 1 := by
    by_contra further
    have strict := units_lt (show other < rank - 1 by omega)
    have beyond := units_le (show other + 1 ≤ rank by omega)
    have equal := Nat.eq_of_mul_eq_mul_right (Nat.mul_pos positive positive') same
    omega
  have even := second.even_of_upper meet
  have evenNext := first.even_of_lower touch
  omega

theorem nearestRank_le {num' den' : Nat} (positive : 0 < den) (positive' : 0 < den')
    (less : num * den' ≤ num' * den) : nearestRank num den ≤ nearestRank num' den' :=
  nearest_le positive positive' less (nearest_nearestRank num den positive)
    (nearest_nearestRank num' den' positive')

theorem nearestRank_eq_iff (positive : 0 < den) : nearestRank num den = rank ↔ Nearest num den rank := by
  constructor
  · intro equal
    exact equal ▸ nearest_nearestRank num den positive
  · intro nearest
    have own := nearest_nearestRank num den positive
    exact Nat.le_antisymm (nearest_le positive positive (Nat.le_refl _) own nearest)
      (nearest_le positive positive (Nat.le_refl _) nearest own)

-- Only the value of a quotient matters.
theorem nearestRank_congr {num' den' : Nat} (positive : 0 < den) (positive' : 0 < den')
    (same : num * den' = num' * den) : nearestRank num den = nearestRank num' den' :=
  Nat.le_antisymm (nearestRank_le positive positive' same.le)
    (nearestRank_le positive' positive same.ge)

theorem nearest_self (rank : Nat) (positive : 0 < den) : Nearest (units rank * den) den rank := by
  have before := Nat.mul_le_mul_right den (units_le (Nat.sub_le rank 1))
  have after := Nat.mul_lt_mul_of_pos_right (units_lt_succ rank) positive
  unfold Nearest
  dsimp only
  split
  · constructor <;> linarith
  · next odd =>
    have strict := Nat.mul_lt_mul_of_pos_right (units_lt (show rank - 1 < rank by omega)) positive
    constructor <;> linarith

@[simp] theorem nearestRank_units (rank : Nat) : nearestRank (units rank) 1 = rank := by
  have nearest := nearest_self rank Nat.one_pos
  rw [Nat.mul_one] at nearest
  exact (nearestRank_eq_iff Nat.one_pos).mpr nearest

-- What lies between a magnitude and something that rounds to it rounds to it too.
theorem Nearest.between {num' den' : Nat} (positive : 0 < den) (positive' : 0 < den')
    (nearest : Nearest num den rank)
    (inside : (num * den' ≤ num' * den ∧ num' ≤ units rank * den') ∨
      (num' * den ≤ num * den' ∧ units rank * den' ≤ num')) :
    Nearest num' den' rank := by
  have own := nearest_nearestRank num' den' positive'
  have self := nearest_self rank Nat.one_pos
  have equal : nearestRank num' den' = rank := by
    rcases inside with ⟨above, below⟩ | ⟨below, above⟩
    · exact Nat.le_antisymm (nearest_le positive' Nat.one_pos (by linarith) own self)
        (nearest_le positive positive' above nearest own)
    · exact Nat.le_antisymm (nearest_le positive' positive below own nearest)
        (nearest_le Nat.one_pos positive' (by linarith) self own)
  exact equal ▸ own

end DiskGauge.Double
