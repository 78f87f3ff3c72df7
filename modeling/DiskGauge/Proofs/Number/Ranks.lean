import DiskGauge.Number.Double
import Mathlib.Tactic.Linarith
import Mathlib.Tactic.Ring

namespace DiskGauge.Double

-- The first place past a block is worth as much as the first place of the next one.
theorem units_block (block place : Nat) (fits : place ≤ twoTo 53)
    (normal : block = 0 ∨ twoTo 52 ≤ place) : units (block * twoTo 52 + place) = place * twoTo block := by
  have size : twoTo 52 = 4503599627370496 := rfl
  have double : twoTo 53 = 9007199254740992 := rfl
  rw [double] at fits
  rw [size] at normal
  unfold units significand scale
  rw [size]
  by_cases subnormal : block * 4503599627370496 + place < 4503599627370496
  · have first : block = 0 := by omega
    subst first
    simp only [Nat.zero_mul, Nat.zero_add] at subnormal ⊢
    rw [if_pos subnormal, if_pos subnormal]
  · rw [if_neg subnormal, if_neg subnormal]
    by_cases carried : place = 9007199254740992
    · have rest : (block * 4503599627370496 + place) % 4503599627370496 = 0 := by omega
      have next : (block * 4503599627370496 + place) / 4503599627370496 - 1 = block + 1 := by omega
      rw [rest, next, carried, twoTo_succ]
      ring
    · have rest : 4503599627370496 + (block * 4503599627370496 + place) % 4503599627370496 = place := by
        omega
      have same : (block * 4503599627370496 + place) / 4503599627370496 - 1 = block := by omega
      rw [rest, same]

theorem units_block_succ (block place : Nat) (fits : place ≤ twoTo 53)
    (normal : block = 0 ∨ twoTo 52 ≤ place) :
    (place + 1) * twoTo block ≤ units (block * twoTo 52 + place + 1) := by
  rcases Nat.lt_or_eq_of_le fits with inside | past
  · have next : block = 0 ∨ twoTo 52 ≤ place + 1 := normal.imp_right Nat.le_succ_of_le
    rw [Nat.add_assoc, units_block block (place + 1) inside next]
  · have first : block * twoTo 52 + place + 1 = (block + 1) * twoTo 52 + (twoTo 52 + 1) := by
      rw [past, twoTo_succ 52]
      ring
    have value := units_block (block + 1) (twoTo 52 + 1) (by decide) (.inr (Nat.le_add_right _ 1))
    have double : twoTo 53 = 2 * twoTo 52 := twoTo_succ 52
    rw [first, value, past, double, twoTo_succ block]
    linarith [twoTo_pos block]

theorem units_block_pred (block place : Nat) (fits : place ≤ twoTo 53)
    (inside : twoTo 52 < place ∨ block = 0 ∧ 0 < place) :
    units (block * twoTo 52 + place - 1) = (place - 1) * twoTo block := by
  have positive : 0 < place := by
    rcases inside with above | first
    · exact Nat.zero_lt_of_lt above
    · exact first.2
  have normal : block = 0 ∨ twoTo 52 ≤ place - 1 := by
    rcases inside with above | first
    · exact .inr (Nat.le_sub_one_of_lt above)
    · exact .inl first.1
  rw [Nat.add_sub_assoc positive, units_block block (place - 1) (by omega) normal]

theorem rank_block (rank : Nat) : ∃ block place, rank = block * twoTo 52 + place ∧
    place < twoTo 53 ∧ (block = 0 ∨ twoTo 52 ≤ place) ∧ scale rank = block := by
  have size : twoTo 52 = 4503599627370496 := rfl
  have double : twoTo 53 = 9007199254740992 := rfl
  unfold scale
  rw [size, double]
  by_cases subnormal : rank < 4503599627370496
  · exact ⟨0, rank, by omega, by omega, by omega, by rw [if_pos subnormal]⟩
  · refine ⟨rank / 4503599627370496 - 1, 4503599627370496 + rank % 4503599627370496, ?_, ?_, ?_, ?_⟩
    · omega
    · omega
    · omega
    · rw [if_neg subnormal]

theorem units_succ (rank : Nat) : units (rank + 1) = units rank + twoTo (scale rank) := by
  obtain ⟨block, place, rfl, fits, normal, spacing⟩ := rank_block rank
  have next : block = 0 ∨ twoTo 52 ≤ place + 1 := normal.imp_right Nat.le_succ_of_le
  rw [spacing, units_block block place (Nat.le_of_lt fits) normal, Nat.add_assoc,
    units_block block (place + 1) fits next, Nat.add_mul, Nat.one_mul]

-- A magnitude is at most 2^53 times the spacing below it.
theorem units_succ_le (rank : Nat) : units (rank + 1) ≤ twoTo 53 * twoTo (scale rank) := by
  obtain ⟨block, place, rfl, fits, normal, spacing⟩ := rank_block rank
  have next : block = 0 ∨ twoTo 52 ≤ place + 1 := normal.imp_right Nat.le_succ_of_le
  rw [spacing, Nat.add_assoc, units_block block (place + 1) fits next]
  exact Nat.mul_le_mul_right _ fits

theorem units_lt_succ (rank : Nat) : units rank < units (rank + 1) := by
  rw [units_succ]
  exact Nat.lt_add_of_pos_right (twoTo_pos _)

theorem units_lt {a b : Nat} (less : a < b) : units a < units b := by
  induction less with
  | refl => exact units_lt_succ a
  | step _ ih => exact Nat.lt_trans ih (units_lt_succ _)

theorem units_le {a b : Nat} (less : a ≤ b) : units a ≤ units b := by
  rcases Nat.eq_or_lt_of_le less with rfl | below
  · exact Nat.le_refl _
  · exact Nat.le_of_lt (units_lt below)

theorem lt_of_units_lt {a b : Nat} (less : units a < units b) : a < b :=
  Nat.lt_of_not_le fun above => Nat.not_lt_of_le (units_le above) less

@[simp] theorem units_zero : units 0 = 0 := rfl

theorem units_pos {rank : Nat} (positive : 0 < rank) : 0 < units rank := units_lt positive

-- Fifty-three binary digits fit exactly, wherever they stand.
theorem exists_units (significand exponent : Nat) (fits : significand ≤ twoTo 53) :
    ∃ rank, units rank = significand * twoTo exponent := by
  induction exponent generalizing significand with
  | zero => exact ⟨significand, by simpa using units_block 0 significand fits (.inl rfl)⟩
  | succ exponent ih =>
    by_cases small : significand < twoTo 52
    · have room : 2 * significand ≤ twoTo 53 := by
        rw [twoTo_succ 52]
        omega
      obtain ⟨rank, exact⟩ := ih (2 * significand) room
      refine ⟨rank, exact.trans ?_⟩
      rw [twoTo_succ]
      ring
    · exact ⟨_, units_block (exponent + 1) significand fits (.inr (Nat.le_of_not_lt small))⟩

end DiskGauge.Double
