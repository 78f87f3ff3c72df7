import DiskGauge.Proofs.Json.Scaling

namespace DiskGauge.Json
open Double Decimal

variable {rank : Nat}

-- The decimal that a reader takes from the text of a decimal. A whole number without an exponent ends in
-- ".0", and that zero is a digit like any other.
def spelled (d : Decimal) : Decimal :=
  if 0 ≤ d.exponent ∧ Layout.json.isPositional (digitCount d.digits + d.exponent) then
    ⟨d.digits * tenTo (d.exponent.toNat + 1), -1⟩
  else d

def written (rank : Nat) : Decimal := if rank = 0 then ⟨0, -1⟩ else spelled (shortest .even rank)

def rescan (rank : Nat) : Option Double := scaled? 3 (ofNat (written rank).digits) (written rank).exponent

-- The double that is read from the text of a double. What is no number is written as null.
def reread? : Double → Option Double
  | .finite negative rank => (rescan rank).map fun x => if negative then -x else x
  | _ => none

-- Either the shortest digits, or those with the zeros of a whole number below 10^16.
theorem written_cases (positive : 0 < rank) :
    let d := shortest .even rank
    written rank = d ∨ ∃ places : Nat, d.exponent = places ∧ digitCount d.digits + places ≤ 16 ∧
      written rank = ⟨d.digits * tenTo (places + 1), -1⟩ := by
  unfold written spelled
  rw [if_neg (Nat.ne_of_gt positive)]
  dsimp only
  split
  · next whole =>
    obtain ⟨up, place⟩ := whole
    obtain ⟨places, equal⟩ := Int.eq_ofNat_of_zero_le up
    have last : digitCount (shortest .even rank).digits + (shortest .even rank).exponent ≤ 16 := by
      simp only [Layout.isPositional, Layout.json, Bool.and_eq_true, decide_eq_true_eq] at place
      exact place.2
    refine .inr ⟨places, equal, by omega, ?_⟩
    rw [equal, Int.toNat_natCast]
  · exact .inl rfl

theorem written_reads (rank : Nat) : (written rank).ReadsAs rank := by
  rcases Nat.eq_zero_or_pos rank with rfl | positive
  · decide +kernel
  · have reads := (shortest_short .even positive).reads
    rcases written_cases positive with same | ⟨places, exponent, _, shifted⟩
    · rw [same]
      exact reads
    · have shift := (readsAs_shift (shortest .even rank) (places + 1)).mpr reads
      have tenths : (shortest .even rank).exponent - (places + 1 : Nat) = -1 := by omega
      rw [tenths] at shift
      rw [shifted]
      exact shift

theorem written_fits (rank : Nat) : (written rank).digits < twoTo 64 := by
  rcases Nat.eq_zero_or_pos rank with rfl | positive
  · decide
  · rcases written_cases positive with same | ⟨places, _, short, shifted⟩
    · rw [same]
      exact Nat.lt_of_le_of_lt (shortest_short .even positive).digits (by decide)
    · rw [shifted]
      have digits := lt_tenTo_digitCount (shortest .even rank).digits
      have product := Nat.mul_lt_mul_of_pos_right digits (tenTo_pos (places + 1))
      rw [← tenTo_add] at product
      exact Nat.lt_of_lt_of_le product (Nat.le_trans (tenTo_le (by omega)) (show tenTo 17 ≤ twoTo 64 by decide))

def IsMagnitude (read : Option Double) : Prop := ∃ y : Fin finiteRanks, read = some (.finite false y)

instance (read : Option Double) : Decidable (IsMagnitude read) :=
  match read with
  | some (.finite false y) => .isTrue ⟨y, rfl⟩
  | some (.finite true _) => .isFalse fun ⟨_, equal⟩ => by cases equal
  | some (.infinite _) => .isFalse fun ⟨_, equal⟩ => by cases equal
  | some .nan => .isFalse fun ⟨_, equal⟩ => by cases equal
  | none => .isFalse fun ⟨_, equal⟩ => by cases equal

-- The last three magnitudes are too near to the end of the range for the bound on the drift.
theorem rescan_last : ∀ below < 3, IsMagnitude (rescan (finiteRanks - 1 - below)) := by decide +kernel

theorem rescan_up {places : Nat} (positive : 0 < rank) (room : rank + 4 ≤ finiteRanks)
    (same : written rank = shortest .even rank) (up : (shortest .even rank).exponent = places) :
    IsMagnitude (rescan rank) := by
  have reads := (shortest_short .even positive).reads
  have digits := digits_pos reads positive
  have upper := (readsAs_iff.mp reads).upper
  have before : units rank + units (rank + 1) ≤ (twoTo 54 - 7) * twoTo 2045 := by
    have sum : twoTo 53 - 4 + (twoTo 53 - 3) = twoTo 54 - 7 := by decide
    rw [← sum, Nat.add_mul, ← units_top 4 (by decide),
      ← units_top 3 (by decide)]
    exact Nat.add_le_add (units_le (by omega)) (units_le (by omega))
  unfold rescan
  rw [same]
  rw [up] at upper ⊢
  rw [above_natCast, below_natCast, Nat.mul_one, ← Nat.mul_assoc (shortest .even rank).digits] at upper
  exact scaled?_up_finite 3 places digits (Nat.le_trans upper before)

theorem rescan_finite (rank : Fin finiteRanks) : IsMagnitude (rescan rank) := by
  -- Divisions cannot get out of range. Only whole numbers with an exponent are multiplied.
  by_cases down : (written rank).exponent < 0
  · have small : (written rank).digits < twoTo 1023 :=
      Nat.lt_trans (written_fits rank) (twoTo_lt (by decide))
    obtain ⟨x, number, _⟩ := ofNat_finite small
    unfold rescan
    rw [number]
    exact scaled?_down_finite 3 x down
  · have positive : 0 < rank.val := by
      by_contra zero
      have first : rank.val = 0 := by omega
      rw [first] at down
      exact down (by decide)
    rcases written_cases positive with same | ⟨places, _, _, shifted⟩
    · by_cases room : rank.val + 4 ≤ finiteRanks
      · rw [same] at down
        obtain ⟨places, up⟩ := Int.eq_ofNat_of_zero_le (Int.not_lt.mp down)
        exact rescan_up positive room same up
      · have last := rescan_last (finiteRanks - 1 - rank) (by omega)
        rw [show finiteRanks - 1 - (finiteRanks - 1 - rank.val) = rank.val by omega] at last
        exact last
    · rw [shifted] at down
      exact absurd (show (-1 : Int) < 0 by decide) down

-- The sign is kept, also of zero.
theorem reread?_of_rescan (negative : Bool) {rank y : Fin finiteRanks}
    (read : rescan rank = some (.finite false y)) :
    reread? (.finite negative rank) = some (.finite negative y) := by
  simp only [reread?, read, Option.map_some]
  cases negative <;> rfl

theorem reread?_finite (negative : Bool) (rank : Fin finiteRanks) :
    ∃ y : Fin finiteRanks, reread? (.finite negative rank) = some (.finite negative y) := by
  obtain ⟨y, read⟩ := rescan_finite rank
  exact ⟨y, reread?_of_rescan negative read⟩

theorem reread?_exact (negative : Bool) (rank : Fin finiteRanks) (fits : (written rank).digits ≤ twoTo 53)
    (near : (written rank).exponent.natAbs ≤ 22) :
    reread? (.finite negative rank) = some (.finite negative rank) :=
  reread?_of_rescan negative (scaled?_exact 3 fits near (written_reads rank) rank.isLt)

-- The digits that are written are never many more than it takes.
theorem written_few {digits places : Nat} (few : digits ≤ tenTo 15) (fractional : 1 ≤ places) (near : places ≤ 22)
    (reads : (⟨digits, -places⟩ : Decimal).ReadsAs rank) :
    (written rank).digits ≤ twoTo 53 ∧ (written rank).exponent.natAbs ≤ 22 := by
  rcases Nat.eq_zero_or_pos rank with rfl | positive
  · exact ⟨by decide, by decide⟩
  · have room : 3 * tenTo 15 ≤ twoTo 53 := by decide
    have enough : 3 * digits ≤ twoTo 53 := Nat.le_trans (Nat.mul_le_mul_left 3 few) room
    have own := shortest_short .even positive
    have finest := shortest_finest .even reads positive (Nat.le_trans few (tenTo_le (by decide)))
    have coarsest := Int.le_trans own.coarsest (start_bounds reads positive few).2
    dsimp only at finest coarsest
    -- Both texts are compared with the given decimal on its own grid.
    have counted (zeros : Nat) (d : Decimal) (dReads : d.ReadsAs rank) (exponent : d.exponent = -places + zeros) :
        d.digits ≤ twoTo 53 := by
      have bound := digits_le_of_reads reads dReads positive zeros exponent
      exact Nat.le_trans (Nat.le_mul_of_pos_right _ (tenTo_pos zeros)) (Nat.le_trans bound enough)
    have reread := written_reads rank
    rcases written_cases positive with same | ⟨zeros, _, _, shifted⟩
    · rw [same] at reread ⊢
      refine ⟨counted ((shortest .even rank).exponent + places).toNat _ reread (by omega), by omega⟩
    · rw [shifted] at reread ⊢
      exact ⟨counted (places - 1) _ reread (by dsimp only; omega), show (-1 : Int).natAbs ≤ 22 by decide⟩

-- A double that fifteen digits were rounded to is read as itself.
theorem reread?_few {digits places : Nat} (few : digits ≤ tenTo 15) (fractional : 1 ≤ places) (near : places ≤ 22)
    (negative : Bool) (rank : Fin finiteRanks) (reads : (⟨digits, -places⟩ : Decimal).ReadsAs rank) :
    reread? (.finite negative rank) = some (.finite negative rank) := by
  obtain ⟨fits, close⟩ := written_few few fractional near reads
  exact reread?_exact negative rank fits close

theorem reread?_ofDecimal (negative : Bool) {digits places : Nat} (few : digits ≤ tenTo 15) (fractional : 1 ≤ places)
    (near : places ≤ 22) :
    reread? (ofDecimal negative digits (-places)) = some (ofDecimal negative digits (-places)) := by
  by_cases nought : digits = 0
  · have zero : ofDecimal negative digits (-places) = .finite negative ⟨0, by decide⟩ := if_pos nought
    rw [zero]
    exact reread?_exact negative _ (by decide) (by decide)
  · obtain ⟨bound, _, exact⟩ := ofNat_exact (Nat.le_trans few (by decide : tenTo 15 ≤ twoTo 53))
    have less : digits * unitsPerOne ≤ units bound * tenTo places := by
      rw [exact]
      exact Nat.le_mul_of_pos_right _ (tenTo_pos places)
    obtain ⟨rank, value, _, nearest⟩ := ofUnits_le negative bound (tenTo_pos places) less
    have quotient : ofDecimal negative digits (-places) = .finite negative rank := by
      have inside : ¬400 < -(places : Int) := by omega
      have above : ¬-(places : Int) < -(400 + digits.log2 : Int) := by omega
      have down : ¬0 ≤ -(places : Int) := by omega
      unfold ofDecimal
      rw [if_neg nought, if_neg inside, if_neg above, if_neg down, Int.neg_neg, Int.toNat_natCast]
      exact value
    rw [quotient]
    exact reread?_few few fractional near negative rank ((readsAs_neg digits places).mpr nearest)

end DiskGauge.Json
