import DiskGauge.Number.Decimal
import DiskGauge.Proofs.Number.Exact

namespace DiskGauge.Decimal
open Double

variable {d : Decimal} {tie : Tie} {rank : Nat} {exponent : Int}

theorem above_pos (exponent : Int) : 0 < above exponent := Nat.mul_pos (tenTo_pos _) unitsPerOne_pos

theorem below_pos (exponent : Int) : 0 < below exponent := tenTo_pos _

@[simp] theorem above_natCast (places : Nat) : above places = tenTo places * unitsPerOne := by
  rw [above, Int.toNat_natCast]

@[simp] theorem below_natCast (places : Nat) : below places = 1 := by
  rw [below, Int.toNat_neg_natCast]
  rfl

@[simp] theorem above_neg (places : Nat) : above (-places) = unitsPerOne := by
  rw [above, Int.toNat_neg_natCast, show tenTo 0 = 1 from rfl, Nat.one_mul]

@[simp] theorem below_neg (places : Nat) : below (-places) = tenTo places := by
  rw [below, Int.neg_neg, Int.toNat_natCast]

theorem readsAs_iff : d.ReadsAs rank ↔ Nearest (d.digits * above d.exponent) (below d.exponent) rank := by
  unfold ReadsAs Nearest
  rw [Nat.mul_assoc]

theorem readsAs_natCast (digits places : Nat) :
    (⟨digits, places⟩ : Decimal).ReadsAs rank ↔ Nearest (digits * tenTo places * unitsPerOne) 1 rank := by
  rw [readsAs_iff, above_natCast, below_natCast, Nat.mul_assoc]

theorem readsAs_neg (digits places : Nat) :
    (⟨digits, -places⟩ : Decimal).ReadsAs rank ↔ Nearest (digits * unitsPerOne) (tenTo places) rank := by
  rw [readsAs_iff, above_neg, below_neg]

-- A point of a coarser grid is so many points of a finer one.
theorem above_below (fine : Int) (places : Nat) :
    above (fine + places) * below fine = tenTo places * (above fine * below (fine + places)) := by
  have sum : (fine + places).toNat + (-fine).toNat = places + (fine.toNat + (-(fine + places)).toNat) := by
    omega
  have powers := congrArg tenTo sum
  simp only [tenTo_add] at powers
  unfold above below
  calc tenTo (fine + places).toNat * unitsPerOne * tenTo (-fine).toNat
      = unitsPerOne * (tenTo (fine + places).toNat * tenTo (-fine).toNat) := by ring
    _ = unitsPerOne * (tenTo places * (tenTo fine.toNat * tenTo (-(fine + places)).toNat)) := by rw [powers]
    _ = tenTo places * (tenTo fine.toNat * unitsPerOne * tenTo (-(fine + places)).toNat) := by ring

theorem digits_pos (reads : d.ReadsAs rank) (positive : 0 < rank) : 0 < d.digits := by
  by_contra failed
  have zero : d.digits = 0 := by omega
  have lower := (readsAs_iff.mp reads).lower
  rw [zero, Nat.zero_mul] at lower
  have nonzero := Nat.mul_pos (units_pos positive) (below_pos d.exponent)
  rw [Nat.add_mul] at lower
  omega

-- The last point of a grid that is not above the double.
def floorOn (rank : Nat) (exponent : Int) : Nat := units rank * below exponent / above exponent

theorem floorOn_le (rank : Nat) (exponent : Int) :
    floorOn rank exponent * above exponent ≤ units rank * below exponent :=
  Nat.div_mul_le_self ..

theorem lt_floorOn (rank : Nat) (exponent : Int) :
    units rank * below exponent < (floorOn rank exponent + 1) * above exponent :=
  Nat.lt_mul_of_div_lt (Nat.lt_succ_self _) (above_pos exponent)

-- A neighbour of the double reads back if any point of the grid does.
theorem neighbour_reads (reads : d.ReadsAs rank) :
    (⟨floorOn rank d.exponent, d.exponent⟩ : Decimal).ReadsAs rank ∨
      (⟨floorOn rank d.exponent + 1, d.exponent⟩ : Decimal).ReadsAs rank := by
  have nearest := readsAs_iff.mp reads
  have positive := below_pos d.exponent
  have down := floorOn_le rank d.exponent
  have up := lt_floorOn rank d.exponent
  rcases Nat.lt_or_ge (floorOn rank d.exponent) d.digits with above | below
  · refine .inr (readsAs_iff.mpr (nearest.between positive positive (.inr ⟨?_, up.le⟩)))
    exact Nat.mul_le_mul_right _ (Nat.mul_le_mul_right _ above)
  · refine .inl (readsAs_iff.mpr (nearest.between positive positive (.inl ⟨?_, down⟩)))
    exact Nat.mul_le_mul_right _ (Nat.mul_le_mul_right _ below)

theorem onGrid?_reads (found : onGrid? tie rank exponent = some d) :
    d.ReadsAs rank ∧ d.exponent = exponent ∧ d.digits ≤ floorOn rank exponent + 1 := by
  unfold onGrid? at found
  dsimp only at found
  split at found
  · next down =>
    split at found
    · next up =>
      have either : d = ⟨floorOn rank exponent, exponent⟩ ∨ d = ⟨floorOn rank exponent + 1, exponent⟩ := by
        split at found
        · exact .inl (Option.some.inj found).symm
        · split at found
          · exact .inr (Option.some.inj found).symm
          · split at found
            · exact .inr (Option.some.inj found).symm
            · split at found
              · exact .inl (Option.some.inj found).symm
              · exact .inr (Option.some.inj found).symm
      rcases either with rfl | rfl
      · exact ⟨down, rfl, Nat.le_succ _⟩
      · exact ⟨up, rfl, Nat.le_refl _⟩
    · obtain rfl := Option.some.inj found
      exact ⟨down, rfl, Nat.le_succ _⟩
  · split at found
    · next up =>
      obtain rfl := Option.some.inj found
      exact ⟨up, rfl, Nat.le_refl _⟩
    · cases found

theorem onGrid?_complete (missing : onGrid? tie rank d.exponent = none) : ¬d.ReadsAs rank := by
  intro reads
  have neighbour := neighbour_reads reads
  unfold floorOn at neighbour
  unfold onGrid? at missing
  dsimp only at missing
  split at missing
  · split at missing
    · split at missing
      · cases missing
      · split at missing
        · cases missing
        · split at missing
          · cases missing
          · split at missing <;> cases missing
    · cases missing
  · next down =>
    split at missing
    · cases missing
    · next up => exact neighbour.elim down up

theorem search_reads (tie : Tie) (tries : Nat) (reads : d.ReadsAs rank) (start : d.exponent ≤ exponent)
    (within : exponent < d.exponent + tries) :
    (search tie rank tries exponent).ReadsAs rank ∧
      d.exponent ≤ (search tie rank tries exponent).exponent ∧
      (search tie rank tries exponent).exponent ≤ exponent ∧
      (search tie rank tries exponent).digits ≤
        floorOn rank (search tie rank tries exponent).exponent + 1 := by
  induction tries generalizing exponent with
  | zero => omega
  | succ tries ih =>
    unfold search
    cases found : onGrid? tie rank exponent with
    | some point =>
      obtain ⟨good, rfl, few⟩ := onGrid?_reads found
      exact ⟨good, start, Int.le_refl _, few⟩
    | none =>
      have coarser : d.exponent ≠ exponent := by
        intro same
        subst same
        exact onGrid?_complete found reads
      obtain ⟨good, above, below, few⟩ := ih (Int.le_sub_one_of_lt (lt_of_le_of_ne start coarser)) (by omega)
      exact ⟨good, above, Int.le_trans below (Int.sub_le_self _ Int.one_nonneg), few⟩

theorem lt_tenTo_digitCount (n : Nat) : n < tenTo (digitCount n) :=
  (Nat.length_toDigits_le_iff (by decide) Nat.length_toDigits_pos).mp (Nat.le_refl _)

theorem tenTo_digitCount_le {n : Nat} (positive : 0 < n) : tenTo (digitCount n - 1) ≤ n := by
  by_cases one : digitCount n - 1 = 0
  · rw [one]
    exact positive
  · by_contra less
    have short := (Nat.length_toDigits_le_iff (b := 10) (n := n) (by decide)
      (Nat.pos_of_ne_zero one)).mpr (Nat.lt_of_not_le less)
    change digitCount n ≤ digitCount n - 1 at short
    omega

-- The double stands between the power of ten where the search starts and the one below it.
theorem startExponent_spec (positive : 0 < rank) :
    units rank * below (startExponent rank) ≤ above (startExponent rank) ∧
      above (startExponent rank - 1) ≤ units rank * below (startExponent rank - 1) := by
  have nonzero := units_pos positive
  unfold startExponent
  dsimp only
  split
  · next small =>
    have least : 0 < unitsPerOne / units rank := by
      refine Nat.div_pos ?_ nonzero
      exact ((Nat.div_eq_zero_iff_lt unitsPerOne_pos).mp small).le
    have counted : 0 < digitCount (unitsPerOne / units rank) := Nat.length_toDigits_pos
    have upper := tenTo_digitCount_le least
    have lower := lt_tenTo_digitCount (unitsPerOne / units rank)
    obtain ⟨zeros, count⟩ := Nat.exists_eq_add_one.mpr counted
    have start : 1 - ((zeros + 1 : Nat) : Int) = -(zeros : Nat) := by omega
    have next : -(zeros : Int) - 1 = -(zeros + 1 : Nat) := by omega
    rw [count, Nat.add_sub_cancel] at upper
    rw [count] at lower
    rw [count, start, next, above_neg, below_neg, above_neg, below_neg]
    constructor
    · rw [Nat.mul_comm]
      exact (Nat.le_div_iff_mul_le nonzero).mp upper
    · rw [Nat.mul_comm]
      exact (Nat.lt_mul_of_div_lt lower nonzero).le
  · next large =>
    have upper := lt_tenTo_digitCount (units rank / unitsPerOne)
    have lower := tenTo_digitCount_le (Nat.pos_of_ne_zero large)
    have counted : 0 < digitCount (units rank / unitsPerOne) := Nat.length_toDigits_pos
    obtain ⟨places, count⟩ := Nat.exists_eq_add_one.mpr counted
    have next : ((places + 1 : Nat) : Int) - 1 = places := by omega
    rw [count] at upper
    rw [count, Nat.add_sub_cancel] at lower
    rw [count, next, above_natCast, below_natCast, above_natCast, below_natCast, Nat.mul_one]
    exact ⟨((Nat.div_lt_iff_lt_mul unitsPerOne_pos).mp upper).le,
      (Nat.le_div_iff_mul_le unitsPerOne_pos).mp lower⟩

theorem digitCount_le {n count : Nat} (positive : 0 < count) (less : n < tenTo count) :
    digitCount n ≤ count := (Nat.length_toDigits_le_iff (by decide) positive).mpr less

theorem startExponent_range (finite : rank < finiteRanks) :
    -323 ≤ startExponent rank ∧ startExponent rank ≤ 309 := by
  unfold startExponent
  dsimp only
  split
  · have widest : unitsPerOne < tenTo 324 := by decide +kernel
    have count := digitCount_le (by decide) (Nat.lt_of_le_of_lt (Nat.div_le_self unitsPerOne (units rank)) widest)
    omega
  · have widest : twoTo 1024 < tenTo 309 := by decide +kernel
    have less := units_lt finite
    rw [units_finiteRanks] at less
    have count := digitCount_le (by decide)
      (Nat.lt_trans ((Nat.div_lt_iff_lt_mul unitsPerOne_pos).mpr less) widest)
    omega

-- Eighteen places below, a grid is at least twice as fine as the spacing of the doubles.
theorem floorOn_reads (positive : 0 < rank) :
    (⟨floorOn rank (startExponent rank - 18), startExponent rank - 18⟩ : Decimal).ReadsAs rank := by
  obtain ⟨prior, rfl⟩ := Nat.exists_eq_add_one.mpr positive
  have least := (startExponent_spec positive).2
  generalize startExponent (prior + 1) = start at least ⊢
  have gap := units_succ prior
  have spacing := units_succ_le prior
  have down := floorOn_le (prior + 1) (start - 18)
  have up := lt_floorOn (prior + 1) (start - 18)
  have grid := above_below (start - 18) 17
  have shift : start - 18 + (17 : Nat) = start - 1 := by omega
  rw [shift] at grid
  have fine : 2 * above (start - 18) ≤ twoTo (scale prior) * below (start - 18) := by
    have positive := below_pos (start - 1)
    refine Nat.le_of_mul_le_mul_left ?_ (Nat.mul_pos (twoTo_pos 53) positive)
    have enough : 2 * twoTo 53 ≤ tenTo 17 := by decide
    have scaled := Nat.mul_le_mul_right (below (start - 18)) least
    have bound := Nat.mul_le_mul_right (below (start - 1) * below (start - 18)) spacing
    have room := Nat.mul_le_mul_right (above (start - 18) * below (start - 1)) enough
    linarith
  refine readsAs_iff.mpr ?_
  -- The point is at most one step of the grid, so less than half of the spacing, below the double.
  have after := Nat.mul_lt_mul_of_pos_right (units_lt_succ (prior + 1)) (below_pos (start - 18))
  unfold Nearest
  rw [Nat.add_sub_cancel]
  dsimp only
  have lower : (units prior + units (prior + 1)) * below (start - 18) <
      2 * (floorOn (prior + 1) (start - 18) * above (start - 18)) := by
    rw [gap] at up ⊢
    linarith
  have upper : 2 * (floorOn (prior + 1) (start - 18) * above (start - 18)) <
      (units (prior + 1) + units (prior + 1 + 1)) * below (start - 18) := by
    linarith
  split
  · exact ⟨lower.le, upper.le⟩
  · exact ⟨lower, upper⟩

theorem floorOn_start_le (positive : 0 < rank) (places : Nat) :
    floorOn rank (startExponent rank - places) ≤ tenTo places := by
  have most := (startExponent_spec positive).1
  generalize startExponent rank = start at most ⊢
  have grid := above_below (start - places) places
  rw [Int.sub_add_cancel] at grid
  have scaled := Nat.mul_le_mul_right (below (start - places)) most
  have bound : below start * (units rank * below (start - places)) ≤
      below start * (above (start - places) * tenTo places) := by linarith
  exact Nat.div_le_of_le_mul (Nat.le_of_mul_le_mul_left bound (below_pos start))

structure Short (d : Decimal) (rank : Nat) : Prop where
  reads : d.ReadsAs rank
  finest : startExponent rank - 18 ≤ d.exponent
  coarsest : d.exponent ≤ startExponent rank
  digits : d.digits ≤ tenTo 18 + 1

theorem shortest_short (tie : Tie) (positive : 0 < rank) : Short (shortest tie rank) rank := by
  have start : startExponent rank - 18 ≤ startExponent rank := by omega
  obtain ⟨reads, finest, coarsest, few⟩ :=
    search_reads tie 20 (floorOn_reads positive) start (by dsimp only; omega)
  refine ⟨reads, finest, coarsest, Nat.le_trans few (Nat.succ_le_succ ?_)⟩
  dsimp only at finest
  obtain ⟨places, equal⟩ := Int.le.dest coarsest
  have back : (search tie rank 20 (startExponent rank)).exponent = startExponent rank - places := by omega
  rw [back]
  exact Nat.le_trans (floorOn_start_le positive places) (tenTo_le (by omega))

theorem readsAs_shift (d : Decimal) (places : Nat) :
    (⟨d.digits * tenTo places, d.exponent - places⟩ : Decimal).ReadsAs rank ↔ d.ReadsAs rank := by
  have grid := above_below (d.exponent - places) places
  rw [Int.sub_add_cancel] at grid
  have same : nearestRank (d.digits * tenTo places * above (d.exponent - places)) (below (d.exponent - places)) =
      nearestRank (d.digits * above d.exponent) (below d.exponent) := by
    refine nearestRank_congr (below_pos _) (below_pos _) ?_
    rw [Nat.mul_assoc d.digits (above d.exponent), grid]
    ring
  rw [readsAs_iff, readsAs_iff, ← nearestRank_eq_iff (below_pos _), ← nearestRank_eq_iff (below_pos _), same]

theorem reads_bounds (reads : d.ReadsAs rank) (positive : 0 < rank) :
    units rank * below d.exponent ≤ 2 * (d.digits * above d.exponent) ∧
      2 * (d.digits * above d.exponent) ≤ 3 * (units rank * below d.exponent) := by
  have nearest := readsAs_iff.mp reads
  have lower := nearest.lower
  have upper := nearest.upper
  have spacing : twoTo (scale rank) ≤ units rank := by
    refine Nat.le_mul_of_pos_left _ ?_
    unfold significand
    split
    · exact positive
    · exact Nat.lt_of_lt_of_le (twoTo_pos 52) (Nat.le_add_right ..)
  rw [units_succ] at upper
  constructor
  · exact Nat.le_trans (Nat.mul_le_mul_right _ (Nat.le_add_left ..)) lower
  · have scaled := Nat.mul_le_mul_right (below d.exponent) spacing
    linarith

-- Two decimals of one double have about as many digits, counted on the same grid.
theorem digits_le_of_reads {other : Decimal} (reads : d.ReadsAs rank) (otherReads : other.ReadsAs rank)
    (positive : 0 < rank) (places : Nat) (coarser : other.exponent = d.exponent + places) :
    other.digits * tenTo places ≤ 3 * d.digits := by
  have lower := (reads_bounds reads positive).1
  have upper := (reads_bounds otherReads positive).2
  have grid := above_below d.exponent places
  rw [← coarser] at grid
  have factor : 0 < 2 * (above d.exponent * below other.exponent) :=
    Nat.mul_pos (by decide) (Nat.mul_pos (above_pos _) (below_pos _))
  have low := Nat.mul_le_mul_left (3 * below other.exponent) lower
  have high := Nat.mul_le_mul_right (below d.exponent) upper
  have both : 2 * other.digits * (above other.exponent * below d.exponent) ≤
      6 * d.digits * (above d.exponent * below other.exponent) := by linarith
  rw [grid] at both
  refine Nat.le_of_mul_le_mul_right ?_ factor
  linarith

-- The search starts between the first digit of a decimal and its last one.
theorem start_bounds (reads : d.ReadsAs rank) (positive : 0 < rank) {count : Nat}
    (few : d.digits ≤ tenTo count) :
    d.exponent ≤ startExponent rank ∧ startExponent rank ≤ d.exponent + count + 1 := by
  obtain ⟨most, least⟩ := startExponent_spec positive
  obtain ⟨lower, upper⟩ := reads_bounds reads positive
  have digits := digits_pos reads positive
  generalize startExponent rank = start at most least ⊢
  constructor
  · by_contra finer
    obtain ⟨places, step⟩ : ∃ places : Nat, d.exponent = start + (places + 1 : Nat) :=
      ⟨(d.exponent - start - 1).toNat, by omega⟩
    have grid := above_below start (places + 1)
    rw [← step] at grid
    have ten : 10 ≤ tenTo (places + 1) := tenTo_succ places ▸ Nat.le_mul_of_pos_right _ (tenTo_pos _)
    have factor : 0 < above start * below d.exponent := Nat.mul_pos (above_pos _) (below_pos _)
    have low := Nat.mul_le_mul_right (3 * below d.exponent) most
    have high := Nat.mul_le_mul_right (below start) upper
    have many := Nat.mul_le_mul digits (Nat.mul_le_mul_right (above start * below d.exponent) ten)
    have both : 2 * d.digits * (above d.exponent * below start) ≤ 3 * (above start * below d.exponent) := by
      linarith
    rw [grid] at both
    linarith
  · by_contra coarser
    obtain ⟨places, step⟩ : ∃ places : Nat, start - 1 = d.exponent + (count + 1 + places : Nat) :=
      ⟨(start - 1 - d.exponent - count - 1).toNat, by omega⟩
    have grid := above_below d.exponent (count + 1 + places)
    rw [← step] at grid
    have factor : 0 < above d.exponent * below (start - 1) := Nat.mul_pos (above_pos _) (below_pos _)
    have ten : 10 * tenTo count ≤ tenTo (count + 1 + places) := by
      rw [← tenTo_succ]
      exact tenTo_le (Nat.le_add_right ..)
    have low := Nat.mul_le_mul_right (below d.exponent) least
    have high := Nat.mul_le_mul_right (below (start - 1)) lower
    have both : tenTo (count + 1 + places) * (above d.exponent * below (start - 1)) ≤
        2 * d.digits * (above d.exponent * below (start - 1)) := by
      rw [← grid]
      linarith
    have less := Nat.le_of_mul_le_mul_right both factor
    have full := tenTo_pos count
    omega

-- If few digits suffice, the shortest decimal has no place below theirs.
theorem shortest_finest (tie : Tie) (reads : d.ReadsAs rank) (positive : 0 < rank)
    (few : d.digits ≤ tenTo 18) : d.exponent ≤ (shortest tie rank).exponent := by
  obtain ⟨start, within⟩ := start_bounds reads positive few
  exact (search_reads tie 20 reads start (by omega)).2.1

end DiskGauge.Decimal
