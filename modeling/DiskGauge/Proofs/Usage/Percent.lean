import DiskGauge.Proofs.Json.Rereading
import DiskGauge.Proofs.Number.Drift
import DiskGauge.Usage.Sample

namespace DiskGauge.Sample
open Double Decimal Json

variable {used more total tenths : Nat}

def ofTenths (tenths : Nat) : Double := ofQuotient false tenths 10

-- The ranks of the share that is used, and of a thousand times that share.
def shareRank (used total : Nat) : Nat := nearestRank (units (whole used) * unitsPerOne) (units (whole total))

def permilleRank (used total : Nat) : Nat :=
  nearestRank (units (shareRank used total) * units (whole 1000)) unitsPerOne

def tenthsOf (used total : Nat) : Nat := roundQuotientUp (units (permilleRank used total)) unitsPerOne

theorem one_rank : ∃ one, units one = unitsPerOne := by
  simpa [unitsPerOne] using exists_units 1 1074 (by decide)

-- A share of the whole is never rounded to more than all of it.
theorem shareRank_le (less : used ≤ total) (positive : 0 < total) : units (shareRank used total) ≤ unitsPerOne := by
  obtain ⟨one, exact⟩ := one_rank
  have within : units (whole used) * unitsPerOne * 1 ≤ units one * units (whole total) := by
    rw [exact, Nat.mul_one, Nat.mul_comm]
    exact Nat.mul_le_mul_left _ (units_le (whole_mono less))
  have below := nearestRank_le (whole_pos positive) Nat.one_pos within
  rw [nearestRank_units] at below
  exact exact ▸ units_le below

theorem units_thousand : units (whole 1000) = 1000 * unitsPerOne := units_whole (by decide)

theorem permilleRank_le (bound : units (shareRank used total) ≤ unitsPerOne) :
    units (permilleRank used total) ≤ 1000 * unitsPerOne := by
  have within : units (shareRank used total) * units (whole 1000) * 1 ≤ units (whole 1000) * unitsPerOne := by
    rw [Nat.mul_one, Nat.mul_comm]
    exact Nat.mul_le_mul_left _ bound
  have below := nearestRank_le unitsPerOne_pos Nat.one_pos within
  rw [nearestRank_units] at below
  rw [← units_thousand]
  exact units_le below

theorem tenthsOf_le (less : used ≤ total) (positive : 0 < total) : tenthsOf used total ≤ 1000 := by
  have bound := permilleRank_le (shareRank_le less positive)
  have one := unitsPerOne_pos
  unfold tenthsOf roundQuotientUp
  refine Nat.le_of_lt_succ ((Nat.div_lt_iff_lt_mul (by omega)).mpr ?_)
  omega

theorem tenthsOf_mono (less : used ≤ more) (positive : 0 < total) : tenthsOf used total ≤ tenthsOf more total := by
  have divisor := whole_pos positive
  have shares : shareRank used total ≤ shareRank more total := by
    refine nearestRank_le divisor divisor (Nat.mul_le_mul_right _ (Nat.mul_le_mul_right _ ?_))
    exact units_le (whole_mono less)
  have permille : permilleRank used total ≤ permilleRank more total := by
    refine nearestRank_le unitsPerOne_pos unitsPerOne_pos (Nat.mul_le_mul_right _ (Nat.mul_le_mul_right _ ?_))
    exact units_le shares
  exact roundQuotientUp_mono (units_le permille) _

theorem ofNat_whole {n : Nat} (fits : n < twoTo 64) : ofNat n = .finite false ⟨whole n, whole_inside fits⟩ :=
  ofRank_finite false (whole_inside fits)

-- What is no more than one, or a thousand, is finite.
theorem inside_of_units_le {rank n : Nat} (bound : units rank ≤ n * unitsPerOne) (small : n < twoTo 64) :
    rank < finiteRanks :=
  lt_of_units_lt (Nat.lt_of_le_of_lt bound (lt_units_finiteRanks (Nat.lt_trans small (twoTo_lt (by decide)))))

-- Whole tenths are divided by ten as if they were exact, and they are.
theorem tenths_div (bounded : tenths ≤ 1000) : ofNat tenths / ofNat 10 = ofTenths tenths := by
  obtain ⟨count, countValue, countExact⟩ := ofNat_exact (Nat.le_trans bounded (by decide : 1000 ≤ twoTo 53))
  obtain ⟨ten, tenValue, tenExact⟩ := ofNat_exact (n := 10) (by decide)
  have positive : 0 < units ten := by
    rw [tenExact]
    exact Nat.mul_pos (by decide) unitsPerOne_pos
  rw [countValue, tenValue, div_finite count ten positive]
  have same : nearestRank (units count * unitsPerOne) (units ten) = nearestRank (tenths * unitsPerOne) 10 := by
    refine nearestRank_congr positive (by decide) ?_
    rw [countExact, tenExact]
    ring
  unfold ofTenths ofQuotient ofUnits
  rw [same]

theorem percentOf_some (less : used ≤ total) (positive : 0 < total) (fits : total < twoTo 64) :
    percentOf used total = ofTenths (tenthsOf used total) := by
  have shareBound := shareRank_le less positive
  have shareInside : shareRank used total < finiteRanks :=
    inside_of_units_le (n := 1) (by rw [Nat.one_mul]; exact shareBound) (by decide)
  have permilleInside : permilleRank used total < finiteRanks :=
    inside_of_units_le (permilleRank_le shareBound) (by decide)
  have usedFits := Nat.lt_of_le_of_lt less fits
  have share : ofNat used / ofNat total = .finite false ⟨shareRank used total, shareInside⟩ := by
    rw [ofNat_whole usedFits, ofNat_whole fits,
      div_finite ⟨whole used, whole_inside usedFits⟩ ⟨whole total, whole_inside fits⟩ (whole_pos positive)]
    exact ofRank_finite false shareInside
  have permille : ofNat used / ofNat total * ofNat 1000 = .finite false ⟨permilleRank used total, permilleInside⟩ := by
    rw [share, ofNat_whole (n := 1000) (by decide), mul_finite]
    exact ofRank_finite false permilleInside
  have rounded : (ofNat used / ofNat total * ofNat 1000).round = ofNat (tenthsOf used total) := by
    rw [permille, Double.round]
    unfold tenthsOf Double.ofNat
    rfl
  unfold percentOf
  rw [if_neg (Nat.pos_iff_ne_zero.mp positive), rounded, tenths_div (tenthsOf_le less positive)]

theorem ofTenths_zero : ofTenths 0 = .zero := by
  have zero : units 0 * 10 = 0 * unitsPerOne := by rw [units_zero, Nat.zero_mul, Nat.zero_mul]
  unfold ofTenths ofQuotient
  exact ofUnits_exact false ⟨0, by decide⟩ (by decide) zero

theorem percentOf_none : percentOf used 0 = ofTenths 0 := by
  rw [ofTenths_zero]
  exact if_pos rfl

theorem percentOf_tenths (less : used ≤ total) (fits : total < twoTo 64) :
    ∃ tenths ≤ 1000, percentOf used total = ofTenths tenths := by
  rcases Nat.eq_zero_or_pos total with rfl | positive
  · exact ⟨0, by decide, percentOf_none⟩
  · exact ⟨_, tenthsOf_le less positive, percentOf_some less positive fits⟩

-- The double nearest to so many tenths of a percent.
structure Tenths (percent : Double) (tenths : Nat) (rank : Fin finiteRanks) : Prop where
  value : percent = .finite false rank
  reads : (⟨tenths, -1⟩ : Decimal).ReadsAs rank
  bound : units rank ≤ 100 * unitsPerOne

theorem ofTenths_finite (bounded : tenths ≤ 1000) : ∃ rank, Tenths (ofTenths tenths) tenths rank := by
  obtain ⟨hundred, _, exact⟩ := ofNat_exact (n := 100) (by decide)
  have less : tenths * unitsPerOne ≤ units hundred * 10 := by
    rw [exact]
    have scaled := Nat.mul_le_mul_right unitsPerOne bounded
    linarith
  obtain ⟨rank, value, below, nearest⟩ := ofUnits_le false hundred (by decide) less
  exact ⟨rank, value, (readsAs_neg tenths 1).mpr nearest, exact ▸ units_le below⟩

theorem reread?_percentOf (less : used ≤ total) (fits : total < twoTo 64) :
    reread? (percentOf used total) = some (percentOf used total) := by
  obtain ⟨tenths, bounded, same⟩ := percentOf_tenths less fits
  obtain ⟨rank, value, reads, _⟩ := ofTenths_finite bounded
  rw [same, value]
  exact reread?_few (Nat.le_trans bounded (by decide)) (Nat.le_refl 1) (by decide) false rank reads

theorem percentInRange_percentOf (less : used ≤ total) (fits : total < twoTo 64) :
    Snapshot.percentInRange (percentOf used total) = true := by
  obtain ⟨tenths, bounded, same⟩ := percentOf_tenths less fits
  obtain ⟨rank, value, _, bound⟩ := ofTenths_finite bounded
  obtain ⟨hundred, hundredValue, exact⟩ := ofNat_exact (n := 100) (by decide)
  have above : Double.le .zero (.finite false rank) = true := (le_finite ⟨0, by decide⟩ rank).mpr (Nat.zero_le _)
  have below : Double.le (.finite false rank) (.finite false hundred) = true :=
    (le_finite rank hundred).mpr (by rw [exact]; exact bound)
  unfold Snapshot.percentInRange Snapshot.hundred
  rw [same, value, hundredValue, above, below]
  rfl

end DiskGauge.Sample
