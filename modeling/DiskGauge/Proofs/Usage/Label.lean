import DiskGauge.Proofs.Json.Numbers
import DiskGauge.Proofs.Number.Drift
import DiskGauge.Usage.Size
import Mathlib.Algebra.Order.Field.Rat

namespace DiskGauge.Size
open Double

variable {a b rank other larger unit : Nat}

-- A thousandth of the magnitude at a rank.
def thousandth (rank : Nat) : Nat := nearestRank (units rank) 1000

theorem nearest_thousandth (rank : Nat) : Nearest (units rank) 1000 (thousandth rank) :=
  nearest_nearestRank _ _ (by decide)

theorem thousandth_mono (less : rank ≤ other) : thousandth rank ≤ thousandth other :=
  nearestRank_le (by decide) (by decide) (Nat.mul_le_mul_right _ (units_le less))

theorem thousandth_le (rank : Nat) : thousandth rank ≤ rank := by
  have own := nearest_self rank Nat.one_pos
  rw [Nat.mul_one] at own
  exact nearest_le (by decide) Nat.one_pos (Nat.mul_le_mul_left _ (by decide)) (nearest_thousandth rank) own

theorem step_rank : ∃ thousand : Fin finiteRanks, step = .finite false thousand ∧
    units thousand = 1000 * unitsPerOne := ofNat_exact (by decide)

theorem div_step (inside : rank < finiteRanks) : ofRank false rank / step = ofRank false (thousandth rank) := by
  obtain ⟨thousand, value, exact⟩ := step_rank
  have positive : 0 < units thousand := exact ▸ Nat.mul_pos (by decide) unitsPerOne_pos
  have same : nearestRank (units rank * unitsPerOne) (units thousand) = thousandth rank := by
    apply nearestRank_congr positive (by decide)
    rw [exact]
    ring
  rw [value, ofRank_finite false inside, div_finite ⟨rank, inside⟩ thousand positive]
  unfold ofQuotient ofUnits
  rw [same]

theorem le_step (inside : rank < finiteRanks) :
    le step (ofRank false rank) = true ↔ 1000 * unitsPerOne ≤ units rank := by
  obtain ⟨thousand, value, exact⟩ := step_rank
  rw [value, ofRank_finite false inside, le_finite thousand ⟨rank, inside⟩, exact]

def tenths (rank : Nat) : Nat := roundQuotient (units rank * 10) unitsPerOne

theorem tenths_mono (less : rank ≤ other) : tenths rank ≤ tenths other :=
  roundQuotient_mono unitsPerOne_pos (Nat.mul_le_mul_right _ (units_le less))

-- The double nearest to 999.95, from which on a value is divided once more.
structure Edge (edge : Fin finiteRanks) : Prop where
  value : overflowing = .finite false edge
  nearest : Nearest (99995 * unitsPerOne) 100 edge

theorem exists_edge : ∃ edge, Edge edge := by
  obtain ⟨thousand, _, exact⟩ := step_rank
  have less : 99995 * unitsPerOne ≤ units thousand * 100 := by
    rw [exact]
    linarith
  obtain ⟨edge, value, _, nearest⟩ := ofUnits_le false thousand (by decide) less
  have quotient : overflowing = ofUnits false (99995 * unitsPerOne) 100 := by
    unfold overflowing ofDecimal
    rw [if_neg (by decide), if_neg (by decide), if_neg (by decide), if_neg (by decide)]
    rfl
  exact ⟨edge, quotient.trans value, nearest⟩

namespace Edge

variable {edge : Fin finiteRanks}

theorem le_of_thousand (isEdge : Edge edge) (atLeast : 1000 * unitsPerOne ≤ units rank) : edge ≤ rank := by
  apply nearest_le (by decide) Nat.one_pos _ isEdge.nearest (nearest_self rank Nat.one_pos)
  linarith

theorem above_999 (isEdge : Edge edge) : 999 * unitsPerOne ≤ units edge := by
  obtain ⟨bound, _, exact⟩ := ofNat_exact (n := 999) (by decide)
  rw [← exact]
  apply units_le
  apply nearest_le Nat.one_pos (by decide) _ (nearest_self bound Nat.one_pos) isEdge.nearest
  rw [exact]
  linarith

-- Below the edge the tenths stay below ten thousand: the edge is the first rank past 999.95, or at it.
theorem tenths_lt (isEdge : Edge edge) (below : rank < edge) : tenths rank ≤ 9999 := by
  have lower := isEdge.nearest.lower
  have prior : units rank ≤ units (edge - 1) := units_le (Nat.le_sub_one_of_lt below)
  have strict := units_lt below
  have near := (roundQuotient_near (units rank * 10) unitsPerOne unitsPerOne_pos).2
  by_contra more
  have many := Nat.mul_le_mul_right unitsPerOne (Nat.lt_of_not_le more)
  unfold tenths at many
  linarith

theorem thousandth_lt (isEdge : Edge edge) (less : units rank < 1000 * unitsPerOne) : thousandth rank < edge := by
  obtain ⟨one, _, exact⟩ := ofNat_exact (n := 1) (by decide)
  have bound : thousandth rank ≤ one := by
    apply nearest_le (by decide) Nat.one_pos _ (nearest_thousandth rank) (nearest_self one Nat.one_pos)
    rw [exact]
    linarith
  have above := isEdge.above_999
  have small := units_le bound
  have positive := unitsPerOne_pos
  apply lt_of_units_lt
  linarith

-- What was divided at the edge or above has kept more than nineteen twentieths of one.
theorem thousandth_large (isEdge : Edge edge) (reached : edge ≤ rank) :
    31 * unitsPerOne ≤ 32 * units (thousandth rank) := by
  obtain ⟨bound, exact⟩ := exists_units 31 1069 (by decide)
  have one : unitsPerOne = 32 * twoTo 1069 := by
    unfold unitsPerOne
    rw [← show twoTo 5 = 32 from rfl, ← twoTo_add]
  have least : bound ≤ thousandth rank := by
    apply nearest_le Nat.one_pos (by decide) _ (nearest_self bound Nat.one_pos) (nearest_thousandth rank)
    have above := Nat.le_trans isEdge.above_999 (units_le reached)
    rw [exact]
    linarith
  have more := units_le least
  linarith

theorem le_overflowing (isEdge : Edge edge) (inside : rank < finiteRanks) :
    le overflowing (ofRank false rank) = true ↔ edge ≤ rank := by
  rw [isEdge.value, ofRank_finite false inside, le_finite edge ⟨rank, inside⟩]
  constructor
  · intro less
    by_contra below
    exact absurd (units_lt (Nat.lt_of_not_le below)) (Nat.not_lt_of_le less)
  · exact fun less => units_le less

end Edge

-- Dividing at the edge and above, as long as there are larger units.
def settle (edge : Nat) : Nat → Nat → Nat → Nat × Nat
  | 0, rank, unit => (rank, unit)
  | larger + 1, rank, unit =>
    if edge ≤ rank then settle edge larger (thousandth rank) (unit + 1) else (rank, unit)

variable {edge : Fin finiteRanks}

theorem settle_below (below : rank < edge) : settle edge larger rank unit = (rank, unit) := by
  cases larger with
  | zero => rfl
  | succ larger => exact if_neg (Nat.not_le_of_lt below)

theorem settle_unit_le (larger rank unit : Nat) : unit ≤ (settle edge larger rank unit).2 := by
  induction larger generalizing rank unit with
  | zero => exact Nat.le_refl _
  | succ larger ih =>
    unfold settle
    split
    · exact Nat.le_trans (Nat.le_succ unit) (ih _ _)
    · exact Nat.le_refl _

theorem settle_le (larger rank unit : Nat) : (settle edge larger rank unit).1 ≤ rank := by
  induction larger generalizing rank unit with
  | zero => exact Nat.le_refl _
  | succ larger ih =>
    unfold settle
    split
    · exact Nat.le_trans (ih _ _) (thousandth_le rank)
    · exact Nat.le_refl _

-- A size that was promoted is below the edge, since no division gives more than one.
theorem promote_climb (isEdge : Edge edge) (larger : Nat) {rank unit : Nat} (inside : rank < finiteRanks)
    (room : unit + larger = 5) : promote (climb larger (ofRank false rank) unit) =
      (ofRank false (settle edge larger rank unit).1, (settle edge larger rank unit).2) := by
  induction larger generalizing rank unit with
  | zero =>
    have last : unit = 5 := room
    subst last
    unfold promote climb settle
    simp
  | succ larger ih =>
    have next : thousandth rank < finiteRanks := Nat.lt_of_le_of_lt (thousandth_le rank) inside
    unfold climb settle
    by_cases thousand : 1000 * unitsPerOne ≤ units rank
    · rw [if_pos ((le_step inside).mpr thousand), if_pos (isEdge.le_of_thousand thousand), div_step inside,
        ih next (by omega)]
    · have small : unit < 5 := by omega
      have below : ¬le step (ofRank false rank) = true := fun above => thousand ((le_step inside).mp above)
      rw [if_neg below]
      unfold promote
      by_cases reached : edge ≤ rank
      · have beyond := (isEdge.le_overflowing inside).mpr reached
        simp only [beyond, small, decide_true, Bool.and_true, if_true, reached, div_step inside]
        rw [settle_below (isEdge.thousandth_lt (Nat.lt_of_not_le thousand))]
      · have under : le overflowing (ofRank false rank) = false :=
          Bool.eq_false_of_not_eq_true fun beyond => reached ((isEdge.le_overflowing inside).mp beyond)
        simp [under, reached]

-- What holds of a size, and of a thousandth of what it holds of, holds of what is settled on.
theorem settle_invariant {P : Nat → Nat → Prop}
    (step : ∀ rank unit : Nat, edge ≤ rank → P rank unit → P (thousandth rank) (unit + 1)) (start : P rank unit) :
    P (settle edge larger rank unit).1 (settle edge larger rank unit).2 := by
  induction larger generalizing rank unit with
  | zero => exact start
  | succ larger ih =>
    unfold settle
    split
    · next reached => exact ih (step rank unit reached start)
    · exact start

theorem settle_stops (larger rank unit : Nat) : (settle edge larger rank unit).2 ≤ unit + larger ∧
    ((settle edge larger rank unit).2 = unit + larger ∨ (settle edge larger rank unit).1 < edge) := by
  induction larger generalizing rank unit with
  | zero => exact ⟨Nat.le_refl _, .inl rfl⟩
  | succ larger ih =>
    unfold settle
    split
    · have room : unit + 1 + larger = unit + (larger + 1) := by omega
      rw [← room]
      exact ih (thousandth rank) (unit + 1)
    · next below => exact ⟨Nat.le_add_right .., .inr (Nat.lt_of_not_le below)⟩

-- A larger size settles on a larger unit, or on no less in the same unit.
theorem settle_mono (larger unit : Nat) (less : rank ≤ other) :
    (settle edge larger rank unit).2 < (settle edge larger other unit).2 ∨
      (settle edge larger rank unit).2 = (settle edge larger other unit).2 ∧
        (settle edge larger rank unit).1 ≤ (settle edge larger other unit).1 := by
  induction larger generalizing rank other unit with
  | zero => exact .inr ⟨rfl, less⟩
  | succ larger ih =>
    unfold settle
    by_cases reached : edge ≤ rank
    · rw [if_pos reached, if_pos (Nat.le_trans reached less)]
      exact ih (unit + 1) (thousandth_mono less)
    · rw [if_neg reached]
      split
      · exact .inl (settle_unit_le larger _ (unit + 1))
      · exact .inr ⟨rfl, less⟩

theorem scaled_settle (isEdge : Edge edge) (fits : b < twoTo 64) : scaled b =
    (ofRank false (settle edge 5 (whole b) 0).1, (settle edge 5 (whole b) 0).2) :=
  promote_climb isEdge 5 (whole_inside fits) rfl

-- What a label of a thousand bytes or more settles on, for the unit after the first.
structure Settled (edge : Nat) (b rank unit : Nat) : Prop where
  outcome : settle edge 5 (whole b) 0 = (rank, unit + 1)
  room : unit ≤ 4
  least : 10 ≤ tenths rank
  most : unit = 4 ∨ tenths rank ≤ 9999
  close : 2 ^ 50 * (units rank * 1000 ^ (unit + 1)) ≤ (2 ^ 50 + 1) * (b * unitsPerOne) ∧
    2 ^ 50 * (b * unitsPerOne) ≤ (2 ^ 50 + 1) * (units rank * 1000 ^ (unit + 1))

theorem tenths_of_large (large : 31 * unitsPerOne ≤ 32 * units rank) : 10 ≤ tenths rank := by
  have near := (roundQuotient_near (units rank * 10) unitsPerOne unitsPerOne_pos).1
  by_contra few
  have less := Nat.mul_le_mul_right unitsPerOne (Nat.le_of_lt_succ (Nat.lt_of_not_le few))
  have positive := unitsPerOne_pos
  unfold tenths at less
  linarith

theorem normal_of_large (large : 31 * unitsPerOne ≤ 32 * units rank) : twoTo 52 < rank := by
  have wide : 32 * twoTo 52 < unitsPerOne := by
    rw [← show twoTo 5 = 32 from rfl, ← twoTo_add]
    exact twoTo_lt (by decide)
  apply normal_of_lt
  linarith

theorem thousandth_within (isEdge : Edge edge) (reached : edge ≤ rank)
    (within : Within (unit + 1) (units rank * 1000 ^ unit) (b * unitsPerOne)) :
    Within (unit + 2) (units (thousandth rank) * 1000 ^ (unit + 1)) (b * unitsPerOne) := by
  have normal := normal_of_large (isEdge.thousandth_large reached)
  have divided := (nearest_within (nearest_thousandth rank) normal).scale (1000 ^ unit)
  have together := divided.trans within
  rw [Nat.mul_assoc, ← Nat.pow_succ', Nat.add_comm 1] at together
  exact together

theorem exists_settled (isEdge : Edge edge) (large : 1000 ≤ b) : ∃ rank unit, Settled edge b rank unit := by
  have thousand : 1000 * unitsPerOne ≤ units (whole b) := by
    obtain ⟨bound, _, exact⟩ := ofNat_exact (n := 1000) (by decide)
    rw [← exact]
    apply units_le
    apply nearest_le Nat.one_pos Nat.one_pos _ (nearest_self bound Nat.one_pos) (nearest_whole b)
    have more := Nat.mul_le_mul_right unitsPerOne large
    rw [exact]
    linarith
  have reached := isEdge.le_of_thousand thousand
  have positive := unitsPerOne_pos
  have start : Within 1 (units (whole b) * 1000 ^ 0) (b * unitsPerOne) :=
    nearest_within (nearest_whole b) (normal_of_large (by linarith))
  have first : settle edge 5 (whole b) 0 = settle edge 4 (thousandth (whole b)) 1 := if_pos reached
  obtain ⟨within, most⟩ := @settle_stops edge 4 (thousandth (whole b)) 1
  have least := @settle_unit_le edge 4 (thousandth (whole b)) 1
  obtain ⟨drift, kept⟩ := @settle_invariant (thousandth (whole b)) 4 1 edge
    (fun rank unit => Within (unit + 1) (units rank * 1000 ^ unit) (b * unitsPerOne) ∧
      31 * unitsPerOne ≤ 32 * units rank)
    (fun rank unit reached held => ⟨thousandth_within isEdge reached held.1, isEdge.thousandth_large reached⟩)
    ⟨thousandth_within isEdge reached start, isEdge.thousandth_large reached⟩
  rw [← first] at within most least drift kept
  rcases outcome : settle edge 5 (whole b) 0 with ⟨rank, unit⟩
  rw [outcome] at within most least drift kept
  obtain ⟨unit, rfl⟩ : ∃ less, unit = less + 1 := Nat.exists_eq_add_one.mpr least
  refine ⟨rank, unit, outcome, Nat.le_of_succ_le_succ within, tenths_of_large kept, ?_, drift.close (by omega)⟩
  rcases most with last | below
  · exact .inl (Nat.succ.inj last)
  · exact .inr (isEdge.tenths_lt below)

-- What a label says: a number of bytes, or a number with one decimal place of a larger unit.
inductive Caption where
  | bytes (count : Nat)
  | scaled (whole : Nat) (tenth : Fin 10) (unit : Fin 5)
deriving DecidableEq, Repr

namespace Caption

def unitText : Fin 5 → String
  | 0 => "KB"
  | 1 => "MB"
  | 2 => "GB"
  | 3 => "TB"
  | 4 => "PB"

def text : Caption → String
  | .bytes count => toString count ++ " B"
  | .scaled whole tenth unit => toString whole ++ "." ++ toString tenth.val ++ " " ++ unitText unit

-- How many bytes that is. A tenth of the first unit is a hundred bytes.
def size : Caption → Nat
  | .bytes count => count
  | .scaled whole tenth unit => (10 * whole + tenth) * 100 * 1000 ^ unit.val

theorem toDigits_inj {m n : Nat} (same : Nat.toDigits 10 m = Nat.toDigits 10 n) : m = n := by
  have read := congrArg (fun digits => Nat.ofDigitChars 10 digits 0) same
  simpa using read

-- A number ends where something else than a digit comes.
theorem digits_end {cs ds xs ys : List Char} {x y : Char} (front : Json.Digits cs) (other : Json.Digits ds)
    (stop : x.isDigit = false) (stop' : y.isDigit = false) (same : cs ++ x :: xs = ds ++ y :: ys) :
    cs = ds ∧ x :: xs = y :: ys := by
  induction cs generalizing ds with
  | nil =>
    cases ds with
    | nil => exact ⟨rfl, same⟩
    | cons d ds =>
      have digit := other.head
      rw [← (List.cons.inj same).1, stop] at digit
      cases digit
  | cons c cs ih =>
    cases ds with
    | nil =>
      have digit := front.head
      rw [(List.cons.inj same).1, stop'] at digit
      cases digit
    | cons d ds =>
      obtain ⟨rfl, rest⟩ := List.cons.inj same
      obtain ⟨rfl, behind⟩ := ih front.tail other.tail rest
      exact ⟨rfl, behind⟩

theorem number_end {m n : Nat} {xs ys : List Char} {x y : Char} (stop : x.isDigit = false) (stop' : y.isDigit = false)
    (same : Nat.toDigits 10 m ++ x :: xs = Nat.toDigits 10 n ++ y :: ys) : m = n ∧ x :: xs = y :: ys := by
  obtain ⟨digits, behind⟩ := digits_end (Json.digits_toDigits m) (Json.digits_toDigits n) stop stop' same
  exact ⟨toDigits_inj digits, behind⟩

theorem toList_bytes (count : Nat) : (bytes count).text.toList = Nat.toDigits 10 count ++ [' ', 'B'] := by
  simp [text]

theorem toList_scaled (whole : Nat) (tenth : Fin 10) (unit : Fin 5) : (scaled whole tenth unit).text.toList =
    Nat.toDigits 10 whole ++ '.' :: (Nat.toDigits 10 tenth ++ ' ' :: (unitText unit).toList) := by
  simp [text]

-- A label can be read in one way only.
theorem text_injective {first second : Caption} (same : first.text = second.text) : first = second := by
  have chars := congrArg String.toList same
  cases first with
  | bytes count =>
    cases second with
    | bytes other =>
      rw [toList_bytes, toList_bytes] at chars
      obtain ⟨rfl, _⟩ := number_end rfl rfl chars
      rfl
    | scaled =>
      rw [toList_bytes, toList_scaled] at chars
      cases (number_end rfl rfl chars).2
  | scaled whole tenth unit =>
    cases second with
    | bytes =>
      rw [toList_bytes, toList_scaled] at chars
      cases (number_end rfl rfl chars).2
    | scaled other place larger =>
      rw [toList_scaled, toList_scaled] at chars
      obtain ⟨rfl, fraction⟩ := number_end rfl rfl chars
      obtain ⟨tenths, names⟩ := number_end rfl rfl (List.cons.inj fraction).2
      have apart : ∀ unit larger : Fin 5, (unitText unit).toList = (unitText larger).toList → unit = larger := by
        decide
      obtain rfl := Fin.ext tenths
      obtain rfl := apart unit larger (List.cons.inj names).2
      rfl

-- So many tenths of a unit.
def ofTenths (tenths : Nat) (unit : Fin 5) : Caption :=
  .scaled (tenths / 10) ⟨tenths % 10, Nat.mod_lt _ (by decide)⟩ unit

theorem size_ofTenths (tenths : Nat) (unit : Fin 5) : (ofTenths tenths unit).size = tenths * 100 * 1000 ^ unit.val := by
  have sum : 10 * (tenths / 10) + tenths % 10 = tenths := Nat.div_add_mod tenths 10
  simp only [ofTenths, size, sum]

end Caption

theorem label_small (small : b < 1000) : label b = (Caption.bytes b).text := if_pos small

theorem label_settled (isEdge : Edge edge) (fits : b < twoTo 64) (large : 1000 ≤ b)
    (settled : Settled edge b rank unit) :
    label b = (Caption.ofTenths (tenths rank) ⟨unit, Nat.lt_succ_of_le settled.room⟩).text := by
  have names : ∀ unit : Fin 5, unitName (unit.val + 1) = Caption.unitText unit := by decide
  have name := names ⟨unit, Nat.lt_succ_of_le settled.room⟩
  have inside : rank < finiteRanks := by
    have below := @settle_le edge 5 (whole b) 0
    rw [settled.outcome] at below
    exact Nat.lt_of_le_of_lt below (whole_inside fits)
  unfold label
  rw [if_neg (Nat.not_lt_of_le large), scaled_settle isEdge fits, settled.outcome]
  dsimp only at name ⊢
  rw [ofRank_finite false inside, name]
  apply String.ext
  simp [tenthsOf, tenthsText, Caption.ofTenths, Caption.text, tenths]

-- Half of a tenth is lost in writing the number, and less than one part in 2^50 before.
theorem Settled.accurate (settled : Settled edge b rank unit) :
    20 * 2 ^ 50 * (tenths rank * 100 * 1000 ^ unit) ≤ 20 * (2 ^ 50 + 1) * b + 2 ^ 50 * 1000 ^ (unit + 1) ∧
    20 * 2 ^ 50 * b ≤ 20 * 2 ^ 50 * (tenths rank * 100 * 1000 ^ unit) + 20 * b + 2 ^ 50 * 1000 ^ (unit + 1) := by
  obtain ⟨low, high⟩ := roundQuotient_near (units rank * 10) unitsPerOne unitsPerOne_pos
  obtain ⟨above, below⟩ := settled.close
  have lowScaled := Nat.mul_le_mul_right (1000 ^ (unit + 1)) low
  have highScaled := Nat.mul_le_mul_right (1000 ^ (unit + 1)) high
  change 2 * (units rank * 10) * _ ≤ (2 * tenths rank + 1) * unitsPerOne * _ at lowScaled
  change 2 * tenths rank * unitsPerOne * _ ≤ (2 * (units rank * 10) + unitsPerOne) * _ at highScaled
  have power : 1000 ^ (unit + 1) = 1000 * 1000 ^ unit := Nat.pow_succ'
  rw [power] at above below lowScaled highScaled ⊢
  constructor
  · apply Nat.le_of_mul_le_mul_right _ unitsPerOne_pos
    linarith
  · have lost : 2 ^ 50 * (b * unitsPerOne) ≤
        2 ^ 50 * (units rank * (1000 * 1000 ^ unit)) + b * unitsPerOne := by
      rcases Nat.le_total (units rank * (1000 * 1000 ^ unit)) (b * unitsPerOne) with less | more
      · linarith
      · linarith
    apply Nat.le_of_mul_le_mul_right _ unitsPerOne_pos
    linarith

structure Told (b : Nat) : Prop where
  small : b < 1000 → label b = toString b ++ " B"
  large : 1000 ≤ b → ∃ whole tenth unit, label b = (Caption.scaled whole tenth unit).text ∧
    1 ≤ whole ∧ (unit ≠ 4 → whole ≤ 999) ∧
    |((Caption.scaled whole tenth unit).size : ℚ) - b| ≤ 0.05 * 1000 ^ (unit.val + 1) + b / 2 ^ 50

theorem told (fits : b < twoTo 64) : Told b := by
  constructor
  case small => exact label_small
  case large =>
    intro large
    obtain ⟨edge, isEdge⟩ := exists_edge
    obtain ⟨rank, unit, settled⟩ := exists_settled isEdge large
    refine ⟨_, _, _, label_settled isEdge fits large settled, ?_, ?_, ?_⟩
    · have least := settled.least
      omega
    · intro notLast
      have most := settled.most.resolve_left fun last => notLast (Fin.ext last)
      omega
    · obtain ⟨above, below⟩ := settled.accurate
      have size := Caption.size_ofTenths (tenths rank) ⟨unit, Nat.lt_succ_of_le settled.room⟩
      dsimp only at size
      rw [← size] at above below
      unfold Caption.ofTenths at above below
      generalize Caption.size _ = said at above below ⊢
      have aboveExact : (20 * 2 ^ 50 * said : ℚ) ≤ 20 * (2 ^ 50 + 1) * b + 2 ^ 50 * 1000 ^ (unit + 1) := by
        exact_mod_cast above
      have belowExact : (20 * 2 ^ 50 * b : ℚ) ≤ 20 * 2 ^ 50 * said + 20 * b + 2 ^ 50 * 1000 ^ (unit + 1) := by
        exact_mod_cast below
      rw [abs_le]
      constructor <;> linarith

theorem Settled.mono {further : Nat} (first : Settled edge a other further) (second : Settled edge b rank unit)
    (less : a ≤ b) : tenths other * 100 * 1000 ^ further ≤ tenths rank * 100 * 1000 ^ unit := by
  have ordered := @settle_mono (whole a) (whole b) edge 5 0 (whole_mono less)
  rw [second.outcome, first.outcome] at ordered
  rcases ordered with below | ⟨same, ranked⟩
  · have few : tenths other ≤ 10000 := by
      have room := second.room
      have most := first.most
      omega
    have least := second.least
    have higher : 1000 ^ (further + 1) ≤ 1000 ^ unit :=
      Nat.pow_le_pow_right (by decide) (Nat.lt_of_succ_lt_succ below)
    calc tenths other * 100 * 1000 ^ further ≤ 10000 * 100 * 1000 ^ further := by gcongr
      _ = 10 * 100 * 1000 ^ (further + 1) := by ring
      _ ≤ 10 * 100 * 1000 ^ unit := Nat.mul_le_mul_left _ higher
      _ ≤ tenths rank * 100 * 1000 ^ unit := by gcongr
  · obtain rfl : further = unit := Nat.succ.inj same
    have more := tenths_mono ranked
    gcongr

-- What a label tells of a larger size is no less, however the two labels are read.
theorem size_mono (less : a ≤ b) (fits : b < twoTo 64) {first second : Caption} (read : first.text = label a)
    (read' : second.text = label b) : first.size ≤ second.size := by
  obtain ⟨edge, isEdge⟩ := exists_edge
  by_cases small : b < 1000
  · rw [label_small small] at read'
    rw [label_small (Nat.lt_of_le_of_lt less small)] at read
    rw [Caption.text_injective read, Caption.text_injective read']
    exact less
  have large := Nat.le_of_not_lt small
  obtain ⟨rank, unit, settled⟩ := exists_settled isEdge large
  rw [label_settled isEdge fits large settled] at read'
  rw [Caption.text_injective read', Caption.size_ofTenths]
  by_cases smaller : a < 1000
  · rw [label_small smaller] at read
    rw [Caption.text_injective read]
    have least := settled.least
    have power : 1 ≤ 1000 ^ unit := Nat.one_le_pow _ _ (by decide)
    calc a ≤ 10 * 100 * 1 := Nat.le_of_lt smaller
      _ ≤ tenths rank * 100 * 1000 ^ unit := by gcongr
  · have larger := Nat.le_of_not_lt smaller
    obtain ⟨other, further, settledFirst⟩ := exists_settled isEdge larger
    rw [label_settled isEdge (Nat.lt_of_le_of_lt less fits) larger settledFirst] at read
    rw [Caption.text_injective read, Caption.size_ofTenths]
    exact settledFirst.mono settled less

theorem label_faithful :
    (∀ b : UInt64, Told b.toNat) ∧
    ∀ (a b : UInt64) (first second : Caption), a ≤ b → first.text = label a.toNat → second.text = label b.toNat →
      first.size ≤ second.size := by
  constructor
  · intro b
    exact told b.toNat_lt
  · intro a b first second less read read'
    exact size_mono (UInt64.le_iff_toNat_le.mp less) b.toNat_lt read read'

-- From 999.95 terabytes on a petabyte is shown, and a label of a byte less says a tenth of a terabyte less than that.
theorem labels_at_edge : (1000 ≤ 999949999999999 ∧ Told 999949999999999) ∧
    label 999949999999999 = (Caption.scaled 999 9 3).text ∧ label 999950000000000 = (Caption.scaled 1 0 4).text ∧
    (Caption.scaled 999 9 3).size ≤ (Caption.scaled 1 0 4).size := by
  obtain ⟨each, ordered⟩ := label_faithful
  have before : label 999949999999999 = (Caption.scaled 999 9 3).text := by decide +kernel
  have behind : label 999950000000000 = (Caption.scaled 1 0 4).text := by decide +kernel
  exact ⟨⟨by decide, each 999949999999999⟩, before, behind,
    ordered 999949999999999 999950000000000 _ _ (by decide) before.symm behind.symm⟩

end DiskGauge.Size
