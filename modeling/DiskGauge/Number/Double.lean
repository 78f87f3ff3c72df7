namespace DiskGauge

def twoTo (exponent : Nat) : Nat := Nat.pow 2 exponent

def tenTo (exponent : Nat) : Nat := Nat.pow 10 exponent

theorem twoTo_pos (e : Nat) : 0 < twoTo e := Nat.pow_pos (by decide)

theorem twoTo_add (a b : Nat) : twoTo (a + b) = twoTo a * twoTo b := Nat.pow_add ..

theorem twoTo_succ (e : Nat) : twoTo (e + 1) = 2 * twoTo e := Nat.pow_succ'

theorem twoTo_le {a b : Nat} (less : a ≤ b) : twoTo a ≤ twoTo b := Nat.pow_le_pow_right (by decide) less

theorem twoTo_lt {a b : Nat} (less : a < b) : twoTo a < twoTo b := Nat.pow_lt_pow_right (by decide) less

theorem tenTo_pos (e : Nat) : 0 < tenTo e := Nat.pow_pos (by decide)

theorem tenTo_add (a b : Nat) : tenTo (a + b) = tenTo a * tenTo b := Nat.pow_add ..

theorem tenTo_succ (e : Nat) : tenTo (e + 1) = 10 * tenTo e := Nat.pow_succ'

theorem tenTo_le {a b : Nat} (less : a ≤ b) : tenTo a ≤ tenTo b := Nat.pow_le_pow_right (by decide) less

-- A tie goes to the even neighbour.
def roundQuotient (num den : Nat) : Nat :=
  let low := num / den
  let twice := 2 * (num % den)
  if twice < den then low
  else if den < twice then low + 1
  else low + low % 2

-- A tie goes up.
def roundQuotientUp (num den : Nat) : Nat := (2 * num + den) / (2 * den)

def finiteRanks : Nat := 2047 * twoTo 52

-- A finite double is a sign and a rank: the doubles that are not negative, counted upwards from zero.
inductive Double where
  | finite (negative : Bool) (rank : Fin finiteRanks)
  | infinite (negative : Bool)
  | nan
deriving DecidableEq, Repr

namespace Double

-- Ranks below 2^52 are spaced one unit apart, and each further block of 2^52 ranks twice as far
-- apart as the block before.
def significand (rank : Nat) : Nat :=
  if rank < twoTo 52 then rank else twoTo 52 + rank % twoTo 52

def scale (rank : Nat) : Nat :=
  if rank < twoTo 52 then 0 else rank / twoTo 52 - 1

-- The magnitude at a rank, in units of 2^-1074.
def units (rank : Nat) : Nat := significand rank * twoTo (scale rank)

def unitsPerOne : Nat := twoTo 1074

theorem unitsPerOne_pos : 0 < unitsPerOne := twoTo_pos 1074

-- Carrying out of the significand lands on the first rank of the next block, so the sum needs no correction.
def nearestRank (num den : Nat) : Nat :=
  let shift := (num / den).log2 - 52
  shift * twoTo 52 + roundQuotient num (den * twoTo shift)

def ofRank (negative : Bool) (rank : Nat) : Double :=
  if h : rank < finiteRanks then .finite negative ⟨rank, h⟩ else .infinite negative

def ofUnits (negative : Bool) (num den : Nat) : Double :=
  ofRank negative (nearestRank num den)

def ofQuotient (negative : Bool) (num den : Nat) : Double :=
  ofUnits negative (num * unitsPerOne) den

def ofNat (n : Nat) : Double := ofQuotient false n 1

def ofInt (i : Int) : Double := ofQuotient (i < 0) i.natAbs 1

def signedZero (negative : Bool) : Double := .finite negative ⟨0, by decide⟩

def zero : Double := signedZero false

def isFinite : Double → Bool
  | .finite .. => true
  | _ => false

def neg : Double → Double
  | .finite s r => .finite (!s) r
  | .infinite s => .infinite (!s)
  | .nan => .nan

def isZero : Double → Bool
  | .finite _ r => r.val == 0
  | _ => false

def mul : Double → Double → Double
  | .nan, _ => .nan
  | _, .nan => .nan
  | .infinite s, .infinite t => .infinite (s != t)
  | .infinite s, .finite t r => if r.val = 0 then .nan else .infinite (s != t)
  | .finite s r, .infinite t => if r.val = 0 then .nan else .infinite (s != t)
  | .finite s a, .finite t b => ofUnits (s != t) (units a * units b) unitsPerOne

def div : Double → Double → Double
  | .nan, _ => .nan
  | _, .nan => .nan
  | .infinite _, .infinite _ => .nan
  | .infinite s, .finite t _ => .infinite (s != t)
  | .finite s _, .infinite t => signedZero (s != t)
  | .finite s a, .finite t b =>
    if b.val = 0 then
      if a.val = 0 then .nan else .infinite (s != t)
    else ofQuotient (s != t) (units a) (units b)

instance : Neg Double := ⟨neg⟩
instance : Mul Double := ⟨mul⟩
instance : Div Double := ⟨div⟩

def signedUnits (negative : Bool) (rank : Nat) : Int :=
  if negative then -(units rank : Int) else units rank

-- Both zeros are equal, and nothing compares with a NaN.
def le : Double → Double → Bool
  | .nan, _ => false
  | _, .nan => false
  | .infinite s, .infinite t => s || !t
  | .infinite s, .finite .. => s
  | .finite .., .infinite t => !t
  | .finite s a, .finite t b => signedUnits s a ≤ signedUnits t b

def lt (a b : Double) : Bool := le a b && !le b a

def eq (a b : Double) : Bool := le a b && le b a

-- The nearest whole number, a half going away from zero.
def round : Double → Double
  | .finite s r => ofQuotient s (roundQuotientUp (units r) unitsPerOne) 1
  | x => x

-- A negative number and a NaN give zero, and what is too large gives the largest number.
def toNatClamped (limit : Nat) : Double → Nat
  | .finite false r => min limit (units r / unitsPerOne)
  | .finite true _ => 0
  | .infinite false => limit
  | .infinite true => 0
  | .nan => 0

end Double

theorem roundQuotient_near (num den : Nat) (positive : 0 < den) :
    2 * num ≤ (2 * roundQuotient num den + 1) * den ∧
      2 * (roundQuotient num den) * den ≤ 2 * num + den := by
  have split := Nat.div_add_mod num den
  have small := Nat.mod_lt num positive
  rw [Nat.mul_comm] at split
  unfold roundQuotient
  dsimp only
  split
  · constructor <;> grind
  · split
    · constructor <;> grind
    · have even := Nat.mod_lt (num / den) (show 0 < 2 by decide)
      rcases (show num / den % 2 = 0 ∨ num / den % 2 = 1 by omega) with h | h <;> rw [h] <;>
        constructor <;> grind

theorem roundQuotient_tie (num den : Nat) (tie : 2 * (num % den) = den) :
    roundQuotient num den % 2 = 0 := by
  simp only [roundQuotient, tie, Nat.lt_irrefl, ite_false]
  omega

end DiskGauge
