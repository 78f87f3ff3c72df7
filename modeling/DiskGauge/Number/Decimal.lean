import DiskGauge.Number.Double

namespace DiskGauge

namespace Double

-- Exponents far outside the range are settled before any power is taken: the product is above 10^400 or below 10^-399.
def ofDecimal (negative : Bool) (digits : Nat) (exponent : Int) : Double :=
  if digits = 0 then signedZero negative
  else if 400 < exponent then .infinite negative
  else if exponent < -(400 + digits.log2 : Int) then signedZero negative
  else if 0 ≤ exponent then ofQuotient negative (digits * tenTo exponent.toNat) 1
  else ofQuotient negative digits (tenTo (-exponent).toNat)

end Double

-- Of two equally near decimals with the same number of digits, which one is written.
inductive Tie where
  | even
  | up
deriving DecidableEq, Repr

-- A decimal is digits × 10^exponent.
structure Decimal where
  digits : Nat
  exponent : Int
deriving DecidableEq, Repr

namespace Decimal
open Double

-- Comparing a grid point with a double, both sides are multiplied until they are whole.
def above (exponent : Int) : Nat := tenTo exponent.toNat * unitsPerOne
def below (exponent : Int) : Nat := tenTo (-exponent).toNat

-- Whether a decimal rounds to the double at this rank: it lies between the midpoints to the two
-- neighbours, and a midpoint itself counts exactly when the rank is even.
def ReadsAs (d : Decimal) (rank : Nat) : Prop :=
  let point := 2 * d.digits * above d.exponent
  let lower := (units (rank - 1) + units rank) * below d.exponent
  let upper := (units rank + units (rank + 1)) * below d.exponent
  if rank % 2 = 0 then lower ≤ point ∧ point ≤ upper else lower < point ∧ point < upper

instance (d : Decimal) (rank : Nat) : Decidable (d.ReadsAs rank) := by
  unfold ReadsAs; dsimp only; infer_instance

-- Of the two neighbours on the grid that read back to the double, the nearer.
def onGrid? (tie : Tie) (rank : Nat) (exponent : Int) : Option Decimal :=
  let low := units rank * below exponent / above exponent
  let twice := 2 * units rank * below exponent
  let middle := (2 * low + 1) * above exponent
  let down : Decimal := ⟨low, exponent⟩
  let up : Decimal := ⟨low + 1, exponent⟩
  if down.ReadsAs rank then
    if up.ReadsAs rank then
      if twice < middle then some down
      else if middle < twice then some up
      else match tie with
        | .up => some up
        | .even => if low % 2 = 0 then some down else some up
    else some down
  else if up.ReadsAs rank then some up
  else none

def search (tie : Tie) (rank : Nat) : Nat → Int → Decimal
  | 0, exponent => ⟨units rank * below exponent / above exponent, exponent⟩
  | tries + 1, exponent =>
    match onGrid? tie rank exponent with
    | some d => d
    | none => search tie rank tries (exponent - 1)

def digitCount (n : Nat) : Nat := (Nat.toDigits 10 n).length

def startExponent (rank : Nat) : Int :=
  let whole := units rank / unitsPerOne
  if whole = 0 then 1 - (digitCount (unitsPerOne / units rank) : Int) else digitCount whole

-- Seventeen digits always suffice, and the search starts at most two grids above the leading digit.
def shortest (tie : Tie) (rank : Nat) : Decimal :=
  search tie rank 20 (startExponent rank)

end Decimal

-- The leading digit of a number stands at a place: the units are place 1, the tenths place 0. Outside of the positional
-- places an exponent is written, always with its sign.
structure Layout where
  tie : Tie
  -- Whole numbers end in ".0".
  wholeMark : Bool
  -- The first and the last place that are written without an exponent; none if all are.
  positional : Option (Int × Int)

namespace Layout

def plain : Layout := ⟨.up, false, none⟩

def marked : Layout := ⟨.up, true, none⟩

def json : Layout := ⟨.even, true, some (-4, 16)⟩

def isPositional (layout : Layout) (place : Int) : Bool :=
  match layout.positional with
  | none => true
  | some (first, last) => first ≤ place && place ≤ last

def positionalText (layout : Layout) (digits : List Char) (exponent : Int) : List Char :=
  let place := digits.length + exponent
  if 0 ≤ exponent then
    digits ++ List.replicate exponent.toNat '0' ++ (if layout.wholeMark then ['.', '0'] else [])
  else if 0 < place then
    digits.take place.toNat ++ '.' :: digits.drop place.toNat
  else '0' :: '.' :: (List.replicate (-place).toNat '0' ++ digits)

def exponentText (exponent : Int) : List Char :=
  'e' :: (if exponent < 0 then '-' else '+') :: Nat.toDigits 10 exponent.natAbs

def scientificText (digits : List Char) (exponent : Int) : List Char :=
  let power := exponentText (digits.length + exponent - 1)
  match digits with
  | [] => power
  | [d] => d :: power
  | d :: rest => d :: '.' :: (rest ++ power)

def magnitude (layout : Layout) (rank : Nat) : List Char :=
  if rank = 0 then layout.positionalText ['0'] 0
  else
    let d := Decimal.shortest layout.tie rank
    let digits := Nat.toDigits 10 d.digits
    if layout.isPositional (digits.length + d.exponent) then layout.positionalText digits d.exponent
    else scientificText digits d.exponent

-- A negative zero has its sign, too.
def chars (layout : Layout) : Double → List Char
  | .finite negative rank => (if negative then ['-'] else []) ++ layout.magnitude rank
  | .infinite negative => (if negative then ['-'] else []) ++ ['i', 'n', 'f']
  | .nan => ['N', 'a', 'N']

def text (layout : Layout) (x : Double) : String := String.ofList (layout.chars x)

end Layout

-- Rounded to one decimal place from the exact magnitude, with ties to even.
def tenthsText (rank : Nat) : List Char :=
  let tenths := roundQuotient (Double.units rank * 10) Double.unitsPerOne
  Nat.toDigits 10 (tenths / 10) ++ '.' :: Nat.toDigits 10 (tenths % 10)

end DiskGauge
