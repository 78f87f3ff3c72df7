import DiskGauge.Number.Decimal

namespace DiskGauge.Double

def decimalDigit? (c : Char) : Option Nat :=
  if '0' ≤ c && c ≤ '9' then some (c.toNat - 0x30) else none

def takeDigits : Nat → Nat → List Char → Nat × Nat × List Char
  | value, count, [] => (value, count, [])
  | value, count, c :: rest =>
    match decimalDigit? c with
    | some d => takeDigits (value * 10 + d) (count + 1) rest
    | none => (value, count, c :: rest)

def readSign : List Char → Bool × List Char
  | '-' :: rest => (true, rest)
  | '+' :: rest => (false, rest)
  | rest => (false, rest)

def readExponent? : List Char → Option Int
  | [] => some 0
  | c :: rest =>
    if c = 'e' || c = 'E' then
      let (negative, rest) := readSign rest
      let (value, count, rest) := takeDigits 0 0 rest
      if count = 0 || !rest.isEmpty then none
      else some (if negative then -(value : Int) else value)
    else none

def readMagnitude? (negative : Bool) (text : List Char) : Option Double :=
  let (whole, wholeCount, rest) := takeDigits 0 0 text
  let (digits, places, rest) := match rest with
    | '.' :: rest => takeDigits whole 0 rest
    | rest => (whole, 0, rest)
  if wholeCount + places = 0 then none
  else (readExponent? rest).map fun exponent => ofDecimal negative digits (exponent - places)

def ofChars? (text : List Char) : Option Double :=
  let (negative, rest) := readSign text
  let name := String.ofList (rest.map Char.toLower)
  if name = "inf" || name = "infinity" then some (.infinite negative)
  else if name = "nan" then some .nan
  else readMagnitude? negative rest

def ofText? (text : String) : Option Double := ofChars? text.toList

end DiskGauge.Double
