import DiskGauge.Toml.Scan

namespace DiskGauge.Toml

-- An underscore counts only between two digits.
def takeDigits (base value count : Nat) : List Char → Nat × Nat × List Char
  | [] => (value, count, [])
  | c :: rest =>
    match digit? c with
    | some d => takeDigits base (value * base + d) (count + 1) rest
    | none =>
      if c = '_' && 0 < count && startsWithDigit rest then takeDigits base value count rest
      else (value, count, c :: rest)
where
  digit? (c : Char) : Option Nat := (hexDigit? c).filter (· < base)
  startsWithDigit : List Char → Bool
    | c :: _ => (digit? c).isSome
    | [] => false

def readDigits (base : Nat) : Reader (Nat × Nat) := fun text =>
  let (value, count, rest) := takeDigits base 0 0 text
  if count = 0 then none else some ((value, count), rest)

def readSign : List Char → Option Bool × List Char
  | '-' :: rest => (some true, rest)
  | '+' :: rest => (some false, rest)
  | rest => (none, rest)

def readWhole : Reader (Option Bool × Nat) := fun text =>
  let (sign, rest) := readSign text
  match rest with
  | '0' :: rest => some ((sign, 0), rest)
  | rest => (readDigits 10 rest).map fun ((value, _), rest) => ((sign, value), rest)

def readExponent : Reader Int
  | c :: rest =>
    if c = 'e' || c = 'E' then
      let (sign, rest) := readSign rest
      (readDigits 10 rest).map fun ((value, _), rest) =>
        (if sign = some true then -(value : Int) else value, rest)
    else none
  | [] => none

def readDecimal : Reader Double := fun text => do
  let ((sign, whole), rest) ← readWhole text
  let negative := sign = some true
  match rest with
  | '.' :: rest => do
    let ((_, places), _) ← readDigits 10 rest
    let (value, _, rest) := takeDigits 10 whole 0 rest
    let (exponent, rest) := (readExponent rest).getD (0, rest)
    return (Double.ofDecimal negative value (exponent - places), rest)
  | rest => do
    let (exponent, rest) ← readExponent rest
    return (Double.ofDecimal negative whole exponent, rest)

def afterWord? (word : List Char) (text : List Char) : Option (List Char) :=
  if word.isPrefixOf text then some (text.drop word.length) else none

def readNamedFloat : Reader Double := fun text =>
  let (sign, rest) := readSign text
  match afterWord? ['i', 'n', 'f'] rest with
  | some rest => some (.infinite (sign = some true), rest)
  | none => (afterWord? ['n', 'a', 'n'] rest).map fun rest => (.nan, rest)

def readFloat : Reader Double := fun text =>
  match readDecimal text with
  | some (x, rest) => if x = .infinite false then none else some (x, rest)
  | none => readNamedFloat text

-- An integer in 64 bits; only decimal ones have a sign.
def readInteger : Reader Int := fun text => do
  let (value, rest) ← match text with
    | '0' :: 'x' :: rest => based 16 rest
    | '0' :: 'o' :: rest => based 8 rest
    | '0' :: 'b' :: rest => based 2 rest
    | text => (readWhole text).map fun ((sign, value), rest) =>
        (if sign = some true then -(value : Int) else value, rest)
  if -(twoTo 63 : Int) ≤ value && value < twoTo 63 then return (value, rest) else none
where
  based (base : Nat) : Reader Int := fun text =>
    (readDigits base text).map fun ((value, _), rest) => ((value : Int), rest)

def readField (width first last : Nat) : Reader Nat := fun text => do
  let digits := text.take width
  if digits.length < width || !digits.all Char.isDigit then none
  else
    let value := digits.foldl (fun value c => value * 10 + (c.toNat - 0x30)) 0
    if first ≤ value && value ≤ last then return (value, text.drop width) else none

def expect (c : Char) : Reader Unit
  | d :: rest => if d = c then some ((), rest) else none
  | [] => none

def isLeapYear (year : Nat) : Bool := year % 4 = 0 && (year % 100 ≠ 0 || year % 400 = 0)

def daysIn (year month : Nat) : Nat :=
  if month = 2 then if isLeapYear year then 29 else 28
  else if month = 4 || month = 6 || month = 9 || month = 11 then 30
  else 31

def skipDate (text : List Char) : Option (List Char) := do
  let (year, rest) ← readField 4 0 9999 text
  let (_, rest) ← expect '-' rest
  let (month, rest) ← readField 2 1 12 rest
  let (_, rest) ← expect '-' rest
  let (day, rest) ← readField 2 1 31 rest
  if day ≤ daysIn year month then return rest else none

-- A leap second is a second.
def skipTime (text : List Char) : Option (List Char) := do
  let (_, rest) ← readField 2 0 23 text
  let (_, rest) ← expect ':' rest
  let (_, rest) ← readField 2 0 59 rest
  let (_, rest) ← expect ':' rest
  let (_, rest) ← readField 2 0 60 rest
  match rest with
  | '.' :: rest =>
    if (rest.takeWhile Char.isDigit).isEmpty then none else return rest.dropWhile Char.isDigit
  | rest => return rest

def skipOffset : List Char → Option (List Char)
  | [] => none
  | c :: rest =>
    if c = 'Z' || c = 'z' then some rest
    else if c = '+' || c = '-' then do
      let (_, rest) ← readField 2 0 23 rest
      let (_, rest) ← expect ':' rest
      let (_, rest) ← readField 2 0 59 rest
      return rest
    else none

def skipMoment (text : List Char) : Option (List Char) :=
  match skipDate text with
  | none => skipTime text
  | some rest =>
    match rest with
    | [] => some []
    | c :: more =>
      if c = 'T' || c = 't' || c = ' ' then
        match skipTime more with
        | some after => some ((skipOffset after).getD after)
        | none => some rest
      else some rest

def readFigure : Reader Item := fun text =>
  match skipMoment text with
  | some rest => some (.moment, rest)
  | none =>
    match readFloat text with
    | some (x, rest) => some (.float x, rest)
    | none => (readInteger text).map fun (value, rest) => (.integer value, rest)

end DiskGauge.Toml
