import DiskGauge.Json.Fault

namespace DiskGauge.Json

def isBlank (b : UInt8) : Bool := b = 0x20 || b = 0x0A || b = 0x09 || b = 0x0D

def skipBlanks : Bytes → Bytes
  | [] => []
  | b :: rest => if isBlank b then skipBlanks rest else b :: rest

def isDigit (b : UInt8) : Bool := 0x30 ≤ b && b ≤ 0x39

def digitValue (b : UInt8) : Nat := b.toNat - 0x30

def startsWithDigit : Bytes → Bool
  | b :: _ => isDigit b
  | [] => false

def readWord : Bytes → Bytes → Except Stop Bytes
  | [], rest => .ok rest
  | _ :: _, [] => stopAt .valueEnds []
  | expected :: word, b :: rest =>
    if b = expected then readWord word rest else stopAt .identExpected rest

def wordNull : Bytes := [0x75, 0x6C, 0x6C]
def wordTrue : Bytes := [0x72, 0x75, 0x65]
def wordFalse : Bytes := [0x61, 0x6C, 0x73, 0x65]

def hexValue? (b : UInt8) : Option Nat :=
  if isDigit b then some (digitValue b)
  else if 0x61 ≤ b && b ≤ 0x66 then some (b.toNat - 0x61 + 10)
  else if 0x41 ≤ b && b ≤ 0x46 then some (b.toNat - 0x41 + 10)
  else none

def readHex4 (rest : Bytes) : Except Stop Nat :=
  match rest with
  | a :: b :: c :: d :: rest =>
    match hexValue? a, hexValue? b, hexValue? c, hexValue? d with
    | some a, some b, some c, some d => .ok (((a * 16 + b) * 16 + c) * 16 + d)
    | _, _, _, _ => stopAt .badEscape rest
  | _ => stopAt .stringEnds []

def simpleEscape? (b : UInt8) : Option UInt8 :=
  if b = 0x22 || b = 0x5C || b = 0x2F then some b
  else if b = 0x62 then some 0x08
  else if b = 0x66 then some 0x0C
  else if b = 0x6E then some 0x0A
  else if b = 0x72 then some 0x0D
  else if b = 0x74 then some 0x09
  else none

def readLowSurrogate (high : Nat) : Bytes → Except Stop Char
  | [] => stopAt .stringEnds []
  | b :: rest =>
    if b ≠ 0x5C then stopAt .hexEscapeEnds rest
    else match rest with
      | [] => stopAt .stringEnds []
      | u :: rest =>
        if u ≠ 0x75 then stopAt .hexEscapeEnds rest
        else do
          let low ← readHex4 rest
          if low < 0xDC00 || 0xDFFF < low then stopAt .loneSurrogate (rest.drop 4)
          else return Char.ofNat ((high - 0xD800) * 0x400 + (low - 0xDC00) + 0x10000)

-- An escape after its backslash: the bytes it stands for, and how many bytes spell it.
def readEscape : Bytes → Except Stop (Bytes × Nat)
  | [] => stopAt .stringEnds []
  | b :: rest =>
    match simpleEscape? b with
    | some c => .ok ([c], 1)
    | none =>
      if b ≠ 0x75 then stopAt .badEscape rest
      else do
        let code ← readHex4 rest
        if 0xDC00 ≤ code && code ≤ 0xDFFF then stopAt .loneSurrogate (rest.drop 4)
        else if code < 0xD800 || 0xDBFF < code then return (Utf8.encode [Char.ofNat code], 5)
        else do
          let c ← readLowSurrogate code (rest.drop 4)
          return (Utf8.encode [c], 11)

-- So many bytes as the number says belong to an escape that was already read.
def readStringOnto (read : Bytes) : Nat → Reader String
  | _, [] => stopAt .stringEnds []
  | skip + 1, _ :: rest => readStringOnto read skip rest
  | 0, b :: rest =>
    if b = 0x22 then
      match Utf8.string? read.reverse with
      | some s => .ok (s, rest)
      | none => stopAt .badCodePoint (b :: rest)
    else if b = 0x5C then
      match readEscape rest with
      | .ok (bytes, width) => readStringOnto (bytes.reverse ++ read) width rest
      | .error stop => .error stop
    else if b < 0x20 then stopAt .controlCharacter rest
    else readStringOnto (b :: read) 0 rest

def readString : Reader String := readStringOnto [] 0

inductive Number where
  | integer (value : Int)
  | float (value : Double)
deriving DecidableEq, Repr

def takeFitting : Nat → Nat → Bytes → Nat × Nat × Bytes
  | value, count, [] => (value, count, [])
  | value, count, b :: rest =>
    if isDigit b && value * 10 + digitValue b < twoTo 64 then
      takeFitting (value * 10 + digitValue b) (count + 1) rest
    else (value, count, b :: rest)

def dropDigits : Nat → Bytes → Nat × Bytes
  | count, [] => (count, [])
  | count, b :: rest => if isDigit b then dropDigits (count + 1) rest else (count, b :: rest)

-- Power after power, so the result is not always the nearest double. Powers above 10^308 are taken in steps of that
-- size; after two of them nothing is left of any significand.
def scaled? : Nat → Double → Int → Option Double
  | steps, x, exponent =>
    if exponent.natAbs ≤ 308 then
      let power := Double.ofDecimal false 1 exponent.natAbs
      if 0 ≤ exponent then
        let product := x * power
        if product.isFinite then some product else none
      else some (x / power)
    else if x.isZero then some x
    else if 0 ≤ exponent then none
    else match steps with
      | 0 => some x
      | steps + 1 => scaled? steps (x / Double.ofDecimal false 1 308) (exponent + 308)

def finishFloat (negative : Bool) (significand : Nat) (exponent : Int) : Reader Number :=
  fun rest =>
    match scaled? 3 (Double.ofNat significand) exponent with
    | some x => .ok (.float (if negative then -x else x), rest)
    | none => stopAt .numberOutOfRange rest

-- An exponent beyond 31 bits is either out of range or leaves nothing.
def readExponentDigits (negative : Bool) (significand : Nat) (start : Int) (down : Bool) :
    Nat → Reader Number
  | exponent, [] => finishFloat negative significand
      (if down then start - exponent else start + exponent) []
  | exponent, b :: rest =>
    if isDigit b then
      if exponent * 10 + digitValue b < twoTo 31 then
        readExponentDigits negative significand start down (exponent * 10 + digitValue b) rest
      else if significand ≠ 0 && !down then stopAt .numberOutOfRange rest
      else .ok (.float (if negative then -Double.zero else Double.zero), (dropDigits 0 rest).2)
    else finishFloat negative significand
      (if down then start - exponent else start + exponent) (b :: rest)

def readExponent (negative : Bool) (significand : Nat) (start : Int) : Reader Number := fun rest =>
  let (down, rest) := match rest with
    | b :: more => if b = 0x2B then (false, more) else if b = 0x2D then (true, more) else (false, rest)
    | [] => (false, rest)
  match rest with
  | [] => stopAt .valueEnds []
  | b :: more =>
    if isDigit b then readExponentDigits negative significand start down (digitValue b) more
    else stopAt .badNumber more

def readTail (negative : Bool) (significand : Nat) (exponent : Int) : Reader Number
  | b :: rest =>
    if b = 0x65 || b = 0x45 then readExponent negative significand exponent rest
    else finishFloat negative significand exponent (b :: rest)
  | [] => finishFloat negative significand exponent []

-- Digits that do not fit any more are read and dropped.
def readFraction (negative : Bool) (significand : Nat) (exponent : Int) : Reader Number := fun rest =>
  let (value, count, rest) := takeFitting significand 0 rest
  if startsWithDigit rest then
    readTail negative value (exponent - count) (dropDigits 0 rest).2
  else if count = 0 then
    if rest.isEmpty then stopPast .valueEnds rest else stopPast .badNumber rest
  else readTail negative value (exponent - count) rest

def readAfterDigits (negative : Bool) (significand : Nat) : Reader Number := fun rest =>
  match rest with
  | b :: more =>
    if b = 0x2E then readFraction negative significand 0 more
    else if b = 0x65 || b = 0x45 then readExponent negative significand 0 more
    else .ok (whole, rest)
  | [] => .ok (whole, rest)
where
  -- Minus zero and integers below the 64-bit range are doubles.
  whole : Number :=
    if !negative then .integer significand
    else if significand = 0 || twoTo 63 < significand then .float (-Double.ofNat significand)
    else .integer (-significand)

def readUnsigned (negative : Bool) : Reader Number
  | [] => stopAt .valueEnds []
  | b :: rest =>
    if b = 0x30 then
      if startsWithDigit rest then stopPast .badNumber rest
      else readAfterDigits negative 0 rest
    else if isDigit b then
      let (value, _, rest) := takeFitting (digitValue b) 0 rest
      if startsWithDigit rest then
        let (count, rest) := dropDigits 0 rest
        match rest with
        | c :: more =>
          if c = 0x2E then readFraction negative value count more
          else readTail negative value count rest
        | [] => readTail negative value count rest
      else readAfterDigits negative value rest
    else stopAt .badNumber rest

def readNumber : Reader Number
  | b :: rest => if b = 0x2D then readUnsigned true rest else readUnsigned false (b :: rest)
  | [] => stopAt .valueEnds []

end DiskGauge.Json
