import DiskGauge.Json.Scan

namespace DiskGauge.Json

-- So many bytes as the number says belong to an escape that was already looked at.
def skipStringOn : Nat → Bytes → Except Stop Bytes
  | _, [] => stopAt .stringEnds []
  | skip + 1, _ :: rest => skipStringOn skip rest
  | 0, b :: rest =>
    if b = 0x22 then .ok rest
    else if b = 0x5C then
      match rest with
      | [] => stopAt .stringEnds []
      | e :: digits =>
        if (simpleEscape? e).isSome then skipStringOn 1 rest
        else if e = 0x75 then
          match readHex4 digits with
          | .ok _ => skipStringOn 5 rest
          | .error stop => .error stop
        else stopAt .badEscape digits
    else if b < 0x20 then stopAt .controlCharacter (b :: rest)
    else skipStringOn 0 rest

def skipString : Bytes → Except Stop Bytes := skipStringOn 0

def skipExponent (rest : Bytes) : Except Stop Bytes :=
  let rest := match rest with
    | b :: more => if b = 0x2B || b = 0x2D then more else rest
    | [] => rest
  match rest with
  | b :: more => if isDigit b then .ok (dropDigits 0 more).2 else stopAt .badNumber more
  | [] => stopAt .badNumber []

def skipFraction (rest : Bytes) : Except Stop Bytes :=
  if startsWithDigit rest then
    match (dropDigits 0 rest).2 with
    | b :: more => if b = 0x65 || b = 0x45 then skipExponent more else .ok (b :: more)
    | [] => .ok []
  else stopPast .badNumber rest

def skipAfterDigits (rest : Bytes) : Except Stop Bytes :=
  match rest with
  | b :: more =>
    if b = 0x2E then skipFraction more
    else if b = 0x65 || b = 0x45 then skipExponent more
    else .ok rest
  | [] => .ok []

def skipUnsigned : Bytes → Except Stop Bytes
  | [] => stopAt .badNumber []
  | b :: rest =>
    if b = 0x30 then
      if startsWithDigit rest then stopPast .badNumber rest else skipAfterDigits rest
    else if isDigit b then skipAfterDigits (dropDigits 0 rest).2
    else stopAt .badNumber rest

def skipScalar (b : UInt8) (rest : Bytes) : Except Stop Bytes :=
  if b = 0x6E then readWord wordNull rest
  else if b = 0x74 then readWord wordTrue rest
  else if b = 0x66 then readWord wordFalse rest
  else if b = 0x2D then skipUnsigned rest
  else if isDigit b then skipUnsigned (b :: rest)
  else if b = 0x22 then skipString rest
  else stopPast .valueExpected (b :: rest)

inductive Bracket where
  | list
  | object
deriving DecidableEq, Repr

namespace Bracket

def closing : Bracket → UInt8
  | .list => 0x5D
  | .object => 0x7D

def ends : Bracket → Fault
  | .list => .listEnds
  | .object => .objectEnds

def commaExpected : Bracket → Fault
  | .list => .listCommaExpected
  | .object => .objectCommaExpected

end Bracket

def skipItemHead : Bracket → Bytes → Except Stop Bytes
  | .list, rest => .ok rest
  | .object, rest =>
    match skipBlanks rest with
    | [] => stopPast .objectEnds []
    | b :: more =>
      if b ≠ 0x22 then stopPast .keyExpected (b :: more)
      else do
        let rest ← skipString more
        match skipBlanks rest with
        | [] => stopPast .objectEnds []
        | c :: more => if c = 0x3A then return more else stopPast .colonExpected (c :: more)

inductive Awaited where
  | value
  | firstItem
  | afterValue
deriving DecidableEq, Repr

-- The brackets that are open are kept on a stack, so there is no limit on how deep they nest.
def skipOn : Nat → Awaited → List Bracket → Bytes → Except Stop Bytes
  | 0, _, _, rest => stopAt .valueEnds rest
  | steps + 1, .value, stack, rest =>
    match skipBlanks rest with
    | [] => stopPast .valueEnds []
    | b :: more =>
      if b = 0x5B then skipOn steps .firstItem (.list :: stack) more
      else if b = 0x7B then skipOn steps .firstItem (.object :: stack) more
      else match skipScalar b more with
        | .ok rest => skipOn steps .afterValue stack rest
        | .error stop => .error stop
  | _ + 1, _, [], rest => .ok rest
  | steps + 1, awaited, bracket :: outer, rest =>
    match skipBlanks rest with
    | [] => stopPast bracket.ends []
    | b :: more =>
      if b = bracket.closing then skipOn steps .afterValue outer more
      else if awaited = .firstItem then
        match skipItemHead bracket (b :: more) with
        | .ok rest => skipOn steps .value (bracket :: outer) rest
        | .error stop => .error stop
      else if b = 0x2C then
        match skipItemHead bracket more with
        | .ok rest => skipOn steps .value (bracket :: outer) rest
        | .error stop => .error stop
      else stopPast bracket.commaExpected (b :: more)

-- No two steps in a row leave the bytes as they are, so twice as many steps as bytes suffice.
def skipValue (rest : Bytes) : Except Stop Bytes := skipOn (2 * rest.length + 2) .value [] rest

end DiskGauge.Json
