import DiskGauge.Json.Record
import DiskGauge.Keyed

namespace DiskGauge.Json

-- An object that was read has its members in the order of their names; one to be written has them as given.
inductive Value where
  | null
  | bool (value : Bool)
  | number (value : Number)
  | text (value : String)
  | list (elements : List Value)
  | object (members : List (String × Value))
deriving Repr

-- Numbers are equal within their kind only: an integer is never equal to a double.
def Number.same : Number → Number → Bool
  | .integer a, .integer b => a = b
  | .float a, .float b => a.eq b
  | _, _ => false

mutual

def Value.same : Value → Value → Bool
  | .null, .null => true
  | .bool a, .bool b => a = b
  | .number a, .number b => a.same b
  | .text a, .text b => a = b
  | .list a, .list b => sameElements a b
  | .object a, .object b => sameMembers a b
  | _, _ => false

def sameElements : List Value → List Value → Bool
  | [], [] => true
  | a :: as, b :: bs => a.same b && sameElements as bs
  | _, _ => false

def sameMembers : List (String × Value) → List (String × Value) → Bool
  | [], [] => true
  | (m, a) :: as, (n, b) :: bs => m = n && a.same b && sameMembers as bs
  | _, _ => false

end

def readElementsOnto (read : Reader Value) : Nat → List Value → Reader (List Value)
  | 0, _, rest => stopAt .listEnds rest
  | steps + 1, values, rest =>
    match nextElement values.isEmpty rest with
    | .error stop => .error stop
    | .ok none => .ok (values.reverse, rest)
    | .ok (some rest) =>
      match read rest with
      | .error stop => .error stop
      | .ok (value, rest) => readElementsOnto read steps (value :: values) rest

def depthLimit : Nat := 127

def readValueWithin : Nat → Reader Value := fun depth rest =>
  match skipBlanks rest with
  | [] => stopPast .valueEnds []
  | b :: more =>
    if b = 0x6E then do
      let rest ← readWord wordNull more
      return (.null, rest)
    else if b = 0x74 then do
      let rest ← readWord wordTrue more
      return (.bool true, rest)
    else if b = 0x66 then do
      let rest ← readWord wordFalse more
      return (.bool false, rest)
    else if b = 0x2D || isDigit b then do
      let (n, rest) ← readNumber (b :: more)
      return (.number n, rest)
    else if b = 0x22 then do
      let (s, rest) ← readString more
      return (.text s, rest)
    else if b = 0x5B then
      match depth with
      | 0 => stopPast .tooDeep (b :: more)
      | depth + 1 => do
        let (values, rest) ← readElementsOnto (readValueWithin depth) (more.length + 1) [] more
        let rest ← closeList rest
        return (.list values, rest)
    else if b = 0x7B then
      match depth with
      | 0 => stopPast .tooDeep (b :: more)
      | depth + 1 => do
        let member := fun name members rest => do
          let rest ← afterColon rest
          let (value, rest) ← readValueWithin depth rest
          return (Keyed.insert name value members, rest)
        let (members, rest) ← readMembers member [] more
        return (.object members, rest)
    else stopPast .valueExpected (b :: more)

def readValue : Reader Value := readValueWithin depthLimit

def hexDigit (n : Nat) : Char := if n < 10 then Char.ofNat (0x30 + n) else Char.ofNat (0x57 + n)

-- Only quotes, backslashes and the controls below the space are escaped.
def escapedChar (c : Char) : List Char :=
  if c = '"' || c = '\\' then ['\\', c]
  else if 0x20 ≤ c.toNat then [c]
  else if c = '\n' then ['\\', 'n']
  else if c = '\r' then ['\\', 'r']
  else if c = '\t' then ['\\', 't']
  else if c.toNat = 0x08 then ['\\', 'b']
  else if c.toNat = 0x0C then ['\\', 'f']
  else ['\\', 'u', '0', '0', hexDigit (c.toNat / 16), hexDigit (c.toNat % 16)]

def textChars (s : String) : List Char := '"' :: (s.toList.flatMap escapedChar ++ ['"'])

def integerChars (i : Int) : List Char :=
  if i < 0 then '-' :: Nat.toDigits 10 i.natAbs else Nat.toDigits 10 i.natAbs

-- A double without a number is written as null.
def numberChars : Number → List Char
  | .integer value => integerChars value
  | .float value => if value.isFinite then Layout.json.chars value else ['n', 'u', 'l', 'l']

def openBrace : Char := Char.ofNat 0x7B
def closeBrace : Char := Char.ofNat 0x7D

mutual

def Value.chars : Value → List Char
  | .null => ['n', 'u', 'l', 'l']
  | .bool true => ['t', 'r', 'u', 'e']
  | .bool false => ['f', 'a', 'l', 's', 'e']
  | .number n => numberChars n
  | .text s => textChars s
  | .list [] => ['[', ']']
  | .list (value :: rest) => '[' :: (value.chars ++ elementChars rest)
  | .object [] => [openBrace, closeBrace]
  | .object ((name, value) :: rest) =>
    openBrace :: (textChars name ++ ':' :: (value.chars ++ memberChars rest))

def elementChars : List Value → List Char
  | [] => [']']
  | value :: rest => ',' :: (value.chars ++ elementChars rest)

def memberChars : List (String × Value) → List Char
  | [] => [closeBrace]
  | (name, value) :: rest => ',' :: (textChars name ++ ':' :: (value.chars ++ memberChars rest))

end

def Value.compact (v : Value) : String := String.ofList v.chars

def Value.bytes (v : Value) : Bytes := Utf8.encode v.chars

def lineBreak (indent : Nat) : List Char := '\n' :: List.replicate (2 * indent) ' '

mutual

def Value.prettyChars (indent : Nat) : Value → List Char
  | .list [] => ['[', ']']
  | .list (value :: rest) =>
    '[' :: (lineBreak (indent + 1) ++ value.prettyChars (indent + 1) ++ prettyElements indent rest)
  | .object [] => [openBrace, closeBrace]
  | .object ((name, value) :: rest) =>
    openBrace :: (lineBreak (indent + 1) ++ textChars name ++ ':' :: ' ' ::
      (value.prettyChars (indent + 1) ++ prettyMembers indent rest))
  | .null => ['n', 'u', 'l', 'l']
  | .bool true => ['t', 'r', 'u', 'e']
  | .bool false => ['f', 'a', 'l', 's', 'e']
  | .number n => numberChars n
  | .text s => textChars s

def prettyElements (indent : Nat) : List Value → List Char
  | [] => lineBreak indent ++ [']']
  | value :: rest =>
    ',' :: (lineBreak (indent + 1) ++ value.prettyChars (indent + 1) ++ prettyElements indent rest)

def prettyMembers (indent : Nat) : List (String × Value) → List Char
  | [] => lineBreak indent ++ [closeBrace]
  | (name, value) :: rest =>
    ',' :: (lineBreak (indent + 1) ++ textChars name ++ ':' :: ' ' ::
      (value.prettyChars (indent + 1) ++ prettyMembers indent rest))

end

mutual

def Value.shown : Value → String
  | .null => "Null"
  | .bool value => if value then "Bool(true)" else "Bool(false)"
  | .number n => "Number(" ++ String.ofList (numberChars n) ++ ")"
  | .text s => "String(" ++ Text.quoted s ++ ")"
  | .list values => "Array [" ++ shownElements values
  | .object members => "Object \x7b" ++ shownMembers members

def shownElements : List Value → String
  | [] => "]"
  | [value] => value.shown ++ "]"
  | value :: rest => value.shown ++ ", " ++ shownElements rest

def shownMembers : List (String × Value) → String
  | [] => "\x7d"
  | [(name, value)] => Text.quoted name ++ ": " ++ value.shown ++ "\x7d"
  | (name, value) :: rest => Text.quoted name ++ ": " ++ value.shown ++ ", " ++ shownMembers rest

end

namespace Value

def ofInt (i : Int) : Value := .number (.integer i)
def ofNat (n : Nat) : Value := .number (.integer n)
def ofDouble (x : Double) : Value := .number (.float x)
def ofOptional {α : Type} (write : α → Value) : Option α → Value
  | some x => write x
  | none => .null

end Value

end DiskGauge.Json
