import DiskGauge.Toml.Scan

namespace DiskGauge.Toml

-- The first of these that shows a text without an escape is taken, where there is one.
inductive Quotes where
  | basic
  | literal
  | multiBasic
  | multiLiteral
deriving DecidableEq, Repr

def longestRun (c : Char) (text : List Char) : Nat := go 0 text
where
  go (run : Nat) : List Char → Nat
    | [] => run
    | d :: rest => if d = c then go (run + 1) rest else max run (go 0 rest)

-- A control other than a tab or a line end can only be written as an escape.
def hasControl (text : List Char) : Bool := text.any fun c => !isPlain c && c ≠ '\n'

namespace Quotes

def ofText (text : List Char) : Quotes :=
  let shown := !hasControl text
  let unbroken := !text.contains '\n'
  let noBackslash := !text.contains '\\'
  if shown && noBackslash && longestRun '"' text = 0 && unbroken then .basic
  else if shown && longestRun '\'' text = 0 && unbroken then .literal
  else if shown && noBackslash && longestRun '"' text ≤ 2 then .multiBasic
  else if shown && longestRun '\'' text ≤ 2 then .multiLiteral
  else if unbroken then .basic
  else .multiBasic

def isMulti : Quotes → Bool
  | .multiBasic => true
  | .multiLiteral => true
  | _ => false

def mark : Quotes → List Char
  | .basic => ['"']
  | .literal => ['\'']
  | .multiBasic => ['"', '"', '"']
  | .multiLiteral => ['\'', '\'', '\'']

end Quotes

def hex4 (n : Nat) : List Char :=
  [n / 4096 % 16, n / 256 % 16, n / 16 % 16, n % 16].map fun digit => (Nat.digitChar digit).toUpper

-- A line end stands for itself where there may be several lines.
def written (multi : Bool) (c : Char) : List Char :=
  if c.toNat = 0x08 then ['\\', 'b']
  else if c = '\t' then ['\\', 't']
  else if c = '\n' then if multi then ['\n'] else ['\\', 'n']
  else if c.toNat = 0x0C then ['\\', 'f']
  else if c = '\r' then ['\\', 'r']
  else if c = '\\' then ['\\', '\\']
  else if isPlain c then [c]
  else '\\' :: 'u' :: hex4 c.toNat

-- Over several lines two quotes in a row may stand as they are; the number counts those right before.
def writeBasic (multi : Bool) : Nat → List Char → List Char
  | _, [] => []
  | run, c :: rest =>
    if c = '"' then
      if multi && run < 2 then '"' :: writeBasic multi (run + 1) rest
      else '\\' :: '"' :: writeBasic multi 0 rest
    else written multi c ++ writeBasic multi 0 rest

-- If a text has several lines, the first starts below the opening quotes.
def writeText (text : List Char) : List Char :=
  let quotes := Quotes.ofText text
  let body := match quotes with
    | .basic => writeBasic false 0 text
    | .multiBasic => writeBasic true 0 text
    | _ => text
  let opening := if quotes.isMulti && text.contains '\n' then ['\n'] else []
  quotes.mark ++ opening ++ body ++ quotes.mark

def writeList (texts : List (List Char)) : List Char :=
  match texts with
  | [] => ['[', ']']
  | [text] => '[' :: (writeText text ++ [']'])
  | texts =>
    let line (text : List Char) := [' ', ' ', ' ', ' '] ++ writeText text ++ [',', '\n']
    ['[', '\n'] ++ texts.flatMap line ++ [']']

end DiskGauge.Toml
