import DiskGauge.Toml.Item

namespace DiskGauge.Toml

abbrev Reader (α : Type) := List Char → Option (α × List Char)

def isBlank (c : Char) : Bool := c = ' ' || c = '\t'

def isPlain (c : Char) : Bool := c = '\t' || (0x20 ≤ c.toNat && c.toNat ≠ 0x7F)

def skipBlanks (text : List Char) : List Char := text.dropWhile isBlank

def afterNewline? : List Char → Option (List Char)
  | '\n' :: rest => some rest
  | '\r' :: '\n' :: rest => some rest
  | _ => none

def finishLine (text : List Char) : Option (List Char) :=
  let rest := match skipBlanks text with
    | '#' :: rest => rest.dropWhile isPlain
    | rest => rest
  match rest with
  | [] => some []
  | rest => afterNewline? rest

-- A comment that does not end in a line end is left where it is.
def skipSpace : Nat → List Char → List Char
  | 0, text => text
  | steps + 1, text =>
    match skipBlanks text with
    | '#' :: rest =>
      match afterNewline? (rest.dropWhile isPlain) with
      | some rest => skipSpace steps rest
      | none => '#' :: rest
    | rest =>
      match afterNewline? rest with
      | some rest => skipSpace steps rest
      | none => rest

-- Every step takes a line end, so as many steps as characters suffice.
def skipGap (text : List Char) : List Char := skipSpace text.length text

def hexDigit? (c : Char) : Option Nat :=
  if '0' ≤ c && c ≤ '9' then some (c.toNat - 0x30)
  else if 'a' ≤ c && c ≤ 'f' then some (c.toNat - 0x61 + 10)
  else if 'A' ≤ c && c ≤ 'F' then some (c.toNat - 0x41 + 10)
  else none

def hexNumber? (digits : List Char) : Option Nat :=
  digits.foldlM (fun value c => (hexDigit? c).map (value * 16 + ·)) 0

def scalar? (code : Nat) : Option Char := if code.isValidChar then some (Char.ofNat code) else none

def simpleEscape? (letter : Char) : Option Char :=
  if letter = 'b' then some (Char.ofNat 0x08)
  else if letter = 't' then some '\t'
  else if letter = 'n' then some '\n'
  else if letter = 'f' then some (Char.ofNat 0x0C)
  else if letter = 'r' then some '\r'
  else if letter = '"' then some '"'
  else if letter = '\\' then some '\\'
  else none

def escape? : List Char → Option (Char × Nat)
  | [] => none
  | letter :: rest =>
    match simpleEscape? letter with
    | some c => some (c, 1)
    | none =>
      let width := if letter = 'u' then 4 else if letter = 'U' then 8 else 0
      if width = 0 || rest.length < width then none
      else ((hexNumber? (rest.take width)).bind scalar?).map fun c => (c, width + 1)

def prepend (c : Char) : Option (List Char × List Char) → Option (List Char × List Char)
  | some (text, rest) => some (c :: text, rest)
  | none => none

-- So many characters as the number says belong to an escape that was already read.
def readBasic : Nat → Reader (List Char)
  | _, [] => none
  | skip + 1, _ :: rest => readBasic skip rest
  | 0, c :: rest =>
    if c = '"' then some ([], rest)
    else if c = '\\' then
      match escape? rest with
      | some (c, width) => prepend c (readBasic width rest)
      | none => none
    else if isPlain c then prepend c (readBasic 0 rest)
    else none

def readLiteral : Reader (List Char)
  | [] => none
  | c :: rest =>
    if c = '\'' then some ([], rest)
    else if isPlain c then prepend c (readLiteral rest)
    else none

-- What may end a text of several lines: three quotes, and up to two more that belong to it.
def closing? (quote : Char) : Reader (List Char)
  | a :: b :: c :: rest =>
    if a = quote && b = quote && c = quote then
      match rest with
      | d :: e :: more =>
        if d = quote then if e = quote then some ([d, e], more) else some ([d], e :: more)
        else some ([], rest)
      | [d] => if d = quote then some ([d], []) else some ([], rest)
      | [] => some ([], [])
    else none
  | _ => none

-- A backslash at the end of a line passes over all blanks and line ends behind it.
def foldedWidth? (text : List Char) : Option Nat :=
  (afterNewline? (skipBlanks text)).map fun rest => text.length - (drop rest.length rest).length
where
  drop : Nat → List Char → List Char
    | 0, text => text
    | steps + 1, text =>
      let text := skipBlanks text
      match afterNewline? text with
      | some rest => drop steps rest
      | none => text

-- So many characters as the number says were already read.
def readMultiBasic : Nat → Reader (List Char)
  | _, [] => none
  | skip + 1, _ :: rest => readMultiBasic skip rest
  | 0, c :: rest =>
    match closing? '"' (c :: rest) with
    | some r => some r
    | none =>
      if c = '\\' then
        match foldedWidth? rest with
        | some width => readMultiBasic width rest
        | none =>
          match escape? rest with
          | some (c, width) => prepend c (readMultiBasic width rest)
          | none => none
      else if c = '\r' && (afterNewline? (c :: rest)).isSome then readMultiBasic 0 rest
      else if c = '\n' || isPlain c then prepend c (readMultiBasic 0 rest)
      else none

def readMultiLiteral : Reader (List Char)
  | [] => none
  | c :: rest =>
    match closing? '\'' (c :: rest) with
    | some r => some r
    | none =>
      if c = '\r' && (afterNewline? (c :: rest)).isSome then readMultiLiteral rest
      else if c = '\n' || isPlain c then prepend c (readMultiLiteral rest)
      else none

-- A line end right behind the opening quotes does not belong to the text.
def afterOpening (text : List Char) : List Char := (afterNewline? text).getD text

def readText : Reader (List Char)
  | '"' :: '"' :: '"' :: rest => readMultiBasic 0 (afterOpening rest)
  | '\'' :: '\'' :: '\'' :: rest => readMultiLiteral (afterOpening rest)
  | '"' :: rest => readBasic 0 rest
  | '\'' :: rest => readLiteral rest
  | _ => none

def isBare (c : Char) : Bool := c.isAlphanum || c = '-' || c = '_'

def readPart (text : List Char) : Option (String × List Char) :=
  match text with
  | '"' :: rest => (readBasic 0 rest).map fun (name, rest) => (String.ofList name, rest)
  | '\'' :: rest => (readLiteral rest).map fun (name, rest) => (String.ofList name, rest)
  | _ =>
    let name := text.takeWhile isBare
    if name.isEmpty then none else some (String.ofList name, text.dropWhile isBare)

def readParts : Nat → Reader (List String)
  | 0, _ => none
  | parts + 1, text => do
    let (part, rest) ← readPart (skipBlanks text)
    match skipBlanks rest with
    | '.' :: rest => do
      let (more, rest) ← readParts parts rest
      return (part :: more, rest)
    | rest => return ([part], rest)

def nestingLimit : Nat := 79

def readName (text : List Char) : Option ((List String × String) × List Char) := do
  let (parts, rest) ← readParts nestingLimit text
  let name ← parts.getLast?
  return ((parts.dropLast, name), rest)

end DiskGauge.Toml
