import DiskGauge.Yaml.Fold
import DiskGauge.Yaml.Token

namespace DiskGauge.Yaml

def isFlowMark (c : Char) : Bool :=
  c = ',' || c = '[' || c = ']' || c.toNat = 0x7B || c.toNat = 0x7D

-- Inside of brackets a colon may not touch another mark.
def takePlain (flow : Bool) : List Char → Option (List Char × List Char)
  | [] => some ([], [])
  | c :: rest =>
    if isBlank c || isBreak c then some ([], c :: rest)
    else if flow && c = ':' && rest.head?.any (fun d => isFlowMark d || d = '?') then none
    else if (c = ':' && atGap rest) || (flow && isFlowMark c) then some ([], c :: rest)
    else match takePlain flow rest with
      | some (taken, rest) => some (c :: taken, rest)
      | none => none

-- What was read so far is kept apart from the gap behind it, which counts only if more follows. Outside of brackets a
-- line that starts left of the column ends the scalar.
def readPlainOnto (flow : Bool) (column : Int) :
    Nat → List Char → Gap → Cursor → Option (List Char × Bool × Cursor)
  | 0, _, _, _ => none
  | steps + 1, text, gap, c =>
    if (c.mark.column = 0 && atDocumentMark c.rest) || c.starts (· = '#') then
      some (text, gap.broken, c)
    else match takePlain flow c.rest with
      | none => none
      | some (piece, _) =>
        let c := c.skip piece.length
        let (text, gap) :=
          if piece.isEmpty then (text, gap) else (text ++ gap.text ++ piece, Gap.none)
        if c.starts fun d => isBlank d || isBreak d then
          match gap.read column c.mark c.rest with
          | none => none
          | some (gap, c) =>
            if !flow && c.mark.column < column then some (text, gap.broken, c)
            else readPlainOnto flow column steps text gap c
        else some (text, gap.broken, c)

def readPlain (flow : Bool) (column : Int) (c : Cursor) : Option (List Char × Bool × Cursor) :=
  readPlainOnto flow column (c.rest.length + 1) [] .none c

def scalar? (code : Nat) : Option Char := if code.isValidChar then some (Char.ofNat code) else none

def simpleEscape? (letter : Char) : Option Nat :=
  if letter = '0' then some 0
  else if letter = 'a' then some 0x07
  else if letter = 'b' then some 0x08
  else if letter = 't' || letter = '\t' then some 0x09
  else if letter = 'n' then some 0x0A
  else if letter = 'v' then some 0x0B
  else if letter = 'f' then some 0x0C
  else if letter = 'r' then some 0x0D
  else if letter = 'e' then some 0x1B
  else if letter = ' ' || letter = '"' || letter = '/' || letter = '\\' then some letter.toNat
  else if letter = 'N' then some 0x85
  else if letter = '_' then some 0xA0
  else if letter = 'L' then some 0x2028
  else if letter = 'P' then some 0x2029
  else none

def escape? : List Char → Option (Char × Nat)
  | [] => none
  | letter :: rest =>
    match simpleEscape? letter with
    | some code => some (Char.ofNat code, 1)
    | none =>
      let width := if letter = 'x' then 2 else if letter = 'u' then 4 else if letter = 'U' then 8 else 0
      if width = 0 || rest.length < width then none
      else
        let number := (rest.take width).foldlM
          (fun value c => (hexDigit? c).map (value * 16 + ·)) 0
        (number.bind scalar?).map fun c => (c, width + 1)

-- The answer tells whether a line end behind a backslash was passed.
def takeQuoted (quote : Char) : Nat → List Char → Cursor → Option (List Char × Bool × Cursor)
  | 0, _, _ => none
  | steps + 1, taken, c =>
    match c.rest with
    | [] => some (taken, false, c)
    | d :: rest =>
      if isBlank d || isBreak d then some (taken, false, c)
      else if d = quote then
        if quote = '\'' && rest.head? = some '\'' then takeQuoted quote steps (d :: taken) (c.skip 2)
        else some (taken, false, c)
      else if d = '\\' && quote = '"' then
        if rest.head?.any isBreak then some (taken, true, (c.skip 1).takeBreak.2)
        else match escape? rest with
          | some (e, width) => takeQuoted quote steps (e :: taken) (c.skip (width + 1))
          | none => none
      else takeQuoted quote steps (d :: taken) (c.skip 1)

-- A mark between documents may not stand in it.
def readQuotedOnto (quote : Char) : Nat → List Char → Cursor → Option (List Char × Cursor)
  | 0, _, _ => none
  | steps + 1, text, c =>
    if c.mark.column = 0 && atDocumentMark c.rest then none
    else match takeQuoted quote (c.rest.length + 1) [] c with
      | none => none
      | some (piece, escaped, c) =>
        let text := text ++ piece.reverse
        if !escaped && c.starts (· = quote) then some (text, c.skip 1)
        else if c.atEnd then none
        else match (if escaped then Gap.escaped else Gap.none).read 0 c.mark c.rest with
          | none => none
          | some (gap, c) => readQuotedOnto quote steps (text ++ gap.text) c

def readQuoted (quote : Char) (c : Cursor) : Option (List Char × Cursor) :=
  readQuotedOnto quote (c.rest.length + 1) [] (c.skip 1)

inductive Chomping where
  | strip
  | clip
  | keep
deriving DecidableEq, Repr

def chomping? (c : Char) : Option Chomping :=
  if c = '+' then some .keep else if c = '-' then some .strip else none

def takeIncrement (c : Cursor) : Option (Option Nat × Cursor) :=
  match c.rest with
  | d :: _ =>
    if !d.isDigit then some (none, c)
    else if d = '0' then none
    else some (some (d.toNat - 0x30), c.skip 1)
  | [] => some (none, c)

def takeChomping (c : Cursor) : Option Chomping × Cursor :=
  match c.rest.head?.bind chomping? with
  | some chomping => (some chomping, c.skip 1)
  | none => (none, c)

def readBlockHeader (c : Cursor) : Option (Chomping × Option Nat × Cursor) :=
  match takeChomping c with
  | (some chomping, c) => (takeIncrement c).map fun (increment, c) => (chomping, increment, c)
  | (none, c) => (takeIncrement c).map fun (increment, c) =>
    if increment.isSome then
      let (chomping, c) := takeChomping c
      (chomping.getD .clip, increment, c)
    else (.clip, increment, c)

-- While the indentation is not known, the deepest one so far is kept.
def readBlockGap (indent : Option Nat) :
    Nat → List Char → Nat → Cursor → Option (List Char × Nat × Cursor)
  | 0, _, _, _ => none
  | steps + 1, breaks, deepest, c =>
    let room := match indent with
      | some indent => indent - c.mark.column
      | none => c.rest.length
    let c := c.skip ((c.rest.take room).takeWhile (· = ' ')).length
    let deepest := max deepest c.mark.column
    if (indent.all (c.mark.column < ·)) && c.starts (· = '\t') then none
    else if c.starts isBreak then
      let (b, c) := c.takeBreak
      readBlockGap indent steps (breaks ++ b) deepest c
    else some (breaks, deepest, c)

-- Folded lines are joined unless one of the two begins with a blank.
def readBlockLines (literal : Bool) (indent : Nat) :
    Nat → List Char → List Char → List Char → Bool → Cursor →
      Option (List Char × List Char × List Char × Cursor)
  | 0, _, _, _, _, _ => none
  | steps + 1, text, last, more, blankBefore, c =>
    if c.mark.column ≠ indent || c.atEnd then some (text, last, more, c)
    else
      let blankNow := c.starts isBlank
      let joint :=
        if !literal && last = ['\n'] && !blankBefore && !blankNow then
          if more.isEmpty then [' '] else more
        else last ++ more
      let (line, c) := c.takeWhile (!isBreak ·)
      let (last, c) := c.takeBreak
      match readBlockGap (some indent) (c.rest.length + 1) [] 0 c with
      | none => none
      | some (more, _, c) =>
        readBlockLines literal indent steps (text ++ joint ++ line) last more blankNow c

def readBlock (literal : Bool) (parent : Int) (c : Cursor) : Option (List Char × Cursor) := do
  let (chomping, increment, c) ← readBlockHeader (c.skip 1)
  let c ← c.finishLine
  let given := increment.map fun increment => if 0 ≤ parent then parent.toNat + increment else increment
  let (breaks, deepest, c) ← readBlockGap given (c.rest.length + 1) [] 0 c
  let indent := given.getD (max deepest (max (parent + 1) 1).toNat)
  let (text, last, more, c) ← readBlockLines literal indent (c.rest.length + 1) [] [] breaks false c
  let ending := match chomping with
    | .strip => []
    | .clip => last
    | .keep => last ++ more
  return (text ++ ending, c)

end DiskGauge.Yaml
