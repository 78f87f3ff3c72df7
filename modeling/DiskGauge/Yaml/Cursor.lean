namespace DiskGauge.Yaml

-- Lines and columns count from zero; a column counts characters, whatever their width.
structure Mark where
  index : Nat
  line : Nat
  column : Nat
deriving DecidableEq, Repr

namespace Mark

def start : Mark := ⟨0, 0, 0⟩

def past (m : Mark) (count : Nat) : Mark := ⟨m.index + count, m.line, m.column + count⟩

def nextLine (m : Mark) : Mark := ⟨m.index + 1, m.line + 1, 0⟩

end Mark

def isBlank (c : Char) : Bool := c = ' ' || c = '\t'

def isBreak (c : Char) : Bool :=
  c = '\n' || c = '\r' || c.toNat = 0x85 || c.toNat = 0x2028 || c.toNat = 0x2029

def atGap : List Char → Bool
  | [] => true
  | c :: _ => isBlank c || isBreak c

def isWord (c : Char) : Bool := c.isAlphanum || c = '_' || c = '-'

def isAllowed (c : Char) : Bool :=
  c = '\t' || c = '\n' || c = '\r' || (0x20 ≤ c.toNat && c.toNat ≤ 0x7E) || c.toNat = 0x85 ||
    (0xA0 ≤ c.toNat && c.toNat ≠ 0xFFFE && c.toNat ≠ 0xFFFF)

def hexDigit? (c : Char) : Option Nat :=
  if '0' ≤ c && c ≤ '9' then some (c.toNat - 0x30)
  else if 'a' ≤ c && c ≤ 'f' then some (c.toNat - 0x61 + 10)
  else if 'A' ≤ c && c ≤ 'F' then some (c.toNat - 0x41 + 10)
  else none

-- What a line end means in a text: the two separators of Unicode stand for themselves, and all
-- others for a line feed.
def breakText (c : Char) : List Char :=
  if c.toNat = 0x2028 || c.toNat = 0x2029 then [c] else ['\n']

def atDocumentMark : List Char → Bool
  | '-' :: '-' :: '-' :: rest => atGap rest
  | '.' :: '.' :: '.' :: rest => atGap rest
  | _ => false

structure Cursor where
  rest : List Char
  mark : Mark

namespace Cursor

def start (text : List Char) : Cursor := ⟨text, .start⟩

def atEnd (c : Cursor) : Bool := c.rest.isEmpty

def starts (c : Cursor) (kind : Char → Bool) : Bool := c.rest.head?.any kind

def skip (c : Cursor) (count : Nat) : Cursor :=
  ⟨c.rest.drop count, c.mark.past (min count c.rest.length)⟩

def takeWhile (c : Cursor) (kind : Char → Bool) : List Char × Cursor :=
  let taken := c.rest.takeWhile kind
  (taken, c.skip taken.length)

def skipWhile (c : Cursor) (kind : Char → Bool) : Cursor := (c.takeWhile kind).2

-- Takes a line end, if there is one; a carriage return and a line feed together are one.
def takeBreak (c : Cursor) : List Char × Cursor :=
  match c.rest with
  | '\r' :: '\n' :: rest => (['\n'], ⟨rest, (c.mark.past 1).nextLine⟩)
  | b :: rest => if isBreak b then (breakText b, ⟨rest, c.mark.nextLine⟩) else ([], c)
  | [] => ([], c)

-- Passes over blanks and a comment, which must reach to the end of the line.
def finishLine (c : Cursor) : Option Cursor :=
  let c := c.skipWhile isBlank
  let c := if c.starts (· = '#') then c.skipWhile (!isBreak ·) else c
  if c.atEnd || c.starts isBreak then some c.takeBreak.2 else none

end Cursor

end DiskGauge.Yaml
