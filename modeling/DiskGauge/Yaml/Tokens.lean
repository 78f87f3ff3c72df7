import DiskGauge.Yaml.Scalar
import DiskGauge.Yaml.Tag

namespace DiskGauge.Yaml

-- A required place must turn out to be one of a key.
structure KeyPlace where
  required : Bool
  before : Nat
  mark : Mark

-- Whether a line is indented deeper than the one it belongs to, and whether a scalar or a bracket was a key, is seen
-- only later than where they stand; so the place of a possible key is kept until a colon follows or the line ends.
structure Lexer where
  cursor : Cursor
  -- The tokens so far, the newest first, and their number.
  tokens : List Token
  count : Nat
  -- The column of the innermost block, or -1; and those of the blocks around it.
  indent : Int
  outer : List Int
  keyAllowed : Bool
  -- Outside of all brackets or in the innermost ones, and on the levels around it.
  key : Option KeyPlace
  outerKeys : List (Option KeyPlace)

namespace Lexer

def start (text : List Char) : Lexer := ⟨.start text, [], 0, -1, [], true, none, []⟩

def mark (s : Lexer) : Mark := s.cursor.mark

def inFlow (s : Lexer) : Bool := !s.outerKeys.isEmpty

def add (s : Lexer) (kind : TokenKind) (start stop : Mark) : Lexer :=
  { s with tokens := ⟨kind, start, stop⟩ :: s.tokens, count := s.count + 1 }

def insert (s : Lexer) (before : Nat) (tokens : List Token) : Lexer :=
  let later := s.count - before
  { s with
    tokens := s.tokens.take later ++ tokens ++ s.tokens.drop later
    count := s.count + tokens.length }

def moveTo (s : Lexer) (cursor : Cursor) : Lexer := { s with cursor }

def take (s : Lexer) (kind : TokenKind) (count : Nat) : Lexer :=
  let cursor := s.cursor.skip count
  (s.add kind s.mark cursor.mark).moveTo cursor

def allowKey (s : Lexer) (keyAllowed : Bool) : Lexer := { s with keyAllowed }

-- A tab counts as a blank only where no key may start.
def skipGaps : Nat → Lexer → Lexer
  | 0, s => s
  | steps + 1, s =>
    let c := s.cursor
    let c := if c.mark.column = 0 && c.starts (·.toNat = 0xFEFF) then c.skip 1 else c
    let tabs := s.inFlow || !s.keyAllowed
    let c := c.skipWhile fun d => d = ' ' || (tabs && d = '\t')
    let c := if c.starts (· = '#') then c.skipWhile (!isBreak ·) else c
    if c.starts isBreak then
      skipGaps steps ((s.moveTo c.takeBreak.2).allowKey (s.keyAllowed || !s.inFlow))
    else s.moveTo c

-- A key takes one line and less than 1024 characters.
def isStale (s : Lexer) (place : KeyPlace) : Bool :=
  place.mark.line < s.mark.line || place.mark.index + 1024 < s.mark.index

def expire (s : Lexer) : Option KeyPlace → Option (Option KeyPlace)
  | some place => if s.isStale place then if place.required then none else some none else some place
  | none => some none

def expireKeys (s : Lexer) : Option Lexer := do
  let key ← s.expire s.key
  let outerKeys ← s.outerKeys.mapM s.expire
  return { s with key, outerKeys }

def dropKey (s : Lexer) : Option Lexer :=
  if s.key.any (·.required) then none else some { s with key := none }

-- The place must be one of a key if it starts a line of a block.
def saveKey (s : Lexer) : Option Lexer :=
  if s.keyAllowed then do
    let s ← s.dropKey
    let required := !s.inFlow && s.indent = s.mark.column
    return { s with key := some ⟨required, s.count, s.mark⟩ }
  else some s

def closeBlocks (s : Lexer) (column : Int) : Lexer :=
  if s.inFlow then s else go s.outer s
where
  go : List Int → Lexer → Lexer
    | [], s => s
    | indent :: outer, s =>
      if column < s.indent then
        go outer { s.add .blockEnd s.mark s.mark with indent, outer }
      else s

def opensBlock (s : Lexer) (column : Nat) : Bool := !s.inFlow && s.indent < column

def openBlock (s : Lexer) (column : Nat) : Lexer :=
  { s with indent := column, outer := s.indent :: s.outer }

def openBlockHere (s : Lexer) (kind : TokenKind) : Lexer :=
  if s.opensBlock s.mark.column then (s.add kind s.mark s.mark).openBlock s.mark.column else s

def readDirective (s : Lexer) : Option Lexer := do
  let s ← (s.closeBlocks (-1)).dropKey
  let (kind, stop, cursor) ← Yaml.readDirective s.cursor
  return ((s.add kind s.mark stop).moveTo cursor).allowKey false

def readDocumentMark (s : Lexer) (kind : TokenKind) : Option Lexer := do
  let s ← (s.closeBlocks (-1)).dropKey
  return (s.take kind 3).allowKey false

def openBracket (s : Lexer) (kind : TokenKind) : Option Lexer := do
  let s ← s.saveKey
  return ({ s with key := none, outerKeys := s.key :: s.outerKeys }.take kind 1).allowKey true

def closeBracket (s : Lexer) (kind : TokenKind) : Option Lexer := do
  let s ← s.dropKey
  let s := match s.outerKeys with
    | key :: outerKeys => { s with key, outerKeys }
    | [] => s
  return (s.take kind 1).allowKey false

def readComma (s : Lexer) : Option Lexer := do
  let s ← s.dropKey
  return (s.take .flowEntry 1).allowKey true

def readHyphen (s : Lexer) : Option Lexer := do
  if !s.inFlow && !s.keyAllowed then none
  else
    let s ← (s.openBlockHere .blockSequence).dropKey
    return (s.take .blockEntry 1).allowKey true

def readKeyMark (s : Lexer) : Option Lexer := do
  if !s.inFlow && !s.keyAllowed then none
  else
    let s ← (s.openBlockHere .blockMapping).dropKey
    return (s.take .key 1).allowKey (!s.inFlow)

-- If a key was possible, it was one, and the first of a block opens the block.
def readColon (s : Lexer) : Option Lexer :=
  match s.key with
  | some place =>
    let token (kind : TokenKind) : Token := ⟨kind, place.mark, place.mark⟩
    let s := { s with key := none }
    let s :=
      if s.opensBlock place.mark.column then
        (s.insert place.before [token .key, token .blockMapping]).openBlock place.mark.column
      else s.insert place.before [token .key]
    some ((s.take .value 1).allowKey false)
  | none =>
    if !s.inFlow && !s.keyAllowed then none
    else some (((s.openBlockHere .blockMapping).take .value 1).allowKey (!s.inFlow))

def readAnchor (s : Lexer) (kind : String → TokenKind) : Option Lexer := do
  let s ← s.saveKey
  let (name, cursor) ← Yaml.readAnchor s.cursor
  return ((s.add (kind name) s.mark cursor.mark).moveTo cursor).allowKey false

def readTag (s : Lexer) : Option Lexer := do
  let s ← s.saveKey
  let (name, cursor) ← Yaml.readTag s.inFlow s.cursor
  return ((s.add (.tag name) s.mark cursor.mark).moveTo cursor).allowKey false

def addScalar (s : Lexer) (style : Style) (text : List Char) (cursor : Cursor) : Lexer :=
  (s.add (.scalar style (String.ofList text)) s.mark cursor.mark).moveTo cursor

def readBlock (s : Lexer) (literal : Bool) : Option Lexer := do
  let s ← s.dropKey
  let (text, cursor) ← Yaml.readBlock literal s.indent s.cursor
  return (s.addScalar (if literal then .literal else .other) text cursor).allowKey true

def readQuoted (s : Lexer) (quote : Char) : Option Lexer := do
  let s ← s.saveKey
  let (text, cursor) ← Yaml.readQuoted quote s.cursor
  return (s.addScalar .other text cursor).allowKey false

def readPlain (s : Lexer) : Option Lexer := do
  let s ← s.saveKey
  let (text, newLine, cursor) ← Yaml.readPlain s.inFlow (s.indent + 1) s.cursor
  return (s.addScalar .plain text cursor).allowKey newLine

def isMark (c : Char) : Bool :=
  isFlowMark c || ['-', '?', ':', '#', '&', '*', '!', '|', '>', '\'', '"', '%', '@'].contains c ||
    c.toNat = 0x60

-- A hyphen, a question mark or a colon may start a plain scalar where it is no mark by itself.
def atPlain (s : Lexer) : Bool :=
  match s.cursor.rest with
  | [] => false
  | c :: rest =>
    !(isBlank c || isBreak c || isMark c) ||
      (c = '-' && !rest.head?.any isBlank) ||
      (!s.inFlow && (c = '?' || c = ':') && !atGap rest)

def next (s : Lexer) (c : Char) : Option Lexer :=
  let rest := s.cursor.rest
  let alone := atGap (rest.drop 1)
  if s.mark.column = 0 && c = '%' then s.readDirective
  else if s.mark.column = 0 && atDocumentMark rest then
    s.readDocumentMark (if c = '-' then .documentStart else .documentEnd)
  else if c = '[' then s.openBracket .openSequence
  else if c.toNat = 0x7B then s.openBracket .openMapping
  else if c = ']' then s.closeBracket .closeSequence
  else if c.toNat = 0x7D then s.closeBracket .closeMapping
  else if c = ',' then s.readComma
  else if c = '-' && alone then s.readHyphen
  else if c = '?' && (s.inFlow || alone) then s.readKeyMark
  else if c = ':' && (s.inFlow || alone) then s.readColon
  else if c = '*' then s.readAnchor .alias
  else if c = '&' then s.readAnchor .anchor
  else if c = '!' then s.readTag
  else if c = '|' && !s.inFlow then s.readBlock true
  else if c = '>' && !s.inFlow then s.readBlock false
  else if c = '\'' || c = '"' then s.readQuoted c
  else if s.atPlain then s.readPlain
  else none

-- The end of the text ends a line, all blocks, and the place of a key.
def finish (s : Lexer) : Option Lexer :=
  let mark := if s.mark.column = 0 then s.mark else ⟨s.mark.index, s.mark.line + 1, 0⟩
  ((s.moveTo ⟨[], mark⟩).closeBlocks (-1)).dropKey

def run : Nat → Lexer → Option Lexer
  | 0, _ => none
  | steps + 1, s => do
    let s ← (skipGaps (s.cursor.rest.length + 1) s).expireKeys
    let s := s.closeBlocks s.mark.column
    match s.cursor.rest.head? with
    | none => s.finish
    | some c => run steps (← s.next c)

end Lexer

def tokens? (text : List Char) : Option (List Token × Mark) :=
  if text.all isAllowed then
    (Lexer.run (text.length + 1) (.start text)).map fun s => (s.tokens.reverse, s.mark)
  else none

end DiskGauge.Yaml
