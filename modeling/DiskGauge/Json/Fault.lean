import DiskGauge.Schema.Mismatch
import DiskGauge.Text.Basic

namespace DiskGauge.Json
open DiskGauge.Schema

inductive Fault where
  | listEnds
  | objectEnds
  | stringEnds
  | valueEnds
  | colonExpected
  | listCommaExpected
  | objectCommaExpected
  | identExpected
  | valueExpected
  | badEscape
  | badNumber
  | numberOutOfRange
  | badCodePoint
  | controlCharacter
  | keyExpected
  | loneSurrogate
  | hexEscapeEnds
  | trailingComma
  | trailingCharacters
  | tooDeep
  -- The document is well-formed up to here, but not what was asked for.
  | shape (mismatch : Mismatch)
deriving DecidableEq, Repr

def wording : Wording := ⟨"null", .json⟩

def Fault.message : Fault → String
  | .listEnds => "EOF while parsing a list"
  | .objectEnds => "EOF while parsing an object"
  | .stringEnds => "EOF while parsing a string"
  | .valueEnds => "EOF while parsing a value"
  | .colonExpected => "expected `:`"
  | .listCommaExpected => "expected `,` or `]`"
  | .objectCommaExpected => "expected `,` or `\x7d`"
  | .identExpected => "expected ident"
  | .valueExpected => "expected value"
  | .badEscape => "invalid escape"
  | .badNumber => "invalid number"
  | .numberOutOfRange => "number out of range"
  | .badCodePoint => "invalid unicode code point"
  | .controlCharacter => "control character (\\u0000-\\u001F) found while parsing a string"
  | .keyExpected => "key must be a string"
  | .loneSurrogate => "lone leading surrogate in hex escape"
  | .hexEscapeEnds => "unexpected end of hex escape"
  | .trailingComma => "trailing comma"
  | .trailingCharacters => "trailing characters"
  | .tooDeep => "recursion limit exceeded"
  | .shape mismatch => mismatch.message wording

-- A place is kept as the number of bytes behind it, so that line and column are counted only once.
structure Stop where
  fault : Fault
  left : Nat
  -- The member or element of the outermost record in which reading stopped.
  member : Option String
deriving DecidableEq, Repr

-- Lines count from one; a column counts the bytes since the last line end.
structure Position where
  line : Nat
  column : Nat
deriving DecidableEq, Repr

def Position.start : Position := ⟨1, 0⟩

def Position.step (p : Position) (b : UInt8) : Position :=
  if b = 0x0A then ⟨p.line + 1, 0⟩ else ⟨p.line, p.column + 1⟩

def Position.after (bytes : Bytes) : Position := bytes.foldl Position.step .start

structure Error where
  fault : Fault
  position : Position
  member : Option String
deriving DecidableEq, Repr

def Stop.locate (stop : Stop) (document : Bytes) : Error :=
  ⟨stop.fault, .after (document.take (document.length - stop.left)), stop.member⟩

def Error.message (e : Error) : String :=
  e.fault.message ++ " at line " ++ toString e.position.line ++
    " column " ++ toString e.position.column

def Error.memberMessage (e : Error) : String :=
  match e.member with
  | some name => name ++ ": " ++ e.message
  | none => e.message

def Error.isShape (e : Error) : Bool :=
  match e.fault with
  | .shape _ => true
  | _ => false

abbrev Reader (α : Type) := Bytes → Except Stop (α × Bytes)

def stopAt {α : Type} (fault : Fault) (rest : Bytes) : Except Stop α :=
  .error ⟨fault, rest.length, none⟩

def stopPast {α : Type} (fault : Fault) (rest : Bytes) : Except Stop α :=
  .error ⟨fault, rest.length - 1, none⟩

-- Names the member in which reading stopped, unless an inner one is already named.
def inMember {α : Type} (name : String) : Except Stop α → Except Stop α
  | .ok r => .ok r
  | .error stop => .error { stop with member := stop.member <|> some name }

end DiskGauge.Json
