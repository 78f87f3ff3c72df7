import DiskGauge.Json.Skip

namespace DiskGauge.Json
open DiskGauge.Schema

-- Faults of shape are reported behind the closing bracket, if the record ends right here.
def closeObject (rest : Bytes) : Bytes :=
  match skipBlanks rest with
  | b :: more => if b = 0x7D then more else b :: more
  | [] => []

def describeNumber : Number → Found
  | .integer value => .integer value
  | .float value => .number value

-- A scalar is read first, since it is shown in the fault.
def refuse {α : Type} (expected : String) : Reader α
  | [] => stopPast .valueExpected []
  | b :: rest =>
    if b = 0x6E then do
      let rest ← readWord wordNull rest
      stopAt (.shape (.type .empty expected)) rest
    else if b = 0x74 then do
      let rest ← readWord wordTrue rest
      stopAt (.shape (.type (.boolean true) expected)) rest
    else if b = 0x66 then do
      let rest ← readWord wordFalse rest
      stopAt (.shape (.type (.boolean false) expected)) rest
    else if b = 0x2D || isDigit b then do
      let (n, rest) ← readNumber (b :: rest)
      stopAt (.shape (.type (describeNumber n) expected)) rest
    else if b = 0x22 then do
      let (s, rest) ← readString rest
      stopAt (.shape (.type (.text s) expected)) rest
    else if b = 0x5B then stopAt (.shape (.type .sequence expected)) (b :: rest)
    else if b = 0x7B then stopAt (.shape (.type .map expected)) (b :: rest)
    else stopPast .valueExpected (b :: rest)

def readText : Reader String := fun rest =>
  match skipBlanks rest with
  | [] => stopPast .valueEnds []
  | b :: more => if b = 0x22 then readString more else refuse "a string" (b :: more)

def readNumberAs {α : Type} (expected : String) (accept : Number → Except Mismatch α) : Reader α :=
  fun rest =>
    match skipBlanks rest with
    | [] => stopPast .valueEnds []
    | b :: more =>
      if b = 0x2D || isDigit b then do
        let (n, rest) ← readNumber (b :: more)
        match accept n with
        | .ok value => return (value, rest)
        | .error mismatch => stopAt (.shape mismatch) rest
      else refuse expected (b :: more)

def readInteger : Reader Int :=
  readNumberAs "i64" fun
    | .integer value =>
      if value < twoTo 63 then .ok value else .error (.value (.integer value) "i64")
    | .float value => .error (.type (.number value) "i64")

def readDouble : Reader Double :=
  readNumberAs "f64" fun
    | .integer value => .ok (Double.ofInt value)
    | .float value => .ok value

def readOptional {α : Type} (read : Reader α) : Reader (Option α) := fun rest =>
  match skipBlanks rest with
  | b :: more =>
    if b = 0x6E then do
      let rest ← readWord wordNull more
      return (none, rest)
    else do
      let (value, rest) ← read (b :: more)
      return (some value, rest)
  | [] => do
    let (value, rest) ← read []
    return (some value, rest)

def afterColon (rest : Bytes) : Except Stop Bytes :=
  match skipBlanks rest with
  | [] => stopPast .objectEnds []
  | b :: more => if b = 0x3A then .ok more else stopPast .colonExpected (b :: more)

-- A member is handed over right after its name, so that a repeated name is refused before its value is looked at.
def foldMembers {σ : Type} (member : String → σ → Reader σ) : Nat → Bool → σ → Reader σ
  | 0, _, _, rest => stopAt .objectEnds rest
  | steps + 1, first, s, rest =>
    match skipBlanks rest with
    | [] => stopPast .objectEnds []
    | b :: more =>
      if b = 0x7D then .ok (s, more)
      else match nameStart first b more with
        | .error stop => .error stop
        | .ok rest =>
          match readString rest with
          | .error stop => .error stop
          | .ok (name, rest) =>
            match member name s rest with
            | .error stop => .error stop
            | .ok (s, rest) => foldMembers member steps false s rest
where
  nameStart (first : Bool) (b : UInt8) (more : Bytes) : Except Stop Bytes :=
    if first then
      if b = 0x22 then .ok more else stopPast .keyExpected (b :: more)
    else if b = 0x2C then
      match skipBlanks more with
      | [] => stopPast .valueEnds []
      | c :: more =>
        if c = 0x22 then .ok more
        else if c = 0x7D then stopPast .trailingComma (c :: more)
        else stopPast .keyExpected (c :: more)
    else stopPast .objectCommaExpected (b :: more)

def readMembers {σ : Type} (member : String → σ → Reader σ) (start : σ) : Reader σ := fun rest =>
  foldMembers member (rest.length + 1) true start rest

def fill {α : Type} (name : String) (place : Option α) (read : Reader α) : Reader (Option α) :=
  fun rest =>
    match place with
    | some _ => stopAt (.shape (.duplicate name)) (closeObject rest)
    | none => do
      let rest ← afterColon rest
      let (value, rest) ← inMember name (read rest)
      return (some value, rest)

def skipMember {σ : Type} (name : String) (s : σ) : Reader σ := fun rest => do
  let rest ← afterColon rest
  let rest ← inMember name (skipValue rest)
  return (s, rest)

def require {α : Type} (name : String) (place : Option α) (rest : Bytes) : Except Stop α :=
  match place with
  | some value => .ok value
  | none => stopAt (.shape (.missing name)) rest

def nextElement (first : Bool) (rest : Bytes) : Except Stop (Option Bytes) :=
  match skipBlanks rest with
  | [] => stopPast .listEnds []
  | b :: more =>
    if b = 0x5D then .ok none
    else if first then .ok (some (b :: more))
    else if b = 0x2C then
      match skipBlanks more with
      | [] => stopPast .valueEnds []
      | c :: more => if c = 0x5D then stopPast .trailingComma (c :: more) else .ok (some (c :: more))
    else stopPast .listCommaExpected (b :: more)

def closeList (rest : Bytes) : Except Stop Bytes :=
  match skipBlanks rest with
  | [] => stopPast .listEnds []
  | b :: more =>
    if b = 0x5D then .ok more
    else if b = 0x2C then
      match skipBlanks more with
      | c :: more =>
        if c = 0x5D then stopPast .trailingComma (c :: more) else stopPast .trailingCharacters (c :: more)
      | [] => stopPast .trailingCharacters []
    else stopPast .trailingCharacters (b :: more)

def readElement? {α : Type} (index : Nat) (read : Reader α) : Reader (Option α) := fun rest => do
  match ← nextElement (index = 0) rest with
  | none => return (none, rest)
  | some rest => inMember ("[" ++ toString index ++ "]") do
    let (value, rest) ← read rest
    return (some value, rest)

def readElement {α : Type} (index : Nat) (expected : String) (read : Reader α) : Reader α :=
  fun rest => do
    match ← readElement? index read rest with
    | (some value, rest) => return (value, rest)
    | (none, rest) =>
      let rest ← closeList rest
      stopAt (.shape (.length index expected)) rest

-- A record is an object, or a list of its fields in order.
def readRecord {α : Type} (expected : String) (members elements : Reader α) : Reader α := fun rest =>
  match skipBlanks rest with
  | [] => stopPast .valueEnds []
  | b :: more =>
    if b = 0x5B then do
      let (value, rest) ← elements more
      let rest ← closeList rest
      return (value, rest)
    else if b = 0x7B then members more
    else refuse expected (b :: more)

def readMap {α : Type} (read : Reader α) : Reader (List (String × α)) := fun rest =>
  match skipBlanks rest with
  | [] => stopPast .valueEnds []
  | b :: more =>
    if b = 0x7B then do
      let (entries, rest) ← readMembers entry [] more
      return (entries.reverse, rest)
    else refuse "a map" (b :: more)
where
  entry (name : String) (entries : List (String × α)) : Reader (List (String × α)) := fun rest => do
    let rest ← afterColon rest
    let (value, rest) ← read rest
    return ((name, value) :: entries, rest)

def readDocument {α : Type} (read : Reader α) (document : Bytes) : Except Error α :=
  let outcome := do
    let (value, rest) ← read document
    match skipBlanks rest with
    | [] => return value
    | b :: more => stopPast .trailingCharacters (b :: more)
  match outcome with
  | .ok value => .ok value
  | .error stop => .error (stop.locate document)

end DiskGauge.Json
