import DiskGauge.Yaml.Token

namespace DiskGauge.Yaml

def readAnchor (c : Cursor) : Option (String × Cursor) :=
  let (name, c) := (c.skip 1).takeWhile isWord
  let ends := atGap c.rest || c.starts fun d =>
    d = '?' || d = ':' || d = ',' || d = ']' || d.toNat = 0x7D || d = '%' || d = '@' ||
      d.toNat = 0x60
  if name.isEmpty || !ends then none else some (String.ofList name, c)

def takeHandle (c : Cursor) : List Char × Cursor :=
  let (word, c) := (c.skip 1).takeWhile isWord
  if c.starts (· = '!') then ('!' :: (word ++ ['!']), c.skip 1) else ('!' :: word, c)

def escapedByte? : List Char → Option UInt8
  | '%' :: a :: b :: _ =>
    match hexDigit? a, hexDigit? b with
    | some a, some b => some (UInt8.ofNat (a * 16 + b))
    | _, _ => none
  | _ => none

def sequenceLength? (b : UInt8) : Option Nat :=
  if b < 0x80 then some 1
  else if 0xC0 ≤ b && b < 0xE0 then some 2
  else if 0xE0 ≤ b && b < 0xF0 then some 3
  else if 0xF0 ≤ b && b < 0xF8 then some 4
  else none

def takeContinuations : Nat → Cursor → Option (Bytes × Cursor)
  | 0, c => some ([], c)
  | count + 1, c => do
    let b ← escapedByte? c.rest
    if 0x80 ≤ b && b < 0xC0 then do
      let (bytes, c) ← takeContinuations count (c.skip 3)
      return (b :: bytes, c)
    else none

def takeEscapedCharacter (c : Cursor) : Option (Bytes × Cursor) := do
  let b ← escapedByte? c.rest
  let length ← sequenceLength? b
  let (bytes, c) ← takeContinuations (length - 1) (c.skip 3)
  return (b :: bytes, c)

def isTagCharacter (flowMarks : Bool) (c : Char) : Bool :=
  isWord c || [';', '/', '?', ':', '@', '&', '=', '+', '$', '.', '%', '!', '~', '*', '\'', '(', ')'].contains c ||
    (flowMarks && [',', '[', ']'].contains c)

def takeTagText (flowMarks : Bool) : Nat → Bytes → Cursor → Option (Bytes × Cursor)
  | 0, _, _ => none
  | steps + 1, taken, c =>
    match c.rest.head? with
    | none => some (taken, c)
    | some d =>
      if !isTagCharacter flowMarks d then some (taken, c)
      else if d = '%' then
        match takeEscapedCharacter c with
        | some (bytes, c) => takeTagText flowMarks steps (taken ++ bytes) c
        | none => none
      else takeTagText flowMarks steps (taken ++ Utf8.encode [d]) (c.skip 1)

def readTagText (flowMarks : Bool) (head : List Char) (c : Cursor) : Option (Bytes × Cursor) :=
  match takeTagText flowMarks (c.rest.length + 1) [] c with
  | some (text, c') =>
    if head.isEmpty && text.isEmpty then none else some (Utf8.encode (head.drop 1) ++ text, c')
  | none => none

def readTagName (c : Cursor) : Option (TagName × Cursor) := do
  if (c.skip 1).starts (· = '<') then
    let (suffix, c) ← readTagText true [] (c.skip 2)
    if c.starts (· = '>') then return (⟨[], suffix⟩, c.skip 1) else none
  else
    let (handle, c) := takeHandle c
    if 2 ≤ handle.length && handle.getLast? = some '!' then
      let (suffix, c) ← readTagText false [] c
      return (⟨handle, suffix⟩, c)
    else
      let (suffix, c) ← readTagText false handle c
      if suffix.isEmpty then return (⟨[], Utf8.encode ['!']⟩, c) else return (⟨['!'], suffix⟩, c)

-- A tag must be set off from what follows; inside of brackets a comma does it, too.
def readTag (flow : Bool) (c : Cursor) : Option (TagName × Cursor) := do
  let (name, c) ← readTagName c
  if atGap c.rest || (flow && c.starts (· = ',')) then return (name, c) else none

def readVersionNumber (c : Cursor) : Option (Nat × Cursor) :=
  let (digits, c) := c.takeWhile Char.isDigit
  if digits.isEmpty || 9 < digits.length then none
  else some (digits.foldl (fun value d => value * 10 + (d.toNat - 0x30)) 0, c)

def readVersion (c : Cursor) : Option (TokenKind × Cursor) := do
  let (major, c) ← readVersionNumber (c.skipWhile isBlank)
  if c.starts (· = '.') then
    let (minor, c) ← readVersionNumber (c.skip 1)
    return (.versionDirective major minor, c)
  else none

def readTagDirective (c : Cursor) : Option (TokenKind × Cursor) := do
  let c := c.skipWhile isBlank
  if !c.starts (· = '!') then none
  else
    let (handle, c) := takeHandle c
    if handle ≠ ['!'] && handle.getLast? ≠ some '!' then none
    else if !c.starts isBlank then none
    else
      let (beginning, c) ← readTagText true [] (c.skipWhile isBlank)
      if atGap c.rest then return (.tagDirective handle beginning, c) else none

def readDirective (c : Cursor) : Option (TokenKind × Mark × Cursor) := do
  let (name, c) := (c.skip 1).takeWhile isWord
  if !atGap c.rest then none
  else
    let (directive, c) ←
      if name = ['Y', 'A', 'M', 'L'] then readVersion c
      else if name = ['T', 'A', 'G'] then readTagDirective c
      else none
    return (directive, c.mark, ← c.finishLine)

end DiskGauge.Yaml
