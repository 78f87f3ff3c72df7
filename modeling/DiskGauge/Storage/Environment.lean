import DiskGauge.Text.Basic

namespace DiskGauge

structure Environment where
  entries : List (String × String)
deriving DecidableEq, Repr

namespace Environment

def get? (e : Environment) (name : String) : Option String := e.entries.lookup name

def add (e : Environment) (name value : String) : Environment :=
  if (e.get? name).isSome then e else ⟨e.entries ++ [(name, value)]⟩

inductive Quoting where
  | bare
  | blank
  | escaped
  | weak
  | weakEscaped
  | strong
  | strongEscaped
deriving DecidableEq, Repr

namespace Quoting

-- Whether a statement may not end here: in quotes, behind a backslash, or right behind a blank.
def isOpen : Quoting → Bool
  | .bare => false
  | _ => true

def outside (c : Char) (otherwise : Quoting) : Quoting :=
  if c = '\\' then .escaped
  else if c = '"' then .weak
  else if c = '\'' then .strong
  else otherwise

def step (q : Quoting) (c : Char) : Quoting :=
  match q with
  | .bare =>
    if Text.isWhiteSpace c && c ≠ '\n' && c ≠ '\r' then .blank else outside c .bare
  | .blank => outside c .bare
  | .escaped => .bare
  | .weak => if c = '\\' then .weakEscaped else if c = '"' then .bare else .weak
  | .weakEscaped => .weak
  | .strong => if c = '\\' then .strongEscaped else if c = '\'' then .bare else .strong
  | .strongEscaped => .strong

end Quoting

def takeLine : List Char → List Char × List Char
  | [] => ([], [])
  | c :: rest =>
    if c = '\n' then ([c], rest)
    else
      let (line, rest) := takeLine rest
      (c :: line, rest)

-- A comment starts behind a blank.
def beforeComment (q : Quoting) : List Char → List Char × Option Quoting
  | [] => ([], some q)
  | c :: rest =>
    if q = .blank && c = '#' then ([], none)
    else
      let (before, ending) := beforeComment (q.step c) rest
      (c :: before, ending)

def trimLineEnd (line : List Char) : List Char :=
  match line.reverse with
  | '\n' :: '\r' :: rest => rest.reverse
  | '\n' :: rest => rest.reverse
  | _ => line

def isComment (line : List Char) : Bool := (line.dropWhile Text.isWhiteSpace).head? = some '#'

-- An assignment goes on over lines while a quote is open.
def takeStatement : Nat → Quoting → List Char → List Char → Option (List Char × List Char)
  | 0, _, _, _ => none
  | _, q, taken, [] => if q.isOpen then none else some (taken, [])
  | steps + 1, q, taken, text =>
    let (line, rest) := takeLine text
    if isComment (taken ++ line) then some ([], rest)
    else match beforeComment q line with
      | (before, none) => some (taken ++ before, rest)
      | (before, some ending) =>
        if ending.isOpen then takeStatement steps ending (taken ++ before) rest
        else some (trimLineEnd (taken ++ before), rest)

def lookUp (e : Environment) (assigned : List (String × String)) (name : List Char) : List Char :=
  let name := String.ofList name
  (((e.get? name).or (assigned.lookup name)).getD "").toList

inductive Reading where
  | bare
  | escaped (weak : Bool)
  | weak
  | strong
  | name (weak : Bool) (name : List Char)
  | braced (weak : Bool) (name : List Char)
  | done
deriving DecidableEq, Repr

def Reading.ofWeak (weak : Bool) : Reading := if weak then .weak else .bare

-- A name without braces ends before the first character that is neither letter nor digit of ASCII, and that one always
-- stands for itself.
def readValue (lookUp : List Char → List Char) (text : List Char) : Reading → List Char →
    Option (List Char)
  | .done, [] => some text
  | .done, c :: rest =>
    if c = ' ' || c = '\t' then readValue lookUp text .done rest
    else if c = '#' then some text
    else none
  | .bare, [] => some text
  | .bare, c :: rest =>
    if c = '$' then readValue lookUp text (.name false []) rest
    else if c = '\'' then readValue lookUp text .strong rest
    else if c = '"' then readValue lookUp text .weak rest
    else if c = '\\' then readValue lookUp text (.escaped false) rest
    else if c = ' ' || c = '\t' then readValue lookUp text .done rest
    else readValue lookUp (text ++ [c]) .bare rest
  | .weak, [] => none
  | .weak, c :: rest =>
    if c = '$' then readValue lookUp text (.name true []) rest
    else if c = '"' then readValue lookUp text .bare rest
    else if c = '\\' then readValue lookUp text (.escaped true) rest
    else readValue lookUp (text ++ [c]) .weak rest
  | .strong, [] => none
  | .strong, c :: rest =>
    if c = '\'' then readValue lookUp text .bare rest else readValue lookUp (text ++ [c]) .strong rest
  | .escaped weak, [] => if weak then none else some text
  | .escaped weak, c :: rest =>
    if ['\\', '\'', '"', '$', ' '].contains c then
      readValue lookUp (text ++ [c]) (.ofWeak weak) rest
    else if c = 'n' then readValue lookUp (text ++ ['\n']) (.ofWeak weak) rest
    else none
  | .name weak name, [] => if weak then none else some (text ++ lookUp name)
  | .name weak name, c :: rest =>
    if c.isAlphanum then readValue lookUp text (.name weak (name ++ [c])) rest
    else if c.toNat = 0x7B && name.isEmpty then readValue lookUp text (.braced weak []) rest
    else
      let text := text ++ lookUp name
      if c = '$' then readValue lookUp text (.name weak []) rest
      else readValue lookUp (text ++ [c]) (.ofWeak weak) rest
  | .braced .., [] => none
  | .braced weak name, c :: rest =>
    if c.toNat = 0x7D then readValue lookUp (text ++ lookUp name) (.ofWeak weak) rest
    else readValue lookUp text (.braced weak (name ++ [c])) rest

def skipBlanks (text : List Char) : List Char := text.dropWhile Text.isWhiteSpace

def readName (text : List Char) : Option (List Char × List Char) :=
  let part (c : Char) := c.isAlphanum || c = '_' || c = '.'
  if text.head?.any fun c => c.isAlpha || c = '_' then
    some (text.takeWhile part, skipBlanks (text.dropWhile part))
  else none

def afterEqual? : List Char → Option (List Char)
  | '=' :: rest => some (skipBlanks rest)
  | _ => none

-- The word before the name may be an order to export it.
def readAssignment (line : List Char) : Option (List Char × List Char) := do
  let (name, rest) ← readName line
  match afterEqual? rest with
  | some value => return (name, value)
  | none =>
    if name = "export".toList then do
      let (name, rest) ← readName rest
      return (name, ← afterEqual? rest)
    else none

def addStatements : Nat → Environment → List (String × String) → List Char → Environment
  | 0, e, _, _ => e
  | _, e, _, [] => e
  | steps + 1, e, assigned, text =>
    match takeStatement (text.length + 1) .bare [] text with
    | none => e
    | some (line, rest) =>
      let line := skipBlanks line
      if line.isEmpty || line.head? = some '#' then addStatements steps e assigned rest
      else match readAssignment line with
        | none => e
        | some (name, value) =>
          let name := String.ofList name
          if value.isEmpty || value.head? = some '#' then
            addStatements steps (e.add name "") ((name, "") :: assigned) rest
          else match readValue (e.lookUp assigned) [] .bare value with
            | none => e
            | some value =>
              let value := String.ofList value
              addStatements steps (e.add name value) ((name, value) :: assigned) rest

-- A byte order mark may stand in front.
def addFile (e : Environment) (text : String) : Environment :=
  let chars := match text.toList with
    | c :: rest => if c.toNat = 0xFEFF then rest else c :: rest
    | [] => []
  addStatements (chars.length + 1) e [] chars

end Environment

end DiskGauge
