import DiskGauge.Toml.Value

namespace DiskGauge.Toml

inductive Line where
  | empty
  | header (path : List String) (name : String)
  | entry (path : List String) (name : String)
  | member (path : List String) (name : String) (value : Item)

def readLine (text : List Char) : Option (Line × List Char) :=
  match skipBlanks text with
  | [] => some (.empty, [])
  | '[' :: '[' :: rest => do
    let ((path, name), rest) ← readName rest
    let rest ← afterWord? [']', ']'] rest
    return (.entry path name, ← finishLine rest)
  | '[' :: rest => do
    let ((path, name), rest) ← readName rest
    let rest ← afterWord? [']'] rest
    return (.header path name, ← finishLine rest)
  | text =>
    match finishLine text with
    | some rest => some (.empty, rest)
    | none => do
      let ((path, name), rest) ← readName text
      let (_, rest) ← expect '=' rest
      let (value, rest) ← readValue nestingLimit (skipBlanks rest)
      return (.member path name value, ← finishLine rest)

def readLines : Nat → List Char → Option (List Line)
  | _, [] => some []
  | 0, _ :: _ => none
  | steps + 1, text => do
    let (line, rest) ← readLine text
    let lines ← readLines steps rest
    return line :: lines

structure Draft where
  root : Members
  opened : List String

namespace Draft

def start : Draft := ⟨[], []⟩

def add (draft : Draft) : Line → Option Draft
  | .empty => some draft
  | .header path name => (draft.root.openTable path name).map fun root => ⟨root, path ++ [name]⟩
  | .entry path name => (draft.root.openEntry path name).map fun root => ⟨root, path ++ [name]⟩
  | .member path name value =>
    (Members.alter false (fun form members => members.assign path name value form)
      draft.opened .header draft.root).map fun root => ⟨root, draft.opened⟩

end Draft

def afterMark : List Char → List Char
  | c :: rest => if c.toNat = 0xFEFF then rest else c :: rest
  | [] => []

def readDocument (text : String) : Option Members := do
  let chars := afterMark text.toList
  let lines ← readLines chars.length chars
  let draft ← lines.foldlM Draft.add Draft.start
  return draft.root

end DiskGauge.Toml
