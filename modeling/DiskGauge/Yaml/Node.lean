import DiskGauge.Yaml.Tokens

namespace DiskGauge.Yaml

inductive Node where
  | scalar (place : Mark) (tag : Option Bytes) (style : Style) (text : String)
  | sequence (place : Mark) (items : List Node)
  | mapping (place : Mark) (members : List (Node × Node))
  | alias (id : Nat)
deriving Repr

def Node.left (place : Mark) : Node := .scalar place none .plain ""

-- The number of a name is the count of names before, so a name that is given twice makes the next new name share its
-- number.
structure Anchors where
  names : List (String × Nat)
  nodes : List (Nat × Option Node)

namespace Anchors

def none : Anchors := ⟨[], []⟩

def find? (a : Anchors) (name : String) : Option Nat := a.names.lookup name

def add (a : Anchors) (name : String) : Anchors :=
  let id := a.names.length
  let others := a.names.filter fun entry => entry.1 ≠ name
  ⟨(name, id) :: others, a.nodes ++ [(id, .none)]⟩

def fill (a : Anchors) (place : Nat) (node : Node) : Anchors :=
  { a with nodes := a.nodes.modify place fun entry => (entry.1, some node) }

-- What an alias stands for: of the nodes with its number, the last one that starts.
def resolve? (a : Anchors) (id : Nat) : Option Node :=
  (a.nodes.reverse.lookup id).join

end Anchors

abbrev Handles := List (List Char × Bytes)

def Handles.standard : Handles :=
  [(['!'], Utf8.encode ['!']), (['!', '!'], Utf8.ofString "tag:yaml.org,2002:")]

def Handles.expand? (handles : Handles) (tag : TagName) : Option Bytes :=
  if tag.handle.isEmpty then some tag.suffix
  else (handles.lookup tag.handle).map (· ++ tag.suffix)

structure Properties where
  anchor : Option String
  tag : Option TagName
  start : Mark

def takeProperties (tokens : List Token) (stop : Mark) : Properties × List Token :=
  match tokens with
  | ⟨.anchor name, start, _⟩ :: ⟨.tag tag, _, _⟩ :: rest => (⟨some name, some tag, start⟩, rest)
  | ⟨.anchor name, start, _⟩ :: rest => (⟨some name, none, start⟩, rest)
  | ⟨.tag tag, start, _⟩ :: ⟨.anchor name, _, _⟩ :: rest => (⟨some name, some tag, start⟩, rest)
  | ⟨.tag tag, start, _⟩ :: rest => (⟨none, some tag, start⟩, rest)
  | token :: rest => (⟨none, none, token.start⟩, token :: rest)
  | [] => (⟨none, none, stop⟩, [])

end DiskGauge.Yaml
