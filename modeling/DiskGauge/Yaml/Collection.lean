import DiskGauge.Yaml.Node

namespace DiskGauge.Yaml

-- A document in progress: its anchors so far, the tokens to come, and the place where they end.
structure Draft where
  anchors : Anchors
  tokens : List Token
  stop : Mark

namespace Draft

def place (d : Draft) : Mark :=
  match d.tokens with
  | token :: _ => token.start
  | [] => d.stop

def comes (d : Draft) (kinds : List TokenKind) : Bool :=
  match d.tokens with
  | token :: _ => kinds.contains token.kind
  | [] => false

def goOn (d : Draft) (tokens : List Token) : Draft := { d with tokens }

end Draft

abbrev NodeReader (α : Type) := Draft → Option (α × Draft)

def readUnless (ends : List TokenKind) (place : Mark) (read : NodeReader Node) :
    NodeReader Node :=
  fun d => if d.comes ends then some (.left place, d) else read d

def readEntries (read : NodeReader Node) : Nat → NodeReader (List Node)
  | 0, _ => none
  | steps + 1, d =>
    match d.tokens with
    | ⟨.blockEntry, _, stop⟩ :: rest => do
      let (first, d) ← readUnless [.blockEntry, .blockEnd] stop read (d.goOn rest)
      let (more, d) ← readEntries read steps d
      return (first :: more, d)
    | ⟨.blockEnd, _, _⟩ :: rest => some ([], d.goOn rest)
    | _ => none

-- Entries that are not indented under their key; they end where something else comes.
def readLooseEntries (read : NodeReader Node) : Nat → NodeReader (List Node)
  | 0, _ => none
  | steps + 1, d =>
    match d.tokens with
    | ⟨.blockEntry, _, stop⟩ :: rest => do
      let (first, d) ← readUnless [.blockEntry, .key, .value, .blockEnd] stop read (d.goOn rest)
      let (more, d) ← readLooseEntries read steps d
      return (first :: more, d)
    | _ => some ([], d)

def readMemberValue (read : NodeReader Node) : NodeReader Node := fun d =>
  match d.tokens with
  | ⟨.value, _, stop⟩ :: rest => readUnless [.key, .value, .blockEnd] stop read (d.goOn rest)
  | _ => some (.left d.place, d)

def readMembers (read : NodeReader Node) : Nat → NodeReader (List (Node × Node))
  | 0, _ => none
  | steps + 1, d =>
    match d.tokens with
    | ⟨.key, _, stop⟩ :: rest => do
      let (name, d) ← readUnless [.key, .value, .blockEnd] stop read (d.goOn rest)
      let (value, d) ← readMemberValue read d
      let (more, d) ← readMembers read steps d
      return ((name, value) :: more, d)
    | ⟨.blockEnd, _, _⟩ :: rest => some ([], d.goOn rest)
    | _ => none

def skipComma (first : Bool) (d : Draft) : Option Draft :=
  if first then some d
  else match d.tokens with
    | ⟨.flowEntry, _, _⟩ :: rest => some (d.goOn rest)
    | _ => none

def readFlowValue (close : TokenKind) (read : NodeReader Node) : NodeReader Node := fun d =>
  match d.tokens with
  | ⟨.value, _, _⟩ :: rest =>
    let d := d.goOn rest
    readUnless [.flowEntry, close] d.place read d
  | _ => some (.left d.place, d)

-- Where the key is left out, the token that shows it is passed.
def readPair (read : NodeReader Node) : NodeReader (Node × Node) := fun d => do
  let (name, d) ←
    if d.comes [.value, .flowEntry, .closeSequence] then
      match d.tokens with
      | token :: rest => some (.left token.stop, d.goOn rest)
      | [] => none
    else read d
  let (value, d) ← readFlowValue .closeSequence read d
  return ((name, value), d)

def readItems (read : NodeReader Node) : Nat → Bool → NodeReader (List Node)
  | 0, _, _ => none
  | steps + 1, first, d =>
    match d.tokens with
    | ⟨.closeSequence, _, _⟩ :: rest => some ([], d.goOn rest)
    | _ => do
      let d ← skipComma first d
      match d.tokens with
      | ⟨.closeSequence, _, _⟩ :: rest => return ([], d.goOn rest)
      | ⟨.key, start, _⟩ :: rest => do
        let (pair, d) ← readPair read (d.goOn rest)
        let (more, d) ← readItems read steps false d
        return (.mapping start [pair] :: more, d)
      | _ => do
        let (item, d) ← read d
        let (more, d) ← readItems read steps false d
        return (item :: more, d)

def readFlowMembers (read : NodeReader Node) : Nat → Bool → NodeReader (List (Node × Node))
  | 0, _, _ => none
  | steps + 1, first, d =>
    match d.tokens with
    | ⟨.closeMapping, _, _⟩ :: rest => some ([], d.goOn rest)
    | _ => do
      let d ← skipComma first d
      match d.tokens with
      | ⟨.closeMapping, _, _⟩ :: rest => return ([], d.goOn rest)
      | ⟨.key, _, _⟩ :: rest => do
        let d := d.goOn rest
        let (name, d) ← readUnless [.value, .flowEntry, .closeMapping] d.place read d
        let (value, d) ← readFlowValue .closeMapping read d
        let (more, d) ← readFlowMembers read steps false d
        return ((name, value) :: more, d)
      | _ => do
        let (name, d) ← read d
        let value := Node.left d.place
        let (more, d) ← readFlowMembers read steps false d
        return ((name, value) :: more, d)

end DiskGauge.Yaml
