import DiskGauge.Yaml.Collection

namespace DiskGauge.Yaml

-- Under a key the entries of a list need not be indented.
inductive Context where
  | flow
  | block
  | loose
deriving DecidableEq, Repr

def isBareMark (tag : Option Bytes) : Bool := tag = some (Utf8.encode ['!'])

def readContent (read : Context → NodeReader Node) (context : Context) (p : Properties)
    (tag : Option Bytes) : NodeReader Node := fun d =>
  let steps := d.tokens.length + 1
  let inBlock := context ≠ .flow
  match d.tokens with
  | [] => empty d
  | token :: rest =>
    let inside := d.goOn rest
    match token.kind with
    | .blockEntry =>
      if context = .loose then
        (readLooseEntries (read .block) steps d).map fun (items, d) => (.sequence p.start items, d)
      else empty d
    | .scalar style text =>
      some (.scalar p.start (if isBareMark tag then none else tag) style text, inside)
    | .openSequence =>
      (readItems (read .flow) steps true inside).map fun (items, d) => (.sequence p.start items, d)
    | .openMapping =>
      (readFlowMembers (read .flow) steps true inside).map fun (members, d) =>
        (.mapping p.start members, d)
    | .blockSequence =>
      if inBlock then
        (readEntries (read .block) steps inside).map fun (items, d) => (.sequence p.start items, d)
      else empty d
    | .blockMapping =>
      if inBlock then
        (readMembers (read .loose) steps inside).map fun (members, d) =>
          (.mapping p.start members, d)
      else empty d
    | _ => empty d
where
  -- With an anchor or a tag nothing more is needed.
  empty : NodeReader Node := fun d =>
    if p.anchor.isNone && tag.isNone then none else some (.scalar p.start tag .plain "", d)

def readNode (handles : Handles) : Nat → Context → NodeReader Node
  | 0, _, _ => none
  | steps + 1, context, d =>
    match d.tokens with
    | ⟨.alias name, _, _⟩ :: rest =>
      (d.anchors.find? name).map fun id => (.alias id, d.goOn rest)
    | tokens => do
      let (p, rest) := takeProperties tokens d.stop
      let tag ← match p.tag with
        | none => some none
        | some tag => (handles.expand? tag).map some
      let place := d.anchors.nodes.length
      let anchors := match p.anchor with
        | some name => d.anchors.add name
        | none => d.anchors
      let (node, d) ← readContent (readNode handles steps) context p tag { d with anchors, tokens := rest }
      let anchors := if p.anchor.isSome then d.anchors.fill place node else d.anchors
      return (node, { d with anchors })

structure Document where
  root : Node
  anchors : Anchors

-- Only versions 1.1 and 1.2 are known, and nothing may be given twice.
def takeDirectives (version : Bool) (handles : Handles) : List Token → Option (Handles × List Token)
  | ⟨.versionDirective major minor, _, _⟩ :: rest =>
    if version || major ≠ 1 || (minor ≠ 1 && minor ≠ 2) then none
    else takeDirectives true handles rest
  | ⟨.tagDirective handle beginning, _, _⟩ :: rest =>
    if (handles.lookup handle).isSome then none
    else takeDirectives version (handles ++ [(handle, beginning)]) rest
  | tokens => some (handles, tokens)

def isBetweenDocuments : TokenKind → Bool
  | .versionDirective .. => true
  | .tagDirective .. => true
  | .documentStart => true
  | .documentEnd => true
  | _ => false

def readRoot (handles : Handles) (tokens : List Token) (stop : Mark) : Option (Document × List Token) :=
  (readNode (handles ++ .standard) (2 * tokens.length + 2) .block ⟨.none, tokens, stop⟩).map
    fun (root, d) => (⟨root, d.anchors⟩, d.tokens)

-- A document may start without a mark, but not behind one that ends another.
def readFirst (tokens : List Token) (stop : Mark) : Option (Option Document × List Token) := do
  match tokens with
  | [] => return (none, [])
  | token :: _ =>
    if isBetweenDocuments token.kind && token.kind ≠ .documentEnd then
      let (handles, rest) ← takeDirectives false [] tokens
      match rest with
      | ⟨.documentStart, _, _⟩ :: rest =>
        let next := rest.head?
        if next.all fun token => isBetweenDocuments token.kind then
          let place := (next.map (·.start)).getD stop
          return (some ⟨.left place, .none⟩, rest)
        else
          let (document, rest) ← readRoot handles rest stop
          return (some document, rest)
      | _ => none
    else
      let (document, rest) ← readRoot [] tokens stop
      return (some document, rest)

def readDocument (text : String) : Option (Option Document) := do
  let (tokens, stop) ← tokens? text.toList
  let (document, rest) ← readFirst tokens stop
  if rest.all (·.kind = .documentEnd) then return document else none

end DiskGauge.Yaml
