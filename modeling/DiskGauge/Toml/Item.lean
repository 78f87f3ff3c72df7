import DiskGauge.Number.Decimal

namespace DiskGauge.Toml

inductive Form where
  -- By its own header; so is the document itself.
  | header
  -- By the header of a table below it.
  | implied
  | dotted
  | inline
deriving DecidableEq, Repr

def Form.isImplicit : Form → Bool
  | .implied => true
  | .dotted => true
  | _ => false

inductive Item where
  | text (value : String)
  | integer (value : Int)
  | float (value : Double)
  | boolean (value : Bool)
  | moment
  | array (elements : List Item)
  | table (form : Form) (members : List (String × Item))
  | tables (entries : List (List (String × Item)))
deriving Repr

-- A table's members in the order they were given, each name once.
abbrev Members := List (String × Item)

namespace Members

def find? (members : Members) (name : String) : Option Item := members.lookup name

def replace (name : String) (item : Item) (members : Members) : Members :=
  members.map fun member => if member.1 = name then (name, item) else member

def remove (name : String) (members : Members) : Members :=
  members.filter fun member => member.1 ≠ name

-- The way leads through the last of repeated tables and never into braces; that of a dotted name leads only through
-- tables that were never written down themselves.
def alter (dotted : Bool) (change : Form → Members → Option Members) :
    List String → Form → Members → Option Members
  | [], form, members => change form members
  | name :: path, _, members =>
    match members.find? name with
    | none =>
      let form := if dotted then Form.dotted else .implied
      (alter dotted change path form []).map fun inner => members ++ [(name, .table form inner)]
    | some (.table form inner) =>
      if form = .inline || (dotted && !form.isImplicit) then none
      else (alter dotted change path form inner).map fun inner =>
        members.replace name (.table form inner)
    | some (.tables entries) =>
      match entries.getLast? with
      | some last =>
        (alter dotted change path .header last).map fun last =>
          members.replace name (.tables (entries.dropLast ++ [last]))
      | none => none
    | some _ => none

-- A name of one part goes to a table that has a header or braces; a longer one may not reach into a table whose header
-- came from elsewhere.
def assign (path : List String) (name : String) (item : Item) (form : Form) (members : Members) :
    Option Members :=
  alter true (fun form members =>
    if form = .dotted ↔ path.isEmpty then none
    else match members.find? name with
      | some _ => none
      | none => some (members ++ [(name, item)])) path form members

-- A table that is only implied keeps its members and moves behind the others.
def openTable (path : List String) (name : String) (members : Members) : Option Members :=
  alter false (fun _ members =>
    match members.find? name with
    | none => some (members ++ [(name, .table .header [])])
    | some (.table .implied inner) => some (members.remove name ++ [(name, .table .header inner)])
    | some _ => none) path .header members

def openEntry (path : List String) (name : String) (members : Members) : Option Members :=
  alter false (fun _ members =>
    match members.find? name with
    | none => some (members ++ [(name, .tables [[]])])
    | some (.tables entries) => some (members.replace name (.tables (entries ++ [[]])))
    | some _ => none) path .header members

end Members

end DiskGauge.Toml
