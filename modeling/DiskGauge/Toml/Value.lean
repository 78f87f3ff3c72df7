import DiskGauge.Toml.Figure

namespace DiskGauge.Toml

def readElements (readValue : Reader Item) : Nat → Reader (List Item)
  | 0, _ => none
  | steps + 1, text =>
    match skipGap text with
    | ']' :: rest => some ([], rest)
    | text => do
      let (first, rest) ← readValue text
      match skipGap rest with
      | ']' :: rest => return ([first], rest)
      | ',' :: rest => do
        let (more, rest) ← readElements readValue steps rest
        return (first :: more, rest)
      | _ => none

def readInline (readValue : Reader Item) : Nat → Members → Reader Members
  | 0, _, _ => none
  | steps + 1, members, text => do
    let ((path, name), rest) ← readName text
    match rest with
    | '=' :: rest => do
      let (value, rest) ← readValue (skipBlanks rest)
      let members ← members.assign path name value .inline
      match skipBlanks rest with
      | ',' :: rest => readInline readValue steps members rest
      | c :: rest => if c.toNat = 0x7D then return (members, rest) else none
      | [] => none
    | _ => none

def readValue : Nat → Reader Item
  | _, [] => none
  | depth, c :: rest =>
    if c = '"' || c = '\'' then
      (readText (c :: rest)).map fun (text, rest) => (.text (String.ofList text), rest)
    else if c = '[' then
      match depth with
      | 0 => none
      | depth + 1 => (readElements (readValue depth) (rest.length + 1) rest).map
          fun (elements, rest) => (.array elements, rest)
    else if c.toNat = 0x7B then
      match depth with
      | 0 => none
      | depth + 1 =>
        match skipBlanks rest with
        | [] => none
        | d :: more =>
          if d.toNat = 0x7D then some (.table .inline [], more)
          else (readInline (readValue depth) (rest.length + 1) [] rest).map
            fun (members, rest) => (.table .inline members, rest)
    else match afterWord? ['t', 'r', 'u', 'e'] (c :: rest) with
      | some rest => some (.boolean true, rest)
      | none =>
        match afterWord? ['f', 'a', 'l', 's', 'e'] (c :: rest) with
        | some rest => some (.boolean false, rest)
        | none => readFigure (c :: rest)

end DiskGauge.Toml
