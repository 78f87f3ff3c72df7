namespace DiskGauge

abbrev Bytes := List UInt8

namespace Utf8

def encode (cs : List Char) : Bytes := cs.flatMap String.utf8EncodeChar

def ofString (s : String) : Bytes := encode s.toList

def tail? (b : UInt8) : Option Nat :=
  if 0x80 ≤ b && b < 0xC0 then some (b.toNat - 0x80) else none

-- Overlong forms, surrogates and values past the last code point are refused by their second
-- byte, so the bounds on it depend on the first.
def secondAllowed (a b : UInt8) : Bool :=
  if a = 0xE0 then 0xA0 ≤ b
  else if a = 0xED then b < 0xA0
  else if a = 0xF0 then 0x90 ≤ b
  else if a = 0xF4 then b < 0x90
  else true

def next? : Bytes → Option (Char × Bytes)
  | [] => none
  | a :: rest =>
    if a < 0x80 then some (Char.ofNat a.toNat, rest)
    else if 0xC2 ≤ a && a < 0xE0 then
      match rest with
      | b :: rest => do
        let x ← tail? b
        return (Char.ofNat ((a.toNat - 0xC0) * 64 + x), rest)
      | _ => none
    else if 0xE0 ≤ a && a < 0xF0 then
      match rest with
      | b :: c :: rest => do
        if !secondAllowed a b then failure
        let x ← tail? b
        let y ← tail? c
        return (Char.ofNat (((a.toNat - 0xE0) * 64 + x) * 64 + y), rest)
      | _ => none
    else if 0xF0 ≤ a && a < 0xF5 then
      match rest with
      | b :: c :: d :: rest => do
        if !secondAllowed a b then failure
        let x ← tail? b
        let y ← tail? c
        let z ← tail? d
        return (Char.ofNat ((((a.toNat - 0xF0) * 64 + x) * 64 + y) * 64 + z), rest)
      | _ => none
    else none

-- Each step takes at least one byte, so as many steps as bytes suffice.
def decodeOnto (read : List Char) : Nat → Bytes → Option (List Char)
  | _, [] => some read.reverse
  | 0, _ :: _ => none
  | steps + 1, bytes =>
    match next? bytes with
    | none => none
    | some (c, rest) => decodeOnto (c :: read) steps rest

def decode? (bytes : Bytes) : Option (List Char) := decodeOnto [] bytes.length bytes

def string? (bytes : Bytes) : Option String := (decode? bytes).map String.ofList

end Utf8

namespace Text

def isWhiteSpace (c : Char) : Bool :=
  let n := c.toNat
  (0x09 ≤ n && n ≤ 0x0D) || n = 0x20 || n = 0x85 || n = 0xA0 || n = 0x1680 ||
    (0x2000 ≤ n && n ≤ 0x200A) || n = 0x2028 || n = 0x2029 || n = 0x202F || n = 0x205F || n = 0x3000

def split (separator : Char) : List Char → List (List Char)
  | [] => [[]]
  | c :: rest =>
    if c = separator then [] :: split separator rest
    else match split separator rest with
      | [] => [[c]]
      | first :: more => (c :: first) :: more

end Text

end DiskGauge
