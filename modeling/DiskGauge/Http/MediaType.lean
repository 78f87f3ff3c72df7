import DiskGauge.Text.Basic

namespace DiskGauge.Http

def isTokenByte (b : UInt8) : Bool :=
  (0x30 ≤ b && b ≤ 0x39) || (0x41 ≤ b && b ≤ 0x5A) || (0x61 ≤ b && b ≤ 0x7A) ||
    [0x21, 0x23, 0x24, 0x25, 0x26, 0x27, 0x2B, 0x2D, 0x2E, 0x5E, 0x5F, 0x60, 0x7C, 0x7E].contains b

def toLowerByte (b : UInt8) : UInt8 := if 0x41 ≤ b && b ≤ 0x5A then b + 0x20 else b

def takeToken : Bytes → Bytes × Bytes
  | [] => ([], [])
  | b :: rest =>
    if isTokenByte b then
      let (token, rest) := takeToken rest
      (b :: token, rest)
    else ([], b :: rest)

def dropSpaces : Bytes → Bytes
  | [] => []
  | b :: rest => if b = 0x20 then dropSpaces rest else b :: rest

-- The rest after a quoted value, whose first byte may be anything but a control character.
def afterQuoted? (first : Bool) : Bytes → Option Bytes
  | [] => none
  | b :: rest =>
    if b = 0x22 && !first then some rest
    else if 0x1F < b && b ≠ 0x7F then afterQuoted? false rest
    else none

def afterValue? : Bytes → Option Bytes
  | [] => some []
  | b :: rest =>
    if b = 0x22 then
      match afterQuoted? true rest with
      | none => none
      | some rest =>
        match dropSpaces rest with
        | [] => some []
        | c :: rest => if c = 0x3B then some rest else none
    else
      let (token, rest) := takeToken (b :: rest)
      match rest with
      | [] => some []
      | c :: rest => if c = 0x3B && !token.isEmpty then some rest else none

def parametersAllowed : Nat → Bytes → Bool
  | 0, rest => (dropSpaces rest).isEmpty
  | steps + 1, rest =>
    let rest := dropSpaces rest
    if rest.isEmpty then true
    else
      let (name, rest) := takeToken rest
      match rest with
      | [] => false
      | b :: rest =>
        if b = 0x3D && !name.isEmpty then
          match afterValue? rest with
          | none => false
          | some rest => parametersAllowed steps rest
        else false

-- The part after the last plus sign, if there is one behind the first byte.
def suffix? (subtype : Bytes) : Option Bytes :=
  match subtype with
  | [] => none
  | _ :: rest =>
    let name := subtype.reverse.takeWhile (· ≠ 0x2B)
    if name.length < rest.length then some name.reverse else none

def facet (subtype : Bytes) : Bytes :=
  match suffix? subtype with
  | some name => subtype.take (subtype.length - name.length - 1)
  | none => subtype

def applicationName : Bytes := Utf8.ofString "application"
def jsonName : Bytes := Utf8.ofString "json"

def isJsonType (value : Bytes) : Bool :=
  let (type, rest) := takeToken value
  match rest with
  | b :: rest =>
    if b = 0x2F && !type.isEmpty then
      let (subtype, rest) := takeToken rest
      let subtype := subtype.map toLowerByte
      let allowed := match rest with
        | [] => true
        | c :: rest => c = 0x3B && !subtype.isEmpty && parametersAllowed rest.length rest
      allowed && type.map toLowerByte = applicationName &&
        (facet subtype = jsonName || suffix? subtype = some jsonName)
    else false
  | [] => false

end DiskGauge.Http
