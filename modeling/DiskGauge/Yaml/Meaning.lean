import DiskGauge.Number.Reading
import DiskGauge.Schema.Mismatch
import DiskGauge.Yaml.Document

namespace DiskGauge.Yaml
open Schema

def wording : Wording := ⟨"unit value", .marked⟩

def Tag.boolean : Bytes := Utf8.ofString "tag:yaml.org,2002:bool"
def Tag.integer : Bytes := Utf8.ofString "tag:yaml.org,2002:int"
def Tag.float : Bytes := Utf8.ofString "tag:yaml.org,2002:float"
def Tag.empty : Bytes := Utf8.ofString "tag:yaml.org,2002:null"

def isEmptyWord (text : String) : Bool := ["null", "Null", "NULL", "~"].contains text

def boolean? (text : String) : Option Bool :=
  if ["true", "True", "TRUE"].contains text then some true
  else if ["false", "False", "FALSE"].contains text then some false
  else none

def digits? (base : Nat) (text : List Char) : Option Nat :=
  if text.isEmpty then none
  else text.foldlM (fun value c => ((hexDigit? c).filter (· < base)).map (value * base + ·)) 0

def based? : List Char → Option Nat
  | '0' :: 'x' :: rest => digits? 16 rest
  | '0' :: 'o' :: rest => digits? 8 rest
  | '0' :: 'b' :: rest => digits? 2 rest
  | _ => none

-- Whether a text is made of digits but starts with a zero too many to be a number.
def hasLeadingZero (text : List Char) : Bool :=
  let digits := match text with
    | '-' :: rest => rest
    | '+' :: rest => rest
    | rest => rest
  2 ≤ digits.length && digits.head? = some '0' && digits.all Char.isDigit

def natural? (bits : Nat) (text : List Char) : Option Nat :=
  let magnitude := match text with
    | '+' :: rest => rest
    | rest => rest
  let value := match based? magnitude with
    | some value => some value
    | none => if hasLeadingZero text then none else digits? 10 magnitude
  value.filter (· < twoTo bits)

def negative? (bits : Nat) : List Char → Option Int
  | '-' :: rest =>
    let magnitude := match based? rest with
      | some value => some value
      | none => if hasLeadingZero rest then none else digits? 10 rest
    (magnitude.filter (· ≤ twoTo (bits - 1))).map fun value => -(value : Int)
  | _ => none

def isOneOf (words : List String) (text : List Char) : Bool := words.contains (String.ofList text)

def float? (text : List Char) : Option Double :=
  let magnitude := match text with
    | '+' :: rest => rest
    | rest => rest
  if text.head? = some '+' && magnitude.head?.any (fun c => c = '+' || c = '-') then none
  else if isOneOf [".inf", ".Inf", ".INF"] magnitude then some (.infinite false)
  else if isOneOf ["-.inf", "-.Inf", "-.INF"] text then some (.infinite true)
  else if isOneOf [".nan", ".NaN", ".NAN"] text then some .nan
  else (Double.ofChars? magnitude).filter Double.isFinite

-- An integer in the narrowest of four types that holds it.
def integer? (text : List Char) : Option Found :=
  match natural? 64 text with
  | some value => some (.integer value)
  | none =>
    match negative? 64 text with
    | some value => some (.integer value)
    | none =>
      match natural? 128 text with
      | some value => some (.wideInteger value "u128")
      | none => (negative? 128 text).map fun value => .wideInteger value "i128"

def plainMeaning (text : String) : Found :=
  if text.isEmpty || isEmptyWord text then .empty
  else match boolean? text with
    | some value => .boolean value
    | none =>
      match integer? text.toList with
      | some found => found
      | none =>
        match (if hasLeadingZero text.toList then none else float? text.toList) with
        | some value => .number value
        | none => .text text

def isLocalTag (tag : Bytes) : Bool := tag.head? = some 0x21

-- If the tag does not fit what is written, that is the fault.
def refuseScalar (expected : String) (tag : Option Bytes) (style : Style) (text : String) : Mismatch :=
  let untagged : Mismatch := .type (if style = .plain then plainMeaning text else .text text) expected
  let ifRead (found : Option Found) (wanted : String) : Mismatch :=
    match found with
    | some found => .type found expected
    | none => .value (.text text) wanted
  match tag with
  | none => untagged
  | some tag =>
    if tag = Tag.boolean then ifRead ((boolean? text).map .boolean) "a boolean"
    else if tag = Tag.integer then ifRead (integer? text.toList) "an integer"
    else if tag = Tag.float then ifRead ((float? text.toList).map .number) "a float"
    else if tag = Tag.empty then ifRead (if isEmptyWord text then some .empty else none) "null"
    else if isLocalTag tag then untagged
    else .type (.text text) expected

end DiskGauge.Yaml
