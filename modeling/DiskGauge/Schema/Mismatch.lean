import DiskGauge.Number.Decimal
import DiskGauge.Text.Quoted

namespace DiskGauge.Schema

inductive Found where
  | boolean (value : Bool)
  | integer (value : Int)
  -- An integer too large for 64 bits, in its decimal digits and the type that holds it.
  | wideInteger (value : Int) (type : String)
  | number (value : Double)
  | text (value : String)
  | empty
  | sequence
  | map
  | other (kind : String)
deriving DecidableEq, Repr

inductive Mismatch where
  | type (found : Found) (expected : String)
  | value (found : Found) (expected : String)
  | length (count : Nat) (expected : String)
  | missing (field : String)
  | duplicate (field : String)
deriving DecidableEq, Repr

-- The two spellings in which formats differ.
structure Wording where
  empty : String
  number : Layout

namespace Found

def describe (wording : Wording) : Found → String
  | .boolean value => "boolean `" ++ (if value then "true" else "false") ++ "`"
  | .integer value => "integer `" ++ toString value ++ "`"
  | .wideInteger value type => "integer `" ++ toString value ++ "` as " ++ type
  | .number value => "floating point `" ++ wording.number.text value ++ "`"
  | .text value => "string " ++ Text.quoted value
  | .empty => wording.empty
  | .sequence => "sequence"
  | .map => "map"
  | .other kind => kind

end Found

namespace Mismatch

def message (wording : Wording) : Mismatch → String
  | .type found expected => "invalid type: " ++ found.describe wording ++ ", expected " ++ expected
  | .value found expected => "invalid value: " ++ found.describe wording ++ ", expected " ++ expected
  | .length count expected => "invalid length " ++ toString count ++ ", expected " ++ expected
  | .missing field => "missing field `" ++ field ++ "`"
  | .duplicate field => "duplicate field `" ++ field ++ "`"

end Mismatch

end DiskGauge.Schema
