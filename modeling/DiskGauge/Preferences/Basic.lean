import DiskGauge.Gauge.Tier
import DiskGauge.Storage.Place

namespace DiskGauge
open DiskGauge.Json

structure Preferences where
  gigabytes : Double
deriving DecidableEq, Repr

inductive PreferencesFault where
  | invalidThreshold (gigabytes : Double)
  | serialization (error : Json.Error)
  | io (fault : IoFault)
deriving DecidableEq, Repr

def PreferencesFault.message : PreferencesFault → String
  | .invalidThreshold gigabytes =>
    "invalid low disk space threshold: " ++ Layout.plain.text gigabytes ++ " GB"
  | .serialization error => "Serialization error: " ++ error.message
  | .io fault => "IO error: " ++ fault.message

namespace Preferences

def standard : Preferences := ⟨Thresholds.defaultGigabytes⟩

def thresholds (p : Preferences) : Thresholds := .ofGigabytes p.gigabytes

-- A threshold is a finite number that is not negative; minus zero is one.
def isValid (p : Preferences) : Bool := p.gigabytes.isFinite && Double.le .zero p.gigabytes

def validate (p : Preferences) : Except PreferencesFault Unit :=
  if p.isValid then .ok () else .error (.invalidThreshold p.gigabytes)

theorem validate_valid {p : Preferences} (valid : p.isValid = true) : p.validate = .ok () := if_pos valid

theorem validate_invalid {p : Preferences} (invalid : p.isValid = false) :
    p.validate = .error (.invalidThreshold p.gigabytes) := by
  unfold validate
  rw [invalid]
  rfl

theorem isValid_of_ok {p : Preferences} (checked : p.validate = .ok ()) : p.isValid = true := by
  cases valid : p.isValid with
  | true => rfl
  | false =>
    rw [validate_invalid valid] at checked
    cases checked

def field : String := "low_disk_space_threshold_gb"

def toJson (p : Preferences) : Value := .object [(field, .ofDouble p.gigabytes)]

def fileBytes (p : Preferences) : Bytes := Utf8.encode (p.toJson.prettyChars 0)

def readMember (name : String) (gigabytes : Option Double) : Reader (Option Double) := fun rest =>
  if name = field then fill name gigabytes readDouble rest else skipMember name gigabytes rest

def read : Reader Preferences :=
  readRecord "struct Preferences"
    (fun rest => do
      let (gigabytes, rest) ← readMembers readMember none rest
      return (⟨gigabytes.getD standard.gigabytes⟩, rest))
    (fun rest => do
      let (gigabytes, rest) ← readElement? 0 readDouble rest
      return (⟨gigabytes.getD standard.gigabytes⟩, rest))

def ofText (text : String) : Except PreferencesFault Preferences :=
  match readDocument read (Utf8.ofString text) with
  | .error e => .error (.serialization e)
  | .ok p =>
    match p.validate with
    | .ok _ => .ok p
    | .error fault => .error fault

def load (place : Place) : Except PreferencesFault Preferences :=
  if place.isThere then
    match place.readText with
    | .error fault => .error (.io fault)
    | .ok text => ofText text
  else .ok standard

end Preferences

end DiskGauge
