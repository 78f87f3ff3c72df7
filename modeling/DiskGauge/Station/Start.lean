import DiskGauge.Preferences.Store
import DiskGauge.Station.Board
import DiskGauge.Station.Settings
import DiskGauge.Storage.Environment

namespace DiskGauge

inductive BindFault where
  | invalidAddress
  | invalidPort
deriving DecidableEq, Repr

def BindFault.message : BindFault → String
  | .invalidAddress => "invalid socket address"
  | .invalidPort => "invalid port value"

def portPart? (address : String) : Option (List Char) :=
  let parts := Text.split ':' address.toList
  if parts.length < 2 then none else parts.getLast?

-- A plus sign may stand before the digits.
def port? (text : List Char) : Option Nat :=
  let digits := match text with
    | '+' :: rest => rest
    | rest => rest
  if digits.isEmpty || !digits.all Char.isDigit then none
  else
    let port := digits.foldl (fun value c => value * 10 + (c.toNat - 0x30)) 0
    if port < twoTo 16 then some port else none

def bindFault? (address : String) : Option BindFault :=
  match portPart? address with
  | none => some .invalidAddress
  | some part => if (port? part).isNone then some .invalidPort else none

structure StationStop where
  address : String
  fault : BindFault
deriving DecidableEq, Repr

def StationStop.message (s : StationStop) : String :=
  "Error: failed to bind " ++ s.address ++ "\n\nCaused by:\n    " ++ s.fault.message ++ "\n"

structure StartedStation where
  settings : Settings
  apiKey : Option String
  preferences : PreferencesStore
  station : Station

namespace Station

def environment (given : Environment) (place : String → Place) : Environment :=
  match (place ".env").readText with
  | .ok text => given.addFile text
  | .error _ => given

def settingsFile (e : Environment) : String := (e.get? "DISKWATCH_KERNEL_CONFIG").getD "kernel.yaml"

def startUp (given : Environment) (place : String → Place) (now : String) :
    Except StationStop StartedStation :=
  let e := environment given place
  let settings := Settings.load (place (settingsFile e))
  let preferences := PreferencesStore.openAt (place settings.preferencesFile)
  let station := settings.views.foldl (fun s name => (s.ensureView now name).2)
    (Station.start preferences.thresholds)
  match bindFault? settings.http.bind with
  | some fault => .error ⟨settings.http.bind, fault⟩
  | none => .ok ⟨settings, settings.resolveKey (e.get? "DISKWATCH_API_KEY"), preferences, station⟩

end Station

end DiskGauge
