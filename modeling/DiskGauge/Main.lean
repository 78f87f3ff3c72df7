import DiskGauge.Probe.NodeId
import DiskGauge.Probe.Start
import DiskGauge.Station.Delivery
import DiskGauge.Station.Start

namespace DiskGauge.Program

def placeAt (path : String) : IO Place := do
  try
    return .file (← IO.FS.readBinFile path).toList
  catch
    | .noFileOrDirectory .. => return .absent
    | _ => return .directory

partial def readLines (input : IO.FS.Stream) : IO (List String) := do
  let line ← input.getLine
  if line.isEmpty then return []
  else return line :: (← readLines input)

def environmentOf (names : List String) : IO Environment := do
  let found ← names.filterMapM fun name => do
    return (← IO.getEnv name).map fun value => (name, value)
  return ⟨found⟩

def showReports : List String → Session → IO Unit
  | [], _ => return
  | line :: rest, s => do
    let (_, s, _) := Session.ingest (Session.publishWithin 0 0) .main (Utf8.ofString line) s
    for picture in s.station.readViews do
      IO.println picture.toJson.compact
    showReports rest s

def runStation : IO UInt32 := do
  let given ← environmentOf ["DISKWATCH_KERNEL_CONFIG", "DISKWATCH_API_KEY"]
  let assignments ← placeAt ".env"
  let environment := Station.environment given fun _ => assignments
  let file ← placeAt (Station.settingsFile environment)
  let preferences ← placeAt (Settings.load file).preferencesFile
  let places := [(".env", assignments), ((Settings.load file).preferencesFile, preferences),
    (Station.settingsFile environment, file)]
  match Station.startUp given (fun path => (places.lookup path).getD .absent) "" with
  | .error stop =>
    IO.eprint stop.message
    return 1
  | .ok started =>
    showReports (← readLines (← IO.getStdin))
      { Session.start started.preferences.thresholds "" with station := started.station }
    return 0

-- A line has the mount point, the total and the available bytes of a disk.
def disk? (line : String) : Option Probe.Disk :=
  match Text.split ' ' (line.trimAscii.toString.toList) with
  | [mount, total, available] =>
    match (String.ofList total).toNat?, (String.ofList available).toNat? with
    | some total, some available => some ⟨String.ofList mount, total, available⟩
    | _, _ => none
  | _ => none

def runProbe (directory : String) : IO UInt32 := do
  let path := directory ++ "/" ++ Probe.Config.filePath
  let bytes ← IO.getRandomBytes 16
  let before ← placeAt path
  let disks := (← readLines (← IO.getStdin)).filterMap disk?
  match Probe.start (Probe.NodeId.ofBytes bytes.toList) disks before with
  | .error _ =>
    IO.eprintln Probe.refusal
    return 1
  | .ok (opening, after) =>
    if before ≠ after then
      if let some content := after.content? then
        IO.FS.createDirAll (directory ++ "/diskwatch-probe")
        IO.FS.writeBinFile path ⟨content.toArray⟩
    match opening.first with
    | .ok message => IO.println ((Utf8.string? message.payload).getD "")
    | .error e => IO.eprintln e.tickMessage
    return 0

end DiskGauge.Program

def main (arguments : List String) : IO UInt32 :=
  match arguments with
  | ["station"] => DiskGauge.Program.runStation
  | ["probe", directory] => DiskGauge.Program.runProbe directory
  | _ => do
    IO.eprintln "usage: diskgauge station | diskgauge probe DIRECTORY"
    return 2
