import DiskGauge.Probe.File
import DiskGauge.Storage.Folder
import DiskGauge.Usage.Sample

namespace DiskGauge.Probe

structure Disk where
  mountPoint : String
  total : Nat
  available : Nat
deriving DecidableEq, Repr

def findDisk? (disks : List Disk) (mount : String) : Option Disk :=
  disks.find? fun disk => Path.ofText disk.mountPoint = Path.ofText mount

structure NoMatchingMount where
  mounts : List String
deriving DecidableEq, Repr

def NoMatchingMount.message (e : NoMatchingMount) : String :=
  "none of the configured mount points were found: " ++ Text.quotedList e.mounts

def NoMatchingMount.tickMessage (e : NoMatchingMount) : String :=
  "Failed to collect disk usage: " ++ e.message

-- A sample for every configured name that is a mount point, under the name as configured.
def collect (disks : List Disk) (mounts : List String) :
    Except NoMatchingMount (List (String × Sample)) :=
  let found := mounts.filterMap fun mount =>
    (findDisk? disks mount).map fun disk => (mount, Sample.ofSpace disk.total disk.available)
  if found.isEmpty then .error ⟨mounts⟩ else .ok found

structure Opening where
  connect : Connect
  first : Except NoMatchingMount Message

def refusal : String := "Error: Failed to load probe configuration"

namespace Config

def report (c : Config) (samples : List (String × Sample)) : Message :=
  ⟨c.broker.topic, (Measurement.ofSamples c.node samples).payload, .atLeastOnce, false⟩

def tick (c : Config) (disks : List Disk) : Except NoMatchingMount Message :=
  match collect disks c.mounts with
  | .ok samples => .ok (c.report samples)
  | .error e => .error e

def connect (c : Config) : Connect := ⟨c.clientId, c.broker.keepAlive, true⟩

def opening (c : Config) (disks : List Disk) : Opening := ⟨c.connect, c.tick disks⟩

end Config

def start (newNode : String) (disks : List Disk) (place : Place) :
    Except StartFault (Opening × Place) :=
  match Config.loadOrInit newNode place with
  | .ok (c, place) => .ok (c.opening disks, place)
  | .error fault => .error fault

end DiskGauge.Probe
