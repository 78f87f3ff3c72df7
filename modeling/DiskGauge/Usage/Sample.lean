import DiskGauge.Usage.Report

namespace DiskGauge
open DiskGauge.Json

structure Sample where
  percent : Double
  free : Nat
  total : Nat
  used : Nat
deriving DecidableEq, Repr

namespace Sample
open Double

def percentOf (used total : Nat) : Double :=
  if total = 0 then .zero else (ofNat used / ofNat total * ofNat 1000).round / ofNat 10

-- More available than total bytes count as all of them.
def ofSpace (total available : Nat) : Sample :=
  let free := min available total
  let used := total - free
  ⟨percentOf used total, free, total, used⟩

def toJson (s : Sample) : Value :=
  .object [("used_percent", .ofDouble s.percent), ("free", .ofNat s.free),
    ("total", .ofNat s.total), ("used", .ofNat s.used)]

end Sample

structure Measurement where
  node : String
  samples : List (String × Sample)
deriving DecidableEq, Repr

namespace Measurement

def ofSamples (node : String) (samples : List (String × Sample)) : Measurement := ⟨node, Keyed.ofList samples⟩

theorem lookup_ofSamples (node : String) (samples : List (String × Sample)) (mount : String) :
    (ofSamples node samples).samples.lookup mount = samples.reverse.lookup mount :=
  Keyed.lookup_ofList samples

theorem distinct_ofSamples (node : String) (samples : List (String × Sample)) :
    Keyed.Distinct (ofSamples node samples).samples :=
  (Keyed.ofList_ascending samples).distinct

def toJson (m : Measurement) : Value :=
  .object [("node_id", .text m.node),
    ("usage", .object (m.samples.map fun entry => (entry.1, entry.2.toJson)))]

def payload (m : Measurement) : Bytes := m.toJson.bytes

end Measurement

end DiskGauge
