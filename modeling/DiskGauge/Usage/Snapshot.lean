import DiskGauge.Json.Value

namespace DiskGauge
open DiskGauge.Json

structure Snapshot where
  node : String
  percent : Double
  free : Int
deriving DecidableEq, Repr

inductive Rejection where
  | json (error : Json.Error)
  | missingRoot (node : String)
  | negativeFree (node : String) (free : Int)
  | percentOutOfRange (node : String) (percent : Double)
deriving DecidableEq, Repr

def Rejection.message : Rejection → String
  | .json error => "invalid usage payload: " ++ error.message
  | .missingRoot node => "no root mount entry for node " ++ node
  | .negativeFree node free => "negative free space (" ++ toString free ++ ") for node " ++ node
  | .percentOutOfRange node percent =>
    "used percent " ++ Layout.plain.text percent ++ " out of range for node " ++ node

namespace Snapshot

def hundred : Double := Double.ofNat 100

-- Both bounds belong to the range. A NaN is outside, being neither above nor below.
def percentInRange (percent : Double) : Bool :=
  percent.isFinite && Double.le .zero percent && Double.le percent hundred

-- Negative free space is reported before a percentage out of range.
def validate (s : Snapshot) : Except Rejection Unit :=
  if s.free < 0 then .error (.negativeFree s.node s.free)
  else if percentInRange s.percent then .ok ()
  else .error (.percentOutOfRange s.node s.percent)

def isValid (s : Snapshot) : Bool :=
  match s.validate with
  | .ok _ => true
  | .error _ => false

def freeBytes (s : Snapshot) : Nat := s.free.toNat

def toJson (s : Snapshot) : Value :=
  .object [("resource_id", .text s.node), ("used_percent", .ofDouble s.percent),
    ("free_bytes", .ofInt s.free)]

structure Partial where
  node : Option String
  percent : Option Double
  free : Option Int

def readMember (name : String) (p : Partial) : Reader Partial := fun rest =>
  if name = "resource_id" then do
    let (node, rest) ← fill name p.node readText rest
    return ({ p with node }, rest)
  else if name = "used_percent" then do
    let (percent, rest) ← fill name p.percent readDouble rest
    return ({ p with percent }, rest)
  else if name = "free_bytes" then do
    let (free, rest) ← fill name p.free readInteger rest
    return ({ p with free }, rest)
  else skipMember name p rest

def read : Reader Snapshot :=
  readRecord "struct UsageSnapshot"
    (fun rest => do
      let (p, rest) ← readMembers readMember ⟨none, none, none⟩ rest
      let node ← require "resource_id" p.node rest
      let percent ← require "used_percent" p.percent rest
      let free ← require "free_bytes" p.free rest
      return (⟨node, percent, free⟩, rest))
    (fun rest => do
      let expected := "struct UsageSnapshot with 3 elements"
      let (node, rest) ← readElement 0 expected readText rest
      let (percent, rest) ← readElement 1 expected readDouble rest
      let (free, rest) ← readElement 2 expected readInteger rest
      return (⟨node, percent, free⟩, rest))

def ofBytes (document : Bytes) : Except Json.Error Snapshot := readDocument read document

end Snapshot

end DiskGauge
