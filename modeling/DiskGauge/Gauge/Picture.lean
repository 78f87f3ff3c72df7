import DiskGauge.Gauge.Tier

namespace DiskGauge
open DiskGauge.Json

-- The part of a gauge's state that depends on a snapshot and the thresholds only.
structure Reading where
  tier : Tier
  percentText : String
  freeLabel : String
deriving DecidableEq, Repr

namespace Reading

def ofSnapshot (s : Snapshot) (t : Thresholds) : Reading :=
  { tier := t.tier s.freeBytes
    percentText := Layout.plain.text s.percent ++ "%"
    freeLabel := Size.label s.freeBytes ++ " Free" }

def members (r : Reading) : List (String × Value) :=
  [("color_tier", .text r.tier.name), ("percent_text", .text r.percentText),
    ("free_label", .text r.freeLabel)]

def toJson (r : Reading) : Value := .object r.members

end Reading

structure Slots where
  current : Option String
  selected : Option String
deriving DecidableEq, Repr

def Slots.shows (slots : Slots) (node : String) : Bool :=
  slots.current = some node || slots.selected = some node

def remainderColour : String := "info"

structure Gradient where
  fill : String
  remainder : String
  stopPercent : Double
deriving DecidableEq, Repr

namespace Gradient

def ofUsage (tier : Tier) (percent : Double) : Gradient := ⟨tier.colour, remainderColour, percent⟩

def css (g : Gradient) : String :=
  let p := Layout.plain.text g.stopPercent
  "linear-gradient(90deg, " ++ g.fill ++ " " ++ p ++ "%, " ++ g.remainder ++ " " ++ p ++ "%)"

def toJson (g : Gradient) : Value :=
  .object [("fill", .text g.fill), ("remainder", .text g.remainder),
    ("stop_percent", .ofDouble g.stopPercent)]

end Gradient

structure Frame where
  gradient : Option Gradient
  background : Option String
  label : Option String
  visible : Bool
deriving DecidableEq, Repr

namespace Frame

def blank : Frame := ⟨none, none, none, false⟩

def toJson (f : Frame) : Value :=
  .object [("gradient", .ofOptional Gradient.toJson f.gradient),
    ("background", .ofOptional .text f.background), ("label", .ofOptional .text f.label),
    ("visible", .bool f.visible)]

end Frame

inductive Stroke where
  | gradient (g : Gradient)
  | label (text : String)
  | visible (shown : Bool)
deriving DecidableEq, Repr

-- A surface keeps the last stroke of each kind.
def Frame.draw (f : Frame) : Stroke → Frame
  | .gradient g => { f with gradient := some g, background := some g.css }
  | .label text => { f with label := some text }
  | .visible shown => { f with visible := shown }

def Frame.drawAll (f : Frame) (strokes : List Stroke) : Frame := strokes.foldl Frame.draw f

structure GaugeState where
  node : String
  visible : Bool
  reading : Reading
deriving DecidableEq, Repr

def GaugeState.toJson (s : GaugeState) : Value :=
  .object ([("resource_id", .text s.node), ("visible", .bool s.visible)] ++ s.reading.members)

end DiskGauge
