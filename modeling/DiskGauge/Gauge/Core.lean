import DiskGauge.Gauge.Picture

namespace DiskGauge

structure Gauge where
  thresholds : Thresholds
  slots : Slots
  last : Option Snapshot
  state : Option GaugeState
  frame : Frame
deriving DecidableEq, Repr

inductive Slot where
  | current
  | selected
deriving DecidableEq, Repr

def Slots.put (slots : Slots) (slot : Slot) (node : Option String) : Slots :=
  match slot with
  | .current => { slots with current := node }
  | .selected => { slots with selected := node }

namespace Gauge

def new (thresholds : Thresholds) : Gauge := ⟨thresholds, ⟨none, none⟩, none, none, .blank⟩

def strokes (s : Snapshot) (reading : Reading) (visible : Bool) : List Stroke :=
  [.gradient (.ofUsage reading.tier s.percent), .label reading.freeLabel, .visible visible]

def render (g : Gauge) : Gauge × List Stroke :=
  match g.last with
  | none => (g, [])
  | some s =>
    let reading := Reading.ofSnapshot s g.thresholds
    let visible := g.slots.shows s.node
    let made := strokes s reading visible
    ({ g with state := some ⟨s.node, visible, reading⟩, frame := g.frame.drawAll made }, made)

def receive (g : Gauge) (s : Snapshot) : Gauge × List Stroke :=
  if s.isValid then { g with last := some s }.render else (g, [])

-- Shows or hides what is drawn; nothing is drawn when this does not change.
def refreshVisibility (g : Gauge) : Gauge × List Stroke :=
  match g.state with
  | none => (g, [])
  | some state =>
    let visible := g.slots.shows state.node
    if state.visible = visible then (g, [])
    else
      let made := [Stroke.visible visible]
      ({ g with state := some { state with visible }, frame := g.frame.drawAll made }, made)

def setSlot (g : Gauge) (slot : Slot) (node : Option String) : Gauge × List Stroke :=
  { g with slots := g.slots.put slot node }.refreshVisibility

def applyThresholds (g : Gauge) (thresholds : Thresholds) : Gauge × List Stroke :=
  { g with thresholds }.render

end Gauge

end DiskGauge
