import DiskGauge.Station.Basic

namespace DiskGauge
open DiskGauge.Json

structure ViewPicture where
  name : String
  slots : Slots
  state : Option GaugeState
  frame : Frame
  thresholds : Thresholds
  created : String
deriving DecidableEq, Repr

def ViewPicture.newborn (name : String) (thresholds : Thresholds) (created : String) : ViewPicture :=
  ⟨name, ⟨none, none⟩, none, .blank, thresholds, created⟩

def ViewPicture.toJson (v : ViewPicture) : Value :=
  .object [("name", .text v.name), ("current_node", .ofOptional .text v.slots.current),
    ("selected_node", .ofOptional .text v.slots.selected),
    ("state", .ofOptional GaugeState.toJson v.state), ("frame", v.frame.toJson),
    ("thresholds", v.thresholds.toJson), ("created_at", .text v.created)]

namespace Station

def view? (s : Station) (name : String) : Option View := s.views.lookup name

def setView (s : Station) (name : String) (view : View) : Station :=
  { s with views := Keyed.insert name view s.views }

def picture (s : Station) (name : String) (view : View) : ViewPicture :=
  let gauge := (s.gauge? view.binding.key).getD (.new s.thresholds)
  ⟨name, gauge.slots, gauge.state, gauge.frame, gauge.thresholds, view.created⟩

def readView (s : Station) (name : String) : Option ViewPicture :=
  (s.view? name).map (s.picture name)

def readViews (s : Station) : List ViewPicture :=
  s.views.map fun entry => s.picture entry.1 entry.2

-- Tells whether there was none of that name.
def ensureView (s : Station) (now : String) (name : String) : Bool × Station :=
  match s.view? name with
  | some _ => (false, s)
  | none =>
    let (key, s) := s.newGauge none s.thresholds
    (true, s.setView name ⟨⟨.main, key, none, none⟩, now⟩)

def removeView (s : Station) (name : String) : Bool × Station :=
  match s.view? name with
  | none => (false, s)
  | some view => (true, { s with views := Keyed.drop name s.views }.release view.binding)

def bindView (s : Station) (name : String) (slot : Slot) (node : Option String) :
    Option ViewPicture × Station × List Entry :=
  match s.view? name with
  | none => (none, s, [])
  | some view =>
    let (binding, s, entries) := s.bind view.binding slot node
    let view := { view with binding }
    (some (s.picture name view), s.setView name view, entries)

def touchAll (act : Gauge → Gauge × List Stroke) : List Nat → Station → Station × List Entry
  | [], s => (s, [])
  | key :: rest, s =>
    let (s, entries) := s.touch key act
    let (s, later) := touchAll act rest s
    (s, entries ++ later)

def applyThresholds (s : Station) (thresholds : Thresholds) : Station × List Entry :=
  touchAll (·.applyThresholds thresholds) (s.views.map fun entry => entry.2.binding.key)
    { s with thresholds }

def healthReport (s : Station) (feed : FeedName) : HealthReport :=
  ⟨s.views.length, (s.feed feed).total, s.health⟩

def mapHealth (s : Station) (f : Health → Health) : Station := { s with health := f s.health }

variable {s : Station} {name other : String} {view : View}

theorem view?_setView_self : (s.setView name view).view? name = some view := Keyed.lookup_insert_self

theorem view?_setView_other (different : other ≠ name) : (s.setView name view).view? other = s.view? other :=
  Keyed.lookup_insert_other different

theorem readView_name {picture : ViewPicture} (read : s.readView name = some picture) : picture.name = name := by
  obtain ⟨view, _, rfl⟩ := Option.map_eq_some_iff.mp read
  rfl

theorem ensureView_found (found : s.view? name = some view) (now : String) : s.ensureView now name = (false, s) := by
  simp [ensureView, found]

theorem ensureView_missing (missing : s.view? name = none) (now : String) :
    (s.ensureView now name).1 = true ∧
      (s.ensureView now name).2.readView name = some (.newborn name s.thresholds now) := by
  unfold ensureView
  rw [missing]
  refine ⟨rfl, ?_⟩
  dsimp only
  rw [readView, view?_setView_self, Option.map_some]
  have made : ((s.newGauge none s.thresholds).2.setView name
      ⟨⟨.main, (s.newGauge none s.thresholds).1, none, none⟩, now⟩).gauge?
        (s.newGauge none s.thresholds).1 = some (.new s.thresholds) := gauge?_newGauge_self
  unfold picture
  dsimp only
  rw [made]
  rfl

theorem readView_ensureView (s : Station) (now name : String) :
    ∃ picture, (s.ensureView now name).2.readView name = some picture := by
  cases found : s.view? name with
  | some view =>
    rw [ensureView_found found]
    exact ⟨_, congrArg (Option.map _) found⟩
  | none => exact ⟨_, (ensureView_missing found now).2⟩

end Station

end DiskGauge
