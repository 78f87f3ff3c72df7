import DiskGauge.Station.Step

namespace DiskGauge

-- A callback holds the key of its gauge only. A call for a gauge that is gone does nothing, and counts as delivered.
structure Binding where
  feed : FeedName
  key : Nat
  current : Option Handle
  selected : Option Handle
deriving DecidableEq, Repr

namespace Binding

def handle? (b : Binding) : Slot → Option Handle
  | .current => b.current
  | .selected => b.selected

def setHandle (b : Binding) (slot : Slot) (handle : Option Handle) : Binding :=
  match slot with
  | .current => { b with current := handle }
  | .selected => { b with selected := handle }

variable {b : Binding} {slot other : Slot} {handle : Option Handle}

@[simp] theorem feed_setHandle : (b.setHandle slot handle).feed = b.feed := by
  cases slot <;> rfl

@[simp] theorem key_setHandle : (b.setHandle slot handle).key = b.key := by
  cases slot <;> rfl

@[simp] theorem handle?_setHandle_self : (b.setHandle slot handle).handle? slot = handle := by
  cases slot <;> rfl

@[simp] theorem setHandle_setHandle {new : Option Handle} :
    (b.setHandle slot handle).setHandle slot new = b.setHandle slot new := by
  cases slot <;> rfl

theorem setHandle_same (same : b.handle? slot = handle) : b.setHandle slot handle = b := by
  subst same
  cases slot <;> rfl

theorem handle?_setHandle_other (different : other ≠ slot) :
    (b.setHandle slot handle).handle? other = b.handle? other := by
  cases slot <;> cases other <;> first | rfl | exact absurd rfl different

end Binding

-- A gauge, and the name under which its strokes are recorded, if it has one.
structure Fixture where
  gauge : Gauge
  name : Option String

inductive Renderer where
  | live (binding : Binding)
  -- What its surface showed when it was given up.
  | gone (frame : Frame)

structure View where
  binding : Binding
  created : String

-- Calls carry how many deliveries they are nested in; strokes carry the gauge that made them.
inductive Entry where
  | called (depth serial : Nat) (tag : String) (snapshot : Snapshot)
  | stroke (key : Nat) (name : Option String) (stroke : Stroke)

structure Station where
  main : Feed Callback
  side : Feed Callback
  gauges : List (Nat × Fixture)
  lastGauge : Nat
  renderers : List (String × Renderer)
  -- Ordered by name.
  views : List (String × View)
  -- The thresholds of views created from now on.
  thresholds : Thresholds
  health : Health

namespace Station

def start (thresholds : Thresholds) : Station :=
  ⟨.empty, .empty, [], 0, [], [], thresholds, .initial⟩

def feed (s : Station) : FeedName → Feed Callback
  | .main => s.main
  | .side => s.side

def setFeed (s : Station) (name : FeedName) (f : Feed Callback) : Station :=
  match name with
  | .main => { s with main := f }
  | .side => { s with side := f }

def fixture? (s : Station) (key : Nat) : Option Fixture := s.gauges.lookup key

def gauge? (s : Station) (key : Nat) : Option Gauge := (s.fixture? key).map (·.gauge)

def touch (s : Station) (key : Nat) (act : Gauge → Gauge × List Stroke) : Station × List Entry :=
  match s.fixture? key with
  | none => (s, [])
  | some fixture =>
    let (gauge, strokes) := act fixture.gauge
    ({ s with gauges := Keyed.put key { fixture with gauge } s.gauges },
      strokes.map (Entry.stroke key fixture.name))

def newGauge (s : Station) (name : Option String) (thresholds : Thresholds) : Nat × Station :=
  let key := s.lastGauge + 1
  (key, { s with lastGauge := key, gauges := Keyed.put key ⟨.new thresholds, name⟩ s.gauges })

def subscribe (s : Station) (feed : FeedName) (node : String) (callback : Callback) :
    Handle × Station :=
  let (handle, f) := (s.feed feed).subscribe node callback
  (handle, s.setFeed feed f)

def unsubscribe (s : Station) (feed : FeedName) (handle : Handle) : Bool × Station :=
  let (removed, f) := (s.feed feed).unsubscribe handle
  (removed, s.setFeed feed f)

def unsubscribe? (s : Station) (feed : FeedName) : Option Handle → Station
  | some handle => (s.unsubscribe feed handle).2
  | none => s

-- The old registration goes before the gauge learns of the change, and the new one is made after that. Binding to the
-- same node does nothing at all.
def bind (s : Station) (b : Binding) (slot : Slot) (node : Option String) :
    Binding × Station × List Entry :=
  if (b.handle? slot).map (·.node) = node then (b, s, [])
  else
    let s := s.unsubscribe? b.feed (b.handle? slot)
    let (s, entries) := s.touch b.key (·.setSlot slot node)
    match node with
    | none => (b.setHandle slot none, s, entries)
    | some node =>
      let (handle, s) := s.subscribe b.feed node (.gauge b.key)
      (b.setHandle slot (some handle), s, entries)

def release (s : Station) (b : Binding) : Station :=
  let s := (s.unsubscribe? b.feed b.current).unsubscribe? b.feed b.selected
  { s with gauges := Keyed.drop b.key s.gauges }

def frameOf (s : Station) (key : Nat) : Frame :=
  match s.gauge? key with
  | some gauge => gauge.frame
  | none => .blank

def liveRenderer? (s : Station) (name : String) : Option Binding :=
  match s.renderers.lookup name with
  | some (.live b) => some b
  | _ => none

def setRenderer (s : Station) (name : String) (renderer : Renderer) : Station :=
  { s with renderers := Keyed.put name renderer s.renderers }

-- Tells whether another renderer had to go for it.
def newRenderer (s : Station) (feed : FeedName) (name : String) (thresholds : Thresholds) :
    Bool × Station :=
  let old := s.liveRenderer? name
  let (key, s) := s.newGauge (some name) thresholds
  let s := match old with
    | some b => s.release b
    | none => s
  (old.isSome, s.setRenderer name (.live ⟨feed, key, none, none⟩))

def dispose (s : Station) (name : String) : Bool × Station :=
  match s.liveRenderer? name with
  | none => (false, s)
  | some b =>
    let frame := s.frameOf b.key
    (true, (s.release b).setRenderer name (.gone frame))

def bindRenderer (s : Station) (name : String) (slot : Slot) (node : Option String) :
    Bool × Station × List Entry :=
  match s.liveRenderer? name with
  | none => (false, s, [])
  | some b =>
    let (b, s, entries) := s.bind b slot node
    (true, s.setRenderer name (.live b), entries)

def setRendererThresholds (s : Station) (name : String) (thresholds : Thresholds) :
    Bool × Station × List Entry :=
  match s.liveRenderer? name with
  | none => (false, s, [])
  | some b =>
    let (s, entries) := s.touch b.key (·.applyThresholds thresholds)
    (true, s, entries)

section
variable {s : Station} {name other : FeedName} {f : Feed Callback} {node : String}
  {callback : Callback} {handle : Handle}

@[simp] theorem feed_setFeed_self : (s.setFeed name f).feed name = f := by
  cases name <;> rfl

theorem feed_setFeed_other (different : other ≠ name) : (s.setFeed name f).feed other = s.feed other := by
  cases name <;> cases other <;> first | rfl | exact absurd rfl different

@[simp] theorem gauges_setFeed : (s.setFeed name f).gauges = s.gauges := by
  cases name <;> rfl

@[simp] theorem lastGauge_setFeed : (s.setFeed name f).lastGauge = s.lastGauge := by
  cases name <;> rfl

@[simp] theorem feed_subscribe_self :
    (s.subscribe name node callback).2.feed name = ((s.feed name).subscribe node callback).2 :=
  feed_setFeed_self

theorem feed_subscribe_other (different : other ≠ name) :
    (s.subscribe name node callback).2.feed other = s.feed other :=
  feed_setFeed_other different

@[simp] theorem feed_unsubscribe_self :
    (s.unsubscribe name handle).2.feed name = ((s.feed name).unsubscribe handle).2 :=
  feed_setFeed_self

theorem feed_unsubscribe_other (different : other ≠ name) :
    (s.unsubscribe name handle).2.feed other = s.feed other :=
  feed_setFeed_other different

end

section
variable {s : Station} {key other : Nat} {act : Gauge → Gauge × List Stroke} {fixture : Fixture}

theorem touch_missing (missing : s.fixture? key = none) : s.touch key act = (s, []) := by
  simp [touch, missing]

theorem touch_found (found : s.fixture? key = some fixture) :
    s.touch key act =
      ({ s with gauges := Keyed.put key { fixture with gauge := (act fixture.gauge).1 } s.gauges },
        (act fixture.gauge).2.map (.stroke key fixture.name)) := by
  simp [touch, found]

theorem fixture?_touch_self (found : s.fixture? key = some fixture) :
    (s.touch key act).1.fixture? key = some { fixture with gauge := (act fixture.gauge).1 } := by
  rw [touch_found found]
  exact Keyed.lookup_put_self

theorem fixture?_touch_other (different : other ≠ key) :
    (s.touch key act).1.fixture? other = s.fixture? other := by
  cases found : s.fixture? key with
  | none => rw [touch_missing found]
  | some fixture =>
    rw [touch_found found]
    exact Keyed.lookup_put_other different

theorem gauge?_touch_self {g : Gauge} (found : s.gauge? key = some g) :
    (s.touch key act).1.gauge? key = some (act g).1 := by
  obtain ⟨fixture, present, rfl⟩ := Option.map_eq_some_iff.mp found
  simp only [gauge?, fixture?_touch_self present, Option.map_some]

theorem gauge?_touch_other (different : other ≠ key) :
    (s.touch key act).1.gauge? other = s.gauge? other := by
  simp only [gauge?, fixture?_touch_other different]

@[simp] theorem lastGauge_touch : (s.touch key act).1.lastGauge = s.lastGauge := by
  unfold touch
  split <;> rfl

@[simp] theorem feed_touch {name : FeedName} : (s.touch key act).1.feed name = s.feed name := by
  unfold touch
  split <;> rfl

end

section
variable {s : Station} {feed : FeedName} {handle : Option Handle} {key : Nat} {b : Binding}
  {name : Option String} {thresholds : Thresholds}

@[simp] theorem gauges_unsubscribe? : (s.unsubscribe? feed handle).gauges = s.gauges := by
  cases handle with
  | none => rfl
  | some => exact gauges_setFeed

@[simp] theorem lastGauge_unsubscribe? : (s.unsubscribe? feed handle).lastGauge = s.lastGauge := by
  cases handle with
  | none => rfl
  | some => exact lastGauge_setFeed

theorem gauge?_release_other (different : key ≠ b.key) : (s.release b).gauge? key = s.gauge? key := by
  simp [release, gauge?, fixture?, Keyed.lookup_drop_other different]

theorem gauge?_newGauge_self : (s.newGauge name thresholds).2.gauge? (s.lastGauge + 1) =
    some (.new thresholds) := by
  simp [newGauge, gauge?, fixture?]

theorem gauge?_newGauge_other (different : key ≠ s.lastGauge + 1) :
    (s.newGauge name thresholds).2.gauge? key = s.gauge? key := by
  simp only [newGauge, gauge?, fixture?, Keyed.lookup_put_other different]

end

end Station

end DiskGauge
