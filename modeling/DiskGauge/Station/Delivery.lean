import DiskGauge.Station.Board
import DiskGauge.Usage.Report

namespace DiskGauge

structure Session where
  station : Station
  handles : List (String × Handle)
  lastClient : Nat
  calls : List (Nat × Nat)
  now : String

inductive Answer where
  | nothing
  | flag (value : Bool)
  | number (value : Nat)
  | node (id : String)
  | noHandle
  | gone
  | delivery (d : Delivery)
  | rejected (r : Rejection)
  | view (picture : Option ViewPicture)
  | viewCount (count : Nat)
  | health (report : HealthReport)

inductive Event where
  | station (entry : Entry)
  | answered (tag : String) (answer : Answer)

namespace Session

def start (thresholds : Thresholds) (now : String) : Session :=
  ⟨.start thresholds, [], 0, [], now⟩

def callsOf (s : Session) (serial : Nat) : Nat := (s.calls.lookup serial).getD 0

def countCall (s : Session) (serial : Nat) : Session :=
  { s with calls := Keyed.put serial (s.callsOf serial + 1) s.calls }

def onStation (s : Session) (f : Station → Station) : Session := { s with station := f s.station }

def orGone (did : Bool) : Answer := if did then .nothing else .gone

abbrev Publish := FeedName → Snapshot → Session → Delivery × Session × List Event

def ingest (publish : Publish) (feed : FeedName) (payload : Bytes) (s : Session) :
    Except Rejection Delivery × Session × List Event :=
  let s := s.onStation (·.mapHealth .recordEvent)
  match Snapshot.decode payload with
  | .ok snapshot =>
    let (d, s, events) := publish feed snapshot s
    (.ok d, s, events)
  | .error r => (.error r, s.onStation (·.mapHealth .recordDropped), [])

def perform (publish : Publish) (step : Step) (s : Session) : Answer × Session × List Event :=
  match step with
  | .subscribe feed tag node ending body times =>
    let serial := s.lastClient + 1
    let (handle, station) := s.station.subscribe feed node (.client ⟨serial, tag, ending, body, times⟩)
    (.node handle.node,
      { s with station, lastClient := serial, handles := Keyed.put tag handle s.handles }, [])
  | .unsubscribe feed tag =>
    match s.handles.lookup tag with
    | none => (.noHandle, s, [])
    | some handle =>
      let (removed, station) := s.station.unsubscribe feed handle
      (.flag removed, { s with station, handles := Keyed.drop tag s.handles }, [])
  | .compareHandles a b =>
    (.flag (s.handles.lookup a = s.handles.lookup b), s, [])
  | .count feed node => (.number ((s.station.feed feed).count node), s, [])
  | .publish feed snapshot =>
    let (d, s, events) := publish feed snapshot s
    (.delivery d, s, events)
  | .ingest feed payload =>
    match ingest publish feed payload s with
    | (.ok d, s, events) => (.delivery d, s, events)
    | (.error r, s, events) => (.rejected r, s, events)
  | .newRenderer feed name thresholds =>
    let (replaced, station) := s.station.newRenderer feed name thresholds
    (.flag replaced, { s with station }, [])
  | .bindRenderer name slot node =>
    let (did, station, entries) := s.station.bindRenderer name slot node
    (orGone did, { s with station }, entries.map .station)
  | .setThresholds name thresholds =>
    let (did, station, entries) := s.station.setRendererThresholds name thresholds
    (orGone did, { s with station }, entries.map .station)
  | .dispose name =>
    let (did, station) := s.station.dispose name
    (orGone did, { s with station }, [])
  | .createView name =>
    let (created, station) := s.station.ensureView s.now name
    (.flag created, { s with station }, [])
  | .removeView name =>
    let (removed, station) := s.station.removeView name
    (.flag removed, { s with station }, [])
  | .bindView name slot node =>
    let (picture, station, entries) := s.station.bindView name slot node
    (.view picture, { s with station }, entries.map .station)
  | .showView name => (.view (s.station.readView name), s, [])
  | .countViews => (.viewCount s.station.views.length, s, [])
  | .applyThresholds thresholds =>
    let (station, entries) := s.station.applyThresholds thresholds
    (.nothing, { s with station }, entries.map .station)
  | .connected => (.nothing, s.onStation (·.mapHealth .connected), [])
  | .reconnecting => (.nothing, s.onStation (·.mapHealth .reconnecting), [])
  | .recordEvent => (.nothing, s.onStation (·.mapHealth .recordEvent), [])
  | .recordDropped => (.nothing, s.onStation (·.mapHealth .recordDropped), [])
  | .health feed => (.health (s.station.healthReport feed), s, [])

def runBody (publish : Publish) (tag : String) : List Step → Session → Session × List Event
  | [], s => (s, [])
  | step :: rest, s =>
    let (answer, s, events) := perform publish step s
    let (s, later) := runBody publish tag rest s
    (s, events ++ .answered tag answer :: later)

-- Tells whether the callback succeeded.
def call (body : String → List Step → Session → Session × List Event) (depth : Nat)
    (snapshot : Snapshot) (callback : Callback) (s : Session) : Bool × Session × List Event :=
  match callback with
  | .gauge key =>
    let (station, entries) := s.station.touch key (·.receive snapshot)
    (true, { s with station }, entries.map .station)
  | .client c =>
    let called := Event.station (.called depth c.serial c.tag snapshot)
    let due := s.callsOf c.serial < c.times
    let s := s.countCall c.serial
    if due then
      let (s, events) := body c.tag c.body s
      (c.ending.succeeds, s, called :: events)
    else (c.ending.succeeds, s, [called])

def deliver (body : String → List Step → Session → Session × List Event) (depth : Nat)
    (snapshot : Snapshot) : List (Registration Callback) → Delivery → Session →
    Delivery × Session × List Event
  | [], d, s => (d, s, [])
  | r :: rest, d, s =>
    let (ok, s, events) := call body depth snapshot r.callback s
    let (d, s, later) := deliver body depth snapshot rest (d.count ok) s
    (d, s, events ++ later)

-- The registrations that the feed has for the node at the start are called in their order, whatever the callbacks do
-- meanwhile. Below the given number of nested deliveries bodies are not run any more.
def publishWithin : Nat → Nat → Publish
  | 0, depth, feed, snapshot, s =>
    deliver (fun _ _ s => (s, [])) depth snapshot
      ((s.station.feed feed).registrations snapshot.node) .none s
  | nested + 1, depth, feed, snapshot, s =>
    deliver (fun tag steps s => runBody (publishWithin nested (depth + 1)) tag steps s) depth
      snapshot ((s.station.feed feed).registrations snapshot.node) .none s

def step (bodies : Nat) (s : Session) (step : Step) : Answer × Session × List Event :=
  perform (publishWithin bodies 0) step s

end Session

end DiskGauge
