import DiskGauge.Proofs.Station.Evolution

namespace DiskGauge

inductive Move where
  -- Publishing reaches nobody here; its calls are moves of their own.
  | step (step : Step)
  | receive (key : Nat) (snapshot : Snapshot)
  | call (depth : Nat) (client : Client) (snapshot : Snapshot)
  | answer (tag : String) (answer : Answer)

def Event.entry? : Event → Option Entry
  | .station entry => some entry
  | .answered .. => none

def entriesOf (events : List Event) : List Entry := events.filterMap Event.entry?

@[simp] theorem entriesOf_append (a b : List Event) : entriesOf (a ++ b) = entriesOf a ++ entriesOf b :=
  List.filterMap_append ..

@[simp] theorem entriesOf_station (entries : List Entry) : entriesOf (entries.map .station) = entries := by
  simp [entriesOf, List.filterMap_map, Function.comp_def, Event.entry?]

namespace Session

def idle : Publish := fun _ _ s => (.none, s, [])

def move (s : Session) : Move → Session × List Event
  | .step step => (perform idle step s).2
  | .receive key snapshot =>
    let (station, entries) := s.station.touch key (·.receive snapshot)
    ({ s with station }, entries.map .station)
  | .call depth client snapshot =>
    (s.countCall client.serial, [.station (.called depth client.serial client.tag snapshot)])
  | .answer tag answer => (s, [.answered tag answer])

def moves : List Move → Session → Session × List Event
  | [], s => (s, [])
  | m :: rest, s =>
    let (s, events) := s.move m
    let (s, later) := moves rest s
    (s, events ++ later)

theorem moves_append (first second : List Move) (s : Session) :
    moves (first ++ second) s =
      ((moves second (moves first s).1).1, (moves first s).2 ++ (moves second (moves first s).1).2) := by
  induction first generalizing s with
  | nil => rfl
  | cons m rest ih => simp [moves, ih, List.append_assoc]

end Session

-- A kind of step that also the bodies it registers are of.
structure Hereditary (kind : Step → Prop) : Prop where
  body : ∀ {feed tag node ending body times}, kind (.subscribe feed tag node ending body times) →
    ∀ step ∈ body, kind step
  recordEvent : kind .recordEvent
  recordDropped : kind .recordDropped

def Client.Obeys (kind : Step → Prop) (c : Client) : Prop := ∀ step ∈ c.body, kind step

def Callback.Obeys (kind : Step → Prop) : Callback → Prop
  | .gauge _ => True
  | .client c => c.Obeys kind

def Move.Obeys (kind : Step → Prop) : Move → Prop
  | .step quiet => kind quiet
  | _ => True

-- What is true of every callback that is registered.
def Station.Listens (good : Callback → Prop) (s : Station) : Prop :=
  ∀ feed node, ∀ r ∈ (s.feed feed).registrations node, good r.callback

def Station.Obeys (kind : Step → Prop) (s : Station) : Prop :=
  ∀ feed node, ∀ r ∈ (s.feed feed).registrations node, r.callback.Obeys kind

namespace Station
variable {good : Callback → Prop} {kind : Client → Prop} {s s' : Station} {entries : List Entry}

theorem subscribe_listens (listens : s.Listens good) {feed : FeedName} {node : String}
    {callback : Callback} (new : good callback) : (s.subscribe feed node callback).2.Listens good := by
  intro other place r member
  by_cases same : other = feed
  · subst other
    rw [feed_subscribe_self] at member
    by_cases equal : place = node
    · subst place
      rw [Feed.registrations_subscribe_self] at member
      rcases List.mem_append.mp member with old | last
      · exact listens feed node r old
      · rw [List.mem_singleton.mp last]
        exact new
    · rw [Feed.registrations_subscribe_other equal] at member
      exact listens feed place r member
  · rw [feed_subscribe_other same] at member
    exact listens other place r member

theorem unsubscribe_listens (listens : s.Listens good) {feed : FeedName} {handle : Handle} :
    (s.unsubscribe feed handle).2.Listens good := by
  intro other place r member
  by_cases same : other = feed
  · subst other
    rw [feed_unsubscribe_self] at member
    exact listens feed place r ((Feed.registrations_unsubscribe_sublist ..).subset member)
  · rw [feed_unsubscribe_other same] at member
    exact listens other place r member

theorem evolves_listens (gauges : ∀ key, good (.gauge key)) (clients : ∀ c, kind c → good (.client c))
    (listens : s.Listens good) (evolves : Evolves kind s s' entries) : s'.Listens good := by
  induction evolves with
  | same _ _ feeds _ =>
    intro feed node r member
    rw [feeds] at member
    exact listens feed node r member
  | touch =>
    intro feed node r member
    rw [feed_touch] at member
    exact listens feed node r member
  | grow => exact listens
  | drop => exact listens
  | listen key => exact subscribe_listens listens (gauges key)
  | register allowed => exact subscribe_listens listens (clients _ allowed)
  | unsubscribe => exact unsubscribe_listens listens
  | trans _ _ first second => exact second (first listens)

theorem evolves_obeys {kind : Step → Prop} (obeys : s.Obeys kind)
    (evolves : Evolves (Client.Obeys kind) s s' entries) : s'.Obeys kind :=
  evolves_listens (fun _ => trivial) (fun _ good => good) obeys evolves

end Station

def Step.client? (s : Session) : Step → Option Client
  | .subscribe _ tag _ ending body times => some ⟨s.lastClient + 1, tag, ending, body, times⟩
  | _ => none

namespace Session
variable {kind : Step → Prop} {s : Session}

theorem perform_evolves {kind : Client → Prop} (step : Step)
    (registers : ∀ c, step.client? s = some c → kind c) :
    Station.Evolves kind s.station (perform idle step s).2.1.station
      (entriesOf (perform idle step s).2.2) := by
  cases step with
  | subscribe feed tag node ending body times => exact .register (registers _ rfl)
  | unsubscribe feed tag =>
    cases held : s.handles.lookup tag with
    | none => simpa [perform, held] using .refl
    | some handle => simpa [perform, held] using .unsubscribe
  | compareHandles a b => exact .refl
  | count feed node => exact .refl
  | publish feed snapshot => exact .refl
  | ingest feed payload =>
    cases decoded : Snapshot.decode payload <;> simp only [perform, ingest, decoded, idle] <;>
      exact .aside rfl rfl rfl rfl
  | newRenderer feed name thresholds => exact Station.newRenderer_evolves ..
  | bindRenderer name slot node => simpa [perform] using Station.bindRenderer_evolves ..
  | setThresholds name thresholds => simpa [perform] using Station.setRendererThresholds_evolves ..
  | dispose name => exact Station.dispose_evolves ..
  | createView name => exact Station.ensureView_evolves ..
  | removeView name => exact Station.removeView_evolves ..
  | bindView name slot node => simpa [perform] using Station.bindView_evolves ..
  | showView name => exact .refl
  | countViews => exact .refl
  | applyThresholds thresholds => simpa [perform] using Station.applyThresholds_evolves ..
  | connected => exact .aside rfl rfl rfl rfl
  | reconnecting => exact .aside rfl rfl rfl rfl
  | recordEvent => exact .aside rfl rfl rfl rfl
  | recordDropped => exact .aside rfl rfl rfl rfl
  | health feed => exact .refl

theorem idle_evolves (hereditary : Hereditary kind) (step : Step) (obeys : kind step) :
    Station.Evolves (Client.Obeys kind) s.station (perform idle step s).2.1.station
      (entriesOf (perform idle step s).2.2) := by
  refine perform_evolves step ?_
  intro c registered
  cases step with
  | subscribe =>
    obtain rfl := Option.some.inj registered
    exact hereditary.body obeys
  | _ => cases registered

theorem move_evolves (hereditary : Hereditary kind) (m : Move) (obeys : m.Obeys kind) :
    Station.Evolves (Client.Obeys kind) s.station (s.move m).1.station (entriesOf (s.move m).2) := by
  cases m with
  | step step => exact idle_evolves hereditary step obeys
  | receive key snapshot =>
    simpa [move] using .touch key (Gauge.receive_faithful snapshot)
  | call depth client snapshot => exact .same rfl rfl (fun _ => rfl) fun _ => rfl
  | answer tag answer => exact .refl

theorem moves_evolves (hereditary : Hereditary kind) (ms : List Move)
    (obeys : ∀ m ∈ ms, m.Obeys kind) :
    Station.Evolves (Client.Obeys kind) s.station (moves ms s).1.station (entriesOf (moves ms s).2) := by
  induction ms generalizing s with
  | nil => exact .refl
  | cons m rest ih =>
    have first := move_evolves (s := s) hereditary m (obeys m (by simp))
    have second := ih (s := (s.move m).1) fun m member => obeys m (by simp [member])
    simpa [moves] using first.trans second

-- What a row of moves of a kind leads to, with what was seen of it.
def Made (kind : Step → Prop) (s : Session) (r : Session × List Event) : Prop :=
  ∃ ms : List Move, (∀ m ∈ ms, m.Obeys kind) ∧ moves ms s = r

theorem Made.nil : Made kind s (s, []) := ⟨[], by simp, rfl⟩

theorem Made.single (m : Move) (obeys : m.Obeys kind) : Made kind s (s.move m) :=
  ⟨[m], by simpa using obeys, by simp [moves]⟩

theorem Made.trans {a b : Session × List Event} (first : Made kind s a) (second : Made kind a.1 b) :
    Made kind s (b.1, a.2 ++ b.2) := by
  obtain ⟨one, goodOne, rfl⟩ := first
  obtain ⟨two, goodTwo, rfl⟩ := second
  refine ⟨one ++ two, ?_, moves_append one two s⟩
  intro m member
  rcases List.mem_append.mp member with left | right
  · exact goodOne m left
  · exact goodTwo m right

theorem Made.obeys {r : Session × List Event} (hereditary : Hereditary kind)
    (obeys : s.station.Obeys kind) (made : Made kind s r) : r.1.station.Obeys kind := by
  obtain ⟨ms, good, rfl⟩ := made
  exact Station.evolves_obeys obeys (moves_evolves hereditary ms good)

section
variable {publish : Publish} (hereditary : Hereditary kind)
  (nested : ∀ feed snapshot (s : Session), s.station.Obeys kind →
    Made kind s (publish feed snapshot s).2)
include hereditary nested

theorem ingest_made (feed : FeedName) (payload : Bytes) (obeys : s.station.Obeys kind) :
    Made kind s (ingest publish feed payload s).2 := by
  have counted : Made kind s (s.onStation (·.mapHealth .recordEvent), []) :=
    .single (.step .recordEvent) hereditary.recordEvent
  unfold ingest
  cases Snapshot.decode payload with
  | ok snapshot => exact counted.trans (nested feed snapshot _ obeys)
  | error r => exact counted.trans (.single (.step .recordDropped) hereditary.recordDropped)

theorem perform_made (step : Step) (good : kind step) (obeys : s.station.Obeys kind) :
    Made kind s (perform publish step s).2 := by
  cases step with
  | publish feed snapshot => exact nested feed snapshot s obeys
  | ingest feed payload =>
    have made := ingest_made hereditary nested feed payload obeys
    rcases seen : ingest publish feed payload s with ⟨_ | _, after, events⟩ <;>
      simpa only [perform, seen] using made
  | _ => exact .single (.step _) good

theorem runBody_made (tag : String) (steps : List Step) (good : ∀ step ∈ steps, kind step)
    (obeys : s.station.Obeys kind) : Made kind s (runBody publish tag steps s) := by
  induction steps generalizing s with
  | nil => exact .nil
  | cons step rest ih =>
    have first := perform_made hereditary nested step (good step (by simp)) obeys
    have later := ih (fun step member => good step (by simp [member])) (first.obeys hereditary obeys)
    have answered : Made kind (perform publish step s).2.1 _ :=
      .single (.answer tag (perform publish step s).1) trivial
    exact first.trans (answered.trans later)

end

section
variable {body : String → List Step → Session → Session × List Event}
  (hereditary : Hereditary kind)
  (bodies : ∀ tag steps (s : Session), (∀ step ∈ steps, kind step) → s.station.Obeys kind →
    Made kind s (body tag steps s))
include bodies

theorem call_made (depth : Nat) (snapshot : Snapshot) (callback : Callback)
    (good : callback.Obeys kind) (obeys : s.station.Obeys kind) :
    Made kind s (call body depth snapshot callback s).2 := by
  cases callback with
  | gauge key => exact .single (.receive key snapshot) trivial
  | client c =>
    have called : Made kind s _ := .single (.call depth c snapshot) trivial
    unfold call
    dsimp only
    split
    · exact called.trans (bodies c.tag c.body _ good obeys)
    · exact called

include hereditary

theorem deliver_made (depth : Nat) (snapshot : Snapshot) (rs : List (Registration Callback))
    (d : Delivery) (good : ∀ r ∈ rs, r.callback.Obeys kind) (obeys : s.station.Obeys kind) :
    Made kind s (deliver body depth snapshot rs d s).2 := by
  induction rs generalizing s d with
  | nil => exact .nil
  | cons r rest ih =>
    have first := call_made bodies depth snapshot r.callback (good r (by simp)) obeys
    have later := ih (d.count (call body depth snapshot r.callback s).1)
      (fun r member => good r (by simp [member])) (first.obeys hereditary obeys)
    exact first.trans later

end

theorem publishWithin_made (hereditary : Hereditary kind) (nested depth : Nat) (feed : FeedName)
    (snapshot : Snapshot) (obeys : s.station.Obeys kind) :
    Made kind s (publishWithin nested depth feed snapshot s).2 := by
  induction nested generalizing depth feed snapshot s with
  | zero =>
    exact deliver_made hereditary (fun _ _ _ _ _ => .nil) depth snapshot _ _
      (obeys feed snapshot.node) obeys
  | succ nested ih =>
    refine deliver_made hereditary ?_ depth snapshot _ _ (obeys feed snapshot.node) obeys
    intro tag steps s good obeys
    exact runBody_made hereditary (fun feed snapshot s obeys => ih (depth + 1) feed snapshot obeys)
      tag steps good obeys

-- Every step of a session, whatever it sets off, is a row of moves.
theorem step_made (hereditary : Hereditary kind) (bodies : Nat) (step : Step) (good : kind step)
    (obeys : s.station.Obeys kind) : Made kind s (s.step bodies step).2 :=
  perform_made hereditary (fun feed snapshot _ obeys =>
    publishWithin_made hereditary bodies 0 feed snapshot obeys) step good obeys

end Session

end DiskGauge
