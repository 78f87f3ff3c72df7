import DiskGauge.Proofs.Station.Gauges
import DiskGauge.Proofs.Station.Rendering

namespace DiskGauge

inductive BoardStep where
  | create (name : String)
  | remove (name : String)
  | bind (name : String) (slot : Slot) (node : Option String)
  | apply (thresholds : Thresholds)
  | ingest (payload : Bytes)

def BoardStep.toStep : BoardStep → Step
  | .create name => .createView name
  | .remove name => .removeView name
  | .bind name slot node => .bindView name slot node
  | .apply thresholds => .applyThresholds thresholds
  | .ingest payload => .ingest .main payload

-- A history is told from its newest step backwards.
abbrev History := List BoardStep

namespace History

-- What happened since the view of a name was last created, if it is there.
def life (name : String) : History → Option History
  | [] => none
  | .create other :: earlier =>
    match life name earlier with
    | some since => some (.create other :: since)
    | none => if other = name then some [] else none
  | .remove other :: earlier =>
    if other = name then none else (life name earlier).map (.remove other :: ·)
  | step :: earlier => (life name earlier).map (step :: ·)

-- The slots that a new view has after some steps.
def slots (name : String) : History → Slots
  | [] => ⟨none, none⟩
  | .bind other slot node :: earlier =>
    if other = name then (slots name earlier).put slot node else slots name earlier
  | _ :: earlier => slots name earlier

-- The last accepted payload whose node was bound to one of the slots when it came.
def shown (name : String) : History → Option Snapshot
  | [] => none
  | .ingest payload :: earlier =>
    match Snapshot.decode payload with
    | .ok snapshot =>
      if (slots name earlier).shows snapshot.node then some snapshot else shown name earlier
    | .error _ => shown name earlier
  | _ :: earlier => shown name earlier

def thresholds (initial : Thresholds) : History → Thresholds
  | [] => initial
  | .apply new :: _ => new
  | _ :: earlier => thresholds initial earlier

end History

-- A view rendered from what happened since it was created.
def ViewPicture.after (name now : String) (thresholds : Thresholds) (since : History) : ViewPicture :=
  let slots := since.slots name
  let shown := since.shown name
  ⟨name, slots, Gauge.stateFor shown thresholds slots, Gauge.pictureFor shown thresholds slots,
    thresholds, now⟩

namespace Session

def hosted (bodies : Nat) (initial : Thresholds) (now : String) : History → Session
  | [] => .start initial now
  | step :: earlier => ((hosted bodies initial now earlier).step bodies step.toStep).2.1

end Session

namespace Station

-- That a view has the slots and the snapshot which a history says.
structure Tracks (s : Station) (name now : String) (thresholds : Thresholds) (since : History)
    (view : View) (g : Gauge) : Prop where
  found : s.view? name = some view
  main : view.binding.feed = .main
  created : view.created = now
  gauge : s.gauge? view.binding.key = some g
  thresholds : g.thresholds = thresholds
  slots : g.slots = since.slots name
  last : g.last = since.shown name

-- What a history says of a name, whether or not there is a view of it.
def Follows (s : Station) (name now : String) (thresholds : Thresholds) : Option History → Prop
  | none => s.view? name = none
  | some since => ∃ view g, s.Tracks name now thresholds since view g

structure Hosts (s : Station) (initial : Thresholds) (now : String) (history : History) : Prop where
  sound : s.Sound [] []
  renderers : s.renderers = []
  thresholds : s.thresholds = history.thresholds initial
  views : ∀ name, s.Follows name now (history.thresholds initial) (history.life name)

theorem start_hosts (initial : Thresholds) (now : String) : (start initial).Hosts initial now [] :=
  ⟨start_sound initial, rfl, rfl, fun _ => rfl⟩

variable {s s' : Station} {initial thresholds new : Thresholds} {now name other : String}
  {history since : History} {step : BoardStep} {view : View} {g : Gauge}

theorem view_mem (found : s.view? name = some view) : view.binding ∈ s.bindings :=
  List.mem_append_right _ (List.mem_map.mpr ⟨_, Keyed.mem_of_lookup found, rfl⟩)

theorem Sound.keys (sound : s.Sound [] []) : (s.views.map fun entry => entry.2.binding.key).Nodup := by
  have keys := sound.wired.listed.keys
  rw [bindings, List.map_append, List.map_map, List.nodup_append] at keys
  exact keys.2.1

-- Two views have gauges of their own.
theorem Sound.apart (sound : s.Sound [] []) {a b : View} (left : s.view? name = some a)
    (right : s.view? other = some b) (different : other ≠ name) : b.binding.key ≠ a.binding.key := by
  intro equal
  have entries := List.inj_on_of_nodup_map sound.keys (Keyed.mem_of_lookup right)
    (Keyed.mem_of_lookup left) equal
  exact different (congrArg Prod.fst entries)

theorem SameBoard.view? (same : SameBoard s s') : s'.view? name = s.view? name := by
  rw [Station.view?, Station.view?, same.views]

namespace Follows

-- The views that stand where they did, with gauges that did what the step asks.
theorem update {life : Option History} (follows : s.Follows name now thresholds life)
    (same : s'.view? name = s.view? name)
    (gauge : ∀ since view g, s.Tracks name now thresholds since view g →
      ∃ g', s'.gauge? view.binding.key = some g' ∧ g'.thresholds = new ∧
        g'.slots = History.slots name (step :: since) ∧ g'.last = History.shown name (step :: since)) :
    s'.Follows name now new (life.map (step :: ·)) := by
  cases life with
  | none => exact same.trans follows
  | some since =>
    obtain ⟨view, g, tracks⟩ := follows
    obtain ⟨g', found, t, slots, last⟩ := gauge since view g tracks
    exact ⟨view, g', same.trans tracks.found, tracks.main, tracks.created, found, t, slots, last⟩

theorem keep {life : Option History} (follows : s.Follows name now thresholds life)
    (same : s'.view? name = s.view? name)
    (gauge : ∀ view, s.view? name = some view →
      s'.gauge? view.binding.key = s.gauge? view.binding.key)
    (quiet : ∀ since, History.slots name (step :: since) = History.slots name since ∧
      History.shown name (step :: since) = History.shown name since) :
    s'.Follows name now thresholds (life.map (step :: ·)) := by
  refine follows.update same fun since view g tracks => ?_
  obtain ⟨slots, shown⟩ := quiet since
  exact ⟨g, (gauge view tracks.found).trans tracks.gauge, tracks.thresholds,
    tracks.slots.trans slots.symm, tracks.last.trans shown.symm⟩

end Follows

namespace Hosts

-- A view that is there has a gauge of which the history tells.
theorem tracked (hosts : s.Hosts initial now history) (found : s.view? name = some view) :
    ∃ since g, history.life name = some since ∧
      s.Tracks name now (history.thresholds initial) since view g := by
  have follows := hosts.views name
  cases alive : history.life name with
  | none =>
    rw [alive] at follows
    cases found.symm.trans follows
  | some since =>
    rw [alive] at follows
    obtain ⟨known, g, tracks⟩ := follows
    obtain rfl : known = view := Option.some.inj (tracks.found.symm.trans found)
    exact ⟨since, g, rfl, tracks⟩

theorem missing (hosts : s.Hosts initial now history) (absent : s.view? name = none) :
    history.life name = none := by
  have follows := hosts.views name
  cases alive : history.life name with
  | none => rfl
  | some since =>
    rw [alive] at follows
    obtain ⟨view, g, tracks⟩ := follows
    cases absent.symm.trans tracks.found

theorem create (hosts : s.Hosts initial now history) (name : String) :
    (s.ensureView now name).2.Hosts initial now (.create name :: history) := by
  have sound := hosts.sound.ensureView now name
  have others : ∀ n, n ≠ name → History.life n (.create name :: history) =
      (history.life n).map (.create name :: ·) := by
    intro n different
    cases alive : history.life n <;> simp [History.life, alive, Ne.symm different]
  cases found : s.view? name with
  | some view =>
    have same : (s.ensureView now name).2 = s := by simp [ensureView, found]
    rw [same] at sound ⊢
    refine ⟨sound, hosts.renderers, hosts.thresholds, fun n => ?_⟩
    have kept : s.Follows n now (history.thresholds initial) ((history.life n).map (.create name :: ·)) :=
      (hosts.views n).keep rfl (fun _ _ => rfl) fun _ => ⟨rfl, rfl⟩
    by_cases equal : n = name
    · subst n
      obtain ⟨since, g, alive, _⟩ := hosts.tracked found
      have longer : History.life name (.create name :: history) = some (.create name :: since) := by
        simp [History.life, alive]
      rw [alive] at kept
      rw [longer]
      exact kept
    · rw [others n equal]
      exact kept
  | none =>
    have made : (s.ensureView now name).2 = (s.newGauge none s.thresholds).2.setView name
        ⟨⟨.main, s.lastGauge + 1, none, none⟩, now⟩ := by
      simp [ensureView, found, newGauge]
    rw [made] at sound ⊢
    refine ⟨sound, hosts.renderers, hosts.thresholds, fun n => ?_⟩
    by_cases equal : n = name
    · subst n
      have born : History.life name (.create name :: history) = some [] := by
        simp [History.life, hosts.missing found]
      rw [born]
      exact ⟨_, .new s.thresholds, view?_setView_self, rfl, rfl, gauge?_newGauge_self,
        hosts.thresholds, rfl, rfl⟩
    · rw [others n equal]
      refine (hosts.views n).keep (view?_setView_other equal) ?_ fun _ => ⟨rfl, rfl⟩
      intro view known
      have bound := (hosts.sound.wired.told _ (view_mem known)).1
      exact gauge?_newGauge_other (Nat.ne_of_lt (Nat.lt_succ_of_le bound))

theorem remove (hosts : s.Hosts initial now history) (name : String) :
    (s.removeView name).2.Hosts initial now (.remove name :: history) := by
  have sound := hosts.sound.removeView name
  have self : History.life name (.remove name :: history) = none := by simp [History.life]
  have others : ∀ n, n ≠ name → History.life n (.remove name :: history) =
      (history.life n).map (.remove name :: ·) := by
    intro n different
    simp [History.life, Ne.symm different]
  cases found : s.view? name with
  | none =>
    have same : (s.removeView name).2 = s := by simp [removeView, found]
    rw [same] at sound ⊢
    refine ⟨sound, hosts.renderers, hosts.thresholds, fun n => ?_⟩
    by_cases equal : n = name
    · subst n
      rw [self]
      exact found
    · rw [others n equal]
      exact (hosts.views n).keep rfl (fun _ _ => rfl) fun _ => ⟨rfl, rfl⟩
  | some gone =>
    let taken : Station := { s with views := Keyed.drop name s.views }
    have made : (s.removeView name).2 = taken.release gone.binding := by
      simp [removeView, found, taken]
    have same : SameBoard taken (taken.release gone.binding) := .release
    rw [made] at sound ⊢
    refine ⟨sound, same.renderers.trans hosts.renderers, same.thresholds.trans hosts.thresholds, ?_⟩
    intro n
    by_cases equal : n = name
    · subst n
      rw [self]
      exact same.view?.trans Keyed.lookup_drop_self
    · rw [others n equal]
      refine (hosts.views n).keep (same.view?.trans (Keyed.lookup_drop_other equal)) ?_ fun _ => ⟨rfl, rfl⟩
      intro view known
      exact gauge?_release_other (hosts.sound.apart found known equal)

theorem bind (hosts : s.Hosts initial now history) (name : String) (slot : Slot) (node : Option String) :
    (s.bindView name slot node).2.1.Hosts initial now (.bind name slot node :: history) := by
  have sound := hosts.sound.bindView name slot node
  have others : ∀ n, n ≠ name → ∀ since : History,
      History.slots n (.bind name slot node :: since) = since.slots n ∧
      History.shown n (.bind name slot node :: since) = since.shown n := by
    intro n different since
    simp [History.slots, History.shown, Ne.symm different]
  cases found : s.view? name with
  | none =>
    have same : (s.bindView name slot node).2.1 = s := by simp [bindView, found]
    rw [same] at sound ⊢
    refine ⟨sound, hosts.renderers, hosts.thresholds, fun n => ?_⟩
    by_cases equal : n = name
    · subst n
      have dead : History.life name (.bind name slot node :: history) = none := by
        simp [History.life, hosts.missing found]
      rw [dead]
      exact found
    · exact (hosts.views n).keep rfl (fun _ _ => rfl) (others n equal)
  | some view =>
    let bound := s.bind view.binding slot node
    have made : (s.bindView name slot node).2.1 =
        bound.2.1.setView name { view with binding := bound.1 } := by
      simp [bindView, found, bound]
    have same : SameBoard s bound.2.1 := .bind
    rw [made] at sound ⊢
    refine ⟨sound, same.renderers.trans hosts.renderers, same.thresholds.trans hosts.thresholds, ?_⟩
    intro n
    by_cases equal : n = name
    · subst n
      obtain ⟨since, g, alive, tracks⟩ := hosts.tracked found
      obtain ⟨after, present, t, slots, last⟩ := gauge?_bind_self slot node
        (hosts.sound.wired.told _ (view_mem found)) tracks.gauge
      have longer : History.life name (.bind name slot node :: history) =
          some (.bind name slot node :: since) := by
        simp [History.life, alive]
      rw [longer]
      refine ⟨_, after, view?_setView_self, ?_, tracks.created, ?_, t.trans tracks.thresholds, ?_, ?_⟩
      · exact bind_feed.trans tracks.main
      · have key : bound.1.key = view.binding.key := bind_key
        rw [key]
        exact present
      · simp [History.slots, slots, tracks.slots]
      · simp [History.shown, last, tracks.last]
    · refine (hosts.views n).keep ((view?_setView_other equal).trans same.view?) ?_ (others n equal)
      intro other known
      exact gauge?_bind_other (hosts.sound.apart found known equal)

theorem apply (hosts : s.Hosts initial now history) (new : Thresholds) :
    (s.applyThresholds new).1.Hosts initial now (.apply new :: history) := by
  let keys := s.views.map fun entry => entry.2.binding.key
  have sound := hosts.sound.applyThresholds new
  have same : SameBoard { s with thresholds := new } (s.applyThresholds new).1 := .touchAll
  refine ⟨sound, same.renderers.trans hosts.renderers, same.thresholds, fun n => ?_⟩
  refine (hosts.views n).update same.view? ?_
  intro since view g tracks
  have member : view.binding.key ∈ keys :=
    List.mem_map.mpr ⟨_, Keyed.mem_of_lookup tracks.found, rfl⟩
  have touched : (s.applyThresholds new).1.gauge? view.binding.key = some (g.applyThresholds new).1 := by
    rw [applyThresholds, gauge?_touchAll, List.count_eq_one_of_mem hosts.sound.keys member]
    exact congrArg _ tracks.gauge
  exact ⟨_, touched, Gauge.render_thresholds, Gauge.render_slots.trans tracks.slots,
    Gauge.render_last.trans tracks.last⟩

theorem mapHealth (hosts : s.Hosts initial now history) (f : Health → Health) :
    (s.mapHealth f).Hosts initial now history := by
  refine ⟨hosts.sound.mapHealth f, hosts.renderers, hosts.thresholds, fun n => ?_⟩
  have follows := hosts.views n
  cases alive : history.life n with
  | none =>
    rw [alive] at follows
    exact follows
  | some since =>
    rw [alive] at follows
    obtain ⟨view, g, tracks⟩ := follows
    exact ⟨view, g, tracks.found, tracks.main, tracks.created, tracks.gauge, tracks.thresholds,
      tracks.slots, tracks.last⟩

end Hosts

-- The gauges that a delivery for a node calls, in order.
def called (s : Station) (feed : FeedName) (node : String) : List Nat :=
  ((s.feed feed).registrations node).filterMap (·.callback.gauge?)

theorem mem_called {feed : FeedName} {node : String} {key : Nat} :
    key ∈ s.called feed node ↔ ∃ id, s.Registered feed ⟨node, id⟩ (.gauge key) := by
  simp only [called, List.mem_filterMap, Registered]
  constructor
  · intro parts
    obtain ⟨⟨id, callback⟩, member, calls⟩ := parts
    cases callback with
    | gauge other =>
      obtain rfl : other = key := Option.some.inj calls
      exact ⟨id, member⟩
    | client => cases calls
  · intro parts
    obtain ⟨id, member⟩ := parts
    exact ⟨_, member, rfl⟩

theorem Tracks.called_iff (tracks : s.Tracks name now thresholds since view g) (sound : s.Sound [] [])
    {node : String} : view.binding.key ∈ s.called .main node ↔ g.slots.shows node = true := by
  have listed := sound.wired.listed
  have mine := view_mem tracks.found
  obtain ⟨_, known, found, slots⟩ := sound.wired.told _ mine
  obtain rfl : known = g := Option.some.inj (found.symm.trans tracks.gauge)
  rw [mem_called, Slots.shows_iff]
  constructor
  · intro parts
    obtain ⟨id, registered⟩ := parts
    obtain ⟨b, member, _, equal, slot, own⟩ := (listed.gauges _ _ _).mp registered
    obtain rfl : b = view.binding := List.inj_on_of_nodup_map listed.keys member mine equal
    exact ⟨slot, by rw [slots, own]; rfl⟩
  · intro parts
    obtain ⟨slot, shows⟩ := parts
    rw [slots] at shows
    obtain ⟨⟨place, id⟩, own, rfl⟩ := Option.map_eq_some_iff.mp shows
    exact ⟨id, (listed.gauges _ _ _).mpr ⟨_, mine, tracks.main, rfl, slot, own⟩⟩

-- No client listens behind a board.
theorem Hosts.quiet (hosts : s.Hosts initial now history) (node : String) :
    ∀ r ∈ (s.feed .main).registrations node, ∀ client, r.callback ≠ .client client := by
  intro r member client calls
  have registered : s.Registered .main ⟨node, r.id⟩ (.client client) := calls ▸ member
  exact List.not_mem_nil ((hosts.sound.wired.listed.clients _ _).mp ⟨client, registered⟩)

theorem Hosts.deliver (hosts : s.Hosts initial now history) {payload : Bytes} {snapshot : Snapshot}
    (accepted : Snapshot.decode payload = .ok snapshot) :
    (touchAll (·.receive snapshot) (s.called .main snapshot.node) s).1.Hosts initial now
      (.ingest payload :: history) := by
  have same : SameBoard s (touchAll (·.receive snapshot) (s.called .main snapshot.node) s).1 := .touchAll
  have sound := hosts.sound.touchAll (·.receive snapshot) (fun _ => Gauge.receive_slots)
    (s.called .main snapshot.node)
  refine ⟨sound, same.renderers.trans hosts.renderers, same.thresholds.trans hosts.thresholds, ?_⟩
  intro n
  refine (hosts.views n).update same.view? ?_
  intro since view g tracks
  obtain ⟨t, slots, last⟩ := Gauge.receive_often (g := g) (Snapshot.decode_valid accepted)
    ((s.called .main snapshot.node).count view.binding.key)
  refine ⟨_, ?_, t.trans tracks.thresholds, slots.trans tracks.slots, last.trans ?_⟩
  · rw [gauge?_touchAll, tracks.gauge]
    rfl
  · simp only [History.shown, accepted, ← tracks.slots, ← tracks.last]
    by_cases shows : g.slots.shows snapshot.node = true
    · have called := List.count_pos_iff.mpr ((tracks.called_iff hosts.sound).mpr shows)
      rw [if_neg (Nat.ne_of_gt called), if_pos shows]
    · have uncalled := List.count_eq_zero.mpr fun member => shows ((tracks.called_iff hosts.sound).mp member)
      rw [if_pos uncalled, if_neg shows]

end Station

namespace Session
variable {s : Session} {initial : Thresholds} {now : String} {history : History} {bodies : Nat}
  {payload : Bytes} {snapshot : Snapshot}

theorem step_rejected {feed : FeedName} {r : Rejection} (rejected : Snapshot.decode payload = .error r) :
    s.step bodies (.ingest feed payload) = (.rejected r,
      (s.onStation (·.mapHealth .recordEvent)).onStation (·.mapHealth .recordDropped), []) := by
  simp only [step, perform, ingest, rejected]

-- An accepted payload only calls gauges.
theorem step_accepted (hosts : s.station.Hosts initial now history)
    (accepted : Snapshot.decode payload = .ok snapshot) :
    (s.step bodies (.ingest .main payload)).1 =
      .delivery ⟨(s.station.called .main snapshot.node).length, 0⟩ ∧
    (s.step bodies (.ingest .main payload)).2.1 = { s with station := (Station.touchAll
      (·.receive snapshot) (s.station.called .main snapshot.node)
      (s.station.mapHealth .recordEvent)).1 } := by
  obtain ⟨delivered, after⟩ := publish_gauges bodies 0 .main (s := s.onStation (·.mapHealth .recordEvent))
    (gauges_only (hosts.quiet _))
  simp only [step, perform, ingest, accepted]
  exact ⟨congrArg _ delivered, after⟩

theorem step_hosts (hosts : s.station.Hosts initial now history) (time : s.now = now) (step : BoardStep) :
    (s.step bodies step.toStep).2.1.station.Hosts initial now (step :: history) ∧
      (s.step bodies step.toStep).2.1.now = now := by
  cases step with
  | create name => exact ⟨time ▸ (time.symm ▸ hosts).create name, time⟩
  | remove name => exact ⟨hosts.remove name, time⟩
  | bind name slot node => exact ⟨hosts.bind name slot node, time⟩
  | apply thresholds => exact ⟨hosts.apply thresholds, time⟩
  | ingest payload =>
    have counted := hosts.mapHealth .recordEvent
    cases decoded : Snapshot.decode payload with
    | ok snapshot =>
      rw [BoardStep.toStep, (step_accepted hosts decoded).2]
      exact ⟨counted.deliver decoded, time⟩
    | error r =>
      rw [BoardStep.toStep, step_rejected decoded]
      refine ⟨?_, time⟩
      have dropped := counted.mapHealth .recordDropped
      refine ⟨dropped.sound, dropped.renderers, dropped.thresholds, fun n => ?_⟩
      refine (dropped.views n).keep rfl (fun _ _ => rfl) fun since => ⟨rfl, ?_⟩
      simp only [History.shown, decoded]

theorem hosted_hosts (bodies : Nat) (initial : Thresholds) (now : String) (history : History) :
    (hosted bodies initial now history).station.Hosts initial now history ∧
      (hosted bodies initial now history).now = now := by
  induction history with
  | nil => exact ⟨Station.start_hosts initial now, rfl⟩
  | cons step earlier ih => exact step_hosts ih.1 ih.2 step

theorem hosted_reached (bodies : Nat) (initial : Thresholds) (now : String) (history : History) :
    ∃ events, Reached initial now (hosted bodies initial now history) events := by
  induction history with
  | nil => exact ⟨[], .start⟩
  | cons step earlier ih =>
    obtain ⟨events, reached⟩ := ih
    exact ⟨_, reached.step bodies step.toStep⟩

structure Hosted (s : Session) (bodies : Nat) (initial : Thresholds) (now : String)
    (history : History) : Prop where
  pictures : ∀ name, s.station.readView name =
    (history.life name).map (.after name now (history.thresholds initial))
  listed : ∀ picture, picture ∈ s.station.readViews ↔ s.station.readView picture.name = some picture
  once : (s.station.readViews.map (·.name)).Nodup
  accepted : ∀ payload snapshot, Snapshot.decode payload = .ok snapshot →
    (s.step bodies (.ingest .main payload)).1 =
      .delivery ⟨(s.station.readViews.map (·.slots.hits snapshot.node)).sum, 0⟩
  rejected : ∀ payload r, Snapshot.decode payload = .error r →
    (s.step bodies (.ingest .main payload)).1 = .rejected r ∧
    ∀ name, (s.step bodies (.ingest .main payload)).2.1.station.readView name = s.station.readView name

theorem hosted_picture (bodies : Nat) (initial : Thresholds) (now : String) (history : History) (name : String) :
    (hosted bodies initial now history).station.readView name =
      (history.life name).map (.after name now (history.thresholds initial)) := by
  have follows := (hosted_hosts bodies initial now history).1.views name
  unfold Station.readView
  cases alive : history.life name with
  | none =>
    rw [alive] at follows
    rw [follows]
    rfl
  | some since =>
    rw [alive] at follows
    obtain ⟨view, g, tracks⟩ := follows
    obtain ⟨events, reached⟩ := hosted_reached bodies initial now history
    obtain ⟨fixture, present, rfl⟩ := Option.map_eq_some_iff.mp tracks.gauge
    have coherent := (reached_drawn reached).coherent _ fixture present
    rw [tracks.found, Option.map_some, Option.map_some, Station.picture, tracks.gauge]
    simp only [Option.getD_some, coherent.state, coherent.frame, tracks.thresholds, tracks.slots,
      tracks.last, tracks.created]
    rfl

end Session

namespace Station
variable {s : Station} {initial : Thresholds} {now : String} {history : History}

theorem mem_readViews (ordered : Keyed.Ascending s.views) {picture : ViewPicture} :
    picture ∈ s.readViews ↔ s.readView picture.name = some picture := by
  simp only [readViews, readView, List.mem_map, Option.map_eq_some_iff]
  constructor
  · intro parts
    obtain ⟨⟨name, view⟩, member, rfl⟩ := parts
    exact ⟨view, Keyed.lookup_of_mem ordered.distinct member, rfl⟩
  · intro parts
    obtain ⟨view, found, equal⟩ := parts
    exact ⟨_, Keyed.mem_of_lookup found, equal⟩

theorem Hosts.main (hosts : s.Hosts initial now history) : ∀ b ∈ s.bindings, b.feed = .main := by
  intro b member
  rw [bindings, hosts.renderers] at member
  obtain ⟨⟨name, view⟩, stands, rfl⟩ := List.mem_map.mp member
  obtain ⟨_, _, _, tracks⟩ := hosts.tracked (Keyed.lookup_of_mem hosts.sound.ordered.distinct stands)
  exact tracks.main

-- As many gauges are called as slots of views are bound to the node.
theorem Hosts.length_called (hosts : s.Hosts initial now history) (node : String) :
    (s.called .main node).length = (s.readViews.map (·.slots.hits node)).sum := by
  have listed := hosts.sound.wired.listed
  have all : (s.called .main node).length = (s.feed .main).count node := by
    have lengths := congrArg List.length (gauges_only (hosts.quiet node))
    rw [List.length_map, List.length_map] at lengths
    exact lengths.symm
  have every : s.bindings.filter (·.feed = .main) = s.bindings :=
    List.filter_eq_self.mpr fun b member => by simpa using hosts.main b member
  have views : s.bindings = s.views.map (·.2.binding) := by
    rw [bindings, hosts.renderers]
    rfl
  rw [all, listed.count_eq, every, List.filter_nil, List.length_nil, Nat.zero_add, views, readViews,
    List.map_map, List.map_map]
  congr 1
  refine List.map_congr_left fun entry member => ?_
  have told := hosts.sound.wired.told entry.2.binding
    (views ▸ List.mem_map.mpr ⟨entry, member, rfl⟩)
  obtain ⟨_, g, found, slots⟩ := told
  have shown : (s.picture entry.1 entry.2).slots = g.slots := by simp [picture, found]
  simp only [Function.comp_apply, shown]
  exact Binding.length_numbers slots

end Station

namespace Session

theorem hosted_shows (bodies : Nat) (initial : Thresholds) (now : String) (history : History) :
    Hosted (hosted bodies initial now history) bodies initial now history := by
  obtain ⟨hosts, _⟩ := hosted_hosts bodies initial now history
  constructor
  case pictures => exact hosted_picture bodies initial now history
  case listed => exact fun picture => Station.mem_readViews hosts.sound.ordered
  case once =>
    have names : (hosted bodies initial now history).station.readViews.map (·.name) =
        (hosted bodies initial now history).station.views.map Prod.fst := by
      rw [Station.readViews, List.map_map]
      rfl
    rw [names]
    exact hosts.sound.ordered.distinct
  case accepted =>
    intro payload snapshot accepted
    rw [(step_accepted hosts accepted).1, hosts.length_called]
  case rejected =>
    intro payload r rejected
    rw [step_rejected rejected]
    exact ⟨rfl, fun name => rfl⟩

end Session

end DiskGauge
