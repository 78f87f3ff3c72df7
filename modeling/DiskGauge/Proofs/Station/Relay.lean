import DiskGauge.Proofs.Preferences.Traffic
import DiskGauge.Proofs.Station.Hosting

namespace DiskGauge

inductive RelayStage where
  | waiting
  | woken
  | holding (thresholds : Thresholds)
  | stored (thresholds : Thresholds)

structure Relay where
  traffic : Traffic
  watcher : Watcher
  stage : RelayStage
  board : Station
  -- The bindings of views that were taken off the board and have not been given up yet.
  leaving : List Binding

-- What someone does between two steps of others. A report may reach any gauge at any time: deliveries that run at
-- once call the gauges they collected in any order, also when these were bound elsewhere or given up meanwhile.
inductive RelayTurn where
  | change (number : Nat)
  -- The file system changes, so that a value can be saved from now on, or cannot.
  | disturb (place : Place)
  | listen
  | create (now name : String)
  | takeOff (name : String)
  | release (number : Nat)
  | bind (name : String) (slot : Slot) (node : Option String)
  | receive (key : Nat) (snapshot : Snapshot)

-- Renders the views anew with other thresholds.
def Station.renderAll (s : Station) (thresholds : Thresholds) : Station :=
  (touchAll (·.applyThresholds thresholds) (s.views.map fun entry => entry.2.binding.key) s).1

namespace Relay

def store (r : Relay) : PreferencesStore := r.traffic.store

-- A board with the thresholds of a store, and a listener who watches the store from then on.
def begin (store : PreferencesStore) (place : Place) (values : List Preferences) : Relay :=
  ⟨.begin store place values, store.watch, .waiting, .start store.thresholds, []⟩

-- Being told of a change already marks it as seen, and so does reading the value.
def listen (r : Relay) : Relay :=
  match r.stage with
  | .waiting =>
    if r.watcher.changed? r.store = some true then
      { r with watcher := r.watcher.takeNote r.store, stage := .woken }
    else r
  | .woken => { r with watcher := r.watcher.takeNote r.store, stage := .holding r.store.thresholds }
  | .holding thresholds => { r with board := { r.board with thresholds }, stage := .stored thresholds }
  | .stored thresholds => { r with board := r.board.renderAll thresholds, stage := .waiting }

def takeOff (r : Relay) (name : String) : Relay :=
  match r.board.view? name with
  | none => r
  | some view =>
    { r with
      board := { r.board with views := Keyed.drop name r.board.views }
      leaving := view.binding :: r.leaving }

def release (r : Relay) (number : Nat) : Relay :=
  match r.leaving[number]? with
  | none => r
  | some b => { r with board := r.board.release b, leaving := r.leaving.eraseIdx number }

def turn (r : Relay) : RelayTurn → Relay
  | .change number => { r with traffic := r.traffic.turn number }
  | .disturb place => { r with traffic := { r.traffic with place } }
  | .listen => r.listen
  | .create now name => { r with board := (r.board.ensureView now name).2 }
  | .takeOff name => r.takeOff name
  | .release number => r.release number
  | .bind name slot node => { r with board := (r.board.bindView name slot node).2.1 }
  | .receive key snapshot => { r with board := (r.board.touch key (·.receive snapshot)).1 }

def run (r : Relay) (turns : List RelayTurn) : Relay := turns.foldl turn r

-- The listener waits, and nothing was announced that it has not seen.
def Rests (r : Relay) : Prop := r.stage = .waiting ∧ r.watcher.changed? r.store = some false

variable {r : Relay} {s : Session} {keys : List Nat} {snapshot : Snapshot} {name : String} {view : View}

-- Where nothing comes between, the four steps of the listener apply the thresholds of the value in use to the board,
-- the two steps of a removal remove the view, and a row of receipts is a delivery.
theorem run_listen (waiting : r.stage = .waiting) (changed : r.watcher.changed? r.store = some true) :
    r.run [.listen, .listen, .listen, .listen] = { r with
      board := (r.board.applyThresholds r.store.thresholds).1, watcher := r.watcher.takeNote r.store } := by
  obtain ⟨traffic, watcher, stage, board, leaving⟩ := r
  subst waiting
  cases watcher with
  | orphaned value => cases changed
  | watching seen =>
    have first : listen ⟨traffic, .watching seen, .waiting, board, leaving⟩ =
        ⟨traffic, Watcher.takeNote (.watching seen) traffic.store, .woken, board, leaving⟩ := if_pos changed
    simp only [run, List.foldl, turn, first]
    rfl

theorem run_remove (found : r.board.view? name = some view) :
    r.run [.takeOff name, .release 0] = { r with board := (r.board.removeView name).2 } := by
  simp [run, turn, takeOff, release, found, Station.removeView]

theorem run_deliver (keys : List Nat) (snapshot : Snapshot) : r.run (keys.map (.receive · snapshot)) =
    { r with board := (Station.touchAll (·.receive snapshot) keys r.board).1 } := by
  induction keys generalizing r with
  | nil => rfl
  | cons key rest ih => exact ih

-- Publishing on a board that nobody else listens to is such a row.
theorem run_publish (bound depth : Nat) (here : s.station = r.board)
    (quiet : ∀ entry ∈ (r.board.feed .main).registrations snapshot.node, ∀ client, entry.callback ≠ .client client) :
    (r.run ((r.board.called .main snapshot.node).map (.receive · snapshot))).board =
      (Session.publishWithin bound depth .main snapshot s).2.1.station := by
  rw [← here] at quiet ⊢
  rw [run_deliver, (Session.publish_gauges bound depth .main (gauges_only quiet)).2, ← here]
  rfl

end Relay

namespace Station
variable {s s' : Station} {leaving : List Binding} {name other : String} {view : View} {g : Gauge} {b : Binding}
  {thresholds : Thresholds} {key : Nat} {act : Gauge → Gauge × List Stroke}

-- The views of a board, and what was taken off it, have gauges of their own.
structure Manned (s : Station) (leaving : List Binding) : Prop where
  wired : s.Wired (s.bindings ++ leaving) [] []
  ordered : Keyed.Ascending s.views

-- All views have the thresholds of their board.
def Even (s : Station) : Prop :=
  ∀ name view g, s.view? name = some view → s.gauge? view.binding.key = some g → g.thresholds = s.thresholds

namespace Manned

theorem start (thresholds : Thresholds) : (Station.start thresholds).Manned [] := by
  have sound := start_sound thresholds
  exact ⟨by rw [List.append_nil]; exact sound.wired, sound.ordered⟩

theorem keys (manned : s.Manned leaving) :
    (s.views.map fun entry => entry.2.binding.key).Nodup ∧
      ∀ entry ∈ s.views, ∀ b ∈ leaving, entry.2.binding.key ≠ b.key := by
  have keys := manned.wired.listed.keys
  rw [List.map_append, List.nodup_append, bindings, List.map_append, List.map_map, List.nodup_append] at keys
  obtain ⟨⟨_, views, _⟩, _, apart⟩ := keys
  refine ⟨views, fun entry stands b leaves => apart _ ?_ _ (List.mem_map_of_mem leaves)⟩
  exact List.mem_append_right _ (List.mem_map.mpr ⟨entry, stands, rfl⟩)

theorem apart (manned : s.Manned leaving) {a b : View} (left : s.view? name = some a) (right : s.view? other = some b)
    (different : other ≠ name) : b.binding.key ≠ a.binding.key := by
  intro equal
  have entries := List.inj_on_of_nodup_map manned.keys.1 (Keyed.mem_of_lookup right) (Keyed.mem_of_lookup left) equal
  exact different (congrArg Prod.fst entries)

theorem told (manned : s.Manned leaving) (found : s.view? name = some view) : s.Told view.binding :=
  manned.wired.told _ (List.mem_append_left _ (view_mem found))

theorem board (manned : s.Manned leaving) (same : SameBoard s s') (wired : s'.Wired (s.bindings ++ leaving) [] []) :
    s'.Manned leaving :=
  ⟨same.bindings ▸ wired, same.views ▸ manned.ordered⟩

theorem touch (manned : s.Manned leaving) (kept : ∀ g, (act g).1.slots = g.slots) (key : Nat) :
    (s.touch key act).1.Manned leaving :=
  manned.board (.touch key act) (manned.wired.touch kept)

theorem renderAll (manned : s.Manned leaving) (thresholds : Thresholds) :
    (s.renderAll thresholds).Manned leaving := by
  have kept : ∀ g : Gauge, (g.applyThresholds thresholds).1.slots = g.slots := fun g => Gauge.render_slots
  unfold Station.renderAll
  generalize s.views.map (fun entry => entry.2.binding.key) = keys
  induction keys generalizing s with
  | nil => exact manned
  | cons key rest ih => exact ih (manned.touch kept key)

theorem setThresholds (manned : s.Manned leaving) (thresholds : Thresholds) :
    { s with thresholds }.Manned leaving :=
  ⟨manned.wired.aside rfl rfl rfl rfl, manned.ordered⟩

theorem ensureView (manned : s.Manned leaving) (now name : String) : (s.ensureView now name).2.Manned leaving := by
  obtain ⟨rest, here, there, _⟩ := split_view manned.ordered name
  unfold Station.ensureView
  cases found : s.view? name with
  | some view => exact manned
  | none =>
    rw [found] at here
    have grown := (manned.wired.perm (here.append_right leaving)).newGauge .main none s.thresholds
    refine ⟨.perm ?_ ((there _ ⟨rfl, rfl, rfl⟩ _).append_right leaving).symm, manned.ordered.insert⟩
    exact grown.aside rfl rfl rfl rfl

theorem takeOff (manned : s.Manned leaving) (found : s.view? name = some view) :
    { s with views := Keyed.drop name s.views }.Manned (view.binding :: leaving) := by
  obtain ⟨rest, here, _, without⟩ := split_view manned.ordered name
  rw [found] at here
  refine ⟨.perm (manned.wired.aside rfl rfl rfl rfl) ?_, manned.ordered.drop⟩
  exact (here.append_right leaving).trans (List.perm_middle.symm.trans (without.symm.append_right _))

theorem release (manned : s.Manned leaving) {number : Nat} (leaves : leaving[number]? = some b) :
    (s.release b).Manned (leaving.eraseIdx number) := by
  obtain ⟨bound, rfl⟩ := List.getElem?_eq_some_iff.mp leaves
  have first : (s.bindings ++ leaving).Perm (leaving[number] :: (s.bindings ++ leaving.eraseIdx number)) :=
    ((List.getElem_cons_eraseIdx_perm bound).symm.append_left _).trans List.perm_middle
  have same : SameBoard s (s.release leaving[number]) := .release
  exact ⟨same.bindings ▸ (manned.wired.perm first).release, same.views ▸ manned.ordered⟩

theorem bindView (manned : s.Manned leaving) (name : String) (slot : Slot) (node : Option String) :
    (s.bindView name slot node).2.1.Manned leaving := by
  obtain ⟨rest, here, there, _⟩ := split_view manned.ordered name
  unfold Station.bindView
  cases found : s.view? name with
  | none => exact manned
  | some view =>
    rw [found] at here
    have bound := (manned.wired.perm (here.append_right leaving)).bind slot node
    have same : SameBoard s (s.bind view.binding slot node).2.1 := .bind
    refine ⟨.perm ?_ ((there _ same _).append_right leaving).symm, (same.views ▸ manned.ordered).insert⟩
    exact bound.aside rfl rfl rfl rfl

end Manned

namespace Even

-- Views that stand where they did, with gauges whose thresholds are as before.
theorem keep (even : s.Even) (same : s'.thresholds = s.thresholds)
    (gauges : ∀ name view g, s'.view? name = some view → s'.gauge? view.binding.key = some g →
      ∃ old g', s.view? name = some old ∧ s.gauge? old.binding.key = some g' ∧ g.thresholds = g'.thresholds) :
    s'.Even := by
  intro name view g found present
  obtain ⟨old, g', stood, was, thresholds⟩ := gauges name view g found present
  rw [thresholds, same]
  exact even name old g' stood was

theorem receive (even : s.Even) (key : Nat) (snapshot : Snapshot) :
    (s.touch key (·.receive snapshot)).1.Even := by
  have same : SameBoard s (s.touch key (·.receive snapshot)).1 := .touch key _
  refine even.keep same.thresholds fun name view g found present => ?_
  rw [gauge?_touch] at present
  split at present
  · obtain ⟨g', was, rfl⟩ := Option.map_eq_some_iff.mp present
    exact ⟨view, g', same.view? ▸ found, was, Gauge.receive_thresholds⟩
  · exact ⟨view, g, same.view? ▸ found, present, rfl⟩

theorem ensureView (even : s.Even) (manned : s.Manned leaving) (now name : String) :
    (s.ensureView now name).2.Even := by
  unfold Station.ensureView
  cases missing : s.view? name with
  | some view => exact even
  | none =>
    intro other view g found present
    dsimp only at found present
    by_cases equal : other = name
    · subst other
      obtain rfl := Option.some.inj (view?_setView_self.symm.trans found)
      obtain rfl := Option.some.inj (gauge?_newGauge_self.symm.trans present)
      rfl
    · rw [view?_setView_other equal] at found
      have bound := (manned.told found).1
      refine even other view g found ?_
      exact (gauge?_newGauge_other (Nat.ne_of_lt (Nat.lt_succ_of_le bound))).symm.trans present

theorem takeOff (even : s.Even) (name : String) : { s with views := Keyed.drop name s.views }.Even := by
  refine even.keep rfl fun other view g found present => ⟨view, g, ?_, present, rfl⟩
  by_cases equal : other = name
  · subst other
    cases Keyed.lookup_drop_self.symm.trans found
  · exact (Keyed.lookup_drop_other equal).symm.trans found

theorem release (even : s.Even) (manned : s.Manned leaving) (leaves : b ∈ leaving) : (s.release b).Even := by
  have same : SameBoard s (s.release b) := .release
  refine even.keep same.thresholds fun name view g found present => ?_
  rw [same.view?] at found
  refine ⟨view, g, found, ?_, rfl⟩
  rw [gauge?_release_other (manned.keys.2 _ (Keyed.mem_of_lookup found) b leaves)] at present
  exact present

theorem bindView (even : s.Even) (manned : s.Manned leaving) (name : String) (slot : Slot) (node : Option String) :
    (s.bindView name slot node).2.1.Even := by
  unfold Station.bindView
  cases found : s.view? name with
  | none => exact even
  | some view =>
    have same : SameBoard s (s.bind view.binding slot node).2.1 := .bind
    refine even.keep same.thresholds fun other now g stands present => ?_
    dsimp only at stands present
    by_cases equal : other = name
    · subst other
      obtain rfl := Option.some.inj (view?_setView_self.symm.trans stands)
      obtain ⟨_, before, was, _⟩ := manned.told found
      obtain ⟨after, is, thresholds, _⟩ := gauge?_bind_self slot node (manned.told found) was
      rw [bind_key] at present
      obtain rfl := Option.some.inj (is.symm.trans present)
      exact ⟨view, before, found, was, thresholds⟩
    · rw [view?_setView_other equal, same.view?] at stands
      refine ⟨now, g, stands, ?_, rfl⟩
      exact (gauge?_bind_other (manned.apart found stands equal)).symm.trans present

-- Whatever the thresholds of the views were, rendering all of them makes them even.
theorem renderAll (manned : s.Manned leaving) : (s.renderAll s.thresholds).Even := by
  have same : SameBoard s (s.renderAll s.thresholds) := .touchAll
  intro name view g found present
  rw [same.view?] at found
  have member : view.binding.key ∈ s.views.map fun entry => entry.2.binding.key :=
    List.mem_map.mpr ⟨_, Keyed.mem_of_lookup found, rfl⟩
  rw [Station.renderAll, gauge?_touchAll, List.count_eq_one_of_mem manned.keys.1 member] at present
  obtain ⟨before, _, rfl⟩ := Option.map_eq_some_iff.mp present
  exact Gauge.render_thresholds.trans same.thresholds.symm

end Even

structure InStep (s : Station) (thresholds : Thresholds) : Prop where
  board : s.thresholds = thresholds
  views : ∀ name view, s.view? name = some view → ∃ g, s.gauge? view.binding.key = some g ∧
    g.thresholds = thresholds ∧ g.state = Gauge.stateFor g.last thresholds g.slots ∧
    g.frame = Gauge.pictureFor g.last thresholds g.slots
  pictures : ∀ picture ∈ s.readViews, picture.thresholds = thresholds

theorem Even.inStep (even : s.Even) (manned : s.Manned leaving) {log : List Entry} (drawn : s.Drawn log) :
    s.InStep s.thresholds := by
  refine ⟨rfl, fun name view found => ?_, fun picture member => ?_⟩
  · obtain ⟨_, g, present, _⟩ := manned.told found
    obtain ⟨fixture, there, rfl⟩ := Option.map_eq_some_iff.mp present
    have coherent := drawn.coherent _ fixture there
    have thresholds := even name view _ found present
    exact ⟨fixture.gauge, present, thresholds, thresholds ▸ coherent.state, thresholds ▸ coherent.frame⟩
  · obtain ⟨⟨name, view⟩, stands, rfl⟩ := List.mem_map.mp member
    have found := Keyed.lookup_of_mem manned.ordered.distinct stands
    obtain ⟨_, g, present, _⟩ := manned.told found
    rw [picture, present]
    exact even name view g found present

end Station

-- A step of a change announces its value or leaves the store as it is.
theorem Traffic.turn_store (t : Traffic) (i : Nat) :
    (t.turn i).store = t.store ∨ ∃ value, (t.turn i).store = t.store.announce value := by
  unfold turn
  cases t.changes[i]? with
  | none => exact .inl rfl
  | some c =>
    obtain ⟨value, stage⟩ := c
    cases stage with
    | asked => dsimp only; split <;> exact .inl rfl
    | checked => dsimp only; split <;> (try split) <;> exact .inl rfl
    | housed => dsimp only; split <;> exact .inl rfl
    | saved => exact .inr ⟨value, rfl⟩
    | answered result => exact .inl rfl

namespace Relay
variable {r : Relay}

-- The thresholds that the board will have once the listener has done what it is about to do.
def pending (r : Relay) : Thresholds :=
  match r.stage with
  | .waiting => r.board.thresholds
  | .woken => r.store.thresholds
  | .holding thresholds => thresholds
  | .stored thresholds => thresholds

-- Views may have different thresholds while the listener is at work, but what it carries is up to date unless there
-- is a change it has not seen.
structure Carried (r : Relay) : Prop where
  manned : r.board.Manned r.leaving
  drawn : ∃ log, r.board.Drawn log
  watching : ∃ seen ≤ r.store.announced.version, r.watcher = .watching seen
  even : r.stage = .waiting → r.board.Even
  stored : ∀ thresholds, r.stage = .stored thresholds → r.board.thresholds = thresholds
  latest : r.watcher.changed? r.store = some false → r.pending = r.store.thresholds

namespace Carried

theorem begin (store : PreferencesStore) (place : Place) (values : List Preferences) :
    (Relay.begin store place values).Carried where
  manned := .start _
  drawn := ⟨[], Station.start_drawn _⟩
  watching := ⟨_, Nat.le_refl _, rfl⟩
  even := fun _ _ _ _ found => nomatch found
  stored := fun _ stored => nomatch stored
  latest := fun _ => rfl

-- Steps at the board leave its thresholds alone.
theorem atBoard (carried : r.Carried) {board : Station} {leaving : List Binding} (manned : board.Manned leaving)
    (evolves : ∃ entries, Station.Evolves (fun _ => True) r.board board entries)
    (thresholds : board.thresholds = r.board.thresholds) (even : r.board.Even → board.Even) :
    Carried { r with board, leaving } := by
  obtain ⟨log, drawn⟩ := carried.drawn
  obtain ⟨entries, evolves⟩ := evolves
  refine ⟨manned, ⟨_, Station.evolves_drawn drawn evolves⟩, carried.watching, fun waits => even (carried.even waits),
    fun t stored => thresholds.trans (carried.stored t stored), fun fresh => ?_⟩
  refine Eq.trans ?_ (carried.latest fresh)
  unfold pending
  cases r.stage <;> first | exact thresholds | rfl

-- An announcement is news to the listener, wherever it stands.
theorem atStore (carried : r.Carried) {traffic : Traffic}
    (store : traffic.store = r.store ∨ ∃ value, traffic.store = r.store.announce value) :
    Carried { r with traffic } := by
  obtain ⟨seen, bound, watches⟩ := carried.watching
  rcases store with same | ⟨value, announced⟩
  · have same : store { r with traffic } = r.store := same
    refine ⟨carried.manned, carried.drawn, ⟨seen, same ▸ bound, watches⟩, carried.even, carried.stored, ?_⟩
    unfold pending
    rw [same]
    exact carried.latest
  · have announced : store { r with traffic } = r.store.announce value := announced
    have older : seen ≠ r.store.announced.version + 1 := Nat.ne_of_lt (Nat.lt_succ_of_le bound)
    refine ⟨carried.manned, carried.drawn, ⟨seen, ?_, watches⟩, carried.even, carried.stored, fun fresh => ?_⟩
    · rw [announced]
      exact Nat.le_succ_of_le bound
    · change r.watcher.changed? (store { r with traffic }) = some false at fresh
      rw [announced, watches] at fresh
      exact absurd (of_decide_eq_false (Option.some.inj fresh)) (not_not.mpr older)

theorem listen (carried : r.Carried) : r.listen.Carried := by
  obtain ⟨seen, bound, watches⟩ := carried.watching
  obtain ⟨log, drawn⟩ := carried.drawn
  have noted : ∃ now ≤ r.store.announced.version, r.watcher.takeNote r.store = .watching now := by
    rw [watches]
    exact ⟨_, Nat.le_refl _, rfl⟩
  unfold Relay.listen
  cases stage : r.stage with
  | waiting =>
    dsimp only
    split
    · exact ⟨carried.manned, carried.drawn, noted, fun waits => (nomatch waits), fun _ stored => (nomatch stored),
        fun _ => rfl⟩
    · exact carried
  | woken =>
    exact ⟨carried.manned, carried.drawn, noted, fun waits => (nomatch waits), fun _ stored => (nomatch stored),
      fun _ => rfl⟩
  | holding thresholds =>
    have same : Station.Evolves (fun _ => True) r.board { r.board with thresholds } [] := .aside rfl rfl rfl rfl
    refine ⟨carried.manned.setThresholds _, ⟨_, Station.evolves_drawn drawn same⟩, carried.watching,
      fun waits => (nomatch waits), fun t stored => ?_, fun fresh => ?_⟩
    · cases stored
      rfl
    · have latest := carried.latest fresh
      rw [pending, stage] at latest
      exact latest
  | stored thresholds =>
    obtain rfl := carried.stored thresholds stage
    have same : Station.SameBoard r.board (r.board.renderAll r.board.thresholds) := .touchAll
    have rendered : Station.Evolves (fun _ => True) r.board (r.board.renderAll r.board.thresholds) _ :=
      Station.touchAll_evolves (Gauge.applyThresholds_faithful r.board.thresholds) _
    refine ⟨carried.manned.renderAll _, ⟨_, Station.evolves_drawn drawn rendered⟩, carried.watching,
      fun _ => .renderAll carried.manned, fun _ stored => (nomatch stored), fun fresh => ?_⟩
    have latest := carried.latest fresh
    rw [pending, stage] at latest
    exact same.thresholds.trans latest

theorem turn (carried : r.Carried) (t : RelayTurn) : (r.turn t).Carried := by
  cases t with
  | change number => exact carried.atStore (r.traffic.turn_store number)
  | disturb place => exact carried.atStore (.inl rfl)
  | listen => exact carried.listen
  | create now name =>
    refine carried.atBoard (carried.manned.ensureView now name) ⟨_, Station.ensureView_evolves now name⟩ ?_ fun even =>
      even.ensureView carried.manned now name
    unfold Station.ensureView
    split <;> rfl
  | takeOff name =>
    change (r.takeOff name).Carried
    unfold Relay.takeOff
    cases found : r.board.view? name with
    | none => exact carried
    | some view =>
      exact carried.atBoard (carried.manned.takeOff found) ⟨[], .aside rfl rfl rfl rfl⟩ rfl fun even => even.takeOff name
  | release number =>
    change (r.release number).Carried
    unfold Relay.release
    cases leaves : r.leaving[number]? with
    | none => exact carried
    | some b =>
      exact carried.atBoard (carried.manned.release leaves) ⟨[], Station.release_evolves b⟩
        Station.SameBoard.release.thresholds fun even => even.release carried.manned (List.mem_of_getElem? leaves)
  | bind name slot node =>
    refine carried.atBoard (carried.manned.bindView name slot node) ⟨_, Station.bindView_evolves name slot node⟩ ?_
      fun even => even.bindView carried.manned name slot node
    unfold Station.bindView
    split
    · rfl
    · exact Station.SameBoard.bind.thresholds
  | receive key snapshot =>
    exact carried.atBoard (carried.manned.touch (fun _ => Gauge.receive_slots) key)
      ⟨_, .touch key (Gauge.receive_faithful snapshot)⟩ (Station.SameBoard.touch key _).thresholds
      fun even => even.receive key snapshot

theorem run (carried : r.Carried) (turns : List RelayTurn) : (r.run turns).Carried := by
  induction turns generalizing r with
  | nil => exact carried
  | cons t later ih => exact ih (carried.turn t)

theorem inStep (carried : r.Carried) (rests : r.Rests) : r.board.InStep r.store.thresholds := by
  obtain ⟨waiting, fresh⟩ := rests
  obtain ⟨log, drawn⟩ := carried.drawn
  have latest := carried.latest fresh
  rw [pending, waiting] at latest
  exact latest ▸ (carried.even waiting).inStep carried.manned drawn

end Carried

theorem Carried.changed? (carried : r.Carried) :
    r.watcher.changed? r.store = some true ∨ r.watcher.changed? r.store = some false := by
  obtain ⟨seen, _, watches⟩ := carried.watching
  rw [watches]
  cases known : decide (seen ≠ r.store.announced.version) with
  | true => exact .inl (congrArg some known)
  | false => exact .inr (congrArg some known)

-- How many steps the listener still has to make when nobody else does anything.
def unseen (w : Watcher) (s : PreferencesStore) : Nat := if w.changed? s = some true then 4 else 0

def stepsLeft (r : Relay) : Nat :=
  match r.stage with
  | .waiting => unseen r.watcher r.store
  | .woken => 3
  | .holding _ => 2 + unseen r.watcher r.store
  | .stored _ => 1 + unseen r.watcher r.store

theorem unseen_le (w : Watcher) (s : PreferencesStore) : unseen w s ≤ 4 := by
  unfold unseen
  split <;> omega

theorem stepsLeft_le (r : Relay) : r.stepsLeft ≤ 6 := by
  have bound := unseen_le r.watcher r.store
  unfold stepsLeft
  cases r.stage <;> dsimp only <;> omega

theorem Carried.stepsLeft_listen (carried : r.Carried) : r.listen.stepsLeft = r.stepsLeft - 1 := by
  have known := carried.changed?
  obtain ⟨seen, _, watches⟩ := carried.watching
  have noted : unseen (r.watcher.takeNote r.store) r.store = 0 := by
    rw [watches]
    exact if_neg (by simp [Watcher.takeNote, Watcher.changed?])
  obtain ⟨traffic, watcher, stage, board, leaving⟩ := r
  cases stage with
  | waiting =>
    change watcher.changed? traffic.store = some true ∨ watcher.changed? traffic.store = some false at known
    rcases known with changed | unchanged
    · simp [Relay.listen, stepsLeft, unseen, store, changed]
    · simp [Relay.listen, stepsLeft, unseen, store, unchanged]
  | woken => exact congrArg (2 + ·) noted
  | holding thresholds =>
    change 1 + unseen watcher traffic.store = 2 + unseen watcher traffic.store - 1
    omega
  | stored thresholds => exact (Nat.add_sub_cancel_left ..).symm

theorem Carried.settles (carried : r.Carried) {steps : Nat} (enough : r.stepsLeft ≤ steps) :
    (r.run (List.replicate steps .listen)).Rests := by
  induction steps generalizing r with
  | zero =>
    change r.Rests
    unfold stepsLeft at enough
    cases stage : r.stage with
    | waiting =>
      rw [stage] at enough
      refine ⟨stage, carried.changed?.resolve_left fun changed => ?_⟩
      simp [unseen, changed] at enough
    | woken => simp [stage] at enough
    | holding thresholds => simp [stage] at enough
    | stored thresholds => simp [stage] at enough
  | succ steps ih =>
    refine ih carried.listen ?_
    change r.listen.stepsLeft ≤ steps
    rw [carried.stepsLeft_listen]
    omega

structure Converges (r : Relay) : Prop where
  caughtUp : r.Rests → r.board.InStep r.store.thresholds
  -- When nobody else does anything, the listener comes to rest, and the value in use stays what it is.
  settles : (r.run (List.replicate 6 .listen)).Rests ∧
    (r.run (List.replicate 6 .listen)).board.InStep r.store.thresholds

theorem store_listens (r : Relay) (steps : Nat) : (r.run (List.replicate steps .listen)).store = r.store := by
  induction steps generalizing r with
  | zero => rfl
  | succ steps ih =>
    refine (ih r.listen).trans ?_
    unfold listen
    cases r.stage <;> dsimp only <;> try split
    all_goals rfl

theorem run_converges (store : PreferencesStore) (place : Place) (values : List Preferences) (turns : List RelayTurn) :
    Converges ((begin store place values).run turns) := by
  have carried := (Carried.begin store place values).run turns
  have rests := carried.settles (stepsLeft_le _)
  have inStep := (carried.run (List.replicate 6 .listen)).inStep rests
  rw [store_listens] at inStep
  exact ⟨carried.inStep, rests, inStep⟩

-- A view that comes while the listener holds new thresholds starts with the old ones.
example :
    let r := (begin (.inMemory .standard) .absent [⟨Double.ofNat 1⟩]).run
      [.change 0, .change 0, .change 0, .listen, .listen, .create "noon" "bar"]
    r.board.readViews.map (·.thresholds) = [Thresholds.standard] ∧
      (r.run [.listen, .listen]).board.readViews.map (·.thresholds) = [Thresholds.ofGigabytes (Double.ofNat 1)] := by
  decide +kernel

end Relay

end DiskGauge
