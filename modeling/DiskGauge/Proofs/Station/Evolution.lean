import DiskGauge.Proofs.Gauge.Coherence
import DiskGauge.Station.Delivery

namespace DiskGauge

def Entry.strokeOn? (key : Nat) : Entry → Option Stroke
  | .stroke other _ made => if other = key then some made else none
  | .called .. => none

def strokesOn (key : Nat) (log : List Entry) : List Stroke := log.filterMap (Entry.strokeOn? key)

theorem strokesOn_append (key : Nat) (a b : List Entry) :
    strokesOn key (a ++ b) = strokesOn key a ++ strokesOn key b :=
  List.filterMap_append ..

theorem strokesOn_self (key : Nat) (name : Option String) (made : List Stroke) :
    strokesOn key (made.map (.stroke key name)) = made := by
  simp [strokesOn, List.filterMap_map, Function.comp_def, Entry.strokeOn?]

theorem strokesOn_other {key other : Nat} (different : key ≠ other) (name : Option String)
    (made : List Stroke) : strokesOn key (made.map (.stroke other name)) = [] := by
  simp [strokesOn, List.filterMap_map, Function.comp_def, Entry.strokeOn?, Ne.symm different]

namespace Station

-- The clients whose callbacks may be registered on the way are those of the given kind.
inductive Evolves (kind : Client → Prop) : Station → Station → List Entry → Prop where
  | same {s s' entries} : s'.gauges = s.gauges → s'.lastGauge = s.lastGauge →
      (∀ name, s'.feed name = s.feed name) → (∀ key, strokesOn key entries = []) →
      Evolves kind s s' entries
  | touch {s act} (key : Nat) : Gauge.Faithful act → Evolves kind s (s.touch key act).1 (s.touch key act).2
  | grow {s name thresholds} : Evolves kind s (s.newGauge name thresholds).2 []
  | drop {s} (key : Nat) : Evolves kind s { s with gauges := Keyed.drop key s.gauges } []
  | listen {s feed node} (key : Nat) : Evolves kind s (s.subscribe feed node (.gauge key)).2 []
  | register {s feed node client} : kind client →
      Evolves kind s (s.subscribe feed node (.client client)).2 []
  | unsubscribe {s feed handle} : Evolves kind s (s.unsubscribe feed handle).2 []
  | trans {s s' s'' earlier later} : Evolves kind s s' earlier → Evolves kind s' s'' later →
      Evolves kind s s'' (earlier ++ later)

-- The gauges of a station beside all that was ever called on their surfaces.
structure Drawn (s : Station) (log : List Entry) : Prop where
  known : ∀ key fixture, s.fixture? key = some fixture → key ≤ s.lastGauge
  coherent : ∀ key fixture, s.fixture? key = some fixture → fixture.gauge.Coherent
  frame : ∀ key fixture, s.fixture? key = some fixture →
    fixture.gauge.frame = Frame.blank.drawAll (strokesOn key log)
  silent : ∀ key fixture, s.fixture? key = some fixture → fixture.gauge.last = none →
    strokesOn key log = []
  unborn : ∀ key, s.lastGauge < key → strokesOn key log = []

theorem start_drawn (thresholds : Thresholds) : (start thresholds).Drawn [] := by
  refine ⟨?_, ?_, ?_, ?_, ?_⟩ <;> simp [start, fixture?, strokesOn]

variable {kind : Client → Prop} {s s' : Station} {key other : Nat} {act : Gauge → Gauge × List Stroke}
  {log entries : List Entry} {fixture : Fixture}

theorem touch_drawn (drawn : s.Drawn log) (faithful : Gauge.Faithful act) :
    (s.touch key act).1.Drawn (log ++ (s.touch key act).2) := by
  cases found : s.fixture? key with
  | none =>
    rw [touch_missing found, List.append_nil]
    exact drawn
  | some fixture =>
    have coherent := drawn.coherent key fixture found
    have entries : (s.touch key act).2 = (act fixture.gauge).2.map (.stroke key fixture.name) := by
      rw [touch_found found]
    have own : strokesOn key (log ++ (s.touch key act).2) =
        strokesOn key log ++ (act fixture.gauge).2 := by
      rw [strokesOn_append, entries, strokesOn_self]
    have others : ∀ other, other ≠ key →
        strokesOn other (log ++ (s.touch key act).2) = strokesOn other log := by
      intro other different
      rw [strokesOn_append, entries, strokesOn_other different, List.append_nil]
    have each : ∀ other now, (s.touch key act).1.fixture? other = some now →
        (other = key ∧ now = { fixture with gauge := (act fixture.gauge).1 }) ∨
        (other ≠ key ∧ s.fixture? other = some now) := by
      intro other now member
      by_cases equal : other = key
      · subst other
        rw [fixture?_touch_self found] at member
        exact .inl ⟨rfl, (Option.some.inj member).symm⟩
      · rw [fixture?_touch_other equal] at member
        exact .inr ⟨equal, member⟩
    refine ⟨?_, ?_, ?_, ?_, ?_⟩
    · intro other now member
      rw [lastGauge_touch]
      rcases each other now member with ⟨rfl, _⟩ | ⟨_, old⟩
      · exact drawn.known _ fixture found
      · exact drawn.known other now old
    · intro other now member
      rcases each other now member with ⟨rfl, rfl⟩ | ⟨_, old⟩
      · exact faithful.coherent _ coherent
      · exact drawn.coherent other now old
    · intro other now member
      rcases each other now member with ⟨rfl, rfl⟩ | ⟨different, old⟩
      · rw [own, faithful.frame, drawn.frame _ fixture found]
        exact (List.foldl_append ..).symm
      · rw [others other different]
        exact drawn.frame other now old
    · intro other now member last
      rcases each other now member with ⟨rfl, rfl⟩ | ⟨different, old⟩
      · obtain ⟨before, silent⟩ := faithful.silent _ coherent last
        rw [own, silent, List.append_nil]
        exact drawn.silent _ fixture found before
      · rw [others other different]
        exact drawn.silent other now old last
    · intro other above
      rw [lastGauge_touch] at above
      have bound := drawn.known key fixture found
      rw [others other (by omega)]
      exact drawn.unborn other above

-- A new gauge was never on a surface before, its key being above all that were given out.
theorem newGauge_drawn (drawn : s.Drawn log) {name : Option String} {thresholds : Thresholds} :
    (s.newGauge name thresholds).2.Drawn log := by
  have each : ∀ key now, (s.newGauge name thresholds).2.fixture? key = some now →
      (key = s.lastGauge + 1 ∧ now = ⟨.new thresholds, name⟩) ∨ s.fixture? key = some now := by
    intro key now member
    by_cases equal : key = s.lastGauge + 1
    · subst equal
      simp only [newGauge, fixture?, Keyed.lookup_put_self, Option.some.injEq] at member
      exact .inl ⟨rfl, member.symm⟩
    · simp only [newGauge, fixture?, Keyed.lookup_put_other equal] at member
      exact .inr member
  have fresh := drawn.unborn (s.lastGauge + 1) (Nat.lt_succ_self _)
  refine ⟨?_, ?_, ?_, ?_, ?_⟩
  · intro key now member
    rcases each key now member with ⟨rfl, _⟩ | old
    · exact Nat.le_refl _
    · exact Nat.le_succ_of_le (drawn.known key now old)
  · intro key now member
    rcases each key now member with ⟨_, rfl⟩ | old
    · exact Gauge.new_coherent thresholds
    · exact drawn.coherent key now old
  · intro key now member
    rcases each key now member with ⟨rfl, rfl⟩ | old
    · rw [fresh]
      rfl
    · exact drawn.frame key now old
  · intro key now member last
    rcases each key now member with ⟨rfl, _⟩ | old
    · exact fresh
    · exact drawn.silent key now old last
  · intro key above
    exact drawn.unborn key (Nat.lt_of_succ_lt above)

theorem drop_drawn (drawn : s.Drawn log) :
    { s with gauges := Keyed.drop key s.gauges }.Drawn log := by
  have each : ∀ other now, { s with gauges := Keyed.drop key s.gauges }.fixture? other = some now →
      s.fixture? other = some now := by
    intro other now member
    by_cases equal : other = key
    · subst other
      simp [fixture?] at member
    · simpa only [fixture?, Keyed.lookup_drop_other equal] using member
  exact ⟨fun other now member => drawn.known other now (each other now member),
    fun other now member => drawn.coherent other now (each other now member),
    fun other now member => drawn.frame other now (each other now member),
    fun other now member => drawn.silent other now (each other now member), drawn.unborn⟩

theorem same_drawn (drawn : s.Drawn log) (gauges : s'.gauges = s.gauges)
    (lastGauge : s'.lastGauge = s.lastGauge) (quiet : ∀ key, strokesOn key entries = []) :
    s'.Drawn (log ++ entries) := by
  have strokes : ∀ key, strokesOn key (log ++ entries) = strokesOn key log := by
    intro key
    rw [strokesOn_append, quiet key, List.append_nil]
  have fixtures : ∀ key, s'.fixture? key = s.fixture? key := by
    intro key
    simp only [fixture?, gauges]
  constructor
  · simpa only [fixtures, lastGauge] using drawn.known
  · simpa only [fixtures] using drawn.coherent
  · simpa only [fixtures, strokes] using drawn.frame
  · simpa only [fixtures, strokes] using drawn.silent
  · simpa only [lastGauge, strokes] using drawn.unborn

theorem evolves_drawn (drawn : s.Drawn log) (evolves : Evolves kind s s' entries) :
    s'.Drawn (log ++ entries) := by
  induction evolves generalizing log with
  | same gauges lastGauge _ quiet => exact same_drawn drawn gauges lastGauge quiet
  | touch key faithful => exact touch_drawn drawn faithful
  | grow =>
    rw [List.append_nil]
    exact newGauge_drawn drawn
  | drop =>
    rw [List.append_nil]
    exact drop_drawn drawn
  | listen => exact same_drawn drawn gauges_setFeed lastGauge_setFeed fun _ => rfl
  | register => exact same_drawn drawn gauges_setFeed lastGauge_setFeed fun _ => rfl
  | unsubscribe => exact same_drawn drawn gauges_setFeed lastGauge_setFeed fun _ => rfl
  | trans _ _ first second =>
    rw [← List.append_assoc]
    exact second (first drawn)

theorem Evolves.refl : Evolves kind s s [] := .same rfl rfl (fun _ => rfl) fun _ => rfl

-- Two changes of which the second, or the first, is not seen.
theorem Evolves.andThen {s'' : Station} (first : Evolves kind s s' entries)
    (second : Evolves kind s' s'' []) : Evolves kind s s'' entries :=
  List.append_nil entries ▸ first.trans second

theorem Evolves.after {s'' : Station} (first : Evolves kind s s' [])
    (second : Evolves kind s' s'' entries) : Evolves kind s s'' entries := first.trans second

-- Neither feeds nor gauges notice a change of the other parts.
theorem Evolves.aside (main : s'.main = s.main) (side : s'.side = s.side)
    (gauges : s'.gauges = s.gauges) (lastGauge : s'.lastGauge = s.lastGauge) :
    Evolves kind s s' [] :=
  .same gauges lastGauge (fun name => by cases name <;> assumption) fun _ => rfl

theorem unsubscribe?_evolves (feed : FeedName) (handle : Option Handle) :
    Evolves kind s (s.unsubscribe? feed handle) [] := by
  cases handle with
  | none => exact .refl
  | some handle => exact .unsubscribe

theorem bind_evolves (b : Binding) (slot : Slot) (node : Option String) :
    Evolves kind s (s.bind b slot node).2.1 (s.bind b slot node).2.2 := by
  unfold bind
  split
  · exact .refl
  · have gone : Evolves kind s (s.unsubscribe? b.feed (b.handle? slot)) [] :=
      unsubscribe?_evolves ..
    have told := gone.after (.touch b.key (Gauge.setSlot_faithful slot node))
    cases node with
    | none => exact told
    | some node => exact told.andThen (.listen b.key)

theorem release_evolves (b : Binding) : Evolves kind s (s.release b) [] :=
  ((unsubscribe?_evolves b.feed b.current).andThen
    (unsubscribe?_evolves b.feed b.selected)).andThen (.drop b.key)

theorem newRenderer_evolves (feed : FeedName) (name : String) (thresholds : Thresholds) :
    Evolves kind s (s.newRenderer feed name thresholds).2 [] := by
  have grown : Evolves kind s (s.newGauge (some name) thresholds).2 [] := .grow
  unfold newRenderer
  cases s.liveRenderer? name with
  | none => exact grown.andThen (.aside rfl rfl rfl rfl)
  | some b => exact (grown.andThen (release_evolves b)).andThen (.aside rfl rfl rfl rfl)

theorem dispose_evolves (name : String) : Evolves kind s (s.dispose name).2 [] := by
  unfold dispose
  split
  · exact .refl
  · exact (release_evolves _).andThen (.aside rfl rfl rfl rfl)

theorem bindRenderer_evolves (name : String) (slot : Slot) (node : Option String) :
    Evolves kind s (s.bindRenderer name slot node).2.1 (s.bindRenderer name slot node).2.2 := by
  unfold bindRenderer
  split
  · exact .refl
  · exact (bind_evolves ..).andThen (.aside rfl rfl rfl rfl)

theorem setRendererThresholds_evolves (name : String) (thresholds : Thresholds) :
    Evolves kind s (s.setRendererThresholds name thresholds).2.1
      (s.setRendererThresholds name thresholds).2.2 := by
  unfold setRendererThresholds
  split
  · exact .refl
  · exact .touch _ (Gauge.applyThresholds_faithful thresholds)

theorem ensureView_evolves (now name : String) : Evolves kind s (s.ensureView now name).2 [] := by
  unfold ensureView
  split
  · exact .refl
  · exact Evolves.grow.andThen (.aside rfl rfl rfl rfl)

theorem removeView_evolves (name : String) : Evolves kind s (s.removeView name).2 [] := by
  unfold removeView
  split
  · exact .refl
  · have taken : Evolves kind s { s with views := Keyed.drop name s.views } [] :=
      .aside rfl rfl rfl rfl
    exact taken.andThen (release_evolves _)

theorem bindView_evolves (name : String) (slot : Slot) (node : Option String) :
    Evolves kind s (s.bindView name slot node).2.1 (s.bindView name slot node).2.2 := by
  unfold bindView
  split
  · exact .refl
  · exact (bind_evolves ..).andThen (.aside rfl rfl rfl rfl)

theorem touchAll_evolves (faithful : Gauge.Faithful act) (keys : List Nat) :
    Evolves kind s (touchAll act keys s).1 (touchAll act keys s).2 := by
  induction keys generalizing s with
  | nil => exact .refl
  | cons key rest ih => exact .trans (.touch key faithful) ih

theorem applyThresholds_evolves (thresholds : Thresholds) :
    Evolves kind s (s.applyThresholds thresholds).1 (s.applyThresholds thresholds).2 := by
  have noted : Evolves kind s { s with thresholds } [] := .aside rfl rfl rfl rfl
  exact noted.after (touchAll_evolves (Gauge.applyThresholds_faithful thresholds) _)

end Station

end DiskGauge
