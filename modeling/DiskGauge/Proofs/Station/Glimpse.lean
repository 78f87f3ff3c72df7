import DiskGauge.Proofs.Gauge.Coherence
import DiskGauge.Station.Board

namespace DiskGauge

abbrev Act := Gauge → Gauge × List Stroke

-- Who holds the lock: the gauge as it will be left, and the strokes that have still to be made for it.
structure Holder where
  after : Gauge
  next : Stroke
  later : List Stroke
deriving DecidableEq

-- A gauge with its lock. Strokes can be seen at once, all else when the lock is given back.
structure Easel where
  gauge : Gauge
  holder : Option Holder
deriving DecidableEq

-- What others do between two looks of a reader: a report comes in, or whoever holds the lock makes its next stroke.
inductive Hand where
  | receive (snapshot : Snapshot)
  | draw
deriving DecidableEq

def Hand.snapshot? : Hand → Option Snapshot
  | .receive snapshot => some snapshot
  | .draw => none

structure Pauses where
  current : List Hand
  selected : List Hand
  state : List Hand
  frame : List Hand
  thresholds : List Hand

namespace Gauge

def did (g : Gauge) (acts : List Act) : Gauge := acts.foldl (fun g act => (act g).1) g

def receiving (snapshots : List Snapshot) : List Act := snapshots.map fun snapshot g => g.receive snapshot

def changed (g : Gauge) : Option (Slot × Option String) → Gauge
  | none => g
  | some (slot, node) => (g.setSlot slot node).1

variable {g : Gauge} {acts : List Act} {snapshots : List Snapshot}

theorem did_append (g : Gauge) (first second : List Act) : g.did (first ++ second) = (g.did first).did second :=
  List.foldl_append

theorem receiving_append (first second : List Snapshot) :
    receiving (first ++ second) = receiving first ++ receiving second :=
  List.map_append

theorem did_receiving (g : Gauge) (snapshots : List Snapshot) :
    (g.did (receiving snapshots)).slots = g.slots ∧ (g.did (receiving snapshots)).thresholds = g.thresholds := by
  induction snapshots generalizing g with
  | nil => exact ⟨rfl, rfl⟩
  | cons s snapshots ih =>
    obtain ⟨slots, thresholds⟩ := ih (g.receive s).1
    exact ⟨slots.trans receive_slots, thresholds.trans receive_thresholds⟩

theorem Coherent.did (coherent : g.Coherent) (faithful : ∀ act ∈ acts, Faithful act) : (g.did acts).Coherent := by
  induction acts generalizing g with
  | nil => exact coherent
  | cons act acts ih =>
    have first := (faithful act (List.mem_cons_self ..)).coherent g coherent
    exact ih first fun later member => faithful later (List.mem_cons_of_mem _ member)

theorem Coherent.receiving (coherent : g.Coherent) (snapshots : List Snapshot) :
    (g.did (receiving snapshots)).Coherent := by
  refine coherent.did fun act member => ?_
  obtain ⟨s, _, rfl⟩ := List.mem_map.mp member
  exact receive_faithful s

theorem Coherent.changed (coherent : g.Coherent) (change : Option (Slot × Option String)) :
    (g.changed change).Coherent := by
  cases change with
  | none => exact coherent
  | some => exact setSlot_coherent coherent

end Gauge

namespace Easel

def free (g : Gauge) : Easel := ⟨g, none⟩

-- Takes the lock and finds out what has to be drawn, or waits.
def take (e : Easel) (act : Act) : Easel :=
  match e.holder with
  | some _ => e
  | none =>
    match act e.gauge with
    | (after, []) => free after
    | (after, next :: later) => ⟨e.gauge, some ⟨after, next, later⟩⟩

-- The last stroke gives the lock back.
def draw (e : Easel) : Easel :=
  match e.holder with
  | none => e
  | some ⟨after, next, []⟩ => free { after with frame := e.gauge.frame.draw next }
  | some ⟨after, next, stroke :: later⟩ =>
    ⟨{ e.gauge with frame := e.gauge.frame.draw next }, some ⟨after, stroke, later⟩⟩

def turn (e : Easel) : Hand → Easel
  | .receive snapshot => e.take (·.receive snapshot)
  | .draw => e.draw

def run (e : Easel) (hands : List Hand) : Easel := hands.foldl turn e

-- A look under the lock, for which nobody else may have it.
def look {α : Type} (e : Easel) (part : Gauge → α) : Option α :=
  match e.holder with
  | some _ => none
  | none => some (part e.gauge)

def read (e : Easel) (p : Pauses) (name created : String) : Option ViewPicture := do
  let e := e.run p.current
  let current ← e.look (·.slots.current)
  let e := e.run p.selected
  let selected ← e.look (·.slots.selected)
  let e := e.run p.state
  let state ← e.look (·.state)
  let e := e.run p.frame
  let frame := e.gauge.frame
  let e := e.run p.thresholds
  let thresholds ← e.look (·.thresholds)
  return ⟨name, ⟨current, selected⟩, state, frame, thresholds, created⟩

-- A reader may bind a slot first, for which it takes the lock like others.
def ask (e : Easel) (change : Option (Slot × Option String)) (before : List Hand) (p : Pauses)
    (name created : String) : Option ViewPicture :=
  match change with
  | none => (e.run before).read p name created
  | some (slot, node) => do
    let _ ← (e.run before).look id
    ((e.run before).take (·.setSlot slot node)).read p name created

-- On a gauge some strokes were made, and the holder of the lock makes others.
def drawing (base : Gauge) (begun : List Stroke) (holder : Holder) : Easel :=
  ⟨{ base with frame := base.frame.drawAll begun }, some holder⟩

-- An easel whose gauge is the given one, apart from strokes that were made on it for an act that is not yet done.
inductive Shows (base : Gauge) : Option Act → List Stroke → Easel → Prop where
  | free : Shows base none [] (free base)
  | held {act : Act} {begun later : List Stroke} {next : Stroke} {after : Gauge} (faithful : Gauge.Faithful act)
      (made : act base = (after, begun ++ next :: later)) :
      Shows base (some act) begun (drawing base begun ⟨after, next, later⟩)

variable {base g : Gauge} {e : Easel} {act : Act} {due : Option Act} {begun : List Stroke} {hands : List Hand}

-- Acts are done in the order in which they took the lock.
theorem take_shows (base : Gauge) (faithful : Gauge.Faithful act) :
    ∃ done due, done ++ due.toList = [act] ∧ Shows (base.did done) due [] ((free base).take act) := by
  unfold take free
  dsimp only
  split
  · next after made =>
    refine ⟨[act], none, rfl, ?_⟩
    have same : base.did [act] = after := congrArg Prod.fst made
    rw [same]
    exact .free
  · next after next later made => exact ⟨[], some act, rfl, .held faithful made⟩

theorem draw_next (base : Gauge) (begun : List Stroke) (after : Gauge) (next stroke : Stroke) (later : List Stroke) :
    (drawing base begun ⟨after, next, stroke :: later⟩).draw =
      drawing base (begun ++ [next]) ⟨after, stroke, later⟩ := by
  simp [draw, drawing, Frame.drawAll]

theorem draw_last {after : Gauge} {next : Stroke} (faithful : Gauge.Faithful act)
    (made : act base = (after, begun ++ [next])) : (drawing base begun ⟨after, next, []⟩).draw = free after := by
  have drawn := faithful.frame base
  rw [made] at drawn
  have frame : (base.frame.drawAll begun).draw next = after.frame := by
    rw [drawn]
    simp [Frame.drawAll]
  simp [draw, drawing, frame]

theorem Shows.draw (shows : Shows base due begun e) :
    ∃ done due' begun', done ++ due'.toList = due.toList ∧ Shows (base.did done) due' begun' e.draw := by
  cases shows with
  | free => exact ⟨[], none, [], rfl, .free⟩
  | @held act begun later next after faithful made =>
    cases later with
    | nil =>
      have left : base.did [act] = after := congrArg Prod.fst made
      refine ⟨[act], none, [], rfl, ?_⟩
      rw [draw_last faithful made, left]
      exact .free
    | cons stroke later =>
      have rest : act base = (after, (begun ++ [next]) ++ stroke :: later) := by simpa using made
      rw [draw_next]
      exact ⟨[], some act, begun ++ [next], rfl, .held faithful rest⟩

theorem Shows.turn (shows : Shows base due begun e) (hand : Hand) :
    ∃ done due' begun' taken, done ++ due'.toList = due.toList ++ Gauge.receiving taken ∧
      taken.Sublist hand.snapshot?.toList ∧ Shows (base.did done) due' begun' (e.turn hand) := by
  cases hand with
  | draw =>
    obtain ⟨done, due', begun', order, after⟩ := shows.draw
    exact ⟨done, due', begun', [], by rw [order]; simp [Gauge.receiving], .refl _, after⟩
  | receive s =>
    cases shows with
    | free =>
      obtain ⟨done, due', order, after⟩ := take_shows base (Gauge.receive_faithful s)
      exact ⟨done, due', [], [s], order, .refl _, after⟩
    | held faithful made => exact ⟨[], _, _, [], by simp [Gauge.receiving], List.nil_sublist _, .held faithful made⟩

theorem Shows.run (shows : Shows base due begun e) (hands : List Hand) :
    ∃ done due' begun' taken, done ++ due'.toList = due.toList ++ Gauge.receiving taken ∧
      taken.Sublist (hands.filterMap Hand.snapshot?) ∧ Shows (base.did done) due' begun' (e.run hands) := by
  induction hands generalizing base due begun e with
  | nil => exact ⟨[], due, begun, [], by simp [Gauge.receiving], .refl _, shows⟩
  | cons hand hands ih =>
    obtain ⟨done, due', begun', taken, order, taking, after⟩ := shows.turn hand
    obtain ⟨done', due'', begun'', taken', order', taking', after'⟩ := ih after
    refine ⟨done ++ done', due'', begun'', taken ++ taken', ?_, ?_, ?_⟩
    · rw [List.append_assoc, order', ← List.append_assoc, order, List.append_assoc]
      simp [Gauge.receiving]
    · have split : (hand :: hands).filterMap Hand.snapshot? =
          hand.snapshot?.toList ++ hands.filterMap Hand.snapshot? := by
        cases hand <;> rfl
      rw [split]
      exact taking.append taking'
    · rw [Gauge.did_append]
      exact after'

theorem Shows.frame (shows : Shows base due begun e) : e.gauge.frame = base.frame.drawAll begun := by
  cases shows with
  | free => rfl
  | held => rfl

-- Whoever has the lock next has it for a gauge on which all is done.
theorem Shows.look {α : Type} {part : Gauge → α} {value : α} (shows : Shows base due begun e)
    (looked : e.look part = some value) : due = none ∧ e = Easel.free base ∧ part base = value := by
  cases shows with
  | free => exact ⟨rfl, rfl, Option.some.inj looked⟩
  | held => cases looked

theorem Shows.run_look {α : Type} {part : Gauge → α} {value : α} (shows : Shows base due begun e)
    (looked : (e.run hands).look part = some value) :
    ∃ taken, taken.Sublist (hands.filterMap Hand.snapshot?) ∧
      e.run hands = Easel.free (base.did (due.toList ++ Gauge.receiving taken)) ∧
      part (base.did (due.toList ++ Gauge.receiving taken)) = value := by
  obtain ⟨done, due', begun', taken, order, taking, after⟩ := shows.run hands
  obtain ⟨rfl, freed, seen⟩ := after.look looked
  rw [Option.toList_none, List.append_nil] at order
  rw [order] at freed seen
  exact ⟨taken, taking, freed, seen⟩

theorem run_cons (e : Easel) (hand : Hand) (hands : List Hand) : e.run (hand :: hands) = (e.turn hand).run hands := rfl

theorem run_append (e : Easel) (first second : List Hand) : (e.run first).run second = e.run (first ++ second) :=
  List.foldl_append.symm

-- Without a stroke the surface stays as it is.
theorem frame_take (e : Easel) (faithful : Gauge.Faithful act) : (e.take act).gauge.frame = e.gauge.frame := by
  unfold take
  split
  · rfl
  · split
    · next after made =>
      have drawn := faithful.frame e.gauge
      rw [made] at drawn
      exact drawn
    · rfl

theorem frame_run (still : Hand.draw ∉ hands) : (e.run hands).gauge.frame = e.gauge.frame := by
  induction hands generalizing e with
  | nil => rfl
  | cons hand hands ih =>
    obtain ⟨other, later⟩ := not_or.mp (mt List.mem_cons.mpr still)
    cases hand with
    | draw => exact absurd rfl other
    | receive s => exact (ih later).trans (e.frame_take (Gauge.receive_faithful s))

end Easel

structure Glimpsed (moment : Gauge) (meanwhile : List Hand) (picture : ViewPicture) : Prop where
  slots : picture.slots = moment.slots
  state : picture.state = moment.state
  thresholds : picture.thresholds = moment.thresholds
  -- Reports may have been drawn since, and the drawing of one more may have begun.
  frame : ∃ since begun, since.Sublist (meanwhile.filterMap Hand.snapshot?) ∧
    picture.frame = (moment.did (Gauge.receiving since)).frame.drawAll begun ∧
    (begun = [] ∨ ∃ s, (since ++ [s]).Sublist (meanwhile.filterMap Hand.snapshot?) ∧
      begun <+: ((moment.did (Gauge.receiving since)).receive s).2)
  still : Hand.draw ∉ meanwhile → picture.frame = moment.frame

namespace Easel
variable {base g : Gauge} {e : Easel} {due : Option Act} {begun : List Stroke} {p : Pauses} {name created : String}
  {picture : ViewPicture} {change : Option (Slot × Option String)} {before : List Hand}

theorem read_run (e : Easel) (before : List Hand) :
    (e.run before).read p name created = e.read { p with current := before ++ p.current } name created := by
  simp only [Easel.read, run_append]

theorem frame_meanwhile (moment : Gauge) (hands : List Hand) :
    ∃ since begun, since.Sublist (hands.filterMap Hand.snapshot?) ∧
      ((free moment).run hands).gauge.frame = (moment.did (Gauge.receiving since)).frame.drawAll begun ∧
      (begun = [] ∨ ∃ s, (since ++ [s]).Sublist (hands.filterMap Hand.snapshot?) ∧
        begun <+: ((moment.did (Gauge.receiving since)).receive s).2) := by
  have start : Shows moment none [] (free moment) := .free
  obtain ⟨done, due, begun, taken, order, taking, shows⟩ := start.run hands
  obtain ⟨since, last, rfl, rfl, rest⟩ := List.map_eq_append_iff.mp order.symm
  have frame := shows.frame
  generalize (free moment).run hands = after at shows frame
  cases shows with
  | free => exact ⟨since, [], (List.sublist_append_left ..).trans taking, frame, .inl rfl⟩
  | @held act _ later next after _ made =>
    obtain ⟨s, rfl, rfl⟩ := List.map_eq_singleton_iff.mp rest
    refine ⟨since, begun, (List.sublist_append_left ..).trans taking, frame, .inr ⟨s, taking, next :: later, ?_⟩⟩
    exact (congrArg Prod.snd made).symm

theorem Shows.read (shows : Shows base due begun e) (read : e.read p name created = some picture) :
    ∃ later, later.Sublist ((p.current ++ p.selected ++ p.state).filterMap Hand.snapshot?) ∧
      Glimpsed (base.did (due.toList ++ Gauge.receiving later)) p.frame picture := by
  unfold Easel.read at read
  obtain ⟨_, seenCurrent, read⟩ := Option.bind_eq_some_iff.mp read
  obtain ⟨_, seenSelected, read⟩ := Option.bind_eq_some_iff.mp read
  obtain ⟨_, seenState, read⟩ := Option.bind_eq_some_iff.mp read
  obtain ⟨_, seenThresholds, read⟩ := Option.bind_eq_some_iff.mp read
  obtain rfl := Option.some.inj read
  obtain ⟨first, takingFirst, atCurrent, rfl⟩ := shows.run_look seenCurrent
  rw [atCurrent] at seenSelected seenState seenThresholds ⊢
  obtain ⟨second, takingSecond, atSelected, rfl⟩ := Shows.free.run_look seenSelected
  rw [atSelected] at seenState seenThresholds ⊢
  obtain ⟨third, takingThird, atState, rfl⟩ := Shows.free.run_look seenState
  rw [atState, run_append] at seenThresholds
  rw [atState]
  obtain ⟨fourth, _, _, rfl⟩ := Shows.free.run_look seenThresholds
  simp only [Option.toList_none, List.nil_append]
  refine ⟨first ++ second ++ third, ?_, ?_⟩
  · simpa only [List.filterMap_append] using (takingFirst.append takingSecond).append takingThird
  · have moment : base.did (due.toList ++ Gauge.receiving (first ++ second ++ third)) =
        ((base.did (due.toList ++ Gauge.receiving first)).did (Gauge.receiving second)).did
          (Gauge.receiving third) := by
      simp only [Gauge.receiving_append, Gauge.did_append]
    rw [moment]
    generalize base.did (due.toList ++ Gauge.receiving first) = m
    obtain ⟨slots, _⟩ := m.did_receiving second
    obtain ⟨slots', _⟩ := (m.did (Gauge.receiving second)).did_receiving third
    constructor
    case slots => rw [slots', slots]
    case state => rfl
    case thresholds => exact (Gauge.did_receiving _ fourth).2
    case frame => exact frame_meanwhile _ p.frame
    case still => exact frame_run

end Easel

-- Drawn in full for its state, or blank without one.
structure ViewPicture.Whole (v : ViewPicture) : Prop where
  blank : v.state = none ↔ v.frame = .blank
  drawn (state : GaugeState) : v.state = some state → ∃ percent : Double,
    state.reading.percentText = Layout.plain.text percent ++ "%" ∧
      v.frame = ⟨some (.ofUsage state.reading.tier percent),
        some (Gradient.ofUsage state.reading.tier percent).css, some state.reading.freeLabel, state.visible⟩

theorem Gauge.Coherent.whole {g : Gauge} {v : ViewPicture} (coherent : g.Coherent) (state : v.state = g.state)
    (frame : v.frame = g.frame) : v.Whole := by
  rw [coherent.state] at state
  rw [coherent.frame] at frame
  cases last : g.last with
  | none =>
    rw [last] at state frame
    exact ⟨⟨fun _ => frame, fun _ => state⟩, fun other drawn => nomatch state.symm.trans drawn⟩
  | some s =>
    rw [last] at state frame
    constructor
    case blank =>
      rw [state, frame]
      constructor
      · intro absent
        cases absent
      · intro blank
        cases congrArg Frame.gradient blank
    case drawn =>
      intro other drawn
      obtain rfl := Option.some.inj (state.symm.trans drawn)
      exact ⟨s.percent, rfl, frame⟩

-- The gauges that there are between two renders, when a slot is bound after some reports and before others.
def Gauge.Comes (g : Gauge) (change : Option (Slot × Option String)) (before after : List Hand) (moment : Gauge) :
    Prop :=
  ∃ earlier later, earlier.Sublist (before.filterMap Hand.snapshot?) ∧
    later.Sublist (after.filterMap Hand.snapshot?) ∧
    moment = ((g.did (Gauge.receiving earlier)).changed change).did (Gauge.receiving later)

namespace Easel
variable {g : Gauge} {p : Pauses} {name created : String} {picture : ViewPicture}
  {change : Option (Slot × Option String)} {before : List Hand}

theorem ask_moment (asked : (free g).ask change before p name created = some picture) :
    ∃ moment, g.Comes change before (p.current ++ p.selected ++ p.state) moment ∧
      Glimpsed moment p.frame picture := by
  cases change with
  | none =>
    have start : Shows g none [] (free g) := .free
    rw [ask, read_run] at asked
    obtain ⟨taken, taking, glimpsed⟩ := start.read asked
    rw [List.append_assoc, List.append_assoc, List.filterMap_append] at taking
    obtain ⟨earlier, later, rfl, takingEarlier, takingLater⟩ := List.sublist_append_iff.mp taking
    refine ⟨_, ⟨earlier, later, takingEarlier, ?_, rfl⟩, ?_⟩
    · rwa [List.append_assoc]
    · rw [Option.toList_none, List.nil_append, Gauge.receiving_append, Gauge.did_append] at glimpsed
      exact glimpsed
  | some change =>
    obtain ⟨slot, node⟩ := change
    obtain ⟨_, seen, read⟩ := Option.bind_eq_some_iff.mp asked
    obtain ⟨earlier, takingEarlier, freed, _⟩ := Shows.free.run_look seen
    rw [freed] at read
    obtain ⟨done, due, order, shows⟩ := take_shows (g.did (Gauge.receiving earlier)) (Gauge.setSlot_faithful slot node)
    obtain ⟨later, takingLater, glimpsed⟩ := shows.read read
    refine ⟨_, ⟨earlier, later, takingEarlier, takingLater, rfl⟩, ?_⟩
    rw [← Gauge.did_append, ← List.append_assoc, order] at glimpsed
    exact glimpsed

-- Where nothing comes between, a report is received and a picture is taken as they are on a board.
theorem run_drawing {after : Gauge} {next : Stroke} {later : List Stroke} (faithful : Gauge.Faithful act)
    (made : act base = (after, begun ++ next :: later)) :
    (drawing base begun ⟨after, next, later⟩).run (List.replicate (later.length + 1) .draw) = free after := by
  induction later generalizing begun next with
  | nil => exact draw_last faithful made
  | cons stroke later ih =>
    rw [List.length_cons, List.replicate_succ, run_cons, turn, draw_next]
    exact ih (by simpa using made)

theorem run_draws (g : Gauge) (count : Nat) : (free g).run (List.replicate count .draw) = free g := by
  induction count with
  | zero => rfl
  | succ count ih => exact ih

theorem run_take (g : Gauge) (faithful : Gauge.Faithful act) {count : Nat} (enough : (act g).2.length ≤ count) :
    ((free g).take act).run (List.replicate count .draw) = free (act g).1 := by
  obtain ⟨more, rfl⟩ := Nat.exists_eq_add_of_le enough
  rw [← List.replicate_append_replicate, ← run_append, ← run_draws (act g).1 more]
  refine congrArg (fun e : Easel => e.run _) ?_
  unfold take free
  dsimp only
  split
  · next after made =>
    rw [made]
    rfl
  · next after next later made =>
    have whole : act g = (after, [] ++ next :: later) := made
    rw [made]
    exact run_drawing faithful whole

theorem length_receive (g : Gauge) (s : Snapshot) : (g.receive s).2.length ≤ 3 := by
  by_cases valid : s.validate = .ok ()
  · rw [Gauge.receive_valid valid]
    exact Nat.le_refl 3
  · rw [Gauge.receive_invalid valid]
    exact Nat.zero_le 3

theorem length_setSlot (g : Gauge) (slot : Slot) (node : Option String) : (g.setSlot slot node).2.length ≤ 1 := by
  unfold Gauge.setSlot Gauge.refreshVisibility
  split
  · exact Nat.zero_le 1
  · dsimp only
    split
    · exact Nat.zero_le 1
    · exact Nat.le_refl 1

theorem run_receive (g : Gauge) (s : Snapshot) :
    (free g).run [.receive s, .draw, .draw, .draw] = free (g.receive s).1 :=
  run_take g (Gauge.receive_faithful s) (length_receive g s)

theorem ask_alone (g : Gauge) (change : Option (Slot × Option String)) (s : Station) (name : String) (view : View)
    (found : s.gauge? view.binding.key = some (g.changed change)) :
    (free g).ask change [] ⟨[.draw], [], [], [], []⟩ name view.created = some (s.picture name view) := by
  have still (g : Gauge) (found : s.gauge? view.binding.key = some g) :
      (free g).read ⟨[], [], [], [], []⟩ name view.created = some (s.picture name view) := by
    simp [read, run, look, free, Station.picture, found]
  cases change with
  | none => exact still g found
  | some change =>
    obtain ⟨slot, node⟩ := change
    have drawn : ((free g).take (·.setSlot slot node)).run [.draw] = free (g.setSlot slot node).1 :=
      run_take g (Gauge.setSlot_faithful slot node) (length_setSlot g slot node)
    have read := still _ found
    rw [Gauge.changed, ← drawn, read_run] at read
    exact read

end Easel

theorem read_amid_reports {g : Gauge} (coherent : g.Coherent) {change : Option (Slot × Option String)} {before : List Hand}
    {p : Pauses} {name created : String} {picture : ViewPicture}
    (asked : (Easel.free g).ask change before p name created = some picture) :
    ∃ moment, g.Comes change before (p.current ++ p.selected ++ p.state) moment ∧ moment.Coherent ∧
      Glimpsed moment p.frame picture ∧ (Hand.draw ∉ p.frame → picture.Whole) := by
  obtain ⟨moment, comes, glimpsed⟩ := Easel.ask_moment asked
  have whole : moment.Coherent := by
    obtain ⟨earlier, later, _, _, rfl⟩ := comes
    exact ((coherent.receiving earlier).changed change).receiving later
  exact ⟨moment, comes, whole, glimpsed, fun still => whole.whole glimpsed.state (glimpsed.still still)⟩

-- A gauge that waits for the first report of a node, and the report.
def waiting : Gauge := ((Gauge.new ⟨5000000000, 10000000⟩).setSlot .current (some "n1")).1

def firstReport : Snapshot := ⟨"n1", Double.ofNat 50, 1000⟩

theorem waiting_coherent : waiting.Coherent := Gauge.setSlot_coherent (Gauge.new_coherent _)

-- A reader is told of no state, and then finds a frame on the surface.
def unstated (frame : Frame) : ViewPicture := ⟨"w", ⟨some "n1", none⟩, none, frame, ⟨5000000000, 10000000⟩, "T"⟩

def Finds (meanwhile after : List Hand) (frame : Frame) : Prop :=
  (Easel.free waiting).ask none [] ⟨[], [], [], meanwhile, after⟩ "w" "T" = some (unstated frame)

instance {meanwhile after : List Hand} {frame : Frame} : Decidable (Finds meanwhile after frame) :=
  inferInstanceAs (Decidable (_ = _))

theorem unstated_whole {frame : Frame} (drawn : frame ≠ .blank) : ¬(unstated frame).Whole :=
  fun whole => drawn (whole.blank.mp rfl)

theorem read_before_strokes : ∃ moment, waiting.Comes none [] [] moment ∧ moment.Coherent ∧
    Glimpsed moment [.receive firstReport] (unstated .blank) ∧ (unstated .blank).Whole := by
  have asked : Finds [.receive firstReport] [.draw, .draw, .draw] .blank := by decide +kernel
  obtain ⟨moment, comes, coherent, glimpsed, whole⟩ := read_amid_reports waiting_coherent asked
  exact ⟨moment, comes, coherent, glimpsed, whole (by decide)⟩

-- The report is valid and of the node to which the view is bound; its drawing is found whole, or only begun.
theorem read_apart : firstReport.isValid = true ∧
    (∃ frame, Finds [.receive firstReport, .draw, .draw, .draw] [] frame ∧ ¬(unstated frame).Whole) ∧
    ∃ frame, Finds [.receive firstReport, .draw] [.draw, .draw] frame ∧ ¬(unstated frame).Whole := by
  have whole : Finds [.receive firstReport, .draw, .draw, .draw] [] (waiting.receive firstReport).1.frame := by
    decide +kernel
  have begun : Finds [.receive firstReport, .draw] [.draw, .draw]
      (waiting.frame.draw (.gradient (.ofUsage .critical (Double.ofNat 50)))) := by
    decide +kernel
  refine ⟨by decide +kernel, ⟨_, whole, unstated_whole ?_⟩, _, begun, unstated_whole ?_⟩
  · decide +kernel
  · decide +kernel

end DiskGauge
