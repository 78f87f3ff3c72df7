import DiskGauge.Proofs.Station.Moves

namespace DiskGauge

namespace Session

-- A session that was used in any way, with what its observers saw.
inductive Reached (thresholds : Thresholds) (now : String) : Session → List Event → Prop where
  | start : Reached thresholds now (.start thresholds now) []
  | step {s events} (bodies : Nat) (step : Step) : Reached thresholds now s events →
      Reached thresholds now (s.step bodies step).2.1 (events ++ (s.step bodies step).2.2)
  -- Runs may also stop, and go on otherwise, wherever a delivery has called a callback.
  | move {s events} (move : Move) : Reached thresholds now s events →
      Reached thresholds now (s.move move).1 (events ++ (s.move move).2)

variable {thresholds : Thresholds} {now : String} {s : Session} {events : List Event} {key : Nat}
  {g : Gauge}

theorem any_hereditary : Hereditary fun _ => True := ⟨fun _ _ _ => trivial, trivial, trivial⟩

theorem any_obeys (station : Station) : station.Obeys fun _ => True := by
  intro feed node r _
  cases r.callback with
  | gauge => trivial
  | client => exact fun _ _ => trivial

theorem any_move_obeys (m : Move) : m.Obeys fun _ => True := by cases m <;> trivial

theorem reached_drawn (reached : Reached thresholds now s events) :
    s.station.Drawn (entriesOf events) := by
  induction reached with
  | start => exact Station.start_drawn thresholds
  | @step s events bodies step _ ih =>
    obtain ⟨ms, obey, equal⟩ := step_made any_hereditary bodies step trivial (any_obeys s.station)
    rw [← equal, entriesOf_append]
    exact Station.evolves_drawn ih (moves_evolves any_hereditary ms obey)
  | move m _ ih =>
    rw [entriesOf_append]
    exact Station.evolves_drawn ih (move_evolves any_hereditary m (any_move_obeys m))

structure Rendered (g : Gauge) (calls : List Stroke) : Prop where
  untouched : g.last = none → g.state = none ∧ g.frame = .blank ∧ calls = []
  valid : ∀ s, g.last = some s → s.validate = .ok ()
  state : ∀ s, g.last = some s →
    g.state = some ⟨s.node, g.slots.shows s.node, .ofSnapshot s g.thresholds⟩
  frame : ∀ s, g.last = some s →
    let gradient := Gradient.ofUsage (g.thresholds.tier s.freeBytes) s.percent
    g.frame = ⟨some gradient, some gradient.css, some (Reading.ofSnapshot s g.thresholds).freeLabel,
      g.slots.shows s.node⟩
  shown : g.frame = Frame.blank.drawAll calls

theorem reached_rendered (reached : Reached thresholds now s events)
    (found : s.station.gauge? key = some g) : Rendered g (strokesOn key (entriesOf events)) := by
  obtain ⟨fixture, present, rfl⟩ := Option.map_eq_some_iff.mp found
  have drawn := reached_drawn reached
  have coherent := drawn.coherent key fixture present
  constructor
  case untouched =>
    intro last
    obtain ⟨state, frame⟩ := coherent.untouched last
    exact ⟨state, frame, drawn.silent key fixture present last⟩
  case valid => exact coherent.valid
  case state =>
    intro s last
    rw [coherent.state, last]
    rfl
  case frame =>
    intro s last
    rw [coherent.frame, last]
    rfl
  case shown => exact drawn.frame key fixture present

def run (bodies : Nat) : List Step → Session → Session × List Event
  | [], s => (s, [])
  | step :: rest, s =>
    let (_, s, events) := s.step bodies step
    let (s, later) := run bodies rest s
    (s, events ++ later)

theorem Reached.run (bodies : Nat) (steps : List Step) (reached : Reached thresholds now s events) :
    Reached thresholds now (run bodies steps s).1 (events ++ (run bodies steps s).2) := by
  induction steps generalizing s events with
  | nil => simpa [Session.run] using reached
  | cons step rest ih => simpa [Session.run] using ih (reached.step bodies step)

theorem run_reached (bodies : Nat) (steps : List Step) :
    Reached thresholds now (run bodies steps (.start thresholds now)).1
      (run bodies steps (.start thresholds now)).2 := by
  simpa only [List.nil_append] using Reached.run bodies steps .start

-- A client switches the gauge to another node while a snapshot for the old one is on its way.
def switching : List Step :=
  [.subscribe .main "first" "a" .returns [.bindRenderer "bar" .current (some "b")] 1,
    .newRenderer .main "bar" ⟨10, 5⟩, .bindRenderer "bar" .current (some "a"),
    .publish .main ⟨"a", .zero, 7⟩]

theorem rendered_after_switch :
    Rendered ⟨⟨10, 5⟩, ⟨some "b", none⟩, some ⟨"a", .zero, 7⟩,
        some ⟨"a", false, ⟨.warning, "0%", "7 B Free"⟩⟩,
        ⟨some ⟨"warning", "info", .zero⟩, some "linear-gradient(90deg, warning 0%, info 0%)",
          some "7 B Free", false⟩⟩
      (strokesOn 1 (entriesOf (run 1 switching (.start ⟨10, 5⟩ "noon")).2)) :=
  reached_rendered (run_reached 1 switching) (by decide +kernel)

end Session

end DiskGauge
