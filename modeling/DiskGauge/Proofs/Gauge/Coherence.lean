import DiskGauge.Gauge.Core
import Mathlib.Logic.Function.Iterate

namespace DiskGauge.Gauge

def frameFor (s : Snapshot) (reading : Reading) (visible : Bool) : Frame :=
  let gradient := Gradient.ofUsage reading.tier s.percent
  ⟨some gradient, some gradient.css, some reading.freeLabel, visible⟩

def stateFor : Option Snapshot → Thresholds → Slots → Option GaugeState
  | none, _, _ => none
  | some s, t, slots => some ⟨s.node, slots.shows s.node, .ofSnapshot s t⟩

def pictureFor : Option Snapshot → Thresholds → Slots → Frame
  | none, _, _ => .blank
  | some s, t, slots => frameFor s (.ofSnapshot s t) (slots.shows s.node)

structure Coherent (g : Gauge) : Prop where
  valid : ∀ s, g.last = some s → s.validate = .ok ()
  state : g.state = stateFor g.last g.thresholds g.slots
  frame : g.frame = pictureFor g.last g.thresholds g.slots

theorem new_coherent (thresholds : Thresholds) : (new thresholds).Coherent :=
  ⟨by simp [new], rfl, rfl⟩

variable {g : Gauge} {s : Snapshot} {slot : Slot} {node : Option String} {thresholds : Thresholds}

theorem isValid_iff : s.isValid = true ↔ s.validate = .ok () := by
  unfold Snapshot.isValid
  split
  · next checked => simp [checked]
  · next checked => simp [checked]

-- A full drawing leaves nothing of what was on the surface before.
theorem drawAll_strokes (frame : Frame) (reading : Reading) (visible : Bool) :
    frame.drawAll (strokes s reading visible) = frameFor s reading visible := rfl

@[simp] theorem render_last : g.render.1.last = g.last := by
  unfold render
  split <;> rfl

@[simp] theorem render_thresholds : g.render.1.thresholds = g.thresholds := by
  unfold render
  split <;> rfl

@[simp] theorem render_slots : g.render.1.slots = g.slots := by
  unfold render
  split <;> rfl

theorem render_frame : g.render.1.frame = g.frame.drawAll g.render.2 := by
  unfold render
  split <;> rfl

-- Before the first snapshot there is nothing to draw, and what is there has to be right already.
theorem render_coherent (valid : ∀ s, g.last = some s → s.validate = .ok ())
    (untouched : g.last = none → g.state = none ∧ g.frame = .blank) : g.render.1.Coherent := by
  cases last : g.last with
  | none =>
    obtain ⟨state, frame⟩ := untouched last
    have same : g.render = (g, []) := by simp [render, last]
    rw [same]
    exact ⟨valid, by rw [state, last]; rfl, by rw [frame, last]; rfl⟩
  | some s => exact ⟨by simpa using valid, by simp [render, last, stateFor],
      by simp [render, last, pictureFor, drawAll_strokes]⟩

theorem Coherent.untouched (coherent : g.Coherent) (last : g.last = none) :
    g.state = none ∧ g.frame = .blank :=
  ⟨by rw [coherent.state, last]; rfl, by rw [coherent.frame, last]; rfl⟩

theorem receive_invalid (invalid : s.validate ≠ .ok ()) : g.receive s = (g, []) := by
  have refused : ¬s.isValid = true := fun checked => invalid (isValid_iff.mp checked)
  simp [receive, refused]

theorem receive_valid (valid : s.validate = .ok ()) :
    g.receive s = { g with last := some s }.render := by
  simp [receive, isValid_iff.mpr valid]

@[simp] theorem receive_slots : (g.receive s).1.slots = g.slots := by
  by_cases valid : s.validate = .ok ()
  · rw [receive_valid valid, render_slots]
  · rw [receive_invalid valid]

@[simp] theorem receive_thresholds : (g.receive s).1.thresholds = g.thresholds := by
  by_cases valid : s.validate = .ok ()
  · rw [receive_valid valid, render_thresholds]
  · rw [receive_invalid valid]

theorem receive_last (valid : s.validate = .ok ()) : (g.receive s).1.last = some s := by
  rw [receive_valid valid, render_last]

theorem receive_often (valid : s.validate = .ok ()) (times : Nat) :
    ((fun g => (g.receive s).1)^[times] g).thresholds = g.thresholds ∧
    ((fun g => (g.receive s).1)^[times] g).slots = g.slots ∧
    ((fun g => (g.receive s).1)^[times] g).last = if times = 0 then g.last else some s := by
  induction times with
  | zero => exact ⟨rfl, rfl, rfl⟩
  | succ times ih =>
    obtain ⟨thresholds, slots, _⟩ := ih
    rw [Function.iterate_succ_apply']
    exact ⟨receive_thresholds.trans thresholds, receive_slots.trans slots, receive_last valid⟩

@[simp] theorem setSlot_last : (g.setSlot slot node).1.last = g.last := by
  unfold setSlot refreshVisibility
  split
  · rfl
  · dsimp only
    split <;> rfl

@[simp] theorem setSlot_thresholds : (g.setSlot slot node).1.thresholds = g.thresholds := by
  unfold setSlot refreshVisibility
  split
  · rfl
  · dsimp only
    split <;> rfl

@[simp] theorem setSlot_slots : (g.setSlot slot node).1.slots = g.slots.put slot node := by
  unfold setSlot refreshVisibility
  split
  · rfl
  · dsimp only
    split <;> rfl

-- Hiding or showing a drawing is all that other slots ask for.
theorem setSlot_coherent (coherent : g.Coherent) : (g.setSlot slot node).1.Coherent := by
  cases last : g.last with
  | none =>
    obtain ⟨state, frame⟩ := coherent.untouched last
    have same : g.setSlot slot node = ({ g with slots := g.slots.put slot node }, []) := by
      simp [setSlot, refreshVisibility, state]
    rw [same]
    exact ⟨coherent.valid, by simp [state, last, stateFor], by simp [frame, last, pictureFor]⟩
  | some s =>
    have state := coherent.state
    have frame := coherent.frame
    simp only [last, stateFor, pictureFor] at state frame
    by_cases same : g.slots.shows s.node = (g.slots.put slot node).shows s.node
    · have kept : g.setSlot slot node = ({ g with slots := g.slots.put slot node }, []) := by
        simp [setSlot, refreshVisibility, state, same]
      rw [kept]
      exact ⟨coherent.valid, by simp [state, last, stateFor, same],
        by simp [frame, last, pictureFor, same]⟩
    · refine ⟨by simpa using coherent.valid, ?_, ?_⟩
      · simp [setSlot, refreshVisibility, state, same, last, stateFor]
      · simp [setSlot, refreshVisibility, state, same, last, pictureFor, frame, frameFor,
          Frame.drawAll, Frame.draw]

structure Faithful (act : Gauge → Gauge × List Stroke) : Prop where
  coherent : ∀ g, g.Coherent → (act g).1.Coherent
  frame : ∀ g, (act g).1.frame = g.frame.drawAll (act g).2
  silent : ∀ g, g.Coherent → (act g).1.last = none → g.last = none ∧ (act g).2 = []

theorem receive_faithful (s : Snapshot) : Faithful (·.receive s) where
  coherent := by
    intro g coherent
    by_cases valid : s.validate = .ok ()
    · rw [receive_valid valid]
      exact render_coherent (by simpa using valid) (by simp)
    · rw [receive_invalid valid]
      exact coherent
  frame := by
    intro g
    by_cases valid : s.validate = .ok ()
    · rw [receive_valid valid]
      exact render_frame
    · rw [receive_invalid valid]
      rfl
  silent := by
    intro g _ last
    by_cases valid : s.validate = .ok ()
    · simp [receive_valid valid] at last
    · rw [receive_invalid valid] at last ⊢
      exact ⟨last, rfl⟩

theorem setSlot_faithful (slot : Slot) (node : Option String) : Faithful (·.setSlot slot node) where
  coherent := fun g => setSlot_coherent
  frame := by
    intro g
    unfold setSlot refreshVisibility
    split
    · rfl
    · dsimp only
      split <;> rfl
  silent := by
    intro g coherent last
    rw [setSlot_last] at last
    obtain ⟨state, _⟩ := coherent.untouched last
    exact ⟨last, by simp [setSlot, refreshVisibility, state]⟩

theorem applyThresholds_faithful (thresholds : Thresholds) :
    Faithful (·.applyThresholds thresholds) where
  coherent := fun g coherent => render_coherent coherent.valid coherent.untouched
  frame := fun g => render_frame
  silent := by
    intro g _ last
    have before : g.last = none := by simpa [applyThresholds] using last
    exact ⟨before, by simp [applyThresholds, render, before]⟩

end DiskGauge.Gauge
