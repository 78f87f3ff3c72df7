import DiskGauge.Proofs.Station.Hosting

namespace DiskGauge

variable {α : Type} {name : String}

theorem Keyed.insert_again {value : α} {list : List (String × α)} :
    insert name value (insert name value list) = insert name value list := by
  induction list with
  | nil => simp [insert]
  | cons head rest ih =>
    obtain ⟨other, old⟩ := head
    by_cases equal : name = other
    · simp [insert, equal]
    · by_cases less : name < other
      · simp [insert, equal, less]
      · simp [insert, equal, less, ih]

theorem Gauge.applyThresholds_again (g : Gauge) (thresholds : Thresholds) :
    ((g.applyThresholds thresholds).1.applyThresholds thresholds).1 = (g.applyThresholds thresholds).1 := by
  obtain ⟨old, slots, last, state, frame⟩ := g
  cases last <;> rfl

namespace Station

variable {s next : Station} {slot : Slot} {node : Option String} {now later : String} {view : View}
  {act : Gauge → Gauge × List Stroke}

theorem views_setView : (s.setView name view).views = Keyed.insert name view s.views := rfl

theorem ensureView_again (same : next.views = (s.ensureView now name).2.views) :
    next.ensureView later name = (false, next) := by
  obtain ⟨picture, read⟩ := s.readView_ensureView now name
  obtain ⟨view, there, _⟩ := Option.map_eq_some_iff.mp read
  have found : next.view? name = some view := by
    rw [← there, view?, view?, same]
  unfold ensureView
  rw [found]

theorem removeView_again (same : next.views = (s.removeView name).2.views) :
    next.removeView name = (false, next) := by
  have gone : next.view? name = none := by
    rw [view?, same]
    unfold removeView
    cases missing : s.view? name with
    | none => exact missing
    | some view =>
      have left := (SameBoard.release (s := { s with views := Keyed.drop name s.views }) (b := view.binding)).views
      rw [left]
      exact Keyed.lookup_drop_self
  unfold removeView
  rw [gone]

-- Once a slot is bound to a node, so says its handle.
theorem bind_handle (s : Station) (b : Binding) (slot : Slot) (node : Option String) :
    ((s.bind b slot node).1.handle? slot).map (·.node) = node := by
  unfold bind
  split
  · next same => exact same
  · cases node with
    | none => simp
    | some node =>
      simp only [Binding.handle?_setHandle_self]
      rfl

-- What is answered is the view as it stands afterwards.
theorem bindView_reads (s : Station) (name : String) (slot : Slot) (node : Option String) :
    (s.bindView name slot node).1 = (s.bindView name slot node).2.1.readView name := by
  unfold bindView
  cases missing : s.view? name with
  | none => simp [readView, missing]
  | some view =>
    dsimp only
    rw [readView, view?_setView_self]
    rfl

theorem bindView_again (same : next.views = (s.bindView name slot node).2.1.views) :
    next.bindView name slot node = (next.readView name, next, []) := by
  unfold bindView at same
  cases found : s.view? name with
  | none =>
    rw [found] at same
    have missing : next.view? name = none := by
      rw [← found, view?, view?, same]
    simp [bindView, readView, missing]
  | some view =>
    rw [found] at same
    dsimp only at same
    have bound := s.bind_handle view.binding slot node
    generalize s.bind view.binding slot node = outcome at same bound
    obtain ⟨binding, left, entries⟩ := outcome
    dsimp only at same bound
    have there : next.view? name = some { view with binding } := by
      rw [view?, same]
      exact Keyed.lookup_insert_self
    have kept : next.setView name { view with binding } = next := by
      unfold setView
      rw [same, views_setView, Keyed.insert_again, ← views_setView, ← same]
    have idle : next.bind binding slot node = (binding, next, []) := if_pos bound
    unfold bindView
    rw [there]
    dsimp only
    rw [idle]
    dsimp only
    rw [kept, readView, there]
    rfl

-- Gauges that an action leaves as they are, stay.
theorem touchAll_idle {keys : List Nat}
    (idle : ∀ key ∈ keys, ∀ g, s.gauge? key = some g → (act g).1 = g) : (touchAll act keys s).1 = s := by
  induction keys with
  | nil => rfl
  | cons key rest ih =>
    have still : (s.touch key act).1 = s := by
      cases found : s.fixture? key with
      | none => rw [touch_missing found]
      | some fixture =>
        have same := idle key (List.mem_cons_self ..) fixture.gauge (by simp [gauge?, found])
        rw [touch_found found, same, Keyed.put_same found]
    unfold touchAll
    dsimp only
    rw [still]
    exact ih fun other member => idle other (List.mem_cons_of_mem _ member)

theorem touchAll_again (again : ∀ g, (act (act g).1).1 = (act g).1) (keys : List Nat) (s : Station) :
    (touchAll act keys (touchAll act keys s).1).1 = (touchAll act keys s).1 := by
  apply touchAll_idle
  intro key member g found
  rw [gauge?_touchAll] at found
  obtain ⟨first, _, rfl⟩ := Option.map_eq_some_iff.mp found
  obtain ⟨fewer, count⟩ := Nat.exists_eq_add_one.mpr (List.count_pos_iff.mpr member)
  rw [count, Function.iterate_succ_apply']
  exact again _

theorem withThresholds_same {thresholds : Thresholds} (same : s.thresholds = thresholds) :
    { s with thresholds } = s := by
  subst same
  rfl

theorem applyThresholds_again (s : Station) (thresholds : Thresholds) :
    ((s.applyThresholds thresholds).1.applyThresholds thresholds).1 = (s.applyThresholds thresholds).1 := by
  have board : SameBoard { s with thresholds } (s.applyThresholds thresholds).1 := SameBoard.touchAll
  have views : (s.applyThresholds thresholds).1.views = s.views := board.views
  have own := withThresholds_same board.thresholds
  rw [applyThresholds, own, views]
  exact touchAll_again (fun g => g.applyThresholds_again thresholds) _ _

end Station

end DiskGauge
