import DiskGauge.Proofs.Station.Wiring

namespace DiskGauge

def Renderer.binding? : Renderer → Option Binding
  | .live b => some b
  | .gone _ => none

namespace Station

def bindings (s : Station) : List Binding :=
  s.renderers.filterMap (·.2.binding?) ++ s.views.map (·.2.binding)

-- What gauges and feeds do leaves the renderers, the views and the board's thresholds alone.
structure SameBoard (s s' : Station) : Prop where
  renderers : s'.renderers = s.renderers
  views : s'.views = s.views
  thresholds : s'.thresholds = s.thresholds

structure Sound (s : Station) (issued held : List (FeedName × Handle)) : Prop where
  wired : s.Wired s.bindings issued held
  ordered : Keyed.Ascending s.views

theorem start_sound (thresholds : Thresholds) : (start thresholds).Sound [] [] := by
  have feeds : ∀ feed, (start thresholds).feed feed = .empty := by
    intro feed
    cases feed <;> rfl
  have empty : (start thresholds).bindings = [] := rfl
  have unregistered : ∀ feed h c, ¬(start thresholds).Registered feed h c := by
    intro feed h c
    simp [Registered, feeds]
  refine ⟨⟨⟨?_, List.nodup_nil, ?_, ?_, ?_, List.nodup_nil, ?_⟩, ?_⟩, List.Pairwise.nil⟩
  · intro feed
    rw [feeds]
    exact .empty
  all_goals simp [empty, unregistered]

variable {s s' : Station} {name : String} {b : Binding} {slot : Slot} {node : Option String}
  {issued held : List (FeedName × Handle)} {thresholds : Thresholds}

namespace SameBoard

theorem refl : SameBoard s s := ⟨rfl, rfl, rfl⟩

theorem trans {s'' : Station} (first : SameBoard s s') (second : SameBoard s' s'') : SameBoard s s'' :=
  ⟨second.renderers.trans first.renderers, second.views.trans first.views,
    second.thresholds.trans first.thresholds⟩

theorem setFeed {feed : FeedName} {f : Feed Callback} : SameBoard s (s.setFeed feed f) := by
  cases feed <;> exact ⟨rfl, rfl, rfl⟩

theorem unsubscribe? {feed : FeedName} {handle : Option Handle} :
    SameBoard s (s.unsubscribe? feed handle) := by
  cases handle with
  | none => exact refl
  | some => exact setFeed

theorem touch (key : Nat) (act : Gauge → Gauge × List Stroke) : SameBoard s (s.touch key act).1 := by
  unfold Station.touch
  split <;> exact ⟨rfl, rfl, rfl⟩

theorem bind : SameBoard s (s.bind b slot node).2.1 := by
  unfold Station.bind
  split
  · exact refl
  · have gone : SameBoard s (s.unsubscribe? b.feed (b.handle? slot)) := unsubscribe?
    have told := gone.trans (touch b.key (·.setSlot slot node))
    cases node with
    | none => exact told
    | some node => exact told.trans setFeed

theorem release : SameBoard s (s.release b) := by
  have current : SameBoard s (s.unsubscribe? b.feed b.current) := unsubscribe?
  have gone : SameBoard s ((s.unsubscribe? b.feed b.current).unsubscribe? b.feed b.selected) :=
    current.trans unsubscribe?
  exact ⟨gone.renderers, gone.views, gone.thresholds⟩

theorem touchAll {act : Gauge → Gauge × List Stroke} {keys : List Nat} :
    SameBoard s (touchAll act keys s).1 := by
  induction keys generalizing s with
  | nil => exact refl
  | cons key rest ih => exact (touch key act).trans ih

theorem bindings (same : SameBoard s s') : s'.bindings = s.bindings := by
  rw [Station.bindings, Station.bindings, same.renderers, same.views]

end SameBoard

-- The binding of a renderer beside all others, also after the renderer was replaced.
theorem split_renderer (s : Station) (name : String) : ∃ rest,
    s.bindings.Perm ((s.liveRenderer? name).toList ++ rest) ∧
    ∀ s', SameBoard s s' → ∀ renderer : Renderer,
      (s'.setRenderer name renderer).bindings.Perm (renderer.binding?.toList ++ rest) := by
  have parts : ∃ rest, (s.renderers.filterMap (·.2.binding?)).Perm ((s.liveRenderer? name).toList ++ rest) ∧
      ∀ renderer : Renderer, ((Keyed.put name renderer s.renderers).filterMap (·.2.binding?)).Perm
        (renderer.binding?.toList ++ rest) := by
    cases found : s.renderers.lookup name with
    | none =>
      refine ⟨s.renderers.filterMap (·.2.binding?), by simp [liveRenderer?, found], ?_⟩
      intro renderer
      rw [Keyed.put_absent (Keyed.absent_of_lookup found), List.filterMap_append]
      refine List.perm_append_comm.trans ?_
      cases renderer <;> simp [Renderer.binding?]
    | some old =>
      obtain ⟨front, back, split, absent⟩ := Keyed.split_of_lookup found
      refine ⟨front.filterMap (·.2.binding?) ++ back.filterMap (·.2.binding?), ?_, ?_⟩
      · rw [split, List.filterMap_append]
        cases old <;> simp [liveRenderer?, found, Renderer.binding?, List.perm_middle]
      · intro renderer
        rw [split, Keyed.put_split absent, List.filterMap_append]
        cases renderer <;> simp [Renderer.binding?, List.perm_middle]
  obtain ⟨rest, here, there⟩ := parts
  refine ⟨rest ++ s.views.map (·.2.binding), ?_, ?_⟩
  · rw [← List.append_assoc]
    exact here.append_right _
  · intro s' same renderer
    rw [← List.append_assoc, bindings, setRenderer, same.renderers, same.views]
    exact (there renderer).append_right _

-- The same for a view, and after it was removed.
theorem split_view (ordered : Keyed.Ascending s.views) (name : String) : ∃ rest,
    s.bindings.Perm (((s.view? name).map (·.binding)).toList ++ rest) ∧
    (∀ s', SameBoard s s' → ∀ view, (s'.setView name view).bindings.Perm (view.binding :: rest)) ∧
    { s with views := Keyed.drop name s.views }.bindings.Perm rest := by
  have parts : ∃ rest, (s.views.map (·.2.binding)).Perm (((s.view? name).map (·.binding)).toList ++ rest) ∧
      (∀ view : View, ((Keyed.insert name view s.views).map (·.2.binding)).Perm (view.binding :: rest)) ∧
      ((Keyed.drop name s.views).map (·.2.binding)).Perm rest := by
    cases found : s.views.lookup name with
    | none =>
      have absent := Keyed.absent_of_lookup found
      refine ⟨s.views.map (·.2.binding), by simp [view?, found], ?_, ?_⟩
      · intro view
        exact (Keyed.insert_absent absent).map _
      · rw [Keyed.drop_absent absent]
    | some old =>
      obtain ⟨front, back, split, _⟩ := Keyed.split_of_lookup found
      have distinct := ordered.distinct
      rw [split] at ordered distinct
      refine ⟨front.map (·.2.binding) ++ back.map (·.2.binding), ?_, ?_, ?_⟩
      · rw [split]
        simp [view?, found, List.perm_middle]
      · intro view
        rw [split, Keyed.insert_split ordered]
        simp [List.perm_middle]
      · rw [split, Keyed.drop_split distinct, List.map_append]
  obtain ⟨rest, here, set, dropped⟩ := parts
  refine ⟨s.renderers.filterMap (·.2.binding?) ++ rest, ?_, ?_, ?_⟩
  · exact (here.append_left _).trans (by simp [← List.append_assoc, List.perm_append_comm.append_right])
  · intro s' same view
    rw [bindings, setView, same.renderers, same.views]
    exact ((set view).append_left _).trans List.perm_middle
  · exact dropped.append_left _

namespace Sound

theorem mapHealth (sound : s.Sound issued held) (f : Health → Health) :
    (s.mapHealth f).Sound issued held :=
  ⟨sound.wired.aside rfl rfl rfl rfl, sound.ordered⟩

theorem touch (sound : s.Sound issued held) {key : Nat} {act : Gauge → Gauge × List Stroke}
    (kept : ∀ g, (act g).1.slots = g.slots) : (s.touch key act).1.Sound issued held := by
  have same : SameBoard s (s.touch key act).1 := .touch key act
  exact ⟨same.bindings ▸ sound.wired.touch kept, same.views ▸ sound.ordered⟩

theorem subscribe (sound : s.Sound issued held) {feed : FeedName} {place : String} {client : Client} :
    (s.subscribe feed place (.client client)).2.Sound
      ((feed, (s.subscribe feed place (.client client)).1) :: issued)
      ((feed, (s.subscribe feed place (.client client)).1) :: held) := by
  have same : SameBoard s (s.subscribe feed place (.client client)).2 := .setFeed
  exact ⟨same.bindings ▸ sound.wired.subscribe, same.views ▸ sound.ordered⟩

theorem unsubscribe (sound : s.Sound issued held) {feed : FeedName} {h : Handle}
    (mine : (feed, h) ∈ issued) :
    (s.unsubscribe feed h).2.Sound issued (held.filter (· ≠ (feed, h))) := by
  have same : SameBoard s (s.unsubscribe feed h).2 := .setFeed
  exact ⟨same.bindings ▸ sound.wired.unsubscribe mine, same.views ▸ sound.ordered⟩

theorem newRenderer (sound : s.Sound issued held) (feed : FeedName) (name : String)
    (thresholds : Thresholds) : (s.newRenderer feed name thresholds).2.Sound issued held := by
  obtain ⟨rest, here, there⟩ := s.split_renderer name
  have grown := sound.wired.newGauge feed (some name) thresholds
  unfold Station.newRenderer
  cases live : s.liveRenderer? name with
  | none =>
    rw [live] at here
    refine ⟨.perm ?_ (there _ ⟨rfl, rfl, rfl⟩ _).symm, sound.ordered⟩
    exact (grown.perm (here.cons _)).aside rfl rfl rfl rfl
  | some b =>
    rw [live] at here
    have both := (grown.perm (here.cons _)).perm (.swap _ _ _)
    have added : SameBoard s (s.newGauge (some name) thresholds).2 := ⟨rfl, rfl, rfl⟩
    have same : SameBoard s ((s.newGauge (some name) thresholds).2.release b) := added.trans .release
    refine ⟨.perm ?_ (there _ same _).symm, same.views ▸ sound.ordered⟩
    exact both.release.aside rfl rfl rfl rfl

theorem dispose (sound : s.Sound issued held) (name : String) : (s.dispose name).2.Sound issued held := by
  obtain ⟨rest, here, there⟩ := s.split_renderer name
  unfold Station.dispose
  cases live : s.liveRenderer? name with
  | none => exact sound
  | some b =>
    rw [live] at here
    have released := (sound.wired.perm here).release
    have same : SameBoard s (s.release b) := .release
    refine ⟨.perm ?_ (there _ same _).symm, same.views ▸ sound.ordered⟩
    exact released.aside rfl rfl rfl rfl

theorem bindRenderer (sound : s.Sound issued held) (name : String) (slot : Slot)
    (node : Option String) : (s.bindRenderer name slot node).2.1.Sound issued held := by
  obtain ⟨rest, here, there⟩ := s.split_renderer name
  unfold Station.bindRenderer
  cases live : s.liveRenderer? name with
  | none => exact sound
  | some b =>
    rw [live] at here
    have bound := (sound.wired.perm here).bind slot node
    have same : SameBoard s (s.bind b slot node).2.1 := .bind
    refine ⟨.perm ?_ (there _ same _).symm, same.views ▸ sound.ordered⟩
    exact bound.aside rfl rfl rfl rfl

theorem setRendererThresholds (sound : s.Sound issued held) (name : String) (thresholds : Thresholds) :
    (s.setRendererThresholds name thresholds).2.1.Sound issued held := by
  unfold Station.setRendererThresholds
  split
  · exact sound
  · exact sound.touch fun g => Gauge.render_slots

theorem ensureView (sound : s.Sound issued held) (now name : String) :
    (s.ensureView now name).2.Sound issued held := by
  obtain ⟨rest, here, there, _⟩ := split_view sound.ordered name
  unfold Station.ensureView
  cases found : s.view? name with
  | some view => exact sound
  | none =>
    rw [found] at here
    have grown := (sound.wired.newGauge .main none s.thresholds).perm (here.cons _)
    refine ⟨.perm ?_ (there _ ⟨rfl, rfl, rfl⟩ _).symm, sound.ordered.insert⟩
    exact grown.aside rfl rfl rfl rfl

theorem removeView (sound : s.Sound issued held) (name : String) :
    (s.removeView name).2.Sound issued held := by
  obtain ⟨rest, here, _, without⟩ := split_view sound.ordered name
  unfold Station.removeView
  cases found : s.view? name with
  | none => exact sound
  | some view =>
    rw [found] at here
    let taken : Station := { s with views := Keyed.drop name s.views }
    have wired : taken.Wired (view.binding :: rest) issued held :=
      (sound.wired.perm here).aside rfl rfl rfl rfl
    have same : SameBoard taken (taken.release view.binding) := .release
    refine ⟨wired.release.perm ?_, ?_⟩
    · exact same.bindings ▸ without.symm
    · exact same.views ▸ sound.ordered.drop

theorem bindView (sound : s.Sound issued held) (name : String) (slot : Slot) (node : Option String) :
    (s.bindView name slot node).2.1.Sound issued held := by
  obtain ⟨rest, here, there, _⟩ := split_view sound.ordered name
  unfold Station.bindView
  cases found : s.view? name with
  | none => exact sound
  | some view =>
    rw [found] at here
    have bound := (sound.wired.perm here).bind slot node
    have same : SameBoard s (s.bind view.binding slot node).2.1 := .bind
    refine ⟨.perm ?_ (there _ same _).symm, (same.views ▸ sound.ordered).insert⟩
    exact bound.aside rfl rfl rfl rfl

theorem touchAll (sound : s.Sound issued held) (act : Gauge → Gauge × List Stroke)
    (kept : ∀ g, (act g).1.slots = g.slots) (keys : List Nat) :
    (touchAll act keys s).1.Sound issued held := by
  induction keys generalizing s with
  | nil => exact sound
  | cons key rest ih => exact ih (sound.touch kept)

theorem applyThresholds (sound : s.Sound issued held) (thresholds : Thresholds) :
    (s.applyThresholds thresholds).1.Sound issued held := by
  have noted : { s with thresholds }.Sound issued held :=
    ⟨sound.wired.aside rfl rfl rfl rfl, sound.ordered⟩
  exact noted.touchAll (·.applyThresholds thresholds) (fun g => Gauge.render_slots) _

end Sound

end Station

end DiskGauge
