import DiskGauge.Proofs.Station.Hosting
import DiskGauge.Proofs.Station.Settling

namespace DiskGauge

-- What a surface shows after all that was called on it.
def surface (key : Nat) (log : List Entry) : Frame := Frame.blank.drawAll (strokesOn key log)

namespace Station

structure Gone (s : Station) (key : Nat) : Prop where
  given : key ≤ s.lastGauge
  missing : s.fixture? key = none

-- The gauges of all bindings were given out at some time.
def Known (s : Station) : Prop := ∀ b ∈ s.bindings, b.key ≤ s.lastGauge

variable {s s' : Station} {key : Nat} {entries : List Entry} {name : String} {b : Binding}
  {renderer : Renderer} {view : View}

theorem touch_gone (gone : s.Gone key) (other : Nat) (act : Gauge → Gauge × List Stroke) :
    (s.touch other act).1.Gone key ∧ strokesOn key (s.touch other act).2 = [] := by
  by_cases equal : key = other
  · subst other
    rw [touch_missing gone.missing]
    exact ⟨gone, rfl⟩
  · refine ⟨⟨?_, ?_⟩, ?_⟩
    · rw [lastGauge_touch]
      exact gone.given
    · rw [fixture?_touch_other equal]
      exact gone.missing
    · cases found : s.fixture? other with
      | none =>
        rw [touch_missing found]
        rfl
      | some fixture =>
        rw [touch_found found]
        exact strokesOn_other equal fixture.name _

theorem evolves_gone {kind : Client → Prop} (gone : s.Gone key) (evolves : Evolves kind s s' entries) :
    s'.Gone key ∧ strokesOn key entries = [] := by
  have unchanged : ∀ {s s' : Station}, s.Gone key → s'.gauges = s.gauges → s'.lastGauge = s.lastGauge → s'.Gone key := by
    intro s s' gone gauges lastGauge
    refine ⟨?_, ?_⟩
    · rw [lastGauge]
      exact gone.given
    · rw [fixture?, gauges]
      exact gone.missing
  induction evolves with
  | same gauges lastGauge _ quiet => exact ⟨unchanged gone gauges lastGauge, quiet key⟩
  | touch other faithful => exact touch_gone gone other _
  | @grow s name thresholds =>
    have older : key ≠ s.lastGauge + 1 := Nat.ne_of_lt (Nat.lt_succ_of_le gone.given)
    refine ⟨⟨Nat.le_succ_of_le gone.given, ?_⟩, rfl⟩
    rw [newGauge, fixture?, Keyed.lookup_put_other older]
    exact gone.missing
  | @drop s other =>
    refine ⟨⟨gone.given, ?_⟩, rfl⟩
    by_cases equal : key = other
    · subst other
      exact Keyed.lookup_drop_self
    · exact (Keyed.lookup_drop_other equal).trans gone.missing
  | listen => exact ⟨unchanged gone gauges_setFeed lastGauge_setFeed, rfl⟩
  | register => exact ⟨unchanged gone gauges_setFeed lastGauge_setFeed, rfl⟩
  | unsubscribe => exact ⟨unchanged gone gauges_setFeed lastGauge_setFeed, rfl⟩
  | trans _ _ first second =>
    obtain ⟨between, quiet⟩ := first gone
    obtain ⟨after, still⟩ := second between
    refine ⟨after, ?_⟩
    rw [strokesOn_append, quiet, still]
    rfl

theorem evolves_lastGauge (evolves : Evolves (fun _ => True) s s' entries) : s.lastGauge ≤ s'.lastGauge := by
  induction evolves with
  | same _ lastGauge _ _ => exact Nat.le_of_eq lastGauge.symm
  | touch => exact Nat.le_of_eq lastGauge_touch.symm
  | grow => exact Nat.le_succ _
  | drop => exact Nat.le_refl _
  | listen => exact Nat.le_of_eq lastGauge_setFeed.symm
  | register => exact Nat.le_of_eq lastGauge_setFeed.symm
  | unsubscribe => exact Nat.le_of_eq lastGauge_setFeed.symm
  | trans _ _ first second => exact Nat.le_trans first second

theorem liveRenderer?_mem (live : s.liveRenderer? name = some b) : b ∈ s.bindings := by
  refine List.mem_append_left _ (List.mem_filterMap.mpr ⟨(name, .live b), ?_, rfl⟩)
  unfold liveRenderer? at live
  split at live
  · next found =>
    obtain rfl := Option.some.inj live
    exact Keyed.mem_of_lookup found
  · cases live

namespace Known

theorem keep (known : s.Known) (bindings : ∀ b ∈ s'.bindings, b ∈ s.bindings) (grows : s.lastGauge ≤ s'.lastGauge) :
    s'.Known := fun b member => Nat.le_trans (known b (bindings b member)) grows

theorem board (known : s.Known) (same : SameBoard s s') (evolves : Evolves (fun _ => True) s s' entries) : s'.Known :=
  known.keep (fun _ member => same.bindings ▸ member) (evolves_lastGauge evolves)

theorem setRenderer (known : s.Known) (own : ∀ b, renderer.binding? = some b → b.key ≤ s.lastGauge) :
    (s.setRenderer name renderer).Known := by
  intro b member
  rcases List.mem_append.mp member with mine | viewed
  · obtain ⟨entry, put, live⟩ := List.mem_filterMap.mp mine
    rcases Keyed.mem_put put with rfl | old
    · exact own b live
    · exact known b (List.mem_append_left _ (List.mem_filterMap.mpr ⟨entry, old, live⟩))
  · exact known b (List.mem_append_right _ viewed)

theorem setView (known : s.Known) (own : view.binding.key ≤ s.lastGauge) : (s.setView name view).Known := by
  intro b member
  rcases List.mem_append.mp member with live | mine
  · exact known b (List.mem_append_left _ live)
  · obtain ⟨entry, put, rfl⟩ := List.mem_map.mp mine
    rcases Keyed.mem_insert put with rfl | old
    · exact own
    · exact known _ (List.mem_append_right _ (List.mem_map_of_mem old))

theorem release (known : s.Known) (b : Binding) : (s.release b).Known :=
  known.board .release (release_evolves b)

theorem newRenderer (known : s.Known) (feed : FeedName) (name : String) (thresholds : Thresholds) :
    (s.newRenderer feed name thresholds).2.Known := by
  have grown : (s.newGauge (some name) thresholds).2.Known := known.keep (fun _ member => member) (Nat.le_succ _)
  unfold Station.newRenderer
  cases s.liveRenderer? name with
  | none =>
    refine grown.setRenderer fun b mine => ?_
    obtain rfl := Option.some.inj mine
    exact Nat.le_refl _
  | some old =>
    refine (grown.release old).setRenderer fun b mine => ?_
    obtain rfl := Option.some.inj mine
    exact evolves_lastGauge (s := (s.newGauge (some name) thresholds).2) (release_evolves old)

theorem dispose (known : s.Known) (name : String) : (s.dispose name).2.Known := by
  unfold Station.dispose
  cases s.liveRenderer? name with
  | none => exact known
  | some b => exact (known.release b).setRenderer fun _ mine => nomatch mine

theorem bind (known : s.Known) (b : Binding) (slot : Slot) (node : Option String) : (s.bind b slot node).2.1.Known :=
  known.board .bind (bind_evolves b slot node)

theorem bindRenderer (known : s.Known) (name : String) (slot : Slot) (node : Option String) :
    (s.bindRenderer name slot node).2.1.Known := by
  unfold Station.bindRenderer
  cases live : s.liveRenderer? name with
  | none => exact known
  | some old =>
    refine (known.bind old slot node).setRenderer fun b mine => ?_
    obtain rfl := Option.some.inj mine
    rw [bind_key]
    exact Nat.le_trans (known old (liveRenderer?_mem live))
      (evolves_lastGauge (bind_evolves old slot node))

theorem setRendererThresholds (known : s.Known) (name : String) (thresholds : Thresholds) :
    (s.setRendererThresholds name thresholds).2.1.Known := by
  refine known.board ?_ (setRendererThresholds_evolves name thresholds)
  unfold Station.setRendererThresholds
  cases s.liveRenderer? name with
  | none => exact .refl
  | some b => exact .touch b.key _

theorem ensureView (known : s.Known) (now name : String) : (s.ensureView now name).2.Known := by
  unfold Station.ensureView
  cases s.view? name with
  | some view => exact known
  | none =>
    have grown : (s.newGauge none s.thresholds).2.Known := known.keep (fun _ member => member) (Nat.le_succ _)
    exact grown.setView (Nat.le_refl _)

theorem removeView (known : s.Known) (name : String) : (s.removeView name).2.Known := by
  unfold Station.removeView
  cases s.view? name with
  | none => exact known
  | some view =>
    have taken : { s with views := Keyed.drop name s.views }.Known := by
      refine known.keep (fun b member => ?_) (Nat.le_refl _)
      rcases List.mem_append.mp member with live | viewed
      · exact List.mem_append_left _ live
      · exact List.mem_append_right _ ((List.filter_sublist.map _).subset viewed)
    exact taken.release view.binding

theorem bindView (known : s.Known) (name : String) (slot : Slot) (node : Option String) :
    (s.bindView name slot node).2.1.Known := by
  unfold Station.bindView
  cases found : s.view? name with
  | none => exact known
  | some view =>
    refine (known.bind view.binding slot node).setView ?_
    dsimp only
    rw [bind_key]
    exact Nat.le_trans (known view.binding (view_mem found))
      (evolves_lastGauge (bind_evolves view.binding slot node))

theorem applyThresholds (known : s.Known) (thresholds : Thresholds) : (s.applyThresholds thresholds).1.Known := by
  have noted : { s with thresholds }.Known := known.keep (fun _ member => member) (Nat.le_refl _)
  exact noted.board .touchAll (touchAll_evolves (Gauge.applyThresholds_faithful thresholds) _)

end Known

theorem release_gone (known : b.key ≤ s.lastGauge) : (s.release b).Gone b.key :=
  ⟨Nat.le_trans known (evolves_lastGauge (release_evolves b)), Keyed.lookup_drop_self⟩

end Station

-- The gauge that a step gives up: that of a renderer which is disposed of, of one whose name is taken by a new
-- renderer, or of a view which is removed.
def Step.givesUp? (s : Station) : Step → Option Nat
  | .dispose name => (s.liveRenderer? name).map (·.key)
  | .newRenderer _ name _ => (s.liveRenderer? name).map (·.key)
  | .removeView name => (s.view? name).map (·.binding.key)
  | _ => none

def Callback.turn (depth : Nat) (snapshot : Snapshot) : Callback → Move
  | .gauge key => .receive key snapshot
  | .client c => .call depth c snapshot

namespace Session
variable {thresholds : Thresholds} {now : String} {s : Session} {events : List Event} {key : Nat} {step : Step}

theorem perform_known (known : s.station.Known) (step : Step) : (perform idle step s).2.1.station.Known := by
  have aside : ∀ {station : Station}, station.bindings = s.station.bindings →
      station.lastGauge = s.station.lastGauge → station.Known := by
    intro station bindings lastGauge
    exact known.keep (fun _ member => bindings ▸ member) (Nat.le_of_eq lastGauge.symm)
  cases step with
  | subscribe feed tag node ending body times =>
    exact aside (Station.SameBoard.bindings .setFeed) Station.lastGauge_setFeed
  | unsubscribe feed tag =>
    cases held : s.handles.lookup tag with
    | none => simpa [perform, held] using known
    | some handle =>
      simp only [perform, held]
      exact aside (Station.SameBoard.bindings .setFeed) Station.lastGauge_setFeed
  | ingest feed payload =>
    cases decoded : Snapshot.decode payload <;> simp only [perform, ingest, decoded, idle] <;> exact aside rfl rfl
  | newRenderer feed name thresholds => exact known.newRenderer feed name thresholds
  | bindRenderer name slot node => exact known.bindRenderer name slot node
  | setThresholds name thresholds => exact known.setRendererThresholds name thresholds
  | dispose name => exact known.dispose name
  | createView name => exact known.ensureView s.now name
  | removeView name => exact known.removeView name
  | bindView name slot node => exact known.bindView name slot node
  | applyThresholds thresholds => exact known.applyThresholds thresholds
  | _ => exact aside rfl rfl

theorem move_known (known : s.station.Known) (m : Move) : (s.move m).1.station.Known := by
  cases m with
  | step step => exact perform_known known step
  | receive key snapshot =>
    have same : Station.SameBoard s.station (s.station.touch key (·.receive snapshot)).1 := .touch key _
    exact known.board same (.touch key (Gauge.receive_faithful snapshot))
  | call depth client snapshot => exact known
  | answer tag answer => exact known

theorem moves_known (known : s.station.Known) (ms : List Move) : (moves ms s).1.station.Known := by
  induction ms generalizing s with
  | nil => exact known
  | cons m rest ih => exact ih (move_known known m)

theorem reached_known (reached : Reached thresholds now s events) : s.station.Known := by
  induction reached with
  | start => exact fun b member => nomatch member
  | @step s events bodies step _ ih =>
    obtain ⟨ms, _, equal⟩ := step_made any_hereditary bodies step trivial (any_obeys s.station)
    rw [← equal]
    exact moves_known ih ms
  | move m _ ih => exact move_known ih m

theorem perform_gone (known : s.station.Known) (given : step.givesUp? s.station = some key) :
    (perform idle step s).2.1.station.Gone key ∧ (perform idle step s).2.2 = [] := by
  cases step with
  | dispose name =>
    obtain ⟨b, live, rfl⟩ := Option.map_eq_some_iff.mp given
    have gone := Station.release_gone (known b (Station.liveRenderer?_mem live))
    simp only [perform, Station.dispose, live]
    exact ⟨⟨gone.given, gone.missing⟩, trivial⟩
  | newRenderer feed name thresholds =>
    obtain ⟨b, live, rfl⟩ := Option.map_eq_some_iff.mp given
    have older : b.key ≤ (s.station.newGauge (some name) thresholds).2.lastGauge :=
      Nat.le_succ_of_le (known b (Station.liveRenderer?_mem live))
    have gone := Station.release_gone older
    simp only [perform, Station.newRenderer, live]
    exact ⟨⟨gone.given, gone.missing⟩, trivial⟩
  | removeView name =>
    obtain ⟨view, found, rfl⟩ := Option.map_eq_some_iff.mp given
    have gone : ({ s.station with views := Keyed.drop name s.station.views }.release view.binding).Gone
        view.binding.key := Station.release_gone (known view.binding (Station.view_mem found))
    simp only [perform, Station.removeView, found]
    exact ⟨gone, trivial⟩
  | _ => cases given

theorem moves_gone (gone : s.station.Gone key) (ms : List Move) :
    (moves ms s).1.station.Gone key ∧ strokesOn key (entriesOf (moves ms s).2) = [] :=
  Station.evolves_gone gone (moves_evolves any_hereditary ms fun m _ => any_move_obeys m)

-- What is left of a gauge that a step gives up, whatever comes afterwards: the rest of the deliveries that are under
-- way, and all that is asked later.
structure Hushed (s : Session) (events : List Event) (step : Step) (key : Nat) : Prop where
  missing : ∀ later, (moves (.step step :: later) s).1.station.gauge? key = none
  silent : ∀ later, strokesOn key (entriesOf (moves (.step step :: later) s).2) = []
  frame : ∀ later, surface key (entriesOf (events ++ (moves (.step step :: later) s).2)) =
    surface key (entriesOf events)
  -- What the surface shows is what the gauge had drawn when it was given up.
  drawn : ∀ g, s.station.gauge? key = some g → surface key (entriesOf events) = g.frame

theorem reached_hushed (reached : Reached thresholds now s events) (given : step.givesUp? s.station = some key) :
    Hushed s events step key := by
  obtain ⟨gone, quiet⟩ := perform_gone (reached_known reached) given
  have silent : ∀ later, strokesOn key (entriesOf (moves (.step step :: later) s).2) = [] := by
    intro later
    change strokesOn key (entriesOf ((perform idle step s).2.2 ++ _)) = []
    rw [quiet]
    exact (moves_gone gone later).2
  refine ⟨fun later => ?_, silent, fun later => ?_, fun g found => ?_⟩
  · exact Option.map_eq_none_iff.mpr (moves_gone gone later).1.missing
  · rw [surface, entriesOf_append, strokesOn_append, silent, List.append_nil, surface]
  · obtain ⟨fixture, present, rfl⟩ := Option.map_eq_some_iff.mp found
    exact ((reached_drawn reached).frame key fixture present).symm

theorem Reached.moves (ms : List Move) (reached : Reached thresholds now s events) :
    Reached thresholds now (moves ms s).1 (events ++ (moves ms s).2) := by
  induction ms generalizing s events with
  | nil => simpa [Session.moves] using reached
  | cons m rest ih => simpa [Session.moves] using ih (reached.move m)

-- A delivery has one part for each of its registrations, in their order, which starts with its call.
theorem Delivers.parts {depth : Nat} {snapshot : Snapshot} {rs : List (Registration Callback)} {ms : List Move}
    (delivers : Delivers depth snapshot rs s ms) : ∃ parts : List (List Move), parts.flatten = ms ∧
      List.Forall₂ (fun r part => part.head? = some (r.callback.turn depth snapshot)) rs parts := by
  induction rs generalizing s ms with
  | nil =>
    cases delivers
    exact ⟨[], rfl, .nil⟩
  | cons r rs ih =>
    cases delivers with
    | gauge delivers =>
      obtain ⟨parts, rfl, turns⟩ := ih delivers
      exact ⟨[_] :: parts, rfl, .cons rfl turns⟩
    | spent _ delivers =>
      obtain ⟨parts, rfl, turns⟩ := ih delivers
      exact ⟨[_] :: parts, rfl, .cons rfl turns⟩
    | ready _ _ delivers =>
      obtain ⟨parts, rfl, turns⟩ := ih delivers
      exact ⟨(_ :: _) :: parts, rfl, .cons rfl turns⟩

theorem countP_succeeds (rs : List (Registration Callback)) :
    rs.countP (·.callback.succeeds) = (rs.filterMap (·.callback.gauge?)).length +
      (rs.filterMap (·.callback.client?)).countP (·.ending.succeeds) := by
  induction rs with
  | nil => rfl
  | cons r rest ih =>
    obtain ⟨id, callback⟩ := r
    cases callback with
    | gauge key =>
      rw [List.countP_cons_of_pos (by rfl), ih]
      exact (Nat.add_right_comm _ 1 _).symm
    | client c =>
      rw [List.countP_cons, ih, Nat.add_assoc]
      exact congrArg _ List.countP_cons.symm

theorem countP_fails (rs : List (Registration Callback)) :
    rs.countP (!·.callback.succeeds) = (rs.filterMap (·.callback.client?)).countP (!·.ending.succeeds) := by
  induction rs with
  | nil => rfl
  | cons r rest ih =>
    obtain ⟨id, callback⟩ := r
    cases callback with
    | gauge key => exact (List.countP_cons_of_neg Bool.false_ne_true).trans ih
    | client c =>
      rw [List.countP_cons, ih]
      exact List.countP_cons.symm

-- A delivery in the course of which gauges are given up.
structure Undisturbed (s : Session) (events : List Event) (depth : Nat) (feed : FeedName) (snapshot : Snapshot)
    (outcome : Delivery × Session × List Event) : Prop where
  -- Each registration that was there at the start has its turn, and where a step on the way gives up a gauge, at
  -- whatever depth, the gauge is silent from then on.
  turns : ∃ parts : List (List Move), outcome.2 = moves parts.flatten s ∧
    List.Forall₂ (fun r part => part.head? = some (r.callback.turn depth snapshot)) (s.due feed snapshot) parts ∧
    ∀ before step later key, parts.flatten = before ++ .step step :: later →
      step.givesUp? (moves before s).1.station = some key →
      Hushed (moves before s).1 (events ++ (moves before s).2) step key
  -- Registrations of gauges count as delivered, whether the gauge is still there or not.
  delivered : outcome.1.delivered = ((s.due feed snapshot).filterMap (·.callback.gauge?)).length +
    ((s.due feed snapshot).filterMap (·.callback.client?)).countP (·.ending.succeeds)
  failed : outcome.1.failed = ((s.due feed snapshot).filterMap (·.callback.client?)).countP (!·.ending.succeeds)

structure Retiring (s : Session) (events : List Event) : Prop where
  hushed : ∀ step key, step.givesUp? s.station = some key → Hushed s events step key
  undisturbed : ∀ bound, s.bodiesLeft s.roster ≤ bound → ∀ depth feed snapshot,
    Undisturbed s events depth feed snapshot (publishWithin bound depth feed snapshot s)

theorem reached_retiring (reached : Reached thresholds now s events) : Retiring s events := by
  refine ⟨fun step key given => reached_hushed reached given, ?_⟩
  intro bound enough depth feed snapshot
  obtain ⟨ms, delivers, published, _⟩ :=
    publish_unfolds bound depth feed snapshot s s.roster s.listens_roster enough
  obtain ⟨parts, rfl, turns⟩ := delivers.parts
  rw [published]
  refine ⟨⟨parts, rfl, turns, ?_⟩, countP_succeeds _, countP_fails _⟩
  intro before step later key _ given
  exact reached_hushed (reached.moves before) given

-- A client disposes of a renderer with both slots on the node, in the course of the delivery that calls it after the
-- client.
theorem disposed_in_flight :
    let ms : List Move := [.step (.subscribe .main "first" "a" .returns [.dispose "bar"] 1),
      .step (.newRenderer .main "bar" ⟨10, 5⟩), .step (.bindRenderer "bar" .current (some "a")),
      .step (.bindRenderer "bar" .selected (some "a"))]
    let s := Session.start ⟨10, 5⟩ "noon"
    let outcome := publishWithin 1 0 .main ⟨"a", .zero, 7⟩ (moves ms s).1
    Reached ⟨10, 5⟩ "noon" (moves ms s).1 (moves ms s).2 ∧ Retiring (moves ms s).1 (moves ms s).2 ∧
      (moves ms s).1.station.gauge? 1 ≠ none ∧ outcome.1 = ⟨3, 0⟩ ∧ outcome.2.1.station.gauge? 1 = none ∧
      strokesOn 1 (entriesOf outcome.2.2) = [] := by
  intro ms s outcome
  have reached : Reached ⟨10, 5⟩ "noon" (moves ms s).1 (moves ms s).2 := Reached.moves ms .start
  exact ⟨reached, reached_retiring reached, by decide +kernel, by decide +kernel, by decide +kernel, by decide +kernel⟩

end Session

end DiskGauge
