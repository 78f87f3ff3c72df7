import DiskGauge.Proofs.Station.Rendering
import DiskGauge.Proofs.Station.Upkeep

namespace DiskGauge

structure Ledger where
  issued : List (FeedName × Handle)
  -- Issued, and not given back since.
  held : List (FeedName × Handle)

namespace Ledger

def blank : Ledger := ⟨[], []⟩

-- Clients give a handle back to the feed that issued it.
def Allows (l : Ledger) (s : Session) : Move → Prop
  | .step (.unsubscribe feed tag) => ∀ handle, s.handles.lookup tag = some handle → (feed, handle) ∈ l.issued
  | _ => True

def note (l : Ledger) (s : Session) : Move → Ledger
  | .step (.subscribe feed _ node ..) =>
    let handle : Handle := ⟨node, (s.station.feed feed).lastId + 1⟩
    ⟨(feed, handle) :: l.issued, (feed, handle) :: l.held⟩
  | .step (.unsubscribe feed tag) =>
    match s.handles.lookup tag with
    | none => l
    | some handle => { l with held := l.held.filter (· ≠ (feed, handle)) }
  | _ => l

end Ledger

namespace Session
variable {thresholds : Thresholds} {now : String} {s : Session} {ledger : Ledger}

-- Every run of whole steps is such a row of moves, by `run_booked` below.
inductive Booked (thresholds : Thresholds) (now : String) : Session → Ledger → Prop where
  | start : Booked thresholds now (.start thresholds now) .blank
  | move {s : Session} {ledger : Ledger} (m : Move) : Booked thresholds now s ledger → ledger.Allows s m →
      Booked thresholds now (s.move m).1 (ledger.note s m)

theorem step_sound (sound : s.station.Sound ledger.issued ledger.held) (step : Step)
    (allowed : ledger.Allows s (.step step)) :
    (perform idle step s).2.1.station.Sound (ledger.note s (.step step)).issued
      (ledger.note s (.step step)).held := by
  cases step with
  | subscribe feed tag node ending body times => exact sound.subscribe
  | unsubscribe feed tag =>
    cases held : s.handles.lookup tag with
    | none => simpa only [perform, Ledger.note, held] using sound
    | some handle =>
      simpa only [perform, Ledger.note, held] using sound.unsubscribe (allowed handle held)
  | ingest feed payload =>
    cases decoded : Snapshot.decode payload with
    | ok snapshot =>
      simp only [perform, ingest, decoded, idle]
      exact sound.mapHealth _
    | error r =>
      simp only [perform, ingest, decoded]
      exact (sound.mapHealth .recordEvent).mapHealth .recordDropped
  | newRenderer feed name thresholds => exact sound.newRenderer feed name thresholds
  | bindRenderer name slot node => exact sound.bindRenderer name slot node
  | setThresholds name thresholds => exact sound.setRendererThresholds name thresholds
  | dispose name => exact sound.dispose name
  | createView name => exact sound.ensureView s.now name
  | removeView name => exact sound.removeView name
  | bindView name slot node => exact sound.bindView name slot node
  | applyThresholds thresholds => exact sound.applyThresholds thresholds
  | connected => exact sound.mapHealth _
  | reconnecting => exact sound.mapHealth _
  | recordEvent => exact sound.mapHealth _
  | recordDropped => exact sound.mapHealth _
  | _ => exact sound

theorem move_sound (sound : s.station.Sound ledger.issued ledger.held) (m : Move)
    (allowed : ledger.Allows s m) :
    (s.move m).1.station.Sound (ledger.note s m).issued (ledger.note s m).held := by
  cases m with
  | step step => exact step_sound sound step allowed
  | receive key snapshot => exact sound.touch fun g => Gauge.receive_slots
  | call depth client snapshot => exact sound
  | answer tag answer => exact sound

theorem booked_sound (path : Booked thresholds now s ledger) :
    s.station.Sound ledger.issued ledger.held := by
  induction path with
  | start => exact Station.start_sound thresholds
  | move m _ allowed ih => exact move_sound ih m allowed

end Session

-- Steps whose clients use one feed only, in the bodies of their callbacks as well.
inductive Step.On (feed : FeedName) : Step → Prop where
  | subscribe {tag node : String} {ending : Ending} {body : List Step} {times : Nat} :
      (∀ step ∈ body, On feed step) → On feed (.subscribe feed tag node ending body times)
  | unsubscribe {tag : String} : On feed (.unsubscribe feed tag)
  | other {step : Step} : (∀ feed tag node ending body times,
        step ≠ .subscribe feed tag node ending body times) →
      (∀ feed tag, step ≠ .unsubscribe feed tag) → On feed step

namespace Session
variable {thresholds : Thresholds} {now : String} {s : Session} {ledger : Ledger} {feed : FeedName}

theorem on_hereditary : Hereditary (Step.On feed) where
  body := by
    intro _ tag node ending body times on
    cases on with
    | subscribe bodies => exact bodies
    | other different _ => exact absurd rfl (different _ _ _ _ _ _)
  recordEvent := .other nofun nofun
  recordDropped := .other nofun nofun

-- The handles that clients have at hand were issued by the one feed they use.
def Own (feed : FeedName) (s : Session) (ledger : Ledger) : Prop :=
  ∀ tag handle, s.handles.lookup tag = some handle → (feed, handle) ∈ ledger.issued

theorem move_own (own : Own feed s ledger) (m : Move) (on : m.Obeys (Step.On feed)) :
    ledger.Allows s m ∧ Own feed (s.move m).1 (ledger.note s m) := by
  cases m with
  | receive key snapshot => exact ⟨trivial, own⟩
  | call depth client snapshot => exact ⟨trivial, own⟩
  | answer tag answer => exact ⟨trivial, own⟩
  | step step =>
    cases on with
    | @subscribe tag node ending body times _ =>
      refine ⟨trivial, ?_⟩
      intro other handle found
      by_cases equal : other = tag
      · subst other
        have new : handle = ⟨node, (s.station.feed feed).lastId + 1⟩ :=
          (Option.some.inj (Keyed.lookup_put_self.symm.trans found)).symm
        rw [new]
        exact List.mem_cons_self
      · exact List.mem_cons_of_mem _ (own other handle ((Keyed.lookup_put_other equal).symm.trans found))
    | @unsubscribe tag =>
      refine ⟨fun handle found => own tag handle found, ?_⟩
      cases held : s.handles.lookup tag with
      | none => simpa only [move, perform, Ledger.note, held] using own
      | some handle =>
        intro other kept found
        simp only [move, perform, held] at found
        simp only [Ledger.note, held]
        by_cases equal : other = tag
        · simp [equal] at found
        · rw [Keyed.lookup_drop_other equal] at found
          exact own other kept found
    | other first second =>
      cases step with
      | subscribe => exact absurd rfl (first _ _ _ _ _ _)
      | unsubscribe => exact absurd rfl (second _ _)
      | ingest feed payload =>
        refine ⟨trivial, ?_⟩
        cases decoded : Snapshot.decode payload <;> simp only [move, perform, ingest, decoded, idle] <;>
          exact own
      | _ => exact ⟨trivial, own⟩

theorem moves_booked (path : Booked thresholds now s ledger) (own : Own feed s ledger) (ms : List Move)
    (on : ∀ m ∈ ms, m.Obeys (Step.On feed)) :
    ∃ after, Booked thresholds now (moves ms s).1 after ∧ Own feed (moves ms s).1 after := by
  induction ms generalizing s ledger with
  | nil => exact ⟨ledger, path, own⟩
  | cons m rest ih =>
    obtain ⟨allowed, still⟩ := move_own own m (on m (by simp))
    exact ih (path.move m allowed) still fun m member => on m (by simp [member])

-- Runs of whole steps are booked, whatever their callbacks do.
theorem run_booked (bodies : Nat) (steps : List Step) (on : ∀ step ∈ steps, step.On feed) :
    ∃ ledger, Booked thresholds now (run bodies steps (.start thresholds now)).1 ledger := by
  suffices all : ∀ (s : Session) ledger, Booked thresholds now s ledger → Own feed s ledger →
      s.station.Obeys (Step.On feed) → ∃ after, Booked thresholds now (run bodies steps s).1 after by
    refine all _ _ .start (by simp [Own, start]) ?_
    intro feed node r member
    cases feed <;> simp [start, Station.start, Station.feed] at member
  induction steps with
  | nil => exact fun s ledger path _ _ => ⟨ledger, path⟩
  | cons step rest ih =>
    intro s ledger path own obeys
    have made := step_made on_hereditary bodies step (on step (by simp)) obeys
    have still := made.obeys on_hereditary obeys
    obtain ⟨ms, good, equal⟩ := made
    obtain ⟨after, booked, owned⟩ := moves_booked path own ms good
    rw [equal] at booked owned
    exact ih (fun step member => on step (by simp [member])) _ after booked owned still

-- That the feeds agree with a ledger and with the gauges in use.
structure Balanced (s : Station) (ledger : Ledger) : Prop where
  counted : ∀ feed node, (s.feed feed).count node =
    (ledger.held.filter fun e => e.1 = feed ∧ e.2.node = node).length +
      ((s.bindings.filter (·.feed = feed)).map fun b => (s.slotsOf b).hits node).sum
  total : ∀ feed, ∃ nodes : Finset String, (∀ node, node ∉ nodes → (s.feed feed).count node = 0) ∧
    (s.feed feed).total = ∑ node ∈ nodes, (s.feed feed).count node
  bound : ∀ b ∈ s.bindings, (s.gauge? b.key).isSome ∧
    (s.slotsOf b).current = b.current.map (·.node) ∧ (s.slotsOf b).selected = b.selected.map (·.node)
  registered : ∀ b ∈ s.bindings, ∀ slot handle, b.handle? slot = some handle →
    ⟨handle.id, .gauge b.key⟩ ∈ (s.feed b.feed).registrations handle.node
  apart : (s.bindings.map (·.key)).Nodup
  clear : ∀ feed, (∀ e ∈ ledger.held, e.1 ≠ feed) → (∀ b ∈ s.bindings, b.feed ≠ feed) →
    (s.feed feed).total = 0

theorem booked_balanced (path : Booked thresholds now s ledger) : Balanced s.station ledger := by
  have sound := booked_sound path
  have listed := sound.wired.listed
  have counted : ∀ feed node, (s.station.feed feed).count node =
      (ledger.held.filter fun e => e.1 = feed ∧ e.2.node = node).length +
        ((s.station.bindings.filter (·.feed = feed)).map fun b => (s.station.slotsOf b).hits node).sum := by
    intro feed node
    rw [listed.count_eq]
    congr 2
    refine List.map_congr_left fun b member => ?_
    exact Binding.length_numbers (sound.wired.told b (List.mem_filter.mp member).1).slots
  have total : ∀ feed, ∃ nodes : Finset String,
      (∀ node, node ∉ nodes → (s.station.feed feed).count node = 0) ∧
      (s.station.feed feed).total = ∑ node ∈ nodes, (s.station.feed feed).count node := by
    intro feed
    have tidy := listed.tidy feed
    have covered : ∀ node, (s.station.feed feed).count node ≠ 0 →
        node ∈ (s.station.feed feed).subscribed.toFinset := by
      intro node filled
      rw [← tidy.count_subscribed] at filled
      exact List.mem_toFinset.mpr (List.count_pos_iff.mp (Nat.pos_of_ne_zero filled))
    exact ⟨_, fun node absent => by_contra fun filled => absent (covered node filled),
      tidy.total_eq_sum _ covered⟩
  constructor
  case counted => exact counted
  case total => exact total
  case bound =>
    intro b member
    have told := sound.wired.told b member
    obtain ⟨_, g, found, _⟩ := sound.wired.told b member
    exact ⟨by simp [found], told.slots .current, told.slots .selected⟩
  case registered =>
    intro b member slot handle own
    exact (listed.gauges _ _ _).mpr ⟨b, member, rfl, rfl, slot, own⟩
  case apart => exact listed.keys
  case clear =>
    intro feed returned disposed
    obtain ⟨nodes, _, sum⟩ := total feed
    have clients : ∀ node, ledger.held.filter (fun e => e.1 = feed ∧ e.2.node = node) = [] := by
      intro node
      refine List.filter_eq_nil_iff.mpr fun e member => ?_
      simp [returned e member]
    have gauges : s.station.bindings.filter (·.feed = feed) = [] :=
      List.filter_eq_nil_iff.mpr fun b member => by simpa using disposed b member
    rw [sum]
    refine Finset.sum_eq_zero fun node _ => ?_
    rw [counted, clients, gauges]
    rfl

-- Both slots of a renderer are left on a node after the client that was there first has gone.
theorem balanced_after_return :
    Balanced (moves [.step (.subscribe .main "first" "a" .returns [] 0),
        .step (.newRenderer .main "bar" ⟨10, 5⟩), .step (.bindRenderer "bar" .current (some "a")),
        .step (.bindRenderer "bar" .selected (some "a")), .step (.unsubscribe .main "first")]
      (.start ⟨10, 5⟩ "noon")).1.station ⟨[(.main, ⟨"a", 1⟩)], []⟩ := by
  have first : Booked ⟨10, 5⟩ "noon" _ _ :=
    .move (.step (.subscribe .main "first" "a" .returns [] 0)) .start trivial
  have second := first.move (.step (.newRenderer .main "bar" ⟨10, 5⟩)) trivial
  have third := second.move (.step (.bindRenderer "bar" .current (some "a"))) trivial
  have fourth := third.move (.step (.bindRenderer "bar" .selected (some "a"))) trivial
  refine booked_balanced (fourth.move (.step (.unsubscribe .main "first")) ?_)
  intro handle found
  cases found
  exact List.mem_cons_self

end Session

end DiskGauge
