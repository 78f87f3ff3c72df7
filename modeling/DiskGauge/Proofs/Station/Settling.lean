import DiskGauge.Proofs.Station.Unfolding
import Mathlib.Algebra.GroupWithZero.Nat
import Mathlib.Algebra.Order.BigOperators.Group.List
import Mathlib.Algebra.Order.Group.Nat

namespace DiskGauge

def Delivery.plus (a b : Delivery) : Delivery := ⟨a.delivered + b.delivered, a.failed + b.failed⟩

theorem Delivery.plus_tally_nil (d : Delivery) : d.plus (.tally []) = d := by simp [plus, tally]

theorem Delivery.plus_tally_cons (d : Delivery) (r : Registration Callback)
    (rest : List (Registration Callback)) :
    d.plus (.tally (r :: rest)) = (d.count r.callback.succeeds).plus (.tally rest) := by
  cases ending : r.callback.succeeds <;> simp [plus, tally, count, ending] <;> omega

theorem Delivery.none_plus (d : Delivery) : Delivery.none.plus d = d := by simp [none, plus]

-- A callback whose client, if it has one, is on the list.
def Callback.On (all : List Client) : Callback → Prop
  | .gauge _ => True
  | .client c => c ∈ all

namespace Session
variable {s : Session} {all : List Client} {c : Client}

-- How many bodies a client can still run, with those of the clients they register.
def bodiesOf (s : Session) (c : Client) : Nat := (c.times - s.callsOf c.serial) * (1 + runsOfAll c.body)

def bodiesLeft (s : Session) (all : List Client) : Nat := (all.map s.bodiesOf).sum

-- What a row of moves may lead to: every registered client is known, and no more bodies are left.
def Leads (s : Session) (ms : List Move) (all : List Client) (limit : Nat) : Prop :=
  ∃ more, all ⊆ more ∧ (moves ms s).1.station.Listens (Callback.On more) ∧
    (moves ms s).1.bodiesLeft more ≤ limit

theorem bodiesLeft_mono {before after : Session}
    (fewer : ∀ serial, before.callsOf serial ≤ after.callsOf serial) (all : List Client) :
    after.bodiesLeft all ≤ before.bodiesLeft all := by
  have own (c : Client) : after.bodiesOf c ≤ before.bodiesOf c :=
    Nat.mul_le_mul_right _ (Nat.sub_le_sub_left (fewer c.serial) _)
  exact List.sum_le_sum fun c _ => own c

theorem callsOf_call_self {depth : Nat} {snapshot : Snapshot} :
    (s.move (.call depth c snapshot)).1.callsOf c.serial = s.callsOf c.serial + 1 := by
  simp [move, countCall, callsOf]

theorem callsOf_call_le (c : Client) (depth : Nat) (snapshot : Snapshot) (serial : Nat) :
    s.callsOf serial ≤ (s.move (.call depth c snapshot)).1.callsOf serial := by
  by_cases equal : serial = c.serial
  · subst equal
    rw [callsOf_call_self]
    exact Nat.le_succ _
  · simp [move, countCall, callsOf, Keyed.lookup_put_other equal]

-- A call that runs a body leaves room for the body and all it can set off.
theorem bodiesLeft_call (known : c ∈ all) (due : s.callsOf c.serial < c.times) (depth : Nat)
    (snapshot : Snapshot) :
    (s.move (.call depth c snapshot)).1.bodiesLeft all + (1 + runsOfAll c.body) ≤ s.bodiesLeft all := by
  obtain ⟨front, back, rfl⟩ := List.append_of_mem known
  have others : ∀ known, (s.move (.call depth c snapshot)).1.bodiesLeft known ≤ s.bodiesLeft known :=
    bodiesLeft_mono (callsOf_call_le c depth snapshot)
  have before := others front
  have after := others back
  have own : (s.move (.call depth c snapshot)).1.bodiesOf c + (1 + runsOfAll c.body) = s.bodiesOf c := by
    obtain ⟨left, more⟩ : ∃ left, c.times = s.callsOf c.serial + 1 + left := Nat.exists_eq_add_of_le due
    have now : c.times - (s.callsOf c.serial + 1) = left := by omega
    have earlier : c.times - s.callsOf c.serial = left + 1 := by omega
    rw [bodiesOf, bodiesOf, callsOf_call_self, now, earlier, Nat.add_mul, Nat.one_mul]
  simp only [bodiesLeft, List.map_append, List.map_cons, List.sum_append, List.sum_cons] at *
  omega

@[simp] theorem calls_perform (step : Step) : (perform idle step s).2.1.calls = s.calls := by
  cases step with
  | unsubscribe feed tag =>
    simp only [perform]
    split <;> rfl
  | ingest feed payload =>
    cases decoded : Snapshot.decode payload <;> simp [perform, ingest, decoded, idle, onStation]
  | _ => rfl

theorem callsOf_perform (step : Step) (serial : Nat) :
    (perform idle step s).2.1.callsOf serial = s.callsOf serial := by
  simp only [callsOf, calls_perform]

theorem perform_quiet {publish : Publish} {step : Step} (quiet : step.publishes? = none) :
    perform publish step s = perform idle step s := by
  cases step with
  | publish => cases quiet
  | ingest feed payload =>
    cases decoded : Snapshot.decode payload with
    | ok snapshot => simp [Step.publishes?, decoded, Except.toOption] at quiet
    | error r => simp only [perform, ingest, decoded]
  | _ => rfl

theorem perform_publishes {publish : Publish} {step : Step} {feed : FeedName} {snapshot : Snapshot}
    (publishes : step.publishes? = some (feed, snapshot)) :
    perform publish step s =
      let (d, after, events) := publish feed snapshot (s.move (.step step)).1
      (.delivery d, after, (s.move (.step step)).2 ++ events) := by
  cases step with
  | publish =>
    obtain ⟨rfl, rfl⟩ := Prod.mk.inj (Option.some.inj publishes)
    rfl
  | ingest feed payload =>
    cases decoded : Snapshot.decode payload with
    | ok snapshot =>
      simp only [Step.publishes?, decoded, Except.toOption, Option.map_some, Option.some.injEq,
        Prod.mk.injEq] at publishes
      obtain ⟨rfl, rfl⟩ := publishes
      simp [perform, ingest, decoded, idle, move]
    | error r => simp [Step.publishes?, decoded, Except.toOption] at publishes
  | _ => cases publishes

theorem Leads.trans (ms : List Move) {later : List Move} {limit last : Nat} {more : List Client}
    (larger : all ⊆ more) (leads : Leads (moves ms s).1 later more last) (less : last ≤ limit) :
    Leads s (ms ++ later) all limit := by
  obtain ⟨most, wider, listens, left⟩ := leads
  refine ⟨most, List.Subset.trans larger wider, ?_, ?_⟩
  · rw [moves_append]
    exact listens
  · rw [moves_append]
    exact Nat.le_trans left less

theorem step_leads (listens : s.station.Listens (Callback.On all)) (step : Step) :
    Leads s [.step step] all (s.bodiesLeft all + step.runs) := by
  have same : ∀ known, (perform idle step s).2.1.bodiesLeft known = s.bodiesLeft known := by
    intro known
    have each : (perform idle step s).2.1.bodiesOf = s.bodiesOf := by
      funext c
      simp only [bodiesOf, callsOf_perform]
    rw [bodiesLeft, each, bodiesLeft]
  have kept : ∀ known, (∀ c, step.client? s = some c → c ∈ known) → all ⊆ known →
      (perform idle step s).2.1.station.Listens (Callback.On known) := by
    intro known registers wider
    have wide : s.station.Listens (Callback.On known) := by
      intro feed node r member
      have on := listens feed node r member
      cases called : r.callback with
      | gauge => trivial
      | client c =>
        rw [called] at on
        exact wider on
    exact Station.evolves_listens (fun _ => trivial) (fun _ member => member) wide
      (perform_evolves step registers)
  cases registered : step.client? s with
  | none =>
    refine ⟨all, fun _ member => member, kept all (by simp [registered]) (fun _ member => member), ?_⟩
    change (perform idle step s).2.1.bodiesLeft all ≤ _
    rw [same]
    exact Nat.le_add_right ..
  | some c =>
    refine ⟨c :: all, List.subset_cons_self .., kept _ ?_ (List.subset_cons_self ..), ?_⟩
    · intro other equal
      rw [registered] at equal
      exact Option.some.inj equal ▸ List.mem_cons_self
    · change (perform idle step s).2.1.bodiesLeft (c :: all) ≤ _
      rw [same]
      cases step with
      | subscribe feed tag node ending body times =>
        obtain rfl := Option.some.inj registered
        have new := Nat.mul_le_mul_right (1 + runsOfAll body)
          (Nat.sub_le times (s.callsOf (s.lastClient + 1)))
        simp only [bodiesLeft, List.map_cons, List.sum_cons, Step.runs, bodiesOf]
        omega
      | _ => cases registered

def Unfolds (bound : Nat) : Prop :=
  ∀ (depth : Nat) (feed : FeedName) (snapshot : Snapshot) (s : Session) (all : List Client),
    s.station.Listens (Callback.On all) → s.bodiesLeft all ≤ bound →
    ∃ ms, Delivers depth snapshot (s.due feed snapshot) s ms ∧
      publishWithin bound depth feed snapshot s = (.tally (s.due feed snapshot), moves ms s) ∧
      Leads s ms all (s.bodiesLeft all)

theorem perform_unfolds {bound : Nat} (unfolds : Unfolds bound) (depth : Nat) (step : Step)
    (listens : s.station.Listens (Callback.On all)) (enough : s.bodiesLeft all + step.runs ≤ bound) :
    ∃ ms answer, Performs depth step s answer ms ∧
      perform (publishWithin bound depth) step s = (answer, moves ms s) ∧
      Leads s ms all (s.bodiesLeft all + step.runs) := by
  have first := step_leads listens step
  cases publishes : step.publishes? with
  | none =>
    refine ⟨_, _, .quiet publishes, ?_, first⟩
    rw [perform_quiet publishes]
    simp [moves, move]
  | some target =>
    obtain ⟨feed, snapshot⟩ := target
    obtain ⟨more, wider, known, left⟩ := first
    obtain ⟨ms, delivers, equal, leads⟩ := unfolds depth feed snapshot _ more known (Nat.le_trans left enough)
    refine ⟨.step step :: ms, _, .publishes publishes delivers, ?_, Leads.trans [.step step] wider leads left⟩
    simp only [moves, List.append_nil] at equal
    rw [perform_publishes publishes, equal]
    rfl

theorem runBody_unfolds {bound : Nat} (unfolds : Unfolds bound) (depth : Nat) (tag : String)
    (steps : List Step) (listens : s.station.Listens (Callback.On all))
    (enough : s.bodiesLeft all + runsOfAll steps ≤ bound) :
    ∃ ms, Runs depth tag steps s ms ∧ runBody (publishWithin bound depth) tag steps s = moves ms s ∧
      Leads s ms all (s.bodiesLeft all + runsOfAll steps) := by
  induction steps generalizing s all with
  | nil => exact ⟨[], .done, rfl, all, fun _ member => member, listens, Nat.le_refl _⟩
  | cons step rest ih =>
    simp only [runsOfAll] at enough
    obtain ⟨ms, answer, performs, done, more, wider, known, left⟩ :=
      perform_unfolds unfolds depth step listens (by omega)
    obtain ⟨later, runs, ran, leads⟩ := ih known (by omega)
    refine ⟨ms ++ .answer tag answer :: later, .step performs runs, ?_, ?_⟩
    · rw [moves_append]
      simp only [runBody, done, ran]
      rfl
    · exact leads.trans ms wider (by simp only [runsOfAll]; omega)

-- What holds of a way to run bodies, for those that leave fewer than so many bodies to run.
def RunsBodies (body : String → List Step → Session → Session × List Event) (depth bound : Nat) :
    Prop :=
  ∀ (c : Client) (s : Session) (all : List Client), s.station.Listens (Callback.On all) →
    s.bodiesLeft all + runsOfAll c.body < bound →
    ∃ ms, Runs depth c.tag c.body s ms ∧ body c.tag c.body s = moves ms s ∧
      Leads s ms all (s.bodiesLeft all + runsOfAll c.body)

section
variable {body : String → List Step → Session → Session × List Event} {bound depth : Nat}
  (bodies : RunsBodies body (depth + 1) bound)
include bodies

-- One callback of a delivery is a row that puts itself before the row of the others.
theorem call_unfolds (snapshot : Snapshot) (r : Registration Callback) (known : r.callback.On all)
    (listens : s.station.Listens (Callback.On all)) (enough : s.bodiesLeft all ≤ bound) :
    ∃ head, call body depth snapshot r.callback s = (r.callback.succeeds, moves head s) ∧
      Leads s head all (s.bodiesLeft all) ∧
      ∀ rest later, Delivers depth snapshot rest (moves head s).1 later →
        Delivers depth snapshot (r :: rest) s (head ++ later) := by
  obtain ⟨id, callback⟩ := r
  cases callback with
  | gauge key =>
    have feeds : (s.move (.receive key snapshot)).1.station.Listens (Callback.On all) :=
      Station.evolves_listens (fun _ => trivial) (fun (other : Client) (member : other ∈ all) => member) listens
        (.touch key (Gauge.receive_faithful snapshot))
    refine ⟨[.receive key snapshot], ?_, ⟨all, fun _ member => member, feeds, Nat.le_refl _⟩, ?_⟩
    · simp [call, moves, move, Callback.succeeds]
    · exact fun rest later delivers => .gauge delivers
  | client c =>
    have less : (s.move (.call depth c snapshot)).1.bodiesLeft all ≤ s.bodiesLeft all :=
      bodiesLeft_mono (callsOf_call_le c depth snapshot) all
    by_cases ready : s.callsOf c.serial < c.times
    · have room := bodiesLeft_call known ready depth snapshot
      obtain ⟨ms, runs, ran, leads⟩ := bodies c (s.move (.call depth c snapshot)).1 all listens (by omega)
      refine ⟨.call depth c snapshot :: ms, ?_, ?_, ?_⟩
      · change body c.tag c.body (s.countCall c.serial) = _ at ran
        simp [call, ready, ran, moves, move, Callback.succeeds]
      · exact leads.trans [.call depth c snapshot] (fun _ member => member) (by omega)
      · exact fun rest later delivers => .ready ready runs delivers
    · refine ⟨[.call depth c snapshot], ?_, ⟨all, fun _ member => member, listens, less⟩, ?_⟩
      · simp [call, ready, moves, move, Callback.succeeds]
      · exact fun rest later delivers => .spent ready delivers

theorem deliver_unfolds (snapshot : Snapshot) (rs : List (Registration Callback)) (d : Delivery)
    (known : ∀ r ∈ rs, r.callback.On all) (listens : s.station.Listens (Callback.On all))
    (enough : s.bodiesLeft all ≤ bound) :
    ∃ ms, Delivers depth snapshot rs s ms ∧
      deliver body depth snapshot rs d s = (d.plus (.tally rs), moves ms s) ∧
      Leads s ms all (s.bodiesLeft all) := by
  induction rs generalizing s d all with
  | nil =>
    refine ⟨[], .done, ?_, all, fun _ member => member, listens, Nat.le_refl _⟩
    rw [d.plus_tally_nil]
    rfl
  | cons r rest ih =>
    obtain ⟨head, called, ⟨more, wider, heard, left⟩, unfold⟩ :=
      call_unfolds bodies snapshot r (known r (by simp)) listens enough
    have others : ∀ r ∈ rest, r.callback.On more := by
      intro r member
      have on := known r (by simp [member])
      cases callback : r.callback with
      | gauge => trivial
      | client c =>
        rw [callback] at on
        exact wider on
    obtain ⟨later, delivers, delivered, leads⟩ :=
      ih (d.count r.callback.succeeds) others heard (Nat.le_trans left enough)
    refine ⟨head ++ later, unfold rest later delivers, ?_, leads.trans head wider left⟩
    rw [moves_append, d.plus_tally_cons]
    simp only [deliver, called, delivered]

theorem due_unfolds (feed : FeedName) (snapshot : Snapshot) (listens : s.station.Listens (Callback.On all))
    (enough : s.bodiesLeft all ≤ bound) :
    ∃ ms, Delivers depth snapshot (s.due feed snapshot) s ms ∧
      deliver body depth snapshot (s.due feed snapshot) .none s =
        (.tally (s.due feed snapshot), moves ms s) ∧
      Leads s ms all (s.bodiesLeft all) := by
  have unfolded := deliver_unfolds bodies snapshot (s.due feed snapshot) .none (listens feed snapshot.node)
    listens enough
  rwa [Delivery.none_plus] at unfolded

end

theorem publish_unfolds (bound : Nat) : Unfolds bound := by
  -- A body that is run has used up one of the bodies left, so what it publishes fits under one less.
  induction bound with
  | zero =>
    intro depth feed snapshot s all listens enough
    have bodiless : RunsBodies (fun _ _ s => (s, [])) (depth + 1) 0 :=
      fun _ _ _ _ room => absurd room (Nat.not_lt_zero _)
    exact due_unfolds bodiless feed snapshot listens enough
  | succ bound ih =>
    intro depth feed snapshot s all listens enough
    have bodies : RunsBodies (runBody (publishWithin bound (depth + 1))) (depth + 1) (bound + 1) :=
      fun c _ _ listens room =>
        runBody_unfolds ih (depth + 1) c.tag c.body listens (Nat.le_of_lt_succ room)
    exact due_unfolds bodies feed snapshot listens enough

def roster (s : Session) : List Client :=
  ((s.station.main.lists ++ s.station.side.lists).flatMap (·.2)).filterMap (·.callback.client?)

theorem listens_roster (s : Session) : s.station.Listens (Callback.On s.roster) := by
  intro feed node r member
  cases called : r.callback with
  | gauge => trivial
  | client c =>
    have listed : ∃ entry ∈ (s.station.feed feed).lists, r ∈ entry.2 := by
      cases found : (s.station.feed feed).lists.lookup node with
      | none => simp [Feed.registrations, found] at member
      | some list =>
        rw [Feed.registrations_of_lookup found] at member
        exact ⟨_, Keyed.mem_of_lookup found, member⟩
    obtain ⟨entry, inside, mine⟩ := listed
    have either : entry ∈ s.station.main.lists ++ s.station.side.lists := by
      cases feed with
      | main => exact List.mem_append_left _ inside
      | side => exact List.mem_append_right _ inside
    refine List.mem_filterMap.mpr ⟨r, List.mem_flatMap.mpr ⟨entry, either, mine⟩, ?_⟩
    rw [called]
    rfl

structure Settled (s : Session) (depth : Nat) (feed : FeedName) (snapshot : Snapshot)
    (outcome : Delivery × Session × List Event) : Prop where
  -- The moves in the order in which they happened. Failing takes none of them back.
  row : ∃ ms, Delivers depth snapshot (s.due feed snapshot) s ms ∧ outcome.2 = moves ms s ∧
    callsAt depth ms = ((s.due feed snapshot).filterMap (·.callback.client?)).map (·, snapshot)
  delivered : outcome.1.delivered = (s.due feed snapshot).countP (·.callback.succeeds)
  failed : outcome.1.failed = (s.due feed snapshot).countP (!·.callback.succeeds)
  counted : outcome.1.delivered + outcome.1.failed = (s.station.feed feed).count snapshot.node

-- Any bound will do that is not below the number of bodies that are left to run.
theorem publish_settled (s : Session) (bound : Nat) (enough : s.bodiesLeft s.roster ≤ bound)
    (depth : Nat) (feed : FeedName) (snapshot : Snapshot) :
    Settled s depth feed snapshot (publishWithin bound depth feed snapshot s) := by
  obtain ⟨ms, delivers, published, _⟩ :=
    publish_unfolds bound depth feed snapshot s s.roster s.listens_roster enough
  rw [published]
  refine ⟨⟨ms, delivers, rfl, delivers.calls⟩, rfl, rfl, ?_⟩
  have split := List.length_eq_countP_add_countP (l := s.due feed snapshot)
    fun r : Registration Callback => r.callback.succeeds
  simpa [Delivery.tally, Feed.count, due] using split.symm

-- The first client takes out the second, registers a third and publishes again before it fails; the
-- second is called nevertheless.
def meddling : List Move :=
  [.step (.subscribe .main "first" "a" .errs [.unsubscribe .main "second",
      .subscribe .main "third" "a" .returns [] 0, .publish .main ⟨"a", .zero, 1⟩] 1),
    .step (.subscribe .main "second" "a" .panics [] 0)]

theorem settled_while_meddling :
    let s := (moves meddling (.start ⟨10, 5⟩ "noon")).1
    (publishWithin 1 0 .main ⟨"a", .zero, 7⟩ s).1 = ⟨0, 2⟩ ∧
      Settled s 0 .main ⟨"a", .zero, 7⟩ (publishWithin 1 0 .main ⟨"a", .zero, 7⟩ s) :=
  ⟨by decide +kernel, publish_settled _ 1 (by decide +kernel) 0 .main ⟨"a", .zero, 7⟩⟩

end Session

end DiskGauge
