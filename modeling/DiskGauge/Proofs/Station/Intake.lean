import DiskGauge.Proofs.Http.Quiet
import DiskGauge.Station.Listener
import Mathlib.Data.List.Basic

namespace DiskGauge
open Http

namespace Session

def withHealth (s : Session) (health : Health) : Session := s.onStation (·.mapHealth fun _ => health)

-- Publishes snapshots on the main feed, one after the other.
def publishAll : List Snapshot → Session → Session × List Event
  | [], s => (s, [])
  | snapshot :: rest, s =>
    let (_, s, events) := publishWithin 0 0 .main snapshot s
    let (s, later) := publishAll rest s
    (s, events ++ later)

variable {s : Session} {health : Health}

theorem publishAll_append (first second : List Snapshot) (s : Session) :
    publishAll (first ++ second) s =
      ((publishAll second (publishAll first s).1).1, (publishAll first s).2 ++ (publishAll second (publishAll first s).1).2) := by
  induction first generalizing s with
  | nil => rfl
  | cons snapshot first ih => simp [publishAll, ih]

-- Nothing that is published depends on the counters, or changes them.
theorem touch_withHealth (key : Nat) (act : Gauge → Gauge × List Stroke) (station : Station) :
    (station.mapHealth fun _ => health).touch key act =
      ((station.touch key act).1.mapHealth fun _ => health, (station.touch key act).2) := by
  have same : (station.mapHealth fun _ => health).fixture? key = station.fixture? key := rfl
  cases found : station.fixture? key with
  | none => rw [Station.touch_missing found, Station.touch_missing (same.trans found)]
  | some fixture =>
    rw [Station.touch_found found, Station.touch_found (same.trans found)]
    rfl

theorem call_withHealth (depth : Nat) (snapshot : Snapshot) (callback : Callback) (s : Session) :
    call (fun _ _ s => (s, [])) depth snapshot callback (s.withHealth health) =
      let (ok, after, events) := call (fun _ _ s => (s, [])) depth snapshot callback s
      (ok, after.withHealth health, events) := by
  cases callback with
  | gauge key =>
    unfold call withHealth onStation
    dsimp only
    rw [touch_withHealth]
  | client c =>
    unfold call
    have same : (s.withHealth health).callsOf c.serial = s.callsOf c.serial := rfl
    dsimp only
    rw [same]
    split <;> rfl

theorem deliver_withHealth (depth : Nat) (snapshot : Snapshot) (rs : List (Registration Callback)) (d : Delivery)
    (s : Session) :
    deliver (fun _ _ s => (s, [])) depth snapshot rs d (s.withHealth health) =
      let (d, after, events) := deliver (fun _ _ s => (s, [])) depth snapshot rs d s
      (d, after.withHealth health, events) := by
  induction rs generalizing d s with
  | nil => rfl
  | cons r rs ih => simp only [deliver, call_withHealth, ih]

theorem publishAll_withHealth (snapshots : List Snapshot) (s : Session) :
    publishAll snapshots (s.withHealth health) =
      ((publishAll snapshots s).1.withHealth health, (publishAll snapshots s).2) := by
  induction snapshots generalizing s with
  | nil => rfl
  | cons snapshot snapshots ih =>
    have first : publishWithin 0 0 .main snapshot (s.withHealth health) =
        let (d, after, events) := publishWithin 0 0 .main snapshot s
        (d, after.withHealth health, events) := deliver_withHealth ..
    simp only [publishAll, first, ih]

end Session

-- A payload is counted when it comes, and again when it is refused.
def Health.ingested (h : Health) (payload : Bytes) : Health :=
  match Snapshot.decode payload with
  | .ok _ => h.recordEvent
  | .error _ => h.recordEvent.recordDropped

def Snapshot.accepted? (payload : Bytes) : Option Snapshot := (Snapshot.decode payload).toOption

def Snapshot.refused (payload : Bytes) : Bool := (accepted? payload).isNone

theorem Health.ingested_counts (h : Health) (payload : Bytes) :
    (h.ingested payload).received = h.received + 1 ∧
    (h.ingested payload).dropped = h.dropped + (if Snapshot.refused payload then 1 else 0) ∧
    (h.ingested payload).reconnects = h.reconnects ∧ (h.ingested payload).link = h.link := by
  unfold ingested Snapshot.refused Snapshot.accepted?
  cases Snapshot.decode payload <;> exact ⟨rfl, rfl, rfl, rfl⟩

theorem Session.ingest_published (payload : Bytes) (s : Session) :
    (s.ingest (publishWithin 0 0) .main payload).2 =
      ((publishAll (Snapshot.accepted? payload).toList s).1.withHealth (s.station.health.ingested payload),
        (publishAll (Snapshot.accepted? payload).toList s).2) := by
  have counted : s.onStation (·.mapHealth .recordEvent) = s.withHealth s.station.health.recordEvent := rfl
  unfold ingest Health.ingested Snapshot.accepted?
  rw [counted]
  cases decoded : Snapshot.decode payload with
  | error r => rfl
  | ok snapshot =>
    have first : publishAll [snapshot] (s.withHealth s.station.health.recordEvent) = _ :=
      publishAll_withHealth [snapshot] s
    simpa [publishAll, Except.toOption] using first

namespace Http.App

variable {app : App} {request : Request}

structure Reaches (app : App) (request : Request) : Prop where
  authorised : app.authorised request = true
  route : Route.ofPath? (pathOf request.target.toList) = some .usage
  posted : request.method = "POST"
  size : request.body.length ≤ bodyLimit

theorem Reaches.handle (reaches : app.Reaches request) (answers : DiskAnswers) :
    (app.handle request answers).2 = (app.report request).2.1 := by
  have allowed : Route.usage.operation? request.method = some .post := by
    rw [reaches.posted]
    rfl
  exact (handle_operation reaches.route allowed reaches.authorised).2

theorem Reaches.report (reaches : app.Reaches request) : (app.report request).2 =
    ({ app with session := (app.session.ingest (Session.publishWithin 0 0) .main request.body).2.1 },
      (app.session.ingest (Session.publishWithin 0 0) .main request.body).2.2) := by
  unfold App.report
  rw [if_neg (Nat.not_lt.mpr reaches.size)]

end Http.App

-- What comes to a station: something from the broker, or a report in a request.
inductive IntakeTurn where
  | arrives (arrival : Arrival)
  | posts (request : Request)

namespace IntakeTurn

-- The payload that is to be ingested. What arrives on other topics is not.
def payload? (l : Listener) : IntakeTurn → Option Bytes
  | .arrives (.message topic payload) => if topic = l.topic then some payload else none
  | .arrives _ => none
  | .posts request => some request.body

def link? : IntakeTurn → Option Link
  | .arrives .granted => some .connected
  | .arrives .failure => some .reconnecting
  | _ => none

def request? (l : Listener) : IntakeTurn → Option Subscribe
  | .arrives .granted => some ⟨[l.topic], .atLeastOnce⟩
  | _ => none

def count (l : Listener) (h : Health) (turn : IntakeTurn) : Health :=
  match turn.payload? l, turn.link? with
  | some payload, _ => h.ingested payload
  | none, some .reconnecting => h.reconnecting
  | none, some link => { h with link }
  | none, none => h

end IntakeTurn

-- A service beside the listener of its station: what was asked of the broker in each turn, and what the observers of
-- the station have seen.
structure Intake where
  app : App
  asked : List (Option Subscribe)
  seen : List Event

namespace Intake

def turn (l : Listener) (i : Intake) : IntakeTurn → Intake
  | .arrives arrival =>
    let (request, session, events) := l.receive arrival i.app.session
    ⟨{ i.app with session }, i.asked ++ [request], i.seen ++ events⟩
  | .posts request =>
    ⟨(i.app.handle request).2, i.asked ++ [none], i.seen ++ (i.app.report request).2.2⟩

def run (l : Listener) (i : Intake) (turns : List IntakeTurn) : Intake := turns.foldl (turn l) i

def payloads (l : Listener) (turns : List IntakeTurn) : List Bytes := turns.filterMap (IntakeTurn.payload? l)

def reports (l : Listener) (turns : List IntakeTurn) : List Snapshot :=
  (payloads l turns).filterMap Snapshot.accepted?

variable {l : Listener} {i : Intake} {turns : List IntakeTurn}

-- The same service after some reports were published, with other counters.
def published (i : Intake) (snapshots : List Snapshot) (health : Health) (asked : List (Option Subscribe)) : Intake :=
  ⟨{ i.app with session := (i.app.session.publishAll snapshots).1.withHealth health }, i.asked ++ asked,
    i.seen ++ (i.app.session.publishAll snapshots).2⟩

theorem payloads_cons (turn : IntakeTurn) (turns : List IntakeTurn) :
    payloads l (turn :: turns) = (turn.payload? l).toList ++ payloads l turns := by
  simp [payloads, List.filterMap_eq_flatMap_toList]

theorem reports_cons (turn : IntakeTurn) (turns : List IntakeTurn) :
    reports l (turn :: turns) = ((turn.payload? l).bind Snapshot.accepted?).toList ++ reports l turns := by
  unfold reports
  rw [payloads_cons, List.filterMap_append]
  cases turn.payload? l <;> simp [List.filterMap_eq_flatMap_toList]

-- A payload has the same effect on whichever way it comes.
theorem ingest_published (payload : Bytes) (asked : List (Option Subscribe)) :
    (⟨{ i.app with session := (i.app.session.ingest (Session.publishWithin 0 0) .main payload).2.1 }, i.asked ++ asked,
      i.seen ++ (i.app.session.ingest (Session.publishWithin 0 0) .main payload).2.2⟩ : Intake) =
      i.published (Snapshot.accepted? payload).toList (i.app.station.health.ingested payload) asked := by
  rw [Session.ingest_published]
  rfl

theorem turn_published (turn : IntakeTurn) (reaches : ∀ request, turn = .posts request → i.app.Reaches request) :
    i.turn l turn = i.published ((turn.payload? l).bind Snapshot.accepted?).toList
      (turn.count l i.app.station.health) [turn.request? l] := by
  cases turn with
  | posts request =>
    have reached := reaches request rfl
    unfold Intake.turn
    dsimp only
    rw [reached.handle, reached.report]
    exact ingest_published request.body [none]
  | arrives arrival =>
    cases arrival with
    | granted => rfl
    | message topic payload =>
      unfold Intake.turn Listener.receive IntakeTurn.count IntakeTurn.payload?
      by_cases own : topic = l.topic
      · simp only [if_pos own]
        exact ingest_published payload [none]
      · simp only [if_neg own]
        rfl
    | other => rfl
    | failure => rfl

def tally (l : Listener) (turns : List IntakeTurn) (h : Health) : Health := turns.foldl (IntakeTurn.count l) h

theorem published_published (first second : List Snapshot) (h h' : Health) (asked asked' : List (Option Subscribe)) :
    (i.published first h asked).published second h' asked' = i.published (first ++ second) h' (asked ++ asked') := by
  unfold published
  simp only [Session.publishAll_withHealth, Session.publishAll_append, List.append_assoc]
  rfl

theorem run_published (reaches : ∀ request, .posts request ∈ turns → i.app.Reaches request) :
    i.run l turns = i.published (reports l turns) (tally l turns i.app.station.health)
      (turns.map (IntakeTurn.request? l)) := by
  induction turns generalizing i with
  | nil =>
    simp [run, reports, payloads, published, tally, Session.publishAll]
    rfl
  | cons turn turns ih =>
    have here := turn_published (l := l) turn fun request same => reaches request (same ▸ List.mem_cons_self ..)
    have there : ∀ request, .posts request ∈ turns → (i.turn l turn).app.Reaches request := by
      intro request member
      rw [here]
      obtain ⟨authorised, route, posted, size⟩ := reaches request (List.mem_cons_of_mem _ member)
      exact ⟨authorised, route, posted, size⟩
    have later := ih there
    rw [here] at later
    rw [reports_cons]
    exact (congrArg (fun i => run l i turns) here).trans (later.trans (published_published ..))

-- The link as it was left by the last turn that had to do with it.
def lastLink (turns : List IntakeTurn) (link : Link) : Link := (turns.filterMap IntakeTurn.link?).getLast?.getD link

def failures (turns : List IntakeTurn) : Nat := (turns.filterMap IntakeTurn.link?).count .reconnecting

theorem lastLink_cons (turn : IntakeTurn) (turns : List IntakeTurn) (link : Link) :
    lastLink (turn :: turns) link = lastLink turns (turn.link?.getD link) := by
  unfold lastLink
  cases here : turn.link? with
  | none => simp [here]
  | some now => simp [here, List.getLast?_cons]

-- What has a payload says nothing about the link.
theorem link?_payload {turn : IntakeTurn} {payload : Bytes} (carries : turn.payload? l = some payload) :
    turn.link? = none := by
  cases turn with
  | posts request => rfl
  | arrives arrival =>
    cases arrival with
    | message topic payload => rfl
    | _ => cases carries

theorem count_counts (l : Listener) (turn : IntakeTurn) (h : Health) :
    (turn.count l h).received = h.received + (turn.payload? l).toList.length ∧
    (turn.count l h).dropped = h.dropped + (turn.payload? l).toList.countP Snapshot.refused ∧
    (turn.count l h).reconnects = h.reconnects + turn.link?.toList.count .reconnecting ∧
    (turn.count l h).link = turn.link?.getD h.link := by
  unfold IntakeTurn.count
  cases carries : turn.payload? l with
  | some payload =>
    rw [link?_payload carries]
    simpa using h.ingested_counts payload
  | none =>
    cases turn.link? with
    | none => exact ⟨rfl, rfl, rfl, rfl⟩
    | some link => cases link <;> exact ⟨rfl, rfl, rfl, rfl⟩

theorem tally_counts (l : Listener) (turns : List IntakeTurn) (h : Health) :
    (tally l turns h).received = h.received + (payloads l turns).length ∧
    (tally l turns h).dropped = h.dropped + (payloads l turns).countP Snapshot.refused ∧
    (tally l turns h).reconnects = h.reconnects + failures turns ∧
    (tally l turns h).link = lastLink turns h.link := by
  induction turns generalizing h with
  | nil => exact ⟨rfl, rfl, rfl, rfl⟩
  | cons turn turns ih =>
    obtain ⟨received, dropped, reconnects, link⟩ := count_counts l turn h
    obtain ⟨received', dropped', reconnects', link'⟩ := ih (turn.count l h)
    have failed : failures (turn :: turns) = turn.link?.toList.count .reconnecting + failures turns := by
      simp [failures, List.filterMap_eq_flatMap_toList]
    refine ⟨received'.trans ?_, dropped'.trans ?_, reconnects'.trans ?_, link'.trans ?_⟩
    · rw [received, payloads_cons, List.length_append, Nat.add_assoc]
    · rw [dropped, payloads_cons, List.countP_append, Nat.add_assoc]
    · rw [reconnects, failed, Nat.add_assoc]
    · rw [link, lastLink_cons]

structure Accounted (l : Listener) (app : App) (turns : List IntakeTurn) (after : Intake) : Prop where
  -- The reports that can be decoded are published once each, in their order; apart from that only the counters change.
  published : after.app = { app with
    session := (app.session.publishAll (reports l turns)).1.withHealth after.app.station.health }
  seen : after.seen = (app.session.publishAll (reports l turns)).2
  received : after.app.station.health.received = (payloads l turns).length
  dropped : after.app.station.health.dropped = (payloads l turns).countP Snapshot.refused
  fewer : after.app.station.health.dropped ≤ after.app.station.health.received
  reconnects : after.app.station.health.reconnects = failures turns
  status : after.app.station.health.link.name = (lastLink turns .connecting).name
  -- Every session that is granted is asked for the topic, and nothing else is asked for.
  asked : after.asked = turns.map (IntakeTurn.request? l)

theorem run_accounted (l : Listener) {app : App} (fresh : app.station.health = .initial)
    (reaches : ∀ request, .posts request ∈ turns → app.Reaches request) :
    Accounted l app turns (run l ⟨app, [], []⟩ turns) := by
  have whole : run l ⟨app, [], []⟩ turns = published ⟨app, [], []⟩ (reports l turns) (tally l turns .initial)
      (turns.map (IntakeTurn.request? l)) := by
    rw [← fresh]
    exact run_published reaches
  obtain ⟨received, dropped, reconnects, link⟩ := tally_counts l turns .initial
  have received : (tally l turns .initial).received = (payloads l turns).length := received.trans (Nat.zero_add _)
  have dropped : (tally l turns .initial).dropped = (payloads l turns).countP Snapshot.refused :=
    dropped.trans (Nat.zero_add _)
  rw [whole]
  constructor
  case published => rfl
  case seen => rfl
  case received => exact received
  case dropped => exact dropped
  case fewer =>
    have fewer : (tally l turns .initial).dropped ≤ (tally l turns .initial).received := by
      rw [received, dropped]
      exact List.countP_le_length
    exact fewer
  case reconnects => exact reconnects.trans (Nat.zero_add _)
  case status => exact congrArg Link.name link
  case asked => rfl

-- Half of a disk is used, with a megabyte left.
def halfFull : Bytes := Utf8.ofString "\x7b\"node_id\":\"n\",\"usage\":\x7b\"/\":\x7b\"used_percent\":50,\"free\":1000000\x7d\x7d\x7d"

def halfFullReport : Request := { App.emptyReport with body := halfFull }

-- A session is granted, and reports come in it and in requests, good ones and bad ones; then the session is lost.
def evening : List IntakeTurn :=
  [.arrives .granted, .arrives (.message usageTopic []), .arrives (.message usageTopic halfFull),
    .posts App.emptyReport, .posts halfFullReport, .arrives .failure]

theorem accounted_evening : App.guarded.station.health = .initial ∧ App.guarded.Reaches App.emptyReport ∧
    App.guarded.Reaches halfFullReport ∧ (reports ⟨usageTopic, "c"⟩ evening).length = 2 ∧
    Accounted ⟨usageTopic, "c"⟩ App.guarded evening (run ⟨usageTopic, "c"⟩ ⟨App.guarded, [], []⟩ evening) := by
  have refused : App.guarded.Reaches App.emptyReport := ⟨by decide +kernel, by decide +kernel, rfl, by decide⟩
  have accepted : App.guarded.Reaches halfFullReport := ⟨by decide +kernel, by decide +kernel, rfl, by decide +kernel⟩
  refine ⟨rfl, refused, accepted, by decide +kernel, run_accounted _ rfl ?_⟩
  intro request posted
  have either : request = App.emptyReport ∨ request = halfFullReport := by simpa [evening] using posted
  rcases either with rfl | rfl
  · exact refused
  · exact accepted

end Intake

end DiskGauge
