import DiskGauge.Proofs.Station.Moves

namespace DiskGauge

def Callback.client? : Callback → Option Client
  | .client c => some c
  | .gauge _ => none

-- Gauges take every snapshot; a client says itself how it ends.
def Callback.succeeds : Callback → Bool
  | .gauge _ => true
  | .client c => c.ending.succeeds

def Step.publishes? : Step → Option (FeedName × Snapshot)
  | .publish feed snapshot => some (feed, snapshot)
  | .ingest feed payload => (Snapshot.decode payload).toOption.map (feed, ·)
  | _ => none

def Delivery.tally (rs : List (Registration Callback)) : Delivery :=
  ⟨rs.countP (·.callback.succeeds), rs.countP (!·.callback.succeeds)⟩

namespace Session

def due (s : Session) (feed : FeedName) (snapshot : Snapshot) : List (Registration Callback) :=
  (s.station.feed feed).registrations snapshot.node

mutual

-- A step of a body: what it does by itself, and the delivery it starts.
inductive Performs : Nat → Step → Session → Answer → List Move → Prop where
  | quiet {depth step s} : step.publishes? = none →
      Performs depth step s (perform idle step s).1 [.step step]
  | publishes {depth step s feed snapshot ms} : step.publishes? = some (feed, snapshot) →
      Delivers depth snapshot ((s.move (.step step)).1.due feed snapshot) (s.move (.step step)).1 ms →
      Performs depth step s (.delivery (.tally ((s.move (.step step)).1.due feed snapshot)))
        (.step step :: ms)

-- A body, each of its steps followed by the answer to it.
inductive Runs : Nat → String → List Step → Session → List Move → Prop where
  | done {depth tag s} : Runs depth tag [] s []
  | step {depth tag step rest s answer ms later} : Performs depth step s answer ms →
      Runs depth tag rest (moves ms s).1 later →
      Runs depth tag (step :: rest) s (ms ++ .answer tag answer :: later)

-- A delivery to a list of registrations, which is never looked at again. A client whose calls are
-- spent is called all the same, but runs nothing any more. How a client ends makes no difference.
inductive Delivers : Nat → Snapshot → List (Registration Callback) → Session → List Move → Prop where
  | done {depth snapshot s} : Delivers depth snapshot [] s []
  | gauge {depth snapshot id key rest s later} :
      Delivers depth snapshot rest (s.move (.receive key snapshot)).1 later →
      Delivers depth snapshot (⟨id, .gauge key⟩ :: rest) s (.receive key snapshot :: later)
  | spent {depth snapshot id c rest s later} : ¬s.callsOf c.serial < c.times →
      Delivers depth snapshot rest (s.move (.call depth c snapshot)).1 later →
      Delivers depth snapshot (⟨id, .client c⟩ :: rest) s (.call depth c snapshot :: later)
  | ready {depth snapshot id c rest s ms later} : s.callsOf c.serial < c.times →
      Runs (depth + 1) c.tag c.body (s.move (.call depth c snapshot)).1 ms →
      Delivers depth snapshot rest (moves ms (s.move (.call depth c snapshot)).1).1 later →
      Delivers depth snapshot (⟨id, .client c⟩ :: rest) s (.call depth c snapshot :: (ms ++ later))

end

end Session

def Move.callAt? (depth : Nat) : Move → Option (Client × Snapshot)
  | .call d c snapshot => if d = depth then some (c, snapshot) else none
  | _ => none

-- The clients that deliveries nested so deep have called, and with what.
def callsAt (depth : Nat) (ms : List Move) : List (Client × Snapshot) :=
  ms.filterMap (Move.callAt? depth)

theorem callsAt_append (depth : Nat) (a b : List Move) :
    callsAt depth (a ++ b) = callsAt depth a ++ callsAt depth b :=
  List.filterMap_append ..

@[simp] theorem callsAt_step {depth : Nat} {step : Step} {ms : List Move} :
    callsAt depth (.step step :: ms) = callsAt depth ms := rfl

@[simp] theorem callsAt_receive {depth key : Nat} {snapshot : Snapshot} {ms : List Move} :
    callsAt depth (.receive key snapshot :: ms) = callsAt depth ms := rfl

@[simp] theorem callsAt_answer {depth : Nat} {tag : String} {answer : Answer} {ms : List Move} :
    callsAt depth (.answer tag answer :: ms) = callsAt depth ms := rfl

theorem callsAt_call_self {depth : Nat} {c : Client} {snapshot : Snapshot} {ms : List Move} :
    callsAt depth (.call depth c snapshot :: ms) = (c, snapshot) :: callsAt depth ms := by
  simp [callsAt, Move.callAt?]

theorem callsAt_call_other {depth other : Nat} (different : other ≠ depth) {c : Client}
    {snapshot : Snapshot} {ms : List Move} :
    callsAt depth (.call other c snapshot :: ms) = callsAt depth ms := by
  simp [callsAt, Move.callAt?, different]

namespace Session

mutual

-- What is nested in a delivery makes no calls at the levels around it.
theorem Performs.deeper {depth level : Nat} {step : Step} {s : Session} {answer : Answer}
    {ms : List Move} (below : level < depth) : Performs depth step s answer ms → callsAt level ms = []
  | .quiet _ => rfl
  | .publishes _ delivers => by
    rw [callsAt_step]
    exact delivers.deeper below

theorem Runs.deeper {depth level : Nat} {tag : String} {steps : List Step} {s : Session}
    {ms : List Move} (below : level < depth) : Runs depth tag steps s ms → callsAt level ms = []
  | .done => rfl
  | .step performs runs => by
    rw [callsAt_append, performs.deeper below, callsAt_answer, runs.deeper below]
    rfl

theorem Delivers.deeper {depth level : Nat} {snapshot : Snapshot} {rs : List (Registration Callback)}
    {s : Session} {ms : List Move} (below : level < depth) :
    Delivers depth snapshot rs s ms → callsAt level ms = []
  | .done => rfl
  | .gauge delivers => by
    rw [callsAt_receive]
    exact delivers.deeper below
  | .spent _ delivers => by
    rw [callsAt_call_other (Nat.ne_of_gt below)]
    exact delivers.deeper below
  | .ready _ runs delivers => by
    rw [callsAt_call_other (Nat.ne_of_gt below), callsAt_append,
      runs.deeper (Nat.lt_succ_of_lt below), delivers.deeper below]
    rfl

end

theorem Delivers.calls {depth : Nat} {snapshot : Snapshot} {rs : List (Registration Callback)}
    {s : Session} {ms : List Move} :
    Delivers depth snapshot rs s ms →
      callsAt depth ms = (rs.filterMap (·.callback.client?)).map (·, snapshot)
  | .done => rfl
  | .gauge delivers => by
    rw [callsAt_receive, delivers.calls]
    rfl
  | .spent _ delivers => by
    rw [callsAt_call_self, delivers.calls]
    rfl
  | .ready _ runs delivers => by
    rw [callsAt_call_self, callsAt_append, runs.deeper (Nat.lt_succ_self _), delivers.calls]
    rfl

end Session

end DiskGauge
