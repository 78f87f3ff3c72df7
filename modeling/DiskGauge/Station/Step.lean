import DiskGauge.Feed
import DiskGauge.Gauge.Core
import DiskGauge.Health

namespace DiskGauge

-- A station has two feeds that know nothing of each other; its views live on the main one.
inductive FeedName where
  | main
  | side
deriving DecidableEq, Repr

inductive Ending where
  | returns
  | errs
  | panics
deriving DecidableEq, Repr

def Ending.succeeds : Ending → Bool
  | .returns => true
  | _ => false

-- Callbacks that subscribe, unsubscribe and publish while they are called are data: their bodies are lists of steps.
inductive Step where
  -- Only the first calls run the body.
  | subscribe (feed : FeedName) (tag node : String) (ending : Ending) (body : List Step) (times : Nat)
  | unsubscribe (feed : FeedName) (tag : String)
  | compareHandles (a b : String)
  | count (feed : FeedName) (node : String)
  | publish (feed : FeedName) (snapshot : Snapshot)
  | ingest (feed : FeedName) (payload : Bytes)
  | newRenderer (feed : FeedName) (name : String) (thresholds : Thresholds)
  | bindRenderer (name : String) (slot : Slot) (node : Option String)
  | setThresholds (name : String) (thresholds : Thresholds)
  | dispose (name : String)
  | createView (name : String)
  | removeView (name : String)
  | bindView (name : String) (slot : Slot) (node : Option String)
  | showView (name : String)
  | countViews
  | applyThresholds (thresholds : Thresholds)
  | connected
  | reconnecting
  | recordEvent
  | recordDropped
  | health (feed : FeedName)

mutual

-- The bodies of the callbacks that a step registers count, too.
def Step.runs : Step → Nat
  | .subscribe _ _ _ _ body times => times * (1 + runsOfAll body)
  | _ => 0

def runsOfAll : List Step → Nat
  | [] => 0
  | step :: rest => step.runs + runsOfAll rest

end

structure Client where
  -- The place of this registration among all that clients of the station made.
  serial : Nat
  tag : String
  ending : Ending
  body : List Step
  times : Nat

inductive Callback where
  | gauge (key : Nat)
  | client (client : Client)

end DiskGauge
