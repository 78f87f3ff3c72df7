import DiskGauge.Json.Value
import DiskGauge.Mqtt.Link

namespace DiskGauge.Bench
open DiskGauge.Json

-- A dropped receiver takes no more messages.
structure Inbox where
  waiting : List Message
  dropped : Bool
deriving DecidableEq, Repr

structure Client where
  -- Oldest first.
  published : List Message
  subscriptions : List String
  -- Of all receivers ever set up, the newest first.
  inboxes : List Inbox
deriving DecidableEq, Repr

inductive Fault where
  | json (error : Json.Error)
  | text (message : String)

def Fault.message : Fault → String
  | .json error => error.message
  | .text message => message

inductive Received where
  | message (m : Message)
  | noReceiver
  | empty

namespace Client

def new : Client := ⟨[], [], []⟩

def setupReceiver (c : Client) : Client := { c with inboxes := ⟨[], false⟩ :: c.inboxes }

def hasReceiver (c : Client) : Bool :=
  match c.inboxes with
  | inbox :: _ => !inbox.dropped
  | [] => false

def dropReceiver (c : Client) : Client :=
  match c.inboxes with
  | inbox :: others => { c with inboxes := { inbox with dropped := true } :: others }
  | [] => c

def publish (c : Client) (m : Message) : Client := { c with published := c.published ++ [m] }

def subscribe (c : Client) (topic : String) : Client :=
  { c with subscriptions := c.subscriptions ++ [topic] }

-- A message from outside goes to the newest receiver, and nowhere if there never was one.
def receive (c : Client) (m : Message) : Except Fault Client :=
  match c.inboxes with
  | [] => .ok c
  | inbox :: others =>
    if inbox.dropped then .error (.text "Send error: channel closed")
    else .ok { c with inboxes := { inbox with waiting := inbox.waiting ++ [m] } :: others }

def simulateIncoming (c : Client) (topic : String) (payload : Bytes) : Except Fault Client :=
  c.receive ⟨topic, payload, .atLeastOnce, false⟩

def take (c : Client) : Received × Client :=
  match c.inboxes with
  | [] => (.noReceiver, c)
  | inbox :: others =>
    if inbox.dropped then (.noReceiver, c)
    else match inbox.waiting with
      | [] => (.empty, c)
      | m :: rest => (.message m, { c with inboxes := { inbox with waiting := rest } :: others })

def messagesOn (c : Client) (topic : String) : List Message :=
  c.published.filter fun m => m.topic = topic

def lastJson (c : Client) (topic : String) : Except Fault (Option Value) :=
  match (c.messagesOn topic).getLast? with
  | none => .ok none
  | some m =>
    match readDocument readValue m.payload with
    | .ok value => .ok (some value)
    | .error e => .error (.json e)

-- Forgets what was published and subscribed; receivers keep their messages.
def clear (c : Client) : Client := { c with published := [], subscriptions := [] }

end Client

def usageEvent (node : String) (mounts : List (String × Double × Int)) : Value :=
  let entry (percent : Double) (free : Int) : Value :=
    .object [("free", .ofInt free), ("used_percent", .ofDouble percent)]
  .object [("node_id", .text node),
    ("usage", .object (Keyed.ofList (mounts.map fun m => (m.1, entry m.2.1 m.2.2))))]

end DiskGauge.Bench
