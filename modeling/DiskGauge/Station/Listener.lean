import DiskGauge.Mqtt.Link
import DiskGauge.Station.Delivery

namespace DiskGauge

structure Listener where
  topic : String
  clientId : String
deriving DecidableEq, Repr

namespace Listener

def connect (l : Listener) : Connect := ⟨l.clientId, 15, true⟩

-- The subscription is lost with the session, so every new one starts with it.
def subscribe (l : Listener) : Subscribe := ⟨[l.topic], .atLeastOnce⟩

-- Topics are compared as text, so wildcards match nothing but themselves.
def receive (l : Listener) (arrival : Arrival) (s : Session) :
    Option Subscribe × Session × List Event :=
  match arrival with
  | .granted => (some l.subscribe, s.onStation (·.mapHealth .connected), [])
  | .message topic payload =>
    if topic = l.topic then
      let (_, s, events) := Session.ingest (Session.publishWithin 0 0) .main payload s
      (none, s, events)
    else (none, s, [])
  | .other => (none, s, [])
  | .failure => (none, s.onStation (·.mapHealth .reconnecting), [])

inductive Reply where
  | nothing
  | subscribe (request : Subscribe)
  | acknowledge (acknowledgements : List Acknowledgement)
deriving DecidableEq, Repr

def react (l : Listener) (packet : Packet) (s : Session) : Reply × Session × List Event :=
  let (request, s, events) := l.receive packet.arrival s
  let reply := match packet, request with
    | .publish message, _ => .acknowledge message.qos.acknowledgements
    | _, some request => .subscribe request
    | _, none => .nothing
  (reply, s, events)

end Listener

end DiskGauge
