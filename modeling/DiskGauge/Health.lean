import DiskGauge.Json.Value

namespace DiskGauge
open DiskGauge.Json

inductive Link where
  | connecting
  | connected
  | reconnecting
deriving DecidableEq, Repr

def Link.name : Link → String
  | .connecting => "connecting"
  | .connected => "connected"
  | .reconnecting => "reconnecting"

-- The counters have 64 bits and are taken not to overflow.
structure Health where
  received : Nat
  dropped : Nat
  reconnects : Nat
  link : Link
deriving DecidableEq, Repr

namespace Health

def initial : Health := ⟨0, 0, 0, .connecting⟩

def recordEvent (h : Health) : Health := { h with received := h.received + 1 }
def recordDropped (h : Health) : Health := { h with dropped := h.dropped + 1 }
def connected (h : Health) : Health := { h with link := .connected }
def reconnecting (h : Health) : Health :=
  { h with reconnects := h.reconnects + 1, link := .reconnecting }

end Health

structure Vitals where
  uptime : Nat
  memory : Number
deriving DecidableEq, Repr

structure HealthReport where
  -- The numbers of views and subscriptions are told in 32 bits, which they are taken to fit.
  views : Nat
  subscriptions : Nat
  health : Health
deriving DecidableEq, Repr

def HealthReport.toJson (r : HealthReport) (vitals : Vitals) : Value :=
  .object [("uptime_seconds", .ofNat vitals.uptime), ("views", .ofNat r.views),
    ("active_subscriptions", .ofNat r.subscriptions), ("events_received", .ofNat r.health.received),
    ("events_dropped", .ofNat r.health.dropped), ("memory_usage_mb", .number vitals.memory),
    ("mqtt_status", .text r.health.link.name), ("mqtt_reconnects", .ofNat r.health.reconnects)]

end DiskGauge
