import DiskGauge.Text.Basic

namespace DiskGauge

inductive Qos where
  | atMostOnce
  | atLeastOnce
  | exactlyOnce
deriving DecidableEq, Repr

def Qos.level : Qos → Nat
  | .atMostOnce => 0
  | .atLeastOnce => 1
  | .exactlyOnce => 2

structure Message where
  topic : String
  payload : Bytes
  qos : Qos
  retain : Bool
deriving DecidableEq, Repr

def usageTopic : String := "diskwatch/nodes/disk-usage@v1"

structure Connect where
  clientId : String
  -- In seconds; zero turns it off.
  keepAlive : Nat
  cleanSession : Bool
deriving DecidableEq, Repr

def Connect.protocol : String := "MQTT"
def Connect.level : Nat := 4

structure Subscribe where
  topics : List String
  qos : Qos
deriving DecidableEq, Repr

inductive Packet where
  -- The answer to a request for a session; only code zero grants it.
  | connack (code : Nat)
  | publish (message : Message)
  -- Bytes that are no packet, one that may not stand here, or one above the size limit.
  | broken
  | closed
deriving DecidableEq, Repr

inductive Acknowledgement where
  | puback
  | pubrec
deriving DecidableEq, Repr

def Acknowledgement.name : Acknowledgement → String
  | .puback => "puback"
  | .pubrec => "pubrec"

def Qos.acknowledgements : Qos → List Acknowledgement
  | .atMostOnce => []
  | .atLeastOnce => [.puback]
  | .exactlyOnce => [.pubrec]

inductive Arrival where
  | granted
  | message (topic : String) (payload : Bytes)
  | other
  | failure
deriving DecidableEq, Repr

def Packet.arrival : Packet → Arrival
  | .connack 0 => .granted
  | .connack _ => .failure
  | .publish message => .message message.topic message.payload
  | .broken => .failure
  | .closed => .failure

end DiskGauge
