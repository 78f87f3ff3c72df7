import DiskGauge.Mqtt.Link
import DiskGauge.Schema.Mismatch
import DiskGauge.Storage.Place
import DiskGauge.Toml.Document
import DiskGauge.Toml.Quotes

namespace DiskGauge.Probe

open Toml Schema

structure Broker where
  host : String
  port : Nat
  clientId : Option String
  -- In seconds.
  keepAlive : Nat
  topic : String
deriving DecidableEq, Repr

structure Config where
  broker : Broker
  node : String
  -- Seconds from one report to the next.
  interval : Nat
  mounts : List String
deriving DecidableEq, Repr

namespace Config

def clientId (c : Config) : String := c.broker.clientId.getD ("diskwatch-probe-" ++ c.node)

def standard (node : String) : Config :=
  ⟨⟨"127.0.0.1", 1883, none, 30, usageTopic⟩, node, 10, ["/"]⟩

end Config

def wording : Wording := ⟨"unit value", .marked⟩

inductive LoadFault where
  | io (fault : IoFault)
  | malformed
  | mismatch (mismatch : Mismatch)
deriving DecidableEq, Repr

inductive SaveFault where
  | io (fault : IoFault)
  -- The interval does not fit the integers of the format.
  | intervalTooLong
deriving DecidableEq, Repr

inductive StartFault where
  | load (fault : LoadFault)
  | save (fault : SaveFault)
deriving DecidableEq, Repr

def SaveFault.message : SaveFault → String
  | .io fault => fault.message
  | .intervalTooLong => "out-of-range value for u64 type"

def describe : Item → Found
  | .text value => .text value
  | .integer value => .integer value
  | .float value => .number value
  | .boolean value => .boolean value
  | .moment => .map
  | .array _ => .sequence
  | .table .. => .map
  | .tables _ => .sequence

def asText : Item → Except Mismatch String
  | .text value => .ok value
  | item => .error (.type (describe item) "a string")

def asNatural (bits : Nat) : Item → Except Mismatch Nat
  | .integer value =>
    if 0 ≤ value && value < twoTo bits then .ok value.toNat
    else .error (.value (.integer value) (expected bits))
  | item => .error (.type (describe item) (expected bits))
where
  expected (bits : Nat) : String := "u" ++ toString bits

def elements? : Item → Option (List Item)
  | .array elements => some elements
  | .tables entries => some (entries.map (.table .header))
  | _ => none

def asTexts (item : Item) : Except Mismatch (List String) :=
  match elements? item with
  | some elements => elements.mapM asText
  | none => .error (.type (describe item) "a sequence")

-- The members of a table; a moment passes as a table without any that is asked for.
def members? : Item → Option Members
  | .table _ members => some members
  | .moment => some []
  | _ => none

def required {α : Type} (name : String) : Option α → Except Mismatch α
  | some value => .ok value
  | none => .error (.missing name)

def field (elements : List Item) (index : Nat) (expected : String) : Except Mismatch Item :=
  match elements[index]? with
  | some item => .ok item
  | none => .error (.length index expected)

def foldMembers {σ : Type} (member : σ → String → Item → Except Mismatch σ) (start : σ)
    (members : Members) : Except Mismatch σ :=
  members.foldlM (fun s m => member s m.1 m.2) start

structure BrokerDraft where
  host : Option String
  port : Option Nat
  clientId : Option String
  keepAlive : Option Nat
  topic : Option String

namespace BrokerDraft

def member (d : BrokerDraft) (name : String) (item : Item) : Except Mismatch BrokerDraft :=
  if name = "broker_host" then do return { d with host := some (← asText item) }
  else if name = "broker_port" then do return { d with port := some (← asNatural 16 item) }
  else if name = "client_id" then do return { d with clientId := some (← asText item) }
  else if name = "keep_alive_secs" then do return { d with keepAlive := some (← asNatural 16 item) }
  else if name = "topic" then do return { d with topic := some (← asText item) }
  else .ok d

def finish (d : BrokerDraft) : Except Mismatch Broker := do
  let host ← required "broker_host" d.host
  let port ← required "broker_port" d.port
  let keepAlive ← required "keep_alive_secs" d.keepAlive
  return ⟨host, port, d.clientId, keepAlive, d.topic.getD usageTopic⟩

end BrokerDraft

def Broker.ofElements (elements : List Item) : Except Mismatch Broker := do
  let host ← asText (← field elements 0 expected)
  let port ← asNatural 16 (← field elements 1 expected)
  let clientId ← asText (← field elements 2 expected)
  let keepAlive ← asNatural 16 (← field elements 3 expected)
  let topic ← match elements[4]? with
    | some item => asText item
    | none => .ok usageTopic
  return ⟨host, port, some clientId, keepAlive, topic⟩
where
  expected : String := "struct MqttConfig with 5 elements"

def Broker.ofItem (item : Item) : Except Mismatch Broker :=
  match members? item, elements? item with
  | some members, _ => do
    (← foldMembers BrokerDraft.member ⟨none, none, none, none, none⟩ members).finish
  | none, some elements => Broker.ofElements elements
  | none, none => .error (.type (describe item) "struct MqttConfig")

structure Task where
  node : String
  interval : Nat
  mounts : List String

structure TaskDraft where
  node : Option String
  interval : Option Nat
  mounts : Option (List String)

namespace TaskDraft

def member (d : TaskDraft) (name : String) (item : Item) : Except Mismatch TaskDraft :=
  if name = "node_id" then do return { d with node := some (← asText item) }
  else if name = "interval_secs" then do return { d with interval := some (← asNatural 64 item) }
  else if name = "mounts" then do return { d with mounts := some (← asTexts item) }
  else .ok d

def finish (d : TaskDraft) : Except Mismatch Task := do
  let node ← required "node_id" d.node
  let interval ← required "interval_secs" d.interval
  let mounts ← required "mounts" d.mounts
  return ⟨node, interval, mounts⟩

end TaskDraft

def Task.ofElements (elements : List Item) : Except Mismatch Task := do
  let node ← asText (← field elements 0 expected)
  let interval ← asNatural 64 (← field elements 1 expected)
  let mounts ← asTexts (← field elements 2 expected)
  return ⟨node, interval, mounts⟩
where
  expected : String := "struct ProbeSettings with 3 elements"

def Task.ofItem (item : Item) : Except Mismatch Task :=
  match members? item, elements? item with
  | some members, _ => do
    (← foldMembers TaskDraft.member ⟨none, none, none⟩ members).finish
  | none, some elements => Task.ofElements elements
  | none, none => .error (.type (describe item) "struct ProbeSettings")

structure ConfigDraft where
  broker : Option Broker
  task : Option Task

def ConfigDraft.member (d : ConfigDraft) (name : String) (item : Item) :
    Except Mismatch ConfigDraft :=
  if name = "mqtt" then do return { d with broker := some (← Broker.ofItem item) }
  else if name = "probe" then do return { d with task := some (← Task.ofItem item) }
  else .ok d

namespace Config

def ofMembers (members : Members) : Except Mismatch Config := do
  let draft ← foldMembers ConfigDraft.member ⟨none, none⟩ members
  let broker ← required "mqtt" draft.broker
  let task ← required "probe" draft.task
  return ⟨broker, task.node, task.interval, task.mounts⟩

def ofText (text : String) : Except LoadFault Config :=
  match readDocument text with
  | none => .error .malformed
  | some members =>
    match ofMembers members with
    | .ok c => .ok c
    | .error mismatch => .error (.mismatch mismatch)

def load (place : Place) : Except LoadFault Config :=
  match place.readText with
  | .ok text => ofText text
  | .error fault => .error (.io fault)

def line (name : String) (value : List Char) : List Char :=
  name.toList ++ [' ', '=', ' '] ++ value ++ ['\n']

def brokerLines (b : Broker) : List Char :=
  line "broker_host" (writeText b.host.toList) ++
  line "broker_port" (Nat.toDigits 10 b.port) ++
  (match b.clientId with
    | some clientId => line "client_id" (writeText clientId.toList)
    | none => []) ++
  line "keep_alive_secs" (Nat.toDigits 10 b.keepAlive) ++
  line "topic" (writeText b.topic.toList)

def taskLines (c : Config) : List Char :=
  line "node_id" (writeText c.node.toList) ++
  line "interval_secs" (Nat.toDigits 10 c.interval) ++
  line "mounts" (writeList (c.mounts.map String.toList))

def text (c : Config) : String :=
  String.ofList ("[mqtt]\n".toList ++ brokerLines c.broker ++ "\n[probe]\n".toList ++ c.taskLines)

def text? (c : Config) : Except SaveFault String :=
  if c.interval < twoTo 63 then .ok c.text else .error .intervalTooLong

def save (c : Config) (place : Place) : Except SaveFault Place :=
  match place.makeParent with
  | .error fault => .error (.io fault)
  | .ok () =>
    match c.text? with
    | .error fault => .error fault
    | .ok text =>
      match place.write (Utf8.ofString text) with
      | .ok place => .ok place
      | .error fault => .error (.io fault)

def filePath : String := "diskwatch-probe/config.toml"

-- The first start keeps the configuration in the file, so that later starts find the same node.
def loadOrInit (newNode : String) (place : Place) : Except StartFault (Config × Place) :=
  if place.isThere then
    match load place with
    | .ok c => .ok (c, place)
    | .error fault => .error (.load fault)
  else
    match (standard newNode).save place with
    | .ok place => .ok (standard newNode, place)
    | .error fault => .error (.save fault)

end Config

end DiskGauge.Probe
