import DiskGauge.Mqtt.Link
import DiskGauge.Storage.Place
import DiskGauge.Text.Basic
import DiskGauge.Yaml.Meaning

namespace DiskGauge
open Yaml Schema

structure BrokerSettings where
  host : String
  port : Nat
  topic : String
  clientId : String
deriving DecidableEq, Repr

structure HttpSettings where
  bind : String
  apiKey : Option String
deriving DecidableEq, Repr

structure Settings where
  broker : BrokerSettings
  http : HttpSettings
  preferencesFile : String
  views : List String
deriving DecidableEq, Repr

namespace Settings

def standardClientId : String := "diskwatch-kernel"
def standardBroker : BrokerSettings := ⟨"localhost", 1883, usageTopic, standardClientId⟩
def standardHttp : HttpSettings := ⟨"0.0.0.0:8080", none⟩
def standardPreferencesFile : String := "./data/preferences.json"
def standard : Settings := ⟨standardBroker, standardHttp, standardPreferencesFile, []⟩

-- The configured key goes before the one of the environment. An empty key is none.
def resolveKey (s : Settings) (environment : Option String) : Option String :=
  (s.http.apiKey.filter (· ≠ "")).or (environment.filter (· ≠ ""))

-- The name of the member, empty for the document itself.
structure Location where
  name : String
deriving DecidableEq, Repr

namespace Location

def root : Location := ⟨""⟩

-- Of a member whose name is given by an alias only a question mark is known.
def member (p : Location) (name : Option String) : Location :=
  let name := name.getD "?"
  ⟨if p.name.isEmpty then name else p.name ++ "." ++ name⟩

def item (p : Location) (index : Nat) : Location := ⟨p.name ++ "[" ++ toString index ++ "]"⟩

end Location

structure Fault where
  path : Location
  mismatch : Mismatch
  place : Mark
deriving DecidableEq, Repr

def Fault.message (f : Fault) : String :=
  (if f.path.name.isEmpty then "" else f.path.name ++ ": ") ++ f.mismatch.message wording ++
  (if f.place.line = 0 && f.place.column = 0 then ""
    else " at line " ++ toString (f.place.line + 1) ++ " column " ++ toString (f.place.column + 1))

structure Value where
  node : Node
  anchors : Anchors
  path : Location

namespace Value

-- No anchor stands for an alias.
def target (v : Value) : Node :=
  match v.node with
  | .alias id => (v.anchors.resolve? id).getD v.node
  | node => node

def place (v : Value) : Mark :=
  match v.target with
  | .scalar place .. => place
  | .sequence place _ => place
  | .mapping place _ => place
  | .alias _ => .start

def fault {α : Type} (v : Value) (mismatch : Mismatch) : Except Fault α :=
  .error ⟨v.path, mismatch, v.place⟩

def refuse {α : Type} (v : Value) (expected : String) : Except Fault α :=
  v.fault (match v.target with
    | .scalar _ tag style text => refuseScalar expected tag style text
    | .sequence .. => .type .sequence expected
    | .mapping .. => .type .map expected
    | .alias _ => .type .empty expected)

-- Every scalar is a text, whatever else it could mean.
def asText (v : Value) : Except Fault String :=
  match v.target with
  | .scalar _ _ _ text => .ok text
  | _ => v.refuse "a string"

def readsInteger (tag : Option Bytes) (style : Style) : Bool :=
  match style with
  | .plain => true
  | .literal => tag = some Tag.integer
  | .other => false

def asPort (v : Value) : Except Fault Nat :=
  match v.target with
  | .scalar _ tag style text =>
    match (if readsInteger tag style then natural? 64 text.toList else none) with
    | some value =>
      if value < twoTo 16 then .ok value else v.fault (.value (.integer value) "u16")
    | none => v.refuse "u16"
  | _ => v.refuse "u16"

-- The place of a tag that does not fit is that of the table around it.
def asOptionalText (v table : Value) : Except Fault (Option String) :=
  match v.target with
  | .scalar _ tag .plain text =>
    match tag with
    | none => .ok (if text.isEmpty || isEmptyWord text then none else some text)
    | some tag =>
      if tag = Tag.empty then
        if isEmptyWord text then .ok none else table.fault (.value (.text text) "null")
      else .ok (some text)
  | _ => v.asText.map some

def isLeftOut : Node → Bool
  | .scalar _ _ .plain text => text.isEmpty
  | _ => false

-- Nothing at all is an empty list.
def asItems (v : Value) : Except Fault (List Value) :=
  match v.target with
  | .sequence _ items => .ok (items.mapIdx fun i node => ⟨node, v.anchors, v.path.item i⟩)
  | node => if isLeftOut node then .ok [] else v.refuse "a sequence"

def asMembers (v : Value) (expected : String) : Except Fault (List (Node × Node)) :=
  match v.target with
  | .mapping _ members => .ok members
  | node => if isLeftOut node then .ok [] else v.refuse expected

def member (v : Value) (name value : Node) : Except Fault (String × Value) :=
  let key : Value := ⟨name, v.anchors, v.path⟩
  match key.target with
  | .scalar _ _ _ text =>
    let known := match name with
      | .alias _ => none
      | _ => some text
    .ok (text, ⟨value, v.anchors, v.path.member known⟩)
  | _ => key.refuse "field identifier"

def foldMembers {σ : Type} (v : Value) (expected : String)
    (member : σ → String → Value → Except Fault σ) (start : σ) : Except Fault σ := do
  (← v.asMembers expected).foldlM (fun s entry => do
    let (name, value) ← v.member entry.1 entry.2
    member s name value) start

def fill {α : Type} (v : Value) (name : String) (place : Option α) (read : Except Fault α) :
    Except Fault (Option α) :=
  match place with
  | some _ => v.fault (.duplicate name)
  | none => read.map some

def require {α : Type} (v : Value) (name : String) : Option α → Except Fault α
  | some value => .ok value
  | none => v.fault (.missing name)

end Value

structure BrokerDraft where
  host : Option String
  port : Option Nat
  topic : Option String
  clientId : Option String

def readBroker (v : Value) : Except Fault BrokerSettings := do
  let d ← v.foldMembers "struct MqttConf" member ⟨none, none, none, none⟩
  let host ← v.require "host" d.host
  let port ← v.require "port" d.port
  return ⟨host, port, d.topic.getD usageTopic, d.clientId.getD standardClientId⟩
where
  member (d : BrokerDraft) (name : String) (value : Value) : Except Fault BrokerDraft := do
    if name = "host" then return { d with host := ← v.fill name d.host value.asText }
    else if name = "port" then return { d with port := ← v.fill name d.port value.asPort }
    else if name = "topic" then return { d with topic := ← v.fill name d.topic value.asText }
    else if name = "client_id" then
      return { d with clientId := ← v.fill name d.clientId value.asText }
    else return d

structure HttpDraft where
  bind : Option String
  apiKey : Option (Option String)

def readHttp (v : Value) : Except Fault HttpSettings := do
  let d ← v.foldMembers "struct HttpConf" member ⟨none, none⟩
  return ⟨← v.require "bind" d.bind, d.apiKey.join⟩
where
  member (d : HttpDraft) (name : String) (value : Value) : Except Fault HttpDraft := do
    if name = "bind" then return { d with bind := ← v.fill name d.bind value.asText }
    else if name = "api_key" then
      return { d with apiKey := ← v.fill name d.apiKey (value.asOptionalText v) }
    else return d

structure SettingsDraft where
  broker : Option BrokerSettings
  http : Option HttpSettings
  preferencesFile : Option String
  views : Option (List String)

def readSettings (v : Value) : Except Fault Settings := do
  let d ← v.foldMembers "struct KernelConfig" member ⟨none, none, none, none⟩
  return ⟨d.broker.getD standardBroker, d.http.getD standardHttp,
    d.preferencesFile.getD standardPreferencesFile, d.views.getD []⟩
where
  member (d : SettingsDraft) (name : String) (value : Value) : Except Fault SettingsDraft := do
    if name = "mqtt" then return { d with broker := ← v.fill name d.broker (readBroker value) }
    else if name = "http" then return { d with http := ← v.fill name d.http (readHttp value) }
    else if name = "preferences_file" then
      return { d with preferencesFile := ← v.fill name d.preferencesFile value.asText }
    else if name = "views" then
      return { d with views := ← v.fill name d.views (do (← value.asItems).mapM Value.asText) }
    else return d

inductive LoadFault where
  | io (fault : IoFault)
  | malformed
  | settings (fault : Fault)
deriving DecidableEq, Repr

def LoadFault.message : LoadFault → String
  | .io fault => "IO error: " ++ fault.message
  | .malformed => "invalid config: not a YAML document"
  | .settings fault => "invalid config: " ++ fault.message

def ofText (text : String) : Except LoadFault Settings :=
  if text.toList.all Text.isWhiteSpace then .ok standard
  else match readDocument text with
    | none => .error .malformed
    | some none => .ok standard
    | some (some document) =>
      match readSettings ⟨document.root, document.anchors, .root⟩ with
      | .ok s => .ok s
      | .error fault => .error (.settings fault)

def read (place : Place) : Except LoadFault Settings :=
  match place.readText with
  | .ok text => ofText text
  | .error fault => .error (.io fault)

def load (place : Place) : Settings :=
  match read place with
  | .ok s => s
  | .error _ => standard

end Settings

end DiskGauge
