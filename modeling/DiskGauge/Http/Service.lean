import DiskGauge.Http.MediaType
import DiskGauge.Http.Route
import DiskGauge.Preferences.Store
import DiskGauge.Station.Delivery

namespace DiskGauge.Http
open DiskGauge.Json

structure Request where
  method : String
  -- In origin form: a path, and a query if there is one.
  target : String
  -- The value of the key header, and of the content type.
  key : Option Bytes
  contentType : Option Bytes
  body : Bytes

structure Response where
  status : Nat
  contentType : Option String
  body : String
  allow : Option String
deriving DecidableEq, Repr

namespace Response

def bare (code : Nat) : Response := ⟨code, none, "", none⟩

def text (code : Nat) (body : String) : Response := ⟨code, some "text/plain; charset=utf-8", body, none⟩

def json (code : Nat) (body : Value) : Response := ⟨code, some "application/json", body.compact, none⟩

end Response

-- The session carries no clients of its own.
structure App where
  session : Session
  -- The only watcher of the preferences passes new thresholds on to the views.
  preferences : PreferencesDesk
  apiKey : Option String
  vitals : Vitals

namespace App

def start (preferences : PreferencesStore) (place : Place) (apiKey : Option String)
    (vitals : Vitals) (now : String) : App :=
  { session := .start preferences.thresholds now
    preferences := ⟨preferences, place, [preferences.watch]⟩
    apiKey, vitals }

-- Header values that can be compared as text: printable ASCII, blanks and tabs.
def headerText? (value : Bytes) : Option String :=
  if value.all fun b => (0x20 ≤ b && b < 0x7F) || b = 0x09 then
    some (String.ofList (value.map fun b => Char.ofNat b.toNat))
  else none

def keyAccepted (app : App) (request : Request) : Bool :=
  match app.apiKey with
  | none => false
  | some expected => (request.key.bind headerText?) = some expected

def isPublic (request : Request) : Bool := pathOf request.target.toList = chars "/health"

def authorised (app : App) (request : Request) : Bool :=
  isPublic request || app.keyAccepted request

def bodyLimit : Nat := 2097152

def tooLarge : Response := .text 413 "Failed to buffer the request body: length limit exceeded"

def readBody {α : Type} (read : Reader α) (request : Request) : Except Response α :=
  let isJson := match request.contentType with
    | some value => (headerText? value).isSome && isJsonType value
    | none => false
  if !isJson then
    .error (.text 415 "Expected request with `Content-Type: application/json`")
  else if bodyLimit < request.body.length then .error tooLarge
  else match readDocument read request.body with
    | .ok value => .ok value
    | .error e =>
      if e.isShape then
        .error (.text 422
          ("Failed to deserialize the JSON body into the target type: " ++ e.memberMessage))
      else .error (.text 400 ("Failed to parse the request body as JSON: " ++ e.memberMessage))

-- The node to bind a slot to; none when it is null or not given.
def readBinding : Reader (Option String) :=
  readRecord "struct BindRequest"
    (fun rest => do
      let (node, rest) ← readMembers member none rest
      return (node.join, rest))
    (readElement 0 "struct BindRequest with 1 element" (readOptional readText))
where
  member (name : String) (node : Option (Option String)) : Reader (Option (Option String)) :=
    fun rest =>
      if name = "node_id" then fill name node (readOptional readText) rest
      else skipMember name node rest

def misnamed : Response := .text 400 "Invalid URL: Invalid UTF-8 in `name`"

def withName (segment : List Char) (app : App) (act : String → Response × App) : Response × App :=
  match decodeName? segment with
  | some name => act name
  | none => (misnamed, app)

def onStation (app : App) (station : Station) : App :=
  { app with session := { app.session with station } }

def station (app : App) : Station := app.session.station

def viewOr404 : Option ViewPicture → Response
  | some picture => .json 200 picture.toJson
  | none => .bare 404

def createView (app : App) (name : String) : Response × App :=
  let (created, station) := app.station.ensureView app.session.now name
  match station.readView name with
  | some picture => (.json (if created then 201 else 200) picture.toJson, app.onStation station)
  | none => (.bare 500, app.onStation station)

def deleteView (app : App) (name : String) : Response × App :=
  let (removed, station) := app.station.removeView name
  (.bare (if removed then 204 else 404), app.onStation station)

def bindView (app : App) (name : String) (slot : Slot) (request : Request) : Response × App :=
  match readBody readBinding request with
  | .error response => (response, app)
  | .ok node =>
    let (picture, station, _) := app.station.bindView name slot node
    (viewOr404 picture, app.onStation station)

def changeAnswer : Except PreferencesFault Preferences → Response
  | .ok value => .json 200 value.toJson
  | .error (.invalidThreshold gigabytes) => .text 400 (PreferencesFault.invalidThreshold gigabytes).message
  | .error fault => .text 500 fault.message

def putPreferences (app : App) (request : Request) (answers : DiskAnswers) : Response × App :=
  match readBody Preferences.read request with
  | .error response => (response, app)
  | .ok wanted =>
    let (result, preferences) := app.preferences.set wanted.gigabytes answers
    (changeAnswer result, { app with preferences })

def report (app : App) (request : Request) : Response × App × List Event :=
  if bodyLimit < request.body.length then (tooLarge, app, [])
  else
    let (result, session, events) := Session.ingest (Session.publishWithin 0 0) .main request.body app.session
    let response : Response := match result with
      | .ok d => .json 200 (.object [("delivered", .ofNat d.delivered), ("failed", .ofNat d.failed)])
      | .error r => .text 422 r.message
    (response, { app with session }, events)

def postUsage (app : App) (request : Request) : Response × App :=
  let (response, app, _) := app.report request
  (response, app)

-- Combinations that no route has are answered like unknown paths.
def perform (app : App) (route : Route) (operation : Operation) (request : Request) (answers : DiskAnswers) :
    Response × App :=
  match route, operation with
  | .health, .read => (.text 200 "ok", app)
  | .systemHealth, .read => (.json 200 ((app.station.healthReport .main).toJson app.vitals), app)
  | .views, .read => (.json 200 (.list (app.station.readViews.map ViewPicture.toJson)), app)
  | .view segment, .read =>
    withName segment app fun name => (viewOr404 (app.station.readView name), app)
  | .view segment, .put => withName segment app app.createView
  | .view segment, .delete => withName segment app app.deleteView
  | .slot segment slot, .put =>
    withName segment app fun name => app.bindView name slot request
  | .preferences, .read => (.json 200 app.preferences.store.get.toJson, app)
  | .preferences, .put => app.putPreferences request answers
  | .usage, .post => app.postUsage request
  | _, _ => (.bare 404, app)

-- A request is looked at in a fixed order: key, route, method, name, content type, size, body.
def handle (app : App) (request : Request) (answers : DiskAnswers := app.preferences.place.answers) :
    Response × App :=
  let known := app.authorised request
  match Route.ofPath? (pathOf request.target.toList) with
  | none => (.bare (if known then 404 else 401), app)
  | some route =>
    match route.operation? request.method with
    | none => ({ Response.bare (if known then 405 else 401) with allow := some route.allow }, app)
    | some operation =>
      if known then
        let (response, app) := app.perform route operation request answers
        (if request.method = "HEAD" then { response with body := "" } else response, app)
      else (.bare 401, app)

def catchUp (app : App) : App :=
  match app.preferences.watchers with
  | watcher :: others =>
    if watcher.changed? app.preferences.store = some true then
      let noted := watcher.takeNote app.preferences.store
      { app with
        session := app.session.onStation fun s => (s.applyThresholds app.preferences.store.thresholds).1
        preferences := { app.preferences with watchers := noted :: others } }
    else app
  | [] => app

end App

end DiskGauge.Http
