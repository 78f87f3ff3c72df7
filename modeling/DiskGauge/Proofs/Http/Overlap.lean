import DiskGauge.Proofs.Http.Quiet
import DiskGauge.Proofs.Station.Hosting

namespace DiskGauge

def ViewPicture.undated (v : ViewPicture) : ViewPicture := { v with created := "" }

namespace Http

inductive Reply where
  | views (pictures : List ViewPicture)
  | view (code : Nat) (picture : ViewPicture)
  | bare (code : Nat)
  -- A refusal that does not come to the board.
  | refusal (response : Response)
deriving DecidableEq

namespace Reply

def response : Reply → Response
  | .views pictures => .json 200 (.list (pictures.map ViewPicture.toJson))
  | .view code picture => .json code picture.toJson
  | .bare code => .bare code
  | .refusal response => response

def undated : Reply → Reply
  | .views pictures => .views (pictures.map ViewPicture.undated)
  | .view code picture => .view code picture.undated
  | other => other

def found (code missing : Nat) : Option ViewPicture → Reply
  | some picture => .view code picture
  | none => .bare missing

-- The reply to a request that made sure of a view and then read it.
def ofCreation (created : Bool) : Option ViewPicture → Reply := found (if created then 201 else 200) 500

end Reply

inductive ViewCall where
  | list
  | get (name : String)
  | create (name : String)
  | delete (name : String)
  | bind (name : String) (slot : Slot) (node : Option String)
  | refused (response : Response)
deriving DecidableEq

namespace ViewCall

def named (segment : List Char) (act : String → ViewCall) : ViewCall :=
  match decodeName? segment with
  | some name => act name
  | none => .refused App.misnamed

def ofOperation (request : Request) : Route → Operation → ViewCall
  | .views, .read => .list
  | .view segment, .read => named segment .get
  | .view segment, .put => named segment .create
  | .view segment, .delete => named segment .delete
  | .slot segment slot, .put =>
    named segment fun name =>
      match App.readBody App.readBinding request with
      | .ok node => .bind name slot node
      | .error response => .refused response
  | _, _ => .refused (.bare 404)

def of (request : Request) : ViewCall :=
  match Route.ofPath? (pathOf request.target.toList) with
  | none => .refused (.bare 404)
  | some route =>
    match route.operation? request.method with
    | none => .refused { Response.bare 405 with allow := some route.allow }
    | some operation => ofOperation request route operation

def perform (call : ViewCall) (now : String) (s : Station) : Reply × Station :=
  match call with
  | .list => (.views s.readViews, s)
  | .get name => (.found 200 404 (s.readView name), s)
  | .create name =>
    let (created, s) := s.ensureView now name
    (.ofCreation created (s.readView name), s)
  | .delete name =>
    let (removed, s) := s.removeView name
    (.bare (if removed then 204 else 404), s)
  | .bind name slot node =>
    let (picture, s, _) := s.bindView name slot node
    (.found 200 404 picture, s)
  | .refused response => (.refusal response, s)

end ViewCall

theorem perform_missing {s : Station} {name : String} (missing : s.view? name = none) (now : String) :
    (ViewCall.create name).perform now s =
      (.view 201 (.newborn name s.thresholds now), (s.ensureView now name).2) := by
  obtain ⟨created, read⟩ := Station.ensureView_missing missing now
  unfold ViewCall.perform
  dsimp only
  rw [created, read]
  rfl

theorem perform_found {s : Station} {name : String} {picture : ViewPicture} (read : s.readView name = some picture)
    (now : String) : (ViewCall.create name).perform now s = (.view 200 picture, s) := by
  obtain ⟨view, found, _⟩ := Option.map_eq_some_iff.mp read
  unfold ViewCall.perform
  dsimp only
  rw [Station.ensureView_found found, read]
  rfl

def Route.ofViews : Route → Bool
  | .views => true
  | .view _ => true
  | .slot _ _ => true
  | _ => false

namespace App
variable {app other : App} {request : Request} {route : Route}

-- A request with the key to one of the views, or to all of them.
structure OnViews (app : App) (request : Request) : Prop where
  authorised : app.authorised request = true
  route : (Route.ofPath? (pathOf request.target.toList)).any Route.ofViews = true
  method : request.method ∈ ["GET", "PUT", "DELETE"]

theorem OnViews.congr (on : app.OnViews request) (same : other.apiKey = app.apiKey) : other.OnViews request := by
  refine ⟨?_, on.route, on.method⟩
  rw [← on.authorised]
  unfold App.authorised keyAccepted
  rw [same]

def answer (app : App) (call : ViewCall) : Response × App :=
  let (reply, station) := call.perform app.session.now app.station
  (reply.response, app.onStation station)

theorem response_found (picture : Option ViewPicture) : (Reply.found 200 404 picture).response = viewOr404 picture := by
  cases picture <;> rfl

theorem createView_answer (app : App) (name : String) : app.createView name = app.answer (.create name) := by
  unfold createView answer ViewCall.perform
  dsimp only
  cases (app.station.ensureView app.session.now name).2.readView name <;> rfl

theorem withName_answer {segment : List Char} {act : String → Response × App} {call : String → ViewCall}
    (acts : ∀ name, act name = app.answer (call name)) :
    withName segment app act = app.answer (.named segment call) := by
  unfold ViewCall.named
  rcases withName_cases segment with ⟨name, decoded, known⟩ | ⟨undecoded, unknown⟩
  · rw [known, decoded]
    exact acts name
  · rw [unknown, undecoded]
    rfl

theorem perform_answer (app : App) (request : Request) (answers : DiskAnswers) (views : route.ofViews = true)
    (operation : Operation) : app.perform route operation request answers = app.answer (.ofOperation request route operation) := by
  cases route with
  | views => cases operation <;> rfl
  | view segment =>
    cases operation with
    | read => exact withName_answer fun name => Prod.ext (response_found _).symm rfl
    | put => exact withName_answer app.createView_answer
    | delete => exact withName_answer fun _ => rfl
    | post => rfl
  | slot segment slot =>
    cases operation with
    | put =>
      refine withName_answer fun name => ?_
      unfold bindView
      cases readBody readBinding request with
      | error response => rfl
      | ok node => exact Prod.ext (response_found _).symm rfl
    | _ => rfl
  | _ => cases views

theorem handle_answer (on : app.OnViews request) (answers : DiskAnswers) :
    app.handle request answers = app.answer (.of request) := by
  obtain ⟨authorised, views, method⟩ := on
  have body : request.method ≠ "HEAD" := by
    intro head
    rw [head] at method
    exact absurd method (by decide)
  unfold handle ViewCall.of
  cases known : Route.ofPath? (pathOf request.target.toList) with
  | none =>
    rw [known] at views
    cases views
  | some route =>
    rw [known] at views
    dsimp only
    cases allowed : route.operation? request.method with
    | none =>
      rw [authorised]
      rfl
    | some operation =>
      dsimp only
      rw [if_pos authorised, if_neg body]
      exact app.perform_answer request answers views operation

end App

inductive CallStage where
  | asked
  -- The view is there, and has still to be read.
  | ensured (name : String) (created : Bool)
  | answered (reply : Reply)
deriving DecidableEq

structure Caller where
  call : ViewCall
  stage : CallStage
deriving DecidableEq

-- A board with the requests that are under way.
structure Crowd where
  board : Station
  callers : List Caller

namespace Crowd

def begin (board : Station) (requests : List Request) : Crowd :=
  ⟨board, requests.map fun request => ⟨.of request, .asked⟩⟩

def move (c : Crowd) (i : Nat) (call : ViewCall) (board : Station) (stage : CallStage) : Crowd :=
  ⟨board, c.callers.set i ⟨call, stage⟩⟩

def turn (c : Crowd) (i : Nat) (now : String) : Crowd :=
  match c.callers[i]? with
  | none => c
  | some ⟨call, stage⟩ =>
    match stage, call with
    | .asked, .create name =>
      let (created, board) := c.board.ensureView now name
      c.move i call board (.ensured name created)
    | .asked, call =>
      let (reply, board) := call.perform now c.board
      c.move i call board (.answered reply)
    | .ensured name created, call =>
      c.move i call c.board (.answered (.ofCreation created (c.board.readView name)))
    | .answered _, _ => c

def run (c : Crowd) (schedule : List (Nat × String)) : Crowd := schedule.foldl (fun c step => c.turn step.1 step.2) c

def reply? (c : Crowd) (i : Nat) : Option Reply :=
  match c.callers[i]? with
  | some ⟨_, .answered reply⟩ => some reply
  | _ => none

def Finished (c : Crowd) : Prop := ∀ i < c.callers.length, (c.reply? i).isSome = true

instance {c : Crowd} : Decidable c.Finished := inferInstanceAs (Decidable (∀ i < c.callers.length, _))

variable {c : Crowd} {i j : Nat} {call : ViewCall} {stage : CallStage} {now later : String} {name : String}

theorem reply?_move {caller : Caller} {board : Station} {reply : Reply} (here : c.callers[i]? = some caller) :
    (c.move i call board (.answered reply)).reply? i = some reply := by
  obtain ⟨bound, _⟩ := List.getElem?_eq_some_iff.mp here
  unfold reply? move
  dsimp only
  rw [List.getElem?_set_self bound]

-- A request that nothing comes between is answered as the service answers it.
theorem run_alone (asked : c.callers[i]? = some ⟨call, .asked⟩) :
    c.run [(i, now), (i, later)] =
      c.move i call (call.perform now c.board).2 (.answered (call.perform now c.board).1) := by
  obtain ⟨bound, _⟩ := List.getElem?_eq_some_iff.mp asked
  have moved (caller : Caller) : (c.callers.set i caller)[i]? = some caller := List.getElem?_set_self bound
  cases call <;> simp [run, turn, move, asked, moved, ViewCall.perform]

inductive Turned (c : Crowd) (i : Nat) (now : String) : Crowd → Prop where
  | rests : Turned c i now c
  | makes {name : String} (here : c.callers[i]? = some ⟨.create name, .asked⟩) (missing : c.board.view? name = none) :
      Turned c i now (c.move i (.create name) (c.board.ensureView now name).2 (.ensured name true))
  | meets {name : String} (here : c.callers[i]? = some ⟨.create name, .asked⟩) :
      Turned c i now (c.move i (.create name) c.board (.ensured name false))
  | reads {call : ViewCall} {name : String} {created : Bool}
      (here : c.callers[i]? = some ⟨call, .ensured name created⟩) :
      Turned c i now (c.move i call c.board (.answered (.ofCreation created (c.board.readView name))))
  | answers {call : ViewCall} (here : c.callers[i]? = some ⟨call, .asked⟩) :
      Turned c i now (c.move i call (call.perform now c.board).2 (.answered (call.perform now c.board).1))

theorem turn_turned (c : Crowd) (i : Nat) (now : String) : Turned c i now (c.turn i now) := by
  unfold turn
  cases here : c.callers[i]? with
  | none => exact .rests
  | some caller =>
    obtain ⟨call, stage⟩ := caller
    cases stage with
    | answered reply => exact .rests
    | ensured name created => exact .reads here
    | asked =>
      cases call with
      | create name =>
        dsimp only
        cases found : c.board.view? name with
        | none =>
          rw [(Station.ensureView_missing found now).1]
          exact .makes here found
        | some view =>
          rw [Station.ensureView_found found]
          exact .meets here
      | list => exact .answers here
      | get name => exact .answers here
      | delete name => exact .answers here
      | bind name slot node => exact .answers here
      | refused response => exact .answers here

theorem length_turn (c : Crowd) (i : Nat) (now : String) : (c.turn i now).callers.length = c.callers.length := by
  have turned := c.turn_turned i now
  generalize c.turn i now = next at turned
  cases turned with
  | rests => rfl
  | _ => exact List.length_set

theorem length_run (c : Crowd) (schedule : List (Nat × String)) :
    (c.run schedule).callers.length = c.callers.length := by
  induction schedule generalizing c with
  | nil => rfl
  | cons step schedule ih => exact (ih _).trans (c.length_turn step.1 step.2)

theorem reply?_caller {reply : Reply} (given : c.reply? j = some reply) :
    ∃ call, c.callers[j]? = some ⟨call, .answered reply⟩ := by
  unfold reply? at given
  split at given
  · next call other here =>
    obtain rfl := Option.some.inj given
    exact ⟨call, here⟩
  · cases given

theorem reply?_other {caller : Caller} {board : Station} {reply : Reply} (given : c.reply? j = some reply)
    (here : c.callers[i]? = some caller) (underWay : ∀ reply, caller.stage ≠ .answered reply) :
    (c.move i call board stage).reply? j = some reply := by
  obtain ⟨answered, there⟩ := reply?_caller given
  by_cases own : i = j
  · subst own
    obtain rfl := Option.some.inj (here.symm.trans there)
    exact absurd rfl (underWay reply)
  · unfold reply? move
    dsimp only
    rw [List.getElem?_set_ne own, there]

-- Once given, a reply stays.
theorem reply?_turn {reply : Reply} (given : c.reply? j = some reply) (i : Nat) (now : String) :
    (c.turn i now).reply? j = some reply := by
  have turned := c.turn_turned i now
  generalize c.turn i now = next at turned
  cases turned with
  | rests => exact given
  | makes here => exact reply?_other given here fun _ same => nomatch same
  | meets here => exact reply?_other given here fun _ same => nomatch same
  | reads here => exact reply?_other given here fun _ same => nomatch same
  | answers here => exact reply?_other given here fun _ same => nomatch same

theorem reply?_run {reply : Reply} (given : c.reply? j = some reply) (schedule : List (Nat × String)) :
    (c.run schedule).reply? j = some reply := by
  induction schedule generalizing c with
  | nil => exact given
  | cons step schedule ih => exact ih (reply?_turn given step.1 step.2)

end Crowd

-- That nobody came between the two steps of a creation: the view is there, and a new one is as it was made, whenever
-- that was.
def Reply.Unharmed (thresholds : Thresholds) : Reply → Prop
  | .views _ => True
  | .view code picture => code = 201 → picture.undated = .newborn picture.name thresholds ""
  | .bare code => code ≠ 500
  | .refusal _ => True

theorem Reply.Unharmed.undated {thresholds : Thresholds} {given reply : Reply} (same : given.undated = reply.undated)
    (unharmed : reply.Unharmed thresholds) : given.Unharmed thresholds := by
  cases given with
  | views pictures => trivial
  | view code picture =>
    cases reply with
    | view other picture' =>
      obtain ⟨rfl, pictures⟩ := Reply.view.inj same
      have name : picture.undated.name = picture'.undated.name := congrArg ViewPicture.name pictures
      intro created
      rw [pictures, unharmed created]
      exact congrArg (ViewPicture.newborn · thresholds "") name.symm
    | _ => cases same
  | bare code =>
    cases reply with
    | bare other =>
      cases same
      exact unharmed
    | _ => cases same
  | refusal response => trivial

theorem Reply.Unharmed.exists_picture {thresholds : Thresholds} {created : Bool} {read : Option ViewPicture}
    (unharmed : (Reply.ofCreation created read).Unharmed thresholds) : ∃ picture, read = some picture := by
  cases read with
  | none => exact absurd rfl unharmed
  | some picture => exact ⟨picture, rfl⟩

-- A view that was made and read without harm was read as it was made.
theorem creation_unharmed {s : Station} {name now : String} {thresholds : Thresholds}
    (unharmed : (Reply.ofCreation true (s.readView name)).Unharmed thresholds) :
    (Reply.ofCreation true (s.readView name)).undated =
      (Reply.view 201 (.newborn name thresholds now)).undated := by
  obtain ⟨picture, read⟩ := unharmed.exists_picture
  rw [read] at unharmed ⊢
  have fresh : picture.undated = .newborn picture.name thresholds "" := unharmed rfl
  have answered : (Reply.ofCreation true (some picture)).undated = .view 201 picture.undated := rfl
  rw [answered, fresh, Station.readView_name read]
  rfl

namespace App

def atTime (app : App) (now : String) : App := { app with session := { app.session with now } }

-- A reply of the service: the answer to a request is made of it, whatever its disk is like.
structure Replies (app : App) (request : Request) (reply : Reply) (next : App) : Prop where
  handled : ∀ answers, app.handle request answers = (reply.response, next)
  performed : (ViewCall.of request).perform app.session.now app.station = (reply, next.station)

end App

-- Requests that are answered one after the other, at some times: their numbers with the replies, and the service in
-- the end.
inductive Serves (requests : List Request) (app : App) : List (Nat × Reply) → App → Prop where
  | none : Serves requests app [] app
  | next {log : List (Nat × Reply)} {later final : App} {i : Nat} {request : Request} {reply : Reply} {now : String}
      (before : Serves requests app log later) (here : requests[i]? = some request)
      (replies : (later.atTime now).Replies request reply final) : Serves requests app (log ++ [(i, reply)]) final

variable {requests : List Request} {app later : App} {log : List (Nat × Reply)} {s : Station} {call : ViewCall}
  {now : String} {i : Nat} {reply : Reply}

theorem perform_thresholds (call : ViewCall) (now : String) (s : Station) :
    (call.perform now s).2.thresholds = s.thresholds := by
  cases call with
  | list => rfl
  | get name => rfl
  | create name =>
    unfold ViewCall.perform Station.ensureView
    dsimp only
    split <;> rfl
  | delete name =>
    unfold ViewCall.perform Station.removeView
    dsimp only
    split
    · rfl
    · exact Station.SameBoard.release.thresholds
  | bind name slot node =>
    unfold ViewCall.perform Station.bindView
    dsimp only
    split
    · rfl
    · exact Station.SameBoard.bind.thresholds
  | refused response => rfl

theorem perform_unharmed (call : ViewCall) (now : String) (s : Station) :
    (call.perform now s).1.Unharmed s.thresholds := by
  have plain (picture : Option ViewPicture) : (Reply.found 200 404 picture).Unharmed s.thresholds := by
    cases picture with
    | none => exact (by decide : 404 ≠ 500)
    | some picture => exact fun created => absurd created (by decide)
  cases call with
  | list => trivial
  | get name => exact plain _
  | create name =>
    cases found : s.view? name with
    | none =>
      rw [perform_missing found]
      exact fun _ => rfl
    | some view =>
      have read : s.readView name = some (s.picture name view) := by simp [Station.readView, found]
      rw [perform_found read]
      exact fun created => absurd created (by decide)
  | delete name =>
    unfold ViewCall.perform
    dsimp only
    split
    · exact (by decide : 204 ≠ 500)
    · exact (by decide : 404 ≠ 500)
  | bind name slot node => exact plain _
  | refused response => trivial

theorem Serves.thresholds (serves : Serves requests app log later) :
    later.station.thresholds = app.station.thresholds := by
  induction serves with
  | none => rfl
  | @next log later final i request reply now _ _ replies ih =>
    rw [← ih, ← perform_thresholds (.of request) now later.station]
    exact congrArg (fun r => r.2.thresholds) replies.performed.symm

theorem Serves.unharmed (serves : Serves requests app log later) :
    ∀ entry ∈ log, entry.2.Unharmed app.station.thresholds := by
  induction serves with
  | none => exact fun _ member => nomatch member
  | @next log later final i request reply now before _ replies ih =>
    intro entry member
    rcases List.mem_append.mp member with old | new
    · exact ih entry old
    · obtain rfl := List.mem_singleton.mp new
      have unharmed := perform_unharmed (.of request) now later.station
      have same : ((ViewCall.of request).perform now later.station).1 = reply := congrArg Prod.fst replies.performed
      rw [before.thresholds, same] at unharmed
      exact unharmed

-- Where a request stands in the order in which requests are taken to be answered. A view that is made is answered for
-- at once; a view that was there is answered for when it is read.
inductive Logged (thresholds : Thresholds) (log : List (Nat × Reply)) (i : Nat) : Caller → Prop where
  | asked {call : ViewCall} (fresh : i ∉ log.map Prod.fst) : Logged thresholds log i ⟨call, .asked⟩
  | made {call : ViewCall} {name now : String} (entry : (i, .view 201 (.newborn name thresholds now)) ∈ log) :
      Logged thresholds log i ⟨call, .ensured name true⟩
  | met {name : String} (fresh : i ∉ log.map Prod.fst) : Logged thresholds log i ⟨.create name, .ensured name false⟩
  | answered {call : ViewCall} {given reply : Reply} (entry : (i, reply) ∈ log)
      (same : given.undated = reply.undated) : Logged thresholds log i ⟨call, .answered given⟩

theorem Logged.grow {thresholds : Thresholds} {caller : Caller} {j : Nat} (logged : Logged thresholds log j caller)
    (other : j ≠ i) (reply : Reply) : Logged thresholds (log ++ [(i, reply)]) j caller := by
  have fresh (absent : j ∉ log.map Prod.fst) : j ∉ (log ++ [(i, reply)]).map Prod.fst := by
    simpa [other] using absent
  cases logged with
  | asked absent => exact .asked (fresh absent)
  | made entry => exact .made (List.mem_append_left _ entry)
  | met absent => exact .met (fresh absent)
  | answered entry same => exact .answered (List.mem_append_left _ entry) same

-- The requests that have been answered for, in their order, beside the board as they leave it.
structure InOrder (requests : List Request) (app : App) (c : Crowd) (log : List (Nat × Reply)) (later : App) : Prop where
  serves : Serves requests app log later
  board : later.station = c.board
  key : later.apiKey = app.apiKey
  once : (log.map Prod.fst).Nodup
  length : c.callers.length = requests.length
  asked (i : Nat) (caller : Caller) : c.callers[i]? = some caller →
    ∃ request, requests[i]? = some request ∧ app.OnViews request ∧ caller.call = .of request
  logged (i : Nat) (caller : Caller) : c.callers[i]? = some caller → Logged app.station.thresholds log i caller

namespace InOrder
variable {c : Crowd} {caller : Caller} {stage : CallStage} {board : Station}

-- What is known of each request stays known when one of them comes further.
theorem callers_move {known : Nat → Caller → Prop} (all : ∀ j caller, c.callers[j]? = some caller → j ≠ i → known j caller)
    (new : known i ⟨call, stage⟩) (j : Nat) (caller : Caller)
    (there : (c.move i call board stage).callers[j]? = some caller) : known j caller := by
  by_cases own : i = j
  · subst own
    obtain ⟨bound, _⟩ := List.getElem?_eq_some_iff.mp there
    have bound : i < c.callers.length := by simpa [Crowd.move] using bound
    obtain rfl := Option.some.inj ((List.getElem?_set_self bound).symm.trans there)
    exact new
  · exact all j caller ((List.getElem?_set_ne own).symm.trans there) (Ne.symm own)

theorem keep (ordered : InOrder requests app c log later) (here : c.callers[i]? = some caller)
    (logged : Logged app.station.thresholds log i ⟨caller.call, stage⟩) :
    InOrder requests app (c.move i caller.call c.board stage) log later := by
  refine ⟨ordered.serves, ordered.board, ordered.key, ordered.once, ?_, ?_, ?_⟩
  · simpa [Crowd.move] using ordered.length
  · exact callers_move (fun j other there _ => ordered.asked j other there) (ordered.asked i caller here)
  · exact callers_move (fun j other there _ => ordered.logged j other there) logged

theorem add (ordered : InOrder requests app c log later) (here : c.callers[i]? = some caller)
    (fresh : i ∉ log.map Prod.fst) (performed : caller.call.perform now c.board = (reply, board))
    (logged : Logged app.station.thresholds (log ++ [(i, reply)]) i ⟨caller.call, stage⟩) :
    ∃ final, InOrder requests app (c.move i caller.call board stage) (log ++ [(i, reply)]) final := by
  obtain ⟨request, there, on, asked⟩ := ordered.asked i caller here
  have done : (ViewCall.of request).perform (later.atTime now).session.now (later.atTime now).station = (reply, board) := by
    rw [← performed, ← ordered.board, asked]
    rfl
  have same : (later.atTime now).apiKey = app.apiKey := ordered.key
  have handled := App.handle_answer (on.congr same)
  simp only [App.answer, done] at handled
  refine ⟨(later.atTime now).onStation board, ?_⟩
  constructor
  case serves => exact .next ordered.serves there ⟨handled, done⟩
  case board => rfl
  case key => exact ordered.key
  case once =>
    rw [List.map_append, List.nodup_append]
    refine ⟨ordered.once, List.nodup_singleton i, ?_⟩
    rintro a old b new rfl
    obtain rfl := List.mem_singleton.mp new
    exact fresh old
  case length => simpa [Crowd.move] using ordered.length
  case asked => exact callers_move (fun j other there _ => ordered.asked j other there) ⟨request, there, on, asked⟩
  case logged =>
    exact callers_move (fun j other there different => (ordered.logged j other there).grow different reply) logged

-- As long as no harm is seen, an order is kept in which the requests are answered for.
theorem turn (ordered : InOrder requests app c log later) (i : Nat) (now : String)
    (unharmed : ∀ j reply, (c.turn i now).reply? j = some reply → reply.Unharmed app.station.thresholds) :
    ∃ log' later', InOrder requests app (c.turn i now) log' later' := by
  have thresholds : c.board.thresholds = app.station.thresholds := by
    rw [← ordered.board]
    exact ordered.serves.thresholds
  have turned := c.turn_turned i now
  generalize c.turn i now = next at turned unharmed
  cases turned with
  | rests => exact ⟨log, later, ordered⟩
  | @makes name here missing =>
    cases ordered.logged i _ here with
    | asked fresh =>
      have performed := perform_missing missing now
      rw [thresholds] at performed
      obtain ⟨final, after⟩ := ordered.add here fresh performed
        (.made (List.mem_append_right _ (List.mem_singleton_self _)))
      exact ⟨_, final, after⟩
  | @meets name here =>
    cases ordered.logged i _ here with
    | asked fresh => exact ⟨log, later, ordered.keep here (.met fresh)⟩
  | @reads call name created here =>
    have given := unharmed i _ (Crowd.reply?_move here)
    cases ordered.logged i _ here with
    | made entry =>
      exact ⟨log, later, ordered.keep here (.answered entry (creation_unharmed given))⟩
    | met fresh =>
      obtain ⟨picture, read⟩ := Reply.Unharmed.exists_picture given
      rw [read]
      obtain ⟨final, after⟩ := ordered.add here fresh (perform_found read now)
        (.answered (List.mem_append_right _ (List.mem_singleton_self _)) rfl)
      exact ⟨_, final, after⟩
  | @answers call here =>
    cases ordered.logged i _ here with
    | asked fresh =>
      obtain ⟨final, after⟩ := ordered.add here fresh rfl
        (.answered (List.mem_append_right _ (List.mem_singleton_self _)) rfl)
      exact ⟨_, final, after⟩

theorem run (ordered : InOrder requests app c log later) (schedule : List (Nat × String))
    (unharmed : ∀ j reply, (c.run schedule).reply? j = some reply → reply.Unharmed app.station.thresholds) :
    ∃ log' later', InOrder requests app (c.run schedule) log' later' := by
  induction schedule generalizing c log later with
  | nil => exact ⟨log, later, ordered⟩
  | cons step schedule ih =>
    obtain ⟨log', later', next⟩ := ordered.turn step.1 step.2 fun j reply given =>
      unharmed j reply (Crowd.reply?_run given schedule)
    exact ih next unharmed

end InOrder

-- An order of the requests in which each of them, made at some time, is given the reply that it has got, apart from
-- dates, and which leads to the same views.
structure Explains (requests : List Request) (app : App) (c : Crowd) (log : List (Nat × Reply)) (later : App) :
    Prop where
  serves : Serves requests app log later
  everyone : (log.map Prod.fst).Perm (List.range requests.length)
  replies : ∀ entry ∈ log, ∃ given, c.reply? entry.1 = some given ∧ given.undated = entry.2.undated
  views : c.board.readViews.map ViewPicture.undated = later.station.readViews.map ViewPicture.undated

theorem Serves.bound (serves : Serves requests app log later) : ∀ entry ∈ log, entry.1 < requests.length := by
  induction serves with
  | none => exact fun _ member => nomatch member
  | next _ here _ ih =>
    intro entry member
    rcases List.mem_append.mp member with old | new
    · exact ih entry old
    · obtain rfl := List.mem_singleton.mp new
      exact (List.getElem?_eq_some_iff.mp here).1

theorem Explains.unharmed {c : Crowd} (explains : Explains requests app c log later)
    (length : c.callers.length = requests.length) (given : c.reply? i = some reply) :
    reply.Unharmed app.station.thresholds := by
  obtain ⟨call, here⟩ := Crowd.reply?_caller given
  have bound : i < requests.length := length ▸ (List.getElem?_eq_some_iff.mp here).1
  obtain ⟨entry, member, rfl⟩ := List.mem_map.mp (explains.everyone.mem_iff.mpr (List.mem_range.mpr bound))
  obtain ⟨other, same, undated⟩ := explains.replies entry member
  obtain rfl := Option.some.inj (given.symm.trans same)
  exact .undated undated (explains.serves.unharmed entry member)

theorem InOrder.explains {c : Crowd} (ordered : InOrder requests app c log later) (finished : c.Finished) :
    Explains requests app c log later := by
  have answered (i : Nat) (bound : i < requests.length) :
      ∃ given reply, c.reply? i = some given ∧ (i, reply) ∈ log ∧ given.undated = reply.undated := by
    obtain ⟨given, same⟩ := Option.isSome_iff_exists.mp (finished i (ordered.length ▸ bound))
    obtain ⟨call, here⟩ := Crowd.reply?_caller same
    cases ordered.logged i _ here with
    | @answered _ _ reply entry undated => exact ⟨given, reply, same, entry, undated⟩
  constructor
  case serves => exact ordered.serves
  case everyone =>
    refine (List.perm_ext_iff_of_nodup ordered.once List.nodup_range).mpr fun i => ?_
    rw [List.mem_range]
    constructor
    · intro member
      obtain ⟨entry, there, rfl⟩ := List.mem_map.mp member
      exact ordered.serves.bound entry there
    · intro bound
      obtain ⟨_, reply, _, entry, _⟩ := answered i bound
      exact List.mem_map.mpr ⟨_, entry, rfl⟩
  case replies =>
    intro entry member
    obtain ⟨given, reply, same, there, undated⟩ := answered entry.1 (ordered.serves.bound entry member)
    have own := List.inj_on_of_nodup_map ordered.once member there rfl
    exact ⟨given, same, undated.trans (congrArg (fun e => e.2.undated) own.symm)⟩
  case views => rw [ordered.board]

theorem InOrder.begin (on : ∀ request ∈ requests, app.OnViews request) :
    InOrder requests app (.begin app.station requests) [] app := by
  have here {i : Nat} {caller : Caller} (there : (Crowd.begin app.station requests).callers[i]? = some caller) :
      ∃ request, requests[i]? = some request ∧ ⟨.of request, .asked⟩ = caller :=
    Option.map_eq_some_iff.mp (List.getElem?_map.symm.trans there)
  constructor
  case serves => exact .none
  case board => rfl
  case key => rfl
  case once => exact List.nodup_nil
  case length => exact List.length_map _
  case asked =>
    intro i caller there
    obtain ⟨request, present, rfl⟩ := here there
    exact ⟨request, present, on request (List.mem_of_getElem? present), rfl⟩
  case logged =>
    intro i caller there
    obtain ⟨request, _, rfl⟩ := here there
    exact .asked List.not_mem_nil

theorem overlap_sequential (on : ∀ request ∈ requests, app.OnViews request) {schedule : List (Nat × String)}
    (finished : ((Crowd.begin app.station requests).run schedule).Finished) :
    (∃ log later, Explains requests app ((Crowd.begin app.station requests).run schedule) log later) ↔
      ∀ i reply, ((Crowd.begin app.station requests).run schedule).reply? i = some reply →
        reply.Unharmed app.station.thresholds := by
  have start := InOrder.begin on
  constructor
  · rintro ⟨log, later, explains⟩ i reply given
    exact explains.unharmed ((Crowd.length_run _ schedule).trans start.length) given
  · intro unharmed
    obtain ⟨log, later, ordered⟩ := start.run schedule unharmed
    exact ⟨log, later, ordered.explains finished⟩

-- A request with the key k to the view w, at a service that has no views yet.
def toView (method : String) : Request := ⟨method, "/views/w", some [0x6B], none, []⟩

theorem toView_known (method : String) :
    Route.ofPath? (pathOf (toView method).target.toList) = some (.view ['w']) := by
  have path : Route.ofPath? (pathOf "/views/w".toList) = some (.view ['w']) := by decide
  exact path

theorem toView_onViews {method : String} (known : method ∈ ["GET", "PUT", "DELETE"]) :
    App.guarded.OnViews (toView method) := by
  have accepted : App.guarded.keyAccepted (toView method) = true := rfl
  refine ⟨?_, ?_, known⟩
  · rw [App.authorised, accepted, Bool.or_true]
  · rw [toView_known]
    rfl

theorem both_onViews {first second : String} (one : first ∈ ["GET", "PUT", "DELETE"])
    (other : second ∈ ["GET", "PUT", "DELETE"]) :
    ∀ request ∈ [toView first, toView second], App.guarded.OnViews request := by
  intro request member
  rcases List.mem_pair.mp member with rfl | rfl
  · exact toView_onViews one
  · exact toView_onViews other

-- The second of two requests comes between the two steps of the first.
def between (first second : String) : Crowd :=
  (Crowd.begin App.guarded.station [toView first, toView second]).run [(0, "T"), (1, "T"), (0, "T")]

theorem read_between_creation : (∀ request ∈ [toView "PUT", toView "GET"], App.guarded.OnViews request) ∧
    (between "PUT" "GET").Finished ∧
    ((∃ log later, Explains [toView "PUT", toView "GET"] App.guarded (between "PUT" "GET") log later) ↔
      ∀ i reply, (between "PUT" "GET").reply? i = some reply → reply.Unharmed App.guarded.station.thresholds) := by
  have on := both_onViews (by decide : "PUT" ∈ _) (by decide : "GET" ∈ _)
  have finished : (between "PUT" "GET").Finished := by decide +kernel
  exact ⟨on, finished, overlap_sequential on finished⟩

-- A view is created and deleted at once: the creation fails, as it never does when the requests follow each other.
theorem delete_between_creation : (∀ request ∈ [toView "PUT", toView "DELETE"], App.guarded.OnViews request) ∧
    (between "PUT" "DELETE").Finished ∧ (between "PUT" "DELETE").reply? 0 = some (.bare 500) ∧
    ¬∃ log later, Explains [toView "PUT", toView "DELETE"] App.guarded (between "PUT" "DELETE") log later := by
  have failed : (between "PUT" "DELETE").reply? 0 = some (.bare 500) := by decide +kernel
  refine ⟨both_onViews (by decide) (by decide), by decide +kernel, failed, ?_⟩
  rintro ⟨log, later, explains⟩
  exact explains.unharmed (Crowd.length_run _ _) failed rfl

end Http

end DiskGauge
