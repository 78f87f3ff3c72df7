import DiskGauge.Http.Service

namespace DiskGauge.Http

namespace App

variable {app next : App} {request : Request} {answers : DiskAnswers} {route : Route} {operation : Operation}

theorem withName_cases (segment : List Char) :
    (∃ name, decodeName? segment = some name ∧ ∀ (app : App) act, withName segment app act = act name) ∨
      decodeName? segment = none ∧ ∀ (app : App) act, withName segment app act = (misnamed, app) := by
  unfold withName
  cases decodeName? segment with
  | some name => exact .inl ⟨name, rfl, fun _ _ => rfl⟩
  | none => exact .inr ⟨rfl, fun _ _ => rfl⟩

-- What holds of an action for any name holds where the name comes from a path, if it holds of the refusal.
theorem withName_of {P : Response × App → Prop} {segment : List Char} {act : String → Response × App}
    (acts : ∀ name, P (act name)) (refused : P (misnamed, app)) : P (withName segment app act) := by
  rcases withName_cases segment with ⟨name, _, known⟩ | ⟨_, unknown⟩
  · rw [known]
    exact acts name
  · rw [unknown]
    exact refused

theorem createView_frame (app : App) (name : String) : ∃ station, (app.createView name).2 = app.onStation station := by
  unfold createView
  dsimp only
  split <;> exact ⟨_, rfl⟩

theorem deleteView_frame (app : App) (name : String) : ∃ station, (app.deleteView name).2 = app.onStation station :=
  ⟨_, rfl⟩

theorem bindView_frame (app : App) (name : String) (slot : Slot) (request : Request) :
    ∃ station, (app.bindView name slot request).2 = app.onStation station := by
  unfold bindView
  cases readBody readBinding request with
  | error response => exact ⟨app.station, rfl⟩
  | ok node => exact ⟨_, rfl⟩

theorem postUsage_frame (app : App) (request : Request) :
    ∃ session, (app.postUsage request).2 = { app with session } := by
  change ∃ session, (app.report request).2.1 = _
  unfold report
  split
  · exact ⟨app.session, rfl⟩
  · exact ⟨_, rfl⟩

theorem putPreferences_frame (app : App) (request : Request) (answers : DiskAnswers) :
    (app.putPreferences request answers).2 = app ∨ ∃ gigabytes, (app.putPreferences request answers).2 =
      { app with preferences := (app.preferences.set gigabytes answers).2 } := by
  unfold putPreferences
  cases readBody Preferences.read request with
  | error response => exact .inl rfl
  | ok wanted => exact .inr ⟨wanted.gigabytes, rfl⟩

-- All that a request can leave behind: another session, or what a change of the threshold leaves.
inductive Leaves (app : App) (answers : DiskAnswers) : App → Prop where
  | session (session : Session) : Leaves app answers { app with session }
  | change (gigabytes : Double) :
      Leaves app answers { app with preferences := (app.preferences.set gigabytes answers).2 }

theorem Leaves.same : Leaves app answers app := .session app.session

theorem Leaves.station (left : ∃ station, next = app.onStation station) : Leaves app answers next := by
  obtain ⟨station, rfl⟩ := left
  exact .session _

theorem Leaves.apiKey (left : Leaves app answers next) : next.apiKey = app.apiKey := by
  cases left <;> rfl

theorem Leaves.watchers (left : Leaves app answers next) :
    next.preferences.watchers = app.preferences.watchers := by
  cases left <;> rfl

theorem perform_leaves (app : App) (route : Route) (operation : Operation) (request : Request)
    (answers : DiskAnswers) : Leaves app answers (app.perform route operation request answers).2 := by
  have named {segment : List Char} {act : String → Response × App}
      (acts : ∀ name, ∃ station, (act name).2 = app.onStation station) :
      Leaves app answers (withName segment app act).2 :=
    withName_of (P := fun outcome => Leaves app answers outcome.2) (fun name => .station (acts name)) .same
  cases route with
  | view segment =>
    cases operation with
    | read => exact named fun _ => ⟨app.station, rfl⟩
    | put => exact named app.createView_frame
    | delete => exact named app.deleteView_frame
    | post => exact .same
  | slot segment slot =>
    cases operation with
    | put => exact named fun name => app.bindView_frame name slot request
    | _ => exact .same
  | preferences =>
    cases operation with
    | put =>
      change Leaves app answers (app.putPreferences request answers).2
      rcases app.putPreferences_frame request answers with same | ⟨gigabytes, changed⟩
      · rw [same]
        exact .same
      · rw [changed]
        exact .change gigabytes
    | _ => exact .same
  | usage =>
    cases operation with
    | post =>
      change Leaves app answers (app.postUsage request).2
      obtain ⟨session, kept⟩ := app.postUsage_frame request
      rw [kept]
      exact .session session
    | _ => exact .same
  | _ => cases operation <;> exact .same

theorem handle_operation (known : Route.ofPath? (pathOf request.target.toList) = some route)
    (allowed : route.operation? request.method = some operation) (authorised : app.authorised request = true) :
    (app.handle request answers).1.status = (app.perform route operation request answers).1.status ∧
      (app.handle request answers).2 = (app.perform route operation request answers).2 := by
  unfold handle
  rw [known]
  dsimp only
  rw [allowed]
  dsimp only
  rw [if_pos authorised]
  by_cases head : request.method = "HEAD"
  · simp [head]
  · simp [head]

-- Whatever does not come to an operation changes nothing.
theorem handle_parts (app : App) (request : Request) (answers : DiskAnswers) :
    (app.handle request answers).2 = app ∨ ∃ route operation,
      Route.ofPath? (pathOf request.target.toList) = some route ∧
        route.operation? request.method = some operation ∧ app.authorised request = true := by
  unfold handle
  cases known : Route.ofPath? (pathOf request.target.toList) with
  | none => exact .inl rfl
  | some route =>
    dsimp only
    cases allowed : route.operation? request.method with
    | none => exact .inl rfl
    | some operation =>
      dsimp only
      cases authorised : app.authorised request with
      | false => exact .inl rfl
      | true => exact .inr ⟨route, operation, rfl, allowed, rfl⟩

theorem handle_leaves (app : App) (request : Request) (answers : DiskAnswers) :
    Leaves app answers (app.handle request answers).2 := by
  rcases app.handle_parts request answers with same | ⟨route, operation, known, allowed, authorised⟩
  · rw [same]
    exact .same
  · obtain ⟨_, state⟩ := handle_operation known allowed authorised
    rw [state]
    exact app.perform_leaves route operation request answers

end App

end DiskGauge.Http
