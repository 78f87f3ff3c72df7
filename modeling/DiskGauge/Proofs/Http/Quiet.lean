import DiskGauge.Proofs.Http.Handlers

namespace DiskGauge.Http

namespace Route

variable {route : Route} {method : String} {operation : Operation}

theorem operation?_listed (known : route.operation? method = some operation) : (method, operation) ∈ route.methods := by
  obtain ⟨entry, found, rfl⟩ := Option.map_eq_some_iff.mp known
  have same := List.find?_some found
  obtain rfl : entry.1 = method := of_decide_eq_true same
  exact List.mem_of_find?_eq_some found

theorem operation?_read (reads : method = "GET" ∨ method = "HEAD") (known : route.operation? method = some operation) :
    operation = .read := by
  rcases reads with rfl | rfl
  all_goals cases route <;> cases known <;> rfl

theorem operation?_usage (known : usage.operation? method = some operation) : method = "POST" ∧ operation = .post := by
  simpa [methods] using operation?_listed known

theorem operation?_put (known : preferences.operation? method = some .put) : method = "PUT" := by
  simpa [methods] using operation?_listed known

end Route

namespace App

variable {app : App} {request : Request} {answers : DiskAnswers} {route : Route} {operation : Operation}

def countRefused (app : App) : App :=
  app.onStation { app.station with health := { app.station.health with
    received := app.station.health.received + 1
    dropped := app.station.health.dropped + 1 } }

-- A usage report that gets as far as being decoded, and is refused there.
structure RefusedReport (app : App) (request : Request) : Prop where
  authorised : app.authorised request = true
  route : Route.ofPath? (pathOf request.target.toList) = some .usage
  posted : request.method = "POST"
  size : request.body.length ≤ bodyLimit
  refused : ∃ rejection, Snapshot.decode request.body = .error rejection

def withPlace (app : App) (place : Place) : App := { app with preferences := { app.preferences with place } }

-- What is left of a change whose file was opened, and then not written to its end.
def Torn (app : App) (answers : DiskAnswers) (outcome : Response × App) : Prop :=
  outcome.1.status = 500 ∧ answers.opens = true ∧ ∃ value : Preferences, ∃ count < value.fileBytes.length,
    outcome.2 = app.withPlace (.file (value.fileBytes.take count))

-- What becomes of a request that may change something: it succeeds, or it changes nothing.
def Harmless (app : App) (outcome : Response × App) : Prop := outcome.1.status < 400 ∨ outcome.2 = app

theorem createView_harmless (app : App) (name : String) : Harmless app (app.createView name) := by
  obtain ⟨picture, found⟩ := app.station.readView_ensureView app.session.now name
  refine .inl ?_
  unfold createView
  dsimp only
  rw [found]
  dsimp only [Response.json]
  split <;> decide

theorem deleteView_harmless (app : App) (name : String) : Harmless app (app.deleteView name) := by
  unfold deleteView Station.removeView
  cases app.station.view? name with
  | none => exact .inr rfl
  | some view => exact .inl (by decide : 204 < 400)

theorem bindView_harmless (app : App) (name : String) (slot : Slot) (request : Request) :
    Harmless app (app.bindView name slot request) := by
  unfold bindView
  cases readBody readBinding request with
  | error response => exact .inr rfl
  | ok node =>
    unfold Station.bindView
    cases app.station.view? name with
    | none => exact .inr rfl
    | some view => exact .inl (by decide : 200 < 400)

theorem putPreferences_parts (app : App) (request : Request) (answers : DiskAnswers) :
    Harmless app (app.putPreferences request answers) ∨ Torn app answers (app.putPreferences request answers) := by
  unfold putPreferences PreferencesDesk.set
  cases readBody Preferences.read request with
  | error response => exact .inl (.inr rfl)
  | ok wanted =>
    have changed := app.preferences.store.set_changed wanted.gigabytes app.preferences.place answers
    dsimp only
    generalize app.preferences.store.set wanted.gigabytes app.preferences.place answers = outcome at changed
    cases changed with
    | invalid _ => exact .inl (.inr rfl)
    | closed _ _ _ _ => exact .inl (.inr rfl)
    | torn _ count _ _ opens _ short => exact .inr ⟨rfl, opens, wanted, count, short, rfl⟩
    | saved _ _ _ => exact .inl (.inl (by decide : 200 < 400))
    | unsaved _ _ => exact .inl (.inl (by decide : 200 < 400))

theorem postUsage_parts (app : App) (request : Request) :
    Harmless app (app.postUsage request) ∧
        (request.body.length ≤ bodyLimit → ∀ rejection, Snapshot.decode request.body ≠ .error rejection) ∨
      request.body.length ≤ bodyLimit ∧ (∃ rejection, Snapshot.decode request.body = .error rejection) ∧
        (app.postUsage request).1.status = 422 ∧ (app.postUsage request).2 = app.countRefused := by
  unfold postUsage report
  by_cases large : bodyLimit < request.body.length
  · rw [if_pos large]
    exact .inl ⟨.inr rfl, fun fits => absurd large (Nat.not_lt.mpr fits)⟩
  · rw [if_neg large]
    unfold Session.ingest
    cases decoded : Snapshot.decode request.body with
    | ok snapshot => exact .inl ⟨.inl (by decide : 200 < 400), fun _ _ refused => nomatch refused⟩
    | error rejection => exact .inr ⟨Nat.le_of_not_lt large, ⟨rejection, rfl⟩, rfl, rfl⟩

theorem perform_read (app : App) (route : Route) (request : Request) (answers : DiskAnswers) :
    (app.perform route .read request answers).2 = app := by
  cases route with
  | view segment =>
    exact withName_of (P := fun outcome => outcome.2 = app) (fun _ => rfl) rfl
  | _ => rfl

theorem perform_harmless (app : App) (request : Request) (answers : DiskAnswers)
    (report : ¬(route = .usage ∧ operation = .post)) (change : ¬(route = .preferences ∧ operation = .put)) :
    Harmless app (app.perform route operation request answers) := by
  cases operation with
  | read => exact .inr (app.perform_read route request answers)
  | put =>
    cases route with
    | view segment => exact withName_of app.createView_harmless (.inr rfl)
    | slot segment slot => exact withName_of (fun name => app.bindView_harmless name slot request) (.inr rfl)
    | preferences => exact absurd ⟨rfl, rfl⟩ change
    | _ => exact .inr rfl
  | delete =>
    cases route with
    | view segment => exact withName_of app.deleteView_harmless (.inr rfl)
    | _ => exact .inr rfl
  | post =>
    cases route with
    | usage => exact absurd ⟨rfl, rfl⟩ report
    | _ => exact .inr rfl

theorem RefusedReport.counted (refused : app.RefusedReport request) :
    (app.handle request answers).1.status = 422 ∧ (app.handle request answers).2 = app.countRefused := by
  have allowed : Route.usage.operation? request.method = some .post := by
    rw [refused.posted]
    rfl
  obtain ⟨status, state⟩ := handle_operation refused.route allowed refused.authorised
  rw [status, state]
  rcases app.postUsage_parts request with ⟨_, decodes⟩ | ⟨_, _, answer, counters⟩
  · obtain ⟨rejection, decoded⟩ := refused.refused
    exact absurd decoded (decodes refused.size rejection)
  · exact ⟨answer, counters⟩

-- A change of the threshold that broke off in its file.
structure BrokenOff (app : App) (request : Request) (answers : DiskAnswers) (outcome : Response × App) : Prop where
  route : Route.ofPath? (pathOf request.target.toList) = some .preferences
  put : request.method = "PUT"
  torn : Torn app answers outcome

-- The service after a request that only reads, or that fails: a report was counted, a change broke off, or nothing
-- has happened.
theorem handle_quiet (app : App) (request : Request) (answers : DiskAnswers)
    (quiet : request.method = "GET" ∨ request.method = "HEAD" ∨ 400 ≤ (app.handle request answers).1.status)
    (decodes : ¬app.RefusedReport request) :
    (app.handle request answers).2 = app ∨ app.BrokenOff request answers (app.handle request answers) := by
  rcases app.handle_parts request answers with same | ⟨route, operation, known, allowed, authorised⟩
  · exact .inl same
  obtain ⟨status, state⟩ := handle_operation known allowed authorised
  have spared (harmless : Harmless app (app.perform route operation request answers)) :
      (app.handle request answers).2 = app := by
    rw [state]
    rcases harmless with success | same
    · rcases quiet with get | head | failed
      · rw [Route.operation?_read (.inl get) allowed]
        exact app.perform_read route request answers
      · rw [Route.operation?_read (.inr head) allowed]
        exact app.perform_read route request answers
      · rw [status] at failed
        exact absurd success (Nat.not_lt.mpr failed)
    · exact same
  by_cases report : route = .usage ∧ operation = .post
  · obtain ⟨rfl, rfl⟩ := report
    rcases app.postUsage_parts request with ⟨harmless, _⟩ | ⟨size, refused, _⟩
    · exact .inl (spared harmless)
    · exact absurd ⟨authorised, known, (Route.operation?_usage allowed).1, size, refused⟩ decodes
  by_cases change : route = .preferences ∧ operation = .put
  · obtain ⟨rfl, rfl⟩ := change
    rcases app.putPreferences_parts request answers with harmless | ⟨broken, opens, value, count, short, left⟩
    · exact .inl (spared harmless)
    · exact .inr ⟨known, Route.operation?_put allowed, status.trans broken, opens, value, count, short,
        state.trans left⟩
  · exact .inl (spared (app.perform_harmless request answers report change))

-- What a request leaves behind when it only reads, or when it fails, on whatever disk.
structure Unchanged (app : App) (request : Request) (answers : DiskAnswers) (outcome : Response × App) : Prop where
  -- The views with their slots, states and frames, and the registrations of each feed in their order.
  views : outcome.2.station.readViews = app.station.readViews
  feeds : ∀ name, outcome.2.station.feed name = app.station.feed name
  value : outcome.2.preferences.store.get = app.preferences.store.get
  -- What is told to each watcher, and whether it is news.
  watchers : ∀ number, (outcome.2.preferences.ask number false).1 = (app.preferences.ask number false).1
  counters : ¬app.RefusedReport request → outcome.2.station.health = app.station.health
  counted : app.RefusedReport request → outcome.1.status = 422 ∧ outcome.2.station.health =
    { app.station.health with
      received := app.station.health.received + 1, dropped := app.station.health.dropped + 1 }
  -- Whatever else there is stays, too, but for a file that was opened and could not be written.
  rest : outcome.2 = (app.onStation { app.station with health := outcome.2.station.health }).withPlace
    outcome.2.preferences.place
  file : outcome.2.preferences.place = app.preferences.place ∨ app.BrokenOff request answers outcome

-- Neither the counters nor the file are among what is told of the views, the feeds and the preferences.
theorem Unchanged.of_rest {outcome : Response × App} {health : Health} {place : Place}
    (rest : outcome.2 = (app.onStation { app.station with health }).withPlace place)
    (counters : ¬app.RefusedReport request → health = app.station.health)
    (counted : app.RefusedReport request → outcome.1.status = 422 ∧ health = app.countRefused.station.health)
    (file : place = app.preferences.place ∨ app.BrokenOff request answers outcome) :
    app.Unchanged request answers outcome := by
  obtain ⟨response, next⟩ := outcome
  subst rest
  have told (number : Nat) : ((app.withPlace place).preferences.ask number false).1 =
      (app.preferences.ask number false).1 := by
    unfold withPlace PreferencesDesk.ask
    cases app.preferences.watchers[number]? <;> rfl
  exact ⟨rfl, fun name => by cases name <;> rfl, rfl, told, counters, counted, rfl, file⟩

theorem handle_unchanged (app : App) (request : Request) (answers : DiskAnswers)
    (quiet : request.method = "GET" ∨ request.method = "HEAD" ∨ 400 ≤ (app.handle request answers).1.status) :
    app.Unchanged request answers (app.handle request answers) := by
  by_cases refused : app.RefusedReport request
  · obtain ⟨status, counted⟩ := refused.counted
    exact .of_rest counted (absurd refused) (fun _ => ⟨status, rfl⟩) (.inl rfl)
  · rcases app.handle_quiet request answers quiet refused with same | broken
    · exact .of_rest same (fun _ => rfl) (fun counted => absurd counted refused) (.inl rfl)
    · obtain ⟨_, _, value, count, _, left⟩ := broken.torn
      exact .of_rest left (fun _ => rfl) (fun counted => absurd counted refused) (.inr broken)

-- A service that admits requests with the key k.
def guarded : App := .start (.inMemory .standard) .absent (some "k") ⟨0, .integer 0⟩ ""

-- A report that is no more than an empty object.
def emptyReport : Request := ⟨"POST", "/usage", some [0x6B], none, [0x7B, 0x7D]⟩

-- Its threshold is to be changed to 1.5 gigabytes, and the disk is full after three bytes.
def change : Request := ⟨"PUT", "/preferences", some [0x6B], some (Utf8.ofString "application/json"),
  Utf8.ofString "\x7b\"low_disk_space_threshold_gb\":1.5\x7d"⟩

def fullAfterThree : DiskAnswers := ⟨.ok (), .ok (), [.ok 3, .error .noSpace]⟩

def keeper : App := .start .standardAt (.file [0x7B, 0x7D]) (some "k") ⟨0, .integer 0⟩ ""

theorem unchanged_by_failures :
    (400 ≤ (guarded.handle emptyReport fullAfterThree).1.status ∧
      guarded.Unchanged emptyReport fullAfterThree (guarded.handle emptyReport fullAfterThree) ∧
      (guarded.handle emptyReport fullAfterThree).2.station.health = ⟨1, 1, 0, .connecting⟩) ∧
    (keeper.handle change fullAfterThree).1.status = 500 ∧
      keeper.Unchanged change fullAfterThree (keeper.handle change fullAfterThree) ∧
      (keeper.handle change fullAfterThree).2.preferences.place = .file (Utf8.ofString "\x7b\n ") := by
  have refused : 400 ≤ (guarded.handle emptyReport fullAfterThree).1.status := by decide +kernel
  have broken : (keeper.handle change fullAfterThree).1.status = 500 := by decide +kernel
  have failed : 400 ≤ (keeper.handle change fullAfterThree).1.status := by
    rw [broken]
    decide
  exact ⟨⟨refused, handle_unchanged guarded emptyReport fullAfterThree (.inr (.inr refused)), by decide +kernel⟩,
    broken, handle_unchanged keeper change fullAfterThree (.inr (.inr failed)), by decide +kernel⟩

end App

end DiskGauge.Http
