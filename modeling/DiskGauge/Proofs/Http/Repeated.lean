import DiskGauge.Proofs.Http.Admission
import DiskGauge.Proofs.Http.Overlap
import DiskGauge.Proofs.Preferences.Restart
import DiskGauge.Proofs.Station.Repetition

namespace DiskGauge

namespace PreferencesStore

variable {s other : PreferencesStore} {gigabytes : Double} {place : Place} {answers : DiskAnswers}

theorem set_store : (s.set gigabytes place answers).2.1 =
    match (s.set gigabytes place answers).1 with
    | .ok value => s.announce value
    | .error _ => s := by
  have changed := s.set_changed gigabytes place answers
  generalize s.set gigabytes place answers = outcome at changed
  cases changed <;> rfl

-- A change that is made again, on a disk that answers as before, ends as it did, and the file is there already.
theorem set_again (same : other.attached = s.attached) (gigabytes : Double) (place : Place) (answers : DiskAnswers) :
    (other.set gigabytes (s.set gigabytes place answers).2.2 answers).1 = (s.set gigabytes place answers).1 ∧
      (other.set gigabytes (s.set gigabytes place answers).2.2 answers).2.2 = (s.set gigabytes place answers).2.2 := by
  unfold set save
  dsimp only
  cases (⟨gigabytes⟩ : Preferences).validate with
  | error fault => exact ⟨rfl, rfl⟩
  | ok =>
    rw [same]
    cases s.attached with
    | false => exact ⟨rfl, rfl⟩
    | true =>
      have again := place.save_again (⟨gigabytes⟩ : Preferences).fileBytes answers
      simp only [if_true]
      rcases first : place.save (⟨gigabytes⟩ : Preferences).fileBytes answers with ⟨fault | _, left⟩
      all_goals
        rw [first] at again
        dsimp only at again ⊢
        rw [again]
        exact ⟨rfl, rfl⟩

end PreferencesStore

namespace PreferencesDesk

variable {d next : PreferencesDesk} {gigabytes : Double} {answers : DiskAnswers}

-- It is announced once more, if it was announced before.
theorem set_again (attached : next.store.attached = (d.set gigabytes answers).2.store.attached)
    (place : next.place = (d.set gigabytes answers).2.place)
    (value : next.store.get = (d.set gigabytes answers).2.store.get) :
    (next.set gigabytes answers).1 = (d.set gigabytes answers).1 ∧
      ((next.set gigabytes answers).2 = next ∨
        d.store.announced.version < (d.set gigabytes answers).2.store.announced.version ∧
        (next.set gigabytes answers).2 = { next with store := next.store.announce next.store.get }) := by
  obtain ⟨store, before, watchers⟩ := next
  obtain rfl : before = (d.store.set gigabytes d.place answers).2.2 := place
  have same : store.attached = (d.store.set gigabytes d.place answers).2.1.attached := attached
  have inUse : store.get = (d.store.set gigabytes d.place answers).2.1.get := value
  have first : (d.store.set gigabytes d.place answers).2.1 = _ := PreferencesStore.set_store
  have second : (store.set gigabytes (d.store.set gigabytes d.place answers).2.2 answers).2.1 = _ :=
    PreferencesStore.set_store
  have attached : store.attached = d.store.attached := by
    rw [same, first]
    split <;> rfl
  obtain ⟨result, left⟩ := PreferencesStore.set_again attached gigabytes d.place answers
  unfold set
  dsimp only
  rw [result] at second
  rw [first] at inUse
  rw [first, second, left, result]
  refine ⟨rfl, ?_⟩
  generalize (d.store.set gigabytes d.place answers).1 = outcome at inUse ⊢
  cases outcome with
  | error fault => exact .inl rfl
  | ok changed =>
    have now : store.get = changed := inUse
    rw [now]
    exact .inr ⟨Nat.lt_succ_self _, rfl⟩

theorem set_version (d : PreferencesDesk) (gigabytes : Double) (answers : DiskAnswers) :
    d.store.announced.version ≤ (d.set gigabytes answers).2.store.announced.version := by
  have changed := d.store.set_changed gigabytes d.place answers
  unfold set
  generalize d.store.set gigabytes d.place answers = outcome at changed
  cases changed with
  | saved _ _ _ => exact Nat.le_succ _
  | unsaved _ _ => exact Nat.le_succ _
  | _ => exact Nat.le_refl _

-- A place that is left to itself answers as it did before the change.
theorem set_answers (d : PreferencesDesk) (gigabytes : Double) :
    (d.set gigabytes).2.place.answers = d.place.answers := by
  have changed := d.store.set_changed gigabytes d.place d.place.answers
  unfold set
  generalize d.store.set gigabytes d.place d.place.answers = outcome at changed
  cases changed with
  | torn _ _ _ _ _ listed _ => exact absurd rfl listed
  | saved _ _ opens => exact (Place.answers_file opens _).symm
  | _ => rfl

-- No watcher took note of what is yet to be announced.
def Heard (d : PreferencesDesk) : Prop :=
  ∀ seen, .watching seen ∈ d.watchers → seen ≤ d.store.announced.version

end PreferencesDesk

namespace Http

namespace Response

-- The answer to the same request when it comes again: what was created is there, what was removed is not.
def again (r : Response) : Response :=
  if r.status = 201 then { r with status := 200 }
  else if r.status = 204 then { r with status := 404 }
  else r

theorem again_failure {r : Response} (failed : 400 ≤ r.status) : r.again = r := by
  unfold again
  rw [if_neg (by omega), if_neg (by omega)]

end Response

namespace App

variable {app next : App} {request : Request} {answers : DiskAnswers} {act : App → Response × App}

def version (app : App) : Nat := app.preferences.store.announced.version

def withVersion (app : App) (version : Nat) : App :=
  { app with preferences := { app.preferences with store :=
    { app.preferences.store with announced := ⟨app.preferences.store.get, version⟩ } } }

theorem withVersion_same {version : Nat} (same : version = app.version) : app.withVersion version = app := by
  subst same
  rfl

-- A service whose views, preferences and key are those of another one.
structure Follows (before next : App) : Prop where
  views : next.station.views = before.station.views
  value : next.preferences.store.get = before.preferences.store.get
  attached : next.preferences.store.attached = before.preferences.store.attached
  place : next.preferences.place = before.preferences.place
  key : next.apiKey = before.apiKey

-- An action that does nothing the second time, but for another announcement of what it announced before.
structure Repeats (act : App → Response × App) (app : App) : Prop where
  idle : ∀ next, Follows (act app).2 next → ∃ version, (act next).2 = next.withVersion version ∧
    (version = next.version ∨ next.version < version ∧ app.version < (act app).2.version)
  answer : ∀ next, Follows (act app).2 next →
    next.station = (act app).2.station ∨ (act app).2.preferences ≠ app.preferences →
    (act next).1 = (act app).1.again

theorem Repeats.of_station (frame : ∃ station, (act app).2 = app.onStation station)
    (idle : ∀ next, Follows (act app).2 next → (act next).2 = next)
    (answer : ∀ next, Follows (act app).2 next → next.station = (act app).2.station →
      (act next).1 = (act app).1.again) : Repeats act app := by
  constructor
  case idle => exact fun next follows => ⟨next.version, idle next follows, .inl rfl⟩
  case answer =>
    rintro next follows (same | changed)
    · exact answer next follows same
    · obtain ⟨station, kept⟩ := frame
      rw [kept] at changed
      exact absurd rfl changed

theorem repeats_refused {response : Response} (failed : 400 ≤ response.status) :
    Repeats (fun app => (response, app)) app :=
  .of_station ⟨app.station, rfl⟩ (fun _ _ => rfl) fun _ _ _ => (Response.again_failure failed).symm

theorem createView_repeats (app : App) (name : String) : Repeats (fun app => app.createView name) app := by
  obtain ⟨picture, read⟩ := app.station.readView_ensureView app.session.now name
  have first : app.createView name =
      (.json (if (app.station.ensureView app.session.now name).1 then 201 else 200) picture.toJson,
        app.onStation (app.station.ensureView app.session.now name).2) := by
    unfold createView
    dsimp only
    rw [read]
  have there (next : App) (follows : Follows (app.createView name).2 next) :
      next.station.ensureView next.session.now name = (false, next.station) := by
    rw [first] at follows
    exact Station.ensureView_again follows.views
  apply Repeats.of_station
  case frame => exact app.createView_frame name
  case idle =>
    intro next follows
    unfold createView
    rw [there next follows]
    dsimp only
    split <;> rfl
  case answer =>
    intro next follows same
    have known := there next follows
    rw [first] at same ⊢
    dsimp only at same
    have shown : next.station.readView name = some picture := same ▸ read
    unfold createView
    rw [known]
    dsimp only
    rw [shown, if_neg Bool.false_ne_true]
    cases (app.station.ensureView app.session.now name).1 <;> rfl

theorem deleteView_repeats (app : App) (name : String) : Repeats (fun app => app.deleteView name) app := by
  have second (next : App) (follows : Follows (app.deleteView name).2 next) :
      next.deleteView name = (.bare 404, next) := by
    unfold deleteView
    rw [Station.removeView_again follows.views]
    rfl
  apply Repeats.of_station
  case frame => exact app.deleteView_frame name
  case idle =>
    intro next follows
    rw [second next follows]
  case answer =>
    intro next follows _
    rw [second next follows]
    unfold deleteView
    dsimp only
    split <;> rfl

theorem readBody_failure {α : Type} {read : Json.Reader α} {response : Response}
    (refused : readBody read request = .error response) : 400 ≤ response.status := by
  unfold readBody at refused
  extract_lets isJson at refused
  clear_value isJson
  cases isJson with
  | false =>
    obtain rfl := Except.error.inj refused
    exact (by decide : 400 ≤ 415)
  | true =>
    simp only [Bool.not_true, Bool.false_eq_true, if_false] at refused
    split at refused
    · obtain rfl := Except.error.inj refused
      exact (by decide : 400 ≤ 413)
    · split at refused
      · cases refused
      · split at refused
        · obtain rfl := Except.error.inj refused
          exact (by decide : 400 ≤ 422)
        · obtain rfl := Except.error.inj refused
          exact Nat.le_refl 400

theorem viewOr404_again (picture : Option ViewPicture) : (viewOr404 picture).again = viewOr404 picture := by
  cases picture <;> rfl

theorem bindView_repeats (app : App) (name : String) (slot : Slot) (request : Request) :
    Repeats (fun app => app.bindView name slot request) app := by
  cases body : readBody readBinding request with
  | error response =>
    have refused : (fun app : App => app.bindView name slot request) = fun app => (response, app) := by
      funext app
      unfold bindView
      rw [body]
    rw [refused]
    exact repeats_refused (readBody_failure body)
  | ok node =>
    have taken (app : App) : app.bindView name slot request =
        (viewOr404 (app.station.bindView name slot node).1,
          app.onStation (app.station.bindView name slot node).2.1) := by
      unfold bindView
      rw [body]
    have second (next : App) (follows : Follows (app.bindView name slot request).2 next) :
        next.bindView name slot request = (viewOr404 (next.station.readView name), next) := by
      rw [taken app] at follows
      rw [taken next, Station.bindView_again follows.views]
      rfl
    apply Repeats.of_station
    case frame => exact app.bindView_frame name slot request
    case idle =>
      intro next follows
      rw [second next follows]
    case answer =>
      intro next follows same
      rw [second next follows, taken app, viewOr404_again, Station.bindView_reads]
      rw [taken app] at same
      rw [same]
      rfl

theorem changeAnswer_again (result : Except PreferencesFault Preferences) :
    (changeAnswer result).again = changeAnswer result := by
  unfold changeAnswer
  split <;> rfl

theorem putPreferences_repeats (app : App) (request : Request) (answers : DiskAnswers) :
    Repeats (fun app => app.putPreferences request answers) app := by
  cases body : readBody Preferences.read request with
  | error response =>
    have refused : (fun app : App => app.putPreferences request answers) = fun app => (response, app) := by
      funext app
      unfold putPreferences
      rw [body]
    rw [refused]
    exact repeats_refused (readBody_failure body)
  | ok wanted =>
    have taken (app : App) : app.putPreferences request answers =
        (changeAnswer (app.preferences.set wanted.gigabytes answers).1,
          { app with preferences := (app.preferences.set wanted.gigabytes answers).2 }) := by
      unfold putPreferences
      rw [body]
    constructor
    case idle =>
      intro next follows
      rw [taken app] at follows ⊢
      rw [taken next]
      obtain ⟨_, same | ⟨announced, same⟩⟩ :=
        PreferencesDesk.set_again follows.attached follows.place follows.value
      · rw [same]
        exact ⟨next.version, rfl, .inl rfl⟩
      · rw [same]
        exact ⟨next.version + 1, rfl, .inr ⟨Nat.lt_succ_self _, announced⟩⟩
    case answer =>
      intro next follows _
      rw [taken app] at follows ⊢
      rw [taken next]
      obtain ⟨answer, _⟩ := PreferencesDesk.set_again follows.attached follows.place follows.value
      rw [answer, changeAnswer_again]

theorem withName_repeats (app : App) (segment : List Char) {act : App → String → Response × App}
    (acts : ∀ name, Repeats (fun app => act app name) app) :
    Repeats (fun app => withName segment app (act app)) app := by
  rcases withName_cases segment with ⟨name, _, known⟩ | ⟨_, unknown⟩
  · simp only [known]
    exact acts name
  · simp only [unknown]
    exact repeats_refused (by decide : 400 ≤ 400)

theorem perform_repeats (app : App) (route : Route) (request : Request) (answers : DiskAnswers)
    {operation : Operation} (writes : operation = .put ∨ operation = .delete) :
    Repeats (fun app => app.perform route operation request answers) app := by
  have unknown : Repeats (fun app => (.bare 404, app)) app := repeats_refused (by decide : 400 ≤ 404)
  rcases writes with rfl | rfl
  case inl =>
    cases route with
    | view segment => exact app.withName_repeats segment app.createView_repeats
    | slot segment slot => exact app.withName_repeats segment fun name => app.bindView_repeats name slot request
    | preferences => exact app.putPreferences_repeats request answers
    | _ => exact unknown
  case inr =>
    cases route with
    | view segment => exact app.withName_repeats segment app.deleteView_repeats
    | _ => exact unknown

end App

theorem Route.operation?_writes {route : Route} {method : String} {operation : Operation}
    (writes : method = "PUT" ∨ method = "DELETE") (known : route.operation? method = some operation) :
    operation = .put ∨ operation = .delete := by
  rcases writes with rfl | rfl
  all_goals cases route <;> cases known <;> decide

namespace App

variable {app next : App} {request : Request} {answers : DiskAnswers} {later : String}

theorem authorised_congr (same : next.apiKey = app.apiKey) : next.authorised request = app.authorised request := by
  unfold authorised keyAccepted
  rw [same]

theorem Repeats.congr {other : App → Response × App} (repeats : Repeats other app)
    (key : (other app).2.apiKey = app.apiKey)
    (same : ∀ next, next.apiKey = app.apiKey → act next = other next) : Repeats act app := by
  have first : act app = other app := same app rfl
  have second (next : App) (follows : Follows (act app).2 next) : act next = other next := by
    rw [first] at follows
    exact same next (follows.key.trans key)
  constructor
  case idle =>
    intro next follows
    rw [second next follows, first]
    exact repeats.idle next (first ▸ follows)
  case answer =>
    intro next follows
    rw [second next follows, first]
    exact repeats.answer next (first ▸ follows)

-- A request that would change something is refused for what it is and the key it shows, or an operation is done.
theorem handle_writes (app : App) (answers : DiskAnswers) (writes : request.method = "PUT" ∨ request.method = "DELETE") :
    (∃ response, 400 ≤ response.status ∧
        ∀ next : App, next.apiKey = app.apiKey → next.handle request answers = (response, next)) ∨
      ∃ route operation, (operation = .put ∨ operation = .delete) ∧
        ∀ next : App, next.apiKey = app.apiKey →
          next.handle request answers = next.perform route operation request answers := by
  unfold handle
  cases Route.ofPath? (pathOf request.target.toList) with
  | none =>
    refine .inl ⟨.bare (if app.authorised request then 404 else 401), ?_, fun next same => ?_⟩
    · cases app.authorised request <;> decide
    · rw [authorised_congr same]
  | some route =>
    dsimp only
    cases known : route.operation? request.method with
    | none =>
      refine .inl ⟨{ Response.bare (if app.authorised request then 405 else 401) with allow := some route.allow },
        ?_, fun next same => ?_⟩
      · cases app.authorised request with
        | false => exact (by decide : 400 ≤ 401)
        | true => exact (by decide : 400 ≤ 405)
      · rw [authorised_congr same]
    | some operation =>
      cases authorised : app.authorised request with
      | false =>
        refine .inl ⟨.bare 401, (by decide : 400 ≤ 401), fun next same => ?_⟩
        dsimp only
        rw [authorised_congr same, authorised]
        rfl
      | true =>
        refine .inr ⟨route, operation, Route.operation?_writes writes known, fun next same => ?_⟩
        have body : request.method ≠ "HEAD" := by
          rcases writes with put | delete
          · rw [put]
            decide
          · rw [delete]
            decide
        dsimp only
        rw [authorised_congr same, authorised, if_pos rfl, if_neg body]

theorem handle_repeats (app : App) (answers : DiskAnswers) (writes : request.method = "PUT" ∨ request.method = "DELETE") :
    Repeats (fun app => app.handle request answers) app := by
  rcases app.handle_writes answers writes with ⟨response, failed, refused⟩ | ⟨route, operation, changes, performed⟩
  · exact (repeats_refused failed).congr rfl refused
  · exact (app.perform_repeats route request answers changes).congr
      (app.perform_leaves route operation request answers).apiKey performed

theorem Leaves.alike (left : Leaves app app.preferences.place.answers next) :
    next.preferences.place.answers = app.preferences.place.answers := by
  cases left with
  | session _ => rfl
  | change gigabytes => exact app.preferences.set_answers gigabytes

theorem Leaves.version (left : Leaves app answers next) : app.version ≤ next.version := by
  cases left with
  | session _ => exact Nat.le_refl _
  | change gigabytes => exact app.preferences.set_version gigabytes answers

-- It holds from the start on, whatever arrives and whenever the watcher has its turn.
def Heard (app : App) : Prop := app.preferences.Heard

theorem start_heard (preferences : PreferencesStore) (place : Place) (apiKey : Option String) (vitals : Vitals)
    (now : String) : (start preferences place apiKey vitals now).Heard := by
  intro seen member
  obtain rfl := Watcher.watching.inj (List.mem_singleton.mp member)
  exact Nat.le_refl _

theorem Heard.handle (heard : app.Heard) (request : Request) (answers : DiskAnswers) :
    (app.handle request answers).2.Heard := by
  have left := app.handle_leaves request answers
  intro seen member
  rw [left.watchers] at member
  exact Nat.le_trans (heard seen member) left.version

-- The watcher passes on what is announced, as long as its store is there.
def Watched (app : App) : Prop := ∃ seen others, app.preferences.watchers = .watching seen :: others

-- It took note of another announcement than the last one.
def Behind (app : App) : Prop :=
  ∃ seen others, app.preferences.watchers = .watching seen :: others ∧ seen ≠ app.version

theorem Behind.watched : app.Behind → app.Watched
  | ⟨seen, others, watched, _⟩ => ⟨seen, others, watched⟩

theorem Behind.congr (same : next.preferences = app.preferences) : next.Behind → app.Behind := by
  rintro ⟨seen, others, watched, other⟩
  rw [version, same] at other
  exact ⟨seen, others, same ▸ watched, other⟩

theorem Watched.behind (watched : next.Watched) (kept : next.preferences.watchers = app.preferences.watchers)
    (heard : app.Heard) (announced : app.version < next.version) : next.Behind := by
  obtain ⟨seen, others, watched⟩ := watched
  have noted : seen ≤ app.version := by
    apply heard
    rw [← kept, watched]
    exact List.mem_cons_self ..
  exact ⟨seen, others, watched, Nat.ne_of_lt (Nat.lt_of_le_of_lt noted announced)⟩

-- The watcher passes on the thresholds, and takes note.
def informed (app : App) : App :=
  { app with
    session := app.session.onStation fun s => (s.applyThresholds app.preferences.store.thresholds).1
    preferences := { app.preferences with
      watchers := .watching app.version :: app.preferences.watchers.tail } }

theorem catchUp_behind (behind : app.Behind) : app.catchUp = app.informed := by
  obtain ⟨seen, others, watched, other⟩ := behind
  unfold catchUp
  rw [watched]
  dsimp only
  have changed : (Watcher.watching seen).changed? app.preferences.store = some true :=
    congrArg some (decide_eq_true other)
  rw [if_pos changed, informed, watched]
  rfl

theorem catchUp_current (current : ¬app.Behind) : app.catchUp = app := by
  unfold catchUp
  split
  · next watcher others watched =>
    split
    · next changed =>
      cases watcher with
      | orphaned value => cases changed
      | watching seen =>
        have other : seen ≠ app.version := of_decide_eq_true (Option.some.inj changed)
        exact absurd ⟨seen, others, watched, other⟩ current
    · rfl
  · rfl

theorem Heard.catchUp (heard : app.Heard) : app.catchUp.Heard := by
  by_cases behind : app.Behind
  · rw [catchUp_behind behind]
    intro seen member
    rcases List.mem_cons.mp member with noted | other
    · exact Nat.le_of_eq (Watcher.watching.inj noted)
    · exact heard seen (List.mem_of_mem_tail other)
  · rw [catchUp_current behind]
    exact heard

theorem Heard.run (heard : app.Heard) (turns : List Turn) : (app.run turns).2.Heard := by
  induction turns generalizing app with
  | nil => exact heard
  | cons turn turns ih =>
    cases turn with
    | arrives request answers => exact ih (heard.handle request answers)
    | watches => exact ih heard.catchUp

theorem Follows.catchUp (follows : Follows app next) : Follows app next.catchUp := by
  by_cases behind : next.Behind
  · rw [catchUp_behind behind]
    have board : Station.SameBoard { next.station with thresholds := next.preferences.store.thresholds }
        (next.station.applyThresholds next.preferences.store.thresholds).1 := .touchAll
    exact ⟨board.views.trans follows.views, follows.value, follows.attached, follows.place, follows.key⟩
  · rw [catchUp_current behind]
    exact follows

-- What was announced anew is passed on once, however often it is announced before the watcher's turn.
theorem catchUp_withVersion {version : Nat} (kept : next.preferences.watchers = app.preferences.watchers)
    (heard : app.Heard) (announced : app.version < next.version) (again : next.version < version) :
    (next.withVersion version).catchUp.session = next.catchUp.session := by
  by_cases watched : next.Watched
  · have second : (next.withVersion version).Watched := watched
    rw [catchUp_behind (watched.behind kept heard announced),
      catchUp_behind (second.behind kept heard (Nat.lt_trans announced again))]
    rfl
  · have deaf : ¬(next.withVersion version).Watched := watched
    rw [catchUp_current (mt Behind.watched watched), catchUp_current (mt Behind.watched deaf)]
    rfl

-- What was passed on already is drawn as it is drawn, when it is announced again.
theorem catchUp_again {version : Nat} (kept : next.preferences.watchers = app.preferences.watchers)
    (heard : app.Heard) (announced : app.version < next.version) (again : next.version < version) :
    (next.catchUp.withVersion version).catchUp.session = next.catchUp.session := by
  by_cases watched : next.Watched
  · rw [catchUp_behind (watched.behind kept heard announced)]
    have behind : (next.informed.withVersion version).Behind :=
      ⟨next.version, next.preferences.watchers.tail, rfl, Nat.ne_of_lt again⟩
    rw [catchUp_behind behind]
    have drawn := next.station.applyThresholds_again next.preferences.store.thresholds
    exact congrArg (Session.mk · _ _ _ _) drawn
  · rw [catchUp_current (mt Behind.watched watched)]
    have deaf : ¬(next.withVersion version).Watched := watched
    rw [catchUp_current (mt Behind.watched deaf)]
    rfl

theorem catchUp_version (app : App) : app.catchUp.version = app.version := by
  by_cases behind : app.Behind
  · rw [catchUp_behind behind]
    rfl
  · rw [catchUp_current behind]

theorem catchUp_twice (app : App) : app.catchUp.catchUp = app.catchUp := by
  by_cases behind : app.Behind
  · rw [catchUp_behind behind]
    apply catchUp_current
    rintro ⟨seen, others, watched, other⟩
    obtain ⟨noted, _⟩ := List.cons.inj watched
    exact other (Watcher.watching.inj noted).symm
  · rw [catchUp_current behind, catchUp_current behind]

def after (app : App) (request : Request) (answers : DiskAnswers) (later : String) : App :=
  (app.handle request answers).2.atTime later

-- What a request leaves to do for the same request that comes after it, when the disk answers alike to both.
structure Repeated (app : App) (request : Request) (answers : DiskAnswers) (later : String) : Prop where
  answer : ((app.after request answers later).handle request answers).1 = (app.handle request answers).1.again
  -- Nothing is done but to announce, at most, the value of the preferences once more.
  state : ∃ version ≥ (app.after request answers later).version,
    ((app.after request answers later).handle request answers).2 = (app.after request answers later).withVersion version
  drawn : ((app.after request answers later).handle request answers).2.catchUp.session =
    (app.after request answers later).catchUp.session
  -- The watcher may have its turn between the two.
  informed : ∃ version ≥ (app.after request answers later).version,
    ((app.after request answers later).catchUp.handle request answers).2 =
        (app.after request answers later).catchUp.withVersion version ∧
      ((app.after request answers later).catchUp.handle request answers).2.catchUp.session =
        (app.after request answers later).catchUp.session
  -- Then a view is answered as it was, unless an older change of the thresholds was still to be passed on.
  settled : ¬app.Behind →
    ((app.after request answers later).catchUp.handle request answers).1 = (app.handle request answers).1.again
  -- It does answer alike, as long as it is left to itself.
  alike : answers = app.preferences.place.answers → (app.after request answers later).preferences.place.answers = answers

theorem handle_repeated (app : App) (request : Request) (answers : DiskAnswers) (later : String)
    (writes : request.method = "PUT" ∨ request.method = "DELETE") (heard : app.Heard) :
    app.Repeated request answers later := by
  have repeats := app.handle_repeats answers writes
  have kept := (app.handle_leaves request answers).watchers
  have follows : Follows (app.handle request answers).2 (app.after request answers later) := ⟨rfl, rfl, rfl, rfl, rfl⟩
  have informed := follows.catchUp
  constructor
  case answer => exact repeats.answer _ follows (.inl rfl)
  case state =>
    obtain ⟨version, same, counted⟩ := repeats.idle _ follows
    exact ⟨version, by omega, same⟩
  case drawn =>
    obtain ⟨version, same, rfl | ⟨again, announced⟩⟩ := repeats.idle _ follows
    · exact congrArg (·.catchUp.session) same
    · rw [same]
      exact catchUp_withVersion kept heard announced again
  case informed =>
    obtain ⟨version, same, counted⟩ := repeats.idle _ informed
    rw [catchUp_version] at counted
    refine ⟨version, by omega, same, ?_⟩
    rw [same]
    rcases counted with unannounced | ⟨again, announced⟩
    · rw [withVersion_same (unannounced.trans (catchUp_version _).symm), catchUp_twice]
    · exact catchUp_again kept heard announced again
  case settled =>
    intro current
    apply repeats.answer _ informed
    by_cases same : (app.handle request answers).2.preferences = app.preferences
    · have still : ¬(app.after request answers later).Behind := mt (Behind.congr same) current
      rw [catchUp_current still]
      exact .inl rfl
    · exact .inr same
  case alike =>
    rintro rfl
    exact (app.handle_leaves request app.preferences.place.answers).alike

-- A view is created, and found to be there; and a change breaks off twice.
theorem creation_repeated :
    ((toView "PUT").method = "PUT" ∧ guarded.Heard ∧ guarded.Repeated (toView "PUT") fullAfterThree "T" ∧
      (guarded.handle (toView "PUT") fullAfterThree).1.status = 201 ∧
      ((guarded.after (toView "PUT") fullAfterThree "T").handle (toView "PUT") fullAfterThree).1.status = 200) ∧
    change.method = "PUT" ∧ keeper.Heard ∧ keeper.Repeated change fullAfterThree "T" ∧
      ((keeper.after change fullAfterThree "T").handle change fullAfterThree).1.status = 500 := by
  have heard : guarded.Heard := start_heard _ _ _ _ _
  have repeated := handle_repeated guarded (toView "PUT") fullAfterThree "T" (.inl rfl) heard
  have created : (guarded.handle (toView "PUT") fullAfterThree).1.status = 201 := by decide +kernel
  have kept : keeper.Heard := start_heard _ _ _ _ _
  have again := handle_repeated keeper change fullAfterThree "T" (.inl rfl) kept
  have broken : (keeper.handle change fullAfterThree).1.status = 500 := by decide +kernel
  refine ⟨⟨rfl, heard, repeated, created, ?_⟩, rfl, kept, again, ?_⟩
  · rw [repeated.answer, Response.again, if_pos created]
  · rw [again.answer, Response.again_failure]
    · exact broken
    · rw [broken]
      decide

end App

end Http

end DiskGauge
