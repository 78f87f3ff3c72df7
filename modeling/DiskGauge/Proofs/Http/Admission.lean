import DiskGauge.Proofs.Http.Handlers
import DiskGauge.Proofs.Text.Utf8
import DiskGauge.Station.Settings

namespace DiskGauge

theorem Settings.resolveKey_nonempty (s : Settings) (environment : Option String) :
    s.resolveKey environment ≠ some "" := by
  intro empty
  rcases Option.or_eq_some_iff.mp empty with configured | ⟨_, given⟩
  · simpa using (Option.filter_eq_some_iff.mp configured).2
  · simpa using (Option.filter_eq_some_iff.mp given).2

namespace Http

-- What happens at a service: a request arrives, and the disk answers to what it saves; or the watcher of the
-- preferences has its turn.
inductive Turn where
  | arrives (request : Request) (answers : DiskAnswers)
  | watches

def Turn.request? : Turn → Option Request
  | .arrives request _ => some request
  | .watches => none

-- A request that shows no key or another one, where a key must be shown.
def Unauthorised (key : Option String) (request : Request) : Prop :=
  pathOf request.target.toList ≠ chars "/health" ∧
    ∀ expected ∈ key, request.key ≠ some (Utf8.ofString expected)

instance {key : Option String} {request : Request} : Decidable (Unauthorised key request) :=
  inferInstanceAs (Decidable (_ ∧ _))

-- The turns that are left when unauthorised requests are not made.
def Turn.admitted (key : Option String) : Turn → Bool
  | .arrives request _ => ¬Unauthorised key request
  | .watches => true

namespace App

variable {app : App} {request : Request} {answers : DiskAnswers} {key : Option String}

def run : List Turn → App → List (Request × Response) × App
  | [], app => ([], app)
  | .arrives request answers :: turns, app =>
    let (response, app) := app.handle request answers
    let (later, app) := run turns app
    ((request, response) :: later, app)
  | .watches :: turns, app => run turns app.catchUp

theorem headerText?_bytes {value : Bytes} {text : String} (shown : headerText? value = some text) :
    value = Utf8.ofString text := by
  unfold headerText? at shown
  split at shown
  · next visible =>
    obtain rfl := Option.some.inj shown
    rw [Utf8.ofString_ofList, Utf8.encode_ofNat_ascii]
    intro b member
    have allowed := List.all_eq_true.mp visible b member
    simp only [Bool.or_eq_true, Bool.and_eq_true, decide_eq_true_eq] at allowed
    rcases allowed with ⟨_, below⟩ | rfl
    · exact UInt8.lt_trans below (by decide)
    · decide
  · cases shown

theorem authorised_unauthorised (unauthorised : Unauthorised app.apiKey request) :
    app.authorised request = false := by
  obtain ⟨guarded, wrong⟩ := unauthorised
  have hidden : isPublic request = false := by simpa [isPublic] using guarded
  unfold authorised keyAccepted
  rw [hidden, Bool.false_or]
  cases configured : app.apiKey with
  | none => rfl
  | some expected =>
    refine decide_eq_false fun shown => ?_
    obtain ⟨value, given, text⟩ := Option.bind_eq_some_iff.mp shown
    exact wrong expected configured (by rw [given, headerText?_bytes text])

-- Whatever the route, the method and the body.
theorem handle_unauthorised (unauthorised : Unauthorised app.apiKey request) (answers : DiskAnswers) :
    (app.handle request answers).1.status = 401 ∧ (app.handle request answers).2 = app := by
  have unknown := authorised_unauthorised unauthorised
  unfold handle
  rw [unknown]
  cases Route.ofPath? (pathOf request.target.toList) with
  | none => exact ⟨rfl, rfl⟩
  | some route =>
    dsimp only
    cases route.operation? request.method with
    | none => exact ⟨rfl, rfl⟩
    | some operation => exact ⟨rfl, rfl⟩

theorem catchUp_apiKey (app : App) : app.catchUp.apiKey = app.apiKey := by
  unfold catchUp
  split
  · split <;> rfl
  · rfl

structure Invisible (key : Option String) (turns : List Turn) (app : App) : Prop where
  answered : (app.run turns).1.map Prod.fst = turns.filterMap Turn.request?
  refused (request : Request) (response : Response) : (request, response) ∈ (app.run turns).1 →
    Unauthorised key request → response.status = 401
  -- The other requests have the answers, and the service the state, that they have without them.
  answers : (app.run turns).1.filter (fun answer => ¬Unauthorised key answer.1) =
    (app.run (turns.filter (Turn.admitted key))).1
  state : (app.run turns).2 = (app.run (turns.filter (Turn.admitted key))).2

variable {turns : List Turn}

theorem run_arrives : app.run (.arrives request answers :: turns) =
    ((request, (app.handle request answers).1) :: ((app.handle request answers).2.run turns).1,
      ((app.handle request answers).2.run turns).2) := rfl

theorem invisible_watches (later : Invisible key turns app.catchUp) : Invisible key (.watches :: turns) app := by
  have kept : (Turn.watches :: turns).filter (Turn.admitted key) = .watches :: turns.filter (Turn.admitted key) := rfl
  refine ⟨later.answered, later.refused, ?_, ?_⟩
  · rw [kept]
    exact later.answers
  · rw [kept]
    exact later.state

theorem invisible_unauthorised (keyed : app.apiKey = key) (unauthorised : Unauthorised key request)
    (later : Invisible key turns app) : Invisible key (.arrives request answers :: turns) app := by
  have hidden : Unauthorised app.apiKey request := keyed.symm ▸ unauthorised
  obtain ⟨status, same⟩ := handle_unauthorised hidden answers
  have dropped : (Turn.arrives request answers :: turns).filter (Turn.admitted key) =
      turns.filter (Turn.admitted key) := by simp [Turn.admitted, unauthorised]
  constructor
  case answered =>
    rw [run_arrives, same, List.map_cons, later.answered]
    rfl
  case refused =>
    intro other response member
    rw [run_arrives, same] at member
    rcases List.mem_cons.mp member with here | behind
    · obtain ⟨rfl, rfl⟩ := Prod.mk.inj here
      exact fun _ => status
    · exact later.refused other response behind
  case answers =>
    rw [run_arrives, same, dropped, ← later.answers]
    simp [unauthorised]
  case state => rw [run_arrives, same, dropped, ← later.state]

theorem invisible_admitted (admitted : ¬Unauthorised key request)
    (later : Invisible key turns (app.handle request answers).2) :
    Invisible key (.arrives request answers :: turns) app := by
  have kept : (Turn.arrives request answers :: turns).filter (Turn.admitted key) =
      .arrives request answers :: turns.filter (Turn.admitted key) := by simp [Turn.admitted, admitted]
  constructor
  case answered =>
    rw [run_arrives, List.map_cons, later.answered]
    rfl
  case refused =>
    intro other response member
    rcases List.mem_cons.mp member with here | behind
    · obtain ⟨rfl, rfl⟩ := Prod.mk.inj here
      exact fun unauthorised => absurd unauthorised admitted
    · exact later.refused other response behind
  case answers =>
    rw [kept, run_arrives, run_arrives, ← later.answers]
    simp [admitted]
  case state =>
    rw [kept, run_arrives, run_arrives]
    exact later.state

theorem run_invisible (app : App) (keyed : app.apiKey = key) (turns : List Turn) : Invisible key turns app := by
  induction turns generalizing app with
  | nil => exact ⟨rfl, fun _ _ member => (nomatch member), rfl, rfl⟩
  | cons turn turns ih =>
    cases turn with
    | watches => exact invisible_watches (ih _ (app.catchUp_apiKey.trans keyed))
    | arrives request answers =>
      by_cases unauthorised : Unauthorised key request
      · exact invisible_unauthorised keyed unauthorised (ih app keyed)
      · exact invisible_admitted unauthorised (ih _ ((app.handle_leaves request answers).apiKey.trans keyed))

theorem unauthorised_invisible (s : Settings) (environment : Option String) (app : App) (turns : List Turn) :
    s.resolveKey environment ≠ some "" ∧
      Invisible (s.resolveKey environment) turns { app with apiKey := s.resolveKey environment } :=
  ⟨s.resolveKey_nonempty environment, run_invisible { app with apiKey := s.resolveKey environment } rfl turns⟩

end App

end Http

end DiskGauge
