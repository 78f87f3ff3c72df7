import DiskGauge.Proofs.Preferences.Restart

namespace DiskGauge

-- What a disk says on which a call that fails leaves the file alone: whether the directory could be made, and the
-- file be written.
structure WholeAnswers where
  parent : Except IoFault Unit
  file : Except IoFault Unit

namespace WholeAnswers

def areGood (a : WholeAnswers) : Bool := a.parent.isOk && a.file.isOk

def disk (a : WholeAnswers) : DiskAnswers := ⟨a.parent, a.file, []⟩

-- The answers that a place gives by itself.
def atPlace (place : Place) : WholeAnswers := ⟨place.makeParent, place.openEmpty.map fun _ => ()⟩

end WholeAnswers

inductive DeskStep where
  | set (gigabytes : Double) (answers : WholeAnswers)
  | watch
  | ask (number : Nat) (take : Bool)

-- The value that a step puts into use.
def DeskStep.put? : DeskStep → Option Preferences
  | .set gigabytes answers =>
    if (⟨gigabytes⟩ : Preferences).isValid && answers.areGood then some ⟨gigabytes⟩ else none
  | _ => none

abbrev DeskHistory := List DeskStep

namespace DeskHistory

def lastPut : DeskHistory → Option Preferences
  | [] => none
  | step :: earlier =>
    match step.put? with
    | some value => some value
    | none => lastPut earlier

def watchers : DeskHistory → Nat
  | [] => 0
  | .watch :: earlier => watchers earlier + 1
  | _ :: earlier => watchers earlier

-- Whether a value was put into use since the watcher of a number came or last took note.
def isNews (number : Nat) : DeskHistory → Bool
  | [] => false
  | .set gigabytes answers :: earlier =>
    (DeskStep.set gigabytes answers).put?.isSome || isNews number earlier
  | .watch :: earlier => watchers earlier ≠ number && isNews number earlier
  | .ask other take :: earlier => !(take && other = number) && isNews number earlier

end DeskHistory

namespace PreferencesDesk

def perform (d : PreferencesDesk) : DeskStep → PreferencesDesk
  | .set gigabytes answers => (d.set gigabytes answers.disk).2
  | .watch => d.watch.2
  | .ask number take => (d.ask number take).2

def after (d : PreferencesDesk) : DeskHistory → PreferencesDesk
  | [] => d
  | step :: earlier => (d.after earlier).perform step

variable {d : PreferencesDesk} {place : Place} {opening : Preferences} {history : DeskHistory} {gigabytes : Double}
  {answers : WholeAnswers} {number : Nat}

-- A step that sets a value does so completely, or not at all.
theorem set_whole (attached : d.store.attached = true) (gigabytes : Double) (answers : WholeAnswers) :
    (∃ fault, (DeskStep.set gigabytes answers).put? = none ∧ d.set gigabytes answers.disk = (.error fault, d)) ∨
      ((DeskStep.set gigabytes answers).put? = some ⟨gigabytes⟩ ∧
        (⟨gigabytes⟩ : Preferences).isValid = true ∧ answers.areGood = true ∧
        d.set gigabytes answers.disk = (.ok ⟨gigabytes⟩, { d with
          store := d.store.announce ⟨gigabytes⟩, place := .file (⟨gigabytes⟩ : Preferences).fileBytes })) := by
  have opens : answers.disk.opens = answers.areGood := rfl
  have put : (DeskStep.set gigabytes answers).put? =
      if (⟨gigabytes⟩ : Preferences).isValid && answers.disk.opens then some ⟨gigabytes⟩ else none := rfl
  have changed := d.store.set_changed gigabytes d.place answers.disk
  rw [put, ← opens]
  unfold set
  generalize d.store.set gigabytes d.place answers.disk = outcome at changed
  cases changed with
  | invalid invalid => exact .inl ⟨_, by rw [invalid]; rfl, rfl⟩
  | closed fault valid _ closed => exact .inl ⟨_, by rw [valid, closed]; rfl, rfl⟩
  | torn fault count _ _ _ listed _ => exact absurd rfl listed
  | saved valid _ good => exact .inr ⟨by rw [valid, good]; rfl, valid, good, rfl⟩
  | unsaved _ inMemory =>
    rw [attached] at inMemory
    cases inMemory

-- A desk that does what its history says, with what each watcher remembers.
structure Kept (place : Place) (opening : Preferences) (history : DeskHistory) (d : PreferencesDesk) : Prop where
  attached : d.store.attached = true
  value : d.store.get = history.lastPut.getD opening
  valid : d.store.get.isValid = true
  file : d.place = (history.lastPut.map fun value => Place.file value.fileBytes).getD place
  count : d.watchers.length = history.watchers
  watching : ∀ number w, d.watchers[number]? = some w → ∃ seen, w = .watching seen ∧
    seen ≤ d.store.announced.version ∧ (history.isNews number = true ↔ seen ≠ d.store.announced.version)

namespace Kept

theorem set (kept : Kept place opening history d) (gigabytes : Double) (answers : WholeAnswers) :
    Kept place opening (.set gigabytes answers :: history) (d.perform (.set gigabytes answers)) := by
  change Kept _ _ _ (d.set gigabytes answers.disk).2
  rcases set_whole kept.attached gigabytes answers with ⟨fault, refused, failed⟩ | ⟨put, valid, _, done⟩
  · have same : DeskHistory.lastPut (.set gigabytes answers :: history) = history.lastPut := by
      simp only [DeskHistory.lastPut, refused]
    rw [failed]
    refine ⟨kept.attached, by rw [same, kept.value], kept.valid, by rw [same, kept.file], kept.count, ?_⟩
    intro number w here
    simpa only [DeskHistory.isNews, refused, Option.isSome_none, Bool.false_or] using kept.watching number w here
  · have now : DeskHistory.lastPut (.set gigabytes answers :: history) = some ⟨gigabytes⟩ := by
      simp only [DeskHistory.lastPut, put]
    rw [done]
    refine ⟨kept.attached, by rw [now]; rfl, valid, by rw [now]; rfl, kept.count, ?_⟩
    intro number w here
    obtain ⟨seen, watching, bound, _⟩ := kept.watching number w here
    have behind : seen < d.store.announced.version + 1 := Nat.lt_succ_of_le bound
    have missed : seen ≠ (d.store.announce ⟨gigabytes⟩).announced.version := Nat.ne_of_lt behind
    refine ⟨seen, watching, Nat.le_of_lt behind, ?_⟩
    simpa only [DeskHistory.isNews, put, Option.isSome_some, Bool.true_or, true_iff] using missed

theorem watch (kept : Kept place opening history d) :
    Kept place opening (.watch :: history) (d.perform .watch) := by
  change Kept _ _ _ { d with watchers := d.watchers ++ [d.store.watch] }
  refine ⟨kept.attached, kept.value, kept.valid, kept.file, ?_, ?_⟩
  · change (d.watchers ++ [d.store.watch]).length = history.watchers + 1
    rw [List.length_append, kept.count]
    rfl
  · intro number w here
    change (d.watchers ++ [d.store.watch])[number]? = some w at here
    rcases Nat.lt_trichotomy number d.watchers.length with older | rfl | beyond
    · rw [List.getElem?_append_left older] at here
      have other : history.watchers ≠ number := by
        rw [← kept.count]
        exact Nat.ne_of_gt older
      simpa [DeskHistory.isNews, other] using kept.watching number w here
    · rw [List.getElem?_concat_length] at here
      obtain rfl := Option.some.inj here
      refine ⟨d.store.announced.version, rfl, Nat.le_refl _, ?_⟩
      simp [DeskHistory.isNews, kept.count]
    · have absent : (d.watchers ++ [d.store.watch]).length ≤ number := by
        rw [List.length_append]
        exact beyond
      rw [List.getElem?_eq_none absent] at here
      cases here

theorem ask (kept : Kept place opening history d) (number : Nat) (take : Bool) :
    Kept place opening (.ask number take :: history) (d.perform (.ask number take)) := by
  have untouched : ∀ other w, d.watchers[other]? = some w → (take = true → other ≠ number) →
      ∃ seen, w = .watching seen ∧ seen ≤ d.store.announced.version ∧
        (DeskHistory.isNews other (.ask number take :: history) = true ↔ seen ≠ d.store.announced.version) := by
    intro other w here apart
    have unmarked : (!(take && decide (number = other))) = true := by
      cases take with
      | false => rfl
      | true => simpa using Ne.symm (apart rfl)
    simpa only [DeskHistory.isNews, unmarked, Bool.true_and] using kept.watching other w here
  change Kept _ _ _ (d.ask number take).2
  unfold PreferencesDesk.ask
  cases known : d.watchers[number]? with
  | none =>
    refine ⟨kept.attached, kept.value, kept.valid, kept.file, kept.count, ?_⟩
    intro other w here
    refine untouched other w here fun _ equal => ?_
    rw [equal, known] at here
    cases here
  | some own =>
    cases take with
    | false =>
      exact ⟨kept.attached, kept.value, kept.valid, kept.file, kept.count,
        fun other w here => untouched other w here fun taken => nomatch taken⟩
    | true =>
      obtain ⟨bound, _⟩ := List.getElem?_eq_some_iff.mp known
      refine ⟨kept.attached, kept.value, kept.valid, kept.file, ?_, ?_⟩
      · exact List.length_set.trans kept.count
      · intro other w here
        change (d.watchers.set number (own.takeNote d.store))[other]? = some w at here
        by_cases equal : number = other
        · subst equal
          rw [List.getElem?_set_self bound] at here
          obtain ⟨seen, rfl, _⟩ := kept.watching number own known
          obtain rfl := Option.some.inj here
          refine ⟨d.store.announced.version, rfl, Nat.le_refl _, ?_⟩
          simp [DeskHistory.isNews]
        · rw [List.getElem?_set_ne equal] at here
          exact untouched other w here fun _ => Ne.symm equal

theorem perform (kept : Kept place opening history d) (step : DeskStep) :
    Kept place opening (step :: history) (d.perform step) := by
  cases step with
  | set gigabytes answers => exact kept.set gigabytes answers
  | watch => exact kept.watch
  | ask number take => exact kept.ask number take

theorem after (kept : Kept place opening [] d) (history : DeskHistory) :
    Kept place opening history (d.after history) := by
  induction history with
  | nil => exact kept
  | cons step earlier ih => exact ih.perform step

end Kept

theorem load_valid {place : Place} {p : Preferences} (loaded : Preferences.load place = .ok p) : p.isValid = true := by
  unfold Preferences.load at loaded
  split at loaded
  · split at loaded
    · cases loaded
    · next text _ =>
      unfold Preferences.ofText at loaded
      split at loaded
      · cases loaded
      · next read _ =>
        split at loaded
        · next checked =>
          obtain rfl := Except.ok.inj loaded
          exact Preferences.isValid_of_ok checked
        · cases loaded
  · obtain rfl := Except.ok.inj loaded
    decide +kernel

-- A store that was just loaded, or that starts with the standard preferences, has nothing but valid preferences.
theorem opened_kept {store : PreferencesStore}
    (opened : PreferencesStore.load place = .ok store ∨ store = .standardAt) :
    Kept place store.get [] ⟨store, place, []⟩ := by
  have fresh : store.attached = true ∧ store.get.isValid = true := by
    rcases opened with loaded | rfl
    · unfold PreferencesStore.load at loaded
      cases read : Preferences.load place with
      | error fault =>
        rw [read] at loaded
        cases loaded
      | ok value =>
        rw [read] at loaded
        cases loaded
        exact ⟨rfl, load_valid read⟩
    · exact ⟨rfl, by decide +kernel⟩
  exact ⟨fresh.1, rfl, fresh.2, rfl, rfl, fun number w here => by simp at here⟩

structure Recorded (place : Place) (opening : Preferences) (history : DeskHistory) (d : PreferencesDesk) : Prop where
  value : d.store.get = history.lastPut.getD opening
  finite : d.store.get.gigabytes.isFinite = true
  notNegative : Double.le .zero d.store.get.gigabytes = true
  file : d.place = (history.lastPut.map fun value => Place.file value.fileBytes).getD place
  -- Each watcher there is tells the value in use, and whether there is news for it.
  watchers : ∀ number take, (d.ask number take).1 =
    if number < history.watchers then some (some (history.isNews number), d.store.get) else none
  -- Of every value that is set next, under whatever answers of the file system.
  succeeds : ∀ gigabytes (answers : WholeAnswers) p, (d.set gigabytes answers.disk).1 = .ok p ↔
    p = ⟨gigabytes⟩ ∧ gigabytes.isFinite = true ∧ Double.le .zero gigabytes = true ∧ answers.areGood = true
  fails : ∀ gigabytes (answers : WholeAnswers) fault, (d.set gigabytes answers.disk).1 = .error fault →
    (d.set gigabytes answers.disk).2 = d
  unaided : ∀ gigabytes, d.set gigabytes = d.set gigabytes (WholeAnswers.atPlace d.place).disk

theorem Kept.recorded (kept : Kept place opening history d) : Recorded place opening history d := by
  obtain ⟨finite, notNegative⟩ := (Bool.and_eq_true ..).mp kept.valid
  refine ⟨kept.value, finite, notNegative, kept.file, ?_, ?_, ?_, fun _ => rfl⟩
  · intro number take
    rw [← kept.count]
    unfold PreferencesDesk.ask
    cases known : d.watchers[number]? with
    | none =>
      have absent : ¬number < d.watchers.length := Nat.not_lt.mpr (List.getElem?_eq_none_iff.mp known)
      rw [if_neg absent]
    | some w =>
      obtain ⟨present, _⟩ := List.getElem?_eq_some_iff.mp known
      obtain ⟨seen, rfl, _, news⟩ := kept.watching number w known
      have told : decide (seen ≠ d.store.announced.version) = history.isNews number := by
        rw [Bool.eq_iff_iff, decide_eq_true_eq, news]
      rw [if_pos present, ← told]
      rfl
  · intro gigabytes answers p
    rcases set_whole kept.attached gigabytes answers with ⟨fault, refused, failed⟩ | ⟨_, valid, good, done⟩
    · rw [failed]
      constructor
      · intro succeeded
        cases succeeded
      rintro ⟨_, finite, notNegative, good⟩
      have valid : (⟨gigabytes⟩ : Preferences).isValid = true := (Bool.and_eq_true ..).mpr ⟨finite, notNegative⟩
      simp [DeskStep.put?, valid, good] at refused
    · obtain ⟨finite, notNegative⟩ := (Bool.and_eq_true ..).mp valid
      rw [done]
      constructor
      · intro succeeded
        exact ⟨(Except.ok.inj succeeded).symm, finite, notNegative, good⟩
      · rintro ⟨rfl, _⟩
        rfl
  · intro gigabytes answers fault faulty
    rcases set_whole kept.attached gigabytes answers with ⟨_, _, failed⟩ | ⟨_, _, _, done⟩
    · rw [failed]
    · rw [done] at faulty
      cases faulty

theorem after_recorded {store : PreferencesStore}
    (opened : PreferencesStore.load place = .ok store ∨ store = .standardAt) (history : DeskHistory) :
    Recorded place store.get history (PreferencesDesk.after ⟨store, place, []⟩ history) :=
  ((opened_kept opened).after history).recorded

-- Of three values that are set behind a watcher's back, the second cannot be written and the third is negative.
def unevenUse : DeskHistory :=
  [.set (.ofDecimal true 1 0) ⟨.ok (), .ok ()⟩, .set (.ofDecimal false 2 0) ⟨.ok (), .error .isADirectory⟩,
    .set (.ofDecimal false 15 (-1)) ⟨.ok (), .ok ()⟩, .watch]

theorem recorded_after_failures :
    PreferencesStore.load .absent = .ok .standardAt ∧
      unevenUse.lastPut = some ⟨.ofDecimal false 15 (-1)⟩ ∧ unevenUse.isNews 0 = true ∧
      Recorded .absent PreferencesStore.standardAt.get unevenUse
        (PreferencesDesk.after ⟨.standardAt, .absent, []⟩ unevenUse) := by
  have loaded : PreferencesStore.load .absent = .ok .standardAt := rfl
  exact ⟨loaded, by decide +kernel, by decide +kernel, after_recorded (.inl loaded) unevenUse⟩

end PreferencesDesk

end DiskGauge
