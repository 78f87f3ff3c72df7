import DiskGauge.Preferences.Basic

namespace DiskGauge

-- The value last announced, and how many announcements there were.
structure Announced where
  value : Preferences
  version : Nat
deriving DecidableEq, Repr

def Announced.announce (a : Announced) (value : Preferences) : Announced := ⟨value, a.version + 1⟩

-- An orphaned watcher keeps the last value and hears of no change any more.
inductive Watcher where
  | watching (seen : Nat)
  | orphaned (value : Preferences)
deriving DecidableEq, Repr

structure PreferencesStore where
  attached : Bool
  announced : Announced
deriving DecidableEq, Repr

namespace PreferencesStore

def inMemory (value : Preferences) : PreferencesStore := ⟨false, ⟨value, 0⟩⟩

def standardAt : PreferencesStore := ⟨true, ⟨.standard, 0⟩⟩

def load (place : Place) : Except PreferencesFault PreferencesStore :=
  match Preferences.load place with
  | .ok value => .ok ⟨true, ⟨value, 0⟩⟩
  | .error fault => .error fault

def openAt (place : Place) : PreferencesStore :=
  match load place with
  | .ok store => store
  | .error _ => standardAt

def get (s : PreferencesStore) : Preferences := s.announced.value

def thresholds (s : PreferencesStore) : Thresholds := s.get.thresholds

def save (s : PreferencesStore) (value : Preferences) (place : Place) (answers : DiskAnswers) :
    Except PreferencesFault Unit × Place :=
  if s.attached then
    match place.save value.fileBytes answers with
    | (.error fault, left) => (.error (.io fault), left)
    | (.ok _, left) => (.ok (), left)
  else (.ok (), place)

def announce (s : PreferencesStore) (value : Preferences) : PreferencesStore :=
  { s with announced := s.announced.announce value }

-- A change that fails leaves the store as it was; the file may hold a part of the new text.
def set (s : PreferencesStore) (gigabytes : Double) (place : Place) (answers : DiskAnswers) :
    Except PreferencesFault Preferences × PreferencesStore × Place :=
  let value : Preferences := ⟨gigabytes⟩
  match value.validate with
  | .error fault => (.error fault, s, place)
  | .ok _ =>
    match s.save value place answers with
    | (.error fault, left) => (.error fault, s, left)
    | (.ok _, left) => (.ok value, s.announce value, left)

inductive Changed (s : PreferencesStore) (value : Preferences) (place : Place) (answers : DiskAnswers) :
    Except PreferencesFault Preferences × PreferencesStore × Place → Prop where
  | invalid : value.isValid = false →
      Changed s value place answers (.error (.invalidThreshold value.gigabytes), s, place)
  | closed (fault : IoFault) : value.isValid = true → s.attached = true → answers.opens = false →
      Changed s value place answers (.error (.io fault), s, place)
  | torn (fault : IoFault) (count : Nat) : value.isValid = true → s.attached = true → answers.opens = true →
      answers.writing ≠ [] → count < value.fileBytes.length →
      Changed s value place answers (.error (.io fault), s, .file (value.fileBytes.take count))
  | saved : value.isValid = true → s.attached = true → answers.opens = true →
      Changed s value place answers (.ok value, s.announce value, .file value.fileBytes)
  | unsaved : value.isValid = true → s.attached = false →
      Changed s value place answers (.ok value, s.announce value, place)

theorem set_changed (s : PreferencesStore) (gigabytes : Double) (place : Place) (answers : DiskAnswers) :
    Changed s ⟨gigabytes⟩ place answers (s.set gigabytes place answers) := by
  unfold set save
  dsimp only
  cases valid : (⟨gigabytes⟩ : Preferences).isValid with
  | false =>
    rw [Preferences.validate_invalid valid]
    exact .invalid valid
  | true =>
    rw [Preferences.validate_valid valid]
    cases attached : s.attached with
    | false => exact .unsaved valid attached
    | true =>
      dsimp only
      rw [if_pos rfl]
      rcases place.save_cases (⟨gigabytes⟩ : Preferences).fileBytes answers with
        ⟨closed, fault, refused⟩ | ⟨opens, listed, fault, count, short, part⟩ | ⟨opens, whole⟩
      · rw [refused]
        exact .closed fault valid attached closed
      · rw [part]
        exact .torn fault count valid attached opens listed short
      · rw [whole]
        exact .saved valid attached opens

def watch (s : PreferencesStore) : Watcher := .watching s.announced.version

end PreferencesStore

namespace Watcher

-- Nothing can be said once the store is gone.
def changed? (w : Watcher) (s : PreferencesStore) : Option Bool :=
  match w with
  | .watching seen => some (seen ≠ s.announced.version)
  | .orphaned _ => none

def value (w : Watcher) (s : PreferencesStore) : Preferences :=
  match w with
  | .watching _ => s.get
  | .orphaned value => value

def takeNote (w : Watcher) (s : PreferencesStore) : Watcher :=
  match w with
  | .watching _ => .watching s.announced.version
  | .orphaned value => .orphaned value

def orphan (w : Watcher) (s : PreferencesStore) : Watcher := .orphaned (w.value s)

end Watcher

-- A store in use: the place it is saved to, and its watchers in the order in which they came.
structure PreferencesDesk where
  store : PreferencesStore
  place : Place
  watchers : List Watcher
deriving DecidableEq, Repr

namespace PreferencesDesk

def set (d : PreferencesDesk) (gigabytes : Double) (answers : DiskAnswers := d.place.answers) :
    Except PreferencesFault Preferences × PreferencesDesk :=
  let (result, store, place) := d.store.set gigabytes d.place answers
  (result, { d with store, place })

def watch (d : PreferencesDesk) : Nat × PreferencesDesk :=
  (d.watchers.length, { d with watchers := d.watchers ++ [d.store.watch] })

def ask (d : PreferencesDesk) (number : Nat) (take : Bool) :
    Option (Option Bool × Preferences) × PreferencesDesk :=
  match d.watchers[number]? with
  | none => (none, d)
  | some w =>
    let noted := if take then { d with watchers := d.watchers.set number (w.takeNote d.store) } else d
    (some (w.changed? d.store, w.value d.store), noted)

def overwrite (d : PreferencesDesk) (content : Bytes) : PreferencesDesk :=
  match d.place.write content with
  | .ok place => { d with place }
  | .error _ => d

-- The old store is given up only when the file loads.
def reload (d : PreferencesDesk) : Except PreferencesFault Preferences × PreferencesDesk :=
  match PreferencesStore.load d.place with
  | .error fault => (.error fault, d)
  | .ok store => (.ok store.get, { d with store, watchers := d.watchers.map (·.orphan d.store) })

end PreferencesDesk

end DiskGauge
