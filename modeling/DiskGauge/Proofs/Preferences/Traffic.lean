import DiskGauge.Proofs.Preferences.Restart

namespace DiskGauge
open Json Double

inductive Stage where
  | asked
  | checked
  | housed
  | saved
  | answered (result : Except PreferencesFault Preferences)
deriving DecidableEq

structure Change where
  value : Preferences
  stage : Stage
deriving DecidableEq

namespace Stage

-- The stages of a change whose value has been found good, has been saved, or has been announced.
def isGood : Stage → Bool
  | .asked => false
  | .checked => true
  | .housed => true
  | .saved => true
  | .answered (.ok _) => true
  | .answered (.error _) => false

def hasSaved : Stage → Bool
  | .saved => true
  | .answered (.ok _) => true
  | _ => false

def hasAnnounced : Stage → Bool
  | .answered (.ok _) => true
  | _ => false

theorem announced_saved {stage : Stage} (unsaved : stage.hasSaved = false) : stage.hasAnnounced = false := by
  cases stage with
  | answered result =>
    cases result with
    | ok value => cases unsaved
    | error fault => rfl
  | _ => rfl

end Stage

structure Traffic where
  store : PreferencesStore
  place : Place
  changes : List Change
  -- The numbers of the changes that have written the file and that have announced their value, the last one first.
  savers : List Nat
  announcers : List Nat
deriving DecidableEq

namespace Traffic

variable {t : Traffic} {i j : Nat} {c : Change} {start : Announced} {place : Place} {values : List Preferences}

def begin (store : PreferencesStore) (place : Place) (values : List Preferences) : Traffic :=
  ⟨store, place, values.map fun value => ⟨value, .asked⟩, [], []⟩

def move (t : Traffic) (i : Nat) (c : Change) (stage : Stage) : Traffic :=
  { t with changes := t.changes.set i { c with stage } }

def turn (t : Traffic) (i : Nat) : Traffic :=
  match t.changes[i]? with
  | none => t
  | some c =>
    match c.stage with
    | .asked =>
      match c.value.validate with
      | .ok _ => t.move i c .checked
      | .error fault => t.move i c (.answered (.error fault))
    | .checked =>
      if t.store.attached then
        match t.place.makeParent with
        | .ok _ => t.move i c .housed
        | .error fault => t.move i c (.answered (.error (.io fault)))
      else t.move i c .saved
    | .housed =>
      match t.place.write c.value.fileBytes with
      | .ok place => { t.move i c .saved with place, savers := i :: t.savers }
      | .error fault => t.move i c (.answered (.error (.io fault)))
    | .saved =>
      { t.move i c (.answered (.ok c.value)) with
        store := t.store.announce c.value, announcers := i :: t.announcers }
    | .answered _ => t

def run (t : Traffic) (schedule : List Nat) : Traffic := schedule.foldl turn t

-- A change that nothing comes between does what a change of the store does.
theorem run_alone (t : Traffic) (i : Nat) (value : Preferences) (asked : t.changes[i]? = some ⟨value, .asked⟩) :
    ∃ result, t.store.set value.gigabytes t.place t.place.answers =
        (result, (t.run [i, i, i, i]).store, (t.run [i, i, i, i]).place) ∧
      (t.run [i, i, i, i]).changes = t.changes.set i ⟨value, .answered result⟩ := by
  obtain ⟨bound, _⟩ := List.getElem?_eq_some_iff.mp asked
  have moved (c : Change) : (t.changes.set i c)[i]? = some c := List.getElem?_set_self bound
  unfold PreferencesStore.set PreferencesStore.save
  dsimp only
  rw [Place.save_place]
  cases checked : value.validate with
  | error fault =>
    refine ⟨.error fault, ?_, ?_⟩ <;> simp [run, turn, move, asked, moved, checked]
  | ok =>
    cases attached : t.store.attached with
    | false => refine ⟨.ok value, ?_, ?_⟩ <;> simp [run, turn, move, asked, moved, checked, attached]
    | true =>
      cases made : t.place.makeParent with
      | error fault =>
        refine ⟨.error (.io fault), ?_, ?_⟩ <;> simp [run, turn, move, asked, moved, checked, attached, made]
      | ok =>
        cases written : t.place.write value.fileBytes with
        | error fault =>
          refine ⟨.error (.io fault), ?_, ?_⟩ <;>
            simp [run, turn, move, asked, moved, checked, attached, made, written]
        | ok place =>
          refine ⟨.ok value, ?_, ?_⟩ <;>
            simp [run, turn, move, asked, moved, checked, attached, made, written]

-- All that a turn can be: the last two steps are those that others can see.
inductive Turned (t : Traffic) (i : Nat) : Traffic → Prop where
  | rests : Turned t i t
  | moves {c : Change} {stage : Stage} (here : t.changes[i]? = some c)
      (good : stage.isGood = true → c.stage.isGood = true ∨ c.value.isValid = true)
      (before : c.stage.hasSaved = false) (after : stage.hasSaved = false) : Turned t i (t.move i c stage)
  | saves {value : Preferences} (here : t.changes[i]? = some ⟨value, .housed⟩) :
      Turned t i { t.move i ⟨value, .housed⟩ .saved with place := .file value.fileBytes, savers := i :: t.savers }
  | announces {value : Preferences} (here : t.changes[i]? = some ⟨value, .saved⟩) :
      Turned t i { t.move i ⟨value, .saved⟩ (.answered (.ok value)) with
        store := t.store.announce value, announcers := i :: t.announcers }

theorem turn_turned (attached : t.store.attached = true) (i : Nat) : Turned t i (t.turn i) := by
  unfold turn
  cases here : t.changes[i]? with
  | none => exact .rests
  | some c =>
    obtain ⟨value, stage⟩ := c
    cases stage with
    | answered result => exact .rests
    | saved => exact .announces here
    | asked =>
      dsimp only
      cases checked : value.validate with
      | error fault => exact .moves here (fun good => nomatch good) rfl rfl
      | ok =>
        exact .moves here (fun _ => .inr (Preferences.isValid_of_ok checked)) rfl rfl
    | checked =>
      dsimp only
      rw [if_pos attached]
      cases t.place.makeParent with
      | error fault => exact .moves here (fun good => nomatch good) rfl rfl
      | ok => exact .moves here (fun _ => .inl rfl) rfl rfl
    | housed =>
      dsimp only
      cases written : t.place.write value.fileBytes with
      | error fault => exact .moves here (fun good => nomatch good) rfl rfl
      | ok place =>
        obtain rfl := Place.write_ok written
        exact .saves here

-- A log has the number of each change that is past a stage, once.
structure Log (log : List Nat) (past : Stage → Bool) (changes : List Change) : Prop where
  nodup : log.Nodup
  mem (i : Nat) : i ∈ log ↔ ∃ c, changes[i]? = some c ∧ past c.stage = true

namespace Log

variable {log : List Nat} {past : Stage → Bool} {changes : List Change} {stage : Stage}

theorem none (before : ∀ c ∈ changes, past c.stage = false) : Log [] past changes := by
  refine ⟨List.nodup_nil, fun i => ⟨fun member => (nomatch member), ?_⟩⟩
  rintro ⟨c, here, done⟩
  rw [before c (List.mem_of_getElem? here)] at done
  cases done

theorem keep (logged : Log log past changes) (here : changes[i]? = some c) (same : past stage = past c.stage) :
    Log log past (changes.set i ⟨c.value, stage⟩) := by
  obtain ⟨bound, _⟩ := List.getElem?_eq_some_iff.mp here
  refine ⟨logged.nodup, fun j => ?_⟩
  rw [logged.mem j]
  by_cases own : i = j
  · subst own
    rw [List.getElem?_set_self bound, here]
    simp [same]
  · rw [List.getElem?_set_ne own]

theorem add (logged : Log log past changes) (here : changes[i]? = some c) (before : past c.stage = false)
    (after : past stage = true) : Log (i :: log) past (changes.set i ⟨c.value, stage⟩) := by
  obtain ⟨bound, _⟩ := List.getElem?_eq_some_iff.mp here
  have fresh : i ∉ log := by
    intro member
    obtain ⟨other, same, done⟩ := (logged.mem i).mp member
    obtain rfl := Option.some.inj (here.symm.trans same)
    rw [before] at done
    cases done
  refine ⟨List.nodup_cons.mpr ⟨fresh, logged.nodup⟩, fun j => ?_⟩
  rw [List.mem_cons, logged.mem j]
  by_cases own : i = j
  · subst own
    rw [List.getElem?_set_self bound]
    simp [after]
  · rw [List.getElem?_set_ne own, or_iff_right (Ne.symm own)]

-- Once all are past the stage, the log is a permutation of all.
theorem perm (logged : Log log past changes) (all : ∀ c ∈ changes, past c.stage = true) :
    log.Perm (List.range changes.length) := by
  refine (List.perm_ext_iff_of_nodup logged.nodup List.nodup_range).mpr fun i => ?_
  rw [logged.mem i, List.mem_range]
  constructor
  · rintro ⟨c, here, _⟩
    exact (List.getElem?_eq_some_iff.mp here).1
  · intro bound
    exact ⟨changes[i], List.getElem?_eq_getElem bound, all _ (List.getElem_mem bound)⟩

end Log

-- What holds since the last entry of a log, which is the first in the list.
def Latest (log : List Nat) (values : List Preferences) (initially : Prop) (since : Preferences → Prop) : Prop :=
  match log with
  | [] => initially
  | i :: _ => ∃ value, values[i]? = some value ∧ since value

theorem Latest.mono {log : List Nat} {initially : Prop} {since later : Preferences → Prop}
    (latest : Latest log values initially since) (follows : ∀ value, since value → later value) :
    Latest log values initially later := by
  cases log with
  | nil => exact latest
  | cons i before =>
    obtain ⟨value, here, holds⟩ := latest
    exact ⟨value, here, follows value holds⟩

structure Kept (start : Announced) (place : Place) (values : List Preferences) (t : Traffic) : Prop where
  attached : t.store.attached = true
  same : t.changes.map Change.value = values
  good : ∀ c ∈ t.changes, c.stage.isGood = true → c.value.isValid = true
  saved : Log t.savers Stage.hasSaved t.changes
  announced : Log t.announcers Stage.hasAnnounced t.changes
  file : Latest t.savers values (t.place = place) fun value =>
    value.isValid = true ∧ t.place = .file value.fileBytes
  value : Latest t.announcers values (t.store.get = start.value) fun value => t.store.get = value

namespace Kept

theorem begin (start : Announced) (place : Place) (values : List Preferences) :
    Kept start place values (.begin ⟨true, start⟩ place values) := by
  have asked : ∀ c ∈ (Traffic.begin ⟨true, start⟩ place values).changes, c.stage = .asked := by
    intro c member
    obtain ⟨value, _, rfl⟩ := List.mem_map.mp member
    rfl
  refine ⟨rfl, ?_, ?_, ?_, ?_, rfl, rfl⟩
  · simp [Traffic.begin, Function.comp_def]
  · intro c member good
    rw [asked c member] at good
    cases good
  · exact .none fun c member => by rw [asked c member]; rfl
  · exact .none fun c member => by rw [asked c member]; rfl

theorem values_move (kept : Kept start place values t) (here : t.changes[i]? = some c) (stage : Stage) :
    (t.move i c stage).changes.map Change.value = values := by
  obtain ⟨bound, _⟩ := List.getElem?_eq_some_iff.mp here
  rw [← kept.same]
  refine List.ext_getElem? fun j => ?_
  rw [List.getElem?_map, List.getElem?_map]
  by_cases own : i = j
  · subst own
    have moved : (t.move i c stage).changes[i]? = some ⟨c.value, stage⟩ := List.getElem?_set_self bound
    rw [moved, here]
    rfl
  · exact congrArg (Option.map Change.value) (List.getElem?_set_ne own)

theorem good_move (kept : Kept start place values t) {stage : Stage}
    (good : stage.isGood = true → c.value.isValid = true) :
    ∀ other ∈ (t.move i c stage).changes, other.stage.isGood = true → other.value.isValid = true := by
  intro other member
  rcases List.mem_or_eq_of_mem_set member with old | rfl
  · exact kept.good other old
  · exact good

theorem turn (kept : Kept start place values t) (i : Nat) : Kept start place values (t.turn i) := by
  have turned := turn_turned kept.attached i
  generalize t.turn i = next at turned
  cases turned with
  | rests => exact kept
  | @moves c stage here good before after =>
    have good : stage.isGood = true → c.value.isValid = true := by
      intro now
      rcases good now with earlier | valid
      · exact kept.good c (List.mem_of_getElem? here) earlier
      · exact valid
    refine ⟨kept.attached, kept.values_move here stage, kept.good_move good, ?_, ?_, kept.file, kept.value⟩
    · exact kept.saved.keep here (by rw [before, after])
    · exact kept.announced.keep here (by rw [Stage.announced_saved before, Stage.announced_saved after])
  | @saves value here =>
    have valid := kept.good _ (List.mem_of_getElem? here) rfl
    refine ⟨kept.attached, kept.values_move here _, kept.good_move fun _ => valid, ?_, ?_, ?_, kept.value⟩
    · exact kept.saved.add here rfl rfl
    · exact kept.announced.keep here rfl
    · exact ⟨value, by rw [← kept.same, List.getElem?_map, here]; rfl, valid, rfl⟩
  | @announces value here =>
    have valid := kept.good _ (List.mem_of_getElem? here) rfl
    refine ⟨kept.attached, kept.values_move here _, kept.good_move fun _ => valid, ?_, ?_, kept.file, ?_⟩
    · exact kept.saved.keep here rfl
    · exact kept.announced.add here rfl rfl
    · exact ⟨value, by rw [← kept.same, List.getElem?_map, here]; rfl, rfl⟩

theorem run (kept : Kept start place values t) (schedule : List Nat) : Kept start place values (t.run schedule) := by
  induction schedule generalizing t with
  | nil => exact kept
  | cons i later ih => exact ih (kept.turn i)

end Kept

def completed (t : Traffic) : Bool := t.changes.all fun c => c.stage.hasAnnounced

structure Settled (start : Announced) (place : Place) (values : List Preferences) (t : Traffic) : Prop where
  -- The value in use was announced last.
  value : Latest t.announcers values (t.store.get = start.value) fun value => t.store.get = value
  -- The file holds the value that was saved last, and loading yields what its text is read as.
  file : Latest t.savers values (t.place = place) fun value => t.place = .file value.fileBytes ∧
    ∃ y, reread? value.gigabytes = some y ∧ Preferences.load t.place = .ok ⟨y⟩
  -- Once all changes have succeeded, each has saved and announced its value once.
  everyone : t.completed = true →
    t.savers.Perm (List.range values.length) ∧ t.announcers.Perm (List.range values.length)
  -- File and value in use belong together when the same change was the last to save and to announce.
  together : t.savers ≠ [] → t.savers.head? = t.announcers.head? → t.place = .file t.store.get.fileBytes

theorem Kept.settled (kept : Kept start place values t) : Settled start place values t := by
  refine ⟨kept.value, kept.file.mono ?_, ?_, ?_⟩
  · rintro value ⟨valid, content⟩
    obtain ⟨y, read, fit⟩ := Preferences.reread_valid valid
    refine ⟨content, y, read, ?_⟩
    rw [content]
    exact Preferences.load_fileBytes read fit
  · intro completed
    have announced : ∀ c ∈ t.changes, c.stage.hasAnnounced = true := List.all_eq_true.mp completed
    have length : t.changes.length = values.length := by rw [← kept.same, List.length_map]
    rw [← length]
    refine ⟨kept.saved.perm fun c member => ?_, kept.announced.perm announced⟩
    by_contra unsaved
    have silent := Stage.announced_saved (Bool.not_eq_true _ ▸ unsaved)
    rw [announced c member] at silent
    cases silent
  · intro started same
    obtain ⟨i, before, savers⟩ := List.exists_cons_of_ne_nil started
    rw [savers, List.head?_cons] at same
    obtain ⟨earlier, announcers⟩ := List.head?_eq_some_iff.mp same.symm
    have file := kept.file
    have value := kept.value
    rw [savers] at file
    rw [announcers] at value
    obtain ⟨saved, here, _, content⟩ := file
    obtain ⟨announced, there, inUse⟩ := value
    obtain rfl := Option.some.inj (here.symm.trans there)
    rw [content, inUse]

theorem run_settled (start : Announced) (place : Place) (values : List Preferences) (schedule : List Nat) :
    Settled start place values ((begin ⟨true, start⟩ place values).run schedule) :=
  ((Kept.begin start place values).run schedule).settled

-- Two changes at once: the one that saves first announces last.
def race : List Nat := [0, 0, 0, 1, 1, 1, 1, 0]

-- Any two values can part in this way, wherever a file can be written.
theorem run_race (start : Announced) (place : Place) (first second : Preferences)
    (firstValid : first.isValid = true) (secondValid : second.isValid = true)
    (made : place.makeParent = .ok ()) (opened : place.openEmpty = .ok (.file [])) :
    ((begin ⟨true, start⟩ place [first, second]).run race).completed = true ∧
      ((begin ⟨true, start⟩ place [first, second]).run race).store.get = first ∧
      ((begin ⟨true, start⟩ place [first, second]).run race).place = .file second.fileBytes := by
  have accepted : first.validate = .ok () := Preferences.validate_valid firstValid
  have admitted : second.validate = .ok () := Preferences.validate_valid secondValid
  have written (content : Bytes) : place.write content = .ok (.file content) := by
    unfold Place.write
    rw [opened]
    rfl
  have replaced (old content : Bytes) : (Place.file old).write content = .ok (.file content) := rfl
  have there (old : Bytes) : (Place.file old).makeParent = .ok () := rfl
  refine ⟨?_, ?_, ?_⟩ <;>
    simp [race, run, begin, turn, move, accepted, admitted, made, there, written, replaced, completed,
      Stage.hasAnnounced, PreferencesStore.get, PreferencesStore.announce, Announced.announce]

-- All changes to a fresh store have succeeded, and a value is in use that the file does not yield.
def Parted (values : List Preferences) (schedule : List Nat) (inUse loaded : Preferences) : Prop :=
  ((begin ⟨true, ⟨.standard, 0⟩⟩ .absent values).run schedule).completed = true ∧
    ((begin ⟨true, ⟨.standard, 0⟩⟩ .absent values).run schedule).store.get = inUse ∧
    Preferences.load ((begin ⟨true, ⟨.standard, 0⟩⟩ .absent values).run schedule).place = .ok loaded ∧
    loaded ≠ inUse

-- One and two gigabytes are set at once; and, one after the other, 1.5 and a value of sixteen digits.
theorem parted : Parted [⟨ofDecimal false 1 0⟩, ⟨ofDecimal false 2 0⟩] race
      ⟨ofDecimal false 1 0⟩ ⟨ofDecimal false 2 0⟩ ∧
    Parted [⟨ofDecimal false 15 (-1)⟩, ⟨PreferencesDesk.drifting⟩] [0, 0, 0, 0, 1, 1, 1, 1]
      ⟨PreferencesDesk.drifting⟩ ⟨ofDecimal false 9977421578902324 (-14)⟩ := by
  constructor
  · obtain ⟨completed, inUse, file⟩ := run_race ⟨.standard, 0⟩ .absent ⟨ofDecimal false 1 0⟩
      ⟨ofDecimal false 2 0⟩ (by decide +kernel) (by decide +kernel) rfl rfl
    refine ⟨completed, inUse, ?_, by decide +kernel⟩
    rw [file]
    exact Preferences.load_fileBytes (by decide +kernel) (by decide +kernel)
  · unfold Parted
    decide +kernel

end Traffic

end DiskGauge
