import DiskGauge.Text.Basic

namespace DiskGauge

inductive IoFault where
  | notFound
  | exists
  | notADirectory
  | isADirectory
  | noSpace
  | nameTooLong
  | badName
  | notText
  -- A call that took no byte where there were some.
  | nothingTaken
deriving DecidableEq, Repr

def IoFault.message : IoFault → String
  | .notFound => "No such file or directory (os error 2)"
  | .exists => "File exists (os error 17)"
  | .notADirectory => "Not a directory (os error 20)"
  | .isADirectory => "Is a directory (os error 21)"
  | .noSpace => "No space left on device (os error 28)"
  | .nameTooLong => "File name too long (os error 36)"
  | .badName => "file name contained an unexpected NUL byte"
  | .notText => "stream did not contain valid UTF-8"
  | .nothingTaken => "failed to write whole buffer"

-- What a disk says while a file is saved: to the directory that is made for it, to the file that is opened, which
-- empties it, and to each call that writes. Such a call takes some of the bytes that are left, or it fails; once no
-- more of them are listed, one call takes all the rest.
structure DiskAnswers where
  parent : Except IoFault Unit
  opening : Except IoFault Unit
  writing : List (Except IoFault Nat)

-- Whether the file is opened, so that its old content is gone.
def DiskAnswers.opens (a : DiskAnswers) : Bool := a.parent.isOk && a.opening.isOk

inductive Place where
  | file (content : Bytes)
  -- Nothing yet, but a file can be made here, with the directory it lies in.
  | absent
  | directory
  -- The path below a plain file.
  | blocked
  | unnamed (reason : IoFault)
deriving DecidableEq, Repr

namespace Place

-- Components that lead to a directory whatever there is; a slash at the end leaves an empty one.
def isStep (component : List Char) : Bool :=
  component = [] || component = ['.'] || component = ['.', '.']

-- What stands at a path below a fresh directory, before anything is written. A point at the end
-- looks into the directory before it, which nobody makes; two points and a slash only name one.
def ofPath (path : String) : Place :=
  let chars := path.toList
  let parts := Text.split '/' chars
  if chars.isEmpty then .unnamed .notFound
  else if chars.any fun c => c.toNat = 0 then .unnamed .badName
  else if parts.any fun part => 255 < (Utf8.encode part).length then .unnamed .nameTooLong
  else if parts.all isStep then .directory
  else if (parts.filter (· ≠ [])).getLast? = some ['.'] then .unnamed .notFound
  else if isStep (parts.getLast?.getD []) then .unnamed .isADirectory
  else .absent

def isThere : Place → Bool
  | .file _ => true
  | .directory => true
  | _ => false

def read : Place → Except IoFault Bytes
  | .file content => .ok content
  | .absent => .error .notFound
  | .directory => .error .isADirectory
  | .blocked => .error .notADirectory
  | .unnamed reason => .error reason

def readText (place : Place) : Except IoFault String :=
  match place.read with
  | .error fault => .error fault
  | .ok content =>
    match Utf8.string? content with
    | some text => .ok text
    | none => .error .notText

def makeParent : Place → Except IoFault Unit
  | .blocked => .error .exists
  | .unnamed .badName => .error .badName
  | _ => .ok ()

def openEmpty : Place → Except IoFault Place
  | .file _ => .ok (.file [])
  | .absent => .ok (.file [])
  | .directory => .error .isADirectory
  | .blocked => .error .notADirectory
  | .unnamed reason => .error reason

def append (place : Place) (bytes : Bytes) : Place :=
  match place with
  | .file content => .file (content ++ bytes)
  | other => other

def write (place : Place) (content : Bytes) : Except IoFault Place :=
  match place.openEmpty with
  | .ok opened => .ok (opened.append content)
  | .error fault => .error fault

def answers (place : Place) : DiskAnswers := ⟨place.makeParent, place.openEmpty.map fun _ => (), []⟩

def appendPieces (place : Place) (bytes : Bytes) : List (Except IoFault Nat) → Except IoFault Unit × Place
  | [] => (.ok (), place.append bytes)
  | answer :: later =>
    if bytes.isEmpty then (.ok (), place)
    else
      match answer with
      | .error fault => (.error fault, place)
      | .ok 0 => (.error .nothingTaken, place)
      | .ok (count + 1) =>
        (place.append (bytes.take (count + 1))).appendPieces (bytes.drop (count + 1)) later

-- Tells also how a save that fails leaves the place.
def save (place : Place) (content : Bytes) (answers : DiskAnswers) : Except IoFault Unit × Place :=
  match answers.parent with
  | .error fault => (.error fault, place)
  | .ok _ =>
    match answers.opening with
    | .error fault => (.error fault, place)
    | .ok _ => (Place.file []).appendPieces content answers.writing

variable {place : Place} {content : Bytes} {answers : DiskAnswers}

theorem write_ok {written : Place} (saved : place.write content = .ok written) : written = .file content := by
  cases place with
  | file old => exact (Except.ok.inj saved).symm
  | absent => exact (Except.ok.inj saved).symm
  | directory => cases saved
  | blocked => cases saved
  | unnamed reason => cases saved

theorem appendPieces_cases (content bytes : Bytes) (writing : List (Except IoFault Nat)) :
    (Place.file content).appendPieces bytes writing = (.ok (), .file (content ++ bytes)) ∨
      writing ≠ [] ∧ ∃ fault count, count < bytes.length ∧
        (Place.file content).appendPieces bytes writing = (.error fault, .file (content ++ bytes.take count)) := by
  induction writing generalizing content bytes with
  | nil => exact .inl rfl
  | cons answer later ih =>
    have listed : answer :: later ≠ [] := List.cons_ne_nil _ _
    unfold appendPieces
    cases bytes with
    | nil => simp
    | cons b more =>
      cases answer with
      | error fault => exact .inr ⟨listed, fault, 0, by simp, by simp⟩
      | ok count =>
        cases count with
        | zero => exact .inr ⟨listed, .nothingTaken, 0, by simp, by simp⟩
        | succ count =>
          rcases ih (content ++ (b :: more).take (count + 1)) ((b :: more).drop (count + 1)) with
            all | ⟨_, fault, further, short, part⟩
          · apply Or.inl
            simpa [append] using all
          · refine .inr ⟨listed, fault, count + 1 + further, ?_, ?_⟩
            · simp only [List.length_drop] at short
              omega
            · rw [List.take_add, ← List.append_assoc]
              simpa [append] using part

theorem save_opened (opens : answers.opens = true) :
    place.save content answers = (Place.file []).appendPieces content answers.writing := by
  obtain ⟨parent, opening, writing⟩ := answers
  cases parent with
  | error fault => cases opens
  | ok =>
    cases opening with
    | error fault => cases opens
    | ok => rfl

theorem save_closed (closed : answers.opens = false) : ∃ fault, place.save content answers = (.error fault, place) := by
  obtain ⟨parent, opening, writing⟩ := answers
  cases parent with
  | error fault => exact ⟨fault, rfl⟩
  | ok =>
    cases opening with
    | error fault => exact ⟨fault, rfl⟩
    | ok => cases closed

theorem save_cases (place : Place) (content : Bytes) (answers : DiskAnswers) :
    (answers.opens = false ∧ ∃ fault, place.save content answers = (.error fault, place)) ∨
      (answers.opens = true ∧ answers.writing ≠ [] ∧ ∃ fault count, count < content.length ∧
        place.save content answers = (.error fault, .file (content.take count))) ∨
      answers.opens = true ∧ place.save content answers = (.ok (), .file content) := by
  cases opens : answers.opens with
  | false => exact .inl ⟨rfl, save_closed opens⟩
  | true =>
    rw [save_opened opens]
    rcases appendPieces_cases [] content answers.writing with
      all | ⟨listed, fault, count, short, part⟩
    · exact .inr (.inr ⟨rfl, all⟩)
    · exact .inr (.inl ⟨rfl, listed, fault, count, short, part⟩)

theorem save_again (place : Place) (content : Bytes) (answers : DiskAnswers) :
    (place.save content answers).2.save content answers = place.save content answers := by
  cases opens : answers.opens with
  | true => rw [save_opened opens, save_opened opens]
  | false =>
    obtain ⟨fault, refused⟩ : ∃ fault, place.save content answers = (.error fault, place) := save_closed opens
    rw [refused]
    exact refused

theorem answers_file (opens : place.answers.opens = true) (content : Bytes) :
    place.answers = (Place.file content).answers := by
  cases place with
  | file old => rfl
  | absent => rfl
  | directory => cases opens
  | blocked => cases opens
  | unnamed reason => cases reason <;> cases opens

theorem save_place (place : Place) (content : Bytes) : place.save content place.answers =
    match place.makeParent with
    | .error fault => (.error fault, place)
    | .ok _ =>
      match place.write content with
      | .error fault => (.error fault, place)
      | .ok written => (.ok (), written) := by
  cases place with
  | file old => rfl
  | absent => rfl
  | directory => rfl
  | blocked => rfl
  | unnamed reason => cases reason <;> rfl

def content? : Place → Option Bytes
  | .file content => some content
  | _ => none

end Place

end DiskGauge
