import DiskGauge.Preferences.Store
import DiskGauge.Proofs.Json.Members

namespace DiskGauge
open Json Utf8 Double

variable {rest : Bytes}

theorem foldMembers_blank {σ : Type} {member : String → σ → Reader σ} {b : UInt8} (blank : isBlank b = true)
    (steps : Nat) (first : Bool) (s : σ) :
    foldMembers member (steps + 1) first s (b :: rest) = foldMembers member (steps + 1) first s rest := by
  rw [foldMembers, foldMembers, show skipBlanks (b :: rest) = skipBlanks rest from if_pos blank]

theorem readDouble_blank {b : UInt8} (blank : isBlank b = true) :
    readDouble (b :: rest) = readDouble rest := by
  unfold readDouble readNumberAs
  rw [show skipBlanks (b :: rest) = skipBlanks rest from if_pos blank]

namespace Preferences

-- The text of a file: an object with one member on a line of its own.
theorem fileBytes_eq (p : Preferences) :
    p.fileBytes = 0x7B :: 0x0A :: 0x20 :: 0x20 :: (encode (textChars field) ++
      (0x3A :: 0x20 :: (encode (numberChars (.float p.gigabytes)) ++ [0x0A, 0x7D]))) := by
  have text : p.toJson.prettyChars 0 = openBrace :: '\n' :: ' ' :: ' ' :: (textChars field ++
      ':' :: ' ' :: (numberChars (.float p.gigabytes) ++ ['\n', closeBrace])) := by
    simp [toJson, Value.prettyChars, prettyMembers, lineBreak, Value.ofDouble]
  unfold fileBytes
  rw [text]
  simp only [encode_cons, encode_append]
  rfl

theorem read_fileBytes (p : Preferences) {y : Double} (read : reread? p.gigabytes = some y) :
    Preferences.read p.fileBytes = .ok (⟨y⟩, []) := by
  have ends : Ends [0x0A, 0x7D] := by
    intro b head
    obtain rfl := Option.some.inj head
    decide
  have value : readDouble (0x20 :: (encode (numberChars (.float p.gigabytes)) ++ [0x0A, 0x7D])) =
      .ok (y, [0x0A, 0x7D]) := by
    rw [readDouble_blank (by decide), readDouble_written read ends]
  have taken : readMember field none
      (0x3A :: 0x20 :: (encode (numberChars (.float p.gigabytes)) ++ [0x0A, 0x7D])) =
      .ok (some y, [0x0A, 0x7D]) := by
    unfold readMember
    rw [if_pos rfl]
    exact fill_taken field value
  have members : readMembers readMember none (0x0A :: 0x20 :: 0x20 :: (encode (textChars field) ++
      (0x3A :: 0x20 :: (encode (numberChars (.float p.gigabytes)) ++ [0x0A, 0x7D])))) = .ok (some y, []) := by
    unfold readMembers
    generalize encode (numberChars (.float p.gigabytes)) ++ [0x0A, 0x7D] = written at taken ⊢
    rw [foldMembers_blank (by decide), foldMembers_blank (by decide), foldMembers_blank (by decide)]
    have entry (steps : Nat) :
        foldMembers readMember (steps + 1) true none (encode (textChars field) ++ (0x3A :: 0x20 :: written)) = _ :=
      foldMembers_entry steps true none field (0x3A :: 0x20 :: written)
    rw [entry, taken]
    dsimp only
    rw [List.length_cons, foldMembers_blank (by decide), foldMembers_close]
  rw [fileBytes_eq]
  unfold Preferences.read
  rw [readRecord_object, members]
  rfl

theorem isValid_magnitude (rank : Fin finiteRanks) : (⟨.finite false rank⟩ : Preferences).isValid = true := by
  have above : Double.le .zero (.finite false rank) = true := (le_finite ⟨0, by decide⟩ rank).mpr (Nat.zero_le _)
  unfold isValid
  rw [above]
  rfl

-- A value that may be set is a magnitude or minus zero.
theorem isValid_cases {p : Preferences} (valid : p.isValid = true) :
    ∃ negative rank, p = ⟨.finite negative rank⟩ ∧ (negative = true → rank.val = 0) := by
  obtain ⟨gigabytes⟩ := p
  cases gigabytes with
  | infinite negative => cases valid
  | nan => cases valid
  | finite negative rank =>
    refine ⟨negative, rank, rfl, ?_⟩
    rintro rfl
    by_contra some
    have positive := units_pos (Nat.pos_of_ne_zero some)
    have above : Double.le .zero (.finite true rank) = true := ((Bool.and_eq_true ..).mp valid).2
    have low : (0 : Int) ≤ -(units rank : Int) := of_decide_eq_true above
    omega

theorem reread_valid {p : Preferences} (valid : p.isValid = true) :
    ∃ y, reread? p.gigabytes = some y ∧ (⟨y⟩ : Preferences).isValid = true := by
  obtain ⟨negative, rank, rfl, small⟩ := isValid_cases valid
  cases negative with
  | true =>
    have zero := small rfl
    have kept := reread?_exact true rank (by rw [zero]; decide) (by rw [zero]; decide)
    exact ⟨_, kept, valid⟩
  | false =>
    obtain ⟨y, read⟩ := reread?_finite false rank
    exact ⟨_, read, isValid_magnitude y⟩

theorem load_fileBytes {p : Preferences} {y : Double} (read : reread? p.gigabytes = some y)
    (valid : (⟨y⟩ : Preferences).isValid = true) : load (.file p.fileBytes) = .ok ⟨y⟩ := by
  have text : (Place.file p.fileBytes).readText = .ok (String.ofList (p.toJson.prettyChars 0)) := by
    unfold Place.readText Place.read
    dsimp only
    rw [fileBytes, string?_encode]
  have document : readDocument Preferences.read (encode (p.toJson.prettyChars 0)) = .ok ⟨y⟩ := by
    change readDocument Preferences.read p.fileBytes = _
    unfold readDocument
    rw [read_fileBytes p read]
    rfl
  have checked : (⟨y⟩ : Preferences).validate = .ok () := validate_valid valid
  have there : (Place.file p.fileBytes).isThere = true := rfl
  unfold load
  rw [if_pos there, text]
  dsimp only
  unfold ofText
  rw [ofString_ofList, document]
  dsimp only
  rw [checked]

end Preferences

namespace PreferencesDesk

def openAt (place : Place) : PreferencesDesk := ⟨.openAt place, place, []⟩

def setAll (d : PreferencesDesk) : List Double → List (Except PreferencesFault Preferences) × PreferencesDesk
  | [] => ([], d)
  | gigabytes :: later =>
    let (result, d) := d.set gigabytes
    let (results, d) := d.setAll later
    (result :: results, d)

-- The file holds the value in use, which may be set again.
structure Saved (d : PreferencesDesk) : Prop where
  attached : d.store.attached = true
  valid : d.store.get.isValid = true
  file : d.place = .file d.store.get.fileBytes

-- A change fails and leaves everything as it is, or it saves the new value.
theorem set_cases (d : PreferencesDesk) (attached : d.store.attached = true) (gigabytes : Double) :
    (∃ fault, d.set gigabytes = (.error fault, d)) ∨
      ∃ changed, d.set gigabytes = (.ok ⟨gigabytes⟩, changed) ∧ Saved changed ∧
        changed.store.get = ⟨gigabytes⟩ := by
  have changed := d.store.set_changed gigabytes d.place d.place.answers
  unfold set
  generalize d.store.set gigabytes d.place d.place.answers = outcome at changed
  cases changed with
  | invalid _ => exact .inl ⟨_, rfl⟩
  | closed fault _ _ _ => exact .inl ⟨_, rfl⟩
  | torn fault count _ _ _ listed _ => exact absurd rfl listed
  | saved valid _ _ => exact .inr ⟨_, rfl, ⟨attached, valid, rfl⟩, rfl⟩
  | unsaved _ inMemory =>
    rw [attached] at inMemory
    cases inMemory

-- Over all changes: nothing has happened yet, or the last success is what is saved.
theorem setAll_cases (d : PreferencesDesk) (attached : d.store.attached = true) (values : List Double) :
    (d.setAll values).2 = d ∧ (∀ result ∈ (d.setAll values).1, ∃ fault, result = .error fault) ∨
      Saved (d.setAll values).2 ∧ ∃ p, .ok p ∈ (d.setAll values).1 := by
  induction values generalizing d with
  | nil => exact .inl ⟨rfl, fun _ member => nomatch member⟩
  | cons gigabytes later ih =>
    unfold setAll
    rcases set_cases d attached gigabytes with ⟨fault, failed⟩ | ⟨changed, succeeded, saved, _⟩
    · rw [failed]
      rcases ih d attached with ⟨same, failures⟩ | ⟨saved, p, success⟩
      · refine .inl ⟨same, ?_⟩
        intro result member
        rcases List.mem_cons.mp member with rfl | behind
        · exact ⟨fault, rfl⟩
        · exact failures result behind
      · exact .inr ⟨saved, p, List.mem_cons_of_mem _ success⟩
    · rw [succeeded]
      refine .inr ⟨?_, ⟨gigabytes⟩, List.mem_cons_self ..⟩
      rcases ih changed saved.attached with ⟨same, _⟩ | ⟨later, _⟩
      · exact same.symm ▸ saved
      · exact later

theorem Saved.load {d : PreferencesDesk} (saved : Saved d) :
    ∃ y, reread? d.store.get.gigabytes = some y ∧ PreferencesStore.load d.place = .ok ⟨true, ⟨⟨y⟩, 0⟩⟩ := by
  obtain ⟨y, read, valid⟩ := Preferences.reread_valid saved.valid
  refine ⟨y, read, ?_⟩
  unfold PreferencesStore.load
  rw [saved.file, Preferences.load_fileBytes read valid]

theorem openAt_attached (place : Place) : (openAt place).store.attached = true := by
  unfold openAt PreferencesStore.openAt PreferencesStore.load
  cases Preferences.load place <;> rfl

structure Restarted (results : List (Except PreferencesFault Preferences)) (d : PreferencesDesk) : Prop where
  -- Before any change has succeeded, the value is the same as ever.
  untouched : (∀ result ∈ results, ∃ fault, result = .error fault) →
    (PreferencesStore.openAt d.place).get = d.store.get
  -- Afterwards the file loads, and its value is the one that the text of the value in use is read as.
  loads (p : Preferences) : .ok p ∈ results → ∃ store, PreferencesStore.load d.place = .ok store ∧
    reread? d.store.get.gigabytes = some store.get.gigabytes
  -- A value that was told by fifteen digits is kept in any case.
  kept (negative : Bool) (digits places : Nat) : digits ≤ tenTo 15 → 1 ≤ places → places ≤ 22 →
    d.store.get.gigabytes = ofDecimal negative digits (-places) →
    (PreferencesStore.openAt d.place).get = d.store.get

theorem setAll_restarted (place : Place) (values : List Double) :
    Restarted ((openAt place).setAll values).1 ((openAt place).setAll values).2 := by
  rcases setAll_cases (openAt place) (openAt_attached place) values with ⟨same, failures⟩ | ⟨saved, p, success⟩
  · rw [same]
    constructor
    case untouched => exact fun _ => rfl
    case loads =>
      intro p success
      obtain ⟨fault, failed⟩ := failures _ success
      cases failed
    case kept => exact fun _ _ _ _ _ _ _ => rfl
  · obtain ⟨y, read, loaded⟩ := saved.load
    generalize (openAt place).setAll values = outcome at saved success read loaded ⊢
    constructor
    case untouched =>
      intro failures
      obtain ⟨fault, failed⟩ := failures _ success
      cases failed
    case loads =>
      intro _ _
      exact ⟨_, loaded, read⟩
    case kept =>
      intro negative digits places few fractional near value
      have own := reread?_ofDecimal negative few fractional near
      rw [← value, read] at own
      unfold PreferencesStore.openAt
      rw [loaded]
      exact congrArg Preferences.mk (Option.some.inj own)

-- Sixteen digits may be too many: a setting of 99.77421578902323 gigabytes comes back as its neighbour
-- 99.77421578902324.
def drifting : Double := ofDecimal false 9977421578902323 (-14)

theorem reread?_drifting : reread? drifting = some (ofDecimal false 9977421578902324 (-14)) ∧
    ofDecimal false 9977421578902324 (-14) ≠ drifting := by decide +kernel

theorem setAll_drifts : ¬∀ place values,
    (PreferencesStore.openAt ((openAt place).setAll values).2.place).get =
      ((openAt place).setAll values).2.store.get := by
  intro kept
  obtain ⟨neighbour, apart⟩ := reread?_drifting
  have accepted : (⟨drifting⟩ : Preferences).isValid = true := by decide +kernel
  generalize drifting = setting at neighbour apart accepted
  generalize ofDecimal false 9977421578902324 (-14) = other at neighbour apart
  have same := kept .absent [setting]
  rcases set_cases (openAt .absent) (openAt_attached .absent) setting with
    ⟨fault, failed⟩ | ⟨changed, succeeded, saved, value⟩
  · unfold set PreferencesStore.set at failed
    dsimp only at failed
    rw [Preferences.validate_valid accepted] at failed
    cases failed
  · have outcome : ((openAt .absent).setAll [setting]).2 = changed := by
      unfold setAll
      rw [succeeded]
      rfl
    obtain ⟨y, read, loaded⟩ := saved.load
    unfold PreferencesStore.openAt at same
    rw [outcome, loaded, value] at same
    rw [value] at read
    exact apart ((Option.some.inj (neighbour.symm.trans read)).trans (Preferences.mk.inj same))

end PreferencesDesk

end DiskGauge
