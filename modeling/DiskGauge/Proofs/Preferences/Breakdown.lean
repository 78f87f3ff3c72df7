import DiskGauge.Proofs.Json.Front
import DiskGauge.Proofs.Preferences.Restart

namespace DiskGauge
open Json Utf8

-- Wherever it is, one call may take so many bytes and the next one fail.
theorem Place.appendPieces_stop (content : Bytes) {bytes : Bytes} {count : Nat} (short : count < bytes.length)
    (fault : IoFault) : ∃ writing, (Place.file content).appendPieces bytes writing =
      (.error fault, .file (content ++ bytes.take count)) := by
  cases bytes with
  | nil => simp at short
  | cons b more =>
    cases count with
    | zero => exact ⟨[.error fault], by simp [appendPieces]⟩
    | succ count =>
      refine ⟨[.ok (count + 1), .error fault], ?_⟩
      have left : more.drop count ≠ [] := by
        rw [Ne, List.drop_eq_nil_iff]
        simp at short
        omega
      simp [appendPieces, append, left]

namespace Preferences

-- Characters that stand for themselves, and that come before the brackets of an object.
def Inner (cs : List Char) : Prop := ∀ c ∈ cs, c.toNat < 0x7B

theorem Inner.append {front back : List Char} (first : Inner front) (second : Inner back) : Inner (front ++ back) := by
  intro c member
  rcases List.mem_append.mp member with front | back
  · exact first c front
  · exact second c back

theorem Inner.cons {c : Char} {cs : List Char} (first : c.toNat < 0x7B) (later : Inner cs) : Inner (c :: cs) := by
  intro d member
  rcases List.mem_cons.mp member with rfl | behind
  · exact first
  · exact later d behind

theorem Inner.sublist {some all : List Char} (inner : Inner all) (part : ∀ c ∈ some, c ∈ all) : Inner some :=
  fun c member => inner c (part c member)

theorem Inner.encoded {cs : List Char} (inner : Inner cs) : ∀ b ∈ encode cs, b < 0x7B := by
  intro b member
  obtain ⟨c, here, byte⟩ := List.mem_flatMap.mp member
  have low := inner c here
  rw [encode_ascii (Nat.lt_trans low (by decide))] at byte
  obtain rfl := List.mem_singleton.mp byte
  exact (ofNat_lt (Nat.lt_trans low (by decide)) 0x7B).mpr low

theorem inner_digits (n : Nat) : Inner (Nat.toDigits 10 n) := by
  intro c member
  have digit := digits_toDigits n c member
  have last : c.val ≤ 57 := by
    simp [Char.isDigit] at digit
    exact digit.2
  exact Nat.lt_of_le_of_lt (UInt32.le_iff_toNat_le.mp last) (by decide)

theorem inner_zeros (count : Nat) : Inner (List.replicate count '0') := by
  intro c member
  rw [List.eq_of_mem_replicate member]
  decide

theorem inner_positional (layout : Layout) {digits : List Char} (inner : Inner digits) (exponent : Int) :
    Inner (layout.positionalText digits exponent) := by
  unfold Layout.positionalText
  dsimp only
  split
  · apply (inner.append (inner_zeros _)).append
    split <;> simp [Inner]
  · split
    · apply Inner.append
      · exact inner.sublist fun _ => List.mem_of_mem_take
      · exact .cons (by decide) (inner.sublist fun _ => List.mem_of_mem_drop)
    · exact .cons (by decide) (.cons (by decide) ((inner_zeros _).append inner))

theorem inner_scientific {digits : List Char} (inner : Inner digits) (exponent : Int) :
    Inner (Layout.scientificText digits exponent) := by
  have power (exponent : Int) : Inner (Layout.exponentText exponent) := by
    apply Inner.cons (by decide)
    apply Inner.cons _ (inner_digits _)
    split <;> decide
  unfold Layout.scientificText
  dsimp only
  split
  · exact power _
  · exact .cons (inner _ (by simp)) (power _)
  · exact .cons (inner _ (by simp)) (.cons (by decide)
      ((inner.sublist fun _ member => List.mem_cons_of_mem _ member).append (power _)))

theorem inner_layout (layout : Layout) (x : Double) : Inner (layout.chars x) := by
  have sign (negative : Bool) : Inner (if negative then ['-'] else []) := by
    cases negative <;> simp [Inner]
  cases x with
  | finite negative rank =>
    apply (sign negative).append
    unfold Layout.magnitude
    split
    · exact inner_positional layout (by simp [Inner]) 0
    · dsimp only
      split
      · exact inner_positional layout (inner_digits _) _
      · exact inner_scientific (inner_digits _) _
  | infinite negative => exact (sign negative).append (by simp [Inner])
  | nan => simp [Layout.chars, Inner]

theorem inner_number (x : Double) : Inner (numberChars (.float x)) := by
  change Inner (if x.isFinite then Layout.json.chars x else ['n', 'u', 'l', 'l'])
  cases x.isFinite with
  | true => exact inner_layout .json x
  | false => simp [Inner]

-- Between the brackets of a file there is no bracket.
theorem fileBytes_parts (p : Preferences) :
    ∃ inner, p.fileBytes = 0x7B :: (inner ++ [0x7D]) ∧ ∀ b ∈ inner, b < 0x7B := by
  refine ⟨encode ('\n' :: ' ' :: ' ' :: (textChars field ++ ':' :: ' ' ::
    (numberChars (.float p.gigabytes) ++ ['\n']))), ?_, Inner.encoded ?_⟩
  · rw [fileBytes_eq]
    simp only [encode_cons, encode_append, List.append_assoc]
    rfl
  · have name : Inner (textChars field) := by
      have all : (textChars field).all (fun c => c.toNat < 0x7B) = true := by decide
      exact fun c member => of_decide_eq_true (List.all_eq_true.mp all c member)
    have line : Inner ['\n'] := by simp [Inner]
    exact .cons (by decide) (.cons (by decide) (.cons (by decide)
      (name.append (.cons (by decide) (.cons (by decide) ((inner_number p.gigabytes).append line))))))

-- Of a text without a closing bracket no preferences are read.
theorem read_open {inner : Bytes} (without : 0x7D ∉ inner) : ∃ stop, read (0x7B :: inner) = .error stop := by
  unfold read
  rw [readRecord_object]
  cases members : readMembers readMember none inner with
  | error stop => exact ⟨stop, rfl⟩
  | ok outcome =>
    have handsOn (name : String) (gigabytes : Option Double) : HandsOn (readMember name gigabytes) := by
      unfold readMember
      intro bytes value rest taken
      split at taken
      · exact fill_handsOn name gigabytes (readNumberAs_handsOn _ _) bytes value rest taken
      · exact skipMember_handsOn name gigabytes bytes value rest taken
    exact absurd (foldMembers_closed handsOn members) without

-- Nothing but the whole text of a file is taken for preferences.
theorem load_torn (p : Preferences) {count : Nat} (short : count < p.fileBytes.length) :
    ∃ error, load (.file (p.fileBytes.take count)) = .error (.serialization error) := by
  obtain ⟨inner, whole, low⟩ := p.fileBytes_parts
  rw [whole] at short ⊢
  obtain ⟨stop, refused⟩ : ∃ stop, read ((0x7B :: (inner ++ [0x7D])).take count) = .error stop := by
    cases count with
    | zero => exact ⟨_, rfl⟩
    | succ count =>
      have within : count ≤ inner.length := by
        simp at short
        omega
      rw [List.take_succ_cons, List.take_append_of_le_length within]
      apply read_open
      intro close
      exact absurd (low _ (List.mem_of_mem_take close)) (by decide)
  have ascii : ∀ b ∈ (0x7B :: (inner ++ [0x7D])).take count, b < 0x80 := by
    intro b member
    rcases List.mem_cons.mp (List.mem_of_mem_take member) with rfl | behind
    · decide
    rcases List.mem_append.mp behind with inside | last
    · exact UInt8.lt_trans (low b inside) (by decide)
    · rw [List.mem_singleton.mp last]
      decide
  generalize (0x7B :: (inner ++ [0x7D])).take count = torn at refused ascii
  have same := encode_ofNat_ascii ascii
  have text : (Place.file torn).readText = .ok (String.ofList (torn.map fun b => Char.ofNat b.toNat)) := by
    unfold Place.readText Place.read
    dsimp only
    rw [← same, string?_encode, same]
  have document : readDocument read torn = .error (stop.locate torn) := by
    unfold readDocument
    rw [refused]
    rfl
  have there : (Place.file torn).isThere = true := rfl
  refine ⟨stop.locate torn, ?_⟩
  unfold load
  rw [if_pos there, text]
  dsimp only
  unfold ofText
  rw [ofString_ofList, same, document]

end Preferences

namespace PreferencesStore

variable {store : PreferencesStore} {gigabytes : Double} {place : Place} {answers : DiskAnswers}

-- Any part of the new text may be what is left.
theorem set_stopped (attached : store.attached = true) (valid : (⟨gigabytes⟩ : Preferences).isValid = true)
    (opens : answers.opens = true) {count : Nat} (short : count < (⟨gigabytes⟩ : Preferences).fileBytes.length)
    (fault : IoFault) : ∃ writing, store.set gigabytes place { answers with writing } =
      (.error (.io fault), store, .file ((⟨gigabytes⟩ : Preferences).fileBytes.take count)) := by
  obtain ⟨writing, part⟩ := Place.appendPieces_stop [] short fault
  have opened : { answers with writing }.opens = true := opens
  refine ⟨writing, ?_⟩
  unfold set save
  dsimp only
  rw [Preferences.validate_valid valid, if_pos attached, Place.save_opened opened, part, List.nil_append]

structure FailedChange (store : PreferencesStore) (gigabytes : Double) (place : Place) (answers : DiskAnswers)
    (outcome : PreferencesStore × Place) : Prop where
  running : outcome.1 = store
  -- Up to the opening of the file its content stays, and so does the value that is loaded.
  spared : (⟨gigabytes⟩ : Preferences).isValid = false ∨ answers.opens = false →
    outcome.2 = place ∧ Preferences.load outcome.2 = .ok store.get
  -- From then on there is a part of the new text, which nobody can load.
  torn : (⟨gigabytes⟩ : Preferences).isValid = true → answers.opens = true →
    ∃ count < (⟨gigabytes⟩ : Preferences).fileBytes.length,
      outcome.2 = .file ((⟨gigabytes⟩ : Preferences).fileBytes.take count) ∧
      (∃ error, load outcome.2 = .error (.serialization error)) ∧ openAt outcome.2 = .standardAt

namespace FailedChange

theorem of_refused (loaded : Preferences.load place = .ok store.get)
    (refused : (⟨gigabytes⟩ : Preferences).isValid = false ∨ answers.opens = false) :
    FailedChange store gigabytes place answers (store, place) := by
  constructor
  case running => rfl
  case spared => exact fun _ => ⟨rfl, loaded⟩
  case torn =>
    intro valid opens
    rcases refused with invalid | closed
    · simp [invalid] at valid
    · simp [closed] at opens

theorem of_torn (valid : (⟨gigabytes⟩ : Preferences).isValid = true) (opens : answers.opens = true)
    {count : Nat} (short : count < (⟨gigabytes⟩ : Preferences).fileBytes.length) :
    FailedChange store gigabytes place answers
      (store, .file ((⟨gigabytes⟩ : Preferences).fileBytes.take count)) := by
  constructor
  case running => rfl
  case spared =>
    rintro (invalid | closed)
    · simp [invalid] at valid
    · simp [closed] at opens
  case torn =>
    intro _ _
    obtain ⟨error, unread⟩ := Preferences.load_torn ⟨gigabytes⟩ short
    have refused : load (.file ((⟨gigabytes⟩ : Preferences).fileBytes.take count)) =
        .error (.serialization error) := by
      unfold load
      rw [unread]
    refine ⟨count, short, rfl, ⟨error, refused⟩, ?_⟩
    unfold openAt
    rw [refused]

end FailedChange

theorem set_failed {fault : PreferencesFault} (loaded : Preferences.load place = .ok store.get)
    (failed : (store.set gigabytes place answers).1 = .error fault) :
    FailedChange store gigabytes place answers (store.set gigabytes place answers).2 := by
  have changed := store.set_changed gigabytes place answers
  generalize store.set gigabytes place answers = outcome at failed changed
  cases changed with
  | invalid invalid => exact .of_refused loaded (.inl invalid)
  | closed _ _ _ closed => exact .of_refused loaded (.inr closed)
  | torn _ _ valid _ opens _ short => exact .of_torn valid opens short
  | saved => cases failed
  | unsaved => cases failed

-- A store of 2.5 gigabytes, and a disk that is full after 13 bytes of the text of another threshold.
def inUse : PreferencesStore := ⟨true, ⟨⟨.ofDecimal false 25 (-1)⟩, 0⟩⟩

def fullDisk : DiskAnswers := ⟨.ok (), .ok (), [.ok 13, .error .noSpace]⟩

theorem inUse_loads : Preferences.load (.file inUse.get.fileBytes) = .ok inUse.get := by decide +kernel

theorem inUse_fullDisk : inUse.set (.ofDecimal false 15 (-1)) (.file inUse.get.fileBytes) fullDisk =
    (.error (.io .noSpace), inUse, .file (ofString "\x7b\n  \"low_disk")) := by decide +kernel

theorem failed_on_fullDisk :
    inUse.attached = true ∧ Preferences.load (.file inUse.get.fileBytes) = .ok inUse.get ∧
      (inUse.set (.ofDecimal false 15 (-1)) (.file inUse.get.fileBytes) fullDisk).1 = .error (.io .noSpace) ∧
      FailedChange inUse (.ofDecimal false 15 (-1)) (.file inUse.get.fileBytes) fullDisk
        (inUse, .file (ofString "\x7b\n  \"low_disk")) := by
  have refused := congrArg Prod.fst inUse_fullDisk
  have failed := set_failed inUse_loads refused
  rw [inUse_fullDisk] at failed
  exact ⟨rfl, inUse_loads, refused, failed⟩

theorem fullDisk_loses : ¬∀ (store : PreferencesStore) (place : Place) (gigabytes : Double)
      (answers : DiskAnswers) fault,
    store.attached = true → Preferences.load place = .ok store.get → (⟨gigabytes⟩ : Preferences).isValid = true →
    (store.set gigabytes place answers).1 = .error fault →
    Preferences.load (store.set gigabytes place answers).2.2 = .ok store.get := by
  intro kept
  have later := kept inUse _ (.ofDecimal false 15 (-1)) fullDisk _ rfl inUse_loads (by decide +kernel)
    (congrArg Prod.fst inUse_fullDisk)
  rw [inUse_fullDisk] at later
  exact absurd later (by decide +kernel)

end PreferencesStore

end DiskGauge
