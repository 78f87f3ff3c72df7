import DiskGauge.Proofs.Json.Numbers
import DiskGauge.Proofs.Json.Strings

namespace DiskGauge.Json
open Utf8

variable {σ α : Type} {member : String → σ → Reader σ} {s t u : σ} {rest more : Bytes} {stop : Stop}

theorem ends_comma (more : Bytes) : Ends (0x2C :: more) := by
  intro b head
  obtain rfl := Option.some.inj head
  decide

theorem ends_close (more : Bytes) : Ends (0x7D :: more) := by
  intro b head
  obtain rfl := Option.some.inj head
  decide

-- A member with its value, as it is written, is read from one state to another.
def Takes (member : String → σ → Reader σ) (s : σ) (entry : String × Value) (t : σ) : Prop :=
  ∀ rest, Ends rest → member entry.1 s (0x3A :: (encode entry.2.chars ++ rest)) = .ok (t, rest)

-- Reading stops within the value of a member.
def Refuses (member : String → σ → Reader σ) (s : σ) (entry : String × Value) : Prop :=
  ∀ rest, Ends rest → ∃ stop, member entry.1 s (0x3A :: (encode entry.2.chars ++ rest)) = .error stop

-- The members of an object, taken one after the other.
inductive TakesAll (member : String → σ → Reader σ) : σ → List (String × Value) → σ → Prop where
  | done (s : σ) : TakesAll member s [] s
  | next {s t u : σ} {entry : String × Value} {members : List (String × Value)} :
    Takes member s entry t → TakesAll member t members u → TakesAll member s (entry :: members) u

-- Up to one that is refused.
inductive RefusesOne (member : String → σ → Reader σ) : σ → List (String × Value) → Prop where
  | here {s : σ} {entry : String × Value} (members : List (String × Value)) :
    Refuses member s entry → RefusesOne member s (entry :: members)
  | later {s t : σ} {entry : String × Value} {members : List (String × Value)} :
    Takes member s entry t → RefusesOne member t members → RefusesOne member s (entry :: members)

def tailChars (first : Bool) : List (String × Value) → List Char
  | [] => [closeBrace]
  | (name, value) :: members =>
    (if first then [] else [',']) ++ (textChars name ++ ':' :: (value.chars ++ memberChars members))

theorem tailChars_false (members : List (String × Value)) : tailChars false members = memberChars members := by
  cases members <;> simp [tailChars, memberChars]

theorem ends_tailChars (members : List (String × Value)) (rest : Bytes) :
    Ends (encode (tailChars false members) ++ rest) := by
  cases members with
  | nil => exact ends_close _
  | cons entry members => exact ends_comma _

theorem chars_object (members : List (String × Value)) :
    (Value.object members).chars = openBrace :: tailChars true members := by
  cases members <;> simp [Value.chars, tailChars]

theorem length_le_tailChars (first : Bool) (members : List (String × Value)) :
    members.length < (tailChars first members).length := by
  induction members generalizing first with
  | nil => exact Nat.one_pos
  | cons entry members ih =>
    have later := ih false
    rw [tailChars_false] at later
    simp only [tailChars, textChars, List.length_append, List.length_cons]
    omega

theorem encode_textChars (name : String) (bytes : Bytes) :
    encode (textChars name) ++ bytes =
      0x22 :: (encode (name.toList.flatMap escapedChar ++ ['"']) ++ bytes) := rfl

-- One round of the reader: the name of a member, and then whatever is made of its value.
theorem foldMembers_entry (steps : Nat) (first : Bool) (s : σ) (name : String) (bytes : Bytes) :
    foldMembers member (steps + 1) first s
        (encode (if first then [] else [',']) ++ (encode (textChars name) ++ bytes)) =
      match member name s bytes with
      | .error stop => .error stop
      | .ok (t, rest) => foldMembers member steps false t rest := by
  have text := readString_written name bytes
  rw [encode_textChars]
  generalize encode (name.toList.flatMap escapedChar ++ ['"']) ++ bytes = spelled at text ⊢
  cases first with
  | true =>
    have start : foldMembers.nameStart true 0x22 spelled = .ok spelled := rfl
    change foldMembers member (steps + 1) true s (0x22 :: spelled) = _
    rw [foldMembers, skipBlanks_cons (by decide)]
    dsimp only
    rw [if_neg (by decide), start]
    cases taken : member name s bytes <;> simp only [text, taken]
  | false =>
    have start : foldMembers.nameStart false 0x2C (0x22 :: spelled) = .ok spelled := rfl
    change foldMembers member (steps + 1) false s (0x2C :: 0x22 :: spelled) = _
    rw [foldMembers, skipBlanks_cons (by decide)]
    dsimp only
    rw [if_neg (by decide), start]
    cases taken : member name s bytes <;> simp only [text, taken]

theorem foldMembers_close (steps : Nat) (first : Bool) (s : σ) (rest : Bytes) :
    foldMembers member (steps + 1) first s (0x7D :: rest) = .ok (s, rest) := by
  rw [foldMembers, skipBlanks_cons (by decide)]
  dsimp only
  rw [if_pos rfl]

theorem encode_tailChars (first : Bool) (entry : String × Value) (members : List (String × Value)) (rest : Bytes) :
    encode (tailChars first (entry :: members)) ++ rest =
      encode (if first then [] else [',']) ++ (encode (textChars entry.1) ++
        (0x3A :: (encode entry.2.chars ++ (encode (tailChars false members) ++ rest)))) := by
  rw [tailChars_false]
  simp only [tailChars, encode_append, encode_cons, List.append_assoc]
  rfl

theorem foldMembers_taken {members : List (String × Value)} (taken : TakesAll member s members t) {steps : Nat}
    (enough : members.length < steps) (first : Bool) (rest : Bytes) :
    foldMembers member steps first s (encode (tailChars first members) ++ rest) = .ok (t, rest) := by
  induction taken generalizing steps first with
  | done s =>
    obtain ⟨less, rfl⟩ := Nat.exists_eq_add_one.mpr (Nat.zero_lt_of_lt enough)
    exact foldMembers_close less first s rest
  | @next s t u entry members here _ ih =>
    obtain ⟨less, rfl⟩ := Nat.exists_eq_add_one.mpr (Nat.zero_lt_of_lt enough)
    have later := ih (Nat.lt_of_succ_lt_succ enough) false
    have behind := ends_tailChars members rest
    rw [encode_tailChars, foldMembers_entry, here _ behind]
    exact later

theorem foldMembers_refused {members : List (String × Value)} (refused : RefusesOne member s members) {steps : Nat}
    (enough : members.length < steps) (first : Bool) (rest : Bytes) :
    ∃ stop, foldMembers member steps first s (encode (tailChars first members) ++ rest) = .error stop := by
  induction refused generalizing steps first with
  | @here s entry members refuses =>
    obtain ⟨less, rfl⟩ := Nat.exists_eq_add_one.mpr (Nat.zero_lt_of_lt enough)
    obtain ⟨stop, value⟩ := refuses _ (ends_tailChars members rest)
    rw [encode_tailChars, foldMembers_entry, value]
    exact ⟨stop, rfl⟩
  | @later s t entry members here _ ih =>
    obtain ⟨less, rfl⟩ := Nat.exists_eq_add_one.mpr (Nat.zero_lt_of_lt enough)
    obtain ⟨stop, later⟩ := ih (Nat.lt_of_succ_lt_succ enough) false
    rw [encode_tailChars, foldMembers_entry, here _ (ends_tailChars members rest)]
    exact ⟨stop, later⟩

theorem enough_steps (members : List (String × Value)) (rest : Bytes) :
    members.length < (encode (tailChars true members) ++ rest).length + 1 := by
  have chars := length_le_tailChars true members
  have bytes := length_le_encode (tailChars true members)
  rw [List.length_append]
  omega

theorem readMembers_taken {members : List (String × Value)} (taken : TakesAll member s members t) (rest : Bytes) :
    readMembers member s (encode (tailChars true members) ++ rest) = .ok (t, rest) :=
  foldMembers_taken taken (enough_steps members rest) true rest

theorem readMembers_refused {members : List (String × Value)} (refused : RefusesOne member s members)
    (rest : Bytes) : ∃ stop, readMembers member s (encode (tailChars true members) ++ rest) = .error stop :=
  foldMembers_refused refused (enough_steps members rest) true rest

theorem encode_object (members : List (String × Value)) (rest : Bytes) :
    encode (Value.object members).chars ++ rest = 0x7B :: (encode (tailChars true members) ++ rest) := by
  rw [chars_object]
  rfl

theorem readRecord_object (expected : String) (members elements : Reader α) (bytes : Bytes) :
    readRecord expected members elements (0x7B :: bytes) = members bytes := by
  unfold readRecord
  rw [skipBlanks_cons (by decide)]
  dsimp only
  rw [if_neg (by decide), if_pos rfl]

theorem afterColon_colon (bytes : Bytes) : afterColon (0x3A :: bytes) = .ok bytes := rfl

section
variable {read : Reader α} {bytes : Bytes} {value : α}

theorem readMap_object (bytes : Bytes) :
    readMap read (0x7B :: bytes) = (do
      let (entries, rest) ← readMembers (readMap.entry read) [] bytes
      return (entries.reverse, rest)) := by
  unfold readMap
  rw [skipBlanks_cons (by decide)]
  dsimp only
  rw [if_pos rfl]

theorem takes_entry {name : String} {written : Value} (entries : List (String × α))
    (found : ∀ rest, Ends rest → read (encode written.chars ++ rest) = .ok (value, rest)) :
    Takes (readMap.entry read) entries (name, written) ((name, value) :: entries) := by
  intro rest ends
  change (afterColon _ >>= _) = _
  rw [afterColon_colon]
  change (read _ >>= _) = _
  rw [found rest ends]
  rfl

theorem refuses_entry {name : String} {written : Value} (entries : List (String × α))
    (failed : ∀ rest, Ends rest → ∃ stop, read (encode written.chars ++ rest) = .error stop) :
    Refuses (readMap.entry read) entries (name, written) := by
  intro rest ends
  obtain ⟨stop, refused⟩ := failed rest ends
  refine ⟨stop, ?_⟩
  change (afterColon _ >>= _) = _
  rw [afterColon_colon]
  change (read _ >>= _) = _
  rw [refused]
  rfl

theorem fill_taken (name : String) (found : read bytes = .ok (value, rest)) :
    fill name none read (0x3A :: bytes) = .ok (some value, rest) := by
  change (afterColon (0x3A :: bytes) >>= _) = _
  rw [afterColon_colon]
  change (inMember name (read bytes) >>= _) = _
  rw [found]
  rfl

theorem fill_refused (name : String) (found : ∃ stop, read bytes = .error stop) :
    ∃ stop, fill name none read (0x3A :: bytes) = .error stop := by
  obtain ⟨stop, failed⟩ := found
  change ∃ stop, (afterColon (0x3A :: bytes) >>= _) = .error stop
  rw [afterColon_colon]
  change ∃ stop, (inMember name (read bytes) >>= _) = .error stop
  rw [failed]
  exact ⟨_, rfl⟩

theorem takes_fill {name : String} {written : Value} (set : Option α → σ)
    (fills : ∀ bytes, member name s bytes = (do
      let (value, rest) ← fill name none read bytes
      return (set value, rest)))
    (found : ∀ rest, Ends rest → read (encode written.chars ++ rest) = .ok (value, rest)) :
    Takes member s (name, written) (set (some value)) := by
  intro rest ends
  rw [fills, fill_taken name (found rest ends)]
  rfl

theorem refuses_fill {name : String} {written : Value} (set : Option α → σ)
    (fills : ∀ bytes, member name s bytes = (do
      let (value, rest) ← fill name none read bytes
      return (set value, rest)))
    (failed : ∀ rest, Ends rest → ∃ stop, read (encode written.chars ++ rest) = .error stop) :
    Refuses member s (name, written) := by
  intro rest ends
  obtain ⟨stop, refused⟩ := fill_refused name (failed rest ends)
  exact ⟨stop, by rw [fills, refused]; rfl⟩

theorem readText_written (s : String) (rest : Bytes) :
    readText (encode (textChars s) ++ rest) = .ok (s, rest) := by
  rw [encode_textChars]
  unfold readText
  rw [skipBlanks_cons (by decide)]
  exact readString_written s rest

-- A number stands for itself where there might be none.
theorem readOptional_number {number : Number} (numeric : readNumber bytes = .ok (number, more)) :
    readOptional read bytes = (do let (value, rest) ← read bytes; return (some value, rest)) := by
  obtain ⟨b, tail, rfl, lead⟩ := lead_of_readNumber numeric
  have notNull : ¬b = 0x6E := by
    rintro rfl
    cases lead
  unfold readOptional
  rw [skipBlanks_cons (solid_of_lead lead)]
  dsimp only
  rw [if_neg notNull]

end

end DiskGauge.Json
