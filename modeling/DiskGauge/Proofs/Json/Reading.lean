import DiskGauge.Json.Record
import DiskGauge.Proofs.Json.Tree

namespace DiskGauge.Json
open DiskGauge.Schema

variable {α β σ : Type} {more : List Bytes} {bytes : Bytes}

namespace Yields

variable {outcome : Except Stop (α × Bytes)} {value? : Option α} {behind later : Bytes → Prop}

theorem mono (yields : Yields outcome value? behind) (follows : ∀ rest, behind rest → later rest) :
    Yields outcome value? later := by
  cases value? with
  | none => exact yields
  | some value =>
    obtain ⟨rest, read, holds⟩ := yields
    exact ⟨rest, read, follows rest holds⟩

-- Only the values that can occur need be followed further.
theorem bind_map {source? : Option β} {f : β → α} (yields : Yields outcome (source?.map f) behind)
    {next : α × Bytes → Except Stop (σ × Bytes)} {next? : α → Option σ}
    (follows : ∀ value rest, behind rest → Yields (next (f value, rest)) (next? (f value)) later) :
    Yields (outcome >>= next) ((source?.map f).bind next?) later := by
  cases source? with
  | none =>
    obtain ⟨stop, rfl⟩ := yields
    exact .stop stop
  | some value =>
    obtain ⟨rest, rfl, holds⟩ := yields
    exact follows value rest holds

theorem inMember (name : String) (yields : Yields outcome value? behind) :
    Yields (inMember name outcome) value? behind := by
  cases value? with
  | none =>
    obtain ⟨stop, rfl⟩ := yields
    exact ⟨_, rfl⟩
  | some value =>
    obtain ⟨rest, rfl, holds⟩ := yields
    exact .value value holds

end Yields

-- What a reader makes of any tree, in any of its layouts.
def Reads (read : Reader α) (value? : Tree → Option α) : Prop :=
  ∀ (t : Tree) (more : List Bytes) (bytes : Bytes), Closed more → Spaced (t.tokens ++ more) bytes →
    Yields (read bytes) (value? t) (Spaced more)

theorem stops_bind {outcome : Except Stop β} {next : β → Except Stop α} (stops : ∀ b, ∃ stop, next b = .error stop) :
    ∃ stop, outcome >>= next = .error stop := by
  cases outcome with
  | error stop => exact ⟨stop, rfl⟩
  | ok b => exact stops b

theorem refuse_stops (expected : String) (bytes : Bytes) :
    ∃ stop, (refuse expected bytes : Except Stop (α × Bytes)) = .error stop := by
  unfold refuse
  cases bytes with
  | nil => exact ⟨_, rfl⟩
  | cons b rest =>
    dsimp only
    repeat' split
    all_goals first | exact stops_bind fun _ => ⟨_, rfl⟩ | exact ⟨_, rfl⟩

namespace Tree

def text? : Tree → Option String
  | .text s => s.text?
  | _ => none

def number? : Tree → Option Number
  | .number n => n.value?
  | _ => none

def accepted? (accept : Number → Except Mismatch α) (t : Tree) : Option α :=
  t.number?.bind fun n => (accept n).toOption

def double? (t : Tree) : Option Double :=
  t.number?.map fun
    | .integer value => Double.ofInt value
    | .float value => value

-- An integer of 64 bits; no number with a point or an exponent is one.
def integer? (t : Tree) : Option Int :=
  t.number?.bind fun
    | .integer value => if value < twoTo 63 then some value else none
    | .float _ => none

def optional? (value? : Tree → Option α) : Tree → Option (Option α)
  | .null => some none
  | t => (value? t).map some

end Tree

theorem reads_text : Reads readText Tree.text? := by
  intro t more bytes closed spaced
  by_cases isText : ∃ s, t = .text s
  · obtain ⟨s, rfl⟩ := isText
    obtain ⟨rest, _, skipped, spaced⟩ := spaced.next_cons 0x22 s.tail
    have string := s.readString_yields rest
    unfold readText
    rw [skipped]
    exact string.mono fun _ same => same ▸ spaced
  · obtain ⟨b, rest, skipped, leads⟩ := spaced.lead
    have valueless : t.text? = none := by
      cases t with
      | text s => exact absurd ⟨s, rfl⟩ isText
      | _ => rfl
    unfold readText
    rw [skipped, valueless]
    dsimp only
    rw [if_neg fun quote => isText (leads.text quote)]
    exact refuse_stops _ _

theorem reads_numberAs (expected : String) (accept : Number → Except Mismatch α) :
    Reads (readNumberAs expected accept) (Tree.accepted? accept) := by
  intro t more bytes closed spaced
  by_cases isNumber : ∃ n, t = .number n
  · obtain ⟨n, rfl⟩ := isNumber
    obtain ⟨b, tail, text, lead⟩ := n.bytes_lead
    change Spaced (n.bytes :: more) bytes at spaced
    rw [text] at spaced
    obtain ⟨rest, _, skipped, spaced⟩ := spaced.next_cons _ _
    have number := n.readNumber_yields (spaced.ends closed)
    rw [text] at number
    unfold readNumberAs
    rw [skipped]
    dsimp only
    rw [if_pos lead]
    refine number.bind fun value rest same => ?_
    subst same
    dsimp only
    cases accept value with
    | ok value => exact .value value spaced
    | error mismatch => exact ⟨_, rfl⟩
  · obtain ⟨b, rest, skipped, leads⟩ := spaced.lead
    have valueless : t.accepted? accept = none := by
      cases t with
      | number n => exact absurd ⟨n, rfl⟩ isNumber
      | _ => rfl
    unfold readNumberAs
    rw [skipped, valueless]
    dsimp only
    rw [if_neg fun lead => isNumber (leads.number lead)]
    exact refuse_stops _ _

theorem reads_double : Reads readDouble Tree.double? := by
  have same : Tree.double? = Tree.accepted? fun
      | .integer value => .ok (Double.ofInt value)
      | .float value => .ok value := by
    funext t
    unfold Tree.double? Tree.accepted?
    cases t.number? with
    | none => rfl
    | some number => cases number <;> rfl
  rw [same]
  exact reads_numberAs "f64" _

theorem reads_integer : Reads readInteger Tree.integer? := by
  have same : Tree.integer? = Tree.accepted? fun
      | .integer value =>
        if value < twoTo 63 then .ok value else .error (.value (.integer value) "i64")
      | .float value => .error (.type (.number value) "i64") := by
    funext t
    unfold Tree.integer? Tree.accepted?
    cases t.number? with
    | none => rfl
    | some number =>
      cases number with
      | float value => rfl
      | integer value =>
        dsimp only [Option.bind_some]
        split <;> rfl
  rw [same]
  exact reads_numberAs "i64" _

theorem reads_optional {read : Reader α} {value? : Tree → Option α} (reads : Reads read value?) :
    Reads (readOptional read) (Tree.optional? value?) := by
  intro t more bytes closed spaced
  by_cases isNull : t = .null
  · subst isNull
    obtain ⟨rest, _, skipped, spaced⟩ := spaced.next_cons 0x6E wordNull
    unfold readOptional
    rw [skipped]
    exact .value none spaced
  · obtain ⟨b, rest, skipped, leads⟩ := spaced.lead
    have own := reads t more (skipBlanks bytes) closed spaced.skip
    have valued : t.optional? value? = (value? t).map some := by
      cases t with
      | null => exact absurd rfl isNull
      | _ => rfl
    rw [skipped] at own
    unfold readOptional
    rw [skipped, valued]
    dsimp only
    rw [if_neg fun null => isNull (leads.null null)]
    exact own.map _

theorem afterColon_spaced (spaced : Spaced ([0x3A] :: more) bytes) :
    ∃ rest, afterColon bytes = .ok rest ∧ Spaced more rest := by
  obtain ⟨rest, _, skipped, spaced⟩ := spaced.next_cons _ _
  refine ⟨rest, ?_, spaced⟩
  unfold afterColon
  rw [skipped]
  exact if_pos rfl

-- A field that may be filled only once.
def fill? (place : Option α) (value? : Option α) : Option (Option α) :=
  match place with
  | some _ => none
  | none => value?.map some

theorem fill_yields (name : String) (place : Option α) {read : Reader α} {value? : Tree → Option α}
    (reads : Reads read value?) (t : Tree) (closed : Closed more)
    (spaced : Spaced ([0x3A] :: (t.tokens ++ more)) bytes) :
    Yields (fill name place read bytes) (fill? place (value? t)) (Spaced more) := by
  cases place with
  | some value => exact ⟨_, rfl⟩
  | none =>
    obtain ⟨rest, colon, spaced⟩ := afterColon_spaced spaced
    change Yields (afterColon bytes >>= _) _ _
    rw [colon]
    exact ((reads t more rest closed spaced).inMember name).map some

theorem skipMember_yields (name : String) (s : σ) (t : Tree) (closed : Closed more)
    (spaced : Spaced ([0x3A] :: (t.tokens ++ more)) bytes) :
    Yields (skipMember name s bytes) (some s) (Spaced more) := by
  obtain ⟨rest, colon, spaced⟩ := afterColon_spaced spaced
  obtain ⟨behind, skipped, spaced⟩ := skipValue_tree t closed spaced
  refine ⟨behind, ?_, spaced⟩
  change afterColon bytes >>= _ = _
  rw [colon]
  change inMember name (skipValue rest) >>= _ = _
  rw [skipped]
  rfl

section
variable {member : String → σ → Reader σ} {step? : String → σ → Tree → Option σ}

-- What becomes of a state over the members of an object, whose names must be texts.
def foldNamed? (step? : String → σ → Tree → Option σ) : σ → List (Spelling × Tree) → Option σ
  | s, [] => some s
  | s, (name, t) :: members =>
    name.text?.bind fun name => (step? name s t).bind fun s => foldNamed? step? s members

-- What a reader of one member, behind its name, makes of any tree.
def ReadsMember (member : String → σ → Reader σ) (step? : String → σ → Tree → Option σ) : Prop :=
  ∀ (name : String) (s : σ) (t : Tree) (more : List Bytes) (bytes : Bytes), Closed more →
    Spaced ([0x3A] :: (t.tokens ++ more)) bytes → Yields (member name s bytes) (step? name s t) (Spaced more)

theorem nameStart_spaced (first : Bool) (name : Spelling)
    (spaced : Spaced (commaTokens first ++ (name.token :: more)) bytes) :
    ∃ b behind rest, skipBlanks bytes = b :: behind ∧ b ≠ 0x7D ∧
      foldMembers.nameStart first b behind = .ok (name.tail ++ rest) ∧ Spaced more rest := by
  cases first with
  | true =>
    obtain ⟨rest, _, skipped, spaced⟩ := spaced.next_cons 0x22 name.tail
    exact ⟨_, _, rest, skipped, by decide, rfl, spaced⟩
  | false =>
    obtain ⟨behind, _, skipped, spaced⟩ := spaced.next_cons 0x2C []
    obtain ⟨rest, _, quote, spaced⟩ := spaced.next_cons 0x22 name.tail
    refine ⟨_, _, rest, skipped, by decide, ?_, spaced⟩
    unfold foldMembers.nameStart
    rw [if_neg Bool.false_ne_true, if_pos rfl, List.nil_append, quote]
    exact if_pos rfl

-- One round of the reader, behind the opening quote of a name.
theorem foldMembers_name {steps : Nat} {first : Bool} {s : σ} {b : UInt8} {behind rest : Bytes}
    (skipped : skipBlanks bytes = b :: behind) (open_ : b ≠ 0x7D)
    (start : foldMembers.nameStart first b behind = .ok rest) :
    foldMembers member (steps + 1) first s bytes = (do
      let (name, rest) ← readString rest
      let (s, rest) ← member name s rest
      foldMembers member steps false s rest) := by
  rw [foldMembers, skipped]
  dsimp only
  rw [if_neg open_, start]
  dsimp only
  cases readString rest with
  | error stop => rfl
  | ok named =>
    obtain ⟨name, rest⟩ := named
    dsimp only [bind, Except.bind]
    cases member name s rest <;> rfl

theorem foldMembers_yields (reads : ReadsMember member step?) (members : List (Spelling × Tree)) (first : Bool)
    (s : σ) {steps : Nat} (enough : members.length < steps)
    (spaced : Spaced (memberTokens first members ++ more) bytes) :
    Yields (foldMembers member steps first s bytes) (foldNamed? step? s members) (Spaced more) := by
  induction members generalizing first s steps bytes with
  | nil =>
    obtain ⟨less, rfl⟩ := Nat.exists_eq_add_one.mpr enough
    obtain ⟨rest, _, skipped, spaced⟩ := spaced.next_cons 0x7D []
    rw [foldMembers, skipped]
    dsimp only
    rw [if_pos rfl]
    exact .value s spaced
  | cons m members ih =>
    obtain ⟨name, t⟩ := m
    obtain ⟨less, rfl⟩ := Nat.exists_eq_add_one.mpr (Nat.zero_lt_of_lt enough)
    rw [memberTokens, List.append_assoc, List.cons_append, List.cons_append, List.append_assoc] at spaced
    obtain ⟨b, behind, rest, skipped, open_, start, spaced⟩ := nameStart_spaced first name spaced
    rw [foldMembers_name skipped open_ start]
    refine (name.readString_yields rest).bind fun name behind same => ?_
    subst same
    refine (reads name s t _ _ (closed_members members more) spaced).bind fun s rest spaced => ?_
    exact ih false s (Nat.lt_of_succ_lt_succ enough) spaced

theorem length_le_memberTokens (members : List (Spelling × Tree)) (first : Bool) :
    members.length < (memberTokens first members).length := by
  induction members generalizing first with
  | nil => exact Nat.one_pos
  | cons m members ih =>
    have later := ih false
    simp only [memberTokens, List.length_cons, List.length_append]
    omega

theorem readMembers_yields (reads : ReadsMember member step?) (members : List (Spelling × Tree)) (s : σ)
    (spaced : Spaced (memberTokens true members ++ more) bytes) :
    Yields (readMembers member s bytes) (foldNamed? step? s members) (Spaced more) := by
  have few := spaced.length_le
  have enough := length_le_memberTokens members true
  rw [List.length_append] at few
  exact foldMembers_yields reads members true s (by omega) spaced

end

namespace Tree

-- An entry of a map has a name that is a text, and a value.
def pair? (value? : Tree → Option α) (m : Spelling × Tree) : Option (String × α) :=
  m.1.text?.bind fun name => (value? m.2).map fun value => (name, value)

def map? (value? : Tree → Option α) : Tree → Option (List (String × α))
  | .object members => members.mapM (pair? value?)
  | _ => none

def record? (members? : List (Spelling × Tree) → Option α) (elements? : List Tree → Option α) : Tree → Option α
  | .object members => members? members
  | .list elements => elements? elements
  | _ => none

end Tree

theorem foldNamed?_entries (value? : Tree → Option α) (members : List (Spelling × Tree)) (before : List (String × α)) :
    foldNamed? (fun name entries t => (value? t).map fun value => (name, value) :: entries) before members =
      (members.mapM (Tree.pair? value?)).map fun entries => entries.reverse ++ before := by
  induction members generalizing before with
  | nil => rfl
  | cons m members ih =>
    obtain ⟨name, t⟩ := m
    unfold foldNamed?
    simp only [ih, List.mapM_cons, Tree.pair?]
    cases name.text? <;> cases value? t <;> cases members.mapM (Tree.pair? value?) <;> simp

theorem reads_map {read : Reader α} {value? : Tree → Option α} (reads : Reads read value?) :
    Reads (readMap read) (Tree.map? value?) := by
  intro t more bytes closed spaced
  by_cases isObject : ∃ members, t = .object members
  · obtain ⟨members, rfl⟩ := isObject
    obtain ⟨rest, _, skipped, spaced⟩ := spaced.next_cons 0x7B []
    have entries : ReadsMember (readMap.entry read)
        (fun name entries t => (value? t).map fun value => (name, value) :: entries) := by
      intro name entries t more bytes closed spaced
      obtain ⟨rest, colon, spaced⟩ := afterColon_spaced spaced
      change Yields (afterColon bytes >>= _) _ _
      rw [colon]
      exact (reads t more rest closed spaced).map _
    have all := (readMembers_yields entries members [] spaced).map List.reverse
    rw [foldNamed?_entries, Option.map_map] at all
    unfold readMap
    rw [skipped]
    simpa [Function.comp_def, Tree.map?] using all
  · obtain ⟨b, rest, skipped, leads⟩ := spaced.lead
    have valueless : t.map? value? = none := by
      cases t with
      | object members => exact absurd ⟨members, rfl⟩ isObject
      | _ => rfl
    unfold readMap
    rw [skipped, valueless]
    dsimp only
    rw [if_neg fun object => isObject (leads.object object)]
    exact refuse_stops _ _

theorem reads_record (expected : String) {members elements : Reader α}
    {members? : List (Spelling × Tree) → Option α} {elements? : List Tree → Option α}
    (object : ∀ inner more bytes, Spaced (memberTokens true inner ++ more) bytes →
      Yields (members bytes) (members? inner) (Spaced more))
    (list : ∀ inner more bytes, Spaced (elementTokens true inner ++ more) bytes →
      Yields (do
        let (value, rest) ← elements bytes
        let rest ← closeList rest
        return (value, rest)) (elements? inner) (Spaced more)) :
    Reads (readRecord expected members elements) (Tree.record? members? elements?) := by
  intro t more bytes closed spaced
  unfold readRecord
  by_cases isList : ∃ inner, t = .list inner
  · obtain ⟨inner, rfl⟩ := isList
    obtain ⟨rest, _, skipped, spaced⟩ := spaced.next_cons 0x5B []
    rw [skipped]
    exact list inner more rest spaced
  · by_cases isObject : ∃ inner, t = .object inner
    · obtain ⟨inner, rfl⟩ := isObject
      obtain ⟨rest, _, skipped, spaced⟩ := spaced.next_cons 0x7B []
      rw [skipped]
      exact object inner more rest spaced
    · obtain ⟨b, rest, skipped, leads⟩ := spaced.lead
      have valueless : t.record? members? elements? = none := by
        cases t with
        | list inner => exact absurd ⟨inner, rfl⟩ isList
        | object inner => exact absurd ⟨inner, rfl⟩ isObject
        | _ => rfl
      rw [skipped, valueless]
      dsimp only
      rw [if_neg fun list => isList (leads.list list), if_neg fun object => isObject (leads.object object)]
      exact refuse_stops _ _

-- A list goes on with an element, or ends.
theorem nextElement_some (first : Bool) (t : Tree)
    (spaced : Spaced (commaTokens first ++ (t.tokens ++ more)) bytes) :
    ∃ rest, nextElement first bytes = .ok (some rest) ∧ Spaced (t.tokens ++ more) rest := by
  unfold nextElement
  cases first with
  | true =>
    have value : Spaced (t.tokens ++ more) bytes := spaced
    obtain ⟨b, rest, skipped, leads⟩ := value.lead
    refine ⟨skipBlanks bytes, ?_, value.skip⟩
    rw [skipped]
    exact if_neg leads.noEnd
  | false =>
    obtain ⟨behind, _, skipped, value⟩ := spaced.next_cons 0x2C []
    obtain ⟨b, rest, next, leads⟩ := value.lead
    refine ⟨skipBlanks behind, ?_, value.skip⟩
    rw [skipped, List.nil_append]
    dsimp only
    rw [if_neg (by decide), if_neg Bool.false_ne_true, if_pos rfl, next]
    exact if_neg leads.noEnd

theorem nextElement_none (first : Bool) (spaced : Spaced ([0x5D] :: more) bytes) :
    nextElement first bytes = .ok none := by
  obtain ⟨rest, _, skipped, _⟩ := spaced.next_cons _ _
  unfold nextElement
  rw [skipped]
  exact if_pos rfl

-- The element that a list has next, unless it ends.
def element? (value? : Tree → Option α) (elements : List Tree) : Option (Option α) :=
  match elements.head? with
  | none => some none
  | some t => (value? t).map some

section
variable {read : Reader α} {value? : Tree → Option α}

theorem readElement?_yields (reads : Reads read value?) (index : Nat) (elements : List Tree)
    (spaced : Spaced (elementTokens (index = 0) elements ++ more) bytes) :
    Yields (readElement? index read bytes) (element? value? elements)
      (Spaced (elementTokens false elements.tail ++ more)) := by
  unfold readElement?
  cases elements with
  | nil =>
    rw [nextElement_none _ spaced]
    exact .value none spaced
  | cons t elements =>
    rw [elementTokens, List.append_assoc, List.append_assoc] at spaced
    obtain ⟨rest, next, spaced⟩ := nextElement_some _ t spaced
    rw [next]
    exact (((reads t _ rest (closed_elements elements more) spaced).map some)).inMember _

-- A list must end where its reader stops.
theorem closeList_yields (elements : List Tree) (value : α)
    (spaced : Spaced (elementTokens false elements ++ more) bytes) :
    Yields (closeList bytes >>= fun rest => return (value, rest))
      ((guard (elements = []) : Option Unit).bind fun _ => some value) (Spaced more) := by
  unfold closeList
  cases elements with
  | nil =>
    obtain ⟨rest, _, skipped, spaced⟩ := spaced.next_cons 0x5D []
    rw [skipped]
    exact .value value spaced
  | cons t elements =>
    obtain ⟨rest, _, skipped, _⟩ := spaced.next_cons 0x2C []
    rw [skipped]
    dsimp only
    rw [if_neg (by decide), if_pos rfl, List.nil_append]
    cases skipBlanks rest with
    | nil => exact ⟨_, rfl⟩
    | cons c more =>
      dsimp only
      split <;> exact ⟨_, rfl⟩

theorem readElement_yields (reads : Reads read value?) (index : Nat) (expected : String) (elements : List Tree)
    (spaced : Spaced (elementTokens (index = 0) elements ++ more) bytes) :
    Yields (readElement index expected read bytes) (elements.head?.bind value?)
      (Spaced (elementTokens false elements.tail ++ more)) := by
  have next := readElement?_yields reads index elements spaced
  have same : elements.head?.bind value? = (element? value? elements).bind id := by
    cases elements with
    | nil => rfl
    | cons t elements => cases found : value? t <;> simp [element?, found]
  rw [same]
  unfold readElement
  refine next.bind fun value rest spaced => ?_
  cases value with
  | some value => exact .value value spaced
  | none => exact stops_bind fun _ => ⟨_, rfl⟩

end

def named (name : String) (members : List (Spelling × Tree)) : List Tree :=
  (members.filter fun m => m.1.text? = some name).map (·.2)

def areTexts (members : List (Spelling × Tree)) : Bool := members.all fun m => m.1.text?.isSome

-- A field is nothing, or the one thing that stands at its name.
def field? (value? : Tree → Option α) (name : String) (members : List (Spelling × Tree)) : Option (Option α) :=
  match named name members with
  | [] => some none
  | [t] => (value? t).map some
  | _ => none

-- What becomes of a field over the trees at its name.
def fillAll? (value? : Tree → Option α) : Option α → List Tree → Option (Option α)
  | place, [] => some place
  | place, t :: trees => (fill? place (value? t)).bind fun place => fillAll? value? place trees

theorem fillAll?_none (value? : Tree → Option α) (name : String) (members : List (Spelling × Tree)) :
    fillAll? value? none (named name members) = field? value? name members := by
  unfold field?
  cases named name members with
  | nil => rfl
  | cons t trees =>
    cases trees with
    | nil => cases found : value? t <;> simp [fillAll?, fill?, found]
    | cons u trees => cases found : value? t <;> simp [fillAll?, fill?, found]

section
variable {name other : String} {spelling : Spelling} (t : Tree) (members : List (Spelling × Tree))

theorem named_here (spelled : spelling.text? = some name) :
    named name ((spelling, t) :: members) = t :: named name members := by simp [named, spelled]

theorem named_other (spelled : spelling.text? = some name) (different : name ≠ other) :
    named other ((spelling, t) :: members) = named other members := by simp [named, spelled, different]

end

theorem readDocument_tree {read : Reader α} {value? : Tree → Option α} (reads : Reads read value?) (t : Tree)
    {document : Bytes} (spaced : Spaced t.tokens document) :
    match value? t with
    | some value => readDocument read document = .ok value
    | none => ∃ e, readDocument read document = .error e := by
  have closed : Closed [] := fun token head => nomatch head
  have yields := reads t [] document closed (by rw [List.append_nil]; exact spaced)
  unfold readDocument
  cases meaning : value? t with
  | none =>
    rw [meaning] at yields
    obtain ⟨stop, failed⟩ := yields
    rw [failed]
    exact ⟨_, rfl⟩
  | some value =>
    rw [meaning] at yields
    obtain ⟨rest, found, blanks⟩ := yields
    rw [found]
    dsimp only [bind, Except.bind]
    rw [blanks.blanks]
    rfl

end DiskGauge.Json
