import DiskGauge.Proofs.Toml.Figure
import DiskGauge.Proofs.Toml.Quotes
import DiskGauge.Toml.Document

namespace DiskGauge.Toml

variable {c : Char} {value rest more : List Char} {item : Item} {name : String} {steps : Nat}

-- A character at which blanks, line ends and comments are over.
structure Solid (c : Char) : Prop where
  blank : isBlank c = false
  hash : c ≠ '#'
  lineFeed : c ≠ '\n'
  carriageReturn : c ≠ '\r'

theorem solid_quote (quote : c = '"' ∨ c = '\'') : Solid c := by
  rcases quote with rfl | rfl <;> exact ⟨by decide, by decide, by decide, by decide⟩

theorem solid_bare (bare : isBare c = true) : Solid c := by
  refine ⟨?_, ?_, ?_, ?_⟩
  · cases blank : isBlank c with
    | false => rfl
    | true =>
      simp only [isBlank, Bool.or_eq_true, decide_eq_true_eq] at blank
      rcases blank with rfl | rfl <;> cases bare
  all_goals
    rintro rfl
    cases bare

theorem skipSpace_solid (solid : Solid c) (steps : Nat) (more : List Char) :
    skipSpace steps (c :: more) = c :: more := by
  cases steps with
  | zero => rfl
  | succ steps =>
    rw [skipSpace, skipBlanks_visible solid.blank]
    split
    · next same => exact absurd (List.cons.inj same).1 solid.hash
    · rw [afterNewline_other solid.lineFeed solid.carriageReturn]

theorem skipSpace_indented (solid : Solid c) (steps : Nat) (more : List Char) :
    skipSpace (steps + 1) (' ' :: ' ' :: ' ' :: ' ' :: c :: more) = c :: more := by
  have indent : skipBlanks (' ' :: ' ' :: ' ' :: ' ' :: c :: more) = skipBlanks (c :: more) := rfl
  rw [skipSpace, indent, ← skipSpace, skipSpace_solid solid]

-- A value as it stands behind the name of a member, up to the end of the line.
structure Spells (value : List Char) (item : Item) : Prop where
  lead : ∃ c tail, value = c :: tail ∧ isBlank c = false
  read : ∀ more, readValue nestingLimit (value ++ '\n' :: more) = some (item, '\n' :: more)

theorem spells_text (text : List Char) : Spells (writeText text) (.text (String.ofList text)) := by
  refine ⟨?_, fun more => readValue_text _ text (by decide) (by decide) more⟩
  obtain ⟨q, tail, spelled, quote⟩ := writeText_lead text
  exact ⟨q, tail, spelled, (solid_quote quote).blank⟩

theorem spells_integer (n : Nat) (fits : n < twoTo 63) : Spells (Nat.toDigits 10 n) (.integer n) := by
  refine ⟨?_, fun more => readValue_integer _ n fits more⟩
  obtain ⟨c, cs, spelled, digits⟩ := lead_written n
  refine ⟨c, cs, spelled, ?_⟩
  have space : c ≠ ' ' := other_of_digit digits.head (by decide)
  have tab : c ≠ '\t' := other_of_digit digits.head (by decide)
  simp [isBlank, space, tab]

-- An element, and what comes behind it.
theorem readElements_element {readValue : Reader Item} {text tail : List Char} (gap : skipGap text = c :: tail)
    (element : c ≠ ']') (read : readValue (c :: tail) = some (item, rest)) :
    (∀ more, skipGap rest = ']' :: more → readElements readValue (steps + 1) text = some ([item], more)) ∧
    ∀ more items left, skipGap rest = ',' :: more → readElements readValue steps more = some (items, left) →
      readElements readValue (steps + 1) text = some (item :: items, left) := by
  rw [readElements, gap]
  split
  · next same => exact absurd (List.cons.inj same).1 element
  · rw [read]
    simp only [Option.bind_eq_bind, Option.bind_some, Option.pure_def]
    refine ⟨fun more closes => ?_, fun more items left goesOn others => ?_⟩
    · simp only [closes]
    · simp only [goesOn, others, Option.bind_some]

def elementLine (text : List Char) : List Char := [' ', ' ', ' ', ' '] ++ writeText text ++ [',', '\n']

theorem length_elementLines (texts : List (List Char)) : texts.length ≤ (texts.flatMap elementLine).length := by
  induction texts with
  | nil => exact Nat.le_refl _
  | cons text texts ih =>
    rw [List.flatMap_cons, List.length_append, elementLine]
    simp only [List.length_append, List.length_cons]
    omega

theorem readElements_lines (depth : Nat) (texts : List (List Char)) (enough : texts.length < steps) (more : List Char) :
    readElements (readValue depth) steps ('\n' :: (texts.flatMap elementLine ++ ']' :: more)) =
      some (texts.map fun text => .text (String.ofList text), more) := by
  induction texts generalizing steps with
  | nil =>
    obtain ⟨left, rfl⟩ := Nat.exists_eq_add_of_lt enough
    rfl
  | cons text texts ih =>
    obtain ⟨left, rfl⟩ : ∃ left, steps = left + 1 := ⟨steps - 1, by simp at enough; omega⟩
    have later := ih (Nat.lt_of_succ_lt_succ enough)
    have lines : (text :: texts).flatMap elementLine ++ ']' :: more = ' ' :: ' ' :: ' ' :: ' ' ::
        (writeText text ++ ',' :: '\n' :: (texts.flatMap elementLine ++ ']' :: more)) := by
      simp [elementLine]
    rw [lines]
    generalize texts.flatMap elementLine ++ ']' :: more = following at later
    have first := readValue_text depth text (by decide : ',' ≠ '"') (by decide) ('\n' :: following)
    obtain ⟨q, tail, spelled, quote⟩ := writeText_lead text
    rw [spelled, List.cons_append] at first ⊢
    have gap : skipGap ('\n' :: ' ' :: ' ' :: ' ' :: ' ' :: q :: (tail ++ ',' :: '\n' :: following)) =
        q :: (tail ++ ',' :: '\n' :: following) :=
      skipSpace_indented (solid_quote quote) _ _
    have comma : skipGap (',' :: '\n' :: following) = ',' :: '\n' :: following :=
      skipSpace_solid ⟨by decide, by decide, by decide, by decide⟩ _ _
    exact (readElements_element gap (by rintro rfl; simp at quote) first).2 _ _ _ comma later

theorem readElements_one (depth : Nat) (text more : List Char) (steps : Nat) :
    readElements (readValue depth) (steps + 1) (writeText text ++ ']' :: more) =
      some ([.text (String.ofList text)], more) := by
  have first := readValue_text depth text (by decide : ']' ≠ '"') (by decide) more
  obtain ⟨q, tail, spelled, quote⟩ := writeText_lead text
  rw [spelled, List.cons_append] at first ⊢
  have here : skipGap (q :: (tail ++ ']' :: more)) = q :: (tail ++ ']' :: more) :=
    skipSpace_solid (solid_quote quote) _ _
  have close : skipGap (']' :: more) = ']' :: more :=
    skipSpace_solid ⟨by decide, by decide, by decide, by decide⟩ _ _
  exact (readElements_element here (by rintro rfl; simp at quote) first).1 _ close

theorem readValue_list {elements : List Item} (depth : Nat) {text : List Char}
    (read : readElements (readValue depth) (text.length + 1) text = some (elements, more)) :
    readValue (depth + 1) ('[' :: text) = some (.array elements, more) := by
  unfold readValue
  rw [if_neg (by decide), if_pos rfl]
  dsimp only
  rw [read]
  rfl

theorem spells_list (texts : List (List Char)) :
    Spells (writeList texts) (.array (texts.map fun text => .text (String.ofList text))) := by
  match texts with
  | [] => exact ⟨⟨_, _, rfl, by decide⟩, fun more => rfl⟩
  | [text] =>
    refine ⟨⟨_, _, rfl, by decide⟩, fun more => ?_⟩
    change readValue nestingLimit ('[' :: (writeText text ++ [']'] ++ '\n' :: more)) = _
    rw [List.append_assoc]
    exact readValue_list 78 (readElements_one 78 text ('\n' :: more) _)
  | first :: second :: texts =>
    refine ⟨⟨_, _, rfl, by decide⟩, fun more => ?_⟩
    have lines := length_elementLines (first :: second :: texts)
    change readValue nestingLimit
      ('[' :: '\n' :: ((first :: second :: texts).flatMap elementLine ++ [']'] ++ '\n' :: more)) = _
    rw [List.append_assoc]
    refine readValue_list 78 (readElements_lines 78 (first :: second :: texts) ?_ ('\n' :: more))
    simp only [List.length_cons, List.length_append] at lines ⊢
    omega

structure BareName (name : String) : Prop where
  bare : name.toList.all isBare = true
  nonempty : name.toList ≠ []

-- A member of a table: its name, and its value as it is written and as it is read.
structure Row where
  name : String
  value : List Char
  item : Item

structure Row.Sound (row : Row) : Prop where
  named : BareName row.name
  spells : Spells row.value row.item

def Row.text (row : Row) : List Char := row.name.toList ++ [' ', '=', ' '] ++ row.value ++ ['\n']

def Row.line (row : Row) : Line := .member [] row.name row.item

theorem BareName.lead (named : BareName name) : ∃ c tail, name.toList = c :: tail ∧ isBare c = true := by
  obtain ⟨c, tail, spelled⟩ := List.exists_cons_of_ne_nil named.nonempty
  exact ⟨c, tail, spelled, List.all_eq_true.mp named.bare c (spelled ▸ List.mem_cons_self ..)⟩

theorem readPart_bare (named : BareName name) (ends : isBare c = false) (rest : List Char) :
    readPart (name.toList ++ c :: rest) = some (name, c :: rest) := by
  have every := List.all_eq_true.mp named.bare
  have front : (name.toList ++ c :: rest).takeWhile isBare = name.toList := by
    rw [List.takeWhile_append_of_pos every, List.takeWhile_cons_of_neg (by simp [ends]), List.append_nil]
  have back : (name.toList ++ c :: rest).dropWhile isBare = c :: rest := by
    rw [List.dropWhile_append_of_pos every, List.dropWhile_cons_of_neg (by simp [ends])]
  obtain ⟨first, tail, spelled, visible⟩ := named.lead
  unfold readPart
  split
  · next same =>
    rw [spelled] at same
    rw [(List.cons.inj same).1] at visible
    cases visible
  · next same =>
    rw [spelled] at same
    rw [(List.cons.inj same).1] at visible
    cases visible
  · dsimp only
    rw [front, back, if_neg (by simpa using named.nonempty), String.ofList_toList]

-- A name of one part, up to what cannot belong to it.
theorem readName_bare {d : Char} {left : List Char} (named : BareName name) (ends : isBare c = false)
    (next : skipBlanks (c :: rest) = d :: left) (single : d ≠ '.') :
    readName (name.toList ++ c :: rest) = some (([], name), d :: left) := by
  have solid : skipBlanks (name.toList ++ c :: rest) = name.toList ++ c :: rest := by
    obtain ⟨first, tail, spelled, visible⟩ := named.lead
    rw [spelled, List.cons_append, skipBlanks_visible (solid_bare visible).blank]
  have parts : readParts nestingLimit (name.toList ++ c :: rest) = some ([name], d :: left) := by
    change readParts (78 + 1) _ = _
    rw [readParts, solid, readPart_bare named ends]
    simp only [Option.bind_eq_bind, Option.bind_some, next]
    split
    · next same => exact absurd (List.cons.inj same).1 single
    · rfl
  rw [readName, parts]
  rfl

theorem finishLine_solid (solid : Solid c) (more : List Char) : finishLine (c :: more) = none := by
  unfold finishLine
  rw [skipBlanks_visible solid.blank]
  split
  · next same => exact absurd (List.cons.inj same).1 solid.hash
  · exact afterNewline_other solid.lineFeed solid.carriageReturn more

theorem readLine_member {row : Row} (sound : row.Sound) (rest : List Char) :
    readLine (row.text ++ rest) = some (row.line, rest) := by
  obtain ⟨first, tail, spelled, visible⟩ := sound.named.lead
  have solid := solid_bare visible
  have text : row.text ++ rest = row.name.toList ++ ' ' :: '=' :: ' ' :: (row.value ++ '\n' :: rest) := by
    simp [Row.text]
  have name : readName (row.name.toList ++ ' ' :: '=' :: ' ' :: (row.value ++ '\n' :: rest)) =
      some (([], row.name), '=' :: ' ' :: (row.value ++ '\n' :: rest)) :=
    readName_bare sound.named (by decide) rfl (by decide)
  have value : skipBlanks (' ' :: (row.value ++ '\n' :: rest)) = row.value ++ '\n' :: rest := by
    obtain ⟨lead, others, begins, blank⟩ := sound.spells.lead
    rw [begins]
    exact skipBlanks_visible blank _
  rw [text]
  rw [spelled, List.cons_append] at name ⊢
  unfold readLine
  rw [skipBlanks_visible solid.blank]
  split
  · next absent => cases absent
  · next same =>
    rw [(List.cons.inj same).1] at visible
    cases visible
  · next same =>
    rw [(List.cons.inj same).1] at visible
    cases visible
  · rw [finishLine_solid solid]
    simp only [name, Option.bind_eq_bind, Option.bind_some, expect, if_true, value, sound.spells.read]
    rfl

theorem readLine_header (named : BareName name) (rest : List Char) :
    readLine ('[' :: (name.toList ++ ']' :: '\n' :: rest)) = some (.header [] name, rest) := by
  obtain ⟨first, tail, spelled, visible⟩ := named.lead
  have part : readName (name.toList ++ ']' :: '\n' :: rest) = some (([], name), ']' :: '\n' :: rest) :=
    readName_bare named (by decide) rfl (by decide)
  have opened : skipBlanks ('[' :: (name.toList ++ ']' :: '\n' :: rest)) = '[' :: (name.toList ++ ']' :: '\n' :: rest) :=
    rfl
  unfold readLine
  rw [opened]
  split
  · next absent => cases absent
  · next same =>
    rw [spelled] at same
    rw [(List.cons.inj (List.cons.inj same).2).1] at visible
    cases visible
  · next same =>
    rw [← (List.cons.inj same).2, part]
    rfl
  · next absent => exact absurd rfl (absent _)

-- Lines that a text is read as.
structure Composes (text : List Char) (lines : List Line) : Prop where
  fits : lines.length ≤ text.length
  read : ∀ steps, lines.length ≤ steps → readLines steps text = some lines

namespace Composes

variable {text : List Char} {line : Line} {lines : List Line}

theorem nil : Composes [] [] := ⟨Nat.le_refl _, fun steps _ => by cases steps <;> rfl⟩

theorem cons (composes : Composes rest lines) (shorter : rest.length < text.length)
    (first : readLine text = some (line, rest)) : Composes text (line :: lines) := by
  refine ⟨Nat.le_trans (Nat.succ_le_succ composes.fits) shorter, fun steps enough => ?_⟩
  cases steps with
  | zero => cases enough
  | succ steps =>
    cases text with
    | nil => cases shorter
    | cons c text =>
      simp only [readLines, first, Option.bind_eq_bind, Option.bind_some,
        composes.read steps (Nat.le_of_succ_le_succ enough), Option.pure_def]

theorem gap (composes : Composes rest lines) : Composes ('\n' :: rest) (.empty :: lines) :=
  composes.cons (Nat.lt_succ_self _) rfl

theorem members {rows : List Row} (sound : ∀ row ∈ rows, row.Sound) (composes : Composes rest lines) :
    Composes (rows.flatMap Row.text ++ rest) (rows.map Row.line ++ lines) := by
  induction rows with
  | nil => exact composes
  | cons row rows ih =>
    rw [List.flatMap_cons, List.append_assoc]
    refine (ih fun other member => sound other (List.mem_cons_of_mem _ member)).cons ?_
      (readLine_member (sound row (List.mem_cons_self ..)) _)
    have nonempty : 0 < row.text.length := by simp [Row.text]
    simp only [List.length_append]
    omega

end Composes

-- A table with a header, as it is written and as it is read.
def tableText (name : String) (rows : List Row) : List Char :=
  '[' :: (name.toList ++ ']' :: '\n' :: rows.flatMap Row.text)

def tableLines (name : String) (rows : List Row) : List Line := .header [] name :: rows.map Row.line

def tableItem (rows : List Row) : Item := .table .header (rows.map fun row => (row.name, row.item))

theorem Composes.table {rows : List Row} {lines : List Line} (named : BareName name)
    (sound : ∀ row ∈ rows, row.Sound) (composes : Composes rest lines) :
    Composes (tableText name rows ++ rest) (tableLines name rows ++ lines) := by
  have inner := composes.members sound
  have text : tableText name rows ++ rest =
      '[' :: (name.toList ++ ']' :: '\n' :: (rows.flatMap Row.text ++ rest)) := by
    simp [tableText]
  rw [text]
  refine inner.cons ?_ (readLine_header named _)
  simp only [List.length_cons, List.length_append]
  omega

section
variable {root inner : Members} {table : String} {row : Row} {rows : List Row}

theorem find?_absent (absent : ∀ m ∈ root, m.1 ≠ name) : root.find? name = none :=
  List.lookup_eq_none_iff.mpr fun m member => by simpa using (absent m member).symm

theorem find?_last (absent : ∀ m ∈ root, m.1 ≠ name) (item : Item) :
    Members.find? (root ++ [(name, item)]) name = some item := by
  rw [Members.find?, List.lookup_append, ← Members.find?, find?_absent absent]
  simp

theorem replace_last (absent : ∀ m ∈ root, m.1 ≠ name) (old new : Item) :
    Members.replace name new (root ++ [(name, old)]) = root ++ [(name, new)] := by
  have kept : root.map (fun m => if m.1 = name then (name, new) else m) = root := by
    refine (List.map_congr_left fun m member => ?_).trans (List.map_id root)
    exact if_neg (absent m member)
  rw [Members.replace, List.map_append, kept]
  simp

-- The header of a table puts it behind the others, and its members go there.
theorem add_header (absent : ∀ m ∈ root, m.1 ≠ table) (opened : List String) :
    Draft.add ⟨root, opened⟩ (.header [] table) = some ⟨root ++ [(table, .table .header [])], [table]⟩ := by
  simp [Draft.add, Members.openTable, Members.alter, find?_absent absent]

theorem add_member (absent : ∀ m ∈ root, m.1 ≠ table) (fresh : ∀ m ∈ inner, m.1 ≠ row.name) :
    Draft.add ⟨root ++ [(table, .table .header inner)], [table]⟩ row.line =
      some ⟨root ++ [(table, .table .header (inner ++ [(row.name, row.item)]))], [table]⟩ := by
  have assigned : inner.assign [] row.name row.item .header = some (inner ++ [(row.name, row.item)]) := by
    simp [Members.assign, Members.alter, find?_absent fresh]
  simp [Draft.add, Row.line, Members.alter, find?_last absent, assigned, replace_last absent]

theorem fold_members (absent : ∀ m ∈ root, m.1 ≠ table)
    (distinct : (inner.map Prod.fst ++ rows.map Row.name).Nodup) :
    (rows.map Row.line).foldlM Draft.add ⟨root ++ [(table, .table .header inner)], [table]⟩ =
      some ⟨root ++ [(table, .table .header (inner ++ rows.map fun row => (row.name, row.item)))], [table]⟩ := by
  induction rows generalizing inner with
  | nil => simp
  | cons row rows ih =>
    have fresh : ∀ m ∈ inner, m.1 ≠ row.name := by
      intro m member same
      exact (List.nodup_append.mp distinct).2.2 m.1 (List.mem_map_of_mem member) row.name (List.mem_cons_self ..) same
    rw [List.map_cons, List.foldlM_cons, add_member absent fresh]
    refine (ih ?_).trans ?_
    · simpa using distinct
    · simp

theorem fold_table (absent : ∀ m ∈ root, m.1 ≠ table) (distinct : (rows.map Row.name).Nodup)
    (opened : List String) : (tableLines table rows).foldlM Draft.add ⟨root, opened⟩ =
      some ⟨root ++ [(table, tableItem rows)], [table]⟩ := by
  rw [tableLines, List.foldlM_cons, add_header absent]
  exact fold_members absent distinct

end

theorem readDocument_tables {first second : String} {rows others : List Row}
    (named : BareName first ∧ BareName second) (different : first ≠ second)
    (sound : (∀ row ∈ rows, row.Sound) ∧ ∀ row ∈ others, row.Sound)
    (distinct : (rows.map Row.name).Nodup ∧ (others.map Row.name).Nodup) :
    readDocument (String.ofList (tableText first rows ++ '\n' :: tableText second others)) =
      some [(first, tableItem rows), (second, tableItem others)] := by
  have last : Composes (tableText second others) (tableLines second others) := by
    simpa using Composes.nil.table named.2 sound.2
  have composes := last.gap.table named.1 sound.1
  have unmarked : afterMark (tableText first rows ++ '\n' :: tableText second others) =
      tableText first rows ++ '\n' :: tableText second others := rfl
  have built : (tableLines first rows ++ .empty :: tableLines second others).foldlM Draft.add .start =
      some ⟨[(first, tableItem rows), (second, tableItem others)], [second]⟩ := by
    have absent : ∀ m ∈ [(first, tableItem rows)], m.1 ≠ second := by
      intro m member
      rw [List.mem_singleton.mp member]
      exact different
    have fresh : ∀ m ∈ ([] : Members), m.1 ≠ first := fun _ member => nomatch member
    have opened : (tableLines first rows).foldlM Draft.add .start =
        some ⟨[(first, tableItem rows)], [first]⟩ := fold_table fresh distinct.1 []
    rw [List.foldlM_append, opened]
    exact fold_table absent distinct.2 [first]
  unfold readDocument
  rw [String.toList_ofList, unmarked]
  simp only [composes.read _ composes.fits, built, Option.bind_eq_bind, Option.bind_some, Option.pure_def]

end DiskGauge.Toml
