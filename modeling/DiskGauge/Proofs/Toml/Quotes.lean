import DiskGauge.Toml.Quotes
import DiskGauge.Toml.Value

namespace DiskGauge.Toml

variable {text body more : List Char} {c e q letter : Char} {run : Nat} {multi : Bool}

-- Controls have numbers below 128.
theorem control_small (control : isPlain c = false) : c.toNat < 128 := by
  simp only [isPlain, Bool.or_eq_false_iff, Bool.and_eq_false_iff, decide_eq_false_iff_not] at control
  omega

theorem hexNumber_hex4 : ∀ n < 128, hexNumber? (hex4 n) = some n := by decide

theorem scalar_toNat (c : Char) : scalar? c.toNat = some c := by
  have valid : c.toNat.isValidChar := c.valid
  rw [scalar?, if_pos valid, Char.ofNat_toNat]

theorem skipBlanks_visible (visible : isBlank c = false) (more : List Char) : skipBlanks (c :: more) = c :: more := by
  simp [skipBlanks, visible]

theorem afterNewline_other (lineFeed : c ≠ '\n') (carriageReturn : c ≠ '\r') (more : List Char) :
    afterNewline? (c :: more) = none := by
  unfold afterNewline?
  split
  · next same => exact absurd (List.cons.inj same).1 lineFeed
  · next same => exact absurd (List.cons.inj same).1 carriageReturn
  · rfl

-- That a character is escaped by others behind a backslash; these do not end a line.
structure Escapes (c letter : Char) (spelled : List Char) : Prop where
  visible : isBlank letter = false ∧ letter ≠ '\n' ∧ letter ≠ '\r'
  read : ∀ more, escape? (letter :: (spelled ++ more)) = some (c, spelled.length + 1)

theorem escapes_letter (visible : isBlank letter = false ∧ letter ≠ '\n' ∧ letter ≠ '\r')
    (simple : simpleEscape? letter = some c) : Escapes c letter [] := by
  refine ⟨visible, fun more => ?_⟩
  simp only [escape?, simple]
  rfl

theorem escapes_control (small : c.toNat < 128) : Escapes c 'u' (hex4 c.toNat) := by
  refine ⟨by decide, fun more => ?_⟩
  have digits : (hex4 c.toNat ++ more).take 4 = hex4 c.toNat := List.take_left' rfl
  have simple : simpleEscape? 'u' = none := by decide
  have enough : ¬((4 = 0 || (hex4 c.toNat ++ more).length < 4) = true) := by simp [hex4]
  simp only [escape?, simple]
  change (if (4 = 0 || (hex4 c.toNat ++ more).length < 4) = true then _ else _) = _
  rw [if_neg enough]
  simp only [if_pos, digits, hexNumber_hex4 _ small, Option.bind_some, scalar_toNat, Option.map_some]
  rfl

-- What stands for a character other than a quote: the character itself, or what escapes it.
inductive Stands (multi : Bool) (c : Char) : List Char → Prop where
  | itself (plain : isPlain c = true) (backslash : c ≠ '\\') : Stands multi c [c]
  | newline (several : multi = true) (same : c = '\n') : Stands multi c [c]
  | escaped {letter : Char} {spelled : List Char} (escapes : Escapes c letter spelled) :
      Stands multi c ('\\' :: letter :: spelled)

theorem written_stands (multi : Bool) (c : Char) : Stands multi c (written multi c) := by
  have byLetter {l : Char} (visible : isBlank l = false ∧ l ≠ '\n' ∧ l ≠ '\r') (simple : simpleEscape? l = some c) :
      Stands multi c ['\\', l] := .escaped (escapes_letter visible simple)
  unfold written
  split
  · next backspace => exact byLetter (by decide) (by rw [← Char.ofNat_toNat c, backspace]; decide)
  · split
    · next tab => exact byLetter (by decide) (by rw [tab]; decide)
    · split
      · next lineFeed =>
        cases multi with
        | true =>
          rw [← lineFeed]
          exact .newline rfl lineFeed
        | false => exact byLetter (by decide) (by rw [lineFeed]; decide)
      · split
        · next formFeed => exact byLetter (by decide) (by rw [← Char.ofNat_toNat c, formFeed]; decide)
        · split
          · next carriageReturn => exact byLetter (by decide) (by rw [carriageReturn]; decide)
          · split
            · next backslash => exact byLetter (by decide) (by rw [backslash]; decide)
            · next backslash =>
              split
              · next plain => exact .itself plain backslash
              · next control => exact .escaped (escapes_control (control_small (Bool.not_eq_true _ ▸ control)))

theorem readBasic_skip (spelled more : List Char) : readBasic spelled.length (spelled ++ more) = readBasic 0 more := by
  induction spelled with
  | nil => rfl
  | cons c spelled ih => exact ih

theorem readMultiBasic_skip (spelled more : List Char) :
    readMultiBasic spelled.length (spelled ++ more) = readMultiBasic 0 more := by
  induction spelled with
  | nil => rfl
  | cons c spelled ih => exact ih

theorem closing_other (other : c ≠ q) (more : List Char) : closing? q (c :: more) = none := by
  unfold closing?
  split
  · next same =>
    obtain ⟨rfl, _⟩ := List.cons.inj same
    simp [other]
  · rfl

namespace Escapes

variable {spelled : List Char}

theorem readBasic (escapes : Escapes c letter spelled) (more : List Char) :
    readBasic 0 ('\\' :: letter :: (spelled ++ more)) = prepend c (readBasic 0 more) := by
  rw [Toml.readBasic, if_neg (by decide), if_pos rfl, escapes.read more]
  exact congrArg (prepend c) (readBasic_skip (letter :: spelled) more)

theorem noFold (escapes : Escapes c letter spelled) (more : List Char) : foldedWidth? (letter :: more) = none := by
  obtain ⟨blank, lineFeed, carriageReturn⟩ := escapes.visible
  rw [foldedWidth?, skipBlanks_visible blank, afterNewline_other lineFeed carriageReturn]
  rfl

theorem readMultiBasic (escapes : Escapes c letter spelled) (more : List Char) :
    readMultiBasic 0 ('\\' :: letter :: (spelled ++ more)) = prepend c (readMultiBasic 0 more) := by
  rw [Toml.readMultiBasic, closing_other (by decide)]
  dsimp only
  rw [if_pos rfl, escapes.noFold, escapes.read more]
  exact congrArg (prepend c) (readMultiBasic_skip (letter :: spelled) more)

end Escapes

theorem readBasic_stands {spelled : List Char} (stands : Stands false c spelled) (quote : c ≠ '"') (more : List Char) :
    readBasic 0 (spelled ++ more) = prepend c (readBasic 0 more) := by
  cases stands with
  | itself plain backslash => rw [List.singleton_append, readBasic, if_neg quote, if_neg backslash, if_pos plain]
  | newline several => cases several
  | escaped escapes => exact escapes.readBasic more

theorem readMultiBasic_stands {spelled : List Char} (stands : Stands true c spelled) (quote : c ≠ '"')
    (more : List Char) : readMultiBasic 0 (spelled ++ more) = prepend c (readMultiBasic 0 more) := by
  cases stands with
  | itself plain backslash =>
    have carriageReturn : c ≠ '\r' := by
      rintro rfl
      cases plain
    rw [List.singleton_append, readMultiBasic, closing_other quote]
    simp [backslash, carriageReturn, plain]
  | newline _ same =>
    subst same
    rw [List.singleton_append, readMultiBasic, closing_other (by decide)]
    simp
  | escaped escapes => exact escapes.readMultiBasic more

theorem escapes_quote : Escapes '"' '"' [] := escapes_letter (by decide) (by decide)

theorem readBasic_written (text more : List Char) :
    readBasic 0 (writeBasic false run text ++ '"' :: more) = some (text, more) := by
  induction text generalizing run with
  | nil => rfl
  | cons c text ih =>
    by_cases quote : c = '"'
    · subst quote
      rw [writeBasic, if_pos rfl, if_neg (by simp)]
      exact (escapes_quote.readBasic _).trans (congrArg (prepend '"') ih)
    · rw [writeBasic, if_neg quote, List.append_assoc, readBasic_stands (written_stands false c) quote, ih]
      rfl

theorem readLiteral_written (plain : ∀ c ∈ text, isPlain c = true) (unquoted : '\'' ∉ text) (more : List Char) :
    readLiteral (text ++ '\'' :: more) = some (text, more) := by
  induction text with
  | nil => rfl
  | cons c text ih =>
    have quote : c ≠ '\'' := fun same => unquoted (same ▸ List.mem_cons_self ..)
    rw [List.cons_append, readLiteral, if_neg quote, if_pos (plain c (List.mem_cons_self ..)),
      ih (fun d member => plain d (List.mem_cons_of_mem _ member)) fun member => unquoted (List.mem_cons_of_mem _ member)]
    rfl

-- Three quotes behind a body end it unless the body starts with three; quotes right before them belong to the body.
theorem closing_body (calm : ¬[q, q, q] <+: body) (ends : e ≠ q) (more : List Char) :
    closing? q (body ++ [q, q, q] ++ e :: more) =
      if body.all (· = q) then some (body, e :: more) else none := by
  match body with
  | [] => cases more <;> simp [closing?, ends]
  | [a] =>
    by_cases first : a = q
    · simp [closing?, ends, first]
    · simp [closing?, first]
  | [a, b] =>
    by_cases first : a = q
    · by_cases second : b = q <;> simp [closing?, first, second]
    · simp [closing?, first]
  | a :: b :: c :: body =>
    have apart : ¬(a = q ∧ b = q ∧ c = q) := by
      rintro ⟨rfl, rfl, rfl⟩
      exact calm ⟨body, rfl⟩
    have unlike : ¬((a :: b :: c :: body).all (· = q) = true) := by
      intro all
      simp only [List.all_cons, Bool.and_eq_true, decide_eq_true_eq] at all
      exact apart ⟨all.1, all.2.1, all.2.2.1⟩
    rw [if_neg unlike]
    simp only [closing?, List.cons_append]
    rw [if_neg (by simpa [and_assoc] using apart)]

-- The longest run of a quote is at most two where three never stand in a row.
theorem run_le (q : Char) (run : Nat) (text : List Char) : run ≤ longestRun.go q run text := by
  induction text generalizing run with
  | nil => exact Nat.le_refl _
  | cons d text ih =>
    rw [longestRun.go]
    split
    · exact Nat.le_trans (Nat.le_succ run) (ih (run + 1))
    · exact Nat.le_max_left ..

theorem run_mono (q : Char) {run longer : Nat} (le : run ≤ longer) (text : List Char) :
    longestRun.go q run text ≤ longestRun.go q longer text := by
  induction text generalizing run longer with
  | nil => exact le
  | cons d text ih =>
    rw [longestRun.go, longestRun.go]
    split
    · exact ih (Nat.succ_le_succ le)
    · exact Nat.max_le.mpr ⟨Nat.le_trans le (Nat.le_max_left ..), Nat.le_max_right ..⟩

theorem longestRun_tail (q c : Char) (text : List Char) : longestRun q text ≤ longestRun q (c :: text) := by
  rw [longestRun, longestRun, longestRun.go]
  split
  · exact run_mono q (Nat.zero_le 1) text
  · exact Nat.le_max_right ..

theorem calm_of_run (short : longestRun q text ≤ 2) : ¬[q, q, q] <+: text := by
  rintro ⟨tail, rfl⟩
  have three : longestRun q ([q, q, q] ++ tail) = longestRun.go q 3 tail := by
    simp [longestRun, longestRun.go]
  have least := run_le q 3 tail
  omega

theorem absent_of_run (zero : longestRun q text = 0) : q ∉ text := by
  induction text with
  | nil => exact List.not_mem_nil
  | cons c text ih =>
    have tail := longestRun_tail q c text
    intro member
    rcases List.mem_cons.mp member with rfl | later
    · have least := run_le q 1 text
      have run : longestRun q (q :: text) = longestRun.go q 1 text := by rw [longestRun, longestRun.go, if_pos rfl]
      omega
    · exact ih (by omega) later

-- What stands for itself over several lines.
theorem carriageReturn_of_shown (shown : c = '\n' ∨ isPlain c = true) : c ≠ '\r' := by
  rintro rfl
  rcases shown with lineFeed | plain
  · cases lineFeed
  · cases plain

theorem readMultiLiteral_closed {r : List Char × List Char} (closes : closing? '\'' text = some r) :
    readMultiLiteral text = some r := by
  cases text with
  | nil => cases closes
  | cons c text => rw [readMultiLiteral, closes]

theorem readMultiBasic_closed {r : List Char × List Char} (closes : closing? '"' text = some r) :
    readMultiBasic 0 text = some r := by
  cases text with
  | nil => cases closes
  | cons c text => rw [readMultiBasic, closes]

theorem readMultiLiteral_written (shown : ∀ c ∈ text, c = '\n' ∨ isPlain c = true) (short : longestRun '\'' text ≤ 2)
    (ends : e ≠ '\'') (more : List Char) :
    readMultiLiteral (text ++ ['\'', '\'', '\''] ++ e :: more) = some (text, e :: more) := by
  induction text with
  | nil => exact readMultiLiteral_closed (closing_body (calm_of_run short) ends more)
  | cons c text ih =>
    have closes := closing_body (calm_of_run short) ends more
    by_cases all : (c :: text).all (· = '\'') = true
    · exact readMultiLiteral_closed (closes.trans (if_pos all))
    · have own := shown c (List.mem_cons_self ..)
      have visible : (c = '\n' || isPlain c) = true := by simpa using own
      rw [if_neg all] at closes
      rw [List.cons_append, List.cons_append] at closes ⊢
      rw [readMultiLiteral, closes]
      dsimp only
      rw [if_neg (by simp [carriageReturn_of_shown own]), if_pos visible,
        ih (fun d member => shown d (List.mem_cons_of_mem _ member)) (Nat.le_trans (longestRun_tail ..) short)]
      rfl

-- Over several lines at most two quotes stand in a row, counting those that were there before.
theorem writeBasic_calm (few : run ≤ 2) (text : List Char) :
    ¬List.replicate (3 - run) '"' <+: writeBasic true run text := by
  induction text generalizing run with
  | nil =>
    have nonempty : List.replicate (3 - run) '"' ≠ [] := by simp; omega
    simpa [writeBasic] using nonempty
  | cons c text ih =>
    have lead : List.replicate (3 - run) '"' = '"' :: List.replicate (2 - run) '"' := by
      rw [← List.replicate_succ]
      congr 1
      omega
    rw [lead, writeBasic]
    split
    · split
      · next room =>
        have room : run < 2 := by simpa using room
        rw [List.cons_prefix_cons]
        intro both
        have fewer : run + 1 ≤ 2 := room
        exact ih fewer (by simpa [Nat.sub_sub, Nat.add_comm] using both.2)
      · simp [List.cons_prefix_cons]
    · next quote =>
      rintro ⟨tail, same⟩
      have stands := written_stands true c
      generalize written true c = spelled at stands same
      cases stands with
      | itself => exact quote (List.cons.inj same).1.symm
      | newline => exact quote (List.cons.inj same).1.symm
      | escaped => cases (List.cons.inj same).1

theorem writeBasic_run (few : run ≤ 2) (text : List Char) : ¬['"', '"', '"'] <+: writeBasic true run text := by
  intro three
  refine writeBasic_calm few text (List.IsPrefix.trans ?_ three)
  refine ⟨List.replicate run '"', ?_⟩
  rw [List.replicate_append_replicate, Nat.sub_add_cancel (Nat.le_succ_of_le few)]
  rfl

-- What is nothing but quotes was not escaped.
theorem writeBasic_quotes (all : (writeBasic true run text).all (· = '"') = true) : writeBasic true run text = text := by
  induction text generalizing run with
  | nil => rfl
  | cons c text ih =>
    rw [writeBasic] at all ⊢
    split at all
    · next quote =>
      split at all
      · next room =>
        rw [if_pos quote, if_pos room, quote, ih (by simpa using all)]
      · simp at all
    · next quote =>
      have stands := written_stands true c
      generalize written true c = spelled at stands all
      cases stands <;> simp [quote] at all

theorem readMultiBasic_written (few : run ≤ 2) (ends : e ≠ '"') (text more : List Char) :
    readMultiBasic 0 (writeBasic true run text ++ ['"', '"', '"'] ++ e :: more) = some (text, e :: more) := by
  induction text generalizing run with
  | nil => exact readMultiBasic_closed (closing_body (writeBasic_run few []) ends more)
  | cons c text ih =>
    have closes := closing_body (writeBasic_run few (c :: text)) ends more
    by_cases all : (writeBasic true run (c :: text)).all (· = '"') = true
    · rw [if_pos all, writeBasic_quotes all] at closes
      rw [writeBasic_quotes all]
      exact readMultiBasic_closed closes
    · rw [if_neg all] at closes
      rw [writeBasic] at closes ⊢
      split at closes
      · next quote =>
        subst quote
        rw [if_pos rfl]
        split at closes
        · next room =>
          rw [if_pos room]
          rw [List.cons_append, List.cons_append] at closes ⊢
          rw [readMultiBasic, closes]
          dsimp only
          rw [if_neg (by decide), if_neg (by simp), if_pos (by decide), ih (Nat.succ_le_of_lt (by simpa using room))]
          rfl
        · next full =>
          rw [if_neg full]
          exact (escapes_quote.readMultiBasic _).trans (congrArg (prepend '"') (ih (Nat.zero_le 2)))
      · next quote =>
        rw [if_neg quote, List.append_assoc, List.append_assoc, readMultiBasic_stands (written_stands true c) quote,
          ← List.append_assoc, ih (Nat.zero_le 2)]
        rfl

theorem shown_of (noControl : hasControl text = false) : ∀ c ∈ text, c = '\n' ∨ isPlain c = true := by
  intro c member
  have calm := List.any_eq_false.mp noControl c member
  by_cases lineFeed : c = '\n'
  · exact .inl lineFeed
  · simpa [lineFeed] using calm

-- What is sure of a text for which a kind of quotes was chosen.
inductive Suits (text : List Char) : Quotes → Prop where
  | basic : Suits text .basic
  | literal (plain : ∀ c ∈ text, isPlain c = true) (unquoted : '\'' ∉ text) : Suits text .literal
  | multiBasic : Suits text .multiBasic
  | multiLiteral (shown : ∀ c ∈ text, c = '\n' ∨ isPlain c = true) (short : longestRun '\'' text ≤ 2) :
      Suits text .multiLiteral

theorem ofText_suits (text : List Char) : Suits text (.ofText text) := by
  unfold Quotes.ofText
  dsimp only
  split
  · exact .basic
  · split
    · next literal =>
      simp only [Bool.and_eq_true, Bool.not_eq_true', decide_eq_true_eq] at literal
      obtain ⟨⟨noControl, unquoted⟩, unbroken⟩ := literal
      refine .literal (fun c member => (shown_of noControl c member).resolve_left ?_) (absent_of_run unquoted)
      rintro rfl
      simp [member] at unbroken
    · split
      · exact .multiBasic
      · split
        · next literal =>
          simp only [Bool.and_eq_true, Bool.not_eq_true', decide_eq_true_eq] at literal
          exact .multiLiteral (shown_of literal.1) literal.2
        · split
          · exact .basic
          · exact .multiBasic

theorem afterOpening_solid (lineFeed : c ≠ '\n') (carriageReturn : c ≠ '\r') (more : List Char) :
    afterOpening (c :: more) = c :: more := by
  rw [afterOpening, afterNewline_other lineFeed carriageReturn]
  rfl

-- No line ends at the start of a body unless the text starts with its end.
theorem afterOpening_body (unbroken : '\n' ∉ text) (more : List Char) :
    afterOpening (writeBasic true 0 text ++ '"' :: more) = writeBasic true 0 text ++ '"' :: more := by
  cases text with
  | nil => exact afterOpening_solid (by decide) (by decide) _
  | cons c text =>
    have lineFeed : c ≠ '\n' := fun same => unbroken (same ▸ List.mem_cons_self ..)
    by_cases quote : c = '"'
    · rw [writeBasic, if_pos quote, if_pos (by decide)]
      exact afterOpening_solid (by decide) (by decide) _
    · rw [writeBasic, if_neg quote]
      have stands := written_stands true c
      generalize written true c = spelled at stands
      cases stands with
      | itself plain => exact afterOpening_solid lineFeed (carriageReturn_of_shown (.inr plain)) _
      | newline _ same => exact absurd same lineFeed
      | escaped => exact afterOpening_solid (by decide) (by decide) _

theorem afterOpening_shown (shown : ∀ c ∈ text, c = '\n' ∨ isPlain c = true) (unbroken : '\n' ∉ text)
    (more : List Char) : afterOpening (text ++ '\'' :: more) = text ++ '\'' :: more := by
  cases text with
  | nil => exact afterOpening_solid (by decide) (by decide) _
  | cons c text =>
    have own := shown c (List.mem_cons_self ..)
    exact afterOpening_solid (fun same => unbroken (same ▸ List.mem_cons_self ..)) (carriageReturn_of_shown own) _

theorem readText_basic {rest : List Char} (single : ∀ more, rest ≠ '"' :: '"' :: more) :
    readText ('"' :: rest) = readBasic 0 rest := by
  unfold readText
  split
  · next more same => exact absurd (List.cons.inj same).2 (single more)
  · next same => cases (List.cons.inj same).1
  · next same => rw [(List.cons.inj same).2]
  · next same => cases (List.cons.inj same).1
  · next absent _ => exact absurd rfl (absent rest)

theorem readText_literal {rest : List Char} (single : ∀ more, rest ≠ '\'' :: '\'' :: more) :
    readText ('\'' :: rest) = readLiteral rest := by
  unfold readText
  split
  · next same => cases (List.cons.inj same).1
  · next more same => exact absurd (List.cons.inj same).2 (single more)
  · next same => cases (List.cons.inj same).1
  · next same => rw [(List.cons.inj same).2]
  · next absent => exact absurd rfl (absent rest)

-- A text with one quote on each side does not start as one with three does, not even when it is empty.
theorem single_basic (double : e ≠ '"') (more follow : List Char) :
    writeBasic false 0 text ++ '"' :: e :: more ≠ '"' :: '"' :: follow := by
  cases text with
  | nil =>
    intro same
    exact double (List.cons.inj (List.cons.inj same).2).1
  | cons c text =>
    by_cases quote : c = '"'
    · rw [writeBasic, if_pos quote, if_neg (by simp)]
      exact fun same => nomatch (List.cons.inj same).1
    · rw [writeBasic, if_neg quote]
      have stands := written_stands false c
      generalize written false c = spelled at stands
      cases stands with
      | itself => exact fun same => quote (List.cons.inj same).1
      | newline several => cases several
      | escaped => exact fun same => nomatch (List.cons.inj same).1

theorem single_literal (unquoted : '\'' ∉ text) (single : e ≠ '\'') (more follow : List Char) :
    text ++ '\'' :: e :: more ≠ '\'' :: '\'' :: follow := by
  cases text with
  | nil =>
    intro same
    exact single (List.cons.inj (List.cons.inj same).2).1
  | cons c text => exact fun same => unquoted ((List.cons.inj same).1 ▸ List.mem_cons_self ..)

-- A text is read as it was written, unless one more quote stands right behind it.
theorem readText_written (text : List Char) (double : e ≠ '"') (single : e ≠ '\'') (more : List Char) :
    readText (writeText text ++ e :: more) = some (text, e :: more) := by
  have suits := ofText_suits text
  unfold writeText
  dsimp only
  generalize Quotes.ofText text = quotes at suits
  cases suits with
  | basic =>
    change readText ('"' :: (writeBasic false 0 text ++ ['"'] ++ e :: more)) = _
    rw [List.append_assoc, List.singleton_append, readText_basic (single_basic double more), readBasic_written]
  | literal plain unquoted =>
    change readText ('\'' :: (text ++ ['\''] ++ e :: more)) = _
    rw [List.append_assoc, List.singleton_append, readText_literal (single_literal unquoted single more),
      readLiteral_written plain unquoted]
  | multiBasic =>
    have body : readMultiBasic 0 (writeBasic true 0 text ++ ['"', '"', '"'] ++ e :: more) = some (text, e :: more) :=
      readMultiBasic_written (Nat.zero_le 2) double text more
    cases broken : text.contains '\n' with
    | true => exact body
    | false =>
      have unbroken : '\n' ∉ text := by simpa using broken
      have solid := afterOpening_body unbroken ('"' :: '"' :: e :: more)
      change readMultiBasic 0 (afterOpening (writeBasic true 0 text ++ ['"', '"', '"'] ++ e :: more)) = _
      rw [List.append_assoc] at body ⊢
      exact (congrArg (readMultiBasic 0) solid).trans body
  | multiLiteral shown short =>
    have body := readMultiLiteral_written shown short single more
    cases broken : text.contains '\n' with
    | true => exact body
    | false =>
      have unbroken : '\n' ∉ text := by simpa using broken
      have solid := afterOpening_shown shown unbroken ('\'' :: '\'' :: e :: more)
      change readMultiLiteral (afterOpening (text ++ ['\'', '\'', '\''] ++ e :: more)) = _
      rw [List.append_assoc] at body ⊢
      exact (congrArg readMultiLiteral solid).trans body

theorem writeText_lead (text : List Char) : ∃ q tail, writeText text = q :: tail ∧ (q = '"' ∨ q = '\'') := by
  unfold writeText
  dsimp only
  cases Quotes.ofText text <;> exact ⟨_, _, rfl, by decide⟩

theorem readValue_text (depth : Nat) (text : List Char) (double : e ≠ '"') (single : e ≠ '\'') (more : List Char) :
    readValue depth (writeText text ++ e :: more) = some (.text (String.ofList text), e :: more) := by
  have read := readText_written text double single more
  obtain ⟨q, tail, spelled, quote⟩ := writeText_lead text
  have quoted : (q = '"' || q = '\'') = true := by simpa using quote
  rw [spelled, List.cons_append] at read ⊢
  unfold readValue
  rw [if_pos quoted, read]
  rfl

end DiskGauge.Toml
