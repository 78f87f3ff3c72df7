import DiskGauge.Proofs.Json.Numbers
import DiskGauge.Toml.Value

namespace DiskGauge.Toml
open Json (Digits digits_toDigits toDigits_lead)

variable {cs more rest : List Char} {c mark : Char}

theorem digit?_digit (digit : c.isDigit = true) : takeDigits.digit? 10 c = some (c.toNat - '0'.toNat) := by
  obtain ⟨low, high⟩ := Char.isDigit_iff_toNat.mp digit
  have decimal : ('0' ≤ c && c ≤ '9') = true := by
    rw [Bool.and_eq_true, decide_eq_true_eq, decide_eq_true_eq]
    exact ⟨low, high⟩
  have small : c.toNat - '0'.toNat < 10 := by
    have least : '0'.toNat = 48 := rfl
    have most : '9'.toNat = 57 := rfl
    omega
  rw [takeDigits.digit?, hexDigit?, if_pos decimal]
  exact Option.filter_some_pos (by simpa using small)

theorem takeDigits_digits (value count : Nat) (digits : Digits cs) (more : List Char) :
    takeDigits 10 value count (cs ++ '\n' :: more) =
      (Nat.ofDigitChars 10 cs value, count + cs.length, '\n' :: more) := by
  induction cs generalizing value count with
  | nil =>
    have stop : takeDigits.digit? 10 '\n' = none := by decide
    rw [List.nil_append, takeDigits, stop]
    rfl
  | cons c cs ih =>
    rw [List.cons_append, takeDigits, digit?_digit digits.head, Nat.ofDigitChars_cons]
    dsimp only
    rw [ih _ _ digits.tail, Nat.mul_comm, List.length_cons]
    simp only [Prod.mk.injEq, and_true, true_and]
    omega

-- A digit is none of the other characters that a value can start with.
theorem other_of_digit (digit : c.isDigit = true) (other : mark.isDigit = false) : c ≠ mark := by
  rintro rfl
  rw [digit] at other
  cases other

theorem readSign_digit (digit : c.isDigit = true) (more : List Char) : readSign (c :: more) = (none, c :: more) := by
  unfold readSign
  split
  · next same => exact absurd (List.cons.inj same).1 (other_of_digit digit (by decide))
  · next same => exact absurd (List.cons.inj same).1 (other_of_digit digit (by decide))
  · rfl

theorem afterWord_digit (digit : c.isDigit = true) (other : mark.isDigit = false) (word more : List Char) :
    afterWord? (mark :: word) (c :: more) = none := by
  have different : (mark == c) = false := by simpa using (other_of_digit digit other).symm
  rw [afterWord?, List.isPrefixOf, different, Bool.false_and]
  rfl

theorem readWhole_written (n : Nat) (more : List Char) :
    readWhole (Nat.toDigits 10 n ++ '\n' :: more) = some ((none, n), '\n' :: more) := by
  rcases Nat.eq_zero_or_pos n with rfl | positive
  · rfl
  · obtain ⟨c, cs, lead, nonzero⟩ := toDigits_lead positive
    have digits := digits_toDigits n
    have value : Nat.ofDigitChars 10 (Nat.toDigits 10 n) 0 = n := Nat.ofDigitChars_ten_toDigits
    rw [lead] at digits value ⊢
    have taken := takeDigits_digits 0 0 digits more
    rw [value] at taken
    rw [List.cons_append] at taken ⊢
    have read : readDigits 10 (c :: (cs ++ '\n' :: more)) = some ((n, cs.length + 1), '\n' :: more) := by
      simp [readDigits, taken]
    unfold readWhole
    rw [readSign_digit digits.head]
    dsimp only
    split
    · next same => exact absurd (List.cons.inj same).1 nonzero
    · rw [read]
      rfl

theorem lead_written (n : Nat) : ∃ c cs, Nat.toDigits 10 n = c :: cs ∧ Digits (c :: cs) := by
  have digits := digits_toDigits n
  cases spelled : Nat.toDigits 10 n with
  | nil => exact absurd spelled Nat.toDigits_ne_nil
  | cons c cs => exact ⟨c, cs, rfl, spelled ▸ digits⟩

-- A field of a date or a time takes digits away, so no mark comes next.
theorem field_left {width first last : Nat} {field : Nat × List Char} (digits : Digits cs)
    (read : readField width first last (cs ++ '\n' :: more) = some field) :
    ∃ left, Digits left ∧ field.2 = left ++ '\n' :: more := by
  simp only [readField, Option.ite_none_left_eq_some, Option.ite_none_right_eq_some] at read
  obtain ⟨full, _, taken⟩ := read
  obtain rfl := Option.some.inj taken
  have decimal : ∀ c ∈ (cs ++ '\n' :: more).take width, c.isDigit = true := by
    simp only [Bool.or_eq_true, decide_eq_true_eq, Bool.not_eq_true', not_or, Bool.not_eq_false] at full
    exact List.all_eq_true.mp full.2
  have short : width ≤ cs.length := by
    by_contra long
    have member : '\n' ∈ (cs ++ '\n' :: more).take width := by
      rw [List.take_append, List.mem_append]
      right
      obtain ⟨past, behind⟩ : ∃ past, width - cs.length = past + 1 := ⟨width - cs.length - 1, by omega⟩
      rw [behind]
      exact List.mem_cons_self ..
    cases decimal _ member
  exact ⟨cs.drop width, fun c member => digits c (List.mem_of_mem_drop member), List.drop_append_of_le_length short⟩

theorem expect_left (digits : Digits cs) (other : mark.isDigit = false) (ends : mark ≠ '\n') (more : List Char) :
    expect mark (cs ++ '\n' :: more) = none := by
  cases cs with
  | nil => exact if_neg ends.symm
  | cons c cs => exact if_neg (other_of_digit digits.head other)

theorem skipMoment_digits (digits : Digits cs) (more : List Char) : skipMoment (cs ++ '\n' :: more) = none := by
  have noDate : skipDate (cs ++ '\n' :: more) = none := by
    unfold skipDate
    cases year : readField 4 0 9999 (cs ++ '\n' :: more) with
    | none => rfl
    | some field =>
      obtain ⟨left, decimal, rest⟩ := field_left digits year
      have noDash : expect '-' field.2 = none := rest ▸ expect_left decimal (by decide) (by decide) more
      simp only [Option.bind_eq_bind, Option.bind_some, noDash]
      rfl
  have noTime : skipTime (cs ++ '\n' :: more) = none := by
    unfold skipTime
    cases hour : readField 2 0 23 (cs ++ '\n' :: more) with
    | none => rfl
    | some field =>
      obtain ⟨left, decimal, rest⟩ := field_left digits hour
      have noColon : expect ':' field.2 = none := rest ▸ expect_left decimal (by decide) (by decide) more
      simp only [Option.bind_eq_bind, Option.bind_some, noColon]
      rfl
  rw [skipMoment, noDate]
  exact noTime

theorem readFloat_written (n : Nat) (more : List Char) : readFloat (Nat.toDigits 10 n ++ '\n' :: more) = none := by
  have noExponent : readExponent ('\n' :: more) = none := rfl
  have noDecimal : readDecimal (Nat.toDigits 10 n ++ '\n' :: more) = none := by
    simp [readDecimal, readWhole_written, noExponent]
  obtain ⟨c, cs, spelled, digits⟩ := lead_written n
  rw [readFloat, noDecimal, spelled, List.cons_append, readNamedFloat]
  dsimp only
  rw [readSign_digit digits.head]
  dsimp only
  rw [afterWord_digit digits.head (by decide), afterWord_digit digits.head (by decide)]
  rfl

-- The bound is left open here, since nothing has to compute it.
theorem within_bound (n bound : Nat) (fits : n < bound) (more : List Char) :
    (do let (value, rest) ← some ((n : Int), more)
        if -(bound : Int) ≤ value && value < bound then return (value, rest) else none) = some ((n : Int), more) := by
  refine if_pos ?_
  rw [Bool.and_eq_true, decide_eq_true_eq, decide_eq_true_eq]
  omega

theorem readInteger_written (n : Nat) (fits : n < twoTo 63) (more : List Char) :
    readInteger (Nat.toDigits 10 n ++ '\n' :: more) = some ((n : Int), '\n' :: more) := by
  rcases Nat.eq_zero_or_pos n with rfl | positive
  · exact within_bound 0 (twoTo 63) fits ('\n' :: more)
  · have whole := readWhole_written n more
    obtain ⟨c, cs, spelled, nonzero⟩ := toDigits_lead positive
    rw [spelled, List.cons_append] at whole ⊢
    unfold readInteger
    split
    · next same => exact absurd (List.cons.inj same).1 nonzero
    · next same => exact absurd (List.cons.inj same).1 nonzero
    · next same => exact absurd (List.cons.inj same).1 nonzero
    · rw [whole]
      exact within_bound n (twoTo 63) fits ('\n' :: more)

theorem readValue_integer (depth n : Nat) (fits : n < twoTo 63) (more : List Char) :
    readValue depth (Nat.toDigits 10 n ++ '\n' :: more) = some (.integer n, '\n' :: more) := by
  have figure : readFigure (Nat.toDigits 10 n ++ '\n' :: more) = some (.integer n, '\n' :: more) := by
    rw [readFigure, skipMoment_digits (digits_toDigits n), readFloat_written, readInteger_written n fits]
    rfl
  obtain ⟨c, cs, spelled, digits⟩ := lead_written n
  rw [spelled, List.cons_append] at figure ⊢
  have double : c ≠ '"' := other_of_digit digits.head (by decide)
  have single : c ≠ '\'' := other_of_digit digits.head (by decide)
  have quote : ¬((c = '"' || c = '\'') = true) := by simp [double, single]
  have bracket : c ≠ '[' := other_of_digit digits.head (by decide)
  have brace : c.toNat ≠ 0x7B := by
    have most := (Char.isDigit_iff_toNat.mp digits.head).2
    have nine : '9'.toNat = 57 := rfl
    omega
  unfold readValue
  rw [if_neg quote, if_neg bracket, if_neg brace, afterWord_digit digits.head (by decide)]
  dsimp only
  rw [afterWord_digit digits.head (by decide)]
  exact figure

end DiskGauge.Toml
