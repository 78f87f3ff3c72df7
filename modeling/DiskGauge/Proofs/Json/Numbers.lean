import DiskGauge.Json.Value
import DiskGauge.Proofs.Json.Rereading
import DiskGauge.Proofs.Text.Utf8

namespace DiskGauge.Json
open Utf8 Double Decimal

variable {cs whole fraction : List Char} {rest : Bytes} (negative : Bool)

def Digits (cs : List Char) : Prop := ∀ c ∈ cs, c.isDigit = true

theorem Digits.head {c : Char} (digits : Digits (c :: cs)) : c.isDigit = true :=
  digits c (List.mem_cons_self ..)

theorem Digits.tail {c : Char} (digits : Digits (c :: cs)) : Digits cs :=
  fun d member => digits d (List.mem_cons_of_mem c member)

-- Nothing comes next that could belong to a number.
def Ends (rest : Bytes) : Prop := ∀ b ∈ rest.head?, ¬isDigit b ∧ b ≠ 0x2E ∧ b ≠ 0x65 ∧ b ≠ 0x45

theorem Ends.noDigit (ends : Ends rest) : ¬startsWithDigit rest := by
  cases rest with
  | nil => exact Bool.false_ne_true
  | cons b more => exact (ends b rfl).1

structure DigitByte (c : Char) (b : UInt8) : Prop where
  bytes : String.utf8EncodeChar c = [b]
  digit : isDigit b = true
  value : digitValue b = c.toNat - '0'.toNat

theorem DigitByte.next {c : Char} {b : UInt8} (byte : DigitByte c b) (value : Nat) :
    value * 10 + digitValue b = 10 * value + (c.toNat - '0'.toNat) := by
  rw [byte.value, Nat.mul_comm]

theorem digitByte {c : Char} (digit : c.isDigit = true) : DigitByte c (UInt8.ofNat c.toNat) := by
  obtain ⟨low, high⟩ := Char.isDigit_iff_toNat.mp digit
  have least : '0'.toNat = 48 := rfl
  have most : '9'.toNat = 57 := rfl
  have byte : c.toNat < 256 := by omega
  refine ⟨encode_ascii (by omega), ?_, ?_⟩
  · unfold isDigit
    rw [Bool.and_eq_true, decide_eq_true_eq, decide_eq_true_eq, le_ofNat byte, UInt8.le_iff_toNat_le,
      UInt8.toNat_ofNat_of_lt' byte]
    exact ⟨low, high⟩
  · unfold digitValue
    rw [UInt8.toNat_ofNat_of_lt' byte]
    rfl

theorem digit_notZero {c : Char} (digit : c.isDigit = true) (nonzero : c ≠ '0') : ¬UInt8.ofNat c.toNat = 0x30 := by
  intro zero
  have most := (Char.isDigit_iff_toNat.mp digit).2
  have byte : c.toNat < 256 := Nat.lt_of_le_of_lt most (by decide)
  exact nonzero (Char.toNat_inj.mp ((ofNat_eq byte _).mp zero))

theorem le_ofDigitChars (cs : List Char) (value : Nat) : value ≤ Nat.ofDigitChars 10 cs value := by
  induction cs generalizing value with
  | nil => exact Nat.le_refl _
  | cons c cs ih =>
    rw [Nat.ofDigitChars_cons]
    exact Nat.le_trans (by omega) (ih _)

theorem takeFitting_stop (value count : Nat) (stop : ¬startsWithDigit rest) :
    takeFitting value count rest = (value, count, rest) := by
  cases rest with
  | nil => rfl
  | cons b more =>
    have notDigit : ¬isDigit b := stop
    rw [takeFitting, if_neg]
    simp [notDigit]

theorem takeFitting_digits (value count : Nat) (digits : Digits cs)
    (fits : Nat.ofDigitChars 10 cs value < twoTo 64) (stop : ¬startsWithDigit rest) :
    takeFitting value count (encode cs ++ rest) = (Nat.ofDigitChars 10 cs value, count + cs.length, rest) := by
  induction cs generalizing value count with
  | nil => exact takeFitting_stop value count stop
  | cons c cs ih =>
    have byte := digitByte digits.head
    have step := byte.next value
    rw [Nat.ofDigitChars_cons] at fits ⊢
    have small := Nat.lt_of_le_of_lt (le_ofDigitChars cs _) fits
    have inside : (isDigit (UInt8.ofNat c.toNat) &&
        value * 10 + digitValue (UInt8.ofNat c.toNat) < twoTo 64) = true := by
      rw [byte.digit, step, Bool.true_and, decide_eq_true_eq]
      exact small
    rw [encode_cons, byte.bytes, List.append_assoc, List.singleton_append, takeFitting, if_pos inside, step,
      ih _ _ digits.tail fits, List.length_cons]
    simp only [Prod.mk.injEq, and_true, true_and]
    omega

theorem readExponentDigits_digits (significand exponent : Nat) (start : Int) (down : Bool) (digits : Digits cs)
    (fits : Nat.ofDigitChars 10 cs exponent < twoTo 31) (stop : ¬startsWithDigit rest) :
    readExponentDigits negative significand start down exponent (encode cs ++ rest) =
      finishFloat negative significand
        (if down then start - Nat.ofDigitChars 10 cs exponent else start + Nat.ofDigitChars 10 cs exponent)
        rest := by
  induction cs generalizing exponent with
  | nil =>
    cases rest with
    | nil => rfl
    | cons b more =>
      have notDigit : ¬isDigit b := stop
      change readExponentDigits negative significand start down exponent (b :: more) = _
      rw [readExponentDigits, if_neg notDigit]
      rfl
  | cons c cs ih =>
    have byte := digitByte digits.head
    have step := byte.next exponent
    rw [Nat.ofDigitChars_cons] at fits ⊢
    have small := Nat.lt_of_le_of_lt (le_ofDigitChars cs _) fits
    rw [encode_cons, byte.bytes, List.append_assoc, List.singleton_append, readExponentDigits,
      if_pos byte.digit, step, if_pos small, ih _ digits.tail fits]

-- The digits before the point: one zero, or digits of which the first is none.
structure Numeral (cs : List Char) : Prop where
  digits : Digits cs
  lead : cs = ['0'] ∨ ∃ c more, cs = c :: more ∧ c ≠ '0'

theorem digits_toDigits (n : Nat) : Digits (Nat.toDigits 10 n) :=
  fun _ member => Nat.isDigit_of_mem_toDigits (by decide) (by decide) member

theorem toDigits_lead {n : Nat} (positive : 0 < n) :
    ∃ c more, Nat.toDigits 10 n = c :: more ∧ c ≠ '0' := by
  induction n using Nat.strongRecOn with
  | ind n ih =>
    rcases Nat.lt_or_ge n 10 with small | large
    · refine ⟨n.digitChar, [], Nat.toDigits_of_lt_base small, ?_⟩
      intro zero
      exact Nat.ne_of_gt positive (Nat.digitChar_eq_zero.mp zero)
    · obtain ⟨c, more, lead, nonzero⟩ := ih (n / 10) (by omega) (by omega)
      refine ⟨c, more ++ [(n % 10).digitChar], ?_, nonzero⟩
      rw [Nat.toDigits_of_base_le (by decide) large, lead]
      rfl

theorem numeral_toDigits (n : Nat) : Numeral (Nat.toDigits 10 n) := by
  refine ⟨digits_toDigits n, ?_⟩
  rcases Nat.eq_zero_or_pos n with rfl | positive
  · exact .inl (Nat.toDigits_zero 10)
  · exact .inr (toDigits_lead positive)

theorem numeral_zero : Numeral ['0'] := numeral_toDigits 0

theorem Digits.append {front back : List Char} (first : Digits front) (second : Digits back) :
    Digits (front ++ back) := by
  intro c member
  rcases List.mem_append.mp member with before | after
  · exact first c before
  · exact second c after

theorem digits_zeros (count : Nat) : Digits (List.replicate count '0') := by
  intro c member
  rw [(List.mem_replicate.mp member).2]
  rfl

theorem readUnsigned_whole (numeral : Numeral whole) (fits : Nat.ofDigitChars 10 whole 0 < twoTo 64)
    (stop : ¬startsWithDigit rest) :
    readUnsigned negative (encode whole ++ rest) =
      readAfterDigits negative (Nat.ofDigitChars 10 whole 0) rest := by
  rcases numeral.lead with rfl | ⟨c, more, rfl, nonzero⟩
  · change readUnsigned negative (0x30 :: rest) = _
    rw [readUnsigned, if_pos rfl, if_neg stop]
    rfl
  · have digits := numeral.digits
    obtain ⟨bytes, digit, spelled⟩ := digitByte digits.head
    have notZero := digit_notZero digits.head nonzero
    have first : digitValue (UInt8.ofNat c.toNat) = 10 * 0 + (c.toNat - '0'.toNat) := by
      rw [spelled, Nat.mul_zero, Nat.zero_add]
    rw [Nat.ofDigitChars_cons] at fits ⊢
    rw [encode_cons, bytes, List.append_assoc, List.singleton_append, readUnsigned, if_neg notZero,
      if_pos digit, first, takeFitting_digits _ 0 digits.tail fits stop]
    dsimp only
    rw [if_neg stop]

theorem readFraction_digits (significand : Nat) (exponent : Int) (digits : Digits fraction)
    (nonempty : fraction ≠ []) (fits : Nat.ofDigitChars 10 fraction significand < twoTo 64)
    (stop : ¬startsWithDigit rest) :
    readFraction negative significand exponent (encode fraction ++ rest) =
      readTail negative (Nat.ofDigitChars 10 fraction significand) (exponent - fraction.length) rest := by
  have count : ¬(0 + fraction.length = 0) := by
    rw [Nat.zero_add, List.length_eq_zero_iff]
    exact nonempty
  unfold readFraction
  rw [takeFitting_digits significand 0 digits fits stop]
  dsimp only
  rw [if_neg stop, if_neg count, Nat.zero_add]

theorem readTail_ends (significand : Nat) (exponent : Int) (ends : Ends rest) :
    readTail negative significand exponent rest = finishFloat negative significand exponent rest := by
  cases rest with
  | nil => rfl
  | cons b more =>
    obtain ⟨_, _, small, capital⟩ := ends b rfl
    rw [readTail, if_neg]
    simp [small, capital]

theorem readExponent_signed (significand n : Nat) (start : Int) (down : Bool) (near : n < twoTo 31)
    (stop : ¬startsWithDigit rest) :
    readExponent negative significand start
        ((if down then 0x2D else 0x2B) :: (encode (Nat.toDigits 10 n) ++ rest)) =
      finishFloat negative significand (if down then start - n else start + n) rest := by
  have value : Nat.ofDigitChars 10 (Nat.toDigits 10 n) 0 = n := Nat.ofDigitChars_ten_toDigits
  have digits := digits_toDigits n
  cases spelled : Nat.toDigits 10 n with
  | nil => exact absurd spelled Nat.toDigits_ne_nil
  | cons c more =>
    rw [spelled] at value digits
    obtain ⟨bytes, digit, first⟩ := digitByte digits.head
    rw [Nat.ofDigitChars_cons, Nat.mul_zero, Nat.zero_add, ← first] at value
    have later := readExponentDigits_digits negative significand
      (digitValue (UInt8.ofNat c.toNat)) start down digits.tail (by rw [value]; exact near) stop
    rw [value] at later
    rw [encode_cons, bytes, List.append_assoc, List.singleton_append]
    cases down
    · change (if isDigit (UInt8.ofNat c.toNat) then _ else _) = _
      rw [if_pos digit]
      exact later
    · change (if isDigit (UInt8.ofNat c.toNat) then _ else _) = _
      rw [if_pos digit]
      exact later

theorem readExponent_text (significand : Nat) (start power : Int) (near : power.natAbs < twoTo 31)
    (stop : ¬startsWithDigit rest) :
    readExponent negative significand start (encode (Layout.exponentText power).tail ++ rest) =
      finishFloat negative significand (start + power) rest := by
  unfold Layout.exponentText
  by_cases down : power < 0
  · have signed := readExponent_signed negative significand power.natAbs start true near stop
    have sum : start - (power.natAbs : Int) = start + power := by omega
    rw [if_pos rfl, sum] at signed
    rw [if_pos down]
    exact signed
  · have signed := readExponent_signed negative significand power.natAbs start false near stop
    have sum : start + (power.natAbs : Int) = start + power := by omega
    rw [if_neg Bool.false_ne_true, if_neg Bool.false_ne_true, sum] at signed
    rw [if_neg down]
    exact signed

theorem readUnsigned_point (numeral : Numeral whole) (digits : Digits fraction) (nonempty : fraction ≠ [])
    (fits : Nat.ofDigitChars 10 (whole ++ fraction) 0 < twoTo 64) (stop : ¬startsWithDigit rest) :
    readUnsigned negative (encode (whole ++ '.' :: fraction) ++ rest) =
      readTail negative (Nat.ofDigitChars 10 (whole ++ fraction) 0) (-(fraction.length : Int)) rest := by
  rw [Nat.ofDigitChars_append] at fits ⊢
  have less := Nat.lt_of_le_of_lt (le_ofDigitChars fraction _) fits
  have point : ¬startsWithDigit (0x2E :: (encode fraction ++ rest)) := by
    simp only [startsWithDigit]
    decide
  have tail : readAfterDigits negative (Nat.ofDigitChars 10 whole 0) (0x2E :: (encode fraction ++ rest)) =
      readFraction negative (Nat.ofDigitChars 10 whole 0) 0 (encode fraction ++ rest) := rfl
  have split : encode (whole ++ '.' :: fraction) ++ rest = encode whole ++ (0x2E :: (encode fraction ++ rest)) := by
    rw [encode_append, encode_cons, List.append_assoc, List.append_assoc]
    rfl
  rw [split, readUnsigned_whole negative numeral less point, tail, readFraction_digits negative _ 0 digits nonempty fits stop,
    Int.zero_sub]

theorem readUnsigned_zero (ends : Ends rest) :
    readUnsigned negative (encode (Layout.json.magnitude 0) ++ rest) =
      finishFloat negative 0 (-1) rest := by
  have point := readUnsigned_point negative numeral_zero (digits_zeros 1)
    (by decide) (by decide) ends.noDigit
  rw [readTail_ends negative _ _ ends] at point
  exact point

variable {n : Nat}

theorem numeral_zeros (positive : 0 < n) (count : Nat) :
    Numeral (Nat.toDigits 10 n ++ List.replicate count '0') := by
  obtain ⟨c, more, lead, nonzero⟩ := toDigits_lead positive
  refine ⟨(digits_toDigits n).append (digits_zeros count), .inr ⟨c, more ++ List.replicate count '0', ?_, nonzero⟩⟩
  rw [lead]
  rfl

theorem ofDigitChars_zeros (n count : Nat) :
    Nat.ofDigitChars 10 (Nat.toDigits 10 n ++ List.replicate count '0') 0 = n * tenTo count := by
  rw [Nat.ofDigitChars_append, Nat.ofDigitChars_ten_toDigits, Nat.ofDigitChars_replicate_zero, Nat.mul_comm]
  rfl

-- A whole number, with its mark.
theorem readUnsigned_marked (positive : 0 < n) (places : Nat) (fits : n * tenTo (places + 1) < twoTo 64)
    (ends : Ends rest) :
    readUnsigned negative (encode (Layout.json.positionalText (Nat.toDigits 10 n) places) ++ rest) =
      finishFloat negative (n * tenTo (places + 1)) (-1) rest := by
  have text : Layout.json.positionalText (Nat.toDigits 10 n) places =
      (Nat.toDigits 10 n ++ List.replicate places '0') ++ '.' :: List.replicate 1 '0' := by
    unfold Layout.positionalText
    dsimp only
    rw [if_pos (Int.natCast_nonneg places), Int.toNat_natCast]
    rfl
  have all : (Nat.toDigits 10 n ++ List.replicate places '0') ++ List.replicate 1 '0' =
      Nat.toDigits 10 n ++ List.replicate (places + 1) '0' := by
    rw [List.append_assoc, List.replicate_append_replicate]
  have value := ofDigitChars_zeros n (places + 1)
  rw [← all] at value
  rw [text, readUnsigned_point negative (numeral_zeros positive places) (digits_zeros 1) (by decide)
    (by rw [value]; exact fits) ends.noDigit, value]
  exact readTail_ends negative _ _ ends

theorem readUnsigned_within (positive : 0 < n) (fits : n < twoTo 64) {places : Nat} (fractional : 0 < places)
    (less : places < (Nat.toDigits 10 n).length) (ends : Ends rest) :
    readUnsigned negative (encode (Layout.json.positionalText (Nat.toDigits 10 n) (-places)) ++ rest) =
      finishFloat negative n (-places) rest := by
  have digits := digits_toDigits n
  have value := Nat.ofDigitChars_ten_toDigits (n := n)
  obtain ⟨c, more, lead, nonzero⟩ := toDigits_lead positive
  generalize Nat.toDigits 10 n = all at digits value lead less ⊢
  obtain ⟨place, split⟩ : ∃ place, all.length = place + 1 + places := ⟨all.length - places - 1, by omega⟩
  have text : Layout.json.positionalText all (-places) = all.take (place + 1) ++ '.' :: all.drop (place + 1) := by
    have count : ((all.length : Int) + -(places : Int)).toNat = place + 1 := by omega
    unfold Layout.positionalText
    dsimp only
    rw [if_neg (by omega), if_pos (by omega), count]
  have tailLength : (all.drop (place + 1)).length = places := by
    rw [List.length_drop]
    omega
  have numeral : Numeral (all.take (place + 1)) := by
    refine ⟨fun d member => digits d (List.mem_of_mem_take member), .inr ⟨c, more.take place, ?_, nonzero⟩⟩
    rw [lead]
    rfl
  have fraction : all.drop (place + 1) ≠ [] := by
    rw [Ne, ← List.length_eq_zero_iff, tailLength]
    exact Nat.ne_of_gt fractional
  rw [← List.take_append_drop (place + 1) all] at value
  rw [text, readUnsigned_point negative numeral (fun d member => digits d (List.mem_of_mem_drop member)) fraction
    (by rw [value]; exact fits) ends.noDigit, value, tailLength]
  exact readTail_ends negative _ _ ends

theorem readUnsigned_behind (fits : n < twoTo 64) (zeros : Nat) (ends : Ends rest) :
    readUnsigned negative (encode (Layout.json.positionalText (Nat.toDigits 10 n)
        (-((Nat.toDigits 10 n).length + zeros : Nat))) ++ rest) =
      finishFloat negative n (-((Nat.toDigits 10 n).length + zeros : Nat)) rest := by
  have digits := digits_toDigits n
  have value := Nat.ofDigitChars_ten_toDigits (n := n)
  have nonempty : 0 < (Nat.toDigits 10 n).length := Nat.length_toDigits_pos
  generalize Nat.toDigits 10 n = all at digits value nonempty ⊢
  have text : Layout.json.positionalText all (-(all.length + zeros : Nat)) =
      ['0'] ++ '.' :: (List.replicate zeros '0' ++ all) := by
    have count : (-((all.length : Int) + -(all.length + zeros : Nat))).toNat = zeros := by omega
    unfold Layout.positionalText
    dsimp only
    rw [if_neg (by omega), if_neg (by omega), count]
    rfl
  have spelled : Nat.ofDigitChars 10 (['0'] ++ (List.replicate zeros '0' ++ all)) 0 = n := by
    rw [Nat.ofDigitChars_append, Nat.ofDigitChars_append, Nat.ofDigitChars_replicate_zero]
    exact value
  have length : (List.replicate zeros '0' ++ all).length = all.length + zeros := by
    rw [List.length_append, List.length_replicate, Nat.add_comm]
  have fraction : List.replicate zeros '0' ++ all ≠ [] := by
    rw [Ne, ← List.length_eq_zero_iff, length]
    omega
  rw [text, readUnsigned_point negative numeral_zero ((digits_zeros zeros).append digits) fraction
    (by rw [spelled]; exact fits) ends.noDigit, spelled, length]
  exact readTail_ends negative _ _ ends

theorem encode_exponentText (power : Int) :
    encode (Layout.exponentText power) ++ rest = 0x65 :: (encode (Layout.exponentText power).tail ++ rest) := rfl

-- A number with an exponent, whose first digit stands before the point.
theorem readUnsigned_scientific (fits : n < twoTo 64) (exponent : Int)
    (near : ((Nat.toDigits 10 n).length + exponent - 1).natAbs < twoTo 31) (nonzero : 0 < n)
    (stop : ¬startsWithDigit rest) :
    readUnsigned negative (encode (Layout.scientificText (Nat.toDigits 10 n) exponent) ++ rest) =
      finishFloat negative n exponent rest := by
  have digits := digits_toDigits n
  have value := Nat.ofDigitChars_ten_toDigits (n := n)
  obtain ⟨c, more, lead, first⟩ := toDigits_lead nonzero
  rw [lead] at digits value near ⊢
  have one : Numeral [c] := ⟨fun d member => digits d (List.mem_append_left more member), .inr ⟨c, [], rfl, first⟩⟩
  have letter (tail : Bytes) : ¬startsWithDigit (0x65 :: tail) := by
    simp only [startsWithDigit]
    decide
  cases more with
  | nil =>
    have power : 0 + (([c].length : Int) + exponent - 1) = exponent := by simp
    change readUnsigned negative (encode ([c] ++ Layout.exponentText _) ++ rest) = _
    rw [encode_append, List.append_assoc, encode_exponentText,
      readUnsigned_whole negative one (by rw [value]; exact fits) (letter _), value]
    change readExponent negative n 0 _ = _
    rw [readExponent_text negative n 0 _ near stop, power]
  | cons d more =>
    have power : -((d :: more).length : Int) + (((c :: d :: more).length : Int) + exponent - 1) = exponent := by
      simp only [List.length_cons]
      omega
    have text : Layout.scientificText (c :: d :: more) exponent = ([c] ++ '.' :: (d :: more)) ++
        Layout.exponentText ((c :: d :: more).length + exponent - 1) := by
      simp [Layout.scientificText]
    rw [text, encode_append, List.append_assoc, encode_exponentText,
      readUnsigned_point negative one digits.tail (List.cons_ne_nil _ _)
        (by rw [List.singleton_append, value]; exact fits) (letter _), List.singleton_append, value]
    change readExponent negative n _ _ = _
    rw [readExponent_text negative n _ _ near stop, power]

-- A decimal is read as it is spelled, in whichever layout it stands.
theorem readUnsigned_decimal (d : Decimal) (nonzero : 0 < d.digits) (fits : (spelled d).digits < twoTo 64)
    (few : d.digits < twoTo 64) (near : (digitCount d.digits + d.exponent - 1).natAbs < twoTo 31)
    (ends : Ends rest) :
    readUnsigned negative (encode (
        if Layout.json.isPositional (digitCount d.digits + d.exponent) then
          Layout.json.positionalText (Nat.toDigits 10 d.digits) d.exponent
        else Layout.scientificText (Nat.toDigits 10 d.digits) d.exponent) ++ rest) =
      finishFloat negative (spelled d).digits (spelled d).exponent rest := by
  obtain ⟨n, exponent⟩ := d
  unfold spelled at fits ⊢
  dsimp only at *
  by_cases positional : Layout.json.isPositional (digitCount n + exponent)
  · rw [if_pos positional]
    by_cases up : 0 ≤ exponent
    · rw [if_pos ⟨up, positional⟩] at fits ⊢
      obtain ⟨places, rfl⟩ := Int.eq_ofNat_of_zero_le up
      exact readUnsigned_marked negative nonzero places fits ends
    · rw [if_neg fun whole => up whole.1]
      obtain ⟨places, rfl⟩ : ∃ places : Nat, exponent = -places := ⟨exponent.natAbs, by omega⟩
      rcases Nat.lt_or_ge places (Nat.toDigits 10 n).length with within | behind
      · exact readUnsigned_within negative nonzero few (by omega) within ends
      · obtain ⟨zeros, rfl⟩ := Nat.exists_eq_add_of_le behind
        exact readUnsigned_behind negative few zeros ends
  · rw [if_neg positional, if_neg fun whole => positional whole.2]
    exact readUnsigned_scientific negative few exponent near nonzero ends.noDigit

theorem readUnsigned_magnitude {rank : Nat} (finite : rank < finiteRanks) (ends : Ends rest) :
    readUnsigned negative (encode (Layout.json.magnitude rank) ++ rest) =
      finishFloat negative (written rank).digits (written rank).exponent rest := by
  rcases Nat.eq_zero_or_pos rank with rfl | positive
  · exact readUnsigned_zero negative ends
  · have fits := written_fits rank
    obtain ⟨reads, finest, coarsest, digits⟩ := shortest_short .even positive
    obtain ⟨low, high⟩ := startExponent_range finite
    have few : (shortest .even rank).digits < tenTo 19 := Nat.lt_of_le_of_lt digits (by decide)
    have count := digitCount_le (by decide) few
    have near : (digitCount (shortest .even rank).digits + (shortest .even rank).exponent - 1).natAbs < twoTo 31 := by
      have bound : twoTo 31 = 2147483648 := rfl
      omega
    have nonzero : ¬rank = 0 := Nat.ne_of_gt positive
    unfold Layout.magnitude
    unfold written at fits ⊢
    rw [if_neg nonzero] at fits ⊢
    rw [if_neg nonzero]
    exact readUnsigned_decimal negative _ (digits_pos reads positive) fits (Nat.lt_trans few (by decide)) near ends

variable {negative}

theorem digit_of_readUnsigned {bytes : Bytes} {n : Number} (read : readUnsigned negative bytes = .ok (n, rest)) :
    ∃ b more, bytes = b :: more ∧ isDigit b = true := by
  cases bytes with
  | nil => cases read
  | cons b more =>
    refine ⟨b, more, rfl, ?_⟩
    by_contra letter
    have notZero : ¬b = 0x30 := by
      rintro rfl
      exact letter (by decide)
    rw [readUnsigned, if_neg notZero, if_neg letter] at read
    cases read

theorem lead_of_readNumber {bytes : Bytes} {n : Number} (read : readNumber bytes = .ok (n, rest)) :
    ∃ b more, bytes = b :: more ∧ (b = 0x2D || isDigit b) = true := by
  cases bytes with
  | nil => cases read
  | cons b more =>
    refine ⟨b, more, rfl, ?_⟩
    by_cases minus : b = 0x2D
    · simp [minus]
    · rw [readNumber, if_neg minus] at read
      obtain ⟨_, _, same, digit⟩ := digit_of_readUnsigned read
      obtain rfl := (List.cons.inj same).1
      simp [digit]

theorem readNumber_unsigned {bytes : Bytes} {n : Number} (read : readUnsigned false bytes = .ok (n, rest)) :
    readNumber bytes = .ok (n, rest) := by
  obtain ⟨b, more, rfl, digit⟩ := digit_of_readUnsigned read
  have notMinus : ¬b = 0x2D := by
    rintro rfl
    cases digit
  rw [readNumber, if_neg notMinus, read]

theorem readNumber_double {x y : Double} (read : reread? x = some y) (ends : Ends rest) :
    readNumber (encode (numberChars (.float x)) ++ rest) = .ok (.float y, rest) := by
  cases x with
  | infinite negative => cases read
  | nan => cases read
  | finite negative rank =>
    obtain ⟨z, found⟩ := rescan_finite rank
    obtain rfl : Double.finite negative z = y := by
      rw [reread?_of_rescan negative found] at read
      exact Option.some.inj read
    have number := readUnsigned_magnitude negative rank.isLt ends
    unfold finishFloat at number
    rw [show scaled? 3 (ofNat (written rank).digits) (written rank).exponent = _ from found] at number
    change readNumber (encode ((if negative then ['-'] else []) ++ Layout.json.magnitude rank) ++ rest) = _
    cases negative with
    | true => exact number
    | false => exact readNumber_unsigned number

theorem readNumber_natural {n : Nat} (fits : n < twoTo 64) (ends : Ends rest) :
    readNumber (encode (integerChars n) ++ rest) = .ok (.integer n, rest) := by
  have value := Nat.ofDigitChars_ten_toDigits (n := n)
  have whole := readUnsigned_whole false (numeral_toDigits n) (by rw [value]; exact fits) ends.noDigit
  have notNegative : ¬((n : Int) < 0) := by omega
  have last : readAfterDigits false n rest = .ok (.integer n, rest) := by
    cases rest with
    | nil => rfl
    | cons b more =>
      obtain ⟨_, point, small, capital⟩ := ends b rfl
      rw [readAfterDigits, if_neg point, if_neg (by simp [small, capital])]
      rfl
  rw [value, last] at whole
  unfold integerChars
  rw [if_neg notNegative]
  exact readNumber_unsigned whole

theorem readNumber_negative {n : Nat} (positive : 0 < n) (fits : n ≤ twoTo 63) (ends : Ends rest) :
    readNumber (encode (integerChars (-n)) ++ rest) = .ok (.integer (-n), rest) := by
  have value := Nat.ofDigitChars_ten_toDigits (n := n)
  have wide : n < twoTo 64 := Nat.lt_of_le_of_lt fits (twoTo_lt (by decide))
  have whole := readUnsigned_whole true (numeral_toDigits n) (by rw [value]; exact wide) ends.noDigit
  have negative : -(n : Int) < 0 := by omega
  have number : readAfterDigits.whole true n = .integer (-n) := by
    have exact : ¬(n = 0 || twoTo 63 < n) = true := by
      simp only [Bool.or_eq_true, decide_eq_true_eq]
      omega
    unfold readAfterDigits.whole
    rw [if_neg (by decide), if_neg exact]
  have last : readAfterDigits true n rest = .ok (.integer (-n), rest) := by
    cases rest with
    | nil => exact congrArg (fun number => Except.ok (number, [])) number
    | cons b more =>
      obtain ⟨_, point, small, capital⟩ := ends b rfl
      rw [readAfterDigits, if_neg point, if_neg (by simp [small, capital]), number]
  rw [value, last] at whole
  unfold integerChars
  rw [if_pos negative, Int.natAbs_neg, Int.natAbs_natCast]
  exact whole

theorem readNumber_integer {i : Int} (above : -(twoTo 63 : Int) ≤ i) (below : i < twoTo 63) (ends : Ends rest) :
    readNumber (encode (integerChars i) ++ rest) = .ok (.integer i, rest) := by
  rcases Int.lt_or_le i 0 with negative | natural
  · obtain ⟨n, rfl⟩ : ∃ n : Nat, i = -n := ⟨i.natAbs, by omega⟩
    exact readNumber_negative (by omega) (by omega) ends
  · obtain ⟨n, rfl⟩ := Int.eq_ofNat_of_zero_le natural
    have fits : n < twoTo 63 := by omega
    exact readNumber_natural (Nat.lt_trans fits (twoTo_lt (by decide))) ends

theorem skipBlanks_cons {b : UInt8} (solid : ¬isBlank b) (more : Bytes) :
    skipBlanks (b :: more) = b :: more := if_neg solid

theorem solid_of_lead {b : UInt8} (lead : (b = 0x2D || isDigit b) = true) : ¬isBlank b := by
  intro blank
  unfold isBlank at blank
  simp only [Bool.or_eq_true, decide_eq_true_eq] at blank
  rcases blank with ((rfl | rfl) | rfl) | rfl <;> cases lead

section
variable {α : Type} {expected : String} {accept : Number → Except Schema.Mismatch α} {bytes : Bytes} {n : Number}

theorem readNumberAs_number (read : readNumber bytes = .ok (n, rest)) :
    readNumberAs expected accept bytes =
      match accept n with
      | .ok value => .ok (value, rest)
      | .error mismatch => stopAt (.shape mismatch) rest := by
  obtain ⟨b, more, rfl, lead⟩ := lead_of_readNumber read
  unfold readNumberAs
  rw [skipBlanks_cons (solid_of_lead lead)]
  dsimp only
  rw [if_pos lead, read]
  change (match accept n with | .ok value => _ | .error mismatch => _) = _
  cases accept n <;> rfl

theorem readNumberAs_ok {value : α} (read : readNumber bytes = .ok (n, rest)) (accepted : accept n = .ok value) :
    readNumberAs expected accept bytes = .ok (value, rest) := by
  rw [readNumberAs_number read, accepted]

theorem readNumberAs_error {mismatch : Schema.Mismatch} (read : readNumber bytes = .ok (n, rest))
    (refused : accept n = .error mismatch) :
    readNumberAs expected accept bytes = stopAt (.shape mismatch) rest := by
  rw [readNumberAs_number read, refused]

end

theorem readDouble_written {x y : Double} (read : reread? x = some y) (ends : Ends rest) :
    readDouble (encode (numberChars (.float x)) ++ rest) = .ok (y, rest) :=
  readNumberAs_ok (readNumber_double read ends) rfl

theorem readInteger_written {n : Nat} (fits : n < twoTo 63) (ends : Ends rest) :
    readInteger (encode (integerChars n) ++ rest) = .ok ((n : Int), rest) := by
  have accepted : (if (n : Int) < twoTo 63 then .ok (n : Int) else .error (.value (.integer n) "i64") :
      Except Schema.Mismatch Int) = .ok (n : Int) := if_pos (Int.ofNat_lt.mpr fits)
  exact readNumberAs_ok (readNumber_natural (Nat.lt_trans fits (twoTo_lt (by decide))) ends) accepted

-- What takes all of the 64 bits is refused.
theorem readInteger_large {n : Nat} (fits : n < twoTo 64) (large : twoTo 63 ≤ n) (ends : Ends rest) :
    readInteger (encode (integerChars n) ++ rest) = stopAt (.shape (.value (.integer n) "i64")) rest := by
  have refused : (if (n : Int) < twoTo 63 then .ok (n : Int) else .error (.value (.integer n) "i64") :
      Except Schema.Mismatch Int) = .error (.value (.integer n) "i64") :=
    if_neg fun less => Nat.not_lt.mpr large (Int.ofNat_lt.mp less)
  exact readNumberAs_error (readNumber_natural fits ends) refused

end DiskGauge.Json
