import DiskGauge.Proofs.Json.Numbers
import DiskGauge.Proofs.Json.Spelling

namespace DiskGauge.Json
open Utf8 Double

-- An exponent, with a plus or minus sign if there is one.
structure ExponentText where
  capital : Bool
  sign : Option Bool
  digits : List Char
  decimal : Digits digits
  nonempty : digits ≠ []

def ExponentText.signBytes (e : ExponentText) : Bytes :=
  match e.sign with
  | none => []
  | some minus => [if minus then 0x2D else 0x2B]

def ExponentText.bytes (e : ExponentText) : Bytes :=
  (if e.capital then 0x45 else 0x65) :: (e.signBytes ++ encode e.digits)

-- A number as it is written. Without digits behind it there is no point.
structure NumberText where
  negative : Bool
  whole : List Char
  numeral : Numeral whole
  fraction : List Char
  decimal : Digits fraction
  exponent : Option ExponentText

namespace NumberText

def exponentBytes (n : NumberText) : Bytes := (n.exponent.map ExponentText.bytes).getD []

def fractionBytes (n : NumberText) : Bytes := if n.fraction.isEmpty then [] else 0x2E :: encode n.fraction

def unsigned (n : NumberText) : Bytes := encode n.whole ++ (n.fractionBytes ++ n.exponentBytes)

def bytes (n : NumberText) : Bytes := if n.negative then 0x2D :: n.unsigned else n.unsigned

def value? (n : NumberText) : Option Number :=
  match readNumber n.bytes with
  | .ok (number, _) => some number
  | .error _ => none

end NumberText

def NumberText.ofNat (n : Nat) : NumberText :=
  ⟨false, Nat.toDigits 10 n, numeral_toDigits n, [], (fun _ member => nomatch member), none⟩

def NumberText.ofInt (i : Int) : NumberText :=
  ⟨i < 0, Nat.toDigits 10 i.natAbs, numeral_toDigits i.natAbs, [], (fun _ member => nomatch member), none⟩

theorem NumberText.bytes_ofInt (i : Int) : (ofInt i).bytes = encode (integerChars i) := by
  have unsigned : (ofInt i).unsigned = encode (Nat.toDigits 10 i.natAbs) := List.append_nil _
  have sign : (ofInt i).negative = decide (i < 0) := rfl
  unfold bytes integerChars
  rw [unsigned, sign]
  by_cases negative : i < 0
  · rw [if_pos (decide_eq_true negative), if_pos negative]
    rfl
  · rw [if_neg (by simpa using negative), if_neg negative]

theorem NumberText.value?_ofInt {i : Int} (above : -(twoTo 63 : Int) ≤ i) (below : i < twoTo 63) :
    (ofInt i).value? = some (.integer i) := by
  have ends : Ends [] := fun b member => nomatch member
  have number := readNumber_integer above below ends
  unfold value?
  rw [List.append_nil] at number
  rw [bytes_ofInt, number]

-- Whatever stands behind the end of a number, the text in front is read as the same value.
def Settles {α : Type} (read : Reader α) (text : Bytes) : Prop :=
  ∃ value? : Option α, ∀ rest, Ends rest → Yields (read (text ++ rest)) value? (· = rest)

namespace Settles

variable {α : Type} {read other : Reader α} {text : Bytes}

theorem error {text : Bytes} (stops : ∀ rest, Ends rest → ∃ stop, read (text ++ rest) = .error stop) :
    Settles read text := ⟨none, stops⟩

theorem ok (value : α) (reads : ∀ rest, Ends rest → read (text ++ rest) = .ok (value, rest)) :
    Settles read text := ⟨some value, fun rest ends => ⟨rest, reads rest ends, rfl⟩⟩

theorem congr {shorter : Bytes} (settles : Settles other shorter)
    (same : ∀ rest, Ends rest → read (text ++ rest) = other (shorter ++ rest)) : Settles read text := by
  obtain ⟨value?, yields⟩ := settles
  exact ⟨value?, fun rest ends => by rw [same rest ends]; exact yields rest ends⟩

end Settles

section
variable {cs : List Char} {rest : Bytes}

theorem dropDigits_digits (count : Nat) (digits : Digits cs) (stop : ¬startsWithDigit rest) :
    dropDigits count (encode cs ++ rest) = (count + cs.length, rest) := by
  induction cs generalizing count with
  | nil =>
    cases rest with
    | nil => rfl
    | cons b more =>
      have notDigit : ¬isDigit b := stop
      change dropDigits count (b :: more) = _
      rw [dropDigits, if_neg notDigit]
      rfl
  | cons c cs ih =>
    obtain ⟨bytes, digit, _⟩ := digitByte digits.head
    rw [encode_cons, bytes, List.append_assoc, List.singleton_append, dropDigits, if_pos digit, ih _ digits.tail,
      List.length_cons]
    congr 1
    omega

theorem startsWithDigit_digits (digits : Digits cs) (nonempty : cs ≠ []) (rest : Bytes) :
    startsWithDigit (encode cs ++ rest) := by
  cases cs with
  | nil => exact absurd rfl nonempty
  | cons c cs =>
    obtain ⟨bytes, digit, _⟩ := digitByte digits.head
    rw [encode_cons, bytes]
    exact digit

-- As many digits are taken as fit, and the others are left, whatever is behind them.
theorem takeFitting_some (value count : Nat) (digits : Digits cs) : ∃ taken left total, cs = taken ++ left ∧
    ∀ rest, ¬startsWithDigit rest →
      takeFitting value count (encode cs ++ rest) = (total, count + taken.length, encode left ++ rest) := by
  induction cs generalizing value count with
  | nil => exact ⟨[], [], value, rfl, fun rest stop => takeFitting_stop value count stop⟩
  | cons c cs ih =>
    obtain ⟨bytes, digit, _⟩ := digitByte digits.head
    by_cases fits : value * 10 + digitValue (UInt8.ofNat c.toNat) < twoTo 64
    · obtain ⟨taken, left, total, split, takes⟩ :=
        ih (value * 10 + digitValue (UInt8.ofNat c.toNat)) (count + 1) digits.tail
      refine ⟨c :: taken, left, total, by rw [split]; rfl, fun rest stop => ?_⟩
      rw [encode_cons, bytes, List.append_assoc, List.singleton_append, takeFitting, if_pos (by simp [digit, fits]),
        takes rest stop, List.length_cons, Nat.add_assoc, Nat.add_comm 1]
    · refine ⟨[], c :: cs, value, rfl, fun rest _ => ?_⟩
      rw [encode_cons, bytes, List.append_assoc, List.singleton_append, takeFitting, if_neg (by simp [digit, fits])]
      rfl

end

namespace NumberText

variable (negative : Bool) (significand : Nat) (start : Int)

theorem settles_finish : Settles (finishFloat negative significand start) [] := by
  unfold finishFloat
  cases scaled? 3 (Double.ofNat significand) start with
  | none => exact .error fun rest _ => ⟨_, rfl⟩
  | some x => exact .ok _ fun rest _ => rfl

theorem settles_exponentDigits (down : Bool) {cs : List Char} (digits : Digits cs) (exponent : Nat) :
    Settles (readExponentDigits negative significand start down exponent) (encode cs) := by
  induction cs generalizing exponent with
  | nil =>
    refine (settles_finish negative significand (if down then start - exponent else start + exponent)).congr ?_
    intro rest ends
    cases rest with
    | nil => rfl
    | cons b more =>
      change readExponentDigits negative significand start down exponent (b :: more) = _
      rw [readExponentDigits, if_neg (ends b rfl).1]
      rfl
  | cons c cs ih =>
    obtain ⟨bytes, digit, _⟩ := digitByte digits.head
    have step (rest : Bytes) : readExponentDigits negative significand start down exponent (encode (c :: cs) ++ rest) =
        if exponent * 10 + digitValue (UInt8.ofNat c.toNat) < twoTo 31 then
          readExponentDigits negative significand start down
            (exponent * 10 + digitValue (UInt8.ofNat c.toNat)) (encode cs ++ rest)
        else if significand ≠ 0 && !down then stopAt .numberOutOfRange (encode cs ++ rest)
        else .ok (.float (if negative then -Double.zero else Double.zero),
          (dropDigits 0 (encode cs ++ rest)).2) := by
      rw [encode_cons, bytes, List.append_assoc, List.singleton_append, readExponentDigits, if_pos digit]
    by_cases fits : exponent * 10 + digitValue (UInt8.ofNat c.toNat) < twoTo 31
    · exact (ih digits.tail _).congr fun rest _ => by rw [step, if_pos fits]
    · by_cases large : (significand ≠ 0 && !down) = true
      · exact .error fun rest _ => ⟨_, by rw [step, if_neg fits, if_pos large]; rfl⟩
      · refine .ok (.float (if negative then -Double.zero else Double.zero)) fun rest ends => ?_
        rw [step, if_neg fits, if_neg large, dropDigits_digits 0 digits.tail ends.noDigit]

theorem settles_exponentSign (e : ExponentText) :
    Settles (readExponent negative significand start) (e.signBytes ++ encode e.digits) := by
  obtain ⟨capital, sign, digits, decimal, nonempty⟩ := e
  cases digits with
  | nil => exact absurd rfl nonempty
  | cons c cs =>
    obtain ⟨bytes, digit, _⟩ := digitByte decimal.head
    have settles (down : Bool) :=
      settles_exponentDigits negative significand start down decimal.tail (digitValue (UInt8.ofNat c.toNat))
    dsimp only [ExponentText.signBytes]
    rw [encode_cons, bytes, List.singleton_append]
    generalize UInt8.ofNat c.toNat = b at digit settles ⊢
    cases sign with
    | none =>
      have unsigned : ¬b = 0x2B ∧ ¬b = 0x2D := by
        constructor <;>
        · rintro rfl
          cases digit
      refine (settles false).congr fun rest _ => ?_
      change readExponent negative significand start (b :: (encode cs ++ rest)) = _
      unfold readExponent
      dsimp only
      rw [if_neg unsigned.1, if_neg unsigned.2]
      exact if_pos digit
    | some minus =>
      refine (settles minus).congr fun rest _ => ?_
      cases minus <;> exact if_pos digit

theorem settles_tail (e? : Option ExponentText) :
    Settles (readTail negative significand start) ((e?.map ExponentText.bytes).getD []) := by
  cases e? with
  | none =>
    refine (settles_finish negative significand start).congr fun rest ends => ?_
    exact readTail_ends negative significand start ends
  | some e =>
    refine (settles_exponentSign negative significand start e).congr fun rest _ => ?_
    cases marked : e.capital <;> simp [ExponentText.bytes, marked, readTail]

-- What stands behind the digits of a number is no digit.
theorem exponent_noDigit (e? : Option ExponentText) {rest : Bytes} (ends : Ends rest) :
    ¬startsWithDigit ((e?.map ExponentText.bytes).getD [] ++ rest) := by
  cases e? with
  | none => exact ends.noDigit
  | some e => cases marked : e.capital <;> simp [ExponentText.bytes, marked, startsWithDigit] <;> decide

theorem settles_fraction {fraction : List Char} (decimal : Digits fraction) (nonempty : fraction ≠ [])
    (e? : Option ExponentText) :
    Settles (readFraction negative significand start)
      (encode fraction ++ (e?.map ExponentText.bytes).getD []) := by
  obtain ⟨taken, left, total, split, takes⟩ := takeFitting_some significand 0 decimal
  have leftDigits : Digits left := fun c member => decimal c (by rw [split]; exact List.mem_append_right _ member)
  have reads (rest : Bytes) (ends : Ends rest) : readFraction negative significand start
      (encode fraction ++ ((e?.map ExponentText.bytes).getD [] ++ rest)) =
      readTail negative total (start - taken.length) ((e?.map ExponentText.bytes).getD [] ++ rest) := by
    have stop := exponent_noDigit e? ends
    unfold readFraction
    rw [takes _ stop]
    dsimp only
    rw [Nat.zero_add]
    by_cases all : left = []
    · have count : ¬taken.length = 0 := by
        rw [List.length_eq_zero_iff]
        rintro rfl
        exact nonempty (split.trans all)
      rw [all]
      exact (if_neg stop).trans (if_neg count)
    · rw [if_pos (startsWithDigit_digits leftDigits all _), dropDigits_digits 0 leftDigits stop]
  exact (settles_tail negative total (start - taken.length) e?).congr fun rest ends => by
    rw [List.append_assoc, reads rest ends]

theorem settles_afterDigits (n : NumberText) :
    Settles (readAfterDigits negative significand) (n.fractionBytes ++ n.exponentBytes) := by
  obtain ⟨_, _, _, fraction, decimal, exponent⟩ := n
  dsimp only [fractionBytes, exponentBytes]
  by_cases whole : fraction = []
  · subst whole
    cases exponent with
    | none =>
      refine .ok (readAfterDigits.whole negative significand) fun rest ends => ?_
      cases rest with
      | nil => rfl
      | cons b more =>
        obtain ⟨_, point, small, capital⟩ := ends b rfl
        change readAfterDigits negative significand (b :: more) = _
        unfold readAfterDigits
        dsimp only
        rw [if_neg point, if_neg (by simp [small, capital])]
    | some e =>
      refine (settles_exponentSign negative significand 0 e).congr fun rest _ => ?_
      cases marked : e.capital <;> simp [ExponentText.bytes, marked, readAfterDigits]
  · refine (settles_fraction negative significand 0 decimal whole exponent).congr fun rest _ => ?_
    rw [if_neg (by simpa using whole)]
    rfl

theorem fraction_noDigit (n : NumberText) {rest : Bytes} (ends : Ends rest) :
    ¬startsWithDigit (n.fractionBytes ++ n.exponentBytes ++ rest) := by
  unfold fractionBytes
  split
  · exact exponent_noDigit n.exponent ends
  · exact Bool.false_ne_true

-- Where more digits were written than fit, so many of them count as zeros.
def readSurplus (count : Nat) : Reader Number
  | b :: more =>
    if b = 0x2E then readFraction negative significand count more
    else readTail negative significand count (b :: more)
  | [] => readTail negative significand count []

theorem settles_surplus (n : NumberText) (count : Nat) :
    Settles (readSurplus negative significand count) (n.fractionBytes ++ n.exponentBytes) := by
  obtain ⟨_, _, _, fraction, decimal, exponent⟩ := n
  dsimp only [fractionBytes, exponentBytes]
  by_cases whole : fraction = []
  · subst whole
    refine (settles_tail negative significand count exponent).congr fun rest ends => ?_
    cases exponent with
    | none =>
      cases rest with
      | nil => rfl
      | cons b more => exact if_neg (ends b rfl).2.1
    | some e => cases marked : e.capital <;> simp [ExponentText.bytes, marked, readSurplus]
  · refine (settles_fraction negative significand count decimal whole exponent).congr fun rest _ => ?_
    rw [if_neg (by simpa using whole)]
    rfl

theorem readUnsigned_digit {b : UInt8} (digit : isDigit b = true) (notZero : ¬b = 0x30) (bytes : Bytes)
    {total count : Nat} {rest : Bytes} (takes : takeFitting (digitValue b) 0 bytes = (total, count, rest)) :
    readUnsigned negative (b :: bytes) =
      if startsWithDigit rest then readSurplus negative total (dropDigits 0 rest).1 (dropDigits 0 rest).2
      else readAfterDigits negative total rest := by
  rw [readUnsigned, if_neg notZero, if_pos digit, takes]
  dsimp only
  split
  · cases (dropDigits 0 rest).2 <;> rfl
  · rfl

theorem settles_unsigned (n : NumberText) : Settles (readUnsigned negative) n.unsigned := by
  unfold unsigned
  rcases n.numeral.lead with zero | ⟨c, more, whole, nonzero⟩
  · rw [zero]
    refine (settles_afterDigits negative 0 n).congr fun rest ends => ?_
    rw [List.append_assoc]
    change readUnsigned negative (0x30 :: (n.fractionBytes ++ n.exponentBytes ++ rest)) = _
    rw [readUnsigned, if_pos rfl, if_neg (n.fraction_noDigit ends)]
  · have digits : Digits (c :: more) := whole ▸ n.numeral.digits
    obtain ⟨bytes, digit, _⟩ := digitByte digits.head
    have notZero := digit_notZero digits.head nonzero
    obtain ⟨taken, left, total, split, takes⟩ := takeFitting_some (digitValue (UInt8.ofNat c.toNat)) 0 digits.tail
    have leftDigits : Digits left := fun d member =>
      digits.tail d (by rw [split]; exact List.mem_append_right _ member)
    have reads (rest : Bytes) (ends : Ends rest) := readUnsigned_digit negative digit notZero
      (encode more ++ (n.fractionBytes ++ n.exponentBytes ++ rest)) (takes _ (n.fraction_noDigit ends))
    rw [whole, encode_cons, bytes]
    by_cases all : left = []
    · refine (settles_afterDigits negative total n).congr fun rest ends => ?_
      rw [List.append_assoc, List.append_assoc, List.singleton_append, reads rest ends, all]
      exact if_neg (n.fraction_noDigit ends)
    · refine (settles_surplus negative total n left.length).congr fun rest ends => ?_
      rw [List.append_assoc, List.append_assoc, List.singleton_append, reads rest ends,
        if_pos (startsWithDigit_digits leftDigits all _), dropDigits_digits 0 leftDigits (n.fraction_noDigit ends),
        Nat.zero_add]

theorem unsigned_lead (n : NumberText) : ∃ b tail, n.unsigned = b :: tail ∧ isDigit b = true := by
  have digits := n.numeral.digits
  have numeral := n.numeral.lead
  unfold unsigned
  cases whole : n.whole with
  | nil => simp [whole] at numeral
  | cons c cs =>
    rw [whole] at digits
    obtain ⟨bytes, digit, _⟩ := digitByte digits.head
    refine ⟨UInt8.ofNat c.toNat, encode cs ++ (n.fractionBytes ++ n.exponentBytes), ?_, digit⟩
    rw [encode_cons, bytes]
    rfl

-- A number is told by its first byte.
theorem bytes_lead (n : NumberText) : ∃ b tail, n.bytes = b :: tail ∧ (b = 0x2D || isDigit b) = true := by
  unfold bytes
  cases n.negative with
  | true => exact ⟨0x2D, n.unsigned, rfl, rfl⟩
  | false =>
    obtain ⟨b, tail, unsigned, digit⟩ := n.unsigned_lead
    exact ⟨b, tail, unsigned, by rw [digit, Bool.or_true]⟩

theorem settles_number (n : NumberText) : Settles readNumber n.bytes := by
  have settles := settles_unsigned n.negative n
  unfold bytes
  cases sign : n.negative with
  | true =>
    rw [sign] at settles
    exact settles.congr fun _ _ => rfl
  | false =>
    obtain ⟨b, tail, unsigned, digit⟩ := n.unsigned_lead
    have first : ¬b = 0x2D := by
      rintro rfl
      cases digit
    rw [sign] at settles
    rw [unsigned] at settles ⊢
    exact settles.congr fun rest _ => if_neg first

-- A number has the value of its text, wherever it stands.
theorem readNumber_yields (n : NumberText) {rest : Bytes} (ends : Ends rest) :
    Yields (readNumber (n.bytes ++ rest)) n.value? (· = rest) := by
  obtain ⟨read?, yields⟩ := n.settles_number
  have own := yields [] fun b member => nomatch member
  have here := yields rest ends
  rw [List.append_nil] at own
  unfold value?
  cases read? with
  | none =>
    obtain ⟨stop, failed⟩ := own
    rw [failed]
    exact here
  | some value =>
    obtain ⟨_, found, _⟩ := own
    rw [found]
    exact here

theorem skipExponent_bytes (e : ExponentText) {rest : Bytes} (ends : Ends rest) :
    skipExponent (e.signBytes ++ (encode e.digits ++ rest)) = .ok rest := by
  obtain ⟨capital, sign, digits, decimal, nonempty⟩ := e
  cases digits with
  | nil => exact absurd rfl nonempty
  | cons c cs =>
    obtain ⟨bytes, digit, _⟩ := digitByte decimal.head
    have dropped := dropDigits_digits 0 decimal.tail ends.noDigit
    dsimp only [ExponentText.signBytes]
    rw [encode_cons, bytes, List.append_assoc, List.singleton_append]
    generalize UInt8.ofNat c.toNat = b at digit ⊢
    cases sign with
    | none =>
      have unsigned : ¬(b = 0x2B || b = 0x2D) := by
        intro signed
        simp only [Bool.or_eq_true, decide_eq_true_eq] at signed
        rcases signed with rfl | rfl <;> cases digit
      change skipExponent (b :: (encode cs ++ rest)) = _
      unfold skipExponent
      dsimp only
      rw [if_neg unsigned]
      dsimp only
      rw [if_pos digit, dropped]
    | some minus =>
      have signed : ((if minus then 0x2D else 0x2B : UInt8) = 0x2B || (if minus then 0x2D else 0x2B : UInt8) = 0x2D) := by
        cases minus <;> decide
      change skipExponent ((if minus then 0x2D else 0x2B) :: b :: (encode cs ++ rest)) = _
      unfold skipExponent
      dsimp only
      rw [if_pos signed]
      dsimp only
      rw [if_pos digit, dropped]

theorem skipFraction_bytes {fraction : List Char} (decimal : Digits fraction) (nonempty : fraction ≠ [])
    (e? : Option ExponentText) {rest : Bytes} (ends : Ends rest) :
    skipFraction (encode fraction ++ ((e?.map ExponentText.bytes).getD [] ++ rest)) = .ok rest := by
  unfold skipFraction
  rw [if_pos (startsWithDigit_digits decimal nonempty _), dropDigits_digits 0 decimal (exponent_noDigit e? ends)]
  cases e? with
  | none =>
    cases rest with
    | nil => rfl
    | cons b more =>
      obtain ⟨_, _, small, capital⟩ := ends b rfl
      exact if_neg (by simp [small, capital])
  | some e =>
    have skipped := skipExponent_bytes e ends
    cases marked : e.capital <;> simpa [ExponentText.bytes, marked] using skipped

theorem skipAfterDigits_bytes (n : NumberText) {rest : Bytes} (ends : Ends rest) :
    skipAfterDigits (n.fractionBytes ++ n.exponentBytes ++ rest) = .ok rest := by
  obtain ⟨_, _, _, fraction, decimal, exponent⟩ := n
  dsimp only [fractionBytes, exponentBytes]
  by_cases whole : fraction = []
  · subst whole
    cases exponent with
    | none =>
      cases rest with
      | nil => rfl
      | cons b more =>
        obtain ⟨_, point, small, capital⟩ := ends b rfl
        change skipAfterDigits (b :: more) = _
        unfold skipAfterDigits
        dsimp only
        rw [if_neg point, if_neg (by simp [small, capital])]
    | some e =>
      have skipped := skipExponent_bytes e ends
      cases marked : e.capital <;> simpa [ExponentText.bytes, marked, skipAfterDigits] using skipped
  · rw [if_neg (by simpa using whole), List.append_assoc]
    exact skipFraction_bytes decimal whole exponent ends

-- In or out of range, a number can be passed over.
theorem skipUnsigned_bytes (n : NumberText) {rest : Bytes} (ends : Ends rest) :
    skipUnsigned (n.unsigned ++ rest) = .ok rest := by
  have stop := n.fraction_noDigit ends
  have skipped := n.skipAfterDigits_bytes ends
  unfold unsigned
  rw [List.append_assoc]
  rcases n.numeral.lead with zero | ⟨c, more, whole, nonzero⟩
  · rw [zero]
    change skipUnsigned (0x30 :: (n.fractionBytes ++ n.exponentBytes ++ rest)) = _
    rw [skipUnsigned, if_pos rfl, if_neg stop, skipped]
  · have digits : Digits (c :: more) := whole ▸ n.numeral.digits
    obtain ⟨bytes, digit, _⟩ := digitByte digits.head
    rw [whole, encode_cons, bytes, List.append_assoc, List.singleton_append, skipUnsigned,
      if_neg (digit_notZero digits.head nonzero), if_pos digit, dropDigits_digits 0 digits.tail stop, skipped]

theorem skipScalar_bytes (n : NumberText) {b : UInt8} {tail rest : Bytes} (text : n.bytes = b :: tail)
    (ends : Ends rest) : skipScalar b (tail ++ rest) = .ok rest := by
  have skipped := n.skipUnsigned_bytes ends
  unfold bytes at text
  cases sign : n.negative with
  | true =>
    rw [sign] at text
    obtain ⟨rfl, rfl⟩ := List.cons.inj text
    exact skipped
  | false =>
    obtain ⟨c, digits, unsigned, digit⟩ := n.unsigned_lead
    rw [sign] at text
    obtain ⟨rfl, rfl⟩ := List.cons.inj (unsigned.symm.trans text)
    rw [unsigned] at skipped
    unfold skipScalar
    have other (word : UInt8) (letter : isDigit word = false) : ¬c = word := by
      rintro rfl
      rw [letter] at digit
      cases digit
    rw [if_neg (other 0x6E (by decide)), if_neg (other 0x74 (by decide)), if_neg (other 0x66 (by decide)),
      if_neg (other 0x2D (by decide)), if_pos digit]
    exact skipped

end NumberText

end DiskGauge.Json
