import DiskGauge.Json.Skip
import DiskGauge.Proofs.Json.Strings

namespace DiskGauge.Json
open Utf8

-- What becomes of reading: the value with bytes behind it, or a stop where there is no value.
def Yields {α : Type} (outcome : Except Stop (α × Bytes)) (value? : Option α) (behind : Bytes → Prop) : Prop :=
  match value? with
  | some value => ∃ rest, outcome = .ok (value, rest) ∧ behind rest
  | none => ∃ stop, outcome = .error stop

namespace Yields

variable {α β : Type} {outcome : Except Stop (α × Bytes)} {value? : Option α} {behind later : Bytes → Prop}

theorem stop (stop : Stop) : Yields (.error stop : Except Stop (α × Bytes)) none behind := ⟨stop, rfl⟩

theorem value (value : α) {rest : Bytes} (holds : behind rest) : Yields (.ok (value, rest)) (some value) behind :=
  ⟨rest, rfl, holds⟩

theorem bind (yields : Yields outcome value? behind) {next : α × Bytes → Except Stop (β × Bytes)}
    {next? : α → Option β} (follows : ∀ value rest, behind rest → Yields (next (value, rest)) (next? value) later) :
    Yields (outcome >>= next) (value?.bind next?) later := by
  cases value? with
  | none =>
    obtain ⟨stop, rfl⟩ := yields
    exact .stop stop
  | some value =>
    obtain ⟨rest, rfl, holds⟩ := yields
    exact follows value rest holds

theorem map (yields : Yields outcome value? behind) (f : α → β) :
    Yields (outcome >>= fun (value, rest) => return (f value, rest)) (value?.map f) behind := by
  rw [Option.map_eq_bind]
  exact yields.bind fun value rest holds => .value (f value) holds

end Yields

-- The letters of the short escapes.
inductive Letter where
  | quote
  | backslash
  | slash
  | backspace
  | formFeed
  | lineFeed
  | carriageReturn
  | tab
deriving DecidableEq

def Letter.byte : Letter → UInt8
  | .quote => 0x22
  | .backslash => 0x5C
  | .slash => 0x2F
  | .backspace => 0x62
  | .formFeed => 0x66
  | .lineFeed => 0x6E
  | .carriageReturn => 0x72
  | .tab => 0x74

def Letter.char : Letter → Char
  | .quote => '"'
  | .backslash => '\\'
  | .slash => '/'
  | .backspace => Char.ofNat 0x08
  | .formFeed => Char.ofNat 0x0C
  | .lineFeed => '\n'
  | .carriageReturn => '\r'
  | .tab => '\t'

theorem Letter.simple (l : Letter) :
    ∃ b, simpleEscape? l.byte = some b ∧ String.utf8EncodeChar l.char = [b] := by
  cases l with
  | quote => exact ⟨0x22, by decide⟩
  | backslash => exact ⟨0x5C, by decide⟩
  | slash => exact ⟨0x2F, by decide⟩
  | backspace => exact ⟨0x08, by decide⟩
  | formFeed => exact ⟨0x0C, by decide⟩
  | lineFeed => exact ⟨0x0A, by decide⟩
  | carriageReturn => exact ⟨0x0D, by decide⟩
  | tab => exact ⟨0x09, by decide⟩

-- A hexadecimal digit; those above nine may be capital.
structure HexDigit where
  value : Fin 16
  capital : Bool
deriving DecidableEq

def HexDigit.byte (d : HexDigit) : UInt8 :=
  if d.value < 10 then UInt8.ofNat (0x30 + d.value)
  else if d.capital then UInt8.ofNat (0x37 + d.value)
  else UInt8.ofNat (0x57 + d.value)

theorem HexDigit.hexValue?_byte (d : HexDigit) : hexValue? d.byte = some d.value.val := by
  obtain ⟨value, capital⟩ := d
  revert value capital
  decide

-- A unit of UTF-16, in four digits.
structure CodeUnit where
  first : HexDigit
  second : HexDigit
  third : HexDigit
  fourth : HexDigit
deriving DecidableEq

namespace CodeUnit

def ofNat (n : Nat) : CodeUnit :=
  ⟨⟨Fin.ofNat 16 (n / 0x1000), false⟩, ⟨Fin.ofNat 16 (n / 0x100), false⟩, ⟨Fin.ofNat 16 (n / 0x10), false⟩,
    ⟨Fin.ofNat 16 n, false⟩⟩

def bytes (u : CodeUnit) : Bytes := [u.first.byte, u.second.byte, u.third.byte, u.fourth.byte]

def code (u : CodeUnit) : Nat :=
  ((u.first.value.val * 16 + u.second.value.val) * 16 + u.third.value.val) * 16 + u.fourth.value.val

def isHigh (u : CodeUnit) : Bool := 0xD800 ≤ u.code && u.code ≤ 0xDBFF
def isLow (u : CodeUnit) : Bool := 0xDC00 ≤ u.code && u.code ≤ 0xDFFF

-- The character that a pair stands for.
def pair (high low : CodeUnit) : Char :=
  Char.ofNat ((high.code - 0xD800) * 0x400 + (low.code - 0xDC00) + 0x10000)

theorem code_ofNat {n : Nat} (fits : n < 0x10000) : (ofNat n).code = n := by
  simp only [code, ofNat, Fin.ofNat]
  omega

theorem readHex4_bytes (u : CodeUnit) (more : Bytes) : readHex4 (u.bytes ++ more) = .ok u.code := by
  change readHex4 (u.first.byte :: u.second.byte :: u.third.byte :: u.fourth.byte :: more) = _
  simp only [readHex4, HexDigit.hexValue?_byte, code]

end CodeUnit

inductive Piece where
  | plain (c : Char) (unquoted : ¬(c = '"' || c = '\\')) (visible : 0x20 ≤ c.toNat)
  | letter (letter : Letter)
  | unit (unit : CodeUnit)
deriving DecidableEq

def Piece.bytes : Piece → Bytes
  | .plain c _ _ => String.utf8EncodeChar c
  | .letter l => [0x5C, l.byte]
  | .unit u => 0x5C :: 0x75 :: u.bytes

-- Characters that cannot stand for themselves are given as units.
def Piece.ofChar (c : Char) : Piece :=
  if h : ¬(c = '"' || c = '\\') ∧ 0x20 ≤ c.toNat then .plain c h.1 h.2 else .unit (.ofNat c.toNat)

abbrev Spelling := List Piece

namespace Spelling

variable {pieces : Spelling} {more : Bytes}

-- What is between the quotes, and the closing quote.
def tail (s : Spelling) : Bytes := s.flatMap Piece.bytes ++ [0x22]

def token (s : Spelling) : Bytes := 0x22 :: s.tail

-- The characters that are spelled, unless a half of a surrogate pair stands alone.
def chars? : Spelling → Option (List Char)
  | [] => some []
  | .plain c _ _ :: pieces => (chars? pieces).map (c :: ·)
  | .letter l :: pieces => (chars? pieces).map (l.char :: ·)
  | .unit u :: pieces =>
    if u.isLow then none
    else if u.isHigh then
      match pieces with
      | .unit v :: pieces => if v.isLow then (chars? pieces).map (u.pair v :: ·) else none
      | _ => none
    else (chars? pieces).map (Char.ofNat u.code :: ·)

def text? (s : Spelling) : Option String := s.chars?.map String.ofList

theorem tail_cons (p : Piece) (pieces : Spelling) (more : Bytes) :
    tail (p :: pieces) ++ more = p.bytes ++ (tail pieces ++ more) := by simp [tail]

theorem tail_nil (more : Bytes) : tail [] ++ more = 0x22 :: more := rfl

theorem readStringOnto_letter (read : Bytes) (l : Letter) (more : Bytes) :
    readStringOnto read 0 ((Piece.letter l).bytes ++ more) =
      readStringOnto ((String.utf8EncodeChar l.char).reverse ++ read) 0 more := by
  obtain ⟨b, simple, encoded⟩ := l.simple
  have escape : readEscape ([l.byte] ++ more) = .ok ([b], 1) := by
    rw [List.singleton_append, readEscape, simple]
  rw [encoded]
  exact readStringOnto_escape read [l.byte] more [b] escape

theorem readEscape_unit (u : CodeUnit) (more : Bytes) :
    readEscape (0x75 :: (u.bytes ++ more)) =
      if u.isLow then stopAt .loneSurrogate more
      else if u.isHigh then (do
        let c ← readLowSurrogate u.code more
        return (encode [c], 11))
      else .ok (encode [Char.ofNat u.code], 5) := by
  have high : (u.code < 0xD800 || 0xDBFF < u.code) = !u.isHigh := by
    unfold CodeUnit.isHigh
    rw [Bool.eq_iff_iff]
    simp
  have behind : (u.bytes ++ more).drop 4 = more := rfl
  rw [readEscape, show simpleEscape? 0x75 = none by decide]
  dsimp only
  rw [if_neg (by decide), u.readHex4_bytes]
  change (if u.isLow then _ else if (u.code < 0xD800 || 0xDBFF < u.code) then _ else _) = _
  rw [behind, high]
  cases u.isLow <;> cases u.isHigh <;> rfl

theorem readLowSurrogate_unit (high : CodeUnit) (low : CodeUnit) (more : Bytes) :
    readLowSurrogate high.code ((Piece.unit low).bytes ++ more) =
      if low.isLow then .ok (high.pair low) else stopAt .loneSurrogate more := by
  have single : (low.code < 0xDC00 || 0xDFFF < low.code) = !low.isLow := by
    unfold CodeUnit.isLow
    rw [Bool.eq_iff_iff]
    simp
  change readLowSurrogate high.code (0x5C :: 0x75 :: (low.bytes ++ more)) = _
  have behind : (low.bytes ++ more).drop 4 = more := rfl
  simp only [readLowSurrogate, ne_eq, not_true_eq_false, if_false]
  rw [low.readHex4_bytes]
  change (if (low.code < 0xDC00 || 0xDFFF < low.code) then _ else _) = _
  rw [behind, single]
  cases low.isLow <;> rfl

-- Only another unit can be the second half of a pair.
theorem readLowSurrogate_other (high : Nat) (other : ∀ u rest, pieces ≠ .unit u :: rest) (more : Bytes) :
    ∃ stop, readLowSurrogate high (tail pieces ++ more) = .error stop := by
  cases pieces with
  | nil => exact ⟨_, rfl⟩
  | cons p rest =>
    rw [tail_cons]
    cases p with
    | unit u => exact absurd rfl (other u rest)
    | letter l =>
      have notUnit : ¬l.byte = 0x75 := by cases l <;> decide
      exact ⟨_, if_pos notUnit⟩
    | plain c unquoted visible =>
      have plain := plain_encode unquoted visible
      have nonempty := encode_pos c
      change ∃ stop, readLowSurrogate high (String.utf8EncodeChar c ++ _) = .error stop
      generalize String.utf8EncodeChar c = bytes at plain nonempty ⊢
      cases bytes with
      | nil => cases nonempty
      | cons b bytes => exact ⟨_, if_pos (plain b (List.mem_cons_self ..)).2.1⟩

theorem readStringOnto_single (read : Bytes) (u : CodeUnit) (low : u.isLow = false) (high : u.isHigh = false)
    (more : Bytes) :
    readStringOnto read 0 ((Piece.unit u).bytes ++ more) =
      readStringOnto ((String.utf8EncodeChar (Char.ofNat u.code)).reverse ++ read) 0 more := by
  have escape : readEscape ((0x75 :: u.bytes) ++ more) = .ok (String.utf8EncodeChar (Char.ofNat u.code), 5) := by
    rw [List.cons_append, readEscape_unit, low, high, ← encode_singleton]
    rfl
  exact readStringOnto_escape read (0x75 :: u.bytes) more _ escape

theorem readStringOnto_pair (read : Bytes) (u v : CodeUnit) (single : u.isLow = false) (high : u.isHigh = true)
    (low : v.isLow = true) (more : Bytes) :
    readStringOnto read 0 ((Piece.unit u).bytes ++ ((Piece.unit v).bytes ++ more)) =
      readStringOnto ((String.utf8EncodeChar (u.pair v)).reverse ++ read) 0 more := by
  have escape : readEscape ((0x75 :: (u.bytes ++ (Piece.unit v).bytes)) ++ more) =
      .ok (String.utf8EncodeChar (u.pair v), 11) := by
    rw [List.cons_append, List.append_assoc, readEscape_unit, single, high, readLowSurrogate_unit, low,
      ← encode_singleton]
    rfl
  exact readStringOnto_escape read (0x75 :: (u.bytes ++ (Piece.unit v).bytes)) more _ escape

theorem readStringOnto_stop (read : Bytes) (u : CodeUnit) {bytes : Bytes}
    (stops : ∃ stop, readEscape (0x75 :: (u.bytes ++ bytes)) = .error stop) :
    ∃ stop, readStringOnto read 0 ((Piece.unit u).bytes ++ bytes) = .error stop := by
  obtain ⟨stop, escape⟩ := stops
  refine ⟨stop, ?_⟩
  change readStringOnto read 0 (0x5C :: (0x75 :: (u.bytes ++ bytes))) = _
  rw [readStringOnto, if_neg (by decide), if_pos rfl, escape]

-- A character is taken up, and the rest of the string follows.
theorem yields_char {before : List Char} {c : Char} {bytes rest : Bytes} {cs? : Option (List Char)}
    (taken : readStringOnto (encode before).reverse 0 bytes =
      readStringOnto ((String.utf8EncodeChar c).reverse ++ (encode before).reverse) 0 rest)
    (later : Yields (readStringOnto (encode (before ++ [c])).reverse 0 rest)
      (cs?.map fun cs => String.ofList ((before ++ [c]) ++ cs)) (· = more)) :
    Yields (readStringOnto (encode before).reverse 0 bytes)
      ((cs?.map (c :: ·)).map fun cs => String.ofList (before ++ cs)) (· = more) := by
  rw [encode_append, encode_singleton, List.reverse_append] at later
  rw [taken, Option.map_map]
  simpa only [Function.comp_def, List.append_assoc, List.singleton_append] using later

theorem readStringOnto_yields (pieces : Spelling) (before : List Char) (more : Bytes) :
    Yields (readStringOnto (encode before).reverse 0 (tail pieces ++ more))
      (pieces.chars?.map fun cs => String.ofList (before ++ cs)) (· = more) := by
  fun_induction chars? pieces generalizing before with
  | case1 =>
    rw [tail_nil, readStringOnto, if_pos rfl, List.reverse_reverse, string?_encode]
    simp only [Option.map_some, List.append_nil]
    exact .value _ rfl
  | case2 c unquoted visible pieces ih =>
    rw [tail_cons]
    exact yields_char (readStringOnto_plain _ (plain_encode unquoted visible) _) (ih _)
  | case3 l pieces ih =>
    rw [tail_cons]
    exact yields_char (readStringOnto_letter _ l _) (ih _)
  | case4 u pieces low =>
    rw [tail_cons]
    refine readStringOnto_stop _ u ?_
    rw [readEscape_unit, if_pos low]
    exact ⟨_, rfl⟩
  | case5 u single high v pieces low ih =>
    rw [tail_cons, tail_cons]
    exact yields_char (readStringOnto_pair _ u v (Bool.eq_false_iff.mpr single) high low _) (ih _)
  | case6 u single high v pieces other =>
    rw [tail_cons, tail_cons]
    refine readStringOnto_stop _ u ?_
    rw [readEscape_unit, if_neg single, if_pos high, readLowSurrogate_unit, if_neg other]
    exact ⟨_, rfl⟩
  | case7 u pieces single high other =>
    obtain ⟨stop, alone⟩ := readLowSurrogate_other u.code (fun v rest same => other v rest same) more
    rw [tail_cons]
    refine readStringOnto_stop _ u ⟨stop, ?_⟩
    rw [readEscape_unit, if_neg single, if_pos high, alone]
    rfl
  | case8 u pieces single whole ih =>
    rw [tail_cons]
    exact yields_char (readStringOnto_single _ u (Bool.eq_false_iff.mpr single) (Bool.eq_false_iff.mpr whole) _) (ih _)

theorem readString_yields (s : Spelling) (more : Bytes) :
    Yields (readString (s.tail ++ more)) s.text? (· = more) := readStringOnto_yields s [] more

theorem skipStringOn_skip (spelled more : Bytes) :
    skipStringOn spelled.length (spelled ++ more) = skipStringOn 0 more := by
  induction spelled with
  | nil => rfl
  | cons b spelled ih => exact ih

theorem skipStringOn_plain {bytes : Bytes} (plain : ∀ b ∈ bytes, Plain b) (more : Bytes) :
    skipStringOn 0 (bytes ++ more) = skipStringOn 0 more := by
  induction bytes with
  | nil => rfl
  | cons b bytes ih =>
    obtain ⟨quote, backslash, control⟩ := plain b (List.mem_cons_self ..)
    rw [List.cons_append, skipStringOn.eq_def]
    dsimp only
    rw [if_neg quote, if_neg backslash, if_neg control, ih fun c member => plain c (List.mem_cons_of_mem _ member)]

theorem skipStringOn_piece (p : Piece) (more : Bytes) :
    skipStringOn 0 (p.bytes ++ more) = skipStringOn 0 more := by
  cases p with
  | plain c unquoted visible => exact skipStringOn_plain (plain_encode unquoted visible) more
  | letter l =>
    obtain ⟨b, simple, _⟩ := l.simple
    change skipStringOn 0 (0x5C :: l.byte :: more) = _
    rw [skipStringOn, if_neg (by decide), if_pos rfl, simple]
    rfl
  | unit u =>
    change skipStringOn 0 (0x5C :: 0x75 :: (u.bytes ++ more)) = _
    rw [skipStringOn, if_neg (by decide), if_pos rfl, if_neg (by decide), if_pos rfl, u.readHex4_bytes]
    exact skipStringOn_skip (0x75 :: u.bytes) more

theorem skipString_tail (s : Spelling) (more : Bytes) : skipString (s.tail ++ more) = .ok more := by
  unfold skipString
  induction s with
  | nil => rfl
  | cons p pieces ih => rw [tail_cons, skipStringOn_piece, ih]

def ofString (s : String) : Spelling := s.toList.map Piece.ofChar

theorem chars?_ofChar (c : Char) (pieces : Spelling) :
    chars? (Piece.ofChar c :: pieces) = (chars? pieces).map (c :: ·) := by
  unfold Piece.ofChar
  split
  · rfl
  · next hidden =>
    have low : c.toNat < 0x80 := by
      by_cases visible : 0x20 ≤ c.toNat
      · have quoted : (c = '"' || c = '\\') = true := Decidable.not_not.mp fun unquoted => hidden ⟨unquoted, visible⟩
        simp only [Bool.or_eq_true, decide_eq_true_eq] at quoted
        rcases quoted with rfl | rfl <;> decide
      · omega
    have code := CodeUnit.code_ofNat (n := c.toNat) (by omega)
    have single : (CodeUnit.ofNat c.toNat).isLow = false := by
      unfold CodeUnit.isLow
      rw [code]
      simp
      omega
    have whole : (CodeUnit.ofNat c.toNat).isHigh = false := by
      unfold CodeUnit.isHigh
      rw [code]
      simp
      omega
    rw [chars?.eq_def]
    dsimp only
    rw [single, whole, if_neg Bool.false_ne_true, if_neg Bool.false_ne_true, code, Char.ofNat_toNat]

theorem text?_ofString (s : String) : (ofString s).text? = some s := by
  have chars (cs : List Char) : chars? (cs.map Piece.ofChar) = some cs := by
    induction cs with
    | nil => rfl
    | cons c cs ih => rw [List.map_cons, chars?_ofChar, ih, Option.map_some]
  unfold text? ofString
  rw [chars, Option.map_some, String.ofList_toList]

end Spelling

end DiskGauge.Json
