import DiskGauge.Json.Value
import DiskGauge.Proofs.Text.Utf8

namespace DiskGauge.Json
open Utf8

-- A byte that stands for itself within a string.
def Plain (b : UInt8) : Prop := b ≠ 0x22 ∧ b ≠ 0x5C ∧ ¬b < 0x20

theorem readStringOnto_plain (read : Bytes) {bytes : Bytes} (plain : ∀ b ∈ bytes, Plain b) (more : Bytes) :
    readStringOnto read 0 (bytes ++ more) = readStringOnto (bytes.reverse ++ read) 0 more := by
  induction bytes generalizing read with
  | nil => rfl
  | cons b bytes ih =>
    obtain ⟨quote, backslash, control⟩ := plain b (List.mem_cons_self ..)
    rw [List.cons_append, readStringOnto, if_neg quote, if_neg backslash, if_neg control,
      ih _ fun c member => plain c (List.mem_cons_of_mem _ member)]
    simp

theorem readStringOnto_skip (read spelled more : Bytes) :
    readStringOnto read spelled.length (spelled ++ more) = readStringOnto read 0 more := by
  induction spelled with
  | nil => rfl
  | cons b spelled ih => exact ih

theorem readStringOnto_escape (read spelled more bytes : Bytes)
    (escape : readEscape (spelled ++ more) = .ok (bytes, spelled.length)) :
    readStringOnto read 0 (0x5C :: (spelled ++ more)) = readStringOnto (bytes.reverse ++ read) 0 more := by
  rw [readStringOnto, if_neg (by decide), if_pos rfl, escape]
  exact readStringOnto_skip ..

theorem plain_encode {c : Char} (quote : ¬(c = '"' || c = '\\')) (visible : 0x20 ≤ c.toNat) :
    ∀ b ∈ String.utf8EncodeChar c, Plain b := by
  intro b member
  by_cases ascii : c.toNat < 0x80
  · have byte : c.toNat < 256 := by omega
    rw [encode_ascii ascii, List.mem_singleton] at member
    rw [Bool.or_eq_true, decide_eq_true_eq, decide_eq_true_eq, ← Char.toNat_inj, ← Char.toNat_inj] at quote
    subst member
    unfold Plain
    rw [Ne, Ne, ofNat_eq byte, ofNat_eq byte, ofNat_lt byte]
    exact ⟨fun equal => quote (.inl equal), fun equal => quote (.inr equal), Nat.not_lt.mpr visible⟩
  · have high := UInt8.le_iff_toNat_le.mp (encode_wide (Nat.le_of_not_lt ascii) b member)
    refine ⟨?_, ?_, ?_⟩
    · rintro rfl
      exact absurd high (by decide)
    · rintro rfl
      exact absurd high (by decide)
    · intro control
      have low := UInt8.lt_iff_toNat_lt.mp control
      simp only [UInt8.reduceToNat] at high low
      omega

theorem hexDigit_value : ∀ n < 16, (hexDigit n).toNat < 0x80 ∧
    hexValue? (UInt8.ofNat (hexDigit n).toNat) = some n := by decide

theorem readStringOnto_letter (read more : Bytes) {letter c : Char} (spelled : letter.toNat < 0x80)
    (ascii : c.toNat < 0x80)
    (simple : simpleEscape? (UInt8.ofNat letter.toNat) = some (UInt8.ofNat c.toNat)) :
    readStringOnto read 0 (encode ['\\', letter] ++ more) =
      readStringOnto ((String.utf8EncodeChar c).reverse ++ read) 0 more := by
  have bytes : encode ['\\', letter] = [0x5C, UInt8.ofNat letter.toNat] := by
    simp only [encode, List.flatMap_cons, List.flatMap_nil, encode_ascii spelled]
    rfl
  have escape : readEscape ([UInt8.ofNat letter.toNat] ++ more) = .ok (String.utf8EncodeChar c, 1) := by
    rw [List.singleton_append, readEscape, simple, encode_ascii ascii]
  rw [bytes]
  exact readStringOnto_escape read [UInt8.ofNat letter.toNat] more _ escape

theorem readStringOnto_control (read more : Bytes) {c : Char} (control : c.toNat < 0x20) :
    readStringOnto read 0
        (encode ['\\', 'u', '0', '0', hexDigit (c.toNat / 16), hexDigit (c.toNat % 16)] ++ more) =
      readStringOnto ((String.utf8EncodeChar c).reverse ++ read) 0 more := by
  obtain ⟨highAscii, high⟩ := hexDigit_value (c.toNat / 16) (by omega)
  obtain ⟨lowAscii, low⟩ := hexDigit_value (c.toNat % 16) (by omega)
  generalize hexDigit (c.toNat / 16) = first at highAscii high ⊢
  generalize hexDigit (c.toNat % 16) = second at lowAscii low ⊢
  have bytes : encode ['\\', 'u', '0', '0', first, second] =
      0x5C :: [0x75, 0x30, 0x30, UInt8.ofNat first.toNat, UInt8.ofNat second.toNat] := by
    simp only [encode, List.flatMap_cons, List.flatMap_nil, encode_ascii highAscii, encode_ascii lowAscii]
    rfl
  have zero : hexValue? 0x30 = some 0 := by decide
  have code : ((0 * 16 + 0) * 16 + c.toNat / 16) * 16 + c.toNat % 16 = c.toNat := by omega
  have four : readHex4 (0x30 :: 0x30 :: UInt8.ofNat first.toNat :: UInt8.ofNat second.toNat :: more) =
      .ok c.toNat := by
    simp only [readHex4, zero, high, low, code]
  have notSimple : simpleEscape? 0x75 = none := by decide
  have lone : ¬(0xDC00 ≤ c.toNat && c.toNat ≤ 0xDFFF) := by simp; omega
  have single : (c.toNat < 0xD800 || 0xDBFF < c.toNat) := by simp; omega
  have escape : readEscape ([0x75, 0x30, 0x30, UInt8.ofNat first.toNat, UInt8.ofNat second.toNat] ++ more) =
      .ok (String.utf8EncodeChar c, 5) := by
    simp only [List.cons_append, List.nil_append, readEscape, notSimple]
    rw [if_neg (by decide), four]
    change (if 0xDC00 ≤ c.toNat && c.toNat ≤ 0xDFFF then _ else _) = _
    rw [if_neg lone, if_pos single, Char.ofNat_toNat, encode_singleton]
    rfl
  rw [bytes]
  exact readStringOnto_escape read _ more _ escape

theorem readStringOnto_escaped (read : Bytes) (c : Char) (more : Bytes) :
    readStringOnto read 0 (encode (escapedChar c) ++ more) =
      readStringOnto ((String.utf8EncodeChar c).reverse ++ read) 0 more := by
  unfold escapedChar
  split
  · next quoted =>
    rcases (Bool.or_eq_true ..).mp quoted with quote | backslash
    · obtain rfl := of_decide_eq_true quote
      exact readStringOnto_letter read more (by decide) (by decide) (by decide)
    · obtain rfl := of_decide_eq_true backslash
      exact readStringOnto_letter read more (by decide) (by decide) (by decide)
  · next quote =>
    split
    · next visible =>
      rw [encode_singleton]
      exact readStringOnto_plain read (plain_encode quote visible) more
    · next hidden =>
      split
      · next lineFeed =>
        subst lineFeed
        exact readStringOnto_letter read more (by decide) (by decide) (by decide)
      · split
        · next carriageReturn =>
          subst carriageReturn
          exact readStringOnto_letter read more (by decide) (by decide) (by decide)
        · split
          · next tab =>
            subst tab
            exact readStringOnto_letter read more (by decide) (by decide) (by decide)
          · split
            · next backspace =>
              exact readStringOnto_letter read more (by decide) (by omega) (by rw [backspace]; decide)
            · split
              · next formFeed =>
                exact readStringOnto_letter read more (by decide) (by omega) (by rw [formFeed]; decide)
              · exact readStringOnto_control read more (Nat.lt_of_not_le hidden)

theorem readStringOnto_spelled (read : Bytes) (cs : List Char) (more : Bytes) :
    readStringOnto read 0 (encode (cs.flatMap escapedChar) ++ more) =
      readStringOnto ((encode cs).reverse ++ read) 0 more := by
  induction cs generalizing read with
  | nil => rfl
  | cons c cs ih =>
    rw [List.flatMap_cons, encode_append, List.append_assoc, readStringOnto_escaped, ih, encode_cons]
    simp

theorem readString_written (s : String) (rest : Bytes) :
    readString (encode (s.toList.flatMap escapedChar ++ ['"']) ++ rest) = .ok (s, rest) := by
  unfold readString
  rw [encode_append, List.append_assoc, readStringOnto_spelled]
  change readStringOnto _ 0 (0x22 :: rest) = _
  rw [readStringOnto, if_pos rfl, List.append_nil, List.reverse_reverse, string?_encode]
  simp

end DiskGauge.Json
