import DiskGauge.Text.Basic

namespace DiskGauge.Utf8

theorem encode_cons (c : Char) (cs : List Char) : encode (c :: cs) = String.utf8EncodeChar c ++ encode cs :=
  List.flatMap_cons

@[simp] theorem encode_singleton (c : Char) : encode [c] = String.utf8EncodeChar c := by
  simp [encode]

theorem encode_append (front back : List Char) : encode (front ++ back) = encode front ++ encode back :=
  List.flatMap_append

theorem ofNat_lt {n : Nat} (byte : n < 256) (b : UInt8) : UInt8.ofNat n < b ↔ n < b.toNat := by
  rw [UInt8.lt_iff_toNat_lt, UInt8.toNat_ofNat_of_lt' byte]

theorem le_ofNat {n : Nat} (byte : n < 256) (b : UInt8) : b ≤ UInt8.ofNat n ↔ b.toNat ≤ n := by
  rw [UInt8.le_iff_toNat_le, UInt8.toNat_ofNat_of_lt' byte]

theorem ofNat_eq {n : Nat} (byte : n < 256) (b : UInt8) : UInt8.ofNat n = b ↔ n = b.toNat := by
  rw [← UInt8.toNat_inj, UInt8.toNat_ofNat_of_lt' byte]

theorem tail?_ofNat {x : Nat} (payload : x < 64) : tail? (UInt8.ofNat (x + 0x80)) = some x := by
  have byte : x + 0x80 < 256 := by omega
  have low : (0x80 : UInt8).toNat = 0x80 := rfl
  have high : (0xC0 : UInt8).toNat = 0xC0 := rfl
  unfold tail?
  rw [if_pos, UInt8.toNat_ofNat_of_lt' byte, Nat.add_sub_cancel]
  rw [Bool.and_eq_true, decide_eq_true_eq, decide_eq_true_eq, le_ofNat byte, ofNat_lt byte, low, high]
  omega

theorem next?_encode (c : Char) (rest : Bytes) :
    next? (String.utf8EncodeChar c ++ rest) = some (c, rest) := by
  have valid : c.val.toNat < 0xD800 ∨ 0xDFFF < c.val.toNat ∧ c.val.toNat < 0x110000 := c.valid
  have self : Char.ofNat c.val.toNat = c := Char.ofNat_toNat c
  unfold String.utf8EncodeChar
  dsimp only
  generalize c.val.toNat = v at valid self ⊢
  split
  · have lead : v < 256 := by omega
    simp only [List.cons_append, List.nil_append, next?, ofNat_lt lead, UInt8.toNat_ofNat_of_lt' lead, UInt8.reduceToNat]
    rw [if_pos (by omega), self]
  · split
    · have lead : v / 64 % 0x20 + 0xC0 < 256 := by omega
      have last : v % 0x40 < 64 := by omega
      simp only [List.cons_append, List.nil_append, next?, ofNat_lt lead, le_ofNat lead, UInt8.toNat_ofNat_of_lt' lead,
        tail?_ofNat last, UInt8.reduceToNat, Bool.and_eq_true, decide_eq_true_eq]
      rw [if_neg (by omega), if_pos (by omega)]
      have sum : (v / 64 % 0x20 + 0xC0 - 0xC0) * 64 + v % 0x40 = v := by omega
      simp only [Option.bind_eq_bind, Option.bind_some, sum, self]
      rfl
    · split
      · have lead : v / 4096 % 0x10 + 0xE0 < 256 := by omega
        have second : v / 64 % 0x40 < 64 := by omega
        have byte : v / 64 % 0x40 + 0x80 < 256 := by omega
        have last : v % 0x40 < 64 := by omega
        simp only [List.cons_append, List.nil_append, next?, ofNat_lt lead, le_ofNat lead, UInt8.toNat_ofNat_of_lt' lead,
          tail?_ofNat second, tail?_ofNat last, UInt8.reduceToNat, Bool.and_eq_true, decide_eq_true_eq]
        rw [if_neg (by omega), if_neg (by omega), if_pos (by omega)]
        have allowed : secondAllowed (UInt8.ofNat (v / 4096 % 0x10 + 0xE0)) (UInt8.ofNat (v / 64 % 0x40 + 0x80)) := by
          simp only [secondAllowed, ofNat_eq lead, ofNat_lt byte, le_ofNat byte, UInt8.reduceToNat]
          grind
        have sum : ((v / 4096 % 0x10 + 0xE0 - 0xE0) * 64 + v / 64 % 0x40) * 64 + v % 0x40 = v := by omega
        rw [allowed]
        simp only [Option.bind_eq_bind, Option.bind_some, sum, self]
        rfl
      · have lead : v / 262144 % 0x08 + 0xF0 < 256 := by omega
        have second : v / 4096 % 0x40 < 64 := by omega
        have byte : v / 4096 % 0x40 + 0x80 < 256 := by omega
        have third : v / 64 % 0x40 < 64 := by omega
        have last : v % 0x40 < 64 := by omega
        simp only [List.cons_append, List.nil_append, next?, ofNat_lt lead, le_ofNat lead, UInt8.toNat_ofNat_of_lt' lead,
          tail?_ofNat second, tail?_ofNat third, tail?_ofNat last, UInt8.reduceToNat, Bool.and_eq_true,
          decide_eq_true_eq]
        rw [if_neg (by omega), if_neg (by omega), if_neg (by omega), if_pos (by omega)]
        have allowed :
            secondAllowed (UInt8.ofNat (v / 262144 % 0x08 + 0xF0)) (UInt8.ofNat (v / 4096 % 0x40 + 0x80)) := by
          simp only [secondAllowed, ofNat_eq lead, ofNat_lt byte, le_ofNat byte, UInt8.reduceToNat]
          grind
        have sum : (((v / 262144 % 0x08 + 0xF0 - 0xF0) * 64 + v / 4096 % 0x40) * 64 + v / 64 % 0x40) * 64 +
            v % 0x40 = v := by omega
        rw [allowed]
        simp only [Option.bind_eq_bind, Option.bind_some, sum, self]
        rfl

theorem encode_pos (c : Char) : 0 < (String.utf8EncodeChar c).length := by
  rw [String.length_utf8EncodeChar]
  exact Char.utf8Size_pos c

theorem length_le_encode (cs : List Char) : cs.length ≤ (encode cs).length := by
  induction cs with
  | nil => exact Nat.le_refl _
  | cons c cs ih =>
    rw [encode_cons, List.length_append, List.length_cons, Nat.add_comm]
    exact Nat.add_le_add (encode_pos c) ih

theorem decodeOnto_encode (read cs : List Char) {steps : Nat} (enough : cs.length ≤ steps) :
    decodeOnto read steps (encode cs) = some (read.reverse ++ cs) := by
  induction cs generalizing read steps with
  | nil => simp [encode, decodeOnto]
  | cons c cs ih =>
    obtain ⟨less, rfl⟩ : ∃ less, steps = less + 1 := Nat.exists_eq_add_one.mpr (by simp at enough; omega)
    obtain ⟨b, more, bytes⟩ := List.exists_cons_of_length_pos (encode_pos c)
    have next := next?_encode c (encode cs)
    rw [encode_cons]
    rw [bytes] at next ⊢
    simp only [List.cons_append] at next ⊢
    unfold decodeOnto
    rw [next]
    dsimp only
    rw [ih (c :: read) (by simpa using enough)]
    simp

@[simp] theorem decode?_encode (cs : List Char) : decode? (encode cs) = some cs :=
  decodeOnto_encode [] cs (length_le_encode cs)

@[simp] theorem string?_encode (cs : List Char) : string? (encode cs) = some (String.ofList cs) := by
  simp [string?]

theorem ofString_ofList (cs : List Char) : ofString (String.ofList cs) = encode cs := by
  simp [ofString]

-- The characters of ASCII are their own bytes, and the bytes of all others lie above them.
theorem encode_ascii {c : Char} (ascii : c.toNat < 0x80) :
    String.utf8EncodeChar c = [UInt8.ofNat c.toNat] := by
  have small : c.val.toNat ≤ 0x7F := Nat.le_of_lt_succ ascii
  unfold String.utf8EncodeChar
  exact if_pos small

theorem encode_wide {c : Char} (wide : 0x80 ≤ c.toNat) : ∀ b ∈ String.utf8EncodeChar c, 0x80 ≤ b := by
  have large : ¬(c.val.toNat ≤ 0x7F) := Nat.not_le.mpr wide
  have payload (x : Nat) (base : Nat) (above : 0x80 ≤ base) (byte : x + base < 256) :
      0x80 ≤ UInt8.ofNat (x + base) := (le_ofNat byte 0x80).mpr (Nat.le_trans above (Nat.le_add_left ..))
  unfold String.utf8EncodeChar
  dsimp only
  rw [if_neg large]
  intro b member
  split at member
  · simp only [List.mem_cons, List.not_mem_nil, or_false] at member
    rcases member with rfl | rfl <;> exact payload _ _ (by decide) (by omega)
  · split at member
    · simp only [List.mem_cons, List.not_mem_nil, or_false] at member
      rcases member with rfl | rfl | rfl <;> exact payload _ _ (by decide) (by omega)
    · simp only [List.mem_cons, List.not_mem_nil, or_false] at member
      rcases member with rfl | rfl | rfl | rfl <;> exact payload _ _ (by decide) (by omega)

theorem toNat_ofNat_ascii {n : Nat} (ascii : n < 0x80) : (Char.ofNat n).toNat = n := by
  have valid : n.isValidChar := .inl (by omega)
  rw [Char.ofNat, dif_pos valid]
  rfl

-- Bytes below 0x80 spell the characters of the same numbers.
theorem encode_ofNat_ascii {bytes : Bytes} (ascii : ∀ b ∈ bytes, b < 0x80) :
    encode (bytes.map fun b => Char.ofNat b.toNat) = bytes := by
  induction bytes with
  | nil => rfl
  | cons b bytes ih =>
    have low : b.toNat < 0x80 := UInt8.lt_iff_toNat_lt.mp (ascii b (List.mem_cons_self ..))
    have code := toNat_ofNat_ascii low
    rw [List.map_cons, encode_cons, ih fun c member => ascii c (List.mem_cons_of_mem _ member),
      encode_ascii (code.symm ▸ low), code, UInt8.ofNat_toNat, List.singleton_append]

end DiskGauge.Utf8
