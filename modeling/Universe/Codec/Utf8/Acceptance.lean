import Universe.Codec.Utf8.RoundTrip

/-!
# Which bytes are taken for a character

Nothing is asked of the bytes behind the first one but that they are there.
A character that is damaged takes what follows it along.
-/

namespace Universe

namespace Utf8

/-- What `decode_char_length` returns, which is zero for a failure. -/
def decodedLength (s : Bytes) (offset : Nat) : Nat :=
  match decodeCharLength s offset with
  | none => 0
  | some (charLength, _) => charLength

/-- The first byte of a character, and how many bytes it announces. -/
inductive Announces (byte : UInt8) : Nat → Prop
  | ascii : byte.toNat ≤ 0x7f → Announces byte 1
  | two : 0xc0 ≤ byte.toNat → byte.toNat ≤ 0xdf → Announces byte 2
  | three : 0xe0 ≤ byte.toNat → byte.toNat ≤ 0xef → Announces byte 3
  | four : 0xf0 ≤ byte.toNat → byte.toNat ≤ 0xf7 → Announces byte 4

theorem announces_iff {byte : UInt8} {charLength : Nat} :
    Announces byte charLength ↔
      announcedLength byte = charLength ∧ 0 < charLength := by
  rw [announcedLength_eq]
  constructor
  · intro announces
    cases announces with
    | ascii high => rw [if_pos (by omega)]; decide
    | two low high =>
        rw [if_neg (by omega), if_neg (by omega), if_pos (by omega)]
        decide
    | three low high =>
        rw [if_neg (by omega), if_neg (by omega), if_neg (by omega),
          if_pos (by omega)]
        decide
    | four low high =>
        rw [if_neg (by omega), if_neg (by omega), if_neg (by omega),
          if_neg (by omega), if_pos (by omega)]
        decide
  · intro ⟨announced, more⟩
    split at announced
    · exact announced ▸ .ascii (by omega)
    · split at announced
      · omega
      · split at announced
        · exact announced ▸ .two (by omega) (by omega)
        · split at announced
          · exact announced ▸ .three (by omega) (by omega)
          · split at announced
            · exact announced ▸ .four (by omega) (by omega)
            · omega

theorem eq_ofNat {byte : UInt8} {value : Nat} (same : byte.toNat = value) :
    byte = UInt8.ofNat value := by
  rw [← same, UInt8.ofNat_toNat]

/-- The encoder is that of the standard, on what the standard encodes. -/
theorem encode_scalar (scalar : Char) :
    encode scalar.val = String.utf8EncodeChar scalar := by
  have valid : scalar.val.toNat < 0xD800 ∨
      0xDFFF < scalar.val.toNat ∧ scalar.val.toNat < 0x110000 := scalar.valid
  unfold String.utf8EncodeChar
  simp only
  by_cases one : scalar.val.toNat < 0x80
  · obtain ⟨first, written, isFirst⟩ := encode_one one
    rw [if_pos (by omega), written, eq_ofNat isFirst]
  · by_cases two : scalar.val.toNat < 0x800
    · obtain ⟨first, second, written, isFirst, isSecond⟩ :=
        encode_two ⟨by omega, two⟩
      have high : first = UInt8.ofNat (scalar.val.toNat / 64 % 32 + 192) :=
        eq_ofNat (by omega)
      have low : second = UInt8.ofNat (scalar.val.toNat % 64 + 128) :=
        eq_ofNat (by omega)
      rw [if_neg (by omega), if_pos (by omega), written, high, low]
    · by_cases three : scalar.val.toNat < 0x10000
      · obtain ⟨first, second, third, written, isFirst, isSecond, isThird⟩ :=
          encode_three ⟨by omega, three⟩
        have high : first =
            UInt8.ofNat (scalar.val.toNat / 4096 % 16 + 224) :=
          eq_ofNat (by omega)
        have middle : second =
            UInt8.ofNat (scalar.val.toNat / 64 % 64 + 128) :=
          eq_ofNat (by omega)
        have low : third = UInt8.ofNat (scalar.val.toNat % 64 + 128) :=
          eq_ofNat (by omega)
        rw [if_neg (by omega), if_neg (by omega), if_pos (by omega), written,
          high, middle, low]
      · obtain ⟨first, second, third, fourth, written, isFirst, isSecond,
          isThird, isFourth⟩ :=
            @encode_four scalar.val ⟨by omega, by omega⟩
        have high : first =
            UInt8.ofNat (scalar.val.toNat / 262144 % 8 + 240) :=
          eq_ofNat (by omega)
        have upper : second =
            UInt8.ofNat (scalar.val.toNat / 4096 % 64 + 128) :=
          eq_ofNat (by omega)
        have lower : third =
            UInt8.ofNat (scalar.val.toNat / 64 % 64 + 128) :=
          eq_ofNat (by omega)
        have low : fourth = UInt8.ofNat (scalar.val.toNat % 64 + 128) :=
          eq_ofNat (by omega)
        rw [if_neg (by omega), if_neg (by omega), if_neg (by omega), written,
          high, upper, lower, low]

theorem scalar_le (scalar : Char) : scalar.val ≤ 0x10ffff := by
  have valid : scalar.val.toNat < 0xD800 ∨
      0xDFFF < scalar.val.toNat ∧ scalar.val.toNat < 0x110000 := scalar.valid
  have most : scalar.val.toNat ≤ 0x10ffff := by omega
  exact UInt32.le_iff_toNat_le.mpr most

/-- The sequence of a scalar value is taken for what it is. -/
theorem decodeCharLength_scalar {s : Bytes} {offset : Nat} {scalar : Char}
    (starts : Unicode.StartsUtf8 (s.drop offset) scalar) :
    decodeCharLength s offset =
      some ((String.utf8EncodeChar scalar).length, scalar.val) := by
  obtain ⟨rest, remains⟩ := starts
  rw [← encode_scalar] at remains ⊢
  exact decodeCharLength_of_drop (scalar_le scalar) remains.symm

/-- What is not zero is announced, and the bytes are there. -/
theorem decodedLength_eq_iff {s : Bytes} {offset charLength : Nat}
    (more : charLength ≠ 0) :
    decodedLength s offset = charLength ↔
      offset < s.length ∧ Announces (s.getD offset 0) charLength ∧
        offset + charLength ≤ s.length := by
  rw [announces_iff]
  unfold decodedLength decodeCharLength
  simp only
  by_cases behind : s.length ≤ offset
  · rw [if_pos behind]
    exact ⟨fun zero => absurd zero.symm more, fun ⟨inside, _⟩ => by omega⟩
  · rw [if_neg behind]
    by_cases unknown : announcedLength (s.getD offset 0) = 0
    · rw [if_pos unknown]
      exact ⟨fun zero => absurd zero.symm more,
        fun ⟨_, announced, _⟩ => by omega⟩
    · rw [if_neg unknown]
      by_cases short : s.length < offset + announcedLength (s.getD offset 0)
      · rw [if_pos short]
        exact ⟨fun zero => absurd zero.symm more,
          fun ⟨_, announced, enough⟩ => by omega⟩
      · rw [if_neg short]
        simp only
        exact ⟨fun same => ⟨by omega, ⟨same, by omega⟩, by omega⟩,
          fun ⟨_, announced, _⟩ => announced.1⟩

/-- The first byte alone decides, and what is well formed is accepted. -/
theorem decodes_by_first_byte (s : Bytes) (offset : Nat) :
    (∀ charLength, charLength ≠ 0 →
      (decodedLength s offset = charLength ↔
        offset < s.length ∧ Announces (s.getD offset 0) charLength ∧
          offset + charLength ≤ s.length)) ∧
    ∀ scalar, Unicode.StartsUtf8 (s.drop offset) scalar →
      decodedLength s offset = (String.utf8EncodeChar scalar).length := by
  constructor
  · intro charLength more
    exact decodedLength_eq_iff more
  · intro scalar starts
    unfold decodedLength
    rw [decodeCharLength_scalar starts]

theorem decodes_by_first_byte_letter : decodedLength [0x41, 0xc3] 0 = 1 :=
  ((decodes_by_first_byte [0x41, 0xc3] 0).1 1 (by decide)).mpr
    ⟨by decide, .ascii (by decide), by decide⟩

/-- A lead byte without its continuation swallows the letter behind it. -/
theorem damaged_swallows_letter :
    decodedLength [0xc3, 0x41] 0 = 2 ∧
      characters [0xc3, 0x41] = [[0xc3, 0x41]] ∧
      ¬ ∃ scalar, Unicode.StartsUtf8 [0xc3, 0x41] scalar := by
  refine ⟨by decide, by decide, ?_⟩
  intro ⟨scalar, starts⟩
  have found := @decodeCharLength_scalar [0xc3, 0x41] 0 scalar starts
  have value : scalar.val = 0xc1 := by
    have decoded : decodeCharLength [0xc3, 0x41] 0 = some (2, 0xc1) := by
      decide
    rw [decoded] at found
    exact (Prod.mk.inj (Option.some.inj found)).2.symm
  have same : scalar = Char.ofNat 0xc1 := Char.ext value
  rw [same] at starts
  exact absurd starts (by unfold Unicode.StartsUtf8; decide)

end Utf8

end Universe
