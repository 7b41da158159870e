import Universe.StreamReader

/-!
# UTF-8

`Utf8` looks at the first byte of a character only, and takes as many bytes as
it announces.
-/

namespace Universe

namespace Utf8

/-- The number of bytes that the first one announces. -/
def announcedLength (firstByte : UInt8) : Nat :=
  if firstByte &&& 0x80 = 0 then 1
  else if firstByte &&& 0x60 = 0x40 then 2
  else if firstByte &&& 0x70 = 0x60 then 3
  else if firstByte &&& 0x78 = 0x70 then 4
  else 0

/-- `*p_codepoint` of a character of this length. -/
def codepoint (s : Bytes) (offset length : Nat) : UInt32 :=
  let bits (index : Nat) (mask : UInt8) : UInt32 :=
    (s.getD (offset + index) 0 &&& mask).toUInt32
  match length with
  | 2 => (bits 0 0x1f <<< 6) + bits 1 0x3f
  | 3 => (bits 0 0xf <<< 12) + (bits 1 0x3f <<< 6) + bits 2 0x3f
  | 4 => (bits 0 7 <<< 18) + (bits 1 0x3f <<< 12) + (bits 2 0x3f <<< 6) +
      bits 3 0x3f
  | _ => bits 0 0xff

/-- `decode_char_length` with the code point, when it is not zero. -/
def decodeCharLength (s : Bytes) (offset : Nat) : Option (Nat × UInt32) :=
  let length := announcedLength (s.getD offset 0)
  if s.length ≤ offset then none
  else if length = 0 then none
  else if s.length < offset + length then none
  else some (length, codepoint s offset length)

/-- `decode_char`: the bytes of the character, and the offset behind it. -/
def decodeChar (s : Bytes) (offset : Nat) : Option (Bytes × Nat) :=
  (decodeCharLength s offset).map fun (length, _) =>
    ((s.drop offset).take length, offset + length)

/-- The loop of `length`, from an offset on. -/
def lengthFrom (s : Bytes) : (fuel offset n : Nat) → Nat
  | 0, _, n => n
  | fuel + 1, offset, n =>
      if offset < s.length then
        match decodeCharLength s offset with
        | none => n
        | some (charLength, _) =>
            lengthFrom s fuel (offset + charLength) (n + 1)
      else n

/-- `length`: every character takes one byte at least. -/
def length (s : Bytes) : Nat :=
  if s.length < 1 then 0 else lengthFrom s s.length 0 0

/-- The bits of a code point under a mask, behind the tag of the byte. -/
def tagged (unicode tag mask shift : UInt32) : UInt8 :=
  (tag ||| ((unicode &&& (mask <<< shift)) >>> shift)).toUInt8

/-- `encode`. -/
def encode (unicode : UInt32) : Bytes :=
  if unicode ≤ 0x7f then [unicode.toUInt8]
  else if 0x80 ≤ unicode ∧ unicode ≤ 0x7ff then
    [tagged unicode 0xc0 0x1f 6, tagged unicode 0x80 0x3f 0]
  else if 0x800 ≤ unicode ∧ unicode ≤ 0xffff then
    [tagged unicode 0xe0 0xf 12, tagged unicode 0x80 0x3f 6,
      tagged unicode 0x80 0x3f 0]
  else if 0x10000 ≤ unicode then
    [tagged unicode 0xf0 7 18, tagged unicode 0x80 0x3f 12,
      tagged unicode 0x80 0x3f 6, tagged unicode 0x80 0x3f 0]
  else []

/-- The characters that a loop over `decode_char` comes to. -/
def decodeChars (s : Bytes) : (fuel offset : Nat) → List Bytes
  | 0, _ => []
  | fuel + 1, offset =>
      match decodeChar s offset with
      | none => []
      | some (ch, offset) => ch :: decodeChars s fuel offset

/-- The characters from an offset on. -/
def charactersFrom (s : Bytes) (offset : Nat) : List Bytes :=
  decodeChars s (s.length - offset + 1) offset

def characters (s : Bytes) : List Bytes := charactersFrom s 0

/-- The code points that a loop over `decode_char_length` comes to, and the
offset at which it stops. -/
def decodeCodepoints (s : Bytes) : (fuel offset : Nat) → List UInt32 × Nat
  | 0, offset => ([], offset)
  | fuel + 1, offset =>
      match decodeCharLength s offset with
      | none => ([], offset)
      | some (charLength, codepoint) =>
          let (codepoints, stop) :=
            decodeCodepoints s fuel (offset + charLength)
          (codepoint :: codepoints, stop)

def codepoints (s : Bytes) : List UInt32 × Nat :=
  decodeCodepoints s (s.length + 1) 0

/-- `decode_char` comes to the end. -/
def Walked (s : Bytes) : Prop := (characters s).flatten = s

instance (s : Bytes) : Decidable (Walked s) :=
  inferInstanceAs (Decidable ((characters s).flatten = s))

example : characters [228, 184, 173, 97, 255, 98] =
    [[228, 184, 173], [97]] := by
  decide

section Decoding

variable {s ch : Bytes} {offset after : Nat}

theorem decodeChar_eq_some :
    decodeChar s offset = some (ch, after) ↔
      ∃ length, announcedLength (s.getD offset 0) = length ∧ 0 < length ∧
        offset + length ≤ s.length ∧ ch = (s.drop offset).take length ∧
        after = offset + length := by
  unfold decodeChar decodeCharLength
  constructor
  · intro decoded
    obtain ⟨⟨length, value⟩, found, same⟩ := Option.map_eq_some_iff.mp decoded
    dsimp only at found
    split at found
    · cases found
    · split at found
      · cases found
      · next more =>
          split at found
          · cases found
          · next enough =>
              cases found
              cases same
              exact ⟨_, rfl, Nat.pos_of_ne_zero more, by omega, rfl, rfl⟩
  · intro ⟨length, announced, more, enough, isCh, isAfter⟩
    rw [announced, if_neg (by omega), if_neg (by omega), if_neg (by omega),
      isCh, isAfter]
    rfl

/-- A character is the bytes between the two offsets. -/
theorem decodeChar_split (decoded : decodeChar s offset = some (ch, after)) :
    s.drop offset = ch ++ s.drop after ∧ offset < after ∧ after ≤ s.length ∧
      after = offset + ch.length := by
  obtain ⟨length, -, more, enough, isCh, isAfter⟩ :=
    decodeChar_eq_some.mp decoded
  have size : ch.length = length := by
    rw [isCh, List.length_take, List.length_drop]
    omega
  refine ⟨?_, by omega, by omega, by omega⟩
  rw [isCh, isAfter, ← List.drop_drop]
  exact (List.take_append_drop length (s.drop offset)).symm

/-- One unit of fuel for each byte is enough. -/
theorem decodeChars_enough {fuel : Nat} (enough : s.length - offset < fuel) :
    decodeChars s fuel offset = charactersFrom s offset := by
  have general : ∀ (first second offset : Nat), s.length - offset < first →
      s.length - offset < second →
      decodeChars s first offset = decodeChars s second offset := by
    intro first
    induction first with
    | zero =>
        intro second offset firstEnough
        omega
    | succ first induction =>
        intro second offset firstEnough secondEnough
        obtain ⟨second, rfl⟩ : ∃ fuel, second = fuel + 1 :=
          ⟨second - 1, by omega⟩
        unfold decodeChars
        cases decoded : decodeChar s offset with
        | none => rfl
        | some read =>
            obtain ⟨ch, after⟩ := read
            obtain ⟨-, later, within, -⟩ := decodeChar_split decoded
            exact congrArg (ch :: ·)
              (induction second after (by omega) (by omega))
  exact general fuel _ offset enough (by omega)

theorem charactersFrom_of_none (failed : decodeChar s offset = none) :
    charactersFrom s offset = [] := by
  unfold charactersFrom decodeChars
  rw [failed]

theorem charactersFrom_of_some
    (decoded : decodeChar s offset = some (ch, after)) :
    charactersFrom s offset = ch :: charactersFrom s after := by
  obtain ⟨-, later, within, -⟩ := decodeChar_split decoded
  have rest : decodeChars s (s.length - offset) after =
      charactersFrom s after :=
    decodeChars_enough (by omega)
  rw [← rest]
  unfold charactersFrom
  rw [decodeChars, decoded]

/-- Characters are walked from an offset to the next one. -/
theorem charactersFrom_induction {property : Nat → Prop}
    (ends : ∀ offset, decodeChar s offset = none → property offset)
    (goesOn : ∀ offset ch after, decodeChar s offset = some (ch, after) →
      property after → property offset) (offset : Nat) : property offset := by
  induction size : s.length - offset using Nat.strongRecOn
    generalizing offset with
  | ind size induction =>
      cases decoded : decodeChar s offset with
      | none => exact ends offset decoded
      | some read =>
          obtain ⟨ch, after⟩ := read
          obtain ⟨-, later, within, -⟩ := decodeChar_split decoded
          exact goesOn offset ch after decoded
            (induction (s.length - after) (by omega) after rfl)

/-- The characters are what the bytes begin with. -/
theorem flatten_charactersFrom (s : Bytes) (offset : Nat) :
    (charactersFrom s offset).flatten <+: s.drop offset := by
  induction offset using charactersFrom_induction (s := s) with
  | ends offset failed =>
      rw [charactersFrom_of_none failed]
      exact List.nil_prefix
  | goesOn offset ch after decoded induction =>
      obtain ⟨split, -⟩ := decodeChar_split decoded
      rw [charactersFrom_of_some decoded, split, List.flatten_cons]
      exact (List.prefix_append_right_inj ch).mpr induction

theorem flatten_characters (s : Bytes) : (characters s).flatten <+: s :=
  flatten_charactersFrom s 0

end Decoding

end Utf8

end Universe
