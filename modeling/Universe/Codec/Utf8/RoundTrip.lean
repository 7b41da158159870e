import Universe.Codec.Utf8
import Universe.Library.Unicode

/-!
# UTF-8 there and back

The first byte of a character announces how many there are, so that characters
that are written one behind the other are told apart again.
-/

namespace Universe

namespace Utf8

section Bytes

/-- The first byte decides by the range that it is in. -/
theorem announcedLength_eq (byte : UInt8) :
    announcedLength byte =
      if byte.toNat < 128 then 1
      else if byte.toNat < 192 then 0
      else if byte.toNat < 224 then 2
      else if byte.toNat < 240 then 3
      else if byte.toNat < 248 then 4
      else 0 := by
  have checked : ∀ value < 256, announcedLength (UInt8.ofNat value) =
      if value < 128 then 1
      else if value < 192 then 0
      else if value < 224 then 2
      else if value < 240 then 3
      else if value < 248 then 4
      else 0 := by
    decide +kernel
  have same := checked byte.toNat byte.toNat_lt
  rwa [UInt8.ofNat_toNat] at same

/-- A tagged byte consists of the tag and the bits under the mask. -/
theorem toNat_tagged (unicode : UInt32) {tag mask shift : UInt32}
    (width high : Nat)
    (isMask : (mask <<< shift).toNat >>> (shift.toNat % 32) = 2 ^ width - 1)
    (isTag : tag.toNat = 2 ^ width * high)
    (isByte : 2 ^ width * high + 2 ^ width ≤ 256) :
    (tagged unicode tag mask shift).toNat =
      2 ^ width * high + unicode.toNat / 2 ^ (shift.toNat % 32) % 2 ^ width := by
  have below : unicode.toNat / 2 ^ (shift.toNat % 32) % 2 ^ width <
      2 ^ width :=
    Nat.mod_lt _ (Nat.two_pow_pos width)
  have bits : ((unicode &&& (mask <<< shift)) >>> shift).toNat =
      unicode.toNat / 2 ^ (shift.toNat % 32) % 2 ^ width := by
    rw [UInt32.toNat_shiftRight, UInt32.toNat_and, Nat.shiftRight_and_distrib,
      isMask, Nat.and_two_pow_sub_one_eq_mod, Nat.shiftRight_eq_div_pow]
  unfold tagged
  rw [UInt32.toNat_toUInt8, UInt32.toNat_or, bits, isTag,
    ← Nat.two_pow_add_eq_or_of_lt below]
  exact Nat.mod_eq_of_lt (by omega)

/-- A byte that follows takes six bits. -/
theorem toNat_follower (unicode : UInt32) {shift : UInt32}
    (isShift : ((0x3f : UInt32) <<< shift).toNat >>> (shift.toNat % 32) = 63) :
    (tagged unicode 0x80 0x3f shift).toNat =
      128 + unicode.toNat / 2 ^ (shift.toNat % 32) % 64 :=
  toNat_tagged unicode 6 2 isShift rfl (by decide)

theorem decodeCharLength_drop (s : Bytes) (offset : Nat) :
    decodeCharLength s offset = decodeCharLength (s.drop offset) 0 := by
  have byteAt : ∀ index, s.getD (offset + index) 0 =
      (s.drop offset).getD (0 + index) 0 := by
    intro index
    rw [List.getD_eq_getElem?_getD, List.getD_eq_getElem?_getD,
      List.getElem?_drop, Nat.zero_add]
  have value : ∀ length, codepoint s offset length =
      codepoint (s.drop offset) 0 length := by
    intro length
    unfold codepoint
    simp only [byteAt]
  have size : (s.drop offset).length = s.length - offset :=
    List.length_drop
  unfold decodeCharLength
  rw [show s.getD offset 0 = (s.drop offset).getD 0 0 from byteAt 0]
  simp only [value, size]
  by_cases behind : s.length ≤ offset
  · rw [if_pos behind, if_pos (by omega)]
  · have short : ∀ announced, s.length - offset < 0 + announced ↔
        s.length < offset + announced := by
      intro announced
      omega
    have inside : ¬ s.length - offset ≤ 0 := by omega
    simp only [if_neg behind, if_neg inside, short]

/-- The bits of a byte under a mask, without those of the tag. -/
theorem toNat_masked (byte : UInt8) {mask : UInt8} (width : Nat)
    (isMask : mask.toNat = 2 ^ width - 1) :
    (byte &&& mask).toUInt32.toNat = byte.toNat % 2 ^ width := by
  rw [UInt8.toNat_toUInt32, UInt8.toNat_and, isMask,
    Nat.and_two_pow_sub_one_eq_mod]

/-- No bit of a byte is lost where it is put. -/
theorem toNat_placed (byte : UInt8) {mask : UInt8} {shift : UInt32}
    (width : Nat) (isMask : mask.toNat = 2 ^ width - 1)
    (near : shift.toNat ≤ 24) :
    ((byte &&& mask).toUInt32 <<< shift).toNat =
      byte.toNat % 2 ^ width * 2 ^ shift.toNat := by
  have isByte := Nat.mod_le byte.toNat (2 ^ width)
  have small := byte.toNat_lt
  have power : 2 ^ shift.toNat ≤ 2 ^ 24 :=
    Nat.pow_le_pow_right (by decide) near
  have fits : byte.toNat % 2 ^ width * 2 ^ shift.toNat < 2 ^ 8 * 2 ^ 24 :=
    Nat.lt_of_lt_of_le
      (Nat.mul_lt_mul_of_pos_right (by omega) (Nat.two_pow_pos _))
      (Nat.mul_le_mul_left _ power)
  rw [UInt32.toNat_shiftLeft, toNat_masked byte width isMask,
    Nat.mod_eq_of_lt (a := shift.toNat) (by omega), Nat.shiftLeft_eq]
  exact Nat.mod_eq_of_lt fits

variable (first second third fourth : UInt8) (rest : Bytes)

/-- What is decoded when the announced bytes are there. -/
theorem decodeCharLength_of_announced {s : Bytes}
    (some : 0 < announcedLength (s.getD 0 0))
    (enough : announcedLength (s.getD 0 0) ≤ s.length) :
    decodeCharLength s 0 =
      .some (announcedLength (s.getD 0 0),
        codepoint s 0 (announcedLength (s.getD 0 0))) := by
  unfold decodeCharLength
  simp only
  rw [if_neg (by omega), if_neg (by omega), if_neg (by omega)]

theorem decode_one (lead : first.toNat < 128) :
    decodeCharLength (first :: rest) 0 = some (1, first.toUInt32) := by
  have announced : announcedLength first = 1 := by
    rw [announcedLength_eq, if_pos lead]
  have whole : (first &&& 0xff).toUInt32 = first.toUInt32 := by
    rw [← UInt32.toNat_inj, toNat_masked first 8 rfl, UInt8.toNat_toUInt32]
    exact Nat.mod_eq_of_lt first.toNat_lt
  have decoded := @decodeCharLength_of_announced (first :: rest)
  simp only [List.getD_cons_zero, announced, List.length_cons] at decoded
  rw [decoded (by decide) (by omega), ← whole]
  rfl

theorem decode_two (lead : 192 ≤ first.toNat ∧ first.toNat < 224) :
    decodeCharLength (first :: second :: rest) 0 =
      some (2, UInt32.ofNat
        (first.toNat % 32 * 64 + second.toNat % 64)) := by
  have announced : announcedLength first = 2 := by
    rw [announcedLength_eq, if_neg (by omega), if_neg (by omega),
      if_pos lead.2]
  have high := @toNat_placed first 0x1f 6 5 rfl (by decide)
  have low := @toNat_masked second 0x3f 6 rfl
  have decoded := @decodeCharLength_of_announced (first :: second :: rest)
  simp only [List.getD_cons_zero, announced, List.length_cons] at decoded
  rw [decoded (by decide) (by omega)]
  have value : codepoint (first :: second :: rest) 0 2 =
      UInt32.ofNat (first.toNat % 32 * 64 + second.toNat % 64) := by
    change ((first &&& 0x1f).toUInt32 <<< 6) + (second &&& 0x3f).toUInt32 = _
    rw [← UInt32.toNat_inj, UInt32.toNat_add, high, low, UInt32.toNat_ofNat']
    rfl
  rw [value]

theorem decode_three (lead : 224 ≤ first.toNat ∧ first.toNat < 240) :
    decodeCharLength (first :: second :: third :: rest) 0 =
      some (3, UInt32.ofNat (first.toNat % 16 * 4096 +
        second.toNat % 64 * 64 + third.toNat % 64)) := by
  have announced : announcedLength first = 3 := by
    rw [announcedLength_eq, if_neg (by omega), if_neg (by omega),
      if_neg (by omega), if_pos lead.2]
  have high := @toNat_placed first 0xf 12 4 rfl (by decide)
  have middle := @toNat_placed second 0x3f 6 6 rfl (by decide)
  have low := @toNat_masked third 0x3f 6 rfl
  have decoded := @decodeCharLength_of_announced
    (first :: second :: third :: rest)
  simp only [List.getD_cons_zero, announced, List.length_cons] at decoded
  rw [decoded (by decide) (by omega)]
  have value : codepoint (first :: second :: third :: rest) 0 3 =
      UInt32.ofNat (first.toNat % 16 * 4096 + second.toNat % 64 * 64 +
        third.toNat % 64) := by
    change ((first &&& 0xf).toUInt32 <<< 12) +
      ((second &&& 0x3f).toUInt32 <<< 6) + (third &&& 0x3f).toUInt32 = _
    rw [← UInt32.toNat_inj, UInt32.toNat_add, UInt32.toNat_add, high, middle,
      low, UInt32.toNat_ofNat', Nat.mod_add_mod]
    rfl
  rw [value]

theorem decode_four (lead : 240 ≤ first.toNat ∧ first.toNat < 248) :
    decodeCharLength (first :: second :: third :: fourth :: rest) 0 =
      some (4, UInt32.ofNat (first.toNat % 8 * 262144 +
        second.toNat % 64 * 4096 + third.toNat % 64 * 64 +
        fourth.toNat % 64)) := by
  have announced : announcedLength first = 4 := by
    rw [announcedLength_eq, if_neg (by omega), if_neg (by omega),
      if_neg (by omega), if_neg (by omega), if_pos lead.2]
  have high := @toNat_placed first 7 18 3 rfl (by decide)
  have upper := @toNat_placed second 0x3f 12 6 rfl (by decide)
  have lower := @toNat_placed third 0x3f 6 6 rfl (by decide)
  have low := @toNat_masked fourth 0x3f 6 rfl
  have decoded := @decodeCharLength_of_announced
    (first :: second :: third :: fourth :: rest)
  simp only [List.getD_cons_zero, announced, List.length_cons] at decoded
  rw [decoded (by decide) (by omega)]
  have value : codepoint (first :: second :: third :: fourth :: rest) 0 4 =
      UInt32.ofNat (first.toNat % 8 * 262144 + second.toNat % 64 * 4096 +
        third.toNat % 64 * 64 + fourth.toNat % 64) := by
    change ((first &&& 7).toUInt32 <<< 18) +
      ((second &&& 0x3f).toUInt32 <<< 12) +
      ((third &&& 0x3f).toUInt32 <<< 6) + (fourth &&& 0x3f).toUInt32 = _
    rw [← UInt32.toNat_inj, UInt32.toNat_add, UInt32.toNat_add,
      UInt32.toNat_add, high, upper, lower, low, UInt32.toNat_ofNat',
      Nat.mod_add_mod, Nat.add_assoc (_ % 2 ^ 32), Nat.mod_add_mod,
      ← Nat.add_assoc]
    rfl
  rw [value]

end Bytes

section Encoding

variable {unicode : UInt32}

theorem not_le_of {least : Nat} {bound : UInt32}
    (reached : least ≤ unicode.toNat) (above : bound.toNat < least) :
    ¬ unicode ≤ bound := fun within =>
  Nat.not_lt.mpr (UInt32.le_iff_toNat_le.mp within)
    (Nat.lt_of_lt_of_le above reached)

theorem encode_one (range : unicode.toNat < 0x80) :
    ∃ first, encode unicode = [first] ∧ first.toNat = unicode.toNat := by
  have within : unicode ≤ 0x7f :=
    UInt32.le_iff_toNat_le.mpr (Nat.lt_succ_iff.mp range)
  refine ⟨unicode.toUInt8, if_pos within, ?_⟩
  rw [UInt32.toNat_toUInt8]
  exact Nat.mod_eq_of_lt (by omega)

theorem encode_two (range : 0x80 ≤ unicode.toNat ∧ unicode.toNat < 0x800) :
    ∃ first second, encode unicode = [first, second] ∧
      first.toNat = 192 + unicode.toNat / 64 ∧
      second.toNat = 128 + unicode.toNat % 64 := by
  have above : ¬ unicode ≤ 0x7f := not_le_of range.1 (by decide)
  have within : 0x80 ≤ unicode ∧ unicode ≤ 0x7ff :=
    ⟨UInt32.le_iff_toNat_le.mpr range.1,
      UInt32.le_iff_toNat_le.mpr (Nat.lt_succ_iff.mp range.2)⟩
  have high := @toNat_tagged unicode 0xc0 0x1f 6 5 6 rfl rfl (by decide)
  have low := @toNat_follower unicode 0 rfl
  simp only [UInt32.reduceToNat, Nat.reduceMod, Nat.reducePow,
    Nat.div_one] at high low
  unfold encode
  rw [if_neg above, if_pos within]
  exact ⟨_, _, rfl, by omega, low⟩

theorem encode_three
    (range : 0x800 ≤ unicode.toNat ∧ unicode.toNat < 0x10000) :
    ∃ first second third, encode unicode = [first, second, third] ∧
      first.toNat = 224 + unicode.toNat / 4096 ∧
      second.toNat = 128 + unicode.toNat / 64 % 64 ∧
      third.toNat = 128 + unicode.toNat % 64 := by
  have above : ¬ unicode ≤ 0x7f := not_le_of range.1 (by decide)
  have beyond : ¬ (0x80 ≤ unicode ∧ unicode ≤ 0x7ff) := fun within =>
    not_le_of range.1 (by decide) within.2
  have within : 0x800 ≤ unicode ∧ unicode ≤ 0xffff :=
    ⟨UInt32.le_iff_toNat_le.mpr range.1,
      UInt32.le_iff_toNat_le.mpr (Nat.lt_succ_iff.mp range.2)⟩
  have high := @toNat_tagged unicode 0xe0 0xf 12 4 14 rfl rfl (by decide)
  have middle := @toNat_follower unicode 6 rfl
  have low := @toNat_follower unicode 0 rfl
  simp only [UInt32.reduceToNat, Nat.reduceMod, Nat.reducePow,
    Nat.div_one] at high middle low
  unfold encode
  rw [if_neg above, if_neg beyond, if_pos within]
  exact ⟨_, _, _, rfl, by omega, middle, low⟩

theorem encode_four
    (range : 0x10000 ≤ unicode.toNat ∧ unicode.toNat < 0x200000) :
    ∃ first second third fourth,
      encode unicode = [first, second, third, fourth] ∧
      first.toNat = 240 + unicode.toNat / 262144 ∧
      second.toNat = 128 + unicode.toNat / 4096 % 64 ∧
      third.toNat = 128 + unicode.toNat / 64 % 64 ∧
      fourth.toNat = 128 + unicode.toNat % 64 := by
  have above : ¬ unicode ≤ 0x7f := not_le_of range.1 (by decide)
  have beyond : ¬ (0x80 ≤ unicode ∧ unicode ≤ 0x7ff) := fun within =>
    not_le_of range.1 (by decide) within.2
  have far : ¬ (0x800 ≤ unicode ∧ unicode ≤ 0xffff) := fun within =>
    not_le_of range.1 (by decide) within.2
  have last : 0x10000 ≤ unicode := UInt32.le_iff_toNat_le.mpr range.1
  have high := @toNat_tagged unicode 0xf0 7 18 3 30 rfl rfl (by decide)
  have upper := @toNat_follower unicode 12 rfl
  have lower := @toNat_follower unicode 6 rfl
  have low := @toNat_follower unicode 0 rfl
  simp only [UInt32.reduceToNat, Nat.reduceMod, Nat.reducePow,
    Nat.div_one] at high upper lower low
  unfold encode
  rw [if_neg above, if_neg beyond, if_neg far, if_pos last]
  exact ⟨_, _, _, _, rfl, by omega, upper, lower, low⟩

/-- What is read where a code point was written. -/
theorem decodeCharLength_encode (valid : unicode ≤ 0x10ffff) (rest : Bytes) :
    decodeCharLength (encode unicode ++ rest) 0 =
      some ((encode unicode).length, unicode) := by
  have small := UInt32.le_iff_toNat_le.mp valid
  simp only [UInt32.reduceToNat] at small
  have back : UInt32.ofNat unicode.toNat = unicode := UInt32.ofNat_toNat
  by_cases one : unicode.toNat < 0x80
  · obtain ⟨first, written, isFirst⟩ := encode_one one
    have same : first.toUInt32 = unicode := by
      rw [← UInt32.toNat_inj, UInt8.toNat_toUInt32, isFirst]
    rw [written]
    exact (decode_one first rest (by omega)).trans (by rw [same]; rfl)
  · by_cases two : unicode.toNat < 0x800
    · obtain ⟨first, second, written, isFirst, isSecond⟩ :=
        encode_two ⟨by omega, two⟩
      have value : first.toNat % 32 * 64 + second.toNat % 64 =
          unicode.toNat := by omega
      have decoded := decode_two first second rest (by omega)
      rw [value, back] at decoded
      rw [written]
      exact decoded
    · by_cases three : unicode.toNat < 0x10000
      · obtain ⟨first, second, third, written, isFirst, isSecond, isThird⟩ :=
          encode_three ⟨by omega, three⟩
        have value : first.toNat % 16 * 4096 + second.toNat % 64 * 64 +
            third.toNat % 64 = unicode.toNat := by omega
        have decoded := decode_three first second third rest (by omega)
        rw [value, back] at decoded
        rw [written]
        exact decoded
      · obtain ⟨first, second, third, fourth, written, isFirst, isSecond,
          isThird, isFourth⟩ :=
            @encode_four unicode ⟨by omega, by omega⟩
        have value : first.toNat % 8 * 262144 + second.toNat % 64 * 4096 +
            third.toNat % 64 * 64 + fourth.toNat % 64 = unicode.toNat := by
          omega
        have decoded := decode_four first second third fourth rest (by omega)
        rw [value, back] at decoded
        rw [written]
        exact decoded

end Encoding

section Walking

variable {s : Bytes} {offset : Nat}

theorem decodeChar_of_none (failed : decodeCharLength s offset = none) :
    decodeChar s offset = none := by
  unfold decodeChar
  rw [failed]
  rfl

theorem decodeChar_of_some {charLength : Nat} {codepoint : UInt32}
    (decoded : decodeCharLength s offset = some (charLength, codepoint)) :
    decodeChar s offset =
      some ((s.drop offset).take charLength, offset + charLength) := by
  unfold decodeChar
  rw [decoded]
  rfl

theorem decodeCharLength_end (behind : s.length ≤ offset) :
    decodeCharLength s offset = none :=
  if_pos behind

/-- The loop of `length` counts the characters that `decode_char` yields. -/
theorem lengthFrom_eq (fuel : Nat) :
    ∀ offset n, s.length - offset ≤ fuel →
      lengthFrom s fuel offset n = n + (charactersFrom s offset).length := by
  induction fuel with
  | zero =>
      intro offset n enough
      have failed := decodeCharLength_end (s := s) (by omega : _ ≤ offset)
      rw [charactersFrom_of_none (decodeChar_of_none failed)]
      rfl
  | succ fuel induction =>
      intro offset n enough
      unfold lengthFrom
      cases decoded : decodeCharLength s offset with
      | none =>
          rw [charactersFrom_of_none (decodeChar_of_none decoded)]
          split <;> rfl
      | some found =>
          obtain ⟨charLength, codepoint⟩ := found
          have read := decodeChar_of_some decoded
          obtain ⟨-, later, within, -⟩ := decodeChar_split read
          rw [if_pos (by omega), charactersFrom_of_some read,
            List.length_cons]
          simp only
          rw [induction _ _ (by omega)]
          omega

theorem length_eq (s : Bytes) : length s = (characters s).length := by
  unfold length
  by_cases empty : s.length < 1
  · have failed := @decodeCharLength_end s 0 (by omega)
    rw [if_pos empty, characters,
      charactersFrom_of_none (decodeChar_of_none failed)]
    rfl
  · rw [if_neg empty, lengthFrom_eq s.length 0 0 (by omega), Nat.zero_add]
    rfl

/-- What remains begins with a code point that was written. -/
theorem decodeCharLength_of_drop {unicode : UInt32} {rest : Bytes}
    (valid : unicode ≤ 0x10ffff)
    (remains : s.drop offset = encode unicode ++ rest) :
    decodeCharLength s offset = some ((encode unicode).length, unicode) := by
  rw [decodeCharLength_drop, remains]
  exact decodeCharLength_encode valid rest

theorem drop_behind {ch rest : Bytes} (remains : s.drop offset = ch ++ rest) :
    s.drop (offset + ch.length) = rest := by
  rw [← List.drop_drop, remains, List.drop_left]

theorem charactersFrom_encoded {codepoints : List UInt32}
    (valid : ∀ codepoint ∈ codepoints, codepoint ≤ 0x10ffff) :
    ∀ offset, s.drop offset = (codepoints.map encode).flatten →
      charactersFrom s offset = codepoints.map encode := by
  induction codepoints with
  | nil =>
      intro offset remains
      have failed := decodeCharLength_end (List.drop_eq_nil_iff.mp remains)
      exact charactersFrom_of_none (decodeChar_of_none failed)
  | cons codepoint codepoints induction =>
      intro offset remains
      have first : codepoint ≤ 0x10ffff := valid codepoint (by simp)
      have read := decodeChar_of_some (decodeCharLength_of_drop first remains)
      have taken : (s.drop offset).take (encode codepoint).length =
          encode codepoint := by
        rw [remains]
        exact List.take_left
      rw [charactersFrom_of_some read, taken,
        induction (fun other member => valid other (by simp [member])) _
          (drop_behind remains)]
      rfl

theorem decodeCodepoints_encoded {codepoints : List UInt32}
    (valid : ∀ codepoint ∈ codepoints, codepoint ≤ 0x10ffff) :
    ∀ fuel offset, codepoints.length < fuel → offset ≤ s.length →
      s.drop offset = (codepoints.map encode).flatten →
      decodeCodepoints s fuel offset = (codepoints, s.length) := by
  induction codepoints with
  | nil =>
      intro fuel offset enough inside remains
      obtain ⟨fuel, rfl⟩ : ∃ others, fuel = others + 1 :=
        ⟨fuel - 1, by simp only [List.length_nil] at enough; omega⟩
      have behind : s.length ≤ offset := List.drop_eq_nil_iff.mp remains
      unfold decodeCodepoints
      rw [decodeCharLength_end behind, Nat.le_antisymm inside behind]
  | cons codepoint codepoints induction =>
      intro fuel offset enough inside remains
      obtain ⟨fuel, rfl⟩ : ∃ others, fuel = others + 1 :=
        ⟨fuel - 1, by simp only [List.length_cons] at enough; omega⟩
      have first : codepoint ≤ 0x10ffff := valid codepoint (by simp)
      have size := congrArg List.length remains
      rw [List.length_drop, List.map_cons, List.flatten_cons,
        List.length_append] at size
      unfold decodeCodepoints
      rw [decodeCharLength_of_drop first remains]
      simp only
      rw [induction (fun other member => valid other (by simp [member])) fuel
        _ (Nat.lt_of_succ_lt_succ enough) (by omega) (drop_behind remains)]

end Walking

/-- No encoding is empty. -/
theorem length_encode_pos {unicode : UInt32} (valid : unicode ≤ 0x10ffff) :
    0 < (encode unicode).length := by
  have decoded := decodeCharLength_encode valid []
  apply Nat.pos_of_ne_zero
  intro empty
  rw [List.eq_nil_of_length_eq_zero empty] at decoded
  cases decoded

theorem length_le_encoded {codepoints : List UInt32}
    (valid : ∀ codepoint ∈ codepoints, codepoint ≤ 0x10ffff) :
    codepoints.length ≤ (codepoints.map encode).flatten.length := by
  induction codepoints with
  | nil => exact Nat.zero_le _
  | cons codepoint codepoints induction =>
      have first := length_encode_pos (valid codepoint (by simp))
      have others := induction fun other member => valid other (by simp [member])
      rw [List.map_cons, List.flatten_cons, List.length_append,
        List.length_cons]
      omega

/-- Code points that are written one behind the other are read back. -/
theorem codepoints_read_back {written : List UInt32}
    (valid : ∀ codepoint ∈ written, codepoint ≤ 0x10ffff) :
    codepoints (written.map encode).flatten =
        (written, (written.map encode).flatten.length) ∧
      characters (written.map encode).flatten = written.map encode ∧
      length (written.map encode).flatten = written.length := by
  have walked := charactersFrom_encoded valid 0
    (List.drop_zero (l := (written.map encode).flatten))
  refine ⟨?_, walked, ?_⟩
  · have enough := length_le_encoded valid
    exact decodeCodepoints_encoded valid _ 0 (by omega) (Nat.zero_le _) rfl
  · rw [length_eq]
    unfold characters
    rw [walked, List.length_map]

theorem codepoints_read_back_classes :
    codepoints [65, 195, 169, 237, 160, 128, 244, 143, 191, 191] =
      ([0x41, 0xe9, 0xd800, 0x10ffff], 10) :=
  (@codepoints_read_back [0x41, 0xe9, 0xd800, 0x10ffff] (by simp)).1

end Utf8

end Universe
