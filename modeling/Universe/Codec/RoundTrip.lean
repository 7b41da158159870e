import Universe.Codec.Base64
import Universe.HttpProxy.Session

/-!
# Base64 there and back

Both encoders and both decoders of the source shift bits through a number of 32
bits, which loses those that are used up.  Three bytes become four letters, and
the last one or two bytes are padded.
-/

namespace Universe

namespace HttpProxy.Base64

/-- `base64_encode`, which is `Base64::encode` without assertions. -/
def encode (value : Bytes) : Bytes :=
  let size := (value.length + 2) / 3 * 4
  let encoder := value.foldl Base64.Encoder.push {}
  let out :=
    if 0 < encoder.bitsCollected then
      encoder.out ++ [Base64.digit
        (encoder.accumulator <<< UInt32.ofNat (6 - encoder.bitsCollected))]
    else encoder.out
  out ++ List.replicate (size - out.length) 61

end HttpProxy.Base64

namespace Base64

/-- `Base64::decode`, which is the same as `base64_decode`. -/
def decode (ascdata : Bytes) : Bytes := HttpProxy.Base64.loop 0 0 [] ascdata

/-- The letter of six bits. -/
def letter (value : Nat) : UInt8 := b64Table.getD value 0

/-- The encoding of RFC 4648. -/
def rfc4648 : Bytes → Bytes
  | [] => []
  | [first] =>
      [letter (first.toNat / 4), letter (first.toNat % 4 * 16), 61, 61]
  | [first, second] =>
      [letter (first.toNat / 4),
        letter (first.toNat % 4 * 16 + second.toNat / 16),
        letter (second.toNat % 16 * 4), 61]
  | first :: second :: third :: rest =>
      letter (first.toNat / 4) ::
      letter (first.toNat % 4 * 16 + second.toNat / 16) ::
      letter (second.toNat % 16 * 4 + third.toNat / 64) ::
      letter (third.toNat % 64) :: rfc4648 rest

section Encoding

variable (accumulator : UInt32) (out : Bytes)

theorem toNat_push (byte : UInt8) :
    ((accumulator <<< 8) ||| byte.toUInt32).toNat =
      (accumulator.toNat * 256 + byte.toNat) % 2 ^ 32 := by
  have small := byte.toNat_lt
  have apart : accumulator.toNat * 256 % 2 ^ 32 =
      accumulator.toNat % 2 ^ 24 * 2 ^ 8 := by omega
  rw [UInt32.toNat_or, UInt32.toNat_shiftLeft, UInt8.toNat_toUInt32]
  change accumulator.toNat <<< 8 % 2 ^ 32 ||| byte.toNat = _
  rw [Nat.shiftLeft_eq, apart, ← Nat.shiftLeft_eq,
    ← Nat.shiftLeft_add_eq_or_of_lt (by simpa using small), Nat.shiftLeft_eq]
  omega

/-- A number of 32 bits can be shifted by less than that. -/
theorem toNat_shift {behind : Nat} (few : behind < 32) :
    (UInt32.ofNat behind).toNat % 32 = behind := by
  rw [UInt32.toNat_ofNat_of_lt' (Nat.lt_trans few (by decide))]
  exact Nat.mod_eq_of_lt few

theorem digit_eq (bits : UInt32) : digit bits = letter (bits.toNat % 64) := by
  unfold digit letter
  rw [UInt32.toNat_and]
  exact congrArg (b64Table.getD · 0) (Nat.and_two_pow_sub_one_eq_mod _ 6)

/-- Six bits of the accumulator, with so many others behind them. -/
theorem digit_shift (byte : UInt8) (behind : Nat) (few : behind < 32) :
    digit (((accumulator <<< 8) ||| byte.toUInt32) >>> UInt32.ofNat behind) =
      letter ((accumulator.toNat * 256 + byte.toNat) % 2 ^ 32 / 2 ^ behind %
        64) := by
  rw [digit_eq, UInt32.toNat_shiftRight, toNat_push, toNat_shift few,
    Nat.shiftRight_eq_div_pow]

theorem push_first (byte : UInt8) :
    Encoder.push ⟨accumulator, 0, out⟩ byte =
      ⟨(accumulator <<< 8) ||| byte.toUInt32, 2,
        out ++ [letter (byte.toNat / 4)]⟩ := by
  have small := byte.toNat_lt
  have written := digit_shift accumulator byte 2 (by decide)
  have value : (accumulator.toNat * 256 + byte.toNat) % 2 ^ 32 / 2 ^ 2 % 64 =
      byte.toNat / 4 := by omega
  rw [value] at written
  rw [← written]
  rfl

theorem push_second (byte : UInt8) {left : Nat}
    (low : accumulator.toNat % 4 = left) :
    Encoder.push ⟨accumulator, 2, out⟩ byte =
      ⟨(accumulator <<< 8) ||| byte.toUInt32, 4,
        out ++ [letter (left * 16 + byte.toNat / 16)]⟩ := by
  have small := byte.toNat_lt
  have written := digit_shift accumulator byte 4 (by decide)
  have value : (accumulator.toNat * 256 + byte.toNat) % 2 ^ 32 / 2 ^ 4 % 64 =
      left * 16 + byte.toNat / 16 := by omega
  rw [value] at written
  rw [← written]
  rfl

theorem push_third (byte : UInt8) {left : Nat}
    (low : accumulator.toNat % 16 = left) :
    Encoder.push ⟨accumulator, 4, out⟩ byte =
      ⟨(accumulator <<< 8) ||| byte.toUInt32, 0,
        out ++ [letter (left * 4 + byte.toNat / 64),
          letter (byte.toNat % 64)]⟩ := by
  have small := byte.toNat_lt
  have former := digit_shift accumulator byte 6 (by decide)
  have latter := digit_shift accumulator byte 0 (by decide)
  have formerValue : (accumulator.toNat * 256 + byte.toNat) % 2 ^ 32 / 2 ^ 6 %
      64 = left * 4 + byte.toNat / 64 := by omega
  have latterValue : (accumulator.toNat * 256 + byte.toNat) % 2 ^ 32 / 2 ^ 0 %
      64 = byte.toNat % 64 := by omega
  rw [formerValue] at former
  rw [latterValue] at latter
  rw [← former, ← latter]
  rfl

/-- The letter of the bits that are left, with zeros behind them. -/
theorem digit_padded (behind : Nat) (few : behind < 32) :
    digit (accumulator <<< UInt32.ofNat behind) =
      letter (accumulator.toNat * 2 ^ behind % 2 ^ 32 % 64) := by
  rw [digit_eq, UInt32.toNat_shiftLeft, toNat_shift few, Nat.shiftLeft_eq]

/-- The end of both encoders: the bits that are left, and the padding. -/
def finish (size : Nat) (encoder : Encoder) : Bytes :=
  encoder.stored ++ List.replicate (size - encoder.stored.length) 61

theorem stored_some {bitsCollected : Nat} (some : 0 < bitsCollected) :
    (⟨accumulator, bitsCollected, out⟩ : Encoder).stored =
      out ++ [digit (accumulator <<< UInt32.ofNat (6 - bitsCollected))] :=
  if_pos some

/-- The encoders go on behind whole groups of letters. -/
theorem finish_foldl (bindata : Bytes) :
    ∀ (accumulator : UInt32) (out : Bytes) {size : Nat},
      size = out.length + (bindata.length + 2) / 3 * 4 →
      finish size (bindata.foldl Encoder.push ⟨accumulator, 0, out⟩) =
        out ++ rfc4648 bindata := by
  induction bindata using rfc4648.induct with
  | case1 =>
      intro accumulator out size isSize
      have stored : (⟨accumulator, 0, out⟩ : Encoder).stored = out := rfl
      simp [finish, rfc4648, isSize, stored]
  | case2 first =>
      intro accumulator out size isSize
      have small := first.toNat_lt
      let pushed := (accumulator <<< 8) ||| first.toUInt32
      have low : pushed.toNat * 2 ^ 4 % 2 ^ 32 % 64 = first.toNat % 4 * 16 := by
        rw [toNat_push]
        omega
      have last : digit (pushed <<< UInt32.ofNat (6 - 2)) =
          letter (first.toNat % 4 * 16) := by
        rw [← low]
        exact digit_padded pushed 4 (by decide)
      rw [List.foldl_cons, List.foldl_nil, push_first, finish,
        stored_some _ _ (by decide), last, isSize]
      simp [rfc4648]
  | case3 first second =>
      intro accumulator out size isSize
      have small := first.toNat_lt
      have secondSmall := second.toNat_lt
      let one := (accumulator <<< 8) ||| first.toUInt32
      let two := (one <<< 8) ||| second.toUInt32
      have low : one.toNat % 4 = first.toNat % 4 := by
        rw [toNat_push]
        omega
      have lower : two.toNat * 2 ^ 2 % 2 ^ 32 % 64 =
          second.toNat % 16 * 4 := by
        rw [toNat_push]
        omega
      have last : digit (two <<< UInt32.ofNat (6 - 4)) =
          letter (second.toNat % 16 * 4) := by
        rw [← lower]
        exact digit_padded two 2 (by decide)
      rw [List.foldl_cons, List.foldl_cons, List.foldl_nil, push_first,
        push_second one _ second low, finish, stored_some _ _ (by decide), last,
        isSize]
      simp [rfc4648]
  | case4 first second third rest induction =>
      intro accumulator out size isSize
      have small := first.toNat_lt
      have secondSmall := second.toNat_lt
      let one := (accumulator <<< 8) ||| first.toUInt32
      let two := (one <<< 8) ||| second.toUInt32
      have low : one.toNat % 4 = first.toNat % 4 := by
        rw [toNat_push]
        omega
      have lower : two.toNat % 16 = second.toNat % 16 := by
        rw [toNat_push]
        omega
      rw [List.foldl_cons, List.foldl_cons, List.foldl_cons, push_first,
        push_second one _ second low, push_third two _ third lower,
        induction]
      · simp [rfc4648]
      · rw [isSize]
        simp only [List.length_append, List.length_cons, List.length_nil]
        omega

theorem encode_eq_rfc4648 (value : Bytes) :
    HttpProxy.Base64.encode value = rfc4648 value :=
  finish_foldl value 0 [] (by simp)

theorem length_rfc4648 (bindata : Bytes) :
    (rfc4648 bindata).length = 4 * ((bindata.length + 2) / 3) := by
  induction bindata using rfc4648.induct with
  | case1 => rfl
  | case2 first => simp [rfc4648]
  | case3 first second => simp [rfc4648]
  | case4 first second third rest induction =>
      simp only [rfc4648, List.length_cons, induction]
      omega

end Encoding

section Decoding

variable (accumulator : UInt32) (bitsCollected : Nat) (retval : Bytes)

/-- Spaces do not matter. -/
theorem loop_filter (text : Bytes) :
    HttpProxy.Base64.loop accumulator bitsCollected retval text =
      HttpProxy.Base64.loop accumulator bitsCollected retval
        (text.filter fun byte => !isSpace byte) := by
  induction text generalizing accumulator bitsCollected retval with
  | nil => rfl
  | cons byte text induction =>
      by_cases space : isSpace byte = true
      · have skipped : (byte :: text).filter (fun byte => !isSpace byte) =
            text.filter fun byte => !isSpace byte := by
          simp [space]
        rw [skipped, ← induction, HttpProxy.Base64.loop,
          if_pos (by simp [space])]
      · have stays : (byte :: text).filter (fun byte => !isSpace byte) =
            byte :: text.filter fun byte => !isSpace byte := by
          simp [space]
        rw [stays]
        unfold HttpProxy.Base64.loop
        split
        · exact induction _ _ _
        · cases HttpProxy.Base64.sextet byte with
          | none => rfl
          | some value =>
              dsimp only
              split
              · exact induction _ _ _
              · exact induction _ _ _

/-- What a letter stands for. -/
theorem sextet_letter : ∀ value ∈ List.range 64,
    HttpProxy.Base64.sextet (letter value) = some value.toUInt32 ∧
      isSpace (letter value) = false ∧ letter value ≠ 61 := by
  decide +kernel

theorem toNat_sextets {value : Nat} (small : value < 64) :
    (accumulator <<< 6 ||| value.toUInt32).toNat =
      (accumulator.toNat * 64 + value) % 2 ^ 32 := by
  have valueNat : value.toUInt32.toNat = value :=
    UInt32.toNat_ofNat_of_lt' (Nat.lt_trans small (by decide))
  have apart : accumulator.toNat * 64 % 2 ^ 32 =
      accumulator.toNat % 2 ^ 26 * 2 ^ 6 := by omega
  rw [UInt32.toNat_or, UInt32.toNat_shiftLeft, valueNat]
  change accumulator.toNat <<< 6 % 2 ^ 32 ||| value = _
  rw [Nat.shiftLeft_eq, apart, ← Nat.shiftLeft_eq,
    ← Nat.shiftLeft_add_eq_or_of_lt (by simpa using small), Nat.shiftLeft_eq]
  omega

/-- The byte that the decoder takes. -/
theorem octet_eq (behind : Nat) (few : behind < 32) :
    ((accumulator >>> behind.toUInt32) &&& 0xff).toUInt8 =
      UInt8.ofNat (accumulator.toNat / 2 ^ behind % 256) := by
  have shift : behind.toUInt32.toNat % 32 = behind := toNat_shift few
  apply UInt8.toNat_inj.mp
  rw [UInt32.toNat_toUInt8, UInt32.toNat_and, UInt32.toNat_shiftRight, shift,
    Nat.shiftRight_eq_div_pow, UInt8.toNat_ofNat']
  exact congrArg (· % 2 ^ 8) (Nat.and_two_pow_sub_one_eq_mod _ 8)

/-- One letter is six bits more, and a byte when there are eight. -/
theorem loop_letter {value : Nat} (small : value < 64) (text : Bytes)
    {after : UInt32} (isAfter : accumulator <<< 6 ||| value.toUInt32 = after) :
    HttpProxy.Base64.loop accumulator bitsCollected retval
        (letter value :: text) =
      if 8 ≤ bitsCollected + 6 then
        HttpProxy.Base64.loop after (bitsCollected + 6 - 8)
          (retval ++ [((after >>> (bitsCollected + 6 - 8).toUInt32) &&&
            0xff).toUInt8]) text
      else HttpProxy.Base64.loop after (bitsCollected + 6) retval text := by
  obtain ⟨stands, unspaced, unpadded⟩ :=
    sextet_letter value (List.mem_range.mpr small)
  rw [HttpProxy.Base64.loop, if_neg (by simp [unspaced, unpadded]), stands,
    ← isAfter]

/-- The padding does not matter. -/
theorem loop_pad (text : Bytes) :
    HttpProxy.Base64.loop accumulator bitsCollected retval (61 :: text) =
      HttpProxy.Base64.loop accumulator bitsCollected retval text := by
  rw [HttpProxy.Base64.loop, if_pos (by decide)]

/-- Two letters are a byte and four bits. -/
theorem loop_two {one two : Nat} (oneSmall : one < 64) (twoSmall : two < 64)
    (text : Bytes) :
    ∃ after : UInt32, after.toNat % 16 = two % 16 ∧
      HttpProxy.Base64.loop accumulator 0 retval
          (letter one :: letter two :: text) =
        HttpProxy.Base64.loop after 4
          (retval ++ [UInt8.ofNat (one * 4 + two / 16)]) text := by
  let first := accumulator <<< 6 ||| one.toUInt32
  let second := first <<< 6 ||| two.toUInt32
  have secondNat : second.toNat = (first.toNat * 64 + two) % 2 ^ 32 :=
    toNat_sextets first twoSmall
  have firstNat : first.toNat = (accumulator.toNat * 64 + one) % 2 ^ 32 :=
    toNat_sextets accumulator oneSmall
  have byte : second.toNat / 2 ^ 4 % 256 = one * 4 + two / 16 := by omega
  refine ⟨second, by omega, ?_⟩
  rw [loop_letter accumulator 0 retval oneSmall _ rfl, if_neg (by decide),
    loop_letter first 6 retval twoSmall _ rfl, if_pos (by decide),
    octet_eq second 4 (by decide), byte]

/-- A third letter is a byte and two bits. -/
theorem loop_third {left three : Nat} (low : accumulator.toNat % 16 = left)
    (threeSmall : three < 64) (text : Bytes) :
    ∃ after : UInt32, after.toNat % 4 = three % 4 ∧
      HttpProxy.Base64.loop accumulator 4 retval (letter three :: text) =
        HttpProxy.Base64.loop after 2
          (retval ++ [UInt8.ofNat (left * 16 + three / 4)]) text := by
  let third := accumulator <<< 6 ||| three.toUInt32
  have thirdNat : third.toNat = (accumulator.toNat * 64 + three) % 2 ^ 32 :=
    toNat_sextets accumulator threeSmall
  have byte : third.toNat / 2 ^ 2 % 256 = left * 16 + three / 4 := by omega
  refine ⟨third, by omega, ?_⟩
  rw [loop_letter accumulator 4 retval threeSmall _ rfl, if_pos (by decide),
    octet_eq third 2 (by decide), byte]

/-- A fourth letter is a byte, and no bits are left. -/
theorem loop_fourth {left four : Nat} (low : accumulator.toNat % 4 = left)
    (fourSmall : four < 64) (text : Bytes) :
    ∃ after : UInt32,
      HttpProxy.Base64.loop accumulator 2 retval (letter four :: text) =
        HttpProxy.Base64.loop after 0
          (retval ++ [UInt8.ofNat (left * 64 + four)]) text := by
  let fourth := accumulator <<< 6 ||| four.toUInt32
  have fourthNat : fourth.toNat = (accumulator.toNat * 64 + four) % 2 ^ 32 :=
    toNat_sextets accumulator fourSmall
  have byte : fourth.toNat / 2 ^ 0 % 256 = left * 64 + four := by omega
  refine ⟨fourth, ?_⟩
  rw [loop_letter accumulator 2 retval fourSmall _ rfl, if_pos (by decide),
    octet_eq fourth 0 (by decide), byte]

/-- A text of whole groups, the last of which may be padded; the bits that are
left over in it are zero. -/
inductive Canonical : Bytes → Prop where
  | nil : Canonical []
  | one {first second : Nat} (firstSmall : first < 64)
      (secondSmall : second < 64) (zero : second % 16 = 0) :
      Canonical [letter first, letter second, 61, 61]
  | two {first second third : Nat} (firstSmall : first < 64)
      (secondSmall : second < 64) (thirdSmall : third < 64)
      (zero : third % 4 = 0) :
      Canonical [letter first, letter second, letter third, 61]
  | three {first second third fourth : Nat} {rest : Bytes}
      (firstSmall : first < 64) (secondSmall : second < 64)
      (thirdSmall : third < 64) (fourthSmall : fourth < 64)
      (canonical : Canonical rest) :
      Canonical (letter first :: letter second :: letter third ::
        letter fourth :: rest)

theorem toNat_ofNat_byte {value : Nat} (small : value < 256) :
    (UInt8.ofNat value).toNat = value := UInt8.toNat_ofNat_of_lt' small

/-- Every canonical text is the encoding of something. -/
theorem Canonical.exists_rfc4648 {text : Bytes} (canonical : Canonical text) :
    ∃ bindata, rfc4648 bindata = text := by
  induction canonical with
  | nil => exact ⟨[], rfl⟩
  | @one first second firstSmall secondSmall zero =>
      have byte := toNat_ofNat_byte
        (show first * 4 + second / 16 < 256 by omega)
      have upper : (first * 4 + second / 16) / 4 = first := by omega
      have lower : (first * 4 + second / 16) % 4 * 16 = second := by omega
      refine ⟨[UInt8.ofNat (first * 4 + second / 16)], ?_⟩
      rw [rfc4648, byte, upper, lower]
  | @two first second third firstSmall secondSmall thirdSmall zero =>
      have byte := toNat_ofNat_byte
        (show first * 4 + second / 16 < 256 by omega)
      have next := toNat_ofNat_byte
        (show second % 16 * 16 + third / 4 < 256 by omega)
      have upper : (first * 4 + second / 16) / 4 = first := by omega
      have middle : (first * 4 + second / 16) % 4 * 16 +
          (second % 16 * 16 + third / 4) / 16 = second := by omega
      have lower : (second % 16 * 16 + third / 4) % 16 * 4 = third := by omega
      refine ⟨[UInt8.ofNat (first * 4 + second / 16),
        UInt8.ofNat (second % 16 * 16 + third / 4)], ?_⟩
      rw [rfc4648, byte, next, upper, middle, lower]
  | @three first second third fourth rest firstSmall secondSmall thirdSmall
      fourthSmall canonical induction =>
      obtain ⟨bindata, encoded⟩ := induction
      have byte := toNat_ofNat_byte
        (show first * 4 + second / 16 < 256 by omega)
      have next := toNat_ofNat_byte
        (show second % 16 * 16 + third / 4 < 256 by omega)
      have last := toNat_ofNat_byte
        (show third % 4 * 64 + fourth < 256 by omega)
      have upper : (first * 4 + second / 16) / 4 = first := by omega
      have middle : (first * 4 + second / 16) % 4 * 16 +
          (second % 16 * 16 + third / 4) / 16 = second := by omega
      have lower : (second % 16 * 16 + third / 4) % 16 * 4 +
          (third % 4 * 64 + fourth) / 64 = third := by omega
      have lowest : (third % 4 * 64 + fourth) % 64 = fourth := by omega
      refine ⟨UInt8.ofNat (first * 4 + second / 16) ::
        UInt8.ofNat (second % 16 * 16 + third / 4) ::
        UInt8.ofNat (third % 4 * 64 + fourth) :: bindata, ?_⟩
      rw [rfc4648, byte, next, last, encoded, upper, middle, lower, lowest]

/-- The decoder gives what was encoded back. -/
theorem loop_rfc4648 (bindata : Bytes) :
    ∀ (accumulator : UInt32) (retval : Bytes),
      HttpProxy.Base64.loop accumulator 0 retval (rfc4648 bindata) =
        retval ++ bindata := by
  induction bindata using rfc4648.induct with
  | case1 =>
      intro accumulator retval
      simp [rfc4648, HttpProxy.Base64.loop]
  | case2 first =>
      intro accumulator retval
      have small := first.toNat_lt
      obtain ⟨after, low, same⟩ := loop_two accumulator retval
        (show first.toNat / 4 < 64 by omega)
        (show first.toNat % 4 * 16 < 64 by omega) [61, 61]
      have byte : first.toNat / 4 * 4 + first.toNat % 4 * 16 / 16 =
          first.toNat := by omega
      rw [rfc4648, same, loop_pad, loop_pad, HttpProxy.Base64.loop, byte,
        UInt8.ofNat_toNat]
  | case3 first second =>
      intro accumulator retval
      have small := first.toNat_lt
      have secondSmall := second.toNat_lt
      obtain ⟨after, low, same⟩ := loop_two accumulator retval
        (show first.toNat / 4 < 64 by omega)
        (show first.toNat % 4 * 16 + second.toNat / 16 < 64 by omega)
        [letter (second.toNat % 16 * 4), 61]
      obtain ⟨next, lower, again⟩ := loop_third after
        (retval ++ [first]) low
        (show second.toNat % 16 * 4 < 64 by omega) [61]
      have byte : first.toNat / 4 * 4 +
          (first.toNat % 4 * 16 + second.toNat / 16) / 16 = first.toNat := by
        omega
      have nextByte : (first.toNat % 4 * 16 + second.toNat / 16) % 16 * 16 +
          second.toNat % 16 * 4 / 4 = second.toNat := by omega
      rw [byte, UInt8.ofNat_toNat] at same
      rw [nextByte, UInt8.ofNat_toNat] at again
      rw [rfc4648, same, again, loop_pad, HttpProxy.Base64.loop]
      simp
  | case4 first second third rest induction =>
      intro accumulator retval
      have small := first.toNat_lt
      have secondSmall := second.toNat_lt
      have thirdSmall := third.toNat_lt
      obtain ⟨after, low, same⟩ := loop_two accumulator retval
        (show first.toNat / 4 < 64 by omega)
        (show first.toNat % 4 * 16 + second.toNat / 16 < 64 by omega)
        (letter (second.toNat % 16 * 4 + third.toNat / 64) ::
          letter (third.toNat % 64) :: rfc4648 rest)
      obtain ⟨next, lower, again⟩ := loop_third after
        (retval ++ [first]) low
        (show second.toNat % 16 * 4 + third.toNat / 64 < 64 by omega)
        (letter (third.toNat % 64) :: rfc4648 rest)
      obtain ⟨last, whole⟩ := loop_fourth next
        (retval ++ [first] ++ [second]) lower
        (show third.toNat % 64 < 64 by omega) (rfc4648 rest)
      have byte : first.toNat / 4 * 4 +
          (first.toNat % 4 * 16 + second.toNat / 16) / 16 = first.toNat := by
        omega
      have nextByte : (first.toNat % 4 * 16 + second.toNat / 16) % 16 * 16 +
          (second.toNat % 16 * 4 + third.toNat / 64) / 4 = second.toNat := by
        omega
      have lastByte : (second.toNat % 16 * 4 + third.toNat / 64) % 4 * 64 +
          third.toNat % 64 = third.toNat := by omega
      rw [byte, UInt8.ofNat_toNat] at same
      rw [nextByte, UInt8.ofNat_toNat] at again
      rw [lastByte, UInt8.ofNat_toNat] at whole
      rw [rfc4648, same, again, whole, induction]
      simp

end Decoding

/-- `encode` gives what `base64_encode` gives, when it returns. -/
theorem encode_same {bindata text : Bytes}
    (returned : encode bindata = some text) :
    text = HttpProxy.Base64.encode bindata :=
  (encode_eq_some.mp returned).2.2.2.symm

/-- The encoders give the encoding of RFC 4648; the decoders give the bytes
back, whatever spaces are in it, and every canonical text is the encoding of what
they make of it. -/
theorem encodings_round_trip :
    (∀ bindata : Bytes,
      (∀ text, encode bindata = some text →
        text = HttpProxy.Base64.encode bindata) ∧
      HttpProxy.Base64.encode bindata = rfc4648 bindata ∧
      (rfc4648 bindata).length = 4 * ((bindata.length + 2) / 3) ∧
      ∀ spaced : Bytes,
        spaced.filter (fun byte => !isSpace byte) = rfc4648 bindata →
          decode spaced = bindata ∧ HttpProxy.Base64.decode spaced = bindata) ∧
    ∀ text : Bytes, Canonical text →
      HttpProxy.Base64.encode (HttpProxy.Base64.decode text) = text ∧
      ∀ again, encode (decode text) = some again → again = text := by
  have back : ∀ bindata, HttpProxy.Base64.loop 0 0 [] (rfc4648 bindata) =
      bindata := fun bindata => loop_rfc4648 bindata 0 []
  constructor
  · intro bindata
    refine ⟨fun text => encode_same, encode_eq_rfc4648 bindata,
      length_rfc4648 bindata, ?_⟩
    intro spaced spaces
    have same : HttpProxy.Base64.loop 0 0 [] spaced = bindata := by
      rw [loop_filter, spaces]
      exact back bindata
    exact ⟨same, same⟩
  · intro text canonical
    obtain ⟨bindata, rfl⟩ := canonical.exists_rfc4648
    have decoded : HttpProxy.Base64.decode (rfc4648 bindata) = bindata :=
      back bindata
    constructor
    · rw [decoded]
      exact encode_eq_rfc4648 bindata
    · intro again returned
      rw [show decode (rfc4648 bindata) = bindata from back bindata] at returned
      rw [encode_same returned]
      exact encode_eq_rfc4648 bindata

end Base64

end Universe
