import Mathlib.Data.List.GetD
import Universe.Codec.Utf16
import Universe.Codec.Utf8.Acceptance

/-!
# The encoding of a JSON text

`detect_encoding` looks at the first two bytes and at the last two.  A JSON
text begins and ends with an ASCII character, and the zeros around these tell
the encodings apart.
-/

namespace Universe

/-- `Encoding`, of `Utils`. -/
inductive Encoding
  | Utf8
  | Utf16LE
  | Utf16BE
  | Utf32LE
  | Utf32BE
  deriving DecidableEq, Repr

namespace Json

/-- `detect_encoding`. -/
def detectEncoding (jsonString : Bytes) : Encoding :=
  let length := jsonString.length
  if length < 2 then .Utf8
  else
    let firstChar := jsonString.getD 0 0
    let secondChar := jsonString.getD 1 0
    if firstChar = 0 ∧ secondChar = 0 then .Utf32BE
    else
      let lastChar := jsonString.getD (length - 1) 0
      let lastBut1Char := jsonString.getD (length - 2) 0
      if lastChar = 0 ∧ lastBut1Char = 0 then .Utf32LE
      else if firstChar ≠ 0 ∧ lastChar ≠ 0 then .Utf8
      else if lastChar ≠ 0 then .Utf16BE
      else .Utf16LE

/-- A text in this encoding, without a mark. -/
def encodedIn : Encoding → List Char → Bytes
  | .Utf8 => Unicode.utf8
  | .Utf16LE => Unicode.utf16 (Unicode.littleEndian 2)
  | .Utf16BE => Unicode.utf16 (Unicode.bigEndian 2)
  | .Utf32LE => Unicode.utf32 (Unicode.littleEndian 4)
  | .Utf32BE => Unicode.utf32 (Unicode.bigEndian 4)

/-- The characters of ASCII that are not U+0000. -/
def IsAscii (char : Char) : Prop := 0 < char.toNat ∧ char.toNat < 0x80

instance (char : Char) : Decidable (IsAscii char) :=
  inferInstanceAs (Decidable (_ ∧ _))

section Ends

variable {s rest start : Bytes} {first second : UInt8}

theorem getD_first (begins : s = first :: second :: rest) :
    s.getD 0 0 = first ∧ s.getD 1 0 = second := by
  rw [begins]
  exact ⟨rfl, rfl⟩

theorem getD_last (ends : s = start ++ [first, second]) :
    s.getD (s.length - 2) 0 = first ∧ s.getD (s.length - 1) 0 = second := by
  have size : s.length = start.length + 2 := by
    rw [ends, List.length_append]
    rfl
  rw [size, ends]
  constructor
  · rw [List.getD_append_right _ _ _ _ (by omega)]
    rw [show start.length + 2 - 2 - start.length = 0 by omega]
    rfl
  · rw [List.getD_append_right _ _ _ _ (by omega)]
    rw [show start.length + 2 - 1 - start.length = 1 by omega]
    rfl

/-- The first two bytes and the last two decide. -/
theorem detectEncoding_eq {other final : UInt8} {others : Bytes}
    (begins : s = first :: second :: rest)
    (ends : s = others ++ [other, final]) :
    detectEncoding s =
      if first = 0 ∧ second = 0 then .Utf32BE
      else if final = 0 ∧ other = 0 then .Utf32LE
      else if first ≠ 0 ∧ final ≠ 0 then .Utf8
      else if final ≠ 0 then .Utf16BE
      else .Utf16LE := by
  obtain ⟨isFirst, isSecond⟩ := getD_first begins
  obtain ⟨isOther, isFinal⟩ := getD_last ends
  have enough : ¬ s.length < 2 := by
    rw [begins, List.length_cons, List.length_cons]
    omega
  unfold detectEncoding
  simp only
  rw [if_neg enough, isFirst, isSecond, isOther, isFinal]

end Ends

section Texts

variable {text : List Char} {first last : Char}

/-- What is written for the first character, and for the last one. -/
theorem flatMap_ends (write : Char → Bytes) (isFirst : text.head? = some first)
    (isLast : text.getLast? = some last) :
    (∃ rest, text.flatMap write = write first ++ rest) ∧
      ∃ start, text.flatMap write = start ++ write last := by
  constructor
  · obtain ⟨rest, rfl⟩ := List.head?_eq_some_iff.mp isFirst
    exact ⟨rest.flatMap write, List.flatMap_cons⟩
  · obtain ⟨start, rfl⟩ := List.getLast?_eq_some_iff.mp isLast
    refine ⟨start.flatMap write, ?_⟩
    rw [List.flatMap_append, List.flatMap_singleton]

theorem ofNat_ne_zero {char : Char} (ascii : IsAscii char) :
    UInt8.ofNat char.toNat ≠ 0 := by
  intro zero
  have value : (UInt8.ofNat char.toNat).toNat = char.toNat := by
    rw [UInt8.toNat_ofNat']
    exact Nat.mod_eq_of_lt (Nat.lt_trans ascii.2 (by decide))
  rw [zero] at value
  exact absurd value (Nat.ne_of_lt ascii.1)

theorem units_ascii {char : Char} (ascii : IsAscii char) :
    Unicode.units char = [char.toNat] :=
  if_pos (Nat.lt_trans ascii.2 (by decide))

theorem bytes_ascii {char : Char} (ascii : IsAscii char) :
    Unicode.bigEndian 4 char.toNat = [0, 0, 0, UInt8.ofNat char.toNat] ∧
      Unicode.bigEndian 2 char.toNat = [0, UInt8.ofNat char.toNat] := by
  have small : char.toNat < 128 := ascii.2
  have none : ∀ power, 0 < power → char.toNat / 256 ^ power = 0 := by
    intro power some
    apply Nat.div_eq_of_lt
    calc char.toNat < 256 ^ 1 := by omega
      _ ≤ 256 ^ power := Nat.pow_le_pow_right (by decide) some
  have least : char.toNat / 256 ^ 0 = char.toNat := Nat.div_one _
  constructor
  · unfold Unicode.bigEndian Unicode.bigEndian Unicode.bigEndian
      Unicode.bigEndian Unicode.bigEndian
    rw [none 3 (by decide), none 2 (by decide), none 1 (by decide), least]
    rfl
  · unfold Unicode.bigEndian Unicode.bigEndian Unicode.bigEndian
    rw [none 1 (by decide), least]
    rfl

/-- What an encoding writes for a character of ASCII. -/
def written : Encoding → UInt8 → Bytes
  | .Utf8, byte => [byte]
  | .Utf16LE, byte => [byte, 0]
  | .Utf16BE, byte => [0, byte]
  | .Utf32LE, byte => [byte, 0, 0, 0]
  | .Utf32BE, byte => [0, 0, 0, byte]

/-- A text begins and ends with what is written for its ends. -/
theorem encodedIn_ends (encoding : Encoding)
    (isFirst : text.head? = some first) (isLast : text.getLast? = some last)
    (firstAscii : IsAscii first) (lastAscii : IsAscii last) :
    (∃ rest, encodedIn encoding text =
        written encoding (UInt8.ofNat first.toNat) ++ rest) ∧
      ∃ start, encodedIn encoding text =
        start ++ written encoding (UInt8.ofNat last.toNat) := by
  have general : ∀ write : Char → Bytes,
      encodedIn encoding text = text.flatMap write →
      (∀ char, IsAscii char →
        write char = written encoding (UInt8.ofNat char.toNat)) →
      (∃ rest, encodedIn encoding text =
          written encoding (UInt8.ofNat first.toNat) ++ rest) ∧
        ∃ start, encodedIn encoding text =
          start ++ written encoding (UInt8.ofNat last.toNat) := by
    intro write isText isWritten
    rw [isText, ← isWritten first firstAscii, ← isWritten last lastAscii]
    exact flatMap_ends write isFirst isLast
  cases encoding with
  | Utf8 =>
      apply general String.utf8EncodeChar rfl
      intro char ascii
      have small : char.val.toNat ≤ 0x7f := Nat.le_of_lt_succ ascii.2
      exact if_pos small
  | Utf16LE =>
      apply general fun char =>
        (Unicode.units char).flatMap (Unicode.littleEndian 2)
      · exact List.flatMap_assoc
      · intro char ascii
        rw [units_ascii ascii, List.flatMap_singleton]
        unfold Unicode.littleEndian
        rw [(bytes_ascii ascii).2]
        rfl
  | Utf16BE =>
      apply general fun char =>
        (Unicode.units char).flatMap (Unicode.bigEndian 2)
      · exact List.flatMap_assoc
      · intro char ascii
        rw [units_ascii ascii, List.flatMap_singleton, (bytes_ascii ascii).2]
        rfl
  | Utf32LE =>
      apply general (fun char => Unicode.littleEndian 4 char.toNat) rfl
      intro char ascii
      unfold Unicode.littleEndian
      rw [(bytes_ascii ascii).1]
      rfl
  | Utf32BE =>
      apply general (fun char => Unicode.bigEndian 4 char.toNat) rfl
      intro char ascii
      exact (bytes_ascii ascii).1

/-- The byte at the very end. -/
theorem getD_final {s start : Bytes} {byte : UInt8}
    (ends : s = start ++ [byte]) : s.getD (s.length - 1) 0 = byte := by
  have size : s.length - 1 = start.length := by
    rw [ends, List.length_append]
    rfl
  rw [size, ends, List.getD_append_right _ _ _ _ (Nat.le_refl _), Nat.sub_self]
  rfl

/-- Whatever stands between the first and the last character. -/
theorem detectEncoding_encodedIn (encoding : Encoding)
    (isFirst : text.head? = some first) (isLast : text.getLast? = some last)
    (firstAscii : IsAscii first) (lastAscii : IsAscii last) :
    detectEncoding (encodedIn encoding text) = encoding := by
  have firstByte := ofNat_ne_zero firstAscii
  have lastByte := ofNat_ne_zero lastAscii
  obtain ⟨⟨rest, begins⟩, start, ends⟩ :=
    encodedIn_ends encoding isFirst isLast firstAscii lastAscii
  cases encoding with
  | Utf8 =>
      have isFinal := getD_final ends
      have isStart : (encodedIn .Utf8 text).getD 0 0 =
          UInt8.ofNat first.toNat := by
        rw [begins]
        rfl
      unfold detectEncoding
      simp only
      split
      · rfl
      · rw [isStart, isFinal, if_neg fun zeros => firstByte zeros.1,
          if_neg fun zeros => lastByte zeros.1, if_pos ⟨firstByte, lastByte⟩]
  | Utf16LE =>
      rw [detectEncoding_eq begins ends, if_neg fun zeros => firstByte zeros.1,
        if_neg fun zeros => lastByte zeros.2,
        if_neg fun neither => neither.2 rfl, if_neg fun zero => zero rfl]
  | Utf16BE =>
      rw [detectEncoding_eq begins ends, if_neg fun zeros => firstByte zeros.2,
        if_neg fun zeros => lastByte zeros.1,
        if_neg fun neither => neither.1 rfl, if_pos lastByte]
  | Utf32LE =>
      have tail : encodedIn .Utf32LE text =
          (start ++ [UInt8.ofNat last.toNat, 0]) ++ [0, 0] := by
        rw [ends, List.append_assoc]
        rfl
      rw [detectEncoding_eq begins tail, if_neg fun zeros => firstByte zeros.1,
        if_pos ⟨rfl, rfl⟩]
  | Utf32BE =>
      have tail : encodedIn .Utf32BE text =
          (start ++ [0, 0]) ++ [0, UInt8.ofNat last.toNat] := by
        rw [ends, List.append_assoc]
        rfl
      rw [detectEncoding_eq begins tail, if_pos ⟨rfl, rfl⟩]

theorem detectEncoding_encodedIn_digit :
    detectEncoding (encodedIn .Utf16LE ['1']) = .Utf16LE :=
  @detectEncoding_encodedIn ['1'] '1' '1' .Utf16LE rfl rfl (by decide)
    (by decide)

end Texts

end Json

end Universe
