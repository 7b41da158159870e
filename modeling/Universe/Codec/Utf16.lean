import Universe.Kernel
import Universe.Library.Unicode

/-!
# UTF-16

`Utf16` copies two bytes into a number of the host and swaps them where the
text has the other byte order.
-/

namespace Universe

/-- `Endian`, of `Utils`. -/
inductive Endian
  | Big
  | Little
  deriving DecidableEq, Repr

/-- The two bytes of a unit in this order. -/
def Endian.write : Endian → Nat → Bytes
  | .Big => Unicode.bigEndian 2
  | .Little => Unicode.littleEndian 2

namespace Utf16

/-- `memcpy` of two bytes into a number, on a host of this order. -/
def copied (host : Endian) (s : Bytes) (offset : Nat) : Nat :=
  let first := (s.getD offset 0).toNat
  let second := (s.getD (offset + 1) 0).toNat
  match host with
  | .Big => first * 256 + second
  | .Little => second * 256 + first

/-- `Utils::swap_endian`. -/
def swapEndian (twoBytes : Nat) : Nat := twoBytes % 256 * 256 + twoBytes / 256

/-- `two_bytes`, swapped unless the orders are the same. -/
def twoBytes (host endian : Endian) (s : Bytes) (offset : Nat) : Nat :=
  if endian = host then copied host s offset
  else swapEndian (copied host s offset)

/-- The byte order mark, as either host sees it. -/
def IsMark (twoBytes : Nat) : Prop := twoBytes = 0xFEFF ∨ twoBytes = 0xFFFE

instance (twoBytes : Nat) : Decidable (IsMark twoBytes) :=
  inferInstanceAs (Decidable (_ ∨ _))

/-- A character of one unit. -/
def IsWhole (twoBytes : Nat) : Prop := twoBytes ≤ 0xD7FF ∨ 0xE000 ≤ twoBytes

instance (twoBytes : Nat) : Decidable (IsWhole twoBytes) :=
  inferInstanceAs (Decidable (_ ∨ _))

/-- What `length` goes on with. -/
structure Count where
  n : Nat
  needLowSurrogate : Bool

/-- One unit of the text; `length` returns when it is not the one it needs. -/
def Count.take (count : Count) (twoBytes : Nat) : Option Count :=
  if count.needLowSurrogate then
    if 0xDC00 ≤ twoBytes ∧ twoBytes ≤ 0xDFFF then some ⟨count.n + 1, false⟩
    else none
  else if IsWhole twoBytes then some ⟨count.n + 1, false⟩
  else if 0xDBFF < twoBytes then none
  else some ⟨count.n, true⟩

/-- The loop of `length`, which takes two bytes at a time. -/
def lengthFrom (host endian : Endian) (s : Bytes) :
    (fuel offset : Nat) → Count → Nat
  | 0, _, count => count.n
  | fuel + 1, offset, count =>
      if offset + 2 < s.length then
        match count.take (twoBytes host endian s offset) with
        | none => count.n
        | some count => lengthFrom host endian s fuel (offset + 2) count
      else count.n

/-- `length<endian>`: the first unit is looked at for the mark, before it is
swapped, and then taken as the others are. -/
def length (host endian : Endian) (s : Bytes) : Nat :=
  if s.length < 2 then 0
  else if IsMark (copied host s 0) then
    lengthFrom host endian s s.length 2 ⟨0, false⟩
  else
    match Count.take ⟨0, false⟩ (twoBytes host endian s 0) with
    | none => 0
    | some count => lengthFrom host endian s s.length 2 count

/-- `decode_char_length<endian>`: the length and the offset it leaves.  The
unit is copied from the beginning of the text, also after `goto NEXT`. -/
def decodeCharLength (host endian : Endian) (s : Bytes) (offset : Nat) :
    Nat × Nat :=
  let first := twoBytes host endian s 0
  let charLength := if IsWhole first then 2 else 4
  if offset + 2 < s.length then
    if offset = 0 ∧ IsMark first then
      if 2 + 2 < s.length then (charLength + 2, 2) else (0, 2)
    else (charLength, offset)
  else (0, offset)

/-- `decode_char<endian>`: the bytes of the character, and the offset behind
it.  A character at the end of an odd text takes the byte behind the text with
it, which is zero. -/
def decodeChar (host endian : Endian) (s : Bytes) (offset : Nat) :
    Option (Bytes × Nat) :=
  match decodeCharLength host endian s offset with
  | (0, _) => none
  | (charLength, offset) =>
      some (((s ++ [0]).drop offset).take charLength, offset + charLength)

/-- The characters that repeated calls of `decode_char` yield, each with the
offset behind it. -/
def decodeChars (host endian : Endian) (s : Bytes) :
    (fuel offset : Nat) → List (Bytes × Nat)
  | 0, _ => []
  | fuel + 1, offset =>
      match decodeChar host endian s offset with
      | none => []
      | some (ch, offset) => (ch, offset) :: decodeChars host endian s fuel offset

def characters (host endian : Endian) (s : Bytes) : List (Bytes × Nat) :=
  decodeChars host endian s (s.length + 1) 0

/-- A text in UTF-16, with or without a mark before it. -/
def encoded (endian : Endian) (mark : Bool) (text : List Char) : Bytes :=
  (if mark then endian.write 0xFEFF else []) ++
    Unicode.utf16 endian.write text

end Utf16

end Universe
