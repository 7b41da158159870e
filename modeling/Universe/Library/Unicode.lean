import Mathlib.Algebra.Group.Nat.Defs
import Mathlib.Data.List.Basic

/-!
# Encodings of Unicode texts

A text is a list of scalar values.  UTF-16 writes one or two units for each of
them, and UTF-32 the value itself, in either order of the bytes.
-/

namespace Unicode

/-- The lowest bytes of a number, the highest of them first. -/
def bigEndian : (width value : Nat) → List UInt8
  | 0, _ => []
  | width + 1, value =>
      UInt8.ofNat (value / 256 ^ width) :: bigEndian width value

/-- The lowest bytes of a number, the lowest of them first. -/
def littleEndian (width value : Nat) : List UInt8 :=
  (bigEndian width value).reverse

/-- What UTF-16 writes for a scalar value. -/
def units (scalar : Char) : List Nat :=
  if scalar.toNat < 0x10000 then [scalar.toNat]
  else [0xD800 + (scalar.toNat - 0x10000) / 0x400,
    0xDC00 + (scalar.toNat - 0x10000) % 0x400]

def utf8 (text : List Char) : List UInt8 := text.flatMap String.utf8EncodeChar

/-- UTF-16, where `write` puts a unit into its two bytes. -/
def utf16 (write : Nat → List UInt8) (text : List Char) : List UInt8 :=
  (text.flatMap units).flatMap write

/-- UTF-32, where `write` puts a scalar value into its four bytes. -/
def utf32 (write : Nat → List UInt8) (text : List Char) : List UInt8 :=
  text.flatMap fun scalar => write scalar.toNat

/-- The bytes begin with the UTF-8 sequence of a scalar value. -/
def StartsUtf8 (bytes : List UInt8) (scalar : Char) : Prop :=
  String.utf8EncodeChar scalar <+: bytes

/-- One unit that is no surrogate, or a high surrogate and a low one. -/
theorem units_cases (scalar : Char) :
    (units scalar = [scalar.toNat] ∧ scalar.toNat < 0x10000 ∧
        (scalar.toNat ≤ 0xD7FF ∨ 0xE000 ≤ scalar.toNat)) ∨
      ∃ high low, units scalar = [high, low] ∧ 0x10000 ≤ scalar.toNat ∧
        0xD800 ≤ high ∧ high ≤ 0xDBFF ∧ 0xDC00 ≤ low ∧ low ≤ 0xDFFF := by
  have valid : scalar.toNat < 0xD800 ∨
      0xDFFF < scalar.toNat ∧ scalar.toNat < 0x110000 := scalar.valid
  unfold units
  by_cases low : scalar.toNat < 0x10000
  · left
    refine ⟨if_pos low, low, ?_⟩
    omega
  · right
    refine ⟨_, _, if_neg low, ?_⟩
    omega

theorem length_units_pos (scalar : Char) : 0 < (units scalar).length := by
  unfold units
  split <;> simp

end Unicode
