import Mathlib.Data.Option.Basic
import Universe.StreamReader

/-!
# Base64

`Base64::encode`, which the handshake of `WebSocket` uses.  Its assertions hold
unless there is nothing to encode.
-/

namespace Universe

namespace Base64

def b64Table : Bytes :=
  ascii "ABCDEFGHIJKLMNOPQRSTUVWXYZabcdefghijklmnopqrstuvwxyz0123456789+/"

/-- `b64_table[bits & 0x3fu]`. -/
def digit (bits : UInt32) : UInt8 := b64Table.getD (bits &&& 0x3f).toNat 0

/-- The loop that takes six bits at a time, with what it leaves. -/
def emit (accumulator : UInt32) : (fuel bitsCollected : Nat) → Bytes × Nat
  | 0, bitsCollected => ([], bitsCollected)
  | fuel + 1, bitsCollected =>
      if 6 ≤ bitsCollected then
        let (out, left) := emit accumulator fuel (bitsCollected - 6)
        (digit (accumulator >>> UInt32.ofNat (bitsCollected - 6)) :: out, left)
      else ([], bitsCollected)

structure Encoder where
  accumulator : UInt32 := 0
  bitsCollected : Nat := 0
  out : Bytes := []

def Encoder.push (encoder : Encoder) (byte : UInt8) : Encoder :=
  let accumulator := (encoder.accumulator <<< 8) ||| byte.toUInt32
  let bitsCollected := encoder.bitsCollected + 8
  let (out, left) := emit accumulator bitsCollected bitsCollected
  { accumulator, bitsCollected := left, out := encoder.out ++ out }

/-- `encode`, unless one of its assertions ends the process. -/
def encode (bindata : Bytes) : Option Bytes := do
  let size := (bindata.length + 2) / 3 * 4
  let encoder := bindata.foldl Encoder.push {}
  guard (encoder.bitsCollected < 6)
  let out :=
    if 0 < encoder.bitsCollected then
      encoder.out ++ [digit
        (encoder.accumulator <<< UInt32.ofNat (6 - encoder.bitsCollected))]
    else encoder.out
  -- The difference is one of `size_t`.
  guard ((size + (2 ^ 64 - 2)) % 2 ^ 64 ≤ out.length)
  guard (out.length ≤ size)
  return out ++ List.replicate (size - out.length) 61

example : encode (ascii "hello") = some (ascii "aGVsbG8=") := by
  decide +kernel

theorem emit_size (accumulator : UInt32) {fuel bitsCollected : Nat}
    (enough : bitsCollected ≤ fuel) :
    (emit accumulator fuel bitsCollected).1.length = bitsCollected / 6 ∧
      (emit accumulator fuel bitsCollected).2 = bitsCollected % 6 := by
  induction fuel generalizing bitsCollected with
  | zero =>
      have none : bitsCollected = 0 := by omega
      subst none
      exact ⟨rfl, rfl⟩
  | succ fuel induction =>
      unfold emit
      split
      · next more =>
          obtain ⟨length, left⟩ :=
            induction (by omega : bitsCollected - 6 ≤ fuel)
          refine ⟨?_, ?_⟩
          · change (emit accumulator fuel (bitsCollected - 6)).1.length + 1 = _
            omega
          · change (emit accumulator fuel (bitsCollected - 6)).2 = _
            omega
      · next less =>
          refine ⟨?_, ?_⟩
          · change 0 = _
            omega
          · change bitsCollected = _
            omega

theorem push_size (encoder : Encoder) (byte : UInt8) :
    (encoder.push byte).out.length =
        encoder.out.length + (encoder.bitsCollected + 8) / 6 ∧
      (encoder.push byte).bitsCollected = (encoder.bitsCollected + 8) % 6 := by
  obtain ⟨emitted, left⟩ := emit_size
    ((encoder.accumulator <<< 8) ||| byte.toUInt32)
    (Nat.le_refl (encoder.bitsCollected + 8))
  constructor
  · rw [← emitted, ← List.length_append]
    rfl
  · rw [← left]
    rfl

/-- Six bits of the input are one byte of the output. -/
theorem foldl_push_size (bindata : Bytes) :
    (bindata.foldl Encoder.push {}).out.length = 8 * bindata.length / 6 ∧
      (bindata.foldl Encoder.push {}).bitsCollected = 8 * bindata.length % 6 := by
  have general : ∀ (bindata : Bytes) (encoder : Encoder) (count : Nat),
      encoder.out.length = 8 * count / 6 →
      encoder.bitsCollected = 8 * count % 6 →
      (bindata.foldl Encoder.push encoder).out.length =
          8 * (count + bindata.length) / 6 ∧
        (bindata.foldl Encoder.push encoder).bitsCollected =
          8 * (count + bindata.length) % 6 := by
    intro bindata
    induction bindata with
    | nil => exact fun encoder count length bits => ⟨length, bits⟩
    | cons byte bindata induction =>
        intro encoder count length bits
        obtain ⟨pushed, left⟩ := push_size encoder byte
        have next := induction (encoder.push byte) (count + 1)
          (by omega) (by omega)
        rw [List.length_cons, Nat.add_comm bindata.length 1, ← Nat.add_assoc]
        exact next
  have counted := general bindata {} 0 rfl rfl
  rwa [Nat.zero_add] at counted

/-- What has been stored before the padding; `outpos` is its length. -/
def Encoder.stored (encoder : Encoder) : Bytes :=
  if 0 < encoder.bitsCollected then
    encoder.out ++ [digit
      (encoder.accumulator <<< UInt32.ofNat (6 - encoder.bitsCollected))]
  else encoder.out

theorem stored_size (bindata : Bytes) :
    (bindata.foldl Encoder.push {}).stored.length =
      (8 * bindata.length + 5) / 6 := by
  obtain ⟨out, bits⟩ := foldl_push_size bindata
  unfold Encoder.stored
  split
  · next more =>
      rw [List.length_append, List.length_singleton, out]
      omega
  · next none =>
      rw [out]
      omega

theorem encode_eq_some {bindata text : Bytes} :
    encode bindata = some text ↔
      (bindata.foldl Encoder.push {}).bitsCollected < 6 ∧
      ((bindata.length + 2) / 3 * 4 + (2 ^ 64 - 2)) % 2 ^ 64 ≤
        (bindata.foldl Encoder.push {}).stored.length ∧
      (bindata.foldl Encoder.push {}).stored.length ≤
        (bindata.length + 2) / 3 * 4 ∧
      (bindata.foldl Encoder.push {}).stored ++ List.replicate
        ((bindata.length + 2) / 3 * 4 -
          (bindata.foldl Encoder.push {}).stored.length) 61 = text := by
  change (guard _ >>= fun _ => guard _ >>= fun _ => guard _ >>= fun _ =>
    some _) = some text ↔ _
  simp only [Option.bind_eq_bind, Option.bind_eq_some_iff,
    Option.guard_eq_some', exists_const, Option.some_inj]
  rfl

/-- The assertions hold, every byte is stored inside the text, and `encode`
returns, except for the empty string: two less than its length is the largest
`size_t`. -/
theorem assertions_hold (bindata : Bytes) :
    let encoder := bindata.foldl Encoder.push {}
    let outpos := encoder.stored.length
    let size := (bindata.length + 2) / 3 * 4
    (encoder.bitsCollected < 6 ∧ (size + (2 ^ 64 - 2)) % 2 ^ 64 ≤ outpos ∧
      outpos ≤ size ∧ (∀ position < outpos, position < size) ∧
      ∃ text, encode bindata = some text) ↔ bindata ≠ [] := by
  intro encoder outpos size
  have few : encoder.bitsCollected < 6 := by
    have bits := (foldl_push_size bindata).2
    have isLeft : encoder.bitsCollected = 8 * bindata.length % 6 := bits
    omega
  have stored : outpos = (8 * bindata.length + 5) / 6 := stored_size bindata
  have isSize : size = (bindata.length + 2) / 3 * 4 := rfl
  have within : outpos ≤ size := by omega
  constructor
  · rintro ⟨-, least, -, -, -⟩ rfl
    have none : outpos = 0 := stored
    have empty : size = 0 := isSize
    rw [none, empty] at least
    exact absurd least (by decide)
  · intro nonempty
    have some : 0 < bindata.length := List.length_pos_iff.mpr nonempty
    have two : 2 ≤ size := by omega
    have wraps : (size + (2 ^ 64 - 2)) % 2 ^ 64 = (size - 2) % 2 ^ 64 := by
      omega
    have near : size - 2 ≤ outpos := by omega
    have least : (size + (2 ^ 64 - 2)) % 2 ^ 64 ≤ outpos := by
      rw [wraps]
      exact Nat.le_trans (Nat.mod_le _ _) near
    refine ⟨few, least, within, ?_, _,
      encode_eq_some.mpr ⟨few, least, within, rfl⟩⟩
    intro position before
    exact Nat.lt_of_lt_of_le before within

/-- The process exits when there is nothing to encode. -/
theorem encode_empty : encode [] = none := by decide

end Base64

end Universe
