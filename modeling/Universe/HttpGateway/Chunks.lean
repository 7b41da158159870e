import Universe.HttpGateway.Response

/-!
# Chunks and their sizes

What `parse_chunked_body` reads is a sequence of rounds, each with a line whose
number `hex2long` finds, and so many bytes.  Chunks whose sizes are hexadecimal
numbers are read back.  Other lines are not refused: some are read as zero,
which ends the body.
-/

namespace Universe

open Incremental StreamReader

namespace Utils

/-- The hexadecimal digits a line begins with. -/
def sizeDigits (line : Bytes) : Bytes :=
  line.takeWhile fun byte => (hexDigit byte).isSome

/-- The number that hexadecimal digits denote. -/
def hexValue (digits : Bytes) : Nat :=
  digits.foldl (fun value byte => 16 * value + (hexDigit byte).getD 0) 0

/-- `>>` skips `0x` before a hexadecimal number. -/
def Prefixed (line : Bytes) : Prop :=
  ascii "0x" <+: line ∨ ascii "0X" <+: line

theorem hexDigit_plain {byte : UInt8} (digit : (hexDigit byte).isSome) :
    isSpace byte = false ∧ byte ≠ 45 ∧ byte ≠ 43 ∧ byte ≠ 13 ∧ byte ≠ 120 ∧
      byte ≠ 88 := by
  have bounds : 48 ≤ byte.toNat ∧ byte.toNat ≤ 57 ∨
      65 ≤ byte.toNat ∧ byte.toNat ≤ 70 ∨
      97 ≤ byte.toNat ∧ byte.toNat ≤ 102 := by
    unfold hexDigit at digit
    simp only [Bool.and_eq_true, decide_eq_true_eq, UInt8.le_iff_toNat_le]
      at digit
    split at digit
    · next decimal => exact .inl decimal
    · split at digit
      · next capital => exact .inr (.inl capital)
      · split at digit
        · next small => exact .inr (.inr small)
        · cases digit
  simp only [isSpace, UInt8.le_iff_toNat_le, ne_eq, ← UInt8.toNat_inj]
  refine ⟨?_, ?_, ?_, ?_, ?_, ?_⟩
  · simp
    omega
  all_goals
    intro same
    simp at same
    omega

theorem digit_of_begins {byte : UInt8} {rest : Bytes}
    (begins : sizeDigits (byte :: rest) ≠ []) : (hexDigit byte).isSome := by
  by_contra other
  apply begins
  exact List.takeWhile_cons_of_neg other

/-- A line that begins with digits is read as what they denote. -/
theorem hex2long_eq {line : Bytes} (begins : sizeDigits line ≠ [])
    (plain : ¬ Prefixed line) (fits : hexValue (sizeDigits line) < 2 ^ 64) :
    hex2long line = some (hexValue (sizeDigits line)) := by
  cases line with
  | nil => exact absurd rfl begins
  | cons byte rest =>
      obtain ⟨unspaced, notMinus, notPlus, -⟩ :=
        hexDigit_plain (digit_of_begins begins)
      have signed : (byte :: rest).dropWhile isSpace = byte :: rest :=
        List.dropWhile_cons_of_neg (by simp [unspaced])
      have unprefixed : ((ascii "0x").isPrefixOf (byte :: rest) ||
          (ascii "0X").isPrefixOf (byte :: rest)) = false := by
        apply Bool.eq_false_iff.mpr
        intro marked
        apply plain
        simpa [Prefixed] using marked
      unfold hex2long
      simp only [signed, List.isEmpty_cons, Bool.false_eq_true, if_false,
        List.head?_cons, Option.some_beq_some, notMinus, notPlus,
        beq_eq_false_iff_ne.mpr, ne_eq, not_false_eq_true, Bool.or_self,
        unprefixed]
      have small : ¬ 2 ^ 64 ≤ hexValue (sizeDigits (byte :: rest)) := by omega
      exact if_neg small

/-- Something is read of a line that begins with a digit. -/
theorem hex2long_ne_none {line : Bytes} (begins : sizeDigits line ≠ []) :
    hex2long line ≠ none := by
  have always : ∀ (overflow negative : Prop) [Decidable overflow]
      [Decidable negative] (largest wrapped value : Nat),
      (if overflow then some largest
        else if negative then some wrapped else some value) ≠ none := by
    intro overflow negative _ _ largest wrapped value
    split
    · exact Option.some_ne_none _
    · split
      · exact Option.some_ne_none _
      · exact Option.some_ne_none _
  cases line with
  | nil => exact absurd rfl begins
  | cons byte rest =>
      have unspaced := (hexDigit_plain (digit_of_begins begins)).1
      have signed : (byte :: rest).dropWhile isSpace = byte :: rest :=
        List.dropWhile_cons_of_neg (by simp [unspaced])
      unfold hex2long
      rw [signed]
      exact always _ _ _ _ _

/-- A line that begins with a hexadecimal number that fits. -/
def WellFormed (line : Bytes) : Prop :=
  sizeDigits line ≠ [] ∧ hexValue (sizeDigits line) < 2 ^ 64

end Utils

namespace Http

/-- A round of the loop that goes on: a line of which `hex2long` makes the
number of the bytes. -/
structure Round where
  line : Bytes
  data : Bytes
  unbroken : 13 ∉ line
  announced : Utils.hex2long line = some data.length
  nonempty : data ≠ []

def Round.text (round : Round) : Bytes :=
  round.line ++ ascii "\r\n" ++ round.data ++ ascii "\r\n"

/-- The last round, in which nothing is read. -/
structure Closing where
  line : Bytes
  unbroken : 13 ∉ line
  announced : Utils.hex2long line = some 0

def Closing.text (closing : Closing) : Bytes :=
  closing.line ++ ascii "\r\n" ++ ascii "\r\n"

/-- A line, or the bytes that it announces, are not followed by `CRLF`. -/
def Refused (left : Bytes) : Prop :=
  ∃ line, 13 ∉ line ∧ ∃ length, Utils.hex2long line = some length ∧
    ((∃ byte rest, left = line ++ 13 :: byte :: rest ∧ byte ≠ 10) ∨
      ∃ data wrong rest, left = line ++ ascii "\r\n" ++ data ++ wrong ++ rest ∧
        data.length = length ∧ wrong.length = 2 ∧ wrong ≠ ascii "\r\n")

theorem crlf_eq : ascii "\r\n" = [13, 10] := by decide

theorem readLine_eq_ok {left line after : Bytes} :
    readUntil (ascii "\r") false left = .ok (line, after) ↔
      13 ∉ line ∧ ∃ rest, left = line ++ 13 :: rest ∧ after = 13 :: rest := by
  rw [readUntil_eq_ok]
  constructor
  · intro ⟨byte, rest, whole, stops, skips, same⟩
    have isCr : byte = 13 := List.mem_singleton.mp stops
    subst isCr
    refine ⟨?_, rest, whole, same⟩
    intro member
    exact skips 13 member (List.mem_singleton.mpr rfl)
  · intro ⟨unbroken, rest, whole, same⟩
    refine ⟨13, rest, whole, List.mem_singleton.mpr rfl, ?_, same⟩
    intro skipped member stops
    have isCr : skipped = 13 := List.mem_singleton.mp stops
    subst isCr
    exact unbroken member

/-- The rest of a round, behind the line with the length. -/
def afterLine (body : Bytes) (length : Nat) :
    StreamReader (Bytes ⊕ Option Bytes) := do
  readCrlf
  let chunk ← (if 0 < length then readSize length else pure [])
  readCrlf
  if length = 0 then return .inr (some body) else return .inl (body ++ chunk)

theorem parseChunk_eq (body : Bytes) :
    parseChunk body = readUntil (ascii "\r") false >>= fun line =>
      (Utils.hex2long line).elim (pure (.inr none)) (afterLine body) := by
  funext left
  refine congrFun ?_ left
  refine congrArg (readUntil (ascii "\r") false >>= ·) ?_
  funext line
  cases Utils.hex2long line with
  | none => rfl
  | some length => rfl

theorem afterLine_eq_ok {body after rest : Bytes} {length : Nat}
    {outcome : Bytes ⊕ Option Bytes} :
    afterLine body length after = .ok (outcome, rest) ↔
      ∃ data, after = ascii "\r\n" ++ data ++ ascii "\r\n" ++ rest ∧
        data.length = length ∧
        outcome =
          if length = 0 then .inr (some body) else .inl (body ++ data) := by
  unfold afterLine
  rw [bind_eq_ok]
  constructor
  · intro ⟨_, between, first, beyond⟩
    obtain ⟨chunk, later, read, behind⟩ := bind_eq_ok.mp beyond
    obtain ⟨_, last, second, returned⟩ := bind_eq_ok.mp behind
    have whole := readCrlf_eq_ok.mp first
    have ends := readCrlf_eq_ok.mp second
    have taken : between = chunk ++ later ∧ chunk.length = length := by
      split at read
      · exact readSize_eq_ok.mp read
      · obtain ⟨rfl, rfl⟩ := pure_eq_ok.mp read
        exact ⟨rfl, by simp only [List.length_nil]; omega⟩
    obtain ⟨rfl, isLength⟩ := taken
    subst ends
    refine ⟨chunk, ?_, isLength, ?_⟩
    · split at returned
      · obtain ⟨-, rfl⟩ := pure_eq_ok.mp returned
        simpa using whole
      · obtain ⟨-, rfl⟩ := pure_eq_ok.mp returned
        simpa using whole
    · split at returned
      · next none =>
          rw [if_pos none]
          exact (pure_eq_ok.mp returned).1.symm
      · next more =>
          rw [if_neg more]
          exact (pure_eq_ok.mp returned).1.symm
  · intro ⟨data, whole, isLength, same⟩
    subst whole
    refine ⟨(), data ++ ascii "\r\n" ++ rest,
      readCrlf_eq_ok.mpr (by simp), ?_⟩
    refine bind_eq_ok.mpr ⟨data, ascii "\r\n" ++ rest, ?_, ?_⟩
    · split
      · exact readSize_eq_ok.mpr ⟨by simp, isLength⟩
      · have none : data = [] := List.length_eq_zero_iff.mp (by omega)
        subst none
        rfl
    · refine bind_eq_ok.mpr ⟨(), rest, readCrlf_eq_ok.mpr rfl, ?_⟩
      rw [same]
      split
      · rfl
      · rfl

theorem readCrlf_eq_ng {left : Bytes} :
    readCrlf left = .error .ng ↔
      ∃ wrong rest, left = wrong ++ rest ∧ wrong.length = 2 ∧
        wrong ≠ ascii "\r\n" := by
  unfold readCrlf
  rw [bind_eq_error]
  constructor
  · intro stopped
    rcases stopped with short | ⟨wrong, rest, read, checked⟩
    · unfold readSize at short
      split at short <;> cases short
    · obtain ⟨whole, length⟩ := readSize_eq_ok.mp read
      refine ⟨wrong, rest, whole, length, ?_⟩
      intro same
      rw [same] at checked
      cases checked
  · intro ⟨wrong, rest, whole, length, different⟩
    refine .inr ⟨wrong, rest, readSize_eq_ok.mpr ⟨whole, length⟩, ?_⟩
    have wrongly : (wrong != ascii "\r\n") = true := by simpa using different
    rw [wrongly]
    rfl

theorem afterLine_eq_ng {body after : Bytes} {length : Nat} :
    afterLine body length after = .error .ng ↔
      (∃ wrong rest, after = wrong ++ rest ∧ wrong.length = 2 ∧
        wrong ≠ ascii "\r\n") ∨
      ∃ data wrong rest, after = ascii "\r\n" ++ data ++ wrong ++ rest ∧
        data.length = length ∧ wrong.length = 2 ∧ wrong ≠ ascii "\r\n" := by
  unfold afterLine
  rw [bind_eq_error, readCrlf_eq_ng]
  refine or_congr Iff.rfl ?_
  constructor
  · intro ⟨_, between, first, beyond⟩
    have whole := readCrlf_eq_ok.mp first
    rcases bind_eq_error.mp beyond with short | ⟨chunk, later, read, behind⟩
    · split at short
      · unfold readSize at short
        split at short <;> cases short
      · cases short
    · have taken : between = chunk ++ later ∧ chunk.length = length := by
        split at read
        · exact readSize_eq_ok.mp read
        · obtain ⟨rfl, rfl⟩ := pure_eq_ok.mp read
          exact ⟨rfl, by simp only [List.length_nil]; omega⟩
      obtain ⟨isBetween, isLength⟩ := taken
      rcases bind_eq_error.mp behind with wrongly | ⟨_, last, second, never⟩
      · obtain ⟨wrong, rest, isLater, two, different⟩ :=
          readCrlf_eq_ng.mp wrongly
        refine ⟨chunk, wrong, rest, ?_, isLength, two, different⟩
        rw [whole, isBetween, isLater]
        simp only [List.append_assoc]
      · split at never <;> cases never
  · intro ⟨data, wrong, rest, whole, isLength, two, different⟩
    refine ⟨(), data ++ (wrong ++ rest),
      readCrlf_eq_ok.mpr (by simp [whole]), ?_⟩
    refine bind_eq_error.mpr (.inr ⟨data, wrong ++ rest, ?_, ?_⟩)
    · split
      · exact readSize_eq_ok.mpr ⟨rfl, isLength⟩
      · have none : data = [] := List.length_eq_zero_iff.mp (by omega)
        subst none
        rfl
    · exact bind_eq_error.mpr
        (.inl (readCrlf_eq_ng.mpr ⟨wrong, rest, rfl, two, different⟩))

/-- A round that goes on. -/
theorem parseChunk_eq_next {body left next rest : Bytes} :
    parseChunk body left = .ok (.inl next, rest) ↔
      ∃ round : Round, left = round.text ++ rest ∧
        next = body ++ round.data := by
  rw [parseChunk_eq, bind_eq_ok]
  constructor
  · intro ⟨line, after, read, returned⟩
    obtain ⟨unbroken, tail, whole, isAfter⟩ := readLine_eq_ok.mp read
    cases announced : Utils.hex2long line with
    | none =>
        rw [announced] at returned
        cases returned
    | some length =>
        rw [announced] at returned
        obtain ⟨data, follows, isLength, outcome⟩ := afterLine_eq_ok.mp returned
        by_cases none : length = 0
        · rw [if_pos none] at outcome
          cases outcome
        · rw [if_neg none] at outcome
          cases outcome
          have nonempty : data ≠ [] := by
            intro empty
            rw [empty] at isLength
            exact none isLength.symm
          refine ⟨⟨line, data, unbroken, by rw [announced, isLength],
            nonempty⟩, ?_, rfl⟩
          rw [whole, ← isAfter, follows]
          simp [Round.text]
  · intro ⟨round, whole, same⟩
    refine ⟨round.line, ascii "\r\n" ++ round.data ++ ascii "\r\n" ++ rest,
      readLine_eq_ok.mpr ⟨round.unbroken,
        10 :: (round.data ++ ascii "\r\n" ++ rest), ?_, rfl⟩, ?_⟩
    · rw [whole]
      simp [Round.text, crlf_eq]
    · rw [round.announced]
      have some : round.data.length ≠ 0 := by
        simpa using round.nonempty
      refine afterLine_eq_ok.mpr ⟨round.data, rfl, rfl, ?_⟩
      rw [if_neg some, same]

/-- The last round. -/
theorem parseChunk_eq_last {body left whole rest : Bytes} :
    parseChunk body left = .ok (.inr (some whole), rest) ↔
      whole = body ∧ ∃ closing : Closing, left = closing.text ++ rest := by
  rw [parseChunk_eq, bind_eq_ok]
  constructor
  · intro ⟨line, after, read, returned⟩
    obtain ⟨unbroken, tail, isLeft, isAfter⟩ := readLine_eq_ok.mp read
    cases announced : Utils.hex2long line with
    | none =>
        rw [announced] at returned
        cases returned
    | some length =>
        rw [announced] at returned
        obtain ⟨data, follows, isLength, outcome⟩ := afterLine_eq_ok.mp returned
        by_cases none : length = 0
        · rw [if_pos none] at outcome
          cases outcome
          subst none
          have empty : data = [] := List.length_eq_zero_iff.mp isLength
          refine ⟨rfl, ⟨line, unbroken, announced⟩, ?_⟩
          rw [isLeft, ← isAfter, follows, empty]
          simp [Closing.text]
        · rw [if_neg none] at outcome
          cases outcome
  · intro ⟨same, closing, isLeft⟩
    refine ⟨closing.line, ascii "\r\n" ++ ascii "\r\n" ++ rest,
      readLine_eq_ok.mpr ⟨closing.unbroken,
        10 :: (ascii "\r\n" ++ rest), ?_, rfl⟩, ?_⟩
    · rw [isLeft]
      simp [Closing.text, crlf_eq]
    · rw [closing.announced]
      refine afterLine_eq_ok.mpr ⟨[], by simp, rfl, ?_⟩
      rw [same]
      rfl

theorem parseChunk_eq_ng {body left : Bytes} :
    parseChunk body left = .error .ng ↔ Refused left := by
  rw [parseChunk_eq, bind_eq_error]
  constructor
  · intro stopped
    rcases stopped with early | ⟨line, after, read, refused⟩
    · unfold readUntil at early
      split at early <;> cases early
    · obtain ⟨unbroken, tail, isLeft, isAfter⟩ := readLine_eq_ok.mp read
      cases announced : Utils.hex2long line with
      | none =>
          rw [announced] at refused
          cases refused
      | some length =>
          rw [announced] at refused
          refine ⟨line, unbroken, length, announced, ?_⟩
          rcases afterLine_eq_ng.mp refused with
            ⟨wrong, rest, follows, two, different⟩ |
            ⟨data, wrong, rest, follows, isLength, two, different⟩
          · rw [isAfter] at follows
            obtain ⟨first, second, rfl⟩ := List.length_eq_two.mp two
            obtain ⟨rfl, isTail⟩ := List.cons.inj follows
            refine .inl ⟨second, rest, by rw [isLeft, isTail]; rfl, ?_⟩
            intro isLf
            exact different (by rw [isLf, crlf_eq])
          · refine .inr ⟨data, wrong, rest, ?_, isLength, two, different⟩
            rw [isLeft, ← isAfter, follows]
            simp only [List.append_assoc]
  · intro ⟨line, unbroken, length, announced, behind⟩
    rcases behind with ⟨byte, rest, isLeft, different⟩ |
      ⟨data, wrong, rest, isLeft, isLength, two, different⟩
    · refine .inr ⟨line, 13 :: byte :: rest,
        readLine_eq_ok.mpr ⟨unbroken, _, isLeft, rfl⟩, ?_⟩
      rw [announced]
      refine afterLine_eq_ng.mpr (.inl ⟨[13, byte], rest, rfl, rfl, ?_⟩)
      intro same
      rw [crlf_eq] at same
      exact different (by simpa using same)
    · refine .inr ⟨line, ascii "\r\n" ++ data ++ wrong ++ rest,
        readLine_eq_ok.mpr ⟨unbroken, 10 :: (data ++ wrong ++ rest), ?_, rfl⟩,
        ?_⟩
      · rw [isLeft]
        simp [crlf_eq]
      · rw [announced]
        exact afterLine_eq_ng.mpr
          (.inr ⟨data, wrong, rest, rfl, isLength, two, different⟩)

/-- Every round takes something off the message. -/
theorem parseChunk_advances {body left next rest : Bytes}
    (returned : parseChunk body left = .ok (.inl next, rest)) :
    rest.length < left.length := by
  obtain ⟨round, whole, -⟩ := parseChunk_eq_next.mp returned
  rw [whole, List.length_append, Round.text]
  simp only [List.length_append, crlf_eq, List.length_cons, List.length_nil]
  omega

/-- The rounds are read off the front of the message. -/
theorem reaches_iff {before input body left : Bytes} :
    Reaches parseChunk before input body left ↔
      ∃ rounds : List Round, input = rounds.flatMap Round.text ++ left ∧
        body = before ++ rounds.flatMap Round.data := by
  constructor
  · intro reached
    induction reached with
    | start => exact ⟨[], rfl, (List.append_nil before).symm⟩
    | round _ returned induction =>
        obtain ⟨rounds, whole, isBody⟩ := induction
        obtain ⟨round, isLeft, isNext⟩ := parseChunk_eq_next.mp returned
        refine ⟨rounds ++ [round], ?_, ?_⟩
        · rw [whole, isLeft]
          simp
        · rw [isNext, isBody]
          simp
  · intro ⟨rounds, whole, isBody⟩
    subst whole
    subst isBody
    induction rounds generalizing before with
    | nil =>
        rw [List.flatMap_nil, List.flatMap_nil, List.append_nil]
        exact .start
    | cons round rounds induction =>
        have first : Reaches parseChunk before
            ((round :: rounds).flatMap Round.text ++ left)
            (before ++ round.data) (rounds.flatMap Round.text ++ left) := by
          refine Reaches.start.round (parseChunk_eq_next.mpr ⟨round, ?_, rfl⟩)
          rw [List.flatMap_cons, List.append_assoc]
        rw [List.flatMap_cons (f := Round.data), ← List.append_assoc]
        exact first.trans induction

/-- `parse_chunked_body` for a response with this body so far. -/
def appendChunkedBody (body : Bytes) : StreamReader (Option Bytes) :=
  iterate .ag parseChunk body

example : parseChunkedBody = appendChunkedBody [] := rfl

/-- A line with a size in hexadecimal, and perhaps an extension. -/
structure SizeLine where
  digits : Bytes
  extension : Bytes
  nonempty : digits ≠ []
  hexadecimal : ∀ byte ∈ digits, (Utils.hexDigit byte).isSome
  begins : extension = [] ∨ ∃ rest, extension = 59 :: rest
  unbroken : 13 ∉ extension

namespace SizeLine

def size (line : SizeLine) : Nat := Utils.hexValue line.digits

def text (line : SizeLine) : Bytes := line.digits ++ line.extension

theorem sizeDigits_text (line : SizeLine) :
    Utils.sizeDigits line.text = line.digits := by
  have stops : line.extension.takeWhile
      (fun byte => (Utils.hexDigit byte).isSome) = [] := by
    rcases line.begins with none | ⟨rest, some⟩
    · rw [none]
      rfl
    · rw [some]
      exact List.takeWhile_cons_of_neg (by decide)
  unfold Utils.sizeDigits text
  rw [List.takeWhile_append_of_pos line.hexadecimal, stops, List.append_nil]

theorem not_mem_text (line : SizeLine) : 13 ∉ line.text := by
  intro member
  rcases List.mem_append.mp member with digit | extension
  · have plain := Utils.hexDigit_plain (line.hexadecimal 13 digit)
    exact plain.2.2.2.1 rfl
  · exact line.unbroken extension

/-- `x` is neither a digit nor the begin of an extension. -/
theorem not_prefixed (line : SizeLine) : ¬ Utils.Prefixed line.text := by
  have second : ∀ first byte rest, line.text = first :: byte :: rest →
      byte ≠ 120 ∧ byte ≠ 88 := by
    intro first byte rest whole
    obtain ⟨digit, digits, isDigits⟩ := List.exists_cons_of_ne_nil line.nonempty
    have tail : digits ++ line.extension = byte :: rest := by
      unfold text at whole
      rw [isDigits] at whole
      exact (List.cons.inj whole).2
    cases digits with
    | nil =>
        rcases line.begins with none | ⟨others, some⟩
        · rw [none] at tail
          cases tail
        · rw [some] at tail
          cases tail
          decide
    | cons other digits =>
        obtain ⟨rfl, -⟩ := List.cons.inj tail
        have hexadecimal := line.hexadecimal other (by simp [isDigits])
        exact (Utils.hexDigit_plain hexadecimal).2.2.2.2
  intro begins
  rcases begins with ⟨rest, whole⟩ | ⟨rest, whole⟩
  · exact (second 48 120 rest whole.symm).1 rfl
  · exact (second 48 88 rest whole.symm).2 rfl

theorem hex2long_text (line : SizeLine) (fits : line.size < 2 ^ 64) :
    Utils.hex2long line.text = some line.size := by
  have digits := line.sizeDigits_text
  have read := @Utils.hex2long_eq line.text
    (by rw [digits]; exact line.nonempty) line.not_prefixed
    (by rw [digits]; exact fits)
  rw [digits] at read
  exact read

end SizeLine

/-- Bytes with their size in front, which is a `size_t`. -/
structure Chunk where
  line : SizeLine
  data : Bytes
  nonempty : data ≠ []
  announced : line.size = data.length
  fits : data.length < 2 ^ 64

def Chunk.text (chunk : Chunk) : Bytes :=
  chunk.line.text ++ ascii "\r\n" ++ chunk.data ++ ascii "\r\n"

/-- The chunks of a body, and the empty one behind them. -/
def chunkedText (chunks : List Chunk) (zero : SizeLine) : Bytes :=
  chunks.flatMap Chunk.text ++ zero.text ++ ascii "\r\n" ++ ascii "\r\n"

def Chunk.round (chunk : Chunk) : Round where
  line := chunk.line.text
  data := chunk.data
  unbroken := chunk.line.not_mem_text
  announced := by
    rw [chunk.line.hex2long_text (by rw [chunk.announced]; exact chunk.fits),
      chunk.announced]
  nonempty := chunk.nonempty

/-- What has been written as chunks is read back, and nothing behind it is
touched; a part of it is waited for. -/
theorem chunks_read_back (chunks : List Chunk) (zero : SizeLine)
    (nothing : zero.size = 0) :
    (∀ body rest, appendChunkedBody body (chunkedText chunks zero ++ rest) =
      .ok (some (body ++ chunks.flatMap Chunk.data), rest)) ∧
    ∀ body part, part <+: chunkedText chunks zero →
      part ≠ chunkedText chunks zero →
      appendChunkedBody body part = .error .ag := by
  let closing : Closing :=
    ⟨zero.text, zero.not_mem_text, by
      rw [zero.hex2long_text (by rw [nothing]; decide), nothing]⟩
  have readBack : ∀ body rest,
      appendChunkedBody body (chunkedText chunks zero ++ rest) =
        .ok (some (body ++ chunks.flatMap Chunk.data), rest) := by
    intro body rest
    have texts : chunks.flatMap Chunk.text =
        (chunks.map Chunk.round).flatMap Round.text := by
      rw [List.flatMap_map]
      rfl
    have bodies : chunks.flatMap Chunk.data =
        (chunks.map Chunk.round).flatMap Round.data := by
      rw [List.flatMap_map]
      rfl
    refine (iterate_eq_ok parseChunk_advances).mpr
      ⟨body ++ chunks.flatMap Chunk.data, closing.text ++ rest, ?_, ?_⟩
    · refine reaches_iff.mpr ⟨chunks.map Chunk.round, ?_, by rw [bodies]⟩
      rw [← texts]
      simp [chunkedText, Closing.text, closing]
    · exact parseChunk_eq_last.mpr ⟨rfl, closing, rfl⟩
  refine ⟨readBack, ?_⟩
  intro body part begins proper
  have whole := readBack body []
  rw [List.append_nil] at whole
  exact (stable_iterate stable_parseChunk body).of_proper whole begins proper

/-- Five bytes, two of which are `CRLF`. -/
def sampleChunk : Chunk where
  line :=
    { digits := ascii "005"
      extension := ascii ";q=1"
      nonempty := by decide
      hexadecimal := by decide +kernel
      begins := .inr ⟨ascii "q=1", by decide⟩
      unbroken := by decide }
  data := ascii "a\r\nbc"
  nonempty := by decide
  announced := by decide
  fits := by decide

def sampleZero : SizeLine where
  digits := ascii "0"
  extension := []
  nonempty := by decide
  hexadecimal := by decide +kernel
  begins := .inl rfl
  unbroken := by decide

theorem chunks_read_back_sample :
    appendChunkedBody [] (chunkedText [sampleChunk] sampleZero ++ ascii "X") =
      .ok (some (ascii "a\r\nbc"), ascii "X") :=
  (chunks_read_back [sampleChunk] sampleZero (by decide)).1 [] (ascii "X")

/-- When `parse_chunked_body` returns, every line it has read begins with the
number of the bytes by which the body has grown; any other line makes it throw
`NG`. -/
structure SizesChecked (input : Bytes) : Prop where
  grown : ∀ result rest, parseChunkedBody input = .ok (result, rest) →
    ∀ body left line after outcome later,
      Reaches parseChunk [] input body left →
      readUntil (ascii "\r") false left = .ok (line, after) →
      parseChunk body left = .ok (outcome, later) →
      Utils.WellFormed line ∧ ∃ data,
        data.length = Utils.hexValue (Utils.sizeDigits line) ∧
        (outcome = .inl (body ++ data) ∨ outcome = .inr (some (body ++ data)))
  refused : ∀ body left line after,
    Reaches parseChunk [] input body left →
    readUntil (ascii "\r") false left = .ok (line, after) →
    ¬ Utils.WellFormed line → parseChunkedBody input = .error .ng

/-- The input does not have a `CRLF` where there has to be one. -/
def Broken (input : Bytes) : Prop :=
  ∃ (rounds : List Round) (left : Bytes),
    input = rounds.flatMap Round.text ++ left ∧ Refused left

/-- A line in which a size is looked for. -/
def Meets (input line : Bytes) : Prop :=
  ∃ (rounds : List Round) (after : Bytes),
    input = rounds.flatMap Round.text ++ (line ++ 13 :: after) ∧ 13 ∉ line

/-- The body has come to its end. -/
def Complete (input : Bytes) : Prop :=
  ∃ (rounds : List Round) (closing : Closing) (rest : Bytes),
    input = rounds.flatMap Round.text ++ (closing.text ++ rest)

theorem broken_iff {input : Bytes} :
    parseChunkedBody input = .error .ng ↔ Broken input := by
  refine (iterate_eq_error parseChunk_advances).trans ?_
  constructor
  · intro ⟨body, left, reached, refused⟩
    obtain ⟨rounds, whole, -⟩ := reaches_iff.mp reached
    exact ⟨rounds, left, whole, parseChunk_eq_ng.mp refused⟩
  · intro ⟨rounds, left, whole, refused⟩
    exact ⟨_, left, reaches_iff.mpr ⟨rounds, whole, rfl⟩,
      parseChunk_eq_ng.mpr refused⟩

theorem meets_iff {input line : Bytes} :
    Meets input line ↔ ∃ body left after,
      Reaches parseChunk [] input body left ∧
        readUntil (ascii "\r") false left = .ok (line, after) := by
  constructor
  · intro ⟨rounds, after, whole, unbroken⟩
    exact ⟨_, _, _, reaches_iff.mpr ⟨rounds, whole, rfl⟩,
      readLine_eq_ok.mpr ⟨unbroken, after, rfl, rfl⟩⟩
  · intro ⟨body, left, after, reached, read⟩
    obtain ⟨rounds, whole, -⟩ := reaches_iff.mp reached
    obtain ⟨unbroken, rest, isLeft, -⟩ := readLine_eq_ok.mp read
    exact ⟨rounds, rest, by rw [whole, isLeft], unbroken⟩

theorem complete_iff {input : Bytes} :
    Complete input ↔
      ∃ whole rest, parseChunkedBody input = .ok (some whole, rest) := by
  constructor
  · intro ⟨rounds, closing, rest, whole⟩
    exact ⟨_, rest, (iterate_eq_ok parseChunk_advances).mpr
      ⟨_, _, reaches_iff.mpr ⟨rounds, whole, rfl⟩,
        parseChunk_eq_last.mpr ⟨rfl, closing, rfl⟩⟩⟩
  · intro ⟨result, rest, returned⟩
    obtain ⟨body, left, reached, last⟩ :=
      (iterate_eq_ok parseChunk_advances).mp returned
    obtain ⟨rounds, whole, -⟩ := reaches_iff.mp reached
    obtain ⟨-, closing, isLeft⟩ := parseChunk_eq_last.mp last
    exact ⟨rounds, closing, rest, by rw [whole, isLeft]⟩

/-- What a round makes of its line. -/
theorem parseChunk_of_line {body left line after later : Bytes}
    {outcome : Bytes ⊕ Option Bytes}
    (read : readUntil (ascii "\r") false left = .ok (line, after))
    (returned : parseChunk body left = .ok (outcome, later)) :
    (Utils.hex2long line = none ∧ outcome = .inr none) ∨
      ∃ data, Utils.hex2long line = some data.length ∧
        (outcome = .inl (body ++ data) ∨
          outcome = .inr (some (body ++ data))) := by
  rw [parseChunk_eq, bind_of_ok read] at returned
  cases announced : Utils.hex2long line with
  | none =>
      rw [announced] at returned
      exact .inl ⟨rfl, (pure_eq_ok.mp returned).1.symm⟩
  | some length =>
      rw [announced] at returned
      obtain ⟨data, -, isLength, isOutcome⟩ := afterLine_eq_ok.mp returned
      refine .inr ⟨data, by rw [isLength], ?_⟩
      by_cases nothing : length = 0
      · rw [if_pos nothing] at isOutcome
        subst nothing
        have empty : data = [] := List.length_eq_zero_iff.mp isLength
        exact .inr (by rw [isOutcome, empty, List.append_nil])
      · rw [if_neg nothing] at isOutcome
        exact .inl isOutcome

/-- The sizes are checked exactly in input that is refused for another reason,
and in input whose lines are all well formed and, if it is complete, have no
`0x` in front of another number. -/
theorem sizes_checked_iff (input : Bytes) :
    SizesChecked input ↔ Broken input ∨
      (∀ line, Meets input line → Utils.WellFormed line) ∧
      (Complete input → ∀ line, Meets input line →
        Utils.hex2long line =
          some (Utils.hexValue (Utils.sizeDigits line))) := by
  constructor
  · intro checked
    by_cases broken : Broken input
    · exact .inl broken
    · refine .inr ⟨?_, ?_⟩
      · intro line meets
        by_contra malformed
        obtain ⟨body, left, after, reached, read⟩ := meets_iff.mp meets
        exact broken (broken_iff.mp
          (checked.refused body left line after reached read malformed))
      · intro complete line meets
        obtain ⟨whole, rest, returned⟩ := complete_iff.mp complete
        obtain ⟨body, left, after, reached, read⟩ := meets_iff.mp meets
        obtain ⟨outcome, later, round⟩ :=
          reached.returns parseChunk_advances returned
        obtain ⟨-, data, length, isOutcome⟩ := checked.grown _ _ returned
          body left line after outcome later reached read round
        rcases parseChunk_of_line read round with
          ⟨-, unread⟩ | ⟨taken, announced, isTaken⟩
        · rw [unread] at isOutcome
          rcases isOutcome with impossible | impossible <;> cases impossible
        · have same : data = taken := by
            rcases isOutcome with rfl | rfl <;> rcases isTaken with same | same
            · exact List.append_cancel_left (Sum.inl.inj same)
            · cases same
            · cases same
            · exact List.append_cancel_left (Option.some.inj (Sum.inr.inj same))
          rw [announced, ← same, length]
  · intro condition
    rcases condition with broken | ⟨wellFormed, exact⟩
    · have refused := broken_iff.mpr broken
      constructor
      · intro result rest returned
        rw [refused] at returned
        cases returned
      · intro body left line after reached read malformed
        exact refused
    · constructor
      · intro result rest returned body left line after outcome later reached
          read round
        have met : Meets input line :=
          meets_iff.mpr ⟨body, left, after, reached, read⟩
        have wellFormedLine := wellFormed line met
        have complete : Complete input := by
          cases result with
          | some whole => exact complete_iff.mpr ⟨whole, rest, returned⟩
          | none =>
              -- Nothing has been read of the last line, which is met as well.
              obtain ⟨final, last, toLast, ends⟩ :=
                (iterate_eq_ok parseChunk_advances).mp returned
              have asked := ends
              rw [parseChunk_eq, bind_eq_ok] at asked
              obtain ⟨blank, behind, readLast, -⟩ := asked
              have wellFormedLast := wellFormed blank
                (meets_iff.mpr ⟨final, last, behind, toLast, readLast⟩)
              rcases parseChunk_of_line readLast ends with
                ⟨unread, -⟩ | ⟨data, -, impossible⟩
              · exact absurd unread (Utils.hex2long_ne_none wellFormedLast.1)
              · rcases impossible with impossible | impossible <;>
                  cases impossible
        refine ⟨wellFormedLine, ?_⟩
        have announced := exact complete line met
        rcases parseChunk_of_line read round with
          ⟨unread, -⟩ | ⟨taken, isTaken, isOutcome⟩
        · rw [announced] at unread
          cases unread
        · rw [announced] at isTaken
          exact ⟨taken, (Option.some.inj isTaken).symm, isOutcome⟩
      · intro body left line after reached read malformed
        exact absurd (wellFormed line
          (meets_iff.mpr ⟨body, left, after, reached, read⟩)) malformed

/-- A damaged size ends the body, of which half is missing. -/
theorem damaged_size_ends_body :
    ¬ SizesChecked (ascii "5\r\nhello\r\nx6\r\n\r\nworl\r\n0\r\n\r\n") := by
  intro checked
  have first : parseChunk []
      (ascii "5\r\nhello\r\nx6\r\n\r\nworl\r\n0\r\n\r\n") =
        .ok (.inl (ascii "hello"),
          ascii "x6\r\n\r\nworl\r\n0\r\n\r\n") := by
    decide +kernel
  have ends : parseChunkedBody
      (ascii "5\r\nhello\r\nx6\r\n\r\nworl\r\n0\r\n\r\n") =
        .ok (some (ascii "hello"), ascii "worl\r\n0\r\n\r\n") := by
    decide +kernel
  have read : readUntil (ascii "\r") false
      (ascii "x6\r\n\r\nworl\r\n0\r\n\r\n") =
        .ok (ascii "x6", ascii "\r\n\r\nworl\r\n0\r\n\r\n") := by
    decide +kernel
  have malformed : ¬ Utils.WellFormed (ascii "x6") := by
    intro wellFormed
    exact wellFormed.1 (by decide +kernel)
  have refused := checked.refused _ _ _ _ (Reaches.start.round first) read
    malformed
  rw [ends] at refused
  cases refused

end Http

end Universe
