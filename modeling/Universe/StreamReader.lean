import Mathlib.Algebra.Ring.Int.Defs
import Mathlib.Algebra.Ring.Nat
import Universe.Kernel
import Universe.Library.Incremental

/-!
# The stream reader

`StreamReader` over the bytes that are left.  It throws `AG` when the bytes
end too early and `NG` when they are wrong; only the first of the two can
change when more bytes arrive.
-/

namespace Universe

open Incremental

inductive ReaderException where
  | ng
  | ag
  deriving DecidableEq, Repr

abbrev StreamReader := Reader UInt8 ReaderException

/-- The text of a string literal. -/
def ascii (text : String) : Bytes := text.toList.map (·.toNat.toUInt8)

namespace StreamReader

/-- `read_size`, and `read_plain` of a type of this size. -/
def readSize (size : Nat) : StreamReader Bytes := fun bytes =>
  if bytes.length < size then .error .ag
  else .ok (bytes.take size, bytes.drop size)

/-- `read_plain` of a character. -/
def readChar : StreamReader UInt8
  | [] => .error .ag
  | byte :: rest => .ok (byte, rest)

/-- `pread_plain` of a character. -/
def preadChar : StreamReader UInt8
  | [] => .error .ag
  | byte :: rest => .ok (byte, byte :: rest)

/-- The bytes before the first one with a property, and the others. -/
def scan (stop : UInt8 → Bool) : Bytes → Option (Bytes × Bytes)
  | [] => none
  | byte :: rest =>
      if stop byte then some ([], byte :: rest)
      else (scan stop rest).map fun (before, after) => (byte :: before, after)

/-- `read_up`. -/
def readUp (s : Bytes) (nullable : Bool := true) : StreamReader Bytes :=
  fun bytes =>
    match scan (fun byte => !s.contains byte) bytes with
    | none => .error .ag
    | some (before, after) =>
        if before.isEmpty && !nullable then .error .ng else .ok (before, after)

/-- `read_until`. -/
def readUntil (s : Bytes) (eatupFinal : Bool := false) : StreamReader Bytes :=
  fun bytes =>
    match scan s.contains bytes with
    | none => .error .ag
    | some (before, after) =>
        .ok (before, if eatupFinal then after.tail else after)

/-- `fail_if`. -/
def failIf (condition : Bool) : StreamReader Unit :=
  if condition then throw .ng else pure ()

/-- `read_size(2, crlf)` with the check that follows it everywhere. -/
def readCrlf : StreamReader Unit := do
  let crlf ← readSize 2
  failIf (crlf != ascii "\r\n")

theorem scan_eq_some {stop : UInt8 → Bool} {bytes before after : Bytes} :
    scan stop bytes = some (before, after) ↔
      ∃ byte tail, bytes = before ++ byte :: tail ∧ after = byte :: tail ∧
        stop byte = true ∧ ∀ skipped ∈ before, stop skipped = false := by
  induction bytes generalizing before after with
  | nil => simp [scan]
  | cons byte rest induction =>
      unfold scan
      by_cases here : stop byte = true
      · rw [if_pos here]
        constructor
        · intro found
          cases found
          exact ⟨byte, rest, rfl, rfl, here, by simp⟩
        · rintro ⟨found, tail, whole, rfl, stops, skips⟩
          cases before with
          | nil =>
              cases whole
              rfl
          | cons skipped before =>
              cases whole
              have skip := skips byte List.mem_cons_self
              rw [here] at skip
              cases skip
      · rw [if_neg here]
        simp only [Option.map_eq_some_iff, Prod.exists, induction,
          Prod.mk.injEq]
        constructor
        · rintro ⟨earlier, _, ⟨found, tail, rfl, rfl, stops, skips⟩, rfl, rfl⟩
          refine ⟨found, tail, rfl, rfl, stops, ?_⟩
          simpa [here] using skips
        · rintro ⟨found, tail, whole, rfl, stops, skips⟩
          cases before with
          | nil =>
              cases whole
              exact absurd stops here
          | cons skipped before =>
              cases whole
              exact ⟨before, _, ⟨found, tail, rfl, rfl, stops, fun other member =>
                skips other (List.mem_cons_of_mem _ member)⟩, rfl, rfl⟩

theorem scan_append {stop : UInt8 → Bool} {bytes before after : Bytes}
    (found : scan stop bytes = some (before, after)) (more : Bytes) :
    scan stop (bytes ++ more) = some (before, after ++ more) := by
  obtain ⟨byte, tail, rfl, rfl, stops, skips⟩ := scan_eq_some.mp found
  exact scan_eq_some.mpr ⟨byte, tail ++ more, by simp, rfl, stops, skips⟩

theorem scan_eq {stop : UInt8 → Bool} {bytes before after : Bytes}
    (found : scan stop bytes = some (before, after)) :
    bytes = before ++ after ∧ after ≠ [] := by
  obtain ⟨byte, tail, rfl, rfl, -, -⟩ := scan_eq_some.mp found
  exact ⟨rfl, by simp⟩

theorem readUntil_eq_ok {s bytes before rest : Bytes} {eatupFinal : Bool} :
    readUntil s eatupFinal bytes = .ok (before, rest) ↔
      ∃ byte tail, bytes = before ++ byte :: tail ∧ byte ∈ s ∧
        (∀ skipped ∈ before, skipped ∉ s) ∧
        rest = if eatupFinal then tail else byte :: tail := by
  unfold readUntil
  cases found : scan s.contains bytes with
  | none =>
      constructor
      · intro returned
        cases returned
      · rintro ⟨byte, tail, whole, member, skips, rest⟩
        have scanned : scan s.contains bytes = some (before, byte :: tail) :=
          scan_eq_some.mpr ⟨byte, tail, whole, rfl, by simpa using member,
            by simpa using skips⟩
        rw [found] at scanned
        cases scanned
  | some read =>
      obtain ⟨scanned, after⟩ := read
      constructor
      · intro returned
        obtain ⟨byte, tail, whole, rfl, member, skips⟩ := scan_eq_some.mp found
        cases returned
        exact ⟨byte, tail, whole, by simpa using member, by simpa using skips,
          rfl⟩
      · rintro ⟨byte, tail, whole, member, skips, rfl⟩
        have same : scan s.contains bytes = some (before, byte :: tail) :=
          scan_eq_some.mpr ⟨byte, tail, whole, rfl, by simpa using member,
            by simpa using skips⟩
        rw [found] at same
        cases same
        rfl

theorem readUp_eq_ok {s bytes before rest : Bytes} :
    readUp s true bytes = .ok (before, rest) ↔
      ∃ byte tail, bytes = before ++ byte :: tail ∧ byte ∉ s ∧
        (∀ skipped ∈ before, skipped ∈ s) ∧ rest = byte :: tail := by
  unfold readUp
  cases found : scan (fun byte => !s.contains byte) bytes with
  | none =>
      constructor
      · intro returned
        cases returned
      · rintro ⟨byte, tail, whole, missing, skips, rest⟩
        have scanned : scan (fun byte => !s.contains byte) bytes =
            some (before, byte :: tail) :=
          scan_eq_some.mpr ⟨byte, tail, whole, rfl, by simpa using missing,
            by simpa using skips⟩
        rw [found] at scanned
        cases scanned
  | some read =>
      obtain ⟨scanned, after⟩ := read
      simp only [Bool.not_true, Bool.and_false, Bool.false_eq_true, if_false]
      constructor
      · intro returned
        obtain ⟨byte, tail, whole, rfl, missing, skips⟩ := scan_eq_some.mp found
        cases returned
        exact ⟨byte, tail, whole, by simpa using missing, by simpa using skips,
          rfl⟩
      · rintro ⟨byte, tail, whole, missing, skips, rfl⟩
        have same : scan (fun byte => !s.contains byte) bytes =
            some (before, byte :: tail) :=
          scan_eq_some.mpr ⟨byte, tail, whole, rfl, by simpa using missing,
            by simpa using skips⟩
        rw [found] at same
        cases same
        rfl

theorem readUntil_mark {mark : UInt8} {before : Bytes} (absent : mark ∉ before)
    (after : Bytes) :
    readUntil [mark] false (before ++ mark :: after) =
      .ok (before, mark :: after) := by
  refine readUntil_eq_ok.mpr ⟨mark, after, rfl, List.mem_singleton.mpr rfl, ?_,
    rfl⟩
  intro byte member isMark
  rw [List.mem_singleton.mp isMark] at member
  exact absent member

theorem readUp_space {byte : UInt8} (different : byte ≠ 32) (rest : Bytes) :
    readUp [32] true (32 :: byte :: rest) = .ok ([32], byte :: rest) :=
  readUp_eq_ok.mpr ⟨byte, rest, rfl, by simp [different], by simp, rfl⟩

theorem word_bind {β : Type} {next : Bytes → StreamReader β}
    {word rest : Bytes} (noSpace : 32 ∉ word) (someRest : rest ≠ [])
    (begins : rest.head? ≠ some 32) :
    (readUntil (ascii " ") >>= fun word =>
        readUp (ascii " ") >>= fun _ => next word) (word ++ 32 :: rest) =
      next word rest := by
  obtain ⟨first, after, same⟩ := List.exists_cons_of_ne_nil someRest
  subst same
  have different : first ≠ 32 := fun same => begins (congrArg some same)
  have wordRead : readUntil (ascii " ") false (word ++ 32 :: first :: after) =
      .ok (word, 32 :: first :: after) := readUntil_mark noSpace _
  have gapRead : readUp (ascii " ") true (32 :: first :: after) =
      .ok ([32], first :: after) := readUp_space different after
  rw [bind_of_ok wordRead, bind_of_ok gapRead]

/-- A word and the spaces behind it. -/
theorem word_bind_eq_ok {β : Type} {next : Bytes → StreamReader β}
    {input left : Bytes} {result : β} :
    (readUntil (ascii " ") >>= fun word =>
        readUp (ascii " ") >>= fun _ => next word) input = .ok (result, left) ↔
      ∃ word gap rest, input = word ++ (gap ++ rest) ∧ 32 ∉ word ∧
        (gap ≠ [] ∧ ∀ byte ∈ gap, byte = 32) ∧
        (rest ≠ [] ∧ rest.head? ≠ some 32) ∧
        next word rest = .ok (result, left) := by
  have space : ascii " " = [32] := rfl
  simp only [bind_eq_ok, readUntil_eq_ok, readUp_eq_ok, space,
    List.mem_singleton, Bool.false_eq_true, if_false]
  constructor
  · rintro ⟨word, _, ⟨mark, tail, rfl, rfl, noSpace, rfl⟩, gap, _,
      ⟨first, after, starts, notSpace, spaces, rfl⟩, returned⟩
    refine ⟨word, gap, first :: after, ?_, ?_, ⟨?_, spaces⟩, ⟨?_, ?_⟩, returned⟩
    · rw [starts]
    · exact fun member => noSpace 32 member rfl
    · intro none
      subst none
      cases starts
      exact notSpace rfl
    · exact List.cons_ne_nil _ _
    · intro begins
      cases begins
      exact notSpace rfl
  · rintro ⟨word, gap, rest, rfl, noSpace, ⟨someGap, spaces⟩,
      ⟨someRest, begins⟩, returned⟩
    obtain ⟨mark, gap, rfl⟩ := List.exists_cons_of_ne_nil someGap
    obtain ⟨first, after, rfl⟩ := List.exists_cons_of_ne_nil someRest
    obtain rfl := spaces mark List.mem_cons_self
    refine ⟨word, _, ⟨32, gap ++ first :: after, rfl, rfl, ?_, rfl⟩, 32 :: gap,
      first :: after, ⟨first, after, rfl, ?_, spaces, rfl⟩, returned⟩
    · intro byte member same
      subst same
      exact noSpace member
    · intro same
      subst same
      exact begins rfl

theorem readSize_eq_ok {size : Nat} {bytes value rest : Bytes} :
    readSize size bytes = .ok (value, rest) ↔
      bytes = value ++ rest ∧ value.length = size := by
  unfold readSize
  constructor
  · intro returned
    split at returned
    · cases returned
    · cases returned
      exact ⟨(List.take_append_drop size bytes).symm,
        by simp only [List.length_take]; omega⟩
  · rintro ⟨rfl, rfl⟩
    rw [if_neg (by simp), List.take_left, List.drop_left]

theorem readChar_eq_ok {bytes rest : Bytes} {byte : UInt8} :
    readChar bytes = .ok (byte, rest) ↔ bytes = byte :: rest := by
  cases bytes <;> simp [readChar]

theorem preadChar_eq_ok {bytes rest : Bytes} {byte : UInt8} :
    preadChar bytes = .ok (byte, rest) ↔
      rest = bytes ∧ ∃ tail, bytes = byte :: tail := by
  cases bytes with
  | nil => simp [preadChar]
  | cons first tail =>
      simp only [preadChar, Except.ok.injEq, Prod.mk.injEq, List.cons.injEq,
        exists_and_left, exists_eq', and_true]
      exact ⟨fun ⟨same, rest⟩ => ⟨rest.symm, same⟩,
        fun ⟨rest, same⟩ => ⟨same, rest.symm⟩⟩

theorem failIf_eq_ok {condition : Bool} {bytes rest : Bytes} {value : Unit} :
    failIf condition bytes = .ok (value, rest) ↔
      condition = false ∧ bytes = rest := by
  cases condition with
  | true =>
      constructor
      · intro returned
        cases returned
      · rintro ⟨impossible, -⟩
        cases impossible
  | false =>
      change Except.ok ((), bytes) = _ ↔ _
      simp

theorem readCrlf_eq_ok {bytes rest : Bytes} {value : Unit} :
    readCrlf bytes = .ok (value, rest) ↔ bytes = ascii "\r\n" ++ rest := by
  unfold readCrlf
  rw [Incremental.bind_eq_ok]
  constructor
  · rintro ⟨crlf, between, read, checked⟩
    obtain ⟨same, rfl⟩ := failIf_eq_ok.mp checked
    obtain ⟨whole, -⟩ := readSize_eq_ok.mp read
    rw [whole]
    simpa using same
  · rintro rfl
    refine ⟨ascii "\r\n", rest, readSize_eq_ok.mpr ⟨rfl, rfl⟩, ?_⟩
    exact failIf_eq_ok.mpr ⟨by simp, rfl⟩

theorem stable_readSize (size : Nat) : Stable .ag (readSize size) := by
  constructor
  · intro bytes value rest returned more
    unfold readSize at returned ⊢
    split at returned
    · cases returned
    · next enough =>
        cases returned
        rw [if_neg (by simp only [List.length_append]; omega),
          List.take_append_of_le_length (by omega),
          List.drop_append_of_le_length (by omega)]
  · intro bytes stop stopped different
    unfold readSize at stopped
    split at stopped
    · cases stopped
      exact absurd rfl different
    · cases stopped

theorem stable_readChar : Stable .ag readChar := by
  constructor
  · intro bytes value rest returned more
    cases bytes with
    | nil => cases returned
    | cons byte bytes =>
        cases returned
        rfl
  · intro bytes stop stopped different
    cases bytes with
    | nil =>
        cases stopped
        exact absurd rfl different
    | cons byte bytes => cases stopped

theorem stable_preadChar : Stable .ag preadChar := by
  constructor
  · intro bytes value rest returned more
    cases bytes with
    | nil => cases returned
    | cons byte bytes =>
        cases returned
        rfl
  · intro bytes stop stopped different
    cases bytes with
    | nil =>
        cases stopped
        exact absurd rfl different
    | cons byte bytes => cases stopped

theorem stable_readUp (s : Bytes) (nullable : Bool) :
    Stable .ag (readUp s nullable) := by
  constructor
  · intro bytes value rest returned more
    unfold readUp at returned ⊢
    split at returned
    · cases returned
    · next before after found =>
        rw [scan_append found more]
        dsimp only
        split at returned
        · cases returned
        · next accepted =>
            cases returned
            rw [if_neg accepted]
  · intro bytes stop stopped different more
    unfold readUp at stopped ⊢
    split at stopped
    · cases stopped
      exact absurd rfl different
    · next before after found =>
        rw [scan_append found more]
        dsimp only
        split at stopped
        · next refused =>
            cases stopped
            rw [if_pos refused]
        · cases stopped

theorem stable_readUntil (s : Bytes) (eatupFinal : Bool) :
    Stable .ag (readUntil s eatupFinal) := by
  constructor
  · intro bytes value rest returned more
    unfold readUntil at returned ⊢
    split at returned
    · cases returned
    · next before after found =>
        rw [scan_append found more]
        obtain ⟨-, nonempty⟩ := scan_eq found
        cases returned
        cases eatupFinal with
        | false => rfl
        | true => simp [List.tail_append_of_ne_nil nonempty]
  · intro bytes stop stopped different
    unfold readUntil at stopped
    split at stopped
    · cases stopped
      exact absurd rfl different
    · cases stopped

theorem stable_failIf (condition : Bool) : Stable .ag (failIf condition) := by
  unfold failIf
  exact stable_ite (stable_throw _) (stable_pure _)

theorem stable_readCrlf : Stable .ag readCrlf :=
  stable_bind (stable_readSize 2) fun _ => stable_failIf _

theorem takes_readSize (size : Nat) : Takes size (readSize size) := by
  intro bytes value rest returned
  unfold readSize at returned
  split at returned
  · cases returned
  · cases returned
    simp only [List.length_drop]
    omega

theorem takes_readChar : Takes 1 readChar := by
  intro bytes value rest returned
  cases bytes with
  | nil => cases returned
  | cons byte bytes =>
      cases returned
      simp

theorem takes_preadChar : Takes 0 preadChar := by
  intro bytes value rest returned
  cases bytes with
  | nil => cases returned
  | cons byte bytes =>
      cases returned
      simp

theorem takes_readUp (s : Bytes) (nullable : Bool) :
    Takes 0 (readUp s nullable) := by
  intro bytes value rest returned
  unfold readUp at returned
  split at returned
  · cases returned
  · next before after found =>
      split at returned
      · cases returned
      · cases returned
        rw [(scan_eq found).1]
        simp

theorem takes_readUntil (s : Bytes) (eatupFinal : Bool) :
    Takes 0 (readUntil s eatupFinal) := by
  intro bytes value rest returned
  unfold readUntil at returned
  split at returned
  · cases returned
  · next before after found =>
      cases returned
      rw [(scan_eq found).1]
      cases eatupFinal with
      | false => simp
      | true =>
          simp only [if_true, List.length_tail, List.length_append]
          omega

theorem takes_failIf (condition : Bool) : Takes 0 (failIf condition) := by
  unfold failIf
  split
  · exact takes_throw 0 _
  · exact takes_pure _

theorem takes_readCrlf : Takes 2 readCrlf :=
  takes_now (takes_readSize 2) fun _ => takes_failIf _

end StreamReader

end Universe
