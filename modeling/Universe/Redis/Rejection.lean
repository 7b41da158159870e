import Universe.Redis.Correspondence

/-!
# Replies that are refused

`parse_response` takes every byte for a type and every line for a length.
What it refuses is a line break that is missing where it looks for one.
-/

namespace Universe

namespace Redis

open Incremental StreamReader Protocol

variable {maxSize : Nat}

/-- A type or a length that the protocol does not have, in a reply or in an
element of it after good ones. -/
inductive Malformed (maxSize : Nat) : Bytes → Prop where
  | type {type : UInt8} {rest : Bytes} (unknown : ¬ IsType type) :
      Malformed maxSize (type :: rest)
  | length {type : UInt8} {length rest : Bytes} (counted : type = 36 ∨ type = 42)
      (plain : 13 ∉ length) (bad : ∀ number, ¬ IsLength length number) :
      Malformed maxSize (type :: (length ++ 13 :: 10 :: rest))
  | element {length before rest : Bytes} {number : Int}
      {elements : List RedisReply} (plain : 13 ∉ length)
      (isLength : IsLength length number)
      (good : ReadsAll strict maxSize before elements)
      (more : elements.length < number.toNat) (bad : Malformed maxSize rest) :
      Malformed maxSize (42 :: (length ++ 13 :: 10 :: (before ++ rest)))

/-- A line break is missing after a line or after a bulk string, where lengths
are what `atol` makes of them. -/
inductive Unbroken (maxSize : Nat) : Bytes → Prop where
  | line {type byte : UInt8} {line rest : Bytes} (isType : IsType type)
      (plain : 13 ∉ line) (other : byte ≠ 10) :
      Unbroken maxSize (type :: (line ++ 13 :: byte :: rest))
  | bulk {length text rest : Bytes} {first second : UInt8} (plain : 13 ∉ length)
      (isLength : atol length = text.length) (fits : text.length ≤ maxSize)
      (other : ¬ (first = 13 ∧ second = 10)) :
      Unbroken maxSize
        (36 :: (length ++ 13 :: 10 :: (text ++ first :: second :: rest)))
  | element {length before rest : Bytes} {elements : List RedisReply}
      (plain : 13 ∉ length) (good : ReadsAll lenient maxSize before elements)
      (more : elements.length < (atol length).toNat)
      (bad : Unbroken maxSize rest) :
      Unbroken maxSize (42 :: (length ++ 13 :: 10 :: (before ++ rest)))

theorem readLine_eq_ng {input : Bytes} :
    readLine input = .error .ng ↔
      ∃ line byte rest, input = line ++ 13 :: byte :: rest ∧ 13 ∉ line ∧
        byte ≠ 10 := by
  constructor
  · intro stopped
    rcases bind_eq_error.mp stopped with never | ⟨line, left, found, later⟩
    · unfold readUntil at never
      split at never <;> cases never
    · obtain ⟨mark, tail, rfl, isReturn, skips, rfl⟩ := readUntil_eq_ok.mp found
      have same : mark = 13 := by simpa [ascii] using isReturn
      subst same
      rcases bind_eq_error.mp later with never | ⟨byte, rest, next, check⟩
      · cases left <;> cases never
      · rw [show left = byte :: rest from readChar_eq_ok.mp next]
        refine ⟨line, byte, rest, rfl, ?_, ?_⟩
        · intro member
          exact skips 13 member (by decide)
        · rintro rfl
          cases check
  · rintro ⟨line, byte, rest, rfl, plain, other⟩
    have found : readUntil (ascii "\r") true (line ++ 13 :: byte :: rest) =
        .ok (line, byte :: rest) := by
      refine readUntil_eq_ok.mpr ⟨13, byte :: rest, rfl, by decide, ?_, rfl⟩
      intro skipped member isReturn
      have same : skipped = 13 := by simpa [ascii] using isReturn
      exact plain (same ▸ member)
    have refused : failIf (byte != 10) rest = .error .ng := by
      simp [failIf, other]
      rfl
    unfold readLine
    rw [bind_of_ok found, bind_of_ok (readChar_eq_ok.mpr rfl),
      bind_of_error refused]

theorem readCrlf_eq_ng {input : Bytes} :
    readCrlf input = .error .ng ↔
      ∃ first second rest, input = first :: second :: rest ∧
        ¬ (first = 13 ∧ second = 10) := by
  have crlf : ascii "\r\n" = [13, 10] := by decide
  constructor
  · intro stopped
    rcases bind_eq_error.mp stopped with never | ⟨text, rest, found, check⟩
    · unfold readSize at never
      split at never <;> cases never
    · obtain ⟨rfl, two⟩ := readSize_eq_ok.mp found
      obtain ⟨first, second, rfl⟩ := List.length_eq_two.mp two
      refine ⟨first, second, rest, rfl, ?_⟩
      rintro ⟨rfl, rfl⟩
      cases check
  · rintro ⟨first, second, rest, rfl, other⟩
    have found : readSize 2 (first :: second :: rest) =
        .ok ([first, second], rest) := readSize_eq_ok.mpr ⟨rfl, rfl⟩
    have refused : failIf ([first, second] != ascii "\r\n") rest =
        .error .ng := by
      rw [crlf]
      simp [failIf, other]
      rfl
    unfold readCrlf
    rw [bind_of_ok found, refused]

theorem unbroken_of_readBulk {length input : Bytes} (plain : 13 ∉ length)
    (stopped : readBulk maxSize (atol length) input = .error .ng) :
    Unbroken maxSize (36 :: (length ++ 13 :: 10 :: input)) := by
  unfold readBulk at stopped
  split at stopped
  case isTrue negative => cases stopped
  case isFalse nonnegative =>
    split at stopped
    case isTrue large => cases stopped
    case isFalse fits =>
      rcases bind_eq_error.mp stopped with never | ⟨text, left, found, later⟩
      · unfold readSize at never
        split at never <;> cases never
      · obtain ⟨rfl, size⟩ := readSize_eq_ok.mp found
        rcases bind_eq_error.mp later with missing | ⟨_, _, _, ended⟩
        · obtain ⟨first, second, rest, rfl, other⟩ :=
            readCrlf_eq_ng.mp missing
          exact .bulk plain (by omega) (by omega) other
        · cases ended

/-- An element that is refused comes after elements that are read. -/
theorem readElements_eq_ng {parse : StreamReader (Option RedisReply)}
    {count : Nat} {input : Bytes}
    (stopped : readElements parse count input = .error .ng) :
    ∃ done rest elements,
      readElements parse done input = .ok (some elements, rest) ∧
        done < count ∧ parse rest = .error .ng := by
  induction count generalizing input with
  | zero => cases stopped
  | succ count induction =>
      rcases bind_eq_error.mp stopped with now | ⟨first, left, head, later⟩
      · exact ⟨0, input, [], rfl, Nat.succ_pos count, now⟩
      · cases first with
        | none => cases later
        | some first =>
            rcases bind_eq_error.mp later with tail | ⟨others, _, _, ended⟩
            · obtain ⟨done, rest, elements, read, less, bad⟩ := induction tail
              exact ⟨done + 1, rest, first :: elements,
                readElements_eq_ok.mpr ⟨_, _, _, rfl, head, read⟩, by omega, bad⟩
            · cases others <;> cases ended

theorem readElements_ng {parse : StreamReader (Option RedisReply)}
    {done count : Nat} {input rest : Bytes} {elements : List RedisReply}
    (read : readElements parse done input = .ok (some elements, rest))
    (less : done < count) (bad : parse rest = .error .ng) :
    readElements parse count input = .error .ng := by
  induction done generalizing count input elements with
  | zero =>
      obtain ⟨-, rfl⟩ := pure_eq_ok.mp read
      obtain ⟨count, rfl⟩ : ∃ fewer, count = fewer + 1 := ⟨count - 1, by omega⟩
      exact bind_of_error bad
  | succ done induction =>
      obtain ⟨count, rfl⟩ : ∃ fewer, count = fewer + 1 := ⟨count - 1, by omega⟩
      obtain ⟨first, others, left, rfl, head, tail⟩ := readElements_eq_ok.mp read
      unfold readElements
      rw [bind_of_ok head]
      exact bind_of_error (induction tail (by omega))

/-- `parse_response` refuses a line break that is missing, and nothing else. -/
theorem parseResponse_eq_ng {input : Bytes} :
    parseResponse maxSize input = .error .ng ↔ Unbroken maxSize input := by
  constructor
  · intro stopped
    induction size : input.length using Nat.strong_induction_on
      generalizing input with
    | _ limit induction =>
        cases input with
        | nil => cases stopped
        | cons type input =>
            rw [parseResponse_cons] at stopped
            rw [List.length_cons] at size
            rcases type_cases type with isLine | rfl | rfl | isBare
            · rw [readBody_line isLine] at stopped
              rcases bind_eq_error.mp stopped with missing | ⟨_, _, _, ended⟩
              · obtain ⟨line, byte, rest, rfl, plain, other⟩ :=
                  readLine_eq_ng.mp missing
                exact .line (.inl isLine) plain other
              · cases ended
            · rw [readBody_bulk] at stopped
              rcases bind_eq_error.mp stopped with missing | ⟨length, _, line, bad⟩
              · obtain ⟨line, byte, rest, rfl, plain, other⟩ :=
                  readLine_eq_ng.mp missing
                exact .line (.inr (.inl rfl)) plain other
              · obtain ⟨rfl, plain⟩ := readLine_eq_ok.mp line
                exact unbroken_of_readBulk plain bad
            · rw [readBody_array] at stopped
              rcases bind_eq_error.mp stopped with missing | ⟨length, left, line, bad⟩
              · obtain ⟨line, byte, rest, rfl, plain, other⟩ :=
                  readLine_eq_ng.mp missing
                exact .line (.inr (.inr rfl)) plain other
              · rcases bind_eq_error.mp bad with within | ⟨_, _, _, ended⟩
                · have less := takes_readLine _ _ _ line
                  obtain ⟨rfl, plain⟩ := readLine_eq_ok.mp line
                  obtain ⟨done, rest, elements, read, more, refused⟩ :=
                    readElements_eq_ng within
                  obtain ⟨before, rfl, good, count⟩ :=
                    readsAll_of_readElements
                      ((takes_parseResponse maxSize).weaken (Nat.zero_le _))
                      (fun _ _ _ _ returned => reads_of_parseResponse returned)
                      (Nat.lt_succ_self _) read
                  rw [List.length_append] at less
                  exact .element plain good (count ▸ more)
                    (induction rest.length (by omega) refused rfl)
                · cases ended
            · rw [readBody_bare isBare] at stopped
              cases stopped
  · intro unbroken
    induction unbroken with
    | @line type byte line rest isType plain other =>
        have stopped : readLine (line ++ 13 :: byte :: rest) = .error .ng :=
          readLine_eq_ng.mpr ⟨line, byte, rest, rfl, plain, other⟩
        rw [parseResponse_cons]
        rcases isType with isLine | rfl | rfl
        · rw [readBody_line isLine, bind_of_error stopped]
        · rw [readBody_bulk, bind_of_error stopped]
        · rw [readBody_array, bind_of_error stopped]
    | @bulk length text rest first second plain isLength fits other =>
        have nonnegative : ¬ (text.length : Int) < 0 := by omega
        have allowed : ¬ (maxSize : Int) < text.length := by omega
        have content : readSize (text.length : Int).toNat
            (text ++ first :: second :: rest) =
              .ok (text, first :: second :: rest) :=
          readSize_eq_ok.mpr ⟨rfl, by simp⟩
        have missing : readCrlf (first :: second :: rest) = .error .ng :=
          readCrlf_eq_ng.mpr ⟨first, second, rest, rfl, other⟩
        rw [parseResponse_cons, readBody_bulk,
          bind_of_ok (readLine_line plain _), isLength]
        unfold readBulk
        rw [if_neg nonnegative, if_neg allowed, bind_of_ok content,
          bind_of_error missing]
    | @element length before rest elements plain good more bad induction =>
        rw [parseResponse_cons, readBody_array,
          bind_of_ok (readLine_line plain _)]
        exact bind_of_error (readElements_ng (readElements_of_reads good rest)
          more induction)

mutual

/-- What is read and has nothing malformed is a reply of the protocol. -/
theorem Reads.strict_of_lenient {bytes : Bytes} {reply : RedisReply}
    (reads : Reads lenient maxSize bytes reply) (rest : Bytes)
    (clean : ¬ Malformed maxSize (bytes ++ rest)) :
    Reads strict maxSize bytes reply := by
  cases reads with
  | line isLine plain => exact .line isLine plain
  | @bulk length text plain isLength fits =>
      by_cases good : ∃ number, IsLength length number
      · obtain ⟨number, isNumber⟩ := good
        have same : atol length = text.length := isLength
        rw [isNumber.atol_eq] at same
        subst same
        exact .bulk plain isNumber fits
      · refine absurd ?_ clean
        rw [List.cons_append, List.append_assoc]
        exact .length (.inl rfl) plain (not_exists.mp good)
  | @null length number plain isLength negative =>
      by_cases good : ∃ number, IsLength length number
      · obtain ⟨other, isNumber⟩ := good
        have same : atol length = number := isLength
        rw [isNumber.atol_eq] at same
        subst same
        exact .null plain isNumber negative
      · refine absurd ?_ clean
        rw [List.cons_append, List.append_assoc]
        exact .length (.inl rfl) plain (not_exists.mp good)
  | @array length bytes number elements plain isLength all count =>
      by_cases good : ∃ number, IsLength length number
      · obtain ⟨other, isNumber⟩ := good
        have same : atol length = number := isLength
        rw [isNumber.atol_eq] at same
        subst same
        refine .array plain isNumber (all.strict_of_lenient rest ?_) count
        intro before done after split good less bad
        apply clean
        rw [List.cons_append, List.append_assoc, List.cons_append,
          List.cons_append, split, List.append_assoc]
        exact .element plain isNumber good (count ▸ less) bad
      · refine absurd ?_ clean
        rw [List.cons_append, List.append_assoc]
        exact .length (.inr rfl) plain (not_exists.mp good)
  | bare isBare => exact absurd (.type isBare) clean

theorem ReadsAll.strict_of_lenient {bytes : Bytes} {replies : List RedisReply}
    (reads : ReadsAll lenient maxSize bytes replies) (rest : Bytes)
    (clean : ∀ before done after, bytes = before ++ after →
      ReadsAll strict maxSize before done → done.length < replies.length →
        ¬ Malformed maxSize (after ++ rest)) :
    ReadsAll strict maxSize bytes replies := by
  cases reads with
  | nil => exact .nil
  | @cons first later reply replies head tail =>
      have whole : ¬ Malformed maxSize (first ++ (later ++ rest)) := by
        rw [← List.append_assoc]
        exact clean [] [] (first ++ later) rfl .nil (Nat.succ_pos _)
      have read := head.strict_of_lenient (later ++ rest) whole
      refine .cons read (tail.strict_of_lenient rest ?_)
      intro before done after split good less
      apply clean (first ++ before) (reply :: done) after
      · rw [split, List.append_assoc]
      · exact .cons read good
      · exact Nat.succ_lt_succ less

end

/-- What is taken for a reply is one of the protocol, and what is malformed is
refused and closes the connection it comes on, without a call. -/
def Rejects (maxSize : Nat) (input : Bytes) : Prop :=
  (∀ reply rest, parseResponse maxSize input = .ok (some reply, rest) →
    ∃ bytes, input = bytes ++ rest ∧ Reads strict maxSize bytes reply) ∧
  (Malformed maxSize input → parseResponse maxSize input = .error .ng ∧
    ∀ (κ : Type) (program : Program κ) (client : Fd) (s : Connection κ),
      s.status = .opened → s.remainder client = [] →
        (deliver program client maxSize s input).status = .closed ∧
        calls (deliver program client maxSize s input).trace = calls s.trace)

theorem closed_of_ng {κ : Type} {program : Program κ} {client : Fd}
    {s : Connection κ} (isOpen : s.status = .opened)
    (idle : s.remainder client = []) {input : Bytes}
    (refused : parseResponse maxSize input = .error .ng) :
    (deliver program client maxSize s input).status = .closed ∧
      calls (deliver program client maxSize s input).trace = calls s.trace := by
  have whole : parseResponse maxSize (s.remainder client ++ input) =
      .error .ng := by
    rw [idle]
    exact refused
  rw [deliver_eq, Connection.deliver_refused isOpen whole]
  refine ⟨rfl, ?_⟩
  simp [calls, traits]

/-- Replies are rejected as they should be exactly when what is malformed has a
line break missing, too. -/
theorem malformed_replies_rejected (maxSize : Nat) (input : Bytes) :
    Rejects maxSize input ↔
      (Malformed maxSize input → Unbroken maxSize input) := by
  constructor
  · intro rejects malformed
    exact parseResponse_eq_ng.mp (rejects.2 malformed).1
  · intro broken
    constructor
    · intro reply rest returned
      have clean : ¬ Malformed maxSize input := by
        intro malformed
        rw [parseResponse_eq_ng.mpr (broken malformed)] at returned
        cases returned
      obtain ⟨bytes, rfl, reads⟩ := reads_of_parseResponse returned
      exact ⟨bytes, rfl, reads.strict_of_lenient rest clean⟩
    · intro malformed
      have refused := parseResponse_eq_ng.mpr (broken malformed)
      refine ⟨refused, ?_⟩
      intro κ program client s isOpen idle
      exact closed_of_ng isOpen idle refused

/-- The first letter of a text is taken for a whole reply, and completes a
request.  An unreadable length is taken for zero. -/
theorem garbage_is_a_reply :
    parseResponse 100 (ascii "HTTP/1.1") =
      .ok (some ⟨72, [], []⟩, ascii "TTP/1.1") ∧
    parseResponse 100 (ascii "$x\r\n\r\n") = .ok (some ⟨36, [], []⟩, []) ∧
    ¬ Rejects 100 (ascii "HTTP/1.1") ∧ ¬ Rejects 100 (ascii "$x\r\n\r\n") := by
  have letter : parseResponse 100 (ascii "HTTP/1.1") =
      .ok (some ⟨72, [], []⟩, ascii "TTP/1.1") := by decide +kernel
  have text : parseResponse 100 (ascii "$x\r\n\r\n") =
      .ok (some ⟨36, [], []⟩, []) := by decide +kernel
  refine ⟨letter, text, ?_, ?_⟩
  · intro rejects
    have malformed : Malformed 100 (ascii "HTTP/1.1") := by
      have unknown : ¬ IsType 72 := by decide
      exact .type unknown
    have refused := (rejects.2 malformed).1
    rw [letter] at refused
    cases refused
  · intro rejects
    have bad : ∀ number, ¬ IsLength (ascii "x") number := by
      intro number isLength
      cases isLength with
      | number numeral long =>
          exact absurd (numeral.digits 120 (by decide)) (by decide)
    have malformed : Malformed 100 (ascii "$x\r\n\r\n") :=
      .length (.inl rfl) (show (13 : UInt8) ∉ ascii "x" by decide) bad
    have refused := (rejects.2 malformed).1
    rw [text] at refused
    cases refused

end Redis

end Universe
