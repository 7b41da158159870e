import Universe.Redis

/-!
# What a reply looks like on the wire

A grammar of replies leaves two things open: which numbers the lines of
lengths stand for, and which types have nothing after them.  With one choice
it is the protocol, with another it is what `parse_response` reads.
-/

namespace Universe

namespace Redis

open Incremental StreamReader

/-- Strings, errors and integers are one line. -/
def IsLine (type : UInt8) : Prop := type = 43 ∨ type = 45 ∨ type = 58

/-- The types of the protocol. -/
def IsType (type : UInt8) : Prop := IsLine type ∨ type = 36 ∨ type = 42

instance (type : UInt8) : Decidable (IsLine type) :=
  inferInstanceAs (Decidable (_ ∨ _))

instance (type : UInt8) : Decidable (IsType type) :=
  inferInstanceAs (Decidable (_ ∨ _))

/-- What the grammar leaves open. -/
structure Reading where
  length : Bytes → Int → Prop
  bare : UInt8 → Prop

mutual

/-- The bytes are this reply, with bulk strings of at most `maxSize` bytes. -/
inductive Reads (reading : Reading) (maxSize : Nat) :
    Bytes → RedisReply → Prop where
  | line {type : UInt8} {text : Bytes} (isLine : IsLine type)
      (plain : 13 ∉ text) :
      Reads reading maxSize (type :: (text ++ [13, 10])) ⟨type, text, []⟩
  | bulk {length text : Bytes} (plain : 13 ∉ length)
      (isLength : reading.length length text.length)
      (fits : text.length ≤ maxSize) :
      Reads reading maxSize (36 :: (length ++ 13 :: 10 :: (text ++ [13, 10])))
        ⟨36, text, []⟩
  | null {length : Bytes} {number : Int} (plain : 13 ∉ length)
      (isLength : reading.length length number) (negative : number < 0) :
      Reads reading maxSize (36 :: (length ++ [13, 10])) ⟨32, [], []⟩
  | array {length bytes : Bytes} {number : Int} {elements : List RedisReply}
      (plain : 13 ∉ length) (isLength : reading.length length number)
      (all : ReadsAll reading maxSize bytes elements)
      (count : elements.length = number.toNat) :
      Reads reading maxSize (42 :: (length ++ 13 :: 10 :: bytes))
        ⟨42, [], elements⟩
  | bare {type : UInt8} (isBare : reading.bare type) :
      Reads reading maxSize [type] ⟨type, [], []⟩

/-- The bytes are these replies, one after the other. -/
inductive ReadsAll (reading : Reading) (maxSize : Nat) :
    Bytes → List RedisReply → Prop where
  | nil : ReadsAll reading maxSize [] []
  | cons {first rest : Bytes} {reply : RedisReply} {replies : List RedisReply}
      (head : Reads reading maxSize first reply)
      (tail : ReadsAll reading maxSize rest replies) :
      ReadsAll reading maxSize (first ++ rest) (reply :: replies)

end

/-- The grammar of `parse_response`. -/
def lenient : Reading where
  length text number := atol text = number
  bare type := ¬ IsType type

section Reader

variable {maxSize : Nat}

theorem readLine_line {line : Bytes} (plain : 13 ∉ line) (rest : Bytes) :
    readLine (line ++ 13 :: 10 :: rest) = .ok (line, rest) :=
  readLine_eq_ok.mpr ⟨rfl, plain⟩

theorem readBody_line {parse : StreamReader (Option RedisReply)} {type : UInt8}
    (isLine : IsLine type) :
    readBody maxSize parse type = (do
      let reply ← readLine
      return some ⟨type, reply, []⟩) :=
  if_pos isLine

theorem readBody_bulk {parse : StreamReader (Option RedisReply)} :
    readBody maxSize parse 36 = (do
      let length ← readLine
      readBulk maxSize (atol length)) :=
  rfl

theorem readBody_array {parse : StreamReader (Option RedisReply)} :
    readBody maxSize parse 42 = (do
      let length ← readLine
      let elements ← readElements parse (atol length).toNat
      return elements.map fun elements => ⟨42, [], elements⟩) :=
  rfl

theorem readBody_bare {parse : StreamReader (Option RedisReply)} {type : UInt8}
    (isBare : ¬ IsType type) :
    readBody maxSize parse type = return some ⟨type, [], []⟩ := by
  have notLine : ¬ (type = 43 ∨ type = 45 ∨ type = 58) :=
    fun isLine => isBare (.inl isLine)
  have notBulk : type ≠ 36 := fun isBulk => isBare (.inr (.inl isBulk))
  have notArray : type ≠ 42 := fun isArray => isBare (.inr (.inr isArray))
  unfold readBody
  rw [if_neg notLine, if_neg notBulk, if_neg notArray]

/-- Every byte is the type of something. -/
theorem type_cases (type : UInt8) :
    IsLine type ∨ type = 36 ∨ type = 42 ∨ ¬ IsType type := by
  by_cases isType : IsType type
  · rcases isType with isLine | isBulk | isArray
    · exact .inl isLine
    · exact .inr (.inl isBulk)
    · exact .inr (.inr (.inl isArray))
  · exact .inr (.inr (.inr isType))

theorem readBulk_text {text : Bytes} (fits : text.length ≤ maxSize)
    (rest : Bytes) :
    readBulk maxSize text.length (text ++ 13 :: 10 :: rest) =
      .ok (some ⟨36, text, []⟩, rest) := by
  have nonnegative : ¬ (text.length : Int) < 0 := by omega
  have allowed : ¬ (maxSize : Int) < text.length := by omega
  unfold readBulk
  rw [if_neg nonnegative, if_neg allowed]
  have content : readSize (text.length : Int).toNat (text ++ 13 :: 10 :: rest) =
      .ok (text, 13 :: 10 :: rest) := readSize_eq_ok.mpr ⟨rfl, by simp⟩
  have ended : readCrlf (13 :: 10 :: rest) = .ok ((), rest) :=
    readCrlf_eq_ok.mpr rfl
  rw [bind_of_ok content, bind_of_ok ended]
  rfl

theorem readBulk_null {number : Int} (negative : number < 0) (rest : Bytes) :
    readBulk maxSize number rest = .ok (some ⟨32, [], []⟩, rest) := by
  unfold readBulk
  rw [if_pos negative]
  rfl

theorem readElements_eq_ok {parse : StreamReader (Option RedisReply)}
    {count : Nat} {input rest : Bytes} {replies : List RedisReply} :
    readElements parse (count + 1) input = .ok (some replies, rest) ↔
      ∃ first others between, replies = first :: others ∧
        parse input = .ok (some first, between) ∧
          readElements parse count between = .ok (some others, rest) := by
  constructor
  · intro returned
    obtain ⟨first, between, head, later⟩ := bind_eq_ok.mp returned
    cases first with
    | none => cases (pure_eq_ok.mp later).1
    | some first =>
        obtain ⟨others, left, tail, ended⟩ := bind_eq_ok.mp later
        cases others with
        | none => cases (pure_eq_ok.mp ended).1
        | some others =>
            obtain ⟨same, rfl⟩ := pure_eq_ok.mp ended
            cases same
            exact ⟨first, others, between, rfl, head, tail⟩
  · rintro ⟨first, others, between, rfl, head, tail⟩
    unfold readElements
    rw [bind_of_ok head]
    dsimp only
    rw [bind_of_ok tail]
    rfl

mutual

/-- What has the form of a reply is read as this reply. -/
theorem parseResponse_of_reads {bytes : Bytes} {reply : RedisReply}
    (reads : Reads lenient maxSize bytes reply) (rest : Bytes) :
    parseResponse maxSize (bytes ++ rest) = .ok (some reply, rest) := by
  cases reads with
  | @line type text isLine plain =>
      have shape : type :: (text ++ [13, 10]) ++ rest =
          type :: (text ++ 13 :: 10 :: rest) := by simp
      rw [shape, parseResponse_cons, readBody_line isLine,
        bind_of_ok (readLine_line plain rest)]
      rfl
  | @bulk length text plain isLength fits =>
      have shape : 36 :: (length ++ 13 :: 10 :: (text ++ [13, 10])) ++ rest =
          36 :: (length ++ 13 :: 10 :: (text ++ 13 :: 10 :: rest)) := by simp
      rw [shape, parseResponse_cons, readBody_bulk,
        bind_of_ok (readLine_line plain _)]
      have same : atol length = text.length := isLength
      rw [same]
      exact readBulk_text fits rest
  | @null length number plain isLength negative =>
      have shape : 36 :: (length ++ [13, 10]) ++ rest =
          36 :: (length ++ 13 :: 10 :: rest) := by simp
      rw [shape, parseResponse_cons, readBody_bulk,
        bind_of_ok (readLine_line plain _)]
      have same : atol length = number := isLength
      rw [same]
      exact readBulk_null negative rest
  | @array length bytes number elements plain isLength all count =>
      have shape : 42 :: (length ++ 13 :: 10 :: bytes) ++ rest =
          42 :: (length ++ 13 :: 10 :: (bytes ++ rest)) := by simp
      rw [shape, parseResponse_cons, readBody_array,
        bind_of_ok (readLine_line plain _)]
      have same : atol length = number := isLength
      rw [same, ← count, bind_of_ok (readElements_of_reads all rest)]
      rfl
  | @bare type isBare =>
      have shape : [type] ++ rest = type :: rest := rfl
      rw [shape, parseResponse_cons, readBody_bare isBare]
      rfl

theorem readElements_of_reads {bytes : Bytes} {replies : List RedisReply}
    (reads : ReadsAll lenient maxSize bytes replies) (rest : Bytes) :
    readElements (parseResponse maxSize) replies.length (bytes ++ rest) =
      .ok (some replies, rest) := by
  cases reads with
  | nil => rfl
  | @cons first later reply replies head tail =>
      rw [List.append_assoc]
      exact readElements_eq_ok.mpr ⟨reply, replies, _, rfl,
        parseResponse_of_reads head _, readElements_of_reads tail rest⟩

end

/-- Elements that are read have the form of replies when every shorter input
that is read has. -/
theorem readsAll_of_readElements {parse : StreamReader (Option RedisReply)}
    (takes : Takes 0 parse) {limit : Nat}
    (shorter : ∀ (input : Bytes) reply rest, input.length < limit →
      parse input = .ok (some reply, rest) →
        ∃ bytes, input = bytes ++ rest ∧ Reads lenient maxSize bytes reply)
    {count : Nat} {input rest : Bytes} {replies : List RedisReply}
    (short : input.length < limit)
    (returned : readElements parse count input = .ok (some replies, rest)) :
    ∃ bytes, input = bytes ++ rest ∧
      ReadsAll lenient maxSize bytes replies ∧ replies.length = count := by
  induction count generalizing input replies with
  | zero =>
      obtain ⟨same, rfl⟩ := pure_eq_ok.mp returned
      cases same
      exact ⟨[], rfl, .nil, rfl⟩
  | succ count induction =>
      obtain ⟨first, others, between, rfl, head, tail⟩ :=
        readElements_eq_ok.mp returned
      have less := takes _ _ _ head
      obtain ⟨bytes, rfl, reads⟩ := shorter _ _ _ short head
      obtain ⟨later, rfl, readsAll, length⟩ := induction (by omega) tail
      refine ⟨bytes ++ later, by simp, .cons reads readsAll, ?_⟩
      rw [List.length_cons, length]

theorem reads_of_readBulk {length input rest : Bytes} {reply : RedisReply}
    (plain : 13 ∉ length)
    (returned : readBulk maxSize (atol length) input = .ok (some reply, rest)) :
    ∃ bytes, 36 :: (length ++ 13 :: 10 :: input) = bytes ++ rest ∧
      Reads lenient maxSize bytes reply := by
  unfold readBulk at returned
  split at returned
  case isTrue negative =>
    obtain ⟨same, rfl⟩ := pure_eq_ok.mp returned
    cases same
    exact ⟨36 :: (length ++ [13, 10]), by simp, .null plain rfl negative⟩
  case isFalse nonnegative =>
    split at returned
    case isTrue large => cases (pure_eq_ok.mp returned).1
    case isFalse fits =>
      obtain ⟨text, between, content, later⟩ := bind_eq_ok.mp returned
      obtain ⟨_, left, ended, final⟩ := bind_eq_ok.mp later
      obtain ⟨same, rfl⟩ := pure_eq_ok.mp final
      cases same
      obtain ⟨rfl, size⟩ := readSize_eq_ok.mp content
      have feed : between = 13 :: 10 :: left := readCrlf_eq_ok.mp ended
      subst feed
      have isLength : atol length = text.length := by omega
      refine ⟨36 :: (length ++ 13 :: 10 :: (text ++ [13, 10])), by simp, ?_⟩
      exact .bulk plain isLength (by omega)

/-- What is read as a reply has its form. -/
theorem reads_of_parseResponse {input rest : Bytes} {reply : RedisReply}
    (returned : parseResponse maxSize input = .ok (some reply, rest)) :
    ∃ bytes, input = bytes ++ rest ∧ Reads lenient maxSize bytes reply := by
  induction size : input.length using Nat.strong_induction_on
    generalizing input reply rest with
  | _ limit induction =>
      cases input with
      | nil => cases returned
      | cons type input =>
          rw [parseResponse_cons] at returned
          rw [List.length_cons] at size
          rcases type_cases type with isLine | rfl | rfl | isBare
          · rw [readBody_line isLine] at returned
            obtain ⟨text, left, line, ended⟩ := bind_eq_ok.mp returned
            obtain ⟨same, rfl⟩ := pure_eq_ok.mp ended
            cases same
            obtain ⟨rfl, plain⟩ := readLine_eq_ok.mp line
            exact ⟨type :: (text ++ [13, 10]), by simp, .line isLine plain⟩
          · rw [readBody_bulk] at returned
            obtain ⟨length, left, line, content⟩ := bind_eq_ok.mp returned
            obtain ⟨rfl, plain⟩ := readLine_eq_ok.mp line
            exact reads_of_readBulk plain content
          · rw [readBody_array] at returned
            obtain ⟨length, left, line, later⟩ := bind_eq_ok.mp returned
            obtain ⟨elements, after, content, ended⟩ := bind_eq_ok.mp later
            obtain ⟨same, rfl⟩ := pure_eq_ok.mp ended
            cases elements with
            | none => cases same
            | some elements =>
                cases same
                have less := takes_readLine _ _ _ line
                obtain ⟨rfl, plain⟩ := readLine_eq_ok.mp line
                obtain ⟨bytes, rfl, all, count⟩ :=
                  readsAll_of_readElements
                    ((takes_parseResponse maxSize).weaken (Nat.zero_le _))
                    (fun input reply rest short returned =>
                      induction input.length short returned rfl)
                    (show left.length < limit by omega) content
                refine ⟨42 :: (length ++ 13 :: 10 :: bytes), by simp, ?_⟩
                exact .array plain rfl all count
          · rw [readBody_bare isBare] at returned
            obtain ⟨same, rfl⟩ := pure_eq_ok.mp returned
            cases same
            exact ⟨[type], rfl, .bare isBare⟩

end Reader

end Redis

end Universe
