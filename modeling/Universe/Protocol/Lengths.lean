import Universe.Redis.Grammar
import Universe.Soa.Client

/-!
# Lengths that peers declare

Four parsers make a string as long as the peer says, and look only then
whether so many bytes have arrived.  A length that no string has throws
something that is not a `ReaderException`.
-/

namespace Universe

open Incremental StreamReader

/-- No string is made longer than the bytes that are left, and nothing but a
`ReaderException` is thrown. -/
def Checked {α : Type} (parse : StreamReader (Option α))
    (asks : Bytes → Nat → Bytes → Prop) (input : Bytes) : Prop :=
  (∀ length left, asks input length left → length ≤ left.length) ∧
    ∀ left, parse input ≠ .ok (none, left)

/-- Where strings can be as long as the input, it is enough that none is made
longer than the bytes that are left. -/
theorem checked_iff {α : Type} {parse : StreamReader (Option α)}
    {asks : Bytes → Nat → Bytes → Prop} {maxSize : Nat} {input : Bytes}
    (isString : input.length ≤ maxSize)
    (escapes : ∀ left, parse input = .ok (none, left) →
      ∃ length, asks input length left ∧ maxSize < length)
    (remains : ∀ length left, asks input length left →
      left.length ≤ input.length)
    {announces : Bytes → Nat → Bytes → Prop}
    (same : ∀ length left, asks input length left ↔ announces input length left) :
    Checked parse asks input ↔
      ∀ length left, announces input length left → length ≤ left.length := by
  constructor
  · intro checked length left announced
    exact checked.1 length left ((same length left).mpr announced)
  · intro enough
    have checked : ∀ length left, asks input length left →
        length ≤ left.length :=
      fun length left asked => enough length left ((same length left).mp asked)
    refine ⟨checked, ?_⟩
    intro left escaped
    obtain ⟨length, asked, large⟩ := escapes left escaped
    have bound := checked length left asked
    have rest := remains length left asked
    omega

theorem readNetwork_eq_ok {size value : Nat} {input rest : Bytes} :
    readNetwork size input = .ok (value, rest) ↔ ∃ bytes : Bytes,
      input = bytes ++ rest ∧ bytes.length = size ∧
        ofLittleEndian (Utils.hton bytes) = value := by
  unfold readNetwork
  simp only [bind_eq_ok, pure_eq_ok, readSize_eq_ok]
  constructor
  · rintro ⟨bytes, between, ⟨rfl, isSize⟩, rfl, rfl⟩
    exact ⟨bytes, rfl, isSize, rfl⟩
  · rintro ⟨bytes, rfl, isSize, rfl⟩
    exact ⟨bytes, rest, ⟨rfl, isSize⟩, rfl, rfl⟩

namespace Soa

/-- `parse_request` and `parse_response` up to `resize`. -/
def readJsonSize : StreamReader Nat := do
  let _ ← readGuid
  readNetwork 8

/-- A string of this length is made when these bytes are left. -/
def Asks (input : Bytes) (length : Nat) (left : Bytes) : Prop :=
  readJsonSize input = .ok (length, left)

/-- The length after the sixteen bytes of a uuid. -/
def Announces (input : Bytes) (length : Nat) (left : Bytes) : Prop :=
  ∃ uuid size : Bytes, input = uuid ++ size ++ left ∧ uuid.length = 16 ∧
    size.length = 8 ∧ ofLittleEndian (Utils.hton size) = length

theorem asks_iff_announces (input : Bytes) (length : Nat) (left : Bytes) :
    Asks input length left ↔ Announces input length left := by
  unfold Asks readJsonSize
  simp only [bind_eq_ok, readGuid_eq_ok, readNetwork_eq_ok]
  constructor
  · rintro ⟨uuid, between, rfl, size, rfl, eight, rfl⟩
    exact ⟨uuid.bytes, size, by simp, uuid.size, eight, rfl⟩
  · rintro ⟨uuid, size, rfl, sixteen, eight, rfl⟩
    exact ⟨⟨uuid, sixteen⟩, size ++ left, by simp, size, rfl, eight, rfl⟩

theorem Announces.remains {input : Bytes} {length : Nat} {left : Bytes}
    (announces : Announces input length left) :
    left.length ≤ input.length := by
  obtain ⟨uuid, size, rfl, _, _, _⟩ := announces
  simp only [List.length_append]
  omega

theorem readPacket_escapes {maxSize : Nat} {input left : Bytes}
    (escaped : readPacket maxSize input = .ok (none, left)) :
    ∃ length, Asks input length left ∧ maxSize < length := by
  obtain ⟨uuid, between, readUuid, later⟩ := bind_eq_ok.mp escaped
  obtain ⟨length, rest, readLength, made⟩ := bind_eq_ok.mp later
  split at made
  · next large =>
      obtain ⟨-, rfl⟩ := pure_eq_ok.mp made
      exact ⟨length, bind_eq_ok.mpr ⟨uuid, between, readUuid, readLength⟩, large⟩
  · obtain ⟨json, after, _, ended⟩ := bind_eq_ok.mp made
    cases (pure_eq_ok.mp ended).1

/-- What is made of a packet does not change when its length is checked. -/
theorem checked_packet {α : Type} {maxSize : Nat} {input : Bytes}
    (isString : input.length ≤ maxSize) (value : GUID × Bytes → α) :
    Checked (do return (← readPacket maxSize).map value) Asks input ↔
      ∀ length left, Announces input length left → length ≤ left.length := by
  apply checked_iff isString
  · intro left escaped
    obtain ⟨packet, rest, read, ended⟩ := bind_eq_ok.mp escaped
    obtain ⟨isNone, rfl⟩ := pure_eq_ok.mp ended
    rw [Option.map_eq_none_iff.mp isNone] at read
    exact readPacket_escapes read
  · intro length left asked
    exact ((asks_iff_announces _ _ _).mp asked).remains
  · exact asks_iff_announces input

end Soa

namespace WebSocket

/-- A frame up to the string for its payload. -/
def readPayloadLen : StreamReader Nat := do
  let _ ← readChar
  let secondByte ← readChar
  let payloadLen ← readLength secondByte
  let _ ← (if secondByte >>> 7 ≠ 0 then readSize 4 else pure [])
  return payloadLen

/-- A string of this length is made when these bytes are left, for the next
frame of a message or for a later one. -/
inductive Asks (maxSize : Nat) : Bytes → Nat → Bytes → Prop where
  | now {input left : Bytes} {length : Nat}
      (read : readPayloadLen input = .ok (length, left)) :
      Asks maxSize input length left
  | later {input rest left : Bytes} {frame : Frame} {length : Nat}
      (read : readFrame maxSize input = .ok (some frame, rest))
      (more : frame.fin = false) (asks : Asks maxSize rest length left) :
      Asks maxSize input length left

/-- The bytes before a payload, and its length. -/
inductive Header : Bytes → Nat → Prop where
  | seven {first second : UInt8} {key : Bytes}
      (notSixteen : second &&& 0x7f ≠ 0x7e)
      (notSixtyFour : second &&& 0x7f ≠ 0x7f)
      (keyed : key.length = if second >>> 7 ≠ 0 then 4 else 0) :
      Header (first :: second :: key) (second &&& 0x7f).toNat
  | sixteen {first second : UInt8} {length key : Bytes}
      (form : second &&& 0x7f = 0x7e) (size : length.length = 2)
      (keyed : key.length = if second >>> 7 ≠ 0 then 4 else 0) :
      Header (first :: second :: (length ++ key))
        (ofLittleEndian (Utils.hton length))
  | sixtyFour {first second : UInt8} {length key : Bytes}
      (form : second &&& 0x7f = 0x7f) (size : length.length = 8)
      (keyed : key.length = if second >>> 7 ≠ 0 then 4 else 0) :
      Header (first :: second :: (length ++ key))
        (ofLittleEndian (Utils.hton length))

/-- The length in the header of a frame, after whole frames without `fin`. -/
inductive Announces : Bytes → Nat → Bytes → Prop where
  | now {header left : Bytes} {length : Nat} (isHeader : Header header length) :
      Announces (header ++ left) length left
  | later {header payload rest left : Bytes} {length : Nat} {first : UInt8}
      (isHeader : Header header payload.length)
      (begins : header.head? = some first) (more : first >>> 7 = 0)
      (announces : Announces rest length left) :
      Announces (header ++ payload ++ rest) length left

theorem readKey_eq_ok {second : UInt8} {input key rest : Bytes} :
    (if second >>> 7 ≠ 0 then readSize 4 else pure [] : StreamReader Bytes)
        input = .ok (key, rest) ↔
      input = key ++ rest ∧
        key.length = if second >>> 7 ≠ 0 then 4 else 0 := by
  split
  · exact readSize_eq_ok
  · rw [pure_eq_ok]
    constructor
    · rintro ⟨rfl, rfl⟩
      exact ⟨rfl, rfl⟩
    · rintro ⟨rfl, empty⟩
      rw [List.length_eq_zero_iff.mp empty]
      exact ⟨rfl, rfl⟩

/-- What is read up to a payload is its header. -/
theorem readPayloadLen_eq_ok {input left : Bytes} {length : Nat} :
    readPayloadLen input = .ok (length, left) ↔
      ∃ header, input = header ++ left ∧ Header header length := by
  unfold readPayloadLen
  simp only [bind_eq_ok, pure_eq_ok, readChar_eq_ok, readKey_eq_ok]
  constructor
  · rintro ⟨first, _, rfl, second, between, rfl, announced, afterLength,
      readLength, key, _, ⟨rfl, keyed⟩, rfl, rfl⟩
    unfold WebSocket.readLength at readLength
    split at readLength
    · next form =>
        obtain ⟨bytes, rfl, size, rfl⟩ := readNetwork_eq_ok.mp readLength
        exact ⟨first :: second :: (bytes ++ key), by simp,
          .sixteen form size keyed⟩
    · next notSixteen =>
        split at readLength
        · next form =>
            obtain ⟨bytes, rfl, size, rfl⟩ := readNetwork_eq_ok.mp readLength
            exact ⟨first :: second :: (bytes ++ key), by simp,
              .sixtyFour form size keyed⟩
        · next notSixtyFour =>
            obtain ⟨rfl, rfl⟩ := pure_eq_ok.mp readLength
            exact ⟨first :: second :: key, rfl,
              .seven notSixteen notSixtyFour keyed⟩
  · rintro ⟨header, rfl, isHeader⟩
    cases isHeader with
    | @seven first second key notSixteen notSixtyFour keyed =>
        refine ⟨first, _, rfl, second, _, rfl, _, key ++ left, ?_, key, left,
          ⟨rfl, keyed⟩, rfl, rfl⟩
        unfold WebSocket.readLength
        rw [if_neg notSixteen, if_neg notSixtyFour]
        rfl
    | @sixteen first second bytes key form size keyed =>
        refine ⟨first, _, rfl, second, _, rfl, _, key ++ left, ?_, key, left,
          ⟨rfl, keyed⟩, rfl, rfl⟩
        unfold WebSocket.readLength
        rw [if_pos form]
        exact readNetwork_eq_ok.mpr ⟨bytes, by simp, size, rfl⟩
    | @sixtyFour first second bytes key form size keyed =>
        refine ⟨first, _, rfl, second, _, rfl, _, key ++ left, ?_, key, left,
          ⟨rfl, keyed⟩, rfl, rfl⟩
        have notSixteen : second &&& 0x7f ≠ 0x7e := by
          rw [form]
          decide
        unfold WebSocket.readLength
        rw [if_neg notSixteen, if_pos form]
        exact readNetwork_eq_ok.mpr ⟨bytes, by simp, size, rfl⟩

/-- A frame is a header and a payload, or its payload cannot be made. -/
theorem readFrame_cases {maxSize : Nat} {input rest : Bytes}
    {read : Option Frame} (returned : readFrame maxSize input = .ok (read, rest)) :
    ∃ length left, readPayloadLen input = .ok (length, left) ∧
      ((read = none ∧ maxSize < length ∧ left = rest) ∨
        ∃ frame payload first, read = some frame ∧ left = payload ++ rest ∧
          payload.length = length ∧ input.head? = some first ∧
          frame.fin = decide (first >>> 7 ≠ 0)) := by
  obtain ⟨first, _, readFirst, returned⟩ := bind_eq_ok.mp returned
  obtain ⟨second, between, readSecond, returned⟩ := bind_eq_ok.mp returned
  obtain ⟨length, afterLength, readLength, returned⟩ := bind_eq_ok.mp returned
  obtain ⟨key, left, readKey, returned⟩ := bind_eq_ok.mp returned
  have announced : readPayloadLen input = .ok (length, left) := by
    unfold readPayloadLen
    rw [bind_of_ok readFirst, bind_of_ok readSecond, bind_of_ok readLength,
      bind_of_ok readKey]
    rfl
  refine ⟨length, left, announced, ?_⟩
  split at returned
  · next large =>
      obtain ⟨rfl, rfl⟩ := pure_eq_ok.mp returned
      exact .inl ⟨rfl, large, rfl⟩
  · obtain ⟨payload, after, content, ended⟩ := bind_eq_ok.mp returned
    obtain ⟨rfl, rfl⟩ := pure_eq_ok.mp ended
    obtain ⟨rfl, size⟩ := readSize_eq_ok.mp content
    have begins : input.head? = some first := by
      rw [readChar_eq_ok.mp readFirst]
      rfl
    exact .inr ⟨_, payload, first, rfl, rfl, size, begins, rfl⟩

/-- A header and its payload are a frame. -/
theorem readFrame_payload {maxSize : Nat} {input payload rest : Bytes}
    {first : UInt8}
    (announced : readPayloadLen input =
      .ok (payload.length, payload ++ rest))
    (begins : input.head? = some first) (fits : payload.length ≤ maxSize) :
    ∃ frame, readFrame maxSize input = .ok (some frame, rest) ∧
      frame.fin = decide (first >>> 7 ≠ 0) := by
  obtain ⟨byte, _, readFirst, announced⟩ := bind_eq_ok.mp announced
  obtain ⟨second, between, readSecond, announced⟩ := bind_eq_ok.mp announced
  obtain ⟨length, afterLength, readLength, announced⟩ := bind_eq_ok.mp announced
  obtain ⟨key, left, readKey, announced⟩ := bind_eq_ok.mp announced
  obtain ⟨rfl, rfl⟩ := pure_eq_ok.mp announced
  have same : byte = first := by
    rw [readChar_eq_ok.mp readFirst] at begins
    exact Option.some.inj begins
  subst same
  have content : readSize payload.length (payload ++ rest) =
      .ok (payload, rest) := readSize_eq_ok.mpr ⟨rfl, rfl⟩
  refine ⟨{
    fin := byte >>> 7 ≠ 0
    opcode := byte &&& 0x0f
    payload := if second >>> 7 ≠ 0 then masked key payload else payload },
    ?_, rfl⟩
  unfold readFrame
  rw [bind_of_ok readFirst, bind_of_ok readSecond, bind_of_ok readLength,
    bind_of_ok readKey, if_neg (Nat.not_lt.mpr fits), bind_of_ok content]
  rfl

theorem Announces.remains {input : Bytes} {length : Nat} {left : Bytes}
    (announces : Announces input length left) :
    left.length ≤ input.length := by
  induction announces with
  | now isHeader => simp
  | later isHeader begins more announces induction =>
      simp only [List.length_append]
      omega

theorem head?_header {header : Bytes} {length : Nat}
    (isHeader : Header header length) (rest : Bytes) :
    (header ++ rest).head? = header.head? := by
  cases isHeader <;> rfl

theorem asks_iff_announces {maxSize : Nat} {input : Bytes}
    (isString : input.length ≤ maxSize) (length : Nat) (left : Bytes) :
    Asks maxSize input length left ↔ Announces input length left := by
  constructor
  · intro asks
    clear isString
    induction asks with
    | now read =>
        obtain ⟨header, rfl, isHeader⟩ := readPayloadLen_eq_ok.mp read
        exact .now isHeader
    | later read more asks induction =>
        obtain ⟨announced, after, readLength, escaped | whole⟩ :=
          readFrame_cases read
        · cases escaped.1
        · obtain ⟨_, payload, first, same, rfl, rfl, begins, fin⟩ := whole
          cases same
          obtain ⟨header, rfl, isHeader⟩ := readPayloadLen_eq_ok.mp readLength
          rw [head?_header isHeader] at begins
          rw [← List.append_assoc]
          refine .later isHeader begins ?_ induction
          rw [more] at fin
          simpa using fin.symm
  · intro announces
    induction announces with
    | @now header left length isHeader =>
        exact .now (readPayloadLen_eq_ok.mpr ⟨header, rfl, isHeader⟩)
    | @later header payload rest left length first isHeader begins more _
        induction =>
        simp only [List.length_append] at isString
        have announced : readPayloadLen (header ++ payload ++ rest) =
            .ok (payload.length, payload ++ rest) :=
          readPayloadLen_eq_ok.mpr ⟨header, by simp, isHeader⟩
        have front : (header ++ payload ++ rest).head? = some first := by
          rw [List.append_assoc, head?_header isHeader]
          exact begins
        obtain ⟨frame, read, fin⟩ := readFrame_payload announced front
          (show payload.length ≤ maxSize by omega)
        refine .later read ?_ (induction (by omega))
        rw [fin]
        simpa using more

/-- A message that throws something else has asked for a payload that cannot
be made. -/
theorem fragments_escape {client : Fd} {maxSize : Nat} {input left : Bytes}
    {known : Option UInt8 × Bytes}
    (escaped : iterate .ag (readFragment client maxSize) known input =
      .ok (none, left)) :
    ∃ length, Asks maxSize input length left ∧ maxSize < length := by
  induction size : input.length using Nat.strong_induction_on
    generalizing input known with
  | _ limit induction =>
      rw [fragments_eq] at escaped
      obtain ⟨round, between, read, later⟩ := bind_eq_ok.mp escaped
      have less := takes_readFragment client maxSize known _ _ _ read
      obtain ⟨frame, rest, readFirst, ended⟩ := bind_eq_ok.mp read
      cases frame with
      | none =>
          obtain ⟨rfl, rfl⟩ := pure_eq_ok.mp ended
          obtain ⟨-, rfl⟩ := pure_eq_ok.mp later
          obtain ⟨length, after, announced, large | whole⟩ :=
            readFrame_cases readFirst
          · obtain ⟨-, large, rfl⟩ := large
            exact ⟨length, .now announced, large⟩
          · obtain ⟨_, _, _, same, _⟩ := whole
            cases same
      | some frame =>
          dsimp only at ended
          split at ended
          · obtain ⟨rfl, rfl⟩ := pure_eq_ok.mp ended
            cases (pure_eq_ok.mp later).1
          · next unfinished =>
              obtain ⟨rfl, rfl⟩ := pure_eq_ok.mp ended
              obtain ⟨length, asks, large⟩ :=
                induction rest.length (by omega) later rfl
              exact ⟨length, .later readFirst (by simpa using unfinished) asks,
                large⟩

end WebSocket

namespace Redis

/-- A string of this length is made when these bytes are left, for the reply or
for an element of it. -/
inductive Asks (maxSize : Nat) : Bytes → Nat → Bytes → Prop where
  | bulk {input length left : Bytes}
      (line : readLine input = .ok (length, left)) (positive : 0 < atol length) :
      Asks maxSize (36 :: input) (atol length).toNat left
  | element {input length between rest left : Bytes}
      {elements : List RedisReply} {done size : Nat}
      (line : readLine input = .ok (length, between))
      (read : readElements (parseResponse maxSize) done between =
        .ok (some elements, rest))
      (more : done < (atol length).toNat) (asks : Asks maxSize rest size left) :
      Asks maxSize (42 :: input) size left

/-- The length of a bulk string, in the reply or in an element of it after
whole ones. -/
inductive Announces (maxSize : Nat) : Bytes → Nat → Bytes → Prop where
  | bulk {length left : Bytes} (plain : 13 ∉ length)
      (positive : 0 < atol length) :
      Announces maxSize (36 :: (length ++ 13 :: 10 :: left))
        (atol length).toNat left
  | element {length before rest left : Bytes} {elements : List RedisReply}
      {size : Nat} (plain : 13 ∉ length)
      (good : ReadsAll lenient maxSize before elements)
      (more : elements.length < (atol length).toNat)
      (announces : Announces maxSize rest size left) :
      Announces maxSize (42 :: (length ++ 13 :: 10 :: (before ++ rest))) size left

variable {maxSize : Nat}

theorem asks_iff_announces (input : Bytes) (size : Nat) (left : Bytes) :
    Asks maxSize input size left ↔ Announces maxSize input size left := by
  constructor
  · intro asks
    induction asks with
    | bulk line positive =>
        obtain ⟨rfl, plain⟩ := readLine_eq_ok.mp line
        exact .bulk plain positive
    | element line read more asks induction =>
        obtain ⟨rfl, plain⟩ := readLine_eq_ok.mp line
        obtain ⟨before, rfl, good, count⟩ := readsAll_of_readElements
          ((takes_parseResponse maxSize).weaken (Nat.zero_le _))
          (fun _ _ _ _ returned => reads_of_parseResponse returned)
          (Nat.lt_succ_self _) read
        exact .element plain good (count ▸ more) induction
  · intro announces
    induction announces with
    | bulk plain positive => exact .bulk (readLine_line plain _) positive
    | @element _ _ rest _ _ _ plain good more announces induction =>
        exact .element (readLine_line plain _) (readElements_of_reads good rest)
          more induction

theorem Announces.remains {input : Bytes} {size : Nat} {left : Bytes}
    (announces : Announces maxSize input size left) :
    left.length ≤ input.length := by
  induction announces with
  | bulk plain positive =>
      simp only [List.length_cons, List.length_append]
      omega
  | element plain good more announces induction =>
      simp only [List.length_cons, List.length_append]
      omega

/-- Elements that are not read have read some and then not another. -/
theorem readElements_eq_none {parse : StreamReader (Option RedisReply)}
    {count : Nat} {input left : Bytes}
    (escaped : readElements parse count input = .ok (none, left)) :
    ∃ done rest elements,
      readElements parse done input = .ok (some elements, rest) ∧
        done < count ∧ parse rest = .ok (none, left) := by
  induction count generalizing input with
  | zero => cases (pure_eq_ok.mp escaped).1
  | succ count induction =>
      obtain ⟨first, between, head, later⟩ := bind_eq_ok.mp escaped
      cases first with
      | none =>
          obtain ⟨-, rfl⟩ := pure_eq_ok.mp later
          exact ⟨0, input, [], rfl, Nat.succ_pos count, head⟩
      | some first =>
          obtain ⟨others, after, tail, ended⟩ := bind_eq_ok.mp later
          cases others with
          | some others => cases (pure_eq_ok.mp ended).1
          | none =>
              obtain ⟨-, rfl⟩ := pure_eq_ok.mp ended
              obtain ⟨done, rest, elements, read, less, bad⟩ := induction tail
              exact ⟨done + 1, rest, first :: elements,
                readElements_eq_ok.mpr ⟨_, _, _, rfl, head, read⟩, by omega, bad⟩

theorem parseResponse_escapes {input left : Bytes}
    (escaped : parseResponse maxSize input = .ok (none, left)) :
    ∃ size, Asks maxSize input size left ∧ maxSize < size := by
  induction isLength : input.length using Nat.strong_induction_on
    generalizing input with
  | _ limit induction =>
      cases input with
      | nil => cases escaped
      | cons type input =>
          rw [parseResponse_cons] at escaped
          rw [List.length_cons] at isLength
          rcases type_cases type with isLine | rfl | rfl | isBare
          · rw [readBody_line isLine] at escaped
            obtain ⟨text, _, _, ended⟩ := bind_eq_ok.mp escaped
            cases (pure_eq_ok.mp ended).1
          · rw [readBody_bulk] at escaped
            obtain ⟨length, between, line, content⟩ := bind_eq_ok.mp escaped
            unfold readBulk at content
            split at content
            · cases (pure_eq_ok.mp content).1
            · split at content
              · next large =>
                  obtain ⟨-, rfl⟩ := pure_eq_ok.mp content
                  exact ⟨_, .bulk line (by omega), by omega⟩
              · obtain ⟨text, _, _, later⟩ := bind_eq_ok.mp content
                obtain ⟨_, _, _, ended⟩ := bind_eq_ok.mp later
                cases (pure_eq_ok.mp ended).1
          · rw [readBody_array] at escaped
            obtain ⟨length, between, line, later⟩ := bind_eq_ok.mp escaped
            obtain ⟨elements, after, content, ended⟩ := bind_eq_ok.mp later
            obtain ⟨isNone, rfl⟩ := pure_eq_ok.mp ended
            rw [Option.map_eq_none_iff.mp isNone] at content
            obtain ⟨done, rest, read, before, more, bad⟩ :=
              readElements_eq_none content
            have lineLess := takes_readLine _ _ _ line
            have elementsLess := takes_readElements
              ((takes_parseResponse maxSize).weaken (Nat.zero_le _)) _ _ _ _
              before
            obtain ⟨size, asks, large⟩ :=
              induction rest.length (by omega) bad rfl
            exact ⟨size, .element line before more asks, large⟩
          · rw [readBody_bare isBare] at escaped
            cases (pure_eq_ok.mp escaped).1

end Redis

/-- In each of the four parsers every length is checked before it is used
exactly when the input declares no length that goes beyond its end. -/
theorem declared_lengths_checked {maxSize : Nat} {input : Bytes}
    (isString : input.length ≤ maxSize) (client : Fd) :
    (Checked (Soa.parseRequest maxSize client) Soa.Asks input ↔
      ∀ length left, Soa.Announces input length left →
        length ≤ left.length) ∧
    (Checked (SoaClient.parseResponse maxSize) Soa.Asks input ↔
      ∀ length left, Soa.Announces input length left →
        length ≤ left.length) ∧
    (Checked (Redis.parseResponse maxSize) (Redis.Asks maxSize) input ↔
      ∀ length left, Redis.Announces maxSize input length left →
        length ≤ left.length) ∧
    (Checked (WebSocket.parseMessage client maxSize) (WebSocket.Asks maxSize)
        input ↔
      ∀ length left, WebSocket.Announces input length left →
        length ≤ left.length) := by
  refine ⟨Soa.checked_packet isString _, Soa.checked_packet isString _, ?_, ?_⟩
  · apply checked_iff isString
    · intro left escaped
      exact Redis.parseResponse_escapes escaped
    · intro length left asked
      exact ((Redis.asks_iff_announces _ _ _).mp asked).remains
    · exact Redis.asks_iff_announces input
  · apply checked_iff isString
    · intro left escaped
      exact WebSocket.fragments_escape escaped
    · intro length left asked
      exact ((WebSocket.asks_iff_announces isString _ _).mp asked).remains
    · exact WebSocket.asks_iff_announces isString

/-- A packet with the three bytes it declares. -/
theorem whole_packet_checked :
    Checked (Soa.parseRequest 100 5) Soa.Asks
      (SoaRequest.toBytes (.filled 7) (ascii "[1]")) := by
  have sizeRead : Soa.readJsonSize
      (SoaRequest.toBytes (.filled 7) (ascii "[1]")) =
        .ok (3, ascii "[1]") := by decide +kernel
  apply (declared_lengths_checked (by decide +kernel) 5).1.mpr
  intro length left announces
  have read := (Soa.asks_iff_announces _ _ _).mpr announces
  rw [Soa.Asks, sizeRead] at read
  cases read
  decide

/-- The largest length, and nothing after it, in each of the protocols. -/
theorem largest_length_unchecked :
    Soa.parseRequest (2 ^ 62) 5 (List.replicate 16 0 ++ List.replicate 8 255) =
      .ok (none, []) ∧
    ¬ Checked (Soa.parseRequest (2 ^ 62) 5) Soa.Asks
      (List.replicate 16 0 ++ List.replicate 8 255) ∧
    ¬ Checked (SoaClient.parseResponse (2 ^ 62)) Soa.Asks
      (List.replicate 16 0 ++ List.replicate 8 255) ∧
    ¬ Checked (Redis.parseResponse (2 ^ 62)) (Redis.Asks (2 ^ 62))
      (ascii "$9223372036854775807\r\n") ∧
    ¬ Checked (WebSocket.parseMessage 5 (2 ^ 62)) (WebSocket.Asks (2 ^ 62))
      ([130, 127] ++ List.replicate 8 255) := by
  refine ⟨by decide +kernel, ?_, ?_, ?_, ?_⟩
  · intro checked
    exact checked.2 [] (by decide +kernel)
  · intro checked
    exact checked.2 [] (by decide +kernel)
  · intro checked
    exact checked.2 [] (by decide +kernel)
  · intro checked
    exact checked.2 [] (by decide +kernel)

end Universe
