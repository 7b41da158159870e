import Universe.HttpProxy.Authorisation

/-!
# The form of a verification request

`url_encode` prints into an `ostringstream`.  `hex`, `uppercase` and the fill
character stay until they are changed, a width is used up by the next output.
What is printed for a byte nevertheless depends on the byte alone, and the
service reads exactly the two parameters that were meant.
-/

namespace Universe.HttpProxy

/-- The text of a stream and the flags that decide how the next output looks.
-/
structure OStringStream where
  text : Bytes := []
  fill : UInt8 := 32
  hex : Bool := false
  uppercase : Bool := false
  width : Nat := 0

/-- `isalnum` in the C locale. -/
def isAlnum (byte : UInt8) : Bool :=
  (48 ≤ byte && byte ≤ 57) || (65 ≤ byte && byte ≤ 90) ||
    (97 ≤ byte && byte ≤ 122)

/-- What `url_encode` leaves as it is. -/
def unreserved (byte : UInt8) : Bool :=
  isAlnum byte || byte = 45 || byte = 95 || byte = 46 || byte = 126

namespace OStringStream

/-- Formatted output is padded on the left. -/
def put (s : OStringStream) (output : Bytes) : OStringStream :=
  { s with
    text := s.text ++ List.replicate (s.width - output.length) s.fill ++ output
    width := 0 }

def numeral (s : OStringStream) (value : Nat) : Bytes :=
  (Nat.toDigits (if s.hex then 16 else 10) value).map fun digit =>
    (if s.uppercase then digit.toUpper else digit).toNat.toUInt8

/-- One round of the loop of `url_encode`. -/
def encode (s : OStringStream) (c : UInt8) : OStringStream :=
  if unreserved c then s.put [c]
  else
    let s := { s with uppercase := true }
    let s := s.put [37]
    let s := { s with width := 2 }
    let s := s.put (s.numeral c.toNat)
    { s with uppercase := false }

/-- `url_encode`. -/
def urlEncode (value : Bytes) : Bytes :=
  (value.foldl encode { fill := 48, hex := true }).text

/-- The two digits of a byte. -/
theorem numeral_byte (byte : UInt8) :
    List.replicate (2 - (numeral { hex := true, uppercase := true }
        byte.toNat).length) 48 ++
      numeral { hex := true, uppercase := true } byte.toNat =
        [hexDigit (byte / 16), hexDigit (byte % 16)] := by
  revert byte
  exact forall_byte (by decide +kernel)

/-- After every byte the flags are those from before it. -/
theorem encode_eq (text : Bytes) (c : UInt8) :
    encode { text, fill := 48, hex := true } c =
      { text := text ++ urlEncodeByte c, fill := 48, hex := true } := by
  have same : urlEncodeByte c = if unreserved c then [c]
      else [37, hexDigit (c / 16), hexDigit (c % 16)] := rfl
  unfold encode
  rw [same]
  split
  · simp [put]
  · simpa [put, numeral] using numeral_byte c

theorem urlEncode_eq (value : Bytes) :
    urlEncode value = HttpProxy.urlEncode value := by
  have printed : ∀ text : Bytes,
      value.foldl encode { text, fill := 48, hex := true } =
        { text := text ++ HttpProxy.urlEncode value, fill := 48,
          hex := true } := by
    induction value with
    | nil => exact fun text => by simp [HttpProxy.urlEncode]
    | cons byte value induction =>
        intro text
        rw [List.foldl_cons, encode_eq, induction, List.append_assoc]
        rfl
  unfold urlEncode
  rw [printed []]
  rfl

end OStringStream

def upperHex (byte : UInt8) : Bool :=
  (48 ≤ byte && byte ≤ 57) || (65 ≤ byte && byte ≤ 70)

/-- Unreserved characters, and escapes of two capital digits. -/
inductive Escaped : Bytes → Prop where
  | nil : Escaped []
  | plain {byte : UInt8} {rest : Bytes} (kept : unreserved byte = true)
      (escaped : Escaped rest) : Escaped (byte :: rest)
  | escape {high low : UInt8} {rest : Bytes} (first : upperHex high = true)
      (second : upperHex low = true) (escaped : Escaped rest) :
      Escaped (37 :: high :: low :: rest)

/-- The value of a hexadecimal digit in either case. -/
def digitValue (byte : UInt8) : Option UInt8 :=
  if 48 ≤ byte && byte ≤ 57 then some (byte - 48)
  else if 65 ≤ byte && byte ≤ 70 then some (byte - 55)
  else if 97 ≤ byte && byte ≤ 102 then some (byte - 87)
  else none

/-- An escape stands for its byte, everything else for itself. -/
def percentDecode : Bytes → Bytes
  | 37 :: high :: low :: rest =>
      match digitValue high, digitValue low with
      | some first, some second => (16 * first + second) :: percentDecode rest
      | _, _ => 37 :: percentDecode (high :: low :: rest)
  | byte :: rest => byte :: percentDecode rest
  | [] => []

/-- A name or a value of `application/x-www-form-urlencoded`. -/
def formDecode (text : Bytes) : Bytes :=
  percentDecode (text.map fun byte => if byte = 43 then 32 else byte)

/-- The parameters that a form gives, in their order. -/
def parameters (body : Bytes) : List (Bytes × Bytes) :=
  ((body.splitOn 38).filter fun pair => !pair.isEmpty).map fun pair =>
    let name := pair.takeWhile (· != 61)
    (formDecode name, formDecode (pair.drop (name.length + 1)))

theorem escaped_append {first second : Bytes} (escaped : Escaped first)
    (more : Escaped second) : Escaped (first ++ second) := by
  induction escaped with
  | nil => exact more
  | plain kept _ induction => exact .plain kept induction
  | escape high low _ induction => exact .escape high low induction

theorem escaped_byte (byte : UInt8) : Escaped (urlEncodeByte byte) := by
  have digits : ∀ byte : UInt8, upperHex (hexDigit (byte / 16)) = true ∧
      upperHex (hexDigit (byte % 16)) = true :=
    forall_byte (by decide +kernel)
  have same : urlEncodeByte byte = if unreserved byte then [byte]
      else [37, hexDigit (byte / 16), hexDigit (byte % 16)] := rfl
  rw [same]
  split
  · next kept => exact .plain kept .nil
  · exact .escape (digits byte).1 (digits byte).2 .nil

theorem escaped_urlEncode (text : Bytes) : Escaped (urlEncode text) := by
  induction text with
  | nil => exact .nil
  | cons byte text induction =>
      exact escaped_append (escaped_byte byte) induction

/-- A byte that begins no escape is decoded to itself. -/
theorem percentDecode_plain {byte : UInt8} (different : byte ≠ 37)
    (rest : Bytes) :
    percentDecode (byte :: rest) = byte :: percentDecode rest := by
  rw [percentDecode.eq_2]
  intro high low tail same
  exact absurd same different

theorem percentDecode_byte (byte : UInt8) (rest : Bytes) :
    percentDecode (urlEncodeByte byte ++ rest) = byte :: percentDecode rest := by
  have digits : ∀ byte : UInt8,
      digitValue (hexDigit (byte / 16)) = some (byte / 16) ∧
        digitValue (hexDigit (byte % 16)) = some (byte % 16) ∧
        16 * (byte / 16) + byte % 16 = byte :=
    forall_byte (by decide +kernel)
  have same : urlEncodeByte byte = if unreserved byte then [byte]
      else [37, hexDigit (byte / 16), hexDigit (byte % 16)] := rfl
  rw [same]
  split
  · next kept =>
      refine percentDecode_plain ?_ rest
      rintro rfl
      exact absurd kept (by decide)
  · obtain ⟨high, low, value⟩ := digits byte
    change percentDecode (37 :: _ :: _ :: rest) = _
    rw [percentDecode.eq_1, high, low]
    exact congrArg (· :: percentDecode rest) value

theorem percentDecode_urlEncode (text : Bytes) :
    percentDecode (urlEncode text) = text := by
  induction text with
  | nil => rfl
  | cons byte text induction =>
      change percentDecode (urlEncodeByte byte ++ urlEncode text) = _
      rw [percentDecode_byte, induction]

/-- No encoded byte has a meaning in a form. -/
theorem urlEncode_mem {text : Bytes} {byte : UInt8}
    (member : byte ∈ urlEncode text) : byte ≠ 38 ∧ byte ≠ 43 ∧ byte ≠ 61 := by
  have each : ∀ byte : UInt8, (urlEncodeByte byte).all (fun code =>
      code != 38 && code != 43 && code != 61) = true :=
    forall_byte (by decide +kernel)
  obtain ⟨source, -, inside⟩ := List.mem_flatMap.mp member
  simpa [and_assoc] using List.all_eq_true.mp (each source) byte inside

theorem formDecode_urlEncode (text : Bytes) :
    formDecode (urlEncode text) = text := by
  have kept : (urlEncode text).map (fun byte => if byte = 43 then 32 else byte) =
      urlEncode text := by
    have same : ∀ byte ∈ urlEncode text,
        (if byte = 43 then 32 else byte) = byte :=
      fun byte member => if_neg (urlEncode_mem member).2.1
    exact (List.map_congr_left same).trans (List.map_id' _)
  unfold formDecode
  rw [kept, percentDecode_urlEncode]

/-- A pair of a form is cut at its first mark. -/
theorem parameter_eq (name : Bytes) (plain : 61 ∉ name) (value : Bytes) :
    (name ++ 61 :: value).takeWhile (· != 61) = name ∧
      (name ++ 61 :: value).drop (name.length + 1) = value := by
  constructor
  · have kept : ∀ byte ∈ name, (byte != 61) = true := by
      intro byte member
      exact bne_iff_ne.mpr fun same => plain (same ▸ member)
    rw [List.takeWhile_append_of_pos kept]
    simp
  · rw [← List.drop_drop, List.drop_left]
    rfl

/-- What `do_auth` posts to the verification service. -/
def verifyBody (user pass : Bytes) : Bytes :=
  ascii "name=" ++ OStringStream.urlEncode user ++ ascii "&password=" ++
    OStringStream.urlEncode pass

theorem verifyBody_eq (user pass : Bytes) :
    verifyBody user pass = form user pass := by
  unfold verifyBody form
  rw [OStringStream.urlEncode_eq, OStringStream.urlEncode_eq]

/-- The service reads the user and the password, and nothing else. -/
theorem parameters_form (user pass : Bytes) :
    parameters (form user pass) =
      [(ascii "name", user), (ascii "password", pass)] := by
  have pairs : form user pass = (ascii "name" ++ 61 :: urlEncode user) ++
      38 :: (ascii "password" ++ 61 :: urlEncode pass) := by
    simp [form, ascii]
  have whole : ∀ name ∈ [ascii "name", ascii "password"], ∀ text,
      (38 : UInt8) ∉ name ++ 61 :: urlEncode text := by
    intro name known text member
    have plain : ∀ name ∈ [ascii "name", ascii "password"],
        (38 : UInt8) ∉ name := by
      decide
    rcases List.mem_append.mp member with inside | inside
    · exact plain name known inside
    · rcases List.mem_cons.mp inside with same | inside
      · cases same
      · exact (urlEncode_mem inside).1 rfl
  have split : (form user pass).splitOn 38 =
      [ascii "name" ++ 61 :: urlEncode user,
        ascii "password" ++ 61 :: urlEncode pass] := by
    rw [pairs, List.splitOn_append_cons_self_of_not_mem
      (whole _ (by simp) user), List.splitOn_eq_singleton
      (whole _ (by simp) pass)]
  have first := parameter_eq (ascii "name") (by decide) (urlEncode user)
  have second := parameter_eq (ascii "password") (by decide)
    (urlEncode pass)
  have names : formDecode (ascii "name") = ascii "name" ∧
      formDecode (ascii "password") = ascii "password" := by
    decide
  unfold parameters
  rw [split]
  simp [first, second, names, formDecode_urlEncode]

/-- What `url_encode` prints is safe and can be read back, so that the body of
a verification request says which user and which password it is about, and
nothing else. -/
theorem urlEncode_reversible (text user pass : Bytes) :
    Escaped (OStringStream.urlEncode text) ∧
      percentDecode (OStringStream.urlEncode text) = text ∧
      parameters (verifyBody user pass) =
        [(ascii "name", user), (ascii "password", pass)] ∧
      ∀ otherUser otherPass,
        verifyBody user pass = verifyBody otherUser otherPass →
          user = otherUser ∧ pass = otherPass := by
  rw [OStringStream.urlEncode_eq]
  refine ⟨escaped_urlEncode text, percentDecode_urlEncode text, ?_, ?_⟩
  · rw [verifyBody_eq, parameters_form]
  · intro otherUser otherPass same
    rw [verifyBody_eq, verifyBody_eq] at same
    have read := congrArg parameters same
    rw [parameters_form, parameters_form] at read
    cases read
    exact ⟨rfl, rfl⟩

end Universe.HttpProxy
