import Universe.Http.Framing
import Universe.HttpProxy.Responses
import Universe.Library.Lines

/-!
# Responses that say where they end

A client takes the text of a relayed response apart in lines, and believes the
one `Content-Length` it finds.  `to_string` prints the headers of the origin
as they came, so what a client finds depends on what the origin has sent.
-/

namespace Universe.HttpProxy

open Incremental
open HttpGateway (ResponseHeaders)

/-- The lines of a text, as a client reads them. -/
def lines (text : Bytes) : List Bytes := Lines.lines 13 10 text

def toLower (byte : UInt8) : UInt8 :=
  if 65 ≤ byte && byte ≤ 90 then byte + 32 else byte

/-- Spaces and tabs around the value of a field. -/
def isBlank (byte : UInt8) : Bool := byte = 32 || byte = 9

def trim (text : Bytes) : Bytes :=
  ((text.dropWhile isBlank).reverse.dropWhile isBlank).reverse

/-- The name of a field; upper and lower case are the same. -/
def fieldName (field : Bytes) : Bytes :=
  (field.takeWhile (· != 58)).map toLower

def fieldValue (field : Bytes) : Bytes :=
  trim (field.dropWhile (· != 58)).tail

def isLength (field : Bytes) : Bool := fieldName field == ascii "content-length"

def isCoding (field : Bytes) : Bool :=
  fieldName field == ascii "transfer-encoding"

/-- The fields behind the status line, up to the first empty line, say that
the rest of the text is the body. -/
def HttpResponse.SelfFraming (r : HttpResponse) : Prop :=
  ∃ fields, (lines r.toBytes).tail = fields ++ [] :: lines r.body ∧
    [] ∉ fields ∧
    (∃ field, fields.filter isLength = [field] ∧
      Numeral (fieldValue field) r.body.length) ∧
    ∀ field ∈ fields, isCoding field = false

namespace HttpResponse

def statusLine (r : HttpResponse) : Bytes :=
  r.httpVersion ++ ascii " " ++ decimal r.statusCode ++ ascii " " ++
    r.reasonPhrase

/-- The headers that `to_string` prints. -/
def printed (headers : List (Bytes × Bytes)) : List (Bytes × Bytes) :=
  headers.filter fun header => header.1 != ascii "Strict-Transport-Security"

/-- The fields that a client finds, if no line is empty. -/
def fields (statusLine : Bytes) (headers : List (Bytes × Bytes)) : List Bytes :=
  (lines statusLine).tail ++ (printed headers).flatMap fun header =>
    lines (header.1 ++ ascii ": " ++ header.2)

theorem toBytes_eq (r : HttpResponse) :
    r.toBytes = r.statusLine ++ 13 :: 10 ::
      ((printed r.headers).flatMap (fun header =>
        (header.1 ++ ascii ": " ++ header.2) ++ [13, 10]) ++
      [] ++ 13 :: 10 :: r.body) := by
  have shown : ∀ headers : List (Bytes × Bytes),
      (headers.flatMap fun header =>
        if header.1 = ascii "Strict-Transport-Security" then []
        else header.1 ++ ascii ": " ++ header.2 ++ ascii "\r\n") =
      (printed headers).flatMap fun header =>
        (header.1 ++ ascii ": " ++ header.2) ++ [13, 10] := by
    intro headers
    induction headers with
    | nil => rfl
    | cons header headers induction =>
        obtain ⟨name, value⟩ := header
        rw [List.flatMap_cons, induction]
        by_cases secret : name = ascii "Strict-Transport-Security"
        · simp [printed, secret]
        · have crlf : ascii "\r\n" = [13, 10] := rfl
          simp [printed, secret, crlf]
  have written : r.toBytes =
      r.httpVersion ++ ascii " " ++ decimal r.statusCode ++ ascii " " ++
        r.reasonPhrase ++ ascii "\r\n" ++
        (r.headers.flatMap fun header =>
          if header.1 = ascii "Strict-Transport-Security" then []
          else header.1 ++ ascii ": " ++ header.2 ++ ascii "\r\n") ++
        ascii "\r\n" ++ r.body := rfl
  rw [written, shown]
  simp [statusLine, ascii]

theorem lines_toBytes (r : HttpResponse) :
    (lines r.toBytes).tail =
      fields r.statusLine r.headers ++ [] :: lines r.body := by
  unfold lines fields
  rw [toBytes_eq, Lines.lines_append (by decide), List.append_nil,
    Lines.lines_flatMap (by decide)]
  have blank : Lines.lines (13 : UInt8) 10 (13 :: 10 :: r.body) =
      [] :: Lines.lines 13 10 r.body := by
    rw [Lines.lines]
    rfl
  rw [blank, List.tail_append_of_ne_nil (Lines.lines_ne_nil _)]
  simp [lines]

/-- A client finds the fields that are printed. -/
theorem selfFraming_iff (r : HttpResponse) :
    r.SelfFraming ↔
      [] ∉ fields r.statusLine r.headers ∧
      (∃ field, (fields r.statusLine r.headers).filter isLength = [field] ∧
        Numeral (fieldValue field) r.body.length) ∧
      ∀ field ∈ fields r.statusLine r.headers, isCoding field = false := by
  unfold SelfFraming
  rw [lines_toBytes]
  constructor
  · rintro ⟨found, same, rest⟩
    have equal := List.append_cancel_right same
    subst equal
    exact rest
  · intro rest
    exact ⟨_, rfl, rest⟩

end HttpResponse

namespace HeadText

variable (text : HeadText)

/-- The headers that `parse_response` keeps. -/
def kept : List (Bytes × Bytes) :=
  (text.lines.filter fun line => line.name != ascii "Transfer-Encoding").map
    fun line => (line.name, line.value)

def chunked : Bool :=
  text.lines.any fun line => line.name == ascii "Transfer-Encoding"

/-- The fields that a client finds among what the origin has sent. -/
def fields : List Bytes :=
  HttpResponse.fields
    (text.httpVersion ++ ascii " " ++ decimal (atoi text.status) ++ ascii " " ++
      text.reasonPhrase) text.kept

/-- A `Content-Length` that the proxy and a client read in the same way. -/
def Announces (value : Bytes) : Prop :=
  ∃ number : Nat, Numeral (trim value) number ∧ number < 2 ^ 31 ∧
    (number = 0 → text.chunked = false)

/-- No line of the head is empty or a coding of the body, and there is no
length, or one that everybody reads in the same way. -/
structure Clean : Prop where
  unbroken : [] ∉ text.fields
  plain : ∀ field ∈ text.fields, isCoding field = false
  length : text.fields.filter isLength = [] ∨
    ∃ value, (ascii "Content-Length", value) ∈ text.kept ∧
      text.fields.filter isLength = [ascii "Content-Length: " ++ value] ∧
      text.Announces value

theorem foldl_learn (lines : List HeaderText) (known : ResponseHeaders) :
    (lines.foldl HeaderText.learn known).headers = known.headers ++
        (lines.filter fun line => line.name != ascii "Transfer-Encoding").map
          (fun line => (line.name, line.value)) ∧
      (lines.foldl HeaderText.learn known).isChunked = (known.isChunked ||
        lines.any fun line => line.name == ascii "Transfer-Encoding") := by
  induction lines generalizing known with
  | nil => simp
  | cons line lines induction =>
      obtain ⟨headers, chunked⟩ := induction (HeaderText.learn known line)
      rw [List.foldl_cons, headers, chunked]
      unfold HeaderText.learn
      by_cases coding : line.name = ascii "Transfer-Encoding"
      · simp [coding]
      · have plain : (line.name == ascii "Transfer-Encoding") = false :=
          beq_eq_false_iff_ne.mpr coding
        rw [List.filter_cons_of_pos (by simp [coding]), List.any_cons, plain]
        simp [coding]

theorem known_headers : text.known.headers = text.kept :=
  (foldl_learn text.lines {}).1

theorem known_isChunked : text.known.isChunked = text.chunked := by
  have learned := (foldl_learn text.lines {}).2
  exact learned.trans (Bool.false_or _)

/-- The length is that of one of the headers, or there is none. -/
theorem known_contentLength :
    (text.known.contentLength = -1 ∧
      ∀ header ∈ text.kept, header.1 ≠ ascii "Content-Length") ∨
    ∃ value, (ascii "Content-Length", value) ∈ text.kept ∧
      text.known.contentLength = atoi value := by
  have general : ∀ (lines : List HeaderText) (known : ResponseHeaders),
      ((lines.foldl HeaderText.learn known).contentLength = known.contentLength ∧
        ∀ line ∈ lines, line.name ≠ ascii "Content-Length") ∨
      ∃ line ∈ lines, line.name = ascii "Content-Length" ∧
        (lines.foldl HeaderText.learn known).contentLength = atoi line.value := by
    intro lines
    induction lines with
    | nil => exact fun known => .inl ⟨rfl, fun line member => by cases member⟩
    | cons line lines induction =>
        intro known
        rw [List.foldl_cons]
        rcases induction (HeaderText.learn known line) with
          ⟨same, none⟩ | ⟨other, member, named, value⟩
        · by_cases length : line.name = ascii "Content-Length"
          · refine .inr ⟨line, List.mem_cons_self, length, same.trans ?_⟩
            have plain : line.name ≠ ascii "Transfer-Encoding" := by
              rw [length]
              decide
            unfold HeaderText.learn
            rw [if_neg plain, if_pos length]
          · refine .inl ⟨same.trans ?_, List.forall_mem_cons.mpr ⟨length, none⟩⟩
            unfold HeaderText.learn
            rw [if_neg length]
            split <;> rfl
        · exact .inr ⟨other, List.mem_cons_of_mem line member, named, value⟩
  rcases general text.lines {} with ⟨same, none⟩ | ⟨line, member, named, value⟩
  · refine .inl ⟨same, ?_⟩
    intro header kept
    obtain ⟨line, member, equal⟩ := List.mem_map.mp kept
    subst equal
    exact none line (List.mem_of_mem_filter member)
  · refine .inr ⟨line.value, List.mem_map.mpr ⟨line, ?_, ?_⟩, value⟩
    · refine List.mem_filter.mpr ⟨member, ?_⟩
      rw [named]
      decide
    · rw [named]

end HeadText

/-- What is left of a text, and the blanks around it. -/
theorem exists_trim (text : Bytes) :
    ∃ before after, text = before ++ (trim text ++ after) ∧
      (∀ byte ∈ before, isBlank byte = true) ∧
      ∀ byte ∈ after, isBlank byte = true := by
  refine ⟨text.takeWhile isBlank,
    ((text.dropWhile isBlank).reverse.takeWhile isBlank).reverse, ?_, ?_, ?_⟩
  · unfold trim
    rw [← List.reverse_append, List.takeWhile_append_dropWhile,
      List.reverse_reverse, List.takeWhile_append_dropWhile]
  · exact fun byte member => List.mem_takeWhile_imp member
  · intro byte member
    exact List.mem_takeWhile_imp (List.mem_reverse.mp member)

theorem isSpace_of_isBlank {byte : UInt8} (blank : isBlank byte = true) :
    isSpace byte = true := by
  rcases Bool.or_eq_true_iff.mp blank with space | tab
  · have same : byte = 32 := by simpa using space
    rw [same]
    decide
  · have same : byte = 9 := by simpa using tab
    rw [same]
    decide

theorem isDigit_of_isBlank {byte : UInt8} (blank : isBlank byte = true) :
    isDigit byte = false := by
  rcases Bool.or_eq_true_iff.mp blank with space | tab
  · have same : byte = 32 := by simpa using space
    rw [same]
    decide
  · have same : byte = 9 := by simpa using tab
    rw [same]
    decide

theorem isSpace_of_isDigit {byte : UInt8} (digit : isDigit byte = true) :
    isSpace byte = false := by
  obtain ⟨low, high⟩ := isDigit_bounds digit
  simp [isSpace, UInt8.le_iff_toNat_le, ← UInt8.toNat_inj]
  omega

/-- `atoi` does not mind blanks around a numeral. -/
theorem atoi_trim {text : Bytes} {number : Nat}
    (numeral : Numeral (trim text) number) : atoi text = truncated number := by
  obtain ⟨before, after, whole, blankBefore, blankAfter⟩ := exists_trim text
  obtain ⟨first, rest, digits⟩ := List.exists_cons_of_ne_nil numeral.some
  have isNumber : ∀ byte ∈ trim text, isDigit byte = true := numeral.digits
  have begins : isSpace first = false := by
    refine isSpace_of_isDigit (isNumber first ?_)
    rw [digits]
    exact List.mem_cons_self
  have unspaced : text.dropWhile isSpace = trim text ++ after := by
    have spaces : ∀ byte ∈ before, isSpace byte = true :=
      fun byte member => isSpace_of_isBlank (blankBefore byte member)
    calc text.dropWhile isSpace
        = (before ++ (trim text ++ after)).dropWhile isSpace := by rw [← whole]
      _ = (trim text ++ after).dropWhile isSpace :=
          List.dropWhile_append_of_pos spaces
      _ = trim text ++ after := by
          rw [digits, List.cons_append, List.dropWhile_cons_of_neg]
          rw [begins]
          exact Bool.false_ne_true
  have alone : (trim text).dropWhile isSpace = trim text := by
    rw [digits, List.dropWhile_cons_of_neg]
    rw [begins]
    exact Bool.false_ne_true
  have stops : (trim text ++ after).takeWhile isDigit =
      (trim text).takeWhile isDigit := by
    rw [List.takeWhile_append_of_pos isNumber,
      List.takeWhile_eq_self_iff.mpr isNumber]
    cases after with
    | nil => simp
    | cons blank after =>
        have other := isDigit_of_isBlank (blankAfter blank List.mem_cons_self)
        simp [other]
  have signs : ∀ sign : UInt8, isDigit sign = false → first ≠ sign := by
    intro sign other same
    subst same
    have digit := isNumber first (by rw [digits]; exact List.mem_cons_self)
    rw [other] at digit
    cases digit
  have minus : first ≠ 45 := signs 45 (by decide)
  have plus : first ≠ 43 := signs 43 (by decide)
  have head : (trim text).head? = some first := by rw [digits]; rfl
  have headBoth : (trim text ++ after).head? = some first := by rw [digits]; rfl
  have same : atoi text = atoi (trim text) := by
    unfold atoi atol
    simp only [unspaced, alone, head, headBoth, Option.some_beq_some,
      beq_eq_false_iff_ne.mpr minus, beq_eq_false_iff_ne.mpr plus,
      Bool.or_false, Bool.false_eq_true, if_false, stops]
  rw [same]
  exact atoi_numeral numeral

theorem atoi_lt (text : Bytes) : atoi text < 2 ^ 31 := by
  have cut : atoi text = (atol text).bmod (2 ^ 32) := rfl
  rw [cut]
  exact Int.bmod_lt (by decide)

/-- A line that announces a length. -/
def lengthField (value : Bytes) : Bytes := ascii "Content-Length: " ++ value

theorem isLength_lengthField (value : Bytes) :
    isLength (lengthField value) = true := rfl

theorem isCoding_lengthField (value : Bytes) :
    isCoding (lengthField value) = false := rfl

theorem fieldValue_lengthField (value : Bytes) :
    fieldValue (lengthField value) = trim value := rfl

theorem trim_numeral {text : Bytes} {number : Nat}
    (numeral : Numeral text number) : trim text = text := by
  have solid : ∀ byte ∈ text, isBlank byte = false := by
    intro byte member
    have digit := numeral.digits byte member
    cases blank : isBlank byte with
    | false => rfl
    | true =>
        rw [isDigit_of_isBlank blank] at digit
        cases digit
  have kept : ∀ part : Bytes, (∀ byte ∈ part, isBlank byte = false) →
      part.dropWhile isBlank = part := by
    intro part all
    cases part with
    | nil => rfl
    | cons byte part =>
        rw [List.dropWhile_cons_of_neg]
        rw [all byte List.mem_cons_self]
        exact Bool.false_ne_true
  unfold trim
  rw [kept text solid, kept text.reverse, List.reverse_reverse]
  exact fun byte member => solid byte (List.mem_reverse.mp member)

namespace HttpResponse

/-- The body comes with the headers of the origin, or with a header that the
proxy adds. -/
theorem parseBody_eq_some {known : ResponseHeaders} {input body rest : Bytes}
    {headers : List (Bytes × Bytes)}
    (returned : parseBody known input = .ok (some (headers, body), rest)) :
    (headers = known.headers ∧ 0 ≤ known.contentLength ∧
      body.length = known.contentLength.toNat ∧
      (known.contentLength = 0 → known.isChunked = false)) ∨
    (headers = withLength known.headers body.length ∧
      known.contentLength ≤ 0 ∧
      (known.contentLength = 0 → known.isChunked = true)) := by
  unfold parseBody at returned
  split at returned
  · next positive =>
      obtain ⟨read, between, taken, returned⟩ := bind_eq_ok.mp returned
      cases returned
      obtain ⟨-, size⟩ := StreamReader.readSize_eq_ok.mp taken
      exact .inl ⟨rfl, by omega, size, by omega⟩
  · next small =>
      split at returned
      · next chunked =>
          obtain ⟨read, between, -, returned⟩ := bind_eq_ok.mp returned
          cases read with
          | none => cases returned
          | some read =>
              cases returned
              exact .inr ⟨rfl, by omega, fun _ => chunked⟩
      · next plain =>
          have plain : known.isChunked = false := by simpa using plain
          split at returned
          · next zero =>
              cases returned
              exact .inl ⟨rfl, by omega, by rw [zero]; rfl, fun _ => plain⟩
          · next other =>
              obtain ⟨ended, between, -, returned⟩ := bind_eq_ok.mp returned
              obtain ⟨-, later, -, returned⟩ := bind_eq_ok.mp returned
              cases returned
              exact .inr ⟨rfl, by omega, fun zero => absurd zero other⟩

/-- The header that the proxy adds is one more field. -/
theorem fields_withLength (statusLine : Bytes) (headers : List (Bytes × Bytes))
    (length : Nat) :
    fields statusLine (withLength headers length) =
      fields statusLine headers ++ [lengthField (decimal length)] := by
  have shown : printed (withLength headers length) =
      printed headers ++ [(ascii "Content-Length", decimal length)] := by
    unfold printed withLength
    rw [List.filter_append]
    rfl
  have whole : lines (ascii "Content-Length" ++ ascii ": " ++ decimal length) =
      [lengthField (decimal length)] := by
    refine Lines.lines_of_notMem ?_
    intro member
    rcases List.mem_append.mp member with name | digits
    · revert name
      decide
    · exact (numeral_decimal length).notMem (by decide) digits
  unfold fields
  rw [shown, List.flatMap_append, List.flatMap_singleton, whole,
    List.append_assoc]

end HttpResponse

namespace HeadText

variable {text : HeadText}

/-- A `Content-Length` of the origin is one of the fields. -/
theorem Valid.mem_fields (valid : text.Valid) {value : Bytes}
    (kept : (ascii "Content-Length", value) ∈ text.kept) :
    lengthField value ∈ text.fields.filter isLength := by
  refine List.mem_filter.mpr ⟨?_, isLength_lengthField value⟩
  have shown : (ascii "Content-Length" !=
      ascii "Strict-Transport-Security") = true := by decide
  refine List.mem_append_right _ (List.mem_flatMap.mpr
    ⟨_, List.mem_filter.mpr ⟨kept, shown⟩, ?_⟩)
  have whole : HttpProxy.lines
      (ascii "Content-Length" ++ ascii ": " ++ value) = [lengthField value] := by
    refine Lines.lines_of_notMem ?_
    intro member
    rcases List.mem_append.mp member with name | inValue
    · revert name
      decide
    · obtain ⟨line, listed, equal⟩ := List.mem_map.mp kept
      have same : line.value = value := congrArg Prod.snd equal
      refine (valid.lines line (List.mem_of_mem_filter listed)).value.2 ?_
      rw [same]
      exact inValue
  change lengthField value ∈
    HttpProxy.lines (ascii "Content-Length" ++ ascii ": " ++ value)
  rw [whole]
  exact List.mem_singleton.mpr rfl

theorem lengthField_inj {first second : Bytes}
    (same : lengthField first = lengthField second) : first = second :=
  List.append_cancel_left same

/-- A clean head announces what the proxy reads. -/
theorem Clean.contentLength (clean : text.Clean) (valid : text.Valid) :
    (text.fields.filter isLength = [] ∧ text.known.contentLength = -1) ∨
    ∃ value, ∃ number : Nat, text.fields.filter isLength = [lengthField value] ∧
      Numeral (trim value) number ∧ text.known.contentLength = number ∧
      (number = 0 → text.chunked = false) := by
  rcases clean.length with nothing | ⟨value, kept, single, number, numeral,
    small, unchunked⟩
  · refine .inl ⟨nothing, ?_⟩
    rcases text.known_contentLength with ⟨absent, -⟩ | ⟨value, kept, -⟩
    · exact absent
    · have member := valid.mem_fields kept
      rw [nothing] at member
      cases member
  · refine .inr ⟨value, number, single, numeral, ?_, unchunked⟩
    rcases text.known_contentLength with ⟨-, absent⟩ | ⟨other, also, read⟩
    · exact absurd rfl (absent _ kept)
    · have member := valid.mem_fields also
      rw [single] at member
      have same := lengthField_inj (List.mem_singleton.mp member)
      rw [read, same, atoi_trim numeral, truncated_eq_self small]

end HeadText

namespace HttpResponse

/-- A response is read behind the text of a head. -/
theorem of_parseResponse {text : HeadText} (valid : text.Valid)
    {after rest : Bytes} {r : HttpResponse}
    (parsed : parseResponse (text.bytes ++ after) = .ok (some r, rest)) :
    r.statusLine = text.httpVersion ++ ascii " " ++ decimal (atoi text.status) ++
        ascii " " ++ text.reasonPhrase ∧
      parseBody text.known after = .ok (some (r.headers, r.body), rest) := by
  have head : parseHead (text.bytes ++ after) =
      .ok ((text.httpVersion, atoi text.status, text.reasonPhrase,
        text.known), after) :=
    parseHead_eq_ok.mpr ⟨text, valid, rfl, rfl⟩
  obtain ⟨_, _, again, parsed⟩ := bind_eq_ok.mp parsed
  rw [head] at again
  cases again
  obtain ⟨left, between, body, returned⟩ := bind_eq_ok.mp parsed
  cases left with
  | none => cases returned
  | some left =>
      cases returned
      exact ⟨rfl, body⟩

end HttpResponse

/-- What the proxy makes of a clean head says where it ends. -/
theorem HeadText.Clean.selfFraming {text : HeadText} (clean : text.Clean)
    (valid : text.Valid) {after rest : Bytes} {r : HttpResponse}
    (parsed : HttpResponse.parseResponse (text.bytes ++ after) =
      .ok (some r, rest)) : r.SelfFraming := by
  obtain ⟨status, body⟩ := HttpResponse.of_parseResponse valid parsed
  have origin : HttpResponse.fields r.statusLine text.known.headers =
      text.fields := by
    rw [status, text.known_headers]
    rfl
  refine r.selfFraming_iff.mpr ?_
  rcases HttpResponse.parseBody_eq_some body with
    ⟨headers, notNegative, size, unchunked⟩ | ⟨headers, notPositive, chunked⟩
  · rw [headers, origin]
    refine ⟨clean.unbroken, ?_, clean.plain⟩
    rcases clean.contentLength valid with
      ⟨-, absent⟩ | ⟨value, number, single, numeral, announced, -⟩
    · omega
    · refine ⟨lengthField value, single, ?_⟩
      have same : r.body.length = number := by omega
      rw [same, fieldValue_lengthField]
      exact numeral
  · rw [headers, HttpResponse.fields_withLength, origin]
    have nothing : text.fields.filter isLength = [] := by
      rcases clean.contentLength valid with
        ⟨nothing, -⟩ | ⟨value, number, -, -, announced, unchunked⟩
      · exact nothing
      · have zero : number = 0 := by omega
        have plain := unchunked zero
        rw [← text.known_isChunked, chunked (by omega)] at plain
        cases plain
    refine ⟨?_, ⟨lengthField (decimal r.body.length), ?_, ?_⟩, ?_⟩
    · intro member
      rcases List.mem_append.mp member with own | added
      · exact clean.unbroken own
      · cases List.mem_singleton.mp added
    · rw [List.filter_append, nothing]
      rfl
    · have numeral := numeral_decimal r.body.length
      rw [fieldValue_lengthField, trim_numeral numeral]
      exact numeral
    · intro field member
      rcases List.mem_append.mp member with own | added
      · exact clean.plain field own
      · rw [List.mem_singleton.mp added]
        exact isCoding_lengthField _

/-- Only a clean head becomes a response that says where it ends. -/
theorem HttpResponse.SelfFraming.clean {text : HeadText} {after rest : Bytes}
    {r : HttpResponse} (framed : r.SelfFraming) (valid : text.Valid)
    (parsed : HttpResponse.parseResponse (text.bytes ++ after) =
      .ok (some r, rest)) : text.Clean := by
  obtain ⟨status, body⟩ := HttpResponse.of_parseResponse valid parsed
  have origin : HttpResponse.fields r.statusLine text.known.headers =
      text.fields := by
    rw [status, text.known_headers]
    rfl
  obtain ⟨unbroken, ⟨field, single, numeral⟩, plain⟩ :=
    r.selfFraming_iff.mp framed
  rcases HttpResponse.parseBody_eq_some body with
    ⟨headers, notNegative, size, unchunked⟩ | ⟨headers, notPositive, chunked⟩
  · rw [headers, origin] at unbroken single plain
    refine ⟨unbroken, plain, .inr ?_⟩
    rcases text.known_contentLength with ⟨absent, -⟩ | ⟨value, kept, read⟩
    · omega
    · have member := valid.mem_fields kept
      rw [single] at member
      have same := List.mem_singleton.mp member
      subst same
      refine ⟨value, kept, single, r.body.length, numeral, ?_, ?_⟩
      · have small := atoi_lt value
        omega
      · intro zero
        rw [← text.known_isChunked]
        exact unchunked (by omega)
  · rw [headers, HttpResponse.fields_withLength, origin] at unbroken single plain
    refine ⟨?_, ?_, .inl ?_⟩
    · exact fun member => unbroken (List.mem_append_left _ member)
    · exact fun other member => plain other (List.mem_append_left _ member)
    · have added : [lengthField (decimal r.body.length)].filter isLength =
          [lengthField (decimal r.body.length)] := rfl
      rw [List.filter_append, added] at single
      have count := congrArg List.length single
      rw [List.length_append] at count
      exact List.length_eq_zero_iff.mp (by simpa using count)

/-- A relayed response says where it ends exactly if the head it was read from
is clean. -/
theorem self_framing_iff_clean {input rest : Bytes} {r : HttpResponse}
    (parsed : HttpResponse.parseResponse input = .ok (some r, rest)) :
    (∃ text : HeadText, text.Valid ∧ text.bytes <+: input) ∧
    ∀ text : HeadText, text.Valid → text.bytes <+: input →
      (r.SelfFraming ↔ text.Clean) := by
  refine ⟨?_, ?_⟩
  · obtain ⟨head, after, read, -⟩ := bind_eq_ok.mp parsed
    obtain ⟨text, valid, rfl, -⟩ := HttpResponse.parseHead_eq_ok.mp read
    exact ⟨text, valid, List.prefix_append _ _⟩
  · rintro text valid ⟨after, rfl⟩
    exact ⟨fun framed => framed.clean valid parsed,
      fun clean => clean.selfFraming valid parsed⟩

theorem self_framing_iff_clean_sample :
    ∃ r : HttpResponse, r.body = ascii "hi" ∧ ∃ text : HeadText, text.Valid ∧
      (r.SelfFraming ↔ text.Clean) := by
  have parsed : HttpResponse.parseResponse
      (ascii "HTTP/1.1 200 OK\r\nContent-Length: 2\r\n\r\nhi") = .ok (some {
        httpVersion := ascii "HTTP/1.1"
        statusCode := 200
        reasonPhrase := ascii "OK"
        headers := [(ascii "Content-Length", ascii "2")]
        body := ascii "hi" }, []) := by
    decide +kernel
  have framing := self_framing_iff_clean parsed
  obtain ⟨text, valid, begins⟩ := framing.1
  exact ⟨_, rfl, text, valid, framing.2 text valid begins⟩

/-- The origin says that the body is empty and sends it in chunks: the client
is told both lengths. -/
theorem empty_and_chunked_desynchronises :
    ¬ ∀ (input rest : Bytes) (r : HttpResponse),
      HttpResponse.parseResponse input = .ok (some r, rest) →
      r.SelfFraming := by
  intro framing
  have framed := framing
    (ascii "HTTP/1.1 200 OK\r\nContent-Length: 0\r\n" ++
      ascii "Transfer-Encoding: chunked\r\n\r\n2\r\nhi\r\n0\r\n\r\n") []
    { httpVersion := ascii "HTTP/1.1"
      statusCode := 200
      reasonPhrase := ascii "OK"
      headers := [(ascii "Content-Length", ascii "0"),
        (ascii "Content-Length", ascii "2")]
      body := ascii "hi" } (by decide +kernel)
  obtain ⟨-, ⟨field, single, -⟩, -⟩ := (HttpResponse.selfFraming_iff _).mp framed
  have count := congrArg List.length single
  rw [List.length_singleton] at count
  revert count
  decide +kernel

end Universe.HttpProxy
