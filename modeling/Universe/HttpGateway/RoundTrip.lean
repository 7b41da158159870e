import Universe.Http.Framing
import Universe.HttpGateway.Response

/-!
# Responses that are printed and read again

`to_string` always announces the length of the body, also of an empty one.
`parse_response` takes a length that is not positive for none at all.
-/

namespace Universe

open Incremental StreamReader Http

namespace HttpGateway

/-- What is known after one more header. -/
def learn (known : ResponseHeaders) (line : Bytes × Bytes) : ResponseHeaders :=
  { headers := known.headers ++ [line]
    contentLength :=
      if line.1 = ascii "Content-Length" then atoi line.2
      else known.contentLength
    isChunked := known.isChunked }

theorem parseResponseHeader_line (known : ResponseHeaders)
    {line : Bytes × Bytes} (ok : LineOk line.1 line.2) (rest : Bytes) :
    parseResponseHeader known (lineText line.1 line.2 ++ rest) =
      .ok (.inl (learn known line), rest) := by
  obtain ⟨name, value⟩ := line
  obtain ⟨first, tail, whole, different⟩ := lineText_begins ok rest
  unfold parseResponseHeader
  rw [bind_eq_ok]
  refine ⟨first, lineText name value ++ rest,
    preadChar_eq_ok.mpr ⟨rfl, tail, whole⟩, ?_⟩
  rw [if_neg different]
  simp only [bind_eq_ok, readUntil_eq_ok, readChar_eq_ok, failIf_eq_ok,
    readCrlf_eq_ok]
  refine ⟨name, 32 :: value ++ ascii "\r\n" ++ rest,
    ⟨58, _, ?_, List.mem_singleton.mpr rfl, ?_, rfl⟩, 32, _, rfl, (), _,
    ⟨rfl, rfl⟩, value, ascii "\r\n" ++ rest,
    ⟨13, 10 :: rest, ?_, List.mem_singleton.mpr rfl, ?_, rfl⟩, (), rest, rfl, ?_⟩
  · simp [lineText, ascii]
  · exact skipped_of_notMem ok.noColon
  · simp [ascii]
  · exact skipped_of_notMem ok.noCr
  · rw [if_neg ok.plain]
    rfl

theorem parseResponseHeaders_lines {lines : List (Bytes × Bytes)}
    (ok : ∀ line ∈ lines, LineOk line.1 line.2) (known : ResponseHeaders)
    (rest : Bytes) :
    iterate .ag parseResponseHeader known (linesText lines ++ 13 :: rest) =
      .ok (lines.foldl learn known, 13 :: rest) := by
  induction lines generalizing known with
  | nil =>
      rw [parseResponseHeaders_eq]
      rfl
  | cons line lines induction =>
      obtain ⟨first, later⟩ := List.forall_mem_cons.mp ok
      have parsed := parseResponseHeader_line known first
        (linesText lines ++ 13 :: rest)
      have text : linesText (line :: lines) ++ 13 :: rest =
          lineText line.1 line.2 ++ (linesText lines ++ 13 :: rest) := by
        simp [linesText]
      rw [parseResponseHeaders_eq, text, bind_of_ok parsed]
      exact induction later _

theorem foldl_learn_last (lines : List (Bytes × Bytes)) (value : Bytes) :
    (lines ++ [(HttpToken.contentLength, value)]).foldl learn {} =
      { headers := lines ++ [(HttpToken.contentLength, value)]
        contentLength := atoi value
        isChunked := false } := by
  have general : ∀ (lines : List (Bytes × Bytes)) (known : ResponseHeaders),
      (lines.foldl learn known).headers = known.headers ++ lines ∧
        (lines.foldl learn known).isChunked = known.isChunked := by
    intro lines
    induction lines with
    | nil => simp
    | cons line lines induction =>
        intro known
        obtain ⟨headers, chunked⟩ := induction (learn known line)
        rw [List.foldl_cons]
        exact ⟨by rw [headers]; simp [learn], by rw [chunked]; rfl⟩
  obtain ⟨headers, chunked⟩ := general lines {}
  have length : HttpToken.contentLength = ascii "Content-Length" := rfl
  rw [List.foldl_append]
  simp [learn, headers, chunked, length]

/-- The headers that `to_string` prints. -/
def printed (r : HttpResponse) : List (Bytes × Bytes) :=
  (r.headers.filter fun header => header.1 != HttpToken.contentLength) ++
    [(HttpToken.contentLength, decimal r.body.length)]

theorem toBytes_eq (r : HttpResponse) :
    r.toBytes = r.httpVersion ++ 32 :: (decimal r.statusCode ++ 32 ::
      (r.reasonPhrase ++ 13 :: 10 :: (linesText (printed r) ++
        13 :: 10 :: r.body))) := by
  have kept : ∀ headers : List (Bytes × Bytes),
      (headers.flatMap fun header =>
        if header.1 = HttpToken.contentLength then []
        else header.1 ++ ascii ": " ++ header.2 ++ ascii "\r\n") =
      linesText (headers.filter fun header =>
        header.1 != HttpToken.contentLength) := by
    intro headers
    induction headers with
    | nil => rfl
    | cons header headers induction =>
        rw [List.flatMap_cons, induction]
        by_cases length : header.1 = HttpToken.contentLength
        · rw [List.filter_cons_of_neg (by simp [length])]
          simp [length]
        · rw [List.filter_cons_of_pos (by simp [length])]
          simp [length, linesText, lineText]
  have parts : linesText (printed r) =
      linesText (r.headers.filter fun header =>
        header.1 != HttpToken.contentLength) ++
      lineText HttpToken.contentLength (decimal r.body.length) := by
    simp [printed, linesText]
  have whole : r.toBytes = r.httpVersion ++ ascii " " ++
      decimal r.statusCode ++ ascii " " ++ r.reasonPhrase ++ ascii "\r\n" ++
      (r.headers.flatMap fun header =>
        if header.1 = HttpToken.contentLength then []
        else header.1 ++ ascii ": " ++ header.2 ++ ascii "\r\n") ++
      HttpToken.contentLength ++ ascii ": " ++ decimal r.body.length ++
      ascii "\r\n" ++ ascii "\r\n" ++ r.body := rfl
  rw [whole, kept, parts]
  simp [lineText, ascii]

/-- Everything up to the body is read as it was printed. -/
theorem parseResponse_toBytes {r : HttpResponse}
    (version : 32 ∉ r.httpVersion)
    (status : 0 ≤ r.statusCode ∧ r.statusCode < 2 ^ 31)
    (reason : 13 ∉ r.reasonPhrase ∧ r.reasonPhrase.head? ≠ some 32)
    (headers : ∀ header ∈ r.headers, LineOk header.1 header.2)
    (result : Option HttpResponse) (rest : Bytes) :
    parseResponse r.toBytes = .ok (result, rest) ↔
      ∃ body, parseResponseBody
          { headers := printed r
            contentLength := atoi (decimal r.body.length) } r.body =
            .ok (body, rest) ∧
        result = body.map fun body =>
          { r with headers := printed r, body } := by
  obtain ⟨number, isNumber⟩ := Int.eq_ofNat_of_zero_le status.1
  have numeral : Numeral (decimal r.statusCode) number := by
    rw [isNumber]
    exact numeral_decimal number
  have statusRead : atoi (decimal r.statusCode) = r.statusCode := by
    rw [atoi_numeral numeral, truncated_eq_self (by omega), isNumber]
  have ok : ∀ line ∈ printed r, LineOk line.1 line.2 := by
    intro line member
    rcases List.mem_append.mp member with member | member
    · exact headers line (List.mem_of_mem_filter member)
    · rw [List.mem_singleton.mp member]
      have noCr := (numeral_decimal r.body.length).notMem
        (by decide : isDigit 13 = false)
      have name : 58 ∉ HttpToken.contentLength ∧
          HttpToken.contentLength.head? ≠ some 13 ∧
          HttpToken.contentLength ≠ ascii "Transfer-Encoding" := by
        decide
      exact ⟨name.1, name.2.1, name.2.2, noCr⟩
  have beginsStatus : (decimal r.statusCode ++ 32 :: (r.reasonPhrase ++
      13 :: 10 :: (linesText (printed r) ++ 13 :: 10 :: r.body))).head? ≠
      some 32 := by
    obtain ⟨digit, digits, same⟩ := List.exists_cons_of_ne_nil numeral.some
    rw [same]
    intro starts
    cases starts
    cases numeral.digits 32 (same ▸ List.mem_cons_self)
  have beginsReason : (r.reasonPhrase ++ 13 :: 10 :: (linesText (printed r) ++
      13 :: 10 :: r.body)).head? ≠ some 32 := by
    cases phrase : r.reasonPhrase with
    | nil =>
        intro starts
        cases starts
    | cons byte more =>
        have begins := reason.2
        rw [phrase] at begins
        exact begins
  have cr : ascii "\r" = [13] := rfl
  have crlf : ∀ rest, readCrlf (13 :: 10 :: rest) = .ok ((), rest) :=
    fun rest => readCrlf_eq_ok.mpr rfl
  unfold parseResponse
  rw [toBytes_eq, word_bind version (by simp) beginsStatus,
    word_bind (numeral.notMem (by decide)) (by simp) beginsReason]
  rw [cr, bind_of_ok (readUntil_mark reason.1 _), bind_of_ok (crlf _),
    bind_of_ok (parseResponseHeaders_lines ok _ _), bind_of_ok (crlf _)]
  have known : (printed r).foldl learn {} =
      { headers := printed r
        contentLength := atoi (decimal r.body.length) } :=
    foldl_learn_last _ _
  simp only [known, bind_eq_ok, pure_eq_ok, statusRead]
  constructor
  · rintro ⟨body, between, parsed, rfl, rfl⟩
    exact ⟨body, parsed, rfl⟩
  · rintro ⟨body, parsed, rfl⟩
    exact ⟨body, rest, parsed, rfl, rfl⟩

end HttpGateway

open HttpGateway

/-- A response is read as it was printed, with the length of its body as the
last header, exactly when the body is not empty and its length is an `int`. -/
theorem response_round_trip {r : HttpResponse}
    (version : r.httpVersion ≠ [] ∧ 32 ∉ r.httpVersion)
    (status : 0 ≤ r.statusCode ∧ r.statusCode < 2 ^ 31)
    (reason : 13 ∉ r.reasonPhrase ∧ r.reasonPhrase.head? ≠ some 32)
    (headers : ∀ header ∈ r.headers, LineOk header.1 header.2) :
    parseResponse r.toBytes =
        .ok (some { r with
          headers :=
            (r.headers.filter fun header =>
              header.1 != HttpToken.contentLength) ++
            [(HttpToken.contentLength, decimal r.body.length)] }, []) ↔
      0 < r.body.length ∧ r.body.length < 2 ^ 31 := by
  have length : atoi (decimal r.body.length) = truncated r.body.length :=
    atoi_numeral (numeral_decimal _)
  rw [parseResponse_toBytes version.2 status reason headers, length]
  constructor
  · rintro ⟨body, parsed, same⟩
    cases body with
    | none => cases same
    | some body =>
        have sameBody : r.body = body :=
          congrArg HttpResponse.body (Option.some.inj same)
        subst sameBody
        unfold parseResponseBody at parsed
        split at parsed
        · next positive =>
            obtain ⟨taken, between, read, returned⟩ := bind_eq_ok.mp parsed
            obtain ⟨same, rfl⟩ := pure_eq_ok.mp returned
            cases same
            obtain ⟨-, size⟩ := readSize_eq_ok.mp read
            have positive : 0 < truncated r.body.length := positive
            have small := toNat_truncated.mp size.symm
            rw [truncated_eq_self small] at positive
            exact ⟨by omega, small⟩
        · cases parsed
  · rintro ⟨positive, small⟩
    refine ⟨some r.body, ?_, rfl⟩
    unfold parseResponseBody
    rw [truncated_eq_self small, if_pos (Int.natCast_pos.mpr positive)]
    have read : readSize r.body.length r.body = .ok (r.body, []) :=
      readSize_eq_ok.mpr ⟨by simp, rfl⟩
    exact bind_eq_ok.mpr ⟨r.body, [], read, rfl⟩

theorem hello_round_trip :
    parseResponse (HttpResponse.toBytes
        ⟨200, ascii "OK", [(ascii "Server", ascii "a")], ascii "hello",
          ascii "HTTP/1.1"⟩) =
      .ok (some ⟨200, ascii "OK",
        ([(ascii "Server", ascii "a")].filter fun header =>
            header.1 != HttpToken.contentLength) ++
          [(HttpToken.contentLength, decimal (ascii "hello").length)],
        ascii "hello", ascii "HTTP/1.1"⟩, []) := by
  have headers : ∀ header ∈ [(ascii "Server", ascii "a")],
      LineOk header.1 header.2 := by
    intro header member
    rw [List.mem_singleton.mp member]
    exact ⟨by decide, by decide, by decide, by decide⟩
  exact (response_round_trip (by decide) (by decide) (by decide) headers).mpr
    (by decide)

/-- A response without body is refused. -/
theorem empty_body_refused :
    parseResponse (HttpResponse.toBytes
      ⟨204, ascii "No Content", [], [], ascii "HTTP/1.1"⟩) = .error .ng := by
  decide +kernel

end Universe
