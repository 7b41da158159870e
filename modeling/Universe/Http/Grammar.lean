import Universe.Http

/-!
# What the request parser accepts

`RequestText` is the text of a request in the parts the parser tells apart.
`parse_request` returns a request exactly for the valid texts, and what it
returns is read off the parts.
-/

namespace Universe

open Incremental

namespace Headers

variable {headers : Headers} {name value other : Bytes}

theorem find_cons (header : Bytes × Bytes) (headers : Headers) (name : Bytes) :
    Headers.find (header :: headers) name =
      if header.1 = name then some header.2 else Headers.find headers name :=
  OrderedMap.find_cons header headers name

theorem find_set : Headers.find (headers.set name value) other =
    if name = other then some value else Headers.find headers other :=
  OrderedMap.find_assign

end Headers

namespace Http

open StreamReader

/-- A header line that the parser gets through. -/
structure LineOk (name value : Bytes) : Prop where
  noColon : 58 ∉ name
  begins : name.head? ≠ some 13
  plain : name ≠ ascii "Transfer-Encoding"
  noCr : 13 ∉ value

def lineText (name value : Bytes) : Bytes :=
  name ++ ascii ": " ++ value ++ ascii "\r\n"

def linesText (lines : List (Bytes × Bytes)) : Bytes :=
  lines.flatMap fun line => lineText line.1 line.2

/-- What the parser knows after one more header. -/
def learn (known : Headers × Int) (line : Bytes × Bytes) : Headers × Int :=
  (known.1.set line.1 line.2,
    if line.1 = ascii "Content-Length" then atoi line.2 else known.2)

theorem parseHeader_end {known result : Headers × Int} {input rest : Bytes} :
    parseHeader known.1 known.2 input = .ok (.inr result, rest) ↔
      result = known ∧ rest = input ∧ input.head? = some 13 := by
  unfold parseHeader
  rw [bind_eq_ok]
  constructor
  · rintro ⟨nextChar, between, read, returned⟩
    obtain ⟨rfl, tail, rfl⟩ := preadChar_eq_ok.mp read
    split at returned
    · next same =>
        obtain ⟨same, rfl⟩ := pure_eq_ok.mp returned
        cases same
        exact ⟨rfl, rfl, by simp [*]⟩
    · simp only [bind_eq_ok, pure_eq_ok] at returned
      grind
  · rintro ⟨rfl, rfl, begins⟩
    obtain ⟨tail, rfl⟩ := List.head?_eq_some_iff.mp begins
    refine ⟨13, 13 :: tail, preadChar_eq_ok.mpr ⟨rfl, tail, rfl⟩, ?_⟩
    rw [if_pos rfl]
    exact pure_eq_ok.mpr ⟨rfl, rfl⟩

/-- A header does not begin like the empty line behind the headers. -/
theorem lineText_begins {name value : Bytes} (ok : LineOk name value)
    (rest : Bytes) :
    ∃ first tail, lineText name value ++ rest = first :: tail ∧ first ≠ 13 := by
  cases name with
  | nil => exact ⟨58, _, rfl, by decide⟩
  | cons first name =>
      exact ⟨first, _, rfl, fun same => ok.begins (by simp [same])⟩

theorem skipped_of_notMem {stop : UInt8} {text : Bytes} (absent : stop ∉ text) :
    ∀ byte ∈ text, byte ∉ [stop] := by
  intro byte member isStop
  rw [List.mem_singleton] at isStop
  subst isStop
  exact absent member

theorem parseHeader_line {known next : Headers × Int} {input rest : Bytes} :
    parseHeader known.1 known.2 input = .ok (.inl next, rest) ↔
      ∃ line : Bytes × Bytes, LineOk line.1 line.2 ∧
        input = lineText line.1 line.2 ++ rest ∧ next = learn known line := by
  unfold parseHeader
  rw [bind_eq_ok]
  constructor
  · rintro ⟨nextChar, between, read, returned⟩
    obtain ⟨rfl, tail, whole⟩ := preadChar_eq_ok.mp read
    split at returned
    · cases returned
    · next different =>
        simp only [bind_eq_ok, pure_eq_ok, readUntil_eq_ok, readChar_eq_ok,
          failIf_eq_ok, readCrlf_eq_ok] at returned
        obtain ⟨name, _, ⟨colon, _, rfl, isColon, noColon, rfl⟩, char, _, rfl,
          _, _, ⟨isSpace, rfl⟩, _, _, ⟨plain, rfl⟩, value, _,
          ⟨cr, _, rfl, isCr, noCr, rfl⟩, _, _, crlf, same, rfl⟩ := returned
        have isColon : colon = 58 := List.mem_singleton.mp isColon
        have isSpace : char = 32 := by simpa using isSpace
        subst isColon isSpace
        cases same
        refine ⟨(name, value), ⟨?_, ?_, by simpa using plain, ?_⟩, ?_, rfl⟩
        · exact fun member => noColon 58 member (List.mem_singleton.mpr rfl)
        · intro begins
          obtain ⟨tail, rfl⟩ := List.head?_eq_some_iff.mp begins
          cases whole
          exact different rfl
        · exact fun member => noCr 13 member (List.mem_singleton.mpr rfl)
        · simp only [Bool.false_eq_true, if_false] at crlf
          rw [crlf]
          simp [lineText, ascii]
  · rintro ⟨⟨name, value⟩, ok, rfl, rfl⟩
    obtain ⟨first, tail, whole, different⟩ := lineText_begins ok rest
    refine ⟨first, lineText name value ++ rest,
      preadChar_eq_ok.mpr ⟨rfl, tail, whole⟩, ?_⟩
    rw [if_neg different]
    simp only [bind_eq_ok, pure_eq_ok, readUntil_eq_ok, readChar_eq_ok,
      failIf_eq_ok, readCrlf_eq_ok]
    refine ⟨name, _, ⟨58, 32 :: value ++ ascii "\r\n" ++ rest, ?_, ?_, ?_, rfl⟩,
      32, _, rfl, (), _, ⟨rfl, rfl⟩, (), _, ⟨by simpa using ok.plain, rfl⟩,
      value, ascii "\r\n" ++ rest, ⟨13, 10 :: rest, ?_, ?_, ?_, rfl⟩,
      (), rest, rfl, rfl, rfl⟩
    · simp [lineText, ascii]
    · exact List.mem_singleton.mpr rfl
    · exact skipped_of_notMem ok.noColon
    · simp [ascii]
    · exact List.mem_singleton.mpr rfl
    · exact skipped_of_notMem ok.noCr

/-- The loop over the headers reads lines up to an empty one. -/
theorem parseHeaders_eq_ok {known result : Headers × Int}
    {input rest : Bytes} :
    iterate .ag (fun known => parseHeader known.1 known.2) known input =
        .ok (result, rest) ↔
      ∃ lines : List (Bytes × Bytes), (∀ line ∈ lines, LineOk line.1 line.2) ∧
        input = linesText lines ++ rest ∧ rest.head? = some 13 ∧
        result = lines.foldl learn known :=
  iterate_eq_items (fun line : Bytes × Bytes => LineOk line.1 line.2)
    (fun line => lineText line.1 line.2) learn (fun rest => rest.head? = some 13)
    parseHeader_advances parseHeader_line parseHeader_end

/-- The length that the headers announce. -/
def announced (headers : Headers) : Int :=
  match headers.find HttpToken.contentLength with
  | some value => atoi value
  | none => -1

def collect (lines : List (Bytes × Bytes)) : Headers :=
  lines.foldl (fun headers line => headers.set line.1 line.2) []

theorem foldl_learn (lines : List (Bytes × Bytes)) :
    lines.foldl learn ([], -1) = (collect lines, announced (collect lines)) := by
  have general : ∀ headers : Headers,
      lines.foldl learn (headers, announced headers) =
        (lines.foldl (fun headers line => headers.set line.1 line.2) headers,
          announced
            (lines.foldl (fun headers line => headers.set line.1 line.2)
              headers)) := by
    induction lines with
    | nil => exact fun headers => rfl
    | cons line lines induction =>
        intro headers
        have learned : learn (headers, announced headers) line =
            (headers.set line.1 line.2, announced (headers.set line.1 line.2)) := by
          unfold learn announced
          rw [Headers.find_set]
          by_cases length : line.1 = ascii "Content-Length"
          · simp [length, HttpToken.contentLength]
          · simp [length, HttpToken.contentLength]
        rw [List.foldl_cons, learned]
        exact induction _
  exact general []

/-- The text of a request. -/
structure RequestText where
  method : Bytes
  beforeUri : Bytes
  uri : Bytes
  beforeVersion : Bytes
  httpVersion : Bytes
  lines : List (Bytes × Bytes)
  body : Bytes

namespace RequestText

variable (text : RequestText)

/-- Everything before the body. -/
def head : Bytes :=
  text.method ++ text.beforeUri ++ text.uri ++ text.beforeVersion ++
    text.httpVersion ++ ascii "\r\n" ++ linesText text.lines ++ ascii "\r\n"

def bytes : Bytes := text.head ++ text.body

def request (client : Fd) : HttpRequest :=
  { client := client
    method := text.method
    uri := text.uri
    httpVersion := text.httpVersion
    headers := collect text.lines
    body := text.body }

/-- What the parser relies on. -/
structure Valid : Prop where
  method : 32 ∉ text.method
  beforeUri : text.beforeUri ≠ [] ∧ ∀ byte ∈ text.beforeUri, byte = 32
  uri : text.uri ≠ [] ∧ 32 ∉ text.uri
  beforeVersion : text.beforeVersion ≠ [] ∧ ∀ byte ∈ text.beforeVersion, byte = 32
  httpVersion : text.httpVersion.head? ≠ some 32 ∧ 13 ∉ text.httpVersion
  lines : ∀ line ∈ text.lines, LineOk line.1 line.2
  body : text.body.length = (announced (collect text.lines)).toNat

end RequestText

theorem parseBody_eq_ok {contentLength : Int} {input body rest : Bytes} :
    parseBody contentLength input = .ok (body, rest) ↔
      input = body ++ rest ∧ body.length = contentLength.toNat := by
  unfold parseBody
  split
  · exact readSize_eq_ok
  · next notPositive =>
      have none : contentLength.toNat = 0 := by omega
      rw [pure_eq_ok, none, List.length_eq_zero_iff]
      constructor
      · rintro ⟨rfl, rfl⟩
        exact ⟨rfl, rfl⟩
      · rintro ⟨rfl, rfl⟩
        exact ⟨rfl, rfl⟩

/-- `parse_request` returns a request exactly for a valid text. -/
theorem parseRequest_eq_ok {client : Fd} {input rest : Bytes}
    {r : HttpRequest} :
    parseRequest client input = .ok (r, rest) ↔
      ∃ text : RequestText, text.Valid ∧ input = text.bytes ++ rest ∧
        r = text.request client := by
  have cr : ascii "\r" = [13] := rfl
  unfold parseRequest parseHeaders
  rw [word_bind_eq_ok]
  constructor
  · intro ⟨method, beforeUri, left, whole, noSpace, spaces, ⟨_, beginsUri⟩,
      returned⟩
    obtain ⟨uri, beforeVersion, after, same, noSpace', spaces', ⟨-, begins⟩,
      later⟩ := word_bind_eq_ok.mp returned
    subst same
    simp only [bind_eq_ok, pure_eq_ok, readUntil_eq_ok, readCrlf_eq_ok,
      parseHeaders_eq_ok, parseBody_eq_ok, foldl_learn, cr, List.mem_singleton,
      Bool.false_eq_true, if_false] at later
    obtain ⟨version, _, ⟨_, _, rfl, rfl, noCr, rfl⟩, _, _, crlf, known, _,
      ⟨lines, ok, rfl, ended, rfl⟩, _, _, rfl, body, _, ⟨rfl, size⟩,
      rfl, rfl⟩ := later
    refine ⟨⟨method, beforeUri, uri, beforeVersion, version, lines, body⟩,
      ⟨noSpace, spaces, ⟨?_, noSpace'⟩, spaces', ⟨?_, ?_⟩, ok, size⟩, ?_, rfl⟩
    · intro none
      subst none
      obtain ⟨mark, more, gap⟩ := List.exists_cons_of_ne_nil spaces'.1
      subst gap
      apply beginsUri
      rw [spaces'.2 mark List.mem_cons_self]
      rfl
    · intro starts
      obtain ⟨more, same⟩ := List.head?_eq_some_iff.mp starts
      subst same
      exact begins rfl
    · intro member
      exact noCr 13 member rfl
    · rw [whole, crlf]
      simp [RequestText.bytes, RequestText.head]
  · intro ⟨text, valid, whole, same⟩
    subst whole same
    obtain ⟨method, beforeUri, uri, beforeVersion, version, lines, body⟩ := text
    obtain ⟨noSpace, spaces, ⟨someUri, noSpace'⟩, spaces',
      ⟨begins, noCr⟩, ok, size⟩ := valid
    dsimp only at noSpace spaces someUri noSpace' spaces' begins noCr ok size
    let tail := linesText lines ++ (ascii "\r\n" ++ (body ++ rest))
    have beginsUri : (uri ++ (beforeVersion ++ (version ++ (ascii "\r\n" ++
        tail)))).head? ≠ some 32 := by
      obtain ⟨first, more, same⟩ := List.exists_cons_of_ne_nil someUri
      subst same
      intro starts
      cases starts
      exact noSpace' List.mem_cons_self
    have beginsVersion :
        (version ++ (ascii "\r\n" ++ tail)).head? ≠ some 32 := by
      cases version with
      | nil =>
          intro starts
          cases starts
      | cons first more => exact begins
    refine ⟨method, beforeUri,
      uri ++ (beforeVersion ++ (version ++ (ascii "\r\n" ++ tail))), ?_,
      noSpace, spaces, ⟨by simp [someUri], beginsUri⟩, ?_⟩
    · simp [RequestText.bytes, RequestText.head, tail]
    · refine word_bind_eq_ok.mpr ⟨uri, beforeVersion,
        version ++ (ascii "\r\n" ++ tail), rfl, noSpace', spaces',
        ⟨by simp [ascii], beginsVersion⟩, ?_⟩
      simp only [bind_eq_ok, pure_eq_ok, readUntil_eq_ok, readCrlf_eq_ok,
        parseHeaders_eq_ok, parseBody_eq_ok, foldl_learn, cr,
        List.mem_singleton, Bool.false_eq_true, if_false]
      refine ⟨version, ascii "\r\n" ++ tail, ⟨13, 10 :: tail, rfl, rfl, ?_, rfl⟩,
        (), tail, rfl, (collect lines, announced (collect lines)),
        ascii "\r\n" ++ (body ++ rest), ⟨lines, ok, rfl, rfl, rfl⟩, (), _, rfl,
        body, rest, ⟨rfl, size⟩, rfl, rfl⟩
      intro byte member same
      subst same
      exact noCr member

end Http

end Universe
