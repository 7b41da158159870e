import Universe.HttpProxy

/-!
# Heads of responses

`HeadText` is the status line and the headers of a response in the parts that
`parse_response` tells apart.  What it returns is read off the parts.
-/

namespace Universe

open Incremental

namespace HttpProxy

open StreamReader
open HttpGateway (ResponseHeaders)

/-- A header line of an origin server. -/
structure HeaderText where
  name : Bytes
  gap : Bytes
  value : Bytes

namespace HeaderText

variable (line : HeaderText)

def bytes : Bytes :=
  line.name ++ ascii ":" ++ line.gap ++ line.value ++ ascii "\r\n"

/-- A line that the parser gets through. -/
structure Valid : Prop where
  noColon : 58 ∉ line.name
  begins : line.name.head? ≠ some 13
  gap : ∀ byte ∈ line.gap, byte = 32
  value : line.value.head? ≠ some 32 ∧ 13 ∉ line.value
  coding : line.name = ascii "Transfer-Encoding" → line.value = ascii "chunked"

/-- What is known after one more header. -/
def learn (known : ResponseHeaders) (line : HeaderText) : ResponseHeaders :=
  if line.name = ascii "Transfer-Encoding" then { known with isChunked := true }
  else
    { headers := known.headers ++ [(line.name, line.value)]
      contentLength :=
        if line.name = ascii "Content-Length" then atoi line.value
        else known.contentLength
      isChunked := known.isChunked }

end HeaderText

namespace HttpResponse

open HeaderText

theorem parseHeader_end {known result : ResponseHeaders} {input rest : Bytes} :
    parseHeader known input = .ok (.inr result, rest) ↔
      result = known ∧ rest = input ∧ input.head? = some 13 := by
  unfold parseHeader
  rw [bind_eq_ok]
  constructor
  · rintro ⟨nextChar, between, read, returned⟩
    obtain ⟨rfl, tail, rfl⟩ := preadChar_eq_ok.mp read
    split at returned
    · next same =>
        obtain ⟨same', rfl⟩ := pure_eq_ok.mp returned
        cases same'
        exact ⟨rfl, rfl, by rw [same]; rfl⟩
    · simp only [bind_eq_ok] at returned
      obtain ⟨name, _, _, _, _, _, value, _, _, _, _, _, returned⟩ := returned
      split at returned
      · obtain ⟨_, _, _, returned⟩ := bind_eq_ok.mp returned
        cases returned
      · cases returned
  · rintro ⟨rfl, rfl, begins⟩
    obtain ⟨tail, rfl⟩ := List.head?_eq_some_iff.mp begins
    refine ⟨13, 13 :: tail, preadChar_eq_ok.mpr ⟨rfl, tail, rfl⟩, ?_⟩
    rw [if_pos rfl]
    exact pure_eq_ok.mpr ⟨rfl, rfl⟩

/-- What the loop makes of a line it has read. -/
theorem keep_eq_ok (line : HeaderText) {known next : ResponseHeaders}
    {input rest : Bytes} :
    (if line.name = ascii "Transfer-Encoding" then do
        failIf (line.value != ascii "chunked")
        return .inl { known with isChunked := true }
      else
        return .inl {
          headers := known.headers ++ [(line.name, line.value)]
          contentLength :=
            if line.name = ascii "Content-Length" then atoi line.value
            else known.contentLength
          isChunked := known.isChunked } :
        StreamReader (ResponseHeaders ⊕ ResponseHeaders)) input =
        .ok (.inl next, rest) ↔
      (line.name = ascii "Transfer-Encoding" → line.value = ascii "chunked") ∧
        input = rest ∧ next = learn known line := by
  unfold learn
  by_cases coding : line.name = ascii "Transfer-Encoding"
  · rw [if_pos coding, if_pos coding, bind_eq_ok]
    constructor
    · rintro ⟨_, _, checked, returned⟩
      obtain ⟨chunked, rfl⟩ := failIf_eq_ok.mp checked
      cases returned
      exact ⟨fun _ => by simpa using chunked, rfl, rfl⟩
    · rintro ⟨chunked, rfl, rfl⟩
      refine ⟨(), input, failIf_eq_ok.mpr ⟨?_, rfl⟩, rfl⟩
      rw [chunked coding]
      exact bne_self_eq_false _
  · rw [if_neg coding, if_neg coding]
    constructor
    · intro returned
      cases returned
      exact ⟨fun here => absurd here coding, rfl, rfl⟩
    · rintro ⟨-, rfl, rfl⟩
      rfl

theorem parseHeader_line {known next : ResponseHeaders} {input rest : Bytes} :
    parseHeader known input = .ok (.inl next, rest) ↔
      ∃ line : HeaderText, line.Valid ∧ input = line.bytes ++ rest ∧
        next = learn known line := by
  have colonText : ascii ":" = [58] := rfl
  have spaceText : ascii " " = [32] := rfl
  have crText : ascii "\r" = [13] := rfl
  unfold parseHeader
  rw [bind_eq_ok]
  constructor
  · rintro ⟨nextChar, between, read, returned⟩
    obtain ⟨rfl, tail, whole⟩ := preadChar_eq_ok.mp read
    split at returned
    · cases returned
    · next different =>
        simp only [bind_eq_ok, readUntil_eq_ok, readUp_eq_ok, readCrlf_eq_ok,
          colonText, spaceText, crText, List.mem_singleton] at returned
        obtain ⟨name, _, ⟨_, _, rfl, rfl, noColon, rfl⟩, gap, _,
          ⟨first, after, starts, notSpace, spaces, rfl⟩, value, _,
          ⟨_, _, ends, rfl, noCr, rfl⟩, _, _, crlf, returned⟩ := returned
        obtain ⟨coding, same, learned⟩ :=
          (keep_eq_ok ⟨name, gap, value⟩).mp returned
        subst same
        refine ⟨⟨name, gap, value⟩, ⟨?_, ?_, spaces, ⟨?_, ?_⟩, coding⟩, ?_,
          learned⟩
        · exact fun member => noColon 58 member rfl
        · intro begins
          obtain ⟨tail, rfl⟩ := List.head?_eq_some_iff.mp begins
          cases whole
          exact different rfl
        · intro begins
          obtain ⟨tail, rfl⟩ := List.head?_eq_some_iff.mp begins
          cases ends
          exact notSpace rfl
        · exact fun member => noCr 13 member rfl
        · simp only [Bool.false_eq_true, if_false] at crlf
          rw [starts, ends, crlf]
          simp [HeaderText.bytes, ascii]
  · rintro ⟨⟨name, gap, value⟩, valid, rfl, rfl⟩
    obtain ⟨noColon, begins, spaces, ⟨valueBegins, noCr⟩, coding⟩ := valid
    dsimp only at noColon begins spaces valueBegins noCr coding
    have starts : ∃ first tail,
        (⟨name, gap, value⟩ : HeaderText).bytes ++ rest = first :: tail ∧
          first ≠ 13 := by
      cases name with
      | nil => exact ⟨58, _, rfl, by decide⟩
      | cons first name =>
          exact ⟨first, _, rfl, fun same => begins (by rw [same]; rfl)⟩
    obtain ⟨first, tail, whole, different⟩ := starts
    have follows : ∃ first tail,
        value ++ 13 :: 10 :: rest = first :: tail ∧ first ≠ 32 := by
      cases value with
      | nil => exact ⟨13, _, rfl, by decide⟩
      | cons first value =>
          exact ⟨first, _, rfl, fun same => valueBegins (by rw [same]; rfl)⟩
    obtain ⟨next, after, behind, notSpace⟩ := follows
    refine ⟨first, _, preadChar_eq_ok.mpr ⟨rfl, tail, whole⟩, ?_⟩
    rw [if_neg different]
    simp only [bind_eq_ok, readUntil_eq_ok, readUp_eq_ok, readCrlf_eq_ok,
      colonText, spaceText, crText, List.mem_singleton]
    refine ⟨name, gap ++ next :: after, ⟨58, gap ++ next :: after, ?_, rfl, ?_,
      rfl⟩, gap, next :: after, ⟨next, after, rfl, notSpace, spaces, rfl⟩,
      value, 13 :: 10 :: rest, ⟨13, 10 :: rest, behind.symm, rfl, ?_, rfl⟩,
      (), rest, rfl,
      (keep_eq_ok ⟨name, gap, value⟩).mpr ⟨coding, rfl, rfl⟩⟩
    · rw [← behind]
      simp [HeaderText.bytes, ascii]
    · intro byte member same
      subst same
      exact noColon member
    · intro byte member same
      subst same
      exact noCr member

/-- Every header takes something off the packet. -/
theorem parseHeader_advances {known next : ResponseHeaders}
    {input rest : Bytes} (parsed : parseHeader known input = .ok (.inl next, rest)) :
    rest.length < input.length := by
  obtain ⟨line, -, rfl, -⟩ := parseHeader_line.mp parsed
  simp only [HeaderText.bytes, ascii, List.length_append]
  simp

/-- The loop over the headers reads lines up to an empty one. -/
theorem parseHeaders_eq_ok {known result : ResponseHeaders}
    {input rest : Bytes} :
    iterate .ag parseHeader known input = .ok (result, rest) ↔
      ∃ lines : List HeaderText, (∀ line ∈ lines, line.Valid) ∧
        input = lines.flatMap HeaderText.bytes ++ rest ∧
        rest.head? = some 13 ∧ result = lines.foldl learn known :=
  iterate_eq_items HeaderText.Valid HeaderText.bytes learn
    (fun rest => rest.head? = some 13) parseHeader_advances parseHeader_line
    parseHeader_end

end HttpResponse

/-- The text of a status line and the headers behind it. -/
structure HeadText where
  httpVersion : Bytes
  beforeStatus : Bytes
  status : Bytes
  beforeReason : Bytes
  reasonPhrase : Bytes
  lines : List HeaderText

namespace HeadText

variable (text : HeadText)

def bytes : Bytes :=
  text.httpVersion ++ text.beforeStatus ++ text.status ++ text.beforeReason ++
    text.reasonPhrase ++ ascii "\r\n" ++
    text.lines.flatMap HeaderText.bytes ++ ascii "\r\n"

def known : ResponseHeaders := text.lines.foldl HeaderText.learn {}

/-- What the parser relies on. -/
structure Valid : Prop where
  httpVersion : 32 ∉ text.httpVersion
  beforeStatus : text.beforeStatus ≠ [] ∧ ∀ byte ∈ text.beforeStatus, byte = 32
  status : text.status ≠ [] ∧ 32 ∉ text.status
  beforeReason : text.beforeReason ≠ [] ∧ ∀ byte ∈ text.beforeReason, byte = 32
  reasonPhrase : text.reasonPhrase.head? ≠ some 32 ∧ 13 ∉ text.reasonPhrase
  lines : ∀ line ∈ text.lines, line.Valid

end HeadText

namespace HttpResponse

/-- `parse_response` gets behind the headers exactly for a valid text. -/
theorem parseHead_eq_ok {input rest : Bytes}
    {head : Bytes × Int × Bytes × ResponseHeaders} :
    parseHead input = .ok (head, rest) ↔
      ∃ text : HeadText, text.Valid ∧ input = text.bytes ++ rest ∧
        head = (text.httpVersion, atoi text.status, text.reasonPhrase,
          text.known) := by
  have crText : ascii "\r" = [13] := rfl
  unfold parseHead
  rw [word_bind_eq_ok]
  constructor
  · rintro ⟨version, gap, _, rfl, noSpace, spaces, ⟨-, beginsStatus⟩, returned⟩
    obtain ⟨status, gap', after, rfl, noSpace', spaces', ⟨-, begins⟩,
      returned⟩ := word_bind_eq_ok.mp returned
    simp only [bind_eq_ok, pure_eq_ok, readUntil_eq_ok, readCrlf_eq_ok,
      parseHeaders_eq_ok, crText, List.mem_singleton, Bool.false_eq_true,
      if_false] at returned
    obtain ⟨reason, _, ⟨_, _, rfl, rfl, noCr, rfl⟩, _, _, crlf, known, _,
      ⟨lines, ok, rfl, ended, rfl⟩, _, _, rfl, rfl, rfl⟩ := returned
    refine ⟨⟨version, gap, status, gap', reason, lines⟩,
      ⟨noSpace, spaces, ⟨?_, noSpace'⟩, spaces', ⟨?_, ?_⟩, ok⟩, ?_, rfl⟩
    · intro none
      subst none
      obtain ⟨mark, more, rfl⟩ := List.exists_cons_of_ne_nil spaces'.1
      exact beginsStatus (by rw [spaces'.2 mark List.mem_cons_self]; rfl)
    · intro starts
      obtain ⟨more, rfl⟩ := List.head?_eq_some_iff.mp starts
      exact begins rfl
    · exact fun member => noCr 13 member rfl
    · rw [crlf]
      simp [HeadText.bytes]
  · rintro ⟨text, valid, rfl, rfl⟩
    obtain ⟨version, gap, status, gap', reason, lines⟩ := text
    obtain ⟨noSpace, spaces, ⟨someStatus, noSpace'⟩, spaces',
      ⟨begins, noCr⟩, ok⟩ := valid
    dsimp only at noSpace spaces someStatus noSpace' spaces' begins noCr ok
    let tail := lines.flatMap HeaderText.bytes ++ (ascii "\r\n" ++ rest)
    have beginsStatus : (status ++ (gap' ++ (reason ++ (ascii "\r\n" ++
        tail)))).head? ≠ some 32 := by
      obtain ⟨first, more, rfl⟩ := List.exists_cons_of_ne_nil someStatus
      intro starts
      cases starts
      exact noSpace' List.mem_cons_self
    have beginsReason : (reason ++ (ascii "\r\n" ++ tail)).head? ≠ some 32 := by
      cases reason with
      | nil =>
          intro starts
          cases starts
      | cons first more => exact begins
    refine ⟨version, gap, status ++ (gap' ++ (reason ++ (ascii "\r\n" ++ tail))),
      ?_, noSpace, spaces, ⟨by simp [someStatus], beginsStatus⟩, ?_⟩
    · simp [HeadText.bytes, tail]
    · refine word_bind_eq_ok.mpr ⟨status, gap', reason ++ (ascii "\r\n" ++ tail),
        rfl, noSpace', spaces', ⟨by simp [ascii], beginsReason⟩, ?_⟩
      simp only [bind_eq_ok, pure_eq_ok, readUntil_eq_ok, readCrlf_eq_ok,
        parseHeaders_eq_ok, crText, List.mem_singleton, Bool.false_eq_true,
        if_false]
      refine ⟨reason, ascii "\r\n" ++ tail, ⟨13, 10 :: tail, rfl, rfl, ?_, rfl⟩,
        (), tail, rfl, lines.foldl HeaderText.learn {}, ascii "\r\n" ++ rest,
        ⟨lines, ok, rfl, rfl, rfl⟩, (), rest, rfl, rfl, rfl⟩
      intro byte member same
      subst same
      exact noCr member

end HttpResponse

end HttpProxy

end Universe
