import Universe.Http.Injection

/-!
# The case of header names

The parser compares the names of headers byte by byte.  Two texts that differ
in the case of these names only are framed alike when the two names that it
looks for are spelled in the same way, or do not matter.
-/

namespace Universe

open Incremental

/-- `tolower` of one byte. -/
def lowerCase (byte : UInt8) : UInt8 :=
  if 65 ≤ byte && byte ≤ 90 then byte + 32 else byte

theorem lowerCase_eq {byte mark : UInt8}
    (unlike : mark < 65 ∨ 90 < mark ∧ mark < 97 ∨ 122 < mark) :
    lowerCase byte = mark ↔ byte = mark := by
  unfold lowerCase
  split
  · next capital =>
      simp only [Bool.and_eq_true, decide_eq_true_eq, UInt8.le_iff_toNat_le]
        at capital
      simp only [UInt8.lt_iff_toNat_lt, ← UInt8.toNat_inj, UInt8.toNat_add] at *
      simp at *
      omega
  · exact Iff.rfl

namespace Http

/-- Lines of which only the case of the name differs. -/
structure Recased (line other : Bytes × Bytes) : Prop where
  name : line.1.map lowerCase = other.1.map lowerCase
  value : line.2 = other.2

/-- No capital letter becomes a colon or a line break. -/
theorem Recased.mem_iff {line other : Bytes × Bytes} {mark : UInt8}
    (recased : Recased line other) (unlike : mark < 65) :
    mark ∈ line.1 ↔ mark ∈ other.1 := by
  have lowered : ∀ name : Bytes, mark ∈ name.map lowerCase ↔ mark ∈ name := by
    intro name
    simp only [List.mem_map, lowerCase_eq (.inl unlike), exists_eq_right]
  rw [← lowered line.1, recased.name, lowered]

theorem Recased.shaped {line other : Bytes × Bytes}
    (recased : Recased line other) (shaped : Shaped line) : Shaped other := by
  constructor
  · intro begins
    obtain ⟨tail, whole⟩ := List.head?_eq_some_iff.mp begins
    have lowered := recased.name
    rw [whole] at lowered
    cases name : line.1 with
    | nil =>
        rw [name] at lowered
        cases lowered
    | cons byte rest =>
        rw [name] at lowered
        have same : lowerCase byte = 13 := (List.cons.inj lowered).1
        have isCr := (lowerCase_eq (by decide)).mp same
        exact shaped.begins (by rw [name, isCr]; rfl)
  · exact fun member => shaped.noColon
      ((recased.mem_iff (by decide)).mpr member)
  · rw [← recased.value]
    exact shaped.noCr

theorem shaped_of_recased {lines others : List (Bytes × Bytes)}
    (recased : List.Forall₂ Recased lines others)
    (shaped : ∀ line ∈ lines, Shaped line) : ∀ line ∈ others, Shaped line := by
  induction recased with
  | nil => exact shaped
  | cons first _ induction =>
      obtain ⟨shapedFirst, shapedRest⟩ := List.forall_mem_cons.mp shaped
      exact List.forall_mem_cons.mpr
        ⟨first.shaped shapedFirst, induction shapedRest⟩

/-- Spaces end where something else begins. -/
theorem spaces_unique {first second rest left : Bytes}
    (same : first ++ rest = second ++ left)
    (firstSpaces : ∀ byte ∈ first, byte = 32)
    (secondSpaces : ∀ byte ∈ second, byte = 32)
    (restBegins : rest.head? ≠ some 32) (leftBegins : left.head? ≠ some 32) :
    first = second ∧ rest = left := by
  induction first generalizing second with
  | nil =>
      cases second with
      | nil => exact ⟨rfl, same⟩
      | cons byte second =>
          have isSpace := secondSpaces byte List.mem_cons_self
          rw [List.nil_append] at same
          exact absurd (by rw [same, isSpace]; rfl) restBegins
  | cons byte first induction =>
      obtain ⟨isSpace, spaces⟩ := List.forall_mem_cons.mp firstSpaces
      cases second with
      | nil =>
          rw [List.nil_append] at same
          exact absurd (by rw [← same, isSpace]; rfl) leftBegins
      | cons other second =>
          obtain ⟨rfl, later⟩ := List.cons.inj same
          obtain ⟨rfl, rests⟩ := induction later spaces
            (fun byte member =>
              secondSpaces byte (List.mem_cons_of_mem _ member))
          exact ⟨rfl, rests⟩

namespace RequestText

/-- What `Valid` says without the names that the parser looks for. -/
structure Parted (text : RequestText) : Prop where
  method : 32 ∉ text.method
  beforeUri : text.beforeUri ≠ [] ∧ ∀ byte ∈ text.beforeUri, byte = 32
  uri : text.uri ≠ [] ∧ 32 ∉ text.uri
  beforeVersion : text.beforeVersion ≠ [] ∧
    ∀ byte ∈ text.beforeVersion, byte = 32
  httpVersion : text.httpVersion.head? ≠ some 32 ∧ 13 ∉ text.httpVersion
  lines : ∀ line ∈ text.lines, Shaped line

theorem Valid.parted {text : RequestText} (valid : text.Valid) : text.Parted :=
  ⟨valid.method, valid.beforeUri, valid.uri, valid.beforeVersion,
    valid.httpVersion, fun line member => (valid.lines line member).shaped⟩

theorem bytes_append (text : RequestText) (rest : Bytes) :
    text.bytes ++ rest = text.method ++ (text.beforeUri ++ (text.uri ++
      (text.beforeVersion ++ (text.httpVersion ++ 13 :: 10 ::
        (linesText text.lines ++ 13 :: 10 :: (text.body ++ rest)))))) := by
  have crlf : ascii "\r\n" = [13, 10] := by decide
  simp [bytes, head, crlf]

/-- A text of spaces and what follows it. -/
theorem exists_space {gap : Bytes}
    (spaces : gap ≠ [] ∧ ∀ byte ∈ gap, byte = 32) :
    ∃ rest, gap = 32 :: rest ∧ ∀ byte ∈ rest, byte = 32 := by
  obtain ⟨byte, rest, rfl⟩ := List.exists_cons_of_ne_nil spaces.1
  obtain ⟨rfl, others⟩ := List.forall_mem_cons.mp spaces.2
  exact ⟨rest, rfl, others⟩

/-- A request can be taken apart in one way only. -/
theorem Parted.unique {text other : RequestText} (parted : text.Parted)
    (otherParted : other.Parted) {rest left : Bytes}
    (same : text.bytes ++ rest = other.bytes ++ left) :
    text.method = other.method ∧ text.uri = other.uri ∧
      text.httpVersion = other.httpVersion ∧ text.lines = other.lines ∧
      text.body ++ rest = other.body ++ left := by
  have uriBegins : ∀ {text : RequestText} (after : Bytes), text.Parted →
      (text.uri ++ after).head? ≠ some 32 := by
    intro text after parted begins
    obtain ⟨byte, uri, isUri⟩ := List.exists_cons_of_ne_nil parted.uri.1
    rw [isUri, List.cons_append, List.head?_cons] at begins
    exact parted.uri.2 (by rw [isUri, Option.some.inj begins]; simp)
  have versionBegins : ∀ {text : RequestText} (after : Bytes), text.Parted →
      (text.httpVersion ++ 13 :: after).head? ≠ some 32 := by
    intro text after parted begins
    cases version : text.httpVersion with
    | nil =>
        rw [version] at begins
        exact absurd begins (by simp)
    | cons byte tail =>
        rw [version] at begins
        exact parted.httpVersion.1 (by rw [version]; exact begins)
  obtain ⟨gap, isGap, gapSpaces⟩ := exists_space parted.beforeUri
  obtain ⟨otherGap, isOtherGap, otherGapSpaces⟩ :=
    exists_space otherParted.beforeUri
  obtain ⟨pause, isPause, pauseSpaces⟩ := exists_space parted.beforeVersion
  obtain ⟨otherPause, isOtherPause, otherPauseSpaces⟩ :=
    exists_space otherParted.beforeVersion
  rw [bytes_append, bytes_append, isGap, isOtherGap, isPause, isOtherPause]
    at same
  obtain ⟨methods, afterMethod⟩ :=
    split_unique same parted.method otherParted.method
  obtain ⟨-, afterGap⟩ := spaces_unique afterMethod gapSpaces otherGapSpaces
    (uriBegins _ parted) (uriBegins _ otherParted)
  obtain ⟨uris, afterUri⟩ :=
    split_unique afterGap parted.uri.2 otherParted.uri.2
  obtain ⟨-, afterPause⟩ := spaces_unique afterUri pauseSpaces otherPauseSpaces
    (versionBegins _ parted) (versionBegins _ otherParted)
  obtain ⟨versions, afterVersion⟩ := split_unique afterPause
    parted.httpVersion.2 otherParted.httpVersion.2
  have afterCrlf := (List.cons.inj afterVersion).2
  have lines := lines_unique parted.lines otherParted.lines afterCrlf
  rw [lines] at afterCrlf
  have behind := List.append_cancel_left afterCrlf
  exact ⟨methods, uris, versions, lines,
    (List.cons.inj (List.cons.inj behind).2).2⟩

/-- The text with other lines. -/
def withLines (text : RequestText) (lines : List (Bytes × Bytes)) :
    RequestText :=
  { text with lines }

theorem Parted.withLines {text : RequestText} (parted : text.Parted)
    {lines : List (Bytes × Bytes)} (shaped : ∀ line ∈ lines, Shaped line) :
    (text.withLines lines).Parted :=
  ⟨parted.method, parted.beforeUri, parted.uri, parted.beforeVersion,
    parted.httpVersion, shaped⟩

end RequestText

/-- When the case of header names changes, the outcome stays the same (but for
the names in the map) exactly when no header is then called `Transfer-Encoding`
and the last `Content-Length` announces as many bytes, both in this spelling. -/
theorem recased_alike_iff {client : Fd} {input rest : Bytes} {r : HttpRequest}
    (parsed : parseRequest client input = .ok (r, rest)) :
    ∃ text : RequestText, text.Valid ∧ input = text.bytes ++ rest ∧
      r = text.request client ∧
      ∀ lines, List.Forall₂ Recased text.lines lines →
        (parseRequest client ((text.withLines lines).bytes ++ rest) =
            .ok ({ r with headers := collect lines }, rest) ↔
          (∀ line ∈ lines, line.1 ≠ ascii "Transfer-Encoding") ∧
          (announced (collect lines)).toNat =
            (announced (collect text.lines)).toNat) := by
  obtain ⟨text, valid, whole, isRequest⟩ := parseRequest_eq_ok.mp parsed
  refine ⟨text, valid, whole, isRequest, ?_⟩
  intro lines recased
  have shaped := shaped_of_recased recased valid.parted.lines
  have parted : (text.withLines lines).Parted := valid.parted.withLines shaped
  constructor
  · intro accepted
    obtain ⟨other, otherValid, same, isOther⟩ := parseRequest_eq_ok.mp accepted
    obtain ⟨-, -, -, sameLines, sameBody⟩ :=
      parted.unique otherValid.parted same
    have body : text.body = other.body := List.append_cancel_right sameBody
    have isLines : lines = other.lines := sameLines
    constructor
    · intro line member
      rw [isLines] at member
      exact (otherValid.lines line member).plain
    · rw [isLines, ← otherValid.body, ← body]
      exact valid.body
  · intro ⟨plain, length⟩
    refine parseRequest_eq_ok.mpr ⟨text.withLines lines, ?_, rfl, ?_⟩
    · refine ⟨valid.method, valid.beforeUri, valid.uri, valid.beforeVersion,
        valid.httpVersion, ?_, valid.body.trans length.symm⟩
      intro line member
      obtain ⟨begins, noColon, noCr⟩ := shaped line member
      exact ⟨noColon, begins, plain line member, noCr⟩
    · rw [isRequest]
      rfl

/-- What is read from `GET / HTTP/1.1` with a header `Host: x`. -/
def hostRequest : HttpRequest :=
  ⟨5, ascii "GET", ascii "/", ascii "HTTP/1.1",
    [(ascii "Host", ascii "x")], []⟩

theorem recased_alike_sample :
    ∃ text : RequestText, text.Valid ∧
      ascii "GET / HTTP/1.1\r\nHost: x\r\n\r\n" = text.bytes ++ [] ∧
      hostRequest = text.request 5 ∧
      ∀ lines, List.Forall₂ Recased text.lines lines →
        (parseRequest 5 ((text.withLines lines).bytes ++ []) =
            .ok ({ hostRequest with headers := collect lines }, []) ↔
          (∀ line ∈ lines, line.1 ≠ ascii "Transfer-Encoding") ∧
          (announced (collect lines)).toNat =
            (announced (collect text.lines)).toNat) :=
  recased_alike_iff (by decide +kernel)

/-- A length under another spelling is not seen: the body is the next
request. -/
theorem lower_case_length_unseen :
    parseRequest 5
        (ascii "POST / HTTP/1.1\r\nContent-Length: 5\r\n\r\nhello") =
      .ok (⟨5, ascii "POST", ascii "/", ascii "HTTP/1.1",
        [(ascii "Content-Length", ascii "5")], ascii "hello"⟩, []) ∧
    parseRequest 5
        (ascii "POST / HTTP/1.1\r\ncontent-length: 5\r\n\r\nhello") =
      .ok (⟨5, ascii "POST", ascii "/", ascii "HTTP/1.1",
        [(ascii "content-length", ascii "5")], []⟩, ascii "hello") ∧
    Recased (ascii "Content-Length", ascii "5")
      (ascii "content-length", ascii "5") := by
  refine ⟨by decide +kernel, by decide +kernel, by decide +kernel, rfl⟩

end Http

end Universe
