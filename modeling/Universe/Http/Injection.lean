import Mathlib.Data.List.Induction
import Universe.Http.Forwarding

/-!
# Line breaks inside the fields of a request

The parser ends a method at a space, a header name at a colon and a header
value at a CR, and takes every other byte as it comes.  A line break can get
into a field whenever the text of the request has one there.
-/

namespace Universe

open Incremental Http

/-- Neither CR nor LF. -/
def OneLine (text : Bytes) : Prop := Utils.Only (fun byte => byte ≠ 13 ∧ byte ≠ 10) text

instance (text : Bytes) : Decidable (OneLine text) :=
  inferInstanceAs (Decidable (∀ byte ∈ text, byte ≠ 13 ∧ byte ≠ 10))

namespace HttpRequest

/-- No field has a line break. -/
structure Unbroken (r : HttpRequest) : Prop where
  method : OneLine r.method
  uri : OneLine r.uri
  httpVersion : OneLine r.httpVersion
  headers : ∀ header ∈ r.headers, OneLine header.1 ∧ OneLine header.2

/-- The packet begins with one request line and one line for every header
that is forwarded, and an empty line ends the head. -/
def Lined (r : HttpRequest) (target : HttpProviderAddress) (packet : Bytes) :
    Prop :=
  ∃ lines : List Bytes,
    packet = (lines.flatMap fun line => line ++ ascii "\r\n") ++
      ascii "\r\n" ++ r.body ∧
    (∀ line ∈ lines, line ≠ [] ∧ OneLine line) ∧
    lines.length = 1 + (r.forwardHeaders target).length

/-- Neither the fields nor what is forwarded to a target without line breaks
can break a line. -/
structure Safe (r : HttpRequest) : Prop where
  fields : r.Unbroken
  forwarded : ∀ target : HttpProviderAddress, OneLine target.host →
    OneLine target.path → OneLine target.query →
    ∀ packet, r.forwardPacket target = some packet → r.Lined target packet

theorem Unbroken.lined {r : HttpRequest} (unbroken : r.Unbroken)
    {target : HttpProviderAddress} (host : OneLine target.host)
    (path : OneLine target.path) (query : OneLine target.query)
    {packet : Bytes} (sent : r.forwardPacket target = some packet) :
    r.Lined target packet := by
  obtain ⟨merged, isMerged, rfl⟩ := forwardPacket_eq_some sent
  have uri : OneLine (forwardUri target merged) :=
    forwardUri_only isMerged unbroken.uri path query (by decide) (by decide)
      (by decide)
  have space : OneLine (ascii " ") := by decide +kernel
  have separator : OneLine (ascii ": ") := by decide +kernel
  have requestLine : OneLine (r.method ++ ascii " " ++
      forwardUri target merged ++ ascii " " ++ r.httpVersion) :=
    (((unbroken.method.append space).append uri).append space).append
      unbroken.httpVersion
  refine ⟨(r.method ++ ascii " " ++ forwardUri target merged ++ ascii " " ++
      r.httpVersion) ::
    (r.forwardHeaders target).map fun header =>
      header.1 ++ ascii ": " ++ header.2, ?_, ?_, ?_⟩
  · simp [forwardText, RequestText.bytes, RequestText.head, linesText, lineText,
      List.flatMap_map]
  · intro line member
    rcases List.mem_cons.mp member with rfl | member
    · exact ⟨by simp [ascii], requestLine⟩
    · obtain ⟨header, present, rfl⟩ := List.mem_map.mp member
      refine ⟨by simp [ascii], ?_⟩
      rcases mem_forwardHeaders present with rfl | present
      · have name : OneLine HttpToken.host := by decide +kernel
        exact (Utils.Only.append name separator).append host
      · obtain ⟨name, value⟩ := unbroken.headers header present
        exact (Utils.Only.append name separator).append value
  · simp only [List.length_cons, List.length_map]
    omega

end HttpRequest

namespace Http

/-- Two gaps with something else between them. -/
def TwoGaps (line : Bytes) : Prop :=
  ∃ before middle after, line = before ++ 32 :: middle ++ 32 :: after ∧
    ∃ byte ∈ middle, byte ≠ 32

/-- The text begins with a request line of three words on one line and
header lines whose names are on one line, and every header is on one line
where its name occurs for the last time. -/
def LineByLine (input : Bytes) : Prop :=
  ∃ (first : Bytes) (lines : List (Bytes × Bytes)) (rest : Bytes),
    input = first ++ ascii "\r\n" ++ linesText lines ++ ascii "\r\n" ++ rest ∧
    OneLine first ∧ TwoGaps first ∧
    (∀ line ∈ lines, OneLine line.1 ∧ 58 ∉ line.1 ∧ 13 ∉ line.2) ∧
    ∀ before name value after, lines = before ++ (name, value) :: after →
      (∀ line ∈ after, line.1 ≠ name) → OneLine value

/-- A part without `mark` ends before a `mark` that follows. -/
theorem prefix_of_notMem {mark : UInt8} {whole later part rest : Bytes}
    (same : whole ++ mark :: later = part ++ rest) (absent : mark ∉ part) :
    ∃ between, whole = part ++ between ∧ rest = between ++ mark :: later := by
  rcases List.append_eq_append_iff.mp same with
    ⟨between, partEq, markEq⟩ | ⟨between, wholeEq, restEq⟩
  · cases between with
    | nil =>
        refine ⟨[], by simpa using partEq.symm, by simpa using markEq.symm⟩
    | cons first between =>
        cases markEq
        exact absurd (by simp [partEq]) absent
  · exact ⟨between, wholeEq, restEq⟩

/-- A part of spaces ends before something else that follows. -/
theorem prefix_of_spaces {whole later part rest : Bytes}
    (same : whole ++ later = part ++ rest)
    (spaces : ∀ byte ∈ part, byte = 32) (other : ∃ byte ∈ whole, byte ≠ 32) :
    ∃ between, whole = part ++ between ∧ rest = between ++ later := by
  rcases List.append_eq_append_iff.mp same with
    ⟨between, partEq, -⟩ | ⟨between, wholeEq, restEq⟩
  · obtain ⟨byte, member, notSpace⟩ := other
    exact absurd (spaces byte (by simp [partEq, member])) notSpace
  · exact ⟨between, wholeEq, restEq⟩

theorem split_unique {mark : UInt8} {first second firstRest secondRest : Bytes}
    (same : first ++ mark :: firstRest = second ++ mark :: secondRest)
    (firstAbsent : mark ∉ first) (secondAbsent : mark ∉ second) :
    first = second ∧ firstRest = secondRest := by
  obtain ⟨between, firstEq, restEq⟩ := prefix_of_notMem same secondAbsent
  cases between with
  | nil =>
      rw [List.append_nil] at firstEq
      cases restEq
      exact ⟨firstEq, rfl⟩
  | cons byte between =>
      cases restEq
      exact absurd (by simp [firstEq]) firstAbsent

/-- A name ends at its colon, and a value at the end of its line. -/
structure Shaped (line : Bytes × Bytes) : Prop where
  begins : line.1.head? ≠ some 13
  noColon : 58 ∉ line.1
  noCr : 13 ∉ line.2

theorem LineOk.shaped {line : Bytes × Bytes} (ok : LineOk line.1 line.2) :
    Shaped line :=
  ⟨ok.begins, ok.noColon, ok.noCr⟩

/-- The lines of a head can be told apart in one way only. -/
theorem lines_unique {lines others : List (Bytes × Bytes)} {rest left : Bytes}
    (ok : ∀ line ∈ lines, Shaped line) (clean : ∀ line ∈ others, Shaped line)
    (same : linesText lines ++ 13 :: rest = linesText others ++ 13 :: left) :
    lines = others := by
  induction lines generalizing others with
  | nil =>
      cases others with
      | nil => rfl
      | cons other others =>
          obtain ⟨name, value⟩ := other
          have begins := (clean _ List.mem_cons_self).begins
          cases name with
          | nil => simp [linesText, lineText, ascii] at same
          | cons byte name =>
              simp only [linesText, lineText, List.flatMap_cons, List.flatMap_nil,
                List.nil_append, List.cons_append, List.cons.injEq] at same
              exact absurd (by simp [same.1]) begins
  | cons line lines induction =>
      obtain ⟨name, value⟩ := line
      have first := ok _ List.mem_cons_self
      cases others with
      | nil =>
          cases name with
          | nil => simp [linesText, lineText, ascii] at same
          | cons byte name =>
              simp only [linesText, lineText, List.flatMap_cons, List.flatMap_nil,
                List.nil_append, List.cons_append, List.cons.injEq] at same
              exact absurd (by simp [same.1]) first.begins
      | cons other others =>
          obtain ⟨otherName, otherValue⟩ := other
          obtain ⟨-, noColon, noCr⟩ := clean _ List.mem_cons_self
          have same : name ++ 58 :: 32 :: (value ++ 13 :: 10 ::
                (linesText lines ++ 13 :: rest)) =
              otherName ++ 58 :: 32 :: (otherValue ++ 13 :: 10 ::
                (linesText others ++ 13 :: left)) := by
            simpa [linesText, lineText, ascii] using same
          obtain ⟨rfl, afterColon⟩ := split_unique same first.noColon noColon
          obtain ⟨rfl, afterCr⟩ :=
            split_unique (List.cons.inj afterColon).2 first.noCr noCr
          have later := induction
            (fun line member => ok line (List.mem_cons_of_mem _ member))
            (fun line member => clean line (List.mem_cons_of_mem _ member))
            (List.cons.inj afterCr).2
          rw [later]

/-- The map has the last value of every name. -/
theorem find_collect {lines : List (Bytes × Bytes)} {name value : Bytes} :
    (collect lines).find name = some value ↔
      ∃ before after, lines = before ++ (name, value) :: after ∧
        ∀ line ∈ after, line.1 ≠ name := by
  induction lines using List.reverseRecOn with
  | nil => simp [collect, Headers.find, OrderedMap.find]
  | append_singleton lines line induction =>
      have last : collect (lines ++ [line]) =
          (collect lines).set line.1 line.2 := by
        simp [collect]
      rw [last, Headers.find_set]
      by_cases same : line.1 = name
      · rw [if_pos same]
        constructor
        · intro found
          cases found
          exact ⟨lines, [], by rw [← same], by simp⟩
        · rintro ⟨before, after, split, absent⟩
          rcases List.eq_nil_or_concat' after with rfl | ⟨earlier, final, rfl⟩
          · obtain ⟨-, final⟩ := List.append_inj' split rfl
            cases final
            rfl
          · have final : lines = before ++ (name, value) :: earlier ∧
                [line] = [final] :=
              List.append_inj' (by simpa using split) rfl
            cases final.2
            exact absurd same (absent line (by simp))
      · rw [if_neg same, induction]
        constructor
        · rintro ⟨before, after, rfl, absent⟩
          refine ⟨before, after ++ [line], by simp, ?_⟩
          intro other member
          rcases List.mem_append.mp member with member | member
          · exact absent other member
          · rwa [List.mem_singleton.mp member]
        · rintro ⟨before, after, split, absent⟩
          rcases List.eq_nil_or_concat' after with rfl | ⟨earlier, final, rfl⟩
          · obtain ⟨-, final⟩ := List.append_inj' split rfl
            cases final
            exact absurd rfl same
          · have final : lines = before ++ (name, value) :: earlier ∧
                [line] = [final] :=
              List.append_inj' (by simpa using split) rfl
            exact ⟨before, earlier, final.1, fun other member =>
              absent other (by simp [member])⟩

/-- A request line with two gaps on one line is the line that the parser
takes apart. -/
theorem first_unique {text : RequestText} (valid : text.Valid)
    {first rest left : Bytes} (oneLine : OneLine first) (gaps : TwoGaps first)
    (same : first ++ 13 :: left = text.method ++ (text.beforeUri ++ (text.uri ++
      (text.beforeVersion ++ (text.httpVersion ++ 13 :: rest))))) :
    first = text.method ++ (text.beforeUri ++ (text.uri ++
        (text.beforeVersion ++ text.httpVersion))) ∧ left = rest := by
  obtain ⟨before, middle, after, rfl, byte, inMiddle, notSpace⟩ := gaps
  rw [List.append_assoc, List.append_assoc] at same
  obtain ⟨toGap, beforeEq, same⟩ := prefix_of_notMem same valid.method
  -- Both gaps of the parser end before those of the line do.
  have same : (toGap ++ 32 :: middle) ++ 32 :: (after ++ 13 :: left) =
      text.beforeUri ++ (text.uri ++
        (text.beforeVersion ++ (text.httpVersion ++ 13 :: rest))) := by
    simpa using same.symm
  obtain ⟨fromUri, uriEq, same⟩ := prefix_of_spaces same valid.beforeUri.2
    ⟨byte, by simp [inMiddle], notSpace⟩
  obtain ⟨toVersion, restEq, same⟩ :=
    prefix_of_notMem same.symm valid.uri.2
  have lineEq : before ++ 32 :: middle ++ 32 :: after =
      text.method ++ (text.beforeUri ++ (text.uri ++ (toVersion ++ 32 :: after))) := by
    have shifted := congrArg (fun part => text.method ++ part ++ 32 :: after) uriEq
    simpa [beforeEq, restEq] using shifted
  rw [lineEq] at oneLine ⊢
  have noCr : 13 ∉ text.beforeVersion ++ text.httpVersion := by
    intro member
    rcases List.mem_append.mp member with member | member
    · exact absurd (valid.beforeVersion.2 13 member) (by decide)
    · exact valid.httpVersion.2 member
  have noCr' : 13 ∉ toVersion ++ 32 :: after := by
    intro member
    have within : 13 ∈ text.method ++ (text.beforeUri ++ (text.uri ++
        (toVersion ++ 32 :: after))) := by
      simp only [List.mem_append] at member ⊢
      exact .inr (.inr (.inr member))
    exact (oneLine 13 within).1 rfl
  have same : (toVersion ++ 32 :: after) ++ 13 :: left =
      (text.beforeVersion ++ text.httpVersion) ++ 13 :: rest := by
    simpa using same.symm
  obtain ⟨versionEq, restEq⟩ := split_unique same noCr' noCr
  exact ⟨by rw [versionEq], restEq⟩

end Http

namespace Http

/-- Every name of the lines is in the map. -/
theorem find_collect_isSome {lines : List (Bytes × Bytes)}
    {line : Bytes × Bytes} (member : line ∈ lines) :
    ∃ value, (collect lines).find line.1 = some value := by
  induction lines using List.reverseRecOn with
  | nil => cases member
  | append_singleton lines last induction =>
      have added : collect (lines ++ [last]) =
          (collect lines).set last.1 last.2 := by
        simp [collect]
      rw [added, Headers.find_set]
      split
      · exact ⟨_, rfl⟩
      · next different =>
          rcases List.mem_append.mp member with member | member
          · exact induction member
          · rw [List.mem_singleton.mp member] at different
            exact absurd rfl different

/-- The line breaks of the text decide about those of the fields. -/
theorem unbroken_iff {client : Fd} {text : RequestText} (valid : text.Valid)
    (rest : Bytes) : (text.request client).Unbroken ↔
      LineByLine (text.bytes ++ rest) := by
  have whole : text.bytes ++ rest = text.method ++ (text.beforeUri ++
      (text.uri ++ (text.beforeVersion ++ (text.httpVersion ++ 13 :: 10 ::
        (linesText text.lines ++ 13 :: 10 :: (text.body ++ rest)))))) := by
    simp [RequestText.bytes, RequestText.head, ascii]
  have ordered : Headers.Ordered (collect text.lines) :=
    ordered_collect text.lines
  have gapOneLine : ∀ {gap : Bytes}, (∀ byte ∈ gap, byte = 32) →
      OneLine gap := by
    intro gap spaces byte member
    rw [spaces byte member]
    decide
  constructor
  · intro unbroken
    refine ⟨text.method ++ (text.beforeUri ++ (text.uri ++
      (text.beforeVersion ++ text.httpVersion))), text.lines,
      text.body ++ rest, ?_, ?_, ?_, ?_, ?_⟩
    · rw [whole]
      simp [ascii]
    · exact Utils.Only.append unbroken.method (Utils.Only.append
        (gapOneLine valid.beforeUri.2) (Utils.Only.append unbroken.uri
          (Utils.Only.append (gapOneLine valid.beforeVersion.2)
            unbroken.httpVersion)))
    · obtain ⟨first, tail, uriEq⟩ := List.exists_cons_of_ne_nil valid.uri.1
      obtain ⟨gap, beforeUri, gapEq⟩ :=
        List.exists_cons_of_ne_nil valid.beforeUri.1
      obtain ⟨gap', beforeVersion, gapEq'⟩ :=
        List.exists_cons_of_ne_nil valid.beforeVersion.1
      have isSpace : gap = 32 := valid.beforeUri.2 gap (by simp [gapEq])
      have isSpace' : gap' = 32 := valid.beforeVersion.2 gap' (by simp [gapEq'])
      refine ⟨text.method, beforeUri ++ text.uri,
        beforeVersion ++ text.httpVersion, ?_, first, by simp [uriEq], ?_⟩
      · simp [gapEq, gapEq', isSpace, isSpace']
      · rintro rfl
        exact valid.uri.2 (by simp [uriEq])
    · intro line member
      obtain ⟨value, found⟩ := find_collect_isSome member
      have ok := valid.lines line member
      have header := unbroken.headers _ (OrderedMap.mem_of_find found)
      exact ⟨header.1, ok.noColon, ok.noCr⟩
    · intro before name value after split absent
      have found : (collect text.lines).find name = some value :=
        find_collect.mpr ⟨before, after, split, absent⟩
      exact (unbroken.headers _ (OrderedMap.mem_of_find found)).2
  · rintro ⟨first, lines, left, inputEq, oneLine, gaps, clean, lastClean⟩
    rw [whole] at inputEq
    have inputEq : first ++ 13 :: (10 :: (linesText lines ++ 13 :: 10 :: left)) =
        text.method ++ (text.beforeUri ++ (text.uri ++ (text.beforeVersion ++
          (text.httpVersion ++ 13 :: (10 :: (linesText text.lines ++
            13 :: 10 :: (text.body ++ rest))))))) := by
      simpa [ascii] using inputEq.symm
    obtain ⟨rfl, linesEq⟩ := first_unique valid oneLine gaps inputEq
    have sameLines : text.lines = lines := by
      refine lines_unique (fun line member => (valid.lines line member).shaped)
        ?_ (List.cons.inj linesEq).2.symm
      intro line member
      obtain ⟨nameLine, noColon, noCr⟩ := clean line member
      refine ⟨?_, noColon, noCr⟩
      intro begins
      exact (nameLine 13 (List.mem_of_head? begins)).1 rfl
    have part : ∀ {bytes : Bytes}, (∀ byte ∈ bytes, byte ∈ text.method ++
        (text.beforeUri ++ (text.uri ++ (text.beforeVersion ++
          text.httpVersion)))) → OneLine bytes :=
      fun within => Utils.Only.of_subset oneLine within
    constructor
    · exact part fun byte member => by simp_all [RequestText.request]
    · exact part fun byte member => by simp_all [RequestText.request]
    · exact part fun byte member => by simp_all [RequestText.request]
    · intro header member
      have inLines : header ∈ lines := sameLines ▸ mem_collect member
      obtain ⟨before, after, split, absent⟩ :=
        find_collect.mp (OrderedMap.find_of_mem ordered member)
      exact ⟨(clean header inLines).1,
        lastClean before _ _ after (sameLines ▸ split) absent⟩

end Http

open Http

/-- A request that was read has line breaks neither in its fields nor in the
lines that are forwarded exactly when its text keeps to one line where they
come from. -/
theorem line_breaks_kept_out {client : Fd} {input rest : Bytes}
    {r : HttpRequest} (parsed : parseRequest client input = .ok (r, rest)) :
    r.Safe ↔ LineByLine input := by
  obtain ⟨text, valid, rfl, rfl⟩ := parseRequest_eq_ok.mp parsed
  rw [← unbroken_iff valid]
  constructor
  · exact fun safe => safe.fields
  · intro unbroken
    exact ⟨unbroken, fun target host path query packet sent =>
      unbroken.lined host path query sent⟩

theorem plain_request_is_safe :
    ∃ r, parseRequest 5 (ascii "GET / HTTP/1.1\r\nHost: a\r\n\r\n") =
        .ok (r, []) ∧ r.Safe := by
  have parsed : parseRequest 5 (ascii "GET / HTTP/1.1\r\nHost: a\r\n\r\n") =
      .ok (⟨5, ascii "GET", ascii "/", ascii "HTTP/1.1",
        [(ascii "Host", ascii "a")], []⟩, []) := by
    decide +kernel
  have lineByLine :
      LineByLine (ascii "GET / HTTP/1.1\r\nHost: a\r\n\r\n") := by
    refine ⟨ascii "GET / HTTP/1.1", [(ascii "Host", ascii "a")], [],
      by decide +kernel, by decide +kernel,
      ⟨ascii "GET", ascii "/", ascii "HTTP/1.1", by decide +kernel, 47,
        by decide, by decide⟩, ?_, ?_⟩
    · intro line member
      rw [List.mem_singleton.mp member]
      decide +kernel
    · intro before name value after split absent
      have member : (name, value) ∈ [(ascii "Host", ascii "a")] := by
        rw [split]
        simp
      obtain ⟨rfl, rfl⟩ := Prod.mk.inj (List.mem_singleton.mp member)
      decide +kernel
  exact ⟨_, parsed, (line_breaks_kept_out parsed).mpr lineByLine⟩

/-- The method of a request may hold a line of its own. -/
theorem method_breaks_line :
    ∃ r, parseRequest 5
        (ascii "GET\r\nX:1 / HTTP/1.1\r\n\r\n") = .ok (r, []) ∧
      13 ∈ r.method ∧ 10 ∈ r.method ∧ ¬ r.Unbroken := by
  refine ⟨⟨5, ascii "GET\r\nX:1", ascii "/", ascii "HTTP/1.1", [], []⟩,
    by decide +kernel, by decide +kernel, by decide +kernel, ?_⟩
  intro unbroken
  have oneLine := unbroken.method
  revert oneLine
  decide +kernel

end Universe
