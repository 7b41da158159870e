import Universe.HttpProxy

/-!
# Responses in pieces

The proxy collects what it reads from an origin server and parses it anew
after every read.  What it relays depends on the bytes alone, but for one
case: headers without a length are a response of their own when nothing has
come behind them yet.
-/

namespace Universe.HttpProxy

open Incremental

namespace HttpResponse

/-- Headers without a length, with nothing behind them. -/
def Bare (packet : Bytes) : Prop :=
  ∃ head, parseHead packet = .ok (head, []) ∧ Unsized head.2.2.2

theorem parseResponse_of_head {packet rest : Bytes}
    {head : Bytes × Int × Bytes × HttpGateway.ResponseHeaders}
    (parsed : parseHead packet = .ok (head, rest)) :
    parseResponse packet =
      (do
        let left ← parseBody head.2.2.2
        return left.map fun (headers, body) =>
          { httpVersion := head.1
            statusCode := head.2.1
            reasonPhrase := head.2.2.1
            headers
            body } : StreamReader (Option HttpResponse)) rest :=
  bind_of_ok parsed

/-- Nothing but more input behind bare headers changes the outcome. -/
theorem parseResponse_append {packet more : Bytes}
    (spared : Bare packet → more = []) :
    (∀ value rest, parseResponse packet = .ok (value, rest) →
      parseResponse (packet ++ more) = .ok (value, rest ++ more)) ∧
    ∀ stop, parseResponse packet = .error stop → stop ≠ .ag →
      parseResponse (packet ++ more) = .error stop := by
  cases parsed : parseHead packet with
  | error early =>
      have same : parseResponse packet = .error early := bind_of_error parsed
      refine ⟨?_, ?_⟩
      · intro value rest returned
        rw [same] at returned
        cases returned
      · intro stop stopped different
        rw [same] at stopped
        cases stopped
        exact bind_of_error (stable_parseHead.error parsed different more)
  | ok result =>
      obtain ⟨head, rest⟩ := result
      have longer := stable_parseHead.ok parsed more
      rw [parseResponse_of_head parsed, parseResponse_of_head longer]
      by_cases unsized : Unsized head.2.2.2
      · have body := parseBody_unsized unsized
        by_cases nothing : rest = []
        · subst nothing
          have none := spared ⟨head, parsed, unsized⟩
          subst none
          refine ⟨?_, fun stop stopped _ => stopped⟩
          intro value rest returned
          rw [List.append_nil, List.append_nil]
          exact returned
        · have refused : ∀ input : Bytes, input ≠ [] →
              parseBody head.2.2.2 input = .error .ng := by
            intro input some
            rw [body, if_neg some]
          refine ⟨?_, ?_⟩
          · intro value left returned
            rw [bind_of_error (refused rest nothing)] at returned
            cases returned
          · intro stop stopped _
            rw [bind_of_error (refused rest nothing)] at stopped
            rw [bind_of_error (refused _ (by simp [nothing]))]
            exact stopped
      · have stable := stable_bind (stable_parseBody unsized)
          fun left => stable_pure (left.map fun (headers, body) =>
            ({ httpVersion := head.1
               statusCode := head.2.1
               reasonPhrase := head.2.2.1
               headers
               body } : HttpResponse))
        exact ⟨fun value left returned => stable.ok returned more,
          fun stop stopped different => stable.error stopped different more⟩

/-- Bare headers are a response, and with more behind them they are refused. -/
theorem Bare.outcome {packet : Bytes} (bare : Bare packet) :
    (∃ r, parseResponse packet = .ok (some r, [])) ∧
      ∀ more, more ≠ [] → parseResponse (packet ++ more) = .error .ng := by
  obtain ⟨head, parsed, unsized⟩ := bare
  have body := parseBody_unsized unsized
  refine ⟨?_, ?_⟩
  · have returned := (parseResponse_of_head parsed).trans
      (bind_of_ok ((body []).trans (if_pos rfl)))
    exact ⟨_, returned⟩
  · intro more some
    have longer := stable_parseHead.ok parsed more
    rw [parseResponse_of_head longer]
    exact bind_of_error ((body more).trans (if_neg some))

/-- A part of bare headers ends too early. -/
theorem Bare.of_part {packet more : Bytes} (bare : Bare (packet ++ more))
    (some : more ≠ []) : parseResponse packet = .error .ag := by
  obtain ⟨head, parsed, -⟩ := bare
  have early := stable_parseHead.of_part parsed (List.prefix_append packet more)
  rcases early with early | ⟨rest, later, _, whole, nothing⟩
  · exact bind_of_error early
  · obtain ⟨-, rfl⟩ := List.append_eq_nil_iff.mp nothing
    exact absurd (List.append_cancel_left whole).symm some

end HttpResponse

/-- How far the reading of a response has come. -/
inductive Reading where
  | waiting (packet2In : Bytes)
  | relayed (response : HttpResponse)
  | refused
  | undefined

namespace Reading

/-- `handle_read_for_direct_request`, and `handle_ssl_read_for_connect_request`. -/
def handleRead (packet2In piece : Bytes) : Reading :=
  HttpResponse.outcome (packet2In ++ piece) .relayed .undefined fun
    | .ag => .waiting (packet2In ++ piece)
    | .ng => .refused

/-- Only a session that waits reads on. -/
def read : Reading → Bytes → Reading
  | .waiting packet2In, piece => handleRead packet2In piece
  | reading, _ => reading

/-- What has come is read at once. -/
abbrev whole (packet : Bytes) : Reading := handleRead [] packet

theorem read_whole {packet piece : Bytes}
    (spared : HttpResponse.Bare packet → piece = []) :
    (whole packet).read piece = whole (packet ++ piece) := by
  obtain ⟨ok, error⟩ := HttpResponse.parseResponse_append spared
  have left : whole packet = handleRead [] packet := rfl
  unfold handleRead HttpResponse.outcome at left
  rw [List.nil_append] at left
  have right : whole (packet ++ piece) = handleRead [] (packet ++ piece) := rfl
  unfold handleRead HttpResponse.outcome at right
  rw [List.nil_append] at right
  rw [left, right]
  cases outcome : HttpResponse.parseResponse packet with
  | ok result =>
      obtain ⟨value, rest⟩ := result
      rw [ok value rest outcome]
      cases value <;> rfl
  | error stop =>
      cases stop with
      | ng =>
          rw [error .ng outcome (by decide)]
          rfl
      | ag => rfl

/-- Reads that do not end behind bare headers are as good as one read. -/
theorem foldl_read {packet : Bytes} {pieces : List Bytes}
    (spared : ∀ earlier later, pieces = earlier ++ later →
      HttpResponse.Bare (packet ++ earlier.flatten) → later.flatten = []) :
    pieces.foldl read (whole packet) = whole (packet ++ pieces.flatten) := by
  induction pieces generalizing packet with
  | nil => simp
  | cons piece pieces induction =>
      have first : HttpResponse.Bare packet → piece = [] := by
        intro bare
        have nothing := spared [] (piece :: pieces) rfl (by simpa using bare)
        exact (List.append_eq_nil_iff.mp nothing).1
      rw [List.foldl_cons, read_whole first, induction]
      · simp
      · intro earlier later cut bare
        refine spared (piece :: earlier) later (by rw [cut]; rfl) ?_
        simpa using bare

/-- A response that has been relayed stays. -/
theorem foldl_relayed (response : HttpResponse) (pieces : List Bytes) :
    pieces.foldl read (.relayed response) = .relayed response := by
  induction pieces with
  | nil => rfl
  | cons piece pieces induction => exact induction

/-- A read that ends behind bare headers makes a response of them. -/
theorem foldl_bare {earlier : List Bytes}
    (bare : HttpResponse.Bare earlier.flatten) :
    ∃ response, earlier.foldl read (.waiting []) = .relayed response := by
  have early : ∀ first later, earlier = first ++ later →
      HttpResponse.Bare ([] ++ first.flatten) → later.flatten = [] := by
    intro first later cut part
    by_contra some
    rw [cut, List.flatten_append] at bare
    obtain ⟨r, complete⟩ := part.outcome.1
    rw [List.nil_append, bare.of_part some] at complete
    cases complete
  have outcome := foldl_read early
  obtain ⟨r, complete⟩ := bare.outcome.1
  refine ⟨r, outcome.trans ?_⟩
  unfold whole handleRead HttpResponse.outcome
  rw [List.nil_append, List.nil_append, complete]

end Reading

/-- What `parse_response` returns or refuses, it returns or refuses with more
input behind it, unless it is bare headers; and a response is relayed, or
refused, in pieces as it is at once, unless a read ends behind bare headers
and others follow. -/
theorem response_outcome_is_final :
    (∀ packet more : Bytes,
      ((∀ r rest, HttpResponse.parseResponse packet = .ok (some r, rest) →
          ∃ left, HttpResponse.parseResponse (packet ++ more) = .ok (some r, left)) ∧
        (HttpResponse.parseResponse packet = .error .ng →
          HttpResponse.parseResponse (packet ++ more) = .error .ng)) ↔
      (HttpResponse.Bare packet → more = [])) ∧
    ∀ pieces : List Bytes,
      pieces.foldl Reading.read (.waiting []) = Reading.whole pieces.flatten ↔
      ∀ earlier later, pieces = earlier ++ later →
        HttpResponse.Bare earlier.flatten → later.flatten = [] := by
  refine ⟨fun packet more => ⟨?_, ?_⟩, fun pieces => ⟨?_, ?_⟩⟩
  · intro final bare
    by_contra some
    obtain ⟨r, complete⟩ := bare.outcome.1
    obtain ⟨left, longer⟩ := final.1 r [] complete
    rw [bare.outcome.2 more some] at longer
    cases longer
  · intro spared
    obtain ⟨ok, error⟩ := HttpResponse.parseResponse_append spared
    exact ⟨fun r rest returned => ⟨rest ++ more, ok _ rest returned⟩,
      fun stopped => error .ng stopped (by decide)⟩
  · intro same earlier later cut bare
    by_contra some
    obtain ⟨response, relayed⟩ := Reading.foldl_bare bare
    rw [cut, List.foldl_append, relayed, Reading.foldl_relayed,
      List.flatten_append] at same
    unfold Reading.whole Reading.handleRead HttpResponse.outcome at same
    rw [List.nil_append, bare.outcome.2 _ some] at same
    cases same
  · intro spared
    have early : ∀ earlier later, pieces = earlier ++ later →
        HttpResponse.Bare ([] ++ earlier.flatten) → later.flatten = [] :=
      spared
    exact Reading.foldl_read early

/-- Headers without a length are a response, and with one byte behind them
they are refused. -/
theorem bare_headers_come_apart :
    ¬ ∀ packet more : Bytes,
      (∀ r rest, HttpResponse.parseResponse packet = .ok (some r, rest) →
        ∃ left, HttpResponse.parseResponse (packet ++ more) =
          .ok (some r, left)) ∧
      (HttpResponse.parseResponse packet = .error .ng →
        HttpResponse.parseResponse (packet ++ more) = .error .ng) := by
  intro final
  obtain ⟨left, longer⟩ := (final (ascii "HTTP/1.1 200 OK\r\n\r\n")
    (ascii "x")).1
    { httpVersion := ascii "HTTP/1.1"
      statusCode := 200
      reasonPhrase := ascii "OK"
      headers := [(ascii "Content-Length", ascii "0")]
      body := [] } [] (by decide +kernel)
  have refused : HttpResponse.parseResponse
      (ascii "HTTP/1.1 200 OK\r\n\r\n" ++ ascii "x") = .error .ng := by
    decide +kernel
  rw [refused] at longer
  cases longer

end Universe.HttpProxy
