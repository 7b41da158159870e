import Universe.Http.Forwarding
import Universe.HttpProxy

/-!
# Requests that are forwarded

`forward_proxy_packet` prints what `parse_request` returned, and the origin
server reads the same request without the headers that stay with the proxy.
-/

namespace Universe.HttpProxy

open Incremental StreamReader

namespace HttpRequest

/-- A request without the descriptor the framework keeps with it. -/
def ofText (text : Http.RequestText) : HttpRequest :=
  { method := text.method
    uri := text.uri
    httpVersion := text.httpVersion
    headers := Http.collect text.lines
    body := text.body }

/-- The loops and the order of the reads are those of the framework. -/
theorem read_eq :
    read = (do
      let r ← Http.parseRequest 0
      return {
        method := r.method
        uri := r.uri
        httpVersion := r.httpVersion
        headers := r.headers
        body := r.body }) := by
  unfold read Http.parseRequest
  simp only [bind_assoc, pure_bind]

/-- `parse_request` returns a request exactly for a valid text. -/
theorem read_eq_ok {input rest : Bytes} {r : HttpRequest} :
    read input = .ok (r, rest) ↔
      ∃ text : Http.RequestText, text.Valid ∧ input = text.bytes ++ rest ∧
        r = ofText text := by
  rw [read_eq, bind_eq_ok]
  constructor
  · rintro ⟨other, between, parsed, returned⟩
    obtain ⟨text, valid, whole, rfl⟩ := Http.parseRequest_eq_ok.mp parsed
    obtain ⟨rfl, rfl⟩ := pure_eq_ok.mp returned
    exact ⟨text, valid, whole, rfl⟩
  · rintro ⟨text, valid, whole, rfl⟩
    exact ⟨text.request 0, rest,
      Http.parseRequest_eq_ok.mpr ⟨text, valid, whole, rfl⟩,
      pure_eq_ok.mpr ⟨rfl, rfl⟩⟩

/-- The headers that are forwarded. -/
def forwarded (headers : Headers) : Headers :=
  headers.filter fun header => !withheld.contains header.1

/-- The packet as the text of a request. -/
def forwardText (r : HttpRequest) : Http.RequestText :=
  { method := r.method
    beforeUri := ascii " "
    uri := r.uri
    beforeVersion := ascii " "
    httpVersion := r.httpVersion
    lines := forwarded r.headers
    body := r.body }

theorem forwardProxyPacket_eq (r : HttpRequest) :
    r.forwardProxyPacket = r.forwardText.bytes := by
  have shown : ∀ headers : Headers,
      (headers.flatMap fun header =>
        if (!false && withheld.contains header.1) = true then []
        else header.1 ++ ascii ": " ++ header.2 ++ ascii "\r\n") =
      Http.linesText (forwarded headers) := by
    intro headers
    induction headers with
    | nil => rfl
    | cons header headers induction =>
        obtain ⟨name, value⟩ := header
        rw [List.flatMap_cons, induction]
        by_cases kept : name ∈ withheld
        · simp [forwarded, kept]
        · simp [forwarded, kept, Http.linesText, Http.lineText]
  have written : r.forwardProxyPacket =
      r.method ++ ascii " " ++ r.uri ++ ascii " " ++ r.httpVersion ++
        ascii "\r\n" ++
        (r.headers.flatMap fun header =>
          if (!false && withheld.contains header.1) = true then []
          else header.1 ++ ascii ": " ++ header.2 ++ ascii "\r\n") ++
        ascii "\r\n" ++ r.body := rfl
  rw [written, shown]
  rfl

theorem find_forwarded (headers : Headers) :
    Headers.find (forwarded headers) HttpToken.contentLength =
      headers.find HttpToken.contentLength := by
  induction headers with
  | nil => rfl
  | cons header headers induction =>
      unfold forwarded
      by_cases kept : header.1 ∈ withheld
      · have other : header.1 ≠ HttpToken.contentLength := by
          intro same
          rw [same] at kept
          revert kept
          decide
        rw [List.filter_cons_of_neg (by simp [kept]), Headers.find_cons,
          if_neg other]
        exact induction
      · rw [List.filter_cons_of_pos (by simp [kept]), Headers.find_cons,
          Headers.find_cons]
        split
        · rfl
        · exact induction

end HttpRequest

/-- What was read is a text again when it is printed. -/
theorem HttpRequest.valid_forwardText {text : Http.RequestText}
    (valid : text.Valid) : (ofText text).forwardText.Valid := by
  have ordered : Headers.Ordered (forwarded (Http.collect text.lines)) :=
    List.Pairwise.filter _ (Http.ordered_collect text.lines)
  have gap : ascii " " ≠ [] ∧ ∀ byte ∈ ascii " ", byte = 32 :=
    ⟨by decide, fun byte => List.mem_singleton.mp⟩
  refine ⟨valid.method, gap, valid.uri, gap, valid.httpVersion, ?_, ?_⟩
  · intro line member
    exact valid.lines line (Http.mem_collect (List.mem_of_mem_filter member))
  · have announced : Http.announced
        (Http.collect (forwarded (Http.collect text.lines))) =
          Http.announced (Http.collect text.lines) := by
      unfold Http.announced
      rw [Http.collect_of_ordered ordered, find_forwarded]
    change text.body.length = (Http.announced
      (Http.collect (forwarded (Http.collect text.lines)))).toNat
    rw [announced]
    exact valid.body

/-- The packet that is forwarded is read again as the request, without the
headers that stay with the proxy, and to its last byte. -/
theorem forwarding_preserves_request {packet : Bytes} {skip length : Nat}
    {r : HttpRequest}
    (parsed : HttpRequest.parseRequest packet skip = .ok (r, length))
    (more : Bytes) :
    HttpRequest.parseRequest (r.forwardProxyPacket ++ more) =
      .ok ({ r with headers := r.headers.filter fun header =>
          header.1 ≠ ascii "Accept-Encoding" ∧
            header.1 ≠ ascii "Proxy-Authorization" ∧
            header.1 ≠ ascii "Proxy-Connection" },
        r.forwardProxyPacket.length) := by
  unfold HttpRequest.parseRequest at parsed
  split at parsed
  · next request rest read =>
      cases parsed
      obtain ⟨text, valid, -, rfl⟩ := HttpRequest.read_eq_ok.mp read
      have again : HttpRequest.read
          ((HttpRequest.ofText text).forwardProxyPacket ++ more) =
          .ok (HttpRequest.ofText (HttpRequest.ofText text).forwardText,
            more) := by
        rw [HttpRequest.forwardProxyPacket_eq]
        exact HttpRequest.read_eq_ok.mpr
          ⟨_, HttpRequest.valid_forwardText valid, rfl, rfl⟩
      have ordered : Headers.Ordered
          (HttpRequest.forwarded (Http.collect text.lines)) :=
        List.Pairwise.filter _ (Http.ordered_collect text.lines)
      have headers : Http.collect
          (HttpRequest.forwarded (Http.collect text.lines)) =
          (Http.collect text.lines).filter fun header =>
            header.1 ≠ ascii "Accept-Encoding" ∧
              header.1 ≠ ascii "Proxy-Authorization" ∧
              header.1 ≠ ascii "Proxy-Connection" := by
        rw [Http.collect_of_ordered ordered]
        refine List.filter_congr ?_
        intro header _
        simp [HttpRequest.withheld]
      have counted : (HttpRequest.ofText text).forwardProxyPacket.length +
          more.length - more.length =
            (HttpRequest.ofText text).forwardProxyPacket.length :=
        Nat.add_sub_cancel _ _
      unfold HttpRequest.parseRequest
      rw [List.drop_zero, again, List.length_append]
      dsimp only
      rw [counted]
      exact congrArg (fun headers => Except.ok (({
        method := text.method
        uri := text.uri
        httpVersion := text.httpVersion
        headers := headers
        body := text.body } : HttpRequest), _)) headers
  · cases parsed

theorem forwarding_preserves_request_sample :
    HttpRequest.parseRequest
      ((⟨ascii "GET", ascii "/", ascii "HTTP/1.1",
        [(ascii "Host", ascii "a"), (ascii "Proxy-Connection", ascii "close")],
        []⟩ : HttpRequest).forwardProxyPacket ++ ascii "GET") =
      .ok (⟨ascii "GET", ascii "/", ascii "HTTP/1.1",
        [(ascii "Host", ascii "a")], []⟩, 27) := by
  have parsed : HttpRequest.parseRequest
      (ascii "GET / HTTP/1.1\r\nProxy-Connection: close\r\nHost: a\r\n\r\n") =
      .ok (⟨ascii "GET", ascii "/", ascii "HTTP/1.1",
        [(ascii "Host", ascii "a"), (ascii "Proxy-Connection", ascii "close")],
        []⟩, 52) := by
    decide +kernel
  exact (forwarding_preserves_request parsed (ascii "GET")).trans
    (by decide +kernel)

end Universe.HttpProxy
