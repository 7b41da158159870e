import Universe.Http.Grammar
import Universe.Utils

/-!
# Forwarding a request

`forward_packet` prints a parsed request again for the provider of the
gateway: with another URI, without `Accept-Encoding`, and with the host of the
provider.
-/

namespace Universe

open Incremental

structure HttpProviderAddress where
  host : Bytes
  port : Int
  path : Bytes
  query : Bytes
  ssl : Bool := false
  deriving DecidableEq, Repr

namespace HttpToken

def host : Bytes := ascii "Host"

def acceptEncoding : Bytes := ascii "Accept-Encoding"

end HttpToken

namespace HttpRequest

variable (r : HttpRequest) (target : HttpProviderAddress)

/-- The query of the request and that of the target. -/
def mergedQuery : Option Bytes :=
  match (Utils.parseUrl r.uri).query with
  | some query => Utils.mergeUrlQuery query target.query
  | none => some target.query

/-- `request_uri`. -/
def forwardUri (query : Bytes) : Bytes :=
  if query.isEmpty then target.path else target.path ++ ascii "?" ++ query

/-- The headers that are printed, in their order. -/
def forwardHeaders : List (Bytes × Bytes) :=
  let kept :=
    (r.headers.filter fun header => header.1 != HttpToken.acceptEncoding).map
      fun header =>
        if header.1 = HttpToken.host then (HttpToken.host, target.host)
        else header
  if r.headers.any (·.1 == HttpToken.host) then kept
  else kept ++ [(HttpToken.host, target.host)]

/-- `forward_packet`. -/
def forwardPacket : Option Bytes := do
  let query ← r.mergedQuery target
  return r.method ++ ascii " " ++ forwardUri target query ++ ascii " " ++
    r.httpVersion ++ ascii "\r\n" ++
    ((r.forwardHeaders target).flatMap fun header =>
      header.1 ++ ascii ": " ++ header.2 ++ ascii "\r\n") ++
    ascii "\r\n" ++ r.body

end HttpRequest

namespace Headers

/-- The entries of a map come in the order of their keys. -/
def Ordered (headers : Headers) : Prop := OrderedMap.Ordered headers

end Headers

namespace Http

theorem ordered_foldl (lines : List (Bytes × Bytes)) {headers : Headers}
    (ordered : headers.Ordered) :
    (lines.foldl (fun headers line => Headers.set line.1 line.2 headers)
      headers : Headers).Ordered := by
  induction lines generalizing headers with
  | nil => exact ordered
  | cons line lines induction => exact induction (OrderedMap.ordered_assign ordered)

theorem ordered_collect (lines : List (Bytes × Bytes)) :
    Headers.Ordered (collect lines) :=
  ordered_foldl lines List.Pairwise.nil

/-- Reading an ordered map again gives the same map. -/
theorem collect_of_ordered {headers : Headers} (ordered : headers.Ordered) :
    collect headers = headers := by
  have general : ∀ later earlier : Headers,
      Headers.Ordered (earlier ++ later) →
      later.foldl (fun headers line => Headers.set line.1 line.2 headers)
        earlier = earlier ++ later := by
    intro later
    induction later with
    | nil => simp
    | cons header later induction =>
        intro earlier ordered
        have before : ∀ entry ∈ earlier, entry.1 < header.1 := by
          intro entry member
          exact (List.pairwise_append.mp ordered).2.2 entry member header
            List.mem_cons_self
        rw [List.foldl_cons, Headers.set, OrderedMap.assign_last before]
        rw [induction]
        · simp
        · simpa using ordered
  exact general headers [] ordered

theorem mem_collect {lines : List (Bytes × Bytes)} {header : Bytes × Bytes}
    (member : header ∈ collect lines) : header ∈ lines := by
  have general : ∀ (lines : List (Bytes × Bytes)) (headers : Headers),
      header ∈ lines.foldl
        (fun headers line => Headers.set line.1 line.2 headers) headers →
      header ∈ headers ∨ header ∈ lines := by
    intro lines
    induction lines with
    | nil => exact fun headers member => .inl member
    | cons line lines induction =>
        intro headers member
        rcases induction _ member with member | member
        · rcases OrderedMap.mem_assign member with rfl | member
          · exact .inr List.mem_cons_self
          · exact .inl member
        · exact .inr (List.mem_cons_of_mem _ member)
  rcases general lines [] member with member | member
  · cases member
  · exact member

end Http

namespace Headers

theorem find_filter {headers : Headers} {dropped name : Bytes}
    (different : name ≠ dropped) :
    Headers.find (headers.filter fun header => header.1 != dropped) name =
      headers.find name := by
  induction headers with
  | nil => rfl
  | cons header headers induction =>
      by_cases isDropped : header.1 = dropped
      · rw [List.filter_cons_of_neg (by simp [isDropped]), induction,
          find_cons, if_neg]
        rw [isDropped]
        exact Ne.symm different
      · rw [List.filter_cons_of_pos (by simp [isDropped]), find_cons,
          find_cons, induction]

end Headers

namespace HttpRequest

open Http

variable {r : HttpRequest} {target : HttpProviderAddress}

/-- What is printed is read as the headers of the request without
`Accept-Encoding` and with the host of the target. -/
theorem collect_forwardHeaders (ordered : r.headers.Ordered) :
    collect (r.forwardHeaders target) =
      Headers.set HttpToken.host target.host
        (r.headers.filter fun header =>
          header.1 != HttpToken.acceptEncoding) := by
  have kept : Headers.Ordered (r.headers.filter fun header =>
      header.1 != HttpToken.acceptEncoding) :=
    List.Pairwise.filter _ ordered
  unfold forwardHeaders
  dsimp only
  split
  · next hasHost =>
      obtain ⟨header, member, isHost⟩ := List.any_eq_true.mp hasHost
      have isHost : header.1 = HttpToken.host := by simpa using isHost
      have present : ∃ header ∈ r.headers.filter fun header =>
          header.1 != HttpToken.acceptEncoding,
          header.1 = HttpToken.host := by
        refine ⟨header, List.mem_filter.mpr ⟨member, ?_⟩, isHost⟩
        rw [isHost]
        decide
      have key : ∀ header : Bytes × Bytes,
          (if header.1 = HttpToken.host then (HttpToken.host, target.host)
            else header).1 = header.1 := by
        intro header
        split
        · next isHost => exact isHost.symm
        · rfl
      rw [Headers.set, OrderedMap.assign_present kept present]
      refine collect_of_ordered (List.pairwise_map.mpr (kept.imp ?_))
      intro first second less
      rw [key, key]
      exact less
  · next noHost =>
      have unchanged : (r.headers.filter fun header =>
          header.1 != HttpToken.acceptEncoding).map (fun header =>
            if header.1 = HttpToken.host then (HttpToken.host, target.host)
            else header) =
          r.headers.filter fun header =>
            header.1 != HttpToken.acceptEncoding := by
        refine (List.map_congr_left ?_).trans (List.map_id _)
        intro header member
        rw [if_neg]
        · rfl
        · intro isHost
          refine noHost (List.any_eq_true.mpr
            ⟨header, List.mem_of_mem_filter member, ?_⟩)
          simp [isHost]
      have last : ∀ lines : List (Bytes × Bytes),
          collect (lines ++ [(HttpToken.host, target.host)]) =
            (collect lines).set HttpToken.host target.host := by
        intro lines
        simp [collect]
      rw [unchanged, last, collect_of_ordered kept]

theorem mem_forwardHeaders {header : Bytes × Bytes}
    (member : header ∈ r.forwardHeaders target) :
    header = (HttpToken.host, target.host) ∨ header ∈ r.headers := by
  have kept : ∀ entry : Bytes × Bytes,
      entry ∈ (r.headers.filter fun header =>
        header.1 != HttpToken.acceptEncoding).map (fun header =>
          if header.1 = HttpToken.host then (HttpToken.host, target.host)
          else header) →
      entry = (HttpToken.host, target.host) ∨ entry ∈ r.headers := by
    intro entry member
    obtain ⟨old, present, rfl⟩ := List.mem_map.mp member
    split
    · exact .inl rfl
    · exact .inr (List.mem_of_mem_filter present)
  unfold forwardHeaders at member
  dsimp only at member
  split at member
  · exact kept header member
  · rcases List.mem_append.mp member with member | member
    · exact kept header member
    · exact .inl (List.mem_singleton.mp member)

/-- The bytes of the URI come from the request and from the target. -/
theorem forwardUri_only {allowed : UInt8 → Prop} {query : Bytes}
    (merged : r.mergedQuery target = some query)
    (uri : Utils.Only allowed r.uri) (path : Utils.Only allowed target.path)
    (targetQuery : Utils.Only allowed target.query) (mark : allowed 63)
    (equals : allowed 61) (ampersand : allowed 38) :
    Utils.Only allowed (forwardUri target query) := by
  have queryOnly : Utils.Only allowed query := by
    unfold mergedQuery at merged
    split at merged
    · next own found =>
        exact Utils.mergeUrlQuery_only merged (Utils.parseUrl_only found uri)
          targetQuery equals ampersand
    · cases merged
      exact targetQuery
  unfold forwardUri
  split
  · exact path
  · refine (path.append ?_).append queryOnly
    intro byte member
    rwa [List.mem_singleton.mp member]

theorem lineOk_host {host : Bytes} (noCr : 13 ∉ host) :
    LineOk HttpToken.host host :=
  ⟨by decide, by decide, by decide, noCr⟩

/-- The packet as the text of a request. -/
def forwardText (r : HttpRequest) (target : HttpProviderAddress)
    (query : Bytes) : RequestText :=
  { method := r.method
    beforeUri := ascii " "
    uri := forwardUri target query
    beforeVersion := ascii " "
    httpVersion := r.httpVersion
    lines := r.forwardHeaders target
    body := r.body }

theorem forwardPacket_eq_some {packet : Bytes}
    (sent : r.forwardPacket target = some packet) :
    ∃ query, r.mergedQuery target = some query ∧
      packet = (forwardText r target query).bytes := by
  obtain ⟨query, merged, returned⟩ := Option.bind_eq_some_iff.mp sent
  cases returned
  exact ⟨query, merged, rfl⟩

end HttpRequest

open Http HttpRequest

/-- Whatever was read and is forwarded is read by the provider as the same
request under the URI and the host of the target. -/
theorem forward_preserves_request {client provider : Fd} {input rest : Bytes}
    {r : HttpRequest} {target : HttpProviderAddress} {packet : Bytes}
    (parsed : parseRequest client input = .ok (r, rest))
    (path : target.path ≠ [] ∧ 32 ∉ target.path) (query : 32 ∉ target.query)
    (host : 13 ∉ target.host)
    (sent : r.forwardPacket target = some packet) :
    ∃ merged, r.mergedQuery target = some merged ∧
      ∀ more, parseRequest provider (packet ++ more) =
        .ok ({
          client := provider
          method := r.method
          uri := if merged = [] then target.path
            else target.path ++ ascii "?" ++ merged
          httpVersion := r.httpVersion
          headers := Headers.set HttpToken.host target.host
            (r.headers.filter fun header =>
              header.1 != HttpToken.acceptEncoding)
          body := r.body }, more) := by
  obtain ⟨text, valid, rfl, rfl⟩ := parseRequest_eq_ok.mp parsed
  obtain ⟨merged, isMerged, rfl⟩ := forwardPacket_eq_some sent
  have ordered : (text.request client).headers.Ordered :=
    ordered_collect text.lines
  have headers : collect ((text.request client).forwardHeaders target) = _ :=
    collect_forwardHeaders ordered
  have spaceFree : ∀ {bytes : Bytes}, 32 ∉ bytes → Utils.Only (· ≠ 32) bytes := by
    rintro bytes absent byte member rfl
    exact absent member
  have gap : ascii " " ≠ [] ∧ ∀ byte ∈ ascii " ", byte = 32 :=
    ⟨by decide, fun byte => List.mem_singleton.mp⟩
  refine ⟨merged, isMerged, fun more => parseRequest_eq_ok.mpr
    ⟨forwardText (text.request client) target merged, ?_, rfl, ?_⟩⟩
  · constructor
    · exact valid.method
    · exact gap
    · refine ⟨?_, ?_⟩
      · change forwardUri target merged ≠ []
        unfold forwardUri
        split
        · exact path.1
        · simp [path.1]
      · intro member
        exact forwardUri_only isMerged (spaceFree valid.uri.2)
          (spaceFree path.2) (spaceFree query) (by decide) (by decide)
          (by decide) 32 member rfl
    · exact gap
    · exact valid.httpVersion
    · intro line member
      rcases mem_forwardHeaders member with rfl | member
      · exact lineOk_host host
      · exact valid.lines line (mem_collect member)
    · change text.body.length =
        (announced (collect ((text.request client).forwardHeaders target))).toNat
      have same : announced
          (collect ((text.request client).forwardHeaders target)) =
            announced (collect text.lines) := by
        rw [headers]
        unfold announced
        rw [Headers.find_set, if_neg (by decide),
          Headers.find_filter (by decide)]
        rfl
      rw [same]
      exact valid.body
  · change _ = ({
      client := provider
      method := text.method
      uri := forwardUri target merged
      httpVersion := text.httpVersion
      headers := collect ((text.request client).forwardHeaders target)
      body := text.body } : HttpRequest)
    rw [headers]
    simp only [forwardUri, List.isEmpty_iff]
    rfl

theorem forwarded_with_merged_query :
    ∃ r packet merged,
      parseRequest 5 (ascii
        "GET /a?x=1 HTTP/1.1\r\nAccept-Encoding: gzip\r\nHost: a\r\n\r\n") =
          .ok (r, []) ∧
      r.forwardPacket ⟨ascii "h", 80, ascii "/b", ascii "y=2", false⟩ =
        some packet ∧
      ∀ more, parseRequest 6 (packet ++ more) =
        .ok (⟨6, ascii "GET",
          if merged = [] then ascii "/b" else ascii "/b" ++ ascii "?" ++ merged,
          ascii "HTTP/1.1", [(ascii "Host", ascii "h")], []⟩, more) := by
  have parsed : parseRequest 5 (ascii
      "GET /a?x=1 HTTP/1.1\r\nAccept-Encoding: gzip\r\nHost: a\r\n\r\n") =
        .ok (⟨5, ascii "GET", ascii "/a?x=1", ascii "HTTP/1.1",
          [(ascii "Accept-Encoding", ascii "gzip"), (ascii "Host", ascii "a")],
          []⟩, []) := by
    decide +kernel
  have sent : HttpRequest.forwardPacket
      ⟨5, ascii "GET", ascii "/a?x=1", ascii "HTTP/1.1",
        [(ascii "Accept-Encoding", ascii "gzip"), (ascii "Host", ascii "a")], []⟩
      ⟨ascii "h", 80, ascii "/b", ascii "y=2", false⟩ =
        some (ascii "GET /b?x=1&y=2 HTTP/1.1\r\nHost: h\r\n\r\n") := by
    decide +kernel
  obtain ⟨merged, -, read⟩ := forward_preserves_request parsed
    (by decide) (by decide) (by decide) sent
  exact ⟨_, _, merged, parsed, sent, read⟩

end Universe
