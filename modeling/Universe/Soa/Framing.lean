import Universe.Protocol.Delivery
import Universe.Soa

/-!
# Requests are read however they are cut

The packets of a client arrive in any pieces, and the last one may not be
whole.  `ON_REQUEST` is fired for those that are, in their order, each is
answered with its uuid, and the bytes of the last one wait.
-/

namespace Universe

open Incremental Protocol

/-- What can be seen of a SOA connection. -/
inductive SoaEffect where
  | fired (r : SoaRequest)
  | wrote (fd : Fd) (data : Bytes)
  | closed (fd : Fd)
  deriving DecidableEq

def SoaEffect.request? : SoaEffect → Option SoaRequest
  | .fired r => some r
  | _ => none

/-- What `ON_REQUEST` makes of a response, by the requests fired so far. -/
abbrev SoaHandler := List SoaRequest → SoaResponse → SoaResponse

abbrev SoaConnection := Connection SoaEffect Unit

namespace SoaConnection

def traits : Traits SoaEffect Unit where
  wrote := .wrote
  closed := .closed
  forget := id

/-- The requests fired so far. -/
def requests (trace : List SoaEffect) : List SoaRequest :=
  trace.filterMap SoaEffect.request?

def fire (handler : SoaHandler) (r : SoaRequest) (resp : SoaResponse) :
    Connection.M SoaEffect Unit SoaResponse :=
  modifyGet fun s =>
    (handler (requests s.trace ++ [r]) resp, s.record (.fired r))

/-- A client that has connected. -/
def connected : SoaConnection :=
  { trace := [], status := .opened, own := (), bufferable := ∅ }

section Sessions

variable (maxSize : Nat) (handler : SoaHandler) (client : Fd)

/-- One delivery to a client that is open. -/
def deliver (s : SoaConnection) (piece : Bytes) : SoaConnection :=
  Connection.deliver (Soa.onMessage (Connection.host traits client) (fire handler)
    maxSize client) s piece

/-- A request was read and answered. -/
def answered (s : SoaConnection) (r : SoaRequest) : SoaConnection :=
  { s with
    trace := s.trace ++ [.fired r, .wrote client
      (handler (requests s.trace ++ [r])
        { uuid := r.uuid, json := [] }).toBytes] }

theorem acts_answer :
    Connection.Acts (fun _ => True)
      (Soa.answer (Connection.host traits client) (fire handler) client)
      (answered handler client) := by
  constructor
  · intro s r _
    have same : (s.record (.fired r)).record (.wrote client
        (handler (requests s.trace ++ [r])
          { uuid := r.uuid, json := [] }).toBytes) =
        answered handler client s r := by
      simp [Connection.record, answered]
    rw [← same]
    rfl
  · intro s r _
    trivial
  · intro s bufferable _
    trivial
  · intro s r
    rfl
  · intro s bufferable r
    rfl

/-- The answer to the last of these requests. -/
def response (seen : List SoaRequest) (r : SoaRequest) : SoaResponse :=
  handler (seen ++ [r]) { uuid := r.uuid, json := [] }

/-- Everything that is seen of these requests after the others. -/
def exchange : (seen : List SoaRequest) → List SoaRequest → List SoaEffect
  | _, [] => []
  | seen, r :: later =>
      .fired r :: .wrote client
        (SoaRequest.toBytes r.uuid (response handler seen r).json) ::
        exchange (seen ++ [r]) later

variable {handler client}

/-- The requests are seen as a whole exchange. -/
theorem trace_answered
    (keeps : ∀ seen resp, (handler seen resp).uuid = resp.uuid)
    (later : List SoaRequest) (s : SoaConnection) :
    (later.foldl (answered handler client) s).trace =
      s.trace ++ exchange handler client (requests s.trace) later := by
  induction later generalizing s with
  | nil => simp [exchange]
  | cons r later induction =>
      have seen : requests (answered handler client s r).trace =
          requests s.trace ++ [r] := by
        simp [answered, requests, SoaEffect.request?]
      have written : (handler (requests s.trace ++ [r])
          { uuid := r.uuid, json := [] }).toBytes = SoaRequest.toBytes r.uuid
            (response handler (requests s.trace) r).json := by
        rw [SoaResponse.toBytes, keeps]
        rfl
      rw [List.foldl_cons, induction, seen]
      simp [answered, exchange, written]

end Sessions

end SoaConnection

open SoaConnection

/-- However the packets of a client are cut, every packet that has arrived as
a whole is fired once, in its order, and answered with its uuid and what the
handler has put into the response, and the bytes of the next one wait. -/
theorem soa_requests_framed {maxSize : Nat} (isSize : maxSize < 2 ^ 64)
    {handler : SoaHandler}
    (keeps : ∀ seen resp, (handler seen resp).uuid = resp.uuid) (client : Fd)
    {packets : List (GUID × Bytes)} {next : GUID × Bytes}
    (small : ∀ packet ∈ packets ++ [next], packet.2.length ≤ maxSize)
    {part : Bytes} (begins : part <+: SoaRequest.toBytes next.1 next.2)
    (incomplete : part ≠ SoaRequest.toBytes next.1 next.2)
    {pieces : List Bytes} (cut : pieces.flatten =
      packets.flatMap (fun packet => SoaRequest.toBytes packet.1 packet.2) ++
        part) :
    let s := pieces.foldl (deliver maxSize handler client) connected
    s.status = .opened ∧
    s.trace = exchange handler client []
      (packets.map fun packet => ⟨client, packet.1, packet.2⟩) ∧
    (s.bufferable[client]?).getD [] = part := by
  intro s
  have stable := Soa.stable_parseRequest maxSize client
  have empty : Soa.parseRequest maxSize client [] = .error .ag := rfl
  have ends : Soa.parseRequest maxSize client part = .error .ag :=
    stable.of_proper (Soa.parseRequest_toBytes isSize client next.1
      (small next (by simp))) begins incomplete
  have arrived : connected.remainder client ++ pieces.flatten =
      packets.flatMap (fun packet => SoaRequest.toBytes packet.1 packet.2) ++
        part := by
    rw [← cut]
    simp [Connection.remainder, connected]
  have idle : Soa.parseRequest maxSize client (connected.remainder client) =
      .error .ag := by
    simpa [Connection.remainder, connected] using empty
  have printed : ∀ packet ∈ packets, Soa.parseRequest maxSize client
      (SoaRequest.toBytes packet.1 packet.2) =
        .ok (some ⟨client, packet.1, packet.2⟩, []) := by
    intro packet member
    exact Soa.parseRequest_toBytes isSize client packet.1
      (small packet (by simp [member]))
  obtain ⟨bufferable, delivered, waits, _⟩ :=
    Connection.deliver_pieces stable empty (acts_answer handler client)
      trivial rfl idle arrived printed ends (fun _ _ _ => rfl)
  have same : s = _ := delivered
  rw [same]
  refine ⟨?_, ?_, waits⟩
  · exact (acts_answer handler client).status_all _ connected
  · exact trace_answered keeps _ connected

/-- The handler sends the JSON of every request back. -/
def SoaHandler.echo : SoaHandler := fun seen resp =>
  { resp with json := (seen.getLast?.map SoaRequest.json).getD [] }

/-- One packet and the first half of another, cut within the first. -/
theorem cut_packets_answered :
    let s := [(SoaRequest.toBytes (GUID.filled 7) (ascii "[1]")).take 20,
        (SoaRequest.toBytes (GUID.filled 7) (ascii "[1]")).drop 20 ++
          (SoaRequest.toBytes (GUID.filled 8) (ascii "[2]")).take 16].foldl
        (deliver (2 ^ 63) .echo 5) connected
    s.trace = [.fired ⟨5, GUID.filled 7, ascii "[1]"⟩,
        .wrote 5 (SoaRequest.toBytes (GUID.filled 7) (ascii "[1]"))] ∧
      (s.bufferable[(5 : Fd)]?).getD [] = (GUID.filled 8).bytes := by
  intro s
  have keeps : ∀ seen resp, (SoaHandler.echo seen resp).uuid = resp.uuid :=
    fun _ _ => rfl
  obtain ⟨_, trace, waits⟩ := soa_requests_framed
    (show 2 ^ 63 < 2 ^ 64 by decide) keeps 5
    (show ∀ packet ∈ [(GUID.filled 7, ascii "[1]")] ++
        [(GUID.filled 8, ascii "[2]")], packet.2.length ≤ 2 ^ 63 by decide)
    (List.take_prefix 16 (SoaRequest.toBytes (GUID.filled 8) (ascii "[2]")))
    (by decide +kernel)
    (show [(SoaRequest.toBytes (GUID.filled 7) (ascii "[1]")).take 20,
        (SoaRequest.toBytes (GUID.filled 7) (ascii "[1]")).drop 20 ++
          (SoaRequest.toBytes (GUID.filled 8) (ascii "[2]")).take 16].flatten = _
      by decide +kernel)
  refine ⟨trace.trans ?_, waits.trans ?_⟩
  · decide +kernel
  · decide +kernel

end Universe
