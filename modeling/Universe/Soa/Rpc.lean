import Mathlib.Data.List.Nodup
import Universe.Soa.Correlation
import Universe.Soa.Framing

/-!
# A client and a server of the SOA protocol

Two ends exchange packets over one connection, which may deliver any part of
what is under way at any time.  The server answers calls and pushes packets of
its own in between.
-/

namespace Universe

open Incremental Protocol

/-- A call of `cmd` with a callback: the uuid that `request_packet` has made,
the JSON, and the callback that `add_callback` keeps. -/
structure SoaCall (κ : Type) where
  uuid : GUID
  json : Bytes
  callback : κ

def SoaCall.toBytes {κ : Type} (call : SoaCall κ) : Bytes :=
  SoaRequest.toBytes call.uuid call.json

/-- The two ends, the bytes under way between them, and what has been asked of
them. -/
structure SoaRpc (κ : Type) where
  client : SoaClient.Connection κ
  server : SoaConnection
  toServer : Bytes
  toClient : Bytes
  calls : List (SoaCall κ)
  pushes : List SoaResponse

namespace SoaRpc

variable {κ : Type}

/-- The bytes the server has written. -/
def written (trace : List SoaEffect) : Bytes :=
  trace.flatMap fun
    | .wrote _ data => data
    | _ => []

/-- The client has the push callback, and nothing has been said. -/
def start (push : Option κ) : SoaRpc κ where
  client := { trace := [], status := .opened, own := ⟨∅, push⟩, bufferable := ∅ }
  server := SoaConnection.connected
  toServer := []
  toClient := []
  calls := []
  pushes := []

section Steps

variable (maxSize : Nat) (handler : SoaHandler) (fd peer : Fd)

/-- `cmd` with a callback; all bytes of the packet are taken. -/
def call (s : SoaRpc κ) (new : SoaCall κ) : SoaRpc κ :=
  { s with
    client := { s.client with
      own := { s.client.own with
        callbacks := s.client.own.callbacks.addCallback new.uuid fd
          new.callback } }
    toServer := s.toServer ++ new.toBytes
    calls := s.calls ++ [new] }

/-- The server writes a packet nobody has asked for. -/
def push (s : SoaRpc κ) (packet : SoaResponse) : SoaRpc κ :=
  { s with
    toClient := s.toClient ++ packet.toBytes
    pushes := s.pushes ++ [packet] }

/-- The server reads these bytes. -/
def request (s : SoaRpc κ) (piece rest : Bytes) : SoaRpc κ :=
  let server := SoaConnection.deliver maxSize handler peer s.server piece
  { s with
    server
    toServer := rest
    toClient := s.toClient ++
      written (server.trace.drop s.server.trace.length) }

/-- The client reads these bytes. -/
def response (s : SoaRpc κ) (piece rest : Bytes) : SoaRpc κ :=
  { s with
    client := SoaClient.deliver maxSize fd s.client piece
    toClient := rest }

/-- `uuid_generate` makes a uuid that is nowhere in use, and packets fit into a
string. -/
inductive Step : SoaRpc κ → SoaRpc κ → Prop where
  | call {s : SoaRpc κ} (new : SoaCall κ) (small : new.json.length ≤ maxSize)
      (fresh : new.uuid ∉ s.calls.map SoaCall.uuid)
      (unpushed : new.uuid ∉ s.pushes.map SoaResponse.uuid) :
      Step s (s.call fd new)
  | push {s : SoaRpc κ} (packet : SoaResponse)
      (small : packet.json.length ≤ maxSize)
      (uncalled : packet.uuid ∉ s.calls.map SoaCall.uuid) :
      Step s (s.push packet)
  | request {s : SoaRpc κ} {piece rest : Bytes}
      (under : s.toServer = piece ++ rest) :
      Step s (s.request maxSize handler peer piece rest)
  | response {s : SoaRpc κ} {piece rest : Bytes}
      (under : s.toClient = piece ++ rest) :
      Step s (s.response maxSize fd piece rest)

inductive Run (push : Option κ) : SoaRpc κ → Prop where
  | start : Run push (start push)
  | step {s after : SoaRpc κ} (run : Run push s)
      (step : Step maxSize handler fd peer s after) : Run push after

end Steps

/-- The callback of the call with this uuid. -/
def named (calls : List (SoaCall κ)) (uuid : GUID) : Option κ :=
  (calls.find? fun call => call.uuid = uuid).map SoaCall.callback

/-- The call as the server sees it. -/
def asked (peer : Fd) (call : SoaCall κ) : SoaRequest :=
  ⟨peer, call.uuid, call.json⟩

/-- The answers to requests, after others. -/
def replies (handler : SoaHandler) : (seen : List SoaRequest) →
    List SoaRequest → List SoaResponse
  | _, [] => []
  | seen, r :: later =>
      ⟨r.uuid, (SoaConnection.response handler seen r).json⟩ ::
        replies handler (seen ++ [r]) later

/-- Whether a packet answers one of these calls. -/
def isAnswer (calls : List (SoaCall κ)) (packet : SoaResponse) : Bool :=
  decide (packet.uuid ∈ calls.map SoaCall.uuid)

section Facts

variable {handler : SoaHandler} {fd peer : Fd} {maxSize : Nat}
  {calls : List (SoaCall κ)} {new : SoaCall κ} {packet : SoaResponse}

theorem named_eq_none {uuid : GUID}
    (unknown : uuid ∉ calls.map SoaCall.uuid) : named calls uuid = none := by
  unfold named
  rw [Option.map_eq_none_iff, List.find?_eq_none]
  intro call member same
  apply unknown
  exact List.mem_map.mpr ⟨call, member, of_decide_eq_true same⟩

theorem named_isSome {uuid : GUID} (isSome : (named calls uuid).isSome) :
    uuid ∈ calls.map SoaCall.uuid := by
  by_contra unknown
  rw [named_eq_none unknown] at isSome
  cases isSome

theorem named_append (fresh : new.uuid ∉ calls.map SoaCall.uuid) (uuid : GUID) :
    named (calls ++ [new]) uuid =
      if new.uuid = uuid then some new.callback else named calls uuid := by
  by_cases same : new.uuid = uuid
  · have before : calls.find? (fun call => call.uuid = uuid) = none := by
      rw [List.find?_eq_none]
      intro call member found
      apply fresh
      exact List.mem_map.mpr ⟨call, member,
        (of_decide_eq_true found).trans same.symm⟩
    unfold named
    rw [List.find?_append, before]
    simp [same]
  · unfold named
    rw [List.find?_append, if_neg same]
    simp [same]

theorem answers_append (other : new.uuid ≠ packet.uuid) :
    isAnswer (calls ++ [new]) packet = isAnswer calls packet := by
  unfold isAnswer
  simp [other.symm]

theorem replies_append (seen first second : List SoaRequest) :
    replies handler seen (first ++ second) =
      replies handler seen first ++ replies handler (seen ++ first) second := by
  induction first generalizing seen with
  | nil => simp [replies]
  | cons r first induction => simp [replies, induction]

theorem uuids_replies (handler : SoaHandler) (seen rs : List SoaRequest) :
    (replies handler seen rs).map SoaResponse.uuid = rs.map SoaRequest.uuid := by
  induction rs generalizing seen with
  | nil => rfl
  | cons r rs induction => simp [replies, induction]

theorem uuids_asked (calls : List (SoaCall κ)) :
    (calls.map (asked peer)).map SoaRequest.uuid = calls.map SoaCall.uuid := by
  rw [List.map_map]
  rfl

/-- The server writes its answers. -/
theorem written_exchange (seen rs : List SoaRequest) :
    written (SoaConnection.exchange handler peer seen rs) =
      (replies handler seen rs).flatMap SoaResponse.toBytes := by
  induction rs generalizing seen with
  | nil => rfl
  | cons r rs induction =>
      unfold written at induction ⊢
      simp only [SoaConnection.exchange, replies, List.flatMap_cons, induction,
        List.nil_append]
      rfl

theorem requests_exchange (seen rs : List SoaRequest) :
    SoaConnection.requests (SoaConnection.exchange handler peer seen rs) = rs := by
  induction rs generalizing seen with
  | nil => rfl
  | cons r rs induction => exact congrArg (r :: ·) (induction (seen ++ [r]))

theorem small_replies
    (fits : ∀ seen resp, (handler seen resp).json.length ≤ maxSize)
    (seen rs : List SoaRequest) :
    ∀ packet ∈ replies handler seen rs, packet.json.length ≤ maxSize := by
  induction rs generalizing seen with
  | nil =>
      intro packet member
      cases member
  | cons r rs induction =>
      intro packet member
      rcases List.mem_cons.mp member with rfl | member
      · exact fits _ _
      · exact induction _ packet member

end Facts

/-- Where the calls and the packets are: the server has handled some calls and
the others are on their way to it; some packets have arrived at the client and
the others are on their way. -/
structure Consistent (maxSize : Nat) (handler : SoaHandler) (fd peer : Fd)
    (push : Option κ) (s : SoaRpc κ) (handled later : List (SoaCall κ))
    (arrived flying : List SoaResponse) : Prop where
  calls : s.calls = handled ++ later
  distinct : (s.calls.map SoaCall.uuid).Nodup
  smallCalls : ∀ call ∈ s.calls, call.json.length ≤ maxSize
  smallPackets : ∀ packet ∈ flying, packet.json.length ≤ maxSize
  serverOpen : s.server.status = .opened
  toServer : s.server.remainder peer ++ s.toServer =
    later.flatMap SoaCall.toBytes
  serverIdle : Soa.parseRequest maxSize peer (s.server.remainder peer) =
    .error .ag
  fired : SoaConnection.requests s.server.trace = handled.map (asked peer)
  replied : (arrived ++ flying).filter (isAnswer s.calls) =
    replies handler [] (handled.map (asked peer))
  pushed : ((arrived ++ flying).filter fun packet => !isAnswer s.calls packet) =
    s.pushes
  clientOpen : s.client.status = .opened
  toClient : s.client.remainder fd ++ s.toClient =
    flying.flatMap SoaResponse.toBytes
  clientIdle : SoaClient.parseResponse maxSize (s.client.remainder fd) =
    .error .ag
  pushCallback : s.client.own.push = push
  callbacks : ∀ uuid, s.client.own.callbacks.find fd uuid =
    if uuid ∈ arrived.map SoaResponse.uuid then none else named s.calls uuid
  seen : s.client.trace = arrived.flatMap fun packet =>
    SoaClient.reaction ((named s.calls packet.uuid).or push) packet

section Runs

variable {maxSize : Nat} {handler : SoaHandler} {fd peer : Fd}
  {push : Option κ} {s after : SoaRpc κ} {handled later : List (SoaCall κ)}
  {arrived flying : List SoaResponse} {packet : SoaResponse}

theorem consistent_start (push : Option κ) :
    Consistent maxSize handler fd peer push (start push) [] [] [] [] := by
  constructor <;> try rfl
  · exact List.nodup_nil
  · intro call member
    cases member
  · intro packet member
    cases member
  · intro uuid
    simp [start, SoaCallbacks.find, named]

/-- A packet answers a call or is pushed. -/
theorem Consistent.origin
    (consistent : Consistent maxSize handler fd peer push s handled later
      arrived flying) (member : packet ∈ arrived ++ flying) :
    packet.uuid ∈ s.calls.map SoaCall.uuid ∨
      packet.uuid ∈ s.pushes.map SoaResponse.uuid := by
  by_cases answers : isAnswer s.calls packet = true
  · exact .inl (of_decide_eq_true answers)
  · right
    apply List.mem_map_of_mem
    rw [← consistent.pushed]
    exact List.mem_filter.mpr ⟨member, by simpa using answers⟩

theorem Consistent.after_call
    (consistent : Consistent maxSize handler fd peer push s handled later
      arrived flying) {new : SoaCall κ} (small : new.json.length ≤ maxSize)
    (fresh : new.uuid ∉ s.calls.map SoaCall.uuid)
    (unpushed : new.uuid ∉ s.pushes.map SoaResponse.uuid) :
    Consistent maxSize handler fd peer push (s.call fd new) handled
      (later ++ [new]) arrived flying := by
  have other : ∀ packet ∈ arrived ++ flying, new.uuid ≠ packet.uuid := by
    intro packet member same
    rcases consistent.origin member with isCalled | isPushed
    · exact fresh (same ▸ isCalled)
    · exact unpushed (same ▸ isPushed)
  have same : ∀ packet ∈ arrived ++ flying,
      isAnswer (s.calls ++ [new]) packet = isAnswer s.calls packet :=
    fun packet member => answers_append (other packet member)
  have unarrived : new.uuid ∉ arrived.map SoaResponse.uuid := by
    intro member
    obtain ⟨packet, inside, same⟩ := List.mem_map.mp member
    exact other packet (List.mem_append_left _ inside) same.symm
  refine { consistent with
    calls := ?_, distinct := ?_, smallCalls := ?_, toServer := ?_,
    replied := ?_, pushed := ?_, callbacks := ?_, seen := ?_ }
  · simp [call, consistent.calls]
  · change ((s.calls ++ [new]).map SoaCall.uuid).Nodup
    rw [List.map_append]
    refine List.nodup_append.mpr ⟨consistent.distinct, by simp, ?_⟩
    intro uuid member only isNew same
    rw [same, List.mem_singleton.mp isNew] at member
    exact fresh member
  · exact List.forall_mem_append.mpr ⟨consistent.smallCalls, by simpa using small⟩
  · change s.server.remainder peer ++ (s.toServer ++ new.toBytes) = _
    rw [← List.append_assoc, consistent.toServer]
    simp
  · rw [← consistent.replied]
    exact List.filter_congr same
  · refine Eq.trans ?_ consistent.pushed
    apply List.filter_congr
    intro packet member
    exact congrArg not (same packet member)
  · intro uuid
    change (s.client.own.callbacks.addCallback new.uuid fd new.callback).find
      fd uuid = if uuid ∈ arrived.map SoaResponse.uuid then none
        else named (s.calls ++ [new]) uuid
    rw [SoaCallbacks.find_addCallback, consistent.callbacks, named_append fresh]
    by_cases isNew : new.uuid = uuid
    · subst isNew
      rw [if_pos rfl, if_neg unarrived, if_pos rfl]
    · rw [if_neg isNew, if_neg isNew]
  · refine consistent.seen.trans ?_
    apply List.flatMap_congr
    intro packet member
    have old : named (s.calls ++ [new]) packet.uuid =
        named s.calls packet.uuid := by
      rw [named_append fresh,
        if_neg (other packet (List.mem_append_left _ member))]
    change _ = SoaClient.reaction ((named (s.calls ++ [new]) packet.uuid).or
      push) packet
    rw [old]

theorem Consistent.after_push
    (consistent : Consistent maxSize handler fd peer push s handled later
      arrived flying) (small : packet.json.length ≤ maxSize)
    (uncalled : packet.uuid ∉ s.calls.map SoaCall.uuid) :
    Consistent maxSize handler fd peer push (s.push packet) handled later
      arrived (flying ++ [packet]) := by
  have stranger : isAnswer s.calls packet = false := decide_eq_false uncalled
  refine { consistent with
    smallPackets := ?_, replied := ?_, pushed := ?_, toClient := ?_ }
  · exact List.forall_mem_append.mpr
      ⟨consistent.smallPackets, by simpa using small⟩
  · change (arrived ++ (flying ++ [packet])).filter (isAnswer s.calls) = _
    rw [← consistent.replied, ← List.append_assoc, List.filter_append]
    simp [stranger]
  · change (arrived ++ (flying ++ [packet])).filter
      (fun packet => !isAnswer s.calls packet) = s.pushes ++ [packet]
    rw [← consistent.pushed, ← List.append_assoc, List.filter_append]
    simp [stranger]
  · change s.client.remainder fd ++ (s.toClient ++ packet.toBytes) = _
    rw [← List.append_assoc, consistent.toClient]
    simp

/-- The server handles the calls that have come whole. -/
theorem Consistent.after_request (isSize : maxSize < 2 ^ 64)
    (keeps : ∀ seen resp, (handler seen resp).uuid = resp.uuid)
    (fits : ∀ seen resp, (handler seen resp).json.length ≤ maxSize)
    (consistent : Consistent maxSize handler fd peer push s handled later
      arrived flying) {piece rest : Bytes} (under : s.toServer = piece ++ rest) :
    ∃ handled later flying, Consistent maxSize handler fd peer push
      (s.request maxSize handler peer piece rest) handled later arrived
        flying := by
  have stream : s.server.remainder peer ++ (piece ++ rest) =
      later.flatMap SoaCall.toBytes := by
    rw [← under]
    exact consistent.toServer
  have printed : ∀ call ∈ later,
      Soa.parseRequest maxSize peer call.toBytes =
        .ok (some (asked peer call), []) := by
    intro call member
    apply Soa.parseRequest_toBytes isSize
    apply consistent.smallCalls
    rw [consistent.calls]
    exact List.mem_append_right _ member
  have next : ∃ done left bufferable, later = done ++ left ∧
      SoaConnection.deliver maxSize handler peer s.server piece =
        ((done.map (asked peer)).foldl (SoaConnection.answered handler peer)
          s.server).keeping bufferable ∧
      Soa.parseRequest maxSize peer ((bufferable[peer]?).getD []) =
        .error .ag ∧
      (bufferable[peer]?).getD [] ++ rest = left.flatMap SoaCall.toBytes :=
    Connection.deliver_next (Soa.stable_parseRequest maxSize peer) rfl
      (SoaConnection.acts_answer handler peer) trivial consistent.serverOpen
      stream printed
  obtain ⟨done, left, bufferable, rfl, delivered, idle, follows⟩ := next
  have trace : (SoaConnection.deliver maxSize handler peer s.server
      piece).trace = s.server.trace ++ SoaConnection.exchange handler peer
        (handled.map (asked peer)) (done.map (asked peer)) := by
    rw [delivered, ← consistent.fired]
    exact SoaConnection.trace_answered keeps _ _
  refine ⟨handled ++ done, left, flying ++ replies handler
    (handled.map (asked peer)) (done.map (asked peer)), ?_⟩
  have answers : ∀ packet ∈ replies handler (handled.map (asked peer))
      (done.map (asked peer)), isAnswer s.calls packet = true := by
    intro packet member
    have uuid : packet.uuid ∈ done.map SoaCall.uuid := by
      rw [← uuids_asked, ← uuids_replies handler (handled.map (asked peer))]
      exact List.mem_map_of_mem member
    apply decide_eq_true
    rw [consistent.calls]
    simp only [List.map_append, List.mem_append]
    exact .inr (.inl uuid)
  refine { consistent with
    calls := ?_, smallPackets := ?_, serverOpen := ?_, toServer := ?_,
    serverIdle := ?_, fired := ?_, replied := ?_, pushed := ?_, toClient := ?_ }
  · rw [List.append_assoc]
    exact consistent.calls
  · exact List.forall_mem_append.mpr ⟨consistent.smallPackets,
      small_replies fits _ _⟩
  · change (SoaConnection.deliver maxSize handler peer s.server piece).status = _
    rw [delivered]
    exact ((SoaConnection.acts_answer handler peer).status_all _ _).trans
      consistent.serverOpen
  · change (SoaConnection.deliver maxSize handler peer s.server
      piece).remainder peer ++ rest = _
    rw [delivered]
    exact follows
  · change Soa.parseRequest maxSize peer ((SoaConnection.deliver maxSize handler
      peer s.server piece).remainder peer) = _
    rw [delivered]
    exact idle
  · change SoaConnection.requests (SoaConnection.deliver maxSize handler peer
      s.server piece).trace = _
    have before := consistent.fired
    have now : SoaConnection.requests (SoaConnection.exchange handler peer
        (handled.map (asked peer)) (done.map (asked peer))) =
          done.map (asked peer) :=
      requests_exchange _ _
    unfold SoaConnection.requests at before now ⊢
    rw [trace, List.filterMap_append, before, now, List.map_append]
  · change (arrived ++ (flying ++ _)).filter (isAnswer s.calls) = _
    rw [← List.append_assoc, List.filter_append, consistent.replied,
      List.filter_eq_self.mpr answers, List.map_append, replies_append,
      List.nil_append]
  · change (arrived ++ (flying ++ _)).filter
      (fun packet => !isAnswer s.calls packet) = s.pushes
    have none : (replies handler (handled.map (asked peer))
        (done.map (asked peer))).filter
          (fun packet => !isAnswer s.calls packet) = [] := by
      rw [List.filter_eq_nil_iff]
      intro packet member
      simp [answers packet member]
    rw [← List.append_assoc, List.filter_append, none, List.append_nil]
    exact consistent.pushed
  · change s.client.remainder fd ++ (s.toClient ++ written ((SoaConnection.deliver
      maxSize handler peer s.server piece).trace.drop s.server.trace.length)) = _
    rw [← List.append_assoc, consistent.toClient, trace, List.drop_left,
      written_exchange, List.flatMap_append]

/-- A call is answered once. -/
theorem Consistent.count_le
    (consistent : Consistent maxSize handler fd peer push s handled later
      arrived flying) {uuid : GUID} (called : uuid ∈ s.calls.map SoaCall.uuid) :
    ((arrived ++ flying).map SoaResponse.uuid).count uuid ≤ 1 := by
  have within : (handled.map SoaCall.uuid).Nodup := by
    have distinct := consistent.distinct
    rw [consistent.calls, List.map_append] at distinct
    exact (List.nodup_append.mp distinct).1
  have same : ((arrived ++ flying).map SoaResponse.uuid).count uuid =
      (((arrived ++ flying).filter (isAnswer s.calls)).map
        SoaResponse.uuid).count uuid := by
    rw [List.count_eq_countP, List.count_eq_countP, List.countP_map,
      List.countP_map, List.countP_filter]
    apply List.countP_congr
    intro packet _
    constructor
    · intro isIt
      have same : packet.uuid = uuid := by simpa using isIt
      simp [same, isAnswer, List.mem_map.mp called]
    · intro both
      exact (Bool.and_eq_true_iff.mp both).1
  rw [same, consistent.replied, uuids_replies, uuids_asked]
  exact List.nodup_iff_count_le_one.mp within uuid

/-- The callbacks that are left after some packets. -/
theorem find_reacted (packets : List SoaResponse)
    (connection : SoaClient.Connection κ) (uuid : GUID) :
    (packets.foldl (SoaClient.reacted fd) connection).own.callbacks.find fd uuid =
      if uuid ∈ packets.map SoaResponse.uuid then none
      else connection.own.callbacks.find fd uuid := by
  induction packets generalizing connection with
  | nil => rfl
  | cons packet packets induction =>
      have first : (SoaClient.reacted fd connection packet).own.callbacks.find
          fd uuid = if packet.uuid = uuid then none
            else connection.own.callbacks.find fd uuid :=
        SoaCallbacks.find_eraseCallback packet.uuid
      rw [List.foldl_cons, induction, first, List.map_cons]
      by_cases same : packet.uuid = uuid
      · simp [same]
      · simp [same, Ne.symm same]

theorem push_reacted (packets : List SoaResponse)
    (connection : SoaClient.Connection κ) :
    (packets.foldl (SoaClient.reacted fd) connection).own.push =
      connection.own.push := by
  induction packets generalizing connection with
  | nil => rfl
  | cons packet packets induction => exact induction _

/-- The client reacts to the packets that have come whole. -/
theorem Consistent.after_response (isSize : maxSize < 2 ^ 64)
    (consistent : Consistent maxSize handler fd peer push s handled later
      arrived flying) {piece rest : Bytes} (under : s.toClient = piece ++ rest) :
    ∃ arrived flying, Consistent maxSize handler fd peer push
      (s.response maxSize fd piece rest) handled later arrived flying := by
  have stream : s.client.remainder fd ++ (piece ++ rest) =
      flying.flatMap SoaResponse.toBytes := by
    rw [← under]
    exact consistent.toClient
  have printed : ∀ packet ∈ flying,
      SoaClient.parseResponse maxSize packet.toBytes =
        .ok (some (id packet), []) := by
    intro packet member
    exact SoaClient.parseResponse_toBytes isSize packet.uuid
      (consistent.smallPackets packet member)
  have next : ∃ done left bufferable, flying = done ++ left ∧
      SoaClient.deliver maxSize fd s.client piece =
        ((done.map id).foldl (SoaClient.reacted fd) s.client).keeping
          bufferable ∧
      SoaClient.parseResponse maxSize ((bufferable[fd]?).getD []) =
        .error .ag ∧
      (bufferable[fd]?).getD [] ++ rest = left.flatMap SoaResponse.toBytes := by
    rw [SoaClient.deliver_eq maxSize s.client piece rfl]
    exact Connection.deliver_next (SoaClient.stable_parseResponse maxSize) rfl
      (SoaClient.acts_dispatch _) rfl consistent.clientOpen stream printed
  obtain ⟨done, left, bufferable, rfl, delivered, idle, follows⟩ := next
  rw [List.map_id] at delivered
  have once : ∀ uuid, (s.client.own.callbacks.find fd uuid).isSome →
      (done.map SoaResponse.uuid).count uuid ≤ 1 := by
    intro uuid isSome
    rw [consistent.callbacks] at isSome
    split at isSome
    · cases isSome
    · have all := consistent.count_le (named_isSome isSome)
      simp only [List.map_append, List.count_append] at all
      omega
  have names : ∀ packet ∈ done,
      s.client.own.callbacks.find fd packet.uuid = named s.calls packet.uuid := by
    intro packet member
    rw [consistent.callbacks]
    split
    · next twice =>
        by_cases called : packet.uuid ∈ s.calls.map SoaCall.uuid
        · have all := consistent.count_le called
          have early := List.count_pos_iff.mpr twice
          have late := List.count_pos_iff.mpr
            (List.mem_map_of_mem (f := SoaResponse.uuid) member)
          simp only [List.map_append, List.count_append] at all
          omega
        · exact (named_eq_none called).symm
    · rfl
  have trace : (done.foldl (SoaClient.reacted fd) s.client).trace =
      s.client.trace ++ done.flatMap fun packet =>
        SoaClient.reaction ((named s.calls packet.uuid).or push) packet := by
    rw [SoaClient.trace_reacted, SoaClient.reactions_eq once,
      consistent.pushCallback]
    congr 1
    apply List.flatMap_congr
    intro packet member
    rw [names packet member]
  refine ⟨arrived ++ done, left, { consistent with
    smallPackets := ?_, replied := ?_, pushed := ?_, clientOpen := ?_,
    toClient := ?_, clientIdle := ?_, pushCallback := ?_, callbacks := ?_,
    seen := ?_ }⟩
  · exact fun packet member =>
      consistent.smallPackets packet (List.mem_append_right _ member)
  · rw [List.append_assoc]
    exact consistent.replied
  · rw [List.append_assoc]
    exact consistent.pushed
  · change (SoaClient.deliver maxSize fd s.client piece).status = _
    rw [delivered]
    exact ((SoaClient.acts_dispatch true).status_all done s.client).trans
      consistent.clientOpen
  · change (SoaClient.deliver maxSize fd s.client piece).remainder fd ++ rest = _
    rw [delivered]
    exact follows
  · change SoaClient.parseResponse maxSize
      ((SoaClient.deliver maxSize fd s.client piece).remainder fd) = _
    rw [delivered]
    exact idle
  · change (SoaClient.deliver maxSize fd s.client piece).own.push = _
    rw [delivered]
    exact (push_reacted done s.client).trans consistent.pushCallback
  · intro uuid
    change (SoaClient.deliver maxSize fd s.client piece).own.callbacks.find
      fd uuid = _
    rw [delivered]
    refine (find_reacted done s.client uuid).trans ?_
    rw [consistent.callbacks, List.map_append]
    by_cases now : uuid ∈ done.map SoaResponse.uuid
    · simp only [List.mem_append, now, or_true, if_true]
    · simp only [List.mem_append, now, or_false, if_false]
      rfl
  · change (SoaClient.deliver maxSize fd s.client piece).trace = _
    rw [delivered, List.flatMap_append]
    refine trace.trans ?_
    rw [consistent.seen]
    rfl

theorem consistent_of_run (isSize : maxSize < 2 ^ 64)
    (keeps : ∀ seen resp, (handler seen resp).uuid = resp.uuid)
    (fits : ∀ seen resp, (handler seen resp).json.length ≤ maxSize)
    (run : Run maxSize handler fd peer push s) :
    ∃ handled later arrived flying, Consistent maxSize handler fd peer push s
      handled later arrived flying := by
  induction run with
  | start => exact ⟨[], [], [], [], consistent_start push⟩
  | step _ step consistent =>
      obtain ⟨handled, later, arrived, flying, consistent⟩ := consistent
      cases step with
      | call new small fresh unpushed =>
          exact ⟨_, _, _, _, consistent.after_call small fresh unpushed⟩
      | push packet small uncalled =>
          exact ⟨_, _, _, _, consistent.after_push small uncalled⟩
      | request under =>
          obtain ⟨handled, later, flying, after⟩ :=
            consistent.after_request isSize keeps fits under
          exact ⟨_, _, _, _, after⟩
      | response under =>
          obtain ⟨arrived, flying, after⟩ :=
            consistent.after_response isSize under
          exact ⟨_, _, _, _, after⟩

/-- A stream of whole items of which nothing can be read has none. -/
theorem nothing_under_way {ι γ : Type} {parse : StreamReader (Option ι)}
    (stable : Stable .ag parse) (empty : parse [] = .error .ag)
    {print : γ → Bytes} {value : γ → ι} {items : List γ} {kept : Bytes}
    (printed : ∀ item ∈ items, parse (print item) = .ok (some (value item), []))
    (stream : kept ++ [] = items.flatMap print)
    (idle : parse kept = .error .ag) : items = [] := by
  cases items with
  | nil => rfl
  | cons item items =>
      have read := (parse_printed stable empty
        (printed item List.mem_cons_self) (items.flatMap print)).1
      rw [List.append_nil] at stream
      rw [stream, List.flatMap_cons, read] at idle
      cases idle

end Runs

end SoaRpc

open SoaRpc

/-- Whatever order calls, pushes and deliveries come in, the client calls the
callbacks of its calls in the order in which it made them, each with the answer
to its own call, and the push callback for what was pushed, in its order; and
when nothing is under way, every call has been answered and every push has been
seen. -/
theorem soa_calls_answered {κ : Type} {maxSize : Nat} {handler : SoaHandler}
    {fd peer : Fd} {push : Option κ} {s : SoaRpc κ} (isSize : maxSize < 2 ^ 64)
    (keeps : ∀ seen resp, (handler seen resp).uuid = resp.uuid)
    (fits : ∀ seen resp, (handler seen resp).json.length ≤ maxSize)
    (run : SoaRpc.Run maxSize handler fd peer push s) :
    ∃ arrived : List SoaResponse,
      s.client.trace = arrived.flatMap (fun packet =>
        SoaClient.reaction ((named s.calls packet.uuid).or push) packet) ∧
      arrived.filter (isAnswer s.calls) <+:
        replies handler [] (s.calls.map (asked peer)) ∧
      arrived.filter (fun packet => !isAnswer s.calls packet) <+: s.pushes ∧
      (s.toServer = [] → s.toClient = [] →
        arrived.filter (isAnswer s.calls) =
          replies handler [] (s.calls.map (asked peer)) ∧
        arrived.filter (fun packet => !isAnswer s.calls packet) = s.pushes) := by
  obtain ⟨handled, later, arrived, flying, consistent⟩ :=
    consistent_of_run isSize keeps fits run
  have replied := consistent.replied
  have pushed := consistent.pushed
  rw [List.filter_append] at replied pushed
  refine ⟨arrived, consistent.seen, ?_, ⟨_, pushed⟩, ?_⟩
  · rw [consistent.calls, List.map_append, replies_append, ← replied,
      ← consistent.calls, List.append_assoc]
    exact List.prefix_append _ _
  · intro nothingAsked nothingSaid
    have calls : ∀ call ∈ later, Soa.parseRequest maxSize peer call.toBytes =
        .ok (some (asked peer call), []) := by
      intro call member
      apply Soa.parseRequest_toBytes isSize
      apply consistent.smallCalls
      rw [consistent.calls]
      exact List.mem_append_right _ member
    have packets : ∀ packet ∈ flying,
        SoaClient.parseResponse maxSize packet.toBytes =
          .ok (some (id packet), []) := by
      intro packet member
      exact SoaClient.parseResponse_toBytes isSize packet.uuid
        (consistent.smallPackets packet member)
    have noCall : later = [] :=
      nothing_under_way (Soa.stable_parseRequest maxSize peer) rfl calls
        (nothingAsked ▸ consistent.toServer) consistent.serverIdle
    have noPacket : flying = [] :=
      nothing_under_way (SoaClient.stable_parseResponse maxSize) rfl packets
        (nothingSaid ▸ consistent.toClient) consistent.clientIdle
    subst noCall noPacket
    have all : s.calls = handled := consistent.calls.trans (List.append_nil _)
    constructor
    · rw [all] at replied ⊢
      simpa using replied
    · simpa using pushed

/-- Every request is answered alike. -/
def SoaHandler.agreeing : SoaHandler := fun _ resp =>
  { resp with json := ascii "ok" }

theorem soa_call_beside_a_push : ∃ (s : SoaRpc String) (arrived : List SoaResponse),
    s.client.trace = arrived.flatMap (fun packet =>
      SoaClient.reaction ((named s.calls packet.uuid).or (some "push")) packet) ∧
    arrived.filter (isAnswer s.calls) = [samplePacket 1 "ok"] ∧
    arrived.filter (fun packet => !isAnswer s.calls packet) =
      [samplePacket 9 "news"] := by
  have began : SoaRpc.Run (2 ^ 63) .agreeing 6 5 (some "push")
      (start (some "push")) :=
    .start
  have called := began.step (.call
    (⟨(samplePacket 1 "").uuid, ascii "[1]", "first"⟩ : SoaCall String)
    (by decide) (by simp [start]) (by simp [start]))
  have pushed := called.step (.push (samplePacket 9 "news")
    (by decide) (by decide))
  have requested := pushed.step (.request (List.append_nil _).symm)
  have responded := requested.step (.response (List.append_nil _).symm)
  have keeps : ∀ seen resp, (SoaHandler.agreeing seen resp).uuid = resp.uuid :=
    fun _ _ => rfl
  have fits : ∀ seen resp,
      (SoaHandler.agreeing seen resp).json.length ≤ 2 ^ 63 := by
    intro seen resp
    change (ascii "ok").length ≤ 2 ^ 63
    decide
  obtain ⟨arrived, trace, _, _, all⟩ := soa_calls_answered
    (show 2 ^ 63 < 2 ^ 64 by decide) keeps fits responded
  obtain ⟨answers, news⟩ := all rfl rfl
  exact ⟨_, arrived, trace, answers, news⟩

end Universe
