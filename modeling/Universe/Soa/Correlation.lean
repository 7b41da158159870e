import Universe.Protocol.Delivery
import Universe.Soa.Client

/-!
# Responses reach the callbacks of their requests

The server answers the outstanding requests of a connection in any order and
pushes packets in between.  However the stream is cut, every callback is called
once, with the response to its own request.
-/

namespace Universe

open Incremental Protocol

/-- What can be seen of a connection to a SOA server. -/
inductive SoaReaction (κ : Type) where
  | called (callback : κ) (json : Bytes)
  | packetOk (uuid : GUID)
  | wrote (fd : Fd) (data : Bytes)
  | closed (fd : Fd)
  deriving DecidableEq

/-- The callbacks of a client of SOA servers. -/
structure SoaMemory (κ : Type) where
  callbacks : SoaCallbacks κ
  push : Option κ

namespace SoaClient

section Connections

variable {κ : Type}

abbrev Connection (κ : Type) := Protocol.Connection (SoaReaction κ) (SoaMemory κ)

def traits (client : Fd) : Traits (SoaReaction κ) (SoaMemory κ) where
  wrote := .wrote
  closed := .closed
  forget memory := { memory with callbacks := memory.callbacks.erase client }

/-- The callbacks do nothing to the connection. -/
def host (client : Fd) :
    Host κ (Connection.M (SoaReaction κ) (SoaMemory κ)) where
  toHost := Connection.host (traits client) client
  callbacks change := modifyGet fun s =>
    let changed := change s.own.callbacks
    (changed.1, { s with own := { s.own with callbacks := changed.2 } })
  pushCallback := modifyGet fun s => (s.own.push, s)
  call callback json := modify (·.record (.called callback json))
  firePacketOk uuid := modify (·.record (.packetOk uuid))

variable (maxSize : Nat) (client : Fd)

/-- One delivery on a connection that is open. -/
def deliver (s : Connection κ) (piece : Bytes) : Connection κ :=
  Connection.deliver (onMessage (host client) maxSize client) s piece

/-- What is seen of a packet for which there is this callback. -/
def reaction (callback : Option κ) (r : SoaResponse) : List (SoaReaction κ) :=
  match callback with
  | none => []
  | some callback => [.called callback r.json, .packetOk r.uuid]

/-- A packet was read. -/
def reacted (s : Connection κ) (r : SoaResponse) : Connection κ :=
  { s with
    trace := s.trace ++
      reaction ((s.own.callbacks.find client r.uuid).or s.own.push) r
    own := { s.own with
      callbacks := s.own.callbacks.eraseCallback client r.uuid } }

/-- Whether there are callbacks of the connection. -/
def Knows (known : Bool) (s : Connection κ) : Prop :=
  s.own.callbacks.contains client = known

variable {client}

theorem lookup_eq {known : Bool} {s : Connection κ} (knows : Knows client known s)
    (uuid : GUID) :
    lookup (host client) client known uuid s =
      .ok (s.own.callbacks.find client uuid) s := by
  unfold lookup
  cases known with
  | false =>
      rw [SoaCallbacks.find_of_absent knows]
      rfl
  | true =>
      have still : (host client).callbacks (fun callbacks =>
          (callbacks.contains client, callbacks)) s = .ok true s := by
        have contained : s.own.callbacks.contains client = true := knows
        simp only [host, Stepwise.modifyGet_eq, contained]
      rw [if_pos rfl, Stepwise.bind_of_ok still]
      rfl

theorem dispatch_eq {known : Bool} {s : Connection κ}
    (knows : Knows client known s) (r : SoaResponse) :
    dispatch (host client) client known r s = .ok true (reacted client s r) := by
  unfold dispatch
  rw [Stepwise.bind_of_ok (lookup_eq knows r.uuid)]
  cases found : s.own.callbacks.find client r.uuid with
  | none =>
      have same := SoaCallbacks.eraseCallback_of_missing found
      cases push : s.own.push with
      | none =>
          have nothing : reacted client s r = s := by
            have unpushed : (s.own.callbacks.find client r.uuid).or
                s.own.push = none := by rw [found, push]; rfl
            simp [reacted, unpushed, reaction, same]
          have asked : (host client).pushCallback s = .ok none s := by
            simp only [host, Stepwise.modifyGet_eq, push]
          rw [nothing]
          dsimp only
          rw [Stepwise.bind_of_ok asked]
          rfl
      | some callback =>
          have asked : (host client).pushCallback s = .ok (some callback) s := by
            simp only [host, Stepwise.modifyGet_eq, push]
          have pushed : reacted client s r =
              (s.record (.called callback r.json)).record (.packetOk r.uuid) := by
            have given : (s.own.callbacks.find client r.uuid).or
                s.own.push = some callback := by rw [found, push]; rfl
            simp [reacted, given, reaction, same, Connection.record]
          rw [pushed]
          dsimp only
          rw [Stepwise.bind_of_ok asked]
          rfl
  | some callback =>
      have contained : s.own.callbacks.contains client = true := by
        cases present : s.own.callbacks.contains client with
        | true => rfl
        | false =>
            rw [SoaCallbacks.find_of_absent present] at found
            cases found
      have called : (host client).call callback r.json s =
          .ok () (s.record (.called callback r.json)) := rfl
      have erased : (host client).callbacks (fun callbacks =>
          (callbacks.contains client, callbacks.eraseCallback client r.uuid))
          (s.record (.called callback r.json)) =
            .ok true { s.record (.called callback r.json) with
              own := { s.own with
                callbacks := s.own.callbacks.eraseCallback client r.uuid } } := by
        have contained : (s.record
            (.called callback r.json)).own.callbacks.contains client = true :=
          contained
        simp only [host, Stepwise.modifyGet_eq, contained]
        rfl
      have finished : reacted client s r = Connection.record (.packetOk r.uuid)
          { s.record (.called callback r.json) with
            own := { s.own with
              callbacks := s.own.callbacks.eraseCallback client r.uuid } } := by
        simp [reacted, found, reaction, Connection.record]
      dsimp only
      rw [Stepwise.bind_of_ok called, Stepwise.bind_of_ok erased, finished]
      rfl

theorem acts_dispatch (known : Bool) :
    Connection.Acts (Knows client known)
      (dispatch (κ := κ) (host client) client known) (reacted client) := by
  constructor
  · intro s r knows
    exact dispatch_eq knows r
  · intro s r knows
    unfold Knows reacted
    rw [SoaCallbacks.contains_eraseCallback]
    exact knows
  · intro s bufferable knows
    exact knows
  · intro s r
    rfl
  · intro s bufferable r
    rfl

theorem deliver_eq {known : Bool} (s : Connection κ) (piece : Bytes)
    (knows : Knows client known s) :
    deliver maxSize client s piece =
      Connection.deliver (onItems (Connection.host (traits client) client)
        (parseResponse maxSize) (dispatch (host client) client known) client)
        s piece := by
  have found : (host client).callbacks (fun callbacks =>
      (callbacks.contains client, callbacks)) s = .ok known s := by
    have contained : s.own.callbacks.contains client = known := knows
    simp only [host, Stepwise.modifyGet_eq, contained]
  unfold deliver Connection.deliver onMessage
  rw [Stepwise.bind_of_ok found]
  rfl

/-- What is seen of packets, with the callbacks that are left for them. -/
def reactions (find : GUID → Option κ) (push : Option κ) :
    List SoaResponse → List (SoaReaction κ)
  | [] => []
  | r :: later => reaction ((find r.uuid).or push) r ++
      reactions (fun uuid => if r.uuid = uuid then none else find uuid) push later

theorem trace_reacted (packets : List SoaResponse) (s : Connection κ) :
    (packets.foldl (reacted client) s).trace = s.trace ++
      reactions (s.own.callbacks.find client) s.own.push packets := by
  induction packets generalizing s with
  | nil => simp [reactions]
  | cons r later induction =>
      have rest : (reacted client s r).own.callbacks.find client =
          fun uuid => if r.uuid = uuid then none
            else s.own.callbacks.find client uuid := by
        funext uuid
        exact SoaCallbacks.find_eraseCallback r.uuid
      rw [List.foldl_cons, induction, rest]
      simp [reacted, reactions]

/-- No uuid for which there is a callback comes twice. -/
theorem reactions_eq {find : GUID → Option κ} {push : Option κ}
    {packets : List SoaResponse}
    (once : ∀ uuid, (find uuid).isSome →
      (packets.map SoaResponse.uuid).count uuid ≤ 1) :
    reactions find push packets =
      packets.flatMap fun r => reaction ((find r.uuid).or push) r := by
  induction packets generalizing find with
  | nil => rfl
  | cons r later induction =>
      have others : ∀ other ∈ later,
          (if r.uuid = other.uuid then none else find other.uuid) =
            find other.uuid := by
        intro other member
        split
        · next same =>
            cases found : find other.uuid with
            | none => rfl
            | some callback =>
                have twice := once other.uuid (by rw [found]; rfl)
                have again : 0 < (later.map SoaResponse.uuid).count other.uuid :=
                  List.count_pos_iff.mpr (List.mem_map_of_mem member)
                rw [List.map_cons, same, List.count_cons_self] at twice
                omega
        · rfl
      have fewer : ∀ uuid,
          (if r.uuid = uuid then none else find uuid).isSome →
            (later.map SoaResponse.uuid).count uuid ≤ 1 := by
        intro uuid isSome
        have known : (find uuid).isSome := by
          split at isSome
          · cases isSome
          · exact isSome
        have count := once uuid known
        rw [List.map_cons, List.count_cons] at count
        omega
      unfold reactions
      rw [List.flatMap_cons, induction fewer]
      congr 1
      apply List.flatMap_congr
      intro other member
      rw [others other member]

section Requests

variable (client) (outstanding : List (GUID × κ)) (push : Option κ)
  (others : SoaCallbacks κ)

/-- The callbacks of all outstanding requests, one after the other. -/
def registered : SoaCallbacks κ :=
  outstanding.foldl (fun callbacks request =>
    callbacks.addCallback request.1 client request.2) others

/-- A connection on which these requests have been sent. -/
def waiting : Connection κ :=
  { trace := []
    status := .opened
    own := { callbacks := registered client outstanding others, push }
    bufferable := ∅ }

variable {client outstanding others}

theorem find_registered (distinct : (outstanding.map Prod.fst).Nodup)
    (uuid : GUID) :
    (registered client outstanding others).find client uuid =
      (outstanding.lookup uuid).or (others.find client uuid) := by
  induction outstanding generalizing others with
  | nil => rfl
  | cons request later induction =>
      obtain ⟨requestId, callback⟩ := request
      obtain ⟨first, rest⟩ := List.nodup_cons.mp distinct
      change (registered client later
        (others.addCallback requestId client callback)).find client uuid = _
      rw [induction rest, SoaCallbacks.find_addCallback, List.lookup_cons]
      by_cases same : requestId = uuid
      · subst same
        have missing : later.lookup requestId = none := by
          apply List.lookup_eq_none_iff.mpr
          intro other member
          simp only [bne_iff_ne, ne_eq]
          intro same
          exact first (List.mem_map.mpr ⟨other, member, same.symm⟩)
        simp [missing]
      · have different : (uuid == requestId) = false := by
          simpa using Ne.symm same
        simp [same, different]

theorem lookup_of_mem (distinct : (outstanding.map Prod.fst).Nodup)
    {uuid : GUID} {callback : κ} (member : (uuid, callback) ∈ outstanding) :
    outstanding.lookup uuid = some callback := by
  obtain ⟨before, after, rfl⟩ := List.append_of_mem member
  refine List.lookup_eq_some_iff.mpr ⟨before, after, rfl, ?_⟩
  intro other earlier
  rw [List.map_append, List.map_cons] at distinct
  have apart := (List.nodup_append.mp distinct).2.2 other.1
    (List.mem_map_of_mem earlier) uuid List.mem_cons_self
  simpa using Ne.symm apart

end Requests

/-- What a callback was called with. -/
def calledWith [DecidableEq κ] (callback : κ) (trace : List (SoaReaction κ)) :
    List Bytes :=
  trace.filterMap fun
    | .called other json => if other = callback then some json else none
    | _ => none

/-- The packets with one uuid are the calls of its callback. -/
theorem calledWith_reactions [DecidableEq κ] {find : GUID → Option κ}
    {push : Option κ} {uuid : GUID} {callback : κ}
    (own : ∀ other, find other = some callback ↔ other = uuid)
    (unpushed : push ≠ some callback) (packets : List SoaResponse) :
    calledWith callback
        (packets.flatMap fun r => reaction ((find r.uuid).or push) r) =
      (packets.filter fun r => r.uuid = uuid).map SoaResponse.json := by
  induction packets with
  | nil => rfl
  | cons r later induction =>
      have first : calledWith callback (reaction ((find r.uuid).or push) r) =
          if r.uuid = uuid then [r.json] else [] := by
        by_cases same : r.uuid = uuid
        · rw [(own r.uuid).mpr same, if_pos same]
          simp [reaction, calledWith]
        · rw [if_neg same]
          have other : (find r.uuid).or push ≠ some callback := by
            cases found : find r.uuid with
            | none => exact unpushed
            | some name =>
                intro given
                cases given
                exact same ((own r.uuid).mp found)
          cases named : (find r.uuid).or push with
          | none => rfl
          | some name =>
              have different : name ≠ callback := by
                rintro rfl
                exact other named
              simp [reaction, calledWith, different]
      rw [List.flatMap_cons, calledWith, List.filterMap_append]
      change calledWith callback _ ++ calledWith callback _ = _
      rw [first, induction, List.filter_cons]
      by_cases same : r.uuid = uuid
      · simp [same]
      · simp [same]

/-- A packet that is alone with its uuid. -/
theorem filter_of_once {packets : List SoaResponse} {uuid : GUID}
    (once : (packets.map SoaResponse.uuid).count uuid ≤ 1) {json : Bytes}
    (member : ⟨uuid, json⟩ ∈ packets) :
    (packets.filter fun r => r.uuid = uuid) = [⟨uuid, json⟩] := by
  have few : (packets.filter fun r => r.uuid = uuid).length ≤ 1 := by
    rw [← List.countP_eq_length_filter]
    rw [List.count, List.countP_map] at once
    exact once
  have inside : (⟨uuid, json⟩ : SoaResponse) ∈
      packets.filter fun r => r.uuid = uuid :=
    List.mem_filter.mpr ⟨member, by simp⟩
  generalize (packets.filter fun r => r.uuid = uuid) = filtered at few inside ⊢
  cases filtered with
  | nil => cases inside
  | cons only rest =>
      cases rest with
      | nil => rw [List.mem_singleton.mp inside]
      | cons _ _ => simp at few

end Connections

end SoaClient

open SoaClient

/-- The packets of the server reach the callbacks of their requests, in the
order in which they were sent and however they are cut; those with another uuid
reach the callback for pushed packets.  A callback whose response has arrived
was called once, with this response. -/
theorem soa_responses_correlated {κ : Type} [DecidableEq κ] {maxSize : Nat}
    (isSize : maxSize < 2 ^ 64) (client : Fd) {outstanding : List (GUID × κ)}
    (distinct : (outstanding.map Prod.fst).Nodup) (push : Option κ)
    {others : SoaCallbacks κ} (fresh : others[client]? = none)
    {packets : List SoaResponse} {next : SoaResponse}
    (small : ∀ r ∈ packets ++ [next], r.json.length ≤ maxSize)
    (once : ∀ request ∈ outstanding,
      (packets.map SoaResponse.uuid).count request.1 ≤ 1)
    {part : Bytes} (begins : part <+: next.toBytes)
    (incomplete : part ≠ next.toBytes) {pieces : List Bytes}
    (cut : pieces.flatten = packets.flatMap SoaResponse.toBytes ++ part) :
    let s := pieces.foldl (deliver maxSize client)
      (waiting client outstanding push others)
    s.status = .opened ∧
    s.trace = packets.flatMap
      (fun r => reaction ((outstanding.lookup r.uuid).or push) r) ∧
    (∀ request ∈ outstanding,
      (∀ other ∈ outstanding, other.2 = request.2 → other.1 = request.1) →
      push ≠ some request.2 → ∀ json, ⟨request.1, json⟩ ∈ packets →
        calledWith request.2 s.trace = [json]) ∧
    (s.bufferable[client]?).getD [] = part := by
  intro s
  have stable := stable_parseResponse maxSize
  have empty : parseResponse maxSize [] = .error .ag := rfl
  have printed : ∀ r ∈ packets ++ [next],
      parseResponse maxSize r.toBytes = .ok (some r, []) := by
    intro r member
    exact parseResponse_toBytes isSize r.uuid (small r member)
  have ends : parseResponse maxSize part = .error .ag :=
    stable.of_proper (printed next (by simp)) begins incomplete
  have arrived : (waiting client outstanding push others).remainder client ++
      pieces.flatten = packets.flatMap SoaResponse.toBytes ++ part := by
    rw [← cut]
    simp [Connection.remainder, waiting]
  have idle : parseResponse maxSize
      ((waiting client outstanding push others).remainder client) =
        .error .ag := by
    simpa [Connection.remainder, waiting] using empty
  obtain ⟨bufferable, delivered, waits, _⟩ :=
    Connection.deliver_pieces stable empty (acts_dispatch _) rfl rfl idle arrived
      (fun r member => printed r (List.mem_append_left _ member)) ends
      (deliver_eq maxSize)
  have folded : s = (packets.foldl (reacted client)
      (waiting client outstanding push others)).keeping bufferable := by
    rw [List.map_id''] at delivered
    · exact delivered
    · intro r
      rfl
  have found : (registered client outstanding others).find client =
      fun uuid => outstanding.lookup uuid := by
    funext uuid
    rw [find_registered distinct]
    simp [SoaCallbacks.find, fresh]
  have trace : s.trace = packets.flatMap
      (fun r => reaction ((outstanding.lookup r.uuid).or push) r) := by
    have seen : (packets.foldl (reacted client)
        (waiting client outstanding push others)).trace = _ :=
      trace_reacted packets _
    have start : (waiting client outstanding push others).own.callbacks.find
        client = fun uuid => outstanding.lookup uuid := found
    rw [start, reactions_eq] at seen
    · rw [folded]
      exact seen
    · intro uuid isSome
      obtain ⟨request, member, same⟩ := List.lookup_isSome_iff.mp isSome
      rw [eq_of_beq same]
      exact once request member
  refine ⟨?_, trace, ?_, ?_⟩
  · rw [folded]
    exact (acts_dispatch true).status_all packets _
  · intro request member names unpushed json arrived
    have own : ∀ other, outstanding.lookup other = some request.2 ↔
        other = request.1 := by
      intro other
      constructor
      · intro given
        obtain ⟨before, after, rfl, _⟩ := List.lookup_eq_some_iff.mp given
        exact names (other, request.2) (by simp) rfl
      · rintro rfl
        exact lookup_of_mem distinct member
    rw [trace, calledWith_reactions own unpushed,
      filter_of_once (once request member) arrived]
    rfl
  · rw [folded]
    exact waits

/-- A packet with a uuid of one byte. -/
def samplePacket (byte : UInt8) (json : String) : SoaResponse :=
  ⟨.filled byte, ascii json⟩

/-- Two responses in the other order, with a pushed packet between them. -/
def sampleStream : List SoaResponse :=
  [samplePacket 2 "two", samplePacket 9 "news", samplePacket 1 "one"]

theorem swapped_responses_correlated :
    let s := [(sampleStream.flatMap SoaResponse.toBytes).take 30,
        (sampleStream.flatMap SoaResponse.toBytes).drop 30].foldl
      (deliver (2 ^ 63) 6) (waiting 6 [((samplePacket 1 "").uuid, "first"),
        ((samplePacket 2 "").uuid, "second")] (some "push") ∅)
    calledWith "first" s.trace = [ascii "one"] ∧
      calledWith "second" s.trace = [ascii "two"] ∧
      calledWith "push" s.trace = [ascii "news"] := by
  intro s
  obtain ⟨_, trace, calls, _⟩ := soa_responses_correlated
    (show 2 ^ 63 < 2 ^ 64 by decide) 6
    (show ([((samplePacket 1 "").uuid, "first"),
      ((samplePacket 2 "").uuid, "second")].map Prod.fst).Nodup by decide +kernel)
    (some "push") (show (∅ : SoaCallbacks String)[(6 : Fd)]? = none by simp)
    (show ∀ r ∈ sampleStream ++ [samplePacket 0 ""], r.json.length ≤ 2 ^ 63 by
      decide +kernel)
    (by decide +kernel)
    (List.nil_prefix (l := (samplePacket 0 "").toBytes)) (by decide +kernel)
    (show [(sampleStream.flatMap SoaResponse.toBytes).take 30,
      (sampleStream.flatMap SoaResponse.toBytes).drop 30].flatten = _ by
        decide +kernel)
  refine ⟨calls _ List.mem_cons_self (by decide +kernel) (by decide) _
    (by decide +kernel), calls ((samplePacket 2 "").uuid, "second") (by simp)
    (by decide +kernel) (by decide) _ (by decide +kernel), ?_⟩
  rw [trace]
  decide +kernel

end Universe
