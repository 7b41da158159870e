import Universe.HttpGateway.Service

/-!
# Clients, their requests, and the connections for them

What the gateway has in its maps fits to the callbacks it has registered: a
client with a pending request has one connection that is for it, and what it
has sent beyond this request is in its buffer.  A step that touches a client
and its connection leaves the others as they are.
-/

namespace Universe

open Incremental
open Std (ExtTreeMap)

namespace HttpGateway

/-- A request that was answered. -/
structure Relay where
  sent : Bytes × HttpRequest
  request : HttpRequest
  target : HttpProviderAddress
  packet : Bytes
  origin : Bytes
  response : HttpResponse

namespace Relay

/-- The request as `ON_REQUEST_URI` left it was forwarded, and the response of
the provider was written as `ON_RESPONSE` left it. -/
structure Sound (app : Application) (relay : Relay) : Prop where
  asked : ∃ seen, app.onRequestUri seen relay.sent.2 =
    (relay.request, relay.target)
  printed : relay.request.forwardPacket relay.target = some relay.packet
  answered : ∃ seen read rest, parseResponse relay.origin = .ok (some read, rest) ∧
    (app.onResponse seen relay.request read).2 = relay.response

def course (client : Fd) (relay : Relay) : List Occurrence :=
  [.requested client relay.sent.2, .forwarded client relay.packet,
    .responded client relay.response.toBytes]

end Relay

/-- The request of a client that is not answered yet. -/
inductive Pending where
  | idle
  | connecting (sent : Bytes × HttpRequest)
  | waiting (sent : Bytes × HttpRequest) (packet : Bytes)

namespace Pending

def sent : Pending → List (Bytes × HttpRequest)
  | .idle => []
  | .connecting sent => [sent]
  | .waiting sent _ => [sent]

def course (client : Fd) : Pending → List Occurrence
  | .idle => []
  | .connecting sent => [.requested client sent.2]
  | .waiting sent packet =>
      [.requested client sent.2, .forwarded client packet]

end Pending

namespace Entry

/-- The client that a connection to a provider is for. -/
def servant (entry : Entry) : Option Fd :=
  match entry.peer with
  | some (.connecting client) => some client
  | some (.remote client _ _) => some client
  | _ => none

end Entry

variable {app : Application} {entries later : Fd → Entry} {client remoteFd : Fd}
  {requests : List (Bytes × HttpRequest)} {received : Bytes}

/-- A connection for the pending request, or none. -/
inductive Holds (app : Application) (entries : Fd → Entry) (client : Fd) :
    Pending → Prop where
  | idle (state : (entries client).state = some .parseRequest)
      (alone : ∀ fd, (entries fd).servant ≠ some client)
      (short : Http.parseRequest client ((entries client).buffered.getD []) =
        .error .ag) :
      Holds app entries client .idle
  | connecting {sent : Bytes × HttpRequest} {request : HttpRequest}
      {target : HttpProviderAddress} {remoteFd : Fd}
      (state : (entries client).state = some .parseResponse)
      (serves : (entries remoteFd).peer = some (.connecting client))
      (info : (entries client).info = some (request, target))
      (asked : ∃ seen, app.onRequestUri seen sent.2 = (request, target)) :
      Holds app entries client (.connecting sent)
  | waiting {sent : Bytes × HttpRequest} {request : HttpRequest}
      {target : HttpProviderAddress} {remoteFd : Fd} {packet origin got : Bytes}
      (state : (entries client).state = some .parseResponse)
      (serves : (entries remoteFd).peer = some (.remote client origin got))
      (info : (entries client).info = some (request, target))
      (asked : ∃ seen, app.onRequestUri seen sent.2 = (request, target))
      (printed : request.forwardPacket target = some packet)
      (kept : (entries remoteFd).buffered.getD [] = got)
      (short : parseResponse got = .error .ag)
      (sound : ∃ read rest, parseResponse origin = .ok (some read, rest)) :
      Holds app entries client (.waiting sent packet)

/-- All requests of a client but the pending one are answered, in their order,
and what came after them is in the buffer. -/
structure Pipelined (app : Application) (entries : Fd → Entry) (client : Fd)
    (requests : List (Bytes × HttpRequest)) (received : Bytes)
    (relays : List Relay) (pending : Pending) : Prop where
  course : (entries client).course =
    relays.flatMap (Relay.course client) ++ pending.course client
  relayed : ∀ relay ∈ relays, relay.Sound app
  order : relays.map Relay.sent ++ pending.sent <+: requests
  bytes : received =
    ((relays.map Relay.sent ++ pending.sent).map Prod.fst).flatten ++
      (entries client).buffered.getD []
  within : received <+: (requests.map Prod.fst).flatten
  holds : Holds app entries client pending

/-- What is left of a client that was closed. -/
def Ended (app : Application) (client : Fd) (course : List Occurrence) : Prop :=
  course = [] ∨ ∃ (relays : List Relay) (pending : Pending),
    course = relays.flatMap (Relay.course client) ++
      pending.course client ++ [.closed client] ∧
    ∀ relay ∈ relays, relay.Sound app

/-- The requests are what the client is going to send. -/
def Genuine (client : Fd) (requests : List (Bytes × HttpRequest)) : Prop :=
  ∀ sent ∈ requests, Http.parseRequest client sent.1 = .ok (sent.2, [])

/-- The entries fit together, as far as they are not about this client. -/
structure Others (app : Application) (busy : Fd) (entries : Fd → Entry) :
    Prop where
  clients : ∀ {client requests received}, client ≠ busy →
    (entries client).peer = some (.client requests received) →
      Genuine client requests ∧ ∃ relays pending,
        Pipelined app entries client requests received relays pending
  servants : ∀ {fd client}, (entries fd).servant = some client →
    (entries client).c2r = some fd ∧ (entries fd).r2c = some client ∧
      ∃ requests received,
        (entries client).peer = some (.client requests received)
  unread : ∀ {fd}, ((entries fd).peer = none ∨
      ∃ client, (entries fd).peer = some (.connecting client)) →
    (entries fd).buffered = none
  ended : ∀ {fd}, (∀ requests received,
      (entries fd).peer ≠ some (.client requests received)) →
    Ended app fd (entries fd).course

/-- The state of the gateway between two events. -/
structure Consistent (app : Application) (entries : Fd → Entry) : Prop where
  clients : ∀ {client requests received},
    (entries client).peer = some (.client requests received) →
      Genuine client requests ∧ ∃ relays pending,
        Pipelined app entries client requests received relays pending
  others : ∀ busy, Others app busy entries

/-- What a client is does not depend on the entries of others. -/
theorem Pipelined.congr {relays : List Relay} {pending : Pending}
    (pipelined : Pipelined app entries client requests received relays pending)
    (same : later client = entries client)
    (kept : ∀ fd, (entries fd).servant = some client →
      later fd = entries fd)
    (new : ∀ fd, (later fd).servant = some client → later fd = entries fd) :
    Pipelined app later client requests received relays pending := by
  refine ⟨?_, pipelined.relayed, pipelined.order, ?_, pipelined.within, ?_⟩
  · rw [same]
    exact pipelined.course
  · rw [same]
    exact pipelined.bytes
  · cases pipelined.holds with
    | idle state alone short =>
        refine .idle (by rwa [same]) ?_ (by rwa [same])
        intro fd serves
        have unchanged := new fd serves
        rw [unchanged] at serves
        exact alone fd serves
    | connecting state serves info asked =>
        have unchanged := kept _ (by rw [Entry.servant, serves])
        exact .connecting (by rwa [same]) (by rwa [unchanged]) (by rwa [same])
          asked
    | waiting state serves info asked printed buffered short sound =>
        have unchanged := kept _ (by rw [Entry.servant, serves])
        exact .waiting (by rwa [same]) (by rwa [unchanged]) (by rwa [same])
          asked printed (by rwa [unchanged]) short sound

/-- Nothing changes but a client and the connection that is for it. -/
structure Confined (app : Application) (client remoteFd : Fd)
    (entries later : Fd → Entry) : Prop where
  same : ∀ fd, fd ≠ client → fd ≠ remoteFd → later fd = entries fd
  servant : ∀ fd, (entries fd).servant = some client → fd = remoteFd
  clientBefore : (entries client).servant = none
  remoteBefore : remoteFd ≠ client → (entries remoteFd).servant = some client ∨
    (entries remoteFd).peer = none
  clientAfter :
    (∃ requests received, (later client).peer =
      some (.client requests received)) ∨
    (later client).peer = none ∧ (later client).buffered = none ∧
      Ended app client (later client).course
  remoteAfter : remoteFd ≠ client →
    (later remoteFd).course = (entries remoteFd).course ∧
    ((later remoteFd).peer = none ∧ (later remoteFd).buffered = none ∨
      (later remoteFd).servant = some client ∧
        (later client).c2r = some remoteFd ∧
        (later remoteFd).r2c = some client ∧
        (∃ requests received, (later client).peer =
          some (.client requests received)) ∧
        ((later remoteFd).peer = some (.connecting client) →
          (later remoteFd).buffered = none))

theorem Entry.servant_of_none {entry : Entry} (absent : entry.peer = none) :
    entry.servant = none := by
  rw [Entry.servant, absent]

theorem Entry.servant_of_client {entry : Entry}
    (isClient : entry.peer = some (.client requests received)) :
    entry.servant = none := by
  rw [Entry.servant, isClient]

theorem Entry.servant_of_remote {entry : Entry} {origin got : Bytes}
    (serves : entry.peer = some (.remote client origin got)) :
    entry.servant = some client := by
  rw [Entry.servant, serves]

theorem Entry.not_client_of_servant {entry : Entry}
    (serves : entry.servant = some client) :
    entry.peer ≠ some (.client requests received) := by
  intro isClient
  rw [Entry.servant_of_client isClient] at serves
  cases serves

namespace Confined

variable (confined : Confined app client remoteFd entries later)
include confined

theorem client_serves_nobody (other : Fd) :
    (later client).servant ≠ some other := by
  intro serves
  rcases confined.clientAfter with ⟨requests, received, isClient⟩ | gone
  · rw [Entry.servant_of_client isClient] at serves
    cases serves
  · rw [Entry.servant_of_none gone.1] at serves
    cases serves

/-- The connection is for nobody else. -/
theorem remote_before {other : Fd} (different : other ≠ client)
    (apart : remoteFd ≠ client) :
    (entries remoteFd).servant ≠ some other := by
  intro serves
  rcases confined.remoteBefore apart with own | absent
  · rw [own] at serves
    cases serves
    exact different rfl
  · rw [Entry.servant_of_none absent] at serves
    cases serves

theorem remote_after {other : Fd} (different : other ≠ client)
    (apart : remoteFd ≠ client) :
    (later remoteFd).servant ≠ some other := by
  intro serves
  rcases (confined.remoteAfter apart).2 with absent | own
  · rw [Entry.servant_of_none absent.1] at serves
    cases serves
  · rw [own.1] at serves
    cases serves
    exact different rfl

theorem remote_not_client (apart : remoteFd ≠ client)
    (requests : List (Bytes × HttpRequest)) (received : Bytes) :
    (entries remoteFd).peer ≠ some (.client requests received) := by
  rcases confined.remoteBefore apart with own | absent
  · exact Entry.not_client_of_servant own
  · rw [absent]
    exact fun impossible => nomatch impossible

theorem remote_not_client_after (apart : remoteFd ≠ client)
    (requests : List (Bytes × HttpRequest)) (received : Bytes) :
    (later remoteFd).peer ≠ some (.client requests received) := by
  rcases (confined.remoteAfter apart).2 with absent | own
  · rw [absent.1]
    exact fun impossible => nomatch impossible
  · exact Entry.not_client_of_servant own.1

/-- A connection for another client stays what it is. -/
theorem kept {other fd : Fd} (different : other ≠ client)
    (serves : (entries fd).servant = some other) : later fd = entries fd := by
  have apart : fd ≠ client := by
    rintro rfl
    rw [confined.clientBefore] at serves
    cases serves
  refine confined.same fd apart ?_
  rintro rfl
  exact confined.remote_before different apart serves

theorem new {other fd : Fd} (different : other ≠ client)
    (serves : (later fd).servant = some other) : later fd = entries fd := by
  have apart : fd ≠ client := by
    rintro rfl
    exact confined.client_serves_nobody other serves
  refine confined.same fd apart ?_
  rintro rfl
  exact confined.remote_after different apart serves

/-- The others do not notice. -/
theorem others (consistent : Others app client entries) :
    Others app client later where
  clients := by
    intro other requests received different isClient
    have unchanged : later other = entries other := by
      refine confined.same other different ?_
      rintro rfl
      exact confined.remote_not_client_after different requests received isClient
    rw [unchanged] at isClient
    obtain ⟨genuine, relays, pending, pipelined⟩ :=
      consistent.clients different isClient
    exact ⟨genuine, relays, pending, pipelined.congr unchanged
      (fun fd => confined.kept different) (fun fd => confined.new different)⟩
  servants := by
    intro fd other serves
    by_cases own : other = client
    · subst own
      have apart : fd ≠ other := by
        rintro rfl
        exact confined.client_serves_nobody _ serves
      have here : fd = remoteFd := by
        by_contra elsewhere
        rw [confined.same fd apart elsewhere] at serves
        exact elsewhere (confined.servant fd serves)
      subst here
      rcases (confined.remoteAfter apart).2 with absent | serving
      · rw [Entry.servant_of_none absent.1] at serves
        cases serves
      · exact ⟨serving.2.1, serving.2.2.1, serving.2.2.2.1⟩
    · have unchanged := confined.new own serves
      rw [unchanged] at serves
      obtain ⟨paired, known, requests, received, isClient⟩ :=
        consistent.servants serves
      have still : later other = entries other := by
        refine confined.same other own ?_
        rintro rfl
        exact confined.remote_not_client own requests received isClient
      rw [unchanged, still]
      exact ⟨paired, known, requests, received, isClient⟩
  unread := by
    intro fd nothing
    by_cases own : fd = client
    · subst own
      rcases confined.clientAfter with ⟨requests, received, isClient⟩ | gone
      · rw [isClient] at nothing
        rcases nothing with absent | ⟨other, connecting⟩
        · cases absent
        · cases connecting
      · exact gone.2.1
    · by_cases here : fd = remoteFd
      · subst here
        rcases (confined.remoteAfter own).2 with absent | serving
        · exact absent.2
        · obtain ⟨serves, _, _, _, fresh⟩ := serving
          rcases nothing with absent | ⟨other, connecting⟩
          · rw [Entry.servant_of_none absent] at serves
            cases serves
          · rw [Entry.servant, connecting] at serves
            cases serves
            exact fresh connecting
      · rw [confined.same fd own here] at nothing ⊢
        exact consistent.unread nothing
  ended := by
    intro fd notClient
    by_cases own : fd = client
    · subst own
      rcases confined.clientAfter with ⟨requests, received, isClient⟩ | gone
      · exact absurd isClient (notClient requests received)
      · exact gone.2.2
    · by_cases here : fd = remoteFd
      · subst here
        rw [(confined.remoteAfter own).1]
        exact consistent.ended (confined.remote_not_client own)
      · rw [confined.same fd own here] at notClient ⊢
        exact consistent.ended notClient

end Confined

/-- With the client itself, everything fits together. -/
theorem Others.consistent (others : Others app client entries)
    (own : ∀ requests received,
      (entries client).peer = some (.client requests received) →
        Genuine client requests ∧ ∃ relays pending,
          Pipelined app entries client requests received relays pending) :
    Consistent app entries := by
  have all : ∀ {fd requests received},
      (entries fd).peer = some (.client requests received) →
        Genuine fd requests ∧ ∃ relays pending,
          Pipelined app entries fd requests received relays pending := by
    intro fd requests received isClient
    by_cases same : fd = client
    · subst same
      exact own requests received isClient
    · exact others.clients same isClient
  refine ⟨all, ?_⟩
  intro busy
  exact ⟨fun _ => all, others.servants, others.unread, others.ended⟩

section Servants

variable (consistent : Consistent app entries)
include consistent

/-- A client has one connection at most. -/
theorem Consistent.servant_unique {fd : Fd}
    (serves : (entries remoteFd).servant = some client)
    (also : (entries fd).servant = some client) : fd = remoteFd := by
  have first := ((consistent.others client).servants serves).1
  have second := ((consistent.others client).servants also).1
  rw [first] at second
  exact (Option.some.inj second).symm

/-- The client of a connection has a request under way. -/
theorem Consistent.served (serving : (entries remoteFd).servant = some client) :
    ∃ requests received relays pending,
      (entries client).peer = some (.client requests received) ∧
      Genuine client requests ∧
      Pipelined app entries client requests received relays pending := by
  obtain ⟨_, _, requests, received, isClient⟩ :=
    (consistent.others client).servants serving
  obtain ⟨genuine, relays, pending, pipelined⟩ := consistent.clients isClient
  exact ⟨requests, received, relays, pending, isClient, genuine, pipelined⟩

/-- A connection that is being made is for the request that was read last. -/
theorem Consistent.connecting
    (serves : (entries remoteFd).peer = some (.connecting client)) :
    ∃ requests received relays sent request target,
      (entries client).peer = some (.client requests received) ∧
      Genuine client requests ∧
      Pipelined app entries client requests received relays
        (.connecting sent) ∧
      (entries client).info = some (request, target) ∧
      ∃ seen, app.onRequestUri seen sent.2 = (request, target) := by
  have serving : (entries remoteFd).servant = some client := by
    rw [Entry.servant, serves]
  obtain ⟨requests, received, relays, pending, isClient, genuine, pipelined⟩ :=
    consistent.served serving
  cases pipelined.holds with
  | idle state alone short => exact absurd serving (alone remoteFd)
  | connecting state other info asked =>
      exact ⟨requests, received, relays, _, _, _, isClient, genuine, pipelined,
        info, asked⟩
  | waiting state other =>
      have same := consistent.servant_unique serving
        (by rw [Entry.servant, other])
      rw [same, serves] at other
      cases other

/-- A connection to a provider is for the request that was forwarded last. -/
theorem Consistent.waiting {origin got : Bytes}
    (serves : (entries remoteFd).peer = some (.remote client origin got)) :
    ∃ requests received relays sent packet request target,
      (entries client).peer = some (.client requests received) ∧
      Genuine client requests ∧
      Pipelined app entries client requests received relays
        (.waiting sent packet) ∧
      (entries client).info = some (request, target) ∧
      (∃ seen, app.onRequestUri seen sent.2 = (request, target)) ∧
      request.forwardPacket target = some packet ∧
      (entries remoteFd).buffered.getD [] = got ∧
      ∃ read rest, parseResponse origin = .ok (some read, rest) := by
  have serving : (entries remoteFd).servant = some client := by
    rw [Entry.servant, serves]
  obtain ⟨requests, received, relays, pending, isClient, genuine, pipelined⟩ :=
    consistent.served serving
  cases pipelined.holds with
  | idle state alone short => exact absurd serving (alone remoteFd)
  | connecting state other =>
      have same := consistent.servant_unique serving
        (by rw [Entry.servant, other])
      rw [same, serves] at other
      cases other
  | waiting state other info asked printed kept short sound =>
      have same := consistent.servant_unique serving
        (by rw [Entry.servant, other])
      subst same
      rw [serves] at other
      cases other
      exact ⟨requests, received, relays, _, _, _, _, isClient, genuine,
        pipelined, info, asked, printed, kept, sound⟩

end Servants

section Changes

variable (consistent : Consistent app entries)
include consistent

/-- A number that is not in use is taken by a client. -/
theorem Consistent.accepts (vacant : (entries client).peer = none)
    (genuine : Genuine client requests)
    (changed : ∀ fd, later fd = if fd = client then
      { entries client with
        peer := some (.client requests [])
        state := some .parseRequest
        course := [] }
      else entries fd) :
    Consistent app later := by
  have own := changed client
  rw [if_pos rfl] at own
  have others := consistent.others client
  have alone : ∀ fd, (entries fd).servant ≠ some client := by
    intro fd serves
    obtain ⟨_, _, requests, received, isClient⟩ := others.servants serves
    rw [vacant] at isClient
    cases isClient
  have isClient : (later client).peer = some (.client requests []) := by
    rw [own]
  have confined : Confined app client client entries later :=
    { same := by
        intro fd different _
        rw [changed, if_neg different]
      servant := fun fd serves => absurd serves (alone fd)
      clientBefore := Entry.servant_of_none vacant
      remoteBefore := fun different => absurd rfl different
      clientAfter := .inl ⟨requests, [], isClient⟩
      remoteAfter := fun different => absurd rfl different }
  have unread := others.unread (.inl vacant)
  refine (confined.others others).consistent ?_
  intro requests' received' found
  have same := isClient.symm.trans found
  cases same
  refine ⟨genuine, [], .idle, ?_, ?_, List.nil_prefix, ?_, List.nil_prefix, ?_⟩
  · rw [own]
    rfl
  · intro relay member
    cases member
  · rw [own, unread]
    rfl
  · refine .idle (by rw [own]) ?_ ?_
    · intro fd serves
      by_cases same : fd = client
      · subst same
        exact confined.client_serves_nobody fd serves
      · rw [changed, if_neg same] at serves
        exact alone fd serves
    · rw [own, unread]
      exact Http.parseRequest_nil client

/-- The connection of a client with a pending request. -/
theorem Consistent.servant_of_busy
    (isClient : (entries client).peer = some (.client requests received))
    (busy : (entries client).state = some .parseResponse) :
    ∃ remoteFd, (entries remoteFd).servant = some client := by
  obtain ⟨_, relays, pending, pipelined⟩ := consistent.clients isClient
  cases pipelined.holds with
  | idle state =>
      rw [busy] at state
      cases state
  | connecting _ serves => exact ⟨_, by rw [Entry.servant, serves]⟩
  | waiting _ serves => exact ⟨_, by rw [Entry.servant, serves]⟩

/-- The connection for a client stays when its entry changes. -/
theorem Consistent.confined
    (serves : (entries remoteFd).servant = some client)
    (isClient : (entries client).peer = some (.client requests received))
    (still : ∃ requests received,
      (later client).peer = some (.client requests received))
    (paired : (later client).c2r = (entries client).c2r)
    (serving : (later remoteFd).servant = some client)
    (known : (later remoteFd).r2c = (entries remoteFd).r2c)
    (past : (later remoteFd).course = (entries remoteFd).course)
    (fresh : (later remoteFd).peer = some (.connecting client) →
      (later remoteFd).buffered = none)
    (same : ∀ fd, fd ≠ client → fd ≠ remoteFd → later fd = entries fd) :
    Confined app client remoteFd entries later := by
  obtain ⟨pairedBefore, knownBefore, _⟩ :=
    (consistent.others client).servants serves
  exact
    { same
      servant := fun fd => consistent.servant_unique serves
      clientBefore := Entry.servant_of_client isClient
      remoteBefore := fun _ => .inl serves
      clientAfter := .inl still
      remoteAfter := fun _ => ⟨past, .inr ⟨serving, paired.trans pairedBefore,
        known.trans knownBefore, still, fresh⟩⟩ }

/-- What comes before the response waits in the buffer. -/
theorem Consistent.hears {piece : Bytes}
    (isClient : (entries client).peer = some (.client requests received))
    (busy : (entries client).state = some .parseResponse)
    (within : received ++ piece <+: (requests.map Prod.fst).flatten)
    (changed : ∀ fd, later fd = if fd = client then
      { entries client with
        peer := some (.client requests (received ++ piece))
        buffered := some ((entries client).buffered.getD [] ++ piece) }
      else entries fd) :
    Consistent app later := by
  have own := changed client
  rw [if_pos rfl] at own
  obtain ⟨remoteFd, serves⟩ := consistent.servant_of_busy isClient busy
  have apart : remoteFd ≠ client := by
    rintro rfl
    exact Entry.not_client_of_servant serves isClient
  have here : later remoteFd = entries remoteFd := by
    rw [changed, if_neg apart]
  have still : (later client).peer =
      some (.client requests (received ++ piece)) := by
    rw [own]
  have confined : Confined app client remoteFd entries later := by
    refine consistent.confined serves isClient ⟨_, _, still⟩ (by rw [own])
      (by rwa [here]) (by rw [here]) (by rw [here]) ?_ ?_
    · rw [here]
      intro connecting
      exact (consistent.others client).unread (.inr ⟨client, connecting⟩)
    · intro fd different _
      rw [changed, if_neg different]
  refine (confined.others (consistent.others client)).consistent ?_
  intro requests' received' found
  have same := still.symm.trans found
  cases same
  obtain ⟨genuine, relays, pending, pipelined⟩ := consistent.clients isClient
  refine ⟨genuine, relays, pending, ?_, pipelined.relayed, pipelined.order, ?_,
    within, ?_⟩
  · rw [own]
    exact pipelined.course
  · rw [own, pipelined.bytes]
    simp
  · cases pipelined.holds with
    | idle state =>
        rw [busy] at state
        cases state
    | connecting state connects info asked =>
        have same := consistent.servant_unique serves
          (by rw [Entry.servant, connects])
        subst same
        exact .connecting (by rwa [own]) (by rwa [here]) (by rwa [own]) asked
    | waiting state connects info asked printed kept short sound =>
        have same := consistent.servant_unique serves
          (by rw [Entry.servant, connects])
        subst same
        exact .waiting (by rwa [own]) (by rwa [here]) (by rwa [own]) asked
          printed (by rwa [here]) short sound

/-- The request goes to the provider. -/
theorem Consistent.connects {request : HttpRequest}
    {target : HttpProviderAddress} {packet origin : Bytes}
    (serves : (entries remoteFd).peer = some (.connecting client))
    (info : (entries client).info = some (request, target))
    (printed : request.forwardPacket target = some packet)
    (sound : ∃ read rest, parseResponse origin = .ok (some read, rest))
    (changed : ∀ fd, later fd = if fd = client then
      { entries client with
        course := (entries client).course ++ [.forwarded client packet] }
      else if fd = remoteFd then
        { entries remoteFd with peer := some (.remote client origin []) }
      else entries fd) :
    Consistent app later := by
  obtain ⟨requests, received, relays, sent, request', target', isClient, genuine,
    pipelined, info', asked⟩ := consistent.connecting serves
  have same := info.symm.trans info'
  cases same
  have own := changed client
  rw [if_pos rfl] at own
  have serving : (entries remoteFd).servant = some client := by
    rw [Entry.servant, serves]
  have apart : remoteFd ≠ client := by
    rintro rfl
    exact Entry.not_client_of_servant serving isClient
  have here := changed remoteFd
  rw [if_neg apart, if_pos rfl] at here
  have still : (later client).peer = some (.client requests received) := by
    rw [own]
    exact isClient
  have connected : (later remoteFd).peer = some (.remote client origin []) := by
    rw [here]
  have confined : Confined app client remoteFd entries later := by
    refine consistent.confined serving isClient ⟨_, _, still⟩ (by rw [own])
      (by rw [Entry.servant, connected]) (by rw [here]) (by rw [here]) ?_ ?_
    · rw [connected]
      exact fun impossible => nomatch impossible
    · intro fd different elsewhere
      rw [changed, if_neg different, if_neg elsewhere]
  refine (confined.others (consistent.others client)).consistent ?_
  intro requests' received' found
  have same := still.symm.trans found
  cases same
  have unread := (consistent.others client).unread (.inr ⟨client, serves⟩)
  refine ⟨genuine, relays, .waiting sent packet, ?_, pipelined.relayed,
    pipelined.order, ?_, pipelined.within, ?_⟩
  · rw [own]
    simp [pipelined.course, Pending.course]
  · rw [own]
    exact pipelined.bytes
  · cases pipelined.holds with
    | connecting state connects info'' asked' =>
        refine .waiting (by rwa [own]) connected (by rwa [own]) asked printed ?_
          ?_ sound
        · rw [here, unread]
          rfl
        · rfl

/-- A part of the response waits in the buffer. -/
theorem Consistent.receives {origin got piece : Bytes}
    (serves : (entries remoteFd).peer = some (.remote client origin got))
    (short : parseResponse (got ++ piece) = .error .ag)
    (changed : ∀ fd, later fd = if fd = remoteFd then
      { entries remoteFd with
        peer := some (.remote client origin (got ++ piece))
        buffered := some (got ++ piece) }
      else entries fd) :
    Consistent app later := by
  obtain ⟨requests, received, relays, sent, packet, request, target, isClient,
    genuine, pipelined, info, asked, printed, kept, sound⟩ :=
    consistent.waiting serves
  have serving : (entries remoteFd).servant = some client := by
    rw [Entry.servant, serves]
  have apart : client ≠ remoteFd := by
    rintro rfl
    exact Entry.not_client_of_servant serving isClient
  have own := changed client
  rw [if_neg apart] at own
  have here := changed remoteFd
  rw [if_pos rfl] at here
  have still : (later client).peer = some (.client requests received) := by
    rwa [own]
  have connected : (later remoteFd).peer =
      some (.remote client origin (got ++ piece)) := by
    rw [here]
  have confined : Confined app client remoteFd entries later := by
    refine consistent.confined serving isClient ⟨_, _, still⟩ (by rw [own])
      (by rw [Entry.servant, connected]) (by rw [here]) (by rw [here]) ?_ ?_
    · rw [connected]
      exact fun impossible => nomatch impossible
    · intro fd _ elsewhere
      rw [changed, if_neg elsewhere]
  refine (confined.others (consistent.others client)).consistent ?_
  intro requests' received' found
  have same := still.symm.trans found
  cases same
  refine ⟨genuine, relays, .waiting sent packet, ?_, pipelined.relayed,
    pipelined.order, ?_, pipelined.within, ?_⟩
  · rw [own]
    exact pipelined.course
  · rw [own]
    exact pipelined.bytes
  · cases pipelined.holds with
    | waiting state connects info' asked' printed' kept' short' sound' =>
        exact .waiting (by rwa [own]) connected (by rwa [own]) asked printed
          (by rw [here]; rfl) short sound

/-- A client goes away with the connection that is for it. -/
theorem Consistent.leaves {origin got : Bytes} (occurrences : List Occurrence)
    (serves : (entries remoteFd).peer = some (.remote client origin got))
    (ended : Ended app client ((entries client).course ++ occurrences))
    (changed : ∀ fd, later fd =
      Service.without client remoteFd occurrences entries fd) :
    Consistent app later := by
  have serving : (entries remoteFd).servant = some client := by
    rw [Entry.servant, serves]
  obtain ⟨_, _, requests, received, isClient⟩ :=
    (consistent.others client).servants serving
  have own := changed client
  rw [Service.without, if_pos rfl] at own
  have confined : Confined app client remoteFd entries later :=
    { same := by
        intro fd different elsewhere
        rw [changed, Service.without, if_neg different, if_neg elsewhere]
      servant := fun fd => consistent.servant_unique serving
      clientBefore := Entry.servant_of_client isClient
      remoteBefore := fun _ => .inl serving
      clientAfter := by
        rw [own]
        exact .inr ⟨rfl, rfl, ended⟩
      remoteAfter := by
        intro apart
        rw [changed, Service.without, if_neg apart, if_pos rfl]
        exact ⟨rfl, .inl ⟨rfl, rfl⟩⟩ }
  refine (confined.others (consistent.others client)).consistent ?_
  intro requests' received' found
  rw [own] at found
  cases found

end Changes

end HttpGateway

end Universe
