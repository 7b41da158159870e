import Universe.HttpGateway.Consistency

/-!
# The gateway answers the requests of a client one after the other

A client may send the next requests before the response to the last one.  The
gateway forwards them in their order, each after the response to the one
before it, whatever the events of its clients and of the providers are.
-/

namespace Universe

open Incremental
open Std (ExtTreeMap)

namespace HttpGateway

variable {app : Application} {entries later : Fd → Entry} {client remoteFd : Fd}
  {requests : List (Bytes × HttpRequest)} {received : Bytes}

/-- A client whose requests are all answered, with a message at hand. -/
structure Taking (s : Service) (app : Application) (client : Fd)
    (requests : List (Bytes × HttpRequest)) (received piece : Bytes)
    (relays : List Relay) : Prop where
  isClient : (s.entry client).peer = some (.client requests received)
  genuine : Genuine client requests
  course : (s.entry client).course = relays.flatMap (Relay.course client)
  relayed : ∀ relay ∈ relays, relay.Sound app
  order : relays.map Relay.sent <+: requests
  bytes : received = ((relays.map Relay.sent).map Prod.fst).flatten ++
    ((s.entry client).buffered.getD [] ++ piece)
  within : received <+: (requests.map Prod.fst).flatten
  state : (s.entry client).state = some .parseRequest
  alone : ∀ fd, (s.entry fd).servant ≠ some client

/-- The message is what comes next of the requests of the client. -/
theorem Taking.message {s : Service} {piece : Bytes} {relays : List Relay}
    (taking : Taking s app client requests received piece relays) :
    Http.parseRequest client ((s.entry client).buffered.getD [] ++ piece) =
        .error .ag ∨
      ∃ sent rest, relays.map Relay.sent ++ [sent] <+: requests ∧
        (s.entry client).buffered.getD [] ++ piece = sent.1 ++ rest ∧
        Http.parseRequest client ((s.entry client).buffered.getD [] ++ piece) =
          .ok (sent.2, rest) := by
  obtain ⟨coming, rfl⟩ := taking.order
  have begins : (s.entry client).buffered.getD [] ++ piece <+:
      (coming.map Prod.fst).flatten := by
    have within := taking.within
    rw [taking.bytes, List.map_append, List.flatten_append] at within
    exact (List.prefix_append_right_inj _).mp within
  cases coming with
  | nil =>
      have empty : (s.entry client).buffered.getD [] ++ piece = [] :=
        List.prefix_nil.mp begins
      rw [empty]
      exact .inl (Http.parseRequest_nil client)
  | cons sent coming =>
      have whole := taking.genuine sent (by simp)
      rw [List.map_cons, List.flatten_cons] at begins
      rcases (Http.stable_parseRequest client).of_sequence whole begins with
        short | ⟨rest, same, _, parsed⟩
      · exact .inl short
      · refine .inr ⟨sent, rest, ?_, same, parsed⟩
        refine (List.prefix_append_right_inj _).mpr ?_
        exact ⟨coming, rfl⟩

/-- Nothing was written to a connection that is not open. -/
def Service.Straight (s : Service) : Prop :=
  ∀ fd data, Occurrence.stray fd data ∉ s.trace

section Messages

variable {s : Service} {piece : Bytes} {relays : List Relay}
  {close : Fd → Service.M Bool}

/-- A message that is kept leaves the client where it is. -/
theorem Taking.keeps (taking : Taking s app client requests received piece relays)
    (others : Others app client s.entry)
    (short : Http.parseRequest client
      ((s.entry client).buffered.getD [] ++ piece) = .error .ag)
    (buffered : Option Bytes)
    (kept : buffered.getD [] = (s.entry client).buffered.getD [] ++ piece)
    (entries : ∀ fd, later fd = if fd = client then
      { s.entry client with buffered }
      else s.entry fd) :
    Consistent app later := by
  have own : later client = { s.entry client with buffered } := by
    rw [entries, if_pos rfl]
  have confined : Confined app client client s.entry later :=
    { same := by
        intro fd different _
        rw [entries, if_neg different]
      servant := fun fd serves => absurd serves (taking.alone fd)
      clientBefore := Entry.servant_of_client taking.isClient
      remoteBefore := fun different => absurd rfl different
      clientAfter := by
        rw [own]
        exact .inl ⟨requests, received, taking.isClient⟩
      remoteAfter := fun different => absurd rfl different }
  refine (confined.others others).consistent ?_
  intro requests' received' isClient
  rw [own] at isClient
  have same := taking.isClient.symm.trans isClient
  cases same
  refine ⟨taking.genuine, relays, .idle, ?_, taking.relayed, ?_, ?_,
    taking.within, ?_⟩
  · rw [own]
    simpa [Pending.course] using taking.course
  · simpa [Pending.sent] using taking.order
  · rw [own, kept]
    simpa [Pending.sent] using taking.bytes
  · refine .idle ?_ ?_ ?_
    · rw [own]
      exact taking.state
    · intro fd serves
      by_cases same : fd = client
      · subst same
        rw [own] at serves
        exact taking.alone fd serves
      · rw [entries, if_neg same] at serves
        exact taking.alone fd serves
    · rw [own, kept]
      exact short

/-- A whole request becomes the pending one. -/
theorem Taking.takes (taking : Taking s app client requests received piece relays)
    (others : Others app client s.entry) (free : s.Free s.next)
    {sent : Bytes × HttpRequest} {rest : Bytes}
    (order : relays.map Relay.sent ++ [sent] <+: requests)
    (whole : (s.entry client).buffered.getD [] ++ piece = sent.1 ++ rest)
    (entries : ∀ fd, later fd = if fd = client then
      { peer := s.peers[client]?
        buffered := some rest
        state := some .parseResponse
        c2r := some s.next
        r2c := s.tables.r2c[client]?
        info := some (app.onRequestUri s.trace sent.2)
        course := (s.entry client).course ++ [.requested client sent.2] }
      else if fd = s.next then
        { s.entry s.next with
          peer := some (.connecting client)
          r2c := some client }
      else s.entry fd) :
    Consistent app later := by
  have apart : s.next ≠ client := Service.ne_of_free free taking.isClient
  have own := entries client
  rw [if_pos rfl] at own
  have new := entries s.next
  rw [if_neg apart, if_pos rfl] at new
  have isClient : (later client).peer = some (.client requests received) := by
    rw [own]
    exact taking.isClient
  have serves : (later s.next).peer = some (.connecting client) := by
    rw [new]
  have vacant : (s.entry s.next).buffered = none := others.unread (.inl free.2)
  have confined : Confined app client s.next s.entry later :=
    { same := by
        intro fd different elsewhere
        rw [entries, if_neg different, if_neg elsewhere]
      servant := fun fd serves => absurd serves (taking.alone fd)
      clientBefore := Entry.servant_of_client taking.isClient
      remoteBefore := fun _ => .inr free.2
      clientAfter := .inl ⟨requests, received, isClient⟩
      remoteAfter := by
        intro _
        refine ⟨by rw [new], .inr ⟨?_, by rw [own], by rw [new],
          ⟨requests, received, isClient⟩, fun _ => ?_⟩⟩
        · rw [Entry.servant, serves]
        · rw [new]
          exact vacant }
  refine (confined.others others).consistent ?_
  intro requests' received' found
  have same := isClient.symm.trans found
  cases same
  refine ⟨taking.genuine, relays, .connecting sent, ?_, taking.relayed, order, ?_,
    taking.within, ?_⟩
  · rw [own]
    simp [taking.course, Pending.course]
  · have bytes := taking.bytes
    rw [whole] at bytes
    rw [own, bytes]
    simp [Pending.sent]
  · refine .connecting (by rw [own]) serves (by rw [own]) ⟨s.trace, rfl⟩

/-- A message of a client that waits for nothing. -/
theorem Taking.consistent
    (taking : Taking s app client requests received piece relays)
    (others : Others app client s.entry) (free : s.Free s.next)
    (straight : s.Straight) :
    ∃ after, onMessage (Service.hostWith app close) client piece s =
        .ok () after ∧
      Consistent app after.entry ∧ after.Straight := by
  rcases taking.message with short | ⟨sent, rest, order, whole, parsed⟩
  · obtain ⟨after, returned, trace, entries⟩ :=
      Service.onMessage_kept app close piece (.inr short)
    refine ⟨after, returned, taking.keeps others short _ rfl entries, ?_⟩
    intro fd data
    rw [trace]
    exact straight fd data
  · have apart : s.next ≠ client := Service.ne_of_free free taking.isClient
    have valid : s.next ≠ -1 := by
      intro same
      have nonnegative := free.1
      rw [same] at nonnegative
      exact absurd nonnegative (by decide)
    obtain ⟨after, returned, trace, entries⟩ :=
      Service.onMessage_forwards app close taking.state parsed apart valid
    refine ⟨after, returned, taking.takes others free order whole entries, ?_⟩
    intro fd data
    rw [trace]
    simpa using straight fd data

end Messages

/-- The response is written, and the connection to the provider is gone. -/
theorem Consistent.answers (consistent : Consistent app entries)
    {between : Service} {origin got : Bytes}
    {read response : HttpResponse} {rest : Bytes} {seen : List Occurrence}
    (serves : (entries remoteFd).peer = some (.remote client origin got))
    (parsed : parseResponse origin = .ok (some read, rest))
    (handled : ∀ {request target}, (entries client).info = some (request, target) →
      (app.onResponse seen request read).2 = response)
    (changed : ∀ fd, between.entry fd = if fd = client then
      { entries client with
        buffered := none
        state := some .parseRequest
        info := none
        course := (entries client).course ++
          [.responded client response.toBytes] }
      else if fd = remoteFd then
        { entries remoteFd with
          peer := none
          buffered := none
          r2c := none }
      else entries fd) :
    Others app client between.entry ∧ ∃ requests received relays,
      Taking between app client requests received
        ((entries client).buffered.getD []) relays := by
  obtain ⟨requests, received, relays, sent, packet, request, target, isClient,
    genuine, pipelined, info, asked, printed, kept, sound⟩ :=
    consistent.waiting serves
  have serving : (entries remoteFd).servant = some client := by
    rw [Entry.servant, serves]
  have own := changed client
  rw [if_pos rfl] at own
  have still : (between.entry client).peer =
      some (.client requests received) := by
    rw [own]
    exact isClient
  have confined : Confined app client remoteFd entries between.entry :=
    { same := by
        intro fd different elsewhere
        rw [changed, if_neg different, if_neg elsewhere]
      servant := fun fd => consistent.servant_unique serving
      clientBefore := Entry.servant_of_client isClient
      remoteBefore := fun _ => .inl serving
      clientAfter := .inl ⟨requests, received, still⟩
      remoteAfter := by
        intro apart
        rw [changed, if_neg apart, if_pos rfl]
        exact ⟨rfl, .inl ⟨rfl, rfl⟩⟩ }
  refine ⟨confined.others (consistent.others client), requests, received,
    relays ++ [⟨sent, request, target, packet, origin, response⟩], ?_⟩
  refine ⟨still, genuine, ?_, ?_, ?_, ?_, pipelined.within, by rw [own], ?_⟩
  · rw [own]
    simp [pipelined.course, Pending.course, Relay.course]
  · intro relay member
    rcases List.mem_append.mp member with earlier | last
    · exact pipelined.relayed relay earlier
    · cases List.mem_singleton.mp last
      exact ⟨asked, printed, seen, read, rest, parsed, handled info⟩
  · simpa [Pending.sent] using pipelined.order
  · rw [own, pipelined.bytes]
    simp [Pending.sent]
  · intro fd serves'
    have unchanged : fd = remoteFd := by
      by_contra elsewhere
      have apart : fd ≠ client := by
        rintro rfl
        exact confined.client_serves_nobody fd serves'
      rw [changed, if_neg apart, if_neg elsewhere] at serves'
      exact elsewhere (consistent.servant_unique serving serves')
    have apart : remoteFd ≠ client := by
      rintro rfl
      exact Entry.not_client_of_servant serving isClient
    rw [unchanged, changed, if_neg apart, if_pos rfl] at serves'
    cases serves'

namespace Service

/-- The events after which the gateway is gone: the packet cannot be printed,
or the handlers have left a version that is too short. -/
def Breaks (app : Application) (s : Service) : Event → Prop
  | .connected remoteFd _ => ∃ client request target,
      s.peers[remoteFd]? = some (.connecting client) ∧
      s.tables.forwardInfo[client]? = some (request, target) ∧
      request.forwardPacket target = none
  | .remoteMessage remoteFd _ _ => ∃ client origin got request target response,
      s.peers[remoteFd]? = some (.remote client origin got) ∧
      s.tables.forwardInfo[client]? = some (request, target) ∧
      Http.verdict (app.onResponse s.trace request response).1 = .crashed
  | _ => False

/-- An event is dealt with, and everything still fits together. -/
def Progress (app : Application) (event : Event) (s : Service) : Prop :=
  ∃ after, perform app event s = .ok () after ∧
    Consistent app after.entry ∧ after.Straight

theorem two_peers {s : Service} {first second : Peer}
    (one : s.peers[client]? = some first)
    (other : s.peers[remoteFd]? = some second) (apart : client ≠ remoteFd) :
    ∃ depth, s.peers.size = depth + 2 := by
  have contained : s.peers.contains client = true := by
    rw [ExtTreeMap.contains_eq_isSome_getElem?, one]
    rfl
  have left : (s.peers.erase client).size ≠ 0 := by
    intro none
    have empty := ExtTreeMap.eq_empty_iff_size_eq_zero.mpr none
    have found : (s.peers.erase client)[remoteFd]? = some second := by
      simp [ExtTreeMap.getElem?_erase, apart, other]
    rw [empty] at found
    simp at found
  have fewer := ExtTreeMap.size_erase (t := s.peers) (k := client)
  rw [if_pos contained] at fewer
  exact ⟨s.peers.size - 2, by omega⟩

/-- The process ends with an event. -/
def Stops (app : Application) (event : Event) (s : Service) : Prop :=
  Breaks app s event ∧ ∃ stopped, perform app event s = .error () stopped

/-- The gateway has taken what the provider sent out of the buffer. -/
structure Told (client remoteFd : Fd) (origin more : Bytes) (s told : Service) :
    Prop where
  entry : ∀ fd, told.entry fd = if fd = remoteFd then
    { s.entry remoteFd with
      peer := some (.remote client origin more)
      buffered := none }
    else s.entry fd
  past : told.trace = s.trace

theorem Told.own {s told : Service} {origin more : Bytes}
    (moved : Told client remoteFd origin more s told)
    (apart : client ≠ remoteFd) : told.entry client = s.entry client := by
  rw [moved.entry, if_neg apart]

theorem Told.connection {s told : Service} {origin more : Bytes}
    (moved : Told client remoteFd origin more s told) :
    told.entry remoteFd = { s.entry remoteFd with
      peer := some (.remote client origin more)
      buffered := none } := by
  rw [moved.entry, if_pos rfl]

section Steps

variable {s : Service} (consistent : Consistent app s.entry)
  (straight : s.Straight)
include consistent straight

theorem progress_accept (allowed : s.Allows (.accept client requests)) :
    Progress app (.accept client requests) s := by
  obtain ⟨⟨_, vacant⟩, genuine⟩ := allowed
  refine ⟨{ (s.setPeer client (.client requests [])).record
    (.accepted client) with
      stateful := s.stateful.setState client .parseRequest }, rfl,
    consistent.accepts vacant genuine ?_, ?_⟩
  · intro fd
    by_cases same : fd = client
    · subst same
      simp [entry, setPeer, record, course]
    · have other : ¬ client = fd := fun equal => same equal.symm
      simp [entry, setPeer, record, course, Occurrence.client?, same, other,
        ExtTreeMap.getElem?_insert]
  · intro fd data
    simpa [record, setPeer] using straight fd data

theorem progress_message {piece : Bytes} {next : Fd}
    (allowed : s.Allows (.message client piece next)) :
    Progress app (.message client piece next) s := by
  obtain ⟨free, requests, received, isClient, within⟩ := allowed
  obtain ⟨genuine, relays, pending, pipelined⟩ := consistent.clients isClient
  have here : perform app (.message client piece next) s =
      onMessage (host app s) client piece
        { s.setPeer client (.client requests (received ++ piece)) with next } := by
    simp only [perform, Stepwise.get_bind, isClient, Stepwise.modify_bind]
  have moved : ∀ fd, ({ s.setPeer client (.client requests (received ++ piece))
      with next } : Service).entry fd = if fd = client then
        { s.entry client with
          peer := some (.client requests (received ++ piece)) }
        else s.entry fd := by
    intro fd
    by_cases same : fd = client
    · subst same
      simp [entry, setPeer]
    · have other : ¬ client = fd := fun equal => same equal.symm
      simp [entry, setPeer, same, other, ExtTreeMap.getElem?_insert]
  have own := moved client
  rw [if_pos rfl] at own
  unfold Progress
  rw [here]
  by_cases busy : (s.entry client).state = some .parseResponse
  · -- The response to the last request is not there yet.
    obtain ⟨after, returned, trace, entries⟩ := onMessage_kept app
      (closing app s.peers.size) piece (s := { s.setPeer client
        (.client requests (received ++ piece)) with next }) (.inl busy)
    refine ⟨after, returned, consistent.hears isClient busy within ?_, ?_⟩
    · intro fd
      rw [entries]
      by_cases same : fd = client
      · rw [if_pos same, if_pos same, own]
        rfl
      · rw [if_neg same, if_neg same, moved, if_neg same]
    · intro fd data
      rw [trace]
      exact straight fd data
  · cases pipelined.holds with
    | connecting state => exact absurd state busy
    | waiting state => exact absurd state busy
    | idle state alone short =>
        have confined : Confined app client client s.entry
            ({ s.setPeer client (.client requests (received ++ piece))
              with next } : Service).entry :=
          { same := by
              intro fd different _
              rw [moved, if_neg different]
            servant := fun fd serves => absurd serves (alone fd)
            clientBefore := Entry.servant_of_client isClient
            remoteBefore := fun different => absurd rfl different
            clientAfter := by
              rw [own]
              exact .inl ⟨_, _, rfl⟩
            remoteAfter := fun different => absurd rfl different }
        have taking : Taking { s.setPeer client
            (.client requests (received ++ piece)) with next } app client
              requests (received ++ piece) piece relays := by
          refine ⟨by rw [own], genuine, ?_, pipelined.relayed, ?_, ?_, within,
            ?_, ?_⟩
          · rw [own]
            simpa [Pending.course] using pipelined.course
          · simpa [Pending.sent] using pipelined.order
          · rw [own, pipelined.bytes]
            simp [Pending.sent]
          · rw [own]
            exact state
          · intro fd serves
            by_cases same : fd = client
            · subst same
              exact confined.client_serves_nobody fd serves
            · rw [moved, if_neg same] at serves
              exact alone fd serves
        refine taking.consistent (confined.others (consistent.others client)) ?_
          straight
        refine ⟨free.1, ?_⟩
        have apart : next ≠ client := ne_of_free free isClient
        have unchanged := congrArg Entry.peer (moved next)
        rw [if_neg apart] at unchanged
        exact unchanged.trans free.2

theorem progress_connected {origin : Bytes}
    (allowed : s.Allows (.connected remoteFd origin)) :
    Progress app (.connected remoteFd origin) s ∨
      Stops app (.connected remoteFd origin) s := by
  obtain ⟨⟨client, serves⟩, sound⟩ := allowed
  obtain ⟨requests, received, relays, sent, request, target, isClient, genuine,
    pipelined, info, asked⟩ := consistent.connecting serves
  have here : perform app (.connected remoteFd origin) s =
      onRemoteConnect (host app s) remoteFd .ok client
        (s.setPeer remoteFd (.remote client origin [])) := by
    simp only [perform, Stepwise.get_bind, serves, Stepwise.modify_bind]
  cases printed : request.forwardPacket target with
  | none =>
      have stopped : onRemoteConnect (host app s) remoteFd .ok client
          (s.setPeer remoteFd (.remote client origin [])) = _ :=
        Environment.onRemoteConnect_stops info printed
      exact .inr ⟨⟨client, request, target, serves, info, printed⟩, _,
        here.trans stopped⟩
  | some packet =>
      left
      have connected : (s.setPeer remoteFd (.remote client origin [])).peers[
          remoteFd]? = some (.remote client origin []) := by
        simp [setPeer]
      have apart : client ≠ remoteFd :=
        ne_of_peers isClient serves Peer.noConfusion
      obtain ⟨after, returned, trace, entries⟩ := onRemoteConnect_writes app
        (closing app s.peers.size)
        (s := s.setPeer remoteFd (.remote client origin [])) info printed
        connected
      refine ⟨after, here.trans returned,
        consistent.connects serves info printed sound ?_, ?_⟩
      · intro fd
        rw [entries]
        by_cases same : fd = client
        · subst same
          simp [entry, setPeer, ExtTreeMap.getElem?_insert, Ne.symm apart]
        · by_cases same' : fd = remoteFd
          · subst same'
            simp [entry, setPeer, same]
          · have other : ¬ remoteFd = fd := fun equal => same' equal.symm
            simp [entry, setPeer, same, same', other,
              ExtTreeMap.getElem?_insert]
      · intro fd data
        rw [trace]
        simpa [setPeer] using straight fd data

omit consistent straight in
/-- The gateway has taken the whole response out of the buffer. -/
theorem Told.answered_entry {told between : Service} {origin more : Bytes}
    {data : Bytes} (apart : client ≠ remoteFd)
    (moved : Told client remoteFd origin more s told)
    (entries : ∀ fd, between.entry fd = if fd = client then
      { told.entry client with
        buffered := none
        state := some .parseRequest
        info := none
        course := course client told.trace ++ [.responded client data] }
      else if fd = remoteFd then
        { told.entry remoteFd with
          peer := none
          buffered := none
          r2c := none }
      else told.entry fd) (fd : Fd) :
    between.entry fd = if fd = client then
      { s.entry client with
        buffered := none
        state := some .parseRequest
        info := none
        course := (s.entry client).course ++ [.responded client data] }
      else if fd = remoteFd then
        { s.entry remoteFd with
          peer := none
          buffered := none
          r2c := none }
      else s.entry fd := by
  rw [entries]
  by_cases same : fd = client
  · rw [if_pos same, if_pos same, moved.own apart, moved.past]
    rfl
  · by_cases here : fd = remoteFd
    · rw [if_neg same, if_pos here, if_neg same, if_pos here, moved.connection]
    · rw [if_neg same, if_neg here, if_neg same, if_neg here, moved.entry,
        if_neg here]

/-- A client that is not closed goes on with its next request. -/
theorem progress_open {told : Service} {depth : Nat} {origin got more rest : Bytes}
    {read response : HttpResponse} {request left : HttpRequest}
    {target : HttpProviderAddress}
    (serves : s.peers[remoteFd]? = some (.remote client origin got))
    (parsed : parseResponse origin = .ok (some read, rest))
    (moved : Told client remoteFd origin more s told)
    (free : s.Free told.next)
    (info : s.tables.forwardInfo[client]? = some (request, target))
    (handled : app.onResponse s.trace request read = (left, response))
    (stays : Http.verdict left = .opened) :
    ∃ after, respond (hostWith app (closing app (depth + 2))) remoteFd client
        read told = .ok () after ∧
      Consistent app after.entry ∧ after.Straight := by
  obtain ⟨_, _, requests, received, isClient⟩ :=
    (consistent.others client).servants (Entry.servant_of_remote serves)
  have apart : client ≠ remoteFd :=
    ne_of_peers isClient serves Peer.noConfusion
  have own := moved.own apart
  have buffered : told.bufferable[client]? = s.bufferable[client]? :=
    congrArg Entry.buffered own
  have handled' := handled
  rw [← moved.past] at handled'
  obtain ⟨between, goes, trace, next, entries⟩ := respond_open (depth + 1)
    ((congrArg Entry.info own).trans info)
    ((congrArg Entry.peer own).trans isClient)
    (congrArg Entry.peer moved.connection) handled' stays
  have changed := moved.answered_entry apart entries
  have responder : ∀ {request target},
      (s.entry client).info = some (request, target) →
        (app.onResponse s.trace request read).2 = response := by
    intro request' target' info'
    cases info.symm.trans info'
    rw [handled]
  obtain ⟨others, requests', received', relays', taking⟩ :=
    consistent.answers serves parsed responder changed
  have vacant : between.Free between.next := by
    rw [next]
    refine ⟨free.1, ?_⟩
    have notClient : told.next ≠ client := ne_of_free free isClient
    have notRemote : told.next ≠ remoteFd := ne_of_free free serves
    have unchanged := congrArg Entry.peer (changed told.next)
    rw [if_neg notClient, if_neg notRemote] at unchanged
    exact unchanged.trans free.2
  have clean : between.Straight := by
    intro fd data
    rw [trace, moved.past]
    simpa using straight fd data
  rcases goes with message | ⟨nothing, returned⟩
  · rw [message, buffered]
    exact taking.consistent others vacant clean
  · refine ⟨between, returned, ?_, clean⟩
    rw [buffered] at nothing
    have piece : (s.entry client).buffered.getD [] = [] := by
      rw [Service.entry, nothing]
      rfl
    have empty : (between.entry client).buffered = none := by
      rw [changed, if_pos rfl]
    rw [piece] at taking
    refine taking.keeps others ?_ none ?_ ?_
    · rw [empty]
      exact Http.parseRequest_nil client
    · rw [empty]
      rfl
    · intro fd
      by_cases same : fd = client
      · rw [if_pos same, same, ← empty]
      · rw [if_neg same]

/-- A client that is closed has got its response. -/
theorem progress_closed {told : Service} {depth : Nat}
    {origin got more rest : Bytes} {read response : HttpResponse}
    {request left : HttpRequest} {target : HttpProviderAddress}
    (serves : s.peers[remoteFd]? = some (.remote client origin got))
    (parsed : parseResponse origin = .ok (some read, rest))
    (moved : Told client remoteFd origin more s told)
    (info : s.tables.forwardInfo[client]? = some (request, target))
    (handled : app.onResponse s.trace request read = (left, response))
    (ends : Http.verdict left = .closed) :
    ∃ after, respond (hostWith app (closing app (depth + 2))) remoteFd client
        read told = .ok () after ∧
      Consistent app after.entry ∧ after.Straight := by
  obtain ⟨requests, received, relays, sent, packet, request', target', isClient,
    genuine, pipelined, info', asked, printed, _, _⟩ := consistent.waiting serves
  cases info.symm.trans info'
  obtain ⟨paired, _, _⟩ := (consistent.others client).servants
    (Entry.servant_of_remote serves)
  have apart : client ≠ remoteFd :=
    ne_of_peers isClient serves Peer.noConfusion
  have own := moved.own apart
  have owner : left.client = client := by
    obtain ⟨seen, asks⟩ := asked
    have member : sent ∈ requests :=
      pipelined.order.subset (by simp [Pending.sent])
    have reads := genuine sent member
    have first := app.requestClient seen sent.2
    have second := app.responseClient s.trace request read
    rw [asks] at first
    rw [handled] at second
    exact second.trans (first.trans
      (Http.parseRequest_client client _ _ _ reads))
  have handled' := handled
  rw [← moved.past] at handled'
  obtain ⟨after, returned, trace, entries⟩ := respond_closed depth
    ((congrArg Entry.info own).trans info)
    ((congrArg Entry.peer own).trans isClient)
    ((congrArg Entry.c2r own).trans paired)
    (congrArg Entry.peer moved.connection) handled' owner ends
  refine ⟨after, returned, consistent.leaves
    [.responded client response.toBytes, .closed client] serves ?_ ?_, ?_⟩
  · refine .inr ⟨relays ++ [⟨sent, request, target, packet, origin, response⟩],
      .idle, ?_, ?_⟩
    · rw [pipelined.course]
      simp [Pending.course, Relay.course]
    · intro relay member
      rcases List.mem_append.mp member with earlier | last
      · exact pipelined.relayed relay earlier
      · cases List.mem_singleton.mp last
        exact ⟨asked, printed, s.trace, read, rest, parsed, by rw [handled]⟩
  · intro fd
    rw [entries]
    unfold without
    by_cases same : fd = client
    · rw [if_pos same, if_pos same, own]
    · by_cases here : fd = remoteFd
      · rw [if_neg same, if_pos here, if_neg same, if_pos here, moved.connection]
      · rw [if_neg same, if_neg here, if_neg same, if_neg here, moved.entry,
          if_neg here]
  · intro fd data
    rw [trace, moved.past]
    simpa using straight fd data

/-- A whole response is written to its client. -/
theorem progress_respond {told : Service} (depth : Nat)
    {origin got more rest : Bytes} {read : HttpResponse}
    (serves : s.peers[remoteFd]? = some (.remote client origin got))
    (parsed : parseResponse origin = .ok (some read, rest))
    (moved : Told client remoteFd origin more s told)
    (free : s.Free told.next) :
    (∃ after, respond (hostWith app (closing app (depth + 2))) remoteFd client
        read told = .ok () after ∧
      Consistent app after.entry ∧ after.Straight) ∨
    (∃ stopped, respond (hostWith app (closing app (depth + 2))) remoteFd client
        read told = .error () stopped) ∧
      ∃ request target, s.tables.forwardInfo[client]? = some (request, target) ∧
        Http.verdict (app.onResponse s.trace request read).1 = .crashed := by
  obtain ⟨requests, received, _, _, _, request, target, isClient, _, _, info, _⟩ :=
    consistent.waiting serves
  rcases handled : app.onResponse s.trace request read with ⟨left, response⟩
  cases reached : Http.verdict left with
  | opened =>
      exact .inl (progress_open consistent straight serves parsed moved free info
        handled reached)
  | closed =>
      exact .inl (progress_closed consistent straight serves parsed moved info
        handled reached)
  | crashed =>
      have apart : client ≠ remoteFd :=
        ne_of_peers isClient serves Peer.noConfusion
      have own := moved.own apart
      have handled' := handled
      rw [← moved.past] at handled'
      refine .inr ⟨⟨told.answered client (left, target) response.toBytes, ?_⟩,
        request, target, info, ?_⟩
      · rw [respond_eq ((congrArg Entry.info own).trans info)
          ((congrArg Entry.peer own).trans isClient) handled',
          Http.closeIfNecessary_crashed _ reached]
        exact Stepwise.bind_of_error rfl
      · rw [handled]
        exact reached

theorem progress_remoteMessage {piece : Bytes} {next : Fd}
    (allowed : s.Allows (.remoteMessage remoteFd piece next)) :
    Progress app (.remoteMessage remoteFd piece next) s ∨
      Stops app (.remoteMessage remoteFd piece next) s := by
  obtain ⟨free, client, origin, got, serves, within⟩ := allowed
  obtain ⟨requests, received, relays, sent, packet, request, target, isClient,
    genuine, pipelined, info, asked, printed, kept, read, rest, sound⟩ :=
    consistent.waiting serves
  have here : perform app (.remoteMessage remoteFd piece next) s =
      onRemoteMessage (host app s) remoteFd piece client
        { s.setPeer remoteFd (.remote client origin (got ++ piece)) with
          next } := by
    simp only [perform, Stepwise.get_bind, serves, Stepwise.modify_bind]
  have apart : client ≠ remoteFd :=
    ne_of_peers isClient serves Peer.noConfusion
  have message : (s.bufferable[remoteFd]?).getD [] ++ piece = got ++ piece :=
    congrArg (· ++ piece) kept
  have moved : ∀ fd, ({ s.setPeer remoteFd (.remote client origin (got ++ piece))
      with next } : Service).entry fd = if fd = remoteFd then
        { s.entry remoteFd with
          peer := some (.remote client origin (got ++ piece)) }
        else s.entry fd := by
    intro fd
    by_cases same : fd = remoteFd
    · subst same
      simp [entry, setPeer]
    · have other : ¬ remoteFd = fd := fun equal => same equal.symm
      simp [entry, setPeer, same, other, ExtTreeMap.getElem?_insert]
  unfold Progress Stops
  rw [here]
  generalize changed : ({ s.setPeer remoteFd (.remote client origin (got ++ piece))
    with next } : Service) = told at moved
  have toldTrace : told.trace = s.trace := by
    rw [← changed]
    rfl
  have own := moved client
  rw [if_neg apart] at own
  have connection := moved remoteFd
  rw [if_pos rfl] at connection
  have message : (told.bufferable[remoteFd]?).getD [] ++ piece = got ++ piece := by
    have same := congrArg Entry.buffered connection
    exact congrArg (·.getD [] ++ piece) same ▸ congrArg (· ++ piece) kept
  rcases stable_parseResponse.of_part sound within with short | whole
  · left
    rw [← message] at short
    obtain ⟨after, returned, trace, entries⟩ := onRemoteMessage_kept app
      (closing app s.peers.size) piece client short
    rw [message] at short entries
    refine ⟨after, returned, consistent.receives serves short ?_, ?_⟩
    · intro fd
      rw [entries]
      by_cases same : fd = remoteFd
      · rw [if_pos same, if_pos same, connection]
      · rw [if_neg same, if_neg same, moved, if_neg same]
    · intro fd data
      rw [trace, toldTrace]
      exact straight fd data
  · obtain ⟨left, _, parsed, _, _⟩ := whole
    rw [← message] at parsed
    obtain ⟨depth, size⟩ := two_peers isClient serves apart
    have responds : onRemoteMessage (host app s) remoteFd piece client told =
        respond (host app s) remoteFd client read { told with
          bufferable := (told.bufferable.appendBuf remoteFd piece).2 } :=
      Environment.onRemoteMessage_responds parsed
    rw [responds, host, size]
    have taken : Told client remoteFd origin (got ++ piece) s
        { told with
          bufferable := (told.bufferable.appendBuf remoteFd piece).2 } := by
      refine ⟨?_, toldTrace⟩
      intro fd
      have before := moved fd
      by_cases same : fd = remoteFd
      · subst same
        rw [if_pos rfl] at before ⊢
        simp only [entry, Entry.mk.injEq] at before ⊢
        simp [before]
      · rw [if_neg same] at before ⊢
        simp only [entry, Entry.mk.injEq] at before ⊢
        simp [before, Ne.symm same]
    have unused : s.Free told.next := by
      rw [← changed]
      exact free
    rcases progress_respond consistent straight depth serves sound taken unused
      with progress | ⟨stopped, request', target', info', crashed⟩
    · exact .inl progress
    · exact .inr ⟨⟨client, origin, got, request', target', read, serves, info',
        crashed⟩, stopped⟩

theorem progress_remoteClosed (allowed : s.Allows (.remoteClosed remoteFd)) :
    Progress app (.remoteClosed remoteFd) s := by
  obtain ⟨client, origin, got, serves⟩ := allowed
  obtain ⟨requests, received, relays, sent, packet, request, target, isClient,
    genuine, pipelined, info, asked, printed, kept, read, rest, sound⟩ :=
    consistent.waiting serves
  obtain ⟨paired, known, _⟩ := (consistent.others client).servants
    (Entry.servant_of_remote serves)
  have apart : client ≠ remoteFd :=
    ne_of_peers isClient serves Peer.noConfusion
  obtain ⟨depth, size⟩ := two_peers isClient serves apart
  obtain ⟨after, closed, trace, entries⟩ :=
    closing_provider app depth isClient paired known serves
  rw [← size] at closed
  refine ⟨after, Stepwise.bind_of_ok closed, consistent.leaves _ serves ?_ entries,
    ?_⟩
  · refine .inr ⟨relays, .waiting sent packet, ?_, pipelined.relayed⟩
    rw [pipelined.course]
  · intro fd data
    rw [trace]
    simpa using straight fd data

end Steps

theorem consistent_start : Consistent app ({} : Service).entry := by
  have empty : ∀ fd, ({} : Service).entry fd =
      ⟨none, none, none, none, none, none, []⟩ := by
    intro fd
    simp [entry, course]
  have others : Others app 0 ({} : Service).entry := by
    constructor
    · intro client requests received _ isClient
      rw [empty] at isClient
      cases isClient
    · intro fd client serves
      rw [empty] at serves
      cases serves
    · intro fd _
      rw [empty]
    · intro fd _
      rw [empty]
      exact .inl rfl
  refine others.consistent ?_
  intro requests received isClient
  rw [empty] at isClient
  cases isClient

theorem progress {s : Service} (consistent : Consistent app s.entry)
    (straight : s.Straight) {event : Event} (allowed : s.Allows event) :
    Progress app event s ∨ Stops app event s := by
  cases event with
  | accept => exact .inl (progress_accept consistent straight allowed)
  | message => exact .inl (progress_message consistent straight allowed)
  | connected => exact progress_connected consistent straight allowed
  | remoteMessage => exact progress_remoteMessage consistent straight allowed
  | remoteClosed => exact .inl (progress_remoteClosed consistent straight allowed)

/-- Every state the gateway gets to fits together. -/
theorem Reached.consistent {s : Service} (reached : Reached app s) :
    Consistent app s.entry ∧ s.Straight := by
  induction reached with
  | start =>
      refine ⟨consistent_start, ?_⟩
      intro fd data member
      cases member
  | step earlier allowed returned induction =>
      rcases progress induction.1 induction.2 allowed with progress | stops
      · obtain ⟨after, dealt, consistent⟩ := progress
        rw [returned] at dealt
        cases dealt
        exact consistent
      · obtain ⟨_, stopped, error⟩ := stops
        rw [returned] at error
        cases error

/-- A request for the root, as a client sends it. -/
def getRoot : Bytes × HttpRequest :=
  (ascii "GET / HTTP/1.1\r\n\r\n",
    { client := 5
      method := ascii "GET"
      uri := ascii "/"
      httpVersion := ascii "HTTP/1.1"
      headers := []
      body := [] })

def helloOrigin : Bytes :=
  ascii "HTTP/1.1 200 OK\r\nContent-Length: 2\r\n\r\nhi"

def hello : HttpResponse :=
  { statusCode := 200
    reasonPhrase := ascii "OK"
    headers := [(ascii "Content-Length", ascii "2")]
    body := ascii "hi" }

def onlyProvider : Application where
  onRequestUri _ r :=
    (r, { host := ascii "origin", port := 80, path := ascii "/", query := [] })
  onResponse _ r response := (r, response)
  requestClient _ _ := rfl
  responseClient _ _ _ := rfl

/-- The state after these events. -/
def after : List Event → Service
  | [] => {}
  | event :: earlier =>
      Stepwise.final (perform onlyProvider event (after earlier))

theorem reached_after {event : Event} {earlier : List Event}
    (reached : Reached onlyProvider (after earlier))
    (allowed : (after earlier).Allows event)
    (returned : Stepwise.isOk (perform onlyProvider event (after earlier)) =
      true) :
    Reached onlyProvider (after (event :: earlier)) :=
  .step reached allowed (Stepwise.eq_ok_final returned)

end Service

end HttpGateway

end Universe
