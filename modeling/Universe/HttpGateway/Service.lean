import Universe.HttpGateway.Environment

/-!
# The gateway between its clients and the providers

Clients and providers send their bytes piece by piece, and the event manager
calls the gateway for every piece, for every connection that is made and for
every one that ends.  Connections to providers are made later than they are
asked for.
-/

namespace Universe

open Incremental
open Std (ExtTreeMap)

namespace HttpGateway

/-- The other end of a connection the event manager has callbacks for, with
the bytes it is going to send and those that have come. -/
inductive Peer where
  | client (requests : List (Bytes × HttpRequest)) (received : Bytes)
  | connecting (client : Fd)
  | remote (client : Fd) (origin received : Bytes)
  deriving DecidableEq, Repr

namespace Peer

/-- What the callbacks for it are for. -/
def role : Peer → Role
  | .client _ _ => .client
  | .connecting asker => .connecting asker
  | .remote asker _ _ => .remote asker

end Peer

/-- What can be seen of the gateway. -/
inductive Occurrence where
  | accepted (client : Fd)
  | requested (client : Fd) (r : HttpRequest)
  | forwarded (client : Fd) (packet : Bytes)
  | responded (client : Fd) (data : Bytes)
  | closed (client : Fd)
  /-- A write to a connection that is not open. -/
  | stray (fd : Fd) (data : Bytes)
  deriving DecidableEq, Repr

/-- What the handlers leave in a request and in a response, by what happened
before.  They have a provider for every request, and do not give a request to
another client. -/
structure Application where
  onRequestUri : List Occurrence → HttpRequest →
    HttpRequest × HttpProviderAddress
  onResponse : List Occurrence → HttpRequest → HttpResponse →
    HttpRequest × HttpResponse
  requestClient : ∀ seen r, (onRequestUri seen r).1.client = r.client
  responseClient : ∀ seen r response,
    (onResponse seen r response).1.client = r.client

structure Service extends Kept where
  peers : ExtTreeMap Fd Peer := ∅
  /-- The newest first. -/
  trace : List Occurrence := []
  /-- The number of the next socket. -/
  next : Fd := 0

namespace Service

abbrev M := EStateM Unit Service

def record (occurrence : Occurrence) (s : Service) : Service :=
  { s with trace := occurrence :: s.trace }

def setPeer (fd : Fd) (peer : Peer) (s : Service) : Service :=
  { s with peers := s.peers.insert fd peer }

def dropPeer (fd : Fd) (s : Service) : Service :=
  { s with peers := s.peers.erase fd }

/-- A write, seen from the client it is for. -/
def written (fd : Fd) (data : Bytes) (s : Service) : Occurrence :=
  match s.peers[fd]? with
  | some (.client _ _) => .responded fd data
  | some (.connecting client) => .forwarded client data
  | some (.remote client _ _) => .forwarded client data
  | none => .stray fd data

variable (app : Application)

/-- All writes succeed, every connection is made later than it is asked for,
and a number that was closed is free at once. -/
def environment : Environment Unit Service where
  kept s := s.toKept
  keep held s := { s with toKept := held }
  roleOf s fd := (s.peers[fd]?).map Peer.role
  openFd _ s := s
  register fd role s :=
    match role with
    | .connecting client => s.setPeer fd (.connecting client)
    -- No connection is made before `connect` returns.
    | _ => s
  unregister fd role s :=
    match role with
    | .client => (s.dropPeer fd).record (.closed fd)
    | _ => s.dropPeer fd
  release _ s := s
  attempt s := .pending s.next
  write _ fd data := modifyGet fun s =>
    ((data.length : Int), s.record (s.written fd data))
  fireRequestUri r := modifyGet fun s =>
    let left := app.onRequestUri s.trace r
    ((left.1, left.2, true), s.record (.requested r.client r))
  fireResponse r response := modifyGet fun s =>
    (app.onResponse s.trace r response, s)
  exit := ()
  depth := ()
  kept_keep _ _ := rfl
  keep_keep _ _ _ := rfl
  keep_kept _ := rfl

abbrev hostWith (close : Fd → M Bool) : Host M :=
  (environment app).host close ((environment app).connecting close)

abbrev closing (depth : Nat) : Fd → M Bool := (environment app).closing depth

/-- Every callback of `close` has one connection less to close. -/
def host (s : Service) : Host M := hostWith app (closing app s.peers.size)

/-- What the event manager tells the gateway.  The number is that of the next
socket. -/
inductive Event where
  | accept (client : Fd) (requests : List (Bytes × HttpRequest))
  | message (client : Fd) (piece : Bytes) (next : Fd)
  | connected (remoteFd : Fd) (origin : Bytes)
  | remoteMessage (remoteFd : Fd) (piece : Bytes) (next : Fd)
  | remoteClosed (remoteFd : Fd)

/-- A number that is not in use. -/
def Free (s : Service) (fd : Fd) : Prop := 0 ≤ fd ∧ s.peers[fd]? = none

/-- Clients send requests, and providers a response. -/
def Allows (s : Service) : Event → Prop
  | .accept client requests =>
      s.Free client ∧ ∀ sent ∈ requests,
        Http.parseRequest client sent.1 = .ok (sent.2, [])
  | .message client piece next =>
      s.Free next ∧ ∃ requests received,
        s.peers[client]? = some (.client requests received) ∧
          received ++ piece <+: (requests.map Prod.fst).flatten
  | .connected remoteFd origin =>
      (∃ client, s.peers[remoteFd]? = some (.connecting client)) ∧
        ∃ response rest, parseResponse origin = .ok (some response, rest)
  | .remoteMessage remoteFd piece next =>
      s.Free next ∧ ∃ client origin received,
        s.peers[remoteFd]? = some (.remote client origin received) ∧
          received ++ piece <+: origin
  | .remoteClosed remoteFd =>
      ∃ client origin received,
        s.peers[remoteFd]? = some (.remote client origin received)

/-- The callback for an event. -/
def perform : Event → M Unit
  | .accept client requests => do
      modify fun s => (s.setPeer client (.client requests [])).record
        (.accepted client)
      let s ← get
      onConnect (host app s) client
  | .message client piece next => do
      let s ← get
      match s.peers[client]? with
      | some (.client requests received) => do
          modify fun s =>
            { s.setPeer client (.client requests (received ++ piece)) with
              next }
          onMessage (host app s) client piece
      | _ => return ()
  | .connected remoteFd origin => do
      let s ← get
      match s.peers[remoteFd]? with
      | some (.connecting client) => do
          modify (setPeer remoteFd (.remote client origin []))
          onRemoteConnect (host app s) remoteFd .ok client
      | _ => return ()
  | .remoteMessage remoteFd piece next => do
      let s ← get
      match s.peers[remoteFd]? with
      | some (.remote client origin received) => do
          modify fun s =>
            { s.setPeer remoteFd (.remote client origin (received ++ piece))
              with next }
          onRemoteMessage (host app s) remoteFd piece client
      | _ => return ()
  | .remoteClosed remoteFd => do
      let s ← get
      let _ ← (host app s).close remoteFd
      return ()

/-- The states of the gateway between two events. -/
inductive Reached : Service → Prop where
  | start : Reached {}
  | step {s after : Service} {event : Event} (earlier : Reached s)
      (allowed : s.Allows event) (returned : perform app event s = .ok () after) :
      Reached after

end Service

namespace Occurrence

/-- The client an occurrence is about. -/
def client? : Occurrence → Option Fd
  | .accepted client => some client
  | .requested client _ => some client
  | .forwarded client _ => some client
  | .responded client _ => some client
  | .closed client => some client
  | .stray _ _ => none

end Occurrence

/-- What has happened to a client since it was accepted, the oldest first. -/
def course (client : Fd) : List Occurrence → List Occurrence
  | [] => []
  | occurrence :: past =>
      if occurrence = .accepted client then []
      else if occurrence.client? = some client then
        course client past ++ [occurrence]
      else course client past

/-- All there is about a number. -/
structure Entry where
  peer : Option Peer
  buffered : Option Bytes
  state : Option HttpGatewayState
  c2r : Option Fd
  r2c : Option Fd
  info : Option (HttpRequest × HttpProviderAddress)
  course : List Occurrence

namespace Service

def entry (s : Service) (fd : Fd) : Entry :=
  { peer := s.peers[fd]?
    buffered := s.bufferable[fd]?
    state := s.stateful[fd]?
    c2r := s.tables.c2r[fd]?
    r2c := s.tables.r2c[fd]?
    info := s.tables.forwardInfo[fd]?
    course := course fd s.trace }

variable {app : Application} {close : Fd → M Bool} {s : Service}
  {client remoteFd : Fd}

/-- A number in use is not free. -/
theorem ne_of_free {fd other : Fd} {peer : Peer} (free : s.Free fd)
    (found : s.peers[other]? = some peer) : fd ≠ other := by
  intro same
  rw [← same, free.2] at found
  cases found

/-- Different ends have different numbers. -/
theorem ne_of_peers {fd other : Fd} {first second : Peer}
    (one : s.peers[fd]? = some first) (two : s.peers[other]? = some second)
    (different : first ≠ second) : fd ≠ other := by
  intro same
  rw [same, two] at one
  exact different (Option.some.inj one).symm

theorem roleOf_peer {fd : Fd} {peer : Peer} (found : s.peers[fd]? = some peer) :
    (environment app).roleOf s fd = some peer.role := by
  simp [environment, found]

theorem roleOf_absent {fd : Fd} (absent : s.peers[fd]? = none) :
    (environment app).roleOf s fd = none := by
  simp [environment, absent]

/-- A message that is not a whole request, or comes before the response, is
kept. -/
theorem onMessage_kept (app : Application) (close : Fd → M Bool) (piece : Bytes)
    (again : s.stateful[client]? = some .parseResponse ∨
      Http.parseRequest client ((s.bufferable[client]?).getD [] ++ piece) =
        .error .ag) :
    ∃ after, onMessage (hostWith app close) client piece s = .ok () after ∧
      after.trace = s.trace ∧
      ∀ fd, after.entry fd = if fd = client then
        { s.entry client with
          buffered := some ((s.bufferable[client]?).getD [] ++ piece) }
        else s.entry fd := by
  have waits := again.imp_left fun responds =>
    show s.stateful.getState client = .parseResponse by
      simp [Stateful.getState, responds]
  refine ⟨{ s with
    toKept := Kept.buffering client piece
      ((s.bufferable[client]?).getD [] ++ piece) s.toKept },
    Environment.onMessage_kept waits, rfl, ?_⟩
  intro fd
  by_cases same : fd = client
  · subst same
    simp [entry, Kept.buffering]
  · simp [entry, Kept.buffering, same, Ne.symm same]

/-- The connection for a request has been asked for. -/
def asking (app : Application) (client : Fd) (piece rest : Bytes)
    (r : HttpRequest) (s : Service) : Service :=
  { (s.record (.requested r.client r)).setPeer s.next (.connecting client) with
    toKept := Kept.paired client s.next
      (Kept.informed client (app.onRequestUri s.trace r)
        (Kept.reading client piece rest s.toKept)) }

/-- A whole request is taken off the message, and a connection is asked
for. -/
theorem onMessage_forwards (app : Application) (close : Fd → M Bool)
    {piece : Bytes} {r : HttpRequest} {rest : Bytes}
    (isOpen : s.stateful[client]? = some .parseRequest)
    (parsed : Http.parseRequest client ((s.bufferable[client]?).getD [] ++ piece)
      = .ok (r, rest))
    (own : s.next ≠ client) (valid : s.next ≠ -1) :
    ∃ after, onMessage (hostWith app close) client piece s = .ok () after ∧
      after.trace = .requested client r :: s.trace ∧
      ∀ fd, after.entry fd = if fd = client then
        { peer := s.peers[client]?
          buffered := some rest
          state := some .parseResponse
          c2r := some s.next
          r2c := s.tables.r2c[client]?
          info := some (app.onRequestUri s.trace r)
          course := course client s.trace ++ [.requested client r] }
        else if fd = s.next then
          { s.entry s.next with
            peer := some (.connecting client)
            r2c := some client }
        else s.entry fd := by
  have owner : r.client = client :=
    Http.parseRequest_client client _ _ _ parsed
  have parses : s.stateful.getState client ≠ .parseResponse := by
    simp [Stateful.getState, isOpen]
  have asked : (environment app).fireRequestUri r
      { s with toKept := Kept.reading client piece rest s.toKept } =
      .ok ((app.onRequestUri s.trace r).1, (app.onRequestUri s.trace r).2, true)
        { s.record (.requested r.client r) with
          toKept := Kept.reading client piece rest s.toKept } := rfl
  have connected : (environment app).connecting close
      (app.onRequestUri s.trace r).2 client
      { s.record (.requested r.client r) with
        toKept := Kept.informed client (app.onRequestUri s.trace r)
          (Kept.reading client piece rest s.toKept) } =
      .ok s.next
        { (s.record (.requested r.client r)).setPeer s.next
            (.connecting client) with
          toKept := Kept.informed client (app.onRequestUri s.trace r)
            (Kept.reading client piece rest s.toKept) } :=
    Environment.connecting_pending rfl
  have forwarded : onMessage (hostWith app close) client piece s =
      .ok () (s.asking app client piece rest r) :=
    (Environment.onMessage_forwards parses parsed).trans
      (Environment.forward_connects asked connected valid)
  refine ⟨_, forwarded, ?_, ?_⟩
  · simp [asking, record, setPeer, owner]
  · intro fd
    by_cases same : fd = client
    · subst same
      simp [entry, asking, record, setPeer, Kept.paired, Kept.informed,
        Kept.reading, Kept.buffering, Tables.pair, Tables.setInfo, course,
        owner, Occurrence.client?, own, ExtTreeMap.getElem?_insert]
    · by_cases fresh : fd = s.next
      · subst fresh
        simp [entry, asking, record, setPeer, Kept.paired, Kept.informed,
          Kept.reading, Kept.buffering, Tables.pair, Tables.setInfo, course,
          owner, own, Ne.symm own, Occurrence.client?,
          ExtTreeMap.getElem?_insert]
      · simp [entry, asking, record, setPeer, Kept.paired, Kept.informed,
          Kept.reading, Kept.buffering, Tables.pair, Tables.setInfo, course,
          owner, Ne.symm same, Occurrence.client?, same, fresh, Ne.symm fresh,
          ExtTreeMap.getElem?_insert]

/-- The request is written to the provider once it is connected. -/
theorem onRemoteConnect_writes (app : Application) (close : Fd → M Bool)
    {request : HttpRequest}
    {target : HttpProviderAddress} {packet origin received : Bytes}
    (held : s.tables.forwardInfo[client]? = some (request, target))
    (printed : request.forwardPacket target = some packet)
    (serves : s.peers[remoteFd]? = some (.remote client origin received)) :
    ∃ after, onRemoteConnect (hostWith app close) remoteFd .ok client s =
        .ok () after ∧
      after.trace = .forwarded client packet :: s.trace ∧
      ∀ fd, after.entry fd = if fd = client then
        { s.entry client with
          course := course client s.trace ++ [.forwarded client packet] }
        else s.entry fd := by
  refine ⟨s.record (s.written remoteFd packet),
    Environment.onRemoteConnect_writes held printed rfl, ?_, ?_⟩
  · simp [record, written, serves]
  · intro fd
    by_cases same : fd = client
    · subst same
      simp [entry, record, written, serves, course, Occurrence.client?]
    · simp [entry, record, written, serves, course, Occurrence.client?, same,
        Ne.symm same]

/-- A response that is not whole is kept. -/
theorem onRemoteMessage_kept (app : Application) (close : Fd → M Bool)
    (piece : Bytes) (client : Fd)
    (again : parseResponse ((s.bufferable[remoteFd]?).getD [] ++ piece) =
      .error .ag) :
    ∃ after, onRemoteMessage (hostWith app close) remoteFd piece client s =
        .ok () after ∧
      after.trace = s.trace ∧
      ∀ fd, after.entry fd = if fd = remoteFd then
        { s.entry remoteFd with
          buffered := some ((s.bufferable[remoteFd]?).getD [] ++ piece) }
        else s.entry fd := by
  refine ⟨{ s with
    toKept := Kept.buffering remoteFd piece
      ((s.bufferable[remoteFd]?).getD [] ++ piece) s.toKept },
    Environment.onRemoteMessage_kept again, rfl, ?_⟩
  intro fd
  by_cases same : fd = remoteFd
  · subst same
    simp [entry, Kept.buffering]
  · simp [entry, Kept.buffering, same, Ne.symm same]

/-- The connection to a provider that the gateway has forgotten goes away
alone. -/
theorem closing_remote {depth : Nat} {origin received : Bytes}
    (serves : s.peers[remoteFd]? = some (.remote client origin received))
    (forgotten : s.tables.r2c[remoteFd]? = none) :
    closing app (depth + 1) remoteFd s = .ok true
      { s.dropPeer remoteFd with
        toKept := Kept.vanished remoteFd client s.toKept } := by
  exact Environment.closing_remote (roleOf_peer serves)
    (Environment.onRemoteClose_forgotten forgotten)

/-- The gateway is done with a connection to a provider. -/
theorem closeRemote_eq (app : Application) (depth : Nat)
    (connect : HttpProviderAddress → Fd → M Fd) {origin received : Bytes}
    (serves : s.peers[remoteFd]? = some (.remote client origin received)) :
    ∃ after, closeRemote ((environment app).host (closing app (depth + 1))
        connect) remoteFd s = .ok () after ∧
      after.trace = s.trace ∧ after.next = s.next ∧
      ∀ fd, after.entry fd =
        { peer := if fd = remoteFd then none else s.peers[fd]?
          buffered := if fd = remoteFd then none else s.bufferable[fd]?
          state := s.stateful[fd]?
          c2r := s.tables.c2r[fd]?
          r2c := if fd = remoteFd then none else s.tables.r2c[fd]?
          info := if fd = client then none else s.tables.forwardInfo[fd]?
          course := course fd s.trace } := by
  have forgotten : (Tables.eraseRemote remoteFd s.tables).r2c[remoteFd]? =
      none := by
    simp [Tables.eraseRemote]
  have closed : closing app (depth + 1) remoteFd
      { s with toKept := Kept.forgetting remoteFd s.toKept } = .ok true _ :=
    closing_remote serves forgotten
  refine ⟨_, Environment.closeRemote_of_closed closed, rfl, rfl, ?_⟩
  intro fd
  by_cases here : fd = remoteFd
  · subst here
    by_cases same : fd = client
    · simp [entry, Kept.vanished, Kept.forgetting, dropPeer,
        Tables.eraseInfo, Tables.eraseRemote, same]
    · simp [entry, Kept.vanished, Kept.forgetting, dropPeer,
        Tables.eraseInfo, Tables.eraseRemote, same, Ne.symm same,
        ExtTreeMap.getElem?_erase]
  · by_cases same : fd = client
    · subst same
      simp [entry, Kept.vanished, Kept.forgetting, dropPeer,
        Tables.eraseInfo, Tables.eraseRemote, here, Ne.symm here,
        ExtTreeMap.getElem?_erase]
    · simp [entry, Kept.vanished, Kept.forgetting, dropPeer,
        Tables.eraseInfo, Tables.eraseRemote, same, Ne.symm same, here,
        Ne.symm here, ExtTreeMap.getElem?_erase]

/-- A client that is closed, before its provider is. -/
def leaving (client : Fd) (s : Service) : Service :=
  { (s.dropPeer client).record (.closed client) with
    toKept := Kept.leaving client s.toKept }

theorem closing_paired {depth : Nat} {after : Service}
    {requests : List (Bytes × HttpRequest)} {received : Bytes}
    (isClient : s.peers[client]? = some (.client requests received))
    (paired : s.tables.c2r[client]? = some remoteFd)
    (closed : closeRemote ((environment app).quietHost (closing app depth))
      remoteFd (s.leaving client) = .ok () after) :
    closing app (depth + 1) client s = .ok true after := by
  exact Environment.closing_client (roleOf_peer isClient)
    (Environment.onClose_paired paired closed)

/-- A client and the provider of its request, both gone. -/
def without (client remoteFd : Fd) (occurrences : List Occurrence)
    (entries : Fd → Entry) (fd : Fd) : Entry :=
  if fd = client then
    { entries client with
      peer := none
      buffered := none
      state := none
      c2r := none
      info := none
      course := (entries client).course ++ occurrences }
  else if fd = remoteFd then
    { entries remoteFd with
      peer := none
      buffered := none
      r2c := none }
  else entries fd

/-- A client that is closed takes the provider of its request with it. -/
theorem closing_client (app : Application) (depth : Nat)
    {requests : List (Bytes × HttpRequest)} {received origin got : Bytes}
    (isClient : s.peers[client]? = some (.client requests received))
    (paired : s.tables.c2r[client]? = some remoteFd)
    (serves : s.peers[remoteFd]? = some (.remote client origin got)) :
    ∃ after, closing app (depth + 2) client s = .ok true after ∧
      after.trace = .closed client :: s.trace ∧
      ∀ fd, after.entry fd =
        without client remoteFd [.closed client] s.entry fd := by
  have different : client ≠ remoteFd :=
    ne_of_peers isClient serves Peer.noConfusion
  have still : (s.leaving client).peers[remoteFd]? =
      some (.remote client origin got) := by
    simp [leaving, record, dropPeer, serves, different,
      ExtTreeMap.getElem?_erase]
  obtain ⟨after, closed, trace, _, entries⟩ :=
    closeRemote_eq app depth (fun _ _ => throw ()) still
  refine ⟨after, closing_paired isClient paired closed, trace, ?_⟩
  intro fd
  rw [entries]
  by_cases same : fd = client
  · subst same
    simp [without, entry, leaving, Kept.leaving, record, dropPeer,
      Tables.eraseClient, different, course, Occurrence.client?]
  · by_cases here : fd = remoteFd
    · subst here
      simp [without, entry, leaving, Kept.leaving, record, dropPeer,
        Tables.eraseClient, course, Occurrence.client?, same, Ne.symm same,
        ExtTreeMap.getElem?_erase]
    · simp [without, entry, leaving, Kept.leaving, record, dropPeer,
        Tables.eraseClient, course, Occurrence.client?, same, Ne.symm same,
        here, ExtTreeMap.getElem?_erase]

/-- A provider that goes away takes its client with it. -/
theorem closing_provider (app : Application) (depth : Nat)
    {requests : List (Bytes × HttpRequest)} {received origin got : Bytes}
    (isClient : s.peers[client]? = some (.client requests received))
    (paired : s.tables.c2r[client]? = some remoteFd)
    (known : s.tables.r2c[remoteFd]? = some client)
    (serves : s.peers[remoteFd]? = some (.remote client origin got)) :
    ∃ after, closing app (depth + 2) remoteFd s = .ok true after ∧
      after.trace = .closed client :: s.trace ∧
      ∀ fd, after.entry fd =
        without client remoteFd [.closed client] s.entry fd := by
  have different : remoteFd ≠ client :=
    ne_of_peers serves isClient Peer.noConfusion
  have stays : (s.dropPeer remoteFd).peers[client]? =
      some (.client requests received) := by
    simp [dropPeer, isClient, different, ExtTreeMap.getElem?_erase]
  have absent : ((s.dropPeer remoteFd).leaving client).peers[remoteFd]? =
      none := by
    simp [leaving, record, dropPeer]
  have left : closing app (depth + 1) client (s.dropPeer remoteFd) =
      .ok true { (s.dropPeer remoteFd).leaving client with
        toKept := Kept.forgetting remoteFd
          (Kept.leaving client s.toKept) } :=
    closing_paired stays paired (Environment.closeRemote_of_closed
      (Environment.closing_absent (roleOf_absent absent)))
  refine ⟨{ (s.dropPeer remoteFd).leaving client with
    toKept := Kept.widowed remoteFd client (Kept.forgetting remoteFd
      (Kept.leaving client s.toKept)) }, ?_, rfl, ?_⟩
  · exact Environment.closing_remote (roleOf_peer serves)
      (Environment.onRemoteClose_known known left)
  intro fd
  by_cases same : fd = client
  · subst same
    simp [without, entry, leaving, Kept.widowed, Kept.forgetting, Kept.leaving,
      record, dropPeer, Tables.eraseClient, Tables.eraseRemote,
      Tables.eraseInfo, different, course, Occurrence.client?,
      ExtTreeMap.getElem?_erase]
  · by_cases here : fd = remoteFd
    · subst here
      simp [without, entry, leaving, Kept.widowed, Kept.forgetting,
        Kept.leaving, record, dropPeer, Tables.eraseClient, Tables.eraseRemote,
        Tables.eraseInfo, course, Occurrence.client?, same, Ne.symm same,
        ExtTreeMap.getElem?_erase]
    · simp [without, entry, leaving, Kept.widowed, Kept.forgetting,
        Kept.leaving, record, dropPeer, Tables.eraseClient, Tables.eraseRemote,
        Tables.eraseInfo, course, Occurrence.client?, same, Ne.symm same, here,
        Ne.symm here, ExtTreeMap.getElem?_erase]

/-- The state after the response has been written. -/
def answered (client : Fd) (info : HttpRequest × HttpProviderAddress)
    (data : Bytes) (s : Service) : Service :=
  { s.record (.responded client data) with
    tables := Tables.setInfo client info s.tables }

section Responses

variable {requests : List (Bytes × HttpRequest)} {received origin got : Bytes}
  {request left : HttpRequest} {target : HttpProviderAddress}
  {response sent : HttpResponse}

/-- The response goes to the client first. -/
theorem respond_eq (held : s.tables.forwardInfo[client]? = some (request, target))
    (isClient : s.peers[client]? = some (.client requests received))
    (handled : app.onResponse s.trace request response = (left, sent)) :
    respond (hostWith app close) remoteFd client response s = (do
      let closed ← Http.closeIfNecessary (hostWith app close).toHost left
      if closed then return ()
      else proceed (hostWith app close) remoteFd client)
        (s.answered client (left, target) sent.toBytes) := by
  have fired : (environment app).fireResponse request response s =
      .ok (left, sent) s :=
    congrArg (EStateM.Result.ok · s) handled
  have wrote : (environment app).write close client sent.toBytes
      { s with tables := Tables.setInfo client (left, target) s.tables } =
        .ok (sent.toBytes.length : Int)
          (s.answered client (left, target) sent.toBytes) := by
    simp only [environment, Stepwise.modifyGet_eq, written, isClient]
    rfl
  have informed : (Tables.setInfo client (left, target)
      s.tables).forwardInfo[client]? = some (left, target) := by
    simp [Tables.setInfo]
  refine (Environment.respond_eq held fired wrote).trans ?_
  exact Stepwise.bind_of_ok (Environment.info_held informed)

/-- A client that is not to be closed goes on with what it has sent. -/
theorem respond_open (depth : Nat)
    (held : s.tables.forwardInfo[client]? = some (request, target))
    (isClient : s.peers[client]? = some (.client requests received))
    (serves : s.peers[remoteFd]? = some (.remote client origin got))
    (handled : app.onResponse s.trace request response = (left, sent))
    (stays : Http.verdict left = .opened) :
    ∃ between, (respond (hostWith app (closing app (depth + 1))) remoteFd client
          response s =
        onMessage (hostWith app (closing app (depth + 1))) client
          ((s.bufferable[client]?).getD []) between ∨
        s.bufferable[client]? = none ∧
          respond (hostWith app (closing app (depth + 1))) remoteFd client
            response s = .ok () between) ∧
      between.trace = .responded client sent.toBytes :: s.trace ∧
      between.next = s.next ∧
      ∀ fd, between.entry fd = if fd = client then
        { s.entry client with
          buffered := none
          state := some .parseRequest
          info := none
          course := course client s.trace ++ [.responded client sent.toBytes] }
        else if fd = remoteFd then
          { s.entry remoteFd with
            peer := none
            buffered := none
            r2c := none }
        else s.entry fd := by
  have different : client ≠ remoteFd :=
    ne_of_peers isClient serves Peer.noConfusion
  obtain ⟨after, closed, trace, next, entries⟩ :=
    closeRemote_eq (s := s.answered client (left, target) sent.toBytes)
      app depth ((environment app).connecting (closing app (depth + 1))) serves
  have buffered : after.bufferable[client]? = s.bufferable[client]? := by
    have same := congrArg Entry.buffered (entries client)
    simpa [different, entry, answered, record] using same
  rw [respond_eq held isClient handled, Http.closeIfNecessary_opened _ stays]
  have proceeds : (do
      let closed ← pure false
      if closed then return ()
      else proceed (hostWith app (closing app (depth + 1))) remoteFd client)
        (s.answered client (left, target) sent.toBytes) =
      if after.bufferable.hasBuf client then
        onMessage (hostWith app (closing app (depth + 1))) client
          ((s.bufferable[client]?).getD [])
          { after with
            stateful := after.stateful.setState client .parseRequest
            bufferable := (after.bufferable.getBuf client).2 }
      else .ok ()
        { after with
          stateful := after.stateful.setState client .parseRequest } := by
    have asked : (hostWith app (closing app (depth + 1))).hasBuf client
        { after with
          stateful := after.stateful.setState client .parseRequest } =
        .ok (after.bufferable.hasBuf client)
          { after with
            stateful := after.stateful.setState client .parseRequest } := rfl
    refine (Stepwise.bind_of_ok closed).trans ?_
    refine (Stepwise.modify_bind _ _ _).trans ?_
    refine (Stepwise.bind_of_ok asked).trans ?_
    rw [← buffered]
    cases after.bufferable.hasBuf client <;> rfl
  rw [proceeds]
  have erased : ∀ fd, ({ after with
      stateful := after.stateful.setState client .parseRequest
      bufferable := (after.bufferable.getBuf client).2 } : Service).entry fd =
      if fd = client then
        { s.entry client with
          buffered := none
          state := some .parseRequest
          info := none
          course := course client s.trace ++ [.responded client sent.toBytes] }
        else if fd = remoteFd then
          { s.entry remoteFd with
            peer := none
            buffered := none
            r2c := none }
        else s.entry fd := by
    intro fd
    have same := entries fd
    simp only [entry, Entry.mk.injEq] at same
    by_cases own : fd = client
    · subst own
      simp [entry, same, different, answered, record, course,
        Occurrence.client?, Tables.setInfo]
    · by_cases here : fd = remoteFd
      · subst here
        simp [entry, same, own, Ne.symm own, answered, record, course,
          Occurrence.client?, Tables.setInfo, ExtTreeMap.getElem?_insert]
      · simp [entry, same, own, Ne.symm own, here, answered, record, course,
          Occurrence.client?, Tables.setInfo, ExtTreeMap.getElem?_insert]
  cases contained : after.bufferable.hasBuf client with
  | true => exact ⟨_, .inl rfl, trace, next, erased⟩
  | false =>
      have absent : after.bufferable[client]? = none := by
        simpa only [Bufferable.hasBuf_eq, Option.isSome_eq_false_iff,
          Option.isNone_iff_eq_none] using contained
      refine ⟨_, .inr ⟨buffered ▸ absent, rfl⟩, trace, next, ?_⟩
      intro fd
      rw [← erased fd]
      by_cases own : client = fd
      · subst own
        simpa [entry] using absent
      · simp [entry, own]

/-- A client that is to be closed is closed after the response. -/
theorem respond_closed (depth : Nat)
    (held : s.tables.forwardInfo[client]? = some (request, target))
    (isClient : s.peers[client]? = some (.client requests received))
    (paired : s.tables.c2r[client]? = some remoteFd)
    (serves : s.peers[remoteFd]? = some (.remote client origin got))
    (handled : app.onResponse s.trace request response = (left, sent))
    (own : left.client = client) (ends : Http.verdict left = .closed) :
    ∃ after, respond (hostWith app (closing app (depth + 2))) remoteFd client
        response s = .ok () after ∧
      after.trace =
        .closed client :: .responded client sent.toBytes :: s.trace ∧
      ∀ fd, after.entry fd = without client remoteFd
        [.responded client sent.toBytes, .closed client] s.entry fd := by
  obtain ⟨after, closed, trace, entries⟩ :=
    closing_client (s := s.answered client (left, target) sent.toBytes)
      app depth isClient paired serves
  rw [respond_eq held isClient handled, Http.closeIfNecessary_closed _ ends, own]
  refine ⟨after, ?_, trace, ?_⟩
  · have ended : (do
        let _ ← (hostWith app (closing app (depth + 2))).close client
        return true) (s.answered client (left, target) sent.toBytes) =
          .ok true after :=
      Stepwise.bind_of_ok closed
    exact Stepwise.bind_of_ok ended
  · intro fd
    rw [entries]
    by_cases same : fd = client
    · subst same
      simp [without, entry, answered, record, course, Occurrence.client?,
        Tables.setInfo]
    · by_cases here : fd = remoteFd
      · subst here
        simp [without, entry, answered, record, course, Occurrence.client?,
          same, Ne.symm same, Tables.setInfo, ExtTreeMap.getElem?_insert]
      · simp [without, entry, answered, record, course, Occurrence.client?,
          same, Ne.symm same, here, Tables.setInfo, ExtTreeMap.getElem?_insert]

end Responses

end Service

end HttpGateway

end Universe
