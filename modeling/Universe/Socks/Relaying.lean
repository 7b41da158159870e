import Universe.Socks.Consistency

/-!
# Clients that are connected

What every event keeps of the tables of `Socks`, and what becomes of a client
whose connection is reported.  From then on its bytes are forwarded.
-/

namespace Universe

open Stepwise Server
open Std (ExtTreeMap)

namespace Socks

variable {s after : Server Relays} {world : Surroundings Resolution}
  {depth : Nat} {fd client remote : Fd}
  {reaching : Address → Fd → M Relays Fd}

/-- A greeting is answered. -/
def Greets (message : Bytes) : Prop :=
  2 ≤ message.length ∧ byteAt message 0 = 5 ∧
    toSize (2 + char (byteAt message 1)) ≤ message.length ∧
    ((message.drop 2).take (char (byteAt message 1)).toNat).contains 0

/-- A request calls `connect`. -/
def Asks (message : Bytes) : Prop :=
  5 ≤ message.length ∧ byteAt message 1 = 1 ∧ byteAt message 3 = 3 ∧
    nameLength message ≤ message.length ∧ 2 ≤ nameLength message

/-- The message of a client, with what was kept of it. -/
def whole (s : Server Relays) (client : Fd) (piece : Bytes) : Bytes :=
  (s.bufferable[client]?).getD [] ++ piece

/-- The answer to a greeting can be written, and `connect` does not know its
outcome before it returns. -/
def Deferred (s : Server Relays) : Server.Event Resolution → Prop
  | .message client piece world =>
      (s.own.stateful.getState client = .greeting →
        Greets (whole s client piece) →
          world.broken s.written.length client = false) ∧
      (s.own.stateful.getState client = .request →
        Asks (whole s client piece) →
          settles world.handler.status world.handler.addresses = .inProgress)
  | _ => True

/-- The callback of `connect` is told that a client's remote is connected. -/
inductive Reports (s : Server Relays) :
    Server.Event Resolution → Fd → Prop where
  | connected {client remote : Fd} {world : Surroundings Resolution}
      (isRole : s.roles[remote]? = some (.connecting client)) :
      Reports s (.connected remote world) client
  | again {client remote : Fd} {world : Surroundings Resolution}
      {port : UInt16} {left : Nat}
      (isRole : s.roles[remote]? = some (.connecting client))
      (captured : (s.own.captured[remote]?).getD (0, 0) = (port, left))
      (settled : settles world.handler.status left = .connected) :
      Reports s (.connectFailed remote world) client
  | atOnce {client : Fd} {piece : Bytes} {world : Surroundings Resolution}
      (requests : s.own.stateful.getState client = .request)
      (asks : Asks (whole s client piece))
      (settled : settles world.handler.status world.handler.addresses =
        .connected) :
      Reports s (.message client piece world) client

/-- A client is open, and it was since its remote was reported. -/
inductive Told (condition : Server Relays → Server.Event Resolution → Prop)
    (client : Fd) : Server Relays → Prop where
  | now {s after : Server Relays} {event : Server.Event Resolution}
      (earlier : Reached condition s) (allowed : Allows s event)
      (meets : condition s event) (returned : perform event s = .ok () after)
      (reports : Reports s event client)
      (stays : after.roles[client]? = some .client) : Told condition client after
  | later {s after : Server Relays} {event : Server.Event Resolution}
      (earlier : Told condition client s) (allowed : Allows s event)
      (meets : condition s event) (returned : perform event s = .ok () after)
      (stays : after.roles[client]? = some .client) : Told condition client after

/-- A client that is connected stays so, as long as it has a state. -/
structure Keeps (s after : Server Relays) : Prop where
  consistent : Consistent after
  connected : ∀ (client : Fd) (state : SocksState),
    s.own.stateful[client]? = some .connected →
      after.own.stateful[client]? = some state → state = .connected

/-- What is written, and what is closed when it cannot be. -/
def Sent (writing : Writing) (s after : Server Relays) : Prop :=
  if writing.broken
  then Trims writing.fd { s with written := s.written ++ [writing] } after
  else after = { s with written := s.written ++ [writing] }

theorem Trims.keeps (trims : Trims fd s after) : Keeps s after where
  consistent := trims.consistent
  connected client state connected present := by
    rw [trims.states client state present] at connected
    cases connected
    rfl

theorem Consistent.keeps (consistent : Consistent after)
    (same : after.own.stateful = s.own.stateful) : Keeps s after where
  consistent := consistent
  connected client state connected present := by
    rw [same, connected] at present
    cases present
    rfl

/-- What is closed after a state was set. -/
theorem Keeps.trims {middle : Server Relays} (keeps : Keeps s middle)
    (trims : Trims fd middle after) : Keeps s after where
  consistent := trims.consistent
  connected client state connected present :=
    keeps.connected client state connected (trims.states client state present)

theorem Consistent.written (consistent : Consistent s) (written : List Writing) :
    Consistent { s with written } :=
  consistent.same (fun _ => rfl) rfl rfl rfl rfl rfl rfl rfl
    consistent.sound.polled

theorem Sent.keeps {writing : Writing} (sent : Sent writing s after)
    (consistent : Consistent s) : Keeps s after := by
  have kept : Keeps s { s with written := s.written ++ [writing] } :=
    (consistent.written _).keeps rfl
  unfold Sent at sent
  split at sent
  · exact kept.trims sent
  · rw [sent]
    exact kept

theorem Sent.written {writing : Writing} (sent : Sent writing s after) :
    after.written = s.written ++ [writing] := by
  unfold Sent at sent
  split at sent
  · exact sent.written
  · rw [sent]

/-- `send_peer`. -/
theorem sendPeer_sent (consistent : Consistent s) (peer : Fd) (data : Bytes) :
    Returns (sendPeer (hostWith world (closing world service depth · false)
      reaching) peer data) s fun _ after =>
        ∃ broken, (world.broken s.written.length peer = false → broken = false) ∧
          Sent ⟨peer, data, broken⟩ s after := by
  have wrote : Returns (writing world (closing world service depth · false) peer
      data) s fun _ after =>
        ∃ broken, (world.broken s.written.length peer = false → broken = false) ∧
          Sent ⟨peer, data, broken⟩ s after := by
    apply returns_get_bind
    apply returns_modify_bind
    cases broken : decide (peer ∈ s.opened) &&
        world.broken s.written.length peer with
    | true =>
        have isBroken : world.broken s.written.length peer = true :=
          (Bool.and_eq_true _ _ ▸ broken : _ ∧ _).2
        rw [if_pos rfl]
        apply returns_bind (closing_trims (consistent.written _))
        intro _ after trims
        refine returns_pure ⟨true, ?_, ?_⟩
        · rw [isBroken]
          exact id
        · exact (if_pos rfl).mpr trims
    | false =>
        rw [if_neg Bool.false_ne_true]
        refine returns_pure ⟨false, fun _ => rfl, ?_⟩
        unfold Sent
        rw [if_neg Bool.false_ne_true]
  apply returns_bind wrote
  exact fun _ after sent => returns_pure sent

namespace Consistent

/-- Only a client that has not asked yet may get a buffer. -/
theorem rebuffered (consistent : Consistent s) {bufferable : Bufferable}
    (owned : ∀ fd : Fd, bufferable[fd]? ≠ none → s.bufferable[fd]? ≠ none ∨
      s.own.stateful[fd]? = some .greeting ∨
      s.own.stateful[fd]? = some .request) :
    Consistent { s with bufferable } := by
  have early : ∀ fd : Fd, bufferable[fd]? ≠ none →
      s.own.stateful[fd]? = some .greeting ∨
        s.own.stateful[fd]? = some .request := by
    intro fd present
    rcases owned fd present with before | state
    · exact consistent.buffered fd before
    · exact state
  have sound : Sound { s with bufferable } := by
    refine ⟨?_, consistent.sound.clients, consistent.sound.polled,
      consistent.sound.released⟩
    intro fd present
    apply (consistent.states fd).mp
    rcases early fd present with state | state
    · simp [state]
    · simp [state]
  exact ⟨sound, consistent.inverse, consistent.states, consistent.urls,
    consistent.pairs, consistent.live, consistent.requests, consistent.paired,
    consistent.notBare, early⟩

/-- The state of a client without a remote. -/
theorem restated (consistent : Consistent s) {state : SocksState}
    (isClient : s.roles[client]? = some .client)
    (alone : s.own.c2r[client]? = none)
    (early : state = .greeting ∨ state = .request) :
    Consistent { s with own := { s.own with
      stateful := s.own.stateful.setState client state } } := by
  have states : ∀ fd : Fd, (s.own.stateful.setState client state)[fd]? =
      if client = fd then some state else s.own.stateful[fd]? :=
    Stateful.getElem?_setState _ _ _
  refine ⟨consistent.sound.own _ _ _, consistent.inverse, ?_, consistent.urls,
    ?_, consistent.live, consistent.requests, ?_, consistent.notBare, ?_⟩
  · intro fd
    dsimp only
    rw [states]
    split
    · next same => simp [← same, isClient]
    · exact consistent.states fd
  · intro fd remote pair
    dsimp only at pair ⊢
    rw [states, if_neg]
    · exact consistent.pairs fd remote pair
    · rintro rfl
      rw [alone] at pair
      cases pair
  · intro fd other present busy
    dsimp only at present ⊢
    rw [states] at present
    split at present
    · cases present
      rcases early with rfl | rfl
      · simp at busy
      · simp at busy
    · exact consistent.paired fd other present busy
  · intro fd present
    dsimp only at present ⊢
    rw [states]
    split
    · exact early.imp (congrArg some) (congrArg some)
    · exact consistent.buffered fd present

/-- A client that has not asked yet has no remote. -/
theorem alone (consistent : Consistent s)
    (early : s.own.stateful[client]? = some .greeting ∨
      s.own.stateful[client]? = some .request) :
    s.own.c2r[client]? = none := by
  cases pair : s.own.c2r[client]? with
  | none => rfl
  | some remote =>
      rcases consistent.pairs client remote pair with ⟨state, -⟩ | ⟨state, -⟩
      · simp [state] at early
      · simp [state] at early

/-- A remote is connected to a client. -/
theorem made (consistent : Consistent s)
    (isRole : s.roles[remote]? = some (.connecting client))
    {left : Server Relays}
    (roles : ∀ fd : Fd, left.roles[fd]? =
      if fd = remote then some (.remote client) else s.roles[fd]?)
    (stateful : left.own.stateful = s.own.stateful.setState client .connected)
    (url : left.own.url = s.own.url) (c2r : left.own.c2r = s.own.c2r)
    (r2c : left.own.r2c = s.own.r2c)
    (bufferable : left.bufferable = s.bufferable)
    (opened : left.opened = s.opened) (released : left.released = s.released)
    (polled : ∀ fd ∈ left.polled, fd ∈ s.opened) : Consistent left := by
  have pair := consistent.requests remote client isRole
  have isClient := consistent.isClient client (.inr (.inr (by simp [pair])))
  have states : ∀ fd : Fd, left.own.stateful[fd]? =
      if client = fd then some .connected else s.own.stateful[fd]? := by
    rw [stateful]
    exact Stateful.getElem?_setState _ _ _
  have clients : ∀ fd : Fd, left.roles[fd]? = some .client ↔
      s.roles[fd]? = some .client := by
    intro fd
    rw [roles]
    split
    · next same => simp [same, isRole]
    · rfl
  have others : ∀ {other served : Fd}, s.own.c2r[other]? = some served →
      other ≠ client → served ≠ remote := by
    rintro other served another different rfl
    exact different (consistent.inverse.injective another pair)
  have sound : Sound left := by
    apply consistent.sound.of_clients clients bufferable ?_ released ?_
    · rw [opened]
      exact fun _ => id
    · rw [opened]
      exact polled
  constructor
  · exact sound
  · rw [c2r, r2c]
    exact consistent.inverse
  · intro fd
    rw [states, clients]
    split
    · next same => simp [← same, isClient]
    · exact consistent.states fd
  · rw [url, c2r]
    exact consistent.urls
  · intro other served another
    rw [c2r] at another
    rw [states, roles]
    by_cases same : client = other
    · subst same
      rw [pair] at another
      cases another
      simp
    · rw [if_neg same, if_neg (others another (Ne.symm same))]
      exact consistent.pairs other served another
  · rw [c2r, opened, released]
    exact consistent.live
  · intro served other isServing
    rw [roles] at isServing
    rw [c2r]
    split at isServing
    · cases isServing
    · exact consistent.requests served other isServing
  · intro other state present busy
    rw [states] at present
    rw [c2r]
    split at present
    · next same => simp [← same, pair]
    · exact consistent.paired other state present busy
  · intro fd isBare
    rw [roles] at isBare
    split at isBare
    · cases isBare
    · exact consistent.notBare fd isBare
  · intro fd present
    rw [bufferable] at present
    have early := consistent.buffered fd present
    rw [states, if_neg]
    · exact early
    · rintro rfl
      rw [consistent.alone early] at pair
      cases pair

/-- A client waits for its remote. -/
theorem begun (consistent : Consistent s) (free : s.Free remote)
    (isClient : s.roles[client]? = some .client)
    (alone : s.own.c2r[client]? = none)
    (unbuffered : s.bufferable[client]? = none) {left : Server Relays}
    (roles : ∀ fd : Fd, left.roles[fd]? =
      if fd = remote then some (.connecting client) else s.roles[fd]?)
    (stateful : left.own.stateful = s.own.stateful.setState client .connecting)
    {address : Bytes} (url : left.own.url = s.own.url.insert client address)
    (c2r : left.own.c2r = s.own.c2r.insert client remote)
    (r2c : left.own.r2c = s.own.r2c.insert remote client)
    (bufferable : left.bufferable = s.bufferable)
    (opened : left.opened = remote :: s.opened)
    (released : left.released = s.released)
    (polled : ∀ fd ∈ left.polled, fd ∈ remote :: s.opened) :
    Consistent left := by
  obtain ⟨noClient, -, -, -, unserved, -, kept, unpaired⟩ :=
    consistent.unused free
  have states : ∀ fd : Fd, left.own.stateful[fd]? =
      if client = fd then some .connecting else s.own.stateful[fd]? := by
    rw [stateful]
    exact Stateful.getElem?_setState _ _ _
  have remotes : ∀ fd : Fd, left.own.c2r[fd]? =
      if client = fd then some remote else s.own.c2r[fd]? := by
    intro fd
    simp [c2r, ExtTreeMap.getElem?_insert]
  have clients : ∀ fd : Fd, left.roles[fd]? = some .client ↔
      s.roles[fd]? = some .client := by
    intro fd
    rw [roles]
    split
    · next same => simp [same, noClient]
    · rfl
  have sound : Sound left := by
    apply consistent.sound.of_clients clients bufferable ?_ released ?_
    · rw [opened]
      exact fun _ => List.mem_cons_of_mem remote
    · rw [opened]
      exact polled
  constructor
  · exact sound
  · rw [c2r, r2c]
    exact consistent.inverse.insert alone unserved
  · intro fd
    rw [states, clients]
    split
    · next same => simp [← same, isClient]
    · exact consistent.states fd
  · intro fd
    rw [url, remotes]
    by_cases same : client = fd
    · simp [same]
    · rw [if_neg same, ExtTreeMap.getElem?_insert, if_neg (by simpa using same)]
      exact consistent.urls fd
  · intro other served another
    rw [remotes] at another
    rw [states, roles]
    split at another
    · next same =>
        cases another
        simp [same]
    · next different =>
        rw [if_neg different, if_neg]
        · exact consistent.pairs other served another
        · rintro rfl
          exact unpaired other another
  · intro other served another
    rw [remotes] at another
    rw [opened, released]
    split at another
    · cases another
      exact ⟨List.mem_cons_self, kept⟩
    · exact (consistent.live other served another).imp_left
        (List.mem_cons_of_mem remote)
  · intro served other isServing
    rw [roles] at isServing
    rw [remotes]
    split at isServing
    · next same =>
        cases isServing
        rw [if_pos rfl, same]
    · have another := consistent.requests served other isServing
      rw [if_neg]
      · exact another
      · rintro rfl
        rw [alone] at another
        cases another
  · intro other state present busy
    rw [states] at present
    rw [remotes]
    split at present
    · next same => simp [same]
    · next different =>
        rw [if_neg different]
        exact consistent.paired other state present busy
  · intro fd isBare
    rw [roles] at isBare
    split at isBare
    · cases isBare
    · exact consistent.notBare fd isBare
  · intro fd present
    rw [bufferable] at present
    rw [states, if_neg]
    · exact consistent.buffered fd present
    · rintro rfl
      exact present unbuffered

/-- A client is accepted. -/
theorem joined (consistent : Consistent s) (free : s.Free client) :
    Consistent (({ s.openFd client with own := { s.own with
      stateful := s.own.stateful.setState client .greeting } }).watch client
        .client false) := by
  obtain ⟨-, -, -, alone, -, -, kept, unpaired⟩ := consistent.unused free
  have states : ∀ fd : Fd, (s.own.stateful.setState client .greeting)[fd]? =
      if client = fd then some .greeting else s.own.stateful[fd]? :=
    Stateful.getElem?_setState _ _ _
  have roles : ∀ fd : Fd, (s.roles.insert client .client)[fd]? =
      if client = fd then some .client else s.roles[fd]? := by
    intro fd
    simp [ExtTreeMap.getElem?_insert]
  have sound := ((consistent.sound.opened client).own { s.own with
    stateful := s.own.stateful.setState client .greeting } s.written
    s.fired).accepted List.mem_cons_self kept
  refine ⟨sound, consistent.inverse, ?_, consistent.urls, ?_, ?_, ?_, ?_, ?_, ?_⟩
  · intro fd
    change (s.own.stateful.setState client .greeting)[fd]? ≠ none ↔
      (s.roles.insert client .client)[fd]? = _
    rw [states, roles]
    split
    · simp
    · exact consistent.states fd
  · intro other remote pair
    change (s.own.stateful.setState client .greeting)[other]? = _ ∧
        (s.roles.insert client .client)[remote]? = _ ∨
      (s.own.stateful.setState client .greeting)[other]? = _ ∧
        (s.roles.insert client .client)[remote]? = _
    rw [states, roles, if_neg, if_neg]
    · exact consistent.pairs other remote pair
    · rintro rfl
      exact unpaired other pair
    · rintro rfl
      rw [show s.own.c2r[client]? = some remote from pair] at alone
      cases alone
  · intro other remote pair
    exact (consistent.live other remote pair).imp_left
      (List.mem_cons_of_mem client)
  · intro remote other isRole
    change (s.roles.insert client .client)[remote]? = _ at isRole
    rw [roles] at isRole
    split at isRole
    · cases isRole
    · exact consistent.requests remote other isRole
  · intro other state present busy
    change (s.own.stateful.setState client .greeting)[other]? = _ at present
    rw [states] at present
    split at present
    · cases present
      simp at busy
    · exact consistent.paired other state present busy
  · intro fd isBare
    change (s.roles.insert client .client)[fd]? = _ at isBare
    rw [roles] at isBare
    split at isBare
    · cases isBare
    · exact consistent.notBare fd isBare
  · intro fd present
    change (s.own.stateful.setState client .greeting)[fd]? = _ ∨
      (s.own.stateful.setState client .greeting)[fd]? = _
    rw [states]
    split
    · exact .inl rfl
    · exact consistent.buffered fd present

/-- The end of a batch of events. -/
theorem flushed (consistent : Consistent s) :
    Consistent { s with
      opened := s.opened.filter fun fd => fd ∉ s.released
      polled := s.polled.filter fun fd => fd ∉ s.released
      released := [] } := by
  refine ⟨consistent.sound.flushed, consistent.inverse, consistent.states,
    consistent.urls, consistent.pairs, ?_, consistent.requests,
    consistent.paired, consistent.notBare, consistent.buffered⟩
  intro client remote pair
  obtain ⟨isOpen, kept⟩ := consistent.live client remote pair
  refine ⟨List.mem_filter.mpr ⟨isOpen, by simpa using kept⟩, ?_⟩
  exact List.not_mem_nil

end Consistent

section Telling

/-- A client is connected, after so much was written. -/
def established (client : Fd) (written : List Writing) (s : Server Relays) :
    Server Relays :=
  { s with
    own := { s.own with
      stateful := s.own.stateful.setState client .connected }
    written }

/-- What is known of the server while a callback of a remote runs, against the
state in which the remote is still being connected. -/
structure Within (remote : Fd) (s left : Server Relays) : Prop where
  roles : ∀ other : Fd, other ≠ remote → left.roles[other]? = s.roles[other]?
  serves : left.roles[remote]? = none ∨ left.roles[remote]? = some .bare
  own : left.own = s.own
  bufferable : left.bufferable = s.bufferable
  opened : left.opened = s.opened
  released : left.released = s.released
  polled : ∀ fd ∈ left.polled, fd ∈ s.polled

theorem Within.established {left : Server Relays} (within : Within remote s left)
    (consistent : Consistent s)
    (isRole : s.roles[remote]? = some (.connecting client))
    (written : List Writing) :
    Consistent ((Socks.established client written left).setRole remote
      (.remote client)) := by
  apply consistent.made isRole
  · intro fd
    change (left.roles.insert remote (.remote client))[fd]? = _
    by_cases same : fd = remote
    · simp [same]
    · rw [if_neg same, ← within.roles fd same]
      simp [ExtTreeMap.getElem?_insert, Ne.symm same]
  · change left.own.stateful.setState client .connected = _
    rw [within.own]
  · change left.own.url = s.own.url
    rw [within.own]
  · change left.own.c2r = s.own.c2r
    rw [within.own]
  · change left.own.r2c = s.own.r2c
    rw [within.own]
  · exact within.bufferable
  · exact within.opened
  · exact within.released
  · exact fun fd member => consistent.sound.polled fd (within.polled fd member)

/-- The callback of `connect` is told that the remote is connected. -/
theorem onRemoteConnect_ok {left : Server Relays} (within : Within remote s left)
    (consistent : Consistent s)
    (isRole : s.roles[remote]? = some (.connecting client)) (port : UInt16) :
    Returns (onRemoteConnect (hostWith world
      (closing world service depth · false) reaching) port .ok client) left
      fun _ after => ∃ written,
        after = established client written left ∨
        Erased client ((established client written left).setRole remote
          (.remote client)) after := by
  have pair := consistent.requests remote client isRole
  apply returns_modifyGet_bind
  rw [if_pos rfl]
  apply returns_modifyGet_bind
  have wrote : ∀ data, Returns (writing world
      (closing world service depth · false) client data)
      (established client left.written left) fun _ after => ∃ written,
        after = established client written left ∨
        Erased client ((established client written left).setRole remote
          (.remote client)) after := by
    intro data
    apply returns_get_bind
    apply returns_modify_bind
    split
    · have closed : ∀ written, Returns (closing world service depth client false)
          (established client written left) fun _ after =>
            Erased client ((established client written left).setRole remote
              (.remote client)) after := by
        intro written
        have stillPair : ((established client written left).setRole remote
            (.remote client)).own.c2r[client]? = some remote := by
          change left.own.c2r[client]? = some remote
          rw [within.own]
          exact pair
        apply closing_client_of (within.established consistent isRole written)
          stillPair
        · intro other different
          change _ = (left.roles.insert remote _)[other]?
          simp [established, ExtTreeMap.getElem?_insert, Ne.symm different]
        · exact within.serves
        · rfl
        · rfl
        · rfl
        · rfl
        · exact fun _ => .inl
        · exact fun _ => id
      apply returns_bind (closed _)
      exact fun _ after erased => returns_pure ⟨_, .inr erased⟩
    · exact returns_pure ⟨_, .inl rfl⟩
  apply returns_bind (wrote _)
  exact fun _ after outcome => returns_pure outcome

/-- The callback of `connect` is told that the remote is connected, and the
remote is watched. -/
theorem told_ok {left : Server Relays} (within : Within remote s left)
    (consistent : Consistent s)
    (isRole : s.roles[remote]? = some (.connecting client)) (port : UInt16) :
    Returns (do
      onRemoteConnect (hostWith world (closing world service depth · false)
        reaching) port .ok client
      modify (watch remote (.remote client) false)) left fun _ after =>
        Keeps s after ∧ (after.roles[client]? = some .client →
          after.own.stateful[client]? = some .connected) := by
  have pair := consistent.requests remote client isRole
  have isOpen : remote ∈ left.opened := by
    rw [within.opened]
    exact (consistent.live client remote pair).1
  have pairs : left.own.c2r[client]? = some remote := by
    rw [within.own]
    exact pair
  have states : ∀ (written : List Writing) (fd : Fd),
      (established client written left).own.stateful[fd]? =
        if client = fd then some .connected else s.own.stateful[fd]? := by
    intro written fd
    rw [← within.own]
    exact Stateful.getElem?_setState _ _ _ _
  have watched : ∀ (middle : Server Relays), (∀ fd ∈ middle.polled,
      fd ∈ left.polled) → ∀ fd ∈ (middle.watch remote (.remote client)
        false).polled, fd ∈ left.opened := by
    intro middle fewer fd member
    rw [within.opened]
    change fd ∈ if _ then middle.polled else remote :: middle.polled at member
    have earlier : ∀ fd ∈ middle.polled, fd ∈ s.opened := fun fd member =>
      consistent.sound.polled fd (within.polled fd (fewer fd member))
    split at member
    · exact earlier fd member
    · rcases List.mem_cons.mp member with here | before
      · rw [here, ← within.opened]
        exact isOpen
      · exact earlier fd before
  apply returns_bind (onRemoteConnect_ok within consistent isRole port)
  rintro _ middle ⟨written, rfl | erased⟩
  · apply returns_modify
    have kept := within.established consistent isRole written
    refine ⟨⟨?_, ?_⟩, ?_⟩
    · exact kept.same (fun _ => rfl) rfl rfl rfl rfl rfl rfl rfl
        (watched _ fun _ => id)
    · intro other state connected present
      rw [show ((established client written left).watch remote (.remote client)
        false).own.stateful[other]? = _ from states written other] at present
      split at present
      · exact (Option.some.inj present).symm
      · rw [connected] at present
        exact (Option.some.inj present).symm
    · intro
      exact (states written client).trans (if_pos rfl)
  · have kept := within.established consistent isRole written
    have stillPair : ((established client written left).setRole remote
        (.remote client)).own.c2r[client]? = some remote := pairs
    have isClient := kept.isClient client (.inr (.inr (by rw [stillPair]; simp)))
    have apart := (kept.serves isClient remote stillPair).1
    have trims := erased.trims kept isClient (.inr stillPair)
    have roles : ∀ fd : Fd, (middle.watch remote (.remote client)
        false).roles[fd]? =
          if fd = remote then some (.remote client) else middle.roles[fd]? := by
      intro fd
      by_cases same : fd = remote
      · simp [Server.watch, same]
      · simp [Server.roles_watch, same, Ne.symm same]
    apply returns_modify
    refine ⟨⟨?_, ?_⟩, ?_⟩
    · apply trims.consistent.reassigned ?_ ?_ (.inr ⟨client, rfl⟩) roles rfl rfl
        rfl rfl
      · rw [erased.opened]
        exact watched middle erased.polled
      · rw [trims.gone]
        simp
      · intro other another
        rcases trims.consistent.servant another with served | served
        · rw [trims.gone] at served
          cases served
        · rw [trims.gone] at served
          cases served
    · intro other state connected present
      have earlier := (Erased.listed erased.states present).2
      rw [show ((established client written left).setRole remote
        (.remote client)).own.stateful[other]? = _ from states written other]
        at earlier
      split at earlier
      · exact (Option.some.inj earlier).symm
      · rw [connected] at earlier
        exact (Option.some.inj earlier).symm
    · intro stays
      rw [roles, if_neg (Ne.symm apart), erased.roles,
        if_pos (.inl rfl)] at stays
      cases stays

/-- The callback of `connect` is told that there is no address left. -/
theorem told_ng {left : Server Relays} (within : Within remote s left)
    (consistent : Consistent s)
    (isRole : s.roles[remote]? = some (.connecting client)) (port : UInt16) :
    Returns (do
      onRemoteConnect (hostWith world (closing world service depth · false)
        reaching) port .ng client
      forceClose (hostWith world (closing world service depth · false)
        reaching) remote) left fun _ after => Keeps s after := by
  have pair := consistent.requests remote client isRole
  have isClient := consistent.isClient client (.inr (.inr (by simp [pair])))
  have isOpen := (consistent.live client remote pair).1
  have isRefused : ConnectResult.ng ≠ .ok := by decide
  have written : Consistent { s with written := left.written } :=
    consistent.written _
  have told : Returns (onRemoteConnect (hostWith world
      (closing world service depth · false) reaching) port .ng client) left
      fun _ after => Erased client { s with written := left.written } after := by
    apply returns_modifyGet_bind
    rw [if_neg isRefused]
    have closed : Returns (closing world service depth client false) left
        fun _ after =>
          Erased client { s with written := left.written } after := by
      apply closing_client_of written pair _ within.roles within.serves
        within.own within.bufferable rfl within.opened ?_ within.polled
      rw [within.released]
      exact fun _ => .inl
    apply returns_bind closed
    exact fun _ after erased => returns_pure erased
  apply returns_bind told
  intro _ middle erased
  have trims : Trims remote { s with written := left.written } middle :=
    erased.trims written isClient (.inr pair)
  have notThere : ¬ middle.roles.contains remote = true := by
    simpa using trims.gone
  apply returns_get_bind
  rw [if_neg notThere]
  apply returns_modify
  have kept := (trims.release isOpen).keeps
  exact ⟨kept.consistent, kept.connected⟩

/-- A connection that has failed tries the other addresses. -/
theorem tryNext_keeps {left : Server Relays} (within : Within remote s left)
    (gone : left.roles[remote]? = none) (consistent : Consistent s)
    (isRole : s.roles[remote]? = some (.connecting client))
    (resolution : Resolution) (port : UInt16) (count : Nat) :
    Returns (tryNext resolution (hostWith world
      (closing world service depth · false) reaching) port remote client count)
      left fun _ after => Keeps s after ∧
        (settles resolution.status count = .connected →
          after.roles[client]? = some .client →
            after.own.stateful[client]? = some .connected) := by
  induction count with
  | zero =>
      apply (told_ng within consistent isRole port).weaken
      intro _ after keeps
      refine ⟨keeps, ?_⟩
      intro never
      cases never
  | succ count induction =>
      unfold tryNext settles
      cases outcome : resolution.status count with
      | failed =>
          have notThere : ¬ left.roles.contains remote = true := by
            simpa using gone
          apply returns_get_bind
          rw [if_neg notThere]
          exact induction
      | connected =>
          apply (told_ok within consistent isRole port).weaken
          exact fun _ after told => ⟨told.1, fun _ => told.2⟩
      | inProgress =>
          have isOpen := (consistent.live client remote
            (consistent.requests remote client isRole)).1
          have stateful : left.own.stateful = s.own.stateful := by
            rw [within.own]
          have url : left.own.url = s.own.url := by
            rw [within.own]
          have c2r : left.own.c2r = s.own.c2r := by
            rw [within.own]
          have r2c : left.own.r2c = s.own.r2c := by
            rw [within.own]
          apply returns_modifyGet_bind
          apply returns_modify
          refine ⟨Consistent.keeps ?_ ?_, by rintro ⟨⟩⟩
          · apply consistent.same
            · intro fd
              by_cases same : fd = remote
              · simp [Server.watch, same, isRole]
              · simp [Server.roles_watch, Ne.symm same,
                  within.roles fd same]
            · exact stateful
            · exact url
            · exact c2r
            · exact r2c
            · exact within.bufferable
            · exact within.opened
            · exact within.released
            · intro fd member
              change fd ∈ if _ then left.polled else remote :: left.polled
                at member
              have earlier := fun member =>
                consistent.sound.polled fd (within.polled fd member)
              split at member
              · exact earlier member
              · rcases List.mem_cons.mp member with rfl | before
                · exact isOpen
                · exact earlier before
          · exact stateful

end Telling

section Handling

variable {resolution : Resolution} {port : UInt16}

/-- `close` within a callback. -/
theorem close_trims (consistent : Consistent s) (fd : Fd) :
    Returns (Socks.close (hostWith world (closing world service depth · false)
      reaching) fd) s fun _ after => Trims fd s after := by
  apply returns_bind (closing_trims consistent)
  exact fun _ after trims => returns_pure trims

/-- An attempt whose outcome is not known at once. -/
theorem tryNext_pending (unpolled : fd ∉ s.polled) {count : Nat}
    (settled : settles resolution.status count = .inProgress) :
    Returns (tryNext resolution (hostWith world
      (closing world service depth · false) reaching) port fd client count) s
      fun _ after => ∃ left,
        after = { s with own := s.own.capture fd port left }.watch fd
          (.connecting client) true := by
  induction count with
  | zero => cases settled
  | succ count induction =>
      unfold tryNext
      unfold settles at settled
      cases outcome : resolution.status count with
      | failed =>
          rw [outcome] at settled
          apply returns_get_bind
          split
          · apply returns_bind (unwatch_returns fd)
            rintro _ _ ⟨isPolled, -⟩
            exact absurd isPolled unpolled
          · exact induction settled
      | connected =>
          rw [outcome] at settled
          cases settled
      | inProgress =>
          apply returns_modifyGet_bind
          apply returns_modify
          exact ⟨count, rfl⟩

/-- `connect` whose outcome is not known at once. -/
theorem connect_pending (unpolled : resolution.socket ∉ s.polled)
    (settled :
      settles resolution.status resolution.addresses = .inProgress)
    (address : Bytes) :
    Returns (connect resolution (hostWith world
      (closing world service depth · false) reaching) address port client) s
      fun result after => result = resolution.socket ∧ ∃ left,
        after = { s.openFd resolution.socket with
          own := s.own.capture resolution.socket port left }.watch
            resolution.socket (.connecting client) true := by
  have resolved : resolution.addresses ≠ 0 := by
    intro none
    rw [none] at settled
    cases settled
  unfold connect
  rw [if_neg resolved]
  apply returns_modify_bind
  apply returns_bind (tryNext_pending (by exact unpolled) settled)
  rintro _ _ ⟨left, rfl⟩
  exact returns_pure ⟨rfl, left, rfl⟩

/-- A client waits for its remote. -/
def awaiting (client remote : Fd) (address : Bytes) (port : UInt16) (left : Nat)
    (s : Server Relays) : Server Relays :=
  let s := { s.openFd remote with own := s.own.capture remote port left }.watch
    remote (.connecting client) true
  { s with own := { s.own.pair client remote address with
    stateful := s.own.stateful.setState client .connecting } }

theorem awaiting_keeps (consistent : Consistent s) (free : s.Free remote)
    (requests : s.own.stateful[client]? = some .request)
    (unbuffered : s.bufferable[client]? = none) (address : Bytes)
    (port : UInt16) (left : Nat) :
    Keeps s (awaiting client remote address port left s) := by
  have isClient := consistent.isClient client (.inl (by simp [requests]))
  have alone := consistent.alone (.inr requests)
  have states : ∀ fd : Fd,
      (awaiting client remote address port left s).own.stateful[fd]? =
        if client = fd then some .connecting else s.own.stateful[fd]? :=
    Stateful.getElem?_setState _ _ _
  constructor
  · refine consistent.begun free isClient alone unbuffered ?_ rfl rfl rfl rfl rfl
      rfl rfl ?_
    · intro fd
      change (s.roles.insert remote (.connecting client))[fd]? = _
      by_cases same : fd = remote
      · simp [same]
      · simp [ExtTreeMap.getElem?_insert, same, Ne.symm same]
    · intro fd member
      change fd ∈ if _ then s.polled else remote :: s.polled at member
      split at member
      · exact List.mem_cons_of_mem _ (consistent.sound.polled fd member)
      · rcases List.mem_cons.mp member with rfl | before
        · exact List.mem_cons_self
        · exact List.mem_cons_of_mem _ (consistent.sound.polled fd before)
  · intro other state connected present
    rw [states] at present
    split at present
    · next same =>
        rw [← same, requests] at connected
        cases connected
    · rw [connected] at present
      exact (Option.some.inj present).symm

/-- A request for a host's name. -/
theorem ask_keeps (consistent : Consistent s)
    (requests : s.own.stateful[client]? = some .request)
    (unbuffered : s.bufferable[client]? = none)
    (free : s.Free resolution.socket)
    (settled :
      settles resolution.status resolution.addresses = .inProgress)
    {again : Fd → Bytes → M Relays Unit}
    (closes : ∀ (s : Server Relays) rest, Consistent s →
      s.own.stateful[client]? = some .connecting →
        Returns (again client rest) s fun _ after => Trims client s after)
    (message : Bytes) :
    Returns (ask (hostWith world (closing world service depth · false) reaching)
      (connect resolution (hostWith world
        (closing world service depth · false) reaching)) again client message) s
      fun _ after => Keeps s after := by
  have isClient := consistent.isClient client (.inl (by simp [requests]))
  have unpolled : resolution.socket ∉ s.polled :=
    fun member => free.2 (consistent.sound.polled _ member)
  unfold ask
  dsimp only
  have known : resolution.socket ≠ -1 := by
    intro same
    have isFree := free.1
    rw [same] at isFree
    exact absurd isFree (by decide)
  apply returns_bind (connect_pending unpolled settled _)
  rintro _ _ ⟨rfl, left, rfl⟩
  rw [if_neg known]
  apply returns_modifyGet_bind
  apply returns_modifyGet_bind
  have kept := awaiting_keeps consistent free requests unbuffered
    ((message.drop 5).take (toSize (char (byteAt message 4))))
    (portAt message (nameLength message - 2)) left
  have connecting : (awaiting client resolution.socket
      ((message.drop 5).take (toSize (char (byteAt message 4))))
      (portAt message (nameLength message - 2)) left s).own.stateful[client]? =
        some .connecting :=
    (Stateful.getElem?_setState _ _ _ _).trans (if_pos rfl)
  split
  · apply (closes _ _ kept.consistent connecting).weaken
    exact fun _ after trims => kept.trims trims
  · exact returns_pure kept

/-- A message that is not whole is kept. -/
theorem needBuf_or (consistent : Consistent s)
    (early : s.own.stateful[client]? = some .greeting ∨
      s.own.stateful[client]? = some .request) {message : Bytes} {cond : Bool}
    {rest : M Relays Unit}
    (goes : cond = false → Returns rest s fun _ after => Keeps s after) :
    Returns (do
      let short ← (hostWith world (closing world service depth · false)
        reaching).needBuf client message cond
      if short then return () else rest) s fun _ after => Keeps s after := by
  apply returns_modifyGet_bind
  cases cond with
  | true =>
      rw [if_pos (by rfl)]
      apply returns_pure
      refine Consistent.keeps (consistent.rebuffered ?_) rfl
      intro fd present
      rw [Bufferable.getElem?_needBuf] at present
      split at present
      · next same =>
          rw [← same]
          exact .inr early
      · exact .inl present
  | false =>
      rw [if_neg (by exact Bool.false_ne_true)]
      exact goes rfl

/-- A message in `GREETING`. -/
theorem greet_keeps (consistent : Consistent s)
    (greeting : s.own.stateful[client]? = some .greeting) {message : Bytes}
    (calm : Greets message → world.broken s.written.length client = false) :
    Returns (greet (hostWith world (closing world service depth · false)
      reaching) client message) s fun _ after => Keeps s after := by
  have isClient := consistent.isClient client (.inl (by simp [greeting]))
  have closes : Returns (Socks.close (hostWith world
      (closing world service depth · false) reaching) client) s
      fun _ after => Keeps s after :=
    (close_trims consistent client).weaken fun _ after trims => trims.keeps
  apply needBuf_or consistent (.inl greeting)
  intro long
  split
  · exact closes
  · next version =>
      apply needBuf_or consistent (.inl greeting)
      intro whole
      split
      · next acceptable =>
          have greets : Greets message := by
            refine ⟨?_, ?_, ?_, acceptable⟩
            · exact Nat.le_of_not_lt (of_decide_eq_false long)
            · exact not_not.mp version
            · exact Nat.le_of_not_lt (of_decide_eq_false whole)
          apply returns_bind (sendPeer_sent consistent client _)
          rintro _ after ⟨broken, unbroken, sent⟩
          have unbroken := unbroken (calm greets)
          subst unbroken
          unfold Sent at sent
          rw [if_neg Bool.false_ne_true] at sent
          subst sent
          apply returns_modifyGet
          constructor
          · exact (consistent.written _).restated isClient
              (consistent.alone (.inl greeting)) (.inr rfl)
          · intro other state connected present
            rw [show (s.own.stateful.setState client .request)[other]? = _ from
              Stateful.getElem?_setState _ _ _ _] at present
            split at present
            · next same =>
                rw [← same, greeting] at connected
                cases connected
            · rw [connected] at present
              exact (Option.some.inj present).symm
      · exact closes

/-- A message in `REQUEST`. -/
theorem request_keeps (consistent : Consistent s)
    (requests : s.own.stateful[client]? = some .request)
    (unbuffered : s.bufferable[client]? = none)
    (free : s.Free resolution.socket) {message : Bytes}
    (settled : Asks message →
      settles resolution.status resolution.addresses = .inProgress)
    {again : Fd → Bytes → M Relays Unit}
    (closes : ∀ (s : Server Relays) rest, Consistent s →
      s.own.stateful[client]? = some .connecting →
        Returns (again client rest) s fun _ after => Trims client s after) :
    Returns (request (hostWith world (closing world service depth · false)
      reaching) (connect resolution (hostWith world
        (closing world service depth · false) reaching)) again client message) s
      fun _ after => Keeps s after := by
  have closed : Returns (Socks.close (hostWith world
      (closing world service depth · false) reaching) client) s
      fun _ after => Keeps s after :=
    (close_trims consistent client).weaken fun _ after trims => trims.keeps
  apply needBuf_or consistent (.inr requests)
  intro long
  split
  · exact closed
  · next connects =>
      dsimp only
      split
      · apply needBuf_or consistent (.inr requests)
        exact fun _ => closed
      · split
        · next named =>
            apply needBuf_or consistent (.inr requests)
            intro whole
            split
            · exact returns_throw
            · next atLeast =>
                have asks : Asks message := by
                  refine ⟨?_, ?_, named, ?_, Nat.le_of_not_lt atLeast⟩
                  · exact Nat.le_of_not_lt (of_decide_eq_false long)
                  · exact not_not.mp connects
                  · exact Nat.le_of_not_lt (of_decide_eq_false whole)
                exact ask_keeps consistent requests unbuffered free
                  (settled asks) closes message
        · exact closed

theorem getState_of {state : SocksState}
    (present : s.own.stateful[client]? = some state) :
    s.own.stateful.getState client = state := by
  unfold Stateful.getState
  rw [present]
  rfl

/-- What was kept is taken up. -/
theorem Consistent.appended (consistent : Consistent s) (client : Fd)
    (piece : Bytes) : Consistent { s with
      bufferable := (s.bufferable.appendBuf client piece).2 } := by
  apply consistent.rebuffered
  intro fd present
  rw [Bufferable.getElem?_appendBuf] at present
  split at present
  · exact absurd rfl present
  · exact .inl present

/-- A message in `CONNECTED` is passed on. -/
theorem onMessageAt_connected (consistent : Consistent s)
    (connected : s.own.stateful[client]? = some .connected)
    (reach : Bytes → UInt16 → Fd → M Relays Fd) (count : Nat) (piece : Bytes) :
    Returns (onMessageAt (hostWith world (closing world service depth · false)
      reaching) reach (count + 1) client piece) s fun _ after =>
        ∃ remote broken, s.own.c2r[client]? = some remote ∧
          (world.broken s.written.length remote = false → broken = false) ∧
          Sent ⟨remote, piece, broken⟩ s after := by
  obtain ⟨remote, pair⟩ := Option.ne_none_iff_exists'.mp
    (consistent.paired client .connected connected (.inr rfl))
  have unbuffered : s.bufferable[client]? = none := by
    by_contra present
    have early := consistent.buffered client present
    simp [connected] at early
  have appended : s.bufferable.appendBuf client piece =
      (piece, s.bufferable) := by
    unfold Bufferable.appendBuf
    rw [unbuffered]
  have remoteOf : s.own.remoteOf client = (remote, s.own) := by
    unfold Relays.remoteOf
    rw [pair]
  unfold onMessageAt
  apply returns_modifyGet_bind
  apply returns_modifyGet_bind
  dsimp only
  rw [appended, getState_of connected]
  apply returns_modifyGet_bind
  rw [remoteOf]
  apply (sendPeer_sent consistent remote piece).weaken
  rintro _ after ⟨broken, unbroken, sent⟩
  exact ⟨remote, broken, pair, unbroken, sent⟩

/-- A message in `CONNECTING` closes the client. -/
theorem onMessageAt_connecting (consistent : Consistent s)
    (connecting : s.own.stateful[client]? = some .connecting)
    (reach : Bytes → UInt16 → Fd → M Relays Fd) (count : Nat) (piece : Bytes) :
    Returns (onMessageAt (hostWith world (closing world service depth · false)
      reaching) reach (count + 1) client piece) s fun _ after =>
        Trims client s after := by
  unfold onMessageAt
  apply returns_modifyGet_bind
  apply returns_modifyGet_bind
  dsimp only
  rw [getState_of connecting]
  apply (close_trims (consistent.appended client piece) client).weaken
  exact fun _ after trims => ⟨trims.consistent, trims.gone, trims.roles,
    trims.states, trims.written, trims.opened⟩

/-- A message of a client. -/
theorem onMessage_keeps (consistent : Consistent s)
    (isClient : s.roles[client]? = some .client)
    (free : s.Free world.handler.socket) {piece : Bytes}
    (deferred : Deferred s (.message client piece world)) :
    Returns (onMessage (hostWith world (closing world service depth · false)
      reaching) (connect world.handler (hostWith world
        (closing world service depth · false) reaching)) client piece) s
      fun _ after => Keeps s after := by
  obtain ⟨state, present⟩ := Option.ne_none_iff_exists'.mp
    ((consistent.states client).mpr isClient)
  have kept := consistent.appended client piece
  have unbuffered : (s.bufferable.appendBuf client piece).2[client]? = none :=
    (Bufferable.getElem?_appendBuf ..).trans (if_pos rfl)
  cases state with
  | connecting =>
      apply (onMessageAt_connecting consistent present _ 1 piece).weaken
      exact fun _ after trims => trims.keeps
  | connected =>
      apply (onMessageAt_connected consistent present _ 1 piece).weaken
      rintro _ after ⟨remote, broken, -, -, sent⟩
      exact sent.keeps consistent
  | greeting =>
      unfold onMessage onMessageAt
      apply returns_modifyGet_bind
      apply returns_modifyGet_bind
      dsimp only
      rw [getState_of present, Bufferable.appendBuf_message]
      apply (greet_keeps kept present ?_).weaken
      · exact fun _ after keeps => ⟨keeps.consistent, keeps.connected⟩
      · exact deferred.1 (getState_of present)
  | request =>
      unfold onMessage onMessageAt
      apply returns_modifyGet_bind
      apply returns_modifyGet_bind
      dsimp only
      rw [getState_of present, Bufferable.appendBuf_message]
      apply (request_keeps kept present unbuffered free ?_ ?_).weaken
      · exact fun _ after keeps => ⟨keeps.consistent, keeps.connected⟩
      · exact deferred.2 (getState_of present)
      · exact fun s rest consistent connecting =>
          onMessageAt_connecting consistent connecting _ 0 rest

/-- What every event keeps, and what becomes of a client whose connection is
reported. -/
theorem perform_keeps (consistent : Consistent s)
    {event : Server.Event Resolution} (allowed : Allows s event)
    (deferred : Deferred s event) :
    Returns (perform event) s fun _ after => Keeps s after ∧
      ∀ client, Reports s event client →
        after.roles[client]? = some .client →
          after.own.stateful[client]? = some .connected := by
  cases event with
  | accept client world =>
      obtain ⟨free, -⟩ := allowed.1
      obtain ⟨-, unknown, -⟩ := consistent.unused free
      apply returns_modify_bind
      apply returns_get_bind
      apply returns_modifyGet_bind
      apply returns_modify
      refine ⟨⟨consistent.joined free, ?_⟩, by rintro _ ⟨⟩⟩
      intro other state connected present
      change (s.own.stateful.setState client .greeting)[other]? = _ at present
      rw [Stateful.getElem?_setState] at present
      split at present
      · next same =>
          rw [← same, unknown] at connected
          cases connected
      · rw [connected] at present
        exact (Option.some.inj present).symm
  | message client piece world =>
      have free := allowed.2 client piece world rfl
      apply returns_get_bind
      apply (onMessage_keeps consistent allowed.1.1.1 free deferred).weaken
      intro _ after keeps
      refine ⟨keeps, ?_⟩
      intro client reports
      cases reports with
      | atOnce requests asks settled =>
          rw [deferred.2 requests asks] at settled
          cases settled
  | clientClosed client world =>
      apply returns_get_bind
      apply returns_bind (closing_trims consistent)
      intro _ after trims
      refine returns_pure ⟨trims.keeps, ?_⟩
      rintro _ ⟨⟩
  | connected remote world =>
      obtain ⟨client, isRole, -⟩ := allowed.1
      have within : Within remote s (s.setRole remote .bare) := by
        refine ⟨?_, .inr ?_, rfl, rfl, rfl, rfl, fun _ => id⟩
        · intro other different
          simp [Server.roles_setRole, Ne.symm different]
        · simp [Server.setRole]
      apply returns_get_bind
      rw [isRole]
      apply returns_modify_bind
      have told : Returns (Server.connected world service s.roles.size remote .ok
          client) (s.setRole remote .bare) fun _ after => Keeps s after ∧
            (after.roles[client]? = some .client →
              after.own.stateful[client]? = some .connected) := by
        unfold Server.connected
        rw [if_pos rfl]
        exact ⟨(told_ok within consistent isRole (s.own.port remote)).holds⟩
      apply told.weaken
      rintro _ after ⟨keeps, known⟩
      refine ⟨keeps, ?_⟩
      intro other reports
      cases reports with
      | connected isOther =>
          rw [isRole] at isOther
          cases isOther
          exact known
  | connectFailed remote world =>
      obtain ⟨client, isRole, -⟩ := allowed.1
      have within : Within remote s (s.unregister remote) :=
        ⟨fun _ => roles_unregister, .inl roles_unregister_self, rfl, rfl, rfl,
          rfl, fun _ member => (List.mem_filter.mp member).1⟩
      apply returns_get_bind
      rw [isRole]
      apply returns_bind (unwatch_returns remote)
      rintro _ _ ⟨-, rfl⟩
      apply (tryNext_keeps within roles_unregister_self consistent isRole _ _
        _).weaken
      rintro _ after ⟨keeps, known⟩
      refine ⟨keeps, ?_⟩
      intro other reports
      cases reports with
      | again isOther captured settled =>
          rw [isRole] at isOther
          cases isOther
          rw [captured] at known
          exact known settled
  | remoteMessage remote piece world =>
      obtain ⟨client, isRole, -⟩ := allowed.1.1
      apply returns_get_bind
      rw [isRole]
      apply (sendPeer_sent consistent client piece).weaken
      rintro _ after ⟨broken, -, sent⟩
      exact ⟨sent.keeps consistent, by rintro _ ⟨⟩⟩
  | remoteClosed remote world =>
      apply returns_get_bind
      apply returns_bind (closing_trims consistent)
      intro _ after trims
      refine returns_pure ⟨trims.keeps, ?_⟩
      rintro _ ⟨⟩
  | flush =>
      apply returns_modify
      refine ⟨consistent.flushed.keeps rfl, ?_⟩
      rintro _ ⟨⟩

end Handling

theorem consistent_of_deferred (reached : Reached Deferred s) :
    Consistent s := by
  induction reached with
  | start => exact .start
  | step earlier allowed meets returned induction =>
      have kept := (perform_keeps induction allowed meets).holds _ _ returned
      exact kept.1.consistent

theorem connected_of_told (told : Told Deferred client s) :
    Consistent s ∧ s.own.stateful[client]? = some .connected := by
  induction told with
  | now earlier allowed meets returned reports stays =>
      have kept := (perform_keeps (consistent_of_deferred earlier) allowed
        meets).holds _ _ returned
      exact ⟨kept.1.consistent, kept.2 client reports stays⟩
  | later earlier allowed meets returned stays induction =>
      obtain ⟨consistent, connected⟩ := induction
      have kept :=
        ((perform_keeps consistent allowed meets).holds _ _ returned).1
      obtain ⟨state, present⟩ := Option.ne_none_iff_exists'.mp
        ((kept.consistent.states client).mpr stays)
      rw [kept.connected client state connected present] at present
      exact ⟨kept.consistent, present⟩

/-- In every state reached the clients in the tables are open, the maps of
clients and remotes are inverse to each other, and the remotes are open.  Since
its remote was reported, an open client is in `CONNECTED`, and what it sends is
written to its remote. -/
theorem relays_are_consistent (reached : Reached Deferred s) :
    (∀ client : Fd, s.own.stateful[client]? ≠ none ∨
        s.own.url[client]? ≠ none ∨ s.own.c2r[client]? ≠ none →
      s.roles[client]? = some .client ∧ client ∈ s.opened ∧
        client ∉ s.released) ∧
    Pairing.Inverse s.own.c2r s.own.r2c ∧
    (∀ client remote : Fd, s.own.c2r[client]? = some remote →
      (s.roles[remote]? = some (.connecting client) ∨
        s.roles[remote]? = some (.remote client)) ∧
      remote ∈ s.opened ∧ remote ∉ s.released) ∧
    ∀ client : Fd, Told Deferred client s →
      s.own.stateful[client]? = some .connected ∧
      ∃ remote, s.own.c2r[client]? = some remote ∧
        ∀ piece world after, perform (.message client piece world) s =
            .ok () after → ∃ broken,
          after.written = s.written ++ [⟨remote, piece, broken⟩] ∧
          (world.broken s.written.length remote = false →
            after.roles = s.roles) := by
  have consistent := consistent_of_deferred reached
  refine ⟨?_, consistent.inverse, ?_, ?_⟩
  · intro client listed
    have isClient := consistent.isClient client listed
    exact ⟨isClient, consistent.sound.clients client isClient⟩
  · exact fun client remote pair =>
      ⟨consistent.servant pair, consistent.live client remote pair⟩
  · intro client told
    have connected := (connected_of_told told).2
    obtain ⟨remote, pair⟩ := Option.ne_none_iff_exists'.mp
      (consistent.paired client .connected connected (.inr rfl))
    refine ⟨connected, remote, pair, ?_⟩
    intro piece world after returned
    have forwards : Returns (perform (.message client piece world)) s
        fun _ after => ∃ broken,
          after.written = s.written ++ [⟨remote, piece, broken⟩] ∧
          (world.broken s.written.length remote = false →
            after.roles = s.roles) := by
      apply returns_get_bind
      apply (onMessageAt_connected consistent connected _ 1 piece).weaken
      rintro _ after ⟨same, broken, another, unbroken, sent⟩
      rw [pair] at another
      cases another
      refine ⟨broken, sent.written, ?_⟩
      intro calm
      unfold Sent at sent
      rw [if_neg (by simp [unbroken calm])] at sent
      rw [sent]
    exact forwards.holds _ _ returned

section Runs

/-- The state after an event that returns. -/
def next (s : Server Relays) (event : Server.Event Resolution) : Server Relays :=
  final (perform event s)

theorem Reached.followed
    {condition : Server Relays → Server.Event Resolution → Prop}
    (earlier : Reached condition s) (event : Server.Event Resolution)
    (allowed : Allows s event) (meets : condition s event)
    (returns : isOk (perform event s) = true) :
    Reached condition (next s event) :=
  earlier.step allowed meets (eq_ok_final returns)

/-- A name with one address, and what becomes of the attempt. -/
def sampleResolution (status : ConnectStatus) (gone : Bool) :
    Surroundings Resolution where
  handler := { addresses := 1, socket := 6, status := fun _ => status }
  broken := fun _ _ => gone

def sampleGreeting : Bytes := [5, 1, 0]

/-- A request for port 80 of a host with a short name. -/
def sampleRequest : Bytes := [5, 1, 0, 3, 1, 97, 0, 80]

theorem Allows.message {piece : Bytes} (watches : s.Watches client .client)
    (quiet : world.attempt = none) (free : s.Free world.handler.socket) :
    Allows s (.message client piece world) := by
  refine ⟨⟨watches, .quiet quiet⟩, ?_⟩
  rintro _ _ _ ⟨⟩
  exact free

/-- A client that was accepted. -/
def sampleAccepted : Server Relays :=
  next { own := service.start } (.accept 5 (sampleResolution .inProgress false))

/-- A client whose greeting was answered. -/
def sampleGreeted : Server Relays :=
  next sampleAccepted
    (.message 5 sampleGreeting (sampleResolution .inProgress false))

/-- A client whose request was taken up. -/
def sampleAwaiting : Server Relays :=
  next sampleGreeted
    (.message 5 sampleRequest (sampleResolution .inProgress false))

theorem reached_accepted
    {condition : Server Relays → Server.Event Resolution → Prop}
    (meets : condition { own := service.start }
      (.accept 5 (sampleResolution .inProgress false))) :
    Reached condition sampleAccepted := by
  apply Reached.followed .start _ _ meets (by decide +kernel)
  refine ⟨⟨⟨by decide, List.not_mem_nil⟩, .quiet rfl, ?_⟩, ?_⟩
  · rintro _ ⟨⟩
  · rintro _ _ _ ⟨⟩

theorem reached_greeted
    {condition : Server Relays → Server.Event Resolution → Prop}
    (accepted : Reached condition sampleAccepted)
    (meets : condition sampleAccepted
      (.message 5 sampleGreeting (sampleResolution .inProgress false))) :
    Reached condition sampleGreeted := by
  apply accepted.followed _ _ meets (by decide +kernel)
  exact .message ⟨by decide +kernel, by decide +kernel⟩ rfl
    ⟨by decide, by decide +kernel⟩

theorem allows_request {world : Surroundings Resolution}
    (quiet : world.attempt = none) (socket : world.handler.socket = 6) :
    Allows sampleGreeted (.message 5 sampleRequest world) := by
  apply Allows.message ⟨by decide +kernel, by decide +kernel⟩ quiet
  rw [socket]
  exact ⟨by decide, by decide +kernel⟩

/-- A client sends when its remote is connected. -/
theorem relays_are_consistent_sample :
    let world := sampleResolution .inProgress false
    let s := next sampleAwaiting (.connected 6 world)
    s.own.stateful[(5 : Fd)]? = some .connected ∧ 6 ∈ s.opened ∧
      isOk (perform (.message 5 (ascii "a") world) s) = true := by
  have greeted : Reached Deferred sampleGreeted :=
    reached_greeted (reached_accepted trivial)
      ⟨fun _ _ => rfl, fun _ _ => rfl⟩
  have awaiting : Reached Deferred sampleAwaiting :=
    greeted.followed _ (allows_request rfl rfl)
      ⟨fun _ _ => rfl, fun _ _ => rfl⟩ (by decide +kernel)
  have allowed : Allows sampleAwaiting
      (.connected 6 (sampleResolution .inProgress false)) :=
    ⟨⟨5, by decide +kernel, by decide +kernel⟩, by rintro _ _ _ ⟨⟩⟩
  have last := awaiting.followed _ allowed trivial (by decide +kernel)
  have told : Told Deferred 5 (next sampleAwaiting
      (.connected 6 (sampleResolution .inProgress false))) :=
    .now awaiting allowed trivial (eq_ok_final (by decide +kernel))
      (.connected (by decide +kernel)) (by decide +kernel)
  obtain ⟨-, -, remotes, forwards⟩ := relays_are_consistent last
  exact ⟨(forwards 5 told).1, (remotes 5 6 (by decide +kernel)).2.1,
    by decide +kernel⟩

/-- The answer to a greeting finds its connection broken, and the client that is
closed gets a state.  A connect that succeeds at once is forgotten, so that the
next message closes the client.  A client that was closed because a connect has
failed at once gets a remote.  And where the name does not resolve nothing is
known of what becomes of the server. -/
theorem relays_come_apart :
    (∃ s, Reached (fun _ _ => True) s ∧
      s.own.stateful[(5 : Fd)]? = some .request ∧
      s.roles[(5 : Fd)]? = none) ∧
    (∃ s, Reached (fun _ _ => True) s ∧ Told (fun _ _ => True) 5 s ∧
      s.own.stateful[(5 : Fd)]? = some .connecting ∧
      (next s (.message 5 (ascii "a")
        (sampleResolution .inProgress false))).roles[(5 : Fd)]? = none) ∧
    (∃ s, Reached (fun _ _ => True) s ∧ s.own.c2r[(5 : Fd)]? = some 6 ∧
      s.roles[(5 : Fd)]? = none) ∧
    ∃ s world, Reached (fun _ _ => True) s ∧
      Allows s (.message 5 sampleRequest world) ∧
      world.handler.addresses = 0 ∧
      isOk (perform (.message 5 sampleRequest world) s) = false := by
  have accepted : Reached (fun _ _ => True) sampleAccepted :=
    reached_accepted trivial
  have greeted := reached_greeted accepted trivial
  refine ⟨?_, ?_, ?_, ?_⟩
  · have broken := accepted.followed
      (.message 5 sampleGreeting (sampleResolution .inProgress true))
      (.message ⟨by decide +kernel, by decide +kernel⟩ rfl
        ⟨by decide, by decide +kernel⟩) trivial (by decide +kernel)
    exact ⟨_, broken, by decide +kernel, by decide +kernel⟩
  · have allowed : Allows sampleGreeted
        (.message 5 sampleRequest (sampleResolution .connected false)) :=
      allows_request rfl rfl
    have connected := greeted.followed _ allowed trivial (by decide +kernel)
    refine ⟨_, connected, ?_, by decide +kernel, by decide +kernel⟩
    exact .now greeted allowed trivial (eq_ok_final (by decide +kernel))
      (.atOnce (by decide +kernel)
        ⟨by decide +kernel, by decide +kernel, by decide +kernel,
          by decide +kernel, by decide +kernel⟩ rfl) (by decide +kernel)
  · have failed := greeted.followed
      (.message 5 sampleRequest (sampleResolution .failed false))
      (allows_request rfl rfl) trivial (by decide +kernel)
    exact ⟨_, failed, by decide +kernel, by decide +kernel⟩
  · exact ⟨sampleGreeted, { handler := { socket := 6 } }, greeted,
      allows_request rfl rfl, rfl, by decide +kernel⟩

end Runs

end Socks

end Universe
