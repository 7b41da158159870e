import Universe.Library.Pairing
import Universe.Proxy.Steps
import Universe.Server.Reuse

/-!
# Clients and their remotes

As long as what was kept for a client can be written when its connection is
made, every event keeps the clients and their remotes in pairs: both are open,
and they are closed together.
-/

namespace Universe

open Stepwise Server
open Std (ExtTreeMap)

namespace Tunnels

theorem unpair_of_pair {tunnels : Tunnels} {client remote : Fd}
    (pair : tunnels.c2r[client]? = some remote) :
    tunnels.unpair client = { tunnels with
      c2r := tunnels.c2r.erase client
      r2c := tunnels.r2c.erase remote } := by
  unfold unpair
  rw [pair]

theorem unpair_of_none {tunnels : Tunnels} {client : Fd}
    (alone : tunnels.c2r[client]? = none) : tunnels.unpair client = tunnels := by
  unfold unpair
  rw [alone]

end Tunnels

namespace Proxy

variable {remoteAddressList : List Address} {s after : Server Tunnels}
  {world : Surroundings Unit} {depth : Nat} {fd client remote : Fd}
  {connect : Address → Fd → M Tunnels Fd}

/-- Clients and remotes are in pairs, and what is paired is open. -/
structure Coupled (s : Server Tunnels) : Prop where
  inverse : Pairing.Inverse s.own.c2r s.own.r2c
  pairs : ∀ client remote : Fd, s.own.c2r[client]? = some remote →
    s.roles[client]? = some .client ∧
      if s.own.stateful.getState client = .connected
      then s.roles[remote]? = some (.remote client)
      else s.roles[remote]? = some (.connecting client)
  servants : ∀ (fd : Fd) (role : Role) (client : Fd),
    s.roles[fd]? = some role → role = .connecting client ∨ role = .remote client →
    s.own.c2r[client]? = some fd
  notBare : ∀ fd : Fd, s.roles[fd]? ≠ some .bare
  live : ∀ (fd : Fd) (role : Role), s.roles[fd]? = some role →
    fd ∈ s.opened ∧ fd ∉ s.released
  released : ∀ fd ∈ s.released, fd ∈ s.opened
  connected : ∀ client : Fd, s.own.stateful.getState client = .connected →
    s.own.c2r[client]? ≠ none ∧ s.bufferable[client]? = none

/-- What was kept for a client is erased. -/
def forgotten (client : Fd) (s : Server Tunnels) : Server Tunnels :=
  { s with
    own := Tunnels.unpair client
      { s.own with stateful := s.own.stateful.eraseState client }
    bufferable := s.bufferable.eraseBuf client }

theorem forgotten_of_none (alone : s.own.c2r[client]? = none) :
    (forgotten client s).own =
      { s.own with stateful := s.own.stateful.eraseState client } :=
  Tunnels.unpair_of_none alone

/-- A client and its remote are closed, and nothing else. -/
structure Dropped (client remote : Fd) (s after : Server Tunnels) : Prop where
  roles : ∀ fd : Fd, after.roles[fd]? =
    if fd = client ∨ fd = remote then none else s.roles[fd]?
  opened : after.opened = s.opened
  released : ∀ fd : Fd, fd ∈ after.released ↔
    fd ∈ s.released ∨ fd = client ∨ fd = remote
  bufferable : ∀ fd : Fd, after.bufferable[fd]? =
    if client = fd then none else s.bufferable[fd]?
  written : after.written = s.written
  c2r : after.own.c2r = s.own.c2r.erase client
  r2c : after.own.r2c = s.own.r2c.erase remote
  states : ∀ fd : Fd, after.own.stateful[fd]? =
    if client = fd then none else s.own.stateful[fd]?

theorem getElem?_unregister_both (s : Server Tunnels) (first second fd : Fd) :
    ((s.unregister first).unregister second).roles[fd]? =
      if fd = first ∨ fd = second then none else s.roles[fd]? := by
  rw [getElem?_unregister, getElem?_unregister]
  by_cases isFirst : fd = first
  · simp [isFirst]
  · simp [isFirst]

theorem forgotten_forgotten (client : Fd) (s : Server Tunnels) :
    forgotten client (forgotten client s) = forgotten client s := by
  have twice : ∀ {β : Type} (map : ExtTreeMap Fd β),
      (map.erase client).erase client = map.erase client := by
    intro β map
    ext1 fd
    rw [ExtTreeMap.getElem?_erase]
    split
    · next same => rw [ExtTreeMap.getElem?_erase, if_pos same]
    · rfl
  have own : (forgotten client (forgotten client s)).own =
      (forgotten client s).own := by
    have gone : (forgotten client s).own.c2r[client]? = none := by
      exact (Tunnels.getElem?_unpair _ client client).trans (if_pos rfl)
    refine (Tunnels.unpair_of_none (by exact gone)).trans ?_
    change { (forgotten client s).own with
      stateful := (forgotten client s).own.stateful.erase client } = _
    have erased : (forgotten client s).own.stateful =
        s.own.stateful.erase client := Tunnels.unpair_stateful _ client
    rw [erased, twice, ← erased]
  unfold forgotten at own ⊢
  dsimp only at own ⊢
  rw [own]
  unfold Bufferable.eraseBuf
  rw [twice]

/-- The two sides are closed in some order, and the client is forgotten. -/
theorem dropped_of_forgotten {left : Server Tunnels}
    (pair : s.own.c2r[client]? = some remote)
    (own : left.own = (forgotten client s).own)
    (bufferable : left.bufferable = (forgotten client s).bufferable)
    (roles : ∀ fd : Fd, left.roles[fd]? =
      if fd = client ∨ fd = remote then none else s.roles[fd]?)
    (opened : left.opened = s.opened)
    (released : ∀ fd : Fd, fd ∈ left.released ↔
      fd ∈ s.released ∨ fd = client ∨ fd = remote)
    (written : left.written = s.written) : Dropped client remote s left := by
  have erased : left.own = { s.own with
      stateful := s.own.stateful.eraseState client
      c2r := s.own.c2r.erase client
      r2c := s.own.r2c.erase remote } := own.trans (Tunnels.unpair_of_pair pair)
  refine ⟨roles, opened, released, ?_, written, ?_, ?_, ?_⟩
  · intro fd
    rw [bufferable]
    exact Bufferable.getElem?_eraseBuf ..
  · rw [erased]
  · rw [erased]
  · intro fd
    rw [erased]
    exact Stateful.getElem?_eraseState ..

section Closing

variable {close : Fd → M Tunnels Bool}

theorem onClose_alone (alone : s.own.c2r[client]? = none) :
    Returns (ITunnelLike.onClose (hostWith world close connect) client) s
      fun _ after => after = s := by
  apply returns_modifyGet_bind
  dsimp only
  rw [alone]
  exact returns_pure rfl

/-- A client without a remote is closed. -/
theorem closing_left (isClient : s.roles[client]? = some .client)
    (alone : s.own.c2r[client]? = none) (force : Bool) :
    Returns (closing world (service remoteAddressList) depth client force) s
      fun _ after => after = (s.unregister client).release client := by
  cases depth with
  | zero => exact closing_depth isClient
  | succ depth =>
      apply closing_of_client isClient
      exact fun _ => onClose_alone (by exact alone)

theorem eraseClientInfo_forgotten (client : Fd) (s : Server Tunnels) :
    Returns (ITunnelLike.eraseClientInfo (hostWith world close connect) client)
      s fun _ after => after = forgotten client s :=
  eraseClientInfo_returns close client s

theorem forgotten_alone (client : Fd) (s : Server Tunnels) :
    (forgotten client s).own.c2r[client]? = none :=
  (Tunnels.getElem?_unpair _ client client).trans (if_pos rfl)

/-- A client is forgotten and closed. -/
theorem forget_left (isClient : s.roles[client]? = some .client) :
    Returns (do
      ITunnelLike.eraseClientInfo (hostWith world
        (closing world (service remoteAddressList) depth · false) connect) client
      let _ ← closing world (service remoteAddressList) depth client false
      return ()) s fun _ after =>
        after = ((forgotten client s).unregister client).release client := by
  have stillClient : (forgotten client s).roles[client]? = some .client := isClient
  apply returns_bind (eraseClientInfo_forgotten client s)
  rintro _ _ rfl
  apply returns_bind (closing_left stillClient (forgotten_alone client s) false)
  rintro _ _ rfl
  exact returns_pure rfl

/-- A client that is gone is forgotten. -/
theorem forget_gone (gone : s.roles[client]? = none) :
    Returns (do
      ITunnelLike.eraseClientInfo (hostWith world
        (closing world (service remoteAddressList) depth · false) connect) client
      let _ ← closing world (service remoteAddressList) depth client false
      return ()) s fun _ after => after = forgotten client s := by
  have stillGone : (forgotten client s).roles[client]? = none := gone
  apply returns_bind (eraseClientInfo_forgotten client s)
  rintro _ _ rfl
  apply returns_bind (closing_gone stillGone false)
  rintro _ _ rfl
  exact returns_pure rfl

/-- The connection to a client's remote has failed. -/
theorem refused_returns_of {post : Unit → Server Tunnels → Prop}
    (remote : Fd) {r : ConnectResult} (ng : r ≠ .ok)
    (forgets : Returns (do
      ITunnelLike.eraseClientInfo (hostWith world
        (closing world (service remoteAddressList) depth · false) connect) client
      let _ ← closing world (service remoteAddressList) depth client false
      return ()) s post) :
    Returns (onRemoteConnect (hostWith world
        (closing world (service remoteAddressList) depth · false) connect)
      remote r client) s post := by
  unfold onRemoteConnect
  rw [if_neg ng]
  exact forgets

/-- The remote of a client that is forgotten is closed. -/
theorem closing_servant {role : Role} (isRole : s.roles[remote]? = some role)
    (serves : role = .connecting client ∨ role = .remote client)
    (gone : s.roles[client]? = none) :
    Returns (closing world (service remoteAddressList) depth remote false)
      (forgotten client s) fun _ after => ∃ released,
        (∀ fd : Fd, fd ∈ released ↔ fd ∈ s.released ∨ fd = remote) ∧
        after = { (forgotten client s).unregister remote with released } := by
  have isRole' : (forgotten client s).roles[remote]? = some role := isRole
  have gone' : ((forgotten client s).unregister remote).roles[client]? =
      none := by
    rw [getElem?_unregister]
    split
    · rfl
    · exact gone
  cases depth with
  | zero => exact closing_depth isRole'
  | succ depth =>
      rcases serves with rfl | rfl
      · apply closing_of_connecting isRole'
        intro _
        have isRefused : ConnectResult.gameOver ≠ .ok := by decide
        apply (refused_returns_of remote isRefused (forget_gone gone')).weaken
        rintro _ _ rfl
        have same : forgotten client ((forgotten client s).unregister remote) =
            (forgotten client s).unregister remote :=
          congrArg (Server.unregister remote) (forgotten_forgotten client s)
        rw [same]
        apply (closing_gone roles_unregister_self true).weaken
        rintro _ _ rfl
        refine ⟨(s.released ++ [remote]) ++ [remote], ?_, rfl⟩
        intro fd
        simp
      · apply closing_of_remote isRole'
        intro _
        have alone : (forgotten client s).own.c2r.contains client = false := by
          rw [ExtTreeMap.contains_eq_isSome_getElem?, forgotten_alone]
          rfl
        have stays : Returns ((service remoteAddressList).onRemoteClose
            (quietHost world (service remoteAddressList) depth) remote client)
            (((forgotten client s).unregister remote).release remote)
            fun _ after =>
              after = ((forgotten client s).unregister remote).release remote := by
          apply returns_modifyGet_bind
          rw [if_neg]
          · exact returns_pure rfl
          · change ¬ (forgotten client s).own.c2r.contains client = true
            rw [alone]
            simp
        apply stays.weaken
        rintro _ _ rfl
        refine ⟨s.released ++ [remote], ?_, rfl⟩
        intro fd
        simp

/-- The role of a remote. -/
theorem Coupled.servant (coupled : Coupled s)
    (pair : s.own.c2r[client]? = some remote) : ∃ role,
      s.roles[remote]? = some role ∧
        (role = .connecting client ∨ role = .remote client) := by
  have served := (coupled.pairs client remote pair).2
  split at served
  · exact ⟨_, served, .inr rfl⟩
  · exact ⟨_, served, .inl rfl⟩

theorem Coupled.apart (coupled : Coupled s)
    (pair : s.own.c2r[client]? = some remote) : remote ≠ client := by
  rintro rfl
  obtain ⟨role, isRole, serves⟩ := coupled.servant pair
  rw [(coupled.pairs remote remote pair).1] at isRole
  cases isRole
  rcases serves with never | never
  · cases never
  · cases never

/-- A client with a remote is closed. -/
theorem closing_client (coupled : Coupled s)
    (pair : s.own.c2r[client]? = some remote) :
    Returns (closing world (service remoteAddressList) depth client false) s
      fun _ after => Dropped client remote s after := by
  have apart := coupled.apart pair
  have isClient := (coupled.pairs client remote pair).1
  obtain ⟨role, isRole, serves⟩ := coupled.servant pair
  cases depth with
  | zero => exact closing_depth isClient
  | succ depth =>
      apply closing_of_client isClient
      intro _
      have stillRole : ((s.unregister client).release client).roles[remote]? =
          some role := (roles_unregister apart).trans isRole
      apply returns_modifyGet_bind
      dsimp only
      rw [show ((s.unregister client).release client).own.c2r[client]? =
        some remote from pair]
      apply returns_bind (eraseClientInfo_forgotten client _)
      rintro _ _ rfl
      apply returns_bind (closing_servant stillRole serves
        roles_unregister_self)
      rintro _ _ ⟨released, members, rfl⟩
      apply returns_pure
      apply dropped_of_forgotten pair
      · rfl
      · rfl
      · exact getElem?_unregister_both s client remote
      · rfl
      · intro fd
        rw [members]
        change fd ∈ s.released ++ [client] ∨ fd = remote ↔ _
        simp [or_assoc]
      · rfl

/-- The client of a remote is forgotten and closed, and the remote is. -/
theorem dropped_of_left {released : List Fd}
    (pair : s.own.c2r[client]? = some remote)
    (members : ∀ fd : Fd, fd ∈ released ↔
      fd ∈ s.released ∨ fd = client ∨ fd = remote) :
    Dropped client remote s
      { (forgotten client (s.unregister remote)).unregister client with
        released } := by
  apply dropped_of_forgotten pair
  · rfl
  · rfl
  · intro fd
    exact (getElem?_unregister_both s remote client fd).trans
      (if_congr or_comm rfl rfl)
  · rfl
  · exact members
  · rfl

/-- A remote is closed. -/
theorem closing_remote (coupled : Coupled s)
    (pair : s.own.c2r[client]? = some remote) :
    Returns (closing world (service remoteAddressList) depth remote false) s
      fun _ after => Dropped client remote s after := by
  have apart := coupled.apart pair
  obtain ⟨role, isRole, serves⟩ := coupled.servant pair
  have isClient : (s.unregister remote).roles[client]? = some .client :=
    (roles_unregister (Ne.symm apart)).trans (coupled.pairs client remote pair).1
  cases depth with
  | zero => exact closing_depth isRole
  | succ depth =>
      rcases serves with rfl | rfl
      · apply closing_of_connecting isRole
        intro _
        have isRefused : ConnectResult.gameOver ≠ .ok := by decide
        apply (refused_returns_of remote isRefused
          (forget_left isClient)).weaken
        rintro _ _ rfl
        apply (closing_gone ?_ true).weaken
        · rintro _ _ rfl
          apply dropped_of_left pair
          intro fd
          change fd ∈ ((s.released ++ [client]) ++ [remote]) ++ [remote] ↔ _
          simp
        · exact (roles_unregister apart).trans roles_unregister_self
      · apply closing_of_remote isRole
        intro _
        apply returns_modifyGet_bind
        rw [if_pos]
        · apply (forget_left (by exact isClient)).weaken
          rintro _ _ rfl
          apply dropped_of_left pair
          intro fd
          change fd ∈ (s.released ++ [remote]) ++ [client] ↔ _
          simp [or_comm]
        · change s.own.c2r.contains client = true
          rw [ExtTreeMap.contains_eq_isSome_getElem?, pair]
          rfl

end Closing

/-- A write to one side of a pair closes both sides, when it gives `EPIPE`. -/
def Wrote (client remote : Fd) (writing : Writing) (s after : Server Tunnels) :
    Prop :=
  if writing.broken
  then Dropped client remote { s with written := s.written ++ [writing] } after
  else after = { s with written := s.written ++ [writing] }

/-- A connection is made, and what was kept for it is written. -/
structure Made (client remote : Fd) (s after : Server Tunnels) : Prop where
  roles : ∀ fd : Fd, after.roles[fd]? =
    if remote = fd then some (.remote client) else s.roles[fd]?
  opened : after.opened = s.opened
  released : after.released = s.released
  bufferable : ∀ fd : Fd, after.bufferable[fd]? =
    if client = fd then none else s.bufferable[fd]?
  written : after.written = s.written ++
    ((s.bufferable[client]?).map fun data => ⟨remote, data, false⟩).toList
  c2r : after.own.c2r = s.own.c2r
  r2c : after.own.r2c = s.own.r2c
  states : ∀ fd : Fd, after.own.stateful[fd]? =
    if client = fd then some .connected else s.own.stateful[fd]?

/-- A client whose connect has failed at once is watched without a remote. -/
structure Rejected (client remote : Fd) (s after : Server Tunnels) : Prop where
  roles : ∀ fd : Fd, after.roles[fd]? =
    if client = fd then some .client else s.roles[fd]?
  opened : after.opened = remote :: client :: s.opened
  released : after.released = s.released ++ [remote]
  bufferable : ∀ fd : Fd, after.bufferable[fd]? =
    if client = fd then none else s.bufferable[fd]?
  written : after.written = s.written
  c2r : after.own.c2r = s.own.c2r
  r2c : after.own.r2c = s.own.r2c
  states : ∀ fd : Fd, after.own.stateful[fd]? =
    if client = fd then none else s.own.stateful[fd]?

/-- A connection that is made finds no buffer within `on_connect`, and else it
can be written what was kept. -/
def Steady (s : Server Tunnels) : Server.Event Unit → Prop
  | .accept client world =>
      (∃ remote, world.attempt = some (.immediate remote)) →
        s.bufferable[client]? = none
  | .connected remote world =>
      ∀ client : Fd, s.roles[remote]? = some (.connecting client) →
        s.bufferable[client]? ≠ none →
          world.broken s.written.length remote = false
  | _ => True

/-- What the proxy does about an event. -/
inductive Effect (s : Server Tunnels) :
    Server.Event Unit → Server Tunnels → Prop where
  | begins {client remote : Fd} {world : Surroundings Unit}
      {after : Server Tunnels} (free : s.Free remote) (apart : remote ≠ client)
      (begins : world.attempt = some (.pending remote))
      (accepted :
        Accepted client remote (.connecting client) .connect s after) :
      Effect s (.accept client world) after
  | makes {client remote : Fd} {world : Surroundings Unit}
      {after : Server Tunnels} (free : s.Free remote) (apart : remote ≠ client)
      (makes : world.attempt = some (.immediate remote))
      (unbuffered : s.bufferable[client]? = none)
      (accepted : Accepted client remote (.remote client) .connected s after) :
      Effect s (.accept client world) after
  | rejects {client remote : Fd} {world : Surroundings Unit}
      {after : Server Tunnels} (free : s.Free remote) (apart : remote ≠ client)
      (fails : world.attempt = some (.failing remote))
      (rejected : Rejected client remote s after) :
      Effect s (.accept client world) after
  | keeps {client : Fd} {piece : Bytes} {world : Surroundings Unit}
      {bufferable : Bufferable}
      (waits : s.own.stateful.getState client ≠ .connected)
      (kept : ∀ fd : Fd, bufferable[fd]? =
        if client = fd then some ((s.bufferable[client]?).getD [] ++ piece)
        else s.bufferable[fd]?) :
      Effect s (.message client piece world) { s with bufferable }
  | passes {client remote : Fd} {piece : Bytes} {world : Surroundings Unit}
      {broken : Bool} {after : Server Tunnels}
      (connected : s.own.stateful.getState client = .connected)
      (pair : s.own.c2r[client]? = some remote)
      (wrote : Wrote client remote ⟨remote, piece, broken⟩ s after) :
      Effect s (.message client piece world) after
  | leaves {client : Fd} {world : Surroundings Unit}
      (isClient : s.roles[client]? = some .client)
      (alone : s.own.c2r[client]? = none) :
      Effect s (.clientClosed client world)
        ((s.unregister client).release client)
  | closes {client remote : Fd} {world : Surroundings Unit}
      {after : Server Tunnels} (pair : s.own.c2r[client]? = some remote)
      (dropped : Dropped client remote s after) :
      Effect s (.clientClosed client world) after
  | connects {client remote : Fd} {world : Surroundings Unit}
      {after : Server Tunnels} (pair : s.own.c2r[client]? = some remote)
      (waits : s.own.stateful.getState client ≠ .connected)
      (made : Made client remote s after) :
      Effect s (.connected remote world) after
  | refuses {client remote : Fd} {world : Surroundings Unit}
      {after : Server Tunnels} (pair : s.own.c2r[client]? = some remote)
      (dropped : Dropped client remote s after) :
      Effect s (.connectFailed remote world) after
  | answers {client remote : Fd} {piece : Bytes} {world : Surroundings Unit}
      {broken : Bool} {after : Server Tunnels}
      (pair : s.own.c2r[client]? = some remote)
      (wrote : Wrote client remote ⟨client, piece, broken⟩ s after) :
      Effect s (.remoteMessage remote piece world) after
  | loses {client remote : Fd} {world : Surroundings Unit}
      {after : Server Tunnels} (pair : s.own.c2r[client]? = some remote)
      (dropped : Dropped client remote s after) :
      Effect s (.remoteClosed remote world) after
  | flush :
      Effect s .flush
        { s with
          opened := s.opened.filter fun fd => fd ∉ s.released
          polled := s.polled.filter fun fd => fd ∉ s.released
          released := [] }

namespace Coupled

/-- A number that can be given is that of nobody. -/
theorem unused (coupled : Coupled s) (free : s.Free fd) :
    s.roles[fd]? = none ∧ s.own.c2r[fd]? = none ∧ s.own.r2c[fd]? = none ∧
      fd ∉ s.released ∧ s.own.stateful.getState fd ≠ .connected := by
  have absent : s.roles[fd]? = none := by
    cases isRole : s.roles[fd]? with
    | none => rfl
    | some role => exact absurd (coupled.live fd role isRole).1 free.2
  have alone : s.own.c2r[fd]? = none := by
    cases pair : s.own.c2r[fd]? with
    | none => rfl
    | some remote =>
        rw [(coupled.pairs fd remote pair).1] at absent
        cases absent
  refine ⟨absent, alone, ?_, ?_, ?_⟩
  · cases pair : s.own.r2c[fd]? with
    | none => rfl
    | some client =>
        obtain ⟨role, isRole, -⟩ :=
          coupled.servant ((coupled.inverse client fd).mpr pair)
        rw [isRole] at absent
        cases absent
  · exact fun member => free.2 (coupled.released fd member)
  · exact fun connected => (coupled.connected fd connected).1 alone

theorem start : Coupled { own := (service remoteAddressList).start } where
  inverse := Pairing.Inverse.empty
  pairs client remote pair := by simp [service] at pair
  servants fd role client isRole := by simp at isRole
  notBare fd := by simp
  live fd role isRole := by simp at isRole
  released fd member := by cases member
  connected client isConnected := by
    simp [service, Stateful.getState] at isConnected
    cases isConnected

theorem written (coupled : Coupled s) (written : List Writing) :
    Coupled { s with written } :=
  ⟨coupled.inverse, coupled.pairs, coupled.servants, coupled.notBare,
    coupled.live, coupled.released, coupled.connected⟩

/-- Two pairs have nothing in common. -/
theorem others (coupled : Coupled s) (pair : s.own.c2r[client]? = some remote)
    {other served : Fd} (another : s.own.c2r[other]? = some served)
    (different : other ≠ client) :
    other ≠ remote ∧ served ≠ client ∧ served ≠ remote := by
  obtain ⟨role, isRole, serves⟩ := coupled.servant pair
  obtain ⟨otherRole, isOtherRole, otherServes⟩ := coupled.servant another
  have notClient : ∀ {role : Role} {client : Fd},
      role = .connecting client ∨ role = .remote client → role ≠ .client := by
    rintro _ client (rfl | rfl)
    · simp
    · simp
  refine ⟨?_, ?_, ?_⟩
  · rintro rfl
    rw [(coupled.pairs other served another).1] at isRole
    exact notClient serves (Option.some.inj isRole).symm
  · rintro rfl
    rw [(coupled.pairs served remote pair).1] at isOtherRole
    exact notClient otherServes (Option.some.inj isOtherRole).symm
  · rintro rfl
    exact different (coupled.inverse.injective another pair)

end Coupled

theorem Dropped.coupled (dropped : Dropped client remote s after)
    (coupled : Coupled s) (pair : s.own.c2r[client]? = some remote) :
    Coupled after := by
  have remotes : ∀ other : Fd, after.own.c2r[other]? =
      if client = other then none else s.own.c2r[other]? := by
    intro other
    rw [dropped.c2r, ExtTreeMap.getElem?_erase]
    simp
  have still : ∀ {fd : Fd} {role : Role}, after.roles[fd]? = some role →
      fd ≠ client ∧ fd ≠ remote ∧ s.roles[fd]? = some role := by
    intro fd role isRole
    rw [dropped.roles] at isRole
    split at isRole
    · cases isRole
    · next apart => exact ⟨fun same => apart (.inl same),
        fun same => apart (.inr same), isRole⟩
  constructor
  · rw [dropped.c2r, dropped.r2c]
    exact coupled.inverse.erase pair
  · intro other served another
    rw [remotes] at another
    split at another
    · cases another
    next different =>
    obtain ⟨apart, notClient, notRemote⟩ :=
      coupled.others pair another (Ne.symm different)
    have same : after.own.stateful.getState other =
        s.own.stateful.getState other := by
      unfold Stateful.getState
      rw [dropped.states, if_neg different]
    have kept : ∀ {fd : Fd}, fd ≠ client → fd ≠ remote →
        after.roles[fd]? = s.roles[fd]? := by
      intro fd notClient notRemote
      rw [dropped.roles, if_neg]
      rintro (here | here)
      · exact notClient here
      · exact notRemote here
    rw [same, kept (Ne.symm different) apart, kept notClient notRemote]
    exact coupled.pairs other served another
  · intro fd role other isRole serves
    obtain ⟨-, notRemote, isRole⟩ := still isRole
    have another := coupled.servants fd role other isRole serves
    rw [remotes, if_neg]
    · exact another
    · rintro rfl
      exact notRemote (Option.some.inj (another.symm.trans pair))
  · intro fd isBare
    exact coupled.notBare fd (still isBare).2.2
  · intro fd role isRole
    obtain ⟨notClient, notRemote, isRole⟩ := still isRole
    rw [dropped.opened, dropped.released]
    refine ⟨(coupled.live fd role isRole).1, ?_⟩
    rintro (member | same | same)
    · exact (coupled.live fd role isRole).2 member
    · exact notClient same
    · exact notRemote same
  · intro fd member
    rw [dropped.opened]
    rcases (dropped.released fd).mp member with earlier | rfl | rfl
    · exact coupled.released fd earlier
    · exact (coupled.live fd _ (coupled.pairs fd remote pair).1).1
    · obtain ⟨role, isRole, -⟩ := coupled.servant pair
      exact (coupled.live fd role isRole).1
  · intro other connected
    unfold Stateful.getState at connected
    rw [dropped.states] at connected
    rw [remotes, dropped.bufferable]
    split at connected
    · cases connected
    · next different =>
        rw [if_neg different, if_neg different]
        exact coupled.connected other connected

theorem Wrote.coupled {writing : Writing}
    (wrote : Wrote client remote writing s after) (coupled : Coupled s)
    (pair : s.own.c2r[client]? = some remote) : Coupled after := by
  unfold Wrote at wrote
  split at wrote
  · exact wrote.coupled (coupled.written _) pair
  · rw [wrote]
    exact coupled.written _

/-- The end of what is not in a pair. -/
theorem Coupled.left (coupled : Coupled s)
    (isClient : s.roles[client]? = some .client)
    (alone : s.own.c2r[client]? = none) :
    Coupled ((s.unregister client).release client) := by
  have still : ∀ {fd : Fd} {role : Role},
      (s.unregister client).roles[fd]? = some role →
        fd ≠ client ∧ s.roles[fd]? = some role := by
    intro fd role isRole
    rw [getElem?_unregister] at isRole
    split at isRole
    · cases isRole
    · next different => exact ⟨different, isRole⟩
  have same : ∀ {fd : Fd} {role : Role}, s.roles[fd]? = some role →
      fd ≠ client → (s.unregister client).roles[fd]? = some role :=
    fun isRole different => (roles_unregister different).trans isRole
  refine ⟨coupled.inverse, ?_, ?_, ?_, ?_, ?_, coupled.connected⟩
  · intro other served another
    have different : other ≠ client := by
      rintro rfl
      rw [show ((s.unregister other).release other).own.c2r[other]? = none from
        alone] at another
      cases another
    obtain ⟨isOther, serves⟩ := coupled.pairs other served another
    refine ⟨same isOther different, ?_⟩
    obtain ⟨role, isRole, isServant⟩ := coupled.servant another
    have apart : served ≠ client := by
      rintro rfl
      rw [isClient] at isRole
      cases isRole
      simp at isServant
    change if s.own.stateful.getState other = .connected
      then (s.unregister client).roles[served]? = some (.remote other)
      else (s.unregister client).roles[served]? = some (.connecting other)
    rw [roles_unregister apart]
    exact serves
  · intro fd role other isRole serves
    exact coupled.servants fd role other (still isRole).2 serves
  · intro fd isBare
    exact coupled.notBare fd (still isBare).2
  · intro fd role isRole
    obtain ⟨different, isRole⟩ := still isRole
    refine ⟨(coupled.live fd role isRole).1, ?_⟩
    intro member
    rcases List.mem_append.mp member with earlier | last
    · exact (coupled.live fd role isRole).2 earlier
    · exact different (List.mem_singleton.mp last)
  · intro fd member
    rcases List.mem_append.mp member with earlier | last
    · exact coupled.released fd earlier
    · rw [List.mem_singleton.mp last]
      exact (coupled.live client _ isClient).1

/-- A client is accepted with its remote. -/
theorem Accepted.coupled {role : Role} {state : ConnectState}
    (accepted : Accepted client remote role state s after) (coupled : Coupled s)
    (free : s.Free client) (freeRemote : s.Free remote) (apart : remote ≠ client)
    (serves : role =
      if state = .connected then .remote client else .connecting client)
    (unbuffered : state = .connected → s.bufferable[client]? = none) :
    Coupled after := by
  obtain ⟨absent, alone, -, unreleased, -⟩ := coupled.unused free
  obtain ⟨absentRemote, -, unserved, remoteUnreleased, -⟩ :=
    coupled.unused freeRemote
  have remotes : ∀ other : Fd, after.own.c2r[other]? =
      if client = other then some remote else s.own.c2r[other]? := by
    intro other
    rw [accepted.c2r, ExtTreeMap.getElem?_insert]
    simp
  have states : ∀ other : Fd, after.own.stateful.getState other =
      if client = other then state else s.own.stateful.getState other := by
    intro other
    unfold Stateful.getState
    rw [accepted.states]
    split
    · rfl
    · rfl
  have still : ∀ {fd : Fd} {role : Role}, s.roles[fd]? = some role →
      after.roles[fd]? = some role := by
    intro fd role isRole
    rw [accepted.roles, if_neg, if_neg]
    · exact isRole
    · rintro rfl
      rw [absentRemote] at isRole
      cases isRole
    · rintro rfl
      rw [absent] at isRole
      cases isRole
  constructor
  · rw [accepted.c2r, accepted.r2c]
    exact coupled.inverse.insert alone unserved
  · intro other served another
    rw [remotes] at another
    rw [states]
    by_cases same : client = other
    · subst same
      rw [if_pos rfl] at another
      cases another
      rw [accepted.roles, accepted.roles, if_pos rfl, if_neg (Ne.symm apart),
        if_pos rfl, if_pos rfl, serves]
      refine ⟨rfl, ?_⟩
      split
      · rfl
      · rfl
    · rw [if_neg same] at another ⊢
      obtain ⟨isClient, isServed⟩ := coupled.pairs other served another
      refine ⟨still isClient, ?_⟩
      split at isServed
      · next connected => rw [if_pos connected, still isServed]
      · next waits => rw [if_neg waits, still isServed]
  · intro fd given other isRole isServant
    rw [accepted.roles] at isRole
    rw [remotes]
    split at isRole
    · cases isRole
      simp at isServant
    split at isRole
    · next here =>
        subst here
        cases isRole
        have same : client = other := by
          rw [serves] at isServant
          split at isServant
          · simpa using isServant
          · simpa using isServant
        rw [if_pos same]
    · have another := coupled.servants fd given other isRole isServant
      rw [if_neg]
      · exact another
      · rintro rfl
        rw [alone] at another
        cases another
  · intro fd isBare
    rw [accepted.roles] at isBare
    split at isBare
    · cases isBare
    split at isBare
    · rw [serves] at isBare
      split at isBare
      · cases isBare
      · cases isBare
    · exact coupled.notBare fd isBare
  · intro fd given isRole
    rw [accepted.opened, accepted.released]
    rw [accepted.roles] at isRole
    split at isRole
    · next here =>
        subst here
        exact ⟨List.mem_cons_of_mem _ List.mem_cons_self, unreleased⟩
    split at isRole
    · next here =>
        subst here
        exact ⟨List.mem_cons_self, remoteUnreleased⟩
    · obtain ⟨isOpen, stays⟩ := coupled.live fd given isRole
      exact ⟨List.mem_cons_of_mem _ (List.mem_cons_of_mem _ isOpen), stays⟩
  · intro fd member
    rw [accepted.opened]
    rw [accepted.released] at member
    exact List.mem_cons_of_mem _
      (List.mem_cons_of_mem _ (coupled.released fd member))
  · intro other connected
    rw [states] at connected
    rw [remotes, accepted.bufferable]
    split at connected
    · next same =>
        subst same
        rw [if_pos rfl]
        exact ⟨by simp, unbuffered connected⟩
    · next different =>
        rw [if_neg different]
        exact coupled.connected other connected

/-- A client is watched without a remote. -/
theorem Rejected.coupled (rejected : Rejected client remote s after)
    (coupled : Coupled s) (free : s.Free client) (freeRemote : s.Free remote)
    (apart : remote ≠ client) : Coupled after := by
  obtain ⟨absent, alone, -, unreleased, -⟩ := coupled.unused free
  obtain ⟨absentRemote, -, -, -, -⟩ := coupled.unused freeRemote
  have still : ∀ {fd : Fd}, fd ≠ client → after.roles[fd]? = s.roles[fd]? := by
    intro fd different
    rw [rejected.roles, if_neg (Ne.symm different)]
  constructor
  · rw [rejected.c2r, rejected.r2c]
    exact coupled.inverse
  · intro other served another
    rw [rejected.c2r] at another
    have notClient : other ≠ client := by
      rintro rfl
      rw [alone] at another
      cases another
    have apart : served ≠ client := by
      rintro rfl
      obtain ⟨role, isRole, -⟩ := coupled.servant another
      rw [absent] at isRole
      cases isRole
    have same : after.own.stateful.getState other =
        s.own.stateful.getState other := by
      unfold Stateful.getState
      rw [rejected.states, if_neg (Ne.symm notClient)]
    rw [same, still notClient, still apart]
    exact coupled.pairs other served another
  · intro fd role other isRole serves
    rw [rejected.roles] at isRole
    rw [rejected.c2r]
    split at isRole
    · cases isRole
      simp at serves
    · exact coupled.servants fd role other isRole serves
  · intro fd isBare
    rw [rejected.roles] at isBare
    split at isBare
    · cases isBare
    · exact coupled.notBare fd isBare
  · intro fd role isRole
    rw [rejected.opened, rejected.released]
    rw [rejected.roles] at isRole
    split at isRole
    · next here =>
        subst here
        refine ⟨List.mem_cons_of_mem _ List.mem_cons_self, ?_⟩
        intro member
        rcases List.mem_append.mp member with earlier | last
        · exact unreleased earlier
        · exact apart (List.mem_singleton.mp last).symm
    · obtain ⟨isOpen, stays⟩ := coupled.live fd role isRole
      refine ⟨List.mem_cons_of_mem _ (List.mem_cons_of_mem _ isOpen), ?_⟩
      intro member
      rcases List.mem_append.mp member with earlier | last
      · exact stays earlier
      · rw [List.mem_singleton.mp last, absentRemote] at isRole
        cases isRole
  · intro fd member
    rw [rejected.opened]
    rw [rejected.released] at member
    rcases List.mem_append.mp member with earlier | last
    · exact List.mem_cons_of_mem _
        (List.mem_cons_of_mem _ (coupled.released fd earlier))
    · rw [List.mem_singleton.mp last]
      exact List.mem_cons_self
  · intro other connected
    unfold Stateful.getState at connected
    rw [rejected.states] at connected
    rw [rejected.c2r, rejected.bufferable]
    split at connected
    · cases connected
    · next different =>
        rw [if_neg different]
        exact coupled.connected other connected

/-- The connection of a client is made. -/
theorem Made.coupled (made : Made client remote s after) (coupled : Coupled s)
    (pair : s.own.c2r[client]? = some remote) : Coupled after := by
  have states : ∀ other : Fd, after.own.stateful.getState other =
      if client = other then .connected else s.own.stateful.getState other := by
    intro other
    unfold Stateful.getState
    rw [made.states]
    split
    · rfl
    · rfl
  obtain ⟨role, isRole, serves⟩ := coupled.servant pair
  have still : ∀ {fd : Fd}, fd ≠ remote → after.roles[fd]? = s.roles[fd]? := by
    intro fd different
    rw [made.roles, if_neg (Ne.symm different)]
  constructor
  · rw [made.c2r, made.r2c]
    exact coupled.inverse
  · intro other served another
    rw [made.c2r] at another
    rw [states]
    by_cases same : client = other
    · subst same
      cases pair.symm.trans another
      rw [still (Ne.symm (coupled.apart pair)), made.roles, if_pos rfl,
        if_pos rfl, if_pos rfl]
      exact ⟨(coupled.pairs client remote pair).1, rfl⟩
    · obtain ⟨apart, -, notRemote⟩ := coupled.others pair another (Ne.symm same)
      rw [if_neg same, still apart, still notRemote]
      exact coupled.pairs other served another
  · intro fd given other isGiven isServant
    rw [made.roles] at isGiven
    rw [made.c2r]
    split at isGiven
    · next here =>
        subst here
        cases isGiven
        have same : client = other := by simpa using isServant
        rw [← same]
        exact pair
    · exact coupled.servants fd given other isGiven isServant
  · intro fd isBare
    rw [made.roles] at isBare
    split at isBare
    · cases isBare
    · exact coupled.notBare fd isBare
  · intro fd given isGiven
    rw [made.opened, made.released]
    rw [made.roles] at isGiven
    split at isGiven
    · next here =>
        subst here
        exact coupled.live _ role isRole
    · exact coupled.live fd given isGiven
  · rw [made.opened, made.released]
    exact coupled.released
  · intro other connected
    rw [states] at connected
    rw [made.c2r, made.bufferable]
    split at connected
    · next same =>
        subst same
        rw [if_pos rfl, pair]
        exact ⟨by simp, rfl⟩
    · next different =>
        rw [if_neg different]
        exact coupled.connected other connected

theorem Effect.coupled {event : Server.Event Unit}
    (effect : Effect s event after) (coupled : Coupled s)
    (allowed : s.Allows event) : Coupled after := by
  cases effect with
  | begins free apart _ accepted =>
      exact accepted.coupled coupled allowed.1 free apart rfl (by simp)
  | makes free apart _ unbuffered accepted =>
      exact accepted.coupled coupled allowed.1 free apart rfl
        fun _ => unbuffered
  | rejects free apart _ rejected =>
      exact rejected.coupled coupled allowed.1 free apart
  | keeps waits kept =>
      refine ⟨coupled.inverse, coupled.pairs, coupled.servants, coupled.notBare,
        coupled.live, coupled.released, ?_⟩
      intro other connected
      obtain ⟨paired, unbuffered⟩ := coupled.connected other connected
      refine ⟨paired, (kept other).trans ?_⟩
      rw [if_neg]
      · exact unbuffered
      · rintro rfl
        exact waits connected
  | passes connected pair wrote => exact wrote.coupled coupled pair
  | leaves isClient alone => exact coupled.left isClient alone
  | closes pair dropped => exact dropped.coupled coupled pair
  | connects pair waits made => exact made.coupled coupled pair
  | refuses pair dropped => exact dropped.coupled coupled pair
  | answers pair wrote => exact wrote.coupled coupled pair
  | loses pair dropped => exact dropped.coupled coupled pair
  | flush =>
      refine ⟨coupled.inverse, coupled.pairs, coupled.servants, coupled.notBare,
        ?_, ?_, coupled.connected⟩
      · intro fd role isRole
        obtain ⟨isOpen, stays⟩ := coupled.live fd role isRole
        refine ⟨List.mem_filter.mpr ⟨isOpen, by simpa using stays⟩, ?_⟩
        exact List.not_mem_nil
      · intro fd member
        cases member

/-- A connect that fails at once is told while the client is not watched. -/
theorem connecting_failing (fails : world.attempt = some (.failing remote))
    (absent : s.roles[client]? = none) (absentRemote : s.roles[remote]? = none)
    (addr : Address) :
    Returns (Server.connecting world (service remoteAddressList) depth addr
      client) s fun given after =>
        given = -1 ∧
          after = (forgotten client (s.openFd remote)).release remote := by
  have isRefused : ConnectResult.ng ≠ .ok := by decide
  have outside : ¬ (s.openFd remote).roles.contains remote = true := by
    rw [ExtTreeMap.contains_eq_isSome_getElem?,
      show (s.openFd remote).roles[remote]? = none from absentRemote]
    simp
  have told : Returns
      (connected world (service remoteAddressList) depth remote .ng client)
      (s.openFd remote) fun _ after =>
        after = (forgotten client (s.openFd remote)).release remote := by
    apply returns_bind (refused_returns_of remote isRefused
      (forget_gone (by exact absent)))
    rintro _ _ rfl
    rw [if_neg isRefused]
    have stillAbsent : (forgotten client (s.openFd remote)).roles[remote]? =
        none := absentRemote
    apply returns_bind (closing_gone stillAbsent true)
    rintro _ _ rfl
    exact returns_pure rfl
  unfold Server.connecting
  rw [fails]
  apply returns_modify_bind
  apply returns_get_bind
  rw [if_neg outside]
  apply returns_bind told
  rintro _ _ rfl
  exact returns_pure ⟨rfl, rfl⟩

theorem accept_failing (fails : world.attempt = some (.failing remote))
    (absent : s.roles[client]? = none) (absentRemote : s.roles[remote]? = none)
    (alone : s.own.c2r[client]? = none) :
    Returns (perform (service remoteAddressList) (.accept client world)) s
      fun _ after => Rejected client remote s after := by
  have rejects : ∀ before : Server Tunnels,
      Returns (onConnect (Server.host world (service remoteAddressList) before)
        remoteAddressList client) (s.openFd client) fun _ after =>
          ∃ own : Tunnels, own.c2r = s.own.c2r ∧ own.r2c = s.own.r2c ∧
            (∀ fd : Fd, own.stateful[fd]? =
              if client = fd then none else s.own.stateful[fd]?) ∧
            after = { ((s.openFd client).openFd remote).release remote with
              own := own, bufferable := s.bufferable.eraseBuf client } := by
    intro before
    unfold onConnect
    apply returns_modifyGet_bind
    apply returns_modifyGet_bind
    dsimp only
    split
    · exact returns_throw
    · next addr _ =>
        apply returns_bind (connecting_failing fails (by exact absent)
          (by exact absentRemote) addr)
        rintro _ _ ⟨rfl, rfl⟩
        rw [if_pos rfl]
        refine returns_pure ⟨_, ?_, ?_, ?_, rfl⟩
        · exact (congrArg Tunnels.c2r (forgotten_of_none (by exact alone))).trans
            rfl
        · exact (congrArg Tunnels.r2c (forgotten_of_none (by exact alone))).trans
            rfl
        · intro fd
          refine (congrArg (fun own : Tunnels => own.stateful[fd]?)
            (forgotten_of_none (by exact alone))).trans ?_
          refine (Stateful.getElem?_eraseState _ client fd).trans ?_
          split
          · rfl
          · next different =>
              exact (Stateful.getElem?_setState s.own.stateful client _ fd).trans
                (if_neg different)
  apply returns_modify_bind
  apply returns_get_bind
  apply returns_bind (rejects _)
  rintro _ _ ⟨own, c2r, r2c, states, rfl⟩
  apply returns_modify
  refine ⟨?_, rfl, rfl, ?_, rfl, c2r, r2c, states⟩
  · intro fd
    simp [Server.roles_watch, Server.release, Server.openFd]
  · exact Bufferable.getElem?_eraseBuf _ _

section Steps

/-- A write to either side of a pair. -/
theorem writing_pair (coupled : Coupled s)
    (pair : s.own.c2r[client]? = some remote) (side : fd = client ∨ fd = remote)
    (data : Bytes) :
    Returns (writing world
      (closing world (service remoteAddressList) depth · false) fd data) s
      fun _ after => ∃ broken, Wrote client remote ⟨fd, data, broken⟩ s after := by
  apply returns_get_bind
  apply returns_modify_bind
  cases decides : decide (fd ∈ s.opened) && world.broken s.written.length fd with
  | false =>
      rw [if_neg (by simp)]
      exact returns_pure ⟨false, rfl⟩
  | true =>
      rw [if_pos rfl]
      have coupled := coupled.written (s.written ++ [⟨fd, data, true⟩])
      have closes : Returns (closing world (service remoteAddressList) depth fd
          false) { s with written := s.written ++ [⟨fd, data, true⟩] }
          fun _ after => Wrote client remote ⟨fd, data, true⟩ s after := by
        rcases side with rfl | rfl
        · exact closing_client coupled pair
        · exact closing_remote coupled pair
      apply returns_bind closes
      exact fun _ after wrote => returns_pure ⟨true, wrote⟩

theorem remoteOf_of_pair {tunnels : Tunnels}
    (pair : tunnels.c2r[client]? = some remote) :
    tunnels.remoteOf client = (remote, tunnels) := by
  unfold Tunnels.remoteOf
  rw [pair]

/-- A write to a connection that is not broken. -/
theorem writing_calm {close : Fd → M Tunnels Bool} {data : Bytes}
    (calm : world.broken s.written.length fd = false) :
    Returns (writing world close fd data) s fun _ after =>
      after = { s with written := s.written ++ [⟨fd, data, false⟩] } := by
  apply returns_get_bind
  apply returns_modify_bind
  rw [calm, Bool.and_false, if_neg Bool.false_ne_true]
  exact returns_pure rfl

/-- A message is passed on to the remote. -/
theorem onMessage_connected {close : Fd → M Tunnels Bool}
    (connected : s.own.stateful.getState client = .connected)
    (unbuffered : s.bufferable[client]? = none)
    (pair : s.own.c2r[client]? = some remote) {piece : Bytes}
    {post : Server Tunnels → Prop}
    (writes : Returns (writing world close remote piece) s fun _ => post) :
    Returns (ITunnelLike.onMessage (hostWith world close connect) client piece)
      s fun _ => post := by
  have whole : s.bufferable.appendBuf client piece = (piece, s.bufferable) := by
    unfold Bufferable.appendBuf
    rw [unbuffered]
  have passed : s.bufferable.needBuf client piece
      (decide (s.own.stateful.getState client ≠ .connected)) =
        (false, s.bufferable) := by
    simp [Bufferable.needBuf, connected]
  apply returns_modifyGet_bind
  apply returns_modifyGet_bind
  apply returns_modifyGet_bind
  dsimp only
  rw [whole, passed, if_neg Bool.false_ne_true]
  apply returns_modifyGet_bind
  rw [remoteOf_of_pair pair]
  apply returns_bind writes
  exact fun _ after holds => returns_pure holds

/-- A message of a client. -/
theorem onMessage_effect (coupled : Coupled s) (piece : Bytes) :
    Returns (ITunnelLike.onMessage (hostWith world
        (closing world (service remoteAddressList) depth · false) connect)
      client piece) s fun _ after =>
        Effect s (.message client piece world) after := by
  by_cases connected : s.own.stateful.getState client = .connected
  · obtain ⟨paired, unbuffered⟩ := coupled.connected client connected
    obtain ⟨remote, pair⟩ := Option.ne_none_iff_exists'.mp paired
    apply onMessage_connected connected unbuffered pair
    apply (writing_pair coupled pair (.inr rfl) piece).weaken
    rintro _ after ⟨broken, wrote⟩
    exact .passes connected pair wrote
  · have kept : decide (s.own.stateful.getState client ≠ .connected) = true := by
      simpa using connected
    apply returns_modifyGet_bind
    apply returns_modifyGet_bind
    apply returns_modifyGet_bind
    dsimp only
    rw [kept, if_pos (by simp [Bufferable.needBuf])]
    apply returns_pure
    apply Effect.keeps connected
    intro other
    rw [Bufferable.getElem?_needBuf, Bufferable.appendBuf_message,
      Bufferable.getElem?_appendBuf]
    split
    · rfl
    · rfl

/-- A connection that is made, and its client's bytes. -/
theorem onRemoteConnect_made (coupled : Coupled s)
    (isRole : s.roles[remote]? = some (.connecting client))
    (calm : s.bufferable[client]? ≠ none →
      world.broken s.written.length remote = false) :
    Returns (onRemoteConnect (hostWith world
        (closing world (service remoteAddressList) depth · false) connect)
      remote .ok client) (s.setRole remote .bare) fun _ after =>
        Made client remote s (after.watch remote (.remote client) false) := by
  have pair := coupled.servants remote _ client isRole (.inl rfl)
  have roles : ∀ fd : Fd,
      ((s.setRole remote .bare).roles.insert remote (.remote client))[fd]? =
        if remote = fd then some (.remote client) else s.roles[fd]? := by
    intro fd
    by_cases same : remote = fd
    · simp [same]
    · simp [ExtTreeMap.getElem?_insert, Server.roles_setRole, same]
  have states : ∀ fd : Fd, (s.own.stateful.setState client .connected)[fd]? =
      if client = fd then some .connected else s.own.stateful[fd]? :=
    Stateful.getElem?_setState _ _ _
  unfold onRemoteConnect
  rw [if_pos rfl]
  apply returns_modifyGet_bind
  apply returns_modifyGet_bind
  cases buffered : s.bufferable[client]? with
  | none =>
      have noBuf : ¬ s.bufferable.hasBuf client = true := by
        rw [Bufferable.hasBuf_eq, buffered]
        simp
      rw [if_neg (by exact noBuf)]
      apply returns_pure
      refine ⟨roles, rfl, rfl, ?_, ?_, rfl, rfl, states⟩
      · intro fd
        split
        · next same =>
            rw [← same]
            exact buffered
        · rfl
      · rw [buffered]
        exact (List.append_nil _).symm
  | some data =>
      have hasBuf : s.bufferable.hasBuf client = true := by
        rw [Bufferable.hasBuf_eq, buffered]
        rfl
      have calm : world.broken s.written.length remote = false :=
        calm (by simp [buffered])
      have got : ((s.setRole remote .bare).bufferable.getBuf client).1 = data := by
        change (s.bufferable[client]?).getD [] = data
        rw [buffered]
        rfl
      rw [if_pos (by exact hasBuf)]
      apply returns_modifyGet_bind
      dsimp only
      rw [got]
      have isConnected : (s.own.stateful.setState client .connected).getState
          client = .connected := by
        simp [Stateful.getState]
      have erased : (s.bufferable.getBuf client).2[client]? = none :=
        (Bufferable.getElem?_getBuf ..).trans (if_pos rfl)
      apply onMessage_connected (by exact isConnected) (by exact erased)
        (by exact pair)
      apply (writing_calm (by exact calm)).weaken
      rintro _ _ rfl
      refine ⟨roles, rfl, rfl, ?_, ?_, rfl, rfl, states⟩
      · exact Bufferable.getElem?_getBuf _ _
      · rw [buffered]
        rfl

theorem perform_effect (coupled : Coupled s) {event : Server.Event Unit}
    (allowed : s.Allows event) (steady : Steady s event) :
    Returns (perform (service remoteAddressList) event) s
      fun _ after => Effect s event after := by
  cases event with
  | accept client world =>
      obtain ⟨free, usable, apart⟩ := allowed
      obtain ⟨absent, alone, -⟩ := coupled.unused free
      cases attempt : world.attempt with
      | none => exact accept_unconnected attempt
      | some outcome =>
          have freeRemote := usable outcome attempt
          have different := apart outcome attempt
          cases outcome with
          | failing fd =>
              have absentRemote := (coupled.unused freeRemote).1
              apply (accept_failing attempt absent absentRemote alone).weaken
              exact fun _ after rejected =>
                .rejects freeRemote different attempt rejected
          | pending fd =>
              apply (accept_pending freeRemote.1 attempt).weaken
              exact fun _ after accepted =>
                .begins freeRemote different attempt accepted
          | immediate fd =>
              have unbuffered := steady ⟨fd, attempt⟩
              apply (accept_immediate freeRemote.1 attempt unbuffered).weaken
              exact fun _ after accepted =>
                .makes freeRemote different attempt unbuffered accepted
  | message client piece world =>
      apply returns_get_bind
      exact onMessage_effect coupled piece
  | clientClosed client world =>
      apply returns_get_bind
      cases pair : s.own.c2r[client]? with
      | none =>
          apply returns_bind (closing_left allowed.1 pair false)
          rintro _ _ rfl
          exact returns_pure (.leaves allowed.1 pair)
      | some remote =>
          apply returns_bind (closing_client coupled pair)
          exact fun _ after dropped => returns_pure (.closes pair dropped)
  | connected remote world =>
      obtain ⟨client, isRole, -⟩ := allowed
      have pair := coupled.servants remote _ client isRole (.inl rfl)
      have waits : s.own.stateful.getState client ≠ .connected := by
        intro connected
        have served := (coupled.pairs client remote pair).2
        rw [if_pos connected, isRole] at served
        cases served
      apply returns_get_bind
      rw [isRole]
      apply returns_modify_bind
      apply returns_bind (onRemoteConnect_made coupled isRole
        (steady client isRole))
      intro _ after made
      rw [if_pos rfl]
      exact returns_modify (.connects pair waits made)
  | connectFailed remote world =>
      obtain ⟨client, isRole, -⟩ := allowed
      have pair := coupled.servants remote _ client isRole (.inl rfl)
      have apart := coupled.apart pair
      have isRefused : ConnectResult.ng ≠ .ok := by decide
      have isClient : (s.unregister remote).roles[client]? = some .client :=
        (roles_unregister (Ne.symm apart)).trans
          (coupled.pairs client remote pair).1
      apply returns_get_bind
      rw [isRole]
      apply returns_bind (unwatch_returns remote)
      rintro _ _ ⟨-, rfl⟩
      apply returns_bind (refused_returns_of remote isRefused
        (forget_left isClient))
      rintro _ _ rfl
      rw [if_neg isRefused]
      apply returns_bind (closing_gone ?_ true)
      · rintro _ _ rfl
        apply returns_pure
        apply Effect.refuses pair
        apply dropped_of_left pair
        intro fd
        change fd ∈ (s.released ++ [client]) ++ [remote] ↔ _
        simp
      · exact (roles_unregister apart).trans roles_unregister_self
  | remoteMessage remote piece world =>
      obtain ⟨⟨client, isRole, -⟩, -⟩ := allowed
      have pair := coupled.servants remote _ client isRole (.inr rfl)
      apply returns_get_bind
      rw [isRole]
      apply returns_bind (writing_pair coupled pair (.inl rfl) piece)
      rintro _ after ⟨broken, wrote⟩
      exact returns_pure (.answers pair wrote)
  | remoteClosed remote world =>
      obtain ⟨client, isRole, -⟩ := allowed
      have pair := coupled.servants remote _ client isRole (.inr rfl)
      apply returns_get_bind
      apply returns_bind (closing_remote coupled pair)
      exact fun _ after dropped => returns_pure (.loses pair dropped)
  | flush => exact returns_modify .flush

end Steps

theorem coupled_of_steady
    (reached : Reached (service remoteAddressList) Steady s) : Coupled s := by
  induction reached with
  | start => exact .start
  | step earlier allowed meets returned induction =>
      have effect := (perform_effect induction allowed meets).holds _ _ returned
      exact effect.coupled induction allowed

/-- `on_message` runs for a client that is connected. -/
inductive Forwards (s : Server Tunnels) : Server.Event Unit → Fd → Prop where
  | message {client : Fd} {piece : Bytes} {world : Surroundings Unit}
      (connected : s.own.stateful.getState client = .connected) :
      Forwards s (.message client piece world) client
  | connected {client remote : Fd} {world : Surroundings Unit}
      (isRole : s.roles[remote]? = some (.connecting client))
      (buffered : s.bufferable[client]? ≠ none) :
      Forwards s (.connected remote world) client
  | accept {client remote : Fd} {world : Surroundings Unit}
      (makes : world.attempt = some (.immediate remote))
      (buffered : s.bufferable[client]? ≠ none) :
      Forwards s (.accept client world) client

/-- In every state reached the maps are inverse to each other, both sides of a
pair are open and watched for each other, and what a connected client sends has
a remote to go to. -/
theorem tunnels_are_paired
    (reached : Reached (service remoteAddressList) Steady s) :
    Pairing.Inverse s.own.c2r s.own.r2c ∧
    (∀ client remote : Fd, s.own.c2r[client]? = some remote →
      s.roles[client]? = some .client ∧
      (s.roles[remote]? = some (.connecting client) ∨
        s.roles[remote]? = some (.remote client)) ∧
      (client ∈ s.opened ∧ client ∉ s.released) ∧
      remote ∈ s.opened ∧ remote ∉ s.released) ∧
    ∀ event client, s.Allows event → Steady s event → Forwards s event client →
      s.own.c2r[client]? ≠ none := by
  have coupled := coupled_of_steady reached
  refine ⟨coupled.inverse, ?_, ?_⟩
  · intro client remote pair
    have isClient := (coupled.pairs client remote pair).1
    obtain ⟨role, isRole, serves⟩ := coupled.servant pair
    refine ⟨isClient, ?_, coupled.live client _ isClient,
      coupled.live remote role isRole⟩
    rw [isRole]
    exact serves.imp (congrArg some) (congrArg some)
  · intro event client allowed steady forwards
    cases forwards with
    | message connected => exact (coupled.connected client connected).1
    | connected isRole buffered =>
        rw [coupled.servants _ _ client isRole (.inl rfl)]
        simp
    | accept makes buffered => exact absurd (steady ⟨_, makes⟩) buffered

section Runs

/-- A connect that takes its time. -/
def samplePending : Surroundings Unit where
  handler := ()
  attempt := some (.pending 6)

/-- A connect that succeeds at once. -/
def sampleImmediate : Surroundings Unit where
  handler := ()
  attempt := some (.immediate 6)

/-- A connection that is broken. -/
def sampleBroken : Surroundings Unit where
  handler := ()
  broken := fun _ _ => true

theorem allows_accept {client : Fd} {attempt : Attempt} (s : Server Tunnels)
    (free : s.Free client) (freeRemote : s.Free attempt.fd)
    (apart : attempt.fd ≠ client) :
    s.Allows (.accept client { handler := (), attempt := some attempt }) := by
  refine ⟨free, ?_, ?_⟩
  · rintro _ ⟨rfl⟩
    exact freeRemote
  · rintro _ ⟨rfl⟩
    exact apart

/-- A client sends before its connection is made. -/
theorem tunnels_are_paired_sample :
    let s := next (service [[]]) (next (service [[]]) (next (service [[]])
      { own := (service [[]]).start } (.accept 5 samplePending))
      (.message 5 (ascii "a") sampleQuiet)) (.connected 6 sampleQuiet)
    s.written = [⟨6, ascii "a", false⟩] ∧ 6 ∈ s.opened ∧ 6 ∉ s.released := by
  have first : Reached (service [[]]) Steady _ :=
    .followed .start (.accept 5 samplePending)
      (allows_accept _ ⟨by decide, by decide⟩ ⟨by decide, by decide⟩ (by decide))
      (fun _ => rfl) (by decide +kernel)
  have second := first.followed (.message 5 (ascii "a") sampleQuiet)
    ⟨⟨by decide +kernel, by decide +kernel⟩, .quiet rfl⟩ trivial
    (by decide +kernel)
  have third := second.followed (.connected 6 sampleQuiet)
    ⟨5, by decide +kernel, by decide +kernel⟩ (fun _ _ _ => rfl)
    (by decide +kernel)
  refine ⟨by decide +kernel, ?_⟩
  exact ((tunnels_are_paired third).2.1 5 6 (by decide +kernel)).2.2.2

/-- What was kept for a client finds its connection broken: the remote is closed
and watched again, so that it stays paired.  And a client whose connect has
failed leaves a buffer, which the next client with its number sends to a remote
that it does not have yet. -/
theorem tunnels_come_apart :
    (∃ s, Reached (service [[]]) (fun _ _ => True) s ∧
      s.own.c2r[(5 : Fd)]? = some 6 ∧ (6 : Fd) ∉ s.opened) ∧
    ∃ s, Reached (service [[]]) (fun _ _ => True) s ∧
      s.Allows (.accept 5 sampleImmediate) ∧
      Forwards s (.accept 5 sampleImmediate) 5 ∧
      s.own.c2r[(5 : Fd)]? = none ∧
      (next (service [[]]) s (.accept 5 sampleImmediate)).written =
        [⟨0, ascii "a", false⟩] := by
  constructor
  · have first : Reached (service [[]]) (fun _ _ => True) _ :=
      .followed .start (.accept 5 samplePending)
        (allows_accept _ ⟨by decide, by decide⟩ ⟨by decide, by decide⟩
          (by decide))
        trivial (by decide +kernel)
    have second := first.followed (.message 5 (ascii "a") sampleQuiet)
      ⟨⟨by decide +kernel, by decide +kernel⟩, .quiet rfl⟩ trivial
      (by decide +kernel)
    have third := second.followed (.connected 6 sampleBroken)
      ⟨5, by decide +kernel, by decide +kernel⟩ trivial (by decide +kernel)
    have last := third.followed .flush trivial trivial (by decide +kernel)
    exact ⟨_, last, by decide +kernel, by decide +kernel⟩
  · have first : Reached (service [[]]) (fun _ _ => True) _ :=
      .followed .start (.accept 5 sampleFailing)
        (allows_accept _ ⟨by decide, by decide⟩ ⟨by decide, by decide⟩
          (by decide))
        trivial (by decide +kernel)
    have second := first.followed (.message 5 (ascii "a") sampleQuiet)
      ⟨⟨by decide +kernel, by decide +kernel⟩, .quiet rfl⟩ trivial
      (by decide +kernel)
    have third := second.followed (.clientClosed 5 sampleQuiet)
      ⟨by decide +kernel, by decide +kernel⟩ trivial (by decide +kernel)
    have last := third.followed .flush trivial trivial (by decide +kernel)
    refine ⟨_, last, allows_accept _ ⟨by decide, by decide +kernel⟩
      ⟨by decide, by decide +kernel⟩ (by decide),
      .accept rfl (by decide +kernel), ?_⟩
    exact ⟨by decide +kernel, by decide +kernel⟩

end Runs

end Proxy

end Universe
