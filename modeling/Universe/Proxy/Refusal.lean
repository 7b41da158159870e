import Universe.Proxy.Pairing

/-!
# Clients whose connection fails

A client waits for its remote or it is connected.  When the connection cannot
be made, whoever finds that out, the client is closed; but a client whose
connect fails within `on_connect` is not watched yet, so that it is not closed,
and it is watched afterwards.
-/

namespace Universe

open Stepwise Server
open Std (ExtTreeMap)

namespace Proxy

variable {remoteAddressList : List Address} {s after : Server Tunnels}
  {world : Surroundings Unit} {depth : Nat} {fd client remote : Fd}
  {connect : Address → Fd → M Tunnels Fd}

/-- The connection of a client has failed in an event: epoll has reported it, or
it was given up. -/
def Failed (s : Server Tunnels) (event : Server.Event Unit)
    (after : Server Tunnels) (remote client : Fd) : Prop :=
  s.roles[remote]? = some (.connecting client) ∧
    ((∃ world, event = .connectFailed remote world) ∨
      (∀ world, event ≠ .connected remote world) ∧
        after.roles[remote]? ≠ some (.connecting client))

/-- A descriptor that was that of a client is released and not watched. -/
def IsClosed (s after : Server Tunnels) (client : Fd) : Prop :=
  after.roles[client]? ≠ some .client ∧
    (s.roles[client]? = some .client → client ∈ after.released)

/-- Every client that is not connected waits for a socket that is open. -/
structure Awaited (s : Server Tunnels) : Prop where
  pending : ∀ client : Fd, s.roles[client]? = some .client →
    s.own.stateful.getState client = .connected ∨
      ∃ remote, s.own.c2r[client]? = some remote ∧
        s.roles[remote]? = some (.connecting client)
  live : ∀ remote client : Fd, s.roles[remote]? = some (.connecting client) →
    remote ∈ s.opened ∧ remote ∉ s.released

theorem Leaves.isClosed (leaves : Leaves s after)
    (gone : after.roles[client]? ≠ some .client) : IsClosed s after client :=
  ⟨gone, fun isClient => (leaves.closed client _ isClient).resolve_left gone⟩

namespace Awaited

theorem leaves (awaited : Awaited s) (leaves : Leaves s after) :
    Awaited after := by
  constructor
  · intro client isClient
    have wasClient := (leaves.registered client _ isClient).1
    obtain ⟨sameState, sameRemote⟩ := leaves.kept client isClient
    rcases awaited.pending client wasClient with connected | ⟨remote, pair, waits⟩
    · left
      unfold Stateful.getState
      rw [sameState]
      exact connected
    · right
      refine ⟨remote, sameRemote.trans pair, ?_⟩
      exact (leaves.refused remote client waits).resolve_right
        fun gone => gone isClient
  · intro remote client isRole
    obtain ⟨wasRole, earlier⟩ := leaves.registered remote _ isRole
    obtain ⟨isOpen, stays⟩ := awaited.live remote client wasRole
    rw [leaves.opened]
    exact ⟨isOpen, fun member => stays (earlier member)⟩

/-- The members of the proxy may change for one client that is connected. -/
theorem own (awaited : Awaited s) {own : Tunnels} (bufferable : Bufferable)
    (states : ∀ client : Fd, own.stateful.getState client = .connected ∨
      own.stateful[client]? = s.own.stateful[client]?)
    (remotes : ∀ client remote : Fd, s.own.c2r[client]? = some remote →
      own.c2r[client]? = some remote) :
    Awaited { s with own, bufferable } := by
  refine ⟨?_, awaited.live⟩
  intro client isClient
  rcases states client with connected | sameState
  · exact .inl connected
  rcases awaited.pending client isClient with connected | ⟨remote, pair, waits⟩
  · left
    unfold Stateful.getState
    rw [sameState]
    exact connected
  · exact .inr ⟨remote, remotes client remote pair, waits⟩

end Awaited

theorem remoteOf_pairs (tunnels : Tunnels) {client other remote : Fd}
    (pair : tunnels.c2r[other]? = some remote) :
    (tunnels.remoteOf client).2.c2r[other]? = some remote := by
  unfold Tunnels.remoteOf
  cases found : tunnels.c2r[client]? with
  | some _ => exact pair
  | none =>
      simp only [ExtTreeMap.getElem?_insert]
      rw [if_neg]
      · exact pair
      · intro same
        rw [Std.compare_eq_iff_eq.mp same, pair] at found
        cases found

theorem remoteOf_stateful (tunnels : Tunnels) (client : Fd) :
    (tunnels.remoteOf client).2.stateful = tunnels.stateful := by
  unfold Tunnels.remoteOf
  cases tunnels.c2r[client]? with
  | some _ => rfl
  | none => rfl

/-- A message is kept or passed on, and a broken connection is closed. -/
theorem onMessage_leaves (s : Server Tunnels) (client : Fd) (message : Bytes) :
    Returns (ITunnelLike.onMessage (hostWith world
        (closing world (service remoteAddressList) depth · false) connect)
      client message) s fun _ after => ∃ own bufferable,
        own.stateful = s.own.stateful ∧
        (∀ other remote : Fd, s.own.c2r[other]? = some remote →
          own.c2r[other]? = some remote) ∧
        Leaves { s with own, bufferable } after := by
  apply returns_modifyGet_bind
  apply returns_modifyGet_bind
  apply returns_modifyGet_bind
  dsimp only
  split
  · exact returns_pure ⟨s.own, _, rfl, fun _ _ pair => pair, .refl _⟩
  · apply returns_modifyGet_bind
    apply returns_bind (writing_leaves _ _ _)
    intro _ after leaves
    exact returns_pure ⟨_, _, remoteOf_stateful s.own client,
      fun _ _ pair => remoteOf_pairs s.own pair, leaves⟩

/-- A connection is made, and what was kept for it is passed on. -/
theorem onRemoteConnect_leaves (s : Server Tunnels) (remote client : Fd) :
    Returns (onRemoteConnect (hostWith world
        (closing world (service remoteAddressList) depth · false) connect)
      remote .ok client) s fun _ after => ∃ own bufferable,
        own.stateful = s.own.stateful.setState client .connected ∧
        (∀ other remote : Fd, s.own.c2r[other]? = some remote →
          own.c2r[other]? = some remote) ∧
        Leaves { s with own, bufferable } after := by
  unfold onRemoteConnect
  rw [if_pos rfl]
  apply returns_modifyGet_bind
  apply returns_modifyGet_bind
  split
  · apply returns_modifyGet_bind
    exact onMessage_leaves _ client _
  · exact returns_pure ⟨{ s.own with
      stateful := s.own.stateful.setState client .connected }, s.bufferable, rfl,
      fun _ _ pair => pair, .refl _⟩

/-- What every event keeps and does. -/
def Refuses (s : Server Tunnels) (event : Server.Event Unit)
    (after : Server Tunnels) : Prop :=
  Awaited after ∧ ∀ remote client : Fd, Failed s event after remote client →
    IsClosed s after client

/-- An event that closes this and that. -/
theorem Leaves.refuses (leaves : Leaves s after) (awaited : Awaited s)
    (event : Server.Event Unit)
    (silent : ∀ remote world, event ≠ .connectFailed remote world) :
    Refuses s event after := by
  refine ⟨awaited.leaves leaves, ?_⟩
  rintro remote client ⟨isRole, ⟨world, same⟩ | ⟨-, gone⟩⟩
  · exact absurd same (silent remote world)
  · exact leaves.isClosed
      ((leaves.refused remote client isRole).resolve_left gone)

/-- A new client waits for its remote or is connected. -/
theorem Accepted.refuses (sound : Sound s) (awaited : Awaited s) {role : Role}
    {state : ConnectState}
    (accepted : Accepted client remote role state s after)
    (allowed : s.Free client ∧ s.Free remote ∧ remote ≠ client)
    (begun : role = .connecting client ∨
      role = .remote client ∧ state = .connected) :
    Refuses s (.accept client world) after := by
  obtain ⟨free, freeRemote, apart⟩ := allowed
  have still : ∀ {fd other : Fd}, s.roles[fd]? = some (.connecting other) →
      after.roles[fd]? = some (.connecting other) := by
    intro fd other isRole
    have isOpen := (awaited.live fd other isRole).1
    rw [accepted.roles, if_neg, if_neg]
    · exact isRole
    · rintro rfl
      exact freeRemote.2 isOpen
    · rintro rfl
      exact free.2 isOpen
  refine ⟨⟨?_, ?_⟩, ?_⟩
  · intro other isClient
    by_cases same : client = other
    · subst same
      rcases begun with connecting | ⟨-, connected⟩
      · right
        refine ⟨remote, ?_, ?_⟩
        · rw [accepted.c2r]
          simp
        · rw [accepted.roles, if_neg (Ne.symm apart), if_pos rfl, connecting]
      · left
        unfold Stateful.getState
        rw [accepted.states, if_pos rfl, connected]
        rfl
    · have wasClient : s.roles[other]? = some .client := by
        rw [accepted.roles, if_neg same] at isClient
        split at isClient
        · rcases begun with isConnecting | ⟨isRemote, -⟩
          · rw [isConnecting] at isClient
            cases isClient
          · rw [isRemote] at isClient
            cases isClient
        · exact isClient
      rcases awaited.pending other wasClient with connected | ⟨fd, pair, waits⟩
      · left
        unfold Stateful.getState
        rw [accepted.states, if_neg same]
        exact connected
      · refine .inr ⟨fd, ?_, still waits⟩
        rw [accepted.c2r, ExtTreeMap.getElem?_insert, if_neg (by simpa using same)]
        exact pair
  · intro fd other isRole
    rw [accepted.opened, accepted.released]
    rw [accepted.roles] at isRole
    split at isRole
    · cases isRole
    split at isRole
    · next here =>
        subst here
        refine ⟨List.mem_cons_self, fun member => ?_⟩
        exact freeRemote.2 (sound.released _ member)
    · obtain ⟨isOpen, stays⟩ := awaited.live fd other isRole
      exact ⟨List.mem_cons_of_mem _ (List.mem_cons_of_mem _ isOpen), stays⟩
  · rintro fd other ⟨isRole, ⟨_, same⟩ | ⟨-, gone⟩⟩
    · cases same
    · exact absurd (still isRole) gone

/-- The connection of a client is made, and its remote is registered. -/
theorem connected_refuses (awaited : Awaited s)
    (isRole : s.roles[remote]? = some (.connecting client)) {own : Tunnels}
    {bufferable : Bufferable}
    (states : own.stateful = s.own.stateful.setState client .connected)
    (remotes : ∀ other remote : Fd, s.own.c2r[other]? = some remote →
      own.c2r[other]? = some remote)
    (leaves : Leaves { s.setRole remote .bare with own, bufferable } after) :
    Refuses s (.connected remote world)
      (after.watch remote (.remote client) false) := by
  have roles : ∀ {fd : Fd}, fd ≠ remote →
      (s.setRole remote .bare).roles[fd]? = s.roles[fd]? := by
    intro fd different
    simp [Server.roles_setRole, Ne.symm different]
  have watched : ∀ {fd : Fd}, fd ≠ remote →
      (after.watch remote (.remote client) false).roles[fd]? =
        after.roles[fd]? := by
    intro fd different
    simp [Server.roles_watch, Ne.symm different]
  have isRemote : (after.watch remote (.remote client) false).roles[remote]? =
      some (.remote client) := by
    simp [Server.watch]
  have apart : ∀ {fd other : Fd}, after.roles[fd]? = some (.connecting other) →
      fd ≠ remote := by
    rintro fd other isConnecting rfl
    have wasConnecting := (leaves.registered _ _ isConnecting).1
    simp [Server.setRole] at wasConnecting
  have begun : Awaited { s.setRole remote .bare with own, bufferable } := by
    constructor
    · intro other isClient
      have different : other ≠ remote := by
        rintro rfl
        simp [Server.setRole] at isClient
      by_cases same : client = other
      · left
        rw [states, ← same]
        simp [Stateful.getState]
      · rcases awaited.pending other ((roles different).symm.trans isClient) with
          connected | ⟨fd, pair, waits⟩
        · left
          unfold Stateful.getState
          rw [states, Stateful.getElem?_setState, if_neg same]
          exact connected
        · refine .inr ⟨fd, remotes other fd pair, (roles ?_).trans waits⟩
          rintro rfl
          rw [isRole] at waits
          exact same (by simpa using waits)
    · intro fd other isConnecting
      have different : fd ≠ remote := by
        rintro rfl
        simp [Server.setRole] at isConnecting
      exact awaited.live fd other ((roles different).symm.trans isConnecting)
  have kept := begun.leaves leaves
  refine ⟨⟨?_, ?_⟩, ?_⟩
  · intro other isClient
    have different : other ≠ remote := by
      rintro rfl
      rw [isRemote] at isClient
      cases isClient
    rcases kept.pending other ((watched different).symm.trans isClient) with
      connected | ⟨fd, pair, waits⟩
    · exact .inl connected
    · exact .inr ⟨fd, pair, (watched (apart waits)).trans waits⟩
  · intro fd other isConnecting
    have different : fd ≠ remote := by
      rintro rfl
      rw [isRemote] at isConnecting
      cases isConnecting
    exact kept.live fd other ((watched different).symm.trans isConnecting)
  · rintro fd other ⟨isConnecting, ⟨_, same⟩ | ⟨notMade, vanished⟩⟩
    · cases same
    have different : fd ≠ remote := by
      rintro rfl
      exact notMade world rfl
    have gone : after.roles[other]? ≠ some .client := by
      apply (leaves.refused fd other
        ((roles different).trans isConnecting)).resolve_left
      intro still
      exact vanished ((watched different).trans still)
    constructor
    · intro isClient
      by_cases here : other = remote
      · rw [here, isRemote] at isClient
        cases isClient
      · exact gone ((watched here).symm.trans isClient)
    · intro wasClient
      have here : other ≠ remote := by
        rintro rfl
        rw [isRole] at wasClient
        cases wasClient
      exact (leaves.closed other _ ((roles here).trans wasClient)).resolve_left
        gone

theorem perform_refuses (linked : Linked (fun _ => False) s)
    (awaited : Awaited s) {event : Server.Event Unit} (allowed : s.Allows event)
    (careful : Careful s event) :
    Returns (perform (service remoteAddressList) event) s
      fun _ after => Refuses s event after := by
  cases event with
  | accept client world =>
      obtain ⟨free, usable, apart⟩ := allowed
      cases attempt : world.attempt with
      | none => exact accept_unconnected attempt
      | some outcome =>
          have freeRemote := usable outcome attempt
          have different := apart outcome attempt
          cases outcome with
          | failing fd => exact absurd attempt (careful fd)
          | pending fd =>
              apply (accept_pending freeRemote.1 attempt).weaken
              intro _ after accepted
              exact accepted.refuses linked.sound awaited
                ⟨free, freeRemote, different⟩ (.inl rfl)
          | immediate fd =>
              have unbuffered := (linked.sound.unbuffered free).2
              apply (accept_immediate freeRemote.1 attempt unbuffered).weaken
              intro _ after accepted
              exact accepted.refuses linked.sound awaited
                ⟨free, freeRemote, different⟩ (.inr ⟨rfl, rfl⟩)
  | message client piece world =>
      apply returns_get_bind
      apply (onMessage_leaves s client piece).weaken
      rintro _ after ⟨own, bufferable, states, remotes, leaves⟩
      have awaited := awaited.own bufferable
        (fun other => .inr (congrArg (·[other]?) states)) remotes
      exact leaves.refuses awaited (.message client piece world) (by simp)
  | clientClosed client world =>
      apply returns_get_bind
      apply returns_bind (shuts_depth world remoteAddressList _ client false s)
      rintro _ after ⟨leaves, -, -⟩
      exact returns_pure (leaves.refuses awaited _ (by simp))
  | connected remote world =>
      obtain ⟨client, isRole, -⟩ := allowed
      apply returns_get_bind
      rw [isRole]
      apply returns_modify_bind
      apply returns_bind (onRemoteConnect_leaves _ remote client)
      rintro _ between ⟨own, bufferable, states, remotes, leaves⟩
      rw [if_pos rfl]
      exact returns_modify (connected_refuses awaited isRole states remotes leaves)
  | connectFailed remote world =>
      obtain ⟨client, isRole, -⟩ := allowed
      have isRefused : ConnectResult.ng ≠ .ok := by decide
      apply returns_get_bind
      rw [isRole]
      apply returns_bind (unwatch_returns remote)
      rintro _ _ ⟨-, rfl⟩
      apply returns_bind ((shuts_depth world remoteAddressList _).refused _ remote
        isRefused client)
      rintro _ told ⟨first, refused⟩
      rw [if_neg isRefused]
      apply returns_bind (shuts_depth world remoteAddressList _ remote true told)
      rintro _ after ⟨second, gone, isReleased⟩
      apply returns_pure
      have noClient : after.roles[client]? ≠ some .client := by
        rw [second.absent refused]
        simp
      have leaves : Leaves s after := by
        apply (first.trans second).unregistered isRole (isReleased rfl)
        rintro another ⟨rfl⟩
        exact noClient
      refine ⟨awaited.leaves leaves, ?_⟩
      rintro fd other ⟨isConnecting, failed⟩
      apply leaves.isClosed
      apply (leaves.refused fd other isConnecting).resolve_left
      rcases failed with ⟨_, same⟩ | ⟨-, vanished⟩
      · cases same
        rw [gone]
        simp
      · exact vanished
  | remoteMessage remote piece world =>
      obtain ⟨⟨client, isRole, _⟩, _⟩ := allowed
      apply returns_get_bind
      rw [isRole]
      apply returns_bind (writing_leaves s _ _)
      intro _ after leaves
      exact returns_pure (leaves.refuses awaited _ (by simp))
  | remoteClosed remote world =>
      apply returns_get_bind
      apply returns_bind (shuts_depth world remoteAddressList _ remote false s)
      rintro _ after ⟨leaves, -, -⟩
      exact returns_pure (leaves.refuses awaited _ (by simp))
  | flush =>
      refine returns_modify ⟨⟨awaited.pending, ?_⟩, ?_⟩
      · intro remote client isRole
        obtain ⟨isOpen, stays⟩ := awaited.live remote client isRole
        refine ⟨List.mem_filter.mpr ⟨isOpen, by simpa using stays⟩, ?_⟩
        exact List.not_mem_nil
      · rintro remote client ⟨isRole, ⟨_, same⟩ | ⟨-, gone⟩⟩
        · cases same
        · exact absurd isRole gone

theorem awaited_of_careful
    (reached : Reached (service remoteAddressList) Careful s) : Awaited s := by
  induction reached with
  | start =>
      exact ⟨fun fd isClient => by simp at isClient,
        fun fd _ isConnecting => by simp at isConnecting⟩
  | step earlier allowed meets returned induction =>
      exact ((perform_refuses (linked_of_careful earlier) induction allowed
        meets).holds _ _ returned).1

/-- While no connect fails within `on_connect`, every client is connected or
waits for a socket that is being connected, and the client of a connection that
fails is closed in the same event. -/
theorem refused_clients_are_closed
    (reached : Reached (service remoteAddressList) Careful s) :
    (∀ client : Fd, s.roles[client]? = some .client →
      s.own.c2r[client]? ≠ none ∧
      (s.own.stateful.getState client = .connected ∨
        ∃ remote, s.own.c2r[client]? = some remote ∧
          s.roles[remote]? = some (.connecting client))) ∧
    ∀ event after, s.Allows event → Careful s event →
      perform (service remoteAddressList) event s = .ok () after →
      ∀ remote client, Failed s event after remote client →
        IsClosed s after client := by
  have linked := linked_of_careful reached
  have awaited := awaited_of_careful reached
  constructor
  · intro client isClient
    refine ⟨?_, awaited.pending client isClient⟩
    exact (linked.paired client isClient).resolve_right id
  · intro event after allowed careful returned
    exact ((perform_refuses linked awaited allowed careful).holds _ _ returned).2

/-- The connection of the first client is refused later. -/
theorem refused_clients_are_closed_sample :
    IsClosed (next (service [[]]) { own := (service [[]]).start }
        (.accept 5 samplePending))
      (next (service [[]]) (next (service [[]])
        { own := (service [[]]).start } (.accept 5 samplePending))
        (.connectFailed 6 sampleQuiet)) 5 := by
  have careful : Careful { own := (service [[]]).start }
      (.accept 5 samplePending) := by
    rintro fd ⟨⟩
  have reached : Reached (service [[]]) Careful _ :=
    .followed .start (.accept 5 samplePending)
      (allows_accept _ ⟨by decide, by decide⟩ ⟨by decide, by decide⟩
        (by decide)) careful
      (by decide +kernel)
  apply (refused_clients_are_closed reached).2 (.connectFailed 6 sampleQuiet) _ _
    trivial (eq_ok_final (by decide +kernel)) 6 5
  · exact ⟨by decide +kernel, .inl ⟨sampleQuiet, rfl⟩⟩
  · exact ⟨5, by decide +kernel, by decide +kernel⟩

/-- A client whose connect has failed at once is watched, without a remote, and
all it sends is kept. -/
theorem refused_client_is_kept :
    ∃ s, Reached (service [[]]) (fun _ _ => True) s ∧
      s = next (service [[]]) (next (service [[]]) (next (service [[]])
        { own := (service [[]]).start } (.accept 5 sampleFailing))
        (.message 5 (ascii "a") sampleQuiet)) (.message 5 (ascii "b") sampleQuiet) ∧
      s.Watches 5 .client ∧ 5 ∉ s.released ∧ s.own.c2r[(5 : Fd)]? = none ∧
      s.bufferable[(5 : Fd)]? = some (ascii "ab") := by
  have first : Reached (service [[]]) (fun _ _ => True) _ :=
    .followed .start (.accept 5 sampleFailing)
      (allows_accept _ ⟨by decide, by decide⟩ ⟨by decide, by decide⟩
        (by decide)) trivial
      (by decide +kernel)
  have second := first.followed (.message 5 (ascii "a") sampleQuiet)
    ⟨⟨by decide +kernel, by decide +kernel⟩, .quiet rfl⟩ trivial
    (by decide +kernel)
  have third := second.followed (.message 5 (ascii "b") sampleQuiet)
    ⟨⟨by decide +kernel, by decide +kernel⟩, .quiet rfl⟩ trivial
    (by decide +kernel)
  refine ⟨_, third, rfl, ⟨by decide +kernel, by decide +kernel⟩, ?_⟩
  exact ⟨by decide +kernel, by decide +kernel, by decide +kernel⟩

end Proxy

end Universe
