import Universe.Proxy.Freshness

/-!
# What a proxy accepts and closes

A client is accepted together with its remote.  `on_close` and
`on_remote_close` close each other's side, and a connection that is being made
is told `GAME_OVER`.  Whatever order this takes, descriptors are only
unregistered, each of them is released, and a client that is still there has
lost nothing.
-/

namespace Universe

open Stepwise Server
open Std (ExtTreeMap)

namespace Tunnels

theorem unpair_stateful (tunnels : Tunnels) (client : Fd) :
    (tunnels.unpair client).stateful = tunnels.stateful := by
  unfold unpair
  cases tunnels.c2r[client]? <;> rfl

/-- What is erased of a client is nothing to the others. -/
theorem erased_others (tunnels : Tunnels) {client other : Fd}
    (different : other ≠ client) :
    let erased := Tunnels.unpair client
      { tunnels with stateful := tunnels.stateful.eraseState client }
    erased.stateful[other]? = tunnels.stateful[other]? ∧
      erased.c2r[other]? = tunnels.c2r[other]? := by
  constructor
  · rw [unpair_stateful]
    exact (Stateful.getElem?_eraseState ..).trans (if_neg (Ne.symm different))
  · exact (getElem?_unpair _ client other).trans (if_neg (Ne.symm different))

end Tunnels

namespace Proxy

variable {remoteAddressList : List Address} {s between after : Server Tunnels}
  {world : Surroundings Unit} {depth : Nat} {fd client remote : Fd}
  {connect : Address → Fd → M Tunnels Fd}

/-- What `close` leaves of a state, whatever else it closes. -/
structure Leaves (s after : Server Tunnels) : Prop where
  registered : ∀ (fd : Fd) (role : Role), after.roles[fd]? = some role →
    s.roles[fd]? = some role ∧ (fd ∈ after.released → fd ∈ s.released)
  closed : ∀ (fd : Fd) (role : Role), s.roles[fd]? = some role →
    after.roles[fd]? = some role ∨ fd ∈ after.released
  released : ∀ fd ∈ s.released, fd ∈ after.released
  opened : after.opened = s.opened
  kept : ∀ client : Fd, after.roles[client]? = some .client →
    after.own.stateful[client]? = s.own.stateful[client]? ∧
      after.own.c2r[client]? = s.own.c2r[client]?
  /-- A client whose connection is given up is closed. -/
  refused : ∀ remote client : Fd,
    s.roles[remote]? = some (.connecting client) →
    after.roles[remote]? = some (.connecting client) ∨
      after.roles[client]? ≠ some .client

namespace Leaves

theorem refl (s : Server Tunnels) : Leaves s s where
  registered _ _ isRole := ⟨isRole, id⟩
  closed _ _ isRole := .inl isRole
  released _ member := member
  opened := rfl
  kept _ _ := ⟨rfl, rfl⟩
  refused _ _ isRole := .inl isRole

/-- What is not registered stays so. -/
theorem absent (leaves : Leaves s after) (gone : s.roles[fd]? = none) :
    after.roles[fd]? = none := by
  cases isRole : after.roles[fd]? with
  | none => rfl
  | some role =>
      rw [(leaves.registered fd role isRole).1] at gone
      cases gone

theorem trans (first : Leaves s between) (second : Leaves between after) :
    Leaves s after := by
  constructor
  · intro fd role isRole
    obtain ⟨isRole, later⟩ := second.registered fd role isRole
    obtain ⟨isRole, earlier⟩ := first.registered fd role isRole
    exact ⟨isRole, fun member => earlier (later member)⟩
  · intro fd role isRole
    rcases first.closed fd role isRole with still | gone
    · exact second.closed fd role still
    · exact .inr (second.released fd gone)
  · exact fun fd member => second.released fd (first.released fd member)
  · exact second.opened.trans first.opened
  · intro client isClient
    have earlier := first.kept client (second.registered client _ isClient).1
    have later := second.kept client isClient
    exact ⟨later.1.trans earlier.1, later.2.trans earlier.2⟩
  · intro remote client isRole
    rcases first.refused remote client isRole with still | gone
    · exact second.refused remote client still
    · refine .inr fun isClient => ?_
      exact gone (second.registered client _ isClient).1

/-- A descriptor that is not registered is closed by force. -/
theorem release (gone : s.roles[fd]? = none) : Leaves s (s.release fd) where
  registered other role isRole := by
    refine ⟨isRole, fun member => ?_⟩
    rcases List.mem_append.mp member with earlier | last
    · exact earlier
    · rw [List.mem_singleton.mp last, show (s.release fd).roles[fd]? = _ from
        gone] at isRole
      cases isRole
  closed _ _ isRole := .inl isRole
  released _ member := List.mem_append_left _ member
  opened := rfl
  kept _ _ := ⟨rfl, rfl⟩
  refused _ _ isRole := .inl isRole

/-- What a client had is erased before it is closed. -/
theorem forgotten (client : Fd) {own : Tunnels} {bufferable : Bufferable}
    (others : ∀ other : Fd, other ≠ client →
      own.stateful[other]? = s.own.stateful[other]? ∧
        own.c2r[other]? = s.own.c2r[other]?)
    (leaves : Leaves { s with own, bufferable } after)
    (gone : after.roles[client]? = none) : Leaves s after := by
  refine ⟨leaves.registered, leaves.closed, leaves.released, leaves.opened, ?_,
    leaves.refused⟩
  intro other isClient
  have different : other ≠ client := by
    rintro rfl
    rw [gone] at isClient
    cases isClient
  obtain ⟨sameState, sameRemote⟩ := leaves.kept other isClient
  exact ⟨sameState.trans (others other different).1,
    sameRemote.trans (others other different).2⟩

/-- A descriptor is unregistered, and it is released before this is over.  When
it was being connected, its client is closed. -/
theorem unregistered {role : Role} (isRole : s.roles[fd]? = some role)
    (leaves : Leaves (s.unregister fd) after) (isReleased : fd ∈ after.released)
    (refused : ∀ client : Fd, role = .connecting client →
      after.roles[client]? ≠ some .client) : Leaves s after := by
  have gone : after.roles[fd]? = none := leaves.absent roles_unregister_self
  have same : ∀ {other : Fd}, other ≠ fd →
      (s.unregister fd).roles[other]? = s.roles[other]? :=
    fun different => roles_unregister different
  refine ⟨?_, ?_, leaves.released, leaves.opened, leaves.kept, ?_⟩
  · intro other role isRole
    have different : other ≠ fd := by
      intro here
      rw [here, gone] at isRole
      cases isRole
    obtain ⟨isRole, earlier⟩ := leaves.registered other role isRole
    exact ⟨(same different).symm.trans isRole, earlier⟩
  · intro other role isRole
    by_cases here : other = fd
    · rw [here]
      exact .inr isReleased
    · exact leaves.closed other role ((same here).trans isRole)
  · intro other client isConnecting
    by_cases here : other = fd
    · rw [here, isRole] at isConnecting
      exact .inr (refused client (Option.some.inj isConnecting))
    · exact leaves.refused other client ((same here).trans isConnecting)

end Leaves

/-- What `close` does at some depth of callbacks. -/
def Shuts (world : Surroundings Unit) (remoteAddressList : List Address)
    (depth : Nat) : Prop :=
  ∀ (fd : Fd) (force : Bool) (s : Server Tunnels),
    Returns (closing world (service remoteAddressList) depth fd force) s
      fun _ after => Leaves s after ∧ after.roles[fd]? = none ∧
        (force = true → fd ∈ after.released)

/-- A client is forgotten and closed. -/
theorem Shuts.forget (shuts : Shuts world remoteAddressList depth)
    (s : Server Tunnels) (client : Fd) :
    Returns (do
      ITunnelLike.eraseClientInfo (hostWith world
        (closing world (service remoteAddressList) depth · false) connect) client
      let _ ← closing world (service remoteAddressList) depth client false
      return ()) s fun _ after =>
        Leaves s after ∧ after.roles[client]? = none := by
  apply returns_bind (eraseClientInfo_returns _ client s)
  rintro _ _ rfl
  apply returns_bind (shuts client false _)
  rintro _ after ⟨leaves, gone, -⟩
  refine returns_pure ⟨leaves.forgotten client ?_ gone, gone⟩
  exact fun other different => s.own.erased_others different

/-- The connection to the remote of a client has failed. -/
theorem Shuts.refused (shuts : Shuts world remoteAddressList depth)
    (s : Server Tunnels) (remote : Fd) {r : ConnectResult} (ng : r ≠ .ok)
    (client : Fd) :
    Returns (onRemoteConnect (hostWith world
        (closing world (service remoteAddressList) depth · false) connect)
      remote r client) s fun _ after =>
        Leaves s after ∧ after.roles[client]? = none := by
  unfold onRemoteConnect
  rw [if_neg ng]
  exact shuts.forget s client

/-- `on_close` closes the remote, if there is one. -/
theorem Shuts.onClose (shuts : Shuts world remoteAddressList depth)
    (gone : s.roles[client]? = none) :
    Returns (ITunnelLike.onClose (hostWith world
        (closing world (service remoteAddressList) depth · false) connect)
      client) s fun _ after => Leaves s after := by
  apply returns_modifyGet_bind
  dsimp only
  cases paired : s.own.c2r[client]? with
  | none => exact returns_pure (.refl s)
  | some remote =>
      apply returns_bind (eraseClientInfo_returns _ client _)
      rintro _ _ rfl
      apply returns_bind (shuts remote false _)
      rintro _ after ⟨leaves, -, -⟩
      have stillGone : after.roles[client]? = none := leaves.absent gone
      refine returns_pure (leaves.forgotten client ?_ stillGone)
      exact fun other different => s.own.erased_others different

/-- `on_remote_close` closes the client, if it is still paired. -/
theorem Shuts.onRemoteClose (shuts : Shuts world remoteAddressList depth)
    (s : Server Tunnels) (remote client : Fd) :
    Returns (ITunnelLike.onRemoteClose (hostWith world
        (closing world (service remoteAddressList) depth · false) connect)
      remote client) s fun _ after => Leaves s after := by
  apply returns_modifyGet_bind
  split
  · apply (shuts.forget s client).weaken
    exact fun _ after left => left.1
  · exact returns_pure (.refl s)

theorem shuts_absent (gone : s.roles[fd]? = none) (force : Bool) :
    Returns (closing world (service remoteAddressList) depth fd force) s
      fun _ after => Leaves s after ∧ after.roles[fd]? = none ∧
        (force = true → fd ∈ after.released) := by
  constructor
  intro result after returned
  rw [closing_absent gone] at returned
  cases returned
  cases force with
  | true =>
      exact ⟨.release gone, gone, fun _ => List.mem_append_right _
        List.mem_cons_self⟩
  | false => exact ⟨.refl s, gone, fun never => by cases never⟩

theorem shuts_depth (world : Surroundings Unit)
    (remoteAddressList : List Address) (depth : Nat) :
    Shuts world remoteAddressList depth := by
  induction depth with
  | zero =>
      intro fd force s
      cases isRole : s.roles[fd]? with
      | none => exact shuts_absent isRole force
      | some role => exact closing_depth isRole
  | succ depth induction =>
      intro fd force s
      have gone : ((s.unregister fd).release fd).roles[fd]? = none :=
        roles_unregister_self
      have isReleased : fd ∈ ((s.unregister fd).release fd).released :=
        List.mem_append_right _ List.mem_cons_self
      cases isRole : s.roles[fd]? with
      | none => exact shuts_absent isRole force
      | some role =>
          have left : ∀ {after : Server Tunnels},
              (∀ client : Fd, role ≠ .connecting client) →
              Leaves ((s.unregister fd).release fd) after →
              Leaves s after ∧ after.roles[fd]? = none ∧
                (force = true → fd ∈ after.released) := by
            intro after apart leaves
            have isReleased := leaves.released fd isReleased
            have leaves' :=
              (Leaves.release roles_unregister_self).trans leaves
            refine ⟨leaves'.unregistered isRole isReleased ?_,
              leaves.absent gone, fun _ => isReleased⟩
            exact fun client same => absurd same (apart client)
          cases role with
          | client =>
              apply closing_of_client isRole
              intro _
              apply (induction.onClose gone).weaken
              exact fun _ after leaves => left (by simp) leaves
          | connecting client =>
              have isRefused : ConnectResult.gameOver ≠ .ok := by decide
              apply closing_of_connecting isRole
              intro _
              apply (induction.refused _ fd isRefused client).weaken
              rintro _ told ⟨first, refused⟩
              apply (induction fd true told).weaken
              rintro _ closed ⟨second, absent, -⟩
              have third : Leaves closed (closed.release fd) := .release absent
              have leaves := (first.trans second).trans third
              have isReleased : fd ∈ (closed.release fd).released :=
                List.mem_append_right _ List.mem_cons_self
              refine ⟨leaves.unregistered isRole isReleased ?_, absent,
                fun _ => isReleased⟩
              rintro another ⟨rfl⟩ isClient
              have isClient := ((second.trans third).registered _ _ isClient).1
              rw [refused] at isClient
              cases isClient
          | bare =>
              apply closing_of_bare isRole
              exact fun _ => left (by simp) (.refl _)
          | remote client =>
              apply closing_of_remote isRole
              intro _
              apply (induction.onRemoteClose _ fd client).weaken
              exact fun _ after leaves => left (by simp) leaves

/-- A write closes what is broken. -/
theorem writing_leaves (s : Server Tunnels) (fd : Fd) (data : Bytes) :
    Returns (writing world
      (closing world (service remoteAddressList) depth · false) fd data) s
      fun _ after => Leaves s after := by
  have recorded : ∀ written : List Writing, ∀ {after : Server Tunnels},
      Leaves { s with written } after → Leaves s after := by
    intro written after leaves
    exact ⟨leaves.registered, leaves.closed, leaves.released, leaves.opened,
      leaves.kept, leaves.refused⟩
  apply returns_get_bind
  apply returns_modify_bind
  split
  · apply returns_bind (shuts_depth world remoteAddressList depth fd false _)
    rintro _ after ⟨leaves, -, -⟩
    exact returns_pure (recorded _ leaves)
  · exact returns_pure (recorded _ (.refl _))

/-- A client is accepted, and a connection is made or begun for it. -/
structure Accepted (client remote : Fd) (role : Role) (state : ConnectState)
    (s after : Server Tunnels) : Prop where
  roles : ∀ fd : Fd, after.roles[fd]? =
    if client = fd then some .client
    else if remote = fd then some role else s.roles[fd]?
  polled : ∀ fd ∈ after.polled, fd = client ∨ fd = remote ∨ fd ∈ s.polled
  opened : after.opened = remote :: client :: s.opened
  released : after.released = s.released
  bufferable : after.bufferable = s.bufferable
  written : after.written = s.written
  c2r : after.own.c2r = s.own.c2r.insert client remote
  r2c : after.own.r2c = s.own.r2c.insert remote client
  states : ∀ fd : Fd, after.own.stateful[fd]? =
    if client = fd then some state else s.own.stateful[fd]?

theorem accepted_watch {role : Role} {state : ConnectState}
    (s : Server Tunnels) (own : Tunnels) (reWatch : Bool)
    (c2r : own.c2r = s.own.c2r) (r2c : own.r2c = s.own.r2c)
    (states : ∀ fd : Fd, own.stateful[fd]? =
      if client = fd then some state else s.own.stateful[fd]?) :
    Accepted client remote role state s
      (Server.watch client .client false
        { ((s.openFd client).openFd remote).watch remote role reWatch with
          own := own.pair client remote }) := by
  have added : ∀ (fd other : Fd) (held : Bool) (polled : List Fd),
      other ∈ (if held then polled else fd :: polled) →
        other = fd ∨ other ∈ polled := by
    intro fd other held polled member
    cases held with
    | true => exact .inr member
    | false => exact List.mem_cons.mp member
  constructor
  · intro fd
    simp [Server.roles_watch, Server.openFd]
  · intro fd member
    rcases added _ _ _ _ member with here | member
    · exact .inl here
    · exact .inr (added _ _ _ _ member)
  · rfl
  · rfl
  · rfl
  · rfl
  · rw [← c2r]
    rfl
  · rw [← r2c]
    rfl
  · exact states

section Accept

variable {s : Server Tunnels}

/-- What `on_connect` leaves, once `connect` has returned a descriptor. -/
theorem onConnect_returns (role : Role) (reWatch : Bool)
    (before : ConnectState) (positive : 0 ≤ remote)
    (connects : ∀ (addr : Address) (own : Tunnels),
      own.c2r = s.own.c2r → own.r2c = s.own.r2c →
      own.stateful = s.own.stateful.setState client .b4connect →
      Returns (connect addr client) { s with own } fun given between =>
        given = remote ∧ ∃ stateful : Stateful ConnectState,
          (∀ fd : Fd, stateful[fd]? =
            if client = fd then some before else s.own.stateful[fd]?) ∧
          between = { (s.openFd remote).watch remote role reWatch with
            own := { own with stateful } }) :
    Returns (onConnect (hostWith world
        (closing world (service remoteAddressList) depth · false) connect)
      remoteAddressList client) s fun _ after => ∃ own : Tunnels,
        own.c2r = s.own.c2r ∧ own.r2c = s.own.r2c ∧
        (∀ fd : Fd, own.stateful[fd]? = if client = fd then
          some (if before = .b4connect then .connect else before)
          else s.own.stateful[fd]?) ∧
        after = { (s.openFd remote).watch remote role reWatch with
          own := own.pair client remote } := by
  have made : remote ≠ -1 := by
    rintro rfl
    exact absurd positive (by decide)
  unfold onConnect
  apply returns_modifyGet_bind
  apply returns_modifyGet_bind
  dsimp only
  split
  · exact returns_throw
  · next addr _ =>
      apply returns_bind (connects addr
        (Tunnels.nextIndex { s.own with
          stateful := s.own.stateful.setState client .b4connect }).2 rfl rfl rfl)
      rintro _ _ ⟨rfl, stateful, states, rfl⟩
      have isBefore : stateful.getState client = before := by
        simp [Stateful.getState, states]
      rw [if_neg made]
      apply returns_modifyGet_bind
      dsimp only
      rw [isBefore]
      split
      · next first =>
          apply returns_modifyGet_bind
          refine returns_modifyGet ⟨{ (Tunnels.nextIndex s.own).2 with
            stateful := stateful.setState client .connect }, rfl, rfl, ?_, rfl⟩
          intro fd
          rw [Stateful.getElem?_setState, states]
          split
          · rfl
          · rfl
      · exact returns_modifyGet ⟨{ (Tunnels.nextIndex s.own).2 with stateful },
          rfl, rfl, states, rfl⟩

/-- A proxy that cannot connect accepts nothing. -/
theorem accept_unconnected (nothing : world.attempt = none)
    {post : Unit → Server Tunnels → Prop} :
    Returns (perform (service remoteAddressList) (.accept client world)) s
      post := by
  have stops : ∀ before : Server Tunnels,
      Returns (onConnect (Server.host world (service remoteAddressList) before)
        remoteAddressList client) before fun _ _ => False := by
    intro before
    unfold onConnect
    apply returns_modifyGet_bind
    apply returns_modifyGet_bind
    dsimp only
    split
    · exact returns_throw
    · unfold Server.host Server.hostWith Server.connecting
      dsimp only
      rw [nothing]
      exact returns_throw_bind
  apply returns_modify_bind
  apply returns_get_bind
  apply returns_bind (stops _)
  exact fun _ _ never => never.elim

/-- A connection is begun for a new client. -/
theorem accept_pending (positive : 0 ≤ remote)
    (begins : world.attempt = some (.pending remote)) :
    Returns (perform (service remoteAddressList) (.accept client world)) s
      fun _ after =>
        Accepted client remote (.connecting client) .connect s after := by
  apply returns_modify_bind
  apply returns_get_bind
  apply returns_bind (onConnect_returns (.connecting client) true .b4connect
    positive ?_)
  · rintro _ _ ⟨own, c2r, r2c, states, rfl⟩
    exact returns_modify (accepted_watch s own true c2r r2c states)
  · intro addr own c2r r2c states
    unfold Server.connecting
    rw [begins]
    apply returns_modify_bind
    refine returns_pure ⟨rfl, own.stateful, ?_, rfl⟩
    intro fd
    rw [states, Stateful.getElem?_setState]

/-- A connection is made at once for a new client that has no buffer. -/
theorem accept_immediate (positive : 0 ≤ remote)
    (makes : world.attempt = some (.immediate remote))
    (unbuffered : s.bufferable[client]? = none) :
    Returns (perform (service remoteAddressList) (.accept client world)) s
      fun _ after =>
        Accepted client remote (.remote client) .connected s after := by
  apply returns_modify_bind
  apply returns_get_bind
  apply returns_bind (onConnect_returns (.remote client) false .connected
    positive ?_)
  · rintro _ _ ⟨own, c2r, r2c, states, rfl⟩
    exact returns_modify (accepted_watch s own false c2r r2c states)
  · intro addr own c2r r2c states
    have told : ∀ (depth : Nat) (before : Server Tunnels),
        before.bufferable[client]? = none →
        Returns (connected world (service remoteAddressList) depth remote .ok
          client) before fun _ after => after =
            { before.watch remote (.remote client) false with
              own := { before.own with
                stateful := before.own.stateful.setState client .connected } } := by
      intro depth before unbuffered
      apply returns_bind (connected_unbuffered unbuffered remote)
      rintro _ _ rfl
      exact returns_modify rfl
    unfold Server.connecting
    rw [makes]
    apply returns_modify_bind
    apply returns_bind (told _ _ (by exact unbuffered))
    rintro _ _ rfl
    refine returns_pure ⟨rfl, own.stateful.setState client .connected, ?_, rfl⟩
    intro fd
    rw [Stateful.getElem?_setState, states, Stateful.getElem?_setState]
    split
    · rfl
    · rfl

end Accept

end Proxy

end Universe
