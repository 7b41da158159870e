import Universe.Proxy
import Universe.Server.Freshness

/-!
# Buffers of the clients of a proxy

`on_close` erases the buffer of a client that has a remote.  Every client has
one, up to the moment in which it is closed, unless the connect to its remote
has failed within `on_connect`.
-/

namespace Universe

open Stepwise Server
open Std (ExtTreeMap)

namespace Tunnels

variable (tunnels : Tunnels)

theorem getElem?_unpair (client fd : Fd) :
    (tunnels.unpair client).c2r[fd]? =
      if client = fd then none else tunnels.c2r[fd]? := by
  unfold unpair
  cases paired : tunnels.c2r[client]? with
  | none =>
      by_cases same : client = fd
      · subst same
        simp [paired]
      · simp [same]
  | some remote => simp [ExtTreeMap.getElem?_erase]

theorem remoteOf_keeps {client fd : Fd} (paired : tunnels.c2r[fd]? ≠ none) :
    (tunnels.remoteOf client).2.c2r[fd]? ≠ none := by
  unfold remoteOf
  cases found : tunnels.c2r[client]? with
  | some remote => exact paired
  | none =>
      simp only [ExtTreeMap.getElem?_insert]
      split
      · simp
      · exact paired

end Tunnels

namespace Proxy

variable {remoteAddressList : List Address} {s : Server Tunnels}
  {world : Surroundings Unit} {depth : Nat} {fd client : Fd}
  {broken : Fd → Prop} {connect : Address → Fd → M Tunnels Fd}

/-- Every client has a remote, but for some that have no buffer and are about
to be closed. -/
structure Linked (broken : Fd → Prop) (s : Server Tunnels) : Prop where
  sound : Sound s
  paired : ∀ fd : Fd, s.roles[fd]? = some .client →
    s.own.c2r[fd]? ≠ none ∨ broken fd
  clean : ∀ fd : Fd, broken fd → s.bufferable[fd]? = none

/-- Clients may be gone, and nothing else is open. -/
structure Follows (s after : Server Tunnels) : Prop where
  clients : ∀ fd : Fd, after.roles[fd]? = some .client →
    s.roles[fd]? = some .client
  opened : after.opened = s.opened

theorem Follows.refl (s : Server Tunnels) : Follows s s :=
  ⟨fun _ isClient => isClient, rfl⟩

theorem Follows.trans {s between after : Server Tunnels}
    (first : Follows s between) (second : Follows between after) :
    Follows s after :=
  ⟨fun fd isClient => first.clients fd (second.clients fd isClient),
    second.opened.trans first.opened⟩

namespace Linked

theorem weaken (linked : Linked broken s) {more : Fd → Prop}
    (implies : ∀ fd : Fd, broken fd → more fd)
    (clean : ∀ fd : Fd, more fd → s.bufferable[fd]? = none) : Linked more s :=
  ⟨linked.sound,
    fun fd isClient => (linked.paired fd isClient).imp_right (implies fd), clean⟩

/-- A client without a remote has no buffer. -/
theorem unpaired (linked : Linked broken s)
    (isClient : s.roles[fd]? = some .client) (alone : s.own.c2r[fd]? = none) :
    s.bufferable[fd]? = none := by
  rcases linked.paired fd isClient with paired | isBroken
  · exact absurd alone paired
  · exact linked.clean fd isBroken

/-- What a client had is erased, and it is to be closed. -/
theorem erased (linked : Linked broken s) (client : Fd) :
    Linked (fun fd => broken fd ∨ fd = client)
      { s with
        own := Tunnels.unpair client
          { s.own with stateful := s.own.stateful.eraseState client }
        bufferable := s.bufferable.eraseBuf client } := by
  constructor
  · apply (linked.sound.own _ s.written s.fired).erased
    intro fd present
    rw [Bufferable.getElem?_eraseBuf] at present
    split at present
    · exact absurd rfl present
    · exact present
  · intro fd isClient
    by_cases same : fd = client
    · exact .inr (.inr same)
    · rcases linked.paired fd isClient with paired | isBroken
      · left
        rw [Tunnels.getElem?_unpair, if_neg (Ne.symm same)]
        exact paired
      · exact .inr (.inl isBroken)
  · rintro fd (isBroken | rfl)
    · rw [Bufferable.getElem?_eraseBuf]
      split
      · rfl
      · exact linked.clean fd isBroken
    · simp

/-- A descriptor that is not that of a client leaves `_fds`. -/
theorem unregister (linked : Linked broken s)
    (noClient : s.roles[fd]? ≠ some .client) :
    Linked broken (s.unregister fd) := by
  constructor
  · exact linked.sound.unregister_other noClient
  · intro other isClient
    by_cases same : other = fd
    · rw [same, roles_unregister_self] at isClient
      cases isClient
    · rw [roles_unregister same] at isClient
      exact linked.paired other isClient
  · exact linked.clean

theorem release (linked : Linked broken s) (isOpen : fd ∈ s.opened)
    (noClient : s.roles[fd]? ≠ some .client) : Linked broken (s.release fd) :=
  ⟨linked.sound.release isOpen noClient, linked.paired, linked.clean⟩

/-- A descriptor that is closed has no buffer. -/
theorem closed (linked : Linked (fun other => broken other ∧ other ≠ fd) s)
    (gone : s.roles[fd]? ≠ some .client) : Linked broken s := by
  apply linked.weaken fun other both => both.1
  intro other isBroken
  by_cases same : other = fd
  · rw [same]
    exact linked.sound.closed fd gone
  · exact linked.clean other ⟨isBroken, same⟩

/-- A descriptor that is not that of a client need not be closed. -/
theorem restrict (linked : Linked broken s)
    (noClient : s.roles[fd]? ≠ some .client) :
    Linked (fun other => broken other ∧ other ≠ fd) s := by
  constructor
  · exact linked.sound
  · intro other isClient
    apply (linked.paired other isClient).imp_right
    intro isBroken
    refine ⟨isBroken, ?_⟩
    rintro rfl
    exact noClient isClient
  · exact fun other both => linked.clean other both.1

/-- A client leaves `_fds`, with its buffer. -/
theorem left (linked : Linked broken s) (isPolled : fd ∈ s.polled)
    {own : Tunnels} {bufferable : Bufferable} (gone : bufferable[fd]? = none)
    (fewer : ∀ other : Fd, bufferable[other]? ≠ none →
      s.bufferable[other]? ≠ none)
    (others : ∀ other : Fd, other ≠ fd → own.c2r[other]? = s.own.c2r[other]?) :
    Linked (fun other => broken other ∧ other ≠ fd)
      { (s.unregister fd).release fd with own, bufferable } := by
  constructor
  · exact ((linked.sound.unregister gone fewer).release
      (linked.sound.polled fd isPolled)
      (by simp [roles_unregister_self])).own own s.written s.fired
  · intro other isClient
    by_cases same : other = fd
    · have absent : s.unregister fd |>.roles[fd]? = none := roles_unregister_self
      rw [same] at isClient
      cases absent.symm.trans isClient
    · have isClient : s.roles[other]? = some .client :=
        (roles_unregister same).symm.trans isClient
      rcases linked.paired other isClient with paired | isBroken
      · left
        rw [others other same]
        exact paired
      · exact .inr ⟨isBroken, same⟩
  · rintro other ⟨isBroken, -⟩
    by_contra present
    exact fewer other present (linked.clean other isBroken)

theorem fewer (linked : Linked broken s) {bufferable : Bufferable}
    (fewer : ∀ fd : Fd, bufferable[fd]? ≠ none → s.bufferable[fd]? ≠ none) :
    Linked broken { s with bufferable } := by
  refine ⟨linked.sound.erased fewer, linked.paired, ?_⟩
  intro fd isBroken
  by_contra present
  exact fewer fd present (linked.clean fd isBroken)

/-- Nothing but the remotes of the clients matters of the members. -/
theorem own (linked : Linked broken s) (own : Tunnels)
    (keeps : ∀ fd : Fd, s.own.c2r[fd]? ≠ none → own.c2r[fd]? ≠ none)
    (written : List Writing) (fired : Nat) :
    Linked broken { s with own, written, fired } :=
  ⟨linked.sound.own own written fired,
    fun fd isClient => (linked.paired fd isClient).imp_left (keeps fd),
    linked.clean⟩

/-- `CONNECT` is erased before it is called. -/
theorem setRole (linked : Linked broken s)
    (noClient : s.roles[fd]? ≠ some .client) :
    Linked broken (s.setRole fd .bare) := by
  refine ⟨linked.sound.setRole noClient (by simp), ?_, linked.clean⟩
  intro another isClient
  rw [show (s.setRole fd .bare).roles[another]? = _ from
    ExtTreeMap.getElem?_insert] at isClient
  split at isClient
  · cases isClient
  · exact linked.paired another isClient

/-- A descriptor is registered for something else than a client. -/
theorem watch (linked : Linked broken s) (isOpen : fd ∈ s.opened)
    (noClient : s.roles[fd]? ≠ some .client) {role : Role}
    (other : role ≠ .client) (reWatch : Bool) :
    Linked broken (s.watch fd role reWatch) := by
  refine ⟨linked.sound.watch isOpen noClient other reWatch, ?_, linked.clean⟩
  intro another isClient
  rw [show (s.watch fd role reWatch).roles[another]? = _ from
    ExtTreeMap.getElem?_insert] at isClient
  split at isClient
  · cases isClient
    exact absurd rfl other
  · exact linked.paired another isClient

end Linked

theorem follows_unregister (s : Server Tunnels) (fd : Fd) :
    Follows s (s.unregister fd) := by
  refine ⟨?_, rfl⟩
  intro other isClient
  by_cases same : other = fd
  · rw [same, roles_unregister_self] at isClient
    cases isClient
  · rw [roles_unregister same] at isClient
    exact isClient

/-- What `close` does at some depth of callbacks. -/
def Closes (world : Surroundings Unit) (remoteAddressList : List Address)
    (depth : Nat) : Prop :=
  ∀ (fd : Fd) (force : Bool) (s : Server Tunnels) (broken : Fd → Prop),
    Linked broken s → (force = true → fd ∈ s.opened) →
    Returns (closing world (service remoteAddressList) depth fd force) s
      fun _ after => Linked (fun other => broken other ∧ other ≠ fd) after ∧
        Follows s after ∧ after.roles[fd]? ≠ some .client

theorem eraseClientInfo_returns (close : Fd → M Tunnels Bool) (client : Fd)
    (s : Server Tunnels) :
    Returns (ITunnelLike.eraseClientInfo (hostWith world close connect) client)
      s fun _ after => after =
        { s with
          own := Tunnels.unpair client
            { s.own with stateful := s.own.stateful.eraseState client }
          bufferable := s.bufferable.eraseBuf client } := by
  apply returns_modifyGet_bind
  apply returns_modify_bind
  exact returns_modifyGet rfl

/-- `close` leaves those that were to be closed before. -/
theorem Closes.returns (closes : Closes world remoteAddressList depth)
    {force : Bool} (linked : Linked (fun other => broken other ∨ other = fd) s)
    (forced : force = true → fd ∈ s.opened) :
    Returns (closing world (service remoteAddressList) depth fd force) s
      fun _ after => Linked broken after ∧ Follows s after ∧
        after.roles[fd]? ≠ some .client := by
  apply (closes fd force s _ linked forced).weaken
  rintro _ after ⟨left, follows, gone⟩
  refine ⟨Linked.closed ?_ gone, follows, gone⟩
  apply left.weaken
  · rintro other ⟨isBroken | same, different⟩
    · exact ⟨isBroken, different⟩
    · exact absurd same different
  · exact fun other both => left.clean other ⟨.inl both.1, both.2⟩

/-- A client is forgotten and closed. -/
theorem forget_returns (closes : Closes world remoteAddressList depth)
    (linked : Linked broken s) (client : Fd) :
    Returns (do
      ITunnelLike.eraseClientInfo (hostWith world
        (closing world (service remoteAddressList) depth · false) connect) client
      let _ ← closing world (service remoteAddressList) depth client false
      return ()) s fun _ after =>
        Linked broken after ∧ Follows s after := by
  have erased := linked.erased client
  apply returns_bind (eraseClientInfo_returns _ client s)
  rintro _ _ rfl
  apply returns_bind (closes.returns erased (by simp))
  rintro _ after ⟨left, follows, -⟩
  exact returns_pure ⟨left, follows.clients, follows.opened⟩

/-- `close` of a client. -/
theorem onClose_returns (closes : Closes world remoteAddressList depth)
    (linked : Linked broken s) (isClient : s.roles[fd]? = some .client)
    (isPolled : fd ∈ s.polled) :
    Returns (ITunnelLike.onClose (hostWith world
        (closing world (service remoteAddressList) depth · false) connect) fd)
      ((s.unregister fd).release fd) fun _ after =>
        Linked (fun other => broken other ∧ other ≠ fd) after ∧
          Follows s after ∧ after.roles[fd]? ≠ some .client := by
  have gone : ((s.unregister fd).release fd).roles[fd]? ≠ some .client := by
    rw [show ((s.unregister fd).release fd).roles[fd]? = none from
      roles_unregister_self]
    simp
  have follows : Follows s ((s.unregister fd).release fd) :=
    ⟨(follows_unregister s fd).clients, rfl⟩
  have same : ((s.unregister fd).release fd).own.c2r[fd]? = s.own.c2r[fd]? := rfl
  apply returns_modifyGet_bind
  dsimp only
  rw [same]
  cases paired : s.own.c2r[fd]? with
  | none =>
      have none : s.bufferable[fd]? = none := linked.unpaired isClient paired
      exact returns_pure ⟨linked.left isPolled none (fun _ present => present)
        (fun _ _ => rfl), follows, gone⟩
  | some remote =>
      have left : Linked (fun other => broken other ∧ other ≠ fd)
          { (s.unregister fd).release fd with
            own := Tunnels.unpair fd
              { s.own with stateful := s.own.stateful.eraseState fd }
            bufferable := s.bufferable.eraseBuf fd } := by
        apply linked.left isPolled
        · simp
        · intro other present
          rw [Bufferable.getElem?_eraseBuf] at present
          split at present
          · exact absurd rfl present
          · exact present
        · intro other different
          exact (Tunnels.getElem?_unpair _ fd other).trans
            (if_neg (Ne.symm different))
      apply returns_bind (eraseClientInfo_returns _ fd _)
      rintro _ _ rfl
      apply returns_bind (closes remote false _ _ left (by simp))
      rintro _ after ⟨closed, later, absent⟩
      refine returns_pure ⟨closed.closed absent,
        follows.trans ⟨later.clients, later.opened⟩, ?_⟩
      exact fun isClient => gone (later.clients fd isClient)

/-- The connection to the remote of a client has failed. -/
theorem refused_returns (closes : Closes world remoteAddressList depth)
    (linked : Linked broken s) (remote : Fd) {r : ConnectResult} (ng : r ≠ .ok)
    (client : Fd) :
    Returns (onRemoteConnect (hostWith world
        (closing world (service remoteAddressList) depth · false) connect)
      remote r client) s fun _ after => Linked broken after ∧ Follows s after := by
  unfold onRemoteConnect
  rw [if_neg ng]
  exact forget_returns closes linked client

/-- The remote of a client is gone. -/
theorem onRemoteClose_returns (closes : Closes world remoteAddressList depth)
    (linked : Linked broken s) (remote client : Fd) :
    Returns (ITunnelLike.onRemoteClose (hostWith world
        (closing world (service remoteAddressList) depth · false) connect)
      remote client) s fun _ after => Linked broken after ∧ Follows s after := by
  apply returns_modifyGet_bind
  split
  · exact forget_returns closes linked client
  · exact returns_pure ⟨linked, .refl s⟩

/-- `close` closes one client at most that was not forgotten before. -/
theorem closes_depth (world : Surroundings Unit)
    (remoteAddressList : List Address) (depth : Nat) :
    Closes world remoteAddressList depth := by
  have absent : ∀ {depth : Nat} {fd : Fd} {force : Bool} {s : Server Tunnels}
      {broken : Fd → Prop}, Linked broken s →
      (force = true → fd ∈ s.opened) → s.roles[fd]? = none →
      Returns (closing world (service remoteAddressList) depth fd force) s
        fun _ after => Linked (fun other => broken other ∧ other ≠ fd) after ∧
          Follows s after ∧ after.roles[fd]? ≠ some .client := by
    intro depth fd force s broken linked forced none
    have noClient : s.roles[fd]? ≠ some .client := by
      rw [none]
      simp
    constructor
    intro result after returned
    rw [closing_absent none] at returned
    cases returned
    cases force with
    | true =>
        exact ⟨(linked.restrict noClient).release (forced rfl) noClient,
          ⟨fun _ isClient => isClient, rfl⟩, noClient⟩
    | false => exact ⟨linked.restrict noClient, .refl s, noClient⟩
  induction depth with
  | zero =>
      intro fd force s broken linked forced
      cases registered : s.roles[fd]? with
      | none => exact absent linked forced registered
      | some role => exact closing_depth registered
  | succ depth induction =>
      intro fd force s broken linked forced
      have gone : (s.unregister fd).roles[fd]? ≠ some .client := by
        rw [roles_unregister_self]
        simp
      cases registered : s.roles[fd]? with
      | none => exact absent linked forced registered
      | some role =>
          have isOpen : fd ∈ s.polled → fd ∈ s.opened := linked.sound.polled fd
          cases role with
          | client =>
              apply closing_of_client registered
              exact onClose_returns induction linked registered
          | connecting client =>
              have other : s.roles[fd]? ≠ some .client := by
                rw [registered]
                simp
              apply closing_of_connecting registered
              intro isPolled
              have isRefused : ConnectResult.gameOver ≠ .ok := by decide
              apply (refused_returns induction (linked.unregister other) fd
                isRefused client).weaken
              rintro _ told ⟨linked, toldOnly⟩
              have still : fd ∈ told.opened := by
                rw [toldOnly.opened]
                exact isOpen isPolled
              apply (induction fd true told broken linked
                fun _ => still).weaken
              rintro _ closed ⟨linked, closedOnly, absent⟩
              have follows := (follows_unregister s fd).trans
                (toldOnly.trans closedOnly)
              refine ⟨linked.release ?_ absent,
                ⟨follows.clients, follows.opened⟩, absent⟩
              rw [follows.opened]
              exact isOpen isPolled
          | bare =>
              have other : s.roles[fd]? ≠ some .client := by
                rw [registered]
                simp
              apply closing_of_bare registered
              intro isPolled
              exact ⟨((linked.unregister other).restrict gone).release
                (isOpen isPolled) gone, ⟨(follows_unregister s fd).clients, rfl⟩,
                gone⟩
          | remote client =>
              have other : s.roles[fd]? ≠ some .client := by
                rw [registered]
                simp
              apply closing_of_remote registered
              intro isPolled
              apply (onRemoteClose_returns induction
                ((linked.unregister other).release (isOpen isPolled) gone) fd
                client).weaken
              rintro _ after ⟨left, follows⟩
              have absent : after.roles[fd]? ≠ some .client :=
                fun isClient => gone (follows.clients fd isClient)
              refine ⟨left.restrict absent, ?_, absent⟩
              exact (follows_unregister s fd).trans
                ⟨follows.clients, follows.opened⟩

section Callbacks

variable {data : Bytes}

theorem writing_linked (linked : Linked broken s) :
    Returns (writing world
      (closing world (service remoteAddressList) depth · false) fd data) s
      fun _ after => Linked broken after ∧ Follows s after := by
  have recorded : ∀ written, Linked broken { s with written } :=
    fun written => linked.own s.own (fun _ paired => paired) written s.fired
  apply returns_get_bind
  apply returns_modify_bind
  split
  · apply returns_bind (closes_depth world remoteAddressList depth fd false _
      broken (recorded _) (by simp))
    rintro _ after ⟨left, follows, gone⟩
    exact returns_pure ⟨left.closed gone, follows.clients, follows.opened⟩
  · exact returns_pure ⟨recorded _, fun _ isClient => isClient, rfl⟩

/-- A message is kept for a client, or it is passed on. -/
theorem onMessage_linked (linked : Linked broken s)
    (ready : s.own.stateful.getState client = .connected ∨
      s.roles[client]? = some .client ∧ ¬ broken client) (message : Bytes) :
    Returns (ITunnelLike.onMessage (hostWith world
        (closing world (service remoteAddressList) depth · false) connect)
      client message) s fun _ after => Linked broken after ∧ Follows s after := by
  have taken : Linked broken
      { s with bufferable := (s.bufferable.appendBuf client message).2 } := by
    apply linked.fewer
    intro fd present
    rw [Bufferable.getElem?_appendBuf] at present
    split at present
    · exact absurd rfl present
    · exact present
  apply returns_modifyGet_bind
  apply returns_modifyGet_bind
  apply returns_modifyGet_bind
  dsimp only
  by_cases connected : s.own.stateful.getState client = .connected
  · have passed : ∀ (bufferable : Bufferable) (message : Bytes),
        bufferable.needBuf client message
          (decide (s.own.stateful.getState client ≠ .connected)) =
            (false, bufferable) := by
      intro bufferable message
      simp [Bufferable.needBuf, connected]
    rw [passed, if_neg Bool.false_ne_true]
    apply returns_modifyGet_bind
    apply returns_bind (writing_linked (taken.own _
      (fun fd => Tunnels.remoteOf_keeps s.own) s.written s.fired))
    rintro _ after ⟨left, follows⟩
    exact returns_pure ⟨left, follows.clients, follows.opened⟩
  · obtain ⟨isClient, notBroken⟩ := ready.resolve_left connected
    have kept : (decide (s.own.stateful.getState client ≠ .connected)) = true := by
      simpa using connected
    rw [kept, if_pos (by simp [Bufferable.needBuf])]
    refine returns_pure ⟨⟨taken.sound.needed isClient _, taken.paired, ?_⟩,
      fun _ isClient => isClient, rfl⟩
    intro fd isBroken
    rw [Bufferable.getElem?_needBuf, if_neg]
    · exact taken.clean fd isBroken
    · rintro rfl
      exact notBroken isBroken

/-- A connection that is made. -/
theorem connected_linked (linked : Linked broken s) (remote client : Fd) :
    Returns (onRemoteConnect (hostWith world
        (closing world (service remoteAddressList) depth · false) connect)
      remote .ok client) s fun _ after => Linked broken after ∧ Follows s after := by
  have isConnected : ∀ stateful : Stateful ConnectState,
      (stateful.setState client .connected).getState client = .connected := by
    intro stateful
    simp [Stateful.getState]
  have linked := linked.own
    { s.own with stateful := s.own.stateful.setState client .connected }
    (fun _ paired => paired) s.written s.fired
  unfold onRemoteConnect
  rw [if_pos rfl]
  apply returns_modifyGet_bind
  apply returns_modifyGet_bind
  split
  · apply returns_modifyGet_bind
    apply (onMessage_linked _ (.inl (isConnected _)) _).weaken
    · rintro _ after ⟨left, follows⟩
      exact ⟨left, follows.clients, follows.opened⟩
    · apply linked.fewer
      intro fd present
      dsimp only at present
      rw [Bufferable.getElem?_getBuf] at present
      split at present
      · exact absurd rfl present
      · exact present
  · exact returns_pure ⟨linked, fun _ isClient => isClient, rfl⟩

/-- A connection for a client that has sent nothing. -/
theorem connected_unbuffered (unbuffered : s.bufferable[client]? = none)
    (remote : Fd) {close : Fd → M Tunnels Bool} :
    Returns (onRemoteConnect (hostWith world close connect) remote .ok client) s
      fun _ after => after =
        { s with own := { s.own with
            stateful := s.own.stateful.setState client .connected } } := by
  have noBuf : ¬ s.bufferable.hasBuf client = true := by
    rw [Bufferable.hasBuf_eq, unbuffered]
    simp
  unfold onRemoteConnect
  rw [if_pos rfl]
  apply returns_modifyGet_bind
  apply returns_modifyGet_bind
  rw [if_neg (by exact noBuf)]
  exact returns_pure rfl

/-- A client that is being accepted. -/
structure Arriving (client : Fd) (s : Server Tunnels) : Prop where
  linked : Linked (fun _ => False) s
  noClient : s.roles[client]? ≠ some .client
  isOpen : client ∈ s.opened
  stays : client ∉ s.released

theorem Arriving.own (arriving : Arriving client s) (own : Tunnels)
    (keeps : ∀ fd : Fd, s.own.c2r[fd]? ≠ none → own.c2r[fd]? ≠ none) :
    Arriving client { s with own } :=
  ⟨arriving.linked.own own keeps s.written s.fired, arriving.noClient,
    arriving.isOpen, arriving.stays⟩

/-- A socket that is opened and watched for the client. -/
theorem Arriving.watch (arriving : Arriving client s) (free : s.Free fd)
    {role : Role} (other : role ≠ .client) (reWatch : Bool) :
    Arriving client ((s.openFd fd).watch fd role reWatch) := by
  have noClient := (arriving.linked.sound.unbuffered free).1
  have opened : Linked (fun _ => False) (s.openFd fd) :=
    ⟨arriving.linked.sound.opened fd, arriving.linked.paired,
      arriving.linked.clean⟩
  constructor
  · exact opened.watch List.mem_cons_self noClient other reWatch
  · rw [show ((s.openFd fd).watch fd role reWatch).roles[client]? = _ from
      ExtTreeMap.getElem?_insert]
    split
    · intro same
      cases same
      exact other rfl
    · exact arriving.noClient
  · exact List.mem_cons_of_mem fd arriving.isOpen
  · exact arriving.stays

/-- A connection for a client that is being accepted. -/
theorem connecting_arriving (arriving : Arriving client s)
    (usable : s.Usable world) (addr : Address) :
    Returns (Server.connecting world (service remoteAddressList) depth addr
      client) s
      fun remote after => Linked (fun _ => False) after ∧
        after.roles[client]? ≠ some .client ∧
        (remote = -1 → ∃ fd, world.attempt = some (.failing fd)) ∧
        (remote ≠ -1 → Arriving client after) := by
  have made : ∀ {fd : Fd} {after : Server Tunnels} {failed : Prop}, s.Free fd →
      Arriving client after → Linked (fun _ => False) after ∧
        after.roles[client]? ≠ some .client ∧ (fd = -1 → failed) ∧
        (fd ≠ -1 → Arriving client after) := by
    intro fd after failed free arriving
    refine ⟨arriving.linked, arriving.noClient, ?_, fun _ => arriving⟩
    rintro rfl
    exact absurd free.1 (by decide)
  unfold Server.connecting
  cases attempt : world.attempt with
  | none => exact returns_throw
  | some outcome =>
      have free := usable outcome attempt
      cases outcome with
      | failing fd =>
          have isRefused : ConnectResult.ng ≠ .ok := by decide
          have opened : Linked (fun _ => False) (s.openFd fd) :=
            ⟨arriving.linked.sound.opened fd, arriving.linked.paired,
              arriving.linked.clean⟩
          have unpolled : fd ∉ (s.openFd fd).polled :=
            fun member => free.2 (arriving.linked.sound.polled fd member)
          have told : Returns
              (connected world (service remoteAddressList) depth fd .ng client)
              (s.openFd fd) fun _ after => Linked (fun _ => False) after ∧
                after.roles[client]? ≠ some .client := by
            apply returns_bind (refused_returns
              (closes_depth world remoteAddressList depth) opened fd isRefused
              client)
            rintro _ between ⟨linked, follows⟩
            rw [if_neg isRefused]
            apply returns_bind (closes_depth world remoteAddressList depth fd true
              between _ linked ?_)
            · rintro _ after ⟨left, later, gone⟩
              refine returns_pure ⟨left.closed gone, fun isClient => ?_⟩
              exact arriving.noClient
                (follows.clients client (later.clients client isClient))
            · intro _
              rw [follows.opened]
              exact List.mem_cons_self
          apply returns_modify_bind
          apply returns_get_bind
          split
          · apply returns_bind (unwatch_returns fd)
            exact fun _ _ left => absurd left.1 unpolled
          · apply returns_bind told
            exact fun _ after left => returns_pure
              ⟨left.1, left.2, fun _ => ⟨fd, rfl⟩, fun never => absurd rfl never⟩
      | pending fd =>
          have other : Role.connecting client ≠ .client := by simp
          apply returns_modify_bind
          exact returns_pure (made free (arriving.watch free other true))
      | immediate fd =>
          have unbuffered := arriving.linked.sound.closed client arriving.noClient
          have told : Returns
              (connected world (service remoteAddressList) depth fd .ok client)
              (s.openFd fd) fun _ after => Arriving client after := by
            apply returns_bind (connected_unbuffered (by exact unbuffered) fd)
            rintro _ _ rfl
            have begun := arriving.own
              { s.own with
                stateful := s.own.stateful.setState client .connected }
              fun _ paired => paired
            have other : Role.remote client ≠ .client := by simp
            rw [if_pos rfl]
            exact returns_modify (begun.watch free other false)
          apply returns_modify_bind
          apply returns_bind told
          exact fun _ after arriving => returns_pure (made free arriving)

end Callbacks

/-- The connect to the remote of a new client does not fail at once. -/
def Careful (_ : Server Tunnels) : Server.Event Unit → Prop
  | .accept _ world => ∀ fd, world.attempt ≠ some (.failing fd)
  | _ => True

/-- What `on_connect` leaves. -/
theorem onConnect_arriving (arriving : Arriving client s)
    (usable : s.Usable world) (before : Server Tunnels) :
    Returns (onConnect (host world (service remoteAddressList) before)
      remoteAddressList client) s fun _ after =>
        Linked (fun _ => False) after ∧ after.roles[client]? ≠ some .client ∧
        ((∀ fd, world.attempt ≠ some (.failing fd)) →
          Arriving client after ∧ after.own.c2r[client]? ≠ none) := by
  unfold onConnect
  apply returns_modifyGet_bind
  apply returns_modifyGet_bind
  dsimp only
  split
  · exact returns_throw
  · next addr _ =>
      have begun := arriving.own
        (Tunnels.nextIndex { s.own with
          stateful := s.own.stateful.setState client .b4connect }).2
        fun _ paired => paired
      apply returns_bind (connecting_arriving begun (by exact usable) addr)
      rintro remote between ⟨linked, noClient, failed, arrived⟩
      split
      · next isFailed =>
          refine returns_pure ⟨linked, noClient, fun careful => ?_⟩
          obtain ⟨fd, failing⟩ := failed isFailed
          exact absurd failing (careful fd)
      · next positive =>
          have pairs : ∀ own : Tunnels, own.c2r = between.own.c2r →
              Arriving client
                { between with own := own.pair client remote } := by
            intro own same
            apply (arrived positive).own
            intro fd paired
            rw [show (own.pair client remote).c2r[fd]? = _ from
              ExtTreeMap.getElem?_insert, same]
            split
            · simp
            · exact paired
          have paired : ∀ own : Tunnels,
              (own.pair client remote).c2r[client]? ≠ none := by
            intro own
            simp [Tunnels.pair]
          apply returns_modifyGet_bind
          split
          · apply returns_modifyGet_bind
            have arriving := pairs { between.own with
              stateful := between.own.stateful.setState client .connect } rfl
            exact returns_modifyGet ⟨arriving.linked, arriving.noClient,
              fun _ => ⟨arriving, paired _⟩⟩
          · have arriving := pairs between.own rfl
            exact returns_modifyGet ⟨arriving.linked, arriving.noClient,
              fun _ => ⟨arriving, paired _⟩⟩

/-- A new client has no buffer, and it has a remote unless the connect has
failed at once. -/
theorem accept_linked (linked : Linked (fun _ => False) s)
    (allowed : s.Allows (.accept client world)) :
    Returns (perform (service remoteAddressList) (.accept client world)) s
      fun _ after => after.bufferable[client]? = none ∧
        ((∀ fd, world.attempt ≠ some (.failing fd)) →
          Linked (fun _ => False) after) := by
  obtain ⟨free, usable, apart⟩ := allowed
  have arriving : Arriving client (s.openFd client) := by
    constructor
    · exact ⟨linked.sound.opened client, linked.paired, linked.clean⟩
    · exact (linked.sound.unbuffered free).1
    · exact List.mem_cons_self
    · exact fun member => free.2 (linked.sound.released client member)
  have still : (s.openFd client).Usable world := by
    intro attempt isAttempt
    refine ⟨(usable attempt isAttempt).1, ?_⟩
    intro member
    rcases List.mem_cons.mp member with same | earlier
    · exact apart attempt isAttempt same
    · exact (usable attempt isAttempt).2 earlier
  apply returns_modify_bind
  apply returns_get_bind
  apply returns_bind (onConnect_arriving arriving still _)
  rintro _ between ⟨linked, noClient, arrives⟩
  refine returns_modify ⟨linked.sound.closed client noClient, fun careful => ?_⟩
  obtain ⟨arrived, paired⟩ := arrives careful
  refine ⟨linked.sound.accepted arrived.isOpen arrived.stays, ?_, linked.clean⟩
  intro fd isClient
  rw [show (between.watch client .client false).roles[fd]? = _ from
    ExtTreeMap.getElem?_insert] at isClient
  split at isClient
  · next same =>
      rw [← Std.compare_eq_iff_eq.mp same]
      exact .inl paired
  · exact linked.paired fd isClient

theorem perform_linked (linked : Linked (fun _ => False) s)
    {event : Server.Event Unit} (allowed : s.Allows event)
    (careful : Careful s event) :
    Returns (perform (service remoteAddressList) event) s
      fun _ after => Linked (fun _ => False) after := by
  cases event with
  | accept client world =>
      exact (accept_linked linked allowed).weaken
        fun _ after kept => kept.2 careful
  | message client piece world =>
      apply returns_get_bind
      apply (onMessage_linked linked (.inr ⟨allowed.1.1, id⟩) piece).weaken
      exact fun _ after kept => kept.1
  | clientClosed client world =>
      apply returns_get_bind
      apply returns_bind (closes_depth world remoteAddressList _ client false s _
        linked (by simp))
      rintro _ after ⟨left, -, gone⟩
      exact returns_pure (left.closed gone)
  | connected remote world =>
      obtain ⟨client, isRole, isPolled⟩ := allowed
      have noClient : s.roles[remote]? ≠ some .client := by
        rw [isRole]
        simp
      have isOpen := linked.sound.polled remote isPolled
      apply returns_get_bind
      rw [isRole]
      apply returns_modify_bind
      apply returns_bind (connected_linked (linked.setRole noClient) remote client)
      rintro _ after ⟨linked, follows⟩
      rw [if_pos rfl]
      apply returns_modify
      apply linked.watch
      · rw [follows.opened]
        exact isOpen
      · intro isClient
        have isClient := follows.clients remote isClient
        simp [Server.setRole] at isClient
      · simp
  | connectFailed remote world =>
      obtain ⟨client, isRole, isPolled⟩ := allowed
      have noClient : s.roles[remote]? ≠ some .client := by
        rw [isRole]
        simp
      have isOpen := linked.sound.polled remote isPolled
      have isRefused : ConnectResult.ng ≠ .ok := by decide
      apply returns_get_bind
      rw [isRole]
      apply returns_bind (unwatch_returns remote)
      rintro _ _ ⟨_, rfl⟩
      apply returns_bind (refused_returns
        (closes_depth world remoteAddressList s.roles.size)
        (linked.unregister noClient) remote isRefused client)
      rintro _ between ⟨linked, follows⟩
      rw [if_neg isRefused]
      apply returns_bind (closes_depth world remoteAddressList _ remote true
        between _ linked ?_)
      · rintro _ after ⟨left, -, gone⟩
        exact returns_pure (left.closed gone)
      · intro _
        rw [follows.opened]
        exact isOpen
  | remoteMessage remote piece world =>
      obtain ⟨⟨client, isRole, _⟩, _⟩ := allowed
      apply returns_get_bind
      rw [isRole]
      apply returns_bind (writing_linked linked)
      exact fun _ after kept => returns_pure kept.1
  | remoteClosed remote world =>
      apply returns_get_bind
      apply returns_bind (closes_depth world remoteAddressList _ remote false s _
        linked (by simp))
      rintro _ after ⟨left, -, gone⟩
      exact returns_pure (left.closed gone)
  | flush =>
      exact returns_modify ⟨linked.sound.flushed, linked.paired, linked.clean⟩

theorem linked_of_careful
    (reached : Reached (service remoteAddressList) Careful s) :
    Linked (fun _ => False) s := by
  induction reached with
  | start =>
      exact ⟨.start _, fun fd isClient => by simp at isClient,
        fun _ never => never.elim⟩
  | step earlier allowed meets returned induction =>
      exact (perform_linked induction allowed meets).holds _ _ returned

theorem fresh_of_careful
    (reached : Reached (service remoteAddressList) Careful s) :
    Fresh (service remoteAddressList) s := by
  have linked := linked_of_careful reached
  refine ⟨linked.sound.closed, ?_⟩
  intro client world after allowed returned piece
  have unbuffered := ((accept_linked linked allowed).holds _ _ returned).1
  rw [Bufferable.appendBuf_message, unbuffered]
  rfl

end Proxy

end Universe
