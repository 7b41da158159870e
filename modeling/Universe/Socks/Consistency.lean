import Universe.Library.Pairing
import Universe.Server.Reuse
import Universe.Socks

/-!
# The tables of `Socks`

A client that has a state, a name or a remote is open, and it is paired with a
remote exactly while it is connecting or connected.  This is kept as long as
`connect` does not know its outcome before it returns and the answer to a
greeting can be written.
-/

namespace Universe

open Stepwise Server
open Std (ExtTreeMap)

namespace Socks

variable {s after : Server Relays} {world : Surroundings Resolution}
  {depth : Nat} {fd client remote : Fd}
  {reaching : Address → Fd → M Relays Fd}

/-- The tables agree with each other and with the descriptors.  A remote may be
that of a client that is gone. -/
structure Consistent (s : Server Relays) : Prop where
  sound : Sound s
  inverse : Pairing.Inverse s.own.c2r s.own.r2c
  states : ∀ client : Fd, s.own.stateful[client]? ≠ none ↔
    s.roles[client]? = some .client
  urls : ∀ client : Fd, s.own.url[client]? ≠ none → s.own.c2r[client]? ≠ none
  pairs : ∀ client remote : Fd, s.own.c2r[client]? = some remote →
    s.own.stateful[client]? = some .connecting ∧
        s.roles[remote]? = some (.connecting client) ∨
      s.own.stateful[client]? = some .connected ∧
        s.roles[remote]? = some (.remote client)
  live : ∀ client remote : Fd, s.own.c2r[client]? = some remote →
    remote ∈ s.opened ∧ remote ∉ s.released
  requests : ∀ remote client : Fd, s.roles[remote]? = some (.connecting client) →
    s.own.c2r[client]? = some remote
  paired : ∀ (client : Fd) (state : SocksState),
    s.own.stateful[client]? = some state →
    state = .connecting ∨ state = .connected → s.own.c2r[client]? ≠ none
  notBare : ∀ fd : Fd, s.roles[fd]? ≠ some .bare
  buffered : ∀ client : Fd, s.bufferable[client]? ≠ none →
    s.own.stateful[client]? = some .greeting ∨
      s.own.stateful[client]? = some .request

/-- A descriptor is closed, and nothing else. -/
structure Unlisted (fd : Fd) (s after : Server Relays) : Prop where
  roles : ∀ other : Fd, after.roles[other]? =
    if other = fd then none else s.roles[other]?
  own : after.own = s.own
  bufferable : after.bufferable = s.bufferable
  written : after.written = s.written
  opened : after.opened = s.opened
  released : ∀ other ∈ after.released, other ∈ s.released ∨ other = fd
  polled : ∀ other ∈ after.polled, other ∈ s.polled

/-- A client is closed, with all that it had. -/
structure Erased (client : Fd) (s after : Server Relays) : Prop where
  roles : ∀ fd : Fd, after.roles[fd]? =
    if fd = client ∨ s.own.c2r[client]? = some fd then none else s.roles[fd]?
  states : ∀ fd : Fd, after.own.stateful[fd]? =
    if client = fd then none else s.own.stateful[fd]?
  urls : ∀ fd : Fd, after.own.url[fd]? =
    if client = fd then none else s.own.url[fd]?
  bufferable : ∀ fd : Fd, after.bufferable[fd]? =
    if client = fd then none else s.bufferable[fd]?
  c2r : ∀ fd : Fd, after.own.c2r[fd]? =
    if client = fd then none else s.own.c2r[fd]?
  r2c : ∀ fd : Fd, after.own.r2c[fd]? =
    if s.own.c2r[client]? = some fd then none else s.own.r2c[fd]?
  written : after.written = s.written
  opened : after.opened = s.opened
  released : ∀ fd ∈ after.released,
    fd ∈ s.released ∨ fd = client ∨ s.own.c2r[client]? = some fd
  polled : ∀ fd ∈ after.polled, fd ∈ s.polled

theorem unlisted_unregister (released : List Fd)
    (few : ∀ other ∈ released, other ∈ s.released ∨ other = fd) :
    Unlisted fd s { s.unregister fd with released } where
  roles := getElem?_unregister s fd
  own := rfl
  bufferable := rfl
  written := rfl
  opened := rfl
  released := few
  polled _ member := (List.mem_filter.mp member).1

section Closing

/-- `close` of a client that is gone. -/
theorem close_gone (gone : s.roles[client]? = none) :
    Returns (Socks.close (hostWith world (closing world service depth · false)
      reaching) client) s fun _ after => after = s := by
  apply returns_bind (closing_gone gone false)
  rintro _ _ rfl
  exact returns_pure rfl

/-- The connection of a client that is gone has failed. -/
theorem refused_gone (gone : s.roles[client]? = none) {r : ConnectResult}
    (ng : r ≠ .ok) (port : UInt16) :
    Returns (onRemoteConnect (hostWith world
      (closing world service depth · false) reaching) port r client) s
      fun _ after => after = s := by
  apply returns_modifyGet_bind
  rw [if_neg ng]
  exact close_gone gone

/-- The remote of a client that is gone is closed. -/
theorem closing_peer (gone : s.roles[client]? = none)
    (serves : ∀ role, s.roles[remote]? = some role →
      role = .connecting client ∨ role = .bare ∨ role = .remote client) :
    Returns (closing world service depth remote false) s fun _ after =>
      Unlisted remote s after := by
  cases isRole : s.roles[remote]? with
  | none =>
      apply (closing_gone isRole false).weaken
      rintro _ _ rfl
      refine ⟨?_, rfl, rfl, rfl, rfl, fun _ => .inl, fun _ => id⟩
      intro other
      split
      · next same =>
          rw [same]
          exact isRole
      · rfl
  | some role =>
      have once : ∀ other ∈ s.released ++ [remote],
          other ∈ s.released ∨ other = remote := by
        simp
      have twice : ∀ other ∈ s.released ++ [remote] ++ [remote],
          other ∈ s.released ∨ other = remote := by
        simp
      have stillGone : (s.unregister remote).roles[client]? = none := by
        rw [getElem?_unregister]
        split
        · rfl
        · exact gone
      cases depth with
      | zero => exact closing_depth isRole
      | succ depth =>
          rcases serves role isRole with rfl | rfl | rfl
          · apply closing_of_connecting isRole
            intro _
            have isRefused : ConnectResult.gameOver ≠ .ok := by decide
            have told : Returns (service.onRemoteConnect
                (quietHost world service depth) remote .gameOver client)
                (s.unregister remote)
                fun _ after => after = s.unregister remote := by
              apply returns_modifyGet_bind
              exact refused_gone stillGone isRefused _
            apply told.weaken
            rintro _ _ rfl
            apply (closing_gone roles_unregister_self true).weaken
            rintro _ _ rfl
            exact unlisted_unregister _ twice
          · apply closing_of_bare isRole
            exact fun _ => unlisted_unregister _ once
          · apply closing_of_remote isRole
            intro _
            have told : Returns (service.onRemoteClose
                (quietHost world service depth) remote client)
                ((s.unregister remote).release remote) fun _ after =>
                  after = (s.unregister remote).release remote :=
              close_gone stillGone
            apply told.weaken
            rintro _ _ rfl
            exact unlisted_unregister _ once

/-- What was kept for a client is erased, but for its remote. -/
def cleared (client : Fd) (s : Server Relays) : Server Relays :=
  { s with
    own := { s.own with
      stateful := s.own.stateful.eraseState client
      url := s.own.url.erase client }
    bufferable := s.bufferable.eraseBuf client }

theorem onClose_eq {close : Fd → M Relays Bool}
    (present : s.own.stateful[client]? ≠ none) :
    onClose (hostWith world close reaching) client s =
      (match s.own.c2r[client]? with
        | none => return ()
        | some remote => do
            (hostWith world close reaching).modifyOwn
              (Relays.unpair client remote)
            Socks.close (hostWith world close reaching) remote : M Relays Unit)
        (cleared client s) := by
  have contained : s.own.stateful.contains client = true := by
    rw [ExtTreeMap.contains_eq_isSome_getElem?, Option.isSome_iff_ne_none]
    exact present
  have erased : eraseStateBuffer (hostWith world close reaching) client s =
      .ok () { s with
        own := { s.own with stateful := s.own.stateful.eraseState client }
        bufferable := s.bufferable.eraseBuf client } := rfl
  change (if s.own.stateful.contains client then _ else _ : M Relays Unit) s = _
  rw [if_pos contained, bind_of_ok erased]
  rfl

theorem erased_alone (alone : s.own.c2r[client]? = none) :
    Erased client s (cleared client ((s.unregister client).release client)) := by
  have others : ∀ fd : Fd, ¬ s.own.c2r[client]? = some fd := by
    simp [alone]
  constructor
  · intro fd
    rw [show (cleared client ((s.unregister client).release client)).roles[fd]? =
      _ from getElem?_unregister s client fd]
    simp [others]
  · exact Stateful.getElem?_eraseState _ client
  · intro fd
    simp [cleared, Server.release, Server.unregister, ExtTreeMap.getElem?_erase]
  · exact Bufferable.getElem?_eraseBuf _ client
  · intro fd
    split
    · next same =>
        rw [← same]
        exact alone
    · rfl
  · intro fd
    rw [if_neg (others fd)]
    rfl
  · rfl
  · rfl
  · intro fd member
    exact (List.mem_append.mp member).imp_right
      fun last => .inl (List.mem_singleton.mp last)
  · exact fun fd member => (List.mem_filter.mp member).1

theorem erased_paired (pair : s.own.c2r[client]? = some remote)
    (unlisted : Unlisted remote
      { cleared client ((s.unregister client).release client) with
        own := Relays.unpair client remote (cleared client s).own } after) :
    Erased client s after := by
  constructor
  · intro fd
    rw [unlisted.roles]
    change (if fd = remote then none else (s.unregister client).roles[fd]?) = _
    by_cases isRemote : fd = remote
    · simp [pair, isRemote]
    · simp [pair, isRemote, getElem?_unregister, Ne.symm isRemote]
  · rw [unlisted.own]
    exact Stateful.getElem?_eraseState _ client
  · intro fd
    rw [unlisted.own]
    simp [cleared, Relays.unpair, ExtTreeMap.getElem?_erase]
  · rw [unlisted.bufferable]
    exact Bufferable.getElem?_eraseBuf _ client
  · intro fd
    rw [unlisted.own]
    simp [cleared, Relays.unpair, ExtTreeMap.getElem?_erase]
  · intro fd
    rw [unlisted.own, pair]
    simp [cleared, Relays.unpair, ExtTreeMap.getElem?_erase]
  · exact unlisted.written
  · exact unlisted.opened
  · intro fd member
    rw [pair, Option.some.injEq, eq_comm (a := remote)]
    rcases unlisted.released fd member with earlier | last
    · exact (List.mem_append.mp earlier).imp_right
        fun here => .inl (List.mem_singleton.mp here)
    · exact .inr (.inr last)
  · intro fd member
    exact (List.mem_filter.mp (unlisted.polled fd member)).1

/-- A client is closed, whatever has become of its remote. -/
theorem closing_client (isClient : s.roles[client]? = some .client)
    (present : s.own.stateful[client]? ≠ none)
    (serves : ∀ remote, s.own.c2r[client]? = some remote → remote ≠ client ∧
      ∀ role, s.roles[remote]? = some role →
        role = .connecting client ∨ role = .bare ∨ role = .remote client) :
    Returns (closing world service depth client false) s fun _ after =>
      Erased client s after := by
  cases depth with
  | zero => exact closing_depth isClient
  | succ depth =>
      apply closing_of_client isClient
      intro _
      constructor
      intro result after returned
      rw [show service.onClose (quietHost world service depth) client
          ((s.unregister client).release client) = _ from
        onClose_eq present] at returned
      revert result after
      apply Returns.holds
      change Returns (match s.own.c2r[client]? with
        | none => _
        | some remote => _ : M Relays Unit) _ _
      cases pair : s.own.c2r[client]? with
      | none =>
          apply returns_pure
          exact erased_alone pair
      | some remote =>
          obtain ⟨apart, serves⟩ := serves remote pair
          apply returns_modifyGet_bind
          have stillServes : ∀ role,
              (s.unregister client).roles[remote]? = some role →
                role = .connecting client ∨ role = .bare ∨
                  role = .remote client := by
            intro role isRole
            exact serves role ((roles_unregister apart).symm.trans isRole)
          apply returns_bind (closing_peer
            (by exact roles_unregister_self) (by exact stillServes))
          intro _ after unlisted
          exact returns_pure (erased_paired pair unlisted)

end Closing

namespace Consistent

/-- The role of a remote. -/
theorem servant (consistent : Consistent s)
    (pair : s.own.c2r[client]? = some remote) :
    s.roles[remote]? = some (.connecting client) ∨
      s.roles[remote]? = some (.remote client) :=
  (consistent.pairs client remote pair).imp And.right And.right

theorem notClient (consistent : Consistent s)
    (pair : s.own.c2r[client]? = some remote) :
    s.roles[remote]? ≠ some .client := by
  rcases consistent.servant pair with isRole | isRole
  · simp [isRole]
  · simp [isRole]

/-- What is in a table is a client. -/
theorem isClient (consistent : Consistent s) (client : Fd)
    (listed : s.own.stateful[client]? ≠ none ∨ s.own.url[client]? ≠ none ∨
      s.own.c2r[client]? ≠ none) : s.roles[client]? = some .client := by
  have paired : s.own.c2r[client]? ≠ none → s.own.stateful[client]? ≠ none := by
    intro present
    obtain ⟨remote, pair⟩ := Option.ne_none_iff_exists'.mp present
    rcases consistent.pairs client remote pair with ⟨state, -⟩ | ⟨state, -⟩
    · simp [state]
    · simp [state]
  apply (consistent.states client).mp
  rcases listed with state | url | present
  · exact state
  · exact paired (consistent.urls client url)
  · exact paired present

/-- A client and its remote. -/
theorem serves (consistent : Consistent s)
    (isClient : s.roles[client]? = some .client) (remote : Fd)
    (pair : s.own.c2r[client]? = some remote) : remote ≠ client ∧
      ∀ role, s.roles[remote]? = some role →
        role = .connecting client ∨ role = .bare ∨ role = .remote client := by
  refine ⟨?_, ?_⟩
  · rintro rfl
    exact consistent.notClient pair isClient
  · intro role isRole
    rcases consistent.servant pair with served | served
    · exact .inl (Option.some.inj (isRole.symm.trans served))
    · exact .inr (.inr (Option.some.inj (isRole.symm.trans served)))

/-- A number that can be given is that of nobody. -/
theorem unused (consistent : Consistent s) (free : s.Free fd) :
    s.roles[fd]? ≠ some .client ∧ s.own.stateful[fd]? = none ∧
      s.own.url[fd]? = none ∧ s.own.c2r[fd]? = none ∧
      s.own.r2c[fd]? = none ∧ s.bufferable[fd]? = none ∧ fd ∉ s.released ∧
      ∀ client : Fd, s.own.c2r[client]? ≠ some fd := by
  have noClient := (consistent.sound.unbuffered free).1
  have unpaired : ∀ client : Fd, s.own.c2r[client]? ≠ some fd :=
    fun client pair => free.2 (consistent.live client fd pair).1
  have unlisted : ¬ (s.own.stateful[fd]? ≠ none ∨ s.own.url[fd]? ≠ none ∨
      s.own.c2r[fd]? ≠ none) :=
    fun listed => noClient (consistent.isClient fd listed)
  refine ⟨noClient, ?_, ?_, ?_, ?_, (consistent.sound.unbuffered free).2,
    fun member => free.2 (consistent.sound.released fd member), unpaired⟩
  · by_contra present
    exact unlisted (.inl present)
  · by_contra present
    exact unlisted (.inr (.inl present))
  · by_contra present
    exact unlisted (.inr (.inr present))
  · cases pair : s.own.r2c[fd]? with
    | none => rfl
    | some client =>
        exact absurd ((consistent.inverse client fd).mpr pair) (unpaired client)

theorem start : Consistent { own := service.start } where
  sound := .start _
  inverse := Pairing.Inverse.empty
  states client := by simp [service]
  urls client present := by simp [service] at present
  pairs client remote pair := by simp [service] at pair
  live client remote pair := by simp [service] at pair
  requests remote client isRole := by simp at isRole
  paired client state present := by simp [service] at present
  notBare fd := by simp
  buffered client present := by simp at present

/-- What the tables say, whatever epoll has and what was written. -/
theorem same (consistent : Consistent s)
    (roles : ∀ fd : Fd, after.roles[fd]? = s.roles[fd]?)
    (stateful : after.own.stateful = s.own.stateful)
    (url : after.own.url = s.own.url) (c2r : after.own.c2r = s.own.c2r)
    (r2c : after.own.r2c = s.own.r2c)
    (bufferable : after.bufferable = s.bufferable)
    (opened : after.opened = s.opened) (released : after.released = s.released)
    (polled : ∀ fd ∈ after.polled, fd ∈ s.opened) : Consistent after := by
  have sound : Sound after := by
    apply consistent.sound.of_clients ?_ bufferable ?_ released ?_
    · intro fd
      rw [roles]
    · rw [opened]
      exact fun _ => id
    · rw [opened]
      exact polled
  constructor
  · exact sound
  · rw [c2r, r2c]
    exact consistent.inverse
  · intro client
    rw [stateful, roles]
    exact consistent.states client
  · rw [url, c2r]
    exact consistent.urls
  · intro client remote
    rw [stateful, c2r, roles]
    exact consistent.pairs client remote
  · rw [c2r, opened, released]
    exact consistent.live
  · intro remote client
    rw [c2r, roles]
    exact consistent.requests remote client
  · rw [stateful, c2r]
    exact consistent.paired
  · intro fd
    rw [roles]
    exact consistent.notBare fd
  · rw [stateful, bufferable]
    exact consistent.buffered

end Consistent

theorem Erased.still (erased : Erased client s after) {role : Role}
    (isRole : after.roles[fd]? = some role) :
    fd ≠ client ∧ s.own.c2r[client]? ≠ some fd ∧ s.roles[fd]? = some role := by
  rw [erased.roles] at isRole
  split at isRole
  · cases isRole
  · next apart =>
      exact ⟨fun here => apart (.inl here), fun here => apart (.inr here),
        isRole⟩

/-- Whatever a table has after it, it had before, and not for this client. -/
theorem Erased.listed {β : Type} {first second : ExtTreeMap Fd β}
    (erased : ∀ fd : Fd, first[fd]? = if client = fd then none else second[fd]?)
    {value : β} (present : first[fd]? = some value) :
    client ≠ fd ∧ second[fd]? = some value := by
  rw [erased] at present
  split at present
  · cases present
  · next different => exact ⟨different, present⟩

theorem Erased.sound (erased : Erased client s after)
    (consistent : Consistent s) (isClient : s.roles[client]? = some .client)
    (clients : ∀ fd : Fd, client ≠ fd → s.roles[fd]? = some .client →
      after.roles[fd]? = some .client) : Sound after := by
  constructor
  · intro fd present
    obtain ⟨buffer, present⟩ := Option.ne_none_iff_exists'.mp present
    obtain ⟨different, present⟩ := Erased.listed erased.bufferable present
    exact clients fd different
      (consistent.sound.buffered fd (by simp [present]))
  · intro fd isClient
    obtain ⟨different, unpaired, isClient⟩ := erased.still isClient
    rw [erased.opened]
    refine ⟨(consistent.sound.clients fd isClient).1, ?_⟩
    intro member
    rcases erased.released fd member with earlier | here | pair
    · exact (consistent.sound.clients fd isClient).2 earlier
    · exact different here
    · exact unpaired pair
  · intro fd member
    rw [erased.opened]
    exact consistent.sound.polled fd (erased.polled fd member)
  · intro fd member
    rw [erased.opened]
    rcases erased.released fd member with earlier | here | pair
    · exact consistent.sound.released fd earlier
    · rw [here]
      exact (consistent.sound.clients client isClient).1
    · exact (consistent.live client fd pair).1

theorem Erased.consistent (erased : Erased client s after)
    (consistent : Consistent s) (isClient : s.roles[client]? = some .client) :
    Consistent after := by
  have clients : ∀ fd : Fd, client ≠ fd → s.roles[fd]? = some .client →
      after.roles[fd]? = some .client := by
    intro fd different isOther
    rw [erased.roles, if_neg]
    · exact isOther
    · rintro (here | pair)
      · exact different here.symm
      · exact consistent.notClient pair isOther
  have remotes : ∀ {other served : Fd}, client ≠ other →
      s.own.c2r[other]? = some served →
        after.roles[served]? = s.roles[served]? := by
    intro other served different pair
    rw [erased.roles, if_neg]
    rintro (rfl | own)
    · exact consistent.notClient pair isClient
    · exact different (consistent.inverse.injective own pair)
  constructor
  · exact erased.sound consistent isClient clients
  · intro other served
    rw [erased.c2r, erased.r2c]
    split
    · next same =>
        subst same
        split
        · simp
        · next apart =>
            refine ⟨fun never => (by cases never), ?_⟩
            intro pair
            exact absurd ((consistent.inverse client served).mpr pair) apart
    · next different =>
        split
        · next own =>
            refine ⟨?_, fun never => (by cases never)⟩
            intro pair
            exact absurd (consistent.inverse.injective own pair) different
        · exact consistent.inverse other served
  · intro other
    rw [erased.states]
    split
    · next same =>
        rw [← same, erased.roles, if_pos (.inl rfl)]
        simp
    · next different =>
        rw [consistent.states other]
        refine ⟨clients other different, ?_⟩
        exact fun isOther => (erased.still isOther).2.2
  · intro other present
    rw [erased.urls] at present
    rw [erased.c2r]
    split at present
    · exact absurd rfl present
    · next different =>
        rw [if_neg different]
        exact consistent.urls other present
  · intro other served pair
    obtain ⟨different, pair⟩ := Erased.listed erased.c2r pair
    rw [erased.states, if_neg different, remotes different pair]
    exact consistent.pairs other served pair
  · intro other served pair
    obtain ⟨different, pair⟩ := Erased.listed erased.c2r pair
    obtain ⟨isOpen, kept⟩ := consistent.live other served pair
    rw [erased.opened]
    refine ⟨isOpen, ?_⟩
    intro member
    rcases erased.released served member with earlier | rfl | own
    · exact kept earlier
    · exact consistent.notClient pair isClient
    · exact different (consistent.inverse.injective own pair)
  · intro served other isRole
    obtain ⟨-, unpaired, isRole⟩ := erased.still isRole
    have pair := consistent.requests served other isRole
    rw [erased.c2r, if_neg]
    · exact pair
    · rintro rfl
      exact unpaired pair
  · intro other state present busy
    obtain ⟨different, present⟩ := Erased.listed erased.states present
    rw [erased.c2r, if_neg different]
    exact consistent.paired other state present busy
  · intro fd isBare
    exact consistent.notBare fd (erased.still isBare).2.2
  · intro other present
    rw [erased.bufferable] at present
    rw [erased.states]
    split at present
    · exact absurd rfl present
    · next different =>
        rw [if_neg different]
        exact consistent.buffered other present

namespace Consistent

/-- A descriptor that is neither a client nor a remote is closed. -/
theorem release (consistent : Consistent s) (isOpen : fd ∈ s.opened)
    (noClient : s.roles[fd]? ≠ some .client)
    (unpaired : ∀ client : Fd, s.own.c2r[client]? ≠ some fd) :
    Consistent (s.release fd) := by
  refine ⟨consistent.sound.release isOpen noClient, consistent.inverse,
    consistent.states, consistent.urls, consistent.pairs, ?_,
    consistent.requests, consistent.paired, consistent.notBare,
    consistent.buffered⟩
  intro client remote pair
  refine ⟨(consistent.live client remote pair).1, ?_⟩
  intro member
  rcases List.mem_append.mp member with earlier | last
  · exact (consistent.live client remote pair).2 earlier
  · rw [List.mem_singleton.mp last] at pair
    exact unpaired client pair

/-- The role of a descriptor changes that is neither a client nor a remote. -/
theorem reassigned (consistent : Consistent s) {role : Option Role}
    (noClient : s.roles[fd]? ≠ some .client)
    (unpaired : ∀ client : Fd, s.own.c2r[client]? ≠ some fd)
    (idle : role = none ∨ ∃ client, role = some (.remote client))
    {left : Server Relays}
    (roles : ∀ other : Fd,
      left.roles[other]? = if other = fd then role else s.roles[other]?)
    (own : left.own = s.own) (bufferable : left.bufferable = s.bufferable)
    (opened : left.opened = s.opened) (released : left.released = s.released)
    (polled : ∀ other ∈ left.polled, other ∈ s.opened) : Consistent left := by
  have others : ∀ {other : Fd}, other ≠ fd →
      left.roles[other]? = s.roles[other]? := by
    intro other different
    rw [roles, if_neg different]
  have here : left.roles[fd]? = role := by
    rw [roles, if_pos rfl]
  have clients : ∀ other : Fd, left.roles[other]? = some .client ↔
      s.roles[other]? = some .client := by
    intro other
    by_cases same : other = fd
    · rw [same, here]
      refine ⟨?_, fun isClient => absurd isClient noClient⟩
      rintro rfl
      simp at idle
    · rw [others same]
  have sound : Sound left := by
    apply consistent.sound.of_clients clients bufferable ?_ released ?_
    · rw [opened]
      exact fun _ => id
    · rw [opened]
      exact polled
  constructor
  · exact sound
  · rw [own]
    exact consistent.inverse
  · intro other
    rw [own, clients]
    exact consistent.states other
  · rw [own]
    exact consistent.urls
  · intro client remote pair
    rw [own] at pair
    rw [own, others]
    · exact consistent.pairs client remote pair
    · rintro rfl
      exact unpaired client pair
  · rw [own, opened, released]
    exact consistent.live
  · intro remote client isRole
    rw [own]
    by_cases same : remote = fd
    · rw [same, here] at isRole
      rw [isRole] at idle
      simp at idle
    · rw [others same] at isRole
      exact consistent.requests remote client isRole
  · rw [own]
    exact consistent.paired
  · intro other isBare
    by_cases same : other = fd
    · rw [same, here] at isBare
      rw [isBare] at idle
      simp at idle
    · rw [others same] at isBare
      exact consistent.notBare other isBare
  · rw [own, bufferable]
    exact consistent.buffered

end Consistent

/-- A descriptor is closed, perhaps with others. -/
structure Trims (fd : Fd) (s after : Server Relays) : Prop where
  consistent : Consistent after
  gone : after.roles[fd]? = none
  roles : ∀ (other : Fd) (role : Role), after.roles[other]? = some role →
    s.roles[other]? = some role
  states : ∀ (other : Fd) (state : SocksState),
    after.own.stateful[other]? = some state →
      s.own.stateful[other]? = some state
  written : after.written = s.written
  opened : after.opened = s.opened

theorem Erased.trims (erased : Erased client s after)
    (consistent : Consistent s) (isClient : s.roles[client]? = some .client)
    (closed : fd = client ∨ s.own.c2r[client]? = some fd) :
    Trims fd s after where
  consistent := erased.consistent consistent isClient
  gone := by rw [erased.roles, if_pos closed]
  roles _ _ isRole := (erased.still isRole).2.2
  states _ _ present := (Erased.listed erased.states present).2
  written := erased.written
  opened := erased.opened

theorem Trims.release (trims : Trims fd s after) (isOpen : fd ∈ s.opened) :
    Trims fd s (after.release fd) where
  consistent := by
    apply trims.consistent.release
    · rw [trims.opened]
      exact isOpen
    · simp [trims.gone]
    · intro client pair
      rcases trims.consistent.servant pair with isRole | isRole
      · simp [trims.gone] at isRole
      · simp [trims.gone] at isRole
  gone := trims.gone
  roles := trims.roles
  states := trims.states
  written := trims.written
  opened := trims.opened

theorem Trims.trans {middle : Server Relays} {other : Fd}
    (first : Trims fd s middle) (second : Trims other middle after) :
    Trims fd s after where
  consistent := second.consistent
  gone := by
    cases isRole : after.roles[fd]? with
    | none => rfl
    | some role =>
        have earlier := second.roles fd role isRole
        rw [first.gone] at earlier
        cases earlier
  roles fd role isRole := first.roles fd role (second.roles fd role isRole)
  states fd state present :=
    first.states fd state (second.states fd state present)
  written := second.written.trans first.written
  opened := second.opened.trans first.opened

section Closing

/-- A remote is closed that is left of a client. -/
theorem trims_left (consistent : Consistent s)
    (isRole : s.roles[fd]? = some (.remote client))
    (unpaired : ∀ client : Fd, s.own.c2r[client]? ≠ some fd)
    (isPolled : fd ∈ s.polled) : Trims fd s ((s.unregister fd).release fd) := by
  have unregistered : Consistent (s.unregister fd) := by
    apply consistent.reassigned (by simp [isRole]) unpaired (.inl rfl)
      (getElem?_unregister s fd) rfl rfl rfl rfl
    intro other member
    exact consistent.sound.polled other (List.mem_filter.mp member).1
  have trims : Trims fd s (s.unregister fd) := by
    refine ⟨unregistered, roles_unregister_self, ?_, fun _ _ => id, rfl, rfl⟩
    intro other role isOther
    rw [getElem?_unregister] at isOther
    split at isOther
    · cases isOther
    · exact isOther
  exact trims.release (consistent.sound.polled fd isPolled)

/-- The client of a remote is closed within a callback of the remote. -/
theorem closing_client_of (consistent : Consistent s)
    (pair : s.own.c2r[client]? = some remote) (left : Server Relays)
    (roles : ∀ other : Fd, other ≠ remote →
      left.roles[other]? = s.roles[other]?)
    (serves : left.roles[remote]? = none ∨ left.roles[remote]? = some .bare)
    (own : left.own = s.own) (bufferable : left.bufferable = s.bufferable)
    (written : left.written = s.written) (opened : left.opened = s.opened)
    (released : ∀ fd ∈ left.released, fd ∈ s.released ∨ fd = remote)
    (polled : ∀ fd ∈ left.polled, fd ∈ s.polled) :
    Returns (closing world service depth client false) left fun _ after =>
      Erased client s after := by
  have isClient := consistent.isClient client (.inr (.inr (by simp [pair])))
  have apart := (consistent.serves isClient remote pair).1
  have stillClient : left.roles[client]? = some .client :=
    (roles client (Ne.symm apart)).trans isClient
  have present : left.own.stateful[client]? ≠ none := by
    rw [own]
    exact (consistent.states client).mpr isClient
  have stillServes : ∀ served, left.own.c2r[client]? = some served →
      served ≠ client ∧ ∀ role, left.roles[served]? = some role →
        role = .connecting client ∨ role = .bare ∨ role = .remote client := by
    intro served another
    rw [own, pair] at another
    cases another
    refine ⟨apart, ?_⟩
    intro role isRole
    rcases serves with none | bare
    · rw [none] at isRole
      cases isRole
    · rw [bare] at isRole
      exact .inr (.inl (Option.some.inj isRole).symm)
  apply (closing_client stillClient present stillServes).weaken
  intro _ after erased
  constructor
  · intro fd
    rw [erased.roles, own]
    split
    · rfl
    · next different =>
        apply roles
        rintro rfl
        exact different (.inr pair)
  · rw [← own]
    exact erased.states
  · rw [← own]
    exact erased.urls
  · rw [← bufferable]
    exact erased.bufferable
  · rw [← own]
    exact erased.c2r
  · rw [← own]
    exact erased.r2c
  · exact erased.written.trans written
  · exact erased.opened.trans opened
  · intro fd member
    rw [← own]
    rcases erased.released fd member with earlier | closed
    · rcases released fd earlier with before | rfl
      · exact .inl before
      · rw [own]
        exact .inr (.inr pair)
    · exact .inr closed
  · exact fun fd member => polled fd (erased.polled fd member)

/-- `close`, whatever is closed. -/
theorem closing_trims (consistent : Consistent s) :
    Returns (closing world service depth fd false) s
      fun _ after => Trims fd s after := by
  induction depth generalizing s fd with
  | zero =>
      cases isRole : s.roles[fd]? with
      | none =>
          apply (closing_gone isRole false).weaken
          rintro _ _ rfl
          exact ⟨consistent, isRole, fun _ _ => id, fun _ _ => id, rfl, rfl⟩
      | some role => exact closing_depth isRole
  | succ depth induction =>
      have unlisted : ∀ other ∈ (s.unregister fd).polled, other ∈ s.polled :=
        fun other member => (List.mem_filter.mp member).1
      have others : ∀ other : Fd, other ≠ fd →
          (s.unregister fd).roles[other]? = s.roles[other]? :=
        fun _ => roles_unregister
      cases isRole : s.roles[fd]? with
      | none =>
          apply (closing_gone isRole false).weaken
          rintro _ _ rfl
          exact ⟨consistent, isRole, fun _ _ => id, fun _ _ => id, rfl, rfl⟩
      | some role =>
          cases role with
          | client =>
              have present := (consistent.states fd).mpr isRole
              apply (closing_client isRole present
                (consistent.serves isRole)).weaken
              exact fun _ after erased =>
                erased.trims consistent isRole (.inl rfl)
          | connecting client =>
              have pair := consistent.requests fd client isRole
              have isClient :=
                consistent.isClient client (.inr (.inr (by simp [pair])))
              have isOpen := (consistent.live client fd pair).1
              apply closing_of_connecting isRole
              intro _
              have told : Returns (service.onRemoteConnect
                  (quietHost world service depth) fd .gameOver client)
                  (s.unregister fd) fun _ after => Erased client s after := by
                apply returns_modifyGet_bind
                apply returns_modifyGet_bind
                have isRefused : ConnectResult.gameOver ≠ .ok := by decide
                rw [if_neg isRefused]
                apply returns_bind (closing_client_of consistent pair _ others
                  (.inl roles_unregister_self) rfl rfl rfl rfl
                  (fun _ => .inl) unlisted)
                exact fun _ after erased => returns_pure erased
              apply told.weaken
              intro _ after erased
              have trims := erased.trims consistent isClient (.inr pair)
              apply (closing_gone trims.gone true).weaken
              rintro _ _ rfl
              exact (trims.release isOpen).release isOpen
          | bare => exact absurd isRole (consistent.notBare fd)
          | remote client =>
              apply closing_of_remote isRole
              intro isPolled
              by_cases pair : s.own.c2r[client]? = some fd
              · have isClient :=
                  consistent.isClient client (.inr (.inr (by simp [pair])))
                have closed : Returns (closing world service depth client
                    false) ((s.unregister fd).release fd)
                    fun _ after => Erased client s after := by
                  apply closing_client_of consistent pair
                    ((s.unregister fd).release fd) others
                    (.inl roles_unregister_self) rfl rfl rfl rfl ?_ unlisted
                  intro other member
                  exact (List.mem_append.mp member).imp_right
                    List.mem_singleton.mp
                apply returns_bind closed
                exact fun _ after erased =>
                  returns_pure (erased.trims consistent isClient (.inr pair))
              · have unpaired : ∀ other : Fd, s.own.c2r[other]? ≠ some fd := by
                  intro other another
                  rcases consistent.servant another with served | served
                  · rw [isRole] at served
                    cases served
                  · rw [isRole] at served
                    cases served
                    exact pair another
                have left := trims_left consistent isRole unpaired isPolled
                apply returns_bind (induction left.consistent)
                exact fun _ after trims => returns_pure (left.trans trims)

end Closing

end Socks

end Universe
