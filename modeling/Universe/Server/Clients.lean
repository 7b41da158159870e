import Universe.Server.Services

/-!
# Clients of a server and their buffers

Whatever a callback does, a descriptor that has a buffer is that of a client.
Where `on_close` erases the buffer this is kept by every `close`; else it is
kept by the `close` of a client without a buffer.
-/

namespace Universe

open Stepwise
open Std (ExtTreeMap)

namespace Server

variable {α η : Type} {s : Server α}

/-- Buffers belong to clients, and a client keeps its descriptor. -/
structure Sound (s : Server α) : Prop where
  buffered : ∀ fd : Fd, s.bufferable[fd]? ≠ none → s.roles[fd]? = some .client
  clients : ∀ fd : Fd, s.roles[fd]? = some .client →
    fd ∈ s.opened ∧ fd ∉ s.released
  polled : ∀ fd ∈ s.polled, fd ∈ s.opened
  released : ∀ fd ∈ s.released, fd ∈ s.opened

theorem roles_unregister {fd other : Fd} (different : other ≠ fd) :
    (s.unregister fd).roles[other]? = s.roles[other]? := by
  simp [unregister, ExtTreeMap.getElem?_erase, Ne.symm different]

theorem roles_unregister_self {fd : Fd} :
    (s.unregister fd).roles[fd]? = none := by
  simp [unregister]

theorem getElem?_unregister (s : Server α) (fd other : Fd) :
    (s.unregister fd).roles[other]? =
      if other = fd then none else s.roles[other]? := by
  by_cases same : other = fd
  · rw [if_pos same, same]
    exact roles_unregister_self
  · rw [if_neg same]
    exact roles_unregister same

namespace Sound

theorem start (own : α) : Sound { own := own } where
  buffered fd present := by simp at present
  clients fd isClient := by simp at isClient
  polled fd member := by cases member
  released fd member := by cases member

/-- A number that can be given has no buffer. -/
theorem unbuffered (sound : Sound s) {fd : Fd} (free : s.Free fd) :
    s.roles[fd]? ≠ some .client ∧ s.bufferable[fd]? = none := by
  have noClient : s.roles[fd]? ≠ some .client := by
    intro isClient
    exact free.2 (sound.clients fd isClient).1
  refine ⟨noClient, ?_⟩
  by_contra present
  exact noClient (sound.buffered fd present)

/-- What else there is does not matter. -/
theorem own (sound : Sound s) (own : α) (written : List Writing)
    (fired : Nat) : Sound { s with own, written, fired } :=
  ⟨sound.buffered, sound.clients, sound.polled, sound.released⟩

theorem erased (sound : Sound s) {bufferable : Bufferable}
    (fewer : ∀ fd : Fd, bufferable[fd]? ≠ none → s.bufferable[fd]? ≠ none) :
    Sound { s with bufferable } :=
  ⟨fun fd present => sound.buffered fd (fewer fd present), sound.clients,
    sound.polled, sound.released⟩

/-- Only a client may get a buffer. -/
theorem needed (sound : Sound s) {client : Fd}
    (isClient : s.roles[client]? = some .client) (message : Bytes) :
    Sound { s with
      bufferable := (s.bufferable.needBuf client message true).2 } := by
  constructor
  · intro fd present
    rw [Bufferable.getElem?_needBuf] at present
    split at present
    · next same =>
        subst same
        exact isClient
    · exact sound.buffered fd present
  · exact sound.clients
  · exact sound.polled
  · exact sound.released

theorem opened (sound : Sound s) (fd : Fd) : Sound (s.openFd fd) where
  buffered := sound.buffered
  clients other isClient :=
    ⟨List.mem_cons_of_mem fd (sound.clients other isClient).1,
      (sound.clients other isClient).2⟩
  polled other member := List.mem_cons_of_mem fd (sound.polled other member)
  released other member :=
    List.mem_cons_of_mem fd (sound.released other member)

theorem release (sound : Sound s) {fd : Fd} (isOpen : fd ∈ s.opened)
    (noClient : s.roles[fd]? ≠ some .client) : Sound (s.release fd) := by
  constructor
  · exact sound.buffered
  · intro other isClient
    refine ⟨(sound.clients other isClient).1, ?_⟩
    intro member
    rcases List.mem_append.mp member with earlier | last
    · exact (sound.clients other isClient).2 earlier
    · rw [List.mem_singleton.mp last] at isClient
      exact noClient isClient
  · exact sound.polled
  · intro other member
    rcases List.mem_append.mp member with earlier | last
    · exact sound.released other earlier
    · rw [List.mem_singleton.mp last]
      exact isOpen

/-- A descriptor is registered for something else than a client. -/
theorem watch (sound : Sound s) {fd : Fd} (isOpen : fd ∈ s.opened)
    (noClient : s.roles[fd]? ≠ some .client) {role : Role}
    (other : role ≠ .client) (reWatch : Bool) :
    Sound (s.watch fd role reWatch) := by
  have same : ∀ another : Fd, (s.watch fd role reWatch).roles[another]? =
      if fd = another then some role else s.roles[another]? := by
    intro another
    simp [Server.roles_watch]
  constructor
  · intro another present
    have isClient := sound.buffered another present
    rw [same, if_neg]
    · exact isClient
    · rintro rfl
      exact noClient isClient
  · intro another isClient
    rw [same] at isClient
    split at isClient
    · cases isClient
      exact absurd rfl other
    · exact sound.clients another isClient
  · intro another member
    change another ∈ if _ then s.polled else fd :: s.polled at member
    split at member
    · exact sound.polled another member
    · rcases List.mem_cons.mp member with here | earlier
      · rw [here]
        exact isOpen
      · exact sound.polled another earlier
  · exact sound.released

/-- A descriptor that leaves `_fds` has no buffer any more. -/
theorem unregister (sound : Sound s) {fd : Fd} {bufferable : Bufferable}
    (gone : bufferable[fd]? = none)
    (fewer : ∀ other : Fd, bufferable[other]? ≠ none → s.bufferable[other]? ≠ none) :
    Sound { s.unregister fd with bufferable } := by
  have kept : ∀ other : Fd, other ≠ fd →
      (s.unregister fd).roles[other]? = s.roles[other]? :=
    fun _ => roles_unregister
  have absent : (s.unregister fd).roles[fd]? = none := roles_unregister_self
  constructor
  · intro other present
    have different : other ≠ fd := by
      rintro rfl
      exact present gone
    exact (kept other different).trans
      (sound.buffered other (fewer other present))
  · intro other isClient
    have different : other ≠ fd := by
      rintro rfl
      rw [absent] at isClient
      cases isClient
    exact sound.clients other ((kept other different).symm.trans isClient)
  · intro other member
    exact sound.polled other (List.mem_filter.mp member).1
  · exact sound.released

/-- The same descriptors are those of clients. -/
theorem of_clients (sound : Sound s) {left : Server α}
    (clients : ∀ fd : Fd,
      left.roles[fd]? = some .client ↔ s.roles[fd]? = some .client)
    (bufferable : left.bufferable = s.bufferable)
    (opened : ∀ fd ∈ s.opened, fd ∈ left.opened)
    (released : left.released = s.released)
    (polled : ∀ fd ∈ left.polled, fd ∈ left.opened) : Sound left := by
  constructor
  · intro fd
    rw [bufferable, clients]
    exact sound.buffered fd
  · intro fd isClient
    rw [clients] at isClient
    rw [released]
    exact (sound.clients fd isClient).imp_left (opened fd)
  · exact polled
  · intro fd member
    rw [released] at member
    exact opened fd (sound.released fd member)

end Sound

theorem unwatch_returns (fd : Fd) :
    Returns (unwatch fd) s fun _ after =>
      fd ∈ s.polled ∧ after = s.unregister fd := by
  apply returns_get_bind
  split
  · next isPolled => exact returns_modify ⟨isPolled, rfl⟩
  · exact returns_throw

variable {world : Surroundings η} {service : Service α η} {depth : Nat}
  {fd : Fd} {force : Bool}

/-- A descriptor that is not registered is closed by force only. -/
theorem closing_absent (absent : s.roles[fd]? = none) :
    closing world service depth fd force s =
      .ok true (if force then s.release fd else s) := by
  cases depth with
  | zero =>
      have outside : ¬ s.roles.contains fd = true := by
        simpa using absent
      unfold closing
      rw [get_bind, if_neg outside]
      cases force with
      | true => rfl
      | false => rfl
  | succ depth =>
      unfold closing
      dsimp only
      rw [get_bind, absent]
      cases force with
      | true => rfl
      | false => rfl

theorem closing_gone (gone : s.roles[fd]? = none) (force : Bool) :
    Returns (closing world service depth fd force) s fun _ after =>
      after = if force then s.release fd else s := by
  constructor
  intro result after returned
  rw [closing_absent gone] at returned
  cases returned
  rfl

/-- The callbacks nest deeper than allowed. -/
theorem closing_depth {role : Role} (registered : s.roles[fd]? = some role)
    {post : Bool → Server α → Prop} :
    Returns (closing world service 0 fd force) s post := by
  have inside : s.roles.contains fd = true := by
    rw [ExtTreeMap.contains_eq_isSome_getElem?, registered]
    rfl
  unfold closing
  apply returns_get_bind
  rw [if_pos inside]
  exact returns_throw_bind

section Roles

variable {client : Fd} {post : Bool → Server α → Prop}

theorem closing_of_client (isRole : s.roles[fd]? = some .client)
    (closes : fd ∈ s.polled →
      Returns (service.onClose (quietHost world service depth) fd)
        ((s.unregister fd).release fd) fun _ after => post true after) :
    Returns (closing world service (depth + 1) fd force) s post := by
  unfold closing
  apply returns_get_bind
  rw [isRole]
  apply returns_bind (unwatch_returns fd)
  rintro _ _ ⟨isPolled, rfl⟩
  apply returns_modify_bind
  apply returns_bind (closes isPolled)
  exact fun _ after holds => returns_pure holds

/-- The callback of `Client::connect` closes by force what is closed. -/
theorem closing_of_connecting (isRole : s.roles[fd]? = some (.connecting client))
    (closes : fd ∈ s.polled →
      Returns (service.onRemoteConnect (quietHost world service depth) fd
          .gameOver client) (s.unregister fd)
        fun _ told => Returns (closing world service depth fd true) told
          fun _ after => post true (after.release fd)) :
    Returns (closing world service (depth + 1) fd force) s post := by
  unfold closing
  apply returns_get_bind
  rw [isRole]
  apply returns_bind (unwatch_returns fd)
  rintro _ _ ⟨isPolled, rfl⟩
  apply returns_bind (closes isPolled)
  intro _ told forced
  apply returns_bind forced
  intro _ after holds
  apply returns_modify_bind
  exact returns_pure holds

theorem closing_of_bare (isRole : s.roles[fd]? = some .bare)
    (closes : fd ∈ s.polled → post true ((s.unregister fd).release fd)) :
    Returns (closing world service (depth + 1) fd force) s post := by
  unfold closing
  apply returns_get_bind
  rw [isRole]
  apply returns_bind (unwatch_returns fd)
  rintro _ _ ⟨isPolled, rfl⟩
  apply returns_modify_bind
  exact returns_pure (closes isPolled)

theorem closing_of_remote (isRole : s.roles[fd]? = some (.remote client))
    (closes : fd ∈ s.polled →
      Returns (service.onRemoteClose (quietHost world service depth) fd client)
        ((s.unregister fd).release fd) fun _ after => post true after) :
    Returns (closing world service (depth + 1) fd force) s post := by
  unfold closing
  apply returns_get_bind
  rw [isRole]
  apply returns_bind (unwatch_returns fd)
  rintro _ _ ⟨isPolled, rfl⟩
  apply returns_modify_bind
  apply returns_bind (closes isPolled)
  exact fun _ after holds => returns_pure holds

end Roles

/-- A descriptor that epoll does not have is not closed. -/
theorem closing_unpolled (unpolled : fd ∉ s.polled) :
    Returns (closing world service depth fd false) s fun _ after => after = s := by
  cases registered : s.roles[fd]? with
  | none =>
      constructor
      intro result after returned
      rw [closing_absent registered] at returned
      cases returned
      rfl
  | some role =>
      cases depth with
      | zero => exact closing_depth registered
      | succ depth =>
          cases role with
          | client =>
              apply closing_of_client registered
              exact fun isPolled => absurd isPolled unpolled
          | connecting client =>
              apply closing_of_connecting registered
              exact fun isPolled => absurd isPolled unpolled
          | bare =>
              apply closing_of_bare registered
              exact fun isPolled => absurd isPolled unpolled
          | remote client =>
              apply closing_of_remote registered
              exact fun isPolled => absurd isPolled unpolled

theorem writing_unpolled (unpolled : fd ∉ s.polled) (data : Bytes) :
    Returns (writing world (closing world service depth · false) fd data) s
      fun _ after => ∃ written, after = { s with written } := by
  apply returns_get_bind
  apply returns_modify_bind
  split
  · apply returns_bind (closing_unpolled (by exact unpolled))
    intro _ after same
    exact returns_pure ⟨_, same⟩
  · exact returns_pure ⟨_, rfl⟩

/-- One descriptor may be gone, with its buffer. -/
structure Closed (fd : Fd) (s after : Server α) : Prop where
  roles : ∀ other : Fd, other ≠ fd → after.roles[other]? = s.roles[other]?
  gone : after.roles[fd]? = none
  buffers : ∀ other : Fd, after.bufferable[other]? ≠ none →
    s.bufferable[other]? ≠ none
  opened : after.opened = s.opened
  fired : after.fired = s.fired

/-- A descriptor leaves `_fds`, and it is closed at the end of the batch. -/
theorem closed_unregister {bufferable : Bufferable}
    (fewer : ∀ other : Fd, bufferable[other]? ≠ none →
      s.bufferable[other]? ≠ none) (own : α) :
    Closed fd s { (s.unregister fd).release fd with own, bufferable } where
  roles _ different := roles_unregister different
  gone := roles_unregister_self
  buffers := fewer
  opened := rfl
  fired := rfl

/-- A descriptor that is not that of a client leaves `_fds`. -/
theorem Sound.unregister_other (sound : Sound s)
    (noClient : s.roles[fd]? ≠ some .client) : Sound (s.unregister fd) := by
  apply sound.unregister
  · by_contra present
    exact noClient (sound.buffered fd present)
  · exact fun _ present => present

/-- The protocol makes no connections, and its `on_close` erases the buffer of
the client or does not touch it. -/
structure Local (service : Service α η) (erases : Bool) : Prop where
  onClose : ∀ (world : Surroundings η) close connect client (s : Server α),
    ∃ own, service.onClose (hostWith world close connect) client s = .ok ()
      { s with
        own
        bufferable :=
          if erases then s.bufferable.eraseBuf client else s.bufferable }
  onRemoteConnect : ∀ host remote r client,
    service.onRemoteConnect host remote r client = pure ()
  onRemoteMessage : ∀ host remote message client,
    service.onRemoteMessage host remote message client = pure ()
  onRemoteClose : ∀ host remote client,
    service.onRemoteClose host remote client = pure ()

/-- The buffer after `on_close`. -/
theorem cleared {bufferable : Bufferable} {erases : Bool}
    (clear : erases = true ∨ bufferable[fd]? = none) :
    (if erases then bufferable.eraseBuf fd else bufferable)[fd]? = none ∧
      ∀ other : Fd, (if erases then bufferable.eraseBuf fd
        else bufferable)[other]? ≠ none → bufferable[other]? ≠ none := by
  cases erases with
  | true =>
      refine ⟨by simp, ?_⟩
      intro other present
      simp only [if_true, Bufferable.getElem?_eraseBuf] at present
      split at present
      · exact absurd rfl present
      · exact present
  | false =>
      refine ⟨?_, fun other present => present⟩
      exact clear.resolve_left (by decide)

/-- `close` where callbacks close nothing. -/
theorem closing_local {erases : Bool} (isLocal : Local service erases)
    (sound : Sound s) (clear : erases = true ∨ s.bufferable[fd]? = none)
    (forced : force = true → fd ∈ s.opened) :
    Returns (closing world service depth fd force) s fun _ after =>
      Sound after ∧ Closed fd s after := by
  cases registered : s.roles[fd]? with
  | none =>
      constructor
      intro result after returned
      rw [closing_absent registered] at returned
      cases returned
      cases force with
      | true =>
          refine ⟨sound.release (forced rfl) (by rw [registered]; simp), ?_⟩
          exact ⟨fun _ _ => rfl, registered, fun _ present => present, rfl, rfl⟩
      | false =>
          exact ⟨sound, fun _ _ => rfl, registered, fun _ present => present,
            rfl, rfl⟩
  | some role =>
      cases depth with
      | zero => exact closing_depth registered
      | succ depth =>
          cases role with
          | client =>
              apply closing_of_client registered
              intro isPolled
              obtain ⟨own, closed⟩ := isLocal.onClose world
                (closing world service depth · false) (fun _ _ => throw .exit) fd
                ((s.unregister fd).release fd)
              constructor
              intro result after returned
              rw [quietHost, closed] at returned
              cases returned
              obtain ⟨erased, fewer⟩ := cleared clear
              refine ⟨?_, closed_unregister fewer own⟩
              exact ((sound.unregister erased fewer).release
                (sound.polled fd isPolled) (by simp [roles_unregister_self])).own
                own s.written s.fired
          | connecting client =>
              apply closing_of_connecting registered
              intro isPolled
              rw [isLocal.onRemoteConnect]
              apply returns_pure
              apply (closing_gone roles_unregister_self true).weaken
              rintro _ _ rfl
              have isOpen := sound.polled fd isPolled
              have once := (sound.unregister_other (by rw [registered]; simp)
                ).release isOpen (by simp [roles_unregister_self])
              refine ⟨once.release isOpen ?_, ?_⟩
              · exact fun isClient => by
                  rw [show (release fd (unregister fd s)).roles[fd]? = none from
                    roles_unregister_self] at isClient
                  cases isClient
              · exact ⟨fun _ => roles_unregister, roles_unregister_self,
                  fun _ present => present, rfl, rfl⟩
          | bare =>
              apply closing_of_bare registered
              intro isPolled
              refine ⟨?_, ?_⟩
              · exact (sound.unregister_other (by rw [registered]; simp)
                  ).release (sound.polled fd isPolled)
                    (by simp [roles_unregister_self])
              · exact closed_unregister (fun _ present => present) s.own
          | remote client =>
              apply closing_of_remote registered
              intro isPolled
              rw [isLocal.onRemoteClose]
              apply returns_pure
              refine ⟨?_, ?_⟩
              · exact (sound.unregister_other (by rw [registered]; simp)
                  ).release (sound.polled fd isPolled)
                    (by simp [roles_unregister_self])
              · exact closed_unregister (fun _ present => present) s.own

/-- A callback for a client is under way.  The client stays if that is asked
for, and what may be closed has no buffer that would be left. -/
structure Going (erases : Bool) (world : Surroundings η) (client : Fd)
    (stays : Prop) (s : Server α) : Prop where
  sound : Sound s
  present : stays → s.roles[client]? = some .client
  safe : erases = true ∨ s.bufferable[client]? = none ∧
    ∀ (count : Nat) (fd : Fd), world.broken count fd = true →
      s.bufferable[fd]? = none

section Going

variable {erases : Bool} {client : Fd} {stays : Prop}
  {connect : Address → Fd → M α Fd}

theorem Going.closed {after : Server α}
    (going : Going erases world client stays s) (sound : Sound after)
    (closed : Closed fd s after) (spares : stays → fd ≠ client) :
    Going erases world client stays after := by
  have without : ∀ other : Fd, s.bufferable[other]? = none →
      after.bufferable[other]? = none := by
    intro other none
    by_contra present
    exact closed.buffers other present none
  constructor
  · exact sound
  · intro isAsked
    rw [closed.roles client (Ne.symm (spares isAsked))]
    exact going.present isAsked
  · apply going.safe.imp_right
    rintro ⟨own, others⟩
    exact ⟨without client own,
      fun count fd broken => without fd (others count fd broken)⟩

/-- What else there is does not matter. -/
theorem Going.own (going : Going erases world client stays s) (own : α)
    (written : List Writing) (fired : Nat) :
    Going erases world client stays { s with own, written, fired } :=
  ⟨going.sound.own own written fired, going.present, going.safe⟩

/-- `close` within a callback. -/
theorem Going.close (isLocal : Local service erases)
    (going : Going erases world client stays s) (spares : stays → fd ≠ client)
    (clear : erases = true ∨ s.bufferable[fd]? = none) :
    Returns (closing world service depth fd false) s fun _ after =>
      Going erases world client stays after ∧ after.fired = s.fired := by
  apply (closing_local isLocal going.sound clear (by simp)).weaken
  rintro _ after ⟨sound, closed⟩
  exact ⟨going.closed sound closed spares, closed.fired⟩

/-- `write` within a callback. -/
theorem Going.write (isLocal : Local service erases)
    (going : Going erases world client stays s)
    (calm : stays → ∀ count, world.broken count client = false)
    (data : Bytes) :
    Returns (writing world (closing world service depth · false) fd data) s
      fun _ after =>
        Going erases world client stays after ∧ after.fired = s.fired := by
  apply returns_get_bind
  apply returns_modify_bind
  have recorded : ∀ written, Going erases world client stays
      { s with written } := fun written => going.own s.own written s.fired
  split
  · next broken =>
      have isBroken : world.broken s.written.length fd = true :=
        (Bool.and_eq_true _ _ ▸ broken : _ ∧ _).2
      apply returns_bind ((recorded _).close isLocal ?_ ?_)
      · rintro _ after kept
        exact returns_pure kept
      · rintro isAsked rfl
        rw [calm isAsked] at isBroken
        cases isBroken
      · apply going.safe.imp_right
        intro unbuffered
        exact unbuffered.2 _ fd isBroken
  · exact returns_pure ⟨recorded _, rfl⟩

/-- What handlers do, where `on_close` erases the buffer. -/
theorem Going.acts (isLocal : Local service true)
    (going : Going true world client stays s)
    (calm : stays → ∀ count, world.broken count client = false)
    {list : List Act} (spares : stays → Act.close client ∉ list) :
    Returns (acts (hostWith world (closing world service depth · false) connect)
      list) s fun _ after =>
        Going true world client stays after ∧ after.fired = s.fired := by
  induction list generalizing s with
  | nil => exact returns_pure ⟨going, rfl⟩
  | cons first list induction =>
      have performed : Returns
          (act (hostWith world (closing world service depth · false) connect)
            first) s fun _ after =>
          Going true world client stays after ∧ after.fired = s.fired := by
        cases first with
        | write fd data =>
            apply returns_bind (going.write isLocal calm data)
            intro _ after kept
            exact returns_pure kept
        | close fd =>
            apply returns_bind (going.close isLocal ?_ (.inl rfl))
            · intro _ after kept
              exact returns_pure kept
            · rintro isAsked rfl
              exact spares isAsked List.mem_cons_self
      apply returns_bind performed
      rintro _ between ⟨kept, fired⟩
      apply (induction kept ?_).weaken
      · rintro _ after ⟨finished, same⟩
        exact ⟨finished, same.trans fired⟩
      · intro isAsked member
        exact spares isAsked (List.mem_cons_of_mem first member)

/-- Firing handlers. -/
theorem Going.fire {β : Type} (isLocal : Local service true)
    (going : Going true world client stays s)
    (calm : stays → ∀ count, world.broken count client = false)
    {outcome : Nat → β × List Act}
    (spares : stays → ∀ count, Act.close client ∉ (outcome count).2) :
    Returns (fire (hostWith world (closing world service depth · false) connect)
      outcome) s fun result after =>
        result = (outcome s.fired).1 ∧
          Going true world client stays after ∧ after.fired = s.fired + 1 := by
  have counted : Going true world client stays
      { s with fired := s.fired + 1 } :=
    going.own s.own s.written (s.fired + 1)
  apply returns_modifyGet_bind
  apply returns_bind (counted.acts isLocal calm
    fun isAsked => spares isAsked s.fired)
  rintro _ after ⟨kept, fired⟩
  exact returns_pure ⟨rfl, kept, fired⟩

end Going

end Server

end Universe
