import Universe.Server.Messages

/-!
# Buffers of closed clients

No descriptor has a buffer but that of a client, so that the first message of
a new client begins with its own bytes.  `Http`, `Soa` and `WebSocket` keep
this as long as no client is closed while a message that ends inside an item is
dealt with.
-/

namespace Universe

open Incremental Stepwise
open Std (ExtTreeMap)

namespace Server

variable {α η : Type} {service : Service α η} {erases : Bool} {s : Server α}

/-- A descriptor that is not that of a client has no buffer, and a new client
finds none. -/
structure Fresh (service : Service α η) (s : Server α) : Prop where
  closed : ∀ fd : Fd, s.roles[fd]? ≠ some .client → s.bufferable[fd]? = none
  first : ∀ client world after, s.Allows (.accept client world : Event η) →
    perform service (.accept client world) s = .ok () after →
    ∀ piece, (after.bufferable.appendBuf client piece).1 = piece

theorem Sound.closed (sound : Sound s) (fd : Fd)
    (noClient : s.roles[fd]? ≠ some .client) : s.bufferable[fd]? = none := by
  by_contra present
  exact noClient (sound.buffered fd present)

theorem Sound.setRole (sound : Sound s) {fd : Fd} {role : Role}
    (noClient : s.roles[fd]? ≠ some .client) (other : role ≠ .client) :
    Sound (s.setRole fd role) := by
  constructor
  · intro another present
    have isClient := sound.buffered another present
    rw [roles_setRole, if_neg]
    · exact isClient
    · rintro rfl
      exact noClient isClient
  · intro another isClient
    rw [roles_setRole] at isClient
    split at isClient
    · cases isClient
      exact absurd rfl other
    · exact sound.clients another isClient
  · exact sound.polled
  · exact sound.released

/-- A new client is registered. -/
theorem Sound.accepted (sound : Sound s) {client : Fd}
    (isOpen : client ∈ s.opened) (stays : client ∉ s.released) :
    Sound (s.watch client .client false) := by
  constructor
  · intro fd present
    rw [roles_watch]
    split
    · rfl
    · exact sound.buffered fd present
  · intro fd isClient
    rw [roles_watch] at isClient
    split at isClient
    · next here =>
        subst here
        exact ⟨isOpen, stays⟩
    · exact sound.clients fd isClient
  · intro fd member
    change fd ∈ if _ then s.polled else client :: s.polled at member
    split at member
    · exact sound.polled fd member
    · rcases List.mem_cons.mp member with here | earlier
      · rw [here]
        exact isOpen
      · exact sound.polled fd earlier
  · exact sound.released

/-- The end of a batch closes no client. -/
theorem Sound.flushed (sound : Sound s) :
    Sound { s with
      opened := s.opened.filter fun fd => fd ∉ s.released
      polled := s.polled.filter fun fd => fd ∉ s.released
      released := [] } := by
  constructor
  · exact sound.buffered
  · intro fd isClient
    obtain ⟨isOpen, stays⟩ := sound.clients fd isClient
    refine ⟨List.mem_filter.mpr ⟨isOpen, by simpa using stays⟩, ?_⟩
    exact List.not_mem_nil
  · intro fd member
    obtain ⟨isPolled, stays⟩ := List.mem_filter.mp member
    exact List.mem_filter.mpr ⟨sound.polled fd isPolled, stays⟩
  · intro fd member
    cases member

/-- What `accept` needs of `on_connect`, where the protocol makes no
connections. -/
def Welcomes (service : Service α η) : Prop :=
  ∀ (world : Surroundings η) (s before : Server α) (client : Fd),
    client ∉ s.polled →
    Returns (service.onConnect world.handler (host world service before) client)
      s fun _ after => ∃ own written, after = { s with own, written }

/-- A client is accepted with the buffer that its descriptor had. -/
theorem accept_local (welcomes : Welcomes service) (sound : Sound s)
    {client : Fd} {world : Surroundings η}
    (allowed : s.Allows (.accept client world)) :
    Returns (perform service (.accept client world)) s fun _ after =>
      Sound after ∧ after.bufferable = s.bufferable := by
  have unpolled : client ∉ (s.openFd client).polled := by
    intro member
    exact allowed.1.2 (sound.polled client member)
  apply returns_modify_bind
  apply returns_get_bind
  apply returns_bind (welcomes world _ _ client unpolled)
  rintro _ _ ⟨own, written, rfl⟩
  apply returns_modify
  refine ⟨?_, rfl⟩
  apply Sound.accepted
  · exact (sound.opened client).own own written s.fired
  · exact List.mem_cons_self
  · intro member
    exact allowed.1.2 (sound.released client member)

theorem perform_local (isLocal : Local service erases)
    (welcomes : Welcomes service) (sound : Sound s) {event : Event η}
    (allowed : s.Allows event)
    (messages : ∀ client piece world, event = .message client piece world →
      Returns (service.onMessage world.handler (host world service s) client
        piece) s fun _ after => Sound after)
    (clear : ∀ client world, event = .clientClosed client world →
      erases = true ∨ s.bufferable[client]? = none) :
    Returns (perform service event) s fun _ after => Sound after := by
  cases event with
  | accept client world =>
      apply (accept_local welcomes sound allowed).weaken
      exact fun _ after kept => kept.1
  | message client piece world =>
      apply returns_get_bind
      exact messages client piece world rfl
  | clientClosed client world =>
      apply returns_get_bind
      apply returns_bind (closing_local isLocal sound (clear client world rfl)
        (by simp))
      intro _ after kept
      exact returns_pure kept.1
  | connected remote world =>
      obtain ⟨client, isRole, isPolled⟩ := allowed
      have noClient : s.roles[remote]? ≠ some .client := by
        rw [isRole]
        simp
      apply returns_get_bind
      rw [isRole]
      apply returns_modify_bind
      unfold Server.connected
      rw [isLocal.onRemoteConnect]
      apply returns_modify
      apply (sound.setRole noClient (by simp)).watch
      · exact sound.polled remote isPolled
      · simp [Server.setRole]
      · simp
  | connectFailed remote world =>
      obtain ⟨client, isRole, isPolled⟩ := allowed
      have noClient : s.roles[remote]? ≠ some .client := by
        rw [isRole]
        simp
      apply returns_get_bind
      rw [isRole]
      apply returns_bind (unwatch_returns remote)
      rintro _ _ ⟨_, rfl⟩
      unfold Server.connected
      rw [isLocal.onRemoteConnect]
      constructor
      intro result after returned
      rw [if_neg (by decide), bind_of_ok (rfl : (pure () : M α Unit) _ = _),
        bind_of_ok (closing_absent roles_unregister_self)] at returned
      cases returned
      apply (sound.unregister_other noClient).release
      · exact sound.polled remote isPolled
      · simp [roles_unregister_self]
  | remoteMessage remote piece world =>
      obtain ⟨⟨client, isRole, _⟩, _⟩ := allowed
      apply returns_get_bind
      rw [isRole]
      dsimp only
      rw [isLocal.onRemoteMessage]
      exact returns_pure sound
  | remoteClosed remote world =>
      obtain ⟨client, isRole, _⟩ := allowed
      apply returns_get_bind
      apply returns_bind (closing_local isLocal sound (.inr ?_) (by simp))
      · intro _ after kept
        exact returns_pure kept.1
      · apply sound.closed
        rw [isRole]
        simp
  | flush =>
      exact returns_modify sound.flushed

/-- `append_buf` takes what there was for a client. -/
theorem going_appended (sound : Sound s) {client : Fd}
    (isClient : s.roles[client]? = some .client) {world : Surroundings η}
    (safe : erases = true ∨ ∀ (count : Nat) (fd : Fd),
      world.broken count fd = true → fd ≠ client → s.bufferable[fd]? = none)
    (piece : Bytes) :
    Going erases world client True
      { s with bufferable := (s.bufferable.appendBuf client piece).2 } := by
  have own : (s.bufferable.appendBuf client piece).2[client]? = none := by
    simp
  constructor
  · apply sound.erased
    intro fd present
    rw [Bufferable.getElem?_appendBuf] at present
    split at present
    · exact absurd rfl present
    · exact present
  · exact fun _ => isClient
  · apply safe.imp_right
    intro others
    refine ⟨own, ?_⟩
    intro count fd broken
    by_cases same : fd = client
    · rw [same]
      exact own
    · exact (Bufferable.getElem?_appendBuf ..).trans
        ((if_neg (Ne.symm same)).trans (others count fd broken same))

/-- No write to the client gives `EPIPE`. -/
def Calm (world : Surroundings η) (client : Fd) : Prop :=
  ∀ count, world.broken count client = false

/-- The bytes of a message, behind those that waited for it. -/
def pending (s : Server α) (client : Fd) (piece : Bytes) : Bytes :=
  (s.bufferable[client]?).getD [] ++ piece

/-- What holds in every step holds in every state. -/
theorem sound_of_reached {condition : Server α → Event η → Prop}
    (steps : ∀ (s : Server α) event, Sound s → s.Allows event →
      condition s event →
      Returns (perform service event) s fun _ after => Sound after)
    (reached : Reached service condition s) : Sound s := by
  induction reached with
  | start => exact .start service.start
  | step earlier allowed meets returned induction =>
      exact (steps _ _ induction allowed meets).holds _ _ returned

theorem fresh_of_sound (welcomes : Welcomes service) (sound : Sound s) :
    Fresh service s where
  closed := sound.closed
  first client world after allowed returned piece := by
    obtain ⟨-, same⟩ :=
      (accept_local welcomes sound allowed).holds _ _ returned
    rw [same, Bufferable.appendBuf_message,
      (sound.unbuffered allowed.1).2]
    rfl

/-- A run is fresh where every message leaves the buffers of clients only, and
the end of a client its own buffer to nobody. -/
theorem fresh_of_local {condition : Server α → Event η → Prop}
    (isLocal : Local service erases) (welcomes : Welcomes service)
    (messages : ∀ (s : Server α) client piece world, Sound s →
      s.roles[client]? = some .client →
      condition s (.message client piece world) →
      Returns (service.onMessage world.handler (host world service s) client
        piece) s fun _ after => Sound after)
    (clear : ∀ (s : Server α) client world,
      condition s (.clientClosed client world) →
      erases = true ∨ s.bufferable[client]? = none)
    (reached : Reached service condition s) : Fresh service s := by
  apply fresh_of_sound welcomes
  apply sound_of_reached _ reached
  intro s event sound allowed meets
  apply perform_local isLocal welcomes sound allowed
  · intro client piece world same
    subst same
    exact messages s client piece world sound allowed.1.1 meets
  · intro client world same
    subst same
    exact clear s client world meets

end Server

open Server

namespace Http

/-- The loop of `on_message` goes on after a request. -/
def goesOn (handler : HttpFiring) (count : Nat) (r : HttpRequest) : Bool :=
  decide (verdict (handler count r (.ofRequest r)).1.1 = .opened)

/-- While the message ends inside a request behind others, the client is not
closed by a write that fails nor by a handler. -/
def Careful (s : Server Unit) : Server.Event HttpFiring → Prop
  | .message client piece world =>
      Protocol.BreaksOff (parseItem client) (goesOn world.handler) (· + 1)
          s.fired (s.pending client piece) →
        Calm world client ∧ ∀ count r resp,
          Act.close client ∉ (world.handler count r resp).2
  | _ => True

theorem isLocal_service : Local service true where
  onClose _ _ _ _ s := ⟨s.own, rfl⟩
  onRemoteConnect _ _ _ _ := rfl
  onRemoteMessage _ _ _ _ := rfl
  onRemoteClose _ _ _ := rfl

theorem welcomes_service : Welcomes service := by
  intro world s before client _
  exact returns_pure ⟨s.own, s.written, rfl⟩

/-- One request, as the loop has it. -/
theorem answer_going {s : Server Unit} {world : Surroundings HttpFiring}
    {client : Fd} {asked : Prop} {depth : Nat}
    {connect : Address → Fd → M Unit Fd}
    (going : Going true world client asked s)
    (calm : asked → Calm world client ∧ ∀ count r resp,
      Act.close client ∉ (world.handler count r resp).2) (r : HttpRequest) :
    Returns (answer
      (hostWith world (closing world service depth · false) connect).toHost
      (fun r resp => fire
        (hostWith world (closing world service depth · false) connect)
        fun count => world.handler count r resp) client r) s
      fun stays after => Sound after ∧ (stays = true →
        Going true world client asked after ∧ after.fired = s.fired + 1 ∧
          goesOn world.handler s.fired r = true) := by
  apply returns_bind (going.fire isLocal_service (fun isAsked => (calm isAsked).1)
    fun isAsked count => (calm isAsked).2 count r _)
  rintro ⟨r', resp⟩ fired ⟨answered, kept, counted⟩
  apply returns_bind (kept.write isLocal_service
    (fun isAsked => (calm isAsked).1) resp.toBytes)
  rintro _ written ⟨kept, same⟩
  have decides : goesOn world.handler s.fired r =
      decide (verdict r' = .opened) := by
    unfold goesOn
    rw [← answered]
  cases ends : verdict r' with
  | opened =>
      rw [closeIfNecessary_opened _ ends]
      apply returns_pure
      exact ⟨kept.sound, fun _ => ⟨kept, same.trans counted,
        decides.trans (by rw [ends]; rfl)⟩⟩
  | closed =>
      rw [closeIfNecessary_closed _ ends]
      rw [bind_assoc]
      apply returns_bind (closing_local isLocal_service kept.sound (.inl rfl)
        (by simp))
      intro _ after closed
      rw [pure_bind]
      exact returns_pure ⟨closed.1, by simp⟩
  | crashed =>
      rw [closeIfNecessary_crashed _ ends]
      exact returns_throw_bind

theorem message_sound {s : Server Unit} (sound : Sound s) {client : Fd}
    {piece : Bytes} {world : Surroundings HttpFiring}
    (isClient : s.roles[client]? = some .client)
    (careful : Careful s (.message client piece world)) :
    Returns (service.onMessage world.handler (host world service s) client
      piece) s fun _ after => Sound after := by
  apply returns_modifyGet_bind
  rw [Bufferable.appendBuf_message, serve_eq_readItems]
  have going : Going true world client True _ :=
    going_appended sound isClient (.inl rfl) piece
  exact readItems_sound isLocal_service _ (goesOn world.handler) (· + 1)
    Server.fired going careful (fun r s going => answer_going going id r) _

theorem fresh_of_careful {s : Server Unit} (reached : Reached service Careful s) :
    Fresh service s := by
  apply fresh_of_local isLocal_service welcomes_service _ _ reached
  · intro s client piece world sound isClient careful
    exact message_sound sound isClient careful
  · intro _ _ _ _
    exact .inl rfl

end Http

namespace Soa

variable {maxSize : Nat}

/-- While the message ends inside a packet behind others, the client is not
closed by a write that fails nor by a handler. -/
def Careful (maxSize : Nat) (s : Server Unit) : Server.Event SoaFiring → Prop
  | .message client piece world =>
      Protocol.BreaksOff (parseRequest maxSize client) (fun _ _ => true) (· + 1)
          s.fired (s.pending client piece) →
        Calm world client ∧ ∀ count r resp,
          Act.close client ∉ (world.handler count r resp).2
  | _ => True

theorem isLocal_service : Local (service maxSize) true where
  onClose _ _ _ _ s := ⟨s.own, rfl⟩
  onRemoteConnect _ _ _ _ := rfl
  onRemoteMessage _ _ _ _ := rfl
  onRemoteClose _ _ _ := rfl

theorem welcomes_service : Welcomes (service maxSize) := by
  intro world s before client _
  exact returns_pure ⟨s.own, s.written, rfl⟩

theorem message_sound {s : Server Unit} (sound : Sound s) {client : Fd}
    {piece : Bytes} {world : Surroundings SoaFiring}
    (isClient : s.roles[client]? = some .client)
    (careful : Careful maxSize s (.message client piece world)) :
    Returns ((service maxSize).onMessage world.handler
      (host world (service maxSize) s) client piece) s
      fun _ after => Sound after := by
  apply returns_modifyGet_bind
  rw [Bufferable.appendBuf_message]
  have going : Going true world client True _ :=
    going_appended sound isClient (.inl rfl) piece
  refine readItems_sound isLocal_service _ (fun _ _ => true) (· + 1) Server.fired
    going careful ?_ _
  intro r s going
  apply returns_bind (going.fire isLocal_service
    (fun isAsked => isAsked.1) fun isAsked count => isAsked.2 count r _)
  rintro resp fired ⟨-, kept, counted⟩
  apply returns_bind (kept.write isLocal_service
    (fun isAsked => isAsked.1) resp.toBytes)
  rintro _ written ⟨kept, same⟩
  exact returns_pure ⟨kept.sound, fun _ => ⟨kept, same.trans counted, rfl⟩⟩

theorem fresh_of_careful {s : Server Unit}
    (reached : Reached (service maxSize) (Careful maxSize) s) :
    Fresh (service maxSize) s := by
  apply fresh_of_local isLocal_service welcomes_service _ _ reached
  · intro s client piece world sound isClient careful
    exact message_sound sound isClient careful
  · intro _ _ _ _
    exact .inl rfl

end Soa

namespace WebSocket

variable {sha1 : Bytes → Bytes} {maxSize : Nat}

/-- The loop of `on_message` goes on after a message. -/
def goesOn (handler : WebSocketFiring) (count : Nat)
    (read : WebSocketMessage) : Bool :=
  let opcode := (handler count read).1.opcode
  opcode == opcodeTextFrame || opcode == opcodeBinaryFrame ||
    opcode == opcodePing || opcode == opcodePong

/-- While the input ends inside a message behind others, the client is not
closed by a write that fails nor by a handler. -/
def Careful (maxSize : Nat) (s : Server (Stateful WebSocketState)) :
    Server.Event WebSocketFiring → Prop
  | .message client piece world =>
      s.own.getState client = .opened →
        Protocol.BreaksOff (parseMessage client maxSize) (goesOn world.handler)
          (· + 1) s.fired (s.pending client piece) →
        Calm world client ∧ ∀ count read,
          Act.close client ∉ (world.handler count read).2
  | _ => True

theorem isLocal_service : Local (service sha1 maxSize) true where
  onClose _ _ _ client s := ⟨s.own.eraseState client, rfl⟩
  onRemoteConnect _ _ _ _ := rfl
  onRemoteMessage _ _ _ _ := rfl
  onRemoteClose _ _ _ := rfl

theorem welcomes_service : Welcomes (service sha1 maxSize) := by
  intro world s before client _
  exact returns_modifyGet ⟨_, s.written, rfl⟩

section Steps

variable {s : Server (Stateful WebSocketState)} {client : Fd}
  {world : Surroundings WebSocketFiring} {asked : Prop} {depth : Nat}
  {connect : Address → Fd → M (Stateful WebSocketState) Fd}

/-- A close frame is written, and the client is closed. -/
theorem close_returns (going : Going true world client asked s)
    (calm : asked → Calm world client) (code : UInt16) (reason : Bytes)
    {post : Bool → Server (Stateful WebSocketState) → Prop}
    (done : ∀ after : Server (Stateful WebSocketState), Sound after →
      post false after) :
    Returns (do
      let _ ← close
        ((hostWith world (closing world (service sha1 maxSize) depth · false)
          connect).stateHost id fun _ stateful => stateful) client code reason
      return false) s post := by
  unfold close send
  simp only [bind_assoc, pure_bind]
  apply returns_bind (going.write isLocal_service calm _)
  rintro _ written ⟨kept, -⟩
  apply returns_bind (closing_local isLocal_service kept.sound (.inl rfl)
    (by simp))
  rintro _ after ⟨sound, -⟩
  exact returns_pure (done after sound)

/-- One message, as the loop has it. -/
theorem answer_going (going : Going true world client asked s)
    (calm : asked → Calm world client ∧ ∀ count read,
      Act.close client ∉ (world.handler count read).2)
    (read : WebSocketMessage) :
    Returns (answer
      ((hostWith world (closing world (service sha1 maxSize) depth · false)
        connect).stateHost id fun _ stateful => stateful)
      (fun read => fire
        (hostWith world (closing world (service sha1 maxSize) depth · false)
          connect)
        fun count => world.handler count read) client read) s
      fun stays after => Sound after ∧ (stays = true →
        Going true world client asked after ∧ after.fired = s.fired + 1 ∧
          goesOn world.handler s.fired read = true) := by
  apply returns_bind (going.fire isLocal_service (fun isAsked => (calm isAsked).1)
    fun isAsked count => (calm isAsked).2 count read)
  rintro m fired ⟨answered, kept, counted⟩
  have stays : m.opcode = opcodeTextFrame ∨ m.opcode = opcodeBinaryFrame ∨
      m.opcode = opcodePing ∨ m.opcode = opcodePong →
      goesOn world.handler s.fired read = true := by
    intro known
    unfold goesOn
    rw [← answered]
    simpa [or_assoc] using known
  unfold respond
  split
  · next data =>
      refine returns_pure ⟨kept.sound, fun _ => ⟨kept, counted, stays ?_⟩⟩
      exact data.elim .inl fun binary => .inr (.inl binary)
  split
  · exact close_returns kept (fun isAsked => (calm isAsked).1) _ _
      fun after sound => ⟨sound, by simp⟩
  split
  · next ping =>
      unfold pong send
      simp only [bind_assoc, pure_bind]
      apply returns_bind (kept.write isLocal_service
        (fun isAsked => (calm isAsked).1) _)
      rintro _ written ⟨kept, same⟩
      exact returns_pure ⟨kept.sound, fun _ => ⟨kept, same.trans counted,
        stays (.inr (.inr (.inl ping)))⟩⟩
  split
  · next pong =>
      exact returns_pure ⟨kept.sound, fun _ => ⟨kept, counted,
        stays (.inr (.inr (.inr pong)))⟩⟩
  · exact close_returns kept (fun isAsked => (calm isAsked).1) _ _
      fun after sound => ⟨sound, by simp⟩

/-- The handshake keeps its message, or it writes and closes. -/
theorem handshake_sound (going : Going true world client True s)
    (message : Bytes) :
    Returns (handshake
      ((hostWith world (closing world (service sha1 maxSize) depth · false)
        connect).stateHost id fun _ stateful => stateful) sha1 client message) s
      fun _ after => Sound after := by
  have closes : ∀ s : Server (Stateful WebSocketState), Sound s →
      Returns (do
        let _ ← closing world (service sha1 maxSize) depth client false
        return ()) s fun _ after => Sound after := by
    intro s sound
    apply returns_bind (closing_local isLocal_service sound (.inl rfl) (by simp))
    exact fun _ after closed => returns_pure closed.1
  have unasked : Going true world client False s :=
    ⟨going.sound, False.elim, going.safe⟩
  unfold handshake
  cases Http.parseRequest client message with
  | error stop =>
      cases stop with
      | ag =>
          exact returns_modifyGet_bind (returns_pure
            (going.sound.needed (going.present trivial) message))
      | ng => exact closes s going.sound
  | ok read =>
      obtain ⟨r, rest⟩ := read
      dsimp only
      cases r.headers.find HttpToken.secWebsocketKey with
      | none => exact closes s going.sound
      | some key =>
          dsimp only
          cases Base64.encode (sha1 (key ++ guid)) with
          | none => exact returns_throw
          | some accept =>
              apply returns_bind (unasked.write isLocal_service False.elim
                (switching accept).toBytes)
              rintro _ written ⟨kept, -⟩
              apply returns_modifyGet_bind
              have sound := kept.sound.own
                (written.own.setState client .opened) written.written
                written.fired
              split
              · exact returns_pure sound
              · exact closes _ sound

end Steps

theorem message_sound {s : Server (Stateful WebSocketState)} (sound : Sound s)
    {client : Fd} {piece : Bytes} {world : Surroundings WebSocketFiring}
    (isClient : s.roles[client]? = some .client)
    (careful : Careful maxSize s (.message client piece world)) :
    Returns ((service sha1 maxSize).onMessage world.handler
      (host world (service sha1 maxSize) s) client piece) s
      fun _ after => Sound after := by
  have going : Going true world client True _ :=
    going_appended sound isClient (.inl rfl) piece
  apply returns_modifyGet_bind
  apply returns_modifyGet_bind
  rw [Bufferable.appendBuf_message]
  dsimp only [id]
  cases state : s.own.getState client with
  | handshake => exact handshake_sound going _
  | opened =>
      dsimp only
      rw [converse_eq_readItems]
      exact readItems_sound isLocal_service
        (Server.connecting world (service sha1 maxSize) s.roles.size)
        (goesOn world.handler) (· + 1)
        Server.fired going (careful state)
        (fun read s going => answer_going going id read) _

theorem fresh_of_careful {s : Server (Stateful WebSocketState)}
    (reached : Reached (service sha1 maxSize) (Careful maxSize) s) :
    Fresh (service sha1 maxSize) s := by
  apply fresh_of_local isLocal_service welcomes_service _ _ reached
  · intro s client piece world sound isClient careful
    exact message_sound sound isClient careful
  · intro _ _ _ _
    exact .inl rfl

end WebSocket

end Universe
