import Universe.EasyP2P
import Universe.Server.Freshness

/-!
# Buffers of peers

`on_close` of `EasyP2P` does not erase the buffer of its client.  A descriptor
keeps none from a client only if every client is closed between two lines.
-/

namespace Universe

open Incremental Stepwise Server
open Std (ExtTreeMap)

namespace EasyP2P

/-- The loop of `on_message` goes on after a command. -/
def goesOn (_ : Unit) (result : Bytes) : Bool :=
  (ascii "list").isPrefixOf result ||
    !((ascii "info ").isPrefixOf result ||
      (ascii "connect ").isPrefixOf result) ||
    (matchTarget result).isSome

/-- No client is closed while a part of a line waits, nor before one will: not
by its peer, and not by a write that fails. -/
def Careful (s : Server Peers) : Server.Event Names → Prop
  | .message client piece world =>
      (∀ (count : Nat) (fd : Fd), world.broken count fd = true →
        fd ≠ client → s.bufferable[fd]? = none) ∧
      (s.own.stateful.getState client = .cmd →
        Protocol.BreaksOff readLine goesOn id () (s.pending client piece) →
        Calm world client)
  | .clientClosed client _ => s.bufferable[client]? = none
  | _ => True

theorem isLocal_service : Local service false where
  onClose _ _ _ client s := ⟨s.own.without client, rfl⟩
  onRemoteConnect _ _ _ _ := rfl
  onRemoteMessage _ _ _ _ := rfl
  onRemoteClose _ _ _ := rfl

theorem writeLine_unpolled {s : Server Peers} {fd : Fd}
    (unpolled : fd ∉ s.polled) (world : Surroundings Names)
    (before : Server Peers) (message : Bytes) :
    Returns (writeLine (host world service before) fd message) s
      fun _ after => ∃ written, after = { s with written } := by
  apply returns_bind (writing_unpolled unpolled _)
  exact fun _ _ same => returns_pure same

theorem welcomes_service : Welcomes service := by
  intro world s before client unpolled
  change Returns (onConnect (host world service before) world.handler client) s _
  unfold onConnect
  cases world.handler.peer with
  | none =>
      apply returns_bind (closing_unpolled unpolled)
      rintro _ _ rfl
      exact returns_pure ⟨_, _, rfl⟩
  | some addr =>
      apply returns_modifyGet_bind
      apply returns_bind (writeLine_unpolled (by exact unpolled) world before _)
      rintro _ _ ⟨written, rfl⟩
      exact returns_modifyGet ⟨_, written, rfl⟩

section Steps

variable {s : Server Peers} {client : Fd} {world : Surroundings Names}
  {asked : Prop} {depth : Nat} {connect : Address → Fd → M Peers Fd}

/-- `write_line` within a callback. -/
theorem writeLine_going (going : Going false world client asked s)
    (calm : asked → Calm world client) (fd : Fd) (message : Bytes) :
    Returns (writeLine
      (hostWith world (closing world service depth · false) connect) fd message)
      s fun _ after => Going false world client asked after := by
  apply returns_bind (going.write isLocal_service calm _)
  exact fun _ after kept => returns_pure kept.1

theorem list_going (going : Going false world client asked s)
    (calm : asked → Calm world client) (nicks : List Bytes) :
    Returns (list
      (hostWith world (closing world service depth · false) connect) client
      nicks) s fun _ after => Going false world client asked after := by
  induction nicks generalizing s with
  | nil => exact returns_pure going
  | cons nick nicks induction =>
      apply returns_modifyGet_bind
      split
      · apply returns_bind (writeLine_going going calm client nick)
        intro _ written kept
        apply returns_modifyGet_bind
        split
        · exact induction kept
        · exact returns_throw
      · exact induction going

theorem getNameInfo_going (going : Going false world client asked s)
    (names : Names) (fd : Fd) :
    Returns (getNameInfo
      (hostWith world (closing world service depth · false) connect) names fd)
      s fun _ after => Going false world client asked after := by
  apply returns_modifyGet_bind
  dsimp only
  cases (s.own.sockAddrs[fd]?).bind names.nameInfo with
  | none => exact returns_throw
  | some name => exact returns_pure going

theorem onInfo_going (going : Going false world client asked s)
    (calm : asked → Calm world client) (names : Names) (target : Bytes) :
    Returns (onInfo
      (hostWith world (closing world service depth · false) connect) names
      client target) s fun _ after => Going false world client asked after := by
  apply returns_modifyGet_bind
  dsimp only
  cases s.own.n2s[target]? with
  | none => exact writeLine_going going calm client _
  | some targetSock =>
      apply returns_bind (getNameInfo_going going names targetSock)
      exact fun name between kept => writeLine_going kept calm client name

theorem onConnectTarget_going (going : Going false world client asked s)
    (calm : asked → Calm world client) (names : Names) (target : Bytes) :
    Returns (onConnectTarget
      (hostWith world (closing world service depth · false) connect) names
      client target) s fun _ after => Going false world client asked after := by
  apply returns_modifyGet_bind
  dsimp only
  cases s.own.n2s[target]? with
  | none => exact writeLine_going going calm client _
  | some targetSock =>
      apply returns_bind (getNameInfo_going going names client)
      intro name between kept
      apply returns_bind (writeLine_going kept calm targetSock _)
      exact fun _ written kept => writeLine_going kept calm client _

/-- One command, as the loop has it. -/
theorem command_going (going : Going false world client asked s)
    (calm : asked → Calm world client) (names : Names) (result : Bytes) :
    Returns (command
      (hostWith world (closing world service depth · false) connect) names
      client result) s fun stays after => Sound after ∧ (stays = true →
        Going false world client asked after ∧ () = () ∧
          goesOn () result = true) := by
  have unasked : Going false world client False s :=
    ⟨going.sound, False.elim, going.safe⟩
  have targets : ∀ act : Bytes → M Peers Unit,
      (∀ target, Returns (act target) s
        fun _ after => Going false world client asked after) →
      Returns (targeted
        (hostWith world (closing world service depth · false) connect) client
        result act) s fun stays after => Sound after ∧ (stays = true →
          Going false world client asked after ∧ () = () ∧
            goesOn () result = true) := by
    intro act acts
    unfold targeted
    cases matched : matchTarget result with
    | none =>
        have unbuffered := going.safe.resolve_left (by decide)
        apply returns_bind (unasked.close isLocal_service False.elim
          (.inr unbuffered.1))
        exact fun _ after kept => returns_pure ⟨kept.1.sound, by simp⟩
    | some target =>
        apply returns_bind (acts target)
        intro _ after kept
        refine returns_pure ⟨kept.sound, fun _ => ⟨kept, rfl, ?_⟩⟩
        simp [goesOn, matched]
  unfold command
  split
  · next isList =>
      apply returns_bind
      · apply returns_modifyGet_bind
        exact list_going going calm _
      · intro _ after kept
        refine returns_pure ⟨kept.sound, fun _ => ⟨kept, rfl, ?_⟩⟩
        simp [goesOn, isList]
  · split
    · exact targets _ fun target => onInfo_going going calm names target
    · split
      · exact targets _ fun target =>
          onConnectTarget_going going calm names target
      · next notList notInfo notConnect =>
          refine returns_pure ⟨going.sound, fun _ => ⟨going, rfl, ?_⟩⟩
          simp [goesOn, notInfo, notConnect]

/-- The first line of a client, or a part of it. -/
theorem chooseNick_sound (going : Going false world client True s)
    (message : Bytes) :
    Returns (chooseNick
      (hostWith world (closing world service depth · false) connect) client
      message) s fun _ after => Sound after := by
  have unasked : Going false world client False s :=
    ⟨going.sound, False.elim, going.safe⟩
  have writes : ∀ {s : Server Peers}, Going false world client False s →
      ∀ text, Returns (writeLine
        (hostWith world (closing world service depth · false) connect) client
        text) s fun _ after => Going false world client False after :=
    fun going text => writeLine_going going False.elim client text
  unfold chooseNick
  cases Utils.splitAt (ascii "\n") message with
  | none =>
      exact returns_modifyGet_bind (returns_pure
        (going.sound.needed (going.present trivial) message))
  | some read =>
      obtain ⟨line, rest⟩ := read
      dsimp only
      cases matchNick (line ++ ascii "\n") with
      | none =>
          exact (writes unasked _).weaken fun _ after kept => kept.sound
      | some nick =>
          apply returns_modifyGet_bind
          split
          · exact (writes unasked _).weaken fun _ after kept => kept.sound
          · apply returns_modifyGet_bind
            apply returns_bind (writes (unasked.own _ s.written s.fired) _)
            intro _ first kept
            apply returns_bind (writes kept _)
            intro _ second kept
            exact returns_modifyGet
              (kept.sound.own _ second.written second.fired)

end Steps

theorem message_sound {s : Server Peers} (sound : Sound s) {client : Fd}
    {piece : Bytes} {world : Surroundings Names}
    (isClient : s.roles[client]? = some .client)
    (careful : Careful s (.message client piece world)) :
    Returns (service.onMessage world.handler (host world service s) client
      piece) s fun _ after => Sound after := by
  have going : Going false world client True _ :=
    going_appended sound isClient (.inr careful.1) piece
  apply returns_modifyGet_bind
  apply returns_modifyGet_bind
  rw [Bufferable.appendBuf_message]
  dsimp only
  cases state : s.own.stateful.getState client with
  | nick => exact chooseNick_sound going _
  | cmd =>
      exact readItems_sound isLocal_service
        (Server.connecting world service s.roles.size) goesOn id (fun _ => ()) going
        (careful.2 state)
        (fun result s going => command_going going id world.handler result) _

theorem fresh_of_careful {s : Server Peers}
    (reached : Reached service Careful s) : Fresh service s := by
  apply fresh_of_local isLocal_service welcomes_service _ _ reached
  · intro s client piece world sound isClient careful
    exact message_sound sound isClient careful
  · intro s client world careful
    exact .inr careful

end EasyP2P

end Universe
