import Universe.Bufferable
import Universe.WebSocket.Frames

/-!
# Sessions of several processes

A master gives every client it accepts a session id.  A worker is told the id
of each of its clients by the first four bytes it reads from it, and what
belongs to the client waits until then.  Whoever has a session id can write to
its client, from a worker through the parent.
-/

namespace Universe

open Std (ExtTreeMap)

abbrev SessionId := UInt32

/-- The bytes of `htonl` in memory. -/
def htonl (value : UInt32) : Bytes := Utils.hton (littleEndian 4 value.toNat)

/-- `Protocol::read` of an `uint32_t`, and `ntohl`. -/
def Protocol.readUint32 (message : Bytes) : Option (UInt32 × Bytes) :=
  if message.length < 4 then none
  else some (UInt32.ofNat (ofLittleEndian (Utils.hton (message.take 4))),
    message.drop 4)

namespace Protocol

@[simp]
theorem length_htonl (value : UInt32) : (htonl value).length = 4 := by
  simp [htonl, Utils.hton, length_littleEndian]

/-- An integer is read as it was written. -/
@[simp]
theorem readUint32_htonl (value : UInt32) (rest : Bytes) :
    readUint32 (htonl value ++ rest) = some (value, rest) := by
  have size : (htonl value).length = 4 := length_htonl value
  have long : ¬ (htonl value ++ rest).length < 4 := by
    rw [List.length_append, size]
    omega
  have first : (htonl value ++ rest).take 4 = htonl value := by
    rw [List.take_append_of_le_length (by omega), List.take_of_length_le]
    omega
  have later : (htonl value ++ rest).drop 4 = rest := by
    rw [List.drop_append_of_le_length (by omega), List.drop_of_length_le]
    · rfl
    · omega
  have small : value.toNat < 256 ^ 4 := value.toNat_lt
  unfold readUint32
  rw [if_neg long, first, later]
  unfold htonl Utils.hton
  rw [List.reverse_reverse, ofLittleEndian_littleEndian small,
    UInt32.ofNat_toNat]

theorem readUint32_eq_none {message : Bytes} :
    readUint32 message = none ↔ message.length < 4 := by
  unfold readUint32
  split
  · next short => simp [short]
  · next long => simp [long]

theorem length_of_readUint32 {message rest : Bytes} {value : UInt32}
    (read : readUint32 message = some (value, rest)) :
    message.length = 4 + rest.length := by
  unfold readUint32 at read
  split at read
  · cases read
  · next long =>
      cases read
      rw [List.length_drop]
      omega

end Protocol

/-- The members of `ClientServer`, with the tasks of its sessions. -/
structure ClientServer (τ : Type) where
  isChild : Bool := false
  /-- `_session_id`, the last one that was given. -/
  sessionId : SessionId := 0
  c2s : ExtTreeMap Fd SessionId := ∅
  s2c : ExtTreeMap SessionId Fd := ∅
  sessionTasks : ExtTreeMap Fd (List τ) := ∅
  bufferable : Bufferable := ∅

/-- What `ClientServer` asks for. -/
structure SessionHost (τ : Type) (m : Type → Type) where
  own : {β : Type} → (ClientServer τ → β × ClientServer τ) → m β
  write : Fd → Bytes → m Int
  /-- `connect_parent`, with `_parent_sock` after it. -/
  connectParent : m Fd
  /-- `watch` of a descriptor for `READ`, by the protocol. -/
  watchRead : Fd → m Unit
  /-- A task of a session is called. -/
  task : τ → Fd → m Unit
  exit : m Unit

namespace ClientServer

variable {τ : Type}

section Members

variable (server : ClientServer τ)

def identify (client : Fd) (sessionId : SessionId) : ClientServer τ :=
  { server with
    c2s := server.c2s.insert client sessionId
    s2c := server.s2c.insert sessionId client }

/-- `accept` of a client. -/
def accept (client : Fd) : ClientServer τ :=
  if server.isChild then server
  else
    let sessionId := server.sessionId + 1
    { server with sessionId }.identify client sessionId

/-- What `unwatch` does about a descriptor that was watched. -/
def unwatch (fd : Fd) : ClientServer τ :=
  let forgotten :=
    match server.c2s[fd]? with
    | none => server
    | some sessionId =>
        { server with
          s2c := server.s2c.erase sessionId
          c2s := server.c2s.erase fd }
  { forgotten with
    sessionTasks := forgotten.sessionTasks.erase fd
    bufferable := forgotten.bufferable.eraseBuf fd }

/-- `get_session_id`. -/
def getSessionId (client : Fd) : Option SessionId := server.c2s[client]?

/-- `recv_session_id`, with the rest of the message when it has the id. -/
def recvSessionId (workerClient : Fd) (message : Bytes) :
    Option Bytes × ClientServer τ :=
  let (message, bufferable) := server.bufferable.appendBuf workerClient message
  match Protocol.readUint32 message with
  | none =>
      (none, { server with
        bufferable := (bufferable.needBuf workerClient message true).2 })
  | some (sessionId, rest) =>
      (some rest, { server with bufferable }.identify workerClient sessionId)

end Members

variable {m : Type → Type} [Monad m] (host : SessionHost τ m)

/-- `send_session_id`. -/
def sendSessionId (workerFd client : Fd) : m Bool := do
  match ← host.own fun server => (server.getSessionId client, server) with
  | none => return false
  | some sessionId =>
      let _ ← host.write workerFd (htonl sessionId)
      return true

/-- `total_size`, which counts itself and the session id. -/
def totalSize (count : Nat) : UInt32 := UInt32.ofNat (4 + count + 4)

/-- `write_global`. -/
def writeGlobal (sessionId : SessionId) (data : Bytes) : m Int := do
  match ← host.own fun server => (server.s2c[sessionId]?, server) with
  | some localClient => host.write localClient data
  | none =>
      let isChild ← host.own fun server => (server.isChild, server)
      if !isChild then return 0
      else
        let channel ← host.connectParent
        let _ ← host.write channel (htonl (totalSize data.length))
        let _ ← host.write channel (htonl sessionId)
        let _ ← host.write channel data
        return data.length

/-- `add_session_task`. -/
def addSessionTask (client : Fd) (task : τ) : m Bool := do
  let identified ← host.own fun server =>
    ((server.getSessionId client).isSome, server)
  if identified then
    host.task task client
    return true
  else
    host.own fun server =>
      (false, { server with
        sessionTasks := server.sessionTasks.insert client
          ((server.sessionTasks[client]?).getD [] ++ [task]) })

/-- The loop over the tasks of a client.  The iterator is invalid once a task
has made the server forget them. -/
def runTasks (client : Fd) : List τ → m Unit
  | [] => return ()
  | task :: tasks => do
      host.task task client
      let present ← host.own fun server =>
        (server.sessionTasks.contains client, server)
      if present then runTasks client tasks else host.exit

/-- The tasks of a client are run and forgotten. -/
def runSessionTasks (client : Fd) : m Unit := do
  match ← host.own fun server => (server.sessionTasks[client]?, server) with
  | none => return ()
  | some tasks => do
      runTasks host client tasks
      host.own fun server =>
        ((), { server with sessionTasks := server.sessionTasks.erase client })

/-- The callback of `initial_message_wrapper` around that of the protocol. -/
def initialMessageWrapper (r : Fd → Bytes → m Unit) (client : Fd)
    (message : Bytes) : m Unit := do
  let isChild ← host.own fun server => (server.isChild, server)
  if isChild then
    match ← host.own fun server => server.recvSessionId client message with
    | none => return ()
    | some message => do
        runSessionTasks host client
        host.watchRead client
        if message.length > 0 then r client message else return ()
  else
    host.watchRead client
    r client message

end ClientServer

end Universe
