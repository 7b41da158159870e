import Universe.Protocol.Delivery
import Universe.Redis.Decoding

/-!
# Sessions with a Redis server

Commands are issued on one connection, from outside and by the callbacks of
replies.  The server answers them in their order, and the bytes of its replies
arrive in any pieces.
-/

namespace Universe

open Incremental Protocol

/-- What can be seen of a connection to a Redis server. -/
inductive RedisReaction (κ : Type) where
  | called (callback : κ) (reply : RedisReply)
  | packetOk (requestId : GUID)
  | logged (text : Bytes)
  | wrote (fd : Fd) (data : Bytes)
  | closed (fd : Fd)
  deriving DecidableEq

/-- `add_callback`, where there is a callback. -/
def RedisCallbacks.register {κ : Type} (callbacks : RedisCallbacks κ)
    (requestId : GUID) (fd : Fd) : Option κ → RedisCallbacks κ
  | none => callbacks
  | some callback => callbacks.addCallback requestId fd callback

namespace Redis

variable {κ : Type}

/-- A command that is given to the connection, with as many bytes as the
kernel takes of it at once.  `C::Base::cmd` checks that it was all of them;
`write` and then `add_callback` does not. -/
structure Call (κ : Type) where
  requestId : GUID
  packet : Bytes
  callback : Option κ
  takes : Nat
  checked : Bool

/-- A command that was written or waits to be, with the callback that was added
for it, and how many replies had been dealt with. -/
structure Issued (κ : Type) where
  requestId : GUID
  packet : Bytes
  callback : Option κ
  dealt : Nat

/-- What is kept for a connection. -/
structure Memory (κ : Type) where
  callbacks : RedisCallbacks κ
  /-- `_write_buf`, where an entry is never empty. -/
  writeBuf : Bytes := []
  /-- The bytes the kernel took. -/
  wire : Bytes := []
  issued : List (Issued κ) := []

namespace Memory

/-- `EventManager::write`. -/
def write (m : Memory κ) (data : Bytes) (takes : Nat) : Nat × Memory κ :=
  if m.writeBuf.isEmpty then
    (min takes data.length,
      { m with wire := m.wire ++ data.take takes, writeBuf := data.drop takes })
  else (0, { m with writeBuf := m.writeBuf ++ data })

/-- The callback that is added for a command.  `cmd_addr` returns false when
not all of the packet was written, and it stays in the buffer. -/
def added (m : Memory κ) (call : Call κ) : Option κ :=
  let bytes := (m.write call.packet call.takes).1
  if call.checked ∧ bytes ≠ call.packet.length then none else call.callback

/-- A command is issued: `cmd_addr` on a connection that is there and is not
made again, or `write` and then `add_callback`. -/
def issue (m : Memory κ) (client : Fd) (dealt : Nat) (call : Call κ) :
    Memory κ :=
  let written := (m.write call.packet call.takes).2
  let callback := m.added call
  { written with
    callbacks := m.callbacks.register call.requestId client callback
    issued := m.issued ++ [⟨call.requestId, call.packet, callback, dealt⟩] }

end Memory

abbrev Connection (κ : Type) := Protocol.Connection (RedisReaction κ) (Memory κ)

/-- How many replies were dealt with. -/
def dealt (trace : List (RedisReaction κ)) : Nat :=
  trace.countP fun
    | .called _ _ => true
    | .logged _ => true
    | _ => false

/-- What a callback does: the commands it issues, by what was seen so far. -/
abbrev Program (κ : Type) :=
  List (RedisReaction κ) → κ → RedisReply → List (Call κ)

section Connections

variable (program : Program κ) (client : Fd)

def issue (s : Connection κ) (call : Call κ) : Connection κ :=
  { s with own := s.own.issue client (dealt s.trace) call }

def traits : Traits (RedisReaction κ) (Memory κ) where
  wrote := .wrote
  closed := .closed
  forget memory := { memory with callbacks := memory.callbacks.erase client }

/-- A callback was called, and issued its commands. -/
def called (callback : κ) (r : RedisReply) (s : Connection κ) : Connection κ :=
  let s := s.record (.called callback r)
  (program s.trace callback r).foldl (issue client) s

def host : Host κ (Connection.M (RedisReaction κ) (Memory κ)) where
  toHost := Connection.host (traits client) client
  callbacks change := modifyGet fun s =>
    let changed := change s.own.callbacks
    (changed.1, { s with own := { s.own with callbacks := changed.2 } })
  call callback r := modify (called program client callback r)
  firePacketOk requestId := modify (·.record (.packetOk requestId))
  errorLog text := modify (·.record (.logged text))

/-- One delivery on a connection that is open. -/
def deliver (maxSize : Nat) (s : Connection κ) (piece : Bytes) : Connection κ :=
  Connection.deliver (onMessage (host program client) maxSize client) s piece

end Connections

/-- A connection, the replies of the server and those of their bytes that are
on the way. -/
structure Session (κ : Type) where
  connection : Connection κ
  answers : List Resp
  stream : Bytes

inductive Event (κ : Type) where
  | issue (call : Call κ)
  | flush (takes : Nat)
  | answer (reply : Resp)
  | deliver (size : Nat)

/-- The commands of a session. -/
abbrev Session.issued (s : Session κ) : List (Issued κ) :=
  s.connection.own.issued

/-- The commands that have a number in a session have arrived at the server. -/
def Session.Arrived (s : Session κ) (count : Nat) : Prop :=
  count ≤ s.issued.length ∧
    (s.issued.take count).flatMap Issued.packet <+: s.connection.own.wire

/-- The server answers a command that it has got whole. -/
def Possible (maxSize : Nat) (s : Session κ) : Event κ → Prop
  | .issue _ => s.connection.status = .opened
  | .flush _ => True
  | .answer reply => reply.Valid maxSize ∧ s.Arrived (s.answers.length + 1)
  | .deliver _ => True

/-- One step. -/
def next (maxSize : Nat) (program : Program κ) (client : Fd) (s : Session κ) :
    Event κ → Session κ
  | .issue call => { s with connection := issue client s.connection call }
  | .flush takes =>
      { s with connection := { s.connection with own := { s.connection.own with
        wire := s.connection.own.wire ++ s.connection.own.writeBuf.take takes
        writeBuf := s.connection.own.writeBuf.drop takes } } }
  | .answer reply =>
      { s with
        answers := s.answers ++ [reply]
        stream := s.stream ++ reply.encode }
  | .deliver size =>
      { s with
        connection :=
          deliver program client maxSize s.connection (s.stream.take size)
        stream := s.stream.drop size }

/-- The connection has just been made. -/
def started (others : RedisCallbacks κ) : Session κ where
  connection :=
    { trace := []
      status := .opened
      own := { callbacks := others }
      bufferable := ∅ }
  answers := []
  stream := []

section Runs

variable (maxSize : Nat) (program : Program κ) (client : Fd)
  (allowed : Session κ → Event κ → Session κ → Prop)

/-- What a session has come to in steps that are all allowed. -/
def Reached : Session κ → Session κ → Prop :=
  Relation.ReflTransGen fun before after => ∃ event,
    Possible maxSize before event ∧
    next maxSize program client before event = after ∧
    allowed before event after

/-- All of these steps are possible and allowed. -/
def Admits : Session κ → List (Event κ) → Prop
  | _, [] => True
  | s, event :: events =>
      Possible maxSize s event ∧
      allowed s event (next maxSize program client s event) ∧
      Admits (next maxSize program client s event) events

variable {maxSize program client allowed}

theorem reached_of_admits {s : Session κ} {events : List (Event κ)}
    (admits : Admits maxSize program client allowed s events) :
    Reached maxSize program client allowed s
      (events.foldl (next maxSize program client) s) := by
  induction events generalizing s with
  | nil => exact .refl
  | cons event events induction =>
      obtain ⟨possible, isAllowed, later⟩ := admits
      exact .head ⟨event, possible, rfl, isAllowed⟩ (induction later)

end Runs

end Redis

end Universe
