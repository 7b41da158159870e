import Universe.Client

/-!
# The table of addresses

`C::Base` keeps the socket of every address it is connected to, and sends
commands on it.  It is a client among other code that uses the same event
manager: its connections end like all others, and their numbers come back.
-/

namespace Universe

open Std (ExtTreeMap)

namespace ClientBase

/-- An entry of `_addr2socket`: its socket, and what the source does not keep,
the connection that was made for the address. -/
structure Entry where
  socket : Fd
  conn : Option Conn := none
  /-- That of the `watch` call of `connect`. -/
  ticket : Nat := 0
  /-- The number came with an entry of `_fds`, or was about to be closed. -/
  stale : Bool := true
  /-- `C::Base::close` has been called for it. -/
  closing : Bool := false
  deriving DecidableEq, Repr

section Losses

variable {β : Type}

/-- What takes an entry its connection: the end of its registration, or other
callbacks on its socket. -/
def Entry.suffers (entry : Entry) : Event β → Bool
  | .ending _ _ (some stored) _ => stored.conn == entry.conn
  | .watched fd ticket _ _ => fd == entry.socket && decide (entry.ticket < ticket)
  | _ => false

/-- The entry was made for a number that was not free of its past, or it has
lost its connection. -/
def Entry.lost (entry : Entry) (history : List (Event β)) : Bool :=
  entry.stale || history.any entry.suffers

end Losses

/-- A packet that was written for an address: the connection it is meant for,
the one that has it, and whether the entry was on its way out or lost. -/
structure Packet where
  address : Address
  conn : Option Conn
  target : Option Conn
  excused : Bool
  deriving DecidableEq, Repr

/-- The members of `C::Base`, and the packets it has written. -/
structure State where
  autoReconnect : Bool
  addr2socket : ExtTreeMap Address Entry := ∅
  packets : List Packet := []

namespace State

def enter (address : Address) (entry : Entry) (s : State) : State :=
  { s with addr2socket := s.addr2socket.insert address entry }

def erase (address : Address) (s : State) : State :=
  { s with addr2socket := s.addr2socket.erase address }

def send (packet : Packet) (s : State) : State :=
  { s with packets := s.packets ++ [packet] }

def setAutoReconnect (autoReconnect : Bool) (s : State) : State :=
  { s with autoReconnect }

/-- `_addr2socket[address]`, which would make an entry where there is none. -/
def entryOf (address : Address) (s : State) : Entry :=
  (s.addr2socket[address]?).getD { socket := 0 }

end State

/-- The lambdas of `Client::to_callbacks`, and the callbacks of other code. -/
inductive Callback (κ : Type) where
  /-- `proto.on_message`. -/
  | message
  /-- `proto.on_close`. -/
  | closed
  | other (callback : κ)

/-- What is stored in the event manager. -/
abbrev Stored (κ : Type) := ClientCB (Callback κ)

section Methods

variable {κ : Type}

/-- `Client::to_callbacks`. -/
def toCallbacks : EventCB (Stored κ) :=
  (EventCB.empty.set .read (.user .message)).set .close (.user .closed)

/-- The entry for a socket that has just been connected. -/
def entryFor (w : World (Stored κ) State) (socket : Fd) : Entry where
  socket := socket
  conn := w.kernel.conns socket
  ticket := w.tickets
  stale := w.fds.contains socket || w.releasing socket

/-- What is written to the socket of an entry. -/
def packetFor (w : World (Stored κ) State) (address : Address)
    (entry : Entry) : Packet where
  address := address
  conn := entry.conn
  target := w.kernel.conns entry.socket
  excused := entry.closing || entry.lost w.history

variable (d : Dispatch (Stored κ) State)

/-- `C::Base::close`. -/
def close (connectAddr : Address) : EM (Stored κ) State Bool := do
  let w ← get
  match w.user.addr2socket[connectAddr]? with
  | none => return true
  | some entry =>
      modify (World.mapUser ·
        (State.enter connectAddr { entry with closing := true }))
      let closed ← EventManager.close d entry.socket true
      if closed then
        modify (World.mapUser · (State.erase connectAddr))
        return true
      else return false

/-- The part of `C::Base::connect` that makes a connection.  A number that is
not positive is taken for a failure. -/
def establish (connectAddr : Address) : EM (Stored κ) State Bool := do
  let socket ← Client.dial
  if 0 < socket then
    let w ← get
    let _ ← modifyGet (World.watch · socket toCallbacks)
    modify (World.mapUser · (State.enter connectAddr (entryFor w socket)))
    return true
  else return false

/-- `C::Base::connect`. -/
def connect (connectAddr : Address) (reConnect : Bool) :
    EM (Stored κ) State Bool := do
  if reConnect then
    let _ ← close d connectAddr
    establish connectAddr
  else
    let w ← get
    if w.user.addr2socket.contains connectAddr then return true
    else establish connectAddr

/-- `cmd_addr` from `WRITE` to the answer of `write`: whether it took the
whole packet. -/
def send (address : Address) (packet : Bytes) : EM (Stored κ) State Bool := do
  let w ← get
  let entry := w.user.entryOf address
  modify (World.mapUser · (State.send (packetFor w address entry)))
  let bytes ← EventManager.write d entry.socket packet
  return decide (bytes = packet.length)

/-- `cmd_addr` with a packet for its request. -/
def cmdAddr (address : Address) (packet : Bytes) :
    EM (Stored κ) State Bool := do
  let connected ← connect d address false
  if connected then
    let sent ← send d address packet
    let w ← get
    if sent then return true
    else if w.user.autoReconnect then
      let reconnected ← connect d address true
      if reconnected then send d address packet
      else return false
    else return false
  else return false

end Methods

/-- What other code calls: it leaves `unwatch` to the event manager, and the
members of `C::Base` alone. -/
def IsPlain {κ : Type} : Op κ State → Prop
  | .unwatch _ _ => False
  | .user _ => False
  | _ => True

/-- The operations of `C::Base`, and those of the code around it. -/
inductive BaseOp (κ : Type) where
  | connect (connectAddr : Address) (reConnect : Bool)
  | close (connectAddr : Address)
  | cmdAddr (address : Address) (packet : Bytes)
  | setAutoReconnect (autoReconnect : Bool)
  | manager (op : Op κ State) (plain : IsPlain op)

/-- Any code that uses a `C::Base`. -/
abbrev BaseProgram (κ : Type) :=
  Stepwise.Script (BaseOp κ) Int (World (Stored κ) State)

section Programs

variable {κ : Type}

def perform (d : Dispatch (Stored κ) State) :
    BaseOp κ → EM (Stored κ) State Int
  | .connect connectAddr reConnect => do
      let connected ← connect d connectAddr reConnect
      return connected.toInt
  | .close connectAddr => do
      let closed ← close d connectAddr
      return closed.toInt
  | .cmdAddr address packet => do
      let sent ← cmdAddr d address packet
      return sent.toInt
  | .setAutoReconnect autoReconnect => do
      modify (World.mapUser · (State.setAutoReconnect autoReconnect))
      return 0
  | .manager op _ =>
      EventManager.perform d (op.map fun callback => .user (.other callback))

/-- A protocol with any callbacks, among other code with its own. -/
def app (body : Callback κ → Fd → Arg → World (Stored κ) State → BaseProgram κ)
    (wantMessage : κ → Bool) : App (Stored κ) State :=
  { code := fun d callback fd arg =>
      match callback with
      | .user callback => do
          let w ← get
          (body callback fd arg w).run .exit (perform d)
      | _ => throw .exit
    wantMessage := fun
      | .user .message => true
      | .user (.other callback) => wantMessage callback
      | _ => false
    unwatched := fun _ s => s }

end Programs

/-- A run of `program` on a fresh event manager, under callbacks with the given
bodies that nest at most `depth` deep. -/
structure Run (κ : Type) where
  body : Callback κ → Fd → Arg → World (Stored κ) State → BaseProgram κ
  wantMessage : κ → Bool
  depth : Nat
  program : BaseProgram κ
  autoReconnect : Bool
  answers : Answers

namespace Run

variable {κ : Type} (run : Run κ)

@[irreducible] def result :
    EStateM.Result Stop (World (Stored κ) State) Unit :=
  run.program.run .exit
    (perform ((app run.body run.wantMessage).dispatch run.depth))
    (World.init { autoReconnect := run.autoReconnect } run.answers)

/-- The state in which the run ended. -/
def last : World (Stored κ) State := Stepwise.final run.result

end Run

end ClientBase

end Universe
