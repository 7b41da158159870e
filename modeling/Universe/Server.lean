import Std.Data.ExtTreeMap
import Universe.Client
import Universe.Library.Stepwise
import Universe.WebSocket

/-!
# Servers and their protocols

A server accepts clients and makes connections for them.  Its protocol is told
about both, and writes to and closes what it likes.  A write to a connection
that is broken closes it, and the callbacks of `close` run within the callback
that has called `write`.  Descriptors are closed at the end of a batch of
events, and their numbers are given again.
-/

namespace Universe

open Std (ExtTreeMap)

/-- What a protocol of a server asks for.  `own` reaches the members of the
protocol, and `connect` is given the client its callbacks are for. -/
structure ServerHost (α : Type) (m : Type → Type) extends Host m where
  hasBuf : Fd → m Bool
  getBuf : Fd → m Bytes
  own : {β : Type} → (α → β × α) → m β
  connect : Address → Fd → m Fd
  /-- How often handlers were fired before. -/
  firing : m Nat

namespace ServerHost

variable {α : Type} {m : Type → Type} (host : ServerHost α m)

def modifyOwn (change : α → α) : m Unit :=
  host.own fun own => ((), change own)

/-- The states of the clients, where they are a member of the protocol. -/
def stateHost {State : Type} [Inhabited State] (get : α → Stateful State)
    (set : α → Stateful State → α) : StateHost State m where
  toHost := host.toHost
  getState id := host.own fun own => ((get own).getState id, own)
  setState id state := host.modifyOwn fun own =>
    set own ((get own).setState id state)
  eraseState id := host.modifyOwn fun own =>
    set own ((get own).eraseState id)

end ServerHost

/-- What the callbacks of a descriptor are for. -/
inductive Role where
  | client
  /-- Only `CONNECT`. -/
  | connecting (client : Fd)
  /-- None, while `CONNECT` is called. -/
  | bare
  | remote (client : Fd)
  deriving DecidableEq, Repr

/-- A call of `write`, and whether it gave `EPIPE`. -/
structure Writing where
  fd : Fd
  data : Bytes
  broken : Bool
  deriving DecidableEq, Repr

structure Server (α : Type) where
  /-- The members of the protocol. -/
  own : α
  bufferable : Bufferable := ∅
  /-- `_fds`. -/
  roles : ExtTreeMap Fd Role := ∅
  /-- What epoll reports. -/
  polled : List Fd := []
  /-- The descriptors the kernel has given to the process. -/
  opened : List Fd := []
  /-- `_close_fds`. -/
  released : List Fd := []
  written : List Writing := []
  fired : Nat := 0

namespace Server

variable {α η : Type}

/-- Why a callback does not return. -/
inductive Stop where
  /-- An error or exception that ends the process, or undefined behaviour. -/
  | exit
  /-- The callbacks nest deeper than allowed. -/
  | depth
  deriving DecidableEq, Repr

/-- What becomes of `connect` with an address, and the number of its socket. -/
inductive Attempt where
  | failing (fd : Fd)
  | pending (fd : Fd)
  | immediate (fd : Fd)
  deriving DecidableEq, Repr

def Attempt.fd : Attempt → Fd
  | .failing fd => fd
  | .pending fd => fd
  | .immediate fd => fd

/-- What is beyond the server while it deals with an event: its handlers, its
next connection, and which writes give `EPIPE`, by how many were before. -/
structure Surroundings (η : Type) where
  handler : η
  attempt : Option Attempt := none
  broken : Nat → Fd → Bool := fun _ _ => false

abbrev M (α : Type) := EStateM Stop (Server α)

/-- A protocol.  Those that make no connections are told about none. -/
structure Service (α η : Type) where
  start : α
  onConnect : η → ServerHost α (M α) → Fd → M α Unit
  onMessage : η → ServerHost α (M α) → Fd → Bytes → M α Unit
  onClose : ServerHost α (M α) → Fd → M α Unit
  onRemoteConnect : ServerHost α (M α) → Fd → ConnectResult → Fd → M α Unit :=
    fun _ _ _ _ => pure ()
  onRemoteMessage : ServerHost α (M α) → Fd → Bytes → Fd → M α Unit :=
    fun _ _ _ _ => pure ()
  onRemoteClose : ServerHost α (M α) → Fd → Fd → M α Unit :=
    fun _ _ _ => pure ()

def openFd (fd : Fd) (s : Server α) : Server α :=
  { s with opened := fd :: s.opened }

/-- `_add_close_fd`. -/
def release (fd : Fd) (s : Server α) : Server α :=
  { s with released := s.released ++ [fd] }

def setRole (fd : Fd) (role : Role) (s : Server α) : Server α :=
  { s with roles := s.roles.insert fd role }

/-- `watch`, which adds the descriptor to epoll unless it is in `_fds`. -/
def watch (fd : Fd) (role : Role) (reWatch : Bool) (s : Server α) : Server α :=
  { s with
    roles := s.roles.insert fd role
    polled := if s.roles.contains fd && !reWatch then s.polled
      else fd :: s.polled }

theorem roles_setRole (s : Server α) (fd other : Fd) (role : Role) :
    (s.setRole fd role).roles[other]? =
      if fd = other then some role else s.roles[other]? := by
  simp [setRole, ExtTreeMap.getElem?_insert]

theorem roles_watch (s : Server α) (fd other : Fd) (role : Role)
    (reWatch : Bool) :
    (s.watch fd role reWatch).roles[other]? =
      if fd = other then some role else s.roles[other]? := by
  simp [watch, ExtTreeMap.getElem?_insert]

/-- A descriptor leaves `_fds` and epoll. -/
def unregister (fd : Fd) (s : Server α) : Server α :=
  { s with
    roles := s.roles.erase fd
    polled := s.polled.filter (· ≠ fd) }

/-- `unwatch` of a descriptor in `_fds`, up to its callback.  It ends the
process when epoll does not have the descriptor. -/
def unwatch (fd : Fd) : M α Unit := do
  let s ← get
  if fd ∈ s.polled then modify (unregister fd) else throw .exit

variable (world : Surroundings η)

/-- `write`, which closes a descriptor that gives `EPIPE`. -/
def writing (close : Fd → M α Bool) (fd : Fd) (data : Bytes) : M α Int := do
  let s ← get
  let broken := decide (fd ∈ s.opened) && world.broken s.written.length fd
  modify fun s => { s with written := s.written ++ [⟨fd, data, broken⟩] }
  if broken then
    let _ ← close fd
    return -1
  else return data.length

def hostWith (close : Fd → M α Bool) (connect : Address → Fd → M α Fd) :
    ServerHost α (M α) where
  needBuf id message cond := modifyGet fun s =>
    let needed := s.bufferable.needBuf id message cond
    (needed.1, { s with bufferable := needed.2 })
  appendBuf id message := modifyGet fun s =>
    let appended := s.bufferable.appendBuf id message
    (appended.1, { s with bufferable := appended.2 })
  eraseBuf id := modify fun s =>
    { s with bufferable := s.bufferable.eraseBuf id }
  hasBuf id := modifyGet fun s => (s.bufferable.hasBuf id, s)
  getBuf id := modifyGet fun s =>
    let got := s.bufferable.getBuf id
    (got.1, { s with bufferable := got.2 })
  write := writing world close
  close := close
  exit := throw .exit
  own change := modifyGet fun s =>
    ((change s.own).1, { s with own := (change s.own).2 })
  connect := connect
  firing := modifyGet fun s => (s.fired, { s with fired := s.fired + 1 })

variable (service : Service α η)

/-- `EventManager::close`, up to this depth of callbacks that close again.  They
do not connect.  A connection that is being made is told `GAME_OVER`, and the
callback of `Client::connect` closes it by force. -/
def closing : (depth : Nat) → Fd → (force : Bool) → M α Bool
  | 0, fd, force => do
      let s ← get
      if s.roles.contains fd then throw .depth
      else if force then modify (release fd)
      return true
  | depth + 1, fd, force => do
      let host := hostWith world (closing depth · false) fun _ _ => throw .exit
      let s ← get
      match s.roles[fd]? with
      | none => do
          if force then modify (release fd)
          return true
      | some .client => do
          unwatch fd
          modify (release fd)
          service.onClose host fd
          return true
      | some (.connecting client) => do
          unwatch fd
          service.onRemoteConnect host fd .gameOver client
          let _ ← closing depth fd true
          modify (release fd)
          return true
      | some .bare => do
          unwatch fd
          modify (release fd)
          return true
      | some (.remote client) => do
          unwatch fd
          modify (release fd)
          service.onRemoteClose host fd client
          return true

/-- The host of callbacks that do not connect. -/
def quietHost (depth : Nat) : ServerHost α (M α) :=
  hostWith world (closing world service depth · false) fun _ _ => throw .exit

/-- The callback of `Client::connect` around that of the protocol. -/
def connected (depth : Nat) (fd : Fd) (r : ConnectResult) (client : Fd) :
    M α Unit := do
  service.onRemoteConnect (quietHost world service depth) fd r client
  if r = .ok then modify (watch fd (.remote client) false)
  else
    let _ ← closing world service depth fd true
    return ()

/-- `Client::connect` with an address, and the callbacks of the protocol for
this client. -/
def connecting (depth : Nat) (_ : Address) (client : Fd) : M α Fd := do
  match world.attempt with
  | none => throw .exit
  | some (.failing fd) => do
      modify (openFd fd)
      let s ← get
      if s.roles.contains fd then unwatch fd
      connected world service depth fd .ng client
      return -1
  | some (.immediate fd) => do
      modify (openFd fd)
      connected world service depth fd .ok client
      return fd
  | some (.pending fd) => do
      modify fun s => (s.openFd fd).watch fd (.connecting client) true
      return fd

/-- Every callback of `close` has one descriptor less to close. -/
def host (s : Server α) : ServerHost α (M α) :=
  hostWith world (closing world service s.roles.size · false)
    (connecting world service s.roles.size)

inductive Event (η : Type) where
  | accept (client : Fd) (world : Surroundings η)
  | message (client : Fd) (piece : Bytes) (world : Surroundings η)
  | clientClosed (client : Fd) (world : Surroundings η)
  | connected (remote : Fd) (world : Surroundings η)
  | connectFailed (remote : Fd) (world : Surroundings η)
  | remoteMessage (remote : Fd) (piece : Bytes) (world : Surroundings η)
  | remoteClosed (remote : Fd) (world : Surroundings η)
  /-- The end of a batch of events. -/
  | flush

/-- A number the kernel can give. -/
def Free (s : Server α) (fd : Fd) : Prop := 0 ≤ fd ∧ fd ∉ s.opened

/-- New sockets get numbers that are free. -/
def Usable (s : Server α) (world : Surroundings η) : Prop :=
  ∀ attempt, world.attempt = some attempt → s.Free attempt.fd

/-- Epoll reports a descriptor that has this role. -/
def Watches (s : Server α) (fd : Fd) (role : Role) : Prop :=
  s.roles[fd]? = some role ∧ fd ∈ s.polled

/-- The events that can come next. -/
def Allows (s : Server α) : Event η → Prop
  | .accept client world => s.Free client ∧ s.Usable world ∧
      ∀ attempt, world.attempt = some attempt → attempt.fd ≠ client
  | .message client _ world => s.Watches client .client ∧ s.Usable world
  | .clientClosed client _ => s.Watches client .client
  | .connected remote _ => ∃ client, s.Watches remote (.connecting client)
  | .connectFailed remote _ => ∃ client, s.Watches remote (.connecting client)
  | .remoteMessage remote _ world =>
      (∃ client, s.Watches remote (.remote client)) ∧ s.Usable world
  | .remoteClosed remote _ => ∃ client, s.Watches remote (.remote client)
  | .flush => True

/-- What the server does about an event. -/
def perform : Event η → M α Unit
  | .accept client world => do
      modify (openFd client)
      let s ← get
      service.onConnect world.handler (host world service s) client
      modify (watch client .client false)
  | .message client piece world => do
      let s ← get
      service.onMessage world.handler (host world service s) client piece
  | .clientClosed client world => do
      let s ← get
      let _ ← closing world service s.roles.size client false
      return ()
  | .connected remote world => do
      let s ← get
      match s.roles[remote]? with
      | some (.connecting client) => do
          modify (setRole remote .bare)
          Server.connected world service s.roles.size remote .ok client
      | _ => return ()
  | .connectFailed remote world => do
      let s ← get
      match s.roles[remote]? with
      | some (.connecting client) => do
          unwatch remote
          Server.connected world service s.roles.size remote .ng client
      | _ => return ()
  | .remoteMessage remote piece world => do
      let s ← get
      match s.roles[remote]? with
      | some (.remote client) =>
          service.onRemoteMessage (host world service s) remote piece client
      | _ => return ()
  | .remoteClosed remote world => do
      let s ← get
      let _ ← closing world service s.roles.size remote false
      return ()
  | .flush => modify fun s =>
      { s with
        opened := s.opened.filter fun fd => fd ∉ s.released
        polled := s.polled.filter fun fd => fd ∉ s.released
        released := [] }

/-- The states after any number of events, each of which met the condition
and returned. -/
inductive Reached (condition : Server α → Event η → Prop) : Server α → Prop where
  | start : Reached condition { own := service.start }
  | step {s after : Server α} {event : Event η}
      (earlier : Reached condition s) (allowed : s.Allows event)
      (meets : condition s event)
      (returned : perform service event s = .ok () after) :
      Reached condition after

end Server

end Universe
