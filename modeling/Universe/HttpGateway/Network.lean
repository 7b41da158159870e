import Universe.HttpGateway.Environment

/-!
# The gateway and the descriptors of its server

The server registers callbacks for its clients and for the connections to
providers, closes descriptors at the end of a batch of events, and may get
their numbers again for other connections.  Connections can fail early or
late, and a write can fail because the other end is gone.
-/

namespace Universe

open Incremental
open Std (ExtTreeMap)

namespace HttpGateway

/-- What is beyond the gateway while it deals with an event: its next
connection, the descriptors that give `EPIPE`, and what its handlers do.  They
do not give a request to another client. -/
structure Surroundings where
  attempt : Attempt := .unresolved
  broken : List Fd := []
  onRequestUri : HttpRequest → HttpRequest × HttpProviderAddress × Bool :=
    fun r => (r, default, true)
  onResponse : HttpRequest → HttpResponse → HttpRequest × HttpResponse :=
    fun r response => (r, response)
  requestClient : ∀ r, (onRequestUri r).1.client = r.client := by
    intro r
    rfl
  responseClient : ∀ r response,
      (onResponse r response).1.client = r.client := by
    intro r response
    rfl

structure Network extends Kept where
  roles : ExtTreeMap Fd Role := ∅
  /-- The descriptors the kernel has given to the process. -/
  opened : List Fd := []
  /-- `_close_fds`. -/
  released : List Fd := []

/-- Why a callback does not return. -/
inductive Stop where
  /-- An exception that nobody catches, or undefined behaviour. -/
  | exit
  /-- The callbacks nest deeper than allowed. -/
  | depth
  deriving DecidableEq, Repr

namespace Network

abbrev M := EStateM Stop Network

def setRole (fd : Fd) (role : Role) (s : Network) : Network :=
  { s with roles := s.roles.insert fd role }

theorem roles_setRole (s : Network) (fd other : Fd) (role : Role) :
    (s.setRole fd role).roles[other]? =
      if fd = other then some role else s.roles[other]? := by
  simp [setRole, ExtTreeMap.getElem?_insert]

def dropRole (fd : Fd) (s : Network) : Network :=
  { s with roles := s.roles.erase fd }

/-- `_add_close_fd`. -/
def release (fd : Fd) (s : Network) : Network :=
  { s with released := s.released ++ [fd] }

def openFd (fd : Fd) (s : Network) : Network :=
  { s with opened := fd :: s.opened }

variable (world : Surroundings)

/-- `write`, which closes a descriptor that gives `EPIPE`. -/
def writing (close : Fd → M Bool) (fd : Fd) (data : Bytes) : M Int := do
  if fd ∈ world.broken then
    let _ ← close fd
    return -1
  else return data.length

/-- What is closed gives its number back at the end of a batch. -/
def environment : Environment Stop Network where
  kept s := s.toKept
  keep held s := { s with toKept := held }
  roleOf s fd := s.roles[fd]?
  openFd := openFd
  register := setRole
  unregister fd _ := dropRole fd
  release := release
  attempt _ := world.attempt
  write := writing world
  fireRequestUri r := pure (world.onRequestUri r)
  fireResponse r response := pure (world.onResponse r response)
  exit := .exit
  depth := .depth
  kept_keep _ _ := rfl
  keep_keep _ _ _ := rfl
  keep_kept _ := rfl

abbrev hostWith (close : Fd → M Bool) (connect : HttpProviderAddress → Fd → M Fd) :
    Host M :=
  (environment world).host close connect

abbrev quietHost (close : Fd → M Bool) : Host M :=
  (environment world).quietHost close

abbrev closing (depth : Nat) : Fd → M Bool := (environment world).closing depth

abbrev connecting (depth : Nat) : HttpProviderAddress → Fd → M Fd :=
  (environment world).connecting (closing world depth)

/-- Every callback of `close` has one descriptor less to close. -/
def host (s : Network) : Host M :=
  hostWith world (closing world s.roles.size) (connecting world s.roles.size)

inductive Event where
  | accept (client : Fd)
  | message (client : Fd) (piece : Bytes) (world : Surroundings)
  | clientClosed (client : Fd) (world : Surroundings)
  | connected (remoteFd : Fd) (world : Surroundings)
  /-- The last address has failed. -/
  | connectFailed (remoteFd : Fd) (world : Surroundings)
  | remoteMessage (remoteFd : Fd) (piece : Bytes) (world : Surroundings)
  | remoteClosed (remoteFd : Fd) (world : Surroundings)
  /-- The end of a batch of events. -/
  | flush

/-- A number the kernel can give. -/
def Free (s : Network) (fd : Fd) : Prop := 0 ≤ fd ∧ fd ∉ s.opened

/-- New sockets get numbers that are free. -/
def Usable (s : Network) (world : Surroundings) : Prop :=
  ∀ fd, world.attempt.fd? = some fd → s.Free fd

/-- The events that can come next. -/
def Allows (s : Network) : Event → Prop
  | .accept client => s.Free client
  | .message client _ world =>
      s.roles[client]? = some .client ∧ s.Usable world
  | .clientClosed client _ => s.roles[client]? = some .client
  | .connected remoteFd _ =>
      ∃ client, s.roles[remoteFd]? = some (.connecting client)
  | .connectFailed remoteFd _ =>
      ∃ client, s.roles[remoteFd]? = some (.connecting client)
  | .remoteMessage remoteFd _ world =>
      (∃ client, s.roles[remoteFd]? = some (.remote client)) ∧ s.Usable world
  | .remoteClosed remoteFd _ =>
      ∃ client, s.roles[remoteFd]? = some (.remote client)
  | .flush => True

/-- What the event manager does about an event. -/
def perform : Event → M Unit
  | .accept client => do
      modify fun s => (s.openFd client).setRole client .client
      let s ← get
      onConnect (host {} s) client
  | .message client piece world => do
      let s ← get
      onMessage (host world s) client piece
  | .clientClosed client world => do
      let s ← get
      let _ ← closing world s.roles.size client
      return ()
  | .connected remoteFd world => do
      let s ← get
      match s.roles[remoteFd]? with
      | some (.connecting client) => do
          modify (setRole remoteFd .bare)
          onRemoteConnect (host world s) remoteFd .ok client
          modify (setRole remoteFd (.remote client))
      | _ => return ()
  | .connectFailed remoteFd world => do
      let s ← get
      match s.roles[remoteFd]? with
      | some (.connecting client) => do
          modify (dropRole remoteFd)
          onRemoteConnect (host world s) remoteFd .ng client
          modify (release remoteFd)
      | _ => return ()
  | .remoteMessage remoteFd piece world => do
      let s ← get
      match s.roles[remoteFd]? with
      | some (.remote client) =>
          onRemoteMessage (host world s) remoteFd piece client
      | _ => return ()
  | .remoteClosed remoteFd world => do
      let s ← get
      let _ ← closing world s.roles.size remoteFd
      return ()
  | .flush => modify fun s =>
      { s with
        opened := s.opened.filter fun fd => fd ∉ s.released
        released := [] }

/-- The states after any number of events, each of which met the condition
and returned. -/
inductive Reached (condition : Network → Event → Prop) : Network → Prop where
  | start : Reached condition {}
  | step {s after : Network} {event : Event} (earlier : Reached condition s)
      (allowed : s.Allows event) (meets : condition s event)
      (returned : perform event s = .ok () after) : Reached condition after

end Network

end HttpGateway

end Universe
