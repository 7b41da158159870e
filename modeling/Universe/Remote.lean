import Universe.ClientServer
import Universe.Proxy

/-!
# The proxy in front of workers

`Remote` is a proxy whose remotes are workers.  It tells a worker the session
id of a client before it passes on anything of it.
-/

namespace Universe

open Std (ExtTreeMap)

namespace Remote

open ITunnelLike ClientServer

section Protocol

variable {m : Type → Type} [Monad m] (host : ServerHost Tunnels m)
  (sessions : SessionHost Fd m)

/-- `on_connect`, as that of `Proxy`. -/
def onConnect (remoteAddressList : List Address) (client : Fd) : m Unit :=
  Proxy.onConnect host remoteAddressList client

/-- The task of `on_remote_connect` for this remote. -/
def onSession (remote client : Fd) : m Unit := do
  let _ ← sendSessionId sessions remote client
  (states host).setState client .connected
  let buffered ← host.hasBuf client
  if buffered then
    let message ← host.getBuf client
    onMessage host client message
  else return ()

/-- `on_remote_connect`.  A task is named by its remote. -/
def onRemoteConnect (remote : Fd) (r : ConnectResult) (client : Fd) :
    m Unit := do
  if r = .ok then
    let _ ← addSessionTask sessions client remote
    return ()
  else
    eraseClientInfo host client
    let _ ← host.close client
    return ()

end Protocol

/-- A master that runs `Remote`. -/
structure Master where
  own : Tunnels := {}
  /-- The buffers of the protocol. -/
  bufferable : Bufferable := ∅
  server : ClientServer Fd := {}
  written : List (Fd × Bytes) := []

abbrev M := EStateM Unit Master

/-- What becomes of a connect that does not fail. -/
inductive Success where
  | pending (remote : Fd)
  | immediate (remote : Fd)
  deriving DecidableEq, Repr

/-- What `Remote` asks of a master in a callback that does not connect. -/
def host : ServerHost Tunnels M where
  needBuf id message cond := modifyGet fun s =>
    let needed := s.bufferable.needBuf id message cond
    (needed.1, { s with bufferable := needed.2 })
  appendBuf id message := modifyGet fun s =>
    let appended := s.bufferable.appendBuf id message
    (appended.1, { s with bufferable := appended.2 })
  eraseBuf id := modify fun s =>
    { s with bufferable := s.bufferable.eraseBuf id }
  hasBuf id := modifyGet fun s => (s.bufferable.hasBuf id, s)
  getBuf id := modifyGet fun s =>
    let got := s.bufferable.getBuf id
    (got.1, { s with bufferable := got.2 })
  write fd data := modifyGet fun s =>
    (data.length, { s with written := s.written ++ [(fd, data)] })
  close _ := pure true
  exit := throw ()
  own change := modifyGet fun s =>
    ((change s.own).1, { s with own := (change s.own).2 })
  connect _ _ := throw ()
  firing := pure 0

/-- The sessions within a task, which calls no other one. -/
def taskHost : SessionHost Fd M where
  own change := modifyGet fun s =>
    ((change s.server).1, { s with server := (change s.server).2 })
  write fd data := modifyGet fun s =>
    (data.length, { s with written := s.written ++ [(fd, data)] })
  connectParent := throw ()
  watchRead _ := pure ()
  task _ _ := throw ()
  exit := throw ()

def sessions : SessionHost Fd M :=
  { taskHost with task := onSession host taskHost }

/-- `Client::connect` to a worker that listens. -/
def connecting (success : Success) (_ : Address) (client : Fd) : M Fd :=
  match success with
  | .pending remote => return remote
  | .immediate remote => do
      onRemoteConnect host sessions remote .ok client
      return remote

/-- A client is accepted, up to `watch`. -/
def accept (remoteAddressList : List Address) (success : Success)
    (client : Fd) : M Unit := do
  modify fun s => { s with server := s.server.accept client }
  onConnect { host with connect := connecting success } remoteAddressList client

/-- The first message of a client, or any later one. -/
def deliver (initial : Bool) (client : Fd) (piece : Bytes) : M Unit :=
  if initial then
    initialMessageWrapper sessions (onMessage host) client piece
  else onMessage host client piece

/-- The connection that was pending is made. -/
def connected (remote client : Fd) : M Unit :=
  onRemoteConnect host sessions remote .ok client

end Remote

/-- A task of a session, and whether it unwatches its client. -/
structure SessionTask where
  name : Nat
  unwatches : Bool
  deriving DecidableEq, Repr

namespace Worker

/-- What the protocol of a worker is handed, with the session id its client has
and the client that session id has. -/
structure Handed where
  sessionId : Option SessionId
  owner : Option Fd
  message : Bytes
  deriving DecidableEq, Repr

end Worker

/-- A worker, one client of it, and what was done. -/
structure Worker where
  server : ClientServer SessionTask
  /-- `READ` is that of the protocol. -/
  reads : Bool := false
  ran : List SessionTask := []
  handed : List Worker.Handed := []

namespace Worker

open ClientServer

abbrev M := EStateM Unit Worker

def host : SessionHost SessionTask M where
  own change := modifyGet fun s =>
    ((change s.server).1, { s with server := (change s.server).2 })
  write _ data := pure data.length
  connectParent := throw ()
  watchRead _ := modify fun s => { s with reads := true }
  task task client := modify fun s =>
    { s with
      ran := s.ran ++ [task]
      server := if task.unwatches then s.server.unwatch client else s.server }
  exit := throw ()

/-- `on_message` of the protocol. -/
def hand (client : Fd) (message : Bytes) : M Unit := modify fun s =>
  let sessionId := s.server.getSessionId client
  { s with handed := s.handed ++
      [⟨sessionId, sessionId.bind (s.server.s2c[·]?), message⟩] }

/-- What comes to a client of a worker. -/
inductive Input where
  | piece (bytes : Bytes)
  | task (task : SessionTask)
  deriving DecidableEq, Repr

/-- A delivery goes to the callback of `READ`. -/
def take (client : Fd) : Input → M Unit
  | .piece bytes => do
      let s ← get
      if s.reads then hand client bytes
      else initialMessageWrapper host hand client bytes
  | .task task => do
      let _ ← addSessionTask host client task
      return ()

def run (client : Fd) : List Input → M Unit
  | [] => return ()
  | input :: inputs => do
      take client input
      run client inputs

end Worker

end Universe
