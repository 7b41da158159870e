import Universe.Server

/-!
# A server for SOCKS 5

`Socks` answers a greeting, reads the name of a host and a port in a request,
and passes on what comes from the client and from the host once it is connected
to it.  The name is resolved, and one address after the other is tried.
-/

namespace Universe

open Std (ExtTreeMap)

inductive SocksState where
  | greeting
  | request
  | connecting
  | connected
  deriving DecidableEq, Inhabited, Repr

/-- The members of `Socks`. -/
structure Relays where
  stateful : Stateful SocksState := ∅
  url : ExtTreeMap Fd Bytes := ∅
  c2r : ExtTreeMap Fd Fd := ∅
  r2c : ExtTreeMap Fd Fd := ∅
  /-- What the callbacks of a descriptor that is being connected have captured:
  the port, and how many addresses are left. -/
  captured : ExtTreeMap Fd (UInt16 × Nat) := ∅

namespace Relays

def capture (fd : Fd) (port : UInt16) (left : Nat) (relays : Relays) : Relays :=
  { relays with captured := relays.captured.insert fd (port, left) }

/-- What is set after `connect`, but for the state. -/
def pair (client remote : Fd) (address : Bytes) (relays : Relays) : Relays :=
  { relays with
    url := relays.url.insert client address
    c2r := relays.c2r.insert client remote
    r2c := relays.r2c.insert remote client }

/-- `_c2r[client]`, which makes an entry when there is none. -/
def remoteOf (client : Fd) (relays : Relays) : Fd × Relays :=
  match relays.c2r[client]? with
  | some remote => (remote, relays)
  | none => (0, { relays with c2r := relays.c2r.insert client 0 })

def eraseUrl (client : Fd) (relays : Relays) : Relays :=
  { relays with url := relays.url.erase client }

def unpair (client remote : Fd) (relays : Relays) : Relays :=
  { relays with
    c2r := relays.c2r.erase client
    r2c := relays.r2c.erase remote }

/-- The port in what was captured. -/
def port (fd : Fd) (relays : Relays) : UInt16 :=
  ((relays.captured[fd]?).getD (0, 0)).1

end Relays

/-- What `getaddrinfo` gives for the name of a host, no address when it fails,
and what becomes of the attempts: the number of the socket, and the status of
`::connect` with an address that has so many behind it. -/
structure Resolution where
  addresses : Nat := 0
  socket : Fd := 0
  status : Nat → ConnectStatus := fun _ => .failed

namespace Socks

/-- The outcome of `connect`, with so many addresses left, as far as it is known
when it returns. -/
def settles (status : Nat → ConnectStatus) : Nat → ConnectStatus
  | 0 => .failed
  | left + 1 =>
      match status left with
      | .failed => settles status left
      | outcome => outcome

/-- A signed `char`. -/
def char (byte : UInt8) : Int := byte.toInt8.toInt

/-- An `int` that is cast to `size_t`. -/
def toSize (value : Int) : Nat := (value % 2 ^ 64).toNat

/-- `message[index]`. -/
def byteAt (message : Bytes) (index : Nat) : UInt8 := message.getD index 0

/-- The length that a request announces, for the name of a host. -/
def nameLength (message : Bytes) : Nat :=
  toSize (4 + 2 + 1 + char (byteAt message 4))

/-- `ntohs` of the last two bytes. -/
def portAt (message : Bytes) (index : Nat) : UInt16 :=
  ((byteAt message index).toUInt16 <<< 8) |||
    (byteAt message (index + 1)).toUInt16

/-- The answer to a request. -/
def response (address : Bytes) (port : UInt16) : Bytes :=
  5 :: 0 :: 0 :: 3 :: address.length.toUInt8 ::
    (address ++ [port.toUInt8, (port >>> 8).toUInt8])

section Protocol

variable {m : Type → Type} [Monad m] (host : ServerHost Relays m)

def states : StateHost SocksState m :=
  host.stateHost (·.stateful) fun relays stateful => { relays with stateful }

/-- `close`. -/
def close (client : Fd) : m Unit := do
  let _ ← host.close client
  return ()

/-- `send_peer`. -/
def sendPeer (peer : Fd) (message : Bytes) : m Unit := do
  let _ ← host.write peer message
  return ()

/-- `erase_state_buffer`. -/
def eraseStateBuffer (fd : Fd) : m Unit := do
  (states host).eraseState fd
  host.eraseBuf fd

/-- `on_connect`. -/
def onConnect (client : Fd) : m Unit :=
  (states host).setState client .greeting

/-- The callback of `connect`. -/
def onRemoteConnect (port : UInt16) (r : ConnectResult) (client : Fd) :
    m Unit := do
  let address ← host.own fun relays =>
    ((relays.url[client]?).getD [], relays)
  if r = .ok then
    (states host).setState client .connected
    sendPeer host client (response address port)
  else close host client

/-- The branch `GREETING` of `on_message`.  What follows the methods is
dropped. -/
def greet (client : Fd) (message : Bytes) : m Unit := do
  let short ← host.needBuf client message (message.length < 2)
  if short then return ()
  else if byteAt message 0 ≠ 5 then close host client
  else
    let methods := char (byteAt message 1)
    let short ← host.needBuf client message
      (message.length < toSize (2 + methods))
    if short then return ()
    else if ((message.drop 2).take methods.toNat).contains 0 then
      sendPeer host client [5, 0]
      (states host).setState client .request
    else close host client

/-- The case of a host's name in the branch `REQUEST`. -/
def ask (connect : Bytes → UInt16 → Fd → m Fd) (again : Fd → Bytes → m Unit)
    (client : Fd) (message : Bytes) : m Unit := do
  let length := nameLength message
  let port := portAt message (length - 2)
  let address := (message.drop 5).take (toSize (char (byteAt message 4)))
  let remote ← connect address port client
  if remote = -1 then close host client
  else
    host.modifyOwn (Relays.pair client remote address)
    (states host).setState client .connecting
    if length < message.length then again client (message.drop length)
    else return ()

/-- The branch `REQUEST` of `on_message`. -/
def request (connect : Bytes → UInt16 → Fd → m Fd)
    (again : Fd → Bytes → m Unit) (client : Fd) (message : Bytes) :
    m Unit := do
  let short ← host.needBuf client message (message.length < 5)
  if short then return ()
  else if byteAt message 1 ≠ 1 then close host client
  else
    let kind := byteAt message 3
    if kind = 1 ∨ kind = 4 then
      let length := if kind = 1 then 4 + 2 + 4 else 4 + 2 + 16
      let short ← host.needBuf client message (message.length < length)
      if short then return () else close host client
    else if kind = 3 then
      let length := nameLength message
      let short ← host.needBuf client message (message.length < length)
      if short then return ()
      -- `substr` throws when it begins behind the end.
      else if length < 2 then host.exit
      else ask host connect again client message
    else close host client

/-- `on_message`, up to this depth of calls of itself. -/
def onMessageAt (connect : Bytes → UInt16 → Fd → m Fd) :
    (depth : Nat) → Fd → Bytes → m Unit
  | 0, _, _ => host.exit
  | depth + 1, client, message => do
      let message ← host.appendBuf client message
      let state ← (states host).getState client
      match state with
      | .greeting => greet host client message
      | .request =>
          request host connect (onMessageAt connect depth) client message
      | .connecting => close host client
      | .connected => do
          let remote ← host.own (Relays.remoteOf client)
          sendPeer host remote message

/-- `on_message`.  It calls itself in `CONNECTING` only. -/
def onMessage (connect : Bytes → UInt16 → Fd → m Fd) (client : Fd)
    (message : Bytes) : m Unit :=
  onMessageAt host connect 2 client message

/-- `on_close`. -/
def onClose (client : Fd) : m Unit := do
  let hasState ← host.own fun relays =>
    (relays.stateful.contains client, relays)
  if hasState then
    eraseStateBuffer host client
    host.modifyOwn (Relays.eraseUrl client)
    let paired ← host.own fun relays => (relays.c2r[client]?, relays)
    match paired with
    | none => return ()
    | some remote =>
        host.modifyOwn (Relays.unpair client remote)
        close host remote
  else return ()

end Protocol

open Server

variable (resolution : Resolution) (host : ServerHost Relays (M Relays))

/-- `close` by force. -/
def forceClose (fd : Fd) : M Relays Unit := do
  let s ← get
  if s.roles.contains fd then close host fd
  else modify (release fd)

/-- The callback of `Client::connect` when an address has failed, with so many
addresses left, and its calls of `connect` with the next one. -/
def tryNext (port : UInt16) (fd client : Fd) : (left : Nat) → M Relays Unit
  | 0 => do
      onRemoteConnect host port .ng client
      forceClose host fd
  | left + 1 => do
      match resolution.status left with
      | .failed => do
          let s ← get
          if s.roles.contains fd then unwatch fd
          tryNext port fd client left
      | .connected => do
          onRemoteConnect host port .ok client
          modify (watch fd (.remote client) false)
      | .inProgress => do
          host.modifyOwn (Relays.capture fd port left)
          modify (watch fd (.connecting client) true)

/-- `Client::connect` with the name of a host, and the callbacks of the protocol
for this client. -/
def connect (_ : Bytes) (port : UInt16) (client : Fd) : M Relays Fd := do
  -- The code reads a deleted pointer after a `getaddrinfo` that failed.
  if resolution.addresses = 0 then throw .exit
  else
    modify (openFd resolution.socket)
    tryNext resolution host port resolution.socket client resolution.addresses
    return resolution.socket

/-- `Socks` as a protocol of a server. -/
def service : Service Relays Resolution where
  start := {}
  onConnect _ host client := onConnect host client
  onMessage resolution host client message :=
    onMessage host (connect resolution host) client message
  onClose host client := onClose host client
  onRemoteConnect host remote r client := do
    let port ← host.own fun relays => (relays.port remote, relays)
    onRemoteConnect host port r client
  onRemoteMessage host _ message client := sendPeer host client message
  onRemoteClose host _ client := close host client

/-- What is done about an event: a connection that has failed tries the next
address. -/
def perform : Server.Event Resolution → M Relays Unit
  | .connectFailed remote world => do
      let s ← get
      match s.roles[remote]? with
      | some (.connecting client) => do
          unwatch remote
          let captured := (s.own.captured[remote]?).getD (0, 0)
          tryNext world.handler (Server.host world service s) captured.1 remote
            client captured.2
      | _ => return ()
  | event => Server.perform service event

/-- The events that can come next: the number of a new socket is free. -/
def Allows (s : Server Relays) (event : Server.Event Resolution) : Prop :=
  s.Allows event ∧ ∀ client piece world,
    event = .message client piece world → s.Free world.handler.socket

/-- The states after any number of events, each of which met the condition and
returned. -/
inductive Reached (condition : Server Relays → Server.Event Resolution → Prop) :
    Server Relays → Prop where
  | start : Reached condition { own := service.start }
  | step {s after : Server Relays} {event : Server.Event Resolution}
      (earlier : Reached condition s) (allowed : Allows s event)
      (meets : condition s event) (returned : perform event s = .ok () after) :
      Reached condition after

end Socks

end Universe
