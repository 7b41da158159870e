import Universe.Server

/-!
# The proxy

`ITunnelLike` pairs every client with a connection to a remote, passes on what
comes from either side, and keeps what a client sends before its connection is
made.  `Proxy` chooses the remote.
-/

namespace Universe

open Std (ExtTreeMap)

inductive ConnectState where
  | b4connect
  | connect
  | connected
  deriving DecidableEq, Inhabited, Repr

/-- The members of `ITunnelLike` and of `Proxy`. -/
structure Tunnels where
  stateful : Stateful ConnectState := ∅
  c2r : ExtTreeMap Fd Fd := ∅
  r2c : ExtTreeMap Fd Fd := ∅
  rrIndex : Nat := 0

namespace Tunnels

def pair (client remote : Fd) (tunnels : Tunnels) : Tunnels :=
  { tunnels with
    c2r := tunnels.c2r.insert client remote
    r2c := tunnels.r2c.insert remote client }

def unpair (client : Fd) (tunnels : Tunnels) : Tunnels :=
  match tunnels.c2r[client]? with
  | none => tunnels
  | some remote =>
      { tunnels with
        c2r := tunnels.c2r.erase client
        r2c := tunnels.r2c.erase remote }

/-- `_c2r[client]`, which makes an entry when there is none. -/
def remoteOf (client : Fd) (tunnels : Tunnels) : Fd × Tunnels :=
  match tunnels.c2r[client]? with
  | some remote => (remote, tunnels)
  | none => (0, { tunnels with c2r := tunnels.c2r.insert client 0 })

/-- `_rr_index++`, of an `unsigned int`. -/
def nextIndex (tunnels : Tunnels) : Nat × Tunnels :=
  (tunnels.rrIndex, { tunnels with rrIndex := (tunnels.rrIndex + 1) % 2 ^ 32 })

end Tunnels

variable {m : Type → Type} [Monad m] (host : ServerHost Tunnels m)

namespace ITunnelLike

def states : StateHost ConnectState m :=
  host.stateHost (·.stateful) fun tunnels stateful => { tunnels with stateful }

/-- `register_pair_info`. -/
def registerPairInfo (client remote : Fd) : m Unit :=
  host.modifyOwn (Tunnels.pair client remote)

/-- `erase_client_info`. -/
def eraseClientInfo (client : Fd) : m Unit := do
  (states host).eraseState client
  host.eraseBuf client
  host.modifyOwn (Tunnels.unpair client)

/-- `on_message`. -/
def onMessage (client : Fd) (message : Bytes) : m Unit := do
  let message ← host.appendBuf client message
  let state ← (states host).getState client
  let needed ← host.needBuf client message (state ≠ .connected)
  if needed then return ()
  else
    let remote ← host.own (Tunnels.remoteOf client)
    let _ ← host.write remote message
    return ()

/-- `on_close`. -/
def onClose (client : Fd) : m Unit := do
  let paired ← host.own fun tunnels => (tunnels.c2r[client]?, tunnels)
  match paired with
  | none => return ()
  | some remote =>
      eraseClientInfo host client
      let _ ← host.close remote
      return ()

/-- `on_remote_message`. -/
def onRemoteMessage (_ : Fd) (message : Bytes) (client : Fd) : m Unit := do
  let _ ← host.write client message
  return ()

/-- `on_remote_close`. -/
def onRemoteClose (_ client : Fd) : m Unit := do
  let paired ← host.own fun tunnels => (tunnels.c2r.contains client, tunnels)
  if paired then
    eraseClientInfo host client
    let _ ← host.close client
    return ()
  else return ()

end ITunnelLike

namespace Proxy

open ITunnelLike

/-- `on_connect`.  Without addresses it divides by zero. -/
def onConnect (remoteAddressList : List Address) (client : Fd) : m Unit := do
  (states host).setState client .b4connect
  let index ← host.own Tunnels.nextIndex
  match remoteAddressList[index % remoteAddressList.length]? with
  | none => host.exit
  | some addr =>
      let remote ← host.connect addr client
      if remote = -1 then return ()
      else
        let state ← (states host).getState client
        if state = .b4connect then (states host).setState client .connect
        registerPairInfo host client remote

/-- `on_remote_connect`. -/
def onRemoteConnect (_ : Fd) (r : ConnectResult) (client : Fd) : m Unit := do
  if r = .ok then
    (states host).setState client .connected
    let buffered ← host.hasBuf client
    if buffered then
      let message ← host.getBuf client
      onMessage host client message
    else return ()
  else
    eraseClientInfo host client
    let _ ← host.close client
    return ()

/-- The proxy as a protocol of a server. -/
def service (remoteAddressList : List Address) :
    Server.Service Tunnels Unit where
  start := {}
  onConnect _ host client := onConnect host remoteAddressList client
  onMessage _ host client message := onMessage host client message
  onClose host client := onClose host client
  onRemoteConnect host remote r client := onRemoteConnect host remote r client
  onRemoteMessage host remote message client :=
    onRemoteMessage host remote message client
  onRemoteClose host remote client := onRemoteClose host remote client

end Proxy

end Universe
