import Universe.EventManager
import Universe.Http.Forwarding
import Universe.HttpGateway.Response
import Universe.WebSocket

/-!
# The HTTP gateway

`HttpGateway` takes one request after the other from a client, opens a
connection to the provider that `ON_REQUEST_URI` names, forwards the request
there and writes the response to the client.  Until then the next requests
stay in the buffer.
-/

namespace Universe

open Std (ExtTreeMap)

inductive HttpGatewayState where
  | parseRequest
  | parseResponse
  deriving DecidableEq, Inhabited, Repr

/-- Value-initialised, as `_forward_info` makes it. -/
instance : Inhabited HttpRequest where
  default :=
    { client := 0, method := [], uri := [], httpVersion := [], headers := []
      body := [] }

instance : Inhabited HttpProviderAddress where
  default := { host := [], port := 0, path := [], query := [] }

namespace HttpGateway

/-- The maps between clients and connections to providers. -/
structure Tables where
  c2r : ExtTreeMap Fd Fd := ∅
  r2c : ExtTreeMap Fd Fd := ∅
  forwardInfo : ExtTreeMap Fd (HttpRequest × HttpProviderAddress) := ∅

namespace Tables

/-- `_forward_info[client]`, which makes an entry when there is none. -/
def info (client : Fd) (tables : Tables) :
    (HttpRequest × HttpProviderAddress) × Tables :=
  match tables.forwardInfo[client]? with
  | some info => (info, tables)
  | none =>
      (default,
        { tables with forwardInfo := tables.forwardInfo.insert client default })

def setInfo (client : Fd) (info : HttpRequest × HttpProviderAddress)
    (tables : Tables) : Tables :=
  { tables with forwardInfo := tables.forwardInfo.insert client info }

def eraseInfo (client : Fd) (tables : Tables) : Tables :=
  { tables with forwardInfo := tables.forwardInfo.erase client }

def pair (client remoteFd : Fd) (tables : Tables) : Tables :=
  { tables with
    c2r := tables.c2r.insert client remoteFd
    r2c := tables.r2c.insert remoteFd client }

def eraseClient (client : Fd) (tables : Tables) : Tables :=
  { tables with c2r := tables.c2r.erase client }

def eraseRemote (remoteFd : Fd) (tables : Tables) : Tables :=
  { tables with r2c := tables.r2c.erase remoteFd }

end Tables

/-- What the gateway asks of its server, of its handlers and of its maps.
`connect` is given the client its callbacks are for. -/
structure Host (m : Type → Type) extends StateHost HttpGatewayState m where
  hasBuf : Fd → m Bool
  getBuf : Fd → m Bytes
  tables : {α : Type} → (Tables → α × Tables) → m α
  connect : HttpProviderAddress → Fd → m Fd
  fireRequestUri : HttpRequest → m (HttpRequest × HttpProviderAddress × Bool)
  fireResponse : HttpRequest → HttpResponse → m (HttpRequest × HttpResponse)

variable {m : Type → Type} [Monad m] (host : Host m)

def modifyTables (change : Tables → Tables) : m Unit :=
  host.tables fun tables => ((), change tables)

/-- `on_connect`. -/
def onConnect (client : Fd) : m Unit := host.setState client .parseRequest

/-- The second half of `on_message`, which looks for the provider. -/
def forward (client : Fd) (r : HttpRequest) : m Unit := do
  let (r, targetAddress, ok) ← host.fireRequestUri r
  if !ok then
    let _ ← host.close client
    return ()
  else
    modifyTables host (Tables.setInfo client (r, targetAddress))
    let remoteFd ← host.connect targetAddress client
    if remoteFd = -1 then return ()
    else modifyTables host (Tables.pair client remoteFd)

/-- `on_message`. -/
def onMessage (client : Fd) (message : Bytes) : m Unit := do
  let message ← host.appendBuf client message
  let state ← host.getState client
  let parsed :=
    if state = .parseResponse then .error .ag
    else Http.parseRequest client message
  match parsed with
  | .error .ag => do
      let _ ← host.needBuf client message true
      return ()
  | .error .ng => do
      let _ ← host.close client
      return ()
  | .ok (r, rest) => do
      let _ ← host.needBuf client rest true
      host.setState client .parseResponse
      forward host client r

/-- `close_remote`. -/
def closeRemote (remoteFd : Fd) : m Unit := do
  host.eraseBuf remoteFd
  modifyTables host (Tables.eraseRemote remoteFd)
  let _ ← host.close remoteFd
  return ()

/-- `on_close`. -/
def onClose (client : Fd) : m Unit := do
  Http.onClose host.toHost client
  host.eraseState client
  let paired ← host.tables fun tables => (tables.c2r[client]?, tables)
  match paired with
  | none => return ()
  | some remoteFd =>
      modifyTables host (Tables.eraseClient client)
      closeRemote host remoteFd

/-- `on_remote_connect`. -/
def onRemoteConnect (remoteFd : Fd) (r : ConnectResult) (client : Fd) :
    m Unit := do
  if r ≠ .ok then
    let _ ← host.close client
    return ()
  else
    let (request, targetAddress) ← host.tables (Tables.info client)
    match request.forwardPacket targetAddress with
    | none => host.exit
    | some packet =>
        let _ ← host.write remoteFd packet
        return ()

/-- The end of `on_remote_message`: the client stays, and its next request
may be in the buffer. -/
def proceed (remoteFd client : Fd) : m Unit := do
  closeRemote host remoteFd
  host.setState client .parseRequest
  let buffered ← host.hasBuf client
  if buffered then
    let message ← host.getBuf client
    onMessage host client message
  else return ()

/-- The second half of `on_remote_message`, with the response. -/
def respond (remoteFd client : Fd) (r : HttpResponse) : m Unit := do
  let (request, targetAddress) ← host.tables (Tables.info client)
  let (request, r) ← host.fireResponse request r
  modifyTables host (Tables.setInfo client (request, targetAddress))
  let _ ← host.write client r.toBytes
  let (request, _) ← host.tables (Tables.info client)
  let closed ← Http.closeIfNecessary host.toHost request
  if closed then return () else proceed host remoteFd client

/-- `on_remote_message`.  A response with a chunk of unknown size is
undefined. -/
def onRemoteMessage (remoteFd : Fd) (message : Bytes) (client : Fd) :
    m Unit := do
  let message ← host.appendBuf remoteFd message
  match parseResponse message with
  | .error .ag => do
      let _ ← host.needBuf remoteFd message true
      return ()
  | .error .ng => do
      let _ ← host.close remoteFd
      return ()
  | .ok (none, _) => host.exit
  | .ok (some r, _) => respond host remoteFd client r

/-- `on_remote_close`.  The provider has closed the connection unless the
gateway has forgotten it before. -/
def onRemoteClose (remoteFd client : Fd) : m Unit := do
  let known ← host.tables fun tables => (tables.r2c.contains remoteFd, tables)
  if known then
    let _ ← host.close client
  else modifyTables host (Tables.eraseRemote remoteFd)
  host.eraseBuf remoteFd
  modifyTables host (Tables.eraseInfo client)

end HttpGateway

end Universe
