import Universe.Http.Segmentation
import Universe.HttpGateway

/-!
# The gateway and its server

The server keeps callbacks for the clients of the gateway and for its
connections to providers.  `close` and `connect` of the server call the
gateway back, which closes other descriptors in its callbacks.  How the
descriptors and the bytes on them are kept is up to an `Environment`.
-/

namespace Universe

open Std (ExtTreeMap)

namespace HttpGateway

/-- What the callbacks of a descriptor are for. -/
inductive Role where
  | client
  /-- Only `CONNECT`. -/
  | connecting (client : Fd)
  /-- None, while `CONNECT` is called. -/
  | bare
  | remote (client : Fd)
  deriving DecidableEq, Repr

/-- What becomes of a call of `connect`, and the number of its socket. -/
inductive Attempt where
  /-- `getaddrinfo` fails, and the code reads a deleted pointer. -/
  | unresolved
  /-- `SSLConnection` cannot be initialised. -/
  | insecure (fd : Fd)
  /-- Every address fails at once. -/
  | failing (fd : Fd)
  | pending (fd : Fd)
  | immediate (fd : Fd)
  deriving DecidableEq, Repr

namespace Attempt

def fd? : Attempt → Option Fd
  | .unresolved => none
  | .insecure fd => some fd
  | .failing fd => some fd
  | .pending fd => some fd
  | .immediate fd => some fd

end Attempt

/-- What the gateway keeps between its callbacks. -/
structure Kept where
  tables : Tables := {}
  bufferable : Bufferable := ∅
  stateful : Stateful HttpGatewayState := ∅

namespace Kept

/-- A message that is not whole is kept. -/
def buffering (fd : Fd) (piece message : Bytes) (held : Kept) : Kept :=
  { held with
    bufferable :=
      ((held.bufferable.appendBuf fd piece).2.needBuf fd message true).2 }

/-- A request was read, with this rest. -/
def reading (client : Fd) (piece rest : Bytes) (held : Kept) : Kept :=
  { buffering client piece rest held with
    stateful := held.stateful.setState client .parseResponse }

/-- `on_close` of a client without a connection. -/
def alone (client : Fd) (held : Kept) : Kept :=
  { held with
    bufferable := held.bufferable.eraseBuf client
    stateful := held.stateful.eraseState client }

/-- `on_close` of a client, before the connection for it is closed. -/
def leaving (client : Fd) (held : Kept) : Kept :=
  { held with
    bufferable := held.bufferable.eraseBuf client
    stateful := held.stateful.eraseState client
    tables := Tables.eraseClient client held.tables }

/-- What `close_remote` forgets before it closes a connection. -/
def forgetting (remoteFd : Fd) (held : Kept) : Kept :=
  { held with
    bufferable := held.bufferable.eraseBuf remoteFd
    tables := Tables.eraseRemote remoteFd held.tables }

/-- What the handlers leave of a request. -/
def informed (client : Fd) (info : HttpRequest × HttpProviderAddress)
    (held : Kept) : Kept :=
  { held with tables := Tables.setInfo client info held.tables }

/-- A request has its connection. -/
def paired (client remoteFd : Fd) (held : Kept) : Kept :=
  { held with tables := Tables.pair client remoteFd held.tables }

/-- The end of `on_remote_close`. -/
def widowed (remoteFd client : Fd) (held : Kept) : Kept :=
  { held with
    bufferable := held.bufferable.eraseBuf remoteFd
    tables := Tables.eraseInfo client held.tables }

/-- `on_remote_close` of a connection that was forgotten before. -/
def vanished (remoteFd client : Fd) (held : Kept) : Kept :=
  { held with
    bufferable := held.bufferable.eraseBuf remoteFd
    tables := Tables.eraseInfo client (Tables.eraseRemote remoteFd held.tables) }

end Kept

/-- What is around the gateway.  A state of `σ` holds what the gateway keeps,
apart from everything else. -/
structure Environment (ε σ : Type) where
  kept : σ → Kept
  keep : Kept → σ → σ
  roleOf : σ → Fd → Option Role
  /-- A new socket. -/
  openFd : Fd → σ → σ
  /-- The callbacks of a socket that `connect` has opened. -/
  register : Fd → Role → σ → σ
  /-- The callbacks are gone before one of them is called. -/
  unregister : Fd → Role → σ → σ
  /-- `_add_close_fd`. -/
  release : Fd → σ → σ
  /-- What becomes of the next call of `connect`. -/
  attempt : σ → Attempt
  /-- `write`, which may close. -/
  write : (Fd → EStateM ε σ Bool) → Fd → Bytes → EStateM ε σ Int
  fireRequestUri : HttpRequest →
    EStateM ε σ (HttpRequest × HttpProviderAddress × Bool)
  fireResponse : HttpRequest → HttpResponse →
    EStateM ε σ (HttpRequest × HttpResponse)
  /-- An exception that nobody catches, or undefined behaviour. -/
  exit : ε
  /-- The callbacks nest deeper than allowed. -/
  depth : ε
  kept_keep : ∀ held s, kept (keep held s) = held
  keep_keep : ∀ later held s, keep later (keep held s) = keep later s
  keep_kept : ∀ s, keep (kept s) s = s

namespace Environment

variable {ε σ : Type} (env : Environment ε σ)

def keeping (change : Kept → Kept) (s : σ) : σ :=
  env.keep (change (env.kept s)) s

def host (close : Fd → EStateM ε σ Bool)
    (connect : HttpProviderAddress → Fd → EStateM ε σ Fd) :
    Host (EStateM ε σ) where
  needBuf id message cond := modifyGet fun s =>
    let needed := (env.kept s).bufferable.needBuf id message cond
    (needed.1, env.keep { env.kept s with bufferable := needed.2 } s)
  appendBuf id message := modifyGet fun s =>
    let appended := (env.kept s).bufferable.appendBuf id message
    (appended.1, env.keep { env.kept s with bufferable := appended.2 } s)
  hasBuf id := modifyGet fun s => ((env.kept s).bufferable.hasBuf id, s)
  getBuf id := modifyGet fun s =>
    let got := (env.kept s).bufferable.getBuf id
    (got.1, env.keep { env.kept s with bufferable := got.2 } s)
  eraseBuf id := modify (env.keeping fun held =>
    { held with bufferable := held.bufferable.eraseBuf id })
  write := env.write close
  close := close
  exit := throw env.exit
  getState id := modifyGet fun s => ((env.kept s).stateful.getState id, s)
  setState id state := modify (env.keeping fun held =>
    { held with stateful := held.stateful.setState id state })
  eraseState id := modify (env.keeping fun held =>
    { held with stateful := held.stateful.eraseState id })
  tables change := modifyGet fun s =>
    let changed := change (env.kept s).tables
    (changed.1, env.keep { env.kept s with tables := changed.2 } s)
  connect := connect
  fireRequestUri := env.fireRequestUri
  fireResponse := env.fireResponse

/-- The callbacks of `close` do not connect. -/
def quietHost (close : Fd → EStateM ε σ Bool) : Host (EStateM ε σ) :=
  env.host close fun _ _ => throw env.exit

/-- `EventManager::close`, up to this depth of callbacks that close again.  A
connection that is being made is told `GAME_OVER` and closed by force. -/
def closing : (depth : Nat) → Fd → EStateM ε σ Bool
  | 0, fd => do
      let s ← get
      if (env.roleOf s fd).isSome then throw env.depth else return true
  | depth + 1, fd => do
      let s ← get
      match env.roleOf s fd with
      | none => return true
      | some .client => do
          modify fun s => env.release fd (env.unregister fd .client s)
          onClose (env.quietHost (closing depth)) fd
          return true
      | some (.connecting client) => do
          modify (env.unregister fd (.connecting client))
          onRemoteConnect (env.quietHost (closing depth)) fd .gameOver client
          modify fun s => env.release fd (env.release fd s)
          return true
      | some .bare => do
          modify fun s => env.release fd (env.unregister fd .bare s)
          return true
      | some (.remote client) => do
          modify fun s => env.release fd (env.unregister fd (.remote client) s)
          onRemoteClose (env.quietHost (closing depth)) fd client
          return true

/-- `connect` of the server, with the callbacks of the gateway for this
client. -/
def connecting (close : Fd → EStateM ε σ Bool) (_ : HttpProviderAddress)
    (client : Fd) : EStateM ε σ Fd := do
  let quiet := env.quietHost close
  let s ← get
  match env.attempt s with
  | .unresolved => throw env.exit
  | .insecure fd => do
      modify fun s => env.release fd (env.openFd fd s)
      onRemoteConnect quiet (-1) .ng client
      return -1
  | .failing fd => do
      modify (env.openFd fd)
      onRemoteConnect quiet fd .ng client
      modify (env.release fd)
      return fd
  | .pending fd => do
      modify fun s => env.register fd (.connecting client) (env.openFd fd s)
      return fd
  | .immediate fd => do
      modify (env.openFd fd)
      onRemoteConnect quiet fd .ok client
      modify (env.register fd (.remote client))
      return fd

variable {env} {s : σ} {depth : Nat} {fd client remoteFd : Fd}
  {close : Fd → EStateM ε σ Bool}
  {connect : HttpProviderAddress → Fd → EStateM ε σ Fd}

@[simp] theorem kept_keeping (change : Kept → Kept) :
    env.kept (env.keeping change s) = change (env.kept s) :=
  env.kept_keep _ s

theorem keeping_keeping (later change : Kept → Kept) :
    env.keeping later (env.keeping change s) =
      env.keeping (fun held => later (change held)) s := by
  unfold keeping
  rw [env.keep_keep, env.kept_keep]

/-- Nothing is done about a descriptor without callbacks. -/
theorem closing_absent (absent : env.roleOf s fd = none) :
    env.closing depth fd s = .ok true s := by
  cases depth with
  | zero =>
      unfold closing
      rw [Stepwise.get_bind, absent]
      rfl
  | succ depth =>
      unfold closing
      rw [Stepwise.get_bind, absent]
      rfl

theorem closing_client {after : σ} (isClient : env.roleOf s client = some .client)
    (told : onClose (env.quietHost (env.closing depth)) client
      (env.release client (env.unregister client .client s)) = .ok () after) :
    env.closing (depth + 1) client s = .ok true after := by
  unfold closing
  simp only [Stepwise.get_bind, isClient, Stepwise.modify_bind]
  rw [Stepwise.bind_of_ok told]
  rfl

theorem closing_connecting {after : σ}
    (connects : env.roleOf s remoteFd = some (.connecting client))
    (told : onRemoteConnect (env.quietHost (env.closing depth)) remoteFd
      .gameOver client (env.unregister remoteFd (.connecting client) s) =
        .ok () after) :
    env.closing (depth + 1) remoteFd s =
      .ok true (env.release remoteFd (env.release remoteFd after)) := by
  unfold closing
  simp only [Stepwise.get_bind, connects, Stepwise.modify_bind]
  rw [Stepwise.bind_of_ok told]
  rfl

theorem closing_remote {after : σ}
    (serves : env.roleOf s remoteFd = some (.remote client))
    (told : onRemoteClose (env.quietHost (env.closing depth)) remoteFd client
      (env.release remoteFd (env.unregister remoteFd (.remote client) s)) =
        .ok () after) :
    env.closing (depth + 1) remoteFd s = .ok true after := by
  unfold closing
  simp only [Stepwise.get_bind, serves, Stepwise.modify_bind]
  rw [Stepwise.bind_of_ok told]
  rfl

/-- A look at the maps changes nothing. -/
theorem tables_read {α : Type} (look : Tables → α) :
    (env.host close connect).tables (fun tables => (look tables, tables)) s =
      .ok (look (env.kept s).tables) s := by
  simp only [host, Stepwise.modifyGet_eq]
  rw [env.keep_kept]

theorem modifyTables_eq (change : Tables → Tables) :
    modifyTables (env.host close connect) change s = .ok () (env.keeping
      (fun held => { held with tables := change held.tables }) s) := rfl

theorem appendBuf_eq (piece : Bytes) :
    (env.host close connect).appendBuf fd piece s =
      .ok (((env.kept s).bufferable[fd]?).getD [] ++ piece) (env.keep
        { env.kept s with
          bufferable := ((env.kept s).bufferable.appendBuf fd piece).2 } s) := by
  simp only [host, Stepwise.modifyGet_eq, Bufferable.appendBuf_message]

/-- The message is appended to the buffer, and what is left of it is kept. -/
theorem needBuf_appended (piece message : Bytes) :
    (env.host close connect).needBuf fd message true (env.keep
      { env.kept s with
        bufferable := ((env.kept s).bufferable.appendBuf fd piece).2 } s) =
      .ok (((env.kept s).bufferable.appendBuf fd piece).2.needBuf fd message
          true).1
        (env.keeping (Kept.buffering fd piece message) s) := by
  simp only [host, Stepwise.modifyGet_eq, env.kept_keep, env.keep_keep]
  rfl

section Messages

variable {piece : Bytes}

/-- A message that is not a whole request, or comes before the response, is
kept. -/
theorem onMessage_kept
    (again : (env.kept s).stateful.getState client = .parseResponse ∨
      Http.parseRequest client
        (((env.kept s).bufferable[client]?).getD [] ++ piece) = .error .ag) :
    onMessage (env.host close connect) client piece s =
      .ok () (env.keeping (Kept.buffering client piece
        (((env.kept s).bufferable[client]?).getD [] ++ piece)) s) := by
  have waits : (if (env.kept s).stateful.getState client = .parseResponse then
      .error .ag
      else Http.parseRequest client
        (((env.kept s).bufferable[client]?).getD [] ++ piece) :
        Except ReaderException (HttpRequest × Bytes)) = .error .ag := by
    rcases again with responds | short
    · rw [if_pos responds]
    · rw [short, ite_self]
  unfold onMessage
  refine (Stepwise.bind_of_ok (appendBuf_eq piece)).trans ?_
  refine (Stepwise.modifyGet_bind _ _ _).trans ?_
  simp only [env.kept_keep]
  rw [waits]
  exact Stepwise.bind_of_ok (needBuf_appended piece _)

variable (parses : (env.kept s).stateful.getState client ≠ .parseResponse)
include parses

/-- A message that is no request closes its client. -/
theorem onMessage_closes {after : σ} {result : Bool}
    (bad : Http.parseRequest client
      (((env.kept s).bufferable[client]?).getD [] ++ piece) = .error .ng)
    (closed : close client (env.keep { env.kept s with
      bufferable := ((env.kept s).bufferable.appendBuf client piece).2 } s) =
        .ok result after) :
    onMessage (env.host close connect) client piece s = .ok () after := by
  unfold onMessage
  refine (Stepwise.bind_of_ok (appendBuf_eq piece)).trans ?_
  refine (Stepwise.modifyGet_bind _ _ _).trans ?_
  simp only [env.kept_keep]
  rw [if_neg parses, bad]
  exact Stepwise.bind_of_ok closed

/-- A whole request is taken off the message and forwarded. -/
theorem onMessage_forwards {r : HttpRequest} {rest : Bytes}
    (parsed : Http.parseRequest client
      (((env.kept s).bufferable[client]?).getD [] ++ piece) = .ok (r, rest)) :
    onMessage (env.host close connect) client piece s =
      forward (env.host close connect) client r
        (env.keeping (Kept.reading client piece rest) s) := by
  unfold onMessage
  refine (Stepwise.bind_of_ok (appendBuf_eq piece)).trans ?_
  refine (Stepwise.modifyGet_bind _ _ _).trans ?_
  simp only [env.kept_keep]
  rw [if_neg parses, parsed]
  refine (Stepwise.bind_of_ok (needBuf_appended piece rest)).trans ?_
  refine (Stepwise.modify_bind _ _ _).trans ?_
  rw [keeping_keeping]
  rfl

end Messages

section Responses

variable {piece : Bytes}

/-- A response that is not whole is kept. -/
theorem onRemoteMessage_kept
    (again : parseResponse (((env.kept s).bufferable[remoteFd]?).getD [] ++
      piece) = .error .ag) :
    onRemoteMessage (env.host close connect) remoteFd piece client s =
      .ok () (env.keeping (Kept.buffering remoteFd piece
        (((env.kept s).bufferable[remoteFd]?).getD [] ++ piece)) s) := by
  unfold onRemoteMessage
  refine (Stepwise.bind_of_ok (appendBuf_eq piece)).trans ?_
  rw [again]
  exact Stepwise.bind_of_ok (needBuf_appended piece _)

/-- A response that cannot be read closes the connection. -/
theorem onRemoteMessage_closes {after : σ} {result : Bool}
    (bad : parseResponse (((env.kept s).bufferable[remoteFd]?).getD [] ++
      piece) = .error .ng)
    (closed : close remoteFd (env.keep { env.kept s with
      bufferable := ((env.kept s).bufferable.appendBuf remoteFd piece).2 } s) =
        .ok result after) :
    onRemoteMessage (env.host close connect) remoteFd piece client s =
      .ok () after := by
  unfold onRemoteMessage
  refine (Stepwise.bind_of_ok (appendBuf_eq piece)).trans ?_
  rw [bad]
  exact Stepwise.bind_of_ok closed

/-- A response with a chunk of unknown size is undefined. -/
theorem onRemoteMessage_stops {rest : Bytes}
    (undefined : parseResponse (((env.kept s).bufferable[remoteFd]?).getD [] ++
      piece) = .ok (none, rest)) :
    onRemoteMessage (env.host close connect) remoteFd piece client s =
      .error env.exit (env.keep { env.kept s with
        bufferable := ((env.kept s).bufferable.appendBuf remoteFd piece).2 }
        s) := by
  unfold onRemoteMessage
  refine (Stepwise.bind_of_ok (appendBuf_eq piece)).trans ?_
  rw [undefined]
  rfl

/-- A whole response is taken out of the buffer. -/
theorem onRemoteMessage_responds {response : HttpResponse} {rest : Bytes}
    (parsed : parseResponse (((env.kept s).bufferable[remoteFd]?).getD [] ++
      piece) = .ok (some response, rest)) :
    onRemoteMessage (env.host close connect) remoteFd piece client s =
      respond (env.host close connect) remoteFd client response (env.keep
        { env.kept s with
          bufferable := ((env.kept s).bufferable.appendBuf remoteFd piece).2 }
        s) := by
  unfold onRemoteMessage
  refine (Stepwise.bind_of_ok (appendBuf_eq piece)).trans ?_
  rw [parsed]

end Responses

/-- A client without a connection goes away alone. -/
theorem onClose_alone (unpaired : (env.kept s).tables.c2r[client]? = none) :
    onClose (env.host close connect) client s =
      .ok () (env.keeping (Kept.alone client) s) := by
  have looked : (env.host close connect).tables
      (fun tables => (tables.c2r[client]?, tables))
      (env.keeping (Kept.alone client) s) =
        .ok none (env.keeping (Kept.alone client) s) := by
    rw [tables_read, kept_keeping]
    exact congrArg (EStateM.Result.ok · _) unpaired
  unfold onClose
  refine (Stepwise.modify_bind _ _ _).trans ?_
  refine (Stepwise.modify_bind _ _ _).trans ?_
  rw [keeping_keeping]
  exact Stepwise.bind_of_ok looked

/-- A client takes the connection for it with it. -/
theorem onClose_paired {after : σ}
    (paired : (env.kept s).tables.c2r[client]? = some remoteFd)
    (closed : closeRemote (env.host close connect) remoteFd
      (env.keeping (Kept.leaving client) s) = .ok () after) :
    onClose (env.host close connect) client s = .ok () after := by
  have looked : (env.host close connect).tables
      (fun tables => (tables.c2r[client]?, tables))
      (env.keeping (Kept.alone client) s) =
        .ok (some remoteFd) (env.keeping (Kept.alone client) s) := by
    rw [tables_read, kept_keeping]
    exact congrArg (EStateM.Result.ok · _) paired
  unfold onClose
  refine (Stepwise.modify_bind _ _ _).trans ?_
  refine (Stepwise.modify_bind _ _ _).trans ?_
  rw [keeping_keeping]
  refine (Stepwise.bind_of_ok looked).trans ?_
  refine (Stepwise.bind_of_ok (modifyTables_eq _)).trans ?_
  rw [keeping_keeping]
  exact closed

theorem closeRemote_of_closed {after : σ} {result : Bool}
    (closed : close remoteFd (env.keeping (Kept.forgetting remoteFd) s) =
      .ok result after) :
    closeRemote (env.host close connect) remoteFd s = .ok () after := by
  unfold closeRemote
  refine (Stepwise.modify_bind _ _ _).trans ?_
  refine (Stepwise.bind_of_ok (modifyTables_eq _)).trans ?_
  rw [keeping_keeping]
  exact Stepwise.bind_of_ok closed

/-- What is left of a connection to a provider is taken out of the maps. -/
theorem onRemoteClose_forgotten
    (forgotten : (env.kept s).tables.r2c[remoteFd]? = none) :
    onRemoteClose (env.host close connect) remoteFd client s =
      .ok () (env.keeping (Kept.vanished remoteFd client) s) := by
  have looked : (env.host close connect).tables
      (fun tables => (tables.r2c.contains remoteFd, tables)) s =
        .ok false s := by
    rw [tables_read, ExtTreeMap.contains_eq_isSome_getElem?, forgotten]
    rfl
  unfold onRemoteClose
  refine (Stepwise.bind_of_ok looked).trans ?_
  refine (Stepwise.bind_of_ok (modifyTables_eq _)).trans ?_
  refine (Stepwise.modify_bind _ _ _).trans ?_
  rw [keeping_keeping, modifyTables_eq, keeping_keeping]
  rfl

/-- A provider that closes first has its client closed. -/
theorem onRemoteClose_known {between : σ} {result : Bool}
    (known : (env.kept s).tables.r2c[remoteFd]? = some client)
    (left : close client s = .ok result between) :
    onRemoteClose (env.host close connect) remoteFd client s =
      .ok () (env.keeping (Kept.widowed remoteFd client) between) := by
  have looked : (env.host close connect).tables
      (fun tables => (tables.r2c.contains remoteFd, tables)) s =
        .ok true s := by
    rw [tables_read, ExtTreeMap.contains_eq_isSome_getElem?, known]
    rfl
  unfold onRemoteClose
  refine (Stepwise.bind_of_ok looked).trans ?_
  rw [if_pos rfl]
  refine (Stepwise.bind_of_ok left).trans ?_
  refine (Stepwise.modify_bind _ _ _).trans ?_
  rw [modifyTables_eq, keeping_keeping]
  rfl

/-- A connection that is not made closes its client. -/
theorem onRemoteConnect_failed {r : ConnectResult} {after : σ} {result : Bool}
    (failed : r ≠ .ok) (closed : close client s = .ok result after) :
    onRemoteConnect (env.host close connect) remoteFd r client s =
      .ok () after := by
  unfold onRemoteConnect
  rw [if_pos failed]
  exact Stepwise.bind_of_ok closed

section Requests

variable {request : HttpRequest} {target : HttpProviderAddress}

theorem info_held
    (info : (env.kept s).tables.forwardInfo[client]? = some (request, target)) :
    (env.host close connect).tables (Tables.info client) s =
      .ok (request, target) s := by
  have held : (env.kept s).tables.info client =
      ((request, target), (env.kept s).tables) := by
    simp [Tables.info, info]
  simp only [host, Stepwise.modifyGet_eq, held]
  rw [env.keep_kept]

/-- A request that a handler has a provider for is told to its connection. -/
theorem forward_connects {r : HttpRequest} {between after : σ}
    (fired : env.fireRequestUri r s = .ok (request, target, true) between)
    (connected : connect target client
      (env.keeping (Kept.informed client (request, target)) between) =
        .ok remoteFd after)
    (valid : remoteFd ≠ -1) :
    forward (env.host close connect) client r s =
      .ok () (env.keeping (Kept.paired client remoteFd) after) := by
  unfold forward
  refine (Stepwise.bind_of_ok fired).trans ?_
  refine (Stepwise.bind_of_ok (modifyTables_eq _)).trans ?_
  refine (Stepwise.bind_of_ok connected).trans ?_
  rw [if_neg valid]
  exact modifyTables_eq _

/-- The response is written for the request as the handlers leave it. -/
theorem respond_eq {left : HttpRequest} {response sent : HttpResponse}
    {size : Int} {between : σ}
    (info : (env.kept s).tables.forwardInfo[client]? = some (request, target))
    (fired : env.fireResponse request response s = .ok (left, sent) s)
    (wrote : env.write close client sent.toBytes
      (env.keeping (Kept.informed client (left, target)) s) =
        .ok size between) :
    respond (env.host close connect) remoteFd client response s = (do
      let (request, _) ← (env.host close connect).tables (Tables.info client)
      let closed ← Http.closeIfNecessary (env.host close connect).toHost request
      if closed then return ()
      else proceed (env.host close connect) remoteFd client) between := by
  unfold respond
  refine (Stepwise.bind_of_ok (info_held info)).trans ?_
  refine (Stepwise.bind_of_ok fired).trans ?_
  refine (Stepwise.bind_of_ok (modifyTables_eq _)).trans ?_
  exact Stepwise.bind_of_ok wrote

/-- A request that cannot be printed again ends the process. -/
theorem onRemoteConnect_stops
    (info : (env.kept s).tables.forwardInfo[client]? = some (request, target))
    (undefined : request.forwardPacket target = none) :
    onRemoteConnect (env.host close connect) remoteFd .ok client s =
      .error env.exit s := by
  unfold onRemoteConnect
  rw [if_neg (by decide)]
  refine (Stepwise.bind_of_ok (info_held info)).trans ?_
  simp only [undefined]
  rfl

/-- The request is written to a connection that is made. -/
theorem onRemoteConnect_writes {packet : Bytes} {size : Int} {after : σ}
    (info : (env.kept s).tables.forwardInfo[client]? = some (request, target))
    (printed : request.forwardPacket target = some packet)
    (wrote : env.write close remoteFd packet s = .ok size after) :
    onRemoteConnect (env.host close connect) remoteFd .ok client s =
      .ok () after := by
  unfold onRemoteConnect
  rw [if_neg (by decide)]
  refine (Stepwise.bind_of_ok (info_held info)).trans ?_
  simp only [printed]
  exact Stepwise.bind_of_ok wrote

end Requests

section Attempts

variable {address : HttpProviderAddress} {after : σ}

theorem connecting_unresolved (attempt : env.attempt s = .unresolved) :
    env.connecting close address client s = .error env.exit s := by
  unfold connecting
  simp only [Stepwise.get_bind, attempt]
  rfl

theorem connecting_insecure (attempt : env.attempt s = .insecure fd)
    (told : onRemoteConnect (env.quietHost close) (-1) .ng client
      (env.release fd (env.openFd fd s)) = .ok () after) :
    env.connecting close address client s = .ok (-1) after := by
  unfold connecting
  simp only [Stepwise.get_bind, attempt, Stepwise.modify_bind]
  rw [Stepwise.bind_of_ok told]
  rfl

theorem connecting_pending (attempt : env.attempt s = .pending fd) :
    env.connecting close address client s =
      .ok fd (env.register fd (.connecting client) (env.openFd fd s)) := by
  unfold connecting
  simp only [Stepwise.get_bind, attempt]
  rfl

theorem connecting_immediate (attempt : env.attempt s = .immediate fd)
    (told : onRemoteConnect (env.quietHost close) fd .ok client
      (env.openFd fd s) = .ok () after) :
    env.connecting close address client s =
      .ok fd (env.register fd (.remote client) after) := by
  unfold connecting
  simp only [Stepwise.get_bind, attempt, Stepwise.modify_bind]
  rw [Stepwise.bind_of_ok told]
  rfl

theorem connecting_stops {stop : ε} (attempt : env.attempt s = .immediate fd)
    (told : onRemoteConnect (env.quietHost close) fd .ok client
      (env.openFd fd s) = .error stop after) :
    env.connecting close address client s = .error stop after := by
  unfold connecting
  simp only [Stepwise.get_bind, attempt, Stepwise.modify_bind]
  exact Stepwise.bind_of_error told

end Attempts

end Environment

end HttpGateway

end Universe
