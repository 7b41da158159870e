import Universe.EventManager.Program

/-!
# The client

`Client::connect` in its variants.  The asynchronous connect to a host takes a
descriptor as a placeholder at once and tries the addresses of the host one
after the other, moving every new socket onto the placeholder.  Its callback
is stored in the event manager like any other; it calls the caller's `CONNECT`
callback once the outcome is known.

`getaddrinfo` appears as the list of addresses it finds, which is empty when it
fails.  An exception that a missing callback would raise ends the process.
-/

namespace Universe

/-- What `::connect` is given, a `sockaddr`. -/
abbrev Address := Bytes

/-- The callbacks that are stored for a client: those of its caller, and the
lambdas of the two asynchronous connects around them. -/
inductive ClientCB (κ : Type) where
  | user (callback : κ)
  | address (callbacks : EventCB κ)
  | host (callbacks : EventCB κ) (remaining : List Address) (placeholder : Fd)

def EventCB.size {β : Type} (callbacks : EventCB β) : Nat :=
  ([.connect, .read, .write, .error, .close].filter
    fun event => (callbacks event).isSome).length

namespace World

variable {β σ : Type}

/-- `nonblock_socket` returns `new`, then come `dup2(new, fd)` and
`::close(new)`. -/
def dup2 (w : World β σ) (new fd : Fd) : World β σ :=
  if w.kernel.Free new ∧ 0 ≤ fd then
    { w with kernel := (w.kernel.openFd new).moveFd new fd }.log
      (.opened fd w.kernel.nextConn w.writeBuf[fd]? (w.fds.contains fd))
  else w

/-- A socket whose blocking `::connect` fails is closed at once. -/
def closeSocket (w : World β σ) (new : Fd) : World β σ :=
  if w.kernel.Free new then
    { w with kernel := (w.kernel.openFd new).closeFd new }
  else w

def setSsl (w : World β σ) (fd : Fd) (connection : SSLConnection) :
    World β σ :=
  { w with fdSsl := w.fdSsl.insert fd connection }

end World

namespace Client

variable {κ σ : Type}

/-- The number of the next descriptor.  Without one `socket` fails and the
process exits. -/
def nextNumber : EM (ClientCB κ) σ Fd := do
  let w ← get
  match w.kernel.answers.numbers with
  | [] => throw .exit
  | number :: rest =>
      modify (World.setAnswers · { w.kernel.answers with numbers := rest })
      if w.kernel.Free number then return number else throw .exit

/-- `::connect`.  A list of answers that has run out stands for a connect that
is under way. -/
def sysConnect : EM (ClientCB κ) σ ConnectStatus := do
  let w ← get
  match w.kernel.answers.connects with
  | [] => return .inProgress
  | status :: rest =>
      modify (World.setAnswers · { w.kernel.answers with connects := rest })
      return status

/-- `nonblock_socket`, moved onto `fd` unless that is `-1`. -/
def openOn (fd : Fd) : EM (ClientCB κ) σ Fd := do
  let s ← nextNumber
  if fd = -1 then
    modify (World.acceptFd · s)
    return s
  else if 0 ≤ fd then
    modify (World.dup2 · s fd)
    return fd
  else throw .exit

/-- `callbacks[EventType::CONNECT](fd, r)`. -/
def notify {γ : Type} (d : Dispatch (ClientCB κ) σ) (wrap : γ → ClientCB κ)
    (callbacks : EventCB γ) (fd : Fd) (outcome : ConnectResult) :
    EM (ClientCB κ) σ Unit :=
  match callbacks .connect with
  | some callback => d.invoke (wrap callback) fd (.result outcome)
  | none => throw .exit

/-- The same where a missing callback is looked for first. -/
def notifyAny (d : Dispatch (ClientCB κ) σ) (callbacks : EventCB κ) (fd : Fd)
    (outcome : ConnectResult) : EM (ClientCB κ) σ Unit :=
  match callbacks .connect with
  | some callback => d.invoke (.user callback) fd (.result outcome)
  | none => pure ()

/-- `if (callbacks.size()) watch(fd, move(callbacks), re_watch)`, after the
`CONNECT` callback is erased. -/
def watchRest (callbacks : EventCB (ClientCB κ)) (fd : Fd) (reWatch : Bool) :
    EM (ClientCB κ) σ Unit := do
  let rest := callbacks.erase .connect
  if rest.size = 0 then pure ()
  else
    let _ ← modifyGet (World.watch · fd rest reWatch)
    pure ()

/-- `connect(addr, addrlen, callbacks, async, fd)`.  A descriptor that is not
open after `dup2` cannot be connected. -/
def connectOn (d : Dispatch (ClientCB κ) σ) (callbacks : EventCB (ClientCB κ))
    (fd : Fd) : EM (ClientCB κ) σ Int := do
  let s ← openOn fd
  let status ← sysConnect
  let w ← get
  match w.kernel.conns s, status with
  | none, _ | _, .failed =>
      let _ ← EventManager.unwatch d s true
      notify d id callbacks s .ng
      return -1
  | some _, .connected =>
      notify d id callbacks s .ok
      watchRest callbacks s true
      return s
  | some _, .inProgress =>
      let _ ← modifyGet (World.watch · s callbacks true)
      return s

def onConnect (callback : ClientCB κ) : EventCB (ClientCB κ) :=
  EventCB.empty.set .connect callback

/-- The lambda of `connect(addr, addrlen, callbacks, async)`. -/
def addressConnected (d : Dispatch (ClientCB κ) σ) (callbacks : EventCB κ)
    (fd : Fd) (outcome : ConnectResult) : EM (ClientCB κ) σ Unit := do
  notify d .user callbacks fd outcome
  match outcome with
  | .ok => watchRest (callbacks.map .user) fd false
  | _ =>
      let _ ← EventManager.close d fd true
      pure ()

/-- `CONNECT_FAIL` in the lambda of the connect to a host. -/
def connectFail (d : Dispatch (ClientCB κ) σ) (callbacks : EventCB κ)
    (placeholder fd : Fd) (outcome : ConnectResult) :
    EM (ClientCB κ) σ Unit := do
  notify d .user callbacks fd outcome
  let _ ← EventManager.close d placeholder true
  pure ()

/-- The lambda of `connect(address, port, callbacks, async, ssl)`. -/
def hostConnected (d : Dispatch (ClientCB κ) σ) (callbacks : EventCB κ)
    (remaining : List Address) (placeholder fd : Fd) :
    ConnectResult → EM (ClientCB κ) σ Unit
  | .gameOver => connectFail d callbacks placeholder fd .gameOver
  | .ok => do
      notify d .user callbacks fd .ok
      watchRest (callbacks.map .user) fd false
  | .ng => do
      match remaining with
      | [] => connectFail d callbacks placeholder fd .ng
      | _ :: later =>
          let _ ← connectOn d (onConnect (.host callbacks later placeholder))
            placeholder
          pure ()

/-- `connect(addr, addrlen, callbacks, async)`. -/
def connectAddress (d : Dispatch (ClientCB κ) σ) (callbacks : EventCB κ) :
    EM (ClientCB κ) σ Int :=
  connectOn d (onConnect (.address callbacks)) (-1)

/-- `connect(address, port, callbacks, async, ssl)`, where `ssl` says whether
`SSLConnection::initialize` succeeds. -/
def connectHost (d : Dispatch (ClientCB κ) σ) (addresses : List Address)
    (callbacks : EventCB κ) (ssl : Option Bool) : EM (ClientCB κ) σ Int := do
  match addresses with
  -- `getaddrinfo` failed: `resultp` is deleted and read all the same.
  | [] => throw .undefined
  | _ :: remaining =>
      let s ← openOn (-1)
      match ssl with
      | some false =>
          let _ ← EventManager.close d s true
          notify d .user callbacks (-1) .ng
          return -1
      | _ =>
          if ssl.isSome then modify (World.setSsl · s {}) else pure ()
          let _ ← connectOn d (onConnect (.host callbacks remaining s)) s
          return s

/-- `connect(addr, addrlen, timeout)`. -/
def dial : EM (ClientCB κ) σ Int := do
  let s ← nextNumber
  let status ← sysConnect
  match status with
  | .connected =>
      modify (World.acceptFd · s)
      return s
  | _ =>
      modify (World.closeSocket · s)
      return -1

/-- What `select` answers for one socket. -/
inductive Selected where
  | writable
  | timedOut
  | failed
  deriving DecidableEq

/-- `connect(addr, addrlen, timeout)` with a time limit: the connect is started
without blocking and `select` waits for the socket. -/
def dialWithin (timeout : Int) (selected : Selected) :
    EM (ClientCB κ) σ Int := do
  if 0 < timeout then
    let s ← nextNumber
    let status ← sysConnect
    match status with
    | .failed =>
        modify (World.closeSocket · s)
        return -1
    | _ =>
        match selected with
        | .writable =>
            modify (World.acceptFd · s)
            return s
        | _ =>
            modify (World.closeSocket · s)
            return -1
  else dial

/-- `connect(addr, addrlen, callbacks)`. -/
def connectNow (d : Dispatch (ClientCB κ) σ) (callbacks : EventCB κ) :
    EM (ClientCB κ) σ Int := do
  let s ← dial
  notifyAny d callbacks s (if 0 < s then .ok else .ng)
  if s < 0 then return s
  else
    watchRest (callbacks.map .user) s false
    return s

/-- The loop of `connect(address, port, callbacks)`. -/
def connectEach (d : Dispatch (ClientCB κ) σ) (callbacks : EventCB κ) :
    List Address → EM (ClientCB κ) σ Int
  | [] => do
      notifyAny d callbacks (-1) .ng
      return -1
  | _ :: rest => do
      let s ← connectNow d callbacks
      if 0 < s then return s else connectEach d callbacks rest

/-- `connect(address, port, callbacks)`. -/
def connectHostNow (d : Dispatch (ClientCB κ) σ) (addresses : List Address)
    (callbacks : EventCB κ) : EM (ClientCB κ) σ Int :=
  match addresses with
  | [] => return -1
  | addresses => connectEach d callbacks addresses

end Client

/-- Where the caller of a client passes callbacks, they are its own. -/
def Op.map {κ β σ : Type} (wrap : κ → β) : Op κ σ → Op β σ
  | .accept fd => .accept fd
  | .watchEvent fd event callback et => .watchEvent fd event (wrap callback) et
  | .watch fd callbacks reWatch et => .watch fd (callbacks.map wrap) reWatch et
  | .autoRewatch fd et => .autoRewatch fd et
  | .unwatch fd noCallback => .unwatch fd noCallback
  | .close fd force => .close fd force
  | .closeAll => .closeAll
  | .write fd data => .write fd data
  | .handleEvents waited => .handleEvents waited
  | .user change => .user change

/-- The operations of a client. -/
inductive ClientOp (κ σ : Type) where
  | manager (op : Op κ σ)
  | connectHost (addresses : List Address) (callbacks : EventCB κ)
      (ssl : Option Bool)
  | connectAddress (address : Address) (callbacks : EventCB κ)
  | connectOn (address : Address) (callbacks : EventCB κ) (fd : Fd)
  | dial (address : Address)
  | connectNow (address : Address) (callbacks : EventCB κ)
  | connectHostNow (addresses : List Address) (callbacks : EventCB κ)

/-- Any code that uses a client. -/
abbrev ClientProgram (κ σ : Type) :=
  Stepwise.Script (ClientOp κ σ) Int (World (ClientCB κ) σ)

namespace Client

variable {κ σ : Type}

def perform (d : Dispatch (ClientCB κ) σ) :
    ClientOp κ σ → EM (ClientCB κ) σ Int
  | .manager op => EventManager.perform d (op.map .user)
  | .connectHost addresses callbacks ssl =>
      connectHost d addresses callbacks ssl
  | .connectAddress _ callbacks => connectAddress d callbacks
  | .connectOn _ callbacks fd => do
      modify (World.log · (.placed fd))
      connectOn d (callbacks.map .user) fd
  | .dial _ => dial
  | .connectNow _ callbacks => connectNow d callbacks
  | .connectHostNow addresses callbacks => connectHostNow d addresses callbacks

/-- The client with any callbacks of its caller.  A callback of another kind
than the event asks for raises an exception. -/
def app (body : κ → Fd → Arg → World (ClientCB κ) σ → ClientProgram κ σ)
    (wantMessage : κ → Bool) (unwatched : Fd → σ → σ) : App (ClientCB κ) σ :=
  { code := fun d callback fd arg =>
      match callback, arg with
      | .user callback, arg => do
          let w ← get
          (body callback fd arg w).run .exit (perform d)
      | .address callbacks, .result outcome =>
          addressConnected d callbacks fd outcome
      | .host callbacks remaining placeholder, .result outcome =>
          hostConnected d callbacks remaining placeholder fd outcome
      | _, _ => throw .exit
    wantMessage := fun
      | .user callback => wantMessage callback
      | _ => false
    unwatched := unwatched }

end Client

end Universe
