import Std.Data.ExtTreeMap
import Universe.SSLConnection

/-!
# The event manager

`EventManager` keeps callbacks for file descriptors, a write buffer for those
whose kernel buffer is full, and a list of descriptors that are closed when
the current batch of events has been handled.

Callbacks run in the middle of the operations and may call every operation
again, so the operations are written against a `Dispatch`, which says what
invoking a callback does.  `World` holds the members of the class, the
kernel, the protocol object that owns the callbacks, and a `history` that the
program itself cannot read: it records what happened, and the statements
about whole runs are statements about it.
-/

namespace Universe

open Std (ExtTreeMap)

inductive EventType where
  | connect
  | read
  | write
  | error
  | close
  deriving DecidableEq, Repr

inductive ConnectResult where
  | ok
  | ng
  | gameOver
  deriving DecidableEq, Repr

/-- The argument of a callback beside the descriptor. -/
inductive Arg where
  | none
  | message (bytes : Bytes)
  | result (outcome : ConnectResult)
  deriving DecidableEq, Repr

/-- `map<EventType, CB>`. -/
abbrev EventCB (β : Type) := EventType → Option β

namespace EventCB

variable {β γ : Type}

def empty : EventCB β := fun _ => none

def set (callbacks : EventCB β) (event : EventType) (callback : β) :
    EventCB β :=
  Function.update callbacks event (some callback)

def erase (callbacks : EventCB β) (event : EventType) : EventCB β :=
  Function.update callbacks event none

def map (f : β → γ) (callbacks : EventCB β) : EventCB γ :=
  fun event => (callbacks event).map f

end EventCB

/-- A stored callback.  The ticket names the `watch` call that stored it and
`conn` the connection the descriptor had then. -/
structure Handler (β : Type) where
  callback : β
  ticket : Nat
  conn : Option Conn

/-- Why a callback is invoked: for an event of the batch, by `unwatch` for a
connect that is given up, or by `close`. -/
inductive Cause where
  | event
  | gameOver
  | close
  deriving DecidableEq, Repr

/-- What the history records. -/
inductive Event (β : Type) where
  /-- The kernel handed out a number; with the bytes still queued for it and
  whether `_fds` still has an entry for it. -/
  | opened (fd : Fd) (conn : Conn) (queued : Option Bytes) (registered : Bool)
  /-- A caller asked for `data` to be written. -/
  | requested (conn : Option Conn) (data : Bytes)
  /-- One `::write` and its answer. -/
  | sysWrite (conn : Conn) (offered : Bytes) (result : WriteResult)
  /-- An entry of `_fds` was made or kept by `_epoll_update`. -/
  | stored (fd : Fd) (conn : Option Conn) (releasing : Bool)
  /-- Callbacks were stored by `watch`. -/
  | watched (fd : Fd) (ticket : Nat) (reWatch current : Bool)
  /-- `close` was called. -/
  | closing (fd : Fd) (conn : Option Conn) (queued : Option Bytes)
      (force registered releasing : Bool)
  /-- A registration ends, by `close` or by a hang-up of the peer.  The
  callback `handler` is going to be invoked; `stored` is the `CLOSE` callback
  of the entry in `_fds`. -/
  | ending (fd : Fd) (handler stored : Option (Handler β)) (byClose : Bool)
  /-- A descriptor was appended to `_close_fds`, by the operation that ended
  its registration or (`own = false`) by a forced close. -/
  | released (fd : Fd) (conn : Option Conn) (own pending : Bool)
  /-- The end of a registration is complete. -/
  | ended
  | invoked (fd : Fd) (event : EventType) (ticket : Nat) (cause : Cause)
      (stored current : Option Conn)
  | sysClose (fd : Fd) (conn : Option Conn) (queued : Option Bytes)
  /-- `epoll_wait` returned a batch of events for the `reported` numbers. -/
  | batch (conns : Fd → Option Conn) (epoll : Fd → Bool) (reported : List Fd)
  /-- The loop of `handle_events` turned to an event. -/
  | entered (fd : Fd) (registered : Bool)
  /-- The connect of the current event failed; the rest of the event is
  skipped. -/
  | refused
  /-- The loop of `handle_events` is over. -/
  | left
  /-- `handle_events` returned. -/
  | handled (watched epoll releasing : Fd → Bool) (conns : Fd → Option Conn)
  /-- A caller asked for a connect on a number of its own. -/
  | placed (fd : Fd)

/-- How far the end of a registration has come. -/
inductive Progress where
  | begun
  | released
  | called
  deriving DecidableEq, Repr

/-- A registration whose end is under way, by `close` or by a hang-up, with
the callback it owes. -/
structure Frame (β : Type) where
  fd : Fd
  handler : Option (Handler β)
  byClose : Bool
  progress : Progress

/-- The innermost end has come further. -/
def advance {β : Type} (progress : Progress) : List (Frame β) → List (Frame β)
  | [] => []
  | frame :: rest => { frame with progress := progress } :: rest

/-- The ends of registrations that are under way, innermost first. -/
def frames {β : Type} : List (Event β) → List (Frame β)
  | [] => []
  | .ending fd handler _ byClose :: history =>
      ⟨fd, handler, byClose, .begun⟩ :: frames history
  | .released _ _ true _ :: history => advance .released (frames history)
  | .invoked _ .close _ _ _ _ :: history => advance .called (frames history)
  | .ended :: history => (frames history).tail
  | _ :: history => frames history

/-- The descriptors whose end has begun but which are not on the list of
descriptors to close yet. -/
def begun {β : Type} : List (Frame β) → List Fd
  | [] => []
  | frame :: rest =>
      if frame.progress = .begun then frame.fd :: begun rest else begun rest

/-- Whether `_current_cb` was loaded for the event that is being handled. -/
def dispatching {β : Type} : List (Event β) → Bool
  | [] => false
  | .entered _ registered :: _ => registered
  | .refused :: _ => false
  | .left :: _ => false
  | _ :: history => dispatching history

structure World (β σ : Type) where
  fds : ExtTreeMap Fd (EventCB (Handler β))
  fdSsl : ExtTreeMap Fd SSLConnection
  writeBuf : ExtTreeMap Fd Bytes
  closeFds : List Fd
  currentFd : Fd
  currentCb : EventCB (Handler β)
  kernel : Kernel
  /-- The protocol objects the callbacks belong to. -/
  user : σ
  tickets : Nat
  history : List (Event β)

namespace World

variable {β σ : Type}

def init (user : σ) (answers : Answers) : World β σ :=
  { fds := ∅
    fdSsl := ∅
    writeBuf := ∅
    closeFds := []
    currentFd := -1
    currentCb := EventCB.empty
    kernel := Kernel.boot answers
    user := user
    tickets := 0
    history := [] }

def log (w : World β σ) (event : Event β) : World β σ :=
  { w with history := event :: w.history }

def setAnswers (w : World β σ) (answers : Answers) : World β σ :=
  { w with kernel := { w.kernel with answers := answers } }

/-- Whether the descriptor is on its way out: on the list of descriptors to
close, or about to be appended to it. -/
def releasing (w : World β σ) (fd : Fd) : Bool :=
  decide (fd ∈ w.closeFds) || decide (fd ∈ begun (frames w.history))

/-- `_has_write_buf`. -/
def hasWriteBuf (w : World β σ) (fd : Fd) : Bool := w.writeBuf.contains fd

/-- The event mask `_epoll_update` computes. -/
def interest (callbacks : EventCB (Handler β)) (queued et : Bool) : Interest :=
  { epollIn := (callbacks .read).isSome
    epollOut := (callbacks .write).isSome || (callbacks .connect).isSome || queued
    epollRdhup := (callbacks .close).isSome
    epollHup := (callbacks .close).isSome || (callbacks .connect).isSome
    epollEt := et }

/-- `_epoll_update`.  Unless the entry is deleted, `_fds[fd]` makes an empty
one when there is none. -/
def epollUpdate (w : World β σ) (fd : Fd) (op : EpollOp) (et : Bool) :
    Bool × World β σ :=
  match op with
  | .del =>
      let ctl := w.kernel.epollCtl .del fd { epollEt := et }
      (ctl.1, { w with kernel := ctl.2 })
  | op =>
      let callbacks := (w.fds[fd]?).getD EventCB.empty
      let ctl :=
        w.kernel.epollCtl op fd (interest callbacks (w.hasWriteBuf fd) et)
      let w := w.log (.stored fd (w.kernel.conns fd) (w.releasing fd))
      (ctl.1, { w with fds := w.fds.insert fd callbacks, kernel := ctl.2 })

/-- `watch(fd, event, callback, et)`. -/
def watchEvent (w : World β σ) (fd : Fd) (event : EventType) (callback : β)
    (et : Bool := true) : Bool × World β σ :=
  let added := w.fds.contains fd
  let handler : Handler β := ⟨callback, w.tickets, w.kernel.conns fd⟩
  let callbacks := (w.fds[fd]?).getD EventCB.empty
  let current := decide (fd = w.currentFd)
  let w := { w with
    fds := w.fds.insert fd (callbacks.set event handler)
    currentCb := if current then w.currentCb.set event handler else w.currentCb
    tickets := w.tickets + 1 }.log (.watched fd w.tickets false current)
  w.epollUpdate fd (if added then .mod else .add) et

/-- `watch(fd, callbacks, re_watch, et)`. -/
def watch (w : World β σ) (fd : Fd) (callbacks : EventCB β)
    (reWatch : Bool := false) (et : Bool := true) : Bool × World β σ :=
  let added := w.fds.contains fd && !reWatch
  let handlers : EventCB (Handler β) :=
    callbacks.map (⟨·, w.tickets, w.kernel.conns fd⟩)
  let current := decide (fd = w.currentFd)
  let w := { w with
    fds := w.fds.insert fd handlers
    currentCb := if !reWatch && current then handlers else w.currentCb
    tickets := w.tickets + 1 }.log (.watched fd w.tickets reWatch current)
  w.epollUpdate fd (if added then .mod else .add) et

/-- `auto_rewatch`. -/
def autoRewatch (w : World β σ) (fd : Fd) (et : Bool := false) :
    Bool × World β σ :=
  w.epollUpdate fd (if w.fds.contains fd then .mod else .add) et

/-- The part of `unwatch` before its callback: the entry is gone, and
`epoll_ctl` says whether it was one. -/
def unregister (w : World β σ) (fd : Fd) : Bool × World β σ :=
  { w with
    currentCb := if fd = w.currentFd then EventCB.empty else w.currentCb
    fds := w.fds.erase fd }.epollUpdate fd .del true

/-- The part of `close` before `unwatch`. -/
def discard (w : World β σ) (fd : Fd) (force : Bool) : World β σ :=
  { w with
    fdSsl := w.fdSsl.erase fd
    writeBuf := w.writeBuf.erase fd }.log
      (.closing fd (w.kernel.conns fd) w.writeBuf[fd]? force
        (w.fds.contains fd) (w.releasing fd))

/-- `_add_close_fd`. -/
def addCloseFd (w : World β σ) (fd : Fd) (own : Bool) : World β σ :=
  { w with closeFds := w.closeFds ++ [fd] }.log
    (.released fd (w.kernel.conns fd) own (decide (fd ∈ w.closeFds)))

/-- The history of the end of a registration.  Without an entry of `_fds`
there is none to be ended, and without one of the interest list `unwatch`
exits. -/
def beginEnd (w : World β σ) (fd : Fd) (handler : Option (Handler β))
    (byClose : Bool) : World β σ :=
  match w.fds[fd]?, w.kernel.epoll fd with
  | some callbacks, some _ =>
      w.log (.ending fd handler (callbacks .close) byClose)
  | _, _ => w

def finishEnd (w : World β σ) (ended : Bool) : World β σ :=
  if ended then w.log .ended else w

/-- The history of a call of a callback. -/
def logCall (w : World β σ) (handler : Handler β) (fd : Fd)
    (event : EventType) (cause : Cause) : World β σ :=
  w.log (.invoked fd event handler.ticket cause handler.conn
    (w.kernel.conns fd))

def mapUser (w : World β σ) (change : σ → σ) : World β σ :=
  { w with user := change w.user }

/-- `_append_write_buf`. -/
def appendWriteBuf (w : World β σ) (fd : Fd) (data : Bytes) : World β σ :=
  match w.writeBuf[fd]? with
  | none =>
      ({ w with writeBuf := w.writeBuf.insert fd data }.autoRewatch fd).2
  | some queued =>
      { w with writeBuf := w.writeBuf.insert fd (queued ++ data) }

/-- How `write` ends: with a return value, or with the error of `::write`. -/
inductive Outcome where
  | returned (size : Int)
  | failed (errno : Errno)

/-- How many bytes a successful `::write` takes. -/
def count (extra : Nat) (offered : Bytes) : Nat := min (extra + 1) offered.length

/-- The loop of `write` on an open descriptor: `size` bytes have been taken,
`rest` is still to be offered.  A list of answers that has run out stands for
a kernel buffer that stays full. -/
def writeLoop (fd : Fd) (conn : Conn) (size : Nat) (rest : Bytes) :
    List WriteResult → World β σ → Outcome × World β σ
  | [], w =>
      (.returned size,
        ((w.log (.sysWrite conn rest .again)).setAnswers
          { w.kernel.answers with writes := [] }).appendWriteBuf fd rest)
  | .again :: results, w =>
      (.returned size,
        ((w.log (.sysWrite conn rest .again)).setAnswers
          { w.kernel.answers with writes := results }).appendWriteBuf fd rest)
  | .error errno :: results, w =>
      (.failed errno,
        (w.log (.sysWrite conn rest (.error errno))).setAnswers
          { w.kernel.answers with writes := results })
  | .accepted extra :: results, w =>
      let w := w.log (.sysWrite conn rest (.accepted extra))
      if count extra rest < rest.length then
        writeLoop fd conn (size + count extra rest)
          (rest.drop (count extra rest)) results w
      else
        (.returned (size + rest.length : Nat),
          w.setAnswers { w.kernel.answers with writes := results })

/-- The history of a call of `write`, on descriptors without TLS. -/
def logRequest (w : World β σ) (fd : Fd) (data : Bytes) : World β σ :=
  if w.fdSsl.contains fd then w
  else w.log (.requested (w.kernel.conns fd) data)

/-- `write` up to the handling of an error. -/
def submit (w : World β σ) (fd : Fd) (data : Bytes) : Outcome × World β σ :=
  match w.fdSsl[fd]? with
  | some connection =>
      let written := connection.write data w.kernel.answers
      (.returned written.1,
        { w.setAnswers written.2.2 with
          fdSsl := w.fdSsl.insert fd written.2.1 })
  | none =>
      if w.hasWriteBuf fd then (.returned 0, w.appendWriteBuf fd data)
      else
        match w.kernel.conns fd with
        | none => (.failed .ebadf, w)
        | some conn => writeLoop fd conn 0 data w.kernel.answers.writes w

/-- The part of `_finish_write_buf` before it writes. -/
def takeWriteBuf (w : World β σ) (fd : Fd) : World β σ :=
  { w with writeBuf := w.writeBuf.erase fd }

/-- The loop of `read` without TLS.  Errors other than "would block" are
retried. -/
def readLoop (message : Bytes) : List ReadResult → Bytes × List ReadResult
  | [] => (message, [])
  | .again :: results => (message, results)
  | .eof :: results => (message, results)
  | .error :: results => readLoop message results
  | .data bytes :: results => readLoop (message ++ bytes) results

/-- `getsockopt(SO_ERROR)` on a descriptor whose connect has completed. -/
def connectSucceeded (w : World β σ) (flags : Flags) : Bool × World β σ :=
  if flags.epollErr || flags.epollHup then (false, w)
  else if flags.epollOut then
    match w.kernel.answers.soErrors with
    | [] => (false, w)
    | succeeded :: rest =>
        (succeeded, w.setAnswers { w.kernel.answers with soErrors := rest })
  else (false, w)

/-- `_fd_ssl[fd]->handshake()`, true when the descriptor has no TLS. -/
def handshake (w : World β σ) (fd : Fd) : Bool × World β σ :=
  match w.fdSsl[fd]? with
  | none => (true, w)
  | some connection =>
      let shaken := connection.handshake w.kernel.answers
      (shaken.1, { w.setAnswers shaken.2.2 with
        fdSsl := w.fdSsl.insert fd shaken.2.1 })

/-- The `CONNECT` callback of the current descriptor is removed before it is
called. -/
def eraseConnect (w : World β σ) : World β σ :=
  { w with
    fds := w.fds.insert w.currentFd
      (((w.fds[w.currentFd]?).getD EventCB.empty).erase .connect)
    currentCb := w.currentCb.erase .connect }

/-- `handle_events` begins with the events of one batch. -/
def logBatch (w : World β σ) (reported : List Fd) : World β σ :=
  w.log (.batch w.kernel.conns (fun fd => (w.kernel.epoll fd).isSome) reported)

def enter (w : World β σ) (fd : Fd) : World β σ :=
  { w with currentFd := fd }.log (.entered fd (w.fds.contains fd))

def loadCb (w : World β σ) (callbacks : EventCB (Handler β)) : World β σ :=
  { w with currentCb := callbacks }

def leave (w : World β σ) : World β σ :=
  { w with currentFd := -1 }.log .left

/-- `::close`. -/
def sysClose (w : World β σ) (fd : Fd) : World β σ :=
  { w with kernel := w.kernel.closeFd fd }.log
    (.sysClose fd (w.kernel.conns fd) w.writeBuf[fd]?)

/-- The descriptors of `_close_fds` are closed in order. -/
def flushCloseFds (w : World β σ) : List Fd → World β σ
  | [] => { w with closeFds := [] }
  | fd :: rest => flushCloseFds ({ w with closeFds := rest }.sysClose fd) rest

def logHandled (w : World β σ) : World β σ :=
  w.log (.handled w.fds.contains (fun fd => (w.kernel.epoll fd).isSome)
    w.releasing w.kernel.conns)

end World

/-- The ways a run ends early: the process exits, the code does something the
language gives no meaning to, or the run is cut off inside a callback. -/
inductive Stop where
  | exit
  | undefined
  | cut
  deriving DecidableEq, Repr

abbrev EM (β σ : Type) := EStateM Stop (World β σ)

/-- What the program around the event manager does when it is called. -/
structure Dispatch (β σ : Type) where
  invoke : β → Fd → Arg → EM β σ Unit
  wantMessage : β → Bool
  /-- What a subclass does after `EventManager::unwatch`. -/
  unwatched : Fd → σ → σ

namespace EventManager

variable {β σ : Type}

/-- A callback is called. -/
def call (d : Dispatch β σ) (handler : Handler β) (fd : Fd) (event : EventType)
    (cause : Cause) (arg : Arg) : EM β σ Unit := do
  modify (World.logCall · handler fd event cause)
  d.invoke handler.callback fd arg

/-- The part of `unwatch` after the entry is gone: a connect that is given up
gets its callback. -/
def afterUnwatch (d : Dispatch β σ) (fd : Fd)
    (callbacks : EventCB (Handler β)) (noCallback : Bool) : EM β σ Unit := do
  match callbacks .connect, noCallback with
  | some handler, false =>
      call d handler fd .connect .gameOver (.result .gameOver)
  | _, _ => pure ()
  modify (World.mapUser · (d.unwatched fd))

/-- `unwatch`. -/
def unwatch (d : Dispatch β σ) (fd : Fd) (noCallback : Bool := false) :
    EM β σ Bool := do
  let w ← get
  match w.fds[fd]? with
  | none => return false
  | some callbacks =>
      let removed ← modifyGet (World.unregister · fd)
      if removed then
        afterUnwatch d fd callbacks noCallback
        return true
      else throw .exit

/-- `unwatch` where it ends a registration. -/
def endWatch (d : Dispatch β σ) (fd : Fd) (handler : Option (Handler β))
    (byClose : Bool) : EM β σ Bool := do
  modify (World.beginEnd · fd handler byClose)
  unwatch d fd

/-- `close`. -/
def close (d : Dispatch β σ) (fd : Fd) (force : Bool := false) :
    EM β σ Bool := do
  let w ← get
  modify (World.discard · fd force)
  match (w.fds[fd]?).bind (· .close) with
  | some handler =>
      let ret ← endWatch d fd (some handler) true
      if ret || force then modify (World.addCloseFd · fd ret) else pure ()
      call d handler fd .close .close .none
      modify (World.finishEnd · ret)
      return ret
  | none =>
      let ret ← endWatch d fd none true
      if ret || force then modify (World.addCloseFd · fd ret) else pure ()
      modify (World.finishEnd · ret)
      return true

/-- `close_all`, over the keys of a copy of `_fds`. -/
def closeEach (d : Dispatch β σ) : List Fd → EM β σ Unit
  | [] => pure ()
  | fd :: rest => do
      let closed ← close d fd
      if closed then closeEach d rest else throw .exit

/-- `close_all`. -/
def closeAll (d : Dispatch β σ) : EM β σ Bool := do
  let w ← get
  closeEach d w.fds.keys
  return true

/-- `write` after its loop.  Only a broken pipe closes the descriptor. -/
def settle (d : Dispatch β σ) (fd : Fd) : World.Outcome → EM β σ Int
  | .returned size => return size
  | .failed .epipe => do
      let _ ← close d fd
      return -1
  | .failed _ => return -1

/-- `write`, as it is called from outside the event manager. -/
def write (d : Dispatch β σ) (fd : Fd) (data : Bytes) : EM β σ Int := do
  let outcome ← modifyGet fun w => (w.logRequest fd data).submit fd data
  settle d fd outcome

/-- `_finish_write_buf`. -/
def finishWriteBuf (d : Dispatch β σ) (fd : Fd) : EM β σ Bool := do
  let w ← get
  match w.writeBuf[fd]? with
  | none => return true
  | some buf =>
      let outcome ← modifyGet fun w => (w.takeWriteBuf fd).submit fd buf
      let size ← settle d fd outcome
      if size < 0 then return false
      else return decide (size = buf.length)

/-- `read(fd)`, until the descriptor would block. -/
def read (fd : Fd) : EM β σ Bytes := do
  let w ← get
  match w.fdSsl[fd]? with
  | none =>
      let drained := World.readLoop [] w.kernel.answers.reads
      modify fun w => w.setAnswers { w.kernel.answers with reads := drained.2 }
      return drained.1
  | some _ =>
      let drained := SSLConnection.read w.kernel.answers
      modify fun w => w.setAnswers drained.2
      match drained.1 with
      | some message => return message
      | none => throw .exit

/-- The `CONNECT` part of `handle_events`.  The result is false when the
event is finished. -/
def connectStage (d : Dispatch β σ) (flags : Flags) : EM β σ Bool := do
  let w ← get
  match w.currentCb .connect with
  | none => return true
  | some handler =>
      let succeeded ← modifyGet (World.connectSucceeded · flags)
      if succeeded then
        let _ ← modifyGet fun w => w.handshake w.currentFd
        modify World.eraseConnect
        let w ← get
        call d handler w.currentFd .connect .event (.result .ok)
        return true
      else
        modify World.eraseConnect
        let w ← get
        let _ ← unwatch d w.currentFd
        modify (World.log · .refused)
        let w ← get
        call d handler w.currentFd .connect .event (.result .ng)
        return false

/-- The `EPOLLIN` part of `handle_events`. -/
def readStage (d : Dispatch β σ) (flags : Flags) : EM β σ Unit := do
  if flags.epollIn then
    let ready ← modifyGet fun w => w.handshake w.currentFd
    let w ← get
    match ready, w.currentCb .read with
    | true, some handler =>
        if d.wantMessage handler.callback then
          let message ← read w.currentFd
          call d handler w.currentFd .read .event (.message message)
        else call d handler w.currentFd .read .event .none
    | _, _ => pure ()
  else pure ()

/-- The `EPOLLOUT` part of `handle_events`. -/
def writeStage (d : Dispatch β σ) (flags : Flags) : EM β σ Unit := do
  if flags.epollOut then
    let w ← get
    let done ← finishWriteBuf d w.currentFd
    if done then
      let w ← get
      match w.currentCb .write with
      | some handler => call d handler w.currentFd .write .event .none
      | none => modify fun w => (w.autoRewatch w.currentFd).2
    else pure ()
  else pure ()

/-- The `EPOLLERR` part of `handle_events`: without a callback for errors the
event counts as a hang-up. -/
def errorStage (d : Dispatch β σ) (flags : Flags) : EM β σ Flags := do
  if flags.epollErr then
    let w ← get
    match w.currentCb .error with
    | some handler =>
        call d handler w.currentFd .error .event .none
        return flags
    | none => return { flags with epollHup := true }
  else return flags

/-- The `EPOLLRDHUP | EPOLLHUP` part of `handle_events`. -/
def closeStage (d : Dispatch β σ) (flags : Flags) : EM β σ Unit := do
  if flags.epollRdhup || flags.epollHup then
    let w ← get
    match w.currentCb .close with
    | some handler =>
        let removed ← endWatch d w.currentFd (some handler) false
        if removed then
          let w ← get
          modify (World.addCloseFd · w.currentFd true)
          call d handler w.currentFd .close .event .none
        else pure ()
        modify (World.finishEnd · removed)
    | none =>
        let removed ← endWatch d w.currentFd none false
        if removed then
          let w ← get
          modify (World.addCloseFd · w.currentFd true)
        else pure ()
        modify (World.finishEnd · removed)
  else pure ()

/-- What `epoll_wait` returned: an error, `EINTR`, or a batch of events. -/
inductive Waited where
  | failed
  | interrupted
  | events (events : List (Fd × Flags))

/-- One round of the loop of `handle_events`. -/
def handleEvent (d : Dispatch β σ) (fd : Fd) (flags : Flags) :
    EM β σ Unit := do
  modify (World.enter · fd)
  let w ← get
  match w.fds[fd]? with
  | none => pure ()
  | some callbacks =>
      modify (World.loadCb · callbacks)
      let proceed ← connectStage d flags
      if proceed then
        readStage d flags
        writeStage d flags
        let flags ← errorStage d flags
        closeStage d flags
      else pure ()

def handleEach (d : Dispatch β σ) : List (Fd × Flags) → EM β σ Unit
  | [] => pure ()
  | (fd, flags) :: rest => do
      handleEvent d fd flags
      handleEach d rest

/-- `handle_events` on what `epoll_wait` returned. -/
def handleEvents (d : Dispatch β σ) : Waited → EM β σ Unit
  | .failed => throw .exit
  | .interrupted => modify World.logHandled
  | .events events => do
      modify (World.logBatch · (events.map Prod.fst))
      handleEach d events
      modify World.leave
      modify fun w => w.flushCloseFds w.closeFds
      modify World.logHandled

end EventManager

end Universe
