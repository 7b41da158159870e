import Universe.EventManager.Program

/-!
# The scheduler

A timer is a descriptor that can be read whenever its time has come.
`Scheduler` watches it as it would watch a connection: the `READ` callback of
the timer reads how often it went off, calls what was scheduled, and closes the
timer if that was to be done once.

A program may use the event manager beside it in every way, but it cannot write
down the callback of a timer, which is a lambda of `schedule`.
-/

namespace Universe

/-- `struct timespec`. -/
structure Timespec where
  tvSec : Int := 0
  tvNsec : Int := 0
  deriving DecidableEq, Repr

def Timespec.isZero (ts : Timespec) : Bool := ts.tvSec == 0 && ts.tvNsec == 0

/-- `struct itimerspec`. -/
structure Itimerspec where
  itInterval : Timespec := {}
  itValue : Timespec := {}
  deriving DecidableEq, Repr

/-- What the kernel answers to `timerfd_create` and `timerfd_settime`. -/
inductive TimerFd where
  | refused
  /-- The timer cannot be set, and its descriptor stays open. -/
  | unset (fd : Fd)
  | armed (fd : Fd)
  deriving DecidableEq, Repr

/-- A callback of the program, or that of a timer.  Timers are numbered in the
order in which they were made. -/
inductive Scheduled (κ : Type) where
  | stored (callback : κ)
  | timer (serial : Nat) (once : Bool) (callback : κ)

/-- What becomes of timers. -/
inductive Alarm where
  /-- The callback of a timer is called. -/
  | rang (serial : Nat) (once : Bool)
  /-- `unschedule` has returned for the timer that was on its descriptor. -/
  | stopped (serial : Nat)
  deriving DecidableEq, Repr

/-- The protocol objects, with what was recorded about timers, which the program
cannot read. -/
structure Timers (σ : Type) where
  user : σ
  serial : Nat := 0
  alarms : List Alarm := []

/-- What a program does with a scheduler. -/
inductive SchedulerOp (κ σ : Type) where
  | plain (op : Op κ σ)
  | schedule (created : Itimerspec → TimerFd) (callback : κ) (its : Itimerspec)
  | scheduleOnce (created : Itimerspec → TimerFd) (callback : κ) (ts : Timespec)
  | unschedule (timerFd : Fd)

namespace Timers

variable {κ σ : Type}

def ring (serial : Nat) (once : Bool) (timers : Timers σ) : Timers σ :=
  { timers with alarms := .rang serial once :: timers.alarms }

def stop (serial : Nat) (timers : Timers σ) : Timers σ :=
  { timers with alarms := .stopped serial :: timers.alarms }

def mapUser (change : σ → σ) (timers : Timers σ) : Timers σ :=
  { timers with user := change timers.user }

end Timers

/-- A world with timers. -/
abbrev Clock (κ σ : Type) := World (Scheduled κ) (Timers σ)

namespace Scheduler

variable {κ σ : Type}

/-- The number of a timer and whether it goes off once. -/
def timerOf : Scheduled κ → Option (Nat × Bool)
  | .stored _ => none
  | .timer serial once _ => some (serial, once)

/-- The timer whose callback is among these. -/
def timerIn (callbacks : EventCB (Handler (Scheduled κ))) :
    Option (Nat × Bool) :=
  (callbacks .read).bind fun handler => timerOf handler.callback

/-- The timer on a descriptor. -/
def timerAt (w : Clock κ σ) (fd : Fd) : Option (Nat × Bool) :=
  (w.fds[fd]?).bind timerIn

/-- `read(timer_fd, &count, sizeof(count))`, whose result is not looked at. -/
def readCount (w : Clock κ σ) (timerFd : Fd) : Clock κ σ :=
  match w.fdSsl[timerFd]? with
  | none => w.setAnswers
      { w.kernel.answers with reads := w.kernel.answers.reads.tail }
  | some _ => w.setAnswers
      { w.kernel.answers with sslReads := w.kernel.answers.sslReads.tail }

/-- `_create_timerfd`.  A descriptor that cannot be set is left open. -/
def createTimerfd : TimerFd → EM (Scheduled κ) (Timers σ) Int
  | .refused => return -1
  | .unset fd => do
      modify (World.acceptFd · fd)
      return -1
  | .armed fd => do
      let w ← get
      if w.kernel.Free fd then
        modify (World.acceptFd · fd)
        return fd
      else return -1

/-- The next number of a timer. -/
def number (w : Clock κ σ) : Nat × Clock κ σ :=
  (w.user.serial, { w with user := { w.user with serial := w.user.serial + 1 } })

/-- The callbacks of a timer. -/
def timerCb (serial : Nat) (once : Bool) (callback : κ) :
    EventCB (Scheduled κ) :=
  EventCB.empty.set .read (.timer serial once callback)

/-- A timer is made and watched. -/
def start (answer : TimerFd) (once : Bool) (callback : κ) :
    EM (Scheduled κ) (Timers σ) Int := do
  let timerFd ← createTimerfd answer
  if timerFd < 0 then return timerFd
  else
    let serial ← modifyGet number
    let _ ← modifyGet (World.watch · timerFd (timerCb serial once callback))
    return timerFd

/-- `schedule(cb, its)`.  Without an interval the timer goes off once, and with
no time at all the process exits. -/
def schedule (created : Itimerspec → TimerFd) (callback : κ)
    (its : Itimerspec) : EM (Scheduled κ) (Timers σ) Int :=
  if its.itInterval.isZero then
    if its.itValue.isZero then throw .exit
    else start (created its) true callback
  else
    let its := if its.itValue.isZero then
      { its with itValue := { its.itValue with tvNsec := 1 } } else its
    start (created its) false callback

/-- `schedule_once(cb, ts)`. -/
def scheduleOnce (created : Itimerspec → TimerFd) (callback : κ)
    (ts : Timespec) : EM (Scheduled κ) (Timers σ) Int :=
  schedule created callback { itValue := ts }

/-- The timer that was on a descriptor is recorded. -/
def recordStop (timer : Option (Nat × Bool)) (w : Clock κ σ) : Clock κ σ :=
  match timer with
  | some (serial, _) => w.mapUser (Timers.stop serial)
  | none => w

/-- `unschedule`. -/
def unschedule (d : Dispatch (Scheduled κ) (Timers σ)) (timerFd : Fd) :
    EM (Scheduled κ) (Timers σ) Unit := do
  let w ← get
  let _ ← EventManager.close d timerFd
  modify (recordStop (timerAt w timerFd))

/-- An operation of the event manager on a world with timers. -/
def lift : Op κ σ → Op (Scheduled κ) (Timers σ)
  | .accept fd => .accept fd
  | .watchEvent fd event callback et => .watchEvent fd event (.stored callback) et
  | .watch fd callbacks reWatch et =>
      .watch fd (callbacks.map .stored) reWatch et
  | .autoRewatch fd et => .autoRewatch fd et
  | .unwatch fd noCallback => .unwatch fd noCallback
  | .close fd force => .close fd force
  | .closeAll => .closeAll
  | .write fd data => .write fd data
  | .handleEvents waited => .handleEvents waited
  | .user change => .user (Timers.mapUser change)

def perform (d : Dispatch (Scheduled κ) (Timers σ)) :
    SchedulerOp κ σ → EM (Scheduled κ) (Timers σ) Int
  | .plain op => EventManager.perform d (lift op)
  | .schedule created callback its => schedule created callback its
  | .scheduleOnce created callback ts => scheduleOnce created callback ts
  | .unschedule timerFd => do
      unschedule d timerFd
      return 0

/-- Any code that uses a scheduler. -/
abbrev Code (κ σ : Type) := Stepwise.Script (SchedulerOp κ σ) Int (Clock κ σ)

/-- What a program is made of: the code of its callbacks for descriptors and
for timers. -/
structure Parts (κ σ : Type) where
  body : κ → Fd → Arg → Clock κ σ → Code κ σ
  alarm : κ → Clock κ σ → Code κ σ
  wantMessage : κ → Bool

namespace Parts

variable (parts : Parts κ σ)

/-- The callback of a timer around that it was scheduled with. -/
def ring (d : Dispatch (Scheduled κ) (Timers σ)) (serial : Nat) (once : Bool)
    (callback : κ) (timerFd : Fd) : EM (Scheduled κ) (Timers σ) Unit := do
  modify (readCount · timerFd)
  modify (World.mapUser · (Timers.ring serial once))
  let w ← get
  (parts.alarm callback w).run .exit (perform d)
  if once then
    let _ ← EventManager.close d timerFd
    return ()
  else return ()

def app : App (Scheduled κ) (Timers σ) where
  code d callback fd arg :=
    match callback with
    | .stored callback => do
        let w ← get
        (parts.body callback fd arg w).run .exit (perform d)
    | .timer serial once callback => parts.ring d serial once callback fd
  wantMessage
    | .stored callback => parts.wantMessage callback
    | .timer .. => false
  unwatched _ timers := timers

end Parts

end Scheduler

end Universe
