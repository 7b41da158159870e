import Mathlib.Logic.Function.Basic

/-!
# The operating system below the event manager

File descriptors, the interest list of one epoll instance and the results of
the system calls.  What the outside world decides (how many bytes `::write`
takes, what `::read` finds, which number a new descriptor gets) is read off
lists of answers, so that a statement over all kernels is a statement over
all such lists.  Every opening of a descriptor gets a fresh `Conn`, which
tells apart two connections that use the same number one after the other.
-/

namespace Universe

abbrev Fd := Int

/-- One opening of a descriptor. -/
abbrev Conn := Nat

abbrev Bytes := List UInt8

/-- The event mask of `epoll_ctl`. -/
structure Interest where
  epollIn : Bool := false
  epollOut : Bool := false
  epollRdhup : Bool := false
  epollHup : Bool := false
  epollEt : Bool := false
  deriving DecidableEq, Repr

/-- The event mask reported by `epoll_wait`. -/
structure Flags where
  epollIn : Bool := false
  epollOut : Bool := false
  epollErr : Bool := false
  epollRdhup : Bool := false
  epollHup : Bool := false
  deriving DecidableEq, Repr

inductive EpollOp where
  | add
  | mod
  | del
  deriving DecidableEq, Repr

inductive Errno where
  | epipe
  | ebadf
  | other
  deriving DecidableEq, Repr

/-- What `::write` answers: `accepted n` takes `n + 1` bytes, or all of them
when fewer are offered. -/
inductive WriteResult where
  | accepted (extra : Nat)
  | again
  | error (errno : Errno)
  deriving DecidableEq, Repr

/-- What `::read` or `SSL_read` answers. -/
inductive ReadResult where
  | data (bytes : Bytes)
  | again
  | eof
  | error
  deriving DecidableEq, Repr

/-- What a non-blocking `::connect` answers. -/
inductive ConnectStatus where
  | connected
  | inProgress
  | failed
  deriving DecidableEq, Repr

/-- The answers of the operating system that are still to come. -/
structure Answers where
  writes : List WriteResult := []
  reads : List ReadResult := []
  /-- `getsockopt(SO_ERROR)`: whether it reports that the connect succeeded. -/
  soErrors : List Bool := []
  /-- The numbers `socket` and `accept` hand out next. -/
  numbers : List Fd := []
  connects : List ConnectStatus := []
  sslHandshakes : List Bool := []
  sslWrites : List Int := []
  sslReads : List ReadResult := []

structure Kernel where
  /-- The open descriptors. -/
  conns : Fd → Option Conn
  /-- The interest list of the epoll instance. -/
  epoll : Fd → Option Interest
  nextConn : Conn
  answers : Answers

namespace Kernel

def boot (answers : Answers) : Kernel :=
  { conns := fun _ => none
    epoll := fun _ => none
    nextConn := 0
    answers := answers }

/-- `epoll_ctl`: whether it succeeded, and the interest list after it. -/
def epollCtl (kernel : Kernel) (op : EpollOp) (fd : Fd)
    (interest : Interest) : Bool × Kernel :=
  match op with
  | .add =>
      if (kernel.conns fd).isSome && (kernel.epoll fd).isNone then
        (true, { kernel with
          epoll := Function.update kernel.epoll fd (some interest) })
      else (false, kernel)
  | .mod =>
      if (kernel.epoll fd).isSome then
        (true, { kernel with
          epoll := Function.update kernel.epoll fd (some interest) })
      else (false, kernel)
  | .del =>
      if (kernel.epoll fd).isSome then
        (true, { kernel with epoll := Function.update kernel.epoll fd none })
      else (false, kernel)

/-- A number may be handed out when it is a descriptor that is not open. -/
def Free (kernel : Kernel) (fd : Fd) : Prop :=
  0 ≤ fd ∧ kernel.conns fd = none

instance (kernel : Kernel) (fd : Fd) : Decidable (kernel.Free fd) :=
  inferInstanceAs (Decidable (_ ∧ _))

/-- A new descriptor with number `fd`. -/
def openFd (kernel : Kernel) (fd : Fd) : Kernel :=
  { kernel with
    conns := Function.update kernel.conns fd (some kernel.nextConn)
    nextConn := kernel.nextConn + 1 }

/-- `::close`.  The last reference to a descriptor takes its entry of the
interest list along; a number that is not open is `EBADF`. -/
def closeFd (kernel : Kernel) (fd : Fd) : Kernel :=
  { kernel with
    conns := Function.update kernel.conns fd none
    epoll := Function.update kernel.epoll fd none }

/-- `dup2(source, target)` followed by `::close(source)`: the connection of
`source` moves to `target`, whose previous connection is gone. -/
def moveFd (kernel : Kernel) (source target : Fd) : Kernel :=
  { kernel with
    conns := Function.update (Function.update kernel.conns target
      (kernel.conns source)) source none
    epoll := Function.update (Function.update kernel.epoll target none)
      source none }

end Kernel

end Universe
