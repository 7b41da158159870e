import Universe.Library.Stepwise
import Universe.EventManager

/-!
# Programs around the event manager

The program that uses the event manager is a script of its operations, and so
is the body of a callback.  Quantifying over both is quantifying over all code
that uses the event manager.

Callbacks nest: `App.dispatch` allows them to a given depth and cuts the run
off below it, in the state it has reached then.
-/

namespace Universe

namespace World

variable {β σ : Type}

/-- `accept` or `socket` returns `fd`.  The kernel hands out only numbers
that are not open. -/
def acceptFd (w : World β σ) (fd : Fd) : World β σ :=
  if w.kernel.Free fd then
    { w with kernel := w.kernel.openFd fd }.log
      (.opened fd w.kernel.nextConn w.writeBuf[fd]? (w.fds.contains fd))
  else w

end World

/-- The operations of the event manager, the arrival of a new descriptor and
the changes of the protocol objects. -/
inductive Op (β σ : Type) where
  | accept (fd : Fd)
  | watchEvent (fd : Fd) (event : EventType) (callback : β) (et : Bool)
  | watch (fd : Fd) (callbacks : EventCB β) (reWatch et : Bool)
  | autoRewatch (fd : Fd) (et : Bool)
  | unwatch (fd : Fd) (noCallback : Bool)
  | close (fd : Fd) (force : Bool)
  | closeAll
  | write (fd : Fd) (data : Bytes)
  | handleEvents (waited : EventManager.Waited)
  | user (change : σ → σ)

/-- Any code that uses the event manager. -/
abbrev Program (β σ : Type) := Stepwise.Script (Op β σ) Int (World β σ)

namespace EventManager

variable {β σ : Type}

def perform (d : Dispatch β σ) : Op β σ → EM β σ Int
  | .accept fd => do
      modify (World.acceptFd · fd)
      return fd
  | .watchEvent fd event callback et => do
      let ok ← modifyGet (World.watchEvent · fd event callback et)
      return ok.toInt
  | .watch fd callbacks reWatch et => do
      let ok ← modifyGet (World.watch · fd callbacks reWatch et)
      return ok.toInt
  | .autoRewatch fd et => do
      let ok ← modifyGet (World.autoRewatch · fd et)
      return ok.toInt
  | .unwatch fd noCallback => do
      let ok ← unwatch d fd noCallback
      return ok.toInt
  | .close fd force => do
      let ok ← close d fd force
      return ok.toInt
  | .closeAll => do
      let ok ← closeAll d
      return ok.toInt
  | .write fd data => write d fd data
  | .handleEvents waited => do
      handleEvents d waited
      return 0
  | .user change => do
      modify fun w => { w with user := change w.user }
      return 0

end EventManager

def Program.run {β σ : Type} (d : Dispatch β σ) (program : Program β σ) :
    EM β σ Unit :=
  Stepwise.Script.run .exit (EventManager.perform d) program

/-- The code of all callbacks. -/
structure App (β σ : Type) where
  code : Dispatch β σ → β → Fd → Arg → EM β σ Unit
  wantMessage : β → Bool
  unwatched : Fd → σ → σ

namespace App

variable {β σ : Type}

/-- Callbacks that nest at most `depth` deep. -/
def dispatch (app : App β σ) : (depth : Nat) → Dispatch β σ
  | 0 => ⟨fun _ _ _ => throw .cut, app.wantMessage, app.unwatched⟩
  | depth + 1 =>
      ⟨app.code (app.dispatch depth), app.wantMessage, app.unwatched⟩

/-- Arbitrary callbacks on a plain event manager. -/
def ofPrograms (body : β → Fd → Arg → World β σ → Program β σ)
    (wantMessage : β → Bool) : App β σ :=
  { code := fun d callback fd arg => do
      let w ← get
      (body callback fd arg w).run d
    wantMessage := wantMessage
    unwatched := fun _ user => user }

end App

end Universe
