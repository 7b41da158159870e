import Universe.Server
import Universe.Soa

/-!
# Protocols whose handlers answer

`Http`, `Soa` and `WebSocket` as protocols of a server.  Their handlers may
write to and close any descriptor before they return.
-/

namespace Universe

namespace Server

/-- What a handler does to descriptors. -/
inductive Act where
  | write (fd : Fd) (data : Bytes)
  | close (fd : Fd)
  deriving DecidableEq, Repr

section Firing

variable {α β : Type} {m : Type → Type} [Monad m] (host : ServerHost α m)

def act : Act → m Unit
  | .write fd data => do
      let _ ← host.write fd data
      return ()
  | .close fd => do
      let _ ← host.close fd
      return ()

def acts : List Act → m Unit
  | [] => return ()
  | first :: rest => do
      act host first
      acts rest

/-- `fire`, with what the handlers leave and do when so many were fired
before. -/
def fire (outcome : Nat → β × List Act) : m β := do
  let count ← host.firing
  acts host (outcome count).2
  return (outcome count).1

end Firing

end Server

open Server

/-- What the handlers of `ON_REQUEST` leave of a request and its response. -/
abbrev HttpFiring :=
  Nat → HttpRequest → HttpResponse → (HttpRequest × HttpResponse) × List Act

/-- `Http` as a protocol of a server. -/
def Http.service : Service Unit HttpFiring where
  start := ()
  onConnect _ _ _ := pure ()
  onMessage handler host client message :=
    onMessage host.toHost
      (fun r resp => fire host fun count => handler count r resp) client message
  onClose host client := onClose host.toHost client

/-- What the handlers of `ON_REQUEST` leave of a response. -/
abbrev SoaFiring := Nat → SoaRequest → SoaResponse → SoaResponse × List Act

/-- `Soa` as a protocol of a server. -/
def Soa.service (maxSize : Nat) : Service Unit SoaFiring where
  start := ()
  onConnect _ _ _ := pure ()
  onMessage handler host client message :=
    onMessage host.toHost
      (fun r resp => fire host fun count => handler count r resp) maxSize client
      message
  onClose host client := onClose host.toHost client

/-- What the handlers of `ON_MESSAGE` leave of a message. -/
abbrev WebSocketFiring := Nat → WebSocketMessage → WebSocketMessage × List Act

/-- `WebSocket` as a protocol of a server. -/
def WebSocket.service (sha1 : Bytes → Bytes) (maxSize : Nat) :
    Service (Stateful WebSocketState) WebSocketFiring where
  start := ∅
  onConnect _ host client :=
    onConnect (host.stateHost id fun _ stateful => stateful) client
  onMessage handler host client message :=
    onMessage (host.stateHost id fun _ stateful => stateful)
      (fun read => fire host fun count => handler count read) sha1 maxSize client
      message
  onClose host client :=
    onClose (host.stateHost id fun _ stateful => stateful) client

end Universe
