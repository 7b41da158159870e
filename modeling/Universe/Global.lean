import Universe.ClientServer
import Universe.Library.Stepwise

/-!
# Writes of a worker to a client of its parent

A worker that has the session id of a client it does not own writes a frame to
its parent: the size of the frame, the session id, and the data.  `Global` is
the protocol by which the parent reads these frames.  It keeps the part of a
frame in its own buffer, but looks for it in that of the server, and it skips
bytes it has already read.  So the last frame of a message is never written to
its client.
-/

namespace Universe

open Stepwise
open Std (ExtTreeMap)

/-- What `Global` asks for. -/
structure GlobalHost (m : Type → Type) where
  /-- `append_buf` of the server. -/
  appendBuf : Fd → Bytes → m Bytes
  /-- Its own `need_buf`. -/
  needBuf : Fd → Bytes → Bool → m Bool
  /-- `write_global` of the server. -/
  writeGlobal : SessionId → Bytes → m Unit
  exit : m Unit

namespace Global

variable {m : Type → Type} [Monad m] (host : GlobalHost m)

/-- `on_message`, up to this depth of calls of itself.  A message without a
session id is too short for `substr`.  The count of the data is unsigned, and
it is larger than any string when it should be below zero. -/
def onMessage : (depth : Nat) → Fd → Bytes → m Unit
  | 0, _, _ => host.exit
  | depth + 1, child, message => do
      let message ← host.appendBuf child message
      match Protocol.readUint32 message with
      | none => do
          let _ ← host.needBuf child message true
          return ()
      | some (totalSize, rest) => do
          let needed ← host.needBuf child rest (rest.length < totalSize.toNat)
          if needed then return ()
          else
            match Protocol.readUint32 rest with
            | none => host.exit
            | some (sessionId, rest) =>
                if rest.length < 8 then host.exit
                else
                  let data := rest.drop 8
                  if totalSize.toNat < 8 || data.length < totalSize.toNat - 8 then
                    host.exit
                  else
                    host.writeGlobal sessionId (data.take (totalSize.toNat - 8))
                    if totalSize.toNat < message.length then
                      onMessage depth child (message.drop totalSize.toNat)
                    else return ()

/-- A call of `write_global`. -/
abbrev Call := SessionId × Bytes

/-- The parent, and what it was told to write. -/
structure Parent where
  server : Bufferable := ∅
  own : Bufferable := ∅
  calls : List Call := []

abbrev M := EStateM Unit Parent

def parentHost : GlobalHost M where
  appendBuf id message := modifyGet fun s =>
    let appended := s.server.appendBuf id message
    (appended.1, { s with server := appended.2 })
  needBuf id message cond := modifyGet fun s =>
    let needed := s.own.needBuf id message cond
    (needed.1, { s with own := needed.2 })
  writeGlobal sessionId data := modify fun s =>
    { s with calls := s.calls ++ [(sessionId, data)] }
  exit := throw ()

/-- One delivery of a child after the other. -/
def deliver (depth : Nat) (child : Fd) : List Bytes → M Unit
  | [] => return ()
  | piece :: pieces => do
      onMessage parentHost depth child piece
      deliver depth child pieces

/-- A child, and what it has written. -/
structure Child (τ : Type) where
  server : ClientServer τ
  written : List (Fd × Bytes) := []

/-- A child whose parent is at this descriptor. -/
def childHost {τ : Type} (parent : Fd) : SessionHost τ (StateM (Child τ)) where
  own change := modifyGet fun s =>
    ((change s.server).1, { s with server := (change s.server).2 })
  write fd data := modifyGet fun s =>
    (data.length, { s with written := s.written ++ [(fd, data)] })
  connectParent := pure parent
  watchRead _ := pure ()
  task _ _ := pure ()
  exit := pure ()

theorem childHost_own {τ β : Type} {parent : Fd}
    (change : ClientServer τ → β × ClientServer τ) (s : Child τ) :
    (childHost parent).own change s =
      ((change s.server).1, { s with server := (change s.server).2 }) :=
  rfl

/-- The calls a child makes. -/
def request {τ : Type} (parent : Fd) : List Call → StateM (Child τ) Unit
  | [] => return ()
  | (sessionId, data) :: calls => do
      let _ ← ClientServer.writeGlobal (childHost parent) sessionId data
      request parent calls

/-- The bytes that were written to a descriptor. -/
def channel (fd : Fd) (written : List (Fd × Bytes)) : Bytes :=
  (written.filter (·.1 = fd)).flatMap Prod.snd

end Global

end Universe
