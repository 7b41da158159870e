import Std.Data.ExtTreeMap
import Universe.Soa

/-!
# The client of the SOA protocol

`P::Client::Soa` keeps a callback for every request that was sent on a
connection, under the uuid of the request.  A packet with another uuid is
pushed.
-/

namespace Universe

open Incremental
open Std (ExtTreeMap)

/-- `_callbacks`, with the names of the callbacks. -/
abbrev SoaCallbacks (κ : Type) := ExtTreeMap Fd (ExtTreeMap GUID κ)

namespace SoaCallbacks

variable {κ : Type} (callbacks : SoaCallbacks κ)

/-- `add_callback`. -/
def addCallback (requestId : GUID) (fd : Fd) (callback : κ) : SoaCallbacks κ :=
  match callbacks[fd]? with
  | none =>
      callbacks.insert fd ((∅ : ExtTreeMap GUID κ).insert requestId callback)
  | some requests => callbacks.insert fd (requests.insert requestId callback)

/-- The callback for a packet of this connection. -/
def find (fd : Fd) (uuid : GUID) : Option κ :=
  match callbacks[fd]? with
  | none => none
  | some requests => requests[uuid]?

/-- The callback is called no more. -/
def eraseCallback (fd : Fd) (uuid : GUID) : SoaCallbacks κ :=
  match callbacks[fd]? with
  | none => callbacks
  | some requests => callbacks.insert fd (requests.erase uuid)

end SoaCallbacks

namespace SoaClient

open StreamReader

/-- What the client of a SOA server asks for: its callbacks, the calls of one
of them, and `ON_PACKET_OK`. -/
structure Host (κ : Type) (m : Type → Type) extends Universe.Host m where
  callbacks : {α : Type} → (SoaCallbacks κ → α × SoaCallbacks κ) → m α
  pushCallback : m (Option κ)
  call : κ → Bytes → m Unit
  firePacketOk : GUID → m Unit

/-- `parse_response`. -/
def parseResponse (maxSize : Nat) : StreamReader (Option SoaResponse) := do
  let packet ← Soa.readPacket maxSize
  return packet.map fun (uuid, json) => { uuid, json }

variable {κ : Type} {m : Type → Type} [Monad m] (host : Host κ m)

/-- The callbacks of the connection that were there when the message came.  It
is undefined what an iterator to erased ones leads to. -/
def lookup (client : Fd) (known : Bool) (uuid : GUID) : m (Option κ) := do
  if known then
    let still ← host.callbacks fun callbacks =>
      (callbacks.contains client, callbacks)
    if still then
      host.callbacks fun callbacks => (callbacks.find client uuid, callbacks)
    else host.exit
  else return none

/-- The body of the loop of `on_message`. -/
def dispatch (client : Fd) (known : Bool) (r : SoaResponse) : m Bool := do
  match ← lookup host client known r.uuid with
  | none =>
      match ← host.pushCallback with
      | none => return true
      | some callback => do
          host.call callback r.json
          host.firePacketOk r.uuid
          return true
  | some callback => do
      host.call callback r.json
      let still ← host.callbacks fun callbacks =>
        (callbacks.contains client, callbacks.eraseCallback client r.uuid)
      if still then
        host.firePacketOk r.uuid
        return true
      else host.exit

/-- `on_message`. -/
def onMessage (maxSize : Nat) (client : Fd) (message : Bytes) : m Unit := do
  let known ← host.callbacks fun callbacks =>
    (callbacks.contains client, callbacks)
  Protocol.onItems host.toHost (parseResponse maxSize)
    (dispatch host client known) client message

/-- `on_close`. -/
def onClose (client : Fd) : m Unit := do
  host.eraseBuf client
  host.callbacks fun callbacks => ((), callbacks.erase client)

theorem stable_parseResponse (maxSize : Nat) :
    Stable .ag (parseResponse maxSize) :=
  stable_bind (Soa.stable_readPacket maxSize) fun _ => stable_pure _

theorem parseResponse_toBytes {maxSize : Nat} (isSize : maxSize < 2 ^ 64)
    (uuid : GUID) {json : Bytes} (small : json.length ≤ maxSize) :
    parseResponse maxSize (SoaRequest.toBytes uuid json) =
      .ok (some { uuid, json }, []) := by
  unfold parseResponse
  rw [bind_of_ok (Soa.readPacket_toBytes isSize uuid small)]
  rfl

end SoaClient

namespace SoaCallbacks

variable {κ : Type} {callbacks : SoaCallbacks κ} {fd : Fd} {uuid : GUID}

theorem find_addCallback (requestId : GUID) (callback : κ) :
    (callbacks.addCallback requestId fd callback).find fd uuid =
      if requestId = uuid then some callback else callbacks.find fd uuid := by
  unfold addCallback find
  cases found : callbacks[fd]? with
  | none => simp [ExtTreeMap.getElem?_insert]
  | some requests => simp [ExtTreeMap.getElem?_insert]

theorem find_eraseCallback (erased : GUID) :
    (callbacks.eraseCallback fd erased).find fd uuid =
      if erased = uuid then none else callbacks.find fd uuid := by
  unfold eraseCallback find
  cases found : callbacks[fd]? with
  | none => simp [found]
  | some requests => simp [ExtTreeMap.getElem?_erase]

theorem contains_eraseCallback (erased : GUID) :
    (callbacks.eraseCallback fd erased).contains fd = callbacks.contains fd := by
  unfold eraseCallback
  cases found : callbacks[fd]? with
  | none => rfl
  | some requests =>
      simp [ExtTreeMap.contains_eq_isSome_getElem?, found]

/-- There is nothing to erase. -/
theorem eraseCallback_of_missing (missing : callbacks.find fd uuid = none) :
    callbacks.eraseCallback fd uuid = callbacks := by
  unfold find at missing
  unfold eraseCallback
  cases found : callbacks[fd]? with
  | none => rfl
  | some requests =>
      rw [found] at missing
      have same : requests.erase uuid = requests := by
        ext1 other
        by_cases here : uuid = other
        · subst here
          simpa using missing.symm
        · simp [ExtTreeMap.getElem?_erase, here]
      dsimp only
      rw [same]
      ext1 other
      by_cases here : fd = other
      · subst here
        simp [found]
      · simp [ExtTreeMap.getElem?_insert, here]

theorem find_of_absent (absent : callbacks.contains fd = false) :
    callbacks.find fd uuid = none := by
  unfold find
  cases found : callbacks[fd]? with
  | none => rfl
  | some requests =>
      rw [ExtTreeMap.contains_eq_isSome_getElem?, found] at absent
      cases absent

end SoaCallbacks

end Universe
