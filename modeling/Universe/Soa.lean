import Universe.Protocol
import Universe.WebSocket.Frames

/-!
# The SOA protocol

A packet is a uuid, the size of its JSON in network byte order, and the JSON.
The server answers every request with a packet that has the same uuid.
-/

namespace Universe

open Incremental

/-- `uuid_t`. -/
structure GUID where
  bytes : Bytes
  size : bytes.length = 16
  deriving DecidableEq

/-- The same byte everywhere. -/
def GUID.filled (byte : UInt8) : GUID :=
  ⟨List.replicate 16 byte, List.length_replicate⟩

namespace GUID

/-- `uuid_compare`. -/
instance : Ord GUID := ⟨fun first second => compare first.bytes second.bytes⟩

instance : Std.TransOrd GUID where
  eq_swap := by
    intro first second
    exact show compare first.bytes second.bytes =
      (compare second.bytes first.bytes).swap from Std.OrientedCmp.eq_swap
  isLE_trans := by
    intro first second third lower upper
    exact show (compare first.bytes third.bytes).isLE from
      Std.TransCmp.isLE_trans (show (compare first.bytes second.bytes).isLE
        from lower) upper

instance : Std.LawfulEqOrd GUID where
  compare_self := by
    intro uuid
    exact show compare uuid.bytes uuid.bytes = .eq from
      Std.ReflCmp.compare_self
  eq_of_compare := by
    rintro ⟨first, _⟩ ⟨second, _⟩ same
    cases Std.LawfulEqCmp.eq_of_compare
      (show compare first second = .eq from same)
    rfl

end GUID

namespace StreamReader

/-- `read_plain` of a `GUID`. -/
def readGuid : StreamReader GUID := fun bytes =>
  if enough : 16 ≤ bytes.length then
    .ok (⟨bytes.take 16, List.length_take_of_le enough⟩, bytes.drop 16)
  else .error .ag

theorem readGuid_eq_ok {bytes rest : Bytes} {uuid : GUID} :
    readGuid bytes = .ok (uuid, rest) ↔ bytes = uuid.bytes ++ rest := by
  unfold readGuid
  constructor
  · intro returned
    split at returned
    · cases returned
      exact (List.take_append_drop 16 bytes).symm
    · cases returned
  · rintro rfl
    obtain ⟨uuid, size⟩ := uuid
    have enough : 16 ≤ (uuid ++ rest).length := by
      rw [List.length_append]
      omega
    have taken : (uuid ++ rest).take 16 = uuid := List.take_left' size
    have dropped : (uuid ++ rest).drop 16 = rest := List.drop_left' size
    rw [dif_pos enough]
    simp only [taken, dropped]

theorem stable_readGuid : Stable .ag readGuid := by
  constructor
  · intro bytes uuid rest returned more
    rw [readGuid_eq_ok] at returned ⊢
    rw [returned, List.append_assoc]
  · intro bytes stop stopped different
    unfold readGuid at stopped
    split at stopped
    · cases stopped
    · cases stopped
      exact absurd rfl different

end StreamReader

structure SoaRequest where
  client : Fd
  uuid : GUID
  json : Bytes
  deriving DecidableEq

/-- `SoaRequest::to_string`. -/
def SoaRequest.toBytes (uuid : GUID) (json : Bytes) : Bytes :=
  uuid.bytes ++ Utils.hton (littleEndian 8 json.length) ++ json

structure SoaResponse where
  uuid : GUID
  json : Bytes
  deriving DecidableEq

/-- `SoaResponse::to_string`. -/
def SoaResponse.toBytes (response : SoaResponse) : Bytes :=
  SoaRequest.toBytes response.uuid response.json

namespace Soa

open StreamReader

/-- A packet.  A string of more than `maxSize` bytes cannot be made. -/
def readPacket (maxSize : Nat) : StreamReader (Option (GUID × Bytes)) := do
  let uuid ← readGuid
  let jsonSize ← readNetwork 8
  if maxSize < jsonSize then return none
  else
    let json ← readSize jsonSize
    return some (uuid, json)

/-- `parse_request`. -/
def parseRequest (maxSize : Nat) (client : Fd) :
    StreamReader (Option SoaRequest) := do
  let packet ← readPacket maxSize
  return packet.map fun (uuid, json) => { client, uuid, json }

variable {m : Type → Type} [Monad m] (host : Host m)
  (fire : SoaRequest → SoaResponse → m SoaResponse)

/-- The body of the loop of `on_message`, with the response that `ON_REQUEST`
leaves. -/
def answer (client : Fd) (r : SoaRequest) : m Bool := do
  let resp ← fire r { uuid := r.uuid, json := [] }
  let _ ← host.write client resp.toBytes
  return true

/-- `on_message`. -/
def onMessage (maxSize : Nat) (client : Fd) (message : Bytes) : m Unit :=
  Protocol.onItems host (parseRequest maxSize client)
    (answer host fire client) client message

/-- `on_close`. -/
def onClose (client : Fd) : m Unit := host.eraseBuf client

theorem stable_readPacket (maxSize : Nat) : Stable .ag (readPacket maxSize) := by
  refine stable_bind stable_readGuid fun uuid => ?_
  refine stable_bind (WebSocket.stable_readNetwork 8) fun jsonSize => ?_
  refine stable_ite (stable_pure _) ?_
  exact stable_bind (stable_readSize jsonSize) fun json => stable_pure _

theorem stable_parseRequest (maxSize : Nat) (client : Fd) :
    Stable .ag (parseRequest maxSize client) :=
  stable_bind (stable_readPacket maxSize) fun _ => stable_pure _

/-- A packet is read as it was made. -/
theorem readPacket_toBytes {maxSize : Nat} (isSize : maxSize < 2 ^ 64)
    (uuid : GUID) {json : Bytes} (small : json.length ≤ maxSize) :
    readPacket maxSize (SoaRequest.toBytes uuid json) =
      .ok (some (uuid, json), []) := by
  have length : json.length < 256 ^ 8 := by omega
  have guid : readGuid (SoaRequest.toBytes uuid json) = .ok (uuid,
      Utils.hton (littleEndian 8 json.length) ++ json) := by
    rw [readGuid_eq_ok, SoaRequest.toBytes, List.append_assoc]
  have size : readNetwork 8 (Utils.hton (littleEndian 8 json.length) ++ json) =
      .ok (json.length, json) := readNetwork_hton length json
  have read : readSize json.length json = .ok (json, []) :=
    readSize_eq_ok.mpr ⟨(List.append_nil json).symm, rfl⟩
  unfold readPacket
  rw [bind_of_ok guid, bind_of_ok size, if_neg (Nat.not_lt.mpr small),
    bind_of_ok read]
  rfl

theorem parseRequest_toBytes {maxSize : Nat} (isSize : maxSize < 2 ^ 64)
    (client : Fd) (uuid : GUID) {json : Bytes}
    (small : json.length ≤ maxSize) :
    parseRequest maxSize client (SoaRequest.toBytes uuid json) =
      .ok (some { client, uuid, json }, []) := by
  unfold parseRequest
  rw [bind_of_ok (readPacket_toBytes isSize uuid small)]
  rfl

end Soa

end Universe
