import Universe.Codec.Base64
import Universe.Http

/-!
# The WebSocket protocol

`WebSocket` answers one HTTP request with status 101 and reads frames from
then on.  `SHA1` is not part of the source.
-/

namespace Universe

open Incremental

/-- The bytes of an unsigned integer in memory. -/
def littleEndian : (size : Nat) → Nat → Bytes
  | 0, _ => []
  | size + 1, value => UInt8.ofNat value :: littleEndian size (value / 256)

def ofLittleEndian : Bytes → Nat
  | [] => 0
  | byte :: rest => byte.toNat + 256 * ofLittleEndian rest

/-- `hton`, on the bytes in memory. -/
def Utils.hton (bytes : Bytes) : Bytes := bytes.reverse

/-- `read_plain<true>` of an unsigned integer of this size. -/
def StreamReader.readNetwork (size : Nat) : StreamReader Nat := do
  let bytes ← readSize size
  return ofLittleEndian (Utils.hton bytes)

/-- What a protocol with states asks for. -/
structure StateHost (State : Type) (m : Type → Type) extends Host m where
  getState : Fd → m State
  setState : Fd → State → m Unit
  eraseState : Fd → m Unit

inductive WebSocketState where
  | handshake
  | opened
  deriving DecidableEq, Inhabited, Repr

structure WebSocketMessage where
  client : Fd
  opcode : UInt8
  payload : Bytes
  deriving DecidableEq, Repr

namespace HttpToken

def secWebsocketKey : Bytes := ascii "Sec-WebSocket-Key"

end HttpToken

namespace WebSocket

open StreamReader

def opcodeContinueFrame : UInt8 := 0x0

def opcodeTextFrame : UInt8 := 0x1

def opcodeBinaryFrame : UInt8 := 0x2

def opcodeConnectionClose : UInt8 := 0x8

def opcodePing : UInt8 := 0x9

def opcodePong : UInt8 := 0xA

def closeNormal : UInt16 := 1000

def closeProtocolError : UInt16 := 1002

def guid : Bytes := ascii "258EAFA5-E914-47DA-95CA-C5AB0DC85B11"

/-- The length as `send` writes it. -/
def lengthBytes (payloadLen : Nat) : Bytes :=
  if 0xffff < payloadLen then 0x7f :: Utils.hton (littleEndian 8 payloadLen)
  else if 0x7d < payloadLen then 0x7e :: Utils.hton (littleEndian 2 payloadLen)
  else [UInt8.ofNat payloadLen]

def firstByte (opcode : UInt8) (fin : Bool) : UInt8 :=
  ((if fin then 1 else 0 : UInt8) <<< 7) + opcode

/-- What `send` writes. -/
def frame (payload : Bytes) (opcode : UInt8) (fin : Bool) : Bytes :=
  firstByte opcode fin :: lengthBytes payload.length ++ payload

/-- The payload under its mask. -/
def masked (maskValue payload : Bytes) : Bytes :=
  payload.mapIdx fun index byte => byte ^^^ maskValue.getD (index % 4) 0

structure Frame where
  fin : Bool
  opcode : UInt8
  payload : Bytes
  deriving DecidableEq, Repr

def readLength (secondByte : UInt8) : StreamReader Nat :=
  if secondByte &&& 0x7f = 0x7e then readNetwork 2
  else if secondByte &&& 0x7f = 0x7f then readNetwork 8
  else pure (secondByte &&& 0x7f).toNat

/-- One frame.  A string of more than `maxSize` bytes cannot be made, which
throws something else than a `ReaderException`. -/
def readFrame (maxSize : Nat) : StreamReader (Option Frame) := do
  let firstByte ← readChar
  let secondByte ← readChar
  let payloadLen ← readLength secondByte
  let maskValue ← (if secondByte >>> 7 ≠ 0 then readSize 4 else pure [])
  if maxSize < payloadLen then return none
  else
    let payload ← readSize payloadLen
    return some {
      fin := firstByte >>> 7 ≠ 0
      opcode := firstByte &&& 0x0f
      payload :=
        if secondByte >>> 7 ≠ 0 then masked maskValue payload else payload }

/-- One round of the loop up to a frame with `fin`.  The first frame gives the
opcode. -/
def readFragment (client : Fd) (maxSize : Nat)
    (known : Option UInt8 × Bytes) :
    StreamReader ((Option UInt8 × Bytes) ⊕ Option WebSocketMessage) := do
  match ← readFrame maxSize with
  | none => return .inr none
  | some frame =>
      let opcode := known.1.getD frame.opcode
      let payload := known.2 ++ frame.payload
      if frame.fin then return .inr (some { client, opcode, payload })
      else return .inl (some opcode, payload)

/-- `PARSE_MESSAGE`. -/
def parseMessage (client : Fd) (maxSize : Nat) :
    StreamReader (Option WebSocketMessage) :=
  iterate .ag (readFragment client maxSize) (none, [])

theorem stable_readNetwork (size : Nat) : Stable .ag (readNetwork size) :=
  stable_bind (stable_readSize size) fun _ => stable_pure _

theorem stable_readLength (secondByte : UInt8) :
    Stable .ag (readLength secondByte) :=
  stable_ite (stable_readNetwork 2)
    (stable_ite (stable_readNetwork 8) (stable_pure _))

theorem stable_readFrame (maxSize : Nat) : Stable .ag (readFrame maxSize) := by
  refine stable_bind stable_readChar fun firstByte => ?_
  refine stable_bind stable_readChar fun secondByte => ?_
  refine stable_bind (stable_readLength secondByte) fun payloadLen => ?_
  refine stable_bind (stable_ite (stable_readSize 4) (stable_pure _)) ?_
  intro maskValue
  refine stable_ite (stable_pure _) ?_
  exact stable_bind (stable_readSize payloadLen) fun payload => stable_pure _

theorem stable_readFragment (client : Fd) (maxSize : Nat)
    (known : Option UInt8 × Bytes) :
    Stable .ag (readFragment client maxSize known) := by
  refine stable_bind (stable_readFrame maxSize) fun read => ?_
  cases read with
  | none => exact stable_pure _
  | some frame => exact stable_ite (stable_pure _) (stable_pure _)

/-- More input does not change a message. -/
theorem stable_parseMessage (client : Fd) (maxSize : Nat) :
    Stable .ag (parseMessage client maxSize) :=
  stable_iterate (stable_readFragment client maxSize) _

theorem takes_readFrame (maxSize : Nat) : Takes 1 (readFrame maxSize) := by
  refine takes_now takes_readChar fun firstByte => ?_
  refine takes_later (takes_readChar.weaken (Nat.zero_le _)) ?_
  intro secondByte
  refine takes_later ?_ fun payloadLen => ?_
  · have network : ∀ size, Takes 0 (readNetwork size) := fun size =>
      takes_later ((takes_readSize size).weaken (Nat.zero_le _))
        fun _ => takes_pure _
    unfold readLength
    split
    · exact network 2
    · split
      · exact network 8
      · exact takes_pure _
  refine takes_later ?_ fun maskValue => ?_
  · split
    · exact (takes_readSize 4).weaken (Nat.zero_le _)
    · exact takes_pure _
  split
  · exact takes_pure _
  · exact takes_later ((takes_readSize _).weaken (Nat.zero_le _))
      fun payload => takes_pure _

theorem takes_readFragment (client : Fd) (maxSize : Nat)
    (known : Option UInt8 × Bytes) :
    Takes 1 (readFragment client maxSize known) := by
  refine takes_now (takes_readFrame maxSize) fun read => ?_
  cases read with
  | none => exact takes_pure _
  | some frame =>
      dsimp only
      split
      · exact takes_pure _
      · exact takes_pure _

/-- The loop over the frames goes on to the last one. -/
theorem fragments_eq (client : Fd) (maxSize : Nat)
    (known : Option UInt8 × Bytes) :
    iterate .ag (readFragment client maxSize) known =
      readFragment client maxSize known >>= Sum.elim
        (iterate .ag (readFragment client maxSize)) pure := by
  refine iterate_eq ?_ known
  intro known input next rest parsed
  exact takes_readFragment client maxSize known _ _ _ parsed

/-- Every message takes something off the input. -/
theorem takes_parseMessage (client : Fd) (maxSize : Nat) :
    Takes 1 (parseMessage client maxSize) := by
  unfold parseMessage
  rw [fragments_eq]
  refine takes_now (takes_readFragment client maxSize _) fun read => ?_
  cases read with
  | inl known =>
      exact takes_iterate (fun state =>
        (takes_readFragment client maxSize state).weaken (Nat.zero_le _)) known
  | inr message => exact takes_pure message

variable {m : Type → Type} [Monad m] (host : StateHost WebSocketState m)

/-- `send`. -/
def send (client : Fd) (payload : Bytes) (opcode : UInt8)
    (fin : Bool := true) : m Bool := do
  let _ ← host.write client (frame payload opcode fin)
  return true

/-- `pong`. -/
def pong (client : Fd) (payload : Bytes) : m Bool :=
  send host client payload opcodePong

/-- `close`. -/
def close (client : Fd) (code : UInt16) (reason : Bytes) : m Bool := do
  let _ ← send host client (littleEndian 2 code.toNat ++ reason)
    opcodeConnectionClose
  host.close client

/-- The code that the answer to a close frame repeats. -/
def closeCode (payload : Bytes) : UInt16 :=
  if 2 ≤ payload.length then UInt16.ofNat (ofLittleEndian (payload.take 2))
  else closeNormal

variable (fire : WebSocketMessage → m WebSocketMessage)

/-- What follows a message, and whether more of them are read. -/
def respond (client : Fd) (message : WebSocketMessage) : m Bool :=
  if message.opcode = opcodeTextFrame ∨
      message.opcode = opcodeBinaryFrame then return true
  else if message.opcode = opcodeConnectionClose then do
    let _ ← close host client (closeCode message.payload)
      (ascii "OPCODE_CONNECTION_CLOSE")
    return false
  else if message.opcode = opcodePing then do
    let _ ← pong host client message.payload
    return true
  else if message.opcode = opcodePong then return true
  else do
    let _ ← close host client closeProtocolError (ascii "unkown opcode")
    return false

/-- The branch `OPEN` of `on_message`.  Every round takes a message off. -/
def converse (maxSize : Nat) (client : Fd) : (fuel : Nat) → Bytes → m Unit
  | 0, _ => pure ()
  | fuel + 1, message =>
      match parseMessage client maxSize message with
      | .error .ag => do
          let _ ← host.needBuf client message true
          return ()
      | .error .ng => do
          let _ ← host.close client
          return ()
      | .ok (none, _) => host.exit
      | .ok (some read, rest) => do
          let answered ← fire read
          let goesOn ← respond host client answered
          if goesOn && !rest.isEmpty then converse maxSize client fuel rest
          else return ()

variable (sha1 : Bytes → Bytes)

/-- The response to a request for an upgrade. -/
def switching (accept : Bytes) : HttpResponse :=
  { statusCode := 101
    reasonPhrase := ascii "Switching Protocols"
    headers := [(ascii "Upgrade", ascii "websocket"),
      (ascii "Connection", ascii "Upgrade"),
      (ascii "Sec-WebSocket-Accept", accept),
      (ascii "Sec-WebSocket-Version", ascii "13")]
    body := [] }

/-- The branch `HANDSHAKE` of `on_message`.  Nothing may follow the request. -/
def handshake (client : Fd) (message : Bytes) : m Unit :=
  match Http.parseRequest client message with
  | .error .ag => do
      let _ ← host.needBuf client message true
      return ()
  | .error .ng => do
      let _ ← host.close client
      return ()
  | .ok (r, rest) =>
      match r.headers.find HttpToken.secWebsocketKey with
      | none => do
          let _ ← host.close client
          return ()
      | some key =>
          match Base64.encode (sha1 (key ++ guid)) with
          | none => host.exit
          | some accept => do
              let _ ← host.write client (switching accept).toBytes
              host.setState client .opened
              if rest.isEmpty then return ()
              else
                let _ ← host.close client
                return ()

/-- `on_connect`. -/
def onConnect (client : Fd) : m Unit := host.setState client .handshake

/-- `on_message`. -/
def onMessage (maxSize : Nat) (client : Fd) (message : Bytes) : m Unit := do
  let message ← host.appendBuf client message
  match ← host.getState client with
  | .handshake => handshake host sha1 client message
  | .opened => converse host fire maxSize client (message.length + 1) message

/-- `on_close`. -/
def onClose (client : Fd) : m Unit := do
  host.eraseState client
  host.eraseBuf client

end WebSocket

end Universe
