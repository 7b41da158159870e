import Universe.WebSocket.Frames

/-!
# The upgrade and the first frames

The handshake insists on the end of the message.  Frames that arrive together
with the request end the connection, and frames that arrive after it are read.
-/

namespace Universe

namespace Base64

/-- The assertions hold for a digest. -/
theorem encode_digest {digest : Bytes} (length : digest.length = 20) :
    ∃ text, encode digest = some text := by
  obtain ⟨out, bits⟩ := foldl_push_size digest
  rw [length] at out bits
  unfold encode
  simp [length, out, bits, guard]

end Base64

open Incremental WebSocketSession WebSocket

namespace WebSocketSession

variable {sha1 : Bytes → Bytes} {maxSize : Nat} {handler : MessageHandler}
  {client : Fd}

/-- The state of a client that has just connected. -/
theorem deliver_connected (input : Bytes) :
    deliver sha1 maxSize handler client (connected client) input =
      settled (handshake (host client) sha1 client input (connected client)) := by
  have appended : (host client).appendBuf client input (connected client) =
      .ok input (connected client) := by
    simp [host, Stepwise.modifyGet_eq, connected, Bufferable.appendBuf]
  have state : (host client).getState client (connected client) =
      .ok .handshake (connected client) := by
    simp [host, Stepwise.modifyGet_eq, connected, Stateful.setState, Stateful.getState]
  have isOpen : (connected client).status = .opened := rfl
  unfold deliver onMessage
  rw [if_pos isOpen, Stepwise.bind_of_ok appended, Stepwise.bind_of_ok state]

theorem setState_twice (client : Fd) (first second : WebSocketState) :
    ((∅ : Stateful WebSocketState).setState client first).setState client
        second = (∅ : Stateful WebSocketState).setState client second := by
  ext1 fd
  by_cases same : client = fd
  · simp [Stateful.setState, same]
  · simp [Stateful.setState, same]

/-- The response has been written, and frames are expected. -/
theorem handshake_begins {input rest key accept : Bytes} {r : HttpRequest}
    (parsed : Http.parseRequest client input = .ok (r, rest))
    (found : r.headers.find HttpToken.secWebsocketKey = some key)
    (encoded : Base64.encode (sha1 (key ++ guid)) = some accept) :
    handshake (host client) sha1 client input (connected client) =
      (if rest.isEmpty then pure () else do
        let _ ← (host client).close client
        return () : M Unit)
        (established client [.wrote client (switching accept).toBytes]) := by
  have opened : established client [.wrote client (switching accept).toBytes] =
      { trace := [.wrote client (switching accept).toBytes]
        status := .opened
        stateful :=
          ((∅ : Stateful WebSocketState).setState client .handshake).setState
            client .opened
        bufferable := ∅ } := by
    rw [setState_twice]
    rfl
  unfold handshake
  rw [parsed, opened]
  simp only [found, encoded]
  rfl

end WebSocketSession

/-- A request for an upgrade alone is answered and opens the connection, so
that everything after it is read as frames.  When something follows it in the
same delivery, it is answered in the same way, and the client is closed:
nothing of what follows is read or kept. -/
theorem upgrade_and_frames {sha1 : Bytes → Bytes}
    (digest : ∀ data, (sha1 data).length = 20) (maxSize : Nat)
    (handler : MessageHandler) {client : Fd} {h key : Bytes} {r : HttpRequest}
    (parsed : Http.parseRequest client h = .ok (r, []))
    (found : r.headers.find HttpToken.secWebsocketKey = some key) :
    ∃ accept, Base64.encode (sha1 (key ++ guid)) = some accept ∧
      deliver sha1 maxSize handler client (connected client) h =
        established client [.wrote client (switching accept).toBytes] ∧
      ∀ f,
        let together := deliver sha1 maxSize handler client
          (connected client) (h ++ f)
        let apart := deliver sha1 maxSize handler client
          (deliver sha1 maxSize handler client (connected client) h) f
        (f = [] → together.trace = apart.trace ∧
          together.status = apart.status ∧
          (together.bufferable[client]?).getD [] =
            (apart.bufferable[client]?).getD []) ∧
        (f ≠ [] → together.trace =
            [.wrote client (switching accept).toBytes, .closed client] ∧
          together.status = .closed ∧ together.bufferable = ∅) := by
  obtain ⟨accept, encoded⟩ := Base64.encode_digest (digest (key ++ guid))
  have alone : deliver sha1 maxSize handler client (connected client) h =
      established client [.wrote client (switching accept).toBytes] := by
    rw [deliver_connected, handshake_begins parsed found encoded]
    rfl
  refine ⟨accept, encoded, alone, fun f => ⟨?_, ?_⟩⟩
  · intro nothing
    have shown := deliver_established sha1 maxSize handler client
      [.wrote client (switching accept).toBytes] []
    rw [Consumer.drain_of_again ((consumer maxSize handler client).empty _)]
      at shown
    obtain ⟨state, -, remainder⟩ := shown.of_waiting
    rw [nothing, List.append_nil, alone]
    exact ⟨(congrArg Conversation.trace state).symm,
      (congrArg Conversation.status state).symm, remainder.symm⟩
  · intro something
    have longer := (Http.stable_parseRequest client).ok parsed f
    rw [List.nil_append] at longer
    have notEmpty : ¬ f.isEmpty = true := by simpa using something
    have closed := close_own client
      (established client [.wrote client (switching accept).toBytes])
    rw [deliver_connected, handshake_begins longer found encoded,
      if_neg notEmpty, Stepwise.bind_of_ok closed]
    exact ⟨rfl, rfl, View.erase_empty client⟩

/-- The digest of a handshake with the key `dGhlIHNhbXBsZSBub25jZQ==`. -/
def sampleDigest : Bytes :=
  [179, 122, 79, 44, 192, 98, 79, 22, 144, 246, 70, 6, 207, 56, 89, 69, 178,
    190, 196, 234]

/-- A request for an upgrade with this key. -/
def sampleUpgrade : Bytes :=
  ascii ("GET /chat HTTP/1.1\r\nSec-WebSocket-Key: " ++
    "dGhlIHNhbXBsZSBub25jZQ==\r\n\r\n")

theorem sample_upgrade_opens :
    ∃ accept, Base64.encode sampleDigest = some accept ∧
      deliver (fun _ => sampleDigest) (2 ^ 63) .silent 5 (connected 5)
          sampleUpgrade =
        established 5 [.wrote 5 (switching accept).toBytes] := by
  have parsed : Http.parseRequest 5 sampleUpgrade =
      .ok (⟨5, ascii "GET", ascii "/chat", ascii "HTTP/1.1",
        [(ascii "Sec-WebSocket-Key", ascii "dGhlIHNhbXBsZSBub25jZQ==")], []⟩,
        []) := by
    decide +kernel
  have found : Headers.find
      [(ascii "Sec-WebSocket-Key", ascii "dGhlIHNhbXBsZSBub25jZQ==")]
      HttpToken.secWebsocketKey = some (ascii "dGhlIHNhbXBsZSBub25jZQ==") := by
    decide +kernel
  have length : sampleDigest.length = 20 := rfl
  obtain ⟨accept, encoded, alone, -⟩ := upgrade_and_frames
    (fun _ => length) (2 ^ 63) .silent parsed found
  exact ⟨accept, encoded, alone⟩

/-- A frame that comes with the request is lost, and the client is closed. -/
theorem early_frame_closes :
    (deliver (fun _ => sampleDigest) (2 ^ 63) .silent 5
        (deliver (fun _ => sampleDigest) (2 ^ 63) .silent 5 (connected 5)
          sampleUpgrade)
        (frame (ascii "a") opcodeTextFrame true)).messages =
      [⟨5, opcodeTextFrame, ascii "a"⟩] ∧
    (deliver (fun _ => sampleDigest) (2 ^ 63) .silent 5 (connected 5)
        (sampleUpgrade ++ frame (ascii "a") opcodeTextFrame true)).messages =
      [] ∧
    (deliver (fun _ => sampleDigest) (2 ^ 63) .silent 5 (connected 5)
        (sampleUpgrade ++ frame (ascii "a") opcodeTextFrame true)).status =
      .closed := by
  decide +kernel

end Universe
