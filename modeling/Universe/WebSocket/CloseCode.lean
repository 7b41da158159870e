import Universe.WebSocket.Frames

/-!
# The status code of a close frame

`close` writes the code as it lies in memory.  The code of the peer was read
the same way and goes back as it came, but the constants of the protocol and
the codes of its users are in the byte order of the host.
-/

namespace Universe

open Incremental WebSocketSession

namespace WebSocket

open StreamReader

/-- The first two bytes of a payload, in network byte order. -/
def statusCode (payload : Bytes) : Nat :=
  ofLittleEndian (Utils.hton (payload.take 2))

/-- The status code that should answer a message. -/
def dueCode (message : WebSocketMessage) : Nat :=
  if message.opcode = opcodeConnectionClose then
    if 2 ≤ message.payload.length then statusCode message.payload
    else closeNormal.toNat
  else closeProtocolError.toNat

/-- The data is one close frame, and its payload begins with this code. -/
def ClosesWith (data : Bytes) (code : Nat) : Prop :=
  ∃ payload, readFrame (2 ^ 64 - 1) data =
      .ok (some ⟨true, opcodeConnectionClose, payload⟩, []) ∧
    2 ≤ payload.length ∧ statusCode payload = code

/-- The two bytes of a code the other way round. -/
def swapped (code : Nat) : Nat := code % 256 * 256 + code / 256

theorem statusCode_littleEndian {code : Nat} (small : code < 65536)
    (reason : Bytes) :
    statusCode (littleEndian 2 code ++ reason) = swapped code := by
  have low : (UInt8.ofNat code).toNat = code % 256 := rfl
  have high : (UInt8.ofNat (code / 256)).toNat = code / 256 % 256 := rfl
  simp only [statusCode, littleEndian, Utils.hton, List.cons_append,
    List.nil_append, List.take_succ_cons, List.take_zero, List.reverse_cons,
    List.reverse_nil, ofLittleEndian, low, high, swapped]
  omega

theorem readFrame_frame {payload : Bytes} (small : payload.length < 2 ^ 64)
    {opcode : UInt8} (isOpcode : opcode < 16) :
    readFrame (2 ^ 64 - 1) (frame payload opcode true) =
      .ok (some ⟨true, opcode, payload⟩, []) := by
  have valid : Fragment.Valid (2 ^ 64 - 1) ⟨payload, .sent⟩ :=
    ⟨Nat.le_sub_one_of_lt small, trivial⟩
  have read := readFrame_bytes (by decide) isOpcode true valid []
  rw [List.append_nil] at read
  exact read

/-- A frame keeps the opcode of its first byte. -/
theorem readFrame_opcode {maxSize : Nat} {first : UInt8} {input rest : Bytes}
    {read : Frame}
    (returned : readFrame maxSize (first :: input) = .ok (some read, rest)) :
    read.opcode = first &&& 0x0f := by
  unfold readFrame at returned
  rw [bind_of_ok (readChar_eq_ok.mpr rfl)] at returned
  obtain ⟨second, afterSecond, _, returned⟩ := bind_eq_ok.mp returned
  obtain ⟨length, afterLength, _, returned⟩ := bind_eq_ok.mp returned
  obtain ⟨key, afterKey, _, returned⟩ := bind_eq_ok.mp returned
  split at returned
  · obtain ⟨none, _⟩ := pure_eq_ok.mp returned
    cases none
  · obtain ⟨payload, afterPayload, _, returned⟩ := bind_eq_ok.mp returned
    obtain ⟨same, _⟩ := pure_eq_ok.mp returned
    cases same
    rfl

/-- What `close` writes carries the code with its bytes swapped. -/
theorem closesWith_frame {code other : Nat} (small : code < 65536)
    {reason : Bytes} (short : reason.length + 2 < 2 ^ 64) :
    ClosesWith (frame (littleEndian 2 code ++ reason)
      opcodeConnectionClose true) other ↔ swapped code = other := by
  have length : (littleEndian 2 code ++ reason).length = reason.length + 2 := by
    simp [length_littleEndian, Nat.add_comm]
  have read : readFrame (2 ^ 64 - 1)
      (frame (littleEndian 2 code ++ reason) opcodeConnectionClose true) =
        .ok (some ⟨true, opcodeConnectionClose,
          littleEndian 2 code ++ reason⟩, []) :=
    readFrame_frame (by rw [length]; exact short) (by decide)
  unfold ClosesWith
  rw [read]
  constructor
  · rintro ⟨payload, same, _, status⟩
    cases same
    rw [← status]
    exact (statusCode_littleEndian small reason).symm
  · intro same
    refine ⟨_, rfl, ?_, ?_⟩
    · rw [length]
      omega
    · rw [← same]
      exact statusCode_littleEndian small reason

theorem swapped_eq_self {code : Nat} :
    swapped code = code ↔ code % 256 = code / 256 := by
  unfold swapped
  omega

/-- The code of the peer goes back as it came. -/
theorem swapped_closeCode {payload : Bytes} (carried : 2 ≤ payload.length) :
    swapped (closeCode payload).toNat = statusCode payload := by
  obtain ⟨low, high, rest, rfl⟩ :
      ∃ low high rest, payload = low :: high :: rest := by
    cases payload with
    | nil => simp at carried
    | cons low payload =>
        cases payload with
        | nil => simp at carried
        | cons high rest => exact ⟨low, high, rest, rfl⟩
  have lowSmall := low.toNat_lt
  have highSmall := high.toNat_lt
  unfold closeCode
  rw [if_pos carried]
  simp only [statusCode, Utils.hton, List.take_succ_cons, List.take_zero,
    List.reverse_cons, List.reverse_nil, List.nil_append, List.cons_append,
    ofLittleEndian, swapped, UInt16.toNat_ofNat']
  omega

/-- A close frame is due to a close frame or to an unknown opcode, and only
the first with a code in it is answered by the right code. -/
theorem closesWith_reply {message : WebSocketMessage} {data : Bytes}
    (replied : reply message = some data) {code : Nat}
    (closes : ClosesWith data code) :
    ClosesWith data (dueCode message) ↔
      message.opcode = opcodeConnectionClose ∧ 2 ≤ message.payload.length := by
  unfold reply at replied
  split at replied
  · cases replied
  · split at replied
    · next isClose =>
        cases replied
        rw [closesWith_frame (UInt16.toNat_lt _) (by decide)]
        unfold dueCode
        rw [if_pos isClose]
        by_cases carried : 2 ≤ message.payload.length
        · rw [if_pos carried, swapped_closeCode carried]
          exact ⟨fun _ => ⟨isClose, carried⟩, fun _ => rfl⟩
        · rw [if_neg carried, closeCode, if_neg carried, swapped_eq_self]
          constructor
          · intro same
            exact absurd same (by decide)
          · intro met
            exact absurd met.2 carried
    · next notClose =>
        split at replied
        · -- A pong has another opcode.
          cases replied
          obtain ⟨payload, read, _⟩ := closes
          have opcode : opcodeConnectionClose =
              firstByte opcodePong true &&& 0x0f := readFrame_opcode read
          exact absurd opcode (by decide)
        · split at replied
          · cases replied
          · cases replied
            rw [closesWith_frame (UInt16.toNat_lt _) (by decide)]
            unfold dueCode
            rw [if_neg notClose, swapped_eq_self]
            constructor
            · intro same
              exact absurd same (by decide)
            · intro met
              exact absurd met.1 notClose

/-- Every write is the reply to the message that was fired before it. -/
def Replies (client : Fd) (said : List Effect) : Prop :=
  ∀ before fd data after, said = before ++ .wrote fd data :: after →
    fd = client ∧ ∃ earlier message, before = earlier ++ [.fired message] ∧
      reply message = some data

theorem Replies.silent {client : Fd} {said : List Effect}
    (replies : Replies client said) (effect : Effect)
    (notWritten : ∀ fd data, effect ≠ .wrote fd data) :
    Replies client (said ++ [effect]) := by
  intro before fd data after whole
  rcases List.eq_nil_or_concat after with rfl | ⟨rest, last, rfl⟩
  · obtain ⟨_, same⟩ := List.append_inj' whole rfl
    cases same
    exact absurd rfl (notWritten fd data)
  · have cut : said ++ [effect] = (before ++ .wrote fd data :: rest) ++ [last] := by
      simpa using whole
    obtain ⟨same, _⟩ := List.append_inj' cut rfl
    exact replies before fd data rest same

theorem Replies.told {client : Fd} {said : List Effect}
    (replies : Replies client said) (message : WebSocketMessage) {data : Bytes}
    (replied : reply message = some data) :
    Replies client (said ++ [.fired message, .wrote client data]) := by
  intro before fd data' after whole
  rcases List.eq_nil_or_concat after with rfl | ⟨rest, last, rfl⟩
  · have cut : (said ++ [.fired message]) ++ [.wrote client data] =
        before ++ [.wrote fd data'] := by
      simpa using whole
    obtain ⟨same, last⟩ := List.append_inj' cut rfl
    cases last
    exact ⟨rfl, said, message, same.symm, replied⟩
  · have cut : (said ++ [.fired message]) ++ [.wrote client data] =
        (before ++ .wrote fd data' :: rest) ++ [last] := by
      simpa using whole
    obtain ⟨same, _⟩ := List.append_inj' cut rfl
    have fired := replies.silent (.fired message) (by simp)
    exact fired before fd data' rest same

theorem Replies.consequences {client : Fd} {said : List Effect}
    (replies : Replies client said) (message : WebSocketMessage) :
    Replies client (said ++ .fired message :: consequences client message) := by
  have replied : Replies client (said ++ .fired message ::
      ((reply message).map (Effect.wrote client)).toList) := by
    cases answer : reply message with
    | none => exact replies.silent (.fired message) (by simp)
    | some data => exact replies.told message answer
  unfold WebSocket.consequences
  split
  · simpa using replied
  · have closed := replied.silent (.closed client) (by simp)
    simpa using closed

section Runs

variable {maxSize : Nat} {handler : MessageHandler} {client : Fd}

/-- What the connection has said since then consists of replies. -/
def Said (client : Fd) (past : List Effect) (c : Conversation) : Prop :=
  ∃ said, c.trace = past ++ said ∧ Replies client said

theorem Said.closed {past : List Effect} {c after : Conversation}
    (holds : Said client past c)
    (trace : after.trace = c.trace ++ [.closed client]) :
    Said client past after := by
  obtain ⟨said, before, replies⟩ := holds
  refine ⟨said ++ [.closed client], ?_, replies.silent _ (by simp)⟩
  rw [trace, before, List.append_assoc]

theorem Said.heard (keeps : ∀ seen message,
      handler (seen ++ [message]) = message) {past : List Effect}
    {c : Conversation} (holds : Said client past c)
    (message : WebSocketMessage) :
    Said client past (heard handler client c message) := by
  obtain ⟨said, before, replies⟩ := holds
  have trace : (WebSocket.heard handler client c message).trace =
      c.trace ++ .fired message :: WebSocket.consequences client message := by
    unfold WebSocket.heard
    dsimp only
    rw [keeps]
    split
    · rfl
    · rfl
  refine ⟨_, ?_, replies.consequences message⟩
  rw [trace, before, List.append_assoc]

theorem Said.drain (keeps : ∀ seen message,
      handler (seen ++ [message]) = message) {past : List Effect}
    {c : Conversation} (holds : Said client past c) (input : Bytes) :
    Said client past
      ((consumer maxSize handler client).drain c input).state := by
  refine Consumer.invariant_drain ?_ ?_ input holds
  · intro c input after rest read holds
    change listen maxSize handler client c input = _ at read
    unfold listen at read
    split at read
    · cases read
    · cases read
    · cases read
    · next message left parsed =>
        split at read
        · cases read
          exact holds.heard keeps message
        · cases read
  · intro c input after read holds
    change listen maxSize handler client c input = _ at read
    unfold listen at read
    split at read
    · cases read
    · cases read
      exact holds.closed rfl
    · cases read
      exact holds
    · next message left parsed =>
        split at read
        · cases read
        · cases read
          exact holds.heard keeps message

end Runs

end WebSocket

open WebSocket

theorem WebSocketSession.trace_of_shows {client : Fd} {s : WebSocketSession}
    {position : Position Conversation UInt8}
    (shown : (view client).Shows client s position) :
    s.toConversation = position.state := by
  cases shown with
  | waiting _ _ => rfl
  | halted _ _ => rfl

/-- Of all close frames that an open connection sends, exactly those carry the
right status code in network byte order that answer a close frame with a code
in it.  A code given to `close` goes out in network byte order exactly when
its two bytes are equal. -/
theorem close_status_on_the_wire (sha1 : Bytes → Bytes) (maxSize : Nat)
    {handler : MessageHandler}
    (keeps : ∀ seen message, handler (seen ++ [message]) = message)
    (client : Fd) (past : List Effect) (pieces : List Bytes) (code : UInt16)
    {reason : Bytes} (short : reason.length + 2 < 2 ^ 64) :
    let s := pieces.foldl (deliver sha1 maxSize handler client)
      (established client past)
    (∃ said, s.trace = past ++ said ∧
      ∀ before fd data after, said = before ++ .wrote fd data :: after →
        (∃ code, ClosesWith data code) →
          fd = client ∧ ∃ earlier message, before = earlier ++ [.fired message] ∧
            (ClosesWith data (dueCode message) ↔
              message.opcode = opcodeConnectionClose ∧
                2 ≤ message.payload.length)) ∧
    ∀ s : WebSocketSession, ∃ after data,
      WebSocket.close (host client) client code reason s = .ok true after ∧
        after.trace = s.trace ++ [.wrote client data, .closed client] ∧
        (ClosesWith data code.toNat ↔ code.toNat % 256 = code.toNat / 256) := by
  intro s
  constructor
  · have delivering : (view client).Delivers client
        (consumer maxSize handler client)
        (deliver sha1 maxSize handler client) := delivers
    obtain ⟨same, _, _⟩ := View.cut_eq_whole delivering
      (established_opened client past) rfl pieces
    have shown := deliver_established sha1 maxSize handler client past
      pieces.flatten
    have begun : Said client past (established client past).toConversation := by
      refine ⟨[], by simp [established], ?_⟩
      intro before fd data after whole
      simp at whole
    have drained : Said client past s.toConversation := by
      have whole : s.toConversation = _ :=
        same.trans (trace_of_shows shown)
      rw [whole]
      exact begun.drain keeps pieces.flatten
    obtain ⟨said, trace, replies⟩ := drained
    refine ⟨said, trace, ?_⟩
    intro before fd data after whole closes
    obtain ⟨own, earlier, message, fired, replied⟩ :=
      replies before fd data after whole
    obtain ⟨other, closes⟩ := closes
    exact ⟨own, earlier, message, fired, closesWith_reply replied closes⟩
  · intro s
    have closed : WebSocket.close (host client) client code reason s = _ :=
      (Stepwise.bind_of_ok (send_eq _ _ s)).trans (close_own client _)
    refine ⟨_, frame (littleEndian 2 code.toNat ++ reason)
      opcodeConnectionClose true, closed, ?_, ?_⟩
    · simp [record]
    · rw [closesWith_frame code.toNat_lt short, swapped_eq_self]

/-- The answer to a close frame with code 1001. -/
def goingAway : Bytes :=
  frame (littleEndian 2 (closeCode [0x03, 0xe9]).toNat ++
    ascii "OPCODE_CONNECTION_CLOSE") opcodeConnectionClose true

theorem going_away_echoed :
    (deliver id (2 ^ 63) .silent 5 (established 5 [])
        [0x88, 0x02, 0x03, 0xe9]).trace =
      [.fired ⟨5, 0x8, [0x03, 0xe9]⟩, .wrote 5 goingAway, .closed 5] ∧
      ClosesWith goingAway 1001 := by
  have happened : (deliver id (2 ^ 63) .silent 5 (established 5 [])
        [0x88, 0x02, 0x03, 0xe9]).trace =
      [.fired ⟨5, 0x8, [0x03, 0xe9]⟩, .wrote 5 goingAway, .closed 5] := by
    decide +kernel
  refine ⟨happened, ?_⟩
  obtain ⟨⟨said, trace, right⟩, _⟩ := close_status_on_the_wire id (2 ^ 63)
    MessageHandler.silent_keeps 5 [] [[0x88, 0x02, 0x03, 0xe9]] 1000
    (show ([] : Bytes).length + 2 < 2 ^ 64 by decide)
  obtain ⟨_, earlier, message, fired, status⟩ :=
    right [.fired ⟨5, 0x8, [0x03, 0xe9]⟩] 5 goingAway [.closed 5]
      (trace.symm.trans happened)
      ⟨_, (closesWith_frame (by decide) (by decide)).mpr rfl⟩
  obtain ⟨_, last⟩ :=
    List.append_inj' (show [] ++ [_] = earlier ++ [_] from fired) rfl
  cases last
  exact status.mpr ⟨rfl, by decide⟩

/-- A close frame without a code is answered by 59395, where 1000 was
meant. -/
theorem normal_closure_swapped :
    ∃ data, (deliver id (2 ^ 63) .silent 5 (established 5 [])
        [0x88, 0x00]).trace =
      [.fired ⟨5, 0x8, []⟩, .wrote 5 data, .closed 5] ∧
      ClosesWith data 59395 ∧ ¬ ClosesWith data closeNormal.toNat := by
  refine ⟨frame (littleEndian 2 closeNormal.toNat ++
    ascii "OPCODE_CONNECTION_CLOSE") opcodeConnectionClose true,
    by decide +kernel, ?_, ?_⟩
  · exact (closesWith_frame (by decide) (by decide)).mpr (by decide)
  · intro closes
    exact absurd ((closesWith_frame (by decide) (by decide)).mp closes)
      (by decide)

end Universe
