import Universe.WebSocket.CloseCode

/-!
# What the peer of a connection hears

Whatever a connection reads, what it writes is frames, and a peer that reads
them the same way hears a pong for every ping and at most one close, the last
thing it hears.
-/

namespace Universe

namespace WebSocket

open Incremental

/-- The messages as the handler leaves them, after those seen before. -/
def leftBy (handler : MessageHandler) (seen : List WebSocketMessage) :
    List WebSocketMessage → List WebSocketMessage
  | [] => []
  | message :: messages =>
      handler (seen ++ [message]) ::
        leftBy handler (seen ++ [message]) messages

/-- The message of the frame that answers a message, if there is one. -/
def answerTo (peer : Fd) (message : WebSocketMessage) : Option WebSocketMessage :=
  if message.opcode = opcodeTextFrame ∨
      message.opcode = opcodeBinaryFrame then none
  else if message.opcode = opcodeConnectionClose then
    some ⟨peer, opcodeConnectionClose,
      littleEndian 2 (closeCode message.payload).toNat ++
        ascii "OPCODE_CONNECTION_CLOSE"⟩
  else if message.opcode = opcodePing then
    some ⟨peer, opcodePong, message.payload⟩
  else if message.opcode = opcodePong then none
  else
    some ⟨peer, opcodeConnectionClose,
      littleEndian 2 closeProtocolError.toNat ++ ascii "unkown opcode"⟩

theorem reply_eq_answer (peer : Fd) (message : WebSocketMessage) :
    reply message = (answerTo peer message).map fun answered =>
      frame answered.payload answered.opcode true := by
  unfold reply answerTo
  split
  · rfl
  · split
    · rfl
    · split
      · rfl
      · split
        · rfl
        · rfl

/-- What a peer can read. -/
structure Heard (maxSize : Nat) (peer : Fd) (answered : WebSocketMessage) :
    Prop where
  client : answered.client = peer
  isOpcode : answered.opcode < 16
  short : answered.payload.length ≤ maxSize

theorem heard_answer {maxSize : Nat} (room : 25 ≤ maxSize) {peer : Fd}
    {message answered : WebSocketMessage}
    (short : message.payload.length ≤ maxSize)
    (replied : answerTo peer message = some answered) :
    Heard maxSize peer answered := by
  unfold answerTo at replied
  split at replied
  · cases replied
  · split at replied
    · cases replied
      refine ⟨rfl, (show opcodeConnectionClose < 16 by decide), ?_⟩
      change (ascii "OPCODE_CONNECTION_CLOSE").length + 1 + 1 ≤ maxSize
      exact room
    · split at replied
      · cases replied
        exact ⟨rfl, (show opcodePong < 16 by decide), short⟩
      · split at replied
        · cases replied
        · cases replied
          refine ⟨rfl, (show opcodeConnectionClose < 16 by decide), ?_⟩
          change (ascii "unkown opcode").length + 1 + 1 ≤ maxSize
          exact Nat.le_trans (by decide) room

/-- The answer to a message after which the connection goes on is a pong. -/
theorem goesOn_answer {peer : Fd} {message answered : WebSocketMessage}
    (goesOn : GoesOn message) (replied : answerTo peer message = some answered) :
    GoesOn answered := by
  unfold answerTo at replied
  split at replied
  · cases replied
  · next notData =>
      split at replied
      · next isClose =>
          exfalso
          unfold GoesOn at goesOn
          rw [isClose] at goesOn
          revert goesOn
          decide
      · split at replied
        · cases replied
          exact .inr (.inr (.inr rfl))
        · next notPing =>
            split at replied
            · cases replied
            · next notPong =>
                exfalso
                rcases goesOn with text | binary | ping | pong
                · exact notData (.inl text)
                · exact notData (.inr binary)
                · exact notPing ping
                · exact notPong pong

theorem leftBy_concat (handler : MessageHandler)
    (seen messages : List WebSocketMessage) (message : WebSocketMessage) :
    leftBy handler seen (messages ++ [message]) =
      leftBy handler seen messages ++
        [handler (seen ++ messages ++ [message])] := by
  induction messages generalizing seen with
  | nil =>
      rw [List.append_nil]
      rfl
  | cons first messages induction =>
      rw [List.cons_append, leftBy, induction, leftBy, List.append_assoc seen,
        List.cons_append]
      rfl

section Speaking

variable {maxSize : Nat} {handler : MessageHandler} {client : Fd}

/-- What a connection has written are the answers to what it has heard, and
only the last message may have ended it. -/
structure Talked (handler : MessageHandler) (c : Conversation) : Prop where
  written : c.written = (leftBy handler [] c.messages).filterMap reply
  orderly : ∀ message ∈ (leftBy handler [] c.messages).dropLast, GoesOn message

/-- A connection that still reads. -/
structure Talking (handler : MessageHandler) (c : Conversation) : Prop where
  isOpen : c.status = .opened
  written : c.written = (leftBy handler [] c.messages).filterMap reply
  goesOn : ∀ message ∈ leftBy handler [] c.messages, GoesOn message

theorem Talking.talked {c : Conversation} (talking : Talking handler c) :
    Talked handler c :=
  ⟨talking.written, fun message member =>
    talking.goesOn message (List.dropLast_subset _ member)⟩

theorem consequences_written (message : WebSocketMessage) :
    (consequences client message).filterMap Effect.written? =
      (reply message).toList := by
  unfold consequences
  cases reply message with
  | none =>
      split
      · rfl
      · rfl
  | some data =>
      split
      · rfl
      · rfl

theorem heard_written (c : Conversation) (message : WebSocketMessage) :
    (heard handler client c message).written =
      c.written ++ (reply (handler (c.messages ++ [message]))).toList := by
  have wrote : (c.trace ++ .fired message :: consequences client
      (handler (c.messages ++ [message]))).filterMap Effect.written? =
        c.written ++ (reply (handler (c.messages ++ [message]))).toList := by
    rw [List.filterMap_append, List.filterMap_cons, consequences_written]
    rfl
  unfold heard Conversation.written
  dsimp only
  split
  · exact wrote
  · exact wrote

theorem leftBy_heard (c : Conversation) (message : WebSocketMessage) :
    leftBy handler [] (heard handler client c message).messages =
      leftBy handler [] c.messages ++
        [handler (c.messages ++ [message])] := by
  rw [heard_messages, leftBy_concat]
  rfl

theorem Talking.heard_written {c : Conversation} (talking : Talking handler c)
    (message : WebSocketMessage) :
    (heard handler client c message).written =
      (leftBy handler [] (heard handler client c message).messages).filterMap
        reply := by
  rw [WebSocket.heard_written, leftBy_heard, List.filterMap_append,
    talking.written]
  cases answered : reply (handler (c.messages ++ [message])) with
  | none => rw [List.filterMap_cons_none answered]; rfl
  | some data => rw [List.filterMap_cons_some answered]; rfl

theorem Talking.next {c after : Conversation} {input rest : Bytes}
    (talking : Talking handler c)
    (read : listen maxSize handler client c input = .next after rest) :
    Talking handler after := by
  unfold listen at read
  split at read
  · cases read
  · cases read
  · cases read
  · next message left parsed =>
      split at read
      · next goesOn =>
          cases read
          refine ⟨?_, talking.heard_written message, ?_⟩
          · unfold heard
            dsimp only
            rw [if_pos goesOn]
            exact talking.isOpen
          · rw [leftBy_heard]
            intro other member
            rcases List.mem_append.mp member with before | last
            · exact talking.goesOn other before
            · rw [List.mem_singleton.mp last]
              exact goesOn
      · cases read

theorem Talking.halt {c after : Conversation} {input : Bytes}
    (talking : Talking handler c)
    (read : listen maxSize handler client c input = .halt after) :
    Talked handler after ∧ after.status ≠ .opened := by
  unfold listen at read
  split at read
  · cases read
  · cases read
    have messages : (c.trace ++ [Effect.closed client]).filterMap
        Effect.message? = c.messages := by
      rw [List.filterMap_append]
      exact List.append_nil _
    have written : (c.trace ++ [Effect.closed client]).filterMap
        Effect.written? = c.written := by
      rw [List.filterMap_append]
      exact List.append_nil _
    refine ⟨⟨?_, ?_⟩, by simp⟩
    · unfold Conversation.written Conversation.messages
      dsimp only
      rw [messages, written]
      exact talking.written
    · unfold Conversation.messages
      dsimp only
      rw [messages]
      exact talking.talked.orderly
  · cases read
    exact ⟨⟨talking.written, talking.talked.orderly⟩, by simp⟩
  · next message left parsed =>
      split at read
      · cases read
      · next ends =>
          cases read
          refine ⟨⟨talking.heard_written message, ?_⟩, ?_⟩
          · rw [leftBy_heard, List.dropLast_concat]
            exact talking.goesOn
          · unfold heard
            dsimp only
            rw [if_neg ends]
            intro impossible
            cases impossible

/-- Whatever a connection reads. -/
theorem talked_drain (maxSize : Nat) (client : Fd) {c : Conversation}
    (talking : Talking handler c) (input : Bytes) :
    Talked handler ((consumer maxSize handler client).drain c input).state ∧
      (((consumer maxSize handler client).drain c input).state.status =
          .opened →
        ∀ message ∈ leftBy handler []
          ((consumer maxSize handler client).drain c input).state.messages,
          GoesOn message) := by
  have next : ∀ {c : Conversation} {input : Bytes} {after : Conversation}
      {rest : Bytes},
      (consumer maxSize handler client).step c input = .next after rest →
      Talking handler c → Talking handler after :=
    fun read talking => talking.next read
  have halt : ∀ {c : Conversation} {input : Bytes} {after : Conversation},
      (consumer maxSize handler client).step c input = .halt after →
      Talking handler c → Talked handler after ∧ after.status ≠ .opened :=
    fun read talking => talking.halt read
  have outcome := Consumer.outcome_drain next halt input talking
  cases drained : (consumer maxSize handler client).drain c input with
  | waiting after rest =>
      rw [drained] at outcome
      exact ⟨outcome.talked, fun _ => outcome.goesOn⟩
  | halted after =>
      rw [drained] at outcome
      exact ⟨outcome.1, fun isOpen => absurd isOpen outcome.2⟩

end Speaking

section Hearing

variable {maxSize : Nat} {peer : Fd}

theorem answers_orderly {messages : List WebSocketMessage}
    (orderly : ∀ message ∈ messages.dropLast, GoesOn message) :
    ∀ answered ∈ (messages.filterMap (answerTo peer)).dropLast,
      GoesOn answered := by
  rcases List.eq_nil_or_concat messages with rfl | ⟨earlier, last, rfl⟩
  · intro answered impossible
    cases impossible
  · rw [List.concat_eq_append] at orderly ⊢
    rw [List.dropLast_concat] at orderly
    have pongs : ∀ answered ∈ earlier.filterMap (answerTo peer),
        GoesOn answered := by
      intro answered member
      obtain ⟨message, before, replied⟩ := List.mem_filterMap.mp member
      exact goesOn_answer (orderly message before) replied
    intro answered member
    rw [List.filterMap_append] at member
    cases replied : answerTo peer last with
    | none =>
        rw [List.filterMap_cons_none replied, List.filterMap_nil,
          List.append_nil] at member
        exact pongs answered (List.dropLast_subset _ member)
    | some closing =>
        rw [List.filterMap_cons_some replied, List.filterMap_nil,
          List.dropLast_concat] at member
        exact pongs answered member

theorem parseMessage_frame (isSize : maxSize < 2 ^ 64)
    {answered : WebSocketMessage} (heard : Heard maxSize peer answered)
    (rest : Bytes) :
    parseMessage peer maxSize
        (frame answered.payload answered.opcode true ++ rest) =
      .ok (some answered, rest) := by
  have valid : Fragment.Valid maxSize ⟨answered.payload, .sent⟩ :=
    ⟨heard.short, trivial⟩
  have read := fragments_last peer isSize (none, []) heard.isOpcode valid rest
  have same : (⟨peer, answered.opcode, answered.payload⟩ : WebSocketMessage) =
      answered := by
    rw [← heard.client]
  refine Eq.trans read ?_
  rw [← same]
  rfl

/-- Frames are heard up to the first one that ends the connection. -/
theorem drain_frames (isSize : maxSize < 2 ^ 64)
    {answers : List WebSocketMessage}
    (heard : ∀ answered ∈ answers, Heard maxSize peer answered)
    (orderly : ∀ answered ∈ answers.dropLast, GoesOn answered)
    (c : Conversation) :
    ((consumer maxSize .silent peer).drain c (answers.flatMap fun answered =>
        frame answered.payload answered.opcode true)).state.messages =
      c.messages ++ answers := by
  induction answers generalizing c with
  | nil =>
      rw [List.flatMap_nil, List.append_nil, Consumer.drain_of_again
        ((consumer maxSize .silent peer).empty c)]
      rfl
  | cons answered answers induction =>
      have parsed := parseMessage_frame isSize
        (heard answered List.mem_cons_self)
        (answers.flatMap fun answered =>
          frame answered.payload answered.opcode true)
      have left : MessageHandler.silent (c.messages ++ [answered]) =
          answered := MessageHandler.silent_keeps _ _
      rw [List.flatMap_cons]
      by_cases goesOn : GoesOn answered
      · have later : ∀ other ∈ answers.dropLast, GoesOn other := by
          intro other member
          apply orderly
          cases answers with
          | nil => cases member
          | cons next answers => exact .tail _ member
        rw [drain_message parsed (left.symm ▸ goesOn),
          induction (fun other member => heard other (.tail _ member)) later,
          heard_messages, List.append_assoc]
        rfl
      · have last : answers = [] := by
          cases answers with
          | nil => rfl
          | cons next answers =>
              exact absurd (orderly answered List.mem_cons_self) goesOn
        subst last
        have read : (consumer maxSize .silent peer).step c
            (frame answered.payload answered.opcode true ++
              [].flatMap fun answered : WebSocketMessage =>
                frame answered.payload answered.opcode true) =
            .halt (WebSocket.heard .silent peer c answered) := by
          change listen maxSize .silent peer c _ = _
          unfold listen
          rw [parsed]
          dsimp only
          rw [left, if_neg goesOn]
        rw [Consumer.drain_of_halt read]
        exact heard_messages c answered

end Hearing

end WebSocket

open WebSocket

/-- A connection after any deliveries, as what it makes of all their bytes. -/
theorem WebSocketSession.conversation_pieces (sha1 : Bytes → Bytes)
    (maxSize : Nat) (handler : MessageHandler) (client : Fd)
    (past : List Effect) (pieces : List Bytes) :
    (pieces.foldl (deliver sha1 maxSize handler client)
        (established client past)).toConversation =
      ((consumer maxSize handler client).drain
        (established client past).toConversation pieces.flatten).state := by
  have delivering : (view client).Delivers client
      (consumer maxSize handler client)
      (deliver sha1 maxSize handler client) := delivers
  obtain ⟨same, -, -⟩ := View.cut_eq_whole delivering
    (established_opened client past) rfl pieces
  exact same.trans (trace_of_shows
    (deliver_established sha1 maxSize handler client past pieces.flatten))

/-- Whatever an open connection reads, in whatever pieces, a peer that reads
what it has written, in whatever pieces, hears the answers to its messages as
the handler has left them, and nothing else: a pong for a ping, and a close
for a close and for an unknown opcode, which is the last message of all. -/
theorem peer_hears_the_answers (sha1 : Bytes → Bytes) {maxSize : Nat}
    (isSize : maxSize < 2 ^ 64) (room : 25 ≤ maxSize)
    (handler : MessageHandler) (client peer : Fd) (pieces others : List Bytes)
    {s : WebSocketSession}
    (reached : s = pieces.foldl
      (WebSocketSession.deliver sha1 maxSize handler client)
      (WebSocketSession.established client []))
    (short : ∀ message ∈ leftBy handler [] s.messages,
      message.payload.length ≤ maxSize)
    (carried : others.flatten = s.written.flatten) :
    (others.foldl (WebSocketSession.deliver sha1 maxSize .silent peer)
        (WebSocketSession.established peer [])).messages =
      (leftBy handler [] s.messages).filterMap (answerTo peer) ∧
    (∀ message ∈ (leftBy handler [] s.messages).dropLast, GoesOn message) ∧
    (s.status = .opened →
      ∀ message ∈ leftBy handler [] s.messages, GoesOn message) := by
  have begun : Talking handler
      (WebSocketSession.established client []).toConversation :=
    ⟨rfl, rfl, fun message impossible => nomatch impossible⟩
  have drained := talked_drain maxSize client begun pieces.flatten
  rw [← WebSocketSession.conversation_pieces sha1, ← reached] at drained
  obtain ⟨⟨written, orderly⟩, goesOn⟩ := drained
  refine ⟨?_, orderly, goesOn⟩
  have sent : s.written.flatten = ((leftBy handler [] s.messages).filterMap
      (answerTo peer)).flatMap fun answered =>
        frame answered.payload answered.opcode true := by
    rw [List.flatMap_def, List.map_filterMap]
    refine congrArg List.flatten (written.trans ?_)
    exact List.filterMap_congr fun message _ => reply_eq_answer peer message
  have heard : ∀ answered ∈ (leftBy handler [] s.messages).filterMap
      (answerTo peer), Heard maxSize peer answered := by
    intro answered member
    obtain ⟨message, before, replied⟩ := List.mem_filterMap.mp member
    exact heard_answer room (short message before) replied
  have listened := drain_frames isSize heard (answers_orderly orderly)
    (WebSocketSession.established peer []).toConversation
  rw [← sent, ← carried, ← WebSocketSession.conversation_pieces sha1]
    at listened
  exact listened

/-- A connection that has heard a ping and a close without a code. -/
def pinged : WebSocketSession :=
  [[0x89, 0x01, 0x3f, 0x88], [0x00]].foldl
    (WebSocketSession.deliver id 100 .silent 5)
    (WebSocketSession.established 5 [])

/-- What it has written, in other pieces. -/
theorem pong_and_close_are_heard :
    ([[0x8a, 0x01], [0x3f, 0x88], [0x19, 0xe8, 0x03] ++
        ascii "OPCODE_CONNECTION_CLOSE"].foldl
      (WebSocketSession.deliver id 100 .silent 7)
      (WebSocketSession.established 7 [])).messages =
        [⟨7, opcodePong, ascii "?"⟩,
          ⟨7, opcodeConnectionClose,
            [0xe8, 0x03] ++ ascii "OPCODE_CONNECTION_CLOSE"⟩] := by
  have short : ∀ message ∈ leftBy .silent [] pinged.messages,
      message.payload.length ≤ 100 := by
    decide +kernel
  have carried : [[0x8a, 0x01], [0x3f, 0x88], [0x19, 0xe8, 0x03] ++
      ascii "OPCODE_CONNECTION_CLOSE"].flatten = pinged.written.flatten := by
    decide +kernel
  refine Eq.trans (@peer_hears_the_answers id 100 (by decide) (by decide)
    .silent 5 7 _ _ pinged rfl short carried).1 ?_
  decide +kernel

end Universe
