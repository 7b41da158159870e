import Universe.Bufferable.Delivery
import Universe.Http.Segmentation
import Universe.WebSocket

/-!
# WebSocket does not depend on how the input is cut

One client sends frames on an open connection, and the event manager delivers
them to `on_message` in pieces until the client is closed.  What `ON_MESSAGE`
does on its own account it does when a message is fired.
-/

namespace Universe

open Incremental

/-- What can be seen of a WebSocket connection. -/
inductive Effect where
  | fired (message : WebSocketMessage)
  | wrote (fd : Fd) (data : Bytes)
  | closed (fd : Fd)
  deriving DecidableEq, Repr

/-- What `ON_MESSAGE` leaves in a message, by the messages fired so far. -/
abbrev MessageHandler := List WebSocketMessage → WebSocketMessage

structure Conversation where
  trace : List Effect
  status : Status
  stateful : Stateful WebSocketState

structure WebSocketSession extends Conversation where
  bufferable : Bufferable

namespace Effect

def message? : Effect → Option WebSocketMessage
  | .fired message => some message
  | _ => none

def written? : Effect → Option Bytes
  | .wrote _ data => some data
  | _ => none

end Effect

namespace Conversation

/-- The messages fired so far. -/
def messages (c : Conversation) : List WebSocketMessage :=
  c.trace.filterMap Effect.message?

/-- What was written so far. -/
def written (c : Conversation) : List Bytes :=
  c.trace.filterMap Effect.written?

end Conversation

namespace WebSocketSession

abbrev M := EStateM Unit WebSocketSession

def record (effect : Effect) (s : WebSocketSession) : WebSocketSession :=
  { s with trace := s.trace ++ [effect] }

/-- All writes succeed, and `close` calls `on_close`, which erases the state
and the buffer. -/
def host (client : Fd) : StateHost WebSocketState M where
  needBuf id message cond := modifyGet fun s =>
    let needed := s.bufferable.needBuf id message cond
    (needed.1, { s with bufferable := needed.2 })
  appendBuf id message := modifyGet fun s =>
    let appended := s.bufferable.appendBuf id message
    (appended.1, { s with bufferable := appended.2 })
  eraseBuf id := modify fun s =>
    { s with bufferable := s.bufferable.eraseBuf id }
  write fd data := modifyGet fun s =>
    ((data.length : Int), s.record (.wrote fd data))
  close fd := modifyGet fun s =>
    if fd = client then
      (true, { s.record (.closed fd) with
        status := .closed
        stateful := s.stateful.eraseState client
        bufferable := s.bufferable.eraseBuf client })
    else (false, s)
  exit := throw ()
  getState id := modifyGet fun s => (s.stateful.getState id, s)
  setState id state := modify fun s =>
    { s with stateful := s.stateful.setState id state }
  eraseState id := modify fun s =>
    { s with stateful := s.stateful.eraseState id }

def fire (handler : MessageHandler) (message : WebSocketMessage) :
    M WebSocketMessage :=
  modifyGet fun s =>
    (handler (s.messages ++ [message]), s.record (.fired message))

/-- The session after a call of `on_message`. -/
def settled : EStateM.Result Unit WebSocketSession Unit → WebSocketSession
  | .ok _ s => s
  | .error _ s => { s with status := .crashed }

section Sessions

variable (sha1 : Bytes → Bytes) (maxSize : Nat) (handler : MessageHandler)
  (client : Fd)

/-- One delivery to a client that is open. -/
def deliver (s : WebSocketSession) (piece : Bytes) : WebSocketSession :=
  if s.status = .opened then
    settled (WebSocket.onMessage (host client) (fire handler) sha1 maxSize
      client piece s)
  else s

/-- The client has connected. -/
def connected : WebSocketSession :=
  { trace := []
    status := .opened
    stateful := (∅ : Stateful WebSocketState).setState client .handshake
    bufferable := ∅ }

/-- An open connection after what has happened on it, with nothing
buffered. -/
def established (trace : List Effect) : WebSocketSession :=
  { trace
    status := .opened
    stateful := (∅ : Stateful WebSocketState).setState client .opened
    bufferable := ∅ }

/-- A connection that gets frames. -/
def view : View WebSocketSession Conversation where
  state := toConversation
  bufferable := bufferable
  ext := by
    rintro ⟨first, buffered⟩ ⟨second, other⟩ rfl rfl
    rfl
  opened c := c.status = .opened ∧ c.stateful.getState client = .opened
  ended c := c.status ≠ .opened

end Sessions

end WebSocketSession

namespace WebSocket

/-- The frame that answers a message, if there is one. -/
def reply (message : WebSocketMessage) : Option Bytes :=
  if message.opcode = opcodeTextFrame ∨
      message.opcode = opcodeBinaryFrame then none
  else if message.opcode = opcodeConnectionClose then
    some (frame (littleEndian 2 (closeCode message.payload).toNat ++
      ascii "OPCODE_CONNECTION_CLOSE") opcodeConnectionClose true)
  else if message.opcode = opcodePing then
    some (frame message.payload opcodePong true)
  else if message.opcode = opcodePong then none
  else
    some (frame (littleEndian 2 closeProtocolError.toNat ++
      ascii "unkown opcode") opcodeConnectionClose true)

/-- The connection goes on after this message. -/
def GoesOn (message : WebSocketMessage) : Prop :=
  message.opcode = opcodeTextFrame ∨ message.opcode = opcodeBinaryFrame ∨
    message.opcode = opcodePing ∨ message.opcode = opcodePong

instance (message : WebSocketMessage) : Decidable (GoesOn message) :=
  inferInstanceAs (Decidable (_ ∨ _))

/-- Everything that follows a message. -/
def consequences (client : Fd) (message : WebSocketMessage) : List Effect :=
  ((reply message).map (Effect.wrote client)).toList ++
    if GoesOn message then [] else [.closed client]

section Consumer

variable (maxSize : Nat) (handler : MessageHandler) (client : Fd)

/-- A message has been read. -/
def heard (c : Conversation) (message : WebSocketMessage) : Conversation :=
  let answered := handler (c.messages ++ [message])
  let trace := c.trace ++ .fired message :: consequences client answered
  if GoesOn answered then { c with trace }
  else
    { trace
      status := .closed
      stateful := c.stateful.eraseState client }

/-- One message of the input, as a step of a consumer. -/
def listen (c : Conversation) (input : Bytes) : Verdict Conversation UInt8 :=
  match parseMessage client maxSize input with
  | .error .ag => .again
  | .error .ng => .halt
      { trace := c.trace ++ [.closed client]
        status := .closed
        stateful := c.stateful.eraseState client }
  | .ok (none, _) => .halt { c with status := .crashed }
  | .ok (some message, rest) =>
      if GoesOn (handler (c.messages ++ [message])) then
        .next (heard handler client c message) rest
      else .halt (heard handler client c message)

/-- The connection as a consumer of the bytes of its client. -/
def consumer : Consumer Conversation UInt8 where
  step := listen maxSize handler client
  empty _ := rfl
  next := by
    intro c input after rest read more
    unfold listen at read ⊢
    split at read
    · cases read
    · cases read
    · cases read
    · next message left parsed =>
        rw [(stable_parseMessage client maxSize).ok parsed more]
        dsimp only
        split at read
        · next stays =>
            rw [if_pos stays]
            cases read
            rfl
        · cases read
  halt := by
    intro c input after read more
    unfold listen at read ⊢
    split at read
    · cases read
    · next parsed =>
        rw [(stable_parseMessage client maxSize).error parsed (by decide) more]
        exact read
    · next left parsed =>
        rw [(stable_parseMessage client maxSize).ok parsed more]
        exact read
    · next message left parsed =>
        rw [(stable_parseMessage client maxSize).ok parsed more]
        dsimp only
        split at read
        · cases read
        · next leaves =>
            rw [if_neg leaves]
            exact read
  shorter := by
    intro c input after rest read
    unfold listen at read
    split at read
    · cases read
    · cases read
    · cases read
    · next message left parsed =>
        split at read
        · cases read
          exact takes_parseMessage client maxSize _ _ _ parsed
        · cases read

end Consumer

end WebSocket

namespace WebSocketSession

variable {sha1 : Bytes → Bytes} {maxSize : Nat} {handler : MessageHandler}
  {client : Fd}

theorem close_own (client : Fd) (s : WebSocketSession) :
    (host client).close client s = .ok true { s.record (.closed client) with
      status := .closed
      stateful := s.stateful.eraseState client
      bufferable := s.bufferable.eraseBuf client } := by
  simp [host, Stepwise.modifyGet_eq]

/-- A session in which the reaction to a message has been made. -/
def answered (client : Fd) (message : WebSocketMessage) (s : WebSocketSession) :
    WebSocketSession :=
  let trace := s.trace ++ WebSocket.consequences client message
  if WebSocket.GoesOn message then { s with trace }
  else
    { trace
      status := .closed
      stateful := s.stateful.eraseState client
      bufferable := s.bufferable.eraseBuf client }

theorem send_eq (payload : Bytes) (opcode : UInt8) (s : WebSocketSession) :
    WebSocket.send (host client) client payload opcode true s =
      .ok true (s.record (.wrote client (WebSocket.frame payload opcode true))) :=
  rfl

theorem closing_eq (code : UInt16) (reason : Bytes) (s : WebSocketSession) :
    (do
      let _ ← WebSocket.close (host client) client code reason
      return false : M Bool) s =
      .ok false {
        trace := s.trace ++ [.wrote client (WebSocket.frame
          (littleEndian 2 code.toNat ++ reason)
          WebSocket.opcodeConnectionClose true), .closed client]
        status := .closed
        stateful := s.stateful.eraseState client
        bufferable := s.bufferable.eraseBuf client } := by
  have closed : WebSocket.close (host client) client code reason s = _ :=
    (Stepwise.bind_of_ok (send_eq _ _ s)).trans (close_own client _)
  rw [Stepwise.bind_of_ok closed]
  simp [record]
  rfl

theorem respond_eq (client : Fd) (message : WebSocketMessage)
    (s : WebSocketSession) :
    WebSocket.respond (host client) client message s =
      .ok (WebSocket.GoesOn message) (s.answered client message) := by
  unfold WebSocket.respond answered WebSocket.consequences WebSocket.reply
  by_cases data : message.opcode = WebSocket.opcodeTextFrame ∨
      message.opcode = WebSocket.opcodeBinaryFrame
  · have goesOn : WebSocket.GoesOn message := by
      rcases data with isText | isBinary
      · exact .inl isText
      · exact .inr (.inl isBinary)
    simp only [if_pos data, if_pos goesOn, decide_eq_true goesOn]
    simp
    rfl
  · by_cases close : message.opcode = WebSocket.opcodeConnectionClose
    · have ends : ¬ WebSocket.GoesOn message := by
        unfold WebSocket.GoesOn
        rw [close]
        decide
      simp only [if_neg data, if_pos close, if_neg ends, decide_eq_false ends]
      exact closing_eq _ _ s
    · by_cases ping : message.opcode = WebSocket.opcodePing
      · have goesOn : WebSocket.GoesOn message := .inr (.inr (.inl ping))
        simp only [if_neg data, if_neg close, if_pos ping, if_pos goesOn,
          decide_eq_true goesOn]
        rfl
      · by_cases pong : message.opcode = WebSocket.opcodePong
        · have goesOn : WebSocket.GoesOn message := .inr (.inr (.inr pong))
          simp only [if_neg data, if_neg close, if_neg ping, if_pos pong,
            if_pos goesOn, decide_eq_true goesOn]
          simp
          rfl
        · have ends : ¬ WebSocket.GoesOn message := by
            rintro (isText | isBinary | isPing | isPong)
            · exact data (.inl isText)
            · exact data (.inr isBinary)
            · exact ping isPing
            · exact pong isPong
          simp only [if_neg data, if_neg close, if_neg ping, if_neg pong,
            if_neg ends, decide_eq_false ends]
          exact closing_eq _ _ s

theorem shows_ended {c : Conversation} {after : WebSocketSession}
    {input : Bytes} (ended : c.status ≠ .opened) (reached : ⟨c, ∅⟩ = after) :
    (view client).Shows client after (.halted c) ∧
      (input ≠ [] → (view client).Tight client after) := by
  subst reached
  have empty : (view client).bufferable ⟨c, ∅⟩ = ∅ := rfl
  exact ⟨.halted ended empty,
    fun _ => View.tight_of_empty empty⟩

/-- The loop of `on_message` reads everything there is to read. -/
theorem converse_shows {c : Conversation}
    (isOpen : (view client).opened c) {fuel : Nat} {input : Bytes}
    (enough : input.length < fuel) {after : WebSocketSession}
    (conversed : settled (WebSocket.converse (host client) (fire handler)
      maxSize client fuel input ⟨c, ∅⟩) = after) :
    (view client).Shows client after
        ((WebSocket.consumer maxSize handler client).drain c input) ∧
      (input ≠ [] → (view client).Tight client after) := by
  induction fuel generalizing c input with
  | zero => omega
  | succ fuel induction =>
      have step : (WebSocket.consumer maxSize handler client).step c input =
        WebSocket.listen maxSize handler client c input := rfl
      unfold WebSocket.listen at step
      unfold WebSocket.converse at conversed
      cases parsed : WebSocket.parseMessage client maxSize input with
      | error stop =>
          rw [parsed] at conversed step
          cases stop with
          | ag =>
              rw [Consumer.drain_of_again step]
              have kept : ⟨c, (∅ : Bufferable).insert client input⟩ = after :=
                conversed
              subst kept
              refine ⟨View.shows_kept isOpen rfl, ?_⟩
              intro nonempty
              simpa [View.Tight, view] using nonempty
          | ng =>
              rw [Consumer.drain_of_halt step]
              dsimp only at conversed
              have closed := close_own client ⟨c, ∅⟩
              rw [View.erase_empty] at closed
              rw [Stepwise.bind_of_ok closed] at conversed
              exact shows_ended (by simp) conversed
      | ok read =>
          obtain ⟨message, rest⟩ := read
          rw [parsed] at conversed step
          cases message with
          | none =>
              rw [Consumer.drain_of_halt step]
              exact shows_ended (by simp) conversed
          | some message =>
              dsimp only at conversed step
              have fired : fire handler message ⟨c, ∅⟩ =
                .ok (handler (c.messages ++ [message]))
                  (WebSocketSession.record (.fired message) ⟨c, ∅⟩) := rfl
              rw [Stepwise.bind_of_ok fired,
                Stepwise.bind_of_ok (respond_eq _ _ _)] at conversed
              by_cases goesOn : WebSocket.GoesOn (handler (c.messages ++ [message]))
              · rw [if_pos goesOn] at step
                have reached : answered client (handler (c.messages ++ [message]))
                    (WebSocketSession.record (.fired message) ⟨c, ∅⟩) =
                      ⟨WebSocket.heard handler client c message, ∅⟩ := by
                  simp [answered, WebSocket.heard, goesOn, record]
                have stays : (view client).opened
                    (WebSocket.heard handler client c message) := by
                  simpa [WebSocket.heard, goesOn, view] using isOpen
                rw [reached, decide_eq_true goesOn] at conversed
                rw [Consumer.drain_of_next step]
                cases rest with
                | nil =>
                    rw [Consumer.drain_of_again
                      ((WebSocket.consumer maxSize handler client).empty _)]
                    have nothing :
                      ⟨WebSocket.heard handler client c message, ∅⟩ = after :=
                        conversed
                    subst nothing
                    exact ⟨View.shows_nothing stays rfl,
                      fun _ => View.tight_of_empty rfl⟩
                | cons byte rest =>
                    have less :=
                      WebSocket.takes_parseMessage client maxSize _ _ _ parsed
                    obtain ⟨shown, tight⟩ := induction stays (by omega) conversed
                    exact ⟨shown, fun _ => tight (by simp)⟩
              · rw [if_neg goesOn] at step
                have reached : answered client (handler (c.messages ++ [message]))
                    (WebSocketSession.record (.fired message) ⟨c, ∅⟩) =
                      ⟨WebSocket.heard handler client c message, ∅⟩ := by
                  simp [answered, WebSocket.heard, goesOn, record,
                    View.erase_empty]
                rw [reached, decide_eq_false goesOn] at conversed
                rw [Consumer.drain_of_halt step]
                refine shows_ended ?_ conversed
                simp [WebSocket.heard, goesOn]

/-- One delivery is one piece for the consumer. -/
theorem delivers : (view client).Delivers client
    (WebSocket.consumer maxSize handler client)
    (deliver sha1 maxSize handler client) := by
  intro s position shown piece
  cases shown with
  | waiting isOpen own =>
      obtain ⟨c, b⟩ := s
      have isOpen : (view client).opened c := isOpen
      have own : b.erase client = ∅ := own
      have appended : (host client).appendBuf client piece ⟨c, b⟩ =
          .ok ((b[client]?).getD [] ++ piece) ⟨c, ∅⟩ := by
        simp [host, Stepwise.modifyGet_eq, View.appendBuf_eq own]
      have state : (host client).getState client ⟨c, ∅⟩ =
          .ok .opened ⟨c, ∅⟩ := by
        simp [host, Stepwise.modifyGet_eq, isOpen.2]
      unfold deliver WebSocket.onMessage
      rw [if_pos isOpen.1, Stepwise.bind_of_ok appended,
        Stepwise.bind_of_ok state]
      obtain ⟨conversed, tight⟩ := converse_shows isOpen
        (Nat.lt_succ_self ((b[client]?).getD [] ++ piece).length) rfl
      exact ⟨conversed, fun nonempty => tight (by simp [nonempty])⟩
  | halted ended empty =>
      have ended : s.status ≠ .opened := ended
      unfold deliver
      rw [if_neg ended]
      exact ⟨.halted ended empty, fun _ => View.tight_of_empty empty⟩

theorem established_opened (client : Fd) (past : List Effect) :
    (view client).opened ((view client).state (established client past)) := by
  simp [view, established, Stateful.setState, Stateful.getState]

/-- One delivery to an open connection is everything that can be read of
it. -/
theorem deliver_established (sha1 : Bytes → Bytes) (maxSize : Nat)
    (handler : MessageHandler) (client : Fd) (past : List Effect)
    (input : Bytes) :
    (view client).Shows client
      (deliver sha1 maxSize handler client (established client past) input)
      ((WebSocket.consumer maxSize handler client).drain
        (established client past).toConversation input) := by
  have begun : (view client).Shows client (established client past) _ :=
    View.shows_nothing (established_opened client past) rfl
  exact (delivers begun input).1

end WebSocketSession

open WebSocketSession

/-- However the stream of a client is cut, the same messages are fired, the
same frames are written, the client is closed or not at the same place, and
the same bytes are left over.  Without empty deliveries the whole session is
the same. -/
theorem websocket_segmentation_independent (sha1 : Bytes → Bytes)
    (maxSize : Nat) (handler : MessageHandler) (client : Fd)
    (past : List Effect) (pieces : List Bytes) :
    let cut := pieces.foldl (deliver sha1 maxSize handler client)
      (established client past)
    let whole := deliver sha1 maxSize handler client
      (established client past) pieces.flatten
    cut.trace = whole.trace ∧ cut.status = whole.status ∧
      (cut.bufferable[client]?).getD [] = (whole.bufferable[client]?).getD [] ∧
      (pieces ≠ [] → [] ∉ pieces → cut = whole) := by
  intro cut whole
  have delivering : (view client).Delivers client
      (WebSocket.consumer maxSize handler client)
      (deliver sha1 maxSize handler client) := delivers
  obtain ⟨state, remainder, same⟩ :=
    View.cut_eq_whole delivering (established_opened client past) rfl pieces
  exact ⟨congrArg Conversation.trace state, congrArg Conversation.status state,
    remainder, same⟩

end Universe
