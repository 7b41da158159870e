import Universe.WebSocket.Frames

/-!
# Control frames between fragments

The loop over the frames of a message ends at the first frame with `fin`,
whatever its opcode.  A ping between two fragments is taken for the end of the
message, and the next fragment for the beginning of another one.
-/

namespace Universe

open Incremental StreamReader

namespace WebSocket

/-- A ping or a pong in one frame. -/
structure Control where
  ping : Bool
  fragment : Fragment
  deriving DecidableEq, Repr

namespace Control

def opcode (control : Control) : UInt8 :=
  if control.ping then opcodePing else opcodePong

/-- The control frame as a message of its own. -/
def split (control : Control) : SplitMessage :=
  { opcode := control.opcode, first := control.fragment, more := [] }

theorem opcode_small (control : Control) : control.opcode < 16 := by
  unfold opcode
  cases control.ping <;> decide

theorem split_valid {maxSize : Nat} {control : Control}
    (valid : control.fragment.Valid maxSize) : control.split.Valid maxSize := by
  refine ⟨?_, valid, by simp [split]⟩
  unfold split opcode
  cases control.ping with
  | true => exact .inr (.inr (.inl rfl))
  | false => exact .inr (.inr (.inr rfl))

end Control

/-- The fragments after the first one, with the control frames before each of
them. -/
def interleaved : List (List Control × Fragment) → Bytes
  | [] => []
  | (controls, fragment) :: more =>
      controls.flatMap (fun control => control.split.bytes) ++
        (fragment.bytes opcodeContinueFrame more.isEmpty ++ interleaved more)

/-- A message in fragments with control frames between them. -/
structure Interleaved where
  opcode : UInt8
  first : Fragment
  rest : List (List Control × Fragment)
  deriving DecidableEq, Repr

namespace Interleaved

variable (message : Interleaved)

def bytes : Bytes :=
  message.first.bytes message.opcode message.rest.isEmpty ++
    interleaved message.rest

/-- The data fragments only. -/
def payload : Bytes :=
  message.first.payload ++ message.rest.flatMap fun entry => entry.2.payload

def controls : List Control := message.rest.flatMap Prod.fst

/-- A text or a binary message. -/
structure Valid (maxSize : Nat) : Prop where
  opcode : message.opcode = opcodeTextFrame ∨ message.opcode = opcodeBinaryFrame
  first : message.first.Valid maxSize
  rest : ∀ entry ∈ message.rest, entry.2.Valid maxSize ∧
    ∀ control ∈ entry.1, control.fragment.Valid maxSize

/-- One data message is fired, that of the data fragments, and every ping is
answered with its payload. -/
structure Handled (client : Fd) (after : Conversation) : Prop where
  data : (after.messages.filter fun fired => fired.opcode < 8) =
    [⟨client, message.opcode, message.payload⟩]
  pongs : after.written =
    (message.controls.filter Control.ping).map fun control =>
      frame control.fragment.payload opcodePong true

end Interleaved

theorem interleaved_control (control : Control) (controls : List Control)
    (fragment : Fragment) (rest : List (List Control × Fragment)) :
    interleaved ((control :: controls, fragment) :: rest) =
      control.fragment.bytes control.opcode true ++
        interleaved ((controls, fragment) :: rest) := by
  simp [interleaved, SplitMessage.bytes, Control.split, continued]

theorem interleaved_plain {rest : List (List Control × Fragment)}
    (plain : ∀ entry ∈ rest, entry.1 = []) :
    interleaved rest = continued (rest.map Prod.snd) := by
  induction rest with
  | nil => rfl
  | cons entry rest induction =>
      obtain ⟨controls, fragment⟩ := entry
      obtain ⟨first, later⟩ := List.forall_mem_cons.mp plain
      have first : controls = [] := first
      simp [interleaved, continued, first, induction later]

section Reading

variable (client : Fd) {maxSize : Nat} (isSize : maxSize < 2 ^ 64)

include isSize

/-- Whatever stands between the fragments, some frame ends the message. -/
theorem fragments_interleaved (known : Option UInt8 × Bytes) {opcode : UInt8}
    (isOpcode : opcode < 16) {first : Fragment}
    {rest : List (List Control × Fragment)} (valid : first.Valid maxSize)
    (restValid : ∀ entry ∈ rest, entry.2.Valid maxSize ∧
      ∀ control ∈ entry.1, control.fragment.Valid maxSize) :
    ∃ payload left, iterate .ag (readFragment client maxSize) known
        (first.bytes opcode rest.isEmpty ++ interleaved rest) =
      .ok (some ⟨client, known.1.getD opcode, payload⟩, left) := by
  induction rest generalizing known opcode first with
  | nil => exact ⟨_, _, fragments_last client isSize known isOpcode valid _⟩
  | cons entry rest induction =>
      obtain ⟨controls, fragment⟩ := entry
      obtain ⟨⟨fragmentValid, controlsValid⟩, laterValid⟩ :=
        List.forall_mem_cons.mp restValid
      rw [List.isEmpty_cons, fragments_more client isSize known isOpcode valid]
      cases controls with
      | nil =>
          exact induction _ (by decide) fragmentValid laterValid
      | cons control controls =>
          have controlValid := controlsValid control List.mem_cons_self
          rw [interleaved_control]
          exact ⟨_, _, fragments_last client isSize _
            control.opcode_small controlValid _⟩

/-- The first control frame between the fragments ends the message. -/
theorem fragments_broken (known : Option UInt8 × Bytes) {opcode : UInt8}
    (isOpcode : opcode < 16) {first : Fragment}
    {rest : List (List Control × Fragment)} (valid : first.Valid maxSize)
    (restValid : ∀ entry ∈ rest, entry.2.Valid maxSize ∧
      ∀ control ∈ entry.1, control.fragment.Valid maxSize)
    (broken : ∃ entry ∈ rest, entry.1 ≠ []) :
    ∃ payload controls fragment more,
      (∀ control ∈ controls, control.fragment.Valid maxSize) ∧
      fragment.Valid maxSize ∧
      (∀ entry ∈ more, entry.2.Valid maxSize ∧
        ∀ control ∈ entry.1, control.fragment.Valid maxSize) ∧
      iterate .ag (readFragment client maxSize) known
          (first.bytes opcode rest.isEmpty ++ interleaved rest) =
        .ok (some ⟨client, known.1.getD opcode, payload⟩,
          interleaved ((controls, fragment) :: more)) := by
  induction rest generalizing known opcode first with
  | nil => simp at broken
  | cons entry rest induction =>
      obtain ⟨controls, fragment⟩ := entry
      obtain ⟨⟨fragmentValid, controlsValid⟩, laterValid⟩ :=
        List.forall_mem_cons.mp restValid
      rw [List.isEmpty_cons, fragments_more client isSize known isOpcode valid]
      cases controls with
      | nil =>
          have later : ∃ entry ∈ rest, entry.1 ≠ [] := by simpa using broken
          exact induction _ (by decide) fragmentValid laterValid later
      | cons control controls =>
          obtain ⟨controlValid, othersValid⟩ :=
            List.forall_mem_cons.mp controlsValid
          rw [interleaved_control]
          exact ⟨_, controls, fragment, rest, othersValid, fragmentValid,
            laterValid, fragments_last client isSize _
            control.opcode_small controlValid _⟩

end Reading

/-- Without control frames it is a split message. -/
theorem Interleaved.bytes_plain {message : Interleaved}
    (plain : ∀ entry ∈ message.rest, entry.1 = []) :
    message.bytes = SplitMessage.bytes
      ⟨message.opcode, message.first, message.rest.map Prod.snd⟩ := by
  unfold Interleaved.bytes SplitMessage.bytes
  rw [interleaved_plain plain, List.isEmpty_map]

theorem Interleaved.payload_plain (message : Interleaved) :
    SplitMessage.payload
        ⟨message.opcode, message.first, message.rest.map Prod.snd⟩ =
      message.payload := by
  simp [SplitMessage.payload, Interleaved.payload, List.flatMap_map]

section Conversations

variable {maxSize : Nat} {handler : MessageHandler}

/-- A text or a binary message is not answered. -/
theorem consequences_data {client : Fd} {message : WebSocketMessage}
    (data : message.opcode = opcodeTextFrame ∨
      message.opcode = opcodeBinaryFrame) :
    consequences client message = [] := by
  have goesOn : GoesOn message := by
    rcases data with isText | isBinary
    · exact .inl isText
    · exact .inr (.inl isBinary)
  unfold consequences reply
  rw [if_pos data, if_pos goesOn]
  rfl

/-- With a control frame between its fragments the message is cut into two
data messages, and the second one ends the connection. -/
theorem drain_broken (client : Fd) (isSize : maxSize < 2 ^ 64)
    (keeps : ∀ seen message,
      (handler (seen ++ [message])).opcode = message.opcode)
    {message : Interleaved} (valid : message.Valid maxSize)
    (broken : ∃ entry ∈ message.rest, entry.1 ≠ []) (c : Conversation) :
    ∃ after first between last,
      (consumer maxSize handler client).drain c message.bytes = .halted after ∧
      after.messages = c.messages ++ first :: between ++ [last] ∧
      first.opcode < 8 ∧ last.opcode < 8 := by
  have isData : message.opcode < 8 := by
    rcases valid.opcode with kind | kind <;> rw [kind] <;> decide
  have isOpcode : message.opcode < 16 := by
    rcases valid.opcode with kind | kind <;> rw [kind] <;> decide
  obtain ⟨payload, controls, fragment, more, controlsValid, fragmentValid,
    moreValid, parsed⟩ := fragments_broken client isSize (none, []) isOpcode
      valid.first valid.rest broken
  have goesOn : GoesOn (handler (c.messages ++
      [⟨client, message.opcode, payload⟩])) := by
    unfold GoesOn
    rw [keeps]
    rcases valid.opcode with kind | kind
    · exact .inl kind
    · exact .inr (.inl kind)
  have splitValid : ∀ split ∈ controls.map Control.split,
      split.Valid maxSize := by
    intro split member
    obtain ⟨control, present, rfl⟩ := List.mem_map.mp member
    exact Control.split_valid (controlsValid control present)
  have parsed : parseMessage client maxSize message.bytes =
      .ok (some ⟨client, message.opcode, payload⟩,
        interleaved ((controls, fragment) :: more)) := parsed
  have drained := drain_message parsed goesOn
  have text : interleaved ((controls, fragment) :: more) =
      (controls.map Control.split).flatMap SplitMessage.bytes ++
        (fragment.bytes opcodeContinueFrame more.isEmpty ++ interleaved more) := by
    simp [interleaved, List.flatMap_map]
  rw [text, drain_messages client isSize keeps splitValid] at drained
  obtain ⟨rest, left, last⟩ := fragments_interleaved client isSize (none, [])
    (by decide : opcodeContinueFrame < 16) fragmentValid moreValid
  generalize reached : ((controls.map Control.split).map
    (SplitMessage.message client)).foldl (heard handler client)
      (heard handler client c ⟨client, message.opcode, payload⟩) = d at drained
  have ends : ¬ GoesOn (handler (d.messages ++
      [⟨client, opcodeContinueFrame, rest⟩])) := by
    have none : ¬ (opcodeContinueFrame = opcodeTextFrame ∨
        opcodeContinueFrame = opcodeBinaryFrame ∨
        opcodeContinueFrame = opcodePing ∨
        opcodeContinueFrame = opcodePong) := by
      decide
    unfold GoesOn
    rw [keeps]
    exact none
  have halts : (consumer maxSize handler client).step d
      (fragment.bytes opcodeContinueFrame more.isEmpty ++ interleaved more) =
        .halt (heard handler client d ⟨client, opcodeContinueFrame, rest⟩) := by
    change listen maxSize handler client d _ = _
    unfold listen parseMessage
    rw [last]
    exact if_neg ends
  rw [Consumer.drain_of_halt halts] at drained
  have isContinuation : opcodeContinueFrame < 8 := by decide
  refine ⟨_, ⟨client, message.opcode, payload⟩,
    (controls.map Control.split).map (SplitMessage.message client),
    ⟨client, opcodeContinueFrame, rest⟩, drained, ?_, isData, isContinuation⟩
  rw [heard_messages, ← reached, foldl_heard_messages, heard_messages]
  simp

end Conversations

end WebSocket

open WebSocketSession WebSocket

/-- A fragmented message with control frames between its fragments is handled
as one data message, with a pong for every ping, exactly when there are no
such control frames. -/
theorem control_frames_between_fragments (sha1 : Bytes → Bytes) {maxSize : Nat}
    (isSize : maxSize < 2 ^ 64) {handler : MessageHandler}
    (keeps : ∀ seen message,
      (handler (seen ++ [message])).opcode = message.opcode)
    (client : Fd) {message : Interleaved} (valid : message.Valid maxSize) :
    message.Handled client (deliver sha1 maxSize handler client
        (established client []) message.bytes).toConversation ↔
      ∀ entry ∈ message.rest, entry.1 = [] := by
  have shown := deliver_established sha1 maxSize handler client []
    message.bytes
  constructor
  · intro handled
    by_contra notPlain
    have broken : ∃ entry ∈ message.rest, entry.1 ≠ [] := by
      simpa using notPlain
    obtain ⟨after, first, between, last, drained, messages, firstData,
      lastData⟩ := drain_broken client isSize keeps valid broken
        (established client []).toConversation
    rw [drained] at shown
    obtain ⟨state, -, -⟩ := shown.of_halted
    have state : (deliver sha1 maxSize handler client
      (established client []) message.bytes).toConversation = after := state
    have data := handled.data
    have count := congrArg List.length data
    rw [state, messages] at count
    simp [established, Conversation.messages, firstData, lastData] at count
  · intro plain
    have splitValid : ∀ split ∈ [(⟨message.opcode, message.first,
        message.rest.map Prod.snd⟩ : SplitMessage)], split.Valid maxSize := by
      intro split member
      rw [List.mem_singleton.mp member]
      refine ⟨?_, valid.first, ?_⟩
      · rcases valid.opcode with kind | kind
        · exact .inl kind
        · exact .inr (.inl kind)
      · intro fragment present
        obtain ⟨entry, inRest, rfl⟩ := List.mem_map.mp present
        exact (valid.rest entry inRest).1
    have drained := drain_messages client isSize keeps splitValid
      (established client []).toConversation []
    rw [Consumer.drain_of_again ((consumer maxSize handler client).empty _),
      List.append_nil, List.flatMap_singleton,
      ← Interleaved.bytes_plain plain] at drained
    rw [drained] at shown
    obtain ⟨state, -, -⟩ := shown.of_waiting
    have state : (deliver sha1 maxSize handler client
      (established client []) message.bytes).toConversation =
        heard handler client (established client []).toConversation
          ⟨client, message.opcode, message.payload⟩ := by
      rw [← message.payload_plain]
      exact state
    have isData : message.opcode < 8 := by
      rcases valid.opcode with kind | kind <;> rw [kind] <;> decide
    have silent : consequences client (handler
        ((established client []).messages ++
          [⟨client, message.opcode, message.payload⟩])) = [] :=
      consequences_data (by rw [keeps]; exact valid.opcode)
    have noControls : message.controls = [] := List.flatMap_eq_nil_iff.mpr plain
    constructor
    · rw [state, heard_messages]
      simp [established, Conversation.messages, isData]
    · rw [state, noControls]
      unfold heard Conversation.written
      dsimp only
      rw [silent]
      split <;> rfl

theorem fragments_without_control_handled :
    Interleaved.Handled
      ⟨opcodeTextFrame, ⟨ascii "Hel", .sent⟩, [([], ⟨ascii "lo", .sent⟩)]⟩ 5
      (deliver id (2 ^ 63) .silent 5 (established 5 [])
        (Interleaved.bytes ⟨opcodeTextFrame, ⟨ascii "Hel", .sent⟩,
          [([], ⟨ascii "lo", .sent⟩)]⟩)).toConversation := by
  have valid : Interleaved.Valid ⟨opcodeTextFrame, ⟨ascii "Hel", .sent⟩,
      [([], ⟨ascii "lo", .sent⟩)]⟩ (2 ^ 63) := by
    refine ⟨.inl rfl, ?_, ?_⟩
    · simp [Fragment.Valid, ascii]
    · simp [Fragment.Valid, ascii]
  exact (control_frames_between_fragments id (by decide)
    (fun seen message => by rw [MessageHandler.silent_keeps]) 5 valid).mpr
    (by simp)

/-- A ping between two fragments is not answered, and its payload becomes a
part of the message. -/
theorem ping_breaks_message :
    (deliver id (2 ^ 63) .silent 5 (established 5 [])
        (Interleaved.bytes ⟨opcodeTextFrame, ⟨ascii "a", .sent⟩,
          [([⟨true, ⟨ascii "x", .sent⟩⟩], ⟨ascii "b", .sent⟩)]⟩)).messages =
      [⟨5, opcodeTextFrame, ascii "ax"⟩, ⟨5, opcodeContinueFrame, ascii "b"⟩] ∧
    ¬ Interleaved.Handled ⟨opcodeTextFrame, ⟨ascii "a", .sent⟩,
        [([⟨true, ⟨ascii "x", .sent⟩⟩], ⟨ascii "b", .sent⟩)]⟩ 5
      (deliver id (2 ^ 63) .silent 5 (established 5 [])
        (Interleaved.bytes ⟨opcodeTextFrame, ⟨ascii "a", .sent⟩,
          [([⟨true, ⟨ascii "x", .sent⟩⟩],
            ⟨ascii "b", .sent⟩)]⟩)).toConversation := by
  have messages : (deliver id (2 ^ 63) .silent 5 (established 5 [])
      (Interleaved.bytes ⟨opcodeTextFrame, ⟨ascii "a", .sent⟩,
        [([⟨true, ⟨ascii "x", .sent⟩⟩], ⟨ascii "b", .sent⟩)]⟩)).messages =
      [⟨5, opcodeTextFrame, ascii "ax"⟩,
        ⟨5, opcodeContinueFrame, ascii "b"⟩] := by
    decide +kernel
  refine ⟨messages, ?_⟩
  intro handled
  have data := handled.data
  rw [messages] at data
  revert data
  decide +kernel

end Universe
