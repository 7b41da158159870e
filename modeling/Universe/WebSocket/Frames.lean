import Universe.WebSocket.Segmentation

/-!
# Frames on the wire

The frames that `send` writes, and those of a peer that masks its payload or
uses a longer form for a length, are read as the messages they were made of.
-/

namespace Universe

open Incremental StreamReader

theorem length_littleEndian (size value : Nat) :
    (littleEndian size value).length = size := by
  induction size generalizing value with
  | zero => rfl
  | succ size induction => simp [littleEndian, induction]

theorem ofLittleEndian_littleEndian {size value : Nat}
    (small : value < 256 ^ size) :
    ofLittleEndian (littleEndian size value) = value := by
  induction size generalizing value with
  | zero =>
      have zero : value = 0 := by simpa using small
      rw [zero]
      rfl
  | succ size induction =>
      have later : value / 256 < 256 ^ size := by
        apply Nat.div_lt_of_lt_mul
        rwa [Nat.mul_comm, ← Nat.pow_succ]
      have byte : (UInt8.ofNat value).toNat = value % 256 := by
        rw [UInt8.toNat_ofNat']
      rw [littleEndian, ofLittleEndian, induction later, byte]
      omega

theorem readNetwork_hton {size value : Nat} (small : value < 256 ^ size)
    (rest : Bytes) :
    readNetwork size (Utils.hton (littleEndian size value) ++ rest) =
      .ok (value, rest) := by
  have read : readSize size (Utils.hton (littleEndian size value) ++ rest) =
      .ok (Utils.hton (littleEndian size value), rest) := by
    refine readSize_eq_ok.mpr ⟨rfl, ?_⟩
    simp [Utils.hton, length_littleEndian]
  unfold readNetwork
  rw [bind_of_ok read, Utils.hton, Utils.hton, List.reverse_reverse,
    ofLittleEndian_littleEndian small]
  rfl

namespace WebSocket

theorem masked_masked (key payload : Bytes) :
    masked key (masked key payload) = payload := by
  unfold masked
  rw [List.mapIdx_mapIdx]
  apply List.ext_getElem
  · simp
  · intro index _ _
    simp only [List.getElem_mapIdx, Function.comp_apply]
    rw [UInt8.xor_assoc, UInt8.xor_self, UInt8.xor_zero]

theorem length_masked (key payload : Bytes) :
    (masked key payload).length = payload.length := by
  simp [masked]

/-- The three forms of a length. -/
inductive LengthForm where
  | seven
  | sixteen
  | sixtyFour
  deriving DecidableEq, Repr

namespace LengthForm

def limit : LengthForm → Nat
  | seven => 0x7e
  | sixteen => 2 ^ 16
  | sixtyFour => 2 ^ 64

/-- The second byte with the mask bit, and the extended length. -/
def bytes (mask : Bool) : LengthForm → Nat → Bytes
  | seven, length => [(if mask then 0x80 else 0) + UInt8.ofNat length]
  | sixteen, length =>
      ((if mask then 0x80 else 0) + 0x7e) :: Utils.hton (littleEndian 2 length)
  | sixtyFour, length =>
      ((if mask then 0x80 else 0) + 0x7f) :: Utils.hton (littleEndian 8 length)

end LengthForm

/-- How a frame is written: by `send`, or in one of the forms and under a
key or not. -/
inductive Layout where
  | sent
  | formed (form : LengthForm) (key : Option Bytes)
  deriving DecidableEq, Repr

/-- A piece of a message. -/
structure Fragment where
  payload : Bytes
  layout : Layout
  deriving DecidableEq, Repr

namespace Fragment

/-- The payload is a string, and its length and its key fit their places. -/
def Valid (maxSize : Nat) (fragment : Fragment) : Prop :=
  fragment.payload.length ≤ maxSize ∧
    match fragment.layout with
    | .sent => True
    | .formed form key =>
        fragment.payload.length < form.limit ∧ ∀ bytes ∈ key, bytes.length = 4

/-- The frame of a fragment. -/
def bytes (fragment : Fragment) (opcode : UInt8) (fin : Bool) : Bytes :=
  match fragment.layout with
  | .sent => frame fragment.payload opcode fin
  | .formed form none =>
      firstByte opcode fin :: form.bytes false fragment.payload.length ++
        fragment.payload
  | .formed form (some key) =>
      firstByte opcode fin :: form.bytes true fragment.payload.length ++ key ++
        masked key fragment.payload

end Fragment

theorem firstByte_fields {opcode : UInt8} (small : opcode < 16) (fin : Bool) :
    decide (firstByte opcode fin >>> 7 ≠ 0) = fin ∧
      firstByte opcode fin &&& 0x0f = opcode := by
  have every : ∀ (value : Fin 16) (fin : Bool),
      decide (firstByte (UInt8.ofNat value) fin >>> 7 ≠ 0) = fin ∧
        firstByte (UInt8.ofNat value) fin &&& 0x0f = UInt8.ofNat value := by
    decide +kernel
  have value : UInt8.ofNat opcode.toNat = opcode := UInt8.ofNat_toNat
  have fields := every ⟨opcode.toNat, UInt8.lt_iff_toNat_lt.mp small⟩ fin
  rwa [value] at fields

theorem secondByte_fields {length : Nat} (small : length < 128) (mask : Bool) :
    decide (((if mask then 0x80 else 0) + UInt8.ofNat length) >>> 7 ≠ 0) = mask ∧
      ((if mask then 0x80 else 0) + UInt8.ofNat length) &&& 0x7f =
        UInt8.ofNat length ∧ (UInt8.ofNat length).toNat = length := by
  have every : ∀ (length : Fin 128) (mask : Bool),
      decide (((if mask then 0x80 else 0) + UInt8.ofNat length) >>> 7 ≠ 0) =
          mask ∧
        ((if mask then 0x80 else 0) + UInt8.ofNat length) &&& 0x7f =
          UInt8.ofNat length ∧ (UInt8.ofNat length).toNat = length := by
    decide +kernel
  exact every ⟨length, small⟩ mask

theorem readLength_bytes {form : LengthForm} {length : Nat}
    (fits : length < form.limit) (mask : Bool) (rest : Bytes) :
    ∃ secondByte extended, form.bytes mask length = secondByte :: extended ∧
      decide (secondByte >>> 7 ≠ 0) = mask ∧
      readLength secondByte (extended ++ rest) = .ok (length, rest) := by
  cases form with
  | seven =>
      have fits : length < 0x7e := fits
      obtain ⟨isMasked, fields, value⟩ :=
        secondByte_fields (by omega : length < 128) mask
      refine ⟨_, [], rfl, isMasked, ?_⟩
      have notSixteen : UInt8.ofNat length ≠ 0x7e := by
        intro same
        have : length = 0x7e := by rw [← value, same]; rfl
        omega
      have notSixtyFour : UInt8.ofNat length ≠ 0x7f := by
        intro same
        have : length = 0x7f := by rw [← value, same]; rfl
        omega
      unfold readLength
      rw [fields, if_neg notSixteen, if_neg notSixtyFour, value]
      rfl
  | sixteen =>
      obtain ⟨isMasked, fields, -⟩ :=
        secondByte_fields (by decide : 0x7e < 128) mask
      refine ⟨_, _, rfl, isMasked, ?_⟩
      have fields : ((if mask then 0x80 else 0) + 0x7e : UInt8) &&& 0x7f =
        0x7e := fields
      unfold readLength
      rw [fields, if_pos rfl]
      exact readNetwork_hton fits rest
  | sixtyFour =>
      obtain ⟨isMasked, fields, -⟩ :=
        secondByte_fields (by decide : 0x7f < 128) mask
      refine ⟨_, _, rfl, isMasked, ?_⟩
      have fields : ((if mask then 0x80 else 0) + 0x7f : UInt8) &&& 0x7f =
        0x7f := fields
      unfold readLength
      rw [fields, if_neg (by decide), if_pos rfl]
      exact readNetwork_hton fits rest

/-- The form that `send` chooses. -/
def sentForm (length : Nat) : LengthForm :=
  if 0xffff < length then .sixtyFour
  else if 0x7d < length then .sixteen
  else .seven

theorem lengthBytes_eq (length : Nat) :
    lengthBytes length = (sentForm length).bytes false length := by
  unfold lengthBytes sentForm
  split
  · rfl
  · split
    · rfl
    · simp [LengthForm.bytes]

theorem sentForm_fits {length : Nat} (small : length < 2 ^ 64) :
    length < (sentForm length).limit := by
  unfold sentForm
  split
  · exact small
  · split
    · change length < 2 ^ 16
      omega
    · change length < 0x7e
      omega

/-- What follows the length of a frame is its payload, under a key or not. -/
theorem readFrame_formed {maxSize : Nat} {opcode : UInt8}
    (isOpcode : opcode < 16) (fin : Bool) {form : LengthForm}
    {payload : Bytes} (small : payload.length ≤ maxSize)
    (fits : payload.length < form.limit) (rest : Bytes) :
    readFrame maxSize (firstByte opcode fin ::
        (form.bytes false payload.length ++ payload ++ rest)) =
      .ok (some ⟨fin, opcode, payload⟩, rest) := by
  obtain ⟨finField, opcodeField⟩ := firstByte_fields isOpcode fin
  obtain ⟨secondByte, extended, bytes, maskField, length⟩ :=
    readLength_bytes fits false (payload ++ rest)
  have plain : ¬ secondByte >>> 7 ≠ 0 := of_decide_eq_false maskField
  have text : form.bytes false payload.length ++ payload ++ rest =
      secondByte :: (extended ++ (payload ++ rest)) := by
    rw [bytes]
    simp
  have read : readSize payload.length (payload ++ rest) = .ok (payload, rest) :=
    readSize_eq_ok.mpr ⟨rfl, rfl⟩
  have keyless : (pure [] : StreamReader Bytes) (payload ++ rest) =
    .ok ([], payload ++ rest) := rfl
  unfold readFrame
  rw [bind_of_ok (readChar_eq_ok.mpr rfl), text,
    bind_of_ok (readChar_eq_ok.mpr rfl), bind_of_ok length, if_neg plain,
    bind_of_ok keyless, if_neg (Nat.not_lt.mpr small), bind_of_ok read,
    if_neg plain, finField, opcodeField]
  rfl

theorem readFrame_masked {maxSize : Nat} {opcode : UInt8}
    (isOpcode : opcode < 16) (fin : Bool) {form : LengthForm}
    {key payload : Bytes} (isKey : key.length = 4)
    (small : payload.length ≤ maxSize) (fits : payload.length < form.limit)
    (rest : Bytes) :
    readFrame maxSize (firstByte opcode fin ::
        (form.bytes true payload.length ++ key ++ masked key payload ++ rest)) =
      .ok (some ⟨fin, opcode, payload⟩, rest) := by
  obtain ⟨finField, opcodeField⟩ := firstByte_fields isOpcode fin
  obtain ⟨secondByte, extended, bytes, maskField, length⟩ :=
    readLength_bytes fits true (key ++ (masked key payload ++ rest))
  have isMasked : secondByte >>> 7 ≠ 0 := of_decide_eq_true maskField
  have text : form.bytes true payload.length ++ key ++ masked key payload ++
      rest = secondByte :: (extended ++
        (key ++ (masked key payload ++ rest))) := by
    rw [bytes]
    simp
  have keyRead : readSize 4 (key ++ (masked key payload ++ rest)) =
      .ok (key, masked key payload ++ rest) :=
    readSize_eq_ok.mpr ⟨rfl, isKey⟩
  have read : readSize payload.length (masked key payload ++ rest) =
      .ok (masked key payload, rest) :=
    readSize_eq_ok.mpr ⟨rfl, length_masked key payload⟩
  unfold readFrame
  rw [bind_of_ok (readChar_eq_ok.mpr rfl), text,
    bind_of_ok (readChar_eq_ok.mpr rfl), bind_of_ok length, if_pos isMasked,
    bind_of_ok keyRead, if_neg (Nat.not_lt.mpr small), bind_of_ok read,
    if_pos isMasked, masked_masked, finField, opcodeField]
  rfl

/-- A frame is read as it was written. -/
theorem readFrame_bytes {maxSize : Nat} (isSize : maxSize < 2 ^ 64)
    {opcode : UInt8} (isOpcode : opcode < 16) (fin : Bool)
    {fragment : Fragment} (valid : fragment.Valid maxSize) (rest : Bytes) :
    readFrame maxSize (fragment.bytes opcode fin ++ rest) =
      .ok (some ⟨fin, opcode, fragment.payload⟩, rest) := by
  obtain ⟨payload, layout⟩ := fragment
  obtain ⟨small, fits⟩ := valid
  have small : payload.length ≤ maxSize := small
  cases layout with
  | sent =>
      have fits := sentForm_fits (by omega : payload.length < 2 ^ 64)
      have read := readFrame_formed isOpcode fin small fits rest
      rwa [← lengthBytes_eq] at read
  | formed form key =>
      cases key with
      | none => exact readFrame_formed isOpcode fin small fits.1 rest
      | some key =>
          have isKey : key.length = 4 := fits.2 key rfl
          exact readFrame_masked isOpcode fin isKey small fits.1 rest

/-- The frames of the fragments after the first one. -/
def continued : List Fragment → Bytes
  | [] => []
  | fragment :: more =>
      fragment.bytes opcodeContinueFrame more.isEmpty ++ continued more

/-- A message in one or more fragments. -/
structure SplitMessage where
  opcode : UInt8
  first : Fragment
  more : List Fragment
  deriving DecidableEq, Repr

namespace SplitMessage

def bytes (message : SplitMessage) : Bytes :=
  message.first.bytes message.opcode message.more.isEmpty ++
    continued message.more

def payload (message : SplitMessage) : Bytes :=
  message.first.payload ++ message.more.flatMap Fragment.payload

def message (client : Fd) (message : SplitMessage) : WebSocketMessage :=
  { client, opcode := message.opcode, payload := message.payload }

/-- A text, a binary message, a ping or a pong. -/
def Valid (maxSize : Nat) (message : SplitMessage) : Prop :=
  (message.opcode = opcodeTextFrame ∨ message.opcode = opcodeBinaryFrame ∨
    message.opcode = opcodePing ∨ message.opcode = opcodePong) ∧
  message.first.Valid maxSize ∧
  ∀ fragment ∈ message.more, fragment.Valid maxSize

end SplitMessage

section Reading

variable (client : Fd) {maxSize : Nat} (isSize : maxSize < 2 ^ 64)

include isSize

theorem readFragment_bytes (known : Option UInt8 × Bytes) {opcode : UInt8}
    (isOpcode : opcode < 16) (fin : Bool) {fragment : Fragment}
    (valid : fragment.Valid maxSize) (rest : Bytes) :
    readFragment client maxSize known (fragment.bytes opcode fin ++ rest) =
      .ok (if fin then
        .inr (some ⟨client, known.1.getD opcode, known.2 ++ fragment.payload⟩)
      else .inl (some (known.1.getD opcode), known.2 ++ fragment.payload), rest) := by
  unfold readFragment
  rw [bind_of_ok (readFrame_bytes isSize isOpcode fin valid rest)]
  cases fin <;> rfl

/-- The loop ends with a last frame. -/
theorem fragments_last (known : Option UInt8 × Bytes) {opcode : UInt8}
    (isOpcode : opcode < 16) {fragment : Fragment}
    (valid : fragment.Valid maxSize) (rest : Bytes) :
    iterate .ag (readFragment client maxSize) known
        (fragment.bytes opcode true ++ rest) =
      .ok (some ⟨client, known.1.getD opcode, known.2 ++ fragment.payload⟩,
        rest) := by
  rw [fragments_eq,
    bind_of_ok (readFragment_bytes client isSize known isOpcode true valid rest)]
  rfl

/-- The loop goes on after any other frame. -/
theorem fragments_more (known : Option UInt8 × Bytes) {opcode : UInt8}
    (isOpcode : opcode < 16) {fragment : Fragment}
    (valid : fragment.Valid maxSize) (rest : Bytes) :
    iterate .ag (readFragment client maxSize) known
        (fragment.bytes opcode false ++ rest) =
      iterate .ag (readFragment client maxSize)
        (some (known.1.getD opcode), known.2 ++ fragment.payload) rest := by
  rw [fragments_eq,
    bind_of_ok (readFragment_bytes client isSize known isOpcode false valid rest)]
  rfl

theorem fragments_continued (known : Option UInt8 × Bytes) {opcode : UInt8}
    (isOpcode : opcode < 16) {first : Fragment} {more : List Fragment}
    (valid : first.Valid maxSize)
    (moreValid : ∀ fragment ∈ more, fragment.Valid maxSize) (rest : Bytes) :
    iterate .ag (readFragment client maxSize) known
        (first.bytes opcode more.isEmpty ++ continued more ++ rest) =
      .ok (some ⟨client, known.1.getD opcode,
        known.2 ++ (first.payload ++ more.flatMap Fragment.payload)⟩, rest) := by
  induction more generalizing known opcode first with
  | nil =>
      have read := fragments_last client isSize known isOpcode valid rest
      simpa [continued] using read
  | cons fragment more induction =>
      obtain ⟨fragmentValid, laterValid⟩ := List.forall_mem_cons.mp moreValid
      rw [List.append_assoc, List.isEmpty_cons,
        fragments_more client isSize known isOpcode valid, continued,
        induction _ (by decide) fragmentValid laterValid]
      simp

/-- A message is read as it was split. -/
theorem parseMessage_bytes {message : SplitMessage}
    (valid : message.Valid maxSize) (rest : Bytes) :
    parseMessage client maxSize (message.bytes ++ rest) =
      .ok (some (message.message client), rest) := by
  obtain ⟨kind, firstValid, moreValid⟩ := valid
  have isOpcode : message.opcode < 16 := by
    rcases kind with kind | kind | kind | kind <;> rw [kind] <;> decide
  exact fragments_continued client isSize (none, []) isOpcode firstValid moreValid rest

end Reading

section Conversations

variable {maxSize : Nat} {handler : MessageHandler} {client : Fd}

theorem consequences_messages (message : WebSocketMessage) :
    (consequences client message).filterMap Effect.message? = [] := by
  unfold consequences
  cases reply message <;> split <;> rfl

theorem heard_messages (c : Conversation) (message : WebSocketMessage) :
    (heard handler client c message).messages = c.messages ++ [message] := by
  have fired : (c.trace ++ .fired message :: consequences client
      (handler (c.messages ++ [message]))).filterMap Effect.message? =
        c.messages ++ [message] := by
    rw [List.filterMap_append, List.filterMap_cons, consequences_messages]
    rfl
  unfold heard Conversation.messages
  dsimp only
  split <;> exact fired

/-- A message that can be read is heard, and the connection goes on. -/
theorem drain_message {c : Conversation} {input rest : Bytes}
    {message : WebSocketMessage}
    (parsed : parseMessage client maxSize input = .ok (some message, rest))
    (goesOn : GoesOn (handler (c.messages ++ [message]))) :
    (consumer maxSize handler client).drain c input =
      (consumer maxSize handler client).drain
        (heard handler client c message) rest := by
  refine Consumer.drain_of_next ?_
  change listen maxSize handler client c input = _
  unfold listen
  rw [parsed]
  exact if_pos goesOn

theorem goesOn_of_valid (keeps : ∀ seen message,
      (handler (seen ++ [message])).opcode = message.opcode)
    {message : SplitMessage} (valid : message.Valid maxSize)
    (seen : List WebSocketMessage) :
    GoesOn (handler (seen ++ [message.message client])) := by
  have kind := valid.1
  unfold GoesOn
  rw [keeps]
  exact kind

/-- A sequence of messages is heard one after the other. -/
theorem drain_messages (client : Fd) (isSize : maxSize < 2 ^ 64)
    (keeps : ∀ seen message,
      (handler (seen ++ [message])).opcode = message.opcode)
    {messages : List SplitMessage}
    (valid : ∀ message ∈ messages, message.Valid maxSize) (c : Conversation)
    (rest : Bytes) :
    (consumer maxSize handler client).drain c
        (messages.flatMap SplitMessage.bytes ++ rest) =
      (consumer maxSize handler client).drain
        ((messages.map (SplitMessage.message client)).foldl
          (heard handler client) c) rest := by
  induction messages generalizing c with
  | nil => rfl
  | cons message messages induction =>
      obtain ⟨first, later⟩ := List.forall_mem_cons.mp valid
      have text : (message :: messages).flatMap SplitMessage.bytes ++ rest =
          message.bytes ++ (messages.flatMap SplitMessage.bytes ++ rest) := by
        simp
      rw [text, drain_message (parseMessage_bytes client isSize first _)
        (goesOn_of_valid keeps first c.messages), induction later]
      rfl

theorem foldl_heard_messages (messages : List WebSocketMessage)
    (c : Conversation) :
    (messages.foldl (heard handler client) c).messages =
      c.messages ++ messages := by
  induction messages generalizing c with
  | nil => simp
  | cons message messages induction =>
      rw [List.foldl_cons, induction, heard_messages]
      simp

end Conversations

end WebSocket

open WebSocketSession WebSocket

/-- Whatever was split, masked and concatenated is fired message by message,
with the opcodes and the payloads it was made of. -/
theorem websocket_frame_codec (sha1 : Bytes → Bytes) {maxSize : Nat}
    (isSize : maxSize < 2 ^ 64) {handler : MessageHandler}
    (keeps : ∀ seen message,
      (handler (seen ++ [message])).opcode = message.opcode)
    (client : Fd) (past : List Effect) {messages : List SplitMessage}
    (valid : ∀ message ∈ messages, message.Valid maxSize) :
    let after := deliver sha1 maxSize handler client
      (established client past) (messages.flatMap SplitMessage.bytes)
    after.messages = (established client past).messages ++
        messages.map (SplitMessage.message client) ∧
      after.status = .opened ∧ (after.bufferable[client]?).getD [] = [] := by
  intro after
  have shown := deliver_established sha1 maxSize handler client past
    (messages.flatMap SplitMessage.bytes)
  have drained := drain_messages client isSize keeps valid
    (established client past).toConversation []
  rw [List.append_nil, Consumer.drain_of_again
    ((consumer maxSize handler client).empty _)] at drained
  rw [drained] at shown
  obtain ⟨state, isOpen, remainder⟩ := shown.of_waiting
  refine ⟨?_, ?_, remainder⟩
  · rw [← foldl_heard_messages, ← state]
    rfl
  · rw [← state] at isOpen
    exact isOpen.1

/-- No callback is attached to `ON_MESSAGE`. -/
def MessageHandler.silent : MessageHandler :=
  fun seen => seen.getLast?.getD ⟨-1, 0, []⟩

theorem MessageHandler.silent_keeps (seen : List WebSocketMessage)
    (message : WebSocketMessage) : silent (seen ++ [message]) = message := by
  simp [silent]

theorem masked_and_sent_decode :
    (deliver id (2 ^ 63) .silent 5 (established 5 [])
      ([⟨opcodeTextFrame, ⟨ascii "Hel", .formed .sixteen (some [1, 2, 3, 4])⟩,
          [⟨ascii "lo", .sent⟩]⟩,
        ⟨opcodePing, ⟨ascii "?", .formed .seven none⟩, []⟩].flatMap
          SplitMessage.bytes)).messages =
      [⟨5, opcodeTextFrame, ascii "Hello"⟩, ⟨5, opcodePing, ascii "?"⟩] := by
  have valid : ∀ message ∈
      [⟨opcodeTextFrame, ⟨ascii "Hel", .formed .sixteen (some [1, 2, 3, 4])⟩,
          [⟨ascii "lo", .sent⟩]⟩,
        (⟨opcodePing, ⟨ascii "?", .formed .seven none⟩, []⟩ : SplitMessage)],
      message.Valid (2 ^ 63) := by
    simp [SplitMessage.Valid, Fragment.Valid, LengthForm.limit, ascii]
  exact (websocket_frame_codec id (by decide)
    (fun seen message => by rw [MessageHandler.silent_keeps]) 5 [] valid).1

end Universe
