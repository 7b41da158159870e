import Std.Data.ExtTreeMap
import Universe.Protocol
import Universe.Soa

/-!
# The client of a Redis server

`P::Client::Redis` makes commands, reads replies and gives them to its
callbacks in the order of the commands.
-/

namespace Universe

open Incremental

/-- A reply, with the byte its type is made of. -/
structure RedisReply where
  type : UInt8
  reply : Bytes
  elements : List RedisReply

namespace RedisReply

mutual

def decEq : (first second : RedisReply) → Decidable (first = second)
  | ⟨type, reply, elements⟩, ⟨otherType, otherReply, otherElements⟩ =>
      match decEqList elements otherElements with
      | .isTrue same =>
          decidable_of_iff (type = otherType ∧ reply = otherReply)
            (by simp [same])
      | .isFalse different => .isFalse (by simp [different])

def decEqList : (first second : List RedisReply) → Decidable (first = second)
  | [], [] => .isTrue rfl
  | [], _ :: _ => .isFalse (by simp)
  | _ :: _, [] => .isFalse (by simp)
  | head :: tail, otherHead :: otherTail =>
      match decEq head otherHead, decEqList tail otherTail with
      | .isTrue sameHead, .isTrue sameTail => .isTrue (by rw [sameHead, sameTail])
      | .isFalse different, _ => .isFalse (by simp [different])
      | _, .isFalse different => .isFalse (by simp [different])

end

instance : DecidableEq RedisReply := decEq

end RedisReply

namespace Redis

open StreamReader

/-- The rest of a line: `read_until` with the check of the line feed. -/
def readLine : StreamReader Bytes := do
  let line ← readUntil (ascii "\r") true
  let nextByte ← readChar
  failIf (nextByte != 10)
  return line

/-- A bulk string of this length.  A string of more than `maxSize` bytes
cannot be made. -/
def readBulk (maxSize : Nat) (length : Int) :
    StreamReader (Option RedisReply) :=
  if length < 0 then return some ⟨32, [], []⟩
  else if (maxSize : Int) < length then return none
  else do
    let reply ← readSize length.toNat
    readCrlf
    return some ⟨36, reply, []⟩

/-- The elements of an array. -/
def readElements (parse : StreamReader (Option RedisReply)) :
    (count : Nat) → StreamReader (Option (List RedisReply))
  | 0 => return some []
  | count + 1 => do
      match ← parse with
      | none => return none
      | some first =>
          match ← readElements parse count with
          | none => return none
          | some rest => return some (first :: rest)

/-- The switch over the type, with what reads an element of an array.  There
is no default. -/
def readBody (maxSize : Nat) (parse : StreamReader (Option RedisReply))
    (nextByte : UInt8) : StreamReader (Option RedisReply) :=
  if nextByte = 43 ∨ nextByte = 45 ∨ nextByte = 58 then do
    let reply ← readLine
    return some ⟨nextByte, reply, []⟩
  else if nextByte = 36 then do
    let length ← readLine
    readBulk maxSize (atol length)
  else if nextByte = 42 then do
    let length ← readLine
    let elements ← readElements parse (atol length).toNat
    return elements.map fun elements => ⟨nextByte, [], elements⟩
  else return some ⟨nextByte, [], []⟩

/-- `parse_response`, up to this depth of arrays. -/
def parseNested (maxSize : Nat) : (depth : Nat) →
    StreamReader (Option RedisReply)
  | 0 => throw .ag
  | depth + 1 => do
      let nextByte ← readChar
      readBody maxSize (parseNested maxSize depth) nextByte

/-- `parse_response`.  Every array takes something off the input before its
elements. -/
def parseResponse (maxSize : Nat) : StreamReader (Option RedisReply) :=
  fun input => parseNested maxSize (input.length + 1) input

section Rules

variable {maxSize : Nat} {parse : StreamReader (Option RedisReply)}

theorem stable_readLine : Stable .ag readLine := by
  refine stable_bind (stable_readUntil _ _) fun line => ?_
  refine stable_bind stable_readChar fun nextByte => ?_
  exact stable_bind (stable_failIf _) fun _ => stable_pure _

theorem stable_readBulk (length : Int) : Stable .ag (readBulk maxSize length) := by
  refine stable_ite (stable_pure _) (stable_ite (stable_pure _) ?_)
  refine stable_bind (stable_readSize _) fun reply => ?_
  exact stable_bind stable_readCrlf fun _ => stable_pure _

theorem stable_readElements (stable : Stable .ag parse) (count : Nat) :
    Stable .ag (readElements parse count) := by
  induction count with
  | zero => exact stable_pure _
  | succ count induction =>
      refine stable_bind stable fun first => ?_
      cases first with
      | none => exact stable_pure _
      | some first =>
          refine stable_bind induction fun rest => ?_
          cases rest with
          | none => exact stable_pure _
          | some rest => exact stable_pure _

theorem stable_readBody (stable : Stable .ag parse) (nextByte : UInt8) :
    Stable .ag (readBody maxSize parse nextByte) := by
  refine stable_ite ?_ (stable_ite ?_ (stable_ite ?_ (stable_pure _)))
  · exact stable_bind stable_readLine fun reply => stable_pure _
  · exact stable_bind stable_readLine fun length => stable_readBulk _
  · refine stable_bind stable_readLine fun length => ?_
    exact stable_bind (stable_readElements stable _) fun elements => stable_pure _

theorem stable_parseNested (depth : Nat) :
    Stable .ag (parseNested maxSize depth) := by
  induction depth with
  | zero => exact stable_throw _
  | succ depth induction =>
      exact stable_bind stable_readChar fun nextByte =>
        stable_readBody induction nextByte

theorem takes_readLine : Takes 0 readLine := by
  refine takes_later (takes_readUntil _ _) fun line => ?_
  refine takes_later (takes_readChar.weaken (Nat.zero_le _)) fun nextByte => ?_
  exact takes_later (takes_failIf _) fun _ => takes_pure _

theorem takes_readBulk (length : Int) : Takes 0 (readBulk maxSize length) := by
  unfold readBulk
  split
  · exact takes_pure _
  · split
    · exact takes_pure _
    · refine takes_later ((takes_readSize _).weaken (Nat.zero_le _)) ?_
      intro reply
      exact takes_later (takes_readCrlf.weaken (Nat.zero_le _)) fun _ =>
        takes_pure _

theorem takes_readElements (takes : Takes 0 parse) (count : Nat) :
    Takes 0 (readElements parse count) := by
  induction count with
  | zero => exact takes_pure _
  | succ count induction =>
      refine takes_later takes fun first => ?_
      cases first with
      | none => exact takes_pure _
      | some first =>
          refine takes_later induction fun rest => ?_
          cases rest with
          | none => exact takes_pure _
          | some rest => exact takes_pure _

theorem takes_readBody (takes : Takes 0 parse) (nextByte : UInt8) :
    Takes 0 (readBody maxSize parse nextByte) := by
  unfold readBody
  split
  · exact takes_later takes_readLine fun reply => takes_pure _
  · split
    · exact takes_later takes_readLine fun length => takes_readBulk _
    · split
      · refine takes_later takes_readLine fun length => ?_
        exact takes_later (takes_readElements takes _) fun elements =>
          takes_pure _
      · exact takes_pure _

theorem takes_parseNested (depth : Nat) :
    Takes 1 (parseNested maxSize depth) := by
  induction depth with
  | zero => exact takes_throw _ _
  | succ depth induction =>
      exact takes_now takes_readChar fun nextByte =>
        takes_readBody (induction.weaken (Nat.zero_le _)) nextByte

/-- Elements that are read the same way up to this length of the input. -/
theorem readElements_congr {other : StreamReader (Option RedisReply)}
    (takes : Takes 0 parse) {limit : Nat}
    (same : ∀ input : Bytes, input.length < limit → parse input = other input)
    (count : Nat) {input : Bytes} (short : input.length < limit) :
    readElements parse count input = readElements other count input := by
  induction count generalizing input with
  | zero => rfl
  | succ count induction =>
      unfold readElements
      cases outcome : parse input with
      | error stop =>
          rw [bind_of_error outcome,
            bind_of_error ((same input short).symm.trans outcome)]
      | ok result =>
          obtain ⟨first, rest⟩ := result
          rw [bind_of_ok outcome,
            bind_of_ok ((same input short).symm.trans outcome)]
          cases first with
          | none => rfl
          | some first =>
              have less := takes _ _ _ outcome
              have later := induction (show rest.length < limit by omega)
              dsimp only
              cases others : readElements parse count rest with
              | error stop =>
                  rw [bind_of_error others,
                    bind_of_error (later.symm.trans others)]
              | ok result =>
                  obtain ⟨elements, left⟩ := result
                  rw [bind_of_ok others, bind_of_ok (later.symm.trans others)]

theorem readBody_congr {other : StreamReader (Option RedisReply)}
    (takes : Takes 0 parse) {limit : Nat}
    (same : ∀ input : Bytes, input.length < limit → parse input = other input)
    (nextByte : UInt8) {input : Bytes} (short : input.length < limit) :
    readBody maxSize parse nextByte input =
      readBody maxSize other nextByte input := by
  unfold readBody
  split
  · rfl
  · split
    · rfl
    · split
      · cases outcome : readLine input with
        | error stop => rw [bind_of_error outcome, bind_of_error outcome]
        | ok result =>
            obtain ⟨length, rest⟩ := result
            have less := takes_readLine _ _ _ outcome
            have later := readElements_congr takes same (atol length).toNat
              (show rest.length < limit by omega)
            rw [bind_of_ok outcome, bind_of_ok outcome]
            cases elements : readElements parse (atol length).toNat rest with
            | error stop =>
                rw [bind_of_error elements,
                  bind_of_error (later.symm.trans elements)]
            | ok result =>
                obtain ⟨elements', left⟩ := result
                rw [bind_of_ok elements, bind_of_ok (later.symm.trans elements)]
      · rfl

/-- An array of every depth that fits into the input is read. -/
theorem parseNested_enough {first second : Nat} {input : Bytes}
    (firstEnough : input.length < first) (secondEnough : input.length < second) :
    parseNested maxSize first input = parseNested maxSize second input := by
  induction first generalizing second input with
  | zero => omega
  | succ first induction =>
      obtain ⟨second, rfl⟩ : ∃ depth, second = depth + 1 :=
        ⟨second - 1, by omega⟩
      unfold parseNested
      cases input with
      | nil => rfl
      | cons byte input =>
          rw [bind_of_ok (readChar_eq_ok.mpr rfl),
            bind_of_ok (readChar_eq_ok.mpr rfl)]
          simp only [List.length_cons] at firstEnough secondEnough
          apply readBody_congr
            ((takes_parseNested first).weaken (Nat.zero_le _)) _ byte
            (Nat.lt_succ_self input.length)
          intro shorter less
          exact induction (by omega) (by omega)

theorem parseResponse_eq_nested {depth : Nat} {input : Bytes}
    (enough : input.length < depth) :
    parseResponse maxSize input = parseNested maxSize depth input :=
  parseNested_enough (Nat.lt_succ_self _) enough

/-- More input does not change a reply. -/
theorem stable_parseResponse (maxSize : Nat) :
    Stable .ag (parseResponse maxSize) := by
  have longer : ∀ (input more : Bytes), input.length <
      (input ++ more).length + 1 := by
    intro input more
    rw [List.length_append]
    omega
  constructor
  · intro input value rest returned more
    rw [parseResponse_eq_nested (longer input more)] at returned
    exact (stable_parseNested _).ok returned more
  · intro input stop stopped different more
    rw [parseResponse_eq_nested (longer input more)] at stopped
    exact (stable_parseNested _).error stopped different more

theorem takes_parseResponse (maxSize : Nat) :
    Takes 1 (parseResponse maxSize) := by
  intro input value rest returned
  exact takes_parseNested _ _ _ _ returned

theorem parseResponse_nil (maxSize : Nat) :
    parseResponse maxSize [] = .error .ag := rfl

/-- A reply is its type and what the type says. -/
theorem parseResponse_cons (maxSize : Nat) (nextByte : UInt8) (input : Bytes) :
    parseResponse maxSize (nextByte :: input) =
      readBody maxSize (parseResponse maxSize) nextByte input := by
  change parseNested maxSize (input.length + 1 + 1) (nextByte :: input) = _
  unfold parseNested
  rw [bind_of_ok (readChar_eq_ok.mpr rfl)]
  apply readBody_congr ((takes_parseNested _).weaken (Nat.zero_le _)) _ nextByte
    (Nat.lt_succ_self input.length)
  intro shorter less
  exact (parseResponse_eq_nested less).symm

theorem readLine_eq_ok {input line rest : Bytes} :
    readLine input = .ok (line, rest) ↔
      input = line ++ 13 :: 10 :: rest ∧ 13 ∉ line := by
  unfold readLine
  simp only [bind_eq_ok, pure_eq_ok, readUntil_eq_ok, readChar_eq_ok,
    failIf_eq_ok]
  constructor
  · rintro ⟨_, _, ⟨byte, tail, rfl, isReturn, skips, rfl⟩, _, _, rfl, _, _,
      ⟨isFeed, rfl⟩, rfl, rfl⟩
    have same : byte = 13 := by simpa [ascii] using isReturn
    have feed := by simpa using isFeed
    subst same feed
    refine ⟨rfl, ?_⟩
    intro member
    exact skips 13 member (by decide)
  · rintro ⟨rfl, plain⟩
    refine ⟨line, 10 :: rest, ⟨13, 10 :: rest, rfl, by decide, ?_, rfl⟩,
      10, rest, rfl, (), rest, ⟨rfl, rfl⟩, rfl, rfl⟩
    intro skipped member isReturn
    have same : skipped = 13 := by simpa [ascii] using isReturn
    exact plain (same ▸ member)

end Rules

/-- An argument of `create_cmd`, by the overload of `resp_encode` for it. -/
inductive Argument where
  | text (bulkString : Bytes)
  | null
  | number (n : UInt64)
  deriving DecidableEq, Repr

/-- `resp_encode`. -/
def respEncode : Argument → Bytes
  | .text bulkString =>
      ascii "$" ++ decimal bulkString.length ++ ascii "\r\n" ++ bulkString ++
        ascii "\r\n"
  | .null => ascii "$-1\r\n"
  | .number n => ascii ":" ++ decimal n.toNat ++ ascii "\r\n"

/-- `resp_encode_elements`. -/
def respEncodeElements : List Argument → Bytes
  | [] => []
  | arg :: args => respEncode arg ++ respEncodeElements args

/-- `create_cmd`. -/
def createCmd (arg : Argument) (args : List Argument) : Bytes :=
  ascii "*" ++ decimal (1 + args.length) ++ ascii "\r\n" ++
    respEncodeElements (arg :: args)

inductive NXXX where
  | nx
  | xx
  deriving DecidableEq, Repr

/-- `enum_strings<NXXX>`. -/
def NXXX.enumString : NXXX → Bytes
  | .nx => ascii "NX"
  | .xx => ascii "XX"

/-- `packet<GET>`. -/
def packetGet (key : Bytes) : Bytes :=
  createCmd (.text (ascii "GET")) [.text key]

/-- `packet<SET>`. -/
def packetSet (key value : Bytes) (ex px : Option Int) (nxxx : Option NXXX) :
    Bytes :=
  let elementExpire : Bytes :=
    match px with
    | some px => ascii "PX " ++ decimal px
    | none =>
        match ex with
        | some ex => ascii "EX " ++ decimal ex
        | none => []
  let elementNxxx : Bytes :=
    match nxxx with
    | some nxxx => nxxx.enumString
    | none => []
  if elementExpire.length ≠ 0 then
    if elementNxxx.length ≠ 0 then
      createCmd (.text (ascii "SET"))
        [.text key, .text value, .text elementExpire, .text elementNxxx]
    else
      createCmd (.text (ascii "SET")) [.text key, .text value, .text elementExpire]
  else if elementNxxx.length ≠ 0 then
    createCmd (.text (ascii "SET")) [.text key, .text value, .text elementNxxx]
  else createCmd (.text (ascii "SET")) [.text key, .text value]

end Redis

/-- `_callbacks`, with the names of the callbacks. -/
abbrev RedisCallbacks (κ : Type) := Std.ExtTreeMap Fd (List (GUID × κ))

/-- `add_callback`. -/
def RedisCallbacks.addCallback {κ : Type} (callbacks : RedisCallbacks κ)
    (requestId : GUID) (fd : Fd) (callback : κ) : RedisCallbacks κ :=
  match callbacks[fd]? with
  | none => callbacks.insert fd [(requestId, callback)]
  | some queue => callbacks.insert fd (queue ++ [(requestId, callback)])

/-- The front of a queue, where there is one, is taken off. -/
def RedisCallbacks.pop {κ : Type} (callbacks : RedisCallbacks κ) (fd : Fd) :
    Option (Option (GUID × κ)) × RedisCallbacks κ :=
  match callbacks[fd]? with
  | none => (none, callbacks)
  | some [] => (some none, callbacks)
  | some (front :: queue) => (some (some front), callbacks.insert fd queue)

namespace Redis

/-- What the client of a Redis server asks for: its callbacks, the calls of
one of them, `ON_PACKET_OK` and the log. -/
structure Host (κ : Type) (m : Type → Type) extends Universe.Host m where
  callbacks : {α : Type} → (RedisCallbacks κ → α × RedisCallbacks κ) → m α
  call : κ → RedisReply → m Unit
  firePacketOk : GUID → m Unit
  errorLog : Bytes → m Unit

variable {κ : Type} {m : Type → Type} [Monad m] (host : Host κ m)

/-- What is logged about a reply for which there is no callback. -/
def callbacksEmpty : Bytes := ascii "callbacks empty for redis response"

/-- The body of the loop of `on_message`.  It is left when there is no
callback.  The queue is that of an iterator made before the loop, and it is
undefined where an iterator to an erased one leads to. -/
def dispatch (client : Fd) (known : Bool) (r : RedisReply) : m Bool := do
  if known then
    match ← host.callbacks (·.pop client) with
    | none => host.exit
    | some none => do
        host.errorLog callbacksEmpty
        return false
    | some (some (requestId, callback)) => do
        host.call callback r
        host.firePacketOk requestId
        return true
  else do
    host.errorLog callbacksEmpty
    return false

/-- `on_message`. -/
def onMessage (maxSize : Nat) (client : Fd) (message : Bytes) : m Unit := do
  let known ← host.callbacks fun callbacks =>
    (callbacks.contains client, callbacks)
  Protocol.onItems host.toHost (parseResponse maxSize)
    (dispatch host client known) client message

/-- `on_close`. -/
def onClose (client : Fd) : m Unit := do
  host.eraseBuf client
  host.callbacks fun callbacks => ((), callbacks.erase client)

end Redis

end Universe
