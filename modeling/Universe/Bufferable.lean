import Std.Data.ExtTreeMap
import Universe.Kernel

/-!
# Input that waits for the rest of a message

`Bufferable` keeps, for every client, the bytes that are not a whole message
yet, and `Stateful` the state its protocol is in.
-/

namespace Universe

open Std (ExtTreeMap)

abbrev Bufferable := ExtTreeMap Fd Bytes

namespace Bufferable

variable (bufferable : Bufferable)

/-- `need_buf`. -/
def needBuf (id : Fd) (message : Bytes) (cond : Bool) : Bool × Bufferable :=
  if cond then (true, bufferable.insert id message) else (false, bufferable)

/-- `append_buf`, with the message after it. -/
def appendBuf (id : Fd) (message : Bytes) : Bytes × Bufferable :=
  match bufferable[id]? with
  | some buffered => (buffered ++ message, bufferable.erase id)
  | none => (message, bufferable)

/-- `has_buf`. -/
def hasBuf (id : Fd) : Bool := bufferable.contains id

/-- `get_buf`, which clears the entry. -/
def getBuf (id : Fd) : Bytes × Bufferable :=
  ((bufferable[id]?).getD [], bufferable.erase id)

/-- `erase_buf`. -/
def eraseBuf (id : Fd) : Bufferable := bufferable.erase id

theorem appendBuf_eq_erase (id : Fd) (message : Bytes) :
    bufferable.appendBuf id message =
      ((bufferable[id]?).getD [] ++ message, bufferable.erase id) := by
  unfold appendBuf
  cases buffered : bufferable[id]? with
  | some bytes => rfl
  | none =>
      have same : bufferable.erase id = bufferable := by
        ext1 fd
        by_cases here : id = fd
        · subst here
          simp [buffered]
        · simp [ExtTreeMap.getElem?_erase, here]
      rw [same]
      rfl

@[simp]
theorem appendBuf_message (id : Fd) (message : Bytes) :
    (bufferable.appendBuf id message).1 =
      (bufferable[id]?).getD [] ++ message := by
  unfold appendBuf
  cases bufferable[id]? <;> rfl

@[simp]
theorem getElem?_appendBuf (id : Fd) (message : Bytes) (fd : Fd) :
    (bufferable.appendBuf id message).2[fd]? =
      if id = fd then none else bufferable[fd]? := by
  unfold appendBuf
  cases buffered : bufferable[id]? with
  | none =>
      by_cases same : id = fd
      · simp [← same, buffered]
      · simp [same]
  | some bytes => simp [ExtTreeMap.getElem?_erase]

@[simp]
theorem getElem?_needBuf (id : Fd) (message : Bytes) (fd : Fd) :
    (bufferable.needBuf id message true).2[fd]? =
      if id = fd then some message else bufferable[fd]? := by
  simp [needBuf, ExtTreeMap.getElem?_insert]

theorem hasBuf_eq (id : Fd) :
    bufferable.hasBuf id = (bufferable[id]?).isSome :=
  ExtTreeMap.contains_eq_isSome_getElem?

@[simp]
theorem getElem?_getBuf (id fd : Fd) :
    (bufferable.getBuf id).2[fd]? =
      if id = fd then none else bufferable[fd]? := by
  simp [getBuf, ExtTreeMap.getElem?_erase]

@[simp]
theorem getElem?_eraseBuf (id fd : Fd) :
    (bufferable.eraseBuf id)[fd]? =
      if id = fd then none else bufferable[fd]? := by
  simp [eraseBuf, ExtTreeMap.getElem?_erase]

end Bufferable

abbrev Stateful (State : Type) := ExtTreeMap Fd State

namespace Stateful

variable {State : Type} (stateful : Stateful State)

/-- `set_state`. -/
def setState (id : Fd) (state : State) : Stateful State :=
  stateful.insert id state

/-- `get_state`, with the first state as that of an unknown client. -/
def getState [Inhabited State] (id : Fd) : State :=
  (stateful[id]?).getD default

/-- `erase_state`. -/
def eraseState (id : Fd) : Stateful State := stateful.erase id

@[simp]
theorem getElem?_setState (id : Fd) (state : State) (fd : Fd) :
    (stateful.setState id state)[fd]? =
      if id = fd then some state else stateful[fd]? := by
  simp [setState, ExtTreeMap.getElem?_insert]

@[simp]
theorem getElem?_eraseState (id fd : Fd) :
    (stateful.eraseState id)[fd]? =
      if id = fd then none else stateful[fd]? := by
  simp [eraseState, ExtTreeMap.getElem?_erase]

end Stateful

end Universe
