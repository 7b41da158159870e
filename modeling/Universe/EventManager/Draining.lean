import Universe.EventManager
import Universe.Library.Rounds

/-!
# Reading until nothing is left

`EventManager::read` and `SSLConnection::read` read in a loop until the
descriptor would block or has ended.  The answers are an endless stream here,
since an error can come back in every round.
-/

namespace Universe

open Rounds

/-- What one call of `::read` or `SSL_read` has put into the buffer. -/
abbrev Chunk : Type :=
  { bytes : Bytes // 0 < bytes.length ∧ bytes.length ≤ 1024 }

/-- How the answers go on after the data. -/
inductive Ending where
  | wouldBlock
  | endOfFile
  | error
  deriving DecidableEq

def Ending.answer : Ending → ReadResult
  | .wouldBlock => .again
  | .endOfFile => .eof
  | .error => .error

inductive Drained where
  | returned (message : Bytes)
  /-- `append` of a count of -1 throws `length_error`. -/
  | appendedNegative
  deriving DecidableEq

/-- One round of the loop of `EventManager::read`. -/
def EventManager.readRound (message : Bytes) : ReadResult → Bytes ⊕ Drained
  | .again => .inr (.returned message)
  -- "error handle", and `continue`
  | .error => .inl message
  | .eof => .inr (.returned message)
  | .data bytes => .inl (message ++ bytes)

/-- One round of the loop of `SSLConnection::read`. -/
def SSLConnection.readRound (message : Bytes) : ReadResult → Bytes ⊕ Drained
  | .again => .inr (.returned message)
  -- "error handle", and on to `append`
  | .error => .inr .appendedNegative
  | .eof => .inr (.returned message)
  | .data bytes => .inl (message ++ bytes)

/-- One round of `EventManager::read(fd)`. -/
def World.readRound {β σ : Type} (w : World β σ) (fd : Fd) :
    Bytes → ReadResult → Bytes ⊕ Drained :=
  match w.fdSsl[fd]? with
  | none => EventManager.readRound
  | some _ => SSLConnection.readRound

/-- Data, and then the same ending in every round. -/
def readAnswers (chunks : List Chunk) (ending : Ending) : Nat → ReadResult :=
  before (chunks.map fun chunk => .data chunk.val) fun _ => ending.answer

/-- The loop ends and returns what was read. -/
def Drains (round : Bytes → ReadResult → Bytes ⊕ Drained)
    (chunks : List Chunk) (ending : Ending) : Prop :=
  Ends round [] (readAnswers chunks ending)
    (.returned (chunks.flatMap Subtype.val))

/-- The loops over lists of answers are these loops, on a descriptor that
blocks when the list is used up. -/
theorem ends_readLoop (message : Bytes) (results : List ReadResult) :
    Ends EventManager.readRound message (before results fun _ => .again)
      (.returned (World.readLoop message results).1) := by
  induction results generalizing message with
  | nil => exact (ends_of_inr rfl).mpr rfl
  | cons answer results induction =>
      cases answer with
      | data bytes => exact (ends_of_inl rfl).mpr (induction _)
      | again => exact (ends_of_inr rfl).mpr rfl
      | eof => exact (ends_of_inr rfl).mpr rfl
      | error => exact (ends_of_inl rfl).mpr (induction _)

theorem ends_ssl_readLoop (message : Bytes) (results : List ReadResult) :
    Ends SSLConnection.readRound message (before results fun _ => .again)
      (((SSLConnection.readLoop message results).1.map Drained.returned).getD
        .appendedNegative) := by
  induction results generalizing message with
  | nil => exact (ends_of_inr rfl).mpr rfl
  | cons answer results induction =>
      cases answer with
      | data bytes => exact (ends_of_inl rfl).mpr (induction _)
      | again => exact (ends_of_inr rfl).mpr rfl
      | eof => exact (ends_of_inr rfl).mpr rfl
      | error => exact (ends_of_inr rfl).mpr rfl

/-- The message after one more answer. -/
def extended (message : Bytes) : ReadResult → Bytes
  | .data bytes => message ++ bytes
  | _ => message

theorem foldl_extended (message : Bytes) (chunks : List Chunk) :
    (chunks.map fun chunk => .data chunk.val).foldl extended message =
      message ++ chunks.flatMap Subtype.val := by
  induction chunks generalizing message with
  | nil => exact (List.append_nil message).symm
  | cons chunk chunks induction =>
      rw [List.map_cons, List.foldl_cons, induction, List.flatMap_cons,
        ← List.append_assoc]
      rfl

/-- Behind the data the message is complete, and the ending decides. -/
theorem ends_readAnswers {round : Bytes → ReadResult → Bytes ⊕ Drained}
    (appends : ∀ message bytes,
      round message (.data bytes) = .inl (message ++ bytes))
    (chunks : List Chunk) (ending : Ending) (result : Drained) :
    Ends round [] (readAnswers chunks ending) result ↔
      Ends round (chunks.flatMap Subtype.val) (fun _ => ending.answer)
        result := by
  have goesOn : ∀ (message : Bytes),
      ∀ answer ∈ chunks.map fun chunk => ReadResult.data chunk.val,
        round message answer = .inl (extended message answer) := by
    intro message answer member
    obtain ⟨chunk, -, rfl⟩ := List.mem_map.mp member
    exact appends message chunk.val
  refine (ends_before goesOn).trans ?_
  rw [foldl_extended]
  exact Iff.rfl

theorem plain_drains_iff (chunks : List Chunk) (ending : Ending) :
    Drains EventManager.readRound chunks ending ↔ ending ≠ .error := by
  unfold Drains
  rw [ends_readAnswers fun _ _ => rfl]
  cases ending with
  | wouldBlock => exact iff_of_true ((ends_of_inr rfl).mpr rfl) (by decide)
  | endOfFile => exact iff_of_true ((ends_of_inr rfl).mpr rfl) (by decide)
  | error =>
      refine iff_of_false ?_ (not_not.mpr rfl)
      exact not_ends (fun _ => True) trivial
        fun message _ _ => ⟨message, rfl, trivial⟩

theorem ssl_drains_iff (chunks : List Chunk) (ending : Ending) :
    Drains SSLConnection.readRound chunks ending ↔ ending ≠ .error := by
  unfold Drains
  rw [ends_readAnswers fun _ _ => rfl]
  cases ending with
  | wouldBlock => exact iff_of_true ((ends_of_inr rfl).mpr rfl) (by decide)
  | endOfFile => exact iff_of_true ((ends_of_inr rfl).mpr rfl) (by decide)
  | error =>
      refine iff_of_false ?_ (not_not.mpr rfl)
      rw [ends_of_inr rfl]
      intro impossible
      cases impossible

/-- Both loops return what was read unless an error ends the data: the plain
one then reads on for ever, the other one appends a count of -1. -/
theorem read_drains_iff {β σ : Type} (w : World β σ) (fd : Fd)
    (chunks : List Chunk) (ending : Ending) :
    (Drains (w.readRound fd) chunks ending ↔ ending ≠ .error) ∧
      (Drains SSLConnection.readRound chunks ending ↔ ending ≠ .error) := by
  refine ⟨?_, ssl_drains_iff chunks ending⟩
  unfold World.readRound
  cases w.fdSsl[fd]? with
  | none => exact plain_drains_iff chunks ending
  | some connection => exact ssl_drains_iff chunks ending

/-- A descriptor that is not open (`EBADF`) after one byte has been read. -/
theorem persistent_error_not_drained :
    ¬ (∀ chunks ending, Drains EventManager.readRound chunks ending) ∧
      ¬ (∀ chunks ending, Drains SSLConnection.readRound chunks ending) ∧
      loop SSLConnection.readRound 2 [] (readAnswers [⟨[97], by decide⟩]
        .error) = some .appendedNegative := by
  refine ⟨?_, ?_, rfl⟩
  · intro all
    exact (plain_drains_iff [⟨[97], by decide⟩] .error).mp (all _ _) rfl
  · intro all
    exact (ssl_drains_iff [⟨[97], by decide⟩] .error).mp (all _ _) rfl

end Universe
