import Universe.StreamReader

/-!
# The offset of a stream reader

`StreamReader` keeps the whole text and an offset into it.  Every check is a
comparison with `_str.length() - _offset`, which only counts the bytes that
are left while the offset is not behind the end.  The readers over the bytes
that are left are what the calls do under this invariant.
-/

namespace Universe.StreamReader

open Incremental

/-- A `string`, whose length is a `size_t`. -/
structure Text where
  bytes : Bytes
  fits : bytes.length < 2 ^ 64

namespace Text

def length (text : Text) : Nat := text.bytes.length

/-- `_str.length() - _offset`. -/
def left (text : Text) (offset : Nat) : Nat :=
  (2 ^ 64 + text.length - offset) % 2 ^ 64

/-- `memcpy` from the text; `none` where it goes beyond the end. -/
def copy (text : Text) (offset size : Nat) : Option Bytes :=
  if offset + size ≤ text.length
    then some ((text.bytes.drop offset).take size) else none

end Text

/-- The calls; `order` tells whether a plain value is in network byte order,
and is `none` where the caller is responsible. -/
inductive Call where
  | readPlain (order : Option Bool) (size : Nat)
  | preadPlain (order : Option Bool) (size : Nat)
  | readSize (size : Nat)
  | preadSize (size : Nat)
  | readUntil (s : Bytes) (eatupFinal : Bool)
  | readUp (s : Bytes) (nullable : Bool)

/-- A returned call with the bytes of its result, `none` where it leaves the
result alone, or the exception. -/
abbrev Answer := Except ReaderException (Option Bytes)

/-- The loops of `read_up` and `read_until`. -/
def skip (bytes : Bytes) (skips : UInt8 → Bool) (offset : Nat) : Nat :=
  if inside : offset < bytes.length then
    if skips bytes[offset] then skip bytes skips (offset + 1) else offset
  else offset
termination_by bytes.length - offset

section

variable (littleEndian : Bool)

/-- `hton` and `htol`, on the bytes of the value. -/
def converted (order : Option Bool) (bytes : Bytes) : Bytes :=
  match order with
  | none => bytes
  | some network => if network = littleEndian then bytes.reverse else bytes

/-- A call that takes `size` bytes and goes on by `advance`. -/
def sized (text : Text) (offset size advance : Nat) (convert : Bytes → Bytes) :
    Option (Answer × Nat) :=
  if text.left offset < size then some (.error .ag, offset)
  else (text.copy offset size).map fun bytes =>
    (.ok (some (convert bytes)), offset + advance)

/-- The answer and the new offset; `none` where a byte beyond the end is read.
-/
def perform (text : Text) (offset : Nat) : Call → Option (Answer × Nat)
  | .readPlain order size =>
      sized text offset size size (converted littleEndian order)
  | .preadPlain order size =>
      sized text offset size 0 (converted littleEndian order)
  | .readSize size => sized text offset size size id
  | .preadSize size => sized text offset size 0 id
  | .readUntil s eatupFinal =>
      let reached := skip text.bytes (fun ch => !s.contains ch) offset
      if reached < text.length then
        let result := (text.bytes.drop offset).take (reached - offset)
        some (.ok (if reached = offset then none else some result),
          if eatupFinal then reached + 1 else reached)
      else some (.error .ag, reached)
  | .readUp s nullable =>
      let reached := skip text.bytes (fun ch => s.contains ch) offset
      if reached < text.length then
        if reached = offset && !nullable then some (.error .ng, reached)
        else some (.ok (some ((text.bytes.drop offset).take
          (reached - offset))), reached)
      else some (.error .ag, reached)

/-- The calls one after the other, with their answers and the offsets behind
them.  The caller may go on after an exception. -/
def performAll (text : Text) (offset : Nat) :
    List Call → Option (List (Answer × Nat))
  | [] => some []
  | call :: rest =>
      (perform littleEndian text offset call).bind fun performed =>
        (performAll text performed.2 rest).map (performed :: ·)

/-- What a call reads off the bytes that are left. -/
def view : Call → StreamReader (Option Bytes)
  | .readPlain order size => do
      let bytes ← readSize size
      return some (converted littleEndian order bytes)
  | .preadPlain order size => fun bytes =>
      if bytes.length < size then .error .ag
      else .ok (some (converted littleEndian order (bytes.take size)), bytes)
  | .readSize size => do
      let bytes ← readSize size
      return some bytes
  | .preadSize size => fun bytes =>
      if bytes.length < size then .error .ag
      else .ok (some (bytes.take size), bytes)
  | .readUntil s eatupFinal => do
      let bytes ← readUntil s eatupFinal
      return if bytes.isEmpty then none else some bytes
  | .readUp s nullable => do
      let bytes ← readUp s nullable
      return some bytes

end

/-- Under the invariant the subtraction counts the bytes that are left. -/
theorem Text.left_eq {text : Text} {offset : Nat}
    (within : offset ≤ text.length) :
    text.left offset = (text.bytes.drop offset).length := by
  have fits : text.length < 2 ^ 64 := text.fits
  have split : 2 ^ 64 + text.length - offset =
      2 ^ 64 + (text.length - offset) := by
    omega
  unfold Text.left
  rw [split, Nat.add_mod_left, Nat.mod_eq_of_lt (by omega), List.length_drop]
  rfl

theorem Text.copy_eq {text : Text} {offset size : Nat}
    (within : offset ≤ text.length)
    (enough : ¬ (text.bytes.drop offset).length < size) :
    text.copy offset size = some ((text.bytes.drop offset).take size) := by
  rw [List.length_drop] at enough
  apply if_pos
  unfold Text.length at within ⊢
  omega

/-- The loops go forward and stop at the end at the latest. -/
theorem skip_within {bytes : Bytes} (skips : UInt8 → Bool) {offset : Nat}
    (within : offset ≤ bytes.length) :
    offset ≤ skip bytes skips offset ∧
      skip bytes skips offset ≤ bytes.length := by
  fun_induction skip bytes skips offset with
  | case1 offset inside skipped induction =>
      obtain ⟨forward, ends⟩ := induction inside
      exact ⟨by omega, ends⟩
  | case2 offset inside stopped => exact ⟨Nat.le_refl _, within⟩
  | case3 offset outside => exact ⟨Nat.le_refl _, within⟩

/-- The loops are the scan of the bytes that are left. -/
theorem scan_skip {bytes : Bytes} (skips : UInt8 → Bool) {offset : Nat}
    (within : offset ≤ bytes.length) :
    scan (fun byte => !skips byte) (bytes.drop offset) =
      if skip bytes skips offset < bytes.length
      then some ((bytes.drop offset).take (skip bytes skips offset - offset),
        bytes.drop (skip bytes skips offset))
      else none := by
  fun_induction skip bytes skips offset with
  | case1 offset inside skipped induction =>
      have forward : offset + 1 ≤ skip bytes skips (offset + 1) :=
        (skip_within skips inside).1
      have distance : skip bytes skips (offset + 1) - offset =
          skip bytes skips (offset + 1) - (offset + 1) + 1 := by
        omega
      rw [List.drop_eq_getElem_cons inside, scan, skipped,
        induction inside, distance, List.take_succ_cons, if_neg (by simp)]
      split
      · rfl
      · rfl
  | case2 offset inside stopped =>
      rw [if_pos inside, List.drop_eq_getElem_cons inside, scan, Nat.sub_self]
      rw [if_pos (by simpa using stopped)]
      rfl
  | case3 offset outside =>
      rw [if_neg outside, List.drop_eq_nil_of_le (by omega)]
      rfl

/-- The offset of a call that finds the bytes at an end: the loops have gone
through them. -/
def exhausted (text : Text) (offset : Nat) : Call → Nat
  | .readUntil _ _ | .readUp _ _ => text.length
  | _ => offset

/-- What the new offset and the answer are, from what is read off the bytes
that are left. -/
def settled (text : Text) (offset : Nat) (call : Call) :
    Except ReaderException (Option Bytes × Bytes) → Answer × Nat
  | .ok (value, rest) => (.ok value, text.length - rest.length)
  | .error .ng => (.error .ng, offset)
  | .error .ag => (.error .ag, exhausted text offset call)

theorem sized_eq {text : Text} {offset size advance : Nat}
    (within : offset ≤ text.length) (less : advance ≤ size)
    (convert : Bytes → Bytes) {call : Call}
    (stays : exhausted text offset call = offset) :
    sized text offset size advance convert =
      some (settled text offset call
        (if (text.bytes.drop offset).length < size then .error .ag
          else .ok (some (convert ((text.bytes.drop offset).take size)),
            (text.bytes.drop offset).drop advance))) := by
  unfold sized
  rw [Text.left_eq within]
  split
  · simp only [settled, stays]
  · next enough =>
      have behind : text.length -
          ((text.bytes.drop offset).drop advance).length = offset + advance := by
        simp only [Text.length, List.length_drop] at within enough ⊢
        omega
      rw [Text.copy_eq within enough]
      simp only [settled, behind, Option.map_some]

theorem view_readSize (size : Nat) (convert : Bytes → Bytes) (bytes : Bytes) :
    (readSize size >>= fun taken => pure (some (convert taken)) :
        StreamReader (Option Bytes)) bytes =
      if bytes.length < size then .error .ag
      else .ok (some (convert (bytes.take size)), bytes.drop size) := by
  split
  · next short => exact bind_of_error (if_pos short)
  · next enough => exact bind_of_ok (if_neg enough)

/-- A loop that stops where it has begun has gone through nothing. -/
theorem taken_isEmpty {bytes : Bytes} {offset reached : Nat}
    (forward : offset ≤ reached) (inside : reached < bytes.length) :
    ((bytes.drop offset).take (reached - offset)).isEmpty =
      decide (reached = offset) := by
  rw [Bool.eq_iff_iff, decide_eq_true_iff, List.isEmpty_iff_length_eq_zero,
    List.length_take, List.length_drop]
  omega

/-- Where the reader stands in front of the bytes behind an offset. -/
theorem Text.behind {text : Text} {offset : Nat}
    (within : offset ≤ text.length) :
    text.length - (text.bytes.drop offset).length = offset := by
  rw [List.length_drop]
  exact Nat.sub_sub_self within

theorem perform_readUntil (littleEndian : Bool) {text : Text} {offset : Nat}
    (within : offset ≤ text.length) (s : Bytes) (eatupFinal : Bool) :
    perform littleEndian text offset (.readUntil s eatupFinal) =
      some (settled text offset (.readUntil s eatupFinal)
        (view littleEndian (.readUntil s eatupFinal)
          (text.bytes.drop offset))) := by
  have scanned := scan_skip (fun ch => !s.contains ch) within
  simp only [Bool.not_not] at scanned
  obtain ⟨forward, ends⟩ := skip_within (fun ch => !s.contains ch) within
  rw [perform]
  generalize skip text.bytes (fun ch => !s.contains ch) offset = reached
    at scanned forward ends ⊢
  split
  · next found =>
      have inside : reached < text.bytes.length := found
      rw [if_pos inside] at scanned
      have read : readUntil s eatupFinal (text.bytes.drop offset) =
          .ok ((text.bytes.drop offset).take (reached - offset),
            if eatupFinal then (text.bytes.drop reached).tail
            else text.bytes.drop reached) := by
        unfold readUntil
        rw [scanned]
      have next : (if eatupFinal then reached + 1 else reached) =
          text.length - (if eatupFinal then (text.bytes.drop reached).tail
            else text.bytes.drop reached).length := by
        cases eatupFinal with
        | false => exact (Text.behind ends).symm
        | true =>
            rw [if_pos rfl, if_pos rfl, List.tail_drop]
            exact (Text.behind found).symm
      rw [view, bind_of_ok read]
      simp only [taken_isEmpty forward inside, decide_eq_true_iff, next]
      rfl
  · next ended =>
      have outside : ¬ reached < text.bytes.length := ended
      rw [if_neg outside] at scanned
      have read : readUntil s eatupFinal (text.bytes.drop offset) =
          .error .ag := by
        unfold readUntil
        rw [scanned]
      have last : reached = text.length :=
        Nat.le_antisymm ends (Nat.le_of_not_lt ended)
      rw [view, bind_of_error read, last]
      rfl

theorem perform_readUp (littleEndian : Bool) {text : Text} {offset : Nat}
    (within : offset ≤ text.length) (s : Bytes) (nullable : Bool) :
    perform littleEndian text offset (.readUp s nullable) =
      some (settled text offset (.readUp s nullable)
        (view littleEndian (.readUp s nullable)
          (text.bytes.drop offset))) := by
  have scanned := scan_skip (fun ch => s.contains ch) within
  obtain ⟨forward, ends⟩ := skip_within (fun ch => s.contains ch) within
  rw [perform]
  generalize skip text.bytes (fun ch => s.contains ch) offset = reached
    at scanned forward ends ⊢
  split
  · next found =>
      have inside : reached < text.bytes.length := found
      rw [if_pos inside] at scanned
      have nothing := taken_isEmpty forward inside
      split
      · next refused =>
          have read : readUp s nullable (text.bytes.drop offset) =
              .error .ng := by
            unfold readUp
            rw [scanned]
            apply if_pos
            rw [nothing]
            exact refused
          have stays : reached = offset := by
            rw [Bool.and_eq_true, decide_eq_true_iff] at refused
            exact refused.1
          rw [view, bind_of_error read, stays]
          rfl
      · next accepted =>
          have read : readUp s nullable (text.bytes.drop offset) =
              .ok ((text.bytes.drop offset).take (reached - offset),
                text.bytes.drop reached) := by
            unfold readUp
            rw [scanned]
            apply if_neg
            rw [nothing]
            exact accepted
          rw [view, bind_of_ok read]
          change _ = some (_, text.length - (text.bytes.drop reached).length)
          rw [Text.behind ends]
  · next ended =>
      have outside : ¬ reached < text.bytes.length := ended
      rw [if_neg outside] at scanned
      have read : readUp s nullable (text.bytes.drop offset) = .error .ag := by
        unfold readUp
        rw [scanned]
      have last : reached = text.length :=
        Nat.le_antisymm ends (Nat.le_of_not_lt ended)
      rw [view, bind_of_error read, last]
      rfl

/-- Within the text a call does what its reader does to the bytes that are
left. -/
theorem perform_view (littleEndian : Bool) {text : Text} {offset : Nat}
    (within : offset ≤ text.length) (call : Call) :
    perform littleEndian text offset call = some (settled text offset call
      (view littleEndian call (text.bytes.drop offset))) := by
  cases call with
  | readPlain order size =>
      rw [view, view_readSize]
      exact sized_eq within (Nat.le_refl _) _ rfl
  | preadPlain order size => exact sized_eq within (Nat.zero_le _) _ rfl
  | readSize size =>
      have taken := view_readSize size id (text.bytes.drop offset)
      simp only [id] at taken
      rw [view, taken]
      exact sized_eq within (Nat.le_refl _) id rfl
  | preadSize size => exact sized_eq within (Nat.zero_le _) _ rfl
  | readUntil s eatupFinal => exact perform_readUntil littleEndian within s _
  | readUp s nullable => exact perform_readUp littleEndian within s _

theorem stable_pread (size : Nat) (convert : Bytes → Bytes) :
    Stable .ag (fun bytes =>
      if bytes.length < size then .error .ag
      else .ok (some (convert (bytes.take size)), bytes) :
        StreamReader (Option Bytes)) := by
  constructor
  · intro bytes value rest returned more
    split at returned
    · cases returned
    · next enough =>
        cases returned
        rw [if_neg (by simp only [List.length_append]; omega),
          List.take_append_of_le_length (by omega)]
  · intro bytes stop stopped different
    split at stopped
    · cases stopped
      exact absurd rfl different
    · cases stopped

theorem stable_view (littleEndian : Bool) (call : Call) :
    Stable .ag (view littleEndian call) := by
  cases call with
  | readPlain order size =>
      exact stable_bind (stable_readSize size) fun _ => stable_pure _
  | preadPlain order size => exact stable_pread size (converted _ order)
  | readSize size =>
      exact stable_bind (stable_readSize size) fun _ => stable_pure _
  | preadSize size => exact stable_pread size id
  | readUntil s eatupFinal =>
      exact stable_bind (stable_readUntil s eatupFinal) fun _ => stable_pure _
  | readUp s nullable =>
      exact stable_bind (stable_readUp s nullable) fun _ => stable_pure _

theorem settled_le {text : Text} {offset : Nat} (within : offset ≤ text.length)
    (call : Call) (read : Except ReaderException (Option Bytes × Bytes)) :
    (settled text offset call read).2 ≤ text.length := by
  cases read with
  | ok read => exact Nat.sub_le _ _
  | error exception =>
      cases exception with
      | ng => exact within
      | ag =>
          change exhausted text offset call ≤ text.length
          cases call with
          | readUntil s eatupFinal => exact Nat.le_refl _
          | readUp s nullable => exact Nat.le_refl _
          | _ => exact within

/-- A call within the text is defined and stays within it. -/
theorem perform_within (littleEndian : Bool) {text : Text} {offset : Nat}
    (within : offset ≤ text.length) (call : Call) :
    ∃ answer next, perform littleEndian text offset call =
      some (answer, next) ∧ next ≤ text.length :=
  ⟨_, _, perform_view littleEndian within call, settled_le within call _⟩

/-- What a call does on a text it does on every longer one, unless it asks for
more. -/
theorem perform_longer (littleEndian : Bool) {text longer : Text}
    {offset next : Nat} {answer : Answer} {call : Call}
    (within : offset ≤ text.length)
    (extended : text.bytes <+: longer.bytes)
    (performed : perform littleEndian text offset call = some (answer, next))
    (different : answer ≠ .error .ag) :
    perform littleEndian longer offset call = some (answer, next) := by
  obtain ⟨more, whole⟩ := extended
  have length : longer.length = text.length + more.length := by
    unfold Text.length
    rw [← whole, List.length_append]
  have left : longer.bytes.drop offset = text.bytes.drop offset ++ more := by
    rw [← whole, List.drop_append_of_le_length within]
  have stable := stable_view littleEndian call
  rw [perform_view littleEndian within] at performed
  rw [perform_view littleEndian (by omega), left]
  cases read : view littleEndian call (text.bytes.drop offset) with
  | ok taken =>
      obtain ⟨value, rest⟩ := taken
      have behind : longer.length - (rest ++ more).length =
          text.length - rest.length := by
        rw [length, List.length_append, Nat.add_sub_add_right]
      rw [read] at performed
      rw [stable.ok read more, ← performed]
      simp only [settled, behind]
  | error exception =>
      rw [read] at performed
      cases exception with
      | ng =>
          rw [stable.error read (by simp) more]
          exact performed
      | ag =>
          cases performed
          exact absurd rfl different

/-- Where the calls have brought the offset to. -/
def reached (results : List (Answer × Nat)) (offset : Nat) : Nat :=
  (results.getLast?.map (·.2)).getD offset

/-- Calls within the text are defined and stay within it. -/
theorem performAll_within (littleEndian : Bool) {text : Text} {offset : Nat}
    (within : offset ≤ text.length) (calls : List Call) :
    ∃ results, performAll littleEndian text offset calls = some results ∧
      ∀ result ∈ results, result.2 ≤ text.length := by
  induction calls generalizing offset with
  | nil => exact ⟨[], rfl, by simp⟩
  | cons call calls induction =>
      obtain ⟨answer, next, performed, inside⟩ :=
        perform_within littleEndian within call
      obtain ⟨results, later, insides⟩ := induction inside
      refine ⟨(answer, next) :: results, ?_, ?_⟩
      · rw [performAll, performed, Option.bind_some, later]
        rfl
      · exact List.forall_mem_cons.mpr ⟨inside, insides⟩

theorem performAll_length {littleEndian : Bool} {text : Text} {offset : Nat}
    {calls : List Call} {results : List (Answer × Nat)}
    (performed : performAll littleEndian text offset calls = some results) :
    results.length = calls.length := by
  induction calls generalizing offset results with
  | nil =>
      cases performed
      rfl
  | cons call calls induction =>
      rw [performAll, Option.bind_eq_some_iff] at performed
      obtain ⟨first, -, performed⟩ := performed
      obtain ⟨later, after, rfl⟩ := Option.map_eq_some_iff.mp performed
      rw [List.length_cons, List.length_cons, induction after]

/-- Calls none of which asks for more do on every longer text what they do on
the text. -/
theorem performAll_longer (littleEndian : Bool) {text longer : Text}
    (extended : text.bytes <+: longer.bytes) {offset : Nat} {calls : List Call}
    {results : List (Answer × Nat)} (within : offset ≤ text.length)
    (performed : performAll littleEndian text offset calls = some results)
    (different : ∀ result ∈ results, result.1 ≠ .error .ag) :
    performAll littleEndian longer offset calls = some results := by
  induction calls generalizing offset results with
  | nil => exact performed
  | cons call calls induction =>
      obtain ⟨answer, next, first, inside⟩ :=
        perform_within littleEndian within call
      rw [performAll, first, Option.bind_some, Option.map_eq_some_iff]
        at performed
      obtain ⟨results, later, rfl⟩ := performed
      obtain ⟨here, others⟩ := List.forall_mem_cons.mp different
      rw [performAll, perform_longer littleEndian within extended first here,
        Option.bind_some, induction inside later others]
      rfl

theorem reached_le {text : Text} {results : List (Answer × Nat)}
    (insides : ∀ result ∈ results, result.2 ≤ text.length) :
    reached results 0 ≤ text.length := by
  unfold reached
  cases last : results.getLast? with
  | none => exact Nat.zero_le _
  | some result => exact insides result (List.mem_of_getLast? last)

/-- The offset of a reader that starts at the beginning never goes beyond the
text, so that no subtraction wraps and no byte beyond the end is read; and a
call that returns or throws `NG` does the same on every extension. -/
theorem calls_within_and_stable (littleEndian : Bool) (text : Text)
    (calls : List Call) :
    ∃ results, performAll littleEndian text 0 calls = some results ∧
      results.length = calls.length ∧
      (∀ offset ∈ 0 :: results.map (·.2), offset ≤ text.length ∧
        text.left offset = text.length - offset) ∧
      (∀ call answer next,
        perform littleEndian text (reached results 0) call =
          some (answer, next) →
        answer ≠ .error .ag →
        ∀ longer : Text, text.bytes <+: longer.bytes →
          perform littleEndian longer (reached results 0) call =
            some (answer, next)) ∧
      ((∀ result ∈ results, result.1 ≠ .error .ag) →
        ∀ longer : Text, text.bytes <+: longer.bytes →
          performAll littleEndian longer 0 calls = some results) := by
  obtain ⟨results, performed, insides⟩ :=
    performAll_within littleEndian (Nat.zero_le text.length) calls
  refine ⟨results, performed, performAll_length performed, ?_, ?_, ?_⟩
  · intro offset member
    have within : offset ≤ text.length := by
      obtain rfl | ⟨result, here, rfl⟩ := by
        simpa only [List.mem_cons, List.mem_map] using member
      · exact Nat.zero_le _
      · exact insides result here
    refine ⟨within, ?_⟩
    rw [Text.left_eq within, List.length_drop]
    rfl
  · intro call answer next here different longer extended
    exact perform_longer littleEndian (reached_le insides) extended here
      different
  · intro different longer extended
    exact performAll_longer littleEndian extended (Nat.zero_le _) performed
      different

end Universe.StreamReader
