import Universe.Http
import Universe.Library.Stepwise

/-!
# Protocols that read one item after the other

`on_message` of `Soa` and of the clients of `Soa` and `Redis` is one loop: it
reads items until the bytes end, keeps the part of an item that is not whole
yet, and closes a client whose bytes are wrong.
-/

namespace Universe

open Incremental

namespace Protocol

variable {ι γ : Type}

section Loop

variable {m : Type → Type} [Monad m] (host : Host m)
  (parse : StreamReader (Option ι)) (handle : ι → m Bool) (client : Fd)

/-- The loop, with what is done about an item and whether it goes on then.  An
item that does not fit into memory throws something that nobody catches. -/
def readItems : (fuel : Nat) → Bytes → m Unit
  | 0, _ => pure ()
  | fuel + 1, message =>
      match parse message with
      | .error .ag => do
          let _ ← host.needBuf client message true
          return ()
      | .error .ng => do
          let _ ← host.close client
          return ()
      | .ok (none, _) => host.exit
      | .ok (some item, rest) => do
          let goesOn ← handle item
          if goesOn && !rest.isEmpty then readItems fuel rest else return ()

/-- Every item takes something off the message. -/
def onItems (message : Bytes) : m Unit := do
  let message ← host.appendBuf client message
  readItems host parse handle client (message.length + 1) message

end Loop

section Runs

variable {ε σ : Type} {host : Host (EStateM ε σ)}
  {parse : StreamReader (Option ι)} {handle : ι → EStateM ε σ Bool}
  {client : Fd}

/-- The loop goes on after each of the items. -/
def Handled (handle : ι → EStateM ε σ Bool) : List ι → σ → σ → Prop
  | [], s, after => s = after
  | item :: later, s, after => ∃ between, handle item s = .ok true between ∧
      Handled handle later between after

/-- What the loop leaves behind a part of an item. -/
def kept (host : Host (EStateM ε σ)) (client : Fd) (part : Bytes) :
    EStateM ε σ Unit := do
  let _ ← host.needBuf client part true
  return ()

variable (stable : Stable .ag parse) (empty : parse [] = .error .ag)
  {print : γ → Bytes} {value : γ → ι}

include stable empty

/-- A printed item is read off what follows it. -/
theorem parse_printed {item : γ}
    (printed : parse (print item) = .ok (some (value item), []))
    (rest : Bytes) :
    parse (print item ++ rest) = .ok (some (value item), rest) ∧
      0 < (print item).length := by
  refine ⟨stable.ok printed rest, ?_⟩
  cases bytes : print item with
  | nil =>
      rw [bytes, empty] at printed
      cases printed
  | cons byte bytes => simp

/-- Whole items are handled, and the rest is kept. -/
theorem readItems_handled {items : List γ}
    (printed : ∀ item ∈ items, parse (print item) = .ok (some (value item), []))
    {s after : σ} (handled : Handled handle (items.map value) s after)
    {part : Bytes} (ends : parse part = .error .ag) {fuel : Nat}
    (enough : (items.flatMap print ++ part).length < fuel) :
    readItems host parse handle client fuel (items.flatMap print ++ part) s =
      if items ≠ [] ∧ part = [] then .ok () after
      else kept host client part after := by
  induction items generalizing s fuel with
  | nil =>
      obtain ⟨fuel, rfl⟩ : ∃ more, fuel = more + 1 := ⟨fuel - 1, by omega⟩
      cases handled
      rw [if_neg (by simp)]
      simp only [readItems, List.flatMap_nil, List.nil_append, ends]
      rfl
  | cons item items induction =>
      obtain ⟨fuel, rfl⟩ : ∃ more, fuel = more + 1 := ⟨fuel - 1, by omega⟩
      obtain ⟨first, others⟩ := List.forall_mem_cons.mp printed
      obtain ⟨between, handledFirst, later⟩ := handled
      obtain ⟨read, some⟩ :=
        parse_printed stable empty first (items.flatMap print ++ part)
      simp only [List.flatMap_cons, List.append_assoc, List.length_append]
        at enough ⊢
      unfold readItems
      rw [read]
      dsimp only
      rw [Stepwise.bind_of_ok handledFirst]
      by_cases nothing : items.flatMap print ++ part = []
      · obtain ⟨noItems, rfl⟩ := List.append_eq_nil_iff.mp nothing
        have last : items = [] := by
          cases items with
          | nil => rfl
          | cons next items =>
              obtain ⟨_, some⟩ := parse_printed stable empty
                (others next List.mem_cons_self) []
              rw [List.flatMap_cons, List.append_eq_nil_iff] at noItems
              simp [noItems.1] at some
        subst last
        cases later
        rw [if_neg (by simp), if_pos ⟨List.cons_ne_nil _ _, rfl⟩]
        rfl
      · have goesOn : (true && !(items.flatMap print ++ part).isEmpty) = true := by
          simpa using nothing
        rw [if_pos goesOn, induction others later
          (by rw [List.length_append]; omega)]
        by_cases whole : part = []
        · have more : items ≠ [] := by
            rintro rfl
            exact nothing (by simpa using whole)
          rw [if_pos ⟨more, whole⟩, if_pos ⟨by simp, whole⟩]
        · rw [if_neg (fun holds => whole holds.2),
            if_neg (fun holds => whole holds.2)]

/-- The loop goes on behind items that it goes on after. -/
theorem readItems_skip {items : List γ}
    (printed : ∀ item ∈ items, parse (print item) = .ok (some (value item), []))
    {s after : σ} (handled : Handled handle (items.map value) s after)
    {tail : Bytes} (more : tail ≠ []) {fuel : Nat}
    (enough : (items.flatMap print ++ tail).length < fuel) :
    ∃ fewer, tail.length < fewer ∧
      readItems host parse handle client fuel (items.flatMap print ++ tail) s =
        readItems host parse handle client fewer tail after := by
  induction items generalizing s fuel with
  | nil =>
      cases handled
      exact ⟨fuel, enough, rfl⟩
  | cons item items induction =>
      obtain ⟨fuel, rfl⟩ : ∃ more, fuel = more + 1 := ⟨fuel - 1, by omega⟩
      obtain ⟨first, others⟩ := List.forall_mem_cons.mp printed
      obtain ⟨next, handledFirst, later⟩ := handled
      obtain ⟨read, some⟩ := parse_printed stable empty first
        (items.flatMap print ++ tail)
      simp only [List.flatMap_cons, List.append_assoc, List.length_append]
        at enough ⊢
      obtain ⟨fewer, left, same⟩ := induction others later
        (show (items.flatMap print ++ tail).length < fuel by
          rw [List.length_append]; omega)
      refine ⟨fewer, left, ?_⟩
      rw [← same]
      have goesOn : (true && !(items.flatMap print ++ tail).isEmpty) = true := by
        simp [more]
      conv => lhs; unfold readItems
      rw [read]
      dsimp only
      rw [Stepwise.bind_of_ok handledFirst, if_pos goesOn]

/-- The loop is left after an item, whatever follows. -/
theorem readItems_left {items : List γ} {last : γ}
    (printed : ∀ item ∈ items ++ [last],
      parse (print item) = .ok (some (value item), []))
    {s between after : σ} (handled : Handled handle (items.map value) s between)
    (leaves : handle (value last) between = .ok false after) {rest : Bytes}
    {fuel : Nat}
    (enough : (items.flatMap print ++ print last ++ rest).length < fuel) :
    readItems host parse handle client fuel
      (items.flatMap print ++ print last ++ rest) s = .ok () after := by
  obtain ⟨read, some⟩ := parse_printed stable empty (printed last (by simp)) rest
  have more : print last ++ rest ≠ [] := by
    simp [List.ne_nil_of_length_pos some]
  rw [List.append_assoc] at enough ⊢
  obtain ⟨fewer, left, same⟩ : ∃ fewer, _ < fewer ∧
      readItems host parse handle client fuel _ s =
        readItems host parse handle client fewer _ between :=
    readItems_skip stable empty
      (fun item member => printed item (List.mem_append_left _ member)) handled
      more enough
  obtain ⟨fewer, rfl⟩ : ∃ less, fewer = less + 1 := ⟨fewer - 1, by omega⟩
  rw [same]
  unfold readItems
  rw [read]
  dsimp only
  rw [Stepwise.bind_of_ok leaves]
  rfl

end Runs

end Protocol

end Universe
