import Universe.Protocol.Delivery
import Universe.Server

/-!
# One client of a server

A connection whose protocol keeps members of its own for all clients.  What is
seen of it grows.
-/

namespace Universe

open Stepwise

namespace Protocol.Connection

variable {ε χ α β : Type}

/-- What a protocol of a server asks for.  It connects by other means. -/
def serverHost (traits : Traits ε χ) (client : Fd) :
    ServerHost χ (M ε χ) where
  toHost := host traits client
  hasBuf id := modifyGet fun s => (s.bufferable.hasBuf id, s)
  getBuf id := modifyGet fun s =>
    let got := s.bufferable.getBuf id
    (got.1, { s with bufferable := got.2 })
  own change := modifyGet fun s =>
    ((change s.own).1, { s with own := (change s.own).2 })
  connect _ _ := throw ()
  firing := return 0

/-- What was seen stays. -/
def Grows (s after : Connection ε χ) : Prop :=
  ∃ more, after.trace = s.trace ++ more

theorem Grows.refl (s : Connection ε χ) : Grows s s :=
  ⟨[], (List.append_nil _).symm⟩

theorem Grows.trans {s between after : Connection ε χ}
    (first : Grows s between) (second : Grows between after) :
    Grows s after := by
  obtain ⟨early, first⟩ := first
  obtain ⟨late, second⟩ := second
  refine ⟨early ++ late, ?_⟩
  rw [second, first, List.append_assoc]

theorem settled_trace (result : EStateM.Result Unit (Connection ε χ) Unit) :
    (settled result).trace = (final result).trace := by
  cases result <;> rfl

/-- A computation that only adds to what was seen. -/
def Growing (computation : M ε χ α) : Prop :=
  ∀ s, Grows s (final (computation s))

namespace Growing

theorem pure (value : α) : Growing (Pure.pure value : M ε χ α) := Grows.refl

theorem throw : Growing (throw () : M ε χ α) := Grows.refl

theorem modifyGet {change : Connection ε χ → α × Connection ε χ}
    (grows : ∀ s, Grows s (change s).2) :
    Growing (modifyGet change : M ε χ α) := grows

theorem modify {change : Connection ε χ → Connection ε χ}
    (grows : ∀ s, Grows s (change s)) :
    Growing (modify change : M ε χ PUnit) := grows

theorem bind {first : M ε χ α} {rest : α → M ε χ β} (early : Growing first)
    (late : ∀ value, Growing (rest value)) : Growing (first >>= rest) := by
  intro s
  have grows := early s
  cases outcome : first s with
  | ok value between =>
      rw [outcome] at grows
      rw [bind_of_ok outcome]
      exact grows.trans (late value between)
  | error stop between =>
      rw [outcome] at grows
      rw [bind_of_error outcome]
      exact grows

variable (traits : Traits ε χ) (client : Fd)

theorem needBuf (id : Fd) (message : Bytes) (cond : Bool) :
    Growing ((serverHost traits client).needBuf id message cond) :=
  fun s => ⟨[], (List.append_nil s.trace).symm⟩

theorem appendBuf (id : Fd) (message : Bytes) :
    Growing ((serverHost traits client).appendBuf id message) :=
  fun s => ⟨[], (List.append_nil s.trace).symm⟩

theorem own (change : χ → α × χ) :
    Growing ((serverHost traits client).own change) :=
  fun s => ⟨[], (List.append_nil s.trace).symm⟩

theorem write (fd : Fd) (data : Bytes) :
    Growing ((serverHost traits client).write fd data) :=
  fun _ => ⟨_, rfl⟩

theorem close (fd : Fd) : Growing ((serverHost traits client).close fd) := by
  apply modifyGet
  intro s
  split
  · exact ⟨_, rfl⟩
  · exact .refl s

end Growing

end Protocol.Connection

end Universe
