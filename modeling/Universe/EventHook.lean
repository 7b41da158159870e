import Mathlib.Data.Set.Insert
import Std.Data.ExtTreeMap

/-!
# The event hook

`EventHook` keeps callbacks under numbers it hands out, and `fire` calls them
in the order of the numbers.  A callback may use the hook again, also to fire
it.

A `Program` is a hook in the middle of arbitrary code: besides the members of
the hook it knows where the loops of the running calls of `fire` stand.  What
the code does next is a `Call`, and what callbacks do is not restricted.
-/

namespace Universe

open Std (ExtTreeMap)

/-- `EventHook`; the callbacks are names. -/
structure EventHook (CB : Type) where
  id : UInt64
  callbacks : ExtTreeMap UInt64 CB
  cancelId : List UInt64
  firing : Bool

namespace EventHook

variable {CB : Type}

/-- A new hook.  The constructor does not set `_id`. -/
def create (id : UInt64) : EventHook CB :=
  { id := id
    callbacks := ∅
    cancelId := []
    firing := false }

def attach (hook : EventHook CB) (cb : CB) : UInt64 × EventHook CB :=
  (hook.id,
    { hook with
      id := hook.id + 1
      callbacks := hook.callbacks.insert hook.id cb })

def detach (hook : EventHook CB) (id : UInt64) : EventHook CB :=
  if hook.firing then { hook with cancelId := hook.cancelId ++ [id] }
  else { hook with callbacks := hook.callbacks.erase id }

/-- `fire` up to its loop. -/
def beginFire (hook : EventHook CB) : EventHook CB := { hook with firing := true }

/-- `_callbacks.begin()`. -/
def front (hook : EventHook CB) : Option UInt64 := hook.callbacks.keys.head?

/-- Where the iterator at `id` comes to by `++`. -/
def following (hook : EventHook CB) (id : UInt64) : Option UInt64 :=
  hook.callbacks.keys.find? (id < ·)

/-- `fire` behind its loop. -/
def endFire (hook : EventHook CB) : EventHook CB :=
  { hook with
    firing := false
    callbacks := hook.cancelId.foldl ExtTreeMap.erase hook.callbacks }

/-- What code may do with the hook.  `done` is the return of the callback
that runs. -/
inductive Call (CB : Type) where
  | attach (cb : CB)
  | detach (id : UInt64)
  | fire
  | done

/-- A hook and the iterators of the calls of `fire` that have not returned,
the innermost first.  The callback of the first iterator is running. -/
structure Program (CB : Type) where
  hook : EventHook CB
  iterators : List UInt64

namespace Program

/-- The loop of `fire` reaches an entry and calls it, or it ends. -/
def advance (hook : EventHook CB) (outer : List UInt64) :
    Option UInt64 → Program CB
  | some id => ⟨hook, id :: outer⟩
  | none => ⟨hook.endFire, outer⟩

/-- The entry whose callback is called next. -/
def invoked (program : Program CB) : Call CB → Option UInt64
  | .attach _ => none
  | .detach _ => none
  | .fire => program.hook.front
  | .done => program.iterators.head?.bind program.hook.following

/-- Without a callback that runs there is no return, and an iterator whose
entry was erased has no meaning. -/
def step (program : Program CB) : Call CB → Option (Program CB)
  | .attach cb => some { program with hook := (program.hook.attach cb).2 }
  | .detach id => some { program with hook := program.hook.detach id }
  | .fire =>
      some (advance program.hook.beginFire program.iterators
        (program.invoked .fire))
  | .done =>
      match program.iterators with
      | [] => none
      | id :: outer =>
          if id ∈ program.hook.callbacks then
            some (advance program.hook outer (program.invoked .done))
          else none

end Program

end EventHook

end Universe
