import Mathlib.Data.List.Basic
import Mathlib.Data.List.TakeDrop
import Mathlib.Data.List.Infix

/-!
# Paths

A place is the list of the names from the root to it, and a path is followed
component by component.  What a path does is independent of the place it
starts from: it goes up some levels and then down some names.
-/

namespace Universe.Paths

section Places

variable {ν : Type}

/-- What a component of a path does. -/
inductive Component (ν : Type) where
  | stay
  | up
  | down (name : ν)

/-- Above the root is the root. -/
def enter (place : List ν) : Component ν → List ν
  | .stay => place
  | .up => place.dropLast
  | .down name => place ++ [name]

def walk (place : List ν) (components : List (Component ν)) : List ν :=
  components.foldl enter place

/-- The levels that a path climbs above where it starts, and the names that it
goes down from there. -/
structure Relative (ν : Type) where
  ups : Nat := 0
  names : List ν := []

namespace Relative

def enter (relative : Relative ν) : Component ν → Relative ν
  | .stay => relative
  | .up =>
      if relative.names.isEmpty then { relative with ups := relative.ups + 1 }
      else { relative with names := relative.names.dropLast }
  | .down name => { relative with names := relative.names ++ [name] }

def of (components : List (Component ν)) : Relative ν :=
  components.foldl enter {}

/-- The place a path leads to. -/
def target (relative : Relative ν) (place : List ν) : List ν :=
  place.take (place.length - relative.ups) ++ relative.names

theorem enter_target (relative : Relative ν) (place : List ν)
    (component : Component ν) :
    Paths.enter (relative.target place) component =
      (relative.enter component).target place := by
  obtain ⟨ups, names⟩ := relative
  cases component with
  | stay => rfl
  | up =>
      cases names with
      | nil =>
          simp only [Paths.enter, enter, target, List.isEmpty_nil, if_true,
            List.append_nil]
          rw [List.dropLast_eq_take, List.take_take, List.length_take]
          congr 1
          omega
      | cons name names =>
          simp only [Paths.enter, enter, target, List.isEmpty_cons,
            Bool.false_eq_true, if_false]
          exact List.dropLast_append_of_ne_nil (List.cons_ne_nil _ _)
  | down name => exact List.append_assoc _ _ _

end Relative

/-- Every path goes up first and then down. -/
theorem walk_eq_target (place : List ν) (components : List (Component ν)) :
    walk place components = (Relative.of components).target place := by
  have follows (relative : Relative ν) :
      components.foldl enter (relative.target place) =
        (components.foldl Relative.enter relative).target place := by
    induction components generalizing relative with
    | nil => rfl
    | cons component components induction =>
        rw [List.foldl_cons, Relative.enter_target, induction]
        rfl
  have start : (({} : Relative ν).target place) = place := by
    simp [Relative.target]
  have whole := follows {}
  rw [start] at whole
  exact whole

/-- A path leads into a directory below its start exactly if it goes down
again by the names it has climbed and those of the directory. -/
theorem prefix_walk_iff (place inner : List ν)
    (components : List (Component ν)) :
    place ++ inner <+: walk place components ↔
      place.drop (place.length - (Relative.of components).ups) ++ inner <+:
        (Relative.of components).names := by
  have split := List.take_append_drop
    (place.length - (Relative.of components).ups) place
  rw [walk_eq_target, Relative.target]
  nth_rewrite 1 [← split]
  rw [List.append_assoc]
  exact List.prefix_append_right_inj _

/-- A path that goes up nowhere stays below whatever it has gone down to. -/
theorem Relative.of_no_up {components : List (Component ν)} (name : ν)
    (noUp : Component.up ∉ components) :
    (Relative.of (.down name :: components)).ups = 0 ∧
      [name] <+: (Relative.of (.down name :: components)).names := by
  have follows (relative : Relative ν) :
      (components.foldl enter relative).ups = relative.ups ∧
        relative.names <+: (components.foldl enter relative).names := by
    induction components generalizing relative with
    | nil => exact ⟨rfl, List.prefix_rfl⟩
    | cons component components induction =>
        obtain ⟨notUp, later⟩ := not_or.mp (mt List.mem_cons.mpr noUp)
        obtain ⟨ups, names⟩ := induction later (relative.enter component)
        rw [List.foldl_cons]
        cases component with
        | stay => exact ⟨ups, names⟩
        | up => exact absurd rfl notUp
        | down next =>
            exact ⟨ups, (List.prefix_append _ _).trans names⟩
  exact follows _

end Places

section Texts

variable {α : Type} [DecidableEq α] (slash dot : α)

/-- A component as it is written. -/
def component (name : List α) : Component (List α) :=
  if name = [] ∨ name = [dot] then .stay
  else if name = [dot, dot] then .up
  else .down name

def components (path : List α) : List (Component (List α)) :=
  (path.splitOn slash).map (component dot)

/-- The place of an absolute path. -/
def resolve (path : List α) : List (List α) :=
  walk [] (components slash dot path)

theorem resolve_append (path rest : List α) :
    resolve slash dot (path ++ slash :: rest) =
      walk (resolve slash dot path) (components slash dot rest) := by
  unfold resolve components walk
  rw [List.splitOn_append_cons_of_beq path rest (beq_self_eq_true slash),
    List.map_append, List.foldl_append]

end Texts

end Universe.Paths
