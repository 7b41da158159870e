import Mathlib.Logic.Function.Basic

/-!
# Values that are made once

A table keeps under every key the first value that was made for it.  A request
names its key and what would be made, if anything can be made.
-/

namespace Memo

variable {κ ν : Type} [DecidableEq κ]

/-- The value kept under the key, or the one that is made now. -/
def fetch (table : κ → Option ν) (key : κ) (made : Option ν) :
    Option ν × (κ → Option ν) :=
  match table key with
  | some value => (some value, table)
  | none => (made, Function.update table key made)

/-- The table after the requests. -/
def record (table : κ → Option ν) (requests : List (κ × Option ν)) :
    κ → Option ν :=
  requests.foldl (fun table request => (fetch table request.1 request.2).2)
    table

/-- What the first successful request for the key has made. -/
def first (requests : List (κ × Option ν)) (key : κ) : Option ν :=
  requests.findSome? fun request =>
    if request.1 = key then request.2 else none

theorem fetch_table (table : κ → Option ν) (key other : κ)
    (made : Option ν) :
    (fetch table key made).2 other =
      (table other).or (if key = other then made else none) := by
  unfold fetch
  by_cases same : key = other
  · subst same
    cases kept : table key with
    | some value => simp [kept]
    | none => simp
  · cases kept : table key with
    | some value => simp [same]
    | none => simp [same, Function.update_of_ne (Ne.symm same)]

theorem fetch_value (table : κ → Option ν) (key : κ) (made : Option ν) :
    (fetch table key made).1 = (fetch table key made).2 key := by
  unfold fetch
  cases kept : table key with
  | some value => exact kept.symm
  | none => exact Function.update_self key made table |>.symm

/-- The table keeps what it had, and otherwise what was made first. -/
theorem record_apply (table : κ → Option ν)
    (requests : List (κ × Option ν)) (key : κ) :
    record table requests key = (table key).or (first requests key) := by
  induction requests generalizing table with
  | nil => exact (Option.or_none).symm
  | cons request requests induction =>
      have step := induction (fetch table request.1 request.2).2
      have begun : first (request :: requests) key =
          (if request.1 = key then request.2 else none).or
            (first requests key) := by
        unfold first
        rw [List.findSome?_cons]
        cases if request.1 = key then request.2 else none <;> rfl
      rw [begun, ← Option.or_assoc, ← fetch_table]
      exact step

theorem record_append (table : κ → Option ν)
    (requests more : List (κ × Option ν)) :
    record table (requests ++ more) = record (record table requests) more :=
  List.foldl_append

/-- A request after others is answered with what was made first. -/
theorem fetch_record (requests : List (κ × Option ν)) (key : κ)
    (made : Option ν) :
    (fetch (record (fun _ => none) requests) key made).1 =
      first (requests ++ [(key, made)]) key := by
  have extended := record_append (fun _ => none) requests [(key, made)]
  rw [fetch_value]
  exact (congrFun extended key).symm.trans
    ((record_apply _ _ key).trans Option.none_or)

end Memo
