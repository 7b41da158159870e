import Mathlib.Algebra.BigOperators.Group.Finset.Piecewise
import Mathlib.Algebra.Order.BigOperators.Group.Finset
import Mathlib.Data.Fintype.Basic

/-!
# Counting the threads of a system

Every thread of a system weighs something at the place where it is.  The total
tells how many threads are at some places (weights of zero and one), and it
bounds how long they can go on when every step makes it smaller.
-/

namespace Universe.Census

variable {ι α : Type} [Fintype ι]

/-- What all threads weigh together. -/
def total (weight : α → Nat) (place : ι → α) : Nat :=
  ∑ thread, weight (place thread)

theorem le_total (weight : α → Nat) (place : ι → α) (thread : ι) :
    weight (place thread) ≤ total weight place :=
  Finset.single_le_sum (f := fun thread => weight (place thread))
    (fun _ _ => Nat.zero_le _) (Finset.mem_univ thread)

theorem total_eq_zero_iff {weight : α → Nat} {place : ι → α} :
    total weight place = 0 ↔ ∀ thread, weight (place thread) = 0 := by
  unfold total
  rw [Finset.sum_eq_zero_iff]
  simp

theorem total_le_card_mul {weight : α → Nat} {place : ι → α} {bound : Nat}
    (within : ∀ thread, weight (place thread) ≤ bound) :
    total weight place ≤ Fintype.card ι * bound := by
  have each : total weight place ≤ ∑ _thread : ι, bound :=
    Finset.sum_le_sum fun thread _ => within thread
  simpa [Finset.card_univ] using each

variable [DecidableEq ι]

/-- One thread goes to another place, and the others stay where they are. -/
theorem total_update (weight : α → Nat) (place : ι → α) (thread : ι) (new : α) :
    total weight (Function.update place thread new) + weight (place thread) =
      total weight place + weight new := by
  have others : ∀ other ∈ Finset.univ.erase thread,
      weight (Function.update place thread new other) = weight (place other) := by
    intro other member
    rw [Function.update_of_ne (Finset.ne_of_mem_erase member)]
  unfold total
  rw [← Finset.add_sum_erase _ _ (Finset.mem_univ thread),
    ← Finset.add_sum_erase _ (fun thread => weight (place thread))
      (Finset.mem_univ thread), Finset.sum_congr rfl others,
    Function.update_self]
  omega

end Universe.Census
