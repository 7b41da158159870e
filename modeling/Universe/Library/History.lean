import Mathlib.Data.List.Basic

/-!
# Statements about every moment of a recorded history

A history is a list of events with the newest first.  `Always` says something
of every event together with the events before it.
-/

namespace History

variable {α : Type}

def Always (property : α → List α → Prop) : List α → Prop
  | [] => True
  | event :: past => property event past ∧ Always property past

instance Always.decidable {property : α → List α → Prop}
    [∀ event past, Decidable (property event past)] :
    (history : List α) → Decidable (Always property history)
  | [] => .isTrue trivial
  | event :: past =>
      have _earlier : Decidable (Always property past) := Always.decidable past
      inferInstanceAs (Decidable (property event past ∧ Always property past))

variable {property other : α → List α → Prop}

theorem Always.append_right {later past : List α}
    (holds : Always property (later ++ past)) : Always property past := by
  induction later with
  | nil => exact holds
  | cons event later induction => exact induction holds.2

theorem Always.of_suffix {past history : List α}
    (holds : Always property history) (earlier : past <:+ history) :
    Always property past := by
  obtain ⟨later, rfl⟩ := earlier
  exact holds.append_right

/-- Every event of the history met the property when it happened. -/
theorem Always.of_mem {history : List α} (holds : Always property history)
    {event : α} (member : event ∈ history) : ∃ past, property event past := by
  induction history with
  | nil => cases member
  | cons latest past induction =>
      rcases List.mem_cons.mp member with rfl | member
      · exact ⟨past, holds.1⟩
      · exact induction holds.2 member

/-- Statements about the events alone. -/
theorem always_iff_forall_mem {property : α → Prop} {history : List α} :
    Always (fun event _ => property event) history ↔
      ∀ event ∈ history, property event := by
  induction history with
  | nil => simp [Always]
  | cons event past induction => simp [Always, induction]

end History
