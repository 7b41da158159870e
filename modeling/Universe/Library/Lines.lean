import Mathlib.Data.List.Basic

/-!
# Texts in lines

`lines` cuts a text at every line break, which is two given characters in a
row.  The characters of a line break do not stand for anything else only when
they come together, so a line may contain either of them.
-/

namespace Lines

variable {α : Type}

/-- A character in front of the first line. -/
def extend (char : α) : List (List α) → List (List α)
  | [] => [[char]]
  | first :: rest => (char :: first) :: rest

theorem extend_append {char : α} {first second : List (List α)}
    (some : first ≠ []) :
    extend char (first ++ second) = extend char first ++ second := by
  obtain ⟨line, rest, rfl⟩ := List.exists_cons_of_ne_nil some
  rfl

variable [DecidableEq α] (cr lf : α)

def lines : List α → List (List α)
  | [] => [[]]
  | [char] => [[char]]
  | first :: second :: rest =>
      if first = cr ∧ second = lf then [] :: lines rest
      else extend first (lines (second :: rest))

variable {cr lf}

theorem lines_ne_nil (text : List α) : lines cr lf text ≠ [] := by
  fun_cases lines cr lf text with
  | case1 => exact List.cons_ne_nil _ _
  | case2 char => exact List.cons_ne_nil _ _
  | case3 first second rest breaks => exact List.cons_ne_nil _ _
  | case4 first second rest other =>
      cases lines cr lf (second :: rest) with
      | nil => exact List.cons_ne_nil _ _
      | cons line later => exact List.cons_ne_nil _ _

/-- A line break ends what stands before it. -/
theorem lines_append (different : cr ≠ lf) (first second : List α) :
    lines cr lf (first ++ cr :: lf :: second) =
      lines cr lf first ++ lines cr lf second := by
  induction first using lines.induct cr lf with
  | case1 => simp [lines]
  | case2 char =>
      have apart : ¬ (char = cr ∧ cr = lf) := fun both => different both.2
      simp [lines, apart, extend]
  | case3 one two rest breaks induction =>
      obtain ⟨rfl, rfl⟩ := breaks
      simp [lines, induction]
  | case4 one two rest other induction =>
      have step : lines cr lf (one :: two :: rest ++ cr :: lf :: second) =
          extend one (lines cr lf (two :: rest ++ cr :: lf :: second)) := by
        rw [List.cons_append, List.cons_append, lines, if_neg other]
      rw [step, induction, extend_append (lines_ne_nil _), lines, if_neg other]

/-- A text in which the first character of a line break does not occur. -/
theorem lines_of_notMem {text : List α} (absent : cr ∉ text) :
    lines cr lf text = [text] := by
  induction text using lines.induct cr lf with
  | case1 => rfl
  | case2 char => rfl
  | case3 one two rest breaks induction =>
      exact absurd (breaks.1 ▸ List.mem_cons_self) absent
  | case4 one two rest other induction =>
      have later := induction fun member => absent (List.mem_cons_of_mem one member)
      rw [lines, if_neg other, later]
      rfl

/-- Texts that are each ended by a line break. -/
theorem lines_flatMap {β : Type} (different : cr ≠ lf) (text : β → List α)
    (items : List β) (rest : List α) :
    lines cr lf (items.flatMap (fun item => text item ++ [cr, lf]) ++ rest) =
      items.flatMap (fun item => lines cr lf (text item)) ++
        lines cr lf rest := by
  induction items with
  | nil => rfl
  | cons item items induction =>
      have shape : (item :: items).flatMap (fun item => text item ++ [cr, lf]) ++
          rest = text item ++ cr :: lf ::
            (items.flatMap (fun item => text item ++ [cr, lf]) ++ rest) := by
        simp
      rw [shape, lines_append different, induction]
      simp

end Lines
