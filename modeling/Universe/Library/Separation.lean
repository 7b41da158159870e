import Mathlib.Data.List.Infix
import Mathlib.Data.Nat.Find

/-!
# Texts cut at a separator

A separator is cut out where it occurs first, and what is behind it is cut in
the same way.  Where the separator is a single symbol, this is `List.splitOn`.
-/

namespace Separation

variable {α : Type} {separator text : List α}

/-- The separator occurs at `place` and nowhere before it. -/
structure First (separator text : List α) (place : Nat) : Prop where
  inside : place + separator.length ≤ text.length
  here : separator <+: text.drop place
  earliest : ∀ earlier < place, ¬ separator <+: text.drop earlier

inductive Cuts (separator : List α) : List α → List (List α) → Prop where
  | whole {text : List α} (absent : ¬ separator <:+: text) :
      Cuts separator text [text]
  | first {text : List α} {place : Nat} {pieces : List (List α)}
      (first : First separator text place)
      (rest : Cuts separator (text.drop (place + separator.length)) pieces) :
      Cuts separator text (text.take place :: pieces)

theorem infix_iff_drop :
    separator <:+: text ↔
      ∃ place ≤ text.length, separator <+: text.drop place := by
  constructor
  · rintro ⟨before, after, rfl⟩
    refine ⟨before.length, ?_, ?_⟩
    · rw [List.append_assoc, List.length_append]
      exact Nat.le_add_right _ _
    · rw [List.append_assoc, List.drop_left]
      exact List.prefix_append _ _
  · rintro ⟨place, -, here⟩
    exact here.isInfix.trans (List.drop_suffix _ _).isInfix

theorem First.take_append {place : Nat} (first : First separator text place) :
    text.take place ++ separator ++ text.drop (place + separator.length) =
      text := by
  have rest := List.prefix_iff_eq_append.mp first.here
  rw [List.drop_drop] at rest
  rw [List.append_assoc, rest, List.take_append_drop]

theorem Cuts.ne_nil {pieces : List (List α)}
    (cuts : Cuts separator text pieces) : pieces ≠ [] := by
  cases cuts with
  | whole absent => exact List.cons_ne_nil _ _
  | first first rest => exact List.cons_ne_nil _ _

/-- Nothing is lost, and everything stays in its order. -/
theorem Cuts.intercalate {pieces : List (List α)}
    (cuts : Cuts separator text pieces) :
    separator.intercalate pieces = text := by
  induction cuts with
  | whole absent => exact List.intercalate_singleton
  | first first rest induction =>
      rw [List.intercalate_cons_of_ne_nil rest.ne_nil, induction,
        first.take_append]

/-- The separator is cut out wherever it is. -/
theorem Cuts.absent {pieces : List (List α)} (some : separator ≠ [])
    (cuts : Cuts separator text pieces) :
    ∀ piece ∈ pieces, ¬ separator <:+: piece := by
  induction cuts with
  | whole absent => exact List.forall_mem_singleton.mpr absent
  | @first text place pieces first rest induction =>
      refine List.forall_mem_cons.mpr ⟨?_, induction⟩
      rintro ⟨before, after, whole⟩
      have positive := List.length_pos_iff.mpr some
      have length := congrArg List.length whole
      simp only [List.length_append, List.length_take] at length
      apply first.earliest before.length (by omega)
      have split :
          text = before ++ (separator ++ (after ++ text.drop place)) := by
        rw [← List.append_assoc separator, ← List.append_assoc before,
          ← List.append_assoc before, whole, List.take_append_drop]
      rw [split, List.drop_left]
      exact List.prefix_append _ _

theorem Cuts.of_nil {pieces : List (List α)} (some : separator ≠ [])
    (cuts : Cuts separator [] pieces) : pieces = [[]] := by
  cases cuts with
  | whole absent => rfl
  | first first rest =>
      have positive := List.length_pos_iff.mpr some
      have inside := first.inside
      rw [List.length_nil] at inside
      omega

/-- What occurs has a first occurrence. -/
theorem exists_first (occurs : separator <:+: text) :
    ∃ place, First separator text place := by
  classical
  have places := infix_iff_drop.mp occurs
  obtain ⟨within, here⟩ := Nat.find_spec places
  refine ⟨Nat.find places, ?_, here, ?_⟩
  · have length := here.length_le
    rw [List.length_drop] at length
    omega
  · intro earlier less begins
    exact Nat.find_min places less ⟨by omega, begins⟩

theorem exists_cuts (some : separator ≠ []) (text : List α) :
    ∃ pieces, Cuts separator text pieces := by
  induction size : text.length using Nat.strongRecOn generalizing text with
  | ind count induction =>
      by_cases occurs : separator <:+: text
      · obtain ⟨place, first⟩ := exists_first occurs
        have positive := List.length_pos_iff.mpr some
        have inside := first.inside
        have shorter :
            (text.drop (place + separator.length)).length < count := by
          rw [List.length_drop]
          omega
        obtain ⟨pieces, rest⟩ := induction _ shorter _ rfl
        exact ⟨_, .first first rest⟩
      · exact ⟨_, .whole occurs⟩

/-- A single symbol that does not occur before. -/
theorem first_of_notMem {symbol : α} {before : List α}
    (absent : symbol ∉ before) (after : List α) :
    First [symbol] (before ++ symbol :: after) before.length := by
  refine ⟨by simp, ?_, ?_⟩
  · rw [List.drop_left]
    exact List.prefix_append [symbol] after
  · rintro earlier less ⟨rest, begins⟩
    rw [List.drop_append_of_le_length (Nat.le_of_lt less),
      List.drop_eq_getElem_cons less] at begins
    have same : symbol = before[earlier] := (List.cons.inj begins).1
    exact absent (same ▸ List.getElem_mem less)

theorem cuts_splitOn [BEq α] [LawfulBEq α] (symbol : α) (text : List α) :
    Cuts [symbol] text (text.splitOn symbol) := by
  induction size : text.length using Nat.strongRecOn generalizing text with
  | ind count induction =>
      by_cases occurs : symbol ∈ text
      · obtain ⟨before, after, rfl, absent⟩ :=
          List.eq_append_cons_of_mem occurs
        have first := first_of_notMem absent after
        have left : (before ++ symbol :: after).drop
            (before.length + [symbol].length) = after := by
          rw [← List.drop_drop, List.drop_left]
          rfl
        have rest : Cuts [symbol] ((before ++ symbol :: after).drop
            (before.length + [symbol].length)) (after.splitOn symbol) := by
          rw [left]
          refine induction after.length ?_ after rfl
          rw [← size, List.length_append, List.length_cons]
          omega
        have cuts := Cuts.first first rest
        rw [List.take_left] at cuts
        rw [List.splitOn_append_cons_self_of_not_mem absent]
        exact cuts
      · rw [List.splitOn_eq_singleton occurs]
        apply Cuts.whole
        exact fun within =>
          occurs ((List.singleton_infix_iff symbol text).mp within)

end Separation
