import Mathlib.Data.List.Infix

/-!
# Longest matches

A scan over a text takes the longest word of a dictionary that begins where it
is, and goes on behind it; where no word begins, it skips a symbol.  Successive
matches of an alternation do the same when the alternatives are ordered by their
length.
-/

namespace Matching

variable {α : Type} {words : List α → Prop}

/-- The longest word that a text begins with. -/
structure Longest (words : List α → Prop) (text word : List α) : Prop where
  nonempty : word ≠ []
  known : words word
  begins : word <+: text
  longest : ∀ other, words other → other <+: text →
    other.length ≤ word.length

/-- No word begins here. -/
def Barren (words : List α → Prop) (text : List α) : Prop :=
  ∀ word, word ≠ [] → words word → ¬ word <+: text

inductive Scan (words : List α → Prop) : List α → List (List α) → Prop where
  | nil : Scan words [] []
  | take {word rest : List α} {picks : List (List α)}
      (longest : Longest words (word ++ rest) word)
      (scan : Scan words rest picks) : Scan words (word ++ rest) (word :: picks)
  | skip {first : α} {rest : List α} {picks : List (List α)}
      (barren : Barren words (first :: rest))
      (scan : Scan words rest picks) : Scan words (first :: rest) picks

theorem Longest.unique {text word other : List α}
    (longest : Longest words text word) (also : Longest words text other) :
    word = other := by
  have length : word.length = other.length :=
    Nat.le_antisymm (also.longest word longest.known longest.begins)
      (longest.longest other also.known also.begins)
  exact (List.prefix_of_prefix_length_le longest.begins also.begins
    (Nat.le_of_eq length)).eq_of_length length

theorem Longest.congr {others : List α → Prop} {text word : List α}
    (same : ∀ word, words word ↔ others word)
    (longest : Longest words text word) : Longest others text word :=
  ⟨longest.nonempty, (same word).mp longest.known, longest.begins,
    fun other known => longest.longest other ((same other).mpr known)⟩

/-- Only the words matter. -/
theorem Scan.congr {others : List α → Prop} {text : List α}
    {picks : List (List α)} (same : ∀ word, words word ↔ others word)
    (scan : Scan words text picks) : Scan others text picks := by
  induction scan with
  | nil => exact .nil
  | take longest _ induction => exact .take (longest.congr same) induction
  | skip barren _ induction =>
      refine .skip ?_ induction
      intro word nonempty known
      exact barren word nonempty ((same word).mpr known)

/-- What is picked is in the text. -/
theorem Scan.infix_of_mem {text word : List α} {picks : List (List α)}
    (scan : Scan words text picks) (picked : word ∈ picks) :
    word <:+: text := by
  induction scan with
  | nil => cases picked
  | @take first rest picks longest _ induction =>
      rcases List.mem_cons.mp picked with rfl | later
      · exact (List.prefix_append word rest).isInfix
      · exact (induction later).trans (List.suffix_append first rest).isInfix
  | skip _ _ induction => exact List.infix_cons (induction picked)

theorem Scan.cases_cons {first : α} {rest : List α} {picks : List (List α)}
    (scan : Scan words (first :: rest) picks) :
    (∃ word later others, first :: rest = word ++ later ∧
      picks = word :: others ∧ Longest words (first :: rest) word ∧
      Scan words later others) ∨
    (Barren words (first :: rest) ∧ Scan words rest picks) := by
  generalize whole : first :: rest = text at scan
  cases scan with
  | nil => cases whole
  | @take word later others longest scan =>
      exact .inl ⟨word, later, others, rfl, rfl, longest, scan⟩
  | skip barren scan =>
      cases whole
      exact .inr ⟨barren, scan⟩

/-- A scan goes on in one way only. -/
theorem Scan.unique {text : List α} {picks others : List (List α)}
    (scan : Scan words text picks) (also : Scan words text others) :
    picks = others := by
  induction size : text.length using Nat.strongRecOn
    generalizing text picks others with
  | ind count induction =>
      cases text with
      | nil =>
          have none : ∀ {picks}, Scan words [] picks → picks = [] := by
            intro picks scan
            generalize whole : ([] : List α) = text at scan
            cases scan with
            | nil => rfl
            | take longest _ =>
                exact absurd (List.append_eq_nil_iff.mp whole.symm).1
                  longest.nonempty
            | skip _ _ => cases whole
          rw [none scan, none also]
      | cons first rest =>
          have shorter : ∀ {word later : List α},
              first :: rest = word ++ later →
              Longest words (first :: rest) word → later.length < count := by
            intro word later whole longest
            have some := List.length_pos_iff.mpr longest.nonempty
            rw [← size, whole, List.length_append]
            omega
          rcases scan.cases_cons, also.cases_cons with
            ⟨⟨word, later, picks, whole, rfl, longest, scan⟩ | ⟨barren, scan⟩,
             ⟨other, left, others, split, rfl, also, second⟩ | ⟨none, second⟩⟩
          · have same := longest.unique also
            subst same
            have rests := List.append_cancel_left (whole.symm.trans split)
            subst rests
            rw [induction later.length (shorter whole longest) scan second rfl]
          · exact absurd longest.begins
              (none word longest.nonempty longest.known)
          · exact absurd also.begins (barren other also.nonempty also.known)
          · exact induction rest.length (by rw [← size]; simp) scan second rfl

section Alternation

variable [DecidableEq α]

/-- The first alternative that the text begins with. -/
def alternation (patterns : List (List α)) (text : List α) : Option (List α) :=
  patterns.find? (·.isPrefixOf text)

/-- The matches that follow each other, each from where the last one ends. -/
def matchesFrom (patterns : List (List α)) :
    (fuel : Nat) → List α → List (List α)
  | 0, _ => []
  | _, [] => []
  | fuel + 1, first :: rest =>
      match alternation patterns (first :: rest) with
      | some word =>
          word :: matchesFrom patterns fuel ((first :: rest).drop word.length)
      | none => matchesFrom patterns fuel rest

def matchAll (patterns : List (List α)) (text : List α) : List (List α) :=
  matchesFrom patterns text.length text

example : matchAll [[1, 2, 3], [1, 2], [4]] [1, 2, 4, 1, 2, 3] =
    [[1, 2], [4], [1, 2, 3]] := by
  decide

variable {patterns : List (List α)}

/-- Longer alternatives come first, so that the first one is the longest. -/
theorem longest_of_alternation
    (ordered : patterns.Pairwise fun first second =>
      second.length ≤ first.length)
    (nonempty : ∀ pattern ∈ patterns, pattern ≠ []) {text word : List α}
    (found : alternation patterns text = some word) :
    Longest (· ∈ patterns) text word := by
  obtain ⟨begins, before, after, rfl, others⟩ :=
    List.find?_eq_some_iff_append.mp found
  have member : word ∈ before ++ word :: after := by simp
  refine ⟨nonempty word member, member, by simpa using begins, ?_⟩
  intro other known also
  rcases List.mem_append.mp known with early | late
  · have unlike : other.isPrefixOf text = false := by
      simpa using others other early
    rw [List.isPrefixOf_iff_prefix.mpr also] at unlike
    cases unlike
  · rcases List.mem_cons.mp late with rfl | late
    · exact Nat.le_refl _
    · obtain ⟨-, later, -⟩ := List.pairwise_append.mp ordered
      exact (List.pairwise_cons.mp later).1 other late

theorem barren_of_alternation {text : List α}
    (missed : alternation patterns text = none) :
    Barren (· ∈ patterns) text := by
  intro word _ known begins
  have absent := List.find?_eq_none.mp missed word known
  exact absent (by simpa using begins)

/-- Successive matches of alternatives, the longer ones first, are a scan. -/
theorem scan_matchAll
    (ordered : patterns.Pairwise fun first second =>
      second.length ≤ first.length)
    (nonempty : ∀ pattern ∈ patterns, pattern ≠ []) (text : List α) :
    Scan (· ∈ patterns) text (matchAll patterns text) := by
  have general : ∀ (fuel : Nat) (text : List α), text.length ≤ fuel →
      Scan (· ∈ patterns) text (matchesFrom patterns fuel text) := by
    intro fuel
    induction fuel with
    | zero =>
        intro text enough
        have none : text = [] := List.length_eq_zero_iff.mp (by omega)
        rw [none]
        exact .nil
    | succ fuel induction =>
        intro text enough
        cases text with
        | nil => exact .nil
        | cons first rest =>
            rw [List.length_cons] at enough
            unfold matchesFrom
            cases found : alternation patterns (first :: rest) with
            | none =>
                exact .skip (barren_of_alternation found)
                  (induction rest (by omega))
            | some word =>
                have longest := longest_of_alternation ordered nonempty found
                obtain ⟨later, whole⟩ := longest.begins
                have some := List.length_pos_iff.mpr longest.nonempty
                have sizes := congrArg List.length whole
                rw [List.length_append, List.length_cons] at sizes
                dsimp only
                rw [← whole, List.drop_left]
                rw [← whole] at longest
                exact .take longest (induction later (by omega))
  exact general text.length text (Nat.le_refl _)

end Alternation

end Matching
