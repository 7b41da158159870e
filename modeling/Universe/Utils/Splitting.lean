import Universe.Library.Rounds
import Universe.Utils.Queries

/-!
# Splitting and joining

The loop of `split` looks for one delimiter in every round, and drops the
tokens that are empty.  It goes on only where both the delimiter and what is
behind it begin before the end.
-/

namespace Universe.Utils

open Rounds Separation

/-- `find`; `none` is `npos`. -/
def find (str delim : Bytes) (pos : Nat) : Option Nat :=
  (List.range' pos (str.length + 1 - pos)).find? fun place =>
    delim.isPrefixOf (str.drop place)

/-- `substr`; `none` where it throws `out_of_range`. -/
def substr (str : Bytes) (pos n : Nat) : Option Bytes :=
  if pos ≤ str.length then some ((str.drop pos).take n) else none

/-- The variables of the loop. -/
structure Progress where
  prev : Nat := 0
  tokens : List Bytes := []

def pushToken (tokens : List Bytes) (token : Bytes) : List Bytes :=
  if token.isEmpty then tokens else tokens ++ [token]

/-- One round of the loop of `split`, up to the tokens that it returns. -/
def splitRound (str delim : Bytes) (progress : Progress) (_ : Unit) :
    Progress ⊕ Option (List Bytes) :=
  let pos := (find str delim progress.prev).getD str.length
  match substr str progress.prev (pos - progress.prev) with
  | none => .inr none
  | some token =>
      let tokens := pushToken progress.tokens token
      -- a sum that wraps is not looked at: `pos` is the length then
      let prev := pos + delim.length
      if pos < str.length ∧ prev < str.length then .inl ⟨prev, tokens⟩
      else .inr (some tokens)

/-- `split` comes to an end and returns these tokens. -/
def Splits (str delim : Bytes) (tokens : List Bytes) : Prop :=
  ∀ outcome, Ends (splitRound str delim) {} (fun _ => ()) outcome ↔
    outcome = some tokens

/-- `join` of the pieces with extra copies of the delimiter before, between or
after them. -/
inductive Padded (delim : UInt8) (pieces : List Bytes) : Bytes → Prop where
  | joined : Padded delim pieces (join [delim] pieces)
  | before {text : Bytes} (padded : Padded delim pieces text) :
      Padded delim pieces (delim :: text)
  | between {left right : Bytes}
      (padded : Padded delim pieces (left ++ delim :: right)) :
      Padded delim pieces (left ++ delim :: delim :: right)
  | after {text : Bytes} (padded : Padded delim pieces text) :
      Padded delim pieces (text ++ [delim])

section Round

variable {str delim : Bytes} {prev : Nat}

theorem find_of_first (within : prev ≤ str.length) {place : Nat}
    (first : First delim (str.drop prev) place) :
    find str delim prev = some (prev + place) := by
  have inside := first.inside
  rw [List.length_drop] at inside
  unfold find
  rw [List.find?_range'_eq_some]
  refine ⟨?_, ?_, ?_⟩
  · rw [List.isPrefixOf_iff_prefix, ← List.drop_drop]
    exact first.here
  · rw [List.mem_range'_1]
    omega
  · intro earlier behind less
    obtain ⟨distance, rfl⟩ := Nat.exists_eq_add_of_le behind
    have apart := first.earliest distance (by omega)
    rw [List.drop_drop] at apart
    rw [Bool.not_eq_true', Bool.eq_false_iff]
    exact fun begins => apart (List.isPrefixOf_iff_prefix.mp begins)

theorem find_of_absent (absent : ¬ delim <:+: str.drop prev) :
    find str delim prev = none := by
  unfold find
  rw [List.find?_range'_eq_none]
  intro place behind less
  obtain ⟨distance, rfl⟩ := Nat.exists_eq_add_of_le behind
  rw [Bool.not_eq_true', Bool.eq_false_iff]
  intro begins
  have here := List.isPrefixOf_iff_prefix.mp begins
  rw [← List.drop_drop] at here
  exact absent (here.isInfix.trans (List.drop_suffix _ _).isInfix)

theorem pushToken_append (tokens : List Bytes) (token : Bytes)
    (pieces : List Bytes) :
    pushToken tokens token ++ pieces.filter (!·.isEmpty) =
      tokens ++ (token :: pieces).filter (!·.isEmpty) := by
  unfold pushToken
  cases token with
  | nil => rfl
  | cons byte token => exact List.append_assoc _ _ _

theorem splitRound_of_absent (within : prev ≤ str.length)
    (absent : ¬ delim <:+: str.drop prev) (tokens : List Bytes) :
    splitRound str delim ⟨prev, tokens⟩ () =
      .inr (some (pushToken tokens (str.drop prev))) := by
  have rest : substr str prev (str.length - prev) = some (str.drop prev) := by
    unfold substr
    rw [if_pos within, List.take_of_length_le (by rw [List.length_drop])]
  unfold splitRound
  rw [find_of_absent absent, Option.getD_none]
  dsimp only
  rw [rest]
  exact if_neg fun goesOn => Nat.lt_irrefl _ goesOn.1

theorem splitRound_of_first {place : Nat}
    (first : First delim (str.drop prev) place)
    (found : prev + place < str.length) (tokens : List Bytes) :
    splitRound str delim ⟨prev, tokens⟩ () =
      if prev + place + delim.length < str.length then
        .inl ⟨prev + place + delim.length,
          pushToken tokens ((str.drop prev).take place)⟩
      else .inr (some (pushToken tokens ((str.drop prev).take place))) := by
  have within : prev ≤ str.length := by omega
  have token : substr str prev (prev + place - prev) =
      some ((str.drop prev).take place) := by
    rw [Nat.add_sub_cancel_left]
    exact if_pos within
  unfold splitRound
  rw [find_of_first within first, Option.getD_some]
  dsimp only
  rw [token]
  simp only [found, true_and]

/-- The loop takes the rest of the text to pieces. -/
theorem ends_of_cuts (nonempty : delim ≠ []) {text : Bytes}
    {pieces : List Bytes} (cuts : Cuts delim text pieces)
    (within : prev ≤ str.length) (rest : str.drop prev = text)
    (tokens : List Bytes) {outcome : Option (List Bytes)} :
    Ends (splitRound str delim) ⟨prev, tokens⟩ (fun _ => ()) outcome ↔
      outcome = some (tokens ++ pieces.filter (!·.isEmpty)) := by
  induction cuts generalizing prev tokens with
  | @whole text absent =>
      subst rest
      rw [ends_of_inr (splitRound_of_absent within absent tokens),
        ← pushToken_append tokens (str.drop prev) []]
      rw [List.filter_nil, List.append_nil]
  | @first text place pieces first cuts induction =>
      subst rest
      have positive := List.length_pos_iff.mpr nonempty
      have inside := first.inside
      rw [List.length_drop] at inside
      have round := splitRound_of_first first (by omega) tokens
      have left : str.drop (prev + place + delim.length) =
          (str.drop prev).drop (place + delim.length) := by
        rw [List.drop_drop, Nat.add_assoc]
      rw [← pushToken_append]
      split at round
      · next goesOn =>
          rw [ends_of_inl round]
          exact induction (Nat.le_of_lt goesOn) left _
      · next ended =>
          have last : pieces = [[]] := by
            rw [← left, List.drop_eq_nil_of_le (Nat.le_of_not_lt ended)]
              at cuts
            exact cuts.of_nil nonempty
          rw [ends_of_inr round, last]
          exact Iff.of_eq (congrArg (outcome = some ·)
            (List.append_nil _).symm)

end Round

/-- `split` returns what is cut out, without what is empty. -/
theorem splits_of_cuts {str delim : Bytes} (nonempty : delim ≠ [])
    {pieces : List Bytes} (cuts : Cuts delim str pieces) :
    Splits str delim (pieces.filter (!·.isEmpty)) := fun _ =>
  ends_of_cuts nonempty cuts (Nat.zero_le _) rfl []

example : Rounds.loop (splitRound (ascii "aaab") (ascii "aa")) 2 {}
    (fun _ => ()) = some (some [ascii "ab"]) := by
  decide

/-- With a delimiter of one byte this is what queries are read with. -/
theorem splits_single (str : Bytes) (delim : UInt8) :
    Splits str [delim] (split delim str) :=
  splits_of_cuts (List.cons_ne_nil _ _) (cuts_pieces delim str)

/-- The loop goes on for ever where it looks for nothing in something. -/
theorem not_splits_empty {str : Bytes} (something : str ≠ [])
    (tokens : List Bytes) : ¬ Splits str [] tokens := by
  intro splits
  have ends := (splits (some tokens)).mpr rfl
  refine not_ends (fun progress => progress.prev < str.length)
    (List.length_pos_iff.mpr something) ?_ ends
  rintro ⟨prev, tokens⟩ (less : prev < str.length) _
  have first : First [] (str.drop prev) 0 :=
    ⟨Nat.zero_le _, List.nil_prefix, fun _ none => by omega⟩
  exact ⟨_, (splitRound_of_first first less tokens).trans (if_pos less), less⟩

theorem splits_iff (str delim : Bytes) :
    (∃ tokens, Splits str delim tokens) ↔ delim ≠ [] ∨ str = [] := by
  constructor
  · rintro ⟨tokens, splits⟩
    by_contra never
    obtain ⟨nothing, something⟩ := not_or.mp never
    rw [not_not.mp nothing] at splits
    exact not_splits_empty something tokens splits
  · intro ended
    by_cases nonempty : delim ≠ []
    · obtain ⟨pieces, cuts⟩ := exists_cuts nonempty str
      exact ⟨_, splits_of_cuts nonempty cuts⟩
    · rw [not_not.mp nonempty, ended.resolve_left nonempty]
      exact ⟨[], fun _ => ends_of_inr rfl⟩

theorem join_eq_intercalate (glue : Bytes) (pieces : List Bytes) :
    join glue pieces = glue.intercalate pieces := by
  induction pieces with
  | nil => rfl
  | cons piece pieces induction =>
      cases pieces with
      | nil => exact List.intercalate_singleton.symm
      | cons next pieces =>
          rw [List.intercalate_cons_cons, ← induction, join]
          exact List.cons_ne_nil _ _

/-- Extra delimiters change nothing. -/
theorem split_of_padded {delim : UInt8} {pieces : List Bytes} {text : Bytes}
    (parts : ∀ piece ∈ pieces, piece ≠ [] ∧ delim ∉ piece)
    (padded : Padded delim pieces text) : split delim text = pieces := by
  induction padded with
  | joined => exact split_join parts
  | before padded induction => exact (split_append delim [] _).trans induction
  | @between left right padded induction =>
      have again : split delim (delim :: right) = split delim right :=
        split_append delim [] right
      rw [split_append, again, ← split_append]
      exact induction
  | after padded induction =>
      rw [split_append, induction]
      exact List.append_nil _

/-- `split` ends, with tokens that are not empty and do not contain the
delimiter, in the order in which they occur; and it finds the pieces that were
joined, whatever delimiters are added. -/
theorem split_ends_and_inverts_join :
    (∀ str delim : Bytes, delim ≠ [] →
      ∃ tokens, Splits str delim tokens ∧
        (∀ token ∈ tokens, token ≠ [] ∧ ¬ delim <:+: token) ∧
        ∃ pieces, join delim pieces = str ∧
          tokens = pieces.filter (!·.isEmpty)) ∧
    ∀ (delim : UInt8) (pieces : List Bytes),
      (∀ piece ∈ pieces, piece ≠ [] ∧ delim ∉ piece) →
        Splits (join [delim] pieces) [delim] pieces ∧
          ∀ text, Padded delim pieces text → Splits text [delim] pieces := by
  constructor
  · intro str delim nonempty
    obtain ⟨pieces, cuts⟩ := exists_cuts nonempty str
    refine ⟨_, splits_of_cuts nonempty cuts, ?_, pieces, ?_, rfl⟩
    · intro token member
      obtain ⟨isPiece, something⟩ := List.mem_filter.mp member
      refine ⟨?_, cuts.absent nonempty token isPiece⟩
      rintro rfl
      cases something
    · rw [join_eq_intercalate]
      exact cuts.intercalate
  · intro delim pieces parts
    have whole (text : Bytes) (padded : Padded delim pieces text) :
        Splits text [delim] pieces := by
      have splits := splits_single text delim
      rw [split_of_padded parts padded] at splits
      exact splits
    exact ⟨whole _ .joined, whole⟩

/-- With a comma before, between and after the pieces. -/
theorem split_ends_and_inverts_join_commas :
    Splits (ascii ",a,,bc,") (ascii ",") [ascii "a", ascii "bc"] := by
  have plain : Padded 44 [ascii "a", ascii "bc"]
      (ascii "a" ++ 44 :: ascii "bc") := .joined
  have parts : ∀ piece ∈ [ascii "a", ascii "bc"], piece ≠ [] ∧ 44 ∉ piece := by
    decide
  exact (split_ends_and_inverts_join.2 44 _ parts).2 _
    (.after (.before (.between plain)))

end Universe.Utils
