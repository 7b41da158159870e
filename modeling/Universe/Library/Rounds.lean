/-!
# Loops that take one answer a round

A loop asks the outside world once in every round, and the answer decides
whether it goes on.  Fuel bounds the rounds; a loop ends if some fuel is
enough.
-/

namespace Universe.Rounds

variable {σ ρ τ : Type}

/-- The answers after the first one. -/
def later (answers : Nat → ρ) : Nat → ρ := fun count => answers (count + 1)

/-- A list of answers before others. -/
def before : List ρ → (Nat → ρ) → Nat → ρ
  | [], answers, count => answers count
  | answer :: _, _, 0 => answer
  | _ :: list, answers, count + 1 => before list answers count

def loop (round : σ → ρ → σ ⊕ τ) : Nat → σ → (Nat → ρ) → Option τ
  | 0, _, _ => none
  | fuel + 1, state, answers =>
      match round state (answers 0) with
      | .inl next => loop round fuel next (later answers)
      | .inr result => some result

/-- Some number of rounds is enough. -/
def Ends (round : σ → ρ → σ ⊕ τ) (state : σ) (answers : Nat → ρ)
    (result : τ) : Prop :=
  ∃ fuel, loop round fuel state answers = some result

variable {round : σ → ρ → σ ⊕ τ} {state next : σ} {answers : Nat → ρ}
  {result : τ}

theorem ends_of_inl (goesOn : round state (answers 0) = .inl next) :
    Ends round state answers result ↔
      Ends round next (later answers) result := by
  constructor
  · rintro ⟨fuel, ended⟩
    cases fuel with
    | zero => cases ended
    | succ fuel =>
        rw [loop, goesOn] at ended
        exact ⟨fuel, ended⟩
  · rintro ⟨fuel, ended⟩
    refine ⟨fuel + 1, ?_⟩
    rw [loop, goesOn]
    exact ended

theorem ends_of_inr (stops : round state (answers 0) = .inr result)
    {other : τ} : Ends round state answers other ↔ other = result := by
  constructor
  · rintro ⟨fuel, ended⟩
    cases fuel with
    | zero => cases ended
    | succ fuel =>
        rw [loop, stops] at ended
        exact (Option.some.inj ended).symm
  · rintro rfl
    exact ⟨1, by rw [loop, stops]⟩

/-- Answers that the loop goes through. -/
theorem ends_before {step : σ → ρ → σ} {list : List ρ}
    (goesOn : ∀ state, ∀ answer ∈ list,
      round state answer = .inl (step state answer)) :
    Ends round state (before list answers) result ↔
      Ends round (list.foldl step state) answers result := by
  induction list generalizing state with
  | nil => exact Iff.rfl
  | cons answer list induction =>
      have first : round state (before (answer :: list) answers 0) =
          .inl (step state answer) := goesOn state answer List.mem_cons_self
      rw [ends_of_inl first, List.foldl_cons]
      exact induction fun state answer member =>
        goesOn state answer (List.mem_cons_of_mem _ member)

/-- A loop that goes on whatever it has become does not end. -/
theorem not_ends (invariant : σ → Prop) (holds : invariant state)
    (goesOn : ∀ state, invariant state → ∀ count, ∃ next,
      round state (answers count) = .inl next ∧ invariant next) :
    ¬ Ends round state answers result := by
  rintro ⟨fuel, ended⟩
  induction fuel generalizing state answers with
  | zero => cases ended
  | succ fuel induction =>
      obtain ⟨next, same, kept⟩ := goesOn state holds 0
      rw [loop, same] at ended
      exact induction kept (fun state holds count =>
        goesOn state holds (count + 1)) ended

end Universe.Rounds
