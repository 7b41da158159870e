import Mathlib.Data.List.Basic

/-!
# Input that arrives in pieces

A `Reader` takes values off the front of its input and may stop with an
error.  One of the errors, `again`, says that the input ends too early.  A
reader is stable when more input can change nothing but this answer.

A `Consumer` reads one item after the other and keeps what is left over for
the next piece.  When its steps are stable, it does not matter how the input
is cut into pieces.
-/

namespace Incremental

variable {α ε β γ σ : Type}

abbrev Reader (α ε : Type) := StateT (List α) (Except ε)

/-- More input changes no answer but `again`. -/
structure Stable (again : ε) (read : Reader α ε β) : Prop where
  ok : ∀ {input value rest}, read input = .ok (value, rest) →
    ∀ more, read (input ++ more) = .ok (value, rest ++ more)
  error : ∀ {input stop}, read input = .error stop → stop ≠ again →
    ∀ more, read (input ++ more) = .error stop

/-- The reader takes at least `count` values off its input. -/
def Takes (count : Nat) (read : Reader α ε β) : Prop :=
  ∀ input value rest, read input = .ok (value, rest) →
    rest.length + count ≤ input.length

/-- What the reader returns has a property. -/
def Yields (property : β → Prop) (read : Reader α ε β) : Prop :=
  ∀ input value rest, read input = .ok (value, rest) → property value

section Rules

variable {again : ε}

theorem bind_of_ok {first : Reader α ε β} {rest : β → Reader α ε γ}
    {input later : List α} {value : β}
    (returned : first input = .ok (value, later)) :
    (first >>= rest) input = rest value later := by
  change (first input >>= fun result => rest result.1 result.2) = _
  rw [returned]
  rfl

theorem bind_of_error {first : Reader α ε β} {rest : β → Reader α ε γ}
    {input : List α} {stop : ε} (stopped : first input = .error stop) :
    (first >>= rest) input = .error stop := by
  change (first input >>= fun result => rest result.1 result.2) = _
  rw [stopped]
  rfl

/-- A sequence that returns has returned from both halves. -/
theorem bind_eq_ok {first : Reader α ε β} {rest : β → Reader α ε γ}
    {input left : List α} {result : γ} :
    (first >>= rest) input = .ok (result, left) ↔
      ∃ value between, first input = .ok (value, between) ∧
        rest value between = .ok (result, left) := by
  cases outcome : first input with
  | error stop =>
      rw [bind_of_error outcome]
      simp
  | ok read =>
      obtain ⟨value, between⟩ := read
      rw [bind_of_ok outcome]
      simp

/-- A sequence that stops has stopped in one of its halves. -/
theorem bind_eq_error {first : Reader α ε β} {rest : β → Reader α ε γ}
    {input : List α} {stop : ε} :
    (first >>= rest) input = .error stop ↔
      first input = .error stop ∨ ∃ value between,
        first input = .ok (value, between) ∧
          rest value between = .error stop := by
  cases outcome : first input with
  | error earlier =>
      rw [bind_of_error outcome]
      simp
  | ok read =>
      obtain ⟨value, between⟩ := read
      rw [bind_of_ok outcome]
      simp

theorem pure_eq_ok {value result : β} {input left : List α} :
    (pure value : Reader α ε β) input = .ok (result, left) ↔
      value = result ∧ input = left := by
  change Except.ok (value, input) = _ ↔ _
  simp

theorem stable_pure (value : β) :
    Stable again (pure value : Reader α ε β) := by
  constructor
  · intro input result rest returned more
    cases returned
    rfl
  · intro input stop stopped
    cases stopped

theorem stable_throw (stop : ε) :
    Stable again (throw stop : Reader α ε β) := by
  constructor
  · intro input result rest returned
    cases returned
  · intro input other stopped _ more
    cases stopped
    rfl

theorem stable_bind {first : Reader α ε β} {rest : β → Reader α ε γ}
    (firstStable : Stable again first)
    (restStable : ∀ value, Stable again (rest value)) :
    Stable again (first >>= rest) := by
  constructor
  · intro input result left returned more
    obtain ⟨value, between, read, returned⟩ := bind_eq_ok.mp returned
    rw [bind_of_ok (firstStable.ok read more)]
    exact (restStable value).ok returned more
  · intro input stop stopped different more
    rcases bind_eq_error.mp stopped with stopped | ⟨value, between, read, stopped⟩
    · exact bind_of_error (firstStable.error stopped different more)
    · rw [bind_of_ok (firstStable.ok read more)]
      exact (restStable value).error stopped different more

theorem takes_pure (value : β) : Takes 0 (pure value : Reader α ε β) := by
  intro input result rest returned
  cases returned
  exact Nat.le_refl _

theorem takes_throw (count : Nat) (stop : ε) :
    Takes count (throw stop : Reader α ε β) := by
  intro input result rest returned
  cases returned

private theorem takes_both {firstCount restCount : Nat} {first : Reader α ε β}
    {rest : β → Reader α ε γ} (firstTakes : Takes firstCount first)
    (restTakes : ∀ value, Takes restCount (rest value)) :
    Takes (firstCount + restCount) (first >>= rest) := by
  intro input result left returned
  obtain ⟨value, between, read, returned⟩ := bind_eq_ok.mp returned
  have firstLess := firstTakes _ _ _ read
  have restLess := restTakes value _ _ _ returned
  omega

theorem takes_now {count : Nat} {first : Reader α ε β}
    {rest : β → Reader α ε γ} (firstTakes : Takes count first)
    (restTakes : ∀ value, Takes 0 (rest value)) :
    Takes count (first >>= rest) :=
  takes_both firstTakes restTakes

theorem takes_later {count : Nat} {first : Reader α ε β}
    {rest : β → Reader α ε γ} (firstTakes : Takes 0 first)
    (restTakes : ∀ value, Takes count (rest value)) :
    Takes count (first >>= rest) := by
  rw [← Nat.zero_add count]
  exact takes_both firstTakes restTakes

theorem Takes.weaken {count fewer : Nat} {read : Reader α ε β}
    (takes : Takes count read) (less : fewer ≤ count) : Takes fewer read := by
  intro input value rest returned
  have taken := takes _ _ _ returned
  omega

theorem yields_pure {property : β → Prop} {value : β}
    (holds : property value) : Yields property (pure value : Reader α ε β) := by
  intro input result rest returned
  cases returned
  exact holds

theorem yields_bind {property : γ → Prop} {first : Reader α ε β}
    {rest : β → Reader α ε γ}
    (restYields : ∀ value, Yields property (rest value)) :
    Yields property (first >>= rest) := by
  intro input result left returned
  obtain ⟨value, between, read, returned⟩ := bind_eq_ok.mp returned
  exact restYields value _ _ _ returned

theorem stable_ite {condition : Prop} [Decidable condition]
    {first second : Reader α ε β} (firstStable : Stable again first)
    (secondStable : Stable again second) :
    Stable again (if condition then first else second) := by
  split
  · exact firstStable
  · exact secondStable

/-- A part of what is read whole is read the same way, or ends too early. -/
theorem Stable.of_part {read : Reader α ε β} (stable : Stable again read)
    {part whole left : List α} {value : β}
    (returned : read whole = .ok (value, left)) (begins : part <+: whole) :
    read part = .error again ∨ ∃ rest more, read part = .ok (value, rest) ∧
      part ++ more = whole ∧ rest ++ more = left := by
  obtain ⟨more, rfl⟩ := begins
  cases outcome : read part with
  | error stop =>
      by_cases same : stop = again
      · exact .inl (by rw [same])
      · rw [stable.error outcome same more] at returned
        cases returned
  | ok result =>
      obtain ⟨read, rest⟩ := result
      rw [stable.ok outcome more] at returned
      cases returned
      exact .inr ⟨rest, more, rfl, rfl, rfl⟩

/-- Less than what is read whole ends too early. -/
theorem Stable.of_proper {read : Reader α ε β} (stable : Stable again read)
    {part whole : List α} {value : β} (returned : read whole = .ok (value, []))
    (begins : part <+: whole) (proper : part ≠ whole) :
    read part = .error again := by
  rcases stable.of_part returned begins with ends | same
  · exact ends
  · obtain ⟨rest, more, _, rfl, none⟩ := same
    obtain ⟨_, rfl⟩ := List.append_eq_nil_iff.mp none
    exact absurd (List.append_nil part).symm proper

/-- What begins a sequence of items ends within the first one or has it
whole. -/
theorem Stable.of_sequence {read : Reader α ε β} (stable : Stable again read)
    {part first later : List α} {value : β}
    (returned : read first = .ok (value, [])) (begins : part <+: first ++ later) :
    read part = .error again ∨ ∃ rest, part = first ++ rest ∧ rest <+: later ∧
      read part = .ok (value, rest) := by
  rcases List.prefix_or_prefix_of_prefix begins (List.prefix_append first later)
    with within | beyond
  · rcases stable.of_part returned within with again | same
    · exact .inl again
    · obtain ⟨rest, more, read, whole, none⟩ := same
      obtain ⟨rfl, rfl⟩ := List.append_eq_nil_iff.mp none
      have same : part = first := by simpa using whole
      exact .inr ⟨[], by simpa using same, List.nil_prefix, read⟩
  · obtain ⟨rest, rfl⟩ := beyond
    have follows := (List.prefix_append_right_inj first).mp begins
    exact .inr ⟨rest, rfl, follows, by simpa using stable.ok returned rest⟩

/-- What ends too early ends too early when it is cut further. -/
theorem Stable.of_again {read : Reader α ε β} (stable : Stable again read)
    {part more : List α} (ends : read (part ++ more) = .error again) :
    read part = .error again := by
  cases outcome : read part with
  | error stop =>
      by_cases same : stop = again
      · rw [same]
      · rw [stable.error outcome same more] at ends
        cases ends
        exact absurd rfl same
  | ok result =>
      obtain ⟨value, rest⟩ := result
      rw [stable.ok outcome more] at ends
      cases ends

/-- What has arrived of printed items and a part of another one is some of the
items and a part of the next. -/
theorem Stable.cut {read : Reader α ε β} (stable : Stable again read)
    {print : γ → List α} {value : γ → β} {items : List γ}
    (printed : ∀ item ∈ items, read (print item) = .ok (value item, []))
    {part : List α} (ends : read part = .error again)
    {received rest : List α}
    (whole : received ++ rest = items.flatMap print ++ part) :
    ∃ done later left, items = done ++ later ∧
      received = done.flatMap print ++ left ∧ read left = .error again ∧
      left ++ rest = later.flatMap print ++ part := by
  induction items generalizing received with
  | nil =>
      have same : received ++ rest = part := whole
      rw [← same] at ends
      exact ⟨[], [], received, rfl, rfl, stable.of_again ends, whole⟩
  | cons item items induction =>
      obtain ⟨first, others⟩ := List.forall_mem_cons.mp printed
      rw [List.flatMap_cons, List.append_assoc] at whole
      have begins : received <+: print item ++ (items.flatMap print ++ part) :=
        ⟨rest, whole⟩
      rcases stable.of_sequence first begins with early | ⟨left, rfl, _, _⟩
      · refine ⟨[], item :: items, received, rfl, rfl, early, ?_⟩
        rw [whole, List.flatMap_cons, List.append_assoc]
      · rw [List.append_assoc] at whole
        obtain ⟨done, later, kept, rfl, rfl, early, within⟩ :=
          induction others (List.append_cancel_left whole)
        refine ⟨item :: done, later, kept, rfl, ?_, early, within⟩
        rw [List.flatMap_cons, List.append_assoc]

end Rules

section Loop

variable (again : ε) (body : σ → Reader α ε (σ ⊕ β))

/-- At most `fuel` rounds of a loop. -/
def loop : (fuel : Nat) → σ → Reader α ε β
  | 0, _ => throw again
  | fuel + 1, state => do
      match ← body state with
      | .inl next => loop fuel next
      | .inr value => return value

/-- A loop that takes something off its input in every round. -/
def iterate (state : σ) : Reader α ε β :=
  fun input => loop again body (input.length + 1) state input

variable {again body}

theorem stable_loop (stable : ∀ state, Stable again (body state))
    (fuel : Nat) (state : σ) : Stable again (loop again body fuel state) := by
  induction fuel generalizing state with
  | zero => exact stable_throw again
  | succ fuel induction =>
      refine stable_bind (stable state) ?_
      intro outcome
      cases outcome with
      | inl next => exact induction next
      | inr value => exact stable_pure value

/-- Once a loop has come to its end, more fuel changes nothing. -/
theorem loop_more {fuel : Nat} {state : σ} {input : List α}
    (ended : loop again body fuel state input ≠ .error again) (extra : Nat) :
    loop again body (fuel + extra) state input =
      loop again body fuel state input := by
  induction fuel generalizing state input with
  | zero => exact absurd rfl ended
  | succ fuel induction =>
      rw [Nat.add_right_comm]
      unfold loop at ended ⊢
      cases outcome : body state input with
      | error stop => rw [bind_of_error outcome, bind_of_error outcome]
      | ok read =>
          obtain ⟨value, rest⟩ := read
          rw [bind_of_ok outcome] at ended
          rw [bind_of_ok outcome, bind_of_ok outcome]
          cases value with
          | inl next => exact induction ended
          | inr value => rfl

theorem stable_iterate (stable : ∀ state, Stable again (body state))
    (state : σ) : Stable again (iterate again body state) := by
  -- A longer input comes with more fuel, which the loop does not need.
  have enough : ∀ input more : List α,
      loop again body (input.length + 1) state (input ++ more) ≠ .error again →
      iterate again body state (input ++ more) =
        loop again body (input.length + 1) state (input ++ more) := by
    intro input more ended
    have fuel : (input ++ more).length + 1 =
        input.length + 1 + more.length := by
      simp only [List.length_append]
      omega
    unfold iterate
    rw [fuel]
    exact loop_more ended more.length
  have rounds := stable_loop stable
  constructor
  · intro input value rest returned more
    have longer := (rounds (input.length + 1) state).ok returned more
    rw [enough input more (by simp [longer]), longer]
  · intro input stop stopped different more
    have longer :=
      (rounds (input.length + 1) state).error stopped different more
    rw [enough input more (by simpa [longer] using different), longer]

theorem takes_iterate (takes : ∀ state, Takes 0 (body state)) (state : σ) :
    Takes 0 (iterate again body state) := by
  have rounds : ∀ fuel state, Takes 0 (loop again body fuel state) := by
    intro fuel
    induction fuel with
    | zero => exact fun _ => takes_throw 0 again
    | succ fuel induction =>
        intro state
        refine takes_later (takes state) ?_
        intro outcome
        cases outcome with
        | inl next => exact induction next
        | inr value => exact takes_pure value
  intro input value rest returned
  exact rounds _ state _ _ _ returned

/-- One unit of fuel for each value of the input is enough. -/
theorem loop_enough
    (advances : ∀ {state input next rest},
      body state input = .ok (.inl next, rest) → rest.length < input.length)
    {first second : Nat} {state : σ} {input : List α}
    (firstEnough : input.length < first)
    (secondEnough : input.length < second) :
    loop again body first state input = loop again body second state input := by
  induction first generalizing second state input with
  | zero => omega
  | succ first induction =>
      obtain ⟨second, rfl⟩ : ∃ fuel, second = fuel + 1 :=
        ⟨second - 1, by omega⟩
      unfold loop
      cases outcome : body state input with
      | error stop => rw [bind_of_error outcome, bind_of_error outcome]
      | ok read =>
          obtain ⟨value, rest⟩ := read
          rw [bind_of_ok outcome, bind_of_ok outcome]
          cases value with
          | inr value => rfl
          | inl next =>
              have less := advances outcome
              exact induction (by omega) (by omega)

/-- The bounded loop is the loop it stands for. -/
theorem iterate_eq
    (advances : ∀ {state input next rest},
      body state input = .ok (.inl next, rest) → rest.length < input.length)
    (state : σ) :
    iterate again body state =
      body state >>= Sum.elim (iterate again body) pure := by
  funext input
  change loop again body (input.length + 1) state input = _
  unfold loop
  cases outcome : body state input with
  | error stop => rw [bind_of_error outcome, bind_of_error outcome]
  | ok read =>
      obtain ⟨value, rest⟩ := read
      rw [bind_of_ok outcome, bind_of_ok outcome]
      cases value with
      | inr value => rfl
      | inl next => exact loop_enough advances (advances outcome) (by omega)

/-- Where the rounds of a loop lead. -/
inductive Reaches (body : σ → Reader α ε (σ ⊕ β)) (state : σ)
    (input : List α) : σ → List α → Prop where
  | start : Reaches body state input state input
  | round {between next : σ} {left rest : List α}
      (reached : Reaches body state input between left)
      (returned : body between left = .ok (.inl next, rest)) :
      Reaches body state input next rest

/-- A loop goes on from wherever its rounds lead. -/
theorem Reaches.iterate_eq
    (advances : ∀ {state input next rest},
      body state input = .ok (.inl next, rest) → rest.length < input.length)
    {state next : σ} {input rest : List α}
    (reached : Reaches body state input next rest) :
    iterate again body state input = iterate again body next rest := by
  induction reached with
  | start => rfl
  | @round between next left rest _ returned induction =>
      have onward : iterate again body between left =
          iterate again body next rest := by
        rw [Incremental.iterate_eq advances, bind_of_ok returned]
        rfl
      exact induction.trans onward

/-- Rounds can be put together. -/
theorem Reaches.trans {first second third : σ} {input left rest : List α}
    (former : Reaches body first input second left)
    (latter : Reaches body second left third rest) :
    Reaches body first input third rest := by
  induction latter with
  | start => exact former
  | round _ returned induction => exact induction.round returned

/-- A loop comes to a round that is its last one. -/
theorem exists_last
    (advances : ∀ {state input next rest},
      body state input = .ok (.inl next, rest) → rest.length < input.length)
    (state : σ) (input : List α) :
    ∃ last left, Reaches body state input last left ∧
      ∀ next rest, body last left ≠ .ok (.inl next, rest) := by
  induction size : input.length using Nat.strongRecOn
    generalizing state input with
  | ind size induction =>
      by_cases goesOn : ∃ next rest, body state input = .ok (.inl next, rest)
      · obtain ⟨next, rest, returned⟩ := goesOn
        have less := advances returned
        obtain ⟨last, left, reached, ends⟩ :=
          induction rest.length (by omega) next rest rfl
        exact ⟨last, left, (Reaches.start.round returned).trans reached, ends⟩
      · refine ⟨state, input, .start, ?_⟩
        intro next rest returned
        exact goesOn ⟨next, rest, returned⟩

/-- A loop returns what its last round returns. -/
theorem Reaches.iterate_of_ok
    (advances : ∀ {state input next rest},
      body state input = .ok (.inl next, rest) → rest.length < input.length)
    {state last : σ} {input left rest : List α} {value : β}
    (reached : Reaches body state input last left)
    (returned : body last left = .ok (.inr value, rest)) :
    iterate again body state input = .ok (value, rest) := by
  rw [reached.iterate_eq advances, Incremental.iterate_eq advances]
  exact bind_of_ok returned

/-- A loop stops where its last round stops. -/
theorem Reaches.iterate_of_error
    (advances : ∀ {state input next rest},
      body state input = .ok (.inl next, rest) → rest.length < input.length)
    {state last : σ} {input left : List α} {stop : ε}
    (reached : Reaches body state input last left)
    (stopped : body last left = .error stop) :
    iterate again body state input = .error stop := by
  rw [reached.iterate_eq advances, Incremental.iterate_eq advances]
  exact bind_of_error stopped

theorem iterate_eq_ok
    (advances : ∀ {state input next rest},
      body state input = .ok (.inl next, rest) → rest.length < input.length)
    {state : σ} {input rest : List α} {value : β} :
    iterate again body state input = .ok (value, rest) ↔
      ∃ last left, Reaches body state input last left ∧
        body last left = .ok (.inr value, rest) := by
  constructor
  · intro returned
    obtain ⟨last, left, reached, ends⟩ := exists_last advances state input
    refine ⟨last, left, reached, ?_⟩
    cases outcome : body last left with
    | error stop =>
        rw [reached.iterate_of_error advances outcome] at returned
        cases returned
    | ok result =>
        obtain ⟨next | value, later⟩ := result
        · exact absurd outcome (ends next later)
        · rw [reached.iterate_of_ok advances outcome] at returned
          cases returned
          rfl
  · intro ⟨last, left, reached, returned⟩
    exact reached.iterate_of_ok advances returned

theorem iterate_eq_error
    (advances : ∀ {state input next rest},
      body state input = .ok (.inl next, rest) → rest.length < input.length)
    {state : σ} {input : List α} {stop : ε} :
    iterate again body state input = .error stop ↔
      ∃ last left, Reaches body state input last left ∧
        body last left = .error stop := by
  constructor
  · intro stopped
    obtain ⟨last, left, reached, ends⟩ := exists_last advances state input
    refine ⟨last, left, reached, ?_⟩
    cases outcome : body last left with
    | error earlier =>
        rw [reached.iterate_of_error advances outcome] at stopped
        cases stopped
        rfl
    | ok result =>
        obtain ⟨next | value, later⟩ := result
        · exact absurd outcome (ends next later)
        · rw [reached.iterate_of_ok advances outcome] at stopped
          cases stopped
  · intro ⟨last, left, reached, stopped⟩
    exact reached.iterate_of_error advances stopped

/-- In a loop that returns every round has returned. -/
theorem Reaches.returns
    (advances : ∀ {state input next rest},
      body state input = .ok (.inl next, rest) → rest.length < input.length)
    {state between : σ} {input left rest : List α} {value : β}
    (reached : Reaches body state input between left)
    (returned : iterate again body state input = .ok (value, rest)) :
    ∃ outcome later, body between left = .ok (outcome, later) := by
  rw [reached.iterate_eq advances, Incremental.iterate_eq advances, bind_eq_ok]
    at returned
  obtain ⟨outcome, later, round, -⟩ := returned
  exact ⟨outcome, later, round⟩

/-- A loop that reads items up to where it ends. -/
theorem iterate_eq_items {ι : Type} {round : σ → Reader α ε (σ ⊕ σ)}
    (valid : ι → Prop) (text : ι → List α) (learn : σ → ι → σ)
    (final : List α → Prop)
    (advances : ∀ {state input next rest},
      round state input = .ok (.inl next, rest) → rest.length < input.length)
    (item : ∀ {state input next rest},
      round state input = .ok (.inl next, rest) ↔
        ∃ item, valid item ∧ input = text item ++ rest ∧
          next = learn state item)
    (ends : ∀ {state input result rest},
      round state input = .ok (.inr result, rest) ↔
        result = state ∧ rest = input ∧ final input)
    {state result : σ} {input rest : List α} :
    iterate again round state input = .ok (result, rest) ↔
      ∃ items : List ι, (∀ item ∈ items, valid item) ∧
        input = items.flatMap text ++ rest ∧ final rest ∧
        result = items.foldl learn state := by
  constructor
  · intro returned
    induction size : input.length using Nat.strongRecOn
      generalizing state input with
    | ind size induction =>
        rw [iterate_eq advances, bind_eq_ok] at returned
        obtain ⟨step, between, read, returned⟩ := returned
        cases step with
        | inr ended =>
            obtain ⟨rfl, rfl, here⟩ := ends.mp read
            obtain ⟨rfl, rfl⟩ := pure_eq_ok.mp returned
            exact ⟨[], by simp, rfl, here, rfl⟩
        | inl next =>
            have less := advances read
            obtain ⟨first, ok, rfl, rfl⟩ := item.mp read
            obtain ⟨items, okItems, rfl, here, rfl⟩ :=
              induction between.length (by omega) returned rfl
            refine ⟨first :: items, ?_, ?_, here, rfl⟩
            · exact List.forall_mem_cons.mpr ⟨ok, okItems⟩
            · rw [List.flatMap_cons, List.append_assoc]
  · rintro ⟨items, ok, rfl, here, rfl⟩
    induction items generalizing state with
    | nil =>
        rw [iterate_eq advances, bind_eq_ok]
        exact ⟨.inr state, rest, ends.mpr ⟨rfl, rfl, here⟩,
          pure_eq_ok.mpr ⟨rfl, rfl⟩⟩
    | cons first items induction =>
        rw [iterate_eq advances, bind_eq_ok]
        obtain ⟨okFirst, later⟩ := List.forall_mem_cons.mp ok
        refine ⟨.inl (learn state first), items.flatMap text ++ rest, ?_,
          induction later⟩
        exact item.mpr ⟨first, okFirst, by
          rw [List.flatMap_cons, List.append_assoc], rfl⟩

end Loop

section Consumer

/-- What a consumer makes of its input: nothing yet, or an item and what is
left, or the last item it will ever read. -/
inductive Verdict (σ α : Type) where
  | again
  | next (state : σ) (rest : List α)
  | halt (state : σ)

structure Consumer (σ α : Type) where
  step : σ → List α → Verdict σ α
  empty : ∀ state, step state [] = .again
  next : ∀ {state input after rest}, step state input = .next after rest →
    ∀ more, step state (input ++ more) = .next after (rest ++ more)
  halt : ∀ {state input after}, step state input = .halt after →
    ∀ more, step state (input ++ more) = .halt after
  shorter : ∀ {state input after rest}, step state input = .next after rest →
    rest.length < input.length

/-- Where a consumer has come to. -/
inductive Position (σ α : Type) where
  | waiting (state : σ) (rest : List α)
  | halted (state : σ)

def Position.state : Position σ α → σ
  | .waiting state _ => state
  | .halted state => state

namespace Consumer

variable (consumer : Consumer σ α)

/-- All items of the input. -/
def drain (state : σ) (input : List α) : Position σ α :=
  match _read : consumer.step state input with
  | .again => .waiting state input
  | .next after rest => drain after rest
  | .halt after => .halted after
termination_by input.length
decreasing_by exact consumer.shorter _read

def feed : Position σ α → List α → Position σ α
  | .waiting state rest, piece => consumer.drain state (rest ++ piece)
  | .halted state, _ => .halted state

/-- Nothing more can be read from what is left. -/
def Idle : Position σ α → Prop
  | .waiting state rest => consumer.step state rest = .again
  | .halted _ => True

variable {consumer}

theorem drain_of_again {state : σ} {input : List α}
    (read : consumer.step state input = .again) :
    consumer.drain state input = .waiting state input := by
  rw [drain]
  split <;> simp_all

theorem drain_of_next {state after : σ} {input rest : List α}
    (read : consumer.step state input = .next after rest) :
    consumer.drain state input = consumer.drain after rest := by
  rw [drain]
  split <;> simp_all

theorem drain_of_halt {state after : σ} {input : List α}
    (read : consumer.step state input = .halt after) :
    consumer.drain state input = .halted after := by
  rw [drain]
  split <;> simp_all

theorem idle_drain (state : σ) (input : List α) :
    consumer.Idle (consumer.drain state input) := by
  fun_induction drain consumer state input with
  | case1 state input read => exact read
  | case2 state input after rest read induction => exact induction
  | case3 state input after read => trivial

/-- What every item keeps is kept to the end of the input. -/
theorem invariant_drain {property : σ → Prop}
    (next : ∀ {state input after rest},
      consumer.step state input = .next after rest →
        property state → property after)
    (halt : ∀ {state input after}, consumer.step state input = .halt after →
      property state → property after)
    {state : σ} (input : List α) (holds : property state) :
    property (consumer.drain state input).state := by
  fun_induction drain consumer state input with
  | case1 state input read => exact holds
  | case2 state input after rest read induction =>
      exact induction (next read holds)
  | case3 state input after read => exact halt read holds

/-- What every item keeps holds of a consumer that waits, and what the last
item makes of it holds of one that has stopped. -/
theorem outcome_drain {running ended : σ → Prop}
    (next : ∀ {state input after rest},
      consumer.step state input = .next after rest →
        running state → running after)
    (halt : ∀ {state input after}, consumer.step state input = .halt after →
      running state → ended after)
    {state : σ} (input : List α) (holds : running state) :
    match consumer.drain state input with
    | .waiting after _ => running after
    | .halted after => ended after := by
  fun_induction drain consumer state input with
  | case1 state input read => exact holds
  | case2 state input after rest read induction =>
      exact induction (next read holds)
  | case3 state input after read => exact halt read holds

/-- What comes later can wait until everything before it is read. -/
theorem drain_append (state : σ) (input more : List α) :
    consumer.drain state (input ++ more) =
      consumer.feed (consumer.drain state input) more := by
  fun_induction drain consumer state input with
  | case1 state input read => rfl
  | case2 state input after rest read induction =>
      rw [drain_of_next (consumer.next read more)]
      exact induction
  | case3 state input after read => exact drain_of_halt (consumer.halt read more)

theorem idle_feed {position : Position σ α} (piece : List α)
    (idle : consumer.Idle position) : consumer.Idle (consumer.feed position piece) := by
  cases position with
  | waiting state rest => exact idle_drain state (rest ++ piece)
  | halted state => exact idle

theorem feed_append (position : Position σ α) (first second : List α) :
    consumer.feed (consumer.feed position first) second =
      consumer.feed position (first ++ second) := by
  cases position with
  | waiting state rest =>
      change consumer.feed (consumer.drain state (rest ++ first)) second = _
      rw [← drain_append, List.append_assoc]
      rfl
  | halted state => rfl

theorem feed_nil {position : Position σ α} (idle : consumer.Idle position) :
    consumer.feed position [] = position := by
  cases position with
  | waiting state rest =>
      change consumer.drain state (rest ++ []) = _
      rw [List.append_nil]
      exact drain_of_again idle
  | halted state => rfl

/-- It does not matter how the input is cut. -/
theorem feed_pieces {position : Position σ α} (idle : consumer.Idle position)
    (pieces : List (List α)) :
    pieces.foldl consumer.feed position =
      consumer.feed position pieces.flatten := by
  induction pieces generalizing position with
  | nil => exact (feed_nil idle).symm
  | cons piece rest induction =>
      rw [List.foldl_cons, induction (idle_feed piece idle), feed_append,
        List.flatten_cons]

end Consumer

end Consumer

end Incremental
