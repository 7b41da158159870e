import Mathlib.Logic.Relation
import Mathlib.Order.Defs.Unbundled

/-!
# Computations that change their state step by step

A computation of `EStateM` is followed by a step relation on its states.
`Runs` says that every change it makes, up to the state in which it returns
or stops, is a finite sequence of such steps, and that a normal return meets
a postcondition.  The rules follow the structure of the computation, so that
a step invariant becomes an invariant of everything that is built from the
same steps.

`Script` is arbitrary code over given operations: quantifying over scripts is
quantifying over every caller of the operations.
-/

namespace Stepwise

variable {ε σ α β : Type}

/-- The state in which a computation came to its end, normal or not. -/
def final : EStateM.Result ε σ α → σ
  | .ok _ state => state
  | .error _ state => state

/-- Whether the computation returned. -/
def isOk : EStateM.Result ε σ α → Bool
  | .ok _ _ => true
  | .error _ _ => false

/-- The value that was returned. -/
def valueOf : EStateM.Result ε σ α → Option α
  | .ok value _ => some value
  | .error _ _ => none

theorem eq_ok_of_valueOf {result : EStateM.Result ε σ α} {value : α}
    (returned : valueOf result = some value) :
    result = .ok value (final result) := by
  cases result with
  | ok _ _ =>
      cases returned
      rfl
  | error _ _ => cases returned

theorem eq_ok_final {result : EStateM.Result ε σ Unit}
    (returned : isOk result = true) : result = .ok () (final result) := by
  cases result with
  | ok _ _ => rfl
  | error _ _ => cases returned

theorem bind_of_ok {first : EStateM ε σ α} {rest : α → EStateM ε σ β}
    {state later : σ} {value : α} (returned : first state = .ok value later) :
    (first >>= rest) state = rest value later := by
  change (match first state with
    | .ok value between => rest value between
    | .error stop between => .error stop between) = _
  rw [returned]

theorem bind_of_error {first : EStateM ε σ α} {rest : α → EStateM ε σ β}
    {state later : σ} {stop : ε} (stopped : first state = .error stop later) :
    (first >>= rest) state = .error stop later := by
  change (match first state with
    | .ok value between => rest value between
    | .error stop between => .error stop between) = _
  rw [stopped]

theorem discard_of_ok {computation : EStateM ε σ α} {state later : σ}
    {value : α} (returned : computation state = .ok value later) :
    (discard computation : EStateM ε σ PUnit) state = .ok ⟨⟩ later := by
  simp only [discard, Functor.mapConst, Function.comp_apply]
  unfold EStateM.map
  rw [returned]

theorem tryCatch_of_ok {computation : EStateM ε σ α}
    {handle : ε → EStateM ε σ α} {state later : σ} {value : α}
    (returned : computation state = .ok value later) :
    (tryCatch computation handle) state = .ok value later := by
  change EStateM.tryCatch computation handle state = _
  unfold EStateM.tryCatch
  rw [returned]

theorem tryCatch_of_error {computation : EStateM ε σ α}
    {handle : ε → EStateM ε σ α} {state later : σ} {stop : ε}
    (stopped : computation state = .error stop later) :
    (tryCatch computation handle) state = handle stop later := by
  change EStateM.tryCatch computation handle state = _
  unfold EStateM.tryCatch
  rw [stopped]
  rfl

/-- A sequence that returns has returned from its first half. -/
theorem ok_of_bind_ok {first : EStateM ε σ α} {rest : α → EStateM ε σ β}
    {state after : σ} {result : β}
    (returned : (first >>= rest) state = .ok result after) :
    ∃ value between, first state = .ok value between ∧
      rest value between = .ok result after := by
  cases outcome : first state with
  | ok value between =>
      rw [bind_of_ok outcome] at returned
      exact ⟨value, between, rfl, returned⟩
  | error stop between =>
      rw [bind_of_error outcome] at returned
      cases returned

theorem get_bind (rest : σ → EStateM ε σ β) (state : σ) :
    (get >>= rest) state = rest state state := rfl

theorem modify_bind (change : σ → σ) (rest : PUnit → EStateM ε σ β) (state : σ) :
    (modify change >>= rest) state = rest ⟨⟩ (change state) := rfl

theorem modifyGet_eq (change : σ → α × σ) (state : σ) :
    (modifyGet change : EStateM ε σ α) state =
      .ok (change state).1 (change state).2 := rfl

theorem modifyGet_bind (change : σ → α × σ) (rest : α → EStateM ε σ β)
    (state : σ) :
    (modifyGet change >>= rest) state =
      rest (change state).1 (change state).2 := rfl

/-- What every step preserves, every finite sequence of steps preserves. -/
theorem invariant_of_steps {step : σ → σ → Prop} {invariant : σ → Prop}
    (preserved : ∀ before after, invariant before → step before after →
      invariant after)
    {before after : σ} (steps : Relation.ReflTransGen step before after)
    (holds : invariant before) : invariant after := by
  induction steps with
  | refl => exact holds
  | tail _ last induction => exact preserved _ _ induction last

/-- From `state` the computation moves by steps, and it returns only with
results and states that satisfy `post`. -/
structure Runs (step : σ → σ → Prop) (computation : EStateM ε σ α)
    (state : σ) (post : α → σ → Prop) : Prop where
  steps : Relation.ReflTransGen step state (final (computation state))
  returns : ∀ {result after},
    computation state = .ok result after → post result after

variable {step : σ → σ → Prop} {state : σ}

theorem Runs.weaken {computation : EStateM ε σ α} {post weaker : α → σ → Prop}
    (runs : Runs step computation state post)
    (implies : ∀ result after, Relation.ReflTransGen step state after →
      post result after → weaker result after) :
    Runs step computation state weaker := by
  refine ⟨runs.steps, ?_⟩
  intro result after returned
  have steps := runs.steps
  rw [returned] at steps
  exact implies result after steps (runs.returns returned)

theorem runs_pure {value : α} {post : α → σ → Prop} (holds : post value state) :
    Runs step (pure value : EStateM ε σ α) state post := by
  refine ⟨.refl, ?_⟩
  intro result after returned
  cases returned
  exact holds

theorem runs_throw {stop : ε} {post : α → σ → Prop} :
    Runs step (throw stop : EStateM ε σ α) state post := by
  refine ⟨.refl, ?_⟩
  intro result after returned
  cases returned

/-- The second half of a sequence starts where the first half returned. -/
theorem runs_bind {first : EStateM ε σ α} {rest : α → EStateM ε σ β}
    {middle : α → σ → Prop} {post : β → σ → Prop}
    (firstRuns : Runs step first state middle)
    (restRuns : ∀ value between, Relation.ReflTransGen step state between →
      middle value between → Runs step (rest value) between post) :
    Runs step (first >>= rest) state post := by
  have unfolded : (first >>= rest) state =
      match first state with
      | .ok value between => rest value between
      | .error stop between => .error stop between := rfl
  have steps := firstRuns.steps
  cases outcome : first state with
  | ok value between =>
      rw [outcome] at steps unfolded
      have following := restRuns value between steps (firstRuns.returns outcome)
      refine ⟨?_, ?_⟩
      · rw [unfolded]
        exact steps.trans following.steps
      · intro result after returned
        rw [unfolded] at returned
        exact following.returns returned
  | error stop between =>
      rw [outcome] at steps unfolded
      refine ⟨?_, ?_⟩
      · rw [unfolded]
        exact steps
      · intro result after returned
        rw [unfolded] at returned
        cases returned

/-- What is caught goes on from where it stopped. -/
theorem runs_catch {computation : EStateM ε σ α} {handle : ε → EStateM ε σ α}
    {post : α → σ → Prop} (tried : Runs step computation state post)
    (handled : ∀ stop between, Relation.ReflTransGen step state between →
      Runs step (handle stop) between post) :
    Runs step (tryCatch computation handle) state post := by
  have steps := tried.steps
  cases outcome : computation state with
  | ok value between =>
      have caught : tryCatch computation handle state = .ok value between :=
        tryCatch_of_ok outcome
      rw [outcome] at steps
      refine ⟨?_, ?_⟩
      · rw [caught]
        exact steps
      · intro result after returned
        rw [caught] at returned
        cases returned
        exact tried.returns outcome
  | error stop between =>
      have caught : tryCatch computation handle state = handle stop between :=
        tryCatch_of_error outcome
      rw [outcome] at steps
      have following := handled stop between steps
      refine ⟨?_, ?_⟩
      · rw [caught]
        exact steps.trans following.steps
      · intro result after returned
        rw [caught] at returned
        exact following.returns returned

theorem runs_get_bind {rest : σ → EStateM ε σ β} {post : β → σ → Prop}
    (restRuns : Runs step (rest state) state post) :
    Runs step (get >>= rest) state post :=
  ⟨restRuns.steps, restRuns.returns⟩

theorem runs_modify {change : σ → σ} {post : PUnit → σ → Prop}
    (steps : Relation.ReflTransGen step state (change state))
    (holds : post ⟨⟩ (change state)) :
    Runs step (modify change : EStateM ε σ PUnit) state post := by
  refine ⟨steps, ?_⟩
  intro result after returned
  cases returned
  exact holds

theorem runs_modify_bind {change : σ → σ} {rest : PUnit → EStateM ε σ β}
    {post : β → σ → Prop}
    (steps : Relation.ReflTransGen step state (change state))
    (restRuns : Runs step (rest ⟨⟩) (change state) post) :
    Runs step (modify change >>= rest) state post :=
  ⟨steps.trans restRuns.steps, restRuns.returns⟩

theorem runs_modifyGet {change : σ → α × σ} {post : α → σ → Prop}
    (steps : Relation.ReflTransGen step state (change state).2)
    (holds : post (change state).1 (change state).2) :
    Runs step (modifyGet change : EStateM ε σ α) state post := by
  refine ⟨steps, ?_⟩
  intro result after returned
  cases returned
  exact holds

theorem runs_modifyGet_bind {change : σ → α × σ} {rest : α → EStateM ε σ β}
    {post : β → σ → Prop}
    (steps : Relation.ReflTransGen step state (change state).2)
    (restRuns : Runs step (rest (change state).1) (change state).2 post) :
    Runs step (modifyGet change >>= rest) state post :=
  ⟨steps.trans restRuns.steps, restRuns.returns⟩

/-- A computation that comes down to another one in a later state. -/
theorem runs_of_eq {computation : EStateM ε σ α} (rest : EStateM ε σ α)
    {later : σ} {post : α → σ → Prop} (steps : Relation.ReflTransGen step state later)
    (same : computation state = rest later)
    (restRuns : Runs step rest later post) :
    Runs step computation state post := by
  refine ⟨?_, ?_⟩
  · rw [same]
    exact steps.trans restRuns.steps
  · rw [same]
    exact restRuns.returns

/-- From `state` the computation returns only with results and states that
satisfy `post`. -/
structure Returns (computation : EStateM ε σ α) (state : σ)
    (post : α → σ → Prop) : Prop where
  holds : ∀ result after,
    computation state = .ok result after → post result after

section Returns

variable {computation : EStateM ε σ α} {post : α → σ → Prop}

theorem returns_pure {value : α} (holds : post value state) :
    Returns (pure value : EStateM ε σ α) state post := by
  constructor
  intro result after returned
  cases returned
  exact holds

theorem returns_throw {stop : ε} :
    Returns (throw stop : EStateM ε σ α) state post := by
  constructor
  intro result after returned
  cases returned

theorem returns_throw_bind {stop : ε} {rest : β → EStateM ε σ α} :
    Returns (throw stop >>= rest) state post := by
  constructor
  intro result after returned
  cases returned

theorem Returns.weaken {weaker : α → σ → Prop}
    (returns : Returns computation state post)
    (implies : ∀ result after, post result after → weaker result after) :
    Returns computation state weaker := by
  constructor
  intro result after returned
  exact implies result after (returns.holds result after returned)

theorem returns_bind {rest : α → EStateM ε σ β} {middle : α → σ → Prop}
    {post : β → σ → Prop} (first : Returns computation state middle)
    (later : ∀ value between, middle value between →
      Returns (rest value) between post) :
    Returns (computation >>= rest) state post := by
  constructor
  intro result after returned
  cases outcome : computation state with
  | ok value between =>
      rw [bind_of_ok outcome] at returned
      exact (later value between (first.holds value between outcome)).holds
        result after returned
  | error stop between =>
      rw [bind_of_error outcome] at returned
      cases returned

theorem returns_get_bind {rest : σ → EStateM ε σ α}
    (later : Returns (rest state) state post) :
    Returns (get >>= rest) state post := ⟨later.holds⟩

theorem returns_modify_bind {change : σ → σ} {rest : PUnit → EStateM ε σ α}
    (later : Returns (rest ⟨⟩) (change state) post) :
    Returns (modify change >>= rest) state post := ⟨later.holds⟩

theorem returns_modifyGet_bind {change : σ → β × σ} {rest : β → EStateM ε σ α}
    (later : Returns (rest (change state).1) (change state).2 post) :
    Returns (modifyGet change >>= rest) state post := ⟨later.holds⟩

theorem returns_modify {change : σ → σ} {post : PUnit → σ → Prop}
    (holds : post ⟨⟩ (change state)) :
    Returns (modify change : EStateM ε σ PUnit) state post := by
  constructor
  intro result after returned
  cases returned
  exact holds

theorem returns_modifyGet {change : σ → α × σ}
    (holds : post (change state).1 (change state).2) :
    Returns (modifyGet change : EStateM ε σ α) state post := by
  constructor
  intro result after returned
  cases returned
  exact holds

end Returns

/-- Wherever it starts, the computation returns only in states that `relation`
leads to from there. -/
structure Within (relation : σ → σ → Prop) (computation : EStateM ε σ α) :
    Prop where
  returns : ∀ state,
    Returns computation state fun _ after => relation state after

section Within

variable {relation : σ → σ → Prop}

theorem within_throw (stop : ε) :
    Within relation (throw stop : EStateM ε σ α) := ⟨fun _ => returns_throw⟩

theorem within_get_bind {rest : σ → EStateM ε σ α}
    (later : ∀ seen, Within relation (rest seen)) :
    Within relation (get >>= rest) :=
  ⟨fun state => returns_get_bind ((later state).returns state)⟩

theorem within_modify {change : σ → σ}
    (changes : ∀ state, relation state (change state)) :
    Within relation (modify change : EStateM ε σ PUnit) :=
  ⟨fun state => returns_modify (changes state)⟩

theorem within_modifyGet {change : σ → α × σ}
    (changes : ∀ state, relation state (change state).2) :
    Within relation (modifyGet change : EStateM ε σ α) :=
  ⟨fun state => returns_modifyGet (changes state)⟩

theorem Within.weaken {computation : EStateM ε σ α} {weaker : σ → σ → Prop}
    (within : Within relation computation)
    (implies : ∀ {state after}, relation state after → weaker state after) :
    Within weaker computation := by
  constructor
  intro state
  apply (within.returns state).weaken
  exact fun _ _ => implies

variable [IsPreorder σ relation]

theorem within_pure (value : α) :
    Within relation (pure value : EStateM ε σ α) :=
  ⟨fun state => returns_pure (refl_of relation state)⟩

theorem within_bind {first : EStateM ε σ α} {rest : α → EStateM ε σ β}
    (firstWithin : Within relation first)
    (later : ∀ value, Within relation (rest value)) :
    Within relation (first >>= rest) := by
  constructor
  intro state
  apply returns_bind (firstWithin.returns state)
  intro value between reached
  apply ((later value).returns between).weaken
  intro _ after restReached
  exact trans_of relation reached restReached

end Within

/-- Code in which every operation may depend on the result of the one before
and on the state.  It may stop anywhere, so that every state between two
operations is the last state of some script. -/
inductive Script (ο ρ σ : Type) where
  | done
  | exit
  | step (op : ο) (next : ρ → σ → Script ο ρ σ)

namespace Script

variable {ο ρ : Type}

def run (stop : ε) (perform : ο → EStateM ε σ ρ) :
    Script ο ρ σ → EStateM ε σ Unit
  | .done => pure ()
  | .exit => throw stop
  | .step op next => do
      let result ← perform op
      let state ← get
      run stop perform (next result state)

/-- A straight sequence of operations. -/
def sequence : List ο → Script ο ρ σ
  | [] => .done
  | op :: rest => .step op fun _ _ => sequence rest

/-- A property of every operation a script can get to. -/
def Forall (property : ο → Prop) : Script ο ρ σ → Prop
  | .done => True
  | .exit => True
  | .step op next =>
      property op ∧ ∀ result state, (next result state).Forall property

theorem forall_of_all {property : ο → Prop} (holds : ∀ op, property op)
    (script : Script ο ρ σ) : script.Forall property := by
  induction script with
  | done => trivial
  | exit => trivial
  | step op next induction => exact ⟨holds op, induction⟩

theorem Forall.weaken {property other : ο → Prop} {script : Script ο ρ σ}
    (holds : script.Forall property)
    (implies : ∀ op, property op → other op) : script.Forall other := by
  induction script with
  | done => trivial
  | exit => trivial
  | step op next induction =>
      exact ⟨implies op holds.1,
        fun result state => induction result state (holds.2 result state)⟩

theorem forall_sequence {property : ο → Prop} {ops : List ο}
    (holds : ∀ op ∈ ops, property op) :
    (sequence ops : Script ο ρ σ).Forall property := by
  induction ops with
  | nil => trivial
  | cons op rest induction =>
      refine ⟨holds op List.mem_cons_self, fun _ _ => induction ?_⟩
      intro later member
      exact holds later (List.mem_cons_of_mem op member)

/-- What every operation needs and restores, a script restores. -/
theorem runs {stop : ε} {perform : ο → EStateM ε σ ρ} {allowed : ο → Prop}
    (holds : σ → Prop)
    (each : ∀ op state, allowed op → holds state →
      Runs step (perform op) state (fun _ after => holds after))
    (script : Script ο ρ σ) (all : script.Forall allowed)
    (start : holds state) :
    Runs step (script.run stop perform) state (fun _ after => holds after) := by
  induction script generalizing state with
  | done => exact runs_pure start
  | exit => exact runs_throw
  | step op next induction =>
      refine runs_bind (each op state all.1 start) ?_
      intro result between _ restored
      exact runs_get_bind (induction result between (all.2 result between)
        restored)

/-- Where every operation stays within a relation, so does every script. -/
theorem within {stop : ε} {perform : ο → EStateM ε σ ρ}
    {relation : σ → σ → Prop} [IsPreorder σ relation]
    (each : ∀ op, Within relation (perform op)) (script : Script ο ρ σ) :
    Within relation (script.run stop perform) := by
  induction script with
  | done => exact within_pure ()
  | exit => exact within_throw stop
  | step op next induction =>
      apply within_bind (each op)
      intro result
      apply within_get_bind
      intro state
      exact induction result state

end Script

end Stepwise
