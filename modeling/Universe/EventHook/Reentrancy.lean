import Universe.EventHook

/-!
# Fires inside fires

The calls made so far say which callbacks the hook has to hold: those that
are attached and not detached, and while a `fire` is running also those that
were detached since.  `Agrees` is this statement together with what the hook
keeps for it in `_cancel_id`.

All fires share `_firing` and `_cancel_id`, so that a `fire` that returns to
the callback of another one erases what the other one still needs, and leaves
the next `detach` to erase at once.  `Spares` excludes both.
-/

namespace Universe.EventHook

open Std (ExtTreeMap)

variable {CB : Type}

/-- What the calls of `attach` and `detach` leave. -/
structure Ledger (CB : Type) where
  /-- Attached and not detached. -/
  registered : Set (UInt64 × CB)
  /-- Detached since the outermost running `fire` began. -/
  leaving : Set (UInt64 × CB)

namespace Ledger

/-- A call of the program in the state `program`, which it leaves in the
state `after`. -/
def record (ledger : Ledger CB) (program after : Program CB) :
    Call CB → Ledger CB
  | .attach cb =>
      { ledger with
        registered := insert (program.hook.id, cb) ledger.registered }
  | .detach id =>
      { registered := {entry ∈ ledger.registered | entry.1 ≠ id}
        leaving :=
          if after.iterators.isEmpty then ∅
          else ledger.leaving ∪ {entry ∈ ledger.registered | entry.1 = id} }
  | _ =>
      { ledger with
        leaving := if after.iterators.isEmpty then ∅ else ledger.leaving }

end Ledger

namespace Program

/-- The number the next callback gets is not in use: no callback has it, and
no `detach` of a running `fire` has named it. -/
def Unused (program : Program CB) : Call CB → Prop
  | .attach _ =>
      program.hook.id ∉ program.hook.callbacks ∧
        program.hook.id ∉ program.hook.cancelId
  | _ => True

/-- A `fire` that returns to the callback of another one has no callback to
erase, and after its return the callback detaches none. -/
def Spares (program : Program CB) : Call CB → Prop
  | .attach _ => True
  | .detach id =>
      program.iterators ≠ [] → program.hook.firing = false →
        id ∉ program.hook.callbacks
  | .fire => True
  | .done =>
      program.iterators.tail ≠ [] → program.invoked .done = none →
        ∀ id ∈ program.hook.cancelId, id ∉ program.hook.callbacks

/-- The calls that nesting does no harm to. -/
def Orderly (program : Program CB) (call : Call CB) : Prop :=
  program.Unused call ∧ program.Spares call

/-- Nothing is erased while a `fire` iterates over the callbacks. -/
def Keeps (program after : Program CB) : Prop :=
  after.iterators ≠ [] →
    ∀ id ∈ program.hook.callbacks, id ∈ after.hook.callbacks

end Program

/-- The states of a program that uses a new hook, with what its calls ask the
hook to hold. -/
inductive Reached (allowed : Program CB → Call CB → Prop) (first : UInt64) :
    Ledger CB → Program CB → Prop
  | created : Reached allowed first ⟨∅, ∅⟩ ⟨create first, []⟩
  | called {ledger : Ledger CB} {program after : Program CB} (call : Call CB) :
      Reached allowed first ledger program → allowed program call →
      program.step call = some after →
      Reached allowed first (ledger.record program after call) after

theorem getElem?_foldl_erase (callbacks : ExtTreeMap UInt64 CB)
    (ids : List UInt64) (id : UInt64) :
    (ids.foldl ExtTreeMap.erase callbacks)[id]? =
      if id ∈ ids then none else callbacks[id]? := by
  induction ids generalizing callbacks with
  | nil => simp
  | cons erased ids induction =>
      rw [List.foldl_cons, induction, ExtTreeMap.getElem?_erase]
      by_cases later : id ∈ ids
      · simp [later]
      · by_cases same : erased = id
        · simp [same]
        · have other : ¬ id = erased := fun equal => same equal.symm
          simp [later, same, other]

theorem mem_callbacks {callbacks : ExtTreeMap UInt64 CB} {id : UInt64} :
    id ∈ callbacks ↔ ∃ cb, callbacks[id]? = some cb := by
  rw [ExtTreeMap.mem_iff_isSome_getElem?, Option.isSome_iff_exists]

/-- The loop of `fire` calls only callbacks that are there. -/
theorem mem_of_front {hook : EventHook CB} {id : UInt64}
    (found : hook.front = some id) : id ∈ hook.callbacks :=
  ExtTreeMap.mem_keys.mp (List.mem_of_mem_head? found)

theorem mem_of_following {hook : EventHook CB} {current id : UInt64}
    (found : hook.following current = some id) : id ∈ hook.callbacks :=
  ExtTreeMap.mem_keys.mp (List.mem_of_find?_eq_some found)

theorem not_mem_of_front {hook : EventHook CB} (none : hook.front = none)
    (id : UInt64) : id ∉ hook.callbacks := by
  have empty : hook.callbacks.keys = [] := List.head?_eq_none_iff.mp none
  intro member
  have listed := ExtTreeMap.mem_keys.mpr member
  rw [empty] at listed
  cases listed

namespace Program

theorem mem_of_invoked {program : Program CB} {call : Call CB} {id : UInt64}
    (found : program.invoked call = some id) : id ∈ program.hook.callbacks := by
  cases call with
  | attach cb => cases found
  | detach gone => cases found
  | fire => exact mem_of_front found
  | done =>
      obtain ⟨current, _, next⟩ := Option.bind_eq_some_iff.mp found
      exact mem_of_following next

/-- Returning to the loop of `fire`. -/
theorem step_done {program after : Program CB}
    (stepped : program.step .done = some after) :
    ∃ id outer, program.iterators = id :: outer ∧ id ∈ program.hook.callbacks ∧
      after = advance program.hook outer (program.invoked .done) := by
  obtain ⟨hook, iterators⟩ := program
  cases iterators with
  | nil => cases stepped
  | cons id outer =>
      simp only [step] at stepped
      split at stepped
      · rename_i member
        exact ⟨id, outer, rfl, member, (Option.some.inj stepped).symm⟩
      · cases stepped

end Program

theorem mem_endFire {hook : EventHook CB} {id : UInt64} :
    id ∈ hook.endFire.callbacks ↔ id ∈ hook.callbacks ∧ id ∉ hook.cancelId := by
  have entry := getElem?_foldl_erase hook.callbacks hook.cancelId id
  rw [mem_callbacks, mem_callbacks]
  change (∃ cb, (hook.cancelId.foldl ExtTreeMap.erase hook.callbacks)[id]? =
    some cb) ↔ _
  rw [entry]
  by_cases named : id ∈ hook.cancelId
  · simp [named]
  · simp [named]

/-- `Spares` is exact. -/
theorem keeps_iff_spares {program after : Program CB} {call : Call CB}
    (stepped : program.step call = some after) :
    program.Keeps after ↔ program.Spares call := by
  cases call with
  | attach cb =>
      have same := Option.some.inj stepped
      subst same
      refine ⟨fun _ => trivial, fun _ _ id member => ?_⟩
      exact ExtTreeMap.mem_insert.mpr (.inr member)
  | detach id =>
      have same := Option.some.inj stepped
      subst same
      cases firing : program.hook.firing with
      | true =>
          have kept : (program.hook.detach id).callbacks = program.hook.callbacks := by
            simp [detach, firing]
          refine ⟨fun _ _ idle => ?_, fun _ _ other member => ?_⟩
          · rw [firing] at idle
            cases idle
          · rw [kept]
            exact member
      | false =>
          have erased : (program.hook.detach id).callbacks =
              program.hook.callbacks.erase id := by
            simp [detach, firing]
          constructor
          · intro keeps running _ member
            have still := keeps running id member
            rw [erased] at still
            simp at still
          · intro spares running other member
            rw [erased]
            refine ExtTreeMap.mem_erase.mpr ⟨?_, member⟩
            intro same
            have equal := Std.LawfulEqCmp.eq_of_compare same
            subst equal
            exact spares running firing member
  | fire =>
      have same := Option.some.inj stepped
      subst same
      refine ⟨fun _ => trivial, fun _ _ id member => ?_⟩
      cases found : program.invoked .fire with
      | some next => exact member
      | none => exact absurd member (not_mem_of_front found id)
  | done =>
      obtain ⟨id, outer, here, _, same⟩ := Program.step_done stepped
      subst same
      have enclosing : program.iterators.tail = outer := by rw [here]; rfl
      unfold Program.Spares
      rw [enclosing]
      cases found : program.invoked .done with
      | some next =>
          refine ⟨fun _ _ none => ?_, fun _ _ other member => member⟩
          cases none
      | none =>
          constructor
          · intro keeps running _ other named member
            exact (mem_endFire.mp (keeps running other member)).2 named
          · intro spares running other member
            refine mem_endFire.mpr ⟨member, ?_⟩
            intro named
            exact spares running rfl other named member

/-- The hook holds what the calls ask it to hold. -/
structure Agrees (ledger : Ledger CB) (program : Program CB) : Prop where
  holds : ∀ id cb, program.hook.callbacks[id]? = some cb ↔
    (id, cb) ∈ ledger.registered ∨ (id, cb) ∈ ledger.leaving
  pending : ∀ entry ∈ ledger.leaving, entry.1 ∈ program.hook.cancelId
  kept : ∀ entry ∈ ledger.registered, entry.1 ∉ program.hook.cancelId
  iterating : ∀ id ∈ program.iterators, id ∈ program.hook.callbacks
  idle : program.iterators = [] →
    program.hook.firing = false ∧ ledger.leaving = ∅

namespace Agrees

variable {ledger : Ledger CB} {program after : Program CB}

theorem created (first : UInt64) :
    Agrees (⟨∅, ∅⟩ : Ledger CB) ⟨create first, []⟩ where
  holds id cb := by simp [create]
  pending entry member := by cases member
  kept entry member := by cases member
  iterating id member := by cases member
  idle _ := ⟨rfl, rfl⟩

theorem attach {cb : CB} (agrees : Agrees ledger program)
    (unused : program.Unused (.attach cb)) :
    Agrees (ledger.record program after (.attach cb))
      { program with hook := (program.hook.attach cb).2 } where
  holds id other := by
    change (program.hook.callbacks.insert program.hook.id cb)[id]? = some other ↔
      (id, other) ∈ insert (program.hook.id, cb) ledger.registered ∨ _
    rw [ExtTreeMap.getElem?_insert, Set.mem_insert_iff]
    by_cases same : program.hook.id = id
    · subst same
      have fresh : program.hook.callbacks[program.hook.id]? = none :=
        ExtTreeMap.getElem?_eq_none unused.1
      have absent := agrees.holds program.hook.id other
      rw [fresh] at absent
      constructor
      · intro found
        simp at found
        exact .inl (.inl (by rw [found]))
      · intro found
        rcases found with (new | old) | old
        · simp at new
          simp [new]
        · cases absent.mpr (.inl old)
        · cases absent.mpr (.inr old)
    · have different : compare program.hook.id id ≠ .eq :=
        fun equal => same (Std.LawfulEqCmp.eq_of_compare equal)
      rw [if_neg different, agrees.holds id other]
      constructor
      · intro found
        exact found.imp .inr fun old => old
      · intro found
        rcases found with (new | old) | old
        · exact absurd (congrArg Prod.fst new).symm same
        · exact .inl old
        · exact .inr old
  pending := agrees.pending
  kept entry member := by
    rcases Set.mem_insert_iff.mp member with new | old
    · subst new
      exact unused.2
    · exact agrees.kept entry old
  iterating id member :=
    ExtTreeMap.mem_insert.mpr (.inr (agrees.iterating id member))
  idle := agrees.idle

/-- While no `fire` is running, and in the callback of a `fire` that has
returned from another one, `detach` erases at once. -/
theorem erase {id : UInt64} (agrees : Agrees ledger program)
    (firing : program.hook.firing = false)
    (spares : program.Spares (.detach id)) :
    Agrees
      (ledger.record program { program with hook := program.hook.detach id }
        (.detach id))
      { program with hook := program.hook.detach id } := by
  have hook : program.hook.detach id =
      { program.hook with callbacks := program.hook.callbacks.erase id } := by
    simp [EventHook.detach, firing]
  rw [hook]
  by_cases running : program.iterators = []
  · have settled := (agrees.idle running).2
    have leaving : (ledger.record program
        { program with
          hook := { program.hook with
            callbacks := program.hook.callbacks.erase id } }
        (.detach id)).leaving = ∅ := by
      simp [Ledger.record, running]
    refine ⟨?_, ?_, ?_, ?_, fun _ => ⟨firing, leaving⟩⟩
    · intro other cb
      rw [leaving]
      change (program.hook.callbacks.erase id)[other]? = some cb ↔
        ((other, cb) ∈ ledger.registered ∧ other ≠ id) ∨ _
      rw [ExtTreeMap.getElem?_erase]
      have before := agrees.holds other cb
      rw [settled] at before
      by_cases same : id = other
      · simp [same]
      · have different : compare id other ≠ .eq :=
          fun equal => same (Std.LawfulEqCmp.eq_of_compare equal)
        have distinct : other ≠ id := fun equal => same equal.symm
        rw [if_neg different, before]
        simp [distinct]
    · intro entry member
      rw [leaving] at member
      cases member
    · intro entry member
      exact agrees.kept entry member.1
    · intro other member
      rw [running] at member
      cases member
  · have absent := spares running firing
    have nothing : program.hook.callbacks[id]? = none :=
      ExtTreeMap.getElem?_eq_none absent
    have unnamed : ∀ cb, (id, cb) ∉ ledger.registered := by
      intro cb member
      have found := (agrees.holds id cb).mpr (.inl member)
      rw [nothing] at found
      cases found
    have same : program.hook.callbacks.erase id = program.hook.callbacks := by
      refine ExtTreeMap.ext_getElem? fun other => ?_
      rw [ExtTreeMap.getElem?_erase]
      split
      · rename_i equal
        rw [← Std.LawfulEqCmp.eq_of_compare equal, nothing]
      · rfl
    rw [same]
    have registered : {entry ∈ ledger.registered | entry.1 ≠ id} =
        ledger.registered := by
      refine Set.sep_eq_self_iff_mem_true.mpr ?_
      intro entry member equal
      exact unnamed entry.2 (equal ▸ member)
    have leaving : ledger.leaving ∪ {entry ∈ ledger.registered | entry.1 = id} =
        ledger.leaving := by
      refine Set.union_eq_self_of_subset_right ?_
      intro entry member
      exact absurd (member.2 ▸ member.1) (unnamed entry.2)
    have unchanged : ledger.record program program (.detach id) = ledger := by
      simp only [Ledger.record, registered, leaving]
      simp [running]
    have result : Agrees (ledger.record program program (.detach id)) program := by
      rw [unchanged]
      exact agrees
    exact result

/-- In a callback `detach` leaves the erasing to the `fire` that called it. -/
theorem postpone {id : UInt64} (agrees : Agrees ledger program)
    (firing : program.hook.firing = true) :
    Agrees
      (ledger.record program { program with hook := program.hook.detach id }
        (.detach id))
      { program with hook := program.hook.detach id } := by
  have hook : program.hook.detach id =
      { program.hook with cancelId := program.hook.cancelId ++ [id] } := by
    simp [EventHook.detach, firing]
  have running : program.iterators ≠ [] := by
    intro idle
    rw [(agrees.idle idle).1] at firing
    cases firing
  have ledgerAfter : ledger.record program
      { program with hook := program.hook.detach id } (.detach id) =
      { registered := {entry ∈ ledger.registered | entry.1 ≠ id}
        leaving := ledger.leaving ∪ {entry ∈ ledger.registered | entry.1 = id} } := by
    simp [Ledger.record, running]
  rw [ledgerAfter, hook]
  refine ⟨?_, ?_, ?_, agrees.iterating, fun idle => absurd idle running⟩
  · intro other cb
    refine (agrees.holds other cb).trans ?_
    by_cases same : other = id
    · simp [same, or_comm]
    · simp [same]
  · intro entry member
    rcases member with old | new
    · exact List.mem_append_left _ (agrees.pending entry old)
    · exact List.mem_append_right _ (List.mem_singleton.mpr new.2)
  · intro entry member named
    rcases List.mem_append.mp named with old | new
    · exact agrees.kept entry member.1 old
    · exact member.2 (List.mem_singleton.mp new)

/-- Inside of a `fire`, as long as nothing is attached or detached. -/
theorem unchanged {hook : EventHook CB} {iterators : List UInt64}
    (agrees : Agrees ledger program)
    (callbacks : hook.callbacks = program.hook.callbacks)
    (cancelId : hook.cancelId = program.hook.cancelId)
    (iterating : ∀ id ∈ iterators, id ∈ program.hook.callbacks)
    (running : iterators ≠ []) : Agrees ledger ⟨hook, iterators⟩ where
  holds id cb := by
    change hook.callbacks[id]? = some cb ↔ _
    rw [callbacks]
    exact agrees.holds id cb
  pending entry member := by
    change entry.1 ∈ hook.cancelId
    rw [cancelId]
    exact agrees.pending entry member
  kept entry member := by
    change entry.1 ∉ hook.cancelId
    rw [cancelId]
    exact agrees.kept entry member
  iterating id member := by
    change id ∈ hook.callbacks
    rw [callbacks]
    exact iterating id member
  idle idle := absurd idle running

/-- The last `fire` returns, and what was detached is gone. -/
theorem settle {call : Call CB} (hook : EventHook CB)
    (agrees : Agrees ledger program)
    (record : ledger.record program ⟨hook.endFire, []⟩ call =
      { ledger with leaving := ∅ })
    (callbacks : hook.callbacks = program.hook.callbacks)
    (cancelId : hook.cancelId = program.hook.cancelId) :
    Agrees (ledger.record program ⟨hook.endFire, []⟩ call)
      ⟨hook.endFire, []⟩ := by
  rw [record]
  refine ⟨?_, ?_, ?_, ?_, fun _ => ⟨rfl, rfl⟩⟩
  · intro id cb
    change (hook.cancelId.foldl ExtTreeMap.erase hook.callbacks)[id]? = some cb ↔
      (id, cb) ∈ ledger.registered ∨ (id, cb) ∈ (∅ : Set (UInt64 × CB))
    rw [getElem?_foldl_erase, callbacks, cancelId]
    have before := agrees.holds id cb
    by_cases named : id ∈ program.hook.cancelId
    · have gone : (id, cb) ∉ ledger.registered :=
        fun member => agrees.kept _ member named
      simp [named, gone]
    · have staying : (id, cb) ∉ ledger.leaving :=
        fun member => named (agrees.pending _ member)
      simp [named, before, staying]
  · intro entry member
    cases member
  · intro entry member
    change entry.1 ∉ hook.cancelId
    rw [cancelId]
    exact agrees.kept entry member
  · intro id member
    cases member

/-- What a `fire` erases when it returns, if everything it is to erase is gone
already. -/
theorem endFire_callbacks {hook : EventHook CB}
    (nothing : ∀ id ∈ hook.cancelId, id ∉ hook.callbacks) :
    hook.endFire.callbacks = hook.callbacks := by
  refine ExtTreeMap.ext_getElem? fun id => ?_
  change (hook.cancelId.foldl ExtTreeMap.erase hook.callbacks)[id]? = _
  rw [getElem?_foldl_erase]
  by_cases named : id ∈ hook.cancelId
  · rw [if_pos named, ExtTreeMap.getElem?_eq_none (nothing id named)]
  · rw [if_neg named]

theorem step {call : Call CB} (agrees : Agrees ledger program)
    (unused : program.Unused call) (spares : program.Spares call)
    (stepped : program.step call = some after) :
    Agrees (ledger.record program after call) after := by
  cases call with
  | attach cb =>
      have same := Option.some.inj stepped
      subst same
      exact agrees.attach unused
  | detach id =>
      have same := Option.some.inj stepped
      subst same
      cases firing : program.hook.firing with
      | true => exact agrees.postpone firing
      | false => exact agrees.erase firing spares
  | fire =>
      have same := Option.some.inj stepped
      subst same
      cases found : program.invoked .fire with
      | some next =>
          refine agrees.unchanged rfl rfl ?_ (List.cons_ne_nil _ _)
          intro id member
          rcases List.mem_cons.mp member with here | enclosing
          · rw [here]
            exact Program.mem_of_invoked found
          · exact agrees.iterating id enclosing
      | none =>
          have idle : program.iterators = [] := by
            refine List.eq_nil_iff_forall_not_mem.mpr ?_
            intro id member
            exact not_mem_of_front found id (agrees.iterating id member)
          rw [idle]
          exact agrees.settle program.hook.beginFire rfl rfl rfl
  | done =>
      obtain ⟨id, outer, here, member, same⟩ := Program.step_done stepped
      subst same
      have enclosing : ∀ other ∈ outer, other ∈ program.hook.callbacks := by
        intro other member
        refine agrees.iterating other ?_
        rw [here]
        exact List.mem_cons_of_mem id member
      cases found : program.invoked .done with
      | some next =>
          refine agrees.unchanged rfl rfl ?_ (List.cons_ne_nil _ _)
          intro other member
          rcases List.mem_cons.mp member with last | earlier
          · rw [last]
            exact Program.mem_of_invoked found
          · exact enclosing other earlier
      | none =>
          by_cases running : outer = []
          · rw [running]
            exact agrees.settle program.hook rfl rfl rfl
          · have nothing : ∀ other ∈ program.hook.cancelId,
                other ∉ program.hook.callbacks := by
              refine spares ?_ found
              rw [here]
              exact running
            have record : ledger.record program
                (Program.advance program.hook outer none) .done = ledger := by
              simp [Ledger.record, Program.advance, running]
            rw [record]
            exact agrees.unchanged (endFire_callbacks nothing) rfl enclosing
              running

end Agrees

theorem Reached.agrees {first : UInt64} {ledger : Ledger CB}
    {program : Program CB}
    (reached : Reached Program.Orderly first ledger program) :
    Agrees ledger program := by
  induction reached with
  | created => exact Agrees.created first
  | called call _ allowed stepped agrees =>
      exact agrees.step allowed.1 allowed.2 stepped

/-- As long as fires inside of fires leave nothing to erase, the hook loses no
entry under an iterator, it holds what is attached and not detached whenever
no `fire` is running, and it calls nothing that was detached before. -/
theorem nested_fires_agree {first : UInt64} {ledger : Ledger CB}
    {program : Program CB}
    (reached : Reached Program.Orderly first ledger program) :
    (∀ call after, program.step call = some after →
      (program.Keeps after ↔ program.Spares call)) ∧
    (program.iterators = [] → ∀ id cb,
      program.hook.callbacks[id]? = some cb ↔ (id, cb) ∈ ledger.registered) ∧
    (program.iterators = [] → ledger.leaving = ∅) ∧
    ∀ call id, program.invoked call = some id →
      ∃ cb, program.hook.callbacks[id]? = some cb ∧
        ((id, cb) ∈ ledger.registered ∨ (id, cb) ∈ ledger.leaving) := by
  have agrees := reached.agrees
  refine ⟨?_, ?_, ?_, ?_⟩
  · intro call after stepped
    exact keeps_iff_spares stepped
  · intro idle id cb
    have held := agrees.holds id cb
    rw [(agrees.idle idle).2] at held
    exact held.trans (or_iff_left (Set.notMem_empty _))
  · intro idle
    exact (agrees.idle idle).2
  · intro call id found
    obtain ⟨cb, there⟩ := mem_callbacks.mp (Program.mem_of_invoked found)
    exact ⟨cb, there, (agrees.holds id cb).mp there⟩

/-- The first of two callbacks detaches itself. -/
theorem nested_fires_agree_sample :
    ∃ (ledger : Ledger String) (program : Program String),
      program.iterators = [] ∧ program.hook.cancelId = [0] ∧
        ∀ id cb, program.hook.callbacks[id]? = some cb ↔
          (id, cb) ∈ ledger.registered := by
  have new : Reached Program.Orderly 0 ⟨∅, ∅⟩
      (⟨create 0, []⟩ : Program String) := .created
  have first := new.called (.attach "once")
    ⟨⟨by decide +kernel, by decide +kernel⟩, trivial⟩ rfl
  have second := first.called (.attach "always")
    ⟨⟨by decide +kernel, by decide +kernel⟩, trivial⟩ rfl
  have fired := second.called .fire ⟨trivial, trivial⟩ rfl
  have detached := fired.called (.detach 0)
    ⟨trivial, fun _ idle => by cases idle⟩ rfl
  have next := detached.called .done
    ⟨trivial, fun enclosing => absurd rfl enclosing⟩ rfl
  have returned := next.called .done
    ⟨trivial, fun enclosing => absurd rfl enclosing⟩ rfl
  exact ⟨_, _, by decide +kernel, by decide +kernel,
    (nested_fires_agree returned).2.1 (by decide +kernel)⟩

/-- The only callback fires the hook again and is detached in the inner
`fire`, which erases it while the outer one stands at it. -/
theorem inner_fire_erases :
    ¬ ∀ (ledger : Ledger String) (program after : Program String)
      (call : Call String), Reached (fun _ _ => True) 0 ledger program →
      program.step call = some after → program.Keeps after := by
  intro keeps
  have new : Reached (fun _ _ => True) 0 ⟨∅, ∅⟩
      (⟨create 0, []⟩ : Program String) := .created
  have attached := new.called (.attach "again") trivial rfl
  have outer := attached.called .fire trivial rfl
  have inner := outer.called .fire trivial rfl
  have detached := inner.called (.detach 0) trivial rfl
  have kept := keeps _ _ _ .done detached rfl (by decide +kernel) 0
    (by decide +kernel)
  revert kept
  decide +kernel

end Universe.EventHook
