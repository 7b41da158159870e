import Universe.Library.History
import Universe.EventManager.Runs

/-!
# Whole runs

Programs and callbacks that only use the operations move by steps, at every
depth of nesting.  `Rules.plain` is the event manager by itself: any code may
use it, and callbacks may call everything, `handle_events` included.
-/

namespace Universe

open Relation (ReflTransGen)
open Stepwise

variable {β σ : Type} {rules : Rules β σ} {w : World β σ}

/-- Between two calls of `handle_events`, outside of every callback. -/
structure Top (w : World β σ) : Prop where
  frames : frames w.history = []
  idle : dispatching w.history = false

theorem Top.kept {after : World β σ} (top : Top w) (kept : Kept rules w after) :
    Top after := by
  refine ⟨kept.frames.trans top.frames, ?_⟩
  rcases kept.cursor with ⟨loop, -⟩ | ⟨-, idle, -⟩
  · exact loop.trans top.idle
  · exact idle

namespace Op

/-- The operation does not call `handle_events`. -/
def Flat : Op β σ → Prop
  | .handleEvents _ => False
  | _ => True

/-- The operation stays within the rules. -/
def Allowed (rules : Rules β σ) : Op β σ → Prop
  | .accept fd => ∀ w, rules.outside w (w.acceptFd fd)
  | .watchEvent fd event callback _ =>
      event = .connect → rules.legit callback fd
  | .watch fd callbacks _ _ => ∀ callback,
      callbacks .connect = some callback → rules.legit callback fd
  | .unwatch _ _ => rules.unwatches
  | .user change => ∀ w, rules.outside w (w.mapUser change)
  | _ => True

end Op

namespace EventManager

variable {d : Dispatch β σ} (moves : Moves rules d)
include moves

/-- An operation other than `handle_events`, or any where that may nest. -/
theorem perform_runs (op : Op β σ) (flat : rules.nested ∨ op.Flat)
    (allowed : op.Allowed rules) (base : Base rules w) :
    Runs (Step rules) (perform d op) w
      (fun _ after => Kept rules w after) := by
  cases op with
  | accept fd =>
      have change := allowed w
      exact runs_modify_bind (.single (.outside change))
        (runs_pure (.outside change))
  | watchEvent fd event callback et =>
      exact runs_modifyGet_bind (.single (.watchEvent fd event callback et allowed))
        (runs_pure (.watchEvent fd event callback et))
  | watch fd callbacks reWatch et =>
      exact runs_modifyGet_bind (.single (.watch fd callbacks reWatch et allowed))
        (runs_pure (.watch fd callbacks reWatch et))
  | autoRewatch fd et =>
      exact runs_modifyGet_bind (.single (.autoRewatch fd et))
        (runs_pure (.autoRewatch fd et))
  | unwatch fd noCallback =>
      refine runs_bind (unwatch_runs moves fd noCallback allowed base) ?_
      intro _ between _ kept
      exact runs_pure kept
  | close fd force =>
      refine runs_bind (close_runs moves fd force base) ?_
      intro _ between _ kept
      exact runs_pure kept
  | closeAll =>
      refine runs_bind (closeAll_runs moves base) ?_
      intro _ between _ kept
      exact runs_pure kept
  | write fd data => exact write_runs moves fd data base
  | handleEvents waited =>
      rcases flat with nested | flat
      · refine runs_bind (handleEvents_runs moves waited base (.inl nested)) ?_
        rintro _ between - ⟨framesKept, cursor⟩
        exact runs_pure ⟨framesKept, cursor.imp_right fun reset => ⟨nested, reset⟩⟩
      · exact flat.elim
  | user change =>
      have change := allowed w
      exact runs_modify_bind (.single (.outside change))
        (runs_pure (.outside change))

/-- An operation of the program itself, outside of every callback. -/
theorem perform_top_runs (op : Op β σ) (allowed : op.Allowed rules)
    (base : Base rules w) (top : Top w) :
    Runs (Step rules) (perform d op) w (fun _ after => Top after) := by
  by_cases flat : op.Flat
  · refine (perform_runs moves op (.inr flat) allowed base).weaken ?_
    intro _ after _ kept
    exact top.kept kept
  · cases op with
    | handleEvents waited =>
        refine runs_bind (handleEvents_runs moves waited base
          (.inr ⟨top.idle, top.frames⟩)) ?_
        rintro _ between - ⟨framesKept, cursor⟩
        refine runs_pure ⟨framesKept.trans top.frames, ?_⟩
        rcases cursor with ⟨loop, -⟩ | ⟨idle, -⟩
        · exact loop.trans top.idle
        · exact idle
    | _ => exact absurd trivial flat

theorem program_runs (program : Program β σ)
    (allowed : program.Forall fun op =>
      (rules.nested ∨ op.Flat) ∧ op.Allowed rules)
    (base : Base rules w) :
    Runs (Step rules) (program.run d) w
      (fun _ after => Kept rules w after) := by
  refine (Script.runs (fun middle =>
    Base rules middle ∧ Kept rules w middle) ?_ program allowed
    ⟨base, .refl w⟩).weaken fun _ _ _ restored => restored.2
  rintro op middle ⟨flat, opAllowed⟩ ⟨base, kept⟩
  refine (perform_runs moves op flat opAllowed base).weaken ?_
  intro _ after steps opKept
  exact ⟨base.steps steps, kept.trans opKept⟩

theorem program_top_runs (program : Program β σ)
    (allowed : program.Forall fun op => op.Allowed rules)
    (base : Base rules w) (top : Top w) :
    Runs (Step rules) (program.run d) w (fun _ after => Top after) := by
  refine (Script.runs (fun middle => Base rules middle ∧ Top middle) ?_ program allowed
    ⟨base, top⟩).weaken fun _ _ _ restored => restored.2
  rintro op middle opAllowed ⟨base, top⟩
  refine (perform_top_runs moves op opAllowed base top).weaken ?_
  intro _ after steps top
  exact ⟨base.steps steps, top⟩

end EventManager

namespace App

/-- Callbacks that move by steps as soon as the callbacks they reach do. -/
structure Moves (rules : Rules β σ) (app : App β σ) : Prop where
  code : ∀ {d : Dispatch β σ}, Universe.Moves rules d →
    ∀ {callback fd w} (arg : Arg), Base rules w →
    Expected rules callback fd w arg →
    Runs (Step rules) (app.code d callback fd arg) w
      (fun _ after => Kept rules w after)
  unwatched : ∀ fd w, rules.outside w (w.mapUser (app.unwatched fd))

theorem Moves.dispatch {app : App β σ} (moves : app.Moves rules)
    (depth : Nat) : Universe.Moves rules (app.dispatch depth) := by
  induction depth with
  | zero => exact ⟨fun _ _ _ => runs_throw, moves.unwatched⟩
  | succ depth induction => exact ⟨moves.code induction, moves.unwatched⟩

end App

namespace Rules

/-- A descriptor arrives, or the protocol objects change. -/
inductive Outside : World β σ → World β σ → Prop where
  | accept (w : World β σ) (fd : Fd) : Outside w (w.acceptFd fd)
  | user (w : World β σ) (change : σ → σ) : Outside w (w.mapUser change)

theorem Outside.untouched {after : World β σ} (change : Outside w after) :
    Untouched w after := by
  cases change with
  | accept fd =>
      unfold World.acceptFd
      split
      · next free =>
          exact ⟨rfl, rfl, rfl, rfl, rfl, rfl, List.suffix_cons _ _,
            fun sound => sound.openFd free⟩
      · exact ⟨rfl, rfl, rfl, rfl, rfl, rfl, List.suffix_rfl, id⟩
  | user change => exact ⟨rfl, rfl, rfl, rfl, rfl, rfl, List.suffix_rfl, id⟩

/-- The event manager by itself, under any code. -/
def plain : Rules β σ :=
  { legit := fun _ _ => True
    nested := True
    outside := Outside
    untouched := Outside.untouched }

theorem plain_allowed (op : Op β σ) : op.Allowed plain := by
  cases op with
  | accept fd => exact fun w => .accept w fd
  | user change => exact fun w => .user w change
  | watchEvent fd event callback et => exact fun _ => trivial
  | watch fd callbacks reWatch et => exact fun _ _ => trivial
  | _ => trivial

end Rules

theorem App.ofPrograms_moves
    (body : β → Fd → Arg → World β σ → Program β σ) (wantMessage : β → Bool) :
    (App.ofPrograms body wantMessage).Moves Rules.plain := by
  refine ⟨?_, fun fd w => .user w _⟩
  intro d moves callback fd w arg base _
  refine runs_get_bind ?_
  exact EventManager.program_runs moves _
    (Script.forall_of_all (fun op => ⟨.inl trivial, Rules.plain_allowed op⟩) _)
    base

/-- A run of `program` on a fresh event manager, under callbacks with the given
bodies that nest at most `depth` deep. -/
structure Run (β σ : Type) where
  body : β → Fd → Arg → World β σ → Program β σ
  wantMessage : β → Bool
  depth : Nat
  program : Program β σ
  user : σ
  answers : Answers

namespace Run

variable (run : Run β σ)

@[irreducible] def result : EStateM.Result Stop (World β σ) Unit :=
  run.program.run ((App.ofPrograms run.body run.wantMessage).dispatch run.depth)
    (World.init run.user run.answers)

/-- The state in which the run ended. -/
def last : World β σ := final run.result

def history : List (Event β) := run.last.history

theorem runs :
    Runs (Step Rules.plain)
      (run.program.run
        ((App.ofPrograms run.body run.wantMessage).dispatch run.depth))
      (World.init run.user run.answers) (fun _ after => Top after) :=
  EventManager.program_top_runs
    ((App.ofPrograms_moves run.body run.wantMessage).dispatch run.depth)
    run.program (Script.forall_of_all Rules.plain_allowed run.program)
    (Base.init run.user run.answers) ⟨rfl, rfl⟩

/-- A run that comes to its normal end has completed everything it began. -/
theorem top_of_ok {last : World β σ} (completed : run.result = .ok () last) :
    Top run.last := by
  unfold result at completed
  unfold Run.last result
  rw [completed]
  exact run.runs.returns completed

/-- What every step preserves holds in the last state of every run. -/
theorem invariant (holds : World β σ → Prop)
    (start : ∀ user answers, holds (World.init user answers))
    (preserved : ∀ {w after}, Base Rules.plain w → holds w →
      Step Rules.plain w after → holds after) : holds run.last := by
  have together : ∀ w after : World β σ, Base Rules.plain w ∧ holds w →
      Step Rules.plain w after → Base Rules.plain after ∧ holds after :=
    fun _ _ before step =>
      ⟨before.1.step step, preserved before.1 before.2 step⟩
  unfold last result
  exact (invariant_of_steps together run.runs.steps
    ⟨Base.init run.user run.answers, start run.user run.answers⟩).2

/-- The same for what holds only as long as every event so far has met a
condition. -/
theorem conditional {condition : Event β → List (Event β) → Prop}
    (met : History.Always condition run.history) (holds : World β σ → Prop)
    (start : ∀ user answers, holds (World.init user answers))
    (preserved : ∀ {w after}, Base Rules.plain w →
      History.Always condition after.history → holds w →
      Step Rules.plain w after → holds after) : holds run.last := by
  refine run.invariant
    (fun w => History.Always condition w.history → holds w)
    (fun user answers _ => start user answers) ?_ met
  intro w after base before step met
  exact preserved base met (before (met.of_suffix step.suffix)) step

end Run

end Universe
