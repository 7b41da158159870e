import Universe.Client.Execution
import Universe.ClientBase

/-!
# How a client with a table moves

`C::Base` and the code around it move by the steps of the event manager.
Beside them there are the new numbers and the changes of the members, each
with what is known where the source makes it.
-/

namespace Universe

open Stepwise

namespace ClientBase

variable {κ : Type}

/-- The changes outside the event manager. -/
inductive Outside : World (Stored κ) State → World (Stored κ) State → Prop
    where
  | accept (w : World (Stored κ) State) (fd : Fd) : Outside w (w.acceptFd fd)
  | closeSocket (w : World (Stored κ) State) (fd : Fd) :
      Outside w (w.closeSocket fd)
  | same (w : World (Stored κ) State) : Outside w w
  | setAutoReconnect (w : World (Stored κ) State) (autoReconnect : Bool) :
      Outside w (w.mapUser (State.setAutoReconnect autoReconnect))
  | closing (w : World (Stored κ) State) (connectAddr : Address)
      (entry : Entry) (found : w.user.addr2socket[connectAddr]? = some entry) :
      Outside w
        (w.mapUser (State.enter connectAddr { entry with closing := true }))
  | closed (w : World (Stored κ) State) (connectAddr : Address) :
      Outside w (w.mapUser (State.erase connectAddr))
  /-- The entry is made right after the new socket is watched. -/
  | connected (w : World (Stored κ) State) (connectAddr : Address) (socket : Fd)
      (opened : (w.kernel.conns socket).isSome)
      (unwatched : w.kernel.epoll socket = none) :
      Outside (w.watch socket toCallbacks).2
        ((w.watch socket toCallbacks).2.mapUser
          (State.enter connectAddr (entryFor w socket)))
  | sent (w : World (Stored κ) State) (address : Address) :
      Outside w
        (w.mapUser
          (State.send (packetFor w address (w.user.entryOf address))))

theorem Outside.untouched {w after : World (Stored κ) State}
    (change : Outside w after) : Untouched w after := by
  cases change with
  | accept w fd => exact (Client.Outside.accept w fd).untouched
  | closeSocket w fd => exact (Client.Outside.closeSocket w fd).untouched
  | same w => exact (Client.Outside.user w id).untouched
  | setAutoReconnect w autoReconnect => exact (Client.Outside.user w _).untouched
  | closing w connectAddr entry found =>
      exact (Client.Outside.user w _).untouched
  | closed w connectAddr => exact (Client.Outside.user w _).untouched
  | connected w connectAddr socket opened unwatched =>
      exact (Client.Outside.user (w.watch socket toCallbacks).2 _).untouched
  | sent w address => exact (Client.Outside.user w _).untouched

/-- The code may nest as it likes, and leaves `unwatch` to the event
manager. -/
def rules : Rules (Stored κ) State :=
  { legit := fun _ _ => True
    nested := True
    outside := Outside
    untouched := Outside.untouched
    unwatches := False }

variable {w : World (Stored κ) State} {d : Dispatch (Stored κ) State}

/-- A change of the members. -/
theorem mapUser_runs {change : State → State}
    (allowed : Outside w (w.mapUser change)) :
    Runs (Step rules) (modify (World.mapUser · change) :
        EM (Stored κ) State PUnit) w
      (fun _ after => Kept rules w after ∧ after = w.mapUser change) :=
  runs_modify (.single (.outside allowed)) ⟨.outside allowed, rfl⟩

/-- A new connection goes to the table. -/
theorem establish_runs (connectAddr : Address) (base : Base rules w) :
    Runs (Step rules) (establish connectAddr : EM (Stored κ) State Bool) w
      (fun _ after => Kept rules w after) := by
  refine runs_bind (Client.dial_opens Outside.accept Outside.closeSocket) ?_
  rintro socket dialed steps ⟨kept, fate⟩
  split
  · next positive =>
      refine runs_get_bind ?_
      have watched : Step rules dialed (dialed.watch socket toCallbacks).2 :=
        .watch socket toCallbacks false true fun _ _ => trivial
      refine runs_modifyGet_bind (.single watched) ?_
      rcases fate with failed | ⟨answers, free, rfl⟩
      · rw [failed] at positive
        exact absurd positive (by decide)
      · have sound : (w.setAnswers answers).kernel.Sound :=
          ⟨base.sound.registeredOpen, base.sound.openNonneg⟩
        have unwatched : (w.setAnswers answers).kernel.epoll socket = none := by
          by_contra inside
          have opened := sound.registeredOpen socket
            (Option.isSome_iff_ne_none.mpr inside)
          rw [free.2] at opened
          cases opened
        have same : ((w.setAnswers answers).acceptFd socket).kernel =
            (w.setAnswers answers).kernel.openFd socket := by
          unfold World.acceptFd
          rw [if_pos free]
          rfl
        refine runs_bind (mapUser_runs (.connected _ connectAddr socket ?_ ?_)) ?_
        · rw [same]
          simp [Kernel.openFd]
        · rw [same]
          exact unwatched
        · rintro _ after - ⟨entered, -⟩
          exact runs_pure ((kept.trans (.watch socket _ false true)).trans entered)
  · exact runs_pure kept

section Methods

variable (moves : Moves rules d)
include moves

theorem close_runs (connectAddr : Address) (base : Base rules w) :
    Runs (Step rules) (close d connectAddr) w
      (fun _ after => Kept rules w after) := by
  refine runs_get_bind ?_
  split
  · exact runs_pure (.refl w)
  · next entry found =>
      refine runs_bind (mapUser_runs (.closing w connectAddr entry found)) ?_
      rintro _ marked steps ⟨kept, -⟩
      refine runs_bind (EventManager.close_runs moves entry.socket true
        (base.steps steps)) ?_
      intro closed between _ closeKept
      split
      · refine runs_bind (mapUser_runs (.closed between connectAddr)) ?_
        rintro _ after - ⟨erased, -⟩
        exact runs_pure ((kept.trans closeKept).trans erased)
      · exact runs_pure (kept.trans closeKept)

theorem connect_runs (connectAddr : Address) (reConnect : Bool)
    (base : Base rules w) :
    Runs (Step rules) (connect d connectAddr reConnect) w
      (fun _ after => Kept rules w after) := by
  unfold connect
  split
  · refine runs_bind (close_runs moves connectAddr base) ?_
    intro _ closed steps kept
    refine (establish_runs connectAddr (base.steps steps)).weaken ?_
    intro _ after _ established
    exact kept.trans established
  · refine runs_get_bind ?_
    split
    · exact runs_pure (.refl w)
    · exact establish_runs connectAddr base

theorem send_runs (address : Address) (packet : Bytes) (base : Base rules w) :
    Runs (Step rules) (send d address packet) w
      (fun _ after => Kept rules w after) := by
  refine runs_get_bind ?_
  refine runs_bind (mapUser_runs (.sent w address)) ?_
  rintro _ recorded steps ⟨kept, -⟩
  refine runs_bind (EventManager.write_runs moves _ packet
    (base.steps steps)) ?_
  intro bytes after _ written
  exact runs_pure (kept.trans written)

theorem cmdAddr_runs (address : Address) (packet : Bytes)
    (base : Base rules w) :
    Runs (Step rules) (cmdAddr d address packet) w
      (fun _ after => Kept rules w after) := by
  refine runs_bind (connect_runs moves address false base) ?_
  intro connected first steps kept
  have base := base.steps steps
  split
  · refine runs_bind (send_runs moves address packet base) ?_
    intro sent second steps sendKept
    have base := base.steps steps
    have kept := kept.trans sendKept
    refine runs_get_bind ?_
    split
    · exact runs_pure kept
    · split
      · refine runs_bind (connect_runs moves address true base) ?_
        intro reconnected third steps reconnectKept
        have kept := kept.trans reconnectKept
        split
        · refine (send_runs moves address packet (base.steps steps)).weaken ?_
          intro _ after _ again
          exact kept.trans again
        · exact runs_pure kept
      · exact runs_pure kept
  · exact runs_pure kept

theorem perform_runs (op : BaseOp κ) (base : Base rules w) :
    Runs (Step rules) (perform d op) w
      (fun _ after => Kept rules w after) := by
  cases op with
  | connect connectAddr reConnect =>
      refine runs_bind (connect_runs moves connectAddr reConnect base) ?_
      intro _ after _ kept
      exact runs_pure kept
  | close connectAddr =>
      refine runs_bind (close_runs moves connectAddr base) ?_
      intro _ after _ kept
      exact runs_pure kept
  | cmdAddr address packet =>
      refine runs_bind (cmdAddr_runs moves address packet base) ?_
      intro _ after _ kept
      exact runs_pure kept
  | setAutoReconnect autoReconnect =>
      refine runs_bind (mapUser_runs (.setAutoReconnect w autoReconnect)) ?_
      rintro _ after - ⟨kept, -⟩
      exact runs_pure kept
  | manager op plain =>
      have allowed : (op.map fun callback : κ =>
          (.user (.other callback) : Stored κ)).Allowed rules := by
        cases op with
        | accept fd => exact fun w => .accept w fd
        | watchEvent fd event callback et => exact fun _ => trivial
        | watch fd callbacks reWatch et => exact fun _ _ => trivial
        | unwatch fd noCallback => exact plain.elim
        | user change => exact plain.elim
        | _ => trivial
      exact EventManager.perform_runs moves _ (.inl trivial) allowed base

theorem program_runs (program : BaseProgram κ) (base : Base rules w) :
    Runs (Step rules) (program.run .exit (perform d)) w
      (fun _ after => Kept rules w after) := by
  refine (Script.runs (fun middle =>
    Base rules middle ∧ Kept rules w middle) ?_ program
    (Script.forall_of_all (fun _ => trivial) program)
    ⟨base, .refl w⟩).weaken fun _ _ _ restored => restored.2
  rintro op middle - ⟨base, kept⟩
  refine (perform_runs moves op base).weaken ?_
  intro _ after steps opKept
  exact ⟨base.steps steps, kept.trans opKept⟩

end Methods

theorem app_moves
    (body : Callback κ → Fd → Arg → World (Stored κ) State → BaseProgram κ)
    (wantMessage : κ → Bool) : (app body wantMessage).Moves rules := by
  refine ⟨?_, fun fd w => .same w⟩
  intro d moves callback fd w arg base _
  cases callback with
  | user callback =>
      exact runs_get_bind (program_runs moves (body callback fd arg w) base)
  | address callbacks => exact runs_throw
  | host callbacks remaining placeholder => exact runs_throw

namespace Run

variable (run : Run κ)

theorem runs :
    Runs (Step rules)
      (run.program.run .exit
        (perform ((app run.body run.wantMessage).dispatch run.depth)))
      (World.init { autoReconnect := run.autoReconnect } run.answers)
      (fun _ after => Kept rules
        (World.init { autoReconnect := run.autoReconnect } run.answers)
        after) :=
  program_runs ((app_moves run.body run.wantMessage).dispatch run.depth)
    run.program (Base.init _ _)

/-- What every step preserves holds in the last state of every run. -/
theorem invariant (holds : World (Stored κ) State → Prop)
    (start : ∀ autoReconnect answers,
      holds (World.init { autoReconnect } answers))
    (preserved : ∀ {w after}, Base rules w → holds w →
      Step rules w after → holds after) : holds run.last := by
  have together : ∀ w after : World (Stored κ) State,
      Base rules w ∧ holds w → Step rules w after →
      Base rules after ∧ holds after :=
    fun _ _ before step =>
      ⟨before.1.step step, preserved before.1 before.2 step⟩
  unfold last result
  exact (invariant_of_steps together run.runs.steps
    ⟨Base.init _ _, start run.autoReconnect run.answers⟩).2

end Run

end ClientBase

end Universe
