import Universe.EventManager.Steps

/-!
# The methods of the event manager move by steps

Every method is followed through its code.  A method that returns has closed
every end of a registration it began, and `_current_fd` is what it was,
unless a callback has called `handle_events` in between.
-/

namespace Universe

open Relation (ReflTransGen)
open Std (ExtTreeMap)
open Stepwise

variable {β σ : Type} {rules : Rules β σ} {w after : World β σ}

/-- `_current_fd` is unchanged, or reset by a nested `handle_events`. -/
def Cursor (rules : Rules β σ) (w after : World β σ) : Prop :=
  dispatching after.history = dispatching w.history ∧
      after.currentFd = w.currentFd ∧
      pending after.history = pending w.history ∨
    rules.nested ∧ dispatching after.history = false ∧ after.currentFd = -1

/-- What a method that returns leaves as it was. -/
structure Kept (rules : Rules β σ) (w after : World β σ) : Prop where
  frames : frames after.history = frames w.history
  cursor : Cursor rules w after

theorem Cursor.trans {last : World β σ} (first : Cursor rules w after)
    (second : Cursor rules after last) : Cursor rules w last := by
  rcases second with ⟨loop, current, waiting⟩ | reset
  · rcases first with
      ⟨firstLoop, firstCurrent, firstWaiting⟩ | ⟨nested, ended, current'⟩
    · exact .inl ⟨loop.trans firstLoop, current.trans firstCurrent,
        waiting.trans firstWaiting⟩
    · exact .inr ⟨nested, loop.trans ended, current.trans current'⟩
  · exact .inr reset

namespace Kept

theorem refl (w : World β σ) : Kept rules w w := ⟨rfl, .inl ⟨rfl, rfl, rfl⟩⟩

theorem trans {last : World β σ} (first : Kept rules w after)
    (second : Kept rules after last) : Kept rules w last :=
  ⟨second.frames.trans first.frames, first.cursor.trans second.cursor⟩

theorem of_eq (framesKept : Universe.frames after.history = Universe.frames w.history)
    (loopKept : dispatching after.history = dispatching w.history)
    (waiting : pending after.history = pending w.history)
    (currentFd : after.currentFd = w.currentFd) : Kept rules w after :=
  ⟨framesKept, .inl ⟨loopKept, currentFd, waiting⟩⟩

theorem outside (change : rules.outside w after) : Kept rules w after :=
  have untouched := rules.untouched change
  of_eq untouched.frames untouched.dispatching untouched.pending
    untouched.currentFd

theorem epollUpdate (kept : Kept rules w after) (fd : Fd) (op : EpollOp)
    (et : Bool) : Kept rules w (after.epollUpdate fd op et).2 := by
  refine kept.trans ?_
  by_cases deleted : op = .del
  · subst deleted
    exact of_eq rfl rfl rfl rfl
  · apply of_eq
    · simp [World.epollUpdate_history _ _ _ deleted, Universe.frames]
    · simp [World.epollUpdate_history _ _ _ deleted, dispatching]
    · simp [World.epollUpdate_history _ _ _ deleted, pending]
    · simp

theorem watchEvent (fd : Fd) (event : EventType) (callback : β) (et : Bool) :
    Kept rules w (w.watchEvent fd event callback et).2 := by
  refine epollUpdate ?_ fd _ et
  exact of_eq rfl rfl rfl rfl

theorem watch (fd : Fd) (callbacks : EventCB β) (reWatch et : Bool) :
    Kept rules w (w.watch fd callbacks reWatch et).2 := by
  refine epollUpdate ?_ fd _ et
  exact of_eq rfl rfl rfl rfl

theorem autoRewatch (fd : Fd) (et : Bool) :
    Kept rules w (w.autoRewatch fd et).2 :=
  epollUpdate (refl w) fd _ et

theorem unregister (fd : Fd) : Kept rules w (w.unregister fd).2 := by
  refine epollUpdate ?_ fd _ true
  exact of_eq rfl rfl rfl rfl

theorem submit (fd : Fd) (data : Bytes) :
    Kept rules w (w.submit fd data).2 := by
  refine World.submit_cases w data ?_ ?_ ?_ ?_
  · intro _ connection answers
    exact of_eq rfl rfl rfl rfl
  · intro queued found
    exact of_eq rfl rfl rfl rfl
  · intro missing notOpen
    exact refl w
  · intro conn missing opened
    have rule : World.LoopRule fd conn
        (fun _ after => Kept rules w after ∧ after.writeBuf[fd]? = none)
        (Kept rules w) := by
      refine ⟨?_, ?_, ?_, ?_⟩
      · rintro rest extra after - ⟨kept, missing⟩
        exact ⟨kept.trans (of_eq rfl rfl rfl rfl), missing⟩
      · rintro rest extra answers after - ⟨kept, missing⟩
        exact kept.trans (of_eq rfl rfl rfl rfl)
      · rintro rest answers after ⟨kept, missing⟩
        rw [World.appendWriteBuf_of_none _ _ (by exact missing)]
        refine epollUpdate ?_ fd _ _
        exact kept.trans (of_eq rfl rfl rfl rfl)
      · rintro rest errno answers after ⟨kept, missing⟩
        exact kept.trans (of_eq rfl rfl rfl rfl)
    exact rule.writeLoop _ _ _ _ ⟨refl w, missing⟩

theorem logRequest (fd : Fd) (data : Bytes) :
    Kept rules w (w.logRequest fd data) := by
  unfold World.logRequest
  split
  · exact refl w
  · exact of_eq rfl rfl rfl rfl

theorem handshake (fd : Fd) : Kept rules w (w.handshake fd).2 := by
  unfold World.handshake
  split
  · exact refl w
  · exact of_eq rfl rfl rfl rfl

theorem logCall {event : EventType} (notClose : event ≠ .close)
    (handler : Handler β) (fd : Fd) (cause : Cause) :
    Kept rules w (w.logCall handler fd event cause) := by
  cases event with
  | close => exact absurd rfl notClose
  | connect => exact of_eq rfl rfl rfl rfl
  | read => exact of_eq rfl rfl rfl rfl
  | write => exact of_eq rfl rfl rfl rfl
  | error => exact of_eq rfl rfl rfl rfl

end Kept

/-- What a callback can rely on when it is told the result of a connect. -/
def Expected (rules : Rules β σ) (callback : β) (fd : Fd) (w : World β σ) :
    Arg → Prop
  | .result .ng => rules.legit callback fd ∧ (0 ≤ fd → Reopenable fd w)
  | .result _ => rules.legit callback fd
  | _ => True

/-- The program around the event manager: its callbacks move by steps and
leave what a method leaves. -/
structure Moves (rules : Rules β σ) (d : Dispatch β σ) : Prop where
  invoke : ∀ {callback fd w} (arg : Arg), Base rules w →
    Expected rules callback fd w arg →
    Runs (Step rules) (d.invoke callback fd arg) w
      (fun _ after => Kept rules w after)
  unwatched : ∀ fd w, rules.outside w (w.mapUser (d.unwatched fd))

namespace EventManager

variable {d : Dispatch β σ} (moves : Moves rules d)
include moves

theorem call_runs {handler : Handler β} {fd : Fd} {event : EventType}
    {cause : Cause} (arg : Arg) (base : Base rules w)
    (step : Step rules w (w.logCall handler fd event cause))
    (expected : Expected rules handler.callback fd
      (w.logCall handler fd event cause) arg) :
    Runs (Step rules) (call d handler fd event cause arg) w
      (fun _ after => Kept rules (w.logCall handler fd event cause) after) := by
  refine runs_modify_bind (.single step) ?_
  exact moves.invoke arg (base.step step) expected

theorem afterUnwatch_runs {fd : Fd} {callbacks : EventCB (Handler β)}
    (noCallback : Bool) (base : Base rules w)
    (legit : ∀ {handler}, callbacks .connect = some handler →
      rules.legit handler.callback fd) :
    Runs (Step rules) (afterUnwatch d fd callbacks noCallback) w
      (fun _ after => Kept rules w after) := by
  have told : ∀ {before : World β σ}, Kept rules w before →
      Runs (Step rules)
        (modify (World.mapUser · (d.unwatched fd)) : EM β σ PUnit) before
        (fun _ after => Kept rules w after) := by
    intro before kept
    have change := moves.unwatched fd before
    exact runs_modify (.single (.outside change)) (kept.trans (.outside change))
  unfold afterUnwatch
  split
  · next handler found =>
      refine runs_bind (call_runs moves _ base (.gameOverCall handler fd)
        (legit found)) ?_
      intro _ between _ kept
      exact told (Kept.trans (Kept.logCall (by decide) ..) kept)
  · exact told (.refl w)

theorem unwatch_runs (fd : Fd) (noCallback : Bool) (caused : rules.unwatches)
    (base : Base rules w) :
    Runs (Step rules) (unwatch d fd noCallback) w
      (fun _ after => Kept rules w after) := by
  refine runs_get_bind ?_
  split
  · exact runs_pure (.refl w)
  · next callbacks registered =>
      have contained : w.fds.contains fd = true := by
        simp [← ExtTreeMap.isSome_getElem?_eq_contains, registered]
      refine runs_modifyGet_bind
        (.single (.unregister fd contained (.inl caused))) ?_
      split
      · refine runs_bind (afterUnwatch_runs moves noCallback
          (base.unregister fd) (base.stored registered)) ?_
        intro _ between _ kept
        exact runs_pure ((Kept.unregister fd).trans kept)
      · exact runs_throw

omit moves in
theorem unwatch_of_registered {fd : Fd} {callbacks : EventCB (Handler β)}
    (noCallback : Bool) (registered : w.fds[fd]? = some callbacks)
    (inEpoll : (w.kernel.epoll fd).isSome) :
    unwatch d fd noCallback w =
      (do afterUnwatch d fd callbacks noCallback; return true : EM β σ Bool)
        (w.unregister fd).2 := by
  have removed : (w.unregister fd).1 = true := by
    simpa [World.unregister] using inEpoll
  unfold unwatch
  rw [Stepwise.get_bind, registered]
  dsimp only
  rw [Stepwise.modifyGet_bind, if_pos removed]

theorem endWatch_runs (fd : Fd) (handler : Option (Handler β)) (byClose : Bool)
    (base : Base rules w)
    (origin : ∀ callbacks, w.fds[fd]? = some callbacks →
      (w.kernel.epoll fd).isSome →
      (byClose = true ∧ handler = callbacks .close) ∨
        (byClose = false ∧ dispatching w.history = true ∧ fd = w.currentFd ∧
          handler = w.currentCb .close)) :
    Runs (Step rules) (endWatch d fd handler byClose) w
      (fun removed after => Cursor rules w after ∧
        (removed = true ∧
            frames after.history = ⟨fd, handler, byClose, .begun⟩ :: frames w.history ∨
          removed = false ∧ w.fds.contains fd = false ∧ after = w)) := by
  cases registered : w.fds[fd]? with
  | none =>
      have begun : w.beginEnd fd handler byClose = w := by
        simp [World.beginEnd, registered]
      have missing : w.fds.contains fd = false := by
        simp [← ExtTreeMap.isSome_getElem?_eq_contains, registered]
      refine runs_modify_bind (by rw [begun]) ?_
      rw [begun]
      refine runs_get_bind ?_
      rw [registered]
      exact runs_pure ⟨.inl ⟨rfl, rfl, rfl⟩, .inr ⟨rfl, missing, rfl⟩⟩
  | some callbacks =>
      cases inEpoll : w.kernel.epoll fd with
      | none =>
          have begun : w.beginEnd fd handler byClose = w := by
            simp [World.beginEnd, registered, inEpoll]
          have contained : w.fds.contains fd = true := by
            simp [← ExtTreeMap.isSome_getElem?_eq_contains, registered]
          refine runs_modify_bind (by rw [begun]) ?_
          rw [begun]
          refine runs_get_bind ?_
          rw [registered]
          refine runs_modifyGet_bind
            (.single (.unregister fd contained (.inr inEpoll))) ?_
          have failed : (w.unregister fd).1 = false := by
            simp [World.unregister, inEpoll]
          rw [failed]
          exact runs_throw
      | some interest =>
          have inside : (w.kernel.epoll fd).isSome := by simp [inEpoll]
          have begun : w.beginEnd fd handler byClose =
              w.log (.ending fd handler (callbacks .close) byClose) := by
            simp [World.beginEnd, registered, inEpoll]
          have detached : Step rules w
              (w.detach fd callbacks handler byClose) :=
            .detach fd callbacks handler byClose registered inside
              (origin callbacks registered inside)
          have same : endWatch d fd handler byClose w =
              (do afterUnwatch d fd callbacks false; return true : EM β σ Bool)
                (w.detach fd callbacks handler byClose) := by
            change unwatch d fd false (w.beginEnd fd handler byClose) = _
            rw [begun]
            exact unwatch_of_registered false registered inside
          refine runs_of_eq _ (.single detached) same ?_
          refine runs_bind (afterUnwatch_runs moves false (base.step detached)
            (base.stored registered)) ?_
          intro _ between _ kept
          have taken : Kept rules
              (w.log (.ending fd handler (callbacks .close) byClose)) between :=
            (Kept.unregister fd).trans kept
          exact runs_pure ⟨taken.cursor, .inl ⟨rfl, taken.frames⟩⟩

omit moves in
theorem frames_addCloseFd (fd : Fd) {frame : Frame β} {rest : List (Frame β)}
    (top : frames w.history = frame :: rest) :
    frames (w.addCloseFd fd true).history =
      { frame with progress := .released } :: rest := by
  simp [World.addCloseFd, World.log, frames, top, advance]

/-- The callback that the end of a registration owes. -/
theorem closeCall_runs {fd : Fd} {handler : Handler β} {owner : Fd}
    {byClose : Bool} {rest : List (Frame β)} (cause : Cause)
    (base : Base rules w)
    (top : frames w.history = ⟨owner, some handler, byClose, .released⟩ :: rest)
    (same : fd = owner ∨ rules.nested ∧ fd = -1)
    (caused : cause = .event → byClose = false) :
    Runs (Step rules) (call d handler fd .close cause .none) w
      (fun _ after => Cursor rules w after ∧
        frames after.history =
          ⟨owner, some handler, byClose, .called⟩ :: rest) := by
  refine (call_runs moves .none base
    (.closeCall fd cause top rfl rfl same caused) trivial).weaken ?_
  intro _ after _ kept
  refine ⟨kept.cursor, ?_⟩
  rw [kept.frames]
  simp [World.logCall, World.log, frames, top, advance]

theorem close_runs (fd : Fd) (force : Bool) (base : Base rules w) :
    Runs (Step rules) (close d fd force) w
      (fun _ after => Kept rules w after) := by
  refine runs_get_bind ?_
  have discarded : Step rules w (w.discard fd force) := .discard fd force
  refine runs_modify_bind (.single discarded) ?_
  have base := base.step discarded
  have kept : Kept rules w (w.discard fd force) := .of_eq rfl rfl rfl rfl
  split
  · next handler found =>
      obtain ⟨callbacks, registered, closes⟩ := Option.bind_eq_some_iff.mp found
      refine runs_bind (endWatch_runs moves fd (some handler) true base ?_) ?_
      · intro entry present _
        have same : callbacks = entry := Option.some.inj (registered ▸ present)
        exact .inl ⟨rfl, by rw [← same, closes]⟩
      rintro removed between steps ⟨cursor, outcome⟩
      have base := base.steps steps
      rcases outcome with ⟨rfl, top⟩ | ⟨rfl, missing, -⟩
      · simp only [Bool.true_or, if_true]
        have released : Step rules between (between.addCloseFd fd true) :=
          .release fd top rfl (.inl rfl)
        refine runs_modify_bind (.single released) ?_
        refine runs_bind (closeCall_runs moves .close (base.step released)
          (frames_addCloseFd fd top) (.inl rfl) (by simp)) ?_
        rintro _ called - ⟨callCursor, top⟩
        have finished : Step rules called (called.log .ended) :=
          .finish top (.inl rfl)
        refine runs_modify_bind (.single finished) (runs_pure ?_)
        refine kept.trans ⟨?_, cursor.trans callCursor⟩
        simp [World.finishEnd, World.log, frames, top]
      · simp [World.discard, World.log,
          ← ExtTreeMap.isSome_getElem?_eq_contains, registered] at missing
  · next absent =>
      refine runs_bind (endWatch_runs moves fd none true base ?_) ?_
      · intro callbacks present _
        refine .inl ⟨rfl, ?_⟩
        have present : w.fds[fd]? = some callbacks := present
        rw [present] at absent
        simpa using absent.symm
      rintro removed between steps ⟨cursor, outcome⟩
      rcases outcome with ⟨rfl, top⟩ | ⟨rfl, missing, rfl⟩
      · simp only [Bool.true_or, if_true]
        have released : Step rules between (between.addCloseFd fd true) :=
          .release fd top rfl (.inl rfl)
        have finished : Step rules (between.addCloseFd fd true)
            ((between.addCloseFd fd true).log .ended) :=
          .finish (frames_addCloseFd fd top) (.inr ⟨rfl, rfl⟩)
        refine runs_modify_bind (.single released) ?_
        refine runs_modify_bind (.single finished) (runs_pure ?_)
        refine kept.trans ⟨?_, cursor⟩
        simp [World.finishEnd, World.log, frames, frames_addCloseFd fd top]
      · simp only [Bool.false_or]
        split
        · next forced =>
          have recorded : ∃ queued past, (w.discard fd force).history =
              .closing fd ((w.discard fd force).kernel.conns fd) queued true
                false ((w.discard fd force).releasing fd) :: past :=
            ⟨w.writeBuf[fd]?, w.history, by
              rw [forced]
              rw [← missing]
              rfl⟩
          refine runs_modify_bind
            (.single (.forcedRelease fd missing recorded)) ?_
          refine runs_modify_bind .refl (runs_pure ?_)
          exact kept.trans (.of_eq rfl rfl rfl rfl)
        · exact runs_modify_bind .refl (runs_pure kept)

theorem closeEach_runs (fds : List Fd) (base : Base rules w) :
    Runs (Step rules) (closeEach d fds) w
      (fun _ after => Kept rules w after) := by
  induction fds generalizing w with
  | nil => exact runs_pure (.refl w)
  | cons fd rest induction =>
      refine runs_bind (close_runs moves fd false base) ?_
      intro closed between steps kept
      split
      · refine (induction (base.steps steps)).weaken ?_
        intro _ after _ restKept
        exact kept.trans restKept
      · exact runs_throw

theorem closeAll_runs (base : Base rules w) :
    Runs (Step rules) (closeAll d) w (fun _ after => Kept rules w after) := by
  refine runs_get_bind (runs_bind (closeEach_runs moves _ base) ?_)
  intro _ between _ kept
  exact runs_pure kept

theorem settle_runs (fd : Fd) (outcome : World.Outcome) (base : Base rules w) :
    Runs (Step rules) (settle d fd outcome) w
      (fun _ after => Kept rules w after) := by
  unfold settle
  split
  · exact runs_pure (.refl w)
  · refine runs_bind (close_runs moves fd false base) ?_
    intro _ between _ kept
    exact runs_pure kept
  · exact runs_pure (.refl w)

theorem write_runs (fd : Fd) (data : Bytes) (base : Base rules w) :
    Runs (Step rules) (write d fd data) w
      (fun _ after => Kept rules w after) := by
  have requested : Step rules w ((w.logRequest fd data).submit fd data).2 :=
    .request fd data
  refine runs_modifyGet_bind (.single requested) ?_
  refine (settle_runs moves fd _ (base.step requested)).weaken ?_
  intro _ after _ kept
  exact (Kept.logRequest fd data).trans ((Kept.submit fd data).trans kept)

theorem finishWriteBuf_runs (fd : Fd) (base : Base rules w) :
    Runs (Step rules) (finishWriteBuf d fd) w
      (fun _ after => Kept rules w after) := by
  refine runs_get_bind ?_
  split
  · exact runs_pure (.refl w)
  · next queued found =>
      have flushed : Step rules w ((w.takeWriteBuf fd).submit fd queued).2 :=
        .flush fd queued found
      refine runs_modifyGet_bind (.single flushed) ?_
      refine runs_bind (settle_runs moves fd _ (base.step flushed)) ?_
      intro size between _ settled
      have taken : Kept rules w (w.takeWriteBuf fd) := .of_eq rfl rfl rfl rfl
      have kept : Kept rules w between :=
        taken.trans ((Kept.submit fd queued).trans settled)
      split
      · exact runs_pure kept
      · exact runs_pure kept

omit moves in
theorem read_runs (fd : Fd) :
    Runs (Step rules) (read fd : EM β σ Bytes) w
      (fun _ after => ∃ answers, after = w.setAnswers answers) := by
  refine runs_get_bind ?_
  split
  · exact runs_modify_bind (.single (.answers _)) (runs_pure ⟨_, rfl⟩)
  · refine runs_modify_bind (.single (.answers _)) ?_
    split
    · exact runs_pure ⟨_, rfl⟩
    · exact runs_throw

end EventManager

/-- The loop of `handle_events` is at an event that has been loaded, or a
callback has reset it. -/
def Stage (rules : Rules β σ) (w : World β σ) : Prop :=
  dispatching w.history = true ∨ rules.nested ∧ w.currentFd = -1

namespace Stage

theorem kept (stage : Stage rules w) (cursor : Cursor rules w after) :
    Stage rules after := by
  rcases cursor with ⟨loop, current, -⟩ | ⟨nested, -, current⟩
  · rcases stage with looping | ⟨nested, reset⟩
    · exact .inl (loop.trans looping)
    · exact .inr ⟨nested, current.trans reset⟩
  · exact .inr ⟨nested, current⟩

theorem loop (stage : Stage rules w) :
    dispatching w.history = true ∨ rules.nested :=
  stage.imp_right And.left

end Stage

namespace EventManager

variable {d : Dispatch β σ}

theorem unwatch_without_connect {fd : Fd} {callbacks : EventCB (Handler β)}
    (noCallback : Bool) (registered : w.fds[fd]? = some callbacks)
    (inEpoll : (w.kernel.epoll fd).isSome)
    (absent : callbacks .connect = none) :
    unwatch d fd noCallback w =
      .ok true ((w.unregister fd).2.mapUser (d.unwatched fd)) := by
  rw [unwatch_of_registered noCallback registered inEpoll]
  simp only [afterUnwatch, absent]
  rfl

theorem unwatch_exits {fd : Fd} (noCallback : Bool)
    (registered : w.fds.contains fd) (missing : w.kernel.epoll fd = none) :
    unwatch d fd noCallback w = .error .exit (w.unregister fd).2 := by
  have failed : (w.unregister fd).1 = false := by
    simp [World.unregister, missing]
  have present : w.fds[fd]?.isSome := by simpa using registered
  obtain ⟨callbacks, present⟩ := Option.isSome_iff_exists.mp present
  unfold unwatch
  rw [Stepwise.get_bind, present]
  dsimp only
  rw [Stepwise.modifyGet_bind, failed]
  rfl

end EventManager

/-- What the handling of one event leaves as it was. -/
structure Passed (rules : Rules β σ) (w after : World β σ) : Prop where
  frames : frames after.history = frames w.history
  waiting : rules.nested ∨ pending after.history = pending w.history

theorem Kept.passed (kept : Kept rules w after) : Passed rules w after :=
  ⟨kept.frames, kept.cursor.symm.imp And.left fun same => same.2.2⟩

namespace EventManager

variable {d : Dispatch β σ} (moves : Moves rules d)
include moves

theorem refused_runs {handler : Handler β} (base : Base rules w)
    (loop : dispatching w.history = true)
    (first : rules.nested ∨ frames w.history = [])
    (turn : attended w.currentFd w.history)
    (registered : w.fds.contains w.currentFd)
    (found : w.currentCb .connect = some handler) :
    Runs (Step rules)
      (do
        modify World.eraseConnect
        let w ← get
        let _ ← unwatch d w.currentFd
        modify (World.log · .refused)
        let w ← get
        call d handler w.currentFd .connect .event (.result .ng)
        return false : EM β σ Bool) w
      (fun proceed after => proceed = false ∧ Passed rules w after) := by
  have stored := w.eraseConnect_fds
  have contained : w.eraseConnect.fds.contains w.currentFd = true := by
    simp [World.eraseConnect]
  cases inEpoll : w.kernel.epoll w.currentFd with
  | none =>
      have erased : Step rules w w.eraseConnect := .eraseConnect loop registered
      have removed : Step rules w.eraseConnect
          (w.eraseConnect.unregister w.currentFd).2 :=
        .unregister w.currentFd contained (.inr inEpoll)
      have stopped : unwatch d w.currentFd false w.eraseConnect =
          .error .exit (w.eraseConnect.unregister w.currentFd).2 :=
        unwatch_exits false contained inEpoll
      refine runs_of_eq (throw .exit) (.tail (.single erased) removed) ?_
        runs_throw
      change (unwatch d w.currentFd false >>= _) w.eraseConnect = _
      exact bind_of_error stopped
  | some interest =>
      let unwatched := (w.eraseConnect.unregister w.currentFd).2.mapUser
        (d.unwatched w.currentFd)
      let told := (unwatched.log .refused).logCall handler w.currentFd .connect
        .event
      have refused : Step rules w told :=
        .refused loop first registered found _ (moves.unwatched w.currentFd)
      have reopenable : Reopenable w.currentFd told :=
        .inr (.inr ⟨turn, rfl⟩)
      have returned : unwatch d w.currentFd false w.eraseConnect =
          .ok true unwatched := by
        refine unwatch_without_connect false stored ?_ ?_
        · simp [World.eraseConnect, inEpoll]
        · simp [EventCB.erase]
      refine runs_of_eq
        (do d.invoke handler.callback w.currentFd (.result .ng); return false)
        (.single refused) (bind_of_ok returned) ?_
      refine runs_bind (moves.invoke _ (base.step refused)
        ⟨base.current loop found, fun _ => reopenable⟩) ?_
      intro _ between _ kept
      have passed : Passed rules told between := kept.passed
      exact runs_pure ⟨rfl, passed.frames, passed.waiting⟩

theorem connected_runs {handler : Handler β} (base : Base rules w)
    (loop : dispatching w.history = true)
    (registered : w.fds.contains w.currentFd)
    (found : w.currentCb .connect = some handler) :
    Runs (Step rules)
      (do
        modify World.eraseConnect
        let w ← get
        call d handler w.currentFd .connect .event (.result .ok)
        return true : EM β σ Bool) w
      (fun _ after => Kept rules w after) := by
  have connected : Step rules w
      (w.eraseConnect.logCall handler w.currentFd .connect .event) :=
    .connected loop registered found
  refine runs_of_eq
    (do d.invoke handler.callback w.currentFd (.result .ok); return true)
    (.single connected) rfl ?_
  refine runs_bind (moves.invoke (.result .ok) (base.step connected)
    (base.current loop found)) ?_
  intro _ between _ kept
  have erased : Kept rules w
      (w.eraseConnect.logCall handler w.currentFd .connect .event) :=
    .of_eq rfl rfl rfl rfl
  exact runs_pure (erased.trans kept)

theorem connectStage_runs (flags : Flags) (base : Base rules w)
    (loop : dispatching w.history = true)
    (first : rules.nested ∨ frames w.history = [])
    (turn : attended w.currentFd w.history)
    (registered : w.fds.contains w.currentFd) :
    Runs (Step rules) (connectStage d flags) w
      (fun proceed after => (proceed = true → Kept rules w after) ∧
        Passed rules w after) := by
  refine runs_get_bind ?_
  split
  · exact runs_pure ⟨fun _ => .refl w, (Kept.refl w).passed⟩
  · next handler found =>
      obtain ⟨answers, asked⟩ := w.connectSucceeded_eq flags
      have answered : Step rules w (w.setAnswers answers) := .answers answers
      have base := base.step answered
      have kept : Kept rules w (w.setAnswers answers) := .of_eq rfl rfl rfl rfl
      refine runs_modifyGet_bind (by rw [asked]; exact .single answered) ?_
      rw [asked]
      split
      · have shaken : Step rules (w.setAnswers answers)
            ((w.setAnswers answers).handshake w.currentFd).2 :=
          .handshake w.currentFd
        have base := base.step shaken
        have kept := kept.trans (Kept.handshake w.currentFd)
        refine runs_modifyGet_bind (.single shaken) ?_
        obtain ⟨connections, answers, same⟩ :=
          (w.setAnswers answers).handshake_eq w.currentFd
        refine (connected_runs moves base (by rw [same]; exact loop)
          (by rw [same]; exact registered) (by rw [same]; exact found)).weaken ?_
        intro _ after _ connected
        have kept := kept.trans connected
        exact ⟨fun _ => kept, kept.passed⟩
      · refine (refused_runs moves base loop first turn registered found).weaken ?_
        rintro proceed after - ⟨rfl, passed⟩
        exact ⟨by simp, passed.frames, passed.waiting⟩

/-- A callback for an event that has been reported. -/
theorem dispatch_runs {handler : Handler β} {event : EventType} (arg : Arg)
    (base : Base rules w) (stage : Stage rules w)
    (notConnect : event ≠ .connect) (notClose : event ≠ .close)
    (found : w.currentCb event = some handler)
    (expected : Expected rules handler.callback w.currentFd
      (w.logCall handler w.currentFd event .event) arg) :
    Runs (Step rules) (call d handler w.currentFd event .event arg) w
      (fun _ after => Kept rules w after) := by
  refine (call_runs moves arg base
    (.dispatch event stage.loop notConnect notClose found) expected).weaken ?_
  intro _ after _ kept
  exact (Kept.logCall notClose ..).trans kept

theorem readStage_runs (flags : Flags) (base : Base rules w)
    (stage : Stage rules w) :
    Runs (Step rules) (readStage d flags) w
      (fun _ after => Kept rules w after) := by
  unfold readStage
  split
  · have shaken : Step rules w (w.handshake w.currentFd).2 :=
      .handshake w.currentFd
    refine runs_modifyGet_bind (.single shaken) ?_
    have base := base.step shaken
    have kept : Kept rules w (w.handshake w.currentFd).2 := .handshake _
    have stage := stage.kept kept.cursor
    generalize (w.handshake w.currentFd).2 = ready at base kept stage ⊢
    refine runs_get_bind ?_
    split
    · next handler _ found =>
        split
        · refine runs_bind (read_runs ready.currentFd) ?_
          rintro message between steps ⟨answers, rfl⟩
          have same : Kept rules ready (ready.setAnswers answers) :=
            .of_eq rfl rfl rfl rfl
          refine (dispatch_runs moves (.message message) (base.steps steps)
            (stage.kept same.cursor) (by decide) (by decide) found
            trivial).weaken ?_
          intro _ after _ called
          exact (kept.trans same).trans called
        · refine (dispatch_runs moves .none base stage (by decide) (by decide)
            found trivial).weaken ?_
          intro _ after _ called
          exact kept.trans called
    · exact runs_pure kept
  · exact runs_pure (.refl w)

theorem writeStage_runs (flags : Flags) (base : Base rules w)
    (stage : Stage rules w) :
    Runs (Step rules) (writeStage d flags) w
      (fun _ after => Kept rules w after) := by
  unfold writeStage
  split
  · refine runs_get_bind (runs_bind
      (finishWriteBuf_runs moves w.currentFd base) ?_)
    intro done between steps kept
    split
    · refine runs_get_bind ?_
      split
      · next handler found =>
          refine (dispatch_runs moves .none (base.steps steps)
            (stage.kept kept.cursor) (by decide) (by decide) found
            trivial).weaken ?_
          intro _ after _ called
          exact kept.trans called
      · exact runs_modify (.single (.autoRewatch _ _))
          (kept.trans (.autoRewatch _ _))
    · exact runs_pure kept
  · exact runs_pure (.refl w)

theorem errorStage_runs (flags : Flags) (base : Base rules w)
    (stage : Stage rules w) :
    Runs (Step rules) (errorStage d flags) w
      (fun _ after => Kept rules w after) := by
  unfold errorStage
  split
  · refine runs_get_bind ?_
    split
    · next handler found =>
        refine runs_bind (dispatch_runs moves .none base stage (by decide)
          (by decide) found trivial) ?_
        intro _ between _ kept
        exact runs_pure kept
    · exact runs_pure (.refl w)
  · exact runs_pure (.refl w)

omit moves in
theorem stage_origin (base : Base rules w) (stage : Stage rules w)
    {handler : Option (Handler β)} (found : w.currentCb .close = handler)
    (callbacks : EventCB (Handler β))
    (_ : w.fds[w.currentFd]? = some callbacks)
    (inEpoll : (w.kernel.epoll w.currentFd).isSome) :
    (false = true ∧ handler = callbacks .close) ∨
      (false = false ∧ dispatching w.history = true ∧
        w.currentFd = w.currentFd ∧ handler = w.currentCb .close) := by
  rcases stage with loop | ⟨-, reset⟩
  · exact .inr ⟨rfl, loop, rfl, found.symm⟩
  · have opened := base.sound.openNonneg _
      (base.sound.registeredOpen _ inEpoll)
    rw [reset] at opened
    exact absurd opened (by decide)

omit moves in
theorem cursor_release (cursor : Cursor rules w after) :
    after.currentFd = w.currentFd ∨ rules.nested ∧ after.currentFd = -1 :=
  cursor.imp (fun same => same.2.1) fun reset => ⟨reset.1, reset.2.2⟩

omit moves in
/-- At the end of an event its descriptor goes to `_close_fds`. -/
theorem step_release {between : World β σ} {frame : Frame β}
    {rest : List (Frame β)} (cursor : Cursor rules w between)
    (top : frames between.history = frame :: rest)
    (progress : frame.progress = .begun) (here : frame.fd = w.currentFd)
    (event : frame.byClose = false) :
    Step rules between (between.addCloseFd between.currentFd true) :=
  .release _ top progress ((cursor_release cursor).imp
    (fun same => same.trans here.symm)
    fun reset => ⟨reset.1, event, rfl, reset.2⟩)

theorem closeStage_runs (flags : Flags) (base : Base rules w)
    (stage : Stage rules w) :
    Runs (Step rules) (closeStage d flags) w
      (fun _ after => Kept rules w after) := by
  unfold closeStage
  split
  · refine runs_get_bind ?_
    split
    · next handler found =>
        refine runs_bind (endWatch_runs moves w.currentFd (some handler) false
          base (stage_origin base stage found)) ?_
        rintro removed between steps ⟨cursor, outcome⟩
        have base := base.steps steps
        rcases outcome with ⟨rfl, top⟩ | ⟨rfl, missing, rfl⟩
        · simp only [if_true]
          refine runs_get_bind ?_
          have released := step_release cursor top rfl rfl rfl
          refine runs_modify_bind (.single released) ?_
          refine runs_bind (closeCall_runs moves .event (base.step released)
            (frames_addCloseFd _ top) (cursor_release cursor)
            (fun _ => rfl)) ?_
          rintro _ called - ⟨callCursor, top⟩
          have finished : Step rules called (called.log .ended) :=
            .finish top (.inl rfl)
          refine runs_modify (.single finished) ⟨?_, cursor.trans callCursor⟩
          simp [World.finishEnd, World.log, frames, top]
        · exact runs_modify .refl (.refl _)
    · next found =>
        refine runs_bind (endWatch_runs moves w.currentFd none false
          base (stage_origin base stage found)) ?_
        rintro removed between steps ⟨cursor, outcome⟩
        rcases outcome with ⟨rfl, top⟩ | ⟨rfl, missing, rfl⟩
        · simp only [if_true]
          refine runs_get_bind ?_
          have released := step_release cursor top rfl rfl rfl
          refine runs_modify_bind (.single released) ?_
          have top := frames_addCloseFd between.currentFd top
          refine runs_modify (.single (.finish top (.inr ⟨rfl, rfl⟩)))
            ⟨?_, cursor⟩
          simp [World.finishEnd, World.log, frames, top]
        · exact runs_modify .refl (.refl _)
  · exact runs_pure (.refl w)

omit moves in
theorem handleEvent_of_registered {fd : Fd} {callbacks : EventCB (Handler β)}
    (flags : Flags) (registered : w.fds[fd]? = some callbacks) :
    handleEvent d fd flags w =
      (do
        let proceed ← connectStage d flags
        if proceed then
          readStage d flags
          writeStage d flags
          let flags ← errorStage d flags
          closeStage d flags
        else pure () : EM β σ Unit) ((w.enter fd).loadCb callbacks) := by
  have entered : (w.enter fd).fds[fd]? = some callbacks := registered
  unfold handleEvent
  rw [Stepwise.modify_bind, Stepwise.get_bind, entered]
  rfl

theorem handleEvent_runs (fd : Fd) (flags : Flags) (base : Base rules w)
    (inside : Inside w) (loop : rules.nested ∨
      frames w.history = [] ∧ fd ∈ pending w.history) :
    Runs (Step rules) (handleEvent d fd flags) w
      (fun _ after => Passed rules (w.enter fd) after) := by
  cases registered : w.fds[fd]? with
  | none =>
      have missing : w.fds.contains fd = false := by
        simp [← ExtTreeMap.isSome_getElem?_eq_contains, registered]
      refine runs_modify_bind (.single (.skip fd loop inside missing)) ?_
      refine runs_get_bind ?_
      have absent : (w.enter fd).fds[fd]? = none := registered
      rw [absent]
      exact runs_pure ⟨rfl, .inr rfl⟩
  | some callbacks =>
      have contained : w.fds.contains fd = true := by
        simp [← ExtTreeMap.isSome_getElem?_eq_contains, registered]
      have loaded : Step rules w ((w.enter fd).loadCb callbacks) :=
        .load fd callbacks loop inside registered
      have base := base.step loaded
      have first : rules.nested ∨
          frames ((w.enter fd).loadCb callbacks).history = [] :=
        loop.imp_right And.left
      have loop : dispatching ((w.enter fd).loadCb callbacks).history = true :=
        contained
      have turn : attended fd ((w.enter fd).loadCb callbacks).history := by
        simp [World.enter, World.loadCb, World.log, attended, sinceBatch]
      refine runs_of_eq _ (.single loaded)
        (handleEvent_of_registered flags registered) ?_
      refine runs_bind
        (connectStage_runs moves flags base loop first turn contained) ?_
      rintro proceed connected steps ⟨kept, passed⟩
      have base := base.steps steps
      split
      · next proceeds =>
          have kept := kept proceeds
          have stage : Stage rules connected :=
            Stage.kept (.inl loop) kept.cursor
          refine runs_bind (readStage_runs moves flags base stage) ?_
          intro _ wasRead steps readKept
          have kept := kept.trans readKept
          have stage := stage.kept readKept.cursor
          have base := base.steps steps
          refine runs_bind (writeStage_runs moves flags base stage) ?_
          intro _ written steps writeKept
          have kept := kept.trans writeKept
          have stage := stage.kept writeKept.cursor
          have base := base.steps steps
          refine runs_bind (errorStage_runs moves flags base stage) ?_
          intro flags failed steps errorKept
          have kept := kept.trans errorKept
          have stage := stage.kept errorKept.cursor
          refine (closeStage_runs moves flags (base.steps steps) stage).weaken ?_
          intro _ after _ closeKept
          have passed := (kept.trans closeKept).passed
          exact ⟨passed.frames, passed.waiting⟩
      · exact runs_pure ⟨passed.frames, passed.waiting⟩

omit moves in
theorem inside_steps (inside : Inside w)
    (steps : ReflTransGen (Step rules) w after)
    (kept : frames after.history = frames w.history) : Inside after := by
  obtain ⟨conns, epoll, reported, past, recorded, same⟩ := inside
  exact ⟨conns, epoll, reported, past, recorded.trans (suffix_of_steps steps),
    same.trans kept.symm⟩

theorem handleEach_runs (events : List (Fd × Flags)) (base : Base rules w)
    (inside : Inside w) (loop : rules.nested ∨ frames w.history = [] ∧
      pending w.history = events.map Prod.fst) :
    Runs (Step rules) (handleEach d events) w
      (fun _ after => frames after.history = frames w.history) := by
  induction events generalizing w with
  | nil => exact runs_pure rfl
  | cons event rest induction =>
      obtain ⟨fd, flags⟩ := event
      refine runs_bind (handleEvent_runs moves fd flags base inside ?_) ?_
      · exact loop.imp_right fun ⟨top, waiting⟩ => ⟨top, by simp [waiting]⟩
      intro _ between steps passed
      have kept : frames between.history = frames w.history := passed.frames
      have loop : rules.nested ∨ frames between.history = [] ∧
          pending between.history = rest.map Prod.fst := by
        rcases loop with nested | ⟨top, waiting⟩
        · exact .inl nested
        · refine passed.waiting.imp_right fun same => ⟨kept.trans top, ?_⟩
          simp [same, World.enter, World.log, pending, waiting]
      refine (induction (base.steps steps) (inside_steps inside steps kept)
        loop).weaken ?_
      intro _ after _ restKept
      exact restKept.trans kept

omit moves in
theorem flushCloseFds_steps (list : List Fd) (listed : w.closeFds = list)
    (loop : rules.nested ∨
      dispatching w.history = false ∧ frames w.history = [] ∧
        pending w.history = []) :
    ReflTransGen (Step rules) w (w.flushCloseFds list) := by
  induction list generalizing w with
  | nil =>
      have same : w.flushCloseFds [] = w := by
        simp [World.flushCloseFds, ← listed]
      rw [same]
  | cons fd rest induction =>
      exact .head (.sysClose fd rest loop listed) (induction rfl loop)

omit moves in
theorem flushCloseFds_kept (list : List Fd) :
    frames (w.flushCloseFds list).history = frames w.history ∧
      dispatching (w.flushCloseFds list).history = dispatching w.history ∧
      (w.flushCloseFds list).currentFd = w.currentFd := by
  induction list generalizing w with
  | nil => exact ⟨rfl, rfl, rfl⟩
  | cons fd rest induction => exact induction

theorem handleEvents_runs (waited : Waited) (base : Base rules w)
    (loop : rules.nested ∨
      dispatching w.history = false ∧ frames w.history = []) :
    Runs (Step rules) (handleEvents d waited) w
      (fun _ after => frames after.history = frames w.history ∧
        (dispatching after.history = dispatching w.history ∧
            after.currentFd = w.currentFd ∧
            pending after.history = pending w.history ∨
          dispatching after.history = false ∧ after.currentFd = -1)) := by
  cases waited with
  | failed => exact runs_throw
  | interrupted =>
      exact runs_modify (.single (.handled loop)) ⟨rfl, .inl ⟨rfl, rfl, rfl⟩⟩
  | events events =>
      refine runs_modify_bind (.single (.batch _ loop)) ?_
      have base := base.step (.batch (events.map Prod.fst) loop)
      have inside : Inside (w.logBatch (events.map Prod.fst)) :=
        ⟨_, _, _, w.history, List.suffix_rfl, rfl⟩
      refine runs_bind (handleEach_runs moves events base inside
        (loop.imp_right fun top => ⟨top.2, rfl⟩)) ?_
      intro _ between steps kept
      have inside := inside_steps inside steps kept
      have loop : rules.nested ∨ frames between.history = [] :=
        loop.imp_right fun top => kept.trans top.2
      refine runs_modify_bind (.single (.leave loop inside)) ?_
      have loop : rules.nested ∨ dispatching between.leave.history = false ∧
          frames between.leave.history = [] :=
        loop.imp_right fun top => ⟨rfl, top⟩
      have flushed : ReflTransGen (Step rules) between.leave
          (between.leave.flushCloseFds between.leave.closeFds) :=
        flushCloseFds_steps _ rfl
          (loop.imp_right fun top => ⟨top.1, top.2, rfl⟩)
      have flushKept := flushCloseFds_kept between.leave.closeFds
        (w := between.leave)
      refine runs_modify_bind flushed (runs_modify (.single (.handled ?_)) ?_)
      · rw [flushKept.1, flushKept.2.1]
        exact loop
      · exact ⟨flushKept.1.trans kept, .inr ⟨flushKept.2.1, flushKept.2.2⟩⟩

end EventManager

end Universe
