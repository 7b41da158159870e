import Universe.Client.Attempt

/-!
# The life of an attempt

`Life` follows the placeholder from one event that is reported for it to the
next, whatever else happens in between.  In the end the lambda is gone and the
caller has been told once, with the verdict on the addresses.
-/

namespace Universe

open Relation (ReflTransGen)
open Stepwise

variable {κ σ : Type}

namespace Client

/-- Whatever else has happened, the placeholder is as it was. -/
structure Alike (heard : σ → List (Fd × ConnectResult)) (s : Fd)
    (w after : World (ClientCB κ) σ) : Prop where
  fds : after.fds[s]? = w.fds[s]?
  conns : after.kernel.conns s = w.kernel.conns s
  epoll : after.kernel.epoll s = w.kernel.epoll s
  heard : heard after.user = heard w.user

/-- The rest of the life of an attempt, from one event for the placeholder to
the next.  The list says how the addresses come out that are still awaited. -/
inductive Life (app : App (ClientCB κ) σ)
    (heard : σ → List (Fd × ConnectResult)) (needs : Nat) (s : Fd) :
    List Ending → World (ClientCB κ) σ → World (ClientCB κ) σ → Prop where
  | settled (w) : Life app heard needs s [] w w
  | reported {w before last flags connected rest} (depth : Nat)
      (deep : needs + rest.length < depth)
      (meanwhile : Alike heard s w before)
      (supplied : Supplied before.kernel rest)
      (answer : (before.connectSucceeded flags).1 = connected)
      (later : Life app heard needs s
        (if connected then [] else awaited rest)
        (final (EventManager.handleEvent (app.dispatch depth) s flags before))
        last) :
      Life app heard needs s (.reported flags connected :: rest) w last
  | givenUp {w before last rest} (depth : Nat) (deep : needs < depth)
      (meanwhile : Alike heard s w before)
      (later : Life app heard needs s []
        (final (EventManager.unwatch (app.dispatch depth) s false before))
        last) :
      Life app heard needs s (.givenUp :: rest) w last

section Silent

variable {heard : σ → List (Fd × ConnectResult)} {s : Fd}
  {w middle after : World (ClientCB κ) σ}

theorem Silent.refl (w : World (ClientCB κ) σ) : Silent heard s w w :=
  ⟨.refl w, rfl⟩

theorem Silent.trans (first : Silent heard s w middle)
    (second : Silent heard s middle after) : Silent heard s w after :=
  ⟨first.toSpares.trans second.toSpares, second.heard.trans first.heard⟩

/-- A change of members that have nothing to do with callbacks. -/
theorem Silent.of_eq (currentFd : after.currentFd = w.currentFd)
    (currentCb : after.currentCb = w.currentCb)
    (callbacksAt : after.callbacksAt = w.callbacksAt)
    (user : after.user = w.user) : Silent heard s w after := by
  refine ⟨⟨currentFd, ?_, ?_⟩, by rw [user]⟩
  · rw [currentCb]
    exact id
  · rw [callbacksAt]
    exact id

end Silent

/-- The `CONNECT` callback is taken out before it is called. -/
theorem eraseConnect_slot (w : World (ClientCB κ) σ) :
    w.eraseConnect.currentCb .connect = none ∧
      w.eraseConnect.callbacksAt w.currentFd .connect = none := by
  constructor
  · simp [World.eraseConnect, EventCB.erase]
  · rw [World.callbacksAt, w.eraseConnect_fds]
    simp [EventCB.erase]

theorem connectSucceeded_supplied {w : World (ClientCB κ) σ} (flags : Flags)
    {endings : List Ending} (supplied : Supplied w.kernel endings) :
    Supplied (w.connectSucceeded flags).2.kernel endings := by
  unfold World.connectSucceeded
  split
  · exact supplied
  · split
    · split
      · exact supplied
      · exact ⟨supplied.connects, supplied.enough, supplied.free⟩
    · exact supplied

/-- The event that is being handled is one for the placeholder, and no
`CONNECT` callback is stored there any more. -/
structure Quiet (s : Fd) (w : World (ClientCB κ) σ) : Prop where
  here : w.currentFd = s
  current : w.currentCb .connect = none
  slot : w.callbacksAt s .connect = none

section Quiet

variable {heard : σ → List (Fd × ConnectResult)} {s : Fd}
  {w after : World (ClientCB κ) σ}

theorem Silent.of_steps
    (steps : ReflTransGen (Silent heard s) w after) :
    Silent heard s w after := by
  induction steps with
  | refl => exact .refl w
  | tail _ last induction => exact induction.trans last

theorem Quiet.kept (quiet : Quiet s w)
    (steps : ReflTransGen (Silent heard s) w after) : Quiet s after := by
  have silent := Silent.of_steps steps
  constructor
  · exact silent.currentFd.trans quiet.here
  · exact silent.currentCb quiet.current
  · exact silent.slot quiet.slot

theorem silent_submit (fd : Fd) (data : Bytes) :
    Silent heard s w (w.submit fd data).2 := by
  have submitted := World.submit_submitted w fd data
  exact .of_eq submitted.currentFd submitted.currentCb submitted.callbacksAt
    (World.submit_user w fd data)

theorem silent_unregister (fd : Fd) :
    Silent heard s w (w.unregister fd).2 := by
  refine ⟨⟨?_, ?_, ?_⟩, ?_⟩
  · simp [World.unregister]
  · intro empty
    simp only [World.unregister, World.epollUpdate_currentCb]
    split
    · rfl
    · exact empty
  · intro empty
    have erased : (w.unregister fd).2.callbacksAt =
        Function.update w.callbacksAt fd EventCB.empty :=
      w.callbacksAt_of_erase fd (by simp [World.unregister])
    rw [erased]
    by_cases same : s = fd
    · rw [same, Function.update_self]
      rfl
    · rw [Function.update_of_ne same]
      exact empty
  · simp [World.unregister]

theorem silent_autoRewatch (fd : Fd) (et : Bool) :
    Silent heard s w (w.autoRewatch fd et).2 := by
  have submitted := World.autoRewatch_submitted w fd et
  refine .of_eq submitted.currentFd submitted.currentCb submitted.callbacksAt ?_
  simp [World.autoRewatch]

theorem silent_handshake (fd : Fd) :
    Silent heard s w (w.handshake fd).2 := by
  obtain ⟨connections, answers, shaken⟩ := w.handshake_eq fd
  rw [shaken]
  exact .of_eq rfl rfl rfl rfl

theorem silent_finishEnd (ended : Bool) :
    Silent heard s w (w.finishEnd ended) := by
  unfold World.finishEnd
  split
  · exact .of_eq rfl rfl rfl rfl
  · exact .refl w

theorem silent_addCloseFd (fd : Fd) (own : Bool) :
    Silent heard s w (w.addCloseFd fd own) := .of_eq rfl rfl rfl rfl

theorem dispatch_unwatched
    (body : κ → Fd → Arg → World (ClientCB κ) σ → ClientProgram κ σ)
    (wantMessage : κ → Bool) (unwatched : Fd → σ → σ) (depth : Nat) :
    ((app body wantMessage unwatched).dispatch depth).unwatched =
      unwatched := by
  cases depth <;> rfl

variable {body : κ → Fd → Arg → World (ClientCB κ) σ → ClientProgram κ σ}
  {wantMessage : κ → Bool} {unwatched : Fd → σ → σ} {callback : κ}
  {needs depth : Nat}
  (listens : Listens (app body wantMessage unwatched) callback heard needs s)
include listens

/-- Callbacks for other events than `CONNECT`. -/
theorem invoke_silent (stored : ClientCB κ) (fd : Fd) {arg : Arg}
    (other : ∀ outcome, arg ≠ .result outcome) :
    Runs (Silent heard s)
      (((app body wantMessage unwatched).dispatch depth).invoke stored fd arg) w
      (fun _ _ => True) := by
  cases stored with
  | user own =>
      exact ⟨.single (listens.others depth own fd arg w other),
        fun _ => trivial⟩
  | address | host =>
      cases depth with
      | zero => exact runs_throw
      | succ depth =>
          cases arg with
          | result outcome => exact absurd rfl (other outcome)
          | none | message => exact runs_throw

theorem call_silent (handler : Handler (ClientCB κ)) (fd : Fd)
    (event : EventType) (cause : Cause) {arg : Arg}
    (other : ∀ outcome, arg ≠ .result outcome) :
    Runs (Silent heard s) (EventManager.call
      ((app body wantMessage unwatched).dispatch depth) handler fd event cause
        arg) w (fun _ _ => True) :=
  runs_modify_bind (.single (.of_eq rfl rfl rfl rfl))
    (invoke_silent listens handler.callback fd other)

theorem unwatch_silent (quiet : Quiet s w) (noCallback : Bool) :
    Runs (Silent heard s) (EventManager.unwatch
      ((app body wantMessage unwatched).dispatch depth) s noCallback) w
      (fun _ _ => True) := by
  refine runs_get_bind ?_
  split
  · exact runs_pure trivial
  · next handlers registered =>
      have absent : handlers .connect = none := by
        have slot := quiet.slot
        rw [World.callbacksAt, registered] at slot
        exact slot
      refine runs_modifyGet_bind (.single (silent_unregister s)) ?_
      split
      · have told : EventManager.afterUnwatch
            ((app body wantMessage unwatched).dispatch depth) s handlers
            noCallback = (modify (World.mapUser · (unwatched s)) :
              EM (ClientCB κ) σ PUnit) := by
          unfold EventManager.afterUnwatch
          rw [absent, dispatch_unwatched]
        rw [told]
        have hooked : Silent heard s (w.unregister s).2
            ((w.unregister s).2.mapUser (unwatched s)) :=
          ⟨⟨rfl, id, id⟩, listens.unwatched _ _⟩
        exact runs_modify_bind (.single hooked) (runs_pure trivial)
      · exact runs_throw

theorem endWatch_silent (quiet : Quiet s w)
    (handler : Option (Handler (ClientCB κ))) (byClose : Bool) :
    Runs (Silent heard s) (EventManager.endWatch
      ((app body wantMessage unwatched).dispatch depth) s handler byClose) w
      (fun _ _ => True) := by
  have begins : Silent heard s w (w.beginEnd s handler byClose) := by
    unfold World.beginEnd
    split
    · exact .of_eq rfl rfl rfl rfl
    · exact .refl w
  exact runs_modify_bind (.single begins)
    (unwatch_silent listens (quiet.kept (.single begins)) false)

theorem close_silent (quiet : Quiet s w) (force : Bool) :
    Runs (Silent heard s) (EventManager.close
      ((app body wantMessage unwatched).dispatch depth) s force) w
      (fun _ _ => True) := by
  have discards : Silent heard s w (w.discard s force) :=
    .of_eq rfl rfl rfl rfl
  have quiet := quiet.kept (.single discards)
  refine runs_get_bind (runs_modify_bind (.single discards) ?_)
  split
  · next handler found =>
      refine runs_bind (endWatch_silent listens quiet (some handler) true) ?_
      intro ret between _ _
      have finishes : ∀ released : World (ClientCB κ) σ,
          Runs (Silent heard s)
            (do
              EventManager.call
                ((app body wantMessage unwatched).dispatch depth) handler s
                .close .close .none
              modify (World.finishEnd · ret)
              return ret : EM (ClientCB κ) σ Bool) released
            (fun _ _ => True) := by
        intro released
        refine runs_bind (call_silent listens handler s .close .close
          (fun _ => nofun)) ?_
        intro _ called _ _
        exact runs_modify_bind (.single (silent_finishEnd ret))
          (runs_pure trivial)
      split
      · exact runs_modify_bind (.single (silent_addCloseFd s ret))
          (finishes _)
      · exact finishes between
  · refine runs_bind (endWatch_silent listens quiet none true) ?_
    intro ret between _ _
    have finishes : ∀ released : World (ClientCB κ) σ,
        Runs (Silent heard s)
          (do
            modify (World.finishEnd · ret)
            return true : EM (ClientCB κ) σ Bool) released
          (fun _ _ => True) :=
      fun _ => runs_modify_bind (.single (silent_finishEnd ret))
        (runs_pure trivial)
    split
    · exact runs_modify_bind (.single (silent_addCloseFd s ret)) (finishes _)
    · exact finishes between

theorem settle_silent (quiet : Quiet s w) (outcome : World.Outcome) :
    Runs (Silent heard s) (EventManager.settle
      ((app body wantMessage unwatched).dispatch depth) s outcome) w
      (fun _ _ => True) := by
  unfold EventManager.settle
  split
  · exact runs_pure trivial
  · refine runs_bind (close_silent listens quiet false) ?_
    intro _ between _ _
    exact runs_pure trivial
  · exact runs_pure trivial

theorem finishWriteBuf_silent (quiet : Quiet s w) :
    Runs (Silent heard s) (EventManager.finishWriteBuf
      ((app body wantMessage unwatched).dispatch depth) s) w
      (fun _ _ => True) := by
  refine runs_get_bind ?_
  split
  · exact runs_pure trivial
  · next queued found =>
      have taken : Silent heard s w (w.takeWriteBuf s) := .of_eq rfl rfl rfl rfl
      have flushed : ReflTransGen (Silent heard s) w
          ((w.takeWriteBuf s).submit s queued).2 :=
        .single (taken.trans (silent_submit s queued))
      refine runs_modifyGet_bind flushed ?_
      refine runs_bind (settle_silent listens (quiet.kept flushed) _) ?_
      intro size between _ _
      split
      · exact runs_pure trivial
      · exact runs_pure trivial

omit listens in
theorem read_silent (fd : Fd) :
    Runs (Silent heard s) (EventManager.read fd : EM (ClientCB κ) σ Bytes) w
      (fun _ _ => True) := by
  have answered : ∀ answers, Silent heard s w (w.setAnswers answers) :=
    fun _ => .of_eq rfl rfl rfl rfl
  refine runs_get_bind ?_
  split
  · exact runs_modify_bind (.single (answered _)) (runs_pure trivial)
  · refine runs_modify_bind (.single (answered _)) ?_
    split
    · exact runs_pure trivial
    · exact runs_throw

theorem readStage_silent (flags : Flags) :
    Runs (Silent heard s) (EventManager.readStage
      ((app body wantMessage unwatched).dispatch depth) flags) w
      (fun _ _ => True) := by
  unfold EventManager.readStage
  split
  · refine runs_modifyGet_bind (.single (silent_handshake w.currentFd)) ?_
    refine runs_get_bind ?_
    split
    · next handler _ found =>
        split
        · refine runs_bind (read_silent _) ?_
          intro message between _ _
          exact call_silent listens handler _ .read .event (fun _ => nofun)
        · exact call_silent listens handler _ .read .event (fun _ => nofun)
    · exact runs_pure trivial
  · exact runs_pure trivial

theorem writeStage_silent (quiet : Quiet s w) (flags : Flags) :
    Runs (Silent heard s) (EventManager.writeStage
      ((app body wantMessage unwatched).dispatch depth) flags) w
      (fun _ _ => True) := by
  unfold EventManager.writeStage
  split
  · refine runs_get_bind ?_
    rw [quiet.here]
    refine runs_bind (finishWriteBuf_silent listens quiet) ?_
    intro done between _ _
    split
    · refine runs_get_bind ?_
      split
      · next handler found =>
          exact call_silent listens handler _ .write .event (fun _ => nofun)
      · exact runs_modify (.single (silent_autoRewatch _ _)) trivial
    · exact runs_pure trivial
  · exact runs_pure trivial

theorem errorStage_silent (flags : Flags) :
    Runs (Silent heard s) (EventManager.errorStage
      ((app body wantMessage unwatched).dispatch depth) flags) w
      (fun _ _ => True) := by
  unfold EventManager.errorStage
  split
  · refine runs_get_bind ?_
    split
    · next handler found =>
        refine runs_bind
          (call_silent listens handler _ .error .event (fun _ => nofun)) ?_
        intro _ between _ _
        exact runs_pure trivial
    · exact runs_pure trivial
  · exact runs_pure trivial

theorem closeStage_silent (quiet : Quiet s w) (flags : Flags) :
    Runs (Silent heard s) (EventManager.closeStage
      ((app body wantMessage unwatched).dispatch depth) flags) w
      (fun _ _ => True) := by
  unfold EventManager.closeStage
  split
  · refine runs_get_bind ?_
    rw [quiet.here]
    split
    · next handler found =>
        refine runs_bind (endWatch_silent listens quiet (some handler) false) ?_
        intro removed between _ _
        split
        · refine runs_get_bind ?_
          refine runs_modify_bind (.single (silent_addCloseFd _ true)) ?_
          refine runs_bind
            (call_silent listens handler _ .close .event (fun _ => nofun)) ?_
          intro _ called _ _
          exact runs_modify (.single (silent_finishEnd removed)) trivial
        · exact runs_modify (.single (silent_finishEnd removed)) trivial
    · refine runs_bind (endWatch_silent listens quiet none false) ?_
      intro removed between _ _
      split
      · refine runs_get_bind ?_
        refine runs_modify_bind (.single (silent_addCloseFd _ true)) ?_
        exact runs_modify (.single (silent_finishEnd removed)) trivial
      · exact runs_modify (.single (silent_finishEnd removed)) trivial
  · exact runs_pure trivial

variable (depth) in
/-- What is left of the event once the connect has succeeded. -/
theorem stages_silent (quiet : Quiet s w) (flags : Flags) :
    Runs (Silent heard s)
      (do
        EventManager.readStage
          ((app body wantMessage unwatched).dispatch depth) flags
        EventManager.writeStage
          ((app body wantMessage unwatched).dispatch depth) flags
        let flags ← EventManager.errorStage
          ((app body wantMessage unwatched).dispatch depth) flags
        EventManager.closeStage
          ((app body wantMessage unwatched).dispatch depth) flags) w
      (fun _ _ => True) := by
  refine runs_bind (readStage_silent listens flags) ?_
  intro _ wasRead readSteps _
  have quiet := quiet.kept readSteps
  refine runs_bind (writeStage_silent listens quiet flags) ?_
  intro _ written writeSteps _
  have quiet := quiet.kept writeSteps
  refine runs_bind (errorStage_silent listens flags) ?_
  intro flags failed errorSteps _
  exact closeStage_silent listens (quiet.kept errorSteps) flags

end Quiet

theorem connectSucceeded_loaded (w : World (ClientCB κ) σ)
    (handlers : EventCB (Handler (ClientCB κ))) (fd : Fd) (flags : Flags) :
    (((w.enter fd).loadCb handlers).connectSucceeded flags).1 =
      (w.connectSucceeded flags).1 := by
  have same : ((w.enter fd).loadCb handlers).kernel = w.kernel := rfl
  unfold World.connectSucceeded
  rw [same]
  split
  · rfl
  · split
    · cases w.kernel.answers.soErrors <;> rfl
    · rfl

/-- What `handle_events` does about a connect that has failed, up to the call
of the callback. -/
def refuse (w : World (ClientCB κ) σ) (unwatched : σ → σ)
    (handler : Handler (ClientCB κ)) : World (ClientCB κ) σ :=
  (((w.eraseConnect.unregister w.currentFd).2.mapUser unwatched).log
    .refused).logCall handler w.currentFd .connect .event

section Refuse

variable {w : World (ClientCB κ) σ} (unwatched : σ → σ)
  (handler : Handler (ClientCB κ))

theorem refuse_kernel :
    (refuse w unwatched handler).kernel.conns = w.kernel.conns ∧
      (refuse w unwatched handler).kernel.answers = w.kernel.answers := by
  constructor
  · simp [refuse, World.logCall, World.log, World.mapUser,
      World.unregister, World.eraseConnect]
  · simp [refuse, World.logCall, World.log, World.mapUser,
      World.unregister, World.eraseConnect]

theorem refuse_placed (nonneg : 0 ≤ w.currentFd)
    (opened : (w.kernel.conns w.currentFd).isSome) :
    Placed w.currentFd (refuse w unwatched handler) := by
  refine ⟨nonneg, ?_, ?_⟩
  · rw [(refuse_kernel unwatched handler).1]
    exact opened
  · simp [refuse, World.logCall, World.log, World.mapUser,
      World.unregister]

theorem refuse_supplied {rest : List Ending}
    (supplied : Supplied w.kernel rest) :
    Supplied (refuse w unwatched handler).kernel rest := by
  obtain ⟨conns, answers⟩ := refuse_kernel (w := w) unwatched handler
  refine ⟨?_, ?_, ?_⟩
  · rw [answers]
    exact supplied.connects
  · rw [answers]
    exact supplied.enough
  · rw [answers]
    intro number member
    have free := supplied.free number member
    refine ⟨free.1, ?_⟩
    rw [conns]
    exact free.2

theorem unwatch_erased (d : Dispatch (ClientCB κ) σ) (w : World (ClientCB κ) σ)
    (inEpoll : (w.kernel.epoll w.currentFd).isSome) :
    EventManager.unwatch d w.currentFd false w.eraseConnect = .ok true
      ((w.eraseConnect.unregister w.currentFd).2.mapUser
        (d.unwatched w.currentFd)) := by
  refine EventManager.unwatch_without_connect false w.eraseConnect_fds
    inEpoll ?_
  simp [EventCB.erase]

end Refuse

section Living

variable {body : κ → Fd → Arg → World (ClientCB κ) σ → ClientProgram κ σ}
  {wantMessage : κ → Bool} {unwatched : Fd → σ → σ} {callback : κ}
  {heard : σ → List (Fd × ConnectResult)} {needs depth : Nat} {s : Fd}
  (listens : Listens (app body wantMessage unwatched) callback heard needs s)
  {callbacks : EventCB κ} (found : callbacks .connect = some callback)
  {before : List (Fd × ConnectResult)} {outcome : ConnectResult}
  {rest : List Ending} {w middle last : World (ClientCB κ) σ}
include listens found

/-- The connect that was under way has succeeded. -/
theorem connectStage_connected {handler : Handler (ClientCB κ)}
    {later : List Address} {flags : Flags} (deep : needs < depth)
    (here : w.currentFd = s) (slot : w.currentCb .connect = some handler)
    (lambda : handler.callback = .host callbacks later s)
    (answer : (w.connectSucceeded flags).1 = true) :
    ∃ after, EventManager.connectStage
        ((app body wantMessage unwatched).dispatch depth) flags w =
          .ok true after ∧
      heard after.user = heard w.user ++ [(s, .ok)] ∧
      after.currentFd = s ∧ after.currentCb .connect = none ∧
      after.callbacksAt s .connect = none := by
  obtain ⟨nesting, rfl⟩ : ∃ nesting, depth = nesting + 1 :=
    ⟨depth - 1, by omega⟩
  have shallow : needs ≤ nesting := Nat.le_of_lt_succ deep
  have invokes : ((app body wantMessage unwatched).dispatch
      (nesting + 1)).invoke handler.callback s (.result .ok) =
      hostConnected ((app body wantMessage unwatched).dispatch nesting)
        callbacks later s s .ok := by
    rw [lambda]
    rfl
  subst here
  obtain ⟨answers, asked⟩ := w.connectSucceeded_eq flags
  obtain ⟨connections, more, shaken⟩ :=
    (w.setAnswers answers).handshake_eq w.currentFd
  obtain ⟨shook, same⟩ : ∃ shook, shook =
      ((w.setAnswers answers).handshake w.currentFd).2 := ⟨_, rfl⟩
  have comes : EventManager.connectStage
      ((app body wantMessage unwatched).dispatch (nesting + 1)) flags w =
      (do
        EventManager.call ((app body wantMessage unwatched).dispatch
          (nesting + 1)) handler shook.currentFd .connect .event (.result .ok)
        return true : EM (ClientCB κ) σ Bool) shook.eraseConnect := by
    rw [same]
    unfold EventManager.connectStage
    simp only [get_bind, slot, modifyGet_bind, answer, asked, if_true]
    rfl
  rw [shaken] at same
  have current : shook.currentFd = w.currentFd := by
    rw [same]
    rfl
  have user : shook.user = w.user := by
    rw [same]
    rfl
  obtain ⟨after, returned, once, -, spares⟩ := hostConnected_told listens found
    shallow (w := shook.eraseConnect.logCall handler w.currentFd .connect
      .event) later w.currentFd
  obtain ⟨noCurrent, noSlot⟩ := eraseConnect_slot shook
  rw [current] at noSlot
  refine ⟨after, ?_, ?_, ?_, spares.currentCb noCurrent, spares.slot noSlot⟩
  · rw [comes, current]
    unfold EventManager.call
    rw [invokes]
    exact bind_of_ok returned
  · rw [once, ← user]
    rfl
  · rw [spares.currentFd, ← current]
    rfl

/-- The connect that was under way has failed. -/
theorem connectStage_refused {handler : Handler (ClientCB κ)}
    {later : List Address} {flags : Flags} (nonneg : 0 ≤ s)
    (deep : needs + rest.length < depth)
    (here : w.currentFd = s) (slot : w.currentCb .connect = some handler)
    (lambda : handler.callback = .host callbacks later s)
    (opened : (w.kernel.conns s).isSome) (inEpoll : (w.kernel.epoll s).isSome)
    (left : rest.length = later.length) (supplied : Supplied w.kernel rest)
    (answer : (w.connectSucceeded flags).1 = false) :
    ∃ after, EventManager.connectStage
        ((app body wantMessage unwatched).dispatch depth) flags w =
          .ok false after ∧
      Advanced callbacks heard s rest w after := by
  obtain ⟨nesting, rfl⟩ : ∃ nesting, depth = nesting + 1 :=
    ⟨depth - 1, by omega⟩
  have enough : needs + rest.length ≤ nesting := Nat.le_of_lt_succ deep
  have shallow : needs ≤ nesting := by omega
  have invokes : ((app body wantMessage unwatched).dispatch
      (nesting + 1)).invoke handler.callback s (.result .ng) =
      hostConnected ((app body wantMessage unwatched).dispatch nesting)
        callbacks later s s .ng := by
    rw [lambda]
    rfl
  subst here
  have suppliedYet := connectSucceeded_supplied flags supplied
  obtain ⟨answers, asked⟩ := w.connectSucceeded_eq flags
  rw [asked] at suppliedYet
  have comes : EventManager.connectStage
      ((app body wantMessage unwatched).dispatch (nesting + 1)) flags w =
      (do
        ((app body wantMessage unwatched).dispatch (nesting + 1)).invoke
          handler.callback w.currentFd (.result .ng)
        return false : EM (ClientCB κ) σ Bool)
      (refuse (w.setAnswers answers) (unwatched w.currentFd) handler) := by
    unfold EventManager.connectStage
    simp only [get_bind, slot, modifyGet_bind, answer, asked]
    exact bind_of_ok (unwatch_erased ((app body wantMessage
      unwatched).dispatch (nesting + 1)) (w.setAnswers answers) inEpoll)
  have user : heard (refuse (w.setAnswers answers) (unwatched w.currentFd)
      handler).user = heard w.user := listens.unwatched w.currentFd w.user
  have placed := refuse_placed (unwatched w.currentFd) handler
    (w := w.setAnswers answers) nonneg opened
  have suppliedStill := refuse_supplied (unwatched w.currentFd) handler
    suppliedYet
  obtain ⟨after, returned, advanced⟩ := hostConnected_refused listens found
    rest left shallow placed (by
      intro address others isNext
      rw [isNext] at left
      exact connectOn_tries listens found rest left enough placed
        suppliedStill)
  have standing := advanced.standing
  rw [user] at standing
  refine ⟨after, ?_, standing, advanced.opened⟩
  rw [comes, invokes]
  exact bind_of_ok returned

/-- An event for the placeholder while it waits. -/
theorem handleEvent_standing {flags : Flags} {connected : Bool}
    (nonneg : 0 ≤ s) (deep : needs + rest.length < depth)
    (standing : Standing callbacks heard s before outcome
      (.reported flags connected :: rest) w)
    (meanwhile : Alike heard s w middle)
    (supplied : Supplied middle.kernel rest)
    (answer : (middle.connectSucceeded flags).1 = connected) :
    Standing callbacks heard s before outcome
      (if connected then [] else awaited rest)
      (final (EventManager.handleEvent
        ((app body wantMessage unwatched).dispatch depth) s flags middle)) := by
  cases standing with
  | @waiting _ handlers handler later _ _ opened registered stored slot lambda
      left coming nothing =>
      have stored := meanwhile.fds.trans stored
      rw [← meanwhile.conns] at opened
      rw [← meanwhile.epoll] at registered
      have silentYet := meanwhile.heard.trans nothing
      have answered := (connectSucceeded_loaded middle handlers s flags).trans
        answer
      have shallow : needs < depth := by omega
      rw [EventManager.handleEvent_of_registered flags stored, coming]
      cases connected with
      | true =>
          obtain ⟨after, returned, once, here, current, gone⟩ :=
            connectStage_connected listens found
              (w := (middle.enter s).loadCb handlers) shallow rfl slot lambda
              answered
          have quiet : Quiet s after := ⟨here, current, gone⟩
          have silent := Silent.of_steps
            (stages_silent depth listens quiet flags).steps
          rw [bind_of_ok returned]
          refine .told (silent.slot gone) ?_
          rw [← silentYet]
          exact silent.heard.trans once
      | false =>
          obtain ⟨after, returned, advanced⟩ := connectStage_refused listens
            found (w := (middle.enter s).loadCb handlers) nonneg deep rfl slot
            lambda opened registered left supplied answered
          rw [bind_of_ok returned, ← silentYet]
          exact advanced.standing

/-- Somebody gives the attempt up while it waits. -/
theorem unwatch_standing (deep : needs < depth)
    (standing : Standing callbacks heard s before outcome
      (.givenUp :: rest) w)
    (meanwhile : Alike heard s w middle) :
    Standing callbacks heard s before outcome []
      (final (EventManager.unwatch
        ((app body wantMessage unwatched).dispatch depth) s false middle)) := by
  obtain ⟨nesting, rfl⟩ : ∃ nesting, depth = nesting + 1 :=
    ⟨depth - 1, by omega⟩
  have shallow : needs ≤ nesting := Nat.le_of_lt_succ deep
  cases standing with
  | @waiting _ handlers handler later _ _ opened registered stored slot lambda
      left coming nothing =>
      have stored := meanwhile.fds.trans stored
      rw [← meanwhile.epoll] at registered
      have silentYet := meanwhile.heard.trans nothing
      have invokes : ((app body wantMessage unwatched).dispatch
          (nesting + 1)).invoke handler.callback s (.result .gameOver) =
          connectFail ((app body wantMessage unwatched).dispatch nesting)
            callbacks s s .gameOver := by
        rw [lambda]
        rfl
      have unknown : ((middle.unregister s).2.logCall handler s .connect
          .gameOver).fds[s]? = none := by
        simp [World.logCall, World.log, World.unregister]
      have failure : ConnectResult.gameOver ≠ .ok := by decide
      obtain ⟨after, returned, once, -, gone, -⟩ := connectFail_told listens
        found shallow .gameOver failure unknown
      have given : EventManager.unwatch
          ((app body wantMessage unwatched).dispatch (nesting + 1)) s false
          middle = .ok true (after.mapUser (unwatched s)) := by
        rw [EventManager.unwatch_of_registered false stored registered]
        unfold EventManager.afterUnwatch
        rw [slot]
        have called : EventManager.call
            ((app body wantMessage unwatched).dispatch (nesting + 1)) handler s
            .connect .gameOver (.result .gameOver) (middle.unregister s).2 =
              .ok () after := by
          unfold EventManager.call
          rw [invokes]
          exact returned
        exact bind_of_ok (bind_of_ok called)
      rw [given, coming]
      refine .told ?_ ?_
      · have missing : (after.mapUser (unwatched s)).fds[s]? = none := gone
        rw [final, World.callbacksAt, missing]
        rfl
      · rw [← silentYet]
        exact (listens.unwatched s after.user).trans once

theorem life_told {endings : List Ending} (nonneg : 0 ≤ s)
    (standing : Standing callbacks heard s before outcome endings w)
    (life : Life (app body wantMessage unwatched) heard needs s endings w
      last) :
    Standing callbacks heard s before outcome [] last := by
  induction life with
  | settled => exact standing
  | reported depth deep meanwhile supplied answer _ induction =>
      exact induction (handleEvent_standing listens found nonneg deep standing
        meanwhile supplied answer)
  | givenUp depth deep meanwhile _ induction =>
      exact induction (unwatch_standing listens found deep standing meanwhile)

end Living

end Client

end Universe
