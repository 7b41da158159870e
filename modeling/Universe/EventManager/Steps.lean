import Universe.Library.Stepwise
import Universe.EventManager.Effects

/-!
# The event manager as a transition system

`Step` lists every change that the event manager, its callbacks and the world
around it can make, with what is known at the moment of the change.  The
changes of the methods in `EventManager` are such steps, whatever the
callbacks do, as long as the callbacks themselves move by steps.
-/

namespace Universe

open Relation (ReflTransGen)
open Std (ExtTreeMap)

variable {β σ : Type}

/-- The descriptors of the batch that is being handled whose turn is still to
come. -/
def pending : List (Event β) → List Fd
  | [] => []
  | .batch _ _ reported :: _ => reported
  | .entered fd _ :: history => (pending history).erase fd
  | .left :: _ => []
  | _ :: history => pending history

/-- Something has happened since `epoll_wait` returned the last batch. -/
def sinceBatch (kind : Event β → Bool) : List (Event β) → Bool
  | [] => false
  | .batch .. :: _ => false
  | event :: past => kind event || sinceBatch kind past

/-- The turn of `fd` has come in this batch. -/
def attended (fd : Fd) : List (Event β) → Bool :=
  sinceBatch fun
    | .entered other _ => decide (other = fd)
    | _ => false

/-- The number was given to a connection after `epoll_wait` returned. -/
def fresh (fd : Fd) : List (Event β) → Bool :=
  sinceBatch fun
    | .opened other .. => decide (other = fd)
    | _ => false

/-- A caller has put a connect on the number after `epoll_wait` returned. -/
def claimed (fd : Fd) : List (Event β) → Bool :=
  sinceBatch fun
    | .placed other => decide (other = fd)
    | _ => false

/-- The loop of `handle_events` is between two events of a batch. -/
def Inside (w : World β σ) : Prop :=
  ∃ conns epoll reported past,
    (.batch conns epoll reported :: past) <:+ w.history ∧
      frames past = frames w.history

/-- No event that was reported for `fd` can reach another connection on it. -/
def Reopenable (fd : Fd) (w : World β σ) : Prop :=
  fresh fd w.history ∨ claimed fd w.history ∨
    attended fd w.history ∧ dispatching w.history = false

/-- A change outside the event manager leaves its registrations alone. -/
structure Untouched (w after : World β σ) : Prop where
  fds : after.fds = w.fds
  currentFd : after.currentFd = w.currentFd
  currentCb : after.currentCb = w.currentCb
  frames : frames after.history = frames w.history
  dispatching : dispatching after.history = dispatching w.history
  pending : pending after.history = pending w.history
  suffix : w.history <:+ after.history
  sound : w.kernel.Sound → after.kernel.Sound

/-- What the code around the event manager may do. -/
structure Rules (β σ : Type) where
  /-- Which `CONNECT` callbacks are stored for which descriptor. -/
  legit : β → Fd → Prop
  /-- Whether callbacks may call `handle_events`. -/
  nested : Prop
  /-- The changes that are made outside the event manager. -/
  outside : World β σ → World β σ → Prop
  untouched : ∀ {w after}, outside w after → Untouched w after
  /-- Whether the code calls `unwatch` by itself. -/
  unwatches : Prop := True

namespace World

/-- A registration that is going to be removed from the interest list as well
is taken out of `_fds`. -/
def detach (w : World β σ) (fd : Fd) (callbacks : EventCB (Handler β))
    (handler : Option (Handler β)) (byClose : Bool) : World β σ :=
  ((w.log (.ending fd handler (callbacks .close) byClose)).unregister fd).2

end World

inductive Step (rules : Rules β σ) : World β σ → World β σ → Prop where
  | outside {w after} (change : rules.outside w after) : Step rules w after
  | watchEvent {w} (fd event callback et)
      (legit : event = .connect → rules.legit callback fd) :
      Step rules w (w.watchEvent fd event callback et).2
  | watch {w} (fd callbacks reWatch et)
      (legit : ∀ callback, callbacks .connect = some callback →
        rules.legit callback fd) :
      Step rules w (w.watch fd callbacks reWatch et).2
  | autoRewatch {w} (fd et) : Step rules w (w.autoRewatch fd et).2
  /-- A registration is taken out by the code around the event manager, or it
  was not in the interest list. -/
  | unregister {w} (fd) (registered : w.fds.contains fd)
      (caused : rules.unwatches ∨ w.kernel.epoll fd = none) :
      Step rules w (w.unregister fd).2
  | discard {w} (fd force) : Step rules w (w.discard fd force)
  /-- A registration is taken out by `close` or by a hang-up. -/
  | detach {w} (fd callbacks handler byClose)
      (registered : w.fds[fd]? = some callbacks)
      (inEpoll : (w.kernel.epoll fd).isSome)
      (origin : (byClose = true ∧ handler = callbacks .close) ∨
        (byClose = false ∧ dispatching w.history = true ∧ fd = w.currentFd ∧
          handler = w.currentCb .close)) :
      Step rules w (w.detach fd callbacks handler byClose)
  /-- A forced close of a descriptor without a registration. -/
  | forcedRelease {w} (fd) (unregistered : w.fds.contains fd = false)
      (recorded : ∃ queued past, w.history = .closing fd (w.kernel.conns fd)
        queued true false (w.releasing fd) :: past) :
      Step rules w (w.addCloseFd fd false)
  | release {w frame rest} (fd) (top : frames w.history = frame :: rest)
      (progress : frame.progress = .begun)
      (same : fd = frame.fd ∨
        rules.nested ∧ frame.byClose = false ∧ fd = w.currentFd ∧ fd = -1) :
      Step rules w (w.addCloseFd fd true)
  | closeCall {w frame rest handler} (fd cause)
      (top : frames w.history = frame :: rest)
      (progress : frame.progress = .released)
      (owed : frame.handler = some handler)
      (same : fd = frame.fd ∨ rules.nested ∧ fd = -1)
      (caused : cause = .event → frame.byClose = false) :
      Step rules w (w.logCall handler fd .close cause)
  | finish {w frame rest} (top : frames w.history = frame :: rest)
      (done : frame.progress = .called ∨
        frame.handler = none ∧ frame.progress = .released) :
      Step rules w (w.log .ended)
  | gameOverCall {w} (handler fd) :
      Step rules w (w.logCall handler fd .connect .gameOver)
  | dispatch {w handler} (event)
      (loop : dispatching w.history = true ∨ rules.nested)
      (notConnect : event ≠ .connect) (notClose : event ≠ .close)
      (found : w.currentCb event = some handler) :
      Step rules w (w.logCall handler w.currentFd event .event)
  | eraseConnect {w} (loop : dispatching w.history = true)
      (registered : w.fds.contains w.currentFd) :
      Step rules w w.eraseConnect
  | connected {w handler} (loop : dispatching w.history = true)
      (registered : w.fds.contains w.currentFd)
      (found : w.currentCb .connect = some handler) :
      Step rules w
        (w.eraseConnect.logCall handler w.currentFd .connect .event)
  | refused {w handler} (loop : dispatching w.history = true)
      (first : rules.nested ∨ frames w.history = [])
      (registered : w.fds.contains w.currentFd)
      (found : w.currentCb .connect = some handler) (user : σ → σ)
      (allowed : ∀ between : World β σ,
        rules.outside between (between.mapUser user)) :
      Step rules w
        ((w.eraseConnect.unregister w.currentFd).2.mapUser user |>.log .refused
          |>.logCall handler w.currentFd .connect .event)
  | request {w} (fd data) :
      Step rules w ((w.logRequest fd data).submit fd data).2
  | flush {w} (fd queued) (found : w.writeBuf[fd]? = some queued) :
      Step rules w ((w.takeWriteBuf fd).submit fd queued).2
  | answers {w} (answers) : Step rules w (w.setAnswers answers)
  | handshake {w} (fd) : Step rules w (w.handshake fd).2
  | batch {w} (reported) (loop : rules.nested ∨
      dispatching w.history = false ∧ frames w.history = []) :
      Step rules w (w.logBatch reported)
  | skip {w} (fd) (loop : rules.nested ∨
      frames w.history = [] ∧ fd ∈ pending w.history)
      (inside : Inside w) (unregistered : w.fds.contains fd = false) :
      Step rules w (w.enter fd)
  | load {w} (fd callbacks) (loop : rules.nested ∨
      frames w.history = [] ∧ fd ∈ pending w.history)
      (inside : Inside w) (registered : w.fds[fd]? = some callbacks) :
      Step rules w ((w.enter fd).loadCb callbacks)
  | leave {w} (loop : rules.nested ∨ frames w.history = [])
      (inside : Inside w) :
      Step rules w w.leave
  | sysClose {w} (fd rest) (loop : rules.nested ∨
      dispatching w.history = false ∧ frames w.history = [] ∧
        pending w.history = [])
      (next : w.closeFds = fd :: rest) :
      Step rules w ({ w with closeFds := rest }.sysClose fd)
  | handled {w} (loop : rules.nested ∨
      dispatching w.history = false ∧ frames w.history = []) :
      Step rules w w.logHandled

/-- The history only grows. -/
theorem Step.suffix {rules : Rules β σ} {w after : World β σ}
    (step : Step rules w after) : w.history <:+ after.history := by
  have one : ∀ event : Event β, w.history <:+ event :: w.history :=
    fun event => List.suffix_cons event w.history
  cases step with
  | outside change => exact (rules.untouched change).suffix
  | watchEvent fd event callback et =>
      refine List.IsSuffix.trans ?_ (epollUpdate_suffix _ fd _ et)
      exact one _
  | watch fd callbacks reWatch et =>
      refine List.IsSuffix.trans ?_ (epollUpdate_suffix _ fd _ et)
      exact one _
  | autoRewatch => exact epollUpdate_suffix ..
  | unregister => exact List.suffix_rfl
  | discard => exact one _
  | detach => exact one _
  | forcedRelease => exact one _
  | release => exact one _
  | closeCall => exact one _
  | finish => exact one _
  | gameOverCall => exact one _
  | dispatch => exact one _
  | eraseConnect => exact List.suffix_rfl
  | connected => exact one _
  | refused => exact (one _).trans (List.suffix_cons _ _)
  | request fd data =>
      refine List.IsSuffix.trans ?_ (submit_grows ..).suffix
      unfold World.logRequest
      split
      · exact List.suffix_rfl
      · exact one _
  | flush fd queued => exact (submit_grows (w.takeWriteBuf fd) fd queued).suffix
  | answers => exact List.suffix_rfl
  | handshake fd =>
      unfold World.handshake
      split <;> exact List.suffix_rfl
  | batch => exact one _
  | skip => exact one _
  | load => exact one _
  | leave => exact one _
  | sysClose => exact one _
  | handled => exact one _

theorem suffix_of_steps {rules : Rules β σ} {w after : World β σ}
    (steps : ReflTransGen (Step rules) w after) :
    w.history <:+ after.history := by
  induction steps with
  | refl => exact List.suffix_rfl
  | tail _ step induction => exact induction.trans step.suffix

section Base

/-- What holds throughout: `CONNECT` callbacks are stored and loaded only for
descriptors they are meant for. -/
structure Base (rules : Rules β σ) (w : World β σ) : Prop where
  sound : w.kernel.Sound
  stored : ∀ {fd callbacks handler}, w.fds[fd]? = some callbacks →
    callbacks .connect = some handler → rules.legit handler.callback fd
  current : dispatching w.history = true → ∀ {handler},
    w.currentCb .connect = some handler →
    rules.legit handler.callback w.currentFd

variable {rules : Rules β σ} {w : World β σ}

namespace Base

theorem init (user : σ) (answers : Answers) :
    Base rules (World.init user answers : World β σ) := by
  constructor
  · constructor <;> simp [World.init, Kernel.boot]
  · simp [World.init]
  · simp [World.init, dispatching]

variable (base : Base rules w)
include base

/-- Nothing the invariant speaks of has changed, but the event that is being
handled may be over. -/
theorem of_eq {after : World β σ} (sound : after.kernel.Sound)
    (fds : after.fds = w.fds) (currentFd : after.currentFd = w.currentFd)
    (currentCb : after.currentCb = w.currentCb)
    (loopKept : dispatching after.history = true →
      dispatching w.history = true) :
    Base rules after := by
  refine ⟨sound, ?_, ?_⟩
  · rw [fds]
    exact base.stored
  · intro loop
    rw [currentCb, currentFd]
    exact base.current (loopKept loop)

theorem callbacksAt {fd : Fd} {handler : Handler β}
    (found : w.callbacksAt fd .connect = some handler) :
    rules.legit handler.callback fd := by
  unfold World.callbacksAt at found
  cases registered : w.fds[fd]? with
  | none => simp [registered, EventCB.empty] at found
  | some callbacks =>
      rw [registered] at found
      exact base.stored registered found

/-- An entry is stored, and the loaded callbacks may get some of its own. -/
theorem insert {after : World β σ} {fd : Fd}
    {callbacks : EventCB (Handler β)} (sound : after.kernel.Sound)
    (fds : after.fds = w.fds.insert fd callbacks)
    (legit : ∀ handler, callbacks .connect = some handler →
      rules.legit handler.callback fd)
    (currentFd : after.currentFd = w.currentFd)
    (currentCb : ∀ handler, after.currentCb .connect = some handler →
      w.currentCb .connect = some handler ∨
        fd = w.currentFd ∧ rules.legit handler.callback fd)
    (loopKept : dispatching after.history = dispatching w.history) :
    Base rules after := by
  refine ⟨sound, ?_, ?_⟩
  · intro other entry handler registered found
    rw [fds, ExtTreeMap.getElem?_insert] at registered
    split at registered
    · next same =>
        cases registered
        rw [← Std.LawfulEqCmp.eq_of_compare same]
        exact legit handler found
    · exact base.stored registered found
  · intro loop handler found
    rw [currentFd]
    rw [loopKept] at loop
    rcases currentCb handler found with old | ⟨same, legit⟩
    · exact base.current loop old
    · rw [← same]
      exact legit

theorem epollUpdate (fd : Fd) (op : EpollOp) (et : Bool) :
    Base rules (w.epollUpdate fd op et).2 := by
  have sound : (w.epollUpdate fd op et).2.kernel.Sound := by
    cases op <;> exact base.sound.epollCtl _ _ _
  by_cases deleted : op = .del
  · subst deleted
    exact base.of_eq sound rfl rfl rfl id
  · refine base.insert sound (World.epollUpdate_fds _ _ _ deleted) ?_ ?_ ?_ ?_
    · intro handler found
      exact base.callbacksAt found
    · simp
    · intro handler found
      left
      simpa using found
    · simp [World.epollUpdate_history _ _ _ deleted, dispatching]

theorem watchEvent (fd : Fd) (event : EventType) (callback : β) (et : Bool)
    (legit : event = .connect → rules.legit callback fd) :
    Base rules (w.watchEvent fd event callback et).2 := by
  refine Base.epollUpdate ?_ fd _ et
  refine base.insert base.sound rfl ?_ rfl ?_ rfl
  · intro handler found
    by_cases same : event = .connect
    · simp only [EventCB.set, same, Function.update_self,
        Option.some.injEq] at found
      rw [← found]
      exact legit same
    · rw [EventCB.set, Function.update_of_ne (Ne.symm same)] at found
      exact base.callbacksAt found
  · intro handler found
    simp only [World.log] at found
    split at found
    · next here =>
        by_cases same : event = .connect
        · right
          simp only [EventCB.set, same, Function.update_self,
            Option.some.injEq] at found
          rw [← found]
          exact ⟨of_decide_eq_true here, legit same⟩
        · left
          rwa [EventCB.set, Function.update_of_ne (Ne.symm same)] at found
    · left
      exact found

theorem watch (fd : Fd) (callbacks : EventCB β) (reWatch et : Bool)
    (legit : ∀ callback, callbacks .connect = some callback →
      rules.legit callback fd) :
    Base rules (w.watch fd callbacks reWatch et).2 := by
  have handlersLegit : ∀ handler,
      callbacks.map (⟨·, w.tickets, w.kernel.conns fd⟩ : β → Handler β)
          .connect = some handler → rules.legit handler.callback fd := by
    intro handler found
    simp only [EventCB.map, Option.map_eq_some_iff] at found
    obtain ⟨callback, present, rfl⟩ := found
    exact legit callback present
  refine Base.epollUpdate ?_ fd _ et
  refine base.insert base.sound rfl handlersLegit rfl ?_ rfl
  intro handler found
  simp only [World.log] at found
  split at found
  · next here =>
      right
      simp only [Bool.and_eq_true, decide_eq_true_eq] at here
      exact ⟨here.2, handlersLegit handler found⟩
  · left
    exact found

theorem autoRewatch (fd : Fd) (et : Bool) :
    Base rules (w.autoRewatch fd et).2 :=
  base.epollUpdate fd _ et

theorem unregister (fd : Fd) : Base rules (w.unregister fd).2 := by
  refine Base.epollUpdate ?_ fd _ true
  refine ⟨base.sound, ?_, ?_⟩
  · intro other callbacks handler registered found
    rw [ExtTreeMap.getElem?_erase] at registered
    split at registered
    · cases registered
    · exact base.stored registered found
  · intro loop handler found
    simp only at found
    split at found
    · simp [EventCB.empty] at found
    · exact base.current loop found

theorem eraseConnect : Base rules w.eraseConnect := by
  refine base.insert base.sound rfl ?_ rfl ?_ rfl
  · intro handler found
    simp [EventCB.erase] at found
  · intro handler found
    simp [World.eraseConnect, EventCB.erase] at found

theorem submit (fd : Fd) (data : Bytes) : Base rules (w.submit fd data).2 := by
  refine World.submit_cases w data ?_ ?_ ?_ ?_
  · intro _ connection answers
    exact base.of_eq ⟨base.sound.1, base.sound.2⟩ rfl rfl rfl id
  · intro queued found
    exact base.of_eq base.sound rfl rfl rfl id
  · intro missing notOpen
    exact base
  · intro conn missing opened
    have rule : World.LoopRule fd conn
        (fun _ w => Base rules w ∧ w.writeBuf[fd]? = none) (Base rules) := by
      refine ⟨?_, ?_, ?_, ?_⟩
      · rintro rest extra w - ⟨base, missing⟩
        exact ⟨base.of_eq base.sound rfl rfl rfl id, missing⟩
      · rintro rest extra answers w - ⟨base, missing⟩
        exact base.of_eq ⟨base.sound.1, base.sound.2⟩ rfl rfl rfl id
      · rintro rest answers w ⟨base, missing⟩
        rw [World.appendWriteBuf_of_none _ _ (by exact missing)]
        refine Base.autoRewatch ?_ fd _
        exact base.of_eq ⟨base.sound.1, base.sound.2⟩ rfl rfl rfl id
      · rintro rest errno answers w ⟨base, missing⟩
        exact base.of_eq ⟨base.sound.1, base.sound.2⟩ rfl rfl rfl id
    exact rule.writeLoop _ _ _ _ ⟨base, missing⟩

theorem handshake (fd : Fd) : Base rules (w.handshake fd).2 := by
  unfold World.handshake
  split
  · exact base
  · exact base.of_eq ⟨base.sound.1, base.sound.2⟩ rfl rfl rfl id

/-- Something is recorded. -/
theorem log (event : Event β)
    (loopKept : dispatching (event :: w.history) = true →
      dispatching w.history = true) : Base rules (w.log event) :=
  base.of_eq base.sound rfl rfl rfl loopKept

theorem logCall (handler : Handler β) (fd : Fd) (event : EventType)
    (cause : Cause) : Base rules (w.logCall handler fd event cause) :=
  base.log _ id

theorem step {after : World β σ} (taken : Step rules w after) :
    Base rules after := by
  cases taken with
  | outside change =>
      have kept := rules.untouched change
      exact base.of_eq (kept.sound base.sound) kept.fds kept.currentFd
        kept.currentCb (fun loop => kept.dispatching ▸ loop)
  | watchEvent fd event callback et legit =>
      exact base.watchEvent fd event callback et legit
  | watch fd callbacks reWatch et legit =>
      exact base.watch fd callbacks reWatch et legit
  | autoRewatch fd et => exact base.autoRewatch fd et
  | unregister fd registered => exact base.unregister fd
  | discard fd force => exact base.of_eq base.sound rfl rfl rfl id
  | detach fd callbacks handler byClose registered inEpoll origin =>
      exact (base.log _ id).unregister fd
  | forcedRelease fd unregistered recorded =>
      exact base.of_eq base.sound rfl rfl rfl id
  | release fd top progress same => exact base.of_eq base.sound rfl rfl rfl id
  | closeCall fd cause top progress owed same caused => exact base.logCall ..
  | finish top done => exact base.log _ id
  | gameOverCall handler fd => exact base.logCall ..
  | dispatch event loop notConnect notClose found => exact base.logCall ..
  | eraseConnect loop registered => exact base.eraseConnect
  | connected loop registered found => exact base.eraseConnect.logCall ..
  | refused loop first registered found user =>
      refine Base.logCall ?_ _ _ _ _
      have erased := base.eraseConnect.unregister w.currentFd
      refine erased.of_eq erased.sound rfl rfl rfl ?_
      intro loop
      simp [World.log, dispatching] at loop
  | request fd data =>
      refine Base.submit ?_ fd data
      unfold World.logRequest
      split
      · exact base
      · exact base.log _ id
  | flush fd queued found =>
      refine Base.submit ?_ fd queued
      exact base.of_eq base.sound rfl rfl rfl id
  | answers answers =>
      exact base.of_eq ⟨base.sound.1, base.sound.2⟩ rfl rfl rfl id
  | handshake fd => exact base.handshake fd
  | batch reported loop => exact base.log _ id
  | skip fd loop inside unregistered =>
      refine ⟨base.sound, base.stored, ?_⟩
      intro looping
      simp [World.enter, World.log, dispatching, unregistered] at looping
  | load fd callbacks loop inside registered =>
      refine ⟨base.sound, base.stored, ?_⟩
      intro looping handler found
      exact base.stored registered found
  | leave loop inside =>
      refine ⟨base.sound, base.stored, ?_⟩
      intro looping
      simp [World.leave, World.log, dispatching] at looping
  | sysClose fd rest loop next =>
      exact base.of_eq (base.sound.closeFd _) rfl rfl rfl id
  | handled loop => exact base.log _ id

theorem steps {after : World β σ}
    (taken : ReflTransGen (Step rules) w after) : Base rules after :=
  Stepwise.invariant_of_steps (fun _ _ base step => base.step step) taken base

end Base

end Base

end Universe
