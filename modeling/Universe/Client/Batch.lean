import Universe.Client.Execution

/-!
# The events of one batch

The numbers that `epoll_wait` reports stay with their connections until the
whole batch has been handled: `::close` is put off to its end, and a connect
to a host takes over a placeholder only after the event for it.  So an event
reaches the callbacks of the connection it was reported for.
-/

namespace Universe

open Std (ExtTreeMap)
open History (Always)

variable {β κ σ : Type}

/-- The connections at the moment `epoll_wait` returned the last batch. -/
def batchConns : List (Event β) → Fd → Option Conn
  | [] => fun _ => none
  | .batch conns _ _ :: _ => conns
  | _ :: past => batchConns past

/-- The descriptor was closed since then and has not been watched again. -/
def shut (fd : Fd) : List (Event β) → Bool
  | [] => false
  | .batch .. :: _ => false
  | .ending other _ _ true :: past => decide (other = fd) || shut fd past
  | .released other _ false _ :: past => decide (other = fd) || shut fd past
  | .watched other _ _ _ :: past => if other = fd then false else shut fd past
  | _ :: past => shut fd past

/-- `epoll_wait` reports descriptors of the interest list, each once. -/
def Event.Reported : Event β → Prop
  | .batch _ epoll reported =>
      reported.Nodup ∧ ∀ fd ∈ reported, epoll fd = true
  | _ => True

instance : DecidablePred (Event.Reported (β := β)) := fun event =>
  match event with
  | .batch .. => inferInstanceAs (Decidable (_ ∧ _))
  | .opened .. | .requested .. | .sysWrite .. | .stored .. | .watched ..
  | .closing .. | .ending .. | .released .. | .ended | .invoked ..
  | .sysClose .. | .entered .. | .refused | .left | .handled .. | .placed .. =>
      .isTrue trivial

/-- A callback that is invoked for an event was stored for the connection that
had the descriptor when the event was reported, and that connection is still
there, unless a caller has put a connect of its own on the number.  The
descriptor has not been closed before; for a hang-up that is said at the
moment it ends the registration. -/
def Directed : Event β → List (Event β) → Prop
  | .invoked fd event _ .event stored current, past =>
      (claimed fd past = false → current ≠ none ∧
        stored = batchConns past fd ∧ current = batchConns past fd) ∧
      (event ≠ .close → shut fd past = false)
  | .ending fd (some _) _ false, past => shut fd past = false
  | _, _ => True

/-- The number still has the connection it had when `epoll_wait` returned. -/
structure Steady (w : World β σ) (fd : Fd) : Prop where
  notFresh : fresh fd w.history = false
  opened : w.kernel.conns fd ≠ none
  same : w.kernel.conns fd = batchConns w.history fd

/-- All callbacks were stored for the connection the number has now. -/
def Belong (w : World β σ) (fd : Fd) (callbacks : EventCB (Handler β)) : Prop :=
  ∀ event handler, callbacks event = some handler →
    handler.conn = w.kernel.conns fd

/-- The end of a registration by a hang-up: it is part of the event that is
being handled, and owes a callback of its connection. -/
def HangsUp (w : World β σ) (frame : Frame β) : Prop :=
  dispatching w.history = true ∧ frame.fd = w.currentFd ∧
    (claimed frame.fd w.history = false → ∀ handler,
      frame.handler = some handler → handler.conn = w.kernel.conns frame.fd)

structure Directing (w : World β σ) : Prop where
  interested : ∀ fd, (w.kernel.epoll fd).isSome → Belong w fd (w.callbacksAt fd)
  waiting : ∀ fd ∈ pending w.history, claimed fd w.history = false →
    Steady w fd ∧ Belong w fd (w.callbacksAt fd)
  current : dispatching w.history = true →
    claimed w.currentFd w.history = false →
    Steady w w.currentFd ∧ Belong w w.currentFd w.currentCb
  loaded : dispatching w.history = true → ∀ event handler,
    w.currentCb event = some handler → w.fds.contains w.currentFd
  distinct : (pending w.history).Nodup
  turned : ∀ fd, attended fd w.history → fd ∉ pending w.history
  hangUps : ∀ frame ∈ frames w.history, frame.byClose = false → HangsUp w frame
  closed : ∀ fd, shut fd w.history →
    w.callbacksAt fd = EventCB.empty ∧
      (dispatching w.history = true → fd = w.currentFd →
        w.currentCb = EventCB.empty)
  directed : Always Directed w.history

/-- What the operations of a callback leave as it was while a batch is
handled: they change callbacks, but only to such as belong to the connection
of their descriptor. -/
structure Continues (w after : World β σ) : Prop where
  ends : frames after.history = frames w.history
  loop : dispatching after.history = dispatching w.history
  waiting : pending after.history = pending w.history
  turned : ∀ fd, attended fd after.history = attended fd w.history
  arrived : ∀ fd, fresh fd after.history = fresh fd w.history
  claims : ∀ fd, claimed fd after.history = false →
    claimed fd w.history = false
  batch : batchConns after.history = batchConns w.history
  shuts : ∀ fd, shut fd after.history → shut fd w.history
  directed : Always Directed w.history → Always Directed after.history
  conns : after.kernel.conns = w.kernel.conns
  currentFd : after.currentFd = w.currentFd
  epoll : ∀ fd, (after.kernel.epoll fd).isSome →
    (w.kernel.epoll fd).isSome ∨ Belong w fd (after.callbacksAt fd)
  callbacksAt : ∀ fd event handler,
    after.callbacksAt fd event = some handler →
    w.callbacksAt fd event = some handler ∨
      shut fd after.history = false ∧
        handler.conn = w.kernel.conns fd
  currentCb : ∀ event handler, after.currentCb event = some handler →
    w.currentCb event = some handler ∨
      shut w.currentFd after.history = false ∧
        handler.conn = w.kernel.conns w.currentFd
  loaded : (∀ event handler, w.currentCb event = some handler →
      w.fds.contains w.currentFd) →
    ∀ event handler, after.currentCb event = some handler →
      after.fds.contains w.currentFd

namespace Directing

variable {w after : World β σ}

theorem init (user : σ) (answers : Answers) :
    Directing (World.init user answers : World β σ) := by
  constructor <;>
    simp [World.init, Kernel.boot, Belong, World.callbacksAt, EventCB.empty,
      pending, dispatching, frames, attended, sinceBatch, shut, Always]

theorem of_none {callbacks : EventCB (Handler β)}
    (none : ∀ event handler, callbacks event ≠ some handler) :
    callbacks = EventCB.empty := by
  funext event
  exact Option.eq_none_iff_forall_ne_some.mpr (none event)

theorem keep (directing : Directing w) (continues : Continues w after) :
    Directing after := by
  have steady : ∀ {fd}, Steady w fd → Steady after fd := by
    intro fd steady
    refine ⟨?_, ?_, ?_⟩
    · rw [continues.arrived]
      exact steady.notFresh
    · rw [continues.conns]
      exact steady.opened
    · rw [continues.conns, continues.batch]
      exact steady.same
  have belongs : ∀ {fd}, Belong w fd (w.callbacksAt fd) →
      Belong after fd (after.callbacksAt fd) := by
    intro fd belong event handler found
    rw [continues.conns]
    rcases continues.callbacksAt fd event handler found with before | ⟨-, own⟩
    · exact belong event handler before
    · exact own
  refine ⟨?_, ?_, ?_, ?_, ?_, ?_, ?_, ?_, continues.directed directing.directed⟩
  · intro fd registered
    rcases continues.epoll fd registered with before | belong
    · exact belongs (directing.interested fd before)
    · intro event handler found
      rw [continues.conns]
      exact belong event handler found
  · rw [continues.waiting]
    intro fd member unclaimed
    obtain ⟨before, belong⟩ :=
      directing.waiting fd member (continues.claims fd unclaimed)
    exact ⟨steady before, belongs belong⟩
  · rw [continues.loop, continues.currentFd]
    intro loop unclaimed
    obtain ⟨before, belong⟩ :=
      directing.current loop (continues.claims _ unclaimed)
    refine ⟨steady before, ?_⟩
    intro event handler found
    rw [continues.conns]
    rcases continues.currentCb event handler found with old | ⟨-, own⟩
    · exact belong event handler old
    · exact own
  · rw [continues.loop, continues.currentFd]
    exact fun loop => continues.loaded (directing.loaded loop)
  · rw [continues.waiting]
    exact directing.distinct
  · intro fd
    rw [continues.turned, continues.waiting]
    exact directing.turned fd
  · rw [continues.ends]
    intro frame member hangsUp
    rw [HangsUp, continues.loop, continues.currentFd, continues.conns]
    obtain ⟨loop, here, owed⟩ := directing.hangUps frame member hangsUp
    exact ⟨loop, here, fun unclaimed => owed (continues.claims _ unclaimed)⟩
  · rw [continues.loop, continues.currentFd]
    intro fd isShut
    obtain ⟨empty, emptyCurrent⟩ := directing.closed fd (continues.shuts fd isShut)
    refine ⟨of_none ?_, ?_⟩
    · intro event handler found
      rcases continues.callbacksAt fd event handler found with before | ⟨reopened, -⟩
      · simp [empty, EventCB.empty] at before
      · simp [reopened] at isShut
    · rintro loop rfl
      refine of_none ?_
      intro event handler found
      rcases continues.currentCb event handler found with before | ⟨reopened, -⟩
      · simp [emptyCurrent loop rfl, EventCB.empty] at before
      · simp [reopened] at isShut

end Directing

/-- An event that leaves alone what is read off the history of a batch, except
that a watch makes up for a close. -/
def Event.even : Event β → Bool
  | .requested .. | .sysWrite .. | .stored .. | .watched .. | .closing ..
  | .handled .. => true
  | .invoked _ .connect _ .gameOver _ _ => true
  | _ => false

/-- An event that is none of the loop of `handle_events` and brings no
connection. -/
def Event.neutral : Event β → Bool
  | .batch .. | .entered .. | .refused | .left | .opened .. | .placed .. => false
  | _ => true

section Neutral

variable {event : Event β} (neutral : event.neutral) (past : List (Event β))
include neutral

theorem dispatching_neutral :
    dispatching (event :: past) = dispatching past := by
  cases event <;> first | rfl | cases neutral

theorem pending_neutral : pending (event :: past) = pending past := by
  cases event <;> first | rfl | cases neutral

theorem batchConns_neutral : batchConns (event :: past) = batchConns past := by
  cases event <;> first | rfl | cases neutral

theorem attended_neutral (fd : Fd) :
    attended fd (event :: past) = attended fd past := by
  cases event <;> first | rfl | cases neutral

theorem fresh_neutral (fd : Fd) :
    fresh fd (event :: past) = fresh fd past := by
  cases event <;> first | rfl | cases neutral

theorem claimed_neutral (fd : Fd) :
    claimed fd (event :: past) = claimed fd past := by
  cases event <;> first | rfl | cases neutral

end Neutral

section Even

variable {event : Event β} (even : event.even) (past : List (Event β))
include even

omit past in
theorem neutral_of_even : event.neutral := by
  cases event <;> first | rfl | cases even

theorem frames_even : frames (event :: past) = frames past := by
  cases event with
  | invoked fd kind => cases kind <;> first | rfl | cases even
  | released => cases even
  | ending => cases even
  | ended => cases even
  | _ => rfl

theorem shut_even (fd : Fd) (isShut : shut fd (event :: past)) :
    shut fd past := by
  cases event with
  | watched other =>
      simp only [shut] at isShut
      split at isShut
      · cases isShut
      · exact isShut
  | ending => cases even
  | released => cases even
  | batch => cases even
  | _ => exact isShut

theorem directed_even : Directed event past := by
  cases event with
  | invoked fd kind ticket cause =>
      cases kind with
      | connect => cases cause <;> trivial
      | _ => cases even
  | ending => cases even
  | _ => trivial

end Even

namespace Continues

variable {w middle after : World β σ} {fd : Fd} {op : EpollOp}

/-- The callbacks are the only thing a step changes. -/
theorem of_grows (grows : Grows Event.even w after)
    (conns : after.kernel.conns = w.kernel.conns)
    (currentFd : after.currentFd = w.currentFd)
    (epoll : ∀ fd, (after.kernel.epoll fd).isSome →
      (w.kernel.epoll fd).isSome ∨ Belong w fd (after.callbacksAt fd))
    (callbacksAt : ∀ fd event handler,
      after.callbacksAt fd event = some handler →
      w.callbacksAt fd event = some handler ∨
        shut fd after.history = false ∧ handler.conn = w.kernel.conns fd)
    (currentCb : ∀ event handler, after.currentCb event = some handler →
      w.currentCb event = some handler ∨
        shut w.currentFd after.history = false ∧
          handler.conn = w.kernel.conns w.currentFd)
    (loaded : (∀ event handler, w.currentCb event = some handler →
        w.fds.contains w.currentFd) →
      ∀ event handler, after.currentCb event = some handler →
        after.fds.contains w.currentFd) : Continues w after := by
  have shuts : ∀ fd, shut fd after.history → shut fd w.history := by
    obtain ⟨events, history, all⟩ := grows
    rw [history]
    clear history
    induction events with
    | nil => exact fun _ => id
    | cons event events induction =>
        intro fd isShut
        exact induction (fun earlier member =>
          all earlier (List.mem_cons_of_mem event member)) fd
            (shut_even (all event List.mem_cons_self) _ fd isShut)
  have directs : Always Directed w.history → Always Directed after.history := by
    intro before
    obtain ⟨events, history, all⟩ := grows
    rw [history]
    clear history
    induction events with
    | nil => exact before
    | cons event events induction =>
        refine ⟨directed_even (all event List.mem_cons_self) _, induction ?_⟩
        exact fun earlier member =>
          all earlier (List.mem_cons_of_mem event member)
  have unseen : ∀ {γ : Type} {view : List (Event β) → γ},
      (∀ event past, event.neutral → view (event :: past) = view past) →
      view after.history = view w.history := fun skip =>
    grows.same fun event past even => skip event past (neutral_of_even even)
  have claims : ∀ fd, claimed fd after.history = claimed fd w.history :=
    fun fd => unseen fun _ past neutral => claimed_neutral neutral past fd
  exact
    { ends := grows.same fun _ past even => frames_even even past
      loop := unseen fun _ past neutral => dispatching_neutral neutral past
      waiting := unseen fun _ past neutral => pending_neutral neutral past
      turned := fun fd =>
        unseen fun _ past neutral => attended_neutral neutral past fd
      arrived := fun fd =>
        unseen fun _ past neutral => fresh_neutral neutral past fd
      claims := fun fd unclaimed => claims fd ▸ unclaimed
      batch := unseen fun _ past neutral => batchConns_neutral neutral past
      shuts := shuts
      directed := directs
      conns := conns
      currentFd := currentFd
      epoll := epoll
      callbacksAt := callbacksAt
      currentCb := currentCb
      loaded := loaded }

/-- Nothing is stored but entries with the callbacks that were there. -/
theorem of_same (grows : Grows Event.even w after)
    (conns : after.kernel.conns = w.kernel.conns)
    (currentFd : after.currentFd = w.currentFd)
    (currentCb : after.currentCb = w.currentCb)
    (callbacksAt : after.callbacksAt = w.callbacksAt)
    (keys : ∀ fd, w.fds.contains fd → after.fds.contains fd)
    (epoll : ∀ fd, (after.kernel.epoll fd).isSome →
      (w.kernel.epoll fd).isSome ∨ w.fds.contains fd = false) :
    Continues w after := by
  refine of_grows grows conns currentFd ?_ ?_ ?_ ?_
  · intro fd registered
    rcases epoll fd registered with before | missing
    · exact .inl before
    · right
      intro event handler found
      rw [callbacksAt, World.callbacksAt] at found
      have absent : w.fds[fd]? = none := by
        rw [← Option.not_isSome_iff_eq_none,
          ExtTreeMap.isSome_getElem?_eq_contains, missing]
        exact Bool.false_ne_true
      simp [absent, EventCB.empty] at found
  · intro fd event handler found
    rw [callbacksAt] at found
    exact .inl found
  · intro event handler found
    rw [currentCb] at found
    exact .inl found
  · intro before event handler found
    rw [currentCb] at found
    exact keys _ (before event handler found)

theorem submit (w : World β σ) (fd : Fd) (data : Bytes) :
    Continues w (w.submit fd data).2 := by
  have kept := World.submit_submitted w fd data
  obtain ⟨events, history, writing⟩ := submit_grows w fd data
  refine of_same ⟨events, history, ?_⟩ kept.conns kept.currentFd kept.currentCb
    kept.callbacksAt kept.keys kept.epoll
  intro event member
  have isWriting := writing event member
  cases event <;> first | rfl | cases isWriting

theorem autoRewatch (w : World β σ) (fd : Fd) (et : Bool) :
    Continues w (w.autoRewatch fd et).2 := by
  have kept := World.autoRewatch_submitted w fd et
  have history := World.epollUpdate_history w fd et
    (rewatchOp_ne_del (w.fds.contains fd))
  exact of_same ⟨[_], history, by simp [Event.even]⟩ kept.conns kept.currentFd
    kept.currentCb kept.callbacksAt kept.keys kept.epoll

/-- One event is recorded. -/
theorem log {event : Event β} (even : event.even)
    (history : after.history = event :: w.history) (fds : after.fds = w.fds)
    (kernel : after.kernel.conns = w.kernel.conns ∧
      after.kernel.epoll = w.kernel.epoll)
    (currentFd : after.currentFd = w.currentFd)
    (currentCb : after.currentCb = w.currentCb) : Continues w after := by
  refine of_same ⟨[event], history, by simpa using even⟩ kernel.1 currentFd
    currentCb ?_ ?_ ?_
  · funext fd
    rw [World.callbacksAt, World.callbacksAt, fds]
  · rw [fds]
    exact fun _ => id
  · rw [kernel.2]
    exact fun _ => .inl

/-- Nothing is recorded, and the registrations are the same. -/
theorem still (history : after.history = w.history) (fds : after.fds = w.fds)
    (kernel : after.kernel.conns = w.kernel.conns ∧
      after.kernel.epoll = w.kernel.epoll)
    (currentFd : after.currentFd = w.currentFd)
    (currentCb : after.currentCb = w.currentCb) : Continues w after := by
  refine of_same ⟨[], history, by simp⟩ kernel.1 currentFd currentCb ?_ ?_ ?_
  · funext fd
    rw [World.callbacksAt, World.callbacksAt, fds]
  · rw [fds]
    exact fun _ => id
  · rw [kernel.2]
    exact fun _ => .inl

/-- `watch` stores callbacks for the connection of the descriptor. -/
theorem store {callbacks : EventCB (Handler β)} {ticket : Nat}
    {reWatch current : Bool} (keep : op ≠ .del) (et : Bool)
    (history : middle.history = .watched fd ticket reWatch current :: w.history)
    (fds : middle.fds = w.fds.insert fd callbacks)
    (kernel : middle.kernel = w.kernel)
    (currentFd : middle.currentFd = w.currentFd)
    (adds : op = .mod ∨ Belong w fd callbacks)
    (stored : ∀ event handler, callbacks event = some handler →
      w.callbacksAt fd event = some handler ∨
        handler.conn = w.kernel.conns fd)
    (currentCb : ∀ event handler, middle.currentCb event = some handler →
      w.currentCb event = some handler ∨
        fd = w.currentFd ∧ handler.conn = w.kernel.conns fd) :
    Continues w (middle.epollUpdate fd op et).2 := by
  have historyNow := World.epollUpdate_history middle fd et keep
  rw [history] at historyNow
  have reopened : shut fd (middle.epollUpdate fd op et).2.history = false := by
    simp [historyNow, shut]
  have callbacksNow : (middle.epollUpdate fd op et).2.callbacksAt =
      Function.update w.callbacksAt fd callbacks := by
    rw [World.epollUpdate_callbacksAt, w.callbacksAt_of_insert fd fds]
  refine of_grows ⟨[_, _], historyNow, by simp [Event.even]⟩ (by simp [kernel])
    (by simp [currentFd]) ?_ ?_ ?_ ?_
  · intro other registered
    by_cases same : other = fd
    · subst same
      rcases adds with rfl | belong
      · left
        rw [World.epollUpdate_epoll _ _ _ keep, kernel] at registered
        simp only [Kernel.epollCtl] at registered
        split at registered
        · next present => exact present
        · exact registered
      · right
        rw [callbacksNow, Function.update_self]
        exact belong
    · left
      rw [World.epollUpdate_epoll _ _ _ keep,
        Kernel.epollCtl_epoll_of_ne _ _ _ _ same, kernel] at registered
      exact registered
  · intro other event handler found
    rw [callbacksNow] at found
    by_cases same : other = fd
    · subst same
      rw [Function.update_self] at found
      exact (stored event handler found).imp_right fun own => ⟨reopened, own⟩
    · rw [Function.update_of_ne same] at found
      exact .inl found
  · intro event handler found
    rw [World.epollUpdate_currentCb] at found
    refine (currentCb event handler found).imp_right ?_
    rintro ⟨rfl, own⟩
    exact ⟨reopened, own⟩
  · intro before event handler found
    rw [World.epollUpdate_currentCb] at found
    rw [World.epollUpdate_contains keep, fds, ExtTreeMap.contains_insert]
    rcases currentCb event handler found with old | ⟨here, -⟩
    · simp [before event handler old]
    · simp [here]

theorem watchEvent (w : World β σ) (fd : Fd) (event : EventType) (callback : β)
    (et : Bool) : Continues w (w.watchEvent fd event callback et).2 := by
  have old : ∀ other handler,
      (w.callbacksAt fd).set event ⟨callback, w.tickets, w.kernel.conns fd⟩
        other = some handler →
      w.callbacksAt fd other = some handler ∨
        handler.conn = w.kernel.conns fd := by
    intro other handler found
    by_cases same : other = event
    · simp only [EventCB.set, same, Function.update_self,
        Option.some.injEq] at found
      exact .inr (by rw [← found])
    · rw [EventCB.set, Function.update_of_ne same] at found
      exact .inl found
  refine store (rewatchOp_ne_del _) et rfl rfl rfl rfl ?_ old ?_
  · cases contained : w.fds.contains fd with
    | true => exact .inl rfl
    | false =>
        right
        intro other handler found
        rcases old other handler found with before | own
        · have absent : w.fds[fd]? = none := by
            rw [← Option.not_isSome_iff_eq_none,
              ExtTreeMap.isSome_getElem?_eq_contains, contained]
            exact Bool.false_ne_true
          simp [World.callbacksAt, absent, EventCB.empty] at before
        · exact own
  · intro other handler found
    simp only [World.log] at found
    split at found
    · next here =>
        by_cases same : other = event
        · simp only [EventCB.set, same, Function.update_self,
            Option.some.injEq] at found
          exact .inr ⟨of_decide_eq_true here, by rw [← found]⟩
        · rw [EventCB.set, Function.update_of_ne same] at found
          exact .inl found
    · exact .inl found

theorem watch (w : World β σ) (fd : Fd) (callbacks : EventCB β)
    (reWatch et : Bool) : Continues w (w.watch fd callbacks reWatch et).2 := by
  have own : Belong w fd
      (callbacks.map (⟨·, w.tickets, w.kernel.conns fd⟩ : β → Handler β)) := by
    intro event handler found
    simp only [EventCB.map, Option.map_eq_some_iff] at found
    obtain ⟨callback, -, rfl⟩ := found
    rfl
  refine store (rewatchOp_ne_del _) et rfl rfl rfl rfl (.inr own)
    (fun event handler found => .inr (own event handler found)) ?_
  intro event handler found
  simp only [World.log] at found
  split at found
  · next here =>
      simp only [Bool.and_eq_true, decide_eq_true_eq] at here
      exact .inr ⟨here.2, own event handler found⟩
  · exact .inl found

theorem unregister (w : World β σ) (fd : Fd) :
    Continues w (w.unregister fd).2 := by
  have fds : (w.unregister fd).2.fds = w.fds.erase fd := rfl
  have callbacksNow := w.callbacksAt_of_erase fd fds
  have currentNow : (w.unregister fd).2.currentCb =
      if fd = w.currentFd then EventCB.empty else w.currentCb := rfl
  refine of_grows ⟨[], rfl, by simp⟩ (by simp [World.unregister]) rfl ?_ ?_ ?_ ?_
  · intro other registered
    simp only [World.unregister, World.epollUpdate_del_epoll] at registered
    by_cases same : other = fd
    · simp [same] at registered
    · rw [Function.update_of_ne same] at registered
      exact .inl registered
  · intro other event handler found
    rw [callbacksNow] at found
    by_cases same : other = fd
    · simp [same, EventCB.empty] at found
    · rw [Function.update_of_ne same] at found
      exact .inl found
  · intro event handler found
    rw [currentNow] at found
    split at found
    · simp [EventCB.empty] at found
    · exact .inl found
  · intro before event handler found
    rw [currentNow] at found
    split at found
    · simp [EventCB.empty] at found
    · next different =>
        rw [fds, ExtTreeMap.contains_erase]
        simp [different, before event handler found]

theorem eraseConnect (w : World β σ) : Continues w w.eraseConnect := by
  have fds : w.eraseConnect.fds = w.fds.insert w.currentFd
      ((w.callbacksAt w.currentFd).erase .connect) := rfl
  have callbacksNow := w.callbacksAt_of_insert w.currentFd fds
  have erased : ∀ {callbacks : EventCB (Handler β)} {event handler},
      callbacks.erase .connect event = some handler →
      callbacks event = some handler := by
    intro callbacks event handler found
    by_cases same : event = .connect
    · simp [EventCB.erase, same] at found
    · rwa [EventCB.erase, Function.update_of_ne same] at found
  refine of_grows ⟨[], rfl, by simp⟩ rfl rfl (fun _ => .inl) ?_ ?_ ?_
  · intro other event handler found
    rw [callbacksNow] at found
    by_cases same : other = w.currentFd
    · subst same
      rw [Function.update_self] at found
      exact .inl (erased found)
    · rw [Function.update_of_ne same] at found
      exact .inl found
  · intro event handler found
    exact .inl (erased found)
  · intro _ event handler _
    simp [fds]

theorem placed (w : World β σ) (fd : Fd) :
    Continues w (w.log (.placed fd)) :=
  { ends := rfl
    loop := rfl
    waiting := rfl
    turned := fun _ => rfl
    arrived := fun _ => rfl
    claims := by
      intro other unclaimed
      simp only [World.log, claimed, sinceBatch, Bool.or_eq_false_iff]
        at unclaimed
      exact unclaimed.2
    batch := rfl
    shuts := fun _ => id
    directed := fun before => ⟨trivial, before⟩
    conns := rfl
    currentFd := rfl
    epoll := fun _ => .inl
    callbacksAt := fun _ _ _ => .inl
    currentCb := fun _ _ => .inl
    loaded := fun before => before }

/-- A number that was not open is not open either after a connect on it has
failed. -/
theorem closeSocket (sound : w.kernel.Sound) (new : Fd) :
    Continues w (w.closeSocket new) := by
  unfold World.closeSocket
  split
  · next free =>
      have absent : w.kernel.epoll new = none := by
        rw [← Option.not_isSome_iff_eq_none]
        intro registered
        have opened := sound.registeredOpen new registered
        rw [free.2] at opened
        cases opened
      refine still rfl rfl ⟨?_, ?_⟩ rfl rfl
      · simp [Kernel.closeFd, Kernel.openFd, ← free.2]
      · simp [Kernel.closeFd, Kernel.openFd, ← absent]
  · exact still rfl rfl ⟨rfl, rfl⟩ rfl rfl

end Continues

namespace Directing

variable {w after : World β σ}

/-- A connection is put on a number where no event can reach it that was
reported for another one. -/
theorem arrive (directing : Directing w) {fd : Fd} {conn : Conn}
    {queued : Option Bytes} {registered : Bool}
    (history : after.history = .opened fd conn queued registered :: w.history)
    (fds : after.fds = w.fds) (currentFd : after.currentFd = w.currentFd)
    (currentCb : after.currentCb = w.currentCb)
    (conns : ∀ other, other ≠ fd →
      after.kernel.conns other = w.kernel.conns other)
    (epoll : ∀ other, (after.kernel.epoll other).isSome →
      other ≠ fd ∧ (w.kernel.epoll other).isSome)
    (apart : w.kernel.conns fd = none ∨ Reopenable fd w) : Directing after := by
  have callbacksNow : after.callbacksAt = w.callbacksAt := by
    funext other
    rw [World.callbacksAt, World.callbacksAt, fds]
  have freshNow : ∀ other, other ≠ fd →
      fresh other after.history = fresh other w.history := by
    intro other different
    simp [history, fresh, sinceBatch, Ne.symm different]
  have claimedNow : ∀ other,
      claimed other after.history = claimed other w.history := by
    intro other
    rw [history]
    rfl
  -- A number with a reported event that is still to come is not the new one.
  have elsewhere : ∀ other, claimed other w.history = false → Steady w other →
      (attended other w.history → dispatching w.history = true) →
      other ≠ fd := by
    rintro other unclaimed steady busy rfl
    rcases apart with notOpen | isFresh | isClaimed | ⟨turn, idle⟩
    · exact steady.opened notOpen
    · rw [steady.notFresh] at isFresh
      cases isFresh
    · rw [unclaimed] at isClaimed
      cases isClaimed
    · rw [busy turn] at idle
      cases idle
  have steady : ∀ {other}, other ≠ fd → Steady w other → Steady after other := by
    intro other different steady
    refine ⟨?_, ?_, ?_⟩
    · rw [freshNow other different]
      exact steady.notFresh
    · rw [conns other different]
      exact steady.opened
    · rw [conns other different, history]
      exact steady.same
  have belong : ∀ {other callbacks}, other ≠ fd → Belong w other callbacks →
      Belong after other callbacks := by
    intro other callbacks different belong event handler found
    rw [conns other different]
    exact belong event handler found
  have loopNow : dispatching after.history = dispatching w.history := by
    rw [history]
    rfl
  have waitingNow : pending after.history = pending w.history := by
    rw [history]
    rfl
  have atCurrent : dispatching w.history = true →
      claimed w.currentFd w.history = false → w.currentFd ≠ fd := by
    intro loop unclaimed
    exact elsewhere _ unclaimed (directing.current loop unclaimed).1 fun _ => loop
  refine ⟨?_, ?_, ?_, ?_, ?_, ?_, ?_, ?_, ?_⟩
  · intro other isRegistered
    obtain ⟨different, before⟩ := epoll other isRegistered
    rw [callbacksNow]
    exact belong different (directing.interested other before)
  · rw [waitingNow]
    intro other member unclaimed
    rw [claimedNow] at unclaimed
    obtain ⟨before, belonged⟩ := directing.waiting other member unclaimed
    have different := elsewhere other unclaimed before fun turn =>
      absurd member (directing.turned other turn)
    rw [callbacksNow]
    exact ⟨steady different before, belong different belonged⟩
  · rw [loopNow, currentFd, currentCb]
    intro loop unclaimed
    rw [claimedNow] at unclaimed
    obtain ⟨before, belonged⟩ := directing.current loop unclaimed
    have different := atCurrent loop unclaimed
    exact ⟨steady different before, belong different belonged⟩
  · rw [loopNow, currentFd, currentCb, fds]
    exact directing.loaded
  · rw [waitingNow]
    exact directing.distinct
  · intro other
    rw [waitingNow, history]
    exact directing.turned other
  · have framesNow : frames after.history = frames w.history := by
      rw [history]
      rfl
    rw [framesNow]
    intro frame member hangsUp
    rw [HangsUp, loopNow, currentFd]
    obtain ⟨loop, here, owed⟩ := directing.hangUps frame member hangsUp
    refine ⟨loop, here, fun unclaimed handler isOwed => ?_⟩
    rw [claimedNow] at unclaimed
    have different : frame.fd ≠ fd := by
      rw [here] at unclaimed ⊢
      exact atCurrent loop unclaimed
    rw [conns _ different]
    exact owed unclaimed handler isOwed
  · intro other isShut
    rw [history] at isShut
    rw [loopNow, currentFd, currentCb, callbacksNow]
    exact directing.closed other isShut
  · rw [history]
    exact ⟨trivial, directing.directed⟩

theorem acceptFd (directing : Directing w) (sound : w.kernel.Sound) (fd : Fd) :
    Directing (w.acceptFd fd) := by
  unfold World.acceptFd
  split
  · next free =>
      refine directing.arrive rfl rfl rfl rfl ?_ ?_ (.inl free.2)
      · intro other different
        simp [World.log, Kernel.openFd, different]
      · intro other registered
        refine ⟨?_, registered⟩
        rintro rfl
        have opened := sound.registeredOpen other registered
        rw [free.2] at opened
        cases opened
  · exact directing

theorem dup2 (directing : Directing w) (new fd : Fd)
    (reopenable : Reopenable fd w) : Directing (w.dup2 new fd) := by
  unfold World.dup2
  split
  · next guard =>
      refine directing.arrive rfl rfl rfl rfl ?_ ?_ (.inr reopenable)
      · intro other different
        by_cases isNew : other = new
        · subst isNew
          simp [World.log, Kernel.moveFd, guard.1.2]
        · simp [World.log, Kernel.moveFd, Kernel.openFd, different, isNew]
      · intro other registered
        simp only [World.log, Kernel.moveFd, Kernel.openFd] at registered
        by_cases isNew : other = new
        · simp [isNew] at registered
        · rw [Function.update_of_ne isNew] at registered
          by_cases same : other = fd
          · simp [same] at registered
          · rw [Function.update_of_ne same] at registered
            exact ⟨same, registered⟩
  · exact directing

/-- An event that is recorded between the events of the loop itself. -/
theorem note (directing : Directing w) {event : Event β}
    (history : after.history = event :: w.history) (neutral : event.neutral)
    (fds : after.fds = w.fds) (kernel : after.kernel = w.kernel)
    (currentFd : after.currentFd = w.currentFd)
    (currentCb : after.currentCb = w.currentCb)
    (hangUps : ∀ frame ∈ frames (event :: w.history), frame.byClose = false →
      HangsUp w frame)
    (shuts : ∀ fd, shut fd (event :: w.history) →
      shut fd w.history ∨ w.callbacksAt fd = EventCB.empty ∧
        (dispatching w.history = true → fd = w.currentFd →
          w.currentCb = EventCB.empty))
    (directed : Directed event w.history) : Directing after := by
  have loopNow : dispatching after.history = dispatching w.history := by
    rw [history, dispatching_neutral neutral]
  have waitingNow : pending after.history = pending w.history := by
    rw [history, pending_neutral neutral]
  have claimedNow : ∀ fd, claimed fd after.history = claimed fd w.history := by
    intro fd
    rw [history, claimed_neutral neutral]
  have steady : ∀ {fd}, Steady w fd → Steady after fd := by
    intro fd steady
    refine ⟨?_, ?_, ?_⟩
    · rw [history, fresh_neutral neutral]
      exact steady.notFresh
    · rw [kernel]
      exact steady.opened
    · rw [kernel, history, batchConns_neutral neutral]
      exact steady.same
  have belong : ∀ {fd callbacks}, Belong w fd callbacks →
      Belong after fd callbacks := by
    intro fd callbacks belong
    rw [Belong, kernel]
    exact belong
  have callbacksNow : after.callbacksAt = w.callbacksAt := by
    funext fd
    rw [World.callbacksAt, World.callbacksAt, fds]
  refine ⟨?_, ?_, ?_, ?_, ?_, ?_, ?_, ?_, ?_⟩
  · intro fd registered
    rw [kernel] at registered
    rw [callbacksNow]
    exact belong (directing.interested fd registered)
  · rw [waitingNow, callbacksNow]
    intro fd member unclaimed
    obtain ⟨before, belonged⟩ :=
      directing.waiting fd member (claimedNow fd ▸ unclaimed)
    exact ⟨steady before, belong belonged⟩
  · rw [loopNow, currentFd, currentCb, claimedNow]
    intro loop unclaimed
    obtain ⟨before, belonged⟩ := directing.current loop unclaimed
    exact ⟨steady before, belong belonged⟩
  · rw [loopNow, currentFd, currentCb, fds]
    exact directing.loaded
  · rw [waitingNow]
    exact directing.distinct
  · intro fd
    rw [waitingNow, history, attended_neutral neutral]
    exact directing.turned fd
  · rw [history]
    intro frame member hangsUp
    rw [HangsUp, loopNow, currentFd, kernel, claimedNow]
    exact hangUps frame member hangsUp
  · rw [loopNow, currentFd, currentCb, callbacksNow, history]
    intro fd isShut
    rcases shuts fd isShut with before | now
    · exact directing.closed fd before
    · exact now
  · rw [history]
    exact ⟨directed, directing.directed⟩

/-- A registration is taken out by `close` or by a hang-up. -/
theorem detach (directing : Directing w) {fd : Fd}
    {callbacks : EventCB (Handler β)} {handler : Option (Handler β)}
    {byClose : Bool}
    (origin : (byClose = true ∧ handler = callbacks .close) ∨
      (byClose = false ∧ dispatching w.history = true ∧ fd = w.currentFd ∧
        handler = w.currentCb .close)) :
    Directing (w.detach fd callbacks handler byClose) := by
  have removed := directing.keep (.unregister w fd)
  have history : (w.detach fd callbacks handler byClose).history =
      .ending fd handler (callbacks .close) byClose ::
        (w.unregister fd).2.history := rfl
  refine removed.note history rfl rfl rfl rfl rfl ?_ ?_ ?_
  · intro frame member hangsUp
    rcases List.mem_cons.mp member with rfl | member
    · rcases origin with ⟨closed, -⟩ | ⟨-, loop, here, same⟩
      · rw [closed] at hangsUp
        cases hangsUp
      · refine ⟨loop, here, fun unclaimed owed found => ?_⟩
        have unclaimed : claimed w.currentFd w.history = false := here ▸ unclaimed
        have conns : (w.unregister fd).2.kernel.conns = w.kernel.conns := by
          simp [World.unregister]
        rw [conns]
        change owed.conn = w.kernel.conns fd
        rw [here]
        exact (directing.current loop unclaimed).2 .close owed (same ▸ found)
    · exact removed.hangUps frame member hangsUp
  · intro other isShut
    cases byClose with
    | false => exact .inl isShut
    | true =>
        simp only [shut, Bool.or_eq_true, decide_eq_true_eq] at isShut
        rcases isShut with same | before
        · right
          subst same
          refine ⟨?_, ?_⟩
          · rw [w.callbacksAt_of_erase fd rfl, Function.update_self]
          · intro _ here
            have here : fd = w.currentFd := here
            change (if fd = w.currentFd then EventCB.empty else w.currentCb) = _
            rw [if_pos here]
        · exact .inl before
  · rcases origin with ⟨rfl, -⟩ | ⟨rfl, loop, here, same⟩
    · cases handler <;> trivial
    · cases handler with
      | none => trivial
      | some owed =>
          change shut fd w.history = false
          by_contra isShut
          rw [Bool.not_eq_false] at isShut
          have empty := (directing.closed fd isShut).2 loop here
          rw [empty] at same
          cases same

theorem frames_invoked {event : EventType} (notClose : event ≠ .close)
    {fd : Fd} {ticket : Nat} {cause : Cause} {stored current : Option Conn}
    {past : List (Event β)} :
    frames (.invoked fd event ticket cause stored current :: past) =
      frames past := by
  cases event <;> first | rfl | exact absurd rfl notClose

/-- The callback for an event of the batch. -/
theorem call (directing : Directing w) {event : EventType}
    {handler : Handler β} (loop : dispatching w.history = true)
    (found : w.currentCb event = some handler) :
    Directed (.invoked w.currentFd event handler.ticket .event handler.conn
      (w.kernel.conns w.currentFd)) w.history := by
  refine ⟨?_, ?_⟩
  · intro unclaimed
    obtain ⟨steady, belong⟩ := directing.current loop unclaimed
    exact ⟨steady.opened, (belong event handler found).trans steady.same,
      steady.same⟩
  · intro _
    by_contra isShut
    rw [Bool.not_eq_false] at isShut
    have empty := (directing.closed w.currentFd isShut).2 loop rfl
    simp [empty, EventCB.empty] at found

/-- The loop turns to another event, or leaves: nothing is known of the
callbacks it had loaded before. -/
theorem idle (directing : Directing w)
    (top : frames after.history = []) (loop : dispatching after.history = false)
    (fds : after.fds = w.fds)
    (interested : ∀ fd, (after.kernel.epoll fd).isSome →
      (w.kernel.epoll fd).isSome ∧ after.kernel.conns fd = w.kernel.conns fd)
    (waiting : ∀ fd ∈ pending after.history,
      claimed fd after.history = false →
      Steady after fd ∧ Belong after fd (w.callbacksAt fd))
    (distinct : (pending after.history).Nodup)
    (turned : ∀ fd, attended fd after.history → fd ∉ pending after.history)
    (shuts : ∀ fd, shut fd after.history → shut fd w.history)
    (directed : Always Directed after.history) : Directing after := by
  have callbacksNow : after.callbacksAt = w.callbacksAt := by
    funext fd
    rw [World.callbacksAt, World.callbacksAt, fds]
  refine ⟨?_, ?_, ?_, ?_, distinct, turned, ?_, ?_, directed⟩
  · intro fd registered
    obtain ⟨before, same⟩ := interested fd registered
    rw [callbacksNow, Belong, same]
    exact directing.interested fd before
  · rw [callbacksNow]
    exact waiting
  · rw [loop]
    exact fun impossible => by cases impossible
  · rw [loop]
    exact fun impossible => by cases impossible
  · rw [top]
    exact fun frame member => by cases member
  · rw [loop, callbacksNow]
    intro fd isShut
    exact ⟨(directing.closed fd (shuts fd isShut)).1,
      fun impossible => by cases impossible⟩

theorem turned_entered (directing : Directing w) (fd : Fd) (isRegistered : Bool)
    (other : Fd) (turn : attended other (.entered fd isRegistered :: w.history)) :
    other ∉ pending (.entered fd isRegistered :: w.history) := by
  simp only [attended, sinceBatch, Bool.or_eq_true, decide_eq_true_eq] at turn
  rcases turn with rfl | before
  · exact directing.distinct.not_mem_erase
  · exact fun member =>
      directing.turned other before (List.mem_of_mem_erase member)

/-- The loop turns to an event and loads the callbacks for it. -/
theorem load (directing : Directing w) {fd : Fd}
    {callbacks : EventCB (Handler β)} (top : frames w.history = [])
    (member : fd ∈ pending w.history)
    (registered : w.fds[fd]? = some callbacks) :
    Directing ((w.enter fd).loadCb callbacks) := by
  have contained : w.fds.contains fd = true := by
    simp [← ExtTreeMap.isSome_getElem?_eq_contains, registered]
  have same : w.callbacksAt fd = callbacks := by
    simp [World.callbacksAt, registered]
  refine ⟨directing.interested, ?_, ?_, fun _ _ _ _ => contained,
    directing.distinct.erase fd, turned_entered directing fd _, ?_, ?_,
    trivial, directing.directed⟩
  · intro other member unclaimed
    obtain ⟨steady, belong⟩ :=
      directing.waiting other (List.mem_of_mem_erase member) unclaimed
    exact ⟨⟨steady.notFresh, steady.opened, steady.same⟩, belong⟩
  · intro _ unclaimed
    obtain ⟨steady, belong⟩ := directing.waiting fd member unclaimed
    rw [same] at belong
    exact ⟨⟨steady.notFresh, steady.opened, steady.same⟩, belong⟩
  · intro frame isFrame
    change frame ∈ frames w.history at isFrame
    rw [top] at isFrame
    cases isFrame
  · intro other isShut
    have empty := (directing.closed other isShut).1
    refine ⟨empty, ?_⟩
    intro _ here
    have here : other = fd := here
    subst here
    exact same.symm.trans empty

theorem forcedRelease (directing : Directing w) {fd : Fd}
    (unregistered : w.fds.contains fd = false) :
    Directing (w.addCloseFd fd false) := by
  have absent : w.fds[fd]? = none := by
    rw [← Option.not_isSome_iff_eq_none,
      ExtTreeMap.isSome_getElem?_eq_contains, unregistered]
    exact Bool.false_ne_true
  refine directing.note rfl rfl rfl rfl rfl rfl directing.hangUps ?_ trivial
  intro other isShut
  simp only [shut, Bool.or_eq_true, decide_eq_true_eq] at isShut
  rcases isShut with rfl | before
  · refine .inr ⟨by simp [World.callbacksAt, absent], ?_⟩
    rintro loop rfl
    refine of_none ?_
    intro event handler found
    have contained := directing.loaded loop event handler found
    rw [unregistered] at contained
    cases contained
  · exact .inl before

/-- A hang-up that reaches its next stage is still that of the event. -/
theorem hangUps_advanced (directing : Directing w) {frame : Frame β}
    {rest : List (Frame β)} (top : frames w.history = frame :: rest)
    (progress : Progress) :
    ∀ later ∈ advance progress (frame :: rest), later.byClose = false →
      HangsUp w later := by
  intro later member hangsUp
  simp only [advance, List.mem_cons] at member
  rcases member with rfl | member
  · exact directing.hangUps frame (by simp [top]) hangsUp
  · exact directing.hangUps later (by simp [top, member]) hangsUp

theorem closeCall (directing : Directing w) {frame : Frame β}
    {rest : List (Frame β)} {handler : Handler β} {fd : Fd} {cause : Cause}
    (top : frames w.history = frame :: rest)
    (owed : frame.handler = some handler)
    (own : cause = .event → fd = frame.fd)
    (caused : cause = .event → frame.byClose = false) :
    Directing (w.logCall handler fd .close cause) := by
  refine directing.note rfl rfl rfl rfl rfl rfl ?_ (fun _ => .inl) ?_
  · simpa only [frames, top] using directing.hangUps_advanced top _
  · cases cause with
    | gameOver => trivial
    | close => trivial
    | event =>
        have same := own rfl
        subst same
        obtain ⟨loop, here, belongs⟩ :=
          directing.hangUps frame (by simp [top]) (caused rfl)
        refine ⟨?_, fun notClose => absurd rfl notClose⟩
        intro unclaimed
        have conn := belongs unclaimed handler owed
        rw [here] at unclaimed conn ⊢
        have steady := (directing.current loop unclaimed).1
        exact ⟨steady.opened, conn.trans steady.same, steady.same⟩

/-- A refused connect leaves the registry before its callback is told. -/
theorem refused (directing : Directing w) {handler : Handler β}
    (loop : dispatching w.history = true) (first : frames w.history = [])
    (found : w.currentCb .connect = some handler) (user : σ → σ) :
    Directing ((w.eraseConnect.unregister w.currentFd).2.mapUser user
      |>.log .refused |>.logCall handler w.currentFd .connect .event) := by
  have erased := directing.keep (.eraseConnect w)
  have removed := erased.keep (.unregister _ w.currentFd)
  have told := directing.call loop found
  have conns : (w.eraseConnect.unregister w.currentFd).2.kernel.conns =
      w.kernel.conns := by
    simp [World.unregister, World.eraseConnect]
  refine removed.idle first rfl rfl (fun fd present => ⟨present, rfl⟩) ?_
    removed.distinct removed.turned (fun _ => id)
    ⟨?_, trivial, directing.directed⟩
  · intro fd member unclaimed
    obtain ⟨steady, belong⟩ := removed.waiting fd member unclaimed
    exact ⟨⟨steady.notFresh, steady.opened, steady.same⟩, belong⟩
  · change Directed (.invoked w.currentFd .connect _ .event _
      ((w.eraseConnect.unregister w.currentFd).2.kernel.conns w.currentFd)) _
    rw [conns]
    exact told

theorem step {after : World (ClientCB κ) σ} {w : World (ClientCB κ) σ}
    (directing : Directing w) (base : Base (Client.rules False) w)
    (reported : Always (fun event _ => event.Reported) after.history)
    (step : Step (Client.rules False) w after) : Directing after := by
  cases step with
  | outside change =>
      cases change with
      | accept fd => exact directing.acceptFd base.sound fd
      | user change => exact directing.keep (.still rfl rfl ⟨rfl, rfl⟩ rfl rfl)
      | ssl fd connection =>
          exact directing.keep (.still rfl rfl ⟨rfl, rfl⟩ rfl rfl)
      | closeSocket new => exact directing.keep (.closeSocket base.sound new)
      | placed fd => exact directing.keep (.placed w fd)
      | dup2 new fd reopenable => exact directing.dup2 new fd reopenable
  | watchEvent fd event callback et legit =>
      exact directing.keep (.watchEvent w fd event callback et)
  | watch fd callbacks reWatch et legit =>
      exact directing.keep (.watch w fd callbacks reWatch et)
  | autoRewatch fd et => exact directing.keep (.autoRewatch w fd et)
  | unregister fd registered => exact directing.keep (.unregister w fd)
  | discard fd force =>
      exact directing.keep (.log rfl rfl rfl ⟨rfl, rfl⟩ rfl rfl)
  | detach fd callbacks handler byClose registered inEpoll origin =>
      exact directing.detach origin
  | forcedRelease fd unregistered recorded =>
      exact directing.forcedRelease unregistered
  | release fd top progress same =>
      refine directing.note rfl rfl rfl rfl rfl rfl ?_ (fun _ => .inl) trivial
      simpa only [frames, top] using directing.hangUps_advanced top _
  | @closeCall frame rest handler fd cause top progress owed same caused =>
      have own : cause = .event → fd = frame.fd :=
        fun _ => same.resolve_right fun nested => nested.1
      exact directing.closeCall top owed own caused
  | @finish frame rest top done =>
      refine directing.note rfl rfl rfl rfl rfl rfl ?_ (fun _ => .inl) trivial
      intro later member hangsUp
      exact directing.hangUps later (List.mem_of_mem_tail member) hangsUp
  | gameOverCall handler fd =>
      exact directing.keep (.log rfl rfl rfl ⟨rfl, rfl⟩ rfl rfl)
  | @dispatch handler event loop notConnect notClose found =>
      have loop := loop.resolve_right id
      refine directing.note rfl rfl rfl rfl rfl rfl ?_ (fun _ => .inl)
        (directing.call loop found)
      intro frame member
      rw [frames_invoked notClose] at member
      exact directing.hangUps frame member
  | eraseConnect loop registered => exact directing.keep (.eraseConnect w)
  | connected loop registered found =>
      have erased := directing.keep (.eraseConnect w)
      exact erased.note rfl rfl rfl rfl rfl rfl erased.hangUps (fun _ => .inl)
        (directing.call loop found)
  | refused loop first registered found user =>
      exact directing.refused loop (first.resolve_left id) found user
  | request fd data =>
      refine Directing.keep ?_ (.submit _ fd data)
      unfold World.logRequest
      split
      · exact directing
      · exact directing.keep (.log rfl rfl rfl ⟨rfl, rfl⟩ rfl rfl)
  | flush fd queued found =>
      refine Directing.keep ?_ (.submit _ fd queued)
      exact directing.keep (.still rfl rfl ⟨rfl, rfl⟩ rfl rfl)
  | answers answers => exact directing.keep (.still rfl rfl ⟨rfl, rfl⟩ rfl rfl)
  | handshake fd =>
      obtain ⟨connections, answers, same⟩ := w.handshake_eq fd
      rw [same]
      exact directing.keep (.still rfl rfl ⟨rfl, rfl⟩ rfl rfl)
  | batch list loop =>
      obtain ⟨loop, top⟩ := loop.resolve_left id
      obtain ⟨distinct, inEpoll⟩ := reported.1
      refine directing.idle top loop rfl (fun fd present => ⟨present, rfl⟩) ?_
        distinct (fun _ impossible => by cases impossible)
        (fun _ impossible => by cases impossible) ⟨trivial, directing.directed⟩
      intro fd member _
      have present := inEpoll fd member
      exact ⟨⟨rfl, Option.isSome_iff_ne_none.mp
        (base.sound.registeredOpen fd present), rfl⟩,
        directing.interested fd present⟩
  | skip fd loop inside unregistered =>
      obtain ⟨top, member⟩ := loop.resolve_left id
      refine directing.idle top unregistered rfl
        (fun fd present => ⟨present, rfl⟩) ?_ (directing.distinct.erase fd)
        (turned_entered directing fd _) (fun _ => id)
        ⟨trivial, directing.directed⟩
      intro other member unclaimed
      obtain ⟨steady, belong⟩ :=
        directing.waiting other (List.mem_of_mem_erase member) unclaimed
      exact ⟨⟨steady.notFresh, steady.opened, steady.same⟩, belong⟩
  | load fd callbacks loop inside registered =>
      obtain ⟨top, member⟩ := loop.resolve_left id
      exact directing.load top member registered
  | leave loop inside =>
      have top := loop.resolve_left id
      exact directing.idle top rfl rfl (fun fd present => ⟨present, rfl⟩)
        (fun _ member => by cases member) List.nodup_nil
        (fun _ _ member => by cases member) (fun _ => id)
        ⟨trivial, directing.directed⟩
  | sysClose fd rest loop next =>
      obtain ⟨idle, top, done⟩ := loop.resolve_left id
      refine directing.idle top idle rfl ?_ ?_ directing.distinct
        directing.turned (fun _ => id) ⟨trivial, directing.directed⟩
      · intro other present
        by_cases same : other = fd
        · simp [World.sysClose, World.log, Kernel.closeFd, same] at present
        · simpa [World.sysClose, World.log, Kernel.closeFd, same] using present
      · intro other member
        change other ∈ pending w.history at member
        rw [done] at member
        cases member
  | handled loop =>
      exact directing.keep (.log rfl rfl rfl ⟨rfl, rfl⟩ rfl rfl)

end Directing

/-- In every run whose callbacks do not call `handle_events` themselves, an
event that `epoll_wait` has reported reaches the connection it was reported
for. -/
theorem batch_events_directed (run : ClientRun κ σ) (flat : run.Flat)
    (reported : ∀ event ∈ run.history, event.Reported) :
    Always Directed run.history := by
  have directing := run.conditional False (.inr flat)
    (History.always_iff_forall_mem.mpr reported) Directing Directing.init
    (fun base reported holds step => holds.step base reported step)
  exact directing.directed

/-- Two connections with data in one batch; the callback of the first one runs
the given operations. -/
def meddling (ops : List (ClientOp Bool Unit)) : ClientRun Bool Unit :=
  { body := fun first _ _ _ => if first then .sequence ops else .done
    wantMessage := fun _ => false
    unwatched := fun _ user => user
    depth := 2
    program := .sequence
      [.manager (.accept 5), .manager (.accept 7),
        .manager (.watchEvent 5 .read true true),
        .manager (.watchEvent 7 .read false true),
        .manager (.handleEvents (.events
          [(5, { epollIn := true }), (7, { epollIn := true })]))]
    user := ()
    answers := { numbers := [9] } }

theorem meddling_flat {ops : List (ClientOp Bool Unit)}
    (flat : ∀ op ∈ ops, op.Flat) : (meddling ops).Flat := by
  intro first fd arg w
  cases first with
  | true => exact Stepwise.Script.forall_sequence flat
  | false => trivial

theorem closing_next_directed :
    (meddling [.manager (.close 7 false)]).Flat ∧
      (∀ event ∈ (meddling [.manager (.close 7 false)]).history,
        event.Reported) ∧
      Always Directed (meddling [.manager (.close 7 false)]).history :=
  have flat : (meddling [.manager (.close 7 false)]).Flat :=
    meddling_flat (by simp [ClientOp.Flat, Op.Flat])
  ⟨flat, by decide +kernel, batch_events_directed _ flat (by decide +kernel)⟩

/-- Whether the descriptor was closed since `epoll_wait` returned, and without
regard to connects that callers put on its number. -/
def closedInBatch (fd : Fd) : List (Event β) → Bool :=
  sinceBatch fun
    | .ending other _ _ true => decide (other = fd)
    | .released other _ false _ => decide (other = fd)
    | _ => false

/-- `Directed` without its two provisos. -/
def AlwaysDirected : Event β → List (Event β) → Prop
  | .invoked fd event _ .event stored current, past =>
      current ≠ none ∧ stored = batchConns past fd ∧
        current = batchConns past fd ∧
        (event ≠ .close → closedInBatch fd past = false)
  | _, _ => True

instance : ∀ (event : Event β) (past : List (Event β)),
    Decidable (AlwaysDirected event past)
  | .invoked _ _ _ .event _ _, _ =>
      inferInstanceAs (Decidable (_ ∧ _ ∧ _ ∧ (_ → _)))
  | .invoked _ _ _ .gameOver _ _, _ | .invoked _ _ _ .close _ _, _
  | .opened .., _ | .requested .., _ | .sysWrite .., _ | .stored .., _
  | .watched .., _ | .closing .., _ | .ending .., _ | .released .., _
  | .ended, _ | .sysClose .., _ | .batch .., _ | .entered .., _ | .refused, _
  | .left, _ | .handled .., _ | .placed .., _ => .isTrue trivial

/-- A descriptor that is closed and watched again gets the event that was
reported before; so does a connection that a callback puts on the number of
another one with `connect(addr, addrlen, callbacks, async, fd)`. -/
theorem meddling_misdirects :
    ((meddling [.manager (.close 7 false),
        .manager (.watchEvent 7 .read false true)]).Flat ∧
      (∀ event ∈ (meddling [.manager (.close 7 false),
        .manager (.watchEvent 7 .read false true)]).history, event.Reported) ∧
      ¬ Always AlwaysDirected (meddling [.manager (.close 7 false),
        .manager (.watchEvent 7 .read false true)]).history) ∧
    (meddling [.connectOn [] (EventCB.empty.set .read false) 7]).Flat ∧
      (∀ event ∈ (meddling
        [.connectOn [] (EventCB.empty.set .read false) 7]).history,
          event.Reported) ∧
      ¬ Always AlwaysDirected (meddling
        [.connectOn [] (EventCB.empty.set .read false) 7]).history := by
  refine ⟨⟨meddling_flat ?_, by decide +kernel, by decide +kernel⟩,
    meddling_flat ?_, by decide +kernel, by decide +kernel⟩
  · simp [ClientOp.Flat, Op.Flat]
  · simp [ClientOp.Flat]

end Universe
