import Universe.EventManager.Traffic

/-!
# The `CLOSE` callback of a registration

A ticket names the call of `watch` that stored a callback.  Every ticket of a
`CLOSE` callback is in one place only: in `_fds` and `_current_cb`, owed by an
end that is under way, or already called.
-/

namespace Universe

open Std (ExtTreeMap)
open History (Always)

variable {β σ : Type}

/-- How often the `CLOSE` callback with this ticket was invoked. -/
def closeCalls (ticket : Nat) : List (Event β) → Nat
  | [] => 0
  | .invoked _ .close called _ _ _ :: past =>
      closeCalls ticket past + if called = ticket then 1 else 0
  | _ :: past => closeCalls ticket past

/-- The end still has to call the callback with this ticket. -/
def Frame.owes (ticket : Nat) (frame : Frame β) : Prop :=
  frame.progress ≠ .called ∧
    ∃ handler, frame.handler = some handler ∧ handler.ticket = ticket

instance (ticket : Nat) : DecidablePred (Frame.owes (β := β) ticket) :=
  fun frame => match frame with
  | ⟨_, none, _, _⟩ => .isFalse (by simp [Frame.owes])
  | ⟨_, some handler, _, progress⟩ =>
      decidable_of_iff (progress ≠ .called ∧ handler.ticket = ticket)
        (by simp [Frame.owes])

/-- The calls of a `CLOSE` callback that were made or are owed. -/
def spent (ticket : Nat) (history : List (Event β)) : Nat :=
  closeCalls ticket history +
    (frames history).countP (fun frame => decide (frame.owes ticket))

/-- The callbacks with this ticket were stored with `re_watch` for the
descriptor whose event is being handled, since its turn came. -/
def rewatched (ticket : Nat) : List (Event β) → Bool
  | [] => false
  | .entered .. :: _ => false
  | .watched _ stored true true :: past =>
      decide (stored = ticket) || rewatched ticket past
  | _ :: past => rewatched ticket past

namespace World

/-- The `CLOSE` callback of `_fds[fd]`. -/
def closeAt (w : World β σ) (fd : Fd) : Option (Handler β) :=
  w.callbacksAt fd .close

variable (w : World β σ) (fd : Fd)

theorem closeAt_congr {after : World β σ}
    (same : after.callbacksAt = w.callbacksAt) : after.closeAt = w.closeAt := by
  funext other
  rw [closeAt, closeAt, same]

end World

/-- An event that neither ends a registration nor belongs to such an end. -/
def Event.apart : Event β → Bool
  | .ending .. => false
  | .released _ _ true _ => false
  | .ended => false
  | .invoked _ .close _ _ _ _ => false
  | _ => true

/-- An event that neither ends a registration nor turns to another event of
the batch. -/
def Event.passing : Event β → Bool
  | .ending .. => false
  | .entered .. => false
  | _ => true

/-- The end calls the `CLOSE` callback of the registration it ends, unless a
hang-up ends callbacks that were stored with `re_watch` in its own event. -/
def EndsOwn : Event β → List (Event β) → Prop
  | .ending _ handler (some stored) byClose, past =>
      byClose = true ∨ rewatched stored.ticket past = false →
        handler = some stored
  | _, _ => True

section Passing

variable {event : Event β} {past : List (Event β)}

theorem rewatched_of_passing (passing : event.passing) {ticket : Nat}
    (again : rewatched ticket past = true) :
    rewatched ticket (event :: past) = true := by
  cases event with
  | entered => cases passing
  | watched fd stored reWatch current =>
      cases reWatch with
      | false => exact again
      | true =>
          cases current with
          | false => exact again
          | true => simp [rewatched, again]
  | _ => exact again

theorem endsOwn_of_passing (passing : event.passing) : EndsOwn event past := by
  cases event with
  | ending => cases passing
  | _ => trivial

end Passing

theorem spent_of_apart {event : Event β} (apart : event.apart) (ticket : Nat)
    (past : List (Event β)) :
    spent ticket (event :: past) = spent ticket past := by
  cases event with
  | released fd conn own pending =>
      cases own with
      | true => cases apart
      | false => rfl
  | invoked fd kind called cause stored current =>
      cases kind with
      | close => cases apart
      | _ => rfl
  | ending => cases apart
  | ended => cases apart
  | _ => rfl

section Spent

variable (ticket : Nat) {past : List (Event β)} {frame : Frame β}
  {rest : List (Frame β)}

theorem spent_ending (fd : Fd) (handler stored : Option (Handler β))
    (byClose : Bool) :
    spent ticket (.ending fd handler stored byClose :: past) =
      spent ticket past +
        if handler.map Handler.ticket = some ticket then 1 else 0 := by
  cases handler with
  | none => simp [spent, closeCalls, frames, Frame.owes]
  | some owed =>
      simp only [spent, closeCalls, frames, List.countP_cons, Option.map_some,
        Option.some.injEq, Frame.owes]
      simp [Nat.add_assoc]

theorem spent_released (fd : Fd) (conn : Option Conn) (pending : Bool)
    (top : frames past = frame :: rest) (progress : frame.progress = .begun) :
    spent ticket (.released fd conn true pending :: past) =
      spent ticket past := by
  simp [spent, closeCalls, frames, top, advance, List.countP_cons, Frame.owes,
    progress]

theorem spent_invoked (fd : Fd) (handler : Handler β) (cause : Cause)
    (stored current : Option Conn) (top : frames past = frame :: rest)
    (progress : frame.progress = .released)
    (owed : frame.handler = some handler) :
    spent ticket (.invoked fd .close handler.ticket cause stored current :: past) =
      spent ticket past := by
  simp only [spent, closeCalls, frames, top, advance, List.countP_cons,
    Frame.owes, progress, owed]
  simp [Nat.add_comm, Nat.add_left_comm, Nat.add_assoc]

theorem spent_ended (top : frames past = frame :: rest)
    (done : frame.progress = .called ∨
      frame.handler = none ∧ frame.progress = .released) :
    spent ticket (.ended :: past) = spent ticket past := by
  rcases done with called | ⟨nothing, -⟩
  · simp [spent, closeCalls, frames, top, Frame.owes, called]
  · simp [spent, closeCalls, frames, top, Frame.owes, nothing]

end Spent

/-- Every ticket of a `CLOSE` callback is in one place only. -/
structure Once (w : World β σ) : Prop where
  atMost : ∀ ticket, spent ticket w.history ≤ 1
  known : ∀ ticket, w.tickets ≤ ticket → spent ticket w.history = 0
  stored : ∀ {fd handler}, w.closeAt fd = some handler →
    handler.ticket < w.tickets ∧ spent handler.ticket w.history = 0
  distinct : ∀ {fd other handler another}, w.closeAt fd = some handler →
    w.closeAt other = some another → handler.ticket = another.ticket →
    fd = other
  current : dispatching w.history = true → ∀ {handler},
    w.currentCb .close = some handler →
    handler.ticket < w.tickets ∧ spent handler.ticket w.history = 0 ∧
      ∀ {fd another}, w.closeAt fd = some another →
        another.ticket = handler.ticket → fd = w.currentFd
  ended : ∀ {fd handler stored byClose},
    Event.ending fd (some handler) stored byClose ∈ w.history →
    spent handler.ticket w.history = 1

namespace Once

variable {w after : World β σ}

theorem init (user : σ) (answers : Answers) :
    Once (World.init user answers : World β σ) := by
  constructor <;>
    simp [World.init, spent, closeCalls, frames, World.closeAt,
      World.callbacksAt, EventCB.empty, dispatching]

/-- Nothing happens to the `CLOSE` callbacks; the loop of `handle_events` may
be left. -/
theorem keep (once : Once w) (closeAt : after.closeAt = w.closeAt)
    (tickets : w.tickets ≤ after.tickets)
    (current : dispatching after.history = true →
      dispatching w.history = true ∧
        after.currentCb .close = w.currentCb .close ∧
        after.currentFd = w.currentFd)
    (same : ∀ ticket, spent ticket after.history = spent ticket w.history)
    (ended : ∀ {fd handler stored byClose},
      Event.ending fd (some handler) stored byClose ∈ after.history →
      Event.ending fd (some handler) stored byClose ∈ w.history) :
    Once after := by
  constructor
  · intro ticket
    rw [same]
    exact once.atMost ticket
  · intro ticket future
    rw [same]
    exact once.known ticket (Nat.le_trans tickets future)
  · intro fd handler found
    rw [closeAt] at found
    rw [same]
    obtain ⟨old, unspent⟩ := once.stored found
    exact ⟨Nat.lt_of_lt_of_le old tickets, unspent⟩
  · rw [closeAt]
    exact once.distinct
  · intro loop handler found
    obtain ⟨looping, sameClose, sameFd⟩ := current loop
    rw [sameClose] at found
    obtain ⟨old, unspent, only⟩ := once.current looping found
    rw [same, closeAt, sameFd]
    exact ⟨Nat.lt_of_lt_of_le old tickets, unspent, only⟩
  · intro fd handler stored byClose member
    rw [same]
    exact once.ended (ended member)

/-- One event apart from all ends. -/
theorem log (once : Once w) {event : Event β} (apart : event.apart)
    (closeAt : after.closeAt = w.closeAt)
    (tickets : w.tickets ≤ after.tickets)
    (current : dispatching after.history = true →
      dispatching w.history = true ∧
        after.currentCb .close = w.currentCb .close ∧
        after.currentFd = w.currentFd)
    (history : after.history = event :: w.history) : Once after := by
  refine once.keep closeAt tickets current ?_ ?_
  · intro ticket
    rw [history, spent_of_apart apart]
  · intro fd handler stored byClose member
    rw [history] at member
    rcases List.mem_cons.mp member with rfl | member
    · cases apart
    · exact member

/-- A registration is made: its `CLOSE` callback, if any, has a new ticket. -/
theorem watched (once : Once w) (fd : Fd) (value : Option (Handler β))
    (closeAt : after.closeAt = Function.update w.closeAt fd value)
    (fresh : ∀ {handler}, value = some handler → handler.ticket = w.tickets)
    (tickets : after.tickets = w.tickets + 1)
    (loop : dispatching after.history = dispatching w.history)
    (currentFd : after.currentFd = w.currentFd)
    (current : after.currentCb .close = w.currentCb .close ∨
      fd = w.currentFd ∧ after.currentCb .close = value)
    (same : ∀ ticket, spent ticket after.history = spent ticket w.history)
    (ended : ∀ {fd handler stored byClose},
      Event.ending fd (some handler) stored byClose ∈ after.history →
      Event.ending fd (some handler) stored byClose ∈ w.history) :
    Once after := by
  -- A callback found now is the new one, or an old one at another number.
  have found : ∀ {other handler}, after.closeAt other = some handler →
      other = fd ∧ handler.ticket = w.tickets ∨
        other ≠ fd ∧ w.closeAt other = some handler := by
    intro other handler stored
    rw [closeAt] at stored
    by_cases here : other = fd
    · subst here
      rw [Function.update_self] at stored
      exact .inl ⟨rfl, fresh stored⟩
    · rw [Function.update_of_ne here] at stored
      exact .inr ⟨here, stored⟩
  constructor
  · intro ticket
    rw [same]
    exact once.atMost ticket
  · intro ticket future
    rw [same]
    exact once.known ticket (by omega)
  · intro other handler stored
    rw [same]
    rcases found stored with ⟨-, new⟩ | ⟨-, before⟩
    · exact ⟨by omega, once.known _ (by omega)⟩
    · obtain ⟨old, unspent⟩ := once.stored before
      exact ⟨by omega, unspent⟩
  · intro first second handler another firstFound secondFound sameTicket
    rcases found firstFound with ⟨rfl, new⟩ | ⟨-, firstBefore⟩
    · rcases found secondFound with ⟨rfl, -⟩ | ⟨-, secondBefore⟩
      · rfl
      · have old := (once.stored secondBefore).1
        omega
    · rcases found secondFound with ⟨rfl, new⟩ | ⟨-, secondBefore⟩
      · have old := (once.stored firstBefore).1
        omega
      · exact once.distinct firstBefore secondBefore sameTicket
  · intro looping handler loaded
    rw [loop] at looping
    rw [same, currentFd]
    rcases current with kept | ⟨here, replaced⟩
    · rw [kept] at loaded
      obtain ⟨old, unspent, only⟩ := once.current looping loaded
      refine ⟨by omega, unspent, ?_⟩
      intro other another stored sameTicket
      rcases found stored with ⟨-, new⟩ | ⟨-, before⟩
      · omega
      · exact only before sameTicket
    · rw [replaced] at loaded
      have new := fresh loaded
      refine ⟨by omega, once.known _ (by omega), ?_⟩
      intro other another stored sameTicket
      rcases found stored with ⟨same, -⟩ | ⟨-, before⟩
      · rw [same, here]
      · have old := (once.stored before).1
        omega
  · intro other handler stored byClose member
    rw [same]
    exact once.ended (ended member)

/-- A registration is taken out; its end may owe a callback from now on. -/
theorem removed (once : Once w) (fd : Fd) (handler : Option (Handler β))
    (closeAt : after.closeAt = Function.update w.closeAt fd none)
    (tickets : after.tickets = w.tickets)
    (loop : dispatching after.history = dispatching w.history)
    (currentFd : after.currentFd = w.currentFd)
    (current : after.currentCb .close =
      if fd = w.currentFd then none else w.currentCb .close)
    (charged : ∀ ticket, spent ticket after.history =
      spent ticket w.history +
        if handler.map Handler.ticket = some ticket then 1 else 0)
    (unspent : ∀ {owed}, handler = some owed →
      owed.ticket < w.tickets ∧ spent owed.ticket w.history = 0 ∧
        (∀ {other another}, w.closeAt other = some another →
          another.ticket = owed.ticket → other = fd) ∧
        (dispatching w.history = true → fd ≠ w.currentFd →
          ∀ {another}, w.currentCb .close = some another →
            another.ticket ≠ owed.ticket))
    (ended : ∀ {fd owed stored byClose},
      Event.ending fd (some owed) stored byClose ∈ after.history →
      Event.ending fd (some owed) stored byClose ∈ w.history ∨
        handler = some owed) :
    Once after := by
  have found : ∀ {other another}, after.closeAt other = some another →
      other ≠ fd ∧ w.closeAt other = some another := by
    intro other another stored
    rw [closeAt] at stored
    by_cases here : other = fd
    · subst here
      simp at stored
    · rw [Function.update_of_ne here] at stored
      exact ⟨here, stored⟩
  have uncharged : ∀ {ticket}, handler.map Handler.ticket ≠ some ticket →
      spent ticket after.history = spent ticket w.history := by
    intro ticket different
    rw [charged, if_neg different]
    rfl
  constructor
  · intro ticket
    by_cases owes : handler.map Handler.ticket = some ticket
    · obtain ⟨owed, isOwed, rfl⟩ := Option.map_eq_some_iff.mp owes
      apply Nat.le_of_eq
      rw [charged, if_pos owes, (unspent isOwed).2.1]
    · rw [uncharged owes]
      exact once.atMost ticket
  · intro ticket future
    rw [tickets] at future
    rw [uncharged ?_]
    · exact once.known ticket future
    · intro owes
      obtain ⟨owed, isOwed, rfl⟩ := Option.map_eq_some_iff.mp owes
      exact absurd (unspent isOwed).1 (by omega)
  · intro other another stored
    obtain ⟨different, before⟩ := found stored
    rw [tickets, uncharged ?_]
    · exact once.stored before
    · intro owes
      obtain ⟨owed, isOwed, sameTicket⟩ := Option.map_eq_some_iff.mp owes
      exact different ((unspent isOwed).2.2.1 before sameTicket.symm)
  · intro first second handler another firstFound secondFound sameTicket
    exact once.distinct (found firstFound).2 (found secondFound).2 sameTicket
  · intro looping another loaded
    rw [loop] at looping
    rw [current] at loaded
    split at loaded
    · cases loaded
    · next elsewhere =>
        obtain ⟨old, kept, only⟩ := once.current looping loaded
        rw [tickets, currentFd, uncharged ?_]
        · exact ⟨old, kept, fun stored => only (found stored).2⟩
        · intro owes
          obtain ⟨owed, isOwed, sameTicket⟩ := Option.map_eq_some_iff.mp owes
          exact (unspent isOwed).2.2.2 looping elsewhere loaded sameTicket.symm
  · intro other owed stored byClose member
    by_cases owes : handler.map Handler.ticket = some owed.ticket
    · obtain ⟨first, isOwed, sameTicket⟩ := Option.map_eq_some_iff.mp owes
      rw [charged, if_pos owes, ← sameTicket, (unspent isOwed).2.1]
    · rw [uncharged owes]
      refine once.ended ((ended member).resolve_right ?_)
      rintro rfl
      exact owes rfl

/-- A frame makes progress without changing what it owes. -/
theorem progressed (once : Once w) (closeAt : after.closeAt = w.closeAt)
    (tickets : after.tickets = w.tickets)
    (loop : dispatching after.history = dispatching w.history)
    (currentFd : after.currentFd = w.currentFd)
    (currentCb : after.currentCb = w.currentCb)
    (same : ∀ ticket, spent ticket after.history = spent ticket w.history)
    {event : Event β} (history : after.history = event :: w.history)
    (notEnding : ∀ fd handler stored byClose,
      event ≠ .ending fd handler stored byClose) : Once after := by
  refine once.keep closeAt (Nat.le_of_eq tickets.symm) ?_ same ?_
  · intro looping
    exact ⟨loop ▸ looping, by rw [currentCb], currentFd⟩
  · intro fd handler stored byClose member
    rw [history] at member
    rcases List.mem_cons.mp member with ending | member
    · exact absurd ending.symm (notEnding _ _ _ _)
    · exact member

theorem submit (once : Once w) (fd : Fd) (data : Bytes) :
    Once (w.submit fd data).2 := by
  have same := World.submit_submitted w fd data
  have grows := submit_grows w fd data
  have loop := grows.same dispatching_writing
  refine once.keep (w.closeAt_congr same.callbacksAt)
    (Nat.le_of_eq same.tickets.symm) ?_ ?_ ?_
  · intro looping
    exact ⟨loop ▸ looping, by rw [same.currentCb], same.currentFd⟩
  · intro ticket
    refine grows.same ?_
    intro event past isWriting
    refine spent_of_apart ?_ ticket past
    cases event <;> first | rfl | cases isWriting
  · intro other handler stored byClose member
    obtain ⟨events, history, writing⟩ := grows
    rw [history] at member
    rcases List.mem_append.mp member with member | member
    · cases writing _ member
    · exact member

theorem epollUpdate (once : Once w) (fd : Fd) (op : EpollOp) (et : Bool) :
    Once (w.epollUpdate fd op et).2 := by
  have closeAt := w.closeAt_congr (w.epollUpdate_callbacksAt fd op et)
  by_cases deleted : op = .del
  · subst deleted
    exact once.keep closeAt (Nat.le_refl _) (fun looping => ⟨looping, rfl, rfl⟩)
      (fun _ => rfl) id
  · have history := w.epollUpdate_history fd et deleted
    refine once.log rfl closeAt (by simp) ?_ history
    intro looping
    rw [history] at looping
    exact ⟨looping, by simp, by simp⟩

theorem closeAt_erase {middle : World β σ} (fd : Fd)
    (fds : middle.fds = w.fds.erase fd) :
    middle.closeAt = Function.update w.closeAt fd none := by
  funext other
  rw [World.closeAt, w.callbacksAt_of_erase fd fds]
  by_cases same : other = fd
  · simp [same, EventCB.empty]
  · simp [Function.update_of_ne same, World.closeAt]

theorem currentCb_cleared (fd : Fd) :
    (if fd = w.currentFd then EventCB.empty else w.currentCb) .close =
      if fd = w.currentFd then none else w.currentCb .close := by
  split <;> rfl

theorem unregister (once : Once w) (fd : Fd) : Once (w.unregister fd).2 := by
  refine Once.epollUpdate ?_ fd .del true
  refine once.removed fd none (closeAt_erase fd rfl) rfl rfl rfl
    (currentCb_cleared fd) (fun _ => rfl) ?_ .inl
  intro owed impossible
  cases impossible

theorem detach (once : Once w) {fd : Fd} {callbacks : EventCB (Handler β)}
    {handler : Option (Handler β)} {byClose : Bool}
    (registered : w.fds[fd]? = some callbacks)
    (origin : (byClose = true ∧ handler = callbacks .close) ∨
      (byClose = false ∧ dispatching w.history = true ∧ fd = w.currentFd ∧
        handler = w.currentCb .close)) :
    Once (w.detach fd callbacks handler byClose) := by
  have found : w.closeAt fd = callbacks .close := by
    simp [World.closeAt, World.callbacksAt, registered]
  refine Once.epollUpdate ?_ fd .del true
  refine once.removed fd handler (closeAt_erase fd rfl) rfl rfl rfl
    (currentCb_cleared fd) (fun ticket => spent_ending ticket ..) ?_ ?_
  · rintro owed rfl
    rcases origin with ⟨-, stored⟩ | ⟨-, looping, here, loaded⟩
    · have stored : w.closeAt fd = some owed := found.trans stored.symm
      obtain ⟨old, unspent⟩ := once.stored stored
      refine ⟨old, unspent, ?_, ?_⟩
      · intro other another elsewhere sameTicket
        exact once.distinct elsewhere stored sameTicket
      · intro looping elsewhere another loaded sameTicket
        obtain ⟨-, -, only⟩ := once.current looping loaded
        exact elsewhere (only stored sameTicket.symm)
    · obtain ⟨old, unspent, only⟩ := once.current looping loaded.symm
      refine ⟨old, unspent, ?_, ?_⟩
      · intro other another elsewhere sameTicket
        rw [here]
        exact only elsewhere sameTicket
      · intro _ elsewhere
        exact absurd here elsewhere
  · intro other owed stored byClose member
    rcases List.mem_cons.mp member with same | member
    · cases same
      exact .inr rfl
    · exact .inl member

theorem closeAt_eraseConnect : w.eraseConnect.closeAt = w.closeAt := by
  have callbacks := w.callbacksAt_of_insert w.currentFd
    (rfl : w.eraseConnect.fds = _)
  funext other
  rw [World.closeAt, callbacks]
  by_cases same : other = w.currentFd
  · simp [same, EventCB.erase, World.closeAt, World.callbacksAt]
  · simp [Function.update_of_ne same, World.closeAt]

theorem currentCb_eraseConnect :
    w.eraseConnect.currentCb .close = w.currentCb .close := by
  simp [World.eraseConnect, EventCB.erase]

theorem eraseConnect (once : Once w) : Once w.eraseConnect := by
  refine once.keep closeAt_eraseConnect (Nat.le_refl _) ?_ (fun _ => rfl) id
  intro looping
  exact ⟨looping, currentCb_eraseConnect, rfl⟩

theorem logCall (once : Once w) {event : EventType} (notClose : event ≠ .close)
    (handler : Handler β) (fd : Fd) (cause : Cause) :
    Once (w.logCall handler fd event cause) := by
  cases event with
  | close => exact absurd rfl notClose
  | connect =>
      exact once.log rfl rfl (Nat.le_refl _) (fun looping =>
        ⟨looping, rfl, rfl⟩) rfl
  | read =>
      exact once.log rfl rfl (Nat.le_refl _) (fun looping =>
        ⟨looping, rfl, rfl⟩) rfl
  | write =>
      exact once.log rfl rfl (Nat.le_refl _) (fun looping =>
        ⟨looping, rfl, rfl⟩) rfl
  | error =>
      exact once.log rfl rfl (Nat.le_refl _) (fun looping =>
        ⟨looping, rfl, rfl⟩) rfl

theorem closeAt_insert {middle : World β σ} (fd : Fd)
    {callbacks : EventCB (Handler β)}
    (fds : middle.fds = w.fds.insert fd callbacks) :
    middle.closeAt = Function.update w.closeAt fd (callbacks .close) := by
  funext other
  rw [World.closeAt, w.callbacksAt_of_insert fd fds]
  by_cases same : other = fd
  · simp [same]
  · simp [Function.update_of_ne same, World.closeAt]

theorem ending_mem_of_cons {event : Event β}
    (notEnding : ∀ fd handler stored byClose,
      event ≠ .ending fd handler stored byClose) {fd : Fd}
    {handler stored : Option (Handler β)} {byClose : Bool}
    {past : List (Event β)}
    (member : .ending fd handler stored byClose ∈ event :: past) :
    .ending fd handler stored byClose ∈ past := by
  rcases List.mem_cons.mp member with same | member
  · exact absurd same.symm (notEnding _ _ _ _)
  · exact member

theorem watchEvent (once : Once w) (fd : Fd) (event : EventType)
    (callback : β) (et : Bool) : Once (w.watchEvent fd event callback et).2 := by
  refine Once.epollUpdate ?_ fd _ et
  by_cases closes : event = .close
  · subst closes
    refine once.watched fd (some ⟨callback, w.tickets, w.kernel.conns fd⟩) ?_ ?_
      rfl rfl rfl ?_ (fun _ => rfl) ?_
    · rw [closeAt_insert fd (rfl : _ = w.fds.insert fd _)]
      simp [EventCB.set]
    · intro handler same
      cases same
      rfl
    · by_cases here : fd = w.currentFd
      · exact .inr ⟨here, by simp [World.log, here, EventCB.set]⟩
      · exact .inl (by simp [World.log, here])
    · intro other handler stored byClose member
      exact ending_mem_of_cons (by simp) member
  · refine once.log rfl ?_ (Nat.le_succ _) ?_ rfl
    · rw [closeAt_insert fd (rfl : _ = w.fds.insert fd _)]
      rw [EventCB.set, Function.update_of_ne (Ne.symm closes)]
      exact Function.update_eq_self fd w.closeAt
    · intro looping
      refine ⟨looping, ?_, rfl⟩
      simp only [World.log]
      split
      · rw [EventCB.set, Function.update_of_ne (Ne.symm closes)]
      · rfl

theorem watch (once : Once w) (fd : Fd) (callbacks : EventCB β)
    (reWatch et : Bool) : Once (w.watch fd callbacks reWatch et).2 := by
  refine Once.epollUpdate ?_ fd _ et
  refine once.watched fd
    (callbacks.map (⟨·, w.tickets, w.kernel.conns fd⟩) .close) ?_ ?_ rfl rfl rfl
    ?_ (fun _ => rfl) ?_
  · exact closeAt_insert fd rfl
  · intro handler found
    simp only [EventCB.map, Option.map_eq_some_iff] at found
    obtain ⟨callback, -, rfl⟩ := found
    rfl
  · simp only [World.log]
    split
    · next here =>
        simp only [Bool.and_eq_true, decide_eq_true_eq] at here
        exact .inr ⟨here.2, rfl⟩
    · exact .inl rfl
  · intro other handler stored byClose member
    exact ending_mem_of_cons (by simp) member

theorem step (once : Once w) (step : Step Rules.plain w after) :
    Once after := by
  have logged : ∀ {event : Event β}, event.apart →
      dispatching (event :: w.history) = dispatching w.history →
      Once (w.log event) := by
    intro event apart loop
    exact once.log apart rfl (Nat.le_refl _)
      (fun looping => ⟨loop ▸ looping, rfl, rfl⟩) rfl
  cases step with
  | outside change =>
      cases change with
      | accept fd =>
          unfold World.acceptFd
          split
          · exact once.log rfl rfl (Nat.le_refl _)
              (fun looping => ⟨looping, rfl, rfl⟩) rfl
          · exact once
      | user change =>
          exact once.keep rfl (Nat.le_refl _)
            (fun looping => ⟨looping, rfl, rfl⟩) (fun _ => rfl) id
  | watchEvent fd event callback et legit =>
      exact once.watchEvent fd event callback et
  | watch fd callbacks reWatch et legit =>
      exact once.watch fd callbacks reWatch et
  | autoRewatch fd et => exact once.epollUpdate fd _ et
  | unregister fd registered => exact once.unregister fd
  | discard fd force =>
      exact once.log rfl rfl (Nat.le_refl _)
        (fun looping => ⟨looping, rfl, rfl⟩) rfl
  | detach fd callbacks handler byClose registered inEpoll origin =>
      exact once.detach registered origin
  | forcedRelease fd unregistered recorded =>
      exact once.log rfl rfl (Nat.le_refl _)
        (fun looping => ⟨looping, rfl, rfl⟩) rfl
  | release fd top progress same =>
      exact once.progressed rfl rfl rfl rfl rfl
        (fun ticket => spent_released ticket _ _ _ top progress) rfl (by simp)
  | closeCall fd cause top progress owed same caused =>
      exact once.progressed rfl rfl rfl rfl rfl
        (fun ticket => spent_invoked ticket _ _ _ _ _ top progress owed) rfl
        (by simp)
  | finish top done =>
      exact once.progressed rfl rfl rfl rfl rfl
        (fun ticket => spent_ended ticket top done) rfl (by simp)
  | gameOverCall handler fd => exact once.logCall (by decide) ..
  | dispatch event loop notConnect notClose found =>
      exact once.logCall notClose ..
  | eraseConnect loop registered => exact once.eraseConnect
  | connected loop registered found =>
      exact once.eraseConnect.logCall (by decide) ..
  | refused loop first registered found user =>
      refine Once.logCall ?_ (by decide) _ _ _
      refine (once.eraseConnect.unregister w.currentFd).log rfl rfl
        (Nat.le_refl _) ?_ rfl
      intro looping
      simp [World.log, dispatching] at looping
  | request fd data =>
      refine Once.submit ?_ fd data
      unfold World.logRequest
      split
      · exact once
      · exact logged rfl rfl
  | flush fd queued found =>
      refine Once.submit ?_ fd queued
      exact once.keep rfl (Nat.le_refl _)
        (fun looping => ⟨looping, rfl, rfl⟩) (fun _ => rfl) id
  | answers answers =>
      exact once.keep rfl (Nat.le_refl _)
        (fun looping => ⟨looping, rfl, rfl⟩) (fun _ => rfl) id
  | handshake fd =>
      obtain ⟨connections, answers, same⟩ := w.handshake_eq fd
      rw [same]
      exact once.keep rfl (Nat.le_refl _)
        (fun looping => ⟨looping, rfl, rfl⟩) (fun _ => rfl) id
  | batch reported loop => exact logged rfl rfl
  | skip fd loop inside unregistered =>
      refine once.log rfl rfl (Nat.le_refl _) ?_ rfl
      intro looping
      simp [World.enter, World.log, dispatching, unregistered] at looping
  | load fd callbacks loop inside registered =>
      have entered : ∀ ticket,
          spent ticket ((w.enter fd).loadCb callbacks).history =
            spent ticket w.history := fun _ => rfl
      have found : w.closeAt fd = callbacks .close := by
        simp [World.closeAt, World.callbacksAt, registered]
      refine ⟨once.atMost, once.known, once.stored, once.distinct, ?_, ?_⟩
      · intro looping handler loaded
        have stored : w.closeAt fd = some handler := found.trans loaded
        refine ⟨(once.stored stored).1, (once.stored stored).2, ?_⟩
        intro other another elsewhere sameTicket
        exact once.distinct elsewhere stored sameTicket
      · intro other handler stored byClose member
        exact once.ended (ending_mem_of_cons (by simp) member)
  | leave loop inside =>
      refine once.log rfl rfl (Nat.le_refl _) ?_ rfl
      intro looping
      simp [World.leave, World.log, dispatching] at looping
  | sysClose fd rest loop next =>
      exact once.log rfl rfl (Nat.le_refl _)
        (fun looping => ⟨looping, rfl, rfl⟩) rfl
  | handled loop => exact logged rfl rfl

end Once

/-- The loaded `CLOSE` callback is the one in `_fds`, unless that one was
stored with `re_watch` since. -/
structure Aligned (w : World β σ) : Prop where
  current : dispatching w.history = true → ∀ {handler},
    w.closeAt w.currentFd = some handler →
    w.currentCb .close = some handler ∨
      rewatched handler.ticket w.history = true
  endings : Always EndsOwn w.history

namespace Aligned

variable {w after : World β σ}

theorem init (user : σ) (answers : Answers) :
    Aligned (World.init user answers : World β σ) := by
  constructor <;> simp [World.init, dispatching, Always]

theorem keep (aligned : Aligned w) (closeAt : after.closeAt = w.closeAt)
    (current : dispatching after.history = true →
      dispatching w.history = true ∧
        after.currentCb .close = w.currentCb .close ∧
        after.currentFd = w.currentFd)
    (again : ∀ {ticket}, rewatched ticket w.history = true →
      rewatched ticket after.history = true)
    (endings : Always EndsOwn after.history) : Aligned after := by
  refine ⟨?_, endings⟩
  intro looping handler found
  obtain ⟨loop, sameClose, sameFd⟩ := current looping
  rw [closeAt, sameFd] at found
  rw [sameClose]
  rcases aligned.current loop found with loaded | stored
  · exact .inl loaded
  · exact .inr (again stored)

theorem log (aligned : Aligned w) {event : Event β} (passing : event.passing)
    (closeAt : after.closeAt = w.closeAt)
    (current : dispatching after.history = true →
      dispatching w.history = true ∧
        after.currentCb .close = w.currentCb .close ∧
        after.currentFd = w.currentFd)
    (history : after.history = event :: w.history) : Aligned after := by
  refine aligned.keep closeAt current ?_ ?_
  · intro ticket stored
    rw [history]
    exact rewatched_of_passing passing stored
  · rw [history]
    exact ⟨endsOwn_of_passing passing, aligned.endings⟩

theorem epollUpdate (aligned : Aligned w) (fd : Fd) (op : EpollOp) (et : Bool) :
    Aligned (w.epollUpdate fd op et).2 := by
  have closeAt := w.closeAt_congr (w.epollUpdate_callbacksAt fd op et)
  by_cases deleted : op = .del
  · subst deleted
    exact aligned.keep closeAt (fun looping => ⟨looping, rfl, rfl⟩) id
      aligned.endings
  · have history := w.epollUpdate_history fd et deleted
    refine aligned.log rfl closeAt ?_ history
    intro looping
    rw [history] at looping
    exact ⟨looping, by simp, by simp⟩

/-- The callback at one number changes, and in `_current_cb` as well, unless
it is a new one of `re_watch`. -/
theorem update (aligned : Aligned w) (fd : Fd) (value : Option (Handler β))
    (closeAt : after.closeAt = Function.update w.closeAt fd value)
    (loop : dispatching after.history = dispatching w.history)
    (currentFd : after.currentFd = w.currentFd)
    (current : (after.currentCb .close =
        if fd = w.currentFd then value else w.currentCb .close) ∨
      fd = w.currentFd ∧ ∀ {handler}, value = some handler →
        rewatched handler.ticket after.history = true)
    (again : ∀ {ticket}, rewatched ticket w.history = true →
      rewatched ticket after.history = true)
    (endings : Always EndsOwn after.history) : Aligned after := by
  refine ⟨?_, endings⟩
  intro looping handler found
  rw [loop] at looping
  rw [closeAt, currentFd] at found
  by_cases here : fd = w.currentFd
  · rw [here, Function.update_self] at found
    rcases current with same | ⟨-, stored⟩
    · rw [if_pos here] at same
      exact .inl (same.trans found)
    · exact .inr (stored found)
  · rw [Function.update_of_ne (Ne.symm here)] at found
    have same := current.resolve_right fun inside => here inside.1
    rw [if_neg here] at same
    rw [same]
    rcases aligned.current looping found with loaded | stored
    · exact .inl loaded
    · exact .inr (again stored)

theorem unregister (aligned : Aligned w) (fd : Fd) :
    Aligned (w.unregister fd).2 := by
  refine Aligned.epollUpdate ?_ fd .del true
  exact aligned.update fd none (Once.closeAt_erase fd rfl) rfl rfl
    (.inl (Once.currentCb_cleared fd)) id aligned.endings

theorem detach (aligned : Aligned w) {fd : Fd}
    {callbacks : EventCB (Handler β)} {handler : Option (Handler β)}
    {byClose : Bool} (registered : w.fds[fd]? = some callbacks)
    (origin : (byClose = true ∧ handler = callbacks .close) ∨
      (byClose = false ∧ dispatching w.history = true ∧ fd = w.currentFd ∧
        handler = w.currentCb .close)) :
    Aligned (w.detach fd callbacks handler byClose) := by
  have found : w.closeAt fd = callbacks .close := by
    simp [World.closeAt, World.callbacksAt, registered]
  have own : EndsOwn (.ending fd handler (callbacks .close) byClose)
      w.history := by
    cases closes : callbacks .close with
    | none => trivial
    | some stored =>
        intro usual
        rcases origin with ⟨-, same⟩ | ⟨rfl, looping, rfl, same⟩
        · exact same.trans closes
        · have notAgain := usual.resolve_left (by simp)
          rcases aligned.current looping (found.trans closes) with loaded | again
          · exact same.trans loaded
          · rw [notAgain] at again
            cases again
  refine Aligned.epollUpdate ?_ fd .del true
  exact aligned.update fd none (Once.closeAt_erase fd rfl) rfl rfl
    (.inl (Once.currentCb_cleared fd)) id ⟨own, aligned.endings⟩

theorem watchEvent (aligned : Aligned w) (fd : Fd) (event : EventType)
    (callback : β) (et : Bool) :
    Aligned (w.watchEvent fd event callback et).2 := by
  refine Aligned.epollUpdate ?_ fd _ et
  by_cases closes : event = .close
  · subst closes
    refine aligned.update fd _ (Once.closeAt_insert fd rfl) rfl rfl (.inl ?_)
      id ⟨trivial, aligned.endings⟩
    by_cases here : fd = w.currentFd
    · simp [World.log, here, EventCB.set]
    · simp [World.log, here]
  · refine aligned.log rfl ?_ ?_ rfl
    · rw [Once.closeAt_insert fd (rfl : _ = w.fds.insert fd _)]
      rw [EventCB.set, Function.update_of_ne (Ne.symm closes)]
      exact Function.update_eq_self fd w.closeAt
    · intro looping
      refine ⟨looping, ?_, rfl⟩
      simp only [World.log]
      split
      · rw [EventCB.set, Function.update_of_ne (Ne.symm closes)]
      · rfl

theorem watch (aligned : Aligned w) (fd : Fd) (callbacks : EventCB β)
    (reWatch et : Bool) : Aligned (w.watch fd callbacks reWatch et).2 := by
  refine Aligned.epollUpdate ?_ fd _ et
  refine aligned.update fd _ (Once.closeAt_insert fd rfl) rfl rfl ?_
    (rewatched_of_passing rfl) ⟨trivial, aligned.endings⟩
  by_cases here : fd = w.currentFd
  · cases reWatch with
    | false => exact .inl (by simp [World.log, here])
    | true =>
        refine .inr ⟨here, ?_⟩
        intro handler found
        simp only [EventCB.map, Option.map_eq_some_iff] at found
        obtain ⟨callback, -, rfl⟩ := found
        simp [World.log, rewatched, here]
  · exact .inl (by simp [World.log, here])

theorem eraseConnect (aligned : Aligned w) : Aligned w.eraseConnect := by
  refine aligned.keep Once.closeAt_eraseConnect ?_ id aligned.endings
  intro looping
  exact ⟨looping, Once.currentCb_eraseConnect, rfl⟩

theorem submit (aligned : Aligned w) (fd : Fd) (data : Bytes) :
    Aligned (w.submit fd data).2 := by
  have same := World.submit_submitted w fd data
  have grows := submit_grows w fd data
  have loop := grows.same dispatching_writing
  refine aligned.keep (w.closeAt_congr same.callbacksAt) ?_ ?_ ?_
  · intro looping
    exact ⟨loop ▸ looping, by rw [same.currentCb], same.currentFd⟩
  · intro ticket stored
    have kept : rewatched ticket (w.submit fd data).2.history =
        rewatched ticket w.history := by
      refine grows.same ?_
      intro event past writing
      cases event <;> first | rfl | cases writing
    rw [kept]
    exact stored
  · have kept : Always EndsOwn (w.submit fd data).2.history =
        Always EndsOwn w.history := by
      refine grows.same ?_
      intro event past writing
      refine propext (and_iff_right (endsOwn_of_passing ?_))
      cases event <;> first | rfl | cases writing
    rw [kept]
    exact aligned.endings

theorem logCall (aligned : Aligned w) (handler : Handler β) (fd : Fd)
    (event : EventType) (cause : Cause) :
    Aligned (w.logCall handler fd event cause) :=
  aligned.log rfl rfl (fun looping => ⟨looping, rfl, rfl⟩) rfl

theorem step (aligned : Aligned w) (step : Step Rules.plain w after) :
    Aligned after := by
  have logged : ∀ {event : Event β}, event.passing →
      dispatching (event :: w.history) = dispatching w.history →
      Aligned (w.log event) := by
    intro event passing loop
    exact aligned.log passing rfl (fun looping => ⟨loop ▸ looping, rfl, rfl⟩)
      rfl
  cases step with
  | outside change =>
      cases change with
      | accept fd =>
          unfold World.acceptFd
          split
          · exact aligned.log rfl rfl (fun looping => ⟨looping, rfl, rfl⟩) rfl
          · exact aligned
      | user change =>
          exact aligned.keep rfl (fun looping => ⟨looping, rfl, rfl⟩) id
            aligned.endings
  | watchEvent fd event callback et legit =>
      exact aligned.watchEvent fd event callback et
  | watch fd callbacks reWatch et legit =>
      exact aligned.watch fd callbacks reWatch et
  | autoRewatch fd et => exact aligned.epollUpdate fd _ et
  | unregister fd registered => exact aligned.unregister fd
  | discard fd force =>
      exact aligned.log rfl rfl (fun looping => ⟨looping, rfl, rfl⟩) rfl
  | detach fd callbacks handler byClose registered inEpoll origin =>
      exact aligned.detach registered origin
  | forcedRelease fd unregistered recorded =>
      exact aligned.log rfl rfl (fun looping => ⟨looping, rfl, rfl⟩) rfl
  | release fd top progress same =>
      exact aligned.log rfl rfl (fun looping => ⟨looping, rfl, rfl⟩) rfl
  | closeCall fd cause top progress owed same caused => exact aligned.logCall ..
  | finish top done => exact logged rfl rfl
  | gameOverCall handler fd => exact aligned.logCall ..
  | dispatch event loop notConnect notClose found => exact aligned.logCall ..
  | eraseConnect loop registered => exact aligned.eraseConnect
  | connected loop registered found => exact aligned.eraseConnect.logCall ..
  | refused loop first registered found user =>
      refine Aligned.logCall ?_ _ _ _ _
      refine (aligned.eraseConnect.unregister w.currentFd).log rfl rfl ?_ rfl
      intro looping
      simp [World.log, dispatching] at looping
  | request fd data =>
      refine Aligned.submit ?_ fd data
      unfold World.logRequest
      split
      · exact aligned
      · exact logged rfl rfl
  | flush fd queued found =>
      refine Aligned.submit ?_ fd queued
      exact aligned.keep rfl (fun looping => ⟨looping, rfl, rfl⟩) id
        aligned.endings
  | answers answers =>
      exact aligned.keep rfl (fun looping => ⟨looping, rfl, rfl⟩) id
        aligned.endings
  | handshake fd =>
      obtain ⟨connections, answers, same⟩ := w.handshake_eq fd
      rw [same]
      exact aligned.keep rfl (fun looping => ⟨looping, rfl, rfl⟩) id
        aligned.endings
  | batch reported loop => exact logged rfl rfl
  | skip fd loop inside unregistered =>
      refine ⟨?_, trivial, aligned.endings⟩
      intro looping
      simp [World.enter, World.log, dispatching, unregistered] at looping
  | load fd callbacks loop inside registered =>
      refine ⟨?_, trivial, aligned.endings⟩
      intro looping handler found
      left
      rw [← found]
      simp [World.enter, World.loadCb, World.log, World.closeAt,
        World.callbacksAt, registered]
  | leave loop inside =>
      refine aligned.log rfl rfl ?_ rfl
      intro looping
      simp [World.leave, World.log, dispatching] at looping
  | sysClose fd rest loop next =>
      exact aligned.log rfl rfl (fun looping => ⟨looping, rfl, rfl⟩) rfl
  | handled loop => exact logged rfl rfl

end Aligned

/-- Every `CLOSE` callback is invoked at most once.  In a run that comes to
its normal end it is invoked exactly once for a registration that was ended by
`close` or by the hang-up branch of `handle_events`, unless a hang-up ends a
registration that was made with `re_watch` while this very event was
handled. -/
theorem close_callback_once (run : Run β σ) :
    (∀ ticket, closeCalls ticket run.history ≤ 1) ∧
      ∀ last, run.result = .ok () last →
        ∀ later fd handler callback byClose past,
          run.history =
            later ++ .ending fd handler (some callback) byClose :: past →
          byClose = true ∨ rewatched callback.ticket past = false →
          closeCalls callback.ticket run.history = 1 := by
  have once := run.invariant Once Once.init (fun _ holds step => holds.step step)
  constructor
  · intro ticket
    exact Nat.le_trans (Nat.le_add_right _ _) (once.atMost ticket)
  · intro last completed later fd handler callback byClose past ended usual
    have aligned := run.invariant Aligned Aligned.init
      (fun _ holds step => holds.step step)
    have endings : Always EndsOwn run.history := aligned.endings
    rw [ended] at endings
    have same : handler = some callback := endings.append_right.1 usual
    subst same
    have total := once.ended (by
      change _ ∈ run.history
      rw [ended]
      exact List.mem_append_right _ List.mem_cons_self)
    have settled : frames run.last.history = [] :=
      (run.top_of_ok completed).frames
    rw [spent, settled] at total
    exact total

/-- A descriptor is watched with the callbacks, and the peer sends something
and hangs up. -/
def hangUp (callbacks : EventCB Bool) (body : Bool → Program Bool Unit) :
    Run Bool Unit :=
  { body := fun callback _ _ _ => body callback
    wantMessage := fun _ => false
    depth := 1
    program := .sequence [.accept 5, .watch 5 callbacks false true,
      .handleEvents (.events [(5, { epollIn := true, epollHup := true })])]
    user := ()
    answers := {} }

example : closeCalls 0
    (hangUp (EventCB.empty.set .close false) fun _ => .done).history = 1 := by
  decide +kernel

/-- While a connect is pending the hang-up ends the registration with
`CONNECT`, and its `CLOSE` callback is not invoked.  Nor is the one of a
registration that a callback makes with `re_watch` for the descriptor whose
event is being handled: the hang-up calls the one it replaces. -/
theorem hangUp_without_close :
    let onClose := EventCB.empty.set .close false
    let connecting := hangUp (onClose.set .connect false) fun _ => .done
    let replaced := hangUp (onClose.set .read true) fun
      | true => .sequence [.watch 5 onClose true true]
      | false => .done
    (connecting.last.fds.contains 5 = false ∧
      closeCalls 0 connecting.history = 0) ∧
    (replaced.last.fds.contains 5 = false ∧
      (replaced.history.any fun
        | .ending 5 _ (some callback) false => callback.ticket == 1
        | _ => false) = true ∧
      closeCalls 0 replaced.history = 1 ∧
      closeCalls 1 replaced.history = 0) := by
  decide +kernel

end Universe
