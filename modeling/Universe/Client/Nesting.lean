import Universe.EventManager.Nesting
import Universe.Client.Release

/-!
# Events around a nested wait

`Client::wait` handles events in the middle of a callback.  The event whose
callback waited is served to its end only if nothing was left to do for it,
and the events behind it in the batch may meet another connection: the inner
`handle_events` has closed the numbers the outer one was going to close, and
a callback may have been given one of them again.
-/

namespace Universe

open Relation (ReflTransGen)
open Stepwise

variable {β κ σ : Type}

namespace Client

variable {d : Dispatch (ClientCB κ) σ}

theorem nextNumber_resumes :
    Within Resumes (nextNumber : EM (ClientCB κ) σ Fd) := by
  apply within_get_bind
  intro w
  split
  · exact within_throw _
  · apply within_bind (within_modify fun _ => .of_eq rfl rfl)
    intro _
    split
    · exact within_pure _
    · exact within_throw _

theorem sysConnect_resumes :
    Within Resumes (sysConnect : EM (ClientCB κ) σ ConnectStatus) := by
  apply within_get_bind
  intro w
  split
  · exact within_pure _
  · apply within_bind (within_modify fun _ => .of_eq rfl rfl)
    exact fun _ => within_pure _

theorem dup2_resumes (w : World β σ) (new fd : Fd) :
    Resumes w (w.dup2 new fd) := by
  unfold World.dup2
  split
  · exact .log rfl rfl rfl
  · exact .of_eq rfl rfl

theorem openOn_resumes (fd : Fd) :
    Within Resumes (openOn fd : EM (ClientCB κ) σ Fd) := by
  apply within_bind nextNumber_resumes
  intro number
  split
  · apply within_bind (within_modify fun w => .acceptFd w number)
    exact fun _ => within_pure _
  · split
    · apply within_bind (within_modify fun w => dup2_resumes w number fd)
      exact fun _ => within_pure _
    · exact within_throw _

theorem watchRest_resumes (callbacks : EventCB (ClientCB κ)) (fd : Fd)
    (reWatch : Bool) :
    Within Resumes (watchRest callbacks fd reWatch :
      EM (ClientCB κ) σ Unit) := by
  unfold watchRest
  dsimp only
  split
  · exact within_pure _
  · apply within_bind
    · apply within_modifyGet
      intro w
      apply Resumes.epollUpdate
      exact .log rfl rfl rfl
    · exact fun _ => within_pure _

variable (resuming : d.Resuming)
include resuming

theorem notify_resumes {γ : Type} (wrap : γ → ClientCB κ)
    (callbacks : EventCB γ) (fd : Fd) (outcome : ConnectResult) :
    Within Resumes (notify d wrap callbacks fd outcome) := by
  unfold notify
  split
  · exact resuming ..
  · exact within_throw _

theorem notifyAny_resumes (callbacks : EventCB κ) (fd : Fd)
    (outcome : ConnectResult) :
    Within Resumes (notifyAny d callbacks fd outcome) := by
  unfold notifyAny
  split
  · exact resuming ..
  · exact within_pure _

theorem connectOn_resumes (callbacks : EventCB (ClientCB κ)) (fd : Fd) :
    Within Resumes (connectOn d callbacks fd) := by
  have failed : ∀ s, Within Resumes
      (do
        let _ ← EventManager.unwatch d s true
        notify d id callbacks s .ng
        return -1 : EM (ClientCB κ) σ Int) := by
    intro s
    apply within_bind (EventManager.unwatch_resumes resuming s true)
    intro _
    apply within_bind (notify_resumes resuming ..)
    exact fun _ => within_pure _
  apply within_bind (openOn_resumes fd)
  intro s
  apply within_bind sysConnect_resumes
  intro status
  apply within_get_bind
  intro w
  split
  · exact failed s
  · exact failed s
  · apply within_bind (notify_resumes resuming ..)
    intro _
    apply within_bind (watchRest_resumes callbacks s true)
    exact fun _ => within_pure _
  · apply within_bind
    · apply within_modifyGet
      intro w
      apply Resumes.epollUpdate
      exact .log rfl rfl rfl
    · exact fun _ => within_pure _

theorem addressConnected_resumes (callbacks : EventCB κ) (fd : Fd)
    (outcome : ConnectResult) :
    Within Resumes (addressConnected d callbacks fd outcome) := by
  have closed : Within Resumes
      (do
        let _ ← EventManager.close d fd true
        pure () : EM (ClientCB κ) σ Unit) := by
    apply within_bind (EventManager.close_resumes resuming fd true)
    exact fun _ => within_pure _
  apply within_bind (notify_resumes resuming ..)
  intro _
  cases outcome with
  | ok => exact watchRest_resumes (callbacks.map .user) fd false
  | ng => exact closed
  | gameOver => exact closed

theorem connectFail_resumes (callbacks : EventCB κ) (placeholder fd : Fd)
    (outcome : ConnectResult) :
    Within Resumes (connectFail d callbacks placeholder fd outcome) := by
  apply within_bind (notify_resumes resuming ..)
  intro _
  apply within_bind (EventManager.close_resumes resuming placeholder true)
  exact fun _ => within_pure _

theorem hostConnected_resumes (callbacks : EventCB κ)
    (remaining : List Address) (placeholder fd : Fd)
    (outcome : ConnectResult) :
    Within Resumes
      (hostConnected d callbacks remaining placeholder fd outcome) := by
  cases outcome with
  | gameOver => exact connectFail_resumes resuming ..
  | ok =>
      apply within_bind (notify_resumes resuming ..)
      exact fun _ => watchRest_resumes (callbacks.map .user) fd false
  | ng =>
      cases remaining with
      | nil => exact connectFail_resumes resuming ..
      | cons address later =>
          apply within_bind (connectOn_resumes resuming _ placeholder)
          exact fun _ => within_pure _

theorem connectHost_resumes (addresses : List Address)
    (callbacks : EventCB κ) (ssl : Option Bool) :
    Within Resumes (connectHost d addresses callbacks ssl) := by
  cases addresses with
  | nil => exact within_throw _
  | cons address remaining =>
      have tried : ∀ s, Within Resumes
          (do
            let _ ← connectOn d (onConnect (.host callbacks remaining s)) s
            return s : EM (ClientCB κ) σ Int) := by
        intro s
        apply within_bind (connectOn_resumes resuming _ s)
        exact fun _ => within_pure _
      apply within_bind (openOn_resumes (-1))
      intro s
      cases ssl with
      | none => exact tried s
      | some initialized =>
          cases initialized with
          | true =>
              apply within_bind (within_modify fun _ => .of_eq rfl rfl)
              exact fun _ => tried s
          | false =>
              apply within_bind (EventManager.close_resumes resuming s true)
              intro _
              apply within_bind (notify_resumes resuming ..)
              exact fun _ => within_pure _

omit resuming in
theorem dial_resumes : Within Resumes (dial : EM (ClientCB κ) σ Int) := by
  apply within_bind nextNumber_resumes
  intro number
  apply within_bind sysConnect_resumes
  intro status
  split
  · apply within_bind (within_modify fun w => .acceptFd w number)
    exact fun _ => within_pure _
  · apply within_bind
    · apply within_modify
      intro w
      unfold World.closeSocket
      split <;> exact .of_eq rfl rfl
    · exact fun _ => within_pure _

theorem connectNow_resumes (callbacks : EventCB κ) :
    Within Resumes (connectNow d callbacks) := by
  apply within_bind dial_resumes
  intro s
  apply within_bind (notifyAny_resumes resuming ..)
  intro _
  split
  · exact within_pure _
  · apply within_bind (watchRest_resumes (callbacks.map .user) s false)
    exact fun _ => within_pure _

theorem connectEach_resumes (callbacks : EventCB κ)
    (addresses : List Address) :
    Within Resumes (connectEach d callbacks addresses) := by
  induction addresses with
  | nil =>
      apply within_bind (notifyAny_resumes resuming ..)
      exact fun _ => within_pure _
  | cons address rest induction =>
      apply within_bind (connectNow_resumes resuming callbacks)
      intro s
      split
      · exact within_pure _
      · exact induction

theorem connectHostNow_resumes (addresses : List Address)
    (callbacks : EventCB κ) :
    Within Resumes (connectHostNow d addresses callbacks) := by
  unfold connectHostNow
  split
  · exact within_pure _
  · exact connectEach_resumes resuming callbacks _

theorem perform_resumes (op : ClientOp κ σ) :
    Within Resumes (perform d op) := by
  cases op with
  | manager op => exact EventManager.perform_resumes resuming (op.map .user)
  | connectHost addresses callbacks ssl =>
      exact connectHost_resumes resuming addresses callbacks ssl
  | connectAddress address callbacks => exact connectOn_resumes resuming _ (-1)
  | connectOn address callbacks fd =>
      apply within_bind (within_modify fun _ => .log rfl rfl rfl)
      exact fun _ => connectOn_resumes resuming (callbacks.map .user) fd
  | dial address => exact dial_resumes
  | connectNow address callbacks => exact connectNow_resumes resuming callbacks
  | connectHostNow addresses callbacks =>
      exact connectHostNow_resumes resuming addresses callbacks

omit resuming in
theorem app_resuming
    (body : κ → Fd → Arg → World (ClientCB κ) σ → ClientProgram κ σ)
    (wantMessage : κ → Bool) (unwatched : Fd → σ → σ) :
    (app body wantMessage unwatched).Resuming := by
  intro d resuming callback fd arg
  cases callback with
  | user callback =>
      apply within_get_bind
      intro w
      exact Script.within (perform_resumes resuming) _
  | address callbacks =>
      cases arg with
      | none => exact within_throw _
      | message bytes => exact within_throw _
      | result outcome =>
          exact addressConnected_resumes resuming callbacks fd outcome
  | host callbacks remaining placeholder =>
      cases arg with
      | none => exact within_throw _
      | message bytes => exact within_throw _
      | result outcome => exact hostConnected_resumes resuming ..

end Client

/-- How often the number was handed out. -/
def handouts (fd : Fd) : List (Event β) → Nat
  | [] => 0
  | .opened other .. :: past =>
      handouts fd past + if other = fd then 1 else 0
  | _ :: past => handouts fd past

/-- The event does not hand out a number. -/
def Event.keepsNumbers : Event β → Bool
  | .opened .. => false
  | _ => true

theorem handouts_keeping {event : Event β} (keeps : event.keepsNumbers)
    (past : List (Event β)) (fd : Fd) :
    handouts fd (event :: past) = handouts fd past := by
  cases event with
  | opened => cases keeps
  | _ => rfl

/-- What becomes of the numbers: a connection that was not there before is a
newer one, and its number was handed out for it. -/
structure Ages (w after : World β σ) : Prop where
  numbered : w.kernel.Numbered → after.kernel.Numbered
  next : w.kernel.nextConn ≤ after.kernel.nextConn
  handed : ∀ fd, handouts fd w.history ≤ handouts fd after.history
  aged : ∀ {fd conn}, after.kernel.conns fd = some conn →
    w.kernel.conns fd = some conn ∧
        handouts fd after.history = handouts fd w.history ∨
      w.kernel.nextConn ≤ conn ∧
        handouts fd w.history < handouts fd after.history

namespace Ages

variable {w middle after : World β σ}

/-- An open number has the connection it had exactly if it was not handed out
again. -/
theorem same_iff (ages : Ages w after) (numbered : w.kernel.Numbered)
    {fd : Fd} {conn : Conn} (opened : after.kernel.conns fd = some conn) :
    w.kernel.conns fd = some conn ↔
      handouts fd after.history = handouts fd w.history := by
  rcases ages.aged opened with ⟨before, same⟩ | ⟨newer, more⟩
  · exact iff_of_true before same
  · apply iff_of_false
    · intro before
      exact absurd (numbered.known before) (Nat.not_lt.mpr newer)
    · exact Nat.ne_of_gt more

theorem trans (first : Ages w middle) (second : Ages middle after) :
    Ages w after := by
  refine ⟨fun numbered => second.numbered (first.numbered numbered),
    Nat.le_trans first.next second.next,
    fun fd => Nat.le_trans (first.handed fd) (second.handed fd), ?_⟩
  intro fd conn opened
  rcases second.aged opened with ⟨before, same⟩ | ⟨newer, more⟩
  · rw [same]
    exact first.aged before
  · exact .inr ⟨Nat.le_trans first.next newer,
      Nat.lt_of_le_of_lt (first.handed fd) more⟩

theorem of_same (same : World.SameConns w after)
    (grows : Grows Event.keepsNumbers w after) : Ages w after := by
  have kept : ∀ fd, handouts fd after.history = handouts fd w.history :=
    fun fd => grows.same fun _ past keeps => handouts_keeping keeps past fd
  have arrives := Arrives.of_same same
  refine ⟨arrives.numbered, arrives.next, fun fd => Nat.le_of_eq (kept fd).symm, ?_⟩
  intro fd conn opened
  rw [same.conns] at opened
  exact .inl ⟨opened, kept fd⟩

theorem still (same : World.SameConns w after)
    (history : after.history = w.history) : Ages w after :=
  of_same same ⟨[], by simp [history], by simp⟩

/-- One event is recorded. -/
theorem log {event : Event β} (keeps : event.keepsNumbers)
    (same : World.SameConns w after)
    (history : after.history = event :: w.history) : Ages w after :=
  of_same same ⟨[event], history, by simpa using keeps⟩

theorem refl (w : World β σ) : Ages w w := still ⟨rfl, rfl⟩ rfl

theorem epollUpdate (ages : Ages w middle) (fd : Fd) (op : EpollOp)
    (et : Bool) : Ages w (middle.epollUpdate fd op et).2 := by
  apply ages.trans
  by_cases deleted : op = .del
  · subst deleted
    exact still ⟨by simp, by simp⟩ rfl
  · exact log rfl ⟨by simp, by simp⟩ (World.epollUpdate_history _ _ _ deleted)

theorem submit (ages : Ages w middle) (fd : Fd) (data : Bytes) :
    Ages w (middle.submit fd data).2 := by
  obtain ⟨events, history, writing⟩ := submit_grows middle fd data
  apply ages.trans
  apply of_same (World.submit_submitted middle fd data).toSameConns
  refine ⟨events, history, ?_⟩
  intro event member
  have isWriting := writing event member
  cases event <;> first | rfl | cases isWriting

/-- The number is handed out. -/
theorem opened (arrives : Arrives w after) {fd : Fd}
    (others : ∀ other conn, other ≠ fd →
      after.kernel.conns other = some conn →
      w.kernel.conns other = some conn)
    (newer : ∀ conn, after.kernel.conns fd = some conn →
      w.kernel.nextConn ≤ conn)
    {number : Conn} {queued : Option Bytes} {registered : Bool}
    (history : after.history =
      .opened fd number queued registered :: w.history) :
    Ages w after := by
  refine ⟨arrives.numbered, arrives.next, ?_, ?_⟩
  · intro other
    rw [history]
    exact Nat.le_add_right _ _
  · intro other conn opened
    rw [history]
    by_cases same : other = fd
    · subst same
      exact .inr ⟨newer conn opened, by simp [handouts]⟩
    · exact .inl ⟨others other conn same opened,
        by simp [handouts, Ne.symm same]⟩

theorem acceptFd (w : World β σ) (fd : Fd) : Ages w (w.acceptFd fd) := by
  have arrives := Arrives.acceptFd w fd
  unfold World.acceptFd at arrives ⊢
  split
  · next free =>
      rw [if_pos free] at arrives
      refine Ages.opened arrives ?_ ?_ rfl
      · intro other conn different opened
        simpa [World.log, Kernel.openFd, different] using opened
      · intro conn opened
        simp only [World.log, Kernel.openFd, Function.update_self,
          Option.some.injEq] at opened
        exact Nat.le_of_eq opened
  · exact refl w

theorem dup2 (w : World β σ) (new fd : Fd) : Ages w (w.dup2 new fd) := by
  have arrives := Arrives.dup2 w new fd
  unfold World.dup2 at arrives ⊢
  split
  · next guard =>
      rw [if_pos guard] at arrives
      refine Ages.opened arrives ?_ ?_ rfl
      · intro other conn different opened
        obtain ⟨notNew, ⟨here, -⟩ | ⟨-, opened⟩⟩ :=
          Kernel.moveFd_conns.mp opened
        · exact absurd here different
        · simpa [Kernel.openFd, notNew] using opened
      · intro conn opened
        obtain ⟨-, ⟨-, opened⟩ | ⟨different, -⟩⟩ :=
          Kernel.moveFd_conns.mp opened
        · simp only [Kernel.openFd, Function.update_self,
            Option.some.injEq] at opened
          exact Nat.le_of_eq opened
        · exact absurd rfl different
  · exact refl w

/-- A number is closed, or was never more than half open. -/
theorem shrink (numbered : w.kernel.Numbered → after.kernel.Numbered)
    (next : w.kernel.nextConn ≤ after.kernel.nextConn)
    (grows : Grows Event.keepsNumbers w after)
    (fewer : ∀ fd conn, after.kernel.conns fd = some conn →
      w.kernel.conns fd = some conn) : Ages w after := by
  have kept : ∀ fd, handouts fd after.history = handouts fd w.history :=
    fun fd => grows.same fun _ past keeps => handouts_keeping keeps past fd
  refine ⟨numbered, next, fun fd => Nat.le_of_eq (kept fd).symm, ?_⟩
  intro fd conn opened
  exact .inl ⟨fewer fd conn opened, kept fd⟩

theorem closeSocket (w : World β σ) (new : Fd) :
    Ages w (w.closeSocket new) := by
  have arrives := Arrives.closeSocket w new
  apply shrink arrives.numbered arrives.next
  · unfold World.closeSocket
    split <;> exact ⟨[], rfl, by simp⟩
  · intro fd conn opened
    unfold World.closeSocket at opened
    split at opened
    · obtain ⟨different, opened⟩ := (Kernel.closeFd_conns _ _).mp opened
      simpa [Kernel.openFd, different] using opened
    · exact opened

theorem sysClose (w : World β σ) (fd : Fd) (rest : List Fd) :
    Ages w ({ w with closeFds := rest }.sysClose fd) := by
  refine shrink (fun numbered => numbered.closeFd fd) (Nat.le_refl _) ?_ ?_
  · exact ⟨[_], rfl, by simp [Event.keepsNumbers]⟩
  · intro other conn opened
    exact ((Kernel.closeFd_conns _ _).mp opened).2

theorem unregister (ages : Ages w middle) (fd : Fd) :
    Ages w (middle.unregister fd).2 := by
  apply epollUpdate
  exact ages.trans (still ⟨rfl, rfl⟩ rfl)

theorem handshake (w : World β σ) (fd : Fd) : Ages w (w.handshake fd).2 := by
  obtain ⟨connections, answers, same⟩ := w.handshake_eq fd
  rw [same]
  exact still ⟨rfl, rfl⟩ rfl

theorem outside {w after : World (ClientCB κ) σ}
    (change : Client.Outside w after) : Ages w after := by
  cases change with
  | accept fd => exact acceptFd w fd
  | user change => exact still ⟨rfl, rfl⟩ rfl
  | ssl fd connection => exact still ⟨rfl, rfl⟩ rfl
  | closeSocket new => exact closeSocket w new
  | placed fd => exact log rfl ⟨rfl, rfl⟩ rfl
  | dup2 new fd reopenable => exact dup2 w new fd

theorem step {nested : Prop} {w after : World (ClientCB κ) σ}
    (step : Step (Client.rules nested) w after) : Ages w after := by
  cases step with
  | outside change => exact outside change
  | watchEvent fd event callback et legit =>
      apply epollUpdate
      exact log rfl ⟨rfl, rfl⟩ rfl
  | watch fd callbacks reWatch et legit =>
      apply epollUpdate
      exact log rfl ⟨rfl, rfl⟩ rfl
  | autoRewatch fd et => exact epollUpdate (refl w) fd _ et
  | unregister fd registered => exact unregister (refl w) fd
  | discard fd force => exact log rfl ⟨rfl, rfl⟩ rfl
  | detach fd callbacks handler byClose registered inEpoll origin =>
      apply unregister
      exact log rfl ⟨rfl, rfl⟩ rfl
  | forcedRelease fd unregistered recorded => exact log rfl ⟨rfl, rfl⟩ rfl
  | release fd top progress same => exact log rfl ⟨rfl, rfl⟩ rfl
  | closeCall fd cause top progress owed same caused =>
      exact log rfl ⟨rfl, rfl⟩ rfl
  | finish top done => exact log rfl ⟨rfl, rfl⟩ rfl
  | gameOverCall handler fd => exact log rfl ⟨rfl, rfl⟩ rfl
  | dispatch event loop notConnect notClose found =>
      exact log rfl ⟨rfl, rfl⟩ rfl
  | eraseConnect loop registered => exact still ⟨rfl, rfl⟩ rfl
  | connected loop registered found => exact log rfl ⟨rfl, rfl⟩ rfl
  | refused loop first registered found user =>
      have erased : Ages w w.eraseConnect := still ⟨rfl, rfl⟩ rfl
      apply (erased.unregister w.currentFd).trans
      exact of_same ⟨rfl, rfl⟩ ⟨[_, _], rfl, by simp [Event.keepsNumbers]⟩
  | request fd data =>
      apply submit
      unfold World.logRequest
      split
      · exact refl w
      · exact log rfl ⟨rfl, rfl⟩ rfl
  | flush fd queued found =>
      apply submit
      exact still ⟨rfl, rfl⟩ rfl
  | answers answers => exact still ⟨rfl, rfl⟩ rfl
  | handshake fd => exact handshake w fd
  | batch reported loop => exact log rfl ⟨rfl, rfl⟩ rfl
  | skip fd loop inside unregistered => exact log rfl ⟨rfl, rfl⟩ rfl
  | load fd callbacks loop inside registered => exact log rfl ⟨rfl, rfl⟩ rfl
  | leave loop inside => exact log rfl ⟨rfl, rfl⟩ rfl
  | sysClose fd rest loop next => exact sysClose w fd rest
  | handled loop => exact log rfl ⟨rfl, rfl⟩ rfl

theorem steps {nested : Prop} {w after : World (ClientCB κ) σ}
    (steps : ReflTransGen (Step (Client.rules nested)) w after) :
    Ages w after :=
  invariant_of_steps
    (fun _ _ ages taken => ages.trans (step taken)) steps (refl w)

end Ages

section Events

open EventManager

/-- The branches of `handle_events` behind the one for a connect.  The last one
is in two halves, before and after its `unwatch`. -/
inductive Branch where
  | read
  | write
  | error
  | close
  | release
  deriving DecidableEq, Repr

/-- Whether the flags ask for the branch. -/
def Branch.asked (flags : Flags) : Branch → Bool
  | .read => flags.epollIn
  | .write => flags.epollOut
  | .error => flags.epollErr
  | .close => flags.epollRdhup || flags.epollHup
  | .release => flags.epollRdhup || flags.epollHup

/-- The loop of `handle_events` has come to `fd` in the state `turn`, and
begins a branch in the given state, with the flags as they are then. -/
inductive Begins (d : Dispatch β σ) (fd : Fd) (flags : Flags)
    (turn : World β σ) : Branch → Flags → World β σ → Prop where
  | read {callbacks s} (registered : turn.fds[fd]? = some callbacks)
      (done : connectStage d flags ((turn.enter fd).loadCb callbacks) =
        .ok true s) :
      Begins d fd flags turn .read flags s
  | write {s after} (before : Begins d fd flags turn .read flags s)
      (done : readStage d flags s = .ok () after) :
      Begins d fd flags turn .write flags after
  | error {s after} (before : Begins d fd flags turn .write flags s)
      (done : writeStage d flags s = .ok () after) :
      Begins d fd flags turn .error flags after
  | close {s raised after} (before : Begins d fd flags turn .error flags s)
      (done : errorStage d flags s = .ok raised after) :
      Begins d fd flags turn .close raised after
  | release {s raised after} (before : Begins d fd flags turn .close raised s)
      (asked : Branch.close.asked raised)
      (done : endWatch d s.currentFd (s.currentCb .close) false s =
        .ok true after) :
      Begins d fd flags turn .release raised after

/-- An event whose connect does not fail goes through all its branches. -/
theorem handleEvent_begins {d : Dispatch β σ} {fd : Fd} {flags : Flags}
    {turn after : World β σ} {callbacks : EventCB (Handler β)}
    (registered : turn.fds[fd]? = some callbacks)
    (returned : handleEvent d fd flags turn = .ok () after) :
    (∃ s, connectStage d flags ((turn.enter fd).loadCb callbacks) =
      .ok false s) ∨
    ∃ raised s, Begins d fd flags turn .close raised s ∧
      closeStage d raised s = .ok () after := by
  have entered : (turn.enter fd).fds[fd]? = some callbacks := registered
  unfold handleEvent at returned
  rw [modify_bind, get_bind, entered] at returned
  dsimp only at returned
  rw [modify_bind] at returned
  obtain ⟨proceed, connected, connectDone, returned⟩ :=
    ok_of_bind_ok returned
  cases proceed with
  | false => exact .inl ⟨connected, connectDone⟩
  | true =>
      rw [if_pos rfl] at returned
      obtain ⟨_, wasRead, readDone, returned⟩ := ok_of_bind_ok returned
      obtain ⟨_, written, writeDone, returned⟩ := ok_of_bind_ok returned
      obtain ⟨raised, failed, errorDone, returned⟩ := ok_of_bind_ok returned
      have begins : Begins d fd flags turn .read flags connected :=
        .read registered connectDone
      exact .inr ⟨raised, failed,
        .close (.error (.write begins readDone) writeDone) errorDone, returned⟩

/-- What `handle_events` owes an event of the batch that was reported in the
state `start`: it does not reach another connection, and every branch its
flags ask for is run for its number and with the callbacks loaded for it. -/
structure Served (d : Dispatch β σ) (start turn : World β σ) (fd : Fd)
    (flags : Flags) : Prop where
  connection : turn.fds.contains fd → ∀ conn,
    turn.kernel.conns fd = some conn → start.kernel.conns fd = some conn
  branches : ∀ {branch raised s}, Begins d fd flags turn branch raised s →
    branch.asked raised → s.currentFd = fd ∧ loadedFor s.history = some fd

/-- The number was not handed out again while other events were handled, and
no callback of the event has handled a batch as long as a branch was left that
the flags ask for. -/
structure Undisturbed (d : Dispatch β σ) (start turn : World β σ) (fd : Fd)
    (flags : Flags) : Prop where
  number : turn.fds.contains fd → (turn.kernel.conns fd).isSome →
    handouts fd turn.history = handouts fd start.history
  branches : ∀ {branch raised s}, Begins d fd flags turn branch raised s →
    branch.asked raised → batches s.history = batches turn.history

namespace Begins

variable {d : Dispatch β σ} {fd : Fd} {flags raised : Flags}
  {turn s : World β σ} {branch : Branch}

theorem registered (begins : Begins d fd flags turn branch raised s) :
    turn.fds.contains fd = true := by
  induction begins with
  | read registered done =>
      simp [← Std.ExtTreeMap.isSome_getElem?_eq_contains, registered]
  | write before done before => exact before
  | error before done before => exact before
  | close before done before => exact before
  | release before asked done before => exact before

theorem resumes (resuming : d.Resuming)
    (begins : Begins d fd flags turn branch raised s) :
    Resumes (turn.enter fd) s := by
  induction begins with
  | @read callbacks s registered done =>
      have loaded : Resumes (turn.enter fd)
          ((turn.enter fd).loadCb callbacks) := .of_eq rfl rfl
      exact loaded.trans
        (((connectStage_resumes resuming flags).returns _).holds _ _ done)
  | write before done resumes =>
      exact resumes.trans
        (((readStage_resumes resuming _).returns _).holds _ _ done)
  | error before done resumes =>
      exact resumes.trans
        (((writeStage_resumes resuming _).returns _).holds _ _ done)
  | close before done resumes =>
      exact resumes.trans
        (((errorStage_resumes resuming _).returns _).holds _ _ done)
  | release before asked done resumes =>
      exact resumes.trans
        (((endWatch_resumes resuming ..).returns _).holds _ _ done)

theorem goesOn_iff (resuming : d.Resuming) (opened : fd ≠ -1)
    (begins : Begins d fd flags turn branch raised s) :
    s.currentFd = fd ∧ loadedFor s.history = some fd ↔
      batches s.history = batches turn.history := by
  have loaded : loadedFor (turn.enter fd).history = some fd := by
    simp [World.enter, World.log, begins.registered, loadedFor]
  exact (begins.resumes resuming).goesOn_iff opened rfl loaded

end Begins

end Events

namespace Client

/-- The states a client can be in, under any callbacks and in the middle of
any of them. -/
def Reachable (w : World (ClientCB κ) σ) : Prop :=
  ∃ user answers,
    ReflTransGen (Step (rules True)) (World.init user answers) w

namespace Reachable

variable {w : World (ClientCB κ) σ} (reachable : Reachable w)
include reachable

theorem base : Base (rules True) w := by
  obtain ⟨user, answers, steps⟩ := reachable
  exact (Base.init user answers).steps steps

theorem numbered : w.kernel.Numbered := by
  obtain ⟨user, answers, steps⟩ := reachable
  apply (Ages.steps steps).numbered
  constructor <;> simp [World.init, Kernel.boot]

end Reachable

end Client

theorem ClientRun.reachable (run : ClientRun κ σ) :
    Client.Reachable run.last := by
  have steps := (run.runs True (.inl trivial)).steps
  unfold ClientRun.last ClientRun.result
  exact ⟨run.user, run.answers, steps⟩

section Theorem

open EventManager

variable (body : κ → Fd → Arg → World (ClientCB κ) σ → ClientProgram κ σ)
  (wantMessage : κ → Bool) (unwatched : Fd → σ → σ) (depth : Nat)

/-- An event of a batch is served exactly if it is undisturbed, whatever the
callbacks do and however they nest. -/
theorem served_iff_undisturbed {start turn : World (ClientCB κ) σ}
    (reachable : Client.Reachable start) (earlier rest : List (Fd × Flags))
    (fd : Fd) (flags : Flags) (reported : (start.kernel.epoll fd).isSome)
    (came : handleEach
      ((Client.app body wantMessage unwatched).dispatch depth) earlier
      (start.logBatch ((earlier ++ (fd, flags) :: rest).map Prod.fst)) =
        .ok () turn) :
    Served ((Client.app body wantMessage unwatched).dispatch depth)
        start turn fd flags ↔
      Undisturbed ((Client.app body wantMessage unwatched).dispatch depth)
        start turn fd flags := by
  have resuming := (Client.app_resuming body wantMessage unwatched).dispatch
    depth
  have moves := (Client.app_moves body wantMessage unwatched
    (.inl trivial : True ∨ _)).dispatch depth
  have opened : fd ≠ -1 := by
    rintro rfl
    have sound := reachable.base.sound
    exact absurd (sound.openNonneg _ (sound.registeredOpen _ reported))
      (by decide)
  have ages : Ages start turn := by
    have batch : Step (Client.rules True) start (start.logBatch
        ((earlier ++ (fd, flags) :: rest).map Prod.fst)) :=
      .batch _ (.inl trivial)
    have handled := (handleEach_runs moves earlier (reachable.base.step batch)
      ⟨_, _, _, start.history, List.suffix_rfl, rfl⟩ (.inl trivial)).steps
    rw [came] at handled
    exact Ages.steps (.head batch handled)
  constructor
  · intro served
    refine ⟨?_, ?_⟩
    · intro registered isOpen
      obtain ⟨conn, isOpen⟩ := Option.isSome_iff_exists.mp isOpen
      exact (ages.same_iff reachable.numbered isOpen).mp
        (served.connection registered conn isOpen)
    · intro branch raised s begins asked
      exact (begins.goesOn_iff resuming opened).mp
        (served.branches begins asked)
  · intro undisturbed
    refine ⟨?_, ?_⟩
    · intro registered conn isOpen
      exact (ages.same_iff reachable.numbered isOpen).mpr
        (undisturbed.number registered (Option.isSome_of_eq_some isOpen))
    · intro branch raised s begins asked
      exact (begins.goesOn_iff resuming opened).mpr
        (undisturbed.branches begins asked)

/-- A client with two connections; the callback of the first one runs the
given operations. -/
def waitingRun (ops : List (ClientOp Bool Unit)) : ClientRun Bool Unit :=
  { body := fun first _ _ _ => if first then .sequence ops else .done
    wantMessage := fun _ => false
    unwatched := fun _ user => user
    depth := 2
    program := .sequence
      [.manager (.accept 5), .manager (.accept 7),
        .manager (.watchEvent 5 .read true true),
        .manager (.watchEvent 7 .read false true)]
    user := ()
    answers := {} }

def waitingDispatch (ops : List (ClientOp Bool Unit)) :
    Dispatch (ClientCB Bool) Unit :=
  (Client.app (waitingRun ops).body (waitingRun ops).wantMessage
    (waitingRun ops).unwatched).dispatch 2

/-- The loop has been through the events of `earlier`. -/
def waitingTurn (ops : List (ClientOp Bool Unit))
    (earlier : List (Fd × Flags)) (reported : List Fd) :
    World (ClientCB Bool) Unit :=
  final (handleEach (waitingDispatch ops) earlier
    ((waitingRun ops).last.logBatch reported))

/-- `Client::wait`, whose `epoll_wait` runs into its timeout. -/
def timedOut : ClientOp Bool Unit := .manager (.handleEvents (.events []))

/-- The second connection is closed, the close list is flushed, and the number
goes to a third one. -/
def replacing : List (ClientOp Bool Unit) :=
  [.manager (.close 7 false), timedOut, .manager (.accept 7),
    .manager (.watchEvent 7 .read false true)]

theorem replaced_served_iff :
    Client.Reachable (waitingRun replacing).last ∧
      ((waitingRun replacing).last.kernel.epoll 7).isSome ∧
      (Served (waitingDispatch replacing) (waitingRun replacing).last
          (waitingTurn replacing [(5, { epollIn := true })] [5, 7]) 7
          { epollIn := true } ↔
        Undisturbed (waitingDispatch replacing) (waitingRun replacing).last
          (waitingTurn replacing [(5, { epollIn := true })] [5, 7]) 7
          { epollIn := true }) :=
  ⟨(waitingRun replacing).reachable, by decide +kernel,
    served_iff_undisturbed (waitingRun replacing).body
      (waitingRun replacing).wantMessage (waitingRun replacing).unwatched 2
      (waitingRun replacing).reachable [(5, { epollIn := true })] [] 7
      { epollIn := true } (by decide +kernel)
      (eq_ok_of_valueOf (by decide +kernel))⟩

/-- A callback that waits makes the loop forget the hang-up of its own event;
and the event of a connection that it closes before is delivered to the one
that gets the number after. -/
theorem wait_disturbs :
    (Client.Reachable (waitingRun [timedOut]).last ∧
      ((waitingRun [timedOut]).last.kernel.epoll 5).isSome ∧
      ∃ turn, handleEach (waitingDispatch [timedOut]) []
          ((waitingRun [timedOut]).last.logBatch [5]) = .ok () turn ∧
        ¬ Served (waitingDispatch [timedOut]) (waitingRun [timedOut]).last turn 5
          { epollIn := true, epollRdhup := true }) ∧
    Client.Reachable (waitingRun replacing).last ∧
      ((waitingRun replacing).last.kernel.epoll 7).isSome ∧
      ∃ turn, handleEach (waitingDispatch replacing)
          [(5, { epollIn := true })]
          ((waitingRun replacing).last.logBatch [5, 7]) = .ok () turn ∧
        ¬ Served (waitingDispatch replacing) (waitingRun replacing).last turn 7
          { epollIn := true } := by
  refine ⟨⟨(waitingRun [timedOut]).reachable, by decide +kernel, ?_⟩,
    (waitingRun replacing).reachable, by decide +kernel, ?_⟩
  · let turn := waitingTurn [timedOut] [] [5]
    refine ⟨turn, rfl, fun served => ?_⟩
    let flags : Flags := { epollIn := true, epollRdhup := true }
    let loaded := (turn.enter 5).loadCb (turn.callbacksAt 5)
    let connected := final (connectStage (waitingDispatch [timedOut]) flags
      loaded)
    let wasRead := final (readStage (waitingDispatch [timedOut]) flags
      connected)
    let written := final (writeStage (waitingDispatch [timedOut]) flags
      wasRead)
    have present : turn.fds[(5 : Fd)]? = some (turn.callbacksAt 5) := by
      have contained : turn.fds[(5 : Fd)]?.isSome := by decide +kernel
      obtain ⟨callbacks, present⟩ := Option.isSome_iff_exists.mp contained
      rw [World.callbacksAt, present]
      rfl
    have reads : Begins (waitingDispatch [timedOut]) 5 flags turn .read flags
        connected := .read present (eq_ok_of_valueOf (by decide +kernel))
    have writes : Begins (waitingDispatch [timedOut]) 5 flags turn .write flags
        wasRead := .write reads (eq_ok_of_valueOf (by decide +kernel))
    have begins : Begins (waitingDispatch [timedOut]) 5 flags turn .close flags
        written :=
      .close (.error writes (eq_ok_of_valueOf (by decide +kernel))) rfl
    have lost : written.currentFd = -1 := by decide +kernel
    have kept := (served.branches begins rfl).1
    rw [lost] at kept
    exact absurd kept (by decide)
  · let turn := waitingTurn replacing [(5, { epollIn := true })] [5, 7]
    refine ⟨turn, eq_ok_of_valueOf (by decide +kernel), fun served => ?_⟩
    have kept := served.connection (by decide +kernel) 2 (by decide +kernel)
    exact absurd kept (by decide +kernel)

end Theorem

end Universe
