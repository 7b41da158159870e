import Universe.EventManager.Program

/-!
# What the operations change

Every change the event manager makes to the world touches few of its members.
The lemmas of this file say which ones, so that the proofs about whole runs
do not unfold the operations again.
-/

namespace Universe

open Std (ExtTreeMap)

namespace Kernel

variable (kernel : Kernel) (op : EpollOp) (fd : Fd) (interest : Interest)

@[simp] theorem epollCtl_conns :
    (kernel.epollCtl op fd interest).2.conns = kernel.conns := by
  cases op <;> simp only [epollCtl] <;> split <;> rfl

@[simp] theorem epollCtl_nextConn :
    (kernel.epollCtl op fd interest).2.nextConn = kernel.nextConn := by
  cases op <;> simp only [epollCtl] <;> split <;> rfl

@[simp] theorem epollCtl_answers :
    (kernel.epollCtl op fd interest).2.answers = kernel.answers := by
  cases op <;> simp only [epollCtl] <;> split <;> rfl

theorem epollCtl_epoll_of_ne {other : Fd} (different : other ≠ fd) :
    (kernel.epollCtl op fd interest).2.epoll other = kernel.epoll other := by
  cases op <;> simp only [epollCtl] <;> split <;>
    simp [Function.update_of_ne different]

/-- Deleting leaves no entry, and fails only where there was none. -/
@[simp] theorem epollCtl_del_epoll :
    (kernel.epollCtl .del fd interest).2.epoll =
      Function.update kernel.epoll fd none := by
  simp only [epollCtl]
  split
  · rfl
  · next missing =>
      rw [Bool.not_eq_true, Option.isSome_eq_false_iff,
        Option.isNone_iff_eq_none] at missing
      rw [← missing, Function.update_eq_self]

@[simp] theorem epollCtl_del_result :
    (kernel.epollCtl .del fd interest).1 = (kernel.epoll fd).isSome := by
  simp only [epollCtl]
  split <;> simp_all

/-- What the event manager relies on: only open descriptors are registered,
and their numbers are not negative. -/
structure Sound (kernel : Kernel) : Prop where
  registeredOpen : ∀ fd, (kernel.epoll fd).isSome → (kernel.conns fd).isSome
  openNonneg : ∀ fd, (kernel.conns fd).isSome → 0 ≤ fd

namespace Sound

variable {kernel : Kernel} (sound : kernel.Sound)
include sound

theorem epollCtl (op : EpollOp) (fd : Fd) (interest : Interest) :
    (kernel.epollCtl op fd interest).2.Sound := by
  refine ⟨?_, by simpa using sound.openNonneg⟩
  intro other registered
  rw [epollCtl_conns]
  by_cases same : other = fd
  · subst same
    cases op with
    | add =>
        simp only [Kernel.epollCtl] at registered
        split at registered
        · next guard =>
            simp only [Bool.and_eq_true] at guard
            exact guard.1
        · exact sound.registeredOpen other registered
    | mod =>
        simp only [Kernel.epollCtl] at registered
        split at registered
        · next guard => exact sound.registeredOpen other guard
        · exact sound.registeredOpen other registered
    | del => simp at registered
  · rw [epollCtl_epoll_of_ne _ _ _ _ same] at registered
    exact sound.registeredOpen other registered

theorem closeFd (fd : Fd) : (kernel.closeFd fd).Sound := by
  refine ⟨?_, ?_⟩
  · intro other registered
    by_cases same : other = fd
    · simp [Kernel.closeFd, same] at registered
    · simp only [Kernel.closeFd, Function.update_of_ne same] at registered ⊢
      exact sound.registeredOpen other registered
  · intro other opened
    by_cases same : other = fd
    · simp [Kernel.closeFd, same] at opened
    · simp only [Kernel.closeFd, Function.update_of_ne same] at opened
      exact sound.openNonneg other opened

theorem openFd {fd : Fd} (free : kernel.Free fd) : (kernel.openFd fd).Sound := by
  refine ⟨?_, ?_⟩
  · intro other registered
    by_cases same : other = fd
    · simp [Kernel.openFd, same]
    · simp only [Kernel.openFd, Function.update_of_ne same]
      exact sound.registeredOpen other registered
  · intro other opened
    by_cases same : other = fd
    · rw [same]
      exact free.1
    · simp only [Kernel.openFd, Function.update_of_ne same] at opened
      exact sound.openNonneg other opened

end Sound

theorem openFd_conns {other : Fd} {conn : Conn} :
    (kernel.openFd fd).conns other = some conn ↔
      other = fd ∧ conn = kernel.nextConn ∨
        other ≠ fd ∧ kernel.conns other = some conn := by
  by_cases here : other = fd
  · simp [openFd, here, eq_comm]
  · simp [openFd, here]

theorem closeFd_conns {other : Fd} {conn : Conn} :
    (kernel.closeFd fd).conns other = some conn ↔
      other ≠ fd ∧ kernel.conns other = some conn := by
  by_cases here : other = fd
  · simp [closeFd, here]
  · simp [closeFd, here]

/-- Every opening has its own `Conn`, and none has one of the future. -/
structure Numbered (kernel : Kernel) : Prop where
  known : ∀ {fd conn}, kernel.conns fd = some conn → conn < kernel.nextConn
  distinct : ∀ {fd other conn}, kernel.conns fd = some conn →
    kernel.conns other = some conn → fd = other

namespace Numbered

variable {kernel} (numbered : kernel.Numbered)
include numbered

theorem openFd : (kernel.openFd fd).Numbered := by
  constructor
  · intro other conn opened
    rcases (openFd_conns kernel fd).mp opened with ⟨-, rfl⟩ | ⟨-, opened⟩
    · exact Nat.lt_succ_self _
    · exact Nat.lt_succ_of_lt (numbered.known opened)
  · intro first second conn firstOpened secondOpened
    rcases (openFd_conns kernel fd).mp firstOpened with
      ⟨firstHere, new⟩ | ⟨-, before⟩
    · rcases (openFd_conns kernel fd).mp secondOpened with
        ⟨secondHere, -⟩ | ⟨-, after⟩
      · rw [firstHere, secondHere]
      · exact absurd (numbered.known after) (by simp [new])
    · rcases (openFd_conns kernel fd).mp secondOpened with
        ⟨-, new⟩ | ⟨-, after⟩
      · exact absurd (numbered.known before) (by simp [new])
      · exact numbered.distinct before after

theorem closeFd : (kernel.closeFd fd).Numbered := by
  constructor
  · intro other conn opened
    exact numbered.known ((closeFd_conns kernel fd).mp opened).2
  · intro first second conn firstOpened secondOpened
    exact numbered.distinct ((closeFd_conns kernel fd).mp firstOpened).2
      ((closeFd_conns kernel fd).mp secondOpened).2

end Numbered

end Kernel

@[simp] theorem rewatchOp_ne_del (added : Bool) :
    (if added = true then EpollOp.mod else EpollOp.add) ≠ .del := by
  cases added <;> decide

namespace World

variable {β σ : Type} (w : World β σ) (fd : Fd) (op : EpollOp) (et : Bool)

@[simp] theorem epollUpdate_fdSsl :
    (w.epollUpdate fd op et).2.fdSsl = w.fdSsl := by cases op <;> rfl

@[simp] theorem epollUpdate_writeBuf :
    (w.epollUpdate fd op et).2.writeBuf = w.writeBuf := by cases op <;> rfl

@[simp] theorem epollUpdate_closeFds :
    (w.epollUpdate fd op et).2.closeFds = w.closeFds := by cases op <;> rfl

@[simp] theorem epollUpdate_currentFd :
    (w.epollUpdate fd op et).2.currentFd = w.currentFd := by cases op <;> rfl

@[simp] theorem epollUpdate_currentCb :
    (w.epollUpdate fd op et).2.currentCb = w.currentCb := by cases op <;> rfl

@[simp] theorem epollUpdate_user :
    (w.epollUpdate fd op et).2.user = w.user := by cases op <;> rfl

@[simp] theorem epollUpdate_tickets :
    (w.epollUpdate fd op et).2.tickets = w.tickets := by cases op <;> rfl

@[simp] theorem epollUpdate_conns :
    (w.epollUpdate fd op et).2.kernel.conns = w.kernel.conns := by
  cases op <;> simp [epollUpdate, log]

@[simp] theorem epollUpdate_nextConn :
    (w.epollUpdate fd op et).2.kernel.nextConn = w.kernel.nextConn := by
  cases op <;> simp [epollUpdate, log]

@[simp] theorem epollUpdate_answers :
    (w.epollUpdate fd op et).2.kernel.answers = w.kernel.answers := by
  cases op <;> simp [epollUpdate, log]

@[simp] theorem epollUpdate_del_fds :
    (w.epollUpdate fd .del et).2.fds = w.fds := rfl

@[simp] theorem epollUpdate_del_history :
    (w.epollUpdate fd .del et).2.history = w.history := rfl

@[simp] theorem epollUpdate_del_epoll :
    (w.epollUpdate fd .del et).2.kernel.epoll =
      Function.update w.kernel.epoll fd none := by
  simp [epollUpdate]

@[simp] theorem epollUpdate_del_result :
    (w.epollUpdate fd .del et).1 = (w.kernel.epoll fd).isSome := by
  simp [epollUpdate]

variable {op}

/-- `_fds[fd]`, which makes an empty entry when there is none. -/
def callbacksAt (w : World β σ) (fd : Fd) : EventCB (Handler β) :=
  (w.fds[fd]?).getD EventCB.empty

theorem epollUpdate_fds (keep : op ≠ .del) :
    (w.epollUpdate fd op et).2.fds = w.fds.insert fd (w.callbacksAt fd) := by
  cases op with
  | del => exact absurd rfl keep
  | add => rfl
  | mod => rfl

theorem epollUpdate_history (keep : op ≠ .del) :
    (w.epollUpdate fd op et).2.history =
      .stored fd (w.kernel.conns fd) (w.releasing fd) :: w.history := by
  cases op with
  | del => exact absurd rfl keep
  | add => rfl
  | mod => rfl

theorem epollUpdate_epoll (keep : op ≠ .del) :
    (w.epollUpdate fd op et).2.kernel.epoll =
      (w.kernel.epollCtl op fd (interest (w.callbacksAt fd)
        (w.hasWriteBuf fd) et)).2.epoll := by
  cases op with
  | del => exact absurd rfl keep
  | add => rfl
  | mod => rfl

end World

namespace World

variable {β σ : Type} (w : World β σ) (fd : Fd)

theorem callbacksAt_of_insert {after : World β σ}
    {callbacks : EventCB (Handler β)}
    (inserted : after.fds = w.fds.insert fd callbacks) :
    after.callbacksAt = Function.update w.callbacksAt fd callbacks := by
  funext other
  by_cases same : fd = other
  · subst same
    simp [callbacksAt, inserted]
  · simp [callbacksAt, inserted, ExtTreeMap.getElem?_insert, same,
      Function.update_of_ne (Ne.symm same)]

theorem callbacksAt_of_erase {after : World β σ}
    (erased : after.fds = w.fds.erase fd) :
    after.callbacksAt = Function.update w.callbacksAt fd EventCB.empty := by
  funext other
  by_cases same : fd = other
  · subst same
    simp [callbacksAt, erased]
  · simp [callbacksAt, erased, ExtTreeMap.getElem?_erase, same,
      Function.update_of_ne (Ne.symm same)]

@[simp] theorem epollUpdate_callbacksAt (op : EpollOp) (et : Bool) :
    (w.epollUpdate fd op et).2.callbacksAt = w.callbacksAt := by
  by_cases deleted : op = .del
  · subst deleted
    rfl
  · rw [w.callbacksAt_of_insert fd (epollUpdate_fds _ _ _ deleted),
      Function.update_eq_self]

end World

namespace World

variable {β σ : Type} {w after : World β σ} {fd : Fd} {op : EpollOp}

theorem epollUpdate_contains (keep : op ≠ .del) (et : Bool) (other : Fd) :
    (w.epollUpdate fd op et).2.fds.contains other =
      (decide (fd = other) || w.fds.contains other) := by
  rw [epollUpdate_fds _ _ _ keep, ExtTreeMap.contains_insert]
  by_cases same : fd = other <;> simp [same]

/-- What is on the interest list stays there, unless it is deleted. -/
theorem epollUpdate_stays (keep : op ≠ .del) (et : Bool) (other : Fd)
    (registered : (w.kernel.epoll other).isSome) :
    ((w.epollUpdate fd op et).2.kernel.epoll other).isSome := by
  rw [epollUpdate_epoll _ _ _ keep]
  by_cases same : other = fd
  · subst same
    cases op with
    | add =>
        simp only [Kernel.epollCtl]
        split
        · simp
        · exact registered
    | mod =>
        simp only [Kernel.epollCtl]
        rw [if_pos registered]
        simp
    | del => exact absurd rfl keep
  · rw [Kernel.epollCtl_epoll_of_ne _ _ _ _ same]
    exact registered

theorem contains_insert_or (w : World β σ) (fd : Fd)
    (callbacks : EventCB (Handler β)) (other : Fd) :
    (w.fds.insert fd callbacks).contains other = w.fds.contains other ∨
      other = fd := by
  by_cases same : fd = other
  · exact .inr same.symm
  · exact .inl (by simp [ExtTreeMap.contains_insert, same])

theorem releasing_eq_false :
    w.releasing fd = false ↔
      fd ∉ w.closeFds ∧ fd ∉ begun (frames w.history) := by
  simp [releasing]

theorem releasing_congr (closeFds : after.closeFds = w.closeFds)
    (framesKept : frames after.history = frames w.history) :
    after.releasing = w.releasing := by
  funext fd
  rw [releasing, releasing, closeFds, framesKept]

end World

namespace World

variable {β σ : Type} {fd : Fd} {conn : Conn}

/-- What one round of the loop of `write` preserves, and what its last round
then establishes. -/
structure LoopRule (fd : Fd) (conn : Conn) (during : Bytes → World β σ → Prop)
    (after : World β σ → Prop) : Prop where
  accepted : ∀ rest extra w, count extra rest < rest.length → during rest w →
    during (rest.drop (count extra rest))
      (w.log (.sysWrite conn rest (.accepted extra)))
  finished : ∀ rest extra answers w, ¬ count extra rest < rest.length →
    during rest w →
    after ((w.log (.sysWrite conn rest (.accepted extra))).setAnswers answers)
  again : ∀ rest answers w, during rest w →
    after (((w.log (.sysWrite conn rest .again)).setAnswers
      answers).appendWriteBuf fd rest)
  failed : ∀ rest errno answers w, during rest w →
    after ((w.log (.sysWrite conn rest (.error errno))).setAnswers answers)

theorem LoopRule.writeLoop {during : Bytes → World β σ → Prop}
    {after : World β σ → Prop} (rule : LoopRule fd conn during after)
    (results : List WriteResult) :
    ∀ (size : Nat) (rest : Bytes) (w : World β σ), during rest w →
      after (writeLoop fd conn size rest results w).2 := by
  induction results with
  | nil =>
      intro size rest w holds
      exact rule.again rest _ w holds
  | cons result results induction =>
      intro size rest w holds
      cases result with
      | again => exact rule.again rest _ w holds
      | error errno => exact rule.failed rest errno _ w holds
      | accepted extra =>
          simp only [World.writeLoop]
          split
          · next partly =>
              exact induction _ _ _ (rule.accepted rest extra w partly holds)
          · next whole => exact rule.finished rest extra _ w whole holds

/-- The four ways through `write`: by TLS, behind queued bytes, on a number
that is not open, and through the loop. -/
theorem submit_cases {motive : World β σ → Prop} (w : World β σ) (data : Bytes)
    (tls : w.fdSsl.contains fd → ∀ connection answers,
      motive { w.setAnswers answers with fdSsl := w.fdSsl.insert fd connection })
    (behind : ∀ queued, w.writeBuf[fd]? = some queued →
      motive { w with writeBuf := w.writeBuf.insert fd (queued ++ data) })
    (notOpen : w.writeBuf[fd]? = none → w.kernel.conns fd = none → motive w)
    (loop : ∀ conn, w.writeBuf[fd]? = none → w.kernel.conns fd = some conn →
      motive (writeLoop fd conn 0 data w.kernel.answers.writes w).2) :
    motive (w.submit fd data).2 := by
  unfold submit
  split
  · next found =>
      have secured : w.fdSsl.contains fd = true := by
        simp [← ExtTreeMap.isSome_getElem?_eq_contains, found]
      exact tls secured _ _
  · split
    · next present =>
        have found : w.writeBuf[fd]?.isSome := by
          simpa [hasWriteBuf] using present
        obtain ⟨queued, found⟩ := Option.isSome_iff_exists.mp found
        simpa [appendWriteBuf, found] using behind queued found
    · next absent =>
        have missing : w.writeBuf[fd]? = none := by
          simpa [hasWriteBuf] using absent
        cases opened : w.kernel.conns fd with
        | none => exact notOpen missing opened
        | some conn => exact loop conn missing opened

theorem submit_user (w : World β σ) (fd : Fd) (data : Bytes) :
    (w.submit fd data).2.user = w.user := by
  refine submit_cases w data (motive := fun after => after.user = w.user)
    ?_ ?_ ?_ ?_
  · exact fun _ _ _ => rfl
  · exact fun _ _ => rfl
  · exact fun _ _ => rfl
  · intro conn missing opened
    have rule : LoopRule fd conn
        (fun _ (after : World β σ) => after.user = w.user)
        (fun after => after.user = w.user) := by
      refine ⟨?_, ?_, ?_, ?_⟩
      · exact fun _ _ _ _ same => same
      · exact fun _ _ _ _ _ same => same
      · intro rest answers after same
        unfold appendWriteBuf
        split
        · unfold autoRewatch
          rw [epollUpdate_user]
          exact same
        · exact same
      · exact fun _ _ _ _ same => same
    exact rule.writeLoop _ _ _ _ rfl

theorem connectSucceeded_eq (w : World β σ) (flags : Flags) :
    ∃ answers, (w.connectSucceeded flags).2 = w.setAnswers answers := by
  unfold connectSucceeded
  split
  · exact ⟨w.kernel.answers, rfl⟩
  · split
    · split
      · exact ⟨w.kernel.answers, rfl⟩
      · exact ⟨_, rfl⟩
    · exact ⟨w.kernel.answers, rfl⟩

theorem handshake_eq (w : World β σ) (fd : Fd) :
    ∃ connections answers, (w.handshake fd).2 =
      { w.setAnswers answers with fdSsl := connections } := by
  unfold handshake
  split
  · exact ⟨w.fdSsl, w.kernel.answers, rfl⟩
  · exact ⟨_, _, rfl⟩

theorem eraseConnect_fds (w : World β σ) :
    w.eraseConnect.fds[w.currentFd]? =
      some ((w.callbacksAt w.currentFd).erase .connect) := by
  simp [eraseConnect, callbacksAt]

theorem appendWriteBuf_of_none (w : World β σ) (data : Bytes)
    (missing : w.writeBuf[fd]? = none) :
    w.appendWriteBuf fd data =
      ({ w with writeBuf := w.writeBuf.insert fd data }.autoRewatch fd).2 := by
  simp [appendWriteBuf, missing]

end World

namespace World

variable {β σ : Type}

/-- The open descriptors and their connections are the same. -/
structure SameConns (w after : World β σ) : Prop where
  conns : after.kernel.conns = w.kernel.conns
  nextConn : after.kernel.nextConn = w.kernel.nextConn

/-- What `write` leaves alone; the entry it may make has the callbacks that
were there. -/
structure Submitted (w after : World β σ) : Prop extends SameConns w after where
  closeFds : after.closeFds = w.closeFds
  currentFd : after.currentFd = w.currentFd
  currentCb : after.currentCb = w.currentCb
  callbacksAt : after.callbacksAt = w.callbacksAt
  tickets : after.tickets = w.tickets
  keys : ∀ fd, w.fds.contains fd → after.fds.contains fd
  epoll : ∀ fd, (after.kernel.epoll fd).isSome →
    (w.kernel.epoll fd).isSome ∨ w.fds.contains fd = false
  stays : ∀ fd, (w.kernel.epoll fd).isSome → (after.kernel.epoll fd).isSome

theorem Submitted.of_eq {w after : World β σ} (kernel : SameConns w after)
    (epoll : after.kernel.epoll = w.kernel.epoll) (fds : after.fds = w.fds)
    (closeFds : after.closeFds = w.closeFds)
    (currentFd : after.currentFd = w.currentFd)
    (currentCb : after.currentCb = w.currentCb)
    (tickets : after.tickets = w.tickets) : Submitted w after := by
  refine ⟨kernel, closeFds, currentFd, currentCb, ?_, tickets, ?_, ?_, ?_⟩
  · funext fd
    rw [World.callbacksAt, World.callbacksAt, fds]
  · rw [fds]
    exact fun _ => id
  · rw [epoll]
    exact fun _ => .inl
  · rw [epoll]
    exact fun _ => id

theorem Submitted.trans {w middle after : World β σ}
    (first : Submitted w middle) (second : Submitted middle after) :
    Submitted w after := by
  refine ⟨⟨second.conns.trans first.conns, second.nextConn.trans first.nextConn⟩,
    second.closeFds.trans first.closeFds, second.currentFd.trans first.currentFd,
    second.currentCb.trans first.currentCb,
    second.callbacksAt.trans first.callbacksAt,
    second.tickets.trans first.tickets,
    fun fd contained => second.keys fd (first.keys fd contained), ?_,
    fun fd registered => second.stays fd (first.stays fd registered)⟩
  intro fd registered
  rcases second.epoll fd registered with before | missing
  · exact first.epoll fd before
  · right
    by_contra contained
    have kept := first.keys fd (by simpa using contained)
    rw [missing] at kept
    cases kept

/-- `auto_rewatch` keeps the callbacks, and adds to the interest list only a
descriptor without an entry. -/
theorem autoRewatch_submitted (w : World β σ) (fd : Fd) (et : Bool) :
    Submitted w (w.autoRewatch fd et).2 := by
  have keep := rewatchOp_ne_del (w.fds.contains fd)
  unfold autoRewatch
  refine ⟨⟨by simp, by simp⟩, by simp, by simp, by simp, by simp, by simp,
    ?_, ?_, fun other => epollUpdate_stays keep et other⟩
  · intro other contained
    rw [epollUpdate_contains keep, contained, Bool.or_true]
  · intro other registered
    by_cases same : other = fd
    · subst same
      rw [epollUpdate_epoll _ _ _ keep] at registered
      cases contained : w.fds.contains other with
      | false => exact .inr rfl
      | true =>
          left
          rw [contained] at registered
          simp only [if_true, Kernel.epollCtl] at registered
          split at registered
          · next present => exact present
          · exact registered
    · rw [epollUpdate_epoll _ _ _ keep, Kernel.epollCtl_epoll_of_ne _ _ _ _ same]
        at registered
      exact .inl registered

theorem submit_submitted (w : World β σ) (fd : Fd) (data : Bytes) :
    Submitted w (w.submit fd data).2 := by
  refine submit_cases w data ?_ ?_ ?_ ?_
  · intro _ connection answers
    exact .of_eq ⟨rfl, rfl⟩ rfl rfl rfl rfl rfl rfl
  · intro queued found
    exact .of_eq ⟨rfl, rfl⟩ rfl rfl rfl rfl rfl rfl
  · intro missing notOpen
    exact .of_eq ⟨rfl, rfl⟩ rfl rfl rfl rfl rfl rfl
  · intro conn missing opened
    have rule : LoopRule fd conn
        (fun _ after => after.writeBuf[fd]? = none ∧ Submitted w after)
        (Submitted w) := by
      refine ⟨?_, ?_, ?_, ?_⟩
      · rintro rest extra after - ⟨missing, same⟩
        exact ⟨missing, same.trans (.of_eq ⟨rfl, rfl⟩ rfl rfl rfl rfl rfl rfl)⟩
      · rintro rest extra answers after - ⟨missing, same⟩
        exact same.trans (.of_eq ⟨rfl, rfl⟩ rfl rfl rfl rfl rfl rfl)
      · rintro rest answers after ⟨missing, same⟩
        rw [appendWriteBuf_of_none _ _ (by exact missing)]
        refine same.trans (.trans ?_ (autoRewatch_submitted _ fd false))
        exact .of_eq ⟨rfl, rfl⟩ rfl rfl rfl rfl rfl rfl
      · rintro rest errno answers after ⟨missing, same⟩
        exact same.trans (.of_eq ⟨rfl, rfl⟩ rfl rfl rfl rfl rfl rfl)
    exact rule.writeLoop _ _ _ _
      ⟨missing, .of_eq ⟨rfl, rfl⟩ rfl rfl rfl rfl rfl rfl⟩

end World

section History

variable {β σ : Type}

/-- The history grows by events of one kind. -/
def Grows (kind : Event β → Bool) (w after : World β σ) : Prop :=
  ∃ events, after.history = events ++ w.history ∧
    ∀ event ∈ events, kind event

theorem Grows.cons {kind : Event β → Bool} {w middle after : World β σ}
    (grows : Grows kind w middle) {event : Event β} (allowed : kind event)
    (history : after.history = event :: middle.history) :
    Grows kind w after := by
  obtain ⟨events, before, all⟩ := grows
  refine ⟨event :: events, by rw [history, before]; rfl, ?_⟩
  intro earlier member
  rcases List.mem_cons.mp member with rfl | member
  · exact allowed
  · exact all earlier member

theorem Grows.suffix {kind : Event β → Bool} {w after : World β σ}
    (grows : Grows kind w after) : w.history <:+ after.history := by
  obtain ⟨events, history, -⟩ := grows
  exact ⟨events, history.symm⟩

/-- What is read off the history without looking at these events. -/
theorem Grows.same {kind : Event β → Bool} {w after : World β σ}
    (grows : Grows kind w after) {γ : Type} {view : List (Event β) → γ}
    (skip : ∀ event past, kind event → view (event :: past) = view past) :
    view after.history = view w.history := by
  obtain ⟨events, history, all⟩ := grows
  rw [history]
  clear history
  induction events with
  | nil => rfl
  | cons event events induction =>
      rw [List.cons_append, skip event _ (all event List.mem_cons_self)]
      exact induction fun earlier member =>
        all earlier (List.mem_cons_of_mem event member)

/-- What `write` itself records. -/
def Event.isWriting : Event β → Bool
  | .sysWrite .. => true
  | .stored .. => true
  | _ => false

theorem dispatching_writing (event : Event β) (past : List (Event β))
    (writing : event.isWriting) :
    dispatching (event :: past) = dispatching past := by
  cases event <;> first | rfl | cases writing

/-- `write` adds its own events to the history and no others. -/
theorem submit_grows (w : World β σ) (fd : Fd) (data : Bytes) :
    Grows Event.isWriting w (w.submit fd data).2 := by
  have start : Grows Event.isWriting w w := ⟨[], rfl, by simp⟩
  refine World.submit_cases w data ?_ ?_ ?_ ?_
  · intro _ connection answers
    exact start
  · intro queued found
    exact start
  · intro missing notOpen
    exact start
  · intro conn missing opened
    have rule : World.LoopRule fd conn
        (fun _ after => after.writeBuf[fd]? = none ∧
          Grows Event.isWriting w after)
        (Grows Event.isWriting w) := by
      refine ⟨?_, ?_, ?_, ?_⟩
      · rintro rest extra after - ⟨missing, grows⟩
        exact ⟨missing, grows.cons rfl rfl⟩
      · rintro rest extra answers after - ⟨missing, grows⟩
        exact grows.cons rfl rfl
      · rintro rest answers after ⟨missing, grows⟩
        rw [World.appendWriteBuf_of_none _ _ (by exact missing)]
        have tried : Grows Event.isWriting w
            (after.log (.sysWrite conn rest .again)) := grows.cons rfl rfl
        exact tried.cons rfl
          (World.epollUpdate_history _ _ _ (rewatchOp_ne_del _))
      · rintro rest errno answers after ⟨missing, grows⟩
        exact grows.cons rfl rfl
    exact rule.writeLoop _ _ _ _ ⟨missing, start⟩

section Ends

variable {frame : Frame β} {rest : List (Frame β)} {past : List (Event β)}
  (top : frames past = frame :: rest)
include top

theorem begun_released (progress : frame.progress = .begun) (fd : Fd)
    (conn : Option Conn) (pending : Bool) :
    begun (frames past) =
      frame.fd :: begun (frames (.released fd conn true pending :: past)) := by
  simp [frames, top, advance, begun, progress]

theorem begun_invoked (progress : frame.progress ≠ .begun) (fd : Fd)
    (ticket : Nat) (cause : Cause) (stored current : Option Conn) :
    begun (frames (.invoked fd .close ticket cause stored current :: past)) =
      begun (frames past) := by
  simp [frames, top, advance, begun, progress]

theorem begun_ended (progress : frame.progress ≠ .begun) :
    begun (frames (.ended :: past)) = begun (frames past) := by
  simp [frames, top, begun, progress]

end Ends

theorem epollUpdate_suffix (w : World β σ) (fd : Fd) (op : EpollOp)
    (et : Bool) : w.history <:+ (w.epollUpdate fd op et).2.history := by
  by_cases deleted : op = .del
  · subst deleted
    exact List.suffix_rfl
  · rw [World.epollUpdate_history _ _ _ deleted]
    exact List.suffix_cons _ _

end History

end Universe
