import Universe.EventManager.Registration
import Universe.EventManager.WriteBuffer

/-!
# Order and completeness of writes

On a connection that is open and has lost nothing, the bytes the kernel took
followed by those in `_write_buf` are the data of all calls of `write`, and
the kernel is asked to report when it can take more.
-/

namespace Universe

open Std (ExtTreeMap)

variable {β σ : Type}

/-- The kernel hands out the number `fd` for `conn`, and neither `_write_buf`
nor `_fds` has anything left over for it. -/
def Event.opensClean (fd : Fd) (conn : Conn) : Event β → Bool
  | .opened number new none false => decide (number = fd ∧ new = conn)
  | _ => false

theorem opensClean_opened {number fd : Fd} {new conn : Conn}
    {queued : Option Bytes} {registered : Bool} :
    (Event.opened number new queued registered : Event β).opensClean fd conn ↔
      queued = none ∧ registered = false ∧ number = fd ∧ new = conn := by
  cases queued <;> cases registered <;> simp [Event.opensClean]

/-- The registrations of the descriptors that have bytes queued. -/
structure Interested (w : World β σ) : Prop where
  registered : ∀ fd, (w.kernel.epoll fd).isSome → w.fds.contains fd
  out : ∀ fd interest, w.kernel.epoll fd = some interest →
    w.writeBuf.contains fd → interest.epollOut = true
  watched : ∀ fd conn, w.kernel.conns fd = some conn →
    (∃ event ∈ w.history, event.opensClean fd conn) →
    w.fds.contains fd → (w.kernel.epoll fd).isSome
  arrived : ∀ fd conn, (∃ event ∈ w.history, event.opensClean fd conn) →
    conn < w.kernel.nextConn ∧ inherited conn w.history = []

namespace Interested

variable {w middle after : World β σ} {fd : Fd} {op : EpollOp}

theorem init (user : σ) (answers : Answers) :
    Interested (World.init user answers : World β σ) := by
  constructor <;> simp [World.init, Kernel.boot]

/-- No descriptor arrives. -/
structure NoArrival (w after : World β σ) : Prop where
  conns : after.kernel.conns = w.kernel.conns
  nextConn : after.kernel.nextConn = w.kernel.nextConn
  opens : ∀ fd conn, (∃ event ∈ after.history, event.opensClean fd conn) →
    ∃ event ∈ w.history, event.opensClean fd conn
  inherited : ∀ conn, inherited conn after.history = inherited conn w.history

theorem NoArrival.of_quiet (quiet : Quiet w after) : NoArrival w after := by
  refine ⟨quiet.conns, quiet.nextConn, ?_, quiet.inherited_eq⟩
  rintro fd conn ⟨event, member, opens⟩
  obtain ⟨events, history, allQuiet⟩ := quiet.history
  rw [history] at member
  rcases List.mem_append.mp member with member | member
  · have eventQuiet := allQuiet event member
    cases event <;> simp_all [Event.quiet, Event.opensClean]
  · exact ⟨event, member, opens⟩

/-- One event that is no arrival. -/
theorem NoArrival.cons (noArrival : NoArrival w middle) (event : Event β)
    (other : ∀ fd conn, event.opensClean fd conn = false)
    (unread : ∀ conn, Universe.inherited conn (event :: middle.history) =
      Universe.inherited conn middle.history)
    (conns : after.kernel.conns = middle.kernel.conns)
    (nextConn : after.kernel.nextConn = middle.kernel.nextConn)
    (history : after.history = event :: middle.history) :
    NoArrival w after := by
  refine ⟨conns.trans noArrival.conns, nextConn.trans noArrival.nextConn, ?_, ?_⟩
  · rintro fd conn ⟨earlier, member, opens⟩
    rw [history] at member
    rcases List.mem_cons.mp member with rfl | member
    · rw [other] at opens
      cases opens
    · exact noArrival.opens fd conn ⟨earlier, member, opens⟩
  · intro conn
    rw [history, unread, noArrival.inherited]

theorem NoArrival.refl (w : World β σ) : NoArrival w w :=
  ⟨rfl, rfl, fun _ _ => id, fun _ => rfl⟩

theorem of_same (interested : Interested w) (noArrival : NoArrival w after)
    (keys : ∀ fd, after.fds.contains fd = w.fds.contains fd)
    (epoll : after.kernel.epoll = w.kernel.epoll)
    (writeBuf : ∀ fd, after.writeBuf.contains fd → w.writeBuf.contains fd) :
    Interested after := by
  refine ⟨?_, ?_, ?_, ?_⟩
  · intro fd present
    rw [keys]
    exact interested.registered fd (epoll ▸ present)
  · intro fd interest present queued
    exact interested.out fd interest (epoll ▸ present) (writeBuf fd queued)
  · intro fd conn opened clean contained
    rw [noArrival.conns] at opened
    rw [keys] at contained
    rw [epoll]
    exact interested.watched fd conn opened (noArrival.opens fd conn clean)
      contained
  · intro fd conn clean
    rw [noArrival.nextConn, noArrival.inherited]
    exact interested.arrived fd conn (noArrival.opens fd conn clean)

/-- An entry is stored, possibly for bytes that are queued from now on. -/
theorem store (interested : Interested w) (et : Bool)
    (noArrival : NoArrival w (middle.epollUpdate fd op et).2)
    (keep : op ≠ .del) (modified : op = .mod → w.fds.contains fd)
    (others : ∀ other, middle.fds.contains other = w.fds.contains other ∨
      other = fd)
    (conns : middle.kernel.conns = w.kernel.conns)
    (epoll : middle.kernel.epoll = w.kernel.epoll)
    (writeBuf : ∀ other, middle.writeBuf.contains other →
      w.writeBuf.contains other ∨
        other = fd ∧ (op = .add → w.kernel.epoll fd = none)) :
    Interested (middle.epollUpdate fd op et).2 := by
  refine ⟨?_, ?_, ?_, ?_⟩
  · intro other present
    rw [World.epollUpdate_contains keep]
    by_cases same : fd = other
    · simp [same]
    · rw [World.epollUpdate_epoll_of_ne et (Ne.symm same), epoll] at present
      rw [(others other).resolve_right (Ne.symm same),
        interested.registered other present, Bool.or_true]
  · intro other interest present queued
    rw [World.epollUpdate_writeBuf] at queued
    by_cases same : other = fd
    · subst same
      rcases World.epollUpdate_epollOut et keep queued present with
        asked | ⟨added, kept⟩
      · exact asked
      · rw [epoll] at kept
        rcases writeBuf other queued with before | ⟨-, absent⟩
        · exact interested.out other interest kept before
        · rw [absent added] at kept
          cases kept
    · rw [World.epollUpdate_epoll_of_ne et same, epoll] at present
      rcases writeBuf other queued with before | ⟨here, -⟩
      · exact interested.out other interest present before
      · exact absurd here same
  · intro other conn opened clean contained
    have before := noArrival.opens other conn clean
    rw [World.epollUpdate_conns, conns] at opened
    by_cases same : other = fd
    · subst same
      refine World.epollUpdate_isSome et keep (by simp [conns, opened]) ?_
      intro modifies
      rw [epoll]
      exact interested.watched other conn opened before (modified modifies)
    · rw [World.epollUpdate_contains keep, decide_eq_false (Ne.symm same),
        Bool.false_or, (others other).resolve_right same] at contained
      rw [World.epollUpdate_epoll_of_ne et same, epoll]
      exact interested.watched other conn opened before contained
  · intro other conn clean
    rw [noArrival.nextConn, noArrival.inherited]
    exact interested.arrived other conn (noArrival.opens other conn clean)

theorem remove (interested : Interested w) (fd : Fd)
    (noArrival : NoArrival w after)
    (keys : ∀ other, after.fds.contains other =
      (!decide (fd = other) && w.fds.contains other))
    (epoll : after.kernel.epoll = Function.update w.kernel.epoll fd none)
    (writeBuf : after.writeBuf = w.writeBuf) : Interested after := by
  have contains : ∀ other, other ≠ fd →
      after.fds.contains other = w.fds.contains other := by
    intro other different
    rw [keys, decide_eq_false (Ne.symm different)]
    rfl
  have others : ∀ other, other ≠ fd →
      after.kernel.epoll other = w.kernel.epoll other := by
    intro other different
    rw [epoll, Function.update_of_ne different]
  have gone : after.kernel.epoll fd = none := by
    rw [epoll, Function.update_self]
  refine ⟨?_, ?_, ?_, ?_⟩
  · intro other present
    by_cases same : other = fd
    · simp [same, gone] at present
    · rw [contains other same]
      exact interested.registered other (others other same ▸ present)
  · intro other interest present queued
    by_cases same : other = fd
    · simp [same, gone] at present
    · exact interested.out other interest (others other same ▸ present)
        (writeBuf ▸ queued)
  · intro other conn opened clean contained
    by_cases same : other = fd
    · simp [same, keys] at contained
    · rw [noArrival.conns] at opened
      rw [contains other same] at contained
      rw [others other same]
      exact interested.watched other conn opened
        (noArrival.opens other conn clean) contained
  · intro other conn clean
    rw [noArrival.nextConn, noArrival.inherited]
    exact interested.arrived other conn (noArrival.opens other conn clean)

theorem acceptFd (interested : Interested w)
    (balanced : Balanced w) (free : w.kernel.Free fd) :
    Interested (w.acceptFd fd) := by
  have older : ∀ {other conn}, (∃ event ∈ w.history,
      event.opensClean other conn) → w.kernel.nextConn ≠ conn :=
    fun clean => (Nat.ne_of_lt (interested.arrived _ _ clean).1).symm
  unfold World.acceptFd
  rw [if_pos free]
  refine ⟨interested.registered, interested.out, ?_, ?_⟩
  · rintro other conn opened ⟨event, member, opens⟩ contained
    rcases (Kernel.openFd_conns _ _).mp opened with ⟨rfl, rfl⟩ | ⟨-, before⟩
    · rcases List.mem_cons.mp member with rfl | member
      · obtain ⟨-, unregistered, -, -⟩ := opensClean_opened.mp opens
        have contained : w.fds.contains other = true := contained
        rw [unregistered] at contained
        cases contained
      · exact absurd rfl (older ⟨event, member, opens⟩)
    · rcases List.mem_cons.mp member with rfl | member
      · obtain ⟨-, -, -, rfl⟩ := opensClean_opened.mp opens
        exact absurd (balanced.numbered.known before) (Nat.lt_irrefl _)
      · exact interested.watched other conn before ⟨event, member, opens⟩
          contained
  · rintro other conn ⟨event, member, opens⟩
    rcases List.mem_cons.mp member with rfl | member
    · obtain ⟨nothing, -, -, rfl⟩ := opensClean_opened.mp opens
      exact ⟨Nat.lt_succ_self _, by simp [World.log, inherited, nothing]⟩
    · have arrived := interested.arrived other conn ⟨event, member, opens⟩
      refine ⟨Nat.lt_succ_of_lt arrived.1, ?_⟩
      simpa [World.log, inherited, older ⟨event, member, opens⟩] using arrived.2

theorem sysClose (interested : Interested w) (fd : Fd) (rest : List Fd) :
    Interested ({ w with closeFds := rest }.sysClose fd) := by
  have epoll : ∀ other interest,
      (w.kernel.closeFd fd).epoll other = some interest →
      w.kernel.epoll other = some interest := by
    intro other interest present
    by_cases same : other = fd
    · simp [Kernel.closeFd, same] at present
    · simpa [Kernel.closeFd, Function.update_of_ne same] using present
  have opens : ∀ {other conn},
      (∃ event ∈ ({ w with closeFds := rest }.sysClose fd).history,
        event.opensClean other conn) →
      ∃ event ∈ w.history, event.opensClean other conn := by
    rintro other conn ⟨event, member, opens⟩
    rcases List.mem_cons.mp member with rfl | member
    · cases opens
    · exact ⟨event, member, opens⟩
  refine ⟨?_, ?_, ?_, ?_⟩
  · intro other present
    obtain ⟨interest, present⟩ := Option.isSome_iff_exists.mp present
    exact interested.registered other (by simp [epoll other interest present])
  · intro other interest present queued
    exact interested.out other interest (epoll other interest present) queued
  · intro other conn opened clean contained
    obtain ⟨different, before⟩ := (Kernel.closeFd_conns _ _).mp opened
    have present := interested.watched other conn before (opens clean) contained
    simpa [World.sysClose, World.log, Kernel.closeFd,
      Function.update_of_ne different] using present
  · intro other conn clean
    exact interested.arrived other conn (opens clean)

theorem submit (interested : Interested w) (fd : Fd) (data : Bytes) :
    Interested (w.submit fd data).2 := by
  refine World.submit_cases w data ?_ ?_ ?_ ?_
  · intro _ connection answers
    exact interested.of_same ⟨rfl, rfl, fun _ _ => id, fun _ => rfl⟩
      (fun _ => rfl) rfl (fun _ => id)
  · intro queued found
    refine interested.of_same ⟨rfl, rfl, fun _ _ => id, fun _ => rfl⟩
      (fun _ => rfl) rfl ?_
    intro other contained
    by_cases same : fd = other
    · rw [← same]
      simp [← ExtTreeMap.isSome_getElem?_eq_contains, found]
    · simpa [ExtTreeMap.contains_insert, same] using contained
  · intro missing notOpen
    exact interested
  · intro conn missing opened
    have rule : World.LoopRule fd conn
        (fun _ (w : World β σ) => Interested w ∧ w.writeBuf[fd]? = none)
        Interested := by
      have written : ∀ (rest : Bytes) (result : WriteResult) (w : World β σ),
          NoArrival w (w.log (.sysWrite conn rest result)) := fun _ _ w =>
        (NoArrival.refl w).cons _ (fun _ _ => rfl) (fun _ => rfl) rfl rfl rfl
      refine ⟨?_, ?_, ?_, ?_⟩
      · rintro rest extra w - ⟨interested, missing⟩
        exact ⟨interested.of_same (written ..) (fun _ => rfl) rfl
          (fun _ => id), missing⟩
      · rintro rest extra answers w - ⟨interested, missing⟩
        have noArrival := written rest (.accepted extra) w
        exact interested.of_same ⟨rfl, rfl, noArrival.opens,
          noArrival.inherited⟩ (fun _ => rfl) rfl (fun _ => id)
      · rintro rest answers w ⟨interested, missing⟩
        rw [World.appendWriteBuf_of_none _ _ (by exact missing)]
        refine interested.store _ ?_ (rewatchOp_ne_del _) ?_
          (fun _ => .inl rfl) rfl rfl ?_
        · exact (written rest .again w).cons _ (fun _ _ => rfl) (fun _ => rfl)
            (by simp [World.log, World.setAnswers])
            (by simp [World.log, World.setAnswers])
            (World.epollUpdate_history _ _ _ (rewatchOp_ne_del _))
        · intro modifies
          simpa [World.setAnswers, World.log] using modifies
        · intro other contained
          by_cases same : fd = other
          · refine .inr ⟨same.symm, ?_⟩
            intro adds
            by_contra present
            have contained := interested.registered fd
              (Option.isSome_iff_ne_none.mpr present)
            simp [World.setAnswers, World.log, contained] at adds
          · left
            simpa [World.setAnswers, World.log, ExtTreeMap.contains_insert,
              same] using contained
      · rintro rest errno answers w ⟨interested, missing⟩
        have noArrival := written rest (.error errno) w
        exact interested.of_same ⟨rfl, rfl, noArrival.opens,
          noArrival.inherited⟩ (fun _ => rfl) rfl (fun _ => id)
    exact rule.writeLoop _ _ _ _ ⟨interested, missing⟩

theorem step (interested : Interested w) (balanced : Balanced w)
    (step : Step Rules.plain w after) : Interested after := by
  rcases step_cases balanced.plainText step with registering | moving
  · cases registering with
    | same quiet keys epoll =>
        exact interested.of_same (.of_quiet quiet) keys epoll
          (by simp [quiet.writeBuf])
    | store middle fd op et eq quiet keep modified others kernel writeBuf =>
        subst eq
        exact interested.store et (.of_quiet quiet) keep modified others
          (by rw [kernel]) (by rw [kernel]) (fun _ queued => .inl (writeBuf ▸ queued))
    | remove fd quiet keys epoll =>
        exact interested.remove fd (.of_quiet quiet) keys epoll quiet.writeBuf
  cases moving with
  | accept fd free eq =>
      rw [eq]
      exact interested.acceptFd balanced free
  | discard fd force eq =>
      rw [eq]
      refine interested.of_same ((NoArrival.refl w).cons _ (fun _ _ => rfl)
        (fun _ => rfl) rfl rfl rfl) (fun _ => rfl) rfl ?_
      intro other queued
      simp only [World.discard, World.log, ExtTreeMap.contains_erase,
        Bool.and_eq_true] at queued
      exact queued.2
  | request fd data eq =>
      rw [eq]
      refine submit ?_ fd data
      rw [balanced.logRequest_eq]
      exact interested.of_same ((NoArrival.refl w).cons _ (fun _ _ => rfl)
        (fun _ => rfl) rfl rfl rfl) (fun _ => rfl) rfl (fun _ => id)
  | flush fd queued found eq =>
      rw [eq]
      refine submit ?_ fd queued
      refine interested.of_same ⟨rfl, rfl, fun _ _ => id, fun _ => rfl⟩
        (fun _ => rfl) rfl ?_
      intro other queued
      simp only [World.takeWriteBuf, ExtTreeMap.contains_erase,
        Bool.and_eq_true] at queued
      exact queued.2
  | sysClose fd rest eq =>
      rw [eq]
      exact interested.sysClose fd rest

end Interested

/-- On a connection that is open, arrived clean and has lost no bytes, nothing
is reordered, lost or sent twice, and `EPOLLOUT` is asked for while bytes are
queued. -/
theorem write_keeps_order (run : Run β σ) (fd : Fd) (conn : Conn)
    (opened : run.last.kernel.conns fd = some conn)
    (clean : ∃ event ∈ run.history, event.opensClean fd conn)
    (kept : ¬ Dropped conn run.history) :
    sent conn run.history ++ run.last.queued fd = requested conn run.history ∧
      (run.last.fds.contains fd → run.last.writeBuf.contains fd →
        ∃ interest, run.last.kernel.epoll fd = some interest ∧
          interest.epollOut = true) := by
  have both := run.invariant (fun w => Balanced w ∧ Interested w)
    (fun user answers => ⟨Ledger.init user answers, Interested.init user answers⟩)
    (fun _ holds step => ⟨holds.1.step step, holds.2.step holds.1 step⟩)
  obtain ⟨balanced, interested⟩ := both
  refine ⟨?_, ?_⟩
  · have balance := balanced.balance fd conn opened kept
    have nothing : inherited conn run.history = [] :=
      (interested.arrived fd conn clean).2
    rw [show run.last.history = run.history from rfl, nothing,
      List.nil_append] at balance
    exact balance.symm
  · intro contained queued
    have present := interested.watched fd conn opened clean contained
    obtain ⟨interest, found⟩ := Option.isSome_iff_exists.mp present
    exact ⟨interest, found, interested.out fd interest found queued⟩

/-- Three requests, of which the kernel has taken the first byte. -/
def pendingWrites : Run Unit Unit :=
  silentRun
    [.accept 5, .watch 5 closeCallback false true, .write 5 [1, 2],
      .write 5 [3], .handleEvents (.events [(5, { epollOut := true })]),
      .write 5 [4]]
    { writes := [.accepted 0, .again, .again] }

theorem pendingWrites_keep_order :
    requested 0 pendingWrites.history = [1, 2, 3, 4] ∧
      pendingWrites.last.queued 5 = [2, 3, 4] ∧
      sent 0 pendingWrites.history ++ pendingWrites.last.queued 5 =
        requested 0 pendingWrites.history ∧
      (pendingWrites.last.fds.contains 5 →
        pendingWrites.last.writeBuf.contains 5 →
        ∃ interest, pendingWrites.last.kernel.epoll 5 = some interest ∧
          interest.epollOut = true) :=
  ⟨by decide +kernel, by decide +kernel,
    write_keeps_order pendingWrites 5 0 (by decide +kernel) (by decide +kernel)
      (by decide +kernel)⟩

end Universe
