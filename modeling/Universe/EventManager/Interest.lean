import Universe.EventManager.Registration

/-!
# What the kernel is asked to report

The interest list of the kernel follows the callbacks in `_fds` and the bytes
in `_write_buf`, whoever stores, replaces or removes callbacks in the meantime,
as long as `re_watch` is left to those who close descriptors behind the event
manager's back.
-/

namespace Universe

open Std (ExtTreeMap)
open History (Always)

variable {β σ : Type}

/-- No call of `watch` with `re_watch`, which is for descriptors that were not
closed by the event manager. -/
def Event.Ordinary : Event β → Prop
  | .watched _ _ reWatch _ => reWatch = false
  | _ => True

instance : DecidablePred (Event.Ordinary (β := β)) := fun event =>
  match event with
  | .watched .. => inferInstanceAs (Decidable (_ = _))
  | .opened .. | .requested .. | .sysWrite .. | .stored .. | .closing ..
  | .ending .. | .released .. | .ended | .invoked .. | .sysClose ..
  | .batch .. | .entered .. | .refused | .left | .handled .. | .placed .. =>
      .isTrue trivial

/-- A mask asks for the events of these callbacks.  What is asked for beyond
them was asked for by a connect that is over or for bytes that are gone. -/
structure Asks (callbacks : EventCB (Handler β)) (queued : Bool)
    (interest : Interest) : Prop where
  read : interest.epollIn = (callbacks .read).isSome
  close : interest.epollRdhup = (callbacks .close).isSome
  write : (callbacks .write).isSome → interest.epollOut = true
  connect : (callbacks .connect).isSome →
    interest.epollOut = true ∧ interest.epollHup = true
  hangUp : (callbacks .close).isSome → interest.epollHup = true
  queued : queued = true → interest.epollOut = true

theorem asks_interest (callbacks : EventCB (Handler β)) (queued et : Bool) :
    Asks callbacks queued (World.interest callbacks queued et) := by
  constructor <;> simp +contextual [World.interest]

/-- Fewer bytes or no connect need no other mask. -/
theorem Asks.mono {callbacks fewer : EventCB (Handler β)} {queued left : Bool}
    {interest : Interest} (asks : Asks callbacks queued interest)
    (same : ∀ event, event ≠ .connect → fewer event = callbacks event)
    (connect : (fewer .connect).isSome → (callbacks .connect).isSome)
    (bytes : left = true → queued = true) : Asks fewer left interest where
  read := by rw [same .read (by decide)]; exact asks.read
  close := by rw [same .close (by decide)]; exact asks.close
  write := by rw [same .write (by decide)]; exact asks.write
  connect := fun isSome => asks.connect (connect isSome)
  hangUp := by rw [same .close (by decide)]; exact asks.hangUp
  queued := fun isQueued => asks.queued (bytes isQueued)

structure Heeded (w : World β σ) : Prop where
  registered : ∀ fd, (w.kernel.epoll fd).isSome → w.fds.contains fd
  asks : ∀ fd interest, w.kernel.epoll fd = some interest →
    Asks (w.callbacksAt fd) (w.hasWriteBuf fd) interest

namespace Heeded

variable {w middle after : World β σ} {fd : Fd} {op : EpollOp}

theorem init (user : σ) (answers : Answers) :
    Heeded (World.init user answers : World β σ) := by
  constructor <;> simp [World.init, Kernel.boot]

/-- The entries stay, and no bytes are queued. -/
theorem of_same (heeded : Heeded w) (fds : after.fds = w.fds)
    (epoll : after.kernel.epoll = w.kernel.epoll)
    (queued : ∀ fd, after.hasWriteBuf fd = true → w.hasWriteBuf fd = true) :
    Heeded after := by
  refine ⟨?_, ?_⟩
  · intro fd present
    rw [fds]
    exact heeded.registered fd (epoll ▸ present)
  · intro fd interest present
    have callbacks : after.callbacksAt fd = w.callbacksAt fd := by
      unfold World.callbacksAt
      rw [fds]
    rw [callbacks]
    exact (heeded.asks fd interest (epoll ▸ present)).mono (fun _ _ => rfl) id
      (queued fd)

/-- Fewer descriptors are in the interest list, and their entries stay. -/
theorem of_fewer (heeded : Heeded w)
    (left : ∀ fd interest, after.kernel.epoll fd = some interest →
      w.kernel.epoll fd = some interest ∧ after.fds[fd]? = w.fds[fd]?)
    (writeBuf : after.writeBuf = w.writeBuf) : Heeded after := by
  refine ⟨?_, ?_⟩
  · intro fd present
    obtain ⟨interest, present⟩ := Option.isSome_iff_exists.mp present
    obtain ⟨before, entry⟩ := left fd interest present
    have contained := heeded.registered fd (by rw [before]; rfl)
    rw [← ExtTreeMap.isSome_getElem?_eq_contains] at contained ⊢
    rw [entry]
    exact contained
  · intro fd interest present
    obtain ⟨before, entry⟩ := left fd interest present
    have asks := heeded.asks fd interest before
    unfold World.callbacksAt World.hasWriteBuf at asks ⊢
    rw [entry, writeBuf]
    exact asks

/-- An entry is stored, whatever is in it. -/
theorem store (heeded : Heeded w) (et : Bool) (keep : op ≠ .del)
    (added : op = .add → fd ∉ w.fds)
    (others : ∀ other, other ≠ fd → middle.fds[other]? = w.fds[other]? ∧
      middle.hasWriteBuf other = w.hasWriteBuf other)
    (epoll : middle.kernel.epoll = w.kernel.epoll) :
    Heeded (middle.epollUpdate fd op et).2 := by
  have elsewhere : ∀ other, other ≠ fd →
      (middle.epollUpdate fd op et).2.kernel.epoll other =
        w.kernel.epoll other := by
    intro other different
    rw [World.epollUpdate_epoll_of_ne et different, epoll]
  refine ⟨?_, ?_⟩
  · intro other present
    rw [World.epollUpdate_contains keep]
    by_cases same : fd = other
    · simp [same]
    · rw [elsewhere other (Ne.symm same)] at present
      have contained := heeded.registered other present
      rw [← ExtTreeMap.isSome_getElem?_eq_contains] at contained ⊢
      rw [(others other (Ne.symm same)).1, contained, Bool.or_true]
  · intro other interest present
    by_cases same : other = fd
    · subst same
      have stored : interest =
          World.interest (middle.callbacksAt other) (middle.hasWriteBuf other)
            et := by
        rw [World.epollUpdate_epoll _ _ _ keep] at present
        cases op with
        | del => exact absurd rfl keep
        | mod =>
            simp only [Kernel.epollCtl] at present
            split at present
            · simpa using present.symm
            · next absent =>
                rw [show middle.kernel.epoll other = some interest from present]
                  at absent
                exact absurd rfl absent
        | add =>
            simp only [Kernel.epollCtl] at present
            split at present
            · simpa using present.symm
            · have before : w.kernel.epoll other = some interest :=
                epoll ▸ present
              have contained := heeded.registered other (by rw [before]; rfl)
              exact absurd (ExtTreeMap.mem_iff_contains.mpr contained)
                (added rfl)
      have queued : (middle.epollUpdate other op et).2.hasWriteBuf other =
          middle.hasWriteBuf other := by
        unfold World.hasWriteBuf
        rw [World.epollUpdate_writeBuf]
      rw [World.epollUpdate_callbacksAt, queued, stored]
      exact asks_interest _ _ et
    · rw [elsewhere other same] at present
      have asks := heeded.asks other interest present
      have queued : (middle.epollUpdate fd op et).2.hasWriteBuf other =
          w.hasWriteBuf other := by
        rw [← (others other same).2]
        unfold World.hasWriteBuf
        rw [World.epollUpdate_writeBuf]
      have callbacks : middle.callbacksAt other = w.callbacksAt other := by
        unfold World.callbacksAt
        rw [(others other same).1]
      rw [World.epollUpdate_callbacksAt, queued, callbacks]
      exact asks

theorem recorded (heeded : Heeded w) (fds : after.fds = w.fds)
    (epoll : after.kernel.epoll = w.kernel.epoll)
    (writeBuf : after.writeBuf = w.writeBuf) : Heeded after :=
  heeded.of_same fds epoll fun fd queued => by
    unfold World.hasWriteBuf at queued ⊢
    rw [← writeBuf]
    exact queued

theorem remove (heeded : Heeded w) (fd : Fd) :
    Heeded (w.unregister fd).2 := by
  refine heeded.of_fewer ?_ (World.epollUpdate_writeBuf ..)
  intro other interest present
  simp only [World.unregister, World.epollUpdate_del_epoll] at present
  by_cases same : other = fd
  · rw [same, Function.update_self] at present
    cases present
  · rw [Function.update_of_ne same] at present
    refine ⟨present, ?_⟩
    simp [World.unregister, ExtTreeMap.getElem?_erase, Ne.symm same]

theorem sysClose (heeded : Heeded w) (fd : Fd) (rest : List Fd) :
    Heeded ({ w with closeFds := rest }.sysClose fd) := by
  refine heeded.of_fewer ?_ rfl
  intro other interest present
  refine ⟨?_, rfl⟩
  by_cases same : other = fd
  · simp [World.sysClose, World.log, Kernel.closeFd, same] at present
  · simpa [World.sysClose, World.log, Kernel.closeFd,
      Function.update_of_ne same] using present

/-- The mask of a connect that is over asks for more than is needed. -/
theorem eraseConnect (heeded : Heeded w) : Heeded w.eraseConnect := by
  have callbacks : w.eraseConnect.callbacksAt =
      Function.update w.callbacksAt w.currentFd
        ((w.callbacksAt w.currentFd).erase .connect) :=
    w.callbacksAt_of_insert w.currentFd rfl
  refine ⟨?_, ?_⟩
  · intro fd present
    by_cases same : w.currentFd = fd
    · simp [World.eraseConnect, same]
    · simpa [World.eraseConnect, ExtTreeMap.contains_insert, same] using
        heeded.registered fd present
  · intro fd interest present
    have asks := heeded.asks fd interest present
    rw [callbacks]
    by_cases same : fd = w.currentFd
    · subst same
      rw [Function.update_self]
      refine asks.mono ?_ ?_ id
      · intro event other
        exact Function.update_of_ne other ..
      · simp [EventCB.erase]
    · rw [Function.update_of_ne same]
      exact asks

/-- Bytes are queued behind others, or `EPOLLOUT` is asked for. -/
theorem submit (heeded : Heeded w) (fd : Fd) (data : Bytes) :
    Heeded (w.submit fd data).2 := by
  refine World.submit_cases w data ?_ ?_ ?_ ?_
  · intro _ connection answers
    exact heeded.recorded rfl rfl rfl
  · intro queued found
    refine heeded.of_same rfl rfl ?_
    intro other contained
    unfold World.hasWriteBuf at contained ⊢
    by_cases same : fd = other
    · rw [← same, ← ExtTreeMap.isSome_getElem?_eq_contains, found]
      rfl
    · simpa [ExtTreeMap.contains_insert, same] using contained
  · intro missing notOpen
    exact heeded
  · intro conn missing opened
    have rule : World.LoopRule fd conn
        (fun _ (w : World β σ) => Heeded w ∧ w.writeBuf[fd]? = none)
        Heeded := by
      refine ⟨?_, ?_, ?_, ?_⟩
      · rintro rest extra w - ⟨heeded, missing⟩
        exact ⟨heeded.recorded rfl rfl rfl, missing⟩
      · rintro rest extra answers w - ⟨heeded, missing⟩
        exact heeded.recorded rfl rfl rfl
      · rintro rest answers w ⟨heeded, missing⟩
        rw [World.appendWriteBuf_of_none _ _ (by exact missing)]
        refine heeded.store _ (rewatchOp_ne_del _) ?_ ?_ rfl
        · intro adds
          simpa [World.setAnswers, World.log] using adds
        · intro other different
          refine ⟨rfl, ?_⟩
          simp [World.hasWriteBuf, World.setAnswers, World.log,
            ExtTreeMap.contains_insert, Ne.symm different]
      · rintro rest errno answers w ⟨heeded, missing⟩
        exact heeded.recorded rfl rfl rfl
    exact rule.writeLoop _ _ _ _ ⟨heeded, missing⟩

theorem step (heeded : Heeded w)
    (ordinary : Always (fun event _ => Event.Ordinary event) after.history)
    (step : Step Rules.plain w after) : Heeded after := by
  cases step with
  | outside change =>
      cases change with
      | accept fd =>
          unfold World.acceptFd
          split
          · exact heeded.recorded rfl rfl rfl
          · exact heeded
      | user change => exact heeded.recorded rfl rfl rfl
  | watchEvent fd event callback et legit =>
      refine heeded.store et (rewatchOp_ne_del _) ?_ ?_ rfl
      · intro adds
        simpa using adds
      · intro other different
        refine ⟨?_, rfl⟩
        simp [World.log, ExtTreeMap.getElem?_insert, Ne.symm different]
  | watch fd callbacks reWatch et legit =>
      refine heeded.store et (rewatchOp_ne_del _) ?_ ?_ rfl
      · have first : reWatch = false := by
          unfold World.watch at ordinary
          rw [World.epollUpdate_history _ _ _ (rewatchOp_ne_del _)] at ordinary
          exact ordinary.2.1
        intro adds
        simpa [first] using adds
      · intro other different
        refine ⟨?_, rfl⟩
        simp [World.log, ExtTreeMap.getElem?_insert, Ne.symm different]
  | autoRewatch fd et =>
      refine heeded.store et (rewatchOp_ne_del _) ?_ (fun _ _ => ⟨rfl, rfl⟩) rfl
      intro adds
      simpa using adds
  | unregister fd contained => exact heeded.remove fd
  | discard fd force =>
      refine heeded.of_same rfl rfl ?_
      intro other queued
      simp only [World.hasWriteBuf, World.discard, World.log,
        ExtTreeMap.contains_erase, Bool.and_eq_true] at queued
      exact queued.2
  | detach fd callbacks handler byClose present inEpoll origin =>
      have logged : Heeded (w.log (.ending fd handler (callbacks .close) byClose)) :=
        heeded.recorded rfl rfl rfl
      exact logged.remove fd
  | forcedRelease | release | closeCall | finish | gameOverCall | dispatch
  | answers | batch | skip | load | leave | handled =>
      exact heeded.recorded rfl rfl rfl
  | eraseConnect loop contained => exact heeded.eraseConnect
  | connected loop contained found =>
      exact heeded.eraseConnect.recorded rfl rfl rfl
  | refused loop first contained found user =>
      exact (heeded.eraseConnect.remove w.currentFd).recorded rfl rfl rfl
  | request fd data =>
      refine submit ?_ fd data
      unfold World.logRequest
      split
      · exact heeded
      · exact heeded.recorded rfl rfl rfl
  | flush fd queued found =>
      refine submit ?_ fd queued
      refine heeded.of_same rfl rfl ?_
      intro other queued
      simp only [World.hasWriteBuf, World.takeWriteBuf,
        ExtTreeMap.contains_erase, Bool.and_eq_true] at queued
      exact queued.2
  | handshake fd =>
      obtain ⟨connections, answers, same⟩ := w.handshake_eq fd
      rw [same]
      exact heeded.recorded rfl rfl rfl
  | sysClose fd rest loop next => exact heeded.sysClose fd rest

end Heeded

/-- However callbacks are stored, replaced and removed, also by each other, a
descriptor that the kernel reports on has an entry in `_fds`, and the kernel
was asked for what the callbacks in it now need, and for `EPOLLOUT` while
bytes are queued. -/
theorem interests_follow_callbacks (run : Run β σ)
    (ordinary : ∀ event ∈ run.history, event.Ordinary) (fd : Fd)
    (interest : Interest) (listed : run.last.kernel.epoll fd = some interest) :
    run.last.fds.contains fd = true ∧
      Asks (run.last.callbacksAt fd) (run.last.hasWriteBuf fd) interest := by
  have ordinary : Always (fun event _ => Event.Ordinary event) run.history :=
    History.always_iff_forall_mem.mpr ordinary
  have heeded := run.conditional ordinary Heeded Heeded.init
    (fun _ ordinary holds step => holds.step ordinary step)
  exact ⟨heeded.registered fd (by rw [listed]; rfl),
    heeded.asks fd interest listed⟩

/-- A server that stores a `WRITE` callback from the callback for its data. -/
def watchOnRead : Run EventType Unit :=
  { body := fun event fd _ _ =>
      match event with
      | .read => .sequence [.watchEvent fd .write .write true]
      | _ => .done
    wantMessage := fun _ => false
    depth := 2
    program := .sequence
      [.accept 5, .watchEvent 5 .read .read true,
        .handleEvents (.events [(5, { epollIn := true })])]
    user := ()
    answers := {} }

theorem interests_follow_a_nested_callback :
    watchOnRead.last.fds.contains 5 = true ∧
      Asks (watchOnRead.last.callbacksAt 5) (watchOnRead.last.hasWriteBuf 5)
        { epollIn := true, epollOut := true, epollEt := true } :=
  interests_follow_callbacks watchOnRead (by decide +kernel) 5 _
    (by decide +kernel)

end Universe
