import Universe.EventManager.Execution

/-!
# The registrations

`_fds` and the interest list of the kernel are kept in step, as long as no
entry is stored for a descriptor that is not open or is on its way out.
-/

namespace Universe

open Std (ExtTreeMap)
open History (Always)

variable {β σ : Type}

namespace World

variable {w : World β σ} {fd : Fd} {op : EpollOp}

theorem epollUpdate_epoll_of_ne (et : Bool) {other : Fd}
    (different : other ≠ fd) :
    (w.epollUpdate fd op et).2.kernel.epoll other = w.kernel.epoll other := by
  cases op <;> exact Kernel.epollCtl_epoll_of_ne _ _ _ _ different

/-- An open descriptor is in the interest list after it was added, and after
it was modified if it was there. -/
theorem epollUpdate_isSome (et : Bool) (keep : op ≠ .del)
    (opened : (w.kernel.conns fd).isSome)
    (modified : op = .mod → (w.kernel.epoll fd).isSome) :
    ((w.epollUpdate fd op et).2.kernel.epoll fd).isSome := by
  rw [epollUpdate_epoll _ _ _ keep]
  cases op with
  | del => exact absurd rfl keep
  | mod =>
      simp only [Kernel.epollCtl, modified rfl, if_true]
      simp
  | add =>
      simp only [Kernel.epollCtl, opened, Bool.true_and]
      split
      · simp
      · next present =>
          simpa [Option.isSome_iff_ne_none] using present

/-- The mask that is stored asks for `EPOLLOUT` when bytes are queued; only an
entry that was there already keeps its own. -/
theorem epollUpdate_epollOut (et : Bool) (keep : op ≠ .del)
    {interest : Interest} (queued : w.hasWriteBuf fd)
    (stored : (w.epollUpdate fd op et).2.kernel.epoll fd = some interest) :
    interest.epollOut = true ∨
      op = .add ∧ w.kernel.epoll fd = some interest := by
  rw [epollUpdate_epoll _ _ _ keep] at stored
  cases op with
  | del => exact absurd rfl keep
  | mod =>
      left
      simp only [Kernel.epollCtl] at stored
      split at stored
      · simp only [Function.update_self, Option.some.injEq] at stored
        rw [← stored]
        simp [World.interest, queued]
      · next absent =>
          have present : w.kernel.epoll fd = some interest := stored
          simp [present] at absent
  | add =>
      simp only [Kernel.epollCtl] at stored
      split at stored
      · left
        simp only [Function.update_self, Option.some.injEq] at stored
        rw [← stored]
        simp [World.interest, queued]
      · exact .inr ⟨rfl, stored⟩

end World

/-- No entry of `_fds` is made or kept for a descriptor that is not open or is
on its way out. -/
def Event.Tidy : Event β → Prop
  | .stored _ conn releasing => conn ≠ none ∧ releasing = false
  | _ => True

instance : DecidablePred (Event.Tidy (β := β)) := fun event =>
  match event with
  | .stored .. => inferInstanceAs (Decidable (_ ∧ _))
  | .opened .. | .requested .. | .sysWrite .. | .watched .. | .closing ..
  | .ending .. | .released .. | .ended | .invoked .. | .sysClose ..
  | .batch .. | .entered .. | .refused | .left | .handled .. | .placed .. =>
      .isTrue trivial

/-- When `handle_events` returns, `fd` is in `_fds` just if it is in the
interest list, and then it is open and not on its way out. -/
def MatchedAt (fd : Fd) : Event β → Prop
  | .handled watched epoll releasing conns =>
      watched fd = epoll fd ∧
        (watched fd = true → conns fd ≠ none ∧ releasing fd = false)
  | _ => True

instance (fd : Fd) : DecidablePred (MatchedAt (β := β) fd) := fun event =>
  match event with
  | .handled .. => inferInstanceAs (Decidable (_ ∧ (_ → _)))
  | .opened .. | .requested .. | .sysWrite .. | .stored .. | .watched ..
  | .closing .. | .ending .. | .released .. | .ended | .invoked ..
  | .sysClose .. | .batch .. | .entered .. | .refused | .left | .placed .. =>
      .isTrue trivial

def Matched (event : Event β) : Prop := ∀ fd, MatchedAt fd event

structure Registered (w : World β σ) : Prop where
  keys : ∀ fd, w.fds.contains fd = (w.kernel.epoll fd).isSome
  staying : ∀ fd, w.fds.contains fd → w.releasing fd = false
  matched : Always (fun event _ => Matched event) w.history

namespace Registered

variable {w middle after : World β σ} {fd : Fd} {op : EpollOp}

theorem init (user : σ) (answers : Answers) :
    Registered (World.init user answers : World β σ) := by
  constructor <;> simp [World.init, Kernel.boot, Always]

/-- The same entries, and no descriptor is newly on its way out. -/
theorem of_same (registered : Registered w)
    (keys : ∀ fd, after.fds.contains fd = w.fds.contains fd)
    (epoll : after.kernel.epoll = w.kernel.epoll)
    (releasing : ∀ fd, w.releasing fd = false → after.releasing fd = false)
    (matched : Always (fun event _ => Matched event) after.history) :
    Registered after := by
  refine ⟨?_, ?_, matched⟩
  · intro fd
    rw [keys, epoll]
    exact registered.keys fd
  · intro fd contained
    rw [keys] at contained
    exact releasing fd (registered.staying fd contained)

/-- An entry is stored. -/
theorem store (registered : Registered w)
    (keep : op ≠ .del) (modified : op = .mod → w.fds.contains fd) (et : Bool)
    (others : ∀ other, middle.fds.contains other = w.fds.contains other ∨
      other = fd)
    (kernel : middle.kernel = w.kernel)
    (releasing : middle.releasing = w.releasing)
    (matched : Always (fun event _ => Matched event) middle.history)
    (tidy : (Event.stored fd (middle.kernel.conns fd) (middle.releasing fd) :
      Event β).Tidy) :
    Registered (middle.epollUpdate fd op et).2 := by
  have staying : (middle.epollUpdate fd op et).2.releasing = w.releasing := by
    rw [← releasing]
    refine World.releasing_congr (by simp) ?_
    rw [World.epollUpdate_history _ _ _ keep]
    rfl
  refine ⟨?_, ?_, ?_⟩
  · intro other
    rw [World.epollUpdate_contains keep]
    by_cases same : fd = other
    · subst same
      rw [decide_eq_true rfl, Bool.true_or]
      refine (World.epollUpdate_isSome et keep ?_ ?_).symm
      · exact Option.isSome_iff_ne_none.mpr tidy.1
      · intro modifies
        rw [kernel, ← registered.keys]
        exact modified modifies
    · rw [decide_eq_false same, Bool.false_or,
        World.epollUpdate_epoll_of_ne et (Ne.symm same), kernel,
        ← registered.keys]
      exact (others other).resolve_right (Ne.symm same)
  · intro other contained
    rw [staying]
    rw [World.epollUpdate_contains keep] at contained
    by_cases same : fd = other
    · rw [← same, ← releasing]
      exact tidy.2
    · rw [decide_eq_false same, Bool.false_or,
        (others other).resolve_right (Ne.symm same)] at contained
      exact registered.staying other contained
  · rw [World.epollUpdate_history _ _ _ keep]
    exact ⟨fun _ => trivial, matched⟩

/-- An entry is removed, and its descriptor may be on its way out. -/
theorem remove (registered : Registered w) (fd : Fd)
    (fds : middle.fds = w.fds) (kernel : middle.kernel = w.kernel)
    (releasing : ∀ other, other ≠ fd → w.releasing other = false →
      middle.releasing other = false)
    (matched : Always (fun event _ => Matched event) middle.history) :
    Registered (middle.unregister fd).2 := by
  have contains : ∀ other, (middle.unregister fd).2.fds.contains other =
      (!decide (fd = other) && w.fds.contains other) := by
    intro other
    simp only [World.unregister, World.epollUpdate_del_fds, fds,
      ExtTreeMap.contains_erase]
    by_cases same : fd = other <;> simp [same]
  refine ⟨?_, ?_, matched⟩
  · intro other
    rw [contains]
    simp only [World.unregister, World.epollUpdate_del_epoll, kernel]
    by_cases same : other = fd
    · simp [same]
    · simp [Function.update_of_ne same, Ne.symm same, registered.keys]
  · intro other contained
    rw [contains] at contained
    simp only [Bool.and_eq_true, Bool.not_eq_true', decide_eq_false_iff_not]
      at contained
    have kept : (middle.unregister fd).2.releasing = middle.releasing :=
      World.releasing_congr rfl rfl
    rw [kept]
    exact releasing other (Ne.symm contained.1)
      (registered.staying other contained.2)

/-- Something is recorded that is neither an end nor a return. -/
theorem log (registered : Registered w)
    (keys : ∀ fd, after.fds.contains fd = w.fds.contains fd)
    (epoll : after.kernel.epoll = w.kernel.epoll)
    (closeFds : after.closeFds = w.closeFds)
    (framesKept : frames after.history = frames w.history)
    (matched : Always (fun event _ => Matched event) after.history) :
    Registered after :=
  registered.of_same keys epoll
    (fun fd staying => by
      rw [World.releasing_congr closeFds framesKept]; exact staying) matched

/-- One event more that names no callback. -/
theorem recorded (registered : Registered w) {event : Event β}
    (fds : after.fds = w.fds) (epoll : after.kernel.epoll = w.kernel.epoll)
    (closeFds : after.closeFds = w.closeFds)
    (history : after.history = event :: w.history)
    (framesKept : frames (event :: w.history) = frames w.history)
    (matched : Matched event) : Registered after := by
  refine registered.log ?_ epoll closeFds ?_ ?_
  · intro fd
    rw [fds]
  · rw [history]
    exact framesKept
  · rw [history]
    exact ⟨matched, registered.matched⟩

theorem submit (registered : Registered w) (fd : Fd) (data : Bytes)
    (tidy : Always (fun event _ => Event.Tidy event)
      (w.submit fd data).2.history) :
    Registered (w.submit fd data).2 := by
  revert tidy
  refine World.submit_cases w data (motive := fun after =>
    Always (fun event _ => Event.Tidy event) after.history →
      Registered after) ?_ ?_ ?_ ?_
  · intro _ connection answers _
    exact registered.log (fun _ => rfl) rfl rfl rfl registered.matched
  · intro queued found _
    exact registered.log (fun _ => rfl) rfl rfl rfl registered.matched
  · intro missing notOpen _
    exact registered
  · intro conn missing opened
    have rule : World.LoopRule fd conn
        (fun _ (w : World β σ) => Registered w ∧ w.writeBuf[fd]? = none)
        (fun w => Always (fun event _ => Event.Tidy event) w.history →
          Registered w) := by
      refine ⟨?_, ?_, ?_, ?_⟩
      · rintro rest extra w - ⟨registered, missing⟩
        exact ⟨registered.recorded rfl rfl rfl rfl rfl fun _ => trivial, missing⟩
      · rintro rest extra answers w - ⟨registered, missing⟩ -
        exact registered.recorded rfl rfl rfl rfl rfl fun _ => trivial
      · rintro rest answers w ⟨registered, missing⟩
        rw [World.appendWriteBuf_of_none _ _ (by exact missing)]
        intro tidy
        have tried : Registered
            ((w.log (.sysWrite conn rest .again)).setAnswers answers) :=
          registered.recorded rfl rfl rfl rfl rfl fun _ => trivial
        refine tried.store (rewatchOp_ne_del _) ?_ _ (fun _ => .inl rfl) rfl rfl
          tried.matched ?_
        · intro modifies
          simpa using modifies
        · unfold World.autoRewatch at tidy
          rw [World.epollUpdate_history _ _ _ (rewatchOp_ne_del _)] at tidy
          exact tidy.1
      · rintro rest errno answers w ⟨registered, missing⟩ -
        exact registered.recorded rfl rfl rfl rfl rfl fun _ => trivial
    exact rule.writeLoop _ _ _ _ ⟨registered, missing⟩

theorem eraseConnect (registered : Registered w)
    (contained : w.fds.contains w.currentFd) : Registered w.eraseConnect := by
  refine registered.log ?_ rfl rfl rfl registered.matched
  intro fd
  by_cases same : w.currentFd = fd
  · rw [← same, contained]
    simp [World.eraseConnect]
  · simp [World.eraseConnect, ExtTreeMap.contains_insert, same]

/-- A forced close leaves what is registered alone. -/
theorem forcedRelease (registered : Registered w) {fd : Fd}
    (unregistered : w.fds.contains fd = false) :
    Registered (w.addCloseFd fd false) := by
  refine ⟨registered.keys, ?_, fun _ => trivial, registered.matched⟩
  intro other contained
  have staying := registered.staying other contained
  have different : other ≠ fd := by
    rintro rfl
    exact absurd contained (by simp [World.addCloseFd, World.log, unregistered])
  rw [World.releasing_eq_false] at staying ⊢
  simpa [World.addCloseFd, World.log, frames, different] using staying

/-- What the end of a registration appends is no longer registered. -/
theorem release (registered : Registered w) {frame : Frame β}
    {rest : List (Frame β)} {fd : Fd} (top : frames w.history = frame :: rest)
    (progress : frame.progress = .begun)
    (same : w.fds.contains fd → fd = frame.fd) :
    Registered (w.addCloseFd fd true) := by
  refine ⟨registered.keys, ?_, fun _ => trivial, registered.matched⟩
  intro other contained
  have staying := registered.staying other contained
  rw [World.releasing_eq_false, begun_released top progress fd
    (w.kernel.conns fd) (decide (fd ∈ w.closeFds))] at staying
  rw [World.releasing_eq_false]
  have different : other ≠ fd := by
    rintro rfl
    refine staying.2 ?_
    rw [same contained]
    exact List.mem_cons_self
  refine ⟨by simpa [World.addCloseFd, World.log, different] using staying.1, ?_⟩
  exact fun member => staying.2 (List.mem_cons_of_mem _ member)

theorem sysClose (registered : Registered w) {fd : Fd} {rest : List Fd}
    (next : w.closeFds = fd :: rest) :
    Registered ({ w with closeFds := rest }.sysClose fd) := by
  have leaving : w.fds.contains fd = false := by
    by_contra contained
    have staying := registered.staying fd (by simpa using contained)
    rw [World.releasing_eq_false, next] at staying
    exact staying.1 List.mem_cons_self
  refine ⟨?_, ?_, fun _ => trivial, registered.matched⟩
  · intro other
    by_cases same : other = fd
    · simp [World.sysClose, World.log, Kernel.closeFd, same, leaving]
    · simpa [World.sysClose, World.log, Kernel.closeFd,
        Function.update_of_ne same] using registered.keys other
  · intro other contained
    have staying := registered.staying other contained
    rw [World.releasing_eq_false, next] at staying
    rw [World.releasing_eq_false]
    exact ⟨fun member => staying.1 (List.mem_cons_of_mem _ member), staying.2⟩

theorem step (registered : Registered w) (base : Base Rules.plain w)
    (tidy : Always (fun event _ => Event.Tidy event) after.history)
    (step : Step Rules.plain w after) : Registered after := by
  cases step with
  | outside change =>
      cases change with
      | accept fd =>
          unfold World.acceptFd
          split
          · exact registered.recorded rfl rfl rfl rfl rfl fun _ => trivial
          · exact registered
      | user change =>
          exact registered.log (fun _ => rfl) rfl rfl rfl registered.matched
  | watchEvent fd event callback et legit =>
      refine registered.store (rewatchOp_ne_del _) ?_ et ?_ rfl rfl
        ⟨fun _ => trivial, registered.matched⟩ ?_
      · intro modifies
        simpa using modifies
      · intro other
        by_cases same : fd = other
        · exact .inr same.symm
        · exact .inl (by simp [World.log, ExtTreeMap.contains_insert, same])
      · unfold World.watchEvent at tidy
        rw [World.epollUpdate_history _ _ _ (rewatchOp_ne_del _)] at tidy
        exact tidy.1
  | watch fd callbacks reWatch et legit =>
      refine registered.store (rewatchOp_ne_del _) ?_ et ?_ rfl rfl
        ⟨fun _ => trivial, registered.matched⟩ ?_
      · intro modifies
        simp only [Bool.and_eq_true, ite_eq_left_iff, reduceCtorEq, imp_false,
          Decidable.not_not] at modifies
        exact modifies.1
      · intro other
        by_cases same : fd = other
        · exact .inr same.symm
        · exact .inl (by simp [World.log, ExtTreeMap.contains_insert, same])
      · unfold World.watch at tidy
        rw [World.epollUpdate_history _ _ _ (rewatchOp_ne_del _)] at tidy
        exact tidy.1
  | autoRewatch fd et =>
      refine registered.store (rewatchOp_ne_del _) ?_ et (fun _ => .inl rfl) rfl
        rfl registered.matched ?_
      · intro modifies
        simpa using modifies
      · unfold World.autoRewatch at tidy
        rw [World.epollUpdate_history _ _ _ (rewatchOp_ne_del _)] at tidy
        exact tidy.1
  | unregister fd contained =>
      exact registered.remove fd rfl rfl (fun _ _ => id) registered.matched
  | discard fd force =>
      exact registered.recorded rfl rfl rfl rfl rfl fun _ => trivial
  | detach fd callbacks handler byClose present inEpoll origin =>
      refine registered.remove fd rfl rfl ?_ ⟨fun _ => trivial, registered.matched⟩
      intro other different staying
      rw [World.releasing_eq_false] at staying ⊢
      simpa [World.log, frames, begun, different] using staying
  | forcedRelease fd unregistered recorded =>
      exact registered.forcedRelease unregistered
  | release fd top progress same =>
      refine registered.release top progress ?_
      intro contained
      rcases same with same | ⟨-, -, -, negative⟩
      · exact same
      · have opened := base.sound.openNonneg fd
          (base.sound.registeredOpen fd
            ((registered.keys fd).symm.trans contained))
        rw [negative] at opened
        exact absurd opened (by decide)
  | closeCall fd cause top progress owed same caused =>
      refine registered.of_same (fun _ => rfl) rfl ?_
        ⟨fun _ => trivial, registered.matched⟩
      intro other staying
      rw [World.releasing_eq_false] at staying ⊢
      refine ⟨staying.1, ?_⟩
      rw [World.logCall, World.log, begun_invoked top (by simp [progress])]
      exact staying.2
  | finish top done =>
      refine registered.of_same (fun _ => rfl) rfl ?_
        ⟨fun _ => trivial, registered.matched⟩
      intro other staying
      rw [World.releasing_eq_false] at staying ⊢
      refine ⟨staying.1, ?_⟩
      rw [World.log, begun_ended top (by rcases done with called | ⟨-, released⟩ <;>
        simp [*])]
      exact staying.2
  | gameOverCall handler fd =>
      exact registered.recorded rfl rfl rfl rfl rfl fun _ => trivial
  | dispatch event loop notConnect notClose found =>
      refine registered.log (fun _ => rfl) rfl rfl ?_
        ⟨fun _ => trivial, registered.matched⟩
      cases event <;> first | rfl | exact absurd rfl notClose
  | eraseConnect loop contained => exact registered.eraseConnect contained
  | connected loop contained found =>
      have erased := registered.eraseConnect contained
      exact erased.recorded rfl rfl rfl rfl rfl fun _ => trivial
  | refused loop first contained found user =>
      have erased := registered.eraseConnect contained
      have removed := erased.remove w.currentFd rfl rfl (fun _ _ => id)
        erased.matched
      exact removed.log (fun _ => rfl) rfl rfl rfl
        ⟨fun _ => trivial, fun _ => trivial, removed.matched⟩
  | request fd data =>
      refine submit ?_ fd data tidy
      unfold World.logRequest
      split
      · exact registered
      · exact registered.recorded rfl rfl rfl rfl rfl fun _ => trivial
  | flush fd queued found =>
      refine submit ?_ fd queued tidy
      exact registered.log (fun _ => rfl) rfl rfl rfl registered.matched
  | answers answers =>
      exact registered.log (fun _ => rfl) rfl rfl rfl registered.matched
  | handshake fd =>
      obtain ⟨connections, answers, same⟩ := w.handshake_eq fd
      rw [same]
      exact registered.log (fun _ => rfl) rfl rfl rfl registered.matched
  | batch reported loop =>
      exact registered.recorded rfl rfl rfl rfl rfl fun _ => trivial
  | skip fd loop inside unregistered =>
      exact registered.recorded rfl rfl rfl rfl rfl fun _ => trivial
  | load fd callbacks loop inside present =>
      exact registered.recorded rfl rfl rfl rfl rfl fun _ => trivial
  | leave loop inside =>
      exact registered.recorded rfl rfl rfl rfl rfl fun _ => trivial
  | sysClose fd rest loop next => exact registered.sysClose next
  | handled loop =>
      refine registered.log (fun _ => rfl) rfl rfl rfl
        ⟨?_, registered.matched⟩
      intro fd
      refine ⟨registered.keys fd, fun contained => ⟨?_, ?_⟩⟩
      · rw [← Option.isSome_iff_ne_none]
        exact base.sound.registeredOpen fd
          ((registered.keys fd).symm.trans contained)
      · exact registered.staying fd contained

end Registered

/-- In a run that stores no entry for a descriptor that is closed or being
closed, `_fds` and the interest list agree whenever `handle_events` returns. -/
theorem registrations_match (run : Run β σ)
    (tidy : ∀ event ∈ run.history, event.Tidy) :
    ∀ event ∈ run.history, Matched event := by
  have tidy : Always (fun event _ => Event.Tidy event) run.history :=
    History.always_iff_forall_mem.mpr tidy
  have registered := run.conditional tidy Registered Registered.init
    (fun base tidy holds step => holds.step base tidy step)
  exact History.always_iff_forall_mem.mp registered.matched

/-- A server that closes a connection from the callback for its data. -/
def closeOnRead (flags : Flags) : Run EventType Unit :=
  { body := fun event fd _ _ =>
      match event with
      | .read => .sequence [.close fd false]
      | _ => .done
    wantMessage := fun _ => false
    depth := 2
    program := .sequence
      [.accept 5, .watchEvent 5 .read .read true,
        .watchEvent 5 .close .close true,
        .handleEvents (.events [(5, flags)])]
    user := ()
    answers := {} }

theorem closeOnRead_matches :
    (∀ event ∈ (closeOnRead { epollIn := true }).history, event.Tidy) ∧
      ∀ event ∈ (closeOnRead { epollIn := true }).history, Matched event :=
  ⟨by decide +kernel, registrations_match _ (by decide +kernel)⟩

/-- With `EPOLLOUT` in the same event the closed descriptor is stored again
and stays in `_fds`. -/
theorem closeOnRead_leaves_entry :
    ¬ ∀ event ∈ (closeOnRead { epollIn := true, epollOut := true }).history,
      Matched event := by
  intro matched
  have atFive : ∀ event ∈
      (closeOnRead { epollIn := true, epollOut := true }).history,
      MatchedAt 5 event := fun event member => matched event member 5
  revert atFive
  decide +kernel

end Universe
