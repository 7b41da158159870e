import Universe.Client.Execution

/-!
# Every descriptor is released once

A descriptor that leaves the event manager goes through `_close_fds`.  The
descriptors on the list and those about to be appended to it are all open and
all different, as long as no forced close adds one of them again.
-/

namespace Universe

open Std (ExtTreeMap)
open History (Always)

variable {β κ σ : Type}

/-- How often `fd` was appended to `_close_fds` since it was last closed. -/
def appended (fd : Fd) : List (Event β) → Nat
  | [] => 0
  | .released other _ _ _ :: past =>
      appended fd past + if other = fd then 1 else 0
  | .sysClose other _ _ :: past => if other = fd then 0 else appended fd past
  | _ :: past => appended fd past

/-- How often `::close` was called for one opening of a descriptor. -/
def closes (conn : Conn) : List (Event β) → Nat
  | [] => 0
  | .sysClose _ closed _ :: past =>
      closes conn past + if closed = some conn then 1 else 0
  | _ :: past => closes conn past

/-- A descriptor is appended to `_close_fds` only when it is not there, and
`::close` is called for an opening that was not closed before, once for every
time the descriptor was appended. -/
def ReleasedOnce : Event β → List (Event β) → Prop
  | .released fd _ _ _, past => appended fd past = 0
  | .sysClose fd (some conn) _, past => closes conn past = 0 ∧ appended fd past = 1
  | .sysClose _ none _, _ => False
  | _, _ => True

instance : ∀ (event : Event β) (past : List (Event β)),
    Decidable (ReleasedOnce event past)
  | .released fd _ _ _, past => inferInstanceAs (Decidable (appended fd past = 0))
  | .sysClose fd (some conn) _, past =>
      inferInstanceAs (Decidable (closes conn past = 0 ∧ appended fd past = 1))
  | .sysClose _ none _, _ => .isFalse id
  | .opened .., _ | .requested .., _ | .sysWrite .., _ | .stored .., _
  | .watched .., _ | .closing .., _ | .ending .., _ | .ended, _
  | .invoked .., _ | .batch .., _ | .entered .., _ | .refused, _ | .left, _
  | .handled .., _ | .placed .., _ => .isTrue trivial

/-- Nothing brings a descriptor back that is on its way out: no entry of `_fds`
is stored for it, and a forced close finds an open descriptor that is not on
its way out already.  While a hang-up ends a registration, `handle_events` is
not called. -/
def Orderly : Event β → List (Event β) → Prop
  | .stored _ _ releasing, _ => releasing = false
  | .closing _ conn _ true false releasing, _ => conn ≠ none ∧ releasing = false
  | .batch .., past => ∀ frame ∈ frames past,
      frame.progress = .begun → frame.byClose = true
  | _, _ => True

instance : ∀ (event : Event β) (past : List (Event β)),
    Decidable (Orderly event past)
  | .stored _ _ releasing, _ => inferInstanceAs (Decidable (releasing = false))
  | .closing _ conn _ true false releasing, _ =>
      inferInstanceAs (Decidable (conn ≠ none ∧ releasing = false))
  | .closing _ _ _ true true _, _ | .closing _ _ _ false true _, _
  | .closing _ _ _ false false _, _ => .isTrue trivial
  | .batch .., past => inferInstanceAs (Decidable (∀ frame ∈ frames past,
      frame.progress = .begun → frame.byClose = true))
  | .opened .., _ | .requested .., _ | .sysWrite .., _ | .watched .., _
  | .ending .., _ | .released .., _ | .ended, _ | .invoked .., _
  | .sysClose .., _ | .entered .., _ | .refused, _ | .left, _
  | .handled .., _ | .placed .., _ => .isTrue trivial

/-- An event that neither ends a registration nor releases a descriptor. -/
def Event.calm : Event β → Bool
  | .ending .. => false
  | .released .. => false
  | .ended => false
  | .invoked _ .close _ _ _ _ => false
  | .sysClose .. => false
  | _ => true

section Calm

variable {event : Event β} (calm : event.calm) (past : List (Event β))
include calm

theorem frames_calm : frames (event :: past) = frames past := by
  cases event with
  | invoked fd kind => cases kind <;> first | rfl | cases calm
  | released => cases calm
  | ending => cases calm
  | ended => cases calm
  | _ => rfl

theorem appended_calm (fd : Fd) :
    appended fd (event :: past) = appended fd past := by
  cases event <;> first | rfl | cases calm

theorem closes_calm (conn : Conn) :
    closes conn (event :: past) = closes conn past := by
  cases event with
  | sysClose => cases calm
  | _ => rfl

theorem releasedOnce_calm : ReleasedOnce event past := by
  cases event with
  | released => cases calm
  | sysClose => cases calm
  | _ => trivial

end Calm

namespace Grows

variable {w after : World β σ} (grows : Grows Event.calm w after)
include grows

theorem frames_same : frames after.history = frames w.history :=
  grows.same fun _ past calm => frames_calm calm past

theorem once (before : Always ReleasedOnce w.history) :
    Always ReleasedOnce after.history := by
  obtain ⟨events, history, allCalm⟩ := grows
  rw [history]
  clear history
  induction events with
  | nil => exact before
  | cons event events induction =>
      exact ⟨releasedOnce_calm (allCalm event List.mem_cons_self) _,
        induction fun earlier member =>
          allCalm earlier (List.mem_cons_of_mem event member)⟩

end Grows

/-- Every new entry of `_fds` is one that `_epoll_update` has stored. -/
def Stores (w after : World β σ) : Prop :=
  ∀ fd, after.fds.contains fd → w.fds.contains fd ∨
    ∃ conn, .stored fd conn (w.releasing fd) ∈ after.history

namespace Stores

variable {w middle after : World β σ} {fd : Fd} {op : EpollOp}

theorem of_eq (fds : after.fds = w.fds) : Stores w after := by
  intro fd contained
  rw [fds] at contained
  exact .inl contained

theorem epollUpdate (keep : op ≠ .del) (et : Bool)
    (others : ∀ other, middle.fds.contains other →
      w.fds.contains other ∨ other = fd)
    (releasing : middle.releasing = w.releasing) :
    Stores w (middle.epollUpdate fd op et).2 := by
  intro other contained
  rw [World.epollUpdate_contains keep] at contained
  have recorded : .stored fd (middle.kernel.conns fd) (w.releasing fd) ∈
      (middle.epollUpdate fd op et).2.history := by
    rw [World.epollUpdate_history _ _ _ keep, releasing]
    exact List.mem_cons_self
  by_cases same : fd = other
  · rw [← same]
    exact .inr ⟨_, recorded⟩
  · rw [decide_eq_false same, Bool.false_or] at contained
    exact .inl ((others other contained).resolve_right (Ne.symm same))

theorem submit (w : World β σ) (fd : Fd) (data : Bytes) :
    Stores w (w.submit fd data).2 := by
  refine World.submit_cases w data ?_ ?_ ?_ ?_
  · intro _ connection answers
    exact of_eq rfl
  · intro queued found
    exact of_eq rfl
  · intro missing notOpen
    exact of_eq rfl
  · intro conn missing opened
    have rule : World.LoopRule fd conn
        (fun _ middle => middle.fds = w.fds ∧ middle.releasing = w.releasing ∧
          middle.writeBuf[fd]? = none)
        (Stores w) := by
      refine ⟨?_, ?_, ?_, ?_⟩
      · rintro rest extra middle - ⟨fds, releasing, missing⟩
        exact ⟨fds, releasing, missing⟩
      · rintro rest extra answers middle - ⟨fds, releasing, missing⟩
        exact of_eq fds
      · rintro rest answers middle ⟨fds, releasing, missing⟩
        rw [World.appendWriteBuf_of_none _ _ (by exact missing)]
        refine epollUpdate (rewatchOp_ne_del _) _ ?_ releasing
        intro other contained
        exact .inl (fds ▸ contained)
      · rintro rest errno answers middle ⟨fds, releasing, missing⟩
        exact of_eq fds
    exact rule.writeLoop _ _ _ _ ⟨rfl, rfl, missing⟩

end Stores

/-- No descriptor is closed, and what is new on a number is a new connection. -/
structure Arrives (w after : World β σ) : Prop where
  numbered : w.kernel.Numbered → after.kernel.Numbered
  opened : ∀ fd, w.kernel.conns fd ≠ none → after.kernel.conns fd ≠ none
  next : w.kernel.nextConn ≤ after.kernel.nextConn
  news : ∀ {fd conn}, after.kernel.conns fd = some conn →
    w.kernel.conns fd = some conn ∨ w.kernel.nextConn ≤ conn

namespace Arrives

variable {w after : World β σ}

theorem of_same (same : World.SameConns w after) : Arrives w after := by
  refine ⟨?_, ?_, Nat.le_of_eq same.nextConn.symm, ?_⟩
  · intro numbered
    constructor
    · intro fd conn
      rw [same.conns, same.nextConn]
      exact numbered.known
    · intro fd other conn
      rw [same.conns]
      exact numbered.distinct
  · intro fd opened
    rwa [same.conns]
  · intro fd conn opened
    rw [same.conns] at opened
    exact .inl opened

theorem acceptFd (w : World β σ) (fd : Fd) : Arrives w (w.acceptFd fd) := by
  unfold World.acceptFd
  split
  · refine ⟨fun numbered => numbered.openFd fd, ?_, Nat.le_succ _, ?_⟩
    · intro other opened
      by_cases same : other = fd
      · simp [World.log, Kernel.openFd, same]
      · simpa [World.log, Kernel.openFd, same] using opened
    · intro other conn opened
      rcases (Kernel.openFd_conns _ _).mp opened with ⟨-, rfl⟩ | ⟨-, before⟩
      · exact .inr (Nat.le_refl _)
      · exact .inl before
  · exact of_same ⟨rfl, rfl⟩

theorem closeSocket (w : World β σ) (new : Fd) :
    Arrives w (w.closeSocket new) := by
  unfold World.closeSocket
  split
  · next free =>
      refine ⟨fun numbered => (numbered.openFd new).closeFd new, ?_, Nat.le_succ _, ?_⟩
      · intro other opened
        have different : other ≠ new := by
          rintro rfl
          exact opened free.2
        simpa [Kernel.closeFd, Kernel.openFd, different] using opened
      · intro other conn opened
        obtain ⟨different, opened⟩ := (Kernel.closeFd_conns _ _).mp opened
        rcases (Kernel.openFd_conns _ _).mp opened with ⟨same, -⟩ | ⟨-, before⟩
        · exact absurd same different
        · exact .inl before
  · exact of_same ⟨rfl, rfl⟩

theorem dup2 (w : World β σ) (new fd : Fd) : Arrives w (w.dup2 new fd) := by
  unfold World.dup2
  split
  · next guard =>
      refine ⟨fun numbered => (numbered.openFd new).moveFd, ?_, Nat.le_succ _, ?_⟩
      · intro other opened
        have different : other ≠ new := by
          rintro rfl
          exact opened guard.1.2
        by_cases same : other = fd
        · subst same
          simp [World.log, Kernel.moveFd, Kernel.openFd, different]
        · simpa [World.log, Kernel.moveFd, Kernel.openFd, different, same]
            using opened
      · intro other conn opened
        obtain ⟨different, ⟨-, opened⟩ | ⟨-, opened⟩⟩ :=
          Kernel.moveFd_conns.mp opened
        · simp only [Kernel.openFd, Function.update_self,
            Option.some.injEq] at opened
          exact .inr (Nat.le_of_eq opened)
        · simp only [Kernel.openFd, Function.update_of_ne different] at opened
          exact .inl opened
  · exact of_same ⟨rfl, rfl⟩

end Arrives

namespace Client.Outside

variable {w after : World (ClientCB κ) σ}

theorem calm (change : Client.Outside w after) : Grows Event.calm w after := by
  cases change with
  | accept fd =>
      unfold World.acceptFd
      split
      · exact ⟨[_], rfl, by simp [Event.calm]⟩
      · exact ⟨[], rfl, by simp⟩
  | user change => exact ⟨[], rfl, by simp⟩
  | ssl fd connection => exact ⟨[], rfl, by simp⟩
  | closeSocket new =>
      unfold World.closeSocket
      split <;> exact ⟨[], rfl, by simp⟩
  | placed fd => exact ⟨[_], rfl, by simp [Event.calm]⟩
  | dup2 new fd reopenable =>
      unfold World.dup2
      split
      · exact ⟨[_], rfl, by simp [Event.calm]⟩
      · exact ⟨[], rfl, by simp⟩

theorem closeFds (change : Client.Outside w after) :
    after.closeFds = w.closeFds := by
  cases change with
  | accept fd =>
      unfold World.acceptFd
      split <;> rfl
  | user change => rfl
  | ssl fd connection => rfl
  | closeSocket new =>
      unfold World.closeSocket
      split <;> rfl
  | placed fd => rfl
  | dup2 new fd reopenable =>
      unfold World.dup2
      split <;> rfl

theorem arrives (change : Client.Outside w after) : Arrives w after := by
  cases change with
  | accept fd => exact .acceptFd w fd
  | user change => exact .of_same ⟨rfl, rfl⟩
  | ssl fd connection => exact .of_same ⟨rfl, rfl⟩
  | closeSocket new => exact .closeSocket w new
  | placed fd => exact .of_same ⟨rfl, rfl⟩
  | dup2 new fd reopenable => exact .dup2 w new fd

end Client.Outside

/-- Everything on the list of descriptors to close, or about to be appended to
it, is there once and is open. -/
structure Releasing (w : World β σ) : Prop where
  numbered : w.kernel.Numbered
  distinct : (w.closeFds ++ begun (frames w.history)).Nodup
  opened : ∀ fd ∈ w.closeFds ++ begun (frames w.history),
    w.kernel.conns fd ≠ none
  staying : ∀ fd, w.fds.contains fd → w.releasing fd = false
  hangUps : ∀ frame ∈ frames w.history, frame.progress = .begun →
    frame.byClose = false → frame.fd = w.currentFd
  counted : ∀ fd, appended fd w.history = w.closeFds.count fd
  gone : ∀ conn, closes conn w.history ≠ 0 →
    conn < w.kernel.nextConn ∧ ∀ fd, w.kernel.conns fd ≠ some conn
  once : Always ReleasedOnce w.history

namespace Releasing

variable {w after : World β σ}

theorem init (user : σ) (answers : Answers) :
    Releasing (World.init user answers : World β σ) := by
  refine ⟨⟨?_, ?_⟩, ?_, ?_, ?_, ?_, ?_, ?_, trivial⟩ <;>
    simp [World.init, Kernel.boot, frames, begun, appended, closes]

/-- A step that ends nothing, releases nothing and closes nothing. -/
theorem keep (releasing : Releasing w) (grows : Grows Event.calm w after)
    (closeFds : after.closeFds = w.closeFds)
    (arrives : Arrives w after) (stores : Stores w after)
    (current : after.currentFd = w.currentFd ∨
      ∀ frame ∈ frames w.history, frame.progress = .begun →
        frame.byClose = true)
    (orderly : Always Orderly after.history) : Releasing after := by
  have sameFrames := grows.frames_same
  have sameAppended : ∀ fd, appended fd after.history = appended fd w.history :=
    fun fd => grows.same fun _ past calm => appended_calm calm past fd
  have sameCloses : ∀ conn, closes conn after.history = closes conn w.history :=
    fun conn => grows.same fun _ past calm => closes_calm calm past conn
  refine ⟨arrives.numbered releasing.numbered, ?_, ?_, ?_, ?_, ?_, ?_,
    grows.once releasing.once⟩
  · rw [closeFds, sameFrames]
    exact releasing.distinct
  · rw [closeFds, sameFrames]
    exact fun fd member => arrives.opened fd (releasing.opened fd member)
  · intro fd contained
    rw [World.releasing_congr closeFds sameFrames]
    rcases stores fd contained with before | ⟨conn, recorded⟩
    · exact releasing.staying fd before
    · exact (orderly.of_mem recorded).elim fun _ holds => holds
  · intro frame member begins hangsUp
    rw [sameFrames] at member
    rcases current with same | none
    · rw [same]
      exact releasing.hangUps frame member begins hangsUp
    · rw [none frame member begins] at hangsUp
      cases hangsUp
  · intro fd
    rw [sameAppended, closeFds]
    exact releasing.counted fd
  · intro conn
    rw [sameCloses]
    intro closed
    obtain ⟨old, absent⟩ := releasing.gone conn closed
    refine ⟨Nat.lt_of_lt_of_le old arrives.next, fun fd opened => ?_⟩
    rcases arrives.news opened with before | new
    · exact absent fd before
    · exact absurd old (Nat.not_lt.mpr new)

/-- The same with the history and the connections left alone. -/
theorem still (releasing : Releasing w) (history : after.history = w.history)
    (closeFds : after.closeFds = w.closeFds)
    (conns : World.SameConns w after) (fds : after.fds = w.fds)
    (currentFd : after.currentFd = w.currentFd)
    (orderly : Always Orderly w.history) : Releasing after :=
  releasing.keep ⟨[], by simp [history], by simp⟩ closeFds (.of_same conns)
    (.of_eq fds) (.inl currentFd) (history ▸ orderly)

/-- One calm event is recorded. -/
theorem log (releasing : Releasing w) {event : Event β}
    (history : after.history = event :: w.history) (calm : event.calm)
    (closeFds : after.closeFds = w.closeFds)
    (conns : World.SameConns w after) (fds : after.fds = w.fds)
    (currentFd : after.currentFd = w.currentFd ∨
      ∀ frame ∈ frames w.history, frame.progress = .begun →
        frame.byClose = true)
    (orderly : Always Orderly after.history) : Releasing after :=
  releasing.keep ⟨[event], history, by simpa using calm⟩ closeFds
    (.of_same conns) (.of_eq fds) currentFd orderly

/-- The end of a registration begins. -/
theorem detach (releasing : Releasing w) {fd : Fd}
    {callbacks : EventCB (Handler β)} {handler : Option (Handler β)}
    {byClose : Bool} (sound : w.kernel.Sound)
    (registered : w.fds[fd]? = some callbacks)
    (inEpoll : (w.kernel.epoll fd).isSome)
    (current : byClose = false → fd = w.currentFd) :
    Releasing (w.detach fd callbacks handler byClose) := by
  have contained : w.fds.contains fd = true := by
    simp [← ExtTreeMap.isSome_getElem?_eq_contains, registered]
  have leaving := releasing.staying fd contained
  have framesNow : frames (w.detach fd callbacks handler byClose).history =
      ⟨fd, handler, byClose, .begun⟩ :: frames w.history := rfl
  have begunNow : begun (frames (w.detach fd callbacks handler
      byClose).history) = fd :: begun (frames w.history) := by
    simp [framesNow, begun]
  rw [World.releasing_eq_false] at leaving
  refine ⟨?_, ?_, ?_, ?_, ?_, releasing.counted, ?_, ?_⟩
  · constructor
    · intro other conn
      simpa [World.detach, World.unregister, World.log] using
        releasing.numbered.known
    · intro first second conn
      simpa [World.detach, World.unregister, World.log] using
        releasing.numbered.distinct
  · rw [begunNow]
    refine List.perm_middle.nodup_iff.mpr
      (List.nodup_cons.mpr ⟨?_, releasing.distinct⟩)
    simpa [World.detach, World.unregister, World.log] using leaving
  · rw [begunNow]
    intro other member
    have conns : (w.detach fd callbacks handler byClose).kernel.conns other =
        w.kernel.conns other := by
      simp [World.detach, World.unregister, World.log]
    rw [conns]
    rcases List.mem_cons.mp (List.perm_middle.mem_iff.mp member) with rfl | member
    · exact Option.isSome_iff_ne_none.mp (sound.registeredOpen other inEpoll)
    · exact releasing.opened other member
  · intro other stays
    have split : other ≠ fd ∧ w.fds.contains other := by
      simp only [World.detach, World.unregister, World.epollUpdate_del_fds,
        World.log, ExtTreeMap.contains_erase] at stays
      by_cases same : fd = other
      · simp [same] at stays
      · exact ⟨Ne.symm same, by simpa [same] using stays⟩
    have before := releasing.staying other split.2
    rw [World.releasing_eq_false] at before ⊢
    rw [begunNow]
    exact ⟨before.1, by simpa [split.1] using before.2⟩
  · rw [framesNow]
    intro frame member begins hangsUp
    rcases List.mem_cons.mp member with rfl | member
    · exact current hangsUp
    · exact releasing.hangUps frame member begins hangsUp
  · intro conn closed
    have before := releasing.gone conn closed
    simpa [World.detach, World.unregister, World.log] using before
  · exact ⟨trivial, releasing.once⟩

/-- A descriptor that was about to be appended is appended, or one that is
neither on the list nor about to be. -/
theorem append (releasing : Releasing w) {fd : Fd} {own : Bool}
    (distinct : ((w.closeFds ++ [fd]) ++
      begun (frames (w.addCloseFd fd own).history)).Nodup)
    (opened : w.kernel.conns fd ≠ none)
    (begunBefore : ∀ other,
      other ∈ begun (frames (w.addCloseFd fd own).history) →
      other ∈ begun (frames w.history))
    (stays : ∀ other, w.fds.contains other → other ≠ fd)
    (framesBefore : ∀ frame ∈ frames (w.addCloseFd fd own).history,
      frame.progress = .begun → frame ∈ frames w.history) :
    Releasing (w.addCloseFd fd own) := by
  have missing : fd ∉ w.closeFds := by
    intro member
    have apart := (List.nodup_append.mp distinct).1
    exact (List.nodup_append.mp apart).2.2 fd member fd
      (List.mem_singleton_self fd) rfl
  refine ⟨releasing.numbered, distinct, ?_, ?_, ?_, ?_, releasing.gone, ?_⟩
  · intro other member
    rcases List.mem_append.mp member with listed | begins
    · rcases List.mem_append.mp listed with listed | new
      · exact releasing.opened other (List.mem_append_left _ listed)
      · rw [List.mem_singleton.mp new]
        exact opened
    · exact releasing.opened other
        (List.mem_append_right _ (begunBefore other begins))
  · intro other contained
    have before := releasing.staying other contained
    rw [World.releasing_eq_false] at before ⊢
    refine ⟨?_, fun begins => before.2 (begunBefore other begins)⟩
    simpa [World.addCloseFd, World.log, stays other contained] using before.1
  · intro frame member begins
    exact releasing.hangUps frame (framesBefore frame member begins) begins
  · intro other
    have before := releasing.counted other
    simp only [World.addCloseFd, World.log, appended, before,
      List.count_append, List.count_singleton]
    by_cases same : fd = other <;> simp [same]
  · refine ⟨?_, releasing.once⟩
    change appended fd w.history = 0
    rw [releasing.counted fd]
    exact List.count_eq_zero_of_not_mem missing

/-- The end of a registration goes on. -/
theorem reframe (releasing : Releasing w)
    (closeFds : after.closeFds = w.closeFds)
    (begunNow : begun (frames after.history) = begun (frames w.history))
    (once : Always ReleasedOnce after.history)
    (fds : after.fds = w.fds)
    (sameAppended : ∀ fd, appended fd after.history = appended fd w.history)
    (sameCloses : ∀ conn, closes conn after.history = closes conn w.history)
    (conns : after.kernel.conns = w.kernel.conns)
    (nextConn : after.kernel.nextConn = w.kernel.nextConn)
    (currentFd : after.currentFd = w.currentFd)
    (framesBefore : ∀ frame ∈ frames after.history,
      frame.progress = .begun → frame ∈ frames w.history) :
    Releasing after := by
  have arrives : Arrives w after := .of_same ⟨conns, nextConn⟩
  refine ⟨arrives.numbered releasing.numbered, ?_, ?_, ?_, ?_, ?_, ?_, once⟩
  · rw [closeFds, begunNow]
    exact releasing.distinct
  · rw [closeFds, begunNow, conns]
    exact releasing.opened
  · intro fd contained
    rw [fds] at contained
    have staying := releasing.staying fd contained
    rw [World.releasing_eq_false] at staying ⊢
    rw [closeFds, begunNow]
    exact staying
  · intro frame member begins
    rw [currentFd]
    exact releasing.hangUps frame (framesBefore frame member begins) begins
  · intro fd
    rw [sameAppended, closeFds]
    exact releasing.counted fd
  · intro conn
    rw [sameCloses, conns, nextConn]
    exact releasing.gone conn

/-- The first descriptor of the list is closed. -/
theorem sysClose (releasing : Releasing w) {fd : Fd} {rest : List Fd}
    (next : w.closeFds = fd :: rest) :
    Releasing ({ w with closeFds := rest }.sysClose fd) := by
  have distinct := releasing.distinct
  rw [next, List.cons_append, List.nodup_cons] at distinct
  have others : ∀ other ∈ rest ++ begun (frames w.history), other ≠ fd := by
    rintro other member rfl
    exact distinct.1 member
  obtain ⟨conn, opened⟩ := Option.ne_none_iff_exists'.mp
    (releasing.opened fd (by simp [next]))
  refine ⟨releasing.numbered.closeFd fd, distinct.2, ?_, ?_, releasing.hangUps,
    ?_, ?_, ?_⟩
  · intro other member
    have before := releasing.opened other
      (by rw [next]; exact List.mem_cons_of_mem fd member)
    simpa [World.sysClose, World.log, Kernel.closeFd, others other member]
      using before
  · intro other contained
    have before := releasing.staying other contained
    rw [World.releasing_eq_false, next] at before
    rw [World.releasing_eq_false]
    exact ⟨fun member => before.1 (List.mem_cons_of_mem fd member), before.2⟩
  · intro other
    have before := releasing.counted other
    rw [next, List.count_cons] at before
    simp only [World.sysClose, World.log, appended]
    by_cases same : fd = other
    · subst same
      have missing : fd ∉ rest := fun member =>
        distinct.1 (List.mem_append_left _ member)
      simp [List.count_eq_zero_of_not_mem missing]
    · simpa [same] using before
  · intro other closed
    have split : other = conn ∨ closes other w.history ≠ 0 := by
      simp only [World.sysClose, World.log, closes, opened,
        Option.some.injEq] at closed
      by_cases same : conn = other
      · exact .inl same.symm
      · exact .inr (by simpa [same] using closed)
    rcases split with rfl | before
    · refine ⟨releasing.numbered.known opened, fun number still => ?_⟩
      obtain ⟨different, still⟩ := (Kernel.closeFd_conns _ _).mp still
      exact different (releasing.numbered.distinct still opened)
    · obtain ⟨old, absent⟩ := releasing.gone other before
      refine ⟨old, fun number still => ?_⟩
      exact absent number ((Kernel.closeFd_conns _ _).mp still).2
  · refine ⟨?_, releasing.once⟩
    change ReleasedOnce (.sysClose fd (w.kernel.conns fd) _) w.history
    rw [opened]
    refine ⟨?_, ?_⟩
    · by_contra closed
      exact (releasing.gone conn closed).2 fd opened
    · have missing : fd ∉ rest := fun member =>
        distinct.1 (List.mem_append_left _ member)
      rw [releasing.counted, next, List.count_cons_self,
        List.count_eq_zero_of_not_mem missing]

/-- A forced close of a descriptor that is not registered appends it. -/
theorem forcedRelease (releasing : Releasing w) {fd : Fd}
    (unregistered : w.fds.contains fd = false)
    (recorded : ∃ queued past, w.history = .closing fd (w.kernel.conns fd)
      queued true false (w.releasing fd) :: past)
    (orderly : Always Orderly w.history) :
    Releasing (w.addCloseFd fd false) := by
  obtain ⟨queued, past, history⟩ := recorded
  rw [history] at orderly
  obtain ⟨opened, staying⟩ := orderly.1
  rw [World.releasing_eq_false] at staying
  refine releasing.append ?_ opened (fun _ => id) ?_ (fun _ member _ => member)
  · have distinct : (fd :: (w.closeFds ++ begun (frames w.history))).Nodup :=
      List.nodup_cons.mpr ⟨by simpa using staying, releasing.distinct⟩
    rw [List.append_assoc]
    exact List.perm_middle.nodup_iff.mpr distinct
  · rintro other contained rfl
    rw [unregistered] at contained
    cases contained

/-- The registration that ends appends its own descriptor. -/
theorem release (releasing : Releasing w) {frame : Frame β}
    {rest : List (Frame β)} (top : frames w.history = frame :: rest)
    (progress : frame.progress = .begun) :
    Releasing (w.addCloseFd frame.fd true) := by
  have begunNow := begun_released top progress frame.fd
    (w.kernel.conns frame.fd) (decide (frame.fd ∈ w.closeFds))
  have framesNow : frames (w.addCloseFd frame.fd true).history =
      { frame with progress := .released } :: rest := by
    simp [World.addCloseFd, World.log, frames, top, advance]
  have member : frame.fd ∈ begun (frames w.history) := by
    rw [begunNow]
    exact List.mem_cons_self
  refine releasing.append ?_ ?_ ?_ ?_ ?_
  · have distinct := releasing.distinct
    rw [begunNow] at distinct
    rw [List.append_assoc]
    exact distinct
  · exact releasing.opened _ (List.mem_append_right _ member)
  · intro other begins
    rw [begunNow]
    exact List.mem_cons_of_mem _ begins
  · rintro other contained rfl
    have staying := releasing.staying frame.fd contained
    rw [World.releasing_eq_false] at staying
    exact staying.2 member
  · rw [framesNow]
    intro other isFrame begins
    rcases List.mem_cons.mp isFrame with rfl | isFrame
    · cases begins
    · rw [top]
      exact List.mem_cons_of_mem _ isFrame

/-- While the loop of `handle_events` is between two events, no hang-up is
ending a registration. -/
theorem between_events {history : List (Event β)}
    (orderly : Always Orderly history) (earlier : w.history <:+ history)
    (inside : Inside w) :
    ∀ frame ∈ frames w.history, frame.progress = .begun →
      frame.byClose = true := by
  obtain ⟨conns, epoll, reported, past, recorded, same⟩ := inside
  rw [← same]
  exact (orderly.of_suffix (recorded.trans earlier)).1

theorem unregister (releasing : Releasing w) (fd : Fd)
    (orderly : Always Orderly w.history) : Releasing (w.unregister fd).2 := by
  refine releasing.keep ⟨[], rfl, by simp⟩ rfl (.of_same ⟨?_, ?_⟩) ?_
    (.inl rfl) orderly
  · simp [World.unregister]
  · simp [World.unregister]
  · intro other contained
    simp only [World.unregister, World.epollUpdate_del_fds,
      ExtTreeMap.contains_erase] at contained
    exact .inl (by simpa using (Bool.and_eq_true _ _ ▸ contained).2)

theorem eraseConnect (releasing : Releasing w)
    (registered : w.fds.contains w.currentFd)
    (orderly : Always Orderly w.history) : Releasing w.eraseConnect := by
  refine releasing.keep ⟨[], rfl, by simp⟩ rfl (.of_same ⟨rfl, rfl⟩) ?_
    (.inl rfl) orderly
  intro fd contained
  by_cases same : w.currentFd = fd
  · exact .inl (same ▸ registered)
  · exact .inl (by
      simpa [World.eraseConnect, ExtTreeMap.contains_insert, same]
        using contained)

theorem submit (releasing : Releasing w) (fd : Fd) (data : Bytes)
    (orderly : Always Orderly (w.submit fd data).2.history) :
    Releasing (w.submit fd data).2 := by
  have kept := World.submit_submitted w fd data
  obtain ⟨events, history, writing⟩ := submit_grows w fd data
  refine releasing.keep ⟨events, history, ?_⟩ kept.closeFds
    (.of_same kept.toSameConns) (.submit w fd data) (.inl kept.currentFd) orderly
  intro event member
  have isWriting := writing event member
  cases event <;> first | rfl | cases isWriting

/-- `watch` stores an entry for one descriptor. -/
theorem store (releasing : Releasing w) {middle : World β σ} {fd : Fd}
    {op : EpollOp} (keep : op ≠ .del) (et : Bool)
    (history : ∃ events, middle.history = events ++ w.history ∧
      ∀ event ∈ events, event.calm)
    (closeFds : middle.closeFds = w.closeFds)
    (kernel : middle.kernel = w.kernel)
    (others : ∀ other, middle.fds.contains other →
      w.fds.contains other ∨ other = fd)
    (currentFd : middle.currentFd = w.currentFd)
    (orderly : Always Orderly (middle.epollUpdate fd op et).2.history) :
    Releasing (middle.epollUpdate fd op et).2 := by
  have grows : Grows Event.calm w middle := history
  have same : middle.releasing = w.releasing :=
    World.releasing_congr closeFds grows.frames_same
  refine releasing.keep ?_ (by simpa using closeFds) (.of_same ⟨?_, ?_⟩)
    (.epollUpdate keep et others same) (.inl (by simpa using currentFd)) orderly
  · exact grows.cons rfl (World.epollUpdate_history _ _ _ keep)
  · simp [kernel]
  · simp [kernel]

theorem step {nested : Prop} {w after : World (ClientCB κ) σ}
    (releasing : Releasing w) (base : Base (Client.rules nested) w)
    (orderly : Always Orderly after.history)
    (step : Step (Client.rules nested) w after) : Releasing after := by
  have before : Always Orderly w.history := orderly.of_suffix step.suffix
  have earlier := step.suffix
  cases step with
  | outside change =>
      exact releasing.keep change.calm change.closeFds change.arrives
        (.of_eq change.untouched.fds) (.inl change.untouched.currentFd) orderly
  | watchEvent fd event callback et legit =>
      refine releasing.store (rewatchOp_ne_del _) et
        ⟨[_], rfl, by simp [Event.calm]⟩ rfl rfl ?_ rfl orderly
      intro other contained
      exact (w.contains_insert_or fd _ other).imp_left (·.symm.trans contained)
  | watch fd callbacks reWatch et legit =>
      refine releasing.store (rewatchOp_ne_del _) et
        ⟨[_], rfl, by simp [Event.calm]⟩ rfl rfl ?_ rfl orderly
      intro other contained
      exact (w.contains_insert_or fd _ other).imp_left (·.symm.trans contained)
  | autoRewatch fd et =>
      exact releasing.store (rewatchOp_ne_del _) et ⟨[], rfl, by simp⟩ rfl rfl
        (fun _ => .inl) rfl orderly
  | unregister fd registered => exact releasing.unregister fd before
  | discard fd force =>
      exact releasing.log rfl rfl rfl ⟨rfl, rfl⟩ rfl (.inl rfl) orderly
  | detach fd callbacks handler byClose registered inEpoll origin =>
      refine releasing.detach base.sound registered inEpoll ?_
      rintro rfl
      rcases origin with ⟨impossible, -⟩ | ⟨-, -, here, -⟩
      · cases impossible
      · exact here
  | forcedRelease fd unregistered recorded =>
      exact releasing.forcedRelease unregistered recorded before
  | @release frame rest fd top progress same =>
      have own : fd = frame.fd := by
        rcases same with same | ⟨-, hangsUp, here, -⟩
        · exact same
        · have atCurrent := releasing.hangUps frame
            (by rw [top]; exact List.mem_cons_self) progress hangsUp
          rw [here, atCurrent]
      subst own
      exact releasing.release top progress
  | @closeCall frame rest handler fd cause top progress owed same caused =>
      have begunNow := begun_invoked top (by simp [progress]) fd handler.ticket
        cause handler.conn (w.kernel.conns fd)
      exact releasing.reframe rfl begunNow ⟨trivial, releasing.once⟩ rfl
        (fun _ => rfl) (fun _ => rfl) rfl rfl rfl (by
          simp only [World.logCall, World.log, frames, top, advance]
          intro other isFrame begins
          rcases List.mem_cons.mp isFrame with rfl | isFrame
          · cases begins
          · exact List.mem_cons_of_mem _ isFrame)
  | @finish frame rest top done =>
      have begunNow := begun_ended top (by
        rcases done with called | ⟨-, released⟩ <;> simp [*])
      exact releasing.reframe rfl begunNow ⟨trivial, releasing.once⟩ rfl
        (fun _ => rfl) (fun _ => rfl) rfl rfl rfl (by
          simp only [World.log, frames, top, List.tail_cons]
          intro other isFrame begins
          exact List.mem_cons_of_mem _ isFrame)
  | gameOverCall handler fd =>
      exact releasing.log rfl rfl rfl ⟨rfl, rfl⟩ rfl (.inl rfl) orderly
  | dispatch event loop notConnect notClose found =>
      refine releasing.log rfl ?_ rfl ⟨rfl, rfl⟩ rfl (.inl rfl) orderly
      cases event <;> first | rfl | exact absurd rfl notClose
  | eraseConnect loop registered => exact releasing.eraseConnect registered before
  | connected loop registered found =>
      exact (releasing.eraseConnect registered before).log rfl rfl rfl ⟨rfl, rfl⟩
        rfl (.inl rfl) orderly
  | refused loop first registered found user =>
      have erased := releasing.eraseConnect registered before
      have removed := erased.unregister w.currentFd before
      refine removed.keep ⟨[_, _], rfl, by simp [Event.calm]⟩ rfl
        (.of_same ⟨rfl, rfl⟩) (.of_eq rfl) (.inl rfl) orderly
  | request fd data =>
      refine submit ?_ fd data orderly
      have requested := orderly.of_suffix
        (submit_grows (w.logRequest fd data) fd data).suffix
      unfold World.logRequest at requested ⊢
      split
      · exact releasing
      · next plain =>
          rw [if_neg plain] at requested
          exact releasing.log rfl rfl rfl ⟨rfl, rfl⟩ rfl (.inl rfl) requested
  | flush fd queued found =>
      refine submit ?_ fd queued orderly
      exact releasing.still rfl rfl ⟨rfl, rfl⟩ rfl rfl before
  | answers answers => exact releasing.still rfl rfl ⟨rfl, rfl⟩ rfl rfl before
  | handshake fd =>
      obtain ⟨connections, answers, same⟩ := w.handshake_eq fd
      rw [same]
      exact releasing.still rfl rfl ⟨rfl, rfl⟩ rfl rfl before
  | batch reported loop =>
      exact releasing.log rfl rfl rfl ⟨rfl, rfl⟩ rfl (.inl rfl) orderly
  | skip fd loop inside unregistered =>
      exact releasing.log rfl rfl rfl ⟨rfl, rfl⟩ rfl
        (.inr (between_events orderly earlier inside)) orderly
  | load fd callbacks loop inside registered =>
      exact releasing.log rfl rfl rfl ⟨rfl, rfl⟩ rfl
        (.inr (between_events orderly earlier inside)) orderly
  | leave loop inside =>
      exact releasing.log rfl rfl rfl ⟨rfl, rfl⟩ rfl
        (.inr (between_events orderly earlier inside)) orderly
  | sysClose fd rest loop next => exact releasing.sysClose next
  | handled loop =>
      exact releasing.log rfl rfl rfl ⟨rfl, rfl⟩ rfl (.inl rfl) orderly

end Releasing

/-- In every orderly run of a client, whatever its callbacks do, a descriptor
is appended to `_close_fds` once and closed once for each opening. -/
theorem descriptor_released_once (run : ClientRun κ σ)
    (orderly : Always Orderly run.history) : Always ReleasedOnce run.history := by
  have releasing := run.conditional True (.inl trivial) orderly Releasing
    Releasing.init (fun base orderly holds step => holds.step base orderly step)
  exact releasing.once

/-- A connect to a host with one address, under way on descriptor 5 when the
given operations follow. -/
def connecting (following : List (ClientOp Unit Unit)) : ClientRun Unit Unit :=
  { body := fun _ _ _ _ => .done
    wantMessage := fun _ => false
    unwatched := fun _ user => user
    depth := 3
    program := .sequence
      (.connectHost [[]] (EventCB.empty.set .connect ()) none :: following)
    user := ()
    answers := { numbers := [5, 6], connects := [.inProgress] } }

theorem refused_released_once :
    Always Orderly (connecting [.manager (.handleEvents
        (.events [(5, { epollErr := true })]))]).history ∧
      Always ReleasedOnce (connecting [.manager (.handleEvents
        (.events [(5, { epollErr := true })]))]).history :=
  ⟨by decide +kernel, descriptor_released_once _ (by decide +kernel)⟩

/-- A close while the connect is under way: `unwatch` tells the lambda, which
closes its placeholder by force, and then `close` appends it as well. -/
theorem closeWhileConnecting_releases_twice :
    ¬ Always ReleasedOnce (connecting [.manager (.close 5 false),
      .manager (.handleEvents (.events []))]).history := by
  decide +kernel

end Universe
