import Universe.EventManager.Execution
import Universe.Scheduler

/-!
# When timers go off

Callbacks may schedule and unschedule timers, their own as well, and use the
event manager beside the scheduler, as long as they do not handle events
themselves.  A timer that is scheduled once goes off once, and none goes off
after it was unscheduled.
-/

namespace Universe

open Stepwise
open Std (ExtTreeMap)
open History (Always)

/-- A timer may go off that was not unscheduled before, and only once if it was
scheduled so. -/
def Alarm.Due : Alarm → List Alarm → Prop
  | .rang serial once, past =>
      .stopped serial ∉ past ∧ (once = true → .rang serial true ∉ past)
  | .stopped _, _ => True

/-- The code does not handle events. -/
def SchedulerOp.Flat {κ σ : Type} : SchedulerOp κ σ → Prop
  | .plain op => op.Flat
  | _ => True

namespace Scheduler

variable {κ σ : Type}

/-- Only the `READ` callback may be that of a timer. -/
def Plain (callbacks : EventCB (Handler (Scheduled κ))) : Prop :=
  ∀ event handler, event ≠ .read → callbacks event = some handler →
    timerOf handler.callback = none

/-- The timer is watched on the descriptor. -/
def Armed (w : Clock κ σ) (fd : Fd) (timer : Nat × Bool) : Prop :=
  timerIn (w.callbacksAt fd) = some timer

/-- The callback of the timer is in `_current_cb`. -/
def Loaded (w : Clock κ σ) (timer : Nat × Bool) : Prop :=
  timerIn w.currentCb = some timer

/-- The timer may still go off.  One that is `busy` is going off now. -/
def Pending (busy : Option Nat) (timers : Timers σ) (timer : Nat × Bool) :
    Prop :=
  timer.1 < timers.serial ∧ .stopped timer.1 ∉ timers.alarms ∧
    (timer.2 = true → some timer.1 ≠ busy → .rang timer.1 true ∉ timers.alarms)

structure Good (busy : Option Nat) (w : Clock κ σ) : Prop where
  plain : ∀ fd, Plain (w.callbacksAt fd)
  current : Plain w.currentCb
  pending : ∀ {fd timer}, Armed w fd timer → Pending busy w.user timer
  apart : ∀ {fd other timer another}, Armed w fd timer →
    Armed w other another → timer.1 = another.1 → fd = other
  known : ∀ {serial}, (∃ once, .rang serial once ∈ w.user.alarms) ∨
    .stopped serial ∈ w.user.alarms → serial < w.user.serial
  due : Always Alarm.Due w.user.alarms

/-- The timer in `_current_cb` may still go off, and is watched nowhere else. -/
def Stage (busy : Option Nat) (w : Clock κ σ) : Prop :=
  ∀ {timer}, Loaded w timer → Pending busy w.user timer ∧
    ∀ {fd another}, Armed w fd another → another.1 = timer.1 →
      fd = w.currentFd

/-- No timer goes off, and the only timers that are added are new. -/
structure Calm (busy : Option Nat) (w after : Clock κ σ) : Prop where
  good : Good busy after
  stage : Stage busy w → Stage busy after
  currentFd : after.currentFd = w.currentFd
  serial : w.user.serial ≤ after.user.serial
  armed : ∀ {fd timer}, Armed after fd timer →
    Armed w fd timer ∨ w.user.serial ≤ timer.1
  loaded : ∀ {timer}, Loaded after timer →
    Loaded w timer ∨ w.user.serial ≤ timer.1

/-- The descriptor has no timer left that was there before. -/
structure Disarms (busy : Option Nat) (fd : Fd) (w after : Clock κ σ) : Prop
    extends Calm busy w after where
  disarmed : ∀ {timer}, Armed after fd timer → w.user.serial ≤ timer.1
  unloaded : ∀ {timer another}, Armed w fd timer → fd = w.currentFd →
    Loaded after another → w.user.serial ≤ another.1

theorem timerIn_eq_some {callbacks : EventCB (Handler (Scheduled κ))}
    {timer : Nat × Bool} : timerIn callbacks = some timer ↔
      ∃ handler, callbacks .read = some handler ∧
        timerOf handler.callback = some timer :=
  Option.bind_eq_some_iff

theorem timerAt_eq (w : Clock κ σ) (fd : Fd) :
    timerAt w fd = timerIn (w.callbacksAt fd) := by
  unfold timerAt World.callbacksAt
  cases w.fds[fd]? with
  | none => rfl
  | some callbacks => rfl

namespace Calm

variable {busy : Option Nat} {w middle after : Clock κ σ}

theorem trans (first : Calm busy w middle) (second : Calm busy middle after) :
    Calm busy w after where
  good := second.good
  stage staged := second.stage (first.stage staged)
  currentFd := second.currentFd.trans first.currentFd
  serial := Nat.le_trans first.serial second.serial
  armed := by
    intro fd timer isArmed
    rcases second.armed isArmed with before | new
    · exact first.armed before
    · exact .inr (Nat.le_trans first.serial new)
  loaded := by
    intro timer isLoaded
    rcases second.loaded isLoaded with before | new
    · exact first.loaded before
    · exact .inr (Nat.le_trans first.serial new)

/-- Callbacks go, or are those of the program. -/
theorem fewer (good : Good busy w)
    (callbacks : ∀ {fd event handler}, after.callbacksAt fd event = some handler →
      w.callbacksAt fd event = some handler ∨ timerOf handler.callback = none)
    (current : ∀ {event handler}, after.currentCb event = some handler →
      w.currentCb event = some handler ∨ timerOf handler.callback = none)
    (currentFd : after.currentFd = w.currentFd)
    (serial : w.user.serial ≤ after.user.serial)
    (alarms : after.user.alarms = w.user.alarms) : Calm busy w after := by
  have armed : ∀ {fd timer}, Armed after fd timer → Armed w fd timer := by
    intro fd timer isArmed
    obtain ⟨handler, found, isTimer⟩ := timerIn_eq_some.mp isArmed
    rcases callbacks found with before | none
    · exact timerIn_eq_some.mpr ⟨handler, before, isTimer⟩
    · rw [none] at isTimer
      cases isTimer
  have loaded : ∀ {timer}, Loaded after timer → Loaded w timer := by
    intro timer isLoaded
    obtain ⟨handler, found, isTimer⟩ := timerIn_eq_some.mp isLoaded
    rcases current found with before | none
    · exact timerIn_eq_some.mpr ⟨handler, before, isTimer⟩
    · rw [none] at isTimer
      cases isTimer
  have pending : ∀ {timer}, Pending busy w.user timer →
      Pending busy after.user timer := by
    rintro timer ⟨old, isPending⟩
    unfold Pending
    rw [alarms]
    exact ⟨Nat.lt_of_lt_of_le old serial, isPending⟩
  refine ⟨⟨?_, ?_, ?_, ?_, ?_, ?_⟩, ?_, currentFd, serial,
    fun isArmed => .inl (armed isArmed), fun isLoaded => .inl (loaded isLoaded)⟩
  · intro fd event handler other found
    exact (callbacks found).elim (good.plain fd _ _ other) id
  · intro event handler other found
    exact (current found).elim (good.current _ _ other) id
  · exact fun isArmed => pending (good.pending (armed isArmed))
  · exact fun first second => good.apart (armed first) (armed second)
  · intro timer recorded
    rw [alarms] at recorded
    exact Nat.lt_of_lt_of_le (good.known recorded) serial
  · rw [alarms]
    exact good.due
  · intro staged timer isLoaded
    obtain ⟨isPending, elsewhere⟩ := staged (loaded isLoaded)
    refine ⟨pending isPending, fun isArmed same => ?_⟩
    rw [currentFd]
    exact elsewhere (armed isArmed) same

theorem less (good : Good busy w)
    (callbacks : ∀ {fd event handler}, after.callbacksAt fd event = some handler →
      w.callbacksAt fd event = some handler ∨ timerOf handler.callback = none)
    (current : ∀ {event handler}, after.currentCb event = some handler →
      w.currentCb event = some handler ∨ timerOf handler.callback = none)
    (currentFd : after.currentFd = w.currentFd)
    (timers : after.user = w.user) : Calm busy w after :=
  fewer good callbacks current currentFd
    (Nat.le_of_eq (congrArg Timers.serial timers.symm))
    (congrArg Timers.alarms timers)

/-- Nothing that concerns timers has changed. -/
theorem same (good : Good busy w) (callbacks : after.callbacksAt = w.callbacksAt)
    (current : after.currentCb = w.currentCb)
    (currentFd : after.currentFd = w.currentFd)
    (timers : after.user = w.user) : Calm busy w after := by
  apply less good ?_ ?_ currentFd timers
  · intro fd event handler found
    rw [callbacks] at found
    exact .inl found
  · intro event handler found
    rw [current] at found
    exact .inl found

theorem refl (good : Good busy w) : Calm busy w w := same good rfl rfl rfl rfl

end Calm

section Callbacks

variable {busy : Option Nat} {w middle after : Clock κ σ} {fd : Fd}

theorem not_armed_of_none (missing : w.fds[fd]? = none) (timer : Nat × Bool) :
    ¬Armed w fd timer := by
  intro isArmed
  unfold Armed World.callbacksAt at isArmed
  rw [missing] at isArmed
  cases isArmed

theorem callbacksAt_of_some {callbacks : EventCB (Handler (Scheduled κ))}
    (found : w.fds[fd]? = some callbacks) : w.callbacksAt fd = callbacks := by
  unfold World.callbacksAt
  rw [found]
  rfl

theorem unregister_disarms (good : Good busy w) (fd : Fd) :
    Disarms busy fd w (w.unregister fd).2 := by
  have callbacks : (w.unregister fd).2.callbacksAt =
      Function.update w.callbacksAt fd EventCB.empty := by
    unfold World.unregister
    rw [World.epollUpdate_callbacksAt]
    exact w.callbacksAt_of_erase fd rfl
  have current : (w.unregister fd).2.currentCb =
      if fd = w.currentFd then EventCB.empty else w.currentCb := rfl
  refine ⟨.less good ?_ ?_ rfl rfl, ?_, ?_⟩
  · intro other event handler found
    rw [callbacks] at found
    by_cases same : other = fd
    · rw [same, Function.update_self] at found
      cases found
    · rw [Function.update_of_ne same] at found
      exact .inl found
  · intro event handler found
    rw [current] at found
    split at found
    · cases found
    · exact .inl found
  · intro timer isArmed
    unfold Armed at isArmed
    rw [callbacks, Function.update_self] at isArmed
    cases isArmed
  · intro timer another _ isCurrent isLoaded
    unfold Loaded at isLoaded
    rw [current, if_pos isCurrent] at isLoaded
    cases isLoaded

namespace Disarms

theorem trans_calm (first : Disarms busy fd w middle)
    (second : Calm busy middle after) : Disarms busy fd w after := by
  refine ⟨first.toCalm.trans second, ?_, ?_⟩
  · intro timer isArmed
    rcases second.armed isArmed with before | new
    · exact first.disarmed before
    · exact Nat.le_trans first.serial new
  · intro timer another wasArmed isCurrent isLoaded
    rcases second.loaded isLoaded with before | new
    · exact first.unloaded wasArmed isCurrent before
    · exact Nat.le_trans first.serial new

/-- Nothing that concerns timers has changed before. -/
theorem of_same (disarms : Disarms busy fd middle after) (good : Good busy w)
    (callbacks : middle.callbacksAt = w.callbacksAt)
    (current : middle.currentCb = w.currentCb)
    (currentFd : middle.currentFd = w.currentFd)
    (timers : middle.user = w.user) : Disarms busy fd w after := by
  have first := Calm.same good callbacks current currentFd timers
  refine ⟨first.trans disarms.toCalm, ?_, ?_⟩
  · intro timer isArmed
    rw [← timers]
    exact disarms.disarmed isArmed
  · intro timer another wasArmed isCurrent isLoaded
    rw [← timers]
    apply disarms.unloaded _ (isCurrent.trans currentFd.symm) isLoaded
    · exact timer
    · unfold Armed at wasArmed ⊢
      rw [callbacks]
      exact wasArmed

end Disarms

end Callbacks

/-- Callbacks of the program let no timer go off. -/
structure Steady (d : Dispatch (Scheduled κ) (Timers σ)) : Prop where
  stored : ∀ {busy w} (callback : κ) (fd : Fd) (arg : Arg), Good busy w →
    Returns (d.invoke (.stored callback) fd arg) w
      fun _ after => Calm busy w after
  unwatched : ∀ fd timers, d.unwatched fd timers = timers

section Operations

open EventManager

variable {busy : Option Nat} {w : Clock κ σ}
  {d : Dispatch (Scheduled κ) (Timers σ)}

theorem calm_bind {α β : Type} {first : EM (Scheduled κ) (Timers σ) α}
    {rest : α → EM (Scheduled κ) (Timers σ) β}
    (firstCalm : Returns first w fun _ after => Calm busy w after)
    (later : ∀ value between, Good busy between →
      Returns (rest value) between fun _ after => Calm busy between after) :
    Returns (first >>= rest) w fun _ after => Calm busy w after := by
  apply returns_bind firstCalm
  intro value between calm
  exact (later value between calm.good).weaken fun _ _ => calm.trans

theorem calm_pure {α : Type} (good : Good busy w) (value : α) :
    Returns (pure value : EM (Scheduled κ) (Timers σ) α) w
      fun _ after => Calm busy w after := returns_pure (.refl good)

theorem addCloseFd_calm (good : Good busy w) (fd : Fd) (own : Bool) :
    Calm busy w (w.addCloseFd fd own) := .same good rfl rfl rfl rfl

theorem finishEnd_calm (good : Good busy w) (ended : Bool) :
    Calm busy w (w.finishEnd ended) := by
  unfold World.finishEnd
  split
  · exact .same good rfl rfl rfl rfl
  · exact .refl good

theorem submit_calm (good : Good busy w) (fd : Fd) (data : Bytes) :
    Calm busy w (w.submit fd data).2 := by
  have submitted := World.submit_submitted w fd data
  exact .same good submitted.callbacksAt submitted.currentCb
    submitted.currentFd (World.submit_user w fd data)

variable (steady : Steady d)
include steady

theorem call_calm (good : Good busy w) {handler : Handler (Scheduled κ)}
    (plain : timerOf handler.callback = none) (fd : Fd) (event : EventType)
    (cause : Cause) (arg : Arg) :
    Returns (call d handler fd event cause arg) w
      fun _ after => Calm busy w after := by
  apply calm_bind (returns_modify (.same good rfl rfl rfl rfl))
  intro _ between good
  cases isStored : handler.callback with
  | stored callback => exact steady.stored callback fd arg good
  | timer serial once callback =>
      rw [isStored] at plain
      cases plain

theorem afterUnwatch_calm (good : Good busy w) (fd : Fd)
    {callbacks : EventCB (Handler (Scheduled κ))} (plain : Plain callbacks)
    (noCallback : Bool) :
    Returns (afterUnwatch d fd callbacks noCallback) w
      fun _ after => Calm busy w after := by
  have told : ∀ {w : Clock κ σ}, Good busy w → Returns
      (modify (World.mapUser · (d.unwatched fd)) :
        EM (Scheduled κ) (Timers σ) PUnit) w fun _ after => Calm busy w after := by
    intro w good
    apply returns_modify
    exact .same good rfl rfl rfl (steady.unwatched fd w.user)
  unfold afterUnwatch
  split
  · next handler found =>
      apply calm_bind
        (call_calm steady good (plain _ _ (by decide) found) fd _ _ _)
      exact fun _ _ => told
  · exact told good

theorem unwatch_disarms (good : Good busy w) (fd : Fd) (noCallback : Bool) :
    Returns (unwatch d fd noCallback) w
      fun _ after => Disarms busy fd w after := by
  apply returns_get_bind
  split
  · next missing =>
      refine returns_pure ⟨.refl good, ?_, ?_⟩
      · intro timer isArmed
        exact absurd isArmed (not_armed_of_none missing timer)
      · intro timer another isArmed
        exact absurd isArmed (not_armed_of_none missing timer)
  · next callbacks found =>
      have removed := unregister_disarms good fd
      apply returns_modifyGet_bind
      split
      · have plain := good.plain fd
        rw [callbacksAt_of_some found] at plain
        apply returns_bind
          (afterUnwatch_calm steady removed.good fd plain noCallback)
        exact fun _ _ calm => returns_pure (removed.trans_calm calm)
      · exact returns_throw

theorem endWatch_disarms (good : Good busy w) (fd : Fd)
    (handler : Option (Handler (Scheduled κ))) (byClose : Bool) :
    Returns (endWatch d fd handler byClose) w
      fun _ after => Disarms busy fd w after := by
  have begins : (w.beginEnd fd handler byClose).callbacksAt = w.callbacksAt ∧
      (w.beginEnd fd handler byClose).currentCb = w.currentCb ∧
      (w.beginEnd fd handler byClose).currentFd = w.currentFd ∧
      (w.beginEnd fd handler byClose).user = w.user := by
    unfold World.beginEnd
    split
    · exact ⟨rfl, rfl, rfl, rfl⟩
    · exact ⟨rfl, rfl, rfl, rfl⟩
  obtain ⟨callbacks, current, currentFd, timers⟩ := begins
  have began := Calm.same good callbacks current currentFd timers
  apply returns_modify_bind
  apply (unwatch_disarms steady began.good fd false).weaken
  exact fun _ _ disarms =>
    disarms.of_same good callbacks current currentFd timers

theorem close_disarms (good : Good busy w) (fd : Fd) (force : Bool) :
    Returns (close d fd force) w fun _ after => Disarms busy fd w after := by
  have finished : ∀ {w : Clock κ σ} (ended result : Bool), Good busy w → Returns
      (do modify (World.finishEnd · ended); return result :
        EM (Scheduled κ) (Timers σ) Bool) w fun _ after => Calm busy w after := by
    intro w ended result good
    have ends : Returns (modify (World.finishEnd · ended) :
        EM (Scheduled κ) (Timers σ) PUnit) w fun _ after => Calm busy w after :=
      returns_modify (finishEnd_calm good ended)
    exact calm_bind ends fun _ _ good => calm_pure good result
  have discards : Calm busy w (w.discard fd force) := .same good rfl rfl rfl rfl
  have discarded := discards.good
  apply returns_get_bind
  apply returns_modify_bind
  split
  · next handler found =>
      obtain ⟨callbacks, registered, isClose⟩ := Option.bind_eq_some_iff.mp found
      have plain : timerOf handler.callback = none := by
        apply good.plain fd .close handler (by decide)
        rw [callbacksAt_of_some registered]
        exact isClose
      apply returns_bind (endWatch_disarms steady discarded fd _ true)
      intro removed between disarms
      have disarmed := disarms.of_same good rfl rfl rfl rfl
      have called : ∀ {w : Clock κ σ}, Good busy w → Returns (do
          call d handler fd .close .close .none
          modify (World.finishEnd · removed)
          return removed : EM (Scheduled κ) (Timers σ) Bool) w
            fun _ after => Calm busy w after := by
        intro w good
        apply calm_bind (call_calm steady good plain fd _ _ _)
        exact fun _ _ => finished removed removed
      dsimp only
      split
      · have listed := addCloseFd_calm disarms.good fd removed
        apply returns_modify_bind
        apply (called listed.good).weaken
        exact fun _ _ calm => disarmed.trans_calm (listed.trans calm)
      · apply (called disarms.good).weaken
        exact fun _ _ => disarmed.trans_calm
  · apply returns_bind (endWatch_disarms steady discarded fd _ true)
    intro removed between disarms
    have disarmed := disarms.of_same good rfl rfl rfl rfl
    dsimp only
    split
    · have listed := addCloseFd_calm disarms.good fd removed
      apply returns_modify_bind
      apply (finished removed true listed.good).weaken
      exact fun _ _ calm => disarmed.trans_calm (listed.trans calm)
    · apply (finished removed true disarms.good).weaken
      exact fun _ _ => disarmed.trans_calm

theorem close_calm (good : Good busy w) (fd : Fd) (force : Bool) :
    Returns (close d fd force) w fun _ after => Calm busy w after :=
  (close_disarms steady good fd force).weaken fun _ _ => Disarms.toCalm

theorem closeEach_calm (good : Good busy w) (fds : List Fd) :
    Returns (closeEach d fds) w fun _ after => Calm busy w after := by
  induction fds generalizing w with
  | nil => exact calm_pure good ()
  | cons fd rest induction =>
      apply calm_bind (close_calm steady good fd false)
      intro closed between good
      split
      · exact induction good
      · exact returns_throw

theorem settle_calm (good : Good busy w) (fd : Fd) (outcome : World.Outcome) :
    Returns (settle d fd outcome) w fun _ after => Calm busy w after := by
  unfold settle
  split
  · exact calm_pure good _
  · apply calm_bind (close_calm steady good fd false)
    exact fun _ _ good => calm_pure good _
  · exact calm_pure good _

theorem write_calm (good : Good busy w) (fd : Fd) (data : Bytes) :
    Returns (write d fd data) w fun _ after => Calm busy w after := by
  have requested : Calm busy w (w.logRequest fd data) := by
    unfold World.logRequest
    split
    · exact .refl good
    · exact .same good rfl rfl rfl rfl
  apply calm_bind (returns_modifyGet
    (requested.trans (submit_calm requested.good fd data)))
  exact fun outcome _ good => settle_calm steady good fd outcome

theorem finishWriteBuf_calm (good : Good busy w) (fd : Fd) :
    Returns (finishWriteBuf d fd) w fun _ after => Calm busy w after := by
  apply returns_get_bind
  split
  · exact calm_pure good true
  · next queued found =>
      have taken : Calm busy w (w.takeWriteBuf fd) := .same good rfl rfl rfl rfl
      apply calm_bind (returns_modifyGet
        (taken.trans (submit_calm taken.good fd queued)))
      intro outcome between good
      apply calm_bind (settle_calm steady good fd outcome)
      intro size between good
      split
      · exact calm_pure good _
      · exact calm_pure good _

end Operations

section Orders

open EventManager

variable {busy : Option Nat} {w : Clock κ σ}

theorem acceptFd_calm (good : Good busy w) (fd : Fd) :
    Calm busy w (w.acceptFd fd) := by
  unfold World.acceptFd
  split
  · exact .same good rfl rfl rfl rfl
  · exact .refl good

/-- A callback of the program is stored among others. -/
theorem set_stored {callbacks : EventCB (Handler (Scheduled κ))}
    {event kind : EventType} {callback : κ} {ticket : Nat} {conn : Option Conn}
    {handler : Handler (Scheduled κ)}
    (found : callbacks.set event ⟨.stored callback, ticket, conn⟩ kind =
      some handler) :
    callbacks kind = some handler ∨ timerOf handler.callback = none := by
  unfold EventCB.set at found
  by_cases same : kind = event
  · rw [same, Function.update_self] at found
    cases found
    exact .inr rfl
  · rw [Function.update_of_ne same] at found
    exact .inl found

theorem watchEvent_calm (good : Good busy w) (fd : Fd) (event : EventType)
    (callback : κ) (et : Bool) :
    Calm busy w (w.watchEvent fd event (.stored callback) et).2 := by
  have callbacks : (w.watchEvent fd event (.stored callback) et).2.callbacksAt =
      Function.update w.callbacksAt fd ((w.callbacksAt fd).set event
        ⟨.stored callback, w.tickets, w.kernel.conns fd⟩) := by
    unfold World.watchEvent
    rw [World.epollUpdate_callbacksAt]
    exact w.callbacksAt_of_insert fd rfl
  apply Calm.less good
  · intro other kind handler found
    rw [callbacks] at found
    by_cases same : other = fd
    · rw [same, Function.update_self] at found
      rw [same]
      exact set_stored found
    · rw [Function.update_of_ne same] at found
      exact .inl found
  · intro kind handler found
    unfold World.watchEvent at found
    rw [World.epollUpdate_currentCb] at found
    simp only [World.log] at found
    split at found
    · exact set_stored found
    · exact .inl found
  · exact World.epollUpdate_currentFd ..
  · exact World.epollUpdate_user ..

theorem watch_calm (good : Good busy w) (fd : Fd) (callbacks : EventCB κ)
    (reWatch et : Bool) :
    Calm busy w (w.watch fd (callbacks.map .stored) reWatch et).2 := by
  let handlers : EventCB (Handler (Scheduled κ)) :=
    (callbacks.map .stored).map (⟨·, w.tickets, w.kernel.conns fd⟩)
  have stored : ∀ {kind handler}, handlers kind = some handler →
      timerOf handler.callback = none := by
    intro kind handler found
    unfold handlers EventCB.map at found
    cases callback : callbacks kind with
    | none => simp [callback] at found
    | some callback =>
        rw [‹callbacks kind = _›] at found
        cases found
        rfl
  have kept : (w.watch fd (callbacks.map .stored) reWatch et).2.callbacksAt =
      Function.update w.callbacksAt fd handlers := by
    unfold World.watch
    rw [World.epollUpdate_callbacksAt]
    exact w.callbacksAt_of_insert fd rfl
  apply Calm.less good
  · intro other kind handler found
    rw [kept] at found
    by_cases same : other = fd
    · rw [same, Function.update_self] at found
      exact .inr (stored found)
    · rw [Function.update_of_ne same] at found
      exact .inl found
  · intro kind handler found
    unfold World.watch at found
    rw [World.epollUpdate_currentCb] at found
    simp only [World.log] at found
    split at found
    · exact .inr (stored found)
    · exact .inl found
  · exact World.epollUpdate_currentFd ..
  · exact World.epollUpdate_user ..

theorem plain_timerCb (serial : Nat) (once : Bool) (callback : κ)
    (ticket : Nat) (conn : Option Conn) :
    Plain ((timerCb serial once callback).map (⟨·, ticket, conn⟩)) := by
  intro event handler other found
  unfold timerCb EventCB.map EventCB.set at found
  rw [Function.update_of_ne other] at found
  cases found

/-- A timer with a new number is watched. -/
theorem start_calm (good : Good busy w) (fd : Fd) (once : Bool) (callback : κ) :
    Calm busy w ((number w).2.watch fd
      (timerCb w.user.serial once callback)).2 := by
  let after := ((number w).2.watch fd (timerCb w.user.serial once callback)).2
  let handlers : EventCB (Handler (Scheduled κ)) :=
    (timerCb w.user.serial once callback).map
      (⟨·, w.tickets, w.kernel.conns fd⟩)
  have isNew : timerIn handlers = some (w.user.serial, once) := rfl
  have callbacks : after.callbacksAt =
      Function.update w.callbacksAt fd handlers := by
    unfold after World.watch
    rw [World.epollUpdate_callbacksAt]
    exact w.callbacksAt_of_insert fd rfl
  have current : after.currentCb =
      if fd = w.currentFd then handlers else w.currentCb := by
    unfold after World.watch
    rw [World.epollUpdate_currentCb]
    by_cases same : fd = w.currentFd
    · simp [World.log, number, handlers, same]
    · simp [World.log, number, handlers, same]
  have currentFd : after.currentFd = w.currentFd := World.epollUpdate_currentFd ..
  have user : after.user = { w.user with serial := w.user.serial + 1 } :=
    World.epollUpdate_user ..
  have armed : ∀ {other timer}, Armed after other timer →
      other = fd ∧ timer = (w.user.serial, once) ∨ Armed w other timer := by
    intro other timer isArmed
    unfold Armed at isArmed
    rw [callbacks] at isArmed
    by_cases same : other = fd
    · rw [same, Function.update_self, isNew] at isArmed
      exact .inl ⟨same, (Option.some.inj isArmed).symm⟩
    · rw [Function.update_of_ne same] at isArmed
      exact .inr isArmed
  have loaded : ∀ {timer}, Loaded after timer →
      fd = w.currentFd ∧ timer = (w.user.serial, once) ∨ Loaded w timer := by
    intro timer isLoaded
    unfold Loaded at isLoaded
    rw [current] at isLoaded
    split at isLoaded
    · next same =>
        rw [isNew] at isLoaded
        exact .inl ⟨same, (Option.some.inj isLoaded).symm⟩
    · exact .inr isLoaded
  have later : ∀ {timer}, Pending busy w.user timer →
      Pending busy after.user timer := by
    rintro timer ⟨old, isPending⟩
    rw [user]
    exact ⟨Nat.lt_succ_of_lt old, isPending⟩
  have fresh : Pending busy after.user (w.user.serial, once) := by
    rw [user]
    refine ⟨Nat.lt_succ_self _, ?_, ?_⟩
    · intro stopped
      exact Nat.lt_irrefl _ (good.known (.inr stopped))
    · intro _ _ rang
      exact Nat.lt_irrefl _ (good.known (.inl ⟨true, rang⟩))
  refine ⟨⟨?_, ?_, ?_, ?_, ?_, ?_⟩, ?_, currentFd, ?_, ?_, ?_⟩
  · intro other event handler isOther found
    rw [callbacks] at found
    by_cases same : other = fd
    · rw [same, Function.update_self] at found
      exact plain_timerCb _ _ _ _ _ event handler isOther found
    · rw [Function.update_of_ne same] at found
      exact good.plain other event handler isOther found
  · intro event handler isOther found
    rw [current] at found
    split at found
    · exact plain_timerCb _ _ _ _ _ event handler isOther found
    · exact good.current event handler isOther found
  · intro other timer isArmed
    rcases armed isArmed with ⟨-, rfl⟩ | before
    · exact fresh
    · exact later (good.pending before)
  · intro other another timer next isArmed alsoArmed same
    rcases armed isArmed with ⟨rfl, rfl⟩ | before
    · rcases armed alsoArmed with ⟨rfl, -⟩ | also
      · rfl
      · exact absurd same (Nat.ne_of_gt (good.pending also).1)
    · rcases armed alsoArmed with ⟨-, rfl⟩ | also
      · exact absurd same (Nat.ne_of_lt (good.pending before).1)
      · exact good.apart before also same
  · intro serial recorded
    rw [user] at recorded ⊢
    exact Nat.lt_succ_of_lt (good.known recorded)
  · rw [user]
    exact good.due
  · intro staged timer isLoaded
    rw [currentFd]
    rcases loaded isLoaded with ⟨rfl, rfl⟩ | before
    · refine ⟨fresh, fun isArmed same => ?_⟩
      rcases armed isArmed with ⟨rfl, -⟩ | also
      · rfl
      · exact absurd same (Nat.ne_of_lt (good.pending also).1)
    · obtain ⟨isPending, elsewhere⟩ := staged before
      refine ⟨later isPending, fun isArmed same => ?_⟩
      rcases armed isArmed with ⟨rfl, rfl⟩ | also
      · exact absurd same (Nat.ne_of_gt isPending.1)
      · exact elsewhere also same
  · rw [user]
    exact Nat.le_succ _
  · intro other timer isArmed
    rcases armed isArmed with ⟨-, rfl⟩ | before
    · exact .inr (Nat.le_refl _)
    · exact .inl before
  · intro timer isLoaded
    rcases loaded isLoaded with ⟨-, rfl⟩ | before
    · exact .inr (Nat.le_refl _)
    · exact .inl before

theorem createTimerfd_calm (good : Good busy w) (answer : TimerFd) :
    Returns (createTimerfd answer : EM (Scheduled κ) (Timers σ) Int) w
      fun _ after => Calm busy w after := by
  cases answer with
  | refused => exact calm_pure good _
  | unset fd =>
      apply returns_modify_bind
      exact returns_pure (acceptFd_calm good fd)
  | armed fd =>
      apply returns_get_bind
      split
      · apply returns_modify_bind
        exact returns_pure (acceptFd_calm good fd)
      · exact calm_pure good _

theorem schedule_calm (good : Good busy w) (created : Itimerspec → TimerFd)
    (callback : κ) (its : Itimerspec) :
    Returns (schedule created callback its :
      EM (Scheduled κ) (Timers σ) Int) w fun _ after => Calm busy w after := by
  have starts : ∀ answer once, Returns (start answer once callback :
      EM (Scheduled κ) (Timers σ) Int) w fun _ after => Calm busy w after := by
    intro answer once
    apply calm_bind (createTimerfd_calm good answer)
    intro timerFd between good
    split
    · exact calm_pure good _
    · apply returns_modifyGet_bind
      apply returns_modifyGet_bind
      exact returns_pure (start_calm good timerFd once callback)
  unfold schedule
  split
  · split
    · exact returns_throw
    · exact starts _ true
  · exact starts _ false

/-- The timer that was on a descriptor is not there any more. -/
theorem recordStop_calm {after : Clock κ σ} {fd : Fd} (good : Good busy w)
    (disarms : Disarms busy fd w after) :
    Calm busy w (recordStop (timerAt w fd) after) := by
  rw [timerAt_eq]
  cases wasArmed : timerIn (w.callbacksAt fd) with
  | none => exact disarms.toCalm
  | some timer =>
      obtain ⟨serial, once⟩ := timer
      have isArmed : Armed w fd (serial, once) := wasArmed
      have old : serial < w.user.serial := (good.pending isArmed).1
      -- Whoever has the number was there before, on this descriptor.
      have gone : ∀ {other timer}, Armed after other timer → timer.1 ≠ serial := by
        rintro other timer still rfl
        rcases disarms.armed still with before | new
        · cases good.apart before isArmed rfl
          exact Nat.not_le_of_gt old (disarms.disarmed still)
        · exact Nat.not_le_of_gt old new
      have pending : ∀ {timer}, Pending busy after.user timer →
          timer.1 ≠ serial →
          Pending busy (after.user.stop serial) timer := by
        rintro timer ⟨known, running, rings⟩ other
        refine ⟨known, ?_, fun isOnce free => ?_⟩
        · simpa [Timers.stop, other] using running
        · simpa [Timers.stop] using rings isOnce free
      have kept := disarms.good
      refine ⟨⟨kept.plain, kept.current, ?_, kept.apart, ?_, ?_⟩,
        ?_, disarms.currentFd, disarms.serial, disarms.armed, disarms.loaded⟩
      · exact fun still => pending (kept.pending still) (gone still)
      · rintro number (⟨rings, rang⟩ | stopped)
        · have before : Alarm.rang number rings ∈ after.user.alarms := by
            simpa [recordStop, World.mapUser, Timers.stop] using rang
          exact kept.known (.inl ⟨rings, before⟩)
        · rcases List.mem_cons.mp stopped with same | before
          · cases same
            exact Nat.lt_of_lt_of_le old disarms.serial
          · exact kept.known (.inr before)
      · exact ⟨trivial, kept.due⟩
      · intro staged timer isLoaded
        obtain ⟨isPending, elsewhere⟩ := disarms.stage staged isLoaded
        refine ⟨pending isPending ?_, elsewhere⟩
        rintro rfl
        rcases disarms.loaded isLoaded with before | new
        · have here := (staged before).2 isArmed rfl
          exact Nat.not_le_of_gt old (disarms.unloaded isArmed here isLoaded)
        · exact Nat.not_le_of_gt old new

variable {d : Dispatch (Scheduled κ) (Timers σ)} (steady : Steady d)
include steady

theorem perform_calm (good : Good busy w) {op : SchedulerOp κ σ}
    (flat : op.Flat) :
    Returns (perform d op) w fun _ after => Calm busy w after := by
  have returned : ∀ {α : Type} {computation : EM (Scheduled κ) (Timers σ) α}
      {result : α → Int},
      Returns computation w (fun _ after => Calm busy w after) →
      Returns (do let value ← computation; return result value) w
        fun _ after => Calm busy w after := by
    intro α computation result returns
    exact calm_bind returns fun _ _ good => calm_pure good _
  cases op with
  | plain op =>
      cases op with
      | accept fd => exact returned (returns_modify (acceptFd_calm good fd))
      | watchEvent fd event callback et =>
          exact returned
            (returns_modifyGet (watchEvent_calm good fd event callback et))
      | watch fd callbacks reWatch et =>
          exact returned
            (returns_modifyGet (watch_calm good fd callbacks reWatch et))
      | autoRewatch fd et =>
          apply returned (returns_modifyGet _)
          exact .same good (World.epollUpdate_callbacksAt ..)
            (World.epollUpdate_currentCb ..) (World.epollUpdate_currentFd ..)
            (World.epollUpdate_user ..)
      | unwatch fd noCallback =>
          apply returned
          exact (unwatch_disarms steady good fd noCallback).weaken
            fun _ _ => Disarms.toCalm
      | close fd force => exact returned (close_calm steady good fd force)
      | closeAll =>
          apply returned
          apply returns_get_bind
          apply calm_bind (closeEach_calm steady good _)
          exact fun _ _ good => calm_pure good true
      | write fd data => exact write_calm steady good fd data
      | handleEvents waited => exact flat.elim
      | user change =>
          apply returned (returns_modify _)
          exact .fewer good .inl .inl rfl (Nat.le_refl _) rfl
  | schedule created callback its => exact schedule_calm good created callback its
  | scheduleOnce created callback ts =>
      exact schedule_calm good created callback { itValue := ts }
  | unschedule fd =>
      have stops : Returns (unschedule d fd) w
          fun _ after => Calm busy w after := by
        apply returns_get_bind
        apply returns_bind (close_disarms steady good fd false)
        exact fun _ _ disarms => returns_modify (recordStop_calm good disarms)
      exact calm_bind stops fun _ _ good => calm_pure good 0

theorem code_calm (good : Good busy w) (code : Code κ σ)
    (flat : code.Forall SchedulerOp.Flat) :
    Returns (code.run .exit (perform d)) w fun _ after => Calm busy w after := by
  induction code generalizing w with
  | done => exact calm_pure good ()
  | exit => exact returns_throw
  | step op next induction =>
      apply calm_bind (perform_calm steady good flat.1)
      intro result between good
      apply returns_get_bind
      exact induction result between good (flat.2 result between)

end Orders

/-- The code of a program handles no events within callbacks. -/
structure Parts.Flat (parts : Parts κ σ) : Prop where
  body : ∀ callback fd arg w,
    (parts.body callback fd arg w).Forall SchedulerOp.Flat
  alarm : ∀ callback w, (parts.alarm callback w).Forall SchedulerOp.Flat

theorem steady_dispatch {parts : Parts κ σ} (flat : parts.Flat) (depth : Nat) :
    Steady (parts.app.dispatch depth) := by
  induction depth with
  | zero => exact ⟨fun _ _ _ _ => returns_throw, fun _ _ => rfl⟩
  | succ depth induction =>
      refine ⟨?_, fun _ _ => rfl⟩
      intro busy w callback fd arg good
      apply returns_get_bind
      exact code_calm induction good _ (flat.body callback fd arg w)

section Ringing

variable {w : Clock κ σ} {serial : Nat} {once : Bool}

/-- A timer goes off that may. -/
theorem rings (good : Good none w) (staged : Stage none w)
    (isLoaded : Loaded w (serial, once)) :
    Good (if once then some serial else none)
        (w.mapUser (Timers.ring serial once)) ∧
      Stage (if once then some serial else none)
        (w.mapUser (Timers.ring serial once)) := by
  obtain ⟨⟨old, running, first⟩, -⟩ := staged isLoaded
  have pending : ∀ {timer}, Pending none w.user timer →
      Pending (if once then some serial else none)
        (w.user.ring serial once) timer := by
    rintro timer ⟨known, unstopped, unrung⟩
    refine ⟨known, by simpa [Timers.ring] using unstopped, ?_⟩
    intro isOnce free rang
    rcases List.mem_cons.mp rang with same | before
    · cases same
      exact free rfl
    · exact unrung isOnce (Option.some_ne_none _) before
  refine ⟨⟨good.plain, good.current, ?_, good.apart, ?_, ?_⟩, ?_⟩
  · exact fun isArmed => pending (good.pending isArmed)
  · rintro number (⟨rings, rang⟩ | stopped)
    · rcases List.mem_cons.mp rang with same | before
      · cases same
        exact old
      · exact good.known (.inl ⟨rings, before⟩)
    · have before : Alarm.stopped number ∈ w.user.alarms := by
        simpa [World.mapUser, Timers.ring] using stopped
      exact good.known (.inr before)
  · exact ⟨⟨running, fun isOnce => first isOnce (Option.some_ne_none _)⟩, good.due⟩
  · intro timer isLoaded
    obtain ⟨isPending, elsewhere⟩ := staged isLoaded
    exact ⟨pending isPending, elsewhere⟩

/-- A timer that went off is gone. -/
theorem Good.settle (good : Good (some serial) w)
    (gone : ∀ {fd timer}, Armed w fd timer → timer.1 ≠ serial) :
    Good none w := by
  refine ⟨good.plain, good.current, ?_, good.apart, good.known, good.due⟩
  intro fd timer isArmed
  obtain ⟨known, unstopped, unrung⟩ := good.pending isArmed
  refine ⟨known, unstopped, fun isOnce _ => unrung isOnce ?_⟩
  exact fun same => gone isArmed (Option.some.inj same)

variable {d : Dispatch (Scheduled κ) (Timers σ)} {parts : Parts κ σ}

theorem ring_good (steady : Steady d) (flat : parts.Flat) (good : Good none w)
    (staged : Stage none w) (isLoaded : Loaded w (serial, once))
    (callback : κ) :
    Returns (parts.ring d serial once callback w.currentFd) w
      fun _ after => Good none after := by
  have counted : Calm none w (readCount w w.currentFd) := by
    unfold readCount
    split
    · exact .same good rfl rfl rfl rfl
    · exact .same good rfl rfl rfl rfl
  have cursor := counted.currentFd
  have still : Loaded (readCount w w.currentFd) (serial, once) := by
    unfold readCount
    split
    · exact isLoaded
    · exact isLoaded
  obtain ⟨known, elsewhere⟩ := counted.stage staged still
  obtain ⟨ringing, onStage⟩ := rings counted.good (counted.stage staged) still
  apply returns_modify_bind
  apply returns_modify_bind
  apply returns_get_bind
  apply returns_bind (code_calm steady ringing _ (flat.alarm callback _))
  intro _ between calm
  cases once with
  | false => exact returns_pure calm.good
  | true =>
      apply returns_bind (close_disarms steady calm.good w.currentFd false)
      intro _ after disarms
      refine returns_pure (disarms.good.settle ?_)
      rintro fd timer isArmed rfl
      have before : ∀ {number}, between.user.serial ≤ number →
          timer.1 ≠ number := by
        rintro number new rfl
        exact Nat.not_le_of_gt known.1 (Nat.le_trans calm.serial new)
      rcases disarms.armed isArmed with was | new
      · rcases calm.armed was with first | new
        · cases elsewhere first rfl
          rw [cursor] at isArmed
          exact before (disarms.disarmed isArmed) rfl
        · exact Nat.not_le_of_gt known.1 new
      · exact before new rfl

end Ringing

/-- Callbacks of the program let no timer go off, and the callback of a timer
lets that go off. -/
structure Ringing (d : Dispatch (Scheduled κ) (Timers σ)) : Prop
    extends Steady d where
  rings : ∀ {w serial once}, Good none w → Stage none w →
    Loaded w (serial, once) → ∀ callback,
      Returns (d.invoke (.timer serial once callback) w.currentFd .none) w
        fun _ after => Good none after
  silent : ∀ serial once callback,
    d.wantMessage (.timer serial once callback) = false

theorem ringing_dispatch {parts : Parts κ σ} (flat : parts.Flat) (depth : Nat) :
    Ringing (parts.app.dispatch depth) := by
  refine ⟨steady_dispatch flat depth, ?_, ?_⟩
  · intro w serial once good staged isLoaded callback
    cases depth with
    | zero => exact returns_throw
    | succ depth =>
        exact ring_good (steady_dispatch flat depth) flat good staged isLoaded
          callback
  · intro serial once callback
    cases depth with
    | zero => rfl
    | succ depth => rfl

section Events

open EventManager

variable {w : Clock κ σ} {d : Dispatch (Scheduled κ) (Timers σ)}

theorem handshake_calm (good : Good none w) (fd : Fd) :
    Calm none w (w.handshake fd).2 := by
  obtain ⟨connections, answers, same⟩ := w.handshake_eq fd
  rw [same]
  exact .same good rfl rfl rfl rfl

theorem eraseConnect_calm (good : Good none w) : Calm none w w.eraseConnect := by
  have callbacks : w.eraseConnect.callbacksAt =
      Function.update w.callbacksAt w.currentFd
        ((w.callbacksAt w.currentFd).erase .connect) :=
    w.callbacksAt_of_insert w.currentFd rfl
  have erased : ∀ {callbacks : EventCB (Handler (Scheduled κ))} {event handler},
      callbacks.erase .connect event = some handler →
      callbacks event = some handler := by
    intro callbacks event handler found
    unfold EventCB.erase at found
    by_cases same : event = .connect
    · rw [same, Function.update_self] at found
      cases found
    · rw [Function.update_of_ne same] at found
      exact found
  apply Calm.less good
  · intro fd event handler found
    rw [callbacks] at found
    by_cases same : fd = w.currentFd
    · rw [same, Function.update_self] at found
      rw [same]
      exact .inl (erased found)
    · rw [Function.update_of_ne same] at found
      exact .inl found
  · exact fun found => .inl (erased found)
  · rfl
  · rfl

theorem read_calm (good : Good none w) (fd : Fd) :
    Returns (read fd : EM (Scheduled κ) (Timers σ) Bytes) w
      fun _ after => Calm none w after := by
  apply returns_get_bind
  split
  · apply returns_modify_bind
    exact returns_pure (.same good rfl rfl rfl rfl)
  · apply returns_modify_bind
    split
    · exact returns_pure (.same good rfl rfl rfl rfl)
    · exact returns_throw

variable (ringing : Ringing d)
include ringing

theorem connectStage_calm (good : Good none w) (flags : Flags) :
    Returns (connectStage d flags) w fun _ after => Calm none w after := by
  apply returns_get_bind
  split
  · exact calm_pure good true
  · next handler found =>
      have plain : timerOf handler.callback = none :=
        good.current .connect handler (by decide) found
      have asked : Calm none w (w.connectSucceeded flags).2 := by
        obtain ⟨answers, same⟩ := w.connectSucceeded_eq flags
        rw [same]
        exact .same good rfl rfl rfl rfl
      have erases : ∀ {w : Clock κ σ}, Good none w → Returns
          (modify World.eraseConnect : EM (Scheduled κ) (Timers σ) PUnit) w
            fun _ after => Calm none w after :=
        fun good => returns_modify (eraseConnect_calm good)
      apply calm_bind (returns_modifyGet asked)
      intro succeeded between good
      split
      · apply calm_bind (returns_modifyGet (handshake_calm good _))
        intro _ between good
        apply calm_bind (erases good)
        intro _ between good
        apply returns_get_bind
        apply calm_bind (call_calm ringing.toSteady good plain _ _ _ _)
        exact fun _ _ good => calm_pure good true
      · apply calm_bind (erases good)
        intro _ between good
        apply returns_get_bind
        apply calm_bind ((unwatch_disarms ringing.toSteady good _ false).weaken
          fun _ _ => Disarms.toCalm)
        intro _ between good
        apply calm_bind (returns_modify (.same good rfl rfl rfl rfl))
        intro _ between good
        apply returns_get_bind
        apply calm_bind (call_calm ringing.toSteady good plain _ _ _ _)
        exact fun _ _ good => calm_pure good false

theorem readStage_good (good : Good none w) (staged : Stage none w)
    (flags : Flags) :
    Returns (readStage d flags) w fun _ after => Good none after := by
  unfold readStage
  split
  · have shaken := handshake_calm good w.currentFd
    apply returns_modifyGet_bind
    apply returns_get_bind
    split
    · next handler _ found =>
        cases kind : handler.callback with
        | stored callback =>
            have plain : timerOf handler.callback = none := by
              rw [kind]
              rfl
            split
            · apply returns_bind (read_calm shaken.good _)
              intro message between calm
              exact (call_calm ringing.toSteady calm.good plain _ _ _ _).weaken
                fun _ _ => Calm.good
            · exact (call_calm ringing.toSteady shaken.good plain _ _ _ _).weaken
                fun _ _ => Calm.good
        | timer serial once callback =>
            rw [ringing.silent, if_neg (by decide)]
            have isLoaded : Loaded (w.handshake w.currentFd).2 (serial, once) := by
              apply timerIn_eq_some.mpr
              exact ⟨handler, found, by rw [kind]; rfl⟩
            have called : Calm none _ ((w.handshake w.currentFd).2.logCall handler
                (w.handshake w.currentFd).2.currentFd .read .event) :=
              .same shaken.good rfl rfl rfl rfl
            apply returns_modify_bind
            rw [kind]
            exact ringing.rings called.good
              (called.stage (shaken.stage staged)) isLoaded callback
    · exact returns_pure shaken.good
  · exact returns_pure good

theorem writeStage_good (good : Good none w) (flags : Flags) :
    Returns (writeStage d flags) w fun _ after => Good none after := by
  unfold writeStage
  split
  · apply returns_get_bind
    apply returns_bind (finishWriteBuf_calm ringing.toSteady good _)
    intro done between calm
    split
    · apply returns_get_bind
      split
      · next handler found =>
          have plain := calm.good.current .write handler (by decide) found
          exact (call_calm ringing.toSteady calm.good plain _ _ _ _).weaken
            fun _ _ => Calm.good
      · apply returns_modify
        have rewatched : Calm none between
            (between.autoRewatch between.currentFd).2 :=
          .same calm.good (World.epollUpdate_callbacksAt ..)
            (World.epollUpdate_currentCb ..) (World.epollUpdate_currentFd ..)
            (World.epollUpdate_user ..)
        exact rewatched.good
    · exact returns_pure calm.good
  · exact returns_pure good

theorem errorStage_good (good : Good none w) (flags : Flags) :
    Returns (errorStage d flags) w fun _ after => Good none after := by
  unfold errorStage
  split
  · apply returns_get_bind
    split
    · next handler found =>
        have plain := good.current .error handler (by decide) found
        apply returns_bind (call_calm ringing.toSteady good plain _ _ _ _)
        exact fun _ _ calm => returns_pure calm.good
    · exact returns_pure good
  · exact returns_pure good

theorem closeStage_good (good : Good none w) (flags : Flags) :
    Returns (closeStage d flags) w fun _ after => Good none after := by
  have finished : ∀ {w : Clock κ σ} (removed : Bool), Good none w →
      Returns (modify (World.finishEnd · removed) :
        EM (Scheduled κ) (Timers σ) PUnit) w fun _ after => Good none after :=
    fun removed good => returns_modify (finishEnd_calm good removed).good
  unfold closeStage
  split
  · apply returns_get_bind
    split
    · next handler found =>
        have plain := good.current .close handler (by decide) found
        apply returns_bind (endWatch_disarms ringing.toSteady good _ _ false)
        intro removed between disarms
        dsimp only
        split
        · apply returns_get_bind
          apply returns_modify_bind
          have listed := addCloseFd_calm disarms.good between.currentFd true
          apply returns_bind
            (call_calm ringing.toSteady listed.good plain _ _ _ _)
          exact fun _ _ calm => finished removed calm.good
        · exact finished removed disarms.good
    · apply returns_bind (endWatch_disarms ringing.toSteady good _ _ false)
      intro removed between disarms
      dsimp only
      split
      · apply returns_get_bind
        apply returns_modify_bind
        have listed := addCloseFd_calm disarms.good between.currentFd true
        exact finished removed listed.good
      · exact finished removed disarms.good
  · exact returns_pure good

theorem handleEvent_good (good : Good none w) (fd : Fd) (flags : Flags) :
    Returns (handleEvent d fd flags) w fun _ after => Good none after := by
  have entered : Good none (w.enter fd) :=
    ⟨good.plain, good.current, good.pending, good.apart, good.known, good.due⟩
  apply returns_modify_bind
  apply returns_get_bind
  split
  · exact returns_pure entered
  · next callbacks found =>
      have here : w.callbacksAt fd = callbacks := callbacksAt_of_some found
      have plain := good.plain fd
      rw [here] at plain
      have loaded : Good none ((w.enter fd).loadCb callbacks) :=
        ⟨good.plain, plain, good.pending, good.apart, good.known, good.due⟩
      -- What was loaded is watched on this descriptor, and so nowhere else.
      have staged : Stage none ((w.enter fd).loadCb callbacks) := by
        intro timer isLoaded
        have isArmed : Armed w fd timer := by
          unfold Armed
          rw [here]
          exact isLoaded
        exact ⟨good.pending isArmed,
          fun also same => good.apart also isArmed same⟩
      apply returns_modify_bind
      apply returns_bind (connectStage_calm ringing loaded flags)
      intro proceed between calm
      split
      · apply returns_bind
          (readStage_good ringing calm.good (calm.stage staged) flags)
        intro _ between good
        apply returns_bind (writeStage_good ringing good flags)
        intro _ between good
        apply returns_bind (errorStage_good ringing good flags)
        exact fun raised _ good => closeStage_good ringing good raised
      · exact returns_pure calm.good

theorem handleEach_good (good : Good none w) (events : List (Fd × Flags)) :
    Returns (handleEach d events) w fun _ after => Good none after := by
  induction events generalizing w with
  | nil => exact returns_pure good
  | cons event rest induction =>
      apply returns_bind (handleEvent_good ringing good event.1 event.2)
      exact fun _ _ good => induction good

omit ringing in
theorem flushCloseFds_good (list : List Fd) :
    ∀ {w : Clock κ σ}, Good none w → Good none (w.flushCloseFds list) := by
  induction list with
  | nil =>
      intro w good
      exact ⟨good.plain, good.current, good.pending, good.apart, good.known,
        good.due⟩
  | cons fd rest induction =>
      intro w good
      apply induction
      exact ⟨good.plain, good.current, good.pending, good.apart, good.known,
        good.due⟩

theorem handleEvents_good (good : Good none w) (waited : Waited) :
    Returns (handleEvents d waited) w fun _ after => Good none after := by
  cases waited with
  | failed => exact returns_throw
  | interrupted =>
      apply returns_modify
      exact ⟨good.plain, good.current, good.pending, good.apart, good.known,
        good.due⟩
  | events events =>
      have begun : Good none (w.logBatch (events.map Prod.fst)) :=
        ⟨good.plain, good.current, good.pending, good.apart, good.known,
          good.due⟩
      apply returns_modify_bind
      apply returns_bind (handleEach_good ringing begun events)
      intro _ between good
      apply returns_modify_bind
      apply returns_modify_bind
      apply returns_modify
      have left : Good none between.leave :=
        ⟨good.plain, good.current, good.pending, good.apart, good.known,
          good.due⟩
      have flushed := flushCloseFds_good between.leave.closeFds left
      exact ⟨flushed.plain, flushed.current, flushed.pending, flushed.apart,
        flushed.known, flushed.due⟩

/-- A program may handle events outside of callbacks. -/
theorem code_good (good : Good none w) (code : Code κ σ) :
    Returns (code.run .exit (perform d)) w fun _ after => Good none after := by
  have each : ∀ {w : Clock κ σ} (op : SchedulerOp κ σ), Good none w →
      Returns (perform d op) w fun _ after => Good none after := by
    intro w op good
    by_cases flat : op.Flat
    · exact (perform_calm ringing.toSteady good flat).weaken
        fun _ _ => Calm.good
    · cases op with
      | plain op =>
          cases op with
          | handleEvents waited =>
              apply returns_bind (handleEvents_good ringing good waited)
              exact fun _ _ good => returns_pure good
          | _ => exact absurd trivial flat
      | _ => exact absurd trivial flat
  induction code generalizing w with
  | done => exact returns_pure good
  | exit => exact returns_throw
  | step op next induction =>
      apply returns_bind (each op good)
      intro result between good
      apply returns_get_bind
      exact induction result between good

end Events

theorem good_init (user : σ) (answers : Answers) :
    Good none (World.init { user } answers : Clock κ σ) := by
  constructor <;>
    simp [World.init, World.callbacksAt, Plain, Armed, timerIn, EventCB.empty,
      Always]

/-- Whatever a program does with a scheduler, as long as its callbacks handle no
events: no timer goes off that was unscheduled before, and none that was
scheduled once goes off again.  A timer on a descriptor is neither of these. -/
theorem timers_go_off_as_scheduled {parts : Parts κ σ} (flat : parts.Flat)
    (depth : Nat) (code : Code κ σ) (user : σ) (answers : Answers)
    {last : Clock κ σ}
    (returned : code.run .exit (perform (parts.app.dispatch depth))
      (World.init { user } answers) = .ok () last) :
    (∀ {later serial once earlier},
      last.user.alarms = later ++ .rang serial once :: earlier →
      Alarm.stopped serial ∉ earlier ∧
        (once = true → Alarm.rang serial true ∉ earlier)) ∧
    ∀ {fd serial once}, timerAt last fd = some (serial, once) →
      Alarm.stopped serial ∉ last.user.alarms ∧
        (once = true → Alarm.rang serial true ∉ last.user.alarms) := by
  have good := (code_good (ringing_dispatch flat depth) (good_init user answers)
    code).holds _ _ returned
  constructor
  · intro later serial once earlier split
    have due := good.due
    rw [split] at due
    exact due.append_right.1
  · intro fd serial once found
    rw [timerAt_eq] at found
    obtain ⟨-, unstopped, unrung⟩ := good.pending found
    exact ⟨unstopped, fun isOnce => unrung isOnce (Option.some_ne_none _)⟩

/-- A callback that unschedules the timer on a descriptor. -/
def unscheduling : Parts Fd Unit where
  body _ _ _ _ := .done
  alarm fd _ := .sequence [.unschedule fd]
  wantMessage _ := false

/-- The first timer goes off once and unschedules the second, which has gone
off before it in the same batch. -/
def twoTimers : Code Fd Unit :=
  .sequence [
    .scheduleOnce (fun _ => .armed 5) 6 { tvSec := 1 },
    .schedule (fun _ => .armed 6) 7 { itInterval := { tvSec := 1 } },
    .plain (.handleEvents (.events [(6, { epollIn := true }),
      (5, { epollIn := true }), (6, { epollIn := true })])),
    .plain (.handleEvents (.events [(5, { epollIn := true })]))]

theorem twoTimers_go_off :
    ∃ last : Clock Fd Unit,
      last.user.alarms = [.stopped 1, .rang 0 true, .rang 1 false] ∧
      ∀ {later serial once earlier},
        last.user.alarms = later ++ .rang serial once :: earlier →
        Alarm.stopped serial ∉ earlier ∧
          (once = true → Alarm.rang serial true ∉ earlier) := by
  have flat : unscheduling.Flat :=
    ⟨fun _ _ _ _ => trivial, fun _ _ => ⟨trivial, fun _ _ => trivial⟩⟩
  have returned := @Stepwise.eq_ok_final _ _
    (twoTimers.run .exit (perform (unscheduling.app.dispatch 3))
      (World.init { user := () } {})) (by decide +kernel)
  exact ⟨_, by decide +kernel,
    (timers_go_off_as_scheduled flat 3 twoTimers () {} returned).1⟩

end Scheduler

end Universe
