import Universe.EventManager.Effects
import Universe.EventManager.Program

/-!
# Handling events inside a callback

A callback may call `handle_events` again, as `Client::wait` does.  The calls
share `_current_fd` and `_current_cb`: a call that has handled a batch leaves
`-1` in the one, and the callbacks it has loaded last in the other.
-/

namespace Universe

open Stepwise

variable {β σ : Type}

/-- How many batches `handle_events` has been through. -/
def batches : List (Event β) → Nat
  | [] => 0
  | .left :: past => batches past + 1
  | _ :: past => batches past

/-- The number for which `_current_cb` was loaded last. -/
def loadedFor : List (Event β) → Option Fd
  | [] => none
  | .entered fd true :: _ => some fd
  | _ :: past => loadedFor past

/-- The event is not one of the loop of `handle_events`. -/
def Event.beside : Event β → Bool
  | .entered .. => false
  | .left => false
  | _ => true

section Beside

variable {event : Event β} (beside : event.beside) (past : List (Event β))
include beside

theorem batches_beside : batches (event :: past) = batches past := by
  cases event with
  | left => cases beside
  | _ => rfl

theorem loadedFor_beside : loadedFor (event :: past) = loadedFor past := by
  cases event with
  | entered => cases beside
  | _ => rfl

end Beside

/-- The loop of `handle_events` finds its event as it has left it, unless a
batch has been handled in between. -/
def Resumes (w after : World β σ) : Prop :=
  after.currentFd = w.currentFd ∧
      loadedFor after.history = loadedFor w.history ∧
      batches after.history = batches w.history ∨
    after.currentFd = -1 ∧ batches w.history < batches after.history

namespace Resumes

variable {w middle after : World β σ}

theorem of_grows (grows : Grows Event.beside w after)
    (currentFd : after.currentFd = w.currentFd) : Resumes w after := by
  left
  refine ⟨currentFd, ?_, ?_⟩
  · exact grows.same fun _ past beside => loadedFor_beside beside past
  · exact grows.same fun _ past beside => batches_beside beside past

theorem of_eq (history : after.history = w.history)
    (currentFd : after.currentFd = w.currentFd) : Resumes w after :=
  of_grows ⟨[], by simp [history], by simp⟩ currentFd

/-- One event is recorded. -/
theorem log {event : Event β} (beside : event.beside)
    (history : after.history = event :: w.history)
    (currentFd : after.currentFd = w.currentFd) : Resumes w after :=
  of_grows ⟨[event], history, by simpa using beside⟩ currentFd

theorem batches_le (resumes : Resumes w after) :
    batches w.history ≤ batches after.history := by
  rcases resumes with ⟨-, -, same⟩ | ⟨-, more⟩
  · exact Nat.le_of_eq same.symm
  · exact Nat.le_of_lt more

theorem trans (first : Resumes w middle) (second : Resumes middle after) :
    Resumes w after := by
  rcases second with ⟨currentFd, loaded, same⟩ | ⟨reset, more⟩
  · rcases first with ⟨firstFd, firstLoaded, firstSame⟩ | ⟨reset, more⟩
    · exact .inl ⟨currentFd.trans firstFd, loaded.trans firstLoaded,
        same.trans firstSame⟩
    · exact .inr ⟨currentFd.trans reset, same ▸ more⟩
  · exact .inr ⟨reset, Nat.lt_of_le_of_lt first.batches_le more⟩

instance : IsPreorder (World β σ) Resumes where
  refl _ := of_eq rfl rfl
  trans _ _ _ := trans

theorem epollUpdate (resumes : Resumes w middle) (fd : Fd) (op : EpollOp)
    (et : Bool) : Resumes w (middle.epollUpdate fd op et).2 := by
  apply resumes.trans
  by_cases deleted : op = .del
  · subst deleted
    exact of_eq rfl rfl
  · exact log rfl (World.epollUpdate_history _ _ _ deleted) (by simp)

theorem submit (w : World β σ) (fd : Fd) (data : Bytes) :
    Resumes w (w.submit fd data).2 := by
  obtain ⟨events, history, writing⟩ := submit_grows w fd data
  apply of_grows ⟨events, history, ?_⟩
  · exact (World.submit_submitted w fd data).currentFd
  · intro event member
    have isWriting := writing event member
    cases event <;> first | rfl | cases isWriting

theorem logRequest (w : World β σ) (fd : Fd) (data : Bytes) :
    Resumes w (w.logRequest fd data) := by
  unfold World.logRequest
  split
  · exact of_eq rfl rfl
  · exact log rfl rfl rfl

theorem handshake (w : World β σ) (fd : Fd) :
    Resumes w (w.handshake fd).2 := by
  obtain ⟨connections, answers, same⟩ := w.handshake_eq fd
  rw [same]
  exact of_eq rfl rfl

theorem beginEnd (w : World β σ) (fd : Fd) (handler : Option (Handler β))
    (byClose : Bool) : Resumes w (w.beginEnd fd handler byClose) := by
  unfold World.beginEnd
  split
  · exact log rfl rfl rfl
  · exact of_eq rfl rfl

theorem finishEnd (w : World β σ) (ended : Bool) :
    Resumes w (w.finishEnd ended) := by
  unfold World.finishEnd
  split
  · exact log rfl rfl rfl
  · exact of_eq rfl rfl

theorem acceptFd (w : World β σ) (fd : Fd) : Resumes w (w.acceptFd fd) := by
  unfold World.acceptFd
  split
  · exact log rfl rfl rfl
  · exact of_eq rfl rfl

theorem flushCloseFds (list : List Fd) :
    ∀ w : World β σ, Resumes w (w.flushCloseFds list) := by
  induction list with
  | nil => exact fun _ => of_eq rfl rfl
  | cons fd rest induction =>
      intro w
      apply trans ?_ (induction _)
      exact log rfl rfl rfl

/-- The loop goes on with its event exactly if no batch was handled. -/
theorem goesOn_iff (resumes : Resumes w after) {fd : Fd} (opened : fd ≠ -1)
    (currentFd : w.currentFd = fd) (loaded : loadedFor w.history = some fd) :
    after.currentFd = fd ∧ loadedFor after.history = some fd ↔
      batches after.history = batches w.history := by
  rcases resumes with ⟨sameFd, sameLoaded, same⟩ | ⟨reset, more⟩
  · rw [sameFd, sameLoaded]
    exact iff_of_true ⟨currentFd, loaded⟩ same
  · apply iff_of_false
    · intro goesOn
      exact opened (goesOn.1.symm.trans reset)
    · exact Nat.ne_of_gt more

end Resumes

/-- The callbacks return to the event that is being handled, or have handled a
batch. -/
def Dispatch.Resuming (d : Dispatch β σ) : Prop :=
  ∀ callback fd arg, Within Resumes (d.invoke callback fd arg)

namespace EventManager

variable {d : Dispatch β σ}

theorem read_resumes (fd : Fd) :
    Within Resumes (read fd : EM β σ Bytes) := by
  apply within_get_bind
  intro w
  split
  · apply within_bind (within_modify fun _ => .of_eq rfl rfl)
    exact fun _ => within_pure _
  · apply within_bind (within_modify fun _ => .of_eq rfl rfl)
    intro _
    split
    · exact within_pure _
    · exact within_throw _

variable (resuming : d.Resuming)
include resuming

theorem call_resumes (handler : Handler β) (fd : Fd) (event : EventType)
    (cause : Cause) (arg : Arg) :
    Within Resumes (call d handler fd event cause arg) := by
  apply within_bind (within_modify fun _ => .log rfl rfl rfl)
  exact fun _ => resuming handler.callback fd arg

theorem afterUnwatch_resumes (fd : Fd) (callbacks : EventCB (Handler β))
    (noCallback : Bool) :
    Within Resumes (afterUnwatch d fd callbacks noCallback) := by
  have told : Within Resumes
      (modify (World.mapUser · (d.unwatched fd)) : EM β σ PUnit) :=
    within_modify fun _ => .of_eq rfl rfl
  unfold afterUnwatch
  split
  · apply within_bind (call_resumes resuming ..)
    exact fun _ => told
  · exact told

theorem unwatch_resumes (fd : Fd) (noCallback : Bool) :
    Within Resumes (unwatch d fd noCallback) := by
  apply within_get_bind
  intro w
  split
  · exact within_pure _
  · apply within_bind
    · apply within_modifyGet
      intro _
      exact .epollUpdate (.of_eq rfl rfl) fd _ true
    · intro removed
      split
      · apply within_bind (afterUnwatch_resumes resuming ..)
        exact fun _ => within_pure _
      · exact within_throw _

theorem endWatch_resumes (fd : Fd) (handler : Option (Handler β))
    (byClose : Bool) : Within Resumes (endWatch d fd handler byClose) := by
  apply within_bind (within_modify fun w => .beginEnd w fd handler byClose)
  exact fun _ => unwatch_resumes resuming fd false

theorem close_resumes (fd : Fd) (force : Bool) :
    Within Resumes (close d fd force) := by
  have finished : ∀ removed result : Bool, Within Resumes
      (do modify (World.finishEnd · removed); return result : EM β σ Bool) := by
    intro removed result
    apply within_bind (within_modify fun w => .finishEnd w removed)
    exact fun _ => within_pure _
  apply within_get_bind
  intro w
  apply within_bind (within_modify fun _ => .log rfl rfl rfl)
  intro _
  split
  · next handler _ =>
      apply within_bind (endWatch_resumes resuming ..)
      intro removed
      have called : Within Resumes
          (do
            call d handler fd .close .close .none
            modify (World.finishEnd · removed)
            return removed : EM β σ Bool) := by
        apply within_bind (call_resumes resuming ..)
        exact fun _ => finished removed removed
      dsimp only
      split
      · exact within_bind (within_modify fun _ => .log rfl rfl rfl)
          fun _ => called
      · exact called
  · apply within_bind (endWatch_resumes resuming ..)
    intro removed
    dsimp only
    split
    · exact within_bind (within_modify fun _ => .log rfl rfl rfl)
        fun _ => finished removed true
    · exact finished removed true

theorem closeEach_resumes (fds : List Fd) :
    Within Resumes (closeEach d fds) := by
  induction fds with
  | nil => exact within_pure _
  | cons fd rest induction =>
      apply within_bind (close_resumes resuming fd false)
      intro closed
      split
      · exact induction
      · exact within_throw _

theorem closeAll_resumes : Within Resumes (closeAll d) := by
  apply within_get_bind
  intro w
  apply within_bind (closeEach_resumes resuming _)
  exact fun _ => within_pure _

theorem settle_resumes (fd : Fd) (outcome : World.Outcome) :
    Within Resumes (settle d fd outcome) := by
  unfold settle
  split
  · exact within_pure _
  · apply within_bind (close_resumes resuming fd false)
    exact fun _ => within_pure _
  · exact within_pure _

theorem write_resumes (fd : Fd) (data : Bytes) :
    Within Resumes (write d fd data) := by
  apply within_bind
  · apply within_modifyGet
    intro w
    exact (Resumes.logRequest w fd data).trans (.submit _ fd data)
  · exact fun outcome => settle_resumes resuming fd outcome

theorem finishWriteBuf_resumes (fd : Fd) :
    Within Resumes (finishWriteBuf d fd) := by
  apply within_get_bind
  intro w
  split
  · exact within_pure _
  · next queued found =>
      apply within_bind
      · apply within_modifyGet
        intro w
        have taken : Resumes w (w.takeWriteBuf fd) := .of_eq rfl rfl
        exact taken.trans (.submit _ fd queued)
      · intro outcome
        apply within_bind (settle_resumes resuming fd outcome)
        intro size
        split
        · exact within_pure _
        · exact within_pure _

theorem connectStage_resumes (flags : Flags) :
    Within Resumes (connectStage d flags) := by
  apply within_get_bind
  intro w
  split
  · exact within_pure _
  · apply within_bind
    · apply within_modifyGet
      intro w
      obtain ⟨answers, asked⟩ := w.connectSucceeded_eq flags
      rw [asked]
      exact .of_eq rfl rfl
    · intro succeeded
      split
      · apply within_bind (within_modifyGet fun w => .handshake w w.currentFd)
        intro _
        apply within_bind (within_modify fun _ => .of_eq rfl rfl)
        intro _
        apply within_get_bind
        intro w
        apply within_bind (call_resumes resuming ..)
        exact fun _ => within_pure _
      · apply within_bind (within_modify fun _ => .of_eq rfl rfl)
        intro _
        apply within_get_bind
        intro w
        apply within_bind (unwatch_resumes resuming ..)
        intro _
        apply within_bind (within_modify fun _ => .log rfl rfl rfl)
        intro _
        apply within_get_bind
        intro w
        apply within_bind (call_resumes resuming ..)
        exact fun _ => within_pure _

theorem readStage_resumes (flags : Flags) :
    Within Resumes (readStage d flags) := by
  unfold readStage
  split
  · apply within_bind (within_modifyGet fun w => .handshake w w.currentFd)
    intro ready
    apply within_get_bind
    intro w
    split
    · split
      · apply within_bind (read_resumes _)
        exact fun message => call_resumes resuming ..
      · exact call_resumes resuming ..
    · exact within_pure _
  · exact within_pure _

theorem writeStage_resumes (flags : Flags) :
    Within Resumes (writeStage d flags) := by
  unfold writeStage
  split
  · apply within_get_bind
    intro w
    apply within_bind (finishWriteBuf_resumes resuming _)
    intro done
    split
    · apply within_get_bind
      intro w
      split
      · exact call_resumes resuming ..
      · apply within_modify
        intro w
        exact .epollUpdate (.of_eq rfl rfl) _ _ false
    · exact within_pure _
  · exact within_pure _

theorem errorStage_resumes (flags : Flags) :
    Within Resumes (errorStage d flags) := by
  unfold errorStage
  split
  · apply within_get_bind
    intro w
    split
    · apply within_bind (call_resumes resuming ..)
      exact fun _ => within_pure _
    · exact within_pure _
  · exact within_pure _

theorem closeStage_resumes (flags : Flags) :
    Within Resumes (closeStage d flags) := by
  have finished : ∀ removed : Bool, Within Resumes
      (modify (World.finishEnd · removed) : EM β σ PUnit) :=
    fun removed => within_modify fun w => .finishEnd w removed
  unfold closeStage
  split
  · apply within_get_bind
    intro w
    split
    · apply within_bind (endWatch_resumes resuming ..)
      intro removed
      dsimp only
      split
      · apply within_get_bind
        intro w
        apply within_bind (within_modify fun _ => .log rfl rfl rfl)
        intro _
        exact within_bind (call_resumes resuming ..) fun _ => finished removed
      · exact finished removed
    · apply within_bind (endWatch_resumes resuming ..)
      intro removed
      dsimp only
      split
      · apply within_get_bind
        intro w
        exact within_bind (within_modify fun _ => .log rfl rfl rfl)
          fun _ => finished removed
      · exact finished removed
  · exact within_pure _

end EventManager

/-- The loop of `handle_events` has handled no fewer batches than before. -/
def Later (w after : World β σ) : Prop :=
  batches w.history ≤ batches after.history

instance : IsPreorder (World β σ) Later where
  refl _ := Nat.le_refl _
  trans _ _ _ := Nat.le_trans

theorem Later.of_eq {w after : World β σ}
    (same : batches after.history = batches w.history) : Later w after :=
  Nat.le_of_eq same.symm

theorem later_of_resumes {α : Type} {computation : EM β σ α}
    (resumes : Within Resumes computation) : Within Later computation :=
  resumes.weaken Resumes.batches_le

namespace EventManager

variable {d : Dispatch β σ} (resuming : d.Resuming)
include resuming

theorem handleEvent_later (fd : Fd) (flags : Flags) :
    Within Later (handleEvent d fd flags) := by
  apply within_bind (within_modify fun _ => .of_eq rfl)
  intro _
  apply within_get_bind
  intro w
  split
  · exact within_pure _
  · apply within_bind (within_modify fun _ => .of_eq rfl)
    intro _
    apply within_bind (later_of_resumes (connectStage_resumes resuming flags))
    intro proceed
    split
    · apply within_bind (later_of_resumes (readStage_resumes resuming flags))
      intro _
      apply within_bind (later_of_resumes (writeStage_resumes resuming flags))
      intro _
      apply within_bind (later_of_resumes (errorStage_resumes resuming flags))
      exact fun raised => later_of_resumes (closeStage_resumes resuming raised)
    · exact within_pure _

theorem handleEach_later (events : List (Fd × Flags)) :
    Within Later (handleEach d events) := by
  induction events with
  | nil => exact within_pure _
  | cons event rest induction =>
      apply within_bind (handleEvent_later resuming event.1 event.2)
      exact fun _ => induction

theorem handleEvents_resumes (waited : Waited) :
    Within Resumes (handleEvents d waited) := by
  cases waited with
  | failed => exact within_throw _
  | interrupted => exact within_modify fun _ => .log rfl rfl rfl
  | events events =>
      constructor
      intro w
      apply returns_modify_bind
      apply returns_bind ((handleEach_later resuming events).returns _)
      intro _ between later
      apply returns_modify_bind
      apply returns_modify_bind
      apply returns_modify
      have left : Resumes w between.leave :=
        .inr ⟨rfl, Nat.lt_succ_of_le later⟩
      apply (left.trans (.flushCloseFds _ _)).trans
      exact .log rfl rfl rfl

theorem perform_resumes (op : Op β σ) : Within Resumes (perform d op) := by
  have returned : ∀ {α : Type} {computation : EM β σ α} {result : α → Int},
      Within Resumes computation →
      Within Resumes (do let value ← computation; return result value) := by
    intro α computation result within
    apply within_bind within
    exact fun _ => within_pure _
  cases op with
  | accept fd => exact returned (within_modify fun w => .acceptFd w fd)
  | watchEvent fd event callback et =>
      apply returned
      apply within_modifyGet
      intro w
      apply Resumes.epollUpdate
      exact .log rfl rfl rfl
  | watch fd callbacks reWatch et =>
      apply returned
      apply within_modifyGet
      intro w
      apply Resumes.epollUpdate
      exact .log rfl rfl rfl
  | autoRewatch fd et =>
      apply returned
      apply within_modifyGet
      intro w
      exact .epollUpdate (.of_eq rfl rfl) fd _ et
  | unwatch fd noCallback => exact returned (unwatch_resumes resuming ..)
  | close fd force => exact returned (close_resumes resuming ..)
  | closeAll => exact returned (closeAll_resumes resuming)
  | write fd data => exact write_resumes resuming fd data
  | handleEvents waited => exact returned (handleEvents_resumes resuming waited)
  | user change => exact returned (within_modify fun _ => .of_eq rfl rfl)

end EventManager

namespace App

/-- Callbacks that resume as soon as the callbacks they reach do. -/
def Resuming (app : App β σ) : Prop :=
  ∀ d : Dispatch β σ, d.Resuming → ∀ callback fd arg,
    Within Resumes (app.code d callback fd arg)

theorem Resuming.dispatch {app : App β σ} (resuming : app.Resuming)
    (depth : Nat) : (app.dispatch depth).Resuming := by
  induction depth with
  | zero => exact fun _ _ _ => within_throw _
  | succ depth induction => exact resuming _ induction

end App

end Universe
