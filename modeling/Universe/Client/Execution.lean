import Universe.Client
import Universe.EventManager.Execution

/-!
# Runs of a client

The methods of the client move by the steps of the event manager and by the
arrivals of descriptors.  The lambda of a connect to a host is only ever
invoked for its own placeholder, and it puts another connection there only
when no event that was reported for the placeholder is still to come.
-/

namespace Universe

open Relation (ReflTransGen)
open Stepwise

variable {κ σ : Type}

namespace Client

/-- The changes a client makes beside those of the event manager. -/
inductive Outside :
    World (ClientCB κ) σ → World (ClientCB κ) σ → Prop where
  | accept (w) (fd : Fd) : Outside w (w.acceptFd fd)
  | user (w) (change : σ → σ) : Outside w (w.mapUser change)
  | ssl (w) (fd : Fd) (connection : SSLConnection) :
      Outside w (w.setSsl fd connection)
  | closeSocket (w) (new : Fd) : Outside w (w.closeSocket new)
  | placed (w) (fd : Fd) : Outside w (w.log (.placed fd))
  | dup2 (w) (new fd : Fd) (reopenable : Reopenable fd w) :
      Outside w (w.dup2 new fd)

end Client

namespace Kernel.Sound

variable {kernel : Kernel} (sound : kernel.Sound)
include sound

theorem moveFd (source : Fd) {target : Fd} (nonneg : 0 ≤ target) :
    (kernel.moveFd source target).Sound := by
  constructor
  · intro other registered
    by_cases isSource : other = source
    · simp [Kernel.moveFd, isSource] at registered
    · by_cases isTarget : other = target
      · subst isTarget
        simp [Kernel.moveFd, Function.update_of_ne isSource] at registered
      · simp only [Kernel.moveFd, Function.update_of_ne isSource,
          Function.update_of_ne isTarget] at registered ⊢
        exact sound.registeredOpen other registered
  · intro other opened
    by_cases isSource : other = source
    · simp [Kernel.moveFd, isSource] at opened
    · by_cases isTarget : other = target
      · rw [isTarget]
        exact nonneg
      · simp only [Kernel.moveFd, Function.update_of_ne isSource,
          Function.update_of_ne isTarget] at opened
        exact sound.openNonneg other opened

end Kernel.Sound

namespace Kernel

theorem moveFd_conns {kernel : Kernel} {source target other : Fd}
    {conn : Conn} :
    (kernel.moveFd source target).conns other = some conn ↔
      other ≠ source ∧ (other = target ∧ kernel.conns source = some conn ∨
        other ≠ target ∧ kernel.conns other = some conn) := by
  by_cases isSource : other = source
  · simp [moveFd, isSource]
  · by_cases isTarget : other = target
    · subst isTarget
      simp [moveFd, isSource]
    · simp [moveFd, isSource, isTarget]

theorem Numbered.moveFd {kernel : Kernel} {source target : Fd}
    (numbered : kernel.Numbered) : (kernel.moveFd source target).Numbered := by
  constructor
  · intro other conn opened
    obtain ⟨-, ⟨-, opened⟩ | ⟨-, opened⟩⟩ := moveFd_conns.mp opened
    · exact numbered.known opened
    · exact numbered.known opened
  · intro first second conn firstOpened secondOpened
    obtain ⟨notFirst, firstOpened⟩ := moveFd_conns.mp firstOpened
    obtain ⟨notSecond, secondOpened⟩ := moveFd_conns.mp secondOpened
    rcases firstOpened with ⟨firstHere, firstOpened⟩ | ⟨-, firstOpened⟩
    · rcases secondOpened with ⟨secondHere, -⟩ | ⟨-, secondOpened⟩
      · rw [firstHere, secondHere]
      · exact absurd (numbered.distinct secondOpened firstOpened) notSecond
    · rcases secondOpened with ⟨-, secondOpened⟩ | ⟨-, secondOpened⟩
      · exact absurd (numbered.distinct firstOpened secondOpened) notFirst
      · exact numbered.distinct firstOpened secondOpened

end Kernel

namespace Client

theorem Outside.untouched {w after : World (ClientCB κ) σ}
    (change : Outside w after) : Untouched w after := by
  cases change with
  | accept fd => exact (Rules.Outside.accept w fd).untouched
  | user change => exact (Rules.Outside.user w change).untouched
  | ssl fd connection =>
      exact ⟨rfl, rfl, rfl, rfl, rfl, rfl, List.suffix_rfl, id⟩
  | closeSocket new =>
      unfold World.closeSocket
      split
      · next free =>
          exact ⟨rfl, rfl, rfl, rfl, rfl, rfl, List.suffix_rfl,
            fun sound => (sound.openFd free).closeFd new⟩
      · exact ⟨rfl, rfl, rfl, rfl, rfl, rfl, List.suffix_rfl, id⟩
  | placed fd =>
      exact ⟨rfl, rfl, rfl, rfl, rfl, rfl, List.suffix_cons _ _, id⟩
  | dup2 new fd reopenable =>
      unfold World.dup2
      split
      · next guard =>
          exact ⟨rfl, rfl, rfl, rfl, rfl, rfl, List.suffix_cons _ _,
            fun sound => (sound.openFd guard.1).moveFd new guard.2⟩
      · exact ⟨rfl, rfl, rfl, rfl, rfl, rfl, List.suffix_rfl, id⟩

/-- The lambda of a connect to a host belongs to its placeholder. -/
def Legit : ClientCB κ → Fd → Prop
  | .host _ _ placeholder, fd => placeholder = fd ∧ 0 ≤ fd
  | _, _ => True

def rules (nested : Prop) : Rules (ClientCB κ) σ :=
  { legit := Legit
    nested := nested
    outside := Outside
    untouched := Outside.untouched }

section Dialing

variable {calling : Rules (ClientCB κ) σ} {w : World (ClientCB κ) σ}

theorem nextNumber_runs :
    Runs (Step calling) (nextNumber : EM (ClientCB κ) σ Fd) w
      (fun number after => after.kernel.Free number ∧
        ∃ answers, after = w.setAnswers answers) := by
  refine runs_get_bind ?_
  split
  · exact runs_throw
  · refine runs_modify_bind (.single (.answers _)) ?_
    split
    · next free => exact runs_pure ⟨free, _, rfl⟩
    · exact runs_throw

theorem sysConnect_runs :
    Runs (Step calling) (sysConnect : EM (ClientCB κ) σ ConnectStatus) w
      (fun _ after => ∃ answers, after = w.setAnswers answers) := by
  refine runs_get_bind ?_
  split
  · exact runs_pure ⟨w.kernel.answers, rfl⟩
  · exact runs_modify_bind (.single (.answers _)) (runs_pure ⟨_, rfl⟩)

/-- The blocking connect opens a number that was free, or fails. -/
theorem dial_opens
    (accepts : ∀ before fd, calling.outside before (before.acceptFd fd))
    (closes : ∀ before fd, calling.outside before (before.closeSocket fd)) :
    Runs (Step calling) (dial : EM (ClientCB κ) σ Int) w
      (fun s after => Kept calling w after ∧
        (s = -1 ∨ ∃ answers,
          (w.setAnswers answers).kernel.Free s ∧
            after = (w.setAnswers answers).acceptFd s)) := by
  refine runs_bind nextNumber_runs ?_
  rintro number numbered - ⟨free, answers, rfl⟩
  refine runs_bind sysConnect_runs ?_
  rintro status asked - ⟨answers, rfl⟩
  have kept : Kept calling w (w.setAnswers answers) := .of_eq rfl rfl rfl rfl
  have closed : Runs (Step calling)
      (do
        modify (World.closeSocket · number)
        return -1 : EM (ClientCB κ) σ Int) (w.setAnswers answers)
      (fun s after => Kept calling w after ∧
        (s = -1 ∨ ∃ answers,
          (w.setAnswers answers).kernel.Free s ∧
            after = (w.setAnswers answers).acceptFd s)) := by
    have change := closes (w.setAnswers answers) number
    refine runs_modify_bind (.single (.outside change)) (runs_pure ?_)
    exact ⟨kept.trans (.outside change), .inl rfl⟩
  cases status with
  | connected =>
      have change := accepts (w.setAnswers answers) number
      refine runs_modify_bind (.single (.outside change)) (runs_pure ?_)
      exact ⟨kept.trans (.outside change), .inr ⟨answers, free, rfl⟩⟩
  | inProgress => exact closed
  | failed => exact closed

end Dialing

variable {nested : Prop} {w : World (ClientCB κ) σ}

theorem map_user_connect {callbacks : EventCB κ} {callback : ClientCB κ}
    (found : callbacks.map .user .connect = some callback) (fd : Fd) :
    (rules nested : Rules (ClientCB κ) σ).legit callback fd := by
  simp only [EventCB.map, Option.map_eq_some_iff] at found
  obtain ⟨own, -, rfl⟩ := found
  trivial

variable {d : Dispatch (ClientCB κ) σ}

theorem fresh_acceptFd {fd : Fd} (free : w.kernel.Free fd) :
    fresh fd (w.acceptFd fd).history := by
  simp [World.acceptFd, free, World.log, fresh, sinceBatch]

theorem fresh_dup2 {new fd : Fd} (free : w.kernel.Free new) (nonneg : 0 ≤ fd) :
    fresh fd (w.dup2 new fd).history := by
  simp [World.dup2, free, nonneg, World.log, fresh, sinceBatch]

/-- A new socket, on a number where no reported event can reach it. -/
theorem openOn_runs (fd : Fd) (reopenable : fd ≠ -1 → Reopenable fd w) :
    Runs (Step (rules nested)) (openOn fd : EM (ClientCB κ) σ Fd) w
      (fun s after => Kept (rules nested) w after ∧ fresh s after.history ∧
        0 ≤ s ∧ (fd ≠ -1 → s = fd)) := by
  refine runs_bind nextNumber_runs ?_
  rintro number between - ⟨free, answers, rfl⟩
  have kept : Kept (rules nested) w (w.setAnswers answers) :=
    .of_eq rfl rfl rfl rfl
  split
  · next automatic =>
      have change : Outside (w.setAnswers answers)
          ((w.setAnswers answers).acceptFd number) := .accept _ number
      refine runs_modify_bind (.single (.outside change)) (runs_pure ?_)
      exact ⟨kept.trans (.outside change), fresh_acceptFd free, free.1,
        fun different => absurd automatic different⟩
  · next placed =>
      split
      · next nonneg =>
          have change : Outside (w.setAnswers answers)
              ((w.setAnswers answers).dup2 number fd) :=
            .dup2 _ number fd (reopenable placed)
          refine runs_modify_bind (.single (.outside change)) (runs_pure ?_)
          exact ⟨kept.trans (.outside change), fresh_dup2 free nonneg, nonneg,
            fun _ => rfl⟩
      · exact runs_throw

theorem watchRest_runs (callbacks : EventCB (ClientCB κ)) (fd : Fd)
    (reWatch : Bool) :
    Runs (Step (rules nested)) (watchRest callbacks fd reWatch) w
      (fun _ after => Kept (rules nested) w after) := by
  unfold watchRest
  dsimp only
  split
  · exact runs_pure (.refl w)
  · refine runs_modifyGet_bind (.single (.watch fd _ reWatch true ?_))
      (runs_pure (.watch fd _ reWatch true))
    intro callback found
    simp [EventCB.erase] at found

section Methods

variable (moves : Moves (rules nested) d)
include moves

theorem invoke_user_runs (callback : κ) {fd : Fd}
    {outcome : ConnectResult} (base : Base (rules nested) w)
    (reopenable : outcome = .ng → 0 ≤ fd → Reopenable fd w) :
    Runs (Step (rules nested)) (d.invoke (.user callback) fd (.result outcome)) w
      (fun _ after => Kept (rules nested) w after) := by
  refine moves.invoke _ base ?_
  cases outcome with
  | ok => trivial
  | ng => exact ⟨trivial, reopenable rfl⟩
  | gameOver => trivial

theorem notify_runs (callbacks : EventCB κ) {fd : Fd}
    {outcome : ConnectResult} (base : Base (rules nested) w)
    (reopenable : outcome = .ng → 0 ≤ fd → Reopenable fd w) :
    Runs (Step (rules nested)) (notify d .user callbacks fd outcome) w
      (fun _ after => Kept (rules nested) w after) := by
  unfold notify
  split
  · exact invoke_user_runs moves _ base reopenable
  · exact runs_throw

theorem notifyAny_runs (callbacks : EventCB κ) {fd : Fd}
    {outcome : ConnectResult} (base : Base (rules nested) w)
    (reopenable : outcome = .ng → 0 ≤ fd → Reopenable fd w) :
    Runs (Step (rules nested)) (notifyAny d callbacks fd outcome) w
      (fun _ after => Kept (rules nested) w after) := by
  unfold notifyAny
  split
  · exact invoke_user_runs moves _ base reopenable
  · exact runs_pure (.refl w)

/-- Without callback `unwatch` leaves the history alone. -/
theorem unwatch_fresh {s : Fd} (isFresh : fresh s w.history) :
    Runs (Step (rules nested)) (EventManager.unwatch d s true) w
      (fun _ after => Kept (rules nested) w after ∧
        fresh s after.history) := by
  refine runs_get_bind ?_
  split
  · exact runs_pure ⟨.refl w, isFresh⟩
  · next callbacks registered =>
      have contained : w.fds.contains s = true := by
        simp [← Std.ExtTreeMap.isSome_getElem?_eq_contains, registered]
      refine runs_modifyGet_bind 
        (.single (.unregister s contained (.inl trivial))) ?_
      split
      · have change := moves.unwatched s (w.unregister s).2
        have kept : Kept (rules nested) w (w.unregister s).2 := .unregister s
        have told : (EventManager.afterUnwatch d s callbacks true) =
            (modify (World.mapUser · (d.unwatched s)) :
              EM (ClientCB κ) σ PUnit) := by
          unfold EventManager.afterUnwatch
          split
          · next impossible => cases impossible
          · rfl
        rw [told]
        exact runs_modify_bind (.single (.outside change))
          (runs_pure ⟨kept.trans (.outside change), isFresh⟩)
      · exact runs_throw

/-- `connect` on a number of its own or on a given one. -/
theorem connectOn_runs (callbacks : EventCB (ClientCB κ)) (fd : Fd)
    (base : Base (rules nested) w)
    (reopenable : fd ≠ -1 → Reopenable fd w)
    (legit : ∀ {callback s}, callbacks .connect = some callback → 0 ≤ s →
      (fd ≠ -1 → s = fd) →
      (rules nested : Rules (ClientCB κ) σ).legit callback s) :
    Runs (Step (rules nested)) (connectOn d callbacks fd) w
      (fun _ after => Kept (rules nested) w after) := by
  refine runs_bind (openOn_runs fd reopenable) ?_
  rintro s opened steps ⟨kept, isFresh, nonneg, same⟩
  have base := base.steps steps
  refine runs_bind sysConnect_runs ?_
  rintro status asked steps ⟨answers, rfl⟩
  have base := base.steps steps
  have kept := kept.trans
    (Kept.of_eq rfl rfl rfl rfl : Kept _ opened (opened.setAnswers answers))
  have isFresh : fresh s (opened.setAnswers answers).history := isFresh
  generalize opened.setAnswers answers = asked at base kept isFresh ⊢
  refine runs_get_bind ?_
  have told : ∀ {before : World (ClientCB κ) σ} {outcome : ConnectResult},
      Base (rules nested) before → fresh s before.history →
      Kept (rules nested) w before →
      Runs (Step (rules nested)) (notify d id callbacks s outcome) before
        (fun _ after => Kept (rules nested) w after) := by
    intro before outcome base isFresh kept
    unfold notify
    split
    · next callback found =>
        have own := legit found nonneg same
        refine (moves.invoke _ base ?_).weaken
          fun _ _ _ later => kept.trans later
        cases outcome with
        | ok => exact own
        | ng => exact ⟨own, fun _ => .inl isFresh⟩
        | gameOver => exact own
    · exact runs_throw
  have failed : Runs (Step (rules nested))
      (do
        let _ ← EventManager.unwatch d s true
        notify d id callbacks s .ng
        return -1 : EM (ClientCB κ) σ Int) asked
      (fun _ after => Kept (rules nested) w after) := by
    refine runs_bind (unwatch_fresh moves isFresh) ?_
    rintro _ between steps ⟨unwatched, isFresh⟩
    refine runs_bind
      (told (base.steps steps) isFresh (kept.trans unwatched)) ?_
    intro _ after _ kept
    exact runs_pure kept
  split
  · exact failed
  · exact failed
  · refine runs_bind (told base isFresh kept) ?_
    intro _ between _ kept
    refine runs_bind (watchRest_runs callbacks s true) ?_
    intro _ after _ watched
    exact runs_pure (kept.trans watched)
  · refine runs_modifyGet_bind (.single (.watch s callbacks true true ?_))
      (runs_pure (kept.trans (.watch s callbacks true true)))
    intro callback found
    exact legit found nonneg same

theorem addressConnected_runs (callbacks : EventCB κ) (fd : Fd)
    (outcome : ConnectResult) (base : Base (rules nested) w)
    (reopenable : outcome = .ng → 0 ≤ fd → Reopenable fd w) :
    Runs (Step (rules nested)) (addressConnected d callbacks fd outcome) w
      (fun _ after => Kept (rules nested) w after) := by
  refine runs_bind (notify_runs moves callbacks base reopenable) ?_
  intro _ between steps kept
  have closed : Runs (Step (rules nested))
      (do
        let _ ← EventManager.close d fd true
        pure () : EM (ClientCB κ) σ Unit) between
      (fun _ after => Kept (rules nested) w after) := by
    refine runs_bind
      (EventManager.close_runs moves fd true (base.steps steps)) ?_
    intro _ after _ closeKept
    exact runs_pure (kept.trans closeKept)
  cases outcome with
  | ok =>
      refine (watchRest_runs (callbacks.map .user) fd false).weaken ?_
      intro _ after _ watched
      exact kept.trans watched
  | ng => exact closed
  | gameOver => exact closed

theorem connectFail_runs (callbacks : EventCB κ) (placeholder fd : Fd)
    (outcome : ConnectResult) (base : Base (rules nested) w)
    (reopenable : outcome = .ng → 0 ≤ fd → Reopenable fd w) :
    Runs (Step (rules nested))
      (connectFail d callbacks placeholder fd outcome) w
      (fun _ after => Kept (rules nested) w after) := by
  refine runs_bind (notify_runs moves callbacks base reopenable) ?_
  intro _ between steps kept
  refine runs_bind
    (EventManager.close_runs moves placeholder true (base.steps steps)) ?_
  intro _ after _ closed
  exact runs_pure (kept.trans closed)

/-- The lambda of a connect to a host, invoked for its placeholder. -/
theorem hostConnected_runs (callbacks : EventCB κ) (remaining : List Address)
    {fd : Fd} (isPlaceholder : 0 ≤ fd) (outcome : ConnectResult)
    (base : Base (rules nested) w)
    (reopenable : outcome = .ng → 0 ≤ fd → Reopenable fd w) :
    Runs (Step (rules nested))
      (hostConnected d callbacks remaining fd fd outcome) w
      (fun _ after => Kept (rules nested) w after) := by
  cases outcome with
  | gameOver => exact connectFail_runs moves callbacks fd fd _ base reopenable
  | ok =>
      refine runs_bind (notify_runs moves callbacks base reopenable) ?_
      intro _ between _ kept
      refine (watchRest_runs (callbacks.map .user) fd false).weaken ?_
      intro _ after _ watched
      exact kept.trans watched
  | ng =>
      cases remaining with
      | nil => exact connectFail_runs moves callbacks fd fd _ base reopenable
      | cons address later =>
          refine runs_bind (connectOn_runs moves _ fd base
            (fun _ => reopenable rfl isPlaceholder) ?_) ?_
          · intro callback s found nonneg same
            have placed : fd ≠ -1 := by
              rintro rfl
              exact absurd isPlaceholder (by decide)
            simp only [onConnect, EventCB.set, Function.update_self,
              Option.some.injEq] at found
            rw [← found]
            exact ⟨(same placed).symm, nonneg⟩
          · intro _ after _ kept
            exact runs_pure kept

theorem connectAddress_runs (callbacks : EventCB κ)
    (base : Base (rules nested) w) :
    Runs (Step (rules nested)) (connectAddress d callbacks) w
      (fun _ after => Kept (rules nested) w after) := by
  refine connectOn_runs moves _ (-1) base (fun different => absurd rfl different) ?_
  intro callback s found _ _
  simp only [onConnect, EventCB.set, Function.update_self,
    Option.some.injEq] at found
  rw [← found]
  trivial

theorem connectHost_runs (addresses : List Address) (callbacks : EventCB κ)
    (ssl : Option Bool) (base : Base (rules nested) w) :
    Runs (Step (rules nested)) (connectHost d addresses callbacks ssl) w
      (fun _ after => Kept (rules nested) w after) := by
  cases addresses with
  | nil => exact runs_throw
  | cons address remaining =>
      refine runs_bind (openOn_runs (-1) fun different => absurd rfl different) ?_
      rintro s opened steps ⟨kept, isFresh, nonneg, -⟩
      have base := base.steps steps
      have placed : s ≠ -1 := by
        rintro rfl
        exact absurd nonneg (by decide)
      -- With or without TLS the first address is tried on the placeholder.
      have tried : ∀ {ready : World (ClientCB κ) σ}, Base (rules nested) ready →
          fresh s ready.history → Kept (rules nested) w ready →
          Runs (Step (rules nested))
            (do
              let _ ← connectOn d (onConnect (.host callbacks remaining s)) s
              return s : EM (ClientCB κ) σ Int) ready
            (fun _ after => Kept (rules nested) w after) := by
        intro ready base isFresh kept
        refine runs_bind (connectOn_runs moves _ s base
          (fun _ => .inl isFresh) ?_) ?_
        · intro callback number found nonneg same
          simp only [onConnect, EventCB.set, Function.update_self,
            Option.some.injEq] at found
          rw [← found]
          exact ⟨(same placed).symm, nonneg⟩
        · intro _ after _ connected
          exact runs_pure (kept.trans connected)
      cases ssl with
      | none => exact tried base isFresh kept
      | some initialized =>
          cases initialized with
          | true =>
              have change : Outside opened (opened.setSsl s {}) := .ssl _ s {}
              exact runs_modify_bind (.single (.outside change))
                (tried (base.step (.outside change)) isFresh
                  (kept.trans (.outside change)))
          | false =>
              refine runs_bind (EventManager.close_runs moves s true base) ?_
              intro _ closed steps closeKept
              refine runs_bind (notify_runs moves callbacks
                (base.steps steps) ?_) ?_
              · intro _ nonneg
                exact absurd nonneg (by decide)
              · intro _ after _ told
                exact runs_pure (kept.trans (closeKept.trans told))

omit moves in
theorem dial_runs :
    Runs (Step (rules nested)) (dial : EM (ClientCB κ) σ Int) w
      (fun s after => Kept (rules nested) w after ∧
        (0 ≤ s → fresh s after.history)) := by
  refine (dial_opens Outside.accept Outside.closeSocket).weaken ?_
  rintro s after - ⟨kept, rfl | ⟨answers, free, rfl⟩⟩
  · exact ⟨kept, fun nonneg => absurd nonneg (by decide)⟩
  · exact ⟨kept, fun _ => fresh_acceptFd free⟩

theorem connectNow_runs (callbacks : EventCB κ)
    (base : Base (rules nested) w) :
    Runs (Step (rules nested)) (connectNow d callbacks) w
      (fun _ after => Kept (rules nested) w after) := by
  refine runs_bind dial_runs ?_
  rintro s dialed steps ⟨kept, isFresh⟩
  have base := base.steps steps
  refine runs_bind (notifyAny_runs moves callbacks base
    fun _ nonneg => .inl (isFresh nonneg)) ?_
  intro _ between _ told
  have kept := kept.trans told
  split
  · exact runs_pure kept
  · refine runs_bind (watchRest_runs (callbacks.map .user) s false) ?_
    intro _ after _ watched
    exact runs_pure (kept.trans watched)

theorem connectEach_runs (callbacks : EventCB κ) (addresses : List Address)
    (base : Base (rules nested) w) :
    Runs (Step (rules nested)) (connectEach d callbacks addresses) w
      (fun _ after => Kept (rules nested) w after) := by
  induction addresses generalizing w with
  | nil =>
      refine runs_bind (notifyAny_runs moves callbacks base
        fun _ nonneg => absurd nonneg (by decide)) ?_
      intro _ after _ kept
      exact runs_pure kept
  | cons address rest induction =>
      refine runs_bind (connectNow_runs moves callbacks base) ?_
      intro s between steps kept
      split
      · exact runs_pure kept
      · refine (induction (base.steps steps)).weaken ?_
        intro _ after _ restKept
        exact kept.trans restKept

theorem connectHostNow_runs (addresses : List Address) (callbacks : EventCB κ)
    (base : Base (rules nested) w) :
    Runs (Step (rules nested)) (connectHostNow d addresses callbacks) w
      (fun _ after => Kept (rules nested) w after) := by
  unfold connectHostNow
  split
  · exact runs_pure (.refl w)
  · exact connectEach_runs moves callbacks _ base

end Methods

end Client

/-- The operation does not call `handle_events`. -/
def ClientOp.Flat : ClientOp κ σ → Prop
  | .manager op => op.Flat
  | _ => True

namespace Client

variable {nested : Prop} {w : World (ClientCB κ) σ}
  {d : Dispatch (ClientCB κ) σ}

/-- What the caller of a client does itself is within the rules. -/
theorem map_allowed (op : Op κ σ) :
    (op.map .user).Allowed (rules nested : Rules (ClientCB κ) σ) := by
  cases op with
  | accept fd => exact fun w => .accept w fd
  | user change => exact fun w => .user w change
  | watchEvent fd event callback et => exact fun _ => trivial
  | watch fd callbacks reWatch et =>
      exact fun callback found => map_user_connect found fd
  | _ => trivial

theorem map_flat {op : Op κ σ} (flat : op.Flat) :
    (op.map .user : Op (ClientCB κ) σ).Flat := by
  cases op <;> exact flat

variable (moves : Moves (rules nested) d)
include moves

theorem perform_runs (op : ClientOp κ σ) (flat : nested ∨ op.Flat)
    (base : Base (rules nested) w) :
    Runs (Step (rules nested)) (perform d op) w
      (fun _ after => Kept (rules nested) w after) := by
  cases op with
  | manager op =>
      exact EventManager.perform_runs moves (op.map .user)
        (flat.imp_right map_flat) (map_allowed op) base
  | connectHost addresses callbacks ssl =>
      exact connectHost_runs moves addresses callbacks ssl base
  | connectAddress address callbacks =>
      exact connectAddress_runs moves callbacks base
  | connectOn address callbacks fd =>
      have change : Outside w (w.log (.placed fd)) := .placed w fd
      refine runs_modify_bind (.single (.outside change)) ?_
      have claims : claimed fd (w.log (.placed fd)).history := by
        simp [World.log, claimed, sinceBatch]
      refine (connectOn_runs moves (callbacks.map .user) fd
        (base.step (.outside change)) (fun _ => .inr (.inl claims)) ?_).weaken ?_
      · intro callback s found _ _
        exact map_user_connect found s
      · intro _ after _ kept
        exact Kept.trans (.outside change) kept
  | dial address => exact dial_runs.weaken fun _ _ _ dialed => dialed.1
  | connectNow address callbacks => exact connectNow_runs moves callbacks base
  | connectHostNow addresses callbacks =>
      exact connectHostNow_runs moves addresses callbacks base

theorem perform_top_runs (op : ClientOp κ σ) (base : Base (rules nested) w)
    (top : Top w) :
    Runs (Step (rules nested)) (perform d op) w (fun _ after => Top after) := by
  by_cases flat : op.Flat
  · refine (perform_runs moves op (.inr flat) base).weaken ?_
    intro _ after _ kept
    exact top.kept kept
  · cases op with
    | manager op =>
        exact EventManager.perform_top_runs moves (op.map .user) (map_allowed op)
          base top
    | _ => exact absurd trivial flat

omit moves in
theorem app_moves
    (body : κ → Fd → Arg → World (ClientCB κ) σ → ClientProgram κ σ)
    (wantMessage : κ → Bool) (unwatched : Fd → σ → σ)
    (flat : nested ∨ ∀ callback fd arg w,
      (body callback fd arg w).Forall ClientOp.Flat) :
    (app body wantMessage unwatched).Moves (rules nested) := by
  refine ⟨?_, fun fd w => .user w _⟩
  intro d moves callback fd w arg base expected
  cases callback with
  | user callback =>
      refine runs_get_bind ?_
      refine (Script.runs (fun middle =>
        Base (rules nested) middle ∧ Kept (rules nested) w middle) ?_
        (body callback fd arg w) (?_ : Script.Forall
          (fun op => nested ∨ op.Flat) _) ⟨base, .refl w⟩).weaken
          fun _ _ _ restored => restored.2
      · rintro op middle flat ⟨base, kept⟩
        refine (perform_runs moves op flat base).weaken ?_
        intro _ after steps opKept
        exact ⟨base.steps steps, kept.trans opKept⟩
      · rcases flat with nested | flat
        · exact Script.forall_of_all (fun _ => .inl nested) _
        · exact (flat callback fd arg w).weaken fun _ => .inr
  | address callbacks =>
      cases arg with
      | none => exact runs_throw
      | message bytes => exact runs_throw
      | result outcome =>
          refine addressConnected_runs moves callbacks fd outcome base ?_
          rintro rfl
          exact expected.2
  | host callbacks remaining placeholder =>
      cases arg with
      | none => exact runs_throw
      | message bytes => exact runs_throw
      | result outcome =>
          have own : placeholder = fd ∧ 0 ≤ fd := by
            cases outcome with
            | ng => exact expected.1
            | ok => exact expected
            | gameOver => exact expected
          obtain ⟨rfl, nonneg⟩ := own
          refine hostConnected_runs moves callbacks remaining nonneg outcome
            base ?_
          rintro rfl
          exact expected.2

end Client

/-- A run of `program` on a fresh client, under callbacks with the given
bodies that nest at most `depth` deep. -/
structure ClientRun (κ σ : Type) where
  body : κ → Fd → Arg → World (ClientCB κ) σ → ClientProgram κ σ
  wantMessage : κ → Bool
  unwatched : Fd → σ → σ
  depth : Nat
  program : ClientProgram κ σ
  user : σ
  answers : Answers

namespace ClientRun

variable (run : ClientRun κ σ)

@[irreducible] def result :
    EStateM.Result Stop (World (ClientCB κ) σ) Unit :=
  run.program.run .exit (Client.perform
    ((Client.app run.body run.wantMessage run.unwatched).dispatch run.depth))
    (World.init run.user run.answers)

/-- The state in which the run ended. -/
def last : World (ClientCB κ) σ := final run.result

def history : List (Event (ClientCB κ)) := run.last.history

/-- No callback calls `handle_events`. -/
def Flat : Prop :=
  ∀ callback fd arg w, (run.body callback fd arg w).Forall ClientOp.Flat

theorem runs (nested : Prop) (flat : nested ∨ run.Flat) :
    Runs (Step (Client.rules nested))
      (run.program.run .exit (Client.perform
        ((Client.app run.body run.wantMessage run.unwatched).dispatch
          run.depth)))
      (World.init run.user run.answers)
      (fun _ after => Base (Client.rules nested) after ∧ Top after) := by
  have moves := (Client.app_moves run.body run.wantMessage run.unwatched
    flat).dispatch run.depth
  refine Script.runs _ ?_ run.program
    (Script.forall_of_all (fun _ => trivial) run.program)
    ⟨Base.init run.user run.answers, rfl, rfl⟩
  rintro op middle - ⟨base, top⟩
  refine (Client.perform_top_runs moves op base top).weaken ?_
  intro _ after steps top
  exact ⟨base.steps steps, top⟩

/-- What every step preserves as long as the events so far have met a
condition holds in the last state of every run. -/
theorem conditional (nested : Prop) (flat : nested ∨ run.Flat)
    {condition : Event (ClientCB κ) → List (Event (ClientCB κ)) → Prop}
    (met : History.Always condition run.history)
    (holds : World (ClientCB κ) σ → Prop)
    (start : ∀ user answers, holds (World.init user answers))
    (preserved : ∀ {w after}, Base (Client.rules nested) w →
      History.Always condition after.history → holds w →
      Step (Client.rules nested) w after → holds after) : holds run.last := by
  have together : ∀ w after : World (ClientCB κ) σ,
      Base (Client.rules nested) w ∧
        (History.Always condition w.history → holds w) →
      Step (Client.rules nested) w after →
      Base (Client.rules nested) after ∧
        (History.Always condition after.history → holds after) := by
    rintro w after ⟨base, before⟩ step
    refine ⟨base.step step, fun met => ?_⟩
    exact preserved base met (before (met.of_suffix step.suffix)) step
  have reached := invariant_of_steps together (run.runs nested flat).steps
    ⟨Base.init run.user run.answers, fun _ => start run.user run.answers⟩
  unfold history last result at met
  unfold last result
  exact reached.2 met

end ClientRun

end Universe
