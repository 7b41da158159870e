import Universe.EventManager.Traffic

/-!
# What reaches the kernel

Every byte offered to `::write` on a connection was asked for on that
connection, and none is lost or sent twice, unless the write buffer outlives
its connection or is thrown away by `close`.
-/

namespace Universe

open Std (ExtTreeMap)
open History (Always)
open Stepwise (final)

variable {β σ : Type}

section Isolation

/-- What has been taken and what is offered now begins what was asked for on
the same connection. -/
def OffersOwn : Event β → List (Event β) → Prop
  | .sysWrite conn offered _, past =>
      sent conn past ++ offered <+: requested conn past
  | _, _ => True

/-- `::close` finds no bytes in `_write_buf`, and nobody writes on a
connection that has lost bytes. -/
def Careful : Event β → List (Event β) → Prop
  | .sysClose _ _ queued, _ => queued = none
  | .requested (some conn) _, past => ¬ Dropped conn past
  | _, _ => True

instance (event : Event β) (past : List (Event β)) :
    Decidable (OffersOwn event past) :=
  match event with
  | .sysWrite .. => inferInstanceAs (Decidable (_ <+: _))
  | .opened .. | .requested .. | .stored .. | .watched .. | .closing ..
  | .ending .. | .released .. | .ended | .invoked .. | .sysClose ..
  | .batch .. | .entered .. | .refused | .left | .handled .. | .placed .. =>
      .isTrue trivial

instance (event : Event β) (past : List (Event β)) :
    Decidable (Careful event past) :=
  match event with
  | .sysClose .. => inferInstanceAs (Decidable (_ = _))
  | .requested (some _) _ => inferInstanceAs (Decidable (¬ _))
  | .opened .. | .requested none _ | .sysWrite .. | .stored .. | .watched ..
  | .closing .. | .ending .. | .released .. | .ended | .invoked ..
  | .batch .. | .entered .. | .refused | .left | .handled .. | .placed .. =>
      .isTrue trivial

/-- The write buffers of a careful run belong to open connections that have
lost nothing. -/
structure Clean (w : World β σ) : Prop where
  closed : ∀ fd, w.kernel.conns fd = none → w.writeBuf[fd]? = none
  dropped : ∀ fd conn, w.kernel.conns fd = some conn →
    Dropped conn w.history → w.writeBuf[fd]? = none
  inherited : ∀ conn, inherited conn w.history = []
  offers : Always OffersOwn w.history

namespace Clean

variable {w after : World β σ} {fd : Fd} {data : Bytes}

theorem of_quiet (clean : Clean w) (quiet : Quiet w after) : Clean after := by
  constructor
  · rw [quiet.conns, quiet.writeBuf]
    exact clean.closed
  · intro fd conn
    rw [quiet.conns, quiet.writeBuf, quiet.dropped_iff]
    exact clean.dropped fd conn
  · intro conn
    rw [quiet.inherited_eq]
    exact clean.inherited conn
  · obtain ⟨events, history, allQuiet⟩ := quiet.history
    rw [history]
    clear history
    induction events with
    | nil => exact clean.offers
    | cons event events induction =>
        have eventQuiet := allQuiet event (by simp)
        refine ⟨?_, induction fun earlier member =>
          allQuiet earlier (by simp [member])⟩
        cases event <;> trivial

/-- Inside the loop of `write` on a connection that has lost nothing. -/
structure Offering (fd : Fd) (conn : Conn) (rest : Bytes) (w : World β σ) :
    Prop where
  ledger : Ledger w (Function.update w.queued fd rest)
  clean : Clean w
  missing : w.writeBuf[fd]? = none
  opened : w.kernel.conns fd = some conn
  kept : ¬ Dropped conn w.history

theorem Offering.offers {conn : Conn} {rest : Bytes}
    (offering : Offering fd conn rest w) :
    sent conn w.history ++ rest <+: requested conn w.history := by
  have balance := offering.ledger.balance fd conn offering.opened offering.kept
  rw [offering.clean.inherited, List.nil_append, Function.update_self] at balance
  exact balance ▸ List.prefix_rfl

/-- One `::write`: the buffers stay as they are. -/
theorem sysWrite {conn : Conn} {rest : Bytes}
    (offering : Offering fd conn rest w) (result : WriteResult) :
    Clean (w.log (.sysWrite conn rest result)) := by
  refine ⟨offering.clean.closed, ?_, offering.clean.inherited,
    offering.offers, offering.clean.offers⟩
  intro other another openedAt dropped
  simp only [World.log, dropped_cons] at dropped openedAt
  by_cases here : other = fd
  · rw [here]
    exact offering.missing
  · refine offering.clean.dropped other another openedAt ?_
    refine dropped.resolve_left ?_
    intro drops
    have same : another = conn := by
      cases result <;> simp_all [Drops]
    subst same
    exact here (offering.ledger.numbered.distinct openedAt offering.opened)

theorem loopRule (fd : Fd) (conn : Conn) :
    World.LoopRule fd conn (Offering (β := β) (σ := σ) fd conn) Clean := by
  refine ⟨?_, ?_, ?_, ?_⟩
  · intro rest extra w _ offering
    refine ⟨offering.ledger.sysWrite offering.opened _ _ (.inl (by simp [sent])),
      sysWrite offering _, offering.missing, offering.opened, ?_⟩
    simpa [World.log, dropped_cons, Drops] using offering.kept
  · intro rest extra answers w _ offering
    exact (sysWrite offering _).of_quiet (.silent rfl rfl rfl rfl rfl)
  · intro rest answers w offering
    have tried := sysWrite offering .again
    rw [World.appendWriteBuf_of_none _ _ (by exact offering.missing)]
    refine of_quiet ?_ (Quiet.epollUpdate (.refl _) ..)
    refine ⟨?_, ?_, tried.inherited, tried.offers⟩
    · intro other notOpen
      have different : fd ≠ other := by
        rintro rfl
        simp [World.setAnswers, World.log, offering.opened] at notOpen
      simpa [World.setAnswers, World.log, ExtTreeMap.getElem?_insert,
        different] using tried.closed other notOpen
    · intro other another openedAt dropped
      have different : fd ≠ other := by
        rintro rfl
        have same : conn = another :=
          Option.some.inj (offering.opened.symm.trans openedAt)
        subst same
        simp only [World.setAnswers, World.log, dropped_cons, Drops,
          false_or] at dropped
        exact offering.kept dropped
      simpa [World.setAnswers, World.log, ExtTreeMap.getElem?_insert,
        different] using tried.dropped other another openedAt dropped
  · intro rest errno answers w offering
    exact (sysWrite offering _).of_quiet (.silent rfl rfl rfl rfl rfl)

theorem submit (balanced : Ledger w
      (Function.update w.queued fd (w.queued fd ++ data)))
    (clean : Clean w)
    (kept : ∀ conn, w.kernel.conns fd = some conn → ¬ Dropped conn w.history) :
    Clean (w.submit fd data).2 := by
  refine World.submit_cases w data ?_ ?_ ?_ ?_
  · intro secured
    simp [balanced.plainText] at secured
  · intro queued found
    refine ⟨?_, ?_, clean.inherited, clean.offers⟩
    · intro other notOpen
      have different : fd ≠ other := by
        rintro rfl
        simp [clean.closed fd notOpen] at found
      simpa [ExtTreeMap.getElem?_insert, different] using
        clean.closed other notOpen
    · intro other conn opened dropped
      have different : fd ≠ other := by
        rintro rfl
        exact kept conn opened dropped
      simpa [ExtTreeMap.getElem?_insert, different] using
        clean.dropped other conn opened dropped
  · intro missing notOpen
    exact clean
  · intro conn missing opened
    have content : w.queued fd = [] := by simp [World.queued, missing]
    rw [content, List.nil_append] at balanced
    exact (loopRule fd conn).writeLoop _ _ _ _
      ⟨balanced, clean, missing, opened, kept conn opened⟩

theorem step (clean : Clean w) (balanced : Balanced w)
    (careful : Always Careful after.history)
    (step : Step Rules.plain w after) : Clean after := by
  rcases step_traffic balanced.plainText step with quiet | moving
  · exact clean.of_quiet quiet
  cases moving with
  | accept fd free eq =>
      have missing := clean.closed fd free.2
      rw [eq, World.acceptFd, if_pos free, missing]
      refine ⟨?_, ?_, ?_, trivial, clean.offers⟩
      · intro other notOpen
        by_cases here : other = fd
        · rw [here]
          exact missing
        · simp only [World.log, Kernel.openFd,
            Function.update_of_ne here] at notOpen
          exact clean.closed other notOpen
      · intro other conn opened dropped
        simp only [World.log, dropped_cons, Drops, false_or] at dropped
        rcases (Kernel.openFd_conns _ _).mp opened with ⟨rfl, -⟩ | ⟨-, opened⟩
        · exact missing
        · exact clean.dropped other conn opened dropped
      · intro conn
        simp [World.log, Universe.inherited, clean.inherited]
  | discard fd force eq =>
      rw [eq]
      have here : (w.discard fd force).writeBuf[fd]? = none := by
        simp [World.discard, World.log]
      have others : ∀ other, other ≠ fd →
          (w.discard fd force).writeBuf[other]? = w.writeBuf[other]? := by
        intro other different
        simp [World.discard, World.log, ExtTreeMap.getElem?_erase,
          Ne.symm different]
      refine ⟨?_, ?_, clean.inherited, trivial, clean.offers⟩
      · intro other notOpen
        by_cases same : other = fd
        · rw [same, here]
        · rw [others other same]
          exact clean.closed other notOpen
      · intro other conn opened dropped
        by_cases same : other = fd
        · rw [same, here]
        · rw [others other same]
          refine clean.dropped other conn opened ?_
          simp only [World.discard, World.log, dropped_cons] at dropped opened
          refine dropped.resolve_left ?_
          intro drops
          cases openedHere : w.kernel.conns fd with
          | none => simp [openedHere, Drops] at drops
          | some another =>
              have conns : another = conn := by
                cases found : w.writeBuf[fd]? <;>
                  simp_all [Drops]
              subst conns
              exact same (balanced.numbered.distinct opened openedHere)
  | request fd data eq =>
      obtain ⟨events, history, -⟩ :=
        submit_grows (w.logRequest fd data) fd data
      rw [eq, history, balanced.logRequest_eq] at careful
      rw [eq]
      refine submit (balanced.logRequest fd data) ?_ ?_
      · rw [balanced.logRequest_eq]
        exact ⟨clean.closed, by simpa [World.log, dropped_cons, Drops] using
          clean.dropped, clean.inherited, trivial, clean.offers⟩
      · intro conn opened
        rw [balanced.logRequest_eq] at opened ⊢
        have asked := careful.append_right.1
        simp only [World.log] at opened
        rw [opened] at asked
        have kept : ¬ Dropped conn w.history := asked
        simpa [World.log, dropped_cons, Drops] using kept
  | flush fd queued found eq =>
      rw [eq]
      refine submit (balanced.takeWriteBuf found) ?_ ?_
      · refine ⟨?_, ?_, clean.inherited, clean.offers⟩
        · intro other notOpen
          simp [World.takeWriteBuf, ExtTreeMap.getElem?_erase,
            clean.closed other notOpen]
        · intro other conn opened dropped
          simp [World.takeWriteBuf, ExtTreeMap.getElem?_erase,
            clean.dropped other conn opened dropped]
      · intro conn opened dropped
        rw [clean.dropped fd conn opened dropped] at found
        cases found
  | sysClose fd rest eq =>
      rw [eq] at careful ⊢
      have missing : w.writeBuf[fd]? = none := careful.1
      refine ⟨?_, ?_, clean.inherited, trivial, clean.offers⟩
      · intro other notOpen
        by_cases here : other = fd
        · rw [here]
          exact missing
        · simp only [World.sysClose, World.log, Kernel.closeFd,
            Function.update_of_ne here] at notOpen
          exact clean.closed other notOpen
      · intro other conn opened dropped
        simp only [World.sysClose, World.log, dropped_cons, Drops,
          false_or] at dropped
        exact clean.dropped other conn
          ((Kernel.closeFd_conns _ _).mp opened).2 dropped

theorem init (user : σ) (answers : Answers) :
    Clean (World.init user answers : World β σ) := by
  constructor <;> simp [World.init, Kernel.boot, Universe.inherited, Always]

end Clean

/-- In a careful run every byte offered on a connection belongs to it. -/
theorem offered_bytes_are_own (run : Run β σ)
    (careful : Always Careful run.history) : Always OffersOwn run.history := by
  have both := run.conditional careful (fun w => Balanced w ∧ Clean w)
    (fun user answers => ⟨Ledger.init user answers, Clean.init user answers⟩)
    (fun _ careful holds step =>
      ⟨holds.1.step step, holds.2.step holds.1 careful step⟩)
  exact both.2.offers

/-- A run whose callbacks do nothing. -/
def silentRun (ops : List (Op Unit Unit)) (answers : Answers) : Run Unit Unit :=
  { body := fun _ _ _ _ => .done
    wantMessage := fun _ => false
    depth := 1
    program := .sequence ops
    user := ()
    answers := answers }

def closeCallback : EventCB Unit := EventCB.empty.set .close ()

/-- A slow reader: one byte waits in `_write_buf`, is flushed, and the
descriptor is closed after that. -/
def slowReader : Run Unit Unit :=
  silentRun
    [.accept 5, .watch 5 closeCallback false true, .write 5 [1, 2],
      .handleEvents (.events [(5, { epollOut := true })]), .close 5 false,
      .handleEvents (.events [])]
    { writes := [.accepted 0, .again, .accepted 0] }

theorem slowReader_offers_own :
    Always Careful slowReader.history ∧ Always OffersOwn slowReader.history :=
  ⟨by decide +kernel, offered_bytes_are_own slowReader (by decide +kernel)⟩

/-- The peer hangs up while a byte waits in `_write_buf`; the next connection
with the number 5 gets it. -/
def hangUpWhileQueued : Run Unit Unit :=
  silentRun
    [.accept 5, .watch 5 closeCallback false true, .write 5 [1],
      .handleEvents (.events [(5, { epollHup := true })]),
      .accept 5, .watch 5 closeCallback false true,
      .handleEvents (.events [(5, { epollOut := true })])]
    { writes := [.again, .accepted 0] }

theorem hangUpWhileQueued_leaks : ¬ Always OffersOwn hangUpWhileQueued.history := by
  decide +kernel

end Isolation

section Closing

def Event.writeFails : Event β → Bool
  | .sysWrite _ _ (.error _) => true
  | _ => false

/-- `close` is called while bytes are queued. -/
def Event.closesQueued : Event β → Bool
  | .closing _ (some _) (some queued) _ _ _ => !queued.isEmpty
  | _ => false

/-- The data asked for before the last call of `close` on a connection. -/
def askedBeforeClose (conn : Conn) : List (Event β) → Option Bytes
  | [] => none
  | .closing _ (some other) _ _ _ _ :: past =>
      if other = conn then some (requested conn past)
      else askedBeforeClose conn past
  | _ :: past => askedBeforeClose conn past

/-- When a descriptor is passed to `::close`, the kernel has taken all data
that was written before `close` was called. -/
def Delivered : Event β → List (Event β) → Prop
  | .sysClose _ (some conn) _, past =>
      ∀ data ∈ askedBeforeClose conn past,
        inherited conn past ++ data <+: sent conn past
  | _, _ => True

instance (event : Event β) (past : List (Event β)) :
    Decidable (Delivered event past) :=
  match event with
  | .sysClose _ (some _) _ => inferInstanceAs (Decidable (∀ _ ∈ _, _))
  | .sysClose _ none _ | .sysWrite .. | .opened .. | .requested ..
  | .stored .. | .watched .. | .closing .. | .ending .. | .released ..
  | .ended | .invoked .. | .batch .. | .entered .. | .refused | .left
  | .handled .. | .placed .. =>
      .isTrue trivial

/-- No `::write` fails, and nothing is queued when `close` is called. -/
def Smooth (event : Event β) : Prop :=
  event.writeFails = false ∧ event.closesQueued = false

theorem not_dropped_of_smooth {history : List (Event β)}
    (smooth : Always (fun event _ => Smooth event) history) (conn : Conn) :
    ¬ Dropped conn history := by
  rintro ⟨event, member, drops⟩
  have smooth := History.always_iff_forall_mem.mp smooth event member
  cases event with
  | sysWrite other offered result =>
      cases result <;> simp_all [Smooth, Event.writeFails, Drops]
  | closing fd other queued force registered releasing =>
      cases other <;> cases queued <;>
        simp_all [Smooth, Event.closesQueued, Drops]
  | _ => exact drops

/-- What holds between two events of a smooth run. -/
structure Flushed (w : World β σ) : Prop where
  fresh : ∀ conn, w.kernel.nextConn ≤ conn →
    askedBeforeClose conn w.history = none
  taken : ∀ conn, ∀ data ∈ askedBeforeClose conn w.history,
    inherited conn w.history ++ data <+: sent conn w.history
  delivered : Always Delivered w.history

namespace Flushed

variable {w after : World β σ}

/-- An event that is neither a call of `close` nor an arrival. -/
def plainEvent : Event β → Bool
  | .opened .. => false
  | .closing .. => false
  | .sysClose .. => false
  | _ => true

theorem cons (flushed : Flushed w) (event : Event β) (plain : plainEvent event)
    (nextConn : after.kernel.nextConn = w.kernel.nextConn)
    (history : after.history = event :: w.history) : Flushed after := by
  have asked : ∀ conn, askedBeforeClose conn after.history =
      askedBeforeClose conn w.history := by
    intro conn
    rw [history]
    cases event <;> simp_all [plainEvent, askedBeforeClose]
  have found : ∀ conn, inherited conn after.history =
      inherited conn w.history := by
    intro conn
    rw [history]
    cases event <;> simp_all [plainEvent, inherited]
  have grown : ∀ conn, sent conn w.history <+: sent conn after.history := by
    intro conn
    rw [history]
    cases event with
    | sysWrite other offered result =>
        cases result with
        | accepted extra =>
            rw [sent]
            split
            · exact List.prefix_append _ _
            · exact List.prefix_rfl
        | again => exact List.prefix_rfl
        | error errno => exact List.prefix_rfl
    | _ => exact List.prefix_rfl
  refine ⟨?_, ?_, ?_⟩
  · intro conn new
    rw [asked]
    exact flushed.fresh conn (nextConn ▸ new)
  · intro conn data
    rw [asked, found]
    intro member
    exact (flushed.taken conn data member).trans (grown conn)
  · rw [history]
    refine ⟨?_, flushed.delivered⟩
    cases event <;> trivial

theorem grows {kind : Event β → Bool} (flushed : Flushed w)
    (grown : Grows kind w after)
    (plain : ∀ event, kind event → plainEvent event)
    (nextConn : after.kernel.nextConn = w.kernel.nextConn) :
    Flushed after := by
  obtain ⟨events, history, allowed⟩ := grown
  have extended : Flushed { w with history := events ++ w.history } := by
    clear history
    induction events with
    | nil => exact flushed
    | cons event events induction =>
        have earlier := induction fun other member =>
          allowed other (by simp [member])
        exact earlier.cons event (plain event (allowed event (by simp))) rfl rfl
  refine ⟨?_, ?_, ?_⟩
  · rw [nextConn, history]
    exact extended.fresh
  · rw [history]
    exact extended.taken
  · rw [history]
    exact extended.delivered

theorem submit (flushed : Flushed w) (fd : Fd) (data : Bytes) :
    Flushed (w.submit fd data).2 := by
  refine flushed.grows (submit_grows w fd data) ?_
    (w.submit_submitted fd data).nextConn
  intro event writing
  cases event <;> simp_all [Event.isWriting, plainEvent]

theorem init (user : σ) (answers : Answers) :
    Flushed (World.init user answers : World β σ) := by
  constructor <;> simp [World.init, askedBeforeClose, Always]

theorem step (flushed : Flushed w) (balanced : Balanced w)
    (smooth : Always (fun event _ => Smooth event) after.history)
    (step : Step Rules.plain w after) : Flushed after := by
  have kept := not_dropped_of_smooth (smooth.of_suffix step.suffix)
  rcases step_traffic balanced.plainText step with quiet | moving
  · refine flushed.grows quiet.history ?_ quiet.nextConn
    intro event isQuiet
    cases event <;> simp_all [Event.quiet, plainEvent]
  cases moving with
  | accept fd free eq =>
      rw [eq, World.acceptFd, if_pos free]
      refine ⟨?_, ?_, trivial, flushed.delivered⟩
      · intro conn new
        exact flushed.fresh conn (Nat.le_of_succ_le new)
      · intro conn data member
        simp only [World.log, askedBeforeClose] at member
        have old : w.kernel.nextConn ≠ conn := by
          rintro rfl
          simp [flushed.fresh _ (Nat.le_refl _)] at member
        simp only [World.log, inherited, sent, if_neg old]
        exact flushed.taken conn data member
  | discard fd force eq =>
      rw [eq] at smooth ⊢
      refine ⟨?_, ?_, trivial, flushed.delivered⟩
      · intro conn new
        have nothing := flushed.fresh conn new
        cases opened : w.kernel.conns fd with
        | none => simpa [World.discard, World.log, opened, askedBeforeClose]
        | some other =>
            have old := balanced.numbered.known opened
            have different : other ≠ conn := by
              rintro rfl
              exact absurd old (by simpa [World.discard, World.log] using new)
            simpa [World.discard, World.log, opened, askedBeforeClose, different]
      · intro conn data member
        cases opened : w.kernel.conns fd with
        | none =>
            simp only [World.discard, World.log, opened,
              askedBeforeClose] at member
            exact flushed.taken conn data member
        | some other =>
            simp only [World.discard, World.log, opened,
              askedBeforeClose] at member
            split at member
            · next same =>
                subst same
                cases member
                have balance := balanced.balance fd other opened (kept other)
                have nothing : w.queued fd = [] := by
                  cases found : w.writeBuf[fd]? with
                  | none => simp [World.queued, found]
                  | some queued =>
                      have closes := smooth.1.2
                      rw [opened, found] at closes
                      simpa [World.queued, found, Event.closesQueued] using closes
                rw [nothing, List.append_nil] at balance
                exact ⟨[], by rw [List.append_nil]; exact balance⟩
            · exact flushed.taken conn data member
  | request fd data eq =>
      rw [eq]
      have asked : Flushed (w.logRequest fd data) := by
        rw [balanced.logRequest_eq]
        exact flushed.cons _ rfl rfl rfl
      exact asked.submit fd data
  | flush fd queued found eq =>
      rw [eq]
      have taken : Flushed (w.takeWriteBuf fd) :=
        ⟨flushed.fresh, flushed.taken, flushed.delivered⟩
      exact taken.submit fd queued
  | sysClose fd rest eq =>
      rw [eq]
      refine ⟨flushed.fresh, flushed.taken, ?_, flushed.delivered⟩
      cases opened : w.kernel.conns fd with
      | none => trivial
      | some conn => exact flushed.taken conn

end Flushed

/-- Without failing writes, what is written before `close` reaches the kernel
before `::close`, if nothing is queued when `close` is called. -/
theorem written_before_close_is_delivered (run : Run β σ)
    (noFailure : ∀ event ∈ run.history, event.writeFails = false)
    (nothingQueued : ∀ event ∈ run.history, event.closesQueued = false) :
    Always Delivered run.history := by
  have smooth : Always (fun event _ => Smooth event) run.history :=
    History.always_iff_forall_mem.mpr fun event member =>
      ⟨noFailure event member, nothingQueued event member⟩
  have both := run.conditional smooth (fun w => Balanced w ∧ Flushed w)
    (fun user answers => ⟨Ledger.init user answers, Flushed.init user answers⟩)
    (fun _ smooth holds step =>
      ⟨holds.1.step step, holds.2.step holds.1 smooth step⟩)
  exact both.2.delivered

theorem slowReader_delivers :
    (∀ event ∈ slowReader.history, event.writeFails = false) ∧
      (∀ event ∈ slowReader.history, event.closesQueued = false) ∧
      Always Delivered slowReader.history :=
  ⟨by decide +kernel, by decide +kernel,
    written_before_close_is_delivered slowReader (by decide +kernel)
      (by decide +kernel)⟩

/-- The `READ` callback answers with a response that does not fit into the
kernel's buffer and closes the descriptor. -/
def closeWhileQueued : Run EventType Unit :=
  { body := fun event fd _ _ =>
      match event with
      | .read => .sequence [.write fd [1, 2], .close fd false]
      | _ => .done
    wantMessage := fun _ => false
    depth := 2
    program := .sequence
      [.accept 5, .watchEvent 5 .read .read true,
        .watchEvent 5 .close .close true,
        .handleEvents (.events [(5, { epollIn := true })])]
    user := ()
    answers := { writes := [.accepted 0, .again, .accepted 0] } }

theorem closeWhileQueued_truncates :
    (∀ event ∈ closeWhileQueued.history, event.writeFails = false) ∧
      ¬ Always Delivered closeWhileQueued.history := by
  decide +kernel

end Closing

end Universe
