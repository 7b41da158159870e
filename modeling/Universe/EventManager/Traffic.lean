import Universe.Library.History
import Universe.EventManager.Execution

/-!
# The bytes of a connection

What callers asked to be written on a connection, what the kernel has taken
and what waits in `_write_buf` are accounts over the history.  Few steps
touch them: a request, a flush, `close`, `::close` and the arrival of a
descriptor.
-/

namespace Universe

open Std (ExtTreeMap)
open History (Always)

variable {β σ : Type}

/-- All data that callers passed to `write` for a connection. -/
def requested (conn : Conn) : List (Event β) → Bytes
  | [] => []
  | .requested (some other) data :: past =>
      if other = conn then requested conn past ++ data else requested conn past
  | _ :: past => requested conn past

/-- All bytes the kernel accepted for a connection. -/
def sent (conn : Conn) : List (Event β) → Bytes
  | [] => []
  | .sysWrite other offered (.accepted extra) :: past =>
      if other = conn then
        sent conn past ++ offered.take (World.count extra offered)
      else sent conn past
  | _ :: past => sent conn past

/-- What `_write_buf` held for the number when the connection got it. -/
def inherited (conn : Conn) : List (Event β) → Bytes
  | [] => []
  | .opened _ other queued _ :: past =>
      if other = conn then queued.getD [] else inherited conn past
  | _ :: past => inherited conn past

/-- Bytes of the connection get lost: a `::write` fails, or `close` throws
away what is queued. -/
def Drops (conn : Conn) : Event β → Prop
  | .sysWrite other offered (.error _) => other = conn ∧ offered ≠ []
  | .closing _ (some other) (some queued) _ _ _ => other = conn ∧ queued ≠ []
  | _ => False

instance (conn : Conn) : DecidablePred (Drops (β := β) conn) := fun event =>
  match event with
  | .sysWrite _ _ (.error _) => inferInstanceAs (Decidable (_ ∧ _))
  | .closing _ (some _) (some _) _ _ _ => inferInstanceAs (Decidable (_ ∧ _))
  | .sysWrite _ _ (.accepted _) | .sysWrite _ _ .again => .isFalse id
  | .closing _ none _ _ _ _ | .closing _ (some _) none _ _ _ => .isFalse id
  | .opened .. | .requested .. | .stored .. | .watched .. | .ending ..
  | .released .. | .ended | .invoked .. | .sysClose .. | .batch ..
  | .entered .. | .refused | .left | .handled .. | .placed .. => .isFalse id

def Dropped (conn : Conn) (history : List (Event β)) : Prop :=
  ∃ event ∈ history, Drops conn event

instance (conn : Conn) (history : List (Event β)) :
    Decidable (Dropped conn history) :=
  inferInstanceAs (Decidable (∃ event ∈ history, _))

/-- An event that moves no bytes and neither opens nor closes anything. -/
def Event.quiet : Event β → Bool
  | .opened .. => false
  | .requested .. => false
  | .sysWrite .. => false
  | .closing .. => false
  | .sysClose .. => false
  | _ => true

section Accounts

variable {conn other : Conn} {event : Event β} {past : List (Event β)}

theorem requested_quiet (quiet : event.quiet) :
    requested conn (event :: past) = requested conn past := by
  cases event <;> simp_all [Event.quiet, requested]

theorem sent_quiet (quiet : event.quiet) :
    sent conn (event :: past) = sent conn past := by
  cases event <;> simp_all [Event.quiet, sent]

theorem inherited_quiet (quiet : event.quiet) :
    inherited conn (event :: past) = inherited conn past := by
  cases event <;> simp_all [Event.quiet, inherited]

theorem not_drops_of_quiet (quiet : event.quiet) : ¬ Drops conn event := by
  cases event <;> simp_all [Event.quiet, Drops]

theorem dropped_cons :
    Dropped conn (event :: past) ↔ Drops conn event ∨ Dropped conn past := by
  simp [Dropped]

end Accounts

/-- A step that moves no bytes. -/
structure Quiet (w after : World β σ) : Prop where
  conns : after.kernel.conns = w.kernel.conns
  nextConn : after.kernel.nextConn = w.kernel.nextConn
  writeBuf : after.writeBuf = w.writeBuf
  fdSsl : after.fdSsl = w.fdSsl
  history : Grows Event.quiet w after

namespace Quiet

variable {w middle after : World β σ}

theorem refl (w : World β σ) : Quiet w w :=
  ⟨rfl, rfl, rfl, rfl, [], rfl, by simp⟩

theorem trans (first : Quiet w middle) (second : Quiet middle after) :
    Quiet w after := by
  obtain ⟨early, earlyHistory, earlyQuiet⟩ := first.history
  obtain ⟨late, lateHistory, lateQuiet⟩ := second.history
  refine ⟨second.conns.trans first.conns, second.nextConn.trans first.nextConn,
    second.writeBuf.trans first.writeBuf, second.fdSsl.trans first.fdSsl,
    late ++ early, ?_, ?_⟩
  · rw [lateHistory, earlyHistory, List.append_assoc]
  · intro event member
    rcases List.mem_append.mp member with member | member
    · exact lateQuiet event member
    · exact earlyQuiet event member

/-- One quiet event, and nothing else that counts here. -/
theorem log (event : Event β) (quiet : event.quiet)
    (conns : after.kernel.conns = w.kernel.conns)
    (nextConn : after.kernel.nextConn = w.kernel.nextConn)
    (writeBuf : after.writeBuf = w.writeBuf) (fdSsl : after.fdSsl = w.fdSsl)
    (history : after.history = event :: w.history) : Quiet w after :=
  ⟨conns, nextConn, writeBuf, fdSsl, [event], history, by simpa using quiet⟩

theorem silent (conns : after.kernel.conns = w.kernel.conns)
    (nextConn : after.kernel.nextConn = w.kernel.nextConn)
    (writeBuf : after.writeBuf = w.writeBuf) (fdSsl : after.fdSsl = w.fdSsl)
    (history : after.history = w.history) : Quiet w after :=
  ⟨conns, nextConn, writeBuf, fdSsl, [], history, by simp⟩

theorem epollUpdate (quiet : Quiet w middle) (fd : Fd) (op : EpollOp)
    (et : Bool) : Quiet w (middle.epollUpdate fd op et).2 := by
  refine quiet.trans ?_
  by_cases deleted : op = .del
  · subst deleted
    exact silent (by simp) (by simp) rfl rfl rfl
  · exact log (.stored ..) rfl (by simp) (by simp) (by simp) (by simp)
      (World.epollUpdate_history _ _ _ deleted)

theorem unregister (quiet : Quiet w middle) (fd : Fd) :
    Quiet w (middle.unregister fd).2 := by
  refine epollUpdate ?_ fd .del true
  exact quiet.trans (silent rfl rfl rfl rfl rfl)

theorem logCall (quiet : Quiet w middle) (handler : Handler β) (fd : Fd)
    (event : EventType) (cause : Cause) :
    Quiet w (middle.logCall handler fd event cause) :=
  quiet.trans (log (.invoked ..) rfl rfl rfl rfl rfl rfl)

section Accounts

variable (quiet : Quiet w after) (conn : Conn)
include quiet

theorem requested_eq :
    requested conn after.history = requested conn w.history := by
  obtain ⟨events, history, quiet⟩ := quiet.history
  rw [history]
  clear history
  induction events with
  | nil => rfl
  | cons event events induction =>
      rw [List.cons_append, requested_quiet (quiet event (by simp))]
      exact induction fun earlier member => quiet earlier (by simp [member])

theorem sent_eq : sent conn after.history = sent conn w.history := by
  obtain ⟨events, history, quiet⟩ := quiet.history
  rw [history]
  clear history
  induction events with
  | nil => rfl
  | cons event events induction =>
      rw [List.cons_append, sent_quiet (quiet event (by simp))]
      exact induction fun earlier member => quiet earlier (by simp [member])

theorem inherited_eq :
    inherited conn after.history = inherited conn w.history := by
  obtain ⟨events, history, quiet⟩ := quiet.history
  rw [history]
  clear history
  induction events with
  | nil => rfl
  | cons event events induction =>
      rw [List.cons_append, inherited_quiet (quiet event (by simp))]
      exact induction fun earlier member => quiet earlier (by simp [member])

theorem dropped_iff :
    Dropped conn after.history ↔ Dropped conn w.history := by
  obtain ⟨events, history, quiet⟩ := quiet.history
  rw [history]
  constructor
  · rintro ⟨event, member, drops⟩
    rcases List.mem_append.mp member with member | member
    · exact absurd drops (not_drops_of_quiet (quiet event member))
    · exact ⟨event, member, drops⟩
  · rintro ⟨event, member, drops⟩
    exact ⟨event, List.mem_append_right events member, drops⟩

end Accounts

end Quiet

/-- The steps that move bytes, open or close. -/
inductive Moving (w after : World β σ) : Prop where
  | accept (fd : Fd) (free : w.kernel.Free fd) (eq : after = w.acceptFd fd)
  | discard (fd : Fd) (force : Bool) (eq : after = w.discard fd force)
  | request (fd : Fd) (data : Bytes)
      (eq : after = ((w.logRequest fd data).submit fd data).2)
  | flush (fd : Fd) (queued : Bytes) (found : w.writeBuf[fd]? = some queued)
      (eq : after = ((w.takeWriteBuf fd).submit fd queued).2)
  | sysClose (fd : Fd) (rest : List Fd)
      (eq : after = { w with closeFds := rest }.sysClose fd)

/-- The steps that move no bytes, by what they do to the registrations. -/
inductive Registering (w after : World β σ) : Prop where
  | same (quiet : Quiet w after)
      (keys : ∀ fd, after.fds.contains fd = w.fds.contains fd)
      (epoll : after.kernel.epoll = w.kernel.epoll)
  | store (middle : World β σ) (fd : Fd) (op : EpollOp) (et : Bool)
      (eq : after = (middle.epollUpdate fd op et).2)
      (quiet : Quiet w after) (keep : op ≠ .del)
      (modified : op = .mod → w.fds.contains fd)
      (others : ∀ other, middle.fds.contains other = w.fds.contains other ∨
        other = fd)
      (kernel : middle.kernel = w.kernel)
      (writeBuf : middle.writeBuf = w.writeBuf)
  | remove (fd : Fd) (quiet : Quiet w after)
      (keys : ∀ other, after.fds.contains other =
        (!decide (fd = other) && w.fds.contains other))
      (epoll : after.kernel.epoll = Function.update w.kernel.epoll fd none)

theorem Registering.quiet {w after : World β σ}
    (registering : Registering w after) : Quiet w after := by
  cases registering with
  | same quiet => exact quiet
  | store middle fd op et eq quiet => exact quiet
  | remove fd quiet => exact quiet

namespace World

variable (w : World β σ) (fd : Fd)

theorem unregister_contains (other : Fd) :
    (w.unregister fd).2.fds.contains other =
      (!decide (fd = other) && w.fds.contains other) := by
  simp only [unregister, epollUpdate_del_fds, ExtTreeMap.contains_erase]
  by_cases same : fd = other <;> simp [same]

theorem unregister_epoll :
    (w.unregister fd).2.kernel.epoll =
      Function.update w.kernel.epoll fd none := by
  simp [unregister]

theorem eraseConnect_contains (contained : w.fds.contains w.currentFd) :
    w.eraseConnect.fds.contains fd = w.fds.contains fd := by
  by_cases same : w.currentFd = fd
  · rw [← same, contained]
    simp [eraseConnect]
  · simp [eraseConnect, ExtTreeMap.contains_insert, same]

end World

theorem step_cases {w after : World β σ} (plainText : w.fdSsl = ∅)
    (step : Step Rules.plain w after) :
    Registering w after ∨ Moving w after := by
  cases step with
  | outside change =>
      cases change with
      | accept fd =>
          by_cases free : w.kernel.Free fd
          · exact .inr (.accept fd free rfl)
          · left
            have same : w.acceptFd fd = w := by simp [World.acceptFd, free]
            rw [same]
            exact .same (.refl w) (fun _ => rfl) rfl
      | user change =>
          exact .inl (.same (.silent rfl rfl rfl rfl rfl) (fun _ => rfl) rfl)
  | watchEvent fd event callback et legit =>
      left
      refine .store _ fd (if w.fds.contains fd then .mod else .add) et rfl ?_
        (rewatchOp_ne_del _) (by simp) (w.contains_insert_or fd _) rfl rfl
      refine Quiet.epollUpdate ?_ fd _ et
      exact .log (.watched ..) rfl rfl rfl rfl rfl rfl
  | watch fd callbacks reWatch et legit =>
      left
      refine .store _ fd (if w.fds.contains fd && !reWatch then .mod else .add)
        et rfl ?_ (rewatchOp_ne_del _) (by simp_all) (w.contains_insert_or fd _)
        rfl rfl
      refine Quiet.epollUpdate ?_ fd _ et
      exact .log (.watched ..) rfl rfl rfl rfl rfl rfl
  | autoRewatch fd et =>
      exact .inl (.store w fd (if w.fds.contains fd then .mod else .add) et rfl
        (Quiet.epollUpdate (.refl w) fd _ et) (rewatchOp_ne_del _) (by simp)
        (fun _ => .inl rfl) rfl rfl)
  | unregister fd registered =>
      exact .inl (.remove fd (Quiet.unregister (.refl w) fd)
        (w.unregister_contains fd) (w.unregister_epoll fd))
  | discard fd force => exact .inr (.discard fd force rfl)
  | detach fd callbacks handler byClose registered inEpoll origin =>
      left
      refine .remove fd ?_ (World.unregister_contains _ fd)
        (World.unregister_epoll _ fd)
      refine Quiet.unregister ?_ fd
      exact .log (.ending ..) rfl rfl rfl rfl rfl rfl
  | forcedRelease fd unregistered recorded =>
      exact .inl (.same (.log (.released ..) rfl rfl rfl rfl rfl rfl)
        (fun _ => rfl) rfl)
  | release fd top progress same =>
      exact .inl (.same (.log (.released ..) rfl rfl rfl rfl rfl rfl)
        (fun _ => rfl) rfl)
  | closeCall fd cause top progress owed same caused =>
      exact .inl (.same (Quiet.logCall (.refl w) ..) (fun _ => rfl) rfl)
  | finish top done =>
      exact .inl (.same (.log .ended rfl rfl rfl rfl rfl rfl) (fun _ => rfl) rfl)
  | gameOverCall handler fd =>
      exact .inl (.same (Quiet.logCall (.refl w) ..) (fun _ => rfl) rfl)
  | dispatch event loop notConnect notClose found =>
      exact .inl (.same (Quiet.logCall (.refl w) ..) (fun _ => rfl) rfl)
  | eraseConnect loop contained =>
      exact .inl (.same (.silent rfl rfl rfl rfl rfl)
        (w.eraseConnect_contains · contained) rfl)
  | connected loop contained found =>
      left
      have erased : Quiet w w.eraseConnect := .silent rfl rfl rfl rfl rfl
      exact .same (erased.logCall ..) (w.eraseConnect_contains · contained) rfl
  | refused loop first contained found user =>
      left
      have erased : Quiet w w.eraseConnect := .silent rfl rfl rfl rfl rfl
      refine .remove w.currentFd ?_ ?_ (w.eraseConnect.unregister_epoll _)
      · refine Quiet.logCall ?_ _ _ _ _
        exact (erased.unregister w.currentFd).trans
          (.log .refused rfl rfl rfl rfl rfl rfl)
      · intro other
        rw [← w.eraseConnect_contains other contained]
        exact w.eraseConnect.unregister_contains w.currentFd other
  | request fd data => exact .inr (.request fd data rfl)
  | flush fd queued found => exact .inr (.flush fd queued found rfl)
  | answers answers =>
      exact .inl (.same (.silent rfl rfl rfl rfl rfl) (fun _ => rfl) rfl)
  | handshake fd =>
      left
      have same : (w.handshake fd).2 = w := by simp [World.handshake, plainText]
      rw [same]
      exact .same (.refl w) (fun _ => rfl) rfl
  | batch reported loop =>
      exact .inl (.same (.log (.batch ..) rfl rfl rfl rfl rfl rfl)
        (fun _ => rfl) rfl)
  | skip fd loop inside unregistered =>
      exact .inl (.same (.log (.entered ..) rfl rfl rfl rfl rfl rfl)
        (fun _ => rfl) rfl)
  | load fd callbacks loop inside registered =>
      exact .inl (.same (.log (.entered ..) rfl rfl rfl rfl rfl rfl)
        (fun _ => rfl) rfl)
  | leave loop inside =>
      exact .inl (.same (.log .left rfl rfl rfl rfl rfl rfl) (fun _ => rfl) rfl)
  | sysClose fd rest loop next => exact .inr (.sysClose fd rest rfl)
  | handled loop =>
      exact .inl (.same (.log (.handled ..) rfl rfl rfl rfl rfl rfl)
        (fun _ => rfl) rfl)

theorem step_traffic {w after : World β σ} (plainText : w.fdSsl = ∅)
    (step : Step Rules.plain w after) : Quiet w after ∨ Moving w after :=
  (step_cases plainText step).imp_left Registering.quiet

/-- The content of `_write_buf[fd]`, empty when there is none. -/
def World.queued (w : World β σ) (fd : Fd) : Bytes := (w.writeBuf[fd]?).getD []

@[simp] theorem World.queued_log (w : World β σ) (event : Event β) :
    (w.log event).queued = w.queued := rfl

/-- The books are balanced: what a connection found in `_write_buf` and what
callers asked for is what the kernel took and what is `pending`, as long as
nothing was dropped. -/
structure Ledger (w : World β σ) (pending : Fd → Bytes) : Prop where
  plainText : w.fdSsl = ∅
  numbered : w.kernel.Numbered
  fresh : ∀ conn, w.kernel.nextConn ≤ conn → requested conn w.history = [] ∧
    sent conn w.history = []
  balance : ∀ fd conn, w.kernel.conns fd = some conn →
    ¬ Dropped conn w.history →
    inherited conn w.history ++ requested conn w.history =
      sent conn w.history ++ pending fd

abbrev Balanced (w : World β σ) : Prop := Ledger w w.queued

namespace Ledger

variable {w after : World β σ} {pending later : Fd → Bytes} {fd : Fd}
  {data : Bytes}

theorem init (user : σ) (answers : Answers) :
    Balanced (World.init user answers : World β σ) := by
  constructor
  · rfl
  · constructor <;> simp [World.init, Kernel.boot]
  · simp [World.init, requested, sent]
  · simp [World.init, Kernel.boot]

theorem of_quiet (ledger : Ledger w pending) (quiet : Quiet w after) :
    Ledger after pending := by
  constructor
  · rw [quiet.fdSsl]
    exact ledger.plainText
  · constructor
    · rw [quiet.conns, quiet.nextConn]
      exact ledger.numbered.known
    · rw [quiet.conns]
      exact ledger.numbered.distinct
  · intro conn
    rw [quiet.nextConn, quiet.requested_eq, quiet.sent_eq]
    exact ledger.fresh conn
  · intro fd conn
    rw [quiet.conns, quiet.dropped_iff, quiet.inherited_eq, quiet.requested_eq,
      quiet.sent_eq]
    exact ledger.balance fd conn

theorem balanced_of_quiet (balanced : Balanced w) (quiet : Quiet w after) :
    Balanced after := by
  have same : after.queued = w.queued := by
    funext fd
    rw [World.queued, World.queued, quiet.writeBuf]
  unfold Balanced
  rw [same]
  exact balanced.of_quiet quiet

theorem congr (ledger : Ledger w pending)
    (same : ∀ fd, (w.kernel.conns fd).isSome → later fd = pending fd) :
    Ledger w later := by
  refine { ledger with balance := ?_ }
  intro fd conn opened kept
  rw [same fd (by simp [opened])]
  exact ledger.balance fd conn opened kept

/-- An answer of `::write`: what it takes is no longer pending. -/
theorem sysWrite {fd : Fd} {conn : Conn} {rest : Bytes}
    (ledger : Ledger w (Function.update pending fd rest))
    (opened : w.kernel.conns fd = some conn) (result : WriteResult)
    (left : Bytes)
    (taken : sent conn (.sysWrite conn rest result :: w.history) ++ left =
        sent conn w.history ++ rest ∨
      Drops conn (.sysWrite conn rest result : Event β)) :
    Ledger (w.log (.sysWrite conn rest result))
      (Function.update pending fd left) := by
  have others : ∀ other, other ≠ conn →
      sent other (.sysWrite conn rest result :: w.history) =
        sent other w.history := by
    intro other different
    cases result <;> simp [sent, Ne.symm different]
  refine ⟨ledger.plainText, ledger.numbered, ?_, ?_⟩
  · intro other new
    have old := ledger.numbered.known opened
    have different : other ≠ conn := by
      rintro rfl
      exact absurd old (by simpa [World.log] using new)
    change requested other w.history = [] ∧
      sent other (.sysWrite conn rest result :: w.history) = []
    rw [others other different]
    exact ledger.fresh other new
  · intro at_ other openedAt kept
    change ¬ Dropped other (.sysWrite conn rest result :: w.history) at kept
    rw [dropped_cons, not_or] at kept
    have balance := ledger.balance at_ other openedAt kept.2
    change inherited other w.history ++ requested other w.history =
      sent other (.sysWrite conn rest result :: w.history) ++ _
    by_cases same : at_ = fd
    · subst same
      have conns : other = conn := Option.some.inj (openedAt.symm.trans opened)
      subst conns
      simp only [Function.update_self] at balance ⊢
      rcases taken with taken | drops
      · rw [balance, taken]
      · exact absurd drops kept.1
    · have different : other ≠ conn := by
        rintro rfl
        exact same (ledger.numbered.distinct openedAt opened)
      rw [others other different]
      simpa [Function.update_of_ne same] using balance

theorem insert (ledger : Ledger w (Function.update w.queued fd data)) :
    Balanced { w with writeBuf := w.writeBuf.insert fd data } := by
  have same : World.queued { w with writeBuf := w.writeBuf.insert fd data } =
      Function.update w.queued fd data := by
    funext other
    by_cases here : other = fd
    · simp [World.queued, here]
    · simp [World.queued, Function.update_of_ne here,
        ExtTreeMap.getElem?_insert, Ne.symm here]
  unfold Balanced
  rw [same]
  exact ⟨ledger.plainText, ledger.numbered, ledger.fresh,
    ledger.balance⟩

/-- What is taken out of `_write_buf` is pending. -/
theorem takeWriteBuf (balanced : Balanced w)
    (found : w.writeBuf[fd]? = some data) :
    Ledger (w.takeWriteBuf fd)
      (Function.update (w.takeWriteBuf fd).queued fd
        ((w.takeWriteBuf fd).queued fd ++ data)) := by
  have same : Function.update (w.takeWriteBuf fd).queued fd
      ((w.takeWriteBuf fd).queued fd ++ data) = w.queued := by
    funext other
    by_cases here : other = fd
    · simp [here, World.queued, World.takeWriteBuf, found]
    · simp [World.queued, World.takeWriteBuf, Function.update_of_ne here,
        ExtTreeMap.getElem?_erase, Ne.symm here]
  rw [same]
  exact ⟨balanced.plainText, balanced.numbered, balanced.fresh,
    balanced.balance⟩

/-- Nothing is pending for a number without an entry. -/
theorem settled (ledger : Ledger w (Function.update w.queued fd []))
    (missing : w.writeBuf[fd]? = none) : Balanced w := by
  refine ledger.congr ?_
  intro other _
  by_cases here : other = fd
  · simp [here, World.queued, missing]
  · rw [Function.update_of_ne here]

/-- The loop of `write` keeps the books: the bytes it still has to offer are
pending. -/
theorem loopRule (fd : Fd) (conn : Conn) :
    World.LoopRule fd conn
      (fun rest w => Ledger w (Function.update w.queued fd rest) ∧
        w.writeBuf[fd]? = none ∧ w.kernel.conns fd = some conn)
      (Balanced (β := β) (σ := σ)) := by
  refine ⟨?_, ?_, ?_, ?_⟩
  · rintro rest extra w - ⟨ledger, missing, opened⟩
    refine ⟨ledger.sysWrite opened _ _ (.inl ?_), missing, opened⟩
    simp [sent]
  · rintro rest extra answers w whole ⟨ledger, missing, opened⟩
    have written : Ledger (w.log (.sysWrite conn rest (.accepted extra)))
        (Function.update w.queued fd []) := by
      refine ledger.sysWrite opened _ _ (.inl ?_)
      rw [sent, if_pos rfl, List.take_of_length_le (by omega), List.append_nil]
    exact (written.settled missing).balanced_of_quiet
      (.silent rfl rfl rfl rfl rfl)
  · rintro rest answers w ⟨ledger, missing, opened⟩
    rw [World.appendWriteBuf_of_none _ _ (by exact missing)]
    have tried : Ledger (w.log (.sysWrite conn rest .again))
        (Function.update w.queued fd rest) :=
      ledger.sysWrite opened _ _ (.inl (by simp [sent]))
    have answered : Ledger
        ((w.log (.sysWrite conn rest .again)).setAnswers answers)
        (Function.update w.queued fd rest) :=
      tried.of_quiet (.silent rfl rfl rfl rfl rfl)
    exact answered.insert.balanced_of_quiet (Quiet.epollUpdate (.refl _) ..)
  · rintro rest errno answers w ⟨ledger, missing, opened⟩
    have failed : Ledger (w.log (.sysWrite conn rest (.error errno)))
        (Function.update w.queued fd []) := by
      refine ledger.sysWrite opened _ _ ?_
      by_cases nothing : rest = []
      · exact .inl (by simp [sent, nothing])
      · exact .inr ⟨rfl, nothing⟩
    exact (failed.settled missing).balanced_of_quiet
      (.silent rfl rfl rfl rfl rfl)

theorem submit (ledger : Ledger w
      (Function.update w.queued fd (w.queued fd ++ data))) :
    Balanced (w.submit fd data).2 := by
  refine World.submit_cases w data ?_ ?_ ?_ ?_
  · intro secured
    simp [ledger.plainText] at secured
  · intro queued found
    have content : w.queued fd = queued := by simp [World.queued, found]
    rw [content] at ledger
    exact ledger.insert
  · intro missing notOpen
    refine ledger.congr ?_
    intro other opened
    by_cases here : other = fd
    · simp [here, notOpen] at opened
    · rw [Function.update_of_ne here]
  · intro conn missing opened
    have content : w.queued fd = [] := by simp [World.queued, missing]
    rw [content, List.nil_append] at ledger
    exact (loopRule fd conn).writeLoop _ _ _ _ ⟨ledger, missing, opened⟩

theorem logRequest_eq (balanced : Balanced w) (fd : Fd) (data : Bytes) :
    w.logRequest fd data = w.log (.requested (w.kernel.conns fd) data) := by
  simp [World.logRequest, balanced.plainText]

/-- A request is pending behind what is queued already. -/
theorem logRequest (balanced : Balanced w) (fd : Fd) (data : Bytes) :
    Ledger (w.logRequest fd data)
      (Function.update (w.logRequest fd data).queued fd
        ((w.logRequest fd data).queued fd ++ data)) := by
  rw [balanced.logRequest_eq, World.queued_log]
  refine ⟨balanced.plainText, balanced.numbered, ?_, ?_⟩
  · intro conn new
    refine ⟨?_, (balanced.fresh conn new).2⟩
    have nothing := (balanced.fresh conn new).1
    cases opened : w.kernel.conns fd with
    | none => simpa [World.log, requested] using nothing
    | some other =>
        have old := balanced.numbered.known opened
        have different : other ≠ conn := by
          rintro rfl
          exact absurd old (by simpa [World.log] using new)
        simpa [World.log, requested, different] using nothing
  · intro other conn openedAt kept
    simp only [World.log, dropped_cons, Drops, false_or] at kept openedAt
    have balance := balanced.balance other conn openedAt kept
    simp only [World.log, inherited, sent]
    by_cases here : other = fd
    · subst here
      simp only [openedAt, requested, if_true, Function.update_self]
      rw [← List.append_assoc, balance, List.append_assoc]
    · rw [Function.update_of_ne here]
      cases opened : w.kernel.conns fd with
      | none => simpa [requested] using balance
      | some another =>
          have different : another ≠ conn := by
            rintro rfl
            exact here (balanced.numbered.distinct openedAt opened)
          simpa [requested, different] using balance

theorem acceptFd (balanced : Balanced w) {fd : Fd} (free : w.kernel.Free fd) :
    Balanced (w.acceptFd fd) := by
  unfold World.acceptFd
  rw [if_pos free]
  refine ⟨balanced.plainText, balanced.numbered.openFd fd, ?_, ?_⟩
  · intro conn later
    exact balanced.fresh conn (Nat.le_of_succ_le later)
  · intro other conn opened kept
    simp only [World.log, dropped_cons, Drops, false_or] at kept
    simp only [World.log, requested, sent, inherited]
    rcases (Kernel.openFd_conns _ _).mp opened with ⟨rfl, rfl⟩ | ⟨-, opened⟩
    · have nothing := balanced.fresh w.kernel.nextConn (Nat.le_refl _)
      simp [nothing.1, nothing.2, World.queued]
    · have old : w.kernel.nextConn ≠ conn :=
        (Nat.ne_of_lt (balanced.numbered.known opened)).symm
      rw [if_neg old]
      exact balanced.balance other conn opened kept

theorem discard (balanced : Balanced w) (fd : Fd) (force : Bool) :
    Balanced (w.discard fd force) := by
  have dropped : Ledger (w.discard fd force)
      (Function.update (w.takeWriteBuf fd).queued fd []) := by
    refine ⟨by simp [World.discard, World.log, balanced.plainText],
      balanced.numbered, balanced.fresh, ?_⟩
    intro other conn opened kept
    simp only [World.discard, World.log, dropped_cons, not_or] at kept opened
    have balance := balanced.balance other conn opened kept.2
    simp only [World.discard, World.log, requested, sent, inherited]
    rw [balance]
    congr 1
    by_cases here : other = fd
    · subst here
      rw [Function.update_self]
      cases found : w.writeBuf[other]? with
      | none => simp [World.queued, found]
      | some queued =>
          have nothing : queued = [] := by
            simpa [opened, found, Drops] using kept.1
          simp [World.queued, found, nothing]
    · simp [World.queued, World.takeWriteBuf, Function.update_of_ne here,
        ExtTreeMap.getElem?_erase, Ne.symm here]
  refine dropped.settled ?_
  simp [World.discard, World.log]

theorem sysClose (balanced : Balanced w) (fd : Fd) (rest : List Fd) :
    Balanced ({ w with closeFds := rest }.sysClose fd) := by
  refine ⟨balanced.plainText, balanced.numbered.closeFd fd, balanced.fresh, ?_⟩
  intro other conn opened kept
  simp only [World.sysClose, World.log, dropped_cons, Drops, false_or] at kept
  exact balanced.balance other conn
    ((Kernel.closeFd_conns _ _).mp opened).2 kept

theorem step (balanced : Balanced w) (step : Step Rules.plain w after) :
    Balanced after := by
  rcases step_traffic balanced.plainText step with quiet | moving
  · exact balanced.balanced_of_quiet quiet
  cases moving with
  | accept fd free eq =>
      rw [eq]
      exact balanced.acceptFd free
  | discard fd force eq =>
      rw [eq]
      exact balanced.discard fd force
  | request fd data eq =>
      rw [eq]
      exact (balanced.logRequest fd data).submit
  | flush fd queued found eq =>
      rw [eq]
      exact (balanced.takeWriteBuf found).submit
  | sysClose fd rest eq =>
      rw [eq]
      exact balanced.sysClose fd rest

end Ledger

end Universe
