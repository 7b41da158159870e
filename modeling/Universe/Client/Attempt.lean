import Universe.Client.Execution

/-!
# Attempts to connect

A connect to a host tries one address after the other.  `Ending` says how the
connect to one address comes out, so a list of endings is what the system
calls answer in the course of an attempt.  `Standing` is what holds of the
placeholder all the time: either the lambda is stored for it and the caller
has heard nothing, or the lambda is gone and the caller has been told once.
-/

namespace Universe

open Stepwise

variable {κ σ : Type}

namespace Client

/-- How the connect to one address ends: at once, by an event that is reported
later, or because somebody gives it up by `unwatch`. -/
inductive Ending where
  | atOnce (connected : Bool)
  | reported (flags : Flags) (connected : Bool)
  | givenUp

namespace Ending

def status : Ending → ConnectStatus
  | .atOnce true => .connected
  | .atOnce false => .failed
  | .reported .. => .inProgress
  | .givenUp => .inProgress

def connected : Ending → Bool
  | .atOnce connected => connected
  | .reported _ connected => connected
  | .givenUp => false

end Ending

/-- What is still to come when `connect` returns or an event has been
handled: addresses that fail at once are passed over. -/
def awaited : List Ending → List Ending
  | [] => []
  | .atOnce true :: _ => []
  | .atOnce false :: rest => awaited rest
  | .reported flags connected :: rest => .reported flags connected :: rest
  | .givenUp :: rest => .givenUp :: rest

/-- What the caller is told in the end. -/
def verdict : List Ending → ConnectResult
  | [] => .ng
  | .atOnce true :: _ => .ok
  | .atOnce false :: rest => verdict rest
  | .reported _ true :: _ => .ok
  | .reported _ false :: rest => verdict rest
  | .givenUp :: _ => .gameOver

theorem connected_of_verdict {endings : List Ending}
    (told : verdict endings = .ok) :
    ∃ ending ∈ endings, ending.connected = true := by
  induction endings with
  | nil => cases told
  | cons ending rest induction =>
      have later : verdict rest = .ok →
          ∃ other ∈ ending :: rest, other.connected = true := by
        intro told
        obtain ⟨other, member, connected⟩ := induction told
        exact ⟨other, List.mem_cons_of_mem ending member, connected⟩
      cases ending with
      | atOnce connected =>
          cases connected with
          | true => exact ⟨_, List.mem_cons_self, rfl⟩
          | false => exact later told
      | reported flags connected =>
          cases connected with
          | true => exact ⟨_, List.mem_cons_self, rfl⟩
          | false => exact later told
      | givenUp => cases told

/-- Nothing is awaited and not every address has failed at once: some address
was connected at once. -/
theorem verdict_of_awaited_nil {endings : List Ending}
    (through : awaited endings = [])
    (other : ∃ ending ∈ endings, ending ≠ .atOnce false) :
    verdict endings = .ok := by
  induction endings with
  | nil =>
      obtain ⟨ending, member, -⟩ := other
      cases member
  | cons ending rest induction =>
      cases ending with
      | atOnce connected =>
          cases connected with
          | true => rfl
          | false =>
              apply induction through
              obtain ⟨ending, member, different⟩ := other
              rcases List.mem_cons.mp member with rfl | member
              · exact absurd rfl different
              · exact ⟨ending, member, different⟩
      | reported flags connected => cases through
      | givenUp => cases through

/-- The answers of the system calls for the addresses that are still to be
tried: every one of them gets a descriptor, and `::connect` answers for them
in order. -/
structure Supplied (kernel : Kernel) (endings : List Ending) : Prop where
  connects : endings.map Ending.status <+: kernel.answers.connects
  enough : endings.length ≤ kernel.answers.numbers.length
  free : ∀ number ∈ kernel.answers.numbers.take endings.length,
    kernel.Free number

/-- The first number that is handed out becomes the placeholder. -/
structure Ready (w : World (ClientCB κ) σ) (s : Fd) (endings : List Ending) :
    Prop where
  free : w.kernel.Free s
  unknown : w.fds[s]? = none
  connects : endings.map Ending.status <+: w.kernel.answers.connects
  numbers : ∃ later, w.kernel.answers.numbers = s :: later ∧
    endings.length ≤ later.length ∧
    ∀ number ∈ later.take endings.length, w.kernel.Free number ∧ number ≠ s

/-- No `CONNECT` callback comes to the placeholder where there was none, and
`handle_events` is not called. -/
structure Spares (s : Fd) (w after : World (ClientCB κ) σ) : Prop where
  currentFd : after.currentFd = w.currentFd
  currentCb : w.currentCb .connect = none → after.currentCb .connect = none
  slot : w.callbacksAt s .connect = none → after.callbacksAt s .connect = none

/-- The same, and the caller's callback is not called. -/
structure Silent (heard : σ → List (Fd × ConnectResult)) (s : Fd)
    (w after : World (ClientCB κ) σ) : Prop extends Spares s w after where
  heard : heard after.user = heard w.user

/-- What an attempt relies on in the code around it: the `CONNECT` callback
records how it is called and returns when calls may nest `needs` deep; neither
it nor any other callback puts another connect on the placeholder, and after a
failure it leaves the placeholder alone. -/
structure Listens (app : App (ClientCB κ) σ) (callback : κ)
    (heard : σ → List (Fd × ConnectResult)) (needs : Nat) (s : Fd) :
    Prop where
  told : ∀ depth, needs ≤ depth → ∀ fd outcome w, ∃ after,
    (app.dispatch depth).invoke (.user callback) fd (.result outcome) w =
      .ok () after ∧
    heard after.user = heard w.user ++ [(fd, outcome)] ∧
    after.kernel.conns s = w.kernel.conns s ∧ Spares s w after ∧
    (outcome ≠ .ok → w.fds[s]? = none → after.fds[s]? = none)
  others : ∀ depth own fd arg w, (∀ outcome, arg ≠ .result outcome) →
    Silent heard s w
      (final ((app.dispatch depth).invoke (.user own) fd arg w))
  unwatched : ∀ fd user, heard (app.unwatched fd user) = heard user

/-- Where an attempt stands: it waits for an event with its lambda stored, or
the lambda is gone and the caller has been told. -/
inductive Standing (callbacks : EventCB κ)
    (heard : σ → List (Fd × ConnectResult)) (s : Fd)
    (before : List (Fd × ConnectResult)) (outcome : ConnectResult) :
    List Ending → World (ClientCB κ) σ → Prop where
  | waiting {w handlers handler later ending rest}
      (opened : (w.kernel.conns s).isSome)
      (registered : (w.kernel.epoll s).isSome)
      (stored : w.fds[s]? = some handlers)
      (slot : handlers .connect = some handler)
      (lambda : handler.callback = .host callbacks later s)
      (left : rest.length = later.length)
      (coming : outcome = verdict (ending :: rest))
      (nothing : heard w.user = before) :
      Standing callbacks heard s before outcome (ending :: rest) w
  | told {w} (gone : w.callbacksAt s .connect = none)
      (once : heard w.user = before ++ [(s, outcome)]) :
      Standing callbacks heard s before outcome [] w

section Pieces

variable {heard : σ → List (Fd × ConnectResult)} {s : Fd}
  {w middle after : World (ClientCB κ) σ}

theorem Spares.refl (w : World (ClientCB κ) σ) : Spares s w w := ⟨rfl, id, id⟩

theorem Spares.trans (first : Spares s w middle)
    (second : Spares s middle after) : Spares s w after := by
  constructor
  · exact second.currentFd.trans first.currentFd
  · exact fun empty => second.currentCb (first.currentCb empty)
  · exact fun empty => second.slot (first.slot empty)

theorem Supplied.head {kernel : Kernel} {ending : Ending} {rest : List Ending}
    (supplied : Supplied kernel (ending :: rest)) :
    ∃ number numbers connects, kernel.answers.numbers = number :: numbers ∧
      kernel.Free number ∧
      kernel.answers.connects = ending.status :: connects ∧
      rest.map Ending.status <+: connects ∧ rest.length ≤ numbers.length ∧
      ∀ other ∈ numbers.take rest.length, kernel.Free other := by
  obtain ⟨answers, connects⟩ := supplied.connects
  cases numbers : kernel.answers.numbers with
  | nil =>
      have enough := supplied.enough
      rw [numbers] at enough
      cases enough
  | cons number later =>
      have enough := supplied.enough
      have free := supplied.free
      rw [numbers] at enough free
      rw [List.length_cons, List.take_succ_cons] at free
      refine ⟨number, later, rest.map Ending.status ++ answers, rfl,
        free number List.mem_cons_self, connects.symm, List.prefix_append _ _,
        Nat.le_of_succ_le_succ enough, ?_⟩
      exact fun other member => free other (List.mem_cons_of_mem number member)

/-- The placeholder is open and nothing is stored for it. -/
structure Placed (s : Fd) (w : World (ClientCB κ) σ) : Prop where
  nonneg : 0 ≤ s
  opened : (w.kernel.conns s).isSome
  unknown : w.fds[s]? = none

theorem Placed.slot (placed : Placed s w) :
    w.callbacksAt s .connect = none := by
  rw [World.callbacksAt, placed.unknown]
  rfl

/-- A new socket is on the placeholder. -/
structure Reopened (s : Fd) (numbers : List Fd)
    (w after : World (ClientCB κ) σ) : Prop where
  opened : (after.kernel.conns s).isSome
  unregistered : after.kernel.epoll s = none
  answers : after.kernel.answers =
    { w.kernel.answers with numbers := numbers }
  free : ∀ number, number ≠ s → w.kernel.Free number →
    after.kernel.Free number
  fds : after.fds = w.fds
  user : after.user = w.user

theorem nextNumber_eq {number : Fd} {numbers : List Fd}
    (answers : w.kernel.answers.numbers = number :: numbers)
    (free : w.kernel.Free number) :
    (nextNumber : EM (ClientCB κ) σ Fd) w = .ok number
      (w.setAnswers { w.kernel.answers with numbers := numbers }) := by
  unfold nextNumber
  rw [get_bind, answers]
  dsimp only
  rw [modify_bind, if_pos free]
  rfl

theorem dup2_reopened {number : Fd} (free : w.kernel.Free number)
    (nonneg : 0 ≤ s) (different : s ≠ number) :
    Reopened s w.kernel.answers.numbers w (w.dup2 number s) := by
  have guard : w.kernel.Free number ∧ 0 ≤ s := ⟨free, nonneg⟩
  unfold World.dup2
  rw [if_pos guard]
  constructor
  · simp [World.log, Kernel.moveFd, Kernel.openFd,
      Function.update_of_ne different]
  · simp [World.log, Kernel.moveFd, Function.update_of_ne different]
  · rfl
  · intro other notPlaceholder otherFree
    refine ⟨otherFree.1, ?_⟩
    by_cases same : other = number
    · simp [World.log, Kernel.moveFd, same]
    · simp [World.log, Kernel.moveFd, Kernel.openFd, Function.update_of_ne same,
        Function.update_of_ne notPlaceholder, otherFree.2]
  · rfl
  · rfl

theorem openOn_eq {number : Fd} {numbers : List Fd}
    (answers : w.kernel.answers.numbers = number :: numbers)
    (free : w.kernel.Free number) (placed : Placed s w) :
    ∃ after, (openOn s : EM (ClientCB κ) σ Fd) w = .ok s after ∧
      Reopened s numbers w after := by
  have notSame : s ≠ number := by
    intro same
    have opened := placed.opened
    rw [same, free.2] at opened
    cases opened
  have notNew : s ≠ -1 := by
    intro same
    have nonneg := placed.nonneg
    rw [same] at nonneg
    exact absurd nonneg (by decide)
  have reopened : Reopened s numbers _ _ := dup2_reopened
    (w := w.setAnswers { w.kernel.answers with numbers := numbers })
    free placed.nonneg notSame
  refine ⟨_, ?_, reopened.opened, reopened.unregistered, reopened.answers,
    reopened.free, reopened.fds, reopened.user⟩
  unfold openOn
  rw [bind_of_ok (nextNumber_eq answers free), if_neg notNew,
    if_pos placed.nonneg]
  rfl

/-- The placeholder of a connect to a host is a new socket. -/
theorem openOn_new {numbers : List Fd}
    (handed : w.kernel.answers.numbers = s :: numbers)
    (free : w.kernel.Free s) (unknown : w.fds[s]? = none) :
    ∃ after, (openOn (-1) : EM (ClientCB κ) σ Fd) w = .ok s after ∧
      Placed s after ∧
      after.kernel.answers = { w.kernel.answers with numbers := numbers } ∧
      (∀ number, number ≠ s → w.kernel.Free number →
        after.kernel.Free number) ∧
      after.user = w.user := by
  have accepted : (w.setAnswers { w.kernel.answers with
      numbers := numbers }).acceptFd s = { w with
        kernel := (w.setAnswers { w.kernel.answers with
          numbers := numbers }).kernel.openFd s }.log
        (.opened s w.kernel.nextConn w.writeBuf[s]? (w.fds.contains s)) :=
    if_pos free
  refine ⟨(w.setAnswers { w.kernel.answers with
    numbers := numbers }).acceptFd s, ?_, ?_⟩
  · unfold openOn
    rw [bind_of_ok (nextNumber_eq handed free), if_pos rfl]
    rfl
  · rw [accepted]
    refine ⟨⟨free.1, ?_, unknown⟩, rfl, ?_, rfl⟩
    · simp [World.log, Kernel.openFd]
    · intro number different numberFree
      refine ⟨numberFree.1, ?_⟩
      simp [World.log, Kernel.openFd, Function.update_of_ne different,
        World.setAnswers, numberFree.2]

theorem sysConnect_eq {status : ConnectStatus} {connects : List ConnectStatus}
    (answers : w.kernel.answers.connects = status :: connects) :
    (sysConnect : EM (ClientCB κ) σ ConnectStatus) w = .ok status
      (w.setAnswers { w.kernel.answers with connects := connects }) := by
  unfold sysConnect
  rw [get_bind, answers]
  rfl

/-- What `connect` does once `::connect` has answered. -/
def outcomeOf (d : Dispatch (ClientCB κ) σ) (callbacks : EventCB (ClientCB κ))
    (s : Fd) : ConnectStatus → EM (ClientCB κ) σ Int
  | .failed => do
      let _ ← EventManager.unwatch d s true
      notify d id callbacks s .ng
      return -1
  | .connected => do
      notify d id callbacks s .ok
      watchRest callbacks s true
      return s
  | .inProgress => do
      let _ ← modifyGet (World.watch · s callbacks true)
      return s

/-- A new socket is on the placeholder and `::connect` has answered. -/
structure Asked (s : Fd) (rest : List Ending)
    (w after : World (ClientCB κ) σ) : Prop where
  opened : (after.kernel.conns s).isSome
  unregistered : after.kernel.epoll s = none
  supplied : Supplied after.kernel rest
  fds : after.fds = w.fds
  user : after.user = w.user

theorem connectOn_eq (d : Dispatch (ClientCB κ) σ)
    (callbacks : EventCB (ClientCB κ)) {ending : Ending} {rest : List Ending}
    (placed : Placed s w) (supplied : Supplied w.kernel (ending :: rest)) :
    ∃ asked, Asked s rest w asked ∧
      connectOn d callbacks s w =
        outcomeOf d callbacks s ending.status asked := by
  obtain ⟨number, numbers, connects, handed, free, answered, later, enough,
    others⟩ := supplied.head
  obtain ⟨opened, returned, reopened⟩ := openOn_eq handed free placed
  have answers :
      opened.kernel.answers.connects = ending.status :: connects := by
    rw [reopened.answers]
    exact answered
  obtain ⟨conn, isOpen⟩ := Option.isSome_iff_exists.mp reopened.opened
  have asks := sysConnect_eq answers
  have asked : Asked s rest w (opened.setAnswers
      { opened.kernel.answers with connects := connects }) := by
    refine ⟨reopened.opened, reopened.unregistered, ⟨later, ?_, ?_⟩,
      reopened.fds, reopened.user⟩
    · rw [World.setAnswers, reopened.answers]
      exact enough
    · rw [World.setAnswers, reopened.answers]
      intro other member
      have otherFree := others other member
      apply reopened.free other _ otherFree
      intro same
      have taken := placed.opened
      rw [← same, otherFree.2] at taken
      cases taken
  have stillOpen : (opened.setAnswers { opened.kernel.answers with
      connects := connects }).kernel.conns s = some conn := isOpen
  generalize opened.setAnswers
    { opened.kernel.answers with connects := connects } = later at *
  refine ⟨later, asked, ?_⟩
  unfold connectOn
  rw [bind_of_ok returned, bind_of_ok asks, get_bind, stillOpen]
  cases ending.status <;> rfl

theorem notify_onConnect (d : Dispatch (ClientCB κ) σ)
    (callback : ClientCB κ) (outcome : ConnectResult) :
    notify d id (onConnect callback) s outcome =
      d.invoke callback s (.result outcome) := by
  unfold notify onConnect EventCB.set
  rw [Function.update_self]
  rfl

theorem erase_onConnect (callback : ClientCB κ) :
    (onConnect callback).erase .connect = EventCB.empty := by
  unfold onConnect EventCB.set EventCB.erase
  rw [Function.update_idem]
  exact Function.update_eq_self _ _

theorem watchRest_onConnect (callback : ClientCB κ) (reWatch : Bool) :
    (watchRest (onConnect callback) s reWatch : EM (ClientCB κ) σ Unit) w =
      .ok () w := by
  unfold watchRest
  rw [erase_onConnect]
  rfl

/-- A socket that is not registered yet can be watched. -/
theorem watch_registers (callbacks : EventCB (ClientCB κ))
    (opened : (w.kernel.conns s).isSome)
    (unregistered : w.kernel.epoll s = none) :
    (w.watch s callbacks true).2.fds[s]? =
        some (callbacks.map (⟨·, w.tickets, w.kernel.conns s⟩)) ∧
      ((w.watch s callbacks true).2.kernel.epoll s).isSome ∧
      (w.watch s callbacks true).2.kernel.conns = w.kernel.conns ∧
      (w.watch s callbacks true).2.user = w.user := by
  unfold World.watch
  refine ⟨?_, ?_, ?_, ?_⟩
  · simp [World.epollUpdate, World.log]
  · simp [World.epollUpdate, World.log, Kernel.epollCtl, opened, unregistered]
  · simp [World.log]
  · simp [World.log]

theorem watch_spares {callbacks : EventCB (ClientCB κ)}
    (none_connect : callbacks .connect = none) (reWatch : Bool) :
    Spares s w (w.watch s callbacks reWatch).2 ∧
      (w.watch s callbacks reWatch).2.kernel.conns = w.kernel.conns ∧
      (w.watch s callbacks reWatch).2.user = w.user := by
  unfold World.watch
  refine ⟨⟨?_, ?_, ?_⟩, ?_, ?_⟩
  · simp [World.log]
  · intro empty
    simp only [World.log, World.epollUpdate_currentCb]
    split
    · simp [EventCB.map, none_connect]
    · exact empty
  · intro _
    rw [World.epollUpdate_callbacksAt]
    simp [World.log, World.callbacksAt, EventCB.map, none_connect]
  · simp [World.log]
  · simp [World.log]

theorem watchRest_spares (callbacks : EventCB (ClientCB κ)) (reWatch : Bool) :
    ∃ after, (watchRest callbacks s reWatch : EM (ClientCB κ) σ Unit) w =
        .ok () after ∧
      Spares s w after ∧ after.kernel.conns = w.kernel.conns ∧
      after.user = w.user := by
  have erased : callbacks.erase .connect .connect = none :=
    Function.update_self ..
  unfold watchRest
  split
  · exact ⟨w, rfl, .refl w, rfl, rfl⟩
  · exact ⟨(w.watch s (callbacks.erase .connect) reWatch).2, rfl,
      watch_spares erased reWatch⟩

theorem unwatch_unknown (d : Dispatch (ClientCB κ) σ) (noCallback : Bool)
    (unknown : w.fds[s]? = none) :
    EventManager.unwatch d s noCallback w = .ok false w := by
  unfold EventManager.unwatch
  rw [get_bind, unknown]
  rfl

/-- A forced close of a descriptor that is not watched only puts it on the
list of those to be closed. -/
theorem close_unknown (d : Dispatch (ClientCB κ) σ)
    (unknown : w.fds[s]? = none) :
    ∃ after, EventManager.close d s true w = .ok true after ∧
      after.fds = w.fds ∧ after.kernel = w.kernel ∧
      after.currentFd = w.currentFd ∧ after.currentCb = w.currentCb ∧
      after.user = w.user := by
  have begins : (w.discard s true).beginEnd s none true = w.discard s true := by
    have missing : (w.discard s true).fds[s]? = none := unknown
    unfold World.beginEnd
    rw [missing]
  have ends : EventManager.endWatch d s none true (w.discard s true) =
      .ok false (w.discard s true) := by
    unfold EventManager.endWatch
    rw [modify_bind, begins]
    exact unwatch_unknown d false unknown
  refine ⟨(w.discard s true).addCloseFd s false, ?_, rfl, rfl, rfl, rfl, rfl⟩
  unfold EventManager.close
  rw [get_bind, modify_bind, unknown]
  dsimp only [Option.bind_none]
  rw [bind_of_ok ends]
  rfl

theorem outcomeOf_connected {d : Dispatch (ClientCB κ) σ}
    {callback : ClientCB κ}
    (told : d.invoke callback s (.result .ok) w = .ok () after) :
    outcomeOf d (onConnect callback) s .connected w = .ok s after := by
  rw [← notify_onConnect] at told
  change (notify d id (onConnect callback) s .ok >>= fun _ =>
    watchRest (onConnect callback) s true >>= fun _ => pure s) w = _
  rw [bind_of_ok told, bind_of_ok (watchRest_onConnect callback true)]
  rfl

theorem outcomeOf_failed {d : Dispatch (ClientCB κ) σ} {callback : ClientCB κ}
    (unknown : w.fds[s]? = none)
    (told : d.invoke callback s (.result .ng) w = .ok () after) :
    outcomeOf d (onConnect callback) s .failed w = .ok (-1) after := by
  rw [← notify_onConnect] at told
  change (EventManager.unwatch d s true >>= fun _ =>
    notify d id (onConnect callback) s .ng >>= fun _ => pure (-1)) w = _
  rw [bind_of_ok (unwatch_unknown d true unknown), bind_of_ok told]
  rfl

theorem Asked.placed {rest : List Ending} (asked : Asked s rest w after)
    (placed : Placed s w) : Placed s after := by
  refine ⟨placed.nonneg, asked.opened, ?_⟩
  rw [asked.fds]
  exact placed.unknown

end Pieces

section Telling

variable {body : κ → Fd → Arg → World (ClientCB κ) σ → ClientProgram κ σ}
  {wantMessage : κ → Bool} {unwatched : Fd → σ → σ} {callback : κ}
  {heard : σ → List (Fd × ConnectResult)} {needs : Nat} {s : Fd}
  (listens : Listens (app body wantMessage unwatched) callback heard needs s)
  {callbacks : EventCB κ} (found : callbacks .connect = some callback)
  {depth : Nat} (deep : needs ≤ depth) {w : World (ClientCB κ) σ}
include listens found deep

theorem notify_told (fd : Fd) (outcome : ConnectResult) :
    ∃ after, notify ((app body wantMessage unwatched).dispatch depth) .user
        callbacks fd outcome w = .ok () after ∧
      heard after.user = heard w.user ++ [(fd, outcome)] ∧
      after.kernel.conns s = w.kernel.conns s ∧ Spares s w after ∧
      (outcome ≠ .ok → w.fds[s]? = none → after.fds[s]? = none) := by
  unfold notify
  rw [found]
  exact listens.told depth deep fd outcome w

/-- The failure is reported once and the placeholder is closed. -/
theorem connectFail_told (outcome : ConnectResult) (failure : outcome ≠ .ok)
    (unknown : w.fds[s]? = none) :
    ∃ after, connectFail ((app body wantMessage unwatched).dispatch depth)
        callbacks s s outcome w = .ok () after ∧
      heard after.user = heard w.user ++ [(s, outcome)] ∧
      after.kernel.conns s = w.kernel.conns s ∧ after.fds[s]? = none ∧
      Spares s w after := by
  obtain ⟨told, returned, once, opened, spares, kept⟩ :=
    notify_told listens found deep (w := w) s outcome
  have unknown := kept failure unknown
  obtain ⟨closed, closes, fds, kernel, currentFd, currentCb, user⟩ :=
    close_unknown ((app body wantMessage unwatched).dispatch depth) unknown
  refine ⟨closed, ?_, ?_, ?_, ?_, ?_⟩
  · unfold connectFail
    rw [bind_of_ok returned, bind_of_ok closes]
    rfl
  · rw [user, once]
  · rw [kernel, opened]
  · rw [fds, unknown]
  · refine spares.trans ⟨currentFd, ?_, ?_⟩
    · rw [currentCb]
      exact id
    · rw [World.callbacksAt, World.callbacksAt, fds]
      exact id

/-- The success is reported once; the other callbacks are watched. -/
theorem hostConnected_told (later : List Address)
    (placeholder : Fd) :
    ∃ after, hostConnected ((app body wantMessage unwatched).dispatch depth)
        callbacks later placeholder s .ok w = .ok () after ∧
      heard after.user = heard w.user ++ [(s, .ok)] ∧
      after.kernel.conns s = w.kernel.conns s ∧ Spares s w after := by
  obtain ⟨told, returned, once, opened, spares, -⟩ :=
    notify_told listens found deep (w := w) s .ok
  obtain ⟨watching, watches, more, conns, user⟩ :=
    watchRest_spares (s := s) (w := told) (callbacks.map ClientCB.user) false
  refine ⟨watching, ?_, ?_, ?_, spares.trans more⟩
  · exact (bind_of_ok returned).trans watches
  · rw [user, once]
  · rw [conns, opened]

/-- When TLS cannot be set up the failure is reported and `-1` is returned. -/
theorem connectHost_insecure {addresses : List Address}
    (resolved : addresses ≠ []) (free : w.kernel.Free s)
    (unknown : w.fds[s]? = none) {numbers : List Fd}
    (handed : w.kernel.answers.numbers = s :: numbers) :
    ∃ after, connectHost ((app body wantMessage unwatched).dispatch depth)
        addresses callbacks (some false) w = .ok (-1) after ∧
      heard after.user = heard w.user ++ [(-1, .ng)] := by
  obtain ⟨first, others, rfl⟩ := List.exists_cons_of_ne_nil resolved
  obtain ⟨opened, opens, placed, -, -, user⟩ := openOn_new handed free unknown
  obtain ⟨closed, closes, -, -, -, -, same⟩ := close_unknown
    ((app body wantMessage unwatched).dispatch depth) placed.unknown
  obtain ⟨after, returned, once, -⟩ :=
    notify_told listens found deep (w := closed) (-1) .ng
  refine ⟨after, ?_, ?_⟩
  · exact (bind_of_ok opens).trans
      ((bind_of_ok closes).trans (bind_of_ok returned))
  · rw [once, same, user]

end Telling

section Trying

variable {body : κ → Fd → Arg → World (ClientCB κ) σ → ClientProgram κ σ}
  {wantMessage : κ → Bool} {unwatched : Fd → σ → σ} {callback : κ}
  {heard : σ → List (Fd × ConnectResult)} {needs : Nat} {s : Fd}
  (listens : Listens (app body wantMessage unwatched) callback heard needs s)
  {callbacks : EventCB κ} (found : callbacks .connect = some callback)

/-- The attempt has gone on from `w`. -/
structure Advanced (callbacks : EventCB κ)
    (heard : σ → List (Fd × ConnectResult)) (s : Fd) (endings : List Ending)
    (w after : World (ClientCB κ) σ) : Prop where
  standing : Standing callbacks heard s (heard w.user) (verdict endings)
    (awaited endings) after
  opened : (after.kernel.conns s).isSome

theorem watch_waits {later : List Address} {ending : Ending}
    {rest : List Ending} {w asked : World (ClientCB κ) σ}
    (pending : awaited (ending :: rest) = ending :: rest)
    (left : rest.length = later.length) (facts : Asked s rest w asked) :
    Advanced callbacks heard s (ending :: rest) w
      (asked.watch s (onConnect (.host callbacks later s)) true).2 := by
  obtain ⟨stored, registered, conns, user⟩ := watch_registers
    (onConnect (.host callbacks later s)) facts.opened facts.unregistered
  have slot : (onConnect (.host callbacks later s)).map
      (⟨·, asked.tickets, asked.kernel.conns s⟩ : ClientCB κ → Handler _)
      .connect =
      some ⟨.host callbacks later s, asked.tickets, asked.kernel.conns s⟩ := rfl
  have opened : ((asked.watch s
      (onConnect (.host callbacks later s)) true).2.kernel.conns s).isSome := by
    rw [conns]
    exact facts.opened
  refine ⟨?_, opened⟩
  rw [pending]
  refine .waiting opened registered stored slot rfl left rfl ?_
  rw [user, facts.user]

include listens found

/-- A refused address is followed by the next one, or by the failure of the
whole attempt. -/
theorem hostConnected_refused (endings : List Ending) {later : List Address}
    {depth : Nat} {w : World (ClientCB κ) σ}
    (left : endings.length = later.length) (deep : needs ≤ depth)
    (placed : Placed s w)
    (next : ∀ address others, later = address :: others →
      ∃ result after, connectOn
          ((app body wantMessage unwatched).dispatch depth)
          (onConnect (.host callbacks others s)) s w = .ok result after ∧
        Advanced callbacks heard s endings w after) :
    ∃ after, hostConnected ((app body wantMessage unwatched).dispatch depth)
        callbacks later s s .ng w = .ok () after ∧
      Advanced callbacks heard s endings w after := by
  cases later with
  | nil =>
      obtain ⟨after, returned, once, opened, unknown, spares⟩ :=
        connectFail_told listens found deep (w := w) .ng
          (fun same => by cases same) placed.unknown
      rw [List.eq_nil_of_length_eq_zero left]
      refine ⟨after, returned, .told (spares.slot placed.slot) once, ?_⟩
      rw [opened]
      exact placed.opened
  | cons address others =>
      obtain ⟨result, after, returned, advanced⟩ := next address others rfl
      exact ⟨after, bind_of_ok returned, advanced⟩

/-- Another address: it is connected at once, fails at once, or is under way. -/
theorem connectOn_tries (endings : List Ending) :
    ∀ {depth : Nat} {later : List Address} {w : World (ClientCB κ) σ},
      endings.length = later.length + 1 → needs + endings.length ≤ depth →
      Placed s w → Supplied w.kernel endings →
      ∃ result after, connectOn
          ((app body wantMessage unwatched).dispatch depth)
          (onConnect (.host callbacks later s)) s w = .ok result after ∧
        Advanced callbacks heard s endings w after := by
  induction endings with
  | nil =>
      intro depth later w length
      cases length
  | cons ending rest induction =>
      intro depth later w length deep placed supplied
      rw [List.length_cons] at length deep
      obtain ⟨nesting, rfl⟩ : ∃ nesting, depth = nesting + 1 :=
        ⟨depth - 1, by omega⟩
      have left : rest.length = later.length := Nat.succ.inj length
      have shallow : needs ≤ nesting := by omega
      obtain ⟨asked, facts, tried⟩ := connectOn_eq
        ((app body wantMessage unwatched).dispatch (nesting + 1))
        (onConnect (.host callbacks later s)) placed supplied
      have askedPlaced := facts.placed placed
      cases ending with
      | reported flags connected =>
          exact ⟨s, _, tried, watch_waits rfl left facts⟩
      | givenUp => exact ⟨s, _, tried, watch_waits rfl left facts⟩
      | atOnce connected =>
          cases connected with
          | true =>
              obtain ⟨after, returned, once, opened, spares⟩ :=
                hostConnected_told listens found shallow (w := asked) later s
              refine ⟨s, after, tried.trans (outcomeOf_connected returned),
                .told ?_ ?_, ?_⟩
              · exact spares.slot askedPlaced.slot
              · rw [once, facts.user]
                rfl
              · rw [opened]
                exact facts.opened
          | false =>
              obtain ⟨after, returned, advanced⟩ :=
                hostConnected_refused listens found rest left shallow
                  askedPlaced (by
                    intro address others same
                    rw [same] at left
                    exact induction left (by omega) askedPlaced facts.supplied)
              have standing := advanced.standing
              rw [facts.user] at standing
              exact ⟨-1, after,
                tried.trans (outcomeOf_failed askedPlaced.unknown returned),
                standing, advanced.opened⟩

/-- The host is found and TLS, if any, is set up: the placeholder is returned
and the addresses are tried. -/
theorem connectHost_advances {addresses : List Address}
    {endings : List Ending} {ssl : Option Bool} {depth : Nat}
    {w : World (ClientCB κ) σ} (resolved : addresses ≠ [])
    (secured : ssl ≠ some false) (length : endings.length = addresses.length)
    (deep : needs + endings.length ≤ depth) (ready : Ready w s endings) :
    ∃ after, connectHost ((app body wantMessage unwatched).dispatch depth)
        addresses callbacks ssl w = .ok s after ∧
      Advanced callbacks heard s endings w after := by
  obtain ⟨numbers, handed, enough, free⟩ := ready.numbers
  obtain ⟨first, others, rfl⟩ := List.exists_cons_of_ne_nil resolved
  obtain ⟨opened, opens, placed, answers, stillFree, user⟩ :=
    openOn_new handed ready.free ready.unknown
  have supplied : Supplied opened.kernel endings := by
    refine ⟨?_, ?_, ?_⟩
    · rw [answers]
      exact ready.connects
    · rw [answers]
      exact enough
    · rw [answers]
      intro number member
      obtain ⟨numberFree, different⟩ := free number member
      exact stillFree number different numberFree
  have started : ∀ {between : World (ClientCB κ) σ}, Placed s between →
      Supplied between.kernel endings → between.user = opened.user →
      ∃ result after, connectOn
          ((app body wantMessage unwatched).dispatch depth)
          (onConnect (.host callbacks others s)) s between = .ok result after ∧
        Advanced callbacks heard s endings w after := by
    intro between placed supplied same
    obtain ⟨result, after, tried, advanced⟩ := connectOn_tries listens found
      endings length deep placed supplied
    have standing := advanced.standing
    rw [same, user] at standing
    exact ⟨result, after, tried, standing, advanced.opened⟩
  cases ssl with
  | none =>
      obtain ⟨result, after, tried, advanced⟩ := started placed supplied rfl
      exact ⟨after, (bind_of_ok opens).trans (bind_of_ok tried), advanced⟩
  | some initialized =>
      cases initialized with
      | false => exact absurd rfl secured
      | true =>
          obtain ⟨result, after, tried, advanced⟩ := @started
            (opened.setSsl s {})
            ⟨placed.nonneg, placed.opened, placed.unknown⟩
            ⟨supplied.connects, supplied.enough, supplied.free⟩ rfl
          exact ⟨after, (bind_of_ok opens).trans (bind_of_ok tried), advanced⟩

end Trying

end Client

end Universe
