import Universe.ClientBase.Execution

/-!
# Sockets of the table are live

`C::Base::connect` and `close` keep the table, and nothing else does.  An entry
stands for the connection that was made for its address as long as the number
of this connection came free of its past and the connection does not end
outside of `C::Base::close`.
-/

namespace Universe

open Std (ExtTreeMap)

section Releases

variable {β : Type} {past : List (Event β)} {fd : Fd}

theorem mem_begun_advance {progress : Progress} {list : List (Frame β)}
    (late : progress ≠ .begun) (member : fd ∈ begun (advance progress list)) :
    fd ∈ begun list := by
  cases list with
  | nil => exact member
  | cons frame rest =>
      have later : fd ∈ begun rest := by
        unfold advance begun at member
        rwa [if_neg late] at member
      unfold begun
      split
      · exact List.mem_cons_of_mem _ later
      · exact later

/-- Only the end of its own registration puts a descriptor on its way out. -/
theorem mem_begun_cons {event : Event β}
    (member : fd ∈ begun (frames (event :: past))) :
    fd ∈ begun (frames past) ∨
      ∃ handler stored byClose, event = .ending fd handler stored byClose := by
  cases event with
  | ending other handler stored byClose =>
      have either : fd = other ∨ fd ∈ begun (frames past) := by
        simpa [frames, begun] using member
      rcases either with rfl | before
      · exact .inr ⟨handler, stored, byClose, rfl⟩
      · exact .inl before
  | released other conn own pending =>
      cases own with
      | true => exact .inl (mem_begun_advance (by decide) member)
      | false => exact .inl member
  | invoked other kind ticket cause stored current =>
      cases kind with
      | close => exact .inl (mem_begun_advance (by decide) member)
      | _ => exact .inl member
  | ended =>
      have later : fd ∈ begun (frames past).tail := member
      left
      cases ends : frames past with
      | nil =>
          rw [ends] at later
          exact later
      | cons frame rest =>
          rw [ends] at later
          unfold begun
          split
          · exact List.mem_cons_of_mem _ later
          · exact later
  | _ => exact .inl member

end Releases

namespace ClientBase

variable {κ : Type}

/-- The socket of the entry is the connection that was made for the address.
It is open, watched with the callbacks of `C::Base`, and nothing is about to
close it. -/
structure Live (w : World (Stored κ) State) (entry : Entry) : Prop where
  opened : ∃ conn, entry.conn = some conn ∧
    w.kernel.conns entry.socket = some conn
  message : w.callbacksAt entry.socket .read =
    some ⟨.user .message, entry.ticket, entry.conn⟩
  closed : w.callbacksAt entry.socket .close =
    some ⟨.user .closed, entry.ticket, entry.conn⟩
  watched : (w.kernel.epoll entry.socket).isSome
  stays : w.releasing entry.socket = false

/-- No connect is waited for on the socket of the entry, so that none can
fail. -/
structure Firm (w : World (Stored κ) State) (entry : Entry) : Prop
    extends Live w entry where
  quiet : w.callbacksAt entry.socket .connect = none
  calm : dispatching w.history = true → w.currentFd = entry.socket →
    w.currentCb .connect = none

section Entries

variable {entry : Entry} {w after : World (Stored κ) State} {fd : Fd}
  {history : List (Event (Stored κ))}

theorem suffers_eq_false (kept : entry.lost history = false)
    {event : Event (Stored κ)} (member : event ∈ history) :
    entry.suffers event = false := by
  simp only [Entry.lost, Bool.or_eq_false_iff, List.any_eq_false] at kept
  simpa using kept.2 event member

theorem lost_of_suffix {later : List (Event (Stored κ))}
    (suffix : history <:+ later) (kept : entry.lost later = false) :
    entry.lost history = false := by
  simp only [Entry.lost, Bool.or_eq_false_iff, List.any_eq_false] at kept ⊢
  exact ⟨kept.1, fun event member => kept.2 event (suffix.subset member)⟩

/-- The end of the registration of a live entry is a loss. -/
theorem Live.not_ending (live : Live w entry)
    {callbacks : EventCB (Handler (Stored κ))}
    (registered : w.fds[entry.socket]? = some callbacks)
    {handler : Option (Handler (Stored κ))} {byClose : Bool}
    (member : .ending entry.socket handler (callbacks .close) byClose ∈
      history) : entry.lost history = true := by
  have same : w.callbacksAt entry.socket = callbacks := by
    unfold World.callbacksAt
    rw [registered]
    rfl
  have closed := live.closed
  rw [same] at closed
  rw [closed] at member
  by_contra kept
  have spared := suffers_eq_false (Bool.eq_false_iff.mpr kept) member
  simp [Entry.suffers] at spared

theorem Live.registered (live : Live w entry) :
    w.fds.contains entry.socket = true := by
  rw [← ExtTreeMap.isSome_getElem?_eq_contains]
  by_contra missing
  have closed := live.closed
  unfold World.callbacksAt at closed
  rw [Option.not_isSome_iff_eq_none.mp missing] at closed
  cases closed

namespace Firm

variable (firm : Firm w entry)
include firm

theorem of_same
    (conns : after.kernel.conns entry.socket = w.kernel.conns entry.socket)
    (watched : (after.kernel.epoll entry.socket).isSome)
    (callbacks : after.callbacksAt entry.socket = w.callbacksAt entry.socket)
    (stays : after.releasing entry.socket = false)
    (calm : dispatching after.history = true →
      after.currentFd = entry.socket → after.currentCb .connect = none) :
    Firm after entry := by
  refine ⟨⟨?_, ?_, ?_, watched, stays⟩, ?_, calm⟩
  · rw [conns]
    exact firm.opened
  · rw [callbacks]
    exact firm.message
  · rw [callbacks]
    exact firm.closed
  · rw [callbacks]
    exact firm.quiet

theorem stays_cons {event : Event (Stored κ)}
    (closeFds : after.closeFds = w.closeFds)
    (history : after.history = event :: w.history)
    (notEnding : ∀ handler stored byClose,
      event ≠ .ending entry.socket handler stored byClose) :
    after.releasing entry.socket = false := by
  obtain ⟨notListed, notBegun⟩ := World.releasing_eq_false.mp firm.stays
  refine World.releasing_eq_false.mpr ⟨?_, ?_⟩
  · rw [closeFds]
    exact notListed
  · intro member
    rw [history] at member
    rcases mem_begun_cons member with before | ⟨handler, stored, byClose, same⟩
    · exact notBegun before
    · exact notEnding handler stored byClose same

theorem log (event : Event (Stored κ))
    (notEnding : ∀ handler stored byClose,
      event ≠ .ending entry.socket handler stored byClose)
    (loop : dispatching (event :: w.history) = true →
      dispatching w.history = true) : Firm (w.log event) entry :=
  firm.of_same rfl firm.watched rfl (firm.stays_cons rfl rfl notEnding)
    fun looping here => firm.calm (loop looping) here

theorem logCall (handler : Handler (Stored κ)) (fd : Fd) (event : EventType)
    (cause : Cause) : Firm (w.logCall handler fd event cause) entry := by
  apply firm.log
  · intro _ _ _ impossible
    cases impossible
  · exact id

theorem epollUpdate {op : EpollOp} (keep : op ≠ .del) (fd : Fd) (et : Bool) :
    Firm (w.epollUpdate fd op et).2 entry := by
  have history := World.epollUpdate_history w fd et keep
  refine firm.of_same ?_ ?_ ?_ ?_ ?_
  · rw [World.epollUpdate_conns]
  · exact World.epollUpdate_stays keep et entry.socket firm.watched
  · rw [World.epollUpdate_callbacksAt]
  · refine firm.stays_cons (World.epollUpdate_closeFds ..) history ?_
    intro _ _ _ impossible
    cases impossible
  · intro looping here
    rw [history] at looping
    rw [World.epollUpdate_currentFd] at here
    rw [World.epollUpdate_currentCb]
    exact firm.calm looping here

/-- Callbacks that other code stores for the socket are a loss; on other
numbers they leave the entry alone. -/
theorem rewatch {callbacks current : EventCB (Handler (Stored κ))}
    {reWatch isCurrent : Bool} {op : EpollOp} {et : Bool}
    (old : entry.ticket < w.tickets) (keep : op ≠ .del)
    (elsewhere : fd ≠ w.currentFd → current = w.currentCb)
    (kept : entry.lost (({ w with
      fds := w.fds.insert fd callbacks
      currentCb := current
      tickets := w.tickets + 1 }.log
        (.watched fd w.tickets reWatch isCurrent)).epollUpdate fd op
          et).2.history = false) :
    Firm (({ w with
      fds := w.fds.insert fd callbacks
      currentCb := current
      tickets := w.tickets + 1 }.log
        (.watched fd w.tickets reWatch isCurrent)).epollUpdate fd op et).2
      entry := by
  have different : fd ≠ entry.socket := by
    rintro rfl
    rw [World.epollUpdate_history _ _ _ keep] at kept
    have spared := suffers_eq_false kept
      (List.mem_cons_of_mem _ List.mem_cons_self)
    simp [Entry.suffers, old] at spared
  refine epollUpdate ?_ keep fd et
  refine firm.of_same rfl firm.watched ?_ ?_ ?_
  · refine (congrFun (w.callbacksAt_of_insert fd rfl) _).trans ?_
    exact Function.update_of_ne (Ne.symm different) _ _
  · refine firm.stays_cons rfl rfl ?_
    intro _ _ _ impossible
    cases impossible
  · intro looping here
    have here : w.currentFd = entry.socket := here
    change current .connect = none
    rw [elsewhere fun same => different (same.trans here)]
    exact firm.calm looping here

/-- The registration of another number is taken out. -/
theorem unregister (different : fd ≠ entry.socket) :
    Firm (w.unregister fd).2 entry := by
  refine firm.of_same (by simp [World.unregister]) ?_ ?_ ?_ ?_
  · simp only [World.unregister, World.epollUpdate_del_epoll]
    rw [Function.update_of_ne (Ne.symm different)]
    exact firm.watched
  · simp only [World.unregister, World.epollUpdate_callbacksAt]
    rw [w.callbacksAt_of_erase fd rfl]
    exact Function.update_of_ne (Ne.symm different) _ _
  · have same : (w.unregister fd).2.releasing = w.releasing :=
      World.releasing_congr rfl rfl
    rw [same]
    exact firm.stays
  · intro looping here
    have current : (w.unregister fd).2.currentCb =
        if fd = w.currentFd then EventCB.empty else w.currentCb := rfl
    rw [current, if_neg fun same => different (same.trans here)]
    exact firm.calm looping here

/-- Another number goes to `_close_fds`. -/
theorem addCloseFd (different : fd ≠ entry.socket) (own : Bool) :
    Firm (w.addCloseFd fd own) entry := by
  obtain ⟨notListed, notBegun⟩ := World.releasing_eq_false.mp firm.stays
  refine firm.of_same rfl firm.watched rfl ?_ firm.calm
  refine World.releasing_eq_false.mpr ⟨?_, ?_⟩
  · intro member
    rcases List.mem_append.mp member with before | last
    · exact notListed before
    · exact different (List.mem_singleton.mp last).symm
  · intro member
    rcases mem_begun_cons member with before | ⟨_, _, _, impossible⟩
    · exact notBegun before
    · cases impossible

theorem eraseConnect : Firm w.eraseConnect entry := by
  have erased : w.eraseConnect.callbacksAt = Function.update w.callbacksAt
      w.currentFd ((w.callbacksAt w.currentFd).erase .connect) :=
    w.callbacksAt_of_insert w.currentFd rfl
  have callbacks : ∀ event, event ≠ .connect →
      w.eraseConnect.callbacksAt entry.socket event =
        w.callbacksAt entry.socket event := by
    intro event other
    rw [erased]
    by_cases here : entry.socket = w.currentFd
    · rw [here, Function.update_self]
      exact Function.update_of_ne other _ _
    · rw [Function.update_of_ne here]
  have connect : w.eraseConnect.callbacksAt entry.socket .connect = none := by
    rw [erased]
    by_cases here : entry.socket = w.currentFd
    · rw [here, Function.update_self]
      exact Function.update_self ..
    · rw [Function.update_of_ne here]
      exact firm.quiet
  refine ⟨⟨firm.opened, ?_, ?_, firm.watched, firm.stays⟩, connect, ?_⟩
  · rw [callbacks .read (by decide)]
    exact firm.message
  · rw [callbacks .close (by decide)]
    exact firm.closed
  · intro _ _
    simp [World.eraseConnect, EventCB.erase]

theorem submit (fd : Fd) (data : Bytes) : Firm (w.submit fd data).2 entry := by
  have same := World.submit_submitted w fd data
  have grows := submit_grows w fd data
  have framesKept : frames (w.submit fd data).2.history = frames w.history := by
    refine grows.same ?_
    intro event past writing
    cases event <;> first | rfl | cases writing
  refine firm.of_same ?_ (same.stays _ firm.watched) ?_ ?_ ?_
  · rw [same.conns]
  · rw [same.callbacksAt]
  · rw [World.releasing_congr same.closeFds framesKept]
    exact firm.stays
  · intro looping here
    rw [grows.same dispatching_writing] at looping
    rw [same.currentFd] at here
    rw [same.currentCb]
    exact firm.calm looping here

/-- A number that is not that of the entry is opened or closed. -/
theorem openFd (different : fd ≠ entry.socket) :
    Firm { w with kernel := w.kernel.openFd fd } entry := by
  refine firm.of_same ?_ firm.watched rfl firm.stays firm.calm
  exact Function.update_of_ne (Ne.symm different) _ _

theorem closeFd (different : fd ≠ entry.socket) :
    Firm { w with kernel := w.kernel.closeFd fd } entry := by
  refine firm.of_same ?_ ?_ rfl firm.stays firm.calm
  · exact Function.update_of_ne (Ne.symm different) _ _
  · change (Function.update w.kernel.epoll fd none entry.socket).isSome = true
    rw [Function.update_of_ne (Ne.symm different)]
    exact firm.watched

theorem ne_of_free (free : w.kernel.Free fd) : fd ≠ entry.socket := by
  rintro rfl
  obtain ⟨conn, -, opened⟩ := firm.opened
  rw [free.2] at opened
  cases opened

/-- The end of another registration. -/
theorem detach {callbacks : EventCB (Handler (Stored κ))}
    {handler : Option (Handler (Stored κ))} {byClose : Bool}
    (registered : w.fds[fd]? = some callbacks)
    (kept : entry.lost (w.detach fd callbacks handler byClose).history =
      false) : Firm (w.detach fd callbacks handler byClose) entry := by
  have different : fd ≠ entry.socket := by
    rintro rfl
    have lost : entry.lost (w.detach entry.socket callbacks handler
        byClose).history = true :=
      firm.toLive.not_ending registered List.mem_cons_self
    rw [lost] at kept
    cases kept
  refine Firm.unregister ?_ different
  refine firm.log _ ?_ id
  intro _ _ _ same
  injection same with here
  exact different here

/-- A registration that is not in the interest list is not that of the
entry. -/
theorem unlisted (missing : w.kernel.epoll fd = none) :
    Firm (w.unregister fd).2 entry := by
  refine firm.unregister ?_
  rintro rfl
  have inside := firm.watched
  rw [missing] at inside
  cases inside

/-- What an end under way puts on the list is not the socket of the entry. -/
theorem release {frame : Frame (Stored κ)} {rest : List (Frame (Stored κ))}
    (sound : w.kernel.Sound) (top : frames w.history = frame :: rest)
    (progress : frame.progress = .begun) (same : fd = frame.fd ∨ fd = -1) :
    Firm (w.addCloseFd fd true) entry := by
  refine firm.addCloseFd ?_ true
  rintro rfl
  rcases same with same | negative
  · have notBegun := (World.releasing_eq_false.mp firm.stays).2
    rw [top] at notBegun
    simp [begun, progress, same] at notBegun
  · obtain ⟨conn, -, opened⟩ := firm.opened
    have nonneg := sound.openNonneg entry.socket (by simp [opened])
    rw [negative] at nonneg
    exact absurd nonneg (by decide)

/-- A connect that is refused is not one of an entry. -/
theorem refuse {handler : Handler (Stored κ)}
    (loop : dispatching w.history = true)
    (found : w.currentCb .connect = some handler) :
    Firm (w.eraseConnect.unregister w.currentFd).2 entry := by
  refine firm.eraseConnect.unregister ?_
  intro here
  rw [firm.calm loop here] at found
  cases found

theorem logRequest (fd : Fd) (data : Bytes) :
    Firm (w.logRequest fd data) entry := by
  unfold World.logRequest
  split
  · exact firm
  · refine firm.log _ ?_ id
    intro _ _ _ impossible
    cases impossible

theorem skip (unregistered : w.fds.contains fd = false) :
    Firm (w.enter fd) entry := by
  refine firm.of_same rfl firm.watched rfl (firm.stays_cons rfl rfl ?_) ?_
  · intro _ _ _ impossible
    cases impossible
  · intro looping
    have looping : w.fds.contains fd = true := looping
    rw [unregistered] at looping
    cases looping

theorem load {callbacks : EventCB (Handler (Stored κ))}
    (registered : w.fds[fd]? = some callbacks) :
    Firm ((w.enter fd).loadCb callbacks) entry := by
  refine firm.of_same rfl firm.watched rfl (firm.stays_cons rfl rfl ?_) ?_
  · intro _ _ _ impossible
    cases impossible
  · rintro - rfl
    have quiet := firm.quiet
    unfold World.callbacksAt at quiet
    have here : w.fds[entry.socket]? = some callbacks := registered
    rw [here] at quiet
    exact quiet

theorem leave : Firm w.leave entry := by
  refine firm.of_same rfl firm.watched rfl (firm.stays_cons rfl rfl ?_) ?_
  · intro _ _ _ impossible
    cases impossible
  · intro impossible
    cases impossible

/-- What is closed was on the list. -/
theorem sysClose {rest : List Fd} (next : w.closeFds = fd :: rest) :
    Firm ({ w with closeFds := rest }.sysClose fd) entry := by
  obtain ⟨notListed, notBegun⟩ := World.releasing_eq_false.mp firm.stays
  rw [next, List.mem_cons, not_or] at notListed
  have shorter : Firm { w with closeFds := rest } entry := by
    refine firm.of_same rfl firm.watched rfl ?_ firm.calm
    exact World.releasing_eq_false.mpr ⟨notListed.2, notBegun⟩
  refine (shorter.closeFd (Ne.symm notListed.1)).log _ ?_ id
  intro _ _ _ impossible
  cases impossible

theorem outside (change : Outside w after) : Firm after entry := by
  have members : ∀ change : State → State, Firm (w.mapUser change) entry :=
    fun _ => firm.of_same rfl firm.watched rfl firm.stays firm.calm
  cases change with
  | accept w fd =>
      unfold World.acceptFd
      split
      · next free =>
          refine (firm.openFd (firm.ne_of_free free)).log _ ?_ id
          intro _ _ _ impossible
          cases impossible
      · exact firm
  | closeSocket w fd =>
      unfold World.closeSocket
      split
      · next free =>
          have different := firm.ne_of_free free
          exact (firm.openFd different).closeFd different
      · exact firm
  | same w => exact firm
  | setAutoReconnect w autoReconnect => exact members _
  | closing w connectAddr entry found => exact members _
  | closed w connectAddr => exact members _
  | connected w connectAddr socket opened unwatched => exact members _
  | sent w address => exact members _

end Firm

/-- A new socket on a number that was free of its past. -/
theorem firm_connected {socket : Fd} (opened : (w.kernel.conns socket).isSome)
    (unwatched : w.kernel.epoll socket = none)
    (clean : (entryFor w socket).stale = false) :
    Firm (w.watch socket toCallbacks).2 (entryFor w socket) := by
  simp only [entryFor, Bool.or_eq_false_iff] at clean
  obtain ⟨conn, conns⟩ := Option.isSome_iff_exists.mp opened
  have keep := rewatchOp_ne_del (w.fds.contains socket && !false)
  have stored : (w.watch socket toCallbacks).2.callbacksAt socket =
      toCallbacks.map (⟨·, w.tickets, w.kernel.conns socket⟩) := by
    unfold World.watch
    rw [World.epollUpdate_callbacksAt, World.callbacksAt_of_insert w socket rfl]
    exact Function.update_self ..
  refine ⟨⟨⟨conn, conns, ?_⟩, ?_, ?_, ?_, ?_⟩, ?_, ?_⟩
  · unfold World.watch
    rw [World.epollUpdate_conns]
    exact conns
  · exact congrFun stored .read
  · exact congrFun stored .close
  · unfold World.watch
    rw [World.epollUpdate_epoll _ _ _ keep]
    simp [clean.1, Kernel.epollCtl, World.log, conns, unwatched, entryFor]
  · have same : (w.watch socket toCallbacks).2.releasing = w.releasing := by
      unfold World.watch
      refine World.releasing_congr (World.epollUpdate_closeFds ..) ?_
      rw [World.epollUpdate_history _ _ _ keep]
      rfl
    rw [same]
    exact clean.2
  · exact congrFun stored .connect
  · intro _ here
    unfold World.watch at here ⊢
    rw [World.epollUpdate_currentFd] at here
    rw [World.epollUpdate_currentCb]
    have here : w.currentFd = socket := here
    simp [World.log, here]
    rfl

end Entries

/-- What holds in every state: each entry is as good as its history allows, and
each packet has gone where it should. -/
structure Steady (w : World (Stored κ) State) : Prop where
  old : ∀ (address : Address) (entry : Entry),
    w.user.addr2socket[address]? = some entry → entry.ticket < w.tickets
  firm : ∀ (address : Address) (entry : Entry),
    w.user.addr2socket[address]? = some entry → entry.closing = false →
    entry.lost w.history = false → Firm w entry
  packets : ∀ packet ∈ w.user.packets, packet.excused = false →
    packet.target = packet.conn

namespace Steady

variable {w after : World (Stored κ) State}

theorem keep (steady : Steady w)
    (table : after.user.addr2socket = w.user.addr2socket)
    (packets : after.user.packets = w.user.packets)
    (tickets : w.tickets ≤ after.tickets)
    (suffix : w.history <:+ after.history)
    (firm : ∀ entry, entry.ticket < w.tickets → Firm w entry →
      entry.lost after.history = false → Firm after entry) :
    Steady after where
  old address entry found := by
    rw [table] at found
    exact Nat.lt_of_lt_of_le (steady.old address entry found) tickets
  firm address entry found idle kept := by
    rw [table] at found
    exact firm entry (steady.old address entry found)
      (steady.firm address entry found idle (lost_of_suffix suffix kept)) kept
  packets := by
    rw [packets]
    exact steady.packets

/-- An entry is made or marked. -/
theorem enter (steady : Steady w) (address : Address) {entry : Entry}
    (old : entry.ticket < w.tickets)
    (firm : entry.closing = false → entry.lost w.history = false →
      Firm w entry) : Steady (w.mapUser (State.enter address entry)) := by
  have cases' : ∀ (other : Address) (found : Entry),
      (w.user.addr2socket.insert address entry)[other]? = some found →
      found = entry ∨ w.user.addr2socket[other]? = some found := by
    intro other found there
    rw [ExtTreeMap.getElem?_insert] at there
    split at there
    · cases there
      exact .inl rfl
    · exact .inr there
  have members : ∀ {found : Entry}, Firm w found →
      Firm (w.mapUser (State.enter address entry)) found :=
    fun firm => firm.of_same rfl firm.watched rfl firm.stays firm.calm
  refine ⟨?_, ?_, steady.packets⟩
  · intro other found there
    rcases cases' other found there with rfl | before
    · exact old
    · exact steady.old other found before
  · intro other found there idle kept
    rcases cases' other found there with rfl | before
    · exact members (firm idle kept)
    · exact members (steady.firm other found before idle kept)

theorem erase (steady : Steady w) (address : Address) :
    Steady (w.mapUser (State.erase address)) := by
  have before : ∀ (other : Address) (found : Entry),
      (w.user.addr2socket.erase address)[other]? = some found →
      w.user.addr2socket[other]? = some found := by
    intro other found there
    rw [ExtTreeMap.getElem?_erase] at there
    split at there
    · cases there
    · exact there
  refine ⟨?_, ?_, steady.packets⟩
  · intro other found there
    exact steady.old other found (before other found there)
  · intro other found there idle kept
    have firm := steady.firm other found (before other found there) idle kept
    exact firm.of_same rfl firm.watched rfl firm.stays firm.calm

/-- A packet for an address goes to the connection of its entry. -/
theorem send (steady : Steady w) (address : Address) :
    Steady (w.mapUser
      (State.send (packetFor w address (w.user.entryOf address)))) := by
  refine ⟨steady.old, ?_, ?_⟩
  · intro other found there idle kept
    have firm := steady.firm other found there idle kept
    exact firm.of_same rfl firm.watched rfl firm.stays firm.calm
  · intro packet member
    rcases List.mem_append.mp member with before | last
    · exact steady.packets packet before
    · rw [List.mem_singleton.mp last]
      intro spared
      simp only [packetFor, Bool.or_eq_false_iff] at spared
      cases there : w.user.addr2socket[address]? with
      | none =>
          have lost := spared.2
          simp [State.entryOf, there, Entry.lost] at lost
      | some entry =>
          have same : w.user.entryOf address = entry := by
            rw [State.entryOf, there]
            rfl
          rw [same] at spared ⊢
          obtain ⟨conn, isConn, opened⟩ :=
            (steady.firm address entry there spared.1 spared.2).opened
          exact opened.trans isConn.symm

theorem outside (steady : Steady w) (change : Outside w after) :
    Steady after := by
  have firm : ∀ entry, entry.ticket < w.tickets → Firm w entry →
      entry.lost after.history = false → Firm after entry :=
    fun _ _ firm _ => firm.outside change
  have suffix := change.untouched.suffix
  cases change with
  | accept w fd =>
      have user : (w.acceptFd fd).user = w.user := by
        unfold World.acceptFd
        split <;> rfl
      have tickets : (w.acceptFd fd).tickets = w.tickets := by
        unfold World.acceptFd
        split <;> rfl
      exact steady.keep (by rw [user]) (by rw [user])
        (Nat.le_of_eq tickets.symm) suffix firm
  | closeSocket w fd =>
      have user : (w.closeSocket fd).user = w.user := by
        unfold World.closeSocket
        split <;> rfl
      have tickets : (w.closeSocket fd).tickets = w.tickets := by
        unfold World.closeSocket
        split <;> rfl
      exact steady.keep (by rw [user]) (by rw [user])
        (Nat.le_of_eq tickets.symm) suffix firm
  | same w => exact steady
  | setAutoReconnect w autoReconnect =>
      exact steady.keep rfl rfl (Nat.le_refl _) suffix firm
  | closing w connectAddr entry found =>
      refine steady.enter connectAddr (steady.old connectAddr entry found) ?_
      intro impossible
      cases impossible
  | closed w connectAddr => exact steady.erase connectAddr
  | connected w connectAddr socket opened unwatched =>
      refine steady.enter connectAddr ?_ ?_
      · unfold World.watch
        rw [World.epollUpdate_tickets]
        exact Nat.lt_succ_self _
      · intro _ kept
        simp only [Entry.lost, Bool.or_eq_false_iff] at kept
        exact firm_connected opened unwatched kept.1
  | sent w address => exact steady.send address

/-- A change that leaves the members alone. -/
theorem move (steady : Steady w) (user : after.user = w.user)
    (tickets : w.tickets ≤ after.tickets)
    (suffix : w.history <:+ after.history)
    (firm : ∀ entry, entry.ticket < w.tickets → Firm w entry →
      entry.lost after.history = false → Firm after entry) :
    Steady after :=
  steady.keep (by rw [user]) (by rw [user]) tickets suffix firm

theorem logged_members (w : World (Stored κ) State) (fd : Fd) (data : Bytes) :
    (w.logRequest fd data).user = w.user ∧
      (w.logRequest fd data).tickets = w.tickets := by
  unfold World.logRequest
  split
  · exact ⟨rfl, rfl⟩
  · exact ⟨rfl, rfl⟩

/-- One case for each step of the event manager. -/
theorem step (steady : Steady w) (base : Base rules w)
    (step : Step rules w after) : Steady after := by
  have suffix := step.suffix
  cases step with
  | outside change => exact steady.outside change
  | watchEvent fd event callback et legit =>
      refine steady.move (by simp [World.watchEvent, World.log])
        (by simp [World.watchEvent, World.log]) suffix ?_
      intro entry old firm kept
      exact firm.rewatch old (rewatchOp_ne_del _)
        (fun other => if_neg (by simpa using other)) kept
  | watch fd callbacks reWatch et legit =>
      refine steady.move (by simp [World.watch, World.log])
        (by simp [World.watch, World.log]) suffix ?_
      intro entry old firm kept
      exact firm.rewatch old (rewatchOp_ne_del _)
        (fun other => if_neg (by simp [other])) kept
  | autoRewatch fd et =>
      refine steady.move (by simp [World.autoRewatch])
        (by simp [World.autoRewatch]) suffix ?_
      intro entry _ firm _
      exact firm.epollUpdate (rewatchOp_ne_del _) fd et
  | unregister fd registered caused =>
      exact steady.move (by simp [World.unregister])
        (by simp [World.unregister]) suffix
        fun entry _ firm _ => firm.unlisted (caused.resolve_left id)
  | discard fd force =>
      refine steady.move rfl (Nat.le_refl _) suffix ?_
      intro entry _ firm _
      refine firm.of_same rfl firm.watched rfl (firm.stays_cons rfl rfl ?_)
        firm.calm
      intro _ _ _ impossible
      cases impossible
  | detach fd callbacks handler byClose registered inEpoll origin =>
      exact steady.move (by simp [World.detach, World.unregister, World.log])
        (by simp [World.detach, World.unregister, World.log]) suffix
        fun entry _ firm kept => firm.detach registered kept
  | forcedRelease fd unregistered recorded =>
      refine steady.move rfl (Nat.le_refl _) suffix ?_
      intro entry _ firm _
      refine firm.addCloseFd ?_ false
      rintro rfl
      rw [firm.toLive.registered] at unregistered
      cases unregistered
  | release fd top progress same =>
      have same := same.imp_right fun negative => negative.2.2.2
      exact steady.move rfl (Nat.le_refl _) suffix
        fun entry _ firm _ => firm.release base.sound top progress same
  | closeCall fd cause top progress owed same caused =>
      exact steady.move rfl (Nat.le_refl _) suffix
        fun entry _ firm _ => firm.logCall ..
  | gameOverCall handler fd =>
      exact steady.move rfl (Nat.le_refl _) suffix
        fun entry _ firm _ => firm.logCall ..
  | dispatch event loop notConnect notClose found =>
      exact steady.move rfl (Nat.le_refl _) suffix
        fun entry _ firm _ => firm.logCall ..
  | eraseConnect loop registered =>
      exact steady.move rfl (Nat.le_refl _) suffix
        fun entry _ firm _ => firm.eraseConnect
  | connected loop registered found =>
      exact steady.move rfl (Nat.le_refl _) suffix
        fun entry _ firm _ => firm.eraseConnect.logCall ..
  | refused loop first registered found user allowed =>
      have removed : Steady (w.eraseConnect.unregister w.currentFd).2 :=
        steady.move (by simp [World.unregister, World.eraseConnect])
          (by simp [World.unregister, World.eraseConnect]) List.suffix_rfl
          fun entry _ firm _ => firm.refuse loop found
      have told := removed.outside (allowed _)
      refine told.move rfl (Nat.le_refl _)
        ((List.suffix_cons _ _).trans (List.suffix_cons _ _)) ?_
      intro entry _ firm _
      refine Firm.logCall ?_ ..
      refine firm.log _ ?_ ?_
      · intro _ _ _ impossible
        cases impossible
      · intro impossible
        cases impossible
  | request fd data =>
      have same := World.submit_submitted (w.logRequest fd data) fd data
      refine steady.move
        ((World.submit_user ..).trans (logged_members w fd data).1)
        (Nat.le_of_eq ?_) suffix
        fun entry _ firm _ => (firm.logRequest fd data).submit fd data
      rw [same.tickets, (logged_members w fd data).2]
  | flush fd queued found =>
      have same := World.submit_submitted (w.takeWriteBuf fd) fd queued
      refine steady.move (World.submit_user ..)
        (Nat.le_of_eq same.tickets.symm) suffix ?_
      intro entry _ firm _
      refine Firm.submit ?_ fd queued
      exact firm.of_same rfl firm.watched rfl firm.stays firm.calm
  | answers answers =>
      exact steady.move rfl (Nat.le_refl _) suffix fun entry _ firm _ =>
        firm.of_same rfl firm.watched rfl firm.stays firm.calm
  | handshake fd =>
      obtain ⟨connections, answers, same⟩ := w.handshake_eq fd
      rw [same] at suffix ⊢
      exact steady.move rfl (Nat.le_refl _) suffix fun entry _ firm _ =>
        firm.of_same rfl firm.watched rfl firm.stays firm.calm
  | skip fd loop inside unregistered =>
      exact steady.move rfl (Nat.le_refl _) suffix
        fun entry _ firm _ => firm.skip unregistered
  | load fd callbacks loop inside registered =>
      exact steady.move rfl (Nat.le_refl _) suffix
        fun entry _ firm _ => firm.load registered
  | leave loop inside =>
      exact steady.move rfl (Nat.le_refl _) suffix
        fun entry _ firm _ => firm.leave
  | sysClose fd rest loop next =>
      exact steady.move rfl (Nat.le_refl _) suffix
        fun entry _ firm _ => firm.sysClose next
  -- What is left only records that something begins or ends.
  | finish | batch | handled =>
      refine steady.move rfl (Nat.le_refl _) suffix ?_
      intro entry _ firm _
      refine firm.log _ ?_ id
      intro _ _ _ impossible
      cases impossible

theorem start (autoReconnect : Bool) (answers : Answers) :
    Steady (World.init { autoReconnect } answers :
      World (Stored κ) State) where
  old _ _ found := by simp [World.init] at found
  firm _ _ found := by simp [World.init] at found
  packets _ member := by cases member

end Steady

/-- In every run, an entry of the table is the open, watched connection to its
address, and no socket that is about to be closed, as long as its number came
free of its past and the connection does not end outside of `C::Base::close`;
and the packets for its address go to this connection. -/
theorem table_holds_live_sockets (run : Run κ) :
    (∀ (address : Address) (entry : Entry),
      run.last.user.addr2socket[address]? = some entry →
      entry.closing = false → entry.lost run.last.history = false →
      Live run.last entry) ∧
    ∀ packet ∈ run.last.user.packets, packet.excused = false →
      packet.target = packet.conn := by
  have steady : Steady run.last :=
    run.invariant Steady Steady.start
      fun base steady step => steady.step base step
  constructor
  · intro address entry found idle kept
    exact (steady.firm address entry found idle kept).toLive
  · exact steady.packets

section Samples

/-- A process whose own callbacks run the given operations. -/
def sample (program onOther : List (BaseOp Unit)) (answers : Answers) :
    Run Unit where
  body := fun
    | .other (), _, _, _ => .sequence onOther
    | _, _, _, _ => .done
  wantMessage := fun _ => false
  depth := 2
  program := .sequence program
  autoReconnect := true
  answers := answers

def waits (events : List (Fd × Flags)) : BaseOp Unit :=
  .manager (.handleEvents (.events events)) trivial

/-- A command that finds its connection broken and connects again. -/
def reconnecting : Run Unit :=
  sample [.connect [1] false, .cmdAddr [1] [7]] []
    { numbers := [5, 7]
      connects := [.connected, .connected]
      writes := [.error .epipe, .accepted 0] }

theorem broken_connection_replaced :
    Live reconnecting.last ⟨7, some 1, 1, false, false⟩ := by
  have sockets := (table_holds_live_sockets reconnecting).1
  exact sockets [1] ⟨7, some 1, 1, false, false⟩ (by decide +kernel) rfl
    (by decide +kernel)

/-- The peer closes the connection to an address, and then comes what is
given; the number of the connection is used again. -/
def afterPeer (program : List (BaseOp Unit)) : Run Unit :=
  sample (.connect [1] false :: waits [(5, { epollRdhup := true })] :: program)
    []
    { numbers := [5, 5]
      connects := [.connected, .connected]
      writes := [.accepted 0] }

/-- A callback closes its descriptor while it can be written, and an address is
connected on the same number. -/
def afterCallback : Run Unit :=
  sample
    [.manager (.accept 5) trivial,
      .manager (.watchEvent 5 .read () true) trivial,
      waits [(5, { epollIn := true, epollOut := true })],
      .connect [1] false]
    [.manager (.close 5 false) trivial]
    { numbers := [5], connects := [.connected] }

/-- An ended connection stays in the table.  When its address is connected
again on the same number, the new connection is about to be closed; when
another address is, a command goes there.  And what `auto_rewatch` leaves in
`_fds` keeps a new connection off the interest list. -/
theorem ended_connection_stays_in_table :
    ((afterPeer [.connect [1] true]).last.user.addr2socket[([1] : Address)]? =
        some ⟨5, some 1, 1, true, false⟩ ∧
      (afterPeer [.connect [1] true]).last.kernel.conns 5 = some 1 ∧
      (afterPeer [.connect [1] true]).last.closeFds = [5] ∧
      ¬ Live (afterPeer [.connect [1] true]).last
        ⟨5, some 1, 1, true, false⟩) ∧
    (afterPeer [.connect [2] false, .cmdAddr [1] [7]]).last.user.packets =
      [⟨[1], some 0, some 1, true⟩] ∧
    (afterCallback.last.user.addr2socket[([1] : Address)]? =
        some ⟨5, some 1, 1, true, false⟩ ∧
      afterCallback.last.kernel.conns 5 = some 1 ∧
      afterCallback.last.kernel.epoll 5 = none ∧
      ¬ Live afterCallback.last ⟨5, some 1, 1, true, false⟩) := by
  refine ⟨⟨by decide +kernel, by decide +kernel, by decide +kernel, ?_⟩,
    by decide +kernel, by decide +kernel, by decide +kernel,
    by decide +kernel, ?_⟩
  · intro live
    exact absurd live.stays (by decide +kernel)
  · intro live
    exact absurd live.watched (by decide +kernel)

end Samples

end ClientBase

end Universe
