import Universe.Global.Arrival
import Universe.Library.Pairing

/-!
# The maps of the sessions

Entries come from `accept` and from `recv_session_id`, and only `unwatch` takes
them away.  They are right as long as no client is closed around `unwatch`, as
`close` by force closes one that is not watched yet.
-/

namespace Universe

open Pairing
open Std (ExtTreeMap)

namespace ClientServer

variable {τ : Type}

/-- What matters of the past of a descriptor. -/
inductive Happening where
  | accepted (client : Fd)
  | given (client : Fd) (sessionId : SessionId)
  | unwatched (fd : Fd)
  deriving DecidableEq, Repr

/-- The session id that the client at a descriptor was given and that was not
unwatched since.  What happened last comes first. -/
def holder (fd : Fd) : List Happening → Option SessionId
  | [] => none
  | .accepted client :: earlier =>
      if client = fd then none else holder fd earlier
  | .given client sessionId :: earlier =>
      if client = fd then some sessionId else holder fd earlier
  | .unwatched other :: earlier =>
      if other = fd then none else holder fd earlier

/-- How many clients were accepted. -/
def accepts : List Happening → Nat
  | [] => 0
  | .accepted _ :: earlier => accepts earlier + 1
  | .given _ _ :: earlier => accepts earlier
  | .unwatched _ :: earlier => accepts earlier

/-- The session ids that were given. -/
def givenIds : List Happening → List SessionId
  | [] => []
  | .accepted _ :: earlier => givenIds earlier
  | .given _ sessionId :: earlier => sessionId :: givenIds earlier
  | .unwatched _ :: earlier => givenIds earlier

/-- A server with its descriptors. -/
structure Process (τ : Type) where
  server : ClientServer τ
  /-- The keys of `_fds`. -/
  watched : List Fd := []
  /-- What epoll has. -/
  polled : List Fd := []
  /-- What the kernel has given to the process. -/
  opened : List Fd := []
  /-- `_close_fds`. -/
  released : List Fd := []
  history : List Happening := []

/-- What happens to the descriptors of a server. -/
inductive Op (τ : Type) where
  | accept (client : Fd)
  /-- A socket that is not accepted. -/
  | socket (fd : Fd)
  /-- A worker reads from a client that has no session id yet. -/
  | initial (workerClient : Fd) (message : Bytes)
  | task (client : Fd) (tasks : List τ)
  | watch (fd : Fd) (reWatch : Bool)
  | unwatch (fd : Fd)
  | close (fd : Fd) (force : Bool)
  /-- The end of a batch of events. -/
  | flush

namespace Process

variable (process : Process τ)

def accept (client : Fd) : Process τ :=
  let server := process.server.accept client
  let given :=
    if process.server.isChild then []
    else [Happening.given client server.sessionId]
  { process with
    server
    opened := client :: process.opened
    history := given ++ .accepted client :: process.history }

/-- `recv_session_id`. -/
def initial (workerClient : Fd) (message : Bytes) : Process τ :=
  let whole := (process.server.bufferable.appendBuf workerClient message).1
  let given :=
    match Protocol.readUint32 whole with
    | none => []
    | some (sessionId, _) => [Happening.given workerClient sessionId]
  { process with
    server := (process.server.recvSessionId workerClient message).2
    history := given ++ process.history }

/-- `watch`.  A number that is not open is not added to epoll. -/
def watch (fd : Fd) (reWatch : Bool) : Process τ :=
  { process with
    watched := fd :: process.watched
    polled :=
      if (fd ∉ process.watched ∨ reWatch) ∧ fd ∈ process.opened then
        fd :: process.polled
      else process.polled }

/-- `unwatch` of a descriptor in `_fds`, which ends the process when epoll does
not have it. -/
def unwatch (fd : Fd) : Option (Process τ) :=
  if fd ∈ process.polled then
    some { process with
      server := process.server.unwatch fd
      watched := process.watched.filter (· ≠ fd)
      polled := process.polled.filter (· ≠ fd)
      history := .unwatched fd :: process.history }
  else none

/-- `_add_close_fd`. -/
def release (fd : Fd) : Process τ :=
  { process with released := process.released ++ [fd] }

/-- What one of them does, up to callbacks, which do more of them.  Nothing is
left of a process that has ended. -/
def step : Op τ → Option (Process τ)
  | .accept client => some (process.accept client)
  | .socket fd => some { process with opened := fd :: process.opened }
  | .initial workerClient message => some (process.initial workerClient message)
  | .task client tasks => some { process with
      server := { process.server with
        sessionTasks := process.server.sessionTasks.insert client tasks } }
  | .watch fd reWatch => some (process.watch fd reWatch)
  | .unwatch fd =>
      if fd ∈ process.watched then process.unwatch fd else some process
  | .close fd force =>
      if fd ∈ process.watched then (process.unwatch fd).map (release · fd)
      else if force then some (process.release fd)
      else some process
  | .flush => some { process with
      opened := process.opened.filter fun fd => fd ∉ process.released
      polled := process.polled.filter fun fd => fd ∉ process.released
      released := [] }

/-- A number the kernel can give. -/
def Free (fd : Fd) : Prop := 0 ≤ fd ∧ fd ∉ process.opened

/-- What can happen next.  Nothing is read any more from what was closed, and a
client is asked for its session id until it has one. -/
def Allows : Op τ → Prop
  | .accept client => process.Free client
  | .socket fd => process.Free fd
  | .initial workerClient _ =>
      process.server.isChild = true ∧ workerClient ∈ process.watched ∧
        workerClient ∈ process.opened ∧ workerClient ∉ process.released ∧
        holder workerClient process.history = none
  | _ => True

/-- What is closed by force while it is not watched is open, and in a master it
is not a client that was not unwatched yet. -/
def Careful : Op τ → Prop
  | .close fd true => fd ∉ process.watched → fd ∈ process.opened ∧
      (process.server.isChild = false → holder fd process.history = none)
  | _ => True

end Process

/-- The processes after any number of these operations, each of which met the
condition. -/
inductive Reached (condition : Process τ → Op τ → Prop) (isChild : Bool) :
    Process τ → Prop where
  | start : Reached condition isChild { server := { isChild } }
  | step {process after : Process τ} {op : Op τ}
      (earlier : Reached condition isChild process)
      (allowed : process.Allows op) (meets : condition process op)
      (steps : process.step op = some after) :
      Reached condition isChild after

/-- The ids of the master are not used up, and those of a worker are distinct. -/
def Distinct (process : Process τ) : Prop :=
  if process.server.isChild then (givenIds process.history).Nodup
  else accepts process.history < 2 ^ 32

instance (process : Process τ) : Decidable (Distinct process) :=
  inferInstanceAs (Decidable (if process.server.isChild = true then
    (givenIds process.history).Nodup else accepts process.history < 2 ^ 32))

/-- The maps are inverse to each other, and they have the clients that hold a
session id. -/
structure Mapped (process : Process τ) : Prop where
  inverse : Inverse process.server.c2s process.server.s2c
  clients : ∀ fd : Fd, process.server.c2s[fd]? = holder fd process.history

section Members

variable (server : ClientServer τ) (fd : Fd)

theorem getElem?_unwatch (other : Fd) :
    (server.unwatch fd).c2s[other]? =
      if fd = other then none else server.c2s[other]? := by
  unfold unwatch
  cases found : server.c2s[fd]? with
  | none =>
      by_cases same : fd = other
      · subst same
        simp [found]
      · simp [same]
  | some sessionId => simp [ExtTreeMap.getElem?_erase]

theorem isChild_unwatch : (server.unwatch fd).isChild = server.isChild := by
  unfold unwatch
  cases server.c2s[fd]? <;> rfl

theorem sessionId_unwatch : (server.unwatch fd).sessionId = server.sessionId := by
  unfold unwatch
  cases server.c2s[fd]? <;> rfl

/-- Both entries of a client are taken away. -/
theorem inverse_unwatch (inverse : Inverse server.c2s server.s2c) :
    Inverse (server.unwatch fd).c2s (server.unwatch fd).s2c := by
  unfold unwatch
  cases found : server.c2s[fd]? with
  | none => exact inverse
  | some sessionId => exact inverse.erase found

theorem getElem?_identify (sessionId : SessionId) (other : Fd) :
    (server.identify fd sessionId).c2s[other]? =
      if fd = other then some sessionId else server.c2s[other]? := by
  simp [identify, ExtTreeMap.getElem?_insert]

end Members

/-- What holds between two operations. -/
structure Synced (isChild : Bool) (process : Process τ) : Prop where
  kind : process.server.isChild = isChild
  mapped : Mapped process
  /-- A client that holds a session id is not closed. -/
  held : ∀ fd : Fd, holder fd process.history ≠ none →
    fd ∈ process.opened ∧ fd ∉ process.released ∧
      (isChild = true → fd ∈ process.watched)
  polled : ∀ fd ∈ process.polled, fd ∈ process.opened
  released : ∀ fd ∈ process.released, fd ∈ process.opened
  known : ∀ (fd : Fd) (sessionId : SessionId),
    holder fd process.history = some sessionId →
      sessionId ∈ givenIds process.history
  numbered : isChild = false →
    process.server.sessionId = UInt32.ofNat (accepts process.history) ∧
      ∀ sessionId ∈ givenIds process.history,
        sessionId.toNat ≤ accepts process.history

namespace Synced

variable {isChild : Bool} {process : Process τ} {fd : Fd}

theorem start : Synced isChild ({ server := { isChild } } : Process τ) where
  kind := rfl
  mapped := ⟨.empty, fun fd => by simp [holder]⟩
  held fd held := absurd rfl held
  polled fd member := by cases member
  released fd member := by cases member
  known fd sessionId held := by cases held
  numbered _ := ⟨rfl, fun sessionId member => by cases member⟩

/-- A session id that was not given is not in use. -/
theorem unused (synced : Synced isChild process) {sessionId : SessionId}
    (new : sessionId ∉ givenIds process.history) :
    process.server.s2c[sessionId]? = none := by
  by_contra taken
  obtain ⟨fd, found⟩ := Option.ne_none_iff_exists'.mp taken
  have held := (synced.mapped.inverse fd sessionId).mpr found
  rw [synced.mapped.clients fd] at held
  exact new (synced.known fd sessionId held)

/-- A number that can be given has no session. -/
theorem vacant (synced : Synced isChild process) (free : process.Free fd) :
    holder fd process.history = none := by
  by_contra held
  exact free.2 (synced.held fd held).1

/-- The buffers do not matter. -/
theorem buffers (synced : Synced isChild process) (bufferable : Bufferable) :
    Synced isChild { process with
      server := { process.server with bufferable } } :=
  ⟨synced.kind, ⟨synced.mapped.inverse, synced.mapped.clients⟩, synced.held,
    synced.polled, synced.released, synced.known, synced.numbered⟩

/-- A client is accepted, before it is given a session id. -/
theorem accepted (synced : Synced isChild process) (free : process.Free fd)
    {sessionId : SessionId}
    (next : isChild = false → sessionId = process.server.sessionId + 1) :
    Synced isChild { process with
      server := { process.server with sessionId }
      opened := fd :: process.opened
      history := .accepted fd :: process.history } where
  kind := synced.kind
  mapped := by
    refine ⟨synced.mapped.inverse, ?_⟩
    intro other
    unfold holder
    split
    · next same =>
        rw [← same]
        exact (synced.mapped.clients fd).trans (synced.vacant free)
    · exact synced.mapped.clients other
  held other held := by
    unfold holder at held
    split at held
    · exact absurd rfl held
    · obtain ⟨isOpen, stays, watched⟩ := synced.held other held
      exact ⟨List.mem_cons_of_mem fd isOpen, stays, watched⟩
  polled other member := List.mem_cons_of_mem fd (synced.polled other member)
  released other member :=
    List.mem_cons_of_mem fd (synced.released other member)
  known other sessionId held := by
    unfold holder at held
    split at held
    · cases held
    · exact synced.known other sessionId held
  numbered master := by
    obtain ⟨last, bounded⟩ := synced.numbered master
    constructor
    · rw [next master, last, accepts, UInt32.ofNat_add]
      rfl
    · intro other member
      exact Nat.le_succ_of_le (bounded other member)

/-- A client is given a session id that nobody was given before. -/
theorem given (synced : Synced isChild process) {sessionId : SessionId}
    (vacant : holder fd process.history = none)
    (new : sessionId ∉ givenIds process.history)
    (isOpen : fd ∈ process.opened) (stays : fd ∉ process.released)
    (watched : isChild = true → fd ∈ process.watched)
    (bounded : isChild = false →
      sessionId.toNat ≤ accepts process.history) :
    Synced isChild { process with
      server := process.server.identify fd sessionId
      history := .given fd sessionId :: process.history } where
  kind := synced.kind
  mapped := by
    have unmapped : process.server.c2s[fd]? = none :=
      (synced.mapped.clients fd).trans vacant
    constructor
    · exact synced.mapped.inverse.insert unmapped (synced.unused new)
    · intro other
      dsimp only
      rw [getElem?_identify]
      unfold holder
      split
      · rfl
      · exact synced.mapped.clients other
  held other held := by
    unfold holder at held
    split at held
    · next same =>
        rw [← same]
        exact ⟨isOpen, stays, watched⟩
    · exact synced.held other held
  polled := synced.polled
  released := synced.released
  known other sessionId held := by
    unfold holder at held
    split at held
    · cases held
      exact List.mem_cons_self
    · exact List.mem_cons_of_mem _ (synced.known other sessionId held)
  numbered master := by
    obtain ⟨last, earlier⟩ := synced.numbered master
    exact ⟨last, List.forall_mem_cons.mpr ⟨bounded master, earlier⟩⟩

/-- A descriptor leaves `_fds`, epoll and the maps. -/
theorem unwatched (synced : Synced isChild process) {after : Process τ}
    (steps : process.unwatch fd = some after) :
    Synced isChild after ∧ fd ∈ after.opened ∧
      holder fd after.history = none := by
  unfold Process.unwatch at steps
  split at steps
  · next isPolled =>
      cases steps
      have gone : holder fd (.unwatched fd :: process.history) = none :=
        if_pos rfl
      refine ⟨⟨?_, ⟨?_, ?_⟩, ?_, ?_, ?_, ?_, ?_⟩, synced.polled fd isPolled, gone⟩
      · exact (isChild_unwatch _ fd).trans synced.kind
      · exact inverse_unwatch _ fd synced.mapped.inverse
      · intro other
        dsimp only
        rw [getElem?_unwatch]
        unfold holder
        split
        · rfl
        · exact synced.mapped.clients other
      · intro other held
        unfold holder at held
        split at held
        · exact absurd rfl held
        · next different =>
            obtain ⟨isOpen, stays, watched⟩ := synced.held other held
            refine ⟨isOpen, stays, fun worker => ?_⟩
            exact List.mem_filter.mpr
              ⟨watched worker, by simpa using Ne.symm different⟩
      · intro other member
        exact synced.polled other (List.mem_filter.mp member).1
      · exact synced.released
      · intro other sessionId held
        unfold holder at held
        split at held
        · cases held
        · exact synced.known other sessionId held
      · intro master
        rw [sessionId_unwatch]
        exact synced.numbered master
  · cases steps

/-- A descriptor is closed at the end of the batch. -/
theorem release (synced : Synced isChild process)
    (isOpen : fd ∈ process.opened)
    (vacant : holder fd process.history = none) :
    Synced isChild (process.release fd) where
  kind := synced.kind
  mapped := ⟨synced.mapped.inverse, synced.mapped.clients⟩
  held other held := by
    obtain ⟨isOpen, stays, watched⟩ := synced.held other held
    refine ⟨isOpen, ?_, watched⟩
    intro member
    rcases List.mem_append.mp member with earlier | last
    · exact stays earlier
    · rw [List.mem_singleton.mp last] at held
      exact held vacant
  polled := synced.polled
  released other member := by
    rcases List.mem_append.mp member with earlier | last
    · exact synced.released other earlier
    · rw [List.mem_singleton.mp last]
      exact isOpen
  known := synced.known
  numbered := synced.numbered

theorem watch (synced : Synced isChild process) (reWatch : Bool) :
    Synced isChild (process.watch fd reWatch) where
  kind := synced.kind
  mapped := ⟨synced.mapped.inverse, synced.mapped.clients⟩
  held other held := by
    obtain ⟨isOpen, stays, watched⟩ := synced.held other held
    exact ⟨isOpen, stays, fun worker => List.mem_cons_of_mem fd (watched worker)⟩
  polled other member := by
    unfold Process.watch at member
    dsimp only at member
    split at member
    · next added =>
        rcases List.mem_cons.mp member with here | earlier
        · rw [here]
          exact added.2
        · exact synced.polled other earlier
    · exact synced.polled other member
  released := synced.released
  known := synced.known
  numbered := synced.numbered

/-- The end of a batch closes no client that holds a session id. -/
theorem flushed (synced : Synced isChild process) :
    Synced isChild { process with
      opened := process.opened.filter fun fd => fd ∉ process.released
      polled := process.polled.filter fun fd => fd ∉ process.released
      released := [] } where
  kind := synced.kind
  mapped := ⟨synced.mapped.inverse, synced.mapped.clients⟩
  held other held := by
    obtain ⟨isOpen, stays, watched⟩ := synced.held other held
    refine ⟨List.mem_filter.mpr ⟨isOpen, by simpa using stays⟩, ?_, watched⟩
    exact List.not_mem_nil
  polled other member := by
    obtain ⟨isPolled, stays⟩ := List.mem_filter.mp member
    exact List.mem_filter.mpr ⟨synced.polled other isPolled, stays⟩
  released other member := by cases member
  known := synced.known
  numbered := synced.numbered

end Synced

section Past

theorem givenIds_append (later earlier : List Happening) :
    givenIds (later ++ earlier) = givenIds later ++ givenIds earlier := by
  induction later with
  | nil => rfl
  | cons happening later induction =>
      cases happening with
      | accepted client => exact induction
      | given client sessionId => exact congrArg (sessionId :: ·) induction
      | unwatched fd => exact induction

theorem accepts_append (later earlier : List Happening) :
    accepts (later ++ earlier) = accepts later + accepts earlier := by
  induction later with
  | nil => simp [accepts]
  | cons happening later induction =>
      cases happening with
      | accepted client =>
          simp only [List.cons_append, accepts, induction]
          omega
      | given client sessionId => exact induction
      | unwatched fd => exact induction

/-- Nothing of the past is forgotten. -/
structure Grows (process after : Process τ) : Prop where
  kind : after.server.isChild = process.server.isChild
  past : process.history <:+ after.history

theorem Grows.distinct {process after : Process τ} (grows : Grows process after)
    (distinct : Distinct after) : Distinct process := by
  obtain ⟨later, whole⟩ := grows.past
  unfold Distinct at distinct ⊢
  rw [grows.kind, ← whole, givenIds_append, accepts_append] at distinct
  split
  · next worker =>
      rw [if_pos worker] at distinct
      exact (List.nodup_append.mp distinct).2.1
  · next master =>
      rw [if_neg master] at distinct
      omega

theorem isChild_accept (server : ClientServer τ) (client : Fd) :
    (server.accept client).isChild = server.isChild := by
  unfold accept
  split <;> rfl

theorem isChild_recvSessionId (server : ClientServer τ) (client : Fd)
    (message : Bytes) :
    (server.recvSessionId client message).2.isChild = server.isChild := by
  unfold recvSessionId
  dsimp only
  split <;> rfl

theorem grows_unwatch {process after : Process τ} {fd : Fd}
    (steps : process.unwatch fd = some after) : Grows process after := by
  unfold Process.unwatch at steps
  split at steps
  · cases steps
    exact ⟨isChild_unwatch _ fd, List.suffix_cons _ _⟩
  · cases steps

theorem grows_step {process after : Process τ} {op : Op τ}
    (steps : process.step op = some after) : Grows process after := by
  cases op with
  | accept client =>
      cases steps
      refine ⟨isChild_accept _ client, ?_⟩
      exact (List.suffix_cons _ _).trans (List.suffix_append _ _)
  | socket fd =>
      cases steps
      exact ⟨rfl, List.suffix_refl _⟩
  | initial workerClient message =>
      cases steps
      exact ⟨isChild_recvSessionId _ _ _, List.suffix_append _ _⟩
  | task client tasks =>
      cases steps
      exact ⟨rfl, List.suffix_refl _⟩
  | watch fd reWatch =>
      cases steps
      exact ⟨rfl, List.suffix_refl _⟩
  | unwatch fd =>
      change (if _ then _ else _) = _ at steps
      split at steps
      · exact grows_unwatch steps
      · cases steps
        exact ⟨rfl, List.suffix_refl _⟩
  | close fd force =>
      change (if _ then _ else _) = _ at steps
      split at steps
      · obtain ⟨between, unwatched, rfl⟩ := Option.map_eq_some_iff.mp steps
        exact ⟨(grows_unwatch unwatched).kind, (grows_unwatch unwatched).past⟩
      · split at steps
        · cases steps
          exact ⟨rfl, List.suffix_refl _⟩
        · cases steps
          exact ⟨rfl, List.suffix_refl _⟩
  | flush =>
      cases steps
      exact ⟨rfl, List.suffix_refl _⟩

end Past

/-- One operation, where the session ids given are distinct. -/
theorem Synced.step {isChild : Bool} {process after : Process τ} {op : Op τ}
    (synced : Synced isChild process) (allowed : process.Allows op)
    (careful : process.Careful op) (steps : process.step op = some after)
    (distinct : Distinct after) : Synced isChild after := by
  cases op with
  | accept client =>
      cases steps
      have stays : client ∉ process.released :=
        fun member => allowed.2 (synced.released client member)
      have kind := synced.kind
      cases isChild with
      | true =>
          have same : process.accept client = { process with
              server := { process.server with
                sessionId := process.server.sessionId }
              opened := client :: process.opened
              history := .accepted client :: process.history } := by
            unfold Process.accept ClientServer.accept
            dsimp only
            rw [if_pos kind, if_pos kind]
            rfl
          rw [same]
          exact synced.accepted allowed (by simp)
      | false =>
          have same : process.accept client = { process with
              server := { process.server with
                sessionId := process.server.sessionId + 1 }.identify client
                  (process.server.sessionId + 1)
              opened := client :: process.opened
              history := .given client (process.server.sessionId + 1) ::
                .accepted client :: process.history } := by
            simp [Process.accept, ClientServer.accept, kind, identify]
          obtain ⟨last, bounded⟩ := synced.numbered rfl
          rw [same] at distinct ⊢
          have few : accepts process.history + 1 < 2 ^ 32 := by
            unfold Distinct at distinct
            rw [if_neg (by simp [identify, kind])] at distinct
            exact distinct
          have number : (process.server.sessionId + 1).toNat =
              accepts process.history + 1 := by
            rw [last, UInt32.toNat_add, UInt32.toNat_ofNat]
            change (accepts process.history % 2 ^ 32 + 1) % 2 ^ 32 = _
            omega
          apply (synced.accepted allowed fun _ => rfl).given
          · exact if_pos rfl
          · intro member
            have small := bounded _ member
            omega
          · exact List.mem_cons_self
          · exact stays
          · intro worker
            cases worker
          · exact fun _ => Nat.le_of_eq number
  | socket fd =>
      cases steps
      refine ⟨synced.kind, ⟨synced.mapped.inverse, synced.mapped.clients⟩, ?_,
        ?_, ?_, synced.known, synced.numbered⟩
      · intro other held
        obtain ⟨isOpen, stays, watched⟩ := synced.held other held
        exact ⟨List.mem_cons_of_mem fd isOpen, stays, watched⟩
      · exact fun other member =>
          List.mem_cons_of_mem fd (synced.polled other member)
      · exact fun other member =>
          List.mem_cons_of_mem fd (synced.released other member)
  | initial workerClient message =>
      obtain ⟨worker, watched, isOpen, stays, vacant⟩ := allowed
      cases steps
      unfold Process.initial recvSessionId at distinct ⊢
      dsimp only at distinct ⊢
      cases first : Protocol.readUint32
          (process.server.bufferable.appendBuf workerClient message).1 with
      | none => exact synced.buffers _
      | some read =>
          obtain ⟨sessionId, rest⟩ := read
          rw [first] at distinct
          unfold Distinct at distinct
          rw [if_pos (by exact worker)] at distinct
          refine (synced.buffers _).given vacant
            (List.nodup_cons.mp distinct).1 isOpen stays (fun _ => watched) ?_
          intro master
          rw [synced.kind, master] at worker
          cases worker
  | task client tasks =>
      cases steps
      exact ⟨synced.kind, ⟨synced.mapped.inverse, synced.mapped.clients⟩,
        synced.held, synced.polled, synced.released, synced.known,
        synced.numbered⟩
  | watch fd reWatch =>
      cases steps
      exact synced.watch reWatch
  | unwatch fd =>
      change (if _ then _ else _) = _ at steps
      split at steps
      · exact (synced.unwatched steps).1
      · cases steps
        exact synced
  | close fd force =>
      change (if _ then _ else _) = _ at steps
      split at steps
      · obtain ⟨between, unwatched, rfl⟩ := Option.map_eq_some_iff.mp steps
        obtain ⟨synced, isOpen, vacant⟩ := synced.unwatched unwatched
        exact synced.release isOpen vacant
      · next unwatched =>
          cases force with
          | false =>
              cases steps
              exact synced
          | true =>
              cases steps
              obtain ⟨isOpen, master⟩ := careful unwatched
              refine synced.release isOpen ?_
              cases isChild with
              | false => exact master synced.kind
              | true =>
                  by_contra held
                  exact unwatched ((synced.held fd held).2.2 rfl)
  | flush =>
      cases steps
      exact synced.flushed

theorem synced_of_reached {isChild : Bool} {process : Process τ}
    (reached : Reached Process.Careful isChild process)
    (distinct : Distinct process) : Synced isChild process := by
  induction reached with
  | start => exact .start
  | step earlier allowed meets steps induction =>
      exact (induction ((grows_step steps).distinct distinct)).step allowed meets
        steps distinct

/-- A write to a session id reaches the client that holds it and no other one.
Nobody else is written to but the parent of a worker. -/
def Delivers (process : Process τ) (parent : Fd) (sessionId : SessionId)
    (data : Bytes) : Prop :=
  let written := (writeGlobal (Global.childHost parent) sessionId data
    { server := process.server }).2.written
  (∃ fd, holder fd process.history = some sessionId ∧ written = [(fd, data)]) ∨
    (∀ fd, holder fd process.history ≠ some sessionId) ∧
      (process.server.isChild = false → written = []) ∧
      ∀ entry ∈ written, entry.1 = parent

theorem delivers_of_mapped {process : Process τ} (mapped : Mapped process)
    (parent : Fd) (sessionId : SessionId) (data : Bytes) :
    Delivers process parent sessionId data := by
  unfold Delivers
  cases found : process.server.s2c[sessionId]? with
  | some fd =>
      have held := (mapped.inverse fd sessionId).mpr found
      rw [mapped.clients fd] at held
      refine .inl ⟨fd, held, ?_⟩
      simp only [writeGlobal, bind, StateT.bind, Global.childHost_own, found]
      rfl
  | none =>
      refine .inr ⟨?_, ?_⟩
      · intro fd held
        rw [← mapped.clients fd, mapped.inverse fd sessionId, found] at held
        cases held
      cases isChild : process.server.isChild with
      | false =>
          have nothing : (writeGlobal (Global.childHost parent) sessionId data
              { server := process.server }).2.written = [] := by
            simp only [writeGlobal, bind, StateT.bind, Global.childHost_own,
              found, isChild]
            rfl
          rw [nothing]
          exact ⟨fun _ => rfl, fun entry member => by cases member⟩
      | true =>
          rw [Global.writeGlobal_foreign (by exact isChild) found]
          refine ⟨fun master => (by cases master), ?_⟩
          intro entry member
          simp only [List.nil_append, List.mem_append, List.mem_singleton]
            at member
          rcases member with (rfl | rfl) | rfl <;> rfl

/-- The maps are inverse to each other in every run in which no client is closed
by force before it is watched. -/
theorem sessions_are_mapped {isChild : Bool} {process : Process τ}
    (reached : Reached Process.Careful isChild process)
    (distinct : Distinct process) :
    Mapped process ∧ ∀ parent sessionId data,
      Delivers process parent sessionId data :=
  have mapped := (synced_of_reached reached distinct).mapped
  ⟨mapped, delivers_of_mapped mapped⟩

/-- The state after an operation that does not end the process. -/
def Process.next (process : Process τ) (op : Op τ) : Process τ :=
  (process.step op).getD process

theorem Reached.next {condition : Process τ → Op τ → Prop} {isChild : Bool}
    {process : Process τ} (earlier : Reached condition isChild process)
    (op : Op τ) (allowed : process.Allows op) (meets : condition process op)
    (goesOn : (process.step op).isSome = true) :
    Reached condition isChild (process.next op) := by
  obtain ⟨after, steps⟩ := Option.isSome_iff_exists.mp goesOn
  unfold Process.next
  rw [steps]
  exact earlier.step allowed meets steps

/-- A master without clients. -/
def sampleMaster : Process Unit := { server := {} }

/-- A client that is accepted and watched. -/
theorem sessions_are_mapped_sample :
    Mapped ((sampleMaster.next (.accept 5)).next (.watch 5 false)) ∧
      ∀ parent sessionId data,
        Delivers ((sampleMaster.next (.accept 5)).next (.watch 5 false)) parent
          sessionId data := by
  have begun : Reached Process.Careful false sampleMaster := .start
  have accepted := begun.next (.accept 5) ⟨by decide, List.not_mem_nil⟩ trivial rfl
  have watched := accepted.next (.watch 5 false) trivial trivial rfl
  exact sessions_are_mapped watched (by decide +kernel)

/-- A client is closed by force before it is watched, and the number of its
descriptor is given again.  What is written to the first session reaches the
client of the second one. -/
theorem sessions_are_mixed_up :
    ∃ process : Process Unit, Reached (fun _ _ => True) false process ∧
      Distinct process ∧ ¬Mapped process ∧
      ¬Delivers process 3 1 (ascii "a") := by
  have begun : Reached (fun _ _ => True) false sampleMaster := .start
  have accepted := begun.next (.accept 5) ⟨by decide, List.not_mem_nil⟩ trivial rfl
  have closed := accepted.next (.close 5 true) trivial trivial rfl
  have flushed := (closed.next (.watch 5 false) trivial trivial rfl).next .flush
    trivial trivial rfl
  have reused := flushed.next (.accept 5) ⟨by decide, by decide +kernel⟩ trivial
    rfl
  refine ⟨_, reused, by decide +kernel, ?_, ?_⟩
  · intro mapped
    have stale := (mapped.inverse 5 1).mpr (by decide +kernel)
    exact absurd stale (by decide +kernel)
  · have reaches : (writeGlobal (Global.childHost 3) 1 (ascii "a")
        { server := (((((sampleMaster.next (.accept 5)).next (.close 5 true)).next
          (.watch 5 false)).next .flush).next (.accept 5)).server }).2.written =
        [(5, ascii "a")] := by decide +kernel
    rintro (⟨fd, held, same⟩ | ⟨-, master, -⟩)
    · rw [reaches] at same
      cases same
      exact absurd held (by decide +kernel)
    · rw [reaches] at master
      exact absurd (master (by decide +kernel)) (by decide)

end ClientServer

end Universe
