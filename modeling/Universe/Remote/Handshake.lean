import Universe.Global
import Universe.Remote

/-!
# The session id of a client at its worker

The stream to a worker is the session id and what the client has sent, whether
the connection was made before or after that was sent.  A worker reads the id
off this stream, however it is cut, unless a task that waits for the id
unwatches its client.
-/

namespace Universe

open Stepwise ClientServer
open Std (ExtTreeMap)

namespace Remote

variable {remoteAddressList : List Address} {success : Success} {client : Fd}

def Success.remote : Success → Fd
  | .pending remote => remote
  | .immediate remote => remote

def Success.isImmediate : Success → Bool
  | .pending _ => false
  | .immediate _ => true

/-- What the master does for other clients. -/
structure Spares (client remote : Fd) (s after : Master) : Prop where
  state : after.own.stateful[client]? = s.own.stateful[client]?
  pair : after.own.c2r[client]? = s.own.c2r[client]?
  buffer : after.bufferable[client]? = s.bufferable[client]?
  kind : after.server.isChild = s.server.isChild
  session : after.server.c2s[client]? = s.server.c2s[client]?
  written : Global.channel remote after.written =
    Global.channel remote s.written

/-- A client from its `accept` on, with what it has sent and whether its
connection is made. -/
inductive Serving (remoteAddressList : List Address) (success : Success)
    (client : Fd) (start : Master) : Bytes → Bool → Master → Prop where
  | accepted {s : Master}
      (returned : accept remoteAddressList success client start = .ok () s) :
      Serving remoteAddressList success client start [] success.isImmediate s
  | message {sent : Bytes} {done : Bool} {s after : Master} (initial : Bool)
      (piece : Bytes)
      (earlier : Serving remoteAddressList success client start sent done s)
      (returned : deliver initial client piece s = .ok () after) :
      Serving remoteAddressList success client start (sent ++ piece) done after
  | connected {sent : Bytes} {s after : Master}
      (earlier : Serving remoteAddressList success client start sent false s)
      (returned : connected success.remote client s = .ok () after) :
      Serving remoteAddressList success client start sent true after
  | others {sent : Bytes} {done : Bool} {s after : Master}
      (earlier : Serving remoteAddressList success client start sent done s)
      (spares : Spares client success.remote s after) :
      Serving remoteAddressList success client start sent done after

/-- What holds of a client and its remote. -/
structure Tunneled (client remote : Fd) (sessionId : SessionId)
    (before sent : Bytes) (done : Bool) (s : Master) : Prop where
  kind : s.server.isChild = false
  session : s.server.c2s[client]? = some sessionId
  pair : s.own.c2r[client]? = some remote
  waiting : done = false → s.own.stateful.getState client ≠ .connected ∧
    (s.bufferable[client]?).getD [] = sent ∧
    Global.channel remote s.written = before
  passed : done = true → s.own.stateful.getState client = .connected ∧
    s.bufferable[client]? = none ∧
    Global.channel remote s.written = before ++ (htonl sessionId ++ sent)

theorem channel_append (fd : Fd) (written : List (Fd × Bytes)) (data : Bytes) :
    Global.channel fd (written ++ [(fd, data)]) =
      Global.channel fd written ++ data := by
  simp [Global.channel]

section Steps

variable {remote : Fd} {sessionId : SessionId} {before sent : Bytes}
  {done : Bool} {s : Master}

/-- `on_message` keeps a message, or it passes it on. -/
theorem onMessage_tunneled
    (tunneled : Tunneled client remote sessionId before sent done s)
    (piece : Bytes) :
    Returns (ITunnelLike.onMessage host client piece) s fun _ after =>
      Tunneled client remote sessionId before (sent ++ piece) done after := by
  apply returns_modifyGet_bind
  apply returns_modifyGet_bind
  apply returns_modifyGet_bind
  rw [Bufferable.appendBuf_message]
  dsimp only
  cases done with
  | false =>
      obtain ⟨waits, kept, same⟩ := tunneled.waiting rfl
      have needs : (decide (s.own.stateful.getState client ≠ .connected)) =
          true := by simpa using waits
      rw [needs, if_pos (by simp [Bufferable.needBuf]), kept]
      refine returns_pure ⟨tunneled.kind, tunneled.session, tunneled.pair, ?_,
        fun never => by cases never⟩
      intro _
      exact ⟨waits, by simp, same⟩
  | true =>
      obtain ⟨connected, unbuffered, same⟩ := tunneled.passed rfl
      have passes : (decide (s.own.stateful.getState client ≠ .connected)) =
          false := by simpa using connected
      have paired : s.own.remoteOf client = (remote, s.own) := by
        simp [Tunnels.remoteOf, tunneled.pair]
      rw [passes, if_neg (by simp [Bufferable.needBuf]), unbuffered]
      apply returns_modifyGet_bind
      rw [paired]
      apply returns_modifyGet_bind
      refine returns_pure ⟨tunneled.kind, tunneled.session, tunneled.pair,
        fun never => (by cases never), ?_⟩
      intro _
      refine ⟨connected, by simp [Bufferable.needBuf], ?_⟩
      rw [channel_append, same]
      simp

/-- The first message and any later one. -/
theorem deliver_tunneled
    (tunneled : Tunneled client remote sessionId before sent done s)
    (initial : Bool) (piece : Bytes) :
    Returns (deliver initial client piece) s fun _ after =>
      Tunneled client remote sessionId before (sent ++ piece) done after := by
  cases initial with
  | false => exact onMessage_tunneled tunneled piece
  | true =>
      have watched : Returns (sessions.watchRead client) s fun _ after =>
          after = s := returns_pure rfl
      unfold deliver initialMessageWrapper
      rw [if_pos rfl]
      apply returns_modifyGet_bind
      rw [if_neg (by simp [tunneled.kind])]
      apply returns_bind watched
      rintro _ _ rfl
      exact onMessage_tunneled tunneled piece

theorem sendSessionId_returns (session : s.server.c2s[client]? = some sessionId) :
    Returns (sendSessionId taskHost remote client) s fun _ after =>
      after = { s with
        written := s.written ++ [(remote, htonl sessionId)] } := by
  have found : s.server.getSessionId client = some sessionId := session
  apply returns_modifyGet_bind
  dsimp only
  rw [found]
  apply returns_modifyGet_bind
  exact returns_pure rfl

theorem getState_setState (stateful : Stateful ConnectState) :
    (stateful.setState client .connected).getState client = .connected := by
  simp [Stateful.getState]

/-- The session id is written, and what waits follows it. -/
theorem onSession_tunneled
    (tunneled : Tunneled client remote sessionId before sent false s) :
    Returns (onSession host taskHost remote client) s fun _ after =>
      Tunneled client remote sessionId before sent true after := by
  obtain ⟨-, kept, same⟩ := tunneled.waiting rfl
  have begun : ∀ bufferable : Bufferable, bufferable[client]? = none →
      Tunneled client remote sessionId before [] true
        { s with
          own := { s.own with
            stateful := s.own.stateful.setState client .connected }
          bufferable
          written := s.written ++ [(remote, htonl sessionId)] } := by
    intro bufferable unbuffered
    refine ⟨tunneled.kind, tunneled.session, tunneled.pair,
      fun never => (by cases never), fun _ => ?_⟩
    refine ⟨getState_setState _, unbuffered, ?_⟩
    rw [channel_append, same, List.append_nil]
  apply returns_bind (sendSessionId_returns tunneled.session)
  rintro _ _ rfl
  apply returns_modifyGet_bind
  apply returns_modifyGet_bind
  dsimp only
  rw [Bufferable.hasBuf_eq]
  cases buffered : s.bufferable[client]? with
  | none =>
      rw [buffered] at kept
      have nothing : sent = [] := kept.symm
      rw [nothing]
      exact returns_pure (begun s.bufferable buffered)
  | some bytes =>
      rw [buffered] at kept
      have whole : bytes = sent := kept
      rw [if_pos (by rfl)]
      apply returns_modifyGet_bind
      have got : (s.bufferable.getBuf client).1 = sent := by
        simp [Bufferable.getBuf, buffered, whole]
      have passed := onMessage_tunneled
        (begun (s.bufferable.getBuf client).2 (by simp)) sent
      rw [List.nil_append] at passed
      dsimp only
      rw [got]
      exact passed

/-- The connection is made while the client waits for it. -/
theorem connected_tunneled
    (tunneled : Tunneled client remote sessionId before sent false s) :
    Returns (connected remote client) s fun _ after =>
      Tunneled client remote sessionId before sent true after := by
  have identified : (s.server.getSessionId client).isSome = true := by
    rw [show s.server.getSessionId client = some sessionId from tunneled.session]
    rfl
  unfold connected onRemoteConnect addSessionTask
  rw [if_pos rfl, bind_assoc]
  apply returns_modifyGet_bind
  dsimp only
  rw [identified, if_pos rfl, bind_assoc]
  apply returns_bind (onSession_tunneled tunneled)
  exact fun _ after tunneled => returns_pure tunneled

/-- A connection that is made before anything was sent. -/
theorem onRemoteConnect_unbuffered
    (session : s.server.c2s[client]? = some sessionId)
    (unbuffered : s.bufferable[client]? = none) :
    Returns (onRemoteConnect host sessions remote .ok client) s fun _ after =>
      after = { s with
        own := { s.own with
          stateful := s.own.stateful.setState client .connected }
        written := s.written ++ [(remote, htonl sessionId)] } := by
  have identified : (s.server.getSessionId client).isSome = true := by
    rw [show s.server.getSessionId client = some sessionId from session]
    rfl
  unfold onRemoteConnect addSessionTask
  rw [if_pos rfl, bind_assoc]
  apply returns_modifyGet_bind
  dsimp only
  rw [identified, if_pos rfl, bind_assoc]
  have told : Returns (onSession host taskHost remote client) s fun _ after =>
      after = { s with
        own := { s.own with
          stateful := s.own.stateful.setState client .connected }
        written := s.written ++ [(remote, htonl sessionId)] } := by
    apply returns_bind (sendSessionId_returns session)
    rintro _ _ rfl
    apply returns_modifyGet_bind
    apply returns_modifyGet_bind
    dsimp only
    rw [Bufferable.hasBuf_eq, unbuffered]
    exact returns_pure rfl
  apply returns_bind told
  exact fun _ after same => returns_pure same

theorem accept_session (server : ClientServer Fd) (client : Fd)
    (master : server.isChild = false) :
    (server.accept client).isChild = false ∧
      (server.accept client).c2s[client]? = some (server.sessionId + 1) := by
  unfold ClientServer.accept identify
  simp [master]

/-- A client is accepted by a master, and nothing waits for it. -/
theorem accept_tunneled {start : Master} {success : Success}
    (master : start.server.isChild = false)
    (unbuffered : start.bufferable[client]? = none)
    (isFd : success.remote ≠ -1) :
    Returns (accept remoteAddressList success client) start fun _ after =>
      Tunneled client success.remote (start.server.sessionId + 1)
        (Global.channel success.remote start.written) [] success.isImmediate
        after := by
  obtain ⟨kind, session⟩ := accept_session start.server client master
  apply returns_modify_bind
  unfold onConnect Proxy.onConnect
  apply returns_modifyGet_bind
  apply returns_modifyGet_bind
  dsimp only
  split
  · exact returns_throw
  · cases success with
    | pending remote =>
        have made : ∀ (addr : Address) (s : Master),
            Returns (connecting (.pending remote) addr client) s
              fun fd after => fd = remote ∧ after = s :=
          fun _ _ => returns_pure ⟨rfl, rfl⟩
        apply returns_bind (made _ _)
        rintro _ _ ⟨same, rfl⟩
        rw [same, if_neg (show remote ≠ -1 from isFd)]
        apply returns_modifyGet_bind
        rw [if_pos (by simp [Stateful.getState, Tunnels.nextIndex])]
        apply returns_modifyGet_bind
        refine returns_modifyGet ⟨kind, session,
          by simp [Tunnels.pair, Success.remote], ?_, fun never => by cases never⟩
        intro _
        refine ⟨by simp [Tunnels.pair, Stateful.getState], ?_, rfl⟩
        dsimp only
        rw [unbuffered]
        rfl
    | immediate remote =>
        have made : ∀ (addr : Address) (s : Master),
            s.server.c2s[client]? = some (start.server.sessionId + 1) →
            s.bufferable[client]? = none →
            Returns (connecting (.immediate remote) addr client) s
              fun fd after => fd = remote ∧ after = { s with
                own := { s.own with
                  stateful := s.own.stateful.setState client .connected }
                written := s.written ++
                  [(remote, htonl (start.server.sessionId + 1))] } := by
          intro addr s session unbuffered
          apply returns_bind (onRemoteConnect_unbuffered session unbuffered)
          exact fun _ _ same => returns_pure ⟨rfl, same⟩
        refine returns_bind (made _ _ (by exact session) (by exact unbuffered)) ?_
        rintro _ _ ⟨same, rfl⟩
        rw [same, if_neg (show remote ≠ -1 from isFd)]
        apply returns_modifyGet_bind
        rw [if_neg (by simp [Stateful.getState])]
        refine returns_modifyGet ⟨kind, session,
          by simp [Tunnels.pair, Success.remote], fun never => (by cases never), ?_⟩
        intro _
        refine ⟨getState_setState _, unbuffered, ?_⟩
        rw [List.append_nil]
        exact channel_append remote _ _

/-- What others do does not matter. -/
theorem Tunneled.spared {after : Master}
    (tunneled : Tunneled client remote sessionId before sent done s)
    (spares : Spares client remote s after) :
    Tunneled client remote sessionId before sent done after := by
  have state : after.own.stateful.getState client =
      s.own.stateful.getState client := by
    unfold Stateful.getState
    rw [spares.state]
  constructor
  · exact spares.kind.trans tunneled.kind
  · exact spares.session.trans tunneled.session
  · exact spares.pair.trans tunneled.pair
  · rw [state, spares.buffer, spares.written]
    exact tunneled.waiting
  · rw [state, spares.buffer, spares.written]
    exact tunneled.passed

/-- The whole connection of a client. -/
theorem tunneled_of_serving {start : Master} {success : Success}
    (master : start.server.isChild = false)
    (unbuffered : start.bufferable[client]? = none)
    (isFd : success.remote ≠ -1)
    (serving : Serving remoteAddressList success client start sent done s) :
    Tunneled client success.remote (start.server.sessionId + 1)
      (Global.channel success.remote start.written) sent done s := by
  induction serving with
  | accepted returned =>
      exact (accept_tunneled master unbuffered isFd).holds _ _ returned
  | message initial piece earlier returned induction =>
      exact (deliver_tunneled induction initial piece).holds _ _ returned
  | connected earlier returned induction =>
      exact (connected_tunneled induction).holds _ _ returned
  | others earlier spares induction => exact induction.spared spares

end Steps

end Remote

namespace Worker

variable {client : Fd} {sessionId : SessionId}

/-- The bytes that come to a client. -/
def bytesOf : List Input → Bytes
  | [] => []
  | .piece bytes :: inputs => bytes ++ bytesOf inputs
  | .task _ :: inputs => bytesOf inputs

/-- The tasks that are added. -/
def tasksOf : List Input → List SessionTask
  | [] => []
  | .piece _ :: inputs => tasksOf inputs
  | .task task :: inputs => task :: tasksOf inputs

/-- Tasks are added only while bytes of the session id are missing. -/
def Pending : (missing : Nat) → List Input → Prop
  | _, [] => True
  | missing, .piece bytes :: inputs => Pending (missing - bytes.length) inputs
  | missing, .task _ :: inputs => 0 < missing ∧ Pending missing inputs

/-- Before the session id is there. -/
structure Waits (client : Fd) (received : Bytes) (tasks : List SessionTask)
    (s : Worker) : Prop where
  kind : s.server.isChild = true
  unknown : s.server.c2s[client]? = none
  buffer : (s.server.bufferable[client]?).getD [] = received
  tasks : (s.server.sessionTasks[client]?).getD [] = tasks
  reads : s.reads = false
  ran : s.ran = []
  handed : s.handed = []

/-- The session id is recorded, every task was run once and the bytes were
handed to the protocol. -/
structure Identified (client : Fd) (sessionId : SessionId) (data : Bytes)
    (tasks : List SessionTask) (s : Worker) : Prop where
  recorded : s.server.c2s[client]? = some sessionId ∧
    s.server.s2c[sessionId]? = some client
  ran : s.ran = tasks
  data : s.handed.flatMap (·.message) = data
  known : ∀ handed ∈ s.handed,
    handed.sessionId = some sessionId ∧ handed.owner = some client

section Steps

variable {received data : Bytes} {tasks : List SessionTask} {s : Worker}

/-- What is handed over once the session id is recorded. -/
theorem hand_identified (identified : Identified client sessionId data tasks s)
    (message : Bytes) :
    ∃ after, hand client message s = .ok () after ∧
      Identified client sessionId (data ++ message) tasks after ∧
        after.reads = s.reads := by
  have found : s.server.getSessionId client = some sessionId :=
    identified.recorded.1
  have owner : s.server.s2c[sessionId]? = some client := identified.recorded.2
  refine ⟨_, rfl, ⟨identified.recorded, identified.ran, ?_, ?_⟩, rfl⟩
  · simp [identified.data]
  · intro handed member
    rcases List.mem_append.mp member with earlier | last
    · exact identified.known handed earlier
    · rw [List.mem_singleton.mp last, found]
      exact ⟨rfl, owner⟩

theorem task_eq (task : SessionTask) :
    host.task task client s = .ok () { s with
      ran := s.ran ++ [task]
      server :=
        if task.unwatches then s.server.unwatch client else s.server } := rfl

theorem unwatch_forgets (server : ClientServer SessionTask) :
    (server.unwatch client).sessionTasks.contains client = false := by
  simp [unwatch]

/-- One task and the look at the ones that are left. -/
theorem runTasks_cons (task : SessionTask) (later : List SessionTask)
    {after : Worker} (called : host.task task client s = .ok () after) :
    runTasks host client (task :: later) s =
      (if after.server.sessionTasks.contains client then
        runTasks host client later after else .error () after) := by
  rw [runTasks, bind_of_ok called]
  have looked : host.own (fun server =>
      (server.sessionTasks.contains client, server)) after =
      .ok (after.server.sessionTasks.contains client) after := rfl
  rw [bind_of_ok looked]
  split <;> rfl

/-- Tasks that unwatch nothing are run one after the other. -/
theorem runTasks_quiet {later : List SessionTask}
    (quiet : ∀ task ∈ later, task.unwatches = false)
    (there : s.server.sessionTasks.contains client = true) :
    runTasks host client later s = .ok () { s with ran := s.ran ++ later } := by
  induction later generalizing s with
  | nil =>
      rw [List.append_nil]
      rfl
  | cons task later induction =>
      obtain ⟨still, others⟩ := List.forall_mem_cons.mp quiet
      have called : host.task task client s =
          .ok () { s with ran := s.ran ++ [task] } := by
        rw [task_eq, still]
        rfl
      rw [runTasks_cons task later called, if_pos (by exact there),
        induction others (by exact there), List.append_assoc]
      rfl

/-- A task that unwatches the client makes the iterator invalid. -/
theorem runTasks_unwatches {later : List SessionTask} {task : SessionTask}
    (member : task ∈ later) (unwatches : task.unwatches = true) :
    isOk (runTasks host client later s) = false := by
  induction later generalizing s with
  | nil => cases member
  | cons first later induction =>
      rcases List.mem_cons.mp member with rfl | member
      · have called : host.task task client s = .ok () { s with
            ran := s.ran ++ [task]
            server := s.server.unwatch client } := by
          rw [task_eq, unwatches]
          rfl
        rw [runTasks_cons task later called, unwatch_forgets]
        rfl
      · obtain ⟨after, called⟩ :
            ∃ after, host.task first client s = .ok () after :=
          ⟨_, task_eq first⟩
        rw [runTasks_cons first later called]
        split
        · exact induction member
        · rfl

theorem take_piece (bytes : Bytes) : take client (.piece bytes) s =
    (if s.reads then hand client bytes
      else initialMessageWrapper host hand client bytes) s := rfl

theorem own_eq {β : Type}
    (change : ClientServer SessionTask → β × ClientServer SessionTask) :
    host.own change s = .ok (change s.server).1
      { s with server := (change s.server).2 } := rfl

/-- What a worker does about a message until it has the session id. -/
theorem wrapper_eq (kind : s.server.isChild = true) (bytes : Bytes) :
    initialMessageWrapper host hand client bytes s =
      (match (s.server.recvSessionId client bytes).1 with
      | none => pure ()
      | some message => do
          runSessionTasks host client
          host.watchRead client
          if message.length > 0 then hand client message else return ())
        { s with server := (s.server.recvSessionId client bytes).2 } := by
  have isChild : host.own (fun server => (server.isChild, server)) s =
      .ok true s := by
    rw [own_eq, kind]
  unfold initialMessageWrapper
  rw [bind_of_ok isChild, if_pos rfl]
  exact bind_of_ok (own_eq _)

/-- A worker that has the session id hands over all that comes. -/
theorem run_identified {inputs : List Input}
    (identified : Identified client sessionId data tasks s)
    (reads : s.reads = true) (pending : Pending 0 inputs) :
    tasksOf inputs = [] ∧ ∃ after, run client inputs s = .ok () after ∧
      Identified client sessionId (data ++ bytesOf inputs) tasks after := by
  induction inputs generalizing data s with
  | nil =>
      rw [bytesOf, List.append_nil]
      exact ⟨rfl, s, rfl, identified⟩
  | cons input inputs induction =>
      cases input with
      | task task => exact absurd pending.1 (Nat.lt_irrefl 0)
      | piece bytes =>
          rw [Pending, Nat.zero_sub] at pending
          obtain ⟨between, handed, identified, same⟩ :=
            hand_identified identified bytes
          have taken : take client (.piece bytes) s = .ok () between := by
            rw [take_piece, if_pos reads]
            exact handed
          obtain ⟨none, after, ran, whole⟩ :=
            induction identified (same.trans reads) pending
          refine ⟨none, after, ?_, ?_⟩
          · rw [run, bind_of_ok taken, ran]
          · rw [bytesOf, ← List.append_assoc]
            exact whole

/-- A task waits as long as the session id is missing. -/
theorem take_task (waits : Waits client received tasks s) (task : SessionTask) :
    ∃ after, take client (.task task) s = .ok () after ∧
      Waits client received (tasks ++ [task]) after := by
  have unknown : (s.server.getSessionId client).isSome = false := by
    rw [show s.server.getSessionId client = none from waits.unknown]
    rfl
  refine ⟨{ s with server := { s.server with
    sessionTasks := s.server.sessionTasks.insert client
      ((s.server.sessionTasks[client]?).getD [] ++ [task]) } }, ?_, ?_⟩
  · have looked : host.own (fun server =>
        ((server.getSessionId client).isSome, server)) s = .ok false s := by
      rw [own_eq, unknown]
    change (addSessionTask host client task >>= fun _ => pure ()) s = _
    unfold addSessionTask
    rw [bind_assoc, bind_of_ok looked]
    rfl
  · refine ⟨waits.kind, waits.unknown, waits.buffer, ?_, waits.reads, waits.ran,
      waits.handed⟩
    simp [waits.tasks]

/-- A part of the session id is kept. -/
theorem take_part (waits : Waits client received tasks s) {bytes : Bytes}
    (part : (received ++ bytes).length < 4) :
    ∃ after, take client (.piece bytes) s = .ok () after ∧
      Waits client (received ++ bytes) tasks after := by
  have short : Protocol.readUint32 (s.server.bufferable.appendBuf client bytes).1 =
      none := by
    rw [Bufferable.appendBuf_message, waits.buffer]
    exact Protocol.readUint32_eq_none.mpr part
  have kept : s.server.recvSessionId client bytes = (none, { s.server with
      bufferable := ((s.server.bufferable.appendBuf client bytes).2.needBuf client
        (received ++ bytes) true).2 }) := by
    unfold recvSessionId
    dsimp only
    rw [short, Bufferable.appendBuf_message, waits.buffer]
  refine ⟨{ s with server := { s.server with
      bufferable := ((s.server.bufferable.appendBuf client bytes).2.needBuf client
        (received ++ bytes) true).2 } }, ?_, ⟨waits.kind, waits.unknown, ?_,
        waits.tasks, waits.reads, waits.ran, waits.handed⟩⟩
  · rw [take_piece, if_neg (by simp [waits.reads]), wrapper_eq waits.kind, kept]
    rfl
  · simp

/-- The tasks that wait are run when none of them unwatches the client. -/
theorem runSessionTasks_quiet
    (waiting : (s.server.sessionTasks[client]?).getD [] = tasks)
    (quiet : ∀ task ∈ tasks, task.unwatches = false) :
    ∃ sessionTasks, runSessionTasks host client s = .ok () { s with
      ran := s.ran ++ tasks
      server := { s.server with sessionTasks } } := by
  unfold runSessionTasks
  cases found : s.server.sessionTasks[client]? with
  | none =>
      rw [found] at waiting
      have nothing : tasks = [] := waiting.symm
      rw [bind_of_ok (own_eq _), found, nothing, List.append_nil]
      exact ⟨s.server.sessionTasks, rfl⟩
  | some present =>
      rw [found] at waiting
      have same : present = tasks := waiting
      have there : s.server.sessionTasks.contains client = true := by
        rw [ExtTreeMap.contains_eq_isSome_getElem?, found]
        rfl
      refine ⟨s.server.sessionTasks.erase client, ?_⟩
      rw [bind_of_ok (own_eq _), found, same]
      exact bind_of_ok (runTasks_quiet quiet there)

/-- Otherwise the loop over them does not come to its end. -/
theorem runSessionTasks_unwatches
    (waiting : (s.server.sessionTasks[client]?).getD [] = tasks)
    {task : SessionTask} (member : task ∈ tasks)
    (unwatches : task.unwatches = true) (rest : Unit → M Unit) :
    isOk ((runSessionTasks host client >>= rest) s) = false := by
  unfold runSessionTasks
  cases found : s.server.sessionTasks[client]? with
  | none =>
      rw [found] at waiting
      have nothing : tasks = [] := waiting.symm
      rw [nothing] at member
      cases member
  | some present =>
      rw [found] at waiting
      have same : present = tasks := waiting
      rw [bind_assoc, bind_of_ok (own_eq _), found, same]
      dsimp only
      rw [bind_assoc]
      have stuck : isOk (runTasks host client tasks s) = false :=
        runTasks_unwatches member unwatches
      cases outcome : runTasks host client tasks s with
      | ok value after =>
          rw [outcome] at stuck
          cases stuck
      | error stop after =>
          rw [bind_of_error outcome]
          rfl

/-- The session id of a client is recorded, and its buffer is gone. -/
def record (client : Fd) (bytes : Bytes) (sessionId : SessionId)
    (s : Worker) : Worker :=
  let taken : ClientServer SessionTask :=
    { s.server with
      bufferable := (s.server.bufferable.appendBuf client bytes).2 }
  { s with server := taken.identify client sessionId }

/-- The last bytes of the session id, and what follows them. -/
theorem take_id (waits : Waits client received tasks s) {bytes rest : Bytes}
    (whole : received ++ bytes = htonl sessionId ++ rest) :
    (∀ task ∈ tasks, task.unwatches = false) ∧
        (∃ after, take client (.piece bytes) s = .ok () after ∧
          Identified client sessionId rest tasks after ∧ after.reads = true) ∨
      (∃ task ∈ tasks, task.unwatches = true) ∧
        isOk (take client (.piece bytes) s) = false := by
  have given : s.server.recvSessionId client bytes =
      (some rest, (record client bytes sessionId s).server) := by
    unfold recvSessionId
    dsimp only
    rw [Bufferable.appendBuf_message, waits.buffer, whole,
      Protocol.readUint32_htonl]
    rfl
  have same : take client (.piece bytes) s = (do
      runSessionTasks host client
      host.watchRead client
      if rest.length > 0 then hand client rest else return ())
        (record client bytes sessionId s) := by
    rw [take_piece, if_neg (by simp [waits.reads]), wrapper_eq waits.kind, given]
    rfl
  have waiting : ((record client bytes sessionId s).server.sessionTasks[client]?
      ).getD [] = tasks := waits.tasks
  rw [same]
  by_cases quiet : ∀ task ∈ tasks, task.unwatches = false
  · refine .inl ⟨quiet, ?_⟩
    obtain ⟨sessionTasks, ran⟩ := runSessionTasks_quiet waiting quiet
    have identified : Identified client sessionId [] tasks
        { record client bytes sessionId s with
          reads := true
          ran := s.ran ++ tasks
          server := { (record client bytes sessionId s).server with
            sessionTasks } } := by
      constructor
      · simp [record, identify]
      · rw [waits.ran]
        rfl
      · rw [show (record client bytes sessionId s).handed = [] from waits.handed]
        rfl
      · intro handed member
        rw [show (record client bytes sessionId s).handed = [] from waits.handed]
          at member
        cases member
    rw [bind_of_ok ran]
    cases rest with
    | nil => exact ⟨_, rfl, identified, rfl⟩
    | cons byte rest =>
        obtain ⟨after, handed, identified, reads⟩ :=
          hand_identified identified (byte :: rest)
        exact ⟨after, handed, identified, reads⟩
  · right
    push Not at quiet
    obtain ⟨task, member, unwatches⟩ := quiet
    have unwatches : task.unwatches = true := by simpa using unwatches
    refine ⟨⟨task, member, unwatches⟩, ?_⟩
    exact runSessionTasks_unwatches waiting member unwatches _

/-- The whole stream of a client. -/
theorem run_iff {inputs : List Input} (waits : Waits client received tasks s)
    (short : received.length < 4)
    (pending : Pending (4 - received.length) inputs)
    (cut : received ++ bytesOf inputs = htonl sessionId ++ data) :
    (∃ after, run client inputs s = .ok () after ∧
      Identified client sessionId data (tasks ++ tasksOf inputs) after) ↔
      ∀ task ∈ tasks ++ tasksOf inputs, task.unwatches = false := by
  induction inputs generalizing received tasks s with
  | nil =>
      have size := congrArg List.length cut
      rw [bytesOf, List.append_nil, List.length_append,
        Protocol.length_htonl] at size
      omega
  | cons input inputs induction =>
      cases input with
      | task task =>
          obtain ⟨between, taken, waits⟩ := take_task waits task
          rw [run, bind_of_ok taken, tasksOf, List.append_cons]
          exact induction waits short pending.2 cut
      | piece bytes =>
          rw [Pending, Nat.sub_sub, ← List.length_append] at pending
          rw [bytesOf, ← List.append_assoc] at cut
          by_cases part : (received ++ bytes).length < 4
          · obtain ⟨between, taken, waits⟩ := take_part waits part
            rw [run, bind_of_ok taken]
            exact induction waits part pending cut
          · have missing : 4 - (received ++ bytes).length = 0 := by omega
            have rest : ∃ rest, received ++ bytes = htonl sessionId ++ rest ∧
                rest ++ bytesOf inputs = data := by
              rcases List.append_eq_append_iff.mp cut with
                ⟨rest, first, later⟩ | ⟨rest, first, later⟩
              · have size := congrArg List.length first
                rw [List.length_append, Protocol.length_htonl] at size
                have none : rest = [] :=
                  List.eq_nil_of_length_eq_zero (by omega)
                rw [none] at first later
                exact ⟨[], by simpa using first.symm, later⟩
              · exact ⟨rest, first, later.symm⟩
            obtain ⟨rest, whole, later⟩ := rest
            rw [missing] at pending
            rcases take_id waits whole with
              ⟨quiet, between, taken, identified, reads⟩ | ⟨loud, stuck⟩
            · obtain ⟨none, after, ran, done⟩ :=
                run_identified identified reads pending
              rw [tasksOf, none, List.append_nil, run, bind_of_ok taken, ran,
                ← later]
              exact ⟨fun _ => quiet, fun _ => ⟨after, rfl, done⟩⟩
            · obtain ⟨task, member, unwatches⟩ := loud
              constructor
              · rintro ⟨after, ran, -⟩
                rw [run] at ran
                cases outcome : take client (.piece bytes) s with
                | ok value between =>
                    rw [outcome] at stuck
                    cases stuck
                | error stop between =>
                    rw [bind_of_error outcome] at ran
                    cases ran
              · intro quiet
                have never := quiet task (List.mem_append_left _ member)
                rw [unwatches] at never
                cases never

end Steps

end Worker

namespace Remote

open Worker

/-- A worker has the session id of every client before it has its bytes, which
it has without a gap, and it runs every task once, exactly when no task that
waits for the session id unwatches its client. -/
theorem clients_reach_worker_iff {remoteAddressList : List Address}
    {success : Success} {client workerClient : Fd} {start s : Master}
    {sent : Bytes} (master : start.server.isChild = false)
    (unbuffered : start.bufferable[client]? = none)
    (isFd : 0 ≤ success.remote)
    (serving : Serving remoteAddressList success client start sent true s)
    {worker : Worker} (waits : Waits workerClient [] [] worker)
    {inputs : List Input} (pending : Pending 4 inputs)
    (stream : Global.channel success.remote s.written =
      Global.channel success.remote start.written ++ bytesOf inputs) :
    (∃ sessionId after, s.server.getSessionId client = some sessionId ∧
      run workerClient inputs worker = .ok () after ∧
      Identified workerClient sessionId sent (tasksOf inputs) after) ↔
      ∀ task ∈ tasksOf inputs, task.unwatches = false := by
  have isFd : success.remote ≠ -1 := by
    intro same
    rw [same] at isFd
    exact absurd isFd (by decide)
  have tunneled := tunneled_of_serving master unbuffered isFd serving
  obtain ⟨-, -, passed⟩ := tunneled.passed rfl
  rw [passed, List.append_cancel_left_eq] at stream
  have runs := run_iff waits (by decide) pending stream.symm
  rw [List.nil_append] at runs
  rw [← runs]
  constructor
  · rintro ⟨sessionId, after, session, ran, identified⟩
    have same : sessionId = start.server.sessionId + 1 :=
      Option.some.inj (session.symm.trans tunneled.session)
    rw [← same]
    exact ⟨after, ran, identified⟩
  · rintro ⟨after, ran, identified⟩
    exact ⟨_, after, tunneled.session, ran, identified⟩

/-- A client that sends before the connection to its worker is made. -/
def sampleServed : Master :=
  final (connected 9 5 (final (deliver true 5 (ascii "hi")
    (final (accept [[]] (.pending 9) 5 {})))))

theorem sampleServed_serving :
    Serving [[]] (.pending 9) 5 {} ([] ++ ascii "hi") true sampleServed := by
  have accepted : Serving [[]] (.pending 9) 5 {} [] false
      (final (accept [[]] (.pending 9) 5 {})) :=
    .accepted (eq_ok_final (by decide +kernel))
  have sent := accepted.message true (ascii "hi") (eq_ok_final (by decide +kernel))
  exact sent.connected (eq_ok_final (by decide +kernel))

/-- A worker with one client. -/
def sampleWorker : Worker where
  server := { isChild := true }

theorem sampleWorker_waits : Waits 7 [] [] sampleWorker where
  kind := rfl
  unknown := by simp [sampleWorker]
  buffer := by simp [sampleWorker]
  tasks := by simp [sampleWorker]
  reads := rfl
  ran := rfl
  handed := rfl

/-- The session id comes in two parts, the second of them with data. -/
theorem clients_reach_worker_sample :
    (∃ sessionId after, sampleServed.server.getSessionId 5 = some sessionId ∧
      run 7 [.piece [0, 0], .task ⟨1, false⟩, .piece [0, 1, 104], .piece [105]]
        sampleWorker = .ok () after ∧
      Identified 7 sessionId ([] ++ ascii "hi") [⟨1, false⟩] after) ↔
      ∀ task ∈ [SessionTask.mk 1 false], task.unwatches = false :=
  clients_reach_worker_iff rfl (by simp) (by decide) sampleServed_serving
    sampleWorker_waits ⟨by decide, trivial⟩ (by decide +kernel)

/-- The first of two tasks unwatches the client, so that the second one is
looked for in a vector that is gone. -/
theorem unwatching_task_stops_worker :
    Serving [[]] (.pending 9) 5 {} (ascii "hi") true sampleServed ∧
    Pending 4 [.task ⟨1, true⟩, .task ⟨2, false⟩, .piece [0, 0, 0, 1, 104, 105]] ∧
    Global.channel 9 sampleServed.written = bytesOf
      [.task ⟨1, true⟩, .task ⟨2, false⟩, .piece [0, 0, 0, 1, 104, 105]] ∧
    ¬∃ sessionId after, sampleServed.server.getSessionId 5 = some sessionId ∧
      run 7 [.task ⟨1, true⟩, .task ⟨2, false⟩, .piece [0, 0, 0, 1, 104, 105]]
        sampleWorker = .ok () after ∧
      Identified 7 sessionId (ascii "hi") [⟨1, true⟩, ⟨2, false⟩] after := by
  refine ⟨sampleServed_serving, ⟨by decide, by decide, trivial⟩,
    by decide +kernel, ?_⟩
  rintro ⟨sessionId, after, -, ran, -⟩
  have stuck : isOk (run 7 [.task ⟨1, true⟩, .task ⟨2, false⟩,
      .piece [0, 0, 0, 1, 104, 105]] sampleWorker) = false := by decide +kernel
  rw [ran] at stuck
  cases stuck

end Remote

end Universe
