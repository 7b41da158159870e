import Universe.Redis.Session

/-!
# Replies in the order of their commands

The callbacks of a connection are a queue.  It is in step with the commands as
long as a callback is added only when no earlier command without one waits for
its reply.  Then every reply finds the callback of its own command at the front.
-/

namespace Universe

open Incremental Protocol

namespace Redis

variable {κ : Type}

/-- The callbacks of commands, in their order. -/
def waiting (issued : List (Issued κ)) : List (GUID × κ) :=
  issued.filterMap fun command => command.callback.map (command.requestId, ·)

/-- The queue of a connection. -/
def queueOf (callbacks : RedisCallbacks κ) (client : Fd) : List (GUID × κ) :=
  (callbacks[client]?).getD []

section Queue

variable {callbacks : RedisCallbacks κ} {client : Fd}

theorem queueOf_addCallback (requestId : GUID) (callback : κ) :
    queueOf (callbacks.addCallback requestId client callback) client =
      queueOf callbacks client ++ [(requestId, callback)] := by
  unfold RedisCallbacks.addCallback queueOf
  cases found : callbacks[client]? <;> simp

theorem contains_addCallback (requestId : GUID) (callback : κ) :
    (callbacks.addCallback requestId client callback).contains client = true := by
  unfold RedisCallbacks.addCallback
  cases callbacks[client]? <;> simp

theorem getElem?_of_queueOf {front : GUID × κ} {rest : List (GUID × κ)}
    (queue : queueOf callbacks client = front :: rest) :
    callbacks[client]? = some (front :: rest) := by
  unfold queueOf at queue
  cases found : callbacks[client]? with
  | none =>
      rw [found] at queue
      cases queue
  | some entry =>
      rw [found] at queue
      exact congrArg some queue

theorem waiting_append (first second : List (Issued κ)) :
    waiting (first ++ second) = waiting first ++ waiting second :=
  List.filterMap_append

/-- No command without a callback waits before one that has one. -/
theorem waiting_eq_nil {issued : List (Issued κ)} :
    waiting issued = [] ↔ ∀ command ∈ issued, command.callback = none := by
  simp [waiting]

end Queue

theorem dealt_append (first second : List (RedisReaction κ)) :
    dealt (first ++ second) = dealt first + dealt second :=
  List.countP_append

/-- The queue has the callbacks of the commands whose replies are to come. -/
structure Synced (client : Fd) (s : Connection κ) : Prop where
  isOpen : s.status = .opened
  few : dealt s.trace ≤ s.own.issued.length
  queue : queueOf s.own.callbacks client =
    waiting (s.own.issued.drop (dealt s.trace))
  timely : ∀ command ∈ s.own.issued, command.dealt ≤ dealt s.trace

/-- What stays the same while commands are issued. -/
structure Grows (client : Fd) (before after : Connection κ) : Prop where
  trace : after.trace = before.trace
  issued : before.own.issued <+: after.own.issued
  bufferable : after.bufferable = before.bufferable
  known : before.own.callbacks.contains client = true →
    after.own.callbacks.contains client = true

section Steps

variable {program : Program κ} {client : Fd}

theorem issue_issued (s : Connection κ) (call : Call κ) :
    (issue client s call).own.issued = s.own.issued ++
      [⟨call.requestId, call.packet, s.own.added call, dealt s.trace⟩] :=
  rfl

theorem issue_grows (s : Connection κ) (call : Call κ) :
    Grows client s (issue client s call) := by
  constructor
  · rfl
  · exact ⟨_, rfl⟩
  · rfl
  · intro contained
    change (s.own.callbacks.register call.requestId client
      (s.own.added call)).contains client = true
    cases s.own.added call with
    | none => exact contained
    | some callback => exact contains_addCallback _ _

/-- Issuing a command keeps the queue in step. -/
theorem issue_synced {s : Connection κ} (synced : Synced client s)
    (call : Call κ) : Synced client (issue client s call) := by
  have few := synced.few
  constructor
  · exact synced.isOpen
  · rw [issue_issued, List.length_append]
    exact Nat.le_add_right_of_le few
  · have queue := synced.queue
    rw [issue_issued]
    change _ = waiting ((s.own.issued ++ _).drop (dealt s.trace))
    rw [List.drop_append_of_le_length few, waiting_append, ← queue]
    change queueOf (s.own.callbacks.register call.requestId client
      (s.own.added call)) client = _
    cases s.own.added call with
    | none => simp [waiting, RedisCallbacks.register]
    | some callback =>
        rw [RedisCallbacks.register, queueOf_addCallback]
        rfl
  · intro command member
    rw [issue_issued, List.mem_append, List.mem_singleton] at member
    rcases member with earlier | rfl
    · exact synced.timely command earlier
    · exact Nat.le_refl _

theorem Grows.refl (s : Connection κ) : Grows client s s :=
  ⟨rfl, List.prefix_rfl, rfl, id⟩

theorem Grows.trans {first second third : Connection κ}
    (begun : Grows client first second) (ended : Grows client second third) :
    Grows client first third where
  trace := ended.trace.trans begun.trace
  issued := begun.issued.trans ended.issued
  bufferable := ended.bufferable.trans begun.bufferable
  known := fun contained => ended.known (begun.known contained)

theorem issue_all {s : Connection κ} (synced : Synced client s)
    (calls : List (Call κ)) :
    Synced client (calls.foldl (issue client) s) ∧
      Grows client s (calls.foldl (issue client) s) := by
  induction calls generalizing s with
  | nil => exact ⟨synced, .refl s⟩
  | cons call calls induction =>
      obtain ⟨kept, grows⟩ := induction (issue_synced synced call)
      exact ⟨kept, (issue_grows s call).trans grows⟩

/-- What is seen of the reply to a command. -/
def reaction (command : Issued κ) (r : RedisReply) : List (RedisReaction κ) :=
  match command.callback with
  | none => [.logged callbacksEmpty]
  | some callback => [.called callback r, .packetOk command.requestId]

theorem dealt_reaction (command : Issued κ) (r : RedisReply) :
    dealt (reaction command r) = 1 := by
  unfold reaction
  split
  · rfl
  · rfl

/-- The loop has dealt with replies, and this was seen of them. -/
structure Proceeds (client : Fd) (before after : Connection κ)
    (seen : List (RedisReaction κ)) : Prop where
  synced : Synced client after
  trace : after.trace = before.trace ++ seen
  issued : before.own.issued <+: after.own.issued
  bufferable : after.bufferable = before.bufferable
  known : after.own.callbacks.contains client =
    before.own.callbacks.contains client

/-- The reply to a command with a callback. -/
theorem dispatch_called {s : Connection κ} (synced : Synced client s)
    {command : Issued κ} {later : List (Issued κ)}
    (next : s.own.issued.drop (dealt s.trace) = command :: later)
    {callback : κ} (has : command.callback = some callback) (r : RedisReply) :
    ∃ after, dispatch (host program client) client true r s = .ok true after ∧
      Proceeds client s after (reaction command r) := by
  have queue : queueOf s.own.callbacks client =
      (command.requestId, callback) :: waiting later := by
    rw [synced.queue, next]
    simp [waiting, has]
  have found := getElem?_of_queueOf queue
  let popped : Connection κ := { s with own := { s.own with
    callbacks := s.own.callbacks.insert client (waiting later) } }
  have pop : (host program client).callbacks (·.pop client) s =
      .ok (some (some (command.requestId, callback))) popped := by
    simp only [host, Stepwise.modifyGet_eq, RedisCallbacks.pop, found]
    rfl
  have once : dealt (s.trace ++ [.called callback r]) = dealt s.trace + 1 := by
    rw [dealt_append]
    rfl
  have less : dealt s.trace < s.own.issued.length := by
    apply Nat.lt_of_not_le
    intro past
    rw [List.drop_eq_nil_of_le past] at next
    cases next
  have rest : s.own.issued.drop (dealt s.trace + 1) = later := by
    rw [← List.drop_drop, next]
    rfl
  have started : Synced client (popped.record (.called callback r)) := by
    constructor
    · exact synced.isOpen
    · change dealt (s.trace ++ _) ≤ s.own.issued.length
      omega
    · change queueOf (s.own.callbacks.insert client (waiting later)) client =
        waiting (s.own.issued.drop (dealt (s.trace ++ _)))
      rw [once, rest]
      simp [queueOf]
    · intro earlier member
      change earlier.dealt ≤ dealt (s.trace ++ _)
      have timely := synced.timely earlier member
      omega
  obtain ⟨kept, grows⟩ := issue_all started
    (program (popped.record (.called callback r)).trace callback r)
  have calls : (host program client).call callback r popped =
      .ok () (called program client callback r popped) := rfl
  refine ⟨(called program client callback r popped).record
    (.packetOk command.requestId), ?_, ?_⟩
  · unfold dispatch
    rw [if_pos rfl, Stepwise.bind_of_ok pop]
    dsimp only
    rw [Stepwise.bind_of_ok calls]
    rfl
  · have trace : (called program client callback r popped).trace =
        s.trace ++ [.called callback r] := grows.trace
    have same : dealt ((called program client callback r popped).record
        (.packetOk command.requestId)).trace =
          dealt (called program client callback r popped).trace :=
      dealt_append _ _
    constructor
    · constructor
      · exact kept.isOpen
      · rw [same]
        exact kept.few
      · rw [same]
        exact kept.queue
      · rw [same]
        exact kept.timely
    · change (called program client callback r popped).trace ++ _ = _
      rw [trace, reaction, has, List.append_assoc]
      rfl
    · exact grows.issued
    · exact grows.bufferable
    · have contained : s.own.callbacks.contains client = true := by
        rw [Std.ExtTreeMap.contains_eq_isSome_getElem?, found]
        rfl
      rw [contained]
      apply grows.known
      simp [popped, Connection.record]

variable (program) in
/-- A reply for which there is no callback leaves the loop. -/
theorem dispatch_logged {s : Connection κ}
    (empty : queueOf s.own.callbacks client = []) (r : RedisReply) :
    dispatch (host program client) client
        (s.own.callbacks.contains client) r s =
      .ok false (s.record (.logged callbacksEmpty)) := by
  unfold dispatch
  cases found : s.own.callbacks[client]? with
  | none =>
      rw [Std.ExtTreeMap.contains_eq_isSome_getElem?, found]
      rfl
  | some queue =>
      have nothing : queue = [] := by
        unfold queueOf at empty
        rw [found] at empty
        exact empty
      subst nothing
      have asked : (host program client).callbacks (·.pop client) s =
          .ok (some none) s := by
        simp only [host, Stepwise.modifyGet_eq, RedisCallbacks.pop, found]
      rw [Std.ExtTreeMap.contains_eq_isSome_getElem?, found]
      change (if true = true then _ else _ : Connection.M _ _ Bool) s = _
      rw [if_pos rfl, Stepwise.bind_of_ok asked]
      rfl

/-- What is seen of the replies to commands. -/
def seen (commands : List (Issued κ)) (replies : List Resp) :
    List (RedisReaction κ) :=
  (commands.zip replies).flatMap fun (command, r) => reaction command r.toReply

theorem dealt_seen {commands : List (Issued κ)} {replies : List Resp}
    (same : commands.length = replies.length) :
    dealt (seen commands replies) = replies.length := by
  induction commands generalizing replies with
  | nil =>
      rw [← same]
      rfl
  | cons command commands induction =>
      cases replies with
      | nil => cases same
      | cons r replies =>
          have fewer := induction (Nat.succ.inj same)
          change dealt (reaction command r.toReply ++ seen commands replies) = _
          rw [dealt_append, dealt_reaction, fewer, List.length_cons,
            Nat.add_comm]

theorem seen_append {commands others : List (Issued κ)} {replies later : List Resp}
    (same : commands.length = replies.length) :
    seen (commands ++ others) (replies ++ later) =
      seen commands replies ++ seen others later := by
  unfold seen
  rw [List.zip_append same, List.flatMap_append]

theorem Proceeds.refl {s : Connection κ} (synced : Synced client s) :
    Proceeds client s s [] where
  synced := synced
  trace := (List.append_nil _).symm
  issued := List.prefix_rfl
  bufferable := rfl
  known := rfl

theorem Proceeds.trans {first second third : Connection κ}
    {early late : List (RedisReaction κ)}
    (begun : Proceeds client first second early)
    (ended : Proceeds client second third late) :
    Proceeds client first third (early ++ late) where
  synced := ended.synced
  trace := by rw [ended.trace, begun.trace, List.append_assoc]
  issued := begun.issued.trans ended.issued
  bufferable := ended.bufferable.trans begun.bufferable
  known := ended.known.trans begun.known

variable (program) in
/-- The replies to commands that all have callbacks. -/
theorem handled_called {s : Connection κ} (synced : Synced client s)
    {commands : List (Issued κ)} {replies : List Resp}
    (same : commands.length = replies.length)
    (front : commands <+: s.own.issued.drop (dealt s.trace))
    (all : ∀ command ∈ commands, command.callback.isSome) :
    ∃ after, Handled (dispatch (host program client) client
        (s.own.callbacks.contains client)) (replies.map Resp.toReply) s after ∧
      Proceeds client s after (seen commands replies) := by
  induction commands generalizing s replies with
  | nil =>
      rw [List.length_eq_zero_iff.mp same.symm]
      exact ⟨s, rfl, .refl synced⟩
  | cons command commands induction =>
      cases replies with
      | nil => cases same
      | cons r replies =>
          obtain ⟨first, others⟩ := List.forall_mem_cons.mp all
          obtain ⟨callback, has⟩ := Option.isSome_iff_exists.mp first
          obtain ⟨later, next⟩ := front
          obtain ⟨between, called, proceeds⟩ :=
            dispatch_called synced next.symm has r.toReply
          have contained : s.own.callbacks.contains client = true := by
            have queue := synced.queue
            rw [← next] at queue
            have found := getElem?_of_queueOf (queue.trans
              (show waiting (command :: commands ++ later) =
                (command.requestId, callback) :: waiting (commands ++ later) by
                  simp [waiting, has]))
            rw [Std.ExtTreeMap.contains_eq_isSome_getElem?, found]
            rfl
          have once : dealt between.trace = dealt s.trace + 1 := by
            rw [proceeds.trace, dealt_append, dealt_reaction]
          have rest : commands <+: between.own.issued.drop
              (dealt between.trace) := by
            obtain ⟨more, grown⟩ := proceeds.issued
            rw [once, ← grown, ← List.drop_drop, List.drop_append_of_le_length
              synced.few, ← next]
            exact ⟨later ++ more, by simp⟩
          obtain ⟨after, handled, ended⟩ :=
            induction proceeds.synced (Nat.succ.inj same) rest others
          rw [proceeds.known, contained] at handled
          rw [contained]
          exact ⟨after, ⟨between, called, handled⟩, proceeds.trans ended⟩

theorem deliver_eq (maxSize : Nat) (s : Connection κ) (piece : Bytes) :
    deliver program client maxSize s piece =
      Connection.deliver (onItems (Connection.host (traits client) client)
        (parseResponse maxSize) (dispatch (host program client) client
          (s.own.callbacks.contains client)) client) s piece := by
  have found : (host program client).callbacks (fun callbacks =>
      (callbacks.contains client, callbacks)) s =
        .ok (s.own.callbacks.contains client) s := rfl
  unfold deliver Connection.deliver onMessage
  rw [Stepwise.bind_of_ok found]
  rfl

theorem issue_all_issued (calls : List (Call κ)) (s : Connection κ) :
    s.own.issued <+: (calls.foldl (issue client) s).own.issued := by
  induction calls generalizing s with
  | nil => exact List.prefix_rfl
  | cons call calls induction =>
      exact (issue_grows s call).issued.trans (induction _)

/-- No command is taken back, whatever the reply. -/
theorem dispatch_issued (known : Bool) (r : RedisReply) (s : Connection κ) :
    s.own.issued <+: (Stepwise.final
      (dispatch (host program client) client known r s)).own.issued := by
  cases known with
  | false => exact List.prefix_rfl
  | true =>
      have asked : (host program client).callbacks (·.pop client) s =
          .ok (s.own.callbacks.pop client).1
            { s with own := { s.own with
              callbacks := (s.own.callbacks.pop client).2 } } := rfl
      unfold dispatch
      rw [if_pos rfl, Stepwise.bind_of_ok asked]
      rcases (s.own.callbacks.pop client).1 with - | - | ⟨requestId, callback⟩
      · exact List.prefix_rfl
      · exact List.prefix_rfl
      · let popped : Connection κ := { s with own := { s.own with
          callbacks := (s.own.callbacks.pop client).2 } }
        let begun := popped.record (.called callback r)
        exact issue_all_issued (program begun.trace callback r) begun

theorem readItems_issued (parse : StreamReader (Option RedisReply))
    (known : Bool) (fuel : Nat) (message : Bytes) (s : Connection κ) :
    s.own.issued <+: (Stepwise.final
      (readItems (Connection.host (traits client) client) parse
        (dispatch (host program client) client known) client fuel message
        s)).own.issued := by
  induction fuel generalizing message s with
  | zero => exact List.prefix_rfl
  | succ fuel induction =>
      unfold readItems
      rcases parse message with (- | -) | ⟨- | item, rest⟩
      · simp only [Connection.host, Stepwise.modifyGet_bind, if_pos]
        exact List.prefix_rfl
      · exact List.prefix_rfl
      · exact List.prefix_rfl
      · have first : s.own.issued <+: (Stepwise.final
            (dispatch (host program client) client known item s)).own.issued :=
          dispatch_issued known item s
        dsimp only
        cases outcome : dispatch (host program client) client known item s with
        | error stop between =>
            rw [Stepwise.bind_of_error outcome]
            rw [outcome] at first
            exact first
        | ok goesOn between =>
            rw [Stepwise.bind_of_ok outcome]
            rw [outcome] at first
            by_cases more : (goesOn && !rest.isEmpty) = true
            · rw [if_pos more]
              exact first.trans (induction rest between)
            · rw [if_neg more]
              exact first

end Steps

/-- When a callback was added, every earlier command whose reply had not been
dealt with had one too. -/
def InTurn (issued : List (Issued κ)) : Prop :=
  ∀ before command after, issued = before ++ command :: after →
    command.callback.isSome →
      ∀ earlier ∈ before.drop command.dealt, earlier.callback.isSome

/-- Of the bytes that arrive, none comes after the reply to a command without
a callback. -/
def Ends (client : Fd) (s : Session κ) (size : Nat) : Prop :=
  let done := dealt s.connection.trace
  ∀ number command, s.issued[number]? = some command →
    command.callback = none → done ≤ number → number < s.answers.length →
      (s.connection.remainder client ++ s.stream.take size).length ≤
        (((s.answers.take (number + 1)).drop done).flatMap Resp.encode).length

/-- A step after which the queue is in step with the commands. -/
def Careful (client : Fd) (before : Session κ) (event : Event κ)
    (after : Session κ) : Prop :=
  InTurn after.issued ∧
    ∀ size, event = .deliver size → Ends client before size

/-- What holds in every session of careful steps. -/
structure Orderly (maxSize : Nat) (client : Fd) (s : Session κ) : Prop where
  synced : Synced client s.connection
  within : dealt s.connection.trace ≤ s.answers.length
  answered : s.answers.length ≤ s.issued.length
  valid : ∀ r ∈ s.answers, r.Valid maxSize
  bytes : s.connection.remainder client ++ s.stream =
    (s.answers.drop (dealt s.connection.trace)).flatMap Resp.encode
  early : parseResponse maxSize (s.connection.remainder client) = .error .ag
  trace : s.connection.trace = seen (s.issued.take (dealt s.connection.trace))
    (s.answers.take (dealt s.connection.trace))

section Sessions

variable {maxSize : Nat} {program : Program κ} {client : Fd}

theorem orderly_started {others : RedisCallbacks κ}
    (fresh : others[client]? = none) :
    Orderly maxSize client (started others) where
  synced := by
    constructor
    · rfl
    · exact Nat.le_refl 0
    · change (others[client]?).getD [] = []
      rw [fresh]
      rfl
    · intro command member
      cases member
  within := Nat.le_refl 0
  answered := Nat.le_refl 0
  valid := by
    intro r member
    cases member
  bytes := by simp [started, Connection.remainder]
  early := by
    have nothing : (started others).connection.remainder client = [] := by
      simp [started, Connection.remainder]
    rw [nothing]
    rfl
  trace := rfl

/-- Everything but the commands, the callbacks and what was written of them is
as before. -/
theorem orderly_issued {s : Session κ} (orderly : Orderly maxSize client s)
    {connection : Connection κ} (synced : Synced client connection)
    (grows : Grows client s.connection connection) :
    Orderly maxSize client { s with connection } := by
  obtain ⟨more, grown⟩ := grows.issued
  have waits : connection.remainder client =
      s.connection.remainder client := by
    unfold Connection.remainder
    rw [grows.bufferable]
  constructor
  · exact synced
  · rw [grows.trace]
    exact orderly.within
  · exact orderly.answered.trans grows.issued.length_le
  · exact orderly.valid
  · rw [grows.trace, waits]
    exact orderly.bytes
  · rw [waits]
    exact orderly.early
  · change connection.trace = seen (connection.own.issued.take _) _
    rw [grows.trace, ← grown, List.take_append_of_le_length orderly.synced.few]
    exact orderly.trace

theorem orderly_answer {s : Session κ} (orderly : Orderly maxSize client s)
    {reply : Resp} (valid : reply.Valid maxSize)
    (arrived : s.answers.length + 1 ≤ s.issued.length) :
    Orderly maxSize client
      { s with
        answers := s.answers ++ [reply]
        stream := s.stream ++ reply.encode } := by
  have within := orderly.within
  constructor
  · exact orderly.synced
  · change _ ≤ (s.answers ++ [reply]).length
    rw [List.length_append]
    exact Nat.le_add_right_of_le within
  · change (s.answers ++ [reply]).length ≤ s.issued.length
    rw [List.length_append]
    exact arrived
  · intro r member
    rcases List.mem_append.mp member with earlier | last
    · exact orderly.valid r earlier
    · rw [List.mem_singleton.mp last]
      exact valid
  · change _ ++ (s.stream ++ reply.encode) =
      ((s.answers ++ [reply]).drop _).flatMap Resp.encode
    rw [List.drop_append_of_le_length within, List.flatMap_append,
      ← List.append_assoc, orderly.bytes]
    simp
  · exact orderly.early
  · change _ = seen _ ((s.answers ++ [reply]).take _)
    rw [List.take_append_of_le_length within]
    exact orderly.trace

/-- A waiting command without a callback has none with one after it. -/
theorem waiting_of_inTurn {s : Connection κ} (synced : Synced client s)
    (inTurn : InTurn s.own.issued) {command : Issued κ}
    {later : List (Issued κ)}
    (next : s.own.issued.drop (dealt s.trace) = command :: later)
    (without : command.callback = none) :
    waiting (s.own.issued.drop (dealt s.trace)) = [] := by
  rw [next]
  apply waiting_eq_nil.mpr
  intro other member
  rcases List.mem_cons.mp member with rfl | follows
  · exact without
  · obtain ⟨before, after, rfl⟩ := List.append_of_mem follows
    have split : s.own.issued =
        (s.own.issued.take (dealt s.trace) ++ command :: before) ++
          other :: after := by
      rw [List.append_assoc, List.cons_append, ← next, List.take_append_drop]
    cases added : other.callback with
    | none => rfl
    | some callback =>
        have timely := synced.timely other (by rw [split]; simp)
        have size := List.length_take_of_le synced.few
        have has := inTurn _ _ _ split (by rw [added]; rfl) command (by
          rw [List.drop_append_of_le_length (by rw [size]; exact timely)]
          simp)
        rw [without] at has
        cases has

/-- The replies at the front have been dealt with. -/
theorem orderly_proceeds {s : Session κ} (orderly : Orderly maxSize client s)
    {commands : List (Issued κ)} {replies later : List Resp}
    (same : commands.length = replies.length)
    (front : commands <+: s.issued.drop (dealt s.connection.trace))
    (split : s.answers.drop (dealt s.connection.trace) = replies ++ later)
    {after : Connection κ} (synced : Synced client after)
    (trace : after.trace = s.connection.trace ++ seen commands replies)
    (issued : s.issued <+: after.own.issued) {stream : Bytes}
    (bytes : after.remainder client ++ stream = later.flatMap Resp.encode)
    (early : parseResponse maxSize (after.remainder client) = .error .ag) :
    Orderly maxSize client { s with connection := after, stream } := by
  have count : dealt after.trace =
      dealt s.connection.trace + replies.length := by
    rw [trace, dealt_append, dealt_seen same]
  have within := orderly.within
  have answersSize := congrArg List.length split
  rw [List.length_drop, List.length_append] at answersSize
  have issuedSize := front.length_le
  rw [List.length_drop] at issuedSize
  have few : dealt s.connection.trace ≤ s.issued.length := orderly.synced.few
  have taken : after.own.issued.take (dealt after.trace) =
      s.issued.take (dealt s.connection.trace) ++ commands := by
    obtain ⟨more, grown⟩ := issued
    rw [← grown, count, List.take_append_of_le_length (by omega), List.take_add,
      ← same, ← List.prefix_iff_eq_take.mp front]
  have answered : s.answers.take (dealt after.trace) =
      s.answers.take (dealt s.connection.trace) ++ replies := by
    rw [count, List.take_add, split, List.take_left]
  constructor
  · exact synced
  · change dealt after.trace ≤ s.answers.length
    omega
  · exact orderly.answered.trans issued.length_le
  · exact orderly.valid
  · change _ = (s.answers.drop (dealt after.trace)).flatMap Resp.encode
    rw [bytes, count, ← List.drop_drop, split, List.drop_left]
  · exact early
  · change after.trace = seen (after.own.issued.take _) (s.answers.take _)
    rw [taken, answered, seen_append, ← orderly.trace, trace]
    rw [List.length_take_of_le few, List.length_take_of_le within]

theorem Synced.keeping {s : Connection κ} (synced : Synced client s)
    (bufferable : Bufferable) : Synced client (s.keeping bufferable) :=
  ⟨synced.isOpen, synced.few, synced.queue, synced.timely⟩

theorem parseResponse_valid {r : Resp} (valid : r.Valid maxSize) :
    parseResponse maxSize r.encode = .ok (some r.toReply, []) := by
  have read := (parseResponse_encode valid).1 []
  rw [List.append_nil] at read
  exact read

/-- A delivery with replies to commands that all have callbacks. -/
theorem orderly_deliver_called {s : Session κ}
    (orderly : Orderly maxSize client s) {size : Nat}
    {commands : List (Issued κ)} {replies later : List Resp} {left : Bytes}
    (same : commands.length = replies.length)
    (front : commands <+: s.issued.drop (dealt s.connection.trace))
    (split : s.answers.drop (dealt s.connection.trace) = replies ++ later)
    (all : ∀ command ∈ commands, command.callback.isSome)
    (arrived : s.connection.remainder client ++ s.stream.take size =
      replies.flatMap Resp.encode ++ left)
    (early : parseResponse maxSize left = .error .ag)
    (rest : left ++ s.stream.drop size = later.flatMap Resp.encode) :
    Orderly maxSize client
      { s with
        connection :=
          deliver program client maxSize s.connection (s.stream.take size)
        stream := s.stream.drop size } := by
  have valid : ∀ r ∈ replies, r.Valid maxSize := by
    intro r member
    apply orderly.valid r
    apply List.mem_of_mem_drop (i := dealt s.connection.trace)
    rw [split]
    exact List.mem_append_left _ member
  obtain ⟨after, handled, proceeds⟩ := handled_called program
    (orderly.synced.keeping (s.connection.bufferable.erase client)) same front all
  have delivered : deliver program client maxSize s.connection
      (s.stream.take size) = _ :=
    (deliver_eq maxSize s.connection _).trans
      (Connection.deliver_handled (stable_parseResponse maxSize)
        (parseResponse_nil maxSize) orderly.synced.isOpen arrived
        (fun r member => parseResponse_valid (valid r member)) early handled)
  rw [delivered]
  split
  · next whole =>
      have nothing : after.remainder client = [] := by
        unfold Connection.remainder
        rw [proceeds.bufferable]
        simp [Connection.keeping]
      apply orderly_proceeds orderly same front split proceeds.synced
        proceeds.trace proceeds.issued
      · rw [nothing, ← rest, whole.2]
      · rw [nothing]
        exact parseResponse_nil maxSize
  · have kept : (after.keeping (after.bufferable.insert client left)).remainder
        client = left := by
      simp [Connection.remainder, Connection.keeping]
    apply orderly_proceeds orderly same front split
      (proceeds.synced.keeping (after.bufferable.insert client left))
      proceeds.trace proceeds.issued
    · rw [kept, rest]
    · rw [kept]
      exact early

theorem InTurn.of_prefix {issued more : List (Issued κ)} (inTurn : InTurn more)
    (begins : issued <+: more) : InTurn issued := by
  obtain ⟨rest, rfl⟩ := begins
  intro before command after split
  apply inTurn before command (after ++ rest)
  rw [split, List.append_assoc]
  rfl

theorem encode_ne_nil {r : Resp} (valid : r.Valid maxSize) : r.encode ≠ [] := by
  intro nothing
  have read := parseResponse_valid valid
  rw [nothing, parseResponse_nil] at read
  cases read

/-- A reply to a command without a callback while nobody waits. -/
theorem Synced.logged {after : Connection κ} (synced : Synced client after)
    {command : Issued κ} {others : List (Issued κ)}
    (next : after.own.issued.drop (dealt after.trace) = command :: others)
    (idle : waiting (after.own.issued.drop (dealt after.trace)) = []) :
    Synced client (after.record (.logged callbacksEmpty)) := by
  have once : dealt (after.trace ++ [.logged callbacksEmpty]) =
      dealt after.trace + 1 := dealt_append _ _
  have less := congrArg List.length next
  rw [List.length_drop, List.length_cons] at less
  constructor
  · exact synced.isOpen
  · change dealt (after.trace ++ _) ≤ after.own.issued.length
    omega
  · change queueOf after.own.callbacks client =
      waiting (after.own.issued.drop (dealt (after.trace ++ _)))
    rw [synced.queue, idle, once, ← List.drop_drop, next]
    rw [next] at idle
    apply Eq.symm
    apply waiting_eq_nil.mpr
    intro other member
    exact waiting_eq_nil.mp idle other (.tail _ member)
  · intro earlier member
    change earlier.dealt ≤ dealt (after.trace ++ _)
    have timely := synced.timely earlier member
    omega

/-- A delivery that ends with the reply to a command without a callback. -/
theorem orderly_deliver_logged {s : Session κ}
    (orderly : Orderly maxSize client s) {size : Nat}
    {commands : List (Issued κ)} {command : Issued κ}
    {replies later : List Resp} {reply : Resp}
    (same : commands.length = replies.length)
    (front : commands ++ [command] <+:
      s.issued.drop (dealt s.connection.trace))
    (split : s.answers.drop (dealt s.connection.trace) =
      replies ++ [reply] ++ later)
    (all : ∀ command ∈ commands, command.callback.isSome)
    (without : command.callback = none)
    (arrived : s.connection.remainder client ++ s.stream.take size =
      replies.flatMap Resp.encode ++ reply.encode)
    (rest : s.stream.drop size = later.flatMap Resp.encode)
    (inTurn : InTurn (deliver program client maxSize s.connection
      (s.stream.take size)).own.issued) :
    Orderly maxSize client
      { s with
        connection :=
          deliver program client maxSize s.connection (s.stream.take size)
        stream := s.stream.drop size } := by
  have valid : ∀ r ∈ replies ++ [reply], r.Valid maxSize := by
    intro r member
    apply orderly.valid r
    apply List.mem_of_mem_drop (i := dealt s.connection.trace)
    rw [split]
    exact List.mem_append_left _ member
  have printed : ∀ r ∈ replies ++ [reply],
      parseResponse maxSize r.encode = .ok (some r.toReply, []) :=
    fun r member => parseResponse_valid (valid r member)
  obtain ⟨after, handled, proceeds⟩ := handled_called program
    (orderly.synced.keeping (s.connection.bufferable.erase client)) same
    ((List.prefix_append _ _).trans front) all
  have count : dealt after.trace =
      dealt s.connection.trace + commands.length := by
    rw [proceeds.trace, dealt_append, dealt_seen same, same]
    rfl
  obtain ⟨others, next⟩ : ∃ others,
      after.own.issued.drop (dealt after.trace) = command :: others := by
    obtain ⟨tail, begins⟩ := front
    obtain ⟨more, grown⟩ := proceeds.issued
    refine ⟨tail ++ more, ?_⟩
    have start : s.issued ++ more = after.own.issued := grown
    rw [← start, count, ← List.drop_drop,
      List.drop_append_of_le_length orderly.synced.few, ← begins]
    simp
  have stable := stable_parseResponse maxSize
  have empty := parseResponse_nil maxSize
  have early : ∀ r ∈ replies,
      parseResponse maxSize r.encode = .ok (some r.toReply, []) :=
    fun r member => printed r (List.mem_append_left _ member)
  have some : reply.encode ≠ [] := encode_ne_nil (valid reply (by simp))
  have turn : InTurn after.own.issued := by
    obtain ⟨fuel, delivered⟩ : ∃ fuel,
        Connection.deliver (onItems (Connection.host (traits client) client)
          (parseResponse maxSize) (dispatch (host program client) client
            (s.connection.own.callbacks.contains client)) client)
          s.connection (s.stream.take size) = Connection.settled (readItems
            (Connection.host (traits client) client) _ _ client fuel _ after) :=
      Connection.deliver_skip stable empty orderly.synced.isOpen arrived early
        handled some
    rw [deliver_eq, delivered, Connection.settled_own] at inTurn
    exact inTurn.of_prefix (readItems_issued _ _ _ _ after)
  have idle := waiting_of_inTurn proceeds.synced turn next without
  have known : after.own.callbacks.contains client =
      s.connection.own.callbacks.contains client := proceeds.known
  have leaves := dispatch_logged program
    (proceeds.synced.queue.trans idle) reply.toReply
  rw [known] at leaves
  have delivered : deliver program client maxSize s.connection
      (s.stream.take size) = after.record (.logged callbacksEmpty) :=
    (deliver_eq maxSize s.connection _).trans
      (Connection.deliver_left stable empty orderly.synced.isOpen
        (arrived.trans (List.append_nil _).symm) printed handled leaves)
  rw [delivered]
  have synced := proceeds.synced.logged next idle
  have nothing : (after.record (.logged callbacksEmpty)).remainder client =
      [] := by
    change (after.bufferable[client]?).getD [] = []
    rw [proceeds.bufferable]
    simp [Connection.keeping]
  have reacted : seen [command] [reply] = [.logged callbacksEmpty] := by
    simp [seen, reaction, without]
  apply orderly_proceeds orderly (by simpa using same) front split synced
  · rw [seen_append same, reacted, ← List.append_assoc]
    exact congrArg (· ++ _) proceeds.trace
  · exact proceeds.issued
  · rw [nothing]
    exact rest
  · rw [nothing]
    exact empty

/-- A delivery that does not go beyond the reply to a command without a
callback. -/
theorem orderly_deliver {s : Session κ} (orderly : Orderly maxSize client s)
    {size : Nat} (ends : Ends client s size)
    (inTurn : InTurn (deliver program client maxSize s.connection
      (s.stream.take size)).own.issued) :
    Orderly maxSize client
      { s with
        connection :=
          deliver program client maxSize s.connection (s.stream.take size)
        stream := s.stream.drop size } := by
  have valid : ∀ r ∈ s.answers.drop (dealt s.connection.trace),
      r.Valid maxSize :=
    fun r member => orderly.valid r (List.mem_of_mem_drop member)
  have whole : s.connection.remainder client ++ s.stream.take size ++
      s.stream.drop size = (s.answers.drop
        (dealt s.connection.trace)).flatMap Resp.encode ++ [] := by
    rw [List.append_assoc, List.take_append_drop, List.append_nil]
    exact orderly.bytes
  obtain ⟨done, later, left, split, received, early, rest⟩ :
      ∃ (done later : List Resp) (left : Bytes),
        s.answers.drop (dealt s.connection.trace) = done ++ later ∧
        s.connection.remainder client ++ s.stream.take size =
          done.flatMap Resp.encode ++ left ∧
        parseResponse maxSize left = .error .ag ∧
        left ++ s.stream.drop size = later.flatMap Resp.encode ++ [] :=
    (stable_parseResponse maxSize).cut
      (fun r member => parseResponse_valid (valid r member))
      (parseResponse_nil maxSize) whole
  rw [List.append_nil] at rest
  have within := orderly.within
  have answered := orderly.answered
  have fits := congrArg List.length split
  rw [List.length_drop, List.length_append] at fits
  have same : ((s.issued.drop (dealt s.connection.trace)).take
      done.length).length = done.length := by
    rw [List.length_take_of_le]
    rw [List.length_drop]
    omega
  have front := List.take_prefix done.length
    (s.issued.drop (dealt s.connection.trace))
  generalize (s.issued.drop (dealt s.connection.trace)).take done.length =
    commands at same front
  cases found : commands.find? (·.callback.isNone) with
  | none =>
      have all : ∀ command ∈ commands, command.callback.isSome := by
        intro command member
        have other := List.find?_eq_none.mp found command member
        simpa [Option.isSome_iff_ne_none] using other
      exact orderly_deliver_called orderly same front split all received early
        rest
  | some command =>
      obtain ⟨isNone, before, after, rfl, others⟩ :=
        List.find?_eq_some_iff_append.mp found
      have without : command.callback = none := by simpa using isNone
      have all : ∀ earlier ∈ before, earlier.callback.isSome := by
        intro earlier member
        simpa using others earlier member
      rw [List.length_append, List.length_cons] at same
      obtain ⟨replies, reply, more, rfl, count⟩ : ∃ replies reply more,
          done = replies ++ reply :: more ∧ before.length = replies.length := by
        refine ⟨done.take before.length, done[before.length],
          done.drop (before.length + 1), ?_, ?_⟩
        · rw [List.getElem_cons_drop, List.take_append_drop]
        · rw [List.length_take_of_le (by omega)]
      have number : s.issued[dealt s.connection.trace + before.length]? =
          some command := by
        obtain ⟨tail, begins⟩ := front
        rw [← List.getElem?_drop, ← begins]
        simp
      have expected : (s.answers.take (dealt s.connection.trace +
          before.length + 1)).drop (dealt s.connection.trace) =
            replies ++ [reply] := by
        have shape : replies ++ reply :: more ++ later =
            replies ++ [reply] ++ (more ++ later) := by simp
        have size : dealt s.connection.trace + replies.length + 1 -
            dealt s.connection.trace = (replies ++ [reply]).length := by
          rw [List.length_append]
          simp only [List.length_singleton]
          omega
        rw [List.drop_take, split, count, shape, size, List.take_left]
      have bound := ends _ _ number without (by omega) (by
        simp only [List.length_append, List.length_cons] at fits
        omega)
      rw [expected, received] at bound
      simp only [List.flatMap_append, List.flatMap_cons, List.flatMap_nil,
        List.append_nil, List.length_append] at bound
      have noBytes : left = [] := List.length_eq_zero_iff.mp (by omega)
      have noMore : more = [] := by
        cases more with
        | nil => rfl
        | cons another more =>
            have some := encode_ne_nil (valid another (by rw [split]; simp))
            rw [List.flatMap_cons, List.length_append] at bound
            have positive := List.length_pos_of_ne_nil some
            omega
      subst noBytes noMore
      refine orderly_deliver_logged orderly count ?_ split all without ?_ rest
        inTurn
      · exact ((List.prefix_append (before ++ [command]) after).trans
          (by simp)).trans front
      · rw [received]
        simp

/-- A careful step keeps the session in order. -/
theorem orderly_next {s : Session κ} (orderly : Orderly maxSize client s)
    {event : Event κ} (possible : Possible maxSize s event)
    (careful : Careful client s event (next maxSize program client s event)) :
    Orderly maxSize client (next maxSize program client s event) := by
  obtain ⟨inTurn, ends⟩ := careful
  cases event with
  | issue call =>
      exact orderly_issued orderly (issue_synced orderly.synced call)
        (issue_grows s.connection call)
  | flush takes =>
      have synced := orderly.synced
      exact orderly_issued orderly
        ⟨synced.isOpen, synced.few, synced.queue, synced.timely⟩
        ⟨rfl, List.prefix_rfl, rfl, id⟩
  | answer reply => exact orderly_answer orderly possible.1 possible.2.1
  | deliver size => exact orderly_deliver orderly (ends size rfl) inTurn

theorem orderly_reached {others : RedisCallbacks κ}
    (fresh : others[client]? = none) {s : Session κ}
    (reached : Reached maxSize program client (Careful client)
      (started others) s) : Orderly maxSize client s := by
  apply Stepwise.invariant_of_steps _ reached (orderly_started fresh)
  intro before after orderly step
  obtain ⟨event, possible, rfl, careful⟩ := step
  exact orderly_next orderly possible careful

end Sessions

end Redis

end Universe
