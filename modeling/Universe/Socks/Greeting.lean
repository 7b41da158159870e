import Universe.Protocol.Session
import Universe.Socks

/-!
# Greetings in pieces

A client sends a greeting, and whatever it likes after it, in any pieces.  The
number of methods is read as a signed number, and what arrives together with the
end of the greeting is dropped.
-/

namespace Universe

open Protocol Protocol.Connection

namespace Socks

/-- What can be seen of a client. -/
inductive Effect where
  | wrote (fd : Fd) (data : Bytes)
  | closed (fd : Fd)
  | asked (address : Bytes) (port : UInt16)
  deriving DecidableEq, Repr

abbrev Session := Connection Effect Relays

/-- What `on_close` leaves. -/
def leave (client : Fd) (relays : Relays) : Relays :=
  let relays := { relays with
    stateful := relays.stateful.eraseState client
    url := relays.url.erase client }
  match relays.c2r[client]? with
  | none => relays
  | some remote => relays.unpair client remote

def sessionHost (client : Fd) : ServerHost Relays (M Effect Relays) :=
  serverHost { wrote := .wrote, closed := .closed, forget := leave client }
    client

section Sessions

variable (resolve : Bytes → UInt16 → Resolution) (client : Fd)

/-- What `Client::connect` comes to.  It calls back at once when it knows the
outcome. -/
def resolved (address : Bytes) (port : UInt16) (peer : Fd) :
    M Effect Relays Fd := do
  let resolution := resolve address port
  if resolution.addresses = 0 then (sessionHost client).exit
  else
    match settles resolution.status resolution.addresses with
    | .failed => onRemoteConnect (sessionHost client) port .ng peer
    | .connected => onRemoteConnect (sessionHost client) port .ok peer
    | .inProgress => pure ()
    return resolution.socket

/-- `Client::connect`. -/
def reach (address : Bytes) (port : UInt16) (peer : Fd) :
    M Effect Relays Fd := do
  modify (record (.asked address port))
  resolved resolve client address port peer

/-- One delivery to a client that is open. -/
def deliver (s : Session) (piece : Bytes) : Session :=
  Connection.deliver
    (onMessage (sessionHost client) (reach resolve client) client) s piece

/-- The bytes that have arrived wait for the others. -/
def kept (received : Bytes) (s : Session) : Session :=
  s.keeping (s.bufferable.insert client received)

/-- The greeting was answered, and the request comes next. -/
def answered (s : Session) : Session :=
  { s.record (.wrote client [5, 0]) with
    own := { s.own with
      stateful := s.own.stateful.setState client .request } }

/-- The client was closed. -/
def refused (s : Session) : Session :=
  { s.record (.closed client) with
    status := .closed
    own := leave client s.own }

/-- What a greeting with these methods comes to: it waits for all of them, it is
answered when one of them is 0, and what follows them begins the request. -/
def understood (count : UInt8) (methods : Bytes) (s : Session) :
    (now : Session) → (received : Bytes) → List Bytes → Session
  | now, _, [] => now
  | _, received, piece :: pieces =>
      let received := received ++ piece
      if received.length < 2 + count.toNat then
        understood count methods s (kept client received s) received pieces
      else if methods.contains 0 then
        let rest := received.drop (2 + count.toNat)
        ((if rest = [] then [] else [rest]) ++ pieces).foldl
          (deliver resolve client) (answered client s)
      else refused client s

end Sessions

/-- The length at which `on_message` reads the methods. -/
def threshold (count : UInt8) : Nat := toSize (2 + char count)

/-- How many bytes have arrived after so many deliveries, with those before. -/
def arrived (before : Bytes) (pieces : List Bytes) (deliveries : Nat) : Nat :=
  (before ++ (pieces.take deliveries).flatten).length

/-- Up to 127 methods a delivery ends with the last one of them when one is 0.
Else none is 0, and `on_message` reads the methods when they have arrived. -/
def Readable (count : UInt8) (methods before : Bytes) (pieces : List Bytes) :
    Prop :=
  if count < 128 then
    0 ∉ methods ∨
      ∃ deliveries, arrived before pieces deliveries = 2 + count.toNat
  else
    0 ∉ methods ∧ ∀ deliveries,
      2 + count.toNat ≤ arrived before pieces deliveries ↔
        2 ≤ arrived before pieces deliveries ∧
          threshold count ≤ arrived before pieces deliveries

section Counting

theorem char_eq (count : UInt8) :
    char count =
      if count < 128 then (count.toNat : Int)
      else (count.toNat : Int) - 256 := by
  have read : char count = count.toBitVec.toInt := rfl
  have bound := count.toNat_lt
  rw [read, BitVec.toInt_eq_toNat_cond]
  change (if 2 * count.toNat < 2 ^ 8 then _ else _) = _
  split
  · next small =>
      have few : count.toNat < 128 := by omega
      rw [if_pos (UInt8.lt_iff_toNat_lt.mpr few)]
      rfl
  · next large =>
      rw [if_neg]
      · rfl
      · intro small
        have few : count.toNat < 128 := UInt8.lt_iff_toNat_lt.mp small
        omega

theorem threshold_of_small {count : UInt8} (small : count < 128) :
    threshold count = 2 + count.toNat := by
  have few : count.toNat < 128 := UInt8.lt_iff_toNat_lt.mp small
  unfold threshold toSize
  rw [char_eq, if_pos small]
  omega

/-- A small number is read as it is. -/
theorem char_of_small {count : UInt8} (small : count < 128) :
    (char count).toNat = count.toNat := by
  rw [char_eq, if_pos small]
  rfl

/-- A large number is read as a negative one. -/
theorem char_of_large {count : UInt8} (large : ¬ count < 128) :
    (char count).toNat = 0 := by
  have bound := count.toNat_lt
  rw [char_eq, if_neg large]
  omega

end Counting

section Sessions

variable {resolve : Bytes → UInt16 → Resolution} {client : Fd}
  {s now : Session} {received piece : Bytes}

/-- A connection that waits for the rest of a greeting. -/
structure Waits (client : Fd) (s : Session) (received : Bytes) (now : Session) :
    Prop where
  trace : now.trace = s.trace
  status : now.status = s.status
  own : now.own = s.own
  appended : ∀ piece, now.bufferable.appendBuf client piece =
    (received ++ piece, s.bufferable)

theorem Waits.start (fresh : s.bufferable[client]? = none) :
    Waits client s [] s := by
  refine ⟨rfl, rfl, rfl, ?_⟩
  intro piece
  unfold Bufferable.appendBuf
  rw [fresh]
  rfl

theorem erase_insert (fresh : s.bufferable[client]? = none) (bytes : Bytes) :
    (s.bufferable.insert client bytes).erase client = s.bufferable := by
  ext1 fd
  by_cases same : client = fd
  · subst same
    simp [fresh]
  · simp [Std.ExtTreeMap.getElem?_erase, Std.ExtTreeMap.getElem?_insert, same]

theorem Waits.kept (fresh : s.bufferable[client]? = none) (received : Bytes) :
    Waits client s received (kept client received s) := by
  refine ⟨rfl, rfl, rfl, ?_⟩
  intro piece
  have present : (Socks.kept client received s).bufferable[client]? =
      some received := by
    simp [Socks.kept, keeping]
  unfold Bufferable.appendBuf
  rw [present]
  exact congrArg _ (erase_insert fresh received)

/-- A delivery to a client in this state. -/
theorem deliver_eq (isOpen : s.status = .opened) {state : SocksState}
    (isState : s.own.stateful.getState client = state)
    (waits : Waits client s received now) (piece : Bytes) :
    deliver resolve client now piece = settled ((match state with
      | .greeting => greet (sessionHost client) client (received ++ piece)
      | .request =>
          request (sessionHost client) (reach resolve client)
            (onMessageAt (sessionHost client) (reach resolve client) 1) client
            (received ++ piece)
      | .connecting => Socks.close (sessionHost client) client
      | .connected => do
          let remote ← (sessionHost client).own (Relays.remoteOf client)
          sendPeer (sessionHost client) remote (received ++ piece) :
        M Effect Relays Unit) s) := by
  have appended : (sessionHost client).appendBuf client piece now =
      .ok (received ++ piece) s := by
    change EStateM.Result.ok (now.bufferable.appendBuf client piece).1
      (now.keeping (now.bufferable.appendBuf client piece).2) = _
    rw [waits.appended]
    cases s
    cases now
    cases waits.trace
    cases waits.status
    cases waits.own
    rfl
  have stateRead : (states (sessionHost client)).getState client s =
      .ok state s := by
    change EStateM.Result.ok (s.own.stateful.getState client) s = _
    rw [isState]
  unfold deliver Connection.deliver onMessage onMessageAt
  rw [if_pos (waits.status.trans isOpen), Stepwise.bind_of_ok appended,
    Stepwise.bind_of_ok stateRead]
  cases state <;> rfl

theorem needBuf_eq (message : Bytes) (cond : Bool) (s : Session) :
    (sessionHost client).needBuf client message cond s =
      .ok cond (if cond then kept client message s else s) := by
  cases cond <;> rfl

theorem close_eq (fresh : s.bufferable[client]? = none) :
    Socks.close (sessionHost client) client s = .ok () (refused client s) := by
  have erased : s.bufferable.erase client = s.bufferable := by
    ext1 fd
    by_cases same : client = fd
    · subst same
      simp [fresh]
    · simp [Std.ExtTreeMap.getElem?_erase, same]
  have closed : (sessionHost client).close client s =
      .ok true { refused client s with
        bufferable := s.bufferable.erase client } := by
    simp only [sessionHost, serverHost, host, Stepwise.modifyGet_eq, if_pos]
    rfl
  unfold Socks.close
  rw [Stepwise.bind_of_ok closed, erased]
  rfl

/-- What `on_message` makes of the bytes of a greeting. -/
theorem settled_greet (fresh : s.bufferable[client]? = none) (message : Bytes)
    (version : 2 ≤ message.length → byteAt message 0 = 5) :
    settled (greet (sessionHost client) client message s) =
      if message.length < 2 ∨
          message.length < threshold (byteAt message 1) then
        kept client message s
      else if ((message.drop 2).take
          (char (byteAt message 1)).toNat).contains 0 then
        answered client s
      else refused client s := by
  unfold greet
  rw [Stepwise.bind_of_ok (needBuf_eq message _ s)]
  by_cases short : message.length < 2
  · simp only [short, decide_true, if_true, true_or]
    rfl
  · have isVersion := version (Nat.le_of_not_lt short)
    simp only [short, decide_false, Bool.false_eq_true, if_false, isVersion,
      ne_eq, not_true_eq_false, false_or]
    rw [Stepwise.bind_of_ok (needBuf_eq message _ s)]
    by_cases part : message.length < threshold (byteAt message 1)
    · have early : message.length <
          toSize (2 + char (byteAt message 1)) := part
      simp only [early, part, decide_true, if_true]
      rfl
    · have late : ¬ message.length <
          toSize (2 + char (byteAt message 1)) := part
      simp only [late, part, decide_false, Bool.false_eq_true, if_false]
      split
      · rfl
      · rw [close_eq fresh]
        rfl

end Sessions

section Growing

variable (resolve : Bytes → UInt16 → Resolution) (client : Fd)

theorem close_growing (peer : Fd) :
    Growing (Socks.close (sessionHost client) peer) :=
  .bind (.close _ client peer) fun _ => .pure ()

theorem sendPeer_growing (peer : Fd) (message : Bytes) :
    Growing (sendPeer (sessionHost client) peer message) :=
  .bind (.write _ client peer message) fun _ => .pure ()

theorem setState_growing (peer : Fd) (state : SocksState) :
    Growing ((states (sessionHost client)).setState peer state) :=
  fun s => ⟨[], (List.append_nil s.trace).symm⟩

theorem getState_growing (peer : Fd) :
    Growing ((states (sessionHost client)).getState peer) :=
  fun s => ⟨[], (List.append_nil s.trace).symm⟩

theorem modifyOwn_growing (change : Relays → Relays) :
    Growing ((sessionHost client).modifyOwn change) :=
  fun s => ⟨[], (List.append_nil s.trace).symm⟩

theorem onRemoteConnect_growing (port : UInt16) (r : ConnectResult) (peer : Fd) :
    Growing (onRemoteConnect (sessionHost client) port r peer) := by
  apply Growing.bind (.own _ client _)
  intro address
  split
  · exact .bind (setState_growing client peer .connected)
      fun _ => sendPeer_growing client peer _
  · exact close_growing client peer

theorem resolved_growing (address : Bytes) (port : UInt16) (peer : Fd) :
    Growing (resolved resolve client address port peer) := by
  unfold resolved
  dsimp only
  split
  · exact .throw
  · split
    · exact .bind (onRemoteConnect_growing client port .ng peer)
        fun _ => .pure _
    · exact .bind (onRemoteConnect_growing client port .ok peer)
        fun _ => .pure _
    · exact .pure _

theorem reach_growing (address : Bytes) (port : UInt16) (peer : Fd) :
    Growing (reach resolve client address port peer) := by
  apply Growing.bind (.modify fun s => ⟨_, rfl⟩)
  exact fun _ => resolved_growing resolve client address port peer

theorem greet_growing (peer : Fd) (message : Bytes) :
    Growing (greet (sessionHost client) peer message) := by
  unfold greet
  apply Growing.bind (.needBuf _ client peer message _)
  intro short
  split
  · exact .pure ()
  · split
    · exact close_growing client peer
    · apply Growing.bind (.needBuf _ client peer message _)
      intro short
      split
      · exact .pure ()
      · split
        · exact .bind (sendPeer_growing client peer _)
            fun _ => setState_growing client peer _
        · exact close_growing client peer

variable {again : Fd → Bytes → M Effect Relays Unit}
  (goesOn : ∀ peer rest, Growing (again peer rest))

include goesOn

/-- What follows the call of `connect`. -/
theorem asked_growing (remote peer : Fd) (message : Bytes) :
    Growing (if remote = -1 then Socks.close (sessionHost client) peer
      else do
        (sessionHost client).modifyOwn (Relays.pair peer remote
          ((message.drop 5).take (toSize (char (byteAt message 4)))))
        (states (sessionHost client)).setState peer .connecting
        if nameLength message < message.length then
          again peer (message.drop (nameLength message))
        else return ()) := by
  split
  · exact close_growing client peer
  · apply Growing.bind (modifyOwn_growing client _)
    intro
    apply Growing.bind (setState_growing client peer .connecting)
    intro
    split
    · exact goesOn peer _
    · exact .pure ()

theorem request_growing (peer : Fd) (message : Bytes) :
    Growing (request (sessionHost client) (reach resolve client) again peer
      message) := by
  unfold request
  apply Growing.bind (.needBuf _ client peer message _)
  intro short
  dsimp only
  split
  · exact .pure ()
  · split
    · exact close_growing client peer
    · split
      · apply Growing.bind (.needBuf _ client peer message _)
        intro short
        split
        · exact .pure ()
        · exact close_growing client peer
      · split
        · apply Growing.bind (.needBuf _ client peer message _)
          intro short
          split
          · exact .pure ()
          · split
            · exact .throw
            · exact .bind (reach_growing resolve client _ _ peer) fun remote =>
                asked_growing client goesOn remote peer message
        · exact close_growing client peer

omit goesOn

theorem onMessageAt_growing (depth : Nat) (peer : Fd) (message : Bytes) :
    Growing (onMessageAt (sessionHost client) (reach resolve client) depth peer
      message) := by
  induction depth generalizing peer message with
  | zero => exact .throw
  | succ depth induction =>
      unfold onMessageAt
      apply Growing.bind (.appendBuf _ client peer message)
      intro message
      apply Growing.bind (getState_growing client peer)
      intro state
      cases state with
      | greeting => exact greet_growing client peer message
      | request => exact request_growing resolve client induction peer message
      | connecting => exact close_growing client peer
      | connected =>
          exact .bind (.own _ client _) fun remote =>
            sendPeer_growing client remote message

variable {resolve client}

theorem deliver_grows (s : Session) (piece : Bytes) :
    Connection.Grows s (deliver resolve client s piece) := by
  unfold deliver Connection.deliver
  split
  · obtain ⟨more, grown⟩ := onMessageAt_growing resolve client 2 client piece s
    exact ⟨more, (settled_trace _).trans grown⟩
  · exact .refl s

end Growing

section Differing

variable {resolve : Bytes → UInt16 → Resolution} {client : Fd} {s : Session}

theorem differs_of_seen {after : Session} {effect : Effect}
    (grows : Connection.Grows (s.record effect) after) : after ≠ s := by
  rintro rfl
  obtain ⟨more, grown⟩ := grows
  simp [record] at grown

theorem differs_of_kept (fresh : s.bufferable[client]? = none)
    (message : Bytes) : kept client message s ≠ s := by
  intro same
  have present : (kept client message s).bufferable[client]? = some message := by
    simp [kept, keeping]
  rw [same, fresh] at present
  cases present

theorem differs_of_refused : refused client s ≠ s :=
  differs_of_seen ⟨[], (List.append_nil _).symm⟩

theorem needBuf_or_differs (fresh : s.bufferable[client]? = none)
    (message : Bytes) {cond : Bool} {rest : M Effect Relays Unit}
    (goes : settled (rest s) ≠ s) :
    settled ((do
      let short ← (sessionHost client).needBuf client message cond
      if short then return () else rest : M Effect Relays Unit) s) ≠ s := by
  rw [Stepwise.bind_of_ok (needBuf_eq message cond s)]
  cases cond with
  | true => exact differs_of_kept fresh message
  | false => exact goes

/-- Whatever `connect` comes to, it is seen. -/
theorem ask_grows {again : Fd → Bytes → M Effect Relays Unit}
    (goesOn : ∀ peer rest, Growing (again peer rest)) (message : Bytes) :
    Connection.Grows (s.record (.asked
        ((message.drop 5).take (toSize (char (byteAt message 4))))
        (portAt message (nameLength message - 2))))
      (settled (ask (sessionHost client) (reach resolve client) again client
        message s)) := by
  have follows := Growing.bind (resolved_growing resolve client
      ((message.drop 5).take (toSize (char (byteAt message 4))))
      (portAt message (nameLength message - 2)) client)
    fun remote => asked_growing client goesOn remote client message
  obtain ⟨more, grown⟩ := follows (s.record (.asked
    ((message.drop 5).take (toSize (char (byteAt message 4))))
    (portAt message (nameLength message - 2))))
  exact ⟨more, (settled_trace _).trans grown⟩

/-- Whatever a request comes to, it leaves something. -/
theorem request_differs (isOpen : s.status = .opened)
    (fresh : s.bufferable[client]? = none)
    {again : Fd → Bytes → M Effect Relays Unit}
    (goesOn : ∀ peer rest, Growing (again peer rest)) (message : Bytes) :
    settled (request (sessionHost client) (reach resolve client) again client
      message s) ≠ s := by
  have closes : settled (Socks.close (sessionHost client) client s) ≠ s := by
    rw [close_eq fresh]
    exact differs_of_refused
  unfold request
  apply needBuf_or_differs fresh
  dsimp only
  split
  · exact closes
  · split
    · exact needBuf_or_differs fresh message closes
    · split
      · apply needBuf_or_differs fresh message
        split
        · intro same
          have crashed : Status.crashed = s.status := congrArg (·.status) same
          rw [isOpen] at crashed
          cases crashed
        · exact differs_of_seen (ask_grows goesOn message)
      · exact closes

theorem answered_differs (isOpen : s.status = .opened)
    (fresh : s.bufferable[client]? = none) (piece : Bytes) :
    deliver resolve client (answered client s) piece ≠ answered client s := by
  have requests : (answered client s).own.stateful.getState client =
      .request := by
    simp [answered, Stateful.getState]
  have stillOpen : (answered client s).status = .opened := isOpen
  have stillFresh : (answered client s).bufferable[client]? = none := fresh
  rw [deliver_eq stillOpen requests (.start stillFresh) piece]
  exact request_differs stillOpen stillFresh
    (onMessageAt_growing resolve client 1) _

end Differing

section Pieces

variable {resolve : Bytes → UInt16 → Resolution} {client : Fd}
  {count : UInt8} {methods : Bytes} {s now : Session} {received : Bytes}

theorem byteAt_of_prefix {count : UInt8} {rest tail message : Bytes}
    (stream : message ++ tail = 5 :: count :: rest) (long : 2 ≤ message.length) :
    byteAt message 0 = 5 ∧ byteAt message 1 = count := by
  match message, long with
  | first :: second :: more, _ =>
      simp only [List.cons_append, List.cons.injEq] at stream
      exact ⟨stream.1, stream.2.1⟩

/-- The methods have arrived. -/
theorem methods_of_prefix {count : UInt8} {rest tail message : Bytes}
    (stream : message ++ tail = 5 :: count :: (methods ++ rest))
    (counted : methods.length = count.toNat)
    (whole : 2 + count.toNat ≤ message.length) :
    (message.drop 2).take count.toNat = methods := by
  have taken : (message ++ tail).drop 2 = methods ++ rest := by
    rw [stream]
    rfl
  rw [List.drop_append_of_le_length (by omega)] at taken
  have same := congrArg (List.take count.toNat) taken
  rw [List.take_append_of_le_length (by simp; omega), ← counted,
    List.take_left'] at same
  · rw [← counted]
    exact same
  · rfl

theorem foldl_refused (pieces : List Bytes) :
    pieces.foldl (deliver resolve client) (refused client s) =
      refused client s := by
  induction pieces with
  | nil => rfl
  | cons piece pieces induction => exact induction

/-- A delivery that continues a greeting. -/
theorem deliver_greeting (isOpen : s.status = .opened)
    (greeting : s.own.stateful.getState client = .greeting)
    (fresh : s.bufferable[client]? = none)
    (waits : Waits client s received now) {piece rest tail : Bytes}
    (stream : received ++ piece ++ tail = 5 :: count :: rest) :
    deliver resolve client now piece =
      if 2 ≤ (received ++ piece).length ∧
          threshold count ≤ (received ++ piece).length then
        if (((received ++ piece).drop 2).take (char count).toNat).contains 0 then
          answered client s
        else refused client s
      else kept client (received ++ piece) s := by
  have bytes := byteAt_of_prefix stream
  rw [deliver_eq isOpen greeting waits piece,
    settled_greet fresh _ fun long => (bytes long).1]
  by_cases long : 2 ≤ (received ++ piece).length
  · rw [(bytes long).2]
    by_cases whole : threshold count ≤ (received ++ piece).length
    · have both : 2 ≤ (received ++ piece).length ∧
          threshold count ≤ (received ++ piece).length := ⟨long, whole⟩
      have neither : ¬ ((received ++ piece).length < 2 ∨
          (received ++ piece).length < threshold count) := by omega
      rw [if_neg neither, if_pos both]
    · rw [if_pos (.inr (Nat.lt_of_not_le whole)), if_neg (whole ·.2)]
  · rw [if_pos (.inl (Nat.lt_of_not_le long)), if_neg (long ·.1)]

theorem arrived_zero (before : Bytes) (pieces : List Bytes) :
    arrived before pieces 0 = before.length := by
  simp [arrived]

theorem arrived_succ (before piece : Bytes) (pieces : List Bytes)
    (deliveries : Nat) : arrived before (piece :: pieces) (deliveries + 1) =
      arrived (before ++ piece) pieces deliveries := by
  simp [arrived]

theorem le_arrived (before : Bytes) (pieces : List Bytes) (deliveries : Nat) :
    before.length ≤ arrived before pieces deliveries := by
  simp [arrived]

/-- The connection after every delivery is what it should be. -/
def Understands (resolve : Bytes → UInt16 → Resolution) (client : Fd)
    (count : UInt8) (methods : Bytes) (s now : Session) (received : Bytes)
    (pieces : List Bytes) : Prop :=
  ∀ deliveries, (pieces.take deliveries).foldl (deliver resolve client) now =
    understood resolve client count methods s now received
      (pieces.take deliveries)

theorem foldl_grows (s : Session) (pieces : List Bytes) :
    Connection.Grows s (pieces.foldl (deliver resolve client) s) := by
  induction pieces generalizing s with
  | nil => exact .refl s
  | cons piece pieces induction =>
      exact (deliver_grows s piece).trans (induction _)

theorem refused_ne_kept (isOpen : s.status = .opened) {bytes : Bytes} :
    refused client s ≠ kept client bytes s := by
  intro same
  have closed : Status.closed = s.status := congrArg (·.status) same
  rw [isOpen] at closed
  cases closed

/-- Nothing is to be shown before the first delivery. -/
theorem understands_cons {piece : Bytes} {pieces : List Bytes} :
    Understands resolve client count methods s now received (piece :: pieces) ↔
      ∀ deliveries, (pieces.take deliveries).foldl (deliver resolve client)
          (deliver resolve client now piece) =
        understood resolve client count methods s now received
          (piece :: pieces.take deliveries) := by
  refine ⟨fun understands deliveries => understands (deliveries + 1), ?_⟩
  intro understands deliveries
  cases deliveries with
  | zero => rfl
  | succ deliveries => exact understands deliveries

/-- Up to 127 methods. -/
theorem understands_small (small : count < 128) (isOpen : s.status = .opened)
    (greeting : s.own.stateful.getState client = .greeting)
    (fresh : s.bufferable[client]? = none)
    (counted : methods.length = count.toNat) {pieces : List Bytes}
    {rest : Bytes} (waits : Waits client s received now)
    (early : received.length < 2 + count.toNat)
    (stream : received ++ pieces.flatten = 5 :: count :: (methods ++ rest)) :
    Understands resolve client count methods s now received pieces ↔
      0 ∉ methods ∨ ∃ deliveries,
        arrived received pieces deliveries = 2 + count.toNat := by
  induction pieces generalizing now received with
  | nil =>
      have length := congrArg List.length stream
      simp at length
      omega
  | cons piece pieces induction =>
      rw [List.flatten_cons, ← List.append_assoc] at stream
      have delivered : deliver resolve client now piece = _ :=
        deliver_greeting isOpen greeting fresh waits stream
      rw [threshold_of_small small, char_of_small small] at delivered
      rw [understands_cons, delivered]
      have shifted : (∃ deliveries, arrived received (piece :: pieces)
          deliveries = 2 + count.toNat) ↔ ∃ deliveries,
            arrived (received ++ piece) pieces deliveries =
              2 + count.toNat := by
        constructor
        · rintro ⟨deliveries, ends⟩
          cases deliveries with
          | zero =>
              rw [arrived_zero] at ends
              omega
          | succ deliveries =>
              rw [arrived_succ] at ends
              exact ⟨deliveries, ends⟩
        · rintro ⟨deliveries, ends⟩
          exact ⟨deliveries + 1, (arrived_succ ..).trans ends⟩
      rw [shifted]
      by_cases part : (received ++ piece).length < 2 + count.toNat
      · have waiting : ¬ (2 ≤ (received ++ piece).length ∧
            2 + count.toNat ≤ (received ++ piece).length) := by omega
        simp only [understood, if_pos part, if_neg waiting]
        exact induction (.kept fresh _) part stream
      · have whole : 2 ≤ (received ++ piece).length ∧
            2 + count.toNat ≤ (received ++ piece).length := by omega
        have readMethods := methods_of_prefix stream counted whole.2
        simp only [understood, if_neg part, if_pos whole, readMethods]
        by_cases zero : methods.contains 0
        · have isMember : 0 ∈ methods := by simpa using zero
          simp only [if_pos zero]
          by_cases ends : (received ++ piece).length = 2 + count.toNat
          · have nothing : (received ++ piece).drop (2 + count.toNat) = [] := by
              rw [← ends]
              exact List.drop_length
            simp only [nothing, if_true, List.nil_append]
            exact ⟨fun _ => .inr ⟨0, (arrived_zero ..).trans ends⟩,
              fun _ _ => trivial⟩
          · have something :
                (received ++ piece).drop (2 + count.toNat) ≠ [] := by
              rw [Ne, List.drop_eq_nil_iff]
              omega
            simp only [if_neg something]
            refine ⟨?_, ?_⟩
            · intro understands
              exact absurd (understands 0).symm (answered_differs isOpen fresh _)
            · rintro (never | ⟨deliveries, later⟩)
              · exact absurd isMember never
              · have atLeast := le_arrived (received ++ piece) pieces deliveries
                omega
        · have noMember : 0 ∉ methods := by simpa using zero
          simp only [if_neg zero, foldl_refused]
          exact ⟨fun _ => .inl noMember, fun _ _ => trivial⟩

/-- From 128 methods on. -/
theorem understands_large (large : ¬ count < 128) (isOpen : s.status = .opened)
    (greeting : s.own.stateful.getState client = .greeting)
    (fresh : s.bufferable[client]? = none)
    (counted : methods.length = count.toNat) {pieces : List Bytes}
    {rest : Bytes} (waits : Waits client s received now)
    (early : received.length < 2 + count.toNat)
    (unread : ¬ (2 ≤ received.length ∧ threshold count ≤ received.length))
    (stream : received ++ pieces.flatten = 5 :: count :: (methods ++ rest)) :
    Understands resolve client count methods s now received pieces ↔
      0 ∉ methods ∧ ∀ deliveries,
        2 + count.toNat ≤ arrived received pieces deliveries ↔
          2 ≤ arrived received pieces deliveries ∧
            threshold count ≤ arrived received pieces deliveries := by
  induction pieces generalizing now received with
  | nil =>
      have length := congrArg List.length stream
      simp at length
      omega
  | cons piece pieces induction =>
      rw [List.flatten_cons, ← List.append_assoc] at stream
      have delivered : deliver resolve client now piece = _ :=
        deliver_greeting isOpen greeting fresh waits stream
      rw [char_of_large large, List.take_zero, List.contains_nil,
        if_neg Bool.false_ne_true] at delivered
      rw [understands_cons, delivered]
      have shifted : (∀ deliveries,
          2 + count.toNat ≤ arrived received (piece :: pieces) deliveries ↔
            2 ≤ arrived received (piece :: pieces) deliveries ∧
              threshold count ≤ arrived received (piece :: pieces) deliveries) ↔
          ∀ deliveries,
            2 + count.toNat ≤ arrived (received ++ piece) pieces deliveries ↔
              2 ≤ arrived (received ++ piece) pieces deliveries ∧
                threshold count ≤
                  arrived (received ++ piece) pieces deliveries := by
        constructor
        · intro reads deliveries
          simpa only [arrived_succ] using reads (deliveries + 1)
        · intro reads deliveries
          cases deliveries with
          | zero =>
              rw [arrived_zero]
              exact iff_of_false (by omega) unread
          | succ deliveries => simpa only [arrived_succ] using reads deliveries
      rw [shifted]
      by_cases part : (received ++ piece).length < 2 + count.toNat
      · by_cases late : 2 ≤ (received ++ piece).length ∧
            threshold count ≤ (received ++ piece).length
        · simp only [understood, if_pos part, if_pos late]
          apply iff_of_false
          · intro understands
            exact refused_ne_kept isOpen (understands 0)
          · rintro ⟨-, reads⟩
            have never := (reads 0).mpr (by rwa [arrived_zero])
            rw [arrived_zero] at never
            omega
        · simp only [understood, if_pos part, if_neg late]
          exact induction (.kept fresh _) part late stream
      · simp only [understood, if_neg part]
        by_cases late : 2 ≤ (received ++ piece).length ∧
            threshold count ≤ (received ++ piece).length
        · simp only [if_pos late, foldl_refused]
          by_cases zero : methods.contains 0
          · have isMember : 0 ∈ methods := by simpa using zero
            simp only [if_pos zero]
            apply iff_of_false
            · intro understands
              obtain ⟨more, grown⟩ := understands 0 ▸
                foldl_grows (answered client s) _
              simp [refused, answered, record] at grown
            · exact fun reads => reads.1 isMember
          · have noMember : 0 ∉ methods := by simpa using zero
            simp only [if_neg zero]
            apply iff_of_true
            · exact fun _ => trivial
            · refine ⟨noMember, ?_⟩
              intro deliveries
              have atLeast := le_arrived (received ++ piece) pieces deliveries
              exact iff_of_true (by omega) (by omega)
        · simp only [if_neg late]
          apply iff_of_false
          · intro understands
            have same := understands 0
            split at same
            · obtain ⟨more, grown⟩ := same ▸ foldl_grows (answered client s) _
              simp [kept, keeping, answered, record] at grown
            · exact refused_ne_kept isOpen same.symm
          · rintro ⟨-, reads⟩
            have never := (reads 0).mp (by rw [arrived_zero]; omega)
            rw [arrived_zero] at never
            exact late never

/-- However a greeting and what follows it are cut, the connection is what it
should be after every delivery, exactly if the methods are read as a whole and,
when the greeting is answered, nothing arrives together with its end. -/
theorem greeting_is_understood_iff (resolve : Bytes → UInt16 → Resolution)
    (isOpen : s.status = .opened)
    (greeting : s.own.stateful.getState client = .greeting)
    (fresh : s.bufferable[client]? = none)
    (counted : methods.length = count.toNat) {pieces : List Bytes} {rest : Bytes}
    (stream : pieces.flatten = 5 :: count :: (methods ++ rest)) :
    Understands resolve client count methods s s [] pieces ↔
      Readable count methods [] pieces := by
  have early : ([] : Bytes).length < 2 + count.toNat := by
    rw [List.length_nil]
    omega
  unfold Readable
  split
  · next small =>
      exact understands_small small isOpen greeting fresh counted (.start fresh)
        early stream
  · next large =>
      exact understands_large large isOpen greeting fresh counted (.start fresh)
        early (by simp) stream

end Pieces

section Samples

/-- A client that was accepted. -/
def sampleSession : Session where
  trace := []
  status := .opened
  own := { stateful := (∅ : Stateful SocksState).setState 5 .greeting }
  bufferable := ∅

/-- A name with one address, which is being connected to. -/
def sampleResolve (_ : Bytes) (_ : UInt16) : Resolution where
  addresses := 1
  socket := 6
  status := fun _ => .inProgress

/-- The request arrives in a delivery of its own. -/
theorem greeting_is_understood_iff_sample :
    Understands sampleResolve 5 1 [0] sampleSession sampleSession []
      [[5], [1, 0], [5, 1, 0, 3, 1, 97, 0, 80]] := by
  apply (greeting_is_understood_iff sampleResolve rfl (by decide +kernel)
    (by decide +kernel) rfl rfl).mpr
  exact .inr ⟨2, rfl⟩

/-- The request arrives together with the greeting and is dropped, and 200
methods are waited for without end. -/
theorem greeting_is_misread :
    ¬ Understands sampleResolve 5 1 [0] sampleSession sampleSession []
      [[5, 1, 0, 5, 1, 0, 3, 1, 97, 0, 80]] ∧
    ¬ Understands sampleResolve 5 200 (List.replicate 200 0) sampleSession
      sampleSession [] [5 :: 200 :: List.replicate 200 0] := by
  refine ⟨?_, ?_⟩
  · intro understands
    have same := congrArg (·.trace) (understands 1)
    exact absurd same (by decide +kernel)
  · intro understands
    have same := congrArg (·.trace) (understands 1)
    exact absurd same (by decide +kernel)

end Samples

end Socks

end Universe
