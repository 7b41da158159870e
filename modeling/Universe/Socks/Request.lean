import Mathlib.Data.List.GetD
import Universe.Socks.Greeting

/-!
# Requests in pieces

A request names a host and a port, and the answer repeats them.  The length of
the name is read as a signed number, and the port is answered as the host keeps
it.
-/

namespace Universe

open Protocol Protocol.Connection

namespace Socks

/-- A request for the host with this name. -/
def requestText (name : Bytes) (high low : UInt8) : Bytes :=
  [5, 1, 0, 3, name.length.toUInt8] ++ name ++ [high, low]

/-- The port of two bytes in network order. -/
def portOf (high low : UInt8) : UInt16 :=
  (high.toUInt16 <<< 8) ||| low.toUInt16

/-- The answer that repeats the name and the port. -/
def replyText (name : Bytes) (high low : UInt8) : Bytes :=
  [5, 0, 0, 3, name.length.toUInt8] ++ name ++ [high, low]

/-- The outcome is known only after `connect` has returned. -/
def Later (resolution : Resolution) : Prop :=
  resolution.addresses ≠ 0 ∧
    settles resolution.status resolution.addresses = .inProgress ∧
    resolution.socket ≠ -1

/-- The callback of `connect`, when the connection was made. -/
def succeeded (client : Fd) (port : UInt16) (s : Session) : Session :=
  settled (onRemoteConnect (sessionHost client) port .ok client s)

/-- A request that arrives in these pieces waits for its end, `connect` is
called once with its name and its port, and a later success is answered. -/
structure Serves (resolve : Bytes → UInt16 → Resolution) (client : Fd)
    (name : Bytes) (high low : UInt8) (s : Session) (pieces : List Bytes)
    (last : Bytes) : Prop where
  waits : ∀ deliveries, 0 < deliveries → deliveries ≤ pieces.length →
    (pieces.take deliveries).foldl (deliver resolve client) s =
      kept client (pieces.take deliveries).flatten s
  asks : ∃ more, ((pieces ++ [last]).foldl (deliver resolve client) s).trace =
      s.trace ++ .asked name (portOf high low) :: more ∧
    ∀ address port, .asked address port ∉ more
  replies : Later (resolve name (portOf high low)) →
    (succeeded client (portOf high low)
      ((pieces ++ [last]).foldl (deliver resolve client) s)).trace =
        s.trace ++ [.asked name (portOf high low),
          .wrote client (replyText name high low)]

section Reading

theorem char_small {name : Bytes} (short : name.length ≤ 127) :
    char name.length.toUInt8 = name.length := by
  have value : name.length.toUInt8.toNat = name.length := by
    rw [UInt8.toNat_ofNat']
    exact Nat.mod_eq_of_lt (by omega)
  rw [char_eq, if_pos (UInt8.lt_iff_toNat_lt.mpr (by
    rw [value]
    exact Nat.lt_succ_of_le short)), value]

theorem char_large {name : Bytes} (long : 127 < name.length)
    (fits : name.length ≤ 255) :
    char name.length.toUInt8 = (name.length : Int) - 256 := by
  have value : name.length.toUInt8.toNat = name.length := by
    rw [UInt8.toNat_ofNat']
    exact Nat.mod_eq_of_lt (by omega)
  rw [char_eq, if_neg, value]
  intro small
  have few := UInt8.lt_iff_toNat_lt.mp small
  rw [value] at few
  exact absurd few (Nat.not_lt.mpr long)

/-- The first five bytes of what has arrived. -/
theorem byteAt_of_request {name message tail : Bytes} {high low : UInt8}
    (stream : message ++ tail = requestText name high low)
    (some : 5 ≤ message.length) :
    byteAt message 1 = 1 ∧ byteAt message 3 = 3 ∧
      byteAt message 4 = name.length.toUInt8 := by
  match message, some with
  | first :: second :: third :: fourth :: fifth :: others, _ =>
      unfold requestText at stream
      simp only [List.cons_append, List.nil_append, List.cons.injEq] at stream
      obtain ⟨-, isSecond, -, isFourth, isFifth, -⟩ := stream
      exact ⟨isSecond, isFourth, isFifth⟩

theorem length_requestText (name : Bytes) (high low : UInt8) :
    (requestText name high low).length = 7 + name.length := by
  unfold requestText
  rw [List.length_append, List.length_append]
  simp only [List.length_cons, List.length_nil]
  omega

theorem requestText_parts (name : Bytes) (high low : UInt8) :
    (requestText name high low).drop 5 = name ++ [high, low] ∧
      portAt (requestText name high low) (7 + name.length - 2) =
        portOf high low := by
  have behind : ∀ index, byteAt (requestText name high low)
      (name.length + index + 5) = [high, low].getD index 0 := by
    intro index
    change ([5, 1, 0, 3, name.length.toUInt8] ++ name ++ [high, low]).getD _ 0 =
      _
    rw [List.append_assoc]
    change (name ++ [high, low]).getD (name.length + index) 0 = _
    rw [List.getD_append_right _ _ _ _ (Nat.le_add_right _ _),
      Nat.add_sub_cancel_left]
  refine ⟨rfl, ?_⟩
  have start : 7 + name.length - 2 = name.length + 0 + 5 := by omega
  have next : name.length + 0 + 5 + 1 = name.length + 1 + 5 := by omega
  unfold portAt
  rw [start, next, behind 0, behind 1]
  rfl

theorem nameLength_small {name message tail : Bytes} {high low : UInt8}
    (stream : message ++ tail = requestText name high low)
    (some : 5 ≤ message.length) (short : name.length ≤ 127) :
    nameLength message = 7 + name.length := by
  obtain ⟨-, -, isLength⟩ := byteAt_of_request stream some
  unfold nameLength toSize
  rw [isLength, char_small short]
  omega

/-- A name of 128 bytes or more has a length that is no length, or one that is
too short. -/
theorem nameLength_large {name message tail : Bytes} {high low : UInt8}
    (stream : message ++ tail = requestText name high low)
    (some : 5 ≤ message.length) (long : 127 < name.length)
    (fits : name.length ≤ 255) :
    nameLength message =
      if name.length < 249 then 2 ^ 64 + name.length - 249
      else name.length - 249 := by
  obtain ⟨-, -, isLength⟩ := byteAt_of_request stream some
  unfold nameLength toSize
  rw [isLength, char_large long fits]
  split <;> omega

theorem toNat_portOf (high low : UInt8) :
    (portOf high low).toNat = high.toNat * 256 + low.toNat := by
  have highByte := high.toNat_lt
  have lowByte := low.toNat_lt
  have placed : (high.toUInt16 <<< 8).toNat = high.toNat <<< 8 := by
    rw [UInt16.toNat_shiftLeft]
    change high.toNat <<< 8 % 2 ^ 16 = _
    rw [Nat.shiftLeft_eq]
    exact Nat.mod_eq_of_lt (by omega)
  unfold portOf
  rw [UInt16.toNat_or, placed, UInt8.toNat_toUInt16,
    ← Nat.shiftLeft_add_eq_or_of_lt (by simpa using lowByte),
    Nat.shiftLeft_eq]

/-- The answer has the bytes of the port in the order of the host. -/
theorem response_eq (name : Bytes) (high low : UInt8) :
    response name (portOf high low) = replyText name low high := by
  have highByte := high.toNat_lt
  have lowByte := low.toNat_lt
  have first : (portOf high low).toUInt8 = low := by
    rw [← UInt8.toNat_inj, UInt16.toNat_toUInt8, toNat_portOf]
    omega
  have second : ((portOf high low) >>> 8).toUInt8 = high := by
    rw [← UInt8.toNat_inj, UInt16.toNat_toUInt8, UInt16.toNat_shiftRight,
      toNat_portOf]
    change ((high.toNat * 256 + low.toNat) >>> 8) % 2 ^ 8 = high.toNat
    rw [Nat.shiftRight_eq_div_pow]
    omega
  unfold response replyText
  rw [first, second]
  simp only [List.cons_append, List.nil_append]

end Reading

section Silence

/-- A computation that does not call `connect`. -/
def Silent {α : Type} (computation : M Effect Relays α) : Prop :=
  ∀ s, ∃ more, (Stepwise.final (computation s)).trace = s.trace ++ more ∧
    ∀ address port, .asked address port ∉ more

theorem Silent.unseen {α : Type} {computation : M Effect Relays α}
    (same : ∀ s, (Stepwise.final (computation s)).trace = s.trace) :
    Silent computation := by
  intro s
  refine ⟨[], ?_, ?_⟩
  · rw [same s, List.append_nil]
  · intro address port
    exact List.not_mem_nil

theorem Silent.bind {α β : Type} {first : M Effect Relays α}
    {rest : α → M Effect Relays β} (early : Silent first)
    (late : ∀ value, Silent (rest value)) : Silent (first >>= rest) := by
  intro s
  obtain ⟨more, seen, quiet⟩ := early s
  cases outcome : first s with
  | ok value between =>
      rw [outcome] at seen
      obtain ⟨others, later, stillQuiet⟩ := late value between
      refine ⟨more ++ others, ?_, ?_⟩
      · rw [Stepwise.bind_of_ok outcome, later, ← List.append_assoc]
        exact congrArg (· ++ others) seen
      · intro address port member
        rcases List.mem_append.mp member with before | behind
        · exact quiet address port before
        · exact stillQuiet address port behind
  | error stop between =>
      rw [outcome] at seen
      rw [Stepwise.bind_of_error outcome]
      exact ⟨more, seen, quiet⟩

variable (resolve : Bytes → UInt16 → Resolution) (client : Fd)

theorem silent_close (peer : Fd) :
    Silent (Socks.close (sessionHost client) peer) := by
  apply Silent.bind
  · intro s
    by_cases same : peer = client
    · refine ⟨[.closed peer], ?_, ?_⟩
      · simp only [sessionHost, serverHost, host, Stepwise.modifyGet_eq,
          if_pos same]
        rfl
      · intro address port member
        cases List.mem_singleton.mp member
    · refine ⟨[], ?_, ?_⟩
      · simp only [sessionHost, serverHost, host, Stepwise.modifyGet_eq,
          if_neg same]
        exact (List.append_nil _).symm
      · intro address port
        exact List.not_mem_nil
  · intro closed
    exact Silent.unseen fun _ => rfl

theorem silent_sendPeer (peer : Fd) (message : Bytes) :
    Silent (sendPeer (sessionHost client) peer message) := by
  apply Silent.bind
  · intro s
    refine ⟨[.wrote peer message], rfl, ?_⟩
    intro address port member
    cases List.mem_singleton.mp member
  · intro written
    exact Silent.unseen fun _ => rfl

theorem silent_setState (peer : Fd) (state : SocksState) :
    Silent ((states (sessionHost client)).setState peer state) :=
  Silent.unseen fun _ => rfl

theorem silent_onRemoteConnect (port : UInt16) (r : ConnectResult)
    (peer : Fd) : Silent (onRemoteConnect (sessionHost client) port r peer) := by
  apply Silent.bind (Silent.unseen fun _ => rfl)
  intro address
  split
  · exact .bind (silent_setState client peer .connected)
      fun _ => silent_sendPeer client peer _
  · exact silent_close client peer

theorem silent_resolved (address : Bytes) (port : UInt16) (peer : Fd) :
    Silent (resolved resolve client address port peer) := by
  unfold resolved
  dsimp only
  split
  · exact Silent.unseen fun _ => rfl
  · split
    · exact .bind (silent_onRemoteConnect client port .ng peer)
        fun _ => Silent.unseen fun _ => rfl
    · exact .bind (silent_onRemoteConnect client port .ok peer)
        fun _ => Silent.unseen fun _ => rfl
    · exact Silent.unseen fun _ => rfl

end Silence

section Deliveries

variable {resolve : Bytes → UInt16 → Resolution} {client : Fd}
  {s now : Session} {name received : Bytes} {high low : UInt8}

/-- What `on_message` makes of the bytes of a request. -/
theorem settled_request {again : Fd → Bytes → M Effect Relays Unit}
    {message tail : Bytes}
    (stream : message ++ tail = requestText name high low) :
    settled (request (sessionHost client) (reach resolve client) again client
        message s) =
      if message.length < 5 ∨ message.length < nameLength message then
        kept client message s
      else if nameLength message < 2 then { s with status := .crashed }
      else settled (ask (sessionHost client) (reach resolve client) again client
        message s) := by
  have bytes := byteAt_of_request stream
  unfold request
  rw [Stepwise.bind_of_ok (needBuf_eq message _ s)]
  by_cases short : message.length < 5
  · simp only [short, decide_true, if_true, true_or]
    rfl
  · obtain ⟨isConnect, isName, -⟩ := bytes (Nat.le_of_not_lt short)
    have noAddress : ¬ ((3 : UInt8) = 1 ∨ (3 : UInt8) = 4) := by decide
    simp only [short, decide_false, Bool.false_eq_true, if_false, isConnect,
      isName, noAddress, ne_eq, not_true_eq_false, false_or, if_true]
    rw [Stepwise.bind_of_ok (needBuf_eq message _ s)]
    by_cases part : message.length < nameLength message
    · simp only [part, decide_true, if_true]
      rfl
    · simp only [part, decide_false, Bool.false_eq_true, if_false]
      split <;> rfl

theorem deliver_request (isOpen : s.status = .opened)
    (requesting : s.own.stateful.getState client = .request)
    (waits : Waits client s received now) {piece tail : Bytes}
    (stream : received ++ piece ++ tail = requestText name high low) :
    deliver resolve client now piece =
      if (received ++ piece).length < 5 ∨
          (received ++ piece).length < nameLength (received ++ piece) then
        kept client (received ++ piece) s
      else if nameLength (received ++ piece) < 2 then
        { s with status := .crashed }
      else settled (ask (sessionHost client) (reach resolve client)
        (onMessageAt (sessionHost client) (reach resolve client) 1) client
        (received ++ piece) s) := by
  have delivered : deliver resolve client now piece = _ :=
    deliver_eq isOpen requesting waits piece
  exact delivered.trans (settled_request stream)

/-- Up to 127 bytes in the name a part of the request waits for the rest. -/
theorem deliver_part (short : name.length ≤ 127) (isOpen : s.status = .opened)
    (requesting : s.own.stateful.getState client = .request)
    (waits : Waits client s received now) {piece tail : Bytes}
    (stream : received ++ piece ++ tail = requestText name high low)
    (more : tail ≠ []) :
    deliver resolve client now piece = kept client (received ++ piece) s := by
  have size := congrArg List.length stream
  have left := List.length_pos_of_ne_nil more
  rw [List.length_append, length_requestText] at size
  rw [deliver_request isOpen requesting waits stream]
  apply if_pos
  by_cases some : 5 ≤ (received ++ piece).length
  · right
    rw [nameLength_small stream some short]
    omega
  · left
    omega

/-- However the part of the request is cut. -/
theorem foldl_part (short : name.length ≤ 127) (isOpen : s.status = .opened)
    (requesting : s.own.stateful.getState client = .request)
    (fresh : s.bufferable[client]? = none)
    (waits : Waits client s received now) {pieces : List Bytes} {tail : Bytes}
    (stream : received ++ pieces.flatten ++ tail = requestText name high low)
    (more : tail ≠ []) :
    Waits client s (received ++ pieces.flatten)
        (pieces.foldl (deliver resolve client) now) ∧
      (pieces ≠ [] → pieces.foldl (deliver resolve client) now =
        kept client (received ++ pieces.flatten) s) := by
  induction pieces generalizing now received with
  | nil =>
      rw [List.flatten_nil, List.append_nil]
      exact ⟨waits, fun none => absurd rfl none⟩
  | cons piece pieces induction =>
      rw [List.flatten_cons, ← List.append_assoc] at stream ⊢
      have delivered : deliver resolve client now piece =
          kept client (received ++ piece) s := by
        rw [List.append_assoc _ pieces.flatten] at stream
        apply deliver_part short isOpen requesting waits stream
        intro none
        exact more (List.append_eq_nil_iff.mp none).2
      rw [List.foldl_cons, delivered]
      obtain ⟨later, isKept⟩ := induction (.kept fresh _) stream
      refine ⟨later, fun _ => ?_⟩
      by_cases none : pieces = []
      · rw [none, List.flatten_nil, List.append_nil]
        rfl
      · exact isKept none

/-- What is asked for once the whole request is there. -/
theorem ask_eq (short : name.length ≤ 127)
    {again : Fd → Bytes → M Effect Relays Unit} :
    ask (sessionHost client) (reach resolve client) again client
        (requestText name high low) s =
      (resolved resolve client name (portOf high low) client >>= fun remote =>
        if remote = -1 then Socks.close (sessionHost client) client
        else do
          (sessionHost client).modifyOwn (Relays.pair client remote name)
          (states (sessionHost client)).setState client .connecting
          return ())
        (s.record (.asked name (portOf high low))) := by
  have whole := List.append_nil (requestText name high low)
  have size := length_requestText name high low
  have length := nameLength_small whole (by omega) short
  obtain ⟨-, -, isLength⟩ := byteAt_of_request whole (by omega)
  obtain ⟨isName, isPort⟩ := requestText_parts name high low
  have address : ((requestText name high low).drop 5).take
      (toSize (char (byteAt (requestText name high low) 4))) = name := by
    have count : toSize (char (byteAt (requestText name high low) 4)) =
        name.length := by
      unfold toSize
      rw [isLength, char_small short]
      omega
    rw [count, isName]
    exact List.take_left
  have port : portAt (requestText name high low)
      (nameLength (requestText name high low) - 2) = portOf high low := by
    rw [length]
    exact isPort
  have notMore : ¬ nameLength (requestText name high low) <
      (requestText name high low).length := by omega
  unfold ask
  simp only [address, port, if_neg notMore]
  rfl

theorem deliver_whole (short : name.length ≤ 127) (isOpen : s.status = .opened)
    (requesting : s.own.stateful.getState client = .request)
    (waits : Waits client s received now) {piece : Bytes}
    (stream : received ++ piece = requestText name high low) :
    deliver resolve client now piece =
      settled (ask (sessionHost client) (reach resolve client)
        (onMessageAt (sessionHost client) (reach resolve client) 1) client
        (requestText name high low) s) := by
  have whole := List.append_nil (requestText name high low)
  have size := length_requestText name high low
  have length := nameLength_small whole (by omega) short
  have delivered : deliver resolve client now piece = _ :=
    deliver_request isOpen requesting waits (by
      rw [stream]
      exact whole)
  rw [stream, if_neg (by omega), if_neg (by omega)] at delivered
  exact delivered

/-- The call of `connect` is the first thing that is seen, and the only one of
its kind. -/
theorem ask_once (short : name.length ≤ 127)
    {again : Fd → Bytes → M Effect Relays Unit} :
    ∃ more, (settled (ask (sessionHost client) (reach resolve client) again
        client (requestText name high low) s)).trace =
          s.trace ++ .asked name (portOf high low) :: more ∧
      ∀ address port, .asked address port ∉ more := by
  have silent : Silent (resolved resolve client name (portOf high low) client
      >>= fun remote =>
        if remote = -1 then Socks.close (sessionHost client) client
        else do
          (sessionHost client).modifyOwn (Relays.pair client remote name)
          (states (sessionHost client)).setState client .connecting
          return ()) := by
    apply Silent.bind (silent_resolved resolve client _ _ client)
    intro remote
    split
    · exact silent_close client client
    · exact Silent.unseen fun _ => rfl
  obtain ⟨more, seen, quiet⟩ := silent (s.record (.asked name
    (portOf high low)))
  refine ⟨more, ?_, quiet⟩
  rw [ask_eq short, settled_trace, seen]
  exact List.append_assoc s.trace [_] more

/-- The connection while the host is being connected to. -/
def asking (client : Fd) (name : Bytes) (port : UInt16) (remote : Fd)
    (s : Session) : Session :=
  let relays := s.own.pair client remote name
  { s.record (.asked name port) with
    own := { relays with
      stateful := relays.stateful.setState client .connecting } }

theorem ask_later (short : name.length ≤ 127)
    (later : Later (resolve name (portOf high low)))
    {again : Fd → Bytes → M Effect Relays Unit} :
    settled (ask (sessionHost client) (reach resolve client) again client
        (requestText name high low) s) =
      asking client name (portOf high low)
        (resolve name (portOf high low)).socket s := by
  obtain ⟨some, inProgress, valid⟩ := later
  have returns : resolved resolve client name (portOf high low) client
      (s.record (.asked name (portOf high low))) =
        .ok (resolve name (portOf high low)).socket
          (s.record (.asked name (portOf high low))) := by
    unfold resolved
    simp only [if_neg some, inProgress]
    rfl
  rw [ask_eq short, Stepwise.bind_of_ok returns, if_neg valid]
  rfl

theorem succeeded_asking (port : UInt16) (remote : Fd) :
    (succeeded client port (asking client name port remote s)).trace =
      s.trace ++ [.asked name port, .wrote client (response name port)] := by
  have named : (asking client name port remote s).own.url[client]? =
      some name := by
    simp [asking, Relays.pair]
  have read : (sessionHost client).own
      (fun relays => ((relays.url[client]?).getD [], relays))
      (asking client name port remote s) =
        .ok name (asking client name port remote s) := by
    change EStateM.Result.ok
      (((asking client name port remote s).own.url[client]?).getD []) _ = _
    rw [named]
    rfl
  unfold succeeded onRemoteConnect
  rw [Stepwise.bind_of_ok read, if_pos rfl]
  change (s.trace ++ [.asked name port]) ++ [.wrote client _] = _
  rw [List.append_assoc]
  rfl

/-- From 128 bytes in the name on the call does not have this name. -/
theorem deliver_large (long : 127 < name.length) (fits : name.length ≤ 255)
    (isOpen : s.status = .opened)
    (requesting : s.own.stateful.getState client = .request)
    (waits : Waits client s received now) {piece : Bytes}
    (stream : received ++ piece = requestText name high low) (port : UInt16)
    (more : List Effect) :
    (deliver resolve client now piece).trace ≠
      s.trace ++ .asked name port :: more := by
  have whole := List.append_nil (requestText name high low)
  have size := length_requestText name high low
  have announced := nameLength_large whole (by omega) long fits
  have unseen : s.trace ≠ s.trace ++ .asked name port :: more := by
    intro same
    have lengths := congrArg List.length same
    rw [List.length_append, List.length_cons] at lengths
    omega
  have delivered : deliver resolve client now piece = _ :=
    deliver_request isOpen requesting waits (by
      rw [stream]
      exact whole)
  rw [delivered, stream]
  by_cases huge : name.length < 249
  · rw [if_pos huge] at announced
    rw [if_pos (.inr (by omega))]
    exact unseen
  · rw [if_neg huge] at announced
    rw [if_neg (by omega)]
    split
    · exact unseen
    · obtain ⟨-, -, isLength⟩ := byteAt_of_request whole (by omega)
      have address : ((requestText name high low).drop 5).take
          (toSize (char (byteAt (requestText name high low) 4))) =
            name ++ [high, low] := by
        have count : 257 ≤
            toSize (char (byteAt (requestText name high low) 4)) := by
          unfold toSize
          rw [isLength, char_large long fits]
          omega
        rw [(requestText_parts name high low).1]
        apply List.take_of_length_le
        rw [List.length_append]
        exact Nat.le_trans (Nat.add_le_add_right fits 2) count
      obtain ⟨others, seen⟩ := @ask_grows resolve client s _
        (onMessageAt_growing resolve client 1) (requestText name high low)
      rw [seen, address]
      intro same
      rw [record, List.append_assoc] at same
      have first := (List.cons.inj (List.append_cancel_left same)).1
      have lengths := congrArg List.length (Effect.asked.inj first).1
      rw [List.length_append] at lengths
      exact absurd lengths (Nat.ne_of_gt (Nat.lt_add_of_pos_right (Nat.succ_pos 1)))

theorem waits_for_last (serves : Serves resolve client name high low s pieces
      last) (fresh : s.bufferable[client]? = none) :
    Waits client s pieces.flatten
      (pieces.foldl (deliver resolve client) s) := by
  by_cases none : pieces = []
  · rw [none]
    exact .start fresh
  · have isKept := serves.waits pieces.length
      (List.length_pos_of_ne_nil none) (Nat.le_refl _)
    rw [List.take_length] at isKept
    rw [isKept]
    exact .kept fresh _

/-- A request is served exactly if the length of the name is no negative number
and, where the connection is made later, the two bytes of the port are the
same. -/
theorem request_is_served_iff (resolve : Bytes → UInt16 → Resolution)
    (isOpen : s.status = .opened)
    (requesting : s.own.stateful.getState client = .request)
    (fresh : s.bufferable[client]? = none) (fits : name.length ≤ 255)
    {pieces : List Bytes} {last : Bytes}
    (stream : pieces.flatten ++ last = requestText name high low)
    (more : last ≠ []) :
    Serves resolve client name high low s pieces last ↔
      name.length ≤ 127 ∧
        (Later (resolve name (portOf high low)) → high = low) := by
  have run : (pieces ++ [last]).foldl (deliver resolve client) s =
      deliver resolve client (pieces.foldl (deliver resolve client) s) last := by
    rw [List.foldl_append]
    rfl
  constructor
  · intro serves
    have waits := waits_for_last serves fresh
    have short : name.length ≤ 127 := by
      apply Nat.le_of_not_lt
      intro long
      obtain ⟨others, seen, -⟩ := serves.asks
      rw [run] at seen
      exact deliver_large long fits isOpen requesting waits stream _ _ seen
    refine ⟨short, ?_⟩
    intro later
    have replied := serves.replies later
    rw [run, deliver_whole short isOpen requesting waits stream,
      ask_later short later, succeeded_asking, response_eq] at replied
    have effects := List.append_cancel_left replied
    have written := (List.cons.inj (List.cons.inj effects).2).1
    have same := (Effect.wrote.inj written).2
    unfold replyText at same
    have ports := List.append_cancel_left same
    exact (List.cons.inj ports).1.symm
  · intro ⟨short, equal⟩
    obtain ⟨waits, -⟩ := foldl_part short isOpen requesting fresh
      (.start fresh) stream more
    have arrived : (pieces ++ [last]).foldl (deliver resolve client) s = _ :=
      run.trans (deliver_whole short isOpen requesting waits stream)
    refine ⟨?_, ?_, ?_⟩
    · intro deliveries some enough
      have parts : (pieces.take deliveries).flatten ++
          ((pieces.drop deliveries).flatten ++ last) =
            requestText name high low := by
        rw [← List.append_assoc, ← List.flatten_append,
          List.take_append_drop]
        exact stream
      have tail : (pieces.drop deliveries).flatten ++ last ≠ [] := by
        intro none
        exact more (List.append_eq_nil_iff.mp none).2
      apply (foldl_part short isOpen requesting fresh (.start fresh) parts
        tail).2
      intro none
      have count := congrArg List.length none
      rw [List.length_take, List.length_nil] at count
      omega
    · rw [arrived]
      exact ask_once short
    · intro later
      rw [arrived, ask_later short later, succeeded_asking, response_eq,
        equal later]

end Deliveries

section Samples

/-- A client whose greeting was answered. -/
def requestingSession : Session where
  trace := []
  status := .opened
  own := { stateful := (∅ : Stateful SocksState).setState 5 .request }
  bufferable := ∅

/-- The name a and the port 257, in two pieces. -/
theorem request_is_served_iff_sample :
    Serves sampleResolve 5 [97] 1 1 requestingSession [[5, 1, 0, 3]]
      [1, 97, 1, 1] :=
  (request_is_served_iff sampleResolve rfl (by decide +kernel)
    (by decide +kernel) (by decide) rfl (by decide)).mpr
      ⟨by decide, fun _ => rfl⟩

/-- The port 80 is answered as 20480, and a name of 128 bytes is waited for
without end. -/
theorem request_is_misread :
    ¬ Serves sampleResolve 5 [97] 0 80 requestingSession []
      [5, 1, 0, 3, 1, 97, 0, 80] ∧
    (succeeded 5 80 (deliver sampleResolve 5 requestingSession
        [5, 1, 0, 3, 1, 97, 0, 80])).trace =
      [.asked [97] 80, .wrote 5 [5, 0, 0, 3, 1, 97, 80, 0]] ∧
    ¬ Serves sampleResolve 5 (List.replicate 128 97) 0 0 requestingSession []
      (requestText (List.replicate 128 97) 0 0) := by
  have answered : (succeeded 5 80 (deliver sampleResolve 5 requestingSession
      [5, 1, 0, 3, 1, 97, 0, 80])).trace =
        [.asked [97] 80, .wrote 5 [5, 0, 0, 3, 1, 97, 80, 0]] := by
    decide +kernel
  refine ⟨?_, answered, ?_⟩
  · intro serves
    have later : Later (sampleResolve [97] (portOf 0 80)) := by
      unfold Later
      decide
    have replied := serves.replies later
    have read : portOf 0 80 = 80 := by decide
    rw [read] at replied
    have same := answered.symm.trans replied
    exact absurd same (by decide +kernel)
  · intro serves
    obtain ⟨others, seen, -⟩ := serves.asks
    have unseen : (deliver sampleResolve 5 requestingSession
        (requestText (List.replicate 128 97) 0 0)).trace = [] := by
      decide +kernel
    rw [List.nil_append, List.foldl_cons, List.foldl_nil, unseen] at seen
    have lengths := congrArg List.length seen
    rw [List.length_append, List.length_cons, List.length_nil] at lengths
    omega

end Samples

end Socks

end Universe
