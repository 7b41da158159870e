import Universe.Http
import Universe.Library.Stepwise

/-!
# HTTP does not depend on how the input is cut

One client sends a stream of bytes, and the event manager delivers it to
`on_message` in pieces until the client is closed.  However it is cut, the
same requests are fired, the same bytes are written, the client is closed
after the same request, and the same bytes are left for the next delivery.
-/

namespace Universe

open Incremental
open Std (ExtTreeMap)

inductive Status where
  | opened
  | closed
  /-- An exception has ended the process. -/
  | crashed
  deriving DecidableEq, Repr

/-- What `ON_REQUEST` leaves in the request and in the response, by the
requests seen so far.  The request still belongs to its client. -/
structure RequestHandler where
  answer : List HttpRequest → HttpRequest × HttpResponse
  client : ∀ seen request,
    (answer (seen ++ [request])).1.client = request.client

/-- What a client has got out of the server. -/
structure Exchange where
  requests : List HttpRequest
  output : Bytes
  status : Status
  deriving DecidableEq

structure Session extends Exchange where
  bufferable : Bufferable

namespace Session

abbrev M := EStateM Unit Session

/-- All writes succeed, and `close` calls `on_close`, which erases the
buffer. -/
def host (client : Fd) : Host M where
  needBuf id message cond := modifyGet fun s =>
    let needed := s.bufferable.needBuf id message cond
    (needed.1, { s with bufferable := needed.2 })
  appendBuf id message := modifyGet fun s =>
    let appended := s.bufferable.appendBuf id message
    (appended.1, { s with bufferable := appended.2 })
  eraseBuf id := modify fun s =>
    { s with bufferable := s.bufferable.eraseBuf id }
  write _ data := modifyGet fun s =>
    (data.length, { s with output := s.output ++ data })
  close fd := modifyGet fun s =>
    if fd = client then
      (true, { s with
        status := .closed
        bufferable := s.bufferable.eraseBuf client })
    else (false, s)
  exit := throw ()

def fire (handler : RequestHandler) (r : HttpRequest) (_ : HttpResponse) :
    M (HttpRequest × HttpResponse) :=
  modifyGet fun s =>
    (handler.answer (s.requests ++ [r]),
      { s with requests := s.requests ++ [r] })

def start : Session :=
  { requests := []
    output := []
    status := .opened
    bufferable := ∅ }

/-- The session after a call of `on_message`. -/
def settled : EStateM.Result Unit Session Unit → Session
  | .ok _ s => s
  | .error _ s => { s with status := .crashed }

/-- One delivery to a client that is open. -/
def deliver (handler : RequestHandler) (client : Fd) (s : Session)
    (piece : Bytes) : Session :=
  if s.status = .opened then
    settled (Http.onMessage (host client) (fire handler) client piece s)
  else s

/-- The bytes that wait for the next delivery. -/
def remainder (client : Fd) (s : Session) : Bytes :=
  (s.bufferable[client]?).getD []

/-- There is no entry without bytes. -/
def Tight (client : Fd) (s : Session) : Prop :=
  s.bufferable[client]? ≠ some []

end Session

namespace Http

/-- What `close_if_necessary` does about a request. -/
def verdict (r : HttpRequest) : Status :=
  match r.headers.find HttpToken.connection with
  | some value => if value = ascii "close" then .closed else .opened
  | none =>
      if r.httpVersion.length < 5 then .crashed
      else if r.httpVersion.drop 5 = ascii "1.0" then .closed
      else .opened

section Verdict

variable {m : Type → Type} [Monad m] (host : Host m) {r : HttpRequest}

theorem closeIfNecessary_opened (stays : verdict r = .opened) :
    closeIfNecessary host r = pure false := by
  unfold verdict at stays
  unfold closeIfNecessary
  split at stays <;> grind

theorem closeIfNecessary_closed (ends : verdict r = .closed) :
    closeIfNecessary host r = (do
      let _ ← host.close r.client
      return true) := by
  unfold verdict at ends
  unfold closeIfNecessary
  split at ends <;> grind

theorem closeIfNecessary_crashed (throws : verdict r = .crashed) :
    closeIfNecessary host r = host.exit := by
  unfold verdict at throws
  unfold closeIfNecessary
  split at throws <;> grind

end Verdict

/-- A request has been read. -/
def exchanged (handler : RequestHandler) (e : Exchange) (r : HttpRequest) :
    Exchange :=
  let answered := handler.answer (e.requests ++ [r])
  { requests := e.requests ++ [r]
    output := e.output ++ answered.2.toBytes
    status := verdict answered.1 }

/-- One request of the input, as a step of a consumer. -/
def exchange (handler : RequestHandler) (client : Fd) (e : Exchange)
    (input : Bytes) : Verdict Exchange UInt8 :=
  match parseRequest client input with
  | .error .ag => .again
  | .error .ng => .halt { e with status := .closed }
  | .ok (r, rest) =>
      if (exchanged handler e r).status = .opened then
        .next (exchanged handler e r) rest
      else .halt (exchanged handler e r)

/-- The server as a consumer of the bytes of one client. -/
def consumer (handler : RequestHandler) (client : Fd) :
    Consumer Exchange UInt8 where
  step := exchange handler client
  empty _ := rfl
  next := by
    intro e input after rest read more
    unfold exchange at read ⊢
    split at read
    · cases read
    · cases read
    · next r left parsed =>
        rw [(stable_parseRequest client).ok parsed more]
        dsimp only
        split at read
        · next stays =>
            rw [if_pos stays]
            cases read
            rfl
        · cases read
  halt := by
    intro e input after read more
    unfold exchange at read ⊢
    split at read
    · cases read
    · next parsed =>
        rw [(stable_parseRequest client).error parsed (by decide) more]
        exact read
    · next r left parsed =>
        rw [(stable_parseRequest client).ok parsed more]
        dsimp only
        split at read
        · cases read
        · next leaves =>
            rw [if_neg leaves]
            exact read
  shorter := by
    intro e input after rest read
    unfold exchange at read
    split at read
    · cases read
    · cases read
    · next r left parsed =>
        split at read
        · cases read
          exact takes_parseRequest client _ _ _ parsed
        · cases read

end Http

/-- Where a session has come to.  A client that is not open any more has
nothing buffered. -/
inductive Shows (client : Fd) : Session → Position Exchange UInt8 → Prop where
  | waiting (e : Exchange) (b : Bufferable) (isOpen : e.status = .opened)
      (own : b.erase client = ∅) :
      Shows client ⟨e, b⟩ (.waiting e ((b[client]?).getD []))
  | halted (e : Exchange) (ended : e.status ≠ .opened) :
      Shows client ⟨e, ∅⟩ (.halted e)

namespace Session

variable {handler : RequestHandler} {client : Fd}

theorem close_own (client : Fd) (s : Session) :
    (host client).close client s = .ok true { s with
      status := .closed
      bufferable := s.bufferable.eraseBuf client } := by
  simp [host, Stepwise.modifyGet_eq]

theorem closeIfNecessary_eq {r : HttpRequest} (own : r.client = client)
    (s : Session) :
    Http.closeIfNecessary (host client) r s =
      match Http.verdict r with
      | .opened => .ok false s
      | .closed => .ok true { s with
          status := .closed
          bufferable := s.bufferable.eraseBuf client }
      | .crashed => .error () s := by
  have closing : ((host client).close r.client >>= fun _ => pure true : M Bool) s =
      .ok true { s with
        status := .closed
        bufferable := s.bufferable.eraseBuf client } := by
    rw [own]
    exact Stepwise.bind_of_ok (close_own client s)
  cases reached : Http.verdict r with
  | opened =>
      rw [Http.closeIfNecessary_opened _ reached]
      rfl
  | closed =>
      rw [Http.closeIfNecessary_closed _ reached]
      exact closing
  | crashed =>
      rw [Http.closeIfNecessary_crashed _ reached]
      rfl

private theorem erase_insert_empty (client : Fd) (bytes : Bytes) :
    ((∅ : Bufferable).insert client bytes).erase client = ∅ := by
  ext1 fd
  by_cases same : client = fd
  · simp [same]
  · simp [same]

private theorem erase_empty (client : Fd) :
    (∅ : Bufferable).eraseBuf client = ∅ := by
  ext1 fd
  simp [Bufferable.eraseBuf]

/-- A message that ends too early is kept as a whole. -/
theorem shows_kept {e : Exchange} (isOpen : e.status = .opened)
    (input : Bytes) :
    Shows client ⟨e, (∅ : Bufferable).insert client input⟩
      (.waiting e input) := by
  have shown := Shows.waiting e ((∅ : Bufferable).insert client input) isOpen
    (erase_insert_empty client input)
  simpa using shown

/-- A message of whole requests leaves nothing. -/
theorem shows_nothing {e : Exchange} (isOpen : e.status = .opened) :
    Shows client ⟨e, ∅⟩ (.waiting e []) := by
  have shown := Shows.waiting e (∅ : Bufferable) isOpen (erase_empty client)
  simpa using shown

theorem shows_ended {e : Exchange} {after : Session} {input : Bytes}
    (ended : e.status ≠ .opened) (reached : ⟨e, ∅⟩ = after) :
    Shows client after (.halted e) ∧ (input ≠ [] → Tight client after) := by
  rw [← reached]
  exact ⟨.halted e ended, fun _ => by simp [Tight]⟩

/-- The loop of `on_message` after a request has been read and answered. -/
theorem serve_ok {e : Exchange} {fuel : Nat} {input rest : Bytes}
    {r : HttpRequest} (parsed : Http.parseRequest client input = .ok (r, rest)) :
    Http.serve (host client) (fire handler) client (fuel + 1) input ⟨e, ∅⟩ =
      (do
        let closed ← Http.closeIfNecessary (host client)
          (handler.answer (e.requests ++ [r])).1
        if closed || rest.isEmpty then return ()
        else Http.serve (host client) (fire handler) client fuel rest : M Unit)
        ⟨{ Http.exchanged handler e r with status := e.status }, ∅⟩ := by
  conv_lhs => unfold Http.serve
  rw [parsed]
  rfl

/-- The loop of `on_message` reads everything there is to read. -/
theorem serve_shows {e : Exchange} (isOpen : e.status = .opened)
    {fuel : Nat} {input : Bytes} (enough : input.length < fuel)
    {after : Session}
    (served : settled (Http.serve (host client) (fire handler) client fuel
      input ⟨e, ∅⟩) = after) :
    Shows client after ((Http.consumer handler client).drain e input) ∧
      (input ≠ [] → Tight client after) := by
  induction fuel generalizing e input with
  | zero => omega
  | succ fuel induction =>
      cases parsed : Http.parseRequest client input with
      | error stop =>
          unfold Http.serve at served
          rw [parsed] at served
          cases stop with
          | ag =>
              have waits : (Http.consumer handler client).step e input = .again := by
                simp [Http.consumer, Http.exchange, parsed]
              rw [Consumer.drain_of_again waits]
              have kept : ⟨e, (∅ : Bufferable).insert client input⟩ = after :=
                served
              rw [← kept]
              refine ⟨shows_kept isOpen input, ?_⟩
              intro nonempty
              simpa [Tight] using nonempty
          | ng =>
              have halts : (Http.consumer handler client).step e input =
                  .halt { e with status := .closed } := by
                simp [Http.consumer, Http.exchange, parsed]
              have closed := close_own client ⟨e, ∅⟩
              rw [erase_empty] at closed
              dsimp only at served
              rw [Stepwise.bind_of_ok closed] at served
              rw [Consumer.drain_of_halt halts]
              exact shows_ended (by simp) served
      | ok read =>
          obtain ⟨r, rest⟩ := read
          rw [serve_ok parsed] at served
          have own : (handler.answer (e.requests ++ [r])).1.client = client := by
            rw [handler.client]
            exact Http.parseRequest_client client _ _ _ parsed
          have read : (Http.consumer handler client).step e input =
              if (Http.exchanged handler e r).status = .opened then
                .next (Http.exchanged handler e r) rest
              else .halt (Http.exchanged handler e r) := by
            simp [Http.consumer, Http.exchange, parsed]
          have necessary := closeIfNecessary_eq own
            ⟨{ Http.exchanged handler e r with status := e.status }, ∅⟩
          have status : (Http.exchanged handler e r).status =
              Http.verdict (handler.answer (e.requests ++ [r])).1 := rfl
          cases ruling : Http.verdict (handler.answer (e.requests ++ [r])).1 with
          | opened =>
              rw [ruling] at necessary status
              rw [if_pos status] at read
              rw [Stepwise.bind_of_ok necessary] at served
              rw [Consumer.drain_of_next read]
              have same : { Http.exchanged handler e r with status := e.status } =
                  Http.exchanged handler e r := by
                rw [isOpen, ← status]
              rw [same] at served
              cases rest with
              | nil =>
                  rw [Consumer.drain_of_again ((Http.consumer handler client).empty _)]
                  have nothing : ⟨Http.exchanged handler e r, ∅⟩ = after := served
                  rw [← nothing]
                  exact ⟨shows_nothing status, fun _ => by simp [Tight]⟩
              | cons byte rest =>
                  have less := Http.takes_parseRequest client _ _ _ parsed
                  obtain ⟨shown, tight⟩ := induction status (by omega) served
                  exact ⟨shown, fun _ => tight (by simp)⟩
          | closed =>
              rw [ruling] at necessary status
              rw [if_neg (by simp [status])] at read
              dsimp only at necessary
              rw [erase_empty] at necessary
              rw [Stepwise.bind_of_ok necessary] at served
              rw [Consumer.drain_of_halt read]
              refine shows_ended (by simp [status]) ?_
              rw [← served]
              change Session.mk _ _ = Session.mk _ _
              rw [← status]
          | crashed =>
              rw [ruling] at necessary status
              rw [if_neg (by simp [status])] at read
              rw [Stepwise.bind_of_error necessary] at served
              rw [Consumer.drain_of_halt read]
              refine shows_ended (by simp [status]) ?_
              rw [← served]
              change Session.mk _ _ = Session.mk _ _
              rw [← status]

private theorem getElem?_of_erase {b : Bufferable} (own : b.erase client = ∅)
    {fd : Fd} (different : client ≠ fd) : b[fd]? = none := by
  have erased : (b.erase client)[fd]? = b[fd]? := by
    simp [ExtTreeMap.getElem?_erase, different]
  rw [← erased, own]
  simp

private theorem eq_empty {b : Bufferable} (own : b.erase client = ∅)
    (absent : b[client]? = none) : b = ∅ := by
  ext1 fd
  by_cases same : client = fd
  · subst same
    simp [absent]
  · simp [getElem?_of_erase own same]

/-- The message that `on_message` works on is what was left with the new
piece. -/
theorem onMessage_eq {e : Exchange} {b : Bufferable}
    (own : b.erase client = ∅) (piece : Bytes) :
    Http.onMessage (host client) (fire handler) client piece ⟨e, b⟩ =
      Http.serve (host client) (fire handler) client
        (((b[client]?).getD [] ++ piece).length + 1)
        ((b[client]?).getD [] ++ piece) ⟨e, ∅⟩ := by
  cases buffered : b[client]? with
  | none =>
      have appended : (host client).appendBuf client piece ⟨e, b⟩ =
          .ok piece ⟨e, ∅⟩ := by
        simp [host, Stepwise.modifyGet_eq, Bufferable.appendBuf, eq_empty own buffered]
      unfold Http.onMessage
      rw [Stepwise.bind_of_ok appended]
      rfl
  | some bytes =>
      have appended : (host client).appendBuf client piece ⟨e, b⟩ =
          .ok (bytes ++ piece) ⟨e, ∅⟩ := by
        simp [host, Stepwise.modifyGet_eq, Bufferable.appendBuf, buffered, own]
      unfold Http.onMessage
      rw [Stepwise.bind_of_ok appended]
      rfl

/-- One delivery is one piece for the consumer. -/
theorem deliver_shows {s : Session} {position : Position Exchange UInt8}
    (shown : Shows client s position) (piece : Bytes) :
    Shows client (deliver handler client s piece)
        ((Http.consumer handler client).feed position piece) ∧
      (piece ≠ [] → Tight client (deliver handler client s piece)) := by
  cases shown with
  | waiting e b isOpen own =>
      unfold deliver
      rw [if_pos isOpen, onMessage_eq own]
      obtain ⟨served, tight⟩ := serve_shows isOpen
        (Nat.lt_succ_self ((b[client]?).getD [] ++ piece).length) rfl
      exact ⟨served, fun nonempty => tight (by simp [nonempty])⟩
  | halted e ended =>
      unfold deliver
      rw [if_neg ended]
      exact ⟨.halted e ended, fun _ => by simp [Tight]⟩

theorem pieces_shows {s : Session} {position : Position Exchange UInt8}
    (shown : Shows client s position) (pieces : List Bytes) :
    Shows client (pieces.foldl (deliver handler client) s)
      (pieces.foldl (Http.consumer handler client).feed position) := by
  induction pieces generalizing s position with
  | nil => exact shown
  | cons piece rest induction => exact induction (deliver_shows shown piece).1

theorem pieces_tight {s : Session} {position : Position Exchange UInt8}
    (shown : Shows client s position) {pieces : List Bytes}
    (some : pieces ≠ []) (nonempty : [] ∉ pieces) :
    Tight client (pieces.foldl (deliver handler client) s) := by
  induction pieces generalizing s position with
  | nil => exact absurd rfl some
  | cons piece rest induction =>
      obtain ⟨first, later⟩ := not_or.mp (List.mem_cons.not.mp nonempty)
      obtain ⟨delivered, tight⟩ :
          Shows client (deliver handler client s piece) _ ∧ _ :=
        deliver_shows shown piece
      cases rest with
      | nil => exact tight (Ne.symm first)
      | cons next rest => exact induction delivered (by simp) later

/-- The position determines everything but an entry without bytes. -/
theorem Shows.same {first second : Session} {position : Position Exchange UInt8}
    (firstShown : Shows client first position)
    (secondShown : Shows client second position) :
    first.toExchange = second.toExchange ∧
      first.remainder client = second.remainder client := by
  cases firstShown with
  | waiting e b isOpen own =>
      generalize same : (b[client]?).getD [] = rest at secondShown
      cases secondShown with
      | waiting e other _ _ => exact ⟨rfl, same⟩
  | halted e ended =>
      cases secondShown with
      | halted => exact ⟨rfl, rfl⟩

private theorem eq_of_remainder {first second : Option Bytes}
    (same : first.getD [] = second.getD []) (firstTight : first ≠ some [])
    (secondTight : second ≠ some []) : first = second := by
  cases first <;> cases second <;> simp_all

theorem Shows.eq_of_tight {first second : Session}
    {position : Position Exchange UInt8} (firstShown : Shows client first position)
    (secondShown : Shows client second position)
    (firstTight : Tight client first) (secondTight : Tight client second) :
    first = second := by
  cases firstShown with
  | waiting e b isOpen own =>
      generalize same : (b[client]?).getD [] = rest at secondShown
      cases secondShown with
      | waiting e other _ otherOwn =>
          have entries : b = other := by
            ext1 fd
            by_cases here : client = fd
            · subst here
              exact eq_of_remainder same firstTight secondTight
            · rw [getElem?_of_erase own here, getElem?_of_erase otherOwn here]
          rw [entries]
  | halted e ended =>
      cases secondShown with
      | halted => rfl

end Session

open Session

/-- However the stream of a client is cut, the same requests are fired, the
same bytes are written, the client is closed or not after the same request,
and the same bytes are left over.  Without empty deliveries the whole
`Bufferable` is the same. -/
theorem http_segmentation_independent (handler : RequestHandler) (client : Fd)
    (pieces : List Bytes) :
    let cut := pieces.foldl (deliver handler client) start
    let whole := deliver handler client start pieces.flatten
    cut.requests = whole.requests ∧ cut.output = whole.output ∧
      cut.status = whole.status ∧
      cut.remainder client = whole.remainder client ∧
      (pieces ≠ [] → [] ∉ pieces → cut = whole) := by
  intro cut whole
  have begun : Shows client start (.waiting start.toExchange []) :=
    shows_nothing rfl
  have idle : (Http.consumer handler client).Idle
      (.waiting start.toExchange []) := (Http.consumer handler client).empty _
  have cutShown : Shows client cut _ := pieces_shows begun pieces
  rw [Consumer.feed_pieces idle] at cutShown
  obtain ⟨wholeShown, wholeTight⟩ : Shows client whole _ ∧ _ :=
    deliver_shows begun pieces.flatten
  obtain ⟨exchange, remainder⟩ := Shows.same cutShown wholeShown
  refine ⟨congrArg Exchange.requests exchange, congrArg Exchange.output exchange,
    congrArg Exchange.status exchange, remainder, ?_⟩
  intro some nonempty
  refine Shows.eq_of_tight cutShown wholeShown
    (pieces_tight begun some nonempty) (wholeTight ?_)
  intro empty
  obtain ⟨piece, member⟩ := List.exists_mem_of_ne_nil pieces some
  exact nonempty (List.flatten_eq_nil_iff.mp empty piece member ▸ member)

end Universe
