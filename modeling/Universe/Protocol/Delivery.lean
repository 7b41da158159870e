import Universe.Bufferable.Delivery
import Universe.Http.Segmentation
import Universe.Protocol

/-!
# Deliveries of printed items

A connection whose protocol reads items one after the other gets the bytes of
printed items in any pieces.  After every delivery exactly the items that have
arrived as a whole were handled, and the part of the next one is kept.
-/

namespace Universe

open Incremental

namespace Protocol

/-- A connection: what was seen of it, whether it is open, and what the
protocol keeps for it besides the bytes of `Bufferable`. -/
structure Connection (ε χ : Type) where
  trace : List ε
  status : Status
  own : χ
  bufferable : Bufferable

/-- How writes and closes are seen, and what `on_close` leaves. -/
structure Traits (ε χ : Type) where
  wrote : Fd → Bytes → ε
  closed : Fd → ε
  forget : χ → χ

namespace Connection

variable {ε χ ι γ : Type}

abbrev M (ε χ : Type) := EStateM Unit (Connection ε χ)

def record (effect : ε) (s : Connection ε χ) : Connection ε χ :=
  { s with trace := s.trace ++ [effect] }

/-- All writes succeed, and `close` calls `on_close`. -/
def host (traits : Traits ε χ) (client : Fd) : Host (M ε χ) where
  needBuf id message cond := modifyGet fun s =>
    let needed := s.bufferable.needBuf id message cond
    (needed.1, { s with bufferable := needed.2 })
  appendBuf id message := modifyGet fun s =>
    let appended := s.bufferable.appendBuf id message
    (appended.1, { s with bufferable := appended.2 })
  eraseBuf id := modify fun s =>
    { s with bufferable := s.bufferable.eraseBuf id }
  write fd data := modifyGet fun s =>
    ((data.length : Int), s.record (traits.wrote fd data))
  close fd := modifyGet fun s =>
    if fd = client then
      (true, { s.record (traits.closed fd) with
        status := .closed
        own := traits.forget s.own
        bufferable := s.bufferable.eraseBuf client })
    else (false, s)
  exit := throw ()

/-- The connection after a call of `on_message`. -/
def settled : EStateM.Result Unit (Connection ε χ) Unit → Connection ε χ
  | .ok _ s => s
  | .error _ s => { s with status := .crashed }

theorem settled_own (result : EStateM.Result Unit (Connection ε χ) Unit) :
    (settled result).own = (Stepwise.final result).own := by
  cases result <;> rfl

/-- One delivery to a client that is open. -/
def deliver (onMessage : Bytes → M ε χ Unit) (s : Connection ε χ) (piece : Bytes) :
    Connection ε χ :=
  if s.status = .opened then settled (onMessage piece s) else s

/-- The bytes that wait for the next delivery. -/
def remainder (client : Fd) (s : Connection ε χ) : Bytes :=
  (s.bufferable[client]?).getD []

/-- The connection with these bytes, or with nothing, for its client. -/
def keeping (bufferable : Bufferable) (s : Connection ε χ) : Connection ε χ :=
  { s with bufferable }

section Deliveries

variable {traits : Traits ε χ} {client : Fd} {parse : StreamReader (Option ι)}
  {handle : ι → M ε χ Bool} (stable : Stable .ag parse)
  (empty : parse [] = .error .ag) {print : γ → Bytes} {value : γ → ι}

include stable empty

/-- The whole items of a delivery are handled, and the rest is kept. -/
theorem deliver_handled {s after : Connection ε χ} (isOpen : s.status = .opened)
    {piece : Bytes} {items : List γ} {part : Bytes}
    (arrived : s.remainder client ++ piece = items.flatMap print ++ part)
    (printed : ∀ item ∈ items, parse (print item) = .ok (some (value item), []))
    (ends : parse part = .error .ag)
    (handled : Handled handle (items.map value)
      (s.keeping (s.bufferable.erase client)) after) :
    deliver (onItems (host traits client) parse handle client) s piece =
      if items ≠ [] ∧ part = [] then after
      else after.keeping (after.bufferable.insert client part) := by
  have appended : (host traits client).appendBuf client piece s =
      .ok (items.flatMap print ++ part)
        (s.keeping (s.bufferable.erase client)) := by
    simp only [host, Stepwise.modifyGet_eq, Bufferable.appendBuf_eq_erase]
    rw [← arrived]
    rfl
  have looped : readItems (host traits client) parse handle client
      ((items.flatMap print ++ part).length + 1) (items.flatMap print ++ part)
      (s.keeping (s.bufferable.erase client)) = _ :=
    readItems_handled stable empty printed handled ends (Nat.lt_succ_self _)
  unfold deliver onItems
  rw [if_pos isOpen, Stepwise.bind_of_ok appended, looped]
  split
  · rfl
  · rfl

/-- The loop comes to what follows items that it goes on after. -/
theorem deliver_skip {s after : Connection ε χ} (isOpen : s.status = .opened)
    {piece : Bytes} {items : List γ} {tail : Bytes}
    (arrived : s.remainder client ++ piece = items.flatMap print ++ tail)
    (printed : ∀ item ∈ items, parse (print item) = .ok (some (value item), []))
    (handled : Handled handle (items.map value)
      (s.keeping (s.bufferable.erase client)) after) (more : tail ≠ []) :
    ∃ fuel, deliver (onItems (host traits client) parse handle client) s piece =
      settled (readItems (host traits client) parse handle client fuel tail
        after) := by
  have appended : (host traits client).appendBuf client piece s =
      .ok (items.flatMap print ++ tail)
        (s.keeping (s.bufferable.erase client)) := by
    simp only [host, Stepwise.modifyGet_eq, Bufferable.appendBuf_eq_erase]
    rw [← arrived]
    rfl
  obtain ⟨fuel, _, skipped⟩ : ∃ fewer, _ < fewer ∧
      readItems (host traits client) parse handle client
        ((items.flatMap print ++ tail).length + 1) (items.flatMap print ++ tail)
        (s.keeping (s.bufferable.erase client)) =
          readItems (host traits client) parse handle client fewer tail after :=
    readItems_skip stable empty printed handled more (Nat.lt_succ_self _)
  refine ⟨fuel, ?_⟩
  unfold deliver onItems
  rw [if_pos isOpen, Stepwise.bind_of_ok appended, skipped]

/-- An item that leaves the loop is the last one, and nothing is kept. -/
theorem deliver_left {s between after : Connection ε χ}
    (isOpen : s.status = .opened) {piece : Bytes} {items : List γ} {last : γ}
    {rest : Bytes}
    (arrived : s.remainder client ++ piece =
      items.flatMap print ++ print last ++ rest)
    (printed : ∀ item ∈ items ++ [last],
      parse (print item) = .ok (some (value item), []))
    (handled : Handled handle (items.map value)
      (s.keeping (s.bufferable.erase client)) between)
    (leaves : handle (value last) between = .ok false after) :
    deliver (onItems (host traits client) parse handle client) s piece =
      after := by
  have appended : (host traits client).appendBuf client piece s =
      .ok (items.flatMap print ++ print last ++ rest)
        (s.keeping (s.bufferable.erase client)) := by
    simp only [host, Stepwise.modifyGet_eq, Bufferable.appendBuf_eq_erase]
    rw [← arrived]
    rfl
  have looped : readItems (host traits client) parse handle client
      ((items.flatMap print ++ print last ++ rest).length + 1)
      (items.flatMap print ++ print last ++ rest)
      (s.keeping (s.bufferable.erase client)) = .ok () after :=
    readItems_left stable empty printed handled leaves (Nat.lt_succ_self _)
  unfold deliver onItems
  rw [if_pos isOpen, Stepwise.bind_of_ok appended, looped]
  rfl

end Deliveries

/-- Bytes that are wrong close the connection. -/
theorem deliver_refused {traits : Traits ε χ} {client : Fd}
    {parse : StreamReader (Option ι)} {handle : ι → M ε χ Bool}
    {s : Connection ε χ} (isOpen : s.status = .opened) {piece : Bytes}
    (refused : parse (s.remainder client ++ piece) = .error .ng) :
    deliver (onItems (host traits client) parse handle client) s piece =
      { trace := s.trace ++ [traits.closed client]
        status := .closed
        own := traits.forget s.own
        bufferable := Bufferable.eraseBuf (s.bufferable.erase client) client } := by
  have appended : (host traits client).appendBuf client piece s =
      .ok (s.remainder client ++ piece)
        (s.keeping (s.bufferable.erase client)) := by
    simp only [host, Stepwise.modifyGet_eq, Bufferable.appendBuf_eq_erase]
    rfl
  unfold deliver onItems
  rw [if_pos isOpen, Stepwise.bind_of_ok appended]
  unfold readItems
  rw [refused]
  simp only [host, Stepwise.modifyGet_bind, if_pos]
  rfl

/-- What is done about an item, in the connections it is about.  It does not
depend on the bytes that wait, and leaves the connection open. -/
structure Acts (within : Connection ε χ → Prop) (handle : ι → M ε χ Bool)
    (act : Connection ε χ → ι → Connection ε χ) : Prop where
  handled : ∀ s item, within s → handle item s = .ok true (act s item)
  stays : ∀ s item, within s → within (act s item)
  free : ∀ s bufferable, within s → within (s.keeping bufferable)
  status : ∀ s item, (act s item).status = s.status
  buffers : ∀ s bufferable item,
    act (s.keeping bufferable) item = (act s item).keeping bufferable

section Acting

variable {within : Connection ε χ → Prop} {handle : ι → M ε χ Bool}
  {act : Connection ε χ → ι → Connection ε χ} (acts : Acts within handle act)

include acts

theorem Acts.handled_all (items : List ι) {s : Connection ε χ}
    (inside : within s) :
    Handled handle items s (items.foldl act s) := by
  induction items generalizing s with
  | nil => rfl
  | cons item items induction =>
      exact ⟨_, acts.handled s item inside, induction (acts.stays s item inside)⟩

theorem Acts.stays_all (items : List ι) {s : Connection ε χ}
    (inside : within s) : within (items.foldl act s) := by
  induction items generalizing s with
  | nil => exact inside
  | cons item items induction => exact induction (acts.stays s item inside)

theorem Acts.status_all (items : List ι) (s : Connection ε χ) :
    (items.foldl act s).status = s.status := by
  induction items generalizing s with
  | nil => rfl
  | cons item items induction =>
      rw [List.foldl_cons, induction, acts.status]

theorem Acts.buffers_all (items : List ι) (s : Connection ε χ)
    (bufferable : Bufferable) :
    items.foldl act (s.keeping bufferable) =
      (items.foldl act s).keeping bufferable := by
  induction items generalizing s with
  | nil => rfl
  | cons item items induction =>
      rw [List.foldl_cons, List.foldl_cons, acts.buffers, induction]

end Acting

section Runs

variable {traits : Traits ε χ} {client : Fd} {parse : StreamReader (Option ι)}
  {within : Connection ε χ → Prop} {handle : ι → M ε χ Bool}
  {act : Connection ε χ → ι → Connection ε χ}
  {print : γ → Bytes} {value : γ → ι}

/-- One delivery of whole items and a part. -/
theorem deliver_acts (stable : Stable .ag parse)
    (empty : parse [] = .error .ag) (acts : Acts within handle act)
    {s : Connection ε χ} (inside : within s) (isOpen : s.status = .opened)
    {piece : Bytes}
    {items : List γ} {part : Bytes}
    (arrived : s.remainder client ++ piece = items.flatMap print ++ part)
    (printed : ∀ item ∈ items, parse (print item) = .ok (some (value item), []))
    (ends : parse part = .error .ag) :
    ∃ bufferable,
      deliver (onItems (host traits client) parse handle client) s piece =
        ((items.map value).foldl act s).keeping bufferable ∧
      (bufferable[client]?).getD [] = part ∧
      ∀ fd, fd ≠ client → bufferable[fd]? = s.bufferable[fd]? := by
  have handled := acts.handled_all (items.map value)
    (acts.free s (s.bufferable.erase client) inside)
  have delivered : deliver (onItems (host traits client) parse handle client)
      s piece = _ :=
    deliver_handled stable empty isOpen arrived printed ends handled
  rw [delivered, acts.buffers_all]
  split
  · next whole =>
      refine ⟨s.bufferable.erase client, rfl, ?_, ?_⟩
      · rw [whole.2]
        simp
      · intro fd different
        simp [Std.ExtTreeMap.getElem?_erase, Ne.symm different]
  · refine ⟨(s.bufferable.erase client).insert client part, rfl, ?_, ?_⟩
    · simp
    · intro fd different
      simp [Std.ExtTreeMap.getElem?_insert, Std.ExtTreeMap.getElem?_erase,
        Ne.symm different]

/-- A delivery of the next bytes of a stream of whole items handles those that
have arrived, and the others are still to come. -/
theorem deliver_next (stable : Stable .ag parse)
    (empty : parse [] = .error .ag) (acts : Acts within handle act)
    {s : Connection ε χ} (inside : within s) (isOpen : s.status = .opened)
    {piece rest : Bytes} {items : List γ}
    (stream : s.remainder client ++ (piece ++ rest) = items.flatMap print)
    (printed : ∀ item ∈ items, parse (print item) = .ok (some (value item), [])) :
    ∃ done later bufferable, items = done ++ later ∧
      deliver (onItems (host traits client) parse handle client) s piece =
        ((done.map value).foldl act s).keeping bufferable ∧
      parse ((bufferable[client]?).getD []) = .error .ag ∧
      (bufferable[client]?).getD [] ++ rest = later.flatMap print := by
  have whole : s.remainder client ++ piece ++ rest =
      items.flatMap print ++ [] := by
    rw [List.append_assoc, List.append_nil, stream]
  obtain ⟨done, later, left, rfl, received, early, follows⟩ :=
    stable.cut printed empty whole
  obtain ⟨bufferable, delivered, waits, _⟩ :=
    deliver_acts stable empty acts inside isOpen received
      (fun item member => printed item (List.mem_append_left _ member)) early
  refine ⟨done, later, bufferable, rfl, delivered, ?_, ?_⟩
  · rw [waits]
    exact early
  · rw [waits, follows, List.append_nil]

/-- However the bytes of printed items are cut, they are handled one after the
other, and the part of the last one that has arrived waits. -/
theorem deliver_pieces (stable : Stable .ag parse)
    (empty : parse [] = .error .ag) (acts : Acts within handle act)
    {s : Connection ε χ} (inside : within s) (isOpen : s.status = .opened)
    (idle : parse (s.remainder client) = .error .ag)
    {pieces : List Bytes} {items : List γ} {part : Bytes}
    (arrived : s.remainder client ++ pieces.flatten =
      items.flatMap print ++ part)
    (printed : ∀ item ∈ items, parse (print item) = .ok (some (value item), []))
    (ends : parse part = .error .ag)
    {step : Connection ε χ → Bytes → Connection ε χ}
    (agrees : ∀ s piece, within s → step s piece =
      deliver (onItems (host traits client) parse handle client) s piece) :
    ∃ bufferable, pieces.foldl step s =
      ((items.map value).foldl act s).keeping bufferable ∧
      (bufferable[client]?).getD [] = part ∧
      ∀ fd, fd ≠ client → bufferable[fd]? = s.bufferable[fd]? := by
  induction pieces generalizing s items with
  | nil =>
      have none : items = [] := by
        cases items with
        | nil => rfl
        | cons item items =>
            obtain ⟨read, _⟩ := parse_printed stable empty
              (printed item List.mem_cons_self) (items.flatMap print ++ part)
            rw [List.flatten_nil, List.append_nil] at arrived
            rw [arrived, List.flatMap_cons, List.append_assoc, read] at idle
            cases idle
      subst none
      refine ⟨s.bufferable, rfl, ?_, fun _ _ => rfl⟩
      simpa [remainder] using arrived
  | cons piece pieces induction =>
      rw [List.flatten_cons, ← List.append_assoc] at arrived
      obtain ⟨done, later, left, rfl, received, early, follows⟩ :=
        stable.cut printed ends arrived
      obtain ⟨between, delivered, waits, others⟩ :=
        deliver_acts stable empty acts inside isOpen received
          (fun item member => printed item (List.mem_append_left _ member)) early
      have stillOpen : (((done.map value).foldl act s).keeping
          between).status = .opened := (acts.status_all _ s).trans isOpen
      have stillInside : within (((done.map value).foldl act s).keeping
          between) := acts.free _ between (acts.stays_all _ inside)
      obtain ⟨bufferable, folded, left, rest⟩ := induction stillInside stillOpen
        (show parse ((between[client]?).getD []) = _ by rw [waits]; exact early)
        (show (between[client]?).getD [] ++ pieces.flatten = _ by
          rw [waits]; exact follows)
        (fun item member => printed item (List.mem_append_right _ member))
      refine ⟨bufferable, ?_, left, ?_⟩
      · rw [List.foldl_cons, agrees s piece inside, delivered, folded,
          acts.buffers_all, List.map_append, List.foldl_append]
        rfl
      · intro fd different
        rw [rest fd different]
        exact others fd different

end Runs

end Connection

end Protocol

end Universe
