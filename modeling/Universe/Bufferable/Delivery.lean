import Universe.Bufferable
import Universe.Library.Incremental

/-!
# Deliveries to a client with a buffer

A protocol appends every delivery to what its `Bufferable` holds for the
client, works on the whole, and puts back what is left.  When it works like a
consumer, the cuts between the deliveries leave no trace.
-/

namespace Universe

open Incremental

/-- What a session is to its client: the entries of `Bufferable`, and all the
rest as one state. -/
structure View (τ σ : Type) where
  state : τ → σ
  bufferable : τ → Bufferable
  ext : ∀ {first second}, state first = state second →
    bufferable first = bufferable second → first = second
  /-- The client gets deliveries. -/
  opened : σ → Prop
  /-- The client gets none any more. -/
  ended : σ → Prop

namespace View

variable {τ σ : Type} (view : View τ σ) (client : Fd)

/-- The bytes that wait for the next delivery. -/
def remainder (s : τ) : Bytes := ((view.bufferable s)[client]?).getD []

/-- There is no entry without bytes. -/
def Tight (s : τ) : Prop := (view.bufferable s)[client]? ≠ some []

/-- Where a session has come to.  A client that is not open any more has
nothing buffered. -/
inductive Shows : τ → Position σ UInt8 → Prop where
  | waiting {s : τ} (isOpen : view.opened (view.state s))
      (own : (view.bufferable s).erase client = ∅) :
      Shows s (.waiting (view.state s) (view.remainder client s))
  | halted {s : τ} (ended : view.ended (view.state s))
      (empty : view.bufferable s = ∅) :
      Shows s (.halted (view.state s))

/-- A delivery does what a consumer does with a piece. -/
def Delivers (consumer : Consumer σ UInt8) (deliver : τ → Bytes → τ) : Prop :=
  ∀ {s position}, view.Shows client s position → ∀ piece,
    view.Shows client (deliver s piece) (consumer.feed position piece) ∧
      (piece ≠ [] → view.Tight client (deliver s piece))

variable {view client}

theorem getElem?_of_erase {b : Bufferable} (own : b.erase client = ∅) {fd : Fd}
    (different : client ≠ fd) : b[fd]? = none := by
  have erased : (b.erase client)[fd]? = b[fd]? := by
    simp [Std.ExtTreeMap.getElem?_erase, different]
  rw [← erased, own]
  simp

theorem eq_empty {b : Bufferable} (own : b.erase client = ∅)
    (absent : b[client]? = none) : b = ∅ := by
  ext1 fd
  by_cases same : client = fd
  · subst same
    simp [absent]
  · simp [getElem?_of_erase own same]

theorem erase_empty (client : Fd) :
    (∅ : Bufferable).eraseBuf client = ∅ := by
  ext1 fd
  simp [Bufferable.eraseBuf]

/-- What `append_buf` returns is what was left with the new piece. -/
theorem appendBuf_eq {b : Bufferable} (own : b.erase client = ∅)
    (piece : Bytes) :
    b.appendBuf client piece = ((b[client]?).getD [] ++ piece, ∅) := by
  unfold Bufferable.appendBuf
  cases buffered : b[client]? with
  | none => simp [eq_empty own buffered]
  | some bytes => simp [own]

/-- A message that ends too early is kept as a whole. -/
theorem shows_kept {s : τ} {input : Bytes}
    (isOpen : view.opened (view.state s))
    (kept : view.bufferable s = (∅ : Bufferable).insert client input) :
    view.Shows client s (.waiting (view.state s) input) := by
  have remains : view.remainder client s = input := by
    simp [remainder, kept]
  have own : (view.bufferable s).erase client = ∅ := by
    rw [kept]
    ext1 fd
    by_cases same : client = fd
    · simp [same]
    · simp [same]
  rw [← remains]
  exact .waiting isOpen own

/-- A message that was read to its end leaves nothing. -/
theorem shows_nothing {s : τ} (isOpen : view.opened (view.state s))
    (empty : view.bufferable s = ∅) :
    view.Shows client s (.waiting (view.state s) []) := by
  have remains : view.remainder client s = [] := by
    simp [remainder, empty]
  rw [← remains]
  refine .waiting isOpen ?_
  rw [empty]
  exact erase_empty client

theorem tight_of_empty {s : τ} (empty : view.bufferable s = ∅) :
    view.Tight client s := by
  simp [Tight, empty]

section Deliveries

variable {consumer : Consumer σ UInt8} {deliver : τ → Bytes → τ}

theorem pieces_shows (delivers : view.Delivers client consumer deliver) {s : τ}
    {position : Position σ UInt8} (shown : view.Shows client s position)
    (pieces : List Bytes) :
    view.Shows client (pieces.foldl deliver s)
      (pieces.foldl consumer.feed position) := by
  induction pieces generalizing s position with
  | nil => exact shown
  | cons piece rest induction => exact induction (delivers shown piece).1

theorem pieces_tight (delivers : view.Delivers client consumer deliver) {s : τ}
    {position : Position σ UInt8} (shown : view.Shows client s position)
    {pieces : List Bytes} (some : pieces ≠ []) (nonempty : [] ∉ pieces) :
    view.Tight client (pieces.foldl deliver s) := by
  induction pieces generalizing s position with
  | nil => exact absurd rfl some
  | cons piece rest induction =>
      obtain ⟨first, later⟩ := not_or.mp (List.mem_cons.not.mp nonempty)
      obtain ⟨delivered, tight⟩ := delivers shown piece
      cases rest with
      | nil => exact tight (Ne.symm first)
      | cons next rest => exact induction delivered (by simp) later

end Deliveries

theorem Shows.of_waiting {s : τ} {state : σ} {rest : Bytes}
    (shown : view.Shows client s (.waiting state rest)) :
    view.state s = state ∧ view.opened state ∧
      view.remainder client s = rest := by
  cases shown with
  | waiting isOpen own => exact ⟨rfl, isOpen, rfl⟩

theorem Shows.of_halted {s : τ} {state : σ}
    (shown : view.Shows client s (.halted state)) :
    view.state s = state ∧ view.ended state ∧ view.bufferable s = ∅ := by
  cases shown with
  | halted ended empty => exact ⟨rfl, ended, empty⟩

/-- The position determines everything but an entry without bytes. -/
theorem Shows.same {first second : τ} {position : Position σ UInt8}
    (firstShown : view.Shows client first position)
    (secondShown : view.Shows client second position) :
    view.state first = view.state second ∧
      view.remainder client first = view.remainder client second := by
  cases firstShown with
  | waiting isOpen own =>
      generalize view.state first = e at secondShown
      generalize view.remainder client first = bytes at secondShown
      cases secondShown with
      | waiting => exact ⟨rfl, rfl⟩
  | halted ended empty =>
      generalize view.state first = e at secondShown
      cases secondShown with
      | halted _ empty' => exact ⟨rfl, by simp [remainder, empty, empty']⟩

theorem Shows.own {s : τ} {position : Position σ UInt8}
    (shown : view.Shows client s position) {fd : Fd} (different : client ≠ fd) :
    (view.bufferable s)[fd]? = none := by
  cases shown with
  | waiting isOpen own => exact getElem?_of_erase own different
  | halted ended empty => simp [empty]

private theorem eq_of_getD {first second : Option Bytes}
    (same : first.getD [] = second.getD []) (firstTight : first ≠ some [])
    (secondTight : second ≠ some []) : first = second := by
  cases first <;> cases second <;> simp_all

theorem Shows.eq_of_tight {first second : τ} {position : Position σ UInt8}
    (firstShown : view.Shows client first position)
    (secondShown : view.Shows client second position)
    (firstTight : view.Tight client first)
    (secondTight : view.Tight client second) : first = second := by
  obtain ⟨state, remainder⟩ := firstShown.same secondShown
  refine view.ext state ?_
  ext1 fd
  by_cases here : client = fd
  · subst here
    exact eq_of_getD remainder firstTight secondTight
  · rw [firstShown.own here, secondShown.own here]

/-- However the input is cut, the session comes to the same state with the
same bytes left over.  Without empty deliveries it is the same session. -/
theorem cut_eq_whole {consumer : Consumer σ UInt8} {deliver : τ → Bytes → τ}
    (delivers : view.Delivers client consumer deliver) {start : τ}
    (isOpen : view.opened (view.state start))
    (empty : view.bufferable start = ∅) (pieces : List Bytes) :
    view.state (pieces.foldl deliver start) =
        view.state (deliver start pieces.flatten) ∧
      view.remainder client (pieces.foldl deliver start) =
        view.remainder client (deliver start pieces.flatten) ∧
      (pieces ≠ [] → [] ∉ pieces →
        pieces.foldl deliver start = deliver start pieces.flatten) := by
  have begun : view.Shows client start (.waiting (view.state start) []) :=
    shows_nothing isOpen empty
  have idle : consumer.Idle (.waiting (view.state start) []) :=
    consumer.empty _
  have cutShown := pieces_shows delivers begun pieces
  rw [Consumer.feed_pieces idle] at cutShown
  obtain ⟨wholeShown, wholeTight⟩ := delivers begun pieces.flatten
  obtain ⟨state, remainder⟩ := cutShown.same wholeShown
  refine ⟨state, remainder, ?_⟩
  intro some nonempty
  refine cutShown.eq_of_tight wholeShown
    (pieces_tight delivers begun some nonempty) (wholeTight ?_)
  intro empty
  obtain ⟨piece, member⟩ := List.exists_mem_of_ne_nil pieces some
  exact nonempty (List.flatten_eq_nil_iff.mp empty piece member ▸ member)

end View

end Universe
