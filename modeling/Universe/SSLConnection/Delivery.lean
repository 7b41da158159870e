import Mathlib.Data.List.Flatten
import Universe.SSLConnection

/-!
# What `SSL_write` accepts

`write` queues its data until the handshake is done, and then offers a buffer
until the counts add up.  Every call of `SSL_write` is recorded with the place
of its buffer in the data passed to `write`, so that what was accepted can be
compared with what was passed.  Counts are `int`s: a buffer that is accepted
whole has fewer than 2^31 bytes.
-/

namespace Universe.SSLConnection

/-- A buffer and where it begins in the data passed to `write`. -/
structure Offer where
  start : Nat
  buffer : Bytes
  deriving DecidableEq

/-- One run of the loop of `write`: what the calls of `SSL_write` answered, and
what `write` returned. -/
structure Written extends Offer where
  results : List Int
  returned : Int
  deriving DecidableEq

/-- The answers the loop gets, -1 where `SSL_write` has none left. -/
def loopResults (num size : Int) : List Int → List Int
  | [] => [-1]
  | len :: results =>
      len :: if 0 < len then
        if size + len < num then loopResults num (size + len) results else []
      else []

def Offer.written (offer : Offer) (results : List Int) : Written where
  toOffer := offer
  results := loopResults offer.buffer.length 0 results
  returned := (writeLoop offer.buffer.length 0 results).1

inductive Op where
  | write (data : Bytes)
  | handshake

/-- What an operation passes to `write`. -/
def Op.data : Op → Bytes
  | .write data => data
  | .handshake => []

/-- A connection with the answers still to come, all data passed to `write` and
the runs of its loop. -/
structure Transmission where
  connection : SSLConnection := {}
  answers : Answers
  passed : Bytes := []
  writes : List Written := []

namespace Transmission

/-- The buffer that `handshake` flushes, if it does. -/
def flushes (t : Transmission) : Bool :=
  !t.connection.handshakeDone && t.answers.sslHandshakes.head? == some true &&
    t.connection.buf.length != 0

def step (t : Transmission) : Op → Transmission
  | .write data =>
      let (_, connection, answers) := t.connection.write data t.answers
      let offer : Offer := ⟨t.passed.length, data⟩
      { connection, answers
        passed := t.passed ++ data
        writes := if t.connection.handshakeDone
          then t.writes ++ [offer.written t.answers.sslWrites] else t.writes }
  | .handshake =>
      let (_, connection, answers) := t.connection.handshake t.answers
      let offer : Offer :=
        ⟨t.passed.length - t.connection.buf.length, t.connection.buf⟩
      { connection, answers
        passed := t.passed
        writes := if t.flushes
          then t.writes ++ [offer.written t.answers.sslWrites] else t.writes }

def run (ops : List Op) (answers : Answers) : Transmission :=
  ops.foldl step { answers }

/-- The calls of `SSL_write`: the start of the buffer and the answer. -/
def calls (writes : List Written) : List (Nat × Int) :=
  writes.flatMap fun written =>
    written.results.map fun result => (written.start, result)

/-- The bytes that `SSL_write` accepted, each time the first ones of the
buffer. -/
def accepted (writes : List Written) : Bytes :=
  writes.flatMap fun written =>
    written.results.flatMap fun result => written.buffer.take result.toNat

/-- Every call begins where the one before has ended. -/
def Seamless : Nat → List (Nat × Int) → Prop
  | _, [] => True
  | next, call :: rest =>
      call.1 = next ∧ Seamless (next + call.2.toNat) rest

/-- Everything that was passed was accepted once and in order, and the writes
returned the lengths of their data. -/
structure Intact (t : Transmission) : Prop where
  bytes : accepted t.writes = t.passed
  seamless : Seamless 0 (calls t.writes)
  lengths : ∀ written ∈ t.writes, written.returned = written.buffer.length

/-- `SSL_write` answers with positive counts of at most the size it is
offered. -/
def Fair (t : Transmission) : Prop :=
  ∀ written ∈ t.writes, ∀ result ∈ written.results,
    0 < result ∧ result ≤ written.buffer.length

end Transmission

/-- The buffers that are offered to `SSL_write`.  Before the handshake is done
they are queued. -/
def offers (done : Bool) (passed : Nat) (queued : Bytes)
    (handshakes : List Bool) : List Op → List Offer
  | [] => []
  | .write data :: ops =>
      if done then
        ⟨passed, data⟩ ::
          offers true (passed + data.length) queued handshakes ops
      else offers false (passed + data.length) (queued ++ data) handshakes ops
  | .handshake :: ops =>
      if done then offers true passed queued handshakes ops
      else
        match handshakes with
        | true :: rest =>
            if queued.length = 0 then offers true passed queued rest ops
            else
              ⟨passed - queued.length, queued⟩ ::
                offers true passed queued rest ops
        | false :: rest => offers false passed queued rest ops
        | [] => offers false passed queued [] ops

/-- The loops over some buffers, one after the other. -/
def writtenAll : List Offer → List Int → List Written
  | [], _ => []
  | offer :: rest, results =>
      offer.written results ::
        writtenAll rest (writeLoop offer.buffer.length 0 results).2

/-- Every buffer begins where the one before ends. -/
def Chained : Nat → List Offer → Prop
  | _, [] => True
  | next, offer :: rest =>
      offer.start = next ∧ Chained (next + offer.buffer.length) rest

namespace Transmission

/-- The buffers still to be offered. -/
def ahead (t : Transmission) (ops : List Op) : List Offer :=
  offers t.connection.handshakeDone t.passed.length t.connection.buf
    t.answers.sslHandshakes ops

/-- What is queued until the handshake is done. -/
def queued (t : Transmission) : Bytes :=
  if t.connection.handshakeDone then [] else t.connection.buf

/-- An operation that offers a buffer to `SSL_write`. -/
structure Offering (t : Transmission) (op : Op) (offer : Offer) : Prop where
  ahead : ∀ ops, t.ahead (op :: ops) = offer :: (t.step op).ahead ops
  writes : (t.step op).writes =
    t.writes ++ [offer.written t.answers.sslWrites]
  results : (t.step op).answers.sslWrites =
    (writeLoop offer.buffer.length 0 t.answers.sslWrites).2
  bytes : t.queued ++ op.data = offer.buffer ++ (t.step op).queued

/-- An operation that does not call `SSL_write`. -/
structure Silent (t : Transmission) (op : Op) : Prop where
  ahead : ∀ ops, t.ahead (op :: ops) = (t.step op).ahead ops
  writes : (t.step op).writes = t.writes
  results : (t.step op).answers.sslWrites = t.answers.sslWrites
  bytes : t.queued ++ op.data = (t.step op).queued

theorem step_cases (t : Transmission) (op : Op) :
    (∃ offer, Offering t op offer) ∨ Silent t op := by
  obtain ⟨⟨done, buf⟩, answers, passed, writes⟩ := t
  cases op with
  | write data =>
      cases done with
      | true =>
          refine .inl ⟨⟨passed.length, data⟩, fun ops => ?_, rfl, rfl,
            (List.append_nil _).symm⟩
          simp [ahead, offers, step, write]
      | false =>
          refine .inr ⟨fun ops => ?_, rfl, rfl, rfl⟩
          simp [ahead, offers, step, write]
  | handshake =>
      cases done with
      | true => exact .inr ⟨fun ops => rfl, rfl, rfl, rfl⟩
      | false =>
          obtain ⟨_, _, _, _, _, handshakes, _, _⟩ := answers
          cases handshakes with
          | nil =>
              exact .inr ⟨fun ops => rfl, rfl, rfl, List.append_nil _⟩
          | cons succeeded handshakes =>
              cases succeeded with
              | false =>
                  exact .inr ⟨fun ops => rfl, rfl, rfl, List.append_nil _⟩
              | true =>
                  cases buf with
                  | nil => exact .inr ⟨fun ops => rfl, rfl, rfl, rfl⟩
                  | cons byte buf =>
                      exact .inl ⟨⟨passed.length - (byte :: buf).length,
                        byte :: buf⟩, fun ops => rfl, rfl, rfl, rfl⟩

theorem writes_foldl (t : Transmission) (ops : List Op) :
    (ops.foldl step t).writes =
      t.writes ++ writtenAll (t.ahead ops) t.answers.sslWrites := by
  induction ops generalizing t with
  | nil => exact (List.append_nil _).symm
  | cons op ops induction =>
      rw [List.foldl_cons, induction]
      obtain ⟨offer, offering⟩ | silent := step_cases t op
      · rw [offering.ahead, offering.writes, offering.results,
          List.append_assoc]
        rfl
      · rw [silent.ahead, silent.writes, silent.results]

theorem passed_foldl (t : Transmission) (ops : List Op) :
    (ops.foldl step t).passed = t.passed ++ ops.flatMap Op.data := by
  induction ops generalizing t with
  | nil => exact (List.append_nil _).symm
  | cons op ops induction =>
      rw [List.foldl_cons, induction]
      cases op <;> simp [step, Op.data]

/-- Once the handshake is done, what was queued and what followed has been
offered. -/
theorem buffers_ahead (t : Transmission) (ops : List Op)
    (completed : (ops.foldl step t).connection.handshakeDone = true) :
    (t.ahead ops).flatMap Offer.buffer = t.queued ++ ops.flatMap Op.data := by
  induction ops generalizing t with
  | nil =>
      rw [List.foldl_nil] at completed
      unfold queued
      rw [completed]
      rfl
  | cons op ops induction =>
      rw [List.foldl_cons] at completed
      rw [List.flatMap_cons, ← List.append_assoc]
      obtain ⟨offer, offering⟩ | silent := step_cases t op
      · rw [offering.ahead, offering.bytes, List.flatMap_cons,
          induction _ completed, List.append_assoc]
      · rw [silent.ahead, silent.bytes, induction _ completed]

end Transmission

theorem chained_offers_done (passed : Nat) (queued : Bytes)
    (handshakes : List Bool) (ops : List Op) :
    Chained passed (offers true passed queued handshakes ops) := by
  induction ops generalizing passed with
  | nil => trivial
  | cons op ops induction =>
      cases op with
      | write data => exact ⟨rfl, induction _⟩
      | handshake => exact induction passed

theorem chained_offers (queued : Bytes) (handshakes : List Bool)
    (ops : List Op) :
    Chained 0 (offers false queued.length queued handshakes ops) := by
  induction ops generalizing queued handshakes with
  | nil => trivial
  | cons op ops induction =>
      cases op with
      | write data =>
          have next := induction (queued ++ data) handshakes
          rw [List.length_append] at next
          exact next
      | handshake =>
          cases handshakes with
          | nil => exact induction queued []
          | cons succeeded handshakes =>
              cases succeeded with
              | false => exact induction queued handshakes
              | true =>
                  have rest := chained_offers_done queued.length queued
                    handshakes ops
                  simp only [offers, Bool.false_eq_true, if_false]
                  split
                  · next empty => rwa [empty] at rest ⊢
                  · exact ⟨Nat.sub_self _, by rwa [Nat.zero_add]⟩

/-- A buffer that is accepted at once. -/
theorem written_whole (offer : Offer) (positive : 0 < offer.buffer.length)
    (results : List Int) :
    offer.written ((offer.buffer.length : Int) :: results) =
        ⟨offer, [(offer.buffer.length : Int)], offer.buffer.length⟩ ∧
      (writeLoop offer.buffer.length 0
        ((offer.buffer.length : Int) :: results)).2 = results := by
  constructor
  · simp [Offer.written, loopResults, writeLoop, positive]
  · simp [writeLoop, positive]

/-- Of a buffer that is not accepted at once the first bytes are offered once
more. -/
theorem loopResults_again {num result : Int} (positive : 0 < result)
    (less : result < num) (results : List Int) :
    ∃ again more,
      loopResults num 0 (result :: results) = result :: again :: more := by
  have loops : loopResults num 0 (result :: results) =
      result :: loopResults num (0 + result) results := by
    rw [loopResults, if_pos positive, if_pos (by omega)]
  cases results with
  | nil => exact ⟨-1, [], loops⟩
  | cons again results => exact ⟨again, _, loops⟩

open Transmission

/-- The loop offers the buffer from its beginning again, so nothing is sent
twice exactly if every buffer is accepted at once. -/
theorem seamless_iff_whole {next : Nat} {offers : List Offer}
    (chained : Chained next offers) {results : List Int}
    (fair : ∀ written ∈ writtenAll offers results,
      ∀ result ∈ written.results,
        0 < result ∧ result ≤ written.buffer.length) :
    Seamless next (calls (writtenAll offers results)) ↔
      offers.map (fun offer => (offer.buffer.length : Int)) <+: results := by
  induction offers generalizing next results with
  | nil => exact iff_of_true trivial List.nil_prefix
  | cons offer offers induction =>
      obtain ⟨rfl, chained⟩ := chained
      have here := fair _ List.mem_cons_self
      cases results with
      | nil =>
          have negative := (here (-1) List.mem_cons_self).1
          omega
      | cons result results =>
          obtain ⟨positive, fits⟩ := here result List.mem_cons_self
          change result ≤ offer.buffer.length at fits
          by_cases whole : result = offer.buffer.length
          · subst whole
            obtain ⟨written, left⟩ :=
              written_whole offer (by omega) results
            have rest := fun written member =>
              fair written (List.mem_cons_of_mem _ member)
            rw [left] at rest
            unfold writtenAll
            rw [left, written, List.map_cons, List.cons_prefix_cons]
            change offer.start = offer.start ∧ Seamless
                (offer.start + (offer.buffer.length : Int).toNat)
                (calls (writtenAll offers results)) ↔ _
            rw [Int.toNat_natCast, induction chained rest]
            exact ⟨fun same => ⟨rfl, same.2⟩, fun same => ⟨rfl, same.2⟩⟩
          · refine iff_of_false ?_ ?_
            · have less : result < (offer.buffer.length : Int) := by omega
              obtain ⟨again, more, loops⟩ :=
                loopResults_again positive less results
              have split : calls (writtenAll (offer :: offers)
                  (result :: results)) = (offer.start, result) ::
                    (offer.start, again) :: (more.map (offer.start, ·) ++
                      calls (writtenAll offers (writeLoop offer.buffer.length 0
                        (result :: results)).2)) := by
                simp [calls, writtenAll, Offer.written, loops]
              rw [split]
              rintro ⟨-, next, -⟩
              change offer.start = offer.start + result.toNat at next
              omega
            · rw [List.map_cons, List.cons_prefix_cons]
              exact fun same => whole same.1.symm

/-- Where every buffer is accepted at once, the writes return their lengths
and all bytes are accepted. -/
theorem accepted_of_whole {offers : List Offer} {results : List Int}
    (fair : ∀ written ∈ writtenAll offers results,
      ∀ result ∈ written.results,
        0 < result ∧ result ≤ written.buffer.length)
    (whole : offers.map (fun offer => (offer.buffer.length : Int)) <+:
      results) :
    accepted (writtenAll offers results) = offers.flatMap Offer.buffer ∧
      ∀ written ∈ writtenAll offers results,
        written.returned = written.buffer.length := by
  induction offers generalizing results with
  | nil => exact ⟨rfl, fun _ member => by cases member⟩
  | cons offer offers induction =>
      cases results with
      | nil => cases List.prefix_nil.mp whole
      | cons result results =>
          rw [List.map_cons, List.cons_prefix_cons] at whole
          obtain ⟨rfl, whole⟩ := whole
          have positive := (fair _ List.mem_cons_self _
            List.mem_cons_self).1
          obtain ⟨written, left⟩ :=
            written_whole offer (by omega) results
          have rest := fun written member =>
            fair written (List.mem_cons_of_mem _ member)
          rw [left] at rest
          obtain ⟨bytes, lengths⟩ := induction rest whole
          unfold writtenAll
          rw [left, written]
          constructor
          · rw [List.flatMap_cons, ← bytes]
            simp [accepted]
          · intro other member
            rcases List.mem_cons.mp member with rfl | member
            · rfl
            · exact lengths other member

/-- The sizes that are offered are what `SSL_write` accepts. -/
def AcceptedAtOnce (ops : List Op) (answers : Answers) : Prop :=
  (offers false 0 [] answers.sslHandshakes ops).map
    (fun offer => (offer.buffer.length : Int)) <+: answers.sslWrites

/-- Whatever is written before and after the handshake, in whatever parts
`SSL_write` accepts it: the data is delivered exactly if every buffer is
accepted at once. -/
theorem intact_iff (ops : List Op) (answers : Answers)
    (completed : (run ops answers).connection.handshakeDone = true)
    (fair : (run ops answers).Fair) :
    (run ops answers).Intact ↔ AcceptedAtOnce ops answers := by
  have writes : (run ops answers).writes = writtenAll
      (offers false 0 [] answers.sslHandshakes ops) answers.sslWrites :=
    writes_foldl { answers } ops
  have passed : (run ops answers).passed =
      (offers false 0 [] answers.sslHandshakes ops).flatMap Offer.buffer := by
    have all := buffers_ahead { answers } ops completed
    exact (passed_foldl { answers } ops).trans all.symm
  have chained : Chained 0 (offers false 0 [] answers.sslHandshakes ops) :=
    chained_offers [] answers.sslHandshakes ops
  unfold Fair at fair
  rw [writes] at fair
  constructor
  · intro intact
    have seamless := intact.seamless
    rw [writes] at seamless
    exact (seamless_iff_whole chained fair).mp seamless
  · intro whole
    obtain ⟨bytes, lengths⟩ := accepted_of_whole fair whole
    have seamless := (seamless_iff_whole chained fair).mpr whole
    rw [← writes] at bytes lengths seamless
    exact ⟨bytes.trans passed.symm, seamless, lengths⟩

/-- Two bytes before the handshake and two after it. -/
def acrossHandshake (sslWrites : List Int) : Transmission :=
  run [.write [97, 98], .handshake, .write [99, 100]]
    { sslHandshakes := [true], sslWrites }

theorem intact_iff_across : (acrossHandshake [2, 2]).Intact :=
  (intact_iff _ { sslHandshakes := [true], sslWrites := [2, 2] }
    (by decide) (by unfold Fair; decide)).mpr (by unfold AcceptedAtOnce; decide)

/-- Of four bytes two are accepted, and the first two are sent again. -/
theorem partial_write_repeats :
    ¬ ∀ (ops : List Op) (answers : Answers),
      (run ops answers).connection.handshakeDone = true →
      (run ops answers).Fair → (run ops answers).Intact := by
  intro all
  have intact := all [.handshake, .write [97, 98, 99, 100]]
    { sslHandshakes := [true], sslWrites := [2, 2] } (by decide)
    (by unfold Fair; decide)
  have repeated : accepted (run [.handshake, .write [97, 98, 99, 100]]
      { sslHandshakes := [true], sslWrites := [2, 2] }).writes =
        [97, 98, 97, 98] := by
    decide
  have bytes := intact.bytes
  rw [repeated] at bytes
  revert bytes
  decide

end Universe.SSLConnection
