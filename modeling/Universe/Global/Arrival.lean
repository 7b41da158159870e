import Universe.Global

/-!
# What the parent reads of a channel

A frame is read only when more bytes than it has are there.  So the parent is
told less than was written, however the channel is cut.
-/

namespace Universe

open Stepwise
open Std (ExtTreeMap)

namespace Global

/-- The bytes of the frames of these calls. -/
def size (calls : List Call) : Nat := (calls.map (8 + ·.2.length)).sum

theorem size_append (first second : List Call) :
    size (first ++ second) = size first + size second := by
  simp [size]

/-- The frame of a call. -/
def frame (call : Call) : Bytes :=
  htonl (ClientServer.totalSize call.2.length) ++ (htonl call.1 ++ call.2)

theorem writeGlobal_foreign {τ : Type} {parent : Fd} {sessionId : SessionId}
    {child : Child τ} (isChild : child.server.isChild = true)
    (foreign : child.server.s2c[sessionId]? = none) (data : Bytes) :
    ClientServer.writeGlobal (childHost parent) sessionId data child =
      ((data.length : Int), { child with
        written := child.written ++
          [(parent, htonl (ClientServer.totalSize data.length))] ++
          [(parent, htonl sessionId)] ++ [(parent, data)] }) := by
  simp only [ClientServer.writeGlobal, bind, StateT.bind, childHost_own,
    foreign, isChild]
  rfl

/-- What a child writes for calls to sessions it does not have. -/
theorem channel_request {τ : Type} {parent : Fd} {calls : List Call}
    {child : Child τ} (isChild : child.server.isChild = true)
    (foreign : ∀ call ∈ calls, child.server.s2c[call.1]? = none) :
    channel parent (request parent calls child).2.written =
      channel parent child.written ++ calls.flatMap frame := by
  induction calls generalizing child with
  | nil => exact (List.append_nil _).symm
  | cons call calls induction =>
      obtain ⟨sessionId, data⟩ := call
      obtain ⟨here, later⟩ := List.forall_mem_cons.mp foreign
      have step : request parent ((sessionId, data) :: calls) child =
          request parent calls (ClientServer.writeGlobal (childHost parent)
            sessionId data child).2 := rfl
      rw [step, writeGlobal_foreign isChild here,
        induction (by exact isChild) (by exact later)]
      simp [channel, frame, List.filter_append]

theorem length_frames (calls : List Call) :
    (calls.flatMap frame).length = size calls := by
  induction calls with
  | nil => rfl
  | cons call calls induction =>
      have here : (frame call).length = 8 + call.2.length := by
        simp only [frame, List.length_append, Protocol.length_htonl]
        omega
      simp [size, here] at induction ⊢
      omega

/-- Fewer bytes were written than read, unless none were written. -/
def Lags (before : List Call) (read : Nat) (after : List Call) : Prop :=
  after = before ∨ size after + 4 ≤ size before + read

theorem Lags.trans {before between after : List Call} {first second : Nat}
    (begun : Lags before first between) (ended : Lags between second after) :
    Lags before (first + second) after := by
  rcases begun with rfl | begun
  · rcases ended with rfl | ended
    · exact .inl rfl
    · exact .inr (by omega)
  · rcases ended with rfl | ended
    · exact .inr (by omega)
    · exact .inr (by omega)

/-- One delivery, where the server has no buffer for the child. -/
theorem onMessage_lags {depth : Nat} {child : Fd} {message : Bytes}
    {s : Parent} (unbuffered : s.server[child]? = none) :
    Returns (onMessage parentHost depth child message) s fun _ after =>
      after.server[child]? = none ∧ Lags s.calls message.length after.calls := by
  induction depth generalizing message s with
  | zero => exact returns_throw
  | succ depth induction =>
      have kept : s.server.appendBuf child message = (message, s.server) := by
        simp [Bufferable.appendBuf, unbuffered]
      unfold onMessage
      apply returns_modifyGet_bind
      rw [kept]
      dsimp only
      cases first : Protocol.readUint32 message with
      | none =>
          apply returns_modifyGet_bind
          exact returns_pure ⟨unbuffered, .inl rfl⟩
      | some read =>
          obtain ⟨totalSize, rest⟩ := read
          have longer := Protocol.length_of_readUint32 first
          apply returns_modifyGet_bind
          dsimp only
          split
          · exact returns_pure ⟨unbuffered, .inl rfl⟩
          · next enough =>
              have present : totalSize.toNat ≤ rest.length := by
                by_contra short
                exact enough (by simp [Bufferable.needBuf, Nat.lt_of_not_le short])
              cases Protocol.readUint32 rest with
              | none => exact returns_throw
              | some read =>
                  obtain ⟨sessionId, later⟩ := read
                  dsimp only
                  split
                  · exact returns_throw
                  split
                  · exact returns_throw
                  · next inside =>
                      simp only [Bool.or_eq_true, decide_eq_true_eq, not_or,
                        Nat.not_lt] at inside
                      have taken : size (s.calls ++ [(sessionId,
                          (later.drop 8).take (totalSize.toNat - 8))]) =
                          size s.calls + totalSize.toNat := by
                        rw [size_append]
                        simp only [size, List.map_cons, List.map_nil,
                          List.sum_cons, List.sum_nil, List.length_take]
                        omega
                      apply returns_modify_bind
                      split
                      · apply (induction (by exact unbuffered)).weaken
                        rintro _ after ⟨stays, lags⟩
                        refine ⟨stays, .inr ?_⟩
                        rw [List.length_drop] at lags
                        rcases lags with same | lags
                        · rw [same, taken]
                          omega
                        · rw [taken] at lags
                          omega
                      · refine returns_pure ⟨unbuffered, .inr ?_⟩
                        rw [taken]
                        omega

/-- All deliveries of a child. -/
theorem deliver_lags {depth : Nat} {child : Fd} {pieces : List Bytes}
    {s : Parent} (unbuffered : s.server[child]? = none) :
    Returns (deliver depth child pieces) s fun _ after =>
      Lags s.calls pieces.flatten.length after.calls := by
  induction pieces generalizing s with
  | nil => exact returns_pure (.inl rfl)
  | cons piece pieces induction =>
      apply returns_bind (onMessage_lags unbuffered)
      rintro _ between ⟨stays, begun⟩
      apply (induction stays).weaken
      intro _ after ended
      rw [List.flatten_cons, List.length_append]
      exact begun.trans ended

/-- Deliveries without a byte. -/
theorem deliver_empty {depth : Nat} {child : Fd} {pieces : List Bytes}
    {s : Parent} (unbuffered : s.server[child]? = none)
    (empty : pieces.flatten = []) :
    ∃ after, deliver (depth + 1) child pieces s = .ok () after ∧
      after.calls = s.calls := by
  induction pieces generalizing s with
  | nil => exact ⟨s, rfl, rfl⟩
  | cons piece pieces induction =>
      obtain ⟨rfl, later⟩ := List.append_eq_nil_iff.mp empty
      have kept : s.server.appendBuf child [] = ([], s.server) := by
        simp [Bufferable.appendBuf, unbuffered]
      have first : onMessage parentHost (depth + 1) child [] s = .ok ()
          { s with own := (s.own.needBuf child [] true).2 } := by
        have appended : parentHost.appendBuf child [] s = .ok [] s := by
          change EStateM.Result.ok (s.server.appendBuf child []).1
            { s with server := (s.server.appendBuf child []).2 } = _
          rw [kept]
        unfold onMessage
        rw [bind_of_ok appended]
        rfl
      have unbuffered : { s with
          own := (s.own.needBuf child [] true).2 }.server[child]? = none :=
        unbuffered
      obtain ⟨after, delivered, same⟩ := induction unbuffered later
      refine ⟨after, ?_, same⟩
      unfold deliver
      rw [bind_of_ok first, delivered]

/-- The parent writes what a child has asked for only when it has asked for
nothing, however the bytes of the channel are cut. -/
theorem requests_arrive_iff {τ : Type} (parent child : Fd)
    {worker : ClientServer τ} (isChild : worker.isChild = true)
    (calls : List Call)
    (foreign : ∀ call ∈ calls, worker.s2c[call.1]? = none)
    (pieces : List Bytes)
    (cut : pieces.flatten =
      channel parent (request parent calls { server := worker }).2.written)
    (depth : Nat) :
    (∃ after, deliver (depth + 1) child pieces {} = .ok () after ∧
      after.calls = calls) ↔ calls = [] := by
  rw [channel_request (by exact isChild) foreign] at cut
  have written : pieces.flatten = calls.flatMap frame := by
    simpa [channel] using cut
  constructor
  · rintro ⟨after, delivered, same⟩
    have lags := (deliver_lags (by simp)).holds _ _ delivered
    rw [written, length_frames, same] at lags
    rcases lags with none | short
    · exact none
    · have nothing : size ({} : Parent).calls = 0 := rfl
      omega
  · rintro rfl
    exact deliver_empty (by simp) written

/-- A worker without clients of its own. -/
def sampleWorker : ClientServer Unit where
  isChild := true

/-- Two calls of it. -/
def sampleCalls : List Call := [(7, ascii "a"), (7, ascii "b")]

theorem requests_arrive_iff_sample :
    (∃ after, deliver 3 5 [sampleCalls.flatMap frame] {} = .ok () after ∧
      after.calls = sampleCalls) ↔ sampleCalls = [] :=
  requests_arrive_iff 4 5 (show sampleWorker.isChild = true from rfl) sampleCalls
    (by decide) [sampleCalls.flatMap frame] (by decide +kernel) 2

/-- The first of two frames is written to its client with a byte of the second,
and the second one is lost. -/
theorem requests_are_lost :
    ¬∃ after, deliver 3 5 [channel 4
        (request 4 sampleCalls { server := sampleWorker }).2.written] {} =
      .ok () after ∧ after.calls = sampleCalls := by
  rintro ⟨after, delivered, same⟩
  have mangled : (final (deliver 3 5 [channel 4
      (request 4 sampleCalls { server := sampleWorker }).2.written] {})).calls =
      [(7, [7])] := by decide +kernel
  rw [delivered] at mangled
  rw [show after.calls = [(7, [7])] from mangled] at same
  exact absurd same (by decide)

end Global

end Universe
