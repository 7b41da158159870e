import Universe.Redis.Replies

/-!
# Callbacks and the replies to their commands

When every command has a callback, each callback is called once, with the reply
to its own command.  A command without one shifts the replies to the later
commands, unless its reply comes before they are issued and ends a delivery.
-/

namespace Universe

open Incremental Protocol

namespace Redis

variable {κ : Type}

/-- The calls of callbacks. -/
def calls (trace : List (RedisReaction κ)) : List (κ × RedisReply) :=
  trace.filterMap fun
    | .called callback r => some (callback, r)
    | _ => none

/-- The calls in which every callback gets the reply to its own command. -/
def owned (issued : List (Issued κ)) (answers : List Resp) :
    List (κ × RedisReply) :=
  (issued.zip answers).filterMap fun (command, r) =>
    command.callback.map (·, r.toReply)

theorem calls_seen (commands : List (Issued κ)) (replies : List Resp) :
    calls (seen commands replies) = owned commands replies := by
  unfold calls seen owned
  rw [List.filterMap_flatMap]
  induction commands.zip replies with
  | nil => rfl
  | cons pair pairs induction =>
      obtain ⟨command, r⟩ := pair
      rw [List.flatMap_cons, induction, List.filterMap_cons]
      cases has : command.callback with
      | none => simp [reaction, has]
      | some callback => simp [reaction, has]

/-- The replies that have come are the first ones. -/
theorem owned_take (issued : List (Issued κ)) (answers : List Resp)
    (count : Nat) :
    owned (issued.take count) (answers.take count) <+: owned issued answers := by
  unfold owned
  rw [List.zip_eq_zipWith, ← List.take_zipWith]
  exact (List.take_prefix _ _).filterMap _

theorem inTurn_iff_forall {issued : List (Issued κ)} :
    InTurn issued ↔ ∀ number : Fin issued.length,
      issued[number].callback.isSome →
        ∀ earlier ∈ (issued.take number).drop issued[number].dealt,
          earlier.callback.isSome := by
  constructor
  · intro inTurn number
    apply inTurn (issued.take number) issued[number] (issued.drop (number + 1))
    simp
  · intro all before command after split
    subst split
    have last := all ⟨before.length, by simp⟩
    simpa using last

instance (issued : List (Issued κ)) : Decidable (InTurn issued) :=
  decidable_of_iff _ inTurn_iff_forall.symm

theorem ends_iff_forall {client : Fd} {s : Session κ} {size : Nat} :
    Ends client s size ↔ ∀ number : Fin s.answers.length,
      dealt s.connection.trace ≤ number →
      (∀ command ∈ s.issued[number.val]?, command.callback.isNone →
        (s.connection.remainder client ++ s.stream.take size).length ≤
          (((s.answers.take (number + 1)).drop
            (dealt s.connection.trace)).flatMap Resp.encode).length) := by
  constructor
  · intro ends number low command found isNone
    exact ends number command found (Option.isNone_iff_eq_none.mp isNone) low
      number.isLt
  · intro all number command found without low high
    exact all ⟨number, high⟩ low command found
      (Option.isNone_iff_eq_none.mpr without)

instance (client : Fd) (s : Session κ) (size : Nat) :
    Decidable (Ends client s size) :=
  decidable_of_iff _ ends_iff_forall.symm

section Sessions

variable {maxSize : Nat} {program : Program κ} {client : Fd}

/-- Where every command has a callback, every step is careful. -/
theorem careful_of_called {before after : Session κ} {event : Event κ}
    (earlier : ∀ command ∈ before.issued, command.callback.isSome)
    (later : ∀ command ∈ after.issued, command.callback.isSome) :
    Careful client before event after := by
  constructor
  · intro first command rest split _ other member
    apply later other
    rw [split]
    exact List.mem_append_left _ (List.mem_of_mem_drop member)
  · intro size _ number command found without
    have has := earlier command (List.mem_of_getElem? found)
    rw [without] at has
    cases has

/-- Nothing is left once every reply has arrived whole. -/
theorem Orderly.all_dealt {s : Session κ} (orderly : Orderly maxSize client s)
    (arrived : s.stream = []) :
    dealt s.connection.trace = s.answers.length := by
  have bytes := orderly.bytes
  have early := orderly.early
  rw [arrived, List.append_nil] at bytes
  rw [bytes] at early
  cases rest : s.answers.drop (dealt s.connection.trace) with
  | nil =>
      have within := orderly.within
      have past := List.drop_eq_nil_iff.mp rest
      omega
  | cons r later =>
      have valid : r.Valid maxSize := by
        apply orderly.valid r
        apply List.mem_of_mem_drop (i := dealt s.connection.trace)
        rw [rest]
        exact List.mem_cons_self
      rw [rest, List.flatMap_cons, (parseResponse_encode valid).1] at early
      cases early

end Sessions

/-- When every command is issued with a callback, the replies that have arrived
whole were given to the callbacks of their commands, one after the other, each
followed by `ON_PACKET_OK` with the id of the command.  The bytes of the others
wait or are on the way. -/
theorem redis_replies_in_order {maxSize : Nat} {program : Program κ}
    {client : Fd} {others : RedisCallbacks κ} (fresh : others[client]? = none)
    {s : Session κ}
    (reached : Reached maxSize program client
      (fun _ _ after => ∀ command ∈ after.issued, command.callback.isSome)
      (started others) s) :
    s.connection.status = .opened ∧ ∃ count ≤ s.answers.length,
      s.answers.length ≤ s.issued.length ∧
      (∀ command ∈ s.issued, command.callback.isSome) ∧
      s.connection.trace =
        seen (s.issued.take count) (s.answers.take count) ∧
      s.connection.remainder client ++ s.stream =
        (s.answers.drop count).flatMap Resp.encode ∧
      parseResponse maxSize (s.connection.remainder client) = .error .ag ∧
      (s.stream = [] → count = s.answers.length) := by
  have kept : Orderly maxSize client s ∧
      ∀ command ∈ s.issued, command.callback.isSome := by
    apply Stepwise.invariant_of_steps _ reached
    · refine ⟨orderly_started fresh, ?_⟩
      intro command member
      cases member
    · intro before after holds step
      obtain ⟨orderly, earlier⟩ := holds
      obtain ⟨event, possible, rfl, later⟩ := step
      exact ⟨orderly_next orderly possible (careful_of_called earlier later),
        later⟩
  obtain ⟨orderly, all⟩ := kept
  exact ⟨orderly.synced.isOpen, dealt s.connection.trace, orderly.within,
    orderly.answered, all, orderly.trace, orderly.bytes, orderly.early,
    orderly.all_dealt⟩

/-- A command that is written at once. -/
def sampleCall (byte : UInt8) (key : String) (callback : Option String) :
    Call String where
  requestId := .filled byte
  packet := packetGet (ascii key)
  callback
  takes := 100
  checked := true

/-- The callback `first` gets another key. -/
def sampleProgram : Program String := fun _ callback _ =>
  if callback = "first" then [sampleCall 3 "c" (some "third")] else []

/-- Two commands, a third one from a callback, and replies that are cut within
the second one. -/
def sampleEvents : List (Event String) :=
  [.issue (sampleCall 1 "a" (some "first")),
    .issue (sampleCall 2 "b" (some "second")), .answer (.simple (ascii "OK")),
    .answer (.bulk (ascii "xy")), .deliver 8, .answer .null, .deliver 100]

def sampleSession : Session String :=
  sampleEvents.foldl (next 100 sampleProgram 6) (started ∅)

theorem cut_replies_in_order :
    calls sampleSession.connection.trace =
      [("first", ⟨43, ascii "OK", []⟩), ("second", ⟨36, ascii "xy", []⟩),
        ("third", ⟨32, [], []⟩)] := by
  have admits : Admits 100 sampleProgram 6
      (fun _ _ after => ∀ command ∈ after.issued, command.callback.isSome)
      (started ∅) sampleEvents := by
    refine ⟨rfl, by decide +kernel, rfl, by decide +kernel,
      ⟨by simp [Resp.Valid, ascii], by decide +kernel, by decide +kernel⟩,
      by decide +kernel, ⟨?_, by decide +kernel, by decide +kernel⟩,
      by decide +kernel, trivial, by decide +kernel,
      ⟨trivial, by decide +kernel, by decide +kernel⟩, by decide +kernel,
      trivial, by decide +kernel, trivial⟩
    exact ⟨by decide, by decide⟩
  obtain ⟨_, count, _, _, _, trace, _, _, whole⟩ :=
    redis_replies_in_order (by simp) (reached_of_admits admits)
  have all : count = 3 := whole (by decide +kernel)
  unfold sampleSession
  rw [trace, all, calls_seen]
  decide +kernel

/-- In a session of careful steps every callback that is called gets the reply
to its own command. -/
theorem callbacks_get_own_replies {maxSize : Nat} {program : Program κ}
    {client : Fd} {others : RedisCallbacks κ} (fresh : others[client]? = none)
    {s : Session κ}
    (reached : Reached maxSize program client (Careful client)
      (started others) s) :
    calls s.connection.trace <+: owned s.issued s.answers := by
  have orderly := orderly_reached fresh reached
  rw [orderly.trace, calls_seen]
  exact owned_take _ _ _

/-- The reply to a command without a callback comes before the next command. -/
def sampleCareful : List (Event String) :=
  [.issue (sampleCall 1 "a" none), .answer (.simple (ascii "OK")), .deliver 100,
    .issue (sampleCall 2 "b" (some "second")), .answer (.bulk (ascii "xy")),
    .deliver 100]

theorem careful_session_not_shifted :
    calls (sampleCareful.foldl (next 100 sampleProgram 6)
      (started ∅)).connection.trace <+: [("second", ⟨36, ascii "xy", []⟩)] := by
  have admits : Admits 100 sampleProgram 6 (Careful 6) (started ∅)
      sampleCareful := by
    refine ⟨rfl, ⟨by decide +kernel, ?_⟩,
      ⟨by simp [Resp.Valid, ascii], by decide +kernel, by decide +kernel⟩,
      ⟨by decide +kernel, ?_⟩, trivial, ⟨by decide +kernel, ?_⟩,
      by change _ = Status.opened; decide +kernel, ⟨by decide +kernel, ?_⟩,
      ⟨⟨by decide, by decide⟩, by decide +kernel, by decide +kernel⟩,
      ⟨by decide +kernel, ?_⟩, trivial, ⟨by decide +kernel, ?_⟩, trivial⟩
    all_goals rintro size ⟨⟩
    · decide +kernel
    · decide +kernel
  exact callbacks_get_own_replies (by simp) (reached_of_admits admits)

/-- The reply to a command without a callback is given to the callback of the
next command. -/
theorem reply_shifted : ∃ s : Session String,
    Reached 100 sampleProgram 6 (fun _ _ _ => True) (started ∅) s ∧
      calls s.connection.trace = [("second", ⟨43, ascii "OK", []⟩)] ∧
      owned s.issued s.answers = [("second", ⟨36, ascii "xy", []⟩)] ∧
      ¬ calls s.connection.trace <+: owned s.issued s.answers := by
  let events : List (Event String) :=
    [.issue (sampleCall 1 "a" none), .issue (sampleCall 2 "b" (some "second")),
      .answer (.simple (ascii "OK")), .answer (.bulk (ascii "xy")),
      .deliver 100]
  have admits : Admits 100 sampleProgram 6 (fun _ _ _ => True) (started ∅)
      events := by
    refine ⟨rfl, trivial, rfl, trivial,
      ⟨by simp [Resp.Valid, ascii], by decide +kernel, by decide +kernel⟩, trivial,
      ⟨?_, by decide +kernel, by decide +kernel⟩, trivial, trivial, trivial,
      trivial⟩
    exact ⟨by decide, by decide⟩
  refine ⟨_, reached_of_admits admits, ?_, ?_, ?_⟩
  · decide +kernel
  · decide +kernel
  · decide +kernel

end Redis

end Universe
