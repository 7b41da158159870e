import Universe.Proxy.Pairing

/-!
# What passes through a tunnel

From the moment a client is accepted, what it sends is kept until its
connection is made, and all of it has been written to its remote afterwards, in
order and once; what the remote sends is written to the client as it comes.
-/

namespace Universe

open Stepwise Server
open Std (ExtTreeMap)

namespace Proxy

variable {remoteAddressList : List Address} {s after : Server Tunnels}
  {client remote : Fd} {start : Nat} {made : Bool} {sent : Bytes}
  {heard : List Bytes}

/-- What was written to a descriptor since so many writes. -/
def writtenTo (fd : Fd) (start : Nat) (s : Server Tunnels) : List Bytes :=
  ((s.written.drop start).filter (·.fd = fd)).map (·.data)

/-- What a client sends in an event. -/
def sends (client : Fd) : Server.Event Unit → Bytes
  | .message other piece _ => if other = client then piece else []
  | _ => []

/-- What a remote sends in an event. -/
def hears (remote : Fd) : Server.Event Unit → List Bytes
  | .remoteMessage other piece _ => if other = remote then [piece] else []
  | _ => []

/-- The connection is made in an event. -/
def makes (remote : Fd) : Server.Event Unit → Bool
  | .connected other _ => decide (other = remote)
  | _ => false

/-- The states in which a client is served, and the one in which it is closed:
how much was written before it was accepted, whether its connection is made, and
what the client and its remote have sent since. -/
inductive Serving (remoteAddressList : List Address)
    (condition : Server Tunnels → Server.Event Unit → Prop)
    (client remote : Fd) :
    Nat → Bool → Bytes → List Bytes → Server Tunnels → Prop where
  | accept {s after : Server Tunnels} {world : Surroundings Unit} {made : Bool}
      (reached : Reached (service remoteAddressList) condition s)
      (allowed : s.Allows (.accept client world))
      (meets : condition s (.accept client world))
      (attempt : world.attempt =
        some (if made then .immediate remote else .pending remote))
      (unbuffered : s.bufferable[client]? = none)
      (returned : perform (service remoteAddressList) (.accept client world) s =
        .ok () after) :
      Serving remoteAddressList condition client remote s.written.length made []
        [] after
  | step {s after : Server Tunnels} {event : Server.Event Unit} {start : Nat}
      {made : Bool} {sent : Bytes} {heard : List Bytes}
      (earlier : Serving remoteAddressList condition client remote start made
        sent heard s)
      (isClient : s.roles[client]? = some .client) (allowed : s.Allows event)
      (meets : condition s event)
      (returned : perform (service remoteAddressList) event s = .ok () after) :
      Serving remoteAddressList condition client remote start
        (made || makes remote event) (sent ++ sends client event)
        (heard ++ hears remote event) after

theorem Serving.reached {condition : Server Tunnels → Server.Event Unit → Prop}
    (serving : Serving remoteAddressList condition client remote start made sent
      heard s) : Reached (service remoteAddressList) condition s := by
  induction serving with
  | accept reached allowed meets attempt unbuffered returned =>
      exact reached.step allowed meets returned
  | step earlier isClient allowed meets returned induction =>
      exact induction.step allowed meets returned

/-- What was written since a client was accepted, and what is kept for it. -/
structure Carried (client remote : Fd) (start : Nat) (made : Bool) (sent : Bytes)
    (heard : List Bytes) (s : Server Tunnels) : Prop where
  enough : start ≤ s.written.length
  pair : s.roles[client]? = some .client →
    s.own.c2r[client]? = some remote ∧
      (s.own.stateful.getState client = .connected ↔ made = true)
  answered : writtenTo client start s = heard
  passed : made = true →
    (writtenTo remote start s).flatten = sent ∧ s.bufferable[client]? = none
  kept : made = false → writtenTo remote start s = [] ∧
    (s.roles[client]? = some .client →
      (s.bufferable[client]?).getD [] = sent)

/-- Nothing changes for a pair, and nothing is written to it. -/
structure Elsewhere (client remote : Fd) (s after : Server Tunnels) :
    Prop where
  state : after.own.stateful[client]? = s.own.stateful[client]?
  pair : after.own.c2r[client]? = s.own.c2r[client]?
  buffer : after.bufferable[client]? = s.bufferable[client]?
  written : ∃ more : List Writing, after.written = s.written ++ more ∧
    ∀ writing ∈ more, writing.fd ≠ client ∧ writing.fd ≠ remote

theorem writtenTo_append {fd : Fd} {more : List Writing}
    (enough : start ≤ s.written.length)
    (written : after.written = s.written ++ more) :
    writtenTo fd start after = writtenTo fd start s ++
      (more.filter (·.fd = fd)).map (·.data) := by
  unfold writtenTo
  rw [written, List.drop_append_of_le_length enough, List.filter_append,
    List.map_append]

theorem writtenTo_elsewhere {fd : Fd} {more : List Writing}
    (enough : start ≤ s.written.length)
    (written : after.written = s.written ++ more)
    (others : ∀ writing ∈ more, writing.fd ≠ fd) :
    writtenTo fd start after = writtenTo fd start s := by
  have none : more.filter (·.fd = fd) = [] := by
    apply List.filter_eq_nil_iff.mpr
    intro writing member
    simpa using others writing member
  rw [writtenTo_append enough written, none]
  exact List.append_nil _

theorem writtenTo_write {fd : Fd} {writing : Writing}
    (enough : start ≤ s.written.length) :
    writtenTo fd start { s with written := s.written ++ [writing] } =
      writtenTo fd start s ++ if writing.fd = fd then [writing.data] else [] := by
  have appended : ({ s with written := s.written ++ [writing] } :
      Server Tunnels).written = s.written ++ [writing] := rfl
  rw [writtenTo_append enough appended]
  by_cases same : writing.fd = fd
  · simp [same]
  · simp [same]

namespace Carried

theorem elsewhere (carried : Carried client remote start made sent heard s)
    (isClient : s.roles[client]? = some .client)
    (elsewhere : Elsewhere client remote s after) :
    Carried client remote start made sent heard after := by
  obtain ⟨more, written, others⟩ := elsewhere.written
  have toClient := writtenTo_elsewhere carried.enough written
    fun writing member => (others writing member).1
  have toRemote := writtenTo_elsewhere carried.enough written
    fun writing member => (others writing member).2
  have sameState : after.own.stateful.getState client =
      s.own.stateful.getState client := by
    unfold Stateful.getState
    rw [elsewhere.state]
  constructor
  · rw [written, List.length_append]
    exact Nat.le_add_right_of_le carried.enough
  · intro _
    rw [elsewhere.pair, sameState]
    exact carried.pair isClient
  · rw [toClient]
    exact carried.answered
  · rw [toRemote, elsewhere.buffer]
    exact carried.passed
  · intro unmade
    rw [toRemote, elsewhere.buffer]
    obtain ⟨unwritten, kept⟩ := carried.kept unmade
    exact ⟨unwritten, fun _ => kept isClient⟩

/-- The client is closed. -/
theorem dropped (carried : Carried client remote start made sent heard s)
    (dropped : Dropped client remote s after) :
    Carried client remote start made sent heard after := by
  have gone : after.roles[client]? ≠ some .client := by
    rw [dropped.roles, if_pos (.inl rfl)]
    simp
  have same : ∀ fd : Fd, writtenTo fd start after = writtenTo fd start s := by
    intro fd
    unfold writtenTo
    rw [dropped.written]
  constructor
  · rw [dropped.written]
    exact carried.enough
  · exact fun isClient => absurd isClient gone
  · rw [same]
    exact carried.answered
  · intro isMade
    rw [same, dropped.bufferable, if_pos rfl]
    exact ⟨(carried.passed isMade).1, rfl⟩
  · intro unmade
    rw [same]
    exact ⟨(carried.kept unmade).1, fun isClient => absurd isClient gone⟩

/-- A message is written to the remote. -/
theorem wrote (carried : Carried client remote start true sent heard s)
    (apart : remote ≠ client) {piece : Bytes} {broken : Bool} :
    Carried client remote start true (sent ++ piece) heard
      { s with written := s.written ++ [⟨remote, piece, broken⟩] } := by
  constructor
  · rw [List.length_append]
    exact Nat.le_add_right_of_le carried.enough
  · exact carried.pair
  · rw [writtenTo_write carried.enough, if_neg apart, List.append_nil]
    exact carried.answered
  · intro _
    obtain ⟨passed, unbuffered⟩ := carried.passed rfl
    rw [writtenTo_write carried.enough, if_pos rfl]
    refine ⟨?_, unbuffered⟩
    simp [passed]
  · exact fun never => by cases never

/-- A message is written to the client. -/
theorem answer (carried : Carried client remote start made sent heard s)
    (apart : remote ≠ client) {piece : Bytes} {broken : Bool} :
    Carried client remote start made sent (heard ++ [piece])
      { s with written := s.written ++ [⟨client, piece, broken⟩] } := by
  have toRemote : writtenTo remote start
      { s with written := s.written ++ [⟨client, piece, broken⟩] } =
        writtenTo remote start s := by
    rw [writtenTo_write carried.enough, if_neg (Ne.symm apart), List.append_nil]
  constructor
  · rw [List.length_append]
    exact Nat.le_add_right_of_le carried.enough
  · exact carried.pair
  · rw [writtenTo_write carried.enough, carried.answered, if_pos rfl]
  · rw [toRemote]
    exact carried.passed
  · rw [toRemote]
    exact carried.kept

/-- A write may have closed both sides. -/
theorem closes {writing : Writing}
    (carried : Carried client remote start made sent heard
      { s with written := s.written ++ [writing] })
    (wrote : Wrote client remote writing s after) :
    Carried client remote start made sent heard after := by
  unfold Wrote at wrote
  split at wrote
  · exact carried.dropped wrote
  · rw [wrote]
    exact carried

/-- The connection is made, and what was kept is written. -/
theorem connected (carried : Carried client remote start false sent heard s)
    (apart : remote ≠ client) (isClient : s.roles[client]? = some .client)
    (pair : s.own.c2r[client]? = some remote)
    (isConnected : Made client remote s after) :
    Carried client remote start true sent heard after := by
  obtain ⟨unwritten, kept⟩ := carried.kept rfl
  have kept := kept isClient
  constructor
  · rw [isConnected.written, List.length_append]
    exact Nat.le_add_right_of_le carried.enough
  · intro _
    rw [isConnected.c2r]
    refine ⟨pair, iff_of_true ?_ rfl⟩
    unfold Stateful.getState
    rw [isConnected.states, if_pos rfl]
    rfl
  · rw [writtenTo_elsewhere carried.enough isConnected.written]
    · exact carried.answered
    · intro writing member
      cases buffered : s.bufferable[client]? with
      | none => simp [buffered] at member
      | some data =>
          have same : writing = ⟨remote, data, false⟩ := by
            simpa [buffered] using member
          rw [same]
          exact apart
  · intro _
    rw [writtenTo_append carried.enough isConnected.written, unwritten,
      isConnected.bufferable, if_pos rfl, ← kept]
    refine ⟨?_, rfl⟩
    cases buffered : s.bufferable[client]? with
    | none => rfl
    | some data => simp
  · exact fun never => by cases never

end Carried

section Others

variable {another served : Fd}

theorem elsewhere_dropped (different : another ≠ client)
    (dropped : Dropped another served s after) :
    Elsewhere client remote s after := by
  refine ⟨?_, ?_, ?_, [], ?_, by simp⟩
  · rw [dropped.states, if_neg different]
  · rw [dropped.c2r, ExtTreeMap.getElem?_erase, if_neg (by simpa using different)]
  · rw [dropped.bufferable, if_neg different]
  · rw [dropped.written, List.append_nil]

theorem elsewhere_wrote (different : another ≠ client) {writing : Writing}
    (fd : writing.fd ≠ client ∧ writing.fd ≠ remote)
    (wrote : Wrote another served writing s after) :
    Elsewhere client remote s after := by
  have others : ∀ other ∈ [writing], other.fd ≠ client ∧ other.fd ≠ remote := by
    intro other member
    rw [List.mem_singleton.mp member]
    exact fd
  unfold Wrote at wrote
  split at wrote
  · have elsewhere : Elsewhere client remote _ after :=
      elsewhere_dropped different wrote
    exact ⟨elsewhere.state, elsewhere.pair, elsewhere.buffer, [writing],
      wrote.written, others⟩
  · rw [wrote]
    exact ⟨rfl, rfl, rfl, [writing], rfl, others⟩

theorem elsewhere_made (different : another ≠ client)
    (fd : served ≠ client ∧ served ≠ remote) (made : Made another served s after) :
    Elsewhere client remote s after := by
  refine ⟨?_, ?_, ?_, _, made.written, ?_⟩
  · rw [made.states, if_neg different]
  · rw [made.c2r]
  · rw [made.bufferable, if_neg different]
  · intro writing member
    cases buffered : s.bufferable[another]? with
    | none => simp [buffered] at member
    | some data =>
        have same : writing = ⟨served, data, false⟩ := by
          simpa [buffered] using member
        rw [same]
        exact fd

theorem elsewhere_accepted {role : Role} {state : ConnectState}
    (different : another ≠ client)
    (accepted : Accepted another served role state s after) :
    Elsewhere client remote s after := by
  refine ⟨?_, ?_, ?_, [], ?_, by simp⟩
  · rw [accepted.states, if_neg different]
  · rw [accepted.c2r, ExtTreeMap.getElem?_insert,
      if_neg (by simpa using different)]
  · rw [accepted.bufferable]
  · rw [accepted.written, List.append_nil]

theorem elsewhere_rejected (different : another ≠ client)
    (rejected : Rejected another served s after) :
    Elsewhere client remote s after := by
  refine ⟨?_, ?_, ?_, [], ?_, by simp⟩
  · rw [rejected.states, if_neg different]
  · rw [rejected.c2r]
  · rw [rejected.bufferable, if_neg different]
  · rw [rejected.written, List.append_nil]

end Others

/-- Both sides of a tunnel are served by the events that are about them. -/
theorem Carried.followed {event : Server.Event Unit}
    (carried : Carried client remote start made sent heard s)
    (coupled : Coupled s) (isClient : s.roles[client]? = some .client)
    (allowed : s.Allows event) (effect : Effect s event after) :
    Carried client remote start (made || makes remote event)
      (sent ++ sends client event) (heard ++ hears remote event) after := by
  obtain ⟨pair, isMade⟩ := carried.pair isClient
  have apart := coupled.apart pair
  have isOpen : client ∈ s.opened := (coupled.live client _ isClient).1
  have other : ∀ {another served : Fd}, s.own.c2r[another]? = some served →
      another ≠ client →
      another ≠ remote ∧ served ≠ client ∧ served ≠ remote :=
    fun pairAnother different => coupled.others pair pairAnother different
  have unmoved : makes remote event = false → sends client event = [] →
      hears remote event = [] → Elsewhere client remote s after →
      Carried client remote start (made || makes remote event)
        (sent ++ sends client event) (heard ++ hears remote event) after := by
    intro unmade silent unheard elsewhere
    rw [unmade, silent, unheard, Bool.or_false, List.append_nil, List.append_nil]
    exact carried.elsewhere isClient elsewhere
  have closed : makes remote event = false → sends client event = [] →
      hears remote event = [] → Dropped client remote s after →
      Carried client remote start (made || makes remote event)
        (sent ++ sends client event) (heard ++ hears remote event) after := by
    intro unmade silent unheard dropped
    rw [unmade, silent, unheard, Bool.or_false, List.append_nil, List.append_nil]
    exact carried.dropped dropped
  cases effect with
  | begins free _ _ accepted =>
      refine unmoved rfl rfl rfl (elsewhere_accepted ?_ accepted)
      rintro rfl
      exact allowed.1.2 isOpen
  | makes free _ _ _ accepted =>
      refine unmoved rfl rfl rfl (elsewhere_accepted ?_ accepted)
      rintro rfl
      exact allowed.1.2 isOpen
  | rejects free _ _ rejected =>
      refine unmoved rfl rfl rfl (elsewhere_rejected ?_ rejected)
      rintro rfl
      exact allowed.1.2 isOpen
  | @keeps another piece world bufferable waits kept =>
      by_cases same : another = client
      · subst same
        have unmade : made = false := by
          rw [← Bool.not_eq_true]
          exact fun isTrue => waits (isMade.mpr isTrue)
        obtain ⟨unwritten, waiting⟩ := carried.kept unmade
        rw [show makes remote (.message another piece world) = false from rfl,
          show hears remote (.message another piece world) = [] from rfl,
          Bool.or_false, List.append_nil, unmade]
        refine ⟨carried.enough, ?_, carried.answered, (fun never => by cases never),
          fun _ => ⟨unwritten, fun _ => ?_⟩⟩
        · intro _
          rw [← unmade]
          exact ⟨pair, isMade⟩
        · rw [show sends another (.message another piece world) = piece from
            if_pos rfl, ← waiting isClient]
          exact congrArg (·.getD []) ((kept another).trans (if_pos rfl))
      · refine unmoved rfl (if_neg same) rfl ⟨rfl, rfl, ?_, [], by simp, by simp⟩
        exact (kept client).trans (if_neg same)
  | @passes another served piece world broken after connected pairAnother wrote =>
      by_cases same : another = client
      · subst same
        cases pairAnother.symm.trans pair
        have isTrue : made = true := isMade.mp connected
        rw [show makes remote (.message another piece world) = false from rfl,
          show hears remote (.message another piece world) = [] from rfl,
          show sends another (.message another piece world) = piece from
            if_pos rfl, Bool.or_false, List.append_nil, isTrue]
        rw [isTrue] at carried
        exact (carried.wrote apart).closes wrote
      · obtain ⟨-, notClient, notRemote⟩ := other pairAnother same
        exact unmoved rfl (if_neg same) rfl
          (elsewhere_wrote same ⟨notClient, notRemote⟩ wrote)
  | leaves _ _ =>
      refine unmoved rfl rfl rfl ⟨rfl, rfl, rfl, [], ?_, by simp⟩
      exact (List.append_nil _).symm
  | @closes another served world after pairAnother dropped =>
      by_cases same : another = client
      · subst same
        cases pairAnother.symm.trans pair
        exact closed rfl rfl rfl dropped
      · exact unmoved rfl rfl rfl (elsewhere_dropped same dropped)
  | @connects another served world after pairAnother waits isConnected =>
      by_cases same : another = client
      · subst same
        cases pairAnother.symm.trans pair
        have unmade : made = false := by
          rw [← Bool.not_eq_true]
          exact fun isTrue => waits (isMade.mpr isTrue)
        rw [show makes remote (.connected remote world) = true from
          decide_eq_true rfl,
          show hears remote (.connected remote world) = [] from rfl,
          show sends another (.connected remote world) = [] from rfl,
          Bool.or_true, List.append_nil, List.append_nil]
        rw [unmade] at carried
        exact carried.connected apart isClient pair isConnected
      · obtain ⟨-, notClient, notRemote⟩ := other pairAnother same
        exact unmoved (decide_eq_false notRemote) rfl rfl
          (elsewhere_made same ⟨notClient, notRemote⟩ isConnected)
  | @refuses another served world after pairAnother dropped =>
      by_cases same : another = client
      · subst same
        cases pairAnother.symm.trans pair
        exact closed rfl rfl rfl dropped
      · exact unmoved rfl rfl rfl (elsewhere_dropped same dropped)
  | @answers another served piece world broken after pairAnother wrote =>
      by_cases same : another = client
      · subst same
        cases pairAnother.symm.trans pair
        rw [show makes remote (.remoteMessage remote piece world) = false from rfl,
          show hears remote (.remoteMessage remote piece world) = [piece] from
            if_pos rfl,
          show sends another (.remoteMessage remote piece world) = [] from rfl,
          Bool.or_false, List.append_nil]
        exact (carried.answer apart).closes wrote
      · obtain ⟨notRemote, -, apartRemote⟩ := other pairAnother same
        exact unmoved rfl rfl (if_neg apartRemote)
          (elsewhere_wrote same ⟨same, notRemote⟩ wrote)
  | @loses another served world after pairAnother dropped =>
      by_cases same : another = client
      · subst same
        cases pairAnother.symm.trans pair
        exact closed rfl rfl rfl dropped
      · exact unmoved rfl rfl rfl (elsewhere_dropped same dropped)
  | flush => exact unmoved rfl rfl rfl ⟨rfl, rfl, rfl, [], by simp, by simp⟩

/-- A client that is accepted has sent nothing yet. -/
theorem Accepted.carried {role : Role} {state : ConnectState}
    (accepted : Accepted client remote role state s after)
    (connected : state = .connected ↔ made = true)
    (unbuffered : s.bufferable[client]? = none) :
    Carried client remote s.written.length made [] [] after := by
  have nothing : ∀ fd : Fd, writtenTo fd s.written.length after = [] := by
    intro fd
    unfold writtenTo
    rw [accepted.written, List.drop_length]
    rfl
  constructor
  · rw [accepted.written]
  · intro _
    rw [accepted.c2r]
    refine ⟨by simp, ?_⟩
    unfold Stateful.getState
    rw [accepted.states, if_pos rfl]
    exact connected
  · exact nothing client
  · intro _
    rw [nothing, accepted.bufferable]
    exact ⟨rfl, unbuffered⟩
  · intro _
    rw [nothing, accepted.bufferable, unbuffered]
    exact ⟨rfl, fun _ => rfl⟩

theorem carried_of_steady
    (serving : Serving remoteAddressList Steady client remote start made sent
      heard s) : Carried client remote start made sent heard s := by
  induction serving with
  | @accept s after world made reached allowed meets attempt unbuffered returned =>
      cases made with
      | true =>
          have free := allowed.2.1 _ attempt
          have accepted := (accept_immediate free.1 attempt unbuffered).holds _ _
            returned
          exact accepted.carried (by simp) unbuffered
      | false =>
          have free := allowed.2.1 _ attempt
          have accepted := (accept_pending free.1 attempt).holds _ _ returned
          exact accepted.carried (by simp) unbuffered
  | step earlier isClient allowed meets returned induction =>
      have coupled := coupled_of_steady earlier.reached
      have effect := (perform_effect coupled allowed meets).holds _ _ returned
      exact induction.followed coupled isClient allowed effect

/-- What a client has sent was written to its remote, or it is kept for it until
the connection is made; and what its remote has sent was written to it. -/
theorem proxy_is_transparent
    (serving : Serving remoteAddressList Steady client remote start made sent
      heard s) :
    writtenTo client start s = heard ∧
    (made = true → (writtenTo remote start s).flatten = sent ∧
      s.bufferable[client]? = none) ∧
    (made = false → writtenTo remote start s = [] ∧
      (s.roles[client]? = some .client →
        (s.bufferable[client]?).getD [] = sent)) := by
  have carried := carried_of_steady serving
  exact ⟨carried.answered, carried.passed, carried.kept⟩

/-- A client sends before and after its connection is made. -/
theorem proxy_is_transparent_sample :
    let s := next (service [[]]) (next (service [[]]) (next (service [[]])
      (next (service [[]]) { own := (service [[]]).start }
        (.accept 5 samplePending)) (.message 5 (ascii "a") sampleQuiet))
      (.connected 6 sampleQuiet)) (.message 5 (ascii "b") sampleQuiet)
    (writtenTo 6 0 s).flatten = ascii "ab" := by
  have started : Serving [[]] Steady 5 6 0 false [] [] _ :=
    .accept .start
      (allows_accept _ ⟨by decide, by decide⟩ ⟨by decide, by decide⟩ (by decide))
      (fun _ => rfl) rfl rfl (eq_ok_final (by decide +kernel))
  have first := started.step (by decide +kernel)
    (show Server.Allows _ (.message 5 (ascii "a") sampleQuiet) from
      ⟨⟨by decide +kernel, by decide +kernel⟩, .quiet rfl⟩) trivial
    (eq_ok_final (by decide +kernel))
  have second := first.step (by decide +kernel)
    (show Server.Allows _ (.connected 6 sampleQuiet) from
      ⟨5, by decide +kernel, by decide +kernel⟩) (fun _ _ _ => rfl)
    (eq_ok_final (by decide +kernel))
  have third := second.step (by decide +kernel)
    (show Server.Allows _ (.message 5 (ascii "b") sampleQuiet) from
      ⟨⟨by decide +kernel, by decide +kernel⟩, .quiet rfl⟩) trivial
    (eq_ok_final (by decide +kernel))
  exact ((proxy_is_transparent third).2.1 rfl).1

/-- What was kept for the first client finds its connection broken.  The next
client gets the number of that remote, and what the first one sends afterwards is
written to the remote of the other. -/
theorem proxy_mixes_up_clients :
    ∃ start s, Serving [[]] (fun _ _ => True) 7 6 start true [] [] s ∧
      (writtenTo 6 start s).flatten = ascii "b" := by
  have first : Reached (service [[]]) (fun _ _ => True) _ :=
    .followed .start (.accept 5 samplePending)
      (allows_accept _ ⟨by decide, by decide⟩ ⟨by decide, by decide⟩ (by decide))
      trivial (by decide +kernel)
  have second := first.followed (.message 5 (ascii "a") sampleQuiet)
    ⟨⟨by decide +kernel, by decide +kernel⟩, .quiet rfl⟩ trivial
    (by decide +kernel)
  have third := second.followed (.connected 6 sampleBroken)
    ⟨5, by decide +kernel, by decide +kernel⟩ trivial (by decide +kernel)
  have fourth := third.followed .flush trivial trivial (by decide +kernel)
  have started : Serving [[]] (fun _ _ => True) 7 6 _ false [] [] _ :=
    .accept fourth
      (show Server.Allows _ (.accept 7 samplePending) from
        allows_accept _ ⟨by decide, by decide +kernel⟩
          ⟨by decide, by decide +kernel⟩ (by decide))
      trivial rfl (by decide +kernel) (eq_ok_final (by decide +kernel))
  have connected := started.step (by decide +kernel)
    (show Server.Allows _ (.connected 6 sampleQuiet) from
      ⟨7, by decide +kernel, by decide +kernel⟩) trivial
    (eq_ok_final (by decide +kernel))
  have last := connected.step (by decide +kernel)
    (show Server.Allows _ (.message 5 (ascii "b") sampleQuiet) from
      ⟨⟨by decide +kernel, by decide +kernel⟩, .quiet rfl⟩) trivial
    (eq_ok_final (by decide +kernel))
  exact ⟨_, _, last, by decide +kernel⟩

end Proxy

end Universe
