import Universe.Server.Freshness

/-!
# Clients do not disturb each other

A server takes the messages of its clients in any order, and the numbers of
descriptors are given again.  As long as its writes succeed and its handlers
answer a request by what is in it, what a client hears is decided by the bytes
it has sent itself.
-/

namespace Universe

open Incremental Stepwise
open Std (ExtTreeMap)

namespace Server

/-- What a protocol reads from a client, what it writes about an item, and
whether the client stays after it. -/
structure Talk (ι : Type) where
  parse : Fd → StreamReader (Option ι)
  reply : Fd → ι → Bytes
  stays : Fd → ι → Bool
  stable : ∀ client, Stable .ag (parse client)
  nothing : ∀ client, parse client [] = .error .ag
  takes : ∀ client, Takes 1 (parse client)

namespace Talk

variable {ι : Type} (talk : Talk ι) (client : Fd)

/-- One item of the input, with everything that was written before it. -/
def step (heard : List Bytes) (input : Bytes) : Verdict (List Bytes) UInt8 :=
  match talk.parse client input with
  | .error .ag => .again
  | .error .ng => .halt heard
  | .ok (none, _) => .halt heard
  | .ok (some item, rest) =>
      if talk.stays client item then .next (heard ++ [talk.reply client item]) rest
      else .halt (heard ++ [talk.reply client item])

/-- A server of one client. -/
def consumer : Consumer (List Bytes) UInt8 where
  step := talk.step client
  empty heard := by
    unfold step
    rw [talk.nothing]
  next := by
    intro heard input after rest read more
    unfold step at read ⊢
    split at read
    · cases read
    · cases read
    · cases read
    · next item left parsed =>
        rw [(talk.stable client).ok parsed more]
        dsimp only
        split at read
        · next stays =>
            rw [if_pos stays]
            cases read
            rfl
        · cases read
  halt := by
    intro heard input after read more
    unfold step at read ⊢
    split at read
    · cases read
    · next parsed =>
        rw [(talk.stable client).error parsed (by decide) more]
        exact read
    · next left parsed =>
        rw [(talk.stable client).ok parsed more]
        exact read
    · next item left parsed =>
        rw [(talk.stable client).ok parsed more]
        dsimp only
        split at read
        · cases read
        · next leaves =>
            rw [if_neg leaves]
            exact read
  shorter := by
    intro heard input after rest read
    unfold step at read
    split at read
    · cases read
    · cases read
    · cases read
    · next item left parsed =>
        split at read
        · cases read
          exact talk.takes client _ _ _ parsed
        · cases read

/-- Everything that is written to a client that sends these bytes, if nobody
else were there. -/
def answers (received : Bytes) : List Bytes :=
  ((talk.consumer client).drain [] received).state

end Talk

/-- What a descriptor has received and heard since it was accepted. -/
structure Chat where
  received : Bytes := []
  heard : List Bytes := []

variable {α η : Type}

/-- What was written to a descriptor in the meantime. -/
def said (s after : Server α) (fd : Fd) : List Bytes :=
  ((after.written.drop s.written.length).filter (·.fd = fd)).map Writing.data

def Chat.next (event : Event η) (said : List Bytes) (fd : Fd) (chat : Chat) :
    Chat :=
  match event with
  | .accept client _ =>
      if fd = client then { heard := said }
      else { chat with heard := chat.heard ++ said }
  | .message client piece _ =>
      { received :=
          if fd = client then chat.received ++ piece else chat.received
        heard := chat.heard ++ said }
  | _ => { chat with heard := chat.heard ++ said }

/-- The states after any number of events that met the condition and returned,
with what every descriptor has received and heard. -/
inductive Followed (service : Service α η) (condition : Event η → Prop) :
    (Fd → Chat) → Server α → Prop where
  | start : Followed service condition (fun _ => {}) { own := service.start }
  | step {chats : Fd → Chat} {s after : Server α} {event : Event η}
      (earlier : Followed service condition chats s) (allowed : s.Allows event)
      (meets : condition event)
      (returned : perform service event s = .ok () after) :
      Followed service condition
        (fun fd => (chats fd).next event (said s after fd) fd) after

variable {service : Service α η} {ι : Type} {talk : Talk ι} {client : Fd}
  {s after : Server α}

/-- Only a client was written to, and the other descriptors are what they
were. -/
structure Spoken (client : Fd) (replies : List Bytes) (s after : Server α) :
    Prop where
  written : after.written =
    s.written ++ replies.map fun data => ⟨client, data, false⟩
  roles : ∀ fd : Fd, fd ≠ client → after.roles[fd]? = s.roles[fd]?
  buffers : ∀ fd : Fd, fd ≠ client → after.bufferable[fd]? = s.bufferable[fd]?

namespace Spoken

theorem refl (client : Fd) (s : Server α) : Spoken client [] s s :=
  ⟨(List.append_nil _).symm, fun _ _ => rfl, fun _ _ => rfl⟩

theorem trans {first second : List Bytes} {between : Server α}
    (early : Spoken client first s between)
    (late : Spoken client second between after) :
    Spoken client (first ++ second) s after := by
  constructor
  · rw [late.written, early.written, List.map_append, List.append_assoc]
  · intro fd other
    rw [late.roles fd other, early.roles fd other]
  · intro fd other
    rw [late.buffers fd other, early.buffers fd other]

theorem said_self {replies : List Bytes} (spoken : Spoken client replies s after) :
    said s after client = replies := by
  unfold said
  rw [spoken.written, List.drop_left, List.filter_eq_self.mpr (by simp),
    List.map_map]
  exact List.map_id replies

theorem said_other {replies : List Bytes} (spoken : Spoken client replies s after)
    {fd : Fd} (other : fd ≠ client) : said s after fd = [] := by
  unfold said
  rw [spoken.written, List.drop_left, List.filter_eq_nil_iff.mpr ?_, List.map_nil]
  simp [Ne.symm other]

end Spoken

/-- A client that is dealt with, with nothing left over. -/
def Stays (client : Fd) (s : Server α) : Prop :=
  s.roles[client]? = some .client ∧ s.bufferable[client]? = none

/-- Where the server of one client would be. -/
def Left (client : Fd) (s : Server α) : Position (List Bytes) UInt8 → Prop
  | .waiting _ rest =>
      s.roles[client]? = some .client ∧ (s.bufferable[client]?).getD [] = rest
  | .halted _ => s.roles[client]? = none

/-- One item is answered. -/
def Answering (talk : Talk ι) (client : Fd) (handle : ι → M α Bool) : Prop :=
  ∀ {message rest item}, talk.parse client message = .ok (some item, rest) →
    ∀ s, Stays client s → Returns (handle item) s fun goesOn after =>
      Spoken client [talk.reply client item] s after ∧
        goesOn = talk.stays client item ∧
        if goesOn then Stays client after else after.roles[client]? = none

/-- The loop does what a server of one client does. -/
theorem readItems_left {host : Host (M α)} {handle : ι → M α Bool}
    (answering : Answering talk client handle)
    (closes : ∀ s, Stays client s → Returns (host.close client) s fun _ after =>
      Spoken client [] s after ∧ after.roles[client]? = none)
    (needs : ∀ part s, Stays client s →
      Returns (host.needBuf client part true) s fun _ after =>
        Spoken client [] s after ∧ after.roles[client]? = some .client ∧
          (after.bufferable[client]?).getD [] = part)
    (exits : ∀ s, Returns (host.exit : M α Unit) s fun _ _ => False)
    (heard : List Bytes) {fuel : Nat} {message : Bytes}
    (enough : message.length < fuel) (stays : Stays client s) :
    Returns (Protocol.readItems host (talk.parse client) handle client fuel
      message) s fun _ after => ∃ replies, Spoken client replies s after ∧
        Left client after ((talk.consumer client).drain heard message) ∧
        ((talk.consumer client).drain heard message).state =
          heard ++ replies := by
  induction fuel generalizing heard message s with
  | zero => omega
  | succ fuel induction =>
      unfold Protocol.readItems
      cases parsed : talk.parse client message with
      | error stop =>
          cases stop with
          | ag =>
              have waits : (talk.consumer client).step heard message = .again := by
                simp [Talk.consumer, Talk.step, parsed]
              rw [Consumer.drain_of_again waits]
              apply returns_bind (needs message s stays)
              rintro _ after ⟨spoken, isClient, left⟩
              exact returns_pure
                ⟨[], spoken, ⟨isClient, left⟩, (List.append_nil _).symm⟩
          | ng =>
              have halts : (talk.consumer client).step heard message =
                  .halt heard := by
                simp [Talk.consumer, Talk.step, parsed]
              rw [Consumer.drain_of_halt halts]
              apply returns_bind (closes s stays)
              rintro _ after ⟨spoken, gone⟩
              exact returns_pure ⟨[], spoken, gone, (List.append_nil _).symm⟩
      | ok read =>
          obtain ⟨item, rest⟩ := read
          cases item with
          | none =>
              exact (exits s).weaken fun _ _ impossible => impossible.elim
          | some item =>
              have taken := talk.takes client _ _ _ parsed
              have read : (talk.consumer client).step heard message =
                  if talk.stays client item then
                    .next (heard ++ [talk.reply client item]) rest
                  else .halt (heard ++ [talk.reply client item]) := by
                simp [Talk.consumer, Talk.step, parsed]
              apply returns_bind (answering parsed s stays)
              rintro goesOn between ⟨spoken, rfl, continues⟩
              cases further : talk.stays client item with
              | false =>
                  rw [further] at continues
                  rw [if_neg (by simp [further])] at read
                  rw [Consumer.drain_of_halt read]
                  exact returns_pure ⟨_, spoken, continues, rfl⟩
              | true =>
                  rw [further, if_pos rfl] at continues
                  rw [if_pos further] at read
                  rw [Consumer.drain_of_next read]
                  cases rest with
                  | nil =>
                      rw [Consumer.drain_of_again ((talk.consumer client).empty _)]
                      refine returns_pure ⟨_, spoken, ⟨continues.1, ?_⟩, rfl⟩
                      rw [continues.2]
                      rfl
                  | cons byte rest =>
                      apply (induction _ (by omega) continues).weaken
                      rintro _ after ⟨replies, later, left, same⟩
                      refine ⟨_, spoken.trans later, left, ?_⟩
                      rw [same, List.append_assoc]

variable {world : Surroundings η} {depth : Nat} {connect : Address → Fd → M α Fd}

namespace Followed

variable {condition : Event η → Prop} {chats : Fd → Chat}

/-- A client is accepted, and no connection is to be made. -/
theorem accepts (earlier : Followed service condition chats s) (client : Fd)
    (world : Surroundings η) (quiet : world.attempt = none)
    (free : 0 ≤ client ∧ client ∉ s.opened)
    (meets : condition (.accept client world))
    (returns : isOk (perform service (.accept client world) s) = true) :
    Followed service condition
      (fun fd => (chats fd).next (.accept client world : Event η)
        (said s (final (perform service (.accept client world) s)) fd) fd)
      (final (perform service (.accept client world) s)) := by
  refine earlier.step ⟨free, ?_, ?_⟩ meets (eq_ok_final returns)
  · intro attempt isAttempt
    rw [quiet] at isAttempt
    cases isAttempt
  · intro attempt isAttempt
    rw [quiet] at isAttempt
    cases isAttempt

/-- A message comes, and no connection is to be made. -/
theorem hears (earlier : Followed service condition chats s) (client : Fd)
    (piece : Bytes) (world : Surroundings η) (quiet : world.attempt = none)
    (watched : s.roles[client]? = some .client ∧ client ∈ s.polled)
    (meets : condition (.message client piece world))
    (returns : isOk (perform service (.message client piece world) s) = true) :
    Followed service condition
      (fun fd => (chats fd).next (.message client piece world : Event η)
        (said s (final (perform service (.message client piece world) s)) fd) fd)
      (final (perform service (.message client piece world) s)) := by
  refine earlier.step ⟨watched, ?_⟩ meets (eq_ok_final returns)
  intro attempt isAttempt
  rw [quiet] at isAttempt
  cases isAttempt

end Followed

/-- A client is closed, and its buffer is erased. -/
theorem closing_own (isLocal : Local service true) (force : Bool)
    (isClient : s.roles[client]? = some .client) :
    Returns (closing world service depth client force) s fun _ after =>
      Spoken client [] s after ∧ after.roles[client]? = none := by
  cases depth with
  | zero => exact closing_depth isClient
  | succ depth =>
      apply closing_of_client isClient
      intro isPolled
      obtain ⟨own, closed⟩ := isLocal.onClose world
        (closing world service depth · false) (fun _ _ => throw .exit) client
        ((s.unregister client).release client)
      constructor
      intro result after returned
      rw [quietHost, closed] at returned
      cases returned
      refine ⟨⟨?_, ?_, ?_⟩, roles_unregister_self⟩
      · exact (List.append_nil _).symm
      · exact fun fd other => roles_unregister other
      · intro fd other
        exact (Bufferable.getElem?_eraseBuf ..).trans (if_neg (Ne.symm other))

/-- Writes that succeed. -/
theorem writing_whole {close : Fd → M α Bool}
    (whole : ∀ count fd, world.broken count fd = false) (fd : Fd) (data : Bytes) :
    Returns (writing world close fd data) s fun _ after =>
      after = { s with written := s.written ++ [⟨fd, data, false⟩] } := by
  apply returns_get_bind
  apply returns_modify_bind
  rw [whole, Bool.and_false]
  exact returns_pure rfl

/-- Handlers that leave the descriptors alone. -/
theorem fire_silent {β : Type} {outcome : Nat → β × List Act} {value : β}
    (silent : ∀ count, outcome count = (value, [])) {close : Fd → M α Bool} :
    Returns (fire (hostWith world close connect) outcome) s fun result after =>
      result = value ∧ after = { s with fired := s.fired + 1 } := by
  apply returns_modifyGet_bind
  rw [silent]
  exact returns_pure ⟨rfl, rfl⟩

/-- A message is answered as a server of one client would answer it. -/
def Served (talk : Talk ι) (client : Fd) (heard : List Bytes) (message : Bytes)
    (s after : Server α) : Prop :=
  ∃ replies, Spoken client replies s after ∧
    Left client after ((talk.consumer client).drain heard message) ∧
    ((talk.consumer client).drain heard message).state = heard ++ replies

theorem onItems_served (isLocal : Local service true) {handle : ι → M α Bool}
    (answering : Answering talk client handle) (heard : List Bytes)
    (isClient : s.roles[client]? = some .client) (piece : Bytes) :
    Returns (Protocol.onItems
      (hostWith world (closing world service depth · false) connect).toHost
      (talk.parse client) handle client piece) s
      fun _ after => Served talk client heard (s.pending client piece) s after := by
  have appended : Spoken client [] s
      { s with bufferable := (s.bufferable.appendBuf client piece).2 } := by
    refine ⟨(List.append_nil _).symm, fun _ _ => rfl, ?_⟩
    intro fd other
    exact (Bufferable.getElem?_appendBuf ..).trans (if_neg (Ne.symm other))
  have stays : Stays client
      { s with bufferable := (s.bufferable.appendBuf client piece).2 } :=
    ⟨isClient, by simp⟩
  apply returns_modifyGet_bind
  rw [Bufferable.appendBuf_message]
  apply (readItems_left answering ?_ ?_ ?_ heard (Nat.lt_succ_self _) stays).weaken
  · rintro _ after ⟨replies, spoken, left, same⟩
    exact ⟨replies, appended.trans spoken, left, same⟩
  · exact fun s stays => closing_own isLocal false stays.1
  · intro part s stays
    apply returns_modifyGet
    refine ⟨⟨(List.append_nil _).symm, fun _ _ => rfl, ?_⟩, stays.1, ?_⟩
    · intro fd other
      exact (Bufferable.getElem?_needBuf ..).trans (if_neg (Ne.symm other))
    · rw [Bufferable.getElem?_needBuf, if_pos rfl]
      rfl
  · exact fun s => returns_throw

/-- A protocol that keeps the talks of its clients apart, as long as its
handlers are plain and its writes succeed. -/
structure Talks (service : Service α η) (talk : Talk ι) (plain : η → Prop) :
    Prop where
  isLocal : Local service true
  onConnect : ∀ handler host client,
    service.onConnect handler host client = pure ()
  served : ∀ (world : Surroundings η) (s : Server α) client piece heard,
    plain world.handler → (∀ count fd, world.broken count fd = false) →
    s.roles[client]? = some .client →
    Returns (service.onMessage world.handler (host world service s) client piece)
      s fun _ after => Served talk client heard (s.pending client piece) s after
  sound : ∀ (world : Surroundings η) (s : Server α) client piece,
    plain world.handler → (∀ count fd, world.broken count fd = false) →
    Sound s → s.roles[client]? = some .client →
    Returns (service.onMessage world.handler (host world service s) client piece)
      s fun _ after => Sound after

/-- Handlers are plain, and writes succeed. -/
def Smooth (plain : η → Prop) : Event η → Prop
  | .message _ _ world =>
      plain world.handler ∧ ∀ count fd, world.broken count fd = false
  | _ => True

/-- Every descriptor has heard what its own bytes are answered with. -/
structure Apart (talk : Talk ι) (chats : Fd → Chat) (s : Server α) : Prop where
  sound : Sound s
  clients : ∀ (fd : Fd) role, s.roles[fd]? = some role → role = .client
  heard : ∀ fd, (chats fd).heard = talk.answers fd (chats fd).received
  waiting : ∀ fd : Fd, s.roles[fd]? = some .client →
    (talk.consumer fd).drain [] (chats fd).received =
      .waiting (chats fd).heard ((s.bufferable[fd]?).getD [])

namespace Apart

variable {chats : Fd → Chat} {plain : η → Prop} {event : Event η}

theorem start (own : α) :
    Apart talk (fun _ => {}) ({ own := own } : Server α) where
  sound := .start own
  clients fd role present := by simp at present
  heard fd := by
    unfold Talk.answers
    rw [Consumer.drain_of_again ((talk.consumer fd).empty _)]
    rfl
  waiting fd isClient := by simp at isClient

theorem said_of_written (same : after.written = s.written) (fd : Fd) :
    said s after fd = [] := by
  unfold said
  rw [same, List.drop_length]
  rfl

/-- Nothing is received and nothing is written. -/
theorem silent (apart : Apart talk chats s) (sound : Sound after)
    (fewer : ∀ (fd : Fd) role, after.roles[fd]? = some role →
      s.roles[fd]? = some role)
    (buffers : ∀ fd : Fd, after.roles[fd]? = some .client →
      after.bufferable[fd]? = s.bufferable[fd]?)
    {now : Fd → Chat} (same : ∀ fd, now fd = chats fd) : Apart talk now after := by
  constructor
  · exact sound
  · exact fun fd role present => apart.clients fd role (fewer fd role present)
  · intro fd
    rw [same]
    exact apart.heard fd
  · intro fd isClient
    rw [same, buffers fd isClient]
    exact apart.waiting fd (fewer fd _ isClient)

theorem accepted (apart : Apart talk chats s)
    (onConnect : ∀ handler host client,
      service.onConnect handler host client = pure ()) {world : Surroundings η}
    (allowed : s.Allows (.accept client world))
    (returned : perform service (.accept client world) s = .ok () after)
    (sound : Sound after) :
    Apart talk (fun fd => (chats fd).next
      (.accept client world : Event η) (said s after fd) fd) after := by
  have reached : after = (s.openFd client).watch client .client false := by
    unfold perform at returned
    dsimp only at returned
    rw [modify_bind, get_bind, onConnect] at returned
    cases returned
    rfl
  have silent : ∀ fd, said s after fd = [] :=
    said_of_written (by rw [reached]; rfl)
  have roles : ∀ fd : Fd, after.roles[fd]? =
      if client = fd then some .client else s.roles[fd]? := by
    intro fd
    rw [reached]
    exact roles_watch _ client fd .client false
  have buffers : after.bufferable = s.bufferable := by rw [reached]; rfl
  obtain ⟨-, unbuffered⟩ := apart.sound.unbuffered allowed.1
  constructor
  · exact sound
  · intro fd role present
    rw [roles] at present
    split at present
    · exact (Option.some.inj present).symm
    · exact apart.clients fd role present
  · intro fd
    by_cases here : fd = client
    · simp only [Chat.next, if_pos here, silent]
      unfold Talk.answers
      rw [Consumer.drain_of_again ((talk.consumer fd).empty _)]
      rfl
    · simp only [Chat.next, if_neg here, silent, List.append_nil]
      exact apart.heard fd
  · intro fd isClient
    rw [buffers]
    by_cases here : fd = client
    · simp only [Chat.next, if_pos here, silent]
      rw [here, unbuffered]
      exact Consumer.drain_of_again ((talk.consumer client).empty _)
    · simp only [Chat.next, if_neg here, silent, List.append_nil]
      rw [roles, if_neg (Ne.symm here)] at isClient
      exact apart.waiting fd isClient

theorem messaged (apart : Apart talk chats s) {piece : Bytes}
    {world : Surroundings η} (isClient : s.roles[client]? = some .client)
    (served : Served talk client (chats client).heard (s.pending client piece) s
      after) (sound : Sound after) :
    Apart talk (fun fd => (chats fd).next
      (.message client piece world : Event η) (said s after fd) fd) after := by
  obtain ⟨replies, spoken, left, same⟩ := served
  have whole : (talk.consumer client).drain []
        ((chats client).received ++ piece) =
      (talk.consumer client).drain (chats client).heard
        (s.pending client piece) := by
    rw [Consumer.drain_append, apart.waiting client isClient]
    rfl
  have others : ∀ fd, fd ≠ client → (chats fd).next
      (.message client piece world : Event η) (said s after fd) fd = chats fd := by
    intro fd other
    simp only [Chat.next, if_neg other, spoken.said_other other, List.append_nil]
  have own : (chats client).next (.message client piece world : Event η)
      (said s after client) client =
        ⟨(chats client).received ++ piece, (chats client).heard ++ replies⟩ := by
    simp only [Chat.next, if_true, spoken.said_self]
  constructor
  · exact sound
  · intro fd role present
    by_cases here : fd = client
    · subst here
      cases position : (talk.consumer fd).drain (chats fd).heard
          (s.pending fd piece) with
      | waiting all rest =>
          rw [position] at left
          rw [left.1] at present
          exact (Option.some.inj present).symm
      | halted all =>
          rw [position] at left
          have gone : after.roles[fd]? = none := left
          rw [gone] at present
          cases present
    · rw [spoken.roles fd here] at present
      exact apart.clients fd role present
  · intro fd
    by_cases here : fd = client
    · subst here
      rw [own]
      unfold Talk.answers
      rw [whole, same]
    · rw [others fd here]
      exact apart.heard fd
  · intro fd still
    by_cases here : fd = client
    · subst here
      rw [own, whole]
      cases position : (talk.consumer fd).drain (chats fd).heard
          (s.pending fd piece) with
      | waiting all rest =>
          rw [position] at left same
          rw [← same, ← left.2]
          rfl
      | halted all =>
          rw [position] at left
          have gone : after.roles[fd]? = none := left
          rw [gone] at still
          cases still
    · rw [others fd here, spoken.buffers fd here]
      rw [spoken.roles fd here] at still
      exact apart.waiting fd still

theorem step (apart : Apart talk chats s) (talks : Talks service talk plain)
    (allowed : s.Allows event) (smooth : Smooth plain event)
    (returned : perform service event s = .ok () after) :
    Apart talk (fun fd => (chats fd).next event (said s after fd) fd) after := by
  have welcomes : Welcomes service := by
    intro world s before client unpolled
    rw [talks.onConnect]
    exact returns_pure ⟨s.own, s.written, rfl⟩
  have sound : Sound after := by
    refine (perform_local talks.isLocal welcomes apart.sound allowed ?_ ?_).holds _
      _ returned
    · rintro client piece world rfl
      exact talks.sound world s client piece smooth.1 smooth.2 apart.sound
        allowed.1.1
    · exact fun _ _ _ => .inl rfl
  have noOther : ∀ {fd : Fd} {role : Role}, role ≠ .client →
      ¬ s.Watches fd role :=
    fun other watches => other (apart.clients _ _ watches.1)
  cases event with
  | accept client world =>
      exact apart.accepted talks.onConnect allowed returned sound
  | message client piece world =>
      have isClient := allowed.1.1
      apply apart.messaged isClient _ sound
      exact (talks.served world s client piece _ smooth.1 smooth.2
        isClient).holds _ _ returned
  | clientClosed client world =>
      have closed : Returns (perform service (.clientClosed client world)) s
          fun _ after => Spoken client [] s after ∧
            after.roles[client]? = none := by
        apply returns_get_bind
        apply returns_bind (closing_own talks.isLocal false allowed.1)
        exact fun _ _ holds => returns_pure holds
      obtain ⟨spoken, gone⟩ := closed.holds _ _ returned
      have others : ∀ (fd : Fd) role, after.roles[fd]? = some role →
          fd ≠ client := by
        rintro fd role present rfl
        rw [gone] at present
        cases present
      apply apart.silent sound
      · intro fd role present
        rw [← spoken.roles fd (others fd role present)]
        exact present
      · exact fun fd isClient => spoken.buffers fd (others fd _ isClient)
      · intro fd
        simp [Chat.next, said_of_written (spoken.written.trans
          (List.append_nil _)) fd]
  | connected remote world | connectFailed remote world =>
      obtain ⟨client, watches⟩ := allowed
      exact absurd watches (noOther (by simp))
  | remoteMessage remote piece world =>
      obtain ⟨⟨client, watches⟩, -⟩ := allowed
      exact absurd watches (noOther (by simp))
  | remoteClosed remote world =>
      obtain ⟨client, watches⟩ := allowed
      exact absurd watches (noOther (by simp))
  | flush =>
      cases returned
      apply apart.silent sound
      · exact fun _ _ present => present
      · exact fun _ _ => rfl
      · intro fd
        simp [Chat.next, said]

end Apart

/-- In every run the talks are kept apart. -/
theorem apart_of_followed {plain : η → Prop} {chats : Fd → Chat}
    (talks : Talks service talk plain)
    (followed : Followed service (Smooth plain) chats s) : Apart talk chats s := by
  induction followed with
  | start => exact .start service.start
  | step earlier allowed meets returned induction =>
      exact induction.step talks allowed meets returned

end Server

open Server

namespace Http

/-- Handlers that answer a request by what is in it. -/
def Plain (f : HttpRequest → HttpResponse → HttpRequest × HttpResponse)
    (handler : HttpFiring) : Prop :=
  ∀ count r resp, handler count r resp = (f r resp, [])

def talk (f : HttpRequest → HttpResponse → HttpRequest × HttpResponse) :
    Talk HttpRequest where
  parse := parseItem
  reply _ r := (f r (.ofRequest r)).2.toBytes
  stays _ r := decide (verdict (f r (.ofRequest r)).1 = .opened)
  stable client := stable_bind (stable_parseRequest client) fun _ => stable_pure _
  nothing _ := rfl
  takes client := takes_now (takes_parseRequest client) fun _ => takes_pure _

theorem parseItem_client {client : Fd} {message rest : Bytes} {r : HttpRequest}
    (parsed : parseItem client message = .ok (some r, rest)) :
    r.client = client := by
  obtain ⟨read, between, whole, returned⟩ := bind_eq_ok.mp parsed
  obtain ⟨same, -⟩ := pure_eq_ok.mp returned
  cases same
  exact parseRequest_client client _ _ _ whole

theorem answering {f : HttpRequest → HttpResponse → HttpRequest × HttpResponse}
    (keeps : ∀ r resp, (f r resp).1.client = r.client)
    {world : Surroundings HttpFiring} (plain : Plain f world.handler)
    (whole : ∀ count fd, world.broken count fd = false) {depth : Nat}
    (connect : Address → Fd → M Unit Fd) (client : Fd) :
    Answering (talk f) client (answer
      (hostWith world (closing world service depth · false) connect).toHost
      (fun r resp => fire
        (hostWith world (closing world service depth · false) connect)
        fun count => world.handler count r resp) client) := by
  intro message rest r parsed s stays
  apply returns_bind (fire_silent fun count => plain count r (.ofRequest r))
  rintro _ _ ⟨rfl, rfl⟩
  apply returns_bind (writing_whole whole client _)
  rintro _ _ rfl
  have own : (f r (.ofRequest r)).1.client = client := by
    rw [keeps, parseItem_client parsed]
  have spoken : ∀ fired, Spoken client [(talk f).reply client r] s
      { s with
        fired
        written := s.written ++
          [⟨client, (f r (.ofRequest r)).2.toBytes, false⟩] } :=
    fun _ => ⟨rfl, fun _ _ => rfl, fun _ _ => rfl⟩
  cases ends : verdict (f r (.ofRequest r)).1 with
  | opened =>
      rw [closeIfNecessary_opened _ ends]
      apply returns_pure
      exact ⟨spoken _, by simp [talk, ends], stays⟩
  | closed =>
      rw [closeIfNecessary_closed _ ends, own, bind_assoc]
      apply returns_bind (closing_own isLocal_service false (by exact stays.1))
      rintro _ after ⟨closed, gone⟩
      rw [pure_bind]
      apply returns_pure
      exact ⟨by simpa using (spoken _).trans closed, by simp [talk, ends],
        by simpa using gone⟩
  | crashed =>
      rw [closeIfNecessary_crashed _ ends]
      exact returns_throw_bind

theorem onMessage_eq_onItems {m : Type → Type} [Monad m] [LawfulMonad m]
    (host : Host m)
    (fire : HttpRequest → HttpResponse → m (HttpRequest × HttpResponse))
    (client : Fd) (message : Bytes) :
    onMessage host fire client message =
      Protocol.onItems host (parseItem client) (answer host fire client) client
        message := by
  unfold onMessage Protocol.onItems
  simp only [serve_eq_readItems]

theorem talks {f : HttpRequest → HttpResponse → HttpRequest × HttpResponse}
    (keeps : ∀ r resp, (f r resp).1.client = r.client) :
    Talks service (talk f) (Plain f) where
  isLocal := isLocal_service
  onConnect _ _ _ := rfl
  served world s client piece heard plain whole isClient := by
    unfold service
    dsimp only
    rw [onMessage_eq_onItems]
    exact onItems_served isLocal_service (answering keeps plain whole _ client)
      heard isClient piece
  sound world s client piece plain whole sound isClient := by
    apply message_sound sound isClient
    intro breaks
    refine ⟨fun count => whole count client, fun count r resp => ?_⟩
    rw [plain]
    exact List.not_mem_nil

end Http

/-- Whatever else a server of HTTP does in the meantime, and whoever had the
number of its descriptor before, a client hears what its own bytes are answered
with, and while it is there the rest of them waits. -/
theorem http_client_hears_its_own
    {f : HttpRequest → HttpResponse → HttpRequest × HttpResponse}
    (keeps : ∀ r resp, (f r resp).1.client = r.client)
    {chats : Fd → Chat} {s : Server Unit}
    (followed : Followed Http.service (Server.Smooth (Http.Plain f)) chats s)
    (fd : Fd) :
    (chats fd).heard = (Http.talk f).answers fd (chats fd).received ∧
      (s.roles[fd]? = some .client →
        ((Http.talk f).consumer fd).drain [] (chats fd).received =
          .waiting (chats fd).heard ((s.bufferable[fd]?).getD [])) := by
  have apart := apart_of_followed (Http.talks keeps) followed
  exact ⟨apart.heard fd, apart.waiting fd⟩

/-- Handlers that leave what they get. -/
def httpEcho : Surroundings HttpFiring where
  handler := fun _ r resp => ((r, resp), [])

theorem http_client_hears_its_own_among_two :
    ∃ chats s,
      Followed Http.service (Server.Smooth (Http.Plain Prod.mk)) chats s ∧
      (chats 5).received = ascii "GET / HTTP/1.1\r\n\r\n" ∧
      (chats 6).received = ascii "G" ∧
      (chats 5).heard = (Http.talk Prod.mk).answers 5 (chats 5).received := by
  have smooth : Http.Plain Prod.mk httpEcho.handler ∧
      ∀ count fd, httpEcho.broken count fd = false :=
    ⟨fun _ _ _ => rfl, fun _ _ => rfl⟩
  have none := @Followed.start _ _ Http.service
    (Server.Smooth (Http.Plain Prod.mk))
  have one := none.accepts 5 httpEcho rfl (by decide +kernel) trivial
    (by decide +kernel)
  have two := one.accepts 6 httpEcho rfl (by decide +kernel) trivial
    (by decide +kernel)
  have begun := two.hears 5 (ascii "GET / HTTP") httpEcho rfl (by decide +kernel)
    smooth (by decide +kernel)
  have between := begun.hears 6 (ascii "G") httpEcho rfl (by decide +kernel)
    smooth (by decide +kernel)
  have last := between.hears 5 (ascii "/1.1\r\n\r\n") httpEcho rfl
    (by decide +kernel) smooth (by decide +kernel)
  refine ⟨_, _, last, by decide +kernel, by decide +kernel, ?_⟩
  exact (http_client_hears_its_own (fun _ _ => rfl) last 5).1

namespace Soa

open StreamReader

/-- Handlers that answer a request by what is in it. -/
def Plain (f : SoaRequest → SoaResponse → SoaResponse) (handler : SoaFiring) :
    Prop :=
  ∀ count r resp, handler count r resp = (f r resp, [])

theorem takes_readGuid : Takes 1 readGuid := by
  intro input uuid rest returned
  rw [readGuid_eq_ok.mp returned, List.length_append, uuid.size]
  omega

theorem takes_parseRequest (maxSize : Nat) (client : Fd) :
    Takes 1 (parseRequest maxSize client) := by
  refine takes_now (takes_now takes_readGuid fun uuid => ?_)
    fun _ => takes_pure _
  refine takes_later (takes_later ((takes_readSize 8).weaken (Nat.zero_le _))
    fun _ => takes_pure _) fun jsonSize => ?_
  split
  · exact takes_pure _
  · exact takes_later ((takes_readSize _).weaken (Nat.zero_le _))
      fun _ => takes_pure _

def talk (maxSize : Nat) (f : SoaRequest → SoaResponse → SoaResponse) :
    Talk SoaRequest where
  parse := parseRequest maxSize
  reply _ r := (f r { uuid := r.uuid, json := [] }).toBytes
  stays _ _ := true
  stable := stable_parseRequest maxSize
  nothing _ := rfl
  takes := takes_parseRequest maxSize

theorem answering {maxSize : Nat} {f : SoaRequest → SoaResponse → SoaResponse}
    {world : Surroundings SoaFiring} (plain : Plain f world.handler)
    (whole : ∀ count fd, world.broken count fd = false) {depth : Nat}
    (connect : Address → Fd → M Unit Fd) (client : Fd) :
    Answering (talk maxSize f) client (answer
      (hostWith world (closing world (service maxSize) depth · false)
        connect).toHost
      (fun r resp => fire
        (hostWith world (closing world (service maxSize) depth · false) connect)
        fun count => world.handler count r resp) client) := by
  intro message rest r parsed s stays
  apply returns_bind (fire_silent fun count =>
    plain count r { uuid := r.uuid, json := [] })
  rintro _ _ ⟨rfl, rfl⟩
  apply returns_bind (writing_whole whole client _)
  rintro _ _ rfl
  apply returns_pure
  exact ⟨⟨rfl, fun _ _ => rfl, fun _ _ => rfl⟩, rfl, stays⟩

theorem talks (maxSize : Nat) (f : SoaRequest → SoaResponse → SoaResponse) :
    Talks (service maxSize) (talk maxSize f) (Plain f) where
  isLocal := isLocal_service
  onConnect _ _ _ := rfl
  served world s client piece heard plain whole isClient :=
    onItems_served isLocal_service (answering plain whole _ client) heard isClient
      piece
  sound world s client piece plain whole sound isClient := by
    apply message_sound sound isClient
    intro breaks
    refine ⟨fun count => whole count client, fun count r resp => ?_⟩
    rw [plain]
    exact List.not_mem_nil

end Soa

/-- The same for a server of SOA. -/
theorem soa_client_hears_its_own {maxSize : Nat}
    {f : SoaRequest → SoaResponse → SoaResponse} {chats : Fd → Chat}
    {s : Server Unit} (followed : Followed (Soa.service maxSize)
      (Server.Smooth (Soa.Plain f)) chats s) (fd : Fd) :
    (chats fd).heard = (Soa.talk maxSize f).answers fd (chats fd).received ∧
      (s.roles[fd]? = some .client →
        ((Soa.talk maxSize f).consumer fd).drain [] (chats fd).received =
          .waiting (chats fd).heard ((s.bufferable[fd]?).getD [])) := by
  have apart := apart_of_followed (Soa.talks maxSize f) followed
  exact ⟨apart.heard fd, apart.waiting fd⟩

/-- Handlers that answer a request with what it has. -/
def soaEcho : Surroundings SoaFiring where
  handler := fun _ r resp => ({ resp with json := r.json }, [])

theorem soa_client_hears_its_own_among_two :
    ∃ chats s, Followed (Soa.service 1024)
        (Server.Smooth (Soa.Plain fun r resp => { resp with json := r.json }))
        chats s ∧
      (chats 5).received = SoaRequest.toBytes (GUID.filled 1) [7] ∧
      (chats 6).received = [0] ∧
      (chats 5).heard =
        (Soa.talk 1024 fun r resp => { resp with json := r.json }).answers 5
          (chats 5).received := by
  have smooth : Soa.Plain (fun r resp => { resp with json := r.json })
        soaEcho.handler ∧ ∀ count fd, soaEcho.broken count fd = false :=
    ⟨fun _ _ _ => rfl, fun _ _ => rfl⟩
  have none := @Followed.start _ _ (Soa.service 1024)
    (Server.Smooth (Soa.Plain fun r resp => { resp with json := r.json }))
  have one := none.accepts 5 soaEcho rfl (by decide +kernel) trivial
    (by decide +kernel)
  have two := one.accepts 6 soaEcho rfl (by decide +kernel) trivial
    (by decide +kernel)
  have begun := two.hears 5 (List.replicate 16 1) soaEcho rfl (by decide +kernel)
    smooth (by decide +kernel)
  have between := begun.hears 6 [0] soaEcho rfl (by decide +kernel) smooth
    (by decide +kernel)
  have last := between.hears 5 [0, 0, 0, 0, 0, 0, 0, 1, 7] soaEcho rfl
    (by decide +kernel) smooth (by decide +kernel)
  refine ⟨_, _, last, by decide +kernel, by decide +kernel, ?_⟩
  exact (soa_client_hears_its_own last 5).1

end Universe
