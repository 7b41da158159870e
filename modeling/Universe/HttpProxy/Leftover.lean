import Universe.HttpProxy.Session

/-!
# Requests that are left over

A client may send its next request before it has the answer.  What is behind a
request stays in `packet_in_`, where nobody looks at it while the session
waits for more.
-/

namespace Universe.HttpProxy

open Incremental

/-- A session that waits for its client has no whole request to look at. -/
def Unstranded (s : Session) : Prop :=
  s.pending = .readRequest ∨ s.pending = .readSecure →
    HttpRequest.parseRequest s.packetIn = .error .ag

/-- Nothing is left over where a session reads on without looking: behind a
407 and behind an answer in a tunnel. -/
def Clear (p : Proxy) (event : Event) : Prop :=
  ∀ id session, event = .completes id .written →
    p.sessions[id]? = some session →
    session.pending = .write407 ∨ session.pending = .writeSecureResponse →
    HttpRequest.parseRequest session.packetIn = .error .ag

/-- A session that waits for its client, or will do so without looking at
`packet_in_`. -/
def Pending.hears : Pending → Bool
  | .readRequest | .readSecure | .handshakeClient | .handshakeOrigin => true
  | _ => false

/-- What is kept of `packet_in_` while it is not looked at. -/
structure Kept (s : Session) : Prop where
  reading : Unstranded s
  shaking : s.pending = .handshakeClient ∨ s.pending = .handshakeOrigin →
    s.packetIn = []

theorem parseRequest_nil : HttpRequest.parseRequest [] = .error .ag := by
  decide +kernel

theorem kept_of_deaf {s : Session} (deaf : s.pending.hears = false) :
    Kept s := by
  constructor
  · rintro (reading | reading)
    · rw [reading] at deaf
      cases deaf
    · rw [reading] at deaf
      cases deaf
  · rintro (shaking | shaking)
    · rw [shaking] at deaf
      cases deaf
    · rw [shaking] at deaf
      cases deaf

theorem kept_of_again {s : Session}
    (again : HttpRequest.parseRequest s.packetIn = .error .ag)
    (waits : s.pending = .readRequest ∨ s.pending = .readSecure) :
    Kept s := by
  constructor
  · intro _
    exact again
  · rintro (shaking | shaking)
    · rw [shaking] at waits
      rcases waits with impossible | impossible
      · cases impossible
      · cases impossible
    · rw [shaking] at waits
      rcases waits with impossible | impossible
      · cases impossible
      · cases impossible

theorem kept_of_nothing {s : Session} (nothing : s.packetIn = []) : Kept s := by
  constructor
  · intro _
    rw [nothing]
    exact parseRequest_nil
  · intro _
    exact nothing

namespace Scene

variable (id : Nat) (now : Int)

theorem doAfterAuth_deaf (s : Scene) :
    (doAfterAuth id now s).session.pending.hears = false := by
  unfold doAfterAuth
  split
  · rfl
  · dsimp only
    split
    · split
      · rfl
      · rfl
    · split
      · rfl
      · rfl

theorem doAuth_deaf (s : Scene) :
    (doAuth id now s).session.pending.hears = false := by
  unfold doAuth
  split
  · rfl
  · dsimp only
    split
    · split
      · rfl
      · exact doAfterAuth_deaf id now _
    · rfl

theorem handleReadHttpRequest_kept (bytes : Bytes) (s : Scene) :
    Kept (handleReadHttpRequest id now bytes s).session := by
  unfold handleReadHttpRequest
  dsimp only
  split
  · exact kept_of_deaf rfl
  · split
    · apply kept_of_deaf
      dsimp only
      split
      · rfl
      · exact doAuth_deaf id now _
    · next again => exact kept_of_again again (.inl rfl)
    · exact kept_of_deaf rfl

theorem handleReadAfterHandshake_kept (bytes : Bytes) (s : Scene) :
    Kept (handleReadAfterHandshake id bytes s).session := by
  unfold handleReadAfterHandshake
  dsimp only
  split
  · exact kept_of_deaf rfl
  · split
    · exact kept_of_deaf rfl
    · next again => exact kept_of_again again (.inr rfl)
    · exact kept_of_deaf rfl

theorem handleReadResponse_deaf {reading answering : Pending}
    (deafReading : reading.hears = false)
    (deafAnswering : answering.hears = false) (bytes : Bytes)
    (undefined : Except ReaderException HttpResponse) (s : Scene) :
    (s.handleReadResponse reading answering bytes
      undefined).session.pending.hears = false := by
  unfold handleReadResponse
  dsimp only
  split
  · exact deafAnswering
  · exact deafReading
  · rfl

theorem doReadForConnectRequest_kept (certified : Bool) (s : Scene) :
    Kept (s.doReadForConnectRequest certified).session := by
  unfold doReadForConnectRequest
  split
  · next ready =>
      apply kept_of_nothing
      exact List.isEmpty_iff.mp (Bool.and_eq_true_iff.mp ready).1
  · exact kept_of_deaf rfl

theorem handleResponse_kept (s : Scene) :
    Kept (handleResponse id now s).session := by
  unfold handleResponse
  split
  · next nothing =>
      apply kept_of_nothing
      exact List.isEmpty_iff.mp nothing
  · exact handleReadHttpRequest_kept id now [] s

/-- A handler keeps the left-over bytes right, unless it reads on without
looking at them. -/
theorem complete_kept {s after : Scene} {completion : Completion}
    (kept : Kept s.session)
    (clear : completion = .written → s.session.pending = .write407 ∨
        s.session.pending = .writeSecureResponse →
      HttpRequest.parseRequest s.session.packetIn = .error .ag)
    (completed : complete id now s completion = some after) :
    Kept after.session := by
  have deaf : ∀ {pending : Pending}, pending.hears = false →
      Kept (s.await pending).session := fun {_} quiet => kept_of_deaf quiet
  unfold complete at completed
  split at completed
  · cases completed
    exact handleReadHttpRequest_kept id now _ s
  · next _ writing =>
      cases completed
      exact kept_of_again (clear rfl (.inl writing)) (.inl rfl)
  · split at completed
    · cases completed
      exact kept_of_deaf (doAfterAuth_deaf id now _)
    · cases completed
      exact kept_of_deaf rfl
  · cases completed
    exact deaf rfl
  · cases completed
    apply kept_of_deaf
    unfold writeDirectRequest
    split
    · rfl
    · rfl
  · cases completed
    exact deaf rfl
  · cases completed
    exact deaf rfl
  · cases completed
    exact kept_of_deaf (handleReadResponse_deaf rfl rfl _ _ s)
  · cases completed
    exact handleResponse_kept id now s
  · cases completed
    exact deaf rfl
  · cases completed
    exact deaf rfl
  · cases completed
    exact deaf rfl
  · cases completed
    exact doReadForConnectRequest_kept _ s
  · next _ shaking =>
      cases completed
      exact kept_of_nothing (kept.shaking (.inl shaking))
  · next _ shaking =>
      cases completed
      exact kept_of_nothing (kept.shaking (.inr shaking))
  · cases completed
    exact handleReadAfterHandshake_kept id _ s
  · cases completed
    exact deaf rfl
  · cases completed
    exact kept_of_deaf (handleReadResponse_deaf rfl rfl _ _ s)
  · next _ writing =>
      cases completed
      exact kept_of_again (clear rfl (.inr writing)) (.inr rfl)
  · cases completed
  · cases completed
  · cases completed
  · cases completed
    exact deaf rfl
  · cases completed

end Scene

/-- All sessions. -/
def AllKept (p : Proxy) : Prop := ∀ session ∈ p.sessions, Kept session

theorem AllKept.step {p : Proxy} {event : Event} (kept : AllKept p) (now : Int)
    (clear : Clear p event) : AllKept (p.step now event) := by
  unfold Proxy.step
  split
  · intro session member
    rcases List.mem_append.mp member with before | new
    · exact kept session before
    · cases List.mem_singleton.mp new
      exact kept_of_nothing rfl
  · next id completion =>
      split
      · exact kept
      · next session here =>
          split
          · exact kept
          · next after completed =>
              have old : Kept session := kept session (List.mem_of_getElem? here)
              have looked : completion = .written →
                  session.pending = .write407 ∨
                    session.pending = .writeSecureResponse →
                  HttpRequest.parseRequest session.packetIn = .error .ag := by
                intro written
                subst written
                exact clear id session rfl here
              intro other member
              rcases List.mem_or_eq_of_mem_set member with before | new
              · exact kept other before
              · subst new
                exact Scene.complete_kept id now
                  (s := ⟨session, p.cache, p.records⟩) old looked completed

theorem AllKept.run {p : Proxy} {events : List (Int × Event)}
    (kept : AllKept p)
    (clear : ∀ before now event after,
      events = before ++ (now, event) :: after →
      Clear (p.run before) event) : AllKept (p.run events) := by
  induction events generalizing p with
  | nil => exact kept
  | cons first events induction =>
      obtain ⟨now, event⟩ := first
      have step := kept.step now (clear [] now event events rfl)
      apply induction step
      intro before later other after whole
      exact clear ((now, event) :: before) later other after
        (congrArg ((now, event) :: ·) whole)

/-- A session that reads on behind a 407 or behind an answer in a tunnel does
so with what is left over. -/
theorem Clear.of_unstranded {p : Proxy} (now : Int) {event : Event}
    (unstranded : ∀ session ∈ (p.step now event).sessions,
      Unstranded session) : Clear p event := by
  intro id session written here writing
  subst written
  have inside : id < p.sessions.length := (List.getElem?_eq_some_iff.mp here).1
  have member : ∀ other : Session,
      other ∈ p.sessions.set id other := fun other =>
    List.mem_set inside other
  simp only [Proxy.step, here] at unstranded
  rcases writing with writing | writing
  · have completed : Scene.complete id now ⟨session, p.cache, p.records⟩
        .written = some (Scene.await ⟨session, p.cache, p.records⟩
          .readRequest) := by
      simp only [Scene.complete, writing]
    rw [completed] at unstranded
    exact unstranded { session with pending := .readRequest } (member _)
      (.inl rfl)
  · have completed : Scene.complete id now ⟨session, p.cache, p.records⟩
        .written = some (Scene.await ⟨session, p.cache, p.records⟩
          .readSecure) := by
      simp only [Scene.complete, writing]
    rw [completed] at unstranded
    exact unstranded { session with pending := .readSecure } (member _)
      (.inr rfl)

/-- No session waits for its client with a whole request at hand, in any state
of a run, exactly if nothing is left over where a session reads on without
looking. -/
theorem unstranded_iff_clear (events : List (Int × Event)) :
    (∀ before after, events = before ++ after →
      ∀ session ∈ (Proxy.run {} before).sessions, Unstranded session) ↔
    ∀ before now event after, events = before ++ (now, event) :: after →
      Clear (Proxy.run {} before) event := by
  constructor
  · intro unstranded before now event after whole
    have next : events = (before ++ [(now, event)]) ++ after := by
      rw [whole, List.append_assoc]
      rfl
    apply Clear.of_unstranded now
    intro session member
    refine unstranded _ after next session ?_
    rw [Proxy.run_append]
    exact member
  · intro clear before after whole session member
    have start : AllKept {} := fun _ impossible => nomatch impossible
    have kept : AllKept (Proxy.run {} before) :=
      start.run fun early now event late part =>
        clear early now event (late ++ after) (by
          rw [whole, part, List.append_assoc]
          rfl)
    exact (kept session member).reading

/-- Two requests without credentials in one packet. -/
def twoRequests : List (Int × Event) :=
  let request := ascii "GET http://a/ HTTP/1.1\r\n\r\n"
  [(0, .accept),
    (0, .completes 0 (.read (request ++ request) (.error .ng))),
    (0, .completes 0 .written)]

theorem second_request_is_stranded :
    ¬ ∀ (events : List (Int × Event)) (session : Session),
      session ∈ (Proxy.run {} events).sessions → Unstranded session := by
  intro unstranded
  have looked : ∀ session ∈ (Proxy.run {} twoRequests).sessions,
      session.pending ≠ .readRequest ∨
        HttpRequest.parseRequest session.packetIn = .error .ag := by
    intro session member
    by_cases reading : session.pending = .readRequest
    · exact .inr (unstranded twoRequests session member (.inl reading))
    · exact .inl reading
  revert looked
  decide +kernel

end Universe.HttpProxy
