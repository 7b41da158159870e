import Universe.HttpProxy.Session

/-!
# Authorised requests

A packet goes to an origin server only for a request whose credentials the
verification service has confirmed, or in a tunnel that such a request has
opened.  The cache stands for the answers of the last 15 minutes.
-/

namespace Universe.HttpProxy

section Forms

/-- The value of a capital digit. -/
def hexValue (digit : UInt8) : UInt8 :=
  if digit < 58 then digit - 48 else digit - 55

/-- The first byte of an encoded text. -/
def urlDecodeFirst : Bytes → Option (UInt8 × Bytes)
  | [] => none
  | byte :: rest =>
      if byte = 37 then
        some (16 * hexValue (rest.getD 0 0) + hexValue (rest.getD 1 0),
          rest.drop 2)
      else some (byte, rest)

theorem forall_byte {property : UInt8 → Prop}
    (each : ∀ number : Fin 256, property (UInt8.ofFin number))
    (byte : UInt8) : property byte :=
  each byte.toFin

theorem urlEncodeByte_decoded (byte : UInt8) (rest : Bytes) :
    urlDecodeFirst (urlEncodeByte byte ++ rest) = some (byte, rest) := by
  have digits : ∀ byte : UInt8,
      16 * hexValue (hexDigit (byte / 16)) + hexValue (hexDigit (byte % 16)) =
        byte :=
    forall_byte (by decide +kernel)
  unfold urlEncodeByte
  split
  · next safe =>
      have other : byte ≠ 37 := by
        intro same
        subst same
        revert safe
        decide
      change (if byte = 37 then _ else _) = _
      rw [if_neg other]
      rfl
  · exact congrArg (fun value => some (value, rest)) (digits byte)

theorem urlEncode_injective {first second : Bytes}
    (same : urlEncode first = urlEncode second) : first = second := by
  induction first generalizing second with
  | nil =>
      cases second with
      | nil => rfl
      | cons byte rest =>
          have decoded := urlEncodeByte_decoded byte (urlEncode rest)
          have empty : urlEncodeByte byte ++ urlEncode rest = [] := same.symm
          rw [empty] at decoded
          cases decoded
  | cons byte rest induction =>
      cases second with
      | nil =>
          have decoded := urlEncodeByte_decoded byte (urlEncode rest)
          have empty : urlEncodeByte byte ++ urlEncode rest = [] := same
          rw [empty] at decoded
          cases decoded
      | cons other more =>
          have decoded := urlEncodeByte_decoded byte (urlEncode rest)
          have again := urlEncodeByte_decoded other (urlEncode more)
          have whole : urlEncodeByte byte ++ urlEncode rest =
              urlEncodeByte other ++ urlEncode more := same
          rw [whole, again] at decoded
          injection decoded with pair
          injection pair with sameByte sameRest
          rw [sameByte, induction sameRest.symm]

theorem ampersand_notMem (text : Bytes) :
    ∀ byte ∈ urlEncode text, byte ≠ 38 := by
  have each : ∀ byte : UInt8, (urlEncodeByte byte).all (· != 38) = true :=
    forall_byte (by decide +kernel)
  intro code member
  obtain ⟨byte, -, inside⟩ := List.mem_flatMap.mp member
  exact bne_iff_ne.mp (List.all_eq_true.mp (each byte) code inside)

/-- The form says which user and which password it is about. -/
theorem form_injective {user pass otherUser otherPass : Bytes}
    (same : form user pass = form otherUser otherPass) :
    user = otherUser ∧ pass = otherPass := by
  have tails : urlEncode user ++ (ascii "&password=" ++ urlEncode pass) =
      urlEncode otherUser ++ (ascii "&password=" ++ urlEncode otherPass) := by
    unfold form at same
    simp only [List.append_assoc] at same
    exact List.append_cancel_left same
  have cut : ∀ text rest, (urlEncode text ++
      (ascii "&password=" ++ rest)).takeWhile (· != 38) = urlEncode text := by
    intro text rest
    have kept : ∀ byte ∈ urlEncode text, (byte != 38) = true :=
      fun byte member => bne_iff_ne.mpr (ampersand_notMem text byte member)
    rw [List.takeWhile_append_of_pos kept]
    exact List.append_nil _
  have users : urlEncode user = urlEncode otherUser := by
    rw [← cut user (urlEncode pass), tails, cut]
  rw [users] at tails
  have passes := List.append_cancel_left (List.append_cancel_left tails)
  exact ⟨urlEncode_injective users, urlEncode_injective passes⟩

end Forms

/-- A form that is about this user and this password only. -/
def Names (posted user pass : Bytes) : Prop :=
  ∀ otherUser otherPass, posted = form otherUser otherPass ↔
    otherUser = user ∧ otherPass = pass

theorem names_form (user pass : Bytes) : Names (form user pass) user pass := by
  intro otherUser otherPass
  constructor
  · intro same
    obtain ⟨sameUser, samePass⟩ := form_injective same
    exact ⟨sameUser.symm, samePass.symm⟩
  · rintro ⟨rfl, rfl⟩
    rfl

/-- The session has reached `do_after_auth` for the request. -/
def Granted (session : Nat) (request : Numbered) (records : List Record) :
    Prop :=
  ∃ time, Record.afterAuth session request time ∈ records

/-- What must have happened before. -/
def Justified : Record → List Record → Prop
  | .verified _ _, _ => True
  | .afterAuth _ numbered time, earlier =>
      ∃ user pass posted verifiedAt,
        numbered.request.credentials = some (user, pass) ∧
        Names posted user pass ∧ .verified posted verifiedAt ∈ earlier ∧
        time ≤ verifiedAt + Cache.defaultExpire
  | .wrote session numbered tunnel packet, earlier =>
      packet = numbered.request.forwardProxyPacket ∧
      match tunnel with
      | none => Granted session numbered earlier
      | some connect =>
          connect.request.isConnect = true ∧ Granted session connect earlier

/-- Every record is justified by those before it, which follow it here. -/
def Authorised : List Record → Prop
  | [] => True
  | record :: earlier => Justified record earlier ∧ Authorised earlier

/-- The cache has what the service has answered, with the time of the answer. -/
def CacheSound (cache : Cache) (records : List Record) : Prop :=
  ∀ user expire, cache.expire user = some expire →
    ∃ pass verifiedAt, cache.cache user = some pass ∧
      .verified (form user pass) verifiedAt ∈ records ∧
      expire = verifiedAt + Cache.defaultExpire

def Pending.verifies : Pending → Bool
  | .verify _ _ => true
  | _ => false

/-- The operations before a packet is written that no tunnel has been opened
for. -/
def Pending.serves : Pending → Bool
  | .resolveDirect | .connectDirect _ => true
  | _ => false

/-- The operations that open a tunnel, and those in it. -/
def Pending.tunnels : Pending → Bool
  | .resolveConnect | .connectConnect _ | .writeEstablished | .handshakeClient
  | .handshakeOrigin | .readSecure | .writeSecure | .readSecureResponse
  | .writeSecureResponse => true
  | _ => false

/-- What a session must be entitled to while it waits for an operation. -/
structure Entitled (id : Nat) (records : List Record) (s : Session) :
    Prop where
  verifying : ∀ user pass, s.pending = .verify user pass →
    ∃ numbered, s.request = some numbered ∧
      numbered.request.credentials = some (user, pass)
  serving : s.pending.serves = true →
    ∃ numbered, s.request = some numbered ∧ Granted id numbered records
  tunnelling : s.pending.tunnels = true →
    ∃ connect, s.connectRequest = some connect ∧
      connect.request.isConnect = true ∧ Granted id connect records

theorem Granted.later {session : Nat} {request : Numbered}
    {records later : List Record} (granted : Granted session request records)
    (grown : records <:+ later) : Granted session request later := by
  obtain ⟨time, member⟩ := granted
  exact ⟨time, grown.subset member⟩

theorem CacheSound.later {cache : Cache} {records later : List Record}
    (cached : CacheSound cache records) (grown : records <:+ later) :
    CacheSound cache later := by
  intro user expire kept
  obtain ⟨pass, verifiedAt, value, member, same⟩ := cached user expire kept
  exact ⟨pass, verifiedAt, value, grown.subset member, same⟩

namespace Entitled

variable {id : Nat} {records more : List Record} {s : Session}

theorem later (entitled : Entitled id records s)
    (grown : records <:+ more) : Entitled id more s := by
  refine ⟨entitled.verifying, ?_, ?_⟩
  · intro serves
    obtain ⟨numbered, request, granted⟩ := entitled.serving serves
    exact ⟨numbered, request, granted.later grown⟩
  · intro tunnels
    obtain ⟨connect, request, method, granted⟩ := entitled.tunnelling tunnels
    exact ⟨connect, request, method, granted.later grown⟩

/-- An operation that needs nothing. -/
theorem free (verifies : s.pending.verifies = false)
    (serves : s.pending.serves = false)
    (tunnels : s.pending.tunnels = false) : Entitled id records s := by
  refine ⟨?_, ?_, ?_⟩
  · intro user pass same
    rw [same] at verifies
    cases verifies
  · intro other
    rw [serves] at other
    cases other
  · intro other
    rw [tunnels] at other
    cases other

theorem serve {numbered : Numbered}
    (verifies : s.pending.verifies = false)
    (tunnels : s.pending.tunnels = false)
    (request : s.request = some numbered)
    (granted : Granted id numbered records) : Entitled id records s := by
  refine ⟨?_, fun _ => ⟨numbered, request, granted⟩, ?_⟩
  · intro user pass same
    rw [same] at verifies
    cases verifies
  · intro other
    rw [tunnels] at other
    cases other

theorem tunnel {connect : Numbered}
    (verifies : s.pending.verifies = false)
    (serves : s.pending.serves = false)
    (request : s.connectRequest = some connect)
    (method : connect.request.isConnect = true)
    (granted : Granted id connect records) : Entitled id records s := by
  refine ⟨?_, ?_, fun _ => ⟨connect, request, method, granted⟩⟩
  · intro user pass same
    rw [same] at verifies
    cases verifies
  · intro other
    rw [serves] at other
    cases other

/-- The next address of the same server. -/
theorem connect (entitled : Entitled id records s)
    (serves : s.pending.serves = true) {more : Nat} :
    Entitled id records { s with pending := .connectDirect more } := by
  obtain ⟨numbered, request, granted⟩ := entitled.serving serves
  exact serve rfl rfl request granted

/-- The next operation in the same tunnel. -/
theorem onward (entitled : Entitled id records s)
    (within : s.pending.tunnels = true) {pending : Pending}
    (verifies : pending.verifies = false)
    (serves : pending.serves = false) :
    Entitled id records { s with pending } := by
  obtain ⟨connect, request, method, granted⟩ := entitled.tunnelling within
  exact tunnel verifies serves request method granted

end Entitled

/-- What a handler leaves, from the records it has found. -/
structure Sound (id : Nat) (before : List Record) (s : Scene) : Prop where
  authorised : Authorised s.records
  cached : CacheSound s.cache s.records
  entitled : Entitled id s.records s.session
  grown : before <:+ s.records

theorem CacheSound.get {cache : Cache} {records : List Record}
    (cached : CacheSound cache records) (now : Int) (user : Bytes) :
    CacheSound (cache.get now user).2 records ∧
      ∀ pass, (cache.get now user).1 = some pass →
        ∃ verifiedAt, .verified (form user pass) verifiedAt ∈ records ∧
          now ≤ verifiedAt + Cache.defaultExpire := by
  unfold Cache.get
  cases kept : cache.expire user with
  | none =>
      refine ⟨cached, ?_⟩
      intro pass impossible
      cases impossible
  | some expire =>
      dsimp only
      by_cases passed : expire < now
      · rw [if_pos passed]
        refine ⟨?_, ?_⟩
        · intro other expires still
          by_cases same : other = user
          · subst same
            dsimp only at still
            rw [Function.update_self] at still
            cases still
          · dsimp only at still ⊢
            rw [Function.update_of_ne same] at still ⊢
            exact cached other expires still
        · intro pass impossible
          cases impossible
      · rw [if_neg passed]
        refine ⟨cached, ?_⟩
        intro pass found
        obtain ⟨known, verifiedAt, value, member, same⟩ :=
          cached user expire kept
        rw [value] at found
        cases found
        refine ⟨verifiedAt, member, ?_⟩
        omega

theorem CacheSound.set {cache : Cache} {records : List Record}
    (cached : CacheSound cache records) (now : Int) (user pass : Bytes) :
    CacheSound (cache.set now user pass)
      (.verified (form user pass) now :: records) := by
  intro other expire kept
  unfold Cache.set at kept ⊢
  dsimp only at kept ⊢
  by_cases same : other = user
  · subst same
    rw [Function.update_self] at kept ⊢
    cases kept
    exact ⟨pass, now, rfl, List.mem_cons_self, rfl⟩
  · rw [Function.update_of_ne same] at kept ⊢
    exact cached.later (List.suffix_cons _ _) other expire kept

namespace Scene

variable {id : Nat} (now : Int) {s : Scene}

theorem await_sound {session : Session} {cache : Cache}
    {records : List Record} {pending : Pending}
    (authorised : Authorised records) (cached : CacheSound cache records)
    (entitled : Entitled id records { session with pending }) :
    Sound id records (await ⟨session, cache, records⟩ pending) :=
  ⟨authorised, cached, entitled, List.suffix_rfl⟩

theorem over_sound {session : Session} {cache : Cache}
    {records : List Record} (authorised : Authorised records)
    (cached : CacheSound cache records) :
    Sound id records (await ⟨session, cache, records⟩ .over) :=
  await_sound authorised cached
    (.free rfl rfl rfl)

/-- A session reaches `do_after_auth` with credentials that the service has
confirmed in time. -/
theorem doAfterAuth_sound {user pass : Bytes} {verifiedAt : Int}
    {numbered : Numbered} (authorised : Authorised s.records)
    (cached : CacheSound s.cache s.records)
    (request : s.session.request = some numbered)
    (decoded : numbered.request.credentials = some (user, pass))
    (verified : .verified (form user pass) verifiedAt ∈ s.records)
    (fresh : now ≤ verifiedAt + Cache.defaultExpire) :
    Sound id s.records (doAfterAuth id now s) := by
  have justified : Authorised (.afterAuth id numbered now :: s.records) :=
    ⟨⟨user, pass, form user pass, verifiedAt, decoded, names_form user pass,
      verified, fresh⟩, authorised⟩
  have grown : s.records <:+ .afterAuth id numbered now :: s.records :=
    List.suffix_cons _ _
  have granted : Granted id numbered
      (.afterAuth id numbered now :: s.records) :=
    ⟨now, List.mem_cons_self⟩
  unfold doAfterAuth
  rw [request]
  dsimp only
  split
  · next method =>
      split
      · exact ⟨justified, cached.later grown,
          .tunnel rfl rfl rfl method
            granted, grown⟩
      · exact ⟨justified, cached.later grown,
          .free rfl rfl rfl, grown⟩
  · split
    · exact ⟨justified, cached.later grown,
        .serve rfl rfl request granted,
        grown⟩
    · exact ⟨justified, cached.later grown,
        .free rfl rfl rfl, grown⟩

theorem doAuth_sound (authorised : Authorised s.records)
    (cached : CacheSound s.cache s.records) :
    Sound id s.records (doAuth id now s) := by
  unfold doAuth
  split
  · exact over_sound authorised cached
  · next user pass found =>
      obtain ⟨numbered, request, decoded⟩ := Option.bind_eq_some_iff.mp found
      obtain ⟨kept, answered⟩ := cached.get now user
      let looked : Scene := {
        session := { s.session with authUser := user }
        cache := (s.cache.get now user).2
        records := s.records }
      dsimp only
      split
      · next cachedPass hit =>
          obtain ⟨verifiedAt, verified, fresh⟩ := answered cachedPass hit
          split
          · exact over_sound authorised kept
          · next same =>
              have samePass : cachedPass = pass := not_not.mp same
              subst samePass
              exact doAfterAuth_sound now (s := looked) authorised kept
                request decoded verified fresh
      · refine await_sound authorised kept ?_
        refine ⟨?_, (fun impossible => nomatch impossible),
          (fun impossible => nomatch impossible)⟩
        intro otherUser otherPass same
        cases same
        exact ⟨numbered, request, decoded⟩

theorem doWrite407Unauthorized_sound (authorised : Authorised s.records)
    (cached : CacheSound s.cache s.records) :
    Sound id s.records s.doWrite407Unauthorized :=
  ⟨authorised, cached,
    .free rfl rfl rfl,
    List.suffix_rfl⟩

theorem handleReadHttpRequest_sound (bytes : Bytes)
    (authorised : Authorised s.records)
    (cached : CacheSound s.cache s.records) :
    Sound id s.records (handleReadHttpRequest id now bytes s) := by
  unfold handleReadHttpRequest
  dsimp only
  split
  · exact over_sound authorised cached
  · split
    · next request parsedLength parsed =>
        let read : Scene := { s with session := { s.session with
          packetIn := s.session.packetIn ++ bytes
          request := some ⟨s.session.parsed, request⟩
          parsed := s.session.parsed + 1 } }
        have answered : Sound id s.records
            (if (request.headers.find (ascii "Proxy-Authorization")).isNone
              then read.doWrite407Unauthorized else doAuth id now read) := by
          split
          · exact doWrite407Unauthorized_sound (s := read) authorised cached
          · exact doAuth_sound now (s := read) authorised cached
        exact ⟨answered.authorised, answered.cached,
          ⟨answered.entitled.verifying, answered.entitled.serving,
            answered.entitled.tunnelling⟩, answered.grown⟩
    · exact await_sound authorised cached
        (.free rfl rfl rfl)
    · exact over_sound authorised cached

theorem writeDirectRequest_sound (authorised : Authorised s.records)
    (cached : CacheSound s.cache s.records)
    (entitled : Entitled id s.records s.session)
    (serves : s.session.pending.serves = true) :
    Sound id s.records (writeDirectRequest id s) := by
  obtain ⟨numbered, request, granted⟩ := entitled.serving serves
  unfold writeDirectRequest
  rw [request]
  exact ⟨⟨⟨rfl, granted⟩, authorised⟩, cached.later (List.suffix_cons _ _),
    .free rfl rfl rfl,
    List.suffix_cons _ _⟩

theorem handleReadAfterHandshake_sound (bytes : Bytes)
    (authorised : Authorised s.records)
    (cached : CacheSound s.cache s.records)
    (entitled : Entitled id s.records s.session)
    (tunnels : s.session.pending.tunnels = true) :
    Sound id s.records (handleReadAfterHandshake id bytes s) := by
  obtain ⟨connect, opened, method, granted⟩ := entitled.tunnelling tunnels
  unfold handleReadAfterHandshake
  dsimp only
  split
  · exact over_sound authorised cached
  · split
    · next request parsedLength parsed =>
        have grown : s.records <:+ .wrote id ⟨s.session.parsed, request⟩
            s.session.connectRequest request.forwardProxyPacket ::
              s.records := List.suffix_cons _ _
        refine ⟨⟨⟨rfl, ?_⟩, authorised⟩, cached.later grown, ?_, grown⟩
        · rw [opened]
          exact ⟨method, granted⟩
        · exact .tunnel rfl rfl opened
            method (granted.later grown)
    · exact await_sound authorised cached
        (.tunnel rfl rfl opened method
          granted)
    · exact over_sound authorised cached

theorem handleResponse_sound (authorised : Authorised s.records)
    (cached : CacheSound s.cache s.records) :
    Sound id s.records (handleResponse id now s) := by
  unfold handleResponse
  split
  · exact await_sound authorised cached
      (.free rfl rfl rfl)
  · exact handleReadHttpRequest_sound now [] authorised cached

/-- Reading an answer needs no more than the session already has. -/
theorem handleReadResponse_sound {reading answering : Pending} (bytes : Bytes)
    (undefined : Except ReaderException HttpResponse)
    (authorised : Authorised s.records)
    (cached : CacheSound s.cache s.records)
    (again : Entitled id s.records { s.session with pending := reading })
    (answer : Entitled id s.records { s.session with pending := answering }) :
    Sound id s.records
      (s.handleReadResponse reading answering bytes undefined) := by
  unfold handleReadResponse
  dsimp only
  split
  · exact ⟨authorised, cached,
      ⟨answer.verifying, answer.serving, answer.tunnelling⟩, List.suffix_rfl⟩
  · exact ⟨authorised, cached,
      ⟨again.verifying, again.serving, again.tunnelling⟩, List.suffix_rfl⟩
  · exact over_sound authorised cached

/-- Every handler keeps what is said of its session and of the cache. -/
theorem complete_sound {after : Scene} {completion : Completion}
    (authorised : Authorised s.records)
    (cached : CacheSound s.cache s.records)
    (entitled : Entitled id s.records s.session)
    (completed : complete id now s completion = some after) :
    Sound id s.records after := by
  have free : ∀ {pending : Pending},
      pending.verifies = false → pending.serves = false →
      pending.tunnels = false → Sound id s.records (s.await pending) :=
    fun {_} verifies serves tunnels =>
      await_sound authorised cached (.free verifies serves tunnels)
  have onward : s.session.pending.tunnels = true →
      ∀ {pending : Pending}, pending.verifies = false →
      pending.serves = false → Sound id s.records (s.await pending) :=
    fun within {_} verifies serves =>
      await_sound authorised cached (entitled.onward within verifies serves)
  unfold complete at completed
  split at completed
  · cases completed
    exact handleReadHttpRequest_sound now _ authorised cached
  · cases completed
    exact free rfl rfl rfl
  · next user pass status waiting =>
      obtain ⟨numbered, request, decoded⟩ :=
        entitled.verifying user pass waiting
      split at completed
      · cases completed
        have verified : Authorised
            (.verified (form user pass) now :: s.records) :=
          ⟨trivial, authorised⟩
        let confirmed : Scene := ⟨s.session, s.cache.set now user pass,
          .verified (form user pass) now :: s.records⟩
        have fresh : now ≤ now + Cache.defaultExpire := by
          unfold Cache.defaultExpire
          omega
        have reached : Sound id confirmed.records
            (doAfterAuth id now confirmed) :=
          doAfterAuth_sound now verified (cached.set now user pass) request
            decoded List.mem_cons_self fresh
        exact ⟨reached.authorised, reached.cached, reached.entitled,
          (List.suffix_cons _ _).trans reached.grown⟩
      · cases completed
        exact doWrite407Unauthorized_sound authorised cached
  · next _ waiting =>
      cases completed
      exact await_sound authorised cached (entitled.connect (by rw [waiting]; rfl))
  · next _ waiting =>
      cases completed
      exact writeDirectRequest_sound authorised cached entitled
        (by rw [waiting]; rfl)
  · next _ waiting =>
      cases completed
      exact await_sound authorised cached (entitled.connect (by rw [waiting]; rfl))
  · cases completed
    exact free rfl rfl rfl
  · cases completed
    exact handleReadResponse_sound _ _ authorised cached
      (.free rfl rfl rfl)
      (.free rfl rfl rfl)
  · cases completed
    exact handleResponse_sound now authorised cached
  · next _ waiting =>
      cases completed
      exact onward (by rw [waiting]; rfl) rfl rfl
  · next _ waiting =>
      cases completed
      exact onward (by rw [waiting]; rfl) rfl rfl
  · next _ waiting =>
      cases completed
      exact onward (by rw [waiting]; rfl) rfl rfl
  · next _ waiting =>
      cases completed
      unfold doReadForConnectRequest
      split
      · exact onward (by rw [waiting]; rfl) rfl rfl
      · exact over_sound authorised cached
  · next _ waiting =>
      cases completed
      exact onward (by rw [waiting]; rfl) rfl rfl
  · next _ waiting =>
      cases completed
      exact onward (by rw [waiting]; rfl) rfl rfl
  · next _ waiting =>
      cases completed
      exact handleReadAfterHandshake_sound _ authorised cached entitled
        (by rw [waiting]; rfl)
  · next _ waiting =>
      cases completed
      exact onward (by rw [waiting]; rfl) rfl rfl
  · next _ _ waiting =>
      cases completed
      have within : s.session.pending.tunnels = true := by rw [waiting]; rfl
      exact handleReadResponse_sound _ _ authorised cached
        (entitled.onward within rfl rfl)
        (entitled.onward within rfl rfl)
  · next _ waiting =>
      cases completed
      exact onward (by rw [waiting]; rfl) rfl rfl
  · cases completed
  · cases completed
  · cases completed
  · cases completed
    exact over_sound authorised cached
  · cases completed

end Scene

/-- The whole proxy: what has happened, the cache, and every session. -/
structure Safe (p : Proxy) : Prop where
  authorised : Authorised p.records
  cached : CacheSound p.cache p.records
  entitled : ∀ id session, p.sessions[id]? = some session →
    Entitled id p.records session

theorem Safe.start : Safe {} := by
  refine ⟨trivial, ?_, ?_⟩
  · intro user expire impossible
    cases impossible
  · intro id session impossible
    cases impossible

theorem Safe.step {p : Proxy} (safe : Safe p) (now : Int) (event : Event) :
    Safe (p.step now event) := by
  unfold Proxy.step
  split
  · refine ⟨safe.authorised, safe.cached, ?_⟩
    intro id session here
    rw [List.getElem?_append] at here
    split at here
    · exact safe.entitled id session here
    · cases List.mem_singleton.mp (List.mem_of_getElem? here)
      exact .free rfl rfl rfl
  · next id completion =>
      split
      · exact safe
      · next session here =>
          split
          · exact safe
          · next after completed =>
              have sound := Scene.complete_sound now
                (s := ⟨session, p.cache, p.records⟩) safe.authorised
                safe.cached (safe.entitled id session here) completed
              refine ⟨sound.authorised, sound.cached, ?_⟩
              intro other later there
              by_cases same : id = other
              · subst same
                have inside : id < p.sessions.length :=
                  (List.getElem?_eq_some_iff.mp here).1
                rw [List.getElem?_set_self inside] at there
                cases there
                exact sound.entitled
              · rw [List.getElem?_set_ne same] at there
                exact (safe.entitled other later there).later sound.grown

theorem Safe.run {p : Proxy} (safe : Safe p) (events : List (Int × Event)) :
    Safe (p.run events) := by
  induction events generalizing p with
  | nil => exact safe
  | cons first events induction =>
      exact induction (safe.step first.1 first.2)

/-- In every run, a packet goes to an origin server only for a request that has
reached `do_after_auth`, or in a tunnel that such a request has opened, and a
request gets there only with credentials the service has confirmed in time. -/
theorem packets_are_authorised (events : List (Int × Event)) :
    Authorised (Proxy.run {} events).records :=
  (Safe.start.run events).authorised

end Universe.HttpProxy
