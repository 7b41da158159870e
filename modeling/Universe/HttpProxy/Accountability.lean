import Universe.HttpProxy.Dialogue

/-!
# Whom a session reports

The reports name users.  None of them is a name that somebody has only claimed
to have: the verification service has confirmed it with its password, in time
for the request that bears both, which is the one posted or the CONNECT that
has opened its tunnel.
-/

namespace Universe.HttpProxy

/-- The report is that of a request of the session, or of one that has come
through the tunnel which this request, a CONNECT, has opened. -/
def About (requests : List HttpRequest) (named : HttpRequest)
    (report : Report) : Prop :=
  named ∈ requests ∧
    ((∃ guid, Reports ⟨none, guid⟩ named report) ∨
      named.isConnect = true ∧
        ∃ guid, ∃ r ∈ requests, Reports ⟨some named, guid⟩ r report)

/-- The user of a report was named with a password by the request it is about,
or by the CONNECT, and this request has passed its verification. -/
def Vouched (id : Nat) (records : List Record) (requests : List HttpRequest) :
    Report → Prop
  | report@(.request _ user _ _ _ _) => ∃ numbered pass,
      numbered.request.credentials = some (user, pass) ∧
        About requests numbered.request report ∧ Granted id numbered records
  | .response .. => True

section Posting

variable {id : Nat} {records : List Record} {requests : List HttpRequest}
  {s : Scene} (now : Int) (guid : Nat)

theorem About.later {named : HttpRequest} {report : Report}
    {more : List HttpRequest} (about : About requests named report)
    (grown : requests ⊆ more) : About more named report := by
  obtain ⟨asked, direct | ⟨method, guid, r, member, reports⟩⟩ := about
  · exact ⟨grown asked, .inl direct⟩
  · exact ⟨grown asked, .inr ⟨method, guid, r, grown member, reports⟩⟩

theorem Vouched.later {report : Report} {later : List Record}
    {more : List HttpRequest} (vouched : Vouched id records requests report)
    (grown : records <:+ later) (asked : requests ⊆ more) :
    Vouched id later more report := by
  cases report with
  | request uuid user method uri packet body =>
      obtain ⟨numbered, pass, credentials, about, granted⟩ := vouched
      exact ⟨numbered, pass, credentials, about.later asked,
        granted.later grown⟩
  | response uuid packet body => trivial

/-- A tunnel has been opened by a request of the session. -/
theorem Dialogue.opened {place : Place} {past : List HttpRequest}
    {talk : List Talk} (dialogue : Dialogue place past talk)
    {connect : HttpRequest} (tunnel : place.tunnel = some connect) :
    connect ∈ past := by
  induction dialogue with
  | silence => cases tunnel
  | exchange dialogue exchange induction =>
      cases exchange with
      | refused guid r => cases tunnel
      | connected guid method =>
          cases tunnel
          exact List.mem_append_right _ List.mem_cons_self
      | relayed relays reports responds =>
          exact List.mem_append_left _ (induction tunnel)

theorem vouched_doAfterAuth {r : HttpRequest} {pass : Bytes}
    (request : s.session.request.map (·.request) = some r)
    (outside : s.session.connectRequest = none)
    (credentials : r.credentials = some (s.session.authUser, pass))
    (asked : r ∈ requests) :
    ∀ report ∈ s.doAfterAuthPosts guid,
      Vouched id (s.doAfterAuth id now).records requests report := by
  obtain ⟨numbered, found, rfl⟩ := Option.map_eq_some_iff.mp request
  unfold Scene.doAfterAuthPosts Scene.doAfterAuth
  rw [found]
  dsimp only
  by_cases method : numbered.request.isConnect = true
  · rw [if_pos method]
    intro report impossible
    cases impossible
  · rw [if_neg method, if_neg method]
    have granted : Granted id numbered
        (.afterAuth id numbered now :: s.records) :=
      ⟨now, List.mem_cons_self⟩
    have vouched : Vouched id (.afterAuth id numbered now :: s.records)
        requests (s.session.postRequest guid numbered.request) := by
      unfold Session.postRequest
      rw [outside]
      exact ⟨numbered, pass, credentials,
        ⟨asked, .inl ⟨guid, .direct credentials⟩⟩, granted⟩
    intro report member
    rw [List.mem_singleton.mp member]
    split
    · exact vouched
    · exact vouched

theorem vouched_doAuth {r : HttpRequest} {number : Nat}
    (request : s.session.request = some ⟨number, r⟩)
    (outside : s.session.connectRequest = none) (asked : r ∈ requests) :
    ∀ report ∈ s.doAuthPosts now guid,
      Vouched id (s.doAuth id now).records requests report := by
  have last : s.session.request.map (·.request) = some r := by
    rw [request]
    rfl
  unfold Scene.doAuthPosts Scene.doAuth
  rw [request]
  dsimp only [Option.bind_some]
  cases credentials : r.credentials with
  | none =>
      intro report impossible
      cases impossible
  | some named =>
      obtain ⟨user, pass⟩ := named
      dsimp only
      cases looked : s.cache.get now user with
      | mk cached cache =>
          cases cached with
          | none =>
              intro report impossible
              cases impossible
          | some cachedPass =>
              dsimp only
              by_cases other : cachedPass ≠ pass
              · rw [if_pos other]
                intro report impossible
                cases impossible
              · rw [if_neg other, if_neg other]
                exact vouched_doAfterAuth now guid
                  (s := { s with
                    session := { s.session with authUser := user }
                    cache })
                  last outside credentials asked

theorem vouched_handleReadHttpRequest {l : Log}
    (idle : Idle none l s.session) (bytes : Bytes) :
    ∀ report ∈ s.handleReadHttpRequestPosts now guid bytes,
      Vouched id (s.handleReadHttpRequest id now bytes).records
        (s.session.newRequest (s.handleReadHttpRequest id now bytes).session)
        report := by
  have outside := idle.placed.absent
  unfold Scene.handleReadHttpRequestPosts Scene.handleReadHttpRequest
  dsimp only
  by_cases long : maxRequestPacketSize < (s.session.packetIn ++ bytes).length
  · rw [if_pos long]
    intro report impossible
    cases impossible
  · rw [if_neg long, if_neg long]
    cases parsed : HttpRequest.parseRequest (s.session.packetIn ++ bytes) with
    | ok result =>
        obtain ⟨r, parsedLength⟩ := result
        dsimp only
        by_cases bare : (r.headers.find
            (ascii "Proxy-Authorization")).isNone = true
        · rw [if_pos bare]
          intro report impossible
          cases impossible
        · rw [if_neg bare, if_neg bare]
          have fresh : ∀ (after : Scene) (posts : List Report),
              Begun guid r (s.session.parsed + 1) after.session posts →
              r ∈ s.session.newRequest { after.session with
                packetIn :=
                  (s.session.packetIn ++ bytes).drop parsedLength } := by
            intro after posts begun
            have only : s.session.newRequest { after.session with
                packetIn := (s.session.packetIn ++ bytes).drop parsedLength } =
                [r] := newRequest_next begun.parsed begun.request
            rw [only]
            exact List.mem_cons_self
          exact vouched_doAuth now guid rfl outside
            (fresh _ _ (begun_doAuth id guid now rfl rfl idle.quiet outside))
    | error stop =>
        intro report impossible
        cases impossible

theorem vouched_handleReadResponse (bytes : Bytes)
    (undefined : Except ReaderException HttpResponse) :
    ∀ report ∈ s.session.handleReadResponsePosts guid bytes undefined,
      Vouched id records requests report := by
  have answered : ∀ (session : Session) (response : HttpResponse),
      ∀ report ∈ session.postResponse guid response,
        Vouched id records requests report := by
    intro session response report
    unfold Session.postResponse
    split
    · intro impossible
      cases impossible
    · intro member
      rw [List.mem_singleton.mp member]
      trivial
  unfold Session.handleReadResponsePosts
  dsimp only
  intro report member
  split at member
  · exact answered _ _ report member
  · cases member

theorem vouched_handleReadAfterHandshake {connect : HttpRequest} {l : Log}
    (idle : Idle (some connect) l s.session)
    (entitled : ∃ numbered, s.session.connectRequest = some numbered ∧
      numbered.request.isConnect = true ∧ Granted id numbered records)
    (bytes : Bytes) :
    ∀ report ∈ s.session.handleReadAfterHandshakePosts guid bytes,
      Vouched id records (l.requests ++ s.session.newRequest
        (s.handleReadAfterHandshake id bytes).session) report := by
  obtain ⟨numbered, found, method, granted⟩ := entitled
  obtain ⟨pass, credentials⟩ := idle.placed.user connect rfl
  have opened := idle.placed.opened
  rw [found] at opened
  cases opened
  unfold Session.handleReadAfterHandshakePosts Scene.handleReadAfterHandshake
  dsimp only
  by_cases long : maxRequestPacketSize < (s.session.packetIn ++ bytes).length
  · rw [if_pos long]
    intro report impossible
    cases impossible
  · rw [if_neg long, if_neg long]
    cases parsed : HttpRequest.parseRequest (s.session.packetIn ++ bytes) with
    | ok result =>
        obtain ⟨r, parsedLength⟩ := result
        intro report member
        rw [List.mem_singleton.mp member]
        have reports := reports_tunnelled idle.placed guid r
        unfold Session.postRequest at reports ⊢
        refine ⟨numbered, pass, credentials,
          ⟨List.mem_append_left _ (idle.dialogue.opened rfl),
            .inr ⟨method, guid, r, ?_, reports⟩⟩, granted⟩
        rw [newRequest_next (r := r) (by rfl) (by rfl)]
        exact List.mem_append_right _ List.mem_cons_self
    | error stop =>
        intro report impossible
        cases impossible

/-- Whatever a handler posts is vouched for by what it leaves. -/
theorem vouched_posts {l : Log} {after : Scene} {completion : Completion}
    (conversing : Conversing l s.session)
    (entitled : Entitled id s.records s.session)
    (completed : s.complete id now completion = some after)
    (grown : s.records <:+ after.records) :
    ∀ report ∈ s.posts now guid completion,
      Vouched id after.records
        (l.requests ++ s.session.newRequest after.session) report := by
  unfold Conversing at conversing
  unfold Scene.posts
  unfold Scene.complete at completed
  intro report member
  split at member
  · next bytes undefined pending =>
      rw [pending] at completed conversing
      cases completed
      exact (vouched_handleReadHttpRequest now guid conversing bytes report
        member).later List.suffix_rfl (List.subset_append_right _ _)
  · next user pass status pending =>
      rw [pending] at completed conversing
      dsimp only at completed
      by_cases verified : status = some 200
      · rw [if_pos verified] at completed member
        cases completed
        obtain ⟨past, r, requests, -, request, -, placed, named,
          credentials⟩ := conversing
        rw [← named] at credentials
        have asked : r ∈ l.requests := by
          rw [requests]
          exact List.mem_append_right _ List.mem_cons_self
        exact vouched_doAfterAuth now guid
          (s := { s with
            cache := s.cache.set now user pass
            records := .verified (form user pass) now :: s.records })
          request placed.absent credentials (List.mem_append_left _ asked)
          report member
      · rw [if_neg verified] at member
        cases member
  · exact vouched_handleReadResponse guid _ _ report member
  · next pending =>
      rw [pending] at completed conversing
      cases completed
      unfold Scene.handleResponsePosts at member
      unfold Scene.handleResponse
      by_cases nothing : s.session.packetIn.isEmpty = true
      · rw [if_pos nothing] at member
        cases member
      · rw [if_neg nothing] at member ⊢
        exact (vouched_handleReadHttpRequest now guid conversing.idle []
          report member).later List.suffix_rfl (List.subset_append_right _ _)
  · next bytes undefined pending =>
      rw [pending] at completed conversing
      obtain ⟨connect, idle⟩ := conversing
      have tunnels : s.session.pending.tunnels = true := by
        rw [pending]
        rfl
      obtain ⟨numbered, found, method, granted⟩ :=
        entitled.tunnelling tunnels
      cases completed
      exact vouched_handleReadAfterHandshake guid idle
        ⟨numbered, found, method, granted.later grown⟩ bytes report member
  · exact vouched_handleReadResponse guid _ _ report member
  · cases member

end Posting

section Runs

variable {id : Nat} {p : Proxy} {l : Log}

/-- Everything that a session has posted is vouched for. -/
def Accountable (id : Nat) (p : Proxy) (l : Log) : Prop :=
  ∀ report, .posted report ∈ l.talk →
    Vouched id p.records l.requests report

theorem posted_of_talk {session : Session} {completion : Completion}
    {report : Report} : .posted report ∉ session.talk completion := by
  unfold Session.talk
  split <;> simp

theorem Safe.records_grow (safe : Safe p) (now : Int) (event : Event) :
    p.records <:+ (p.step now event).records := by
  unfold Proxy.step
  split
  · exact List.suffix_rfl
  · split
    · exact List.suffix_rfl
    · next session here =>
        split
        · exact List.suffix_rfl
        · next after completed =>
            exact (Scene.complete_sound now
              (s := ⟨session, p.cache, p.records⟩) safe.authorised safe.cached
              (safe.entitled _ session here) completed).grown

theorem Accountable.step (accountable : Accountable id p l) (safe : Safe p)
    (overheard : Overheard id p l) (now : Int) (event : Event) :
    Accountable id (p.step now event) (l.step id p now event) := by
  have earlier : Accountable id (p.step now event) l :=
    fun report posted =>
      (accountable report posted).later (safe.records_grow now event)
        (List.Subset.refl _)
  cases event with
  | accept => exact earlier
  | completes other completion =>
      by_cases same : other = id
      · subst same
        unfold Log.step
        unfold Proxy.step at earlier ⊢
        dsimp only at earlier ⊢
        rw [if_pos rfl]
        cases here : p.sessions[other]? with
        | none =>
            rw [here] at earlier
            exact earlier
        | some session =>
            rw [here] at earlier
            dsimp only at earlier ⊢
            cases completed : Scene.complete other now
                ⟨session, p.cache, p.records⟩ completion with
            | none =>
                rw [completed] at earlier
                exact earlier
            | some after =>
                rw [completed] at earlier
                have followed := overheard.present session here
                have entitled := safe.entitled other session here
                have sound := Scene.complete_sound now
                  (s := ⟨session, p.cache, p.records⟩) safe.authorised
                  safe.cached entitled completed
                intro report posted
                rcases List.mem_append.mp posted with posted | posted
                · rcases List.mem_append.mp posted with posted | posted
                  · exact (earlier report posted).later List.suffix_rfl
                      (List.subset_append_left _ _)
                  · exact absurd posted posted_of_talk
                · obtain ⟨_, member, same⟩ := List.mem_map.mp posted
                  cases same
                  exact vouched_posts now l.guid
                    (s := ⟨session, p.cache, p.records⟩) followed.conversing
                    entitled completed sound.grown _ member
      · have quiet : l.step id p now (.completes other completion) = l :=
          if_neg same
        rw [quiet]
        exact earlier

theorem Accountable.run (accountable : Accountable id p l) (safe : Safe p)
    (overheard : Overheard id p l) (events : List (Int × Event)) :
    Accountable id (p.run events) (l.run id p events) := by
  induction events generalizing p l with
  | nil => exact accountable
  | cons first rest induction =>
      exact induction (accountable.step safe overheard first.1 first.2)
        (safe.step first.1 first.2) (overheard.step first.1 first.2)

theorem Authorised.justified {records : List Record} {record : Record}
    (authorised : Authorised records) (member : record ∈ records) :
    ∃ earlier, earlier <:+ records ∧ Justified record earlier := by
  induction records with
  | nil => cases member
  | cons last records induction =>
      rcases List.mem_cons.mp member with rfl | member
      · exact ⟨records, List.suffix_cons _ _, authorised.1⟩
      · obtain ⟨earlier, within, justified⟩ :=
          induction authorised.2 member
        exact ⟨earlier, within.trans (List.suffix_cons _ _), justified⟩

end Runs

/-- In any run, a request is posted only for a user whose name and password
the verification service has confirmed, with both in this request or in the
CONNECT whose tunnel it has come through, and not longer before that one was
let through than the cache keeps an answer. -/
theorem reported_users_are_verified (id : Nat) (events : List (Int × Event))
    (uuid : Nat) (user method uri packet body : Bytes)
    (posted : .posted (.request uuid user method uri packet body) ∈
      (Log.run id {} {} events).talk) :
    ∃ numbered pass time verifiedAt,
      numbered.request.credentials = some (user, pass) ∧
      About (Log.run id {} {} events).requests numbered.request
        (.request uuid user method uri packet body) ∧
      .afterAuth id numbered time ∈ (Proxy.run {} events).records ∧
      .verified (form user pass) verifiedAt ∈ (Proxy.run {} events).records ∧
      time ≤ verifiedAt + Cache.defaultExpire := by
  have silent : Accountable id {} {} := by
    intro report impossible
    cases impossible
  obtain ⟨numbered, pass, credentials, about, time, member⟩ :=
    silent.run .start .start events _ posted
  have authorised := (Safe.start.run events).authorised
  obtain ⟨earlier, within, otherUser, otherPass, asked, verifiedAt, decoded,
    names, verified, fresh⟩ := authorised.justified member
  rw [credentials] at decoded
  cases decoded
  rw [(names user pass).mpr ⟨rfl, rfl⟩] at verified
  exact ⟨numbered, pass, time, verifiedAt, credentials, about, member,
    within.subset verified, fresh⟩

theorem reported_user_is_verified_in_one_answer :
    ∃ numbered pass time verifiedAt,
      numbered.request.credentials = some (ascii "u", pass) ∧
      About (Log.run 0 {} {} oneAnswer).requests numbered.request
        (.request 1 (ascii "u") (ascii "GET") (ascii "http://a/")
          (ascii "GET http://a/ HTTP/1.1\r\n\r\n") []) ∧
      .afterAuth 0 numbered time ∈ (Proxy.run {} oneAnswer).records ∧
      .verified (form (ascii "u") pass) verifiedAt ∈
        (Proxy.run {} oneAnswer).records ∧
      time ≤ verifiedAt + Cache.defaultExpire := by
  have posted : .posted (.request 1 (ascii "u") (ascii "GET")
      (ascii "http://a/") (ascii "GET http://a/ HTTP/1.1\r\n\r\n") []) ∈
        (Log.run 0 {} {} oneAnswer).talk := by
    decide +kernel
  exact reported_users_are_verified 0 oneAnswer _ _ _ _ _ _ posted

end Universe.HttpProxy
