import Universe.HttpProxy.Leftover
import Universe.HttpProxy.Reports

/-!
# What a session says

A session and its client take turns.  Every request read from the client is
answered before the next one is read, with a 407, with the line that opens a
tunnel or with what the origin server has sent for it.  What goes to an origin
server has been posted before.
-/

namespace Universe.HttpProxy

open Incremental StreamReader

/-- What goes over the connections of a session, and what it posts. -/
inductive Talk where
  /-- To the client. -/
  | told (bytes : Bytes)
  /-- To the origin server. -/
  | asked (packet : Bytes)
  /-- From the origin server. -/
  | heard (bytes : Bytes)
  | posted (report : Report)
  deriving DecidableEq

/-- `CONNECTION_ESTABLISHED`. -/
def connectionEstablished : Bytes :=
  ascii "HTTP/1.1 200 Connection established\r\n\r\n"

/-- What `do_write_407_unauthorized` answers. -/
def unauthorized (httpVersion : Bytes) : Bytes :=
  httpVersion ++ ascii " 407 Proxy Authentication Required\r\n" ++
    ascii "Proxy-Authenticate: Basic realm=\"xdebug\"\r\n" ++
    ascii "Content-Type: text/html\r\n" ++ ascii "Content-Length: 29" ++
    ascii "\r\n\r\n" ++ ascii "Proxy Authentication Required"

namespace Session

/-- What the client has sent when the operation ends. -/
def said (s : Session) (completion : Completion) : Bytes :=
  match s.pending, completion with
  | .readRequest, .read bytes _ => bytes
  | .readSecure, .read bytes _ => bytes
  | _, _ => []

/-- What has gone over the other ways when the operation ends.  The end of the
write that opens a tunnel does not say how it ended. -/
def talk (s : Session) (completion : Completion) : List Talk :=
  match s.pending, completion with
  | .write407, .written => [.told s.filteredResponse]
  | .writeDirect, .written => [.asked s.packet2Out]
  | .readDirect, .read bytes _ => [.heard bytes]
  | .writeDirectResponse, .written => [.told s.filteredResponse]
  | .writeEstablished, .established _ => [.told connectionEstablished]
  | .writeSecure, .written => [.asked s.packet2Out]
  | .readSecureResponse, .read bytes _ => [.heard bytes]
  | .writeSecureResponse, .written => [.told s.filteredResponse]
  | _, _ => []

/-- The request that a handler has read. -/
def newRequest (before after : Session) : List HttpRequest :=
  if after.parsed = before.parsed then []
  else (after.request.map (·.request)).toList

end Session

/-- The GUIDs that were generated for these reports. -/
def generated (reports : List Report) : Nat :=
  reports.countP fun report =>
    match report with
    | .request .. => true
    | .response .. => false

/-- What is known of one session from outside. -/
structure Log where
  said : Bytes := []
  requests : List HttpRequest := []
  talk : List Talk := []
  /-- How many GUIDs the session has generated. -/
  guid : Nat := 0

namespace Log

def add (l : Log) (before : Session) (completion : Completion)
    (after : Session) (posts : List Report) : Log where
  said := l.said ++ before.said completion
  requests := l.requests ++ before.newRequest after
  talk := l.talk ++ before.talk completion ++ posts.map .posted
  guid := l.guid + generated posts

variable (id : Nat)

def step (p : Proxy) (l : Log) (now : Int) : Event → Log
  | .accept => l
  | .completes other completion =>
      if other = id then
        match p.sessions[id]? with
        | none => l
        | some session =>
            let scene : Scene := ⟨session, p.cache, p.records⟩
            match Scene.complete id now scene completion with
            | none => l
            | some s =>
                l.add session completion s.session
                  (Scene.posts now l.guid scene completion)
      else l

/-- The log of the session `id` in a run. -/
def run (p : Proxy) (l : Log) : List (Int × Event) → Log
  | [] => l
  | (now, event) :: rest => run (p.step now event) (step id p l now event) rest

end Log

section Exchanges

/-- Requests as they are read: each from the bytes that were there then. -/
inductive Reads : Bytes → List HttpRequest → Bytes → Prop where
  | nothing : Reads [] [] []
  | more {said rest : Bytes} {requests : List HttpRequest} (bytes : Bytes)
      (read : Reads said requests rest) :
      Reads (said ++ bytes) requests (rest ++ bytes)
  | request {said rest : Bytes} {requests : List HttpRequest}
      {request : HttpRequest} {parsedLength : Nat}
      (read : Reads said requests rest)
      (parsed : HttpRequest.parseRequest rest = .ok (request, parsedLength)) :
      Reads said (requests ++ [request]) (rest.drop parsedLength)

/-- The response is the one that the bytes hold, where `parse_response` says
which. -/
def Responds (bytes : Bytes) (response : HttpResponse) : Prop :=
  (∃ parsedLength,
    HttpResponse.parseResponse bytes = .ok (some response, parsedLength)) ∨
  ∃ parsedLength, HttpResponse.parseResponse bytes = .ok (none, parsedLength)

/-- Where a session is between two requests: in the tunnel that a CONNECT has
opened, if one has, and with so many requests passed on. -/
structure Place where
  tunnel : Option HttpRequest := none
  guid : Nat := 0

/-- Only a tunnel takes a CONNECT for a request like others. -/
def Relays (tunnel : Option HttpRequest) (r : HttpRequest) : Prop :=
  tunnel = none → r.isConnect = false

/-- The report of a request that is passed on.  Its user is the one that the
request names, or the CONNECT that has opened the tunnel. -/
inductive Reports : Place → HttpRequest → Report → Prop where
  | direct {guid : Nat} {r : HttpRequest} {user pass : Bytes}
      (credentials : r.credentials = some (user, pass)) :
      Reports ⟨none, guid⟩ r
        (.request (guid + 1) user r.method r.uri r.forwardProxyPacket r.body)
  | tunnelled {guid : Nat} {connect r : HttpRequest} {user pass : Bytes}
      (credentials : connect.credentials = some (user, pass)) :
      Reports ⟨some connect, guid⟩ r
        (.request (guid + 1) user r.method (tunnelledUri connect r)
          r.forwardProxyPacket r.body)

/-- What is posted of an answer, with the bytes it was read from. -/
def answerPosts (guid : Nat) (bytes : Bytes) (response : HttpResponse) :
    List Report :=
  if maxResponsePacketSize < bytes.length then []
  else [.response guid response.toBytes response.body]

/-- A request that is passed on, and what the origin server has sent so far. -/
def asking (r : HttpRequest) (pieces : List Bytes) : List Talk :=
  .asked r.forwardProxyPacket :: pieces.map .heard

/-- The same with the whole answer, before the client gets it. -/
def answering (guid : Nat) (r : HttpRequest) (pieces : List Bytes)
    (response : HttpResponse) : List Talk :=
  asking r pieces ++ (answerPosts guid pieces.flatten response).map .posted

/-- A request and its answer, with the places before and after. -/
inductive Exchange : Place → HttpRequest → Place → List Talk → Prop where
  | refused (guid : Nat) (r : HttpRequest) :
      Exchange ⟨none, guid⟩ r ⟨none, guid⟩ [.told (unauthorized r.httpVersion)]
  | connected {r : HttpRequest} (guid : Nat) (method : r.isConnect = true) :
      Exchange ⟨none, guid⟩ r ⟨some r, guid⟩ [.told connectionEstablished]
  | relayed {place : Place} {r : HttpRequest} {report : Report}
      {pieces : List Bytes} {response : HttpResponse}
      (relays : Relays place.tunnel r) (reports : Reports place r report)
      (responds : Responds pieces.flatten response) :
      Exchange place r ⟨place.tunnel, place.guid + 1⟩
        (.posted report :: answering (place.guid + 1) r pieces response ++
          [.told response.toBytes])

/-- Exchanges, one for each request. -/
inductive Dialogue : Place → List HttpRequest → List Talk → Prop where
  | silence : Dialogue {} [] []
  | exchange {before after : Place} {past : List HttpRequest}
      {r : HttpRequest} {talk answer : List Talk}
      (dialogue : Dialogue before past talk)
      (exchange : Exchange before r after answer) :
      Dialogue after (past ++ [r]) (talk ++ answer)

/-- A request that is not answered yet, if there is one. -/
inductive Unfinished : Place → List HttpRequest → List Talk → Prop where
  | nothing (place : Place) : Unfinished place [] []
  | read (place : Place) (r : HttpRequest) : Unfinished place [r] []
  | reported {place : Place} {r : HttpRequest} {report : Report}
      (relays : Relays place.tunnel r) (reports : Reports place r report) :
      Unfinished place [r] [.posted report]
  | waiting {place : Place} {r : HttpRequest} {report : Report}
      (pieces : List Bytes) (relays : Relays place.tunnel r)
      (reports : Reports place r report) :
      Unfinished place [r] (.posted report :: asking r pieces)
  | answered {place : Place} {r : HttpRequest} {report : Report}
      {pieces : List Bytes} {response : HttpResponse}
      (relays : Relays place.tunnel r) (reports : Reports place r report)
      (responds : Responds pieces.flatten response) :
      Unfinished place [r]
        (.posted report :: answering (place.guid + 1) r pieces response)

end Exchanges

/-- A dialogue that may stop within an exchange. -/
def Broken (l : Log) : Prop :=
  ∃ place past before last rest,
    Dialogue place past before ∧ Unfinished place last rest ∧
    l.requests = past ++ last ∧ l.talk = before ++ rest

/-- What a session keeps of the CONNECT that has opened its tunnel. -/
structure Placed (tunnel : Option HttpRequest)
    (connectRequest : Option Numbered) (authUser : Bytes) : Prop where
  opened : connectRequest.map (·.request) = tunnel
  user : ∀ connect, tunnel = some connect →
    ∃ pass, connect.credentials = some (authUser, pass)

/-- Every request has its answer. -/
structure Idle (tunnel : Option HttpRequest) (l : Log) (s : Session) :
    Prop where
  dialogue : Dialogue ⟨tunnel, l.guid⟩ l.requests l.talk
  placed : Placed tunnel s.connectRequest s.authUser
  quiet : s.packet2In = []

/-- The last request is about to be answered by the session itself, or to open
a tunnel. -/
def Busy (about : HttpRequest → Prop) (l : Log) (s : Session) : Prop :=
  ∃ past r, l.requests = past ++ [r] ∧ Dialogue ⟨none, l.guid⟩ past l.talk ∧
    s.request.map (·.request) = some r ∧ s.packet2In = [] ∧ about r

/-- The last request has been posted, and this has gone over the connections
since. -/
def Passing (tunnel : Option HttpRequest) (l : Log) (s : Session)
    (r : HttpRequest) (rest : List Talk) : Prop :=
  Placed tunnel s.connectRequest s.authUser ∧ Relays tunnel r ∧
  ∃ past before guid report, l.requests = past ++ [r] ∧
    Dialogue ⟨tunnel, guid⟩ past before ∧ Reports ⟨tunnel, guid⟩ r report ∧
    l.guid = guid + 1 ∧ l.talk = before ++ .posted report :: rest

/-- The last request goes to the origin server. -/
def Sending (tunnel : Option HttpRequest) (about : HttpRequest → Prop)
    (l : Log) (s : Session) : Prop :=
  ∃ r, Passing tunnel l s r [] ∧ s.request.map (·.request) = some r ∧
    s.packet2In = [] ∧ about r

/-- The origin server has been asked, and `packet2_in_` is what it has sent. -/
def Hearing (tunnel : Option HttpRequest) (l : Log) (s : Session) : Prop :=
  ∃ r, ∃ pieces : List Bytes, Passing tunnel l s r (asking r pieces) ∧
    s.packet2In = pieces.flatten

/-- The answer of the origin server is whole. -/
def Answering (tunnel : Option HttpRequest) (l : Log) (s : Session) : Prop :=
  ∃ r, ∃ pieces : List Bytes, ∃ response,
    Passing tunnel l s r (answering l.guid r pieces response) ∧
    Responds pieces.flatten response ∧
    s.filteredResponse = response.toBytes ∧ s.packet2In = []

/-- Where the dialogue is while a session waits. -/
def Conversing (l : Log) (s : Session) : Prop :=
  match s.pending with
  | .readRequest => Idle none l s
  | .write407 =>
      Busy (fun r => Placed none s.connectRequest s.authUser ∧
        s.filteredResponse = unauthorized r.httpVersion) l s
  | .verify user pass =>
      Busy (fun r => Placed none s.connectRequest s.authUser ∧
        s.authUser = user ∧ r.credentials = some (user, pass)) l s
  | .resolveDirect | .connectDirect _ => Sending none (fun _ => True) l s
  | .writeDirect =>
      Sending none (fun r => s.packet2Out = r.forwardProxyPacket) l s
  | .readDirect => Hearing none l s
  | .writeDirectResponse => Answering none l s
  | .resolveConnect | .connectConnect _ | .writeEstablished =>
      Busy (fun r => Placed (some r) s.connectRequest s.authUser ∧
        r.isConnect = true) l s
  | .handshakeClient | .handshakeOrigin | .readSecure =>
      ∃ connect, Idle (some connect) l s
  | .writeSecure =>
      ∃ connect, Sending (some connect)
        (fun r => s.packet2Out = r.forwardProxyPacket) l s
  | .readSecureResponse => ∃ connect, Hearing (some connect) l s
  | .writeSecureResponse => ∃ connect, Answering (some connect) l s
  | .over => Broken l

section Breaking

variable {tunnel : Option HttpRequest} {about : HttpRequest → Prop} {l : Log}
  {s : Session} {r : HttpRequest} {rest : List Talk}

theorem Idle.broken (idle : Idle tunnel l s) : Broken l :=
  ⟨⟨tunnel, l.guid⟩, l.requests, l.talk, [], [], idle.dialogue, .nothing _,
    (List.append_nil _).symm, (List.append_nil _).symm⟩

theorem Busy.broken (busy : Busy about l s) : Broken l := by
  obtain ⟨past, r, requests, dialogue, -, -, -⟩ := busy
  exact ⟨⟨none, l.guid⟩, past, l.talk, [r], [], dialogue, .read _ r, requests,
    (List.append_nil _).symm⟩

/-- What has gone over the connections for a request is part of its answer. -/
theorem Passing.broken (passing : Passing tunnel l s r rest)
    (unfinished : ∀ guid report, l.guid = guid + 1 →
      Reports ⟨tunnel, guid⟩ r report →
      Unfinished ⟨tunnel, guid⟩ [r] (.posted report :: rest)) : Broken l := by
  obtain ⟨-, -, past, before, guid, report, requests, dialogue, reports, later,
    talk⟩ := passing
  exact ⟨⟨tunnel, guid⟩, past, before, [r], _, dialogue,
    unfinished guid report later reports, requests, talk⟩

theorem Sending.broken (sending : Sending tunnel about l s) : Broken l := by
  obtain ⟨r, passing, -, -, -⟩ := sending
  apply passing.broken
  intro guid report later reports
  exact .reported passing.2.1 reports

theorem Hearing.broken (hearing : Hearing tunnel l s) : Broken l := by
  obtain ⟨r, pieces, passing, -⟩ := hearing
  apply passing.broken
  intro guid report later reports
  exact .waiting pieces passing.2.1 reports

theorem Answering.broken (answering : Answering tunnel l s) : Broken l := by
  obtain ⟨r, pieces, response, passing, responds, -, -⟩ := answering
  apply passing.broken
  intro guid report later reports
  rw [later]
  exact .answered passing.2.1 reports responds

theorem Conversing.broken (conversing : Conversing l s) : Broken l := by
  unfold Conversing at conversing
  split at conversing
  · exact conversing.broken
  · exact conversing.broken
  · exact conversing.broken
  · exact conversing.broken
  · exact conversing.broken
  · exact conversing.broken
  · exact conversing.broken
  · exact conversing.broken
  · exact conversing.broken
  · exact conversing.broken
  · exact conversing.broken
  · obtain ⟨connect, idle⟩ := conversing
    exact idle.broken
  · obtain ⟨connect, idle⟩ := conversing
    exact idle.broken
  · obtain ⟨connect, idle⟩ := conversing
    exact idle.broken
  · obtain ⟨connect, sending⟩ := conversing
    exact sending.broken
  · obtain ⟨connect, hearing⟩ := conversing
    exact hearing.broken
  · obtain ⟨connect, answering⟩ := conversing
    exact answering.broken
  · exact conversing

end Breaking

section Beginning

/-- What a session does about a request that it has read outside a tunnel, and
what it posts. -/
inductive Turned (guid : Nat) (r : HttpRequest) (s : Session) :
    List Report → Prop where
  | refuses (placed : Placed none s.connectRequest s.authUser)
      (pending : s.pending = .write407)
      (response : s.filteredResponse = unauthorized r.httpVersion) :
      Turned guid r s []
  | verifies {user pass : Bytes}
      (placed : Placed none s.connectRequest s.authUser)
      (pending : s.pending = .verify user pass) (named : s.authUser = user)
      (credentials : r.credentials = some (user, pass)) : Turned guid r s []
  | opens (placed : Placed (some r) s.connectRequest s.authUser)
      (pending : s.pending = .resolveConnect) (method : r.isConnect = true) :
      Turned guid r s []
  | passes {report : Report}
      (placed : Placed none s.connectRequest s.authUser)
      (relays : Relays none r) (reports : Reports ⟨none, guid⟩ r report)
      (pending : s.pending = .resolveDirect) : Turned guid r s [report]
  | stops (pending : s.pending = .over) : Turned guid r s []
  /-- Its URI does not say where to. -/
  | stopsLate {report : Report} (relays : Relays none r)
      (reports : Reports ⟨none, guid⟩ r report) (pending : s.pending = .over) :
      Turned guid r s [report]

/-- A session that has turned to a request. -/
structure Begun (guid : Nat) (r : HttpRequest) (parsed : Nat) (s : Session)
    (posts : List Report) : Prop where
  request : s.request.map (·.request) = some r
  parsed : s.parsed = parsed
  quiet : s.packet2In = []
  turned : Turned guid r s posts

variable {r : HttpRequest} {parsed : Nat} {s : Scene} (id guid : Nat)
  (now : Int)

theorem Placed.outside {connectRequest : Option Numbered} {authUser : Bytes}
    (outside : connectRequest = none) :
    Placed none connectRequest authUser := by
  constructor
  · rw [outside]
    rfl
  · intro connect impossible
    cases impossible

theorem Placed.absent {connectRequest : Option Numbered} {authUser : Bytes}
    (placed : Placed none connectRequest authUser) : connectRequest = none :=
  Option.map_eq_none_iff.mp placed.opened

theorem begun_doWrite407Unauthorized
    (request : s.session.request.map (·.request) = some r)
    (same : s.session.parsed = parsed) (quiet : s.session.packet2In = [])
    (outside : s.session.connectRequest = none) :
    Begun guid r parsed s.doWrite407Unauthorized.session [] := by
  refine ⟨request, same, quiet, .refuses (.outside outside) rfl ?_⟩
  obtain ⟨numbered, found, rfl⟩ := Option.map_eq_some_iff.mp request
  unfold Scene.doWrite407Unauthorized unauthorized
  dsimp only
  rw [found]
  rfl

theorem begun_doAfterAuth {pass : Bytes}
    (request : s.session.request.map (·.request) = some r)
    (same : s.session.parsed = parsed) (quiet : s.session.packet2In = [])
    (outside : s.session.connectRequest = none)
    (credentials : r.credentials = some (s.session.authUser, pass)) :
    Begun guid r parsed (s.doAfterAuth id now).session
      (s.doAfterAuthPosts guid) := by
  obtain ⟨numbered, found, rfl⟩ := Option.map_eq_some_iff.mp request
  unfold Scene.doAfterAuth Scene.doAfterAuthPosts
  rw [found]
  dsimp only
  by_cases method : numbered.request.isConnect = true
  · rw [if_pos method, if_pos method]
    have placed : Placed (some numbered.request) (some numbered)
        s.session.authUser := by
      constructor
      · rfl
      · rintro connect ⟨rfl⟩
        exact ⟨pass, credentials⟩
    split
    · exact ⟨request, same, quiet, .opens placed rfl method⟩
    · exact ⟨request, same, quiet, .stops rfl⟩
  · rw [if_neg method, if_neg method]
    have relays : Relays none numbered.request :=
      fun _ => Bool.eq_false_iff.mpr method
    have reports : Reports ⟨none, guid⟩ numbered.request
        (s.session.postRequest guid numbered.request) := by
      unfold Session.postRequest
      rw [outside]
      exact .direct credentials
    split
    · exact ⟨request, same, quiet,
        .passes (.outside outside) relays reports rfl⟩
    · exact ⟨request, same, quiet, .stopsLate relays reports rfl⟩

theorem begun_doAuth {number : Nat}
    (request : s.session.request = some ⟨number, r⟩)
    (same : s.session.parsed = parsed) (quiet : s.session.packet2In = [])
    (outside : s.session.connectRequest = none) :
    Begun guid r parsed (s.doAuth id now).session
      (s.doAuthPosts now guid) := by
  have last : s.session.request.map (·.request) = some r := by
    rw [request]
    rfl
  unfold Scene.doAuth Scene.doAuthPosts
  rw [request]
  dsimp only [Option.bind_some]
  cases credentials : r.credentials with
  | none => exact ⟨last, same, quiet, .stops rfl⟩
  | some named =>
      obtain ⟨user, pass⟩ := named
      dsimp only
      cases looked : s.cache.get now user with
      | mk cached cache =>
          cases cached with
          | none =>
              exact ⟨last, same, quiet,
                .verifies (.outside outside) rfl rfl credentials⟩
          | some cachedPass =>
              dsimp only
              by_cases other : cachedPass ≠ pass
              · rw [if_pos other, if_pos other]
                exact ⟨last, same, quiet, .stops rfl⟩
              · rw [if_neg other, if_neg other]
                exact begun_doAfterAuth id guid now last same quiet outside
                  credentials

theorem generated_reports {place : Place} {report : Report}
    (reports : Reports place r report) : generated [report] = 1 := by
  cases reports with
  | direct credentials => rfl
  | tunnelled credentials => rfl

/-- What is left of `packet_in_` does not matter for the answer. -/
theorem Begun.conversing {session : Session} {l : Log}
    {past : List HttpRequest} {posts : List Report}
    (begun : Begun l.guid r parsed session posts)
    (requests : l.requests = past ++ [r])
    (dialogue : Dialogue ⟨none, l.guid⟩ past l.talk) (packetIn : Bytes) :
    Conversing
      { l with
        talk := l.talk ++ posts.map .posted
        guid := l.guid + generated posts }
      { session with packetIn } := by
  have nothing : l.talk ++ ([] : List Report).map .posted = l.talk :=
    List.append_nil _
  have stopped : ∀ report, Reports ⟨none, l.guid⟩ r report →
      l.guid + generated [report] = l.guid + 1 := by
    intro report reports
    rw [generated_reports reports]
  unfold Conversing
  cases begun.turned with
  | refuses placed pending response =>
      rw [pending, nothing]
      exact ⟨past, r, requests, dialogue, begun.request, begun.quiet,
        placed, response⟩
  | verifies placed pending named credentials =>
      rw [pending, nothing]
      exact ⟨past, r, requests, dialogue, begun.request, begun.quiet,
        placed, named, credentials⟩
  | opens placed pending method =>
      rw [pending, nothing]
      exact ⟨past, r, requests, dialogue, begun.request, begun.quiet,
        placed, method⟩
  | passes placed relays reports pending =>
      rw [pending]
      exact ⟨r, ⟨placed, relays, past, l.talk, l.guid, _,
        requests, dialogue, reports, stopped _ reports, rfl⟩, begun.request,
        begun.quiet, trivial⟩
  | stops pending =>
      rw [pending, nothing]
      exact ⟨⟨none, l.guid⟩, past, l.talk, [r], [], dialogue, .read _ r,
        requests, (List.append_nil _).symm⟩
  | stopsLate relays reports pending =>
      rw [pending]
      exact ⟨⟨none, l.guid⟩, past, l.talk, [r], _, dialogue,
        .reported relays reports, requests, rfl⟩

end Beginning

section Handlers

/-- What is known of a session from inside and from outside. -/
structure Followed (l : Log) (s : Session) : Prop where
  reads : Reads l.said l.requests s.packetIn
  conversing : Conversing l s

variable {l : Log} {s : Scene} (id : Nat) (now : Int)

theorem newRequest_same {before after : Session}
    (same : after.parsed = before.parsed) : before.newRequest after = [] :=
  if_pos same

theorem newRequest_next {before after : Session} {r : HttpRequest}
    (next : after.parsed = before.parsed + 1)
    (request : after.request.map (·.request) = some r) :
    before.newRequest after = [r] := by
  unfold Session.newRequest
  rw [if_neg (by omega), request]
  rfl

theorem generated_answer (guid : Nat) (bytes : Bytes)
    (response : HttpResponse) :
    generated (answerPosts guid bytes response) = 0 := by
  unfold answerPosts
  split
  · rfl
  · rfl

/-- A log to which nothing is added. -/
theorem log_same (said : Bytes) :
    (⟨said, l.requests ++ [], l.talk ++ ([] : List Report).map .posted,
      l.guid + generated []⟩ : Log) = ⟨said, l.requests, l.talk, l.guid⟩ := by
  rw [List.append_nil, List.map_nil, List.append_nil]
  rfl

theorem followed_handleReadHttpRequest
    (reads : Reads l.said l.requests s.session.packetIn)
    (idle : Idle none l s.session) (bytes : Bytes) :
    Followed
      ⟨l.said ++ bytes, l.requests ++ s.session.newRequest
          (s.handleReadHttpRequest id now bytes).session,
        l.talk ++ (s.handleReadHttpRequestPosts now l.guid bytes).map .posted,
        l.guid + generated (s.handleReadHttpRequestPosts now l.guid bytes)⟩
      (s.handleReadHttpRequest id now bytes).session := by
  have more := reads.more bytes
  have outside := idle.placed.absent
  have broken : Broken ⟨l.said ++ bytes, l.requests, l.talk, l.guid⟩ :=
    idle.broken
  unfold Scene.handleReadHttpRequest Scene.handleReadHttpRequestPosts
  dsimp only
  by_cases long : maxRequestPacketSize < (s.session.packetIn ++ bytes).length
  · rw [if_pos long, if_pos long, newRequest_same (by rfl), log_same]
    exact ⟨more, broken⟩
  · rw [if_neg long, if_neg long]
    cases parsed : HttpRequest.parseRequest (s.session.packetIn ++ bytes) with
    | ok result =>
        obtain ⟨r, parsedLength⟩ := result
        dsimp only
        have begun : ∀ (after : Scene) (posts : List Report),
            Begun l.guid r (s.session.parsed + 1) after.session posts →
            Followed
              ⟨l.said ++ bytes, l.requests ++ s.session.newRequest
                  { after.session with
                    packetIn :=
                      (s.session.packetIn ++ bytes).drop parsedLength },
                l.talk ++ posts.map .posted, l.guid + generated posts⟩
              { after.session with
                packetIn :=
                  (s.session.packetIn ++ bytes).drop parsedLength } := by
          intro after posts begun
          have fresh : s.session.newRequest { after.session with
              packetIn := (s.session.packetIn ++ bytes).drop parsedLength } =
              [r] := newRequest_next begun.parsed begun.request
          rw [fresh]
          have turned := begun.conversing
            (l := ⟨l.said ++ bytes, l.requests ++ [r], l.talk, l.guid⟩) rfl
            idle.dialogue ((s.session.packetIn ++ bytes).drop parsedLength)
          exact ⟨more.request parsed, turned⟩
        by_cases bare :
            (r.headers.find (ascii "Proxy-Authorization")).isNone = true
        · rw [if_pos bare, if_pos bare]
          exact begun _ _ (begun_doWrite407Unauthorized l.guid rfl rfl
            idle.quiet outside)
        · rw [if_neg bare, if_neg bare]
          exact begun _ _ (begun_doAuth id l.guid now rfl rfl idle.quiet
            outside)
    | error stop =>
        cases stop with
        | ag =>
            dsimp only
            rw [newRequest_same (by rfl), log_same]
            exact ⟨more, idle.dialogue, .outside outside, idle.quiet⟩
        | ng =>
            dsimp only
            rw [newRequest_same (by rfl), log_same]
            exact ⟨more, broken⟩

theorem reports_tunnelled {connect : HttpRequest} {session : Session}
    (placed : Placed (some connect) session.connectRequest session.authUser)
    (guid : Nat) (r : HttpRequest) :
    Reports ⟨some connect, guid⟩ r (session.postRequest guid r) := by
  obtain ⟨numbered, found, rfl⟩ := Option.map_eq_some_iff.mp placed.opened
  obtain ⟨pass, credentials⟩ := placed.user _ rfl
  unfold Session.postRequest
  rw [found]
  exact .tunnelled credentials

theorem followed_handleReadAfterHandshake {connect : HttpRequest}
    (reads : Reads l.said l.requests s.session.packetIn)
    (idle : Idle (some connect) l s.session) (bytes : Bytes) :
    Followed
      ⟨l.said ++ bytes, l.requests ++ s.session.newRequest
          (s.handleReadAfterHandshake id bytes).session,
        l.talk ++
          (s.session.handleReadAfterHandshakePosts l.guid bytes).map .posted,
        l.guid +
          generated (s.session.handleReadAfterHandshakePosts l.guid bytes)⟩
      (s.handleReadAfterHandshake id bytes).session := by
  have more := reads.more bytes
  have broken : Broken ⟨l.said ++ bytes, l.requests, l.talk, l.guid⟩ :=
    idle.broken
  unfold Scene.handleReadAfterHandshake Session.handleReadAfterHandshakePosts
  dsimp only
  by_cases long : maxRequestPacketSize < (s.session.packetIn ++ bytes).length
  · rw [if_pos long, if_pos long, newRequest_same (by rfl), log_same]
    exact ⟨more, broken⟩
  · rw [if_neg long, if_neg long]
    cases parsed : HttpRequest.parseRequest (s.session.packetIn ++ bytes) with
    | ok result =>
        obtain ⟨r, parsedLength⟩ := result
        dsimp only
        rw [newRequest_next (r := r) (by rfl) (by rfl)]
        have reports := reports_tunnelled idle.placed l.guid r
        refine ⟨more.request parsed, connect, r,
          ⟨idle.placed, ?_, l.requests, l.talk,
            l.guid, _, rfl, idle.dialogue, reports, ?_, rfl⟩, rfl, idle.quiet,
          rfl⟩
        · intro impossible
          cases impossible
        · rw [generated_reports reports]
    | error stop =>
        cases stop with
        | ag =>
            dsimp only
            rw [newRequest_same (by rfl), log_same]
            exact ⟨more, connect, idle.dialogue,
              idle.placed, idle.quiet⟩
        | ng =>
            dsimp only
            rw [newRequest_same (by rfl), log_same]
            exact ⟨more, broken⟩

/-- More goes over the connections for a request that was posted. -/
theorem Passing.more {tunnel : Option HttpRequest} {session after : Session}
    {r : HttpRequest} {rest : List Talk}
    (passing : Passing tunnel l session r rest)
    (opened : after.connectRequest = session.connectRequest)
    (user : after.authUser = session.authUser) (more : List Talk) :
    Passing tunnel { l with talk := l.talk ++ more } after r
      (rest ++ more) := by
  obtain ⟨placed, relays, past, before, guid, report, requests, dialogue,
    reports, later, talk⟩ := passing
  rw [← opened, ← user] at placed
  refine ⟨placed, relays, past, before, guid, report, requests, dialogue,
    reports, later, ?_⟩
  rw [talk, List.append_assoc]
  rfl

/-- More of the answer of an origin server. -/
theorem hearing_handleReadResponse {tunnel : Option HttpRequest}
    {reading answering : Pending} (hearing : Hearing tunnel l s.session)
    (hears : ∀ l after, after.pending = reading → Hearing tunnel l after →
      Conversing l after)
    (answers : ∀ l after, after.pending = answering →
      Answering tunnel l after → Conversing l after)
    (bytes : Bytes) (undefined : Except ReaderException HttpResponse) :
    Conversing
      { l with
        talk := l.talk ++ [.heard bytes] ++
          (s.session.handleReadResponsePosts l.guid bytes undefined).map
            .posted
        guid := l.guid + generated
          (s.session.handleReadResponsePosts l.guid bytes undefined) }
      (s.handleReadResponse reading answering bytes undefined).session := by
  obtain ⟨r, pieces, passing, packet2In⟩ := hearing
  have flat : s.session.packet2In ++ bytes = (pieces ++ [bytes]).flatten := by
    rw [List.flatten_append, List.flatten_singleton, packet2In]
  have heard : asking r pieces ++ [.heard bytes] =
      asking r (pieces ++ [bytes]) := by
    unfold asking
    rw [List.map_append]
    rfl
  have silent : ({ l with
      talk := l.talk ++ [.heard bytes] ++ ([] : List Report).map .posted
      guid := l.guid + generated [] } : Log) =
      { l with talk := l.talk ++ [.heard bytes] } := by
    rw [List.map_nil, List.append_nil]
    rfl
  have again : ∀ after : Session,
      after.connectRequest = s.session.connectRequest →
      after.authUser = s.session.authUser →
      after.packet2In = (pieces ++ [bytes]).flatten →
      Hearing tunnel { l with talk := l.talk ++ [.heard bytes] } after := by
    intro after opened user whole
    have passed := passing.more opened user [.heard bytes]
    rw [heard] at passed
    exact ⟨r, pieces ++ [bytes], passed, whole⟩
  have answered : ∀ (response : HttpResponse) (after : Session),
      Responds (pieces ++ [bytes]).flatten response →
      after.connectRequest = s.session.connectRequest →
      after.authUser = s.session.authUser →
      after.filteredResponse = response.toBytes → after.packet2In = [] →
      Answering tunnel
        { l with
          talk := l.talk ++ [.heard bytes] ++
            (answerPosts l.guid (pieces ++ [bytes]).flatten response).map
              .posted
          guid := l.guid + generated
            (answerPosts l.guid (pieces ++ [bytes]).flatten response) }
        after := by
    intro response after responds opened user filtered quiet
    rw [generated_answer]
    have asked := passing.more opened user [.heard bytes]
    have passed := asked.more rfl rfl
      ((answerPosts l.guid (pieces ++ [bytes]).flatten response).map .posted)
    rw [heard] at passed
    exact ⟨r, pieces ++ [bytes], response, passed, responds, filtered, quiet⟩
  unfold Scene.handleReadResponse Session.handleReadResponsePosts
    HttpResponse.parsed HttpResponse.outcome
  rw [flat]
  dsimp only
  cases parsed : HttpResponse.parseResponse (pieces ++ [bytes]).flatten with
  | ok result =>
      obtain ⟨found, parsedLength⟩ := result
      cases found with
      | some response =>
          exact answers _ _ rfl
            (answered response _ (.inl ⟨parsedLength, parsed⟩) rfl rfl rfl rfl)
      | none =>
          dsimp only
          cases undefined with
          | ok response =>
              exact answers _ _ rfl
                (answered response _ (.inr ⟨parsedLength, parsed⟩) rfl rfl rfl
                  rfl)
          | error stop =>
              dsimp only
              rw [silent]
              cases stop with
              | ag => exact hears _ _ rfl (again _ rfl rfl rfl)
              | ng =>
                  exact (again { s.session with
                    packet2In := (pieces ++ [bytes]).flatten } rfl rfl
                    rfl).broken
  | error stop =>
      dsimp only
      rw [silent]
      cases stop with
      | ag => exact hears _ _ rfl (again _ rfl rfl rfl)
      | ng =>
          exact (again { s.session with
            packet2In := (pieces ++ [bytes]).flatten } rfl rfl rfl).broken

theorem handleReadResponse_kept (reading answering : Pending) (bytes : Bytes)
    (undefined : Except ReaderException HttpResponse) :
    (s.handleReadResponse reading answering bytes
        undefined).session.packetIn = s.session.packetIn ∧
      (s.handleReadResponse reading answering bytes
        undefined).session.parsed = s.session.parsed := by
  unfold Scene.handleReadResponse
  dsimp only
  split
  · exact ⟨rfl, rfl⟩
  · exact ⟨rfl, rfl⟩
  · exact ⟨rfl, rfl⟩

/-- The whole answer has been written to the client. -/
theorem Answering.idle {tunnel : Option HttpRequest} {session : Session}
    (answering : Answering tunnel l session) :
    Idle tunnel { l with talk := l.talk ++ [.told session.filteredResponse] }
      session := by
  obtain ⟨r, pieces, response, ⟨placed, relays, past, before, guid, report,
    requests, dialogue, reports, later, talk⟩, responds, filtered, quiet⟩ :=
    answering
  refine ⟨?_, placed, quiet⟩
  dsimp only
  rw [requests, talk, filtered, later, List.append_assoc]
  exact .exchange dialogue (.relayed relays reports responds)

theorem followed_add {before after : Session} {completion : Completion}
    {talk : List Talk} {posts : List Report}
    (reads : Reads l.said l.requests before.packetIn)
    (said : before.said completion = [])
    (talked : before.talk completion = talk)
    (packetIn : after.packetIn = before.packetIn)
    (parsed : after.parsed = before.parsed)
    (conversing : Conversing
      { l with
        talk := l.talk ++ talk ++ posts.map .posted
        guid := l.guid + generated posts } after) :
    Followed (l.add before completion after posts) after := by
  have same : l.add before completion after posts =
      { l with
        talk := l.talk ++ talk ++ posts.map .posted
        guid := l.guid + generated posts } := by
    unfold Log.add
    rw [said, talked, newRequest_same parsed, List.append_nil, List.append_nil]
  rw [same]
  refine ⟨?_, conversing⟩
  rw [packetIn]
  exact reads

theorem followed_unposted {before after : Session} {completion : Completion}
    {talk : List Talk} {posts : List Report}
    (reads : Reads l.said l.requests before.packetIn)
    (said : before.said completion = [])
    (talked : before.talk completion = talk) (posted : posts = [])
    (packetIn : after.packetIn = before.packetIn)
    (parsed : after.parsed = before.parsed)
    (conversing : Conversing { l with talk := l.talk ++ talk } after) :
    Followed (l.add before completion after posts) after := by
  rw [posted]
  refine followed_add reads said talked packetIn parsed ?_
  rw [List.map_nil, List.append_nil]
  exact conversing

theorem followed_silent {before after : Session} {completion : Completion}
    {posts : List Report} (reads : Reads l.said l.requests before.packetIn)
    (said : before.said completion = [])
    (talked : before.talk completion = []) (posted : posts = [])
    (packetIn : after.packetIn = before.packetIn)
    (parsed : after.parsed = before.parsed)
    (conversing : Conversing l after) :
    Followed (l.add before completion after posts) after := by
  refine followed_unposted reads said talked posted packetIn parsed ?_
  rw [List.append_nil]
  exact conversing

theorem followed_handleReadResponse {tunnel : Option HttpRequest}
    {reading answering : Pending} {bytes : Bytes}
    {undefined : Except ReaderException HttpResponse} {posts : List Report}
    (reads : Reads l.said l.requests s.session.packetIn)
    (hearing : Hearing tunnel l s.session)
    (said : s.session.said (.read bytes undefined) = [])
    (talked : s.session.talk (.read bytes undefined) = [.heard bytes])
    (posted :
      posts = s.session.handleReadResponsePosts l.guid bytes undefined)
    (hears : ∀ l after, after.pending = reading → Hearing tunnel l after →
      Conversing l after)
    (answers : ∀ l after, after.pending = answering →
      Answering tunnel l after → Conversing l after) :
    Followed
      (l.add s.session (.read bytes undefined)
        (s.handleReadResponse reading answering bytes undefined).session posts)
      (s.handleReadResponse reading answering bytes undefined).session := by
  obtain ⟨packetIn, parsed⟩ :=
    handleReadResponse_kept reading answering bytes undefined (s := s)
  rw [posted]
  exact followed_add reads said talked packetIn parsed
    (hearing_handleReadResponse hearing hears answers bytes undefined)

/-- An answer of the verification service. -/
theorem followed_verified {user pass : Bytes} {after : Scene}
    {completion : Completion} {posts : List Report}
    (reads : Reads l.said l.requests s.session.packetIn)
    (busy : Busy (fun r =>
      Placed none s.session.connectRequest s.session.authUser ∧
        s.session.authUser = user ∧ r.credentials = some (user, pass)) l
      s.session)
    (pending : s.session.pending = .verify user pass)
    (turned : ∀ r, s.session.request.map (·.request) = some r →
      s.session.packet2In = [] → s.session.connectRequest = none →
      r.credentials = some (s.session.authUser, pass) →
      Begun l.guid r s.session.parsed after.session posts)
    (packetIn : after.session.packetIn = s.session.packetIn) :
    Followed (l.add s.session completion after.session posts)
      after.session := by
  obtain ⟨past, r, requests, dialogue, request, quiet, placed, named,
    credentials⟩ := busy
  rw [← named] at credentials
  have begun := turned r request quiet placed.absent credentials
  have said : s.session.said completion = [] := by
    unfold Session.said
    rw [pending]
  have talked : s.session.talk completion = [] := by
    unfold Session.talk
    rw [pending]
  refine followed_add reads said talked packetIn begun.parsed ?_
  rw [List.append_nil]
  exact begun.conversing requests dialogue after.session.packetIn

theorem followed_handleResponse
    (reads : Reads l.said l.requests s.session.packetIn)
    (answering : Answering none l s.session)
    (pending : s.session.pending = .writeDirectResponse) :
    Followed
      (l.add s.session .written (s.handleResponse id now).session
        (s.handleResponsePosts now l.guid))
      (s.handleResponse id now).session := by
  have idle := answering.idle
  have said : s.session.said .written = [] := by
    simp only [Session.said, pending]
  have talked : s.session.talk .written =
      [.told s.session.filteredResponse] := by
    simp only [Session.talk, pending]
  unfold Scene.handleResponse Scene.handleResponsePosts
  by_cases nothing : s.session.packetIn.isEmpty = true
  · rw [if_pos nothing, if_pos nothing]
    exact followed_unposted reads said talked rfl rfl rfl
      ⟨idle.dialogue, .outside idle.placed.absent, idle.quiet⟩
  · rw [if_neg nothing, if_neg nothing]
    unfold Log.add
    rw [said, talked]
    exact followed_handleReadHttpRequest id now
      (l := { l with talk := l.talk ++ [.told s.session.filteredResponse] })
      reads idle []

theorem doAfterAuth_packetIn :
    (s.doAfterAuth id now).session.packetIn = s.session.packetIn := by
  unfold Scene.doAfterAuth
  split
  · rfl
  · dsimp only
    split
    · split
      · rfl
      · rfl
    · split
      · rfl
      · rfl

/-- The packet has been handed to the origin server. -/
theorem Sending.hearing {tunnel : Option HttpRequest}
    {session after : Session}
    (sending : Sending tunnel
      (fun r => session.packet2Out = r.forwardProxyPacket) l session)
    (opened : after.connectRequest = session.connectRequest)
    (user : after.authUser = session.authUser)
    (packet2In : after.packet2In = session.packet2In) :
    Hearing tunnel { l with talk := l.talk ++ [.asked session.packet2Out] }
      after := by
  obtain ⟨r, passing, -, quiet, packet⟩ := sending
  rw [packet]
  exact ⟨r, [], passing.more opened user _, packet2In.trans quiet⟩

/-- What goes on with other hosts than the client and the origin server, or
with no bytes at all. -/
def Completion.isQuiet : Completion → Bool
  | .failed | .resolved _ | .connected | .shaken => true
  | _ => false

/-- Such an operation leaves the log as it is. -/
theorem followed_quiet {after : Scene} {completion : Completion}
    (quiet : completion.isQuiet = true)
    (reads : Reads l.said l.requests s.session.packetIn)
    (packetIn : after.session.packetIn = s.session.packetIn)
    (parsed : after.session.parsed = s.session.parsed)
    (conversing : Conversing l after.session) :
    Followed
      (l.add s.session completion after.session
        (s.posts now l.guid completion)) after.session := by
  have said : s.session.said completion = [] := by
    unfold Session.said
    cases completion <;> cases s.session.pending <;> first | rfl | cases quiet
  have talked : s.session.talk completion = [] := by
    unfold Session.talk
    cases completion <;> cases s.session.pending <;> first | rfl | cases quiet
  have posted : s.posts now l.guid completion = [] := by
    unfold Scene.posts
    cases completion <;> cases s.session.pending <;> first | rfl | cases quiet
  exact followed_silent reads said talked posted packetIn parsed conversing

/-- The end of a write after which nothing is posted. -/
theorem followed_write {after : Scene} {talk : List Talk}
    (reads : Reads l.said l.requests s.session.packetIn)
    (talked : s.session.talk .written = talk)
    (late : s.session.pending ≠ .writeDirectResponse)
    (packetIn : after.session.packetIn = s.session.packetIn)
    (parsed : after.session.parsed = s.session.parsed)
    (conversing : Conversing { l with talk := l.talk ++ talk }
      after.session) :
    Followed
      (l.add s.session .written after.session (s.posts now l.guid .written))
      after.session := by
  have said : s.session.said .written = [] := by
    unfold Session.said
    cases s.session.pending <;> rfl
  have posted : s.posts now l.guid .written = [] := by
    unfold Scene.posts
    cases pending : s.session.pending <;>
      first | rfl | exact absurd pending late
  exact followed_unposted reads said talked posted packetIn parsed conversing

section Completions

variable {after : Scene} (reads : Reads l.said l.requests s.session.packetIn)
  (conversing : Conversing l s.session)
include reads conversing

theorem followed_failed
    (completed : s.complete id now .failed = some after) :
    Followed
      (l.add s.session .failed after.session (s.posts now l.guid .failed))
      after.session := by
  have broken := conversing.broken
  unfold Conversing at conversing
  unfold Scene.complete at completed
  cases pending : s.session.pending with
  | connectDirect more =>
      rw [pending] at conversing completed
      cases more with
      | zero =>
          cases completed
          exact followed_quiet now rfl reads rfl rfl broken
      | succ more =>
          cases completed
          exact followed_quiet now rfl reads rfl rfl conversing
  | connectConnect more =>
      rw [pending] at conversing completed
      cases more with
      | zero =>
          cases completed
          exact followed_quiet now rfl reads rfl rfl broken
      | succ more =>
          cases completed
          exact followed_quiet now rfl reads rfl rfl conversing
  | «over» | verify _ _ | writeEstablished =>
      rw [pending] at completed
      cases completed
  | _ =>
      rw [pending] at completed
      cases completed
      exact followed_quiet now rfl reads rfl rfl broken

theorem followed_resolved {more : Nat}
    (completed : s.complete id now (.resolved more) = some after) :
    Followed
      (l.add s.session (.resolved more) after.session
        (s.posts now l.guid (.resolved more))) after.session := by
  unfold Conversing at conversing
  unfold Scene.complete at completed
  cases pending : s.session.pending with
  | resolveDirect =>
      rw [pending] at conversing completed
      cases completed
      exact followed_quiet now rfl reads rfl rfl conversing
  | resolveConnect =>
      rw [pending] at conversing completed
      cases completed
      exact followed_quiet now rfl reads rfl rfl conversing
  | _ =>
      rw [pending] at completed
      cases completed

theorem followed_connected
    (completed : s.complete id now .connected = some after) :
    Followed
      (l.add s.session .connected after.session
        (s.posts now l.guid .connected)) after.session := by
  unfold Conversing at conversing
  unfold Scene.complete at completed
  cases pending : s.session.pending with
  | connectDirect more =>
      rw [pending] at conversing completed
      cases completed
      obtain ⟨r, passing, request, quiet, -⟩ := conversing
      obtain ⟨numbered, found, rfl⟩ := Option.map_eq_some_iff.mp request
      unfold Scene.writeDirectRequest
      rw [found]
      exact followed_quiet now rfl reads rfl rfl
        ⟨numbered.request, passing, request, quiet, rfl⟩
  | connectConnect more =>
      rw [pending] at conversing completed
      cases completed
      exact followed_quiet now rfl reads rfl rfl conversing
  | _ =>
      rw [pending] at completed
      cases completed

theorem followed_shaken
    (completed : s.complete id now .shaken = some after) :
    Followed
      (l.add s.session .shaken after.session (s.posts now l.guid .shaken))
      after.session := by
  unfold Conversing at conversing
  unfold Scene.complete at completed
  cases pending : s.session.pending with
  | handshakeClient =>
      rw [pending] at conversing completed
      cases completed
      obtain ⟨connect, dialogue, placed, quiet⟩ := conversing
      exact followed_quiet now rfl reads rfl rfl
        ⟨connect, dialogue, placed, quiet⟩
  | handshakeOrigin =>
      rw [pending] at conversing completed
      cases completed
      obtain ⟨connect, dialogue, placed, quiet⟩ := conversing
      exact followed_quiet now rfl reads rfl rfl
        ⟨connect, dialogue, placed, quiet⟩
  | _ =>
      rw [pending] at completed
      cases completed

theorem followed_read {bytes : Bytes}
    {undefined : Except ReaderException HttpResponse}
    (completed : s.complete id now (.read bytes undefined) = some after) :
    Followed
      (l.add s.session (.read bytes undefined) after.session
        (s.posts now l.guid (.read bytes undefined))) after.session := by
  unfold Conversing at conversing
  unfold Scene.complete at completed
  cases pending : s.session.pending with
  | readRequest =>
      rw [pending] at conversing completed
      cases completed
      have said : s.session.said (.read bytes undefined) = bytes := by
        simp only [Session.said, pending]
      have talked : s.session.talk (.read bytes undefined) = [] := by
        simp only [Session.talk, pending]
      have posted : s.posts now l.guid (.read bytes undefined) =
          s.handleReadHttpRequestPosts now l.guid bytes := by
        simp only [Scene.posts, pending]
      unfold Log.add
      rw [said, talked, posted, List.append_nil]
      exact followed_handleReadHttpRequest id now reads conversing bytes
  | readDirect =>
      rw [pending] at conversing completed
      cases completed
      refine followed_handleReadResponse reads conversing ?_ ?_ ?_ ?_ ?_
      · simp only [Session.said, pending]
      · simp only [Session.talk, pending]
      · simp only [Scene.posts, pending]
      · intro l after waits hearing
        unfold Conversing
        rw [waits]
        exact hearing
      · intro l after waits answering
        unfold Conversing
        rw [waits]
        exact answering
  | readSecure =>
      rw [pending] at conversing completed
      cases completed
      obtain ⟨connect, idle⟩ := conversing
      have said : s.session.said (.read bytes undefined) = bytes := by
        simp only [Session.said, pending]
      have talked : s.session.talk (.read bytes undefined) = [] := by
        simp only [Session.talk, pending]
      have posted : s.posts now l.guid (.read bytes undefined) =
          s.session.handleReadAfterHandshakePosts l.guid bytes := by
        simp only [Scene.posts, pending]
      unfold Log.add
      rw [said, talked, posted, List.append_nil]
      exact followed_handleReadAfterHandshake id reads idle bytes
  | readSecureResponse =>
      rw [pending] at conversing completed
      cases completed
      obtain ⟨connect, hearing⟩ := conversing
      refine followed_handleReadResponse reads hearing ?_ ?_ ?_ ?_ ?_
      · simp only [Session.said, pending]
      · simp only [Session.talk, pending]
      · simp only [Scene.posts, pending]
      · intro l after waits hearing
        unfold Conversing
        rw [waits]
        exact ⟨connect, hearing⟩
      · intro l after waits answering
        unfold Conversing
        rw [waits]
        exact ⟨connect, answering⟩
  | _ =>
      rw [pending] at completed
      cases completed

theorem followed_written
    (completed : s.complete id now .written = some after) :
    Followed
      (l.add s.session .written after.session (s.posts now l.guid .written))
      after.session := by
  unfold Conversing at conversing
  unfold Scene.complete at completed
  have late : ∀ {waits : Pending}, s.session.pending = waits →
      waits ≠ .writeDirectResponse →
      s.session.pending ≠ .writeDirectResponse :=
    fun pending other => by rwa [pending]
  cases pending : s.session.pending with
  | write407 =>
      rw [pending] at conversing completed
      cases completed
      obtain ⟨past, r, requests, dialogue, request, quiet, placed, response⟩ :=
        conversing
      have talked : s.session.talk .written =
          [.told (unauthorized r.httpVersion)] := by
        simp only [Session.talk, pending, response]
      refine followed_write now reads talked (late pending (by decide)) rfl rfl
        ⟨?_, .outside placed.absent, quiet⟩
      rw [requests]
      exact .exchange dialogue (.refused l.guid r)
  | writeDirect =>
      rw [pending] at conversing completed
      cases completed
      have talked : s.session.talk .written = [.asked s.session.packet2Out] := by
        simp only [Session.talk, pending]
      exact followed_write now reads talked (late pending (by decide)) rfl rfl
        (conversing.hearing rfl rfl rfl)
  | writeDirectResponse =>
      rw [pending] at conversing completed
      cases completed
      have posted : s.posts now l.guid .written =
          s.handleResponsePosts now l.guid := by
        simp only [Scene.posts, pending]
      rw [posted]
      exact followed_handleResponse id now reads conversing pending
  | writeSecure =>
      rw [pending] at conversing completed
      cases completed
      obtain ⟨connect, sending⟩ := conversing
      have talked : s.session.talk .written = [.asked s.session.packet2Out] := by
        simp only [Session.talk, pending]
      exact followed_write now reads talked (late pending (by decide)) rfl rfl
        ⟨connect, sending.hearing rfl rfl rfl⟩
  | writeSecureResponse =>
      rw [pending] at conversing completed
      cases completed
      obtain ⟨connect, answering⟩ := conversing
      obtain ⟨dialogue, placed, quiet⟩ := answering.idle
      have talked : s.session.talk .written =
          [.told s.session.filteredResponse] := by
        simp only [Session.talk, pending]
      exact followed_write now reads talked (late pending (by decide)) rfl rfl
        ⟨connect, dialogue, placed, quiet⟩
  | _ =>
      rw [pending] at completed
      cases completed

theorem followed_established {certified : Bool}
    (completed : s.complete id now (.established certified) = some after) :
    Followed
      (l.add s.session (.established certified) after.session
        (s.posts now l.guid (.established certified))) after.session := by
  unfold Conversing at conversing
  unfold Scene.complete at completed
  cases pending : s.session.pending with
  | writeEstablished =>
      rw [pending] at conversing completed
      cases completed
      obtain ⟨past, r, requests, dialogue, request, quiet, placed, method⟩ :=
        conversing
      have said : s.session.said (.established certified) = [] := by
        simp only [Session.said, pending]
      have talked : s.session.talk (.established certified) =
          [.told connectionEstablished] := by
        simp only [Session.talk, pending]
      have posted : s.posts now l.guid (.established certified) = [] := by
        simp only [Scene.posts, pending]
      have opened : Idle (some r)
          { l with talk := l.talk ++ [.told connectionEstablished] }
          s.session := by
        refine ⟨?_, placed, quiet⟩
        rw [requests]
        exact .exchange dialogue (.connected l.guid method)
      unfold Scene.doReadForConnectRequest
      split
      · exact followed_unposted reads said talked posted rfl rfl
          ⟨r, opened.dialogue, placed, quiet⟩
      · exact followed_unposted reads said talked posted rfl rfl opened.broken
  | _ =>
      rw [pending] at completed
      cases completed

theorem followed_answered {status : Option Int}
    (completed : s.complete id now (.answered status) = some after) :
    Followed
      (l.add s.session (.answered status) after.session
        (s.posts now l.guid (.answered status))) after.session := by
  unfold Conversing at conversing
  unfold Scene.complete at completed
  cases pending : s.session.pending with
  | verify user pass =>
      rw [pending] at conversing completed
      dsimp only at completed
      have posted : s.posts now l.guid (.answered status) =
          if status = some 200 then s.doAfterAuthPosts l.guid else [] := by
        simp only [Scene.posts, pending]
      rw [posted]
      by_cases granted : status = some 200
      · rw [if_pos granted] at completed
        cases completed
        rw [if_pos granted]
        refine followed_verified reads conversing pending ?_
          (doAfterAuth_packetIn id now)
        intro r request quiet outside credentials
        exact begun_doAfterAuth id l.guid now
          (s := ⟨s.session, _, _⟩) request rfl quiet outside credentials
      · rw [if_neg granted] at completed
        cases completed
        rw [if_neg granted]
        refine followed_verified reads conversing pending ?_ rfl
        intro r request quiet outside _
        exact begun_doWrite407Unauthorized l.guid request rfl quiet outside
  | _ =>
      rw [pending] at completed
      cases completed

end Completions

/-- Every handler keeps the dialogue going or breaks it off. -/
theorem followed_complete {after : Scene} {completion : Completion}
    (followed : Followed l s.session)
    (completed : s.complete id now completion = some after) :
    Followed
      (l.add s.session completion after.session
        (s.posts now l.guid completion)) after.session := by
  obtain ⟨reads, conversing⟩ := followed
  cases completion with
  | failed => exact followed_failed id now reads conversing completed
  | read bytes undefined => exact followed_read id now reads conversing completed
  | written => exact followed_written id now reads conversing completed
  | established certified =>
      exact followed_established id now reads conversing completed
  | resolved more => exact followed_resolved id now reads conversing completed
  | connected => exact followed_connected id now reads conversing completed
  | shaken => exact followed_shaken id now reads conversing completed
  | answered status => exact followed_answered id now reads conversing completed

end Handlers

section Runs

/-- What is known of the session `id` of a proxy. -/
structure Overheard (id : Nat) (p : Proxy) (l : Log) : Prop where
  present : ∀ session, p.sessions[id]? = some session → Followed l session
  absent : p.sessions[id]? = none → l = {}

variable {id : Nat} {p : Proxy} {l : Log}

theorem Overheard.start : Overheard id {} {} := by
  constructor
  · intro session impossible
    cases impossible
  · intro _
    rfl

theorem Overheard.of_same (overheard : Overheard id p l) {after : Proxy}
    (same : after.sessions[id]? = p.sessions[id]?) : Overheard id after l := by
  constructor
  · intro session here
    exact overheard.present session (same ▸ here)
  · intro missing
    exact overheard.absent (same ▸ missing)

theorem Overheard.accept (overheard : Overheard id p l) (now : Int) :
    Overheard id (p.step now .accept) l := by
  by_cases inside : id < p.sessions.length
  · exact overheard.of_same (List.getElem?_append_left inside)
  · have missing : p.sessions[id]? = none :=
      List.getElem?_eq_none (Nat.le_of_not_lt inside)
    constructor
    · intro session here
      have last : [({} : Session)][id - p.sessions.length]? = some session :=
        (List.getElem?_append_right (Nat.le_of_not_lt inside)).symm.trans here
      have member := List.mem_of_getElem? last
      rw [List.mem_singleton.mp member, overheard.absent missing]
      exact ⟨.nothing, .silence, .outside rfl, rfl⟩
    · intro _
      exact overheard.absent missing

theorem Overheard.completes (overheard : Overheard id p l) (now : Int)
    (completion : Completion) :
    Overheard id (p.step now (.completes id completion))
      (l.step id p now (.completes id completion)) := by
  unfold Proxy.step Log.step
  dsimp only
  rw [if_pos rfl]
  cases here : p.sessions[id]? with
  | none => exact overheard
  | some session =>
      dsimp only
      cases completed :
          Scene.complete id now ⟨session, p.cache, p.records⟩ completion with
      | none => exact overheard
      | some after =>
          have followed := followed_complete id now
            (s := ⟨session, p.cache, p.records⟩)
            (overheard.present session here) completed
          have inside : id < p.sessions.length :=
            (List.getElem?_eq_some_iff.mp here).1
          constructor
          · intro other there
            dsimp only at there
            rw [List.getElem?_set_self inside] at there
            cases there
            exact followed
          · intro missing
            dsimp only at missing
            rw [List.getElem?_set_self inside] at missing
            cases missing

theorem Proxy.step_other {other : Nat} (different : other ≠ id) (now : Int)
    (completion : Completion) :
    (p.step now (.completes other completion)).sessions[id]? =
      p.sessions[id]? := by
  unfold Proxy.step
  dsimp only
  split
  · rfl
  · split
    · rfl
    · exact List.getElem?_set_ne different

theorem Overheard.step (overheard : Overheard id p l) (now : Int)
    (event : Event) :
    Overheard id (p.step now event) (l.step id p now event) := by
  cases event with
  | accept => exact overheard.accept now
  | completes other completion =>
      by_cases same : other = id
      · subst same
        exact overheard.completes now completion
      · have quiet : l.step id p now (.completes other completion) = l :=
          if_neg same
        rw [quiet]
        exact overheard.of_same (Proxy.step_other same now completion)

theorem Overheard.run (overheard : Overheard id p l)
    (events : List (Int × Event)) :
    Overheard id (p.run events) (l.run id p events) := by
  induction events generalizing p l with
  | nil => exact overheard
  | cons first rest induction =>
      exact induction (overheard.step first.1 first.2)

/-- A session that waits for its client has answered everything. -/
theorem Conversing.answered {session : Session}
    (conversing : Conversing l session)
    (hears : session.pending.hears = true) :
    ∃ tunnel, Dialogue ⟨tunnel, l.guid⟩ l.requests l.talk ∧
      tunnel.isSome = session.pending.tunnels := by
  unfold Conversing at conversing
  cases pending : session.pending with
  | readRequest =>
      rw [pending] at conversing
      exact ⟨none, conversing.dialogue, rfl⟩
  | handshakeClient | handshakeOrigin | readSecure =>
      rw [pending] at conversing
      obtain ⟨connect, idle⟩ := conversing
      exact ⟨some connect, idle.dialogue, rfl⟩
  | write407 | resolveDirect | writeDirect | readDirect | writeDirectResponse
  | resolveConnect | writeEstablished | writeSecure | readSecureResponse
  | writeSecureResponse | «over» =>
      rw [pending] at hears
      cases hears
  | verify user pass =>
      rw [pending] at hears
      cases hears
  | connectDirect more | connectConnect more =>
      rw [pending] at hears
      cases hears

end Runs

/-- In any run, what a session has read, said and posted is a dialogue: the
requests are read from the bytes of the client one behind the other, and each
is answered before the next one is read. A request is refused, opens a tunnel
if it is a CONNECT, or is posted for the user it names and goes to the origin
server, whose answer goes to the client when it is whole, after it was posted
too unless it is too large; a tunnel stays a tunnel. -/
theorem answers_in_turn (id : Nat) (events : List (Int × Event))
    (session : Session)
    (here : (Proxy.run {} events).sessions[id]? = some session) :
    Reads (Log.run id {} {} events).said (Log.run id {} {} events).requests
        session.packetIn ∧
      ∃ place past before last rest,
        Dialogue place past before ∧ Unfinished place last rest ∧
        (Log.run id {} {} events).requests = past ++ last ∧
        (Log.run id {} {} events).talk = before ++ rest ∧
        (session.pending.hears = true → last = [] ∧ rest = [] ∧
          place.tunnel.isSome = session.pending.tunnels) := by
  obtain ⟨reads, conversing⟩ :=
    (Overheard.start.run events).present session here
  refine ⟨reads, ?_⟩
  by_cases hears : session.pending.hears = true
  · obtain ⟨tunnel, dialogue, tunnels⟩ := conversing.answered hears
    exact ⟨_, _, _, [], [], dialogue, .nothing _, (List.append_nil _).symm,
      (List.append_nil _).symm, fun _ => ⟨rfl, rfl, tunnels⟩⟩
  · obtain ⟨place, past, before, last, rest, dialogue, unfinished, requests,
      talk⟩ := conversing.broken
    exact ⟨place, past, before, last, rest, dialogue, unfinished, requests,
      talk, fun heard => absurd heard hears⟩

/-- A request that goes to its origin server, with its answer in two pieces. -/
def oneAnswer : List (Int × Event) :=
  [(0, .accept),
    (0, .completes 0 (.read (ascii "GET http://a/ HTTP/1.1\r\n") (.error .ng))),
    (1, .completes 0 (.read
      (ascii "Proxy-Authorization: Basic dTpw\r\n\r\n") (.error .ng))),
    (2, .completes 0 (.answered (some 200))),
    (2, .completes 0 (.resolved 0)),
    (3, .completes 0 .connected),
    (3, .completes 0 .written),
    (4, .completes 0 (.read
      (ascii "HTTP/1.1 200 OK\r\nContent-Length: 2\r\n\r\no")
      (.error .ng))),
    (4, .completes 0 (.read (ascii "k") (.error .ng))),
    (5, .completes 0 .written)]

theorem answers_in_turn_with_one_answer :
    (Proxy.run {} oneAnswer).sessions.length = 1 ∧
      (Log.run 0 {} {} oneAnswer).guid = 1 ∧
      ∃ place, Dialogue place (Log.run 0 {} {} oneAnswer).requests
        (Log.run 0 {} {} oneAnswer).talk := by
  have one : (Proxy.run {} oneAnswer).sessions.length = 1 := by
    decide +kernel
  have waits : (((Proxy.run {} oneAnswer).sessions[0]?).map
      (·.pending.hears)) = some true := by
    decide +kernel
  refine ⟨one, by decide +kernel, ?_⟩
  obtain ⟨session, here, hears⟩ := Option.map_eq_some_iff.mp waits
  obtain ⟨-, place, past, before, last, rest, dialogue, -, requests, talk,
    whole⟩ := answers_in_turn 0 oneAnswer session here
  obtain ⟨rfl, rfl, -⟩ := whole hears
  rw [List.append_nil] at requests talk
  rw [requests, talk]
  exact ⟨place, dialogue⟩

end Universe.HttpProxy
