import Universe.HttpProxy.Authorisation

/-!
# What a session posts

A session posts every request that it is about to pass on, and every answer
that is not too large before its client gets it.  It does not wait for what
becomes of these reports.
-/

namespace Universe.HttpProxy

open StreamReader

/-- What is posted.  A GUID is which one of the session's it is. -/
inductive Report where
  | request (uuid : Nat) (user method uri packet body : Bytes)
  | response (uuid : Nat) (packet body : Bytes)
  deriving DecidableEq

/-- `MAX_RESPONSE_PACKET_SIZE`. -/
def maxResponsePacketSize : Nat := 10 * 1024 * 1024

/-- The URI of a request in a tunnel, whose own URI names no host. -/
def tunnelledUri (connect r : HttpRequest) : Bytes :=
  let (_, host, port) := uriParts connect.uri
  ascii "https://" ++ host.getD [] ++
    (if port.getD [] = ascii "443" then [] else ascii ":" ++ port.getD []) ++
    r.uri

namespace Session

variable (guid : Nat)

/-- `post_request`, with the GUID that is generated before it. -/
def postRequest (s : Session) (r : HttpRequest) : Report :=
  let uri :=
    match s.connectRequest with
    | some connect => tunnelledUri connect.request r
    | none => r.uri
  .request (guid + 1) s.authUser r.method uri r.forwardProxyPacket r.body

/-- `post_response`, where `packet2_in_` is not empty yet. -/
def postResponse (s : Session) (response : HttpResponse) : List Report :=
  if maxResponsePacketSize < s.packet2In.length then []
  else [.response guid s.filteredResponse response.body]

/-- What `handle_read_after_handshake_for_connect_request` posts. -/
def handleReadAfterHandshakePosts (bytes : Bytes) (s : Session) :
    List Report :=
  let packetIn := s.packetIn ++ bytes
  if maxRequestPacketSize < packetIn.length then []
  else
    match HttpRequest.parseRequest packetIn with
    | .ok (request, _) => [s.postRequest guid request]
    | .error _ => []

/-- What `handle_read_for_direct_request` and
`handle_ssl_read_for_connect_request` post. -/
def handleReadResponsePosts (bytes : Bytes)
    (undefined : Except ReaderException HttpResponse) (s : Session) :
    List Report :=
  let packet2In := s.packet2In ++ bytes
  match HttpResponse.parsed packet2In undefined with
  | .ok response =>
      { s with packet2In, filteredResponse := response.toBytes }.postResponse
        guid response
  | .error _ => []

end Session

namespace Scene

variable (now : Int) (guid : Nat)

/-- What `do_after_auth` posts. -/
def doAfterAuthPosts (s : Scene) : List Report :=
  match s.session.request with
  | none => []
  | some numbered =>
      if numbered.request.isConnect then []
      else [s.session.postRequest guid numbered.request]

/-- What `do_auth` posts. -/
def doAuthPosts (s : Scene) : List Report :=
  match s.session.request.bind (·.request.credentials) with
  | none => []
  | some (user, pass) =>
      let s := { s with session := { s.session with authUser := user } }
      match (s.cache.get now user).1 with
      | some cachedPass =>
          if cachedPass ≠ pass then [] else doAfterAuthPosts guid s
      | none => []

/-- What `handle_read_http_request` posts. -/
def handleReadHttpRequestPosts (bytes : Bytes) (s : Scene) : List Report :=
  let packetIn := s.session.packetIn ++ bytes
  if maxRequestPacketSize < packetIn.length then []
  else
    match HttpRequest.parseRequest packetIn with
    | .ok (request, _) =>
        if (request.headers.find (ascii "Proxy-Authorization")).isNone then []
        else doAuthPosts now guid { s with session := { s.session with
          packetIn
          request := some ⟨s.session.parsed, request⟩
          parsed := s.session.parsed + 1 } }
    | .error _ => []

/-- What `handle_response_for_direct_request` posts. -/
def handleResponsePosts (s : Scene) : List Report :=
  if s.session.packetIn.isEmpty then []
  else handleReadHttpRequestPosts now guid [] s

/-- What the handler of the pending operation posts. -/
def posts (s : Scene) (completion : Completion) : List Report :=
  match s.session.pending, completion with
  | .readRequest, .read bytes _ => handleReadHttpRequestPosts now guid bytes s
  | .verify _ _, .answered status =>
      if status = some 200 then doAfterAuthPosts guid s else []
  | .readDirect, .read bytes undefined =>
      s.session.handleReadResponsePosts guid bytes undefined
  | .writeDirectResponse, .written => handleResponsePosts now guid s
  | .readSecure, .read bytes _ =>
      s.session.handleReadAfterHandshakePosts guid bytes
  | .readSecureResponse, .read bytes undefined =>
      s.session.handleReadResponsePosts guid bytes undefined
  | _, _ => []

end Scene

end Universe.HttpProxy
