import Universe.HttpProxy
import Universe.Utils
import Mathlib.Logic.Function.Basic

/-!
# Sessions of the forward proxy

A session has one asynchronous operation at a time.  Its completion runs a
handler, which starts the next operation.  All sessions share the cache of the
passwords that have been verified.
-/

namespace Universe.HttpProxy

open Incremental StreamReader

/-- `Cache`; times are seconds. -/
structure Cache where
  cache : Bytes → Option Bytes := fun _ => none
  expire : Bytes → Option Int := fun _ => none

namespace Cache

/-- `DEFAULT_EXPIRE`. -/
def defaultExpire : Int := 15 * 60

def set (c : Cache) (now : Int) (key value : Bytes) : Cache where
  cache := Function.update c.cache key (some value)
  expire := Function.update c.expire key (some (now + defaultExpire))

/-- `get`, which forgets what has expired. -/
def get (c : Cache) (now : Int) (key : Bytes) : Option Bytes × Cache :=
  match c.expire key with
  | none => (none, c)
  | some expire =>
      if expire < now then
        (none, {
          cache := Function.update c.cache key none
          expire := Function.update c.expire key none })
      else (some ((c.cache key).getD []), c)

end Cache

namespace Base64

/-- `reverse_table`. -/
def sextet (byte : UInt8) : Option UInt32 :=
  if 65 ≤ byte && byte ≤ 90 then some (byte.toUInt32 - 65)
  else if 97 ≤ byte && byte ≤ 122 then some (byte.toUInt32 - 71)
  else if 48 ≤ byte && byte ≤ 57 then some (byte.toUInt32 + 4)
  else if byte = 43 then some 62
  else if byte = 47 then some 63
  else none

/-- The loop of `base64_decode`; `retval` is what has been decoded. -/
def loop (accumulator : UInt32) (bitsCollected : Nat) (retval : Bytes) :
    Bytes → Bytes
  | [] => retval
  | byte :: rest =>
      if isSpace byte || byte = 61 then
        loop accumulator bitsCollected retval rest
      else
        match sextet byte with
        | none => []
        | some value =>
            let accumulator := accumulator <<< 6 ||| value
            let bitsCollected := bitsCollected + 6
            if 8 ≤ bitsCollected then
              loop accumulator (bitsCollected - 8)
                (retval ++ [((accumulator >>>
                  (bitsCollected - 8).toUInt32) &&& 0xff).toUInt8]) rest
            else loop accumulator bitsCollected retval rest

/-- `base64_decode`. -/
def decode (text : Bytes) : Bytes := loop 0 0 [] text

example : decode (ascii "dXNlcjpwYXNz") = ascii "user:pass" := by
  decide +kernel

end Base64

/-- The capital digit. -/
def hexDigit (digit : UInt8) : UInt8 :=
  if digit < 10 then digit + 48 else digit + 55

/-- `url_encode` of one byte. -/
def urlEncodeByte (byte : UInt8) : Bytes :=
  if (48 ≤ byte && byte ≤ 57) || (65 ≤ byte && byte ≤ 90) ||
      (97 ≤ byte && byte ≤ 122) || byte = 45 || byte = 95 || byte = 46 ||
      byte = 126
  then [byte]
  else [37, hexDigit (byte / 16), hexDigit (byte % 16)]

/-- `url_encode`. -/
def urlEncode (text : Bytes) : Bytes := text.flatMap urlEncodeByte

/-- What the verification service is asked. -/
def form (user pass : Bytes) : Bytes :=
  ascii "name=" ++ urlEncode user ++ ascii "&password=" ++ urlEncode pass

/-- `uri_parts` of which the session uses schema, host and port. -/
def uriParts (uri : Bytes) : Option Bytes × Option Bytes × Option Bytes :=
  let (schema, rest) :=
    match Utils.splitAt (ascii "://") uri with
    | some (schema, rest) => (some schema, rest)
    | none => (none, uri)
  let hostPort := rest.takeWhile (· != 47)
  if hostPort.isEmpty && hostPort.length < rest.length then
    (schema, none, none)
  else
    match Utils.splitAt (ascii ":") hostPort with
    | some (host, port) => (schema, some host, some port)
    | none => (schema, some hostPort, none)

namespace HttpRequest

/-- The user and the password `do_auth` finds in the header. -/
def credentials (r : HttpRequest) : Option (Bytes × Bytes) := do
  let auth := (r.headers.find (ascii "Proxy-Authorization")).getD []
  let (_, base64Value) ← Utils.splitAt (ascii "Basic ") auth
  Utils.splitAt (ascii ":") (Base64.decode base64Value)

/-- `strncasecmp(method, "connect", 7) == 0`. -/
def isConnect (r : HttpRequest) : Bool :=
  (r.method.take 7).map (fun byte =>
    if 65 ≤ byte && byte ≤ 90 then byte + 32 else byte) == ascii "connect"

end HttpRequest

/-- A request and how many the session has read before it. -/
structure Numbered where
  number : Nat
  request : HttpRequest
  deriving DecidableEq

/-- The operation whose completion a session waits for. -/
inductive Pending where
  | readRequest
  | write407
  | verify (user pass : Bytes)
  | resolveDirect
  | connectDirect (more : Nat)
  | writeDirect
  | readDirect
  | writeDirectResponse
  | resolveConnect
  | connectConnect (more : Nat)
  | writeEstablished
  | handshakeClient
  | handshakeOrigin
  | readSecure
  | writeSecure
  | readSecureResponse
  | writeSecureResponse
  /-- No handler holds the session any more. -/
  | over
  deriving DecidableEq

structure Session where
  pending : Pending := .readRequest
  request : Option Numbered := none
  connectRequest : Option Numbered := none
  /-- How many requests have been read. -/
  parsed : Nat := 0
  packetIn : Bytes := []
  packet2In : Bytes := []
  packet2Out : Bytes := []
  filteredResponse : Bytes := []
  authUser : Bytes := []

/-- What has happened, for the statements about it. -/
inductive Record where
  /-- The service has answered 200 to the form. -/
  | verified (form : Bytes) (time : Int)
  /-- `do_after_auth` was reached. -/
  | afterAuth (session : Nat) (request : Numbered) (time : Int)
  /-- A packet goes to the origin server, through a tunnel or not. -/
  | wrote (session : Nat) (request : Numbered) (tunnel : Option Numbered)
      (packet : Bytes)

/-- A session while one of its handlers runs, the cache and the past, the last
record first. -/
structure Scene where
  session : Session
  cache : Cache
  records : List Record

/-- `MAX_REQUEST_PACKET_SIZE`. -/
def maxRequestPacketSize : Nat := 10 * 1024 * 1024

/-- How an operation ends. -/
inductive Completion where
  | failed
  /-- The response is what `parse_response` returns where it is undefined. -/
  | read (bytes : Bytes) (undefined : Except ReaderException HttpResponse)
  | written
  /-- Whether there is a certificate, after a write that ends in any way. -/
  | established (certified : Bool)
  | resolved (more : Nat)
  | connected
  | shaken
  /-- The status in the answer of the service.  Where there is no answer the
  callback looks at a response that is not there, and the run ends. -/
  | answered (status : Option Int)

namespace Scene

def await (s : Scene) (pending : Pending) : Scene :=
  { s with session := { s.session with pending } }

def record (s : Scene) (record : Record) : Scene :=
  { s with records := record :: s.records }

/-- `do_write_407_unauthorized`. -/
def doWrite407Unauthorized (s : Scene) : Scene :=
  let httpVersion := (s.session.request.map (·.request.httpVersion)).getD []
  { s with session := { s.session with
      filteredResponse := httpVersion ++
        ascii " 407 Proxy Authentication Required\r\n" ++
        ascii "Proxy-Authenticate: Basic realm=\"xdebug\"\r\n" ++
        ascii "Content-Type: text/html\r\n" ++ ascii "Content-Length: 29" ++
        ascii "\r\n\r\n" ++ ascii "Proxy Authentication Required"
      pending := .write407 } }

variable (id : Nat) (now : Int)

/-- `do_after_auth`, with `do_connect_request` and `do_direct_request`. -/
def doAfterAuth (s : Scene) : Scene :=
  match s.session.request with
  | none => s.await .over
  | some numbered =>
      let s := s.record (.afterAuth id numbered now)
      let (schema, host, port) := uriParts numbered.request.uri
      if numbered.request.isConnect then
        let s := { s with
          session := { s.session with connectRequest := some numbered } }
        if host.isSome && port.isSome then s.await .resolveConnect
        else s.await .over
      else
        if host.isSome && schema.isSome then s.await .resolveDirect
        else s.await .over

/-- `do_auth`. -/
def doAuth (s : Scene) : Scene :=
  match s.session.request.bind (·.request.credentials) with
  | none => s.await .over
  | some (user, pass) =>
      let s := { s with session := { s.session with authUser := user } }
      let (cached, cache) := s.cache.get now user
      let s := { s with cache }
      match cached with
      | some cachedPass =>
          if cachedPass ≠ pass then s.await .over else doAfterAuth id now s
      | none => s.await (.verify user pass)

/-- `handle_read_http_request` of what was read. -/
def handleReadHttpRequest (bytes : Bytes) (s : Scene) : Scene :=
  let packetIn := s.session.packetIn ++ bytes
  let s := { s with session := { s.session with packetIn } }
  if maxRequestPacketSize < packetIn.length then s.await .over
  else
    match HttpRequest.parseRequest packetIn with
    | .ok (request, parsedLength) =>
        let s := { s with session := { s.session with
          request := some ⟨s.session.parsed, request⟩
          parsed := s.session.parsed + 1 } }
        let s :=
          if (request.headers.find (ascii "Proxy-Authorization")).isNone
          then s.doWrite407Unauthorized else doAuth id now s
        { s with session := { s.session with
          packetIn := packetIn.drop parsedLength } }
    | .error .ag => s.await .readRequest
    | .error .ng => s.await .over

/-- `handle_connect_for_direct_request`, when it is connected. -/
def writeDirectRequest (s : Scene) : Scene :=
  match s.session.request with
  | none => s.await .over
  | some numbered =>
      let packet := numbered.request.forwardProxyPacket
      let s := s.record (.wrote id numbered none packet)
      { s with session := { s.session with
        packet2Out := packet
        pending := .writeDirect } }

/-- `handle_read_for_direct_request` and `handle_ssl_read_for_connect_request`,
which differ in what they wait for next. -/
def handleReadResponse (reading answering : Pending) (bytes : Bytes)
    (undefined : Except ReaderException HttpResponse) (s : Scene) : Scene :=
  let packet2In := s.session.packet2In ++ bytes
  let s := { s with session := { s.session with packet2In } }
  match HttpResponse.parsed packet2In undefined with
  | .ok response =>
      { s with session := { s.session with
        filteredResponse := response.toBytes
        packet2In := []
        pending := answering } }
  | .error .ag => s.await reading
  | .error .ng => s.await .over

/-- `handle_response_for_direct_request`. -/
def handleResponse (s : Scene) : Scene :=
  if s.session.packetIn.isEmpty then s.await .readRequest
  else handleReadHttpRequest id now [] s

/-- `do_read_for_connect_request`. -/
def doReadForConnectRequest (certified : Bool) (s : Scene) : Scene :=
  if s.session.packetIn.isEmpty && certified then s.await .handshakeClient
  else s.await .over

/-- `handle_read_after_handshake_for_connect_request`. -/
def handleReadAfterHandshake (bytes : Bytes) (s : Scene) : Scene :=
  let packetIn := s.session.packetIn ++ bytes
  let s := { s with session := { s.session with packetIn } }
  if maxRequestPacketSize < packetIn.length then s.await .over
  else
    match HttpRequest.parseRequest packetIn with
    | .ok (request, parsedLength) =>
        let numbered : Numbered := ⟨s.session.parsed, request⟩
        let packet := request.forwardProxyPacket
        let s := s.record
          (.wrote id numbered s.session.connectRequest packet)
        { s with session := { s.session with
          request := some numbered
          parsed := s.session.parsed + 1
          packet2Out := packet
          packetIn := packetIn.drop parsedLength
          pending := .writeSecure } }
    | .error .ag => s.await .readSecure
    | .error .ng => s.await .over

/-- The handler of the pending operation; `none` for a completion of another
one. -/
def complete (s : Scene) (completion : Completion) : Option Scene :=
  match s.session.pending, completion with
  | .readRequest, .read bytes _ => some (handleReadHttpRequest id now bytes s)
  | .write407, .written => some (s.await .readRequest)
  | .verify user pass, .answered status =>
      if status = some 200 then
        let s := s.record (.verified (form user pass) now)
        some (doAfterAuth id now
          { s with cache := s.cache.set now user pass })
      else some s.doWrite407Unauthorized
  | .resolveDirect, .resolved more => some (s.await (.connectDirect more))
  | .connectDirect _, .connected => some (writeDirectRequest id s)
  | .connectDirect (more + 1), .failed => some (s.await (.connectDirect more))
  | .writeDirect, .written => some (s.await .readDirect)
  | .readDirect, .read bytes undefined =>
      some (s.handleReadResponse .readDirect .writeDirectResponse bytes
        undefined)
  | .writeDirectResponse, .written => some (handleResponse id now s)
  | .resolveConnect, .resolved more => some (s.await (.connectConnect more))
  | .connectConnect _, .connected => some (s.await .writeEstablished)
  | .connectConnect (more + 1), .failed =>
      some (s.await (.connectConnect more))
  | .writeEstablished, .established certified =>
      some (s.doReadForConnectRequest certified)
  | .handshakeClient, .shaken => some (s.await .handshakeOrigin)
  | .handshakeOrigin, .shaken => some (s.await .readSecure)
  | .readSecure, .read bytes _ => some (handleReadAfterHandshake id bytes s)
  | .writeSecure, .written => some (s.await .readSecureResponse)
  | .readSecureResponse, .read bytes undefined =>
      some (s.handleReadResponse .readSecureResponse .writeSecureResponse
        bytes undefined)
  | .writeSecureResponse, .written => some (s.await .readSecure)
  | .over, _ => none
  | .verify _ _, _ => none
  | .writeEstablished, _ => none
  | _, .failed => some (s.await .over)
  | _, _ => none

end Scene

/-- The sessions in the order of their acceptance. -/
structure Proxy where
  sessions : List Session := []
  cache : Cache := {}
  records : List Record := []

inductive Event where
  | accept
  | completes (session : Nat) (completion : Completion)

namespace Proxy

/-- A completion that no operation waits for does not happen. -/
def step (p : Proxy) (now : Int) : Event → Proxy
  | .accept => { p with sessions := p.sessions ++ [{}] }
  | .completes id completion =>
      match p.sessions[id]? with
      | none => p
      | some session =>
          match Scene.complete id now ⟨session, p.cache, p.records⟩
              completion with
          | none => p
          | some s =>
              { sessions := p.sessions.set id s.session
                cache := s.cache
                records := s.records }

/-- A run of events, each at its time. -/
def run (p : Proxy) : List (Int × Event) → Proxy
  | [] => p
  | (now, event) :: rest => run (p.step now event) rest

theorem run_append (p : Proxy) (events more : List (Int × Event)) :
    p.run (events ++ more) = (p.run events).run more := by
  induction events generalizing p with
  | nil => rfl
  | cons first events induction => exact induction (p.step first.1 first.2)

end Proxy

end Universe.HttpProxy
