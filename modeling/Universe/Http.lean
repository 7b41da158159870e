import Universe.Bufferable
import Universe.Library.OrderedMap
import Universe.StreamReader

/-!
# The HTTP server protocol

`Http` parses requests, fires `ON_REQUEST` and writes the response.  What it
asks of the scheduler and of `Bufferable` is the `Host` it runs on, so that
the same code can be read as one session of a client and as callbacks on the
event manager.
-/

namespace Universe

open Incremental

/-- `std::to_string`. -/
def decimal (number : Int) : Bytes := ascii (toString number)

def isSpace (byte : UInt8) : Bool := byte = 32 || (9 ≤ byte && byte ≤ 13)

def isDigit (byte : UInt8) : Bool := 48 ≤ byte && byte ≤ 57

/-- `atol`. -/
def atol (text : Bytes) : Int :=
  let signed := text.dropWhile isSpace
  let negative := signed.head? == some 45
  let unsigned :=
    if negative || signed.head? == some 43 then signed.tail else signed
  let magnitude : Int := (unsigned.takeWhile isDigit).foldl
    (fun value digit => 10 * value + (digit.toNat - 48)) 0
  max (-2 ^ 63) (min (2 ^ 63 - 1) (if negative then -magnitude else magnitude))

/-- `atoi`: `strtol`, cut down to an `int`. -/
def atoi (text : Bytes) : Int := (atol text).bmod (2 ^ 32)

/-- `map<string, string>`, in the order of its keys. -/
abbrev Headers := List (Bytes × Bytes)

namespace Headers

/-- `headers[name] = value`. -/
def set (name value : Bytes) (headers : Headers) : Headers :=
  OrderedMap.assign name value headers

/-- `headers.find(name)`. -/
def find (headers : Headers) (name : Bytes) : Option Bytes :=
  OrderedMap.find name headers

end Headers

structure HttpRequest where
  client : Fd
  method : Bytes
  uri : Bytes
  httpVersion : Bytes
  headers : Headers
  body : Bytes
  deriving DecidableEq, Repr

structure HttpResponse where
  statusCode : Int
  reasonPhrase : Bytes
  headers : List (Bytes × Bytes)
  body : Bytes
  httpVersion : Bytes := ascii "HTTP/1.1"
  deriving DecidableEq, Repr

namespace HttpToken

def contentLength : Bytes := ascii "Content-Length"

def connection : Bytes := ascii "Connection"

end HttpToken

namespace HttpResponse

/-- `HttpResponse(const HttpRequest&)`. -/
def ofRequest (r : HttpRequest) : HttpResponse :=
  { statusCode := 200
    reasonPhrase := ascii "OK"
    headers := []
    body := []
    httpVersion := r.httpVersion }

/-- `to_string`.  The length of the body replaces any header of this name. -/
def toBytes (response : HttpResponse) : Bytes :=
  response.httpVersion ++ ascii " " ++ decimal response.statusCode ++
    ascii " " ++ response.reasonPhrase ++ ascii "\r\n" ++
    (response.headers.flatMap fun (name, value) =>
      if name = HttpToken.contentLength then []
      else name ++ ascii ": " ++ value ++ ascii "\r\n") ++
    HttpToken.contentLength ++ ascii ": " ++ decimal response.body.length ++
    ascii "\r\n" ++ ascii "\r\n" ++ response.body

end HttpResponse

/-- What a protocol asks of its scheduler and of its `Bufferable`. -/
structure Host (m : Type → Type) where
  needBuf : Fd → Bytes → Bool → m Bool
  appendBuf : Fd → Bytes → m Bytes
  eraseBuf : Fd → m Unit
  write : Fd → Bytes → m Int
  close : Fd → m Bool
  /-- An exception that nobody catches. -/
  exit : {α : Type} → m α

namespace Http

open StreamReader

/-- One round of the loop over the headers, with what is known so far. -/
def parseHeader (headers : Headers) (contentLength : Int) :
    StreamReader (Headers × Int ⊕ Headers × Int) := do
  let nextChar ← preadChar
  if nextChar = 13 then return .inr (headers, contentLength)
  else
    let headerName ← readUntil (ascii ":") true
    let nextChar ← readChar
    failIf (nextChar != 32)
    failIf (headerName == ascii "Transfer-Encoding")
    let headerValue ← readUntil (ascii "\r")
    readCrlf
    return .inl (headers.set headerName headerValue,
      if headerName = ascii "Content-Length" then atoi headerValue
      else contentLength)

def parseHeaders : StreamReader (Headers × Int) :=
  iterate .ag (fun known => parseHeader known.1 known.2) ([], -1)

def parseBody (contentLength : Int) : StreamReader Bytes :=
  if 0 < contentLength then readSize contentLength.toNat else pure []

/-- `parse_request`. -/
def parseRequest (client : Fd) : StreamReader HttpRequest := do
  let method ← readUntil (ascii " ")
  let _ ← readUp (ascii " ")
  let uri ← readUntil (ascii " ")
  let _ ← readUp (ascii " ")
  let httpVersion ← readUntil (ascii "\r")
  readCrlf
  let (headers, contentLength) ← parseHeaders
  readCrlf
  let body ← parseBody contentLength
  return { client, method, uri, httpVersion, headers, body }

variable {m : Type → Type} [Monad m] (host : Host m)

/-- `close_if_necessary`.  A version of less than five characters makes
`substr` throw. -/
def closeIfNecessary (r : HttpRequest) : m Bool :=
  match r.headers.find HttpToken.connection with
  | some value =>
      if value = ascii "close" then do
        let _ ← host.close r.client
        return true
      else return false
  | none =>
      if r.httpVersion.length < 5 then host.exit
      else if r.httpVersion.drop 5 = ascii "1.0" then do
        let _ ← host.close r.client
        return true
      else return false

variable (fire : HttpRequest → HttpResponse → m (HttpRequest × HttpResponse))

/-- The loop of `on_message` over what is left of the message.  Every round
takes a request off it. -/
def serve (client : Fd) : (fuel : Nat) → Bytes → m Unit
  | 0, _ => pure ()
  | fuel + 1, message =>
      match parseRequest client message with
      | .error .ag => do
          let _ ← host.needBuf client message true
          return ()
      | .error .ng => do
          let _ ← host.close client
          return ()
      | .ok (r, rest) => do
          let (r, resp) ← fire r (.ofRequest r)
          let _ ← host.write client resp.toBytes
          let closed ← closeIfNecessary host r
          if closed || rest.isEmpty then return () else serve client fuel rest

/-- `on_message`. -/
def onMessage (client : Fd) (message : Bytes) : m Unit := do
  let message ← host.appendBuf client message
  serve host fire client (message.length + 1) message

/-- `on_close`. -/
def onClose (client : Fd) : m Unit := host.eraseBuf client

theorem stable_parseHeader (headers : Headers) (contentLength : Int) :
    Stable .ag (parseHeader headers contentLength) := by
  refine stable_bind stable_preadChar fun nextChar => ?_
  refine stable_ite (stable_pure _) ?_
  refine stable_bind (stable_readUntil _ _) fun headerName => ?_
  refine stable_bind stable_readChar fun nextChar => ?_
  refine stable_bind (stable_failIf _) fun _ => ?_
  refine stable_bind (stable_failIf _) fun _ => ?_
  refine stable_bind (stable_readUntil _ _) fun headerValue => ?_
  exact stable_bind stable_readCrlf fun _ => stable_pure _

theorem stable_parseBody (contentLength : Int) :
    Stable .ag (parseBody contentLength) :=
  stable_ite (stable_readSize _) (stable_pure _)

/-- More input changes neither a request nor a refusal. -/
theorem stable_parseRequest (client : Fd) :
    Stable .ag (parseRequest client) := by
  refine stable_bind (stable_readUntil _ _) fun method => ?_
  refine stable_bind (stable_readUp _ _) fun _ => ?_
  refine stable_bind (stable_readUntil _ _) fun uri => ?_
  refine stable_bind (stable_readUp _ _) fun _ => ?_
  refine stable_bind (stable_readUntil _ _) fun httpVersion => ?_
  refine stable_bind stable_readCrlf fun _ => ?_
  refine stable_bind (stable_iterate (fun _ => stable_parseHeader _ _) _) ?_
  intro known
  refine stable_bind stable_readCrlf fun _ => ?_
  exact stable_bind (stable_parseBody _) fun body => stable_pure _

theorem takes_headerLine (headers : Headers) (contentLength : Int) :
    Takes 1 (do
      let headerName ← readUntil (ascii ":") true
      let nextChar ← readChar
      failIf (nextChar != 32)
      failIf (headerName == ascii "Transfer-Encoding")
      let headerValue ← readUntil (ascii "\r")
      readCrlf
      return .inl (headers.set headerName headerValue,
        if headerName = ascii "Content-Length" then atoi headerValue
        else contentLength) :
      StreamReader (Headers × Int ⊕ Headers × Int)) := by
  refine takes_later (takes_readUntil _ _) fun headerName => ?_
  refine takes_now takes_readChar fun nextChar => ?_
  refine takes_later (takes_failIf _) fun _ => ?_
  refine takes_later (takes_failIf _) fun _ => ?_
  refine takes_later (takes_readUntil _ _) fun headerValue => ?_
  exact takes_now (takes_readCrlf.weaken (Nat.zero_le _)) fun _ => takes_pure _

theorem takes_parseHeader (headers : Headers) (contentLength : Int) :
    Takes 0 (parseHeader headers contentLength) := by
  refine takes_later takes_preadChar fun nextChar => ?_
  split
  · exact takes_pure _
  · exact (takes_headerLine headers contentLength).weaken (Nat.zero_le _)

/-- Every header takes something off the message. -/
theorem parseHeader_advances {known next : Headers × Int}
    {input rest : Bytes}
    (parsed : parseHeader known.1 known.2 input = .ok (.inl next, rest)) :
    rest.length < input.length := by
  unfold parseHeader at parsed
  cases input with
  | nil => cases parsed
  | cons byte input =>
      rw [bind_of_ok (rfl : preadChar (byte :: input) = .ok _)] at parsed
      split at parsed
      · cases parsed
      · exact takes_headerLine known.1 known.2 _ _ _ parsed

/-- Every request takes something off the message. -/
theorem takes_parseRequest (client : Fd) : Takes 1 (parseRequest client) := by
  refine takes_later (takes_readUntil _ _) fun method => ?_
  refine takes_later (takes_readUp _ _) fun _ => ?_
  refine takes_later (takes_readUntil _ _) fun uri => ?_
  refine takes_later (takes_readUp _ _) fun _ => ?_
  refine takes_later (takes_readUntil _ _) fun httpVersion => ?_
  refine takes_now (takes_readCrlf.weaken (by decide)) fun _ => ?_
  refine takes_later (takes_iterate (fun _ => takes_parseHeader _ _) _) ?_
  intro known
  refine takes_later (takes_readCrlf.weaken (Nat.zero_le _)) fun _ => ?_
  refine takes_later ?_ fun body => takes_pure _
  unfold parseBody
  split
  · exact (takes_readSize _).weaken (Nat.zero_le _)
  · exact takes_pure _

/-- A request belongs to the client it was read from. -/
theorem parseRequest_client (client : Fd) :
    Yields (fun r => r.client = client) (parseRequest client) := by
  iterate 9 refine yields_bind fun _ => ?_
  exact yields_pure rfl

theorem parseRequest_nil (client : Fd) :
    parseRequest client [] = .error .ag := rfl

end Http

end Universe
