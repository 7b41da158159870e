import Universe.HttpGateway.Response

/-!
# Packets of the forward proxy

`http_proxy` reads requests of its client and responses of origin servers with
a stream reader of its own, which does the same as the one of the framework,
and prints both again.
-/

namespace Universe.HttpProxy

open Incremental StreamReader

structure HttpRequest where
  method : Bytes
  uri : Bytes
  httpVersion : Bytes
  headers : Headers
  body : Bytes
  deriving DecidableEq, Repr

structure HttpResponse where
  httpVersion : Bytes
  statusCode : Int
  reasonPhrase : Bytes
  headers : List (Bytes × Bytes)
  body : Bytes
  deriving DecidableEq, Repr

namespace HttpRequest

/-- `parse_request` on the bytes behind `skip_length`.  The loops over the
headers and the body are those of the framework. -/
def read : StreamReader HttpRequest := do
  let method ← readUntil (ascii " ")
  let _ ← readUp (ascii " ")
  let uri ← readUntil (ascii " ")
  let _ ← readUp (ascii " ")
  let httpVersion ← readUntil (ascii "\r")
  readCrlf
  let (headers, contentLength) ← Http.parseHeaders
  readCrlf
  let body ← Http.parseBody contentLength
  return { method, uri, httpVersion, headers, body }

/-- `parse_request`, with `parsed_length`. -/
def parseRequest (packet : Bytes) (skipLength : Nat := 0) :
    Except ReaderException (HttpRequest × Nat) :=
  match read (packet.drop skipLength) with
  | .ok (request, rest) =>
      .ok (request, (packet.drop skipLength).length - rest.length)
  | .error stop => .error stop

/-- The headers that stay with the proxy. -/
def withheld : List Bytes :=
  [ascii "Accept-Encoding", ascii "Proxy-Authorization",
    ascii "Proxy-Connection"]

/-- `forward_proxy_packet`. -/
def forwardProxyPacket (r : HttpRequest) (debug : Bool := false) : Bytes :=
  r.method ++ ascii " " ++ r.uri ++ ascii " " ++ r.httpVersion ++
    ascii "\r\n" ++
    (r.headers.flatMap fun (name, value) =>
      if !debug && withheld.contains name then []
      else name ++ ascii ": " ++ value ++ ascii "\r\n") ++
    ascii "\r\n" ++ r.body

end HttpRequest

namespace HttpResponse

open HttpGateway (ResponseHeaders)

/-- `end`. -/
def atEnd : StreamReader Bool := fun bytes => .ok (bytes.isEmpty, bytes)

/-- One round of the loop over the headers. -/
def parseHeader (known : ResponseHeaders) :
    StreamReader (ResponseHeaders ⊕ ResponseHeaders) := do
  let nextChar ← preadChar
  if nextChar = 13 then return .inr known
  else
    let headerName ← readUntil (ascii ":") true
    let _ ← readUp (ascii " ")
    let headerValue ← readUntil (ascii "\r")
    readCrlf
    if headerName = ascii "Transfer-Encoding" then
      failIf (headerValue != ascii "chunked")
      return .inl { known with isChunked := true }
    else
      return .inl {
        headers := known.headers ++ [(headerName, headerValue)]
        contentLength :=
          if headerName = ascii "Content-Length" then atoi headerValue
          else known.contentLength
        isChunked := known.isChunked }

/-- A header that is added behind those of the origin. -/
def withLength (headers : List (Bytes × Bytes)) (length : Nat) :
    List (Bytes × Bytes) :=
  headers ++ [(ascii "Content-Length", decimal length)]

/-- `parse_response` behind the headers: all headers, and the body. -/
def parseBody (known : ResponseHeaders) :
    StreamReader (Option (List (Bytes × Bytes) × Bytes)) :=
  if 0 < known.contentLength then do
    let body ← readSize known.contentLength.toNat
    return some (known.headers, body)
  else if known.isChunked then do
    let body ← Http.parseChunkedBody
    return body.map fun body => (withLength known.headers body.length, body)
  else if known.contentLength = 0 then return some (known.headers, [])
  else do
    let ended ← atEnd
    failIf (!(known.contentLength == -1 && ended))
    return some (withLength known.headers 0, [])

/-- `parse_response` up to the empty line. -/
def parseHead : StreamReader (Bytes × Int × Bytes × ResponseHeaders) := do
  let httpVersion ← readUntil (ascii " ")
  let _ ← readUp (ascii " ")
  let status ← readUntil (ascii " ")
  let _ ← readUp (ascii " ")
  let reasonPhrase ← readUntil (ascii "\r")
  readCrlf
  let known ← iterate .ag parseHeader {}
  readCrlf
  return (httpVersion, atoi status, reasonPhrase, known)

/-- `parse_response`.  It is undefined when the size of a chunk was never
read. -/
def parseResponse : StreamReader (Option HttpResponse) := do
  let (httpVersion, statusCode, reasonPhrase, known) ← parseHead
  let rest ← parseBody known
  return rest.map fun (headers, body) =>
    { httpVersion, statusCode, reasonPhrase, headers, body }

/-- What a caller makes of what `parse_response` does with a packet. -/
def outcome {α : Type} (packet : Bytes) (returns : HttpResponse → α)
    (undefined : α) (throws : ReaderException → α) : α :=
  match parseResponse packet with
  | .ok (some response, _) => returns response
  | .ok (none, _) => undefined
  | .error stop => throws stop

/-- What `parse_response` returns or throws, with what it does where that is
undefined. -/
def parsed (packet : Bytes)
    (undefined : Except ReaderException HttpResponse) :
    Except ReaderException HttpResponse :=
  outcome packet .ok undefined .error

/-- `to_string`. -/
def toBytes (response : HttpResponse) : Bytes :=
  response.httpVersion ++ ascii " " ++ decimal response.statusCode ++
    ascii " " ++ response.reasonPhrase ++ ascii "\r\n" ++
    (response.headers.flatMap fun (name, value) =>
      if name = ascii "Strict-Transport-Security" then []
      else name ++ ascii ": " ++ value ++ ascii "\r\n") ++
    ascii "\r\n" ++ response.body

theorem stable_parseHeader (known : ResponseHeaders) :
    Stable .ag (parseHeader known) := by
  refine stable_bind stable_preadChar fun nextChar => ?_
  refine stable_ite (stable_pure _) ?_
  refine stable_bind (stable_readUntil _ _) fun headerName => ?_
  refine stable_bind (stable_readUp _ _) fun _ => ?_
  refine stable_bind (stable_readUntil _ _) fun headerValue => ?_
  refine stable_bind stable_readCrlf fun _ => ?_
  refine stable_ite ?_ (stable_pure _)
  exact stable_bind (stable_failIf _) fun _ => stable_pure _

theorem stable_parseHead : Stable .ag parseHead := by
  refine stable_bind (stable_readUntil _ _) fun httpVersion => ?_
  refine stable_bind (stable_readUp _ _) fun _ => ?_
  refine stable_bind (stable_readUntil _ _) fun status => ?_
  refine stable_bind (stable_readUp _ _) fun _ => ?_
  refine stable_bind (stable_readUntil _ _) fun reasonPhrase => ?_
  refine stable_bind stable_readCrlf fun _ => ?_
  refine stable_bind (stable_iterate stable_parseHeader _) fun known => ?_
  exact stable_bind stable_readCrlf fun _ => stable_pure _

/-- Neither a length nor chunks. -/
def Unsized (known : ResponseHeaders) : Prop :=
  known.contentLength = -1 ∧ known.isChunked = false

/-- Without a size the response is complete only if nothing has come behind
the headers. -/
theorem parseBody_unsized {known : ResponseHeaders} (unsized : Unsized known)
    (input : Bytes) :
    parseBody known input =
      if input = [] then .ok (some (withLength known.headers 0, []), [])
      else .error .ng := by
  obtain ⟨length, chunked⟩ := unsized
  unfold parseBody
  rw [if_neg (by omega), chunked, if_neg Bool.false_ne_true, if_neg (by omega)]
  rw [bind_of_ok (rfl : atEnd input = .ok (input.isEmpty, input)), length]
  cases input with
  | nil => rfl
  | cons byte input => rfl

/-- A size is a matter of the headers alone. -/
theorem stable_parseBody {known : ResponseHeaders} (sized : ¬ Unsized known) :
    Stable .ag (parseBody known) := by
  refine stable_ite ?_ ?_
  · exact stable_bind (stable_readSize _) fun body => stable_pure _
  · by_cases chunked : known.isChunked = true
    · rw [if_pos chunked]
      exact stable_bind Http.stable_parseChunkedBody fun body => stable_pure _
    · rw [if_neg chunked]
      refine stable_ite (stable_pure _) ?_
      have negative : (known.contentLength == -1) = false := by
        refine beq_eq_false_iff_ne.mpr fun length => sized ⟨length, ?_⟩
        simpa using chunked
      have refused : (do
          let ended ← atEnd
          failIf (!(known.contentLength == -1 && ended))
          return some (withLength known.headers 0, []) :
            StreamReader (Option (List (Bytes × Bytes) × Bytes))) =
          throw .ng := by
        rw [negative]
        rfl
      rw [refused]
      exact stable_throw _

end HttpResponse

end Universe.HttpProxy
