import Universe.Http

/-!
# Responses of the origin

`parse_response` of the gateway reads what `to_string` prints, and bodies that
come in chunks.
-/

namespace Universe

open Incremental StreamReader

namespace Utils

def hexDigit (byte : UInt8) : Option Nat :=
  if 48 ≤ byte && byte ≤ 57 then some (byte.toNat - 48)
  else if 65 ≤ byte && byte ≤ 70 then some (byte.toNat - 55)
  else if 97 ≤ byte && byte ≤ 102 then some (byte.toNat - 87)
  else none

/-- `hex2long`: what `>>` reads into an `unsigned long`.  When there is
nothing to read but spaces, the number stays uninitialised. -/
def hex2long (hex : Bytes) : Option Nat :=
  let signed := hex.dropWhile isSpace
  if signed.isEmpty then none
  else
    let negative := signed.head? == some 45
    let unsigned :=
      if negative || signed.head? == some 43 then signed.tail else signed
    let digits :=
      if (ascii "0x").isPrefixOf unsigned || (ascii "0X").isPrefixOf unsigned
      then unsigned.drop 2
      else unsigned
    let magnitude := (digits.takeWhile fun byte => (hexDigit byte).isSome).foldl
      (fun value byte => 16 * value + (hexDigit byte).getD 0) 0
    if 2 ^ 64 ≤ magnitude then some (2 ^ 64 - 1)
    else if negative then some ((2 ^ 64 - magnitude) % 2 ^ 64)
    else some magnitude

end Utils

namespace Http

/-- One round of `parse_chunked_body`, with the body so far.  A size that was
never read is undefined. -/
def parseChunk (body : Bytes) : StreamReader (Bytes ⊕ Option Bytes) := do
  let lengthString ← readUntil (ascii "\r")
  match Utils.hex2long lengthString with
  | none => return .inr none
  | some length =>
      readCrlf
      let chunk ← (if 0 < length then readSize length else pure [])
      readCrlf
      if length = 0 then return .inr (some body) else return .inl (body ++ chunk)

/-- `parse_chunked_body`. -/
def parseChunkedBody : StreamReader (Option Bytes) := iterate .ag parseChunk []

theorem stable_parseChunk (body : Bytes) : Stable .ag (parseChunk body) := by
  refine stable_bind (stable_readUntil _ _) fun lengthString => ?_
  cases Utils.hex2long lengthString with
  | none => exact stable_pure _
  | some length =>
      refine stable_bind stable_readCrlf fun _ => ?_
      refine stable_bind (stable_ite (stable_readSize _) (stable_pure _)) ?_
      intro chunk
      refine stable_bind stable_readCrlf fun _ => ?_
      exact stable_ite (stable_pure _) (stable_pure _)

theorem stable_parseChunkedBody : Stable .ag parseChunkedBody :=
  stable_iterate stable_parseChunk []

end Http

namespace HttpGateway

/-- The headers of a response so far. -/
structure ResponseHeaders where
  headers : List (Bytes × Bytes) := []
  contentLength : Int := -1
  isChunked : Bool := false
  deriving DecidableEq, Repr

/-- One round of the loop over the headers. -/
def parseResponseHeader (known : ResponseHeaders) :
    StreamReader (ResponseHeaders ⊕ ResponseHeaders) := do
  let nextChar ← preadChar
  if nextChar = 13 then return .inr known
  else
    let headerName ← readUntil (ascii ":") true
    let nextChar ← readChar
    failIf (nextChar != 32)
    let headerValue ← readUntil (ascii "\r")
    readCrlf
    if headerName = ascii "Transfer-Encoding" then
      failIf (headerValue != ascii "chunked")
      return .inl { known with isChunked := true }
    else
      return .inl {
        headers := known.headers ++ [(headerName, headerValue)]
        contentLength :=
          if headerName = ascii "Content-Length" then atoi headerValue
          else known.contentLength
        isChunked := known.isChunked }

/-- The body: of an announced length, or in chunks, one of the two. -/
def parseResponseBody (known : ResponseHeaders) : StreamReader (Option Bytes) :=
  if 0 < known.contentLength then do
    let body ← readSize known.contentLength.toNat
    return some body
  else if known.isChunked then Http.parseChunkedBody
  else do
    failIf true
    return some []

/-- `parse_response`. -/
def parseResponse : StreamReader (Option HttpResponse) := do
  let httpVersion ← readUntil (ascii " ")
  let _ ← readUp (ascii " ")
  let status ← readUntil (ascii " ")
  let _ ← readUp (ascii " ")
  let reasonPhrase ← readUntil (ascii "\r")
  readCrlf
  let known ← iterate .ag parseResponseHeader {}
  readCrlf
  let body ← parseResponseBody known
  return body.map fun body =>
    { statusCode := atoi status
      reasonPhrase
      headers := known.headers
      body
      httpVersion }

theorem stable_parseResponseHeader (known : ResponseHeaders) :
    Stable .ag (parseResponseHeader known) := by
  refine stable_bind stable_preadChar fun nextChar => ?_
  refine stable_ite (stable_pure _) ?_
  refine stable_bind (stable_readUntil _ _) fun headerName => ?_
  refine stable_bind stable_readChar fun nextChar => ?_
  refine stable_bind (stable_failIf _) fun _ => ?_
  refine stable_bind (stable_readUntil _ _) fun headerValue => ?_
  refine stable_bind stable_readCrlf fun _ => ?_
  refine stable_ite ?_ (stable_pure _)
  exact stable_bind (stable_failIf _) fun _ => stable_pure _

theorem stable_parseResponseBody (known : ResponseHeaders) :
    Stable .ag (parseResponseBody known) := by
  refine stable_ite ?_ (stable_ite Http.stable_parseChunkedBody ?_)
  · exact stable_bind (stable_readSize _) fun body => stable_pure _
  · exact stable_bind (stable_failIf _) fun _ => stable_pure _

/-- More input changes neither a response nor a refusal. -/
theorem stable_parseResponse : Stable .ag parseResponse := by
  refine stable_bind (stable_readUntil _ _) fun httpVersion => ?_
  refine stable_bind (stable_readUp _ _) fun _ => ?_
  refine stable_bind (stable_readUntil _ _) fun status => ?_
  refine stable_bind (stable_readUp _ _) fun _ => ?_
  refine stable_bind (stable_readUntil _ _) fun reasonPhrase => ?_
  refine stable_bind stable_readCrlf fun _ => ?_
  refine stable_bind (stable_iterate stable_parseResponseHeader _) ?_
  intro known
  refine stable_bind stable_readCrlf fun _ => ?_
  exact stable_bind (stable_parseResponseBody _) fun body => stable_pure _

theorem takes_responseLine (known : ResponseHeaders) :
    Takes 1 (do
      let headerName ← readUntil (ascii ":") true
      let nextChar ← readChar
      failIf (nextChar != 32)
      let headerValue ← readUntil (ascii "\r")
      readCrlf
      if headerName = ascii "Transfer-Encoding" then
        failIf (headerValue != ascii "chunked")
        return .inl { known with isChunked := true }
      else
        return .inl {
          headers := known.headers ++ [(headerName, headerValue)]
          contentLength :=
            if headerName = ascii "Content-Length" then atoi headerValue
            else known.contentLength
          isChunked := known.isChunked } :
      StreamReader (ResponseHeaders ⊕ ResponseHeaders)) := by
  refine takes_later (takes_readUntil _ _) fun headerName => ?_
  refine takes_now takes_readChar fun nextChar => ?_
  refine takes_later (takes_failIf _) fun _ => ?_
  refine takes_later (takes_readUntil _ _) fun headerValue => ?_
  refine takes_later (takes_readCrlf.weaken (Nat.zero_le _)) fun _ => ?_
  split
  · exact takes_later (takes_failIf _) fun _ => takes_pure _
  · exact takes_pure _

/-- Every header takes something off the message. -/
theorem parseResponseHeader_advances {known next : ResponseHeaders}
    {input rest : Bytes}
    (parsed : parseResponseHeader known input = .ok (.inl next, rest)) :
    rest.length < input.length := by
  unfold parseResponseHeader at parsed
  cases input with
  | nil => cases parsed
  | cons byte input =>
      rw [bind_of_ok (rfl : preadChar (byte :: input) = .ok _)] at parsed
      split at parsed
      · cases parsed
      · exact takes_responseLine known _ _ _ parsed

/-- The loop over the headers goes on to the empty line. -/
theorem parseResponseHeaders_eq (known : ResponseHeaders) :
    iterate .ag parseResponseHeader known =
      parseResponseHeader known >>= Sum.elim
        (iterate .ag parseResponseHeader) pure := by
  refine iterate_eq ?_ known
  intro known input next rest parsed
  exact parseResponseHeader_advances parsed

end HttpGateway

end Universe
