import Universe.Kernel

/-!
# TLS connections

The state an `SSLConnection` keeps beside the OpenSSL handle.  OpenSSL itself
answers through `Answers`: whether a handshake completed, what `SSL_write`
returned, what `SSL_read` found.
-/

namespace Universe

structure SSLConnection where
  handshakeDone : Bool := false
  buf : Bytes := []
  deriving DecidableEq, Repr

namespace SSLConnection

/-- The loop of `SSLConnection::write` after the handshake: it offers the
whole buffer again on every round and stops once the counts add up. -/
def writeLoop (num size : Int) : List Int → Int × List Int
  | [] => (-1, [])
  | len :: results =>
      if 0 < len then
        if size + len < num then writeLoop num (size + len) results
        else (size + len, results)
      else (-1, results)

/-- `SSLConnection::write`: bytes are held back until the handshake is done. -/
def write (connection : SSLConnection) (data : Bytes) (answers : Answers) :
    Int × SSLConnection × Answers :=
  if connection.handshakeDone then
    let (size, results) := writeLoop data.length 0 answers.sslWrites
    (size, connection, { answers with sslWrites := results })
  else
    (data.length, { connection with buf := connection.buf ++ data }, answers)

/-- `SSLConnection::handshake`. -/
def handshake (connection : SSLConnection) (answers : Answers) :
    Bool × SSLConnection × Answers :=
  if connection.handshakeDone then (true, connection, answers)
  else
    match answers.sslHandshakes with
    | true :: results =>
        let answers := { answers with sslHandshakes := results }
        let connection := { connection with handshakeDone := true }
        if connection.buf.length = 0 then (true, connection, answers)
        else
          let (_, connection, answers) :=
            connection.write connection.buf answers
          (true, connection, answers)
    | false :: results =>
        (false, connection, { answers with sslHandshakes := results })
    | [] => (false, connection, answers)

/-- The loop of `SSLConnection::read`.  An error other than "want read" goes
on to append a negative count, which throws. -/
def readLoop (message : Bytes) : List ReadResult → Option Bytes × List ReadResult
  | [] => (some message, [])
  | .again :: results => (some message, results)
  | .eof :: results => (some message, results)
  | .error :: results => (none, results)
  | .data bytes :: results => readLoop (message ++ bytes) results

/-- `SSLConnection::read`. -/
def read (answers : Answers) : Option Bytes × Answers :=
  let (message, results) := readLoop [] answers.sslReads
  (message, { answers with sslReads := results })

end SSLConnection

end Universe
