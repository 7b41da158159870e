import Universe.Protocol
import Universe.Server
import Universe.Utils

/-!
# A protocol between peers

A client of `EasyP2P` chooses a nickname on its first line.  Every line after
it is a command, which asks for the nicknames or for the address of another
client, or sends the own address to another client.
-/

namespace Universe

open Std (ExtTreeMap)

inductive EasyP2PState where
  | nick
  | cmd
  deriving DecidableEq, Inhabited, Repr

/-- The members of `EasyP2P`. -/
structure Peers where
  stateful : Stateful EasyP2PState := ∅
  sockAddrs : ExtTreeMap Fd Address := ∅
  s2n : ExtTreeMap Fd Bytes := ∅
  n2s : ExtTreeMap Bytes Fd := ∅

namespace Peers

def setAddr (sock : Fd) (addr : Address) (peers : Peers) : Peers :=
  { peers with sockAddrs := peers.sockAddrs.insert sock addr }

def setNick (sock : Fd) (nick : Bytes) (peers : Peers) : Peers :=
  { peers with
    n2s := peers.n2s.insert nick sock
    s2n := peers.s2n.insert sock nick }

/-- What `on_close` leaves.  The nickname of a client that has none is the
empty one. -/
def without (sock : Fd) (peers : Peers) : Peers :=
  { peers with
    sockAddrs := peers.sockAddrs.erase sock
    s2n := peers.s2n.erase sock
    n2s := peers.n2s.erase ((peers.s2n[sock]?).getD []) }

end Peers

/-- What the system knows of addresses: that of a new client, and the names of
`getnameinfo`. -/
structure Names where
  peer : Option Address
  nameInfo : Address → Option Bytes

namespace EasyP2P

open StreamReader

/-- `\w`. -/
def isWord (byte : UInt8) : Bool :=
  (48 ≤ byte && byte ≤ 57) || (65 ≤ byte && byte ≤ 90) || byte == 95 ||
    (97 ≤ byte && byte ≤ 122)

/-- `\s`. -/
def isSpace (byte : UInt8) : Bool := (9 ≤ byte && byte ≤ 13) || byte == 32

/-- The word of `^(\w+)\s+`. -/
def matchNick (result : Bytes) : Option Bytes :=
  let word := result.takeWhile isWord
  let spaces := (result.drop word.length).takeWhile isSpace
  if word.isEmpty || spaces.isEmpty then none else some word

/-- The second word of `^\w+\s+(\w+)`. -/
def matchTarget (result : Bytes) : Option Bytes :=
  let word := result.takeWhile isWord
  let rest := result.drop word.length
  let spaces := rest.takeWhile isSpace
  let target := (rest.drop spaces.length).takeWhile isWord
  if word.isEmpty || spaces.isEmpty || target.isEmpty then none
  else some target

/-- `Protocol::read_until` with the end of a line, which the line keeps. -/
def readLine : StreamReader (Option Bytes) := fun message =>
  match Utils.splitAt (ascii "\n") message with
  | some (line, rest) => .ok (some (line ++ ascii "\n"), rest)
  | none => .error .ag

variable {m : Type → Type} [Monad m] (host : ServerHost Peers m)

def states : StateHost EasyP2PState m :=
  host.stateHost (·.stateful) fun peers stateful => { peers with stateful }

/-- `write_line`. -/
def writeLine (fd : Fd) (message : Bytes) : m Unit := do
  let _ ← host.write fd (message ++ ascii "\n")
  return ()

/-- The rest of the loop of `on_list`.  A nickname may be gone before the loop
comes to it; when it is gone right after it was written, the iterator is
invalid. -/
def list (sock : Fd) : (nicks : List Bytes) → m Unit
  | [] => return ()
  | nick :: nicks => do
      let present ← host.own fun peers => (peers.n2s.contains nick, peers)
      if present then
        writeLine host sock nick
        let stays ← host.own fun peers => (peers.n2s.contains nick, peers)
        if stays then list sock nicks else host.exit
      else list sock nicks

/-- `on_list`. -/
def onList (sock : Fd) : m Unit := do
  let nicks ← host.own fun peers => (peers.n2s.keys, peers)
  list host sock nicks

/-- `_get_name_info`.  An address that is not known has no name. -/
def getNameInfo (names : Names) (fd : Fd) : m Bytes := do
  let addr ← host.own fun peers => (peers.sockAddrs[fd]?, peers)
  match addr.bind names.nameInfo with
  | none => host.exit
  | some name => return name

/-- `on_info`. -/
def onInfo (names : Names) (sock : Fd) (target : Bytes) : m Unit := do
  let found ← host.own fun peers => (peers.n2s[target]?, peers)
  match found with
  | none => writeLine host sock (target ++ ascii " not exists!")
  | some targetSock => do
      let nameInfo ← getNameInfo host names targetSock
      writeLine host sock nameInfo

/-- `on_connect_target`. -/
def onConnectTarget (names : Names) (sock : Fd) (target : Bytes) : m Unit := do
  let found ← host.own fun peers => (peers.n2s[target]?, peers)
  match found with
  | none => writeLine host sock (target ++ ascii " not exists!")
  | some targetSock => do
      let nameInfo ← getNameInfo host names sock
      writeLine host targetSock (ascii "/connect " ++ nameInfo)
      writeLine host sock (ascii "ok")

/-- A command with a target, and whether more of them are read.  A client that
gives none is closed. -/
def targeted (sock : Fd) (result : Bytes) (act : Bytes → m Unit) : m Bool :=
  match matchTarget result with
  | none => do
      let _ ← host.close sock
      return false
  | some target => do
      act target
      return true

/-- What is done about a command. -/
def command (names : Names) (sock : Fd) (result : Bytes) : m Bool :=
  if (ascii "list").isPrefixOf result then do
    onList host sock
    return true
  else if (ascii "info ").isPrefixOf result then
    targeted host sock result (onInfo host names sock)
  else if (ascii "connect ").isPrefixOf result then
    targeted host sock result (onConnectTarget host names sock)
  else return true

/-- The branch `NICK` of `on_message`.  What follows the line is dropped. -/
def chooseNick (sock : Fd) (message : Bytes) : m Unit :=
  match Utils.splitAt (ascii "\n") message with
  | none => do
      let _ ← host.needBuf sock message true
      return ()
  | some (line, _) =>
      match matchNick (line ++ ascii "\n") with
      | none => writeLine host sock (ascii "Invalid nickname!")
      | some nick => do
          let taken ← host.own fun peers => (peers.n2s.contains nick, peers)
          if taken then writeLine host sock (ascii "ALready exist!")
          else
            host.modifyOwn (Peers.setNick sock nick)
            writeLine host sock (ascii "Nickname OK!")
            writeLine host sock (ascii "You can type cmd now!")
            (states host).setState sock .cmd

/-- `on_connect`. -/
def onConnect (names : Names) (sock : Fd) : m Unit := do
  match names.peer with
  | none => do
      let _ ← host.close sock
      return ()
  | some addr => do
      host.modifyOwn (Peers.setAddr sock addr)
      writeLine host sock (ascii "Please type your nick name")
      (states host).setState sock .nick

/-- `on_message`. -/
def onMessage (names : Names) (sock : Fd) (message : Bytes) : m Unit := do
  let message ← host.appendBuf sock message
  match ← (states host).getState sock with
  | .nick => chooseNick host sock message
  | .cmd =>
      Protocol.readItems host.toHost readLine (command host names sock) sock
        (message.length + 1) message

/-- `on_close`. -/
def onClose (sock : Fd) : m Unit := host.modifyOwn (Peers.without sock)

/-- `EasyP2P` as a protocol of a server. -/
def service : Server.Service Peers Names where
  start := {}
  onConnect names host sock := onConnect host names sock
  onMessage names host sock message := onMessage host names sock message
  onClose host sock := onClose host sock

end EasyP2P

end Universe
