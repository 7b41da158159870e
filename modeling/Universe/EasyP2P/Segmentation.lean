import Universe.EasyP2P
import Universe.Library.Terminated
import Universe.Protocol.Session

/-!
# Lines of a peer in pieces

What a client sends is lines, and it may arrive in any pieces.  All lines of a
delivery are commands once the client has its nickname.  Before that the first
line of a delivery chooses one, and what follows it is dropped.
-/

namespace Universe

open Stepwise Protocol Protocol.Connection

namespace EasyP2P

/-- What can be seen of a client. -/
inductive Effect where
  | wrote (fd : Fd) (data : Bytes)
  | closed (fd : Fd)
  deriving DecidableEq, Repr

abbrev Session := Connection Effect Peers

def sessionHost (client : Fd) : ServerHost Peers (M Effect Peers) :=
  serverHost { wrote := .wrote, closed := .closed, forget := .without client }
    client

/-- The end of a line. -/
def newline : UInt8 := 10

/-- The lines of a text, each with its end, and the part of a line behind
them. -/
def lines (text : Bytes) : List Bytes := Terminated.separate newline text

/-- A line that asks for something. -/
def isCommand (line : Bytes) : Bool :=
  (ascii "list").isPrefixOf line || (ascii "info ").isPrefixOf line ||
    (ascii "connect ").isPrefixOf line

section Deliveries

variable (names : Names) (client : Fd)

/-- One delivery to a client that is open. -/
def deliver (s : Session) (piece : Bytes) : Session :=
  Connection.deliver (onMessage (sessionHost client) names client) s piece

/-- The same was seen of two sessions, and they go on in the same way. -/
structure Same (s other : Session) : Prop where
  trace : s.trace = other.trace
  status : s.status = other.status
  own : s.own = other.own
  remainder : s.remainder client = other.remainder client

/-- The delivery gives no line that is dropped and would have been answered: the
line that chooses a nickname is the last one, or it chooses one and only whole
lines follow that ask for nothing. -/
def Spares (s : Session) (piece : Bytes) : Prop :=
  s.status = .opened → s.own.stateful.getState client = .nick →
  ∀ line rest,
    Utils.splitAt (ascii "\n") (s.remainder client ++ piece) =
      some (line, rest) →
    rest = [] ∨ ∃ nick, matchNick (line ++ ascii "\n") = some nick ∧
      s.own.n2s.contains nick = false ∧
      ∀ later ∈ lines rest,
        later.getLast? = some newline ∧ isCommand later = false

/-- What becomes of one line. -/
def answer (s : Session) (line : Bytes) : Session :=
  settled ((match s.own.stateful.getState client with
    | .nick => chooseNick (sessionHost client) client line
    | .cmd => do
        let _ ← command (sessionHost client) names client line
        return () : M Effect Peers Unit) s)

/-- A session without the bytes that wait, and these. -/
def parted (s : Session) : Session × Bytes :=
  (s.keeping (s.bufferable.erase client), s.remainder client)

/-- What becomes of a byte, as if every line came by itself. -/
def receive : Session × Bytes → UInt8 → Session × Bytes :=
  Terminated.feed newline (fun s => s.status = .opened) (answer names client)

end Deliveries

theorem erase_fresh {bufferable : Bufferable} {client : Fd}
    (fresh : bufferable[client]? = none) :
    bufferable.erase client = bufferable := by
  ext1 fd
  by_cases same : client = fd
  · subst same
    simp [fresh]
  · simp [Std.ExtTreeMap.getElem?_erase, same]

theorem ascii_newline : ascii "\n" = [newline] := by decide

theorem splitAt_line {body : Bytes} (absent : newline ∉ body) (rest : Bytes) :
    Utils.splitAt (ascii "\n") (body ++ newline :: rest) =
      some (body, rest) := by
  rw [ascii_newline]
  induction body with
  | nil => rfl
  | cons byte body induction =>
      obtain ⟨different, absent⟩ :=
        List.ne_and_not_mem_of_not_mem_cons absent
      have skipped : ([newline] : Bytes).isPrefixOf
          (byte :: (body ++ newline :: rest)) = false := by
        exact Bool.eq_false_iff.mpr (by simpa [List.isPrefixOf] using different)
      rw [List.cons_append, Utils.splitAt, skipped, if_neg (by decide),
        induction absent]
      rfl

theorem splitAt_part {part : Bytes} (absent : newline ∉ part) :
    Utils.splitAt (ascii "\n") part = none := by
  rw [ascii_newline]
  induction part with
  | nil => rfl
  | cons byte part induction =>
      obtain ⟨different, absent⟩ :=
        List.ne_and_not_mem_of_not_mem_cons absent
      have skipped : ([newline] : Bytes).isPrefixOf (byte :: part) = false := by
        exact Bool.eq_false_iff.mpr (by simpa [List.isPrefixOf] using different)
      rw [Utils.splitAt, skipped, if_neg (by decide), induction absent]
      rfl

section Received

variable {names : Names} {client : Fd} {s : Session}

/-- Nothing waits. -/
theorem parted_fresh (fresh : s.bufferable[client]? = none) :
    parted client s = (s, []) := by
  simp [parted, remainder, keeping, erase_fresh fresh, fresh]

theorem parted_kept (fresh : s.bufferable[client]? = none) (part : Bytes) :
    parted client (s.keeping (s.bufferable.insert client part)) =
      (s, part) := by
  have erased : (s.bufferable.insert client part).erase client =
      s.bufferable := by
    ext1 fd
    by_cases same : client = fd
    · subst same
      simp [fresh]
    · simp [Std.ExtTreeMap.getElem?_erase, Std.ExtTreeMap.getElem?_insert, same]
  simp [parted, remainder, keeping, erased]

theorem receive_stopped (stopped : s.status ≠ .opened) (part text : Bytes) :
    text.foldl (receive names client) (s, part) = (s, part) := by
  apply Terminated.feed_stopped
  exact stopped

theorem receive_part (isOpen : s.status = .opened) (part : Bytes)
    {text : Bytes} (absent : newline ∉ text) :
    text.foldl (receive names client) (s, part) = (s, part ++ text) := by
  apply Terminated.feed_part _ part absent
  exact isOpen

theorem receive_line (isOpen : s.status = .opened) (part : Bytes)
    {body : Bytes} (absent : newline ∉ body) (rest : Bytes) :
    (body ++ newline :: rest).foldl (receive names client) (s, part) =
      rest.foldl (receive names client)
        (answer names client s (part ++ body ++ [newline]), []) := by
  apply Terminated.feed_line _ part absent rest
  exact isOpen

end Received

section Commands

variable {names : Names} {client : Fd} {s after : Session}

theorem own_bind {α β : Type} (change : Peers → α × Peers)
    (rest : α → M Effect Peers β) (s : Session) :
    ((sessionHost client).own change >>= rest) s =
      rest (change s.own).1 { s with own := (change s.own).2 } := rfl

theorem writeLine_eq (fd : Fd) (message : Bytes) (s : Session) :
    writeLine (sessionHost client) fd message s =
      .ok () (s.record (.wrote fd (message ++ ascii "\n"))) := rfl

/-- `on_list`, while no nickname goes. -/
theorem list_eq {nicks : List Bytes}
    (present : ∀ nick ∈ nicks, s.own.n2s.contains nick = true) :
    list (sessionHost client) client nicks s =
      .ok () { s with
        trace := s.trace ++ nicks.map fun nick =>
          .wrote client (nick ++ ascii "\n") } := by
  induction nicks generalizing s with
  | nil => simp [list]; rfl
  | cons nick nicks induction =>
      obtain ⟨first, others⟩ := List.forall_mem_cons.mp present
      have asked : ∀ now : Session, now.own = s.own →
          (sessionHost client).own
            (fun peers => (peers.n2s.contains nick, peers)) now =
              .ok true now := by
        intro now same
        change EStateM.Result.ok (now.own.n2s.contains nick) now = _
        rw [same, first]
      let written := s.record (Effect.wrote client (nick ++ ascii "\n"))
      have later := induction (s := written) others
      have stays : (do
          let stays ← (sessionHost client).own fun peers =>
            (peers.n2s.contains nick, peers)
          if stays then list (sessionHost client) client nicks
          else (sessionHost client).exit : M Effect Peers Unit) written = _ :=
        (bind_of_ok (asked written rfl)).trans later
      unfold list
      refine (bind_of_ok (asked s rfl)).trans ?_
      refine (bind_of_ok (writeLine_eq client nick s)).trans ?_
      refine stays.trans ?_
      simp [written, record]

/-- More was seen, and nothing else has changed. -/
def shown (more : List Effect) (s : Session) : Session :=
  { s with trace := s.trace ++ more }

/-- The client was closed. -/
def closed (client : Fd) (s : Session) : Session :=
  { s.record (.closed client) with
    status := .closed
    own := s.own.without client
    bufferable := s.bufferable.eraseBuf client }

/-- Nothing but replies is added, at least one when it is due; or the process
ends, before a reply. -/
def Replies (due : Prop) (computation : M Effect Peers Unit) (s : Session) :
    Prop :=
  (∃ more, (due → more ≠ []) ∧ computation s = .ok () (shown more s)) ∨
    computation s = .error () s

theorem writeLine_replies (fd : Fd) (message : Bytes) (s : Session) :
    Replies True (writeLine (sessionHost client) fd message) s :=
  .inl ⟨[_], fun _ => List.cons_ne_nil _ _, rfl⟩

theorem onList_replies (s : Session) :
    Replies (s.own.n2s.keys ≠ []) (onList (sessionHost client) client) s := by
  have present : ∀ nick ∈ s.own.n2s.keys, s.own.n2s.contains nick = true := by
    intro nick member
    simpa using member
  exact .inl ⟨_, fun some => by simpa using some, list_eq present⟩

theorem getNameInfo_eq (fd : Fd) (s : Session) :
    (∃ name, getNameInfo (sessionHost client) names fd s = .ok name s) ∨
      getNameInfo (sessionHost client) names fd s = .error () s := by
  have asked : getNameInfo (sessionHost client) names fd s = _ :=
    own_bind _ _ s
  rw [asked]
  dsimp only
  cases (s.own.sockAddrs[fd]?).bind names.nameInfo with
  | none => exact .inr rfl
  | some name => exact .inl ⟨name, rfl⟩

theorem onInfo_replies (target : Bytes) (s : Session) :
    Replies True (onInfo (sessionHost client) names client target) s := by
  have found : onInfo (sessionHost client) names client target s = _ :=
    own_bind _ _ s
  unfold Replies
  rw [found]
  dsimp only
  cases s.own.n2s[target]? with
  | none => exact writeLine_replies client _ s
  | some targetSock =>
      rcases getNameInfo_eq targetSock s with ⟨name, known⟩ | unknown
      · exact .inl ⟨[_], fun _ => List.cons_ne_nil _ _, bind_of_ok known⟩
      · exact .inr (bind_of_error unknown)

theorem onConnectTarget_replies (target : Bytes) (s : Session) :
    Replies True (onConnectTarget (sessionHost client) names client target)
      s := by
  have found : onConnectTarget (sessionHost client) names client target s = _ :=
    own_bind _ _ s
  unfold Replies
  rw [found]
  dsimp only
  cases s.own.n2s[target]? with
  | none => exact writeLine_replies client _ s
  | some targetSock =>
      rcases getNameInfo_eq client s with ⟨name, known⟩ | unknown
      · refine .inl ⟨[
          .wrote targetSock (ascii "/connect " ++ name ++ ascii "\n"),
          .wrote client (ascii "ok" ++ ascii "\n")], by simp, ?_⟩
        refine (bind_of_ok known).trans ?_
        simp [shown, writeLine_eq, bind_of_ok (writeLine_eq _ _ _), record]
      · exact .inr (bind_of_error unknown)

/-- A line that asks for nothing is passed over. -/
theorem command_idle {line : Bytes} (idle : isCommand line = false)
    (s : Session) :
    command (sessionHost client) names client line s = .ok true s := by
  unfold isCommand at idle
  simp only [Bool.or_eq_false_iff] at idle
  unfold command
  rw [idle.1.1, idle.1.2, idle.2]
  rfl

/-- What a command comes to: replies, the end of the client, or the end of the
process. -/
inductive Outcome (due : Prop) (client : Fd) (s : Session) :
    EStateM.Result Unit Session Bool → Prop where
  | replied {more : List Effect} (some : due → more ≠ []) :
      Outcome due client s (.ok true (shown more s))
  | left : Outcome due client s (.ok false (closed client s))
  | exited : Outcome due client s (.error () s)

theorem Outcome.of_replies {due other : Prop}
    {computation : M Effect Peers Unit} (replies : Replies due computation s)
    (implies : other → due) :
    Outcome other client s ((do
      computation
      return true : M Effect Peers Bool) s) := by
  rcases replies with ⟨more, some, returned⟩ | exited
  · rw [bind_of_ok returned]
    exact .replied fun isDue => some (implies isDue)
  · rw [bind_of_error exited]
    exact .exited

theorem command_outcome (line : Bytes) (s : Session) :
    Outcome (isCommand line = true ∧ s.own.n2s.keys ≠ []) client s
      (command (sessionHost client) names client line s) := by
  have targets : ∀ {act : Bytes → M Effect Peers Unit},
      (∀ target, Replies True (act target) s) →
      Outcome (isCommand line = true ∧ s.own.n2s.keys ≠ []) client s
        (targeted (sessionHost client) client line act s) := by
    intro act acts
    unfold targeted
    cases matchTarget line with
    | none =>
        have leaves : (sessionHost client).close client s =
            .ok true (closed client s) := by
          simp only [sessionHost, serverHost, host, modifyGet_eq, if_pos]
          rfl
        have left : (do
            let _ ← (sessionHost client).close client
            return false : M Effect Peers Bool) s =
              .ok false (closed client s) := bind_of_ok leaves
        change Outcome _ client s ((do
          let _ ← (sessionHost client).close client
          return false : M Effect Peers Bool) s)
        rw [left]
        exact .left
    | some target => exact .of_replies (acts target) fun _ => trivial
  unfold command
  split
  · exact .of_replies (onList_replies s) And.right
  · split
    · exact targets fun target => onInfo_replies target s
    · split
      · exact targets fun target => onConnectTarget_replies target s
      · next notList notInfo notConnect =>
          have same : shown [] s = s := by simp [shown]
          have passed : Outcome (isCommand line = true ∧ s.own.n2s.keys ≠ [])
              client s (.ok true (shown [] s)) := by
            apply Outcome.replied
            intro due
            simp [isCommand, notList, notInfo, notConnect] at due
          rw [same] at passed
          exact passed

/-- What a line comes to once there is a nickname. -/
theorem answer_command (isCmd : s.own.stateful.getState client = .cmd)
    (line : Bytes) :
    answer names client s line = settled ((do
      let _ ← command (sessionHost client) names client line
      return () : M Effect Peers Unit) s) := by
  unfold answer
  rw [isCmd]

theorem answer_cmd (isCmd : s.own.stateful.getState client = .cmd)
    (line : Bytes) :
    (∃ more, (isCommand line = true ∧ s.own.n2s.keys ≠ [] → more ≠ []) ∧
      answer names client s line = shown more s) ∨
    (answer names client s line).status ≠ .opened := by
  rw [answer_command isCmd]
  have outcome : Outcome (isCommand line = true ∧ s.own.n2s.keys ≠ []) client s
      (command (sessionHost client) names client line s) :=
    command_outcome line s
  generalize result : command (sessionHost client) names client line s = r
    at outcome
  cases outcome with
  | @replied more some =>
      rw [bind_of_ok result]
      exact .inl ⟨more, some, rfl⟩
  | left =>
      rw [bind_of_ok result]
      refine .inr fun isOpen => ?_
      cases isOpen
  | exited =>
      rw [bind_of_error result]
      refine .inr fun isOpen => ?_
      cases isOpen

/-- The loop of commands gets on like lines that come by themselves. -/
theorem readCommands_eq (isCmd : s.own.stateful.getState client = .cmd)
    (isOpen : s.status = .opened) (fresh : s.bufferable[client]? = none)
    {fuel : Nat} {message : Bytes} (enough : message.length < fuel) :
    let after := settled (readItems (sessionHost client).toHost readLine
      (command (sessionHost client) names client) client fuel message s)
    message.foldl (receive names client) (s, []) = parted client after := by
  induction message using Terminated.lines_induction newline
    generalizing s fuel with
  | part part absent =>
      obtain ⟨fuel, rfl⟩ : ∃ more, fuel = more + 1 := ⟨fuel - 1, by omega⟩
      have parsed : readLine part = .error .ag := by
        unfold readLine
        rw [splitAt_part absent]
      intro after
      have kept : after = s.keeping (s.bufferable.insert client part) := by
        unfold after readItems
        rw [parsed]
        rfl
      rw [kept, parted_kept fresh]
      exact receive_part isOpen [] absent
  | line body rest absent induction =>
      obtain ⟨fuel, rfl⟩ : ∃ more, fuel = more + 1 := ⟨fuel - 1, by omega⟩
      have parsed : readLine (body ++ newline :: rest) =
          .ok (some (body ++ ascii "\n"), rest) := by
        unfold readLine
        rw [splitAt_line absent]
      let loop : Bool → M Effect Peers Unit := fun goesOn =>
        if goesOn && !rest.isEmpty then
          readItems (sessionHost client).toHost readLine
            (command (sessionHost client) names client) client fuel rest
        else return ()
      have looped : readItems (sessionHost client).toHost readLine
          (command (sessionHost client) names client) client (fuel + 1)
          (body ++ newline :: rest) s =
            (command (sessionHost client) names client (body ++ ascii "\n") >>=
              loop) s := by
        unfold readItems
        rw [parsed]
      have outcome : Outcome (isCommand (body ++ ascii "\n") = true ∧
          s.own.n2s.keys ≠ []) client s
          (command (sessionHost client) names client (body ++ ascii "\n") s) :=
        command_outcome (body ++ ascii "\n") s
      intro after
      refine (receive_line isOpen [] absent rest).trans ?_
      rw [List.nil_append, ← ascii_newline, answer_command isCmd]
      unfold after
      rw [looped]
      generalize result : command (sessionHost client) names client
        (body ++ ascii "\n") s = r at outcome
      cases outcome with
      | @replied more some =>
          rw [bind_of_ok result, bind_of_ok result]
          by_cases nothing : rest = []
          · subst nothing
            exact (parted_fresh (s := shown more s) fresh).symm
          · have further : loop true = readItems (sessionHost client).toHost
                readLine (command (sessionHost client) names client) client fuel
                rest := if_pos (by simpa using nothing)
            rw [further]
            have less : rest.length < fuel := by
              rw [List.length_append, List.length_cons] at enough
              omega
            exact induction (s := shown more s) isCmd isOpen fresh less
      | left =>
          rw [bind_of_ok result, bind_of_ok result]
          have stopped : (closed client s).status ≠ .opened := by
            simp [closed]
          refine (receive_stopped stopped [] rest).trans ?_
          refine (parted_fresh ?_).symm
          simp [closed]
      | exited =>
          rw [bind_of_error result, bind_of_error result]
          refine (receive_stopped (by simp [settled]) [] rest).trans ?_
          exact (parted_fresh (by exact fresh)).symm

/-- A line that asks for nothing changes nothing. -/
theorem answer_idle (isCmd : s.own.stateful.getState client = .cmd)
    {line : Bytes} (idle : isCommand line = false) :
    answer names client s line = s := by
  rw [answer_command isCmd, bind_of_ok (command_idle idle s)]
  rfl

/-- Whole lines that ask for nothing change nothing. -/
theorem receive_idle (isCmd : s.own.stateful.getState client = .cmd)
    (isOpen : s.status = .opened) {text : Bytes}
    (idle : ∀ line ∈ lines text,
      line.getLast? = some newline ∧ isCommand line = false) :
    text.foldl (receive names client) (s, []) = (s, []) := by
  induction text using Terminated.lines_induction newline with
  | part part absent =>
      unfold lines at idle
      rw [Terminated.separate_part absent] at idle
      split at idle
      · next empty => rw [empty, List.foldl_nil]
      · have ends := (idle part List.mem_cons_self).1
        exact absurd (List.mem_of_getLast? ends) absent
  | line body rest absent induction =>
      unfold lines at idle
      rw [Terminated.separate_line absent, List.forall_mem_cons] at idle
      refine (receive_line isOpen [] absent rest).trans ?_
      rw [List.nil_append, answer_idle isCmd idle.1.2]
      exact induction idle.2

end Commands

section Nicknames

variable {names : Names} {client : Fd} {s : Session}

/-- A nickname was chosen. -/
def named (client : Fd) (nick : Bytes) (s : Session) : Session :=
  { s with
    trace := s.trace ++ [.wrote client (ascii "Nickname OK!" ++ ascii "\n"),
      .wrote client (ascii "You can type cmd now!" ++ ascii "\n")]
    own := { s.own.setNick client nick with
      stateful := s.own.stateful.setState client .cmd } }

/-- What the branch `NICK` comes to. -/
def chose (client : Fd) (message : Bytes) (s : Session) : Session :=
  match Utils.splitAt (ascii "\n") message with
  | none => s.keeping (s.bufferable.insert client message)
  | some (line, _) =>
      match matchNick (line ++ ascii "\n") with
      | none =>
          shown [.wrote client (ascii "Invalid nickname!" ++ ascii "\n")] s
      | some nick =>
          if s.own.n2s.contains nick then
            shown [.wrote client (ascii "ALready exist!" ++ ascii "\n")] s
          else named client nick s

theorem chooseNick_eq (message : Bytes) (s : Session) :
    chooseNick (sessionHost client) client message s =
      .ok () (chose client message s) := by
  unfold chooseNick chose
  cases Utils.splitAt (ascii "\n") message with
  | none => rfl
  | some read =>
      obtain ⟨line, rest⟩ := read
      dsimp only
      cases matchNick (line ++ ascii "\n") with
      | none => rfl
      | some nick =>
          have asked : (sessionHost client).own
              (fun peers => (peers.n2s.contains nick, peers)) s =
                .ok (s.own.n2s.contains nick) s := rfl
          refine (bind_of_ok asked).trans ?_
          dsimp only
          by_cases taken : s.own.n2s.contains nick = true
          · rw [taken, if_pos rfl, if_pos rfl]
            rfl
          · rw [if_neg taken, if_neg taken]
            have written := List.append_assoc s.trace
              [Effect.wrote client (ascii "Nickname OK!" ++ ascii "\n")]
              [.wrote client (ascii "You can type cmd now!" ++ ascii "\n")]
            unfold named
            rw [← List.singleton_append, ← written]
            rfl

theorem answer_nick (choosing : s.own.stateful.getState client = .nick)
    (line : Bytes) : answer names client s line = chose client line s := by
  unfold answer
  rw [choosing]
  change settled (chooseNick (sessionHost client) client line s) = _
  rw [chooseNick_eq]
  rfl

/-- What follows the first line does not matter. -/
theorem chose_line {body : Bytes} (absent : newline ∉ body) (rest : Bytes)
    (s : Session) :
    chose client (body ++ newline :: rest) s =
      chose client (body ++ [newline]) s := by
  unfold chose
  rw [splitAt_line absent, splitAt_line absent]

/-- An open session was open before, and less was seen of it then. -/
def Onward (s after : Session) : Prop :=
  after.status = .opened → s.status = .opened ∧ Connection.Grows s after

instance : IsPreorder Session Onward where
  refl s isOpen := ⟨isOpen, .refl s⟩
  trans _ _ _ first second isOpen := by
    obtain ⟨between, later⟩ := second isOpen
    obtain ⟨isOpen, earlier⟩ := first between
    exact ⟨isOpen, earlier.trans later⟩

theorem chose_onward (message : Bytes) (s : Session) :
    Onward s (chose client message s) := by
  unfold chose
  split
  · exact fun isOpen => ⟨isOpen, .refl s⟩
  · split
    · exact fun isOpen => ⟨isOpen, _, rfl⟩
    · split
      · exact fun isOpen => ⟨isOpen, _, rfl⟩
      · exact fun isOpen => ⟨isOpen, _, rfl⟩

theorem answer_onward (s : Session) (line : Bytes) :
    Onward s (answer names client s line) := by
  cases state : s.own.stateful.getState client with
  | nick =>
      rw [answer_nick state]
      exact chose_onward line s
  | cmd =>
      rcases answer_cmd state line with ⟨more, -, same⟩ | ended
      · rw [same]
        exact fun isOpen => ⟨isOpen, more, rfl⟩
      · exact fun isOpen => absurd isOpen ended

/-- Every other line is answered, unless it ends the session. -/
theorem answer_loud {body : Bytes} (absent : newline ∉ body)
    (some : s.own.stateful.getState client = .cmd → s.own.n2s.keys ≠ [])
    (loud : ¬(s.own.stateful.getState client = .cmd ∧
      isCommand (body ++ [newline]) = false))
    (isOpen : (answer names client s (body ++ [newline])).status = .opened) :
    ∃ more, more ≠ [] ∧
      (answer names client s (body ++ [newline])).trace = s.trace ++ more := by
  cases state : s.own.stateful.getState client with
  | nick =>
      rw [answer_nick state]
      unfold chose
      rw [splitAt_line absent]
      dsimp only
      split
      · exact ⟨_, List.cons_ne_nil _ _, rfl⟩
      · split
        · exact ⟨_, List.cons_ne_nil _ _, rfl⟩
        · exact ⟨_, List.cons_ne_nil _ _, rfl⟩
  | cmd =>
      have asks : isCommand (body ++ [newline]) = true := by
        cases idle : isCommand (body ++ [newline]) with
        | true => rfl
        | false => exact absurd ⟨state, idle⟩ loud
      rcases answer_cmd state (body ++ [newline]) with
        ⟨more, replies, same⟩ | ended
      · rw [same]
        exact ⟨more, replies ⟨asks, some state⟩, rfl⟩
      · exact absurd isOpen ended

/-- Lines after which nothing has changed are whole, and ask for nothing. -/
theorem idle_of_same (isOpen : s.status = .opened)
    (some : s.own.stateful.getState client = .cmd → s.own.n2s.keys ≠ [])
    {text : Bytes}
    (trace : (text.foldl (receive names client) (s, [])).1.trace = s.trace)
    (status : (text.foldl (receive names client) (s, [])).1.status = .opened)
    (whole : (text.foldl (receive names client) (s, [])).2 = []) :
    ∀ line ∈ lines text, s.own.stateful.getState client = .cmd ∧
      line.getLast? = .some newline ∧ isCommand line = false := by
  induction text using Terminated.lines_induction newline with
  | part part absent =>
      rw [receive_part isOpen [] absent] at whole
      unfold lines
      rw [Terminated.separate_part absent, if_pos (by simpa using whole)]
      exact fun line member => absurd member List.not_mem_nil
  | line body rest absent induction =>
      rw [receive_line isOpen [] absent rest, List.nil_append]
        at trace status whole
      let first := answer names client s (body ++ [newline])
      have onward : Onward first
          (rest.foldl (receive names client) (first, [])).1 :=
        Terminated.feed_leads answer_onward (first, []) rest
      obtain ⟨firstOpen, later, further⟩ := onward status
      by_cases idle : s.own.stateful.getState client = .cmd ∧
          isCommand (body ++ [newline]) = false
      · rw [answer_idle idle.1 idle.2] at trace status whole
        unfold lines
        rw [Terminated.separate_line absent, List.forall_mem_cons]
        exact ⟨⟨idle.1, by simp, idle.2⟩, induction trace status whole⟩
      · obtain ⟨more, seen, longer⟩ := answer_loud absent some idle firstOpen
        rw [further, longer, List.append_assoc] at trace
        have none := List.append_right_eq_self.mp trace
        exact absurd (List.append_eq_nil_iff.mp none).1 seen

end Nicknames

section Sessions

variable {names : Names} {client : Fd} {s : Session} {piece : Bytes}

theorem parted_unbuffered (client : Fd) (s : Session) :
    (parted client s).1.bufferable[client]? = none := by
  simp [parted, keeping]

theorem appendBuf_eq (piece : Bytes) (s : Session) :
    (sessionHost client).appendBuf client piece s =
      .ok (s.remainder client ++ piece) (parted client s).1 := by
  simp only [sessionHost, serverHost, host, modifyGet_eq,
    Bufferable.appendBuf_eq_erase]
  rfl

theorem deliver_nick (isOpen : s.status = .opened)
    (choosing : s.own.stateful.getState client = .nick) (piece : Bytes) :
    deliver names client s piece =
      chose client (s.remainder client ++ piece) (parted client s).1 := by
  have asked : (states (sessionHost client)).getState client
      (parted client s).1 = .ok .nick (parted client s).1 := by
    rw [← choosing]
    rfl
  unfold deliver Connection.deliver onMessage
  rw [if_pos isOpen, bind_of_ok (appendBuf_eq piece s), bind_of_ok asked]
  exact congrArg settled (chooseNick_eq _ _)

theorem deliver_cmd (isOpen : s.status = .opened)
    (isCmd : s.own.stateful.getState client = .cmd) (piece : Bytes) :
    deliver names client s piece =
      settled (readItems (sessionHost client).toHost readLine
        (command (sessionHost client) names client) client
        ((s.remainder client ++ piece).length + 1) (s.remainder client ++ piece)
        (parted client s).1) := by
  have asked : (states (sessionHost client)).getState client
      (parted client s).1 = .ok .cmd (parted client s).1 := by
    rw [← isCmd]
    rfl
  unfold deliver Connection.deliver onMessage
  rw [if_pos isOpen, bind_of_ok (appendBuf_eq piece s), bind_of_ok asked]

/-- What waits comes first. -/
theorem receive_waiting (isOpen : s.status = .opened)
    (part : newline ∉ s.remainder client) (piece : Bytes) :
    piece.foldl (receive names client) (parted client s) =
      (s.remainder client ++ piece).foldl (receive names client)
        ((parted client s).1, []) := by
  rw [List.foldl_append, receive_part (by exact isOpen) [] part]
  rfl

theorem chose_unbuffered {body : Bytes} (absent : newline ∉ body)
    (fresh : s.bufferable[client]? = none) :
    (chose client (body ++ [newline]) s).bufferable[client]? = none ∧
      (chose client (body ++ [newline]) s).status = s.status := by
  unfold chose
  rw [splitAt_line absent]
  dsimp only
  split
  · exact ⟨fresh, rfl⟩
  · split
    · exact ⟨fresh, rfl⟩
    · exact ⟨fresh, rfl⟩

/-- The client has the state of its nickname, or still chooses one. -/
theorem chose_state {body : Bytes} (absent : newline ∉ body)
    (choosing : s.own.stateful.getState client = .nick) :
    (chose client (body ++ [newline]) s).own.stateful.getState client = .nick ∨
    ∃ nick, matchNick (body ++ ascii "\n") = some nick ∧
      s.own.n2s.contains nick = false ∧
      chose client (body ++ [newline]) s = named client nick s := by
  unfold chose
  rw [splitAt_line absent]
  dsimp only
  cases matchNick (body ++ ascii "\n") with
  | none => exact .inl choosing
  | some nick =>
      dsimp only
      by_cases taken : s.own.n2s.contains nick = true
      · rw [if_pos taken]
        exact .inl choosing
      · rw [if_neg taken]
        exact .inr ⟨nick, rfl, Bool.eq_false_iff.mpr taken, rfl⟩

theorem named_cmd (client : Fd) (nick : Bytes) (s : Session) :
    (named client nick s).own.stateful.getState client = .cmd ∧
      (named client nick s).own.n2s.keys ≠ [] := by
  constructor
  · simp [named, Stateful.getState]
  · intro empty
    have member : nick ∈ (s.own.n2s.insert nick client).keys := by
      simp
    have none : (s.own.n2s.insert nick client).keys = [] := empty
    rw [none] at member
    exact absurd member List.not_mem_nil

/-- A delivery that spares what it drops comes to what its bytes come to. -/
theorem parted_deliver (part : newline ∉ s.remainder client)
    (spares : Spares client s piece) :
    parted client (deliver names client s piece) =
      piece.foldl (receive names client) (parted client s) := by
  by_cases isOpen : s.status = .opened
  · rw [receive_waiting isOpen part]
    have fresh := parted_unbuffered client s
    cases state : s.own.stateful.getState client with
    | cmd =>
        rw [deliver_cmd isOpen state]
        have whole := Nat.lt_succ_self (s.remainder client ++ piece).length
        exact (readCommands_eq (s := (parted client s).1) state isOpen fresh
          whole).symm
    | nick =>
        rw [deliver_nick isOpen state]
        by_cases inside : newline ∈ s.remainder client ++ piece
        · obtain ⟨body, rest, message, absent⟩ :=
            List.eq_append_cons_of_mem inside
          have spared := spares isOpen state body rest
            (by rw [message, splitAt_line absent])
          rw [message, chose_line absent,
            receive_line (by exact isOpen) [] absent, List.nil_append,
            answer_nick (by exact state)]
          obtain ⟨still, same⟩ := chose_unbuffered absent fresh
          rw [parted_fresh still]
          rcases spared with rfl | ⟨nick, matched, free, idle⟩
          · rfl
          · have chosen : chose client (body ++ [newline]) (parted client s).1 =
                named client nick (parted client s).1 := by
              unfold chose
              rw [splitAt_line absent]
              dsimp only
              rw [matched]
              exact if_neg (Bool.eq_false_iff.mp free)
            rw [chosen] at same ⊢
            exact (receive_idle (named_cmd client nick _).1
              (same.trans isOpen) idle).symm
        · unfold chose
          rw [splitAt_part inside, receive_part (by exact isOpen) [] inside]
          exact parted_kept fresh _
  · have stopped : deliver names client s piece = s := if_neg isOpen
    rw [stopped]
    exact (receive_stopped (by exact isOpen) _ piece).symm

/-- Any other delivery shows. -/
theorem deliver_shows (part : newline ∉ s.remainder client)
    (unspared : ¬Spares client s piece) :
    let received := piece.foldl (receive names client) (parted client s)
    ¬((deliver names client s piece).trace = received.1.trace ∧
      (deliver names client s piece).status = received.1.status ∧
      (deliver names client s piece).remainder client = received.2) := by
  intro received ⟨trace, status, remainder⟩
  apply unspared
  intro isOpen choosing body rest found
  have inside : newline ∈ s.remainder client ++ piece := by
    apply Decidable.byContradiction
    intro absent
    rw [splitAt_part absent] at found
    cases found
  obtain ⟨line, later, message, absent⟩ := List.eq_append_cons_of_mem inside
  rw [message, splitAt_line absent] at found
  cases found
  have fresh := parted_unbuffered client s
  let first := chose client (body ++ [newline]) (parted client s).1
  obtain ⟨still, same⟩ : first.bufferable[client]? = none ∧ _ :=
    chose_unbuffered absent fresh
  have delivered : deliver names client s piece = first := by
    rw [deliver_nick isOpen choosing, message, chose_line absent]
  have read : received = rest.foldl (receive names client) (first, []) := by
    unfold received
    rw [receive_waiting isOpen part, message,
      receive_line (by exact isOpen) [] absent, List.nil_append,
      answer_nick (by exact choosing)]
  have firstOpen : first.status = .opened := same.trans isOpen
  rw [delivered, read] at trace status remainder
  have nothing : first.remainder client = [] := by
    simp [Connection.remainder, still]
  rw [nothing] at remainder
  rw [firstOpen] at status
  rcases chose_state absent (s := (parted client s).1) (by exact choosing) with
    still | ⟨nick, matched, free, chosen⟩
  · left
    have notCmd : first.own.stateful.getState client ≠ .cmd := by
      rw [still]
      decide
    have idle := idle_of_same firstOpen (absurd · notCmd) trace.symm
      status.symm remainder.symm
    have none : lines rest = [] := by
      apply List.eq_nil_iff_forall_not_mem.mpr
      exact fun other member => notCmd (idle other member).1
    rw [← Terminated.flatten_separate newline rest]
    exact congrArg List.flatten none
  · right
    have state := named_cmd client nick (parted client s).1
    rw [← chosen] at state
    have idle := idle_of_same firstOpen (fun _ => state.2) trace.symm
      status.symm remainder.symm
    exact ⟨nick, matched, free, fun other member => (idle other member).2⟩

/-- A part of a line is kept. -/
theorem part_deliver (part : newline ∉ s.remainder client)
    (spares : Spares client s piece) :
    newline ∉ (deliver names client s piece).remainder client := by
  have same : (deliver names client s piece).remainder client = _ :=
    congrArg Prod.snd (parted_deliver part spares)
  rw [same]
  apply Terminated.notMem_feed
  exact part

/-- Deliveries that spare what they drop come to what their bytes come to. -/
theorem parted_deliveries (part : newline ∉ s.remainder client)
    {pieces : List Bytes}
    (spares : ∀ before piece, before ++ [piece] <+: pieces →
      Spares client (before.foldl (deliver names client) s) piece) :
    parted client (pieces.foldl (deliver names client) s) =
      pieces.flatten.foldl (receive names client) (parted client s) := by
  induction pieces generalizing s with
  | nil => rfl
  | cons piece pieces induction =>
      have first := spares [] piece (List.prefix_append [piece] pieces)
      rw [List.foldl_cons, List.flatten_cons, List.foldl_append,
        ← parted_deliver part first]
      apply induction (part_deliver part first)
      intro before next begins
      exact spares (piece :: before) next
        ((List.prefix_cons_inj piece).mpr begins)

/-- A line, or a part of one, that comes by itself is all of its delivery. -/
theorem spares_line {line : Bytes} (part : newline ∉ s.remainder client)
    (single : ∃ body, newline ∉ body ∧
      (line = body ++ [newline] ∨ line = body)) : Spares client s line := by
  intro _ _ first rest found
  obtain ⟨body, absent, rfl | rfl⟩ := single
  · have apart : newline ∉ s.remainder client ++ body := by
      simp [part, absent]
    rw [← List.append_assoc, splitAt_line apart] at found
    cases found
    exact .inl rfl
  · have apart : newline ∉ s.remainder client ++ line := by
      simp [part, absent]
    rw [splitAt_part apart] at found
    cases found

theorem parted_singles (part : newline ∉ s.remainder client)
    {singles : List Bytes}
    (single : ∀ line ∈ singles, ∃ body, newline ∉ body ∧
      (line = body ++ [newline] ∨ line = body)) :
    parted client (singles.foldl (deliver names client) s) =
      singles.flatten.foldl (receive names client) (parted client s) := by
  induction singles generalizing s with
  | nil => rfl
  | cons line singles induction =>
      obtain ⟨first, others⟩ := List.forall_mem_cons.mp single
      have spares := spares_line part first
      rw [List.foldl_cons, List.flatten_cons, List.foldl_append,
        ← parted_deliver part spares]
      exact induction (part_deliver part spares) others

/-- What lines that come by themselves come to. -/
theorem parted_lines (part : newline ∉ s.remainder client) (stream : Bytes) :
    parted client ((lines stream).foldl (deliver names client) s) =
      stream.foldl (receive names client) (parted client s) := by
  unfold lines
  rw [parted_singles part fun _ => Terminated.of_mem_separate,
    Terminated.flatten_separate]

theorem Same.of_parted {other : Session}
    (same : parted client s = parted client other) : Same client s other := by
  constructor
  · exact congrArg (fun now : Session × Bytes => now.1.trace) same
  · exact congrArg (fun now : Session × Bytes => now.1.status) same
  · exact congrArg (fun now : Session × Bytes => now.1.own) same
  · exact congrArg Prod.snd same

/-- Deliveries that come to what their bytes come to spare what they drop. -/
theorem spares_of_same (part : newline ∉ s.remainder client)
    {pieces : List Bytes}
    (same : ∀ before, before <+: pieces →
      let after := before.foldl (deliver names client) s
      let received :=
        before.flatten.foldl (receive names client) (parted client s)
      after.trace = received.1.trace ∧ after.status = received.1.status ∧
        after.remainder client = received.2)
    {before : List Bytes} {piece : Bytes}
    (begins : before ++ [piece] <+: pieces) :
    Spares client (before.foldl (deliver names client) s) piece := by
  induction pieces generalizing s before with
  | nil => simp at begins
  | cons first pieces induction =>
      have spares : Spares client s first := by
        apply Classical.byContradiction
        intro unspared
        apply deliver_shows part unspared
        simpa using same [first] (List.prefix_append [first] pieces)
      cases before with
      | nil =>
          obtain ⟨rfl, -⟩ := List.cons_prefix_cons.mp begins
          exact spares
      | cons next before =>
          obtain ⟨rfl, further⟩ := List.cons_prefix_cons.mp begins
          apply induction (part_deliver part spares) _ further
          intro before begins
          have later := same (next :: before)
            ((List.prefix_cons_inj next).mpr begins)
          rw [List.foldl_cons, List.flatten_cons, List.foldl_append,
            ← parted_deliver part spares] at later
          exact later

end Sessions

/-- After every delivery a client is where its lines, delivered one by one, have
brought it, exactly when no delivery drops a line that would be answered, or a
part of a line. -/
theorem deliveries_as_lines_iff (names : Names) (client : Fd) {s : Session}
    (part : newline ∉ s.remainder client) (pieces : List Bytes) :
    (∀ before, before <+: pieces →
      Same client (before.foldl (deliver names client) s)
        ((lines before.flatten).foldl (deliver names client) s)) ↔
    ∀ before piece, before ++ [piece] <+: pieces →
      Spares client (before.foldl (deliver names client) s) piece := by
  constructor
  · intro same before piece begins
    apply spares_of_same part _ begins
    intro before begins after received
    have sees := same before begins
    have lined : parted client _ = received := parted_lines part before.flatten
    rw [← lined]
    exact ⟨sees.trace, sees.status, sees.remainder⟩
  · intro spares before begins
    apply Same.of_parted
    rw [parted_lines part]
    apply parted_deliveries part
    exact fun earlier piece first => spares earlier piece (first.trans begins)

/-- A client that was just accepted. -/
def accepted : Session :=
  { trace := [], status := .opened, own := {}, bufferable := ∅ }

/-- No address has a name. -/
def nameless : Names := ⟨none, fun _ => none⟩

/-- A line that asks for nothing may follow the nickname. -/
theorem greeting_is_passed_over :
    Same 5 (deliver nameless 5 accepted (ascii "bob\nhi\n"))
      ((lines (ascii "bob\nhi\n")).foldl (deliver nameless 5) accepted) := by
  have part : newline ∉ accepted.remainder 5 := by decide +kernel
  have all := (deliveries_as_lines_iff nameless 5 part
    [ascii "bob\nhi\n"]).mpr ?_ _ List.prefix_rfl
  · exact all
  · intro before piece begins
    cases before with
    | cons first before => simp at begins
    | nil =>
        obtain ⟨rfl, -⟩ := List.cons_prefix_cons.mp begins
        intro _ _ line rest found
        have cut : Utils.splitAt (ascii "\n") (accepted.remainder 5 ++
            ascii "bob\nhi\n") = some (ascii "bob", ascii "hi\n") := by
          decide +kernel
        cases cut.symm.trans found
        refine .inr ⟨ascii "bob", by decide +kernel, by decide +kernel, ?_⟩
        have only : lines (ascii "hi\n") = [ascii "hi\n"] := by decide +kernel
        rw [only]
        intro later member
        cases List.mem_singleton.mp member
        exact ⟨by decide +kernel, by decide +kernel⟩

/-- A command that comes together with the nickname is not answered. -/
theorem command_is_dropped :
    ¬Same 5 (deliver nameless 5 accepted (ascii "bob\nlist\n"))
      ((lines (ascii "bob\nlist\n")).foldl (deliver nameless 5) accepted) := by
  intro same
  have longer := congrArg List.length same.trace
  exact absurd longer (by decide +kernel)

end EasyP2P

end Universe
