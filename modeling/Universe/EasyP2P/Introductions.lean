import Universe.EasyP2P.Registry
import Universe.EasyP2P.Segmentation

/-!
# Who is told what

Peers learn of each other only through the server, and act on what it tells
them.  Whatever it writes follows from a line of the client it deals with, from
who has the nicknames, and from the addresses the clients came with.  Nobody
hears what another client has typed.
-/

namespace Universe

open Stepwise Server
open Std (ExtTreeMap)

namespace EasyP2P

/-- Where the present client of a descriptor came from, as far as anything is
told about it. -/
def arrived (origin : Fd → Option Address) :
    Server.Event Names → Fd → Option Address
  | .accept client world => Function.update origin client world.handler.peer
  | _ => origin

/-- The states after any number of events, in which every client had an
address, with where the clients came from. -/
inductive Met : (Fd → Option Address) → Server Peers → Prop where
  | start : Met (fun _ => none) { own := service.start }
  | step {origin : Fd → Option Address} {s after : Server Peers}
      {event : Server.Event Names} (earlier : Met origin s)
      (allowed : s.Allows event) (named : Named s event)
      (returned : perform service event s = .ok () after) :
      Met (arrived origin event) after

/-- A line that names a client behind one of these words. -/
def Mentions (line word target : Bytes) : Prop :=
  word.isPrefixOf line = true ∧ matchTarget line = some target

/-- What a client is told before it has a nickname.  Before its delivery the
nicknames are in `n2s`. -/
inductive Chooses (n2s : ExtTreeMap Bytes Fd) (after : Server Peers)
    (client : Fd) (text : Bytes) : Bytes → Prop where
  | invalid {line rest : Bytes}
      (first : Utils.splitAt (ascii "\n") text = some (line, rest))
      (nameless : matchNick (line ++ ascii "\n") = none) :
      Chooses n2s after client text (ascii "Invalid nickname!")
  | taken {line rest nick : Bytes} {holder : Fd}
      (first : Utils.splitAt (ascii "\n") text = some (line, rest))
      (asked : matchNick (line ++ ascii "\n") = some nick)
      (held : n2s[nick]? = some holder) :
      Chooses n2s after client text (ascii "ALready exist!")
  | welcome {line rest nick words : Bytes}
      (first : Utils.splitAt (ascii "\n") text = some (line, rest))
      (asked : matchNick (line ++ ascii "\n") = some nick)
      (free : n2s[nick]? = none)
      (holds : after.roles[client]? = some .client →
        after.own.n2s[nick]? = some client)
      (polite : words ∈ [ascii "Nickname OK!", ascii "You can type cmd now!"]) :
      Chooses n2s after client text words

/-- What is said, and to whom, about the commands of a client. -/
inductive Informs (origin : Fd → Option Address) (names : Names)
    (n2s : ExtTreeMap Bytes Fd) (after : Server Peers) (client : Fd)
    (text : Bytes) : Fd → Bytes → Prop where
  | listed {line nick : Bytes} {holder : Fd} (member : line ∈ lines text)
      (asked : (ascii "list").isPrefixOf line = true)
      (held : n2s[nick]? = some holder) :
      Informs origin names n2s after client text client nick
  | missing {line word target : Bytes} (member : line ∈ lines text)
      (asked : Mentions line word target)
      (question : word ∈ [ascii "info ", ascii "connect "])
      (free : after.own.n2s[target]? = none) :
      Informs origin names n2s after client text client
        (target ++ ascii " not exists!")
  | told {line target name : Bytes} {holder : Fd} {addr : Address}
      (member : line ∈ lines text) (asked : Mentions line (ascii "info ") target)
      (held : n2s[target]? = some holder)
      (came : origin holder = some addr)
      (known : names.nameInfo addr = some name) :
      Informs origin names n2s after client text client name
  | invited {line target name : Bytes} {holder : Fd} {addr : Address}
      (member : line ∈ lines text)
      (asked : Mentions line (ascii "connect ") target)
      (held : n2s[target]? = some holder)
      (came : origin client = some addr)
      (known : names.nameInfo addr = some name) :
      Informs origin names n2s after client text holder
        (ascii "/connect " ++ name)
  | confirmed {line target : Bytes} {holder : Fd} (member : line ∈ lines text)
      (asked : Mentions line (ascii "connect ") target)
      (held : n2s[target]? = some holder) :
      Informs origin names n2s after client text client (ascii "ok")

/-- What is said, and to whom, about an event. -/
inductive Said (origin : Fd → Option Address) (s after : Server Peers) :
    Server.Event Names → Fd → Bytes → Prop where
  | greeting (client : Fd) (world : Surroundings Names) :
      Said origin s after (.accept client world) client
        (ascii "Please type your nick name")
  | choosing {client : Fd} {piece words : Bytes} (world : Surroundings Names)
      (nameless : s.own.stateful.getState client = .nick)
      (chooses : Chooses s.own.n2s after client (s.pending client piece) words) :
      Said origin s after (.message client piece world) client words
  | informing {client fd : Fd} {piece words : Bytes}
      (world : Surroundings Names)
      (named : s.own.stateful.getState client = .cmd)
      (informs : Informs origin world.handler s.own.n2s after client
        (s.pending client piece) fd words) :
      Said origin s after (.message client piece world) fd words

/-- Clients may be gone, and nothing was said. -/
structure Parts (s after : Server Peers) : Prop where
  registered : Registered after
  fewer : Fewer s after
  addrs : ∀ {fd : Fd} {addr}, after.own.sockAddrs[fd]? = some addr →
    s.own.sockAddrs[fd]? = some addr
  written : after.written = s.written

/-- Nobody came, and what was said is this. -/
structure Tells (said : Server Peers → Fd → Bytes → Prop)
    (s after : Server Peers) : Prop where
  addrs : ∀ {fd : Fd} {addr}, after.own.sockAddrs[fd]? = some addr →
    s.own.sockAddrs[fd]? = some addr
  spoken : ∃ more, after.written = s.written ++ more ∧
    ∀ writing ∈ more, ∃ words, writing.data = words ++ ascii "\n" ∧
      said after writing.fd words

/-- Clients may be gone, and what was said is this. -/
structure Speaks (said : Server Peers → Fd → Bytes → Prop)
    (s after : Server Peers) : Prop extends Tells said s after where
  registered : Registered after
  fewer : Fewer s after

/-- It stays true when clients go. -/
def Lasting (said : Server Peers → Fd → Bytes → Prop) : Prop :=
  ∀ (s after : Server Peers) fd words, Fewer s after → said s fd words →
    said after fd words

section Lasting

variable {n2s : ExtTreeMap Bytes Fd} {client : Fd} {text : Bytes}

/-- What is said depends on the nicknames. -/
theorem Chooses.congr {now after : Server Peers} {words : Bytes}
    (chooses : Chooses n2s now client text words)
    (roles : after.roles = now.roles) (kept : after.own.n2s = now.own.n2s) :
    Chooses n2s after client text words := by
  cases chooses with
  | invalid first nameless => exact .invalid first nameless
  | taken first asked held => exact .taken first asked held
  | welcome first asked free holds polite =>
      refine .welcome first asked free ?_ polite
      rw [roles, kept]
      exact holds

theorem lasting_chooses :
    Lasting fun after fd words =>
      fd = client ∧ Chooses n2s after client text words := by
  rintro now after fd words fewer ⟨same, chooses⟩
  refine ⟨same, ?_⟩
  cases chooses with
  | invalid first nameless => exact .invalid first nameless
  | taken first asked held => exact .taken first asked held
  | @welcome line rest nick _ first asked free holds polite =>
      refine .welcome first asked free ?_ polite
      intro isClient
      have stays := fewer.holds nick client (holds (fewer.roles isClient))
      rw [if_pos isClient] at stays
      exact stays

theorem lasting_informs (origin : Fd → Option Address) (names : Names) :
    Lasting fun after => Informs origin names n2s after client text := by
  intro now after fd words fewer informs
  cases informs with
  | listed member asked held => exact .listed member asked held
  | missing member asked question free =>
      exact .missing member asked question (fewer.none free)
  | told member asked held came known => exact .told member asked held came known
  | invited member asked held came known =>
      exact .invited member asked held came known
  | confirmed member asked held => exact .confirmed member asked held

end Lasting

namespace Speaks

variable {said : Server Peers → Fd → Bytes → Prop}
  {start s after : Server Peers}

theorem refl (registered : Registered s) : Speaks said s s :=
  ⟨⟨id, [], by simp, by simp⟩, registered, registered.fewer_refl⟩

theorem parts (speaks : Speaks said start s) (lasting : Lasting said)
    (parts : Parts s after) : Speaks said start after := by
  obtain ⟨more, written, spoken⟩ := speaks.spoken
  refine ⟨⟨fun found => speaks.addrs (parts.addrs found), more,
    parts.written.trans written, ?_⟩, parts.registered,
    speaks.fewer.trans parts.fewer⟩
  intro writing member
  obtain ⟨words, data, isSaid⟩ := spoken writing member
  exact ⟨words, data, lasting _ _ _ _ parts.fewer isSaid⟩

/-- Who holds a nickname in the middle of a delivery has held it before. -/
theorem held (speaks : Speaks said start s) {nick : Bytes} {holder : Fd}
    (held : s.own.n2s[nick]? = some holder) :
    start.own.n2s[nick]? = some holder := by
  cases before : start.own.n2s[nick]? with
  | none =>
      rw [speaks.fewer.none before] at held
      cases held
  | some other =>
      have stays := speaks.fewer.holds nick other before
      rw [held] at stays
      split at stays
      · exact stays.symm
      · cases stays

/-- A line is said. -/
theorem spoke (speaks : Speaks said start s) (lasting : Lasting said) {fd : Fd}
    {message : Bytes} (broken : Bool) (may : said s fd message) :
    Speaks said start { s with
      written := s.written ++ [⟨fd, message ++ ascii "\n", broken⟩] } := by
  obtain ⟨more, written, spoken⟩ := speaks.spoken
  have fewer : Fewer s { s with
      written := s.written ++ [⟨fd, message ++ ascii "\n", broken⟩] } :=
    ⟨id, rfl, speaks.registered.holds_refl, id⟩
  refine ⟨⟨speaks.addrs,
      more ++ [⟨fd, message ++ ascii "\n", broken⟩], ?_, ?_⟩,
    speaks.registered.aside s.own rfl rfl rfl s.bufferable _,
    speaks.fewer.trans fewer⟩
  · rw [← List.append_assoc, ← written]
  · intro writing member
    rcases List.mem_append.mp member with earlier | last
    · obtain ⟨words, data, isSaid⟩ := spoken writing earlier
      exact ⟨words, data, lasting _ _ _ _ fewer isSaid⟩
    · rw [List.mem_singleton.mp last]
      exact ⟨message, rfl, lasting _ _ _ _ fewer may⟩

end Speaks

section Delivery

variable {said : Server Peers → Fd → Bytes → Prop}
  {start s : Server Peers} {world : Surroundings Names} {depth : Nat}
  {connect : Address → Fd → M Peers Fd}

theorem closing_parts (registered : Registered s) (depth : Nat) (fd : Fd) :
    Returns (closing world service depth fd false) s fun _ after =>
      Parts s after := by
  cases found : s.roles[fd]? with
  | none =>
      apply (closing_gone found false).weaken
      rintro _ _ rfl
      exact ⟨registered, registered.fewer_refl, id, rfl⟩
  | some role =>
      cases depth with
      | zero => exact closing_depth found
      | succ depth =>
          cases registered.only found
          apply closing_of_client found
          intro _
          apply returns_modifyGet
          obtain ⟨kept, fewer⟩ := registered.close found
          refine ⟨kept, fewer, ?_, rfl⟩
          intro other addr known
          simp only [Peers.without, ExtTreeMap.getElem?_erase] at known
          split at known
          · cases known
          · exact known

/-- A line that may be said. -/
theorem writeLine_speaks (speaks : Speaks said start s) (lasting : Lasting said)
    {fd : Fd} {message : Bytes} (may : said s fd message) :
    Returns (writeLine
      (hostWith world (closing world service depth · false) connect) fd
      message) s fun _ after => Speaks said start after := by
  have spoke := fun broken => speaks.spoke lasting broken may
  have wrote : Returns (writing world (closing world service depth · false) fd
      (message ++ ascii "\n")) s fun _ after => Speaks said start after := by
    apply returns_get_bind
    apply returns_modify_bind
    split
    · apply returns_bind (closing_parts (spoke _).registered depth fd)
      intro _ after parts
      exact returns_pure ((spoke _).parts lasting parts)
    · exact returns_pure (spoke _)
  exact returns_bind wrote fun _ _ speaks => returns_pure speaks

end Delivery

section Commands

variable {origin : Fd → Option Address} {names : Names}
  {start s : Server Peers} {client : Fd} {text : Bytes}
  {world : Surroundings Names} {depth : Nat}
  {connect : Address → Fd → M Peers Fd}

/-- What is said about commands, as far as they were dealt with. -/
abbrev Informing (origin : Fd → Option Address) (names : Names)
    (start : Server Peers) (client : Fd) (text : Bytes) (now : Server Peers) :
    Prop :=
  Speaks (fun after => Informs origin names start.own.n2s after client text)
    start now

theorem list_informs {line : Bytes} (member : line ∈ lines text)
    (asked : (ascii "list").isPrefixOf line = true) (nicks : List Bytes)
    (speaks : Informing origin names start client text s) :
    Returns (list
      (hostWith world (closing world service depth · false) connect) client
      nicks) s fun _ after => Informing origin names start client text after := by
  induction nicks generalizing s with
  | nil => exact returns_pure speaks
  | cons nick nicks induction =>
      apply returns_modifyGet_bind
      split
      · next present =>
          obtain ⟨holder, held⟩ :
              ∃ holder, s.own.n2s[nick]? = some holder := by
            apply Option.isSome_iff_exists.mp
            rw [ExtTreeMap.isSome_getElem?_eq_contains]
            exact present
          apply returns_bind (writeLine_speaks speaks
            (lasting_informs origin names)
            (.listed member asked (speaks.held held)))
          intro _ between speaks
          apply returns_modifyGet_bind
          split
          · exact induction speaks
          · exact returns_throw
      · exact induction speaks

/-- The name of the address a client came with. -/
theorem getNameInfo_returns
    (came : ∀ {fd addr}, start.own.sockAddrs[fd]? = some addr →
      origin fd = some addr)
    (speaks : Informing origin names start client text s) (fd : Fd) :
    Returns (getNameInfo
      (hostWith world (closing world service depth · false) connect) names fd)
      s fun name after => after = s ∧ ∃ addr, origin fd = some addr ∧
        names.nameInfo addr = some name := by
  apply returns_modifyGet_bind
  dsimp only
  cases known : s.own.sockAddrs[fd]? with
  | none => exact returns_throw
  | some addr =>
      rw [Option.bind_some]
      cases name : names.nameInfo addr with
      | none => exact returns_throw
      | some name =>
          exact returns_pure ⟨rfl, addr, came (speaks.addrs known), ‹_›⟩

theorem onInfo_informs
    (came : ∀ {fd addr}, start.own.sockAddrs[fd]? = some addr →
      origin fd = some addr)
    (speaks : Informing origin names start client text s) {line target : Bytes}
    (member : line ∈ lines text) (asked : Mentions line (ascii "info ") target) :
    Returns (onInfo
      (hostWith world (closing world service depth · false) connect) names
      client target) s fun _ after =>
        Informing origin names start client text after := by
  apply returns_modifyGet_bind
  dsimp only
  cases found : s.own.n2s[target]? with
  | none =>
      exact writeLine_speaks speaks (lasting_informs origin names)
        (.missing member asked List.mem_cons_self found)
  | some targetSock =>
      apply returns_bind (getNameInfo_returns came speaks targetSock)
      rintro name _ ⟨rfl, addr, arrived, known⟩
      exact writeLine_speaks speaks (lasting_informs origin names)
        (.told member asked (speaks.held found) arrived known)

theorem onConnectTarget_informs
    (came : ∀ {fd addr}, start.own.sockAddrs[fd]? = some addr →
      origin fd = some addr)
    (speaks : Informing origin names start client text s) {line target : Bytes}
    (member : line ∈ lines text)
    (asked : Mentions line (ascii "connect ") target) :
    Returns (onConnectTarget
      (hostWith world (closing world service depth · false) connect) names
      client target) s fun _ after =>
        Informing origin names start client text after := by
  apply returns_modifyGet_bind
  dsimp only
  cases found : s.own.n2s[target]? with
  | none =>
      exact writeLine_speaks speaks (lasting_informs origin names)
        (.missing member asked (List.mem_cons_of_mem _ List.mem_cons_self) found)
  | some targetSock =>
      have held := speaks.held found
      apply returns_bind (getNameInfo_returns came speaks client)
      rintro name _ ⟨rfl, addr, arrived, known⟩
      apply returns_bind (writeLine_speaks speaks (lasting_informs origin names)
        (.invited member asked held arrived known))
      intro _ between speaks
      exact writeLine_speaks speaks (lasting_informs origin names)
        (.confirmed member asked held)

theorem command_informs
    (came : ∀ {fd addr}, start.own.sockAddrs[fd]? = some addr →
      origin fd = some addr)
    (speaks : Informing origin names start client text s) {line : Bytes}
    (member : line ∈ lines text) :
    Returns (command
      (hostWith world (closing world service depth · false) connect) names
      client line) s fun _ after =>
        Informing origin names start client text after := by
  have targets : ∀ {act : Bytes → M Peers Unit},
      (∀ target, matchTarget line = some target →
        Returns (act target) s fun _ after =>
          Informing origin names start client text after) →
      Returns (targeted
        (hostWith world (closing world service depth · false) connect) client
        line act) s fun _ after =>
          Informing origin names start client text after := by
    intro act acts
    unfold targeted
    cases matched : matchTarget line with
    | none =>
        apply returns_bind (closing_parts speaks.registered depth client)
        intro _ after parts
        exact returns_pure (speaks.parts (lasting_informs origin names) parts)
    | some target =>
        apply returns_bind (acts target matched)
        exact fun _ _ speaks => returns_pure speaks
  unfold command
  split
  · next asked =>
      have listed : Returns (onList
          (hostWith world (closing world service depth · false) connect) client)
          s fun _ after => Informing origin names start client text after := by
        apply returns_modifyGet_bind
        exact list_informs member asked _ speaks
      exact returns_bind listed fun _ _ speaks => returns_pure speaks
  · split
    · next asked =>
        exact targets fun target matched =>
          onInfo_informs came speaks member ⟨asked, matched⟩
    · split
      · next asked =>
          exact targets fun target matched =>
            onConnectTarget_informs came speaks member ⟨asked, matched⟩
      · exact returns_pure speaks

/-- A line that was read is the first one. -/
theorem lines_of_readLine {message rest line : Bytes}
    (read : readLine message = .ok (some line, rest)) :
    lines message = line :: lines rest := by
  unfold readLine at read
  by_cases inside : newline ∈ message
  · obtain ⟨body, later, rfl, absent⟩ := List.eq_append_cons_of_mem inside
    rw [splitAt_line absent, ascii_newline] at read
    cases read
    exact Terminated.separate_line absent rest
  · rw [splitAt_part inside] at read
    cases read

theorem readCommands_informs
    (came : ∀ {fd addr}, start.own.sockAddrs[fd]? = some addr →
      origin fd = some addr)
    (speaks : Informing origin names start client text s) (fuel : Nat)
    {message : Bytes} (part : ∀ line ∈ lines message, line ∈ lines text) :
    Returns (Protocol.readItems
      (hostWith world (closing world service depth · false) connect).toHost
      readLine (command
        (hostWith world (closing world service depth · false) connect) names
        client) client fuel message) s fun _ after =>
          Informing origin names start client text after := by
  induction fuel generalizing message s with
  | zero => exact returns_pure speaks
  | succ fuel induction =>
      unfold Protocol.readItems
      cases read : readLine message with
      | error stop =>
          cases stop with
          | ag =>
              apply returns_modifyGet_bind
              apply returns_pure
              apply speaks.parts (lasting_informs origin names)
              have registered := speaks.registered
              exact ⟨registered.aside s.own rfl rfl rfl _ s.written,
                ⟨id, rfl, registered.holds_refl, id⟩, id, rfl⟩
          | ng =>
              apply returns_bind (closing_parts speaks.registered depth client)
              intro _ after parts
              exact returns_pure
                (speaks.parts (lasting_informs origin names) parts)
      | ok item =>
          obtain ⟨line, rest⟩ := item
          cases line with
          | none => exact returns_throw
          | some line =>
              have all := lines_of_readLine read
              rw [all, List.forall_mem_cons] at part
              apply returns_bind (command_informs came speaks part.1)
              intro goesOn between speaks
              split
              · exact induction speaks part.2
              · exact returns_pure speaks

end Commands

section Events

variable {origin : Fd → Option Address} {s : Server Peers} {client : Fd}
  {world : Surroundings Names} {depth : Nat}
  {connect : Address → Fd → M Peers Fd}

theorem tells_nothing {said : Server Peers → Fd → Bytes → Prop}
    (bufferable : Bufferable) : Tells said s { s with bufferable } :=
  ⟨id, [], by simp, by simp⟩

/-- The first line of a client, or a part of it. -/
theorem chooseNick_tells (registry : Registry s)
    (isClient : s.roles[client]? = some .client)
    (choosing : s.own.stateful.getState client = .nick) (message : Bytes) :
    Returns (chooseNick
      (hostWith world (closing world service depth · false) connect) client
      message) s fun _ after =>
        Tells (fun now fd words =>
          fd = client ∧ Chooses s.own.n2s now client message words) s after := by
  have registered := registry.registered
  have still : Speaks (fun now fd words =>
      fd = client ∧ Chooses s.own.n2s now client message words) s s :=
    .refl registered
  unfold chooseNick
  cases first : Utils.splitAt (ascii "\n") message with
  | none => exact returns_modifyGet_bind (returns_pure (tells_nothing _))
  | some read =>
      obtain ⟨line, rest⟩ := read
      dsimp only
      cases asked : matchNick (line ++ ascii "\n") with
      | none =>
          exact (writeLine_speaks still lasting_chooses
            ⟨rfl, .invalid first asked⟩).weaken
              fun _ _ speaks => speaks.toTells
      | some nick =>
          apply returns_modifyGet_bind
          split
          · next present =>
              obtain ⟨holder, held⟩ :
                  ∃ holder, s.own.n2s[nick]? = some holder := by
                apply Option.isSome_iff_exists.mp
                rw [ExtTreeMap.isSome_getElem?_eq_contains]
                exact present
              exact (writeLine_speaks still lasting_chooses
                ⟨rfl, .taken first asked held⟩).weaken
                  fun _ _ speaks => speaks.toTells
          · next untaken =>
              have free : s.own.n2s[nick]? = none := by
                simpa using untaken
              obtain ⟨named, -⟩ :=
                registry.name isClient choosing (matchNick_word asked) free
              have may : ∀ {now words},
                  Speaks (fun now fd words =>
                    fd = client ∧ Chooses s.own.n2s now client message words)
                    { s with own := s.own.setNick client nick } now →
                  words ∈ [ascii "Nickname OK!",
                    ascii "You can type cmd now!"] →
                  client = client ∧
                    Chooses s.own.n2s now client message words := by
                intro now words speaks polite
                refine ⟨rfl, .welcome first asked free ?_ polite⟩
                intro isStill
                have stays := speaks.fewer.holds nick client (by
                  simp [Peers.setNick])
                rw [if_pos isStill] at stays
                exact stays
              apply returns_modifyGet_bind
              apply returns_bind (writeLine_speaks (.refl named) lasting_chooses
                (may (.refl named) List.mem_cons_self))
              intro _ between speaks
              apply returns_bind (writeLine_speaks speaks lasting_chooses
                (may speaks (List.mem_cons_of_mem _ List.mem_cons_self)))
              intro _ between speaks
              obtain ⟨more, written, spoken⟩ := speaks.spoken
              refine returns_modifyGet ⟨speaks.addrs, more, written, ?_⟩
              intro writing member
              obtain ⟨words, data, same, chooses⟩ := spoken writing member
              exact ⟨words, data, same, chooses.congr rfl rfl⟩

theorem message_tells (registry : Registry s)
    (came : ∀ {fd addr}, s.own.sockAddrs[fd]? = some addr →
      origin fd = some addr)
    (isClient : s.roles[client]? = some .client) (piece : Bytes)
    (before : Server Peers) :
    Returns (service.onMessage world.handler (host world service before) client
      piece) s fun _ after =>
        Tells (fun now => Said origin s now (.message client piece world)) s
          after := by
  apply returns_modifyGet_bind
  apply returns_modifyGet_bind
  rw [Bufferable.appendBuf_message]
  dsimp only
  let bufferable := (s.bufferable.appendBuf client piece).2
  have appended : Registry { s with bufferable } :=
    (registry.shrink (shrinks_aside s bufferable s.written)).1
  cases state : s.own.stateful.getState client with
  | nick =>
      apply (chooseNick_tells appended isClient state _).weaken
      intro _ after tells
      obtain ⟨more, written, spoken⟩ := tells.spoken
      refine ⟨tells.addrs, more, written, ?_⟩
      intro writing member
      obtain ⟨words, data, same, chooses⟩ := spoken writing member
      rw [same]
      exact ⟨words, data, .choosing world state chooses⟩
  | cmd =>
      let start : Server Peers := { s with bufferable }
      have begun : Informing origin world.handler start client
          (s.pending client piece) start := .refl appended.registered
      have known : ∀ {fd addr}, start.own.sockAddrs[fd]? = some addr →
          origin fd = some addr := came
      apply (readCommands_informs known begun _ fun _ => id).weaken
      intro _ after speaks
      obtain ⟨more, written, spoken⟩ := speaks.spoken
      refine ⟨speaks.addrs, more, written, ?_⟩
      intro writing member
      obtain ⟨words, data, informs⟩ := spoken writing member
      exact ⟨words, data, .informing world state informs⟩

/-- A client that is not watched yet is greeted. -/
theorem writeLine_greets {fd : Fd} (unpolled : fd ∉ s.polled)
    (before : Server Peers) (message : Bytes) :
    Returns (writeLine (host world service before) fd message) s
      fun _ after => ∃ broken, after = { s with
        written := s.written ++ [⟨fd, message ++ ascii "\n", broken⟩] } := by
  have wrote : Returns (writing world
      (closing world service before.roles.size · false) fd
      (message ++ ascii "\n")) s fun _ after => ∃ broken, after = { s with
        written := s.written ++ [⟨fd, message ++ ascii "\n", broken⟩] } := by
    apply returns_get_bind
    apply returns_modify_bind
    split
    · apply returns_bind (closing_unpolled (by exact unpolled))
      rintro _ _ rfl
      exact returns_pure ⟨_, rfl⟩
    · exact returns_pure ⟨_, rfl⟩
  exact returns_bind wrote fun _ _ greeted => returns_pure greeted

/-- What an event makes the server say, and where the clients came from then. -/
theorem step_speaks (registry : Registry s)
    (came : ∀ {fd addr}, s.own.sockAddrs[fd]? = some addr →
      origin fd = some addr)
    {event : Server.Event Names} (allowed : s.Allows event)
    (named : Named s event) :
    Returns (perform service event) s fun _ after =>
      (∀ {fd addr}, after.own.sockAddrs[fd]? = some addr →
        arrived origin event fd = some addr) ∧
      ∃ more, after.written = s.written ++ more ∧
        ∀ writing ∈ more, ∃ words, writing.data = words ++ ascii "\n" ∧
          Said origin s after event writing.fd words := by
  have registered := registry.registered
  cases event with
  | accept client world =>
      have unpolled : client ∉ (s.openFd client).polled := by
        intro member
        exact allowed.1.2 (registered.polled client member)
      apply returns_modify_bind
      apply returns_get_bind
      have greeted : Returns (onConnect (host world service (s.openFd client))
          world.handler client) (s.openFd client) fun _ after =>
            ∃ addr broken, world.handler.peer = some addr ∧
              after = { s.openFd client with
                own := { s.own.setAddr client addr with
                  stateful := s.own.stateful.setState client .nick }
                written := s.written ++
                  [⟨client, ascii "Please type your nick name" ++ ascii "\n",
                    broken⟩] } := by
        unfold onConnect
        cases peer : world.handler.peer with
        | none => exact absurd peer named
        | some addr =>
            apply returns_modifyGet_bind
            apply returns_bind (writeLine_greets (by exact unpolled) _ _)
            rintro _ _ ⟨broken, rfl⟩
            exact returns_modifyGet ⟨addr, broken, rfl, rfl⟩
      apply returns_bind greeted
      rintro _ _ ⟨addr, broken, peer, rfl⟩
      refine returns_modify ⟨?_, _, rfl, ?_⟩
      · intro fd known found
        change (s.own.sockAddrs.insert client addr)[fd]? = some known at found
        rw [ExtTreeMap.getElem?_insert] at found
        change Function.update origin client world.handler.peer fd = some known
        by_cases same : fd = client
        · subst same
          rw [if_pos Std.ReflCmp.compare_self] at found
          rw [Function.update_self, peer, found]
        · rw [if_neg (by simpa using Ne.symm same)] at found
          rw [Function.update_of_ne same]
          exact came found
      · intro writing member
        rw [List.mem_singleton.mp member]
        exact ⟨_, rfl, .greeting client world⟩
  | message client piece world =>
      apply returns_get_bind
      apply (message_tells registry came allowed.1.1 piece s).weaken
      intro _ after tells
      exact ⟨fun known => came (tells.addrs known), tells.spoken⟩
  | clientClosed client world =>
      apply returns_get_bind
      apply returns_bind (closing_parts registered _ client)
      intro _ after parts
      refine returns_pure ⟨fun known => came (parts.addrs known), [], ?_, ?_⟩
      · rw [parts.written, List.append_nil]
      · exact fun writing member => absurd member List.not_mem_nil
  | connected remote world =>
      obtain ⟨client, isRole, -⟩ := allowed
      cases registered.only isRole
  | connectFailed remote world =>
      obtain ⟨client, isRole, -⟩ := allowed
      cases registered.only isRole
  | remoteMessage remote piece world =>
      obtain ⟨⟨client, isRole, -⟩, -⟩ := allowed
      cases registered.only isRole
  | remoteClosed remote world =>
      obtain ⟨client, isRole, -⟩ := allowed
      cases registered.only isRole
  | flush => exact returns_modify ⟨came, [], by simp, by simp⟩

end Events

theorem registry_of_met {origin : Fd → Option Address} {s : Server Peers}
    (met : Met origin s) :
    Registry s ∧ ∀ {fd addr}, s.own.sockAddrs[fd]? = some addr →
      origin fd = some addr := by
  induction met with
  | start =>
      refine ⟨registry_of_reached .start, ?_⟩
      simp [service]
  | step earlier allowed named returned induction =>
      obtain ⟨registry, came⟩ := induction
      exact ⟨((registry.step allowed named).holds _ _ returned).1,
        ((step_speaks registry came allowed named).holds _ _ returned).1⟩

/-- Whoever comes, writes and goes in whatever order, and whichever writes
fail: all that is said about an event is the greeting of a client that comes,
what a client without a nickname is told about its first line, and what was
asked for in the lines of a client that has one.  Only a client that holds the
nickname in a line hears of it, and all it hears is the address that the client
who has typed the line came with. -/
theorem introductions_are_true {origin : Fd → Option Address}
    {s : Server Peers} (met : Met origin s) {event : Server.Event Names}
    {after : Server Peers} (allowed : s.Allows event) (named : Named s event)
    (returned : perform service event s = .ok () after) :
    ∃ more, after.written = s.written ++ more ∧
      ∀ writing ∈ more, ∃ words, writing.data = words ++ ascii "\n" ∧
        Said origin s after event writing.fd words := by
  obtain ⟨registry, came⟩ := registry_of_met met
  exact ((step_speaks registry came allowed named).holds _ _ returned).2

/-- A client from this address.  An address is its own name. -/
def sampleFrom (addr : Address) : Surroundings Names where
  handler := ⟨some addr, some⟩

/-- Two clients, of which the first calls itself bob and the second eve. -/
def bobAndEve : Server Peers :=
  [.accept 5 (sampleFrom [1]), .message 5 (ascii "bob\n") (sampleFrom []),
    .accept 6 (sampleFrom [2]), .message 6 (ascii "eve\n") (sampleFrom [])
  ].foldl (next service) { own := service.start }

/-- Eve wants to be connected. -/
def eveAsks : Server.Event Names :=
  .message 6 (ascii "connect bob\n") (sampleFrom [])

theorem Met.accepts {origin : Fd → Option Address} {s : Server Peers}
    (met : Met origin s) (client : Fd) (addr : Address)
    (free : s.Free client)
    (returns : isOk (perform service (.accept client (sampleFrom addr)) s) =
      true) :
    Met (arrived origin (.accept client (sampleFrom addr)))
      (next service s (.accept client (sampleFrom addr))) := by
  refine met.step ⟨free, .quiet rfl, ?_⟩ (Option.some_ne_none _)
    (eq_ok_final returns)
  intro attempt isAttempt
  cases isAttempt

theorem Met.hears {origin : Fd → Option Address} {s : Server Peers}
    (met : Met origin s) (client : Fd) (piece : Bytes)
    (watches : s.Watches client .client)
    (returns : isOk (perform service (.message client piece (sampleFrom [])) s) =
      true) :
    Met (arrived origin (.message client piece (sampleFrom [])))
      (next service s (.message client piece (sampleFrom []))) :=
  met.step ⟨watches, .quiet rfl⟩ trivial (eq_ok_final returns)

theorem eve_is_introduced_to_bob :
    ∃ origin, Met origin bobAndEve ∧ ∃ writing words,
      writing ∈ (next service bobAndEve eveAsks).written ∧
      writing ∉ bobAndEve.written ∧ writing.fd = 5 ∧
      writing.data = words ++ ascii "\n" ∧
      Said origin bobAndEve (next service bobAndEve eveAsks) eveAsks 5
        words := by
  have first := Met.start.accepts 5 [1] ⟨by decide, by decide +kernel⟩
    (by decide +kernel)
  have second := first.hears 5 (ascii "bob\n")
    ⟨by decide +kernel, by decide +kernel⟩ (by decide +kernel)
  have third := second.accepts 6 [2] ⟨by decide, by decide +kernel⟩
    (by decide +kernel)
  have last := third.hears 6 (ascii "eve\n")
    ⟨by decide +kernel, by decide +kernel⟩ (by decide +kernel)
  have allowed : bobAndEve.Allows eveAsks :=
    ⟨⟨by decide +kernel, by decide +kernel⟩, .quiet rfl⟩
  obtain ⟨more, written, spoken⟩ :=
    introductions_are_true last allowed trivial
      (eq_ok_final (by decide +kernel))
  let writing : Writing := ⟨5, ascii "/connect " ++ [2] ++ ascii "\n", false⟩
  have present : writing ∈ (next service bobAndEve eveAsks).written := by
    decide +kernel
  have absent : writing ∉ bobAndEve.written := by decide +kernel
  have among : writing ∈ bobAndEve.written ++ more := written ▸ present
  obtain ⟨words, data, said⟩ :=
    spoken writing ((List.mem_append.mp among).resolve_left absent)
  exact ⟨_, last, writing, words, present, absent, rfl, data, said⟩

end EasyP2P

end Universe
