import Universe.Library.Pairing
import Universe.Server.Reuse

/-!
# The registry of nicknames

A nickname belongs to one client from the line that chooses it until the
client is closed.  That rests on the address which `on_connect` looks up: a
client that has none is told to be closed before it is watched, and stays.
-/

namespace Universe

open Stepwise Server
open Std (ExtTreeMap)

namespace EasyP2P

/-- Every client that is accepted has an address. -/
def Named (_ : Server Peers) : Server.Event Names → Prop
  | .accept _ world => world.handler.peer ≠ none
  | _ => True

theorem matchNick_word {result nick : Bytes}
    (matched : matchNick result = some nick) :
    nick ≠ [] ∧ nick.all isWord = true := by
  unfold matchNick at matched
  dsimp only at matched
  split at matched
  · cases matched
  · next found =>
      cases matched
      refine ⟨?_, List.all_takeWhile⟩
      intro empty
      simp [empty] at found

/-- The registry, whatever the states of the clients are. -/
structure Registered (s : Server Peers) : Prop where
  only : ∀ {fd : Fd} {role}, s.roles[fd]? = some role →
    role = Role.client
  clients : ∀ {fd : Fd}, s.roles[fd]? = some .client →
    fd ∈ s.opened ∧ fd ∉ s.released
  polled : ∀ fd ∈ s.polled, fd ∈ s.opened
  released : ∀ fd ∈ s.released, fd ∈ s.opened
  known : ∀ {fd : Fd}, s.roles[fd]? = some .client →
    s.own.sockAddrs.contains fd = true
  inverse : Pairing.Inverse s.own.n2s s.own.s2n
  holders : ∀ {sock : Fd} {nick}, s.own.s2n[sock]? = some nick →
    s.roles[sock]? = some .client
  words : ∀ {sock : Fd} {nick}, s.own.s2n[sock]? = some nick →
    nick ≠ [] ∧ nick.all isWord = true

/-- A nickname stays with its client, and goes with it. -/
def Holds (s after : Server Peers) : Prop :=
  ∀ (nick : Bytes) (sock : Fd), s.own.n2s[nick]? = some sock →
    after.own.n2s[nick]? =
      if after.roles[sock]? = some .client then some sock else none

/-- Clients may be gone, and nothing else is. -/
structure Fewer (s after : Server Peers) : Prop where
  roles : ∀ {fd : Fd} {role}, after.roles[fd]? = some role →
    s.roles[fd]? = some role
  stateful : after.own.stateful = s.own.stateful
  holds : Holds s after
  none : ∀ {nick : Bytes}, s.own.n2s[nick]? = none →
    after.own.n2s[nick]? = none

/-- The registry is kept by what closes clients. -/
def Shrinks (s after : Server Peers) : Prop :=
  Registered s → Registered after ∧ Fewer s after

namespace Registered

variable {s after : Server Peers} (registered : Registered s)
include registered

theorem holds_refl : Holds s s := by
  intro nick sock held
  rw [if_pos (registered.holders ((registered.inverse nick sock).mp held))]
  exact held

theorem fewer_refl : Fewer s s :=
  ⟨id, rfl, registered.holds_refl, id⟩

/-- A nickname is a word. -/
theorem nonempty : s.own.n2s[([] : Bytes)]? = none := by
  cases held : s.own.n2s[([] : Bytes)]? with
  | none => rfl
  | some sock =>
      have word := registered.words ((registered.inverse [] sock).mp held)
      exact absurd rfl word.1

/-- What `on_close` leaves of the nicknames. -/
theorem n2s_without (fd : Fd) (nick : Bytes) :
    (s.own.without fd).n2s[nick]? =
      if s.own.n2s[nick]? = some fd then none else s.own.n2s[nick]? := by
  simp only [Peers.without, ExtTreeMap.getElem?_erase]
  cases held : s.own.s2n[fd]? with
  | none =>
      have other : s.own.n2s[nick]? ≠ some fd := by
        intro taken
        rw [(registered.inverse nick fd).mp taken] at held
        cases held
      rw [if_neg other]
      split
      · next same =>
          have empty : [] = nick := Std.LawfulEqCmp.eq_of_compare same
          rw [← empty, registered.nonempty]
      · rfl
  | some own =>
      have here := (registered.inverse own fd).mpr held
      by_cases same : own = nick
      · subst same
        rw [if_pos here]
        exact if_pos Std.ReflCmp.compare_self
      · have other : s.own.n2s[nick]? ≠ some fd := by
          intro taken
          exact same (registered.inverse.injective here taken)
        rw [if_neg other, if_neg]
        intro compared
        exact same (Std.LawfulEqCmp.eq_of_compare compared)

omit registered in
theorem s2n_without (fd sock : Fd) :
    (s.own.without fd).s2n[sock]? =
      if sock = fd then none else s.own.s2n[sock]? := by
  simp only [Peers.without, ExtTreeMap.getElem?_erase]
  by_cases same : fd = sock
  · rw [if_pos same.symm, same, if_pos Std.ReflCmp.compare_self]
  · rw [if_neg (Ne.symm same), if_neg (by simpa using same)]

/-- A client is closed. -/
theorem close {fd : Fd} (isClient : s.roles[fd]? = some .client) :
    Registered { (s.unregister fd).release fd with
        own := s.own.without fd } ∧
      Fewer s { (s.unregister fd).release fd with
        own := s.own.without fd } := by
  have others : ∀ {other : Fd} {role},
      (s.unregister fd).roles[other]? = some role →
      other ≠ fd ∧ s.roles[other]? = some role := by
    intro other role found
    rw [getElem?_unregister] at found
    split at found
    · cases found
    · next different => exact ⟨different, found⟩
  have holders : ∀ {sock nick},
      (s.own.without fd).s2n[sock]? = some nick →
      sock ≠ fd ∧ s.own.s2n[sock]? = some nick := by
    intro sock nick held
    rw [s2n_without] at held
    split at held
    · cases held
    · next different => exact ⟨different, held⟩
  constructor
  · refine ⟨?_, ?_, ?_, ?_, ?_, ?_, ?_, ?_⟩
    · exact fun found => registered.only (others found).2
    · intro other found
      obtain ⟨different, found⟩ := others found
      obtain ⟨opened, kept⟩ := registered.clients found
      refine ⟨opened, fun member => ?_⟩
      rcases List.mem_append.mp member with earlier | last
      · exact kept earlier
      · exact different (List.mem_singleton.mp last)
    · intro other member
      exact registered.polled other (List.mem_filter.mp member).1
    · intro other member
      rcases List.mem_append.mp member with earlier | last
      · exact registered.released other earlier
      · rw [List.mem_singleton.mp last]
        exact (registered.clients isClient).1
    · intro other found
      obtain ⟨different, found⟩ := others found
      have known := registered.known found
      simp only [Peers.without, ExtTreeMap.contains_erase, known,
        Bool.and_true]
      simpa using Ne.symm different
    · intro nick sock
      rw [registered.n2s_without, s2n_without]
      by_cases same : sock = fd
      · subst same
        rw [if_pos rfl]
        split
        · simp
        · next other => exact iff_of_false other (by simp)
      · rw [if_neg same, ← registered.inverse nick sock]
        split
        · next here =>
            rw [here]
            simpa using Ne.symm same
        · rfl
    · intro sock nick held
      obtain ⟨different, held⟩ := holders held
      exact (roles_unregister different).trans (registered.holders held)
    · exact fun held => registered.words (holders held).2
  · refine ⟨fun found => (others found).2, rfl, ?_, ?_⟩
    · intro nick sock held
      have left : (s.own.without fd).n2s[nick]? =
          if s.own.n2s[nick]? = some fd then none else s.own.n2s[nick]? :=
        registered.n2s_without fd nick
      rw [held] at left
      by_cases same : sock = fd
      · subst same
        rw [if_pos rfl] at left
        have gone : (s.unregister sock).roles[sock]? ≠ some .client := by
          rw [roles_unregister_self]
          simp
        exact left.trans (if_neg gone).symm
      · have stays : (s.unregister fd).roles[sock]? = some .client :=
          (roles_unregister same).trans
            (registered.holders ((registered.inverse nick sock).mp held))
        rw [if_neg (by simpa using same)] at left
        exact left.trans (if_pos stays).symm
    · intro nick free
      change (s.own.without fd).n2s[nick]? = none
      rw [registered.n2s_without, free]
      simp

/-- What else there is does not matter. -/
theorem aside (own : Peers) (sockAddrs : own.sockAddrs = s.own.sockAddrs)
    (s2n : own.s2n = s.own.s2n) (n2s : own.n2s = s.own.n2s)
    (bufferable : Bufferable) (written : List Writing) :
    Registered { s with own, bufferable, written } := by
  obtain ⟨stateful, _, _, _⟩ := own
  cases sockAddrs
  cases s2n
  cases n2s
  exact ⟨registered.only, registered.clients, registered.polled,
    registered.released, registered.known, registered.inverse,
    registered.holders, registered.words⟩

end Registered

theorem Fewer.trans {s between after : Server Peers}
    (first : Fewer s between) (second : Fewer between after) :
    Fewer s after := by
  refine ⟨fun found => first.roles (second.roles found),
    second.stateful.trans first.stateful, ?_, fun free =>
      second.none (first.none free)⟩
  intro nick sock held
  have middle := first.holds nick sock held
  by_cases stays : between.roles[sock]? = some .client
  · rw [if_pos stays] at middle
    exact second.holds nick sock middle
  · rw [if_neg stays] at middle
    have gone : after.roles[sock]? ≠ some .client :=
      fun found => stays (second.roles found)
    rw [if_neg gone]
    exact second.none middle

/-- No client gets a nickname by what closes clients. -/
theorem Fewer.holder {s after : Server Peers} (fewer : Fewer s after)
    (before : Registered s) (registered : Registered after) {sock : Fd}
    {nick : Bytes} (held : after.own.s2n[sock]? = some nick) :
    s.own.s2n[sock]? = some nick := by
  have named := (registered.inverse nick sock).mpr held
  cases earlier : s.own.n2s[nick]? with
  | none =>
      rw [fewer.none earlier] at named
      cases named
  | some other =>
      have stays := fewer.holds nick other earlier
      rw [named] at stays
      split at stays
      · cases stays
        exact (before.inverse nick sock).mp earlier
      · cases stays

instance : IsPreorder (Server Peers) Shrinks where
  refl _ registered := ⟨registered, registered.fewer_refl⟩
  trans _ _ _ first second registered := by
    obtain ⟨between, fewer⟩ := first registered
    obtain ⟨after, further⟩ := second between
    exact ⟨after, fewer.trans further⟩

/-- What else there is does not matter. -/
theorem shrinks_aside (s : Server Peers) (bufferable : Bufferable)
    (written : List Writing) :
    Shrinks s { s with bufferable, written } := by
  intro registered
  refine ⟨registered.aside s.own rfl rfl rfl bufferable written, ?_⟩
  exact ⟨id, rfl, registered.holds_refl, id⟩

section Within

variable {world : Surroundings Names} {depth : Nat}
  {connect : Address → Fd → M Peers Fd}

theorem closing_shrinks (depth : Nat) (fd : Fd) :
    Within Shrinks (closing world service depth fd false) := by
  constructor
  intro s
  cases found : s.roles[fd]? with
  | none =>
      apply (closing_gone found false).weaken
      rintro _ _ rfl registered
      exact ⟨registered, registered.fewer_refl⟩
  | some role =>
      cases depth with
      | zero => exact closing_depth found
      | succ depth =>
          cases role with
          | client =>
              apply closing_of_client found
              intro _
              apply returns_modifyGet
              exact fun registered => registered.close found
          | connecting client =>
              constructor
              intro _ _ _ registered
              cases registered.only found
          | bare =>
              constructor
              intro _ _ _ registered
              cases registered.only found
          | remote client =>
              constructor
              intro _ _ _ registered
              cases registered.only found

theorem writeLine_shrinks (fd : Fd) (message : Bytes) :
    Within Shrinks (writeLine
      (hostWith world (closing world service depth · false) connect) fd
      message) := by
  apply within_bind
  · apply within_get_bind
    intro seen
    apply within_bind
    · apply within_modify
      intro s
      exact shrinks_aside s s.bufferable _
    · intro _
      split
      · apply within_bind (closing_shrinks depth fd)
        exact fun _ => within_pure _
      · exact within_pure _
  · exact fun _ => within_pure _

theorem list_shrinks (sock : Fd) (nicks : List Bytes) :
    Within Shrinks (list
      (hostWith world (closing world service depth · false) connect) sock
      nicks) := by
  induction nicks with
  | nil => exact within_pure _
  | cons nick nicks induction =>
      apply within_bind (within_modifyGet fun s => refl_of Shrinks s)
      intro present
      split
      · apply within_bind (writeLine_shrinks sock nick)
        intro _
        apply within_bind (within_modifyGet fun s => refl_of Shrinks s)
        intro stays
        split
        · exact induction
        · exact within_throw _
      · exact induction

theorem getNameInfo_shrinks (names : Names) (fd : Fd) :
    Within Shrinks (getNameInfo
      (hostWith world (closing world service depth · false) connect) names
      fd) := by
  apply within_bind (within_modifyGet fun s => refl_of Shrinks s)
  intro addr
  cases addr.bind names.nameInfo with
  | none => exact within_throw _
  | some name => exact within_pure _

theorem onInfo_shrinks (names : Names) (sock : Fd) (target : Bytes) :
    Within Shrinks (onInfo
      (hostWith world (closing world service depth · false) connect) names
      sock target) := by
  apply within_bind (within_modifyGet fun s => refl_of Shrinks s)
  intro found
  cases found with
  | none => exact writeLine_shrinks sock _
  | some targetSock =>
      apply within_bind (getNameInfo_shrinks names targetSock)
      exact fun name => writeLine_shrinks sock name

theorem onConnectTarget_shrinks (names : Names) (sock : Fd) (target : Bytes) :
    Within Shrinks (onConnectTarget
      (hostWith world (closing world service depth · false) connect) names
      sock target) := by
  apply within_bind (within_modifyGet fun s => refl_of Shrinks s)
  intro found
  cases found with
  | none => exact writeLine_shrinks sock _
  | some targetSock =>
      apply within_bind (getNameInfo_shrinks names sock)
      intro name
      apply within_bind (writeLine_shrinks targetSock _)
      exact fun _ => writeLine_shrinks sock _

theorem targeted_shrinks (sock : Fd) (result : Bytes)
    {act : Bytes → M Peers Unit}
    (acts : ∀ target, Within Shrinks (act target)) :
    Within Shrinks (targeted
      (hostWith world (closing world service depth · false) connect) sock
      result act) := by
  unfold targeted
  cases matchTarget result with
  | none =>
      apply within_bind (closing_shrinks depth sock)
      exact fun _ => within_pure _
  | some target =>
      apply within_bind (acts target)
      exact fun _ => within_pure _

theorem command_shrinks (names : Names) (sock : Fd) (result : Bytes) :
    Within Shrinks (command
      (hostWith world (closing world service depth · false) connect) names
      sock result) := by
  unfold command
  split
  · apply within_bind
    · apply within_bind (within_modifyGet fun s => refl_of Shrinks s)
      exact fun nicks => list_shrinks sock nicks
    · exact fun _ => within_pure _
  · split
    · exact targeted_shrinks sock result (onInfo_shrinks names sock)
    · split
      · exact targeted_shrinks sock result (onConnectTarget_shrinks names sock)
      · exact within_pure _

theorem needBuf_shrinks (fd : Fd) (part : Bytes) :
    Within Shrinks ((hostWith world (closing world service depth · false)
      connect).needBuf fd part true) :=
  within_modifyGet fun s => shrinks_aside s _ s.written

theorem readCommands_shrinks (names : Names) (sock : Fd) (fuel : Nat)
    (message : Bytes) :
    Within Shrinks (Protocol.readItems
      (hostWith world (closing world service depth · false) connect).toHost
      readLine (command
        (hostWith world (closing world service depth · false) connect) names
        sock) sock fuel message) := by
  induction fuel generalizing message with
  | zero => exact within_pure _
  | succ fuel induction =>
      unfold Protocol.readItems
      cases readLine message with
      | error stop =>
          cases stop with
          | ag =>
              apply within_bind (needBuf_shrinks sock message)
              exact fun _ => within_pure _
          | ng =>
              apply within_bind (closing_shrinks depth sock)
              exact fun _ => within_pure _
      | ok read =>
          obtain ⟨result, rest⟩ := read
          cases result with
          | none => exact within_throw _
          | some result =>
              apply within_bind (command_shrinks names sock result)
              intro goesOn
              split
              · exact induction rest
              · exact within_pure _

end Within

/-- A nickname is chosen once. -/
def Chosen (s : Server Peers) : Prop :=
  ∀ {sock : Fd} {nick}, s.own.s2n[sock]? = some nick →
    s.own.stateful.getState sock = .cmd

/-- What holds in every state that is reached. -/
structure Registry (s : Server Peers) : Prop where
  registered : Registered s
  chosen : Chosen s

namespace Registry

variable {s after : Server Peers} (registry : Registry s)
include registry

theorem shrink (shrinks : Shrinks s after) :
    Registry after ∧ Holds s after := by
  obtain ⟨registered, fewer⟩ := shrinks registry.registered
  refine ⟨⟨registered, ?_⟩, fewer.holds⟩
  intro sock nick held
  rw [fewer.stateful]
  exact registry.chosen (fewer.holder registry.registered registered held)

/-- A client that has no nickname yet gets one that is free. -/
theorem name {client : Fd} {nick : Bytes}
    (isClient : s.roles[client]? = some .client)
    (choosing : s.own.stateful.getState client = .nick)
    (word : nick ≠ [] ∧ nick.all isWord = true)
    (free : s.own.n2s[nick]? = none) :
    Registered { s with own := s.own.setNick client nick } ∧
      Holds s { s with own := s.own.setNick client nick } := by
  have registered := registry.registered
  have nameless : s.own.s2n[client]? = none := by
    cases held : s.own.s2n[client]? with
    | none => rfl
    | some earlier =>
        rw [registry.chosen held] at choosing
        cases choosing
  have named : ∀ {sock other},
      (s.own.setNick client nick).s2n[sock]? = some other →
      (sock = client ∧ other = nick) ∨ s.own.s2n[sock]? = some other := by
    intro sock other held
    simp only [Peers.setNick, ExtTreeMap.getElem?_insert] at held
    split at held
    · next same =>
        cases held
        exact .inl ⟨(Std.LawfulEqCmp.eq_of_compare same).symm, rfl⟩
    · exact .inr held
  constructor
  · refine ⟨registered.only, registered.clients, registered.polled,
      registered.released, registered.known,
      registered.inverse.insert free nameless, ?_, ?_⟩
    · intro sock other held
      rcases named held with ⟨rfl, -⟩ | earlier
      · exact isClient
      · exact registered.holders earlier
    · intro sock other held
      rcases named held with ⟨-, rfl⟩ | earlier
      · exact word
      · exact registered.words earlier
  · intro other sock held
    have different : nick ≠ other := by
      rintro rfl
      rw [free] at held
      cases held
    have same : (s.own.setNick client nick).n2s[other]? = s.own.n2s[other]? := by
      simp only [Peers.setNick, ExtTreeMap.getElem?_insert]
      exact if_neg (by simpa using different)
    exact same.trans (registered.holds_refl other sock held)

/-- A client with an address is accepted. -/
theorem accept {client : Fd} (free : s.Free client) (addr : Address)
    (written : List Writing) :
    let accepted := watch client .client false { s.openFd client with
      own := { s.own.setAddr client addr with
        stateful := s.own.stateful.setState client .nick }
      written }
    Registry accepted ∧ Holds s accepted := by
  intro accepted
  have registered := registry.registered
  have roles : ∀ {fd role}, accepted.roles[fd]? = some role →
      (fd = client ∧ role = .client) ∨
        (fd ≠ client ∧ s.roles[fd]? = some role) := by
    intro fd role found
    change (s.roles.insert client .client)[fd]? = some role at found
    rw [ExtTreeMap.getElem?_insert] at found
    split at found
    · next same =>
        cases found
        exact .inl ⟨(Std.LawfulEqCmp.eq_of_compare same).symm, rfl⟩
    · next different =>
        exact .inr ⟨fun same => different (by simp [same]), found⟩
  have others : ∀ {fd}, s.roles[fd]? = some .client →
      fd ≠ client ∧ accepted.roles[fd]? = some .client := by
    intro fd isClient
    have different : fd ≠ client := by
      rintro rfl
      exact free.2 (registered.clients isClient).1
    refine ⟨different, ?_⟩
    change (s.roles.insert client .client)[fd]? = _
    rw [ExtTreeMap.getElem?_insert, if_neg (by simpa using different.symm)]
    exact isClient
  refine ⟨⟨⟨?_, ?_, ?_, ?_, ?_, registered.inverse, ?_, registered.words⟩, ?_⟩,
    ?_⟩
  · intro fd role found
    rcases roles found with ⟨-, same⟩ | ⟨-, earlier⟩
    · exact same
    · exact registered.only earlier
  · intro fd found
    rcases roles found with ⟨rfl, -⟩ | ⟨-, earlier⟩
    · exact ⟨List.mem_cons_self, fun member =>
        free.2 (registered.released fd member)⟩
    · obtain ⟨opened, kept⟩ := registered.clients earlier
      exact ⟨List.mem_cons_of_mem _ opened, kept⟩
  · intro fd member
    have polled : fd = client ∨ fd ∈ s.polled := by
      change fd ∈ (if s.roles.contains client && !false then s.polled
        else client :: s.polled) at member
      split at member
      · exact .inr member
      · exact List.mem_cons.mp member
    rcases polled with rfl | earlier
    · exact List.mem_cons_self
    · exact List.mem_cons_of_mem _ (registered.polled fd earlier)
  · intro fd member
    exact List.mem_cons_of_mem _ (registered.released fd member)
  · intro fd found
    change (s.own.sockAddrs.insert client addr).contains fd = true
    rw [ExtTreeMap.contains_insert]
    rcases roles found with ⟨rfl, -⟩ | ⟨-, earlier⟩
    · simp
    · rw [registered.known earlier, Bool.or_true]
  · intro sock nick held
    exact (others (registered.holders held)).2
  · intro sock nick held
    have different := (others (registered.holders held)).1
    change (s.own.stateful.setState client .nick).getState sock = .cmd
    unfold Stateful.getState
    rw [Stateful.getElem?_setState, if_neg different.symm]
    exact registry.chosen held
  · intro nick sock held
    have stays := (others (registered.holders
      ((registered.inverse nick sock).mp held))).2
    rw [if_pos stays]
    exact held

/-- Descriptors are closed at the end of a batch. -/
theorem flush : Registry { s with
    opened := s.opened.filter fun fd => fd ∉ s.released
    polled := s.polled.filter fun fd => fd ∉ s.released
    released := [] } := by
  have registered := registry.registered
  refine ⟨⟨registered.only, ?_, ?_, ?_, registered.known, registered.inverse,
    registered.holders, registered.words⟩, registry.chosen⟩
  · intro fd isClient
    obtain ⟨opened, kept⟩ := registered.clients isClient
    exact ⟨List.mem_filter.mpr ⟨opened, by simpa using kept⟩, List.not_mem_nil⟩
  · intro fd member
    obtain ⟨polled, kept⟩ := List.mem_filter.mp member
    exact List.mem_filter.mpr ⟨registered.polled fd polled, kept⟩
  · intro fd member
    cases member

variable {client : Fd} {world : Surroundings Names} {depth : Nat}
  {connect : Address → Fd → M Peers Fd}

/-- The first line of a client, or a part of it. -/
theorem chooseNick_keeps (isClient : s.roles[client]? = some .client)
    (choosing : s.own.stateful.getState client = .nick) (message : Bytes) :
    Returns (chooseNick
      (hostWith world (closing world service depth · false) connect) client
      message) s fun _ after => Registry after ∧ Holds s after := by
  have shrinks : ∀ {computation : M Peers Unit}, Within Shrinks computation →
      Returns computation s fun _ after => Registry after ∧ Holds s after := by
    intro computation within
    apply (within.returns s).weaken
    exact fun _ _ => registry.shrink
  have writes : ∀ text, Within Shrinks (writeLine
      (hostWith world (closing world service depth · false) connect) client
      text) := writeLine_shrinks client
  unfold chooseNick
  cases Utils.splitAt (ascii "\n") message with
  | none =>
      apply shrinks
      apply within_bind (needBuf_shrinks client message)
      exact fun _ => within_pure _
  | some read =>
      obtain ⟨line, rest⟩ := read
      dsimp only
      cases matched : matchNick (line ++ ascii "\n") with
      | none => exact shrinks (writes _)
      | some nick =>
          apply returns_modifyGet_bind
          split
          · exact shrinks (writes _)
          · next untaken =>
              have free : s.own.n2s[nick]? = none := by
                simpa using untaken
              obtain ⟨registered, holds⟩ :=
                registry.name isClient choosing (matchNick_word matched) free
              apply returns_modifyGet_bind
              apply returns_bind ((writes _).returns _)
              intro _ first fewer
              apply returns_bind ((writes _).returns first)
              intro _ second fewerStill
              obtain ⟨kept, fewer⟩ := trans_of Shrinks fewer fewerStill registered
              let chosen : Peers := { second.own with
                stateful := second.own.stateful.setState client .cmd }
              have aside : Registered { second with own := chosen } :=
                kept.aside chosen rfl rfl rfl second.bufferable second.written
              apply returns_modifyGet
              refine ⟨⟨aside, ?_⟩, ?_⟩
              · intro sock other held
                have earlier := fewer.holder registered kept held
                change (second.own.stateful.setState client .cmd).getState sock =
                  .cmd
                unfold Stateful.getState
                rw [Stateful.getElem?_setState, fewer.stateful]
                split
                · rfl
                · next different =>
                    apply registry.chosen
                    rw [← earlier]
                    simp only [Peers.setNick, ExtTreeMap.getElem?_insert]
                    exact (if_neg (by simpa using different)).symm
              · intro other sock held
                apply fewer.holds other sock
                rw [holds other sock held]
                exact if_pos (registry.registered.holders
                  ((registry.registered.inverse other sock).mp held))

theorem message_keeps {piece : Bytes} (before : Server Peers)
    (isClient : s.roles[client]? = some .client) :
    Returns (service.onMessage world.handler (host world service before) client
      piece) s fun _ after => Registry after ∧ Holds s after := by
  apply returns_modifyGet_bind
  apply returns_modifyGet_bind
  let bufferable := (s.bufferable.appendBuf client piece).2
  have appended : Registry { s with bufferable } :=
    (registry.shrink (shrinks_aside s bufferable s.written)).1
  dsimp only
  cases state : s.own.stateful.getState client with
  | nick => exact appended.chooseNick_keeps isClient state _
  | cmd =>
      apply ((readCommands_shrinks world.handler client _ _).returns _).weaken
      exact fun _ _ => appended.shrink

/-- What every step keeps. -/
theorem step {event : Server.Event Names} (allowed : s.Allows event)
    (named : Named s event) :
    Returns (perform service event) s fun _ after =>
      Registry after ∧ Holds s after := by
  have registered := registry.registered
  cases event with
  | accept client world =>
      have unpolled : client ∉ (s.openFd client).polled := by
        intro member
        exact allowed.1.2 (registered.polled client member)
      apply returns_modify_bind
      apply returns_get_bind
      have greeted : Returns (onConnect (host world service (s.openFd client))
          world.handler client) (s.openFd client) fun _ after =>
            ∃ addr written, after = { s.openFd client with
              own := { s.own.setAddr client addr with
                stateful := s.own.stateful.setState client .nick }
              written } := by
        unfold onConnect
        cases peer : world.handler.peer with
        | none => exact absurd peer named
        | some addr =>
            apply returns_modifyGet_bind
            apply returns_bind (writeLine_unpolled (by exact unpolled) world _ _)
            rintro _ _ ⟨written, rfl⟩
            exact returns_modifyGet ⟨addr, written, rfl⟩
      apply returns_bind greeted
      rintro _ _ ⟨addr, written, rfl⟩
      exact returns_modify (registry.accept allowed.1 addr written)
  | message client piece world =>
      apply returns_get_bind
      exact registry.message_keeps s allowed.1.1
  | clientClosed client world =>
      apply returns_get_bind
      apply returns_bind ((closing_shrinks _ client).returns s)
      intro _ after shrinks
      exact returns_pure (registry.shrink shrinks)
  | connected remote world =>
      obtain ⟨client, isRole, -⟩ := allowed
      cases registered.only isRole
  | connectFailed remote world =>
      obtain ⟨client, isRole, -⟩ := allowed
      cases registered.only isRole
  | remoteMessage remote piece world =>
      obtain ⟨⟨client, isRole, -⟩, -⟩ := allowed
      cases registered.only isRole
  | remoteClosed remote world =>
      obtain ⟨client, isRole, -⟩ := allowed
      cases registered.only isRole
  | flush => exact returns_modify ⟨registry.flush, registered.holds_refl⟩

end Registry

theorem registry_of_reached {s : Server Peers}
    (reached : Reached service Named s) : Registry s := by
  induction reached with
  | start =>
      refine ⟨⟨?_, ?_, ?_, ?_, ?_, .empty, ?_, ?_⟩, ?_⟩ <;>
        simp [service, Chosen]
  | step earlier allowed named returned registry =>
      exact ((registry.step allowed named).holds _ _ returned).1

/-- Both maps are inverse to each other, and a nickname is a word that one open
client holds, after it was told that it may type commands.  The nickname stays
with the client until that is closed, and is free then.  All of this is so as
long as every client that is accepted has an address. -/
theorem nicknames_registered {s : Server Peers}
    (reached : Reached service Named s) :
    Pairing.Inverse s.own.n2s s.own.s2n ∧
    (∀ (nick : Bytes) (sock : Fd), s.own.n2s[nick]? = some sock →
      (nick ≠ [] ∧ nick.all isWord = true) ∧
      s.roles[sock]? = some .client ∧ sock ∈ s.opened ∧ sock ∉ s.released ∧
      s.own.stateful.getState sock = .cmd ∧
      s.own.sockAddrs.contains sock = true) ∧
    ∀ (event : Server.Event Names) (after : Server Peers), s.Allows event →
      Named s event → perform service event s = .ok () after →
      ∀ (nick : Bytes) (sock : Fd), s.own.n2s[nick]? = some sock →
        after.own.n2s[nick]? =
          if after.roles[sock]? = some .client then some sock else none := by
  have registry := registry_of_reached reached
  have registered := registry.registered
  refine ⟨registered.inverse, ?_, ?_⟩
  · intro nick sock held
    have backward := (registered.inverse nick sock).mp held
    have isClient := registered.holders backward
    obtain ⟨opened, kept⟩ := registered.clients isClient
    exact ⟨registered.words backward, isClient, opened, kept,
      registry.chosen backward, registered.known isClient⟩
  · intro event after allowed named returned
    exact ((registry.step allowed named).holds _ _ returned).2

/-- A client that calls itself bob. -/
def bob : Server Peers :=
  next service (next service { own := service.start } (.accept 5 sampleNames))
    (.message 5 (ascii "bob\n") sampleNames)

/-- The nickname of a client that is closed is free. -/
theorem nickname_freed :
    bob.own.n2s[ascii "bob"]? = some 5 ∧
      (next service bob (.clientClosed 5 sampleNames)).own.n2s[ascii "bob"]? =
        none := by
  have accepted : Reached service Named
      (next service { own := service.start } (.accept 5 sampleNames)) := by
    apply Reached.accepted sampleNames rfl _ (by decide +kernel)
    exact Option.some_ne_none _
  have reached : Reached service Named bob := by
    apply accepted.followed (.message 5 (ascii "bob\n") sampleNames) _ trivial
    · decide +kernel
    · exact ⟨⟨by decide +kernel, by decide +kernel⟩, .quiet rfl⟩
  have held : bob.own.n2s[ascii "bob"]? = some 5 := by decide +kernel
  refine ⟨held, ?_⟩
  have allowed : bob.Allows (.clientClosed 5 sampleNames) :=
    ⟨by decide +kernel, by decide +kernel⟩
  have closes : perform service (.clientClosed 5 sampleNames) bob = .ok ()
      (next service bob (.clientClosed 5 sampleNames)) :=
    eq_ok_final (by decide +kernel)
  have left := (nicknames_registered reached).2.2 _ _ allowed trivial closes
    (ascii "bob") 5 held
  rw [left]
  exact if_neg (by decide +kernel)

/-- A client that was gone when `on_connect` asked for its address. -/
def sampleNameless : Surroundings Names where
  handler := ⟨none, fun _ => none⟩

/-- A client without an address is told to be closed, before it is watched, and
chooses a nickname. -/
theorem nickname_without_address :
    ∃ s, Reached service (fun _ _ => True) s ∧
      s.own.n2s[ascii "bob"]? = some 5 ∧
      s.own.sockAddrs.contains 5 = false := by
  have accepted : Reached service (fun _ _ => True)
      (next service { own := service.start } (.accept 5 sampleNameless)) :=
    .accepted sampleNameless rfl trivial (by decide +kernel)
  have chosen := accepted.followed (.message 5 (ascii "bob\n") sampleNames)
    ⟨⟨by decide +kernel, by decide +kernel⟩, .quiet rfl⟩ trivial
    (by decide +kernel)
  exact ⟨_, chosen, by decide +kernel, by decide +kernel⟩

end EasyP2P

end Universe
