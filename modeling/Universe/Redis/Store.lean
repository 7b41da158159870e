import Universe.Redis.Correspondence

/-!
# What the callbacks see of the data

To its callbacks a server is a map that performs their commands one after the
other, however the commands are pipelined and the replies are cut.
-/

namespace Universe

namespace Redis

open Incremental Protocol

section Requests

/-- The commands there are packets for. -/
inductive Request where
  | get (key : Bytes)
  | set (key value : Bytes) (ex px : Option Int32) (nxxx : Option NXXX)
  deriving DecidableEq

namespace Request

def packet : Request → Bytes
  | .get key => packetGet key
  | .set key value ex px nxxx =>
      packetSet key value (ex.map Int32.toInt) (px.map Int32.toInt) nxxx

/-- What the packet carries. -/
def arguments : Request → List Bytes
  | .get key => [ascii "GET", key]
  | .set key value ex px nxxx => sentArguments key value ex px nxxx

/-- The strings have a length that can be written. -/
def Fits : Request → Prop
  | .get key => key.length < 2 ^ 63
  | .set key value _ _ _ => key.length < 2 ^ 63 ∧ value.length < 2 ^ 63

theorem carries_packet {r : Request} (fits : r.Fits) :
    Carries r.packet r.arguments := by
  cases r with
  | get key =>
      have fit : ∀ text ∈ [ascii "GET", key], text.length < 2 ^ 63 := by
        intro text member
        rcases List.mem_pair.mp member with rfl | rfl
        · decide
        · exact fits
      have carried : Carries
          (createCmd (.text (ascii "GET")) ([key].map .text))
          [ascii "GET", key] :=
        carries_createCmd (show 2 < 2 ^ 63 by decide) fit
      exact carried
  | set key value ex px nxxx =>
      exact carries_packetSet fits.1 fits.2 ex px nxxx

end Request

/-- Whether `SET` may set a key that has this value. -/
def NXXX.permits : NXXX → Option Bytes → Bool
  | .nx, value => value.isNone
  | .xx, value => value.isSome

/-- What a request does to a map, with the reply.  A time to live is sent as an
option that there is not. -/
def Request.Meets (r : Request) (before : Bytes → Option Bytes) (reply : Resp)
    (after : Bytes → Option Bytes) : Prop :=
  match r with
  | .get key => reply = (before key).elim .null .bulk ∧ after = before
  | .set key value none none nxxx =>
      if nxxx.all (·.permits (before key)) then
        reply = .simple (ascii "OK") ∧
          after = Function.update before key (some value)
      else reply = .null ∧ after = before
  | .set .. => (∃ text, reply = .error text) ∧ after = before

/-- The replies of a map that performs these requests in their order. -/
inductive Sequential :
    (Bytes → Option Bytes) → List Request → List Resp → Prop where
  | nil (contents : Bytes → Option Bytes) : Sequential contents [] []
  | cons {before after : Bytes → Option Bytes} {r : Request} {reply : Resp}
      {requests : List Request} {replies : List Resp}
      (meets : r.Meets before reply after)
      (later : Sequential after requests replies) :
      Sequential before (r :: requests) (reply :: replies)

end Requests

/-- A server, with what is documented of `GET` and `SET`. -/
structure Store (σ : Type) where
  execute : List Bytes → σ → Resp × σ
  contents : σ → Bytes → Option Bytes
  get : ∀ key s,
    (execute [ascii "GET", key] s).1 = (contents s key).elim .null .bulk ∧
    contents (execute [ascii "GET", key] s).2 = contents s
  set : ∀ key value s,
    (execute [ascii "SET", key, value] s).1 = .simple (ascii "OK") ∧
    contents (execute [ascii "SET", key, value] s).2 =
      Function.update (contents s) key (some value)
  setIf : ∀ key value (nxxx : NXXX) s,
    (execute [ascii "SET", key, value, nxxx.enumString] s).1 =
      (if nxxx.permits (contents s key) then .simple (ascii "OK") else .null) ∧
    contents (execute [ascii "SET", key, value, nxxx.enumString] s).2 =
      if nxxx.permits (contents s key)
      then Function.update (contents s) key (some value) else contents s
  /-- No option has a blank in it. -/
  refuses : ∀ key value option more s, 32 ∈ option →
    (∃ text,
      (execute ([ascii "SET", key, value, option] ++ more) s).1 =
        .error text) ∧
    contents (execute ([ascii "SET", key, value, option] ++ more) s).2 =
      contents s

namespace Store

variable {σ : Type} (store : Store σ)

/-- The replies to commands one after the other. -/
def replies : σ → List (List Bytes) → List Resp
  | _, [] => []
  | s, command :: commands =>
      (store.execute command s).1 ::
        replies (store.execute command s).2 commands

/-- A reply depends on the commands up to its own. -/
theorem replies_take (s : σ) (commands : List (List Bytes)) (count : Nat) :
    store.replies s (commands.take count) =
      (store.replies s commands).take count := by
  induction commands generalizing s count with
  | nil =>
      rw [List.take_nil]
      exact List.take_nil.symm
  | cons command commands induction =>
      cases count with
      | zero => rfl
      | succ count =>
          unfold replies
          rw [List.take_succ_cons]
          exact congrArg _ (induction _ count)

theorem meets_execute (r : Request) (s : σ) :
    r.Meets (store.contents s) (store.execute r.arguments s).1
      (store.contents (store.execute r.arguments s).2) := by
  cases r with
  | get key => exact store.get key s
  | set key value ex px nxxx =>
      have refused : ∀ option more, 32 ∈ option →
          Request.arguments (.set key value ex px nxxx) =
            [ascii "SET", key, value, option] ++ more →
          (∃ text,
            (store.execute (Request.arguments (.set key value ex px nxxx))
              s).1 = .error text) ∧
          store.contents (store.execute
            (Request.arguments (.set key value ex px nxxx)) s).2 =
              store.contents s := by
        intro option more blank same
        rw [same]
        exact store.refuses key value option more s blank
      cases px with
      | some px =>
          have nothing := refused (ascii "PX " ++ decimal px.toInt)
            (nxxx.map NXXX.enumString).toList
            (List.mem_append_left _ (by decide)) rfl
          cases ex with
          | none => exact nothing
          | some ex => exact nothing
      | none =>
          cases ex with
          | some ex =>
              exact refused (ascii "EX " ++ decimal ex.toInt)
                (nxxx.map NXXX.enumString).toList
                (List.mem_append_left _ (by decide)) rfl
          | none =>
              cases nxxx with
              | none => exact store.set key value s
              | some nxxx =>
                  obtain ⟨reply, contents⟩ := store.setIf key value nxxx s
                  change if nxxx.permits (store.contents s key) = true then _
                    else _
                  by_cases permits : nxxx.permits (store.contents s key) = true
                  · rw [if_pos permits]
                    rw [if_pos permits] at reply contents
                    exact ⟨reply, contents⟩
                  · rw [if_neg permits]
                    rw [if_neg permits] at reply contents
                    exact ⟨reply, contents⟩

theorem sequential_replies (s : σ) (requests : List Request) :
    Sequential (store.contents s) requests
      (store.replies s (requests.map Request.arguments)) := by
  induction requests generalizing s with
  | nil => exact .nil _
  | cons r requests induction =>
      exact .cons (store.meets_execute r s) (induction _)

end Store

/-- The bytes begin with packets that carry these commands. -/
def Receives (wire : Bytes) (commands : List (List Bytes)) : Prop :=
  ∃ packets rest, wire = packets.flatten ++ rest ∧
    List.Forall₂ Carries packets commands

/-- The bytes say what the commands are. -/
theorem Receives.unique {wire : Bytes} {first second : List (List Bytes)}
    (one : Receives wire first) (other : Receives wire second)
    (same : first.length = second.length) : first = second := by
  obtain ⟨packets, rest, rfl, carries⟩ := one
  obtain ⟨others, left, wire, carry⟩ := other
  induction carries generalizing others second with
  | nil => exact (List.eq_nil_of_length_eq_zero same.symm).symm
  | @cons packet arguments packets first carries more induction =>
      cases carry with
      | nil => cases same
      | @cons another arguments' others second carry later =>
          rw [List.flatten_cons, List.flatten_cons, List.append_assoc,
            List.append_assoc] at wire
          have read := parseResponse_of_reads carries.lenient_of_strict
            (packets.flatten ++ rest)
          rw [wire, parseResponse_of_reads carry.lenient_of_strict] at read
          simp only [Except.ok.injEq, Prod.mk.injEq, Option.some.injEq,
            RedisReply.mk.injEq, true_and] at read
          obtain ⟨listed, ended⟩ := read
          have injective : Function.Injective
              fun argument => RedisReply.mk 36 argument [] := by
            intro left right equal
            cases equal
            rfl
          have head := List.map_injective_iff.mpr injective listed
          rw [head, induction (Nat.succ.inj same) others ended.symm later]

section Sessions

variable {κ σ : Type} {maxSize : Nat} {program : Program κ} {client : Fd}

/-- A step in which all commands are requests with callbacks, and the server
answers the next command it has got. -/
structure Served (store : Store σ) (start : σ) (before : Session κ)
    (event : Event κ) (after : Session κ) : Prop where
  asks : ∀ command ∈ after.issued, command.callback.isSome ∧
    ∃ r : Request, r.Fits ∧ command.packet = r.packet
  answers : ∀ reply, event = .answer reply → ∃ commands,
    Receives before.connection.own.wire commands ∧
    commands.length = before.answers.length + 1 ∧
    (store.replies start commands)[before.answers.length]? = some reply

/-- The requests of a session and the replies they have had. -/
structure Follows (store : Store σ) (start : σ) (s : Session κ) : Prop where
  asks : ∀ command ∈ s.issued, command.callback.isSome ∧
    ∃ r : Request, r.Fits ∧ command.packet = r.packet
  answered : ∀ requests : List Request,
    s.issued.map Issued.packet = requests.map Request.packet →
    (∀ r ∈ requests, r.Fits) →
    s.answers = (store.replies start
      (requests.map Request.arguments)).take s.answers.length

theorem exists_requests {issued : List (Issued κ)}
    (asks : ∀ command ∈ issued, ∃ r : Request, r.Fits ∧
      command.packet = r.packet) :
    ∃ requests : List Request,
      issued.map Issued.packet = requests.map Request.packet ∧
      ∀ r ∈ requests, r.Fits := by
  induction issued with
  | nil => exact ⟨[], rfl, fun r impossible => nomatch impossible⟩
  | cons command issued induction =>
      obtain ⟨r, fits, packet⟩ := asks command List.mem_cons_self
      obtain ⟨requests, packets, fit⟩ :=
        induction fun other member => asks other (.tail _ member)
      refine ⟨r :: requests, ?_, ?_⟩
      · rw [List.map_cons, List.map_cons, packet, packets]
      · intro other member
        rcases List.mem_cons.mp member with rfl | later
        · exact fits
        · exact fit other later

theorem carries_packets {requests : List Request}
    (fit : ∀ r ∈ requests, r.Fits) :
    List.Forall₂ Carries (requests.map Request.packet)
      (requests.map Request.arguments) := by
  induction requests with
  | nil => exact .nil
  | cons r requests induction =>
      exact .cons (Request.carries_packet (fit r List.mem_cons_self))
        (induction fun other member => fit other (.tail _ member))

/-- No command is taken back. -/
theorem next_issued (s : Session κ) (event : Event κ) :
    s.issued <+: (next maxSize program client s event).issued := by
  cases event with
  | issue call => exact (issue_grows s.connection call).issued
  | flush takes => exact List.prefix_rfl
  | answer reply => exact List.prefix_rfl
  | deliver size =>
      change s.connection.own.issued <+: (deliver program client maxSize
        s.connection (s.stream.take size)).own.issued
      rw [deliver_eq]
      unfold Connection.deliver
      split
      · rw [Connection.settled_own]
        let appended := s.connection.bufferable.appendBuf client
          (s.stream.take size)
        exact readItems_issued (parseResponse maxSize) _
          (appended.1.length + 1) appended.1
          (s.connection.keeping appended.2)
      · exact List.prefix_rfl

theorem Follows.started (store : Store σ) (start : σ)
    (others : RedisCallbacks κ) : Follows store start (started others) := by
  constructor
  · intro command impossible
    cases impossible
  · intro requests _ _
    exact List.take_zero.symm

/-- What has been answered does not depend on the later requests. -/
theorem Follows.grow {store : Store σ} {start : σ} {s after : Session κ}
    (follows : Follows store start s)
    (few : s.answers.length ≤ s.issued.length)
    (grown : s.issued <+: after.issued) (answers : after.answers = s.answers)
    (asks : ∀ command ∈ after.issued, command.callback.isSome ∧
      ∃ r : Request, r.Fits ∧ command.packet = r.packet) :
    Follows store start after := by
  refine ⟨asks, ?_⟩
  intro requests packets fit
  rw [answers]
  obtain ⟨more, whole⟩ := grown
  have split : s.issued.map Issued.packet ++ more.map Issued.packet =
      requests.map Request.packet := by
    rw [← List.map_append, whole, packets]
  obtain ⟨first, later, rfl, begins, -⟩ := List.append_eq_map_iff.mp split
  have earlier := follows.answered first begins.symm
    fun r member => fit r (List.mem_append_left _ member)
  have size : first.length = s.issued.length := by
    have same := congrArg List.length begins
    rw [List.length_map, List.length_map] at same
    exact same
  refine earlier.trans ?_
  rw [List.map_append, ← Store.replies_take, ← Store.replies_take,
    List.take_append_of_le_length]
  rw [List.length_map]
  omega

/-- The server has got the requests that it answers. -/
theorem Follows.answer {store : Store σ} {start : σ} {s : Session κ}
    (follows : Follows store start s) {reply : Resp}
    (arrived : s.Arrived (s.answers.length + 1)) {commands : List (List Bytes)}
    (receives : Receives s.connection.own.wire commands)
    (count : commands.length = s.answers.length + 1)
    (replied : (store.replies start commands)[s.answers.length]? = some reply) :
    Follows store start { s with
      answers := s.answers ++ [reply]
      stream := s.stream ++ reply.encode } := by
  refine ⟨follows.asks, ?_⟩
  intro requests packets fit
  have earlier := follows.answered requests packets fit
  obtain ⟨few, rest, wire⟩ := arrived
  have size : requests.length = s.issued.length := by
    have same := congrArg List.length packets
    rw [List.length_map, List.length_map] at same
    exact same.symm
  have sent : Receives s.connection.own.wire
      ((requests.take (s.answers.length + 1)).map Request.arguments) := by
    refine ⟨(requests.take (s.answers.length + 1)).map Request.packet, rest,
      ?_, carries_packets fun r member => fit r (List.mem_of_mem_take member)⟩
    rw [← wire, List.flatMap_def, List.map_take, packets, ← List.map_take]
  have same : commands =
      (requests.take (s.answers.length + 1)).map Request.arguments := by
    apply receives.unique sent
    rw [count, List.length_map, List.length_take_of_le (by omega)]
  rw [same, List.map_take, Store.replies_take,
    List.getElem?_take_of_lt (Nat.lt_succ_self _)] at replied
  change s.answers ++ [reply] = List.take (s.answers ++ [reply]).length _
  rw [List.length_append, List.length_singleton, List.take_add_one, replied,
    ← earlier]
  rfl

theorem Follows.next {store : Store σ} {start : σ} {s : Session κ}
    (follows : Follows store start s) (orderly : Orderly maxSize client s)
    {event : Event κ} (possible : Possible maxSize s event)
    (served : Served store start s event
      (next maxSize program client s event)) :
    Follows store start (Redis.next maxSize program client s event) := by
  have grown : s.issued <+:
      (Redis.next maxSize program client s event).issued :=
    next_issued s event
  cases event with
  | issue call => exact follows.grow orderly.answered grown rfl served.asks
  | flush takes => exact follows.grow orderly.answered grown rfl served.asks
  | answer reply =>
      obtain ⟨commands, receives, count, replied⟩ := served.answers reply rfl
      exact follows.answer possible.2 receives count replied
  | deliver size => exact follows.grow orderly.answered grown rfl served.asks

end Sessions

/-- The callbacks of a session see a map: they are called in the order of their
requests, with the replies of a map that has performed these requests one after
the other. -/
theorem callbacks_see_a_map {κ σ : Type} (store : Store σ) (start : σ)
    {maxSize : Nat} {program : Program κ} {client : Fd}
    {others : RedisCallbacks κ} (fresh : others[client]? = none)
    {s : Session κ}
    (reached : Reached maxSize program client (Served store start)
      (started others) s) :
    ∃ (requests : List Request) (replies : List Resp),
      s.issued.map Issued.packet = requests.map Request.packet ∧
      replies.length ≤ requests.length ∧
      Sequential (store.contents start) (requests.take replies.length)
        replies ∧
      calls s.connection.trace = owned s.issued replies ∧
      (s.stream = [] → replies.length = s.answers.length) := by
  have kept : Orderly maxSize client s ∧ Follows store start s := by
    apply Stepwise.invariant_of_steps _ reached
      ⟨orderly_started fresh, .started store start others⟩
    intro before after holds step
    obtain ⟨orderly, follows⟩ := holds
    obtain ⟨event, possible, rfl, served⟩ := step
    refine ⟨orderly_next orderly possible ?_,
      follows.next orderly possible served⟩
    exact careful_of_called (fun command member =>
      (follows.asks command member).1)
      (fun command member => (served.asks command member).1)
  obtain ⟨orderly, follows⟩ := kept
  obtain ⟨requests, packets, fit⟩ :=
    exists_requests fun command member => (follows.asks command member).2
  have size : requests.length = s.issued.length := by
    have same := congrArg List.length packets
    rw [List.length_map, List.length_map] at same
    exact same.symm
  have few := orderly.synced.few
  have within := orderly.within
  have given := follows.answered requests packets fit
  have dealtSize : (s.answers.take (dealt s.connection.trace)).length =
      dealt s.connection.trace := List.length_take_of_le within
  refine ⟨requests, s.answers.take (dealt s.connection.trace), packets, ?_, ?_,
    ?_, ?_⟩
  · rw [dealtSize, size]
    exact few
  · rw [dealtSize, given, List.take_take, Nat.min_eq_left within,
      ← Store.replies_take, ← List.map_take]
    exact store.sequential_replies start _
  · have paired : ∀ count, (s.issued.take count).zip (s.answers.take count) =
        s.issued.zip (s.answers.take count) := by
      intro count
      rw [List.zip_eq_zipWith, List.zip_eq_zipWith,
        ← List.take_of_length_le (l := List.zipWith _ s.issued _) (i := count),
        List.take_zipWith, List.take_take, Nat.min_self]
      rw [List.length_zipWith, List.length_take]
      omega
    have called : calls s.connection.trace =
        owned (s.issued.take (dealt s.connection.trace))
          (s.answers.take (dealt s.connection.trace)) :=
      (congrArg calls orderly.trace).trans (calls_seen _ _)
    rw [called]
    unfold owned
    rw [paired]
  · intro arrived
    rw [dealtSize]
    exact orderly.all_dealt arrived

/-- A map as a server. -/
def mapStore : Store (Bytes → Option Bytes) where
  execute command contents :=
    match command with
    | [_, key] => ((contents key).elim .null .bulk, contents)
    | [_, key, value] =>
        (.simple (ascii "OK"), Function.update contents key (some value))
    | [_, key, value, option] =>
        if option = ascii "NX" then
          if (contents key).isNone then
            (.simple (ascii "OK"), Function.update contents key (some value))
          else (.null, contents)
        else if option = ascii "XX" then
          if (contents key).isSome then
            (.simple (ascii "OK"), Function.update contents key (some value))
          else (.null, contents)
        else (.error (ascii "ERR syntax error"), contents)
    | _ => (.error (ascii "ERR syntax error"), contents)
  contents contents := contents
  get key contents := ⟨rfl, rfl⟩
  set key value contents := ⟨rfl, rfl⟩
  setIf key value nxxx contents := by
    cases nxxx with
    | nx =>
        cases found : contents key with
        | none => simp [NXXX.enumString, NXXX.permits, found]
        | some old => simp [NXXX.enumString, NXXX.permits, found]
    | xx =>
        have different : ascii "XX" ≠ ascii "NX" := by decide
        cases found : contents key with
        | none => simp [NXXX.enumString, NXXX.permits, found, different]
        | some old => simp [NXXX.enumString, NXXX.permits, found, different]
  refuses key value option more contents blank := by
    have notNx : option ≠ ascii "NX" := by
      rintro rfl
      revert blank
      decide
    have notXx : option ≠ ascii "XX" := by
      rintro rfl
      revert blank
      decide
    cases more with
    | nil =>
        refine ⟨⟨ascii "ERR syntax error", ?_⟩, ?_⟩
        · simp [notNx, notXx]
        · simp [notNx, notXx]
    | cons another more => exact ⟨⟨_, rfl⟩, rfl⟩

/-- A request that is written at once. -/
def sampleRequest (byte : UInt8) (r : Request) (callback : String) :
    Call String where
  requestId := .filled byte
  packet := r.packet
  callback := some callback
  takes := 1000
  checked := true

def sampleSet : Request := .set (ascii "k") (ascii "v") none none none

def sampleGet : Request := .get (ascii "k")

/-- A key is set and read, with the replies cut within the second one. -/
def samplePipeline : List (Event String) :=
  [.issue (sampleRequest 1 sampleSet "set"),
    .issue (sampleRequest 2 sampleGet "get"), .answer (.simple (ascii "OK")),
    .answer (.bulk (ascii "v")), .deliver 7, .deliver 100]

def samplePipelined : Session String :=
  samplePipeline.foldl (next 100 (fun _ _ _ => []) 6) (started ∅)

theorem value_is_read_back :
    ∃ (requests : List Request) (replies : List Resp),
      requests.length = 2 ∧ replies.length = 2 ∧
      Sequential (fun _ => none) requests replies ∧
      calls samplePipelined.connection.trace =
        owned samplePipelined.issued replies := by
  have setFits : sampleSet.Fits := ⟨by decide, by decide⟩
  have getFits : sampleGet.Fits := show 1 < 2 ^ 63 by decide
  have asks : ∀ after : Session String,
      (∀ command ∈ after.issued, command.callback.isSome ∧
        (command.packet = sampleSet.packet ∨
          command.packet = sampleGet.packet)) →
      ∀ command ∈ after.issued, command.callback.isSome ∧
        ∃ r : Request, r.Fits ∧ command.packet = r.packet := by
    intro after all command member
    obtain ⟨has, packet | packet⟩ := all command member
    · exact ⟨has, sampleSet, setFits, packet⟩
    · exact ⟨has, sampleGet, getFits, packet⟩
  have one : Receives (sampleSet.packet ++ sampleGet.packet)
      [sampleSet.arguments] :=
    ⟨[sampleSet.packet], sampleGet.packet, by simp,
      .cons (Request.carries_packet setFits) .nil⟩
  have both : Receives (sampleSet.packet ++ sampleGet.packet)
      [sampleSet.arguments, sampleGet.arguments] :=
    ⟨[sampleSet.packet, sampleGet.packet], [], by simp,
      .cons (Request.carries_packet setFits)
        (.cons (Request.carries_packet getFits) .nil)⟩
  have admits : Admits 100 (fun _ _ _ => []) 6
      (Served mapStore fun _ => none) (started ∅) samplePipeline := by
    refine ⟨rfl, ⟨asks _ (by decide +kernel), ?_⟩, rfl,
      ⟨asks _ (by decide +kernel), ?_⟩,
      ⟨by simp [Resp.Valid, ascii], by decide +kernel, by decide +kernel⟩,
      ⟨asks _ (by decide +kernel), ?_⟩,
      ⟨⟨by decide, by decide⟩, by decide +kernel, by decide +kernel⟩,
      ⟨asks _ (by decide +kernel), ?_⟩, trivial,
      ⟨asks _ (by decide +kernel), ?_⟩, trivial,
      ⟨asks _ (by decide +kernel), ?_⟩, trivial⟩
    · rintro reply ⟨⟩
    · rintro reply ⟨⟩
    · rintro reply ⟨⟩
      exact ⟨_, one, rfl, rfl⟩
    · rintro reply ⟨⟩
      exact ⟨_, both, rfl, rfl⟩
    · rintro reply ⟨⟩
    · rintro reply ⟨⟩
  obtain ⟨requests, replies, packets, few, sequential, called, whole⟩ :=
    callbacks_see_a_map mapStore (fun _ => none) (by simp)
      (reached_of_admits admits)
  have count : replies.length = 2 := whole (by decide +kernel)
  have size : requests.length = 2 := by
    have same := congrArg List.length packets
    rw [List.length_map, List.length_map] at same
    exact same.symm
  rw [count, ← size, List.take_length] at sequential
  exact ⟨requests, replies, size, count, sequential, called⟩

end Redis

end Universe
