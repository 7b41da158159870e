import Universe.Library.Memo
import Universe.Php

/-!
# Connections to databases

`AConnectionManager` and `MasterSlaveManager` keep what they have made under
the host and the port.  The configuration names the user, the database and the
encoding as well.
-/

namespace Universe.Php

open Memo

/-- `Client\MySQL` and `Client\Redis`, and the managers that go with them. -/
inductive ClientClass where
  | mySQL
  | redis
  deriving DecidableEq

/-- `sprintf('%s:%s', $info['host'], $info['port'])`. -/
def singletonKey (info : Value) : Bytes :=
  (info.index (.text (ascii "host"))).toText ++ ascii ":" ++
    (info.index (.text (ascii "port"))).toText

structure ConsistentHash where
  totalWeight : Int := 0
  targetList : List (Value × Int) := []

namespace ConsistentHash

/-- `crc32` of a variable that is not set. -/
def hash (_resource : Int) : Int := 0

/-- `addTarget`; a weight that cannot be added ends the process. -/
def addTarget (hasher : ConsistentHash) (target weight : Value) :
    Option ConsistentHash := do
  let number ← weight.toNumber
  return {
    totalWeight := hasher.totalWeight + number
    targetList := hasher.targetList ++ [(target, number)] }

/-- `$position < $current_weight`, where the remainder of a division by 0 is
`false`. -/
def below (position : Option Int) (weight : Int) : Bool :=
  match position with
  | some position => position < weight
  | none => weight != 0

def search (position : Option Int) (weight : Int) :
    List (Value × Int) → Value
  | [] => .null
  | target :: rest =>
      if below position (weight + target.2) then target.1
      else search position (weight + target.2) rest

def lookupTarget (hasher : ConsistentHash) (resource : Int) : Value :=
  let position :=
    if hasher.totalWeight = 0 then none
    else some ((hash resource).tmod hasher.totalWeight)
  search position 0 hasher.targetList

end ConsistentHash

/-- `MasterSlaveManager`. -/
structure MasterSlaveManager where
  hasher : ConsistentHash
  mstInfo : Value

namespace MasterSlaveManager

/-- `addSlaveInfo`. -/
def addSlaveInfo (hasher : ConsistentHash) (info : Value) :
    Option ConsistentHash :=
  hasher.addTarget info
    (if info.isset (.text (ascii "weight"))
      then info.index (.text (ascii "weight")) else .int 1)

/-- The constructor. -/
def new (info : Value) : Option MasterSlaveManager := do
  let slaves := .text (ascii "slaves")
  let slaveInfos :=
    if info.isset slaves && (info.index slaves).truthy
      then (info.index slaves).elements else []
  let hasher ← slaveInfos.foldlM addSlaveInfo {}
  return { hasher, mstInfo := info }

/-- What `getMaster` and `getSlave` connect to; `rand` is the argument of
`lookupTarget`. -/
inductive Role where
  | master
  | slave (rand : Int)

def info (manager : MasterSlaveManager) : Role → Value
  | .master => manager.mstInfo
  | .slave rand =>
      let slaveInfo := manager.hasher.lookupTarget rand
      if slaveInfo.truthy then slaveInfo else manager.mstInfo

end MasterSlaveManager

/-- The options of `getShard`; `shardIdCmp` is the given comparison, or `==`
where none is given. -/
structure ShardOptions where
  shardId : Value := .null
  shardIdCmp : Value → Value → Bool := fun _ _ => false

/-- Where a manager of masters and slaves comes from. -/
inductive Source where
  | getInstance (info : Value)
  | getShard (conf : Value) (group : Key) (options : ShardOptions)
  | getAllShards (conf : Value) (group : Key) (position : Nat)

namespace AShardManager

/-- `getShard`; `fatal` leaves the process. -/
def getShard (conf : Value) (group : Key) (options : ShardOptions) :
    Option Value :=
  if conf.isset group then
    let groupConf := conf.index group
    if groupConf.isset (.int 0) then
      if 1 < groupConf.count then
        match options.shardId with
        | .null => none
        | shardId =>
            let found := groupConf.elements.find? fun shardInfo =>
              options.shardIdCmp
                (shardInfo.index (.text (ascii "shard_id"))) shardId
            found.filter (·.truthy)
      else some (groupConf.index (.int 0))
    else some groupConf
  else none

/-- `getAllShards`. -/
def getAllShards (conf : Value) (group : Key) : Option (List Value) :=
  if conf.isset group then
    let groupConf := conf.index group
    if groupConf.isset (.int 0) then some groupConf.elements
    else some [groupConf]
  else none

end AShardManager

/-- The infos a source calls `getInstance` for, and the one whose manager is
used.  `ShardManager\Redis::getInstance` may not construct what it asks for. -/
def Source.infos (client : ClientClass) : Source → List Value × Option Value
  | .getInstance info => ([info], some info)
  | .getShard conf group options =>
      match client, AShardManager.getShard conf group options with
      | .mySQL, some info => ([info], some info)
      | _, _ => ([], none)
  | .getAllShards conf group position =>
      match client, AShardManager.getAllShards conf group with
      | .mySQL, some infos => (infos, infos[position]?)
      | _, _ => ([], none)

/-- A client object and the info it was constructed from. -/
structure DatabaseClient where
  client : ClientClass
  connectionInfo : Value

/-- `$_instances` of `AConnectionManager` and of the two classes of
`MasterSlaveManager`. -/
structure Connections where
  instances : Bytes → Option DatabaseClient := fun _ => none
  managers : ClientClass × Bytes → Option MasterSlaveManager := fun _ => none

/-- A use of the managers.  `connects` tells if `PDO` gets its connection; a
client of Redis does not say when it has none. -/
inductive Use where
  | getConnection (client : ClientClass) (info : Value) (connects : Bool)
  | obtain (client : ClientClass) (source : Source)
  | connect (client : ClientClass) (source : Source)
      (role : MasterSlaveManager.Role) (connects : Bool)

/-- `new $this->_client_class($connection_info)`. -/
def DatabaseClient.new (client : ClientClass) (info : Value)
    (connects : Bool) : Option DatabaseClient :=
  match client, connects with
  | .mySQL, false => none
  | _, _ => some { client, connectionInfo := info }

namespace Connections

def getConnection (s : Connections) (client : ClientClass) (info : Value)
    (connects : Bool) : Option DatabaseClient × Connections :=
  let fetched := fetch s.instances (singletonKey info)
    (DatabaseClient.new client info connects)
  (fetched.1, { s with instances := fetched.2 })

/-- `MasterSlaveManager::getInstance`. -/
def getInstance (s : Connections) (client : ClientClass) (info : Value) :
    Connections :=
  { s with
    managers := (fetch s.managers (client, singletonKey info)
      (MasterSlaveManager.new info)).2 }

def getInstances (s : Connections) (client : ClientClass)
    (infos : List Value) : Connections :=
  infos.foldl (fun s info => s.getInstance client info) s

/-- The client that is returned, if one is. -/
def perform (s : Connections) : Use → Option DatabaseClient × Connections
  | .getConnection client info connects => s.getConnection client info connects
  | .obtain client source =>
      (none, s.getInstances client (source.infos client).1)
  | .connect client source role connects =>
      let s := s.getInstances client (source.infos client).1
      match (source.infos client).2 with
      | none => (none, s)
      | some info =>
          match s.managers (client, singletonKey info) with
          | none => (none, s)
          | some manager => s.getConnection client (manager.info role) connects

/-- After some uses.  Nothing follows a use that has left the process; what is
said holds of what would follow as well. -/
def after (uses : List Use) : Connections :=
  uses.foldl (fun s use => (s.perform use).2) {}

end Connections

/-- What a connection is told. -/
def settings : List Bytes :=
  [ascii "host", ascii "port", ascii "dbname", ascii "user", ascii "psw",
    ascii "encode"]

/-- The client is of the class, and has the settings. -/
def DatabaseClient.ConstructedFor (made : DatabaseClient)
    (client : ClientClass) (info : Value) : Prop :=
  made.client = client ∧ ∀ name ∈ settings,
    made.connectionInfo.index (.text name) = info.index (.text name)

/-- The source, the user and the password `Client\MySQL::connect` gives to
`PDO`. -/
def dataSource (info : Value) : Bytes × Bytes × Bytes :=
  let setting (name : String) := info.index (.text (ascii name))
  (ascii "mysql:host=" ++ (setting "host").toText ++ ascii ";port=" ++
      decimal (setting "port").toInt ++ ascii ";dbname=" ++
      (setting "dbname").toText ++ ascii ";charset=" ++
      (setting "encode").toText,
    (setting "user").toText, (setting "psw").toText)

theorem DatabaseClient.ConstructedFor.dataSource {made : DatabaseClient}
    {client : ClientClass} {info : Value}
    (constructed : made.ConstructedFor client info) :
    dataSource made.connectionInfo = dataSource info := by
  have same : ∀ name ∈ settings,
      made.connectionInfo.index (.text name) = info.index (.text name) :=
    constructed.2
  simp only [settings, List.forall_mem_cons] at same
  obtain ⟨host, port, dbname, user, psw, encode, -⟩ := same
  unfold Php.dataSource
  dsimp only
  rw [host, port, dbname, user, psw, encode]

namespace Use

/-- The class and the info a use asks for: its own master, or the slave its own
weights choose. -/
def asks : Use → Option (ClientClass × Value)
  | .getConnection client info _ => some (client, info)
  | .obtain _ _ => none
  | .connect client source role _ =>
      (source.infos client).2.bind fun info =>
        match role with
        | .master => some (client, info)
        | .slave _ => (MasterSlaveManager.new info).map fun manager =>
            (client, manager.info role)

/-- The managers a use wants to exist. -/
def registrations : Use →
    List ((ClientClass × Bytes) × Option MasterSlaveManager)
  | .getConnection _ _ _ => []
  | .obtain client source | .connect client source _ _ =>
      (source.infos client).1.map fun info =>
        ((client, singletonKey info), MasterSlaveManager.new info)

/-- What a use connects to when the first manager for its host and port
decides. -/
def reaches (before : List Use) (use : Use) : Option (ClientClass × Value) :=
  match use with
  | .getConnection client info _ => some (client, info)
  | .obtain _ _ => none
  | .connect client source role _ =>
      (source.infos client).2.bind fun info =>
        (first ((before ++ [use]).flatMap registrations)
          (client, singletonKey info)).map fun manager =>
            (client, manager.info role)

def connects : Use → Bool
  | .getConnection _ _ connects | .connect _ _ _ connects => connects
  | .obtain _ _ => false

/-- The client a use wants to exist, under its host and port. -/
def request (before : List Use) (use : Use) :
    Option (Bytes × Option DatabaseClient) :=
  (use.reaches before).map fun reached =>
    (singletonKey reached.2,
      DatabaseClient.new reached.1 reached.2 use.connects)

/-- The requests of uses that follow others. -/
def requests (before : List Use) :
    List Use → List (Bytes × Option DatabaseClient)
  | [] => []
  | use :: rest => (use.request before).toList ++ requests (before ++ [use]) rest

end Use

/-- Every client that is returned was constructed for what was asked for. -/
def Faithful (uses : List Use) : Prop :=
  ∀ before use rest, uses = before ++ use :: rest →
    ∀ client, ((Connections.after before).perform use).1 = some client →
      ∃ asked, use.asks = some asked ∧
        client.ConstructedFor asked.1 asked.2

/-- Of the uses that reach a host and a port, the first one that could connect
was for what every later one asks for. -/
def Separated (uses : List Use) : Prop :=
  ∀ before use rest, uses = before ++ use :: rest →
    ∀ reached, use.reaches before = some reached →
      ∀ client, first (Use.requests [] (before ++ [use]))
          (singletonKey reached.2) = some client →
        ∃ asked, use.asks = some asked ∧
          client.ConstructedFor asked.1 asked.2

namespace Use

theorem reaches_connect {client : ClientClass} {source : Source}
    {role : MasterSlaveManager.Role} {connects : Bool} {info : Value}
    (chosen : (source.infos client).2 = some info) (before : List Use) :
    reaches before (.connect client source role connects) =
      (first ((before ++ [connect client source role connects]).flatMap
        registrations) (client, singletonKey info)).map fun manager =>
          (client, manager.info role) := by
  change (source.infos client).2.bind _ = _
  rw [chosen]
  rfl

theorem requests_append (before uses more : List Use) :
    requests before (uses ++ more) =
      requests before uses ++ requests (before ++ uses) more := by
  induction uses generalizing before with
  | nil => rw [List.append_nil]; rfl
  | cons use uses induction =>
      have rest := induction (before ++ [use])
      rw [List.append_assoc] at rest
      have extended := congrArg ((use.request before).toList ++ ·) rest
      exact extended.trans (List.append_assoc _ _ _).symm

theorem requests_concat (uses : List Use) (use : Use) :
    requests [] (uses ++ [use]) =
      requests [] uses ++ (use.request uses).toList := by
  have split := requests_append [] uses [use]
  rw [split]
  exact congrArg (_ ++ ·) (List.append_nil _)

end Use

namespace Connections

theorem getInstances_eq (s : Connections) (client : ClientClass)
    (infos : List Value) :
    s.getInstances client infos =
      { s with
        managers := record s.managers (infos.map fun info =>
          ((client, singletonKey info), MasterSlaveManager.new info)) } := by
  induction infos generalizing s with
  | nil => rfl
  | cons info infos induction =>
      exact induction (s.getInstance client info)

/-- The tables that have recorded all requests. -/
def recorded (uses : List Use) : Connections where
  instances := record (fun _ => none) (Use.requests [] uses)
  managers := record (fun _ => none) (uses.flatMap Use.registrations)

/-- The managers are there before anything is connected. -/
theorem prepared (uses : List Use) (use : Use) :
    { recorded uses with
      managers := record (recorded uses).managers use.registrations } =
      { recorded uses with
        managers := record (fun _ => none)
          ((uses ++ [use]).flatMap Use.registrations) } := by
  have split : (uses ++ [use]).flatMap Use.registrations =
      uses.flatMap Use.registrations ++ use.registrations := by
    simp
  rw [split, record_append]
  rfl

theorem getConnection_recorded (uses : List Use)
    (managers : ClientClass × Bytes → Option MasterSlaveManager)
    (client : ClientClass) (info : Value) (connects : Bool) :
    getConnection { recorded uses with managers } client info connects =
      (first (Use.requests [] uses ++
          [(singletonKey info, DatabaseClient.new client info connects)])
          (singletonKey info),
        { instances := record (fun _ => none) (Use.requests [] uses ++
            [(singletonKey info, DatabaseClient.new client info connects)])
          managers }) := by
  refine Prod.ext ?_ ?_
  · exact fetch_record _ _ _
  · have extended := record_append (fun _ => none) (Use.requests [] uses)
      [(singletonKey info, DatabaseClient.new client info connects)]
    exact congrArg (fun instances => (⟨instances, managers⟩ : Connections))
      extended.symm

theorem recorded_concat (uses : List Use) (use : Use) :
    recorded (uses ++ [use]) =
      { instances := record (fun _ => none)
          (Use.requests [] uses ++ (use.request uses).toList)
        managers := record (fun _ => none)
          ((uses ++ [use]).flatMap Use.registrations) } := by
  unfold recorded
  rw [Use.requests_concat]

/-- A use is answered with the first client made for what it reaches, and
everything it wanted to exist is recorded. -/
theorem perform_recorded (uses : List Use) (use : Use) :
    (recorded uses).perform use =
      ((use.request uses).bind fun request =>
          first (Use.requests [] (uses ++ [use])) request.1,
        recorded (uses ++ [use])) := by
  rw [recorded_concat, Use.requests_concat]
  have registered := prepared uses use
  cases use with
  | getConnection client info connects =>
      have same : (recorded uses).managers = record (fun _ => none)
          ((uses ++ [Use.getConnection client info connects]).flatMap
            Use.registrations) := by
        simp [recorded, Use.registrations]
      rw [← same]
      exact getConnection_recorded uses _ client info connects
  | obtain client source =>
      have made : (recorded uses).getInstances client (source.infos client).1 =
          { recorded uses with
            managers := record (fun _ => none)
              ((uses ++ [Use.obtain client source]).flatMap
                Use.registrations) } :=
        (getInstances_eq _ _ _).trans registered
      refine Prod.ext rfl (made.trans ?_)
      exact congrArg (fun requests => (⟨record _ requests, _⟩ : Connections))
        (List.append_nil _).symm
  | connect client source role connects =>
      have made : (recorded uses).getInstances client (source.infos client).1 =
          { recorded uses with
            managers := record (fun _ => none)
              ((uses ++ [Use.connect client source role connects]).flatMap
                Use.registrations) } :=
        (getInstances_eq _ _ _).trans registered
      unfold perform
      dsimp only
      rw [made]
      cases chosen : (source.infos client).2 with
      | none =>
          have nothing : Use.request uses
              (.connect client source role connects) = none := by
            simp [Use.request, Use.reaches, chosen]
          rw [nothing]
          exact congrArg (fun requests => (none,
            (⟨record _ requests, _⟩ : Connections)))
            (List.append_nil _).symm
      | some info =>
          have kept : record (fun _ => none)
              ((uses ++ [Use.connect client source role connects]).flatMap
                Use.registrations) (client, singletonKey info) =
              first ((uses ++ [Use.connect client source role connects]).flatMap
                Use.registrations) (client, singletonKey info) :=
            (record_apply _ _ _).trans Option.none_or
          dsimp only
          rw [kept]
          cases found : first ((uses ++
              [Use.connect client source role connects]).flatMap
                Use.registrations) (client, singletonKey info) with
          | none =>
              have nothing : Use.request uses
                  (.connect client source role connects) = none := by
                unfold Use.request
                rw [Use.reaches_connect chosen, found]
                rfl
              rw [nothing]
              exact congrArg (fun requests => (none,
                (⟨record _ requests, _⟩ : Connections)))
                (List.append_nil _).symm
          | some manager =>
              have wanted : Use.request uses
                  (.connect client source role connects) =
                  some (singletonKey (manager.info role),
                    DatabaseClient.new client (manager.info role)
                      connects) := by
                unfold Use.request
                rw [Use.reaches_connect chosen, found]
                rfl
              rw [wanted]
              exact getConnection_recorded uses _ client
                (manager.info role) connects

theorem after_eq (uses : List Use) : after uses = recorded uses := by
  have further : ∀ before : List Use,
      uses.foldl (fun s use => (s.perform use).2) (recorded before) =
        recorded (before ++ uses) := by
    induction uses with
    | nil =>
        intro before
        rw [List.append_nil]
        rfl
    | cons use uses induction =>
        intro before
        rw [List.foldl_cons, perform_recorded, induction, List.append_assoc]
        rfl
  exact further []

end Connections

/-- Connections go where they are asked to go exactly if the first one made for
a host and a port is right for all of them. -/
theorem faithful_iff_separated (uses : List Use) :
    Faithful uses ↔ Separated uses := by
  have answer : ∀ before use, ((Connections.after before).perform use).1 =
      (use.reaches before).bind fun reached =>
        first (Use.requests [] (before ++ [use])) (singletonKey reached.2) := by
    intro before use
    rw [Connections.after_eq, Connections.perform_recorded]
    exact Option.bind_map
  constructor
  · intro faithful before use rest whole reached there client made
    refine faithful before use rest whole client ?_
    rw [answer, there]
    exact made
  · intro separated before use rest whole client returned
    rw [answer] at returned
    obtain ⟨reached, there, made⟩ := Option.bind_eq_some_iff.mp returned
    exact separated before use rest whole reached there client made

/-- Two shards on one server: the second one is served from the database of the
first. -/
def shardConf : Value :=
  let shard (id : Int) (dbname : String) : Value := .array [
    (.text (ascii "shard_id"), .int id),
    (.text (ascii "host"), .string (ascii "localhost")),
    (.text (ascii "port"), .int 3306),
    (.text (ascii "dbname"), .string (ascii dbname))]
  .array [(.text (ascii "default"),
    .array [(.int 0, shard 0 "users"), (.int 1, shard 1 "orders")])]

/-- The master of a shard, by its number. -/
def shardMaster (id : Int) : Use :=
  .connect .mySQL
    (.getShard shardConf (.text (ascii "default")) {
      shardId := .int id
      shardIdCmp := fun found wanted => found.toInt == wanted.toInt })
    .master true

theorem shards_share_connection :
    ¬ ∀ uses, Faithful uses := by
  intro faithful
  obtain ⟨asked, asks, -, settings⟩ := faithful [shardMaster 0, shardMaster 1]
    [shardMaster 0] (shardMaster 1) [] rfl _ rfl
  cases asks
  have same := settings (ascii "dbname") (by decide)
  have texts := congrArg Value.toText same
  revert texts
  decide

end Universe.Php
