import Universe.Php.Isolation

/-!
# Writing to many tables

`Client\MySQL` executes one statement for each table, each with up to three
tries, and `Model` does so in every shard.  PDO returns `false` for a statement
it refuses; only connecting throws.
-/

namespace Universe.Php

/-- `implode`. -/
def implode (glue : Bytes) (pieces : List Bytes) : Bytes :=
  glue.intercalate pieces

/-- `empty($value) ? null : $value`. -/
def Value.unlessEmpty (value : Value) : Value :=
  if value.truthy then value else .null

/-- What `foreach ($value as $key => $element)` goes through. -/
def Value.entries : Value → List (Key × Value)
  | .array entries => entries
  | _ => []

/-- `$value[] = $element`, where `$value` is undefined or a list. -/
def Value.push (element : Value) : Value → Value
  | .array entries => .array (entries ++ [(.int entries.length, element)])
  | _ => .array [(.int 0, element)]

def Key.toText : Key → Bytes
  | .int number => decimal number
  | .text name => name

namespace MySQL

/-- What PDO does in one try of a statement. -/
structure Attempt where
  prepares : Bytes → Bool
  executes : List (Key × Value) → Bool
  /-- Whether `connect` comes about, where it is called. -/
  connects : Bool

/-- A connected client: what happens in the tries of its statements, by the
number of the statement and that of the try. -/
structure Server where
  attempts : Nat → Nat → Attempt
  lastInsertId : Nat → Value → Value

/-- `RETRY_TIMES`. -/
def retryTimes : Nat := 3

/-- `PDO::prepare`, which takes no array for a statement. -/
def Attempt.prepare (attempt : Attempt) : Value → Bool
  | .array _ => false
  | sql => attempt.prepares sql.toText

/-- The error is `PDOException`. -/
def connect (attempt : Attempt) : Except Unit Unit :=
  if attempt.connects then .ok () else .error ()

/-- The loop of `execute`. -/
def tries (sql : Value) (bindings : List (Key × Value)) :
    Nat → (Nat → Attempt) → Except Unit Bool
  | 0, _ => return false
  | left + 1, attempts => do
      if !(attempts 0).prepare sql then
        connect (attempts 0)
        tries sql bindings left fun i => attempts (i + 1)
      else if !(attempts 0).executes bindings then
        connect (attempts 0)
        tries sql bindings left fun i => attempts (i + 1)
      else return true

def execute (attempts : Nat → Attempt) (sql : Value)
    (bindings : List (Key × Value)) : Except Unit Bool :=
  tries sql bindings retryTimes attempts

def escapeIdentifiers (id : Bytes) : Bytes :=
  id.filter fun byte =>
    (65 ≤ byte && byte ≤ 90) || (97 ≤ byte && byte ≤ 122) ||
      (48 ≤ byte && byte ≤ 57) || byte == 95

/-- The columns, the values and the bindings. -/
def generateForData (bindingData inlineData : Value) (group : Bytes := []) :
    List Bytes × List Bytes × List (Key × Value) :=
  let bound := bindingData.entries.map fun (column, value) =>
    let escaped := escapeIdentifiers column.toText
    let suffix := if group.isEmpty then [] else ascii "_" ++ group
    (escaped, ascii ":" ++ escaped ++ suffix, value)
  let inlined := inlineData.entries
  (bound.map (·.1) ++ inlined.map (·.1.toText),
    bound.map (·.2.1) ++ inlined.map (·.2.toText),
    bound.foldl (fun bindings (_, name, value) =>
      assign (.text name) value bindings) [])

/-- The bindings are taken from `$parameters`, which is undefined. -/
def getWhereAndBindings (whereParameters : Value) :
    Value × List (Key × Value) :=
  match whereParameters with
  | .string condition => (.string condition, [])
  | _ =>
      let parameters := Value.null
      let bindings :=
        if (whereParameters.index (.text (ascii "bindings"))).truthy then
          (parameters.index (.text (ascii "bindings"))).entries.foldl
            (fun bindings (name, value) =>
              assign (.text (ascii ":" ++ name.toText)) value bindings) []
        else []
      (whereParameters.index (.int 0), bindings)

/-- `if (!is_array($tables)) $tables = [$tables];`. -/
def tableList : Value → List Bytes
  | .array entries => entries.map (·.2.toText)
  | table => [table.toText]

section

variable (server : Server)

/-- The loop of `update` and of `delete`, with the statement of each table. -/
def executeEach (bindings : List (Key × Value)) :
    Nat → List Value → Except Unit Unit
  | _, [] => return
  | index, sql :: rest => do
      let success ← execute (server.attempts index) sql bindings
      -- `if (!$success) false;`, without `return`
      if !success then pure ()
      executeEach bindings (index + 1) rest

/-- The loop of `insert`, with the ids of the new rows. -/
def insertEach (bindings : List (Key × Value)) (returnIds idName : Value) :
    Nat → List Value → Except Unit (List Value)
  | _, [] => return []
  | index, sql :: rest => do
      let success ← execute (server.attempts index) sql bindings
      -- again without `return`
      if !success then pure ()
      let ids ← insertEach bindings returnIds idName (index + 1) rest
      if !returnIds.truthy then return ids
      else return server.lastInsertId index idName :: ids

/-- The columns, the values and the bindings of the data of a call. -/
def dataOf (data : List (Key × Value)) (group : Bytes := []) :
    List Bytes × List Bytes × List (Key × Value) :=
  generateForData
    (Value.lookup data (.text (ascii "binding_data"))).unlessEmpty
    (Value.lookup data (.text (ascii "inline_data"))).unlessEmpty group

def insertSql (data : List (Key × Value)) (table : Bytes) : Value :=
  let (columns, values, _) := dataOf data
  .string (ascii "INSERT INTO " ++ table ++ ascii " (" ++
    implode (ascii ",") columns ++ ascii ") VALUES(" ++
    implode (ascii ",") values ++ ascii ")")

/-- The parameter is `$return_id`, but what is read is `$return_ids`, which is
undefined. -/
def insert (tables : Value) (data : List (Key × Value))
    (_returnId idName : Value) : Except Unit Value := do
  let returnIds := Value.null
  let ids ← insertEach server (dataOf data).2.2 returnIds idName 0
    ((tableList tables).map (insertSql data))
  if returnIds.truthy
    then return .array (ids.zipIdx.map fun (id, index) => (.int index, id))
    else return .bool true

def updateSql (whereParameters : Value) (updateData : List (Key × Value))
    (table : Bytes) : Value :=
  let (columns, values, _) := dataOf updateData (ascii "update")
  let set := implode (ascii ",")
    ((columns.zip values).map fun (column, value) =>
      column ++ ascii "=" ++ value)
  .string (ascii "UPDATE " ++ table ++ ascii " SET " ++ set ++
    ascii " WHERE " ++ (getWhereAndBindings whereParameters).1.toText)

/-- What `$sql` is in each round of a loop that does `$sql[] = …`. -/
def accumulated : Value → List Value → List Value
  | _, [] => []
  | sql, text :: rest =>
      Value.push text sql :: accumulated (Value.push text sql) rest

def updateBindings (whereParameters : Value)
    (updateData : List (Key × Value)) : List (Key × Value) :=
  arrayMerge (getWhereAndBindings whereParameters).2
    (dataOf updateData (ascii "update")).2.2

def update (tables whereParameters : Value)
    (updateData : List (Key × Value)) : Except Unit Value := do
  executeEach server (updateBindings whereParameters updateData) 0
    (accumulated .null
      ((tableList tables).map (updateSql whereParameters updateData)))
  return .bool true

def deleteSql (whereParameters : Value) (table : Bytes) : Value :=
  .string (ascii "DELETE FROM " ++ table ++ ascii " WHERE " ++
    (getWhereAndBindings whereParameters).1.toText)

def delete (tables whereParameters : Value) : Except Unit Value := do
  executeEach server (getWhereAndBindings whereParameters).2 0
    ((tableList tables).map (deleteSql whereParameters))
  return .bool true

end

end MySQL

/-! ## The model over all shards -/

namespace Model

open MySQL

/-- A shard is what its `getMaster` returns or throws. -/
abbrev Shard := Except Unit Server

/-- The loop of `delete` and of `update`. -/
def eachShard (write : Server → Except Unit Value) :
    List Shard → Except Unit Value
  | [] => return .bool true
  | shard :: rest => do
      let result ← write (← shard)
      if !result.truthy then return .bool false
      eachShard write rest

/-- `array_merge` of values; it is null where one is no array. -/
def arrayMergeValues : Value → Value → Value
  | .array first, .array second => .array (arrayMerge first second)
  | _, _ => .null

/-- The loop of `insert`. -/
def insertShards (write : Server → Except Unit Value) (returnId : Bool) :
    Value → List Shard → Except Unit Value
  | insertIds, [] => return if returnId then insertIds else .bool true
  | insertIds, shard :: rest => do
      let result ← write (← shard)
      if !result.truthy then return .bool false
      insertShards write returnId
        (if returnId then arrayMergeValues insertIds result else insertIds) rest

-- what `getShardsForParameters` and `getTablesForParameters` have returned
variable (shards : List Shard) (tables : Value)

def delete (parameters : Value) : Except Unit Value :=
  eachShard (fun master => MySQL.delete master tables parameters) shards

def insert (data : List (Key × Value)) (parameters : Value) :
    Except Unit Value :=
  let returnId := (parameters.index (.text (ascii "return_id"))).truthy
  let idName := (parameters.index (.text (ascii "id_name"))).unlessEmpty
  insertShards
    (fun master => MySQL.insert master tables data (.bool returnId) idName)
    returnId (.array []) shards

def update (parameters : Value) (updateData : List (Key × Value)) :
    Except Unit Value :=
  eachShard (fun master => MySQL.update master tables parameters updateData)
    shards

end Model

end Universe.Php
