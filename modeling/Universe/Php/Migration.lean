import Universe.Php

/-!
# Migration of databases

`migrate.php` brings databases to the newest version of their schema.  A
database records in `MIGRATE_HISTORY` which version it has, the scripts are
numbered by the versions they lead to.

`mysql_query` returns true exactly when the statement took effect, and whether
it can is decided outside.  What MySQL makes of a statement of a script is a
parameter: it may select another database and change any `MIGRATE_HISTORY` of
the server.  That it was executed is kept for the database it was sent to.
-/

namespace Universe.Php.Migration

structure MysqlConfig where
  host : Bytes
  port : Bytes
  user : Bytes
  psw : Bytes
  encode : Bytes
  dbname : Bytes
  deriving DecidableEq

structure Database where
  /-- `MIGRATE_HISTORY`, with the columns `schema` and `version`. -/
  history : Option (List (Bytes × Int)) := none
  /-- The statements that took effect, with the numbers of their scripts. -/
  executed : List (Int × Bytes) := []
  deriving DecidableEq

/-- `SELECT version from MIGRATE_HISTORY WHERE schema = …`. -/
def Database.version (schema : Bytes) (database : Database) : Option Int :=
  database.history.bind fun rows =>
    (rows.find? fun row => row.1 = schema).map Prod.snd

/-- What `migrate.php` itself sends to a database. -/
inductive Query where
  | setNames (encode : Bytes)
  | checkMigrate
  | createMigrate
  | selectVersion (schema : Bytes)
  | createVersion (schema : Bytes)
  | updateVersion (version : Int) (schema : Bytes)

/-- The database after a statement that takes effect, and the row that was
selected. -/
def Query.apply : Query → Database → Option (Database × Option Int)
  | .setNames _, database => some (database, none)
  | .checkMigrate, database => database.history.map fun _ => (database, none)
  | .createMigrate, database =>
      match database.history with
      | none => some ({ database with history := some [] }, none)
      | some _ => none
  | .selectVersion schema, database =>
      database.history.map fun _ => (database, database.version schema)
  | .createVersion schema, database =>
      match database.history with
      | none => none
      | some rows =>
          -- `schema` is the primary key
          if (rows.find? fun row => row.1 = schema).isSome then none
          else some ({ database with history := some (rows ++ [(schema, 0)]) },
            none)
  | .updateVersion version schema, database =>
      database.history.map fun rows =>
        ({ database with
            history := some (rows.map fun row =>
              if row.1 = schema then (schema, version) else row) },
          none)

/-- `mysql_connect` returns the link again that is open to the same server for
the same user. -/
structure Link where
  server : Bytes
  user : Bytes
  psw : Bytes
  deriving DecidableEq

def MysqlConfig.link (config : MysqlConfig) : Link where
  server := config.host ++ ascii ":" ++ config.port
  user := config.user
  psw := config.psw

/-- Where a configuration leads. -/
def MysqlConfig.server (config : MysqlConfig) : Bytes × Bytes :=
  (config.link.server, config.dbname)

inductive Failure where
  | split
  | connect
  | select
  | create
  | version
  | execute
  | update
  deriving DecidableEq

structure State (τ : Type) where
  /-- The databases of all servers. -/
  databases : Bytes × Bytes → Database
  /-- The open links with the databases that are selected on them. -/
  links : Link → Option (Option Bytes)
  /-- What else the servers hold. -/
  data : Bytes → τ
  /-- Whether the attempts still to come succeed. -/
  answers : Nat → Bool

/-- What a statement finds on a server: the database that is selected on its
link, `MIGRATE_HISTORY` in every database, and whatever else is there. -/
structure Catalogue (τ : Type) where
  selected : Option Bytes
  history : Bytes → Option (List (Bytes × Int))
  data : τ

variable {τ : Type}

def State.catalogue (state : State τ) (link : Link) (selected : Option Bytes) :
    Catalogue τ where
  selected := selected
  history dbname := (state.databases (link.server, dbname)).history
  data := state.data link.server

/-- The state after a statement of a script has left this on the server. -/
def State.leave (state : State τ) (version : Int) (sql : Bytes) (link : Link)
    (selected : Option Bytes) (catalogue : Catalogue τ) : State τ :=
  { state with
    databases := fun server =>
      let database := state.databases server
      if server.1 = link.server then
        { history := catalogue.history server.2
          executed :=
            if selected = some server.2 then
              database.executed ++ [(version, sql)]
            else database.executed }
      else database
    links := Function.update state.links link (some catalogue.selected)
    data := Function.update state.data link.server catalogue.data }

abbrev M (τ : Type) := EStateM Failure (State τ)

def ask : M τ Bool :=
  modifyGet fun state =>
    (state.answers 0,
      { state with answers := fun count => state.answers (count + 1) })

def mysqlConnect (config : MysqlConfig) : M τ (Option Link) := do
  match (← get).links config.link with
  | some _ => return some config.link
  | none =>
      if ← ask then
        modify fun state => { state with
          links := Function.update state.links config.link (some none) }
        return some config.link
      else return none

def mysqlSelectDb (dbname : Bytes) (link : Link) : M τ Bool := do
  if ← ask then
    modify fun state => { state with
      links := Function.update state.links link (some (some dbname)) }
    return true
  else return false

/-- `none` is `false`, anything else is true and brings the row. -/
def mysqlQuery (query : Query) (link : Link) : M τ (Option (Option Int)) := do
  let takesEffect ← ask
  modifyGet fun state =>
    match takesEffect, state.links link with
    | true, some (some dbname) =>
        match query.apply (state.databases (link.server, dbname)) with
        | some (database, row) =>
            (some row, { state with
              databases := Function.update state.databases
                (link.server, dbname) database })
        | none => (none, state)
    | _, _ => (none, state)

section

-- What MySQL makes of a statement that takes effect.
variable (mysql : Bytes → Catalogue τ → Catalogue τ)

/-- `mysql_query` with a statement of a script, whether or not a database is
selected. -/
def mysqlQueryScript (version : Int) (sql : Bytes) (link : Link) :
    M τ Bool := do
  let takesEffect ← ask
  modifyGet fun state =>
    match takesEffect, state.links link with
    | true, some selected =>
        (true, state.leave version sql link selected
          (mysql sql (state.catalogue link selected)))
    | _, _ => (false, state)

/-- The statement leaves the selected database and every `MIGRATE_HISTORY` as
they are. -/
def Plain (sql : Bytes) : Prop :=
  ∀ catalogue, (mysql sql catalogue).selected = catalogue.selected ∧
    (mysql sql catalogue).history = catalogue.history

end

def mysqlClose (link : Link) : M τ Unit :=
  modify fun state => { state with
    links := Function.update state.links link none }

def prepareMigrate (config : MysqlConfig) : M τ Link := do
  match ← mysqlConnect config with
  | none => throw .connect
  | some link =>
      discard (mysqlQuery (.setNames config.encode) link)
      if ← mysqlSelectDb config.dbname link then
        match ← mysqlQuery .checkMigrate link with
        | some _ => return link
        | none =>
            match ← mysqlQuery .createMigrate link with
            | some _ => return link
            | none => throw .create
      else throw .select

def getVersion (migrateName : Bytes) (link : Link) : M τ Int := do
  match ← mysqlQuery (.selectVersion migrateName) link with
  | some (some version) => return version
  | some none =>
      match ← mysqlQuery (.createVersion migrateName) link with
      | some _ => return 0
      | none => throw .version
  | none => throw .version

def updateVersion (link : Link) (migrateName : Bytes) (version : Int) :
    M τ Unit := do
  match ← mysqlQuery (.updateVersion version migrateName) link with
  | some _ => return
  | none => throw .update

/-- `explode` with a separator of one byte. -/
def explode (separator : UInt8) (text : Bytes) : List Bytes :=
  text.splitOn separator

/-- `/^(\s)*$/`. -/
def isBlank (sql : Bytes) : Bool :=
  sql.all fun byte => byte = 32 || (9 ≤ byte && byte ≤ 13)

/-- `rtrim(ltrim($split))`. -/
def trim (split : Bytes) : Bytes :=
  let trimmed := fun byte : UInt8 => byte ∈ ([32, 9, 10, 13, 0, 11] : Bytes)
  ((split.dropWhile trimmed).reverse.dropWhile trimmed).reverse

/-- What a run of `migrate` has read: the name of the directory, the file
`split` if there is one, and the scripts by their versions. -/
structure Directory where
  migrateName : Bytes
  splitString : Option Bytes
  updateSqls : List (Key × Bytes)

def Directory.splitFactor (directory : Directory) : Option (List Bytes) :=
  if directory.migrateName.head? = some 95 then
    directory.splitString.map (explode 32)
  else some []

/-- `$update_sqls[$update_version]`. -/
def script (version : Int) (updateSqls : List (Key × Bytes)) : Option Bytes :=
  (updateSqls.find? fun entry => entry.1 = .int version).map Prod.snd

/-- Whether the version is not before the given one. -/
def reaches (version : Int) : Key → Bool
  | .int number => version ≤ number
  | .text _ => false

/-- The scripts from a version on. -/
def remaining (version : Int) (updateSqls : List (Key × Bytes)) :
    List (Key × Bytes) :=
  updateSqls.filter fun entry => reaches version entry.1

theorem remaining_lt {version : Int} {updateSqls : List (Key × Bytes)}
    {sqls : Bytes} (found : script version updateSqls = some sqls) :
    (remaining (version + 1) updateSqls).length <
      (remaining version updateSqls).length := by
  obtain ⟨entry, first, -⟩ := Option.map_eq_some_iff.mp found
  have key : entry.1 = .int version := by
    simpa using List.find?_some first
  have later : remaining (version + 1) updateSqls =
      (remaining version updateSqls).filter fun entry =>
        reaches (version + 1) entry.1 := by
    unfold remaining
    rw [List.filter_filter]
    apply List.filter_congr
    intro entry _
    cases entry.1 with
    | int number =>
        simp only [reaches, ← Bool.decide_and, decide_eq_decide]
        omega
    | text _ => rfl
  rw [later]
  apply List.length_filter_lt_length_iff_exists.mpr
  refine ⟨entry, List.mem_filter.mpr ⟨List.mem_of_find?_eq_some first, ?_⟩, ?_⟩
  · simp [reaches, key]
  · intro later
    rw [key] at later
    have after : version + 1 ≤ version := of_decide_eq_true later
    omega

section

-- `preg_replace('/%s/', $split, $actual_sql)`
variable (pregReplace : Bytes → Bytes → Bytes)
  (mysql : Bytes → Catalogue τ → Catalogue τ)

/-- A statement for every split table. -/
def actualSqls (splitFactor : List Bytes) (sql : Bytes) : List Bytes :=
  if splitFactor.isEmpty then [sql]
  else splitFactor.map fun split => pregReplace (trim split) sql

/-- The statements that a script comes to. -/
def statements (splitFactor : List Bytes) (sqls : Bytes) : List Bytes :=
  ((explode 59 sqls).filter fun sql => !isBlank sql).flatMap
    (actualSqls pregReplace splitFactor)

def execute (version : Int) (link : Link) : List Bytes → M τ Unit
  | [] => pure ()
  | sql :: rest => do
      if ← mysqlQueryScript mysql version sql link then
        execute version link rest
      else throw .execute

/-- The loop over the versions. -/
def update (migrateName : Bytes) (splitFactor : List Bytes)
    (updateSqls : List (Key × Bytes)) (link : Link) (version : Int) :
    M τ Unit :=
  match found : script version updateSqls with
  | none => pure ()
  | some sqls => do
      execute mysql version link (statements pregReplace splitFactor sqls)
      updateVersion link migrateName version
      update migrateName splitFactor updateSqls link (version + 1)
termination_by (remaining version updateSqls).length
decreasing_by exact remaining_lt found

def migrateDatabase (directory : Directory) (splitFactor : List Bytes)
    (config : MysqlConfig) : M τ Unit := do
  let link ← prepareMigrate config
  let currentVersion ← getVersion directory.migrateName link
  update pregReplace mysql directory.migrateName splitFactor
    directory.updateSqls link (currentVersion + 1)
  mysqlClose link

/-- What goes wrong with one database is shown, and the next one follows. -/
def migrateEach (directory : Directory) (splitFactor : List Bytes) :
    List MysqlConfig → M τ Unit
  | [] => pure ()
  | config :: rest => do
      tryCatch (migrateDatabase pregReplace mysql directory splitFactor config)
        fun _ => pure ()
      migrateEach directory splitFactor rest

def migrate (mysqlConfigs : List MysqlConfig) (directory : Directory) :
    M τ Unit :=
  match directory.splitFactor with
  | none => throw .split
  | some splitFactor =>
      migrateEach pregReplace mysql directory splitFactor mysqlConfigs

end

end Universe.Php.Migration
