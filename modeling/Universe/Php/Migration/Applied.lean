import Universe.Php.Migration.History
import Universe.Php.Migration.Scripts

/-!
# A run in which no statement fails

Such a run applies the scripts as long as it finds the next one.  It has
applied all of them, whatever the statements of the scripts do beside their
work, exactly if the tables to split into are known, every version is in
decimal notation, and every statement is one that leaves the selected database
and `MIGRATE_HISTORY` alone.
-/

namespace Universe.Php.Migration

open Stepwise

variable {τ : Type}

/-- A state in which every attempt to come succeeds. -/
def steady (databases : Bytes × Bytes → Database)
    (links : Link → Option (Option Bytes)) (data : Bytes → τ) : State τ where
  databases := databases
  links := links
  data := data
  answers _ := true

/-- The same with one of the databases given. -/
def holding (databases : Bytes × Bytes → Database)
    (links : Link → Option (Option Bytes)) (data : Bytes → τ)
    (server : Bytes × Bytes) (database : Database) : State τ :=
  steady (Function.update databases server database) links data

section

variable {databases : Bytes × Bytes → Database}
  {links : Link → Option (Option Bytes)} {data : Bytes → τ} {link : Link}
  {dbname : Bytes} {database after : Database}
  {mysql : Bytes → Catalogue τ → Catalogue τ}

theorem ask_steady :
    ask (steady databases links data) =
      .ok true (steady databases links data) := rfl

/-- A statement that can take effect does. -/
theorem mysqlQuery_holding {query : Query} {row : Option Int}
    (selected : links link = some (some dbname))
    (applied : query.apply database = some (after, row)) :
    mysqlQuery query link
        (holding databases links data (link.server, dbname) database) =
      .ok (some row)
        (holding databases links data (link.server, dbname) after) := by
  unfold mysqlQuery holding
  rw [bind_of_ok ask_steady, modifyGet_eq]
  simp only [steady, selected, Function.update_self, applied,
    Function.update_idem]

theorem mysqlQuery_refused {query : Query}
    (selected : links link = some (some dbname))
    (refused : query.apply database = none) :
    mysqlQuery query link
        (holding databases links data (link.server, dbname) database) =
      .ok none
        (holding databases links data (link.server, dbname) database) := by
  unfold mysqlQuery holding
  rw [bind_of_ok ask_steady, modifyGet_eq]
  simp only [steady, selected, Function.update_self, refused]

/-- What a statement of a script finds. -/
def findings (databases : Bytes × Bytes → Database)
    (links : Link → Option (Option Bytes)) (data : Bytes → τ) (link : Link)
    (dbname : Bytes) (database : Database) : Catalogue τ :=
  (holding databases links data (link.server, dbname) database).catalogue link
    (some dbname)

/-- A statement of a script that changes at most the history of the selected
database. -/
theorem mysqlQueryScript_holding (version : Int) (sql : Bytes)
    (selected : links link = some (some dbname)) {catalogue : Catalogue τ}
    (made : mysql sql (findings databases links data link dbname database) =
      catalogue)
    {history : Option (List (Bytes × Int))}
    (kept : catalogue.selected = some dbname)
    (changed : catalogue.history = Function.update
      (findings databases links data link dbname database).history dbname
        history) :
    ∃ left, mysqlQueryScript mysql version sql link
        (holding databases links data (link.server, dbname) database) =
      .ok true (holding databases links left (link.server, dbname)
        { history, executed := database.executed ++ [(version, sql)] }) := by
  subst made
  have databasesLeft := databases_leave version sql changed
  have linksLeft : Function.update links link (some (some dbname)) = links := by
    rw [← selected]
    exact Function.update_eq_self link links
  have asked : ask (holding databases links data (link.server, dbname)
      database) = .ok true (holding databases links data (link.server, dbname)
        database) := rfl
  unfold mysqlQueryScript
  rw [bind_of_ok asked, modifyGet_eq]
  have found : (holding databases links data (link.server, dbname)
      database).links link = some (some dbname) := selected
  rw [found]
  refine ⟨Function.update data link.server (mysql sql
    (findings databases links data link dbname database)).data, ?_⟩
  apply congrArg (EStateM.Result.ok true)
  unfold holding steady
  rw [State.mk.injEq]
  refine ⟨databasesLeft.trans ?_, ?_, rfl, rfl⟩
  · simp [holding, steady]
  · refine Eq.trans ?_ linksLeft
    exact congrArg (fun now => Function.update links link (some now)) kept

theorem execute_holding (databases : Bytes × Bytes → Database)
    (data : Bytes → τ) (database : Database)
    (selected : links link = some (some dbname)) (version : Int)
    {sqls : List Bytes} (plain : ∀ sql ∈ sqls, Plain mysql sql) :
    ∃ left, execute mysql version link sqls
        (holding databases links data (link.server, dbname) database) =
      .ok () (holding databases links left (link.server, dbname)
        { database with
          executed := database.executed ++ sqls.map (version, ·) }) := by
  induction sqls generalizing database data with
  | nil =>
      rw [List.map_nil, List.append_nil]
      exact ⟨data, rfl⟩
  | cons sql sqls induction =>
      obtain ⟨first, others⟩ := List.forall_mem_cons.mp plain
      obtain ⟨kept, same⟩ :=
        first (findings databases links data link dbname database)
      have history : (findings databases links data link dbname
          database).history dbname = database.history := by
        simp [findings, State.catalogue, holding, steady]
      have changed : (mysql sql (findings databases links data link dbname
          database)).history = Function.update
            (findings databases links data link dbname database).history dbname
              database.history := by
        rw [same, ← history]
        exact (Function.update_eq_self dbname _).symm
      obtain ⟨between, executed⟩ :=
        mysqlQueryScript_holding version sql selected rfl kept changed
      obtain ⟨left, rest⟩ := induction between _ others
      refine ⟨left, ?_⟩
      rw [execute, bind_of_ok executed]
      refine rest.trans ?_
      rw [List.map_cons, List.append_assoc]
      rfl

end

section

variable {pregReplace : Bytes → Bytes → Bytes}
  {mysql : Bytes → Catalogue τ → Catalogue τ} {name : Bytes}
  {splitFactor : List Bytes} {updateSqls : List (Key × Bytes)}

/-- The statements of the scripts behind a version, one script after the
other. -/
def work (pregReplace : Bytes → Bytes → Bytes) (splitFactor : List Bytes) :
    Int → List Bytes → List (Int × Bytes)
  | _, [] => []
  | version, sqls :: rest =>
      (statements pregReplace splitFactor sqls).map (version + 1, ·) ++
        work pregReplace splitFactor (version + 1) rest

/-- What is found behind a version before the first gap. -/
def Behind (updateSqls : List (Key × Bytes)) (version : Int)
    (scripts : List Bytes) : Prop :=
  ∀ index ≤ scripts.length,
    script (version + index + 1) updateSqls = scripts[index]?

theorem behind_nil {version : Int} :
    Behind updateSqls version [] ↔ script (version + 1) updateSqls = none := by
  constructor
  · intro behind
    simpa using behind 0 (Nat.le_refl 0)
  · intro gap index less
    obtain rfl : index = 0 := by simpa using less
    simpa using gap

theorem behind_cons {version : Int} {sqls : Bytes} {scripts : List Bytes} :
    Behind updateSqls version (sqls :: scripts) ↔
      script (version + 1) updateSqls = some sqls ∧
        Behind updateSqls (version + 1) scripts := by
  have sum (index : Nat) : version + (index + 1 : Nat) + 1 =
      version + 1 + index + 1 := by
    omega
  constructor
  · intro behind
    refine ⟨by simpa using behind 0 (Nat.zero_le _), ?_⟩
    intro index less
    rw [← sum]
    exact behind (index + 1) (Nat.succ_le_succ less)
  · rintro ⟨first, behind⟩ index less
    cases index with
    | zero => simpa using first
    | succ index =>
        rw [sum]
        exact behind index (Nat.le_of_succ_le_succ less)

theorem exists_behind (updateSqls : List (Key × Bytes)) (version : Int) :
    ∃ scripts, Behind updateSqls version scripts := by
  induction count : (remaining (version + 1) updateSqls).length using
      Nat.strong_induction_on generalizing version with
  | _ count induction =>
      cases found : script (version + 1) updateSqls with
      | none => exact ⟨[], behind_nil.mpr found⟩
      | some sqls =>
          obtain ⟨scripts, behind⟩ := induction _
            (count ▸ remaining_lt found) (version + 1) rfl
          exact ⟨sqls :: scripts, behind_cons.mpr ⟨found, behind⟩⟩

/-- What the loop makes of a database. -/
structure Migrated (pregReplace : Bytes → Bytes → Bytes) (name : Bytes)
    (splitFactor : List Bytes) (version : Int) (scripts : List Bytes)
    (database after : Database) : Prop where
  executed : after.executed =
    database.executed ++ work pregReplace splitFactor version scripts
  version : after.version name = some (version + scripts.length)

theorem update_of_none {link : Link} {version : Int}
    (gap : script version updateSqls = none) :
    update pregReplace mysql name splitFactor updateSqls link version =
      pure () := by
  rw [update.eq_def]
  split
  · rfl
  · next sqls found =>
      rw [gap] at found
      cases found

theorem update_of_some {link : Link} {version : Int} {sqls : Bytes}
    (found : script version updateSqls = some sqls) :
    update pregReplace mysql name splitFactor updateSqls link version =
      (execute mysql version link (statements pregReplace splitFactor sqls) >>=
        fun _ => updateVersion link name version >>= fun _ =>
          update pregReplace mysql name splitFactor updateSqls link
            (version + 1)) := by
  rw [update.eq_def]
  split
  · next gap =>
      rw [found] at gap
      cases gap
  · next other same =>
      rw [found] at same
      cases same
      rfl

theorem updateVersion_holding (databases : Bytes × Bytes → Database)
    {links : Link → Option (Option Bytes)} (data : Bytes → τ) {link : Link}
    {dbname : Bytes} (selected : links link = some (some dbname)) {database : Database}
    {version : Int} (next : Int)
    (recorded : database.version name = some version) :
    ∃ after, updateVersion link name next
        (holding databases links data (link.server, dbname) database) =
      .ok () (holding databases links data (link.server, dbname) after) ∧
      after.executed = database.executed ∧
      after.version name = some next := by
  obtain ⟨rows, history, -⟩ := Option.bind_eq_some_iff.mp recorded
  have applied : (Query.updateVersion next name).apply database =
      some ({ database with history := some (rows.map fun row =>
        if row.1 = name then (name, next) else row) }, none) := by
    rw [Query.apply, history]
    rfl
  refine ⟨_, ?_, ?_, version_advance history recorded⟩
  · unfold updateVersion
    rw [bind_of_ok (mysqlQuery_holding selected applied)]
    rfl
  · rfl

/-- Every statement of these scripts is known to be plain. -/
def Careful (pregReplace : Bytes → Bytes → Bytes) (splitFactor : List Bytes)
    (plain : Bytes → Bool) (scripts : List Bytes) : Prop :=
  ∀ sqls ∈ scripts, ∀ sql ∈ statements pregReplace splitFactor sqls,
    plain sql = true

theorem update_holding {plain : Bytes → Bool}
    (obeys : ∀ sql, plain sql = true → Plain mysql sql)
    (databases : Bytes × Bytes → Database)
    {links : Link → Option (Option Bytes)} (data : Bytes → τ) {link : Link}
    {dbname : Bytes} (selected : links link = some (some dbname))
    {version : Int} {scripts : List Bytes}
    (behind : Behind updateSqls version scripts)
    (careful : Careful pregReplace splitFactor plain scripts)
    {database : Database} (recorded : database.version name = some version) :
    ∃ left after,
      update pregReplace mysql name splitFactor updateSqls link (version + 1)
        (holding databases links data (link.server, dbname) database) =
      .ok () (holding databases links left (link.server, dbname) after) ∧
      Migrated pregReplace name splitFactor version scripts database after := by
  induction scripts generalizing version data database with
  | nil =>
      refine ⟨data, database, ?_, by simp [work], by simpa using recorded⟩
      rw [update_of_none (behind_nil.mp behind)]
      rfl
  | cons sqls scripts induction =>
      obtain ⟨found, later⟩ := behind_cons.mp behind
      obtain ⟨first, others⟩ := List.forall_mem_cons.mp careful
      obtain ⟨executing, executed⟩ := execute_holding databases data database
        selected (version + 1) fun sql member => obeys sql (first sql member)
      generalize begun : ({ database with executed := database.executed ++
          (statements pregReplace splitFactor sqls).map (version + 1, ·) } :
        Database) = between at executed
      have still : between.version name = some version := by
        rw [← begun]
        exact recorded
      obtain ⟨after, advanced, same, next⟩ :=
        updateVersion_holding databases executing selected (version + 1) still
      obtain ⟨left, last, rest, migrated⟩ :=
        induction executing later others next
      refine ⟨left, last, ?_, ?_, ?_⟩
      · rw [update_of_some found, bind_of_ok executed, bind_of_ok advanced]
        exact rest
      · rw [migrated.executed, same, ← begun, work, List.append_assoc]
      · rw [migrated.version, List.length_cons]
        congr 1
        push_cast
        omega

/-- The version that a run starts from. -/
def Database.start (name : Bytes) (database : Database) : Int :=
  (database.version name).getD 0

theorem getVersion_holding (name : Bytes)
    (databases : Bytes × Bytes → Database)
    {links : Link → Option (Option Bytes)} (data : Bytes → τ) {link : Link}
    {dbname : Bytes} (selected : links link = some (some dbname)) {database : Database}
    (created : database.history.isSome = true) :
    ∃ after, getVersion name link
        (holding databases links data (link.server, dbname) database) =
      .ok (database.start name)
        (holding databases links data (link.server, dbname) after) ∧
      after.executed = database.executed ∧
      after.version name = some (database.start name) := by
  obtain ⟨rows, history⟩ := Option.isSome_iff_exists.mp created
  have applied : (Query.selectVersion name).apply database =
      some (database, database.version name) := by
    rw [Query.apply, history]
    rfl
  unfold getVersion
  rw [bind_of_ok (mysqlQuery_holding selected applied)]
  unfold Database.start
  cases recorded : database.version name with
  | some version => exact ⟨database, rfl, rfl, recorded⟩
  | none =>
      refine ⟨_, ?_, ?_, version_start history recorded⟩
      · change (mysqlQuery _ link >>= _) _ = _
        rw [bind_of_ok
          (mysqlQuery_holding selected (apply_createVersion history recorded))]
        rfl
      · rfl

theorem holding_self (databases : Bytes × Bytes → Database)
    (links : Link → Option (Option Bytes)) (data : Bytes → τ)
    (server : Bytes × Bytes) :
    holding databases links data server (databases server) =
      steady databases links data := by
  unfold holding
  rw [Function.update_eq_self]

theorem mysqlConnect_steady (databases : Bytes × Bytes → Database)
    (links : Link → Option (Option Bytes)) (data : Bytes → τ)
    (config : MysqlConfig) :
    ∃ opened, mysqlConnect config (steady databases links data) =
      .ok (some config.link) (steady databases opened data) := by
  unfold mysqlConnect
  rw [get_bind]
  cases (steady databases links data).links config.link with
  | some selected => exact ⟨links, rfl⟩
  | none => exact ⟨Function.update links config.link (some none), rfl⟩

/-- `set names` changes no database. -/
theorem mysqlQuery_setNames (databases : Bytes × Bytes → Database)
    (links : Link → Option (Option Bytes)) (data : Bytes → τ) (encode : Bytes)
    (link : Link) :
    ∃ answer, mysqlQuery (.setNames encode) link
        (steady databases links data) =
      .ok answer (steady databases links data) := by
  unfold mysqlQuery
  rw [bind_of_ok ask_steady, modifyGet_eq]
  cases selected : (steady databases links data).links link with
  | none => exact ⟨none, rfl⟩
  | some selection =>
      cases selection with
      | none => exact ⟨none, rfl⟩
      | some dbname =>
          refine ⟨some none, ?_⟩
          simp only [Query.apply, Function.update_eq_self]

theorem mysqlSelectDb_steady (databases : Bytes × Bytes → Database)
    (links : Link → Option (Option Bytes)) (data : Bytes → τ) (dbname : Bytes)
    (link : Link) :
    mysqlSelectDb dbname link (steady databases links data) =
      .ok true (steady databases
        (Function.update links link (some (some dbname))) data) := rfl

theorem prepareMigrate_steady (name : Bytes)
    (databases : Bytes × Bytes → Database)
    (links : Link → Option (Option Bytes)) (data : Bytes → τ)
    (config : MysqlConfig) :
    ∃ opened after,
      prepareMigrate config (steady databases links data) =
        .ok config.link (holding databases opened data
          (config.link.server, config.dbname) after) ∧
      opened config.link = some (some config.dbname) ∧
      after.executed = (databases config.server).executed ∧
      after.version name = (databases config.server).version name ∧
      after.history.isSome = true := by
  obtain ⟨connected, connects⟩ :=
    mysqlConnect_steady databases links data config
  obtain ⟨answer, named⟩ :=
    mysqlQuery_setNames databases connected data config.encode config.link
  have selects := mysqlSelectDb_steady databases connected data config.dbname
    config.link
  have selected : Function.update connected config.link
      (some (some config.dbname)) config.link = some (some config.dbname) :=
    Function.update_self _ _ _
  generalize Function.update connected config.link
    (some (some config.dbname)) = opened at selects selected
  rw [← holding_self databases opened data (config.link.server, config.dbname)]
    at selects
  cases history : (databases config.server).history with
  | some rows =>
      have checked : Query.checkMigrate.apply (databases config.server) =
          some (databases config.server, none) := by
        rw [Query.apply, history]
        rfl
      refine ⟨opened, databases config.server, ?_, selected, rfl, rfl, ?_⟩
      · apply (bind_of_ok connects).trans
        apply (bind_of_ok (discard_of_ok named)).trans
        apply (bind_of_ok selects).trans
        exact bind_of_ok (mysqlQuery_holding selected checked)
      · rw [history]
        rfl
  | none =>
      have checked : Query.checkMigrate.apply (databases config.server) =
          none := by
        rw [Query.apply, history]
        rfl
      have created : Query.createMigrate.apply (databases config.server) =
          some ({ databases config.server with history := some [] },
            none) := by
        rw [Query.apply, history]
      refine ⟨opened, { databases config.server with history := some [] }, ?_,
        selected, rfl, ?_, rfl⟩
      · apply (bind_of_ok connects).trans
        apply (bind_of_ok (discard_of_ok named)).trans
        apply (bind_of_ok selects).trans
        apply (bind_of_ok (mysqlQuery_refused selected checked)).trans
        exact bind_of_ok (mysqlQuery_holding selected created)
      · simp [Database.version, history]

/-- One database up to the loop over the versions. -/
theorem migrateDatabase_begins (pregReplace : Bytes → Bytes → Bytes)
    (mysql : Bytes → Catalogue τ → Catalogue τ) (directory : Directory)
    (splitFactor : List Bytes) (databases : Bytes × Bytes → Database)
    (links : Link → Option (Option Bytes)) (data : Bytes → τ)
    (config : MysqlConfig) :
    ∃ opened begun,
      migrateDatabase pregReplace mysql directory splitFactor config
          (steady databases links data) =
        (do
          update pregReplace mysql directory.migrateName splitFactor
            directory.updateSqls config.link
            ((databases config.server).start directory.migrateName + 1)
          mysqlClose config.link)
          (holding databases opened data (config.link.server, config.dbname)
            begun) ∧
      opened config.link = some (some config.dbname) ∧
      begun.executed = (databases config.server).executed ∧
      begun.version directory.migrateName =
        some ((databases config.server).start directory.migrateName) := by
  obtain ⟨opened, prepared, prepares, selected, executed, version, created⟩ :=
    prepareMigrate_steady directory.migrateName databases links data config
  have start : prepared.start directory.migrateName =
      (databases config.server).start directory.migrateName :=
    congrArg (·.getD 0) version
  obtain ⟨begun, reads, same, recorded⟩ :=
    getVersion_holding directory.migrateName databases data selected created
  rw [start] at reads recorded
  refine ⟨opened, begun, ?_, selected, same.trans executed, recorded⟩
  unfold migrateDatabase
  rw [bind_of_ok prepares, bind_of_ok reads]

section Obedient

variable {plain : Bytes → Bool}
  (obeys : ∀ sql, plain sql = true → Plain mysql sql)
include obeys

/-- One database, whatever version it has. -/
theorem migrateDatabase_steady {directory : Directory}
    (databases : Bytes × Bytes → Database)
    (links : Link → Option (Option Bytes)) (data : Bytes → τ)
    (config : MysqlConfig) {scripts : List Bytes}
    (behind : Behind directory.updateSqls
      ((databases config.server).start directory.migrateName) scripts)
    (careful : Careful pregReplace splitFactor plain scripts) :
    ∃ left kept after,
      migrateDatabase pregReplace mysql directory splitFactor config
          (steady databases links data) =
        .ok ()
          (steady (Function.update databases config.server after) left kept) ∧
      Migrated pregReplace directory.migrateName splitFactor
        ((databases config.server).start directory.migrateName) scripts
        (databases config.server) after := by
  obtain ⟨opened, begun, begins, selected, same, recorded⟩ :=
    migrateDatabase_begins pregReplace mysql directory splitFactor databases
      links data config
  obtain ⟨kept, after, updates, migrated⟩ := update_holding obeys databases data
    selected behind careful recorded
  refine ⟨Function.update opened config.link none, kept, after, ?_, ?_,
    migrated.version⟩
  · rw [begins, bind_of_ok updates]
    rfl
  · rw [migrated.executed, same]

/-- A database that has not been migrated, or has all the scripts. -/
def Ready (pregReplace : Bytes → Bytes → Bytes) (name : Bytes)
    (splitFactor : List Bytes) (scripts : List Bytes)
    (before database : Database) : Prop :=
  (database = before ∧ before.start name = 0) ∨
    Migrated pregReplace name splitFactor 0 scripts before database

theorem migrateDatabase_ready {directory : Directory} {scripts : List Bytes}
    (all : Behind directory.updateSqls 0 scripts)
    (careful : Careful pregReplace splitFactor plain scripts)
    (databases : Bytes × Bytes → Database)
    (links : Link → Option (Option Bytes)) (data : Bytes → τ)
    (config : MysqlConfig) {before : Database}
    (ready : Ready pregReplace directory.migrateName splitFactor scripts before
      (databases config.server)) :
    ∃ left kept after,
      migrateDatabase pregReplace mysql directory splitFactor config
          (steady databases links data) =
        .ok ()
          (steady (Function.update databases config.server after) left kept) ∧
      Migrated pregReplace directory.migrateName splitFactor 0 scripts before
        after := by
  rcases ready with ⟨same, zero⟩ | done
  · rw [← same] at zero ⊢
    have behind : Behind directory.updateSqls
        ((databases config.server).start directory.migrateName) scripts := by
      rw [zero]
      exact all
    have migrated := migrateDatabase_steady obeys databases links data config
      behind careful
    rw [zero] at migrated
    exact migrated
  · have start : (databases config.server).start directory.migrateName =
        0 + scripts.length := by
      unfold Database.start
      rw [done.version]
      rfl
    have gap : Behind directory.updateSqls
        ((databases config.server).start directory.migrateName) [] := by
      rw [start, behind_nil, all scripts.length (Nat.le_refl _)]
      exact List.getElem?_eq_none (Nat.le_refl _)
    have nothing : Careful pregReplace splitFactor plain [] := by
      simp [Careful]
    obtain ⟨left, kept, after, returns, executed, version⟩ :=
      migrateDatabase_steady obeys databases links data config gap nothing
    refine ⟨left, kept, after, returns, ?_, ?_⟩
    · rw [executed, work, List.append_nil, done.executed]
    · rw [version, start]
      simp

/-- All databases of a run. -/
theorem migrateEach_ready {directory : Directory} {scripts : List Bytes}
    (all : Behind directory.updateSqls 0 scripts)
    (careful : Careful pregReplace splitFactor plain scripts)
    (before : Bytes × Bytes → Database) (mysqlConfigs : List MysqlConfig)
    (databases : Bytes × Bytes → Database)
    (links : Link → Option (Option Bytes)) (data : Bytes → τ)
    (ready : ∀ config ∈ mysqlConfigs,
      Ready pregReplace directory.migrateName splitFactor scripts
        (before config.server) (databases config.server)) :
    ∃ left kept later,
      migrateEach pregReplace mysql directory splitFactor mysqlConfigs
        (steady databases links data) = .ok () (steady later left kept) ∧
      (∀ config ∈ mysqlConfigs,
        Migrated pregReplace directory.migrateName splitFactor 0 scripts
          (before config.server) (later config.server)) ∧
      ∀ server, Migrated pregReplace directory.migrateName splitFactor 0 scripts
          (before server) (databases server) →
        Migrated pregReplace directory.migrateName splitFactor 0 scripts
          (before server) (later server) := by
  induction mysqlConfigs generalizing databases links data with
  | nil => exact ⟨links, data, databases, rfl, by simp, fun _ done => done⟩
  | cons config mysqlConfigs induction =>
      obtain ⟨here, others⟩ := List.forall_mem_cons.mp ready
      obtain ⟨opened, kept, after, returns, done⟩ := migrateDatabase_ready obeys
        all careful databases links data config here
      have either (server : Bytes × Bytes) {property : Database → Prop}
          (first : server = config.server → property after)
          (other : property (databases server)) :
          property (Function.update databases config.server after server) := by
        by_cases same : server = config.server
        · rw [same, Function.update_self]
          exact first same
        · rw [Function.update_of_ne same]
          exact other
      obtain ⟨left, last, later, rest, finished, stays⟩ := induction
        (Function.update databases config.server after) opened kept (by
          intro other member
          refine either other.server ?_ (others other member)
          intro same
          rw [same]
          exact .inr done)
      refine ⟨left, last, later, ?_, ?_, ?_⟩
      · rw [migrateEach, bind_of_ok (tryCatch_of_ok returns)]
        exact rest
      · refine List.forall_mem_cons.mpr ⟨stays config.server ?_, finished⟩
        rw [Function.update_self]
        exact done
      · intro server already
        refine stays server (either server ?_ already)
        intro same
        rw [same]
        exact done

end Obedient

end

section Careless

variable {links : Link → Option (Option Bytes)} {link : Link} {dbname : Bytes}
  {pregReplace : Bytes → Bytes → Bytes} {name : Bytes}
  {splitFactor : List Bytes} {updateSqls : List (Key × Bytes)}

/-- What MySQL may make of a statement that is not plain: the history of the
selected database is gone. -/
def careless (plain : Bytes → Bool) (sql : Bytes)
    (catalogue : Catalogue Unit) : Catalogue Unit :=
  match plain sql, catalogue.selected with
  | false, some dbname =>
      { catalogue with
        history := Function.update catalogue.history dbname none }
  | _, _ => catalogue

theorem careless_plain {plain : Bytes → Bool} (sql : Bytes)
    (isPlain : plain sql = true) : Plain (careless plain) sql := by
  intro catalogue
  unfold careless
  rw [isPlain]
  exact ⟨rfl, rfl⟩

theorem execute_careless (plain : Bytes → Bool)
    (databases : Bytes × Bytes → Database) (data : Bytes → Unit)
    (database : Database) (selected : links link = some (some dbname))
    (version : Int) (sqls : List Bytes) :
    ∃ left after, execute (careless plain) version link sqls
        (holding databases links data (link.server, dbname) database) =
      .ok () (holding databases links left (link.server, dbname) after) ∧
      after.history = if sqls.all plain then database.history else none := by
  induction sqls generalizing database data with
  | nil => exact ⟨data, database, rfl, rfl⟩
  | cons sql sqls induction =>
      have history : (findings databases links data link dbname
          database).history dbname = database.history := by
        simp [findings, State.catalogue, holding, steady]
      have kept : (careless plain sql (findings databases links data link dbname
          database)).selected = some dbname := by
        unfold careless
        cases plain sql <;> rfl
      have changed : (careless plain sql (findings databases links data link
          dbname database)).history = Function.update
            (findings databases links data link dbname database).history dbname
              (if plain sql then database.history else none) := by
        unfold careless
        cases plain sql with
        | false => rfl
        | true =>
            rw [if_pos rfl, ← history]
            exact (Function.update_eq_self dbname _).symm
      obtain ⟨between, executed⟩ :=
        mysqlQueryScript_holding version sql selected rfl kept changed
      obtain ⟨left, after, rest, last⟩ := induction between
        { history := if plain sql then database.history else none
          executed := database.executed ++ [(version, sql)] }
      refine ⟨left, after, ?_, ?_⟩
      · rw [execute, bind_of_ok executed]
        exact rest
      · rw [last, List.all_cons]
        cases plain sql <;> cases sqls.all plain <;> rfl

/-- The version is not recorded behind a statement that is not plain. -/
theorem update_careless {plain : Bytes → Bool}
    (databases : Bytes × Bytes → Database) (data : Bytes → Unit)
    (selected : links link = some (some dbname)) {version : Int}
    {scripts : List Bytes} (behind : Behind updateSqls version scripts)
    (careful : ¬ Careful pregReplace splitFactor plain scripts)
    {database : Database} (recorded : database.version name = some version) :
    ∃ left after,
      update pregReplace (careless plain) name splitFactor updateSqls link
        (version + 1)
        (holding databases links data (link.server, dbname) database) =
      .error .update (holding databases links left (link.server, dbname)
        after) ∧
      after.history = none := by
  induction scripts generalizing version data database with
  | nil => exact absurd (by simp [Careful]) careful
  | cons sqls scripts induction =>
      obtain ⟨found, later⟩ := behind_cons.mp behind
      rw [update_of_some found]
      by_cases first : ∀ sql ∈ statements pregReplace splitFactor sqls,
          plain sql = true
      · obtain ⟨executing, executed⟩ := execute_holding databases data database
          selected (version + 1) fun sql member =>
            careless_plain sql (first sql member)
        rw [bind_of_ok executed]
        have still : ({ database with executed := database.executed ++
            (statements pregReplace splitFactor sqls).map (version + 1, ·) } :
            Database).version name = some version := recorded
        obtain ⟨between, advanced, -, next⟩ := updateVersion_holding databases
          executing selected (version + 1) still
        rw [bind_of_ok advanced]
        have others : ¬ Careful pregReplace splitFactor plain scripts :=
          fun rest => careful (List.forall_mem_cons.mpr ⟨first, rest⟩)
        exact induction executing later others next
      · obtain ⟨left, after, executed, lost⟩ := execute_careless plain databases
          data database selected (version + 1)
          (statements pregReplace splitFactor sqls)
        rw [if_neg (by rwa [List.all_eq_true])] at lost
        have refused : (Query.updateVersion (version + 1) name).apply after =
            none := by
          rw [Query.apply, lost]
          rfl
        have stopped : updateVersion link name (version + 1)
            (holding databases links left (link.server, dbname) after) =
              .error .update
                (holding databases links left (link.server, dbname) after) := by
          unfold updateVersion
          rw [bind_of_ok (mysqlQuery_refused selected refused)]
          rfl
        refine ⟨left, after, ?_, lost⟩
        rw [bind_of_ok executed, bind_of_error stopped]

/-- The history of a database is gone after a run. -/
theorem migrateEach_careless {plain : Bytes → Bool} {directory : Directory}
    (config : MysqlConfig) {scripts : List Bytes}
    (behind : Behind directory.updateSqls 0 scripts)
    (careful : ¬ Careful pregReplace splitFactor plain scripts) :
    ((final (migrateEach pregReplace (careless plain) directory splitFactor
      [config] (steady (fun _ => {}) (fun _ => none) fun _ => ()))).databases
        config.server).history = none := by
  obtain ⟨opened, begun, begins, selected, -, recorded⟩ :=
    migrateDatabase_begins pregReplace (careless plain) directory splitFactor
      (fun _ => {}) (fun _ => none) (fun _ => ()) config
  obtain ⟨left, after, stops, lost⟩ := update_careless (fun _ => {})
    (fun _ => ()) selected behind careful recorded
  have failed := begins.trans (bind_of_error stops)
  have caught : (tryCatch (migrateDatabase pregReplace (careless plain)
      directory splitFactor config) fun _ => pure ())
        (steady (fun _ => {}) (fun _ => none) fun _ => ()) = .ok () _ :=
    tryCatch_of_error failed
  rw [migrateEach, bind_of_ok caught]
  have here : Function.update (fun _ => ({} : Database)) config.server after
      config.server = after := Function.update_self ..
  exact (congrArg Database.history here).trans lost

end Careless

/-- Every script has been applied once, in the order of the numbers, and the
version is their number. -/
def FullyApplied (pregReplace : Bytes → Bytes → Bytes)
    (comparison : Comparison) (schema : Schema) (splitFactor : List Bytes)
    (before after : Database) : Prop :=
  ∃ arranged : List ScriptFile, arranged.Perm schema.files ∧
    (∀ (index : Nat) (file : ScriptFile), arranged[index]? = some file →
      comparison.equals file.version (index + 1) = true) ∧
    after.executed = before.executed ++
      work pregReplace splitFactor 0 (arranged.map (·.contents)) ∧
    after.version schema.migrateName = some (schema.files.length : Int)

/-- If the scripts are accepted, a run in which no statement fails applies them
all to every database that is at version 0, whatever MySQL makes of the
statements that are not known to be plain. -/
def AppliesAll (pregReplace : Bytes → Bytes → Bytes) (comparison : Comparison)
    (schema : Schema) (plain : Bytes → Bool) : Prop :=
  checkVersionList comparison (schema.files.map (·.version)) = true →
    ∀ (τ : Type) (mysql : Bytes → Catalogue τ → Catalogue τ),
      (∀ sql, plain sql = true → Plain mysql sql) →
      ∀ (mysqlConfigs : List MysqlConfig) databases links data,
        (∀ config ∈ mysqlConfigs,
          (databases config.server).start schema.migrateName = 0) →
        ∀ config ∈ mysqlConfigs, ∃ splitFactor,
          schema.directory.splitFactor = some splitFactor ∧
          FullyApplied pregReplace comparison schema splitFactor
            (databases config.server)
            ((final (migrateSchema pregReplace mysql comparison mysqlConfigs
              schema (steady databases links data))).databases config.server)

section

variable {pregReplace : Bytes → Bytes → Bytes} {comparison : Comparison}
  {schema : Schema} {splitFactor : List Bytes} {plain : Bytes → Bool}
  {mysql : Bytes → Catalogue τ → Catalogue τ}

theorem behind_of_arranged {arranged : List ScriptFile}
    (perm : arranged.Perm schema.files)
    (keys : ∀ (index : Nat) (file : ScriptFile),
      arranged[index]? = some file →
        Key.ofText file.version = .int (index + 1)) :
    Behind schema.directory.updateSqls 0 (arranged.map (·.contents)) := by
  intro index _
  change script _ (updateSqlsOf schema.files) = _
  rw [Int.zero_add, script_arranged perm keys, List.getElem?_map]

/-- An accepted set is migrated as the directory says. -/
theorem final_migrateSchema
    (factor : schema.directory.splitFactor = some splitFactor)
    (accepted : checkVersionList comparison (schema.files.map (·.version)) =
      true) (mysqlConfigs : List MysqlConfig) (state : State τ) :
    final (migrateSchema pregReplace mysql comparison mysqlConfigs schema
        state) =
      final (migrateEach pregReplace mysql schema.directory splitFactor
        mysqlConfigs state) := by
  have each : migrate pregReplace mysql mysqlConfigs schema.directory =
      migrateEach pregReplace mysql schema.directory splitFactor
        mysqlConfigs := by
    unfold migrate
    rw [factor]
  unfold migrateSchema
  rw [factor, accepted, each]
  change final (EStateM.adaptExcept _ _ _) = _
  unfold EStateM.adaptExcept
  cases migrateEach pregReplace mysql schema.directory splitFactor mysqlConfigs
    state <;> rfl

theorem migrateSchema_steady
    (obeys : ∀ sql, plain sql = true → Plain mysql sql)
    (factor : schema.directory.splitFactor = some splitFactor)
    (accepted : checkVersionList comparison (schema.files.map (·.version)) =
      true)
    {scripts : List Bytes}
    (all : Behind schema.directory.updateSqls 0 scripts)
    (careful : Careful pregReplace splitFactor plain scripts)
    (mysqlConfigs : List MysqlConfig) (databases : Bytes × Bytes → Database)
    (links : Link → Option (Option Bytes)) (data : Bytes → τ)
    (zero : ∀ config ∈ mysqlConfigs,
      (databases config.server).start schema.migrateName = 0) :
    ∀ config ∈ mysqlConfigs,
      Migrated pregReplace schema.migrateName splitFactor 0 scripts
        (databases config.server)
        ((final (migrateSchema pregReplace mysql comparison mysqlConfigs schema
          (steady databases links data))).databases config.server) := by
  obtain ⟨left, kept, later, returns, done, -⟩ := migrateEach_ready obeys all
    careful databases mysqlConfigs databases links data
    fun config member => .inl ⟨rfl, zero config member⟩
  rw [final_migrateSchema factor accepted, returns]
  exact done

/-- One script, with a padded number. -/
def paddedSchema : Schema where
  migrateName := ascii "main"
  splitString := none
  files := [{
    name := ascii "01_user.sql"
    contents := ascii "CREATE TABLE user (id INT)"
    version := ascii "01"
    isMatch := by decide }]

/-- The comparison of texts that begin with an integer; one text is in order
already. -/
def prefixComparison : Comparison where
  sort versions := versions
  perm versions := .refl versions
  numeric text number := atol text = number

end

end Universe.Php.Migration
