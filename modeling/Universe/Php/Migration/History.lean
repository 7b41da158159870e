import Universe.Library.Stepwise
import Universe.Php.Migration

/-!
# The history does not run ahead of the scripts

What a migration does to one database is a sequence of four kinds of changes,
and each of them is allowed by what the database has recorded.
-/

namespace Universe.Php.Migration

open Stepwise

variable {τ : Type}

/-- What a migration does to a database in one step. -/
inductive Change (name : Bytes) (scripts : Int → Option (List Bytes))
    (database : Database) : Database → Prop where
  | create (missing : database.history = none) :
      Change name scripts database { database with history := some [] }
  | start {rows : List (Bytes × Int)} (history : database.history = some rows)
      (absent : database.version name = none) :
      Change name scripts database
        { database with history := some (rows ++ [(name, 0)]) }
  | execute {version : Int} {statements : List Bytes} {sql : Bytes}
      (recorded : database.version name = some version)
      (found : scripts (version + 1) = some statements)
      (member : sql ∈ statements) :
      Change name scripts database
        { database with executed := database.executed ++ [(version + 1, sql)] }
  | advance {rows : List (Bytes × Int)} {version : Int}
      {statements : List Bytes} (history : database.history = some rows)
      (recorded : database.version name = some version)
      (found : scripts (version + 1) = some statements)
      (complete : ∀ sql ∈ statements, (version + 1, sql) ∈ database.executed) :
      Change name scripts database { database with
        history := some (rows.map fun row =>
          if row.1 = name then (name, version + 1) else row) }

/-- The scripts up to the recorded version have been executed in their order,
and of the others at most the next one has been begun. -/
structure Consistent (name : Bytes) (scripts : Int → Option (List Bytes))
    (database : Database) : Prop where
  complete : ∀ version, database.version name = some version →
    ∀ number, 1 ≤ number → number ≤ version →
      ∃ statements, scripts number = some statements ∧
        ∀ sql ∈ statements, (number, sql) ∈ database.executed
  begun : ∀ version, database.version name = some version →
    ∀ entry ∈ database.executed, entry.1 ≤ version + 1
  untouched : database.version name = none → database.executed = []
  ordered : database.executed.Pairwise fun first second => first.1 ≤ second.1

section

variable {name : Bytes} {scripts : Int → Option (List Bytes)}
  {database : Database}

theorem find?_of_absent {rows : List (Bytes × Int)}
    (history : database.history = some rows)
    (absent : database.version name = none) :
    (rows.find? fun row => row.1 = name) = none := by
  simpa [Database.version, history] using absent

theorem apply_createVersion {rows : List (Bytes × Int)}
    (history : database.history = some rows)
    (absent : database.version name = none) :
    (Query.createVersion name).apply database =
      some ({ database with history := some (rows ++ [(name, 0)]) }, none) := by
  simp only [Query.apply, history, find?_of_absent history absent]
  rfl

theorem version_start {rows : List (Bytes × Int)}
    (history : database.history = some rows)
    (absent : database.version name = none) :
    ({ database with history := some (rows ++ [(name, 0)]) } :
      Database).version name = some 0 := by
  simp [Database.version, List.find?_append, find?_of_absent history absent]

theorem change_of_createMigrate {after : Database} {row : Option Int}
    (applied : Query.createMigrate.apply database = some (after, row)) :
    Change name scripts database after := by
  cases history : database.history with
  | none =>
      simp only [Query.apply, history] at applied
      cases applied
      exact .create history
  | some _ =>
      simp only [Query.apply, history] at applied
      cases applied

theorem version_advance {rows : List (Bytes × Int)} {version next : Int}
    (history : database.history = some rows)
    (recorded : database.version name = some version) :
    ({ database with history := some (rows.map fun row =>
      if row.1 = name then (name, next) else row) } :
      Database).version name = some next := by
  unfold Database.version at recorded ⊢
  rw [history] at recorded
  change (List.find? _ rows).map Prod.snd = some version at recorded
  change (List.find? _ (rows.map _)).map Prod.snd = some next
  clear history
  induction rows with
  | nil => cases recorded
  | cons row rows induction =>
      by_cases same : row.1 = name
      · simp [same]
      · rw [List.map_cons, if_neg same, List.find?_cons_of_neg (by simpa)]
        rw [List.find?_cons_of_neg (by simpa)] at recorded
        exact induction recorded

theorem Consistent.change {after : Database}
    (consistent : Consistent name scripts database)
    (change : Change name scripts database after) :
    Consistent name scripts after := by
  obtain ⟨complete, begun, untouched, ordered⟩ := consistent
  cases change with
  | create missing =>
      have absent : database.version name = none := by
        simp [Database.version, missing]
      refine ⟨?_, ?_, fun _ => untouched absent, ordered⟩
      · intro version recorded
        cases recorded
      · intro version recorded
        cases recorded
  | start history absent =>
      have recorded := version_start history absent
      have empty := untouched absent
      refine ⟨?_, ?_, fun _ => empty, ordered⟩
      · intro version current number first last
        rw [recorded] at current
        cases current
        omega
      · intro version current entry member
        change entry ∈ database.executed at member
        rw [empty] at member
        cases member
  | @execute version statements sql recorded found member =>
      refine ⟨?_, ?_, ?_, ?_⟩
      · intro current now number first last
        obtain ⟨statements, exist, all⟩ :=
          complete current now number first last
        exact ⟨statements, exist, fun sql member =>
          List.mem_append_left _ (all sql member)⟩
      · intro current now entry executed
        rcases List.mem_append.mp executed with former | last
        · exact begun current now entry former
        · have same : current = version :=
            Option.some.inj (now.symm.trans recorded)
          have number : entry.1 = current + 1 := by
            rw [List.mem_singleton.mp last, same]
          exact Int.le_of_eq number
      · intro absent
        cases recorded.symm.trans absent
      · apply List.pairwise_append.mpr
        refine ⟨ordered, List.pairwise_singleton _ _, ?_⟩
        intro former executed last member
        rw [List.mem_singleton.mp member]
        exact begun version recorded former executed
  | @advance rows version statements history recorded found all =>
      have next : Database.version name { database with
          history := some (rows.map fun row =>
            if row.1 = name then (name, version + 1) else row) } =
          some (version + 1) := version_advance history recorded
      refine ⟨?_, ?_, ?_, ordered⟩
      · intro current now number first last
        cases next.symm.trans now
        by_cases newest : number = version + 1
        · rw [newest]
          exact ⟨statements, found, all⟩
        · exact complete version recorded number first (by omega)
      · intro current now entry executed
        cases next.symm.trans now
        have := begun version recorded entry executed
        omega
      · intro absent
        cases next.symm.trans absent

end

/-- One step of a migration: a database that is migrated changes, or none. -/
def Step (name : Bytes) (scripts : Int → Option (List Bytes))
    (migrated : Bytes × Bytes → Prop) (before after : State τ) : Prop :=
  after.databases = before.databases ∨
  ∃ server, migrated server ∧ ∃ database,
    Change name scripts (before.databases server) database ∧
    after.databases = Function.update before.databases server database

section

variable {name : Bytes} {scripts : Int → Option (List Bytes)}
  {migrated : Bytes × Bytes → Prop} {before after : State τ}

theorem Step.consistent
    (consistent : ∀ server, Consistent name scripts (before.databases server))
    (step : Step name scripts migrated before after) (server : Bytes × Bytes) :
    Consistent name scripts (after.databases server) := by
  rcases step with same | ⟨changed, -, database, change, same⟩
  · rw [same]
    exact consistent server
  · rw [same]
    by_cases here : server = changed
    · rw [here, Function.update_self]
      exact (consistent changed).change change
    · rw [Function.update_of_ne here]
      exact consistent server

theorem Step.others {server : Bytes × Bytes} (other : ¬ migrated server)
    (step : Step name scripts migrated before after) :
    after.databases server = before.databases server := by
  rcases step with same | ⟨changed, member, database, -, same⟩
  · rw [same]
  · have different : server ≠ changed := by
      intro equal
      exact other (equal ▸ member)
    rw [same, Function.update_of_ne different]

end

/-- A query takes effect on the database that is selected, or on none. -/
theorem mysqlQuery_eq (query : Query) (link : Link) (state : State τ) :
    ∃ result after, mysqlQuery query link state = .ok result after ∧
      after.links = state.links ∧
      (result = none ∧ after.databases = state.databases ∨
        ∃ dbname database row, state.links link = some (some dbname) ∧
          query.apply (state.databases (link.server, dbname)) =
            some (database, row) ∧
          result = some row ∧
          after.databases = Function.update state.databases
            (link.server, dbname) database) := by
  unfold mysqlQuery ask
  rw [modifyGet_bind, modifyGet_eq]
  refine ⟨_, _, rfl, ?_⟩
  cases state.answers 0 with
  | false => exact ⟨rfl, .inl ⟨rfl, rfl⟩⟩
  | true =>
      cases opened : state.links link with
      | none => simp
      | some selected =>
          cases selected with
          | none => simp
          | some dbname =>
              cases applied :
                  query.apply (state.databases (link.server, dbname)) with
              | none => simp [applied]
              | some pair =>
                  refine ⟨?_, .inr ⟨dbname, pair.1, pair.2, rfl, applied, ?_⟩⟩
                  · simp [applied]
                  · simp [applied]

section

variable {name : Bytes} {scripts : Int → Option (List Bytes)}
  {migrated : Bytes × Bytes → Prop} {state : State τ} {link : Link}
  {dbname : Bytes} {mysql : Bytes → Catalogue τ → Catalogue τ}

theorem runs_ask : Runs (Step name scripts migrated) ask state
    fun _ after => after.databases = state.databases ∧
      after.links = state.links :=
  runs_modifyGet (.single (.inl rfl)) ⟨rfl, rfl⟩

/-- What a query does to the database that is selected. -/
theorem runs_mysqlQuery {query : Query}
    (selected : state.links link = some (some dbname))
    (member : migrated (link.server, dbname))
    (allowed : ∀ database row,
      query.apply (state.databases (link.server, dbname)) =
        some (database, row) →
      database = state.databases (link.server, dbname) ∨
        Change name scripts (state.databases (link.server, dbname)) database) :
    Runs (Step name scripts migrated) (mysqlQuery query link) state
      fun result after => after.links link = some (some dbname) ∧
        ∀ row, result = some row →
          query.apply (state.databases (link.server, dbname)) =
            some (after.databases (link.server, dbname), row) := by
  obtain ⟨result, after, returned, links, effect⟩ :=
    mysqlQuery_eq query link state
  rcases effect with ⟨none', same⟩ |
      ⟨other, database, row, found, applied, some', changed⟩
  · refine ⟨?_, ?_⟩
    · rw [returned]
      exact .single (.inl same)
    · intro value later equal
      cases returned.symm.trans equal
      refine ⟨links ▸ selected, ?_⟩
      intro row given
      cases none'.symm.trans given
  · cases selected.symm.trans found
    have here : after.databases (link.server, dbname) = database := by
      rw [changed, Function.update_self]
    refine ⟨?_, ?_⟩
    · rw [returned]
      apply Relation.ReflTransGen.single
      rcases allowed database row applied with same | change
      · left
        change after.databases = state.databases
        rw [changed, same, Function.update_eq_self]
      · exact .inr ⟨_, member, database, change, changed⟩
    · intro value later equal
      cases returned.symm.trans equal
      refine ⟨links ▸ selected, ?_⟩
      intro given same
      cases some'.symm.trans same
      rw [applied, here]

/-- `set names` changes no database, whichever is selected. -/
theorem runs_setNames (encode : Bytes) :
    Runs (Step name scripts migrated) (mysqlQuery (.setNames encode) link)
      state fun _ _ => True := by
  obtain ⟨result, after, returned, -, effect⟩ :=
    mysqlQuery_eq (.setNames encode) link state
  refine ⟨?_, fun _ => trivial⟩
  rw [returned]
  apply Relation.ReflTransGen.single
  left
  change after.databases = state.databases
  rcases effect with ⟨-, same⟩ |
      ⟨other, database, row, -, applied, -, changed⟩
  · exact same
  · cases applied
    rw [changed, Function.update_eq_self]

theorem runs_mysqlConnect {config : MysqlConfig} :
    Runs (Step name scripts migrated) (mysqlConnect config) state
      fun result _ => ∀ link, result = some link → link = config.link := by
  unfold mysqlConnect
  apply runs_get_bind
  split
  · apply runs_pure
    intro link same
    cases same
    rfl
  · refine runs_bind runs_ask fun opens between _ _ => ?_
    cases opens with
    | true =>
        apply runs_modify_bind (.single (.inl rfl))
        apply runs_pure
        intro link same
        cases same
        rfl
    | false =>
        apply runs_pure
        intro link same
        cases same

theorem runs_mysqlSelectDb :
    Runs (Step name scripts migrated) (mysqlSelectDb dbname link) state
      fun result after => result = true →
        after.links link = some (some dbname) := by
  unfold mysqlSelectDb
  refine runs_bind runs_ask fun selects between _ _ => ?_
  cases selects with
  | true =>
      apply runs_modify_bind (.single (.inl rfl))
      apply runs_pure
      intro _
      exact Function.update_self ..
  | false =>
      apply runs_pure
      intro same
      cases same

theorem runs_prepareMigrate {config : MysqlConfig}
    (member : migrated config.server) :
    Runs (Step name scripts migrated) (prepareMigrate config) state
      fun result after => result = config.link ∧
        after.links config.link = some (some config.dbname) := by
  unfold prepareMigrate
  refine runs_bind runs_mysqlConnect fun connected between _ given => ?_
  cases connected with
  | none => exact runs_throw
  | some link =>
      cases given link rfl
      refine runs_bind (runs_bind (runs_setNames config.encode)
        fun _ _ _ _ => @runs_pure _ _ _ _ _ _ (fun _ _ => True) trivial)
        fun _ _ _ _ => ?_
      refine runs_bind runs_mysqlSelectDb fun selects later _ selected => ?_
      cases selects with
      | false => exact runs_throw
      | true =>
          refine runs_bind (runs_mysqlQuery (selected rfl) member ?_)
            fun exists' again _ checked => ?_
          · intro database row applied
            obtain ⟨rows, -, same⟩ := Option.map_eq_some_iff.mp applied
            cases same
            exact .inl rfl
          · cases exists' with
            | some _ => exact runs_pure ⟨rfl, checked.1⟩
            | none =>
                refine runs_bind (runs_mysqlQuery checked.1 member ?_)
                  fun created last _ made => ?_
                · intro database row applied
                  exact .inr (change_of_createMigrate applied)
                · cases created with
                  | some _ => exact runs_pure ⟨rfl, made.1⟩
                  | none => exact runs_throw

theorem runs_getVersion (selected : state.links link = some (some dbname))
    (member : migrated (link.server, dbname)) :
    Runs (Step name scripts migrated) (getVersion name link) state
      fun result after => after.links link = some (some dbname) ∧
        (after.databases (link.server, dbname)).version name =
          some result := by
  unfold getVersion
  refine runs_bind (runs_mysqlQuery selected member ?_)
    fun selection between _ found => ?_
  · intro database row applied
    obtain ⟨rows, -, same⟩ := Option.map_eq_some_iff.mp applied
    cases same
    exact .inl rfl
  · cases selection with
    | none => exact runs_throw
    | some row =>
        obtain ⟨rows, history, same⟩ :=
          Option.map_eq_some_iff.mp (found.2 row rfl)
        obtain ⟨same, version⟩ := Prod.mk.inj same
        rw [same] at history version
        cases row with
        | some version =>
            apply runs_pure
            exact ⟨found.1, ‹_›⟩
        | none =>
            refine runs_bind (runs_mysqlQuery found.1 member ?_)
              fun created last _ made => ?_
            · intro database row applied
              cases (apply_createVersion history version).symm.trans applied
              exact .inr (.start history version)
            · cases created with
              | none => exact runs_throw
              | some row =>
                  apply runs_pure
                  refine ⟨made.1, ?_⟩
                  obtain ⟨same, -⟩ := Prod.mk.inj (Option.some.inj
                    ((apply_createVersion history version).symm.trans
                      (made.2 row rfl)))
                  rw [← same]
                  exact version_start history version

/-- A statement that changes `MIGRATE_HISTORY` in the selected database at
most. -/
theorem databases_leave {catalogue : Catalogue τ}
    {history : Option (List (Bytes × Int))} (version : Int) (sql : Bytes)
    (changed : catalogue.history =
      Function.update (state.catalogue link (some dbname)).history dbname
        history) :
    (state.leave version sql link (some dbname) catalogue).databases =
      Function.update state.databases (link.server, dbname)
        { history := history
          executed := (state.databases (link.server, dbname)).executed ++
            [(version, sql)] } := by
  funext server
  obtain ⟨host, other⟩ := server
  by_cases here : (host, other) = (link.server, dbname)
  · cases here
    simp [State.leave, changed]
  · rw [Function.update_of_ne here]
    by_cases same : host = link.server
    · subst same
      have different : other ≠ dbname := fun equal => here (by rw [equal])
      simp [State.leave, changed, different, Ne.symm different,
        State.catalogue]
    · simp [State.leave, same]

/-- A plain statement of the script that comes next. -/
theorem runs_mysqlQueryScript {version : Int} {statements : List Bytes}
    {sql : Bytes} (plain : Plain mysql sql)
    (found : scripts (version + 1) = some statements)
    (within : sql ∈ statements)
    (selected : state.links link = some (some dbname))
    (member : migrated (link.server, dbname))
    (recorded : (state.databases (link.server, dbname)).version name =
      some version) :
    Runs (Step name scripts migrated)
      (mysqlQueryScript mysql (version + 1) sql link) state
      fun result after => after.links link = some (some dbname) ∧
        (result = true → after.databases (link.server, dbname) =
          { state.databases (link.server, dbname) with
            executed := (state.databases (link.server, dbname)).executed ++
              [(version + 1, sql)] }) := by
  unfold mysqlQueryScript
  refine runs_bind runs_ask fun takesEffect between _ asked => ?_
  obtain ⟨databases, links⟩ := asked
  rw [← databases] at recorded ⊢
  rw [← links] at selected
  cases takesEffect with
  | false =>
      refine runs_modifyGet (.single (.inl rfl)) ⟨selected, ?_⟩
      intro impossible
      cases impossible
  | true =>
      have left := plain (between.catalogue link (some dbname))
      have same := left.2.trans (Function.update_eq_self dbname
        (between.catalogue link (some dbname)).history).symm
      have changed := databases_leave (version + 1) sql same
      apply runs_modifyGet
      · rw [selected]
        exact .single (.inr ⟨_, member, _,
          .execute recorded found within, changed⟩)
      · rw [selected]
        refine ⟨?_, fun _ => ?_⟩
        · exact (Function.update_self ..).trans (congrArg some left.1)
        · exact (congrFun changed _).trans (Function.update_self ..)

theorem runs_execute {version : Int} {list statements : List Bytes}
    (plain : ∀ sql ∈ statements, Plain mysql sql)
    (found : scripts (version + 1) = some statements)
    (within : ∀ sql ∈ list, sql ∈ statements)
    (selected : state.links link = some (some dbname))
    (member : migrated (link.server, dbname))
    (recorded : (state.databases (link.server, dbname)).version name =
      some version) :
    Runs (Step name scripts migrated) (execute mysql (version + 1) link list)
      state
      fun _ after => after.links link = some (some dbname) ∧
        after.databases (link.server, dbname) =
          { state.databases (link.server, dbname) with
            executed := (state.databases (link.server, dbname)).executed ++
              list.map fun sql => (version + 1, sql) } := by
  induction list generalizing state with
  | nil => exact runs_pure ⟨selected, by simp⟩
  | cons sql rest induction =>
      have here := within sql List.mem_cons_self
      unfold execute
      refine runs_bind (runs_mysqlQueryScript (plain sql here) found here
        selected member recorded) fun succeeded between _ executed => ?_
      cases succeeded with
      | false => exact runs_throw
      | true =>
          have same := executed.2 rfl
          refine (induction
            (fun sql later => within sql (List.mem_cons_of_mem _ later))
            executed.1 (by rw [same]; exact recorded)).weaken ?_
          intro _ after _ ⟨still, all⟩
          refine ⟨still, ?_⟩
          rw [all, same]
          simp

theorem runs_updateVersion {version : Int} {statements : List Bytes}
    (found : scripts (version + 1) = some statements)
    (selected : state.links link = some (some dbname))
    (member : migrated (link.server, dbname))
    (recorded : (state.databases (link.server, dbname)).version name =
      some version)
    (complete : ∀ sql ∈ statements, (version + 1, sql) ∈
      (state.databases (link.server, dbname)).executed) :
    Runs (Step name scripts migrated) (updateVersion link name (version + 1))
      state fun _ after => after.links link = some (some dbname) ∧
        (after.databases (link.server, dbname)).version name =
          some (version + 1) := by
  unfold updateVersion
  refine runs_bind (runs_mysqlQuery selected member ?_)
    fun answer between _ updated => ?_
  · intro database row applied
    obtain ⟨rows, history, same⟩ := Option.map_eq_some_iff.mp applied
    cases same
    exact .inr (.advance history recorded found complete)
  · cases answer with
    | none => exact runs_throw
    | some row =>
        apply runs_pure
        refine ⟨updated.1, ?_⟩
        obtain ⟨rows, history, same⟩ :=
          Option.map_eq_some_iff.mp (updated.2 row rfl)
        obtain ⟨same, -⟩ := Prod.mk.inj same
        rw [← same]
        exact version_advance history recorded

end

section

variable {pregReplace : Bytes → Bytes → Bytes}
  {mysql : Bytes → Catalogue τ → Catalogue τ} {directory : Directory}
  {splitFactor : List Bytes} {migrated : Bytes × Bytes → Prop}

/-- The statements of the script with the number. -/
def scriptStatements (pregReplace : Bytes → Bytes → Bytes)
    (directory : Directory) (number : Int) : Option (List Bytes) :=
  directory.splitFactor.bind fun splitFactor =>
    (script number directory.updateSqls).map
      (statements pregReplace splitFactor)

section Scripts

variable (plain : ∀ number statements,
  scriptStatements pregReplace directory number = some statements →
    ∀ sql ∈ statements, Plain mysql sql)
include plain

/-- A script begins when the versions before it are recorded, and its version
is recorded when all its statements have been executed. -/
theorem runs_update {link : Link} {dbname : Bytes}
    (factor : directory.splitFactor = some splitFactor)
    (member : migrated (link.server, dbname)) (version : Int) (state : State τ)
    (selected : state.links link = some (some dbname))
    (recorded : (state.databases (link.server, dbname)).version
      directory.migrateName = some version) :
    Runs (Step directory.migrateName (scriptStatements pregReplace directory)
        migrated)
      (update pregReplace mysql directory.migrateName splitFactor
        directory.updateSqls link (version + 1))
      state fun _ _ => True := by
  induction count : (remaining (version + 1) directory.updateSqls).length using
      Nat.strong_induction_on generalizing version state with
  | _ count induction =>
      rw [update.eq_def]
      split
      · exact runs_pure trivial
      · next sqls found =>
          have exist : scriptStatements pregReplace directory (version + 1) =
              some (statements pregReplace splitFactor sqls) := by
            simp [scriptStatements, factor, found]
          refine runs_bind (runs_execute (plain _ _ exist) exist
            (fun sql within => within) selected member recorded)
            fun _ between _ executed => ?_
          obtain ⟨still, all⟩ := executed
          have same : (between.databases (link.server, dbname)).version
              directory.migrateName = some version := by
            rw [all]
            exact recorded
          refine runs_bind (runs_updateVersion exist still member same ?_)
            fun _ later _ updated => ?_
          · intro sql within
            rw [all]
            exact List.mem_append_right _ (List.mem_map_of_mem within)
          · exact induction _ (count ▸ remaining_lt found) (version + 1) later
              updated.1 updated.2 rfl

theorem runs_migrateDatabase {config : MysqlConfig} {state : State τ}
    (factor : directory.splitFactor = some splitFactor)
    (member : migrated config.server) :
    Runs (Step directory.migrateName (scriptStatements pregReplace directory)
        migrated)
      (migrateDatabase pregReplace mysql directory splitFactor config) state
      fun _ _ => True := by
  unfold migrateDatabase
  refine runs_bind (runs_prepareMigrate member)
    fun link between _ prepared => ?_
  obtain ⟨same, selected⟩ := prepared
  rw [same]
  refine runs_bind (runs_getVersion selected member)
    fun version later _ found => ?_
  refine runs_bind (runs_update plain factor member version later found.1
    found.2) fun _ last _ _ => ?_
  exact runs_modify (.single (.inl rfl)) trivial

theorem runs_migrateEach {mysqlConfigs : List MysqlConfig} {state : State τ}
    (factor : directory.splitFactor = some splitFactor)
    (members : ∀ config ∈ mysqlConfigs, migrated config.server) :
    Runs (Step directory.migrateName (scriptStatements pregReplace directory)
        migrated)
      (migrateEach pregReplace mysql directory splitFactor mysqlConfigs) state
      fun _ _ => True := by
  induction mysqlConfigs generalizing state with
  | nil => exact runs_pure trivial
  | cons config rest induction =>
      refine runs_bind (runs_catch (runs_migrateDatabase plain factor
        (members config List.mem_cons_self))
        fun _ _ _ => runs_pure trivial) fun _ _ _ _ => ?_
      exact induction fun config later =>
        members config (List.mem_cons_of_mem _ later)

/-- A run of `migrate` changes the databases that are configured, step by
step. -/
theorem runs_migrate (mysqlConfigs : List MysqlConfig) (state : State τ) :
    Runs (Step directory.migrateName (scriptStatements pregReplace directory)
        fun server => ∃ config ∈ mysqlConfigs, config.server = server)
      (migrate pregReplace mysql mysqlConfigs directory) state
      fun _ _ => True := by
  unfold migrate
  split
  · exact runs_throw
  · next splitFactor factor =>
      exact runs_migrateEach plain factor
        fun config member => ⟨config, member, rfl⟩

end Scripts

/-- What failed for one database is caught before the next one. -/
theorem isOk_migrateEach (mysqlConfigs : List MysqlConfig) (state : State τ) :
    isOk (migrateEach pregReplace mysql directory splitFactor mysqlConfigs
      state) = true := by
  induction mysqlConfigs generalizing state with
  | nil => rfl
  | cons config rest induction =>
      have caught : ∃ between, (tryCatch
          (migrateDatabase pregReplace mysql directory splitFactor config)
          fun _ => pure ()) state = .ok () between := by
        cases outcome : migrateDatabase pregReplace mysql directory splitFactor
            config state with
        | ok _ between => exact ⟨between, tryCatch_of_ok outcome⟩
        | error _ between => exact ⟨between, tryCatch_of_error outcome⟩
      obtain ⟨between, caught⟩ := caught
      unfold migrateEach
      rw [bind_of_ok caught]
      exact induction between

/-- What the databases hold after any number of runs with the same scripts,
from databases that none of them has been executed on. -/
inductive Reachable (pregReplace : Bytes → Bytes → Bytes)
    (mysql : Bytes → Catalogue τ → Catalogue τ) (directory : Directory) :
    (Bytes × Bytes → Database) → Prop where
  | fresh {databases : Bytes × Bytes → Database}
      (unknown : ∀ server,
        (databases server).version directory.migrateName = none)
      (untouched : ∀ server, (databases server).executed = []) :
      Reachable pregReplace mysql directory databases
  | run {databases : Bytes × Bytes → Database}
      (former : Reachable pregReplace mysql directory databases)
      (mysqlConfigs : List MysqlConfig) (links : Link → Option (Option Bytes))
      (data : Bytes → τ) (answers : Nat → Bool) :
      Reachable pregReplace mysql directory
        (final (migrate pregReplace mysql mysqlConfigs directory
          { databases, links, data, answers })).databases

section Behind

variable (plain : ∀ number statements,
  scriptStatements pregReplace directory number = some statements →
    ∀ sql ∈ statements, Plain mysql sql)
include plain

theorem Reachable.consistent {databases : Bytes × Bytes → Database}
    (reachable : Reachable pregReplace mysql directory databases)
    (server : Bytes × Bytes) :
    Consistent directory.migrateName (scriptStatements pregReplace directory)
      (databases server) := by
  induction reachable generalizing server with
  | fresh unknown untouched =>
      refine ⟨?_, ?_, fun _ => untouched server, ?_⟩
      · intro version recorded
        cases (unknown server).symm.trans recorded
      · intro version recorded
        cases (unknown server).symm.trans recorded
      · rw [untouched server]
        exact .nil
  | run former mysqlConfigs links data answers induction =>
      exact invariant_of_steps
        (fun before after consistent step => Step.consistent consistent step)
        (runs_migrate plain mysqlConfigs _).steps induction server

/-- Whatever failed in the runs before, as long as the statements of the
scripts are plain: every statement up to the recorded version has been
executed, in the order of the scripts, and none after the next script.  A run
goes through all its databases and changes no others. -/
theorem history_behind_scripts {databases : Bytes × Bytes → Database}
    (reachable : Reachable pregReplace mysql directory databases) :
    (∀ server,
      (∀ version,
        (databases server).version directory.migrateName = some version →
        (∀ number, 1 ≤ number → number ≤ version →
          ∃ statements,
            scriptStatements pregReplace directory number = some statements ∧
            ∀ sql ∈ statements, (number, sql) ∈ (databases server).executed) ∧
        ∀ entry ∈ (databases server).executed, entry.1 ≤ version + 1) ∧
      ((databases server).version directory.migrateName = none →
        (databases server).executed = []) ∧
      (databases server).executed.Pairwise fun first second =>
        first.1 ≤ second.1) ∧
    ∀ (mysqlConfigs : List MysqlConfig) (links : Link → Option (Option Bytes))
      (data : Bytes → τ) (answers : Nat → Bool),
      (directory.splitFactor.isSome → isOk (migrate pregReplace mysql
        mysqlConfigs directory { databases, links, data, answers }) = true) ∧
      ∀ server, (∀ config ∈ mysqlConfigs, config.server ≠ server) →
        (final (migrate pregReplace mysql mysqlConfigs directory
          { databases, links, data, answers })).databases server =
            databases server := by
  constructor
  · intro server
    obtain ⟨complete, begun, untouched, ordered⟩ :=
      reachable.consistent plain server
    refine ⟨?_, untouched, ordered⟩
    intro version recorded
    exact ⟨complete version recorded, begun version recorded⟩
  · intro mysqlConfigs links data answers
    constructor
    · intro read
      obtain ⟨splitFactor, factor⟩ := Option.isSome_iff_exists.mp read
      unfold migrate
      rw [factor]
      exact isOk_migrateEach mysqlConfigs _
    · intro server other
      have unconfigured :
          ¬ ∃ config ∈ mysqlConfigs, config.server = server := by
        intro ⟨config, member, same⟩
        exact other config member same
      exact @invariant_of_steps (State τ) _
        (fun state => state.databases server = databases server)
        (fun before after same step => (step.others unconfigured).trans same)
        _ _ (runs_migrate plain mysqlConfigs
          { databases, links, data, answers }).steps rfl

end Behind

section Samples

/-- MySQL, as far as the scripts below need it. -/
def sampleMysql (sql : Bytes) (catalogue : Catalogue Unit) : Catalogue Unit :=
  if (ascii "USE ").isPrefixOf sql then
    { catalogue with selected := some (sql.drop 4) }
  else if sql = ascii "UPDATE MIGRATE_HISTORY SET version=9" then
    { catalogue with history := fun dbname =>
        if catalogue.selected = some dbname then
          (catalogue.history dbname).map (List.map fun row => (row.1, 9))
        else catalogue.history dbname }
  else catalogue

def sampleScripts (updateSqls : List (Key × Bytes)) : Directory where
  migrateName := ascii "main"
  splitString := none
  updateSqls := updateSqls

/-- Two scripts for the databases `a` and `b`. -/
def sampleDirectory : Directory :=
  sampleScripts
    [(.int 1, ascii "CREATE TABLE t (i INT);INSERT INTO t VALUES (1)"),
      (.int 2, ascii "INSERT INTO t VALUES (2);")]

def sampleConfig (dbname : Bytes) : MysqlConfig where
  host := ascii "localhost"
  port := ascii "3306"
  user := ascii "root"
  psw := []
  encode := ascii "utf8"
  dbname := dbname

/-- The databases after a run in which one attempt fails. -/
def sampleRun (mysqlConfigs : List MysqlConfig) (directory : Directory)
    (failing : Nat) : Bytes × Bytes → Database :=
  (final (migrate (fun _ sql => sql) sampleMysql mysqlConfigs directory
    { databases := fun _ => {}
      links := fun _ => none
      data := fun _ => ()
      answers := fun count => count ≠ failing })).databases

theorem reachable_sampleRun (mysqlConfigs : List MysqlConfig)
    (directory : Directory) (failing : Nat) :
    Reachable (fun _ sql => sql) sampleMysql directory
      (sampleRun mysqlConfigs directory failing) :=
  (Reachable.fresh (fun _ => rfl) fun _ => rfl).run _ _ _ _

theorem sampleDirectory_plain (number : Int) (statements : List Bytes)
    (found : scriptStatements (fun _ sql => sql) sampleDirectory number =
      some statements) :
    ∀ sql ∈ statements, Plain sampleMysql sql := by
  obtain ⟨splitFactor, factor, mapped⟩ := Option.bind_eq_some_iff.mp found
  cases factor
  obtain ⟨sqls, chosen, rfl⟩ := Option.map_eq_some_iff.mp mapped
  obtain ⟨entry, first, rfl⟩ := Option.map_eq_some_iff.mp chosen
  have others : ∀ entry ∈ sampleDirectory.updateSqls,
      ∀ sql ∈ Migration.statements (fun _ sql => sql) [] entry.2,
        (ascii "USE ").isPrefixOf sql = false ∧
          sql ≠ ascii "UPDATE MIGRATE_HISTORY SET version=9" := by
    decide +kernel
  intro sql member catalogue
  obtain ⟨notUse, notUpdate⟩ :=
    others entry (List.mem_of_find?_eq_some first) sql member
  unfold sampleMysql
  rw [notUse, if_neg Bool.false_ne_true, if_neg notUpdate]
  exact ⟨rfl, rfl⟩

theorem history_behind_scripts_sample :
    let run := sampleRun [sampleConfig (ascii "a"), sampleConfig (ascii "b")]
      sampleDirectory 8
    (run (sampleConfig (ascii "a")).server).version (ascii "main") = some 0 ∧
      (run (sampleConfig (ascii "b")).server).version (ascii "main") =
        some 2 ∧
      ∀ entry ∈ (run (sampleConfig (ascii "a")).server).executed,
        entry.1 ≤ 0 + 1 := by
  intro run
  have first : (run (sampleConfig (ascii "a")).server).version
      (ascii "main") = some 0 := by
    decide +kernel
  have second : (run (sampleConfig (ascii "b")).server).version
      (ascii "main") = some 2 := by
    decide +kernel
  refine ⟨first, second, ?_⟩
  exact ((history_behind_scripts sampleDirectory_plain
    (reachable_sampleRun _ _ _)).1 _).1 0 first |>.2

/-- A script that selects another database moves the version of that one,
where it has not been executed, and a script can move the version of its own
database. -/
theorem history_ahead_of_scripts :
    (∃ databases, Reachable (fun _ sql => sql) sampleMysql
        (sampleScripts [(.int 1, ascii "CREATE TABLE t (i INT);USE b")])
        databases ∧
      (databases (sampleConfig (ascii "b")).server).version (ascii "main") =
        some 1 ∧
      (databases (sampleConfig (ascii "b")).server).executed = []) ∧
    ∃ databases, Reachable (fun _ sql => sql) sampleMysql
        (sampleScripts [(.int 1, ascii
          "UPDATE MIGRATE_HISTORY SET version=9;CREATE TABLE t (i INT)")])
        databases ∧
      (databases (sampleConfig (ascii "a")).server).version (ascii "main") =
        some 9 ∧
      (databases (sampleConfig (ascii "a")).server).executed.length = 1 :=
  ⟨⟨_, reachable_sampleRun
      [sampleConfig (ascii "b"), sampleConfig (ascii "a")] _ 7,
      by decide +kernel, by decide +kernel⟩,
    _, reachable_sampleRun [sampleConfig (ascii "a")] _ 8,
    by decide +kernel, by decide +kernel⟩

end Samples

end

end Universe.Php.Migration
