import Mathlib.Data.Set.Insert
import Universe.Php.Keys

/-!
# The tables of a model

`Model::tableNames` keeps the valid ids in a static of the base class, so that
the first sharded model of a process decides for all of them.
-/

namespace Universe.Php.Tables

/-- The constants of a subclass of `Model`. -/
structure ModelClass where
  className : Bytes
  table : Option Bytes := none
  shardTable : Option Bytes := none
  shardTableIds : Option (List Value) := none

/-- `self::$_table_id_map`, with its keys, and `self::$_all_shard_tables`. -/
structure Statics where
  tableIdMap : List Key := []
  allShardTables : List Bytes := []

/-- What `tableNames` returns, or how it ends the process. -/
inductive Answer where
  | name (table : Bytes)
  | names (tables : List Bytes)
  /-- `Logger::fatal`. -/
  | exited (message : Bytes)
  /-- `$static` is no class. -/
  | fatalError

def Answer.ends : Answer → Bool
  | .name _ | .names _ => false
  | .exited _ | .fatalError => true

/-- `Utility::camel2Snake`. -/
def camel2Snake (name : Bytes) : Bytes :=
  (name.flatMap fun byte =>
    if 65 ≤ byte && byte ≤ 90 then [95, byte + 32] else [byte]).dropWhile
      (· == 95)

/-- What is behind the last backslash. -/
def shortName (cls : Bytes) : Bytes :=
  (cls.splitOn 92).getLastD []

def requiredMessage (shardTable : Bytes) : Bytes :=
  ascii "SHARD_TABLE_IDS is required for SHARD_TABLE " ++ shardTable

def invalidMessage (tableId : Value) (shardTable : Bytes) : Bytes :=
  ascii "invalid table_id " ++ tableId.toText ++ ascii " for SHARD_TABLE " ++
    shardTable

/-- `isset(self::$_table_id_map[$table_id])`. -/
def isset (map : List Key) (tableId : Value) : Bool :=
  match tableId.key with
  | some key => map.contains key
  | none => false

/-- `tableNames` behind the loop that fills the map. -/
def lookup (shardTable : Bytes) (tableId : Value) (s : Statics) : Answer :=
  match tableId with
  | .null =>
      if s.allShardTables.isEmpty then .fatalError
      else .names s.allShardTables
  | tableId =>
      if isset s.tableIdMap tableId
        then .name (shardTable ++ ascii "_" ++ tableId.toText)
        else .exited (invalidMessage tableId shardTable)

def tableNames (cls : ModelClass) (tableId : Value) (s : Statics) :
    Answer × Statics :=
  match cls.table with
  | some table => (.name table, s)
  | none =>
      match cls.shardTable with
      | none => (.name (camel2Snake (shortName cls.className)), s)
      | some shardTable =>
          if s.tableIdMap.isEmpty then
            match cls.shardTableIds with
            | none => (.exited (requiredMessage shardTable), s)
            | some ids =>
                -- the variable of the loop is the parameter
                let tableId := ids.getLast?.getD tableId
                let s := { s with tableIdMap := ids.filterMap Value.key }
                (lookup shardTable tableId s, s)
          else (lookup shardTable tableId s, s)

/-- A process after some calls, if it is still there. -/
def after : List (ModelClass × Value) → Statics → Option Statics
  | [], s => some s
  | (cls, tableId) :: rest, s =>
      if (tableNames cls tableId s).1.ends then none
      else after rest (tableNames cls tableId s).2

/-- A call is answered as in a fresh process, whatever models have been used
before. -/
def Independent (classes : Set ModelClass) (cls : ModelClass)
    (tableId : Value) : Prop :=
  ∀ calls, (∀ call ∈ calls, call.1 ∈ classes) → ∀ s, after calls {} = some s →
    (tableNames cls tableId s).1 = (tableNames cls tableId {}).1

/-- A class is sharded. -/
def ModelClass.Sharded (cls : ModelClass) : Prop :=
  cls.table = none ∧ cls.shardTable ≠ none

/-- The ids that a class leaves in the map, where its first call returns. -/
def ModelClass.leaves (cls : ModelClass) : Option (List Key) :=
  match cls.table, cls.shardTable, cls.shardTableIds with
  | none, some _, some ids =>
      match ids.getLast? with
      | none | some .null | some (.array _) => none
      | some _ => some (ids.filterMap Value.key)
  | _, _, _ => none

/-- The id that the first call of a process looks up. -/
def ModelClass.first (ids : List Value) (tableId : Value) : Value :=
  ids.getLast?.getD tableId

/-- A call is answered by the ids of another class as by its own. -/
def ModelClass.Agrees (cls : ModelClass) (tableId : Value) (map : List Key) :
    Prop :=
  ∃ ids, cls.shardTableIds = some ids ∧
    (first ids tableId = .null ∧ tableId = .null ∨
      first ids tableId ≠ .null ∧ tableId ≠ .null ∧
        tableId.toText = (first ids tableId).toText ∧
        isset map tableId =
          isset (ids.filterMap Value.key) (first ids tableId))

/-! ## What a process keeps -/

/-- The statics once the map is filled. -/
def filled (map : List Key) : Statics := { tableIdMap := map }

theorem leaves_eq_some {cls : ModelClass} {map : List Key}
    (leaves : cls.leaves = some map) :
    ∃ shardTable ids last key, cls.table = none ∧
      cls.shardTable = some shardTable ∧ cls.shardTableIds = some ids ∧
      ids.getLast? = some last ∧ last ≠ .null ∧ last.key = some key ∧
      map = ids.filterMap Value.key := by
  unfold ModelClass.leaves at leaves
  split at leaves
  · next shardTable ids table shard given =>
      split at leaves
      · cases leaves
      · cases leaves
      · cases leaves
      · next last notNull notArray found =>
          cases leaves
          have keyed : ∃ key, last.key = some key := by
            cases last with
            | array entries => exact (notArray entries rfl).elim
            | _ => exact ⟨_, rfl⟩
          obtain ⟨key, keyed⟩ := keyed
          refine ⟨shardTable, ids, last, key, table, shard, given, found, ?_,
            keyed, rfl⟩
          rintro rfl
          exact notNull rfl
  · cases leaves

/-- The first call of a sharded class in a process. -/
theorem tableNames_fresh {cls : ModelClass} {shardTable : Bytes}
    {ids : List Value} (table : cls.table = none)
    (shard : cls.shardTable = some shardTable)
    (given : cls.shardTableIds = some ids) (tableId : Value) :
    tableNames cls tableId {} =
      (lookup shardTable (ModelClass.first ids tableId)
          (filled (ids.filterMap Value.key)),
        filled (ids.filterMap Value.key)) := by
  unfold tableNames
  rw [table, shard, given]
  rfl

theorem tableNames_filled {cls : ModelClass} {shardTable : Bytes}
    {map : List Key} (table : cls.table = none)
    (shard : cls.shardTable = some shardTable) (some : map ≠ [])
    (tableId : Value) :
    tableNames cls tableId (filled map) =
      (lookup shardTable tableId (filled map), filled map) := by
  have notEmpty : (filled map).tableIdMap.isEmpty = false :=
    Bool.eq_false_iff.mpr fun empty => some (List.isEmpty_iff.mp empty)
  unfold tableNames
  rw [table, shard]
  simp only [notEmpty, Bool.false_eq_true, if_false]

theorem tableNames_unsharded {cls : ModelClass} (unsharded : ¬ cls.Sharded)
    (tableId : Value) (s : Statics) :
    tableNames cls tableId s = ((tableNames cls tableId {}).1, s) ∧
      (tableNames cls tableId s).1.ends = false := by
  unfold ModelClass.Sharded at unsharded
  unfold tableNames
  cases table : cls.table with
  | some table => exact ⟨rfl, rfl⟩
  | none =>
      cases shard : cls.shardTable with
      | none => exact ⟨rfl, rfl⟩
      | some shardTable =>
          exact absurd ⟨table, by simp [shard]⟩ unsharded

theorem lookup_of_isset {shardTable : Bytes} {tableId : Value} {s : Statics}
    (notNull : tableId ≠ .null) :
    lookup shardTable tableId s =
      if isset s.tableIdMap tableId
        then .name (shardTable ++ ascii "_" ++ tableId.toText)
        else .exited (invalidMessage tableId shardTable) := by
  cases tableId with
  | null => exact absurd rfl notNull
  | _ => rfl

theorem lookup_returns_iff {shardTable : Bytes} {tableId : Value}
    {map : List Key} :
    (lookup shardTable tableId (filled map)).ends = false ↔
      tableId ≠ .null ∧ isset map tableId = true := by
  by_cases null : tableId = .null
  · subst null
    exact ⟨fun returns => Bool.noConfusion returns,
      fun ⟨notNull, _⟩ => absurd rfl notNull⟩
  · rw [lookup_of_isset null]
    change Answer.ends (ite (isset map tableId = true) _ _) = false ↔ _
    by_cases valid : isset map tableId = true
    · rw [if_pos valid]
      exact ⟨fun _ => ⟨null, valid⟩, fun _ => rfl⟩
    · rw [if_neg valid]
      exact ⟨fun returns => Bool.noConfusion returns,
        fun ⟨_, here⟩ => absurd here valid⟩

theorem isset_eq_true {map : List Key} {tableId : Value}
    (valid : isset map tableId = true) :
    ∃ key ∈ map, tableId.key = some key := by
  unfold isset at valid
  cases keyed : tableId.key with
  | none =>
      rw [keyed] at valid
      cases valid
  | some key =>
      rw [keyed] at valid
      exact ⟨key, List.contains_iff_mem.mp valid, rfl⟩

theorem isset_of_mem {ids : List Value} {id : Value} {key : Key}
    (member : id ∈ ids) (keyed : id.key = some key) :
    isset (ids.filterMap Value.key) id = true := by
  unfold isset
  rw [keyed]
  exact List.contains_iff_mem.mpr
    (List.mem_filterMap.mpr ⟨id, member, keyed⟩)

/-- A class leaves its ids behind, whatever is asked for. -/
theorem tableNames_leaves {cls : ModelClass} {map : List Key}
    (leaves : cls.leaves = some map) (tableId : Value) :
    map ≠ [] ∧ (tableNames cls tableId {}).1.ends = false ∧
      (tableNames cls tableId {}).2 = filled map := by
  obtain ⟨shardTable, ids, last, key, table, shard, given, found, notNull,
    keyed, rfl⟩ := leaves_eq_some leaves
  have valid := isset_of_mem (List.mem_of_getLast? found) keyed
  obtain ⟨_, member, -⟩ := isset_eq_true valid
  have first : ModelClass.first ids tableId = last := by
    unfold ModelClass.first
    rw [found]
    rfl
  rw [tableNames_fresh table shard given, first]
  exact ⟨List.ne_nil_of_mem member,
    lookup_returns_iff.mpr ⟨notNull, valid⟩, rfl⟩

/-- A call in a fresh process that returns leaves it fresh, or leaves the ids
of its class. -/
theorem tableNames_returns {cls : ModelClass} {tableId : Value}
    (returns : (tableNames cls tableId {}).1.ends = false) :
    (tableNames cls tableId {}).2 = {} ∨
      ∃ map, cls.leaves = some map ∧
        (tableNames cls tableId {}).2 = filled map := by
  by_cases sharded : cls.Sharded
  · obtain ⟨table, isShard⟩ := sharded
    obtain ⟨shardTable, shard⟩ := Option.ne_none_iff_exists'.mp isShard
    cases given : cls.shardTableIds with
    | none =>
        unfold tableNames at returns
        rw [table, shard, given] at returns
        cases returns
    | some ids =>
        rw [tableNames_fresh table shard given] at returns ⊢
        obtain ⟨notNull, valid⟩ := lookup_returns_iff.mp returns
        obtain ⟨key, member, keyed⟩ := isset_eq_true valid
        refine .inr ⟨_, ?_, rfl⟩
        unfold ModelClass.leaves
        rw [table, shard, given]
        unfold ModelClass.first at notNull keyed
        cases found : ids.getLast? with
        | none =>
            rw [List.getLast?_eq_none_iff.mp found] at member
            cases member
        | some last =>
            rw [found] at notNull keyed
            cases last with
            | null => exact absurd rfl notNull
            | array entries => cases keyed
            | _ => simp only [found]
  · rw [(tableNames_unsharded sharded tableId {}).1]
    exact .inl rfl

/-- Where the map is filled, it stays. -/
theorem tableNames_stays {map : List Key} (some : map ≠ [])
    (cls : ModelClass) (tableId : Value) :
    (tableNames cls tableId (filled map)).2 = filled map := by
  by_cases sharded : cls.Sharded
  · obtain ⟨table, isShard⟩ := sharded
    obtain ⟨shardTable, shard⟩ := Option.ne_none_iff_exists'.mp isShard
    rw [tableNames_filled table shard some]
  · rw [(tableNames_unsharded sharded tableId _).1]

theorem after_filled {map : List Key} (some : map ≠ [])
    {calls : List (ModelClass × Value)} {s : Statics}
    (ran : after calls (filled map) = Option.some s) : s = filled map := by
  induction calls with
  | nil =>
      cases ran
      rfl
  | cons call calls induction =>
      rw [after, tableNames_stays some] at ran
      obtain ⟨-, ran⟩ := Option.ite_none_left_eq_some.mp ran
      exact induction ran

/-- What calls on some classes can leave. -/
theorem after_eq {classes : Set ModelClass}
    {calls : List (ModelClass × Value)} {s : Statics}
    (used : ∀ call ∈ calls, call.1 ∈ classes)
    (ran : after calls {} = some s) :
    s = {} ∨ ∃ other ∈ classes, ∃ map, other.leaves = some map ∧
      s = filled map := by
  induction calls with
  | nil =>
      cases ran
      exact .inl rfl
  | cons call calls induction =>
      obtain ⟨here, later⟩ := List.forall_mem_cons.mp used
      obtain ⟨returns, ran⟩ := Option.ite_none_left_eq_some.mp ran
      rcases tableNames_returns (Bool.eq_false_iff.mpr returns) with
        fresh | ⟨map, leaves, kept⟩
      · rw [fresh] at ran
        exact induction later ran
      · rw [kept] at ran
        have some := (tableNames_leaves leaves call.2).1
        exact .inr ⟨call.1, here, map, leaves, after_filled some ran⟩

theorem after_leaves {cls : ModelClass} {map : List Key}
    (leaves : cls.leaves = some map) (tableId : Value) :
    after [(cls, tableId)] {} = some (filled map) := by
  obtain ⟨-, returns, kept⟩ := tableNames_leaves leaves tableId
  rw [after, returns, kept]
  rfl

theorem answer_inj {shardTable : Bytes} {first second : Value}
    {firstValid secondValid : Bool} :
    (if firstValid then Answer.name (shardTable ++ ascii "_" ++ first.toText)
        else .exited (invalidMessage first shardTable)) =
      (if secondValid then .name (shardTable ++ ascii "_" ++ second.toText)
        else .exited (invalidMessage second shardTable)) ↔
      second.toText = first.toText ∧ secondValid = firstValid := by
  unfold invalidMessage
  cases firstValid with
  | false =>
      cases secondValid with
      | false => simp [eq_comm]
      | true => simp
  | true =>
      cases secondValid with
      | false => simp
      | true => simp [eq_comm]

/-- Two answers of `lookup` for one class. -/
theorem lookup_eq_iff {shardTable : Bytes} {first second : Value}
    {firstMap secondMap : List Key} :
    lookup shardTable first (filled firstMap) =
        lookup shardTable second (filled secondMap) ↔
      (first = .null ∧ second = .null ∨
        first ≠ .null ∧ second ≠ .null ∧ second.toText = first.toText ∧
          isset secondMap second = isset firstMap first) := by
  have null (map : List Key) :
      lookup shardTable .null (filled map) = .fatalError := rfl
  have different {tableId : Value} (map : List Key)
      (notNull : tableId ≠ .null) :
      lookup shardTable tableId (filled map) ≠ .fatalError := by
    rw [lookup_of_isset notNull]
    split
    · exact Answer.noConfusion
    · exact Answer.noConfusion
  by_cases firstNull : first = .null
  · subst firstNull
    by_cases secondNull : second = .null
    · subst secondNull
      simp [null]
    · simp [null, secondNull, (different secondMap secondNull).symm]
  · by_cases secondNull : second = .null
    · subst secondNull
      simp [null, firstNull, different firstMap firstNull]
    · rw [lookup_of_isset firstNull, lookup_of_isset secondNull]
      simp only [firstNull, secondNull, false_and, false_or, ne_eq,
        not_false_eq_true, true_and]
      exact answer_inj

/-- A missing list of ids is told differently. -/
theorem lookup_ne_required {shardTable : Bytes} (tableId : Value)
    (map : List Key) :
    lookup shardTable tableId (filled map) ≠
      .exited (requiredMessage shardTable) := by
  by_cases null : tableId = .null
  · subst null
    exact Answer.noConfusion
  · rw [lookup_of_isset null]
    split
    · exact Answer.noConfusion
    · intro same
      injection same with same
      have first : some (105 : UInt8) = some 83 := congrArg List.head? same
      revert first
      decide

/-- The ids of one class decide for another one. -/
theorem answer_eq_iff {cls : ModelClass} {map : List Key} (some : map ≠ [])
    (sharded : cls.Sharded) (tableId : Value) :
    (tableNames cls tableId (filled map)).1 = (tableNames cls tableId {}).1 ↔
      cls.Agrees tableId map := by
  obtain ⟨table, isShard⟩ := sharded
  obtain ⟨shardTable, shard⟩ := Option.ne_none_iff_exists'.mp isShard
  rw [tableNames_filled table shard some]
  unfold ModelClass.Agrees
  cases given : cls.shardTableIds with
  | none =>
      have fresh : (tableNames cls tableId {}).1 =
          .exited (requiredMessage shardTable) := by
        unfold tableNames
        rw [table, shard, given]
        rfl
      rw [fresh]
      simp [lookup_ne_required]
  | some ids =>
      rw [tableNames_fresh table shard given]
      simp only [Option.some.injEq, exists_eq_left']
      rw [eq_comm]
      exact lookup_eq_iff

/-- The answers to a call are independent of the models used before exactly if
its class is not sharded, or agrees with each one that leaves its ids. -/
theorem independent_iff_agrees (classes : Set ModelClass) (cls : ModelClass)
    (tableId : Value) :
    Independent classes cls tableId ↔
      ¬ cls.Sharded ∨ ∀ other ∈ classes, ∀ map, other.leaves = some map →
        cls.Agrees tableId map := by
  by_cases sharded : cls.Sharded
  · simp only [sharded, not_true_eq_false, false_or]
    constructor
    · intro independent other member map leaves
      have some := (tableNames_leaves leaves .null).1
      refine (answer_eq_iff some sharded tableId).mp
        (independent [(other, .null)] ?_ _ (after_leaves leaves .null))
      intro call isCall
      rw [List.mem_singleton.mp isCall]
      exact member
    · intro agrees calls used s ran
      rcases after_eq used ran with rfl | ⟨other, member, map, leaves, rfl⟩
      · rfl
      · have some := (tableNames_leaves leaves .null).1
        exact (answer_eq_iff some sharded tableId).mpr
          (agrees other member map leaves)
  · simp only [sharded, not_false_eq_true, true_or, iff_true]
    intro calls used s ran
    rw [(tableNames_unsharded sharded tableId s).1]

/-- A model with the tables 0 and 1. -/
def userModel : ModelClass where
  className := ascii "App\\Model\\User"
  shardTable := some (ascii "user")
  shardTableIds := some [.int 0, .int 1]

/-- A model with the tables 0 to 3. -/
def orderModel : ModelClass where
  className := ascii "App\\Model\\Order"
  shardTable := some (ascii "order")
  shardTableIds := some [.int 0, .int 1, .int 2, .int 3]

theorem order_rejected_after_user :
    ¬ ∀ (classes : Set ModelClass) (cls : ModelClass) (tableId : Value),
      cls ∈ classes → Independent classes cls tableId := by
  intro independent
  have same := independent {userModel, orderModel} orderModel (.int 3)
    (by simp) [(userModel, .int 0)] (by simp) (filled [.int 0, .int 1]) rfl
  cases same

end Universe.Php.Tables
