import Mathlib.Data.List.Induction
import Mathlib.Data.List.Nodup
import Mathlib.Data.List.Perm.Basic
import Mathlib.Logic.Function.Basic
import Universe.Library.Stepwise
import Universe.Php.Keys
import Universe.Php.Migration

/-!
# The scripts of a migration

The versions are validated by the numbers they compare to, and the scripts are
found by the keys that the versions become.  Only a version in decimal notation
is found again.
-/

namespace Universe.Php.Migration

open Stepwise

/-- What is before the first `_` of a line that has `.sql` behind it. -/
def versionOfLine (line : Bytes) : Option Bytes :=
  let version := line.takeWhile (· != 95)
  if (line.drop (version.length + 1)).tails.any
      (fun rest => (ascii ".sql").isPrefixOf rest)
    then some version else none

/-- `preg_match("/(.*?)_.*\.sql/", …)`; the dot matches no line break. -/
def versionOf (updateFile : Bytes) : Option Bytes :=
  (updateFile.splitOn 10).findSome? versionOfLine

/-- A file of the directory that the pattern matches. -/
structure ScriptFile where
  name : Bytes
  contents : Bytes
  version : Bytes
  isMatch : versionOf name = some version

/-- `$update_sqls`. -/
def updateSqlsOf (files : List ScriptFile) : List (Key × Bytes) :=
  files.foldl (fun updateSqls file =>
    assign (.ofText file.version) file.contents updateSqls) []

/-- What PHP does with versions: `sort` rearranges them, and one that is not in
decimal notation is compared by the number it begins with. -/
structure Comparison where
  sort : List Bytes → List Bytes
  perm : ∀ versions, (sort versions).Perm versions
  numeric : Bytes → Int → Bool

/-- `$version == $number`. -/
def Comparison.equals (comparison : Comparison) (version : Bytes)
    (number : Int) : Bool :=
  match Key.ofText version with
  | .int value => value = number
  | .text text => comparison.numeric text number

/-- The loop of `check_version_list`. -/
def checkFrom (comparison : Comparison) : Int → List Bytes → Bool
  | _, [] => true
  | currentVersion, version :: rest =>
      if !comparison.equals version (currentVersion + 1) then false
      else checkFrom comparison (currentVersion + 1) rest

def checkVersionList (comparison : Comparison) (versionList : List Bytes) :
    Bool :=
  checkFrom comparison 0 (comparison.sort versionList)

/-- The directory of a schema, as `migrate` reads it. -/
structure Schema where
  migrateName : Bytes
  splitString : Option Bytes
  files : List ScriptFile

def Schema.directory (schema : Schema) : Directory where
  migrateName := schema.migrateName
  splitString := schema.splitString
  updateSqls := updateSqlsOf schema.files

inductive SchemaFailure where
  | migration (failure : Failure)
  | inconsistent

/-- `migrate` with the scripts it reads. -/
def migrateSchema {τ : Type} (pregReplace : Bytes → Bytes → Bytes)
    (mysql : Bytes → Catalogue τ → Catalogue τ) (comparison : Comparison)
    (mysqlConfigs : List MysqlConfig) (schema : Schema) :
    EStateM SchemaFailure (State τ) Unit :=
  if schema.directory.splitFactor.isNone then throw (.migration .split)
  else if !checkVersionList comparison (schema.files.map (·.version)) then
    throw .inconsistent
  else EStateM.adaptExcept .migration
    (migrate pregReplace mysql mysqlConfigs schema.directory)

/-! ## Validation -/

theorem Comparison.equals_of_int {comparison : Comparison} {version : Bytes}
    {value : Int} (key : Key.ofText version = .int value) (number : Int) :
    comparison.equals version number = decide (value = number) := by
  unfold equals
  rw [key]

theorem checkFrom_iff {comparison : Comparison} {currentVersion : Int}
    {versions : List Bytes} :
    checkFrom comparison currentVersion versions = true ↔
      ∀ (index : Nat) (version : Bytes), versions[index]? = some version →
        comparison.equals version (currentVersion + index + 1) = true := by
  induction versions generalizing currentVersion with
  | nil => simp [checkFrom]
  | cons version versions induction =>
      have split : checkFrom comparison currentVersion (version :: versions) =
            true ↔
          comparison.equals version (currentVersion + 1) = true ∧
            checkFrom comparison (currentVersion + 1) versions = true := by
        rw [checkFrom]
        cases comparison.equals version (currentVersion + 1) with
        | false => simp
        | true => simp
      rw [split, induction]
      constructor
      · rintro ⟨first, later⟩ index other found
        cases index with
        | zero =>
            cases found
            simpa using first
        | succ index =>
            have sum : currentVersion + (index + 1 : Nat) + 1 =
                currentVersion + 1 + index + 1 := by
              omega
            rw [sum]
            exact later index other found
      · intro all
        refine ⟨by simpa using all 0 version rfl, ?_⟩
        intro index other found
        have sum : currentVersion + 1 + index + 1 =
            currentVersion + (index + 1 : Nat) + 1 := by
          omega
        rw [sum]
        exact all (index + 1) other found

/-- The versions in the order in which they are validated, with their files. -/
theorem exists_arranged (comparison : Comparison) (files : List ScriptFile) :
    ∃ arranged : List ScriptFile, arranged.Perm files ∧
      comparison.sort (files.map (·.version)) = arranged.map (·.version) := by
  have perm := comparison.perm (files.map (·.version))
  have both := congrFun₂ (List.eq_map_comp_perm fun file : ScriptFile =>
    file.version) (comparison.sort (files.map (·.version))) files
  obtain ⟨arranged, same, rearranged⟩ := both.mpr perm
  exact ⟨arranged, rearranged, same⟩

/-- Validated versions in decimal notation are the numbers from 1 on. -/
theorem arranged_keys {comparison : Comparison} {files : List ScriptFile}
    (accepted : checkVersionList comparison (files.map (·.version)) = true)
    (decimals : ∀ file ∈ files, ∃ number, Key.ofText file.version = .int number) :
    ∃ arranged : List ScriptFile, arranged.Perm files ∧
      ∀ (index : Nat) (file : ScriptFile), arranged[index]? = some file →
        Key.ofText file.version = .int (index + 1) := by
  obtain ⟨arranged, perm, same⟩ := exists_arranged comparison files
  unfold checkVersionList at accepted
  rw [same, checkFrom_iff] at accepted
  refine ⟨arranged, perm, ?_⟩
  intro index file found
  obtain ⟨number, key⟩ :=
    decimals file (perm.mem_iff.mp (List.mem_of_getElem? found))
  have equal := accepted index file.version (by simp [found])
  rw [Comparison.equals_of_int key, decide_eq_true_eq, Int.zero_add] at equal
  rw [key, equal]

/-! ## The table of the scripts -/

/-- The last file with a version counts. -/
theorem script_updateSqlsOf (files : List ScriptFile) (number : Int) :
    script number (updateSqlsOf files) =
      (files.reverse.find? fun file =>
        Key.ofText file.version = .int number).map (·.contents) := by
  induction files using List.reverseRecOn with
  | nil => rfl
  | append_singleton files file induction =>
      have last : updateSqlsOf (files ++ [file]) =
          assign (.ofText file.version) file.contents (updateSqlsOf files) := by
        unfold updateSqlsOf
        rw [List.foldl_append]
        rfl
      unfold script at induction ⊢
      rw [last, find?_assign, List.reverse_append]
      by_cases same : Key.ofText file.version = .int number
      · simp [same]
      · simp [same, induction]

theorem script_eq_some {files : List ScriptFile} {number : Int} {sqls : Bytes}
    (found : script number (updateSqlsOf files) = some sqls) :
    ∃ file ∈ files, Key.ofText file.version = .int number ∧
      file.contents = sqls := by
  rw [script_updateSqlsOf] at found
  obtain ⟨file, here, same⟩ := Option.map_eq_some_iff.mp found
  refine ⟨file, List.mem_reverse.mp (List.mem_of_find?_eq_some here), ?_, same⟩
  simpa using List.find?_some here

theorem script_isSome {files : List ScriptFile} {file : ScriptFile}
    {number : Int} (member : file ∈ files)
    (key : Key.ofText file.version = .int number) :
    ∃ sqls, script number (updateSqlsOf files) = some sqls := by
  rw [script_updateSqlsOf]
  cases found : files.reverse.find? fun file =>
      Key.ofText file.version = .int number with
  | none =>
      have missing := List.find?_eq_none.mp found file
        (List.mem_reverse.mpr member)
      exact absurd (decide_eq_true key) missing
  | some other => exact ⟨_, rfl⟩

/-- Where the files are the numbers from 1 on, so are the scripts. -/
theorem script_arranged {files arranged : List ScriptFile}
    (perm : arranged.Perm files)
    (keys : ∀ (index : Nat) (file : ScriptFile),
      arranged[index]? = some file →
        Key.ofText file.version = .int (index + 1)) (index : Nat) :
    script (index + 1) (updateSqlsOf files) =
      (arranged[index]?).map (·.contents) := by
  cases found : arranged[index]? with
  | some file =>
      obtain ⟨sqls, here⟩ := script_isSome
        (perm.mem_iff.mp (List.mem_of_getElem? found)) (keys index file found)
      obtain ⟨other, member, key, same⟩ := script_eq_some here
      obtain ⟨place, there⟩ :=
        List.mem_iff_getElem?.mp (perm.mem_iff.mpr member)
      have equal := (keys place other there).symm.trans key
      have samePlace : place = index := by
        injection equal with equal
        omega
      rw [samePlace, found] at there
      cases there
      rw [here, ← same]
      rfl
  | none =>
      cases here : script (index + 1) (updateSqlsOf files) with
      | none => rfl
      | some sqls =>
          obtain ⟨other, member, key, -⟩ := script_eq_some here
          obtain ⟨place, there⟩ :=
            List.mem_iff_getElem?.mp (perm.mem_iff.mpr member)
          have equal := (keys place other there).symm.trans key
          have samePlace : place = index := by
            injection equal with equal
            omega
          rw [samePlace, found] at there
          cases there

/-- As many scripts as files leave no file over. -/
theorem decimals_of_scripts {files : List ScriptFile}
    (scripts : ∀ index < files.length, ∃ sqls,
      script (index + 1) (updateSqlsOf files) = some sqls) :
    ∀ file ∈ files, ∃ number, Key.ofText file.version = .int number := by
  have nodup : ((List.range files.length).map fun index : Nat =>
      Key.int (index + 1)).Nodup := by
    refine List.Nodup.map ?_ List.nodup_range
    intro first second same
    injection same with same
    omega
  have covered : ((List.range files.length).map fun index : Nat =>
      Key.int (index + 1)) ⊆ files.map fun file => Key.ofText file.version := by
    intro key member
    obtain ⟨index, less, rfl⟩ := List.mem_map.mp member
    obtain ⟨sqls, found⟩ := scripts index (List.mem_range.mp less)
    obtain ⟨file, here, key, -⟩ := script_eq_some found
    exact List.mem_map.mpr ⟨file, here, key⟩
  have perm := (List.subperm_of_subset nodup covered).perm_of_length_le
    (by simp)
  intro file member
  obtain ⟨index, -, same⟩ := List.mem_map.mp
    (perm.mem_iff.mpr (List.mem_map.mpr ⟨file, member, rfl⟩))
  exact ⟨_, same.symm⟩

end Universe.Php.Migration
