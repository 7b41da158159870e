import Mathlib.Data.Set.Function
import Universe.Php.Tables

/-!
# The names of tables

A model that names no table has the table whose name is that of its class in
snake case.  `Utility` goes from one spelling to the other and back, so that
every such model has a table of its own and every table a model.
-/

namespace Universe.Php.Tables

def isCapital (byte : UInt8) : Bool := 65 ≤ byte && byte ≤ 90

def isSmall (byte : UInt8) : Bool := 97 ≤ byte && byte ≤ 122

/-- `toupper` of one byte. -/
def upperCase (byte : UInt8) : UInt8 :=
  if isSmall byte then byte - 32 else byte

/-- Behind these bytes `ucwords` begins a word. -/
def delimits (byte : UInt8) : Bool := byte == 32 || (9 ≤ byte && byte ≤ 13)

/-- `ucwords` of a text in front of which a word begins or does not. -/
def ucwords (begins : Bool) : Bytes → Bytes
  | [] => []
  | byte :: rest =>
      (if begins then upperCase byte else byte) :: ucwords (delimits byte) rest

/-- `Utility::snake2Camel`. -/
def snake2Camel (name : Bytes) : Bytes :=
  (ucwords true (name.map fun byte => if byte = 95 then 32 else byte)).filter
    (· ≠ 32)

/-- A byte that may be anywhere in a word. -/
def isInner (byte : UInt8) : Bool := byte ≠ 95 && !delimits byte

/-- Names like `ProjectTask`. -/
def IsCamel : Bytes → Prop
  | [] => False
  | byte :: rest => isCapital byte = true ∧ ∀ inner ∈ rest, isInner inner = true

/-- The rest of a name like `project_task`, in front of which a word begins or
does not. -/
def snakeFrom (begins : Bool) : Bytes → Bool
  | [] => !begins
  | byte :: rest =>
      if begins then isSmall byte && snakeFrom false rest
      else if byte = 95 then snakeFrom true rest
      else isInner byte && !isCapital byte && snakeFrom false rest

def IsSnake (name : Bytes) : Prop := snakeFrom true name = true

section Letters

variable {byte : UInt8}

theorem capital_spelled (capital : isCapital byte = true) :
    byte + 32 ≠ 95 ∧ isSmall (byte + 32) = true ∧
      upperCase (byte + 32) = byte := by
  simp only [upperCase, isCapital, isSmall, Bool.and_eq_true, decide_eq_true_eq,
    UInt8.le_iff_toNat_le, ne_eq, ← UInt8.toNat_inj, UInt8.toNat_add] at *
  simp at *
  have small : (97 : Nat) ≤ (byte.toNat + 32) % 256 ∧
      (byte.toNat + 32) % 256 ≤ 122 := by
    omega
  rw [if_pos small]
  exact ⟨by omega, small, by simp⟩

theorem small_spelled (small : isSmall byte = true) :
    isCapital (upperCase byte) = true ∧ upperCase byte + 32 = byte := by
  unfold upperCase
  rw [if_pos small]
  simp only [isSmall, isCapital, Bool.and_eq_true, decide_eq_true_eq,
    UInt8.le_iff_toNat_le] at *
  have least : (32 : UInt8) ≤ byte := by
    rw [UInt8.le_iff_toNat_le]
    simp at *
    omega
  rw [UInt8.toNat_sub_of_le _ _ least]
  simp at *
  omega

theorem capital_inner (capital : isCapital byte = true) :
    isInner byte = true := by
  simp only [isCapital, Bool.and_eq_true, decide_eq_true_eq,
    UInt8.le_iff_toNat_le] at capital
  simp [isInner, delimits, UInt8.lt_iff_toNat_lt, ← UInt8.toNat_inj] at *
  omega

theorem small_inner (small : isSmall byte = true) : isInner byte = true := by
  simp only [isSmall, Bool.and_eq_true, decide_eq_true_eq,
    UInt8.le_iff_toNat_le] at small
  simp [isInner, delimits, UInt8.lt_iff_toNat_lt, ← UInt8.toNat_inj] at *
  omega

theorem inner_plain (inner : isInner byte = true) :
    byte ≠ 95 ∧ byte ≠ 32 ∧ delimits byte = false := by
  simp only [isInner, Bool.and_eq_true, decide_eq_true_eq,
    Bool.not_eq_true'] at inner
  refine ⟨inner.1, ?_, inner.2⟩
  rintro rfl
  exact absurd inner.2 (by decide)

end Letters

/-- `camel2Snake` before the first underscores are taken away. -/
def parted (name : Bytes) : Bytes :=
  name.flatMap fun byte =>
    if isCapital byte then [95, byte + 32] else [byte]

/-- `snake2Camel` of a text in front of which a word begins or does not. -/
def joined (begins : Bool) (name : Bytes) : Bytes :=
  (ucwords begins (name.map fun byte => if byte = 95 then 32 else byte)).filter
    (· ≠ 32)

section Spellings

variable {byte : UInt8}

theorem parted_capital (capital : isCapital byte = true) (rest : Bytes) :
    parted (byte :: rest) = 95 :: (byte + 32) :: parted rest := by
  unfold parted
  rw [List.flatMap_cons, if_pos capital]
  rfl

theorem parted_other (other : isCapital byte = false) (rest : Bytes) :
    parted (byte :: rest) = byte :: parted rest := by
  unfold parted
  rw [List.flatMap_cons, if_neg (Bool.eq_false_iff.mp other)]
  rfl

theorem joined_underscore (rest : Bytes) :
    joined false (95 :: rest) = joined true rest := rfl

theorem joined_inner (inner : isInner byte = true) (rest : Bytes) :
    joined false (byte :: rest) = byte :: joined false rest := by
  obtain ⟨notUnderscore, notSpace, plain⟩ := inner_plain inner
  unfold joined
  rw [List.map_cons, if_neg notUnderscore, ucwords, plain,
    List.filter_cons_of_pos (by simpa using notSpace)]
  rfl

theorem joined_small (small : isSmall byte = true) (rest : Bytes) :
    joined true (byte :: rest) = upperCase byte :: joined false rest := by
  obtain ⟨notUnderscore, -, plain⟩ := inner_plain (small_inner small)
  have notSpace := (inner_plain (capital_inner (small_spelled small).1)).2.1
  unfold joined
  rw [List.map_cons, if_neg notUnderscore, ucwords, plain,
    List.filter_cons_of_pos (by simpa using notSpace)]
  rfl

/-- The words of a name are joined again. -/
theorem joined_parted {rest : Bytes} (inner : ∀ byte ∈ rest, isInner byte = true) :
    joined false (parted rest) = rest ∧ snakeFrom false (parted rest) = true := by
  induction rest with
  | nil => exact ⟨rfl, rfl⟩
  | cons byte rest induction =>
      obtain ⟨innerByte, innerRest⟩ := List.forall_mem_cons.mp inner
      obtain ⟨same, isRest⟩ := induction innerRest
      cases capital : isCapital byte with
      | true =>
          obtain ⟨-, small, spelled⟩ := capital_spelled capital
          rw [parted_capital capital, joined_underscore, joined_small small,
            spelled, same]
          refine ⟨rfl, ?_⟩
          simp [snakeFrom, small, isRest]
      | false =>
          rw [parted_other capital, joined_inner innerByte, same]
          refine ⟨rfl, ?_⟩
          simp [snakeFrom, innerByte, (inner_plain innerByte).1, capital, isRest]

/-- The words of a name are parted again. -/
theorem parted_joined {begins : Bool} {name : Bytes}
    (isName : snakeFrom begins name = true) :
    parted (joined begins name) = (if begins then [95] else []) ++ name ∧
      ∀ byte ∈ joined begins name, isInner byte = true := by
  induction name generalizing begins with
  | nil =>
      cases begins with
      | true => cases isName
      | false => exact ⟨rfl, fun byte member => by cases member⟩
  | cons byte rest induction =>
      cases begins with
      | true =>
          simp only [snakeFrom, if_true, Bool.and_eq_true] at isName
          obtain ⟨same, inner⟩ := induction isName.2
          obtain ⟨capital, spelled⟩ := small_spelled isName.1
          rw [joined_small isName.1, parted_capital capital, spelled, same]
          exact ⟨rfl, List.forall_mem_cons.mpr ⟨capital_inner capital, inner⟩⟩
      | false =>
          simp only [snakeFrom, Bool.false_eq_true, if_false] at isName
          split at isName
          · next underscore =>
              rw [underscore, joined_underscore]
              exact induction isName
          · simp only [Bool.and_eq_true, Bool.not_eq_true'] at isName
            obtain ⟨same, inner⟩ := induction isName.2
            rw [joined_inner isName.1.1, parted_other isName.1.2, same]
            exact ⟨rfl, List.forall_mem_cons.mpr ⟨isName.1.1, inner⟩⟩

end Spellings

theorem camel_spelled {name : Bytes} (camel : IsCamel name) :
    IsSnake (camel2Snake name) ∧ snake2Camel (camel2Snake name) = name := by
  cases name with
  | nil => cases camel
  | cons byte rest =>
      obtain ⟨capital, inner⟩ := camel
      obtain ⟨notUnderscore, small, spelled⟩ := capital_spelled capital
      obtain ⟨same, isRest⟩ := joined_parted inner
      have snake : camel2Snake (byte :: rest) = (byte + 32) :: parted rest := by
        change (parted (byte :: rest)).dropWhile (· == 95) = _
        rw [parted_capital capital, List.dropWhile_cons_of_pos rfl,
          List.dropWhile_cons_of_neg (by simpa using notUnderscore)]
      rw [snake]
      constructor
      · simp [IsSnake, snakeFrom, small, isRest]
      · exact (joined_small small _).trans (by rw [spelled, same])

theorem snake_spelled {name : Bytes} (snake : IsSnake name) :
    IsCamel (snake2Camel name) ∧ camel2Snake (snake2Camel name) = name := by
  cases name with
  | nil => cases snake
  | cons byte rest =>
      have parts : isSmall byte = true ∧ snakeFrom false rest = true := by
        simpa [IsSnake, snakeFrom] using snake
      obtain ⟨same, inner⟩ := parted_joined parts.2
      have camel : snake2Camel (byte :: rest) =
          upperCase byte :: joined false rest := joined_small parts.1 rest
      obtain ⟨capital, spelled⟩ := small_spelled parts.1
      have notUnderscore := (inner_plain (small_inner parts.1)).1
      rw [camel]
      refine ⟨⟨capital, inner⟩, ?_⟩
      change (parted (upperCase byte :: joined false rest)).dropWhile
        (· == 95) = _
      rw [parted_capital capital, spelled, same, List.dropWhile_cons_of_pos rfl,
        List.dropWhile_cons_of_neg (by simpa using notUnderscore)]
      rfl

/-- The names of classes in camel case and those of tables in snake case are
spellings of each other, and a model that names no table of its own has the
table from whose name that of its class is read back. -/
theorem tables_tell_models_apart :
    Set.BijOn camel2Snake {name | IsCamel name} {name | IsSnake name} ∧
    Set.InvOn snake2Camel camel2Snake {name | IsCamel name}
      {name | IsSnake name} ∧
    ∀ cls : ModelClass, cls.table = none → cls.shardTable = none →
      IsCamel (shortName cls.className) → ∀ tableId s, ∃ table,
        tableNames cls tableId s = (.name table, s) ∧
          snake2Camel table = shortName cls.className := by
  have inverse : Set.InvOn snake2Camel camel2Snake {name | IsCamel name}
      {name | IsSnake name} :=
    ⟨fun _ camel => (camel_spelled camel).2,
      fun _ snake => (snake_spelled snake).2⟩
  refine ⟨inverse.bijOn (fun _ camel => (camel_spelled camel).1)
    (fun _ snake => (snake_spelled snake).1), inverse, ?_⟩
  intro cls noTable noShards camel tableId s
  refine ⟨_, ?_, (camel_spelled camel).2⟩
  unfold tableNames
  rw [noTable, noShards]

/-- A class that names no table. -/
def projectTask : ModelClass where
  className := ascii "App\\Model\\ProjectTask"

theorem project_task_told_apart :
    tableNames projectTask .null {} = (.name (ascii "project_task"), {}) ∧
      snake2Camel (ascii "project_task") = ascii "ProjectTask" := by
  have camel : IsCamel (shortName projectTask.className) := by
    have short : shortName projectTask.className = ascii "ProjectTask" := by
      decide +kernel
    rw [short]
    exact ⟨by decide +kernel, by decide +kernel⟩
  obtain ⟨table, named, spelled⟩ :=
    tables_tell_models_apart.2.2 projectTask rfl rfl camel .null {}
  have same : table = ascii "project_task" := by
    have computed : tableNames projectTask .null {} =
        (.name (camel2Snake (shortName projectTask.className)), {}) := rfl
    rw [computed] at named
    cases named
    decide +kernel
  rw [same] at named spelled
  exact ⟨named, spelled.trans (by decide +kernel)⟩

end Universe.Php.Tables
