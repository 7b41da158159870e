import Universe.Php.MySQL

/-!
# What a failed statement does to the result

The result of a statement is tested and then dropped, so that a call that
returns says it has succeeded.
-/

namespace Universe.Php.MySQL

section Tries

variable (sql : Value) (bindings : List (Key × Value))

/-- A try succeeds. -/
def Attempt.accepts (attempt : Attempt) : Bool :=
  attempt.prepare sql && attempt.executes bindings

/-- A try fails, and there is a connection for the next one. -/
def Attempt.Retried (attempt : Attempt) : Prop :=
  attempt.accepts sql bindings = false ∧ attempt.connects = true

/-- A try ends a statement, and those before it are retried. -/
def Ends (final : Attempt → Prop) (attempts : Nat → Attempt) (times : Nat) :
    Prop :=
  ∃ i < times, final (attempts i) ∧
    ∀ j < i, (attempts j).Retried sql bindings

/-- A statement succeeds. -/
def Accepted : (Nat → Attempt) → Nat → Prop :=
  Ends sql bindings fun attempt => attempt.accepts sql bindings = true

/-- A try fails, and connecting again does. -/
def Broken : (Nat → Attempt) → Nat → Prop :=
  Ends sql bindings fun attempt =>
    attempt.accepts sql bindings = false ∧ attempt.connects = false

/-- All the tries of a statement fail. -/
def Exhausted (attempts : Nat → Attempt) (times : Nat) : Prop :=
  ∀ i < times, (attempts i).Retried sql bindings

variable {sql bindings} {attempts : Nat → Attempt}

theorem tries_succ (times : Nat) :
    tries sql bindings (times + 1) attempts =
      if (attempts 0).accepts sql bindings then .ok true
      else if (attempts 0).connects then
        tries sql bindings times fun i => attempts (i + 1)
      else .error () := by
  rw [tries]
  unfold Attempt.accepts connect
  cases (attempts 0).prepare sql with
  | false =>
      cases (attempts 0).connects with
      | false => rfl
      | true => rfl
  | true =>
      cases (attempts 0).executes bindings with
      | true => rfl
      | false =>
          cases (attempts 0).connects with
          | false => rfl
          | true => rfl

theorem ends_zero (final : Attempt → Prop) :
    ¬ Ends sql bindings final attempts 0 := by
  rintro ⟨i, less, -⟩
  exact absurd less (Nat.not_lt_zero i)

theorem ends_succ (final : Attempt → Prop) (times : Nat) :
    Ends sql bindings final attempts (times + 1) ↔
      final (attempts 0) ∨ (attempts 0).Retried sql bindings ∧
        Ends sql bindings final (fun i => attempts (i + 1)) times := by
  unfold Ends
  constructor
  · rintro ⟨i, less, ends, before⟩
    cases i with
    | zero => exact .inl ends
    | succ i =>
        refine .inr ⟨before 0 (Nat.succ_pos i), i, by omega, ends, ?_⟩
        intro j earlier
        exact before (j + 1) (by omega)
  · rintro (ends | ⟨first, i, less, ends, before⟩)
    · exact ⟨0, by omega, ends, fun j earlier => by omega⟩
    · refine ⟨i + 1, by omega, ends, ?_⟩
      intro j earlier
      cases j with
      | zero => exact first
      | succ j => exact before j (by omega)

theorem exhausted_succ (times : Nat) :
    Exhausted sql bindings attempts (times + 1) ↔
      (attempts 0).Retried sql bindings ∧
        Exhausted sql bindings (fun i => attempts (i + 1)) times :=
  Nat.forall_lt_succ_left

theorem tries_eq_true_iff (times : Nat) :
    tries sql bindings times attempts = .ok true ↔
      Accepted sql bindings attempts times := by
  induction times generalizing attempts with
  | zero =>
      refine ⟨?_, fun accepted => absurd accepted (ends_zero _)⟩
      intro returned
      cases returned
  | succ times induction =>
      unfold Accepted at induction ⊢
      rw [tries_succ, ends_succ, ← induction]
      unfold Attempt.Retried
      cases (attempts 0).accepts sql bindings with
      | true => simp
      | false =>
          cases (attempts 0).connects with
          | true => simp
          | false => simp

theorem tries_eq_false_iff (times : Nat) :
    tries sql bindings times attempts = .ok false ↔
      Exhausted sql bindings attempts times := by
  induction times generalizing attempts with
  | zero => exact ⟨fun _ i less => absurd less (Nat.not_lt_zero i), fun _ => rfl⟩
  | succ times induction =>
      rw [tries_succ, exhausted_succ, ← induction]
      unfold Attempt.Retried
      cases (attempts 0).accepts sql bindings with
      | true => simp
      | false =>
          cases (attempts 0).connects with
          | true => simp
          | false => simp

theorem tries_returns_iff (times : Nat) :
    (∃ success, tries sql bindings times attempts = .ok success) ↔
      ¬ Broken sql bindings attempts times := by
  induction times generalizing attempts with
  | zero => exact ⟨fun _ => ends_zero _, fun _ => ⟨false, rfl⟩⟩
  | succ times induction =>
      unfold Broken at induction ⊢
      rw [tries_succ, ends_succ]
      unfold Attempt.Retried
      cases (attempts 0).accepts sql bindings with
      | true => simp
      | false =>
          cases (attempts 0).connects with
          | true => simpa using induction
          | false => simp

end Tries

/-- A call of one of the three functions. -/
inductive Write where
  | insert (data : List (Key × Value)) (parameters : Value)
  | update (parameters : Value) (data : List (Key × Value))
  | delete (parameters : Value)

namespace Write

/-- The function of `Client\MySQL`, as the one of `Model` calls it. -/
def client (server : Server) (tables : Value) : Write → Except Unit Value
  | .insert data parameters =>
      MySQL.insert server tables data
        (.bool (parameters.index (.text (ascii "return_id"))).truthy)
        (parameters.index (.text (ascii "id_name"))).unlessEmpty
  | .update parameters data => MySQL.update server tables parameters data
  | .delete parameters => MySQL.delete server tables parameters

/-- The function of `Model`. -/
def model (shards : List Model.Shard) (tables : Value) :
    Write → Except Unit Value
  | .insert data parameters => Model.insert shards tables data parameters
  | .update parameters data => Model.update shards tables parameters data
  | .delete parameters => Model.delete shards tables parameters

/-- The statement of each table. -/
def sqls (tables : Value) : Write → List Value
  | .insert data _ => (tableList tables).map (insertSql data)
  | .update parameters data =>
      accumulated .null ((tableList tables).map (updateSql parameters data))
  | .delete parameters => (tableList tables).map (deleteSql parameters)

def bindings : Write → List (Key × Value)
  | .insert data _ => (dataOf data).2.2
  | .update parameters data => updateBindings parameters data
  | .delete parameters => (getWhereAndBindings parameters).2

variable (write : Write)

/-- One of the statements that are executed fails after its retries. -/
def Failed (server : Server) (tables : Value) : Prop :=
  ∃ i sql, (write.sqls tables)[i]? = some sql ∧
    (∀ j < i, ∀ earlier, (write.sqls tables)[j]? = some earlier →
      ∃ success, execute (server.attempts j) earlier write.bindings =
        .ok success) ∧
    execute (server.attempts i) sql write.bindings = .ok false

/-- No statement is exhausted before connecting fails. -/
def Spared (server : Server) (tables : Value) : Prop :=
  ∀ i sql, (write.sqls tables)[i]? = some sql →
    (∀ j < i, ∀ earlier, (write.sqls tables)[j]? = some earlier →
      ¬ Broken earlier write.bindings (server.attempts j) retryTimes) →
    ¬ Exhausted sql write.bindings (server.attempts i) retryTimes

/-- Every table of every shard is written. -/
def Written (shards : List Model.Shard) (tables : Value) : Prop :=
  ∀ shard ∈ shards, ∀ i sql, (write.sqls tables)[i]? = some sql →
    ∃ server, shard = .ok server ∧
      execute (server.attempts i) sql write.bindings = .ok true

/-- Every shard has a master, which accepts the statement of each table. -/
def AllAccepted (shards : List Model.Shard) (tables : Value) : Prop :=
  ∀ shard ∈ shards, ∀ i sql, (write.sqls tables)[i]? = some sql →
    ∃ server, shard = .ok server ∧
      Accepted sql write.bindings (server.attempts i) retryTimes

variable {write}

theorem executeEach_cons (server : Server) (bindings : List (Key × Value))
    (index : Nat) (sql : Value) (sqls : List Value) :
    executeEach server bindings index (sql :: sqls) =
      execute (server.attempts index) sql bindings >>= fun _ =>
        executeEach server bindings (index + 1) sqls := by
  rw [executeEach]
  congr 1
  funext success
  cases success with
  | false => rfl
  | true => rfl

/-- The ids are never asked for. -/
theorem insertEach_null (server : Server) (bindings : List (Key × Value))
    (idName : Value) (index : Nat) (sqls : List Value) :
    insertEach server bindings .null idName index sqls =
      executeEach server bindings index sqls >>= fun _ => pure [] := by
  induction sqls generalizing index with
  | nil => rfl
  | cons sql sqls induction =>
      rw [insertEach, executeEach_cons, bind_assoc]
      congr 1
      funext success
      rw [← induction]
      cases success with
      | false => exact bind_pure _
      | true => exact bind_pure _

/-- Whatever the statements come to, a call that returns says `true`. -/
theorem client_eq (server : Server) (tables : Value) :
    write.client server tables =
      executeEach server write.bindings 0 (write.sqls tables) >>= fun _ =>
        pure (.bool true) := by
  cases write with
  | insert data parameters =>
      change insertEach _ _ _ _ _ _ >>= _ = _
      rw [insertEach_null, bind_assoc]
      rfl
  | update parameters data => rfl
  | delete parameters => rfl

theorem client_eq_true (write : Write) {server : Server}
    {tables result : Value}
    (returned : write.client server tables = .ok result) :
    result = .bool true := by
  rw [client_eq] at returned
  cases executed :
      executeEach server write.bindings 0 (write.sqls tables) with
  | error exception =>
      rw [executed] at returned
      cases returned
  | ok nothing =>
      rw [executed] at returned
      cases returned
      rfl

section Shards

variable {call : Server → Except Unit Value}

theorem eachShard_cons
    (succeeds : ∀ {server result}, call server = .ok result →
      result = .bool true)
    (shard : Model.Shard) (shards : List Model.Shard) :
    Model.eachShard call (shard :: shards) =
      shard >>= call >>= fun _ => Model.eachShard call shards := by
  rw [Model.eachShard]
  cases shard with
  | error exception => rfl
  | ok server =>
      change call server >>= _ = call server >>= _
      cases returned : call server with
      | error exception => rfl
      | ok result =>
          rw [succeeds returned]
          rfl

theorem eachShard_ne_false
    (succeeds : ∀ {server result}, call server = .ok result →
      result = .bool true)
    (shards : List Model.Shard) :
    Model.eachShard call shards ≠ .ok (.bool false) := by
  induction shards with
  | nil =>
      intro returned
      cases returned
  | cons shard shards induction =>
      rw [eachShard_cons succeeds]
      cases shard >>= call with
      | error exception =>
          intro returned
          cases returned
      | ok result => exact induction

theorem insertShards_cons
    (succeeds : ∀ {server result}, call server = .ok result →
      result = .bool true)
    (returnId : Bool) (insertIds : Value) (shard : Model.Shard)
    (shards : List Model.Shard) :
    Model.insertShards call returnId insertIds (shard :: shards) =
      shard >>= call >>= fun result =>
        Model.insertShards call returnId
          (if returnId then Model.arrayMergeValues insertIds result
            else insertIds) shards := by
  rw [Model.insertShards]
  cases shard with
  | error exception => rfl
  | ok server =>
      change call server >>= _ = call server >>= _
      cases returned : call server with
      | error exception => rfl
      | ok result =>
          rw [succeeds returned]
          rfl

theorem insertShards_ne_false
    (succeeds : ∀ {server result}, call server = .ok result →
      result = .bool true)
    (returnId : Bool) {insertIds : Value} (noFalse : insertIds ≠ .bool false)
    (shards : List Model.Shard) :
    Model.insertShards call returnId insertIds shards ≠
      .ok (.bool false) := by
  induction shards generalizing insertIds with
  | nil =>
      intro returned
      cases returnId with
      | false => cases returned
      | true => exact noFalse (Except.ok.inj returned)
  | cons shard shards induction =>
      rw [insertShards_cons succeeds]
      cases shard >>= call with
      | error exception =>
          intro returned
          cases returned
      | ok result =>
          refine induction ?_
          cases returnId with
          | false => exact noFalse
          | true =>
              cases insertIds with
              | array entries =>
                  cases result with
                  | array others => exact Value.noConfusion
                  | _ => exact Value.noConfusion
              | _ => exact Value.noConfusion

end Shards

theorem client_ne_false (server : Server) (tables : Value) :
    write.client server tables ≠ .ok (.bool false) := by
  intro returned
  cases client_eq_true write returned

theorem model_ne_false (shards : List Model.Shard) (tables : Value) :
    write.model shards tables ≠ .ok (.bool false) := by
  cases write with
  | insert data parameters =>
      refine insertShards_ne_false ?_ _ Value.noConfusion shards
      intro server result returned
      exact client_eq_true (.insert data parameters) returned
  | update parameters data =>
      refine eachShard_ne_false ?_ shards
      intro server result returned
      exact client_eq_true (.update parameters data) returned
  | delete parameters =>
      refine eachShard_ne_false ?_ shards
      intro server result returned
      exact client_eq_true (.delete parameters) returned

theorem failed_iff (server : Server) (tables : Value) :
    write.Failed server tables ↔ ¬ write.Spared server tables := by
  unfold Failed Spared execute
  simp only [tries_returns_iff, tries_eq_false_iff, not_forall, not_not,
    exists_prop]

theorem written_iff (shards : List Model.Shard) (tables : Value) :
    write.Written shards tables ↔ write.AllAccepted shards tables := by
  unfold Written AllAccepted execute
  simp only [tries_eq_true_iff]

theorem mem_accumulated {start sql : Value} {texts : List Value}
    (member : sql ∈ accumulated start texts) :
    ∃ entries, sql = .array entries := by
  induction texts generalizing start with
  | nil => cases member
  | cons text texts induction =>
      cases List.mem_cons.mp member with
      | inl same =>
          rw [same]
          cases start with
          | array entries => exact ⟨_, rfl⟩
          | _ => exact ⟨_, rfl⟩
      | inr later => exact induction later

/-- PDO accepts no statement of `update`, which is the array of the texts so
far. -/
theorem update_not_accepted {parameters tables sql : Value}
    {data : List (Key × Value)} (attempt : Attempt)
    (bindings : List (Key × Value))
    (member : sql ∈ (Write.update parameters data).sqls tables) :
    attempt.accepts sql bindings = false := by
  obtain ⟨entries, rfl⟩ := mem_accumulated member
  rfl

/-- A failed statement is reported, by the client and by the model, exactly
where there is none. -/
theorem failures_reported_iff (write : Write) (tables : Value) :
    (∀ server : Server,
      (write.client server tables = .ok (.bool false) ↔
          write.Failed server tables) ↔
        write.Spared server tables) ∧
    ∀ shards : List Model.Shard,
      (¬ write.Written shards tables →
          write.model shards tables = .ok (.bool false)) ↔
        write.AllAccepted shards tables := by
  constructor
  · intro server
    rw [failed_iff, iff_false_left (client_ne_false server tables), not_not]
  · intro shards
    rw [← written_iff]
    constructor
    · intro reports
      by_contra missing
      exact model_ne_false shards tables (reports missing)
    · intro written missing
      exact absurd written missing

/-- A server that accepts the first statement only. -/
def fullServer : Server where
  attempts index _ :=
    { prepares := fun _ => true
      executes := fun _ => index == 0
      connects := true }
  lastInsertId _ _ := .null

def taskTables : Value :=
  .array [(.int 0, .string (ascii "task_0")), (.int 1, .string (ascii "task_1"))]

theorem half_written_is_success :
    ¬ ∀ (write : Write) (server : Server) (tables : Value),
      write.client server tables = .ok (.bool false) ↔
        write.Failed server tables := by
  intro reports
  have failed : (Write.insert [] .null).Failed fullServer taskTables := by
    refine ⟨1, _, rfl, ?_, rfl⟩
    intro j less earlier here
    obtain rfl : j = 0 := by omega
    cases here
    exact ⟨true, rfl⟩
  cases (reports _ fullServer taskTables).mpr failed

end Write

end Universe.Php.MySQL
