import Universe.Library.Stepwise
import Universe.Php.Redis

/-!
# What a second attempt does to the data

A command has at most two attempts, and the second one finds the data as the
first one and the other clients left them.
-/

namespace Universe.Php.Redis

open Stepwise

variable {δ : Type}

section

variable {perform : Command → δ → Value × δ} {command : Command}
  {server : Server δ}

/-- What is left of a command that did not reach the server. -/
def Server.decided (server : Server δ) : Server δ :=
  { server with fates := fun count => server.fates (count + 1) }

/-- The server after an attempt. -/
def attempted (perform : Command → δ → Value × δ) (command : Command)
    (server : Server δ) : Server δ :=
  if server.fates 0 = .failed then server.decided
  else performed perform command server.decided

def Server.reconnected (server : Server δ) : Server δ where
  data := server.others 0 server.data
  fates := server.fates
  others := fun count => server.others (count + 1)
  effects := server.effects

@[simp] theorem attempted_fates (count : Nat) :
    (attempted perform command server).fates count =
      server.fates (count + 1) := by
  unfold attempted
  split
  · rfl
  · rfl

@[simp] theorem attempted_others :
    (attempted perform command server).others = server.others := by
  unfold attempted
  split
  · rfl
  · rfl

@[simp] theorem attempted_data :
    (attempted perform command server).data =
      if server.fates 0 = .failed then server.data
      else (perform command server.data).2 := by
  unfold attempted
  split
  · rfl
  · rfl

@[simp] theorem attempted_effects :
    (attempted perform command server).effects = server.effects ++
      if server.fates 0 = .failed then []
      else [(server.data, (perform command server.data).2)] := by
  unfold attempted
  split
  · exact (List.append_nil _).symm
  · rfl

theorem send_eq :
    send perform command server =
      if server.fates 0 = .answered then
        .ok (perform command server.data).1 (attempted perform command server)
      else .error () (attempted perform command server) := by
  unfold send nextFate attempted
  rw [modifyGet_bind]
  cases server.fates 0 with
  | answered => rfl
  | lost => rfl
  | failed => rfl

theorem attempt_eq :
    attempt perform command server =
      .ok (if server.fates 0 = .answered then
          some (perform command server.data).1 else none)
        (attempted perform command server) := by
  have sent := @send_eq _ perform command server
  by_cases answered : server.fates 0 = .answered
  · rw [if_pos answered] at sent ⊢
    exact tryCatch_of_ok (bind_of_ok sent)
  · rw [if_neg answered] at sent ⊢
    exact tryCatch_of_error (bind_of_error sent)

theorem anyReply_succ (times : Nat) :
    anyReply perform command (times + 1) server =
      if server.fates 0 = .answered then
        .ok (perform command server.data).1 (attempted perform command server)
      else
        anyReply perform command times
          (attempted perform command server).reconnected := by
  refine (bind_of_ok attempt_eq).trans ?_
  split
  · rfl
  · rfl

theorem untilSuccess_succ (times : Nat) :
    untilSuccess perform command (times + 1) server =
      if server.fates 0 = .answered ∧
          (perform command server.data).1.truthy then
        .ok (.bool true) (attempted perform command server)
      else
        untilSuccess perform command times
          (attempted perform command server).reconnected := by
  refine (bind_of_ok attempt_eq).trans ?_
  by_cases answered : server.fates 0 = .answered
  · rw [if_pos answered]
    by_cases success : (perform command server.data).1.truthy = true
    · rw [if_pos ⟨answered, success⟩]
      simp only [success]
      rfl
    · rw [if_neg fun both => success both.2]
      simp only [success]
      rfl
  · rw [if_neg answered, if_neg fun both => answered both.1]
    rfl

/-- The data that the second attempt finds. -/
def secondData (perform : Command → δ → Value × δ) (command : Command)
    (server : Server δ) : δ :=
  server.others 0
    (if server.fates 0 = .failed then server.data
    else (perform command server.data).2)

/-- The effect of an attempt that finds the data, if it has the fate. -/
def effectOf (perform : Command → δ → Value × δ) (command : Command)
    (fate : Fate) (data : δ) : List (δ × δ) :=
  if fate = .failed then [] else [(data, (perform command data).2)]

theorem effects_anyReply (server : Server δ) :
    (final (anyReply perform command retryTimes server)).effects =
      server.effects ++
      effectOf perform command (server.fates 0) server.data ++
      if server.fates 0 = .answered then []
      else effectOf perform command (server.fates 1)
        (secondData perform command server) := by
  change (final (anyReply perform command (1 + 1) server)).effects = _
  rw [anyReply_succ]
  split
  · simp [final, effectOf]
  · rw [anyReply_succ]
    split
    · simp [final, effectOf, Server.reconnected, secondData]
    · unfold anyReply
      change (attempted perform command _).reconnected.effects = _
      simp [effectOf, Server.reconnected, secondData]

theorem effects_untilSuccess (server : Server δ) :
    (final (untilSuccess perform command retryTimes server)).effects =
      server.effects ++
      effectOf perform command (server.fates 0) server.data ++
      if server.fates 0 = .answered ∧
          (perform command server.data).1.truthy then []
      else effectOf perform command (server.fates 1)
        (secondData perform command server) := by
  change (final (untilSuccess perform command (1 + 1) server)).effects = _
  rw [untilSuccess_succ]
  split
  · simp [final, effectOf]
  · rw [untilSuccess_succ]
    split
    · simp [final, effectOf, Server.reconnected, secondData]
    · unfold untilSuccess
      change (attempted perform command _).reconnected.effects = _
      simp [effectOf, Server.reconnected, secondData]

/-- A method returns true for the attempt that succeeded. -/
theorem valueOf_untilSuccess (server : Server δ) :
    valueOf (untilSuccess perform command retryTimes server) =
        some (.bool true) ↔
      (server.fates 0 = .answered ∧
        (perform command server.data).1.truthy) ∨
      server.fates 1 = .answered ∧
        (perform command (secondData perform command server)).1.truthy := by
  change valueOf (untilSuccess perform command (1 + 1) server) = _ ↔ _
  rw [untilSuccess_succ]
  split
  · next answered => simp [valueOf, answered]
  · next other =>
      rw [untilSuccess_succ]
      split
      · next answered =>
          simp only [valueOf, true_iff]
          right
          simpa [Server.reconnected, secondData] using answered
      · next neither =>
          unfold untilSuccess
          constructor
          · intro returned
            cases returned
          · intro answered
            rcases answered with first | second
            · exact absurd first other
            · apply absurd _ neither
              simpa [Server.reconnected, secondData] using second

end

/-- What the commands of one call do to the data. -/
def effectsOf (call : M δ Value) (server : Server δ) : List (δ × δ) :=
  (final (call server)).effects.drop server.effects.length

/-- The call changes the data at most once. -/
def AtMostOnce [DecidableEq δ] (call : M δ Value) (server : Server δ) : Prop :=
  ((effectsOf call server).filter fun effect =>
    effect.1 ≠ effect.2).length ≤ 1

/-- The call returns true exactly when it created the key. -/
def TrueIffCreated (has : δ → Bytes → Bool) (key : Bytes) (call : M δ Value)
    (server : Server δ) : Prop :=
  valueOf (call server) = some (.bool true) ↔
    ∃ effect ∈ effectsOf call server,
      has effect.1 key = false ∧ has effect.2 key = true

/-- The reply of the first attempt is lost, and the second one changes the data
again. -/
def Repeats (perform : Command → δ → Value × δ) (command : Command)
    (server : Server δ) : Prop :=
  server.fates 0 = .lost ∧ server.fates 1 ≠ .failed ∧
  (perform command server.data).2 ≠ server.data ∧
  (perform command (secondData perform command server)).2 ≠
    secondData perform command server

/-- The command creates the key where it finds the data. -/
def Creates (perform : Command → δ → Value × δ) (has : δ → Bytes → Bool)
    (key : Bytes) (command : Command) (data : δ) : Prop :=
  has data key = false ∧ has (perform command data).2 key = true

/-- The attempt that creates the key is answered, or the first one is not and
the second one is and creates it again. -/
def Confirmed (perform : Command → δ → Value × δ) (has : δ → Bytes → Bool)
    (key : Bytes) (command : Command) (server : Server δ) : Prop :=
  (server.fates 0 = .answered ∧
    Creates perform has key command server.data) ∨
  (server.fates 0 = .lost → Creates perform has key command server.data →
    server.fates 1 = .answered ∧
      Creates perform has key command (secondData perform command server)) ∧
  ¬ (server.fates 1 = .lost ∧
    Creates perform has key command (secondData perform command server))

section

variable {perform : Command → δ → Value × δ} {command : Command}
  {server : Server δ}

theorem changes_effectOf [DecidableEq δ] (fate : Fate) (data : δ) :
    ((effectOf perform command fate data).filter fun effect =>
      effect.1 ≠ effect.2).length =
      if fate ≠ .failed ∧ (perform command data).2 ≠ data then 1 else 0 := by
  unfold effectOf
  by_cases failed : fate = .failed
  · simp [failed]
  · by_cases same : (perform command data).2 = data
    · simp [failed, same]
    · have different : data ≠ (perform command data).2 := Ne.symm same
      simp [failed, same, different]

theorem atMostOnce_anyReply_iff [DecidableEq δ] :
    AtMostOnce (anyReply perform command retryTimes) server ↔
      ¬ Repeats perform command server := by
  unfold AtMostOnce effectsOf Repeats
  rw [effects_anyReply, List.append_assoc, List.drop_left, List.filter_append,
    List.length_append, changes_effectOf]
  by_cases answered : server.fates 0 = .answered
  · rw [if_pos answered, List.filter_nil, List.length_nil]
    constructor
    · intro _ repeats
      cases answered.symm.trans repeats.1
    · intro _
      split
      · exact Nat.le_refl 1
      · exact Nat.zero_le 1
  · rw [if_neg answered, changes_effectOf]
    constructor
    · intro once repeats
      obtain ⟨lost, executed, changed, again⟩ := repeats
      have arrived : server.fates 0 ≠ .failed := by
        rw [lost]
        decide
      rw [if_pos ⟨arrived, changed⟩, if_pos ⟨executed, again⟩] at once
      omega
    · intro kept
      split
      · next first =>
          have lost : server.fates 0 = .lost := by
            cases fate : server.fates 0 with
            | answered => exact absurd fate answered
            | lost => rfl
            | failed => exact absurd fate first.1
          rw [if_neg fun second =>
            kept ⟨lost, second.1, first.2, second.2⟩]
      · split
        · exact Nat.le_refl 1
        · exact Nat.zero_le 1

theorem created_effectOf {has : δ → Bytes → Bool} {key : Bytes} {fate : Fate}
    {data : δ} :
    (∃ effect ∈ effectOf perform command fate data,
      has effect.1 key = false ∧ has effect.2 key = true) ↔
    fate ≠ .failed ∧ Creates perform has key command data := by
  unfold effectOf Creates
  by_cases failed : fate = .failed
  · simp [failed]
  · simp [failed]

theorem created_untilSuccess {has : δ → Bytes → Bool} {key : Bytes} :
    (∃ effect ∈ effectsOf (untilSuccess perform command retryTimes) server,
      has effect.1 key = false ∧ has effect.2 key = true) ↔
    (server.fates 0 ≠ .failed ∧
      Creates perform has key command server.data) ∨
    ¬ (server.fates 0 = .answered ∧
        (perform command server.data).1.truthy = true) ∧
      server.fates 1 ≠ .failed ∧
      Creates perform has key command (secondData perform command server) := by
  unfold effectsOf
  rw [effects_untilSuccess, List.append_assoc, List.drop_left]
  simp only [List.mem_append, or_and_right, exists_or, created_effectOf]
  apply or_congr Iff.rfl
  split
  · next confirmed => simp [confirmed]
  · next other =>
      rw [created_effectOf]
      exact (and_iff_right other).symm

/-- Where success says that the command created the key. -/
theorem trueIffCreated_untilSuccess_iff {has : δ → Bytes → Bool} {key : Bytes}
    (truthful : ∀ data, (perform command data).1.truthy = true ↔
      Creates perform has key command data) :
    TrueIffCreated has key (untilSuccess perform command retryTimes) server ↔
      Confirmed perform has key command server := by
  unfold TrueIffCreated Confirmed
  rw [created_untilSuccess, valueOf_untilSuccess, truthful, truthful]
  generalize Creates perform has key command server.data = first
  generalize Creates perform has key command
    (secondData perform command server) = second
  cases server.fates 0 with
  | answered =>
      cases server.fates 1 with
      | answered => grind
      | lost => grind
      | failed => grind
  | lost =>
      cases server.fates 1 with
      | answered => grind
      | lost => grind
      | failed => grind
  | failed =>
      cases server.fates 1 with
      | answered => grind
      | lost => grind
      | failed => grind

/-- `incr`, `decr`, `rPush` and `lPop` change the data at most once unless the
reply of the first attempt is lost and both attempts change the data; `setNx`
and `setNxEx` return true exactly when they created the key unless it was
created in an attempt whose reply is lost. -/
theorem effects_at_most_once_iff [DecidableEq δ] {has : δ → Bytes → Bool}
    (setnxTrue : ∀ key value data,
      (perform (.setnx key value) data).1.truthy = true ↔
        Creates perform has key (.setnx key value) data)
    (setNxExTrue : ∀ key value expire data,
      (perform (.setNxEx key value expire) data).1.truthy = true ↔
        Creates perform has key (.setNxEx key value expire) data)
    (key : Bytes) (server : Server δ) :
    (∀ amount, AtMostOnce (incr perform key amount) server ↔
      ¬ Repeats perform (.incrBy key amount) server) ∧
    (∀ amount, AtMostOnce (decr perform key amount) server ↔
      ¬ Repeats perform (.decrBy key amount) server) ∧
    (∀ value, AtMostOnce (rPush perform key value) server ↔
      ¬ Repeats perform (.rPush key value) server) ∧
    (AtMostOnce (lPop perform key) server ↔
      ¬ Repeats perform (.lPop key) server) ∧
    (∀ value, TrueIffCreated has key (setNx perform key value) server ↔
      Confirmed perform has key (.setnx key value) server) ∧
    ∀ value expire,
      TrueIffCreated has key (setNxEx perform key value expire) server ↔
        Confirmed perform has key (.setNxEx key value expire) server := by
  refine ⟨?_, ?_, ?_, ?_, ?_, ?_⟩
  · intro amount
    exact atMostOnce_anyReply_iff
  · intro amount
    exact atMostOnce_anyReply_iff
  · intro value
    exact atMostOnce_anyReply_iff
  · exact atMostOnce_anyReply_iff
  · intro value
    exact trueIffCreated_untilSuccess_iff (setnxTrue key value)
  · intro value expire
    exact trueIffCreated_untilSuccess_iff (setNxExTrue key value expire)

end

inductive Entry where
  | string (text : Bytes)
  | list (items : List Bytes)
  deriving DecidableEq

/-- A small Redis server, the keys with their entries. -/
abbrev Store := List (Bytes × Entry)

namespace Store

def get (store : Store) (key : Bytes) : Option Entry :=
  (store.find? fun pair => pair.1 = key).map Prod.snd

def put (store : Store) (key : Bytes) (entry : Entry) : Store :=
  (key, entry) :: store.filter fun pair => pair.1 ≠ key

def has (store : Store) (key : Bytes) : Bool := (store.get key).isSome

/-- `SET` with `NX`. -/
def setAbsent (store : Store) (key data : Bytes) : Value × Store :=
  if store.has key then (.bool false, store)
  else (.bool true, store.put key (.string data))

def add (store : Store) (key : Bytes) (amount : Int) : Value × Store :=
  match store.get key with
  | none => (.int amount, store.put key (.string (decimal amount)))
  | some (.string text) =>
      if decimal (atol text) = text then
        (.int (atol text + amount),
          store.put key (.string (decimal (atol text + amount))))
      else (.bool false, store)
  | some (.list _) => (.bool false, store)

def perform : Command → Store → Value × Store
  | .setnx key data, store => store.setAbsent key data
  | .setNxEx key data expire, store =>
      if 0 < expire then store.setAbsent key data else (.bool false, store)
  | .incrBy key amount, store => store.add key amount
  | .decrBy key amount, store => store.add key (-amount)
  | .rPush key data, store =>
      match store.get key with
      | none => (.int 1, store.put key (.list [data]))
      | some (.list items) =>
          (.int (items.length + 1), store.put key (.list (items ++ [data])))
      | some (.string _) => (.bool false, store)
  | .lPop key, store =>
      match store.get key with
      | some (.list (item :: rest)) =>
          (.string item,
            if rest = [] then store.filter fun pair => pair.1 ≠ key
            else store.put key (.list rest))
      | _ => (.bool false, store)

theorem has_put {store : Store} {key : Bytes} {entry : Entry} :
    (store.put key entry).has key = true := by
  simp [has, get, put]

theorem setAbsent_truthy (store : Store) (key data : Bytes) :
    (store.setAbsent key data).1.truthy = true ↔
      store.has key = false ∧ (store.setAbsent key data).2.has key = true := by
  unfold setAbsent
  split
  · next present => simp [Value.truthy, present]
  · next absent =>
      constructor
      · intro _
        exact ⟨eq_false_of_ne_true absent, has_put⟩
      · intro _
        rfl

end Store

/-- A server whose first reply is lost. -/
def sampleServer : Server Store where
  data := []
  fates := fun count => if count = 0 then .lost else .answered
  others := fun _ store => store

theorem effects_at_most_once_sample :
    (AtMostOnce (incr Store.perform (ascii "n")) sampleServer ↔
      ¬ Repeats Store.perform (.incrBy (ascii "n") 1) sampleServer) ∧
    (TrueIffCreated Store.has (ascii "n")
        (setNx Store.perform (ascii "n") (ascii "1")) sampleServer ↔
      Confirmed Store.perform Store.has (ascii "n")
        (.setnx (ascii "n") (ascii "1")) sampleServer) := by
  obtain ⟨incr, -, -, -, setNx, -⟩ := @effects_at_most_once_iff Store
    Store.perform _ Store.has
    (fun key value store => Store.setAbsent_truthy store key value)
    (by
      intro key value expire store
      by_cases positive : 0 < expire
      · simp only [Creates, Store.perform, if_pos positive]
        exact Store.setAbsent_truthy store key value
      · simp [Creates, Store.perform, positive, Value.truthy])
    (ascii "n") sampleServer
  exact ⟨incr 1, setNx (ascii "1")⟩

/-- The number goes up by two, and the key is created without being told. -/
theorem lost_reply_repeats :
    ¬ AtMostOnce (incr Store.perform (ascii "n")) sampleServer ∧
    ¬ TrueIffCreated Store.has (ascii "n")
      (setNx Store.perform (ascii "n") (ascii "1")) sampleServer := by
  constructor
  · unfold AtMostOnce
    decide +kernel
  · intro same
    have created : ∃ effect ∈ effectsOf
        (setNx Store.perform (ascii "n") (ascii "1")) sampleServer,
        Store.has effect.1 (ascii "n") = false ∧
          Store.has effect.2 (ascii "n") = true := by
      decide +kernel
    cases same.mpr created

end Universe.Php.Redis
