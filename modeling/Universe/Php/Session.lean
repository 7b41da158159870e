import Universe.Php

/-!
# Sessions of the controllers

`sessionStart` loads what the cache has for the cookie, and the destructor
stores `$_SESSION` when it has changed since.  The values of `$_SESSION` are
those of a type whose empty collection is the empty array.
-/

namespace Universe.Php

/-- A cache that has a value until it expires. -/
structure Cache (σ : Type) where
  entries : Bytes → Option (σ × Nat) := fun _ => none

namespace Cache

variable {σ : Type}

def set (cache : Cache σ) (key : Bytes) (data : σ) (now expire : Nat) :
    Cache σ :=
  ⟨Function.update cache.entries key (some (data, now + expire))⟩

def get (cache : Cache σ) (key : Bytes) (now : Nat) : Option σ :=
  match cache.entries key with
  | some (data, expires) => if now < expires then some data else none
  | none => none

end Cache

/-- `SESSION_ID`, `SESSION_ID_EXPIRE` and `SESSION_CACHE_EXPIRE`. -/
def sessionId : Bytes := ascii "HANDLER_SESSION"
def sessionIdExpire : Nat := 86400000
def sessionCacheExpire : Nat := 3600

/-- `$_COOKIE`, `$_SESSION`, the cache and the cookies that were set. -/
structure Sessions (σ : Type) where
  cookie : Bytes → Option Bytes
  session : σ
  cache : Cache σ
  setCookies : List (Bytes × Bytes × Nat) := []

structure Controller (σ : Type) where
  initSessionValue : Option σ := none

/-- `!empty($value)` of a cookie. -/
def given (cookie : Option Bytes) : Option Bytes :=
  cookie.filter fun value => (Value.string value).truthy

variable {σ : Type} [DecidableEq σ] [EmptyCollection σ]

namespace Controller

/-- The branches of `sessionStart`; `generated` is the random identifier. -/
def load (now : Nat) (generated : Bytes) (controller : Controller σ)
    (s : Sessions σ) : Controller σ × Sessions σ :=
  match given (s.cookie sessionId) with
  | some id =>
      match s.cache.get id now with
      | some data =>
          if data = ∅ then (controller, s)
          else ({ initSessionValue := some data }, { s with session := data })
      | none => (controller, s)
  | none =>
      (controller, { s with
        cookie := Function.update s.cookie sessionId (some generated)
        setCookies :=
          s.setCookies ++ [(sessionId, generated, sessionIdExpire)] })

def sessionStart (now : Nat) (generated : Bytes) (controller : Controller σ)
    (s : Sessions σ) : Controller σ × Sessions σ :=
  match controller.initSessionValue with
  | some _ => (controller, s)
  | none =>
      let (_, s) := controller.load now generated s
      -- `$this->_init_session_value = $_SESSION = []`, in every case
      ({ initSessionValue := some ∅ }, { s with session := ∅ })

/-- `__destruct`. -/
def destruct (now : Nat) (controller : Controller σ) (s : Sessions σ) :
    Sessions σ :=
  match controller.initSessionValue with
  | none => s
  | some initial =>
      if s.session = initial then s
      else { s with
        cache := s.cache.set ((s.cookie sessionId).getD []) s.session now
          sessionCacheExpire }

end Controller

/-- A request with the session cookie, when it starts and ends, and what it
does to `$_SESSION`. -/
structure Request (σ : Type) where
  cookie : Bytes
  generated : Bytes
  started : Nat
  ended : Nat
  run : σ → σ

/-- The controller has called `sessionStart`. -/
def Sessions.start (s : Sessions σ) (r : Request σ) :
    Controller σ × Sessions σ :=
  Controller.sessionStart r.started r.generated {}
    { s with cookie := Function.update s.cookie sessionId (some r.cookie) }

def Sessions.serve (s : Sessions σ) (r : Request σ) : Sessions σ :=
  let (controller, s) := s.start r
  controller.destruct r.ended { s with session := r.run s.session }

def Sessions.after (s : Sessions σ) (requests : List (Request σ)) :
    Sessions σ :=
  requests.foldl Sessions.serve s

/-- What a request has seen after `sessionStart` and what it has left. -/
structure Visit (σ : Type) where
  seen : σ
  left : σ
  ended : Nat
  deriving DecidableEq

def Sessions.visit (s : Sessions σ) (r : Request σ) : Visit σ where
  seen := (s.start r).2.session
  left := r.run (s.start r).2.session
  ended := r.ended

def Sessions.visits (s : Sessions σ) : List (Request σ) → List (Visit σ)
  | [] => []
  | r :: rest => s.visit r :: visits (s.serve r) rest

/-- The last request that has changed `$_SESSION`. -/
def lastChange (visits : List (Visit σ)) : Option (Visit σ) :=
  visits.reverse.find? fun visit => visit.left ≠ visit.seen

/-- What a request should see: what the last change has left, while the cache
has it. -/
def expected (visits : List (Visit σ)) (now : Nat) : σ :=
  match lastChange visits with
  | some visit =>
      if now < visit.ended + sessionCacheExpire then visit.left else ∅
  | none => ∅

/-- The last request that leaves something in an empty `$_SESSION`. -/
def lastFilled (requests : List (Request σ)) : Option (Request σ) :=
  requests.reverse.find? fun r => r.run ∅ ≠ ∅

theorem Sessions.visits_eq (s : Sessions σ) (requests : List (Request σ)) :
    s.visits requests = requests.map fun r =>
      { seen := ∅, left := r.run ∅, ended := r.ended } := by
  induction requests generalizing s with
  | nil => rfl
  | cons r requests induction =>
      exact congrArg (_ :: ·) (induction (s.serve r))

theorem lastChange_visits (s : Sessions σ) (requests : List (Request σ)) :
    lastChange (s.visits requests) = (lastFilled requests).map fun r =>
      { seen := ∅, left := r.run ∅, ended := r.ended } := by
  unfold lastChange lastFilled
  rw [Sessions.visits_eq, ← List.map_reverse, List.find?_map]
  rfl

theorem run_lastFilled {requests : List (Request σ)} {r : Request σ}
    (last : lastFilled requests = some r) : r.run ∅ ≠ ∅ := by
  have filled := List.find?_some last
  exact of_decide_eq_true filled

/-- A request sees what the session left exactly if nothing has been left that
is still in the cache, and what was left at any time exactly if nothing was. -/
theorem session_kept_iff_empty (s : Sessions σ) (before : List (Request σ))
    (r : Request σ) :
    (((s.after before).visit r).seen =
        expected (s.visits before) r.started ↔
      ∀ last, lastFilled before = some last →
        last.ended + sessionCacheExpire ≤ r.started) ∧
    (((s.after before).visit r).seen =
        ((lastChange (s.visits before)).map Visit.left).getD ∅ ↔
      lastFilled before = none) := by
  have seen : ((s.after before).visit r).seen = ∅ := rfl
  unfold expected
  rw [seen, lastChange_visits]
  cases found : lastFilled before with
  | none =>
      constructor
      · exact ⟨fun _ _ impossible => (Option.some_ne_none _ impossible.symm).elim,
          fun _ => rfl⟩
      · exact ⟨fun _ => rfl, fun _ => rfl⟩
  | some last =>
      have filled := run_lastFilled found
      constructor
      · dsimp only [Option.map_some]
        by_cases fresh : r.started < last.ended + sessionCacheExpire
        · rw [if_pos fresh]
          constructor
          · intro same
            exact absurd same.symm filled
          · intro expired
            have old := expired last rfl
            omega
        · rw [if_neg fresh]
          constructor
          · intro _ other same
            cases same
            omega
          · intro _
            rfl
      · constructor
        · intro same
          exact absurd same.symm filled
        · intro impossible
          cases impossible

theorem lastFilled_cons (r : Request σ) (requests : List (Request σ)) :
    lastFilled (r :: requests) =
      (lastFilled requests).or (if r.run ∅ = ∅ then none else some r) := by
  unfold lastFilled
  rw [List.reverse_cons, List.find?_append]
  by_cases filled : r.run ∅ = ∅
  · simp [filled]
  · simp [filled]

/-- Loading takes neither the cookie nor the entry away. -/
theorem Controller.load_given (now : Nat) (generated : Bytes)
    (controller : Controller σ) {s : Sessions σ} {id : Bytes}
    (present : given (s.cookie sessionId) = some id) :
    (controller.load now generated s).2.cookie = s.cookie ∧
      (controller.load now generated s).2.cache = s.cache := by
  unfold load
  rw [present]
  dsimp only
  split
  · split
    · exact ⟨rfl, rfl⟩
    · exact ⟨rfl, rfl⟩
  · exact ⟨rfl, rfl⟩

theorem Sessions.cache_serve (s : Sessions σ) (r : Request σ)
    (named : (Value.string r.cookie).truthy = true) :
    (s.serve r).cache.entries r.cookie =
      if r.run ∅ = ∅ then s.cache.entries r.cookie
      else some (r.run ∅, r.ended + sessionCacheExpire) := by
  have carried : Function.update s.cookie sessionId (some r.cookie) sessionId =
      some r.cookie := Function.update_self _ _ _
  have present : given (Function.update s.cookie sessionId (some r.cookie)
      sessionId) = some r.cookie := by
    rw [carried]
    simp [given, named]
  have loaded := Controller.load_given r.started r.generated {}
    (s := { s with
      cookie := Function.update s.cookie sessionId (some r.cookie) }) present
  have cookie : (s.start r).2.cookie sessionId = some r.cookie :=
    (congrFun loaded.1 sessionId).trans carried
  have cache : (s.start r).2.cache = s.cache := loaded.2
  change ((s.start r).1.destruct r.ended
    { (s.start r).2 with session := r.run ∅ }).cache.entries r.cookie = _
  have started : (s.start r).1 = { initSessionValue := some ∅ } := rfl
  rw [started]
  unfold Controller.destruct
  dsimp only
  by_cases filled : r.run ∅ = ∅
  · rw [if_pos filled, if_pos filled, cache]
  · rw [if_neg filled, if_neg filled, cookie]
    exact Function.update_self _ _ _

/-- The destructor does store what was left: the cache has the last change of
the session. -/
theorem cache_after (s : Sessions σ) (requests : List (Request σ)) (id : Bytes)
    (named : (Value.string id).truthy = true)
    (same : ∀ r ∈ requests, r.cookie = id) :
    (s.after requests).cache.entries id =
      ((lastFilled requests).map fun r =>
        (r.run ∅, r.ended + sessionCacheExpire)).or (s.cache.entries id) := by
  induction requests generalizing s with
  | nil => rfl
  | cons r requests induction =>
      obtain ⟨here, later⟩ := List.forall_mem_cons.mp same
      subst here
      have step := s.cache_serve r named
      refine (induction (s.serve r) later).trans ?_
      rw [step, lastFilled_cons]
      cases lastFilled requests with
      | some last => rfl
      | none =>
          by_cases filled : r.run ∅ = ∅
          · rw [if_pos filled, if_pos filled]
            rfl
          · rw [if_neg filled, if_neg filled]
            rfl

/-- What one request leaves is not there in the next one. -/
theorem session_forgotten :
    ¬ ∀ (before : List (Request (List Nat))) (r : Request (List Nat)),
      let s : Sessions (List Nat) :=
        { cookie := fun _ => none, session := [], cache := {} }
      ((s.after before).visit r).seen =
        expected (s.visits before) r.started := by
  intro kept
  have next := kept
    [{ cookie := ascii "x", generated := [], started := 0, ended := 1,
       run := fun _ => [7] }]
    { cookie := ascii "x", generated := [], started := 2, ended := 3,
      run := id }
  revert next
  decide

end Universe.Php
