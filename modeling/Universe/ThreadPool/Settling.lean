import Universe.ThreadPool.Conservation

/-!
# The pool comes to rest

Every step of the pool's own code brings its thread nearer to the end of the
call, and a notification pays for the thread it wakes.  So whatever the order
of the threads, the pool soon waits for the rest of the program, and then no
task is left in the queue unless every worker runs one.
-/

namespace Universe.ThreadPool

open Census

/-- How many steps of its own a thread may still have before it at a place. -/
def Place.ahead {τ : Type} : Place τ → Nat
  | .outside | .asleep => 0
  | .unguard | .handOver _ => 1
  | .front => 2
  | .test => 3
  | .look | .woken => 4
  | .getTask => 5
  | .notifyOne => 6
  | .push _ => 7
  | .execute _ => 8

variable {ι τ : Type} {worker : ι → Bool} {pool after : ThreadPool ι τ}
  {thread other : ι} {events : List (Event ι τ)}

/-- The pool's own steps, one after the other. -/
inductive Goes [DecidableEq ι] : Nat → ThreadPool ι τ → ThreadPool ι τ → Prop where
  | none (pool : ThreadPool ι τ) : Goes 0 pool pool
  | more {count : Nat} {pool next after : ThreadPool ι τ}
      {events : List (Event ι τ)} (step : Own pool events next)
      (rest : Goes count next after) : Goes (count + 1) pool after

/-- No thread can go on without the rest of the program. -/
def Resting [DecidableEq ι] (pool : ThreadPool ι τ) : Prop :=
  ∀ events after, ¬ Own pool events after

variable [Fintype ι]

/-- How many steps all threads may still have before them. -/
def ahead (pool : ThreadPool ι τ) : Nat :=
  total (fun thread : Thread τ => thread.place.ahead) pool.threads

theorem ahead_le (pool : ThreadPool ι τ) : ahead pool ≤ Fintype.card ι * 8 := by
  apply total_le_card_mul
  intro thread
  cases (pool.threads thread).place <;> simp [Place.ahead]

variable [DecidableEq ι]

theorem ahead_move (pool : ThreadPool ι τ) (thread : ι) (place : Place τ) :
    ahead (pool.move thread place) + (pool.threads thread).place.ahead =
      ahead pool + place.ahead :=
  total_update (fun thread : Thread τ => thread.place.ahead) pool.threads _ _

theorem ahead_move_lt {here next : Place τ}
    (place : (pool.threads thread).place = here) (less : next.ahead < here.ahead) :
    ahead (pool.move thread next) < ahead pool := by
  have moved := ahead_move pool thread next
  rw [place] at moved
  omega

theorem ahead_notify {sleeper : ι}
    (place : (pool.threads thread).place = .notifyOne)
    (sleeps : (pool.threads sleeper).place = .asleep) :
    ahead ((pool.move thread .unguard).move sleeper .woken) < ahead pool := by
  have distinct : sleeper ≠ thread := by
    rintro rfl
    rw [place] at sleeps
    cases sleeps
  have still : ((pool.move thread .unguard).threads sleeper).place = .asleep := by
    rw [threads_move_of_ne pool _ distinct]
    exact sleeps
  have first := ahead_move pool thread .unguard
  have second := ahead_move (pool.move thread .unguard) sleeper .woken
  rw [place] at first
  rw [still] at second
  simp only [Place.ahead] at first second
  omega

theorem ahead_own (step : Own pool events after) : ahead after < ahead pool := by
  cases step with
  | guard place free => exact ahead_move_lt place (by simp [Place.ahead])
  | push place => exact ahead_move_lt place (by simp [Place.ahead])
  | notifyOne place sleeps => exact ahead_notify place sleeps
  | notifyNobody place nobody => exact ahead_move_lt place (by simp [Place.ahead])
  | unguard place => exact ahead_move_lt place (by simp [Place.ahead])
  | lock place free => exact ahead_move_lt place (by simp [Place.ahead])
  | look place =>
      apply ahead_move_lt place
      cases pool.queue.isEmpty <;> simp [Place.ahead]
  | sleep place empty => exact ahead_move_lt place (by simp [Place.ahead])
  | goOn place waiting => exact ahead_move_lt place (by simp [Place.ahead])
  | relock place free => exact ahead_move_lt place (by simp [Place.ahead])
  | pop place first => exact ahead_move_lt place (by simp [Place.ahead])
  | @handOver thread task place =>
      have moved := total_update (fun thread : Thread τ => thread.place.ahead)
        pool.threads thread { place := .outside, task := some task }
      rw [place] at moved
      exact Nat.lt_of_succ_le moved.le

theorem Goes.ahead_le {count : Nat} (goes : Goes count pool after) :
    count + ahead after ≤ ahead pool := by
  induction goes with
  | none pool => exact (Nat.zero_add _).le
  | more step rest induction =>
      have less := ahead_own step
      omega

/-- The pool can always go on until it rests. -/
theorem exists_resting (pool : ThreadPool ι τ) :
    ∃ count after, Goes count pool after ∧ Resting after := by
  induction measure : ahead pool using Nat.strong_induction_on generalizing pool with
  | h most induction =>
      by_cases resting : Resting pool
      · exact ⟨0, pool, .none pool, resting⟩
      · simp only [Resting, not_forall, not_not] at resting
        obtain ⟨events, next, step⟩ := resting
        subst measure
        obtain ⟨count, after, goes, resting⟩ :=
          induction _ (ahead_own step) next rfl
        exact ⟨count + 1, after, .more step goes, resting⟩

/-- Whoever has the mutex can go on. -/
theorem Resting.unlocked (resting : Resting pool) (sound : Sound worker pool) :
    pool.mutex = none := by
  cases held : pool.mutex with
  | none => rfl
  | some thread =>
      have inside := (sound.fits thread).inside.mpr held
      cases place : (pool.threads thread).place with
      | push task => exact absurd (.push place) (resting _ _)
      | notifyOne =>
          by_cases sleeps : ∃ other, (pool.threads other).place = .asleep
          · obtain ⟨other, sleeps⟩ := sleeps
            exact absurd (.notifyOne place sleeps) (resting _ _)
          · have nobody := not_exists.mp sleeps
            exact absurd (.notifyNobody place nobody) (resting _ _)
      | unguard => exact absurd (.unguard place) (resting _ _)
      | look => exact absurd (.look place) (resting _ _)
      | test =>
          by_cases empty : pool.queue = []
          · exact absurd (.sleep place empty) (resting _ _)
          · exact absurd (.goOn place empty) (resting _ _)
      | front =>
          have waiting := (sound.fits thread).front place
          obtain ⟨task, rest, first⟩ := List.exists_cons_of_ne_nil waiting
          exact absurd (.pop place first) (resting _ _)
      | handOver task => exact absurd (.handOver place) (resting _ _)
      | outside | execute | getTask | asleep | woken =>
          rw [place] at inside
          cases inside

/-- A thread of a pool at rest is in no call, or it sleeps. -/
theorem Resting.places (resting : Resting pool) (sound : Sound worker pool)
    (thread : ι) :
    (pool.threads thread).place = .outside ∨
      (pool.threads thread).place = .asleep := by
  have free := resting.unlocked sound
  have outside : (pool.threads thread).place.inside ≠ true := by
    intro inside
    have held := (sound.fits thread).inside.mp inside
    rw [free] at held
    cases held
  cases place : (pool.threads thread).place with
  | outside => exact .inl rfl
  | asleep => exact .inr rfl
  | execute task => exact absurd (.guard place free) (resting _ _)
  | getTask => exact absurd (.lock place free) (resting _ _)
  | woken => exact absurd (.relock place free) (resting _ _)
  | push | notifyOne | unguard | look | test | front | handOver =>
      rw [place] at outside
      exact absurd rfl outside

/-- At rest every worker runs a task, or no task is left. -/
theorem Resting.served (resting : Resting pool) (sound : Sound worker pool) :
    pool.queue = [] ∨ ∀ thread, worker thread = true →
      (pool.threads thread).place = .outside ∧
        (pool.threads thread).task ≠ none := by
  by_cases sleeps : ∃ other, (pool.threads other).place = .asleep
  · have counted := sound.counted sleeps
    have nobody : arriving pool = 0 := by
      apply total_eq_zero_iff.mpr
      intro thread
      rcases resting.places sound thread with place | place <;>
        rw [place] <;> rfl
    rw [nobody] at counted
    exact .inl (List.length_eq_zero_iff.mp (Nat.le_zero.mp counted))
  · refine .inr fun thread works => ?_
    have place := (resting.places sound thread).resolve_right fun sleeping =>
      sleeps ⟨thread, sleeping⟩
    refine ⟨place, (sound.fits thread).busy works ?_⟩
    rw [place]
    rfl

theorem Goes.sound {count : Nat} (goes : Goes count pool after)
    (sound : Sound worker pool) : Sound worker after := by
  induction goes with
  | none pool => exact sound
  | more step rest induction => exact induction (sound.own step)

/-- From whatever a run has reached, the pool's own steps end after at most
eight for each thread, in whatever order the threads take them; and where they
end, no task waits while a worker is free. -/
theorem comes_to_rest (run : Run worker events pool) :
    (∃ count after, Goes count pool after ∧ Resting after) ∧
    ∀ count after, Goes count pool after →
      count ≤ Fintype.card ι * 8 ∧
      (Resting after → after.queue = [] ∨ ∀ thread, worker thread = true →
        (after.threads thread).place = .outside ∧
          (after.threads thread).task ≠ none) := by
  refine ⟨exists_resting pool, fun count after goes => ?_⟩
  have spent := goes.ahead_le
  have most := ahead_le pool
  refine ⟨by omega, fun resting => ?_⟩
  exact resting.served (goes.sound (sound_of_run run))

theorem comes_to_rest_with_a_sleeper :
    ∃ (pool after : ThreadPool Bool Nat) (count : Nat),
      pool.queue = [7] ∧ (pool.threads true).place = .asleep ∧
        Goes count pool after ∧ count ≤ Fintype.card Bool * 8 := by
  obtain ⟨pool, run, queue, sleeps⟩ := exists_sleeper
  obtain ⟨⟨count, after, goes, -⟩, bounded⟩ := comes_to_rest run
  exact ⟨pool, after, count, queue, sleeps, goes, (bounded count after goes).1⟩

end Universe.ThreadPool
