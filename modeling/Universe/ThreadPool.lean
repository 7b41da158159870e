import Universe.Library.Census

/-!
# The thread pool

Workers and other threads share a queue of tasks that a mutex protects; a
worker that finds the queue empty sleeps on a condition variable.  A step is
what one thread does between two points at which another thread may come
first, so that a run is any interleaving of the threads.
-/

namespace Universe

/-- Where a thread is in the code of the pool. -/
inductive ThreadPool.Place (τ : Type) where
  /-- in no function of the pool; a worker that is here runs its task -/
  | outside
  /-- `execute`, before the guard has the mutex -/
  | execute (task : τ)
  | push (task : τ)
  | notifyOne
  /-- the end of `execute`, where the guard gives the mutex back -/
  | unguard
  /-- `get_task`, before its lock has the mutex -/
  | getTask
  /-- the test of the queue before `wait` -/
  | look
  /-- the same test in the loop of `wait` -/
  | test
  /-- in `wait`, without the mutex and not notified -/
  | asleep
  /-- in `wait`, before it has the mutex again -/
  | woken
  | front
  /-- the end of `get_task`, where the lock gives the mutex back -/
  | handOver (task : τ)
deriving DecidableEq

/-- A thread with the task it runs or none. -/
structure ThreadPool.Thread (τ : Type) where
  place : ThreadPool.Place τ
  task : Option τ
deriving DecidableEq

structure ThreadPool (ι τ : Type) where
  queue : List τ
  mutex : Option ι
  threads : ι → ThreadPool.Thread τ

namespace ThreadPool

variable {ι τ : Type} [DecidableEq ι]

/-- What the rest of the program can see of a run. -/
inductive Event (ι τ : Type) where
  | pushed (task : τ)
  | taken (thread : ι) (task : τ)
  | finished (thread : ι) (task : τ)

def move (pool : ThreadPool ι τ) (thread : ι) (place : Place τ) :
    ThreadPool ι τ :=
  { pool with
    threads := Function.update pool.threads thread
      { pool.threads thread with place } }

/-- What the code of the pool does, once a thread is in it. -/
inductive Own : ThreadPool ι τ → List (Event ι τ) → ThreadPool ι τ → Prop where
  | guard {pool : ThreadPool ι τ} {thread : ι} {task : τ}
      (place : (pool.threads thread).place = .execute task)
      (free : pool.mutex = none) :
      Own pool [] { pool.move thread (.push task) with mutex := some thread }
  | push {pool : ThreadPool ι τ} {thread : ι} {task : τ}
      (place : (pool.threads thread).place = .push task) :
      Own pool [.pushed task]
        { pool.move thread .notifyOne with queue := pool.queue ++ [task] }
  | notifyOne {pool : ThreadPool ι τ} {thread sleeper : ι}
      (place : (pool.threads thread).place = .notifyOne)
      (sleeps : (pool.threads sleeper).place = .asleep) :
      Own pool [] ((pool.move thread .unguard).move sleeper .woken)
  | notifyNobody {pool : ThreadPool ι τ} {thread : ι}
      (place : (pool.threads thread).place = .notifyOne)
      (nobody : ∀ other, (pool.threads other).place ≠ .asleep) :
      Own pool [] (pool.move thread .unguard)
  | unguard {pool : ThreadPool ι τ} {thread : ι}
      (place : (pool.threads thread).place = .unguard) :
      Own pool [] { pool.move thread .outside with mutex := none }
  | lock {pool : ThreadPool ι τ} {thread : ι}
      (place : (pool.threads thread).place = .getTask)
      (free : pool.mutex = none) :
      Own pool [] { pool.move thread .look with mutex := some thread }
  | look {pool : ThreadPool ι τ} {thread : ι}
      (place : (pool.threads thread).place = .look) :
      Own pool [] (pool.move thread (if pool.queue.isEmpty then .test else .front))
  | sleep {pool : ThreadPool ι τ} {thread : ι}
      (place : (pool.threads thread).place = .test)
      (empty : pool.queue = []) :
      Own pool [] { pool.move thread .asleep with mutex := none }
  | goOn {pool : ThreadPool ι τ} {thread : ι}
      (place : (pool.threads thread).place = .test)
      (waiting : pool.queue ≠ []) :
      Own pool [] (pool.move thread .front)
  | relock {pool : ThreadPool ι τ} {thread : ι}
      (place : (pool.threads thread).place = .woken)
      (free : pool.mutex = none) :
      Own pool [] { pool.move thread .test with mutex := some thread }
  | pop {pool : ThreadPool ι τ} {thread : ι} {task : τ} {rest : List τ}
      (place : (pool.threads thread).place = .front)
      (first : pool.queue = task :: rest) :
      Own pool [.taken thread task]
        { pool.move thread (.handOver task) with queue := rest }
  | handOver {pool : ThreadPool ι τ} {thread : ι} {task : τ}
      (place : (pool.threads thread).place = .handOver task) :
      Own pool [] { pool with
        mutex := none
        threads := Function.update pool.threads thread
          { place := .outside, task := some task } }

/-- A step of a thread.  Every thread that is not a worker, and every task that
a worker runs, may call `execute` whenever it likes. -/
inductive Step (worker : ι → Bool) :
    ThreadPool ι τ → List (Event ι τ) → ThreadPool ι τ → Prop where
  | own {pool after : ThreadPool ι τ} {events : List (Event ι τ)}
      (step : Own pool events after) : Step worker pool events after
  | call {pool : ThreadPool ι τ} {thread : ι} (task : τ)
      (place : (pool.threads thread).place = .outside) :
      Step worker pool [] (pool.move thread (.execute task))
  /-- A wait may end without a notification. -/
  | wake {pool : ThreadPool ι τ} {thread : ι}
      (place : (pool.threads thread).place = .asleep) :
      Step worker pool [] (pool.move thread .woken)
  /-- The loop of `run` goes to its next round. -/
  | finish {pool : ThreadPool ι τ} {thread : ι} {task : τ}
      (works : worker thread = true)
      (place : (pool.threads thread).place = .outside)
      (runs : (pool.threads thread).task = some task) :
      Step worker pool [.finished thread task]
        { pool with
          threads := Function.update pool.threads thread
            { place := .getTask, task := none } }

/-- The constructor starts the workers, and every worker begins with
`get_task`. -/
def start (worker : ι → Bool) : ThreadPool ι τ where
  queue := []
  mutex := none
  threads thread :=
    { place := if worker thread then .getTask else .outside, task := none }

inductive Run (worker : ι → Bool) :
    List (Event ι τ) → ThreadPool ι τ → Prop where
  | start : Run worker [] (start worker)
  | step {events more : List (Event ι τ)} {pool after : ThreadPool ι τ}
      (run : Run worker events pool) (step : Step worker pool more after) :
      Run worker (events ++ more) after

/-- A worker has gone to sleep, and a task is pushed. -/
theorem exists_sleeper : ∃ pool : ThreadPool Bool Nat,
    Run id [.pushed 7] pool ∧ pool.queue = [7] ∧
      (pool.threads true).place = .asleep := by
  have began : Run id [] (start id : ThreadPool Bool Nat) := .start
  have locked := began.step (.own (@Own.lock Bool Nat _ _ true rfl rfl))
  have looked := locked.step (.own (@Own.look Bool Nat _ _ true rfl))
  have slept := looked.step (.own (@Own.sleep Bool Nat _ _ true rfl rfl))
  have called := slept.step (@Step.call Bool Nat _ id _ false 7 rfl)
  have guarded := called.step (.own (@Own.guard Bool Nat _ _ false 7 rfl rfl))
  have pushed := guarded.step (.own (@Own.push Bool Nat _ _ false 7 rfl))
  exact ⟨_, pushed, rfl, rfl⟩

end ThreadPool

end Universe
