import Universe.ClientServer

/-!
# The master keeps its workers

`event_loop` of a server with several workers forks them and then supervises
them: whenever one has died, another is forked.  A worker asks for a signal at
the death of its parent, renews its epoll descriptor and serves.  Workers may
die and the master may be killed at any time.
-/

namespace Universe

/-- `Utils::get_cpu_cores`, of what `hardware_concurrency` returns. -/
def Utils.getCpuCores (hardwareConcurrency : Nat) : Nat :=
  if hardwareConcurrency = 0 then 8 else hardwareConcurrency

namespace ClientServer

def numberCores : Int := -1

/-- How many workers `event_loop` forks before it supervises them. -/
def forkCount (workerNum : Int) (hardwareConcurrency : Nat) : Nat :=
  if workerNum = numberCores then Utils.getCpuCores hardwareConcurrency
  else workerNum.toNat

/-- Where a worker is in `child_callback`. -/
inductive Phase where
  | forked
  /-- after `prctl` -/
  | bound
  /-- after `ON_FORK` -/
  | renewed
  /-- in `Server::event_loop` -/
  | serving
deriving DecidableEq

/-- How many steps a worker has before it until it serves. -/
def Phase.ahead : Phase → Nat
  | .forked => 3
  | .bound => 2
  | .renewed => 1
  | .serving => 0

/-- Where the process that called `event_loop` is. -/
inductive Master where
  /-- it has no workers and serves by itself -/
  | alone
  | forks (i : Nat)
  /-- in `waitpid` -/
  | waits
  /-- in the loop of `supervise_subprocess`, before `fork` -/
  | reforks
  | returned
  | ended
deriving DecidableEq

/-- It is in the part of `event_loop` that has workers. -/
def Master.supervising : Master → Bool
  | .forks _ | .waits | .reforks => true
  | .alone | .returned | .ended => false

/-- How many steps it may have before it, with those of the workers that it is
about to fork. -/
def Master.ahead (count : Nat) : Master → Nat
  | .forks i => (count - i) * 4 + 2
  | .waits => 1
  | .reforks => 5
  | .alone | .returned | .ended => 0

/-- The master with its workers, those of its workers that have died and that
it has not waited for, and the workers that have outlived it. -/
structure Family where
  master : Master
  workers : List Phase := []
  zombies : Nat := 0
  orphans : List Phase := []
deriving DecidableEq

namespace Family

def start (workerNum : Int) : Family where
  master := if workerNum = 0 then .alone else .forks 0

/-- The kernel sends `SIGHUP` to the workers that have asked for it. -/
def endMaster (family : Family) : Family where
  master := .ended
  orphans := family.workers.filter (· = .forked)

/-- What the code does while no process dies and every `fork` succeeds. -/
inductive Own (count : Nat) : Family → Family → Prop where
  | forks {family : Family} {i : Nat} (master : family.master = .forks i)
      (more : i < count) :
      Own count family { family with
        master := .forks (i + 1)
        workers := family.workers ++ [.forked] }
  | supervises {family : Family} {i : Nat} (master : family.master = .forks i)
      (enough : count ≤ i) :
      Own count family { family with master := .waits }
  | reaps {family : Family} {zombies : Nat} (master : family.master = .waits)
      (dead : family.zombies = zombies + 1) :
      Own count family { family with master := .reforks, zombies }
  | noChild {family : Family} (master : family.master = .waits)
      (dead : family.zombies = 0) (workers : family.workers = []) :
      Own count family { family with master := .returned }
  | reforks {family : Family} (master : family.master = .reforks) :
      Own count family { family with
        master := .waits
        workers := family.workers ++ [.forked] }
  | binds {family : Family} {front back : List Phase}
      (workers : family.workers = front ++ .forked :: back) :
      Own count family { family with workers := front ++ .bound :: back }
  | renews {family : Family} {front back : List Phase}
      (workers : family.workers = front ++ .bound :: back) :
      Own count family { family with workers := front ++ .renewed :: back }
  | serves {family : Family} {front back : List Phase}
      (workers : family.workers = front ++ .renewed :: back) :
      Own count family { family with workers := front ++ .serving :: back }

inductive Step (count : Nat) : Family → Family → Prop where
  | own {family after : Family} (step : Own count family after) :
      Step count family after
  | dies {family : Family} {phase : Phase} {front back : List Phase}
      (workers : family.workers = front ++ phase :: back) :
      Step count family { family with
        workers := front ++ back
        zombies := family.zombies + 1 }
  /-- `error_exit` after a `fork` that failed. -/
  | forkFails {family : Family}
      (forks : (∃ i < count, family.master = .forks i) ∨
        family.master = .reforks) :
      Step count family family.endMaster
  | killed {family : Family} (alive : family.master ≠ .ended) :
      Step count family family.endMaster

/-- Any order of the processes, from a call of `event_loop` on. -/
inductive Run (workerNum : Int) (hardwareConcurrency : Nat) : Family → Prop where
  | start : Run workerNum hardwareConcurrency (start workerNum)
  | step {family after : Family}
      (run : Run workerNum hardwareConcurrency family)
      (step : Step (forkCount workerNum hardwareConcurrency) family after) :
      Run workerNum hardwareConcurrency after

variable {workerNum : Int} {hardwareConcurrency count moves : Nat}
  {family after : Family}

/-- The only worker of a master has died while the master waits. -/
theorem run_worker_dead : Run 1 4 { master := .waits, zombies := 1 } := by
  have forked := Run.start.step (.own (@Own.forks (forkCount 1 4) (start 1) 0 rfl
    (by decide)))
  have waits := forked.step (.own (@Own.supervises (forkCount 1 4) _ 1 rfl
    (by decide)))
  exact waits.step (@Step.dies _ _ .forked [] [] rfl)

/-- The children of the master, dead ones included. -/
def children (family : Family) : Nat := family.workers.length + family.zombies

/-- What a family of `count` workers is at every place of its master. -/
def Kept (workerNum : Int) (count : Nat) (family : Family) : Prop :=
  match family.master with
  | .alone => workerNum = 0 ∧ family.children = 0
  | .forks i => workerNum ≠ 0 ∧ i ≤ count ∧ family.children = i
  | .waits => workerNum ≠ 0 ∧ family.children = count
  | .reforks => workerNum ≠ 0 ∧ family.children + 1 = count
  | .returned => count = 0 ∧ workerNum ≠ 0 ∧ family.children = 0
  | .ended =>
      family.children = 0 ∧ ∀ phase ∈ family.orphans, phase = .forked

theorem kept_start (workerNum : Int) (count : Nat) :
    Kept workerNum count (start workerNum) := by
  unfold Kept start
  by_cases none : workerNum = 0
  · simp [none, children]
  · simp [none, children]

theorem Kept.endMaster (workerNum : Int) (count : Nat) (family : Family) :
    Kept workerNum count family.endMaster := by
  refine ⟨rfl, fun phase member => ?_⟩
  simpa [Family.endMaster] using (List.mem_filter.mp member).2

/-- A worker that goes on, or dies, remains a child. -/
theorem Kept.of_children (kept : Kept workerNum count family)
    (master : after.master = family.master)
    (children : after.children = family.children)
    (orphans : after.orphans = family.orphans) :
    Kept workerNum count after := by
  unfold Kept at kept ⊢
  rw [master]
  cases place : family.master with
  | alone | forks | waits | reforks | returned | ended =>
      simpa only [place, children, orphans] using kept

theorem Kept.own (kept : Kept workerNum count family)
    (step : Own count family after) : Kept workerNum count after := by
  cases step with
  | forks master more =>
      simp only [Kept, master, children] at kept
      simp only [Kept, children, List.length_append, List.length_singleton]
      omega
  | supervises master enough =>
      simp only [Kept, master, children] at kept
      simp only [Kept, children]
      omega
  | reaps master dead =>
      simp only [Kept, master, children] at kept
      simp only [Kept, children]
      omega
  | noChild master dead workers =>
      simp only [Kept, master, children, dead, workers] at kept
      exact ⟨kept.2.symm, kept.1, by simp [children, dead, workers]⟩
  | reforks master =>
      simp only [Kept, master, children] at kept
      simp only [Kept, children, List.length_append, List.length_singleton]
      omega
  | binds workers | renews workers | serves workers =>
      refine kept.of_children rfl ?_ rfl
      simp [children, workers]

theorem Kept.step (kept : Kept workerNum count family)
    (step : Step count family after) : Kept workerNum count after := by
  cases step with
  | own step => exact kept.own step
  | dies workers =>
      refine kept.of_children rfl ?_ rfl
      simp only [children, workers, List.length_append, List.length_cons]
      omega
  | forkFails forks => exact Kept.endMaster workerNum count family
  | killed alive => exact Kept.endMaster workerNum count family

theorem kept_of_run (run : Run workerNum hardwareConcurrency family) :
    Kept workerNum (forkCount workerNum hardwareConcurrency) family := by
  induction run with
  | start => exact kept_start workerNum _
  | step run step induction => exact induction.step step

/-- The code's own steps, one after the other. -/
inductive Goes (count : Nat) : Nat → Family → Family → Prop where
  | none (family : Family) : Goes count 0 family family
  | more {moves : Nat} {family next after : Family}
      (step : Own count family next) (rest : Goes count moves next after) :
      Goes count (moves + 1) family after

/-- Every process waits for another one or for its clients. -/
def Resting (count : Nat) (family : Family) : Prop :=
  ∀ after, ¬ Own count family after

/-- How many steps all processes may have before them. -/
def ahead (count : Nat) (family : Family) : Nat :=
  family.master.ahead count + (family.workers.map Phase.ahead).sum +
    family.zombies * 5

theorem ahead_own (step : Own count family after) :
    after.ahead count < family.ahead count := by
  cases step with
  | forks master more =>
      simp only [ahead, master, Master.ahead, List.map_append, List.sum_append,
        List.map_singleton, List.sum_singleton, Phase.ahead]
      omega
  | supervises master enough =>
      simp only [ahead, master, Master.ahead]
      omega
  | reaps master dead =>
      simp only [ahead, master, Master.ahead, dead]
      omega
  | noChild master dead workers =>
      simp only [ahead, master, Master.ahead]
      omega
  | reforks master =>
      simp only [ahead, master, Master.ahead, List.map_append, List.sum_append,
        List.map_singleton, List.sum_singleton, Phase.ahead]
      omega
  | binds workers | renews workers | serves workers =>
      simp only [ahead, workers, List.map_append, List.sum_append,
        List.map_cons, List.sum_cons, Phase.ahead]
      omega

theorem Goes.ahead_le (goes : Goes count moves family after) :
    moves + after.ahead count ≤ family.ahead count := by
  induction goes with
  | none family => exact Nat.le_of_eq (Nat.zero_add _)
  | more step rest induction =>
      have less := ahead_own step
      omega

theorem sum_ahead_le (workers : List Phase) :
    (workers.map Phase.ahead).sum ≤ workers.length * 3 := by
  induction workers with
  | nil => simp
  | cons phase workers induction =>
      have one : phase.ahead ≤ 3 := by cases phase <;> simp [Phase.ahead]
      simp only [List.map_cons, List.sum_cons, List.length_cons]
      omega

theorem Kept.ahead_le (kept : Kept workerNum count family) :
    family.ahead count ≤ count * 5 + 2 := by
  have each := sum_ahead_le family.workers
  unfold ahead
  cases place : family.master with
  | alone | forks | waits | reforks | returned | ended =>
      simp only [Kept, place, children] at kept
      simp only [Master.ahead]
      omega

/-- The code can always go on until it rests. -/
theorem exists_resting (count : Nat) (family : Family) :
    ∃ moves after, Goes count moves family after ∧ Resting count after := by
  induction measure : family.ahead count using Nat.strong_induction_on
    generalizing family with
  | h most induction =>
      by_cases resting : Resting count family
      · exact ⟨0, family, .none family, resting⟩
      · simp only [Resting, not_forall, not_not] at resting
        obtain ⟨next, step⟩ := resting
        subst measure
        obtain ⟨moves, after, goes, resting⟩ :=
          induction _ (ahead_own step) next rfl
        exact ⟨moves + 1, after, .more step goes, resting⟩

/-- While there are workers, the code's own steps do not leave the loops. -/
theorem Kept.supervising_own (kept : Kept workerNum count family)
    (some : 0 < count) (supervising : family.master.supervising = true)
    (step : Own count family after) : after.master.supervising = true := by
  cases step with
  | noChild master dead workers =>
      simp only [Kept, master, children, dead, workers, List.length_nil] at kept
      omega
  | forks | supervises | reaps | reforks => rfl
  | binds | renews | serves => exact supervising

theorem Goes.kept (goes : Goes count moves family after) (some : 0 < count)
    (kept : Kept workerNum count family)
    (supervising : family.master.supervising = true) :
    Kept workerNum count after ∧ after.master.supervising = true := by
  induction goes with
  | none family => exact ⟨kept, supervising⟩
  | more step rest induction =>
      exact induction (kept.own step) (kept.supervising_own some supervising step)

theorem Resting.serving (resting : Resting count family) {phase : Phase}
    (member : phase ∈ family.workers) : phase = .serving := by
  obtain ⟨front, back, workers⟩ := List.append_of_mem member
  cases phase with
  | forked => exact absurd (.binds workers) (resting _)
  | bound => exact absurd (.renews workers) (resting _)
  | renewed => exact absurd (.serves workers) (resting _)
  | serving => rfl

theorem Resting.waits (resting : Resting count family)
    (supervising : family.master.supervising = true) :
    family.master = .waits ∧ family.zombies = 0 := by
  cases master : family.master with
  | forks i =>
      rcases Nat.lt_or_ge i count with more | enough
      · exact absurd (.forks master more) (resting _)
      · exact absurd (.supervises master enough) (resting _)
  | waits =>
      cases dead : family.zombies with
      | zero => exact ⟨rfl, rfl⟩
      | succ zombies => exact absurd (.reaps master dead) (resting _)
  | reforks => exact absurd (.reforks master) (resting _)
  | alone | returned | ended =>
      rw [master] at supervising
      cases supervising

/-- At rest every worker serves. -/
theorem Resting.restored (resting : Resting count family)
    (kept : Kept workerNum count family)
    (supervising : family.master.supervising = true) :
    family.master = .waits ∧ family.zombies = 0 ∧
      family.workers = List.replicate count .serving := by
  obtain ⟨master, dead⟩ := resting.waits supervising
  simp only [Kept, master, children, dead, Nat.add_zero] at kept
  exact ⟨master, dead, List.eq_replicate_iff.mpr
    ⟨kept.2, fun phase member => resting.serving member⟩⟩

/-- Whatever dies and whenever, the master has its workers: all of them, dead
or alive, while it waits, and one less while it forks another.  It leaves
`event_loop` only when it was asked for a negative number of workers other than
`NUMBER_CORES`; and a worker that outlives it had not yet asked for the signal
at its death. -/
theorem master_keeps_its_workers
    (asked : forkCount workerNum hardwareConcurrency = count)
    (run : Run workerNum hardwareConcurrency family) :
    (family.master = .waits → family.children = count) ∧
    (family.master = .reforks → family.children + 1 = count) ∧
    (∀ i, family.master = .forks i → family.children = i ∧ i ≤ count) ∧
    (family.master = .alone → workerNum = 0 ∧ family.children = 0) ∧
    (family.master = .returned → workerNum < -1 ∧ family.children = 0) ∧
    (family.master = .ended → family.children = 0 ∧
      ∀ phase ∈ family.orphans, phase = .forked) := by
  have kept := kept_of_run run
  rw [asked] at kept
  unfold Kept at kept
  refine ⟨fun master => ?_, fun master => ?_, fun i master => ?_,
    fun master => ?_, fun master => ?_, fun master => ?_⟩ <;>
    rw [master] at kept
  · exact kept.2
  · exact kept.2
  · exact ⟨kept.2.2, kept.2.1⟩
  · exact kept
  · obtain ⟨rfl, nonzero, nobody⟩ := kept
    refine ⟨?_, nobody⟩
    unfold forkCount Utils.getCpuCores at asked
    split at asked
    · split at asked <;> omega
    · next others =>
        simp only [numberCores] at others
        omega
  · exact kept

theorem master_keeps_a_dead_worker :
    ({ master := .waits, zombies := 1 } : Family).children = 1 :=
  (master_keeps_its_workers rfl run_worker_dead).1 rfl

/-- From whatever a run has reached, while the master lives, the code's own
steps end after at most five for each worker and one more, in whatever order
the processes take them; and where they end, every worker serves. -/
theorem workers_come_back
    (asked : forkCount workerNum hardwareConcurrency = count + 1)
    (run : Run workerNum hardwareConcurrency family)
    (supervising : family.master.supervising = true) :
    (∃ moves after, Goes (count + 1) moves family after ∧
      Resting (count + 1) after) ∧
    ∀ moves after, Goes (count + 1) moves family after →
      moves ≤ (count + 1) * 5 + 1 ∧
      (Resting (count + 1) after →
        after.master = .waits ∧ after.zombies = 0 ∧
          after.workers = List.replicate (count + 1) .serving) := by
  have kept := kept_of_run run
  rw [asked] at kept
  refine ⟨exists_resting _ family, fun moves after goes => ?_⟩
  obtain ⟨keptAfter, supervisingAfter⟩ :=
    goes.kept (Nat.succ_pos count) kept supervising
  refine ⟨?_, fun resting => resting.restored keptAfter supervisingAfter⟩
  have spent := goes.ahead_le
  have most := kept.ahead_le
  have left : 1 ≤ after.ahead (count + 1) := by
    unfold ahead
    cases master : after.master with
    | forks | waits | reforks =>
        simp only [Master.ahead]
        omega
    | alone | returned | ended =>
        rw [master] at supervisingAfter
        cases supervisingAfter
  omega

theorem a_worker_comes_back :
    ∃ moves after, Goes 1 moves { master := .waits, zombies := 1 } after ∧
      moves ≤ 6 ∧ after.workers = [.serving] := by
  obtain ⟨⟨moves, after, goes, resting⟩, restored⟩ :=
    @workers_come_back _ _ 0 _ rfl run_worker_dead rfl
  exact ⟨moves, after, goes, (restored moves after goes).1,
    ((restored moves after goes).2 resting).2.2⟩

end Family

end ClientServer

end Universe
