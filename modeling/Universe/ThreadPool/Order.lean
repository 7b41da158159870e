import Universe.ThreadPool.Conservation

/-!
# Every task is run once, in the order of the queue

What has been pushed is what has been taken, followed by what is still in the
queue; and what a worker has taken is what it has finished, followed by the
task in its hands.
-/

namespace Universe.ThreadPool

variable {ι τ : Type}

def Event.pushed? : Event ι τ → Option τ
  | .pushed task => some task
  | .taken _ _ | .finished _ _ => none

def Event.taken? : Event ι τ → Option τ
  | .taken _ task => some task
  | .pushed _ | .finished _ _ => none

/-- The tasks in the order in which they came into the queue. -/
def pushes (events : List (Event ι τ)) : List τ := events.filterMap Event.pushed?

/-- The tasks in the order in which they left the queue. -/
def takes (events : List (Event ι τ)) : List τ := events.filterMap Event.taken?

variable [DecidableEq ι]

def Event.takenBy? (thread : ι) : Event ι τ → Option τ
  | .taken other task => if other = thread then some task else none
  | .pushed _ | .finished _ _ => none

def Event.finishedBy? (thread : ι) : Event ι τ → Option τ
  | .finished other task => if other = thread then some task else none
  | .pushed _ | .taken _ _ => none

/-- The tasks one thread has taken. -/
def takenBy (thread : ι) (events : List (Event ι τ)) : List τ :=
  events.filterMap (Event.takenBy? thread)

/-- The tasks that have returned to one thread. -/
def finishedBy (thread : ι) (events : List (Event ι τ)) : List τ :=
  events.filterMap (Event.finishedBy? thread)

/-- The task a thread has taken and not finished. -/
def inHand (mine : Thread τ) : List τ :=
  match mine.place with
  | .handOver task => [task]
  | _ => mine.task.toList

variable {worker : ι → Bool} {pool after : ThreadPool ι τ} {thread other : ι}
  {events : List (Event ι τ)} {mine : Thread τ}

/-- The queue takes in at its end and gives out at its front. -/
theorem queue_step (step : Step worker pool events after) :
    pool.queue ++ pushes events = takes events ++ after.queue := by
  cases step with
  | own step =>
      cases step with
      | push place => rfl
      | pop place first =>
          rw [first]
          exact List.append_nil _
      | _ => exact List.append_nil _
  | finish works place runs => exact List.append_nil _
  | _ => exact List.append_nil _

/-- A place at which a thread holds no task it has yet to return. -/
def Place.light : Place τ → Bool
  | .handOver _ => false
  | _ => true

omit [DecidableEq ι] in
theorem inHand_of_light (light : mine.place.light = true) :
    inHand mine = mine.task.toList := by
  unfold inHand
  cases place : mine.place with
  | handOver task =>
      rw [place] at light
      cases light
  | _ => rfl

theorem inHand_move {here next : Place τ}
    (place : (pool.threads thread).place = here) (light : here.light = true)
    (still : next.light = true) :
    inHand ((pool.move thread next).threads other) =
      inHand (pool.threads other) := by
  by_cases same : other = thread
  · subst other here
    rw [inHand_of_light light]
    unfold move
    dsimp only
    rw [Function.update_self]
    exact inHand_of_light still
  · rw [threads_move_of_ne pool next same]

theorem hands_of_move {here next : Place τ}
    (place : (pool.threads thread).place = here) (light : here.light = true)
    (still : next.light = true) :
    inHand (pool.threads other) ++ takenBy other ([] : List (Event ι τ)) =
      finishedBy other ([] : List (Event ι τ)) ++
        inHand ((pool.move thread next).threads other) := by
  rw [inHand_move place light still]
  exact List.append_nil _

theorem hands_notify {sleeper : ι}
    (place : (pool.threads thread).place = .notifyOne)
    (sleeps : (pool.threads sleeper).place = .asleep) :
    inHand (((pool.move thread .unguard).move sleeper .woken).threads other) =
      inHand (pool.threads other) := by
  have distinct : sleeper ≠ thread := by
    rintro rfl
    rw [place] at sleeps
    cases sleeps
  have still : ((pool.move thread .unguard).threads sleeper).place = .asleep := by
    rw [threads_move_of_ne pool _ distinct]
    exact sleeps
  rw [inHand_move still rfl rfl, inHand_move place rfl rfl]

theorem hands_pop {task : τ} {queue : List τ}
    (place : (pool.threads thread).place = .front)
    (free : (pool.threads thread).task = none) :
    inHand (pool.threads other) ++ takenBy other [.taken thread task] =
      inHand ({ pool.move thread (.handOver task) with queue }.threads other) := by
  by_cases same : other = thread
  · subst other
    have before : inHand (pool.threads thread) = [] := by
      rw [inHand_of_light (by rw [place]; rfl), free]
      rfl
    have mine : ({ pool.move thread (.handOver task) with queue }.threads
        thread).place = .handOver task := by
      unfold move
      dsimp only
      rw [Function.update_self]
    rw [before]
    unfold inHand
    rw [mine]
    simp [takenBy, Event.takenBy?]
  · have others : takenBy other [.taken thread task] = [] := by
      simp [takenBy, Event.takenBy?, Ne.symm same]
    rw [others, List.append_nil]
    exact congrArg inHand (threads_move_of_ne pool _ same).symm

theorem hands_handOver {task : τ}
    (place : (pool.threads thread).place = .handOver task) :
    inHand (Function.update pool.threads thread
      { place := .outside, task := some task } other) =
        inHand (pool.threads other) := by
  by_cases same : other = thread
  · subst other
    rw [Function.update_self]
    unfold inHand
    rw [place]
    rfl
  · rw [Function.update_of_ne same]

theorem hands_finish {task : τ}
    (place : (pool.threads thread).place = .outside)
    (runs : (pool.threads thread).task = some task) :
    inHand (pool.threads other) =
      finishedBy other [.finished thread task] ++
        inHand (Function.update pool.threads thread
          { place := .getTask, task := none } other) := by
  by_cases same : other = thread
  · subst other
    rw [Function.update_self, inHand_of_light (by rw [place]; rfl), runs]
    simp [finishedBy, Event.finishedBy?, inHand]
  · rw [Function.update_of_ne same]
    simp [finishedBy, Event.finishedBy?, Ne.symm same]

variable [Fintype ι]

/-- What a thread takes comes into its hands, and leaves them finished. -/
theorem hands_step (sound : Sound worker pool)
    (step : Step worker pool events after) (thread : ι) :
    inHand (pool.threads thread) ++ takenBy thread events =
      finishedBy thread events ++ inHand (after.threads thread) := by
  cases step with
  | own step =>
      cases step with
      | guard place free => exact hands_of_move place rfl rfl
      | push place => exact hands_of_move place rfl rfl
      | notifyOne place sleeps =>
          rw [hands_notify place sleeps]
          exact List.append_nil _
      | notifyNobody place nobody => exact hands_of_move place rfl rfl
      | unguard place => exact hands_of_move place rfl rfl
      | lock place free => exact hands_of_move place rfl rfl
      | look place =>
          apply hands_of_move place rfl
          cases pool.queue.isEmpty <;> rfl
      | sleep place empty => exact hands_of_move place rfl rfl
      | goOn place waiting => exact hands_of_move place rfl rfl
      | relock place free => exact hands_of_move place rfl rfl
      | pop place first =>
          have idle := (sound.fits _).idle (by rw [place]; rfl)
          exact hands_pop place idle.2
      | handOver place =>
          exact (List.append_nil _).trans (hands_handOver place).symm
  | call task place => exact hands_of_move place rfl rfl
  | wake place => exact hands_of_move place rfl rfl
  | finish works place runs =>
      refine (List.append_nil _).trans ?_
      exact hands_finish place runs

/-- Every task that is pushed is taken at most once, the first one first, and
what a thread has taken it finishes in the same order, with at most one task in
its hands. -/
theorem tasks_run_once (run : Run worker events pool) :
    pushes events = takes events ++ pool.queue ∧
    ∀ thread, takenBy thread events =
      finishedBy thread events ++ inHand (pool.threads thread) := by
  induction run with
  | start =>
      refine ⟨rfl, fun thread => ?_⟩
      cases works : worker thread with
      | true => simp [takenBy, finishedBy, inHand, start, works]
      | false => simp [takenBy, finishedBy, inHand, start, works]
  | step run step induction =>
      have sound := sound_of_run run
      constructor
      · have same := queue_step step
        unfold pushes takes at *
        rw [List.filterMap_append, List.filterMap_append, induction.1,
          List.append_assoc, same, List.append_assoc]
      · intro thread
        have same := hands_step sound step thread
        have before := induction.2 thread
        unfold takenBy finishedBy at *
        rw [List.filterMap_append, List.filterMap_append, before,
          List.append_assoc, same, List.append_assoc]

theorem tasks_run_once_for_a_task : ∃ pool : ThreadPool Bool Nat,
    Run id [.pushed 7, .taken true 7, .finished true 7] pool ∧
      [7] = [7] ++ pool.queue ∧ [7] = [7] ++ inHand (pool.threads true) := by
  have began : Run id [] (start id : ThreadPool Bool Nat) := .start
  have called := began.step (@Step.call Bool Nat _ id _ false 7 rfl)
  have guarded := called.step (.own (@Own.guard Bool Nat _ _ false 7 rfl rfl))
  have pushed := guarded.step (.own (@Own.push Bool Nat _ _ false 7 rfl))
  have notified := pushed.step (.own (@Own.notifyNobody Bool Nat _ _ false rfl
    (by decide)))
  have returned := notified.step (.own (@Own.unguard Bool Nat _ _ false rfl))
  have locked := returned.step (.own (@Own.lock Bool Nat _ _ true rfl rfl))
  have looked := locked.step (.own (@Own.look Bool Nat _ _ true rfl))
  have taken := looked.step (.own (@Own.pop Bool Nat _ _ true 7 [] rfl rfl))
  have given := taken.step (.own (@Own.handOver Bool Nat _ _ true 7 rfl))
  have finished := given.step (@Step.finish Bool Nat _ id _ true 7 rfl rfl rfl)
  exact ⟨_, finished, (tasks_run_once finished).1, (tasks_run_once finished).2 true⟩

end Universe.ThreadPool
