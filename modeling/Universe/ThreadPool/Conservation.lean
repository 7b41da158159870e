import Universe.ThreadPool

/-!
# No task is lost and no worker sleeps in vain

The threads that come to the queue are counted against the tasks in it: while
a worker sleeps, every task in the queue has a thread that comes for it.  A
notification that is due counts as such a thread.
-/

namespace Universe.ThreadPool

open Census

namespace Place

variable {τ : Type}

/-- A thread at this place has the mutex. -/
def inside : Place τ → Bool
  | .push _ | .notifyOne | .unguard | .look | .test | .front | .handOver _ => true
  | _ => false

/-- This place is not in `get_task`. -/
def calling : Place τ → Bool
  | .outside | .execute _ | .push _ | .notifyOne | .unguard => true
  | _ => false

/-- A thread at this place comes to the queue, or is about to wake one that
does. -/
def coming : Place τ → Nat
  | .notifyOne | .getTask | .look | .test | .woken | .front => 1
  | _ => 0

end Place

variable {ι τ : Type} {worker : ι → Bool} {pool after : ThreadPool ι τ}
  {queue : List τ} {mutex : Option ι} {thread other : ι} {mine : Thread τ}
  {events : List (Event ι τ)}

/-- What holds of one thread. -/
structure Fits (worker : ι → Bool) (queue : List τ) (mutex : Option ι)
    (thread : ι) (mine : Thread τ) : Prop where
  inside : mine.place.inside = true ↔ mutex = some thread
  front : mine.place = .front → queue ≠ []
  busy : worker thread = true → mine.place.calling = true → mine.task ≠ none
  idle : mine.place.calling = false → worker thread = true ∧ mine.task = none

/-- A step of one thread leaves the others as they fit: it takes the mutex when
it is free, it gives back its own, and it touches the queue with the mutex. -/
theorem Fits.of_step (fits : Fits worker pool.queue pool.mutex other mine)
    (distinct : other ≠ thread)
    (taken : mutex = pool.mutex ∨ (pool.mutex = none ∧ mutex = some thread) ∨
      (pool.mutex = some thread ∧ mutex = none))
    (touched : queue = pool.queue ∨ pool.mutex = some thread) :
    Fits worker queue mutex other mine := by
  have stranger : pool.mutex = some other ↔ mutex = some other := by
    rcases taken with kept | ⟨before, now⟩ | ⟨before, now⟩
    · rw [kept]
    · rw [before, now]
      simp [distinct.symm]
    · rw [before, now]
      simp [distinct.symm]
  refine ⟨fits.inside.trans stranger, ?_, fits.busy, fits.idle⟩
  intro front
  rcases touched with kept | held
  · rw [kept]
    exact fits.front front
  · have holds : pool.mutex = some other := by
      apply fits.inside.mp
      rw [front]
      rfl
    rw [held] at holds
    exact absurd (Option.some.inj holds).symm distinct

variable [Fintype ι]

/-- How many threads come to the queue. -/
def arriving (pool : ThreadPool ι τ) : Nat :=
  total (fun thread : Thread τ => thread.place.coming) pool.threads

structure Sound (worker : ι → Bool) (pool : ThreadPool ι τ) : Prop where
  fits : ∀ thread,
    Fits worker pool.queue pool.mutex thread (pool.threads thread)
  conserved : ∀ thread, (pool.threads thread).place = .asleep →
    pool.queue.length ≤ arriving pool

theorem sound_start [DecidableEq ι] (worker : ι → Bool) :
    Sound worker (start worker : ThreadPool ι τ) := by
  constructor
  · intro thread
    cases works : worker thread with
    | false =>
        constructor <;> simp [start, works, Place.inside, Place.calling]
    | true =>
        constructor <;> simp [start, works, Place.inside, Place.calling]
  · intro thread _
    exact Nat.zero_le _

theorem arriving_pos (pool : ThreadPool ι τ) (thread : ι) :
    (pool.threads thread).place.coming ≤ arriving pool :=
  le_total (fun thread : Thread τ => thread.place.coming) pool.threads thread

theorem Sound.mutex_of_inside (sound : Sound worker pool) {place : Place τ}
    (here : (pool.threads thread).place = place) (inside : place.inside = true) :
    pool.mutex = some thread := by
  apply (sound.fits thread).inside.mp
  rw [here]
  exact inside

theorem Sound.notHeld (sound : Sound worker pool) {place : Place τ}
    (here : (pool.threads thread).place = place) (outside : place.inside = false) :
    pool.mutex ≠ some thread := by
  intro holds
  have inside := (sound.fits thread).inside.mpr holds
  rw [here, outside] at inside
  cases inside

/-- While anyone sleeps, the tasks in the queue are counted. -/
theorem Sound.counted (sound : Sound worker pool)
    (asleep : ∃ other, (pool.threads other).place = .asleep) :
    pool.queue.length ≤ arriving pool := by
  obtain ⟨other, asleep⟩ := asleep
  exact sound.conserved other asleep

variable [DecidableEq ι]

omit [Fintype ι] in
theorem threads_move_of_ne (pool : ThreadPool ι τ) (place : Place τ)
    (distinct : other ≠ thread) :
    (pool.move thread place).threads other = pool.threads other :=
  Function.update_of_ne distinct ..

omit [Fintype ι] in
theorem move_comm (pool : ThreadPool ι τ) (first second : Place τ)
    (distinct : thread ≠ other) :
    (pool.move thread first).move other second =
      (pool.move other second).move thread first := by
  unfold move
  simp only [Function.update_of_ne distinct, Function.update_of_ne distinct.symm,
    Function.update_comm distinct]

theorem arriving_move (pool : ThreadPool ι τ) (thread : ι) (place : Place τ) :
    arriving (pool.move thread place) + (pool.threads thread).place.coming =
      arriving pool + place.coming :=
  total_update (fun thread : Thread τ => thread.place.coming) pool.threads _ _

/-- One thread is replaced by what a step makes of it. -/
theorem Sound.of_replace {new : Thread τ} (sound : Sound worker pool)
    (fits : Fits worker queue mutex thread new)
    (taken : mutex = pool.mutex ∨ (pool.mutex = none ∧ mutex = some thread) ∨
      (pool.mutex = some thread ∧ mutex = none))
    (touched : queue = pool.queue ∨ pool.mutex = some thread)
    (conserved : new.place = .asleep ∨
        (∃ other, (pool.threads other).place = .asleep) →
      queue.length + (pool.threads thread).place.coming ≤
        arriving pool + new.place.coming) :
    Sound worker ⟨queue, mutex, Function.update pool.threads thread new⟩ := by
  constructor
  · intro other
    dsimp only
    by_cases same : other = thread
    · subst other
      rw [Function.update_self]
      exact fits
    · rw [Function.update_of_ne same]
      exact (sound.fits other).of_step same taken touched
  · intro other asleep
    dsimp only at asleep
    have moved := total_update (fun thread : Thread τ => thread.place.coming)
      pool.threads thread new
    have enough : queue.length + (pool.threads thread).place.coming ≤
        arriving pool + new.place.coming := by
      apply conserved
      by_cases same : other = thread
      · subst other
        rw [Function.update_self] at asleep
        exact .inl asleep
      · rw [Function.update_of_ne same] at asleep
        exact .inr ⟨other, asleep⟩
    unfold arriving at enough ⊢
    dsimp only
    omega

/-- One thread goes to another place and keeps its task. -/
theorem Sound.of_move {place : Place τ} (sound : Sound worker pool)
    (inside : place.inside = true ↔ mutex = some thread)
    (front : place = .front → queue ≠ [])
    (calling : place.calling = (pool.threads thread).place.calling)
    (taken : mutex = pool.mutex ∨ (pool.mutex = none ∧ mutex = some thread) ∨
      (pool.mutex = some thread ∧ mutex = none))
    (touched : queue = pool.queue ∨ pool.mutex = some thread)
    (conserved : place = .asleep ∨
        (∃ other, (pool.threads other).place = .asleep) →
      queue.length + (pool.threads thread).place.coming ≤
        arriving pool + place.coming) :
    Sound worker { pool.move thread place with mutex, queue } := by
  apply sound.of_replace _ taken touched conserved
  refine ⟨inside, front, ?_, ?_⟩
  · intro works isCalling
    exact (sound.fits thread).busy works (calling.symm.trans isCalling)
  · intro notCalling
    exact (sound.fits thread).idle (calling.symm.trans notCalling)

theorem Sound.wakes (sound : Sound worker pool)
    (sleeps : (pool.threads thread).place = .asleep) :
    Sound worker (pool.move thread .woken) := by
  apply sound.of_move
  · constructor
    · intro inside
      cases inside
    · intro held
      exact absurd held (sound.notHeld sleeps rfl)
  · intro front
    cases front
  · rw [sleeps]
    rfl
  · exact .inl rfl
  · exact .inl rfl
  · rw [sleeps]
    exact fun _ => Nat.le_succ_of_le (sound.counted ⟨thread, sleeps⟩)

/-- A thread gets the mutex, which was free. -/
theorem Sound.takes {here next : Place τ} (sound : Sound worker pool)
    (place : (pool.threads thread).place = here) (free : pool.mutex = none)
    (inside : next.inside = true) (calling : next.calling = here.calling)
    (coming : next.coming = here.coming) (notFront : next ≠ .front)
    (awake : next ≠ .asleep) :
    Sound worker { pool.move thread next with mutex := some thread } := by
  subst here
  apply sound.of_move
  · exact ⟨fun _ => rfl, fun _ => inside⟩
  · exact fun front => absurd front notFront
  · exact calling
  · exact .inr (.inl ⟨free, rfl⟩)
  · exact .inl rfl
  · intro asleep
    rw [coming]
    exact Nat.add_le_add_right (sound.counted (asleep.resolve_left awake)) _

/-- A thread that has the mutex gives it back. -/
theorem Sound.gives {here next : Place τ} (sound : Sound worker pool)
    (place : (pool.threads thread).place = here) (inside : here.inside = true)
    (outside : next.inside = false) (calling : next.calling = here.calling)
    (conserved : next = .asleep ∨
        (∃ other, (pool.threads other).place = .asleep) →
      pool.queue.length + here.coming ≤ arriving pool + next.coming) :
    Sound worker { pool.move thread next with mutex := none } := by
  have held := sound.mutex_of_inside place inside
  subst here
  apply sound.of_move
  · constructor
    · intro inside
      rw [outside] at inside
      cases inside
    · intro none
      cases none
  · intro front
    rw [front] at outside
    cases outside
  · exact calling
  · exact .inr (.inr ⟨held, rfl⟩)
  · exact .inl rfl
  · exact conserved

/-- A thread goes on with the mutex, and may change the queue. -/
theorem Sound.keeps {here next : Place τ} (sound : Sound worker pool)
    (place : (pool.threads thread).place = here) (inside : here.inside = true)
    (still : next.inside = true) (calling : next.calling = here.calling)
    (front : next = .front → queue ≠ [])
    (conserved : (∃ other, (pool.threads other).place = .asleep) →
      queue.length + here.coming ≤ arriving pool + next.coming) :
    Sound worker { pool.move thread next with queue } := by
  have held := sound.mutex_of_inside place inside
  subst here
  apply sound.of_move
  · exact ⟨fun _ => held, fun _ => still⟩
  · exact front
  · exact calling
  · exact .inl rfl
  · exact .inr held
  · intro asleep
    apply conserved
    apply asleep.resolve_left
    rintro rfl
    cases still

/-- The thread that notifies counted for the one it wakes. -/
theorem Sound.notifies {sleeper : ι} (sound : Sound worker pool)
    (place : (pool.threads thread).place = .notifyOne)
    (sleeps : (pool.threads sleeper).place = .asleep) :
    Sound worker ((pool.move thread .unguard).move sleeper .woken) := by
  have held := sound.mutex_of_inside place rfl
  have distinct : sleeper ≠ thread := by
    rintro rfl
    rw [place] at sleeps
    cases sleeps
  have woken : Sound worker (pool.move sleeper .woken) := sound.wakes sleeps
  have still : ((pool.move sleeper .woken).threads thread).place =
      .notifyOne := by
    rw [threads_move_of_ne pool _ distinct.symm]
    exact place
  have more : arriving (pool.move sleeper .woken) = arriving pool + 1 := by
    have moved := arriving_move pool sleeper .woken
    rw [sleeps] at moved
    exact moved
  rw [move_comm pool _ _ distinct.symm]
  refine woken.keeps still rfl rfl rfl ?_ ?_
  · intro front
    cases front
  · intro _
    rw [more]
    exact Nat.add_le_add_right (sound.counted ⟨sleeper, sleeps⟩) 1

theorem Sound.own (sound : Sound worker pool) (step : Own pool events after) :
    Sound worker after := by
  cases step with
  | guard place free =>
      exact sound.takes place free rfl rfl rfl (by simp) (by simp)
  | push place =>
      refine sound.keeps place rfl rfl rfl (by simp) ?_
      intro asleep
      rw [List.length_append]
      exact Nat.add_le_add_right (sound.counted asleep) 1
  | notifyOne place sleeps => exact sound.notifies place sleeps
  | notifyNobody place nobody =>
      refine sound.keeps place rfl rfl rfl (by simp) ?_
      rintro ⟨other, asleep⟩
      exact absurd asleep (nobody other)
  | unguard place =>
      refine sound.gives place rfl rfl rfl ?_
      exact fun asleep => sound.counted (asleep.resolve_left (by simp))
  | lock place free =>
      exact sound.takes place free rfl rfl rfl (by simp) (by simp)
  | look place =>
      cases empty : pool.queue.isEmpty with
      | true =>
          refine sound.keeps place rfl rfl rfl (by simp) ?_
          exact fun asleep => Nat.add_le_add_right (sound.counted asleep) 1
      | false =>
          refine sound.keeps place rfl rfl rfl ?_ ?_
          · exact fun _ => List.isEmpty_eq_false_iff.mp empty
          · exact fun asleep => Nat.add_le_add_right (sound.counted asleep) 1
  | sleep place empty =>
      have here := arriving_pos pool _ |>.trans_eq' (congrArg Place.coming place)
      refine sound.gives place rfl rfl rfl ?_
      intro _
      rw [empty]
      exact here
  | goOn place waiting =>
      refine sound.keeps place rfl rfl rfl (fun _ => waiting) ?_
      exact fun asleep => Nat.add_le_add_right (sound.counted asleep) 1
  | relock place free =>
      exact sound.takes place free rfl rfl rfl (by simp) (by simp)
  | pop place first =>
      refine sound.keeps place rfl rfl rfl (by simp) ?_
      intro asleep
      have counted := sound.counted asleep
      rw [first] at counted
      exact counted
  | handOver place =>
      have held := sound.mutex_of_inside place rfl
      apply sound.of_replace
      · refine ⟨?_, ?_, ?_, ?_⟩
        · simp [Place.inside]
        · intro front
          cases front
        · intro _ _ none
          cases none
        · intro getting
          cases getting
      · exact .inr (.inr ⟨held, rfl⟩)
      · exact .inl rfl
      · rw [place]
        exact fun asleep => sound.counted (asleep.resolve_left (by simp))

theorem Sound.step (sound : Sound worker pool)
    (step : Step worker pool events after) : Sound worker after := by
  cases step with
  | own step => exact sound.own step
  | call task place =>
      apply sound.of_move
      · constructor
        · intro inside
          cases inside
        · intro held
          exact absurd held (sound.notHeld place rfl)
      · intro front
        cases front
      · rw [place]
        rfl
      · exact .inl rfl
      · exact .inl rfl
      · rw [place]
        exact fun asleep => sound.counted (asleep.resolve_left (by simp))
  | wake place => exact sound.wakes place
  | finish works place runs =>
      apply sound.of_replace
      · refine ⟨?_, ?_, ?_, ?_⟩
        · constructor
          · intro inside
            cases inside
          · intro held
            exact absurd held (sound.notHeld place rfl)
        · intro front
          cases front
        · intro _ calling
          cases calling
        · exact fun _ => ⟨works, rfl⟩
      · exact .inl rfl
      · exact .inl rfl
      · rw [place]
        intro asleep
        exact Nat.le_succ_of_le (sound.counted (asleep.resolve_left (by simp)))

theorem sound_of_run (run : Run worker events pool) : Sound worker pool := by
  induction run with
  | start => exact sound_start worker
  | step _ step sound => exact sound.step step

/-- While a worker sleeps, every task in the queue has a thread that comes for
it or is about to wake one, and a thread that is about to take a task finds
one. -/
theorem nobody_sleeps_in_vain (run : Run worker events pool) :
    ((∃ thread, (pool.threads thread).place = .asleep) →
      pool.queue.length ≤ arriving pool) ∧
    ∀ thread, (pool.threads thread).place = .front → pool.queue ≠ [] := by
  have sound := sound_of_run run
  exact ⟨sound.counted, fun thread => (sound.fits thread).front⟩

theorem nobody_sleeps_in_vain_beside_a_task : ∃ pool : ThreadPool Bool Nat,
    (pool.threads true).place = .asleep ∧ pool.queue = [7] ∧
      pool.queue.length ≤ arriving pool := by
  obtain ⟨pool, run, queue, sleeps⟩ := exists_sleeper
  exact ⟨pool, sleeps, queue, (nobody_sleeps_in_vain run).1 ⟨true, sleeps⟩⟩

end Universe.ThreadPool
