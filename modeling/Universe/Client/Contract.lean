import Universe.Client.Life

/-!
# What `connect` returns

`IClient` promises a socket on success and `-1` on failure.  The connect to a
host that has addresses keeps that promise unless every address fails at once,
and the connect with a time limit unless the connect that `select` reports has
been refused: there a descriptor is returned after the failure.  The caller's
callback is called exactly once all the same.
-/

namespace Universe

open Stepwise

variable {κ σ : Type}

namespace Client

section Host

variable (app : App (ClientCB κ) σ) (heard : σ → List (Fd × ConnectResult))

/-- `callbacks[CONNECT]` has been called with a failure. -/
def Reported (w after : World (ClientCB κ) σ) : Prop :=
  ∃ fd outcome, outcome ≠ ConnectResult.ok ∧
    heard after.user = heard w.user ++ [(fd, outcome)]

/-- The attempt has failed when `connect` returns. -/
def FailedAtOnce (endings : List Ending) (ssl : Option Bool) : Prop :=
  ssl = some false ∨ ∀ ending ∈ endings, ending = .atOnce false

/-- The rule of `IClient`, 成功返回socket，失败返回-1. -/
def Returned (failed : Prop) (result : Int) (after : World (ClientCB κ) σ) :
    Prop :=
  (failed → result = -1) ∧
    (¬ failed → 0 ≤ result ∧ (after.kernel.conns result).isSome)

/-- The contract of `connect(address, port, callbacks, async, ssl)`: what it
returns, and that the callback has been called once when the life of the
attempt is over and cannot be called again. -/
def HostContract (needs depth : Nat) (s : Fd) (addresses : List Address)
    (endings : List Ending) (callbacks : EventCB κ) (ssl : Option Bool)
    (w : World (ClientCB κ) σ) : Prop :=
  ∃ result after, connectHost (app.dispatch depth) addresses callbacks ssl w =
      .ok result after ∧
    Returned (Reported heard w after ∨ FailedAtOnce endings ssl) result after ∧
    ∀ last, Life app heard needs s
        (if ssl = some false then [] else awaited endings) after last →
      ∃ fd outcome, heard last.user = heard w.user ++ [(fd, outcome)] ∧
        (outcome = .ok → ∃ ending ∈ endings, ending.connected = true) ∧
        (result ≠ -1 → last.callbacksAt result .connect = none)

end Host

/-- A connect with a time limit has failed: it is refused, at once or by the
time `select` returns, or nothing is known before the limit. -/
def DialFailed (timeout : Int) (status : ConnectStatus) (selected : Selected)
    (refused : Bool) : Prop :=
  status = .failed ∨
    0 < timeout ∧
      (selected ≠ .writable ∨ status = .inProgress ∧ refused = true) ∨
    ¬ 0 < timeout ∧ status ≠ .connected

/-- The contract of `connect(addr, addrlen, timeout)`, which has no
callbacks. -/
def DialContract (timeout : Int) (status : ConnectStatus)
    (selected : Selected) (refused : Bool) (w : World (ClientCB κ) σ) : Prop :=
  ∃ result after, dialWithin timeout selected w = .ok result after ∧
    Returned (DialFailed timeout status selected refused) result after

section Dial

variable {failed : Prop} {result s : Int} {w after : World (ClientCB κ) σ}

theorem returned_socket (nonneg : 0 ≤ s)
    (opened : (after.kernel.conns s).isSome) :
    Returned failed s after ↔ ¬ failed := by
  constructor
  · intro returned hasFailed
    have same := returned.1 hasFailed
    rw [same] at nonneg
    exact absurd nonneg (by decide)
  · intro connected
    exact ⟨fun hasFailed => absurd hasFailed connected,
      fun _ => ⟨nonneg, opened⟩⟩

theorem returned_failure : Returned failed (-1) after ↔ failed := by
  constructor
  · intro returned
    by_contra connected
    exact absurd (returned.2 connected).1 (by decide)
  · intro hasFailed
    exact ⟨fun _ => rfl, fun connected => absurd hasFailed connected⟩

/-- `connect` returns one value. -/
theorem exists_returned_iff {computation : EM (ClientCB κ) σ Int}
    {post : Int → World (ClientCB κ) σ → Prop}
    (returned : computation w = .ok result after) :
    (∃ other last, computation w = .ok other last ∧ post other last) ↔
      post result after := by
  constructor
  · rintro ⟨other, last, again, holds⟩
    rw [returned] at again
    cases again
    exact holds
  · exact fun holds => ⟨result, after, returned, holds⟩

variable {number : Fd} {numbers : List Fd} {status : ConnectStatus}
  {statuses : List ConnectStatus}
  (handed : w.kernel.answers.numbers = number :: numbers)
  (free : w.kernel.Free number)
  (answered : w.kernel.answers.connects = status :: statuses)
include handed free answered

/-- A number is handed out and `::connect` answers. -/
theorem dials (goOn : Fd → ConnectStatus → EM (ClientCB κ) σ Int) :
    ∃ asked : World (ClientCB κ) σ, asked.kernel.Free number ∧
      (do
        let s ← nextNumber
        let status ← sysConnect
        goOn s status) w = goOn number status asked := by
  have asks := sysConnect_eq (w := w.setAnswers { w.kernel.answers with
    numbers := numbers }) answered
  refine ⟨(w.setAnswers { w.kernel.answers with
    numbers := numbers }).setAnswers { w.kernel.answers with
      numbers := numbers, connects := statuses }, free, ?_⟩
  rw [bind_of_ok (nextNumber_eq handed free), bind_of_ok asks]
  rfl

/-- With a time limit the socket is kept or closed, as `select` says. -/
theorem dialWithin_eq {timeout : Int} (limited : 0 < timeout)
    (selected : Selected) :
    ∃ asked : World (ClientCB κ) σ, asked.kernel.Free number ∧
      dialWithin timeout selected w =
        (if status ≠ .failed ∧ selected = .writable then
          .ok number (asked.acceptFd number)
        else .ok (-1) (asked.closeSocket number)) := by
  unfold dialWithin
  rw [if_pos limited]
  obtain ⟨asked, free, dialed⟩ := dials handed free answered _
  refine ⟨asked, free, dialed.trans ?_⟩
  cases status <;> cases selected <;> rfl

theorem dial_eq :
    ∃ asked : World (ClientCB κ) σ, asked.kernel.Free number ∧
      (dial : EM (ClientCB κ) σ Int) w =
        (if status = .connected then .ok number (asked.acceptFd number)
        else .ok (-1) (asked.closeSocket number)) := by
  unfold dial
  obtain ⟨asked, free, dialed⟩ := dials handed free answered _
  refine ⟨asked, free, dialed.trans ?_⟩
  cases status <;> rfl

theorem dialContract_iff (timeout : Int) (selected : Selected)
    (refused : Bool) :
    DialContract timeout status selected refused w ↔
      ¬ (0 < timeout ∧ status = .inProgress ∧ selected = .writable ∧
        refused = true) := by
  have nonneg := free.1
  have opened : ∀ asked : World (ClientCB κ) σ, asked.kernel.Free number →
      ((asked.acceptFd number).kernel.conns number).isSome := by
    intro asked free
    rw [World.acceptFd, if_pos free]
    simp [World.log, Kernel.openFd]
  unfold DialContract
  by_cases limited : 0 < timeout
  · obtain ⟨asked, free, returned⟩ :=
      dialWithin_eq handed free answered limited selected
    by_cases kept : status ≠ .failed ∧ selected = .writable
    · rw [if_pos kept] at returned
      rw [exists_returned_iff returned,
        returned_socket nonneg (opened asked free)]
      simp [DialFailed, limited, kept]
    · rw [if_neg kept] at returned
      rw [exists_returned_iff returned, returned_failure]
      cases status <;> cases selected <;> simp_all [DialFailed]
  · obtain ⟨asked, free, returned⟩ := dial_eq handed free answered
    have unlimited : dialWithin timeout selected w = dial w := by
      unfold dialWithin
      rw [if_neg limited]
    rw [← unlimited] at returned
    by_cases connected : status = .connected
    · rw [if_pos connected] at returned
      rw [exists_returned_iff returned,
        returned_socket nonneg (opened asked free)]
      simp [DialFailed, limited, connected]
    · rw [if_neg connected] at returned
      rw [exists_returned_iff returned, returned_failure]
      simp [DialFailed, limited, connected]

end Dial

section Keeping

variable {body : κ → Fd → Arg → World (ClientCB κ) σ → ClientProgram κ σ}
  {wantMessage : κ → Bool} {unwatched : Fd → σ → σ} {callback : κ}
  {heard : σ → List (Fd × ConnectResult)} {needs depth : Nat} {s : Fd}
  (listens : Listens (app body wantMessage unwatched) callback heard needs s)
  {callbacks : EventCB κ} (found : callbacks .connect = some callback)
  {addresses : List Address} {endings : List Ending} {ssl : Option Bool}
  {w after : World (ClientCB κ) σ}

/-- `-1` is returned after the failure has been reported. -/
theorem hostContract_of_failure
    (returned : connectHost ((app body wantMessage unwatched).dispatch depth)
      addresses callbacks ssl w = .ok (-1) after)
    (once : heard after.user = heard w.user ++ [(-1, .ng)])
    (nothing : (if ssl = some false then [] else awaited endings) = []) :
    HostContract (app body wantMessage unwatched) heard needs depth s addresses
      endings callbacks ssl w := by
  refine ⟨-1, after, returned, returned_failure.mpr ?_, ?_⟩
  · exact .inl ⟨-1, .ng, nofun, once⟩
  · rw [nothing]
    intro last life
    cases life
    exact ⟨-1, .ng, once, nofun, fun different => absurd rfl different⟩

omit listens found in
/-- Nothing is known of what the code does without an address. -/
theorem not_hostContract_unresolved :
    ¬ HostContract (app body wantMessage unwatched) heard needs depth s []
      endings callbacks ssl w := by
  rintro ⟨result, after, returned, -⟩
  cases returned

include listens found in
theorem hostContract_of_success (standing : Standing callbacks heard s
      (heard w.user) (verdict endings) (awaited endings) after)
    (returned : connectHost ((app body wantMessage unwatched).dispatch depth)
      addresses callbacks ssl w = .ok s after)
    (nonneg : 0 ≤ s) (opened : (after.kernel.conns s).isSome)
    (secured : ssl ≠ some false)
    (other : ∃ ending ∈ endings, ending ≠ .atOnce false) :
    HostContract (app body wantMessage unwatched) heard needs depth s addresses
      endings callbacks ssl w := by
  refine ⟨s, after, returned, (returned_socket nonneg opened).mpr ?_, ?_⟩
  · rintro (⟨fd, outcome, notOk, reported⟩ | insecure | refused)
    · generalize listed : awaited endings = left at standing
      cases standing with
      | waiting _ _ _ _ _ _ _ nothing =>
          rw [nothing] at reported
          exact absurd reported.symm (by simp)
      | told _ once =>
          rw [once, verdict_of_awaited_nil listed other] at reported
          cases List.append_cancel_left reported
          exact notOk rfl
    · exact secured insecure
    · obtain ⟨ending, member, different⟩ := other
      exact different (refused ending member)
  · rw [if_neg secured]
    intro last life
    cases life_told listens found nonneg standing life with
    | told gone once =>
        exact ⟨s, _, once, connected_of_verdict, fun _ => gone⟩

include listens found in
theorem hostContract_iff (length : endings.length = addresses.length)
    (deep : needs + endings.length ≤ depth)
    (ready : addresses ≠ [] → Ready w s endings) :
    HostContract (app body wantMessage unwatched) heard needs depth s addresses
        endings callbacks ssl w ↔
      addresses ≠ [] ∧ (ssl = some false ∨
        ∃ ending ∈ endings, ending ≠ .atOnce false) := by
  have shallow : needs ≤ depth := by omega
  by_cases resolved : addresses = []
  · subst resolved
    exact ⟨fun contract => absurd contract not_hostContract_unresolved,
      fun condition => absurd rfl condition.1⟩
  have ready := ready resolved
  rw [and_iff_right resolved]
  by_cases secured : ssl = some false
  · subst secured
    obtain ⟨numbers, handed, -, -⟩ := ready.numbers
    obtain ⟨after, returned, once⟩ := connectHost_insecure listens found shallow
      resolved ready.free ready.unknown handed
    exact ⟨fun _ => .inl rfl,
      fun _ => hostContract_of_failure returned once (if_pos rfl)⟩
  obtain ⟨after, returned, advanced⟩ := connectHost_advances listens found
    resolved secured length deep ready
  constructor
  · rintro ⟨result, last, again, rule, -⟩
    by_contra none_other
    rw [returned] at again
    cases again
    have failed : FailedAtOnce endings ssl := by
      refine .inr fun ending member => ?_
      by_contra different
      exact none_other (.inr ⟨ending, member, different⟩)
    have negative := rule.1 (.inr failed)
    have nonneg := ready.free.1
    rw [negative] at nonneg
    exact absurd nonneg (by decide)
  · rintro (insecure | other)
    · exact absurd insecure secured
    · exact hostContract_of_success listens found advanced.standing returned
        ready.free.1 advanced.opened secured other

end Keeping

/-- What a callback is told about a connect. -/
def recorded (fd : Fd) : Arg → List (Fd × ConnectResult)
  | .result outcome => [(fd, outcome)]
  | _ => []

/-- A caller that records how its callback is called. -/
def record (_ : Unit) (fd : Fd) (arg : Arg)
    (_ : World (ClientCB Unit) (List (Fd × ConnectResult))) :
    ClientProgram Unit (List (Fd × ConnectResult)) :=
  .sequence [.manager (.user (· ++ recorded fd arg))]

def recorder : App (ClientCB Unit) (List (Fd × ConnectResult)) :=
  app record (fun _ => false) fun _ heard => heard

theorem recorder_listens (s : Fd) : Listens recorder () id 1 s := by
  refine ⟨?_, ?_, fun _ _ => rfl⟩
  · intro depth deep fd outcome w
    obtain ⟨nesting, rfl⟩ : ∃ nesting, depth = nesting + 1 :=
      ⟨depth - 1, by omega⟩
    refine ⟨{ w with user := w.user ++ [(fd, outcome)] }, rfl, rfl, rfl,
      ⟨rfl, id, id⟩, fun _ => id⟩
  · intro depth own fd arg w other
    cases depth with
    | zero => exact ⟨⟨rfl, id, id⟩, rfl⟩
    | succ nesting =>
        cases arg with
        | result outcome => exact absurd rfl (other outcome)
        | none => exact ⟨⟨rfl, id, id⟩, List.append_nil w.user⟩
        | message bytes => exact ⟨⟨rfl, id, id⟩, List.append_nil w.user⟩

def asking (numbers : List Fd) (connects : List ConnectStatus) :
    World (ClientCB Unit) (List (Fd × ConnectResult)) :=
  World.init [] { numbers := numbers, connects := connects }

end Client

end Universe
