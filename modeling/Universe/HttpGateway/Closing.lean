import Universe.HttpGateway.Network

/-!
# What closing a descriptor of the gateway does

`close` of a client, of a connection that is being made and of one that was
made call back into the gateway, which closes the other end.  Each of them
returns before the callbacks nest deeper than there are descriptors, and what
is left is said by `Leaves`.
-/

namespace Universe

open Incremental
open Std (ExtTreeMap)

namespace HttpGateway

namespace Network

/-- A client is gone, and the connection for it if it has another number. -/
structure Leaves (client remoteFd : Fd) (s after : Network) : Prop where
  roles : ∀ fd, after.roles[fd]? =
    if fd = client ∨ fd = remoteFd then none else s.roles[fd]?
  c2r : ∀ fd, after.tables.c2r[fd]? =
    if fd = client then none else s.tables.c2r[fd]?
  r2c : ∀ fd, after.tables.r2c[fd]? =
    if fd = remoteFd ∧ remoteFd ≠ client then none else s.tables.r2c[fd]?
  state : ∀ fd, fd ≠ client → after.stateful[fd]? = s.stateful[fd]?
  info : ∀ fd, fd ≠ client →
    after.tables.forwardInfo[fd]? = s.tables.forwardInfo[fd]?
  opened : s.opened ⊆ after.opened
  released : ∀ fd ∈ after.released, fd ∈ s.released ∨ fd = client ∨
    fd = remoteFd ∨ fd ∉ s.opened ∧ fd ∈ after.opened

variable {world : Surroundings} {close : Fd → M Bool} {s : Network}
  {client remoteFd : Fd} {depth : Nat}

/-- A client without a connection goes away alone. -/
theorem closing_alone (world : Surroundings) (depth : Nat)
    (isClient : s.roles[client]? = some .client)
    (unpaired : s.tables.c2r[client]? = none) :
    ∃ after, closing world (depth + 1) client s = .ok true after ∧
      Leaves client client s after := by
  refine ⟨{ (s.dropRole client).release client with
    toKept := Kept.alone client s.toKept }, ?_, ?_⟩
  · exact Environment.closing_client isClient
      (Environment.onClose_alone unpaired)
  constructor
  · intro fd
    grind [release, dropRole]
  · intro fd
    grind [Kept.alone]
  · intro fd
    simp [Kept.alone]
  · intro fd different
    simp [Kept.alone, Ne.symm different]
  · intro fd _
    rfl
  · exact List.Subset.refl _
  · intro fd member
    grind [release, dropRole]

/-- A client that is closed, before the connection for it is. -/
def leaving (client : Fd) (s : Network) : Network :=
  { (s.dropRole client).release client with
    toKept := Kept.leaving client s.toKept }

theorem closing_paired {after : Network}
    (isClient : s.roles[client]? = some .client)
    (paired : s.tables.c2r[client]? = some remoteFd)
    (closed : closeRemote (quietHost world (closing world depth)) remoteFd
      (s.leaving client) = .ok () after) :
    closing world (depth + 1) client s = .ok true after := by
  exact Environment.closing_client isClient
    (Environment.onClose_paired paired closed)

/-- The state in which `close_remote` closes a connection. -/
def forgetting (remoteFd : Fd) (s : Network) : Network :=
  { s with toKept := Kept.forgetting remoteFd s.toKept }

/-- A connection is gone, and its client was told. -/
structure Vanishes (client remoteFd : Fd) (s after : Network) : Prop where
  roles : ∀ fd, after.roles[fd]? =
    if fd = remoteFd then none else s.roles[fd]?
  c2r : after.tables.c2r = s.tables.c2r
  r2c : ∀ fd, after.tables.r2c[fd]? =
    if fd = remoteFd then none else s.tables.r2c[fd]?
  state : after.stateful = s.stateful
  info : ∀ fd, fd ≠ client →
    after.tables.forwardInfo[fd]? = s.tables.forwardInfo[fd]?
  opened : after.opened = s.opened
  released : ∀ fd ∈ after.released, fd ∈ s.released ∨ fd = remoteFd

/-- A connection that is not registered any more vanishes from the maps. -/
theorem vanishes_absent (absent : s.roles[remoteFd]? = none) :
    Vanishes client remoteFd s (s.forgetting remoteFd) := by
  constructor
  · intro fd
    grind [forgetting]
  · rfl
  · intro fd
    grind [forgetting, Kept.forgetting, Tables.eraseRemote]
  · rfl
  · intro fd _
    rfl
  · rfl
  · intro fd member
    exact .inl member

/-- A connection that is given up tells its client, which is gone. -/
theorem closing_connecting (world : Surroundings) (depth : Nat)
    (connects : s.roles[remoteFd]? = some (.connecting client))
    (gone : s.roles[client]? = none) :
    ∃ after, closing world (depth + 1) remoteFd (s.forgetting remoteFd) =
        .ok true after ∧
      Vanishes client remoteFd s after := by
  have absent : ((s.forgetting remoteFd).dropRole remoteFd).roles[client]? =
      none := by
    grind [forgetting, dropRole]
  refine ⟨(((s.forgetting remoteFd).dropRole remoteFd).release remoteFd).release
    remoteFd, ?_, ?_⟩
  · exact Environment.closing_connecting connects
      (Environment.onRemoteConnect_failed (by decide)
        (Environment.closing_absent absent))
  constructor
  · intro fd
    grind [forgetting, release, dropRole]
  · rfl
  · intro fd
    grind [forgetting, Kept.forgetting, release, dropRole, Tables.eraseRemote]
  · rfl
  · intro fd _
    rfl
  · rfl
  · intro fd member
    grind [forgetting, release, dropRole]

/-- A connection that was forgotten before takes nothing with it but what its
request was. -/
theorem closing_remote (world : Surroundings) (depth : Nat)
    (serves : s.roles[remoteFd]? = some (.remote client)) :
    ∃ after, closing world (depth + 1) remoteFd (s.forgetting remoteFd) =
        .ok true after ∧
      Vanishes client remoteFd s after ∧
      after.tables.forwardInfo[client]? = none := by
  have forgotten : (((s.forgetting remoteFd).dropRole remoteFd).release
      remoteFd).tables.r2c[remoteFd]? = none := by
    simp [release, dropRole, forgetting, Kept.forgetting, Tables.eraseRemote]
  refine ⟨{ ((s.forgetting remoteFd).dropRole remoteFd).release remoteFd with
    toKept := Kept.vanished remoteFd client
      (Kept.forgetting remoteFd s.toKept) }, ?_, ?_, ?_⟩
  · exact Environment.closing_remote serves
      (Environment.onRemoteClose_forgotten forgotten)
  · constructor
    · intro fd
      grind [forgetting, release, dropRole]
    · rfl
    · intro fd
      grind [Kept.vanished, Kept.forgetting, Tables.eraseRemote,
        Tables.eraseInfo]
    · rfl
    · intro fd different
      grind [Kept.vanished, Kept.forgetting, Tables.eraseRemote,
        Tables.eraseInfo]
    · rfl
    · intro fd member
      grind [forgetting, release, dropRole]
  · simp [Kept.vanished, Tables.eraseInfo]

/-- A client takes the connection for it with it. -/
theorem Vanishes.leaves {after : Network} (apart : remoteFd ≠ client)
    (vanishes : Vanishes client remoteFd (s.leaving client) after) :
    Leaves client remoteFd s after := by
  constructor
  · intro fd
    rw [vanishes.roles]
    grind [leaving, release, dropRole]
  · intro fd
    rw [vanishes.c2r]
    grind [leaving, Kept.leaving, Tables.eraseClient]
  · intro fd
    rw [vanishes.r2c]
    simp only [apart, ne_eq, not_false_eq_true, and_true]
    rfl
  · intro fd different
    rw [vanishes.state]
    simp [leaving, Kept.leaving, Ne.symm different]
  · intro fd different
    rw [vanishes.info fd different]
    rfl
  · rw [vanishes.opened]
    exact List.Subset.refl _
  · intro fd member
    have before := vanishes.released fd member
    grind [leaving, release, dropRole]

/-- A client whose connection is gone already. -/
theorem closing_widow (world : Surroundings) (depth : Nat)
    (isClient : s.roles[client]? = some .client)
    (paired : s.tables.c2r[client]? = some remoteFd)
    (absent : s.roles[remoteFd]? = none) :
    ∃ after, closing world (depth + 1) client s = .ok true after ∧
      Leaves client remoteFd s after := by
  have apart : remoteFd ≠ client := by
    rintro rfl
    rw [isClient] at absent
    cases absent
  have absent' : (s.leaving client).roles[remoteFd]? = none := by
    grind [leaving, release, dropRole]
  refine ⟨_, closing_paired isClient paired
    (Environment.closeRemote_of_closed
      (Environment.closing_absent absent')), ?_⟩
  exact Vanishes.leaves apart (vanishes_absent absent')

theorem closing_client_connecting (world : Surroundings) (depth : Nat)
    (isClient : s.roles[client]? = some .client)
    (paired : s.tables.c2r[client]? = some remoteFd)
    (connects : s.roles[remoteFd]? = some (.connecting client)) :
    ∃ after, closing world (depth + 2) client s = .ok true after ∧
      Leaves client remoteFd s after := by
  have apart : remoteFd ≠ client := by
    rintro rfl
    rw [isClient] at connects
    cases connects
  have connects' : (s.leaving client).roles[remoteFd]? =
      some (.connecting client) := by
    grind [leaving, release, dropRole]
  have gone : (s.leaving client).roles[client]? = none := by
    simp [leaving, release, dropRole]
  obtain ⟨after, closed, vanishes⟩ :=
    closing_connecting world depth connects' gone
  exact ⟨after, closing_paired isClient paired
    (Environment.closeRemote_of_closed closed),
    vanishes.leaves apart⟩

theorem closing_client_remote (world : Surroundings) (depth : Nat)
    (isClient : s.roles[client]? = some .client)
    (paired : s.tables.c2r[client]? = some remoteFd)
    (serves : s.roles[remoteFd]? = some (.remote client)) :
    ∃ after, closing world (depth + 2) client s = .ok true after ∧
      Leaves client remoteFd s after ∧
      after.tables.forwardInfo[client]? = none := by
  have apart : remoteFd ≠ client := by
    rintro rfl
    rw [isClient] at serves
    cases serves
  have serves' : (s.leaving client).roles[remoteFd]? =
      some (.remote client) := by
    grind [leaving, release, dropRole]
  obtain ⟨after, closed, vanishes, info⟩ :=
    closing_remote world depth serves'
  exact ⟨after, closing_paired isClient paired
    (Environment.closeRemote_of_closed closed),
    vanishes.leaves apart, info⟩

/-- A provider that goes away takes its client with it. -/
theorem closing_provider (world : Surroundings) (depth : Nat)
    (isClient : s.roles[client]? = some .client)
    (paired : s.tables.c2r[client]? = some remoteFd)
    (known : s.tables.r2c[remoteFd]? = some client)
    (serves : s.roles[remoteFd]? = some (.remote client)) :
    ∃ after, closing world (depth + 2) remoteFd s = .ok true after ∧
      Leaves client remoteFd s after := by
  have apart : remoteFd ≠ client := by
    rintro rfl
    rw [isClient] at serves
    cases serves
  have still : ((s.dropRole remoteFd).release remoteFd).roles[client]? =
      some .client := by
    grind [release, dropRole]
  have absent : ((s.dropRole remoteFd).release remoteFd).roles[remoteFd]? =
      none := by
    simp [release, dropRole]
  obtain ⟨between, closed, leaves⟩ :=
    closing_widow world depth still paired absent
  refine ⟨{ between with
    toKept := Kept.widowed remoteFd client between.toKept }, ?_, ?_⟩
  · exact Environment.closing_remote serves
      (Environment.onRemoteClose_known known closed)
  constructor
  · intro fd
    rw [leaves.roles]
    grind [release, dropRole]
  · intro fd
    exact leaves.c2r fd
  · intro fd
    exact leaves.r2c fd
  · intro fd different
    exact leaves.state fd different
  · intro fd different
    have before := leaves.info fd different
    grind [Kept.widowed, Tables.eraseInfo, release, dropRole]
  · exact leaves.opened
  · intro fd member
    have before := leaves.released fd member
    grind [release, dropRole]

/-- The request is written to a connection that takes it, or that is not
registered. -/
theorem onRemoteConnect_writes {connect : HttpProviderAddress → Fd → M Fd}
    {request : HttpRequest} {target : HttpProviderAddress} {packet : Bytes}
    (info : s.tables.forwardInfo[client]? = some (request, target))
    (printed : request.forwardPacket target = some packet)
    (possible : s.roles[remoteFd]? = none ∨ remoteFd ∉ world.broken) :
    onRemoteConnect (hostWith world (closing world depth) connect) remoteFd .ok
      client s = .ok () s := by
  have wrote : ∃ size, writing world (closing world depth) remoteFd packet s =
      .ok size s := by
    unfold writing
    by_cases broken : remoteFd ∈ world.broken
    · rw [if_pos broken]
      rcases possible with absent | intact
      · exact ⟨_, Stepwise.bind_of_ok (Environment.closing_absent absent)⟩
      · exact absurd broken intact
    · rw [if_neg broken]
      exact ⟨_, rfl⟩
  obtain ⟨size, wrote⟩ := wrote
  exact Environment.onRemoteConnect_writes info printed wrote

/-- What the gateway changes about a client before it opens or closes
connections. -/
structure Prepares (client : Fd) (s after : Network) : Prop where
  roles : after.roles = s.roles
  c2r : after.tables.c2r = s.tables.c2r
  r2c : after.tables.r2c = s.tables.r2c
  state : ∀ fd, fd ≠ client → after.stateful[fd]? = s.stateful[fd]?
  info : ∀ fd, fd ≠ client →
    after.tables.forwardInfo[fd]? = s.tables.forwardInfo[fd]?
  opened : s.opened ⊆ after.opened
  released : ∀ fd ∈ after.released,
    fd ∈ s.released ∨ fd ∉ s.opened ∧ fd ∈ after.opened

theorem Leaves.prepared {between after : Network}
    (leaves : Leaves client remoteFd between after)
    (prepares : Prepares client s between) : Leaves client remoteFd s after := by
  constructor
  · intro fd
    rw [leaves.roles, prepares.roles]
  · intro fd
    rw [leaves.c2r, prepares.c2r]
  · intro fd
    rw [leaves.r2c, prepares.r2c]
  · intro fd different
    rw [leaves.state fd different, prepares.state fd different]
  · intro fd different
    rw [leaves.info fd different, prepares.info fd different]
  · exact List.Subset.trans prepares.opened leaves.opened
  · intro fd member
    rcases leaves.released fd member with earlier | own | other | ⟨fresh, isOpen⟩
    · rcases prepares.released fd earlier with before | ⟨fresh, isOpen⟩
      · exact .inl before
      · exact .inr (.inr (.inr ⟨fresh, leaves.opened isOpen⟩))
    · exact .inr (.inl own)
    · exact .inr (.inr (.inl other))
    · exact .inr (.inr (.inr
        ⟨fun before => fresh (prepares.opened before), isOpen⟩))

end Network

end HttpGateway

end Universe
